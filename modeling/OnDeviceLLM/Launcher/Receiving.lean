import OnDeviceLLM.Http.Message
import OnDeviceLLM.Launcher.Serving

namespace LLM.Launcher

open Cxx Text

/-- What the second loop of `recv_all` waits for, where it is entered. -/
def awaitedLength (data : Text) : Except Exception (Option Nat) :=
  if find data contentLengthName 0 ≠ npos ∧ find data headersEnd 0 ≠ npos then do
    let contentLength ← contentLength data (find data contentLengthName 0)
    .ok (some (contentLength % 2^64).toNat)
  else .ok none

def bodyRead (data : Text) : Nat := sizeSub data.length (sizeAdd (find data headersEnd 0) 4)

theorem recvCounted_eq (client : Connection) :
    recvCounted client = (do
      let headers ← recvHeaders [] 0 client.received
      match ← awaitedLength headers.data with
      | some length => recvBody length headers.data (bodyRead headers.data) headers.calls headers.pending
      | none => .ok headers) := by
  unfold recvCounted awaitedLength
  congr 1
  funext headers
  by_cases sized : find headers.data contentLengthName 0 ≠ npos ∧ find headers.data headersEnd 0 ≠ npos
  · simp only [if_pos sized]
    cases contentLength headers.data (find headers.data contentLengthName 0) <;> rfl
  · simp only [if_neg sized]
    rfl

theorem awaitedLength_incomplete {data : Text} (fits : data.length ≤ maxSize) (incomplete : ¬ headersEnd <:+: data) :
    awaitedLength data = .ok none :=
  if_neg fun both => incomplete ((complete_iff fits).mp both.2)

theorem bodyRead_eq {data : Text} (complete : headersEnd <:+: data) (fits : data.length ≤ maxSize) :
    ∃ front rest, data = front ++ (headersEnd ++ rest) ∧
      ¬ headersEnd <:+: front ++ headersEnd.dropLast ∧ bodyRead data = rest.length := by
  obtain ⟨front, rest, split, first⟩ := exists_first (by decide) complete
  have bound : maxSize < 2^63 := by decide
  have four : headersEnd.length = 4 := by decide
  have position : find data headersEnd 0 = front.length := find_text split first
  have size : data.length = front.length + (4 + rest.length) := by
    rw [split, List.length_append, List.length_append, four]
  refine ⟨front, rest, split, first, ?_⟩
  rw [bodyRead, position, sizeAdd_of_lt (by omega), sizeSub_of_le (by omega) (by omega), size]
  omega

theorem bodyRead_append {data more : Text} (complete : headersEnd <:+: data)
    (fits : (data ++ more).length ≤ maxSize) : bodyRead (data ++ more) = bodyRead data + more.length := by
  have short : data.length ≤ maxSize := by
    rw [List.length_append] at fits
    omega
  obtain ⟨front, rest, split, first, read⟩ := bodyRead_eq complete short
  have bound : maxSize < 2^63 := by decide
  have four : headersEnd.length = 4 := by decide
  have whole : data ++ more = front ++ (headersEnd ++ (rest ++ more)) := by
    rw [split]
    simp only [List.append_assoc]
  have position : find (data ++ more) headersEnd 0 = front.length := find_text whole first
  have size : (data ++ more).length = front.length + (4 + (rest.length + more.length)) := by
    rw [whole, List.length_append, List.length_append, List.length_append, four]
  rw [read, bodyRead, position, sizeAdd_of_lt (by omega), sizeSub_of_le (by omega) (by omega), size]
  omega

def ReadEnough (awaited : Option Nat) (data : Text) : Prop :=
  headersEnd <:+: data ∧ ∀ length, awaited = some length → length ≤ bodyRead data

/-- The pieces that `recv_all` takes are the fewest after which it has enough, or all there are;
    only in the second case does it make one more call. -/
theorem recvCounted_spec (client : Connection) {awaited : Option Nat}
    (waits : awaitedLength client.headers = .ok awaited) :
    ∃ taken calls, recvCounted client =
        .ok ⟨(client.received.take taken).flatten, client.received.drop taken, calls⟩ ∧
      Fewest (fun k => ReadEnough awaited (client.received.take k).flatten) client.received.length taken calls := by
  obtain ⟨first, made, read, text, headers⟩ := client.read_headers
  have short : client.headers.length ≤ maxSize := by
    rw [text]
    exact client.taken_fits first
  rw [recvCounted_eq, read]
  simp only [bind, Except.bind, waits]
  rcases headers.ended with ⟨complete, same⟩ | ⟨all, incomplete, same⟩
  · rw [← text] at complete
    cases awaited with
    | none =>
      refine ⟨first, made, by rw [text], headers.within, fun k less enough => headers.fewer k less enough.1, .inl ?_⟩
      rw [← text]
      exact ⟨⟨complete, nofun⟩, same⟩
    | some length =>
      have later : ∀ k, (client.received.take (first + k)).flatten =
          client.headers ++ ((client.received.drop first).take k).flatten := by
        intro k
        rw [List.take_add, List.flatten_append, text]
      have total : (client.headers ++ (client.received.drop first).flatten).length ≤ maxSize := by
        rw [text, ← List.flatten_append, List.take_append_drop]
        exact client.fits
      have inside : bodyRead client.headers ≤ client.headers.length :=
        alreadyRead_le short ((complete_iff short).mpr complete)
      obtain ⟨more, asked, returned, body⟩ :=
        recvBody_spec length (client.received.drop first) client.headers (bodyRead client.headers) made total inside
      have reached : ∀ k, length ≤ bodyRead client.headers + ((client.received.drop first).take k).flatten.length ↔
          ReadEnough (some length) (client.received.take (first + k)).flatten := by
        intro k
        have fits := client.taken_fits (first + k)
        rw [later] at fits ⊢
        rw [ReadEnough, bodyRead_append complete fits]
        constructor
        · intro enough
          refine ⟨complete.trans (List.prefix_append _ _).isInfix, fun other waits => ?_⟩
          cases waits
          exact enough
        · exact fun enough => enough.2 length rfl
      rw [List.length_drop] at body
      refine ⟨first + more, made + asked, ?_, ?_⟩
      · rw [later, ← List.drop_drop]
        exact returned
      · rw [same]
        exact .after headers.within (fun k less enough => headers.fewer k less enough.1) (body.congr reached)
  · rw [← text] at incomplete
    rw [awaitedLength_incomplete short incomplete] at waits
    cases waits
    refine ⟨first, made, by rw [text], headers.within, fun k less enough => headers.fewer k less enough.1, .inr ?_⟩
    rw [← text]
    exact ⟨all, fun enough => incomplete enough.1, same⟩

section Requests

theorem headersEnd_eq : headersEnd = Http.blankLine := by decide

theorem head_complete (head : Http.Head) (part : Text) : headersEnd <:+: head.text ++ part := by
  rw [headersEnd_eq]
  exact head.ends.isInfix.trans (List.prefix_append head.text part).isInfix

theorem bodyRead_head {head : Http.Head} {part : Text} (fits : (head.text ++ part).length ≤ maxSize) :
    bodyRead (head.text ++ part) = part.length := by
  obtain ⟨front, split, first⟩ := head.split
  have bound : maxSize < 2^63 := by decide
  have four : Http.blankLine.length = 4 := rfl
  have position : find (head.text ++ part) headersEnd 0 = front.length := by
    rw [headersEnd_eq]
    exact find_text (by rw [split, List.append_assoc]) first
  have size : (head.text ++ part).length = front.length + 4 + part.length := by
    rw [split, List.length_append, List.length_append, four]
  rw [bodyRead, position, sizeAdd_of_lt (by omega), sizeSub_of_le (by omega) (by omega), size]
  omega

/-- The data is a header block and, after it, at least the body that is waited for. -/
def Enough (awaited : Option Nat) (data : Text) : Prop :=
  ∃ (head : Http.Head) (body : Text), data = head.text ++ body ∧
    ∀ length, awaited = some length → length ≤ body.length

theorem enough_iff {awaited : Option Nat} {data : Text} (fits : data.length ≤ maxSize) :
    Enough awaited data ↔ ReadEnough awaited data := by
  constructor
  · rintro ⟨head, body, rfl, long⟩
    refine ⟨head_complete head body, fun length waits => ?_⟩
    rw [bodyRead_head fits]
    exact long length waits
  · rintro ⟨complete, long⟩
    obtain ⟨front, rest, split, first, read⟩ := bodyRead_eq complete fits
    rw [headersEnd_eq] at split first
    have block : ¬ Http.blankLine <:+: (front ++ Http.blankLine).dropLast := by
      rw [List.dropLast_append_of_ne_nil (by decide)]
      exact first
    refine ⟨⟨front ++ Http.blankLine, List.suffix_append _ _, block⟩, rest, ?_, ?_⟩
    · rw [split, List.append_assoc]
    · rw [← read]
      exact long

/-- `recv_all` waits for this number of body bytes, or for none: it returns the bytes of the fewest
    pieces that are the headers and that body, untouched and in order, or of all there are. -/
def Awaits (client : Connection) (awaited : Option Nat) : Prop :=
  awaitedLength client.headers = .ok awaited ∧
  ∃ taken calls, recvAll client = .ok (client.received.take taken).flatten ∧ recvCalls client = .ok calls ∧
    Fewest (fun k => Enough awaited (client.received.take k).flatten) client.received.length taken calls

theorem awaits_of_awaitedLength {client : Connection} {awaited : Option Nat}
    (waits : awaitedLength client.headers = .ok awaited) : Awaits client awaited := by
  obtain ⟨taken, calls, returned, fewest⟩ := recvCounted_spec client waits
  obtain ⟨text, count⟩ := recvAll_of_counted returned
  exact ⟨waits, taken, calls, text, count, fewest.congr fun k => (enough_iff (client.taken_fits k)).symm⟩

theorem recvAll_error {client : Connection} {e : Exception} (thrown : awaitedLength client.headers = .error e) :
    recvAll client = .error e := by
  obtain ⟨_, _, read, _⟩ := client.read_headers
  rw [recvAll, recvCounted_eq, read]
  simp only [bind, Except.bind, thrown]
  rfl

/-- What `recv_all` does for every client: it throws on ill-sized headers, and otherwise the headers
    alone say what it waits for. -/
theorem recvAll_fewest_pieces (client : Connection) :
    (¬ WellSized client.headers ∧ recvAll client = .error .outOfRange) ∨ ∃ awaited, Awaits client awaited := by
  rcases recvAll_outcome client with ⟨_, request, received, _⟩ | illSized
  · right
    cases waits : awaitedLength client.headers with
    | error e =>
      rw [recvAll_error waits] at received
      cases received
    | ok awaited => exact ⟨awaited, awaits_of_awaitedLength waits⟩
  · exact .inl illSized

end Requests

end LLM.Launcher

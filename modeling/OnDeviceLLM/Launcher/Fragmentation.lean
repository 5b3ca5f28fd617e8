import OnDeviceLLM.Launcher.Receiving

namespace LLM.Launcher

open Cxx Text

/-- The first `Content-Length:` of the block, with a run of digits after it that is this
    number. -/
structure Announces (head : Http.Head) (length : Nat) where
  before : Text
  rest : Text
  split : head.text = before ++ (contentLengthName ++ rest)
  first : ¬ contentLengthName <:+: before ++ contentLengthName.dropLast
  run : digitRun rest ≠ []
  value : decimal (digitRun rest) = length

namespace Announces

variable {head : Http.Head} {length : Nat} {part : Text}

theorem digitRun_eq (announced : Announces head length) (part : Text) :
    digitRun (contentLengthName ++ (announced.rest ++ part)) = digitRun announced.rest := by
  have name : contentLengthName.any isDigit = false := by decide
  have nonempty : announced.rest ≠ [] := by
    intro empty
    have run := announced.run
    rw [empty] at run
    exact run rfl
  -- the block ends in a line feed, so no digit of what follows joins the run
  obtain ⟨front, ends⟩ := head.suffix_feed (announced.split.trans (List.append_assoc _ _ _).symm) nonempty
  have run := announced.run
  rw [digitRun_skip name, ends]
  rw [ends] at run
  exact digitRun_append rfl run part

/-- What the block announces is what is waited for. -/
theorem awaitedLength (announced : Announces head length) (small : length ≤ 2147483647)
    (fits : (head.text ++ part).length ≤ maxSize) :
    LLM.Launcher.awaitedLength (head.text ++ part) = .ok (some length) := by
  have bound : maxSize < npos := by decide
  have whole : head.text ++ part = announced.before ++ (contentLengthName ++ (announced.rest ++ part)) := by
    rw [announced.split, List.append_assoc, List.append_assoc]
  have named : find (head.text ++ part) contentLengthName 0 = announced.before.length :=
    find_text whole announced.first
  have inside : announced.before.length ≤ (head.text ++ part).length := by
    rw [whole, List.length_append]
    omega
  have found : announced.before.length ≠ npos := by omega
  have complete : find (head.text ++ part) headersEnd 0 ≠ npos := (complete_iff fits).mpr (head_complete head part)
  have digits : digitRun ((head.text ++ part).drop announced.before.length) = digitRun announced.rest := by
    rw [whole, List.drop_left, announced.digitRun_eq]
  have read : contentLength (head.text ++ part) announced.before.length = .ok (length : Int) := by
    rw [contentLength_eq fits, digits, announced.value, if_pos ⟨announced.run, by omega⟩]
  rw [LLM.Launcher.awaitedLength, named, if_pos ⟨found, complete⟩, read]
  have cast : ((length : Int) % 2^64).toNat = length := by omega
  simp only [bind, Except.bind, cast]

end Announces

/-- The block lies in what the first loop has read. -/
theorem read_split (head : Http.Head) {read rest body : Text} (complete : headersEnd <:+: read)
    (whole : read ++ rest = head.text ++ body) :
    ∃ part, read = head.text ++ part ∧ body = part ++ rest := by
  rcases List.append_eq_append_iff.mp whole with ⟨more, headEq, restEq⟩ | ⟨part, readEq, bodyEq⟩
  · by_cases none : more = []
    · rw [none, List.append_nil] at headEq
      rw [none, List.nil_append] at restEq
      exact ⟨[], by rw [headEq, List.append_nil], by rw [restEq, List.nil_append]⟩
    · have inside : read <+: head.text.dropLast := by
        rw [headEq, List.dropLast_append_of_ne_nil none]
        exact List.prefix_append _ _
      rw [headersEnd_eq] at complete
      exact absurd (complete.trans inside.isInfix) head.first
  · exact ⟨part, readEq, bodyEq⟩

section Streams

variable {client : Connection} {head : Http.Head} {body : Text} {pieces more : List Text}

theorem headers_of_stream (split : client.received = pieces ++ more) (stream : pieces.flatten = head.text ++ body) :
    ∃ part, client.headers = head.text ++ part := by
  obtain ⟨first, _, _, text, fewest⟩ := client.read_headers
  have whole : (client.received.take first).flatten ++ (client.received.drop first).flatten =
      head.text ++ (body ++ more.flatten) := by
    rw [← List.flatten_append, List.take_append_drop, split, List.flatten_append, stream, List.append_assoc]
  have complete : headersEnd <:+: (client.received.take first).flatten := by
    rcases fewest.ended with ⟨complete, _⟩ | ⟨all, lacking, _⟩
    · exact complete
    · rw [all, List.take_length, split, List.flatten_append, stream, List.append_assoc] at lacking
      exact absurd (head_complete head _) lacking
  obtain ⟨part, same, _⟩ := read_split head complete whole
  exact ⟨part, by rw [text, same]⟩

/-- No prefix of a stream is as long as the stream but for missing pieces, none of which is empty. -/
theorem all_pieces (split : client.received = pieces ++ more) {k : Nat} (within : k ≤ pieces.length)
    (same : (pieces.take k).flatten = pieces.flatten) : k = pieces.length := by
  have lengths := congrArg List.length (congrArg List.flatten (List.take_append_drop k pieces))
  rw [List.flatten_append, List.length_append, same] at lengths
  have empty : (pieces.drop k).flatten = [] := List.eq_nil_of_length_eq_zero (by omega)
  rcases dropped : pieces.drop k with _ | ⟨piece, left⟩
  · have length := congrArg List.length dropped
    rw [List.length_drop, List.length_nil] at length
    omega
  · have inside : piece ∈ pieces.drop k := by
      rw [dropped]
      exact List.mem_cons_self
    have member : piece ∈ client.received := by
      rw [split]
      exact List.mem_append_left more (List.mem_of_mem_drop inside)
    have positive := (client.sized piece member).1
    rw [dropped, List.flatten_cons, List.append_eq_nil_iff] at empty
    rw [empty.1] at positive
    exact absurd positive (lt_irrefl 0)

/-- With the block and as many bytes as the body has, all of the stream is in. -/
theorem stream_complete (stream : pieces.flatten = head.text ++ body) {k : Nat}
    (fits : (pieces.take k).flatten.length ≤ maxSize) (enough : ReadEnough (some body.length) (pieces.take k).flatten) :
    (pieces.take k).flatten = pieces.flatten := by
  have parts : (pieces.take k).flatten ++ (pieces.drop k).flatten = head.text ++ body := by
    rw [← List.flatten_append, List.take_append_drop, stream]
  obtain ⟨part, read, rest⟩ := read_split head enough.1 parts
  have count := enough.2 _ rfl
  rw [read] at fits
  rw [read, bodyRead_head fits] at count
  have sizes := congrArg List.length rest
  rw [List.length_append] at sizes
  have nothing : (pieces.drop k).flatten = [] := List.eq_nil_of_length_eq_zero (by omega)
  rw [nothing, List.append_nil] at parts
  rw [parts, stream]

/-- A stream that announces its body is taken to its end, and nothing of what comes after it. -/
theorem Announces.received (announced : Announces head body.length) (small : body.length ≤ 2147483647)
    (split : client.received = pieces ++ more) (stream : pieces.flatten = head.text ++ body) :
    recvCounted client = .ok ⟨head.text ++ body, more, pieces.length⟩ := by
  obtain ⟨part, headers⟩ := headers_of_stream split stream
  have waits : LLM.Launcher.awaitedLength client.headers = .ok (some body.length) := by
    obtain ⟨first, _, _, text, _⟩ := client.read_headers
    have short := client.taken_fits first
    rw [← text, headers] at short
    rw [headers]
    exact announced.awaitedLength small short
  obtain ⟨taken, calls, returned, fewest⟩ := recvCounted_spec client waits
  have prefixes : ∀ k, k ≤ pieces.length → client.received.take k = pieces.take k := by
    intro k within
    rw [split, List.take_append_of_le_length within]
  have whole : (client.received.take pieces.length).flatten = head.text ++ body := by
    rw [prefixes _ (Nat.le_refl _), List.take_length, stream]
  have fits : (head.text ++ body).length ≤ maxSize := by
    rw [← whole]
    exact client.taken_fits pieces.length
  have enough : ReadEnough (some body.length) (client.received.take pieces.length).flatten := by
    rw [whole]
    refine ⟨head_complete head body, fun length waits => ?_⟩
    cases waits
    rw [bodyRead_head fits]
  have within : taken ≤ pieces.length := not_lt.mp fun less => fewest.fewer _ less enough
  have ended : taken = pieces.length ∧ calls = taken := by
    rcases fewest.ended with ⟨now, same⟩ | ⟨all, lacking, _⟩
    · have short := client.taken_fits taken
      rw [prefixes taken within] at now short
      exact ⟨all_pieces split within (stream_complete stream short now), same⟩
    · have length := congrArg List.length split
      rw [List.length_append] at length
      have equal : taken = pieces.length := by omega
      rw [equal] at lacking
      exact absurd enough lacking
  rw [returned, ended.2, ended.1, whole, split, List.drop_left]

end Streams

/-- However the stream is cut and whatever comes after it, `recv_all` returns all of it and makes
    no call of `recv` but those that deliver it. -/
theorem recvAll_fragmentation_independent (head : Http.Head) (body : Text)
    (announced : Announces head body.length) (small : body.length ≤ 2147483647) (client : Connection)
    (pieces more : List Text) (split : client.received = pieces ++ more)
    (stream : pieces.flatten = head.text ++ body) :
    recvAll client = .ok (head.text ++ body) ∧ recvCalls client = .ok pieces.length :=
  recvAll_of_counted (announced.received small split stream)

def postHead : Http.Head where
  text := ascii "POST / HTTP/1.1\r\nContent-Length: 15\r\n\r\n"
  ends := by decide
  first := by decide +kernel

def postHead_announces : Announces postHead 15 where
  before := ascii "POST / HTTP/1.1\r\n"
  rest := ascii " 15\r\n\r\n"
  split := by decide
  first := by decide
  run := by decide
  value := by decide

/-- Cut inside the number, inside the blank line and inside the body. -/
def piecewise : Connection where
  received := [ascii "POST / HTTP/1.1\r\nContent-Length: 1", ascii "5\r\n\r", ascii "\n\x7b\"prompt\"",
    ascii ":\"hi\"\x7d"]
  sized := by decide
  fits := by decide

/-- The same client, which goes on with another request. -/
def piecewiseMore : Connection where
  received := piecewise.received ++ [ascii "GET / HTTP/1.1\r\n\r\n"]
  sized := by decide
  fits := by decide

theorem recvAll_fragmentation_independent_piecewise :
    recvCalls piecewiseMore = .ok 4 ∧
      recvAll piecewiseMore = .ok (postHead.text ++ ascii "\x7b\"prompt\":\"hi\"\x7d") := by
  have received := recvAll_fragmentation_independent postHead (ascii "\x7b\"prompt\":\"hi\"\x7d")
    postHead_announces (by decide) piecewiseMore piecewise.received _ rfl (by decide)
  exact ⟨received.2, received.1⟩

end LLM.Launcher

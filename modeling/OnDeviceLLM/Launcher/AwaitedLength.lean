import OnDeviceLLM.Launcher.Fragmentation

namespace LLM.Launcher

open Cxx Text

def fieldName : Text := ascii "Content-Length"

section Spelled

variable {head : Http.Head} {value : Text} {length : Nat}

theorem contentLengthName_eq : contentLengthName = fieldName ++ [Http.colon] := by decide

theorem fieldLine_digitRun (line : Http.FieldLine fieldName value) (denotes : Http.number value = some length) :
    digitRun (line.content ++ (Http.crlf ++ line.after)) = value := by
  obtain ⟨nonempty, digits, _⟩ := Http.number_some denotes
  obtain ⟨blankLead, blankTrail⟩ := line.blanks
  have regrouped : line.content ++ (Http.crlf ++ line.after) =
      line.lead ++ (value ++ (line.trail ++ (Http.crlf ++ line.after))) := by
    rw [Http.FieldLine.content, List.append_assoc, List.append_assoc]
  have ends : ∀ b ∈ (line.trail ++ (Http.crlf ++ line.after)).head?, isDigit b = false := by
    intro b first
    cases trailDef : line.trail with
    | nil =>
      rw [trailDef] at first
      cases first
      rfl
    | cons c trail =>
      rw [trailDef] at first
      cases first
      exact Http.isDigit_of_isBlank (List.all_eq_true.mp blankTrail b (trailDef ▸ List.mem_cons_self))
  have leads : line.lead.any isDigit = false := by
    rw [List.any_eq_false]
    intro b member
    rw [Http.isDigit_of_isBlank (List.all_eq_true.mp blankLead b member)]
    exact Bool.false_ne_true
  rw [regrouped, digitRun_skip leads]
  exact digitRun_of_digits nonempty digits ends

/-- A field line that is spelled as the source looks for it, before any other occurrence of
    that text, is the one that is found. -/
def announcesField (line : Http.FieldLine fieldName value) (inHead : head.text = line.block)
    (first : ¬ contentLengthName <:+: line.before ++ Http.crlf ++ contentLengthName.dropLast)
    (denotes : Http.number value = some length) : Announces head length where
  before := line.before ++ Http.crlf
  rest := line.content ++ (Http.crlf ++ line.after)
  split := by
    rw [inHead, Http.FieldLine.block, contentLengthName_eq]
    simp
  first := first
  run := by
    rw [fieldLine_digitRun line denotes]
    exact (Http.number_some denotes).1
  value := by
    rw [fieldLine_digitRun line denotes]
    exact (Http.number_some denotes).2.2

end Spelled

/-- Where the text `Content-Length:` first occurs as the name of a header line, that line's
    number is waited for, whatever the other lines are; where it occurs nowhere, nothing is. -/
theorem awaited_length_spelled (client : Connection) (head : Http.Head) (part : Text)
    (received : client.headers = head.text ++ part) :
    (∀ value length (line : Http.FieldLine fieldName value), head.text = line.block →
      ¬ contentLengthName <:+: line.before ++ Http.crlf ++ contentLengthName.dropLast →
      Http.number value = some length → length ≤ 2147483647 → Awaits client (some length)) ∧
    (¬ contentLengthName <:+: client.headers → Awaits client none) := by
  have fits : client.headers.length ≤ maxSize := by
    obtain ⟨first, _, _, text, _⟩ := client.read_headers
    rw [text]
    exact client.taken_fits first
  constructor
  · intro value length line inHead first denotes small
    apply awaits_of_awaitedLength
    rw [received] at fits ⊢
    exact (announcesField line inHead first denotes).awaitedLength small fits
  · intro absent
    apply awaits_of_awaitedLength
    have missed := (find_eq_npos_iff fits).mpr absent
    rw [awaitedLength, if_neg (fun found => found.1 missed)]

def tenLine : Http.FieldLine fieldName (ascii "10") where
  before := ascii "POST / HTTP/1.1\r\nHost: a"
  lead := ascii "  "
  trail := ascii "\t"
  after := ascii "Accept: 7\r\n\r\n"
  blanks := ⟨by decide, by decide⟩

def tenHead : Http.Head where
  text := ascii "POST / HTTP/1.1\r\nHost: a\r\nContent-Length:  10\t\r\nAccept: 7\r\n\r\n"
  ends := by decide +kernel
  first := by decide +kernel

/-- Five bytes of the body come with the headers; it names a length of its own, and more follows. -/
def tenClient : Connection where
  received := [tenHead.text ++ ascii "Conte", ascii "nt-", ascii "Length: 3", ascii "456"]
  sized := by decide
  fits := by decide

/-- The name in another letter case. -/
def lowerCaseHead : Http.Head where
  text := ascii "POST / HTTP/1.1\r\ncontent-length: 2\r\n\r\n"
  ends := by decide +kernel
  first := by decide +kernel

/-- A name that ends in the same text. -/
def longerNameHead : Http.Head where
  text := ascii "POST / HTTP/1.1\r\nX-Content-Length: 0\r\nContent-Length: 2\r\n\r\n"
  ends := by decide +kernel
  first := by decide +kernel

/-- The body comes in a `recv` of its own. -/
def sendingLate (head : Http.Head) (small : head.text.length ≤ 4096) : Connection where
  received := [head.text, ascii "hi"]
  sized := by
    have some : Http.blankLine.length ≤ head.text.length := head.ends.length_le
    have body : 0 < (ascii "hi").length ∧ (ascii "hi").length ≤ 4096 := by decide
    have four : Http.blankLine.length = 4 := rfl
    exact List.forall_mem_cons.mpr ⟨⟨by omega, small⟩, List.forall_mem_singleton.mpr body⟩
  fits := by
    have body : (ascii "hi").length = 2 := by decide
    have bound : 4098 ≤ maxSize := by decide
    simp only [List.flatten_cons, List.flatten_nil, List.append_nil, List.length_append, body]
    omega

theorem awaited_length_spelled_ten :
    Awaits tenClient (some 10) ∧ Awaits (sendingLate lowerCaseHead (by decide)) none :=
  ⟨(awaited_length_spelled tenClient tenHead (ascii "Conte") (by decide +kernel)).1 (ascii "10") 10 tenLine
      (by decide +kernel) (by decide +kernel) (by decide) (by decide),
    (awaited_length_spelled (sendingLate lowerCaseHead (by decide)) lowerCaseHead [] (by decide +kernel)).2
      (by decide +kernel)⟩

/-- The two bytes that the field announces are not waited for. -/
theorem awaited_length_not_field :
    Http.field fieldName lowerCaseHead.text = some (ascii "2") ∧
    ¬ Awaits (sendingLate lowerCaseHead (by decide)) (some 2) ∧
    recvAll (sendingLate lowerCaseHead (by decide)) = .ok lowerCaseHead.text ∧
    Http.field fieldName longerNameHead.text = some (ascii "2") ∧
    ¬ Awaits (sendingLate longerNameHead (by decide)) (some 2) ∧
    recvAll (sendingLate longerNameHead (by decide)) = .ok longerNameHead.text := by
  have unread : awaitedLength (sendingLate lowerCaseHead (by decide)).headers ≠ .ok (some 2) := by decide +kernel
  have shorter : awaitedLength (sendingLate longerNameHead (by decide)).headers ≠ .ok (some 2) := by decide +kernel
  refine ⟨by decide +kernel, fun awaits => unread awaits.1, by decide +kernel,
    by decide +kernel, fun awaits => shorter awaits.1, by decide +kernel⟩

end LLM.Launcher

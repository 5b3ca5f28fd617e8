import OnDeviceLLM.Http.Message
import OnDeviceLLM.Json.Grammar
import OnDeviceLLM.Launcher.Serving

namespace LLM.Launcher

open Cxx Text

/-- The text is a JSON object whose only member is `response`, with this value. -/
def Carries (body text : Text) : Prop :=
  ∃ m : Json.StringMember (ascii "response") text, m.text = body ∧ m.earlier = [] ∧ m.later = []

section Framing

def statusLines : Text := ascii "HTTP/1.1 200 OK\r\nContent-Type: application/json; charset=utf-8"

def lastLines : Text := ascii "Connection: close\r\n\r\n"

/-- The line that gives the length, in the header block of a response. -/
def lengthLine (length : Nat) : Http.FieldLine (ascii "Content-Length") (ascii (toString length)) where
  before := statusLines
  lead := ascii " "
  trail := []
  after := lastLines
  blanks := ⟨by decide, by decide⟩

def beforeLength : Text := statusLines ++ ascii "\r\nContent-Length: "

def afterLength : Text := ascii "\r\n" ++ lastLines

theorem lengthLine_block (length : Nat) :
    (lengthLine length).block = beforeLength ++ (ascii (toString length) ++ afterLength) := by
  have opening : ascii "\r\nContent-Length: " =
      Http.crlf ++ (ascii "Content-Length" ++ Http.colon :: ascii " ") := by decide
  have closing : ascii "\r\n" = Http.crlf := by decide
  rw [beforeLength, afterLength, opening, closing]
  simp [Http.FieldLine.block, Http.FieldLine.content, lengthLine]

theorem makeHttpResponse_eq (body : Text) :
    makeHttpResponse body = (lengthLine body.length).block ++ body := by
  have opening : beforeLength = ascii "HTTP/1.1 200 OK\r\n" ++
      ascii "Content-Type: application/json; charset=utf-8\r\n" ++ ascii "Content-Length: " := by
    decide +kernel
  have closing : afterLength = ascii "\r\n" ++ (ascii "Connection: close\r\n" ++ ascii "\r\n") := by
    decide +kernel
  rw [lengthLine_block, makeHttpResponse, opening, closing]
  simp only [List.append_assoc]

/-- The digits of the length keep the blank line apart from everything before them. -/
theorem lengthLine_first (length : Nat) : ¬ Http.blankLine <:+: (lengthLine length).block.dropLast := by
  have nonempty : afterLength ≠ [] := by decide
  have outside : ∀ b ∈ ascii (toString length), b ∉ Http.blankLine := by
    intro b member inside
    have digit := Http.toString_digits length b member
    have none : Http.blankLine.any isDigit = false := by decide
    exact List.any_eq_false.mp none b inside digit
  rw [lengthLine_block, List.dropLast_append_of_ne_nil (by simp [nonempty]),
    List.dropLast_append_of_ne_nil nonempty]
  intro found
  rcases infix_of_gap (Http.toString_ne_nil length) outside found with before | after
  · exact absurd before (by decide +kernel)
  · exact absurd after (by decide +kernel)

def responseHead (length : Nat) : Http.Head where
  text := (lengthLine length).block
  ends := by
    have last : Http.blankLine <:+ afterLength := by decide +kernel
    rw [lengthLine_block]
    exact last.trans ((List.suffix_append _ _).trans (List.suffix_append _ _))
  first := lengthLine_first length

theorem responseHead_sized (length : Nat) :
    Http.field (ascii "Content-Length") (responseHead length).text = some (ascii (toString length)) := by
  have digits := Http.toString_digits length
  have solid : ∀ b ∈ ascii (toString length), Http.isBlank b = false := by
    intro b member
    exact Http.isBlank_of_isDigit (digits b member)
  have oneLine : 13 ∉ ascii "Content-Length" ++ Http.colon :: (lengthLine length).content := by
    have noReturn : 13 ∉ ascii (toString length) := by
      intro inside
      exact absurd (digits 13 inside) (by decide)
    have others : 13 ∉ ascii "Content-Length" ∧ (13 : UInt8) ≠ Http.colon ∧ 13 ∉ ascii " " := by decide
    simp only [Http.FieldLine.content, lengthLine, List.mem_append, List.mem_cons, not_or]
    exact ⟨others.1, others.2.1, others.2.2, noReturn, List.not_mem_nil⟩
  have earlier : ∀ other ∈ (Http.lines statusLines).drop 1,
      Http.fieldValue (ascii "Content-Length") other = none := by decide +kernel
  exact (lengthLine length).field_block (by decide) oneLine (Http.toString_ne_nil length) solid earlier

/-- The framing is faithful for every body. -/
theorem receive_makeHttpResponse (body : Text) : Http.receive (makeHttpResponse body) = some body := by
  rw [makeHttpResponse_eq]
  exact Http.receive_append (responseHead body.length) body (responseHead_sized body.length)

end Framing

section Quoting

theorem carries_plain {text : Text} (plain : Json.Plain text) : Carries (responseBody text) text := by
  have key : Json.Plain (ascii "response") := by decide
  refine ⟨{
    leading := []
    earlier := []
    indent := []
    key := ascii "response"
    beforeColon := []
    afterColon := ascii " "
    raw := text
    afterValue := []
    later := []
    trailing := []
    blanks := by decide
    earlier_members := .inl rfl
    key_spells := .plain_text _ key
    raw_spells := .plain_text _ plain
    later_members := .inl rfl }, ?_, rfl, rfl⟩
  have opening : ascii "\x7b\"response\": \"" = Json.openBrace :: Json.quote :: (ascii "response" ++
      Json.quote :: Json.colon :: (ascii " " ++ [Json.quote])) := by decide
  have closing : ascii "\"\x7d" = [Json.quote, Json.closeBrace] := by decide
  rw [responseBody, opening, closing]
  simp [Json.StringMember.text, Json.StringMember.before, Json.StringMember.after]

/-- Whatever object `response` is the only member of, its value was spelled as itself. -/
theorem Carries.plain {text : Text} (carries : Carries (responseBody text) text) : Json.Plain text := by
  obtain ⟨m, whole, first, last⟩ := carries
  obtain ⟨blankLeading, blankIndent, blankBeforeColon, blankAfterColon, blankAfterValue, blankTrailing⟩ := m.blanks
  have nothing : Json.Blank [] := by decide
  have brace : ¬ Json.Blank [Json.openBrace] := by decide
  have quote : ¬ Json.Blank [Json.quote] := by decide
  have colon : ¬ Json.Blank [Json.colon] := by decide
  have laid : m.leading ++ Json.openBrace :: (m.indent ++ Json.quote :: (m.key ++ Json.quote ::
      (m.beforeColon ++ Json.colon :: (m.afterColon ++ Json.quote :: (m.raw ++ Json.quote ::
        (m.afterValue ++ Json.closeBrace :: m.trailing)))))) =
      [] ++ Json.openBrace :: ([] ++ Json.quote :: (ascii "response" ++ Json.quote ::
        ([] ++ Json.colon :: (ascii " " ++ Json.quote :: (text ++ [Json.quote, Json.closeBrace]))))) := by
    have opening : ascii "\x7b\"response\": \"" = Json.openBrace :: Json.quote :: (ascii "response" ++
        Json.quote :: Json.colon :: (ascii " " ++ [Json.quote])) := by decide
    have closing : ascii "\"\x7d" = [Json.quote, Json.closeBrace] := by decide
    rw [responseBody, opening, closing] at whole
    simpa [Json.StringMember.text, Json.StringMember.before, Json.StringMember.after, first, last] using whole
  have inObject := (blankLeading.unique nothing brace brace laid).2.2
  have inKey := (blankIndent.unique nothing quote quote inObject).2.2
  have afterKey := (m.key_spells.before_quote (by decide) inKey).2
  have atValue := (blankBeforeColon.unique nothing colon colon afterKey).2.2
  have inValue := (blankAfterColon.unique (by decide) quote quote atValue).2.2
  have lengths := congrArg List.length inValue
  have longer := m.raw_spells.length_le.1
  simp only [List.length_append, List.length_cons, List.length_nil] at lengths
  have same : text.length = m.raw.length := by omega
  have spelled := (m.raw_spells.length_le.2 same).1
  have plain := m.raw_spells.plain_of_length same
  rw [spelled] at plain
  exact plain

end Quoting

/-- The client of a prompted request decodes what `generate` returned. -/
def Delivered {ρ : Type} (generate : Generate ρ) (prompt : Text) (s : Service ρ) : Prop :=
  ∃ built s' body, buildBody (ask generate) prompt s = (.ok built, s') ∧
    Http.receive (makeHttpResponse built) = some body ∧ Carries body (generate prompt 128 s.runtime).1

theorem delivered_carries {ρ : Type} {generate : Generate ρ} {prompt : Text} {s : Service ρ}
    (nonempty : prompt ≠ []) :
    Delivered generate prompt s ↔
      Carries (responseBody (generate prompt 128 s.runtime).1) (generate prompt 128 s.runtime).1 := by
  have asked : ask generate prompt 128 s =
      (.ok (generate prompt 128 s.runtime).1, { s with runtime := (generate prompt 128 s.runtime).2 }) := rfl
  have built := buildBody_prompted (ask generate) nonempty asked
  have framed := receive_makeHttpResponse (responseBody (generate prompt 128 s.runtime).1)
  constructor
  · intro delivered
    obtain ⟨body, s', decoded, returned, taken, carries⟩ := delivered
    rw [built] at returned
    cases returned
    rw [framed] at taken
    cases taken
    exact carries
  · intro carries
    exact ⟨_, _, _, built, framed, carries⟩

/-- Whatever the model returns, the client decodes it exactly when nothing in it needs an
    escape. -/
theorem response_faithful_iff {ρ : Type} (generate : Generate ρ) (prompt : Text) (nonempty : prompt ≠ [])
    (s : Service ρ) : Delivered generate prompt s ↔ Json.Plain (generate prompt 128 s.runtime).1 := by
  rw [delivered_carries nonempty]
  exact ⟨Carries.plain, carries_plain⟩

def replying (text : Text) : Generate Unit := fun _ _ runtime => (text, runtime)

theorem response_faithful_plain :
    Delivered (replying (ascii "Hello, world")) (ascii "hi") { runtime := (), sent := [] } :=
  (response_faithful_iff (replying (ascii "Hello, world")) (ascii "hi") (by decide) _).mpr
    (show Json.Plain (ascii "Hello, world") by decide)

theorem response_not_faithful :
    ¬ Delivered (replying (ascii "say \"hi\"")) (ascii "hi") { runtime := (), sent := [] } := by
  intro delivered
  have carries := (delivered_carries (by decide)).mp delivered
  exact absurd (show Json.Plain (ascii "say \"hi\"") from carries.plain) (by decide)

end LLM.Launcher

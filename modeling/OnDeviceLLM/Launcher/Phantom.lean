import OnDeviceLLM.Launcher.Separation
import OnDeviceLLM.Launcher.Serving

namespace LLM.Launcher

open Cxx Text

/-- Where `extract_prompt` stops in a body: at a search that finds nothing and is checked, or
    with the two quotes after the landmarks. -/
inductive Shows (body : Text) : Text → Prop where
  | noOpening (absent : ¬ jsonOpening <:+: body) : Shows body []
  | noKey (lead inner : Text) (split : body = lead ++ (jsonOpening ++ inner))
      (first : ¬ jsonOpening <:+: lead ++ jsonOpening.dropLast)
      (absent : ¬ promptKey <:+: jsonOpening ++ inner) : Shows body []
  | value {shown : Text} (steered : Steered body shown) : Shows body shown

/-- The client gets the error, and whatever `generate` would do, it is not called. -/
def Refused (client : Connection) : Prop :=
  ∀ (ρ : Type) (generate : Generate ρ) (s : Service ρ),
    serve generate client s = (.ok (), { s with sent := makeHttpResponse missingPrompt :: s.sent })

theorem Shows.extract {body shown : Text} (shows : Shows body shown) (fits : body.length ≤ maxSize) :
    extractPrompt body = .ok shown := by
  cases shows with
  | noOpening absent => exact extractPrompt_absent fits absent
  | noKey lead inner split first absent =>
    have short : (jsonOpening ++ inner).length ≤ maxSize := by
      rw [split, List.length_append] at fits
      omega
    have missed := (find_eq_npos_iff short).mpr absent
    rw [split] at fits
    rw [split, extractPrompt_present fits first, promptOf, missed]
    rfl
  | value steered => exact steered.extract fits

theorem refused_iff {client : Connection} {request prompt : Text} (received : recvAll client = .ok request)
    (extracted : extractPrompt request = .ok prompt) :
    Refused client ↔ prompt = [] := by
  constructor
  · intro refused
    by_contra nonempty
    -- a `generate` that counts its calls
    let counting : Generate Nat := fun _ _ calls => ([], calls + 1)
    have built := buildBody_prompted (ask counting) (s := { runtime := 0, sent := [] }) nonempty rfl
    have counted := refused Nat counting { runtime := 0, sent := [] }
    rw [serve_extracted counting received extracted built] at counted
    have called := congrArg (fun outcome => outcome.2.runtime) counted
    exact absurd called Nat.one_ne_zero
  · intro empty ρ generate s
    have built : buildBody (ask generate) prompt s = (.ok missingPrompt, s) := by
      rw [empty]
      rfl
    exact serve_extracted generate received extracted built

/-- The client is refused exactly where the prompt that is shown is empty; in particular where
    the body has no brace before a quote, or no quoted `prompt` from there on. -/
theorem no_phantom_prompt (head : Http.Head) (body shown : Text) (noBrace : Json.openBrace ∉ head.text)
    (shows : Shows body shown) (client : Connection) (received : recvAll client = .ok (head.text ++ body)) :
    extractPrompt (head.text ++ body) = .ok shown ∧ (Refused client ↔ shown = []) := by
  have fits : (head.text ++ body).length ≤ maxSize := by
    rcases recvAll_outcome client with ⟨_, request, returned, bound⟩ | ⟨_, thrown⟩
    · rw [received] at returned
      cases returned
      exact bound
    · rw [received] at thrown
      cases thrown
  have plain : ¬ jsonOpening <:+: head.text := by
    intro inside
    exact noBrace (inside.subset (by decide))
  have bodyFits : body.length ≤ maxSize := by
    rw [List.length_append] at fits
    omega
  have extracted : extractPrompt (head.text ++ body) = .ok shown := by
    rw [extractPrompt_append plain fits]
    exact shows.extract bodyFits
  exact ⟨extracted, refused_iff received extracted⟩

def keylessHead : Http.Head where
  text := ascii "POST / HTTP/1.1\r\nContent-Length: 13\r\n\r\n"
  ends := by decide
  first := by decide +kernel

def keylessClient : Connection where
  received := [keylessHead.text ++ ascii "\x7b\"other\":", ascii "\"x\"\x7d"]
  sized := by decide
  fits := by decide

theorem no_phantom_prompt_keyless : Refused keylessClient := by
  have shows : Shows (ascii "\x7b\"other\":\"x\"\x7d") [] :=
    .noKey [] (ascii "other\":\"x\"\x7d") (by decide) (by decide) (by decide)
  exact (no_phantom_prompt keylessHead (ascii "\x7b\"other\":\"x\"\x7d") [] (by decide) shows keylessClient
    (by decide +kernel)).2.mpr rfl

/-- The two quotes around a key and the two around a string value. -/
theorem four_quotes {name value : Text} (m : Json.StringMember name value) : 4 ≤ m.text.count Json.quote := by
  simp only [Json.StringMember.text, Json.StringMember.before, List.count_append, List.count_cons, beq_self_eq_true,
    if_true]
  omega

/-- An array of objects is no object. -/
def arrayBody : Text := ascii "[\x7b\"prompt\":\"x\"\x7d]"

/-- The value is a number. -/
def numberBody : Text := ascii "\x7b\"prompt\":5\x7d"

theorem phantom_prompt :
    (∀ (value : Text) (m : Json.StringMember (ascii "prompt") value), m.text ≠ arrayBody) ∧
    extractPrompt (requestHeaders ++ arrayBody) = .ok (ascii "x") ∧
    (∀ (value : Text) (m : Json.StringMember (ascii "prompt") value), m.text ≠ numberBody) ∧
    extractPrompt (requestHeaders ++ numberBody) = .ok [Json.openBrace] := by
  refine ⟨fun value m same => ?_, by decide, fun value m same => ?_, by decide⟩
  · have opened : m.leading ++ Json.openBrace :: _ = [] ++ Json.openBracket :: ascii "\x7b\"prompt\":\"x\"\x7d]" :=
      (List.append_assoc _ _ _).symm.trans same
    have first := (m.blanks.1.unique (by decide) (by decide) (by decide) opened).2.1
    exact absurd first (by decide)
  · have quotes := four_quotes m
    rw [same] at quotes
    exact absurd quotes (by decide)

end LLM.Launcher

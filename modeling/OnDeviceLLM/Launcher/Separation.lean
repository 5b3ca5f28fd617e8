import OnDeviceLLM.Http.Message
import OnDeviceLLM.Launcher.Extraction

namespace LLM.Launcher

open Cxx Text

/-- What `extract_prompt` does with the text from the brace on. -/
def promptOf (json : Text) : Except Exception Text :=
  let keyPos := find json promptKey 0
  if keyPos = npos then .ok []
  else
    let colon := find json (ascii ":") keyPos
    let firstQuote := find json (ascii "\"") colon
    let secondQuote := find json (ascii "\"") (sizeAdd firstQuote 1)
    substr json (sizeAdd firstQuote 1) (sizeSub (sizeSub secondQuote firstQuote) 1)

theorem extractPrompt_absent {request : Text} (fits : request.length ≤ maxSize)
    (absent : ¬ jsonOpening <:+: request) : extractPrompt request = .ok [] := by
  have missed := (find_eq_npos_iff fits).mpr absent
  simp only [extractPrompt, if_pos missed]

theorem extractPrompt_present {lead rest : Text} (fits : (lead ++ (jsonOpening ++ rest)).length ≤ maxSize)
    (first : ¬ jsonOpening <:+: lead ++ jsonOpening.dropLast) :
    extractPrompt (lead ++ (jsonOpening ++ rest)) = promptOf (jsonOpening ++ rest) := by
  have bound : maxSize < npos := by decide
  have position : find (lead ++ (jsonOpening ++ rest)) jsonOpening 0 = lead.length := find_text rfl first
  have total := fits
  rw [List.length_append] at total
  have found : lead.length ≠ npos := by omega
  have cut : substr (lead ++ (jsonOpening ++ rest)) lead.length npos = .ok (jsonOpening ++ rest) :=
    substr_append (by omega)
  simp only [extractPrompt, position, if_neg found, cut, promptOf, bind, Except.bind]

/-- No text without a line feed reaches across the end of the headers. -/
theorem not_infix_append {head : Http.Head} {lead tail needle s : Text} (split : head.text = lead ++ tail)
    (noFeed : 10 ∉ needle) (absent : ¬ needle <:+: tail) (after : ¬ needle <:+: s) :
    ¬ needle <:+: tail ++ s := by
  intro found
  by_cases none : tail = []
  · rw [none, List.nil_append] at found
    exact after found
  · obtain ⟨front, feed⟩ := head.suffix_feed split none
    rw [feed, List.append_assoc] at found
    rcases infix_of_byte noFeed found with inside | later
    · apply absent
      rw [feed]
      exact inside.trans (List.prefix_append _ _).isInfix
    · exact after later

/-- Headers without a brace before a quote are passed over. -/
theorem extractPrompt_append {head : Http.Head} {body : Text} (plain : ¬ jsonOpening <:+: head.text)
    (fits : (head.text ++ body).length ≤ maxSize) : extractPrompt (head.text ++ body) = extractPrompt body := by
  have noFeed : 10 ∉ jsonOpening := by decide
  have bodyFits : body.length ≤ maxSize := by
    rw [List.length_append] at fits
    omega
  by_cases present : jsonOpening <:+: body
  · obtain ⟨lead, rest, split, first⟩ := exists_first (by decide) present
    have passed : ¬ jsonOpening <:+: (head.text ++ lead) ++ jsonOpening.dropLast := by
      rw [List.append_assoc]
      exact not_infix_append (List.nil_append head.text).symm noFeed plain first
    rw [split, ← List.append_assoc] at fits ⊢
    rw [split] at bodyFits
    rw [extractPrompt_present fits passed, extractPrompt_present bodyFits first]
  · have absent : ¬ jsonOpening <:+: head.text ++ body :=
      not_infix_append (List.nil_append head.text).symm noFeed plain present
    rw [extractPrompt_absent fits absent, extractPrompt_absent bodyFits present]

section Steering

/-- The landmarks and the two quotes after them are all in the text. -/
def Steered (text shown : Text) : Prop :=
  ∃ before rest, text = before ++ Json.quote :: (shown ++ Json.quote :: rest) ∧ Lands before ∧ Json.quote ∉ shown

theorem Steered.extract {text shown : Text} (steered : Steered text shown) (fits : text.length ≤ maxSize) :
    extractPrompt text = .ok shown := by
  obtain ⟨before, rest, rfl, lands, noQuote⟩ := steered
  exact @extractPrompt_lands [] before shown rest List.not_mem_nil lands noQuote fits

theorem Steered.append {text shown : Text} (steered : Steered text shown) (more : Text) :
    Steered (text ++ more) shown := by
  obtain ⟨before, rest, rfl, lands, noQuote⟩ := steered
  exact ⟨before, rest ++ more, by simp, lands, noQuote⟩

/-- Where the headers have a brace before a quote, either all that is looked for is in them
    already, or a short body without any brace supplies what is missing. -/
theorem steered_or_completed (head : Http.Head) (present : jsonOpening <:+: head.text) :
    (∃ shown, Steered head.text shown) ∨
    ∃ body shown, Json.openBrace ∉ body ∧ body.length ≤ 12 ∧ shown ≠ [] ∧ Steered (head.text ++ body) shown := by
  obtain ⟨lead, inner, split, first⟩ := exists_first (by decide) present
  have noOpening : ¬ jsonOpening <:+: lead := by
    intro inside
    exact first (inside.trans (List.prefix_append _ _).isInfix)
  generalize jsonDef : jsonOpening ++ inner = json at split
  have begins : jsonOpening <+: json := ⟨inner, jsonDef⟩
  by_cases keyed : promptKey <:+: json
  · obtain ⟨opening, tail, cut, firstKey⟩ := exists_first (by decide) keyed
    have opens : jsonOpening <+: opening ++ promptKey := by
      have long : jsonOpening.length ≤ promptKey.length := by decide
      apply List.prefix_of_prefix_length_le begins ⟨tail, by rw [cut, List.append_assoc]⟩
      rw [List.length_append]
      omega
    have lands : ∀ gap spacing, Json.colon ∉ gap → Json.quote ∉ spacing →
        Lands (lead ++ (opening ++ (promptKey ++ (gap ++ Json.colon :: spacing)))) :=
      fun gap spacing noColon noQuote =>
        ⟨lead, opening, gap, spacing, rfl, opens, noOpening, firstKey, noColon, noQuote⟩
    rw [cut] at split
    by_cases colon : Json.colon ∈ tail
    · obtain ⟨gap, after, tailEq, noColon⟩ := List.eq_append_cons_of_mem colon
      by_cases quote : Json.quote ∈ after
      · obtain ⟨spacing, value, afterEq, noQuote⟩ := List.eq_append_cons_of_mem quote
        by_cases closed : Json.quote ∈ value
        · obtain ⟨shown, rest, valueEq, noQuoteShown⟩ := List.eq_append_cons_of_mem closed
          refine .inl ⟨shown, _, rest, ?_, lands gap spacing noColon noQuote, noQuoteShown⟩
          rw [split, tailEq, afterEq, valueEq]
          simp
        · refine .inr ⟨[121, Json.quote], value ++ [121], by decide, by decide, by simp, _, [], ?_,
            lands gap spacing noColon noQuote, ?_⟩
          · rw [split, tailEq, afterEq]
            simp
          · rw [List.mem_append, not_or]
            exact ⟨closed, by decide⟩
      · refine .inr ⟨[Json.quote, 121, Json.quote], [121], by decide, by decide, by decide, _, [], ?_,
          lands gap after noColon quote, by decide⟩
        rw [split, tailEq]
        simp
    · refine .inr ⟨[Json.colon, Json.quote, 121, Json.quote], [121], by decide, by decide, by decide, _, [], ?_,
        lands tail [] colon List.not_mem_nil, by decide⟩
      rw [split]
      simp
  · have unkeyed : ¬ promptKey <:+: json ++ promptKey.dropLast :=
      not_infix_append split (by decide) keyed (by decide)
    refine .inr ⟨promptKey ++ [Json.colon, Json.quote, 121, Json.quote], [121], by decide, by decide, by decide,
      _, [], ?_, ⟨lead, json, [], [], rfl, begins.trans (List.prefix_append _ _), noOpening, unkeyed,
        List.not_mem_nil, List.not_mem_nil⟩, by decide⟩
    rw [split]
    simp

end Steering

def bareHead : Http.Head where
  text := Http.blankLine
  ends := List.suffix_rfl
  first := by decide

/-- Header blocks without a brace before a quote do not influence the prompt, and every other
    header block does, for some body. -/
theorem headers_without_influence_iff (head : Http.Head) :
    (¬ jsonOpening <:+: head.text → ∀ (other : Http.Head) (body : Text), ¬ jsonOpening <:+: other.text →
      (head.text ++ body).length ≤ maxSize → (other.text ++ body).length ≤ maxSize →
      extractPrompt (head.text ++ body) = extractPrompt (other.text ++ body)) ∧
    (jsonOpening <:+: head.text → head.text.length + 16 ≤ maxSize →
      ∃ (other : Http.Head) (body : Text), ¬ jsonOpening <:+: other.text ∧ body.length ≤ 16 ∧
        extractPrompt (head.text ++ body) ≠ extractPrompt (other.text ++ body)) := by
  constructor
  · intro plain other body plainOther fits fitsOther
    rw [extractPrompt_append plain fits, extractPrompt_append plainOther fitsOther]
  · intro present room
    have bare : ¬ jsonOpening <:+: bareHead.text := by decide
    have room' : bareHead.text.length + 16 ≤ maxSize := by decide
    have fits : ∀ (h : Http.Head) (body : Text), h.text.length + 16 ≤ maxSize → body.length ≤ 16 →
        (h.text ++ body).length ≤ maxSize := by
      intro h body room short
      rw [List.length_append]
      omega
    rcases steered_or_completed head present with ⟨shown, steered⟩ | ⟨body, shown, noBrace, short, nonempty, steered⟩
    · have asked : extractPrompt (ascii "\x7b\"prompt\":\"x\"\x7d") = .ok (ascii "x") := by decide
      have silent : extractPrompt [] = .ok [] := by decide
      by_cases none : shown = []
      · refine ⟨bareHead, ascii "\x7b\"prompt\":\"x\"\x7d", bare, by decide, ?_⟩
        rw [(steered.append _).extract (fits head _ room (by decide)),
          extractPrompt_append bare (fits bareHead _ room' (by decide)), asked, none]
        decide
      · refine ⟨bareHead, [], bare, by decide, ?_⟩
        rw [(steered.append _).extract (fits head _ room (by decide)),
          extractPrompt_append bare (fits bareHead _ room' (by decide)), silent]
        exact fun same => none (Except.ok.inj same)
    · have absent : ¬ jsonOpening <:+: body := by
        intro inside
        exact noBrace (inside.subset (by decide))
      have bodyFits : body.length ≤ maxSize := by omega
      refine ⟨bareHead, body, bare, by omega, ?_⟩
      rw [steered.extract (fits head body room (by omega)),
        extractPrompt_append bare (fits bareHead body room' (by omega)), extractPrompt_absent bodyFits absent]
      exact fun same => nonempty (Except.ok.inj same)

/-- The request target carries a JSON text of its own. -/
def steeringHead : Http.Head where
  text := ascii "POST /?q=\x7b\"prompt\":\"evil\"\x7d HTTP/1.1\r\n\r\n"
  ends := by decide
  first := by decide +kernel

theorem headers_with_influence :
    extractPrompt (steeringHead.text ++ ascii "\x7b\"prompt\":\"hi\"\x7d") = .ok (ascii "evil") ∧
    extractPrompt (bareHead.text ++ ascii "\x7b\"prompt\":\"hi\"\x7d") = .ok (ascii "hi") := by
  decide +kernel

end LLM.Launcher

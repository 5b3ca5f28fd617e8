import OnDeviceLLM.Launcher.Phantom
import OnDeviceLLM.Launcher.Response

namespace LLM.Launcher

open Cxx Text

theorem find_byte_none {b : UInt8} {rest : Text} (absent : b ∉ rest) (before : Text) :
    find (before ++ rest) [b] before.length = npos := by
  have inside : before.length ≤ (before ++ rest).length := by simp
  rw [find, if_pos inside, List.drop_left]
  rcases search_split (List.isPrefixOf [b]) rest before.length with ⟨none, _⟩ | ⟨front, back, split, here, _⟩
  · exact none
  · have starts := List.isPrefixOf_iff_prefix.mp here
    apply absurd _ absent
    rw [split]
    exact List.mem_append_right front (starts.subset List.mem_cons_self)

theorem find_past {s : Text} {pos : Nat} (past : s.length < pos) (needle : Text) : find s needle pos = npos := by
  rw [find, if_neg (by omega)]

theorem no_colon_from_key {gap : Text} (noColon : Json.colon ∉ gap) : Json.colon ∉ promptKey ++ gap := by
  rw [List.mem_append]
  exact not_or.mpr ⟨by decide, noColon⟩

theorem no_quote_from_colon {spacing : Text} (noQuote : Json.quote ∉ spacing) :
    Json.quote ∉ Json.colon :: spacing :=
  List.not_mem_cons_of_ne_of_not_mem (by decide) noQuote

/-- A request cut at the key: the first brace before a quote opens the part in which the key is
    looked for, and the key is the first one there. -/
structure Keyed (request lead opening tail : Text) : Prop where
  split : request = lead ++ (opening ++ (promptKey ++ tail))
  opens : jsonOpening <+: opening ++ promptKey
  first : ¬ jsonOpening <:+: lead ++ jsonOpening.dropLast
  firstKey : ¬ promptKey <:+: opening ++ promptKey.dropLast

/-- What the searches of `extract_prompt` come to, all cases. -/
inductive Extracts (request : Text) : Text → Prop where
  | shows {shown : Text} (shows : Shows request shown) : Extracts request shown
  /-- No quote after a colon after the key: the first quote is looked for from the start. -/
  | wraps {lead opening tail : Text} (keyed : Keyed request lead opening tail)
      (missing : ∀ gap after, tail = gap ++ Json.colon :: after → Json.colon ∉ gap → Json.quote ∉ after) :
      Extracts request [Json.openBrace]
  /-- The value is not closed: all the rest is taken. -/
  | unclosed {lead opening gap spacing value : Text}
      (keyed : Keyed request lead opening (gap ++ Json.colon :: (spacing ++ Json.quote :: value)))
      (noColon : Json.colon ∉ gap) (noQuote : Json.quote ∉ spacing) (noEnd : Json.quote ∉ value) :
      Extracts request value

namespace Keyed

variable {request lead opening tail : Text}

theorem opened (keyed : Keyed request lead opening tail) :
    ∃ more, opening ++ (promptKey ++ tail) = jsonOpening ++ more := by
  obtain ⟨rest, opens⟩ := keyed.opens
  refine ⟨rest ++ tail, ?_⟩
  rw [← List.append_assoc, ← opens, List.append_assoc]

theorem short (keyed : Keyed request lead opening tail) (fits : request.length ≤ maxSize) :
    (opening ++ (promptKey ++ tail)).length ≤ maxSize := by
  rw [keyed.split, List.length_append] at fits
  omega

theorem extract (keyed : Keyed request lead opening tail) (fits : request.length ≤ maxSize) :
    extractPrompt request =
      let json := opening ++ (promptKey ++ tail)
      let firstQuote := find json [Json.quote] (find json [Json.colon] opening.length)
      let secondQuote := find json [Json.quote] (sizeAdd firstQuote 1)
      substr json (sizeAdd firstQuote 1) (sizeSub (sizeSub secondQuote firstQuote) 1) := by
  obtain ⟨more, json⟩ := keyed.opened
  have short := keyed.short fits
  have position : find (opening ++ (promptKey ++ tail)) promptKey 0 = opening.length := find_text rfl keyed.firstKey
  have found : opening.length ≠ npos := by
    have bound : maxSize < npos := by decide
    rw [List.length_append] at short
    omega
  rw [keyed.split, json] at fits
  rw [keyed.split, json, extractPrompt_present fits keyed.first, ← json, promptOf, position, if_neg found]
  rfl

/-- The two searches that fail leave `npos`, and `npos + 1` is the start of the text. -/
theorem extract_wraps (keyed : Keyed request lead opening tail) (fits : request.length ≤ maxSize)
    (missing : ∀ gap after, tail = gap ++ Json.colon :: after → Json.colon ∉ gap → Json.quote ∉ after) :
    extractPrompt request = .ok [Json.openBrace] := by
  rw [keyed.extract fits]
  obtain ⟨more, json⟩ := keyed.opened
  have bound : maxSize < npos := by decide
  have short := keyed.short fits
  have firstQuote : find (opening ++ (promptKey ++ tail)) [Json.quote]
      (find (opening ++ (promptKey ++ tail)) [Json.colon] opening.length) = npos := by
    by_cases colon : Json.colon ∈ tail
    · obtain ⟨gap, after, split, noColon⟩ := List.eq_append_cons_of_mem colon
      have position : find (opening ++ (promptKey ++ tail)) [Json.colon] opening.length =
          (opening ++ (promptKey ++ gap)).length :=
        find_byte (by rw [split, List.append_assoc]) (no_colon_from_key noColon)
      have noQuote := no_quote_from_colon (missing gap after split noColon)
      have cut : opening ++ (promptKey ++ tail) = (opening ++ (promptKey ++ gap)) ++ Json.colon :: after := by
        rw [split]
        simp only [List.append_assoc]
      rw [position, cut]
      exact find_byte_none noQuote _
    · rw [find_byte_none (no_colon_from_key colon)]
      exact find_past (by omega) _
  have secondQuote : find (opening ++ (promptKey ++ tail)) [Json.quote] 0 = 1 := by
    rw [json]
    rfl
  have start : sizeAdd npos 1 = 0 := by decide
  have count : sizeSub (sizeSub 1 npos) 1 = 1 := by decide
  simp only [firstQuote, start, secondQuote, count]
  rw [json]
  rfl

theorem extract_unclosed {gap spacing value : Text} (fits : request.length ≤ maxSize)
    (keyed : Keyed request lead opening (gap ++ Json.colon :: (spacing ++ Json.quote :: value)))
    (noColon : Json.colon ∉ gap) (noQuote : Json.quote ∉ spacing) (noEnd : Json.quote ∉ value) :
    extractPrompt request = .ok value := by
  rw [keyed.extract fits]
  have short := keyed.short fits
  have bound : maxSize < npos ∧ npos < 2^64 := by decide
  generalize json : opening ++ (promptKey ++ (gap ++ Json.colon :: (spacing ++ Json.quote :: value))) = text at short
  have colonSplit : text = opening ++ ((promptKey ++ gap) ++ Json.colon :: (spacing ++ Json.quote :: value)) := by
    rw [← json, List.append_assoc]
  have colon : find text [Json.colon] opening.length = (opening ++ (promptKey ++ gap)).length :=
    find_byte colonSplit (no_colon_from_key noColon)
  have quoteSplit : text =
      (opening ++ (promptKey ++ gap)) ++ ((Json.colon :: spacing) ++ Json.quote :: value) := by
    rw [colonSplit]
    simp only [List.append_assoc, List.cons_append]
  have firstQuote : find text [Json.quote] (opening ++ (promptKey ++ gap)).length =
      (opening ++ (promptKey ++ gap) ++ Json.colon :: spacing).length :=
    find_byte quoteSplit (no_quote_from_colon noQuote)
  have cut : text = (opening ++ (promptKey ++ gap) ++ Json.colon :: spacing ++ [Json.quote]) ++ value := by
    rw [quoteSplit]
    simp only [List.append_assoc, List.cons_append, List.nil_append]
  generalize opening ++ (promptKey ++ gap) ++ Json.colon :: spacing = before at firstQuote cut
  have sizes := congrArg List.length cut
  rw [List.length_append, List.length_append, List.length_singleton] at sizes
  have next : sizeAdd before.length 1 = (before ++ [Json.quote]).length := by
    rw [sizeAdd_of_lt (by omega), List.length_append, List.length_singleton]
  have secondQuote : find text [Json.quote] (before ++ [Json.quote]).length = npos := by
    rw [cut]
    exact find_byte_none noEnd _
  have count : sizeSub (sizeSub npos before.length) 1 = npos - before.length - 1 := by
    rw [sizeSub_of_le bound.2 (by omega), sizeSub_of_le (by omega) (by omega)]
  have inside : ¬ (before ++ [Json.quote]).length > text.length := by
    rw [List.length_append, List.length_singleton]
    omega
  simp only [colon, firstQuote, next, secondQuote, count]
  rw [substr, if_neg inside, cut, List.drop_left, List.take_of_length_le (by omega)]

end Keyed

theorem Extracts.extract {request shown : Text} (extracts : Extracts request shown)
    (fits : request.length ≤ maxSize) : extractPrompt request = .ok shown := by
  cases extracts with
  | shows shows => exact shows.extract fits
  | wraps keyed missing => exact keyed.extract_wraps fits missing
  | unclosed keyed noColon noQuote noEnd => exact Keyed.extract_unclosed fits keyed noColon noQuote noEnd

theorem exists_keyed {request : Text} : Shows request [] ∨ ∃ lead opening tail, Keyed request lead opening tail := by
  by_cases present : jsonOpening <:+: request
  · obtain ⟨lead, inner, split, first⟩ := exists_first (by decide) present
    by_cases key : promptKey <:+: jsonOpening ++ inner
    · obtain ⟨opening, tail, cut, firstKey⟩ := exists_first (by decide) key
      have opens : jsonOpening <+: opening ++ promptKey := by
        have long : jsonOpening.length ≤ promptKey.length := by decide
        apply List.prefix_of_prefix_length_le ⟨inner, rfl⟩ ⟨tail, by rw [cut, List.append_assoc]⟩
        rw [List.length_append]
        omega
      exact .inr ⟨lead, opening, tail, by rw [split, cut], opens, first, firstKey⟩
    · exact .inl (.noKey lead inner split first key)
  · exact .inl (.noOpening present)

theorem exists_extracts (request : Text) : ∃ shown, Extracts request shown := by
  rcases exists_keyed with missed | ⟨lead, opening, tail, keyed⟩
  · exact ⟨[], .shows missed⟩
  · by_cases quoted : ∃ gap after, tail = gap ++ Json.colon :: after ∧ Json.colon ∉ gap ∧ Json.quote ∈ after
    · obtain ⟨gap, after, rfl, noColon, quote⟩ := quoted
      obtain ⟨spacing, value, rfl, noQuote⟩ := List.eq_append_cons_of_mem quote
      by_cases closed : Json.quote ∈ value
      · obtain ⟨shown, rest, rfl, noEnd⟩ := List.eq_append_cons_of_mem closed
        have noOpening : ¬ jsonOpening <:+: lead := by
          intro inside
          exact keyed.first (inside.trans (List.prefix_append _ _).isInfix)
        have lands : Lands (lead ++ (opening ++ (promptKey ++ (gap ++ Json.colon :: spacing)))) :=
          ⟨lead, opening, gap, spacing, rfl, keyed.opens, noOpening, keyed.firstKey, noColon, noQuote⟩
        refine ⟨shown, .shows (.value ⟨_, rest, ?_, lands, noEnd⟩)⟩
        rw [keyed.split]
        simp only [List.append_assoc, List.cons_append]
      · exact ⟨value, .unclosed keyed noColon noQuote closed⟩
    · refine ⟨[Json.openBrace], .wraps keyed fun gap after split noColon quote => ?_⟩
      exact quoted ⟨gap, after, split, noColon, quote⟩

/-- The cases exclude each other, so they say exactly what is extracted. -/
theorem extracts_iff {request : Text} (fits : request.length ≤ maxSize) (shown : Text) :
    Extracts request shown ↔ extractPrompt request = .ok shown := by
  refine ⟨fun extracts => extracts.extract fits, fun extracted => ?_⟩
  obtain ⟨other, extracts⟩ := exists_extracts request
  have same := extracts.extract fits
  rw [extracted] at same
  cases same
  exact extracts

theorem Extracts.infix {request shown : Text} (extracts : Extracts request shown) : shown <:+: request := by
  cases extracts with
  | shows shows =>
    cases shows with
    | noOpening => exact List.nil_infix
    | noKey => exact List.nil_infix
    | value steered =>
      obtain ⟨before, rest, split, _, _⟩ := steered
      refine ⟨before ++ [Json.quote], Json.quote :: rest, ?_⟩
      rw [split]
      simp only [List.append_assoc, List.cons_append, List.nil_append]
  | @wraps lead opening tail keyed _ =>
    obtain ⟨more, json⟩ := keyed.opened
    refine ⟨lead, Json.quote :: more, ?_⟩
    rw [keyed.split, json, List.append_assoc]
    rfl
  | @unclosed lead opening gap spacing _ keyed _ _ _ =>
    refine ⟨lead ++ (opening ++ (promptKey ++ (gap ++ Json.colon :: (spacing ++ [Json.quote])))), [], ?_⟩
    rw [keyed.split]
    simp only [List.append_assoc, List.cons_append, List.nil_append, List.append_nil]

section Round

variable {ρ : Type} (generate : Generate ρ)

theorem serve_answers {client : Connection} {request prompt : Text} (s : Service ρ)
    (received : recvAll client = .ok request) (extracted : extractPrompt request = .ok prompt)
    (nonempty : prompt ≠ []) :
    serve generate client s = (.ok (),
      { runtime := (generate prompt 128 s.runtime).2
        sent := makeHttpResponse (responseBody (generate prompt 128 s.runtime).1) :: s.sent }) :=
  serve_extracted generate received extracted (buildBody_prompted (ask generate) nonempty rfl)

/-- A round of the service for any client at all: only headers with an unreadable length stop
    it, what is taken for the prompt is one part of the request, by the places above, and the
    runtime is asked that and nothing else. -/
theorem serve_extracts (client : Connection) (s : Service ρ) :
    (¬ WellSized client.headers ∧ serve generate client s = (.error (.threw .outOfRange), s)) ∨
    ∃ request shown, recvAll client = .ok request ∧ (∀ text, Extracts request text ↔ text = shown) ∧
      shown <:+: request ∧
      serve generate client s = (.ok (),
        if shown = [] then { s with sent := makeHttpResponse missingPrompt :: s.sent }
        else
          { runtime := (generate shown 128 s.runtime).2
            sent := makeHttpResponse (responseBody (generate shown 128 s.runtime).1) :: s.sent }) := by
  rcases recvAll_outcome client with ⟨_, request, received, fits⟩ | ⟨illSized, _⟩
  · right
    obtain ⟨shown, extracts⟩ := exists_extracts request
    have extracted := extracts.extract fits
    have only : ∀ text, Extracts request text ↔ text = shown := by
      intro text
      rw [extracts_iff fits, extracted]
      exact ⟨fun same => (Except.ok.inj same).symm, fun same => congrArg Except.ok same.symm⟩
    refine ⟨request, shown, received, only, extracts.infix, ?_⟩
    by_cases empty : shown = []
    · rw [if_pos empty]
      exact (refused_iff received extracted).mpr empty ρ generate s
    · rw [if_neg empty]
      exact serve_answers generate s received extracted empty
  · left
    rcases serve_outcome generate client s with ⟨wellSized, _⟩ | thrown
    · exact absurd wellSized illSized
    · exact thrown

/-- A number where the text should be: the runtime is asked to go on from a brace. -/
example : extractPrompt (ascii "\x7b\"prompt\": 5\x7d") = .ok (ascii "\x7b") := by decide +kernel

end Round

end LLM.Launcher

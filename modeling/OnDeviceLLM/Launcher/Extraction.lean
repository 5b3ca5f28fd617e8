import OnDeviceLLM.Json.Grammar
import OnDeviceLLM.Launcher.HttpService

namespace LLM.Launcher

open Cxx Text

/-- The landmarks by which `extract_prompt` finds its way stand in the text before the value:
    the first brace with a quote after it, from there the first quoted `prompt`, from there the
    first colon, and from there no quote until the value's own. -/
def Lands (before : Text) : Prop :=
  ∃ lead opening gap spacing, before = lead ++ (opening ++ (promptKey ++ (gap ++ Json.colon :: spacing))) ∧
    jsonOpening <+: opening ++ promptKey ∧ ¬ jsonOpening <:+: lead ∧
    ¬ promptKey <:+: opening ++ promptKey.dropLast ∧ Json.colon ∉ gap ∧ Json.quote ∉ spacing

theorem no_opening {header lead : Text} (noBrace : Json.openBrace ∉ header)
    (absent : ¬ jsonOpening <:+: lead) : ¬ jsonOpening <:+: (header ++ lead) ++ jsonOpening.dropLast := by
  intro found
  obtain ⟨front, back, split⟩ := found
  have braces : jsonOpening = [Json.openBrace, Json.quote] := by decide
  have brace : jsonOpening.dropLast = [Json.openBrace] := by decide
  rw [brace, braces] at split
  -- the brace at the end completes no opening, so the match lies in the headers or in `lead`
  cases back using List.reverseRecOn with
  | nil =>
    have last := congrArg List.getLast? split
    simp [Json.openBrace, Json.quote] at last
  | append_singleton back b _ =>
    rw [← List.append_assoc] at split
    have inside := (List.append_inj' split rfl).1
    rw [List.append_assoc] at inside
    rcases List.append_eq_append_iff.mp inside with ⟨more, headerEq, rest⟩ | ⟨more, _, leadEq⟩
    · cases more with
      | nil =>
        apply absent
        rw [braces, ← List.nil_append lead, ← rest]
        exact List.infix_append' [] _ back
      | cons c more =>
        have same : Json.openBrace = c := (List.cons.inj rest).1
        apply noBrace
        rw [headerEq, same]
        simp
    · apply absent
      rw [braces, leadEq]
      exact List.infix_append' more _ back

theorem extractPrompt_of_positions {request json shown rest : Text} {jsonPos keyPos colon firstQuote : Nat}
    (opened : find request jsonOpening 0 = jsonPos) (jsonFound : jsonPos ≠ npos)
    (cut : substr request jsonPos npos = .ok json) (keyed : find json promptKey 0 = keyPos)
    (keyFound : keyPos ≠ npos) (colonFound : find json (ascii ":") keyPos = colon)
    (quoted : find json (ascii "\"") colon = firstQuote)
    (after : json.drop (firstQuote + 1) = shown ++ Json.quote :: rest)
    (closed : find json (ascii "\"") (firstQuote + 1) = firstQuote + 1 + shown.length)
    (short : json.length < 2^63) (inside : firstQuote + 1 + shown.length < json.length) :
    extractPrompt request = .ok shown := by
  have next : sizeAdd firstQuote 1 = firstQuote + 1 := sizeAdd_of_lt (by omega)
  have count : sizeSub (sizeSub (firstQuote + 1 + shown.length) firstQuote) 1 = shown.length := by
    have first : sizeSub (firstQuote + 1 + shown.length) firstQuote = shown.length + 1 := by
      rw [sizeSub_of_le (by omega) (by omega)]
      omega
    rw [first, sizeSub_of_le (by omega) (by omega), Nat.add_sub_cancel]
  have within : ¬ firstQuote + 1 > json.length := by omega
  unfold extractPrompt
  simp only [opened, if_neg jsonFound, cut, bind, Except.bind, keyed, if_neg keyFound, colonFound, quoted,
    next, closed, count]
  rw [substr, if_neg within, after, List.take_left]

/-- After the landmarks, what is extracted is what stands before the next quote. -/
theorem extractPrompt_lands {header before shown rest : Text} (noBrace : Json.openBrace ∉ header)
    (lands : Lands before) (noQuote : Json.quote ∉ shown)
    (fits : (header ++ (before ++ Json.quote :: (shown ++ Json.quote :: rest))).length ≤ maxSize) :
    extractPrompt (header ++ (before ++ Json.quote :: (shown ++ Json.quote :: rest))) = .ok shown := by
  obtain ⟨lead, opening, gap, spacing, rfl, ⟨inner, opens⟩, noOpening, noKey, noColon, noQuoteBefore⟩ := lands
  generalize valueDef : Json.quote :: (shown ++ Json.quote :: rest) = value at fits ⊢
  generalize jsonDef : opening ++ (promptKey ++ (gap ++ Json.colon :: (spacing ++ value))) = json
  have whole : header ++ (lead ++ (opening ++ (promptKey ++ (gap ++ Json.colon :: spacing))) ++ value) =
      (header ++ lead) ++ json := by
    rw [← jsonDef]
    simp
  have startsJson : json = jsonOpening ++ (inner ++ (gap ++ Json.colon :: (spacing ++ value))) := by
    rw [← jsonDef, ← List.append_assoc opening, ← opens, List.append_assoc]
  have untilColon : json = opening ++ ((promptKey ++ gap) ++ (Json.colon :: (spacing ++ value))) := by
    rw [← jsonDef]
    simp
  have untilQuote : json = (opening ++ (promptKey ++ gap)) ++
      ((Json.colon :: spacing) ++ Json.quote :: (shown ++ Json.quote :: rest)) := by
    rw [← jsonDef, ← valueDef]
    simp
  have untilShown : json = (opening ++ (promptKey ++ gap) ++ (Json.colon :: spacing) ++ [Json.quote]) ++
      (shown ++ Json.quote :: rest) := by
    rw [untilQuote]
    simp
  have bound : maxSize < 2^63 := by decide
  have total : (header ++ lead).length + json.length < 2^63 := by
    rw [whole, List.length_append] at fits
    omega
  have jsonPos : find ((header ++ lead) ++ json) jsonOpening 0 = (header ++ lead).length :=
    find_text (by rw [startsJson]) (no_opening noBrace noOpening)
  have keyPos : find json promptKey 0 = opening.length := find_text jsonDef.symm noKey
  have colon : find json (ascii ":") opening.length = (opening ++ (promptKey ++ gap)).length := by
    apply find_byte untilColon
    rw [List.mem_append, not_or]
    exact ⟨by decide, noColon⟩
  have firstQuote : find json (ascii "\"") (opening ++ (promptKey ++ gap)).length =
      (opening ++ (promptKey ++ gap) ++ (Json.colon :: spacing)).length := by
    apply find_byte untilQuote
    rw [List.mem_cons, not_or]
    exact ⟨by decide, noQuoteBefore⟩
  have next : (opening ++ (promptKey ++ gap) ++ (Json.colon :: spacing) ++ [Json.quote]).length =
      (opening ++ (promptKey ++ gap) ++ (Json.colon :: spacing)).length + 1 := List.length_append
  have secondQuote : find json (ascii "\"")
      ((opening ++ (promptKey ++ gap) ++ (Json.colon :: spacing)).length + 1) =
      (opening ++ (promptKey ++ gap) ++ (Json.colon :: spacing)).length + 1 + shown.length := by
    rw [← next, ← List.length_append]
    exact find_byte untilShown noQuote
  have after : json.drop ((opening ++ (promptKey ++ gap) ++ (Json.colon :: spacing)).length + 1) =
      shown ++ Json.quote :: rest := by
    rw [← next, untilShown]
    exact List.drop_left
  have room : json.length = (opening ++ (promptKey ++ gap) ++ (Json.colon :: spacing)).length + 1 +
      (shown.length + (rest.length + 1)) := by
    rw [← next, untilShown]
    exact List.length_append.trans (congrArg _ List.length_append)
  have keyInside : opening.length ≤ json.length := by
    rw [untilColon, List.length_append]
    omega
  have jsonFound : (header ++ lead).length ≠ npos := by
    rw [npos]
    omega
  have keyFound : opening.length ≠ npos := by
    rw [npos]
    omega
  have cut : substr ((header ++ lead) ++ json) (header ++ lead).length npos = .ok json := by
    apply substr_append
    rw [npos]
    omega
  rw [whole]
  exact extractPrompt_of_positions jsonPos jsonFound cut keyPos keyFound colon firstQuote after secondQuote
    (by omega) (by omega)

theorem blank_free {t : Text} (blank : Json.Blank t) {b : UInt8} (mark : b ∉ [32, 9, 10, 13]) : b ∉ t := by
  intro member
  apply mark
  simpa using blank b member

/-- The landmarks are in place when the brace is directly followed by the quote of the first
    key, and `prompt` is spelled plainly and not quoted anywhere before. -/
theorem lands_of_plain_key {prompt : Text} (body : Json.StringMember (ascii "prompt") prompt)
    (tight : jsonOpening <+: (Json.openBrace :: (body.earlier ++ body.indent)) ++ promptKey)
    (plainKey : body.key = ascii "prompt")
    (first : ¬ promptKey <:+: (Json.openBrace :: (body.earlier ++ body.indent)) ++ promptKey.dropLast) :
    Lands body.before := by
  obtain ⟨blankLeading, _, blankBeforeColon, blankAfterColon, _⟩ := body.blanks
  have noBrace : Json.openBrace ∉ body.leading := blank_free blankLeading (by decide)
  have noColon : Json.colon ∉ body.beforeColon := blank_free blankBeforeColon (by decide)
  have noQuote : Json.quote ∉ body.afterColon := blank_free blankAfterColon (by decide)
  have noOpening : ¬ jsonOpening <:+: body.leading := by
    intro inside
    apply noBrace
    exact inside.subset (by decide)
  have quoted : promptKey = Json.quote :: (ascii "prompt" ++ [Json.quote]) := by decide
  refine ⟨body.leading, Json.openBrace :: (body.earlier ++ body.indent), body.beforeColon, body.afterColon,
    ?_, tight, noOpening, first, noColon, noQuote⟩
  rw [Json.StringMember.before, plainKey, quoted]
  simp

theorem until_quote (raw after : Text) : ∃ rest, raw ++ Json.quote :: after =
    raw.takeWhile (fun b => b ≠ Json.quote) ++ Json.quote :: rest := by
  induction raw with
  | nil => exact ⟨after, rfl⟩
  | cons b raw ih =>
    by_cases same : b = Json.quote
    · exact ⟨raw ++ Json.quote :: after, by simp [same]⟩
    · obtain ⟨rest, split⟩ := ih
      refine ⟨rest, ?_⟩
      rw [List.cons_append, split, List.takeWhile_cons, if_pos (by simpa using same), List.cons_append]

/-- A serialisation whose landmarks are in place gives back the prompt exactly when it spells
    the prompt as itself, without an escape; and they are in place where the key is spelled
    plainly, is not quoted anywhere before, and the first quote follows the brace. -/
theorem extractPrompt_round_trip_iff {prompt header : Text} (body : Json.StringMember (ascii "prompt") prompt)
    (noBrace : Json.openBrace ∉ header) (fits : (header ++ body.text).length ≤ maxSize) :
    (Lands body.before → (extractPrompt (header ++ body.text) = .ok prompt ↔ body.raw = prompt)) ∧
    (jsonOpening <+: (Json.openBrace :: (body.earlier ++ body.indent)) ++ promptKey → body.key = ascii "prompt" →
      ¬ promptKey <:+: (Json.openBrace :: (body.earlier ++ body.indent)) ++ promptKey.dropLast →
      Lands body.before) := by
  refine ⟨fun lands => ?_, lands_of_plain_key body⟩
  obtain ⟨rest, split⟩ := until_quote body.raw body.after
  rw [Json.StringMember.text, split] at fits ⊢
  have noQuote : Json.quote ∉ body.raw.takeWhile fun b => b ≠ Json.quote := by
    intro member
    have passed := List.all_eq_true.mp List.all_takeWhile _ member
    simp at passed
  rw [extractPrompt_lands noBrace lands noQuote fits, ← body.raw_spells.takeWhile_eq_iff]
  exact ⟨fun same => Except.ok.inj same, fun same => congrArg Except.ok same⟩

def requestHeaders : Text := ascii "POST /generate HTTP/1.1\r\nContent-Length: 20\r\n\r\n"

def onlyMember (name key indent afterColon raw value : Text) (spelled : Json.Spells key name)
    (spells : Json.Spells raw value) (blankIndent : Json.Blank indent) (blankAfter : Json.Blank afterColon) :
    Json.StringMember name value where
  leading := []
  earlier := []
  indent := indent
  key := key
  beforeColon := []
  afterColon := afterColon
  raw := raw
  afterValue := []
  later := []
  trailing := []
  blanks := ⟨by decide, blankIndent, by decide, blankAfter, by decide, by decide⟩
  earlier_members := .inl rfl
  key_spells := spelled
  raw_spells := spells
  later_members := .inl rfl

def plainBody : Json.StringMember (ascii "prompt") (ascii "hi") :=
  onlyMember (ascii "prompt") (ascii "prompt") [] [] (ascii "hi") (ascii "hi")
    (.plain_text _ (by decide)) (.plain_text _ (by decide)) (by decide) (by decide)

def spacedBody : Json.StringMember (ascii "prompt") (ascii "hi") :=
  onlyMember (ascii "prompt") (ascii "prompt") (ascii " ") [] (ascii "hi") (ascii "hi")
    (.plain_text _ (by decide)) (.plain_text _ (by decide)) (by decide) (by decide)

def escapedBody : Json.StringMember (ascii "prompt") (ascii "a\"b") :=
  onlyMember (ascii "prompt") (ascii "prompt") [] [] (ascii "a\\\"b") (ascii "a\"b")
    (.plain_text _ (by decide))
    (.plain _ (by decide) (by decide) (by decide) (.short _ _ (by decide) (.plain_text _ (by decide))))
    (by decide) (by decide)

theorem extractPrompt_round_trip_plain :
    extractPrompt (requestHeaders ++ plainBody.text) = .ok (ascii "hi") := by
  obtain ⟨exact_iff, lands⟩ := @extractPrompt_round_trip_iff _ requestHeaders plainBody (by decide) (by decide)
  exact (exact_iff (lands (by decide) (by decide) (by decide))).mpr rfl

theorem plain_member {key value : Text} (plainKey : Json.Plain key) (plainValue : Json.Plain value) :
    Json.Member (Json.quote :: (key ++ Json.quote :: Json.colon :: Json.quote :: (value ++ [Json.quote]))) := by
  have blank : Json.Blank [] := by decide
  have member := Json.Member.mk blank (.plain_text key plainKey) blank blank
    (.string (.plain_text value plainValue)) blank
  simpa using member

/-- The text `prompt` is the value of an earlier member. -/
def shadowedBody : Json.StringMember (ascii "prompt") (ascii "hi") where
  leading := []
  earlier := ascii "\"a\":\"prompt\",\"b\":\"x\","
  indent := []
  key := ascii "prompt"
  beforeColon := []
  afterColon := []
  raw := ascii "hi"
  afterValue := []
  later := []
  trailing := []
  blanks := by decide
  earlier_members := .inr ⟨ascii "\"a\":\"prompt\",\"b\":\"x\"", by decide, .more
    (plain_member (show Json.Plain (ascii "a") by decide) (show Json.Plain (ascii "prompt") by decide))
    (.last (plain_member (show Json.Plain (ascii "b") by decide) (show Json.Plain (ascii "x") by decide)))⟩
  key_spells := .plain_text _ (by decide)
  raw_spells := .plain_text _ (by decide)
  later_members := .inl rfl

/-- The key is spelled with an escape. -/
def escapedKeyBody : Json.StringMember (ascii "prompt") (ascii "hi") :=
  onlyMember (ascii "prompt") (ascii "\\u0070rompt") [] [] (ascii "hi") (ascii "hi")
    (.unicode (ascii "0070") 0x70 (by decide) (by decide) (.plain_text (ascii "rompt") (by decide)))
    (.plain_text _ (by decide)) (by decide) (by decide)

theorem extractPrompt_not_round_trip :
    Json.openBrace ∉ requestHeaders ∧
    extractPrompt (requestHeaders ++ spacedBody.text) ≠ .ok (ascii "hi") ∧
    extractPrompt (requestHeaders ++ escapedBody.text) ≠ .ok (ascii "a\"b") ∧
    extractPrompt (requestHeaders ++ shadowedBody.text) ≠ .ok (ascii "hi") ∧
    extractPrompt (requestHeaders ++ escapedKeyBody.text) ≠ .ok (ascii "hi") := by
  decide

end LLM.Launcher

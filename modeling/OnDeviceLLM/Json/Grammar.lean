import Mathlib.Data.List.TakeWhile
import Mathlib.Tactic

/-! JSON texts as byte strings, and what their strings spell. -/

namespace Json

abbrev Bytes := List UInt8

def quote : UInt8 := 34
def backslash : UInt8 := 92
def comma : UInt8 := 44
def colon : UInt8 := 58
def openBrace : UInt8 := 123
def closeBrace : UInt8 := 125
def openBracket : UInt8 := 91
def closeBracket : UInt8 := 93

def Blank (t : Bytes) : Prop := ∀ b ∈ t, b = 32 ∨ b = 9 ∨ b = 10 ∨ b = 13

instance (t : Bytes) : Decidable (Blank t) := List.decidableBAll _ t

def Plain (t : Bytes) : Prop := ∀ b ∈ t, 32 ≤ b ∧ b ≠ quote ∧ b ≠ backslash

instance (t : Bytes) : Decidable (Plain t) := List.decidableBAll _ t

/-- The blanks before a byte that is none are determined. -/
theorem Blank.unique {front front' back back' : Bytes} {b c : UInt8} (blank : Blank front)
    (blank' : Blank front') (solid : ¬ Blank [b]) (solid' : ¬ Blank [c])
    (same : front ++ b :: back = front' ++ c :: back') : front = front' ∧ b = c ∧ back = back' := by
  induction front generalizing front' with
  | nil =>
    cases front' with
    | nil => exact ⟨rfl, List.cons.inj same⟩
    | cons d front' =>
      have first : b = d := (List.cons.inj same).1
      exact absurd (fun e member => blank' e (by simp_all)) solid
  | cons d front ih =>
    cases front' with
    | nil =>
      have first : d = c := (List.cons.inj same).1
      exact absurd (fun e member => blank e (by simp_all)) solid'
    | cons e front' =>
      obtain ⟨first, rest⟩ := List.cons.inj same
      have inner := ih (fun f member => blank f (List.mem_cons_of_mem d member))
        (fun f member => blank' f (List.mem_cons_of_mem e member)) rest
      exact ⟨by rw [first, inner.1], inner.2⟩

def shortEscape : UInt8 → Option UInt8
  | 34 => some 34
  | 92 => some 92
  | 47 => some 47
  | 98 => some 8
  | 102 => some 12
  | 110 => some 10
  | 114 => some 13
  | 116 => some 9
  | _ => none

def hexValue (b : UInt8) : Option Nat :=
  if 48 ≤ b ∧ b ≤ 57 then some (b.toNat - 48)
  else if 65 ≤ b ∧ b ≤ 70 then some (b.toNat - 55)
  else if 97 ≤ b ∧ b ≤ 102 then some (b.toNat - 87)
  else none

def codeUnit (digits : Bytes) : Option Nat :=
  match digits with
  | [a, b, c, d] => do
    let a ← hexValue a
    let b ← hexValue b
    let c ← hexValue c
    let d ← hexValue d
    some (4096 * a + 256 * b + 16 * c + d)
  | _ => none

def utf8 (u : Nat) : Bytes :=
  if u < 0x80 then [u.toUInt8]
  else if u < 0x800 then [(0xC0 + u / 64).toUInt8, (0x80 + u % 64).toUInt8]
  else if u < 0x10000 then
    [(0xE0 + u / 4096).toUInt8, (0x80 + u / 64 % 64).toUInt8, (0x80 + u % 64).toUInt8]
  else
    [(0xF0 + u / 262144).toUInt8, (0x80 + u / 4096 % 64).toUInt8, (0x80 + u / 64 % 64).toUInt8,
      (0x80 + u % 64).toUInt8]

def surrogatePair (high low : Nat) : Nat := 0x10000 + (high - 0xD800) * 1024 + (low - 0xDC00)

/-- What stands between the quotes, and the characters it spells. -/
inductive Spells : Bytes → Bytes → Prop where
  | nil : Spells [] []
  | plain (b : UInt8) {raw value : Bytes} (printable : 32 ≤ b) (noQuote : b ≠ quote)
      (noBackslash : b ≠ backslash) (rest : Spells raw value) : Spells (b :: raw) (b :: value)
  | short (c b : UInt8) {raw value : Bytes} (escape : shortEscape c = some b)
      (rest : Spells raw value) : Spells (backslash :: c :: raw) (b :: value)
  | unicode (digits : Bytes) (u : Nat) {raw value : Bytes} (unit : codeUnit digits = some u)
      (scalar : u < 0xD800 ∨ 0xE000 ≤ u) (rest : Spells raw value) :
      Spells (backslash :: 117 :: (digits ++ raw)) (utf8 u ++ value)
  | pair (first second : Bytes) (high low : Nat) {raw value : Bytes} (highUnit : codeUnit first = some high)
      (highRange : 0xD800 ≤ high ∧ high < 0xDC00) (lowUnit : codeUnit second = some low)
      (lowRange : 0xDC00 ≤ low ∧ low < 0xE000) (rest : Spells raw value) :
      Spells (backslash :: 117 :: (first ++ backslash :: 117 :: (second ++ raw)))
        (utf8 (surrogatePair high low) ++ value)

theorem hexValue_lt {b : UInt8} {n : Nat} (digit : hexValue b = some n) : n < 16 := by
  unfold hexValue at digit
  simp only [UInt8.le_iff_toNat_le, UInt8.reduceToNat] at digit
  split at digit
  · cases digit
    omega
  · split at digit
    · cases digit
      omega
    · split at digit
      · cases digit
        omega
      · cases digit

theorem codeUnit_some {digits : Bytes} {u : Nat} (unit : codeUnit digits = some u) :
    digits.length = 4 ∧ quote ∉ digits ∧ u < 0x10000 := by
  match digits with
  | [a, b, c, d] =>
    simp only [codeUnit, Option.bind_eq_bind, Option.bind_eq_some_iff, Option.some.injEq] at unit
    obtain ⟨va, ha, vb, hb, vc, hc, vd, hd, sum⟩ := unit
    have noQuote : hexValue quote = none := by decide
    have other : ∀ {x v}, hexValue x = some v → quote ≠ x := by
      intro x v value same
      rw [← same, noQuote] at value
      cases value
    have boundA := hexValue_lt ha
    have boundB := hexValue_lt hb
    have boundC := hexValue_lt hc
    have boundD := hexValue_lt hd
    refine ⟨rfl, ?_, by omega⟩
    simp [other ha, other hb, other hc, other hd]
  | [] => cases unit
  | [_] => cases unit
  | [_, _] => cases unit
  | [_, _, _] => cases unit
  | _ :: _ :: _ :: _ :: _ :: _ => cases unit

theorem utf8_length_le (u : Nat) : (utf8 u).length ≤ 4 := by
  unfold utf8
  split
  · simp
  · split
    · simp
    · split <;> simp

namespace Spells

variable {raw value : Bytes}

theorem plain_text (t : Bytes) (plain : Plain t) : Spells t t := by
  induction t with
  | nil => exact .nil
  | cons b t ih =>
    obtain ⟨printable, noQuote, noBackslash⟩ := plain b List.mem_cons_self
    exact .plain b printable noQuote noBackslash (ih fun c member => plain c (List.mem_cons_of_mem b member))

/-- Spelling never shortens, and without an escape it changes nothing. -/
theorem length_le (spells : Spells raw value) :
    value.length ≤ raw.length ∧ (value.length = raw.length → raw = value ∧ quote ∉ raw) := by
  induction spells with
  | nil => simp
  | plain b _ noQuote _ _ ih =>
    refine ⟨Nat.succ_le_succ ih.1, fun same => ?_⟩
    obtain ⟨equal, absent⟩ := ih.2 (Nat.succ.inj same)
    refine ⟨by rw [equal], ?_⟩
    rw [List.mem_cons, not_or]
    exact ⟨noQuote.symm, absent⟩
  | short c b _ _ ih =>
    have bound := ih.1
    simp only [List.length_cons]
    exact ⟨by omega, fun same => by omega⟩
  | unicode digits u unit _ _ ih =>
    have bound := ih.1
    have four := (codeUnit_some unit).1
    have short := utf8_length_le u
    simp only [List.length_cons, List.length_append]
    exact ⟨by omega, fun same => by omega⟩
  | pair first second high low highUnit _ lowUnit _ _ ih =>
    have bound := ih.1
    have fourFirst := (codeUnit_some highUnit).1
    have fourSecond := (codeUnit_some lowUnit).1
    have short := utf8_length_le (surrogatePair high low)
    simp only [List.length_cons, List.length_append]
    exact ⟨by omega, fun same => by omega⟩

/-- What spells itself has neither a quote, nor a backslash, nor a control byte. -/
theorem plain_of_length (spells : Spells raw value) (same : value.length = raw.length) : Plain raw := by
  induction spells with
  | nil => exact fun _ member => absurd member List.not_mem_nil
  | plain b printable noQuote noBackslash _ ih =>
    exact List.forall_mem_cons.mpr ⟨⟨printable, noQuote, noBackslash⟩, ih (Nat.succ.inj same)⟩
  | short c b _ rest _ =>
    have bound := rest.length_le.1
    simp only [List.length_cons] at same
    omega
  | unicode digits u unit _ rest _ =>
    have bound := rest.length_le.1
    have four := (codeUnit_some unit).1
    have short := utf8_length_le u
    simp only [List.length_cons, List.length_append] at same
    omega
  | pair first second high low highUnit _ lowUnit _ rest _ =>
    have bound := rest.length_le.1
    have fourFirst := (codeUnit_some highUnit).1
    have fourSecond := (codeUnit_some lowUnit).1
    have short := utf8_length_le (surrogatePair high low)
    simp only [List.length_cons, List.length_append] at same
    omega

theorem quote_mem (spells : Spells raw value) (member : quote ∈ raw) : quote ∈ value := by
  induction spells with
  | nil => exact member
  | plain b _ noQuote _ _ ih =>
    rcases List.mem_cons.mp member with same | inside
    · exact absurd same.symm noQuote
    · exact List.mem_cons_of_mem b (ih inside)
  | short c b escape _ ih =>
    rcases List.mem_cons.mp member with same | inside
    · exact absurd same (by decide)
    · rcases List.mem_cons.mp inside with same | inside
      · have quoted : shortEscape quote = some quote := by decide
        rw [← same, quoted] at escape
        rw [← Option.some.inj escape]
        exact List.mem_cons_self
      · exact List.mem_cons_of_mem b (ih inside)
  | unicode digits u unit _ _ ih =>
    have absent := (codeUnit_some unit).2.1
    have other : quote ≠ backslash ∧ quote ≠ 117 := by decide
    simp only [List.mem_cons, List.mem_append, other.1, other.2, absent, false_or] at member
    exact List.mem_append_right _ (ih member)
  | pair first second high low highUnit _ lowUnit _ _ ih =>
    have absentFirst := (codeUnit_some highUnit).2.1
    have absentSecond := (codeUnit_some lowUnit).2.1
    have other : quote ≠ backslash ∧ quote ≠ 117 := by decide
    simp only [List.mem_cons, List.mem_append, other.1, other.2, absentFirst, absentSecond,
      false_or] at member
    exact List.mem_append_right _ (ih member)

/-- Reading up to the first quote gives the value exactly when it is spelled as itself. -/
theorem takeWhile_eq_iff (spells : Spells raw value) :
    raw.takeWhile (fun b => b ≠ quote) = value ↔ raw = value := by
  constructor
  · intro shown
    have noQuote : quote ∉ value := by
      intro member
      rw [← shown] at member
      have passed := List.all_eq_true.mp List.all_takeWhile quote member
      simp at passed
    have absent : ∀ b ∈ raw, decide (b ≠ quote) = true := by
      intro b member
      simp only [ne_eq, decide_eq_true_eq]
      intro same
      rw [same] at member
      exact noQuote (spells.quote_mem member)
    rw [← shown]
    exact (List.takeWhile_eq_self_iff.mpr absent).symm
  · intro same
    have absent := (spells.length_le.2 (by rw [same])).2
    rw [← same]
    apply List.takeWhile_eq_self_iff.mpr
    intro b member
    simp only [ne_eq, decide_eq_true_eq]
    intro same
    rw [same] at member
    exact absent member

theorem takeWhile_quote (t s : Bytes) :
    (t ++ quote :: s).takeWhile (fun b => b ≠ quote) = t.takeWhile fun b => b ≠ quote := by
  induction t with
  | nil => simp
  | cons b t ih =>
    rw [List.cons_append, List.takeWhile_cons, List.takeWhile_cons, ih]

/-- A value without a quote that stands before a quote is spelled as itself there. -/
theorem before_quote (spells : Spells raw value) (noQuote : quote ∉ value) {s t : Bytes}
    (same : raw ++ quote :: s = value ++ quote :: t) : raw = value ∧ s = t := by
  have absent : ∀ b ∈ value, decide (b ≠ quote) = true := by
    intro b member
    simp only [ne_eq, decide_eq_true_eq]
    intro hit
    exact noQuote (hit ▸ member)
  have shown := congrArg (List.takeWhile fun b => b ≠ quote) same
  rw [takeWhile_quote, takeWhile_quote, List.takeWhile_eq_self_iff.mpr absent] at shown
  have spelled := spells.takeWhile_eq_iff.mp shown
  rw [spelled] at same
  exact ⟨spelled, (List.cons.inj (List.append_cancel_left same)).2⟩

end Spells

def Digits (t : Bytes) : Prop := t ≠ [] ∧ ∀ b ∈ t, 48 ≤ b ∧ b ≤ 57

inductive Number : Bytes → Prop where
  | mk (sign whole fraction exponent : Bytes) (signed : sign = [] ∨ sign = [45])
      (wholeDigits : whole = [48] ∨ (Digits whole ∧ whole.head? ≠ some 48))
      (fractionDigits : fraction = [] ∨ ∃ digits, fraction = 46 :: digits ∧ Digits digits)
      (exponentDigits : exponent = [] ∨ ∃ e sign digits, exponent = e :: (sign ++ digits) ∧
        (e = 101 ∨ e = 69) ∧ (sign = [] ∨ sign = [43] ∨ sign = [45]) ∧ Digits digits) :
      Number (sign ++ whole ++ fraction ++ exponent)

mutual
inductive Value : Bytes → Prop where
  | null : Value [110, 117, 108, 108]
  | true : Value [116, 114, 117, 101]
  | false : Value [102, 97, 108, 115, 101]
  | number {t : Bytes} (number : Number t) : Value t
  | string {raw value : Bytes} (spells : Spells raw value) : Value (quote :: (raw ++ [quote]))
  | emptyArray {blank : Bytes} (isBlank : Blank blank) : Value (openBracket :: (blank ++ [closeBracket]))
  | array {t : Bytes} (elements : Elements t) : Value (openBracket :: (t ++ [closeBracket]))
  | emptyObject {blank : Bytes} (isBlank : Blank blank) : Value (openBrace :: (blank ++ [closeBrace]))
  | object {t : Bytes} (members : Members t) : Value (openBrace :: (t ++ [closeBrace]))

inductive Elements : Bytes → Prop where
  | last {before t after : Bytes} (blankBefore : Blank before) (value : Value t) (blankAfter : Blank after) :
      Elements (before ++ t ++ after)
  | more {before t after rest : Bytes} (blankBefore : Blank before) (value : Value t)
      (blankAfter : Blank after) (elements : Elements rest) :
      Elements (before ++ t ++ after ++ comma :: rest)

inductive Members : Bytes → Prop where
  | last {t : Bytes} (member : Member t) : Members t
  | more {t rest : Bytes} (member : Member t) (members : Members rest) : Members (t ++ comma :: rest)

inductive Member : Bytes → Prop where
  | mk {before key name beforeColon afterColon t after : Bytes} (blankBefore : Blank before)
      (spells : Spells key name) (blankBeforeColon : Blank beforeColon) (blankAfterColon : Blank afterColon)
      (value : Value t) (blankAfter : Blank after) :
      Member (before ++ quote :: (key ++ quote :: (beforeColon ++ colon :: (afterColon ++ t ++ after))))
end

/-- A serialisation of an object in which the member `name` is the string `value`. -/
structure StringMember (name value : Bytes) where
  leading : Bytes
  earlier : Bytes
  indent : Bytes
  key : Bytes
  beforeColon : Bytes
  afterColon : Bytes
  raw : Bytes
  afterValue : Bytes
  later : Bytes
  trailing : Bytes
  blanks : Blank leading ∧ Blank indent ∧ Blank beforeColon ∧ Blank afterColon ∧ Blank afterValue ∧
    Blank trailing
  earlier_members : earlier = [] ∨ ∃ members, earlier = members ++ [comma] ∧ Members members
  key_spells : Spells key name
  raw_spells : Spells raw value
  later_members : later = [] ∨ ∃ members, later = comma :: members ∧ Members members

namespace StringMember

variable {name value : Bytes} (m : StringMember name value)

/-- Everything up to the opening quote of the value. -/
def before : Bytes :=
  m.leading ++ openBrace :: (m.earlier ++ m.indent ++ quote :: (m.key ++ quote :: (m.beforeColon ++
    colon :: m.afterColon)))

/-- Everything from the closing quote of the value on. -/
def after : Bytes := m.afterValue ++ m.later ++ closeBrace :: m.trailing

def text : Bytes := m.before ++ quote :: (m.raw ++ quote :: m.after)

end StringMember

end Json

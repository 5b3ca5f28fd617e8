import OnDeviceLLM.Cxx.Text

/-! HTTP messages as byte strings: where the header block ends, what its fields are, and the
    body that a client takes. -/

namespace Http

open Cxx Text

def crlf : Text := [13, 10]

def blankLine : Text := [13, 10, 13, 10]

def colon : UInt8 := 58

/-- A header block: it ends at its first blank line. -/
structure Head where
  text : Text
  ends : blankLine <:+ text
  first : ¬ blankLine <:+: text.dropLast

def splitHead : Text → Option (Text × Text)
  | [] => none
  | b :: s =>
    if blankLine.isPrefixOf (b :: s) then some (blankLine, s.drop 3)
    else (splitHead s).map fun parts => (b :: parts.1, parts.2)

theorem Head.split (head : Head) : ∃ front, head.text = front ++ blankLine ∧
    ¬ blankLine <:+: front ++ blankLine.dropLast := by
  obtain ⟨front, split⟩ := head.ends
  have first := head.first
  rw [← split, List.dropLast_append_of_ne_nil (by decide)] at first
  exact ⟨front, split.symm, first⟩

/-- Whatever is cut off the block from the left ends in its last line feed. -/
theorem Head.suffix_feed (head : Head) {lead tail : Text} (split : head.text = lead ++ tail)
    (nonempty : tail ≠ []) : ∃ front, tail = front ++ [10] := by
  obtain ⟨front, ends, _⟩ := head.split
  have last := congrArg List.getLast? (split.symm.trans ends)
  rw [← List.dropLast_concat_getLast nonempty] at last ⊢
  have feed : tail.getLast nonempty = 10 := by simpa [blankLine] using last
  exact ⟨tail.dropLast, by rw [feed]⟩

/-- A message is split where its header block ends, whatever follows. -/
theorem splitHead_append (head : Head) (body : Text) :
    splitHead (head.text ++ body) = some (head.text, body) := by
  obtain ⟨front, split, first⟩ := head.split
  rw [split]
  clear split
  induction front with
  | nil => rfl
  | cons b front ih =>
    have later : ¬ blankLine <:+: front ++ blankLine.dropLast := by
      intro inside
      exact first (inside.trans (List.suffix_cons b _).isInfix)
    have missed : blankLine.isPrefixOf (b :: (front ++ blankLine ++ body)) = false := by
      rw [← Bool.not_eq_true, List.isPrefixOf_iff_prefix]
      intro here
      have shorter : b :: (front ++ blankLine.dropLast) <+: b :: (front ++ blankLine ++ body) := by
        rw [List.prefix_cons_inj, List.append_assoc, List.prefix_append_right_inj]
        exact (List.dropLast_prefix _).trans (List.prefix_append _ _)
      apply first
      exact (List.prefix_of_prefix_length_le here shorter (by simp [blankLine])).isInfix
    rw [List.cons_append, List.cons_append, splitHead, missed, ih later]
    rfl

section Fields

def lines : Text → List Text
  | [] => [[]]
  | b :: s =>
    match lines s with
    | (10 :: line) :: rest => if b = 13 then [] :: line :: rest else (b :: 10 :: line) :: rest
    | line :: rest => (b :: line) :: rest
    | [] => [[b]]

def lower (b : UInt8) : UInt8 := if 65 ≤ b ∧ b ≤ 90 then b + 32 else b

def isBlank (b : UInt8) : Bool := b = 32 || b = 9

def trim (s : Text) : Text := (((s.dropWhile isBlank).reverse).dropWhile isBlank).reverse

/-- The value of a header line, if that is the name of its field up to letter case. -/
def fieldValue (name line : Text) : Option Text :=
  if colon ∈ line ∧ (line.takeWhile (· ≠ colon)).map lower = name.map lower then
    some (trim (line.dropWhile (· ≠ colon)).tail)
  else none

/-- The value of the first field of this name; the first line is none. -/
def field (name block : Text) : Option Text := ((lines block).drop 1).findSome? (fieldValue name)

def number (value : Text) : Option Nat :=
  if value ≠ [] ∧ value.all isDigit then some (decimal value) else none

/-- A header line with this name, spelled so, and this value between blanks, in its block. -/
structure FieldLine (name value : Text) where
  before : Text
  lead : Text
  trail : Text
  after : Text
  blanks : lead.all isBlank = true ∧ trail.all isBlank = true

namespace FieldLine

variable {name value : Text} (line : FieldLine name value)

/-- The value with what surrounds it in the line. -/
def content : Text := line.lead ++ (value ++ line.trail)

def block : Text := line.before ++ (crlf ++ (name ++ colon :: line.content ++ (crlf ++ line.after)))

end FieldLine

theorem number_some {value : Text} {n : Nat} (denotes : number value = some n) :
    value ≠ [] ∧ (∀ b ∈ value, isDigit b = true) ∧ decimal value = n := by
  unfold number at denotes
  split at denotes
  · rename_i digits
    exact ⟨digits.1, List.all_eq_true.mp digits.2, Option.some.inj denotes⟩
  · cases denotes

theorem lines_ne_nil (s : Text) : lines s ≠ [] := by
  cases s with
  | nil => exact List.cons_ne_nil _ _
  | cons b s =>
    rw [lines]
    split
    · split <;> exact List.cons_ne_nil _ _
    · exact List.cons_ne_nil _ _
    · exact List.cons_ne_nil _ _

theorem lines_crlf (s : Text) : lines (crlf ++ s) = [] :: lines s := by
  obtain ⟨line, rest, split⟩ := List.exists_cons_of_ne_nil (lines_ne_nil s)
  have feed : lines (10 :: s) = (10 :: line) :: rest := by
    rw [lines, split]
    split
    · rename_i same
      obtain ⟨rfl, rfl⟩ := List.cons.inj same
      rfl
    · rename_i same
      obtain ⟨rfl, rfl⟩ := List.cons.inj same
      rfl
    · rename_i same
      cases same
  show lines (13 :: 10 :: s) = _
  rw [lines, feed, split]
  rfl

theorem lines_append (front s : Text) : lines (front ++ (crlf ++ s)) = lines front ++ lines s := by
  induction front with
  | nil => exact lines_crlf s
  | cons b front ih =>
    obtain ⟨line, rest, split⟩ := List.exists_cons_of_ne_nil (lines_ne_nil front)
    rw [List.cons_append, lines, ih, lines, split]
    cases line with
    | nil => rfl
    | cons c line =>
      by_cases feed : c = 10
      · subst feed
        by_cases carriage : b = 13 <;> simp [carriage]
      · have other : ∀ tail, (match ((c :: line) :: tail : List Text) with
            | (10 :: line) :: rest => if b = 13 then [] :: line :: rest else (b :: 10 :: line) :: rest
            | line :: rest => (b :: line) :: rest
            | [] => [[b]]) = (b :: c :: line) :: tail := by
          intro tail
          split
          · rename_i same
            exact absurd (List.cons.inj (List.cons.inj same).1).1 feed
          · rename_i same
            obtain ⟨rfl, rfl⟩ := List.cons.inj same
            rfl
          · rename_i same
            cases same
        rw [List.cons_append, other, other]
        rfl

theorem lines_single {line : Text} (noReturn : 13 ∉ line) : lines line = [line] := by
  induction line with
  | nil => rfl
  | cons b line ih =>
    rw [List.mem_cons, not_or] at noReturn
    rw [lines, ih noReturn.2]
    split
    · rename_i same
      obtain ⟨rfl, rfl⟩ := List.cons.inj same
      rw [if_neg (Ne.symm noReturn.1)]
    · rename_i same
      obtain ⟨rfl, rfl⟩ := List.cons.inj same
      rfl
    · rename_i same
      cases same

theorem dropWhile_blanks {blanks s : Text} (blank : ∀ b ∈ blanks, isBlank b = true)
    (solid : ∀ b ∈ s.head?, isBlank b = false) : (blanks ++ s).dropWhile isBlank = s := by
  rw [List.dropWhile_append_of_pos blank]
  cases s with
  | nil => rfl
  | cons b s => rw [List.dropWhile_cons, solid b rfl, if_neg Bool.false_ne_true]

theorem trim_between {lead value trail : Text} (blankLead : ∀ b ∈ lead, isBlank b = true)
    (blankTrail : ∀ b ∈ trail, isBlank b = true) (nonempty : value ≠ [])
    (solid : ∀ b ∈ value, isBlank b = false) : trim (lead ++ (value ++ trail)) = value := by
  have left : (lead ++ (value ++ trail)).dropWhile isBlank = value ++ trail := by
    apply dropWhile_blanks blankLead
    intro b first
    rw [List.head?_append_of_ne_nil _ nonempty] at first
    exact solid b (List.mem_of_mem_head? first)
  have right : (trail.reverse ++ value.reverse).dropWhile isBlank = value.reverse := by
    apply dropWhile_blanks (fun b member => blankTrail b (List.mem_reverse.mp member))
    intro b last
    exact solid b (List.mem_reverse.mp (List.mem_of_mem_head? last))
  rw [trim, left, List.reverse_append, right, List.reverse_reverse]

theorem fieldValue_line {name lead value trail : Text} (noColon : colon ∉ name)
    (blankLead : ∀ b ∈ lead, isBlank b = true) (blankTrail : ∀ b ∈ trail, isBlank b = true)
    (nonempty : value ≠ []) (solid : ∀ b ∈ value, isBlank b = false) :
    fieldValue name (name ++ colon :: (lead ++ (value ++ trail))) = some value := by
  have passes : ∀ b ∈ name, decide (b ≠ colon) = true := by
    intro b member
    simp only [ne_eq, decide_eq_true_eq]
    intro same
    exact noColon (same ▸ member)
  have named : (name ++ colon :: (lead ++ (value ++ trail))).takeWhile (· ≠ colon) = name := by
    rw [List.takeWhile_append_of_pos passes, List.takeWhile_cons, if_neg (by simp), List.append_nil]
  have rest : (name ++ colon :: (lead ++ (value ++ trail))).dropWhile (· ≠ colon) =
      colon :: (lead ++ (value ++ trail)) := by
    rw [List.dropWhile_append_of_pos passes, List.dropWhile_cons, if_neg (by simp)]
  have inside : colon ∈ name ++ colon :: (lead ++ (value ++ trail)) :=
    List.mem_append_right _ List.mem_cons_self
  rw [fieldValue, named, rest, if_pos ⟨inside, rfl⟩, List.tail_cons,
    trim_between blankLead blankTrail nonempty solid]

/-- A field line gives the field, unless an earlier line has that name in some spelling. -/
theorem FieldLine.field_block {name value : Text} (line : FieldLine name value) (noColon : colon ∉ name)
    (oneLine : 13 ∉ name ++ colon :: line.content) (nonempty : value ≠ [])
    (solid : ∀ b ∈ value, isBlank b = false)
    (earlier : ∀ other ∈ (lines line.before).drop 1, fieldValue name other = none) :
    field name line.block = some value := by
  have listed : lines line.block =
      lines line.before ++ (name ++ colon :: line.content) :: lines line.after := by
    rw [FieldLine.block, lines_append, lines_append, lines_single oneLine]
    rfl
  have begun := List.length_pos_of_ne_nil (lines_ne_nil line.before)
  rw [field, listed, List.drop_append_of_le_length begun, List.findSome?_append,
    List.findSome?_eq_none_iff.mpr earlier, Option.none_or, List.findSome?_cons, FieldLine.content,
    fieldValue_line noColon (List.all_eq_true.mp line.blanks.1) (List.all_eq_true.mp line.blanks.2) nonempty solid]

end Fields

theorem digit_byte {c : Char} (digit : c.isDigit = true) :
    isDigit c.val.toUInt8 = true ∧ c.val.toUInt8.toNat = c.toNat := by
  have bounds : 48 ≤ c.toNat ∧ c.toNat ≤ 57 := Char.isDigit_iff_toNat.mp digit
  have same : c.val.toUInt8.toNat = c.toNat := by
    rw [UInt32.toNat_toUInt8]
    exact Nat.mod_eq_of_lt (by rw [← Char.toNat]; omega)
  have digit : isDigit c.val.toUInt8 = true := by
    simp only [isDigit, Bool.and_eq_true, decide_eq_true_eq, UInt8.le_iff_toNat_le, same]
    exact bounds
  exact ⟨digit, same⟩

theorem decimal_digits (chars : List Char) (digits : ∀ c ∈ chars, c.isDigit = true) (n : Nat) :
    (chars.map fun c => c.val.toUInt8).foldl (fun n b => 10 * n + (b.toNat - 48)) n =
      Nat.ofDigitChars 10 chars n := by
  induction chars generalizing n with
  | nil => rfl
  | cons c chars ih =>
    have head := digit_byte (digits c List.mem_cons_self)
    rw [List.map_cons, List.foldl_cons, head.2, ih fun d member => digits d (List.mem_cons_of_mem c member),
      Nat.ofDigitChars_cons]
    rfl

theorem ascii_toString (n : Nat) :
    ascii (toString n) = (Nat.toDigits 10 n).map fun c => c.val.toUInt8 := by
  rw [ascii, Nat.toString_eq_ofList_toDigits, String.toList_ofList]

theorem isDigit_of_mem_toDigits {n : Nat} {c : Char} (member : c ∈ Nat.toDigits 10 n) : c.isDigit = true :=
  Nat.isDigit_of_mem_toDigits (by decide) (by decide) member

theorem toString_ne_nil (n : Nat) : ascii (toString n) ≠ [] := by
  rw [ascii_toString, ne_eq, List.map_eq_nil_iff]
  exact Nat.toDigits_ne_nil

theorem toString_digits (n : Nat) : ∀ b ∈ ascii (toString n), isDigit b = true := by
  intro b member
  rw [ascii_toString] at member
  obtain ⟨c, inside, rfl⟩ := List.mem_map.mp member
  exact (digit_byte (isDigit_of_mem_toDigits inside)).1

theorem isDigit_of_isBlank {b : UInt8} (blank : isBlank b = true) : isDigit b = false := by
  simp only [isBlank, Bool.or_eq_true, decide_eq_true_eq] at blank
  rcases blank with rfl | rfl <;> rfl

theorem isBlank_of_isDigit {b : UInt8} (digit : isDigit b = true) : isBlank b = false := by
  by_contra blank
  rw [isDigit_of_isBlank (by simpa using blank)] at digit
  cases digit

/-- A printed number is read back. -/
theorem number_toString (n : Nat) : number (ascii (toString n)) = some n := by
  have all : (ascii (toString n)).all isDigit = true := List.all_eq_true.mpr (toString_digits n)
  rw [number, if_pos ⟨toString_ne_nil n, all⟩, decimal, ascii_toString,
    decimal_digits _ fun _ member => isDigit_of_mem_toDigits member, Nat.ofDigitChars_ten_toDigits]

/-- What a client takes as the body: of what follows the header block, as many bytes as the
    block says. -/
def receive (message : Text) : Option Text := do
  let (head, rest) ← splitHead message
  let value ← field (ascii "Content-Length") head
  let length ← number value
  if length ≤ rest.length then some (rest.take length) else none

theorem receive_append (head : Head) (body : Text)
    (sized : field (ascii "Content-Length") head.text = some (ascii (toString body.length))) :
    receive (head.text ++ body) = some body := by
  rw [receive, splitHead_append]
  simp only [Option.bind_eq_bind, Option.bind_some, sized, number_toString, le_refl, if_true, List.take_length]

end Http

import Mathlib.Data.List.TakeWhile
import OnDeviceLLM.Cxx.Exec

namespace Cxx

/-- The bytes of a `std::string`. -/
abbrev Text := List UInt8

/-- A string literal of the source; all of them are ASCII. -/
def ascii (s : String) : Text := s.toList.map fun c => c.val.toUInt8

namespace Text

def npos : Nat := 2^64 - 1

/-- `max_size()` -/
def maxSize : Nat := 2^63 - 1

/-- Sums and differences of `size_t` values. -/
def sizeAdd (a b : Nat) : Nat := (a + b) % 2^64
def sizeSub (a b : Nat) : Nat := (a + 2^64 - b) % 2^64

/-- The first position from `i` on where the rest of the text is a hit. -/
def search (hit : Text → Bool) : Text → Nat → Nat
  | [], i => if hit [] then i else npos
  | b :: s, i => if hit (b :: s) then i else search hit s (i + 1)

def find (s needle : Text) (pos : Nat) : Nat :=
  if pos ≤ s.length then search needle.isPrefixOf (s.drop pos) pos else npos

def headIs (p : UInt8 → Bool) : Text → Bool
  | [] => false
  | b :: _ => p b

def findFirstOf (s set : Text) (pos : Nat) : Nat :=
  search (headIs fun b => set.contains b) (s.drop pos) pos

def findFirstNotOf (s set : Text) (pos : Nat) : Nat :=
  search (headIs fun b => !set.contains b) (s.drop pos) pos

def substr (s : Text) (pos count : Nat) : Except Exception Text :=
  if pos > s.length then .error .outOfRange else .ok ((s.drop pos).take count)

def append (s chunk : Text) : Except Exception Text :=
  if s.length + chunk.length > maxSize then .error .lengthError else .ok (s ++ chunk)

def isSpace (b : UInt8) : Bool := b = 32 || (9 ≤ b && b ≤ 13)

def isDigit (b : UInt8) : Bool := 48 ≤ b && b ≤ 57

def digits : Text := ascii "0123456789"

def decimal (s : Text) : Nat := s.foldl (fun n b => 10 * n + (b.toNat - 48)) 0

/-- `std::stoi` in base 10. -/
def stoi (s : Text) : Except Exception Int :=
  let s := s.dropWhile isSpace
  let (negative, s) := match s with
    | 45 :: s => (true, s)
    | 43 :: s => (false, s)
    | s => (false, s)
  let run := s.takeWhile isDigit
  if run = [] then .error .invalidArgument
  else
    let value : Int := if negative then -(decimal run : Int) else decimal run
    if -2^31 ≤ value ∧ value < 2^31 then .ok value else .error .outOfRange

theorem search_split (hit : Text → Bool) (s : Text) (i : Nat) :
    (search hit s i = npos ∧ ∀ before rest, s = before ++ rest → hit rest = false) ∨
    ∃ before rest, s = before ++ rest ∧ hit rest = true ∧ search hit s i = i + before.length ∧
      ∀ front back, before = front ++ back → back ≠ [] → hit (back ++ rest) = false := by
  induction s generalizing i with
  | nil =>
    cases here : hit [] with
    | true => exact .inr ⟨[], [], rfl, here, by simp [search, here], by simp⟩
    | false =>
      refine .inl ⟨by simp [search, here], fun before rest split => ?_⟩
      rw [(List.append_eq_nil_iff.mp split.symm).2]
      exact here
  | cons b s ih =>
    cases here : hit (b :: s) with
    | true => exact .inr ⟨[], b :: s, rfl, here, by simp [search, here], by simp⟩
    | false =>
      rcases ih (i + 1) with ⟨none, missed⟩ | ⟨before, rest, split, found, position, missed⟩
      · refine .inl ⟨by simpa [search, here] using none, fun before rest split => ?_⟩
        cases before with
        | nil =>
          rw [List.nil_append] at split
          rw [← split]
          exact here
        | cons c before => exact missed before rest (List.cons.inj split).2
      · refine .inr ⟨b :: before, rest, by rw [split]; rfl, found, ?_, ?_⟩
        · simp only [search, here, Bool.false_eq_true, if_false, position, List.length_cons]
          omega
        · intro front back cut nonempty
          cases front with
          | nil =>
            rw [List.nil_append] at cut
            rw [← cut, List.cons_append, ← split]
            exact here
          | cons c front => exact missed front back (List.cons.inj cut).2 nonempty

theorem search_append {hit : Text → Bool} {before rest : Text}
    (missed : ∀ front back, before = front ++ back → back ≠ [] → hit (back ++ rest) = false)
    (here : hit rest = true) (i : Nat) : search hit (before ++ rest) i = i + before.length := by
  induction before generalizing i with
  | nil => cases rest <;> simp [search, here]
  | cons b before ih =>
    have first : hit (b :: (before ++ rest)) = false := missed [] (b :: before) rfl (by simp)
    have later := ih (fun front back cut => missed (b :: front) back (by rw [cut]; rfl)) (i + 1)
    simp only [List.cons_append, search, first, Bool.false_eq_true, if_false, later, List.length_cons]
    omega

theorem digits_contains (b : UInt8) : digits.contains b = isDigit b := by
  have listed : digits = [48, 49, 50, 51, 52, 53, 54, 55, 56, 57] := by decide
  rw [listed, Bool.eq_iff_iff]
  simp only [List.contains_iff_mem, List.mem_cons, List.not_mem_nil, or_false, isDigit, Bool.and_eq_true,
    decide_eq_true_eq, UInt8.le_iff_toNat_le, ← UInt8.toNat_inj]
  simp only [UInt8.reduceToNat]
  omega

theorem find_append {s before middle rest needle : Text} (split : s = before ++ (middle ++ rest))
    (missed : ∀ front back, middle = front ++ back → back ≠ [] → ¬ needle <+: back ++ rest)
    (here : needle <+: rest) : find s needle before.length = (before ++ middle).length := by
  have inside : before.length ≤ (before ++ (middle ++ rest)).length := by simp
  rw [split, find, if_pos inside, List.drop_left, List.length_append]
  apply search_append
  · intro front back cut nonempty
    rw [← Bool.not_eq_true, List.isPrefixOf_iff_prefix]
    exact missed front back cut nonempty
  · exact List.isPrefixOf_iff_prefix.mpr here

theorem missed_byte {b : UInt8} {middle : Text} (absent : b ∉ middle) (rest front back : Text)
    (cut : middle = front ++ back) (nonempty : back ≠ []) : ¬ [b] <+: back ++ rest := by
  intro hit
  cases back with
  | nil => exact nonempty rfl
  | cons c back =>
    have same : b = c := (List.cons_prefix_cons.mp hit).1
    rw [same, cut] at absent
    simp at absent

/-- The needle cannot start before its first occurrence as a whole. -/
theorem missed_text {needle middle : Text} (absent : ¬ needle <:+: middle ++ needle.dropLast)
    (rest front back : Text) (cut : middle = front ++ back) (nonempty : back ≠ []) :
    ¬ needle <+: back ++ (needle ++ rest) := by
  intro hit
  have positive := List.length_pos_of_ne_nil nonempty
  have shorter : back ++ needle.dropLast <+: back ++ (needle ++ rest) :=
    (List.prefix_append_right_inj back).mpr ((List.dropLast_prefix needle).trans (List.prefix_append _ _))
  have within : needle <+: back ++ needle.dropLast := by
    apply List.prefix_of_prefix_length_le hit shorter
    rw [List.length_append, List.length_dropLast]
    omega
  apply absent
  rw [cut, List.append_assoc]
  exact within.isInfix.trans (List.suffix_append front _).isInfix

/-- A needle without the byte `b` lies on one side of it. -/
theorem infix_of_byte {needle front back : Text} {b : UInt8} (absent : b ∉ needle)
    (found : needle <:+: front ++ b :: back) : needle <:+: front ∨ needle <:+: back := by
  have outside : ∀ part, (∀ c ∈ part, c ∈ needle) → part <+: b :: back → part = [] := by
    intro part inside starts
    rcases List.prefix_cons_iff.mp starts with none | ⟨tail, same, _⟩
    · exact none
    · exact absurd (inside b (same ▸ List.mem_cons_self)) absent
  rcases List.infix_append_iff.mp found with before | after | ⟨first, second, split, ends, starts⟩
  · exact .inl before
  · rcases List.infix_cons_iff.mp after with here | later
    · rw [outside needle (fun _ member => member) here]
      exact .inl List.nil_infix
    · exact .inr later
  · rw [outside second (fun c member => split ▸ List.mem_append_right first member) starts,
      List.append_nil] at split
    exact .inl (split ▸ ends.isInfix)

/-- A needle none of whose bytes is in the gap lies on one side of it. -/
theorem infix_of_gap {needle front gap back : Text} (nonempty : gap ≠ []) (absent : ∀ b ∈ gap, b ∉ needle)
    (found : needle <:+: front ++ (gap ++ back)) : needle <:+: front ∨ needle <:+: back := by
  induction gap generalizing front with
  | nil => exact absurd rfl nonempty
  | cons b gap ih =>
    rcases infix_of_byte (absent b List.mem_cons_self) found with before | after
    · exact .inl before
    · cases gap with
      | nil => exact .inr after
      | cons c gap =>
        rcases @ih [] (List.cons_ne_nil c gap) (fun d member => absent d (List.mem_cons_of_mem b member)) after with
          none | rest
        · exact .inl (none.trans (List.nil_infix))
        · exact .inr rest

theorem find_byte {s before middle rest : Text} {b : UInt8} (split : s = before ++ (middle ++ b :: rest))
    (absent : b ∉ middle) : find s [b] before.length = (before ++ middle).length :=
  find_append split (missed_byte absent (b :: rest)) (List.prefix_append [b] rest)

theorem find_text {s before rest needle : Text} (split : s = before ++ (needle ++ rest))
    (absent : ¬ needle <:+: before ++ needle.dropLast) : find s needle 0 = before.length :=
  @find_append s [] before (needle ++ rest) needle split (missed_text absent rest) (List.prefix_append needle rest)

theorem substr_append {before after : Text} (short : after.length ≤ npos) :
    substr (before ++ after) before.length npos = .ok after := by
  have inside : ¬ before.length > (before ++ after).length := by simp
  rw [substr, if_neg inside, List.drop_left, List.take_of_length_le short]

theorem find_bound (s : Text) {needle : Text} (pos : Nat) :
    find s needle pos = npos ∨ find s needle pos + needle.length ≤ s.length := by
  by_cases inside : pos ≤ s.length
  · rw [find, if_pos inside]
    rcases search_split needle.isPrefixOf (s.drop pos) pos with
      ⟨none, _⟩ | ⟨before, rest, split, here, position, _⟩
    · exact .inl none
    · right
      have short : needle.length ≤ rest.length := (List.isPrefixOf_iff_prefix.mp here).length_le
      have total : s.length - pos = before.length + rest.length := by
        rw [← List.length_drop, split, List.length_append]
      rw [position]
      omega
  · rw [find, if_neg inside]
    exact .inl rfl

theorem exists_first {s needle : Text} (nonempty : needle ≠ []) (occurs : needle <:+: s) :
    ∃ before rest, s = before ++ (needle ++ rest) ∧ ¬ needle <:+: before ++ needle.dropLast := by
  obtain ⟨front, back, split⟩ := occurs
  induction s generalizing front with
  | nil =>
    rw [List.append_eq_nil_iff, List.append_eq_nil_iff] at split
    exact absurd split.1.2 nonempty
  | cons b s ih =>
    have positive := List.length_pos_of_ne_nil nonempty
    by_cases here : needle <+: b :: s
    · obtain ⟨rest, split⟩ := here
      refine ⟨[], rest, split.symm, fun inside => ?_⟩
      have shorter := inside.length_le
      rw [List.nil_append, List.length_dropLast] at shorter
      omega
    · cases front with
      | nil => exact absurd ⟨back, split⟩ here
      | cons c front =>
        obtain ⟨before, rest, cut, first⟩ := ih front (List.cons.inj split).2
        refine ⟨b :: before, rest, by rw [cut]; rfl, fun inside => ?_⟩
        rcases List.infix_cons_iff.mp inside with start | later
        · apply here
          rw [cut, ← List.cons_append]
          exact start.trans ((List.prefix_append_right_inj (b :: before)).mpr
            ((List.dropLast_prefix needle).trans (List.prefix_append needle rest)))
        · exact first later

/-- A search from the start fails exactly where the needle does not occur. -/
theorem find_eq_npos_iff {s needle : Text} (fits : s.length ≤ maxSize) :
    find s needle 0 = npos ↔ ¬ needle <:+: s := by
  have bound : maxSize < npos := by decide
  rw [find, if_pos (Nat.zero_le _), List.drop_zero]
  rcases search_split needle.isPrefixOf s 0 with ⟨none, missed⟩ | ⟨before, rest, split, here, position, _⟩
  · refine ⟨fun _ inside => ?_, fun _ => none⟩
    obtain ⟨front, back, split⟩ := inside
    have hit : needle.isPrefixOf (needle ++ back) = true :=
      List.isPrefixOf_iff_prefix.mpr (List.prefix_append needle back)
    rw [missed front (needle ++ back) (by rw [← split, List.append_assoc])] at hit
    cases hit
  · have occurs : needle <:+: s := by
      rw [split]
      exact (List.isPrefixOf_iff_prefix.mp here).isInfix.trans (List.suffix_append before rest).isInfix
    have shorter : before.length ≤ s.length := by
      rw [split, List.length_append]
      omega
    exact ⟨fun same => by omega, fun absent => absurd occurs absent⟩

theorem search_headIs (p : UInt8 → Bool) (s : Text) (i : Nat) :
    search (headIs p) s i =
      if s.dropWhile (fun b => !p b) = [] then npos else i + (s.takeWhile fun b => !p b).length := by
  induction s generalizing i with
  | nil => simp [search, headIs]
  | cons b s ih =>
    cases hit : p b with
    | true => simp [search, headIs, hit]
    | false =>
      simp only [search, headIs, hit, Bool.false_eq_true, if_false, ih, Bool.not_false, List.dropWhile_cons,
        List.takeWhile_cons, if_true, List.length_cons]
      by_cases rest : s.dropWhile (fun b => !p b) = []
      · rw [if_pos rest, if_pos rest]
      · rw [if_neg rest, if_neg rest]
        omega

def digitRun (s : Text) : Text := (s.dropWhile fun b => !isDigit b).takeWhile isDigit

theorem digitRun_digits (s : Text) : ∀ b ∈ digitRun s, isDigit b = true :=
  List.all_eq_true.mp List.all_takeWhile

theorem digitRun_skip {front : Text} (none : front.any isDigit = false) (s : Text) :
    digitRun (front ++ s) = digitRun s := by
  have passed : ∀ b ∈ front, (!isDigit b) = true := by
    intro b member
    simpa using List.any_eq_false.mp none b member
  rw [digitRun, digitRun, List.dropWhile_append_of_pos passed]

theorem digitRun_of_digits {run s : Text} (nonempty : run ≠ []) (digits : ∀ b ∈ run, isDigit b = true)
    (ends : ∀ b ∈ s.head?, isDigit b = false) : digitRun (run ++ s) = run := by
  have stops : s.takeWhile isDigit = [] := by
    cases s with
    | nil => rfl
    | cons b s => rw [List.takeWhile_cons, ends b rfl, if_neg Bool.false_ne_true]
  cases run with
  | nil => exact absurd rfl nonempty
  | cons b run =>
    have first := digits b List.mem_cons_self
    rw [digitRun, List.cons_append, List.dropWhile_cons, first, if_neg (by simp), ← List.cons_append,
      List.takeWhile_append_of_pos digits, stops, List.append_nil]

/-- A run that ends inside the text is the same whatever follows. -/
theorem digitRun_append {front : Text} {b : UInt8} (ends : isDigit b = false)
    (run : digitRun (front ++ [b]) ≠ []) (s : Text) :
    digitRun (front ++ [b] ++ s) = digitRun (front ++ [b]) := by
  unfold digitRun at run ⊢
  generalize restDef : (front ++ [b]).dropWhile (fun b => !isDigit b) = rest at run
  have nonempty : rest ≠ [] := by
    intro empty
    rw [empty] at run
    exact run rfl
  have last : b ∈ rest := by
    have suffix : rest <:+ front ++ [b] := restDef ▸ List.dropWhile_suffix _
    rcases List.suffix_concat_iff.mp suffix with empty | ⟨inner, split, _⟩
    · exact absurd empty nonempty
    · rw [split]
      exact List.mem_append_right inner List.mem_cons_self
  have stops : ¬ (rest.takeWhile isDigit).length = rest.length := by
    intro all
    have whole : rest.takeWhile isDigit = rest := (List.takeWhile_prefix _).eq_of_length all
    have digit := List.takeWhile_eq_self_iff.mp whole b last
    rw [ends] at digit
    cases digit
  rw [List.dropWhile_append, restDef, if_neg (by simpa using nonempty), List.takeWhile_append, if_neg stops]

theorem sizeAdd_of_lt {a b : Nat} (small : a + b < 2^64) : sizeAdd a b = a + b := Nat.mod_eq_of_lt small

theorem sizeSub_of_le {a b : Nat} (small : a < 2^64) (le : b ≤ a) : sizeSub a b = a - b := by
  rw [sizeSub]
  omega

/-- Up to the position where a test fails first, the text passes it. -/
theorem take_until (p : UInt8 → Bool) {rest : Text} {i : Nat} (room : i + rest.length < 2^63) :
    rest.take (sizeSub (search (headIs fun b => !p b) rest i) i) = rest.takeWhile p := by
  have stops : search (headIs fun b => !p b) rest i =
      if rest.dropWhile p = [] then npos else i + (rest.takeWhile p).length := by
    simpa only [Bool.not_not] using search_headIs (fun b => !p b) rest i
  have split : rest.takeWhile p ++ rest.dropWhile p = rest := List.takeWhile_append_dropWhile
  have shorter := congrArg List.length split
  rw [List.length_append] at shorter
  rw [stops]
  by_cases toEnd : rest.dropWhile p = []
  · rw [toEnd, List.append_nil] at split
    rw [if_pos toEnd, sizeSub_of_le (by decide) (by rw [npos]; omega), split]
    apply List.take_of_length_le
    rw [npos]
    omega
  · rw [if_neg toEnd, sizeSub_of_le (by omega) (by omega), Nat.add_sub_cancel_left]
    exact (congrArg (List.take _) split.symm).trans List.take_left

theorem substr_digits {s : Text} (fits : s.length ≤ maxSize) (pos : Nat) :
    substr s (findFirstOf s digits pos)
        (sizeSub (findFirstNotOf s digits (findFirstOf s digits pos)) (findFirstOf s digits pos)) =
      if digitRun (s.drop pos) = [] then .error .outOfRange else .ok (digitRun (s.drop pos)) := by
  have bound : s.length < 2^63 := Nat.lt_of_le_of_lt fits (by decide)
  have starts : findFirstOf s digits pos = search (headIs isDigit) (s.drop pos) pos := by
    simp only [findFirstOf, digits_contains]
  have ends : ∀ i, findFirstNotOf s digits i = search (headIs fun b => !isDigit b) (s.drop i) i := by
    simp only [findFirstNotOf, digits_contains, implies_true]
  rw [ends, starts, search_headIs isDigit]
  by_cases none : (s.drop pos).dropWhile (fun b => !isDigit b) = []
  · have beyond : npos > s.length := by
      rw [npos]
      omega
    rw [if_pos none, substr, if_pos beyond, digitRun, none]
    rfl
  · rw [if_neg none]
    set gap := (s.drop pos).takeWhile fun b => !isDigit b with gapDef
    set rest := (s.drop pos).dropWhile fun b => !isDigit b with restDef
    have parts : s.drop pos = gap ++ rest := List.takeWhile_append_dropWhile.symm
    have cut : s.drop (pos + gap.length) = rest := by
      rw [← List.drop_drop, parts, List.drop_left]
    have size : pos + gap.length + rest.length = s.length := by
      have total := congrArg List.length cut
      have positive := List.length_pos_of_ne_nil none
      rw [List.length_drop] at total
      omega
    have begun : isDigit (rest.head none) = true := by
      simpa using List.head_dropWhile_not (fun b => !isDigit b) none
    have run : rest.takeWhile isDigit ≠ [] := by
      rw [← List.cons_head_tail none, List.takeWhile_cons, if_pos begun]
      simp
    have within : ¬ pos + gap.length > s.length := by omega
    rw [substr, if_neg within, cut, digitRun, if_neg run, take_until isDigit (by omega)]

theorem stoi_digits {run : Text} (nonempty : run ≠ []) (all : ∀ b ∈ run, isDigit b = true) :
    stoi run = if decimal run < 2^31 then .ok (decimal run : Int) else .error .outOfRange := by
  cases run with
  | nil => exact absurd rfl nonempty
  | cons b tail =>
    have digit := all b List.mem_cons_self
    have bounds : 48 ≤ b.toNat ∧ b.toNat ≤ 57 := by
      simpa [isDigit, UInt8.le_iff_toNat_le] using digit
    have noSpace : isSpace b = false := by
      simp only [isSpace, Bool.or_eq_false_iff, Bool.and_eq_false_iff, decide_eq_false_iff_not,
        UInt8.le_iff_toNat_le, ← UInt8.toNat_inj, UInt8.reduceToNat]
      omega
    have noMinus : b ≠ 45 := by
      intro minus
      rw [minus] at bounds
      exact absurd bounds (by decide)
    have noPlus : b ≠ 43 := by
      intro plus
      rw [plus] at bounds
      exact absurd bounds (by decide)
    have whole : (b :: tail).takeWhile isDigit = b :: tail := List.takeWhile_eq_self_iff.mpr all
    have unsigned : (match b :: tail with
        | 45 :: s => (true, s)
        | 43 :: s => (false, s)
        | s => (false, s)) = (false, b :: tail) := by
      split
      · rename_i s shape
        exact absurd (List.cons.inj shape).1 noMinus
      · rename_i s shape
        exact absurd (List.cons.inj shape).1 noPlus
      · rfl
    simp only [stoi, List.dropWhile_cons, noSpace, Bool.false_eq_true, if_false, unsigned, whole,
      nonempty]
    have positive : -2^31 ≤ (decimal (b :: tail) : Int) := by omega
    by_cases small : decimal (b :: tail) < 2^31
    · rw [if_pos small, if_pos ⟨positive, by omega⟩]
    · rw [if_neg small, if_neg (by omega)]

end Text

end Cxx

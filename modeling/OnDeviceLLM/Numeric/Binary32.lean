import Mathlib
import OnDeviceLLM.Numeric.Nearest

namespace Numeric.Binary32

open Float.Model Float.Model.UnpackedFloat

/-- What the accuracy says about the part of a unit that the mantissa leaves out. -/
inductive Residue : ℚ → Accuracy → Prop where
  | exact : Residue 0 .exact
  | below {δ : ℚ} (positive : 0 < δ) (less : δ < 1 / 2) : Residue δ (.inexact .lt)
  | half : Residue (1 / 2) (.inexact .eq)
  | above {δ : ℚ} (more : 1 / 2 < δ) (less : δ < 1) : Residue δ (.inexact .gt)

namespace Residue

variable {δ : ℚ} {accuracy : Accuracy}

theorem bounds (residue : Residue δ accuracy) : 0 ≤ δ ∧ δ < 1 := by
  cases residue with
  | exact => norm_num
  | below positive less => constructor <;> linarith
  | half => norm_num
  | above more less => constructor <;> linarith

theorem rounded (residue : Residue δ accuracy) (m : ℕ) :
    |(m + δ) - (accuracy.roundToNearestEven m : ℚ)| ≤ 1 / 2 ∧
      accuracy.roundToNearestEven m ≤ m + 1 := by
  rw [abs_le]
  cases residue with
  | exact => simp [Accuracy.roundToNearestEven]
  | below positive less =>
    simp only [Accuracy.roundToNearestEven]
    exact ⟨⟨by linarith, by linarith⟩, by omega⟩
  | half =>
    have bit : m % 2 = 0 ∨ m % 2 = 1 := by omega
    rcases bit with even | odd
    · simp only [Accuracy.roundToNearestEven, even]
      push_cast
      exact ⟨⟨by linarith, by linarith⟩, by omega⟩
    · simp only [Accuracy.roundToNearestEven, odd]
      push_cast
      exact ⟨⟨by linarith, by linarith⟩, by omega⟩
  | above more less =>
    simp only [Accuracy.roundToNearestEven]
    push_cast
    exact ⟨⟨by linarith, by linarith⟩, by omega⟩

/-- Halving moves the last bit of the mantissa into the residue. -/
theorem shiftRightOne {em : ExtendedMantissa} (residue : Residue δ em.accuracy) :
    Residue (((em.mantissa % 2 : ℕ) + δ) / 2) em.shiftRightOne.accuracy := by
  rcases em with ⟨m, r, s⟩
  have bit : m % 2 = 0 ∨ m % 2 = 1 := by omega
  simp only [ExtendedMantissa.shiftRightOne]
  rcases bit with even | odd
  · rw [even]
    cases r <;> cases s <;> simp only [ExtendedMantissa.accuracy] at residue ⊢ <;> cases residue <;> norm_num
    · exact .exact
    · exact .below (by linarith) (by linarith)
    · exact .below (by norm_num) (by norm_num)
    · exact .below (by linarith) (by linarith)
  · rw [odd]
    cases r <;> cases s <;> simp only [ExtendedMantissa.accuracy] at residue ⊢ <;> cases residue <;> norm_num
    · exact .half
    · exact .above (by linarith) (by linarith)
    · exact .above (by norm_num) (by norm_num)
    · exact .above (by linarith) (by linarith)

end Residue

def Tracks (em : ExtendedMantissa) (x : ℚ) : Prop := Residue (x - em.mantissa) em.accuracy

namespace Tracks

variable {em : ExtendedMantissa} {x : ℚ}

theorem shiftRightOne (tracks : Tracks em x) : Tracks em.shiftRightOne (x / 2) := by
  have shifted := Residue.shiftRightOne tracks
  have halves : (em.mantissa : ℚ) = 2 * (em.mantissa / 2 : ℕ) + (em.mantissa % 2 : ℕ) := by
    exact_mod_cast (Nat.div_add_mod em.mantissa 2).symm
  have same : x / 2 - (em.shiftRightOne.mantissa : ℕ) = ((em.mantissa % 2 : ℕ) + (x - em.mantissa)) / 2 := by
    show x / 2 - ((em.mantissa / 2 : ℕ) : ℚ) = _
    linarith
  rw [Tracks, same]
  exact shifted

theorem shiftRight (tracks : Tracks em x) (n : ℕ) : Tracks (em >>> n) (x / 2^n) := by
  induction n with
  | zero =>
    rw [pow_zero, div_one]
    exact tracks
  | succ n ih =>
    rw [pow_succ, ← div_div]
    exact ih.shiftRightOne

theorem nearest (tracks : Tracks em x) :
    |x - em.roundedMantissa| ≤ 1 / 2 ∧ (em.mantissa : ℚ) ≤ x ∧ x < em.mantissa + 1 := by
  have rounded := (Residue.rounded tracks em.mantissa).1
  have bounds := Residue.bounds tracks
  rw [add_sub_cancel] at rounded
  exact ⟨rounded, by linarith, by linarith⟩

theorem exact (m : ℕ) : Tracks (.ofMantissaAndAccuracy m .exact) m := by
  rw [Tracks, ExtendedMantissa.ofMantissaAndAccuracy, sub_self]
  exact .exact

theorem fraction (m : ℕ) {num den : ℕ} (proper : num < den) :
    Tracks (.ofMantissaAndAccuracy m (accuracyOfFraction num den)) (m + num / den) := by
  have positive : (0 : ℚ) < den := by exact_mod_cast (Nat.zero_le num).trans_lt proper
  have less : (num : ℚ) / den < 1 := by
    rw [div_lt_one positive]
    exact_mod_cast proper
  unfold accuracyOfFraction
  by_cases zero : num = 0
  · rw [if_pos zero, zero, Nat.cast_zero, zero_div, add_zero]
    exact .exact m
  · have some : (0 : ℚ) < num / den := div_pos (by exact_mod_cast Nat.pos_of_ne_zero zero) positive
    rw [if_neg zero, Tracks]
    cases order : compare (2 * num) den with
    | lt =>
      have low : 2 * num < den := Nat.compare_eq_lt.mp order
      have low' : (2 * num : ℚ) < den := by exact_mod_cast low
      have half : (num : ℚ) / den < 1 / 2 := by
        rw [div_lt_div_iff₀ positive two_pos]
        linarith
      simp only [ExtendedMantissa.ofMantissaAndAccuracy, add_sub_cancel_left]
      exact .below some half
    | eq =>
      have same : 2 * num = den := Nat.compare_eq_eq.mp order
      have same' : (2 * num : ℚ) = den := by exact_mod_cast same
      have half : (num : ℚ) / den = 1 / 2 := by
        rw [div_eq_div_iff positive.ne' two_ne_zero]
        linarith
      simp only [ExtendedMantissa.ofMantissaAndAccuracy, add_sub_cancel_left, half]
      exact .half
    | gt =>
      have high : den < 2 * num := Nat.compare_eq_gt.mp order
      have high' : (den : ℚ) < 2 * num := by exact_mod_cast high
      have half : 1 / 2 < (num : ℚ) / den := by
        rw [div_lt_div_iff₀ two_pos positive]
        linarith
      simp only [ExtendedMantissa.ofMantissaAndAccuracy, add_sub_cancel_left]
      exact .above half less

end Tracks

/-- The number that a zero or normal positive float stands for. -/
inductive Denotes : UnpackedFloat → ℚ → Prop where
  | zero : Denotes (.zero .positive) 0
  | normal {m : ℕ} {e : ℤ} (positive : 0 < m) (low : 2^23 ≤ m) (high : m < 2^24) :
      Denotes (.finite .positive m e positive) (m * 2^e)

namespace Denotes

variable {f g : UnpackedFloat} {q r : ℚ}

theorem mem (denotes : Denotes f q) : q ∈ Binary ℚ 24 := by
  cases denotes with
  | zero => exact Binary.zero
  | normal positive low high => exact Binary.ofNat high _

theorem unique (first : Denotes f q) (second : Denotes f r) : q = r := by
  cases first <;> cases second <;> rfl

theorem normal_lt {m n : ℕ} {e f : ℤ} (low : 2^23 ≤ n) (high : m < 2^24) (less : e < f) :
    (m * 2^e : ℚ) < n * 2^f := by
  have unit : (0 : ℚ) < 2^e := zpow_pos two_pos e
  have step : (2 : ℚ)^e * 2 ≤ 2^f := by
    rw [← zpow_add_one₀ two_ne_zero]
    exact zpow_le_zpow_right₀ one_le_two (by omega)
  have below : (m : ℚ) < 2^24 := by exact_mod_cast high
  have above : (2 : ℚ)^23 ≤ n := by exact_mod_cast low
  calc (m * 2^e : ℚ) < 2^24 * 2^e := by nlinarith
    _ = 2^23 * (2^e * 2) := by ring
    _ ≤ n * 2^f := by nlinarith

theorem lt_iff (left : Denotes f q) (right : Denotes g r) : f.lt g = true ↔ q < r := by
  cases left with
  | zero =>
    cases right with
    | zero => simp [UnpackedFloat.lt, UnpackedFloat.compare]
    | @normal m e positive low high =>
      have above : (0 : ℚ) < m * 2^e := mul_pos (by exact_mod_cast positive) (zpow_pos two_pos e)
      simp [UnpackedFloat.lt, UnpackedFloat.compare, above]
  | @normal m e positive low high =>
    have above : (0 : ℚ) < m * 2^e := mul_pos (by exact_mod_cast positive) (zpow_pos two_pos e)
    cases right with
    | zero => simp [UnpackedFloat.lt, UnpackedFloat.compare, above.le]
    | @normal n f positive' low' high' =>
      have order : UnpackedFloat.lt (.finite .positive m e positive) (.finite .positive n f positive') = true ↔
          e < f ∨ (e = f ∧ m < n) := by
        simp only [UnpackedFloat.lt, UnpackedFloat.compare, beq_iff_eq, Option.some.injEq, Ordering.then_eq_lt,
          Int.compare_eq_lt, Int.compare_eq_eq, Nat.compare_eq_lt]
      rw [order]
      rcases lt_trichotomy e f with less | rfl | more
      · have step := normal_lt low' high less
        exact ⟨fun _ => step, fun _ => .inl less⟩
      · have unit : (0 : ℚ) < 2^e := zpow_pos two_pos e
        rw [mul_lt_mul_iff_left₀ unit, Nat.cast_lt]
        exact ⟨fun lt => lt.resolve_left (lt_irrefl e) |>.2, fun lt => .inr ⟨rfl, lt⟩⟩
      · have step := normal_lt low high' more
        exact ⟨fun lt => absurd lt (by omega), fun lt => absurd lt step.le.not_gt⟩

end Denotes

theorem unpack_pack_normal {m : ℕ} {e : ℤ} (positive : 0 < m) (low : 2^23 ≤ m) (high : m < 2^24)
    (small : -149 ≤ e) (large : e ≤ 104) :
    unpack .binary32 (pack .binary32 (.finite .positive m e positive)) = .finite .positive m e positive := by
  have bits : m.log2 = 23 := (Nat.log2_eq_iff positive.ne').mpr ⟨low, high⟩
  obtain ⟨biased, biasedEq⟩ : ∃ biased : ℕ, e + 127 + 23 = biased := ⟨(e + 127 + 23).toNat, by omega⟩
  have inside : ¬ 256 ≤ biased + 1 := by omega
  have packed : pack .binary32 (.finite .positive m e positive) =
      packComponents .binary32 .positive (BitVec.ofNat 8 biased) (BitVec.ofNat 23 m) := by
    unfold UnpackedFloat.pack
    simp only [bits, Format.mantissaBits, Format.exponentBias]
    norm_num
    rw [biasedEq, Int.toNat_natCast, if_neg inside]
  have field : (BitVec.ofNat 8 biased).toNat = biased := by
    rw [BitVec.toNat_ofNat, Nat.mod_eq_of_lt (by omega)]
  have notSpecial : BitVec.ofNat 8 biased ≠ -1#8 := by
    intro same
    have value := congrArg BitVec.toNat same
    rw [field] at value
    have ones : (-1#8).toNat = 255 := by decide
    omega
  have notSubnormal : BitVec.ofNat 8 biased ≠ 0#8 := by
    intro same
    have value := congrArg BitVec.toNat same
    rw [field] at value
    have zero : (0#8).toNat = 0 := by decide
    omega
  have mantissa : (1#1 ++ BitVec.ofNat 23 m).toNat = m := by
    rw [BitVec.toNat_append, ← Nat.shiftLeft_add_eq_or_of_lt (BitVec.isLt _), BitVec.toNat_ofNat,
      BitVec.toNat_ofNat, Nat.shiftLeft_eq]
    omega
  have exponent : (biased : ℤ) - (127 + 23) = e := by omega
  rw [packed]
  unfold UnpackedFloat.unpack
  simp only [unpackMantissa_packComponents, unpackExponent_packComponents, unpackSign_packComponents]
  rw [if_neg notSpecial, if_neg notSubnormal]
  congr 1
  rw [field]
  exact exponent

/-- In the normal range packing loses nothing. -/
theorem Denotes.packed {f : UnpackedFloat} {q : ℚ} (denotes : Denotes f q)
    (range : q = 0 ∨ (2^(-126 : ℤ) ≤ q ∧ q < 2^(128 : ℤ))) :
    Denotes (unpack .binary32 (pack .binary32 f)) q := by
  cases denotes with
  | zero =>
    have same : unpack .binary32 (pack .binary32 (.zero .positive)) = .zero .positive := by rfl
    rw [same]
    exact .zero
  | @normal m e positive low high =>
    have unit : (0 : ℚ) < 2^e := zpow_pos two_pos e
    have below : (m : ℚ) < 2^24 := by exact_mod_cast high
    have above : (2 : ℚ)^23 ≤ m := by exact_mod_cast low
    have nonzero : (m * 2^e : ℚ) ≠ 0 := (mul_pos (by linarith) unit).ne'
    obtain ⟨small, large⟩ := range.resolve_left nonzero
    have lowExponent : -149 ≤ e := by
      by_contra less
      have step : (2 : ℚ)^e ≤ 2^(-150 : ℤ) := zpow_le_zpow_right₀ one_le_two (by omega)
      norm_num at step small
      nlinarith
    have highExponent : e ≤ 104 := by
      by_contra more
      have step : (2 : ℚ)^(105 : ℤ) ≤ 2^e := zpow_le_zpow_right₀ one_le_two (by omega)
      norm_num at step large
      nlinarith
    rw [unpack_pack_normal positive low high lowExponent highExponent]
    exact .normal positive low high

section Rounding

variable {m k : ℕ} {e : ℤ} {accuracy : Accuracy} {x : ℚ}

theorem shift_eq (bits : m.log2 = 23 + k) (small : -149 ≤ e) (accuracy : Accuracy) :
    shiftToTargetExponent .binary32 m e accuracy =
      (ExtendedMantissa.ofMantissaAndAccuracy m accuracy >>> k, e + k) := by
  have target : Format.binary32.targetExponent (totalExponent m e) = e + k := by
    simp only [Format.targetExponent, totalExponent, Format.mantissaBits, Format.minExponent, bits]
    norm_num
    omega
  have amount : (e + k - e).toNat = k := by omega
  simp only [shiftToTargetExponent, shiftToExponent, target, amount]

theorem denotes_mantissa (low : 2^23 ≤ m) (high : m ≤ 2^24) (small : -149 ≤ e) :
    ∃ positive, Denotes (.finite .positive (shiftToTargetExponent .binary32 m e .exact).1.mantissa
      (shiftToTargetExponent .binary32 m e .exact).2 positive) (m * 2^e) := by
  by_cases top : m = 2^24
  · have bits : m.log2 = 23 + 1 := by
      rw [top]
      exact Nat.log2_two_pow
    rw [shift_eq bits small, top]
    have value : ((2^24 : ℕ) * 2^e : ℚ) = (2^23 : ℕ) * 2^(e + (1 : ℕ)) := by
      rw [Nat.cast_one, zpow_add_one₀ two_ne_zero]
      push_cast
      ring
    rw [value]
    show ∃ positive, Denotes (.finite .positive (2^23) (e + (1 : ℕ)) positive) _
    exact ⟨by decide, .normal (by decide) (by decide) (by decide)⟩
  · have less : m < 2^24 := lt_of_le_of_ne high top
    have bits : m.log2 = 23 + 0 := (Nat.log2_eq_iff (by omega)).mpr ⟨low, less⟩
    rw [shift_eq bits small]
    have same : e + (0 : ℕ) = e := by omega
    rw [same]
    exact ⟨by show 0 < m; omega, .normal _ low less⟩

/-- Rounding a mantissa of at least 24 bits gives the nearest float. -/
theorem round_nearest (tracks : Tracks (.ofMantissaAndAccuracy m accuracy) x) (bits : 2^23 ≤ m)
    (small : -149 ≤ e) : ∃ r, Denotes (roundWithAccuracy .binary32 .positive m e accuracy) r ∧
      Nearest (Binary ℚ 24) (x * 2^e) r := by
  have nonzero : m ≠ 0 := by omega
  have enough : 23 ≤ m.log2 := (Nat.le_log2 nonzero).mpr bits
  obtain ⟨k, log⟩ : ∃ k, m.log2 = 23 + k := ⟨m.log2 - 23, by omega⟩
  obtain ⟨low, high⟩ := (Nat.log2_eq_iff nonzero).mp log
  have whole : (ExtendedMantissa.ofMantissaAndAccuracy m accuracy).mantissa = m := by
    rcases accuracy with _ | order
    · rfl
    · cases order <;> rfl
  have shifted := tracks.shiftRight k
  have scale : (0 : ℚ) < 2^k := pow_pos two_pos k
  have between : 2^23 ≤ x / 2^k ∧ x / 2^k < 2^24 := by
    obtain ⟨_, floor, ceil⟩ := tracks.nearest
    rw [whole] at floor ceil
    have low' : (2^(23 + k) : ℚ) ≤ m := by exact_mod_cast low
    have high' : (m + 1 : ℚ) ≤ 2^(23 + k + 1) := by exact_mod_cast high
    rw [le_div_iff₀ scale, div_lt_iff₀ scale, ← pow_add, ← pow_add]
    constructor
    · linarith
    · have same : 24 + k = 23 + k + 1 := by omega
      rw [same]
      linarith
  obtain ⟨near, floor, ceil⟩ := shifted.nearest
  generalize roundedDef : (ExtendedMantissa.ofMantissaAndAccuracy m accuracy >>> k).roundedMantissa = rounded at near
  rw [abs_le] at near
  have roundedLow : 2^23 ≤ rounded := by
    have above : (2^23 : ℚ) < rounded + 1 := by linarith
    have above' : 2^23 < rounded + 1 := by exact_mod_cast above
    omega
  have roundedHigh : rounded ≤ 2^24 := by
    have below : (rounded : ℚ) < 2^24 + 1 := by linarith
    have below' : rounded < 2^24 + 1 := by exact_mod_cast below
    omega
  obtain ⟨positive, denotes⟩ := @denotes_mantissa rounded (e + k) roundedLow roundedHigh (by omega)
  refine ⟨rounded * 2^(e + k), ?_, ?_⟩
  · rw [roundWithAccuracy, shift_eq log small]
    simp only [roundedDef]
    rw [dif_neg (by omega)]
    exact denotes
  · have unit : (0 : ℚ) < 2^e := zpow_pos two_pos e
    have split : x * 2^e = x / 2^k * 2^(e + k) := by
      rw [zpow_add₀ two_ne_zero, zpow_natCast]
      field_simp
    have power : (0 : ℚ) < 2^(e + k) := zpow_pos two_pos _
    rw [split]
    apply nearest_of_scaled
    · exact mul_le_mul_of_nonneg_right between.1 power.le
    · exact roundedHigh
    · have half : (2 : ℚ)^(e + k) / 2 = 1 / 2 * 2^(e + k) := by ring
      have near' : |x / 2^k - rounded| ≤ 1 / 2 := abs_le.mpr near
      rw [← sub_mul, abs_mul, abs_of_pos power, half]
      exact mul_le_mul_of_nonneg_right near' power.le

end Rounding

section Operations

variable {f g : UnpackedFloat} {q r : ℚ}

/-- The conversion of a whole number rounds it to the nearest float. -/
theorem ofNat_nearest {n : ℕ} (nonzero : n ≠ 0) :
    ∃ r, Denotes (UnpackedFloat.ofNat .binary32 n) r ∧ Nearest (Binary ℚ 24) n r := by
  have target : Format.binary32.targetExponent (totalExponent n 0) = max ((n.log2 : ℤ) - 23) (-149) := by
    simp only [Format.targetExponent, totalExponent, Format.mantissaBits, Format.minExponent]
    norm_num
    omega
  have sign : compare (n : ℤ) 0 = .gt := by
    rw [Int.compare_eq_gt]
    omega
  have unfolded : UnpackedFloat.ofNat .binary32 n = roundWithAccuracy .binary32 .positive
      (n <<< (23 - n.log2)) (-(23 - n.log2 : ℕ)) .exact := by
    have amount : (-max ((n.log2 : ℤ) - 23) (-149)).toNat = 23 - n.log2 := by omega
    simp only [UnpackedFloat.ofNat, UnpackedFloat.ofInt, UnpackedFloat.normalize, sign, Float.Model.UnpackedFloat.round,
      Int.toNat_natCast, decreaseExponent, target, zero_sub, amount]
  have bits : 2^23 ≤ n <<< (23 - n.log2) := by
    rw [Nat.shiftLeft_eq]
    have low := Nat.log2_self_le nonzero
    calc 2^23 ≤ 2^(n.log2 + (23 - n.log2)) := Nat.pow_le_pow_right (by decide) (by omega)
      _ = 2^n.log2 * 2^(23 - n.log2) := pow_add ..
      _ ≤ n * 2^(23 - n.log2) := Nat.mul_le_mul_right _ low
  have value : ((n <<< (23 - n.log2) : ℕ) : ℚ) * 2^(-(23 - n.log2 : ℕ) : ℤ) = n := by
    rw [Nat.shiftLeft_eq, zpow_neg, zpow_natCast]
    push_cast
    field_simp
  rw [unfolded]
  obtain ⟨r, denotes, nearest⟩ := round_nearest (.exact _) bits (by omega : -149 ≤ (-(23 - n.log2 : ℕ) : ℤ))
  rw [value] at nearest
  exact ⟨r, denotes, nearest⟩

/-- The quotient is computed to at least 24 bits before it is rounded. -/
theorem div_nearest (left : Denotes f q) (right : Denotes g r) (nonzero : q ≠ 0) (positive : 0 < r)
    (range : 2^(-124 : ℤ) ≤ q / r) : ∃ s, Denotes (div .binary32 f g) s ∧ Nearest (Binary ℚ 24) (q / r) s := by
  cases left with
  | zero => exact absurd rfl nonzero
  | @normal m₁ e₁ positive₁ low₁ high₁ =>
    cases right with
    | zero => exact absurd positive (lt_irrefl 0)
    | @normal m₂ e₂ positive₂ low₂ high₂ =>
      have bits₁ : m₁.log2 = 23 := (Nat.log2_eq_iff positive₁.ne').mpr ⟨low₁, high₁⟩
      have bits₂ : m₂.log2 = 23 := (Nat.log2_eq_iff positive₂.ne').mpr ⟨low₂, high₂⟩
      have divisor : (m₂ : ℚ) ≠ 0 := by exact_mod_cast positive₂.ne'
      have exponents : -124 ≤ e₁ - e₂ := by
        by_contra less
        have power : (0 : ℚ) < 2^(e₁ - e₂) := zpow_pos two_pos _
        have step : (2 : ℚ)^(e₁ - e₂) ≤ 2^(-125 : ℤ) := zpow_le_zpow_right₀ one_le_two (by omega)
        have mantissas : (m₁ : ℚ) / m₂ < 2 := by
          have above : (m₁ : ℚ) < 2^24 := by exact_mod_cast high₁
          have below : (2 : ℚ)^23 ≤ m₂ := by exact_mod_cast low₂
          rw [div_lt_iff₀ (by linarith)]
          linarith
        have split : (m₁ * 2^e₁ : ℚ) / (m₂ * 2^e₂) = m₁ / m₂ * 2^(e₁ - e₂) := by
          rw [zpow_sub₀ two_ne_zero, mul_div_mul_comm]
        rw [split] at range
        norm_num at range step
        nlinarith
      have target : min (e₁ - e₂) (Format.binary32.targetExponent (totalExponent m₁ e₁ - totalExponent m₂ e₂)) =
          e₁ - e₂ - 24 := by
        simp only [Format.targetExponent, totalExponent, Format.mantissaBits, Format.minExponent, bits₁, bits₂]
        norm_num
        omega
      have amount : (e₁ - e₂ - (e₁ - e₂ - 24)).toNat = 24 := by omega
      have unfolded : div .binary32 (.finite .positive m₁ e₁ positive₁) (.finite .positive m₂ e₂ positive₂) =
          roundWithAccuracy .binary32 .positive (m₁ <<< 24 / m₂) (e₁ - e₂ - 24)
            (accuracyOfFraction (m₁ <<< 24 % m₂) m₂) := by
        simp only [UnpackedFloat.div, divCore, target, amount]
        rfl
      have enough : 2^23 ≤ m₁ <<< 24 / m₂ := by
        rw [Nat.shiftLeft_eq, Nat.le_div_iff_mul_le positive₂]
        nlinarith
      have whole : ((m₁ <<< 24 / m₂ : ℕ) : ℚ) + (m₁ <<< 24 % m₂ : ℕ) / m₂ = m₁ * 2^24 / m₂ := by
        have division : ((m₂ * (m₁ <<< 24 / m₂) + m₁ <<< 24 % m₂ : ℕ) : ℚ) = m₁ * 2^24 := by
          rw [Nat.div_add_mod, Nat.shiftLeft_eq]
          push_cast
          rfl
        rw [Nat.cast_add, Nat.cast_mul] at division
        rw [← division]
        field_simp
      have value : (m₁ * 2^24 / m₂ * 2^(e₁ - e₂ - 24) : ℚ) = m₁ * 2^e₁ / (m₂ * 2^e₂) := by
        rw [zpow_sub₀ two_ne_zero, zpow_sub₀ two_ne_zero]
        norm_num
        field_simp
      rw [unfolded]
      have tracks := Tracks.fraction (m₁ <<< 24 / m₂) (Nat.mod_lt (m₁ <<< 24) positive₂)
      rw [whole] at tracks
      obtain ⟨s, denotes, nearest⟩ := round_nearest tracks enough (by omega : -149 ≤ e₁ - e₂ - 24)
      rw [value] at nearest
      exact ⟨s, denotes, nearest⟩

end Operations

section Whole

variable {r : ℚ}

theorem one_le {n : ℕ} (nonzero : n ≠ 0) (nearest : Nearest (Binary ℚ 24) n r) : 1 ≤ r := by
  apply nearest.le_of_mem_le ⟨1, 0, by norm_num, by norm_num⟩
  exact_mod_cast Nat.one_le_iff_ne_zero.mpr nonzero

theorem le_two_pow {n : UInt64} (nearest : Nearest (Binary ℚ 24) n.toNat r) : r ≤ 2^64 := by
  apply nearest.le_of_le_mem ⟨1, 64, by norm_num, by norm_num⟩
  exact_mod_cast n.toNat_lt.le

end Whole

def Value (f : Float32) (q : ℚ) : Prop := Denotes f.toModel.unpack q

namespace Value

variable {f g : Float32} {q r : ℚ}

theorem unique (first : Value f q) (second : Value f r) : q = r := Denotes.unique first second

theorem of_unpack {m : ℕ} {e : ℤ} (positive : 0 < m) (low : 2^23 ≤ m) (high : m < 2^24)
    (same : f.toModel.unpack = .finite .positive m e positive) : Value f (m * 2^e) := by
  rw [Value, same]
  exact .normal positive low high

theorem lt_iff (left : Value f q) (right : Value g r) : f < g ↔ q < r := by
  have model : f < g ↔ f.toModel.unpack.lt g.toModel.unpack = true := decide_eq_true_iff
  rw [model]
  exact Denotes.lt_iff left right

theorem ofUInt64 (n : UInt64) : ∃ r, Value n.toFloat32 r ∧ Nearest (Binary ℚ 24) n.toNat r := by
  by_cases zero : n.toNat = 0
  · have same : n = 0 := UInt64.toNat_inj.mp zero
    rw [same]
    refine ⟨0, ?_, ⟨Binary.zero, by simp⟩⟩
    have value : (0 : UInt64).toFloat32.toModel.unpack = .zero .positive := by rfl
    rw [Value, value]
    exact .zero
  · obtain ⟨r, denotes, nearest⟩ := ofNat_nearest zero
    have above := one_le zero nearest
    have below := le_two_pow nearest
    refine ⟨r, denotes.packed (.inr ⟨?_, ?_⟩), nearest⟩
    · norm_num at above ⊢
      linarith
    · norm_num at below ⊢
      linarith

theorem ofUInt64_mono {n k : UInt64} (first : Value n.toFloat32 q) (second : Value k.toFloat32 r)
    (le : n.toNat ≤ k.toNat) : q ≤ r := by
  obtain ⟨q', value, nearest⟩ := ofUInt64 n
  obtain ⟨r', value', nearest'⟩ := ofUInt64 k
  rw [first.unique value, second.unique value']
  rcases Nat.lt_or_eq_of_le le with less | same
  · exact nearest.mono nearest' (by exact_mod_cast less)
  · rw [UInt64.toNat_inj.mp same] at value
    exact (value.unique value').le

theorem zero_div (left : Value f 0) (right : Value g r) (positive : 0 < r) : Value (f / g) 0 := by
  have quotient : (f / g).toModel.unpack =
      unpack .binary32 (pack .binary32 (div .binary32 f.toModel.unpack g.toModel.unpack)) := rfl
  rw [Value] at left right ⊢
  rw [quotient]
  generalize f.toModel.unpack = dividend at left
  generalize g.toModel.unpack = divisor at right
  have absent : div .binary32 dividend divisor = .zero .positive := by
    cases right with
    | zero => exact absurd positive (lt_irrefl 0)
    | normal positive low high =>
      generalize same : (0 : ℚ) = q at left
      cases left with
      | zero => rfl
      | @normal m e some _ _ =>
        have above : (0 : ℚ) < m * 2^e := mul_pos (by exact_mod_cast some) (zpow_pos two_pos e)
        exact absurd same above.ne
  rw [absent]
  exact Denotes.zero.packed (.inl rfl)

theorem div (left : Value f q) (right : Value g r) (nonzero : q ≠ 0) (positive : 0 < r)
    (small : 2^(-124 : ℤ) ≤ q / r) (large : q / r ≤ 2^(124 : ℤ)) :
    ∃ s, Value (f / g) s ∧ Nearest (Binary ℚ 24) (q / r) s := by
  obtain ⟨s, denotes, nearest⟩ := div_nearest left right nonzero positive small
  have above := nearest.le_of_mem_le ⟨1, -124, by norm_num, by rw [Nat.cast_one, one_mul]⟩ small
  have below := nearest.le_of_le_mem ⟨1, 124, by norm_num, by rw [Nat.cast_one, one_mul]⟩ large
  refine ⟨s, denotes.packed (.inr ⟨?_, ?_⟩), nearest⟩
  · norm_num at above ⊢
    linarith
  · norm_num at below ⊢
    linarith

/-- What is divided by zero, zero included, is below nothing. -/
theorem div_zero_not_lt {h : Float32} (left : Value f q) (right : Value g 0) (limit : Value h r) :
    ¬ f / g < h := by
  have model : f / g < h ↔ (unpack .binary32
      (pack .binary32 (UnpackedFloat.div .binary32 f.toModel.unpack g.toModel.unpack))).lt h.toModel.unpack = true :=
    decide_eq_true_iff
  rw [model]
  rw [Value] at left right limit
  generalize f.toModel.unpack = dividend at left
  generalize g.toModel.unpack = divisor at right
  generalize h.toModel.unpack = bound at limit
  generalize same : (0 : ℚ) = zero at right
  cases right with
  | zero =>
    cases left with
    | zero =>
      have absent : unpack .binary32 (pack .binary32 (UnpackedFloat.div .binary32 (.zero .positive) (.zero .positive))) =
          .notANumber := by rfl
      rw [absent]
      cases limit <;> simp [UnpackedFloat.lt, UnpackedFloat.compare]
    | @normal m e some low high =>
      have quotient : UnpackedFloat.div .binary32 (.finite .positive m e some) (.zero .positive) =
          .infinity .positive := by rfl
      have infinite : unpack .binary32 (pack .binary32 (.infinity .positive)) = .infinity .positive := by rfl
      rw [quotient, infinite]
      cases limit <;> simp [UnpackedFloat.lt, UnpackedFloat.compare]
  | @normal m e some _ _ =>
    have above : (0 : ℚ) < m * 2^e := mul_pos (by exact_mod_cast some) (zpow_pos two_pos e)
    exact absurd same above.ne

end Value

end Numeric.Binary32

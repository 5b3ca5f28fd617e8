import Mathlib.Algebra.Order.Archimedean.Basic
import Mathlib.Algebra.Order.Round
import Mathlib.Tactic

namespace Numeric

variable {K : Type*} [Field K] [LinearOrder K] [IsStrictOrderedRing K]

/-- `r` is a point of the grid that no other point is nearer to `x` than. How ties are broken
    is left open. -/
structure Nearest (grid : Set K) (x r : K) : Prop where
  mem : r ∈ grid
  closest : ∀ s ∈ grid, |x - r| ≤ |x - s|

namespace Nearest

variable {grid : Set K} {x y r s t : K}

theorem midpoint_le (above : s < r) (nearer : |x - r| ≤ |x - s|) : r + s ≤ 2 * x := by
  have squares := sq_le_sq.mpr nearer
  nlinarith

theorem le_midpoint (below : r < s) (nearer : |x - r| ≤ |x - s|) : 2 * x ≤ r + s := by
  have squares := sq_le_sq.mpr nearer
  nlinarith

theorem mono (first : Nearest grid x r) (second : Nearest grid y s) (lt : x < y) : r ≤ s := by
  by_contra above
  rw [not_le] at above
  have low := midpoint_le above (first.closest s second.mem)
  have high := le_midpoint above (second.closest r first.mem)
  linarith

theorem le_of_le_mem (nearest : Nearest grid x r) (member : t ∈ grid) (le : x ≤ t) : r ≤ t := by
  by_contra above
  rw [not_le] at above
  have low := midpoint_le above (nearest.closest t member)
  linarith

theorem le_of_mem_le (nearest : Nearest grid x r) (member : t ∈ grid) (le : t ≤ x) : t ≤ r := by
  by_contra below
  rw [not_le] at below
  have high := le_midpoint below (nearest.closest t member)
  linarith

/-- Only halfway between two points are both the nearest. -/
theorem midpoint (first : Nearest grid x r) (second : Nearest grid x s) (lt : r < s) : 2 * x = r + s := by
  have high := le_midpoint lt (first.closest s second.mem)
  have low := midpoint_le lt (second.closest r first.mem)
  linarith

theorem eq_of_mem (nearest : Nearest grid x r) (member : x ∈ grid) : r = x :=
  le_antisymm (nearest.le_of_le_mem member le_rfl) (nearest.le_of_mem_le member le_rfl)

end Nearest

/-- The numbers with a significand of `p` bits, of any exponent. -/
def Binary (K : Type*) [Field K] (p : ℕ) : Set K := {q | ∃ (m : ℕ) (e : ℤ), m < 2^p ∧ q = m * 2^e}

namespace Binary

variable {p : ℕ} {x : K}

omit [LinearOrder K] [IsStrictOrderedRing K] in
theorem ofNat {m : ℕ} (small : m < 2^p) (e : ℤ) : (m * 2^e : K) ∈ Binary K p := ⟨m, e, small, rfl⟩

omit [LinearOrder K] [IsStrictOrderedRing K] in
theorem whole {n : ℕ} (small : n < 2^p) : (n : K) ∈ Binary K p := by
  have member := ofNat (K := K) small 0
  rwa [zpow_zero, mul_one] at member

omit [LinearOrder K] [IsStrictOrderedRing K] in
theorem zero : (0 : K) ∈ Binary K p := by
  have member := whole (K := K) (Nat.two_pow_pos p)
  rwa [Nat.cast_zero] at member

theorem ofNat_le (positive : 0 < p) {m : ℕ} (small : m ≤ 2^p) (e : ℤ) : (m * 2^e : K) ∈ Binary K p := by
  by_cases top : m = 2^p
  · refine ⟨2^(p - 1), e + 1, Nat.pow_lt_pow_right (by decide) (by omega), ?_⟩
    obtain ⟨q, rfl⟩ : ∃ q, p = q + 1 := ⟨p - 1, by omega⟩
    rw [top, zpow_add_one₀ two_ne_zero, Nat.add_sub_cancel]
    push_cast
    ring
  · exact ofNat (lt_of_le_of_ne small top) e

/-- Where `p` bits reach from `2^e` upwards, the numbers are the multiples of `2^e`. -/
theorem multiple {s : K} (member : s ∈ Binary K (p + 1)) {e : ℤ} (large : 2^p * 2^e ≤ s) :
    ∃ k : ℕ, s = k * 2^e := by
  obtain ⟨m, f, small, rfl⟩ := member
  have two : (0 : K) < 2 := two_pos
  have bits : (m : K) < 2^(p + 1) := by exact_mod_cast small
  have exponents : e ≤ f := by
    by_contra less
    have step : (2 : K)^f * 2 ≤ 2^e := by
      rw [← zpow_add_one₀ two.ne']
      exact zpow_le_zpow_right₀ one_le_two (by omega)
    have power : (0 : K) < 2^f := zpow_pos two f
    have scale : (0 : K) < 2^p := pow_pos two p
    have below : (m : K) * 2^f < 2^(p + 1) * 2^f := by nlinarith
    have above : (2 : K)^p * (2^f * 2) ≤ 2^p * 2^e := by nlinarith
    rw [pow_succ] at below
    nlinarith
  obtain ⟨d, rfl⟩ : ∃ d : ℕ, f = e + d := ⟨(f - e).toNat, by omega⟩
  refine ⟨m * 2^d, ?_⟩
  rw [zpow_add₀ two.ne', zpow_natCast]
  push_cast
  ring

end Binary

section Scaled

variable {p : ℕ} {x : K} {e : ℤ} {k : ℕ}

/-- Rounding to the nearest multiple of the right power of two is rounding to the nearest of
    all numbers of that many bits. -/
theorem nearest_of_scaled (low : 2^p * 2^e ≤ x) (small : k ≤ 2^(p + 1))
    (closest : |x - k * 2^e| ≤ 2^e / 2) : Nearest (Binary K (p + 1)) x (k * 2^e) := by
  have unit : (0 : K) < 2^e := zpow_pos two_pos e
  have multiples : ∀ j : ℕ, |x - k * 2^e| ≤ |x - j * 2^e| := by
    intro j
    by_cases same : j = k
    · rw [same]
    · have apart : (1 : K) ≤ |(k : K) - j| := by
        have gap : 1 ≤ |(k : ℤ) - j| := Int.one_le_abs (by omega)
        exact_mod_cast gap
      have distance : (2 : K)^e ≤ |(k * 2^e : K) - j * 2^e| := by
        rw [← sub_mul, abs_mul, abs_of_pos unit]
        nlinarith
      have triangle := abs_sub_le ((k : K) * 2^e) x (j * 2^e)
      rw [abs_sub_comm ((k : K) * 2^e) x] at triangle
      linarith
  refine ⟨Binary.ofNat_le (Nat.succ_pos p) small e, fun s member => ?_⟩
  by_cases large : 2^p * 2^e ≤ s
  · obtain ⟨j, rfl⟩ := Binary.multiple member large
    exact multiples j
  · rw [not_le] at large
    -- below the binade its lower end is nearer
    have edge := multiples (2^p)
    push_cast at edge
    rw [abs_of_nonneg (by linarith : 0 ≤ x - 2^p * 2^e)] at edge
    rw [abs_of_nonneg (by linarith : 0 ≤ x - s)]
    linarith

end Scaled

section Binade

variable [FloorRing K] {p : ℕ} {a b x r s : K}

theorem exists_binade (p : ℕ) (positive : 0 < x) : ∃ e : ℤ, 2^p * 2^e ≤ x ∧ x < 2^(p + 1) * 2^e := by
  obtain ⟨f, low, high⟩ := exists_mem_Ico_zpow positive (one_lt_two : (1 : K) < 2)
  obtain ⟨e, rfl⟩ : ∃ e : ℤ, f = e + p := ⟨f - p, by omega⟩
  refine ⟨e, ?_, ?_⟩
  · rw [zpow_add₀ two_ne_zero, zpow_natCast, mul_comm] at low
    exact low
  · rw [add_right_comm, zpow_add₀ two_ne_zero, zpow_add_one₀ two_ne_zero, zpow_natCast] at high
    rw [pow_succ]
    linarith

/-- Halfway between two neighbours of `p + 1` bits stands an odd number of `p + 2` bits. -/
theorem Nearest.odd_midpoint (positive : 0 < x) (first : Nearest (Binary K (p + 1)) x r)
    (second : Nearest (Binary K (p + 1)) x s) (lt : r < s) :
    ∃ (k : ℕ) (e : ℤ), 2^p ≤ k ∧ 2 * x = (2 * k + 1 : ℕ) * 2^e := by
  obtain ⟨e, low, high⟩ := exists_binade p positive
  have unit : (0 : K) < 2^e := zpow_pos two_pos e
  have bottom : (2^p * 2^e : K) ∈ Binary K (p + 1) := by
    have member := Binary.ofNat (K := K) (Nat.pow_lt_pow_succ one_lt_two : 2^p < 2^(p + 1)) e
    rwa [Nat.cast_pow, Nat.cast_two] at member
  have top : (2^(p + 1) * 2^e : K) ∈ Binary K (p + 1) := by
    have member := Binary.ofNat_le (K := K) (Nat.succ_pos p) (le_refl (2^(p + 1))) e
    rwa [Nat.cast_pow, Nat.cast_two] at member
  have above := first.le_of_mem_le bottom low
  obtain ⟨k, rfl⟩ := Binary.multiple first.mem above
  obtain ⟨l, rfl⟩ := Binary.multiple second.mem (above.trans lt.le)
  have order : k < l := by exact_mod_cast (mul_lt_mul_iff_left₀ unit).mp lt
  have limit := second.le_of_le_mem top high.le
  have small : l ≤ 2^(p + 1) := by exact_mod_cast (mul_le_mul_iff_left₀ unit).mp limit
  have halves := first.midpoint second lt
  -- a point between the two would be nearer than both
  have neighbours : l = k + 1 := by
    by_contra apart
    have between : k + 1 < l := by omega
    have between' : ((k + 1 : ℕ) * 2^e : K) < l * 2^e :=
      (mul_lt_mul_iff_left₀ unit).mpr (by exact_mod_cast between)
    have nearer := first.closest _ (Binary.ofNat_le (Nat.succ_pos p) (by omega : k + 1 ≤ 2^(p + 1)) e)
    have halfway := le_midpoint (by push_cast; linarith : (k * 2^e : K) < (k + 1 : ℕ) * 2^e) nearer
    linarith
  refine ⟨k, e, ?_, ?_⟩
  · have above' := (mul_le_mul_iff_left₀ unit).mp above
    exact_mod_cast above'
  · rw [halves, neighbours]
    push_cast
    ring

/-- A quotient of two numbers of equally many bits is never halfway between two of them, so how
    ties are broken does not matter for it. -/
theorem Nearest.quotient_unique (dividend : a ∈ Binary K (p + 1)) (divisor : b ∈ Binary K (p + 1))
    (positive : 0 < a / b) (first : Nearest (Binary K (p + 1)) (a / b) r)
    (second : Nearest (Binary K (p + 1)) (a / b) s) : r = s := by
  have ordered : ∀ {r s : K}, Nearest (Binary K (p + 1)) (a / b) r → Nearest (Binary K (p + 1)) (a / b) s →
      ¬ r < s := by
    intro r s first second lt
    obtain ⟨k, e, large, halfway⟩ := Nearest.odd_midpoint positive first second lt
    obtain ⟨m, i, bits, rfl⟩ := dividend
    obtain ⟨n, j, -, rfl⟩ := divisor
    have nonzero : (n * 2^j : K) ≠ 0 := by
      intro zero
      rw [zero, div_zero] at positive
      exact lt_irrefl 0 positive
    have some : 0 < m := by
      rcases Nat.eq_zero_or_pos m with rfl | some
      · rw [Nat.cast_zero, zero_mul, zero_div] at positive
        exact absurd positive (lt_irrefl 0)
      · exact some
    have product : (m * 2^(i + 1) : K) = (2 * k + 1 : ℕ) * n * 2^(e + j) := by
      rw [← mul_div_assoc, div_eq_iff nonzero] at halfway
      rw [zpow_add_one₀ two_ne_zero, zpow_add₀ two_ne_zero]
      linarith
    have divides : ∃ d, 2 * k + 1 ∣ m * 2^d := by
      rcases le_total (e + j) (i + 1) with less | more
      · obtain ⟨d, shift⟩ : ∃ d : ℕ, i + 1 = e + j + d := ⟨(i + 1 - (e + j)).toNat, by omega⟩
        have power : (2 : K)^(e + j) ≠ 0 := (zpow_pos two_pos _).ne'
        rw [shift, zpow_add₀ two_ne_zero, zpow_natCast] at product
        have whole : (m * 2^d : K) = (2 * k + 1 : ℕ) * n := by
          apply mul_right_cancel₀ power
          linarith
        exact ⟨d, n, by exact_mod_cast whole⟩
      · obtain ⟨d, shift⟩ : ∃ d : ℕ, e + j = i + 1 + d := ⟨(e + j - (i + 1)).toNat, by omega⟩
        have power : (2 : K)^(i + 1) ≠ 0 := (zpow_pos two_pos _).ne'
        rw [shift, zpow_add₀ two_ne_zero (i + 1), zpow_natCast] at product
        have whole : (m : K) = (2 * k + 1 : ℕ) * n * 2^d := by
          apply mul_right_cancel₀ power
          linarith
        have whole' : m = (2 * k + 1) * (n * 2^d) := by
          rw [← mul_assoc]
          exact_mod_cast whole
        exact ⟨0, n * 2^d, by rw [pow_zero, mul_one]; exact whole'⟩
    obtain ⟨d, multiple⟩ := divides
    have odd : Nat.Coprime (2 * k + 1) (2^d) := by
      apply Nat.Coprime.pow_right
      simp
    have bound := Nat.le_of_dvd some (odd.dvd_of_dvd_mul_right multiple)
    rw [pow_succ] at bits
    omega
  exact le_antisymm (not_lt.mp (ordered second first)) (not_lt.mp (ordered first second))

end Binade

section Error

variable [FloorRing K] {p : ℕ} {x r : K}

/-- The error is at most half a unit in the last place, relative to the number. -/
theorem Nearest.relative_error (positive : 0 < x) (nearest : Nearest (Binary K (p + 1)) x r) :
    |x - r| ≤ x / 2^(p + 1) := by
  obtain ⟨e, low, high⟩ := exists_binade p positive
  have unit : (0 : K) < 2^e := zpow_pos two_pos e
  have scale : (0 : K) < 2^p := pow_pos two_pos p
  have quotient : x = x / 2^e * 2^e := (div_mul_cancel₀ x unit.ne').symm
  generalize x / 2^e = q at quotient
  have qHigh : q < 2^(p + 1) := by
    rw [quotient] at high
    exact lt_of_mul_lt_mul_right high unit.le
  have qPositive : 0 < q := by
    by_contra none
    rw [not_lt] at none
    nlinarith
  have closest : |q - round q| ≤ 1 / 2 := abs_sub_round q
  obtain ⟨k, rounded⟩ : ∃ k : ℕ, round q = (k : ℤ) := by
    refine ⟨(round q).toNat, (Int.toNat_of_nonneg ?_).symm⟩
    rw [abs_le] at closest
    have above : (-1 : K) < round q := by linarith
    have above' : (-1 : ℤ) < round q := by exact_mod_cast above
    omega
  rw [rounded, Int.cast_natCast] at closest
  have small : k ≤ 2^(p + 1) := by
    rw [abs_le] at closest
    have below : (k : K) < 2^(p + 1) + 1 := by linarith
    have below' : k < 2^(p + 1) + 1 := by exact_mod_cast below
    omega
  have bound := nearest.closest _ (Binary.ofNat_le (Nat.succ_pos p) small e)
  have distance : |x - k * 2^e| ≤ 2^e / 2 := by
    rw [quotient, ← sub_mul, abs_mul, abs_of_pos unit]
    nlinarith
  have half : (2 : K)^e / 2 ≤ x / 2^(p + 1) := by
    rw [div_le_div_iff₀ two_pos (pow_pos two_pos _), pow_succ]
    nlinarith
  linarith

theorem Nearest.relative_bounds (positive : 0 < x) (nearest : Nearest (Binary K (p + 1)) x r) :
    x - x / 2^(p + 1) ≤ r ∧ r ≤ x + x / 2^(p + 1) := by
  have error := nearest.relative_error positive
  rw [abs_le] at error
  constructor <;> linarith

/-- The quotient of two rounded numbers, itself rounded, against the quotient of the numbers. -/
theorem quotient_error {a m A M Q : K} (dividend : 0 < a) (divisor : 0 < m)
    (top : Nearest (Binary K (p + 1)) a A) (bottom : Nearest (Binary K (p + 1)) m M)
    (quotient : Nearest (Binary K (p + 1)) (A / M) Q) :
    (1 - 1 / 2^(p + 1))^2 * a ≤ Q * ((1 + 1 / 2^(p + 1)) * m) ∧
      Q * ((1 - 1 / 2^(p + 1)) * m) ≤ (1 + 1 / 2^(p + 1))^2 * a := by
  obtain ⟨topLow, topHigh⟩ := top.relative_bounds dividend
  obtain ⟨bottomLow, bottomHigh⟩ := bottom.relative_bounds divisor
  have bits : (2 : K) ≤ 2^(p + 1) := by
    rw [pow_succ]
    have one : (1 : K) ≤ 2^p := one_le_pow₀ one_le_two
    linarith
  have scale : (0 : K) < 2^(p + 1) := by linarith
  rw [div_eq_mul_one_div a] at topLow topHigh
  rw [div_eq_mul_one_div m] at bottomLow bottomHigh
  have unit : 0 < 1 / (2 : K)^(p + 1) := by positivity
  have unit' : 1 / (2 : K)^(p + 1) ≤ 1 / 2 := one_div_le_one_div_of_le two_pos bits
  have A_pos : 0 < A := by nlinarith
  have M_pos : 0 < M := by nlinarith
  obtain ⟨low, high⟩ := quotient.relative_bounds (div_pos A_pos M_pos)
  rw [div_eq_mul_one_div (A / M)] at low high
  generalize 1 / (2 : K)^(p + 1) = u at topLow topHigh bottomLow bottomHigh unit unit' low high ⊢
  have Q_pos : 0 ≤ Q := by
    have ratio := div_pos A_pos M_pos
    nlinarith
  have back : A / M * M = A := div_mul_cancel₀ A M_pos.ne'
  have product : (1 - u) * A ≤ Q * M := by
    calc (1 - u) * A = (1 - u) * (A / M * M) := by rw [back]
      _ = (A / M - A / M * u) * M := by ring
      _ ≤ Q * M := mul_le_mul_of_nonneg_right low M_pos.le
  have product' : Q * M ≤ (1 + u) * A := by
    calc Q * M ≤ (A / M + A / M * u) * M := mul_le_mul_of_nonneg_right high M_pos.le
      _ = (1 + u) * (A / M * M) := by ring
      _ = (1 + u) * A := by rw [back]
  constructor
  · calc (1 - u)^2 * a = (1 - u) * (a - a * u) := by ring
      _ ≤ (1 - u) * A := mul_le_mul_of_nonneg_left topLow (by linarith)
      _ ≤ Q * M := product
      _ ≤ Q * (m + m * u) := mul_le_mul_of_nonneg_left bottomHigh Q_pos
      _ = Q * ((1 + u) * m) := by ring
  · calc Q * ((1 - u) * m) = Q * (m - m * u) := by ring
      _ ≤ Q * M := mul_le_mul_of_nonneg_left bottomLow Q_pos
      _ ≤ (1 + u) * A := product'
      _ ≤ (1 + u) * (a + a * u) := mul_le_mul_of_nonneg_left topHigh (by linarith)
      _ = (1 + u)^2 * a := by ring

end Error

end Numeric

import OnDeviceLLM.Memory.Pressure
import OnDeviceLLM.Numeric.Binary32

namespace LLM.Memory

open Numeric Numeric.Binary32

/-- The local `usage_ratio`: `allocated_` is cast, and the division converts `max_memory_`. -/
def usageRatio (allocated maxMemory : UInt64) : Float32 := allocated.toFloat32 / maxMemory.toFloat32

/-- `calculate_pressure` in the arithmetic of the code. -/
def pressureLevel (allocated maxMemory : UInt64) : MemoryPressure :=
  let usageRatio := usageRatio allocated maxMemory
  if usageRatio < 0.5 then .normal
  else if usageRatio < 0.7 then .moderate
  else if usageRatio < 0.9 then .high
  else .critical

def MemoryPressure.ordinal : MemoryPressure → Nat
  | .normal => 0
  | .moderate => 1
  | .high => 2
  | .critical => 3

theorem MemoryPressure.ordinal_injective : Function.Injective MemoryPressure.ordinal := by
  intro a b same
  cases a <;> cases b <;> first | rfl | cases same

section Tests

variable {p₁ p₂ p₃ q₁ q₂ q₃ : Prop} [Decidable p₁] [Decidable p₂] [Decidable p₃] [Decidable q₁]
  [Decidable q₂] [Decidable q₃]

theorem ordinal_le (first : q₁ → p₁) (second : q₂ → p₂) (third : q₃ → p₃) :
    (if p₁ then MemoryPressure.normal else if p₂ then .moderate else if p₃ then .high else .critical).ordinal ≤
      (if q₁ then MemoryPressure.normal else if q₂ then .moderate else if q₃ then .high else .critical).ordinal := by
  by_cases h₁ : q₁
  · rw [if_pos h₁, if_pos (first h₁)]
  · by_cases h₂ : q₂
    · have p₂' := second h₂
      split_ifs <;> decide
    · by_cases h₃ : q₃
      · have p₃' := third h₃
        split_ifs <;> decide
      · split_ifs <;> decide

end Tests

/-- The tenths of the three literals, and what they are in binary. -/
structure Threshold where
  tenths : ℕ
  literal : Float32
  significand : ℕ
  value : Value literal (significand * 2^(-24 : ℤ))
  small : significand < 2^24
  below : 10 * significand ≤ tenths * 2^24
  close : tenths * 2^24 ≤ 10 * significand + 4
  half : 5 ≤ tenths
  whole : tenths ≤ 9

def Threshold.moderate : Threshold where
  tenths := 5
  literal := 0.5
  significand := 2^23
  value := .of_unpack (by decide) (by decide) (by decide) rfl
  small := by decide
  below := by decide
  close := by decide
  half := by decide
  whole := by decide

def Threshold.high : Threshold where
  tenths := 7
  literal := 0.7
  significand := 11744051
  value := .of_unpack (by decide) (by decide) (by decide) rfl
  small := by decide
  below := by decide
  close := by decide
  half := by decide
  whole := by decide

def Threshold.critical : Threshold where
  tenths := 9
  literal := 0.9
  significand := 15099494
  value := .of_unpack (by decide) (by decide) (by decide) rfl
  small := by decide
  below := by decide
  close := by decide
  half := by decide
  whole := by decide

section Ratio

variable {allocated maxMemory : UInt64}

/-- The conversions of the two operands and the division, each rounded to the nearest. -/
structure Computed (allocated maxMemory : UInt64) (top bottom ratio : ℚ) : Prop where
  dividend : Value allocated.toFloat32 top
  divisor : Value maxMemory.toFloat32 bottom
  result : Value (usageRatio allocated maxMemory) ratio
  dividendNearest : Nearest (Binary ℚ 24) allocated.toNat top
  divisorNearest : Nearest (Binary ℚ 24) maxMemory.toNat bottom
  resultNearest : Nearest (Binary ℚ 24) (top / bottom) ratio
  divisorPositive : 0 < bottom

theorem usageRatio_computed (allocated : UInt64) (nonzero : maxMemory.toNat ≠ 0) :
    ∃ top bottom ratio, Computed allocated maxMemory top bottom ratio := by
  obtain ⟨top, dividend, dividendNearest⟩ := Value.ofUInt64 allocated
  obtain ⟨bottom, divisor, divisorNearest⟩ := Value.ofUInt64 maxMemory
  have one := one_le nonzero divisorNearest
  have positive : 0 < bottom := by linarith
  by_cases none : allocated.toNat = 0
  · rw [none, Nat.cast_zero] at dividendNearest
    have zero : top = 0 := dividendNearest.eq_of_mem Binary.zero
    subst zero
    refine ⟨0, bottom, 0, dividend, divisor, dividend.zero_div divisor positive, ?_, divisorNearest, ?_, positive⟩
    · rw [none, Nat.cast_zero]
      exact dividendNearest
    · rw [zero_div]
      exact dividendNearest
  · have some := one_le none dividendNearest
    have limit := le_two_pow dividendNearest
    have limit' := le_two_pow divisorNearest
    obtain ⟨ratio, result, resultNearest⟩ := dividend.div divisor (by linarith) positive
      (by rw [le_div_iff₀ positive]; norm_num; linarith) (by rw [div_le_iff₀ positive]; norm_num; linarith)
    exact ⟨top, bottom, ratio, dividend, divisor, result, dividendNearest, divisorNearest, resultNearest, positive⟩

/-- With no budget at all the ratio is infinite or no number, and below nothing. -/
theorem not_below_of_zero (t : Threshold) (zero : maxMemory.toNat = 0) :
    ¬ usageRatio allocated maxMemory < t.literal := by
  obtain ⟨top, dividend, _⟩ := Value.ofUInt64 allocated
  obtain ⟨bottom, divisor, nearest⟩ := Value.ofUInt64 maxMemory
  rw [zero, Nat.cast_zero] at nearest
  have none : bottom = 0 := nearest.eq_of_mem Binary.zero
  rw [none] at divisor
  exact dividend.div_zero_not_lt divisor t.value

end Ratio

namespace Computed

variable {allocated maxMemory allocated' maxMemory' : UInt64} {top bottom ratio top' bottom' ratio' : ℚ}

theorem below_iff (computed : Computed allocated maxMemory top bottom ratio) (t : Threshold) :
    usageRatio allocated maxMemory < t.literal ↔ ratio < t.significand * 2^(-24 : ℤ) :=
  computed.result.lt_iff t.value

theorem divisor_nonzero (computed : Computed allocated maxMemory top bottom ratio) : maxMemory.toNat ≠ 0 := by
  intro zero
  have nearest := computed.divisorNearest
  rw [zero, Nat.cast_zero] at nearest
  exact computed.divisorPositive.ne' (nearest.eq_of_mem Binary.zero)

theorem ratio_zero (computed : Computed allocated maxMemory top bottom ratio) (zero : allocated.toNat = 0) :
    ratio = 0 := by
  have dividend := computed.dividendNearest
  rw [zero, Nat.cast_zero] at dividend
  have result := computed.resultNearest
  rw [dividend.eq_of_mem Binary.zero, zero_div] at result
  exact result.eq_of_mem Binary.zero

theorem below_of_none (computed : Computed allocated maxMemory top bottom ratio) (t : Threshold)
    (none : allocated.toNat = 0) : ratio < t.significand * 2^(-24 : ℤ) := by
  rw [computed.ratio_zero none]
  have some : 0 < t.significand := by
    have half := t.half
    have close := t.close
    omega
  exact mul_pos (by exact_mod_cast some) (zpow_pos two_pos _)

/-- A usage clear of the threshold by one part in `2^22` is below it for the code too. -/
theorem below (computed : Computed allocated maxMemory top bottom ratio) (t : Threshold)
    (clear : 10 * ((2^22 + 1) * allocated.toNat) < t.tenths * (2^22 * maxMemory.toNat)) :
    ratio < t.significand * 2^(-24 : ℤ) := by
  have five : 5 ≤ t.tenths := t.half
  have close : (t.tenths * 2^24 : ℚ) ≤ 10 * t.significand + 4 := by exact_mod_cast t.close
  by_cases none : allocated.toNat = 0
  · exact computed.below_of_none t none
  · have used : (0 : ℚ) < allocated.toNat := by exact_mod_cast Nat.pos_of_ne_zero none
    have total : (0 : ℚ) < maxMemory.toNat := by exact_mod_cast Nat.pos_of_ne_zero computed.divisor_nonzero
    have bound := (quotient_error used total computed.dividendNearest computed.divisorNearest
      computed.resultNearest).2
    have clear' : (10 * ((2^22 + 1) * allocated.toNat) : ℚ) < t.tenths * (2^22 * maxMemory.toNat) := by
      exact_mod_cast clear
    have large : (5 * maxMemory.toNat : ℚ) ≤ t.tenths * maxMemory.toNat :=
      mul_le_mul_of_nonneg_right (by exact_mod_cast five) total.le
    by_contra reached
    rw [not_lt] at reached
    have scaled := mul_le_mul_of_nonneg_right reached total.le
    have close' := mul_le_mul_of_nonneg_right close total.le
    norm_num at bound clear' scaled close'
    linarith

theorem not_below (computed : Computed allocated maxMemory top bottom ratio) (t : Threshold)
    (clear : t.tenths * (2^22 * maxMemory.toNat) ≤ 10 * ((2^22 - 1) * allocated.toNat)) :
    t.significand * 2^(-24 : ℤ) ≤ ratio := by
  have five : 5 ≤ t.tenths := t.half
  have total : 0 < maxMemory.toNat := Nat.pos_of_ne_zero computed.divisor_nonzero
  have used : 0 < allocated.toNat := by
    have product : 0 < t.tenths * (2^22 * maxMemory.toNat) := by positivity
    omega
  have below : (10 * t.significand : ℚ) ≤ t.tenths * 2^24 := by exact_mod_cast t.below
  have total' : (0 : ℚ) < maxMemory.toNat := by exact_mod_cast total
  have bound := (quotient_error (by exact_mod_cast used) total' computed.dividendNearest
    computed.divisorNearest computed.resultNearest).1
  have clear' : (t.tenths * (2^22 * maxMemory.toNat) : ℚ) ≤ 10 * ((2^22 - 1) * allocated.toNat) := by
    have cast : ((t.tenths * (2^22 * maxMemory.toNat) : ℕ) : ℚ) ≤ (10 * ((2^22 - 1) * allocated.toNat) : ℕ) := by
      exact_mod_cast clear
    push_cast at cast
    norm_num at cast ⊢
    exact cast
  by_contra missed
  rw [not_le] at missed
  have scaled := mul_le_mul_of_nonneg_right missed.le total'.le
  have below' := mul_le_mul_of_nonneg_right below total'.le
  have used' : (0 : ℚ) < allocated.toNat := by exact_mod_cast used
  norm_num at bound clear' scaled below'
  linarith

/-- More in use of no larger a budget is no smaller a ratio: the quotients are the same only if
    they round to the same float. -/
theorem mono (computed : Computed allocated maxMemory top bottom ratio)
    (computed' : Computed allocated' maxMemory' top' bottom' ratio')
    (used : allocated.toNat ≤ allocated'.toNat) (total : maxMemory'.toNat ≤ maxMemory.toNat) : ratio ≤ ratio' := by
  have dividends : top ≤ top' := computed.dividend.ofUInt64_mono computed'.dividend used
  have divisors : bottom' ≤ bottom := computed'.divisor.ofUInt64_mono computed.divisor total
  by_cases none : allocated.toNat = 0
  · rw [computed.ratio_zero none]
    have one := one_le computed'.divisor_nonzero computed'.divisorNearest
    apply computed'.resultNearest.le_of_mem_le Binary.zero
    have top_nonneg : 0 ≤ top' := by
      apply computed'.dividendNearest.le_of_mem_le Binary.zero
      exact Nat.cast_nonneg _
    exact div_nonneg top_nonneg computed'.divisorPositive.le
  · have one := one_le none computed.dividendNearest
    have quotients : top / bottom ≤ top' / bottom' :=
      div_le_div₀ (by linarith) dividends computed'.divisorPositive divisors
    rcases quotients.lt_or_eq with less | same
    · exact computed.resultNearest.mono computed'.resultNearest less
    · have result := computed'.resultNearest
      rw [← same] at result
      have positive : 0 < top / bottom := div_pos (by linarith) computed.divisorPositive
      exact (computed.resultNearest.quotient_unique computed.dividend.mem computed.divisor.mem positive result).le

theorem divisor_eq (computed : Computed allocated maxMemory top bottom ratio) (small : maxMemory.toNat ≤ 2^20) :
    bottom = maxMemory.toNat :=
  computed.divisorNearest.eq_of_mem (Binary.whole (by omega))

theorem below_of_small (computed : Computed allocated maxMemory top bottom ratio) (t : Threshold)
    (small : maxMemory.toNat ≤ 2^20) (less : 10 * allocated.toNat < t.tenths * maxMemory.toNat) :
    ratio < t.significand * 2^(-24 : ℤ) := by
  by_cases none : allocated.toNat = 0
  · exact computed.below_of_none t none
  · have total : (0 : ℚ) < maxMemory.toNat := by exact_mod_cast Nat.pos_of_ne_zero computed.divisor_nonzero
    have used : (0 : ℚ) < allocated.toNat := by exact_mod_cast Nat.pos_of_ne_zero none
    have small' : (maxMemory.toNat : ℚ) ≤ 2^20 := by exact_mod_cast small
    have fits : allocated.toNat < 2^24 := by
      have most := Nat.mul_le_mul_right maxMemory.toNat t.whole
      omega
    have result := computed.resultNearest
    rw [computed.divisor_eq small, computed.dividendNearest.eq_of_mem (Binary.whole fits)] at result
    have bound := (result.relative_bounds (div_pos used total)).2
    have scaled : ratio * maxMemory.toNat ≤ allocated.toNat + allocated.toNat / 2^24 := by
      calc ratio * maxMemory.toNat
        _ ≤ (allocated.toNat / maxMemory.toNat + allocated.toNat / maxMemory.toNat / 2^24) * maxMemory.toNat :=
          mul_le_mul_of_nonneg_right bound total.le
        _ = allocated.toNat / maxMemory.toNat * maxMemory.toNat +
            allocated.toNat / maxMemory.toNat * maxMemory.toNat / 2^24 := by ring
        _ = allocated.toNat + allocated.toNat / 2^24 := by rw [div_mul_cancel₀ _ total.ne']
    -- ten times the usage is an integer, so it is at least one below
    have less' : (10 * allocated.toNat + 1 : ℚ) ≤ t.tenths * maxMemory.toNat := by exact_mod_cast less
    have close : (t.tenths * 2^24 : ℚ) ≤ 10 * t.significand + 4 := by exact_mod_cast t.close
    have close' := mul_le_mul_of_nonneg_right close total.le
    have most : (t.tenths * maxMemory.toNat : ℚ) ≤ 9 * maxMemory.toNat :=
      mul_le_mul_of_nonneg_right (by exact_mod_cast t.whole) total.le
    by_contra reached
    rw [not_lt] at reached
    have reached' := mul_le_mul_of_nonneg_right reached total.le
    norm_num at scaled close' reached'
    linarith

theorem not_below_of_small (computed : Computed allocated maxMemory top bottom ratio) (t : Threshold)
    (small : maxMemory.toNat ≤ 2^20) (reached : t.tenths * maxMemory.toNat ≤ 10 * allocated.toNat) :
    t.significand * 2^(-24 : ℤ) ≤ ratio := by
  have total : (0 : ℚ) < maxMemory.toNat := by exact_mod_cast Nat.pos_of_ne_zero computed.divisor_nonzero
  have small' : (maxMemory.toNat : ℚ) ≤ 2^20 := by exact_mod_cast small
  have reached' : (t.tenths * maxMemory.toNat : ℚ) ≤ 10 * allocated.toNat := by exact_mod_cast reached
  have result := computed.resultNearest
  rw [computed.divisor_eq small] at result
  apply result.le_of_mem_le (Binary.ofNat t.small _)
  rw [le_div_iff₀ total]
  by_cases fits : allocated.toNat < 2^24
  · rw [computed.dividendNearest.eq_of_mem (Binary.whole fits)]
    have below : (10 * t.significand : ℚ) ≤ t.tenths * 2^24 := by exact_mod_cast t.below
    have below' := mul_le_mul_of_nonneg_right below total.le
    norm_num at below' ⊢
    linarith
  · have large : (2^24 : ℚ) ≤ top := by
      apply computed.dividendNearest.le_of_mem_le ⟨1, 24, by norm_num, by norm_num⟩
      exact_mod_cast not_lt.mp fits
    have below : (t.significand : ℚ) < 2^24 := by exact_mod_cast t.small
    have below' := mul_le_mul_of_nonneg_right below.le total.le
    norm_num at below' large ⊢
    linarith

/-- Up to a budget of `2^20` bytes no usage is near enough to a threshold to be rounded across it. -/
theorem below_iff_of_small (computed : Computed allocated maxMemory top bottom ratio) (t : Threshold)
    (small : maxMemory.toNat ≤ 2^20) :
    ratio < t.significand * 2^(-24 : ℤ) ↔ 10 * allocated.toNat < t.tenths * maxMemory.toNat := by
  constructor
  · contrapose!
    exact computed.not_below_of_small t small
  · exact computed.below_of_small t small

end Computed

section Levels

variable (allocated maxMemory : UInt64)

/-- Where no threshold is within one part in `2^22` of the usage, the level of the code is the
    exact one; where one is, it is the level on one of the two sides of it. For budgets of up to
    `2^20` bytes it is always the exact one. -/
theorem pressureLevel_accurate :
    (exactLevel ((2^22 - 1) * allocated.toNat) (2^22 * maxMemory.toNat)).ordinal ≤
      (pressureLevel allocated maxMemory).ordinal ∧
    (pressureLevel allocated maxMemory).ordinal ≤
      (exactLevel ((2^22 + 1) * allocated.toNat) (2^22 * maxMemory.toNat)).ordinal ∧
    (maxMemory.toNat ≤ 2^20 → pressureLevel allocated maxMemory = thresholdLevel allocated maxMemory) := by
  have low : ∀ t : Threshold, usageRatio allocated maxMemory < t.literal →
      10 * ((2^22 - 1) * allocated.toNat) < t.tenths * (2^22 * maxMemory.toNat) := by
    intro t
    contrapose!
    intro clear
    by_cases zero : maxMemory.toNat = 0
    · exact not_below_of_zero t zero
    · obtain ⟨top, bottom, ratio, computed⟩ := usageRatio_computed allocated zero
      rw [computed.below_iff]
      exact not_lt.mpr (computed.not_below t clear)
  have high : ∀ t : Threshold, 10 * ((2^22 + 1) * allocated.toNat) < t.tenths * (2^22 * maxMemory.toNat) →
      usageRatio allocated maxMemory < t.literal := by
    intro t clear
    have some : maxMemory.toNat ≠ 0 := by
      rintro zero
      rw [zero, Nat.mul_zero, Nat.mul_zero] at clear
      exact absurd clear (Nat.not_lt_zero _)
    obtain ⟨top, bottom, ratio, computed⟩ := usageRatio_computed allocated some
    rw [computed.below_iff]
    exact computed.below t clear
  have exact : maxMemory.toNat ≤ 2^20 → ∀ t : Threshold,
      (usageRatio allocated maxMemory < t.literal ↔ 10 * allocated.toNat < t.tenths * maxMemory.toNat) := by
    intro small t
    by_cases zero : maxMemory.toNat = 0
    · rw [zero, Nat.mul_zero]
      exact iff_of_false (not_below_of_zero t zero) (Nat.not_lt_zero _)
    · obtain ⟨top, bottom, ratio, computed⟩ := usageRatio_computed allocated zero
      rw [computed.below_iff]
      exact computed.below_iff_of_small t small
  refine ⟨ordinal_le (low .moderate) (low .high) (low .critical),
    ordinal_le (high .moderate) (high .high) (high .critical), ?_⟩
  intro small
  apply MemoryPressure.ordinal_injective
  apply le_antisymm
  · exact ordinal_le (exact small .moderate).mpr (exact small .high).mpr (exact small .critical).mpr
  · exact ordinal_le (exact small .moderate).mp (exact small .high).mp (exact small .critical).mp

/-- Less than a byte below nine tenths of 4 GiB the rounded ratio already reaches `0.9f`. -/
example : pressureLevel 3865470566 4294967296 = .critical ∧ thresholdLevel 3865470566 4294967296 = .high := by
  decide +kernel

/-- The level never falls when more is in use or the budget is smaller. -/
theorem pressureLevel_mono (allocated allocated' maxMemory maxMemory' : UInt64) (used : allocated ≤ allocated')
    (total : maxMemory' ≤ maxMemory) :
    (pressureLevel allocated maxMemory).ordinal ≤ (pressureLevel allocated' maxMemory').ordinal := by
  have kept : ∀ t : Threshold, usageRatio allocated' maxMemory' < t.literal →
      usageRatio allocated maxMemory < t.literal := by
    intro t below
    have some' : maxMemory'.toNat ≠ 0 := fun zero => not_below_of_zero t zero below
    have le : maxMemory'.toNat ≤ maxMemory.toNat := UInt64.le_iff_toNat_le.mp total
    have some : maxMemory.toNat ≠ 0 := by omega
    obtain ⟨_, _, ratio, computed⟩ := usageRatio_computed allocated some
    obtain ⟨_, _, ratio', computed'⟩ := usageRatio_computed allocated' some'
    rw [computed'.below_iff] at below
    rw [computed.below_iff]
    exact (computed.mono computed' (UInt64.le_iff_toNat_le.mp used) le).trans_lt below
  exact ordinal_le (kept .moderate) (kept .high) (kept .critical)

theorem pressureLevel_mono_near_threshold :
    (pressureLevel 3865470438 4294967296).ordinal ≤ (pressureLevel 3865470566 4294967295).ordinal :=
  pressureLevel_mono 3865470438 3865470566 4294967296 4294967295 (by decide) (by decide)

end Levels

def Environment.withFloats (env : Environment) : Environment := { env with level := pressureLevel }

structure Delivered (maxMemoryBytes : UInt64) (s : Process) : Prop where
  sound : Sound s
  budget : s.manager.maxMemory = maxMemoryBytes
  deliveries : ∀ level seen, .note (.pressure level seen) ∈ s.trace →
    level = pressureLevel seen.allocated maxMemoryBytes ∧ seen.allocated.toNat = seen.ledgerBytes % 2^64

namespace Delivered

variable {env : Environment} {maxMemoryBytes : UInt64} {s changed : Process}

theorem announce (delivered : Delivered maxMemoryBytes s) (sound : Sound changed)
    (budget : changed.manager.maxMemory = maxMemoryBytes) {event : Event} (logged : changed.trace = event :: s.trace)
    (silent : ∀ level seen, event ≠ .note (.pressure level seen)) :
    Delivered maxMemoryBytes (changed.announce env.withFloats) := by
  refine ⟨sound.announce, by rw [Process.announce_manager, budget], ?_⟩
  intro level seen member
  have earlier : ∀ level seen, .note (.pressure level seen) ∈ changed.trace →
      level = pressureLevel seen.allocated maxMemoryBytes ∧ seen.allocated.toNat = seen.ledgerBytes % 2^64 := by
    intro level seen member
    rw [logged] at member
    rcases List.mem_cons.mp member with same | member
    · exact absurd same.symm (silent level seen)
    · exact delivered.deliveries level seen member
  by_cases registered : changed.manager.pressureCallback = true
  · rw [Notified.announce_trace registered] at member
    rcases List.mem_cons.mp member with same | member
    · cases same
      rw [← budget]
      exact ⟨rfl, sound.counted⟩
    · exact earlier level seen member
  · rw [Process.announce, if_neg registered] at member
    exact earlier level seen member

theorem step {s' : Process} (taken : Step env.withFloats s s') (delivered : Delivered maxMemoryBytes s) :
    Delivered maxMemoryBytes s' := by
  have sound := delivered.sound.step taken
  cases taken with
  | newFailed size _ _ =>
    refine ⟨sound, delivered.budget, fun level seen member => ?_⟩
    rcases List.mem_cons.mp member with same | member
    · cases same
    · exact delivered.deliveries level seen member
  | abandoned size ptr _ _ _ =>
    refine ⟨sound, delivered.budget, fun level seen member => ?_⟩
    rcases List.mem_cons.mp member with same | member
    · cases same
    · rcases List.mem_cons.mp member with same | member
      · cases same
      · exact delivered.deliveries level seen member
  | allocated size ptr _ obtained =>
    exact delivered.announce (delivered.sound.enroll obtained) delivered.budget rfl (by simp)
  | deallocated ptr size known =>
    exact delivered.announce (delivered.sound.release known) delivered.budget rfl (by simp)

end Delivered

/-- In every run, nested calls and failing allocations included, each delivered level is that of
    the bytes then in the ledger, up to one part in `2^22`, and of two deliveries the one that saw
    more bytes has no lower level. -/
theorem delivered_levels (env : Environment) (this : Nat) (maxMemoryBytes : UInt64) (callable : Bool)
    (ops : List Op) :
    let s := run env.withFloats ops (Process.start this maxMemoryBytes callable)
    (∀ level seen, .note (.pressure level seen) ∈ s.trace → seen.ledgerBytes < 2^64 →
      (exactLevel ((2^22 - 1) * seen.ledgerBytes) (2^22 * maxMemoryBytes.toNat)).ordinal ≤ level.ordinal ∧
      level.ordinal ≤ (exactLevel ((2^22 + 1) * seen.ledgerBytes) (2^22 * maxMemoryBytes.toNat)).ordinal) ∧
    (∀ level seen level' seen', .note (.pressure level seen) ∈ s.trace →
      .note (.pressure level' seen') ∈ s.trace → seen.ledgerBytes ≤ seen'.ledgerBytes →
      seen'.ledgerBytes < 2^64 → level.ordinal ≤ level'.ordinal) := by
  intro s
  have initial : Delivered maxMemoryBytes (Process.start this maxMemoryBytes callable) :=
    ⟨.start this maxMemoryBytes callable, rfl, fun _ _ member => absurd member List.not_mem_nil⟩
  have final : Delivered maxMemoryBytes s :=
    run_invariant (fun _ _ taken delivered => delivered.step taken) ops _ initial
  constructor
  · intro level seen member fits
    obtain ⟨same, counted⟩ := final.deliveries level seen member
    rw [Nat.mod_eq_of_lt fits] at counted
    have accurate := pressureLevel_accurate seen.allocated maxMemoryBytes
    rw [counted, ← same] at accurate
    exact ⟨accurate.1, accurate.2.1⟩
  · intro level seen level' seen' member member' le fits
    obtain ⟨same, counted⟩ := final.deliveries level seen member
    obtain ⟨same', counted'⟩ := final.deliveries level' seen' member'
    rw [Nat.mod_eq_of_lt (by omega)] at counted counted'
    rw [same, same']
    apply pressureLevel_mono _ _ _ _ _ (UInt64.le_refl _)
    rw [UInt64.le_iff_toNat_le, counted, counted']
    exact le

end LLM.Memory

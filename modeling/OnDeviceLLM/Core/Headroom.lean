import OnDeviceLLM.Core.Charges
import OnDeviceLLM.Memory.Budget

namespace LLM.Core

open Cxx Hardware Hal Memory

mutual
/-- Every `initialize`, inside callbacks too, detects a plausible amount of memory. -/
def Call.Plausible : Call → Prop
  | .initializeRuntime _ detected => LLM.Core.Plausible detected
  | .generateStreaming _ onToken => onToken.Plausible
  | _ => True

def OnToken.Plausible : OnToken → Prop
  | .empty => True
  | .callable first second third => first.Plausible ∧ second.Plausible ∧ third.Plausible

def Script.Plausible : Script → Prop
  | .call call rest => call.Plausible ∧ rest.Plausible
  | .guarded block rest => block.Plausible ∧ rest.Plausible
  | _ => True
end

namespace Account

def bytes (a : Account) : Nat :=
  a.blocks .ram * (Resource.ram.size a.spec.tier).toNat + a.blocks .kv * (Resource.kv.size a.spec.tier).toNat

/-- The blocks that are counted fit the memory, and the count is exact. -/
structure Within (a : Account) : Prop where
  bounded : a.bytes ≤ a.spec.availableRamBytes.toNat
  likely : Plausible a.spec

namespace Within

variable {a : Account} {failing : Prop}

theorem used (within : a.Within) : a.used.toNat = a.bytes := by
  have bounded := within.bounded
  have memory := a.spec.availableRamBytes.toNat_lt
  have small : a.bytes < 2^64 := by omega
  exact (UInt64.toNat_ofNat').trans (Nat.mod_eq_of_lt small)

/-- Where the exact sum fits 64 bits, the check admits what fits the memory. -/
theorem refuses_iff (within : a.Within) (r : Resource) :
    a.Refuses r ↔ a.spec.availableRamBytes.toNat < a.bytes + (r.size a.spec.tier).toNat := by
  have bounded := within.bounded
  have likely := within.likely
  have part : (r.size a.spec.tier).toNat ≤ need a.spec := by
    cases r
    · exact Nat.le_add_right _ _
    · exact Nat.le_add_left _ _
  rw [Plausible] at likely
  rw [Refuses, gt_iff_lt, UInt64.lt_iff_toNat_lt, UInt64.toNat_add, within.used,
    Nat.mod_eq_of_lt (by omega)]

theorem bytes_taken (a : Account) (r : Resource) : (a.taken r).bytes = a.bytes + (r.size a.spec.tier).toNat := by
  cases r with
  | ram =>
    have other : (a.taken .ram).blocks .kv = a.blocks .kv := rfl
    have grown : (a.taken .ram).blocks .ram = a.blocks .ram + 1 := rfl
    have same : (a.taken .ram).spec = a.spec := rfl
    rw [bytes, other, grown, same, bytes, Nat.add_mul]
    omega
  | kv =>
    have other : (a.taken .kv).blocks .ram = a.blocks .ram := rfl
    have grown : (a.taken .kv).blocks .kv = a.blocks .kv + 1 := rfl
    have same : (a.taken .kv).spec = a.spec := rfl
    rw [bytes, other, grown, same, bytes, Nat.add_mul]
    omega

theorem taken (within : a.Within) {r : Resource} (admitted : ¬ a.Refuses r) : (a.taken r).Within := by
  rw [within.refuses_iff, not_lt, ← bytes_taken] at admitted
  exact ⟨admitted, within.likely⟩

theorem returned_blocks_le (a : Account) (r r' : Resource) : (a.returned r).blocks r' ≤ a.blocks r' := by
  simp only [returned]
  by_cases same : r' = r
  · rw [same, Function.update_self]
    exact Nat.sub_le _ 1
  · rw [Function.update_of_ne same]

theorem of_blocks_le (within : a.Within) {a' : Account} (same : a'.spec = a.spec)
    (fewer : ∀ r, a'.blocks r ≤ a.blocks r) : a'.Within := by
  refine ⟨Nat.le_trans ?_ (same ▸ within.bounded), same ▸ within.likely⟩
  rw [bytes, bytes, same]
  exact Nat.add_le_add (Nat.mul_le_mul_right _ (fewer .ram)) (Nat.mul_le_mul_right _ (fewer .kv))

theorem released (within : a.Within) (r : Resource) : (a.released r).Within := by
  rw [Account.released]
  split
  · exact within.of_blocks_le rfl (returned_blocks_le a r)
  · exact within.of_blocks_le rfl fun _ => Nat.le_refl _

theorem unloaded (within : a.Within) : a.unloaded.Within :=
  ((within.released .ram).released .kv).of_blocks_le rfl fun _ => Nat.le_refl _

theorem opened {spec : HardwareSpec} (likely : Plausible spec) : (opened spec).Within := by
  refine ⟨?_, likely⟩
  simp [bytes, Account.opened]

theorem load : Spec.Keeps Within (Load failing) := by
  intro a outcome a' within load
  cases load with
  | ramRefused _ => exact within.of_blocks_le rfl fun _ => Nat.le_refl _
  | ramFailed _ _ => exact within
  | kvRefused _ _ => exact within.of_blocks_le rfl fun _ => Nat.le_refl _
  | kvFailed admitted _ _ => exact within.taken admitted
  | loaded admitted admittedKv =>
    exact ((within.taken admitted).taken admittedKv).of_blocks_le rfl fun _ => Nat.le_refl _

theorem unloads : Spec.Keeps Within (.modify Account.unloaded) := by
  apply Spec.Keeps.modify
  exact fun _ within => within.unloaded

theorem reopens {detected : HardwareSpec} (likely : Plausible detected) :
    Spec.Keeps Within (.modify fun a => a.reopened detected) := by
  apply Spec.Keeps.modify
  exact fun _ _ => (opened likely).of_blocks_le rfl fun _ => Nat.le_refl _

theorem generate : Spec.Keeps Within (Account.generate failing) := by
  refine load.bind fun loaded => ?_
  cases loaded with
  | true => exact (Spec.Keeps.require _ _).bind fun _ => unloads.bind fun _ => .pure _
  | false => exact .pure _

theorem streaming {stream : Spec Account Unit} (streams : Spec.Keeps Within stream) :
    Spec.Keeps Within (generateStreaming failing stream) := by
  refine load.bind fun loaded => ?_
  cases loaded with
  | true => exact streams.bind fun _ => unloads.bind fun _ => .pure _
  | false => exact .pure _

end Within

end Account

section Calls

variable (failing : Prop) (level : UInt64 → UInt64 → MemoryPressure)

mutual
theorem Call.keeps_within : ∀ call : Call, call.Plausible →
    Spec.Keeps Account.Within (call.account failing level)
  | .initializeRuntime _ _, likely =>
    (Account.Within.reopens likely).bind fun _ => .pure _
  | .generate _ _, _ => Account.Within.generate.bind fun _ => .pure _
  | .generateStreaming _ onToken, likely =>
    (Account.Within.streaming (OnToken.keeps_within onToken likely)).bind fun _ => .pure _
  | .getDeviceSpec, _ => Spec.Keeps.get.bind fun _ => .pure _
  | .getMemoryStats, _ => Spec.Keeps.get.bind fun _ => .pure _
  | .shutdown, _ => Account.Within.unloads.bind fun _ => .pure _

theorem OnToken.keeps_within : ∀ onToken : OnToken, onToken.Plausible →
    Spec.Keeps Account.Within (onToken.account failing level)
  | .empty, _ => .pure _
  | .callable first second third, likely =>
    (Script.keeps_within first likely.1).bind fun _ => (Script.keeps_within second likely.2.1).bind fun _ =>
      (Spec.Keeps.require _ _).bind fun _ => Script.keeps_within third likely.2.2

theorem Script.keeps_within : ∀ script : Script, script.Plausible →
    Spec.Keeps Account.Within (script.account failing level)
  | .returns, _ => .pure _
  | .throws, _ => .stop _
  | .call call rest, likely =>
    (Call.keeps_within call likely.1).bind fun _ => Script.keeps_within rest likely.2
  | .guarded block rest, likely =>
    (Script.keeps_within block likely.1).attempt.bind fun _ => Script.keeps_within rest likely.2
end

/-- The runtime never brings its manager to the sums that wrap: after any calls, with callbacks that
    call the runtime again, throw or catch, and on whatever heap, the counter is the exact sum of
    the blocks in the ledger, they fit the memory that was detected, what is reported as free is
    what is left, and the next check of either block is exact as well. -/
theorem counter_never_wraps (env : Environment) (modelPath : String) (detected : HardwareSpec)
    (likely : Plausible detected) (calls : List Call) (each : ∀ call ∈ calls, call.Plausible) :
    let w := ((Call.initializeRuntime modelPath detected).exec env World.create).2
    let ended := (Exec.trail (Call.exec env) calls w).2
    ∃ m, ended.runtime.memoryManager = some m ∧ m.allocated.toNat = m.ledgerBytes ∧
      m.ledgerBytes ≤ m.maxMemory.toNat ∧
      (getStats env m).freeBytes.toNat + m.ledgerBytes = m.maxMemory.toNat ∧
      ∀ r : Resource, ¬ m.WrapsIntoBudget (r.size ended.tier) := by
  intro w ended
  obtain ⟨a, allowed, m, books⟩ :=
    Refines.trail (Call.refines env) calls _ _ (opened_booked env modelPath detected)
  have within : a.Within := allowed.keeps
    (fun call member => Call.keeps_within _ _ call (each call member)) (.opened likely)
  have exact : m.allocated.toNat = m.ledgerBytes := by
    rw [books.tallies.allocated books.sound, within.used, books.tallies.ledgerBytes, Account.bytes]
  have bounded : m.ledgerBytes ≤ m.maxMemory.toNat := by
    rw [books.tallies.ledgerBytes, books.tallies.budget]
    exact within.bounded
  refine ⟨m, books.manager, exact, bounded, ?_, fun r wraps => ?_⟩
  · have noBorrow : m.allocated ≤ m.maxMemory := by
      rw [UInt64.le_iff_toNat_le, exact]
      exact bounded
    rw [getStats, UInt64.toNat_sub_of_le _ _ noBorrow, exact]
    omega
  · have part : (r.size ended.tier).toNat ≤ need a.spec := by
      rw [books.tier_eq]
      cases r
      · exact Nat.le_add_right _ _
      · exact Nat.le_add_left _ _
    have sum := wraps.1
    have room := within.likely
    rw [Plausible, ← books.tallies.budget] at room
    rw [exact] at sum
    omega

def nestedCalls : List Call :=
  [.generateStreaming "first" (.callable (.call (.initializeRuntime "model" narrowSpec) .throws) .returns .returns),
    .generate "second" 16, .shutdown]

theorem counter_never_wraps_nested :
    let ended := (Exec.trail (Call.exec (.bump fun _ _ => true)) nestedCalls
      ((Call.initializeRuntime "model" roomySpec).exec (.bump fun _ _ => true) World.create).2).2
    ∃ m, ended.runtime.memoryManager = some m ∧ m.allocated.toNat = m.ledgerBytes ∧
      m.ledgerBytes ≤ m.maxMemory.toNat ∧
      (getStats (.bump fun _ _ => true) m).freeBytes.toNat + m.ledgerBytes = m.maxMemory.toNat ∧
      ∀ r : Resource, ¬ m.WrapsIntoBudget (r.size ended.tier) :=
  counter_never_wraps (.bump fun _ _ => true) "model" roomySpec (by decide) nestedCalls (by
    have narrow : LLM.Core.Plausible narrowSpec := by decide
    simp [nestedCalls, Call.Plausible, OnToken.Plausible, Script.Plausible, narrow])

end Calls

end LLM.Core

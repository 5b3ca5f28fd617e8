import OnDeviceLLM.Core.Instances

namespace LLM.Core

open Cxx Hardware Hal Memory

/-- A live block that the ledger has only if `listed`. -/
structure Recorded (listed : Prop) (b : Block) (p : Process) : Prop where
  live : b ∈ Heap.live p.trace
  nonnull : b.addr ≠ nullptr
  inLedger : b.addr ∈ p.manager.addresses → listed

namespace Recorded

variable {env : Environment} {listed : Prop} {b : Block} {p : Process}

theorem enroll (recorded : Recorded listed b p) {size : UInt64} {ptr : Addr} (fresh : b.addr ≠ ptr) :
    Recorded listed b (p.enroll ptr size) where
  live := List.mem_append_left _ recorded.live
  nonnull := recorded.nonnull
  inLedger inside := by
    rw [HeapMemoryManager.addresses, Process.enroll_allocations, List.map_append, List.mem_append] at inside
    rcases inside with old | new
    · exact recorded.inLedger old
    · exact absurd (List.mem_singleton.mp new) fresh

theorem release (recorded : Recorded listed b p) {size : UInt64} {ptr : Addr} (other : b.addr ≠ ptr) :
    Recorded listed b (p.release ptr size) where
  live := by
    rw [Process.release_trace, Heap.live_delete]
    exact (List.mem_eraseP_of_neg (by simp [other])).mpr recorded.live
  nonnull := recorded.nonnull
  inLedger inside := by
    obtain ⟨entry, left, here⟩ := List.mem_map.mp inside
    exact recorded.inLedger (List.mem_map.mpr ⟨entry, List.mem_of_mem_eraseP left, here⟩)

theorem announce (recorded : Recorded listed b p) : Recorded listed b (p.announce env) where
  live := by
    rw [Process.live_announce]
    exact recorded.live
  nonnull := recorded.nonnull
  inLedger := by
    rw [Process.announce_manager]
    exact recorded.inLedger

/-- What is obtained is another block. -/
theorem allocated (recorded : Recorded listed b p) (size : UInt64) (useMmap : Bool) :
    Exec.wp (allocateWeights env noCallback size useMmap)
      (fun ptr p' => Recorded listed b p' ∧ ptr ≠ b.addr) (fun _ p' => Recorded listed b p') p := by
  have outcomes := Request.allocate_cases env noCallback p (.weights size useMmap)
  simp only [Request.allocate, Request.size] at outcomes
  rcases outcomes with
    ⟨_, result⟩ | ⟨_, _, result⟩ | ⟨ptr, _, _, _, result⟩ | ⟨ptr, _, obtained, _, result⟩
  · rw [Exec.wp_of_ok result]
    exact ⟨recorded, recorded.nonnull.symm⟩
  · rw [Exec.wp_of_error result]
    exact ⟨recorded.live, recorded.nonnull, recorded.inLedger⟩
  · rw [Exec.wp_of_error result]
    exact ⟨List.mem_append_left _ recorded.live, recorded.nonnull, recorded.inLedger⟩
  · have fresh := env.new_fresh _ _ _ obtained b recorded.live
    rw [Exec.bind_of_ok notifyPressure_ignored] at result
    rw [Exec.wp_of_ok result]
    exact ⟨(recorded.enroll fresh).announce, fresh.symm⟩

theorem deallocated {ptr : Addr} (other : ptr = b.addr → ¬ listed) :
    Exec.Preserves (Recorded listed b) (deallocate env noCallback ptr) := by
  intro p recorded
  rcases deallocate_cases env noCallback p ptr with ⟨_, result⟩ | ⟨size, known, result⟩
  · rw [result]
    exact recorded
  · have apart : b.addr ≠ ptr := by
      intro same
      have inside : ptr ∈ p.manager.addresses := List.mem_map_of_mem (List.mem_of_find?_eq_some known)
      exact other same.symm (recorded.inLedger (same ▸ inside))
    rw [result, notifyPressure_ignored]
    exact (recorded.release apart).announce

end Recorded

def World.Lists (w : World) (addr : Addr) : Prop :=
  ∃ m, w.runtime.memoryManager = some m ∧ addr ∈ m.addresses

def World.Names (w : World) (addr : Addr) : Prop := ∃ r, w.pointer r = addr

/-- A live block that the ledger has only if `listed`, and a pointer only if `named`. -/
structure Confined (listed named : Prop) (b : Block) (w : World) : Prop where
  live : b ∈ Heap.live w.trace
  nonnull : b.addr ≠ nullptr
  inLedger : w.Lists b.addr → listed
  inPointer : w.Names b.addr → named

theorem release_eq (env : Environment) (r : Resource) :
    release env r = Exec.get >>= fun w =>
      if w.pointer r ≠ nullptr then
        onManager (deallocate env noCallback (w.pointer r)) >>= fun _ => Exec.modify fun w => w.point r nullptr
      else pure () := by
  cases r <;> rfl

theorem release_preserves {env : Environment} {r : Resource} {invariant : World → Prop}
    (deallocated : ∀ w, invariant w → invariant (onManager (deallocate env noCallback (w.pointer r)) w).2)
    (dropped : ∀ w, invariant w → invariant (w.point r nullptr)) : Exec.Preserves invariant (release env r) := by
  intro w held
  rw [release_eq, Exec.get_bind_apply]
  by_cases nonnull : w.pointer r ≠ nullptr
  · rw [if_pos nonnull]
    have kept := deallocated w held
    rcases outcome : onManager (deallocate env noCallback (w.pointer r)) w with ⟨(e | _), w'⟩
    · rw [outcome] at kept
      rw [Exec.bind_of_error outcome]
      exact kept
    · rw [outcome] at kept
      rw [Exec.bind_of_ok outcome]
      exact dropped w' kept
  · rw [if_neg nonnull]
    exact held

namespace Confined

variable {env : Environment} {listed named : Prop} {b : Block} {w : World}

theorem recorded (confined : Confined listed named b w) {m : HeapMemoryManager}
    (present : w.runtime.memoryManager = some m) : Recorded listed b ⟨m, w.trace⟩ :=
  ⟨confined.live, confined.nonnull, fun inside => confined.inLedger ⟨m, present, inside⟩⟩

theorem store (confined : Confined listed named b w) {p : Process} (recorded : Recorded listed b p) :
    Confined listed named b (w.store p) where
  live := recorded.live
  nonnull := recorded.nonnull
  inLedger lists := by
    obtain ⟨m, now, inside⟩ := lists
    cases now
    exact recorded.inLedger inside
  inPointer := confined.inPointer

theorem point (confined : Confined listed named b w) {r : Resource} {ptr : Addr} (other : ptr ≠ b.addr) :
    Confined listed named b (w.point r ptr) where
  live := by cases r <;> exact confined.live
  nonnull := confined.nonnull
  inLedger lists := by
    obtain ⟨m, now, inside⟩ := lists
    have present : w.runtime.memoryManager = some m := by cases r <;> exact now
    exact confined.inLedger ⟨m, present, inside⟩
  inPointer names := by
    obtain ⟨r', here⟩ := names
    rw [World.point_pointer] at here
    by_cases same : r' = r
    · rw [same, Function.update_self] at here
      exact absurd here other
    · rw [Function.update_of_ne same] at here
      exact confined.inPointer ⟨r', here⟩

theorem dropped (r : Resource) :
    Exec.Preserves (Confined listed named b) (Exec.modify fun w => w.point r nullptr) :=
  fun _ confined => confined.point confined.nonnull.symm

/-- Other runtimes change the heap only. -/
theorem frame (confined : Confined listed named b w) {managers : Nat} {trace : Trace} (live : b ∈ Heap.live trace) :
    Confined listed named b ⟨w.runtime, managers, trace⟩ :=
  ⟨live, confined.nonnull, confined.inLedger, confined.inPointer⟩

theorem backend (backend : Option CPUBackend) :
    Exec.Preserves (Confined listed named b) (setRuntime fun r => { r with backend := backend }) :=
  fun _ confined => ⟨confined.live, confined.nonnull, confined.inLedger, confined.inPointer⟩

theorem allocated (confined : Confined listed named b w) (size : UInt64) (useMmap : Bool) :
    Exec.wp (onManager (allocateWeights env noCallback size useMmap))
      (fun ptr w' => Confined listed named b w' ∧ ptr ≠ b.addr) (fun _ w' => Confined listed named b w') w := by
  cases present : w.runtime.memoryManager with
  | none =>
    rw [Exec.wp_of_error (onManager_absent present)]
    exact confined
  | some m =>
    rw [wp_onManager present]
    apply Exec.wp_mono ((confined.recorded present).allocated size useMmap)
    · exact fun _ _ kept => ⟨confined.store kept.1, kept.2⟩
    · exact fun _ _ kept => confined.store kept

theorem deallocated {ptr : Addr} (other : ptr = b.addr → ¬ listed) :
    Exec.Preserves (Confined listed named b) (onManager (deallocate env noCallback ptr)) := by
  intro w confined
  cases present : w.runtime.memoryManager with
  | none =>
    rw [onManager_absent present]
    exact confined
  | some m =>
    have result : onManager (deallocate env noCallback ptr) w = (_, w.store _) := onManager_of present rfl
    rw [result]
    exact confined.store (Recorded.deallocated other _ (confined.recorded present))

theorem loadsKv (confined : Confined listed named b w) {ram : Addr} (other : ram ≠ b.addr) (tier : DeviceTier) :
    Exec.wp (loadKv env ram tier) (fun _ => Confined listed named b) (fun _ => Confined listed named b) w := by
  rw [loadKv, allocateKvCache, Exec.wp_bind]
  apply Exec.wp_mono (confined.allocated (kvSize tier) false)
  · intro kv w' kept
    have pointed : Confined listed named b (w'.point .kv kv) := kept.1.point kept.2
    rw [setRuntime, Exec.wp_bind, Exec.wp_modify, Exec.wp_state_iff]
    by_cases refused : kv = nullptr
    · rw [if_pos refused]
      have undone : Exec.Preserves (Confined listed named b) (onManager (deallocate env noCallback ram) >>= fun _ =>
          Exec.modify (fun w => w.point .ram nullptr) >>= fun _ => pure false) :=
        (deallocated fun same => absurd same other).bind fun _ => (dropped .ram).bind fun _ => .pure _
      exact undone _ pointed
    · rw [if_neg refused, createBackend_apply]
      exact backend _ _ pointed
  · exact fun _ _ kept => kept

theorem loads : Exec.Preserves (Confined listed named b) (loadBackendResources env) := by
  intro w confined
  rw [load_eq]
  apply Exec.wp_state_iff.mp
  rw [Exec.wp_bind]
  apply Exec.wp_mono (confined.allocated (weightSize w.tier) true)
  · intro ram w' kept
    have pointed : Confined listed named b (w'.point .ram ram) := kept.1.point kept.2
    rw [setRuntime, Exec.wp_bind, Exec.wp_modify]
    by_cases refused : ram = nullptr
    · rw [if_pos refused]
      exact pointed
    · rw [if_neg refused]
      exact pointed.loadsKv kept.2 w.tier
  · exact fun _ _ kept => kept

/-- A release frees what is in the ledger and in a pointer at once, so not this block. -/
theorem releases (apart : ¬ (listed ∧ named)) (r : Resource) :
    Exec.Preserves (Confined listed named b) (release env r) := by
  apply release_preserves
  · intro w confined
    have other : w.pointer r = b.addr → ¬ listed := by
      intro here isListed
      exact apart ⟨isListed, confined.inPointer ⟨r, here⟩⟩
    exact deallocated other w confined
  · exact dropped r

theorem unloads (apart : ¬ (listed ∧ named)) :
    Exec.Preserves (Confined listed named b) (unloadBackendResources env) :=
  (releases apart .ram).bind fun _ => (releases apart .kv).bind fun _ => backend none

theorem kept (env : Environment) (b : Block) (apart : ¬ (listed ∧ named)) : Kept env (Confined listed named b) where
  initializeRuntime modelPath detected w confined := by
    refine ⟨confined.live, confined.nonnull, fun lists => ?_, confined.inPointer⟩
    obtain ⟨m, now, inside⟩ := lists
    cases now
    exact absurd inside List.not_mem_nil
  load := loads
  unload := unloads apart

theorem recreated : Exec.Preserves (Confined listed named b) (setRuntime fun _ => World.create.runtime) := by
  intro w confined
  refine ⟨confined.live, confined.nonnull, fun lists => ?_, fun names => ?_⟩
  · obtain ⟨m, now, _⟩ := lists
    cases now
  · obtain ⟨r, here⟩ := names
    cases r <;> exact absurd here.symm confined.nonnull

theorem used (apart : ¬ (listed ∧ named)) (use : Use) : Exec.Preserves (Confined listed named b) (use.exec env) := by
  cases use with
  | calls call => exact call.exec_preserves (kept env b apart)
  | renew => exact recreated.bind fun _ => .pure _

end Confined

end LLM.Core

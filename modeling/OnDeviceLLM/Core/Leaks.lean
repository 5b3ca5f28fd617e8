import OnDeviceLLM.Core.Invariants

namespace LLM.Core

open Cxx Hardware Hal Memory

section Process

variable {env : Environment} {p : Process} {b : Block}

theorem notifyPressure_ignored : notifyPressure env noCallback p = (.ok (), p.announce env) := by
  by_cases registered : p.manager.pressureCallback = true
  · exact notifyPressure_registered registered
  · exact notifyPressure_unregistered (by simpa using registered)

theorem allocate_keeps_live (member : b ∈ Heap.live p.trace) (nonnull : b.addr ≠ nullptr)
    (size : UInt64) (useMmap : Bool) :
    Exec.wp (allocateWeights env noCallback size useMmap)
      (fun ptr p' => b ∈ Heap.live p'.trace ∧ p'.manager.this = p.manager.this ∧ ptr ≠ b.addr)
      (fun e p' => e ≠ .nullDereference ∧ b ∈ Heap.live p'.trace ∧ p'.manager.this = p.manager.this) p := by
  have outcomes := Request.allocate_cases env noCallback p (.weights size useMmap)
  simp only [Request.allocate, Request.size] at outcomes
  rcases outcomes with
    ⟨_, result⟩ | ⟨_, _, result⟩ | ⟨ptr, _, _, _, result⟩ | ⟨ptr, _, obtained, _, result⟩
  · rw [Exec.wp_of_ok result]
    exact ⟨member, rfl, nonnull.symm⟩
  · rw [Exec.wp_of_error result]
    exact ⟨by simp, member, rfl⟩
  · rw [Exec.wp_of_error result]
    exact ⟨by simp, List.mem_append_left _ member, rfl⟩
  · rw [Exec.bind_of_ok notifyPressure_ignored] at result
    rw [Exec.wp_of_ok result]
    refine ⟨?_, by simp, (env.new_fresh _ _ _ obtained b member).symm⟩
    rw [Process.live_announce]
    exact List.mem_append_left _ member

theorem deallocate_keeps_live {ptr : Addr} (member : b ∈ Heap.live p.trace)
    (other : p.manager.this = b.owner → ptr ≠ b.addr) :
    ∃ p', deallocate env noCallback ptr p = (.ok (), p') ∧ b ∈ Heap.live p'.trace ∧
      p'.manager.this = p.manager.this := by
  rcases deallocate_cases env noCallback p ptr with ⟨_, result⟩ | ⟨size, _, result⟩
  · exact ⟨p, result, member, rfl⟩
  · rw [notifyPressure_ignored] at result
    refine ⟨_, result, ?_, by simp⟩
    rw [Process.live_announce, Process.release_trace, Heap.live_delete]
    refine (List.mem_eraseP_of_neg ?_).mpr member
    intro hit
    have same : b.owner = p.manager.this ∧ b.addr = ptr := by simpa using hit
    exact other same.1.symm same.2.symm

end Process

/-- A live block that no later call can release: its manager is gone, or the pointer to it
    has been overwritten. -/
structure Lost (b : Block) (w : World) : Prop where
  live : b ∈ Heap.live w.trace
  nonnull : b.addr ≠ nullptr
  owned : b.owner < w.managers
  unreachable : ∀ m, w.runtime.memoryManager = some m → m.this = b.owner →
    w.runtime.allocatedRamPtr ≠ b.addr ∧ w.runtime.allocatedKvPtr ≠ b.addr

section World

variable {env : Environment} {b : Block}

theorem wp_onManager {α : Type} {x : Exec Process α} {w : World} {m : HeapMemoryManager}
    (present : w.runtime.memoryManager = some m) (post : α → World → Prop) (exit : Stop → World → Prop) :
    Exec.wp (onManager x) post exit w ↔
      Exec.wp x (fun a p => post a (w.store p)) (fun e p => exit e (w.store p)) ⟨m, w.trace⟩ := by
  unfold Exec.wp
  rcases outcome : x ⟨m, w.trace⟩ with ⟨(e | a), p⟩ <;> rw [onManager_of present outcome]

theorem onManager_absent {α : Type} {x : Exec Process α} {w : World}
    (absent : w.runtime.memoryManager = none) : onManager x w = (.error .nullDereference, w) := by
  simp [onManager, absent]

theorem Lost.store {w : World} (lost : Lost b w) {m : HeapMemoryManager} {p : Process}
    (present : w.runtime.memoryManager = some m) (live : b ∈ Heap.live p.trace)
    (same : p.manager.this = m.this) : Lost b (w.store p) where
  live := live
  nonnull := lost.nonnull
  owned := lost.owned
  unreachable m' now owner := by
    cases now
    exact lost.unreachable m present (same.symm.trans owner)

theorem Lost.allocate {w : World} (lost : Lost b w) (size : UInt64) (useMmap : Bool) :
    Exec.wp (onManager (allocateWeights env noCallback size useMmap))
      (fun ptr w' => Lost b w' ∧ ptr ≠ b.addr) (fun _ w' => Lost b w') w := by
  cases present : w.runtime.memoryManager with
  | none =>
    rw [Exec.wp_of_error (onManager_absent present)]
    exact lost
  | some m =>
    rw [wp_onManager present]
    apply Exec.wp_mono (allocate_keeps_live (p := ⟨m, w.trace⟩) lost.live lost.nonnull size useMmap)
    · intro ptr p kept
      obtain ⟨live, same, other⟩ := kept
      exact ⟨lost.store present live same, other⟩
    · intro e p kept
      exact lost.store present kept.2.1 kept.2.2

theorem Lost.deallocate {w : World} (lost : Lost b w) {ptr : Addr}
    (other : ∀ m, w.runtime.memoryManager = some m → m.this = b.owner → ptr ≠ b.addr) :
    Exec.wp (onManager (deallocate env noCallback ptr)) (fun _ => Lost b) (fun _ => Lost b) w := by
  cases present : w.runtime.memoryManager with
  | none =>
    rw [Exec.wp_of_error (onManager_absent present)]
    exact lost
  | some m =>
    obtain ⟨p, result, live, same⟩ :=
      @deallocate_keeps_live env ⟨m, w.trace⟩ b ptr lost.live (other m present)
    rw [Exec.wp_of_ok (onManager_of present result)]
    exact lost.store present live same

theorem Lost.setRam {w : World} (lost : Lost b w) {ptr : Addr} (other : ptr ≠ b.addr) :
    Lost b (w.withRam ptr) :=
  ⟨lost.live, lost.nonnull, lost.owned, fun m now owner => ⟨other, (lost.unreachable m now owner).2⟩⟩

theorem Lost.setKv {w : World} (lost : Lost b w) {ptr : Addr} (other : ptr ≠ b.addr) :
    Lost b (w.withKv ptr) :=
  ⟨lost.live, lost.nonnull, lost.owned, fun m now owner => ⟨(lost.unreachable m now owner).1, other⟩⟩

theorem initializeRuntime_keeps_lost (modelPath : String) (detected : HardwareSpec) :
    Exec.Preserves (Lost b) (initializeRuntime modelPath detected) := by
  intro w lost
  refine ⟨lost.live, lost.nonnull, Nat.lt_succ_of_lt lost.owned, ?_⟩
  intro m now owner
  cases now
  exact absurd owner.symm (Nat.ne_of_lt lost.owned)

theorem releaseRam_keeps_lost : Exec.Preserves (Lost b) (releaseRam env) := by
  intro w lost
  rw [releaseRam, Exec.get_bind_apply]
  by_cases held : w.runtime.allocatedRamPtr ≠ nullptr
  · rw [if_pos held]
    apply Exec.wp_state_iff.mp
    rw [Exec.wp_bind]
    apply Exec.wp_mono (lost.deallocate fun m now owner => (lost.unreachable m now owner).1)
    · exact fun _ w' lost' => lost'.setRam lost.nonnull.symm
    · exact fun _ _ lost' => lost'
  · rw [if_neg held]
    exact lost

theorem releaseKv_keeps_lost : Exec.Preserves (Lost b) (releaseKv env) := by
  intro w lost
  rw [releaseKv, Exec.get_bind_apply]
  by_cases held : w.runtime.allocatedKvPtr ≠ nullptr
  · rw [if_pos held]
    apply Exec.wp_state_iff.mp
    rw [Exec.wp_bind]
    apply Exec.wp_mono (lost.deallocate fun m now owner => (lost.unreachable m now owner).2)
    · exact fun _ w' lost' => lost'.setKv lost.nonnull.symm
    · exact fun _ _ lost' => lost'
  · rw [if_neg held]
    exact lost

theorem setBackend_keeps_lost (backend : Option CPUBackend) :
    Exec.Preserves (Lost b) (setRuntime fun r => { r with backend := backend }) :=
  fun _ lost => ⟨lost.live, lost.nonnull, lost.owned, lost.unreachable⟩

theorem unloadBackendResources_keeps_lost : Exec.Preserves (Lost b) (unloadBackendResources env) :=
  releaseRam_keeps_lost.bind fun _ => releaseKv_keeps_lost.bind fun _ => setBackend_keeps_lost none

theorem createBackend_keeps_lost : Exec.Preserves (Lost b) (createBackend env) := by
  intro w lost
  rw [createBackend_apply]
  exact setBackend_keeps_lost _ w lost

theorem loadKv_keeps_lost {w : World} (lost : Lost b w) {ram : Addr} (other : ram ≠ b.addr)
    (tier : DeviceTier) : Exec.wp (loadKv env ram tier) (fun _ => Lost b) (fun _ => Lost b) w := by
  rw [loadKv, allocateKvCache, Exec.wp_bind]
  apply Exec.wp_mono (lost.allocate (kvSize tier) false)
  · intro kv w' kept
    have set : Lost b (w'.withKv kv) := kept.1.setKv kept.2
    rw [setRuntime, Exec.wp_bind, Exec.wp_modify]
    by_cases refused : kv = nullptr
    · rw [if_pos refused, Exec.wp_bind]
      apply Exec.wp_mono (set.deallocate fun _ _ _ => other)
      · exact fun _ w'' lost'' => lost''.setRam lost.nonnull.symm
      · exact fun _ _ lost'' => lost''
    · rw [if_neg refused, Exec.wp_state_iff]
      exact createBackend_keeps_lost _ set
  · exact fun _ _ lost' => lost'

theorem loadBackendResources_keeps_lost : Exec.Preserves (Lost b) (loadBackendResources env) := by
  intro w lost
  rw [load_eq]
  apply Exec.wp_state_iff.mp
  rw [Exec.wp_bind]
  apply Exec.wp_mono (lost.allocate (weightSize w.tier) true)
  · intro ram w' kept
    have set : Lost b (w'.withRam ram) := kept.1.setRam kept.2
    rw [setRuntime, Exec.wp_bind, Exec.wp_modify]
    by_cases refused : ram = nullptr
    · rw [if_pos refused]
      exact set
    · rw [if_neg refused]
      exact loadKv_keeps_lost set kept.2 w.tier
  · exact fun _ _ lost' => lost'

theorem Lost.kept (env : Environment) (b : Block) : Kept env (Lost b) where
  initializeRuntime := initializeRuntime_keeps_lost
  load := loadBackendResources_keeps_lost
  unload := unloadBackendResources_keeps_lost

end World

end LLM.Core

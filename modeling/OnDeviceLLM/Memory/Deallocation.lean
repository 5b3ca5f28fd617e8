import OnDeviceLLM.Memory.Ledger

namespace LLM.Memory

open Cxx

/-- A call of `deallocate` whose callback, if it is invoked, calls nothing. -/
structure Release where
  ptr : Addr
  throws : Bool

def Release.op (release : Release) : Op :=
  .deallocate release.ptr (if release.throws then .throws else .returns)

theorem Release.reaction_state (env : Environment) (release : Release) (s : Process) :
    ((if release.throws then Reaction.throws else .returns).exec env s).2 = s := by
  cases release.throws <;> rfl

section Erasing

variable {env : Environment} {s : Process}

/-- With distinct addresses, erasing the first entry at an address erases all of them. -/
theorem Sound.eraseP_eq_filter (sound : Sound s) (ptr : Addr) :
    s.manager.allocations.eraseP (fun p => p.1 = ptr) =
      s.manager.allocations.filter (fun p => p.1 ≠ ptr) := by
  cases known : s.manager.allocations.find? (fun p => p.1 = ptr) with
  | none =>
    have missed := List.find?_eq_none.mp known
    rw [List.eraseP_of_forall_not missed, List.filter_eq_self.mpr]
    intro entry member
    simpa using missed entry member
  | some entry =>
    obtain ⟨before, after, split, erased, missed, hit⟩ := find_split known
    have distinct := sound.distinct
    simp only [HeapMemoryManager.addresses, split, List.map_append, List.map_cons] at distinct
    have outside := (List.nodup_cons.mp (List.nodup_middle.mp distinct)).1
    have address : entry.1 = ptr := by simpa using hit
    have keptBefore : ∀ p ∈ before, decide (p.1 ≠ ptr) = true := by
      intro p member
      simpa using missed p member
    have keptAfter : ∀ p ∈ after, decide (p.1 ≠ ptr) = true := by
      intro p member
      simp only [ne_eq, decide_eq_true_eq]
      intro same
      apply outside
      rw [address, ← same, ← List.map_append]
      exact List.mem_map.mpr ⟨p, List.mem_append_right before member, rfl⟩
    rw [erased, split, List.filter_append, List.filter_cons_of_neg (by simp [address]),
      List.filter_eq_self.mpr keptBefore, List.filter_eq_self.mpr keptAfter]

/-- A deallocation takes the entries at its address out of the ledger, and nothing else. -/
theorem Release.exec_allocations (sound : Sound s) (release : Release) :
    (release.op.exec env s).2.manager.allocations =
      s.manager.allocations.filter (fun p => p.1 ≠ release.ptr) := by
  have erased := sound.eraseP_eq_filter release.ptr
  rw [Release.op, Op.exec]
  rcases deallocate_cases env (fun _ => (if release.throws then Reaction.throws else .returns).exec env) s
    release.ptr with ⟨unknown, result⟩ | ⟨size, known, result⟩
  · rw [result, ← erased, List.eraseP_of_forall_not (List.find?_eq_none.mp unknown)]
  · rw [result]
    by_cases registered : s.manager.pressureCallback = true
    · have notified := @notifyPressure_registered env
        (fun _ => (if release.throws then Reaction.throws else .returns).exec env)
        (s.release release.ptr size) registered
      rw [notified, Release.reaction_state, Process.announce_manager, Process.release_allocations, erased]
    · have notified := @notifyPressure_unregistered env
        (fun _ => (if release.throws then Reaction.throws else .returns).exec env)
        (s.release release.ptr size) (by simpa using registered)
      rw [notified, Process.announce_manager, Process.release_allocations, erased]

theorem run_releases (releases : List Release) : ∀ s : Process, Sound s →
    (run env (releases.map Release.op) s).manager.allocations =
      s.manager.allocations.filter (fun p => p.1 ∉ releases.map Release.ptr) := by
  induction releases with
  | nil =>
    intro s _
    simp [run]
  | cons release releases ih =>
    intro s sound
    have after : Sound (release.op.exec env s).2 := sound.steps (release.op.exec_steps env s)
    rw [List.map_cons, run, ih _ after, release.exec_allocations sound, List.filter_filter]
    apply List.filter_congr
    intro p _
    simp only [List.map_cons, List.mem_cons, not_or, ne_eq, Bool.decide_and]
    exact Bool.and_comm _ _

/-- The counter is a function of the ledger. -/
theorem Sound.allocated_eq {t : Process} (sound : Sound s) (sound' : Sound t)
    (same : t.manager.allocations = s.manager.allocations) : t.manager.allocated = s.manager.allocated := by
  rw [← UInt64.toNat_inj, sound.counted, sound'.counted, HeapMemoryManager.ledgerBytes, same,
    HeapMemoryManager.ledgerBytes]

end Erasing

/-- Deallocating along two orders of one list leaves the same counter and the same ledger, and
    nothing at all when the list has every address of the ledger. -/
theorem deallocation_order_independent (env : Environment) (this : Nat) (maxMemoryBytes : UInt64)
    (callable : Bool) (ops : List Op) (first second : List Release)
    (reordered : (first.map Release.ptr).Perm (second.map Release.ptr)) :
    let s := run env ops (Process.start this maxMemoryBytes callable)
    let m := (run env (first.map Release.op) s).manager
    let m' := (run env (second.map Release.op) s).manager
    m.allocations = s.manager.allocations.filter (fun p => p.1 ∉ first.map Release.ptr) ∧
    m'.allocations = m.allocations ∧ m'.allocated = m.allocated ∧
    ((∀ ptr ∈ s.manager.addresses, ptr ∈ first.map Release.ptr) →
      m.allocations = [] ∧ m.allocated = 0 ∧ (getStats env m).freeBytes = (getStats env m).totalBytes) := by
  intro s m m'
  have sound : Sound s := run_sound env this maxMemoryBytes callable ops
  have along := @run_releases env first s sound
  have along' := @run_releases env second s sound
  have sound₁ : Sound (run env (first.map Release.op) s) := sound.steps (run_steps env _ s)
  have sound₂ : Sound (run env (second.map Release.op) s) := sound.steps (run_steps env _ s)
  have same : m'.allocations = m.allocations := by
    rw [along, along']
    apply List.filter_congr
    intro p _
    simp only [reordered.mem_iff]
  refine ⟨along, same, sound₁.allocated_eq sound₂ same, fun complete => ?_⟩
  have empty : m.allocations = [] := by
    rw [along, List.filter_eq_nil_iff]
    intro p member kept
    have listed := complete p.1 (List.mem_map_of_mem member)
    simp only [decide_eq_true_eq] at kept
    exact kept listed
  have zero : m.allocated = 0 := by
    rw [← UInt64.toNat_inj, sound₁.counted, HeapMemoryManager.ledgerBytes, empty]
    rfl
  refine ⟨empty, zero, ?_⟩
  rw [getStats, zero]
  exact UInt64.sub_zero _

def threeBlocks : List Op :=
  [.allocate (.weights 200 true) .returns, .allocate (.temp 100) .returns, .allocate (.kvCache 50 .none) .returns]

/-- With a duplicate, a null and an unknown pointer. -/
def ascending : List Release := [⟨0, false⟩, ⟨1, false⟩, ⟨1, false⟩, ⟨3, true⟩, ⟨9, false⟩]

def scattered : List Release := [⟨1, false⟩, ⟨9, false⟩, ⟨3, false⟩, ⟨0, false⟩, ⟨1, true⟩]

theorem deallocation_order_independent_scattered :
    (run (.bump fun _ _ => true) (scattered.map Release.op)
        (run (.bump fun _ _ => true) threeBlocks (Process.start 0 1000 true))).manager.allocated =
      (run (.bump fun _ _ => true) (ascending.map Release.op)
        (run (.bump fun _ _ => true) threeBlocks (Process.start 0 1000 true))).manager.allocated :=
  (deallocation_order_independent (.bump fun _ _ => true) 0 1000 true threeBlocks ascending scattered
    (by decide)).2.2.1

end LLM.Memory

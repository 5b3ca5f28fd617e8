import OnDeviceLLM.Memory.Ledger

namespace LLM.Memory

open Cxx

/-- The implicit destructor: `allocations_` goes away, and destroying a `void*` releases
    nothing. -/
def HeapMemoryManager.destroy (s : Process) : Trace := s.trace

def Event.isGrowthFailure : Event → Bool
  | .note .growthFailed => true
  | _ => false

def growthFailures (t : Trace) : Nat := t.countP Event.isGrowthFailure

/-- Every block of the owner has been deleted exactly once, and nothing else has been. -/
def DeletedOnce (owner : Nat) (t : Trace) : Prop :=
  Heap.Disciplined t ∧ ∀ ptr, Heap.newCount owner ptr t = Heap.deleteCount owner ptr t

/-- A live block is in the ledger or was given up when the ledger could not grow. -/
structure Accounted (s : Process) : Prop where
  sound : Sound s
  owners : ∀ b ∈ Heap.live s.trace, b.owner = s.manager.this
  counted : (Heap.live s.trace).length = s.manager.allocations.length + growthFailures s.trace

theorem growthFailures_announce (env : Environment) (s : Process) :
    growthFailures (s.announce env).trace = growthFailures s.trace := by
  unfold Process.announce
  split <;> rfl

namespace Accounted

variable {env : Environment} {s : Process}

theorem announce (accounted : Accounted s) : Accounted (s.announce env) where
  sound := accounted.sound.announce
  owners := by simpa using accounted.owners
  counted := by simpa [growthFailures_announce] using accounted.counted

theorem enroll (accounted : Accounted s) {size : UInt64} {ptr : Addr}
    (obtained : env.new s.trace size.toNat = some ptr) : Accounted (s.enroll ptr size) where
  sound := accounted.sound.enroll obtained
  owners := by
    intro b member
    rcases List.mem_append.mp member with old | new
    · exact accounted.owners b old
    · rw [List.mem_singleton.mp new]
      rfl
  counted := by
    have counted := accounted.counted
    have same : growthFailures (s.enroll ptr size).trace = growthFailures s.trace := rfl
    simp only [Process.enroll_allocations, Process.enroll_trace, Heap.live_new, List.length_append] at same ⊢
    simp only [List.length_singleton]
    omega

theorem abandon (accounted : Accounted s) {size : UInt64} {ptr : Addr}
    (obtained : env.new s.trace size.toNat = some ptr) : Accounted (s.abandon ptr size) where
  sound := accounted.sound.abandon obtained
  owners := by
    intro b member
    rcases List.mem_append.mp member with old | new
    · exact accounted.owners b old
    · rw [List.mem_singleton.mp new]
      rfl
  counted := by
    have counted := accounted.counted
    have one : growthFailures (s.abandon ptr size).trace = growthFailures s.trace + 1 := by
      simp [growthFailures, List.countP_cons, Event.isGrowthFailure]
    simp only [Process.abandon_manager, Process.abandon_trace, Heap.live_note, Heap.live_new,
      List.length_append, List.length_singleton] at one ⊢
    omega

theorem release (accounted : Accounted s) {ptr : Addr} {size : UInt64}
    (known : s.manager.allocations.find? (fun p => p.1 = ptr) = some (ptr, size)) :
    Accounted (s.release ptr size) where
  sound := accounted.sound.release known
  owners := by
    intro b member
    exact accounted.owners b (List.mem_of_mem_eraseP member)
  counted := by
    have counted := accounted.counted
    have entry : (ptr, size) ∈ s.manager.allocations := List.mem_of_find?_eq_some known
    have owned := accounted.sound.of_ledger_entry entry
    have fewer : ((Heap.live s.trace).eraseP fun b => b.owner = s.manager.this ∧ b.addr = ptr).length =
        (Heap.live s.trace).length - 1 := List.length_eraseP_of_mem owned (by simp)
    have shorter : (s.manager.allocations.eraseP fun p => p.1 = ptr).length =
        s.manager.allocations.length - 1 := List.length_eraseP_of_mem entry (by simp)
    have same : growthFailures (s.release ptr size).trace = growthFailures s.trace := rfl
    have positive := List.length_pos_of_mem entry
    simp only [Process.release_allocations, Process.release_trace, Heap.live_delete] at same ⊢
    omega

theorem step {s' : Process} (taken : Step env s s') (accounted : Accounted s) : Accounted s' := by
  cases taken with
  | newFailed size _ _ => exact ⟨accounted.sound.newFailed _, accounted.owners, accounted.counted⟩
  | abandoned size ptr _ obtained _ => exact accounted.abandon obtained
  | allocated size ptr _ obtained => exact (accounted.enroll obtained).announce
  | deallocated ptr size known => exact (accounted.release known).announce

/-- With every block accounted for, everything has been deleted exactly when nothing is live. -/
theorem deletedOnce_iff (accounted : Accounted s) :
    DeletedOnce s.manager.this s.trace ↔ Heap.live s.trace = [] := by
  have law := accounted.sound.disciplined.conservation s.manager.this
  constructor
  · intro deleted
    by_contra held
    obtain ⟨b, member⟩ := List.exists_mem_of_ne_nil _ held
    have present : 0 < (Heap.live s.trace).countP fun c => c.owner = s.manager.this ∧ c.addr = b.addr :=
      List.countP_pos_iff.mpr ⟨b, member, by simp [accounted.owners b member]⟩
    have balanced := deleted.2 b.addr
    have total := law b.addr
    omega
  · intro empty
    refine ⟨accounted.sound.disciplined, fun ptr => ?_⟩
    rw [law ptr, empty]
    rfl

end Accounted

/-- A destroyed manager has deleted all its blocks exactly when its ledger was empty and had
    never failed to grow. -/
theorem blocks_deleted_iff (env : Environment) (this : Nat) (maxMemoryBytes : UInt64) (callable : Bool)
    (ops : List Op) :
    let s := run env ops (Process.start this maxMemoryBytes callable)
    DeletedOnce this (HeapMemoryManager.destroy s) ↔
      s.manager.allocations = [] ∧ growthFailures s.trace = 0 := by
  intro s
  have accounted : Accounted s :=
    run_invariant (fun _ _ taken accounted => accounted.step taken) ops _
      ⟨.start this maxMemoryBytes callable, fun _ member => absurd member List.not_mem_nil, rfl⟩
  have owner : s.manager.this = this := (run_steps env ops _).this_eq
  have law := accounted.deletedOnce_iff
  have counted := accounted.counted
  rw [owner] at law
  rw [HeapMemoryManager.destroy, law, ← List.length_eq_zero_iff, ← List.length_eq_zero_iff, counted]
  omega

theorem blocks_not_deleted :
    ¬ DeletedOnce 0 (HeapMemoryManager.destroy
      (run (.bump fun _ _ => true) [.allocate (.weights 200 true) .returns] (Process.start 0 1000 false))) := by
  intro deleted
  exact absurd (deleted.2 1) (by decide +kernel)

end LLM.Memory

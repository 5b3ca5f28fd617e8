import OnDeviceLLM.Memory.Runs

namespace LLM.Memory

open Cxx

def HeapMemoryManager.addresses (m : HeapMemoryManager) : List Addr := m.allocations.map Prod.fst

def HeapMemoryManager.ledgerBytes (m : HeapMemoryManager) : Nat :=
  (m.allocations.map fun p => p.2.toNat).sum

def HeapMemoryManager.blocks (m : HeapMemoryManager) : List Block :=
  m.allocations.map fun p => ⟨m.this, p.1, p.2.toNat⟩

theorem find_split {α : Type} {p : α → Bool} {l : List α} {b : α} (found : l.find? p = some b) :
    ∃ before after, l = before ++ b :: after ∧ l.eraseP p = before ++ after ∧
      (∀ a ∈ before, ¬ p a) ∧ p b := by
  obtain ⟨hit, before, after, split, missed⟩ := List.find?_eq_some_iff_append.mp found
  have misses : ∀ a ∈ before, ¬ p a := fun a member => by simpa using missed a member
  refine ⟨before, after, split, ?_, misses, hit⟩
  rw [split, List.eraseP_append_right _ misses, List.eraseP_cons_of_pos hit]

/-- What holds of a manager in its process whether or not the ledger can always grow. -/
structure Sound (s : Process) : Prop where
  disciplined : Heap.Disciplined s.trace
  held : ∀ b ∈ s.manager.blocks, b ∈ Heap.live s.trace
  distinct : s.manager.addresses.Nodup
  counted : s.manager.allocated.toNat = s.manager.ledgerBytes % 2^64

namespace Sound

variable {env : Environment} {s : Process}

theorem start (this : Nat) (maxMemoryBytes : UInt64) (callable : Bool) :
    Sound (Process.start this maxMemoryBytes callable) where
  disciplined := trivial
  held _ member := absurd member List.not_mem_nil
  distinct := List.nodup_nil
  counted := rfl

theorem of_ledger_entry (sound : Sound s) {ptr : Addr} {size : UInt64}
    (member : (ptr, size) ∈ s.manager.allocations) :
    ⟨s.manager.this, ptr, size.toNat⟩ ∈ Heap.live s.trace :=
  sound.held _ (List.mem_map.mpr ⟨(ptr, size), member, rfl⟩)

theorem fresh_not_in_ledger (sound : Sound s) {size : UInt64} {ptr : Addr}
    (obtained : env.new s.trace size.toNat = some ptr) : ptr ∉ s.manager.addresses := by
  intro member
  obtain ⟨entry, inside, rfl⟩ := List.mem_map.mp member
  exact env.new_fresh _ _ _ obtained _ (sound.of_ledger_entry inside) rfl

theorem announce (sound : Sound s) : Sound (s.announce env) where
  disciplined := (Process.disciplined_announce env s).mpr sound.disciplined
  held := by simpa using sound.held
  distinct := by simpa using sound.distinct
  counted := by simpa using sound.counted

theorem newFailed (sound : Sound s) (size : Nat) : Sound (s.log (.newFailed s.manager.this size)) where
  disciplined := sound.disciplined
  held := sound.held
  distinct := sound.distinct
  counted := sound.counted

theorem abandon (sound : Sound s) {size : UInt64} {ptr : Addr}
    (obtained : env.new s.trace size.toNat = some ptr) : Sound (s.abandon ptr size) where
  disciplined := ⟨env.new_ne_null _ _ _ obtained, env.new_fresh _ _ _ obtained, sound.disciplined⟩
  held b member := List.mem_append_left _ (sound.held b member)
  distinct := sound.distinct
  counted := sound.counted

theorem enroll (sound : Sound s) {size : UInt64} {ptr : Addr}
    (obtained : env.new s.trace size.toNat = some ptr) : Sound (s.enroll ptr size) where
  disciplined := ⟨env.new_ne_null _ _ _ obtained, env.new_fresh _ _ _ obtained, sound.disciplined⟩
  held b member := by
    simp only [HeapMemoryManager.blocks, Process.enroll_allocations, Process.enroll_this,
      List.map_append, List.map_cons, List.map_nil] at member
    rw [Process.enroll_trace, Heap.live_new]
    rcases List.mem_append.mp member with old | new
    · exact List.mem_append_left _ (sound.held b old)
    · exact List.mem_append_right _ new
  distinct := by
    have fresh := sound.fresh_not_in_ledger obtained
    simp only [HeapMemoryManager.addresses, Process.enroll_allocations, List.map_append,
      List.map_cons, List.map_nil] at fresh ⊢
    refine List.nodup_append.mpr ⟨sound.distinct, by simp, ?_⟩
    intro a inside b new same
    rw [List.mem_singleton.mp new] at same
    exact fresh (same ▸ inside)
  counted := by
    have counted := sound.counted
    simp only [HeapMemoryManager.ledgerBytes, Process.enroll_allocated, Process.enroll_allocations,
      List.map_append, List.map_cons, List.map_nil, List.sum_append, List.sum_cons, List.sum_nil,
      UInt64.toNat_add] at counted ⊢
    omega

theorem release (sound : Sound s) {ptr : Addr} {size : UInt64}
    (known : s.manager.allocations.find? (fun p => p.1 = ptr) = some (ptr, size)) :
    Sound (s.release ptr size) := by
  obtain ⟨before, after, split, erased, _, _⟩ := find_split known
  have member : (ptr, size) ∈ s.manager.allocations := by simp [split]
  have owned := sound.of_ledger_entry member
  have distinct := sound.distinct
  simp only [HeapMemoryManager.addresses, split, List.map_append, List.map_cons] at distinct
  obtain ⟨outside, rest⟩ := List.nodup_cons.mp (List.nodup_middle.mp distinct)
  constructor
  case disciplined => exact ⟨⟨_, owned, rfl, rfl⟩, sound.disciplined⟩
  case held =>
    intro b kept
    simp only [HeapMemoryManager.blocks, Process.release_allocations, Process.release_this,
      erased] at kept
    obtain ⟨entry, inside, rfl⟩ := List.mem_map.mp kept
    -- the erased entry is the only one with this address, so what is kept stays live
    rw [Process.release_trace, sound.disciplined.mem_live_delete]
    refine ⟨sound.of_ledger_entry ?_, ?_⟩
    · rw [split]
      rcases List.mem_append.mp inside with h | h <;> simp [h]
    · intro named
      apply outside
      rw [← List.map_append]
      exact List.mem_map.mpr ⟨entry, inside, named.2⟩
  case distinct =>
    simp only [HeapMemoryManager.addresses, Process.release_allocations, erased, List.map_append]
    exact rest
  case counted =>
    have counted := sound.counted
    have bound := size.toNat_lt
    simp only [HeapMemoryManager.ledgerBytes, Process.release_allocated, Process.release_allocations,
      erased]
    simp only [HeapMemoryManager.ledgerBytes, split] at counted
    simp only [List.map_append, List.map_cons, List.sum_append, List.sum_cons,
      UInt64.toNat_sub] at counted ⊢
    omega

theorem step {s' : Process} (sound : Sound s) (taken : Step env s s') : Sound s' := by
  cases taken with
  | newFailed size _ _ => exact sound.newFailed _
  | abandoned size ptr _ obtained _ => exact sound.abandon obtained
  | allocated size ptr _ obtained => exact (sound.enroll obtained).announce
  | deallocated ptr size known => exact (sound.release known).announce

theorem steps {s' : Process} (sound : Sound s) (path : Steps env s s') : Sound s' := by
  induction path with
  | refl => exact sound
  | tail _ last ih => exact ih.step last

end Sound

/-- The heap holds `others`, which no operation of this manager touches, and beyond them
    exactly the ledger. -/
structure Represents (others : List Block) (s : Process) : Prop where
  foreign : ∀ b ∈ others, b.owner ≠ s.manager.this
  exact : Heap.live s.trace = others ++ s.manager.blocks

namespace Represents

variable {env : Environment} {others : List Block} {s : Process}

theorem enroll (represents : Represents others s) (ptr : Addr) (size : UInt64) :
    Represents others (s.enroll ptr size) where
  foreign := represents.foreign
  exact := by
    simp [HeapMemoryManager.blocks, represents.exact]

theorem release (represents : Represents others s) {ptr : Addr} {size : UInt64}
    (known : s.manager.allocations.find? (fun p => p.1 = ptr) = some (ptr, size)) :
    Represents others (s.release ptr size) where
  foreign := represents.foreign
  exact := by
    have untouched : ∀ b ∈ others, ¬ (decide (b.owner = s.manager.this ∧ b.addr = ptr) = true) := by
      intro b member hit
      exact represents.foreign b member (by simpa using hit : _ ∧ _).1
    obtain ⟨before, after, split, erased, missed, _⟩ := find_split known
    have skipped : ∀ b ∈ before.map (fun p => (⟨s.manager.this, p.1, p.2.toNat⟩ : Block)),
        ¬ (decide (b.owner = s.manager.this ∧ b.addr = ptr) = true) := by
      intro b member
      obtain ⟨entry, inside, rfl⟩ := List.mem_map.mp member
      simpa using missed entry inside
    rw [Process.release_trace, Heap.live_delete, represents.exact,
      List.eraseP_append_right _ untouched]
    simp only [HeapMemoryManager.blocks, Process.release_allocations, Process.release_this, erased]
    simp only [split, List.map_append, List.map_cons]
    rw [List.eraseP_append_right _ skipped, List.eraseP_cons_of_pos (by simp)]

theorem step (grows : ∀ t, env.grow t = true) {s' : Process} (taken : Step env s s')
    (represents : Represents others s) : Represents others s' := by
  cases taken with
  | newFailed size _ _ => exact ⟨represents.foreign, represents.exact⟩
  | abandoned size ptr _ _ stuck => rw [grows] at stuck; cases stuck
  | allocated size ptr _ _ =>
    have after := represents.enroll ptr size
    exact ⟨by simpa using after.foreign, by simpa using after.exact⟩
  | deallocated ptr size known =>
    have after := represents.release known
    exact ⟨by simpa using after.foreign, by simpa using after.exact⟩

theorem steps (grows : ∀ t, env.grow t = true) {s' : Process} (represents : Represents others s)
    (path : Steps env s s') : Represents others s' := by
  induction path with
  | refl => exact represents
  | tail _ last ih => exact ih.step grows last

end Represents

theorem deallocate_not_in_ledger (env : Environment) (callback : PressureCallback) {s : Process} {ptr : Addr}
    (absent : ptr ∉ s.manager.addresses) : deallocate env callback ptr s = (.ok (), s) := by
  apply deallocate_unknown
  rw [List.find?_eq_none]
  intro entry member same
  exact absent (List.mem_map.mpr ⟨entry, member, by simpa using same⟩)

theorem blocks_countP (m : HeapMemoryManager) (ptr : Addr) :
    m.blocks.countP (fun b => b.owner = m.this ∧ b.addr = ptr) = m.addresses.count ptr := by
  rw [HeapMemoryManager.blocks, HeapMemoryManager.addresses, List.count, List.countP_map,
    List.countP_map]
  congr 1
  funext p
  simp only [Function.comp_apply, true_and]
  exact (beq_eq_decide p.1 ptr).symm

theorem run_sound (env : Environment) (this : Nat) (maxMemoryBytes : UInt64) (callable : Bool)
    (ops : List Op) : Sound (run env ops (Process.start this maxMemoryBytes callable)) :=
  (Sound.start this maxMemoryBytes callable).steps (run_steps env ops _)

theorem run_represents (env : Environment) (grows : ∀ t, env.grow t = true) (this : Nat)
    (maxMemoryBytes : UInt64) (callable : Bool) (ops : List Op) :
    Represents [] (run env ops (Process.start this maxMemoryBytes callable)) :=
  run_invariant (fun _ _ taken represents => represents.step grows taken) ops _
    ⟨fun _ member => absurd member List.not_mem_nil, rfl⟩

/-- Counter, ledger and heap stay in step over every run: the ledger is the list of live
    blocks, every `delete[]` hits one of them, and each block is deleted at most once and
    only then leaves. -/
theorem run_ledger_discipline (env : Environment) (grows : ∀ t, env.grow t = true) (this : Nat)
    (maxMemoryBytes : UInt64) (callable : Bool) (ops : List Op) :
    let s := run env ops (Process.start this maxMemoryBytes callable)
    s.manager.addresses.Nodup ∧ nullptr ∉ s.manager.addresses ∧
    Heap.live s.trace = s.manager.blocks ∧
    s.manager.allocated.toNat = s.manager.ledgerBytes % 2^64 ∧
    Heap.Disciplined s.trace ∧
    (∀ ptr, Heap.newCount s.manager.this ptr s.trace =
      Heap.deleteCount s.manager.this ptr s.trace + s.manager.addresses.count ptr) ∧
    ∀ callback ptr, ptr ∉ s.manager.addresses → deallocate env callback ptr s = (.ok (), s) := by
  intro s
  have sound : Sound s := run_sound env this maxMemoryBytes callable ops
  have represents : Represents [] s := run_represents env grows this maxMemoryBytes callable ops
  have exact : Heap.live s.trace = s.manager.blocks := by simpa using represents.exact
  refine ⟨sound.distinct, ?_, exact, sound.counted, sound.disciplined, ?_, ?_⟩
  · intro member
    obtain ⟨entry, inside, null⟩ := List.mem_map.mp member
    exact sound.disciplined.addr_ne_null _ (sound.of_ledger_entry inside) null
  · intro ptr
    have law := sound.disciplined.conservation s.manager.this ptr
    rw [exact, blocks_countP] at law
    exact law
  · intro callback ptr absent
    exact deallocate_not_in_ledger env callback absent

/-- An address is handed out again after its release, and its stale pointer is released
    twice more. -/
def reuseOps : List Op :=
  [.allocate (.weights 200 true) .returns, .deallocate 1 .returns,
    .allocate (.temp 100) (.call false (.allocate (.kvCache 50 .none) .throws) .returns),
    .deallocate 1 .returns, .deallocate 1 .returns, .deallocate nullptr .returns]

theorem run_ledger_discipline_reuse :
    Heap.live (run (.bump fun _ _ => true) reuseOps (Process.start 0 1000 true)).trace =
      (run (.bump fun _ _ => true) reuseOps (Process.start 0 1000 true)).manager.blocks ∧
    (run (.bump fun _ _ => true) reuseOps (Process.start 0 1000 true)).manager.allocations =
      [(2, 50)] := by
  have law := run_ledger_discipline (.bump fun _ _ => true) (fun _ => rfl) 0 1000 true reuseOps
  exact ⟨law.2.2.1, by decide +kernel⟩

end LLM.Memory

import OnDeviceLLM.Memory.Ledger

namespace LLM.Memory

open Cxx

/-- The call gives no block to its caller. -/
def Unreturned (outcome : Except Stop Addr) : Prop := ∀ ptr, outcome = .ok ptr → ptr = nullptr

theorem Unreturned.of_error (e : Stop) : Unreturned (.error e) := by
  intro ptr returned
  cases returned

/-- The ledger is as it was, and what has been obtained since has been deleted. -/
structure Atomic (s s' : Process) : Prop where
  allocated : s'.manager.allocated = s.manager.allocated
  allocations : s'.manager.allocations = s.manager.allocations
  deleted : ∃ events, s'.trace = events ++ s.trace ∧ Heap.live events = []

/-- The callback returns from the delivery of every block that is handed out. -/
def Completes (env : Environment) (s : Process) (size : UInt64) (reaction : Reaction) : Prop :=
  s.manager.pressureCallback = true → ¬ s.manager.Refuses size → ∀ ptr ∈ env.new s.trace size.toNat,
    ∃ s', reaction.exec env ((s.enroll ptr size).announce env) = (.ok (), s')

mutual
/-- The address is never given to `deallocate`. -/
def Op.Spares (ptr : Addr) : Op → Prop
  | .allocate _ reaction => reaction.Spares ptr
  | .deallocate ptr' reaction => ptr' ≠ ptr ∧ reaction.Spares ptr

def Reaction.Spares (ptr : Addr) : Reaction → Prop
  | .returns => True
  | .throws => True
  | .call _ op rest => op.Spares ptr ∧ rest.Spares ptr
end

def Listed (ptr : Addr) (s : Process) : Prop := ptr ∈ s.manager.addresses

section Spared

variable {env : Environment} {ptr : Addr} {callback : PressureCallback}

theorem Listed.announce {s : Process} (listed : Listed ptr s) : Listed ptr (s.announce env) := by
  rw [Listed, Process.announce_manager]
  exact listed

theorem notifyPressure_keeps_listed (reaction : ∀ level, Exec.Preserves (Listed ptr) (callback level)) :
    Exec.Preserves (Listed ptr) (notifyPressure env callback) := by
  intro s listed
  by_cases registered : s.manager.pressureCallback = true
  · rw [notifyPressure_registered registered]
    exact reaction _ _ listed.announce
  · rw [notifyPressure_unregistered (by simpa using registered)]
    exact listed.announce

theorem Request.allocate_keeps_listed (reaction : ∀ level, Exec.Preserves (Listed ptr) (callback level))
    (request : Request) : Exec.Preserves (Listed ptr) (request.allocate env callback) := by
  intro s listed
  rcases request.allocate_cases env callback s with
    ⟨_, result⟩ | ⟨_, _, result⟩ | ⟨_, _, _, _, result⟩ | ⟨ptr', _, _, _, result⟩
  · rw [result]
    exact listed
  · rw [result]
    exact listed
  · rw [result]
    exact listed
  · have enrolled : Listed ptr (s.enroll ptr' request.size) := by
      rw [Listed, HeapMemoryManager.addresses, Process.enroll_allocations, List.map_append]
      exact List.mem_append_left _ listed
    rw [result, Exec.bind_pure_state]
    exact notifyPressure_keeps_listed reaction _ enrolled

theorem deallocate_keeps_listed (reaction : ∀ level, Exec.Preserves (Listed ptr) (callback level)) {ptr' : Addr}
    (other : ptr' ≠ ptr) : Exec.Preserves (Listed ptr) (deallocate env callback ptr') := by
  intro s listed
  rcases deallocate_cases env callback s ptr' with ⟨_, result⟩ | ⟨size, _, result⟩
  · rw [result]
    exact listed
  · have kept : Listed ptr (s.release ptr' size) := by
      obtain ⟨entry, member, here⟩ := List.mem_map.mp listed
      refine List.mem_map.mpr ⟨entry, ?_, here⟩
      rw [Process.release_allocations]
      exact (List.mem_eraseP_of_neg (by simpa [here] using other.symm)).mpr member
    rw [result]
    exact notifyPressure_keeps_listed reaction _ kept

mutual
theorem Op.keeps_listed : ∀ op : Op, op.Spares ptr → Exec.Preserves (Listed ptr) (op.exec env)
  | .allocate request reaction, spares =>
    (request.allocate_keeps_listed fun _ => Reaction.keeps_listed reaction spares).bind fun _ => .pure ()
  | .deallocate _ reaction, spares =>
    deallocate_keeps_listed (fun _ => Reaction.keeps_listed reaction spares.2) spares.1

theorem Reaction.keeps_listed : ∀ reaction : Reaction, reaction.Spares ptr →
    Exec.Preserves (Listed ptr) (reaction.exec env)
  | .returns, _ => .pure ()
  | .throws, _ => .stop _
  | .call guarded op rest, spares => by
    have first : Exec.Preserves (Listed ptr) (if guarded then Exec.attempt (op.exec env) else op.exec env) := by
      intro s listed
      rw [Reaction.guarded_state]
      exact Op.keeps_listed op spares.1 s listed
    exact first.bind fun _ => Reaction.keeps_listed rest spares.2
end

end Spared

section Call

variable {env : Environment} {s : Process} {request : Request} {reaction : Reaction}

theorem not_atomic_abandon (ptr : Addr) (size : UInt64) : ¬ Atomic s (s.abandon ptr size) := by
  intro atomic
  obtain ⟨events, logged, none⟩ := atomic.deleted
  have same : events = [.note .growthFailed, .new s.manager.this ptr size.toNat] :=
    List.append_cancel_right (logged.symm.trans (Process.abandon_trace s ptr size))
  rw [same] at none
  cases none

theorem enrolled_outcome (ptr : Addr) :
    (notifyPressure env (fun _ => reaction.exec env) >>= fun _ => pure ptr) (s.enroll ptr request.size) =
      if s.manager.pressureCallback then
        (reaction.exec env >>= fun _ => pure ptr) ((s.enroll ptr request.size).announce env)
      else (.ok ptr, (s.enroll ptr request.size).announce env) := by
  by_cases registered : s.manager.pressureCallback = true
  · rw [if_pos registered]
    have notified : notifyPressure env (fun _ => reaction.exec env) (s.enroll ptr request.size) =
        reaction.exec env ((s.enroll ptr request.size).announce env) := notifyPressure_registered registered
    rw [Exec.bind_apply, Exec.bind_apply, notified]
  · rw [if_neg registered]
    exact Exec.bind_of_ok (notifyPressure_unregistered (by simpa using registered))

theorem allocate_atomic (grows : s.Grows env request.size) (completes : Completes env s request.size reaction)
    (unreturned : Unreturned (request.allocate env (fun _ => reaction.exec env) s).1) :
    Atomic s (request.allocate env (fun _ => reaction.exec env) s).2 := by
  rcases request.allocate_cases env (fun _ => reaction.exec env) s with
    ⟨_, result⟩ | ⟨_, _, result⟩ | ⟨ptr, admitted, obtained, stuck, _⟩ | ⟨ptr, admitted, obtained, _, result⟩
  · rw [result]
    exact ⟨rfl, rfl, [], rfl, rfl⟩
  · rw [result]
    exact ⟨rfl, rfl, [_], rfl, rfl⟩
  · exact absurd ((grows admitted ptr obtained).symm.trans stuck) nofun
  · rw [result, enrolled_outcome] at unreturned
    have nonnull := env.new_ne_null _ _ _ obtained
    by_cases registered : s.manager.pressureCallback = true
    · obtain ⟨s', returned⟩ := completes registered admitted ptr obtained
      rw [if_pos registered, Exec.bind_of_ok returned] at unreturned
      exact absurd (unreturned ptr rfl) nonnull
    · rw [if_neg registered] at unreturned
      exact absurd (unreturned ptr rfl) nonnull

theorem grows_of_atomic (atomic : Unreturned (request.allocate env (fun _ => reaction.exec env) s).1 →
    Atomic s (request.allocate env (fun _ => reaction.exec env) s).2) : s.Grows env request.size := by
  intro admitted ptr obtained
  by_contra stuck
  have stuck : env.grow (.new s.manager.this ptr request.size.toNat :: s.trace) = false := by simpa using stuck
  have result : request.allocate env (fun _ => reaction.exec env) s =
      (.error (.threw .badAlloc), s.abandon ptr request.size) :=
    request.allocate_eq.symm ▸ allocateWeights_growthFailed admitted obtained stuck
  rw [result] at atomic
  exact not_atomic_abandon ptr request.size (atomic (.of_error _))

/-- A callback that throws and has not given the block back leaves it in the ledger. -/
theorem completes_of_atomic (atomic : Unreturned (request.allocate env (fun _ => reaction.exec env) s).1 →
    Atomic s (request.allocate env (fun _ => reaction.exec env) s).2) (sound : Sound s)
    (spares : ∀ ptr ∈ env.new s.trace request.size.toNat, reaction.Spares ptr) :
    Completes env s request.size reaction := by
  intro registered admitted ptr obtained
  have grown := grows_of_atomic atomic admitted ptr obtained
  have result : request.allocate env (fun _ => reaction.exec env) s = _ :=
    request.allocate_eq.symm ▸ allocateWeights_admitted admitted obtained grown
  rcases reacted : reaction.exec env ((s.enroll ptr request.size).announce env) with ⟨(e | a), s'⟩
  · have listed : Listed ptr ((s.enroll ptr request.size).announce env) := by
      apply Listed.announce
      simp [Listed, HeapMemoryManager.addresses]
    have kept := @Reaction.keeps_listed env ptr reaction (spares ptr obtained) _ listed
    rw [result, enrolled_outcome, if_pos registered, Exec.bind_of_error reacted] at atomic
    have unchanged := (atomic (.of_error _)).allocations
    rw [reacted, Listed, HeapMemoryManager.addresses, unchanged] at kept
    exact absurd kept (sound.fresh_not_in_ledger obtained)
  · exact ⟨s', rfl⟩

end Call

/-- In every reachable state, a failed allocation is atomic where nothing fails after `new[]` has
    succeeded: the ledger grows, and the callback returns. Unless the callback gives the new block
    back itself, it is atomic nowhere else. -/
theorem failed_allocation_atomic_iff (env : Environment) (this : Nat) (maxMemoryBytes : UInt64)
    (callable : Bool) (ops : List Op) (request : Request) (reaction : Reaction) :
    let s := run env ops (Process.start this maxMemoryBytes callable)
    let outcome := request.allocate env (fun _ => reaction.exec env) s
    (s.Grows env request.size ∧ Completes env s request.size reaction →
      Unreturned outcome.1 → Atomic s outcome.2) ∧
    ((∀ ptr ∈ env.new s.trace request.size.toNat, reaction.Spares ptr) →
      (Unreturned outcome.1 → Atomic s outcome.2) →
        s.Grows env request.size ∧ Completes env s request.size reaction) := by
  intro s outcome
  have sound := run_sound env this maxMemoryBytes callable ops
  exact ⟨fun both => allocate_atomic both.1 both.2,
    fun spares atomic => ⟨grows_of_atomic atomic, completes_of_atomic atomic sound spares⟩⟩

/-- The callback gives an older block back. -/
theorem failed_allocation_atomic_returns :
    let s := run (.bump fun _ _ => true) [.allocate (.temp 400) .returns] (Process.start 0 1000 true)
    let reaction := Reaction.call true (.deallocate 1 .returns) .returns
    let outcome := (Request.weights 100 true).allocate (.bump fun _ _ => true)
      (fun _ => reaction.exec (.bump fun _ _ => true)) s
    (Unreturned outcome.1 → Atomic s outcome.2) ∧
      s.Grows (.bump fun _ _ => true) 100 ∧ Completes (.bump fun _ _ => true) s 100 reaction := by
  intro s reaction outcome
  have law := failed_allocation_atomic_iff (.bump fun _ _ => true) 0 1000 true
    [.allocate (.temp 400) .returns] (.weights 100 true) reaction
  have atomic := law.1 ⟨fun _ _ _ => rfl, fun _ _ ptr obtained => by
    cases obtained
    exact ⟨_, rfl⟩⟩
  refine ⟨atomic, law.2 (fun ptr obtained => ?_) atomic⟩
  cases obtained
  exact ⟨⟨by decide, trivial⟩, trivial⟩

theorem failed_allocation_not_atomic :
    let s := run (.bump fun _ _ => true) [] (Process.start 0 1000 true)
    let outcome := (Request.weights 100 true).allocate (.bump fun _ _ => true)
      (fun _ => Reaction.throws.exec (.bump fun _ _ => true)) s
    ¬ (Unreturned outcome.1 → Atomic s outcome.2) := by
  intro s outcome atomic
  have thrown : outcome.1 = .error (.threw .user) := by rfl
  have unchanged := atomic (by intro ptr returned; rw [thrown] at returned; cases returned)
  exact absurd unchanged.allocated (by decide +kernel)

end LLM.Memory

import OnDeviceLLM.Memory.Ledger

namespace LLM.Memory

open Cxx

def Event.delivered : Event → Option MemoryPressure
  | .note (.pressure level _) => some level
  | _ => none

def lastLevel (events : List Event) : Option MemoryPressure := events.findSome? Event.delivered

/-- Every block that entered or left the ledger is followed by one delivery, and no
    delivery comes from anything else. Latest event first. -/
inductive Announced : List Event → Prop where
  | nil : Announced []
  | allocated {events : List Event} (owner : Nat) (ptr : Addr) (size : Nat) (level : MemoryPressure)
      (seen : HeapMemoryManager) (entered : ptr ∈ seen.addresses) (rest : Announced events) :
      Announced (.note (.pressure level seen) :: .new owner ptr size :: events)
  | deallocated {events : List Event} (owner : Nat) (ptr : Addr) (level : MemoryPressure)
      (seen : HeapMemoryManager) (left : ptr ∉ seen.addresses) (rest : Announced events) :
      Announced (.note (.pressure level seen) :: .delete owner ptr :: events)
  | newFailed {events : List Event} (owner size : Nat) (rest : Announced events) :
      Announced (.newFailed owner size :: events)
  | abandoned {events : List Event} (owner : Nat) (ptr : Addr) (size : Nat)
      (rest : Announced events) :
      Announced (.note .growthFailed :: .new owner ptr size :: events)

/-- What a callback finds when it is entered. -/
structure ConsistentView (env : Environment) (level : MemoryPressure) (seen : HeapMemoryManager) :
    Prop where
  distinct : seen.addresses.Nodup
  counted : seen.allocated.toNat = seen.ledgerBytes % 2^64
  current : level = (getStats env seen).pressure

/-- What a run has delivered since the history was `base`. -/
structure Notified (env : Environment) (base : Trace) (s : Process) : Prop where
  sound : Sound s
  registered : s.manager.pressureCallback = true
  deliveries : ∃ events, s.trace = events ++ base ∧ Announced events ∧
    (∀ level seen, .note (.pressure level seen) ∈ events → ConsistentView env level seen) ∧
    (∀ level, lastLevel events = some level → level = (getStats env s.manager).pressure)

namespace Notified

variable {env : Environment} {base : Trace} {s : Process}

theorem view (sound : Sound s) : ConsistentView env (calculatePressure env s.manager) s.manager :=
  ⟨sound.distinct, sound.counted, rfl⟩

theorem announce_trace (registered : s.manager.pressureCallback = true) :
    (s.announce env).trace =
      .note (.pressure (calculatePressure env s.manager) s.manager) :: s.trace := by
  rw [Process.announce, if_pos registered, Process.log_trace]

theorem close {event : Event} {changed : Process} (notified : Notified env base s)
    (sound : Sound changed) (registered : changed.manager.pressureCallback = true)
    (logged : changed.trace = event :: s.trace)
    (silent : ∀ level seen, event ≠ .note (.pressure level seen))
    (announced : ∀ events, Announced events → Announced
      (.note (.pressure (calculatePressure env changed.manager) changed.manager) :: event :: events)) :
    Notified env base (changed.announce env) := by
  obtain ⟨events, split, earlier, views, _⟩ := notified.deliveries
  refine ⟨sound.announce, by simpa using registered, _ :: event :: events, ?_, announced _ earlier, ?_, ?_⟩
  · rw [announce_trace registered, logged, split]
    rfl
  · intro level seen member
    rcases List.mem_cons.mp member with latest | member
    · cases latest
      exact view sound
    · rcases List.mem_cons.mp member with same | member
      · exact absurd same.symm (silent level seen)
      · exact views level seen member
  · intro level last
    simp only [lastLevel, List.findSome?_cons, Event.delivered, Option.some.injEq] at last
    rw [← last, Process.announce_manager]
    rfl

theorem step {s' : Process} (taken : Step env s s') (notified : Notified env base s) :
    Notified env base s' := by
  have sound := notified.sound.step taken
  obtain ⟨events, split, earlier, views, last⟩ := notified.deliveries
  cases taken with
  | newFailed size _ _ =>
    refine ⟨sound, notified.registered, _ :: events, congrArg _ split, .newFailed _ _ earlier, ?_, last⟩
    intro level seen member
    rcases List.mem_cons.mp member with same | member
    · cases same
    · exact views level seen member
  | abandoned size ptr _ _ _ =>
    refine ⟨sound, notified.registered, _ :: _ :: events, ?_,
      .abandoned s.manager.this ptr size.toNat earlier, ?_, last⟩
    · rw [Process.abandon_trace, split]
      rfl
    intro level seen member
    rcases List.mem_cons.mp member with same | member
    · cases same
    · rcases List.mem_cons.mp member with same | member
      · cases same
      · exact views level seen member
  | allocated size ptr _ obtained =>
    apply notified.close (notified.sound.enroll obtained) notified.registered rfl (by simp)
    intro events earlier
    exact .allocated _ _ _ _ _ (by simp [HeapMemoryManager.addresses]) earlier
  | deallocated ptr size known =>
    apply notified.close (notified.sound.release known) notified.registered rfl (by simp)
    intro events earlier
    refine .deallocated _ _ _ _ ?_ earlier
    obtain ⟨before, after, split, erased, _, _⟩ := find_split known
    have distinct := notified.sound.distinct
    simp only [HeapMemoryManager.addresses, split, List.map_append, List.map_cons] at distinct
    simp only [HeapMemoryManager.addresses, Process.release_allocations, erased, List.map_append]
    exact (List.nodup_cons.mp (List.nodup_middle.mp distinct)).1

end Notified

/-- What the operations do for a registered callback: a change of the ledger is delivered once, with
    the level that it leads to, and the callback runs on what the operation has left; where
    nothing changes, nothing is delivered. -/
structure Notifies (env : Environment) (s : Process) : Prop where
  granted : ∀ (request : Request) (callback : PressureCallback) (ptr : Addr),
    ¬ s.manager.Refuses request.size → env.new s.trace request.size.toNat = some ptr →
    env.grow (.new s.manager.this ptr request.size.toNat :: s.trace) = true →
      let changed := s.enroll ptr request.size
      let level := (getStats env changed.manager).pressure
      request.allocate env callback s =
        (callback level >>= fun _ => pure ptr) (changed.log (.note (.pressure level changed.manager)))
  released : ∀ (ptr : Addr) (callback : PressureCallback), ptr ∈ s.manager.addresses →
    ∃ size, (ptr, size) ∈ s.manager.allocations ∧
      let changed := s.release ptr size
      let level := (getStats env changed.manager).pressure
      deallocate env callback ptr s = callback level (changed.log (.note (.pressure level changed.manager)))
  refused : ∀ (request : Request) (callback : PressureCallback), s.manager.Refuses request.size →
    request.allocate env callback s = (.ok nullptr, s)
  unknown : ∀ (ptr : Addr) (callback : PressureCallback), ptr ∉ s.manager.addresses →
    deallocate env callback ptr s = (.ok (), s)

theorem notifyPressure_delivers {env : Environment} {callback : PressureCallback} {s : Process}
    (registered : s.manager.pressureCallback = true) :
    notifyPressure env callback s = callback (getStats env s.manager).pressure
      (s.log (.note (.pressure (getStats env s.manager).pressure s.manager))) := by
  rw [notifyPressure_registered registered, Process.announce, if_pos registered]
  rfl

theorem notifies_of_registered {env : Environment} {s : Process}
    (registered : s.manager.pressureCallback = true) : Notifies env s where
  granted request callback ptr admitted obtained grown := by
    intro changed level
    have notified : notifyPressure env callback changed =
        callback level (changed.log (.note (.pressure level changed.manager))) := notifyPressure_delivers registered
    rw [Request.allocate_eq, allocateWeights_admitted admitted obtained grown, Exec.bind_apply, Exec.bind_apply,
      notified]
  released ptr callback listed := by
    rcases deallocate_cases env callback s ptr with ⟨missing, _⟩ | ⟨size, known, result⟩
    · obtain ⟨entry, member, here⟩ := List.mem_map.mp listed
      exact absurd (by simpa using here) (List.find?_eq_none.mp missing entry member)
    · have left : (s.release ptr size).manager.pressureCallback = true := registered
      exact ⟨size, List.mem_of_find?_eq_some known, result.trans (notifyPressure_delivers left)⟩
  refused request callback refused := by
    rw [Request.allocate_eq]
    exact allocateWeights_refused refused
  unknown ptr callback absent := deallocate_not_in_ledger env callback absent

def Process.withCallback (s : Process) : Process :=
  { s with manager := s.manager.registerPressureCallback true }

/-- From the registration on, every change of the ledger is delivered once, each callback
    entry finds a consistent manager and the level of that moment, and between outermost
    calls the level delivered last is the current one. The callback stays registered, and in every
    state in which it is, at any depth, each operation that changes the ledger delivers and runs it. -/
theorem pressure_notifications (env : Environment) (this : Nat) (maxMemoryBytes : UInt64)
    (callable : Bool) (earlier ops : List Op) :
    let registered := (run env earlier (Process.start this maxMemoryBytes callable)).withCallback
    let s := run env ops registered
    (∃ events, s.trace = events ++ registered.trace ∧ Announced events ∧
      (∀ level seen, .note (.pressure level seen) ∈ events →
        seen.addresses.Nodup ∧ seen.allocated.toNat = seen.ledgerBytes % 2^64 ∧
        level = (getStats env seen).pressure) ∧
      (∀ level, lastLevel events = some level → level = (getStats env s.manager).pressure)) ∧
    s.manager.pressureCallback = true ∧
    ∀ inner : Process, inner.manager.pressureCallback = true → Notifies env inner := by
  intro registered s
  have sound := run_sound env this maxMemoryBytes callable earlier
  have initial : Notified env registered.trace registered :=
    { sound := ⟨sound.disciplined, sound.held, sound.distinct, sound.counted⟩
      registered := rfl
      deliveries := ⟨[], rfl, .nil, by simp, by simp [lastLevel]⟩ }
  have final : Notified env registered.trace s :=
    run_invariant (fun _ _ taken notified => notified.step taken) ops registered initial
  obtain ⟨events, split, announced, views, last⟩ := final.deliveries
  refine ⟨⟨events, split, announced, ?_, last⟩, final.registered, fun _ => notifies_of_registered⟩
  intro level seen member
  have view := views level seen member
  exact ⟨view.distinct, view.counted, view.current⟩

end LLM.Memory

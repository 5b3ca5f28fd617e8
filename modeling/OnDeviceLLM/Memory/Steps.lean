import OnDeviceLLM.Memory.Manager

namespace LLM.Memory

open Cxx

def HeapMemoryManager.Refuses (m : HeapMemoryManager) (size : UInt64) : Prop :=
  m.allocated + size > m.maxMemory

instance (m : HeapMemoryManager) (size : UInt64) : Decidable (m.Refuses size) :=
  inferInstanceAs (Decidable (m.allocated + size > m.maxMemory))

namespace Process

def enroll (s : Process) (ptr : Addr) (size : UInt64) : Process :=
  { manager := { s.manager with
      allocated := s.manager.allocated + size
      allocations := s.manager.allocations ++ [(ptr, size)] }
    trace := .new s.manager.this ptr size.toNat :: s.trace }

def release (s : Process) (ptr : Addr) (size : UInt64) : Process :=
  { manager := { s.manager with
      allocated := s.manager.allocated - size
      allocations := s.manager.allocations.eraseP (fun p => p.1 = ptr) }
    trace := .delete s.manager.this ptr :: s.trace }

def abandon (s : Process) (ptr : Addr) (size : UInt64) : Process :=
  (s.log (.new s.manager.this ptr size.toNat)).log (.note .growthFailed)

def announce (env : Environment) (s : Process) : Process :=
  if s.manager.pressureCallback then
    s.log (.note (.pressure (calculatePressure env s.manager) s.manager))
  else s

@[simp] theorem enroll_this (s : Process) (ptr : Addr) (size : UInt64) :
    (s.enroll ptr size).manager.this = s.manager.this := rfl
@[simp] theorem enroll_maxMemory (s : Process) (ptr : Addr) (size : UInt64) :
    (s.enroll ptr size).manager.maxMemory = s.manager.maxMemory := rfl
@[simp] theorem enroll_allocated (s : Process) (ptr : Addr) (size : UInt64) :
    (s.enroll ptr size).manager.allocated = s.manager.allocated + size := rfl
@[simp] theorem enroll_allocations (s : Process) (ptr : Addr) (size : UInt64) :
    (s.enroll ptr size).manager.allocations = s.manager.allocations ++ [(ptr, size)] := rfl
@[simp] theorem enroll_pressureCallback (s : Process) (ptr : Addr) (size : UInt64) :
    (s.enroll ptr size).manager.pressureCallback = s.manager.pressureCallback := rfl
@[simp] theorem enroll_trace (s : Process) (ptr : Addr) (size : UInt64) :
    (s.enroll ptr size).trace = .new s.manager.this ptr size.toNat :: s.trace := rfl

@[simp] theorem release_this (s : Process) (ptr : Addr) (size : UInt64) :
    (s.release ptr size).manager.this = s.manager.this := rfl
@[simp] theorem release_maxMemory (s : Process) (ptr : Addr) (size : UInt64) :
    (s.release ptr size).manager.maxMemory = s.manager.maxMemory := rfl
@[simp] theorem release_allocated (s : Process) (ptr : Addr) (size : UInt64) :
    (s.release ptr size).manager.allocated = s.manager.allocated - size := rfl
@[simp] theorem release_allocations (s : Process) (ptr : Addr) (size : UInt64) :
    (s.release ptr size).manager.allocations =
      s.manager.allocations.eraseP (fun p => p.1 = ptr) := rfl
@[simp] theorem release_pressureCallback (s : Process) (ptr : Addr) (size : UInt64) :
    (s.release ptr size).manager.pressureCallback = s.manager.pressureCallback := rfl
@[simp] theorem release_trace (s : Process) (ptr : Addr) (size : UInt64) :
    (s.release ptr size).trace = .delete s.manager.this ptr :: s.trace := rfl

@[simp] theorem abandon_manager (s : Process) (ptr : Addr) (size : UInt64) :
    (s.abandon ptr size).manager = s.manager := rfl
@[simp] theorem abandon_trace (s : Process) (ptr : Addr) (size : UInt64) :
    (s.abandon ptr size).trace =
      .note .growthFailed :: .new s.manager.this ptr size.toNat :: s.trace := rfl

@[simp] theorem announce_manager (env : Environment) (s : Process) :
    (s.announce env).manager = s.manager := by
  unfold announce
  split <;> rfl

@[simp] theorem live_announce (env : Environment) (s : Process) :
    Heap.live (s.announce env).trace = Heap.live s.trace := by
  unfold announce
  split <;> rfl

theorem disciplined_announce (env : Environment) (s : Process) :
    Heap.Disciplined (s.announce env).trace ↔ Heap.Disciplined s.trace := by
  unfold announce
  split <;> rfl

/-- Where the request is admitted and `new[]` gives it a block, the ledger grows to hold it. -/
def Grows (env : Environment) (s : Process) (size : UInt64) : Prop :=
  ¬ s.manager.Refuses size → ∀ ptr ∈ env.new s.trace size.toNat,
    env.grow (.new s.manager.this ptr size.toNat :: s.trace) = true

instance (env : Environment) (s : Process) (size : UInt64) : Decidable (s.Grows env size) :=
  inferInstanceAs (Decidable (¬ _ → ∀ ptr ∈ _, _))

end Process

section Operations

variable {env : Environment} {callback : PressureCallback} {s : Process}

theorem notifyPressure_registered (registered : s.manager.pressureCallback = true) :
    notifyPressure env callback s =
      callback (calculatePressure env s.manager) (s.announce env) := by
  simp [notifyPressure, Process.announce, registered]

theorem notifyPressure_unregistered (unregistered : s.manager.pressureCallback = false) :
    notifyPressure env callback s = (.ok (), s.announce env) := by
  simp [notifyPressure, Process.announce, unregistered]

/-- The three allocation functions differ in parameters that nothing reads. -/
theorem Request.allocate_eq (request : Request) :
    request.allocate env callback = allocateWeights env callback request.size false := by
  cases request <;> rfl

theorem allocateWeights_refused {size : UInt64} {useMmap : Bool} (refused : s.manager.Refuses size) :
    allocateWeights env callback size useMmap s = (.ok nullptr, s) := by
  simp only [HeapMemoryManager.Refuses] at refused
  simp [allocateWeights, refused]

theorem allocateWeights_badAlloc {size : UInt64} {useMmap : Bool} (admitted : ¬ s.manager.Refuses size)
    (failed : env.new s.trace size.toNat = none) :
    allocateWeights env callback size useMmap s =
      (.error (.threw .badAlloc), s.log (.newFailed s.manager.this size.toNat)) := by
  simp only [HeapMemoryManager.Refuses] at admitted
  simp [allocateWeights, admitted, operatorNew, failed, Exec.bind_apply]

theorem allocateWeights_growthFailed {size : UInt64} {useMmap : Bool} {ptr : Addr}
    (admitted : ¬ s.manager.Refuses size) (obtained : env.new s.trace size.toNat = some ptr)
    (stuck : env.grow (.new s.manager.this ptr size.toNat :: s.trace) = false) :
    allocateWeights env callback size useMmap s =
      (.error (.threw .badAlloc), s.abandon ptr size) := by
  simp only [HeapMemoryManager.Refuses] at admitted
  simp [allocateWeights, admitted, operatorNew, obtained, pushBack, stuck, Exec.bind_apply,
    Process.abandon]

theorem allocateWeights_admitted {size : UInt64} {useMmap : Bool} {ptr : Addr}
    (admitted : ¬ s.manager.Refuses size) (obtained : env.new s.trace size.toNat = some ptr)
    (grown : env.grow (.new s.manager.this ptr size.toNat :: s.trace) = true) :
    allocateWeights env callback size useMmap s =
      (notifyPressure env callback >>= fun _ => pure ptr) (s.enroll ptr size) := by
  simp only [HeapMemoryManager.Refuses] at admitted
  simp [allocateWeights, admitted, operatorNew, obtained, pushBack, grown, Exec.bind_apply,
    Process.enroll]

theorem deallocate_unknown {ptr : Addr}
    (unknown : s.manager.allocations.find? (fun p => p.1 = ptr) = none) :
    deallocate env callback ptr s = (.ok (), s) := by
  simp [deallocate, unknown]

theorem deallocate_known {ptr : Addr} {entry : Addr × UInt64}
    (known : s.manager.allocations.find? (fun p => p.1 = ptr) = some entry) :
    deallocate env callback ptr s =
      notifyPressure env callback (s.release ptr entry.2) := by
  simp [deallocate, known, operatorDelete, Process.release, Process.log]

variable (env callback s)

theorem Request.allocate_cases (request : Request) :
    (s.manager.Refuses request.size ∧ request.allocate env callback s = (.ok nullptr, s)) ∨
    (¬ s.manager.Refuses request.size ∧ env.new s.trace request.size.toNat = none ∧
      request.allocate env callback s =
        (.error (.threw .badAlloc), s.log (.newFailed s.manager.this request.size.toNat))) ∨
    (∃ ptr, ¬ s.manager.Refuses request.size ∧ env.new s.trace request.size.toNat = some ptr ∧
      env.grow (.new s.manager.this ptr request.size.toNat :: s.trace) = false ∧
      request.allocate env callback s = (.error (.threw .badAlloc), s.abandon ptr request.size)) ∨
    (∃ ptr, ¬ s.manager.Refuses request.size ∧ env.new s.trace request.size.toNat = some ptr ∧
      env.grow (.new s.manager.this ptr request.size.toNat :: s.trace) = true ∧
      request.allocate env callback s =
        (notifyPressure env callback >>= fun _ => pure ptr) (s.enroll ptr request.size)) := by
  rw [Request.allocate_eq]
  by_cases refused : s.manager.Refuses request.size
  · exact .inl ⟨refused, allocateWeights_refused refused⟩
  · right
    cases obtained : env.new s.trace request.size.toNat with
    | none => exact .inl ⟨refused, rfl, allocateWeights_badAlloc refused obtained⟩
    | some ptr =>
      right
      cases grown : env.grow (.new s.manager.this ptr request.size.toNat :: s.trace) with
      | false => exact .inl ⟨ptr, refused, rfl, grown, allocateWeights_growthFailed refused obtained grown⟩
      | true => exact .inr ⟨ptr, refused, rfl, grown, allocateWeights_admitted refused obtained grown⟩

theorem deallocate_cases (ptr : Addr) :
    (s.manager.allocations.find? (fun p => p.1 = ptr) = none ∧
      deallocate env callback ptr s = (.ok (), s)) ∨
    (∃ size, s.manager.allocations.find? (fun p => p.1 = ptr) = some (ptr, size) ∧
      deallocate env callback ptr s = notifyPressure env callback (s.release ptr size)) := by
  cases known : s.manager.allocations.find? (fun p => p.1 = ptr) with
  | none => exact .inl ⟨rfl, deallocate_unknown known⟩
  | some entry =>
    have hit : entry.1 = ptr := by simpa using List.find?_some known
    exact .inr ⟨entry.2, by rw [← hit], deallocate_known known⟩

end Operations

/-- One change of the state, up to and including the delivery to the callback. -/
inductive Step (env : Environment) : Process → Process → Prop where
  | newFailed {s : Process} (size : UInt64) (admitted : ¬ s.manager.Refuses size)
      (failed : env.new s.trace size.toNat = none) :
      Step env s (s.log (.newFailed s.manager.this size.toNat))
  | abandoned {s : Process} (size : UInt64) (ptr : Addr) (admitted : ¬ s.manager.Refuses size)
      (obtained : env.new s.trace size.toNat = some ptr)
      (stuck : env.grow (.new s.manager.this ptr size.toNat :: s.trace) = false) :
      Step env s (s.abandon ptr size)
  | allocated {s : Process} (size : UInt64) (ptr : Addr) (admitted : ¬ s.manager.Refuses size)
      (obtained : env.new s.trace size.toNat = some ptr) :
      Step env s ((s.enroll ptr size).announce env)
  | deallocated {s : Process} (ptr : Addr) (size : UInt64)
      (known : s.manager.allocations.find? (fun p => p.1 = ptr) = some (ptr, size)) :
      Step env s ((s.release ptr size).announce env)

abbrev Steps (env : Environment) : Process → Process → Prop := Relation.ReflTransGen (Step env)

theorem Process.announce_suffix (env : Environment) (s : Process) :
    s.trace <:+ (s.announce env).trace := by
  unfold Process.announce
  split
  · exact List.suffix_cons _ _
  · exact List.suffix_rfl

theorem Step.trace_suffix {env : Environment} {s s' : Process} (taken : Step env s s') :
    s.trace <:+ s'.trace := by
  cases taken with
  | newFailed size _ _ => exact List.suffix_cons _ _
  | abandoned size ptr _ _ _ => exact (List.suffix_cons _ _).trans (List.suffix_cons _ _)
  | allocated size ptr _ _ =>
    exact (List.suffix_cons _ s.trace).trans (Process.announce_suffix env (s.enroll ptr size))
  | deallocated ptr size _ =>
    exact (List.suffix_cons _ s.trace).trans (Process.announce_suffix env (s.release ptr size))

theorem Steps.trace_suffix {env : Environment} {s s' : Process} (path : Steps env s s') :
    s.trace <:+ s'.trace := by
  induction path with
  | refl => exact List.suffix_rfl
  | tail _ last ih => exact ih.trans last.trace_suffix

theorem Step.this_eq {env : Environment} {s s' : Process} (taken : Step env s s') :
    s'.manager.this = s.manager.this := by
  cases taken <;> simp

theorem Step.pressureCallback_eq {env : Environment} {s s' : Process} (taken : Step env s s') :
    s'.manager.pressureCallback = s.manager.pressureCallback := by
  cases taken <;> simp

theorem Steps.pressureCallback_eq {env : Environment} {s s' : Process} (path : Steps env s s') :
    s'.manager.pressureCallback = s.manager.pressureCallback := by
  induction path with
  | refl => rfl
  | tail _ last ih => exact last.pressureCallback_eq.trans ih

theorem Steps.this_eq {env : Environment} {s s' : Process} (path : Steps env s s') :
    s'.manager.this = s.manager.this := by
  induction path with
  | refl => rfl
  | tail _ last ih => exact last.this_eq.trans ih

section Tail

variable {env : Environment} {callback : PressureCallback}

/-- Every operation calls back last, so a callback made of steps leaves it made of steps. -/
theorem notifyPressure_steps (reaction : ∀ level s, Steps env s (callback level s).2)
    (s : Process) : Steps env (s.announce env) (notifyPressure env callback s).2 := by
  by_cases registered : s.manager.pressureCallback = true
  · rw [notifyPressure_registered registered]
    exact reaction _ _
  · rw [notifyPressure_unregistered (by simpa using registered)]

theorem Request.allocate_steps (reaction : ∀ level s, Steps env s (callback level s).2)
    (request : Request) (s : Process) : Steps env s (request.allocate env callback s).2 := by
  rcases request.allocate_cases env callback s with
    ⟨_, result⟩ | ⟨admitted, failed, result⟩ | ⟨ptr, admitted, obtained, stuck, result⟩ |
    ⟨ptr, admitted, obtained, _, result⟩
  · rw [result]
  · rw [result]
    exact .single (.newFailed _ admitted failed)
  · rw [result]
    exact .single (.abandoned _ ptr admitted obtained stuck)
  · rw [result, Exec.bind_pure_state]
    exact .head (.allocated _ ptr admitted obtained) (notifyPressure_steps reaction _)

theorem deallocate_steps (reaction : ∀ level s, Steps env s (callback level s).2)
    (ptr : Addr) (s : Process) : Steps env s (deallocate env callback ptr s).2 := by
  rcases deallocate_cases env callback s ptr with
    ⟨_, result⟩ | ⟨size, known, result⟩
  · rw [result]
  · rw [result]
    exact .head (.deallocated ptr size known) (notifyPressure_steps reaction _)

end Tail

end LLM.Memory

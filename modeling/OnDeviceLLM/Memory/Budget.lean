import OnDeviceLLM.Memory.Ledger

namespace LLM.Memory

open Cxx

/-- The exact sum leaves 64 bits and comes back at or below the budget. -/
def HeapMemoryManager.WrapsIntoBudget (m : HeapMemoryManager) (size : UInt64) : Prop :=
  2^64 ≤ m.allocated.toNat + size.toNat ∧
    m.allocated.toNat + size.toNat ≤ 2^64 + m.maxMemory.toNat

theorem refuses_iff (m : HeapMemoryManager) (size : UInt64) :
    m.Refuses size ↔
      m.maxMemory.toNat < m.allocated.toNat + size.toNat ∧ ¬ m.WrapsIntoBudget size := by
  have allocatedBound := m.allocated.toNat_lt
  have sizeBound := size.toNat_lt
  have budgetBound := m.maxMemory.toNat_lt
  rw [HeapMemoryManager.Refuses, gt_iff_lt, UInt64.lt_iff_toNat_lt, UInt64.toNat_add,
    HeapMemoryManager.WrapsIntoBudget]
  omega

def ReachesHeap (s s' : Process) (size : UInt64) : Prop :=
  .newFailed s.manager.this size.toNat :: s.trace <:+ s'.trace ∨
    ∃ ptr, .new s.manager.this ptr size.toNat :: s.trace <:+ s'.trace

/-- Admission by the exact sum: above the budget the call returns `nullptr` and nothing
    else happens, within it the heap is asked. -/
def ExactAdmission (env : Environment) (s : Process) (request : Request) : Prop :=
  ∀ reaction : Reaction,
    (s.manager.maxMemory.toNat < s.manager.allocated.toNat + request.size.toNat →
      request.allocate env (fun _ => reaction.exec env) s = (.ok nullptr, s)) ∧
    (s.manager.allocated.toNat + request.size.toNat ≤ s.manager.maxMemory.toNat →
      ReachesHeap s (request.allocate env (fun _ => reaction.exec env) s).2 request.size)

theorem Request.allocate_reaches_heap (env : Environment) (s : Process) (request : Request)
    (reaction : Reaction) (admitted : ¬ s.manager.Refuses request.size) :
    ReachesHeap s (request.allocate env (fun _ => reaction.exec env) s).2 request.size := by
  rcases request.allocate_cases env (fun _ => reaction.exec env) s with
    ⟨refused, _⟩ | ⟨_, _, result⟩ | ⟨ptr, _, _, _, result⟩ | ⟨ptr, _, _, _, result⟩
  · exact absurd refused admitted
  · rw [result]
    exact .inl List.suffix_rfl
  · rw [result]
    exact .inr ⟨ptr, List.suffix_cons _ _⟩
  · rw [result, Exec.bind_pure_state]
    have reached := notifyPressure_steps (fun _ => reaction.exec_steps env) (s.enroll ptr request.size)
    exact .inr ⟨ptr, (Process.announce_suffix env _).trans reached.trace_suffix⟩

theorem exactAdmission_iff (env : Environment) (s : Process) (request : Request) :
    ExactAdmission env s request ↔ ¬ s.manager.WrapsIntoBudget request.size := by
  have check := refuses_iff s.manager request.size
  constructor
  · intro exact wraps
    have admitted : ¬ s.manager.Refuses request.size := fun refused => (check.mp refused).2 wraps
    have above : s.manager.maxMemory.toNat < s.manager.allocated.toNat + request.size.toNat :=
      Nat.lt_of_lt_of_le s.manager.maxMemory.toNat_lt wraps.1
    have silent := (exact .returns).1 above
    have reached := request.allocate_reaches_heap env s .returns admitted
    rw [silent] at reached
    rcases reached with failed | ⟨ptr, obtained⟩
    · exact absurd failed.length_le (by simp)
    · exact absurd obtained.length_le (by simp)
  · intro noWrap reaction
    constructor
    · intro above
      rw [Request.allocate_eq]
      exact allocateWeights_refused (check.mpr ⟨above, noWrap⟩)
    · intro within
      apply request.allocate_reaches_heap env s reaction
      intro refused
      have above := (check.mp refused).1
      omega

/-! Runs in which no call wraps. The state of each call is the one the run makes it in,
    inside callbacks too. -/

mutual
def Op.Fits (env : Environment) : Op → Process → Prop
  | .allocate request reaction, s => ¬ s.manager.WrapsIntoBudget request.size ∧
    ∀ ptr, ¬ s.manager.Refuses request.size → env.new s.trace request.size.toNat = some ptr →
      env.grow (.new s.manager.this ptr request.size.toNat :: s.trace) = true →
      s.manager.pressureCallback = true →
      reaction.Fits env ((s.enroll ptr request.size).announce env)
  | .deallocate ptr reaction, s =>
    ∀ size, s.manager.allocations.find? (fun p => p.1 = ptr) = some (ptr, size) →
      s.manager.pressureCallback = true → reaction.Fits env ((s.release ptr size).announce env)

def Reaction.Fits (env : Environment) : Reaction → Process → Prop
  | .returns, _ => True
  | .throws, _ => True
  | .call guarded op rest, s => op.Fits env s ∧
    ∀ s', (if guarded then Exec.attempt (op.exec env) else op.exec env) s = (.ok (), s') →
      rest.Fits env s'
end

def RunFits (env : Environment) : List Op → Process → Prop
  | [], _ => True
  | op :: ops, s => op.Fits env s ∧ RunFits env ops (op.exec env s).2

structure WithinBudget (s : Process) : Prop where
  sound : Sound s
  bounded : s.manager.ledgerBytes ≤ s.manager.maxMemory.toNat

namespace WithinBudget

variable {env : Environment} {s : Process}

theorem exact (within : WithinBudget s) : s.manager.allocated.toNat = s.manager.ledgerBytes := by
  have bound := s.manager.maxMemory.toNat_lt
  have bounded := within.bounded
  rw [within.sound.counted]
  exact Nat.mod_eq_of_lt (by omega)

theorem announce (within : WithinBudget s) : WithinBudget (s.announce env) :=
  ⟨within.sound.announce, by simpa using within.bounded⟩

theorem enroll (within : WithinBudget s) {size : UInt64} {ptr : Addr}
    (obtained : env.new s.trace size.toNat = some ptr) (admitted : ¬ s.manager.Refuses size)
    (noWrap : ¬ s.manager.WrapsIntoBudget size) : WithinBudget (s.enroll ptr size) := by
  refine ⟨within.sound.enroll obtained, ?_⟩
  have check := refuses_iff s.manager size
  have exact := within.exact
  have grown : (s.enroll ptr size).manager.ledgerBytes = s.manager.ledgerBytes + size.toNat := by
    simp [HeapMemoryManager.ledgerBytes]
  rw [grown, ← exact, Process.enroll_maxMemory]
  by_contra above
  exact admitted (check.mpr ⟨by omega, noWrap⟩)

theorem release (within : WithinBudget s) {ptr : Addr} {size : UInt64}
    (known : s.manager.allocations.find? (fun p => p.1 = ptr) = some (ptr, size)) :
    WithinBudget (s.release ptr size) := by
  refine ⟨within.sound.release known, ?_⟩
  obtain ⟨before, after, split, erased, _, _⟩ := find_split known
  have bounded := within.bounded
  simp only [HeapMemoryManager.ledgerBytes, Process.release_allocations, erased, Process.release_maxMemory]
  simp only [HeapMemoryManager.ledgerBytes, split] at bounded
  simp only [List.map_append, List.map_cons, List.sum_append, List.sum_cons] at bounded ⊢
  omega

theorem notifyPressure {callback : PressureCallback} (within : WithinBudget s)
    (reaction : s.manager.pressureCallback = true →
      WithinBudget (callback (calculatePressure env s.manager) (s.announce env)).2) :
    WithinBudget (notifyPressure env callback s).2 := by
  by_cases registered : s.manager.pressureCallback = true
  · rw [notifyPressure_registered registered]
    exact reaction registered
  · rw [notifyPressure_unregistered (by simpa using registered)]
    exact within.announce

end WithinBudget

mutual
theorem Op.exec_within (env : Environment) :
    ∀ (op : Op) (s : Process), op.Fits env s → WithinBudget s → WithinBudget (op.exec env s).2
  | .allocate request reaction, s, fits, within => by
    rw [Op.exec, Exec.bind_pure_state]
    rcases request.allocate_cases env (fun _ => reaction.exec env) s with
      ⟨_, result⟩ | ⟨_, _, result⟩ | ⟨ptr, _, obtained, _, result⟩ |
      ⟨ptr, admitted, obtained, grown, result⟩
    · rw [result]
      exact within
    · rw [result]
      exact ⟨within.sound.newFailed _, within.bounded⟩
    · rw [result]
      exact ⟨within.sound.abandon obtained, within.bounded⟩
    · rw [result, Exec.bind_pure_state]
      have entered := within.enroll obtained admitted fits.1
      apply entered.notifyPressure
      intro registered
      exact Reaction.exec_within env reaction _ (fits.2 ptr admitted obtained grown registered)
        entered.announce
  | .deallocate ptr reaction, s, fits, within => by
    rw [Op.exec]
    rcases deallocate_cases env (fun _ => reaction.exec env) s ptr with
      ⟨_, result⟩ | ⟨size, known, result⟩
    · rw [result]
      exact within
    · rw [result]
      have left := within.release known
      apply left.notifyPressure
      intro registered
      exact Reaction.exec_within env reaction _ (fits size known registered) left.announce

theorem Reaction.exec_within (env : Environment) :
    ∀ (reaction : Reaction) (s : Process), reaction.Fits env s → WithinBudget s →
      WithinBudget (reaction.exec env s).2
  | .returns, _, _, within => within
  | .throws, _, _, within => within
  | .call guarded op rest, s, fits, within => by
    have first : WithinBudget
        ((if guarded then Exec.attempt (op.exec env) else op.exec env) s).2 := by
      rw [Reaction.guarded_state]
      exact Op.exec_within env op s fits.1 within
    rw [Reaction.exec, Exec.bind_apply]
    rcases outcome : (if guarded then Exec.attempt (op.exec env) else op.exec env) s with ⟨(e | a), s'⟩
    · rw [outcome] at first
      exact first
    · rw [outcome] at first
      exact Reaction.exec_within env rest s' (fits.2 s' outcome) first
end

theorem run_within (env : Environment) (ops : List Op) (s : Process) (fits : RunFits env ops s)
    (within : WithinBudget s) : WithinBudget (run env ops s) := by
  induction ops generalizing s with
  | nil => exact within
  | cons op ops ih => exact ih _ fits.2 (op.exec_within env s fits.1 within)

theorem run_maxMemory (env : Environment) (ops : List Op) (s : Process) :
    (run env ops s).manager.maxMemory = s.manager.maxMemory := by
  refine @run_invariant env (fun s' => s'.manager.maxMemory = s.manager.maxMemory) ?_ ops s rfl
  intro before after taken same
  rw [← same]
  cases taken <;> simp

theorem Represents.liveBytes {s : Process} (represents : Represents [] s) :
    Heap.liveBytes s.trace = s.manager.ledgerBytes := by
  rw [Heap.liveBytes, represents.exact, List.nil_append, HeapMemoryManager.blocks,
    HeapMemoryManager.ledgerBytes, List.map_map]
  rfl

/-- Admission is by the exact sum in precisely those states and for those sizes where the
    64-bit sum does not wrap into the budget, and a run none of whose calls wraps keeps the
    exact sum of its blocks within the budget. -/
theorem admission_exact_iff (env : Environment) (this : Nat) (maxMemoryBytes : UInt64)
    (callable : Bool) (ops : List Op) :
    let s := run env ops (Process.start this maxMemoryBytes callable)
    (∀ request, ExactAdmission env s request ↔ ¬ s.manager.WrapsIntoBudget request.size) ∧
    (RunFits env ops (Process.start this maxMemoryBytes callable) →
      s.manager.ledgerBytes ≤ maxMemoryBytes.toNat ∧
      s.manager.allocated.toNat = s.manager.ledgerBytes ∧
      (getStats env s.manager).freeBytes.toNat + s.manager.allocated.toNat = maxMemoryBytes.toNat ∧
      ((∀ t, env.grow t = true) → Heap.liveBytes s.trace = s.manager.allocated.toNat)) := by
  intro s
  refine ⟨fun request => exactAdmission_iff env s request, fun fits => ?_⟩
  have budget : s.manager.maxMemory = maxMemoryBytes := run_maxMemory env ops _
  have within : WithinBudget s :=
    run_within env ops _ fits ⟨.start this maxMemoryBytes callable, Nat.zero_le _⟩
  have exact := within.exact
  have bounded := within.bounded
  rw [budget] at bounded
  refine ⟨bounded, exact, ?_, ?_⟩
  · have noBorrow : s.manager.allocated ≤ s.manager.maxMemory := by
      rw [UInt64.le_iff_toNat_le, exact, budget]
      exact bounded
    rw [getStats, UInt64.toNat_sub_of_le _ _ noBorrow, budget]
    omega
  · intro grows
    rw [exact]
    exact (run_represents env grows this maxMemoryBytes callable ops).liveBytes

def wrapStart : Process :=
  run (.bump fun _ n => n < 2^63) [.allocate (.weights 100 true) .returns] (Process.start 0 1000 false)

/-- With 100 of 1000 bytes taken, a request for 2^64 - 50 bytes passes the check and fails
    in `operator new[]`. -/
theorem admission_not_exact :
    ¬ ExactAdmission (.bump fun _ n => n < 2^63) wrapStart (.temp (0 - 50)) := by
  intro exact
  have silent := congrArg Prod.fst ((exact .returns).1 (by decide +kernel))
  have thrown : ((Request.temp (0 - 50)).allocate (.bump fun _ n => n < 2^63)
      (fun _ => Reaction.returns.exec (.bump fun _ n => n < 2^63)) wrapStart).1 =
      .error (.threw .badAlloc) := by rfl
  rw [thrown] at silent
  cases silent

end LLM.Memory

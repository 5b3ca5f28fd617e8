import OnDeviceLLM.Core.Invariants

namespace LLM.Core

open Cxx Hardware Hal Memory

/-- Both requests of `load_backend_resources` pass the budget check, the second after the
    first has been granted at whatever address. -/
def BudgetPasses (m : HeapMemoryManager) (w : World) : Prop :=
  ¬ m.Refuses (weightSize w.tier) ∧ ∀ ram, ¬ (w.weighted m ram).manager.Refuses (kvSize w.tier)

def BudgetRefuses (m : HeapMemoryManager) (w : World) : Prop :=
  m.Refuses (weightSize w.tier) ∨
    (¬ m.Refuses (weightSize w.tier) ∧ ∀ ram, (w.weighted m ram).manager.Refuses (kvSize w.tier))

theorem fits_lowEnd {spec : HardwareSpec} (tier : spec.tier = .lowEnd) :
    Fits spec ↔ 288 * 1024 * 1024 ≤ spec.availableRamBytes.toNat := by
  rw [Fits, tier]
  rfl

theorem fits_midRange {spec : HardwareSpec} (tier : spec.tier = .midRange) :
    Fits spec ↔ 1152 * 1024 * 1024 ≤ spec.availableRamBytes.toNat := by
  rw [Fits, tier]
  rfl

theorem fits_highEnd {spec : HardwareSpec} (tier : spec.tier = .highEnd) :
    Fits spec ↔ 2304 * 1024 * 1024 ≤ spec.availableRamBytes.toNat := by
  rw [Fits, tier]
  rfl

theorem fits_of_thresholds {spec : HardwareSpec} (notLow : spec.tier ≠ .lowEnd)
    (mid : spec.tier = .midRange → 1152 * 1024 * 1024 ≤ spec.availableRamBytes.toNat)
    (high : spec.tier = .highEnd → 2304 * 1024 * 1024 ≤ spec.availableRamBytes.toNat) : Fits spec := by
  cases tier : spec.tier with
  | lowEnd => exact absurd tier notLow
  | midRange => exact (fits_midRange tier).mpr (mid tier)
  | highEnd => exact (fits_highEnd tier).mpr (high tier)

theorem detect_fits (machine : Machine) (notLow : (createNativeHardwareDetector machine).tier ≠ .lowEnd) :
    Fits (createNativeHardwareDetector machine) := by
  apply fits_of_thresholds notLow
  · intro tier
    cases machine with
    | windows ullTotalPhys ullAvailPhys =>
      have bound : 4 * 1024 * 1024 * 1024 ≤ ullAvailPhys.toNat := midRange_le_of_tier tier
      show 1152 * 1024 * 1024 ≤ ullAvailPhys.toNat
      omega
    | apple targetOsIphone ram =>
      have bound : 2 * 1024 * 1024 * 1024 ≤ (ram.bytes / 2).toNat := midRange_le_of_tier tier
      show 1152 * 1024 * 1024 ≤ (ram.bytes / 2).toNat
      omega
    | android => cases tier
    | linux ram =>
      have bound : 4 * 1024 * 1024 * 1024 ≤ ram.bytes.toNat := midRange_le_of_tier tier
      have half : (ram.bytes / 2).toNat = ram.bytes.toNat / 2 := UInt64.toNat_div _ _
      show 1152 * 1024 * 1024 ≤ (ram.bytes / 2).toNat
      omega
    | other => decide
  · intro tier
    cases machine with
    | windows ullTotalPhys ullAvailPhys =>
      have bound : 16 * 1024 * 1024 * 1024 ≤ ullAvailPhys.toNat := highEnd_le_of_tier tier
      show 2304 * 1024 * 1024 ≤ ullAvailPhys.toNat
      omega
    | apple targetOsIphone ram =>
      have bound : 8 * 1024 * 1024 * 1024 ≤ (ram.bytes / 2).toNat := highEnd_le_of_tier tier
      show 2304 * 1024 * 1024 ≤ (ram.bytes / 2).toNat
      omega
    | android => cases tier
    | linux ram =>
      have bound : 16 * 1024 * 1024 * 1024 ≤ ram.bytes.toNat := highEnd_le_of_tier tier
      have half : (ram.bytes / 2).toNat = ram.bytes.toNat / 2 := UInt64.toNat_div _ _
      show 2304 * 1024 * 1024 ≤ (ram.bytes / 2).toNat
      omega
    | other => cases tier

section Initialised

variable (w : World) (modelPath : String) (spec : HardwareSpec)

theorem budgetPasses_iff_fits :
    BudgetPasses (HeapMemoryManager.create w.managers spec.availableRamBytes)
      (initializeRuntime modelPath spec w).2 ↔ Fits spec := by
  constructor
  · intro passes
    exact (fits_iff_admitted w.managers spec nullptr w.trace).mpr ⟨passes.1, passes.2 nullptr⟩
  · intro fits
    exact ⟨((fits_iff_admitted w.managers spec nullptr w.trace).mp fits).1,
      fun ram => ((fits_iff_admitted w.managers spec ram w.trace).mp fits).2⟩

theorem budgetRefuses_iff_not_fits :
    BudgetRefuses (HeapMemoryManager.create w.managers spec.availableRamBytes)
      (initializeRuntime modelPath spec w).2 ↔ ¬ Fits spec := by
  have admitted := fun ram => fits_iff_admitted w.managers spec ram w.trace
  constructor
  · intro refuses fits
    rcases refuses with weights | kv
    · exact ((admitted nullptr).mp fits).1 weights
    · exact ((admitted nullptr).mp fits).2 (kv.2 nullptr)
  · intro unfit
    by_cases weights : (HeapMemoryManager.create w.managers spec.availableRamBytes).Refuses (weightSize spec.tier)
    · exact .inl weights
    · refine .inr ⟨weights, fun ram => ?_⟩
      by_contra granted
      exact unfit ((admitted ram).mpr ⟨weights, granted⟩)

end Initialised

section Forgotten

def LLMRuntimeImpl.cleared (r : LLMRuntimeImpl) : LLMRuntimeImpl :=
  { r with allocatedRamPtr := nullptr, allocatedKvPtr := nullptr, backend := none }

def World.cleared (w : World) : World := { w with runtime := w.runtime.cleared }

/-- The worlds differ in the resource pointers and the backend alone. -/
def Alike (w w' : World) : Prop := w.cleared = w'.cleared

variable {env : Environment}

theorem Alike.runtime {w w' : World} (alike : Alike w w') : w.runtime.cleared = w'.runtime.cleared :=
  congrArg World.runtime alike

theorem Alike.trace {w w' : World} (alike : Alike w w') : w.trace = w'.trace := congrArg (fun w => w.trace) alike

theorem Alike.tier {w w' : World} (alike : Alike w w') : w.tier = w'.tier :=
  congrArg (fun r => r.hardwareSpec.tier) alike.runtime

theorem onManager_respects {α : Type} (x : Exec Process α) : Exec.Respects Alike (onManager x) := by
  rintro ⟨⟨path, ram, kv, spec, manager, backend⟩, managers, trace⟩
    ⟨⟨path', ram', kv', spec', manager', backend'⟩, managers', trace'⟩ alike
  simp only [Alike, World.cleared, LLMRuntimeImpl.cleared, World.mk.injEq, LLMRuntimeImpl.mk.injEq] at alike
  obtain ⟨⟨rfl, -, -, rfl, rfl, -⟩, rfl, rfl⟩ := alike
  cases manager <;> exact ⟨rfl, rfl⟩

theorem setRuntime_respects {f : LLMRuntimeImpl → LLMRuntimeImpl} (pointers : ∀ r, (f r).cleared = r.cleared) :
    Exec.Respects Alike (setRuntime f) := by
  apply Exec.Respects.modify
  intro w w' alike
  have same : (f w.runtime).cleared = (f w'.runtime).cleared := by
    rw [pointers, pointers]
    exact alike.runtime
  simp only [Alike, World.cleared, World.mk.injEq] at alike ⊢
  exact ⟨same, alike.2⟩

theorem loadKv_respects (ram : Addr) (tier : DeviceTier) : Exec.Respects Alike (loadKv env ram tier) := by
  refine (onManager_respects _).bind fun kv => ?_
  refine (setRuntime_respects (by intro _; rfl)).bind fun _ => ?_
  by_cases refused : kv = nullptr
  · rw [if_pos refused]
    exact (onManager_respects _).bind fun _ => (setRuntime_respects fun _ => rfl).bind fun _ => .pure _
  · rw [if_neg refused]
    intro w w' alike
    rw [createBackend_apply, createBackend_apply]
    exact ⟨rfl, alike⟩

/-- A load overwrites the pointers and the backend without reading them. -/
theorem load_respects : Exec.Respects Alike (loadBackendResources env) := by
  intro w w' alike
  rw [load_eq, load_eq, alike.tier]
  refine Exec.Respects.bind (onManager_respects _) (fun ram => ?_) w w' alike
  refine (setRuntime_respects (by intro _; rfl)).bind fun _ => ?_
  by_cases refused : ram = nullptr
  · rw [if_pos refused]
    exact .pure _
  · rw [if_neg refused]
    exact loadKv_respects ram _

end Forgotten

/-- The heap, not the budget, denies the load a block: a request of its own fails. -/
def HeapDenies (w : World) (outcome : Except Stop Bool × World) : Prop :=
  outcome.1 = .error (.threw .badAlloc) ∧
    ∃ (event : Event) (t : Trace), outcome.2.trace = event :: t ∧ event.failed = true ∧ w.trace <:+ t

/-- The load takes both blocks of the tier, unless the heap denies it one. -/
def LoadPasses (w : World) (outcome : Except Stop Bool × World) : Prop :=
  HeapDenies w outcome ∨ outcome.1 = .ok true ∧ ∃ owner ram kv, Heap.live outcome.2.trace =
    Heap.live w.trace ++ [⟨owner, ram, (weightSize w.tier).toNat⟩, ⟨owner, kv, (kvSize w.tier).toNat⟩]

/-- The load is refused and takes nothing, unless the heap denies it weights that were admitted. -/
def LoadRefused (m : HeapMemoryManager) (w : World) (outcome : Except Stop Bool × World) : Prop :=
  (¬ m.Refuses (weightSize w.tier) ∧ HeapDenies w outcome) ∨
    outcome.1 = .ok false ∧ Heap.live outcome.2.trace = Heap.live w.trace

section Loads

variable {env : Environment} {m : HeapMemoryManager} {w : World}

theorem Ready.load_passes (ready : Ready m w) (passes : BudgetPasses m w) :
    LoadPasses w (loadBackendResources env w) := by
  have outcome : LoadOutcome env m w (loadBackendResources env w) := ready.load_outcome
  generalize loadBackendResources env w = result at outcome
  cases outcome with
  | weightsRefused refused => exact absurd refused passes.1
  | weightsBadAlloc _ _ => exact .inl ⟨rfl, _, _, rfl, rfl, List.suffix_rfl⟩
  | weightsAbandoned ram _ _ _ => exact .inl ⟨rfl, _, _, rfl, rfl, List.suffix_cons _ _⟩
  | kvRefused ram _ refused => exact absurd refused (passes.2 ram)
  | kvBadAlloc ram _ _ _ => exact .inl ⟨rfl, _, _, rfl, rfl, List.suffix_cons _ _⟩
  | kvAbandoned ram kv _ _ _ _ => exact .inl ⟨rfl, _, _, rfl, rfl, [_, _], rfl⟩
  | loaded ram kv _ _ _ _ => exact .inr ⟨rfl, m.this, ram, kv, by simp [World.loaded, World.weighted]⟩

theorem Ready.load_refused (ready : Ready m w) (refuses : BudgetRefuses m w) :
    LoadRefused m w (loadBackendResources env w) := by
  have outcome : LoadOutcome env m w (loadBackendResources env w) := ready.load_outcome
  generalize loadBackendResources env w = result at outcome
  cases outcome with
  | weightsRefused _ => exact .inr ⟨rfl, rfl⟩
  | weightsBadAlloc admitted _ => exact .inl ⟨admitted, rfl, _, _, rfl, rfl, List.suffix_rfl⟩
  | weightsAbandoned ram admitted _ _ => exact .inl ⟨admitted, rfl, _, _, rfl, rfl, List.suffix_cons _ _⟩
  | kvRefused ram weights _ => exact .inr ⟨rfl, weights.live_given_back⟩
  | kvBadAlloc ram weights _ _ => exact .inl ⟨weights.admitted, rfl, _, _, rfl, rfl, List.suffix_cons _ _⟩
  | kvAbandoned ram kv weights _ _ _ => exact .inl ⟨weights.admitted, rfl, _, _, rfl, rfl, [_, _], rfl⟩
  | loaded ram kv weights admitted _ _ =>
    rcases refuses with refused | ⟨_, refused⟩
    · exact absurd refused weights.admitted
    · exact absurd (refused ram) admitted

end Loads

section Initialised

variable (env : Environment) (calls : List Call) (modelPath : String) (spec : HardwareSpec)

/-- Whatever the pointers of the runtime were, the load after `initialize` comes to what it does
    where they were null. -/
theorem initialised_load :
    let w := (initializeRuntime modelPath spec (run env calls World.create)).2
    Ready (HeapMemoryManager.create (run env calls World.create).managers spec.availableRamBytes) w.cleared ∧
      (loadBackendResources env w).1 = (loadBackendResources env w.cleared).1 ∧
      (loadBackendResources env w).2.trace = (loadBackendResources env w.cleared).2.trace := by
  intro w
  have wellFormed := @run_wellFormed env calls _ World.create_wellFormed
  have alike : Alike w w.cleared := rfl
  obtain ⟨ends, reached⟩ := @load_respects env _ _ alike
  exact ⟨⟨rfl, rfl, ⟨wellFormed.disciplined, nofun, List.nodup_nil, rfl⟩, rfl, rfl, rfl⟩, ends, reached.trace⟩

variable {env calls modelPath spec}

theorem initialised_load_passes (fits : Fits spec) :
    let w := (initializeRuntime modelPath spec (run env calls World.create)).2
    LoadPasses w (loadBackendResources env w) := by
  intro w
  obtain ⟨ready, ends, trace⟩ := initialised_load env calls modelPath spec
  have passes := (budgetPasses_iff_fits (run env calls World.create) modelPath spec).mpr fits
  have loaded : LoadPasses w.cleared (loadBackendResources env w.cleared) := ready.load_passes passes
  rw [LoadPasses, HeapDenies, ends, trace]
  exact loaded

theorem initialised_load_refused (unfit : ¬ Fits spec) :
    let w := (initializeRuntime modelPath spec (run env calls World.create)).2
    LoadRefused (HeapMemoryManager.create (run env calls World.create).managers spec.availableRamBytes) w
      (loadBackendResources env w) := by
  intro w
  obtain ⟨ready, ends, trace⟩ := initialised_load env calls modelPath spec
  have refuses := (budgetRefuses_iff_not_fits (run env calls World.create) modelPath spec).mpr unfit
  have refused : LoadRefused _ w.cleared (loadBackendResources env w.cleared) := ready.load_refused refuses
  rw [LoadRefused, HeapDenies, ends, trace]
  exact refused

end Initialised

/-- On every machine and after any calls, the tier that is detected takes memory that is there,
    except that the lowest tier is also given to machines with less than it takes: the load after
    `initialize` is then refused. -/
theorem tier_matches_memory (env : Environment) (calls : List Call) (machine : Machine) (modelPath : String) :
    let spec := createNativeHardwareDetector machine
    let w := (initializeRuntime modelPath spec (run env calls World.create)).2
    ∃ m, w.runtime.memoryManager = some m ∧
      (spec.tier ≠ .lowEnd → BudgetPasses m w ∧ LoadPasses w (loadBackendResources env w)) ∧
      (spec.tier = .lowEnd →
        (BudgetPasses m w ↔ 288 * 1024 * 1024 ≤ spec.availableRamBytes.toNat) ∧
        (BudgetRefuses m w ↔ spec.availableRamBytes.toNat < 288 * 1024 * 1024) ∧
        (288 * 1024 * 1024 ≤ spec.availableRamBytes.toNat → LoadPasses w (loadBackendResources env w)) ∧
        (spec.availableRamBytes.toNat < 288 * 1024 * 1024 → LoadRefused m w (loadBackendResources env w))) := by
  intro spec w
  refine ⟨_, rfl, fun notLow => ?_, fun low => ⟨?_, ?_, fun enough => ?_, fun less => ?_⟩⟩
  · have fits := detect_fits machine notLow
    exact ⟨(budgetPasses_iff_fits _ modelPath spec).mpr fits, initialised_load_passes fits⟩
  · exact (budgetPasses_iff_fits _ modelPath _).trans (fits_lowEnd low)
  · rw [budgetRefuses_iff_not_fits _ modelPath, fits_lowEnd low, not_le]
  · exact initialised_load_passes ((fits_lowEnd low).mpr enough)
  · refine initialised_load_refused fun fits => ?_
    exact absurd ((fits_lowEnd low).mp fits) (Nat.not_le.mpr less)

end LLM.Core

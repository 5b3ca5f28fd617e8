import OnDeviceLLM.Core.Loading

namespace LLM.Core

open Cxx Hardware Hal Memory

/-- Both blocks of the tier fit the memory that was detected. -/
def Fits (spec : HardwareSpec) : Prop :=
  (weightSize spec.tier).toNat + (kvSize spec.tier).toNat ≤ spec.availableRamBytes.toNat

instance (spec : HardwareSpec) : Decidable (Fits spec) :=
  inferInstanceAs (Decidable (_ ≤ _))

theorem weightSize_add_kvSize (tier : DeviceTier) :
    (weightSize tier + kvSize tier).toNat = (weightSize tier).toNat + (kvSize tier).toNat := by
  cases tier <;> decide

/-- A manager that has handed out nothing refuses one of the two blocks unless both fit. -/
theorem fits_iff_admitted (this : Nat) (spec : HardwareSpec) (ram : Addr) (trace : Trace) :
    Fits spec ↔
      ¬ (HeapMemoryManager.create this spec.availableRamBytes).Refuses (weightSize spec.tier) ∧
      ¬ (Process.enroll ⟨HeapMemoryManager.create this spec.availableRamBytes, trace⟩ ram
        (weightSize spec.tier)).manager.Refuses (kvSize spec.tier) := by
  have sum := weightSize_add_kvSize spec.tier
  simp only [Fits, HeapMemoryManager.Refuses, HeapMemoryManager.create, Process.enroll_allocated,
    Process.enroll_maxMemory, UInt64.zero_add, gt_iff_lt, UInt64.lt_iff_toNat_lt]
  omega

/-- The runtime holds nothing and the heap is empty. -/
structure Vacant (w : World) : Prop where
  ram : w.runtime.allocatedRamPtr = nullptr
  kv : w.runtime.allocatedKvPtr = nullptr
  backend : w.runtime.backend = none
  disciplined : Heap.Disciplined w.trace
  empty : Heap.live w.trace = []

/-- The manager holds nothing for the runtime. -/
structure Released (w : World) : Prop where
  ram : w.runtime.allocatedRamPtr = nullptr
  kv : w.runtime.allocatedKvPtr = nullptr
  backend : w.runtime.backend = none
  manager : ∃ m, w.runtime.memoryManager = some m ∧ m.allocated = 0 ∧ m.allocations = []

theorem World.create_vacant : Vacant World.create := ⟨rfl, rfl, rfl, trivial, rfl⟩

/-- Initialised with `spec`, and at rest. -/
structure Idle (this : Nat) (spec : HardwareSpec) (w : World) : Prop where
  vacant : Vacant w
  manager : w.runtime.memoryManager = some (HeapMemoryManager.create this spec.availableRamBytes)
  spec : w.runtime.hardwareSpec = spec
  owned : this < w.managers

/-- Between `load_backend_resources` and `unload_backend_resources`. -/
inductive Holding (this : Nat) (spec : HardwareSpec) : World → Prop where
  | loaded {w : World} (ram kv : Addr) (idle : Idle this spec w) (ramNonnull : ram ≠ nullptr)
      (kvNonnull : kv ≠ nullptr) (distinct : ram ≠ kv) :
      Holding this spec (w.loaded (HeapMemoryManager.create this spec.availableRamBytes) ram kv)

theorem Vacant.initialize (vacant : Vacant w) (modelPath : String) (detected : HardwareSpec) :
    ∃ w', initializeRuntime modelPath detected w = (.ok true, w') ∧ Idle w.managers detected w' :=
  ⟨_, rfl, ⟨vacant.ram, vacant.kv, vacant.backend, vacant.disciplined, vacant.empty⟩, rfl, rfl,
    Nat.lt_succ_self _⟩

section Idle

variable (env : Environment) {this : Nat} {spec : HardwareSpec} {w : World}

theorem Idle.ready (idle : Idle this spec w) :
    Ready (HeapMemoryManager.create this spec.availableRamBytes) w where
  manager := idle.manager
  unregistered := rfl
  sound :=
    { disciplined := idle.vacant.disciplined
      held := fun _ member => absurd member List.not_mem_nil
      distinct := List.nodup_nil
      counted := rfl }
  ram := idle.vacant.ram
  kv := idle.vacant.kv
  backend := idle.vacant.backend

theorem Idle.released (idle : Idle this spec w) : Released w :=
  ⟨idle.vacant.ram, idle.vacant.kv, idle.vacant.backend, _, idle.manager, rfl, rfl⟩

theorem Idle.tier_eq (idle : Idle this spec w) : w.tier = spec.tier := by
  rw [World.tier, idle.spec]

theorem Idle.retrace (idle : Idle this spec w) {trace : Trace} (disciplined : Heap.Disciplined trace)
    (empty : Heap.live trace = []) : Idle this spec { w with trace } where
  vacant := ⟨idle.vacant.ram, idle.vacant.kv, idle.vacant.backend, disciplined, empty⟩
  manager := idle.manager
  spec := idle.spec
  owned := idle.owned

def OutOfMemory {α : Type} (outcome : Except Stop α × World) : Prop :=
  outcome.1 = .error (.threw .badAlloc) ∧ ¬ Unfailing outcome.2.trace

theorem OutOfMemory.eq {α : Type} {outcome : Except Stop α × World} (failed : OutOfMemory outcome) :
    outcome = (.error (.threw .badAlloc), outcome.2) := Prod.ext failed.1 rfl

theorem OutOfMemory.of_event {α : Type} {event : Event} {w : World} {t : Trace} (failed : event.failed = true)
    (logged : w.trace = event :: t) : OutOfMemory ((.error (.threw .badAlloc), w) : Except Stop α × World) := by
  refine ⟨rfl, fun unfailing => ?_⟩
  have clean := unfailing event (logged ▸ List.mem_cons_self)
  rw [failed] at clean
  cases clean

/-- The weights are deleted again where the KV block is refused. -/
theorem Idle.given_back (idle : Idle this spec w) {ram : Addr}
    (weights : WeightsObtained env (HeapMemoryManager.create this spec.availableRamBytes) w ram) :
    Idle this spec { w with trace := .delete this ram ::
      (w.weighted (HeapMemoryManager.create this spec.availableRamBytes) ram).trace } := by
  have vacant := idle.vacant
  refine idle.retrace ⟨?_, ?_⟩ ?_
  · exact ⟨⟨this, ram, (weightSize w.tier).toNat⟩, by simp [World.weighted, HeapMemoryManager.create],
      rfl, rfl⟩
  · exact ⟨env.new_ne_null _ _ _ weights.obtained, env.new_fresh _ _ _ weights.obtained, vacant.disciplined⟩
  · simp [World.weighted, HeapMemoryManager.create, Heap.live_delete, vacant.empty]

theorem Idle.load_unfit (idle : Idle this spec w) (unfit : ¬ Fits spec) :
    OutOfMemory (loadBackendResources env w) ∨
    ∃ w', loadBackendResources env w = (.ok false, w') ∧ Idle this spec w' := by
  have outcome : LoadOutcome env _ w (loadBackendResources env w) := idle.ready.load_outcome
  generalize loadBackendResources env w = result at outcome
  cases outcome with
  | weightsRefused _ => exact .inr ⟨_, rfl, idle⟩
  | weightsBadAlloc _ _ => exact .inl (.of_event rfl rfl)
  | weightsAbandoned ram _ _ _ => exact .inl (.of_event rfl rfl)
  | kvRefused ram weights _ => exact .inr ⟨_, rfl, idle.given_back env weights⟩
  | kvBadAlloc ram _ _ _ => exact .inl (.of_event rfl rfl)
  | kvAbandoned ram kv _ _ _ _ => exact .inl (.of_event rfl rfl)
  | loaded ram kv weights admittedKv _ =>
    rw [World.weighted, idle.tier_eq] at admittedKv
    have admitted := weights.admitted
    rw [idle.tier_eq] at admitted
    exact absurd ((fits_iff_admitted this spec ram w.trace).mpr ⟨admitted, admittedKv⟩) unfit

theorem Idle.load_fit (idle : Idle this spec w) (fits : Fits spec) :
    OutOfMemory (loadBackendResources env w) ∨
    ∃ ram kv, ram ≠ nullptr ∧ kv ≠ nullptr ∧ ram ≠ kv ∧ loadBackendResources env w =
      (.ok true, w.loaded (HeapMemoryManager.create this spec.availableRamBytes) ram kv) := by
  have outcome : LoadOutcome env _ w (loadBackendResources env w) := idle.ready.load_outcome
  generalize loadBackendResources env w = result at outcome
  cases outcome with
  | weightsRefused refused =>
    rw [idle.tier_eq] at refused
    exact absurd refused ((fits_iff_admitted this spec nullptr w.trace).mp fits).1
  | weightsBadAlloc _ _ => exact .inl (.of_event rfl rfl)
  | weightsAbandoned ram _ _ _ => exact .inl (.of_event rfl rfl)
  | kvRefused ram _ refused =>
    rw [World.weighted, idle.tier_eq] at refused
    exact absurd refused ((fits_iff_admitted this spec ram w.trace).mp fits).2
  | kvBadAlloc ram _ _ _ => exact .inl (.of_event rfl rfl)
  | kvAbandoned ram kv _ _ _ _ => exact .inl (.of_event rfl rfl)
  | loaded ram kv weights _ obtainedKv =>
    have fresh := env.new_fresh _ _ _ obtainedKv ⟨this, ram, (weightSize w.tier).toNat⟩
      (by simp [World.weighted, HeapMemoryManager.create])
    exact .inr ⟨ram, kv, env.new_ne_null _ _ _ weights.obtained, env.new_ne_null _ _ _ obtainedKv, fresh, rfl⟩

theorem Holding.live_eq (m : HeapMemoryManager) (ram kv : Addr) (empty : Heap.live w.trace = []) :
    Heap.live (w.loaded m ram kv).trace =
      [⟨m.this, ram, (weightSize w.tier).toNat⟩, ⟨m.this, kv, (kvSize w.tier).toNat⟩] := by
  simp [World.loaded, World.weighted, empty]

theorem Idle.unload_loaded (idle : Idle this spec w) {ram kv : Addr} (ramNonnull : ram ≠ nullptr)
    (kvNonnull : kv ≠ nullptr) (distinct : ram ≠ kv) :
    unloadBackendResources env
        (w.loaded (HeapMemoryManager.create this spec.availableRamBytes) ram kv) =
      (.ok (), w.unloaded (HeapMemoryManager.create this spec.availableRamBytes) ram kv) ∧
    Idle this spec (w.unloaded (HeapMemoryManager.create this spec.availableRamBytes) ram kv) := by
  have held := Holding.live_eq (HeapMemoryManager.create this spec.availableRamBytes) ram kv
    idle.vacant.empty
  constructor
  · exact idle.ready.unload_loaded ramNonnull kvNonnull List.not_mem_nil List.not_mem_nil
  · apply idle.retrace
    · refine ⟨?_, ?_, kvNonnull, ?_, ramNonnull, ?_, idle.vacant.disciplined⟩
      · rw [Heap.live_delete, held]
        exact ⟨⟨this, kv, (kvSize w.tier).toNat⟩, by simp [HeapMemoryManager.create], rfl, rfl⟩
      · rw [held]
        exact ⟨⟨this, ram, _⟩, List.mem_cons_self, rfl, rfl⟩
      · intro b member
        have only : b = ⟨this, ram, (weightSize w.tier).toNat⟩ := by
          simpa [World.weighted, HeapMemoryManager.create, idle.vacant.empty] using member
        rw [only]
        exact distinct
      · simp [idle.vacant.empty]
    · rw [Heap.live_delete, Heap.live_delete, held]
      simp [HeapMemoryManager.create]

theorem Holding.unload (holding : Holding this spec w) :
    ∃ w', unloadBackendResources env w = (.ok (), w') ∧ Idle this spec w' := by
  cases holding with
  | loaded ram kv idle ramNonnull kvNonnull distinct =>
    exact ⟨_, idle.unload_loaded env ramNonnull kvNonnull distinct⟩

theorem Holding.backend (holding : Holding this spec w) :
    derefBackend w = (.ok { useOnnx := false }, w) := by
  cases holding with
  | loaded ram kv _ _ _ _ => rfl

theorem Idle.generate (idle : Idle this spec w) (prompt : String) (maxTokens : UInt32) :
    OutOfMemory (generate env prompt maxTokens w) ∨
    ∃ text w', generate env prompt maxTokens w = (.ok text, w') ∧ Idle this spec w' ∧
      (text ≠ generateError ↔ Fits spec) := by
  by_cases fits : Fits spec
  · rcases idle.load_fit env fits with failed | ⟨ram, kv, ramNonnull, kvNonnull, distinct, load⟩
    · left
      rw [generate_stopped prompt maxTokens idle.ready failed.eq]
      exact ⟨rfl, failed.2⟩
    · have unload := idle.unload_loaded env ramNonnull kvNonnull distinct
      have served :=
        (generate_loaded prompt maxTokens idle.ready load).trans (respond_served idle.ready unload.1)
      exact .inr ⟨_, _, served, unload.2, by simp [fits]; decide⟩
  · rcases idle.load_unfit env fits with failed | ⟨w', load, after⟩
    · left
      rw [generate_stopped prompt maxTokens idle.ready failed.eq]
      exact ⟨rfl, failed.2⟩
    · exact .inr ⟨_, w', generate_loaded prompt maxTokens idle.ready load, after, by simp [fits]⟩

theorem Idle.streaming_unfit (idle : Idle this spec w) (unfit : ¬ Fits spec) (prompt : String)
    (onToken : Option TokenCallback) :
    OutOfMemory (generateStreaming env prompt onToken w) ∨
    ∃ w', generateStreaming env prompt onToken w = (.ok false, w') ∧ Idle this spec w' := by
  rcases idle.load_unfit env unfit with failed | ⟨w', load, after⟩
  · left
    rw [streaming_stopped prompt onToken idle.ready failed.eq]
    exact ⟨rfl, failed.2⟩
  · exact .inr ⟨w', streaming_loaded prompt onToken idle.ready load, after⟩

theorem Idle.streaming_fit (idle : Idle this spec w) (fits : Fits spec) (prompt : String)
    (onToken : Option TokenCallback) :
    OutOfMemory (generateStreaming env prompt onToken w) ∨
    ∃ w', generateStreaming env prompt onToken w = streamAndUnload env onToken w' ∧
      Holding this spec w' := by
  rcases idle.load_fit env fits with failed | ⟨ram, kv, ramNonnull, kvNonnull, distinct, load⟩
  · left
    rw [streaming_stopped prompt onToken idle.ready failed.eq]
    exact ⟨rfl, failed.2⟩
  · have reached :=
      (streaming_loaded prompt onToken idle.ready load).trans (respondStreaming_loaded onToken)
    exact .inr ⟨_, reached, .loaded ram kv idle ramNonnull kvNonnull distinct⟩

end Idle

end LLM.Core

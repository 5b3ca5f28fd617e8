import OnDeviceLLM.Core.History
import OnDeviceLLM.Core.Invariants

namespace LLM.Core

open Cxx Hardware Hal Memory

inductive Cause where
  | budget
  | badAlloc
  deriving DecidableEq

/-- One of the two blocks cannot be had, and why. -/
inductive Failure (env : Environment) (m : HeapMemoryManager) (w : World) : Cause → Prop where
  | weightsRefused (refused : m.Refuses (weightSize w.tier)) : Failure env m w .budget
  | weightsBadAlloc (admitted : ¬ m.Refuses (weightSize w.tier))
      (failed : env.new w.trace (weightSize w.tier).toNat = none) : Failure env m w .badAlloc
  | kvRefused (ram : Addr) (weights : WeightsObtained env m w ram)
      (refused : (w.weighted m ram).manager.Refuses (kvSize w.tier)) : Failure env m w .budget
  | kvBadAlloc (ram : Addr) (weights : WeightsObtained env m w ram)
      (admitted : ¬ (w.weighted m ram).manager.Refuses (kvSize w.tier))
      (failed : env.new (w.weighted m ram).trace (kvSize w.tier).toNat = none) :
      Failure env m w .badAlloc

/-- `generate` and `generate_streaming` report the failure by their results, whatever the
    callback would have done, and leave the runtime and its blocks as they were. -/
def FailureReported (env : Environment) (w : World) : Prop :=
  ∃ w', w'.runtime = w.runtime ∧ Heap.live w'.trace = Heap.live w.trace ∧
    (∀ prompt maxTokens, generate env prompt maxTokens w = (.ok generateError, w')) ∧
    ∀ prompt onToken, generateStreaming env prompt onToken w = (.ok false, w')

section Failure

variable {env : Environment} {m : HeapMemoryManager} {w : World}

theorem Failure.load_budget (ready : Ready m w) (failure : Failure env m w .budget) :
    ∃ w', loadBackendResources env w = (.ok false, w') ∧ w'.runtime = w.runtime ∧
      Heap.live w'.trace = Heap.live w.trace := by
  have outcome : LoadOutcome env m w (loadBackendResources env w) := ready.load_outcome
  generalize loadBackendResources env w = result at outcome
  cases failure with
  | weightsRefused refused =>
    cases outcome with
    | weightsRefused _ => exact ⟨w, rfl, rfl, rfl⟩
    | weightsBadAlloc admitted _ => exact absurd refused admitted
    | weightsAbandoned ram admitted _ _ => exact absurd refused admitted
    | kvRefused ram weights _ => exact absurd refused weights.admitted
    | kvBadAlloc ram weights _ _ => exact absurd refused weights.admitted
    | kvAbandoned ram kv weights _ _ _ => exact absurd refused weights.admitted
    | loaded ram kv weights _ _ => exact absurd refused weights.admitted
  | kvRefused ram weights refused =>
    cases outcome with
    | weightsRefused refused => exact absurd refused weights.admitted
    | weightsBadAlloc _ failed =>
      rw [weights.obtained] at failed
      cases failed
    | weightsAbandoned ram' _ obtained stuck =>
      rw [weights.unique obtained, weights.grown] at stuck
      cases stuck
    | kvRefused ram' weights' _ =>
      rw [weights.unique weights'.obtained]
      exact ⟨_, rfl, rfl, weights.live_given_back⟩
    | kvBadAlloc ram' weights' admitted _ =>
      rw [weights.unique weights'.obtained] at admitted
      exact absurd refused admitted
    | kvAbandoned ram' kv weights' admitted _ _ =>
      rw [weights.unique weights'.obtained] at admitted
      exact absurd refused admitted
    | loaded ram' kv weights' admitted _ =>
      rw [weights.unique weights'.obtained] at admitted
      exact absurd refused admitted

theorem Failure.load_badAlloc (ready : Ready m w) (failure : Failure env m w .badAlloc) :
    ∃ w', loadBackendResources env w = (.error (.threw .badAlloc), w') := by
  have outcome : LoadOutcome env m w (loadBackendResources env w) := ready.load_outcome
  generalize loadBackendResources env w = result at outcome
  cases outcome with
  | weightsBadAlloc _ _ => exact ⟨_, rfl⟩
  | weightsAbandoned ram _ _ _ => exact ⟨_, rfl⟩
  | kvBadAlloc ram _ _ _ => exact ⟨_, rfl⟩
  | kvAbandoned ram kv _ _ _ _ => exact ⟨_, rfl⟩
  | weightsRefused refused =>
    cases failure with
    | weightsBadAlloc admitted _ => exact absurd refused admitted
    | kvBadAlloc ram weights _ _ => exact absurd refused weights.admitted
  | kvRefused ram weights refused =>
    cases failure with
    | weightsBadAlloc _ failed =>
      rw [weights.obtained] at failed
      cases failed
    | kvBadAlloc ram' weights' admitted _ =>
      rw [weights.unique weights'.obtained] at admitted
      exact absurd refused admitted
  | loaded ram kv weights _ obtained =>
    cases failure with
    | weightsBadAlloc _ failed =>
      rw [weights.obtained] at failed
      cases failed
    | kvBadAlloc ram' weights' _ failed =>
      rw [weights.unique weights'.obtained, obtained] at failed
      cases failed

theorem Failure.reported_iff {cause : Cause} (failure : Failure env m w cause) (ready : Ready m w) :
    FailureReported env w ↔ cause = .budget := by
  cases cause with
  | budget =>
    obtain ⟨w', load, runtime, live⟩ := failure.load_budget ready
    refine ⟨fun _ => rfl, fun _ => ⟨w', runtime, live, ?_, ?_⟩⟩
    · exact fun prompt maxTokens => generate_loaded prompt maxTokens ready load
    · exact fun prompt onToken => streaming_loaded prompt onToken ready load
  | badAlloc =>
    obtain ⟨w', load⟩ := failure.load_badAlloc ready
    refine ⟨fun reported => ?_, nofun⟩
    obtain ⟨_, _, _, text, _⟩ := reported
    have returned := text "" 0
    rw [generate_stopped "" 0 ready load] at returned
    cases returned

end Failure

/-- A failure is reported and rolled back exactly when it is the manager that refuses: the
    exception of an admitted request escapes. -/
theorem allocation_failure_reported_iff {env : Environment} {m : HeapMemoryManager} {w : World}
    {cause : Cause} (ready : Ready m w) (failure : Failure env m w cause) :
    FailureReported env w ↔ cause = .budget :=
  failure.reported_iff ready

/-- So it is in every state that calls lead to and in which the runtime holds nothing, whatever else
    its manager still counts. -/
theorem run_failure_reported_iff {env : Environment} (calls : List Call) {m : HeapMemoryManager} {cause : Cause}
    (manager : (run env calls World.create).runtime.memoryManager = some m)
    (ram : (run env calls World.create).runtime.allocatedRamPtr = nullptr)
    (kv : (run env calls World.create).runtime.allocatedKvPtr = nullptr)
    (backend : (run env calls World.create).runtime.backend = none)
    (failure : Failure env m (run env calls World.create) cause) :
    FailureReported env (run env calls World.create) ↔ cause = .budget :=
  failure.reported_iff (run_ready calls manager ram kv backend)

def initialised (spec : HardwareSpec) : World := (initializeRuntime "model" spec World.create).2

theorem initialised_ready (spec : HardwareSpec) :
    Ready (HeapMemoryManager.create 0 spec.availableRamBytes) (initialised spec) := by
  obtain ⟨w, result, idle⟩ := World.create_vacant.initialize "model" spec
  rw [initialised, result]
  exact idle.ready

theorem allocation_failure_reported_tight : FailureReported (.bump fun _ _ => true) (initialised tightSpec) :=
  (allocation_failure_reported_iff (initialised_ready tightSpec)
    (.kvRefused 1 ⟨by decide, rfl, rfl⟩ (by decide))).mpr rfl

/-- The heap has room for the weights and not for the KV block. -/
theorem allocation_failure_escapes :
    Failure (.bump fun t _ => (Heap.live t).isEmpty) (HeapMemoryManager.create 0 roomySpec.availableRamBytes)
      (initialised roomySpec) .badAlloc ∧
    ¬ FailureReported (.bump fun t _ => (Heap.live t).isEmpty) (initialised roomySpec) := by
  refine ⟨.kvBadAlloc 1 ⟨by decide, rfl, rfl⟩ (by decide) rfl, fun reported => ?_⟩
  obtain ⟨w', _, _, text, _⟩ := reported
  have escaped : (generate (.bump fun t _ => (Heap.live t).isEmpty) "" 0 (initialised roomySpec)).1 =
      .error (.threw .badAlloc) := by decide +kernel
  rw [text "" 0] at escaped
  cases escaped

end LLM.Core

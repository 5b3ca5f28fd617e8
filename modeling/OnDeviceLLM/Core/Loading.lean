import OnDeviceLLM.Core.Runtime
import OnDeviceLLM.Memory.Ledger

namespace LLM.Core

open Cxx Hardware Hal Memory

def World.store (w : World) (p : Process) : World :=
  { w with
    runtime := { w.runtime with memoryManager := some p.manager }
    trace := p.trace }

theorem onManager_of {α : Type} {x : Exec Process α} {w : World} {m : HeapMemoryManager} {p : Process}
    {result : Except Stop α} (present : w.runtime.memoryManager = some m)
    (outcome : x ⟨m, w.trace⟩ = (result, p)) : onManager x w = (result, w.store p) := by
  simp [onManager, present, outcome, World.store]

theorem printMemoryStats_apply {env : Environment} {w : World} {m : HeapMemoryManager}
    (present : w.runtime.memoryManager = some m) :
    printMemoryStats env w = (.ok (getStats env m), w) := by
  have printed : (do let p ← Exec.get; pure (getStats env p.manager) : Exec Process MemoryStats)
      ⟨m, w.trace⟩ = (.ok (getStats env m), ⟨m, w.trace⟩) := rfl
  rw [printMemoryStats, onManager_of present printed]
  simp [World.store, ← present]

theorem getMemoryStats_apply (env : Environment) {w : World} {m : HeapMemoryManager}
    (present : w.runtime.memoryManager = some m) :
    getMemoryStats env w = (.ok (getStats env m), w) := by
  simp [getMemoryStats, present]

section Unregistered

variable {env : Environment} {p : Process}

theorem notifyPressure_noCallback (unregistered : p.manager.pressureCallback = false) :
    notifyPressure env noCallback p = (.ok (), p) := by
  rw [notifyPressure_unregistered unregistered, Process.announce]
  simp [unregistered]

theorem allocate_admitted (unregistered : p.manager.pressureCallback = false) {size : UInt64}
    {useMmap : Bool} {ptr : Addr} (admitted : ¬ p.manager.Refuses size)
    (obtained : env.new p.trace size.toNat = some ptr)
    (grown : env.grow (.new p.manager.this ptr size.toNat :: p.trace) = true) :
    allocateWeights env noCallback size useMmap p = (.ok ptr, p.enroll ptr size) := by
  rw [allocateWeights_admitted admitted obtained grown,
    Exec.bind_of_ok (notifyPressure_noCallback (p := p.enroll ptr size) unregistered)]
  rfl

theorem deallocate_held (unregistered : p.manager.pressureCallback = false) {ptr : Addr} {size : UInt64}
    (known : p.manager.allocations.find? (fun q => q.1 = ptr) = some (ptr, size)) :
    deallocate env noCallback ptr p = (.ok (), p.release ptr size) := by
  rw [deallocate_known known]
  exact notifyPressure_noCallback unregistered

end Unregistered

theorem Process.release_enrolled {m : HeapMemoryManager} {ptr : Addr} (size : UInt64)
    (fresh : ptr ∉ m.addresses) (before after : Trace) :
    (Process.enroll ⟨m, before⟩ ptr size).manager.allocations.find? (fun q => q.1 = ptr) =
      some (ptr, size) ∧
    Process.release ⟨(Process.enroll ⟨m, before⟩ ptr size).manager, after⟩ ptr size =
      ⟨m, .delete m.this ptr :: after⟩ := by
  have missed : ∀ q ∈ m.allocations, ¬ (decide (q.1 = ptr) = true) := by
    intro q member hit
    exact fresh (List.mem_map.mpr ⟨q, member, by simpa using hit⟩)
  constructor
  · rw [Process.enroll_allocations, List.find?_append, List.find?_eq_none.mpr missed]
    simp
  · simp only [Process.release, Process.enroll, UInt64.add_sub_cancel]
    rw [List.eraseP_append_right _ missed]
    simp

/-- An initialised runtime that holds no resources; its manager may hold blocks of its own. -/
structure Ready (m : HeapMemoryManager) (w : World) : Prop where
  manager : w.runtime.memoryManager = some m
  unregistered : m.pressureCallback = false
  sound : Sound ⟨m, w.trace⟩
  ram : w.runtime.allocatedRamPtr = nullptr
  kv : w.runtime.allocatedKvPtr = nullptr
  backend : w.runtime.backend = none

def World.tier (w : World) : DeviceTier := w.runtime.hardwareSpec.tier

def World.weighted (w : World) (m : HeapMemoryManager) (ptr : Addr) : Process :=
  Process.enroll ⟨m, w.trace⟩ ptr (weightSize w.tier)

def World.loaded (w : World) (m : HeapMemoryManager) (ram kv : Addr) : World where
  runtime :=
    { w.runtime with
      allocatedRamPtr := ram
      allocatedKvPtr := kv
      memoryManager := some ((w.weighted m ram).enroll kv (kvSize w.tier)).manager
      backend := some { useOnnx := false } }
  managers := w.managers
  trace := ((w.weighted m ram).enroll kv (kvSize w.tier)).trace

def World.withRam (w : World) (ptr : Addr) : World :=
  { w with runtime := { w.runtime with allocatedRamPtr := ptr } }

def World.withKv (w : World) (ptr : Addr) : World :=
  { w with runtime := { w.runtime with allocatedKvPtr := ptr } }

structure WeightsObtained (env : Environment) (m : HeapMemoryManager) (w : World) (ram : Addr) : Prop where
  admitted : ¬ m.Refuses (weightSize w.tier)
  obtained : env.new w.trace (weightSize w.tier).toNat = some ram
  grown : env.grow (w.weighted m ram).trace = true

/-- Every way `load_backend_resources` can end. -/
inductive LoadOutcome (env : Environment) (m : HeapMemoryManager) (w : World) :
    Except Stop Bool × World → Prop where
  | weightsRefused (refused : m.Refuses (weightSize w.tier)) : LoadOutcome env m w (.ok false, w)
  | weightsBadAlloc (admitted : ¬ m.Refuses (weightSize w.tier))
      (failed : env.new w.trace (weightSize w.tier).toNat = none) :
      LoadOutcome env m w (.error (.threw .badAlloc),
        w.store (Process.log ⟨m, w.trace⟩ (.newFailed m.this (weightSize w.tier).toNat)))
  | weightsAbandoned (ram : Addr) (admitted : ¬ m.Refuses (weightSize w.tier))
      (obtained : env.new w.trace (weightSize w.tier).toNat = some ram)
      (stuck : env.grow (w.weighted m ram).trace = false) :
      LoadOutcome env m w (.error (.threw .badAlloc),
        w.store (Process.abandon ⟨m, w.trace⟩ ram (weightSize w.tier)))
  | kvRefused (ram : Addr) (weights : WeightsObtained env m w ram)
      (refused : (w.weighted m ram).manager.Refuses (kvSize w.tier)) :
      LoadOutcome env m w (.ok false,
        { w with trace := .delete m.this ram :: (w.weighted m ram).trace })
  | kvBadAlloc (ram : Addr) (weights : WeightsObtained env m w ram)
      (admitted : ¬ (w.weighted m ram).manager.Refuses (kvSize w.tier))
      (failed : env.new (w.weighted m ram).trace (kvSize w.tier).toNat = none) :
      LoadOutcome env m w (.error (.threw .badAlloc),
        (w.store ((w.weighted m ram).log (.newFailed m.this (kvSize w.tier).toNat))).withRam ram)
  | kvAbandoned (ram kv : Addr) (weights : WeightsObtained env m w ram)
      (admitted : ¬ (w.weighted m ram).manager.Refuses (kvSize w.tier))
      (obtained : env.new (w.weighted m ram).trace (kvSize w.tier).toNat = some kv)
      (stuck : env.grow ((w.weighted m ram).enroll kv (kvSize w.tier)).trace = false) :
      LoadOutcome env m w (.error (.threw .badAlloc),
        (w.store ((w.weighted m ram).abandon kv (kvSize w.tier))).withRam ram)
  | loaded (ram kv : Addr) (weights : WeightsObtained env m w ram)
      (admitted : ¬ (w.weighted m ram).manager.Refuses (kvSize w.tier))
      (obtained : env.new (w.weighted m ram).trace (kvSize w.tier).toNat = some kv)
      (grown : env.grow (w.loaded m ram kv).trace = true) :
      LoadOutcome env m w (.ok true, w.loaded m ram kv)

theorem createBackend_apply (env : Environment) (w : World) :
    createBackend env w =
      (.ok true, { w with runtime := { w.runtime with backend := some { useOnnx := false } } }) := by
  simp [createBackend, setRuntime, BackendFactory.createOptimal, CPUBackend.initializeBackend]

/-- The weights are in place and the KV block is asked for. -/
def loadKv (env : Environment) (ram : Addr) (tier : DeviceTier) : Exec World Bool := do
  let kv ← onManager (allocateKvCache env noCallback (kvSize tier) .none)
  setRuntime fun r => { r with allocatedKvPtr := kv }
  if kv = nullptr then
    onManager (deallocate env noCallback ram)
    setRuntime fun r => { r with allocatedRamPtr := nullptr }
    pure false
  else createBackend env

theorem load_eq (env : Environment) (w : World) :
    loadBackendResources env w =
      (onManager (allocateWeights env noCallback (weightSize w.tier) true) >>= fun ram =>
        setRuntime (fun r => { r with allocatedRamPtr := ram }) >>= fun _ =>
          if ram = nullptr then pure false else loadKv env ram w.tier) w := rfl

section Load

variable {env : Environment} {m : HeapMemoryManager} {w : World}

theorem WeightsObtained.unique {ram ram' : Addr} (weights : WeightsObtained env m w ram)
    (obtained : env.new w.trace (weightSize w.tier).toNat = some ram') : ram' = ram :=
  Option.some.inj (obtained.symm.trans weights.obtained)

theorem WeightsObtained.live_given_back {ram : Addr} (weights : WeightsObtained env m w ram) :
    Heap.live (.delete m.this ram :: (w.weighted m ram).trace) = Heap.live w.trace := by
  have fresh : ∀ b ∈ Heap.live w.trace, ¬ (decide (b.owner = m.this ∧ b.addr = ram) = true) := by
    intro b member hit
    have same : b.owner = m.this ∧ b.addr = ram := by simpa using hit
    exact env.new_fresh _ _ _ weights.obtained b member same.2
  rw [Heap.live_delete, World.weighted, Process.enroll_trace, Heap.live_new,
    List.eraseP_append_right _ fresh]
  simp

theorem Ready.restored (ready : Ready m w) (trace : Trace) :
    ({ w with trace } : World) =
      { w with
        runtime := { w.runtime with
          allocatedRamPtr := nullptr
          allocatedKvPtr := nullptr
          memoryManager := some m }
        trace } := by
  obtain ⟨hasManager, _, _, noRam, noKv, _⟩ := ready
  rcases w with ⟨⟨path, ram, kv, spec, manager, backend⟩, managers, old⟩
  dsimp only at hasManager noRam noKv
  subst hasManager noRam noKv
  rfl

theorem Ready.cleared (ready : Ready m w) (trace : Trace) :
    ({ w with trace } : World) =
      { w with
        runtime := { w.runtime with
          allocatedRamPtr := nullptr
          allocatedKvPtr := nullptr
          memoryManager := some m
          backend := none }
        trace } := by
  rw [ready.restored trace, ← ready.backend]

theorem Ready.store_withRam (ready : Ready m w) : (w.store ⟨m, w.trace⟩).withRam nullptr = w := by
  obtain ⟨hasManager, _, _, noRam, _, _⟩ := ready
  rcases w with ⟨⟨path, ram, kv, spec, manager, backend⟩, managers, old⟩
  dsimp only at hasManager noRam
  subst hasManager noRam
  rfl

theorem Ready.weights_fresh (ready : Ready m w) {ram : Addr}
    (obtained : env.new w.trace (weightSize w.tier).toNat = some ram) : ram ∉ m.addresses :=
  ready.sound.fresh_not_in_ledger (s := ⟨m, w.trace⟩) obtained

theorem Ready.loadKv_outcome (ready : Ready m w) {ram : Addr} (weights : WeightsObtained env m w ram) :
    LoadOutcome env m w (loadKv env ram w.tier ((w.store (w.weighted m ram)).withRam ram)) := by
  have quiet : (w.weighted m ram).manager.pressureCallback = false := ready.unregistered
  have present : ((w.store (w.weighted m ram)).withRam ram).runtime.memoryManager =
      some (w.weighted m ram).manager := rfl
  by_cases refused : (w.weighted m ram).manager.Refuses (kvSize w.tier)
  · have requested : allocateKvCache env noCallback (kvSize w.tier) .none (w.weighted m ram) =
        (.ok nullptr, w.weighted m ram) := allocateWeights_refused refused
    have entry := Process.release_enrolled (weightSize w.tier) (ready.weights_fresh weights.obtained)
      w.trace (w.weighted m ram).trace
    have released : deallocate env noCallback ram (w.weighted m ram) =
        (.ok (), (w.weighted m ram).release ram (weightSize w.tier)) := deallocate_held quiet entry.1
    have undone : (w.weighted m ram).release ram (weightSize w.tier) =
        ⟨m, .delete m.this ram :: (w.weighted m ram).trace⟩ := entry.2
    have outcome := LoadOutcome.kvRefused ram weights refused
    rw [ready.restored] at outcome
    rw [loadKv, Exec.bind_of_ok (onManager_of present requested)]
    simp only [setRuntime, Exec.modify_bind_apply, if_true]
    rw [Exec.bind_of_ok (onManager_of rfl released), undone]
    exact outcome
  · cases obtainedKv : env.new (w.weighted m ram).trace (kvSize w.tier).toNat with
    | none =>
      have requested : allocateKvCache env noCallback (kvSize w.tier) .none (w.weighted m ram) =
          (.error (.threw .badAlloc), _) := allocateWeights_badAlloc refused obtainedKv
      rw [loadKv, Exec.bind_of_error (onManager_of present requested)]
      exact .kvBadAlloc ram weights refused obtainedKv
    | some kv =>
      cases grownKv : env.grow ((w.weighted m ram).enroll kv (kvSize w.tier)).trace with
      | false =>
        have requested : allocateKvCache env noCallback (kvSize w.tier) .none (w.weighted m ram) =
            (.error (.threw .badAlloc), _) := allocateWeights_growthFailed refused obtainedKv grownKv
        rw [loadKv, Exec.bind_of_error (onManager_of present requested)]
        exact .kvAbandoned ram kv weights refused obtainedKv grownKv
      | true =>
        have requested : allocateKvCache env noCallback (kvSize w.tier) .none (w.weighted m ram) =
            (.ok kv, _) := allocate_admitted quiet refused obtainedKv grownKv
        have nonnull : kv ≠ nullptr := env.new_ne_null _ _ _ obtainedKv
        rw [loadKv, Exec.bind_of_ok (onManager_of present requested)]
        simp only [setRuntime, Exec.modify_bind_apply, if_neg nonnull]
        rw [createBackend_apply]
        exact .loaded ram kv weights refused obtainedKv grownKv

theorem Ready.load_outcome (ready : Ready m w) :
    LoadOutcome env m w (loadBackendResources env w) := by
  rw [load_eq]
  by_cases refused : m.Refuses (weightSize w.tier)
  · have requested : allocateWeights env noCallback (weightSize w.tier) true ⟨m, w.trace⟩ =
        (.ok nullptr, ⟨m, w.trace⟩) := allocateWeights_refused refused
    have outcome : LoadOutcome env m w (.ok false, (w.store ⟨m, w.trace⟩).withRam nullptr) := by
      rw [ready.store_withRam]
      exact .weightsRefused refused
    rw [Exec.bind_of_ok (onManager_of ready.manager requested)]
    simp only [setRuntime, Exec.modify_bind_apply, if_true]
    exact outcome
  · cases obtained : env.new w.trace (weightSize w.tier).toNat with
    | none =>
      have requested : allocateWeights env noCallback (weightSize w.tier) true ⟨m, w.trace⟩ =
          (.error (.threw .badAlloc), _) := allocateWeights_badAlloc refused obtained
      rw [Exec.bind_of_error (onManager_of ready.manager requested)]
      exact .weightsBadAlloc refused obtained
    | some ram =>
      cases grown : env.grow (w.weighted m ram).trace with
      | false =>
        have requested : allocateWeights env noCallback (weightSize w.tier) true ⟨m, w.trace⟩ =
            (.error (.threw .badAlloc), _) := allocateWeights_growthFailed refused obtained grown
        rw [Exec.bind_of_error (onManager_of ready.manager requested)]
        exact .weightsAbandoned ram refused obtained grown
      | true =>
        have requested : allocateWeights env noCallback (weightSize w.tier) true ⟨m, w.trace⟩ =
            (.ok ram, w.weighted m ram) := allocate_admitted ready.unregistered refused obtained grown
        have nonnull : ram ≠ nullptr := env.new_ne_null _ _ _ obtained
        rw [Exec.bind_of_ok (onManager_of ready.manager requested)]
        simp only [setRuntime, Exec.modify_bind_apply, if_neg nonnull]
        exact ready.loadKv_outcome ⟨refused, obtained, grown⟩

end Load

section Unload

variable {env : Environment} {m : HeapMemoryManager} {w : World}

theorem releaseRam_apply {x : World} {p : Process} (present : x.runtime.memoryManager = some m)
    (held : x.runtime.allocatedRamPtr ≠ nullptr)
    (released : deallocate env noCallback x.runtime.allocatedRamPtr ⟨m, x.trace⟩ = (.ok (), p)) :
    releaseRam env x = (.ok (), (x.store p).withRam nullptr) := by
  rw [releaseRam, Exec.get_bind_apply, if_pos held, Exec.bind_of_ok (onManager_of present released)]
  rfl

theorem releaseKv_apply {x : World} {p : Process} (present : x.runtime.memoryManager = some m)
    (held : x.runtime.allocatedKvPtr ≠ nullptr)
    (released : deallocate env noCallback x.runtime.allocatedKvPtr ⟨m, x.trace⟩ = (.ok (), p)) :
    releaseKv env x = (.ok (), (x.store p).withKv nullptr) := by
  rw [releaseKv, Exec.get_bind_apply, if_pos held, Exec.bind_of_ok (onManager_of present released)]
  rfl

theorem unload_nothing (noRam : w.runtime.allocatedRamPtr = nullptr)
    (noKv : w.runtime.allocatedKvPtr = nullptr) :
    unloadBackendResources env w =
      (.ok (), { w with runtime := { w.runtime with backend := none } }) := by
  simp [unloadBackendResources, releaseRam, releaseKv, Exec.bind_apply, noRam, noKv, setRuntime]

theorem Ready.unload (ready : Ready m w) : unloadBackendResources env w = (.ok (), w) := by
  rw [unload_nothing ready.ram ready.kv]
  simp only [← ready.backend]

def World.unloaded (w : World) (m : HeapMemoryManager) (ram kv : Addr) : World :=
  { w with trace :=
      .delete m.this kv :: .delete m.this ram :: (w.loaded m ram kv).trace }

def World.kvOnly (w : World) (m : HeapMemoryManager) (ram kv : Addr) : Process :=
  ⟨(Process.enroll ⟨m, w.trace⟩ kv (kvSize w.tier)).manager,
    .delete m.this ram :: (w.loaded m ram kv).trace⟩

theorem World.release_ram (w : World) {ram : Addr} (kv : Addr) (fresh : ram ∉ m.addresses) :
    ((w.weighted m ram).enroll kv (kvSize w.tier)).manager.allocations.find? (fun q => q.1 = ram) =
      some (ram, weightSize w.tier) ∧
    ((w.weighted m ram).enroll kv (kvSize w.tier)).release ram (weightSize w.tier) =
      w.kvOnly m ram kv := by
  have entry := Process.release_enrolled (weightSize w.tier) fresh w.trace w.trace
  have missed : ∀ q ∈ m.allocations, ¬ (decide (q.1 = ram) = true) := by
    intro q member hit
    exact fresh (List.mem_map.mpr ⟨q, member, by simpa using hit⟩)
  constructor
  · rw [Process.enroll_allocations, List.find?_append]
    rw [show (w.weighted m ram).manager.allocations.find? (fun q => q.1 = ram) =
      some (ram, weightSize w.tier) from entry.1]
    rfl
  · have counter : m.allocated + weightSize w.tier + kvSize w.tier - weightSize w.tier =
        m.allocated + kvSize w.tier := by
      rw [UInt64.add_assoc, UInt64.add_comm (weightSize w.tier), ← UInt64.add_assoc,
        UInt64.add_sub_cancel]
    simp only [Process.release, Process.enroll, World.kvOnly, World.weighted, World.loaded, counter]
    rw [List.append_assoc, List.eraseP_append_right _ missed]
    simp

theorem Ready.unload_loaded (ready : Ready m w) {ram kv : Addr} (ramNonnull : ram ≠ nullptr)
    (kvNonnull : kv ≠ nullptr) (ramFresh : ram ∉ m.addresses) (kvFresh : kv ∉ m.addresses) :
    unloadBackendResources env (w.loaded m ram kv) = (.ok (), w.unloaded m ram kv) := by
  have first := w.release_ram kv ramFresh
  have second := Process.release_enrolled (kvSize w.tier) kvFresh w.trace (w.kvOnly m ram kv).trace
  have releasedRam : deallocate env noCallback ram ((w.weighted m ram).enroll kv (kvSize w.tier)) =
      (.ok (), ((w.weighted m ram).enroll kv (kvSize w.tier)).release ram (weightSize w.tier)) :=
    deallocate_held ready.unregistered first.1
  have releasedKv : deallocate env noCallback kv (w.kvOnly m ram kv) =
      (.ok (), (w.kvOnly m ram kv).release kv (kvSize w.tier)) :=
    deallocate_held ready.unregistered second.1
  rw [first.2] at releasedRam
  rw [show (w.kvOnly m ram kv).release kv (kvSize w.tier) = _ from second.2] at releasedKv
  have ramStep := releaseRam_apply (x := w.loaded m ram kv) rfl ramNonnull releasedRam
  have kvStep := releaseKv_apply (x := ((w.loaded m ram kv).store (w.kvOnly m ram kv)).withRam nullptr)
    rfl kvNonnull releasedKv
  rw [unloadBackendResources, Exec.bind_of_ok ramStep, Exec.bind_of_ok kvStep]
  exact congrArg (Prod.mk (Except.ok ())) (ready.cleared (w.unloaded m ram kv).trace).symm

end Unload

/-- What `generate` does with the result of the load. -/
def respond (env : Environment) : Bool → Exec World String
  | true => do
    let _ ← printMemoryStats env
    let backend ← derefBackend
    unloadBackendResources env
    let _ ← printMemoryStats env
    pure ("Generated response (stub) using backend: " ++ backend.getName)
  | false => pure generateError

def stream : Option TokenCallback → Exec World Unit
  | some callback => streamTokens callback
  | none => pure ()

def streamAndUnload (env : Environment) (onToken : Option TokenCallback) : Exec World Bool := do
  stream onToken
  unloadBackendResources env
  let _ ← printMemoryStats env
  pure true

def respondStreaming (env : Environment) (onToken : Option TokenCallback) : Bool → Exec World Bool
  | true => do
    let _ ← printMemoryStats env
    streamAndUnload env onToken
  | false => pure false

theorem generate_eq (env : Environment) (prompt : String) (maxTokens : UInt32) :
    generate env prompt maxTokens =
      (printMemoryStats env >>= fun _ => loadBackendResources env >>= respond env) := by
  unfold generate
  congr 1
  funext _
  congr 1
  funext loaded
  cases loaded <;> rfl

theorem generateStreaming_eq (env : Environment) (prompt : String) (onToken : Option TokenCallback) :
    generateStreaming env prompt onToken =
      (printMemoryStats env >>= fun _ => loadBackendResources env >>= respondStreaming env onToken) := by
  unfold generateStreaming
  congr 1
  funext _
  congr 1
  funext loaded
  cases loaded
  · rfl
  · cases onToken <;> rfl

section Generation

variable {env : Environment} {m : HeapMemoryManager} {w w' : World} (prompt : String)

theorem generate_loaded (maxTokens : UInt32) {loaded : Bool} (ready : Ready m w)
    (load : loadBackendResources env w = (.ok loaded, w')) :
    generate env prompt maxTokens w = respond env loaded w' := by
  rw [generate_eq, Exec.bind_of_ok (printMemoryStats_apply ready.manager), Exec.bind_of_ok load]

theorem generate_stopped (maxTokens : UInt32) {e : Stop} (ready : Ready m w)
    (load : loadBackendResources env w = (.error e, w')) :
    generate env prompt maxTokens w = (.error e, w') := by
  rw [generate_eq, Exec.bind_of_ok (printMemoryStats_apply ready.manager), Exec.bind_of_error load]

theorem respond_served {ram kv : Addr} (ready : Ready m w)
    (unload : unloadBackendResources env (w.loaded m ram kv) = (.ok (), w.unloaded m ram kv)) :
    respond env true (w.loaded m ram kv) =
      (.ok ("Generated response (stub) using backend: " ++ "llama.cpp"), w.unloaded m ram kv) := by
  have during : printMemoryStats env (w.loaded m ram kv) = (.ok _, w.loaded m ram kv) :=
    printMemoryStats_apply rfl
  have after : printMemoryStats env (w.unloaded m ram kv) = (.ok _, w.unloaded m ram kv) :=
    printMemoryStats_apply ready.manager
  have named : derefBackend (w.loaded m ram kv) = (.ok { useOnnx := false }, w.loaded m ram kv) := rfl
  rw [respond, Exec.bind_of_ok during, Exec.bind_of_ok named, Exec.bind_of_ok unload,
    Exec.bind_of_ok after]
  rfl

variable (onToken : Option TokenCallback)

theorem streaming_loaded {loaded : Bool} (ready : Ready m w)
    (load : loadBackendResources env w = (.ok loaded, w')) :
    generateStreaming env prompt onToken w = respondStreaming env onToken loaded w' := by
  rw [generateStreaming_eq, Exec.bind_of_ok (printMemoryStats_apply ready.manager),
    Exec.bind_of_ok load]

theorem streaming_stopped {e : Stop} (ready : Ready m w)
    (load : loadBackendResources env w = (.error e, w')) :
    generateStreaming env prompt onToken w = (.error e, w') := by
  rw [generateStreaming_eq, Exec.bind_of_ok (printMemoryStats_apply ready.manager),
    Exec.bind_of_error load]

theorem respondStreaming_loaded {ram kv : Addr} :
    respondStreaming env onToken true (w.loaded m ram kv) =
      streamAndUnload env onToken (w.loaded m ram kv) := by
  have during : printMemoryStats env (w.loaded m ram kv) = (.ok _, w.loaded m ram kv) :=
    printMemoryStats_apply rfl
  rw [respondStreaming, Exec.bind_of_ok during]

end Generation

end LLM.Core

import OnDeviceLLM.Core.Calls

namespace LLM.Core

open Cxx Hardware Hal Memory

/-- What keeps an invariant of the world through every call but those that initialise is that
    the two operations on the resources keep it. -/
structure Served (env : Environment) (invariant : World → Prop) : Prop where
  load : Exec.Preserves invariant (loadBackendResources env)
  unload : Exec.Preserves invariant (unloadBackendResources env)

/-- What keeps it through every call. -/
structure Kept (env : Environment) (invariant : World → Prop) : Prop extends Served env invariant where
  initializeRuntime : ∀ modelPath detected,
    Exec.Preserves invariant (LLM.Core.initializeRuntime modelPath detected)

section Rule

variable {env : Environment} {invariant : World → Prop}

theorem derefBackend_preserves : Exec.Preserves invariant derefBackend := by
  intro w h
  unfold derefBackend
  split <;> exact h

theorem printMemoryStats_preserves : Exec.Preserves invariant (printMemoryStats env) := by
  intro w h
  cases present : w.runtime.memoryManager with
  | none => simpa [printMemoryStats, onManager, present] using h
  | some m =>
    rw [printMemoryStats_apply present]
    exact h

theorem streamTokens_preserves {callback : TokenCallback}
    (invocation : ∀ i token, Exec.Preserves invariant (callback i token)) :
    Exec.Preserves invariant (streamTokens callback) :=
  (invocation _ _).bind fun _ => (invocation _ _).bind fun _ =>
    derefBackend_preserves.bind fun _ => invocation _ _

theorem Served.respond (served : Served env invariant) (loaded : Bool) :
    Exec.Preserves invariant (respond env loaded) := by
  cases loaded with
  | true =>
    exact printMemoryStats_preserves.bind fun _ => derefBackend_preserves.bind fun _ =>
      served.unload.bind fun _ => printMemoryStats_preserves.bind fun _ => .pure _
  | false => exact .pure _

theorem Served.generate (served : Served env invariant) (prompt : String) (maxTokens : UInt32) :
    Exec.Preserves invariant (generate env prompt maxTokens) := by
  rw [generate_eq]
  exact printMemoryStats_preserves.bind fun _ => served.load.bind fun loaded => served.respond loaded

theorem Served.respondStreaming (served : Served env invariant) {onToken : Option TokenCallback}
    (invocation : ∀ callback, onToken = some callback →
      ∀ i token, Exec.Preserves invariant (callback i token)) (loaded : Bool) :
    Exec.Preserves invariant (respondStreaming env onToken loaded) := by
  have streamed : Exec.Preserves invariant (stream onToken) := by
    cases onToken with
    | none => exact .pure _
    | some callback => exact streamTokens_preserves (invocation callback rfl)
  cases loaded with
  | true =>
    exact printMemoryStats_preserves.bind fun _ => streamed.bind fun _ => served.unload.bind fun _ =>
      printMemoryStats_preserves.bind fun _ => .pure _
  | false => exact .pure _

theorem Served.generateStreaming (served : Served env invariant) (prompt : String)
    {onToken : Option TokenCallback}
    (invocation : ∀ callback, onToken = some callback →
      ∀ i token, Exec.Preserves invariant (callback i token)) :
    Exec.Preserves invariant (generateStreaming env prompt onToken) := by
  rw [generateStreaming_eq]
  exact printMemoryStats_preserves.bind fun _ => served.load.bind fun loaded =>
    served.respondStreaming invocation loaded

mutual
theorem Call.exec_preserves (kept : Kept env invariant) :
    ∀ call : Call, Exec.Preserves invariant (call.exec env)
  | .initializeRuntime modelPath detected =>
    (kept.initializeRuntime modelPath detected).bind fun _ => .pure _
  | .generate prompt maxTokens => (kept.generate prompt maxTokens).bind fun _ => .pure _
  | .generateStreaming prompt onToken => by
    have invocation := OnToken.function_preserves kept onToken
    exact (kept.generateStreaming prompt invocation).bind fun _ => .pure _
  | .getDeviceSpec => Exec.Preserves.get.bind fun _ => .pure _
  | .getMemoryStats => by
    intro w h
    cases present : w.runtime.memoryManager <;>
      simpa [Call.exec, LLM.Core.getMemoryStats, present, Exec.bind_apply] using h
  | .shutdown => kept.unload.bind fun _ => .pure _

theorem OnToken.function_preserves (kept : Kept env invariant) :
    ∀ onToken : OnToken, ∀ callback, onToken.function env = some callback →
      ∀ i token, Exec.Preserves invariant (callback i token)
  | .empty => by
    intro callback given
    cases given
  | .callable first second third => by
    intro callback given i token
    cases given
    match i with
    | 0 => exact Script.exec_preserves kept first
    | 1 => exact Script.exec_preserves kept second
    | 2 => exact Script.exec_preserves kept third

theorem Script.exec_preserves (kept : Kept env invariant) :
    ∀ script : Script, Exec.Preserves invariant (script.exec env)
  | .returns => .pure _
  | .throws => .stop _
  | .call call rest =>
    (Call.exec_preserves kept call).bind fun _ => Script.exec_preserves kept rest
  | .guarded block rest =>
    (Script.exec_preserves kept block).attempt.bind fun _ => Script.exec_preserves kept rest
end

end Rule

/-- What the manager in place does keeps the invariant, and so does a field of the runtime. -/
structure Steady (env : Environment) (invariant : World → Prop) : Prop where
  manager : ∀ {α : Type} {x : Exec Process α}, (∀ s, Steps env s (x s).2) → Exec.Preserves invariant (onManager x)
  field : ∀ {f : LLMRuntimeImpl → LLMRuntimeImpl}, (∀ r, (f r).memoryManager = r.memoryManager) →
    Exec.Preserves invariant (setRuntime f)

namespace Steady

variable {env : Environment} {invariant : World → Prop}

theorem allocateWeights (steady : Steady env invariant) (size : UInt64) (useMmap : Bool) :
    Exec.Preserves invariant (onManager (allocateWeights env noCallback size useMmap)) :=
  steady.manager (Request.allocate_steps (fun _ _ => .refl) (.weights size useMmap))

theorem deallocate (steady : Steady env invariant) (ptr : Addr) :
    Exec.Preserves invariant (onManager (deallocate env noCallback ptr)) :=
  steady.manager (deallocate_steps (fun _ _ => .refl) ptr)

theorem createBackend (steady : Steady env invariant) : Exec.Preserves invariant (createBackend env) := by
  intro w kept
  rw [createBackend_apply]
  exact steady.field (f := fun r => { r with backend := some { useOnnx := false } }) (fun _ => rfl) w kept

theorem loadKv (steady : Steady env invariant) (ram : Addr) (tier : DeviceTier) :
    Exec.Preserves invariant (loadKv env ram tier) := by
  refine (steady.allocateWeights _ _).bind fun kv => ?_
  refine (steady.field (by intro _; rfl)).bind fun _ => ?_
  by_cases refused : kv = nullptr
  · rw [if_pos refused]
    exact (steady.deallocate ram).bind fun _ =>
      (steady.field (by intro _; rfl)).bind fun _ => .pure _
  · rw [if_neg refused]
    exact steady.createBackend

theorem load (steady : Steady env invariant) : Exec.Preserves invariant (loadBackendResources env) := by
  intro w
  rw [load_eq]
  refine Exec.Preserves.bind (steady.allocateWeights _ _) (fun ram => ?_) w
  refine (steady.field (by intro _; rfl)).bind fun _ => ?_
  by_cases refused : ram = nullptr
  · rw [if_pos refused]
    exact .pure _
  · rw [if_neg refused]
    exact steady.loadKv ram w.tier

theorem unload (steady : Steady env invariant) : Exec.Preserves invariant (unloadBackendResources env) := by
  have ram : Exec.Preserves invariant (releaseRam env) := by
    refine Exec.Preserves.get.bind fun w => ?_
    by_cases held : w.runtime.allocatedRamPtr ≠ nullptr
    · rw [if_pos held]
      exact (steady.deallocate _).bind fun _ => steady.field fun _ => rfl
    · rw [if_neg held]
      exact .pure _
  have kv : Exec.Preserves invariant (releaseKv env) := by
    refine Exec.Preserves.get.bind fun w => ?_
    by_cases held : w.runtime.allocatedKvPtr ≠ nullptr
    · rw [if_pos held]
      exact (steady.deallocate _).bind fun _ => steady.field fun _ => rfl
    · rw [if_neg held]
      exact .pure _
  exact ram.bind fun _ => kv.bind fun _ => steady.field fun _ => rfl

theorem served (steady : Steady env invariant) : Served env invariant := ⟨steady.load, steady.unload⟩

end Steady

section WellFormed

variable {env : Environment}

/-- The heap has been used with discipline, and the manager in place knows its blocks. -/
structure WellFormed (w : World) : Prop where
  disciplined : Heap.Disciplined w.trace
  sound : ∀ m, w.runtime.memoryManager = some m → Sound ⟨m, w.trace⟩
  unregistered : ∀ m, w.runtime.memoryManager = some m → m.pressureCallback = false

theorem World.create_wellFormed : WellFormed World.create := ⟨trivial, nofun, nofun⟩

theorem WellFormed.steady (env : Environment) : Steady env WellFormed where
  manager := by
    intro α x steps w wellFormed
    cases present : w.runtime.memoryManager with
    | none => simpa [onManager, present] using wellFormed
    | some m =>
      have path := steps ⟨m, w.trace⟩
      have sound := (wellFormed.sound m present).steps path
      have unregistered := path.pressureCallback_eq.trans (wellFormed.unregistered m present)
      have result : onManager x w = ((x ⟨m, w.trace⟩).1, w.store (x ⟨m, w.trace⟩).2) :=
        onManager_of present rfl
      rw [result]
      constructor
      · exact sound.disciplined
      · intro m' now
        cases now
        exact sound
      · intro m' now
        cases now
        exact unregistered
  field := by
    intro f same w wellFormed
    refine ⟨wellFormed.disciplined, fun m now => ?_, fun m now => ?_⟩
    · exact wellFormed.sound m ((same w.runtime).symm.trans now)
    · exact wellFormed.unregistered m ((same w.runtime).symm.trans now)

theorem WellFormed.kept (env : Environment) : Kept env WellFormed where
  initializeRuntime modelPath detected w wellFormed := by
    refine ⟨wellFormed.disciplined, fun m now => ?_, fun m now => ?_⟩
    · cases now
      exact ⟨wellFormed.disciplined, nofun, List.nodup_nil, rfl⟩
    · cases now
      rfl
  toServed := (WellFormed.steady env).served

def run (env : Environment) : List Call → World → World
  | [], w => w
  | call :: calls, w => run env calls (call.exec env w).2

theorem run_wellFormed (calls : List Call) {w : World} (wellFormed : WellFormed w) :
    WellFormed (run env calls w) := by
  induction calls generalizing w with
  | nil => exact wellFormed
  | cons call calls ih => exact ih (call.exec_preserves (WellFormed.kept env) w wellFormed)

/-- Whatever was called before, callbacks that throw or call the runtime included, an
    initialised runtime that holds nothing is ready for the next load. -/
theorem run_ready (calls : List Call) {m : HeapMemoryManager}
    (manager : (run env calls World.create).runtime.memoryManager = some m)
    (ram : (run env calls World.create).runtime.allocatedRamPtr = nullptr)
    (kv : (run env calls World.create).runtime.allocatedKvPtr = nullptr)
    (backend : (run env calls World.create).runtime.backend = none) :
    Ready m (run env calls World.create) :=
  have wellFormed := run_wellFormed calls World.create_wellFormed
  ⟨manager, wellFormed.unregistered m manager, wellFormed.sound m manager, ram, kv, backend⟩

end WellFormed

end LLM.Core

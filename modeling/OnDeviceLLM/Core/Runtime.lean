import OnDeviceLLM.Hal.Backend
import OnDeviceLLM.Hardware.Detector
import OnDeviceLLM.Memory.Manager

namespace LLM.Core

open Cxx Hardware Hal Memory

structure LLMRuntimeImpl where
  modelPath : String
  allocatedRamPtr : Addr
  allocatedKvPtr : Addr
  hardwareSpec : HardwareSpec
  memoryManager : Option HeapMemoryManager
  backend : Option CPUBackend
  deriving DecidableEq

/-- The runtime, the number of managers constructed so far, and the history of the heap
    they share. -/
structure World where
  runtime : LLMRuntimeImpl
  managers : Nat
  trace : Trace

/-- `LLMRuntime::create` value-initialises the object: every member is zero or null. -/
def World.create : World where
  runtime :=
    { modelPath := ""
      allocatedRamPtr := nullptr
      allocatedKvPtr := nullptr
      hardwareSpec :=
        { os := .android, totalRamBytes := 0, availableRamBytes := 0, supportedBackends := [],
          tier := .lowEnd }
      memoryManager := none
      backend := none }
  managers := 0
  trace := []

def setRuntime (f : LLMRuntimeImpl → LLMRuntimeImpl) : Exec World Unit :=
  Exec.modify fun w => { w with runtime := f w.runtime }

/-- `memory_manager_->…` -/
def onManager {α : Type} (x : Exec Process α) : Exec World α := fun w =>
  match w.runtime.memoryManager with
  | none => (.error .nullDereference, w)
  | some m =>
    let outcome := x ⟨m, w.trace⟩
    (outcome.1, { w with
      runtime := { w.runtime with memoryManager := some outcome.2.manager }
      trace := outcome.2.trace })

/-- `*backend_` -/
def derefBackend : Exec World CPUBackend := fun w =>
  match w.runtime.backend with
  | none => (.error .nullDereference, w)
  | some backend => (.ok backend, w)

/-- The runtime never registers a pressure callback. -/
def noCallback : PressureCallback := fun _ => pure ()

/-- `make_unique` constructs the new manager before the assignment destroys the old one;
    destroying a manager releases none of its blocks. -/
def initializeRuntime (modelPath : String) (detected : HardwareSpec) : Exec World Bool := do
  Exec.modify fun w => { w with
    runtime := { w.runtime with
      modelPath
      hardwareSpec := detected
      memoryManager := some (HeapMemoryManager.create w.managers detected.availableRamBytes) }
    managers := w.managers + 1 }
  pure true

def weightSize : DeviceTier → UInt64
  | .lowEnd => 256 * 1024 * 1024
  | .midRange => 1024 * 1024 * 1024
  | .highEnd => 2048 * 1024 * 1024

def kvSize : DeviceTier → UInt64
  | .lowEnd => 32 * 1024 * 1024
  | .midRange => 128 * 1024 * 1024
  | .highEnd => 256 * 1024 * 1024

def backendStr : BackendType → String
  | .cpu => "CPU"
  | .cuda => "CUDA"
  | .directml => "DIRECTML"
  | .vulkan => "VULKAN"
  | .metal => "METAL"
  | .nnapi => "NNAPI"
  | .coreml => "COREML"
  | .onnxMobile => "ONNX_MOBILE"

def releaseRam (env : Environment) : Exec World Unit := do
  let w ← Exec.get
  if w.runtime.allocatedRamPtr ≠ nullptr then
    onManager (deallocate env noCallback w.runtime.allocatedRamPtr)
    setRuntime fun r => { r with allocatedRamPtr := nullptr }
  else pure ()

def releaseKv (env : Environment) : Exec World Unit := do
  let w ← Exec.get
  if w.runtime.allocatedKvPtr ≠ nullptr then
    onManager (deallocate env noCallback w.runtime.allocatedKvPtr)
    setRuntime fun r => { r with allocatedKvPtr := nullptr }
  else pure ()

def unloadBackendResources (env : Environment) : Exec World Unit := do
  releaseRam env
  releaseKv env
  setRuntime fun r => { r with backend := none }

def createBackend (env : Environment) : Exec World Bool := do
  let w ← Exec.get
  let spec := w.runtime.hardwareSpec
  setRuntime fun r =>
    { r with backend := BackendFactory.createOptimal (spec.supportedBackends.map backendStr) }
  let w ← Exec.get
  match w.runtime.backend with
  | none =>
    unloadBackendResources env
    pure false
  | some backend =>
    let maxCtx : UInt32 := if spec.tier = .lowEnd then 512 else 2048
    if backend.initializeBackend w.runtime.modelPath maxCtx then pure true
    else
      unloadBackendResources env
      pure false

def loadBackendResources (env : Environment) : Exec World Bool := do
  let w ← Exec.get
  let tier := w.runtime.hardwareSpec.tier
  let ram ← onManager (allocateWeights env noCallback (weightSize tier) true)
  setRuntime fun r => { r with allocatedRamPtr := ram }
  if ram = nullptr then pure false
  else
    let kv ← onManager (allocateKvCache env noCallback (kvSize tier) .none)
    setRuntime fun r => { r with allocatedKvPtr := kv }
    if kv = nullptr then
      onManager (deallocate env noCallback ram)
      setRuntime fun r => { r with allocatedRamPtr := nullptr }
      pure false
    else createBackend env

/-- The figures are only printed, but the manager is dereferenced for them. -/
def printMemoryStats (env : Environment) : Exec World MemoryStats :=
  onManager do
    let p ← Exec.get
    pure (getStats env p.manager)

def generateError : String := "Error: Failed to allocate required RAM to run inference."

def generate (env : Environment) (_prompt : String) (_maxTokens : UInt32) : Exec World String := do
  let _ ← printMemoryStats env
  let loaded ← loadBackendResources env
  if loaded then
    let _ ← printMemoryStats env
    let backend ← derefBackend
    let response := "Generated response (stub) using backend: " ++ backend.getName
    unloadBackendResources env
    let _ ← printMemoryStats env
    pure response
  else pure generateError

/-- A callable `std::function`, given as what its successive invocations do. -/
abbrev TokenCallback := Fin 3 → String → Exec World Unit

def streamTokens (callback : TokenCallback) : Exec World Unit := do
  callback 0 "Token1"
  callback 1 " Token2"
  -- `backend_` is dereferenced again, after two invocations of client code
  let backend ← derefBackend
  callback 2 (" (streamed from " ++ backend.getName ++ ")")

def generateStreaming (env : Environment) (_prompt : String) (onToken : Option TokenCallback) :
    Exec World Bool := do
  let _ ← printMemoryStats env
  let loaded ← loadBackendResources env
  if loaded then
    let _ ← printMemoryStats env
    match onToken with
    | some callback => streamTokens callback
    | none => pure ()
    unloadBackendResources env
    let _ ← printMemoryStats env
    pure true
  else pure false

def getDeviceSpec : Exec World HardwareSpec := do
  let w ← Exec.get
  pure w.runtime.hardwareSpec

def getMemoryStats (env : Environment) : Exec World MemoryStats := do
  let w ← Exec.get
  match w.runtime.memoryManager with
  | none =>
    pure
      { totalBytes := 0
        allocatedBytes := 0
        weightsBytes := some 0
        kvCacheBytes := some 0
        tempBufferBytes := some 0
        freeBytes := 0
        pressure := .normal }
  | some manager => pure (getStats env manager)

def shutdown (env : Environment) : Exec World Unit := unloadBackendResources env

end LLM.Core

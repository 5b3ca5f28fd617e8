import OnDeviceLLM.Cxx.Exec
import OnDeviceLLM.Cxx.Heap

namespace LLM.Memory

open Cxx

/-- Addresses of blocks; `nullptr` is 0. -/
abbrev Addr := Nat

def nullptr : Addr := 0

inductive KVCacheCompressionStrategy where
  | none
  | quantized
  | summarized
  | evicted
  deriving DecidableEq, Repr

inductive MemoryPressure where
  | normal
  | moderate
  | high
  | critical
  deriving DecidableEq, Repr

/-- A field that the source leaves uninitialised is `none`. -/
structure MemoryStats where
  totalBytes : UInt64
  allocatedBytes : UInt64
  weightsBytes : Option UInt64
  kvCacheBytes : Option UInt64
  tempBufferBytes : Option UInt64
  freeBytes : UInt64
  pressure : MemoryPressure
  deriving DecidableEq, Repr

/-- `this` is the identity of the object. Of the pressure callback only its presence is
    state; what it does is a parameter of the operations that invoke it. -/
structure HeapMemoryManager where
  this : Nat
  maxMemory : UInt64
  allocated : UInt64
  allocations : List (Addr × UInt64)
  pressureCallback : Bool
  deriving DecidableEq, Repr

def HeapMemoryManager.create (this : Nat) (maxMemoryBytes : UInt64) : HeapMemoryManager :=
  { this, maxMemory := maxMemoryBytes, allocated := 0, allocations := [], pressureCallback := false }

def HeapMemoryManager.registerPressureCallback (m : HeapMemoryManager) (callable : Bool) :
    HeapMemoryManager :=
  { m with pressureCallback := callable }

/-- Marks in the history besides the heap events: a delivery to the pressure callback with
    the manager it saw, and a `push_back` that could not grow the ledger. -/
inductive Mark where
  | pressure (level : MemoryPressure) (seen : HeapMemoryManager)
  | growthFailed

abbrev Block := Heap.Block Nat Addr
abbrev Event := Heap.Event Nat Addr Mark
abbrev Trace := Heap.Trace Nat Addr Mark

/-- Memory that was asked for and not given. -/
def Event.failed : Event → Bool
  | .newFailed _ _ => true
  | .note .growthFailed => true
  | _ => false

def Unfailing (t : Trace) : Prop := ∀ e ∈ t, Event.failed e = false

instance (t : Trace) : Decidable (Unfailing t) :=
  inferInstanceAs (Decidable (∀ e ∈ t, Event.failed e = false))

/-- What the manager is run on: the heap, the growth of its ledger, and the level that
    `calculate_pressure` assigns to `allocated_` and `max_memory_`. -/
structure Environment extends Heap.Allocator Nat Addr Mark where
  grow : Trace → Bool
  level : UInt64 → UInt64 → MemoryPressure

structure Process where
  manager : HeapMemoryManager
  trace : Trace

namespace Process

def log (s : Process) (event : Event) : Process := { s with trace := event :: s.trace }

@[simp] theorem log_manager (s : Process) (event : Event) : (s.log event).manager = s.manager := rfl
@[simp] theorem log_trace (s : Process) (event : Event) :
    (s.log event).trace = event :: s.trace := rfl

end Process

abbrev PressureCallback := MemoryPressure → Exec Process Unit

def calculatePressure (env : Environment) (m : HeapMemoryManager) : MemoryPressure :=
  env.level m.allocated m.maxMemory

def operatorNew (env : Environment) (size : UInt64) : Exec Process Addr := fun s =>
  match env.new s.trace size.toNat with
  | some ptr => (.ok ptr, s.log (.new s.manager.this ptr size.toNat))
  | none => (.error (.threw .badAlloc), s.log (.newFailed s.manager.this size.toNat))

def operatorDelete (ptr : Addr) : Exec Process Unit :=
  Exec.modify fun s => s.log (.delete s.manager.this ptr)

def pushBack (env : Environment) (ptr : Addr) (size : UInt64) : Exec Process Unit := fun s =>
  if env.grow s.trace then
    (.ok (), { s with manager.allocations := s.manager.allocations ++ [(ptr, size)] })
  else (.error (.threw .badAlloc), s.log (.note .growthFailed))

/-- The call of `pressure_callback_` at the end of the operations that change `allocated_`. -/
def notifyPressure (env : Environment) (callback : PressureCallback) : Exec Process Unit := do
  let s ← Exec.get
  if s.manager.pressureCallback then
    let level := calculatePressure env s.manager
    Exec.modify (·.log (.note (.pressure level s.manager)))
    callback level
  else pure ()

def allocateWeights (env : Environment) (callback : PressureCallback) (size : UInt64)
    (_useMmap : Bool) : Exec Process Addr := do
  let s ← Exec.get
  -- the sum is taken in 64 bits before it is compared
  if s.manager.allocated + size > s.manager.maxMemory then pure nullptr
  else
    let ptr ← operatorNew env size
    pushBack env ptr size
    Exec.modify fun s => { s with manager.allocated := s.manager.allocated + size }
    notifyPressure env callback
    pure ptr

def allocateTemp (env : Environment) (callback : PressureCallback) (size : UInt64) :
    Exec Process Addr :=
  allocateWeights env callback size false

def allocateKvCache (env : Environment) (callback : PressureCallback) (size : UInt64)
    (_strategy : KVCacheCompressionStrategy) : Exec Process Addr :=
  allocateWeights env callback size false

/-- A call of one of the three allocation functions. -/
inductive Request where
  | weights (size : UInt64) (useMmap : Bool)
  | temp (size : UInt64)
  | kvCache (size : UInt64) (strategy : KVCacheCompressionStrategy)
  deriving DecidableEq, Repr

def Request.size : Request → UInt64
  | .weights size _ => size
  | .temp size => size
  | .kvCache size _ => size

def Request.allocate (env : Environment) (callback : PressureCallback) : Request → Exec Process Addr
  | .weights size useMmap => allocateWeights env callback size useMmap
  | .temp size => allocateTemp env callback size
  | .kvCache size strategy => allocateKvCache env callback size strategy

def deallocate (env : Environment) (callback : PressureCallback) (ptr : Addr) :
    Exec Process Unit := do
  let s ← Exec.get
  match s.manager.allocations.find? (fun p => p.1 = ptr) with
  | none => pure ()
  | some it =>
    Exec.modify fun s => { s with manager.allocated := s.manager.allocated - it.2 }
    operatorDelete ptr
    Exec.modify fun s =>
      { s with manager.allocations := s.manager.allocations.eraseP (fun p => p.1 = ptr) }
    notifyPressure env callback

/-- Three of the seven fields are never assigned. -/
def getStats (env : Environment) (m : HeapMemoryManager) : MemoryStats :=
  { totalBytes := m.maxMemory
    allocatedBytes := m.allocated
    weightsBytes := none
    kvCacheBytes := none
    tempBufferBytes := none
    freeBytes := m.maxMemory - m.allocated
    pressure := calculatePressure env m }

end LLM.Memory

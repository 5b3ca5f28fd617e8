import OnDeviceLLM.Core.Calls
import OnDeviceLLM.Cxx.Specification

namespace LLM.Core

open Cxx Hardware Hal Memory

/-- The two blocks of a load, each with a pointer in the runtime. -/
inductive Resource where
  | ram
  | kv
  deriving DecidableEq

def Resource.size (tier : DeviceTier) : Resource → UInt64
  | .ram => weightSize tier
  | .kv => kvSize tier

/-- What one of the two pointers names: nothing, a block in the manager's ledger, or a block of
    a manager that has been replaced. -/
inductive Hold where
  | empty
  | held
  | orphaned
  deriving DecidableEq

/-- The runtime without its heap: how many blocks of either kind the manager counts, whether or
    not a pointer still names them, and what the two pointers name. -/
structure Account where
  spec : HardwareSpec
  blocks : Resource → Nat
  pointer : Resource → Hold
  backend : Bool

namespace Account

def used (a : Account) : UInt64 :=
  .ofNat (a.blocks .ram * (Resource.ram.size a.spec.tier).toNat + a.blocks .kv * (Resource.kv.size a.spec.tier).toNat)

def Refuses (a : Account) (r : Resource) : Prop := a.used + r.size a.spec.tier > a.spec.availableRamBytes

def opened (spec : HardwareSpec) : Account where
  spec := spec
  blocks _ := 0
  pointer _ := .empty
  backend := false

/-- A new manager counts nothing, and what the pointers name is none of its blocks. -/
def reopened (a : Account) (detected : HardwareSpec) : Account where
  spec := detected
  blocks _ := 0
  pointer r := if a.pointer r = .empty then .empty else .orphaned
  backend := a.backend

def dropped (a : Account) (r : Resource) : Account :=
  { a with pointer := Function.update a.pointer r .empty }

/-- Where the pointer named a block, the block stays counted and nothing names it any more. -/
def taken (a : Account) (r : Resource) : Account :=
  { a with
    blocks := Function.update a.blocks r (a.blocks r + 1)
    pointer := Function.update a.pointer r .held }

def returned (a : Account) (r : Resource) : Account :=
  { a with
    blocks := Function.update a.blocks r (a.blocks r - 1)
    pointer := Function.update a.pointer r .empty }

def released (a : Account) (r : Resource) : Account :=
  if a.pointer r = .held then a.returned r else a.dropped r

def unloaded (a : Account) : Account := { (a.released .ram).released .kv with backend := false }

def loaded (a : Account) : Account := { (a.taken .ram).taken .kv with backend := true }

/-- How a load may end; `failing` says that the heap does not always give what it is asked for. -/
inductive Load (failing : Prop) (a : Account) : Except Stop Bool → Account → Prop where
  | ramRefused (refused : a.Refuses .ram) : Load failing a (.ok false) (a.dropped .ram)
  | ramFailed (admitted : ¬ a.Refuses .ram) (fails : failing) : Load failing a (.error (.threw .badAlloc)) a
  | kvRefused (admitted : ¬ a.Refuses .ram) (refused : (a.taken .ram).Refuses .kv) :
      Load failing a (.ok false) ((a.dropped .ram).dropped .kv)
  | kvFailed (admitted : ¬ a.Refuses .ram) (admittedKv : ¬ (a.taken .ram).Refuses .kv) (fails : failing) :
      Load failing a (.error (.threw .badAlloc)) (a.taken .ram)
  | loaded (admitted : ¬ a.Refuses .ram) (admittedKv : ¬ (a.taken .ram).Refuses .kv) :
      Load failing a (.ok true) a.loaded

def stats (level : UInt64 → UInt64 → MemoryPressure) (a : Account) : MemoryStats where
  totalBytes := a.spec.availableRamBytes
  allocatedBytes := a.used
  weightsBytes := none
  kvCacheBytes := none
  tempBufferBytes := none
  freeBytes := a.spec.availableRamBytes - a.used
  pressure := level a.used a.spec.availableRamBytes

def named : Spec Account Unit := .require (fun a => a.backend = true) .nullDereference

def generate (failing : Prop) : Spec Account String := do
  let loaded ← Load failing
  if loaded then
    named
    .modify unloaded
    pure "Generated response (stub) using backend: llama.cpp"
  else pure generateError

def generateStreaming (failing : Prop) (stream : Spec Account Unit) : Spec Account Bool := do
  let loaded ← Load failing
  if loaded then
    stream
    .modify unloaded
    pure true
  else pure false

end Account

/-- The heap gives whatever it is asked for, and the ledger can always grow. -/
def Generous (env : Environment) : Prop :=
  (∀ t n, (env.new t n).isSome = true) ∧ ∀ t, env.grow t = true

section Semantics

variable (failing : Prop) (level : UInt64 → UInt64 → MemoryPressure)

mutual
/-- What a public call may do, from the account alone. -/
def Call.account : Call → Spec Account Response
  | .initializeRuntime _ detected => do
    .modify fun a => a.reopened detected
    pure (.initialized true)
  | .generate _ _ => do
    let text ← Account.generate failing
    pure (.generated text)
  | .generateStreaming _ onToken => do
    let ok ← Account.generateStreaming failing onToken.account
    pure (.streamed ok)
  | .getDeviceSpec => do
    let a ← Spec.get
    pure (.spec a.spec)
  | .getMemoryStats => do
    let a ← Spec.get
    pure (.stats (a.stats level))
  | .shutdown => do
    .modify Account.unloaded
    pure .done

def OnToken.account : OnToken → Spec Account Unit
  | .empty => pure ()
  | .callable first second third => do
    first.account
    second.account
    Account.named
    third.account

def Script.account : Script → Spec Account Unit
  | .returns => pure ()
  | .throws => .stop (.threw .user)
  | .call call rest => do
    let _ ← call.account
    rest.account
  | .guarded block rest => do
    block.account.attempt
    rest.account
end

end Semantics

end LLM.Core

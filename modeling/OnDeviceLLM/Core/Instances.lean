import OnDeviceLLM.Core.Leaks
import OnDeviceLLM.Core.Refinement
import OnDeviceLLM.Cxx.Interleaving

namespace LLM.Core

open Cxx Hardware Hal Memory

/-- What a program does with a runtime: it calls it, or lets go of it for a new one. -/
inductive Use where
  | calls (call : Call)
  | renew

/-- `create` hands out a `unique_ptr<LLMRuntime>`, and the destructor of `LLMRuntime` is not
    virtual: that of `LLMRuntimeImpl` never runs, so nothing is shut down or released. -/
def Use.exec (env : Environment) : Use → Exec World Response
  | .calls call => call.exec env
  | .renew => do
    setRuntime fun _ => World.create.runtime
    pure .done

/-- The runtimes of one process. What they have in common is the heap. -/
structure Instances (ι : Type) where
  runtime : ι → LLMRuntimeImpl
  managers : Nat
  trace : Trace

namespace Instances

variable {ι : Type} [DecidableEq ι]

def create : Instances ι where
  runtime _ := World.create.runtime
  managers := 0
  trace := []

def world (s : Instances ι) (i : ι) : World := ⟨s.runtime i, s.managers, s.trace⟩

def settle (s : Instances ι) (i : ι) (w : World) : Instances ι where
  runtime := Function.update s.runtime i w.runtime
  managers := w.managers
  trace := w.trace

def exec (env : Environment) (use : ι × Use) : Exec (Instances ι) Response := fun s =>
  let outcome := use.2.exec env (s.world use.1)
  (outcome.1, s.settle use.1 outcome.2)

theorem world_settle_self (s : Instances ι) (i : ι) (w : World) : (s.settle i w).world i = w := by
  simp [settle, world]

theorem runtime_settle {s : Instances ι} {i j : ι} {w : World} (other : j ≠ i) :
    (s.settle i w).runtime j = s.runtime j :=
  Function.update_of_ne other _ _

end Instances

section Accounts

/-- What a call does before the first `initialize`. -/
def Call.early : Call → Except Stop Response × Option Account
  | .initializeRuntime _ detected => (.ok (.initialized true), some (.opened detected))
  | .generate _ _ => (.error .nullDereference, none)
  | .generateStreaming _ _ => (.error .nullDereference, none)
  | .getDeviceSpec => (.ok (.spec World.create.runtime.hardwareSpec), none)
  | .getMemoryStats =>
    (.ok (.stats
      { totalBytes := 0
        allocatedBytes := 0
        weightsBytes := some 0
        kvCacheBytes := some 0
        tempBufferBytes := some 0
        freeBytes := 0
        pressure := .normal }), none)
  | .shutdown => (.ok .done, none)

/-- What a use may do, from the account alone; without one the runtime is as created. -/
def Use.account (failing : Prop) (level : UInt64 → UInt64 → MemoryPressure) : Use → Spec (Option Account) Response
  | .calls call => fun account outcome account' =>
    match account with
    | none => (outcome, account') = call.early
    | some a => ∃ a', call.account failing level a outcome a' ∧ account' = some a'
  | .renew => fun _ outcome account' => outcome = .ok .done ∧ account' = none

def Stands (w : World) : Option Account → Prop
  | none => w.runtime = World.create.runtime ∧ Heap.Disciplined w.trace
  | some a => Booked w a

variable {env : Environment} {w : World}

theorem Stands.disciplined {account : Option Account} (stands : Stands w account) : Heap.Disciplined w.trace := by
  cases account with
  | none => exact stands.2
  | some a =>
    obtain ⟨m, books⟩ := stands
    exact books.sound.disciplined

theorem Call.early_refines (call : Call) (created : w.runtime = World.create.runtime)
    (disciplined : Heap.Disciplined w.trace) :
    (call.exec env w).1 = call.early.1 ∧ Stands (call.exec env w).2 call.early.2 := by
  have absent : w.runtime.memoryManager = none := congrArg LLMRuntimeImpl.memoryManager created
  have fault : printMemoryStats env w = (.error .nullDereference, w) := onManager_absent absent
  cases call with
  | initializeRuntime modelPath detected => exact ⟨rfl, created_booked created disciplined modelPath detected⟩
  | generate prompt maxTokens =>
    have stopped : LLM.Core.generate env prompt maxTokens w = (.error .nullDereference, w) :=
      Exec.bind_of_error fault
    rw [Call.exec, Exec.bind_of_error stopped]
    exact ⟨rfl, created, disciplined⟩
  | generateStreaming prompt onToken =>
    have stopped : LLM.Core.generateStreaming env prompt (onToken.function env) w =
        (.error .nullDereference, w) := Exec.bind_of_error fault
    rw [Call.exec, Exec.bind_of_error stopped]
    exact ⟨rfl, created, disciplined⟩
  | getDeviceSpec =>
    refine ⟨?_, created, disciplined⟩
    exact congrArg (fun runtime => Except.ok (Response.spec runtime.hardwareSpec)) created
  | getMemoryStats =>
    have read : Call.getMemoryStats.exec env w = (Call.getMemoryStats.early.1, w) := by
      simp [Call.exec, LLM.Core.getMemoryStats, absent, Exec.bind_apply, Call.early]
    rw [read]
    exact ⟨rfl, created, disciplined⟩
  | shutdown =>
    obtain ⟨runtime, managers, trace⟩ := w
    subst created
    exact ⟨rfl, rfl, disciplined⟩

theorem Use.refines (env : Environment) (use : Use) :
    Refines Stands (use.exec env) (use.account (¬ Generous env) env.level) := by
  intro w account stands
  cases use with
  | calls call =>
    cases account with
    | none =>
      obtain ⟨outcome, after⟩ := @Call.early_refines env w call stands.1 stands.2
      exact ⟨call.early.2, Prod.ext outcome rfl, after⟩
    | some a =>
      obtain ⟨a', allowed, booked⟩ := Call.refines env call w a stands
      exact ⟨some a', ⟨a', allowed, rfl⟩, booked⟩
  | renew => exact ⟨none, ⟨rfl, rfl⟩, rfl, stands.disciplined⟩

end Accounts

end LLM.Core

import OnDeviceLLM.Memory.Steps

namespace LLM.Memory

open Cxx

mutual
/-- One public call, with what the pressure callback would do if this call notifies it. -/
inductive Op where
  | allocate (request : Request) (reaction : Reaction)
  | deallocate (ptr : Addr) (reaction : Reaction)

/-- A guarded call stands in a `try` block whose handler swallows the exception. -/
inductive Reaction where
  | returns
  | throws
  | call (guarded : Bool) (op : Op) (rest : Reaction)
end

mutual
def Op.exec (env : Environment) : Op → Exec Process Unit
  | .allocate request reaction => do
    let _ ← request.allocate env (fun _ => reaction.exec env)
    pure ()
  | .deallocate ptr reaction => LLM.Memory.deallocate env (fun _ => reaction.exec env) ptr

def Reaction.exec (env : Environment) : Reaction → Exec Process Unit
  | .returns => pure ()
  | .throws => Exec.stop (.threw .user)
  | .call guarded op rest => do
    (if guarded then Exec.attempt (op.exec env) else op.exec env)
    rest.exec env
end

def run (env : Environment) : List Op → Process → Process
  | [], s => s
  | op :: ops, s => run env ops (op.exec env s).2

def Process.start (this : Nat) (maxMemoryBytes : UInt64) (callable : Bool) : Process where
  manager := (HeapMemoryManager.create this maxMemoryBytes).registerPressureCallback callable
  trace := []

theorem Reaction.guarded_state (env : Environment) (guarded : Bool) (op : Op) (s : Process) :
    ((if guarded then Exec.attempt (op.exec env) else op.exec env) s).2 = (op.exec env s).2 := by
  cases guarded with
  | true => rw [if_pos rfl, Exec.attempt_state]
  | false => rfl

mutual
/-- A run is a tree of calls, yet the states it goes through are a path of steps, because
    the callback is the last thing an operation does. -/
theorem Op.exec_steps (env : Environment) : ∀ (op : Op) (s : Process), Steps env s (op.exec env s).2
  | .allocate request reaction, s => by
    rw [Op.exec, Exec.bind_pure_state]
    exact request.allocate_steps (fun _ => Reaction.exec_steps env reaction) s
  | .deallocate ptr reaction, s => by
    rw [Op.exec]
    exact deallocate_steps (fun _ => Reaction.exec_steps env reaction) ptr s

theorem Reaction.exec_steps (env : Environment) :
    ∀ (reaction : Reaction) (s : Process), Steps env s (reaction.exec env s).2
  | .returns, _ => .refl
  | .throws, _ => .refl
  | .call guarded op rest, s => by
    have first : Steps env s
        ((if guarded then Exec.attempt (op.exec env) else op.exec env) s).2 := by
      rw [Reaction.guarded_state]
      exact Op.exec_steps env op s
    rw [Reaction.exec, Exec.bind_apply]
    rcases outcome : (if guarded then Exec.attempt (op.exec env) else op.exec env) s with ⟨(e | a), s'⟩
    · rw [outcome] at first
      exact first
    · rw [outcome] at first
      exact first.trans (Reaction.exec_steps env rest s')
end

theorem run_steps (env : Environment) (ops : List Op) (s : Process) : Steps env s (run env ops s) := by
  induction ops generalizing s with
  | nil => exact .refl
  | cons op ops ih => exact (op.exec_steps env s).trans (ih _)

/-- The invariant rule: what every step keeps holds after every run. -/
theorem run_invariant {env : Environment} {invariant : Process → Prop}
    (step : ∀ s s', Step env s s' → invariant s → invariant s') (ops : List Op) (s : Process)
    (initial : invariant s) : invariant (run env ops s) := by
  have path := run_steps env ops s
  generalize run env ops s = final at path
  induction path with
  | refl => exact initial
  | tail _ last ih => exact step _ _ last ih

/-- The level of an exact ratio, given by its two terms. -/
def exactLevel (used total : Nat) : MemoryPressure :=
  if 10 * used < 5 * total then .normal
  else if 10 * used < 7 * total then .moderate
  else if 10 * used < 9 * total then .high
  else .critical

/-- `calculate_pressure` with its thresholds read as exact fractions. -/
def thresholdLevel (allocated maxMemory : UInt64) : MemoryPressure := exactLevel allocated.toNat maxMemory.toNat

def Environment.bump (succeeds : Trace → Nat → Bool) : Environment where
  toAllocator := .bump succeeds
  grow _ := true
  level := thresholdLevel

end LLM.Memory

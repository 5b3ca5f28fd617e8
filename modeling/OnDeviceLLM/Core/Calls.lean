import OnDeviceLLM.Core.Lifecycle

namespace LLM.Core

open Cxx Hardware Hal Memory

inductive Response where
  | initialized (ok : Bool)
  | generated (text : String)
  | streamed (ok : Bool)
  | spec (spec : HardwareSpec)
  | stats (stats : MemoryStats)
  | done
  deriving DecidableEq

mutual
/-- A public call; the specification that `initialize` detects comes with it. -/
inductive Call where
  | initializeRuntime (modelPath : String) (detected : HardwareSpec)
  | generate (prompt : String) (maxTokens : UInt32)
  | generateStreaming (prompt : String) (onToken : OnToken)
  | getDeviceSpec
  | getMemoryStats
  | shutdown

/-- The callback of one streaming call: empty, or what its three invocations do. -/
inductive OnToken where
  | empty
  | callable (first second third : Script)

/-- Calls on the same runtime, in order, and then a return or a throw. A guarded block stands
    in a `try` block whose handler swallows the exception. -/
inductive Script where
  | returns
  | throws
  | call (call : Call) (rest : Script)
  | guarded (block rest : Script)
end

mutual
def Call.exec (env : Environment) : Call → Exec World Response
  | .initializeRuntime modelPath detected => do
    let ok ← LLM.Core.initializeRuntime modelPath detected
    pure (.initialized ok)
  | .generate prompt maxTokens => do
    let text ← LLM.Core.generate env prompt maxTokens
    pure (.generated text)
  | .generateStreaming prompt onToken => do
    let ok ← LLM.Core.generateStreaming env prompt (onToken.function env)
    pure (.streamed ok)
  | .getDeviceSpec => do
    let spec ← LLM.Core.getDeviceSpec
    pure (.spec spec)
  | .getMemoryStats => do
    let stats ← LLM.Core.getMemoryStats env
    pure (.stats stats)
  | .shutdown => do
    LLM.Core.shutdown env
    pure .done

def OnToken.function (env : Environment) : OnToken → Option TokenCallback
  | .empty => none
  | .callable first second third => some fun
    | 0, _ => first.exec env
    | 1, _ => second.exec env
    | 2, _ => third.exec env

def Script.exec (env : Environment) : Script → Exec World Unit
  | .returns => pure ()
  | .throws => Exec.stop (.threw .user)
  | .call call rest => do
    let _ ← call.exec env
    rest.exec env
  | .guarded block rest => do
    Exec.attempt (block.exec env)
    rest.exec env
end

def Call.latest (spec : HardwareSpec) : Call → HardwareSpec
  | .initializeRuntime _ detected => detected
  | _ => spec

/-- `property` holds of every call of the run, given the specification in force before it
    and what comes of it. The client goes on after exceptions. -/
def Throughout (env : Environment)
    (property : HardwareSpec → Call → Except Stop Response × World → Prop) :
    HardwareSpec → List Call → World → Prop
  | _, [], _ => True
  | spec, call :: calls, w =>
    property spec call (call.exec env w) ∧
      Throughout env property (call.latest spec) calls (call.exec env w).2

theorem Throughout.mono {env : Environment}
    {property weaker : HardwareSpec → Call → Except Stop Response × World → Prop}
    (weaken : ∀ spec call outcome, property spec call outcome → weaker spec call outcome)
    (calls : List Call) : ∀ spec w, Throughout env property spec calls w →
      Throughout env weaker spec calls w := by
  induction calls with
  | nil => exact fun _ _ _ => trivial
  | cons call calls ih =>
    intro spec w throughout
    exact ⟨weaken _ _ _ throughout.1, ih _ _ throughout.2⟩

instance Throughout.decidable (env : Environment)
    (property : HardwareSpec → Call → Except Stop Response × World → Prop)
    [∀ spec call outcome, Decidable (property spec call outcome)] :
    ∀ spec calls w, Decidable (Throughout env property spec calls w)
  | _, [], _ => .isTrue trivial
  | spec, call :: calls, w =>
    have := Throughout.decidable env property (call.latest spec) calls (call.exec env w).2
    inferInstanceAs (Decidable (_ ∧ _))

/-- `property` holds of every call of the run, given the world it is made in and what comes
    of it. -/
def Along (env : Environment) (property : World → Call → Except Stop Response × World → Prop) :
    List Call → World → Prop
  | [], _ => True
  | call :: calls, w => property w call (call.exec env w) ∧ Along env property calls (call.exec env w).2

instance Along.decidable (env : Environment)
    (property : World → Call → Except Stop Response × World → Prop)
    [∀ w call outcome, Decidable (property w call outcome)] :
    ∀ calls w, Decidable (Along env property calls w)
  | [], _ => .isTrue trivial
  | call :: calls, w =>
    have := Along.decidable env property calls (call.exec env w).2
    inferInstanceAs (Decidable (_ ∧ _))

theorem initialize_first (env : Environment) (modelPath : String) (detected : HardwareSpec) :
    ∃ w, (Call.initializeRuntime modelPath detected).exec env World.create = (.ok (.initialized true), w) ∧
      Idle 0 detected w := by
  obtain ⟨w, result, idle⟩ := World.create_vacant.initialize modelPath detected
  exact ⟨w, by rw [Call.exec, Exec.bind_of_ok result]; rfl, idle⟩

end LLM.Core

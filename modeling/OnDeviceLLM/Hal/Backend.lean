import Mathlib.Tactic

namespace LLM.Hal

/-- The only implementation of `InferenceBackend`. -/
structure CPUBackend where
  useOnnx : Bool
  deriving DecidableEq, Repr

def CPUBackend.getName (backend : CPUBackend) : String :=
  if backend.useOnnx then "ONNXRuntime-CPU" else "llama.cpp"

def CPUBackend.initializeBackend (_backend : CPUBackend) (_modelPath : String) (_maxContextLength : UInt32) :
    Bool := true

/-- The options are printed and otherwise ignored; the CPU backend is always created. -/
def BackendFactory.createOptimal (_supportedBackends : List String) : Option CPUBackend :=
  some { useOnnx := false }

end LLM.Hal

import OnDeviceLLM.Cxx.Exec
import OnDeviceLLM.Cxx.Typestate
import OnDeviceLLM.Cxx.Specification
import OnDeviceLLM.Cxx.Interleaving
import OnDeviceLLM.Cxx.Heap
import OnDeviceLLM.Cxx.Text
import OnDeviceLLM.Numeric.Nearest
import OnDeviceLLM.Numeric.Binary32
import OnDeviceLLM.Hardware.Detector
import OnDeviceLLM.Hal.Backend
import OnDeviceLLM.Memory.Manager
import OnDeviceLLM.Memory.Steps
import OnDeviceLLM.Memory.Runs
import OnDeviceLLM.Memory.Ledger
import OnDeviceLLM.Memory.Budget
import OnDeviceLLM.Memory.Pressure
import OnDeviceLLM.Memory.Lifetime
import OnDeviceLLM.Memory.Atomicity
import OnDeviceLLM.Memory.Deallocation
import OnDeviceLLM.Memory.Statistics
import OnDeviceLLM.Memory.UsageRatio
import OnDeviceLLM.Core.Runtime
import OnDeviceLLM.Core.Loading
import OnDeviceLLM.Core.Lifecycle
import OnDeviceLLM.Core.Calls
import OnDeviceLLM.Core.History
import OnDeviceLLM.Core.Invariants
import OnDeviceLLM.Core.AllocationFailure
import OnDeviceLLM.Core.Tiers
import OnDeviceLLM.Core.Leaks
import OnDeviceLLM.Core.Stages
import OnDeviceLLM.Core.Reentrancy
import OnDeviceLLM.Core.AnyOrder
import OnDeviceLLM.Core.Account
import OnDeviceLLM.Core.Bookkeeping
import OnDeviceLLM.Core.Refinement
import OnDeviceLLM.Core.Recovery
import OnDeviceLLM.Core.Charges
import OnDeviceLLM.Core.Headroom
import OnDeviceLLM.Core.Instances
import OnDeviceLLM.Core.Confinement
import OnDeviceLLM.Core.Isolation
import OnDeviceLLM.Core.Reclamation
import OnDeviceLLM.Http.Message
import OnDeviceLLM.Launcher.HttpService
import OnDeviceLLM.Launcher.Serving
import OnDeviceLLM.Launcher.Receiving
import OnDeviceLLM.Launcher.Fragmentation
import OnDeviceLLM.Launcher.AwaitedLength
import OnDeviceLLM.Json.Grammar
import OnDeviceLLM.Launcher.Extraction
import OnDeviceLLM.Launcher.Response
import OnDeviceLLM.Launcher.Separation
import OnDeviceLLM.Launcher.Phantom
import OnDeviceLLM.Launcher.Landmarks
import OnDeviceLLM.Launcher.Main
import OnDeviceLLM.Launcher.Sessions
import OnDeviceLLM.Launcher.Port
import OnDeviceLLM.Launcher.Conversation

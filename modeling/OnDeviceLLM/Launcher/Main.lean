import OnDeviceLLM.Core.Tiers
import OnDeviceLLM.Launcher.Serving

namespace LLM.Launcher

open Cxx Text LLM.Core Hardware Memory

abbrev Socket := Nat

/-- The calls of the socket library that succeed, and those of `send` whether they do or not. -/
inductive NetEvent where
  | startup
  | cleanup
  | opened (socket : Socket)
  | bound (socket : Socket) (port : UInt16)
  | listening (socket : Socket)
  | sent (socket : Socket) (data : Text) (length : Int)
  | closed (socket : Socket)
  deriving DecidableEq

/-- Latest call first. -/
abbrev NetTrace := List NetEvent

def openSockets : NetTrace → List Socket
  | [] => []
  | .opened socket :: t => socket :: openSockets t
  | .closed socket :: t => (openSockets t).erase socket
  | _ :: t => openSockets t

/-- What the socket library answers. A socket that it hands out is none of those still open;
    `accept` returns one for each client in turn and then fails. -/
structure Network where
  wsaStartup : Bool
  socket : Bool
  binds : UInt16 → Bool
  listens : Bool
  clients : List Connection
  handle : NetTrace → Socket
  fresh : ∀ t, handle t ∉ openSockets t

/-- The process: the runtime in its world, and what has been done to the network. -/
structure Host where
  world : World
  net : NetTrace

namespace Host

def start : Host := { world := World.create, net := [] }

def log (h : Host) (event : NetEvent) : Host := { h with net := event :: h.net }

end Host

def netCall (event : NetEvent) : Exec Host Unit := Exec.modify (·.log event)

/-- `runtime->…` -/
def onRuntime {α : Type} (x : Exec World α) : Exec Host α := fun h =>
  let outcome := x h.world
  (outcome.1, { h with world := outcome.2 })

/-- The bytes of a `std::string`, one character each. -/
def latin1 (text : Text) : String := String.ofList (text.map fun b => Char.ofNat b.toNat)

def openSocket (network : Network) : Exec Host Socket := fun h =>
  (.ok (network.handle h.net), h.log (.opened (network.handle h.net)))

/-- `static_cast<int>` of a size. -/
def intOfSize (size : Nat) : Int := Int.bmod size (2^32)

/-- `runtime->generate`, between the bytes of `main` and the strings of the runtime. -/
def runtimeGenerate (env : Environment) (prompt : Text) (maxTokens : UInt32) : Exec Host Text := do
  let answer ← onRuntime (generate env (latin1 prompt) maxTokens)
  pure (ascii answer)

/-- The body of the `while` loop of `main`. -/
def mainRound (env : Environment) (network : Network) (client : Connection) : Exec Host Unit := do
  let clientSock ← openSocket network
  let httpResp ← respond (runtimeGenerate env) client
  netCall (.sent clientSock httpResp (intOfSize httpResp.length))
  netCall (.closed clientSock)

/-- `main` from `socket` on. -/
def listenAndServe (env : Environment) (network : Network) (port : Int) : Exec Host Nat := do
  if network.socket then
    let listenSock ← openSocket network
    -- `static_cast<u_short>`
    let sinPort := UInt16.ofNat (port % 2^16).toNat
    if network.binds sinPort then
      netCall (.bound listenSock sinPort)
      if network.listens then
        netCall (.listening listenSock)
        acceptLoop (mainRound env network) network.clients
        netCall (.closed listenSock)
        netCall .cleanup
        onRuntime (shutdown env)
        pure 0
      else
        netCall (.closed listenSock)
        netCall .cleanup
        pure 1
    else
      netCall (.closed listenSock)
      netCall .cleanup
      pure 1
  else
    netCall .cleanup
    pure 1

/-- `main` of the HTTP service, with the program's name as the first of its arguments. -/
def main (env : Environment) (machine : Machine) (network : Network) : List Text → Exec Host Nat
  | [] => pure 1
  | [_] => pure 1
  | _ :: modelPath :: arguments => do
    let port ← match arguments with
      | [] => pure 8080
      | port :: _ => Exec.ofExcept (stoi port)
    let initialized ← onRuntime (initializeRuntime (latin1 modelPath) (createNativeHardwareDetector machine))
    if initialized then
      if network.wsaStartup then
        netCall .startup
        listenAndServe env network port
      else pure 1
    else pure 1

end LLM.Launcher

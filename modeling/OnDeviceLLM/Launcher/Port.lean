import OnDeviceLLM.Launcher.Sessions

namespace LLM.Launcher

open Cxx Text LLM.Core Hardware Memory

section Parsing

theorem decimal_toString (n : Nat) : decimal (ascii (toString n)) = n :=
  (Http.number_some (Http.number_toString n)).2.2

theorem ascii_append (s t : String) : ascii (s ++ t) = ascii s ++ ascii t := by
  rw [ascii, String.toList_append, List.map_append]
  rfl

/-- `std::stoi` reads back every `int` that is written in decimal. -/
theorem stoi_toString {n : Int} (low : -2^31 ≤ n) (high : n < 2^31) : stoi (ascii (toString n)) = .ok n := by
  cases n with
  | ofNat m =>
    have written : toString (Int.ofNat m) = toString m := rfl
    have small : m < 2^31 := by
      have cast : Int.ofNat m = (m : Int) := rfl
      omega
    rw [written, stoi_digits (Http.toString_ne_nil m) (Http.toString_digits m), decimal_toString, if_pos small]
    rfl
  | negSucc m =>
    have written : toString (Int.negSucc m) = "-" ++ toString (m + 1) := rfl
    have minus : ascii "-" = [45] := by decide
    have noSpace : isSpace 45 = false := by decide
    have whole : (ascii (toString (m + 1))).takeWhile isDigit = ascii (toString (m + 1)) :=
      List.takeWhile_eq_self_iff.mpr (Http.toString_digits (m + 1))
    have value : -((m + 1 : Nat) : Int) = Int.negSucc m := by omega
    rw [written, ascii_append, minus, List.singleton_append]
    simp only [stoi, List.dropWhile_cons, noSpace, Bool.false_eq_true, if_false, whole,
      Http.toString_ne_nil (m + 1), decimal_toString, if_true, value]
    rw [if_pos ⟨low, high⟩]

end Parsing

def boundPorts : NetTrace → List UInt16
  | [] => []
  | .bound _ port :: t => port :: boundPorts t
  | _ :: t => boundPorts t

section Binding

variable (env : Environment) (network : Network) {ports : List UInt16}

theorem onRuntime_keeps_ports {α : Type} (x : Exec World α) :
    Exec.Preserves (fun h => boundPorts h.net = ports) (onRuntime x) := fun _ kept => kept

theorem openSocket_keeps_ports : Exec.Preserves (fun h => boundPorts h.net = ports) (openSocket network) :=
  fun _ kept => kept

theorem ofExcept_keeps_ports {α : Type} (x : Except Exception α) :
    Exec.Preserves (fun h => boundPorts h.net = ports) (Exec.ofExcept x : Exec Host α) := by
  intro h kept
  cases x <;> exact kept

theorem respond_keeps_ports (client : Connection) :
    Exec.Preserves (fun h => boundPorts h.net = ports) (respond (runtimeGenerate env) client) := by
  refine (ofExcept_keeps_ports _).bind fun _ => (ofExcept_keeps_ports _).bind fun prompt =>
    Exec.Preserves.bind ?_ fun _ => .pure _
  unfold buildBody
  split
  · exact ((onRuntime_keeps_ports _).bind fun _ => .pure _).bind fun _ => .pure _
  · exact .pure _

theorem mainRound_keeps_ports (client : Connection) :
    Exec.Preserves (fun h => boundPorts h.net = ports) (mainRound env network client) :=
  (openSocket_keeps_ports network).bind fun _ => (respond_keeps_ports env client).bind fun _ =>
    Exec.Preserves.bind (.modify fun _ kept => kept) fun _ => .modify fun _ kept => kept

theorem acceptLoop_keeps_ports (clients : List Connection) :
    Exec.Preserves (fun h => boundPorts h.net = ports) (acceptLoop (mainRound env network) clients) := by
  induction clients with
  | nil => exact .pure _
  | cons client clients ih => exact (mainRound_keeps_ports env network client).bind fun _ => ih

theorem listenAndServe_binds {port : Int} (reachable : network.Reachable port) (w : World) :
    boundPorts (listenAndServe env network port ⟨w, [.startup]⟩).2.net = [UInt16.ofNat (port % 2^16).toNat] := by
  have created := reachable.created
  have bound := reachable.bound
  have listening := reachable.listening
  generalize portDef : UInt16.ofNat (port % 2^16).toNat = sinPort at bound
  have rest : Exec.Preserves (fun h => boundPorts h.net = [sinPort]) (do
      acceptLoop (mainRound env network) network.clients
      netCall (.closed (network.handle [.startup]))
      netCall .cleanup
      onRuntime (shutdown env)
      pure 0 : Exec Host Nat) :=
    (acceptLoop_keeps_ports env network _).bind fun _ => Exec.Preserves.bind (.modify fun _ kept => kept) fun _ =>
      Exec.Preserves.bind (.modify fun _ kept => kept) fun _ =>
        (onRuntime_keeps_ports _).bind fun _ => .pure _
  unfold listenAndServe
  simp only [created, portDef, bound, listening, if_true]
  exact rest ⟨w, [.listening _, .bound _ sinPort, .opened _, .startup]⟩ rfl

/-- Every `int` is accepted as a port on the command line, and what is bound is its remainder. -/
theorem main_binds (machine : Machine) (program modelPath : Text) (arguments : List Text) {n : Int}
    (low : -2^31 ≤ n) (high : n < 2^31) (reachable : network.Reachable n) :
    ∃ port, boundPorts (main env machine network (program :: modelPath :: ascii (toString n) :: arguments)
      Host.start).2.net = [port] ∧ (port.toNat : Int) = n % 2^16 := by
  have given : portOf (ascii (toString n) :: arguments) = .ok n := stoi_toString low high
  obtain ⟨w, _, ran⟩ := main_initialized env network machine program modelPath given
  rw [ran, if_pos reachable.started]
  refine ⟨_, listenAndServe_binds env network reachable w, ?_⟩
  rw [UInt16.toNat_ofNat']
  omega

theorem main_binds_negative :
    ∃ port, boundPorts (main (.bump fun _ _ => true) desktop (.serving [goodClient])
      [ascii "service", ascii "model", ascii (toString (-1 : Int))] Host.start).2.net = [port] ∧
        (port.toNat : Int) = -1 % 2^16 :=
  main_binds (.bump fun _ _ => true) (.serving [goodClient]) desktop (ascii "service") (ascii "model") []
    (by decide) (by decide) ⟨rfl, rfl, rfl, rfl⟩

end Binding

end LLM.Launcher

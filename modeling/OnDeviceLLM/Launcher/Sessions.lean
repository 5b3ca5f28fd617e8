import OnDeviceLLM.Launcher.Main
import OnDeviceLLM.Launcher.Phantom
import OnDeviceLLM.Launcher.Response

namespace LLM.Launcher

open Cxx Text LLM.Core Hardware Memory

/-- Between `WSAStartup` and `WSACleanup`. -/
def libraryUp : NetTrace → Bool
  | [] => false
  | .startup :: _ => true
  | .cleanup :: _ => false
  | _ :: t => libraryUp t

/-- The library is used only while it is up, it goes down with no socket left open, a call on a
    socket finds it open, and `send` is given the size of the data. -/
def ProperUse : NetTrace → Prop
  | [] => True
  | .startup :: t => libraryUp t = false ∧ ProperUse t
  | .cleanup :: t => libraryUp t = true ∧ openSockets t = [] ∧ ProperUse t
  | .opened socket :: t => libraryUp t = true ∧ socket ∉ openSockets t ∧ ProperUse t
  | .bound socket _ :: t => socket ∈ openSockets t ∧ ProperUse t
  | .listening socket :: t => socket ∈ openSockets t ∧ ProperUse t
  | .sent socket data length :: t => socket ∈ openSockets t ∧ length = data.length ∧ ProperUse t
  | .closed socket :: t => socket ∈ openSockets t ∧ ProperUse t

/-- The library is up, these sockets are open, and so far all went well. -/
structure InUse (sockets : List Socket) (t : NetTrace) : Prop where
  sockets : openSockets t = sockets
  up : libraryUp t = true
  proper : ProperUse t

structure Shut (t : NetTrace) : Prop where
  sockets : openSockets t = []
  down : libraryUp t = false
  proper : ProperUse t

namespace InUse

variable {sockets : List Socket} {socket : Socket} {t : NetTrace}

theorem startup : InUse [] [.startup] := ⟨rfl, rfl, rfl, trivial⟩

theorem opened (inUse : InUse sockets t) (fresh : socket ∉ openSockets t) :
    InUse (socket :: sockets) (.opened socket :: t) :=
  ⟨congrArg _ inUse.sockets, inUse.up, inUse.up, fresh, inUse.proper⟩

theorem bound (inUse : InUse sockets t) (member : socket ∈ sockets) (port : UInt16) :
    InUse sockets (.bound socket port :: t) :=
  ⟨inUse.sockets, inUse.up, by rwa [inUse.sockets], inUse.proper⟩

theorem listening (inUse : InUse sockets t) (member : socket ∈ sockets) :
    InUse sockets (.listening socket :: t) :=
  ⟨inUse.sockets, inUse.up, by rwa [inUse.sockets], inUse.proper⟩

theorem sent (inUse : InUse sockets t) (member : socket ∈ sockets) {data : Text} {length : Int}
    (whole : length = data.length) : InUse sockets (.sent socket data length :: t) :=
  ⟨inUse.sockets, inUse.up, by rwa [inUse.sockets], whole, inUse.proper⟩

theorem closed (inUse : InUse (socket :: sockets) t) : InUse sockets (.closed socket :: t) := by
  refine ⟨?_, inUse.up, ?_, inUse.proper⟩
  · rw [openSockets, inUse.sockets, List.erase_cons_head]
  · rw [inUse.sockets]
    exact List.mem_cons_self

theorem cleanup (inUse : InUse [] t) : Shut (.cleanup :: t) :=
  ⟨inUse.sockets, rfl, inUse.up, inUse.sockets, inUse.proper⟩

end InUse

def sentResponses : NetTrace → List Text
  | [] => []
  | .sent _ data _ :: t => sentResponses t ++ [data]
  | _ :: t => sentResponses t

/-- What a runtime at rest answers every prompt. -/
def idleAnswer (spec : HardwareSpec) : String :=
  if Fits spec then "Generated response (stub) using backend: " ++ "llama.cpp" else generateError

/-- The response to a client while the runtime answers `text`. -/
def responseTo (text : Text) (client : Connection) : Except Stop Text :=
  (respond (fun _ _ => pure text) client ()).1

theorem responseTo_built {text request prompt body : Text} {client : Connection}
    (received : recvAll client = .ok request) (extracted : extractPrompt request = .ok prompt)
    (built : buildBody (fun _ _ => pure text) prompt () = (.ok body, ())) :
    responseTo text client = .ok (makeHttpResponse body) := by
  rw [responseTo, respond_built _ received extracted built]

section Runtime

variable (env : Environment) {this : Nat} {spec : HardwareSpec} {w : World}

theorem idle_generate (idle : Idle this spec w) (prompt : String) (maxTokens : UInt32) :
    OutOfMemory (generate env prompt maxTokens w) ∨
    ∃ w', generate env prompt maxTokens w = (.ok (idleAnswer spec), w') ∧ Idle this spec w' := by
  unfold idleAnswer
  by_cases fits : Fits spec
  · rw [if_pos fits]
    rcases idle.load_fit env fits with failed | ⟨ram, kv, ramNonnull, kvNonnull, distinct, load⟩
    · left
      rw [generate_stopped prompt maxTokens idle.ready failed.eq]
      exact ⟨rfl, failed.2⟩
    · have unload := idle.unload_loaded env ramNonnull kvNonnull distinct
      have served :=
        (generate_loaded prompt maxTokens idle.ready load).trans (respond_served idle.ready unload.1)
      exact .inr ⟨_, served, unload.2⟩
  · rw [if_neg fits]
    rcases idle.load_unfit env fits with failed | ⟨w', load, after⟩
    · left
      rw [generate_stopped prompt maxTokens idle.ready failed.eq]
      exact ⟨rfl, failed.2⟩
    · exact .inr ⟨w', generate_loaded prompt maxTokens idle.ready load, after⟩

theorem idle_shutdown (idle : Idle this spec w) : shutdown env w = (.ok (), w) := idle.ready.unload

theorem onRuntime_of {α : Type} {x : Exec World α} {h : Host} {result : Except Stop α} {w' : World}
    (outcome : x h.world = (result, w')) : onRuntime x h = (result, { h with world := w' }) := by
  simp [onRuntime, outcome]

theorem buildBody_outcome {h : Host} (idle : Idle this spec h.world) (prompt : Text) :
    (∃ w', ¬ Unfailing w'.trace ∧
      buildBody (runtimeGenerate env) prompt h = (.error (.threw .badAlloc), { h with world := w' })) ∨
    ∃ body w', Idle this spec w' ∧ buildBody (runtimeGenerate env) prompt h = (.ok body, { h with world := w' }) ∧
      buildBody (fun _ _ => pure (ascii (idleAnswer spec))) prompt () = (.ok body, ()) ∧
      (body = responseBody (ascii (idleAnswer spec)) ∨ body = missingPrompt) := by
  by_cases none : prompt = []
  · refine .inr ⟨missingPrompt, h.world, idle, ?_, ?_, .inr rfl⟩
    all_goals
      rw [none]
      rfl
  · rcases idle_generate env idle (latin1 prompt) 128 with failed | ⟨w', generated, after⟩
    · refine .inl ⟨_, failed.2, ?_⟩
      have stopped : runtimeGenerate env prompt 128 h =
          (.error (.threw .badAlloc), { h with world := (generate env (latin1 prompt) 128 h.world).2 }) :=
        Exec.bind_of_error (onRuntime_of failed.eq)
      rw [buildBody, if_pos none, Exec.bind_of_error stopped]
    · have answered : runtimeGenerate env prompt 128 h = (.ok (ascii (idleAnswer spec)), { h with world := w' }) :=
        Exec.bind_of_ok (onRuntime_of generated)
      exact .inr ⟨_, w', after, buildBody_prompted _ none answered, buildBody_prompted _ none rfl, .inl rfl⟩

end Runtime

theorem intOfSize_response {spec : HardwareSpec} {body : Text}
    (built : body = responseBody (ascii (idleAnswer spec)) ∨ body = missingPrompt) :
    intOfSize (makeHttpResponse body).length = (makeHttpResponse body).length := by
  rcases built with rfl | rfl
  · unfold idleAnswer
    split <;> decide +kernel
  · decide +kernel

def Host.exchange (h : Host) (socket : Socket) (w : World) (response : Text) : Host where
  world := w
  net := .closed socket :: .sent socket response (intOfSize response.length) :: .opened socket :: h.net

/-- At the head of the loop. -/
structure Accepting (spec : HardwareSpec) (listenSock : Socket) (responses : List Text) (h : Host) : Prop where
  idle : Idle 0 spec h.world
  listens : InUse [listenSock] h.net
  sent : sentResponses h.net = responses

/-- How the loop ends, with the clients that are left. -/
inductive LoopEnd (network : Network) (h : Host) : List Connection → Except Stop Unit × Host → Prop where
  | acceptFailed : LoopEnd network h [] (.ok (), h)
  | illSized (client : Connection) (clients : List Connection) (illSized : ¬ WellSized client.headers) :
      LoopEnd network h (client :: clients) (.error (.threw .outOfRange), h.log (.opened (network.handle h.net)))
  | outOfMemory (client : Connection) (clients : List Connection) (w : World) (failed : ¬ Unfailing w.trace) :
      LoopEnd network h (client :: clients)
        (.error (.threw .badAlloc), { h.log (.opened (network.handle h.net)) with world := w })

section Loop

variable (env : Environment) (network : Network) {spec : HardwareSpec} {listenSock : Socket} {responses : List Text}
  {h : Host}

theorem Accepting.round (accepting : Accepting spec listenSock responses h) (client : Connection)
    (clients : List Connection) :
    LoopEnd network h (client :: clients) (acceptLoop (mainRound env network) (client :: clients) h) ∨
    ∃ response h', responseTo (ascii (idleAnswer spec)) client = .ok response ∧
      Accepting spec listenSock (responses ++ [response]) h' ∧
      acceptLoop (mainRound env network) (client :: clients) h = acceptLoop (mainRound env network) clients h' := by
  have fresh := network.fresh h.net
  have opened : openSocket network h = (.ok (network.handle h.net), h.log (.opened (network.handle h.net))) := rfl
  have round : mainRound env network client h = _ := Exec.bind_of_ok opened
  by_cases wellSized : WellSized client.headers
  · obtain ⟨request, prompt, received, extracted⟩ := exists_extracted wellSized
    have idle : Idle 0 spec (h.log (.opened (network.handle h.net))).world := accepting.idle
    rcases buildBody_outcome env idle prompt with ⟨w', failed, stopped⟩ | ⟨body, w', idle', built, same, known⟩
    · left
      have responded :=
        respond_extracted (runtimeGenerate env) (h.log (.opened (network.handle h.net))) received extracted
      rw [Exec.bind_of_error stopped] at responded
      rw [Exec.bind_of_error responded] at round
      rw [acceptLoop, Exec.bind_of_error round]
      exact .outOfMemory client clients w' failed
    · right
      have whole := intOfSize_response known
      rw [Exec.bind_of_ok (respond_built _ received extracted built)] at round
      refine ⟨makeHttpResponse body, h.exchange (network.handle h.net) w' (makeHttpResponse body),
        responseTo_built received extracted same, ?_, Exec.bind_of_ok round⟩
      constructor
      case idle => exact idle'
      case listens => exact ((accepting.listens.opened fresh).sent List.mem_cons_self whole).closed
      case sent => simp only [Host.exchange, sentResponses, accepting.sent]
  · left
    rw [Exec.bind_of_error (respond_illSized _ wellSized _)] at round
    rw [acceptLoop, Exec.bind_of_error round]
    exact .illSized client clients wellSized

theorem Accepting.loop (clients : List Connection) :
    ∀ (responses : List Text) (h : Host), Accepting spec listenSock responses h →
      ∃ served rest answers h', clients = served ++ rest ∧
        List.Forall₂ (fun client response => responseTo (ascii (idleAnswer spec)) client = .ok response) served answers ∧
        Accepting spec listenSock (responses ++ answers) h' ∧
        LoopEnd network h' rest (acceptLoop (mainRound env network) clients h) := by
  induction clients with
  | nil =>
    intro responses h accepting
    exact ⟨[], [], [], h, rfl, .nil, by rwa [List.append_nil], .acceptFailed⟩
  | cons client clients ih =>
    intro responses h accepting
    rcases accepting.round env network client clients with ended | ⟨response, h', answered, accepting', next⟩
    · exact ⟨[], client :: clients, [], h, rfl, .nil, by rwa [List.append_nil], ended⟩
    · obtain ⟨served, rest, answers, h'', split, all, accepting'', ended⟩ := ih _ h' accepting'
      refine ⟨client :: served, rest, response :: answers, h'', by rw [split, List.cons_append], .cons answered all,
        ?_, ?_⟩
      · rw [List.append_assoc] at accepting''
        exact accepting''
      · rw [next]
        exact ended

end Loop

structure Network.Reachable (network : Network) (port : Int) : Prop where
  started : network.wsaStartup = true
  created : network.socket = true
  bound : network.binds (UInt16.ofNat (port % 2^16).toNat) = true
  listening : network.listens = true

/-- The process after the clients `served` have been answered, with `rest` still to come. -/
inductive ServiceEnd (network : Network) (spec : HardwareSpec) (answers : List Text) :
    List Connection → Except Stop Nat × Host → Prop where
  | shutDown {h : Host} (idle : Idle 0 spec h.world) (shut : Shut h.net) (sent : sentResponses h.net = answers) :
      ServiceEnd network spec answers [] (.ok 0, h)
  | illSized {h : Host} {listenSock : Socket} (client : Connection) (clients : List Connection)
      (illSized : ¬ WellSized client.headers) (accepting : Accepting spec listenSock answers h) :
      ServiceEnd network spec answers (client :: clients)
        (.error (.threw .outOfRange), h.log (.opened (network.handle h.net)))
  | outOfMemory {h : Host} {listenSock : Socket} (client : Connection) (clients : List Connection) (w : World)
      (failed : ¬ Unfailing w.trace) (accepting : Accepting spec listenSock answers h) :
      ServiceEnd network spec answers (client :: clients)
        (.error (.threw .badAlloc), { h.log (.opened (network.handle h.net)) with world := w })

theorem ServiceEnd.sent {network : Network} {spec : HardwareSpec} {answers : List Text} {rest : List Connection}
    {outcome : Except Stop Nat × Host} (ended : ServiceEnd network spec answers rest outcome) :
    sentResponses outcome.2.net = answers := by
  cases ended with
  | shutDown _ _ sent => exact sent
  | illSized _ _ _ accepting => exact accepting.sent
  | outOfMemory _ _ _ _ accepting => exact accepting.sent

section Responses

/-- The body is an object whose only member is `error`. -/
def Complains (body : Text) : Prop :=
  ∃ (value : Text) (m : Json.StringMember (ascii "error") value), m.text = body ∧ m.earlier = [] ∧ m.later = []

theorem missingPrompt_complains : Complains missingPrompt :=
  ⟨_, onlyMember (ascii "error") (ascii "error") [] (ascii " ") (ascii "Missing prompt in JSON body")
    (ascii "Missing prompt in JSON body") (.plain_text _ (by decide)) (.plain_text _ (by decide)) (by decide)
    (by decide), by decide, rfl, rfl⟩

theorem answered_of_mem {text : Text} {served : List Connection} {answers : List Text}
    (all : List.Forall₂ (fun client response => responseTo text client = .ok response) served answers) :
    ∀ response ∈ answers, ∃ client ∈ served, responseTo text client = .ok response := by
  induction all with
  | nil => exact fun _ member => absurd member List.not_mem_nil
  | @cons client first served answers answered _ ih =>
    intro response member
    rcases List.mem_cons.mp member with rfl | member
    · exact ⟨client, List.mem_cons_self, answered⟩
    · obtain ⟨other, inside, same⟩ := ih response member
      exact ⟨other, List.mem_cons_of_mem client inside, same⟩

theorem idleAnswer_plain (spec : HardwareSpec) : Json.Plain (ascii (idleAnswer spec)) := by
  unfold idleAnswer
  split <;> decide

theorem responseTo_decodes {text response : Text} {client : Connection} (plain : Json.Plain text)
    (answered : responseTo text client = .ok response) :
    ∃ body, Http.receive response = some body ∧ (Carries body text ∨ Complains body) := by
  by_cases wellSized : WellSized client.headers
  · obtain ⟨request, prompt, received, extracted⟩ := exists_extracted wellSized
    by_cases none : prompt = []
    · have built : buildBody (fun _ _ => pure text) prompt () = (.ok missingPrompt, ()) := by
        rw [none]
        rfl
      rw [responseTo_built received extracted built] at answered
      cases answered
      exact ⟨_, receive_makeHttpResponse _, .inr missingPrompt_complains⟩
    · have built : buildBody (fun _ _ => pure text) prompt () = (.ok (responseBody text), ()) :=
        buildBody_prompted _ none rfl
      rw [responseTo_built received extracted built] at answered
      cases answered
      exact ⟨_, receive_makeHttpResponse _, .inl (carries_plain plain)⟩
  · rw [responseTo, respond_illSized _ wellSized] at answered
    cases answered

end Responses

section Main

variable (env : Environment) (network : Network)

theorem Accepting.serve {spec : HardwareSpec} {listenSock : Socket} {h : Host}
    (accepting : Accepting spec listenSock [] h) :
    ∃ served rest answers, network.clients = served ++ rest ∧
      List.Forall₂ (fun client response => responseTo (ascii (idleAnswer spec)) client = .ok response) served answers ∧
      ServiceEnd network spec answers rest ((do
        acceptLoop (mainRound env network) network.clients
        netCall (.closed listenSock)
        netCall .cleanup
        onRuntime (shutdown env)
        pure 0 : Exec Host Nat) h) := by
  obtain ⟨served, rest, answers, h', split, all, after, ended⟩ := accepting.loop env network network.clients [] h
  refine ⟨served, rest, answers, split, all, ?_⟩
  generalize looped : acceptLoop (mainRound env network) network.clients h = outcome at ended
  cases ended with
  | acceptFailed =>
    have stopped : onRuntime (shutdown env) ((h'.log (.closed listenSock)).log .cleanup) =
        (.ok (), (h'.log (.closed listenSock)).log .cleanup) := onRuntime_of (idle_shutdown env after.idle)
    have returned : (do
        netCall (.closed listenSock)
        netCall .cleanup
        onRuntime (shutdown env)
        pure 0 : Exec Host Nat) h' = (.ok 0, (h'.log (.closed listenSock)).log .cleanup) :=
      Exec.bind_of_ok stopped
    rw [Exec.bind_of_ok looped, returned]
    exact .shutDown after.idle after.listens.closed.cleanup after.sent
  | illSized client clients illSized =>
    rw [Exec.bind_of_error looped]
    exact .illSized client clients illSized after
  | outOfMemory client clients w failed =>
    rw [Exec.bind_of_error looped]
    exact .outOfMemory client clients w failed after

theorem listenAndServe_outcome {spec : HardwareSpec} {w : World} (idle : Idle 0 spec w) (port : Int) :
    (∃ h, listenAndServe env network port ⟨w, [.startup]⟩ = (.ok 1, h) ∧ h.world = w ∧ Shut h.net ∧
      sentResponses h.net = [] ∧ ¬ network.Reachable port) ∨
    ∃ served rest answers, network.clients = served ++ rest ∧
      List.Forall₂ (fun client response => responseTo (ascii (idleAnswer spec)) client = .ok response) served answers ∧
      ServiceEnd network spec answers rest (listenAndServe env network port ⟨w, [.startup]⟩) := by
  unfold listenAndServe
  cases created : network.socket with
  | false =>
    left
    refine ⟨_, rfl, rfl, InUse.startup.cleanup, rfl, fun reachable => ?_⟩
    rw [reachable.created] at created
    cases created
  | true =>
    simp only [if_true]
    generalize portDef : UInt16.ofNat (port % 2^16).toNat = sinPort
    generalize listenDef : network.handle [.startup] = listenSock
    have fresh : listenSock ∉ openSockets [.startup] := List.not_mem_nil
    have opened : openSocket network ⟨w, [.startup]⟩ = (.ok listenSock, ⟨w, [.opened listenSock, .startup]⟩) := by
      rw [← listenDef]
      rfl
    have inUse := InUse.startup.opened fresh
    rw [Exec.bind_of_ok opened]
    cases bound : network.binds sinPort with
    | false =>
      left
      refine ⟨_, rfl, rfl, inUse.closed.cleanup, rfl, fun reachable => ?_⟩
      rw [← portDef, reachable.bound] at bound
      cases bound
    | true =>
      have inUse := inUse.bound List.mem_cons_self sinPort
      cases listening : network.listens with
      | false =>
        left
        refine ⟨_, rfl, rfl, inUse.closed.cleanup, rfl, fun reachable => ?_⟩
        rw [reachable.listening] at listening
        cases listening
      | true =>
        right
        have inUse := inUse.listening List.mem_cons_self
        have accepting : Accepting spec listenSock [] ⟨w, _⟩ := ⟨idle, inUse, rfl⟩
        exact accepting.serve env network

def desktop : Machine := .windows (16 * 1024 * 1024 * 1024) (8 * 1024 * 1024 * 1024)

def goodClient : Connection where
  received := [ascii "POST / HTTP/1.1\r\nContent-Length: 15\r\n\r\n", ascii "\x7b\"prompt\":\"hi\"\x7d"]
  sized := by decide
  fits := by decide

def portOf : List Text → Except Exception Int
  | [] => .ok 8080
  | port :: _ => stoi port

section Stages

variable (machine : Machine) (program modelPath : Text) {arguments : List Text}

theorem main_throws {e : Exception} (thrown : portOf arguments = .error e) :
    main env machine network (program :: modelPath :: arguments) Host.start = (.error (.threw e), Host.start) := by
  cases arguments with
  | nil => cases thrown
  | cons port arguments =>
    have parsed : stoi port = .error e := thrown
    have first : (Exec.ofExcept (stoi port) : Exec Host Int) Host.start = (.error (.threw e), Host.start) := by
      rw [parsed]
      rfl
    exact Exec.bind_of_error first

theorem main_initialized {port : Int} (given : portOf arguments = .ok port) :
    ∃ w, Idle 0 (createNativeHardwareDetector machine) w ∧
      main env machine network (program :: modelPath :: arguments) Host.start =
        if network.wsaStartup then listenAndServe env network port ⟨w, [.startup]⟩ else (.ok 1, ⟨w, []⟩) := by
  obtain ⟨w, initialized, idle⟩ :=
    World.create_vacant.initialize (latin1 modelPath) (createNativeHardwareDetector machine)
  have ran : onRuntime (initializeRuntime (latin1 modelPath) (createNativeHardwareDetector machine)) Host.start =
      (.ok true, ⟨w, []⟩) := onRuntime_of initialized
  have rest : (onRuntime (initializeRuntime (latin1 modelPath) (createNativeHardwareDetector machine)) >>=
      fun initialized => if initialized then
          if network.wsaStartup then netCall .startup >>= fun _ => listenAndServe env network port else pure 1
        else pure 1) Host.start =
      if network.wsaStartup then listenAndServe env network port ⟨w, [.startup]⟩ else (.ok 1, ⟨w, []⟩) := by
    rw [Exec.bind_of_ok ran]
    cases network.wsaStartup <;> rfl
  refine ⟨w, idle, ?_⟩
  rw [← rest]
  cases arguments with
  | nil =>
    cases given
    rfl
  | cons text arguments =>
    have parsed : stoi text = .ok port := given
    have first : (Exec.ofExcept (stoi text) : Exec Host Int) Host.start = (.ok port, Host.start) := by
      rw [parsed]
      rfl
    exact Exec.bind_of_ok first

/-- The service over its whole life: the clients are answered in order, each according to its own
    request and the memory of the machine, until `accept` fails, or a client's headers are ill
    sized, or the heap fails. Only in the first case is anything closed. -/
theorem main_serves {port : Int} (given : portOf arguments = .ok port) (reachable : network.Reachable port) :
    ∃ served rest answers, network.clients = served ++ rest ∧
      List.Forall₂ (fun client response =>
        responseTo (ascii (idleAnswer (createNativeHardwareDetector machine))) client = .ok response) served answers ∧
      ServiceEnd network (createNativeHardwareDetector machine) answers rest
        (main env machine network (program :: modelPath :: arguments) Host.start) := by
  obtain ⟨w, idle, ran⟩ := main_initialized env network machine program modelPath given
  rw [ran, if_pos reachable.started]
  rcases listenAndServe_outcome env network idle port with ⟨_, _, _, _, _, unreachable⟩ | outcome
  · exact absurd reachable unreachable
  · exact outcome

end Stages

/-- A network on which every call succeeds until there are no more clients. -/
def Network.serving (clients : List Connection) : Network where
  wsaStartup := true
  socket := true
  binds _ := true
  listens := true
  clients
  handle t := (openSockets t).sum + 1
  fresh _ member := Nat.not_succ_le_self _ (List.le_sum_of_mem member)

/-- The second of three clients ends the service. -/
theorem main_serves_until_illSized :
    ∃ served rest answers, [goodClient, wordLength, goodClient] = served ++ rest ∧
      List.Forall₂ (fun client response =>
        responseTo (ascii (idleAnswer (createNativeHardwareDetector desktop))) client = .ok response) served answers ∧
      ServiceEnd (.serving [goodClient, wordLength, goodClient]) (createNativeHardwareDetector desktop) answers rest
        (main (.bump fun _ _ => true) desktop (.serving [goodClient, wordLength, goodClient])
          [ascii "service", ascii "model"] Host.start) :=
  main_serves (.bump fun _ _ => true) (.serving [goodClient, wordLength, goodClient]) desktop (ascii "service")
    (ascii "model") (rfl : portOf [] = .ok 8080) ⟨rfl, rfl, rfl, rfl⟩

/-- Whatever the machine, the network, the heap and the clients do: sockets are used with
    discipline, no null pointer is dereferenced, and an exit code is returned only with every
    socket closed, the library down and no block of the runtime held. -/
theorem main_releases (machine : Machine) (arguments : List Text) :
    let outcome := main env machine network arguments Host.start
    ProperUse outcome.2.net ∧ outcome.1 ≠ .error .nullDereference ∧
    ∀ code, outcome.1 = .ok code →
      Shut outcome.2.net ∧ Vacant outcome.2.world ∧ (code = 0 ∨ code = 1 ∧ sentResponses outcome.2.net = []) := by
  have refused : ∀ h : Host, h.net = [] → Vacant h.world →
      ProperUse h.net ∧ (Except.ok 1 : Except Stop Nat) ≠ .error .nullDereference ∧
      ∀ code, (Except.ok 1 : Except Stop Nat) = .ok code →
        Shut h.net ∧ Vacant h.world ∧ (code = 0 ∨ code = 1 ∧ sentResponses h.net = []) := by
    intro h silent vacant
    rw [silent]
    refine ⟨trivial, nofun, fun code returned => ?_⟩
    cases returned
    exact ⟨⟨rfl, rfl, trivial⟩, vacant, .inr ⟨rfl, rfl⟩⟩
  match arguments with
  | [] => exact refused Host.start rfl World.create_vacant
  | [_] => exact refused Host.start rfl World.create_vacant
  | program :: modelPath :: arguments =>
    cases given : portOf arguments with
    | error e =>
      rw [main_throws env network machine program modelPath given]
      exact ⟨trivial, by simp, nofun⟩
    | ok port =>
      obtain ⟨w, idle, ran⟩ := main_initialized env network machine program modelPath given
      rw [ran]
      cases started : network.wsaStartup with
      | false => exact refused ⟨w, []⟩ rfl idle.vacant
      | true =>
        rw [if_pos rfl]
        rcases listenAndServe_outcome env network idle port with ⟨h, failed, same, shut, silent, _⟩ | outcome
        · rw [failed]
          refine ⟨shut.proper, nofun, fun code returned => ?_⟩
          cases returned
          exact ⟨shut, same ▸ idle.vacant, .inr ⟨rfl, silent⟩⟩
        · obtain ⟨served, rest, answers, _, _, ended⟩ := outcome
          generalize listenAndServe env network port ⟨w, [.startup]⟩ = result at ended
          cases ended with
          | shutDown idle shut _ =>
            refine ⟨shut.proper, nofun, fun code returned => ?_⟩
            cases returned
            exact ⟨shut, idle.vacant, .inl rfl⟩
          | illSized client clients _ accepting =>
            exact ⟨(accepting.listens.opened (network.fresh _)).proper, by simp, nofun⟩
          | outOfMemory client clients w _ accepting =>
            exact ⟨(accepting.listens.opened (network.fresh _)).proper, by simp, nofun⟩

/-- Every response of the service reaches a client as a JSON object whose only member is the
    answer of the runtime, or an error. -/
theorem main_responses_decode (machine : Machine) (arguments : List Text) :
    ∀ response ∈ sentResponses (main env machine network arguments Host.start).2.net,
      ∃ body, Http.receive response = some body ∧
        (Carries body (ascii (idleAnswer (createNativeHardwareDetector machine))) ∨ Complains body) := by
  intro response member
  match arguments with
  | [] => exact absurd member List.not_mem_nil
  | [_] => exact absurd member List.not_mem_nil
  | program :: modelPath :: arguments =>
    cases given : portOf arguments with
    | error e =>
      rw [main_throws env network machine program modelPath given] at member
      exact absurd member List.not_mem_nil
    | ok port =>
      obtain ⟨w, idle, ran⟩ := main_initialized env network machine program modelPath given
      rw [ran] at member
      cases started : network.wsaStartup with
      | false =>
        rw [started] at member
        exact absurd member List.not_mem_nil
      | true =>
        rw [started, if_pos rfl] at member
        rcases listenAndServe_outcome env network idle port with ⟨h, failed, _, _, silent, _⟩ | outcome
        · rw [failed, silent] at member
          exact absurd member List.not_mem_nil
        · obtain ⟨served, rest, answers, _, all, ended⟩ := outcome
          rw [ended.sent] at member
          obtain ⟨client, _, answered⟩ := answered_of_mem all response member
          exact responseTo_decodes (idleAnswer_plain _) answered

/-- The first client is answered before the second ends the service. -/
theorem main_responses_decode_answered :
    ∃ body, Http.receive (makeHttpResponse (responseBody (ascii (idleAnswer (createNativeHardwareDetector desktop))))) =
        some body ∧
      (Carries body (ascii (idleAnswer (createNativeHardwareDetector desktop))) ∨ Complains body) :=
  main_responses_decode (.bump fun _ _ => true) (.serving [goodClient, wordLength, goodClient]) desktop
    [ascii "service", ascii "model"] _ (by decide +kernel)

end Main

end LLM.Launcher

import OnDeviceLLM.Core.History
import OnDeviceLLM.Core.Stages

namespace LLM.Core

open Cxx Hardware Hal Memory

section Careful

variable (env : Environment)

mutual
/-- Every step of the call, and of the calls that its callback makes, suits the state in which it
    is made: none initialises over held resources, none loads where that loses a block, and the
    backend is there when it is named. -/
def Call.Careful : Call → World → Prop
  | .initializeRuntime _ _, w => w.runtime.allocatedRamPtr = nullptr
  | .generate _ _, w => w.LoadsCarefully env
  | .generateStreaming _ onToken, w =>
    w.LoadsCarefully env ∧
      Exec.wlp (loadBackendResources env) (fun loaded w => loaded = true → onToken.Careful w) w
  | .getDeviceSpec, _ => True
  | .getMemoryStats, _ => True
  | .shutdown, _ => True

def OnToken.Careful : OnToken → World → Prop
  | .empty, _ => True
  | .callable first second third, w =>
    first.Careful w ∧ Exec.wlp (first.exec env)
      (fun _ w => second.Careful w ∧ Exec.wlp (second.exec env)
        (fun _ w => w.runtime.backend ≠ none ∧ third.Careful w) w) w

def Script.Careful : Script → World → Prop
  | .returns, _ => True
  | .throws, _ => True
  | .call call rest, w => call.Careful w ∧ Exec.wlp (call.exec env) (fun _ w => rest.Careful w) w
  | .guarded block rest, w =>
    block.Careful w ∧ Exec.wlp (Exec.attempt (block.exec env)) (fun _ w => rest.Careful w) w
end

mutual
def Call.decideCareful : ∀ (call : Call) (w : World), Decidable (call.Careful env w)
  | .initializeRuntime _ _, _ => inferInstanceAs (Decidable (_ = _))
  | .generate _ _, w => inferInstanceAs (Decidable (w.LoadsCarefully env))
  | .generateStreaming _ onToken, w =>
    have := onToken.decideCareful
    inferInstanceAs (Decidable (w.LoadsCarefully env ∧
      Exec.wlp (loadBackendResources env) (fun loaded w => loaded = true → onToken.Careful env w) w))
  | .getDeviceSpec, _ => .isTrue trivial
  | .getMemoryStats, _ => .isTrue trivial
  | .shutdown, _ => .isTrue trivial

def OnToken.decideCareful : ∀ (onToken : OnToken) (w : World), Decidable (onToken.Careful env w)
  | .empty, _ => .isTrue trivial
  | .callable first second third, w =>
    have := first.decideCareful
    have := second.decideCareful
    have := third.decideCareful
    inferInstanceAs (Decidable (first.Careful env w ∧ Exec.wlp (first.exec env)
      (fun _ w => second.Careful env w ∧ Exec.wlp (second.exec env)
        (fun _ w => w.runtime.backend ≠ none ∧ third.Careful env w) w) w))

def Script.decideCareful : ∀ (script : Script) (w : World), Decidable (script.Careful env w)
  | .returns, _ => .isTrue trivial
  | .throws, _ => .isTrue trivial
  | .call call rest, w =>
    have := call.decideCareful
    have := rest.decideCareful
    inferInstanceAs (Decidable (call.Careful env w ∧ Exec.wlp (call.exec env) (fun _ w => rest.Careful env w) w))
  | .guarded block rest, w =>
    have := block.decideCareful
    have := rest.decideCareful
    inferInstanceAs (Decidable (block.Careful env w ∧
      Exec.wlp (Exec.attempt (block.exec env)) (fun _ w => rest.Careful env w) w))
end

instance (call : Call) (w : World) : Decidable (call.Careful env w) := call.decideCareful env w

end Careful

section Steps

variable {env : Environment}

theorem broken_kept (env : Environment) : Kept env protocol.broken where
  initializeRuntime modelPath detected w broken := by
    obtain ⟨b, lost⟩ := broken
    exact ⟨b, (Lost.kept env b).initializeRuntime modelPath detected w lost⟩
  load w broken := by
    obtain ⟨b, lost⟩ := broken
    exact ⟨b, (Lost.kept env b).load w lost⟩
  unload w broken := by
    obtain ⟨b, lost⟩ := broken
    exact ⟨b, (Lost.kept env b).unload w lost⟩

theorem initializeRuntime_follows (modelPath : String) (detected : HardwareSpec) :
    protocol.Follows Sane (initializeRuntime modelPath detected) (fun w => w.runtime.allocatedRamPtr = nullptr)
      fun _ => AtRest := by
  intro w sane
  cases sane with
  | rest rest =>
    obtain ⟨this, spec, idle⟩ := rest
    obtain ⟨w', result, idle'⟩ := idle.vacant.initialize modelPath detected
    exact .returns result idle.vacant.ram ⟨_, _, idle'⟩
  | @held this spec ram kv held =>
    -- the new manager does not know the blocks of the one before
    have lost : Lost (Held.block this spec ram) (initializeRuntime modelPath detected w).2 := by
      refine ⟨held.live, held.ram_nonnull, Nat.lt_succ_of_lt held.carrying.owned, fun m now owner => ?_⟩
      cases now
      exact absurd owner.symm (Nat.ne_of_lt held.carrying.owned)
    have returned : initializeRuntime modelPath detected w = (.ok true, _) := rfl
    refine .damages (fun cares => held.ram_nonnull (held.ram.symm.trans cares)) ?_
    exact (Exec.wp_of_ok returned).mpr ⟨_, lost⟩

theorem derefBackend_follows :
    protocol.Follows Sane derefBackend (fun w => w.runtime.backend ≠ none) fun _ => Sane := by
  intro w sane
  cases present : w.runtime.backend with
  | none =>
    have stopped : derefBackend w = (.error .nullDereference, w) := by simp [derefBackend, present]
    exact (Protocol.Verdict.of_error stopped).mpr ⟨fun cares => absurd present cares, fun _ => .inl rfl⟩
  | some backend =>
    have named : derefBackend w = (.ok backend, w) := by simp [derefBackend, present]
    exact .returns named (by simp [present]) sane

theorem printMemoryStats_reads : ∀ w, Sane w → ∃ stats, printMemoryStats env w = (.ok stats, w) := by
  intro w sane
  obtain ⟨m, present⟩ := sane.manager
  exact ⟨_, printMemoryStats_apply present⟩

theorem AfterLoad.respond (loaded : Bool) :
    protocol.Follows (AfterLoad loaded) (respond env loaded) (fun _ => True) fun _ => AtRest := by
  cases loaded with
  | false => exact .pure _ fun _ rest => rest
  | true =>
    apply Protocol.Follows.of_ok
    intro w after
    obtain ⟨this, spec, ram, kv, held, backend⟩ := after
    have sane : Sane w := .held held
    obtain ⟨m, present⟩ := sane.manager
    have named : derefBackend w = (.ok { useOnnx := false }, w) := by simp [derefBackend, backend]
    obtain ⟨w', unloaded, rest⟩ := @Sane.unload env w sane
    obtain ⟨m', present'⟩ := rest.sane.manager
    have served : LLM.Core.respond env true w = (.ok _, w') :=
      (Exec.bind_of_ok (printMemoryStats_apply present)).trans ((Exec.bind_of_ok named).trans
        ((Exec.bind_of_ok unloaded).trans (Exec.bind_of_ok (printMemoryStats_apply present'))))
    exact ⟨_, w', served, rest⟩

theorem generate_follows (prompt : String) (maxTokens : UInt32) :
    protocol.Follows Sane (generate env prompt maxTokens) (World.LoadsCarefully env) fun _ => AtRest := by
  rw [generate_eq]
  apply Protocol.Follows.read printMemoryStats_reads
  exact fun _ => load_follows.bind_safe AfterLoad.respond fun loaded => (broken_kept env).respond loaded

theorem streamAndUnload_follows {onToken : Option TokenCallback} {careful : World → Prop}
    (streamed : protocol.Follows Sane (stream onToken) careful fun _ => Sane) :
    protocol.Follows Sane (streamAndUnload env onToken) careful fun _ => AtRest := by
  refine streamed.bind_safe (fun _ => ?_) fun _ => ?_
  · refine unload_follows.bind_safe (fun _ => ?_) fun _ => printMemoryStats_preserves.bind fun _ => .pure true
    apply Protocol.Follows.read (fun w rest => printMemoryStats_reads w rest.sane)
    exact fun _ => .pure true fun _ rest => rest
  · exact (broken_kept env).unload.bind fun _ => printMemoryStats_preserves.bind fun _ => .pure true

theorem AfterLoad.respondStreaming {onToken : Option TokenCallback} {careful : World → Prop}
    (streamed : protocol.Follows Sane (stream onToken) careful fun _ => Sane) (loaded : Bool) :
    protocol.Follows (AfterLoad loaded) (respondStreaming env onToken loaded)
      (fun w => loaded = true → careful w) fun _ => AtRest := by
  cases loaded with
  | false => exact (Protocol.Follows.pure false fun _ rest => rest).congr fun _ _ => ⟨fun _ => trivial, nofun⟩
  | true =>
    have sane : ∀ w, AfterLoad true w → Sane w := by
      intro w after
      obtain ⟨this, spec, ram, kv, held, _⟩ := after
      exact .held held
    have follows : protocol.Follows Sane (LLM.Core.respondStreaming env onToken true) careful fun _ => AtRest :=
      .read printMemoryStats_reads fun _ => streamAndUnload_follows streamed
    exact (follows.mono sane fun _ _ rest => rest).congr fun _ _ => ⟨fun cares => cares rfl, fun cares _ => cares⟩

theorem generateStreaming_follows (prompt : String) {onToken : Option TokenCallback} {careful : World → Prop}
    (streamed : protocol.Follows Sane (stream onToken) careful fun _ => Sane)
    (absorbing : ∀ callback, onToken = some callback →
      ∀ i token, Exec.Preserves protocol.broken (callback i token)) :
    protocol.Follows Sane (generateStreaming env prompt onToken)
      (fun w => w.LoadsCarefully env ∧
        Exec.wlp (loadBackendResources env) (fun loaded w => loaded = true → careful w) w) fun _ => AtRest := by
  rw [generateStreaming_eq]
  apply Protocol.Follows.read printMemoryStats_reads
  exact fun _ => load_follows.bind (AfterLoad.respondStreaming streamed)
    fun loaded => (broken_kept env).respondStreaming absorbing loaded

/-- Three invocations, and the backend named before the last. -/
theorem invocations_follow {first second third : Exec World Unit} {careful careful' careful'' : World → Prop}
    (follows : protocol.Follows Sane first careful fun _ => Sane)
    (follows' : protocol.Follows Sane second careful' fun _ => Sane)
    (follows'' : protocol.Follows Sane third careful'' fun _ => Sane)
    (absorbing : Exec.Preserves protocol.broken second) (absorbing' : Exec.Preserves protocol.broken third) :
    protocol.Follows Sane (first >>= fun _ => second >>= fun _ => derefBackend >>= fun _ => third)
      (fun w => careful w ∧ Exec.wlp first (fun _ w => careful' w ∧
        Exec.wlp second (fun _ w => w.runtime.backend ≠ none ∧ careful'' w) w) w) fun _ => Sane := by
  have named : protocol.Follows Sane (derefBackend >>= fun _ => third)
      (fun w => w.runtime.backend ≠ none ∧ careful'' w) fun _ => Sane := by
    refine (derefBackend_follows.bind (fun _ => follows'') fun _ => absorbing').congr fun w _ => ?_
    refine and_congr_right fun present => ?_
    obtain ⟨backend, present⟩ := Option.ne_none_iff_exists'.mp present
    have named : derefBackend w = (.ok backend, w) := by simp [derefBackend, present]
    exact (@Exec.wlp_of_ok _ _ _ (fun _ => careful'') _ _ _ named).symm
  have absorbed : Exec.Preserves protocol.broken (derefBackend >>= fun _ => third) :=
    derefBackend_preserves.bind fun _ => absorbing'
  exact follows.bind (fun _ => follows'.bind (fun _ => named) fun _ => absorbed)
    fun _ => absorbing.bind fun _ => absorbed

end Steps

section Calls

variable (env : Environment)

mutual
/-- What a call does to `held`, any condition between at rest and sane. -/
theorem Call.follows {held : World → Prop} (rest : ∀ w, AtRest w → held w) (sane : ∀ w, held w → Sane w) :
    ∀ call : Call, protocol.Follows held (call.exec env) (call.Careful env) fun _ => held
  | .initializeRuntime modelPath detected =>
    ((initializeRuntime_follows modelPath detected).mono sane fun _ => rest).map _ fun _ _ h => h
  | .generate prompt maxTokens => ((generate_follows prompt maxTokens).mono sane fun _ => rest).map _ fun _ _ h => h
  | .generateStreaming prompt onToken => by
    have streams := @generateStreaming_follows env prompt _ _ (OnToken.follows onToken)
      (OnToken.function_preserves (broken_kept env) onToken)
    exact (streams.mono sane fun _ => rest).map _ fun _ _ h => h
  | .getDeviceSpec => .of_ok fun w h => ⟨_, w, rfl, h⟩
  | .getMemoryStats => by
    apply Protocol.Follows.of_ok
    intro w h
    obtain ⟨m, present⟩ := (sane w h).manager
    exact ⟨_, w, Exec.bind_of_ok (getMemoryStats_apply env present), h⟩
  | .shutdown => (unload_follows.mono sane fun _ => rest).map _ fun _ _ h => h

theorem OnToken.follows : ∀ onToken : OnToken,
    protocol.Follows Sane (stream (onToken.function env)) (onToken.Careful env) fun _ => Sane
  | .empty => .pure () fun _ sane => sane
  | .callable first second third =>
    invocations_follow (Script.follows first) (Script.follows second) (Script.follows third)
      (Script.exec_preserves (broken_kept env) second) (Script.exec_preserves (broken_kept env) third)

theorem Script.follows : ∀ script : Script,
    protocol.Follows Sane (script.exec env) (script.Careful env) fun _ => Sane
  | .returns => .pure () fun _ sane => sane
  | .throws => .throw .user fun _ sane => sane
  | .call call rest =>
    (Call.follows (fun _ => AtRest.sane) (fun _ sane => sane) call).bind (fun _ => Script.follows rest)
      fun _ => Script.exec_preserves (broken_kept env) rest
  | .guarded block rest =>
    (Script.follows block).attempt.bind (fun _ => Script.follows rest)
      fun _ => Script.exec_preserves (broken_kept env) rest
end

end Calls

/-- Every block given back by the manager it came from, and nothing held. -/
structure Unharmed (w : World) : Prop where
  disciplined : Heap.Disciplined w.trace
  empty : Heap.live w.trace = []
  released : Released w

/-- A streaming call dereferences nothing null, and leaves no harm behind when it returns. -/
def StreamsUnharmed (call : Call) (outcome : Except Stop Response × World) : Prop :=
  ∀ prompt onToken, call = .generateStreaming prompt onToken →
    outcome.1 ≠ .error .nullDereference ∧ ∀ response, outcome.1 = .ok response → Unharmed outcome.2

/-- No exception reaches the client. -/
def Returning (outcome : Except Stop Response × World) : Prop :=
  ∀ exception, outcome.1 ≠ .error (.threw exception)

theorem Returning.of_ok {outcome : Except Stop Response × World} {response : Response}
    (returned : outcome.1 = .ok response) : Returning outcome := by
  intro exception threw
  rw [returned] at threw
  cases threw

theorem AtRest.unharmed {w : World} (rest : AtRest w) : Unharmed w := by
  obtain ⟨this, spec, idle⟩ := rest
  exact ⟨idle.vacant.disciplined, idle.vacant.empty, idle.released⟩

section Runs

variable {env : Environment} {call : Call} {w : World}

theorem Call.careful_kept (sane : Sane w) (careful : call.Careful env w) :
    (call.exec env w).1 ≠ .error .nullDereference ∧ Sane (call.exec env w).2 := by
  have kept := (Call.follows env (fun _ => AtRest.sane) (fun _ sane => sane) call w sane).1 careful
  rcases outcome : call.exec env w with ⟨(e | response), w'⟩
  · have stopped := (Exec.wp_of_error outcome).mp kept
    exact ⟨fun same => stopped.1 (Except.error.inj same), stopped.2⟩
  · exact ⟨nofun, (Exec.wp_of_ok outcome).mp kept⟩

theorem Call.careful_streams (sane : Sane w) (careful : call.Careful env w) :
    StreamsUnharmed call (call.exec env w) := by
  rintro prompt onToken rfl
  refine ⟨(Call.careful_kept sane careful).1, fun response returned => AtRest.unharmed ?_⟩
  have streams := @generateStreaming_follows env prompt _ _ (OnToken.follows env onToken)
    (OnToken.function_preserves (broken_kept env) onToken)
  have follows : protocol.Follows Sane ((Call.generateStreaming prompt onToken).exec env)
      ((Call.generateStreaming prompt onToken).Careful env) fun _ => AtRest :=
    streams.map Response.streamed fun _ _ rest => rest
  have kept := (follows w sane).1 careful
  rcases outcome : (Call.generateStreaming prompt onToken).exec env w with ⟨(e | response'), w'⟩
  · rw [outcome] at returned
    cases returned
  · exact (Exec.wp_of_ok outcome).mp kept

theorem careful_streams_unharmed (calls : List Call) : ∀ w, Sane w →
    Along env (fun w call _ => call.Careful env w) calls w →
      Along env (fun _ call outcome => StreamsUnharmed call outcome) calls w := by
  induction calls with
  | nil => exact fun _ _ _ => trivial
  | cons call calls ih =>
    intro w sane careful
    exact ⟨Call.careful_streams sane careful.1, ih _ (Call.careful_kept sane careful.1).2 careful.2⟩

theorem AtRest.not_broken (rest : AtRest w) : ¬ protocol.broken w := by
  intro broken
  obtain ⟨b, lost⟩ := broken
  have live := lost.live
  rw [rest.unharmed.empty] at live
  exact List.not_mem_nil live

/-- A call at rest from which nothing is thrown, and which does no harm if it streams, was made
    carefully. -/
theorem AtRest.careful (rest : AtRest w) (returning : Returning (call.exec env w))
    (unharmed : StreamsUnharmed call (call.exec env w)) : call.Careful env w := by
  by_contra careless
  have harm := (Call.follows env (fun _ => AtRest.sane) (fun _ sane => sane) call w rest.sane).2 careless
  obtain ⟨this, spec, idle⟩ := rest
  cases call with
  | initializeRuntime modelPath detected => exact careless idle.vacant.ram
  | generate prompt maxTokens =>
    rcases idle.generate env prompt maxTokens with failed | ⟨text, w', result, idle', _⟩
    · have stopped : (Call.generate prompt maxTokens).exec env w = _ := Exec.bind_of_error failed.eq
      exact returning _ (congrArg Prod.fst stopped)
    · have returned : (Call.generate prompt maxTokens).exec env w = (.ok (.generated text), w') :=
        Exec.bind_of_ok result
      exact AtRest.not_broken ⟨this, spec, idle'⟩ ((Exec.wp_of_ok returned).mp harm)
  | generateStreaming prompt onToken =>
    obtain ⟨noNull, quiet⟩ := unharmed prompt onToken rfl
    rcases outcome : (Call.generateStreaming prompt onToken).exec env w with ⟨(e | response), w'⟩
    · rw [outcome] at noNull
      cases e with
      | threw exception => exact returning exception (congrArg Prod.fst outcome)
      | nullDereference => exact noNull rfl
    · obtain ⟨b, lost⟩ := (Exec.wp_of_ok outcome).mp harm
      have empty := (quiet response (congrArg Prod.fst outcome)).empty
      have live := lost.live
      rw [outcome] at empty
      rw [empty] at live
      exact List.not_mem_nil live
  | getDeviceSpec => exact careless trivial
  | getMemoryStats => exact careless trivial
  | shutdown => exact careless trivial

theorem AtRest.kept (rest : AtRest w) (careful : call.Careful env w) (returning : Returning (call.exec env w)) :
    AtRest (call.exec env w).2 := by
  have kept := (Call.follows env (fun _ rest => rest) (fun _ => AtRest.sane) call w rest).1 careful
  rcases outcome : call.exec env w with ⟨(e | response), w'⟩
  · have stopped := (Exec.wp_of_error outcome).mp kept
    cases e with
    | threw exception => exact absurd (congrArg Prod.fst outcome) (returning exception)
    | nullDereference => exact absurd rfl stopped.1
  · exact (Exec.wp_of_ok outcome).mp kept

theorem unharmed_streams_careful (calls : List Call) : ∀ w, AtRest w →
    Along env (fun _ _ outcome => Returning outcome) calls w →
    Along env (fun _ call outcome => StreamsUnharmed call outcome) calls w →
      Along env (fun w call _ => call.Careful env w) calls w := by
  induction calls with
  | nil => exact fun _ _ _ _ => trivial
  | cons call calls ih =>
    intro w rest returning unharmed
    have careful := rest.careful returning.1 unharmed.1
    exact ⟨careful, ih _ (rest.kept careful returning.1) returning.2 unharmed.2⟩

end Runs

/-- Streaming with callbacks that call the runtime, and catch what it throws, leaves every run
    unharmed in which each call at any depth is made carefully; and while no exception reaches the
    client, only those runs. -/
theorem reentrant_streaming_unharmed_iff (env : Environment) (modelPath : String) (detected : HardwareSpec)
    (calls : List Call) :
    (Along env (fun w call _ => call.Careful env w) (.initializeRuntime modelPath detected :: calls) World.create →
      Along env (fun _ call outcome => StreamsUnharmed call outcome)
        (.initializeRuntime modelPath detected :: calls) World.create) ∧
    (Along env (fun _ _ outcome => Returning outcome) (.initializeRuntime modelPath detected :: calls) World.create →
      Along env (fun _ call outcome => StreamsUnharmed call outcome)
        (.initializeRuntime modelPath detected :: calls) World.create →
      Along env (fun w call _ => call.Careful env w)
        (.initializeRuntime modelPath detected :: calls) World.create) := by
  obtain ⟨w, result, idle⟩ := initialize_first env modelPath detected
  have rest : AtRest ((Call.initializeRuntime modelPath detected).exec env World.create).2 := by
    rw [result]
    exact ⟨_, _, idle⟩
  refine ⟨fun careful => ⟨nofun, careful_streams_unharmed calls _ rest.sane careful.2⟩, fun returning unharmed => ?_⟩
  exact ⟨rfl, unharmed_streams_careful calls _ rest returning.2 unharmed.2⟩

/-- The heap has no block for the third request and none for the fifth. -/
def scarce : Environment := .bump fun t _ => t.length ≠ 2 ∧ t.length ≠ 6

/-- Both times a callback catches the exception: over held resources when there are no weights,
    and after a shutdown when there are weights and no KV block. -/
def carefulCalls : List Call :=
  [.generateStreaming "outer" (.callable (.guarded (.call (.generate "inner" 16) .returns) .returns)
    (.call .getMemoryStats .returns)
    (.call .shutdown (.guarded (.call (.generate "inner" 16) .returns) .returns))), .generate "after" 16]

def carelessCalls : List Call :=
  [.generateStreaming "outer" (.callable (.call (.generate "inner" 16) .returns) .returns .returns)]

theorem reentrant_streaming_careful :
    Along scarce (fun _ call outcome => StreamsUnharmed call outcome)
      (.initializeRuntime "model" roomySpec :: carefulCalls) World.create ∧
    Along scarce (fun w call _ => call.Careful scarce w)
      (.initializeRuntime "model" roomySpec :: carefulCalls) World.create := by
  have law := reentrant_streaming_unharmed_iff scarce "model" roomySpec carefulCalls
  have unharmed := law.1 (by decide +kernel)
  refine ⟨unharmed, law.2 ⟨.of_ok rfl, ?_, ?_, trivial⟩ unharmed⟩
  · apply @Returning.of_ok _ (.streamed true)
    decide +kernel
  · apply @Returning.of_ok _ (.generated ("Generated response (stub) using backend: " ++ "llama.cpp"))
    decide +kernel

theorem reentrant_streaming_harms :
    ¬ Along (.bump fun _ _ => true) (fun _ call outcome => StreamsUnharmed call outcome)
      (.initializeRuntime "model" roomySpec :: carelessCalls) World.create := by
  intro along
  have noNull := (along.2.1 _ _ rfl).1
  exact absurd noNull (by decide +kernel)

end LLM.Core

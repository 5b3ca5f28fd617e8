import OnDeviceLLM.Core.Calls

namespace LLM.Core

open Cxx Hardware Hal Memory

/-- The invocation returns or throws, and calls nothing. -/
def Script.Passive : Script → Prop
  | .returns => True
  | .throws => True
  | _ => False

def OnToken.Passive : OnToken → Prop
  | .empty => True
  | .callable first second third => first.Passive ∧ second.Passive ∧ third.Passive

def OnToken.Throws : OnToken → Prop
  | .empty => False
  | .callable first second third => first = .throws ∨ second = .throws ∨ third = .throws

def Call.Passive : Call → Prop
  | .generateStreaming _ onToken => onToken.Passive
  | _ => True

def Call.Throws : Call → Prop
  | .generateStreaming _ onToken => onToken.Throws
  | _ => False

/-- The answer depends on the specification in force and on nothing else. -/
def Call.Answers (spec : HardwareSpec) : Call → Except Stop Response → Prop
  | .generate _ _, result =>
    ∃ text, result = .ok (.generated text) ∧ (text ≠ generateError ↔ Fits spec)
  | .generateStreaming _ _, result => ∃ ok, result = .ok (.streamed ok) ∧ (ok = true ↔ Fits spec)
  | _, result => ∃ response, result = .ok response

def GivenBack (w : World) : Prop := Released w ∧ Heap.live w.trace = []

theorem Script.Passive.cases {script : Script} (passive : script.Passive) :
    script = .returns ∨ script = .throws := by
  cases script with
  | returns => exact .inl rfl
  | throws => exact .inr rfl
  | call call rest => exact passive.elim
  | guarded block rest => exact passive.elim

section Streaming

variable (env : Environment) {this : Nat} {spec : HardwareSpec} {w : World} {onToken : OnToken}

theorem Holding.stream_passive (holding : Holding this spec w) (passive : onToken.Passive) :
    (onToken.Throws ∧ stream (onToken.function env) w = (.error (.threw .user), w)) ∨
    (¬ onToken.Throws ∧ stream (onToken.function env) w = (.ok (), w)) := by
  cases onToken with
  | empty => exact .inr ⟨id, rfl⟩
  | callable first second third =>
    obtain ⟨passiveFirst, passiveSecond, passiveThird⟩ := passive
    rcases passiveFirst.cases with rfl | rfl
    · rcases passiveSecond.cases with rfl | rfl
      · have reached : stream ((OnToken.callable .returns .returns third).function env) w =
            third.exec env w :=
          Exec.bind_of_ok holding.backend
        rw [reached]
        rcases passiveThird.cases with rfl | rfl
        · exact .inr ⟨by simp [OnToken.Throws], rfl⟩
        · exact .inl ⟨.inr (.inr rfl), rfl⟩
      · exact .inl ⟨.inr (.inl rfl), rfl⟩
    · exact .inl ⟨.inl rfl, rfl⟩

theorem Holding.streamAndUnload_passive (holding : Holding this spec w) (passive : onToken.Passive) :
    (onToken.Throws ∧ streamAndUnload env (onToken.function env) w = (.error (.threw .user), w)) ∨
    (¬ onToken.Throws ∧ ∃ w', streamAndUnload env (onToken.function env) w = (.ok true, w') ∧
      Idle this spec w') := by
  rcases holding.stream_passive env passive with ⟨throws, stopped⟩ | ⟨quiet, returned⟩
  · exact .inl ⟨throws, Exec.bind_of_error stopped⟩
  · obtain ⟨w', unloaded, idle⟩ := holding.unload env
    have printed := @printMemoryStats_apply env _ _ idle.manager
    refine .inr ⟨quiet, w', ?_, idle⟩
    rw [streamAndUnload, Exec.bind_of_ok returned, Exec.bind_of_ok unloaded, Exec.bind_of_ok printed]
    rfl

/-- What a passive call does at rest: only an exception out of a callback leaves anything
    behind, and the callback runs only where both blocks fit. -/
theorem Idle.passive_call {call : Call} (idle : Idle this spec w) (passive : call.Passive)
    (unfailing : Unfailing (call.exec env w).2.trace) :
    (call.Throws ∧ Fits spec ∧ Holding this spec (call.exec env w).2) ∨
    ((call.Throws → ¬ Fits spec) ∧ call.Answers spec (call.exec env w).1 ∧
      ∃ this', Idle this' (call.latest spec) (call.exec env w).2) := by
  cases call with
  | initializeRuntime modelPath detected =>
    obtain ⟨w', result, idle'⟩ := idle.vacant.initialize modelPath detected
    have returned : (Call.initializeRuntime modelPath detected).exec env w = (.ok (.initialized true), w') :=
      (Exec.bind_of_ok result).trans rfl
    rw [returned]
    exact .inr ⟨False.elim, ⟨_, rfl⟩, _, idle'⟩
  | generate prompt maxTokens =>
    rcases idle.generate env prompt maxTokens with failed | ⟨text, w', result, idle', served⟩
    · have stopped : (Call.generate prompt maxTokens).exec env w = _ := Exec.bind_of_error failed.eq
      rw [stopped] at unfailing
      exact absurd unfailing failed.2
    · have returned : (Call.generate prompt maxTokens).exec env w = (.ok (.generated text), w') :=
        (Exec.bind_of_ok result).trans rfl
      rw [returned]
      exact .inr ⟨False.elim, ⟨text, rfl, served⟩, this, idle'⟩
  | generateStreaming prompt onToken =>
    by_cases fits : Fits spec
    · rcases idle.streaming_fit env fits prompt (onToken.function env) with failed | ⟨w', result, holding⟩
      · have stopped : (Call.generateStreaming prompt onToken).exec env w = _ := Exec.bind_of_error failed.eq
        rw [stopped] at unfailing
        exact absurd unfailing failed.2
      · rcases holding.streamAndUnload_passive env passive with
          ⟨throws, stopped⟩ | ⟨quiet, w'', returned, idle'⟩
        · have escaped : (Call.generateStreaming prompt onToken).exec env w = (.error (.threw .user), w') :=
            Exec.bind_of_error (result.trans stopped)
          rw [escaped]
          exact .inl ⟨throws, fits, holding⟩
        · have answered : (Call.generateStreaming prompt onToken).exec env w = (.ok (.streamed true), w'') :=
            (Exec.bind_of_ok (result.trans returned)).trans rfl
          rw [answered]
          exact .inr ⟨fun throws => absurd throws quiet, ⟨true, rfl, by simp [fits]⟩, this, idle'⟩
    · rcases idle.streaming_unfit env fits prompt (onToken.function env) with failed | ⟨w', result, idle'⟩
      · have stopped : (Call.generateStreaming prompt onToken).exec env w = _ := Exec.bind_of_error failed.eq
        rw [stopped] at unfailing
        exact absurd unfailing failed.2
      · have returned : (Call.generateStreaming prompt onToken).exec env w = (.ok (.streamed false), w') :=
          (Exec.bind_of_ok result).trans rfl
        rw [returned]
        exact .inr ⟨fun _ => fits, ⟨false, rfl, by simp [fits]⟩, this, idle'⟩
  | getDeviceSpec => exact .inr ⟨False.elim, ⟨_, rfl⟩, this, idle⟩
  | getMemoryStats =>
    have returned : Call.getMemoryStats.exec env w = (.ok (.stats _), w) :=
      (Exec.bind_of_ok (getMemoryStats_apply env idle.manager)).trans rfl
    rw [returned]
    exact .inr ⟨False.elim, ⟨_, rfl⟩, this, idle⟩
  | shutdown =>
    have returned : Call.shutdown.exec env w = (.ok .done, w) :=
      (Exec.bind_of_ok (@Ready.unload env _ _ idle.ready)).trans rfl
    rw [returned]
    exact .inr ⟨False.elim, ⟨_, rfl⟩, this, idle⟩

end Streaming

section Runs

variable {env : Environment}

/-- Every exception out of a callback falls in a call that both blocks do not fit, where the
    callback is never invoked. -/
def ThrowsOnlyUnfit : HardwareSpec → List Call → Prop
  | _, [] => True
  | spec, call :: calls => (call.Throws → ¬ Fits spec) ∧ ThrowsOnlyUnfit (call.latest spec) calls

theorem Holding.not_released {this : Nat} {spec : HardwareSpec} {w : World} (holding : Holding this spec w) :
    ¬ Released w := by
  intro released
  cases holding with
  | loaded ram kv _ ramNonnull _ _ => exact ramNonnull released.ram

theorem throughout_answers (calls : List Call) :
    ∀ this spec w, Idle this spec w → (∀ call ∈ calls, call.Passive) →
      Throughout env (fun _ _ outcome => Unfailing outcome.2.trace) spec calls w →
      ThrowsOnlyUnfit spec calls →
      Throughout env (fun spec call outcome => GivenBack outcome.2 ∧ call.Answers spec outcome.1)
        spec calls w := by
  induction calls with
  | nil => exact fun _ _ _ _ _ _ _ => trivial
  | cons call calls ih =>
    intro this spec w idle passive unfailing unfit
    rcases idle.passive_call env (passive call List.mem_cons_self) unfailing.1 with
      ⟨throws, fits, _⟩ | ⟨_, answers, this', idle'⟩
    · exact absurd fits (unfit.1 throws)
    · exact ⟨⟨⟨idle'.released, idle'.vacant.empty⟩, answers⟩, ih this' _ _ idle'
        (fun c member => passive c (List.mem_cons_of_mem call member)) unfailing.2 unfit.2⟩

theorem throughout_released (calls : List Call) :
    ∀ this spec w, Idle this spec w → (∀ call ∈ calls, call.Passive) →
      Throughout env (fun _ _ outcome => Unfailing outcome.2.trace) spec calls w →
      Throughout env (fun _ _ outcome => Released outcome.2) spec calls w → ThrowsOnlyUnfit spec calls := by
  induction calls with
  | nil => exact fun _ _ _ _ _ _ _ => trivial
  | cons call calls ih =>
    intro this spec w idle passive unfailing released
    rcases idle.passive_call env (passive call List.mem_cons_self) unfailing.1 with
      ⟨_, _, holding⟩ | ⟨unfit, _, this', idle'⟩
    · exact absurd released.1 holding.not_released
    · exact ⟨unfit, ih this' _ _ idle' (fun c member => passive c (List.mem_cons_of_mem call member))
        unfailing.2 released.2⟩

end Runs

theorem throwsOnlyUnfit_of_quiet (calls : List Call) (quiet : ∀ call ∈ calls, ¬ call.Throws) :
    ∀ spec, ThrowsOnlyUnfit spec calls := by
  induction calls with
  | nil => exact fun _ => trivial
  | cons call calls ih =>
    intro spec
    exact ⟨fun throws => absurd throws (quiet call List.mem_cons_self),
      ih (fun c member => quiet c (List.mem_cons_of_mem call member)) _⟩

/-- Whatever came before, a call is answered by the specification in force, and leaves
    nothing behind. -/
theorem generation_history_independent (env : Environment) (modelPath : String) (detected : HardwareSpec)
    (calls : List Call) (quiet : ∀ call ∈ calls, call.Passive ∧ ¬ call.Throws)
    (unfailing : Throughout env (fun _ _ outcome => Unfailing outcome.2.trace) detected
      (.initializeRuntime modelPath detected :: calls) World.create) :
    Throughout env (fun spec call outcome => Released outcome.2 ∧ call.Answers spec outcome.1) detected
      (.initializeRuntime modelPath detected :: calls) World.create := by
  obtain ⟨w, result, idle⟩ := initialize_first env modelPath detected
  have rest := unfailing.2
  rw [result] at rest
  have answers := throughout_answers calls 0 detected w idle (fun call member => (quiet call member).1)
    rest (throwsOnlyUnfit_of_quiet calls (fun call member => (quiet call member).2) detected)
  rw [Throughout, result]
  refine ⟨⟨idle.released, _, rfl⟩, ?_⟩
  exact Throughout.mono (fun _ _ _ h => ⟨h.1.1, h.2⟩) calls _ _ answers

def roomySpec : HardwareSpec := WindowsHardwareDetector.detect (16 * 1024 * 1024 * 1024) (8 * 1024 * 1024 * 1024)

def tightSpec : HardwareSpec := WindowsHardwareDetector.detect (1024 * 1024 * 1024) (270 * 1024 * 1024)

def quietCalls : List Call :=
  [.generate "first" 16, .initializeRuntime "model" tightSpec, .generate "second" 16,
    .generateStreaming "third" .empty, .initializeRuntime "model" roomySpec,
    .generateStreaming "fourth" (.callable .returns .returns .returns), .shutdown, .getMemoryStats]

theorem generation_history_independent_quiet :
    Throughout (.bump fun _ _ => true)
      (fun spec call outcome => Released outcome.2 ∧ call.Answers spec outcome.1) roomySpec
      (.initializeRuntime "model" roomySpec :: quietCalls) World.create :=
  generation_history_independent (.bump fun _ _ => true) "model" roomySpec quietCalls
    (by simp [quietCalls, Call.Passive, Call.Throws, OnToken.Passive, OnToken.Throws, Script.Passive])
    (by decide +kernel)

/-- Streaming with callbacks that throw releases everything exactly when no callback throws
    while it is streamed to. -/
theorem exceptions_released_iff (env : Environment) (modelPath : String) (detected : HardwareSpec)
    (calls : List Call) (passive : ∀ call ∈ calls, call.Passive)
    (unfailing : Throughout env (fun _ _ outcome => Unfailing outcome.2.trace) detected
      (.initializeRuntime modelPath detected :: calls) World.create) :
    Throughout env (fun spec call outcome => GivenBack outcome.2 ∧
        ∀ prompt maxTokens, call = .generate prompt maxTokens → call.Answers spec outcome.1) detected
      (.initializeRuntime modelPath detected :: calls) World.create ↔
    ThrowsOnlyUnfit detected calls := by
  obtain ⟨w, result, idle⟩ := initialize_first env modelPath detected
  have rest := unfailing.2
  rw [result] at rest
  rw [Throughout, result]
  constructor
  · intro both
    exact throughout_released calls 0 detected w idle passive rest
      (Throughout.mono (fun _ _ _ h => h.1.1) calls _ _ both.2)
  · intro unfit
    have answers := throughout_answers calls 0 detected w idle passive rest unfit
    refine ⟨⟨⟨idle.released, idle.vacant.empty⟩, nofun⟩, ?_⟩
    exact Throughout.mono (fun _ _ _ h => ⟨h.1, fun _ _ _ => h.2⟩) calls _ _ answers

/-- The first callback is never invoked, since the KV block does not fit. -/
def unfitThrowCalls : List Call :=
  [.initializeRuntime "model" tightSpec, .generateStreaming "first" (.callable .throws .returns .returns),
    .initializeRuntime "model" roomySpec, .generate "second" 16]

def heldThrowCalls : List Call :=
  [.generateStreaming "first" (.callable .returns .throws .returns), .generate "second" 16]

theorem exceptions_released_unfit :
    Throughout (.bump fun _ _ => true) (fun spec call outcome => GivenBack outcome.2 ∧
        ∀ prompt maxTokens, call = .generate prompt maxTokens → call.Answers spec outcome.1) roomySpec
      (.initializeRuntime "model" roomySpec :: unfitThrowCalls) World.create := by
  refine (exceptions_released_iff (.bump fun _ _ => true) "model" roomySpec unfitThrowCalls ?_ ?_).mpr ?_
  · simp [unfitThrowCalls, Call.Passive, OnToken.Passive, Script.Passive]
  · decide +kernel
  · exact ⟨nofun, fun _ => by decide, nofun, nofun, trivial⟩

theorem exceptions_not_released :
    ¬ Throughout (.bump fun _ _ => true) (fun spec call outcome => GivenBack outcome.2 ∧
        ∀ prompt maxTokens, call = .generate prompt maxTokens → call.Answers spec outcome.1) roomySpec
      (.initializeRuntime "model" roomySpec :: heldThrowCalls) World.create := by
  intro throughout
  have ram := throughout.2.1.1.1.ram
  exact absurd ram (by decide +kernel)

end LLM.Core

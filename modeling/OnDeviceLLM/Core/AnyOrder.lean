import OnDeviceLLM.Core.AllocationFailure
import OnDeviceLLM.Core.Leaks

namespace LLM.Core

open Cxx Hardware Hal Memory

def Call.Generation : Call → Prop
  | .generate _ _ => True
  | .generateStreaming _ _ => True
  | _ => False

theorem Call.Generation.cases {call : Call} (generation : call.Generation) :
    (∃ prompt maxTokens, call = .generate prompt maxTokens) ∨
      ∃ prompt onToken, call = .generateStreaming prompt onToken := by
  cases call with
  | generate prompt maxTokens => exact .inl ⟨prompt, maxTokens, rfl⟩
  | generateStreaming prompt onToken => exact .inr ⟨prompt, onToken, rfl⟩
  | initializeRuntime _ _ => exact generation.elim
  | getDeviceSpec => exact generation.elim
  | getMemoryStats => exact generation.elim
  | shutdown => exact generation.elim

def Call.Served : Call → Except Stop Response → Prop
  | .generate _ _, result => ∃ text, result = .ok (.generated text) ∧ text ≠ generateError
  | .generateStreaming _ _, result => result = .ok (.streamed true)
  | _, _ => False

def Call.Declined : Call → Except Stop Response → Prop
  | .generate _ _, result => result = .ok (.generated generateError)
  | .generateStreaming _ _, result => result = .ok (.streamed false)
  | _, _ => False

/-- A generation request that is not served ends in the error result, and what the runtime
    and its heap hold is unchanged. -/
def Settled (w : World) (call : Call) (outcome : Except Stop Response × World) : Prop :=
  call.Generation → ¬ call.Served outcome.1 →
    call.Declined outcome.1 ∧ outcome.2.runtime = w.runtime ∧
      Heap.live outcome.2.trace = Heap.live w.trace

def NullSafe (outcome : Except Stop Response × World) : Prop := outcome.1 ≠ .error .nullDereference

/-- No generation is asked for before the first `initialize`. -/
def InitializedFirst : List Call → Prop
  | [] => True
  | .initializeRuntime _ _ :: _ => True
  | call :: calls => ¬ call.Generation ∧ InitializedFirst calls

theorem OnToken.quiet_cases {onToken : OnToken} (passive : onToken.Passive) (quiet : ¬ onToken.Throws) :
    onToken = .empty ∨ onToken = .callable .returns .returns .returns := by
  cases onToken with
  | empty => exact .inl rfl
  | callable first second third =>
    obtain ⟨passiveFirst, passiveSecond, passiveThird⟩ := passive
    have ne : first ≠ .throws ∧ second ≠ .throws ∧ third ≠ .throws := by
      simpa [OnToken.Throws] using quiet
    right
    rw [passiveFirst.cases.resolve_right ne.1, passiveSecond.cases.resolve_right ne.2.1,
      passiveThird.cases.resolve_right ne.2.2]

theorem stream_quiet (env : Environment) {onToken : OnToken} {w : World} {backend : CPUBackend}
    (passive : onToken.Passive) (quiet : ¬ onToken.Throws) (present : w.runtime.backend = some backend) :
    stream (onToken.function env) w = (.ok (), w) := by
  have named : derefBackend w = (.ok backend, w) := by simp [derefBackend, present]
  rcases OnToken.quiet_cases passive quiet with rfl | rfl
  · rfl
  · have reached : stream ((OnToken.callable .returns .returns .returns).function env) w =
        Script.exec env .returns w := Exec.bind_of_ok named
    exact reached

section Safety

variable {env : Environment} {α β : Type}

def Managed (w : World) : Prop := ∃ m, w.runtime.memoryManager = some m

def Stopped (e : Stop) (w : World) : Prop := e ≠ .nullDereference ∧ Managed w

/-- Where there is a manager, nothing null is dereferenced and the manager stays. -/
def Safe (x : Exec World α) : Prop := ∀ w, Managed w → Exec.wp x (fun _ => Managed) Stopped w

theorem Safe.then_wp {x : Exec World α} {f : α → Exec World β} {post : β → World → Prop}
    (first : Safe x) (next : ∀ a w, Managed w → Exec.wp (f a) post Stopped w) :
    ∀ w, Managed w → Exec.wp (x >>= f) post Stopped w := by
  intro w managed
  rw [Exec.wp_bind]
  exact Exec.wp_mono (first w managed) (fun a w' kept => next a w' kept) (fun _ _ stopped => stopped)

theorem Safe.bind {x : Exec World α} {f : α → Exec World β} (first : Safe x) (next : ∀ a, Safe (f a)) :
    Safe (x >>= f) := first.then_wp next

theorem Safe.pure (a : α) : Safe (Pure.pure a : Exec World α) := fun _ managed => managed

theorem Safe.get : Safe (Exec.get : Exec World World) := fun _ managed => managed

theorem Safe.ite {p : Prop} [Decidable p] {x y : Exec World α} (yes : Safe x) (no : Safe y) :
    Safe (if p then x else y) := by
  by_cases held : p
  · rw [if_pos held]
    exact yes
  · rw [if_neg held]
    exact no

theorem setRuntime_safe {f : LLMRuntimeImpl → LLMRuntimeImpl}
    (same : ∀ r, (f r).memoryManager = r.memoryManager) : Safe (setRuntime f) := by
  intro w managed
  obtain ⟨m, present⟩ := managed
  exact ⟨m, (same w.runtime).trans present⟩

theorem onManager_safe {x : Exec Process α}
    (safe : ∀ p, Exec.wp x (fun _ _ => True) (fun e _ => e ≠ .nullDereference) p) : Safe (onManager x) := by
  intro w managed
  obtain ⟨m, present⟩ := managed
  rw [wp_onManager present]
  exact Exec.wp_mono (safe _) (fun _ p _ => ⟨p.manager, rfl⟩) (fun _ p named => ⟨named, p.manager, rfl⟩)

theorem allocate_safe (size : UInt64) (useMmap : Bool) :
    Safe (onManager (allocateWeights env noCallback size useMmap)) := by
  apply onManager_safe
  intro p
  have outcomes := Request.allocate_cases env noCallback p (.weights size useMmap)
  simp only [Request.allocate, Request.size] at outcomes
  rcases outcomes with
    ⟨_, result⟩ | ⟨_, _, result⟩ | ⟨ptr, _, _, _, result⟩ | ⟨ptr, _, _, _, result⟩
  · exact (Exec.wp_of_ok result).mpr trivial
  · exact (Exec.wp_of_error result).mpr (by simp)
  · exact (Exec.wp_of_error result).mpr (by simp)
  · rw [Exec.bind_of_ok notifyPressure_ignored] at result
    exact (Exec.wp_of_ok result).mpr trivial

theorem deallocate_safe (ptr : Addr) : Safe (onManager (deallocate env noCallback ptr)) := by
  apply onManager_safe
  intro p
  rcases deallocate_cases env noCallback p ptr with ⟨_, result⟩ | ⟨size, _, result⟩
  · exact (Exec.wp_of_ok result).mpr trivial
  · rw [notifyPressure_ignored] at result
    exact (Exec.wp_of_ok result).mpr trivial

theorem printMemoryStats_safe : Safe (printMemoryStats env) :=
  onManager_safe fun _ => trivial

theorem unloadBackendResources_safe : Safe (unloadBackendResources env) := by
  have ram : Safe (releaseRam env) :=
    Safe.get.bind fun _ => .ite ((deallocate_safe _).bind fun _ => setRuntime_safe fun _ => rfl) (.pure _)
  have kv : Safe (releaseKv env) :=
    Safe.get.bind fun _ => .ite ((deallocate_safe _).bind fun _ => setRuntime_safe fun _ => rfl) (.pure _)
  exact ram.bind fun _ => kv.bind fun _ => setRuntime_safe fun _ => rfl

/-- What a load that succeeds leaves for the dereferences after it. -/
def Backed (loaded : Bool) (w : World) : Prop :=
  Managed w ∧ (loaded = true → ∃ backend, w.runtime.backend = some backend)

theorem loadKv_backed (ram : Addr) (tier : DeviceTier) :
    ∀ w, Managed w → Exec.wp (loadKv env ram tier) Backed Stopped w := by
  apply (allocate_safe (kvSize tier) false).then_wp
  intro kv
  apply Safe.then_wp
  · exact setRuntime_safe fun _ => rfl
  intro _
  by_cases null : kv = nullptr
  · rw [if_pos null]
    apply (deallocate_safe ram).then_wp
    intro _
    exact Safe.then_wp (setRuntime_safe fun _ => rfl) fun _ _ managed => ⟨managed, nofun⟩
  · rw [if_neg null]
    intro w managed
    rw [Exec.wp_of_ok (createBackend_apply env w)]
    exact ⟨managed, fun _ => ⟨_, rfl⟩⟩

theorem load_backed : ∀ w, Managed w → Exec.wp (loadBackendResources env) Backed Stopped w := by
  intro w managed
  rw [Exec.wp_congr (load_eq env w)]
  apply (allocate_safe (weightSize w.tier) true).then_wp _ w managed
  intro ram
  apply Safe.then_wp
  · exact setRuntime_safe fun _ => rfl
  intro _
  by_cases null : ram = nullptr
  · rw [if_pos null]
    exact fun w managed => ⟨managed, nofun⟩
  · rw [if_neg null]
    exact loadKv_backed ram _

theorem Backed.respond {loaded : Bool} {w : World} (backed : Backed loaded w) :
    Exec.wp (respond env loaded) (fun _ => Managed) Stopped w := by
  obtain ⟨managed, present⟩ := backed
  cases loaded with
  | false => exact managed
  | true =>
    obtain ⟨backend, present⟩ := present rfl
    obtain ⟨m, manager⟩ := managed
    have named : derefBackend w = (.ok backend, w) := by simp [derefBackend, present]
    have rest : Safe (unloadBackendResources env >>= fun _ => printMemoryStats env >>= fun _ =>
        Pure.pure ("Generated response (stub) using backend: " ++ backend.getName)) :=
      unloadBackendResources_safe.bind fun _ => printMemoryStats_safe.bind fun _ => .pure _
    have reached : LLM.Core.respond env true w = _ :=
      (Exec.bind_of_ok (printMemoryStats_apply manager)).trans (Exec.bind_of_ok named)
    exact (Exec.wp_congr reached).mpr (rest w ⟨m, manager⟩)

theorem Backed.respondStreaming {loaded : Bool} {w : World} (backed : Backed loaded w) {onToken : OnToken}
    (passive : onToken.Passive) (quiet : ¬ onToken.Throws) :
    Exec.wp (respondStreaming env (onToken.function env) loaded) (fun _ => Managed) Stopped w := by
  obtain ⟨managed, present⟩ := backed
  cases loaded with
  | false => exact managed
  | true =>
    obtain ⟨backend, present⟩ := present rfl
    obtain ⟨m, manager⟩ := managed
    have rest : Safe (unloadBackendResources env >>= fun _ => printMemoryStats env >>= fun _ =>
        Pure.pure true) :=
      unloadBackendResources_safe.bind fun _ => printMemoryStats_safe.bind fun _ => .pure _
    have reached : LLM.Core.respondStreaming env (onToken.function env) true w = _ :=
      (Exec.bind_of_ok (printMemoryStats_apply manager)).trans
        (Exec.bind_of_ok (stream_quiet env passive quiet present))
    exact (Exec.wp_congr reached).mpr (rest w ⟨m, manager⟩)

theorem generate_safe (prompt : String) (maxTokens : UInt32) : Safe (generate env prompt maxTokens) := by
  rw [generate_eq]
  apply printMemoryStats_safe.bind
  intro _ w managed
  rw [Exec.wp_bind]
  exact Exec.wp_mono (load_backed w managed) (fun _ _ backed => backed.respond) (fun _ _ stopped => stopped)

theorem generateStreaming_safe (prompt : String) {onToken : OnToken} (passive : onToken.Passive)
    (quiet : ¬ onToken.Throws) : Safe (generateStreaming env prompt (onToken.function env)) := by
  rw [generateStreaming_eq]
  apply printMemoryStats_safe.bind
  intro _ w managed
  rw [Exec.wp_bind]
  exact Exec.wp_mono (load_backed w managed) (fun _ _ backed => backed.respondStreaming passive quiet)
    (fun _ _ stopped => stopped)

theorem Call.exec_safe {call : Call} (passive : call.Passive) (quiet : ¬ call.Throws) :
    Safe (call.exec env) := by
  cases call with
  | initializeRuntime modelPath detected => exact fun _ _ => ⟨_, rfl⟩
  | generate prompt maxTokens => exact (generate_safe prompt maxTokens).bind fun _ => .pure _
  | generateStreaming prompt onToken =>
    exact (generateStreaming_safe prompt passive quiet).bind fun _ => .pure _
  | getDeviceSpec => exact Safe.get.bind fun _ => .pure _
  | getMemoryStats =>
    intro w managed
    obtain ⟨m, present⟩ := managed
    have returned : Call.getMemoryStats.exec env w = (.ok (.stats _), w) :=
      (Exec.bind_of_ok (getMemoryStats_apply env present)).trans rfl
    exact (Exec.wp_of_ok returned).mpr ⟨m, present⟩
  | shutdown => exact unloadBackendResources_safe.bind fun _ => .pure _

theorem Managed.along_nullSafe (calls : List Call) (quiet : ∀ call ∈ calls, call.Passive ∧ ¬ call.Throws) :
    ∀ w, Managed w → Along env (fun _ _ outcome => NullSafe outcome) calls w := by
  induction calls with
  | nil => exact fun _ _ => trivial
  | cons call calls ih =>
    intro w managed
    have here := quiet call List.mem_cons_self
    have safe := @Call.exec_safe env call here.1 here.2 w managed
    have rest := ih fun c member => quiet c (List.mem_cons_of_mem call member)
    unfold Exec.wp at safe
    rw [Along, NullSafe]
    rcases outcome : call.exec env w with ⟨(e | response), w'⟩
    · rw [outcome] at safe
      refine ⟨fun same => ?_, rest w' safe.2⟩
      cases same
      exact safe.1 rfl
    · rw [outcome] at safe
      exact ⟨nofun, rest w' safe⟩

end Safety

section Phases

variable {env : Environment} {w : World}

/-- No manager yet, and nothing held. -/
structure Bare (w : World) : Prop where
  vacant : Vacant w
  manager : w.runtime.memoryManager = none

theorem Bare.generation_faults (bare : Bare w) {call : Call} (generation : call.Generation) :
    (call.exec env w).1 = .error .nullDereference := by
  have fault : printMemoryStats env w = (.error .nullDereference, w) := onManager_absent bare.manager
  rcases generation.cases with ⟨prompt, maxTokens, rfl⟩ | ⟨prompt, onToken, rfl⟩
  · have stopped : LLM.Core.generate env prompt maxTokens w = (.error .nullDereference, w) :=
      Exec.bind_of_error fault
    rw [Call.exec, Exec.bind_of_error stopped]
  · have stopped : LLM.Core.generateStreaming env prompt (onToken.function env) w =
        (.error .nullDereference, w) := Exec.bind_of_error fault
    rw [Call.exec, Exec.bind_of_error stopped]

/-- The calls besides generation change the world only by initializing it. -/
theorem Vacant.other_call (vacant : Vacant w) {call : Call} (other : ¬ call.Generation) :
    (∃ modelPath detected w', call = .initializeRuntime modelPath detected ∧
      call.exec env w = (.ok (.initialized true), w') ∧ w'.trace = w.trace ∧ Idle w.managers detected w') ∨
    ∃ response, call.exec env w = (.ok response, w) := by
  cases call with
  | initializeRuntime modelPath detected =>
    exact .inl ⟨modelPath, detected, _, rfl, rfl, rfl,
      ⟨vacant.ram, vacant.kv, vacant.backend, vacant.disciplined, vacant.empty⟩, rfl, rfl, Nat.lt_succ_self _⟩
  | generate prompt maxTokens => exact absurd trivial other
  | generateStreaming prompt onToken => exact absurd trivial other
  | getDeviceSpec => exact .inr ⟨_, rfl⟩
  | getMemoryStats =>
    right
    cases present : w.runtime.memoryManager <;>
      simp [Call.exec, LLM.Core.getMemoryStats, present, Exec.bind_apply]
  | shutdown =>
    have cleared : ({ w with runtime := { w.runtime with backend := none } } : World) = w := by
      rw [← vacant.backend]
    have unloaded := @unload_nothing env w vacant.ram vacant.kv
    rw [cleared] at unloaded
    exact .inr ⟨.done, Exec.bind_of_ok unloaded⟩

theorem Ready.load_declined {m : HeapMemoryManager} (ready : Ready m w) {w' : World}
    (load : loadBackendResources env w = (.ok false, w')) :
    w'.runtime = w.runtime ∧ Heap.live w'.trace = Heap.live w.trace ∧
      (Unfailing w.trace → Unfailing w'.trace) := by
  have outcome : LoadOutcome env m w (loadBackendResources env w) := ready.load_outcome
  rw [load] at outcome
  cases outcome with
  | weightsRefused _ => exact ⟨rfl, rfl, id⟩
  | kvRefused ram weights _ =>
    refine ⟨rfl, weights.live_given_back, fun unfailing => ?_⟩
    exact List.forall_mem_cons.mpr ⟨rfl, List.forall_mem_cons.mpr ⟨rfl, unfailing⟩⟩

theorem World.unloaded_unfailing (m : HeapMemoryManager) (ram kv : Addr) (unfailing : Unfailing w.trace) :
    Unfailing (w.unloaded m ram kv).trace :=
  List.forall_mem_cons.mpr ⟨rfl, List.forall_mem_cons.mpr ⟨rfl, List.forall_mem_cons.mpr ⟨rfl,
    List.forall_mem_cons.mpr ⟨rfl, unfailing⟩⟩⟩⟩

theorem Idle.load_cases {this : Nat} {spec : HardwareSpec} (idle : Idle this spec w) :
    OutOfMemory (loadBackendResources env w) ∨
    (∃ ram kv w', loadBackendResources env w =
        (.ok true, w.loaded (HeapMemoryManager.create this spec.availableRamBytes) ram kv) ∧
      w' = w.unloaded (HeapMemoryManager.create this spec.availableRamBytes) ram kv ∧
      unloadBackendResources env (w.loaded (HeapMemoryManager.create this spec.availableRamBytes) ram kv) =
        (.ok (), w') ∧ Idle this spec w' ∧ (Unfailing w.trace → Unfailing w'.trace)) ∨
    ∃ w', loadBackendResources env w = (.ok false, w') ∧ Idle this spec w' ∧
      w'.runtime = w.runtime ∧ Heap.live w'.trace = Heap.live w.trace ∧
      (Unfailing w.trace → Unfailing w'.trace) := by
  by_cases fits : Fits spec
  · rcases idle.load_fit env fits with failed | ⟨ram, kv, ramNonnull, kvNonnull, distinct, load⟩
    · exact .inl failed
    · have unload := idle.unload_loaded env ramNonnull kvNonnull distinct
      exact .inr (.inl ⟨ram, kv, _, load, rfl, unload.1, unload.2, World.unloaded_unfailing _ _ _⟩)
  · rcases idle.load_unfit env fits with failed | ⟨w', load, after⟩
    · exact .inl failed
    · exact .inr (.inr ⟨w', load, after, idle.ready.load_declined load⟩)

/-- Out of memory, or settled and at rest again. -/
theorem Idle.generation_call {this : Nat} {spec : HardwareSpec} (idle : Idle this spec w) {call : Call}
    (generation : call.Generation) (passive : call.Passive) (quiet : ¬ call.Throws) :
    OutOfMemory (call.exec env w) ∨
    (∃ response, (call.exec env w).1 = .ok response) ∧ Settled w call (call.exec env w) ∧
      Idle this spec (call.exec env w).2 ∧ (Unfailing w.trace → Unfailing (call.exec env w).2.trace) := by
  have loads := @Idle.load_cases env w this spec idle
  rcases generation.cases with ⟨prompt, maxTokens, rfl⟩ | ⟨prompt, onToken, rfl⟩
  · rcases loads with failed | ⟨ram, kv, w', load, same, unload, after, clean⟩ |
      ⟨w', load, after, runtime, live, clean⟩
    · have stopped : (Call.generate prompt maxTokens).exec env w = _ :=
        Exec.bind_of_error (generate_stopped prompt maxTokens idle.ready failed.eq)
      rw [stopped]
      exact .inl ⟨rfl, failed.2⟩
    · subst same
      have served : LLM.Core.generate env prompt maxTokens w = _ :=
        (generate_loaded prompt maxTokens idle.ready load).trans (respond_served idle.ready unload)
      have returned : (Call.generate prompt maxTokens).exec env w = _ := Exec.bind_of_ok served
      rw [returned]
      exact .inr ⟨⟨_, rfl⟩, fun _ unserved => absurd ⟨_, rfl, by decide⟩ unserved, after, clean⟩
    · have declined : LLM.Core.generate env prompt maxTokens w = (.ok generateError, w') :=
        generate_loaded prompt maxTokens idle.ready load
      have returned : (Call.generate prompt maxTokens).exec env w = _ := Exec.bind_of_ok declined
      rw [returned]
      exact .inr ⟨⟨_, rfl⟩, fun _ _ => ⟨rfl, runtime, live⟩, after, clean⟩
  · rcases loads with failed | ⟨ram, kv, w', load, same, unload, after, clean⟩ |
      ⟨w', load, after, runtime, live, clean⟩
    · have stopped : (Call.generateStreaming prompt onToken).exec env w = _ :=
        Exec.bind_of_error (streaming_stopped prompt (onToken.function env) idle.ready failed.eq)
      rw [stopped]
      exact .inl ⟨rfl, failed.2⟩
    · have streamed : streamAndUnload env (onToken.function env) (w.loaded _ ram kv) = (.ok true, w') :=
        (Exec.bind_of_ok (stream_quiet env passive quiet rfl)).trans
          ((Exec.bind_of_ok unload).trans (Exec.bind_of_ok (printMemoryStats_apply after.manager)))
      have served : LLM.Core.generateStreaming env prompt (onToken.function env) w = (.ok true, w') :=
        (streaming_loaded prompt _ idle.ready load).trans ((respondStreaming_loaded _).trans streamed)
      have returned : (Call.generateStreaming prompt onToken).exec env w = _ := Exec.bind_of_ok served
      rw [returned]
      exact .inr ⟨⟨_, rfl⟩, fun _ unserved => absurd rfl unserved, after, clean⟩
    · have declined : LLM.Core.generateStreaming env prompt (onToken.function env) w = (.ok false, w') :=
        streaming_loaded prompt _ idle.ready load
      have returned : (Call.generateStreaming prompt onToken).exec env w = _ := Exec.bind_of_ok declined
      rw [returned]
      exact .inr ⟨⟨_, rfl⟩, fun _ _ => ⟨rfl, runtime, live⟩, after, clean⟩

end Phases

section Runs

variable {env : Environment} {w : World}

/-- A callback, if there is one, returns normally and does not call the runtime. -/
def Quiet (calls : List Call) : Prop := ∀ call ∈ calls, call.Passive ∧ ¬ call.Throws

theorem Quiet.tail {call : Call} {calls : List Call} (quiet : Quiet (call :: calls)) : Quiet calls :=
  fun c member => quiet c (List.mem_cons_of_mem call member)

/-- An exception or a fault settles nothing. -/
theorem not_settled_of_error {call : Call} {outcome : Except Stop Response × World} {e : Stop}
    (generation : call.Generation) (stopped : outcome.1 = .error e) : ¬ Settled w call outcome := by
  intro settled
  rcases generation.cases with ⟨prompt, maxTokens, rfl⟩ | ⟨prompt, onToken, rfl⟩
  · have unserved : ¬ (Call.generate prompt maxTokens).Served outcome.1 := by
      intro served
      obtain ⟨text, returned, _⟩ := served
      rw [stopped] at returned
      cases returned
    have returned := (settled trivial unserved).1
    rw [stopped] at returned
    cases returned
  · have unserved : ¬ (Call.generateStreaming prompt onToken).Served outcome.1 := by
      intro returned
      rw [stopped] at returned
      cases returned
    have returned := (settled trivial unserved).1
    rw [stopped] at returned
    cases returned

theorem Idle.quiet_call {this : Nat} {spec : HardwareSpec} (idle : Idle this spec w)
    (unfailing : Unfailing w.trace) {call : Call} (passive : call.Passive) (quiet : ¬ call.Throws) :
    (¬ Settled w call (call.exec env w) ∧ ¬ Unfailing (call.exec env w).2.trace) ∨
    (NullSafe (call.exec env w) ∧ Settled w call (call.exec env w) ∧
      Unfailing (call.exec env w).2.trace ∧ ∃ this' spec', Idle this' spec' (call.exec env w).2) := by
  by_cases generation : call.Generation
  · rcases @Idle.generation_call env w this spec idle call generation passive quiet with
      failed | ⟨⟨response, returned⟩, settled, after, clean⟩
    · exact .inl ⟨not_settled_of_error generation failed.1, failed.2⟩
    · have safe : NullSafe (call.exec env w) := by
        intro fault
        rw [returned] at fault
        cases fault
      exact .inr ⟨safe, settled, clean unfailing, this, spec, after⟩
  · rcases @Vacant.other_call env w idle.vacant call generation with
      ⟨_, detected, w', _, result, trace, after⟩ | ⟨response, result⟩
    · rw [result]
      exact .inr ⟨nofun, fun asked => absurd asked generation, trace ▸ unfailing, _, detected, after⟩
    · rw [result]
      exact .inr ⟨nofun, fun asked => absurd asked generation, unfailing, this, spec, idle⟩

theorem Idle.along_settled_iff (calls : List Call) (quiet : Quiet calls) :
    ∀ this spec w, Idle this spec w → Unfailing w.trace →
      (Along env (fun w call outcome => NullSafe outcome ∧ Settled w call outcome) calls w ↔
        Along env (fun _ _ outcome => Unfailing outcome.2.trace) calls w) := by
  induction calls with
  | nil => exact fun _ _ _ _ _ => Iff.rfl
  | cons call calls ih =>
    intro this spec w idle unfailing
    have here := quiet call List.mem_cons_self
    rcases @Idle.quiet_call env w this spec idle unfailing call here.1 here.2 with
      ⟨unsettled, failed⟩ | ⟨safe, settled, clean, this', spec', after⟩
    · exact ⟨fun along => absurd along.1.2 unsettled, fun along => absurd along.1 failed⟩
    · have rest := ih quiet.tail this' spec' _ after clean
      exact ⟨fun along => ⟨clean, rest.mp along.2⟩, fun along => ⟨⟨safe, settled⟩, rest.mpr along.2⟩⟩

theorem InitializedFirst.cons_iff {call : Call} {calls : List Call}
    (other : ∀ modelPath detected, call ≠ .initializeRuntime modelPath detected) :
    InitializedFirst (call :: calls) ↔ ¬ call.Generation ∧ InitializedFirst calls := by
  cases call with
  | initializeRuntime modelPath detected => exact absurd rfl (other modelPath detected)
  | generate _ _ => exact Iff.rfl
  | generateStreaming _ _ => exact Iff.rfl
  | getDeviceSpec => exact Iff.rfl
  | getMemoryStats => exact Iff.rfl
  | shutdown => exact Iff.rfl

/-- What is equivalent once the runtime is initialized is equivalent from the start, up to
    the generations that come too early. -/
theorem Bare.along_iff {property condition : World → Call → Except Stop Response × World → Prop}
    (early : ∀ w call outcome, outcome.1 = .error .nullDereference → ¬ property w call outcome)
    (other : ∀ w call response w', ¬ call.Generation → property w call (.ok response, w'))
    (clean : ∀ w call response w', Unfailing w'.trace → condition w call (.ok response, w'))
    (initialized : ∀ calls, Quiet calls → ∀ this spec w, Idle this spec w → Unfailing w.trace →
      (Along env property calls w ↔ Along env condition calls w))
    (calls : List Call) (quiet : Quiet calls) (w : World) (bare : Bare w) (unfailing : Unfailing w.trace) :
    Along env property calls w ↔ InitializedFirst calls ∧ Along env condition calls w := by
  induction calls with
  | nil => exact ⟨fun _ => ⟨trivial, trivial⟩, fun _ => trivial⟩
  | cons call calls ih =>
    by_cases generation : call.Generation
    · have distinct : ∀ modelPath detected, call ≠ .initializeRuntime modelPath detected := by
        intro modelPath detected same
        rw [same] at generation
        exact generation
      rw [InitializedFirst.cons_iff distinct]
      have fault := @Bare.generation_faults env w bare call generation
      exact ⟨fun along => absurd along.1 (early _ _ _ fault), fun both => absurd generation both.1.1⟩
    · rcases @Vacant.other_call env w bare.vacant call generation with
        ⟨modelPath, detected, w', same, result, trace, after⟩ | ⟨response, result⟩
      · have still : Unfailing w'.trace := trace ▸ unfailing
        have rest := initialized calls quiet.tail _ _ w' after still
        rw [Along, Along, result, rest, same]
        exact ⟨fun along => ⟨trivial, clean _ _ _ _ still, along.2⟩,
          fun both => ⟨other _ _ _ _ id, both.2.2⟩⟩
      · have distinct : ∀ modelPath detected, call ≠ .initializeRuntime modelPath detected := by
          intro modelPath detected same
          rw [same] at result
          have manager := congrArg (fun outcome => outcome.2.runtime.memoryManager) result
          simp only [bare.manager] at manager
          cases manager
        rw [InitializedFirst.cons_iff distinct, Along, Along, result, ih quiet.tail]
        exact ⟨fun along => ⟨⟨generation, along.2.1⟩, clean _ _ _ _ unfailing, along.2.2⟩,
          fun both => ⟨other _ _ _ _ generation, both.1.2, both.2.2⟩⟩

theorem along_trivial (calls : List Call) : ∀ w, Along env (fun _ _ _ => True) calls w := by
  induction calls with
  | nil => exact fun _ => trivial
  | cons call calls ih => exact fun w => ⟨trivial, ih _⟩

end Runs

/-- In any order of quiet calls, nothing null is dereferenced exactly when no generation is
    asked for before the first `initialize`; and every generation is then settled as well
    exactly when the heap gives what it is asked for. -/
theorem any_order_safe_iff (env : Environment) (calls : List Call)
    (quiet : ∀ call ∈ calls, call.Passive ∧ ¬ call.Throws) :
    (Along env (fun _ _ outcome => NullSafe outcome) calls World.create ↔ InitializedFirst calls) ∧
    (Along env (fun w call outcome => NullSafe outcome ∧ Settled w call outcome) calls World.create ↔
      InitializedFirst calls ∧
        Along env (fun _ _ outcome => Unfailing outcome.2.trace) calls World.create) := by
  have bare : Bare World.create := ⟨World.create_vacant, rfl⟩
  have clean : Unfailing World.create.trace := nofun
  constructor
  · have law := @Bare.along_iff env (fun _ _ outcome => NullSafe outcome) (fun _ _ _ => True)
      (fun _ _ _ fault safe => safe fault) (fun _ _ _ _ _ => nofun)
      (fun _ _ _ _ _ => trivial)
      (fun calls quiet _ _ w idle _ => ⟨fun _ => along_trivial calls w,
        fun _ => Managed.along_nullSafe calls quiet w ⟨_, idle.manager⟩⟩) calls quiet _ bare clean
    rw [law]
    exact and_iff_left (along_trivial calls _)
  · exact Bare.along_iff (fun _ _ _ fault both => both.1 fault)
      (fun _ _ _ _ other => ⟨nofun, fun asked => absurd asked other⟩) (fun _ _ _ _ clean => clean)
      Idle.along_settled_iff calls quiet _ bare clean

/-- Calls before the first `initialize` and after a shutdown. -/
def earlyCalls : List Call :=
  [.getMemoryStats, .shutdown, .getDeviceSpec, .initializeRuntime "model" tightSpec, .shutdown,
    .generate "first" 16, .generateStreaming "second" (.callable .returns .returns .returns)]

theorem any_order_safe_early :
    Along (.bump fun _ _ => true) (fun _ _ outcome => NullSafe outcome) earlyCalls World.create :=
  (any_order_safe_iff (.bump fun _ _ => true) earlyCalls
    (by simp [earlyCalls, Call.Passive, Call.Throws, OnToken.Passive, OnToken.Throws, Script.Passive])).1.mpr
    (by simp [earlyCalls, InitializedFirst, Call.Generation])

theorem generation_before_initialize :
    ¬ Along (.bump fun _ _ => true) (fun _ _ outcome => NullSafe outcome) [.generate "x" 16] World.create := by
  intro along
  exact along.1 rfl

end LLM.Core

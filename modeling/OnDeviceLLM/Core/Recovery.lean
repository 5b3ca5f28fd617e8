import OnDeviceLLM.Core.History
import OnDeviceLLM.Core.Refinement

namespace LLM.Core

open Cxx Hardware Hal Memory

namespace Account

variable {failing : Prop} {level : UInt64 → UInt64 → MemoryPressure} {spec : HardwareSpec} {a : Account}

theorem eq_of {a b : Account} (spec : a.spec = b.spec) (blocks : ∀ r, a.blocks r = b.blocks r)
    (pointer : ∀ r, a.pointer r = b.pointer r) (backend : a.backend = b.backend) : a = b := by
  cases a
  cases b
  simp only [mk.injEq]
  exact ⟨spec, funext blocks, funext pointer, backend⟩

/-- What a load takes is given back, what was counted before it stays counted. -/
theorem unloaded_loaded (a : Account) : a.loaded.unloaded = { a with pointer := fun _ => .empty, backend := false } := by
  apply eq_of
  · simp [unloaded, released, returned, loaded, taken]
  · intro r
    cases r <;> simp [unloaded, released, returned, loaded, taken]
  · intro r
    cases r <;> simp [unloaded, released, returned, loaded, taken]
  · rfl

theorem script_passive {script : Script} (passive : script.Passive) :
    Spec.Ensures (script.account failing level) a fun outcome a' => a' = a ∧
      ((script = .throws ∧ outcome = .error (.threw .user)) ∨ (script ≠ .throws ∧ outcome = .ok ())) := by
  rcases passive.cases with rfl | rfl
  · exact .pure ⟨rfl, .inr ⟨nofun, rfl⟩⟩
  · intro outcome a' stopped
    exact ⟨stopped.2, .inl ⟨rfl, stopped.1⟩⟩

theorem named_present (backend : a.backend = true) :
    Spec.Ensures named a fun outcome a' => a' = a ∧ outcome = .ok () := by
  intro outcome a' allowed
  rcases allowed with ⟨same, ⟨_, returned⟩ | ⟨absent, _⟩⟩
  · exact ⟨same, returned⟩
  · exact absurd backend absent

/-- The three invocations come to an exception exactly when one of them throws. -/
theorem stream_passive {onToken : OnToken} (passive : onToken.Passive) (backend : a.backend = true) :
    Spec.Ensures (onToken.account failing level) a fun outcome a' => a' = a ∧
      ((onToken.Throws ∧ outcome = .error (.threw .user)) ∨ (¬ onToken.Throws ∧ outcome = .ok ())) := by
  cases onToken with
  | empty => exact .pure ⟨rfl, .inr ⟨id, rfl⟩⟩
  | callable first second third =>
    obtain ⟨passiveFirst, passiveSecond, passiveThird⟩ := passive
    rw [OnToken.account]
    refine Spec.Ensures.bind (script_passive passiveFirst) ?_ ?_
    · rintro e a' ⟨rfl, ⟨throws, stopped⟩ | ⟨_, returned⟩⟩
      · exact ⟨rfl, .inl ⟨.inl throws, Except.error.inj stopped ▸ rfl⟩⟩
      · cases returned
    rintro _ a' ⟨rfl, ⟨_, stopped⟩ | ⟨quietFirst, _⟩⟩
    · cases stopped
    refine Spec.Ensures.bind (script_passive passiveSecond) ?_ ?_
    · rintro e a' ⟨rfl, ⟨throws, stopped⟩ | ⟨_, returned⟩⟩
      · exact ⟨rfl, .inl ⟨.inr (.inl throws), Except.error.inj stopped ▸ rfl⟩⟩
      · cases returned
    rintro _ a' ⟨rfl, ⟨_, stopped⟩ | ⟨quietSecond, _⟩⟩
    · cases stopped
    refine Spec.Ensures.bind (named_present backend) ?_ ?_
    · rintro e a' ⟨_, returned⟩
      cases returned
    rintro _ a' ⟨rfl, _⟩ outcome a'' allowed
    obtain ⟨same, ⟨throws, stopped⟩ | ⟨quietThird, returned⟩⟩ := script_passive passiveThird _ _ allowed
    · exact ⟨same, .inl ⟨.inr (.inr throws), stopped⟩⟩
    · refine ⟨same, .inr ⟨?_, returned⟩⟩
      rintro (throws | throws | throws)
      · exact quietFirst throws
      · exact quietSecond throws
      · exact quietThird throws

end Account

section Recovery

variable {env : Environment} {spec : HardwareSpec} {w : World}

/-- A call in a `try` block whose handler shuts the runtime down and throws on. -/
def Call.guarded (env : Environment) (call : Call) : Exec World Response := fun w =>
  match call.exec env w with
  | (.ok response, w') => (.ok response, w')
  | (.error e, w') => (.error e, (LLM.Core.shutdown env w').2)

theorem Booked.released {a : Account} (booked : Booked w a) (empty : a = .opened spec) : Released w := by
  obtain ⟨m, books⟩ := booked
  subst empty
  have total := books.tallies.total
  refine ⟨books.names .ram, books.names .kv, books.backend, m, books.manager, ?_, ?_⟩
  · rw [books.tallies.allocated books.sound]
    simp [Account.used, Account.opened]
  · exact List.eq_nil_of_length_eq_zero total

/-- The manager in place owns every live block and lists it. -/
def Covered (w : World) : Prop := ∃ m, w.runtime.memoryManager = some m ∧ Represents [] ⟨m, w.trace⟩

theorem Covered.steady (grows : ∀ t, env.grow t = true) : Steady env Covered where
  manager := by
    rintro α x steps w ⟨m, present, represents⟩
    have result : onManager x w = ((x ⟨m, w.trace⟩).1, w.store (x ⟨m, w.trace⟩).2) := onManager_of present rfl
    rw [result]
    exact ⟨_, rfl, represents.steps grows (steps ⟨m, w.trace⟩)⟩
  field := by
    rintro f same w ⟨m, present, represents⟩
    exact ⟨m, (same w.runtime).trans present, represents⟩

theorem Script.Passive.preserves {invariant : World → Prop} {script : Script} (passive : script.Passive) :
    Exec.Preserves invariant (script.exec env) := by
  rcases passive.cases with rfl | rfl
  · exact .pure _
  · exact .stop _

theorem Covered.exec (grows : ∀ t, env.grow t = true) {call : Call} (passive : call.Passive) (covered : Covered w)
    (empty : Heap.live w.trace = []) : Covered (call.exec env w).2 := by
  have served := (Covered.steady grows).served
  cases call with
  | initializeRuntime modelPath detected => exact ⟨_, rfl, nofun, empty⟩
  | generate prompt maxTokens => exact (served.generate prompt maxTokens).bind (fun _ => .pure _) w covered
  | generateStreaming prompt onToken =>
    refine (served.generateStreaming prompt ?_).bind (fun _ => .pure _) w covered
    intro callback given i token
    cases onToken with
    | empty => cases given
    | callable first second third =>
      cases given
      obtain ⟨passiveFirst, passiveSecond, passiveThird⟩ := passive
      fin_cases i
      · exact passiveFirst.preserves
      · exact passiveSecond.preserves
      · exact passiveThird.preserves
  | getDeviceSpec => exact covered
  | getMemoryStats =>
    obtain ⟨m, present, represents⟩ := covered
    simpa [Call.exec, LLM.Core.getMemoryStats, present, Exec.bind_apply] using ⟨m, present, represents⟩
  | shutdown => exact served.unload.bind (fun _ => .pure _) w covered

theorem Covered.guarded (grows : ∀ t, env.grow t = true) {call : Call} (passive : call.Passive) (covered : Covered w)
    (empty : Heap.live w.trace = []) : Covered (call.guarded env w).2 := by
  have after := covered.exec grows passive empty
  rw [Call.guarded]
  rcases outcome : call.exec env w with ⟨(e | response), w'⟩ <;> rw [outcome] at after
  · exact (Covered.steady grows).served.unload w' after
  · exact after

theorem Covered.nothing_lives (covered : Covered w) (released : Released w) : Heap.live w.trace = [] := by
  obtain ⟨m, present, represents⟩ := covered
  obtain ⟨_, _, _, m', present', _, ledger⟩ := released
  rw [present] at present'
  cases present'
  have exact := represents.exact
  rwa [HeapMemoryManager.blocks, ledger] at exact

/-- What was obtained has been given back, all of it where the ledger can always grow. -/
def Cleared (env : Environment) (w : World) : Prop :=
  Released w ∧ ((∀ t, env.grow t = true) → Heap.live w.trace = [])

theorem Booked.cleared (booked : Booked w (.opened spec)) (covered : (∀ t, env.grow t = true) → Covered w) :
    Cleared env w :=
  ⟨booked.released rfl, fun grows => (covered grows).nothing_lives (booked.released rfl)⟩

end Recovery

end LLM.Core

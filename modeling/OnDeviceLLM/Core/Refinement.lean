import OnDeviceLLM.Core.Bookkeeping

namespace LLM.Core

open Cxx Hardware Hal Memory

namespace Account

variable (a : Account)

/-- The weights are given back when the KV block is refused, whatever was named before. -/
theorem returned_taken : ((a.taken .ram).dropped .kv).returned .ram = (a.dropped .ram).dropped .kv := by
  have blocks : Function.update (Function.update a.blocks .ram (a.blocks .ram + 1)) .ram (a.blocks .ram + 1 - 1) =
      a.blocks := by
    rw [Function.update_idem, Nat.add_sub_cancel, Function.update_eq_self]
  have pointer : Function.update (Function.update (Function.update a.pointer .ram .held) .kv .empty) .ram .empty =
      Function.update (Function.update a.pointer .ram .empty) .kv .empty := by
    rw [Function.update_comm kv_ne_ram, Function.update_idem]
  simp only [returned, taken, dropped, Function.update_self, blocks, pointer]

end Account

section Load

variable {env : Environment} {a : Account} {w : World}

theorem Books.backed {m : HeapMemoryManager} (books : Books a m w) :
    Booked { w with runtime := { w.runtime with backend := some { useOnnx := false } } } { a with backend := true } :=
  ⟨m, books.manager, books.sound, ⟨books.tallies.budget, books.tallies.unregistered, books.tallies.count,
    books.tallies.total⟩, books.spec, books.names, rfl⟩

theorem loadKv_refines (admitted : ¬ a.Refuses .ram)
    (booked : Booked w (a.taken .ram)) :
    ∃ a', Account.Load (¬ Generous env) a (loadKv env (w.pointer .ram) w.tier w).1 a' ∧
      Booked (loadKv env (w.pointer .ram) w.tier w).2 a' := by
  obtain ⟨m, books⟩ := booked
  rcases @Books.obtain_cases env _ m w books .kv false with
    ⟨refused, requested⟩ | ⟨admittedKv, fails, w', booked', requested⟩ |
    ⟨kv, w', admittedKv, kvNonnull, booked', requested⟩
  · have held : ((a.taken .ram).dropped .kv).pointer .ram = .held := rfl
    obtain ⟨w', deallocated, booked'⟩ := @Books.give_back env _ _ _ (books.drop .kv) .ram held
    have asked : onManager (allocateKvCache env noCallback (kvSize w.tier) .none) w = (.ok nullptr, w) := requested
    have outcome : loadKv env (w.pointer .ram) w.tier w = (.ok false, w'.point .ram nullptr) := by
      rw [loadKv, Exec.bind_of_ok asked]
      simp only [setRuntime, Exec.modify_bind_apply, if_true]
      exact Exec.bind_of_ok deallocated
    rw [outcome]
    rw [Account.returned_taken] at booked'
    exact ⟨_, .kvRefused admitted refused, booked'⟩
  · have asked : onManager (allocateKvCache env noCallback (kvSize w.tier) .none) w =
        (.error (.threw .badAlloc), w') := requested
    have outcome : loadKv env (w.pointer .ram) w.tier w = (.error (.threw .badAlloc), w') := by
      rw [loadKv, Exec.bind_of_error asked]
    rw [outcome]
    exact ⟨_, .kvFailed admitted admittedKv fails, booked'⟩
  · have asked : onManager (allocateKvCache env noCallback (kvSize w.tier) .none) w = (.ok kv, w') := requested
    have outcome : loadKv env (w.pointer .ram) w.tier w = createBackend env (w'.point .kv kv) := by
      rw [loadKv, Exec.bind_of_ok asked]
      simp only [setRuntime, Exec.modify_bind_apply, if_neg kvNonnull]
      rfl
    obtain ⟨m', books'⟩ := booked'
    rw [outcome, createBackend_apply]
    exact ⟨_, .loaded admitted admittedKv, books'.backed⟩

theorem load_refines : Refines Booked (loadBackendResources env) (Account.Load (¬ Generous env)) := by
  intro w a booked
  obtain ⟨m, books⟩ := booked
  rcases @Books.obtain_cases env a m w books .ram true with
    ⟨refused, requested⟩ | ⟨admitted, fails, w', booked', requested⟩ | ⟨ram, w', admitted, nonnull, booked', requested⟩
  · have asked : onManager (allocateWeights env noCallback (weightSize w.tier) true) w = (.ok nullptr, w) := requested
    have outcome : loadBackendResources env w = (.ok false, w.point .ram nullptr) := by
      rw [load_eq, Exec.bind_of_ok asked]
      rfl
    rw [outcome]
    exact ⟨_, .ramRefused refused, m, books.drop .ram⟩
  · have asked : onManager (allocateWeights env noCallback (weightSize w.tier) true) w =
        (.error (.threw .badAlloc), w') := requested
    have outcome : loadBackendResources env w = (.error (.threw .badAlloc), w') := by
      rw [load_eq, Exec.bind_of_error asked]
    rw [outcome]
    exact ⟨_, .ramFailed admitted fails, booked'⟩
  · have asked : onManager (allocateWeights env noCallback (weightSize w.tier) true) w = (.ok ram, w') := requested
    obtain ⟨m', books'⟩ := booked'
    have tier : (w'.point .ram ram).tier = w.tier := books'.tier_eq.trans books.tier_eq.symm
    have outcome : loadBackendResources env w = loadKv env ram (w'.point .ram ram).tier (w'.point .ram ram) := by
      rw [load_eq, Exec.bind_of_ok asked, tier]
      simp only [setRuntime, Exec.modify_bind_apply, if_neg nonnull]
      rfl
    rw [outcome]
    exact @loadKv_refines env a (w'.point .ram ram) admitted ⟨m', books'⟩

end Load

section Calls

variable {env : Environment}

theorem Booked.printed {w : World} {a : Account} (booked : Booked w a) :
    ∃ stats w', printMemoryStats env w = (.ok stats, w') ∧ Booked w' a := by
  obtain ⟨m, books⟩ := booked
  exact ⟨_, w, printMemoryStats_apply books.manager, m, books⟩

theorem named_refines {α : Type} {f : CPUBackend → Exec World α} {F : Spec Account α}
    (next : Refines Booked (f { useOnnx := false }) F) :
    Refines Booked (derefBackend >>= f) (Account.named >>= fun _ => F) := by
  intro w a booked
  obtain ⟨m, books⟩ := booked
  have backend := books.backend
  cases present : a.backend with
  | true =>
    rw [present] at backend
    have named : derefBackend w = (.ok { useOnnx := false }, w) := by simp [derefBackend, backend]
    rw [Exec.bind_of_ok named]
    obtain ⟨a', allowed, booked'⟩ := next w a ⟨m, books⟩
    exact ⟨a', .inr ⟨(), a, ⟨rfl, .inl ⟨present, rfl⟩⟩, allowed⟩, booked'⟩
  | false =>
    rw [present] at backend
    have fault : derefBackend w = (.error .nullDereference, w) := by simp [derefBackend, backend]
    rw [Exec.bind_of_error fault]
    exact ⟨a, .inl ⟨_, rfl, rfl, .inr ⟨by simp [present], rfl⟩⟩, m, books⟩

theorem initializeRuntime_refines (modelPath : String) (detected : HardwareSpec) :
    Refines Booked (initializeRuntime modelPath detected >>= fun ok => pure (Response.initialized ok))
      (Spec.modify (fun a => a.reopened detected) >>= fun _ => pure (Response.initialized true)) := by
  intro w a booked
  obtain ⟨m, books⟩ := booked
  refine ⟨a.reopened detected, .inr ⟨(), _, ⟨rfl, rfl⟩, rfl, rfl⟩, _, rfl, ?_, ?_, rfl, ?_, books.backend⟩
  · exact ⟨books.sound.disciplined, nofun, List.nodup_nil, rfl⟩
  · exact ⟨rfl, rfl, fun _ => rfl, rfl⟩
  · exact fun r => (books.names r).renew books.sound w.managers detected.availableRamBytes _

theorem respond_refines (loaded : Bool) : Refines Booked (respond env loaded)
    (if loaded then do
      Account.named
      .modify Account.unloaded
      pure "Generated response (stub) using backend: llama.cpp"
    else pure generateError) := by
  cases loaded with
  | false => exact .pure _
  | true =>
    refine .skip (fun _ _ booked => booked.printed) fun _ => named_refines ?_
    exact unload_refines.bind fun _ => .skip (fun _ _ booked => booked.printed) fun _ => .pure _

theorem generate_refines (prompt : String) (maxTokens : UInt32) :
    Refines Booked (generate env prompt maxTokens) (Account.generate (¬ Generous env)) := by
  rw [generate_eq]
  exact .skip (fun _ _ booked => booked.printed) fun _ => load_refines.bind respond_refines

theorem generateStreaming_refines (prompt : String) {onToken : Option TokenCallback} {X : Spec Account Unit}
    (streams : Refines Booked (stream onToken) X) :
    Refines Booked (generateStreaming env prompt onToken) (Account.generateStreaming (¬ Generous env) X) := by
  rw [generateStreaming_eq]
  refine .skip (fun _ _ booked => booked.printed) fun _ => load_refines.bind fun loaded => ?_
  cases loaded with
  | false => exact .pure _
  | true =>
    refine .skip (fun _ _ booked => booked.printed) fun _ => streams.bind fun _ => unload_refines.bind fun _ => ?_
    exact .skip (fun _ _ booked => booked.printed) fun _ => .pure _

theorem Booked.stats {w : World} {a : Account} (booked : Booked w a) :
    getMemoryStats env w = (.ok (a.stats env.level), w) := by
  obtain ⟨m, books⟩ := booked
  rw [getMemoryStats_apply env books.manager]
  simp only [getStats, calculatePressure, Account.stats, books.tallies.budget,
    books.tallies.allocated books.sound]

mutual
theorem Call.refines (env : Environment) :
    ∀ call : Call, Refines Booked (call.exec env) (call.account (¬ Generous env) env.level)
  | .initializeRuntime modelPath detected => initializeRuntime_refines modelPath detected
  | .generate prompt maxTokens => (generate_refines prompt maxTokens).bind fun _ => .pure _
  | .generateStreaming prompt onToken =>
    (generateStreaming_refines prompt (OnToken.refines env onToken)).bind fun _ => .pure _
  | .getDeviceSpec => by
    intro w a booked
    obtain ⟨m, books⟩ := booked
    refine ⟨a, .inr ⟨_, a, ⟨rfl, rfl⟩, ?_⟩, m, books⟩
    exact ⟨congrArg (fun spec => Except.ok (Response.spec spec)) books.spec, rfl⟩
  | .getMemoryStats => by
    intro w a booked
    have read : Call.getMemoryStats.exec env w = (.ok (.stats (a.stats env.level)), w) :=
      Exec.bind_of_ok booked.stats
    rw [read]
    exact ⟨a, .inr ⟨_, a, ⟨rfl, rfl⟩, rfl, rfl⟩, booked⟩
  | .shutdown => unload_refines.bind fun _ => .pure _

theorem OnToken.refines (env : Environment) :
    ∀ onToken : OnToken, Refines Booked (stream (onToken.function env)) (onToken.account (¬ Generous env) env.level)
  | .empty => .pure _
  | .callable first second third =>
    (Script.refines env first).bind fun _ => (Script.refines env second).bind fun _ =>
      named_refines (Script.refines env third)

theorem Script.refines (env : Environment) :
    ∀ script : Script, Refines Booked (script.exec env) (script.account (¬ Generous env) env.level)
  | .returns => .pure _
  | .throws => .stop _
  | .call call rest => (Call.refines env call).bind fun _ => Script.refines env rest
  | .guarded block rest => (Script.refines env block).attempt.bind fun _ => Script.refines env rest
end

/-- The first `initialize` opens the books, whatever else the heap holds. -/
theorem created_booked {w : World} (created : w.runtime = World.create.runtime)
    (disciplined : Heap.Disciplined w.trace) (modelPath : String) (detected : HardwareSpec) :
    Booked (initializeRuntime modelPath detected w).2 (.opened detected) := by
  obtain ⟨runtime, managers, trace⟩ := w
  subst created
  exact ⟨_, rfl, ⟨disciplined, nofun, List.nodup_nil, rfl⟩, ⟨rfl, rfl, fun _ => rfl, rfl⟩, rfl,
    fun r => by cases r <;> rfl, rfl⟩

theorem opened_booked (env : Environment) (modelPath : String) (detected : HardwareSpec) :
    Booked ((Call.initializeRuntime modelPath detected).exec env World.create).2 (.opened detected) :=
  created_booked rfl trivial modelPath detected

/-- Four fields stand for the runtime and its heap: whatever is called after the first
    `initialize`, by clients and inside callbacks, on whatever heap, each call ends as the account
    allows, and the account says afterwards what the manager counts, what the pointers name and
    what the statistics are. -/
theorem runtime_refines_account (env : Environment) (modelPath : String) (detected : HardwareSpec)
    (calls : List Call) :
    let w := ((Call.initializeRuntime modelPath detected).exec env World.create).2
    let ended := Exec.trail (Call.exec env) calls w
    ∃ a, Spec.Trail (Call.account (¬ Generous env) env.level) (.opened detected) calls ended.1 a ∧
      Booked ended.2 a ∧ getMemoryStats env ended.2 = (.ok (a.stats env.level), ended.2) := by
  intro w ended
  obtain ⟨a, allowed, booked⟩ :=
    Refines.trail (Call.refines env) calls _ _ (opened_booked env modelPath detected)
  exact ⟨a, allowed, booked, booked.stats⟩

end Calls

end LLM.Core

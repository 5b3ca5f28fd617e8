import OnDeviceLLM.Core.Isolation

namespace LLM.Core

open Cxx Hardware Hal Memory

section Shutdown

variable {env : Environment} {a : Account} {m : HeapMemoryManager} {w : World} {b : Block}

theorem World.point_trace (w : World) (r : Resource) (ptr : Addr) : (w.point r ptr).trace = w.trace := by
  cases r <;> rfl

theorem onManager_pointer {α : Type} (x : Exec Process α) (w : World) : (onManager x w).2.pointer = w.pointer := by
  cases present : w.runtime.memoryManager with
  | none => rw [onManager_absent present]
  | some m =>
    have result : onManager x w = (_, w.store _) := onManager_of present rfl
    rw [result]
    funext r
    cases r <;> rfl

theorem release_pointer {r r' : Resource} (other : r' ≠ r) : (release env r w).2.pointer r' = w.pointer r' := by
  have kept : Exec.Preserves (fun w' => w'.pointer r' = w.pointer r') (release env r) := by
    apply release_preserves
    · intro w' same
      rw [onManager_pointer]
      exact same
    · intro w' same
      rw [World.point_pointer, Function.update_of_ne other]
      exact same
  exact kept w rfl

theorem release_keeps_freed (r : Resource) :
    Exec.Preserves (fun w => b ∉ Heap.live w.trace) (release env r) := by
  apply release_preserves
  · intro w freed
    cases present : w.runtime.memoryManager with
    | none =>
      rw [onManager_absent present]
      exact freed
    | some m =>
      rcases deallocate_cases env noCallback ⟨m, w.trace⟩ (w.pointer r) with ⟨_, result⟩ | ⟨size, _, result⟩
      · rw [onManager_of present result]
        exact freed
      · rw [notifyPressure_ignored] at result
        rw [onManager_of present result]
        intro member
        rw [World.store, Process.live_announce, Process.release_trace, Heap.live_delete] at member
        exact freed (List.mem_of_mem_eraseP member)
  · intro w freed
    rw [World.point_trace]
    exact freed

theorem Books.frees (books : Books a m w) {r : Resource} (held : a.pointer r = .held)
    (here : w.pointer r = b.addr) : b ∉ Heap.live (release env r w).2.trace := by
  have released : deallocate env noCallback (w.pointer r) ⟨m, w.trace⟩ = (.ok (), _) :=
    deallocate_held books.tallies.unregistered (books.find_held held)
  have nonnull : w.pointer r ≠ nullptr := books.nonnull (by rw [held]; nofun)
  rw [release_nonnull nonnull (onManager_of books.manager released), World.point_trace]
  intro member
  obtain ⟨alive, other⟩ := books.sound.disciplined.mem_live_delete.mp member
  have entry := books.sound.of_ledger_entry (List.mem_of_find?_eq_some (books.find_held held))
  have same : b = _ := books.sound.disciplined.eq_of_addr alive entry here.symm
  exact other ⟨congrArg Heap.Block.owner same, here.symm⟩

theorem Books.held_of_lists (books : Books a m w) (lists : w.Lists b.addr) {r : Resource}
    (here : w.pointer r = b.addr) : a.pointer r = .held := by
  obtain ⟨m', now, inside⟩ := lists
  cases books.manager.symm.trans now
  have names := books.names r
  rw [here] at names
  cases hold : a.pointer r with
  | empty =>
    rw [hold] at names
    obtain ⟨entry, member, same⟩ := List.mem_map.mp inside
    have nonnull := books.sound.disciplined.addr_ne_null _ (books.sound.of_ledger_entry member)
    exact absurd (same.trans names) nonnull
  | held => rfl
  | orphaned =>
    rw [hold] at names
    exact absurd inside names.1

theorem Account.released_pointer {r r' : Resource} (other : r' ≠ r) : (a.released r).pointer r' = a.pointer r' := by
  rw [released]
  split <;> exact Function.update_of_ne other _ _

/-- `unload_backend_resources` frees what the ledger and a pointer have. -/
theorem Books.unload_frees (books : Books a m w) (lists : w.Lists b.addr) (names : w.Names b.addr) :
    b ∉ Heap.live (unloadBackendResources env w).2.trace := by
  obtain ⟨r, here⟩ := names
  have held := books.held_of_lists lists here
  obtain ⟨a₁, ⟨ramDone, rfl⟩, m₁, books₁⟩ := @release_refines env .ram w a ⟨m, books⟩
  obtain ⟨a₂, ⟨kvDone, _⟩, _⟩ := @release_refines env .kv _ _ ⟨m₁, books₁⟩
  have ramStep : releaseRam env w = (.ok (), (release env .ram w).2) := Prod.ext ramDone rfl
  have kvStep : releaseKv env (release env .ram w).2 = (.ok (), (release env .kv (release env .ram w).2).2) :=
    Prod.ext kvDone rfl
  rw [unloadBackendResources, Exec.bind_of_ok ramStep, Exec.bind_of_ok kvStep]
  cases r with
  | ram =>
    have freed : b ∉ Heap.live (release env .ram w).2.trace := books.frees held here
    exact release_keeps_freed .kv _ freed
  | kv =>
    have held₁ := (Account.released_pointer kv_ne_ram).trans held
    have here₁ : (release env .ram w).2.pointer .kv = b.addr := (release_pointer kv_ne_ram).trans here
    exact books₁.frees held₁ here₁

theorem Stands.confined {account : Option Account} (stands : Stands w account) (member : b ∈ Heap.live w.trace) :
    Confined (w.Lists b.addr) (w.Names b.addr) b w :=
  ⟨member, stands.disciplined.addr_ne_null b member, id, id⟩

theorem Stands.shutdown_frees {account : Option Account} (stands : Stands w account) (lists : w.Lists b.addr)
    (names : w.Names b.addr) : b ∉ Heap.live (shutdown env w).2.trace := by
  cases account with
  | none =>
    obtain ⟨m, now, _⟩ := lists
    rw [stands.1] at now
    cases now
  | some a =>
    obtain ⟨m, books⟩ := stands
    exact books.unload_frees lists names

/-- And it frees nothing else. -/
theorem Stands.shutdown_frees_iff {account : Option Account} (stands : Stands w account)
    (member : b ∈ Heap.live w.trace) :
    b ∉ Heap.live (shutdown env w).2.trace ↔ w.Lists b.addr ∧ w.Names b.addr := by
  refine ⟨fun freed => ?_, fun both => stands.shutdown_frees both.1 both.2⟩
  by_contra apart
  exact freed (Confined.unloads apart w (stands.confined member)).live

end Shutdown

section Runs

variable {ι : Type} [DecidableEq ι]

theorem Instances.keeps_confined (env : Environment) {listed named : ι → Prop}
    (apart : ∀ i, ¬ (listed i ∧ named i)) (b : Block) (use : ι × Use) :
    Exec.Preserves
      (fun s : Instances ι => b ∈ Heap.live s.trace ∧ ∀ i, Confined (listed i) (named i) b (s.world i))
      (Instances.exec env use) := by
  rintro s ⟨_, confined⟩
  have stepped := @Confined.used env _ _ b (apart use.1) use.2 _ (confined use.1)
  refine ⟨stepped.live, fun j => ?_⟩
  by_cases mine : j = use.1
  · subst mine
    rw [Instances.exec, Instances.world_settle_self]
    exact stepped
  · rw [Instances.exec, Instances.world, Instances.runtime_settle mine]
    exact (confined j).frame stepped.live

/-- Of the blocks that are live, the runtimes of a process that goes on can still free those that one
    of them frees by shutting down at once, and no two of them the same. All others are held until
    the process ends. -/
theorem reclaimed_iff_shutdown (env : Environment) (uses : List (ι × Use)) (b : Block) :
    let ended := Exec.trail (Instances.exec env) uses Instances.create
    b ∈ Heap.live ended.2.trace →
      ((∃ more, b ∉ Heap.live (Exec.trail (Instances.exec env) (uses ++ more) Instances.create).2.trace) ↔
        Exec.Alive ended.1 ∧ ∃! i, b ∉ Heap.live (shutdown env (ended.2.world i)).2.trace) := by
  intro ended member
  obtain ⟨accounts, _, concord⟩ :=
    Refines.trail (Instances.refines env) uses Instances.create (fun _ => none) Concord.create
  have frees := fun i => @Stands.shutdown_frees_iff env (ended.2.world i) b _ (concord.stands i) member
  constructor
  · rintro ⟨more, freed⟩
    have alive : Exec.Alive ended.1 := by
      by_contra dead
      rw [Exec.trail_append_dead more dead] at freed
      exact freed member
    rw [Exec.trail_append more alive] at freed
    refine ⟨alive, ?_⟩
    by_contra unique
    -- then no ledger has the block together with a pointer, and none ever will
    have apart : ∀ i, ¬ ((ended.2.world i).Lists b.addr ∧ (ended.2.world i).Names b.addr) := by
      intro i both
      refine unique ⟨i, (frees i).mpr both, fun j freed' => ?_⟩
      exact concord.apart b member j i (.inl ((frees j).mp freed').1) (.inl both.1)
    have confined : ∀ i, Confined ((ended.2.world i).Lists b.addr) ((ended.2.world i).Names b.addr) b
        (ended.2.world i) := fun i => (concord.stands i).confined member
    exact freed (Exec.Preserves.trail (Instances.keeps_confined env apart b) more _ ⟨member, confined⟩).1
  · rintro ⟨alive, i, freed, _⟩
    refine ⟨[(i, .calls .shutdown)], ?_⟩
    have state : (Exec.trail (Instances.exec env) [(i, .calls .shutdown)] ended.2).2.trace =
        (shutdown env (ended.2.world i)).2.trace := by
      have shut : (Instances.exec env (i, .calls .shutdown) ended.2).2.trace =
          (shutdown env (ended.2.world i)).2.trace :=
        congrArg World.trace (Exec.bind_pure_state (shutdown env) Response.done (ended.2.world i))
      rw [Exec.trail, Exec.trail]
      split <;> exact shut
    rw [Exec.trail_append _ alive, state]
    exact freed

/-- Two exceptions in a row: the weights of the first load are in the ledger, and no pointer has them. -/
def twiceThrown : List (Unit × Use) :=
  let spec := WindowsHardwareDetector.detect (1024 * 1024 * 1024) (600 * 1024 * 1024)
  [((), .calls (.initializeRuntime "model" spec)),
    ((), .calls (.generateStreaming "first" (.callable .throws .returns .returns))),
    ((), .calls (.generateStreaming "second" (.callable .throws .returns .returns)))]

theorem reclaimed_iff_shutdown_twiceThrown :
    ¬ ∃ more, ⟨0, 1, 256 * 1024 * 1024⟩ ∉ Heap.live
      (Exec.trail (Instances.exec (.bump fun _ _ => true)) (twiceThrown ++ more) Instances.create).2.trace := by
  intro freed
  have only := reclaimed_iff_shutdown (.bump fun _ _ => true) twiceThrown ⟨0, 1, 256 * 1024 * 1024⟩
    (by decide +kernel)
  obtain ⟨_, ⟨⟨⟩, shut, _⟩⟩ := only.mp freed
  exact shut (by decide +kernel)

end Runs

end LLM.Core

import OnDeviceLLM.Core.Confinement

namespace LLM.Core

open Cxx Hardware Hal Memory

/-- The address is in the ledger, or one of the two pointers. -/
def World.Uses (w : World) (addr : Addr) : Prop := w.Lists addr ∨ w.Names addr

/-- A live block that the runtime has nothing to do with. -/
abbrev Unused (b : Block) (w : World) : Prop := Confined False False b w

theorem Unused.of_not_uses {b : Block} {w : World} (live : b ∈ Heap.live w.trace) (nonnull : b.addr ≠ nullptr)
    (unused : ¬ w.Uses b.addr) : Unused b w :=
  ⟨live, nonnull, fun lists => unused (.inl lists), fun names => unused (.inr names)⟩

theorem Unused.not_uses {b : Block} {w : World} (unused : Unused b w) : ¬ w.Uses b.addr :=
  fun used => used.elim unused.inLedger unused.inPointer

theorem Stands.exists_live {w : World} {account : Option Account} (stands : Stands w account) {addr : Addr}
    (used : w.Uses addr) (nonnull : addr ≠ nullptr) : ∃ b ∈ Heap.live w.trace, b.addr = addr := by
  cases account with
  | none =>
    obtain ⟨runtime, managers, trace⟩ := w
    obtain ⟨rfl, _⟩ := stands
    rcases used with ⟨m, now, _⟩ | ⟨r, named⟩
    · cases now
    · cases r <;> exact absurd named.symm nonnull
  | some a =>
    obtain ⟨m, books⟩ := stands
    have listed : ∀ entry ∈ m.allocations, ∃ b ∈ Heap.live w.trace, b.addr = entry.1 :=
      fun entry member => ⟨_, books.sound.of_ledger_entry member, rfl⟩
    rcases used with ⟨m', now, inside⟩ | ⟨r, named⟩
    · cases books.manager.symm.trans now
      obtain ⟨entry, member, rfl⟩ := List.mem_map.mp inside
      exact listed entry member
    · have names := books.names r
      rw [named] at names
      cases hold : a.pointer r with
      | empty =>
        rw [hold] at names
        exact absurd names nonnull
      | held =>
        rw [hold] at names
        exact listed _ names
      | orphaned =>
        rw [hold] at names
        exact names.2

theorem Stands.frame {w : World} {account : Option Account} (stands : Stands w account) {managers : Nat}
    {trace : Trace} (disciplined : Heap.Disciplined trace)
    (kept : ∀ b ∈ Heap.live w.trace, w.Uses b.addr → b ∈ Heap.live trace) :
    Stands ⟨w.runtime, managers, trace⟩ account := by
  cases account with
  | none => exact ⟨stands.1, disciplined⟩
  | some a =>
    obtain ⟨m, books⟩ := stands
    refine ⟨m, books.manager, ⟨disciplined, ?_, books.sound.distinct, books.sound.counted⟩, books.tallies,
      books.spec, ?_, books.backend⟩
    · intro b member
      obtain ⟨entry, listed, rfl⟩ := List.mem_map.mp member
      exact kept _ (books.sound.held _ member) (.inl ⟨m, books.manager, List.mem_map_of_mem listed⟩)
    · intro r
      have names := books.names r
      cases hold : a.pointer r with
      | empty =>
        rw [hold] at names
        exact names
      | held =>
        rw [hold] at names
        exact names
      | orphaned =>
        rw [hold] at names
        obtain ⟨absent, b, member, here⟩ := names
        exact ⟨absent, b, kept b member (.inr ⟨r, here.symm⟩), here⟩

/-- Every runtime stands as its account says, and no live block is used by two of them. -/
structure Concord {ι : Type} (s : Instances ι) (accounts : ι → Option Account) : Prop where
  stands : ∀ i, Stands (s.world i) (accounts i)
  apart : ∀ b ∈ Heap.live s.trace, ∀ i j, (s.world i).Uses b.addr → (s.world j).Uses b.addr → i = j

namespace Concord

variable {ι : Type} {s : Instances ι} {accounts : ι → Option Account}

theorem create : Concord (Instances.create : Instances ι) fun _ => none :=
  ⟨fun _ => ⟨rfl, trivial⟩, nofun⟩

theorem unused (concord : Concord s accounts) {i j : ι} (other : j ≠ i) {b : Block}
    (member : b ∈ Heap.live s.trace) (used : (s.world j).Uses b.addr) : Unused b (s.world i) :=
  .of_not_uses member ((concord.stands i).disciplined.addr_ne_null b member)
    fun mine => other (concord.apart b member j i used mine)

theorem settle [DecidableEq ι] (concord : Concord s accounts) {i : ι} {w : World} {account : Option Account}
    (stands : Stands w account) (kept : ∀ b, Unused b (s.world i) → Unused b w) :
    Concord (s.settle i w) (Function.update accounts i account) where
  stands j := by
    by_cases same : j = i
    · subst same
      rw [Instances.world_settle_self, Function.update_self]
      exact stands
    · rw [Function.update_of_ne same, Instances.world, Instances.runtime_settle same]
      exact (concord.stands j).frame stands.disciplined
        fun b member used => (kept b (concord.unused same member used)).live
  apart b member := by
    have outside : ∀ j, j ≠ i → ((s.settle i w).world j).Uses b.addr →
        (s.world j).Uses b.addr ∧ b ∈ Heap.live s.trace ∧ ¬ w.Uses b.addr := by
      intro j other used
      have before : (s.world j).Uses b.addr := by
        rw [Instances.world, Instances.runtime_settle other] at used
        exact used
      have nonnull := stands.disciplined.addr_ne_null b member
      obtain ⟨b', member', here⟩ := (concord.stands j).exists_live before nonnull
      have after := kept b' (concord.unused other member' (here.symm ▸ before))
      -- the block of that address is still the same one
      have same : b' = b := stands.disciplined.eq_of_addr after.live member here
      subst same
      exact ⟨before, member', after.not_uses⟩
    have inside : ((s.settle i w).world i).Uses b.addr → w.Uses b.addr := by
      rw [Instances.world_settle_self]
      exact id
    intro j k first second
    by_cases mine : j = i
    · by_cases mine' : k = i
      · exact mine.trans mine'.symm
      · subst mine
        exact absurd (inside first) (outside k mine' second).2.2
    · by_cases mine' : k = i
      · subst mine'
        exact absurd (inside second) (outside j mine first).2.2
      · exact concord.apart b (outside j mine first).2.1 j k (outside j mine first).1 (outside k mine' second).1

end Concord

section Runs

variable {ι : Type} [DecidableEq ι]

theorem Instances.refines (env : Environment) (use : ι × Use) :
    Refines Concord (Instances.exec env use)
      ((use.2.account (¬ Generous env) env.level).within use.1) := by
  intro s accounts concord
  obtain ⟨account, allowed, stands⟩ := Use.refines env use.2 _ _ (concord.stands use.1)
  refine ⟨_, ⟨account, allowed, rfl⟩, ?_⟩
  exact concord.settle stands fun b => Confined.used (fun both => both.1) use.2 (s.world use.1)

/-- Runtimes in one process, created and let go of in any order and called in any order, on whatever
    heap, until one of them dereferences null: each call ends as the account of its own runtime
    allows, and no live block ever comes to be used by two runtimes. -/
theorem instances_refine_accounts (env : Environment) (uses : List (ι × Use)) :
    let ended := Exec.trail (Instances.exec env) uses Instances.create
    ∃ accounts, Concord ended.2 accounts ∧ ∀ i,
      Spec.Trail (Use.account (¬ Generous env) env.level) none (own i (uses.take ended.1.length))
        (ownOutcomes i uses ended.1) (accounts i) := by
  intro ended
  obtain ⟨accounts, trail, concord⟩ :=
    Refines.trail (Instances.refines env) uses Instances.create (fun _ => none) Concord.create
  exact ⟨accounts, concord, fun i => trail.own i⟩

section Determinism

variable {failing : Prop} {level : UInt64 → UInt64 → MemoryPressure}

theorem Account.Load.deterministic (never : ¬ failing) : Spec.Deterministic (Account.Load failing) := by
  intro a outcome outcome' a₁ a₂ first second
  cases first with
  | ramRefused refused =>
    cases second with
    | ramRefused _ => exact ⟨rfl, rfl⟩
    | ramFailed _ fails => exact absurd fails never
    | kvRefused admitted _ => exact absurd refused admitted
    | kvFailed _ _ fails => exact absurd fails never
    | loaded admitted _ => exact absurd refused admitted
  | ramFailed _ fails => exact absurd fails never
  | kvRefused admitted refused =>
    cases second with
    | ramRefused refusedRam => exact absurd refusedRam admitted
    | ramFailed _ fails => exact absurd fails never
    | kvRefused _ _ => exact ⟨rfl, rfl⟩
    | kvFailed _ _ fails => exact absurd fails never
    | loaded _ admittedKv => exact absurd refused admittedKv
  | kvFailed _ _ fails => exact absurd fails never
  | loaded admitted admittedKv =>
    cases second with
    | ramRefused refused => exact absurd refused admitted
    | ramFailed _ fails => exact absurd fails never
    | kvRefused _ refused => exact absurd refused admittedKv
    | kvFailed _ _ fails => exact absurd fails never
    | loaded _ _ => exact ⟨rfl, rfl⟩

theorem Account.generate_deterministic (never : ¬ failing) : Spec.Deterministic (Account.generate failing) := by
  refine (Load.deterministic never).bind fun loaded => ?_
  cases loaded with
  | false => exact .pure _
  | true => exact (Spec.Deterministic.require _ _).bind fun _ => (Spec.Deterministic.modify _).bind fun _ => .pure _

theorem Account.generateStreaming_deterministic (never : ¬ failing) {stream : Spec Account Unit}
    (streams : Spec.Deterministic stream) : Spec.Deterministic (Account.generateStreaming failing stream) := by
  refine (Load.deterministic never).bind fun loaded => ?_
  cases loaded with
  | false => exact .pure _
  | true => exact streams.bind fun _ => (Spec.Deterministic.modify _).bind fun _ => .pure _

mutual
theorem Call.account_deterministic (never : ¬ failing) :
    ∀ call : Call, Spec.Deterministic (call.account failing level)
  | .initializeRuntime _ _ => (Spec.Deterministic.modify _).bind fun _ => .pure _
  | .generate _ _ => (Account.generate_deterministic never).bind fun _ => .pure _
  | .generateStreaming _ onToken =>
    (Account.generateStreaming_deterministic never (OnToken.account_deterministic never onToken)).bind fun _ => .pure _
  | .getDeviceSpec => Spec.Deterministic.get.bind fun _ => .pure _
  | .getMemoryStats => Spec.Deterministic.get.bind fun _ => .pure _
  | .shutdown => (Spec.Deterministic.modify _).bind fun _ => .pure _

theorem OnToken.account_deterministic (never : ¬ failing) :
    ∀ onToken : OnToken, Spec.Deterministic (onToken.account failing level)
  | .empty => .pure _
  | .callable first second third =>
    (Script.account_deterministic never first).bind fun _ => (Script.account_deterministic never second).bind fun _ =>
      (Spec.Deterministic.require _ _).bind fun _ => Script.account_deterministic never third

theorem Script.account_deterministic (never : ¬ failing) :
    ∀ script : Script, Spec.Deterministic (script.account failing level)
  | .returns => .pure _
  | .throws => .stop _
  | .call call rest =>
    (Call.account_deterministic never call).bind fun _ => Script.account_deterministic never rest
  | .guarded block rest =>
    (Script.account_deterministic never block).attempt.bind fun _ => Script.account_deterministic never rest
end

theorem Use.account_deterministic (never : ¬ failing) (use : Use) :
    Spec.Deterministic (use.account failing level) := by
  cases use with
  | calls call =>
    intro account outcome outcome' account₁ account₂ first second
    cases account with
    | none => exact Prod.mk.inj (first.trans second.symm)
    | some a =>
      obtain ⟨a₁, allowed, rfl⟩ := first
      obtain ⟨a₂, allowed', rfl⟩ := second
      obtain ⟨same, rfl⟩ := call.account_deterministic never _ _ _ _ _ allowed allowed'
      exact ⟨same, rfl⟩
  | renew => exact .of_function (fun _ => (.ok .done, none)) fun _ _ _ allowed => Prod.ext allowed.1 allowed.2

end Determinism

/-- While the heap gives what it is asked for, a runtime does not notice the others of its process:
    as long as none of them ends it by a null dereference, it returns and throws what it does alone,
    on any such heap. -/
theorem runtimes_isolated (env alone : Environment) (generous : Generous env) (generousAlone : Generous alone)
    (level : alone.level = env.level) (uses : List (ι × Use)) (i : ι) :
    let shared := (Exec.trail (Instances.exec env) uses Instances.create).1
    ownOutcomes i uses shared =
        (Exec.trail (Use.exec alone) (own i (uses.take shared.length)) World.create).1 ∧
      (shared.length = uses.length ∨ ∃ outcome ∈ shared.getLast?, faulted outcome = true) := by
  intro shared
  obtain ⟨accounts, trail, _⟩ :=
    Refines.trail (Instances.refines env) uses Instances.create (fun _ => none) Concord.create
  have created : Stands World.create none := ⟨rfl, trivial⟩
  obtain ⟨account, single, _⟩ :=
    Refines.trail (Use.refines alone) (own i (uses.take shared.length)) World.create none created
  have same : (¬ Generous alone) = (¬ Generous env) :=
    (eq_false (not_not_intro generousAlone)).trans (eq_false (not_not_intro generous)).symm
  rw [level, same] at single
  exact ⟨(Spec.Trail.unique (Use.account_deterministic (not_not_intro generous)) (trail.own i) single).1,
    Exec.trail_ends _ uses _⟩

/-- One runtime runs out of its memory by exceptions, and so does the other, which is let go of
    with what it holds and made anew; the new one is called too early, which ends both. -/
def twoRuntimes : List (Bool × Use) :=
  let spec := WindowsHardwareDetector.detect (1024 * 1024 * 1024) (600 * 1024 * 1024)
  [(true, .calls (.initializeRuntime "model" spec)), (false, .calls (.initializeRuntime "other" spec)),
    (true, .calls (.generateStreaming "first" (.callable .throws .returns .returns))),
    (false, .calls (.generateStreaming "second" (.callable .throws .returns .returns))),
    (true, .calls (.generateStreaming "third" (.callable .throws .returns .returns))), (false, .renew),
    (true, .calls (.generate "fourth" 16)), (false, .calls .getMemoryStats), (true, .calls .shutdown),
    (true, .calls .getMemoryStats), (false, .calls (.generate "fifth" 16)), (true, .calls .shutdown)]

theorem runtimes_isolated_two :
    let shared := (Exec.trail (Instances.exec (.bump fun _ _ => true)) twoRuntimes Instances.create).1
    ownOutcomes true twoRuntimes shared =
        (Exec.trail (Use.exec (.bump fun _ _ => true)) (own true (twoRuntimes.take shared.length)) World.create).1 ∧
      (shared.length = twoRuntimes.length ∨ ∃ outcome ∈ shared.getLast?, faulted outcome = true) :=
  runtimes_isolated (.bump fun _ _ => true) (.bump fun _ _ => true) ⟨fun _ _ => rfl, fun _ => rfl⟩
    ⟨fun _ _ => rfl, fun _ => rfl⟩ rfl twoRuntimes true

end Runs

end LLM.Core

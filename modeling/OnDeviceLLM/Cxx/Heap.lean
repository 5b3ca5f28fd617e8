import Mathlib.Tactic

namespace Cxx.Heap

/-- A block obtained from `operator new[]`: who asked for it, where it is, how long it is. -/
structure Block (ω A : Type) where
  owner : ω
  addr : A
  size : Nat
  deriving DecidableEq, Repr

/-- What a program does to the heap, interleaved with marks `N` of its own. -/
inductive Event (ω A N : Type) where
  | new (owner : ω) (addr : A) (size : Nat)
  | newFailed (owner : ω) (size : Nat)
  | delete (owner : ω) (addr : A)
  | note (mark : N)

abbrev Trace (ω A N : Type) := List (Event ω A N)

variable {ω A N : Type} [DecidableEq ω] [DecidableEq A]

/-- The blocks obtained and not yet deleted, oldest first. A `delete[]` only releases a
    block of the owner that issues it. -/
def live : Trace ω A N → List (Block ω A)
  | [] => []
  | .new owner addr size :: t => live t ++ [⟨owner, addr, size⟩]
  | .delete owner addr :: t => (live t).eraseP fun b => b.owner = owner ∧ b.addr = addr
  | .newFailed _ _ :: t => live t
  | .note _ :: t => live t

@[simp] theorem live_nil : live ([] : Trace ω A N) = [] := rfl
@[simp] theorem live_new (owner : ω) (addr : A) (size : Nat) (t : Trace ω A N) :
    live (.new owner addr size :: t) = live t ++ [⟨owner, addr, size⟩] := rfl
@[simp] theorem live_newFailed (owner : ω) (size : Nat) (t : Trace ω A N) :
    live (.newFailed owner size :: t) = live t := rfl
@[simp] theorem live_note (mark : N) (t : Trace ω A N) : live (.note mark :: t) = live t := rfl
theorem live_delete (owner : ω) (addr : A) (t : Trace ω A N) :
    live (.delete owner addr :: t) =
      (live t).eraseP fun b => b.owner = owner ∧ b.addr = addr := rfl

def liveBytes (t : Trace ω A N) : Nat := ((live t).map Block.size).sum

/-- Heap discipline: every block handed out is non-null and disjoint from the live ones,
    and every `delete[]` hits a block that its issuer holds at that moment. -/
def Disciplined [Zero A] : Trace ω A N → Prop
  | [] => True
  | .new _ addr _ :: t => addr ≠ 0 ∧ (∀ b ∈ live t, b.addr ≠ addr) ∧ Disciplined t
  | .delete owner addr :: t => (∃ b ∈ live t, b.owner = owner ∧ b.addr = addr) ∧ Disciplined t
  | .newFailed _ _ :: t => Disciplined t
  | .note _ :: t => Disciplined t

/-- `operator new[]`, free to fail and to reuse addresses, as a function of the history. -/
structure Allocator (ω A N : Type) [DecidableEq ω] [DecidableEq A] [Zero A] where
  new : Trace ω A N → Nat → Option A
  new_ne_null : ∀ t n a, new t n = some a → a ≠ 0
  new_fresh : ∀ t n a, new t n = some a → ∀ b ∈ live t, b.addr ≠ a

section Discipline

variable [Zero A]

theorem Disciplined.addr_nodup {t : Trace ω A N} (disciplined : Disciplined t) :
    ((live t).map Block.addr).Nodup := by
  induction t with
  | nil => simp
  | cons event t ih =>
    cases event with
    | new owner addr size =>
      obtain ⟨-, fresh, rest⟩ := disciplined
      simp only [live_new, List.map_append, List.map_cons, List.map_nil]
      refine List.nodup_append.mpr ⟨ih rest, by simp, ?_⟩
      intro a member b same
      obtain ⟨block, inside, rfl⟩ := List.mem_map.mp member
      rw [List.mem_singleton.mp same]
      exact fresh block inside
    | delete owner addr =>
      exact (ih disciplined.2).sublist (List.eraseP_sublist.map _)
    | newFailed owner size => exact ih disciplined
    | note mark => exact ih disciplined

theorem Disciplined.addr_ne_null {t : Trace ω A N} (disciplined : Disciplined t) :
    ∀ b ∈ live t, b.addr ≠ 0 := by
  induction t with
  | nil => simp
  | cons event t ih =>
    intro b member
    cases event with
    | new owner addr size =>
      rcases List.mem_append.mp member with old | new
      · exact ih disciplined.2.2 b old
      · rw [List.mem_singleton.mp new]
        exact disciplined.1
    | delete owner addr => exact ih disciplined.2 b (List.mem_of_mem_eraseP member)
    | newFailed owner size => exact ih disciplined b member
    | note mark => exact ih disciplined b member

theorem Disciplined.eq_of_addr {t : Trace ω A N} (disciplined : Disciplined t)
    {b c : Block ω A} (hb : b ∈ live t) (hc : c ∈ live t) (same : b.addr = c.addr) : b = c :=
  List.inj_on_of_nodup_map disciplined.addr_nodup hb hc same

theorem Disciplined.mem_live_delete {t : Trace ω A N} (disciplined : Disciplined t)
    {owner : ω} {addr : A} {b : Block ω A} :
    b ∈ live (.delete owner addr :: t) ↔ b ∈ live t ∧ ¬ (b.owner = owner ∧ b.addr = addr) := by
  rw [live_delete]
  constructor
  · intro member
    have kept := List.mem_of_mem_eraseP member
    refine ⟨kept, fun named => ?_⟩
    have nodup : (live t).Nodup := disciplined.addr_nodup.of_map
    obtain ⟨c, before, after, _, hit, split, erased⟩ :=
      List.exists_of_eraseP kept (p := fun b => b.owner = owner ∧ b.addr = addr) (by simpa using named)
    have inside : c ∈ live t := by rw [split]; simp
    have same : b = c := disciplined.eq_of_addr kept inside
      (named.2.trans (by simpa using hit : c.owner = owner ∧ c.addr = addr).2.symm)
    subst same
    rw [split] at nodup
    rw [erased] at member
    have outside := (List.nodup_middle.mp nodup)
    exact (List.nodup_cons.mp outside).1 member
  · intro kept
    obtain ⟨member, other⟩ := kept
    exact (List.mem_eraseP_of_neg (by simpa using other)).mpr member

def newCount (owner : ω) (addr : A) : Trace ω A N → Nat :=
  List.countP fun e => match e with
    | .new o a _ => o = owner ∧ a = addr
    | _ => false

def deleteCount (owner : ω) (addr : A) : Trace ω A N → Nat :=
  List.countP fun e => match e with
    | .delete o a => o = owner ∧ a = addr
    | _ => false

/-- Exactly-once accounting: what was obtained is either released once or still live. -/
theorem Disciplined.conservation {t : Trace ω A N} (disciplined : Disciplined t) (owner : ω) (addr : A) :
    newCount owner addr t = deleteCount owner addr t +
      (live t).countP fun b => b.owner = owner ∧ b.addr = addr := by
  induction t with
  | nil => rfl
  | cons event t ih =>
    cases event with
    | new o a size =>
      have rest := ih disciplined.2.2
      simp only [newCount, deleteCount, List.countP_cons, live_new, List.countP_append,
        List.countP_nil, Bool.false_eq_true, if_false] at rest ⊢
      omega
    | delete o a =>
      have rest := ih disciplined.2
      obtain ⟨b, inside, hit⟩ := disciplined.1
      obtain ⟨c, before, after, outside, found, split, erased⟩ :=
        List.exists_of_eraseP inside (p := fun b => b.owner = o ∧ b.addr = a) (by simpa using hit)
      simp only [decide_eq_true_eq] at found
      simp only [newCount, deleteCount, List.countP_cons, live_delete, erased] at rest ⊢
      rw [split] at rest
      simp only [List.countP_append, List.countP_cons, found.1, found.2, Bool.false_eq_true,
        if_false] at rest ⊢
      omega
    | newFailed o size => simpa [newCount, deleteCount] using ih disciplined
    | note mark => simpa [newCount, deleteCount] using ih disciplined

end Discipline

def nextAddr (t : Trace ω Nat N) : Nat := ((live t).map Block.addr).foldr max 0 + 1

theorem addr_lt_nextAddr (t : Trace ω Nat N) : ∀ b ∈ live t, b.addr < nextAddr t := by
  intro b member
  have bound : ∀ l : List Nat, ∀ a ∈ l, a ≤ l.foldr max 0 := by
    intro l
    induction l with
    | nil => simp
    | cons head tail ih =>
      intro a inside
      rcases List.mem_cons.mp inside with rfl | inside
      · exact Nat.le_max_left _ _
      · exact Nat.le_trans (ih a inside) (Nat.le_max_right _ _)
  exact Nat.lt_succ_of_le (bound _ _ (List.mem_map_of_mem member))

/-- The allocator that always hands out `nextAddr`, and fails exactly where it is told to. -/
def Allocator.bump (succeeds : Trace ω Nat N → Nat → Bool) : Allocator ω Nat N where
  new t n := if succeeds t n then some (nextAddr t) else none
  new_ne_null t n a h := by
    split at h
    · cases h; exact Nat.succ_ne_zero _
    · cases h
  new_fresh t n a h b member := by
    split at h
    · cases h; exact Nat.ne_of_lt (addr_lt_nextAddr t b member)
    · cases h

end Cxx.Heap

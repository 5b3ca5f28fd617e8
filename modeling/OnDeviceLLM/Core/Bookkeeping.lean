import OnDeviceLLM.Core.Account
import OnDeviceLLM.Core.Invariants

namespace LLM.Core

open Cxx Hardware Hal Memory

theorem countP_two {α : Type} [DecidableEq α] {x y : α} (ne : x ≠ y) (l : List α) :
    l.countP (fun b => b = x) + l.countP (fun b => b = y) ≤ l.length := by
  induction l with
  | nil => exact Nat.le_refl 0
  | cons b l ih =>
    simp only [List.countP_cons, List.length_cons, decide_eq_true_eq]
    by_cases first : b = x
    · have other : b ≠ y := first ▸ ne
      rw [if_pos first, if_neg other]
      omega
    · rw [if_neg first]
      split <;> omega

theorem sum_of_two {α : Type} [DecidableEq α] {x y : α} (ne : x ≠ y) (f : α → Nat) (l : List α)
    (only : l.countP (fun b => b = x) + l.countP (fun b => b = y) = l.length) :
    (l.map f).sum = l.countP (fun b => b = x) * f x + l.countP (fun b => b = y) * f y := by
  induction l with
  | nil => simp
  | cons b l ih =>
    have bound := countP_two ne l
    simp only [List.countP_cons, List.length_cons, decide_eq_true_eq] at only
    simp only [List.countP_cons, decide_eq_true_eq, List.map_cons, List.sum_cons]
    by_cases first : b = x
    · have other : b ≠ y := first ▸ ne
      simp only [if_pos first, if_neg other, Nat.add_zero] at only ⊢
      rw [ih (by omega), first, Nat.add_mul]
      omega
    · rw [if_neg first, Nat.add_zero] at only ⊢
      by_cases second : b = y
      · rw [if_pos second] at only ⊢
        rw [ih (by omega), second, Nat.add_mul]
        omega
      · rw [if_neg second] at only
        omega

theorem Resource.size_ne (tier : DeviceTier) : Resource.ram.size tier ≠ Resource.kv.size tier := by
  cases tier <;> decide

theorem Resource.size_injective (tier : DeviceTier) {r r' : Resource} (same : r.size tier = r'.size tier) :
    r = r' := by
  cases r <;> cases r'
  · rfl
  · exact absurd same (size_ne tier)
  · exact absurd same.symm (size_ne tier)
  · rfl

def Resource.sized (tier : DeviceTier) (r : Resource) (entry : Addr × UInt64) : Bool := entry.2 = r.size tier

theorem Resource.sized_iff {tier : DeviceTier} {r r' : Resource} {ptr : Addr} :
    r'.sized tier (ptr, r.size tier) = true ↔ r' = r := by
  rw [Resource.sized, decide_eq_true_eq]
  exact ⟨fun same => (Resource.size_injective tier same).symm, fun same => by rw [same]⟩

theorem ram_ne_kv : Resource.ram ≠ Resource.kv := nofun

theorem kv_ne_ram : Resource.kv ≠ Resource.ram := nofun

/-- The ledger has the blocks that the account counts, and no others. -/
structure Tallies (a : Account) (m : HeapMemoryManager) : Prop where
  budget : m.maxMemory = a.spec.availableRamBytes
  unregistered : m.pressureCallback = false
  count : ∀ r : Resource, m.allocations.countP (r.sized a.spec.tier) = a.blocks r
  total : m.allocations.length = a.blocks .ram + a.blocks .kv

def Hold.Names (p : Process) (size : UInt64) (ptr : Addr) : Hold → Prop
  | .empty => ptr = nullptr
  | .held => (ptr, size) ∈ p.manager.allocations
  | .orphaned => ptr ∉ p.manager.addresses ∧ ∃ b ∈ Heap.live p.trace, b.addr = ptr

def World.pointer (w : World) : Resource → Addr
  | .ram => w.runtime.allocatedRamPtr
  | .kv => w.runtime.allocatedKvPtr

def World.point (w : World) : Resource → Addr → World
  | .ram => w.withRam
  | .kv => w.withKv

@[simp] theorem World.point_pointer (w : World) (r : Resource) (ptr : Addr) :
    (w.point r ptr).pointer = Function.update w.pointer r ptr := by
  funext r'
  cases r <;> cases r' <;> rfl

/-- The account says how the runtime and its manager `m` stand. -/
structure Books (a : Account) (m : HeapMemoryManager) (w : World) : Prop where
  manager : w.runtime.memoryManager = some m
  sound : Sound ⟨m, w.trace⟩
  tallies : Tallies a m
  spec : w.runtime.hardwareSpec = a.spec
  names : ∀ r, Hold.Names ⟨m, w.trace⟩ (r.size a.spec.tier) (w.pointer r) (a.pointer r)
  backend : w.runtime.backend = if a.backend then some { useOnnx := false } else none

def Booked (w : World) (a : Account) : Prop := ∃ m, Books a m w

namespace Tallies

variable {a : Account} {m : HeapMemoryManager}

theorem ledgerBytes (tallies : Tallies a m) : m.ledgerBytes =
    a.blocks .ram * (Resource.ram.size a.spec.tier).toNat + a.blocks .kv * (Resource.kv.size a.spec.tier).toNat := by
  have counts : ∀ r : Resource,
      (m.allocations.map Prod.snd).countP (fun b => b = r.size a.spec.tier) = a.blocks r := by
    intro r
    rw [List.countP_map, ← tallies.count r]
    rfl
  have only := tallies.total
  rw [← counts .ram, ← counts .kv, ← List.length_map (f := Prod.snd)] at only
  have sum := sum_of_two (Resource.size_ne a.spec.tier) UInt64.toNat (m.allocations.map Prod.snd) only.symm
  rw [counts, counts, List.map_map] at sum
  exact sum

theorem allocated {trace : Trace} (tallies : Tallies a m) (sound : Sound ⟨m, trace⟩) : m.allocated = a.used := by
  apply UInt64.toNat_inj.mp
  rw [Account.used, UInt64.toNat_ofNat', ← tallies.ledgerBytes]
  exact sound.counted

theorem refuses_iff {trace : Trace} (tallies : Tallies a m) (sound : Sound ⟨m, trace⟩) (r : Resource) :
    m.Refuses (r.size a.spec.tier) ↔ a.Refuses r := by
  rw [HeapMemoryManager.Refuses, tallies.allocated sound, tallies.budget]
  rfl

theorem enroll {trace : Trace} (tallies : Tallies a m) (r : Resource) (ptr : Addr) :
    Tallies (a.taken r) (Process.enroll ⟨m, trace⟩ ptr (r.size a.spec.tier)).manager where
  budget := tallies.budget
  unregistered := tallies.unregistered
  count r' := by
    have before := tallies.count r'
    rw [Process.enroll_allocations, List.countP_append, List.countP_singleton]
    simp only [Account.taken, Resource.sized_iff, before]
    by_cases same : r' = r
    · rw [same, if_pos rfl, Function.update_self]
    · rw [if_neg same, Function.update_of_ne same, Nat.add_zero]
  total := by
    have before := tallies.total
    rw [Process.enroll_allocations, List.length_append, before, List.length_singleton]
    cases r with
    | ram => simp only [Account.taken, Function.update_self, Function.update_of_ne kv_ne_ram, Nat.add_right_comm]
    | kv => simp only [Account.taken, Function.update_self, Function.update_of_ne ram_ne_kv, Nat.add_assoc]

theorem release {trace : Trace} (tallies : Tallies a m) (r : Resource) {ptr : Addr}
    (known : m.allocations.find? (fun q => q.1 = ptr) = some (ptr, r.size a.spec.tier)) :
    Tallies (a.returned r) (Process.release ⟨m, trace⟩ ptr (r.size a.spec.tier)).manager := by
  obtain ⟨before, after, split, erased, _⟩ := find_split known
  have counts : ∀ r', a.blocks r' = (before ++ after).countP (r'.sized a.spec.tier) + if r' = r then 1 else 0 := by
    intro r'
    rw [← tallies.count r', split, List.countP_append, List.countP_append, List.countP_cons]
    simp only [Resource.sized_iff]
    omega
  have total := tallies.total
  rw [split, List.length_append, List.length_cons] at total
  constructor
  case budget => exact tallies.budget
  case unregistered => exact tallies.unregistered
  case count =>
    intro r'
    rw [Process.release_allocations, erased]
    by_cases same : r' = r
    · have here := counts r
      rw [if_pos rfl] at here
      simp only [Account.returned, same, Function.update_self]
      omega
    · have here := counts r'
      rw [if_neg same, Nat.add_zero] at here
      simp only [Account.returned, Function.update_of_ne same, here]
  case total =>
    have here := counts r
    rw [if_pos rfl] at here
    rw [Process.release_allocations, erased, List.length_append]
    cases r with
    | ram =>
      simp only [Account.returned, Function.update_self, Function.update_of_ne kv_ne_ram]
      omega
    | kv =>
      simp only [Account.returned, Function.update_self, Function.update_of_ne ram_ne_kv]
      omega

end Tallies

namespace Hold.Names

variable {p : Process} {size : UInt64} {ptr : Addr} {hold : Hold}

theorem of_live {p' : Process} (names : hold.Names p size ptr) (same : p'.manager = p.manager)
    (live : ∀ b ∈ Heap.live p.trace, b ∈ Heap.live p'.trace) : hold.Names p' size ptr := by
  cases hold with
  | empty => exact names
  | held =>
    simp only [Names, same]
    exact names
  | orphaned =>
    obtain ⟨absent, b, member, here⟩ := names
    rw [← same] at absent
    exact ⟨absent, b, live b member, here⟩

theorem enroll {env : Environment} {size' : UInt64} {ptr' : Addr} (names : hold.Names p size ptr)
    (obtained : env.new p.trace size'.toNat = some ptr') : hold.Names (p.enroll ptr' size') size ptr := by
  cases hold with
  | empty => exact names
  | held => exact List.mem_append_left _ names
  | orphaned =>
    obtain ⟨absent, b, member, rfl⟩ := names
    refine ⟨?_, b, List.mem_append_left _ member, rfl⟩
    have fresh := env.new_fresh _ _ _ obtained b member
    rw [HeapMemoryManager.addresses, Process.enroll_allocations, List.map_append, List.mem_append]
    exact not_or.mpr ⟨absent, by simpa using fresh⟩

theorem release {size' : UInt64} {ptr' : Addr} (sound : Sound p) (names : hold.Names p size ptr)
    (known : p.manager.allocations.find? (fun q => q.1 = ptr') = some (ptr', size'))
    (other : hold = .held → ptr ≠ ptr') : hold.Names (p.release ptr' size') size ptr := by
  cases hold with
  | empty => exact names
  | held =>
    have kept : (ptr, size) ∈ p.manager.allocations.eraseP (fun q => q.1 = ptr') :=
      (List.mem_eraseP_of_neg (by simpa using other rfl)).mpr names
    exact kept
  | orphaned =>
    obtain ⟨absent, b, member, rfl⟩ := names
    have inside : ptr' ∈ p.manager.addresses :=
      List.mem_map.mpr ⟨(ptr', size'), List.mem_of_find?_eq_some known, rfl⟩
    have apart : b.addr ≠ ptr' := fun same => absent (same ▸ inside)
    refine ⟨fun still => absent ?_, b, ?_, rfl⟩
    · obtain ⟨entry, left, here⟩ := List.mem_map.mp still
      exact List.mem_map.mpr ⟨entry, List.mem_of_mem_eraseP left, here⟩
    · rw [Process.release_trace, sound.disciplined.mem_live_delete]
      exact ⟨member, fun both => apart both.2⟩

theorem renew (sound : Sound p) (names : hold.Names p size ptr) (this : Nat) (maxMemory size' : UInt64) :
    Hold.Names ⟨HeapMemoryManager.create this maxMemory, p.trace⟩ size' ptr
      (if hold = .empty then .empty else .orphaned) := by
  cases hold with
  | empty => exact names
  | held => exact ⟨List.not_mem_nil, _, sound.of_ledger_entry names, rfl⟩
  | orphaned => exact ⟨List.not_mem_nil, names.2⟩

end Hold.Names

section Operations

variable {env : Environment} {a : Account} {m : HeapMemoryManager} {w : World}

theorem World.store_self (present : w.runtime.memoryManager = some m) : w.store ⟨m, w.trace⟩ = w := by
  rcases w with ⟨⟨path, ram, kv, spec, manager, backend⟩, managers, trace⟩
  dsimp only at present
  subst present
  rfl

namespace Books

theorem tier_eq (books : Books a m w) : w.tier = a.spec.tier := by
  rw [World.tier, books.spec]

theorem change (books : Books a m w) {p : Process} {a' : Account} {ptr : Addr} (r : Resource) (sound : Sound p)
    (tallies : Tallies a' p.manager) (spec : a'.spec = a.spec) (backend : a'.backend = a.backend)
    (others : ∀ r', r' ≠ r → a'.pointer r' = a.pointer r' ∧
      (a.pointer r').Names p (r'.size a.spec.tier) (w.pointer r'))
    (here : (a'.pointer r).Names p (r.size a.spec.tier) ptr) : Books a' p.manager ((w.store p).point r ptr) where
  manager := by cases r <;> rfl
  sound := by cases r <;> exact sound
  tallies := tallies
  spec := by
    rw [spec, ← books.spec]
    cases r <;> rfl
  names r' := by
    have trace : ((w.store p).point r ptr).trace = p.trace := by cases r <;> rfl
    rw [trace, spec, World.point_pointer]
    by_cases same : r' = r
    · rw [same, Function.update_self]
      exact here
    · rw [Function.update_of_ne same, (others r' same).1]
      exact (others r' same).2
  backend := by
    rw [backend, ← books.backend]
    cases r <;> rfl

theorem keep (books : Books a m w) {p : Process} (sound : Sound p) (same : p.manager = m)
    (live : ∀ b ∈ Heap.live w.trace, b ∈ Heap.live p.trace) : Books a m (w.store p) where
  manager := congrArg some same
  sound := same ▸ sound
  tallies := books.tallies
  spec := books.spec
  names r := (books.names r).of_live rfl live
  backend := books.backend

theorem drop (books : Books a m w) (r : Resource) : Books (a.dropped r) m (w.point r nullptr) := by
  have changed := @change a m w books ⟨m, w.trace⟩ (a.dropped r) nullptr r books.sound
    ⟨books.tallies.budget, books.tallies.unregistered, books.tallies.count, books.tallies.total⟩ rfl rfl
    (fun r' other => ⟨Function.update_of_ne other _ _, books.names r'⟩)
    (by simp [Account.dropped, Hold.Names])
  rw [World.store_self books.manager] at changed
  exact changed

theorem obtain_cases (books : Books a m w) (r : Resource) (useMmap : Bool) :
    (a.Refuses r ∧ onManager (allocateWeights env noCallback (r.size w.tier) useMmap) w = (.ok nullptr, w)) ∨
    (¬ a.Refuses r ∧ ¬ Generous env ∧ ∃ w', Booked w' a ∧
      onManager (allocateWeights env noCallback (r.size w.tier) useMmap) w = (.error (.threw .badAlloc), w')) ∨
    ∃ ptr w', ¬ a.Refuses r ∧ ptr ≠ nullptr ∧ Booked (w'.point r ptr) (a.taken r) ∧
      onManager (allocateWeights env noCallback (r.size w.tier) useMmap) w = (.ok ptr, w') := by
  rw [books.tier_eq]
  have check := books.tallies.refuses_iff books.sound r
  by_cases refused : m.Refuses (r.size a.spec.tier)
  · left
    have requested : allocateWeights env noCallback (r.size a.spec.tier) useMmap ⟨m, w.trace⟩ = (.ok nullptr, _) :=
      allocateWeights_refused refused
    refine ⟨check.mp refused, ?_⟩
    rw [onManager_of books.manager requested, World.store_self books.manager]
  · right
    have admitted : ¬ a.Refuses r := fun refuses => refused (check.mpr refuses)
    cases obtained : env.new w.trace (r.size a.spec.tier).toNat with
    | none =>
      left
      have stingy : ¬ Generous env := by
        intro generous
        have given := generous.1 w.trace (r.size a.spec.tier).toNat
        rw [obtained] at given
        cases given
      have requested : allocateWeights env noCallback (r.size a.spec.tier) useMmap ⟨m, w.trace⟩ =
          (.error (.threw .badAlloc), _) := allocateWeights_badAlloc refused obtained
      exact ⟨admitted, stingy, _, ⟨m, books.keep (books.sound.newFailed _) rfl fun _ member => member⟩,
        onManager_of books.manager requested⟩
    | some ptr =>
      cases grown : env.grow (Process.enroll ⟨m, w.trace⟩ ptr (r.size a.spec.tier)).trace with
      | false =>
        left
        have stingy : ¬ Generous env := by
          intro generous
          rw [generous.2] at grown
          cases grown
        have requested : allocateWeights env noCallback (r.size a.spec.tier) useMmap ⟨m, w.trace⟩ =
            (.error (.threw .badAlloc), _) := allocateWeights_growthFailed refused obtained grown
        exact ⟨admitted, stingy, _, ⟨m, books.keep (books.sound.abandon obtained) rfl
          fun _ member => List.mem_append_left _ member⟩, onManager_of books.manager requested⟩
      | true =>
        right
        have requested : allocateWeights env noCallback (r.size a.spec.tier) useMmap ⟨m, w.trace⟩ =
            (.ok ptr, _) := allocate_admitted books.tallies.unregistered refused obtained grown
        have here : ((a.taken r).pointer r).Names (Process.enroll ⟨m, w.trace⟩ ptr (r.size a.spec.tier))
            (r.size a.spec.tier) ptr := by
          simp [Account.taken, Hold.Names]
        have changed := books.change r (books.sound.enroll obtained) (books.tallies.enroll r ptr) rfl rfl
          (fun r' other => ⟨Function.update_of_ne other _ _, (books.names r').enroll obtained⟩) here
        exact ⟨ptr, _, admitted, env.new_ne_null _ _ _ obtained, ⟨_, changed⟩,
          onManager_of books.manager requested⟩

theorem nonnull (books : Books a m w) {r : Resource} (named : a.pointer r ≠ .empty) : w.pointer r ≠ nullptr := by
  have names := books.names r
  cases hold : a.pointer r with
  | empty => exact absurd hold named
  | held =>
    rw [hold] at names
    exact books.sound.disciplined.addr_ne_null _ (books.sound.of_ledger_entry names)
  | orphaned =>
    rw [hold] at names
    obtain ⟨_, b, member, here⟩ := names
    rw [← here]
    exact books.sound.disciplined.addr_ne_null b member

theorem find_held (books : Books a m w) {r : Resource} (held : a.pointer r = .held) :
    m.allocations.find? (fun q => q.1 = w.pointer r) = some (w.pointer r, r.size a.spec.tier) := by
  have names := books.names r
  rw [held] at names
  cases found : m.allocations.find? (fun q => q.1 = w.pointer r) with
  | none =>
    have missed := List.find?_eq_none.mp found _ names
    simp at missed
  | some entry =>
    have here : entry.1 = w.pointer r := by simpa using List.find?_some found
    have only := List.inj_on_of_nodup_map books.sound.distinct (List.mem_of_find?_eq_some found) names here
    rw [only]

theorem give_back (books : Books a m w) {r : Resource} (held : a.pointer r = .held) :
    ∃ w', onManager (deallocate env noCallback (w.pointer r)) w = (.ok (), w') ∧
      Booked (w'.point r nullptr) (a.returned r) := by
  have known := books.find_held held
  have released : deallocate env noCallback (w.pointer r) ⟨m, w.trace⟩ = (.ok (), _) :=
    deallocate_held books.tallies.unregistered known
  have apart : ∀ r', r' ≠ r → a.pointer r' = .held → w.pointer r' ≠ w.pointer r := by
    intro r' other held' same
    have entry := books.find_held held'
    rw [same, known] at entry
    have sizes := congrArg Prod.snd (Option.some.inj entry)
    exact other (Resource.size_injective _ sizes).symm
  have here : ((a.returned r).pointer r).Names (Process.release ⟨m, w.trace⟩ (w.pointer r) (r.size a.spec.tier))
      (r.size a.spec.tier) nullptr := by
    simp [Account.returned, Hold.Names]
  have changed := books.change r (books.sound.release known) (books.tallies.release r known) rfl rfl
    (fun r' other => ⟨Function.update_of_ne other _ _,
      (books.names r').release books.sound known (apart r' other)⟩) here
  exact ⟨_, onManager_of books.manager released, _, changed⟩

end Books

def release (env : Environment) : Resource → Exec World Unit
  | .ram => releaseRam env
  | .kv => releaseKv env

theorem release_null {r : Resource} (null : w.pointer r = nullptr) : release env r w = (.ok (), w) := by
  cases r with
  | ram =>
    have none : ¬ w.runtime.allocatedRamPtr ≠ nullptr := fun nonnull => nonnull null
    rw [release, releaseRam, Exec.get_bind_apply, if_neg none]
    rfl
  | kv =>
    have none : ¬ w.runtime.allocatedKvPtr ≠ nullptr := fun nonnull => nonnull null
    rw [release, releaseKv, Exec.get_bind_apply, if_neg none]
    rfl

theorem release_nonnull {r : Resource} {w' : World} (nonnull : w.pointer r ≠ nullptr)
    (deallocated : onManager (deallocate env noCallback (w.pointer r)) w = (.ok (), w')) :
    release env r w = (.ok (), w'.point r nullptr) := by
  cases r with
  | ram =>
    have held : w.runtime.allocatedRamPtr ≠ nullptr := nonnull
    rw [release, releaseRam, Exec.get_bind_apply, if_pos held]
    exact Exec.bind_of_ok deallocated
  | kv =>
    have held : w.runtime.allocatedKvPtr ≠ nullptr := nonnull
    rw [release, releaseKv, Exec.get_bind_apply, if_pos held]
    exact Exec.bind_of_ok deallocated

theorem release_refines (r : Resource) :
    Refines Booked (release env r) (.modify fun a => a.released r) := by
  intro w a booked
  obtain ⟨m, books⟩ := booked
  have names := books.names r
  cases hold : a.pointer r with
  | empty =>
    rw [hold] at names
    have unchanged : a.released r = a := by
      rw [Account.released, hold, if_neg nofun, Account.dropped, ← hold, Function.update_eq_self]
    rw [release_null names]
    exact ⟨a, ⟨rfl, unchanged.symm⟩, m, books⟩
  | held =>
    obtain ⟨w', deallocated, booked'⟩ := @Books.give_back env a m w books r hold
    rw [release_nonnull (books.nonnull (by rw [hold]; nofun)) deallocated]
    exact ⟨a.returned r, ⟨rfl, (if_pos hold).symm⟩, booked'⟩
  | orphaned =>
    rw [hold] at names
    have unknown : deallocate env noCallback (w.pointer r) ⟨m, w.trace⟩ = (.ok (), ⟨m, w.trace⟩) :=
      deallocate_not_in_ledger env noCallback names.1
    have deallocated := onManager_of books.manager unknown
    rw [World.store_self books.manager] at deallocated
    rw [release_nonnull (books.nonnull (by rw [hold]; nofun)) deallocated]
    have dropped : a.released r = a.dropped r := by
      rw [Account.released, hold, if_neg nofun]
    exact ⟨a.dropped r, ⟨rfl, dropped.symm⟩, m, books.drop r⟩

theorem unload_refines : Refines Booked (unloadBackendResources env) (.modify Account.unloaded) := by
  intro w a booked
  obtain ⟨a₁, ⟨ramDone, rfl⟩, booked₁⟩ := @release_refines env .ram w a booked
  obtain ⟨a₂, ⟨kvDone, rfl⟩, m, books⟩ := @release_refines env .kv _ _ booked₁
  have ramStep : releaseRam env w = (.ok (), (release env .ram w).2) := Prod.ext ramDone rfl
  have kvStep : releaseKv env (release env .ram w).2 = (.ok (), (release env .kv (release env .ram w).2).2) :=
    Prod.ext kvDone rfl
  rw [unloadBackendResources, Exec.bind_of_ok ramStep, Exec.bind_of_ok kvStep]
  exact ⟨_, ⟨rfl, rfl⟩, m, books.manager, books.sound, ⟨books.tallies.budget, books.tallies.unregistered,
    books.tallies.count, books.tallies.total⟩, books.spec, books.names, rfl⟩

end Operations

end LLM.Core

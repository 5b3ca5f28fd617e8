import Mathlib.Data.UInt
import OnDeviceLLM.Core.Leaks
import OnDeviceLLM.Cxx.Typestate

namespace LLM.Core

open Cxx Hardware Hal Memory

/-- A manager that counts `blocks` and nothing else. -/
def carrier (this : Nat) (maxMemory : UInt64) (blocks : List (Addr × UInt64)) : HeapMemoryManager :=
  { HeapMemoryManager.create this maxMemory with
    allocated := (blocks.map Prod.snd).sum
    allocations := blocks }

/-- The manager in place counts `blocks`, and nothing else is live. -/
structure Carrying (this : Nat) (spec : HardwareSpec) (blocks : List (Addr × UInt64)) (w : World) : Prop where
  manager : w.runtime.memoryManager = some (carrier this spec.availableRamBytes blocks)
  live : Heap.live w.trace = blocks.map fun entry => ⟨this, entry.1, entry.2.toNat⟩
  disciplined : Heap.Disciplined w.trace
  spec : w.runtime.hardwareSpec = spec
  owned : this < w.managers

namespace Carrying

variable {env : Environment} {this : Nat} {spec : HardwareSpec} {blocks : List (Addr × UInt64)} {w : World}

theorem idle (carrying : Carrying this spec [] w) (noRam : w.runtime.allocatedRamPtr = nullptr)
    (noKv : w.runtime.allocatedKvPtr = nullptr) (noBackend : w.runtime.backend = none) : Idle this spec w :=
  ⟨⟨noRam, noKv, noBackend, carrying.disciplined, carrying.live⟩, carrying.manager, carrying.spec, carrying.owned⟩

/-- The resource pointers, the backend and failed requests are no part of it. -/
theorem point (carrying : Carrying this spec blocks w) {w' : World}
    (manager : w'.runtime.memoryManager = w.runtime.memoryManager)
    (same : w'.runtime.hardwareSpec = w.runtime.hardwareSpec) (managers : w'.managers = w.managers)
    (live : Heap.live w'.trace = Heap.live w.trace)
    (disciplined : Heap.Disciplined w.trace → Heap.Disciplined w'.trace) : Carrying this spec blocks w' where
  manager := manager.trans carrying.manager
  live := live.trans carrying.live
  disciplined := disciplined carrying.disciplined
  spec := same.trans carrying.spec
  owned := managers ▸ carrying.owned

theorem nonnull (carrying : Carrying this spec blocks w) {ptr : Addr} {size : UInt64} (member : (ptr, size) ∈ blocks) :
    ptr ≠ nullptr := by
  apply carrying.disciplined.addr_ne_null ⟨this, ptr, size.toNat⟩
  rw [carrying.live]
  exact List.mem_map_of_mem (f := fun entry : Addr × UInt64 => (⟨this, entry.1, entry.2.toNat⟩ : Block)) member

theorem distinct {ptr ptr' : Addr} {size size' : UInt64}
    (carrying : Carrying this spec ((ptr, size) :: blocks) w) (member : (ptr', size') ∈ blocks) : ptr' ≠ ptr := by
  have nodup := carrying.disciplined.addr_nodup
  rw [carrying.live, List.map_map] at nodup
  intro same
  exact (List.nodup_cons.mp nodup).1 (List.mem_map.mpr ⟨_, member, same⟩)

/-- The oldest block is given back. -/
theorem give_back {ptr : Addr} {size : UInt64} (carrying : Carrying this spec ((ptr, size) :: blocks) w) :
    deallocate env noCallback ptr ⟨carrier this spec.availableRamBytes ((ptr, size) :: blocks), w.trace⟩ =
      (.ok (), ⟨carrier this spec.availableRamBytes blocks, .delete this ptr :: w.trace⟩) ∧
    Carrying this spec blocks
      (w.store ⟨carrier this spec.availableRamBytes blocks, .delete this ptr :: w.trace⟩) := by
  have known : (carrier this spec.availableRamBytes ((ptr, size) :: blocks)).allocations.find?
      (fun q => q.1 = ptr) = some (ptr, size) := by
    simp [carrier]
  have rest : Process.release ⟨carrier this spec.availableRamBytes ((ptr, size) :: blocks), w.trace⟩ ptr size =
      ⟨carrier this spec.availableRamBytes blocks, .delete this ptr :: w.trace⟩ := by
    simp [Process.release, carrier, HeapMemoryManager.create, UInt64.add_comm size]
  have result : deallocate env noCallback ptr
      ⟨carrier this spec.availableRamBytes ((ptr, size) :: blocks), w.trace⟩ = (.ok (), _) :=
    deallocate_held rfl known
  rw [rest] at result
  have live := carrying.live
  refine ⟨result, rfl, ?_, ⟨⟨⟨this, ptr, size.toNat⟩, ?_, rfl, rfl⟩, carrying.disciplined⟩, carrying.spec,
    carrying.owned⟩
  · show Heap.live (.delete this ptr :: w.trace) = _
    rw [Heap.live_delete, live]
    simp
  · rw [live]
    exact List.mem_cons_self

end Carrying

/-- Initialised, and holding nothing. -/
def AtRest (w : World) : Prop := ∃ this spec, Idle this spec w

/-- The weights are held, and the KV block too unless the heap did not give it. -/
structure Held (this : Nat) (spec : HardwareSpec) (ram : Addr) (kv : Option Addr) (w : World) : Prop where
  carrying : Carrying this spec ((ram, weightSize spec.tier) :: kv.toList.map fun ptr => (ptr, kvSize spec.tier)) w
  ram : w.runtime.allocatedRamPtr = ram
  kv : w.runtime.allocatedKvPtr = kv.getD nullptr

/-- Between two steps that do no harm, the runtime is at rest or has a pointer to every block. -/
inductive Sane (w : World) : Prop where
  | rest (rest : AtRest w)
  | held {this : Nat} {spec : HardwareSpec} {ram : Addr} {kv : Option Addr} (held : Held this spec ram kv w)

section Stages

variable {env : Environment} {this : Nat} {spec : HardwareSpec} {ram : Addr} {kv : Option Addr} {w : World}

theorem AtRest.sane (rest : AtRest w) : Sane w := .rest rest

theorem Sane.manager (sane : Sane w) : ∃ m, w.runtime.memoryManager = some m := by
  cases sane with
  | rest rest =>
    obtain ⟨this, spec, idle⟩ := rest
    exact ⟨_, idle.manager⟩
  | held held => exact ⟨_, held.carrying.manager⟩

theorem Held.ram_nonnull (held : Held this spec ram kv w) : ram ≠ nullptr :=
  held.carrying.nonnull List.mem_cons_self

theorem Held.kv_ne_ram (held : Held this spec ram kv w) : w.runtime.allocatedKvPtr ≠ ram := by
  rw [held.kv]
  cases kv with
  | none => exact held.ram_nonnull.symm
  | some ptr => exact held.carrying.distinct List.mem_cons_self

/-- What the heap hands out is none of the two pointers. -/
theorem Held.fresh (held : Held this spec ram kv w) {size : Nat} {ptr : Addr}
    (obtained : env.new w.trace size = some ptr) :
    w.runtime.allocatedRamPtr ≠ ptr ∧ w.runtime.allocatedKvPtr ≠ ptr := by
  have live := held.carrying.live
  have fresh : ∀ entry ∈ (ram, weightSize spec.tier) :: kv.toList.map fun ptr => (ptr, kvSize spec.tier),
      entry.1 ≠ ptr := by
    intro entry member
    apply env.new_fresh _ _ _ obtained ⟨this, entry.1, entry.2.toNat⟩
    rw [live]
    exact List.mem_map_of_mem (f := fun entry : Addr × UInt64 => (⟨this, entry.1, entry.2.toNat⟩ : Block)) member
  rw [held.ram, held.kv]
  refine ⟨fresh _ List.mem_cons_self, ?_⟩
  cases kv with
  | none => exact (env.new_ne_null _ _ _ obtained).symm
  | some kv => exact fresh _ (List.mem_cons_of_mem _ List.mem_cons_self)

def Held.block (this : Nat) (spec : HardwareSpec) (ram : Addr) : Block := ⟨this, ram, (weightSize spec.tier).toNat⟩

theorem Held.live (held : Held this spec ram kv w) : Held.block this spec ram ∈ Heap.live w.trace := by
  rw [held.carrying.live]
  exact List.mem_cons_self

theorem releaseKv_null {w : World} (null : w.runtime.allocatedKvPtr = nullptr) : releaseKv env w = (.ok (), w) := by
  rw [releaseKv, Exec.get_bind_apply, if_neg (not_not_intro null)]
  rfl

theorem Held.release_ram (held : Held this spec ram kv w) :
    ∃ w', releaseRam env w = (.ok (), w') ∧
      Carrying this spec (kv.toList.map fun ptr => (ptr, kvSize spec.tier)) w' ∧
      w'.runtime.allocatedRamPtr = nullptr ∧ w'.runtime.allocatedKvPtr = kv.getD nullptr := by
  obtain rfl := held.ram
  obtain ⟨freed, carrying⟩ := @Carrying.give_back env _ _ _ _ _ _ held.carrying
  exact ⟨_, releaseRam_apply held.carrying.manager held.ram_nonnull freed, carrying.point rfl rfl rfl rfl id, rfl,
    held.kv⟩

theorem Carrying.release_kv {ptr : Addr} (carrying : Carrying this spec [(ptr, kvSize spec.tier)] w)
    (here : w.runtime.allocatedKvPtr = ptr) :
    ∃ w', releaseKv env w = (.ok (), w') ∧ Carrying this spec [] w' ∧
      w'.runtime.allocatedRamPtr = w.runtime.allocatedRamPtr ∧ w'.runtime.allocatedKvPtr = nullptr := by
  subst here
  obtain ⟨freed, rest⟩ := @Carrying.give_back env _ _ _ _ _ _ carrying
  have nonnull := carrying.nonnull List.mem_cons_self
  exact ⟨_, releaseKv_apply carrying.manager nonnull freed, rest.point rfl rfl rfl rfl id, rfl, rfl⟩

theorem Held.unload (held : Held this spec ram kv w) :
    ∃ w', unloadBackendResources env w = (.ok (), w') ∧ Idle this spec w' := by
  obtain ⟨w₁, first, carrying, noRam, kvHere⟩ := @Held.release_ram env _ _ _ _ _ held
  rw [unloadBackendResources, Exec.bind_of_ok first]
  cases kv with
  | none =>
    rw [Exec.bind_of_ok (releaseKv_null kvHere)]
    exact ⟨_, rfl, Carrying.idle (carrying.point rfl rfl rfl rfl id) noRam kvHere rfl⟩
  | some ptr =>
    obtain ⟨w₂, second, empty, sameRam, noKv⟩ := @Carrying.release_kv env _ _ _ _ carrying kvHere
    rw [Exec.bind_of_ok second]
    exact ⟨_, rfl, Carrying.idle (empty.point rfl rfl rfl rfl id) (sameRam.trans noRam) noKv rfl⟩

theorem Sane.unload (sane : Sane w) : ∃ w', unloadBackendResources env w = (.ok (), w') ∧ AtRest w' := by
  cases sane with
  | rest rest =>
    obtain ⟨this, spec, idle⟩ := rest
    exact ⟨w, idle.ready.unload, this, spec, idle⟩
  | held held =>
    obtain ⟨w', result, idle⟩ := @Held.unload env _ _ _ _ _ held
    exact ⟨w', result, _, _, idle⟩

end Stages

def protocol : Protocol World where
  sane := Sane
  broken w := ∃ b, Lost b w

/-- Nothing is lost by a load that finds no weights held, or for which the heap has no block, and
    for whose blocks the ledger grows. -/
def World.LoadsCarefully (env : Environment) (w : World) : Prop :=
  ∀ m ∈ w.runtime.memoryManager,
    (w.runtime.allocatedRamPtr ≠ nullptr →
      ¬ m.Refuses (weightSize w.tier) ∧ env.new w.trace (weightSize w.tier).toNat = none) ∧
    Process.Grows env ⟨m, w.trace⟩ (weightSize w.tier) ∧
    (¬ m.Refuses (weightSize w.tier) → ∀ ram ∈ env.new w.trace (weightSize w.tier).toNat,
      (w.weighted m ram).Grows env (kvSize w.tier))

instance (env : Environment) (w : World) : Decidable (w.LoadsCarefully env) :=
  inferInstanceAs (Decidable (∀ m ∈ w.runtime.memoryManager,
    (_ → _ ∧ _) ∧ _ ∧ (_ → ∀ ram ∈ env.new w.trace (weightSize w.tier).toNat, _)))

/-- Both blocks are held, and the backend is there. -/
def Loaded (w : World) : Prop :=
  ∃ this spec ram kv, Held this spec ram (some kv) w ∧ w.runtime.backend = some { useOnnx := false }

def AfterLoad : Bool → World → Prop
  | true => Loaded
  | false => AtRest

section Load

variable {env : Environment} {this : Nat} {spec : HardwareSpec} {w : World}

theorem loadsCarefully_iff {m : HeapMemoryManager} (present : w.runtime.memoryManager = some m) :
    w.LoadsCarefully env ↔
      (w.runtime.allocatedRamPtr ≠ nullptr →
        ¬ m.Refuses (weightSize w.tier) ∧ env.new w.trace (weightSize w.tier).toNat = none) ∧
      Process.Grows env ⟨m, w.trace⟩ (weightSize w.tier) ∧
      (¬ m.Refuses (weightSize w.tier) → ∀ ram ∈ env.new w.trace (weightSize w.tier).toNat,
        (w.weighted m ram).Grows env (kvSize w.tier)) := by
  simp [World.LoadsCarefully, present]

theorem WeightsObtained.carefully_iff {m : HeapMemoryManager} {ram : Addr} (weights : WeightsObtained env m w ram)
    (present : w.runtime.memoryManager = some m) (noRam : w.runtime.allocatedRamPtr = nullptr) :
    w.LoadsCarefully env ↔ (w.weighted m ram).Grows env (kvSize w.tier) := by
  rw [loadsCarefully_iff present]
  constructor
  · exact fun careful => careful.2.2 weights.admitted ram weights.obtained
  · refine fun grows => ⟨absurd noRam, fun _ ptr obtained => ?_, fun _ ptr obtained => ?_⟩
    · rw [weights.unique obtained]
      exact weights.grown
    · rw [weights.unique obtained]
      exact grows

theorem Idle.store (idle : Idle this spec w) {p : Process}
    (manager : p.manager = HeapMemoryManager.create this spec.availableRamBytes)
    (disciplined : Heap.Disciplined p.trace) (empty : Heap.live p.trace = []) : Idle this spec (w.store p) :=
  ⟨⟨idle.vacant.ram, idle.vacant.kv, idle.vacant.backend, disciplined, empty⟩, congrArg some manager, idle.spec,
    idle.owned⟩

theorem Idle.weighted (idle : Idle this spec w) {ram : Addr}
    (weights : WeightsObtained env (HeapMemoryManager.create this spec.availableRamBytes) w ram) :
    Carrying this spec [(ram, weightSize spec.tier)]
      (w.store (w.weighted (HeapMemoryManager.create this spec.availableRamBytes) ram)) where
  manager := by simp [World.store, World.weighted, Process.enroll, carrier, HeapMemoryManager.create, idle.tier_eq]
  live := by simp [World.store, World.weighted, HeapMemoryManager.create, idle.vacant.empty, idle.tier_eq]
  disciplined :=
    ⟨env.new_ne_null _ _ _ weights.obtained, env.new_fresh _ _ _ weights.obtained, idle.vacant.disciplined⟩
  spec := idle.spec
  owned := idle.owned

theorem Idle.loaded (idle : Idle this spec w) {ram kv : Addr}
    (weights : WeightsObtained env (HeapMemoryManager.create this spec.availableRamBytes) w ram)
    (obtained : env.new (w.weighted (HeapMemoryManager.create this spec.availableRamBytes) ram).trace
      (kvSize w.tier).toNat = some kv) :
    Loaded (w.loaded (HeapMemoryManager.create this spec.availableRamBytes) ram kv) := by
  refine ⟨this, spec, ram, kv, ⟨⟨?_, ?_, ?_, idle.spec, idle.owned⟩, rfl, rfl⟩, rfl⟩
  · simp [World.loaded, World.weighted, Process.enroll, carrier, HeapMemoryManager.create, idle.tier_eq]
  · rw [Holding.live_eq _ ram kv idle.vacant.empty, idle.tier_eq]
    rfl
  · exact ⟨env.new_ne_null _ _ _ obtained, env.new_fresh _ _ _ obtained, (idle.weighted weights).disciplined⟩

theorem Idle.load_verdict (idle : Idle this spec w) :
    protocol.Verdict (loadBackendResources env) (w.LoadsCarefully env) AfterLoad w := by
  have vacant := idle.vacant
  have careful := @loadsCarefully_iff env w _ idle.manager
  have outcome : LoadOutcome env _ w (loadBackendResources env w) := idle.ready.load_outcome
  generalize result : loadBackendResources env w = ended at outcome
  cases outcome with
  | weightsRefused refused =>
    have cares := careful.mpr ⟨absurd vacant.ram, fun admitted => absurd refused admitted,
      fun admitted => absurd refused admitted⟩
    exact .returns result cares ⟨this, spec, idle⟩
  | weightsBadAlloc admitted failed =>
    have cares := careful.mpr ⟨absurd vacant.ram, fun _ => by simp [failed], fun _ => by simp [failed]⟩
    exact .throws result cares (.rest ⟨this, spec, idle.store rfl vacant.disciplined vacant.empty⟩)
  | weightsAbandoned ram admitted obtained stuck =>
    refine .damages (fun cares => ?_) ((Exec.wp_of_error result).mpr (.inr ?_))
    · have grown := (careful.mp cares).2.1 admitted ram obtained
      exact absurd (grown.symm.trans stuck) nofun
    · have nonnull := env.new_ne_null _ _ _ obtained
      refine ⟨⟨this, ram, (weightSize w.tier).toNat⟩, ?_, nonnull, idle.owned, fun _ _ _ => ?_⟩
      · exact List.mem_append_right _ List.mem_cons_self
      · exact ⟨fun same => nonnull (same.symm.trans vacant.ram), fun same => nonnull (same.symm.trans vacant.kv)⟩
  | kvRefused ram weights refused =>
    have cares := (weights.carefully_iff idle.manager vacant.ram).mpr fun admitted => absurd refused admitted
    exact .returns result cares ⟨this, spec, idle.given_back env weights⟩
  | kvBadAlloc ram weights admitted failed =>
    have cares := (weights.carefully_iff idle.manager vacant.ram).mpr fun _ => by simp [failed]
    exact .throws result cares
      (@Sane.held _ this spec ram none ⟨(idle.weighted weights).point rfl rfl rfl rfl id, rfl, vacant.kv⟩)
  | kvAbandoned ram kv weights admitted obtained stuck =>
    refine .damages (fun cares => ?_) ((Exec.wp_of_error result).mpr (.inr ?_))
    · have grown := (weights.carefully_iff idle.manager vacant.ram).mp cares admitted kv obtained
      exact absurd (grown.symm.trans stuck) nofun
    · have nonnull := env.new_ne_null _ _ _ obtained
      have other := env.new_fresh _ _ _ obtained ⟨this, ram, (weightSize w.tier).toNat⟩
        (List.mem_append_right _ List.mem_cons_self)
      refine ⟨⟨this, kv, (kvSize w.tier).toNat⟩, ?_, nonnull, idle.owned, fun _ _ _ => ?_⟩
      · exact List.mem_append_right _ List.mem_cons_self
      · exact ⟨other, fun same => nonnull (same.symm.trans vacant.kv)⟩
  | loaded ram kv weights admitted obtained grown =>
    have cares := (weights.carefully_iff idle.manager vacant.ram).mpr fun _ ptr obtained' => by
      rw [← Option.some.inj (obtained.symm.trans obtained')]
      exact grown
    exact .returns result cares (idle.loaded weights obtained)

section Over

variable {ram : Addr} {kv : Option Addr}

/-- Once the request is granted or refused, the pointer to the weights is overwritten. -/
theorem Held.overwritten (held : Held this spec ram kv w) {ptr : Addr} {p : Process}
    (requested : onManager (allocateWeights env noCallback (weightSize w.tier) true) w = (.ok ptr, w.store p))
    (live : Held.block this spec ram ∈ Heap.live p.trace) (other : ptr ≠ ram) :
    Exec.wp (loadBackendResources env) (fun _ => protocol.broken) (fun _ => protocol.broken) w := by
  have lost : Lost (Held.block this spec ram) ((w.store p).withRam ptr) :=
    ⟨live, held.ram_nonnull, held.carrying.owned, fun _ _ _ => ⟨other, held.kv_ne_ram⟩⟩
  rw [Exec.wp_congr (load_eq env w), Exec.wp_bind, Exec.wp_of_ok requested, setRuntime, Exec.wp_bind, Exec.wp_modify]
  by_cases refused : ptr = nullptr
  · rw [if_pos refused]
    exact ⟨_, lost⟩
  · rw [if_neg refused]
    exact Exec.wp_mono (loadKv_keeps_lost lost other _) (fun _ _ lost' => ⟨_, lost'⟩) (fun _ _ lost' => ⟨_, lost'⟩)

/-- Over held resources a load does harm, unless the heap has no block for the weights. -/
theorem Held.load_verdict (held : Held this spec ram kv w) :
    protocol.Verdict (loadBackendResources env) (w.LoadsCarefully env) AfterLoad w := by
  have present := held.carrying.manager
  have careful := @loadsCarefully_iff env w _ present
  have nonnull : w.runtime.allocatedRamPtr ≠ nullptr := by
    rw [held.ram]
    exact held.ram_nonnull
  generalize manager : carrier this spec.availableRamBytes _ = m at present careful
  have mine : m.this = this := by rw [← manager]; rfl
  have quiet : m.pressureCallback = false := by rw [← manager]; rfl
  by_cases refused : m.Refuses (weightSize w.tier)
  · have requested : allocateWeights env noCallback (weightSize w.tier) true ⟨m, w.trace⟩ =
        (.ok nullptr, ⟨m, w.trace⟩) := allocateWeights_refused refused
    have harm := held.overwritten (onManager_of present requested) held.live held.ram_nonnull.symm
    refine .damages (fun cares => ((careful.mp cares).1 nonnull).1 refused) ?_
    exact Exec.wp_mono harm (fun _ _ h => h) (fun _ _ h => .inr h)
  · cases obtained : env.new w.trace (weightSize w.tier).toNat with
    | none =>
      have requested : allocateWeights env noCallback (weightSize w.tier) true ⟨m, w.trace⟩ =
          (.error (.threw .badAlloc), _) := allocateWeights_badAlloc refused obtained
      have stopped : loadBackendResources env w = (.error (.threw .badAlloc), _) :=
        (load_eq env w).trans (Exec.bind_of_error (onManager_of present requested))
      have cares := careful.mpr ⟨fun _ => ⟨refused, obtained⟩, fun _ => by simp [obtained], fun _ => by simp [obtained]⟩
      exact .throws stopped cares
        (@Sane.held _ this spec ram kv ⟨held.carrying.point present.symm rfl rfl rfl id, held.ram, held.kv⟩)
    | some ptr =>
      have careless : ¬ w.LoadsCarefully env := fun cares => by
        have none := ((careful.mp cares).1 nonnull).2
        rw [obtained] at none
        cases none
      cases grown : env.grow (.new m.this ptr (weightSize w.tier).toNat :: w.trace) with
      | false =>
        have requested : allocateWeights env noCallback (weightSize w.tier) true ⟨m, w.trace⟩ =
            (.error (.threw .badAlloc), _) := allocateWeights_growthFailed refused obtained grown
        have stopped : loadBackendResources env w = (.error (.threw .badAlloc), _) :=
          (load_eq env w).trans (Exec.bind_of_error (onManager_of present requested))
        have lost : Lost ⟨this, ptr, (weightSize w.tier).toNat⟩
            (w.store (Process.abandon ⟨m, w.trace⟩ ptr (weightSize w.tier))) := by
          refine ⟨?_, env.new_ne_null _ _ _ obtained, held.carrying.owned, fun _ _ _ => held.fresh obtained⟩
          rw [← mine]
          exact List.mem_append_right _ List.mem_cons_self
        exact .damages careless ((Exec.wp_of_error stopped).mpr (.inr ⟨_, lost⟩))
      | true =>
        have requested : allocateWeights env noCallback (weightSize w.tier) true ⟨m, w.trace⟩ =
            (.ok ptr, Process.enroll ⟨m, w.trace⟩ ptr (weightSize w.tier)) :=
          allocate_admitted quiet refused obtained grown
        have other := env.new_fresh _ _ _ obtained _ held.live
        have harm := held.overwritten (onManager_of present requested) (List.mem_append_left _ held.live) other.symm
        exact .damages careless (Exec.wp_mono harm (fun _ _ h => h) (fun _ _ h => .inr h))

end Over

theorem load_follows : protocol.Follows Sane (loadBackendResources env) (World.LoadsCarefully env) AfterLoad := by
  intro w sane
  cases sane with
  | rest rest =>
    obtain ⟨this, spec, idle⟩ := rest
    exact idle.load_verdict
  | held held => exact held.load_verdict

theorem unload_follows : protocol.Follows Sane (unloadBackendResources env) (fun _ => True) fun _ => AtRest := by
  apply Protocol.Follows.of_ok
  intro w sane
  obtain ⟨w', result, rest⟩ := @Sane.unload env w sane
  exact ⟨(), w', result, rest⟩

end Load

end LLM.Core

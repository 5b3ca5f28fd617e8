import OnDeviceLLM.Memory.Ledger

namespace LLM.Memory

open Cxx

/-- The three allocation functions, by the statistics field that each belongs to. -/
inductive Kind where
  | weights
  | kvCache
  | temp
  deriving DecidableEq, Repr

def Request.kind : Request → Kind
  | .weights _ _ => .weights
  | .temp _ => .temp
  | .kvCache _ _ => .kvCache

def MemoryStats.bytes (stats : MemoryStats) : Kind → Option UInt64
  | .weights => stats.weightsBytes
  | .kvCache => stats.kvCacheBytes
  | .temp => stats.tempBufferBytes

/-- The function that each address was last obtained through. The manager keeps no such
    record; this one goes along the run. -/
abbrev Origins := Addr → Kind

mutual
def Op.origins (env : Environment) : Op → Process → Origins → Origins
  | .allocate request reaction, s, origins =>
    if s.manager.Refuses request.size then origins
    else match env.new s.trace request.size.toNat with
      | none => origins
      | some ptr =>
        if env.grow (.new s.manager.this ptr request.size.toNat :: s.trace) then
          let recorded := Function.update origins ptr request.kind
          if s.manager.pressureCallback then
            reaction.origins env ((s.enroll ptr request.size).announce env) recorded
          else recorded
        else origins
  | .deallocate ptr reaction, s, origins =>
    match s.manager.allocations.find? (fun p => p.1 = ptr) with
    | none => origins
    | some it =>
      if s.manager.pressureCallback then
        reaction.origins env ((s.release ptr it.2).announce env) origins
      else origins

def Reaction.origins (env : Environment) : Reaction → Process → Origins → Origins
  | .returns, _, origins => origins
  | .throws, _, origins => origins
  | .call guarded op rest, s, origins =>
    match (if guarded then Exec.attempt (op.exec env) else op.exec env) s with
    | (.ok _, s') => rest.origins env s' (op.origins env s origins)
    | (.error _, _) => op.origins env s origins
end

def runOrigins (env : Environment) : List Op → Process → Origins → Origins
  | [], _, origins => origins
  | op :: ops, s, origins => runOrigins env ops (op.exec env s).2 (op.origins env s origins)

/-- Total size of the ledger's blocks that were obtained through one of the functions. -/
def HeapMemoryManager.kindBytes (m : HeapMemoryManager) (origins : Origins) (kind : Kind) : Nat :=
  ((m.allocations.filter fun p => origins p.1 = kind).map fun p => p.2.toNat).sum

/-- Each of the three fields has a value, the size of its own blocks, and together they make
    up what is allocated. -/
structure Partitioned (env : Environment) (m : HeapMemoryManager) (origins : Origins) : Prop where
  fields : ∀ kind, ∃ bytes, (getStats env m).bytes kind = some bytes ∧
    bytes.toNat = m.kindBytes origins kind
  total : m.kindBytes origins .weights + m.kindBytes origins .kvCache + m.kindBytes origins .temp =
    (getStats env m).allocatedBytes.toNat

theorem kindBytes_sum (m : HeapMemoryManager) (origins : Origins) :
    m.kindBytes origins .weights + m.kindBytes origins .kvCache + m.kindBytes origins .temp =
      m.ledgerBytes := by
  unfold HeapMemoryManager.kindBytes HeapMemoryManager.ledgerBytes
  induction m.allocations with
  | nil => rfl
  | cons entry rest ih =>
    cases origin : origins entry.1 <;> simp [origin] <;> omega

theorem getStats_bytes (env : Environment) (m : HeapMemoryManager) (kind : Kind) :
    (getStats env m).bytes kind = none := by
  cases kind <;> rfl

example : [Kind.weights, .kvCache, .temp].map
    ((run (.bump fun _ _ => true) reuseOps (Process.start 0 1000 true)).manager.kindBytes
      (runOrigins (.bump fun _ _ => true) reuseOps (Process.start 0 1000 true) fun _ => .weights)) =
    [0, 50, 0] := by
  decide +kernel

/-- After every run in which the sum of the sizes stays below `2^64` the live blocks of the
    three kinds make up `allocated_bytes`, and after no run do the three fields say so. -/
theorem kinds_reported_never (env : Environment) (this : Nat) (maxMemoryBytes : UInt64) (callable : Bool)
    (ops : List Op) (origins : Origins) :
    let s := run env ops (Process.start this maxMemoryBytes callable)
    let final := runOrigins env ops (Process.start this maxMemoryBytes callable) origins
    (s.manager.ledgerBytes < 2^64 →
      s.manager.kindBytes final .weights + s.manager.kindBytes final .kvCache +
        s.manager.kindBytes final .temp = (getStats env s.manager).allocatedBytes.toNat) ∧
    ¬ Partitioned env s.manager final := by
  intro s final
  constructor
  · intro bounded
    have sound : Sound s := run_sound env this maxMemoryBytes callable ops
    have counted : s.manager.allocated.toNat = s.manager.ledgerBytes := by
      rw [sound.counted, Nat.mod_eq_of_lt bounded]
    rw [kindBytes_sum, ← counted]
    rfl
  · intro partitioned
    obtain ⟨bytes, field, _⟩ := partitioned.fields .weights
    rw [getStats_bytes] at field
    cases field

theorem kinds_not_reported :
    let s := run (.bump fun _ _ => true) [.allocate (.weights 200 true) .returns] (Process.start 0 1000 false)
    let final := runOrigins (.bump fun _ _ => true) [.allocate (.weights 200 true) .returns]
      (Process.start 0 1000 false) (fun _ => .temp)
    s.manager.ledgerBytes < 2^64 ∧ s.manager.kindBytes final .weights = 200 ∧
      ¬ Partitioned (.bump fun _ _ => true) s.manager final := by
  intro s final
  refine ⟨by decide +kernel, by decide +kernel, fun partitioned => ?_⟩
  obtain ⟨bytes, field, _⟩ := partitioned.fields .weights
  rw [getStats_bytes] at field
  cases field

end LLM.Memory

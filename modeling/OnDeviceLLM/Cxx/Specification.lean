import OnDeviceLLM.Cxx.Exec

namespace Cxx

/-- A computation given by what it may do: which ends, in which states, from a state. -/
def Spec (τ α : Type) : Type := τ → Except Stop α → τ → Prop

namespace Spec

variable {τ α β : Type}

instance : Monad (Spec τ) where
  pure a := fun t outcome t' => outcome = .ok a ∧ t' = t
  bind X F := fun t outcome t' =>
    (∃ e, outcome = .error e ∧ X t (.error e) t') ∨ ∃ a middle, X t (.ok a) middle ∧ F a middle outcome t'

def get : Spec τ τ := fun t outcome t' => outcome = .ok t ∧ t' = t
def modify (f : τ → τ) : Spec τ Unit := fun t outcome t' => outcome = .ok () ∧ t' = f t
def stop (e : Stop) : Spec τ α := fun t outcome t' => outcome = .error e ∧ t' = t

/-- Goes on where the condition holds, and stops elsewhere. -/
def require (condition : τ → Prop) (e : Stop) : Spec τ Unit := fun t outcome t' =>
  t' = t ∧ (condition t ∧ outcome = .ok () ∨ ¬ condition t ∧ outcome = .error e)

/-- A `try` block whose handler swallows every exception. -/
def attempt (X : Spec τ Unit) : Spec τ Unit := fun t outcome t' =>
  ((∀ exception, outcome ≠ .error (.threw exception)) ∧ X t outcome t') ∨
    outcome = .ok () ∧ ∃ exception, X t (.error (.threw exception)) t'

def Ensures (X : Spec τ α) (t : τ) (post : Except Stop α → τ → Prop) : Prop :=
  ∀ outcome t', X t outcome t' → post outcome t'

theorem Ensures.pure {a : α} {t : τ} {post : Except Stop α → τ → Prop} (holds : post (.ok a) t) :
    Ensures (Pure.pure a) t post := by
  intro outcome t' allowed
  rw [allowed.1, allowed.2]
  exact holds

theorem Ensures.bind {X : Spec τ α} {F : α → Spec τ β} {t : τ} {post : Except Stop β → τ → Prop}
    {middle : Except Stop α → τ → Prop} (first : Ensures X t middle)
    (stops : ∀ e t', middle (.error e) t' → post (.error e) t')
    (next : ∀ a t', middle (.ok a) t' → Ensures (F a) t' post) : Ensures (X >>= F) t post := by
  intro outcome t' allowed
  rcases allowed with ⟨e, rfl, stopped⟩ | ⟨a, between, returned, rest⟩
  · exact stops e t' (first _ _ stopped)
  · exact next a between (first _ _ returned) _ _ rest

/-- No step that is allowed leaves the invariant. -/
def Keeps (invariant : τ → Prop) (X : Spec τ α) : Prop :=
  ∀ t outcome t', invariant t → X t outcome t' → invariant t'

namespace Keeps

variable {invariant : τ → Prop}

theorem pure (a : α) : Keeps invariant (Pure.pure a) := by
  intro t outcome t' held allowed
  rw [allowed.2]
  exact held

theorem stop (e : Stop) : Keeps invariant (Spec.stop e : Spec τ α) := by
  intro t outcome t' held allowed
  rw [allowed.2]
  exact held

theorem get : Keeps invariant (Spec.get : Spec τ τ) := by
  intro t outcome t' held allowed
  rw [allowed.2]
  exact held

theorem require (condition : τ → Prop) (e : Stop) : Keeps invariant (Spec.require condition e) := by
  intro t outcome t' held allowed
  rw [allowed.1]
  exact held

theorem modify {f : τ → τ} (step : ∀ t, invariant t → invariant (f t)) : Keeps invariant (Spec.modify f) := by
  intro t outcome t' held allowed
  rw [allowed.2]
  exact step t held

theorem bind {X : Spec τ α} {F : α → Spec τ β} (first : Keeps invariant X) (next : ∀ a, Keeps invariant (F a)) :
    Keeps invariant (X >>= F) := by
  intro t outcome t' held allowed
  rcases allowed with ⟨e, _, stopped⟩ | ⟨a, middle, returned, rest⟩
  · exact first _ _ _ held stopped
  · exact next a _ _ _ (first _ _ _ held returned) rest

theorem attempt {X : Spec τ Unit} (kept : Keeps invariant X) : Keeps invariant X.attempt := by
  intro t outcome t' held allowed
  rcases allowed with ⟨_, ended⟩ | ⟨_, exception, threw⟩
  · exact kept _ _ _ held ended
  · exact kept _ _ _ held threw

end Keeps

/-- The ends that a list of calls may come to one after the other. The caller goes on after an
    exception, and nothing comes after a null dereference. -/
inductive Trail (step : α → Spec τ β) : τ → List α → List (Except Stop β) → τ → Prop where
  | nil {t : τ} : Trail step t [] [] t
  | fault {t t' : τ} {call : α} {calls : List α} {outcome : Except Stop β} (here : step call t outcome t')
      (ended : faulted outcome = true) : Trail step t (call :: calls) [outcome] t'
  | cons {t middle t' : τ} {call : α} {calls : List α} {outcome : Except Stop β}
      {outcomes : List (Except Stop β)} (here : step call t outcome middle) (alive : faulted outcome = false)
      (rest : Trail step middle calls outcomes t') : Trail step t (call :: calls) (outcome :: outcomes) t'

theorem Trail.keeps {invariant : τ → Prop} {step : α → Spec τ β} {calls : List α}
    (each : ∀ call ∈ calls, Keeps invariant (step call)) {t t' : τ} {outcomes : List (Except Stop β)}
    (trail : Trail step t calls outcomes t') (held : invariant t) : invariant t' := by
  induction trail with
  | nil => exact held
  | fault here _ => exact each _ List.mem_cons_self _ _ _ held here
  | cons here _ _ ih =>
    exact ih (fun call member => each call (List.mem_cons_of_mem _ member))
      (each _ List.mem_cons_self _ _ _ held here)

end Spec

namespace Exec

variable {σ α β : Type}

/-- The ends that a list of calls comes to, and the state after them. A null dereference is the
    last of them. -/
def trail (step : α → Exec σ β) : List α → σ → List (Except Stop β) × σ
  | [], s => ([], s)
  | call :: calls, s =>
    let rest := trail step calls (step call s).2
    if faulted (step call s).1 then ([(step call s).1], (step call s).2)
    else ((step call s).1 :: rest.1, rest.2)

variable {step : α → Exec σ β} {call : α} {calls : List α} {s : σ}

theorem trail_fault (ended : faulted (step call s).1 = true) :
    trail step (call :: calls) s = ([(step call s).1], (step call s).2) := by
  rw [trail, if_pos ended]

theorem trail_cons (alive : faulted (step call s).1 = false) :
    trail step (call :: calls) s =
      ((step call s).1 :: (trail step calls (step call s).2).1, (trail step calls (step call s).2).2) := by
  rw [trail, if_neg (by simp [alive])]

/-- Every call has its end, unless the last of them is a null dereference. -/
theorem trail_ends (step : α → Exec σ β) (calls : List α) : ∀ s,
    (trail step calls s).1.length = calls.length ∨
      ∃ outcome ∈ (trail step calls s).1.getLast?, faulted outcome = true := by
  induction calls with
  | nil => exact fun _ => .inl rfl
  | cons call calls ih =>
    intro s
    cases ends : faulted (step call s).1 with
    | true =>
      rw [trail_fault ends]
      exact .inr ⟨_, rfl, ends⟩
    | false =>
      rw [trail_cons ends]
      refine (ih (step call s).2).imp (congrArg (· + 1)) fun last => ?_
      obtain ⟨outcome, member, fault⟩ := last
      exact ⟨outcome, List.mem_getLast?_cons member, fault⟩

/-- No null dereference has ended the process. -/
def Alive (outcomes : List (Except Stop β)) : Prop := ∀ outcome ∈ outcomes, faulted outcome = false

instance (outcomes : List (Except Stop β)) : Decidable (Alive outcomes) :=
  inferInstanceAs (Decidable (∀ outcome ∈ outcomes, faulted outcome = false))

theorem trail_append {before : List α} (more : List α) : ∀ {s : σ}, Alive (trail step before s).1 →
    (trail step (before ++ more) s).2 = (trail step more (trail step before s).2).2 := by
  induction before with
  | nil => exact fun _ => rfl
  | cons call before ih =>
    intro s alive
    cases ends : faulted (step call s).1 with
    | true =>
      rw [trail_fault ends] at alive
      have still := alive _ List.mem_cons_self
      rw [ends] at still
      cases still
    | false =>
      rw [trail_cons ends] at alive
      rw [List.cons_append, trail_cons ends, trail_cons ends]
      exact ih fun outcome member => alive outcome (List.mem_cons_of_mem _ member)

theorem trail_append_dead {before : List α} (more : List α) : ∀ {s : σ}, ¬ Alive (trail step before s).1 →
    trail step (before ++ more) s = trail step before s := by
  induction before with
  | nil => exact fun dead => absurd nofun dead
  | cons call before ih =>
    intro s dead
    cases ends : faulted (step call s).1 with
    | true => rw [List.cons_append, trail_fault ends, trail_fault ends]
    | false =>
      rw [trail_cons ends] at dead
      have dead' : ¬ Alive (trail step before (step call s).2).1 :=
        fun alive => dead (List.forall_mem_cons.mpr ⟨ends, alive⟩)
      rw [List.cons_append, trail_cons ends, trail_cons ends, ih dead']

theorem Preserves.trail {invariant : σ → Prop} (each : ∀ call, Preserves invariant (step call))
    (calls : List α) : ∀ s, invariant s → invariant (trail step calls s).2 := by
  induction calls with
  | nil => exact fun _ held => held
  | cons call calls ih =>
    intro s held
    have here := each call s held
    cases ends : faulted (step call s).1 with
    | true =>
      rw [trail_fault ends]
      exact here
    | false =>
      rw [trail_cons ends]
      exact ih _ here

end Exec

/-- From related states the computation ends in a way that is allowed, and in related states. -/
def Refines {σ τ α : Type} (related : σ → τ → Prop) (x : Exec σ α) (X : Spec τ α) : Prop :=
  ∀ s t, related s t → ∃ t', X t (x s).1 t' ∧ related (x s).2 t'

namespace Refines

variable {σ τ α β : Type} {related : σ → τ → Prop}

theorem pure (a : α) : Refines related (Pure.pure a) (Pure.pure a) :=
  fun _ t same => ⟨t, ⟨rfl, rfl⟩, same⟩

theorem stop (e : Stop) : Refines related (Exec.stop e : Exec σ α) (Spec.stop e) :=
  fun _ t same => ⟨t, ⟨rfl, rfl⟩, same⟩

theorem bind {x : Exec σ α} {f : α → Exec σ β} {X : Spec τ α} {F : α → Spec τ β}
    (first : Refines related x X) (next : ∀ a, Refines related (f a) (F a)) :
    Refines related (x >>= f) (X >>= F) := by
  intro s t same
  obtain ⟨middle, allowed, reached⟩ := first s t same
  rw [Exec.bind_apply]
  rcases outcome : x s with ⟨(e | a), s'⟩
  · rw [outcome] at allowed reached
    exact ⟨middle, .inl ⟨e, rfl, allowed⟩, reached⟩
  · rw [outcome] at allowed reached
    obtain ⟨t', rest, ended⟩ := next a s' middle reached
    exact ⟨t', .inr ⟨a, middle, allowed, rest⟩, ended⟩

theorem attempt {x : Exec σ Unit} {X : Spec τ Unit} (block : Refines related x X) :
    Refines related (Exec.attempt x) X.attempt := by
  intro s t same
  obtain ⟨t', allowed, reached⟩ := block s t same
  rw [Exec.attempt_state]
  refine ⟨t', ?_, reached⟩
  unfold Exec.attempt
  rcases outcome : x s with ⟨(e | a), s'⟩
  · rw [outcome] at allowed
    cases e with
    | threw exception => exact .inr ⟨rfl, exception, allowed⟩
    | nullDereference => exact .inl ⟨nofun, allowed⟩
  · rw [outcome] at allowed
    exact .inl ⟨nofun, allowed⟩

/-- A step that changes nothing the specification speaks of is no step of it. -/
theorem skip {x : Exec σ α} {f : α → Exec σ β} {F : Spec τ β}
    (silent : ∀ s t, related s t → ∃ a s', x s = (.ok a, s') ∧ related s' t)
    (next : ∀ a, Refines related (f a) F) : Refines related (x >>= f) F := by
  intro s t same
  obtain ⟨a, s', returned, reached⟩ := silent s t same
  rw [Exec.bind_of_ok returned]
  exact next a s' t reached

/-- What refines call by call refines over every run. -/
theorem trail {step : α → Exec σ β} {Step : α → Spec τ β} (each : ∀ call, Refines related (step call) (Step call))
    (calls : List α) : ∀ s t, related s t →
      ∃ t', Spec.Trail Step t calls (Exec.trail step calls s).1 t' ∧ related (Exec.trail step calls s).2 t' := by
  induction calls with
  | nil => exact fun _ t same => ⟨t, .nil, same⟩
  | cons call calls ih =>
    intro s t same
    obtain ⟨middle, allowed, reached⟩ := each call s t same
    cases ends : faulted (step call s).1 with
    | true =>
      rw [Exec.trail_fault ends]
      exact ⟨middle, .fault allowed ends, reached⟩
    | false =>
      obtain ⟨t', rest, ended⟩ := ih _ middle reached
      rw [Exec.trail_cons ends]
      exact ⟨t', .cons allowed ends rest, ended⟩

end Refines

end Cxx

import OnDeviceLLM.Cxx.Specification

namespace Cxx

section Own

variable {ι α β τ : Type} [DecidableEq ι]

/-- The calls addressed to one component, in order. -/
def own (i : ι) : List (ι × α) → List α
  | [] => []
  | (j, call) :: calls => if j = i then call :: own i calls else own i calls

/-- What came of them. -/
def ownOutcomes (i : ι) : List (ι × α) → List β → List β
  | (j, _) :: calls, outcome :: outcomes =>
    if j = i then outcome :: ownOutcomes i calls outcomes else ownOutcomes i calls outcomes
  | _, _ => []

theorem ownOutcomes_nil (i : ι) (calls : List (ι × α)) : ownOutcomes i calls ([] : List β) = [] := by
  cases calls <;> rfl

namespace Spec

/-- The step of one component, while the others stand still. -/
def within (i : ι) (X : Spec τ β) : Spec (ι → τ) β := fun t outcome t' =>
  ∃ u, X (t i) outcome u ∧ t' = Function.update t i u

/-- However the calls of the components are interleaved, each goes through a trail of its own, up
    to the null dereference that ends them all. -/
theorem Trail.own {step : α → Spec τ β} {t t' : ι → τ} {calls : List (ι × α)} {outcomes : List (Except Stop β)}
    (trail : Trail (fun call : ι × α => (step call.2).within call.1) t calls outcomes t') (i : ι) :
    Trail step (t i) (own i (calls.take outcomes.length)) (ownOutcomes i calls outcomes) (t' i) := by
  induction trail with
  | nil => exact .nil
  | @fault t t' call calls outcome here ended =>
    obtain ⟨u, allowed, rfl⟩ := here
    rw [List.length_singleton, List.take_succ_cons, List.take_zero, Cxx.own, ownOutcomes]
    by_cases mine : call.1 = i
    · subst mine
      rw [Function.update_self, if_pos rfl, if_pos rfl, ownOutcomes_nil]
      exact .fault allowed ended
    · rw [Function.update_of_ne (Ne.symm mine), if_neg mine, if_neg mine, ownOutcomes_nil]
      exact .nil
  | @cons t middle t' call calls outcome outcomes here alive _ ih =>
    obtain ⟨u, allowed, rfl⟩ := here
    rw [List.length_cons, List.take_succ_cons, Cxx.own, ownOutcomes]
    by_cases mine : call.1 = i
    · subst mine
      rw [Function.update_self] at ih
      rw [if_pos rfl, if_pos rfl]
      exact .cons allowed alive ih
    · rw [Function.update_of_ne (Ne.symm mine)] at ih
      rw [if_neg mine, if_neg mine]
      exact ih

end Spec

end Own

namespace Spec

variable {τ α β : Type}

/-- At most one end is allowed. -/
def Deterministic (X : Spec τ α) : Prop :=
  ∀ t outcome outcome' t₁ t₂, X t outcome t₁ → X t outcome' t₂ → outcome = outcome' ∧ t₁ = t₂

namespace Deterministic

theorem of_function {X : Spec τ α} (f : τ → Except Stop α × τ)
    (only : ∀ t outcome t', X t outcome t' → (outcome, t') = f t) : Deterministic X := by
  intro t outcome outcome' t₁ t₂ first second
  exact Prod.mk.inj ((only _ _ _ first).trans (only _ _ _ second).symm)

theorem pure (a : α) : Deterministic (Pure.pure a : Spec τ α) :=
  of_function (fun t => (.ok a, t)) fun _ _ _ allowed => Prod.ext allowed.1 allowed.2

theorem stop (e : Stop) : Deterministic (Spec.stop e : Spec τ α) :=
  of_function (fun t => (.error e, t)) fun _ _ _ allowed => Prod.ext allowed.1 allowed.2

theorem get : Deterministic (Spec.get : Spec τ τ) :=
  of_function (fun t => (.ok t, t)) fun _ _ _ allowed => Prod.ext allowed.1 allowed.2

theorem modify (f : τ → τ) : Deterministic (Spec.modify f) :=
  of_function (fun t => (.ok (), f t)) fun _ _ _ allowed => Prod.ext allowed.1 allowed.2

theorem require (condition : τ → Prop) (e : Stop) : Deterministic (Spec.require condition e) := by
  intro t outcome outcome' t₁ t₂ first second
  obtain ⟨rfl, ends⟩ := first
  obtain ⟨rfl, ends'⟩ := second
  rcases ends with ⟨holds, rfl⟩ | ⟨fails, rfl⟩
  · rcases ends' with ⟨_, rfl⟩ | ⟨fails, rfl⟩
    · exact ⟨rfl, rfl⟩
    · exact absurd holds fails
  · rcases ends' with ⟨holds, rfl⟩ | ⟨_, rfl⟩
    · exact absurd holds fails
    · exact ⟨rfl, rfl⟩

theorem bind {X : Spec τ α} {F : α → Spec τ β} (first : Deterministic X) (next : ∀ a, Deterministic (F a)) :
    Deterministic (X >>= F) := by
  intro t outcome outcome' t₁ t₂ one two
  rcases one with ⟨e, rfl, stopped⟩ | ⟨a, middle, returned, rest⟩
  · rcases two with ⟨e', rfl, stopped'⟩ | ⟨a', middle', returned', _⟩
    · obtain ⟨same, rfl⟩ := first _ _ _ _ _ stopped stopped'
      cases same
      exact ⟨rfl, rfl⟩
    · cases (first _ _ _ _ _ stopped returned').1
  · rcases two with ⟨e', _, stopped'⟩ | ⟨a', middle', returned', rest'⟩
    · cases (first _ _ _ _ _ returned stopped').1
    · obtain ⟨same, rfl⟩ := first _ _ _ _ _ returned returned'
      cases same
      exact next a _ _ _ _ _ rest rest'

theorem attempt {X : Spec τ Unit} (block : Deterministic X) : Deterministic X.attempt := by
  intro t outcome outcome' t₁ t₂ one two
  rcases one with ⟨caught, ended⟩ | ⟨rfl, exception, threw⟩
  · rcases two with ⟨_, ended'⟩ | ⟨rfl, exception, threw⟩
    · exact block _ _ _ _ _ ended ended'
    · exact absurd (block _ _ _ _ _ ended threw).1 (caught exception)
  · rcases two with ⟨caught, ended⟩ | ⟨rfl, _, threw'⟩
    · exact absurd (block _ _ _ _ _ ended threw).1 (caught exception)
    · exact ⟨rfl, (block _ _ _ _ _ threw threw').2⟩

end Deterministic

/-- Where every step has at most one end, a list of calls has at most one trail. -/
theorem Trail.unique {step : α → Spec τ β} (each : ∀ call, Deterministic (step call)) {t t₁ t₂ : τ}
    {calls : List α} {outcomes outcomes' : List (Except Stop β)} (first : Trail step t calls outcomes t₁)
    (second : Trail step t calls outcomes' t₂) : outcomes = outcomes' ∧ t₁ = t₂ := by
  induction first generalizing outcomes' t₂ with
  | nil =>
    cases second
    exact ⟨rfl, rfl⟩
  | fault here ended =>
    cases second with
    | fault here' _ =>
      obtain ⟨rfl, rfl⟩ := each _ _ _ _ _ _ here here'
      exact ⟨rfl, rfl⟩
    | cons here' alive _ =>
      obtain ⟨rfl, _⟩ := each _ _ _ _ _ _ here here'
      rw [ended] at alive
      cases alive
  | cons here alive _ ih =>
    cases second with
    | fault here' ended =>
      obtain ⟨rfl, _⟩ := each _ _ _ _ _ _ here here'
      rw [ended] at alive
      cases alive
    | cons here' _ rest' =>
      obtain ⟨rfl, rfl⟩ := each _ _ _ _ _ _ here here'
      obtain ⟨rfl, rfl⟩ := ih rest'
      exact ⟨rfl, rfl⟩

end Spec

end Cxx

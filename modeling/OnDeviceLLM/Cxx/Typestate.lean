import OnDeviceLLM.Cxx.Exec

namespace Cxx

namespace Exec

variable {σ α β : Type}

/-- Weakest liberal precondition: nothing is asked where the computation stops. -/
def wlp (x : Exec σ α) (post : α → σ → Prop) : σ → Prop := wp x post fun _ _ => True

theorem wlp_of_ok {x : Exec σ α} {post : α → σ → Prop} {s s' : σ} {a : α} (h : x s = (.ok a, s')) :
    wlp x post s ↔ post a s' := wp_of_ok h

theorem wlp_of_error {x : Exec σ α} {post : α → σ → Prop} {s s' : σ} {e : Stop} (h : x s = (.error e, s')) :
    wlp x post s := (wp_of_error h).mpr trivial

theorem wlp_trivial (x : Exec σ α) {post : α → σ → Prop} (holds : ∀ a s', post a s') (s : σ) : wlp x post s := by
  unfold wlp wp
  rcases x s with ⟨(e | a), s'⟩
  · trivial
  · exact holds a s'

instance wp.decidable (x : Exec σ α) (post : α → σ → Prop) (exit : Stop → σ → Prop)
    [∀ a s, Decidable (post a s)] [∀ e s, Decidable (exit e s)] (s : σ) : Decidable (wp x post exit s) :=
  match outcome : x s with
  | (.ok _, _) => decidable_of_iff _ (wp_of_ok outcome).symm
  | (.error _, _) => decidable_of_iff _ (wp_of_error outcome).symm

instance wlp.decidable (x : Exec σ α) (post : α → σ → Prop) [∀ a s, Decidable (post a s)] (s : σ) :
    Decidable (wlp x post s) := wp.decidable x post _ s

end Exec

/-- The states in which a program is used as it is meant to be, and the damage from which it
    does not come back. -/
structure Protocol (σ : Type) where
  sane : σ → Prop
  broken : σ → Prop

namespace Protocol

variable {σ α β : Type} {protocol : Protocol σ}

/-- Run carefully, `x` stays sane: it returns as `post` says or throws. Run carelessly, it does
    damage, unless a null dereference ends it first. -/
def Verdict (protocol : Protocol σ) (x : Exec σ α) (careful : Prop) (post : α → σ → Prop) (s : σ) : Prop :=
  (careful → Exec.wp x post (fun e s' => e ≠ .nullDereference ∧ protocol.sane s') s) ∧
  (¬ careful → Exec.wp x (fun _ => protocol.broken) (fun e s' => e = .nullDereference ∨ protocol.broken s') s)

namespace Verdict

variable {x : Exec σ α} {careful : Prop} {post : α → σ → Prop} {s s' : σ}

theorem of_ok {a : α} (returned : x s = (.ok a, s')) :
    protocol.Verdict x careful post s ↔ (careful → post a s') ∧ (¬ careful → protocol.broken s') := by
  rw [Verdict, Exec.wp_of_ok returned, Exec.wp_of_ok returned]

theorem of_error {e : Stop} (stopped : x s = (.error e, s')) :
    protocol.Verdict x careful post s ↔
      (careful → e ≠ .nullDereference ∧ protocol.sane s') ∧
      (¬ careful → e = .nullDereference ∨ protocol.broken s') := by
  rw [Verdict, Exec.wp_of_error stopped, Exec.wp_of_error stopped]

theorem congr {y : Exec σ α} {t : σ} (same : x s = y t) :
    protocol.Verdict x careful post s ↔ protocol.Verdict y careful post t := by
  rw [Verdict, Verdict, Exec.wp_congr same, Exec.wp_congr same]

theorem returns {a : α} (returned : x s = (.ok a, s')) (cares : careful) (reached : post a s') :
    protocol.Verdict x careful post s :=
  (of_ok returned).mpr ⟨fun _ => reached, fun careless => absurd cares careless⟩

theorem throws {exception : Exception} (threw : x s = (.error (.threw exception), s')) (cares : careful)
    (sane : protocol.sane s') : protocol.Verdict x careful post s :=
  (of_error threw).mpr ⟨fun _ => ⟨by simp, sane⟩, fun careless => absurd cares careless⟩

theorem damages (careless : ¬ careful)
    (damage : Exec.wp x (fun _ => protocol.broken) (fun e s' => e = .nullDereference ∨ protocol.broken s') s) :
    protocol.Verdict x careful post s :=
  ⟨fun cares => absurd cares careless, fun _ => damage⟩

end Verdict

def Follows (protocol : Protocol σ) (pre : σ → Prop) (x : Exec σ α) (careful : σ → Prop)
    (post : α → σ → Prop) : Prop :=
  ∀ s, pre s → protocol.Verdict x (careful s) post s

namespace Follows

variable {pre : σ → Prop} {careful : σ → Prop} {post : α → σ → Prop}

theorem of_ok {x : Exec σ α} (returns : ∀ s, pre s → ∃ a s', x s = (.ok a, s') ∧ post a s') :
    protocol.Follows pre x (fun _ => True) post := by
  intro s held
  obtain ⟨a, s', returned, reached⟩ := returns s held
  exact .returns returned trivial reached

theorem pure (a : α) (reached : ∀ s, pre s → post a s) :
    protocol.Follows pre (Pure.pure a : Exec σ α) (fun _ => True) post :=
  of_ok fun s held => ⟨a, s, rfl, reached s held⟩

theorem throw (exception : Exception) (sane : ∀ s, pre s → protocol.sane s) :
    protocol.Follows pre (Exec.stop (.threw exception) : Exec σ α) (fun _ => True) post :=
  fun s held => .throws rfl trivial (sane s held)

theorem mono {x : Exec σ α} {pre' : σ → Prop} {post' : α → σ → Prop}
    (follows : protocol.Follows pre x careful post) (weaken : ∀ s, pre' s → pre s)
    (reached : ∀ a s, post a s → post' a s) : protocol.Follows pre' x careful post' := by
  intro s held
  obtain ⟨kept, harmed⟩ := follows s (weaken s held)
  exact ⟨fun cares => Exec.wp_mono (kept cares) reached (fun _ _ h => h), harmed⟩

theorem congr {x : Exec σ α} {careful' : σ → Prop} (follows : protocol.Follows pre x careful post)
    (same : ∀ s, pre s → (careful' s ↔ careful s)) : protocol.Follows pre x careful' post := by
  intro s held
  have verdict := follows s held
  rwa [← propext (same s held)] at verdict

/-- The second step is reached only where the first returns, and keeps any damage that is done. -/
theorem bind {x : Exec σ α} {k : α → Exec σ β} {later : α → σ → Prop} {final : β → σ → Prop}
    (first : protocol.Follows pre x careful post) (next : ∀ a, protocol.Follows (post a) (k a) (later a) final)
    (absorbing : ∀ a, Exec.Preserves protocol.broken (k a)) :
    protocol.Follows pre (x >>= k) (fun s => careful s ∧ Exec.wlp x later s) final := by
  intro s held
  have verdict := first s held
  rcases outcome : x s with ⟨(e | a), s'⟩
  · obtain ⟨kept, harmed⟩ := (Verdict.of_error outcome).mp verdict
    refine (Verdict.of_error (Exec.bind_of_error outcome)).mpr ⟨fun both => kept both.1, fun careless => harmed ?_⟩
    exact fun cares => careless ⟨cares, Exec.wlp_of_error outcome⟩
  · obtain ⟨kept, harmed⟩ := (Verdict.of_ok outcome).mp verdict
    have reads := @Exec.wlp_of_ok _ _ _ later _ _ _ outcome
    refine (Verdict.congr (Exec.bind_of_ok outcome)).mpr ?_
    by_cases cares : careful s
    · have rest := next a s' (kept cares)
      exact ⟨fun both => rest.1 (reads.mp both.2),
        fun careless => rest.2 fun here => careless ⟨cares, reads.mpr here⟩⟩
    · have damaged := Exec.wp_state_iff.mpr (absorbing a s' (harmed cares))
      exact .damages (fun both => cares both.1) (Exec.wp_mono damaged (fun _ _ h => h) (fun _ _ h => .inr h))

/-- After the first step nothing can go wrong any more. -/
theorem bind_safe {x : Exec σ α} {k : α → Exec σ β} {final : β → σ → Prop}
    (first : protocol.Follows pre x careful post)
    (next : ∀ a, protocol.Follows (post a) (k a) (fun _ => True) final)
    (absorbing : ∀ a, Exec.Preserves protocol.broken (k a)) : protocol.Follows pre (x >>= k) careful final :=
  (first.bind next absorbing).congr fun s _ =>
    ⟨fun cares => ⟨cares, Exec.wlp_trivial x (fun _ _ => trivial) s⟩, And.left⟩

theorem map {x : Exec σ α} (follows : protocol.Follows pre x careful post) {final : β → σ → Prop} (g : α → β)
    (reached : ∀ a s, post a s → final (g a) s) :
    protocol.Follows pre (x >>= fun a => Pure.pure (g a)) careful final :=
  follows.bind_safe (fun a => .pure (g a) (reached a)) (fun a => .pure (g a))

/-- A step that only reads. -/
theorem read {x : Exec σ α} {k : α → Exec σ β} {final : β → σ → Prop}
    (reads : ∀ s, pre s → ∃ a, x s = (.ok a, s)) (next : ∀ a, protocol.Follows pre (k a) careful final) :
    protocol.Follows pre (x >>= k) careful final := by
  intro s held
  obtain ⟨a, returned⟩ := reads s held
  exact (Verdict.congr (Exec.bind_of_ok returned)).mpr (next a s held)

/-- What is thrown out of the block leaves it sane or damaged, as a return does. -/
theorem attempt {x : Exec σ Unit} (block : protocol.Follows pre x careful fun _ => protocol.sane) :
    protocol.Follows pre (Exec.attempt x) careful fun _ => protocol.sane := by
  intro s held
  have verdict := block s held
  rcases outcome : x s with ⟨(e | a), s'⟩
  · obtain ⟨kept, harmed⟩ := (Verdict.of_error outcome).mp verdict
    cases e with
    | threw exception =>
      have caught : Exec.attempt x s = (.ok (), s') := by rw [Exec.attempt, outcome]
      exact (Verdict.of_ok caught).mpr
        ⟨fun cares => (kept cares).2, fun careless => (harmed careless).resolve_left nofun⟩
    | nullDereference =>
      have ended : Exec.attempt x s = (.error .nullDereference, s') := by rw [Exec.attempt, outcome]
      exact (Verdict.of_error ended).mpr ⟨kept, harmed⟩
  · have returned : Exec.attempt x s = (.ok a, s') := by rw [Exec.attempt, outcome]
    exact (Verdict.of_ok returned).mpr ((Verdict.of_ok outcome).mp verdict)

end Follows

end Protocol

end Cxx

import Mathlib.Tactic

namespace Cxx

/-- The exceptions a modelled statement can throw. `user` stands for whatever
    client code throws through a callback. -/
inductive Exception where
  | badAlloc
  | lengthError
  | outOfRange
  | invalidArgument
  | user
  deriving DecidableEq, Repr

/-- Why a computation ended without a value. A null dereference is no exception:
    no handler sees it and the process does not continue. -/
inductive Stop where
  | threw (exception : Exception)
  | nullDereference
  deriving DecidableEq, Repr

/-- The process has ended. -/
def faulted {α : Type} : Except Stop α → Bool
  | .error .nullDereference => true
  | _ => false

/-- Computations over a state `σ`. The state reached so far survives a throw. -/
def Exec (σ α : Type) : Type := σ → Except Stop α × σ

namespace Exec

variable {σ α β : Type}

instance : Monad (Exec σ) where
  pure a := fun s => (.ok a, s)
  bind x f := fun s =>
    match x s with
    | (.ok a, s') => f a s'
    | (.error e, s') => (.error e, s')

def get : Exec σ σ := fun s => (.ok s, s)
def modify (f : σ → σ) : Exec σ Unit := fun s => (.ok (), f s)
def stop (e : Stop) : Exec σ α := fun s => (.error e, s)

def ofExcept : Except Exception α → Exec σ α
  | .ok a => fun s => (.ok a, s)
  | .error e => stop (.threw e)

/-- A `try` block whose handler swallows every exception. -/
def attempt (x : Exec σ Unit) : Exec σ Unit := fun s =>
  match x s with
  | (.error (.threw _), s') => (.ok (), s')
  | outcome => outcome

@[simp] theorem pure_apply (a : α) (s : σ) : (pure a : Exec σ α) s = (.ok a, s) := rfl
@[simp] theorem get_apply (s : σ) : (get : Exec σ σ) s = (.ok s, s) := rfl
@[simp] theorem modify_apply (f : σ → σ) (s : σ) : modify f s = (.ok (), f s) := rfl
@[simp] theorem stop_apply (e : Stop) (s : σ) : (stop e : Exec σ α) s = (.error e, s) := rfl

theorem bind_apply (x : Exec σ α) (f : α → Exec σ β) (s : σ) :
    (x >>= f) s = match x s with
      | (.ok a, s') => f a s'
      | (.error e, s') => (.error e, s') := rfl

theorem bind_of_ok {x : Exec σ α} {f : α → Exec σ β} {s s' : σ} {a : α}
    (h : x s = (.ok a, s')) : (x >>= f) s = f a s' := by
  rw [bind_apply, h]

theorem bind_of_error {x : Exec σ α} {f : α → Exec σ β} {s s' : σ} {e : Stop}
    (h : x s = (.error e, s')) : (x >>= f) s = (.error e, s') := by
  rw [bind_apply, h]

@[simp] theorem pure_bind_apply (a : α) (f : α → Exec σ β) (s : σ) :
    ((pure a : Exec σ α) >>= f) s = f a s := rfl
@[simp] theorem get_bind_apply (f : σ → Exec σ β) (s : σ) : (get >>= f) s = f s s := rfl
@[simp] theorem modify_bind_apply (g : σ → σ) (f : Unit → Exec σ β) (s : σ) :
    (modify g >>= f) s = f () (g s) := rfl

theorem attempt_state (x : Exec σ Unit) (s : σ) : (attempt x s).2 = (x s).2 := by
  unfold attempt
  rcases x s with ⟨(e | a), s'⟩
  · cases e <;> rfl
  · rfl

theorem bind_pure_state (x : Exec σ α) (b : β) (s : σ) : ((x >>= fun _ => pure b) s).2 = (x s).2 := by
  rw [bind_apply]
  rcases x s with ⟨(e | a), s'⟩ <;> rfl

/-- Weakest precondition: `post` on normal return, `exit` where the computation stops. -/
def wp (x : Exec σ α) (post : α → σ → Prop) (exit : Stop → σ → Prop) (s : σ) : Prop :=
  match x s with
  | (.ok a, s') => post a s'
  | (.error e, s') => exit e s'

theorem wp_of_ok {x : Exec σ α} {post : α → σ → Prop} {exit : Stop → σ → Prop} {s s' : σ} {a : α}
    (h : x s = (.ok a, s')) : wp x post exit s ↔ post a s' := by
  rw [wp, h]

theorem wp_of_error {x : Exec σ α} {post : α → σ → Prop} {exit : Stop → σ → Prop} {s s' : σ}
    {e : Stop} (h : x s = (.error e, s')) : wp x post exit s ↔ exit e s' := by
  rw [wp, h]

theorem wp_congr {x y : Exec σ α} {post : α → σ → Prop} {exit : Stop → σ → Prop} {s t : σ}
    (h : x s = y t) : wp x post exit s ↔ wp y post exit t := by
  rw [wp, wp, h]

@[simp] theorem wp_modify (f : σ → σ) (post : Unit → σ → Prop) (exit : Stop → σ → Prop) (s : σ) :
    wp (modify f) post exit s ↔ post () (f s) := Iff.rfl

@[simp] theorem wp_bind (x : Exec σ α) (f : α → Exec σ β) (post : β → σ → Prop)
    (exit : Stop → σ → Prop) (s : σ) :
    wp (x >>= f) post exit s ↔ wp x (fun a => wp (f a) post exit) exit s := by
  unfold wp
  rw [bind_apply]
  rcases x s with ⟨(e | a), s'⟩ <;> rfl

theorem wp_mono {x : Exec σ α} {post post' : α → σ → Prop} {exit exit' : Stop → σ → Prop} {s : σ}
    (h : wp x post exit s) (normal : ∀ a s', post a s' → post' a s')
    (stopped : ∀ e s', exit e s' → exit' e s') : wp x post' exit' s := by
  unfold wp at h ⊢
  rcases hx : x s with ⟨(e | a), s'⟩ <;> rw [hx] at h
  · exact stopped e s' h
  · exact normal a s' h

def Preserves (invariant : σ → Prop) (x : Exec σ α) : Prop :=
  ∀ s, invariant s → invariant (x s).2

theorem wp_state_iff {invariant : σ → Prop} {x : Exec σ α} {s : σ} :
    wp x (fun _ => invariant) (fun _ => invariant) s ↔ invariant (x s).2 := by
  unfold wp
  rcases x s with ⟨(e | a), s'⟩ <;> rfl

theorem Preserves.pure {invariant : σ → Prop} (a : α) :
    Preserves invariant (Pure.pure a : Exec σ α) := fun _ h => h

theorem Preserves.stop {invariant : σ → Prop} (e : Stop) :
    Preserves invariant (stop e : Exec σ α) := fun _ h => h

theorem Preserves.get {invariant : σ → Prop} : Preserves invariant (get : Exec σ σ) := fun _ h => h

theorem Preserves.modify {invariant : σ → Prop} {f : σ → σ} (step : ∀ s, invariant s → invariant (f s)) :
    Preserves invariant (modify f) := step

theorem Preserves.bind {invariant : σ → Prop} {x : Exec σ α} {f : α → Exec σ β}
    (first : Preserves invariant x) (next : ∀ a, Preserves invariant (f a)) :
    Preserves invariant (x >>= f) := by
  intro s h
  have middle := first s h
  rw [bind_apply]
  rcases hx : x s with ⟨(e | a), s'⟩
  · simpa [hx] using middle
  · exact next a s' (by simpa [hx] using middle)

theorem Preserves.attempt {invariant : σ → Prop} {x : Exec σ Unit} (kept : Preserves invariant x) :
    Preserves invariant (attempt x) := by
  intro s h
  rw [attempt_state]
  exact kept s h

/-- From related states the computation comes to the same end, in related states. -/
def Respects (related : σ → σ → Prop) (x : Exec σ α) : Prop :=
  ∀ s t, related s t → (x s).1 = (x t).1 ∧ related (x s).2 (x t).2

theorem Respects.pure {related : σ → σ → Prop} (a : α) : Respects related (Pure.pure a : Exec σ α) :=
  fun _ _ same => ⟨rfl, same⟩

theorem Respects.modify {related : σ → σ → Prop} {f : σ → σ} (step : ∀ s t, related s t → related (f s) (f t)) :
    Respects related (modify f) := fun s t same => ⟨rfl, step s t same⟩

theorem Respects.bind {related : σ → σ → Prop} {x : Exec σ α} {f : α → Exec σ β}
    (first : Respects related x) (next : ∀ a, Respects related (f a)) : Respects related (x >>= f) := by
  intro s t same
  obtain ⟨ends, reached⟩ := first s t same
  rw [bind_apply, bind_apply]
  rcases hs : x s with ⟨(e | a), s'⟩ <;> rcases ht : x t with ⟨(e' | a'), t'⟩ <;> rw [hs, ht] at ends reached
  · cases ends
    exact ⟨rfl, reached⟩
  · cases ends
  · cases ends
  · cases ends
    exact next a s' t' reached

end Exec

end Cxx

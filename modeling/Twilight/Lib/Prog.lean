/-
Sequential programs that change a state and may fail.

`Prog σ ε α` is the standard error-and-state monad in which a failure keeps the
changes made before it: an early `return Err(..)` of imperative code does not
roll anything back. The lemmas below run a program one step at a time, forwards
when the outcome of a step is known and backwards when the whole has succeeded.
-/
import Mathlib.Logic.Basic

namespace Twilight

abbrev Prog (σ ε α : Type) := EStateM ε σ α

namespace Prog

variable {σ ε ε' α β : Type}

def mapErr (g : ε → ε') (x : Prog σ ε α) : Prog σ ε' α := fun s =>
  match x s with
  | .ok a s' => .ok a s'
  | .error e s' => .error (g e) s'

/-- Run a program and hand over its outcome; the state changes stay. -/
def attempt (x : Prog σ ε α) : Prog σ ε' (Except ε α) := fun s =>
  match x s with
  | .ok a s' => .ok (.ok a) s'
  | .error e s' => .ok (.error e) s'

variable (r : EStateM.Result ε σ α)

def final : σ :=
  match r with
  | .ok _ s => s
  | .error _ s => s

def outcome : Except ε α :=
  match r with
  | .ok a _ => .ok a
  | .error e _ => .error e

@[simp] lemma final_ok (a : α) (s : σ) : final (.ok a s : EStateM.Result ε σ α) = s := rfl

@[simp] lemma final_error (e : ε) (s : σ) : final (.error e s : EStateM.Result ε σ α) = s := rfl

@[simp] lemma outcome_ok (a : α) (s : σ) : outcome (.ok a s : EStateM.Result ε σ α) = .ok a := rfl

/-! ## Running forwards -/

variable {x : Prog σ ε α} {s s' : σ} {a : α} {e : ε}

lemma bind_ok {f : α → Prog σ ε β} (h : x s = .ok a s') : (x >>= f) s = f a s' := by
  show EStateM.bind x f s = _
  rw [EStateM.bind, h]

lemma bind_error {f : α → Prog σ ε β} (h : x s = .error e s') : (x >>= f) s = .error e s' := by
  show EStateM.bind x f s = _
  rw [EStateM.bind, h]

@[simp] lemma pure_run (a : α) (s : σ) : (pure a : Prog σ ε α) s = .ok a s := rfl

@[simp] lemma get_run (s : σ) : (get : Prog σ ε σ) s = .ok s s := rfl

@[simp] lemma modify_run (g : σ → σ) (s : σ) : (modify g : Prog σ ε PUnit) s = .ok ⟨⟩ (g s) := rfl

lemma mapErr_ok {g : ε → ε'} (h : x s = .ok a s') : mapErr g x s = .ok a s' := by rw [mapErr, h]

lemma mapErr_error {g : ε → ε'} (h : x s = .error e s') :
    mapErr g x s = .error (g e) s' := by rw [mapErr, h]

lemma attempt_ok (h : x s = .ok a s') :
    (attempt x : Prog σ ε' (Except ε α)) s = .ok (.ok a) s' := by rw [attempt, h]

lemma attempt_error (h : x s = .error e s') :
    (attempt x : Prog σ ε' (Except ε α)) s = .ok (.error e) s' := by rw [attempt, h]

/-! ## Running backwards -/

lemma bind_eq_ok {f : α → Prog σ ε β} {b : β} (h : (x >>= f) s = .ok b s') :
    ∃ a t, x s = .ok a t ∧ f a t = .ok b s' := by
  cases hx : x s with
  | ok a t =>
    rw [bind_ok hx] at h
    exact ⟨a, t, rfl, h⟩
  | error e t =>
    rw [bind_error hx] at h
    cases h

/-! ## Outcomes seen through an abstraction

`view` says what of a state counts. `Wp view x Q v` holds when every run of `x`
from a state that looks like `v` ends with an outcome and a view that satisfy
`Q`. A program is then verified one statement at a time: `Wp.bind` leaves the
rest of the program as the postcondition of its first statement. -/

section Wp

variable {τ : Type} (view : σ → τ)

def Wp (x : Prog σ ε α) (Q : Except ε α → τ → Prop) (v : τ) : Prop :=
  ∀ s, view s = v → Q (outcome (x s)) (view (final (x s)))

variable {view} {Q R : Except ε α → τ → Prop} {v : τ} {x : Prog σ ε α}

lemma Wp.mono (h : Wp view x Q v) (hQ : ∀ r w, Q r w → R r w) :
    Wp view x R v := fun s hs => hQ _ _ (h s hs)

lemma Wp.pure {a : α} (h : Q (.ok a) v) : Wp view (Pure.pure a) Q v := by
  rintro s rfl
  exact h

lemma Wp.throw {e : ε} (h : Q (.error e) v) : Wp view (MonadExcept.throw e) Q v := by
  rintro s rfl
  exact h

lemma Wp.bind {f : α → Prog σ ε β} {Q : Except ε β → τ → Prop}
    (h : Wp view x (fun r w => match r with
      | .ok a => Wp view (f a) Q w
      | .error e => Q (.error e) w) v) : Wp view (x >>= f) Q v := by
  intro s hs
  have hx := h s hs
  cases hr : x s with
  | ok a s' =>
    rw [hr] at hx
    rw [bind_ok hr]
    exact hx s' rfl
  | error e s' =>
    rw [hr] at hx
    rw [bind_error hr]
    exact hx

lemma Wp.mapErr {g : ε → ε'} {Q : Except ε' α → τ → Prop}
    (h : Wp view x (fun r w => Q (r.mapError g) w) v) : Wp view (mapErr g x) Q v := by
  intro s hs
  have hx := h s hs
  cases hr : x s with
  | ok a s' => rw [hr] at hx; rw [mapErr_ok hr]; exact hx
  | error e s' => rw [hr] at hx; rw [mapErr_error hr]; exact hx

lemma Wp.attempt {Q : Except ε' (Except ε α) → τ → Prop}
    (h : Wp view x (fun r w => Q (.ok r) w) v) : Wp view (attempt x) Q v := by
  intro s hs
  have hx := h s hs
  cases hr : x s with
  | ok a s' => rw [hr] at hx; rw [attempt_ok hr]; exact hx
  | error e s' => rw [hr] at hx; rw [attempt_error hr]; exact hx

end Wp

end Prog

end Twilight

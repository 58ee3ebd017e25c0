/-
Runs of a machine whose steps are a function of the state and an event.
-/
import Mathlib.Data.List.Basic

namespace Twilight.Machine

variable {σ ε : Type*}

/-- Every event of the run meets its condition in the state it finds. -/
def Meets (step : σ → ε → σ) (ok : σ → ε → Prop) : σ → List ε → Prop
  | _, [] => True
  | s, e :: es => ok s e ∧ Meets step ok (step s e) es

def decidableMeets (step : σ → ε → σ) (ok : σ → ε → Prop) [∀ s e, Decidable (ok s e)] (s : σ) :
    (es : List ε) → Decidable (Meets step ok s es)
  | [] => .isTrue trivial
  | e :: es =>
    have := decidableMeets step ok (step s e) es
    inferInstanceAs (Decidable (ok s e ∧ Meets step ok (step s e) es))

instance (step : σ → ε → σ) (ok : σ → ε → Prop) [∀ s e, Decidable (ok s e)] (s : σ)
    (es : List ε) : Decidable (Meets step ok s es) := decidableMeets step ok s es

/-- The property holds in every state of the run, the first and the last included. -/
def Always (step : σ → ε → σ) (P : σ → Prop) : σ → List ε → Prop
  | s, [] => P s
  | s, e :: es => P s ∧ Always step P (step s e) es

variable {step : σ → ε → σ} {ok : σ → ε → Prop} {P : σ → Prop} {s : σ} {es : List ε}

lemma meets_append {es' : List ε} :
    Meets step ok s (es ++ es') ↔ Meets step ok s es ∧ Meets step ok (es.foldl step s) es' := by
  induction es generalizing s with
  | nil => simp [Meets]
  | cons e es ih => rw [List.cons_append, Meets, Meets, ih, List.foldl_cons, and_assoc]

lemma meets_and {ok' : σ → ε → Prop} :
    Meets step (fun s e => ok s e ∧ ok' s e) s es ↔ Meets step ok s es ∧ Meets step ok' s es := by
  induction es generalizing s with
  | nil => simp [Meets]
  | cons e es ih => rw [Meets, Meets, Meets, ih, and_and_and_comm]

/-- Under an invariant that the allowed steps keep, their condition may be replaced. -/
lemma Meets.of_inv {ok' : σ → ε → Prop} (h : Meets step ok s es) (Inv : σ → Prop)
    (hstep : ∀ s e, Inv s → ok s e → ok' s e ∧ Inv (step s e)) (hs : Inv s) :
    Meets step ok' s es := by
  induction es generalizing s with
  | nil => trivial
  | cons e es ih =>
    obtain ⟨hok, hnext⟩ := hstep s e hs h.1
    exact ⟨hok, ih h.2 hnext⟩

lemma Always.foldl (h : Always step P s es) : P (es.foldl step s) := by
  induction es generalizing s with
  | nil => exact h
  | cons e es ih => exact ih h.2

/-- An invariant that every allowed step keeps gives its consequences throughout the run. -/
lemma always_of_meets (Inv : σ → Prop) (hinv : ∀ s, Inv s → P s)
    (hstep : ∀ s e, Inv s → ok s e → Inv (step s e)) (hs : Inv s)
    (h : Meets step ok s es) : Always step P s es := by
  induction es generalizing s with
  | nil => exact hinv s hs
  | cons e es ih => exact ⟨hinv s hs, ih (hstep s e hs h.1) h.2⟩

/-- Under an invariant that implies the property, if a step leads to a state with the property
exactly when its condition is met and then keeps the invariant, a run has the property throughout
exactly when all its steps meet their conditions. -/
lemma always_iff_meets_of_inv {Inv : σ → Prop} (hinv : ∀ s, Inv s → P s)
    (hstep : ∀ s e, Inv s → (P (step s e) ↔ ok s e) ∧ (ok s e → Inv (step s e)))
    (hs : Inv s) (es : List ε) : Always step P s es ↔ Meets step ok s es := by
  induction es generalizing s with
  | nil => exact iff_of_true (hinv s hs) trivial
  | cons e es ih =>
    obtain ⟨hiff, hnext⟩ := hstep s e hs
    rw [Always, Meets, ← hiff]
    constructor
    · intro h
      have hP : P (step s e) := by
        cases es with
        | nil => exact h.2
        | cons _ _ => exact h.2.1
      exact ⟨hP, (ih (hnext (hiff.mp hP))).mp h.2⟩
    · intro h
      exact ⟨hinv s hs, (ih (hnext (hiff.mp h.1))).mpr h.2⟩

lemma always_iff_meets (hstep : ∀ s e, P s → (P (step s e) ↔ ok s e)) (hs : P s)
    (es : List ε) : Always step P s es ↔ Meets step ok s es :=
  always_iff_meets_of_inv (fun _ h => h) (fun s e h => ⟨hstep s e h, (hstep s e h).mpr⟩) hs es

/-- The same with a second property that each step has to have in the state it finds. -/
lemma always_and_meets_iff {Q : σ → ε → Prop}
    (hstep : ∀ s e, P s → (P (step s e) ∧ Q s e ↔ ok s e)) (hs : P s) (es : List ε) :
    Always step P s es ∧ Meets step Q s es ↔ Meets step ok s es := by
  induction es generalizing s with
  | nil => exact iff_of_true ⟨hs, trivial⟩ trivial
  | cons e es ih =>
    rw [Always, Meets, Meets, ← hstep s e hs]
    constructor
    · rintro ⟨⟨-, halways⟩, hq, hmeets⟩
      have hnext : P (step s e) := by
        cases es with
        | nil => exact halways
        | cons _ _ => exact halways.1
      exact ⟨⟨hnext, hq⟩, (ih hnext).mp ⟨halways, hmeets⟩⟩
    · rintro ⟨⟨hnext, hq⟩, hmeets⟩
      have hrest := (ih hnext).mpr hmeets
      exact ⟨⟨hs, hrest.1⟩, hq, hrest.2⟩

end Twilight.Machine

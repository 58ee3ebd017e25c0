/-
What a program sees of the state.

`blank` empties the part of a state that does not count.  A program is blind to that
part if its outcome and the rest of the state it leaves are determined by the rest of
the state it starts from: it may change the part and may not look at it.  A reader
leaves all of the state as it is.
-/
import Twilight.Lib.Prog

namespace Twilight.Prog

variable {σ ε ε' α β : Type} (blank : σ → σ)

def Blind (x : Prog σ ε α) : Prop := ∀ s t, blank s = blank t →
  outcome (x s) = outcome (x t) ∧ blank (final (x s)) = blank (final (x t))

structure Reader (x : Prog σ ε α) : Prop where
  keeps : ∀ s, final (x s) = s
  sees : ∀ s t, blank s = blank t → outcome (x s) = outcome (x t)

variable {blank} {x : Prog σ ε α} {f : α → Prog σ ε β}

lemma Reader.blind (h : Reader blank x) : Blind blank x := fun s t hst =>
  ⟨h.sees s t hst, by rw [h.keeps, h.keeps, hst]⟩

/-- What a reader returns it returns from every state with the same rest. -/
lemma Reader.run_ok (h : Reader blank x) {s t : σ} {a : α} (hst : blank s = blank t)
    (ha : outcome (x s) = .ok a) : x t = .ok a t := by
  have hkeeps := h.keeps t
  have hsees := h.sees s t hst
  cases hx : x t <;> rw [hx, ha] at hsees <;> rw [hx] at hkeeps <;> cases hsees
  exact congrArg _ hkeeps

lemma Reader.run_error (h : Reader blank x) {s t : σ} {e : ε} (hst : blank s = blank t)
    (he : outcome (x s) = .error e) : x t = .error e t := by
  have hkeeps := h.keeps t
  have hsees := h.sees s t hst
  cases hx : x t <;> rw [hx, he] at hsees <;> rw [hx] at hkeeps <;> cases hsees
  exact congrArg _ hkeeps

/-! ## Blind programs -/

@[simp] lemma Blind.pure (a : α) : Blind blank (Pure.pure a : Prog σ ε α) :=
  fun _ _ hst => ⟨rfl, hst⟩

@[simp] lemma Blind.throw (e : ε) : Blind blank (MonadExcept.throw e : Prog σ ε α) :=
  fun _ _ hst => ⟨rfl, hst⟩

lemma Blind.modify {g : σ → σ} (h : ∀ s t, blank s = blank t → blank (g s) = blank (g t)) :
    Blind blank (modify g : Prog σ ε PUnit) := fun s t hst => ⟨rfl, h s t hst⟩

@[simp] lemma Blind.bind (hx : Blind blank x) (hf : ∀ a, Blind blank (f a)) :
    Blind blank (x >>= f) := by
  intro s t hst
  obtain ⟨ho, hv⟩ := hx s t hst
  cases hs : x s <;> cases ht : x t <;> rw [hs, ht] at ho hv <;> cases ho
  · rw [bind_ok hs, bind_ok ht]
    exact hf _ _ _ hv
  · rw [bind_error hs, bind_error ht]
    exact ⟨rfl, hv⟩

/-- A program that starts with a look at the state may depend on the rest of it. -/
lemma Blind.get {f : σ → Prog σ ε β} (hf : ∀ s, f (blank s) = f s)
    (h : ∀ s, Blind blank (f s)) : Blind blank (MonadState.get >>= f) := by
  intro s t hst
  have hget : ∀ s : σ, (MonadState.get >>= f) s = f s s := fun _ => rfl
  rw [hget, hget, ← hf s, ← hf t, hst]
  exact h _ s t hst

@[simp] lemma Blind.ite {c : Prop} [Decidable c] {y : Prog σ ε α} (hx : Blind blank x)
    (hy : Blind blank y) : Blind blank (if c then x else y) := by
  split
  · exact hx
  · exact hy

@[simp] lemma Blind.mapErr (g : ε → ε') (hx : Blind blank x) : Blind blank (mapErr g x) := by
  intro s t hst
  obtain ⟨ho, hv⟩ := hx s t hst
  rw [Prog.mapErr, Prog.mapErr]
  cases hs : x s <;> cases ht : x t <;> rw [hs, ht] at ho hv <;> cases ho <;> exact ⟨rfl, hv⟩

@[simp] lemma Blind.attempt (hx : Blind blank x) :
    Blind blank (attempt x : Prog σ ε' (Except ε α)) := by
  intro s t hst
  obtain ⟨ho, hv⟩ := hx s t hst
  rw [Prog.attempt, Prog.attempt]
  cases hs : x s <;> cases ht : x t <;> rw [hs, ht] at ho hv <;> cases ho <;> exact ⟨rfl, hv⟩

/-! ## Readers -/

@[simp] lemma Reader.pure (a : α) : Reader blank (Pure.pure a : Prog σ ε α) :=
  ⟨fun _ => rfl, fun _ _ _ => rfl⟩

@[simp] lemma Reader.throw (e : ε) : Reader blank (MonadExcept.throw e : Prog σ ε α) :=
  ⟨fun _ => rfl, fun _ _ _ => rfl⟩

@[simp] lemma Reader.bind (hx : Reader blank x) (hf : ∀ a, Reader blank (f a)) :
    Reader blank (x >>= f) where
  keeps s := by
    have hs := hx.keeps s
    cases hr : x s <;> rw [hr] at hs
    · rw [bind_ok hr, (hf _).keeps]
      exact hs
    · rw [bind_error hr]
      exact hs
  sees s t hst := (hx.blind.bind (fun a => (hf a).blind) s t hst).1

@[simp] lemma Reader.ite {c : Prop} [Decidable c] {y : Prog σ ε α} (hx : Reader blank x)
    (hy : Reader blank y) : Reader blank (if c then x else y) := by
  split
  · exact hx
  · exact hy

@[simp] lemma Reader.attempt (hx : Reader blank x) :
    Reader blank (attempt x : Prog σ ε' (Except ε α)) where
  keeps s := by
    have hs := hx.keeps s
    rw [Prog.attempt]
    cases hr : x s <;> rw [hr] at hs <;> exact hs
  sees s t hst := (hx.blind.attempt s t hst).1

/-! ## Programs that end alike -/

/-- Programs that succeed or fail together, whatever they return, do so one after the other. -/
lemma bind_map {x' : Prog σ ε α} {f' : α → Prog σ ε β} {s : σ}
    (hx : (outcome (x s)).map (fun _ => ()) = (outcome (x' s)).map fun _ => ())
    (hf : ∀ a a' t t', x s = .ok a t → x' s = .ok a' t' →
      (outcome (f a t)).map (fun _ => ()) = (outcome (f' a' t')).map fun _ => ()) :
    (outcome ((x >>= f) s)).map (fun _ => ()) = (outcome ((x' >>= f') s)).map fun _ => () := by
  cases h : x s <;> cases h' : x' s <;> rw [h, h'] at hx
  · rw [bind_ok h, bind_ok h']
    exact hf _ _ _ _ h h'
  · cases hx
  · cases hx
  · rw [bind_error h, bind_error h']
    exact hx

lemma exists_ok_of_ne {r r' : Except ε α} (h : r.map (fun _ => ()) = r'.map fun _ => ())
    (hne : r ≠ r') : ∃ a b, r = .ok a ∧ r' = .ok b ∧ a ≠ b := by
  cases r <;> cases r' <;> cases h
  · exact absurd rfl hne
  · exact ⟨_, _, rfl, rfl, fun hab => hne (congrArg _ hab)⟩

end Twilight.Prog

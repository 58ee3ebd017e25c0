/-
The last element of a list with a property decides. Where several layers are painted over each
other, what shows at a point is the value of the last layer that covers it.
-/
import Mathlib.Data.List.Induction

namespace Twilight

open List

/-- The value at the last element with the property, if there is one. -/
def lastBy {α β : Type*} (p : α → Prop) [DecidablePred p] (v : α → β) (l : List α) : Option β :=
  l.foldl (fun acc a => if p a then some (v a) else acc) none

section LastBy

variable {α β : Type*} {p q : α → Prop} [DecidablePred p] [DecidablePred q] {v : α → β}

lemma lastBy_append_singleton (l : List α) (a : α) :
    lastBy p v (l ++ [a]) = if p a then some (v a) else lastBy p v l := by
  rw [lastBy, foldl_append]
  rfl

/-- An element with the property that no later one has. -/
lemma lastBy_eq_of_last {pre post : List α} {a : α} (ha : p a) (hpost : ∀ b ∈ post, ¬ p b) :
    lastBy p v (pre ++ a :: post) = some (v a) := by
  induction post using reverseRecOn with
  | nil => rw [lastBy_append_singleton, if_pos ha]
  | append_singleton post b ih =>
    rw [← cons_append, ← append_assoc, lastBy_append_singleton,
      if_neg (hpost b (by simp)), ih fun c hc => hpost c (by simp [hc])]

lemma lastBy_eq_none {l : List α} (h : ∀ a ∈ l, ¬ p a) : lastBy p v l = none := by
  induction l using reverseRecOn with
  | nil => rfl
  | append_singleton l a ih =>
    rw [lastBy_append_singleton, if_neg (h a (by simp)), ih fun b hb => h b (by simp [hb])]

lemma exists_last (p : α → Prop) [DecidablePred p] (l : List α) :
    (∀ a ∈ l, ¬ p a) ∨ ∃ pre a post, l = pre ++ a :: post ∧ p a ∧ ∀ b ∈ post, ¬ p b := by
  induction l using reverseRecOn with
  | nil => exact Or.inl nofun
  | append_singleton l a ih =>
    by_cases ha : p a
    · exact Or.inr ⟨l, a, [], rfl, ha, nofun⟩
    obtain hnone | ⟨pre, b, post, rfl, hb, hpost⟩ := ih
    · left
      intro b hb
      obtain hb | hb := mem_append.mp hb
      · exact hnone b hb
      · rwa [mem_singleton.mp hb]
    · refine Or.inr ⟨pre, b, post ++ [a], by simp, hb, ?_⟩
      intro c hc
      obtain hc | hc := mem_append.mp hc
      · exact hpost c hc
      · rwa [mem_singleton.mp hc]

lemma lastBy_congr {l : List α} (h : ∀ a ∈ l, p a ↔ q a) : lastBy p v l = lastBy q v l := by
  induction l using reverseRecOn with
  | nil => rfl
  | append_singleton l a ih =>
    rw [lastBy_append_singleton, lastBy_append_singleton, ih fun b hb => h b (by simp [hb]),
      if_congr (h a (by simp)) rfl rfl]

variable {γ : Type*}

lemma lastBy_map (f : γ → α) (l : List γ) :
    lastBy p v (l.map f) = lastBy (fun c => p (f c)) (fun c => v (f c)) l :=
  foldl_map

lemma map_lastBy (g : β → γ) (l : List α) :
    (lastBy p v l).map g = lastBy p (fun a => g (v a)) l := by
  induction l using reverseRecOn with
  | nil => rfl
  | append_singleton l a ih =>
    rw [lastBy_append_singleton, lastBy_append_singleton, ← ih]
    split
    · rfl
    · rfl

lemma lastBy_or_congr_iff (f : Option β → γ) (l : List α) :
    f (lastBy (fun a => p a ∨ q a) v l) = f (lastBy p v l) ↔
      ∀ pre a post, l = pre ++ a :: post → q a →
        (∃ b ∈ post, p b ∨ q b) ∨ f (lastBy p v l) = f (some (v a)) := by
  constructor
  · rintro heq pre a post rfl ha
    by_cases hlater : ∃ b ∈ post, p b ∨ q b
    · exact Or.inl hlater
    · right
      rw [← heq]
      exact congrArg f (lastBy_eq_of_last (Or.inr ha) fun b hb hpq => hlater ⟨b, hb, hpq⟩)
  · intro h
    obtain hnone | ⟨pre, a, post, rfl, ha, hpost⟩ := exists_last (fun a => p a ∨ q a) l
    · rw [lastBy_eq_none hnone, lastBy_eq_none fun a ha hp => hnone a ha (Or.inl hp)]
    rw [lastBy_eq_of_last (p := fun a => p a ∨ q a) ha hpost]
    obtain hp | hq := ha
    · rw [lastBy_eq_of_last hp fun b hb hpb => hpost b hb (Or.inl hpb)]
    · obtain ⟨b, hb, hpq⟩ | hshows := h pre a post rfl hq
      · exact absurd hpq (hpost b hb)
      · exact hshows.symm

/-- Widening the property does not show exactly if every element that gains it is hidden by a
later one, or gives what already shows. -/
lemma lastBy_or_eq_iff (l : List α) :
    lastBy (fun a => p a ∨ q a) v l = lastBy p v l ↔
      ∀ pre a post, l = pre ++ a :: post → q a →
        (∃ b ∈ post, p b ∨ q b) ∨ lastBy p v l = some (v a) :=
  lastBy_or_congr_iff id l

end LastBy

end Twilight

/-
Bounded maps that evict in insertion order.

A cache keeps a map and the queue of its keys, oldest first.  An insertion
appends the key and then drops keys from the front until the queue fits the
capacity.  `WellFormed` is what every operation keeps: the queue lists the keys
of the map, each once.  It is what makes a value just inserted survive its own
eviction round.
-/
import Mathlib.Logic.Function.Basic
import Mathlib.Data.List.Nodup

namespace Twilight

open Function List

structure Fifo (K V : Type) where
  map : K → Option V
  order : List K

namespace Fifo

variable {K V : Type} [DecidableEq K]

def empty : Fifo K V := ⟨fun _ => none, []⟩

def evict (cap : Nat) (m : K → Option V) : List K → Fifo K V
  | [] => ⟨m, []⟩
  | k :: rest =>
    if cap < (k :: rest).length then evict cap (update m k none) rest
    else ⟨m, k :: rest⟩

/-- Insert or overwrite.  A key already present keeps its place in the queue. -/
def insert (c : Fifo K V) (cap : Nat) (k : K) (v : V) : Fifo K V :=
  evict cap (update c.map k (some v)) (if (c.map k).isSome then c.order else c.order ++ [k])

def insertNew (c : Fifo K V) (cap : Nat) (k : K) (v : V) : Fifo K V :=
  if (c.map k).isSome then c else insert c cap k v

def retain (c : Fifo K V) (keep : K → Bool) : Fifo K V :=
  ⟨fun k => if keep k then c.map k else none, c.order.filter keep⟩

def adjust (c : Fifo K V) (k : K) (f : V → V) : Fifo K V :=
  ⟨update c.map k ((c.map k).map f), c.order⟩

structure WellFormed (c : Fifo K V) : Prop where
  nodup : c.order.Nodup
  mem_order : ∀ k, k ∈ c.order ↔ (c.map k).isSome

omit [DecidableEq K] in
lemma wellFormed_empty : WellFormed (empty : Fifo K V) := ⟨nodup_nil, fun k => by simp [empty]⟩

/-! ## Eviction -/

lemma evict_eq (cap : Nat) (m : K → Option V) (l : List K) :
    evict cap m l = ⟨fun k => if k ∈ l.take (l.length - cap) then none else m k,
      l.drop (l.length - cap)⟩ := by
  induction l generalizing m with
  | nil => simp [evict]
  | cons a rest ih =>
    rw [evict]
    by_cases h : cap < (a :: rest).length
    · rw [if_pos h, ih]
      have hlen : (a :: rest).length - cap = rest.length - cap + 1 := by
        simp only [length_cons] at h ⊢; omega
      rw [hlen, take_succ_cons, drop_succ_cons]
      congr 1
      funext k
      by_cases hk : k = a
      · subst hk; simp
      · simp [hk]
    · rw [if_neg h]
      have hlen : (a :: rest).length - cap = 0 := by omega
      rw [hlen]
      simp

variable {cap : Nat} {m : K → Option V} {l : List K} {k : K} {v : V} {c : Fifo K V}

lemma evict_map_sub (h : (evict cap m l).map k = some v) : m k = some v := by
  rw [evict_eq] at h
  by_cases hk : k ∈ l.take (l.length - cap)
  · simp [hk] at h
  · simpa [hk] using h

lemma evict_wellFormed
    (hn : l.Nodup) (hm : ∀ k, k ∈ l ↔ (m k).isSome) : WellFormed (evict cap m l) := by
  rw [evict_eq]
  refine ⟨hn.sublist (drop_sublist _ _), fun k => ?_⟩
  have hsplit : k ∈ l ↔ k ∈ l.take (l.length - cap) ∨ k ∈ l.drop (l.length - cap) := by
    rw [← mem_append, take_append_drop]
  by_cases hk : k ∈ l.take (l.length - cap)
  · have hnd : k ∉ l.drop (l.length - cap) := fun hd =>
      disjoint_take_drop hn (Nat.le_refl _) hk hd
    simp [hk, hnd]
  · show k ∈ l.drop _ ↔ (if k ∈ l.take _ then none else m k).isSome
    rw [if_neg hk, ← hm k, hsplit]
    simp [hk]

lemma evict_append_self (hcap : 0 < cap) (hn : k ∉ l) : (evict cap m (l ++ [k])).map k = m k := by
  rw [evict_eq]
  have hk : k ∉ (l ++ [k]).take ((l ++ [k]).length - cap) := by
    rw [take_append_of_le_length (by simp only [length_append, length_singleton]; omega)]
    exact fun h => hn (mem_of_mem_take h)
  exact if_neg hk

/-! ## Insertion -/

lemma WellFormed.insert (hc : WellFormed c) (cap : Nat) (k : K) (v : V) :
    WellFormed (c.insert cap k v) := by
  unfold Fifo.insert
  by_cases hk : (c.map k).isSome
  · rw [if_pos hk]
    refine evict_wellFormed hc.nodup fun j => ?_
    by_cases hj : j = k
    · subst hj; simp [hc.mem_order, hk]
    · rw [update_of_ne hj, hc.mem_order]
  · rw [if_neg hk]
    have hnot : k ∉ c.order := fun h => hk ((hc.mem_order k).mp h)
    refine evict_wellFormed ?_ fun j => ?_
    · rw [nodup_append]
      refine ⟨hc.nodup, nodup_singleton k, fun a ha b hb => ?_⟩
      rw [mem_singleton] at hb
      subst hb
      exact fun e => hnot (e ▸ ha)
    · by_cases hj : j = k
      · subst hj; simp
      · rw [update_of_ne hj]; simp [hj, hc.mem_order]

lemma WellFormed.insertNew (hc : WellFormed c) (cap : Nat) (k : K) (v : V) :
    WellFormed (c.insertNew cap k v) := by
  unfold Fifo.insertNew
  split
  · exact hc
  · exact hc.insert cap k v

lemma insert_map_sub {j : K} {w : V}
    (h : (c.insert cap k v).map j = some w) : (j = k ∧ w = v) ∨ (j ≠ k ∧ c.map j = some w) := by
  have := evict_map_sub h
  by_cases hj : j = k
  · subst hj
    rw [update_self] at this
    exact .inl ⟨rfl, (Option.some.inj this).symm⟩
  · rw [update_of_ne hj] at this
    exact .inr ⟨hj, this⟩

lemma insert_self_of_none (hc : WellFormed c) (hcap : 0 < cap)
    (hk : c.map k = none) : (c.insert cap k v).map k = some v := by
  unfold Fifo.insert
  have hnot : k ∉ c.order := fun h => by have := (hc.mem_order k).mp h; rw [hk] at this; cases this
  rw [hk, if_neg (by simp), evict_append_self hcap hnot, update_self]

lemma insertNew_self_of_none (hc : WellFormed c) (hcap : 0 < cap)
    (hk : c.map k = none) : (c.insertNew cap k v).map k = some v := by
  unfold Fifo.insertNew
  rw [hk, if_neg (by simp)]
  exact insert_self_of_none hc hcap hk

lemma insert_map_of_lt
    (h : c.order.length < cap) : (c.insert cap k v).map = update c.map k (some v) := by
  have hlen : (if (c.map k).isSome then c.order else c.order ++ [k]).length ≤ cap := by
    split
    · omega
    · simp only [length_append, length_singleton]
      omega
  rw [Fifo.insert, evict_eq, Nat.sub_eq_zero_of_le hlen]
  funext j
  simp

lemma insert_order_length (c : Fifo K V) (cap : Nat) (k : K) (v : V) :
    (c.insert cap k v).order.length ≤ c.order.length + 1 := by
  rw [Fifo.insert, evict_eq, length_drop]
  split
  · omega
  · simp only [length_append, length_singleton]
    omega

/-! ## Removal and update -/

omit [DecidableEq K] in
lemma WellFormed.retain (hc : WellFormed c) (keep : K → Bool) :
    WellFormed (c.retain keep) := by
  refine ⟨hc.nodup.filter _, fun k => ?_⟩
  simp only [Fifo.retain, mem_filter, hc.mem_order]
  by_cases hk : keep k <;> simp [hk]

lemma WellFormed.adjust (hc : WellFormed c) (k : K) (f : V → V) :
    WellFormed (c.adjust k f) := by
  refine ⟨hc.nodup, fun j => ?_⟩
  simp only [Fifo.adjust, hc.mem_order]
  by_cases hj : j = k
  · subst hj; simp
  · rw [update_of_ne hj]

lemma adjust_map (c : Fifo K V) (k j : K) (f : V → V) :
    (c.adjust k f).map j = if j = k then (c.map k).map f else c.map j := by
  unfold Fifo.adjust
  by_cases hj : j = k
  · subst hj; simp
  · simp [hj]

end Fifo

end Twilight

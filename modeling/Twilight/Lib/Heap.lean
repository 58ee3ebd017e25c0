/-
A binary min-heap kept in an array and ordered by a key, with the two sifts that restore
the order. The contents are read as a multiset.
-/
import Mathlib

namespace Twilight.Heap

variable {α κ : Type*} [LinearOrder κ] (key : α → κ)

/-- Whether positions `i` and `j` both hold something and the key at `i` is the smaller one. -/
def before (a : Array α) (i j : Nat) : Bool :=
  match a[i]?, a[j]? with
  | some x, some y => key x < key y
  | _, _ => false

def parent (i : Nat) : Nat := (i - 1) / 2

variable {i j : Nat} {a : Array α} {x : α}

lemma parent_lt (h : 0 < i) : parent i < i := by
  unfold parent
  omega

/-- Moves the element at position `i` up while it is smaller than its parent. -/
def siftUp (a : Array α) (i : Nat) : Array α :=
  if 0 < i then
    if before key a i (parent i) then
      siftUp (a.swapIfInBounds i (parent i)) (parent i)
    else a
  else a
termination_by i
decreasing_by exact parent_lt ‹_›

/-- The position with the smallest key among `i` and its two children. -/
def smallest (a : Array α) (i : Nat) : Nat :=
  let s := if before key a (2 * i + 1) i then 2 * i + 1 else i
  if before key a (2 * i + 2) s then 2 * i + 2 else s

lemma before_iff :
    before key a i j = true ↔ ∃ x y, a[i]? = some x ∧ a[j]? = some y ∧ key x < key y := by
  unfold before
  split
  next x y hx hy => simp [hx, hy]
  next h =>
    simp only [Bool.false_eq_true, false_iff]
    intro hxy
    obtain ⟨x, y, hx, hy, -⟩ := hxy
    exact h x y hx hy

lemma before_lt (h : before key a i j = true) :
    i < a.size ∧ j < a.size := by
  obtain ⟨x, y, hx, hy, -⟩ := (before_iff key).mp h
  obtain ⟨hi, -⟩ := Array.getElem?_eq_some_iff.mp hx
  obtain ⟨hj, -⟩ := Array.getElem?_eq_some_iff.mp hy
  exact ⟨hi, hj⟩

lemma before_trans {k : Nat} (hij : before key a i j = true)
    (hjk : before key a j k = true) : before key a i k = true := by
  rw [before_iff] at *
  obtain ⟨x, y, hx, hy, hxy⟩ := hij
  obtain ⟨y', z, hy', hz, hyz⟩ := hjk
  rw [hy, Option.some.injEq] at hy'
  subst hy'
  exact ⟨x, z, hx, hz, lt_trans hxy hyz⟩

lemma smallest_cases (a : Array α) (i : Nat) :
    smallest key a i = i ∨
      (i < smallest key a i ∧ parent (smallest key a i) = i ∧
        before key a (smallest key a i) i = true) := by
  unfold smallest parent
  by_cases hl : before key a (2 * i + 1) i = true
  · by_cases hr : before key a (2 * i + 2) (2 * i + 1) = true
    · simp only [hl, hr, if_true]
      exact Or.inr ⟨by omega, by omega, before_trans key hr hl⟩
    · simp only [hl, hr, if_true, Bool.false_eq_true, if_false]
      exact Or.inr ⟨by omega, by omega, trivial⟩
  · by_cases hr : before key a (2 * i + 2) i = true
    · simp only [hl, hr, if_true, Bool.false_eq_true, if_false]
      exact Or.inr ⟨by omega, by omega, trivial⟩
    · simp [hl, hr]

/-- Moves the element at position `i` down while one of its children is smaller. -/
def siftDown (a : Array α) (i : Nat) : Array α :=
  if smallest key a i = i then a
  else siftDown (a.swapIfInBounds i (smallest key a i)) (smallest key a i)
termination_by a.size - i
decreasing_by
  obtain h | ⟨hlt, -, hb⟩ := smallest_cases key a i
  · contradiction
  · have := (before_lt key hb).1
    rw [Array.size_swapIfInBounds]
    omega

def push (a : Array α) (x : α) : Array α := siftUp key (a.push x) a.size

/-- Removes the head: the last element takes its place and moves down. -/
def pop (a : Array α) : Array α :=
  let b := (a.swapIfInBounds 0 (a.size - 1)).pop
  if b.isEmpty then b else siftDown key b 0

/-! ## Contents -/

def contents (a : Array α) : Multiset α := a.toList

lemma contents_swapIfInBounds (a : Array α) (i j : Nat) :
    contents (a.swapIfInBounds i j) = contents a := by
  unfold Array.swapIfInBounds
  split
  · split
    · exact Multiset.coe_eq_coe.mpr (Array.swap_perm ‹_› ‹_›).toList
    · rfl
  · rfl

lemma contents_siftUp (a : Array α) (i : Nat) : contents (siftUp key a i) = contents a := by
  induction a, i using siftUp.induct key with
  | case1 a i hi hb ih => rw [siftUp, if_pos hi, if_pos hb, ih, contents_swapIfInBounds]
  | case2 a i hi hb => rw [siftUp, if_pos hi, if_neg hb]
  | case3 a i hi => rw [siftUp, if_neg hi]

lemma contents_siftDown (a : Array α) (i : Nat) :
    contents (siftDown key a i) = contents a := by
  induction a, i using siftDown.induct key with
  | case1 a i hs => rw [siftDown, if_pos hs]
  | case2 a i hs ih => rw [siftDown, if_neg hs, ih, contents_swapIfInBounds]

lemma contents_push (a : Array α) (x : α) : contents (push key a x) = x ::ₘ contents a := by
  rw [push, contents_siftUp, contents, contents, Array.toList_push, Multiset.cons_coe]
  exact Multiset.coe_eq_coe.mpr (List.perm_append_singleton x a.toList)

lemma contents_pop_last (h : a.back? = some x) :
    contents a = x ::ₘ contents a.pop := by
  obtain ⟨b, rfl⟩ := Array.back?_eq_some_iff.mp h
  rw [Array.pop_push, contents, contents, Array.toList_push, Multiset.cons_coe]
  exact Multiset.coe_eq_coe.mpr (List.perm_append_singleton x b.toList)

lemma contents_pop (h : a[0]? = some x) :
    contents a = x ::ₘ contents (pop key a) := by
  obtain ⟨hsize, hx⟩ := Array.getElem?_eq_some_iff.mp h
  have hlast : (a.swapIfInBounds 0 (a.size - 1)).back? = some x := by
    rw [Array.back?_eq_getElem?, Array.size_swapIfInBounds,
      Array.getElem?_eq_getElem (by rw [Array.size_swapIfInBounds]; omega), ← hx,
      Array.getElem_swapIfInBounds_right hsize]
  rw [← contents_swapIfInBounds a 0 (a.size - 1), contents_pop_last hlast, pop]
  split
  · rfl
  · rw [contents_siftDown]

/-! ## Order -/

/-- The key at `p` is at most the key at `c` where both positions hold something. -/
def Below (a : Array α) (p c : Nat) : Prop := ∀ x y, a[p]? = some x → a[c]? = some y → key x ≤ key y

def IsHeap (a : Array α) : Prop := ∀ c, 0 < c → Below key a (parent c) c

lemma Below.trans {p m c : Nat} (hm : m < a.size) (h : Below key a p m)
    (h' : Below key a m c) : Below key a p c := by
  intro x z hx hz
  have hy := Array.getElem?_eq_getElem hm
  exact le_trans (h x _ hx hy) (h' _ z hy hz)

lemma Below.of_before (h : before key a i j = true) :
    Below key a i j := by
  intro x y hx hy
  obtain ⟨x', y', hx', hy', hlt⟩ := (before_iff key).mp h
  rw [hx, Option.some.injEq] at hx'
  rw [hy, Option.some.injEq] at hy'
  rw [hx', hy']
  exact le_of_lt hlt

lemma Below.of_not_before (h : ¬ before key a i j = true) :
    Below key a j i := by
  intro y x hy hx
  rw [← not_lt]
  intro hlt
  exact h ((before_iff key).mpr ⟨x, y, hx, hy, hlt⟩)

lemma getElem?_swapIfInBounds (hi : i < a.size) (hj : j < a.size)
    (k : Nat) : (a.swapIfInBounds i j)[k]? = a[Equiv.swap i j k]? := by
  rw [Array.swapIfInBounds_def, dif_pos hi, dif_pos hj, Array.getElem?_swap]
  by_cases hjk : j = k
  · subst hjk
    rw [if_pos rfl, Equiv.swap_apply_right, Array.getElem?_eq_getElem hi]
  · rw [if_neg hjk]
    by_cases hik : i = k
    · subst hik
      rw [if_pos rfl, Equiv.swap_apply_left, Array.getElem?_eq_getElem hj]
    · rw [if_neg hik, Equiv.swap_apply_of_ne_of_ne (Ne.symm hik) (Ne.symm hjk)]

lemma below_swap (hi : i < a.size) (hj : j < a.size) (p c : Nat) :
    Below key (a.swapIfInBounds i j) p c ↔
      Below key a (Equiv.swap i j p) (Equiv.swap i j c) := by
  unfold Below
  rw [getElem?_swapIfInBounds hi hj, getElem?_swapIfInBounds hi hj]

/-- The order before a step of `siftUp`: only the pair of `i` and its parent may be wrong. -/
structure UpOrder (a : Array α) (i : Nat) : Prop where
  rest : ∀ c, 0 < c → c ≠ i → Below key a (parent c) c
  skip : ∀ c, 0 < i → 0 < c → parent c = i → Below key a (parent i) c

lemma UpOrder.swap (h : UpOrder key a i) (hi : 0 < i) (hb : before key a i (parent i) = true) :
    UpOrder key (a.swapIfInBounds i (parent i)) (parent i) := by
  obtain ⟨hsi, hsp⟩ := before_lt key hb
  have hpi := parent_lt hi
  have hchild : ∀ c, 0 < c → c ≠ i → parent c = parent i → Below key a (parent i) c := by
    intro c hc hci hcp
    rw [← hcp]
    exact h.rest c hc hci
  constructor
  · intro c hc hcp
    have hlt := parent_lt hc
    rw [below_swap key hsi hsp]
    by_cases hci : c = i
    · subst hci
      rw [Equiv.swap_apply_left, Equiv.swap_apply_right]
      exact Below.of_before key hb
    rw [Equiv.swap_apply_of_ne_of_ne hci hcp]
    by_cases hpc : parent c = i
    · rw [hpc, Equiv.swap_apply_left]
      exact h.skip c hi hc hpc
    · by_cases hpp : parent c = parent i
      · rw [hpp, Equiv.swap_apply_right]
        exact (Below.of_before key hb).trans key hsp (hchild c hc hci hpp)
      · rw [Equiv.swap_apply_of_ne_of_ne hpc hpp]
        exact h.rest c hc hci
  · intro c hp hc hcp
    have hpp := parent_lt hp
    have htop := h.rest (parent i) hp (by omega)
    rw [below_swap key hsi hsp, Equiv.swap_apply_of_ne_of_ne (by omega) (by omega)]
    by_cases hci : c = i
    · rw [hci, Equiv.swap_apply_left]
      exact htop
    · have := parent_lt hc
      rw [Equiv.swap_apply_of_ne_of_ne hci (by omega)]
      exact htop.trans key hsp (hchild c hc hci hcp)

lemma isHeap_siftUp (h : UpOrder key a i) :
    IsHeap key (siftUp key a i) := by
  induction a, i using siftUp.induct key with
  | case1 a i hi hb ih =>
    rw [siftUp, if_pos hi, if_pos hb]
    exact ih (h.swap key hi hb)
  | case2 a i hi hb =>
    rw [siftUp, if_pos hi, if_neg hb]
    intro c hc
    by_cases hci : c = i
    · rw [hci]
      exact Below.of_not_before key hb
    · exact h.rest c hc hci
  | case3 a i hi =>
    rw [siftUp, if_neg hi]
    intro c hc
    exact h.rest c hc (by omega)

/-- The order before a step of `siftDown`: only the pairs of `i` and its children may be
wrong. -/
structure DownOrder (a : Array α) (i : Nat) : Prop where
  rest : ∀ c, 0 < c → parent c ≠ i → Below key a (parent c) c
  skip : ∀ c, 0 < i → 0 < c → parent c = i → Below key a (parent i) c

lemma smallest_below {c : Nat} (hi : i < a.size) (hc : 0 < c)
    (hp : parent c = i) : Below key a (smallest key a i) c := by
  have hcs : c = 2 * i + 1 ∨ c = 2 * i + 2 := by
    unfold parent at hp
    omega
  have hirr : ∀ k, Below key a k k := by
    intro k x y hx hy
    rw [hx, Option.some.injEq] at hy
    rw [hy]
  unfold smallest
  by_cases hl : before key a (2 * i + 1) i = true
  · rw [if_pos hl]
    by_cases hr : before key a (2 * i + 2) (2 * i + 1) = true
    · rw [if_pos hr]
      obtain rfl | rfl := hcs
      · exact Below.of_before key hr
      · exact hirr _
    · rw [if_neg hr]
      obtain rfl | rfl := hcs
      · exact hirr _
      · exact Below.of_not_before key hr
  · rw [if_neg hl]
    by_cases hr : before key a (2 * i + 2) i = true
    · rw [if_pos hr]
      obtain rfl | rfl := hcs
      · exact (Below.of_before key hr).trans key hi (Below.of_not_before key hl)
      · exact hirr _
    · rw [if_neg hr]
      obtain rfl | rfl := hcs
      · exact Below.of_not_before key hl
      · exact Below.of_not_before key hr

lemma DownOrder.swap {s : Nat} (h : DownOrder key a i) (hs : 0 < s)
    (hp : parent s = i) (hb : before key a s i = true)
    (hmin : ∀ c, 0 < c → parent c = i → Below key a s c) :
    DownOrder key (a.swapIfInBounds i s) s := by
  obtain ⟨hss, hsi⟩ := before_lt key hb
  have his := parent_lt hs
  rw [hp] at his
  constructor
  · intro c hc hcs
    have hlt := parent_lt hc
    rw [below_swap key hsi hss]
    by_cases hpc : parent c = i
    · rw [hpc, Equiv.swap_apply_left]
      by_cases hcs' : c = s
      · rw [hcs', Equiv.swap_apply_right]
        exact Below.of_before key hb
      · rw [Equiv.swap_apply_of_ne_of_ne (by omega) hcs']
        exact hmin c hc hpc
    · rw [Equiv.swap_apply_of_ne_of_ne hpc hcs]
      by_cases hci : c = i
      · subst hci
        rw [Equiv.swap_apply_left]
        exact h.skip s hc hs hp
      · rw [Equiv.swap_apply_of_ne_of_ne hci (by rintro rfl; exact hpc hp)]
        exact h.rest c hc hpc
  · intro c _ hc hcs
    have hlt := parent_lt hc
    rw [below_swap key hsi hss, hp, Equiv.swap_apply_left,
      Equiv.swap_apply_of_ne_of_ne (by omega) (by omega), ← hcs]
    exact h.rest c hc (by omega)

lemma isHeap_siftDown (hi : i < a.size) (h : DownOrder key a i) :
    IsHeap key (siftDown key a i) := by
  induction a, i using siftDown.induct key with
  | case1 a i hs =>
    rw [siftDown, if_pos hs]
    intro c hc
    by_cases hpc : parent c = i
    · have := smallest_below key hi hc hpc
      rwa [hs, ← hpc] at this
    · exact h.rest c hc hpc
  | case2 a i hs ih =>
    rw [siftDown, if_neg hs]
    obtain heq | ⟨hlt, hp, hb⟩ := smallest_cases key a i
    · contradiction
    · apply ih
      · rw [Array.size_swapIfInBounds]
        exact (before_lt key hb).1
      · exact h.swap key (by omega) hp hb fun c hc hpc => smallest_below key hi hc hpc

lemma isHeap_empty : IsHeap key (#[] : Array α) := by
  intro c _ x y hx
  simp at hx

lemma isHeap_push (h : IsHeap key a) (x : α) : IsHeap key (push key a x) := by
  apply isHeap_siftUp
  constructor
  · intro c hc hne y z hy hz
    have hlt := parent_lt hc
    obtain ⟨hcs, -⟩ := Array.getElem?_eq_some_iff.mp hz
    rw [Array.size_push] at hcs
    rw [Array.getElem?_push, if_neg (by omega)] at hy hz
    exact h c hc y z hy hz
  · intro c hi hc hpc y z hy hz
    obtain ⟨hcs, -⟩ := Array.getElem?_eq_some_iff.mp hz
    rw [Array.size_push] at hcs
    have := parent_lt hc
    omega

lemma IsHeap.head_le (h : IsHeap key a) (hx : a[0]? = some x) (i : Nat) :
    ∀ y, a[i]? = some y → key x ≤ key y := by
  induction i using Nat.strong_induction_on with
  | _ i ih =>
    intro y hy
    obtain rfl | hi := Nat.eq_zero_or_pos i
    · rw [hx, Option.some.injEq] at hy
      rw [hy]
    · have hlt := parent_lt hi
      obtain ⟨hsize, -⟩ := Array.getElem?_eq_some_iff.mp hy
      have hp := Array.getElem?_eq_getElem (show parent i < a.size by omega)
      exact le_trans (ih (parent i) hlt _ hp) (h i hi _ y hp hy)

lemma IsHeap.head_le_of_mem {y : α} (h : IsHeap key a) (hx : a[0]? = some x)
    (hy : y ∈ contents a) : key x ≤ key y := by
  obtain ⟨i, hi⟩ := List.mem_iff_getElem?.mp (Multiset.mem_coe.mp hy)
  rw [Array.getElem?_toList] at hi
  exact h.head_le key hx i y hi

lemma isHeap_pop (h : IsHeap key a) : IsHeap key (pop key a) := by
  rw [pop]
  split
  · next he =>
    rw [Array.isEmpty_iff.mp he]
    exact isHeap_empty key
  next he =>
  have hsize : 0 < (a.swapIfInBounds 0 (a.size - 1)).pop.size := by
    rw [Array.isEmpty_iff, ← Array.size_eq_zero_iff] at he
    omega
  rw [Array.size_pop, Array.size_swapIfInBounds] at hsize
  -- away from the head and the last position the array is as it was
  have hget : ∀ k x, 0 < k → (a.swapIfInBounds 0 (a.size - 1)).pop[k]? = some x →
      a[k]? = some x := by
    intro k x hk hx
    rw [Array.getElem?_pop, Array.size_swapIfInBounds] at hx
    split at hx
    · rwa [getElem?_swapIfInBounds (by omega) (by omega),
        Equiv.swap_apply_of_ne_of_ne (by omega) (by omega)] at hx
    · cases hx
  apply isHeap_siftDown
  · rw [Array.size_pop, Array.size_swapIfInBounds]
    exact hsize
  · constructor
    · intro c hc hpc x y hx hy
      exact h c hc x y (hget _ x (by omega) hx) (hget c y hc hy)
    · intro c hi
      omega

end Twilight.Heap

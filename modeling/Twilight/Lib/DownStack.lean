/-
A stack that grows down in a byte memory, and how its contents are read back.

Everything is written below the stack pointer, so that what is above stays as it is: a string or a
table of words is read back as it was written whatever is pushed later.  Tables are tables of 64-bit
words; a vector of strings is a table of pointers that ends with a null pointer.
-/
import Mathlib.Data.List.Forall2
import Mathlib.Data.List.GetD
import Twilight.Lib.Bytes

namespace Twilight

open List Bytes Nat

structure DownStack where
  sp : Nat
  mem : Bytes

namespace DownStack

/-- What is at or above the pointer of `st` is the same in `st'`. -/
structure Grows (st st' : DownStack) : Prop where
  le : st'.sp ≤ st.sp
  keeps : ∀ a, st.sp ≤ a → st'.mem a = st.mem a

namespace Grows

lemma refl (st : DownStack) : Grows st st := ⟨le_refl _, fun _ _ => rfl⟩

lemma trans {a b c : DownStack} (h : Grows a b) (h' : Grows b c) : Grows a c :=
  ⟨le_trans h'.le h.le, fun x hx =>
    (h'.keeps x (le_trans h.le hx)).trans (h.keeps x hx)⟩

end Grows

def push (st : DownStack) (len : Nat) (src : Bytes) : DownStack :=
  ⟨st.sp - len, st.mem.splice (st.sp - len) len src⟩

variable {st : DownStack} {mem mem' : Bytes} {a : Nat} {ws : List Nat} {s : List UInt8}
  {ss : List (List UInt8)}

lemma push_grows {len : Nat} (h : len ≤ st.sp) (src : Bytes) :
    Grows st (st.push len src) := by
  refine ⟨sub_le _ _, fun a ha => ?_⟩
  exact splice_outside (Or.inr (by omega))

/-! ## Words -/

def word (mem : Bytes) (a : Nat) : Nat := mem.readLE a 8

def WordsAt (mem : Bytes) : Nat → List Nat → Prop
  | _, [] => True
  | a, w :: ws => word mem a = w ∧ WordsAt mem (a + 8) ws

lemma word_congr (h : ∀ x, a ≤ x → mem' x = mem x) : word mem' a = word mem a :=
  readLE_congr fun _ _ => h _ (le_add_right _ _)

lemma WordsAt.congr
    (h : ∀ x, a ≤ x → mem' x = mem x) (hws : WordsAt mem a ws) : WordsAt mem' a ws := by
  induction ws generalizing a with
  | nil => trivial
  | cons w ws ih =>
    refine ⟨(word_congr h).trans hws.1, ih (fun x hx => h x ?_) hws.2⟩
    omega

def pushWord (st : DownStack) (w : Nat) : DownStack := st.push 8 (le w)

lemma WordsAt.pushWord (h : WordsAt st.mem st.sp ws) {w : Nat}
    (hw : w < 2 ^ 64) (hfits : 8 ≤ st.sp) :
    WordsAt (st.pushWord w).mem (st.pushWord w).sp (w :: ws) := by
  have hread : word (st.pushWord w).mem (st.pushWord w).sp = w % 256 ^ 8 :=
    readLE_putLE st.mem (st.sp - 8) 8 w
  refine ⟨hread.trans (Nat.mod_eq_of_lt hw), ?_⟩
  have hsp : (st.pushWord w).sp + 8 = st.sp := Nat.sub_add_cancel hfits
  rw [hsp]
  exact h.congr (push_grows hfits _).keeps

/-- Pushes the words one after the other, so that the last one is the lowest. -/
def pushWords (st : DownStack) (ws : List Nat) : DownStack := ws.foldl pushWord st

lemma pushWords_spec (hws : ∀ w ∈ ws, w < 2 ^ 64) (hfits : 8 * ws.length ≤ st.sp) :
    Grows st (st.pushWords ws) ∧ (st.pushWords ws).sp = st.sp - 8 * ws.length ∧
      ∀ table, WordsAt st.mem st.sp table →
        WordsAt (st.pushWords ws).mem (st.pushWords ws).sp (ws.reverse ++ table) := by
  induction ws generalizing st with
  | nil => exact ⟨.refl st, by simp [pushWords], fun _ h => h⟩
  | cons w ws ih =>
    rw [length_cons] at hfits
    have hsp : (st.pushWord w).sp = st.sp - 8 := rfl
    obtain ⟨hgrows, hlow, htable⟩ := @ih (st.pushWord w)
      (fun w' hw' => hws w' (mem_cons_of_mem _ hw')) (by omega)
    refine ⟨(push_grows (by omega) _).trans hgrows, ?_, fun table h => ?_⟩
    · rw [length_cons]
      exact hlow.trans (by omega)
    · rw [reverse_cons, append_assoc]
      exact htable _ (h.pushWord (hws w mem_cons_self) (by omega))

lemma pushWords_null_spec (hws : ∀ w ∈ ws, w < 2 ^ 64) (hfits : 8 * (ws.length + 1) ≤ st.sp) :
    Grows st ((st.pushWord 0).pushWords ws) ∧
      ((st.pushWord 0).pushWords ws).sp = st.sp - 8 * (ws.length + 1) ∧
      ∀ table, WordsAt st.mem st.sp table →
        WordsAt ((st.pushWord 0).pushWords ws).mem ((st.pushWord 0).pushWords ws).sp
          (ws.reverse ++ 0 :: table) := by
  have hsp : (st.pushWord 0).sp = st.sp - 8 := rfl
  obtain ⟨hgrows, hlow, htable⟩ := pushWords_spec hws (by omega : _ ≤ (st.pushWord 0).sp)
  refine ⟨(push_grows (by omega) _).trans hgrows, by omega, fun table h => ?_⟩
  exact htable _ (h.pushWord (Nat.two_pow_pos 64) (by omega))

lemma wordsAt_of_getElem
    (h : ∀ k (hk : k < ws.length), word mem (a + 8 * k) = ws[k]) : WordsAt mem a ws := by
  induction ws generalizing a with
  | nil => trivial
  | cons w ws ih =>
    refine ⟨h 0 (succ_pos _), ih fun k hk => ?_⟩
    have hk' := h (k + 1) (succ_lt_succ hk)
    rwa [getElem_cons_succ, show a + 8 * (k + 1) = a + 8 + 8 * k by omega] at hk'

def encodeWords (ws : List Nat) : Bytes := fun j => le (ws.getD (j / 8) 0) (j % 8)

lemma wordsAt_splice (hws : ∀ w ∈ ws, w < 2 ^ 64) (mem : Bytes) (a : Nat) :
    WordsAt (mem.splice a (8 * ws.length) (encodeWords ws)) a ws := by
  refine wordsAt_of_getElem fun k hk => ?_
  have hword : ∀ j < 8, mem.splice a (8 * ws.length) (encodeWords ws) (a + 8 * k + j) =
      le ws[k] j := by
    intro j hj
    rw [splice_inside (by omega) (by omega), encodeWords,
      show (a + 8 * k + j - a) / 8 = k by omega, show (a + 8 * k + j - a) % 8 = j by omega,
      getD_eq_getElem _ _ hk]
  rw [word, readLE_of_le hword]
  exact Nat.mod_eq_of_lt (hws _ (getElem_mem hk))

/-! ## Strings -/

/-- The bytes from `a` up to the first null byte. -/
inductive CString (mem : Bytes) : Nat → List UInt8 → Prop
  | nil {a : Nat} (hend : mem a = 0) : CString mem a []
  | cons {a : Nat} {s : List UInt8} (hne : mem a ≠ 0) (hs : CString mem (a + 1) s) :
    CString mem a (mem a :: s)

lemma CString.unique {s' : List UInt8} (h : CString mem a s)
    (h' : CString mem a s') : s = s' := by
  induction h generalizing s' with
  | nil hend =>
    cases h' with
    | nil => rfl
    | cons hne => exact absurd hend hne
  | cons hne _ ih =>
    cases h' with
    | nil hend => exact absurd hend hne
    | cons _ hs' => rw [ih hs']

lemma CString.congr
    (h : ∀ x, a ≤ x → mem' x = mem x) (hs : CString mem a s) : CString mem' a s := by
  induction hs with
  | nil hend => exact .nil ((h _ (le_refl _)).trans hend)
  | @cons a s hne _ ih =>
    have ha := h a (le_refl _)
    rw [← ha] at hne ⊢
    exact .cons hne (ih fun x hx => h x (by omega))

lemma cstring_of_getElem (hs : 0 ∉ s)
    (h : ∀ j (hj : j < s.length), mem (a + j) = s[j]) (hend : mem (a + s.length) = 0) :
    CString mem a s := by
  induction s generalizing a with
  | nil => exact .nil hend
  | cons b s ih =>
    have hb : mem a = b := h 0 (succ_pos _)
    rw [mem_cons, not_or] at hs
    have hrest : CString mem (a + 1) s := by
      refine ih hs.2 (fun j hj => ?_) ?_
      · have hj' := h (j + 1) (succ_lt_succ hj)
        rwa [getElem_cons_succ, show a + (j + 1) = a + 1 + j by omega] at hj'
      · rwa [length_cons, show a + (s.length + 1) = a + 1 + s.length by omega] at hend
    rw [← hb]
    exact .cons (hb ▸ Ne.symm hs.1) hrest

lemma Grows.strings {st' : DownStack} (h : Grows st st') {ptrs : List Nat}
    (hstrings : List.Forall₂ (CString st.mem) ptrs ss)
    (hptrs : ∀ p ∈ ptrs, st.sp ≤ p) : List.Forall₂ (CString st'.mem) ptrs ss := by
  induction hstrings with
  | nil => exact .nil
  | @cons p s ptrs ss hp _ ih =>
    refine .cons ?_ (ih fun p' hp' => hptrs p' (mem_cons_of_mem _ hp'))
    exact hp.congr fun x hx => h.keeps x (le_trans (hptrs p mem_cons_self) hx)

/-! ## Vectors -/

/-- A vector of strings at `a`, and the address after its null pointer. -/
inductive Strings (mem : Bytes) : Nat → List (List UInt8) → Nat → Prop
  | nil {a : Nat} (hend : word mem a = 0) : Strings mem a [] (a + 8)
  | cons {a next : Nat} {s : List UInt8} {rest : List (List UInt8)} (hne : word mem a ≠ 0)
    (hs : CString mem (word mem a) s) (hrest : Strings mem (a + 8) rest next) :
    Strings mem a (s :: rest) next

inductive Pairs (mem : Bytes) : Nat → List (Nat × Nat) → Prop
  | nil {a : Nat} (hend : word mem a = 0) : Pairs mem a []
  | cons {a : Nat} {rest : List (Nat × Nat)} (hne : word mem a ≠ 0)
    (hrest : Pairs mem (a + 16) rest) : Pairs mem a ((word mem a, word mem (a + 8)) :: rest)

lemma Strings.unique {next next' : Nat} {ss' : List (List UInt8)}
    (h : Strings mem a ss next) (h' : Strings mem a ss' next') : ss = ss' ∧ next = next' := by
  induction h generalizing ss' with
  | nil hend =>
    cases h' with
    | nil => exact ⟨rfl, rfl⟩
    | cons hne => exact absurd hend hne
  | cons hne hs _ ih =>
    cases h' with
    | nil hend => exact absurd hend hne
    | cons _ hs' hrest' =>
      obtain ⟨hrest, hnext⟩ := ih hrest'
      exact ⟨by rw [hs.unique hs', hrest], hnext⟩

lemma Pairs.unique {ps ps' : List (Nat × Nat)} (h : Pairs mem a ps)
    (h' : Pairs mem a ps') : ps = ps' := by
  induction h generalizing ps' with
  | nil hend =>
    cases h' with
    | nil => rfl
    | cons hne => exact absurd hend hne
  | cons hne _ ih =>
    cases h' with
    | nil hend => exact absurd hend hne
    | cons _ hrest' => rw [ih hrest']

lemma strings_of_wordsAt {ptrs : List Nat}
    {table : List Nat} (hptrs : List.Forall₂ (CString mem) ptrs ss) (hnull : 0 ∉ ptrs)
    (h : WordsAt mem a (ptrs ++ 0 :: table)) :
    Strings mem a ss (a + 8 * (ss.length + 1)) ∧ WordsAt mem (a + 8 * (ss.length + 1)) table := by
  induction hptrs generalizing a with
  | nil => exact ⟨.nil h.1, h.2⟩
  | @cons p s ptrs ss hp _ ih =>
    rw [mem_cons, not_or] at hnull
    obtain ⟨hrest, htable⟩ := ih hnull.2 h.2
    rw [show a + 8 + 8 * (ss.length + 1) = a + 8 * ((s :: ss).length + 1) by
      rw [length_cons]; omega] at hrest htable
    have hword : word mem a = p := h.1
    refine ⟨.cons ?_ ?_ hrest, htable⟩
    · rw [hword]
      exact Ne.symm hnull.1
    · rw [hword]
      exact hp

lemma pairs_of_wordsAt {ps : List (Nat × Nat)} {table : List Nat} (hkeys : ∀ q ∈ ps, q.1 ≠ 0)
    (h : WordsAt mem a ((ps.flatMap fun q => [q.1, q.2]) ++ 0 :: table)) : Pairs mem a ps := by
  induction ps generalizing a with
  | nil => exact .nil h.1
  | cons q ps ih =>
    obtain ⟨hkey, hvalue, hrest⟩ := h
    have hq : q = (word mem a, word mem (a + 8)) := by rw [hkey, hvalue]
    rw [hq]
    refine .cons ?_ (ih (fun q' hq' => hkeys q' (mem_cons_of_mem _ hq')) hrest)
    rw [hkey]
    exact hkeys q mem_cons_self

end DownStack

end Twilight

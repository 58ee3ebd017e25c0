/-
Bitmaps kept in 64-bit words, low bit first.
-/
import Mathlib.Data.List.Basic
import Mathlib.Data.List.GetD

namespace Twilight.Words

open List BitVec

variable (words : List (BitVec 64))

/-- Bit `i` of the bitmap; bits past its end are clear. -/
def getBit (i : Nat) : Bool := (words.getD (i / 64) 0).getLsbD (i % 64)

def setBit (i : Nat) (v : Bool) : List (BitVec 64) :=
  words.modify (i / 64) fun w =>
    if v then w ||| twoPow 64 (i % 64) else w &&& ~~~twoPow 64 (i % 64)

@[simp] lemma length_setBit (i : Nat) (v : Bool) :
    (setBit words i v).length = words.length := length_modify _ _ _

lemma getBit_replicate_zero (n i : Nat) : getBit (replicate n 0) i = false := by
  rw [getBit]
  by_cases h : i / 64 < n
  · rw [getD_replicate _ h]
    simp
  · rw [getD_eq_default _ _ (by simpa using h)]
    simp

lemma getLsbD_put (w : BitVec 64) {a b : Nat} (hb : b < 64) (v : Bool) :
    (if v then w ||| twoPow 64 a else w &&& ~~~twoPow 64 a).getLsbD b =
      if b = a then v else w.getLsbD b := by
  cases v with
  | true =>
    by_cases h : b = a
    · subst h
      simp [hb]
    · simp [h, hb]
  | false =>
    by_cases h : b = a
    · subst h
      simp [hb]
    · simp [h, hb]

lemma getBit_setBit {words : List (BitVec 64)} {i : Nat} (hi : i / 64 < words.length)
    (v : Bool) (j : Nat) : getBit (setBit words i v) j = if j = i then v else getBit words j := by
  rw [getBit, setBit, getBit]
  by_cases hword : j / 64 = i / 64
  · rw [hword, getD_eq_getElem?_getD, List.getElem?_modify_eq,
      List.getElem?_eq_getElem hi, Option.map_eq_map, Option.map_some, Option.getD_some,
      getLsbD_put _ (Nat.mod_lt _ (by decide)), getD_eq_getElem _ _ hi]
    by_cases hji : j = i
    · rw [if_pos hji, if_pos (by rw [hji])]
    · rw [if_neg hji, if_neg (by omega)]
  · rw [getD_eq_getElem?_getD, List.getElem?_modify_ne _ _ (Ne.symm hword),
      ← getD_eq_getElem?_getD, if_neg (by rintro rfl; exact hword rfl)]

def setRange (start n : Nat) : List (BitVec 64) :=
  (range n).foldl (fun w j => setBit w (start + j) true) words

@[simp] lemma length_setRange (start n : Nat) :
    (setRange words start n).length = words.length := by
  refine foldlRecOn (motive := fun w : List (BitVec 64) => w.length = words.length)
    _ _ rfl ?_
  intro w hw j _
  rw [length_setBit, hw]

lemma getBit_setRange {words : List (BitVec 64)} {start n : Nat}
    (h : start + n ≤ 64 * words.length) (j : Nat) :
    getBit (setRange words start n) j =
      if start ≤ j ∧ j < start + n then true else getBit words j := by
  induction n with
  | zero => simp [setRange, show ¬ (start ≤ j ∧ j < start) by omega]
  | succ n ih =>
    have hstep : setRange words start (n + 1) = setBit (setRange words start n) (start + n) true := by
      rw [setRange, range_succ, foldl_append]
      rfl
    have hword : (start + n) / 64 < (setRange words start n).length := by
      rw [length_setRange]
      omega
    rw [hstep, getBit_setBit hword, ih (by omega)]
    by_cases hj : j = start + n
    · rw [if_pos hj, if_pos (by omega)]
    · rw [if_neg hj]
      by_cases hin : start ≤ j ∧ j < start + n
      · rw [if_pos hin, if_pos (by omega)]
      · rw [if_neg hin, if_neg (by omega)]

end Twilight.Words

/-
Bitmaps kept in a byte buffer, eight bits to a byte, low bit first.

The allocators of a block file system scan such a bitmap for a clear bit and set
it.  `firstClear` is the scan, written as the byte-by-byte and bit-by-bit loop
that skips full bytes, and its specification is the least clear position.
-/
import Twilight.Lib.Bytes

namespace Twilight.Bytes

open List Option Function Nat

def bit (b : Bytes) (k : Nat) : Bool := (b (k / 8)).toNat.testBit (k % 8)

def mask (k : Nat) : UInt8 := 1 <<< UInt8.ofNat k

def setBit (b : Bytes) (k : Nat) : Bytes := update b (k / 8) (b (k / 8) ||| mask (k % 8))

def clearBit (b : Bytes) (k : Nat) : Bytes := update b (k / 8) (b (k / 8) &&& ~~~ mask (k % 8))

variable {k j i n w : Nat} {x : UInt8} {b : Bytes}

lemma mask_toNat (h : k < 8) : (mask k).toNat = 2 ^ k := by
  have hk : k = 0 ∨ k = 1 ∨ k = 2 ∨ k = 3 ∨ k = 4 ∨ k = 5 ∨ k = 6 ∨ k = 7 := by omega
  rcases hk with rfl | rfl | rfl | rfl | rfl | rfl | rfl | rfl <;> rfl

lemma testBit_or_mask (hk : k < 8) :
    (x ||| mask k).toNat.testBit j = (x.toNat.testBit j || decide (j = k)) := by
  rw [UInt8.toNat_or, Nat.testBit_or, mask_toNat hk, Nat.testBit_two_pow]
  simp only [eq_comm]

lemma testBit_and_not_mask (hk : k < 8) (hj : j < 8) :
    (x &&& ~~~ mask k).toNat.testBit j = (x.toNat.testBit j && !decide (j = k)) := by
  have hm : (~~~ mask k).toNat.testBit j = !decide (j = k) := by
    rw [UInt8.toNat_not, mask_toNat hk, show UInt8.size - 1 - 2 ^ k = 2 ^ 8 - (2 ^ k + 1) by
      rw [UInt8.size]; omega, Nat.testBit_two_pow_sub_succ
        (Nat.pow_lt_pow_right (by decide) hk), Nat.testBit_two_pow]
    simp only [hj, decide_true, Bool.true_and, eq_comm]
  rw [UInt8.toNat_and, Nat.testBit_and, hm]

lemma bit_setBit (b : Bytes) (k j : Nat) :
    bit (setBit b k) j = (bit b j || decide (j = k)) := by
  unfold bit setBit
  by_cases hb : j / 8 = k / 8
  · rw [hb, update_self, testBit_or_mask (mod_lt _ (by decide))]
    congr 1
    exact decide_eq_decide.mpr ⟨fun h => by omega, fun h => by rw [h]⟩
  · rw [update_of_ne hb]
    have hne : j ≠ k := fun h => hb (by rw [h])
    simp [hne]

lemma bit_clearBit (b : Bytes) (k j : Nat) :
    bit (clearBit b k) j = (bit b j && !decide (j = k)) := by
  unfold bit clearBit
  by_cases hb : j / 8 = k / 8
  · rw [hb, update_self, testBit_and_not_mask (mod_lt _ (by decide)) (mod_lt _ (by decide))]
    congr 2
    exact decide_eq_decide.mpr ⟨fun h => by omega, fun h => by rw [h]⟩
  · rw [update_of_ne hb]
    have hne : j ≠ k := fun h => hb (by rw [h])
    simp [hne]

def putBit (b : Bytes) (k : Nat) (v : Bool) : Bytes := if v then setBit b k else clearBit b k

lemma bit_putBit (b : Bytes) (k : Nat) (v : Bool) (j : Nat) :
    bit (putBit b k v) j = if j = k then v else bit b j := by
  cases v with
  | true => rw [putBit, if_pos rfl, bit_setBit]; by_cases h : j = k <;> simp [h]
  | false => rw [putBit, if_neg (by decide), bit_clearBit]; by_cases h : j = k <;> simp [h]

lemma bit_zero (k : Nat) : bit zero k = false := by
  simp [bit]

lemma and_mask_eq_zero (hk : k < 8) :
    x &&& mask k = 0 ↔ x.toNat.testBit k = false := by
  rw [← UInt8.toNat_inj, UInt8.toNat_and, mask_toNat hk]
  constructor
  · intro h
    have := congrArg (fun n => n.testBit k) h
    simpa [Nat.testBit_and, Nat.testBit_two_pow] using this
  intro h
  refine eq_of_testBit_eq fun j => ?_
  rw [Nat.testBit_and, Nat.testBit_two_pow]
  by_cases hj : k = j
  · subst hj; simp [h]
  · simp [hj]

/-! ## Scanning for a clear bit -/

def firstClearInByte (b : Bytes) (i : Nat) : Option Nat :=
  if b i ≠ 0xFF then
    ((range 8).find? fun k => b i &&& mask k = 0).map fun k => 8 * i + k
  else none

def firstClear (b : Bytes) (n : Nat) : Option Nat := (range n).findSome? (firstClearInByte b)

/-- The same scan for a clear bit below `limit`: a byte whose first clear bit is
too high is left for the next one. -/
def firstClearBelow (limit : Nat) (b : Bytes) (n : Nat) : Option Nat :=
  (range n).findSome? fun i => (firstClearInByte b i).filter (· < limit)

lemma full_byte : x = 0xFF ↔ ∀ k < 8, x.toNat.testBit k = true := by
  constructor
  · rintro rfl k hk
    rw [show (0xFF : UInt8).toNat = 2 ^ 8 - 1 from rfl, testBit_two_pow_sub_one]
    simpa using hk
  intro h
  refine UInt8.toNat_inj.mp (eq_of_testBit_eq fun k => ?_)
  rw [show (0xFF : UInt8).toNat = 2 ^ 8 - 1 from rfl, testBit_two_pow_sub_one]
  by_cases hk : k < 8
  · simp [h k hk, hk]
  · have hlt : x.toNat < 2 ^ k :=
      Nat.lt_of_lt_of_le x.toNat_lt (Nat.pow_le_pow_right (by decide) (by omega))
    simp [Nat.testBit_lt_two_pow hlt, hk]

lemma bit_mul_add (hk : k < 8) :
    bit b (8 * i + k) = (b i).toNat.testBit k := by
  rw [bit, show (8 * i + k) / 8 = i by omega, show (8 * i + k) % 8 = k by omega]

lemma firstClearInByte_eq_none :
    firstClearInByte b i = none ↔ ∀ k < 8, bit b (8 * i + k) = true := by
  unfold firstClearInByte
  by_cases hf : b i = 0xFF
  · simp only [hf, ne_eq, not_true_eq_false, if_false, true_iff]
    intro k hk
    rw [bit_mul_add hk]
    exact full_byte.mp hf k hk
  rw [if_pos hf, map_eq_none_iff, find?_eq_none]
  constructor
  · intro h k hk
    have := h k (mem_range.mpr hk)
    rw [bit_mul_add hk]
    simpa [and_mask_eq_zero hk] using this
  · intro h
    exact absurd (full_byte.mpr fun k hk => by rw [← bit_mul_add hk]; exact h k hk) hf

lemma firstClearInByte_eq_some {p : Nat} (h : firstClearInByte b i = some p) :
    8 * i ≤ p ∧ p < 8 * i + 8 ∧ bit b p = false ∧ ∀ q, 8 * i ≤ q → q < p → bit b q = true := by
  unfold firstClearInByte at h
  split at h
  · rw [map_eq_some_iff] at h
    obtain ⟨k, hk, rfl⟩ := h
    rw [find?_range_eq_some] at hk
    obtain ⟨hclear, hmem, hbefore⟩ := hk
    have hk8 : k < 8 := mem_range.mp hmem
    refine ⟨by omega, by omega, ?_, fun q hq hqp => ?_⟩
    · rw [bit_mul_add hk8, ← and_mask_eq_zero hk8]
      exact of_decide_eq_true hclear
    · have hq8 : q - 8 * i < 8 := by omega
      have := hbefore (q - 8 * i) (by omega)
      rw [show q = 8 * i + (q - 8 * i) by omega, bit_mul_add hq8]
      simpa [and_mask_eq_zero hq8] using this
  · cases h

lemma firstClear_eq_none :
    firstClear b n = none ↔ ∀ k < 8 * n, bit b k = true := by
  unfold firstClear
  rw [findSome?_eq_none_iff]
  constructor
  · intro h k hk
    have := h (k / 8) (mem_range.mpr (by omega))
    rw [firstClearInByte_eq_none] at this
    have hbit := this (k % 8) (mod_lt _ (by decide))
    rwa [div_add_mod] at hbit
  · intro h i hi
    rw [mem_range] at hi
    rw [firstClearInByte_eq_none]
    exact fun k hk => h _ (by omega)

lemma firstClear_eq_some {p : Nat} (h : firstClear b n = some p) :
    p < 8 * n ∧ bit b p = false ∧ ∀ q < p, bit b q = true := by
  unfold firstClear at h
  induction n with
  | zero => simp at h
  | succ n ih =>
    rw [range_succ, findSome?_append] at h
    cases hn : (range n).findSome? (firstClearInByte b) with
    | some q =>
      rw [hn, some_or] at h
      obtain ⟨h1, h2, h3⟩ := ih (hn.trans h)
      exact ⟨by omega, h2, h3⟩
    | none =>
      rw [hn, none_or] at h
      have hlast : firstClearInByte b n = some p := by simpa using h
      obtain ⟨h1, h2, h3, h4⟩ := firstClearInByte_eq_some hlast
      refine ⟨by omega, h3, fun q hq => ?_⟩
      by_cases hqn : q < 8 * n
      · exact firstClear_eq_none.mp hn q hqn
      · exact h4 q (by omega) hq

lemma firstClearBelow_eq (limit : Nat) (b : Bytes) (n : Nat) :
    firstClearBelow limit b n = (firstClear b n).filter (· < limit) := by
  unfold firstClearBelow firstClear
  induction n with
  | zero => rfl
  | succ n ih =>
    rw [range_succ, findSome?_append, findSome?_append, ih]
    cases hn : (range n).findSome? (firstClearInByte b) with
    | none => simp
    | some q =>
      by_cases hq : q < limit
      · simp [Option.filter, hq]
      -- every later clear bit is past the limit as well
      cases hl : firstClearInByte b n with
      | none => simp [hl]
      | some r =>
        have hqn := (firstClear_eq_some hn).1
        have hr := (firstClearInByte_eq_some hl).1
        simp [Option.filter, hq, hl, show ¬ r < limit by omega]

/-! ## Bitmaps of several blocks -/

/-- Bit `k` of a bitmap of blocks of `w` bits that starts at block `start`. -/
def bitAt (w : Nat) (data : Nat → Bytes) (start k : Nat) : Bool :=
  bit (data (start + k / w)) (k % w)

variable (data : Nat → Bytes)

lemma bitAt_mul_add (start : Nat) {b : Nat} (hb : b < w) :
    bitAt w data start (w * j + b) = bit (data (start + j)) b := by
  rw [bitAt, mul_add_div (by omega), mul_add_mod, div_eq_of_lt hb, mod_eq_of_lt hb, add_zero]

lemma bitAt_putBit (start : Nat) {b : Nat} (hb : b < w) (v : Bool) :
    bitAt w (update data (start + j) (putBit (data (start + j)) b v)) start
      = update (bitAt w data start) (w * j + b) v := by
  funext k
  have hk : k = w * (k / w) + k % w := (div_add_mod k w).symm
  have hmod : k % w < w := mod_lt _ (by omega)
  by_cases hkj : k / w = j
  · rw [hkj] at hk
    rw [bitAt, hkj, update_self, bit_putBit]
    by_cases hkb : k % w = b
    · rw [if_pos hkb, hk, hkb, update_self]
    · rw [if_neg hkb, update_of_ne (by omega), bitAt, hkj]
  · have hne : k ≠ w * j + b := by
      rintro rfl
      rw [mul_add_div (by omega), div_eq_of_lt hb] at hkj
      exact hkj rfl
    rw [bitAt, update_of_ne (by omega), update_of_ne hne, bitAt]

lemma bitAt_congr {data data' : Nat → Bytes} {start : Nat}
    (h : ∀ j < n, data (start + j) = data' (start + j)) (hk : k < w * n) :
    bitAt w data start k = bitAt w data' start k := by
  rw [bitAt, bitAt, h _ (Nat.div_lt_of_lt_mul hk)]

end Twilight.Bytes

/-
Byte buffers read and written at positions, and little-endian fields in them.

A buffer is a total function from positions to bytes.  Code that works on a
fixed array only looks at the positions of the array, so what the function says
past the end never matters, and every buffer operation is a pointwise
statement.  `splice` is the one write: it copies a source over a range.
-/
import Mathlib.Logic.Function.Basic
import Mathlib.Tactic.Ring
import Mathlib.Tactic.NormNum

namespace Twilight

abbrev Bytes := Nat → UInt8

namespace Bytes

def zero : Bytes := fun _ => 0

@[simp] lemma zero_apply (i : Nat) : zero i = 0 := rfl

def ofList (l : List UInt8) : Bytes := fun i => l.getD i 0

def splice (b : Bytes) (off len : Nat) (src : Bytes) : Bytes :=
  fun i => if off ≤ i ∧ i < off + len then src (i - off) else b i

variable {b src : Bytes} {off len i w o : Nat}

lemma splice_inside (h : off ≤ i) (h' : i < off + len) :
    splice b off len src i = src (i - off) := if_pos ⟨h, h'⟩

lemma splice_outside (h : i < off ∨ off + len ≤ i) :
    splice b off len src i = b i := if_neg (by omega)

lemma splice_at {j : Nat} (h : j < len) :
    splice b off len src (off + j) = src j := by
  rw [splice_inside (by omega) (by omega), Nat.add_sub_cancel_left]

/-- The `len` bytes at `off`, as a list. -/
def slice (b : Bytes) (off len : Nat) : List UInt8 := (List.range len).map fun i => b (off + i)

@[simp] lemma length_slice (b : Bytes) (off len : Nat) : (slice b off len).length = len := by
  simp [slice]

lemma getElem_slice (h : i < (slice b off len).length) : (slice b off len)[i] = b (off + i) := by
  simp [slice]

lemma slice_congr {a : Bytes} {off' : Nat}
    (h : ∀ i < len, a (off + i) = b (off' + i)) : slice a off len = slice b off' len := by
  refine List.map_congr_left fun i hi => h i ?_
  exact List.mem_range.mp hi

/-! ## Little-endian fields -/

/-- Byte `j` of the little-endian encoding of `n`. -/
def le (n : Nat) : Bytes := fun j => UInt8.ofNat (n / 256 ^ j)

/-- The number whose little-endian encoding is the `w` bytes at `off`. -/
def readLE (b : Bytes) : Nat → Nat → Nat
  | _, 0 => 0
  | off, w + 1 => (b off).toNat + 256 * readLE b (off + 1) w

/-- Store `n` in the `w` bytes at `off`. -/
def putLE (b : Bytes) (off w n : Nat) : Bytes := splice b off w (le n)

lemma readLE_lt (b : Bytes) (off w : Nat) : readLE b off w < 256 ^ w := by
  induction w generalizing off with
  | zero => simp [readLE]
  | succ w ih =>
    have hb := (b off).toNat_lt
    have hr := ih (off + 1)
    rw [readLE, Nat.pow_succ]
    omega

lemma readLE_congr {a : Bytes} {off' : Nat}
    (h : ∀ j < w, a (off + j) = b (off' + j)) : readLE a off w = readLE b off' w := by
  induction w generalizing off off' with
  | zero => rfl
  | succ w ih =>
    have h0 := h 0 (by omega)
    rw [Nat.add_zero, Nat.add_zero] at h0
    rw [readLE, readLE, h0, ih fun j hj => ?_]
    have hj' := h (j + 1) (by omega)
    rwa [show off + 1 + j = off + (j + 1) by omega, show off' + 1 + j = off' + (j + 1) by omega]

lemma readLE_of_le {n : Nat} (h : ∀ j < w, b (off + j) = le n j) :
    readLE b off w = n % 256 ^ w := by
  induction w generalizing off n with
  | zero => simp [readLE, Nat.mod_one]
  | succ w ih =>
    have h0 : b off = UInt8.ofNat n := by
      have := h 0 (by omega)
      simpa [le] using this
    have hrest : readLE b (off + 1) w = n / 256 % 256 ^ w := by
      refine ih fun j hj => ?_
      have hj' := h (j + 1) (by omega)
      rw [show off + 1 + j = off + (j + 1) by omega, hj', le, le, Nat.pow_succ,
        Nat.mul_comm (256 ^ j), Nat.div_div_eq_div_mul]
    rw [readLE, h0, hrest, Nat.pow_succ, Nat.mul_comm (256 ^ w), Nat.mod_mul, UInt8.toNat_ofNat']

lemma readLE_ofList (l r : List UInt8) (n w : Nat) :
    readLE (ofList (l ++ ((le n).slice 0 w ++ r))) l.length w = n % 256 ^ w := by
  refine readLE_of_le fun j hj => ?_
  rw [ofList, List.getD_eq_getElem?_getD, List.getElem?_append_right (Nat.le_add_right _ _),
    Nat.add_sub_cancel_left, List.getElem?_append_left (by simpa using hj)]
  simp [slice, hj]

lemma readLE_putLE (b : Bytes) (off w n : Nat) : readLE (putLE b off w n) off w = n % 256 ^ w :=
  readLE_of_le fun _ hj => splice_at hj

lemma readLE_splice_outside
    (h : o + w ≤ off ∨ off + len ≤ o) : readLE (splice b off len src) o w = readLE b o w :=
  readLE_congr fun _ _ => splice_outside (by omega)

lemma readLE_putLE_outside {n : Nat}
    (h : o + w ≤ off ∨ off + len ≤ o) : readLE (putLE b off len n) o w = readLE b o w :=
  readLE_splice_outside h

lemma readLE_splice_inside (h : off ≤ o) (h' : o + w ≤ off + len) :
    readLE (splice b off len src) o w = readLE src (o - off) w := by
  refine readLE_congr fun j hj => ?_
  rw [splice_inside (by omega) (by omega)]
  congr 1
  omega

lemma readLE_zero (off w : Nat) : readLE zero off w = 0 := by
  induction w generalizing off with
  | zero => rfl
  | succ w ih => rw [readLE, ih]; rfl

end Bytes

end Twilight

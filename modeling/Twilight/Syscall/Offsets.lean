/-
The offset of an open file. `lseek` knows an offset only for `SEEK_SET`, where it takes a negative one
for a large one; `SEEK_CUR` and `SEEK_END` go without. `read` and `write` move the offset by what
they return, but `write` takes the end of the file for it first where the file was opened to append.
-/
import Mathlib
import Twilight.Lib.Machine

namespace Twilight.Offsets

open BitVec

inductive FileKind
  | regular
  | memfd
deriving DecidableEq

abbrev Usize := Fin (2 ^ 64)

/-- `size` is `metadata.size` of the node, or `len` of the memfd. -/
structure OpenFile where
  kind : FileKind
  readable : Bool
  writable : Bool
  append : Bool
  seek : Usize
  size : Usize
deriving DecidableEq

/-- `read` and `write` have the length of the buffer and the answer of what lies below: the bytes
that the node read, and whether the node wrote or there was memory for the memfd. -/
inductive Call
  | lseek (offset : BitVec 64) (whence : UInt8)
  | read (len : Nat) (node : Option Nat)
  | write (len : Nat) (done : Bool)

namespace OpenFile

def saturatingAdd (a : Usize) (b : Nat) : Usize := ⟨min (a + b) (2 ^ 64 - 1), by omega⟩

def toI64 (n : Usize) : Int := (BitVec.ofFin n).toInt

variable (f : OpenFile)

def lseek (offset : BitVec 64) (whence : UInt8) : Int × OpenFile :=
  if whence = 0 then (toI64 offset.toFin, { f with seek := offset.toFin })
  else if whence = 1 then (toI64 f.seek, f)
  else if whence = 2 then (toI64 f.size, { f with seek := f.size })
  else (-22, f)

def readAt (size offset : Usize) (len : Nat) : Nat :=
  if size ≤ offset ∨ len = 0 then 0 else min len (size - offset)

def read (len : Nat) (node : Option Nat) : Int × OpenFile :=
  if f.readable = false then (-9, f)
  else
    match f.kind, node with
    | .regular, some n => (n, { f with seek := saturatingAdd f.seek n })
    | .regular, none => (-5, f)
    | .memfd, _ =>
      let n := readAt f.size f.seek len
      (n, { f with seek := saturatingAdd f.seek n })

def start : Usize := if f.append then f.size else f.seek

def grown (stop : Usize) : Usize := if f.size < stop then stop else f.size

def write (len : Nat) (done : Bool) : Int × OpenFile :=
  if f.writable = false then (-9, f)
  else
    match f.kind with
    | .regular =>
      let stop := saturatingAdd f.start len
      if done then (len, { f with seek := stop, size := f.grown stop }) else (-5, f)
    | .memfd =>
      if len = 0 then (0, { f with seek := f.start })
      else if h : f.start + len < 2 ^ 64 then
        let stop : Usize := ⟨f.start + len, h⟩
        if f.size < stop ∧ done = false then (-5, f)
        else (len, { f with seek := stop, size := f.grown stop })
      else (-22, f)

def call : Call → Int × OpenFile
  | .lseek offset whence => f.lseek offset whence
  | .read len node => f.read len node
  | .write len done => f.write len done

end OpenFile

/-- An open file, and the size that it has with all that was written through it. -/
structure State where
  file : OpenFile
  size : Nat

def State.step (s : State) (c : Call) : State where
  file := (s.file.call c).2
  size :=
    match c with
    | .write len _ =>
      if 0 < (s.file.call c).1 then max s.size (s.file.start + len) else s.size
    | _ => s.size

/-- `lseek` goes to `offset` from `base`, if that is not negative. -/
def GoesTo (f : OpenFile) (base : Nat) (offset : Int) (r : Int × OpenFile) : Prop :=
  if base + offset < 0 then r = (-22, f)
  else r.1 = base + offset ∧ (r.2.seek : Int) = base + offset

instance (f : OpenFile) (base : Nat) (offset : Int) (r : Int × OpenFile) :
    Decidable (GoesTo f base offset r) := by
  unfold GoesTo
  infer_instance

def Follows (s : State) : Call → Prop
  | .lseek offset whence =>
    let r := s.file.lseek offset whence
    (whence = 0 → GoesTo s.file 0 offset.toInt r) ∧
      (whence = 1 → GoesTo s.file s.file.seek offset.toInt r) ∧
      (whence = 2 → GoesTo s.file s.size offset.toInt r)
  | c => 0 ≤ (s.file.call c).1 →
    ((s.file.call c).2.seek : Int) = s.file.seek + (s.file.call c).1

/-- No offset but for `SEEK_SET`, and none that is negative; a `write` that appends is at the end of
the file, and one of no bytes is not after it; no offset leaves its type. -/
def Plain (s : State) : Call → Prop
  | .lseek offset whence => (whence = 0 → 0 ≤ offset.toInt) ∧
    (whence = 1 → offset = 0 ∧ s.file.seek < 2 ^ 63) ∧
    (whence = 2 → offset = 0 ∧ s.file.size < 2 ^ 63)
  | .read _ node => s.file.kind = .regular → ∀ n, node = some n → s.file.seek + n < 2 ^ 64
  | .write len _ => (s.file.append = true → s.file.seek = s.file.size) ∧
    (s.file.kind = .regular → s.file.seek + len < 2 ^ 64 ∧ (0 < len ∨ s.file.seek.val ≤ s.file.size))

instance (s : State) (c : Call) : Decidable (Plain s c) := by
  cases c with
  | read len node => cases node <;> unfold Plain <;> infer_instance
  | _ => unfold Plain; infer_instance

lemma saturatingAdd_eq {a : Usize} {b : Nat} (h : a + b < 2 ^ 64) :
    (OpenFile.saturatingAdd a b : Nat) = a + b := by
  show min (a + b) (2 ^ 64 - 1) = a + b
  omega

lemma grown_eq (f : OpenFile) (stop : Usize) : (f.grown stop : Nat) = max f.size.val stop := by
  unfold OpenFile.grown
  split
  · next h => exact (Nat.max_eq_right (Nat.le_of_lt h)).symm
  · next h => exact (Nat.max_eq_left (Nat.le_of_not_lt h)).symm

lemma toI64_eq {n : Usize} (h : (n : Nat) < 2 ^ 63) : OpenFile.toI64 n = n := by
  rw [OpenFile.toI64, toInt_eq_toNat_cond, toNat_ofFin]
  split <;> omega

section Steps

variable {s : State}

lemma start_eq (happend : s.file.append = true → s.file.seek = s.file.size) :
    s.file.start = s.file.seek := by
  unfold OpenFile.start
  split
  · next h => exact (happend h).symm
  · rfl

lemma follows_lseek {offset : BitVec 64} {whence : UInt8} (hsize : s.file.size = s.size)
    (h : Plain s (.lseek offset whence)) : Follows s (.lseek offset whence) := by
  have hzero : ∀ {base : Nat}, offset = 0 → ¬ (base : Int) + offset.toInt < 0 ∧
      (base : Int) + offset.toInt = base := by
    rintro base rfl
    simp
  refine ⟨?_, ?_, ?_⟩
  · rintro rfl
    have hnat := toInt_eq_toNat_cond offset
    have hpos := h.1 rfl
    rw [GoesTo, if_neg (by omega)]
    have hlt : offset.toNat < 2 ^ 63 := by
      have := offset.isLt
      split at hnat <;> omega
    show OpenFile.toI64 offset.toFin = _ ∧ (offset.toNat : Int) = _
    rw [toI64_eq hlt, val_toFin]
    split at hnat <;> omega
  · rintro rfl
    obtain ⟨hoffset, hlt⟩ := h.2.1 rfl
    rw [GoesTo, if_neg (hzero hoffset).1, (hzero hoffset).2]
    exact ⟨toI64_eq hlt, rfl⟩
  · rintro rfl
    obtain ⟨hoffset, hlt⟩ := h.2.2 rfl
    rw [GoesTo, if_neg (hzero hoffset).1, (hzero hoffset).2, ← hsize]
    exact ⟨toI64_eq hlt, rfl⟩

lemma follows_read {len : Nat} {node : Option Nat} (h : Plain s (.read len node)) :
    Follows s (.read len node) ∧ (s.file.read len node).2.size = s.file.size := by
  have hmoves : ∀ n : Nat, s.file.seek + n < 2 ^ 64 →
      (OpenFile.saturatingAdd s.file.seek n : Int) = s.file.seek + n := by
    intro n hn
    rw [saturatingAdd_eq hn, Int.natCast_add]
  show (0 ≤ (s.file.read len node).1 →
    ((s.file.read len node).2.seek : Int) = s.file.seek + (s.file.read len node).1) ∧ _
  unfold OpenFile.read
  split
  · exact ⟨fun hneg => by simp at hneg, rfl⟩
  split
  · next n hkind => exact ⟨fun _ => hmoves n (h hkind n rfl), rfl⟩
  · exact ⟨fun hneg => by simp at hneg, rfl⟩
  refine ⟨fun _ => ?_, rfl⟩
  dsimp only
  -- what the memfd returns is inside it, unless it is nothing
  refine hmoves _ ?_
  have hseek := s.file.seek.isLt
  have hsize := s.file.size.isLt
  unfold OpenFile.readAt
  split <;> omega

lemma follows_write {len : Nat} {done : Bool} (hsize : s.file.size = s.size)
    (h : Plain s (.write len done)) :
    Follows s (.write len done) ∧
      (s.step (.write len done)).file.size = (s.step (.write len done)).size := by
  have hstart := start_eq h.1
  show (0 ≤ (s.file.write len done).1 →
    ((s.file.write len done).2.seek : Int) = s.file.seek + (s.file.write len done).1) ∧
    (s.file.write len done).2.size =
      if 0 < (s.file.write len done).1 then max s.size (s.file.start + len) else s.size
  unfold OpenFile.write
  rw [hstart]
  split
  · exact ⟨fun hneg => by simp at hneg, hsize⟩
  cases hkind : s.file.kind with
  | regular =>
    obtain ⟨hlt, hlen⟩ := h.2 hkind
    have hstop := saturatingAdd_eq hlt
    dsimp only
    split
    · refine ⟨fun _ => by rw [hstop, Int.natCast_add], ?_⟩
      dsimp only
      rw [grown_eq, hstop, hsize]
      split
      · rfl
      · exact Nat.max_eq_left (by omega)
    · exact ⟨fun hneg => by simp at hneg, hsize⟩
  | memfd =>
    dsimp only
    split
    · exact ⟨fun _ => (Int.add_zero _).symm, hsize⟩
    split
    · split
      · exact ⟨fun hneg => by simp at hneg, hsize⟩
      · refine ⟨fun _ => Int.natCast_add _ _, ?_⟩
        dsimp only
        rw [grown_eq, hsize, if_pos (by omega)]
    · exact ⟨fun hneg => by simp at hneg, hsize⟩

end Steps

/-- In a run of plain calls on a file that is open with its size, every call does as POSIX says. -/
theorem follows_of_plain (f : OpenFile) (calls : List Call)
    (h : Machine.Meets State.step Plain ⟨f, f.size⟩ calls) :
    Machine.Meets State.step Follows ⟨f, f.size⟩ calls := by
  refine h.of_inv (fun s : State => s.file.size = s.size) (fun s c hsize hplain => ?_) rfl
  cases c with
  | lseek offset whence =>
    refine ⟨follows_lseek hsize hplain, ?_⟩
    show (s.file.lseek offset whence).2.size = s.size
    unfold OpenFile.lseek
    split
    · exact hsize
    split
    · exact hsize
    split
    · exact hsize
    · exact hsize
  | read len node =>
    obtain ⟨hfollows, hsame⟩ := follows_read hplain
    exact ⟨hfollows, (congrArg Fin.val hsame).trans hsize⟩
  | write len done => exact follows_write hsize hplain

/-- Ten bytes are written at 3, and the file is rewound and read. -/
theorem follows_rewound :
    Machine.Meets State.step Follows ⟨⟨.regular, true, true, false, 0, 0⟩, 0⟩
      [.lseek 3 0, .write 10 true, .lseek 0 2, .lseek 0 0, .read 20 (some 13)] :=
  follows_of_plain _ _ (by decide)

/-- `lseek(fd, -5, SEEK_CUR)` after ten bytes stays at 10, `lseek(fd, -5, SEEK_END)` goes to 10, and
`lseek(fd, -5, SEEK_SET)` goes to `2^64 - 5`. -/
theorem negative_offsets :
    let s : State := ⟨⟨.regular, true, true, false, 10, 10⟩, 10⟩
    (s.file.lseek (-5) 1).1 = 10 ∧ (s.file.lseek (-5) 2).1 = 10 ∧
      (s.file.lseek (-5) 0).2.seek = 2 ^ 64 - 5 ∧
      ¬ Follows s (.lseek (-5) 1) ∧ ¬ Follows s (.lseek (-5) 2) ∧ ¬ Follows s (.lseek (-5) 0) := by
  refine ⟨by decide, by decide, by decide, fun h => ?_, fun h => ?_, fun h => ?_⟩
  · exact absurd (h.2.1 rfl) (by decide)
  · exact absurd (h.2.2 rfl) (by decide)
  · exact absurd (h.1 rfl) (by decide)

end Twilight.Offsets

/-
Mounting the initramfs.

`InitramfsFs::new` takes the entries of a cpio archive one after the other and puts them into a tree.
At an error the iterator stays where it is, and the loop goes on after every error but the trailer.
So it ends on the archives that consist of entries up to their end or a trailer, and on no others.
-/
import Mathlib.Logic.Function.Basic
import Twilight.Lib.Str

namespace Twilight.Initramfs

open Function

/-! ## The archive -/

/-- `CpioNewCHeader::SIZE` -/
def headerSize : Nat := 110

structure CpioNewCHeader where
  magic : List UInt8
  mode : List UInt8
  filesize : List UInt8
  namesize : List UInt8
deriving DecidableEq

variable (buf : List UInt8)

/-- After the magic there are 13 fields of 8 bytes. -/
def CpioNewCHeader.fromBytes : CpioNewCHeader :=
  let field (k : Nat) := (buf.drop (6 + 8 * k)).take 8
  ⟨buf.take 6, field 1, field 6, field 11⟩

def hexDigit (c : UInt8) : Option Nat :=
  if 48 ≤ c ∧ c ≤ 57 then some (c.toNat - 48)
  else if 97 ≤ c ∧ c ≤ 102 then some (c.toNat - 97 + 10)
  else if 65 ≤ c ∧ c ≤ 70 then some (c.toNat - 65 + 10)
  else none

/-- Eight digits stay far below `u64`. -/
def hexToU64 (b : List UInt8) : Option Nat :=
  b.foldlM (fun acc c => (hexDigit c).map (acc * 16 + ·)) 0

structure CpioEntry where
  header : CpioNewCHeader
  rawName : List UInt8
  data : List UInt8
deriving DecidableEq

variable (e : CpioEntry)

def CpioEntry.filename : Option Str :=
  let name := if e.rawName.getLast? = some 0 then e.rawName.dropLast else e.rawName
  if Str.utf8Valid name then some name else none

inductive CpioError
  | truncated
  | badMagic
  | hexParseFailed
  | trailer
deriving DecidableEq

def magic : List UInt8 := [48, 55, 48, 55, 48, 49]

def trailerName : List UInt8 := [84, 82, 65, 73, 76, 69, 82, 33, 33, 33]

def align4 (x : Nat) : Nat := (4 - x % 4) % 4

/-- Where the data of the entry at `pos` starts, and where the next entry does. -/
def dataStart (pos namesize : Nat) : Nat :=
  pos + headerSize + namesize + align4 (headerSize + namesize)

def nextPos (pos namesize filesize : Nat) : Nat :=
  dataStart pos namesize + filesize + align4 filesize

def rawName (pos namesize : Nat) : List UInt8 := (buf.drop (pos + headerSize)).take namesize

def isTrailer (name : List UInt8) : Bool := name = trailerName ++ [0] || name = trailerName

/-- `CpioIterator::next` at `pos`, with the position after it. -/
def next (pos : Nat) : Option (Except CpioError CpioEntry) × Nat :=
  if buf.length ≤ pos then (none, pos)
  else if buf.length - pos < headerSize then (some (.error .truncated), pos)
  else
    let hdr := CpioNewCHeader.fromBytes (buf.drop pos)
    if hdr.magic ≠ magic then (some (.error .badMagic), pos)
    else
      match hexToU64 hdr.namesize, hexToU64 hdr.filesize with
      | some namesize, some filesize =>
        if buf.length < pos + headerSize + namesize then (some (.error .truncated), pos)
        else if buf.length < dataStart pos namesize then (some (.error .truncated), pos)
        else if buf.length < dataStart pos namesize + filesize then
          (some (.error .truncated), pos)
        else if isTrailer (rawName buf pos namesize) then (some (.error .trailer), buf.length)
        else
          let data := (buf.drop (dataStart pos namesize)).take filesize
          (some (.ok ⟨hdr, rawName buf pos namesize, data⟩), nextPos pos namesize filesize)
      | _, _ => (some (.error .hexParseFailed), pos)

/-! ## The tree -/

inductive Node
  | file (data : List UInt8)
  | dir (children : Str → Option Node)
  | symlink (target : Str)

abbrev Children := Str → Option Node

/-- The file type of the mode, `0` if there is none. -/
def CpioEntry.fileType : Nat := ((hexToU64 e.header.mode).getD 0) &&& 0o170000

def putLast (comp : Str) (current : Children) : Children :=
  if e.fileType = 0o040000 then
    if (current comp).isSome then current
    else update current comp (some (.dir fun _ => none))
  else if e.fileType = 0o120000 then
    update current comp (some (.symlink (if Str.utf8Valid e.data then e.data else [])))
  else if e.fileType = 0o100000 then update current comp (some (.file e.data))
  else current

/-- The loop over the components of a name; a component that is no directory ends it. -/
def insert (e : CpioEntry) : List Str → Children → Children
  | [], current => current
  | [comp], current => putLast e comp current
  | comp :: rest, current =>
    match current comp with
    | none => update current comp (some (.dir (insert e rest fun _ => none)))
    | some (.dir children) => update current comp (some (.dir (insert e rest children)))
    | some _ => current

/-- A name that is not UTF-8 or has no component is skipped. -/
def addEntry (root : Children) : Children :=
  match e.filename with
  | some name => insert e (Str.components name) root
  | none => root

/-- The loop of `InitramfsFs::new`, for `fuel` turns. -/
def loop (buf : List UInt8) : Nat → Nat → Children → Option Children
  | 0, _, _ => none
  | fuel + 1, pos, root =>
    match next buf pos with
    | (none, _) => some root
    | (some (.ok e), pos') => loop buf fuel pos' (addEntry e root)
    | (some (.error .trailer), _) => some root
    | (some (.error _), pos') => loop buf fuel pos' root

def new (fuel : Nat) (buf : List UInt8) : Option Node := (loop buf fuel 0 fun _ => none).map .dir

/-! ## Termination -/

/-- There is an entry at `pos`, with a name and data of these sizes in the archive. -/
structure EntryAt (buf : List UInt8) (pos namesize filesize : Nat) : Prop where
  magic : (CpioNewCHeader.fromBytes (buf.drop pos)).magic = magic
  name : hexToU64 (CpioNewCHeader.fromBytes (buf.drop pos)).namesize = some namesize
  file : hexToU64 (CpioNewCHeader.fromBytes (buf.drop pos)).filesize = some filesize
  fits : dataStart pos namesize + filesize ≤ buf.length

/-- From `pos` on there are entries, up to the end of the archive or a trailer. -/
inductive Entries (buf : List UInt8) : Nat → Prop
  | finished {pos : Nat} (h : buf.length ≤ pos) : Entries buf pos
  | trailer {pos namesize filesize : Nat} (h : EntryAt buf pos namesize filesize)
      (ht : isTrailer (rawName buf pos namesize) = true) : Entries buf pos
  | entry {pos namesize filesize : Nat} (h : EntryAt buf pos namesize filesize)
      (hnext : Entries buf (nextPos pos namesize filesize)) : Entries buf pos

variable {buf : List UInt8} {pos namesize filesize : Nat}

lemma next_of_entryAt (h : EntryAt buf pos namesize filesize) :
    next buf pos =
      if isTrailer (rawName buf pos namesize) then (some (.error .trailer), buf.length)
      else (some (.ok ⟨CpioNewCHeader.fromBytes (buf.drop pos), rawName buf pos namesize,
        (buf.drop (dataStart pos namesize)).take filesize⟩), nextPos pos namesize filesize) := by
  have hfits := h.fits
  have hstart : pos + headerSize + namesize ≤ dataStart pos namesize := Nat.le_add_right _ _
  have hsize : headerSize = 110 := rfl
  rw [next, if_neg (by omega), if_neg (by omega)]
  simp only [h.magic, ne_eq, not_true_eq_false, if_false, h.name, h.file]
  rw [if_neg (by omega), if_neg (by omega), if_neg (by omega)]

lemma next_stays (hpos : pos < buf.length)
    (h : ∀ namesize filesize, ¬ EntryAt buf pos namesize filesize) :
    ∃ e, e ≠ .trailer ∧ next buf pos = (some (.error e), pos) := by
  rw [next, if_neg (Nat.not_le.mpr hpos)]
  split
  · exact ⟨.truncated, nofun, rfl⟩
  dsimp only
  split
  · exact ⟨.badMagic, nofun, rfl⟩
  next hmagic =>
  split
  · next namesize filesize hname hfile =>
    split
    · exact ⟨.truncated, nofun, rfl⟩
    split
    · exact ⟨.truncated, nofun, rfl⟩
    split
    · exact ⟨.truncated, nofun, rfl⟩
    next hfits =>
    exact absurd ⟨not_not.mp hmagic, hname, hfile, Nat.not_lt.mp hfits⟩ (h namesize filesize)
  · exact ⟨.hexParseFailed, nofun, rfl⟩

lemma loop_stuck {e : CpioError} (he : e ≠ .trailer) (h : next buf pos = (some (.error e), pos))
    (fuel : Nat) (root : Children) : loop buf fuel pos root = none := by
  induction fuel with
  | zero => rfl
  | succ fuel ih =>
    cases e with
    | trailer => exact absurd rfl he
    | _ => simpa only [loop, h] using ih

lemma entries_of_loop {fuel : Nat} {root tree : Children} (h : loop buf fuel pos root = some tree) :
    Entries buf pos := by
  induction fuel generalizing pos root with
  | zero => cases h
  | succ fuel ih =>
    by_cases hpos : buf.length ≤ pos
    · exact .finished hpos
    by_cases hentry : ∃ namesize filesize, EntryAt buf pos namesize filesize
    · obtain ⟨namesize, filesize, hentry⟩ := hentry
      have hnext := next_of_entryAt hentry
      by_cases ht : isTrailer (rawName buf pos namesize) = true
      · exact .trailer hentry ht
      · rw [if_neg ht] at hnext
        rw [loop, hnext] at h
        exact .entry hentry (ih h)
    · obtain ⟨e, he, hstays⟩ := next_stays (Nat.not_le.mp hpos) fun namesize filesize hat =>
        hentry ⟨namesize, filesize, hat⟩
      rw [loop_stuck he hstays] at h
      cases h

lemma loop_of_entries (h : Entries buf pos) (root : Children) :
    ∃ fuel tree, loop buf fuel pos root = some tree := by
  induction h generalizing root with
  | finished hpos => exact ⟨1, root, by rw [loop, next, if_pos hpos]⟩
  | trailer hentry ht => exact ⟨1, root, by rw [loop, next_of_entryAt hentry, if_pos ht]⟩
  | @entry pos namesize filesize hentry _ ih =>
    by_cases ht : isTrailer (rawName buf pos namesize) = true
    · exact ⟨1, root, by rw [loop, next_of_entryAt hentry, if_pos ht]⟩
    · obtain ⟨fuel, tree, hloop⟩ := ih (addEntry _ root)
      exact ⟨fuel + 1, tree, by rw [loop, next_of_entryAt hentry, if_neg ht]; exact hloop⟩

/-- An archive is mounted, after some number of turns, exactly if it consists of entries up to its
end or a trailer. -/
theorem mounts_iff_entries (buf : List UInt8) :
    (∃ fuel fs, new fuel buf = some fs) ↔ Entries buf 0 := by
  constructor
  · rintro ⟨fuel, fs, h⟩
    obtain ⟨tree, hloop, -⟩ := Option.map_eq_some_iff.mp h
    exact entries_of_loop hloop
  · intro h
    obtain ⟨fuel, tree, hloop⟩ := loop_of_entries h fun _ => none
    exact ⟨fuel, .dir tree, by rw [new, hloop]; rfl⟩

/-- An archive of one byte is read for ever. -/
theorem truncated_never_mounts : ¬ ∃ fuel fs, new fuel [48] = some fs := by
  rintro ⟨fuel, fs, h⟩
  rw [new, loop_stuck (e := .truncated) nofun rfl] at h
  cases h

end Twilight.Initramfs

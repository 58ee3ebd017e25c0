/-
The three caches a mounted TwilightFS shares with its open nodes.

Every cache operation first compares the cache's generation with the shared one
and forgets everything when they differ.  `Versioned.current` is what a cache holds
once that comparison has been made, and it is all that later modules look at.
-/
import Twilight.Lib.Fifo
import Twilight.Lib.Str

namespace Twilight.Fs

def pathLookupCacheCapacity : Nat := 1024
def fileCacheMaxTotalBytes : Nat := 32 * 1024 * 1024
def fileCacheMaxFileBytes : Nat := 8 * 1024 * 1024
def dirIndexCacheCapacity : Nat := 512

structure Versioned (α : Type) where
  generation : Nat
  val : α

namespace Versioned

variable {α : Type} (empty : α) (c : Versioned α) (generation : Nat)

/-- `ensure_generation`, for a cache whose empty state is `empty`. -/
def ensureGeneration : Versioned α := if c.generation ≠ generation then ⟨generation, empty⟩ else c

def current : α := (c.ensureGeneration empty generation).val

lemma ensureGeneration_generation (g : Nat) :
    (c.ensureGeneration empty g).generation = g := by
  unfold ensureGeneration
  split
  · rfl
  · exact of_not_not ‹_›

def update (f : α → α) : Versioned α :=
  let c' := c.ensureGeneration empty generation
  { c' with val := f c'.val }

lemma update_generation_le (g : Nat) (f : α → α) : (c.update empty g f).generation ≤ g :=
  Nat.le_of_eq (ensureGeneration_generation empty c g)

lemma current_of_lt {empty : α} {c : Versioned α} {g : Nat} (h : c.generation < g) :
    c.current empty g = empty := by
  rw [current, ensureGeneration, if_pos (Nat.ne_of_lt h)]

@[simp] lemma current_update (g : Nat) (f : α → α) :
    (c.update empty g f).current empty g = f (c.current empty g) := by
  have hg : (c.update empty g f).generation = g := ensureGeneration_generation empty c g
  rw [current, ensureGeneration, if_neg (by simpa using hg)]
  rfl

end Versioned

/-! ## Cached paths -/

abbrev PathLookupCache := Fifo Str Nat

namespace PathLookupCache

/-- The paths `remove_prefix` drops: the path itself and everything below it. -/
def isMatch (pfx path : Str) : Bool :=
  path == pfx || (pfx.isPrefixOf path && (path.drop pfx.length).head? == some Str.slash)

def removePrefix (c : PathLookupCache) (pfx : Str) : PathLookupCache :=
  c.retain fun path => !isMatch pfx path

end PathLookupCache

/-! ## Cached file contents -/

structure FileContentCache where
  totalBytes : Nat
  map : Nat → Option (List UInt8)
  order : List Nat

namespace FileContentCache

def empty : FileContentCache := ⟨0, fun _ => none, []⟩

variable (c : FileContentCache)

def getSlice (inodeNo offset len : Nat) : Option (List UInt8) :=
  (c.map inodeNo).map fun data => (data.drop offset).take len

def evict (size : Nat) : Nat → (Nat → Option (List UInt8)) → List Nat → FileContentCache
  | total, m, [] => ⟨total, m, []⟩
  | total, m, k :: rest =>
    if fileCacheMaxTotalBytes < total + size then
      match m k with
      | some old => evict size (total - old.length) (Function.update m k none) rest
      | none => evict size total m rest
    else ⟨total, m, k :: rest⟩

def insert (inodeNo : Nat) (data : List UInt8) : FileContentCache :=
  let size := data.length
  if size = 0 ∨ fileCacheMaxFileBytes < size ∨ fileCacheMaxTotalBytes < size then c
  else if (c.map inodeNo).isSome then c
  else
    let c' := evict size c.totalBytes c.map c.order
    ⟨c'.totalBytes + size, Function.update c'.map inodeNo (some data), c'.order ++ [inodeNo]⟩

def invalidateInode (inodeNo : Nat) : FileContentCache :=
  ⟨c.totalBytes - ((c.map inodeNo).elim 0 List.length),
    Function.update c.map inodeNo none, c.order.filter (· ≠ inodeNo)⟩

lemma evict_map_sub {size total : Nat} {m : Nat → Option (List UInt8)} {l : List Nat} {k : Nat}
    {d : List UInt8} (h : (evict size total m l).map k = some d) : m k = some d := by
  induction l generalizing total m with
  | nil => exact h
  | cons a rest ih =>
    rw [evict] at h
    split at h
    · split at h
      · have hk := ih h
        by_cases hka : k = a
        · subst hka; simp at hk
        · rwa [Function.update_of_ne hka] at hk
      · exact ih h
    · exact h

lemma insert_map_sub {c : FileContentCache} {n k : Nat} {data d : List UInt8}
    (h : (c.insert n data).map k = some d) : (k = n ∧ d = data) ∨ c.map k = some d := by
  unfold insert at h
  simp only at h
  split at h
  · exact .inr h
  split at h
  · exact .inr h
  by_cases hk : k = n
  · subst hk
    simp only [Function.update_self, Option.some.injEq] at h
    exact .inl ⟨rfl, h.symm⟩
  · simp only [Function.update_of_ne hk] at h
    exact .inr (evict_map_sub h)

@[simp] lemma invalidateInode_map (n k : Nat) :
    (c.invalidateInode n).map k = if k = n then none else c.map k := by
  by_cases hk : k = n
  · subst hk; simp [invalidateInode]
  · simp [invalidateInode, hk]

end FileContentCache

/-! ## Cached directory indexes -/

structure DirIndexEntry where
  names : Str → Option Nat
  nextFreeSlotHint : Nat

abbrev DirIndexCache := Fifo Nat DirIndexEntry

namespace DirIndexCache

variable (c : DirIndexCache) (parent : Nat) (name : Str)

def lookup : Option Nat := (c.map parent).bind fun entry => entry.names name

def updateAfterInsert (ino hint : Nat) :
    DirIndexCache :=
  c.adjust parent fun entry => ⟨Function.update entry.names name (some ino), hint⟩

def removeName : DirIndexCache :=
  c.adjust parent fun entry => ⟨Function.update entry.names name none, 0⟩

def rename (oldParent : Nat) (oldName : Str) (newParent : Nat)
    (newName : Str) (ino : Nat) : DirIndexCache :=
  updateAfterInsert (removeName c oldParent oldName) newParent newName ino 0

end DirIndexCache

/-- `TwilightFsShared`; no cache is ahead of the shared generation. -/
structure Shared where
  generation : Nat
  lookupCache : Versioned PathLookupCache
  fileCache : Versioned FileContentCache
  dirIndexCache : Versioned DirIndexCache
  lookupStamp : lookupCache.generation ≤ generation
  fileStamp : fileCache.generation ≤ generation
  dirIndexStamp : dirIndexCache.generation ≤ generation

namespace Shared

def new : Shared where
  generation := 0
  lookupCache := ⟨0, Fifo.empty⟩
  fileCache := ⟨0, FileContentCache.empty⟩
  dirIndexCache := ⟨0, Fifo.empty⟩
  lookupStamp := Nat.le_refl 0
  fileStamp := Nat.le_refl 0
  dirIndexStamp := Nat.le_refl 0

variable (sh : Shared)

def paths : PathLookupCache := sh.lookupCache.current Fifo.empty sh.generation
def files : FileContentCache := sh.fileCache.current FileContentCache.empty sh.generation
def dirs : DirIndexCache := sh.dirIndexCache.current Fifo.empty sh.generation

def updatePaths (f : PathLookupCache → PathLookupCache) : Shared :=
  { sh with
    lookupCache := sh.lookupCache.update Fifo.empty sh.generation f
    lookupStamp := Versioned.update_generation_le .. }

def updateFiles (f : FileContentCache → FileContentCache) : Shared :=
  { sh with
    fileCache := sh.fileCache.update FileContentCache.empty sh.generation f
    fileStamp := Versioned.update_generation_le .. }

def updateDirs (f : DirIndexCache → DirIndexCache) : Shared :=
  { sh with
    dirIndexCache := sh.dirIndexCache.update Fifo.empty sh.generation f
    dirIndexStamp := Versioned.update_generation_le .. }

/-- `invalidate_namespace`: a new generation, and the file cache is cleared at once. -/
def invalidateNamespace : Shared :=
  { sh with
    generation := sh.generation + 1
    fileCache := { sh.fileCache with val := FileContentCache.empty }
    lookupStamp := Nat.le_succ_of_le sh.lookupStamp
    fileStamp := Nat.le_succ_of_le sh.fileStamp
    dirIndexStamp := Nat.le_succ_of_le sh.dirIndexStamp }

@[simp] lemma paths_updatePaths (f) : (sh.updatePaths f).paths = f sh.paths :=
  Versioned.current_update ..
@[simp] lemma files_updatePaths (f) : (sh.updatePaths f).files = sh.files := rfl
@[simp] lemma dirs_updatePaths (f) : (sh.updatePaths f).dirs = sh.dirs := rfl

@[simp] lemma paths_updateFiles (f) : (sh.updateFiles f).paths = sh.paths := rfl
@[simp] lemma files_updateFiles (f) : (sh.updateFiles f).files = f sh.files :=
  Versioned.current_update ..
@[simp] lemma dirs_updateFiles (f) : (sh.updateFiles f).dirs = sh.dirs := rfl

@[simp] lemma paths_updateDirs (f) : (sh.updateDirs f).paths = sh.paths := rfl
@[simp] lemma files_updateDirs (f) : (sh.updateDirs f).files = sh.files := rfl
@[simp] lemma dirs_updateDirs (f) : (sh.updateDirs f).dirs = f sh.dirs :=
  Versioned.current_update ..

@[simp] lemma paths_invalidateNamespace : sh.invalidateNamespace.paths = Fifo.empty :=
  Versioned.current_of_lt (Nat.lt_succ_of_le sh.lookupStamp)
@[simp] lemma files_invalidateNamespace : sh.invalidateNamespace.files = FileContentCache.empty :=
  Versioned.current_of_lt (Nat.lt_succ_of_le sh.fileStamp)
@[simp] lemma dirs_invalidateNamespace : sh.invalidateNamespace.dirs = Fifo.empty :=
  Versioned.current_of_lt (Nat.lt_succ_of_le sh.dirIndexStamp)

end Shared
end Twilight.Fs

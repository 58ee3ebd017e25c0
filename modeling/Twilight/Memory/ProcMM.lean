/-
The memory map of a process: its `mmap` regions and the regions of its ELF image, the plan for a
page fault, and the removal and protection of a range of addresses. Addresses and lengths are
`usize` values; where the source adds with a check, saturates or wraps, so does the model.
-/
import Mathlib

namespace Twilight.Memory

/-! ## Machine words -/

variable (a b : Nat)

def checkedAdd : Option Nat := if a + b < 2 ^ 64 then some (a + b) else none

def saturatingAdd : Nat := min (a + b) (2 ^ 64 - 1)

def wrappingAdd : Nat := (a + b) % 2 ^ 64

def wrappingSub : Nat := (a + (2 ^ 64 - b)) % 2 ^ 64

def page : Nat := 4096

/-- `align_up` to a page. The sum wraps around, so that a length within a page of `2 ^ 64`
becomes zero. -/
def alignUp (x : Nat) : Nat := wrappingAdd x (page - 1) / page * page

def userMmapBase : Nat := 0x4000_0000_0000

def userUpper : Nat := 0x7FFF_F000_0000

/-! ## Regions -/

structure VmPermissions where
  read : Bool
  write : Bool
  execute : Bool
deriving DecidableEq

namespace VmPermissions

def none : VmPermissions := ⟨false, false, false⟩

def fromProt (prot : BitVec 64) : VmPermissions := ⟨prot &&& 1 ≠ 0, prot &&& 2 ≠ 0, prot &&& 4 ≠ 0⟩

def union (p q : VmPermissions) : VmPermissions :=
  ⟨p.read || q.read, p.write || q.write, p.execute || q.execute⟩

end VmPermissions

inductive MmapKind where
  | anonymous
  | owned
  | shared
deriving DecidableEq

/-- `memfd` names the memory file a shared region keeps alive. -/
structure MmapRegion where
  base : Nat
  len : Nat
  kind : MmapKind
  permissions : VmPermissions
  memfd : Option Nat
deriving DecidableEq

/-- A region of an ELF image. The address `fileBase` shows byte `fileOffset` of the file, and the
file's part of the region ends at the address `fileEnd`. -/
structure ElfRegion (F : Type) where
  base : Nat
  len : Nat
  fileBase : Nat
  fileOffset : Nat
  fileEnd : Nat
  permissions : VmPermissions
  file : F
deriving DecidableEq

structure ElfPageFragment (F : Type) where
  file : F
  fileOffset : Nat
  pageOffset : Nat
  len : Nat
deriving DecidableEq

structure PageFaultPlan (F : Type) where
  permissions : VmPermissions
  fragments : List (ElfPageFragment F)
deriving DecidableEq

structure ProcMM (F : Type) where
  mappedHeapEnd : Nat
  mmapBaseHint : Nat
  mmapRegions : List MmapRegion
  elfRegions : List (ElfRegion F)

namespace MmapRegion

def stop (r : MmapRegion) : Nat := saturatingAdd r.base r.len

def Has (r : MmapRegion) (x : Nat) : Prop := r.base ≤ x ∧ x < r.stop

instance (r : MmapRegion) (x : Nat) : Decidable (r.Has x) := inferInstanceAs (Decidable (_ ∧ _))

/-- What is left of the region without the addresses from `lo` to `hi`. -/
def without (lo hi : Nat) (r : MmapRegion) : List MmapRegion :=
  let overlapStart := max lo r.base
  let overlapEnd := min hi r.stop
  if overlapStart ≥ overlapEnd then [r]
  else
    (if r.base < overlapStart then [{ r with len := overlapStart - r.base }] else []) ++
      (if overlapEnd < r.stop then [{ r with base := overlapEnd, len := r.stop - overlapEnd }]
        else [])

def within (lo hi : Nat) (r : MmapRegion) : List MmapRegion :=
  let overlapStart := max lo r.base
  let overlapEnd := min hi r.stop
  if overlapStart ≥ overlapEnd then []
  else [{ r with base := overlapStart, len := overlapEnd - overlapStart }]

def protect (lo hi : Nat) (permissions : VmPermissions) (r : MmapRegion) : List MmapRegion :=
  let overlapStart := max lo r.base
  let overlapEnd := min hi r.stop
  if overlapStart ≥ overlapEnd then [r]
  else
    (if r.base < overlapStart then [{ r with len := overlapStart - r.base }] else []) ++
      [{ r with
        base := overlapStart
        len := overlapEnd - overlapStart
        permissions := permissions }] ++
      (if overlapEnd < r.stop then [{ r with base := overlapEnd, len := r.stop - overlapEnd }]
        else [])

end MmapRegion

namespace ElfRegion

variable {F : Type}

def stop (r : ElfRegion F) : Nat := saturatingAdd r.base r.len

/-- A later start of the region; what `fileBase` shows moves along, and so does `fileEnd`. -/
def advance (r : ElfRegion F) (start len : Nat) : ElfRegion F :=
  let delta := wrappingSub start r.base
  { r with
    base := start
    len := len
    fileBase := wrappingAdd r.fileBase delta
    fileOffset := wrappingAdd r.fileOffset delta
    fileEnd := wrappingAdd r.fileEnd delta }

def without (lo hi : Nat) (r : ElfRegion F) : List (ElfRegion F) :=
  let overlapStart := max lo r.base
  let overlapEnd := min hi r.stop
  if overlapStart ≥ overlapEnd then [r]
  else
    (if r.base < overlapStart then [{ r with len := overlapStart - r.base }] else []) ++
      (if overlapEnd < r.stop then [r.advance overlapEnd (r.stop - overlapEnd)] else [])

def within (lo hi : Nat) (r : ElfRegion F) : List (ElfRegion F) :=
  let overlapStart := max lo r.base
  let overlapEnd := min hi r.stop
  if overlapStart ≥ overlapEnd then []
  else [r.advance overlapStart (overlapEnd - overlapStart)]

/-- Unlike a removal, a change of permissions leaves the file fields of all parts alone. -/
def protect (lo hi : Nat) (permissions : VmPermissions) (r : ElfRegion F) : List (ElfRegion F) :=
  let overlapStart := max lo r.base
  let overlapEnd := min hi r.stop
  if overlapStart ≥ overlapEnd then [r]
  else
    (if r.base < overlapStart then [{ r with len := overlapStart - r.base }] else []) ++
      [{ r with
        base := overlapStart
        len := overlapEnd - overlapStart
        permissions := permissions }] ++
      (if overlapEnd < r.stop then [{ r with base := overlapEnd, len := r.stop - overlapEnd }]
        else [])

/-- The loop of `page_fault_plan` over the ELF regions, with the permissions, the fragments and
whether a region was found so far. -/
def plan (pageBase pageEnd : Nat) :
    List (ElfRegion F) → VmPermissions → List (ElfPageFragment F) → Bool →
      Option (VmPermissions × List (ElfPageFragment F) × Bool)
  | [], permissions, fragments, found => some (permissions, fragments, found)
  | r :: rest, permissions, fragments, found =>
    if pageBase ≥ r.stop ∨ pageEnd ≤ r.base then plan pageBase pageEnd rest permissions fragments found
    else
      let permissions := permissions.union r.permissions
      let copyStart := max pageBase (max r.base r.fileBase)
      let copyEnd := min pageEnd (min r.stop r.fileEnd)
      if copyStart ≥ copyEnd then plan pageBase pageEnd rest permissions fragments true
      else
        match checkedAdd r.fileOffset (copyStart - r.fileBase) with
        | none => none
        | some fileOffset =>
          plan pageBase pageEnd rest permissions
            (fragments ++ [⟨r.file, fileOffset, copyStart - pageBase, copyEnd - copyStart⟩]) true

end ElfRegion

/-! ## The memory map -/

namespace ProcMM

variable {F : Type} (mm : ProcMM F)

def ensureMmapBase : Nat :=
  if mm.mmapBaseHint = 0 then alignUp (max mm.mappedHeapEnd userMmapBase) else mm.mmapBaseHint

/-- The next range of `length` bytes, if there is room below the upper limit. -/
def reserveMmapRange (length : Nat) : Option Nat × ProcMM F :=
  let mm := { mm with mmapBaseHint := mm.ensureMmapBase }
  let base := alignUp mm.mmapBaseHint
  match checkedAdd base (alignUp length) with
  | none => (none, mm)
  | some stop =>
    if stop ≥ userUpper then (none, mm) else (some base, { mm with mmapBaseHint := stop })

variable (base len : Nat)

def trackMmap (kind : MmapKind) (permissions : VmPermissions) :
    ProcMM F :=
  { mm with mmapRegions := mm.mmapRegions ++ [⟨base, len, kind, permissions, none⟩] }

variable (permissions : VmPermissions)

def trackMemfdMmap (memfd : Nat) :
    ProcMM F :=
  { mm with mmapRegions := mm.mmapRegions ++ [⟨base, len, .shared, permissions, some memfd⟩] }

def pageFaultPlan (pageBase : Nat) : Option (PageFaultPlan F) :=
  match mm.mmapRegions.find? fun r => r.kind = .anonymous ∧ r.Has pageBase with
  | some r => some ⟨r.permissions, []⟩
  | none =>
    match checkedAdd pageBase page with
    | none => none
    | some pageEnd =>
      match ElfRegion.plan pageBase pageEnd mm.elfRegions .none [] false with
      | some (permissions, fragments, true) => some ⟨permissions, fragments⟩
      | _ => none

/-- `remove_mmap_range`: the removed parts, and the map without them. -/
def removeMmapRange : List MmapRegion × ProcMM F :=
  match checkedAdd base len with
  | none => ([], mm)
  | some stop =>
    (mm.mmapRegions.flatMap (·.within base stop),
      { mm with mmapRegions := mm.mmapRegions.flatMap (·.without base stop) })

def removeElfRange : List (ElfRegion F) × ProcMM F :=
  match checkedAdd base len with
  | none => ([], mm)
  | some stop =>
    (mm.elfRegions.flatMap (·.within base stop),
      { mm with elfRegions := mm.elfRegions.flatMap (·.without base stop) })

def protectRange : ProcMM F :=
  match checkedAdd base len with
  | none => mm
  | some stop =>
    { mm with
      mmapRegions := mm.mmapRegions.flatMap (·.protect base stop permissions)
      elfRegions := mm.elfRegions.flatMap (·.protect base stop permissions) }

end ProcMM

end Twilight.Memory

/-
The physical frame allocator: one bitmap over the frames of up to 32 regions, kept in the first
region of the memory map that is large enough.
-/
import Mathlib
import Twilight.Lib.Words

namespace Twilight.Memory

open Words List

/-! ## The memory map -/

inductive EntryType where
  | usable
  | reserved
  | acpiReclaimable
  | acpiNvs
  | badMemory
  | bootloaderReclaimable
  | executableAndModules
  | framebuffer
deriving DecidableEq

structure Entry where
  base : Nat
  length : Nat
  entryType : EntryType
deriving DecidableEq

def Entry.Usable (e : Entry) : Prop := e.entryType = .usable

instance (e : Entry) : Decidable e.Usable := inferInstanceAs (Decidable (_ = _))

def Entry.Covers (e : Entry) (addr : Nat) : Prop := e.base ≤ addr ∧ addr < e.base + e.length

instance (e : Entry) (addr : Nat) : Decidable (e.Covers addr) := inferInstanceAs (Decidable (_ ∧ _))

/-- A frame by its number; an address with more than 52 bits makes `PhysAddr::new` panic. -/
def frameAt (addr : Nat) : Option Nat := if addr < 2 ^ 52 then some (addr / 4096) else none

/-! ## Regions -/

structure UsableRegion where
  firstFrame : Nat
  frameCount : Nat
  pos : 0 < frameCount
deriving DecidableEq

namespace UsableRegion

/-- The region of these addresses; `endAddr` is exclusive. -/
def new (startAddr endAddr : Nat) : Option UsableRegion := do
  let first ← frameAt startAddr
  let last ← frameAt (endAddr - 1)
  return ⟨first, last - first + 1, Nat.succ_pos _⟩

variable (r : UsableRegion)

def len : Nat := r.frameCount

def lastFrame : Nat := r.firstFrame + (r.frameCount - 1)

def contains (frame : Nat) : Bool := r.firstFrame ≤ frame && frame ≤ r.lastFrame

def offset (frame : Nat) : Nat := frame - r.firstFrame

lemma contains_iff {r : UsableRegion} {frame : Nat} :
    r.contains frame = true ↔ r.firstFrame ≤ frame ∧ frame < r.firstFrame + r.len := by
  have hpos := r.pos
  rw [contains, Bool.and_eq_true, decide_eq_true_eq, decide_eq_true_eq, lastFrame, len]
  omega

end UsableRegion

def maxRegions : Nat := 32

/-! ## The allocator -/

/-- `bitmapAddr` is the physical address of the bitmap. -/
structure BitmapFrameAllocator where
  bitmapAddr : Nat
  bitmap : List (BitVec 64)
  nextFreeIndex : Nat
  usableRegions : List UsableRegion
  framesCount : Nat
  counted : framesCount = (usableRegions.map (·.len)).sum

variable (memoryMap : List Entry)

def bitmapWords : Nat :=
  ((memoryMap.map fun e => if e.Usable then e.length / 4096 else 0).sum + 63) / 64

/-- The bytes set aside for the bitmap: all frames it touches. -/
def bitmapStorageSize : Nat := (8 * bitmapWords memoryMap + 4095) / 4096 * 4096

/-- The loop of `init` over the memory map. It places the bitmap in the first region with room and
collects the rest as usable regions; it stops when there are too many, and fails where the source
panics. -/
def initLoop (storageSize : Nat) :
    List Entry → Option Nat → List UsableRegion → Option (Option Nat × List UsableRegion)
  | [], bitmapAddr, regions => some (bitmapAddr, regions)
  | e :: rest, bitmapAddr, regions =>
    if ¬ e.Usable then initLoop storageSize rest bitmapAddr regions
    else
      let regionEnd := e.base + e.length
      let placed := bitmapAddr.isNone && e.length ≥ storageSize
      if placed && (frameAt e.base).isNone then none
      else
        let bitmapAddr := if placed then some e.base else bitmapAddr
        let usableStart := if bitmapAddr = some e.base then e.base + storageSize else e.base
        if bitmapAddr = some e.base ∧ usableStart ≥ regionEnd then
          initLoop storageSize rest bitmapAddr regions
        else if regionEnd - usableStart ≥ 4096 then
          if regions.length ≥ maxRegions then some (bitmapAddr, regions)
          else
            match UsableRegion.new usableStart regionEnd with
            | none => none
            | some r => initLoop storageSize rest bitmapAddr (regions ++ [r])
        else initLoop storageSize rest bitmapAddr regions

namespace BitmapFrameAllocator

def init (memoryMap : List Entry) : Option BitmapFrameAllocator :=
  match initLoop (bitmapStorageSize memoryMap) memoryMap none [] with
  | some (some addr, regions) =>
    some ⟨addr, replicate (bitmapWords memoryMap) 0, 0, regions, (regions.map (·.len)).sum, rfl⟩
  | _ => none

/-- The search of `index_to_frame` from the region that starts at index `base` on. -/
def indexIn : List UsableRegion → Nat → Nat → Option Nat
  | [], _, _ => none
  | r :: rest, base, index =>
    if index < base + r.len then some (r.firstFrame + (index - base))
    else indexIn rest (base + r.len) index

variable (a : BitmapFrameAllocator) (index : Nat)

def indexToFrame : Option Nat :=
  if index ≥ a.framesCount then none else indexIn a.usableRegions 0 index

def frameIn : List UsableRegion → Nat → Nat → Option Nat
  | [], _, _ => none
  | r :: rest, base, frame =>
    if r.contains frame then some (base + r.offset frame)
    else frameIn rest (base + r.len) frame

def frameToIndex (frame : Nat) : Option Nat := frameIn a.usableRegions 0 frame

def isFrameAllocated : Bool := getBit a.bitmap index

def setFrameAllocated (allocated : Bool) :
    BitmapFrameAllocator :=
  { a with bitmap := setBit a.bitmap index allocated }

/-- The offsets a contiguous search tries: from the hint to the last possible one, then from the
first to the hint. -/
def candidates (start0 maxStart : Nat) : List Nat :=
  range' start0 (maxStart + 1 - start0) ++ range' 0 (min start0 (maxStart + 1))

/-- The first free run of `numPages` frames, as index and frame, in the regions from the one at
index `base` on. Only the first `limit r` frames of a region count. -/
def contiguousIn (a : BitmapFrameAllocator) (limit : UsableRegion → Nat) (numPages : Nat) :
    List UsableRegion → Nat → Option (Nat × Nat)
  | [], _ => none
  | r :: rest, base =>
    if limit r < numPages then contiguousIn a limit numPages rest (base + r.len)
    else
      let maxStart := limit r - numPages
      let start0 :=
        if a.nextFreeIndex ≥ base ∧ a.nextFreeIndex < base + limit r then
          min (a.nextFreeIndex - base) maxStart
        else 0
      match (candidates start0 maxStart).find? fun startOff =>
        (range numPages).all fun j => !a.isFrameAllocated (base + startOff + j) with
      | some startOff => some (base + startOff, r.firstFrame + startOff)
      | none => contiguousIn a limit numPages rest (base + r.len)

/-- Both contiguous allocations, with the part of each region they may use. -/
def allocateRun (limit : UsableRegion → Nat) (numPages : Nat) : Option Nat × BitmapFrameAllocator :=
  if numPages = 0 then (none, a)
  else
    match a.contiguousIn limit numPages a.usableRegions 0 with
    | none => (none, a)
    | some (startIndex, frame) =>
      (some frame, { a with
        bitmap := setRange a.bitmap startIndex numPages
        nextFreeIndex := startIndex + numPages })

def allocateContiguous (numPages : Nat) : Option Nat × BitmapFrameAllocator :=
  a.allocateRun (·.len) numPages

/-- The frames of a region whose last byte is at or below the address. The address is a `u64`,
and adding one to the largest wraps around to zero. -/
def framesBelow (maxPhysAddr : Nat) (r : UsableRegion) : Nat :=
  if 4096 * r.firstFrame > maxPhysAddr then 0
  else min r.len (((maxPhysAddr + 1) % 2 ^ 64 - 4096 * r.firstFrame) / 4096)

def allocateContiguousBelow (numPages maxPhysAddr : Nat) : Option Nat × BitmapFrameAllocator :=
  a.allocateRun (framesBelow maxPhysAddr) numPages

def allocateFrame : Option Nat × BitmapFrameAllocator :=
  match ((range a.framesCount).map fun i => (a.nextFreeIndex + i) % a.framesCount).find?
      fun index => !a.isFrameAllocated index with
  | none => (none, a)
  | some index =>
    (a.indexToFrame index, { a.setFrameAllocated index true with nextFreeIndex := index + 1 })

/-- A frame that is not managed or not allocated is left alone. -/
def deallocateFrame (frame : Nat) : BitmapFrameAllocator :=
  match a.frameToIndex frame with
  | none => a
  | some index =>
    if a.isFrameAllocated index then
      { a.setFrameAllocated index false with nextFreeIndex := min a.nextFreeIndex index }
    else a

end BitmapFrameAllocator

end Twilight.Memory

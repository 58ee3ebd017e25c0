/-
Directories: slots of 64 bytes in the direct zones of an inode, and the cached
index of their names.
-/
import Twilight.Fs.Disk

namespace Twilight.Fs

/-- `size_of::<DirEntry>()`: a 32-bit inode number and a name of 60 bytes. -/
def dirEntrySize : Nat := 64

namespace DirEntry

variable (buf : Bytes)

/-- The inode number in slot `idx` of a directory block; 0 marks a free slot. -/
def inodeAt (idx : Nat) : Nat := buf.readLE (idx * dirEntrySize) 4

def nameAt (idx : Nat) : List UInt8 := buf.slice (idx * dirEntrySize + 4) 60

def decodeDirName (name : List UInt8) : Option Str :=
  if Str.utf8Valid name then
    let raw := Str.trimNul name
    if raw = [] then none else some raw
  else none

/-- The name the slot searches compare with: a name that is no UTF-8 counts as empty. -/
def searchName (name : List UInt8) : Str := Str.trimNul (if Str.utf8Valid name then name else [])

/-- The bytes of an entry; a longer name is cut to 60 bytes. -/
def encode (child : Nat) (name : Str) : Bytes := fun k =>
  if k < 4 then Bytes.le child k else (name.take 60).getD (k - 4) 0

def isMatch (name : Str) (idx : Nat) : Bool :=
  inodeAt buf idx != 0 && searchName (nameAt buf idx) == name

end DirEntry

namespace TwilightFs

variable {ε : Type}

/-! ## The shared caches -/

def modifyPaths (f : PathLookupCache → PathLookupCache) : FsM ε Unit :=
  modify fun s => { s with shared := s.shared.updatePaths f }

def modifyFiles (f : FileContentCache → FileContentCache) : FsM ε Unit :=
  modify fun s => { s with shared := s.shared.updateFiles f }

def modifyDirs (f : DirIndexCache → DirIndexCache) : FsM ε Unit :=
  modify fun s => { s with shared := s.shared.updateDirs f }

variable (parent : Nat)

def dirIndexGet : FsM ε (Option DirIndexEntry) := do
  modifyDirs id
  pure ((← get).shared.dirs.map parent)

variable (name : Str)

def dirIndexLookup : FsM ε (Option Nat) := do
  modifyDirs id
  pure (DirIndexCache.lookup (← get).shared.dirs parent name)

def dirIndexSet (entry : DirIndexEntry) : FsM ε Unit :=
  modifyDirs fun c => c.insert dirIndexCacheCapacity parent entry

def dirIndexUpdateAfterInsert (ino hint : Nat) : FsM ε Unit :=
  modifyDirs fun c => DirIndexCache.updateAfterInsert c parent name ino hint

def dirIndexRemove : FsM ε Unit := modifyDirs fun c => DirIndexCache.removeName c parent name

def dirIndexRename (oldParent : Nat) (oldName : Str) (newParent : Nat) (newName : Str)
    (ino : Nat) : FsM ε Unit :=
  modifyDirs fun c => DirIndexCache.rename c oldParent oldName newParent newName ino

def lookupCached (path : Str) : FsM ε (Option Nat) := do
  modifyPaths id
  pure ((← get).shared.paths.map path)

def insertLookup (path : Str) (ino : Nat) : FsM ε Unit :=
  modifyPaths fun c => c.insertNew pathLookupCacheCapacity path ino

def removeLookupPrefix (pfx : Str) : FsM ε Unit :=
  modifyPaths fun c => PathLookupCache.removePrefix c pfx

def invalidateFileInode (inodeNo : Nat) : FsM ε Unit :=
  modifyFiles fun c => c.invalidateInode inodeNo

/-! ## The index of a directory -/

def entriesPerBlock (sb : Superblock) : Nat := sb.blockSize / dirEntrySize

def totalSlots (sb : Superblock) : Nat := Inode.directSlotCount * entriesPerBlock sb

def noteFree (total slot : Nat) (entry : DirIndexEntry) : DirIndexEntry :=
  if entry.nextFreeSlotHint = total then { entry with nextFreeSlotHint := slot } else entry

/-- `names.insert`, for a name that decodes. -/
def addName (decoded : Option Str) (ino : Nat) (entry : DirIndexEntry) : DirIndexEntry :=
  match decoded with
  | some name => { entry with names := Function.update entry.names name (some ino) }
  | none => entry

/-- The block of a slot: read at the first slot of the block, held after that. -/
def loadBlock (entryIdx zone : Nat) (held : Bytes) : FsM FsError Bytes :=
  if entryIdx = 0 then Prog.mapErr (fun _ => .invalidInode) (readTfsBlock zone) else pure held

def buildSlots (perBlock total : Nat) (parent : Inode) :
    List Nat → DirIndexEntry → Bytes → FsM FsError DirIndexEntry
  | [], entry, _ => pure entry
  | slot :: rest, entry, buf =>
    let zone := parent.directSlotGet (slot / perBlock)
    if zone = 0 then buildSlots perBlock total parent rest (noteFree total slot entry) buf
    else do
      let buf ← loadBlock (slot % perBlock) zone buf
      let inodeNo := DirEntry.inodeAt buf (slot % perBlock)
      if inodeNo = 0 then
        buildSlots perBlock total parent rest (noteFree total slot entry) buf
      else
        let decoded := DirEntry.decodeDirName (DirEntry.nameAt buf (slot % perBlock))
        buildSlots perBlock total parent rest (addName decoded inodeNo entry) buf

def buildDirIndexEntry (parent : Inode) : FsM FsError DirIndexEntry := do
  let sb := (← get).superblock
  let total := totalSlots sb
  buildSlots (entriesPerBlock sb) total parent (List.range total) ⟨fun _ => none, total⟩ Bytes.zero

variable (parentNum : Nat)

def ensureDirIndexEntry (parent : Inode) : FsM FsError DirIndexEntry := do
  match ← dirIndexGet parentNum with
  | some entry => pure entry
  | none => do
    let entry ← buildDirIndexEntry parent
    dirIndexSet parentNum entry
    pure entry

def findDirEntry (parentNum : Nat) (name : Str) : FsM String (Option Nat) := do
  let parent ← readInode parentNum
  if parent.directSlotGet 0 = 0 then pure none
  else do
    let _ ← Prog.mapErr (fun _ => "Failed to build directory index")
      (ensureDirIndexEntry parentNum parent)
    dirIndexLookup parentNum name

/-! ## Adding an entry -/

/-- The directory block of a slot, allocated and cleared when the slot has none. -/
def slotBlock (parentNum blockIdx : Nat) (parent : Inode) : FsM String (Nat × Inode) :=
  if parent.directSlotGet blockIdx = 0 then do
    let block ← Prog.mapErr (fun _ => "Failed to allocate directory zone") allocateZone
    let parent := parent.directSlotSet blockIdx block
    Prog.mapErr (fun _ => "Failed to initialize directory block") (writeTfsBlock block Bytes.zero)
    writeInode parentNum parent
    pure (block, parent)
  else pure (parent.directSlotGet blockIdx, parent)

/-- `try_insert` over a list of slots.  The source keeps the last block it read;
here every slot reads its block. -/
def tryInsert (perBlock parentNum : Nat) (entry : Bytes) :
    List Nat → Inode → FsM String (Option Nat × Inode)
  | [], parent => pure (none, parent)
  | slot :: rest, parent => do
    let blockIdx := slot / perBlock
    let offset := slot % perBlock * dirEntrySize
    let (block, parent) ← slotBlock parentNum blockIdx parent
    let buf ← Prog.mapErr (fun _ => "Failed to read block") (readTfsBlock block)
    -- the zone of a new directory is not cleared when it is allocated
    let buf := if blockIdx = 0 ∧ parent.size = 0 then Bytes.zero else buf
    if buf.readLE offset 4 = 0 then do
      Prog.mapErr (fun _ => "Failed to write block")
        (writeTfsBlock block (buf.splice offset dirEntrySize entry))
      let parent := parent.withSize (parent.size + UInt64.ofNat dirEntrySize)
      writeInode parentNum parent
      pure (some slot, parent)
    else tryInsert perBlock parentNum entry rest parent

/-- The slots from the hint to the end, then those before the hint. -/
def insertSlot (perBlock total parentNum hint : Nat) (entry : Bytes) (parent : Inode) :
    FsM String (Option Nat) := do
  let (slot, parent) ← tryInsert perBlock parentNum entry (List.range' hint (total - hint)) parent
  match slot with
  | some slot => pure (some slot)
  | none =>
    if 0 < hint then do
      let (slot, _) ← tryInsert perBlock parentNum entry (List.range hint) parent
      pure slot
    else pure none

def createDirEntry (parentNum : Nat) (name : Str) (child : Nat) : FsM String Unit := do
  let parent ← readInode parentNum
  let sb := (← get).superblock
  let total := totalSlots sb
  let cached ← dirIndexGet parentNum
  let startHint := cached.elim 0 fun entry => min entry.nextFreeSlotHint total
  let slot ← insertSlot (entriesPerBlock sb) total parentNum startHint
    (DirEntry.encode child name) parent
  match slot with
  | some slot => dirIndexUpdateAfterInsert parentNum name child (min (slot + 1) total)
  | none => throw "Directory is full"

/-! ## Finding and clearing a slot -/

/-- The slot search over the direct zones: the zone, its content and the slot of
the first entry with the name. -/
def searchBlocks (perBlock : Nat) (parent : Inode) (name : Str) :
    List Nat → FsM FsError (Option (Nat × Bytes × Nat))
  | [] => pure none
  | i :: rest =>
    let zone := parent.directSlotGet i
    if zone = 0 then searchBlocks perBlock parent name rest
    else do
      let buf ← readTfsBlock zone
      match (List.range perBlock).find? (DirEntry.isMatch buf name) with
      | some idx => pure (some (zone, buf, idx))
      | none => searchBlocks perBlock parent name rest

/-- The zone, the offset and the inode number of the entry. -/
def findDirEntrySlot (parentNum : Nat) (name : Str) : FsM FsError (Option (Nat × Nat × Nat)) := do
  let parent ← Prog.mapErr (fun _ => .invalidInode) (readInode parentNum)
  let sb := (← get).superblock
  let found ← searchBlocks (entriesPerBlock sb) parent name (List.range Inode.directSlotCount)
  pure (found.map fun (zone, buf, idx) => (zone, idx * dirEntrySize, DirEntry.inodeAt buf idx))

def clearDirEntrySlot (parentNum zone offset : Nat) : FsM FsError Unit := do
  let parent ← Prog.mapErr (fun _ => .invalidInode) (readInode parentNum)
  let buf ← readTfsBlock zone
  if fsBlockSize < offset + dirEntrySize then throw .invalidPath
  else do
    writeTfsBlock zone (buf.splice offset dirEntrySize Bytes.zero)
    if UInt64.ofNat dirEntrySize ≤ parent.size then
      Prog.mapErr (fun _ => .invalidInode)
        (writeInode parentNum (parent.withSize (parent.size - UInt64.ofNat dirEntrySize)))
    else pure ()

end TwilightFs
end Twilight.Fs

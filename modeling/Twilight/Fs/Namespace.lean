/-
The namespace operations of TwilightFS: walking a path, creating, renaming and
removing entries.
-/
import Twilight.Fs.Directory

namespace Twilight.Fs

open Str Prog Inode

/-- The bytes of `"."`, `".."` and `"/"`. -/
def dotName : Str := [46]
def dotDotName : Str := [46, 46]
def rootPath : Str := [slash]

namespace TwilightFs

/-! ## Walking a path -/

def maxSymlinks : Nat := 40

/-- Splice the target of a symbolic link in front of the components that are left. -/
def followLink (next : List Str → Nat → FsM FsError Nat) (link : Inode) (rest : List Str)
    (current : Nat) : FsM FsError Nat :=
  let target := link.inlineDataBytes
  if utf8Valid target = false then throw .invalidPath
  else if target = [] then throw .invalidPath
  else next (components target ++ rest) (if target.head? = some slash then 1 else current)

/-- Resolve the components in `pending` from inode `current`; `onLink` goes on
when a component is a symbolic link. -/
def walkComponents (onLink : Inode → List Str → Nat → FsM FsError Nat) :
    List Str → Nat → FsM FsError Nat
  | [], current => pure current
  | part :: rest, current => do
    let next ← mapErr (fun _ => .invalidInode) (findDirEntry current part)
    match next with
    | none => throw .fileNotFound
    | some ino => do
      let inode ← mapErr (fun _ => .invalidInode) (readInode ino)
      if inode.isSymlink then onLink inode rest current
      else walkComponents onLink rest ino

def walk : Nat → List Str → Nat → FsM FsError Nat
  | 0 => walkComponents fun _ _ _ => throw .invalidPath
  | links + 1 => walkComponents (followLink (walk links))

variable (path : Str)

/-- The string `resolve_path` caches a path under. -/
def canonical : Str := if path.head? = some slash then path else slash :: path

def resolvePath : FsM FsError Nat := do
  if path = [] then throw .invalidPath
  else if path = rootPath then pure 1
  else do
    match ← lookupCached (canonical path) with
    | some ino => pure ino
    | none => do
      let ino ← walk maxSymlinks (components (canonical path)) 1
      insertLookup (canonical path) ino
      pure ino

def splitParentAndName : Except FsError (Str × Str) :=
  let components := components path
  match components.getLast? with
  | none => .error .invalidPath
  | some name =>
    if name = [] ∨ name = dotName ∨ name = dotDotName then .error .invalidPath
    else if components.dropLast = [] then .ok (rootPath, name)
    else .ok (slash :: joinSlash components.dropLast, name)

def joinParentAndName (parent name : Str) : Str :=
  if parent = rootPath then slash :: name else parent ++ slash :: name

/-! ## Creating -/

variable (env : Inode.Env) (parentNum : Nat) (name : Str)

def createFileWithMode (mode : UInt16) :
    FsM FsError Nat := do
  if 60 < name.length then throw .fileNotFound
  else do
    let parent ← mapErr (fun _ => .invalidInode) (readInode parentNum)
    let dirIndex ← ensureDirIndexEntry parentNum parent
    if (dirIndex.names name).isSome then throw .fileAlreadyExists
    else do
      let newInodeNum := (← mapErr (fun _ => .invalidInode) allocateInode) + 1
      let newZone ← mapErr (fun _ => .invalidInode) allocateZone
      let inode := if mode &&& modeTypeMask = modeSocket then
          newSocket env mode
        else newFile env mode
      let inode := if parent.isEncrypted then
          { inode with flags := inode.flags ||| iflagEncrypted }
        else inode
      mapErr (fun _ => .invalidInode) (writeInode newInodeNum (inode.directSlotSet 0 newZone))
      mapErr (fun _ => .invalidInode) (createDirEntry parentNum name newInodeNum)
      pure newInodeNum

def createFile : FsM FsError Nat := createFileWithMode env parentNum name 0o777

def createDirWithMode (mode : UInt16) :
    FsM FsError Nat := do
  if 60 < name.length then throw .fileNameTooLong
  else do
    let parent ← mapErr (fun _ => .invalidInode) (readInode parentNum)
    let dirIndex ← ensureDirIndexEntry parentNum parent
    if (dirIndex.names name).isSome then throw .fileAlreadyExists
    else do
      let newInodeNum := (← mapErr (fun _ => .invalidInode) allocateInode) + 1
      let newZone ← mapErr (fun _ => .invalidInode) allocateZone
      let inode := newDir env mode
      let inode := if parent.isEncrypted then
          { inode with flags := inode.flags ||| iflagEncrypted }
        else inode
      mapErr (fun _ => .invalidInode) (writeInode newInodeNum (inode.directSlotSet 0 newZone))
      mapErr (fun _ => .invalidInode) (createDirEntry parentNum name newInodeNum)
      mapErr (fun _ => .invalidInode) (createDirEntry newInodeNum dotName newInodeNum)
      mapErr (fun _ => .invalidInode) (createDirEntry newInodeNum dotDotName parentNum)
      pure newInodeNum

/-- The record of a new link: its target lies in the inode. -/
def symlinkInode (target : Str) : Inode :=
  { newSymlink env with
    size := UInt64.ofNat target.length
    inlineData := fun k => target.getD k 0 }

def createSymlink (name target : Str) : FsM FsError Nat := do
  if 60 < name.length then throw .fileNameTooLong
  else if target = [] ∨ inodeInlineBytes < target.length then throw .invalidPath
  else do
    let parent ← mapErr (fun _ => .invalidInode) (readInode parentNum)
    let dirIndex ← ensureDirIndexEntry parentNum parent
    if (dirIndex.names name).isSome then throw .fileAlreadyExists
    else do
      let newInodeNum := (← mapErr (fun _ => .invalidInode) allocateInode) + 1
      mapErr (fun _ => .invalidInode) (writeInode newInodeNum (symlinkInode env target))
      mapErr (fun _ => .invalidInode) (createDirEntry parentNum name newInodeNum)
      pure newInodeNum

/-! ## Removing -/

def freeDirect (inode : Inode) : List Nat → FsM FsError Unit
  | [] => pure ()
  | di :: rest =>
    if inode.directSlotGet di ≠ 0 then do
      mapErr (fun _ => .panic) (freeZone (inode.directSlotGet di))
      freeDirect inode rest
    else freeDirect inode rest

/-- Remove the entry in slot `idx` of the directory block `buf`. -/
def removeSlot (parent : Inode) (parentPath name : Str)
    (zone : Nat) (buf : Bytes) (idx : Nat) : FsM FsError Unit := do
  let inodeNum := DirEntry.inodeAt buf idx
  let inode ← mapErr (fun _ => .panic) (readInode inodeNum)
  freeDirect inode (List.range directSlotCount)
  mapErr (fun _ => .panic) (deallocInode inodeNum)
  writeTfsBlock zone (buf.splice (idx * dirEntrySize) dirEntrySize Bytes.zero)
  let parent := if UInt64.ofNat dirEntrySize ≤ parent.size then
      parent.withSize (parent.size - UInt64.ofNat dirEntrySize)
    else parent
  mapErr (fun _ => .panic) (writeInode parentNum parent)
  dirIndexRemove parentNum name
  removeLookupPrefix (joinParentAndName parentPath name)
  invalidateFileInode inodeNum

def removeEntry : FsM FsError Unit := do
  let components := components path
  match components.getLast? with
  | none => throw .invalidPath
  | some name => do
    let parents := components.dropLast
    let parentPath := slash :: joinSlash parents
    let parentNum ← if parents = [] then pure 1 else resolvePath parentPath
    let parent ← mapErr (fun _ => .panic) (readInode parentNum)
    let sb := (← get).superblock
    let found ← searchBlocks (entriesPerBlock sb) parent name (List.range directSlotCount)
    match found with
    | none => throw .fileNotFound
    | some (zone, buf, idx) => removeSlot parentNum parent parentPath name zone buf idx

/-! ## Renaming -/

/-- `Ok` values and errors of a pure step. -/
def liftExcept {α : Type} (r : Except FsError α) : FsM FsError α :=
  match r with
  | .ok a => pure a
  | .error e => throw e

/-- What `rename_entry` does about an entry that has the new name already:
`false` means that there is nothing left to do. -/
def replaceTarget (newPath newName : Str) (oldParentNum newParentNum oldInodeNum : Nat) :
    FsM FsError Bool := do
  match ← findDirEntrySlot newParentNum newName with
  | none => pure true
  | some (_, _, existing) =>
    if existing ≠ oldInodeNum then do
      let inode ← mapErr (fun _ => .invalidInode) (readInode existing)
      if inode.isDir then throw .fileAlreadyExists
      else do
        removeEntry newPath
        pure true
    else if oldParentNum = newParentNum then pure false
    else throw .fileAlreadyExists

def nameBytes : Bytes := fun k => name.getD k 0

/-- Move the entry: in place within one directory, by a new entry otherwise. -/
def moveEntry (oldParentPath newParentPath oldName newName : Str)
    (oldParentNum newParentNum oldZone oldOffset oldInodeNum : Nat) : FsM FsError Unit := do
  if oldParentNum = newParentNum then do
    let buf ← readTfsBlock oldZone
    writeTfsBlock oldZone (buf.splice (oldOffset + 4) 60 (nameBytes newName))
    dirIndexRename oldParentNum oldName newParentNum newName oldInodeNum
  else do
    mapErr (fun _ => .invalidInode) (createDirEntry newParentNum newName oldInodeNum)
    clearDirEntrySlot oldParentNum oldZone oldOffset
    dirIndexRemove oldParentNum oldName
  removeLookupPrefix (joinParentAndName oldParentPath oldName)
  removeLookupPrefix (joinParentAndName newParentPath newName)

def renameEntry (oldPath newPath : Str) : FsM FsError Unit := do
  if oldPath = newPath then pure ()
  else do
    let (oldParentPath, oldName) ← liftExcept (splitParentAndName oldPath)
    let (newParentPath, newName) ← liftExcept (splitParentAndName newPath)
    if 60 < oldName.length ∨ 60 < newName.length then throw .fileNameTooLong
    else do
      let oldParentNum ← resolvePath oldParentPath
      let newParentNum ← resolvePath newParentPath
      let oldParent ← mapErr (fun _ => .invalidInode) (readInode oldParentNum)
      if oldParent.isDir = false then throw .invalidPath
      else do
        let newParent ← mapErr (fun _ => .invalidInode) (readInode newParentNum)
        if newParent.isDir = false then throw .invalidPath
        else do
          match ← findDirEntrySlot oldParentNum oldName with
          | none => throw .fileNotFound
          | some (oldZone, oldOffset, oldInodeNum) => do
            let oldInode ← mapErr (fun _ => .invalidInode) (readInode oldInodeNum)
            if oldInode.isDir = true ∧ oldParentNum ≠ newParentNum then throw .notSupported
            else do
              let go ← replaceTarget newPath newName oldParentNum newParentNum oldInodeNum
              if go then
                moveEntry oldParentPath newParentPath oldName newName
                  oldParentNum newParentNum oldZone oldOffset oldInodeNum
              else pure ()

/-! ## A fresh volume -/

def initializeRootInode : FsM String Unit := do
  let rootInodeNum := (← mapErr
    (fun _ => "Failed to allocate USB TwilightFS root inode") allocateInode) + 1
  if rootInodeNum ≠ 1 then throw "Unexpected USB TwilightFS root inode number"
  else do
    let rootZone ← mapErr
      (fun _ => "Failed to allocate USB TwilightFS root directory zone") allocateZone
    writeInode rootInodeNum ((newDir env 0o755).directSlotSet 0 rootZone)
    createDirEntry rootInodeNum dotName rootInodeNum
    createDirEntry rootInodeNum dotDotName rootInodeNum
    modify fun s => { s with shared := s.shared.invalidateNamespace }

/-- A formatted device before the root directory is made: the superblock in block
0 and zeros up to the first data zone. -/
def formatted (sb : Superblock) (d : Device) : TwilightFs where
  superblock := sb
  device := { d with data := fun k =>
    if k = 0 then sb.encode else if k < sb.firstDataZone then Bytes.zero else d.data k }
  mountMode := .readWrite
  shared := Shared.new

end TwilightFs
end Twilight.Fs

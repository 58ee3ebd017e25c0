/-
`write_file` and `read_file`: the content of a file replaced and read as a whole.

`write_file` maps its blocks first and stores nothing until every block has a
zone.  Its loops use all 512 entries of a pointer block, while the loops of
`read_file` stop after 511.  The file system's own block size is 2048 bytes on
every volume that mounts, so that a pointer block has 512 entries.
-/
import Twilight.Fs.Node

namespace Twilight.Fs

open Prog

/-- `read_file` fails with a text; `panic` is an `unwrap` of an error. -/
inductive ReadError
  | err (text : String)
  | panic
deriving DecidableEq

/-- One block to store: the bytes of the data from `dataOffset` on. -/
structure BlockOp where
  zone : Nat
  dataOffset : Nat
  len : Nat
deriving DecidableEq

/-- What the loops of `write_file` have done so far: the zones taken in advance that are left, the
blocks to store, and the number of bytes these cover. -/
structure FileProgress where
  preallocated : List Nat
  ops : List BlockOp
  written : Nat

namespace TwilightFs

open Node (blocksForLen putEntry dataFrom)

/-! ## Writing -/

def maxFileBlocks : Nat := 6 + 512 + 512 * 512

variable (inode : Inode)

def filePreallocCount (len : Nat) : Nat :=
  let requiredBlocks := blocksForLen len
  let existingBlocks := blocksForLen inode.size.toNat
  let missingData := requiredBlocks - existingBlocks
  let single := if 6 < requiredBlocks ∧ inode.singleIndirectGet = 0 then 1 else 0
  let double :=
    if 6 + 512 < requiredBlocks then
      (if inode.doubleIndirectGet = 0 then 1 else 0) +
        ((requiredBlocks - 6 - 512 + 511) / 512 - (existingBlocks - (6 + 512) + 511) / 512)
    else 0
  -- a file in the direct slots takes its zones one by one
  if 0 < requiredBlocks ∧ requiredBlocks ≤ 6 then 0 else missingData + (single + double)

def filePreallocate (len : Nat) : FsM FsError (List Nat) := do
  let count := filePreallocCount inode len
  if count = 0 then pure []
  else do
    match ← attempt (allocateZones count) with
    | .ok zones => pure zones
    | .error _ => pure []

def fileNewZone (preallocated : List Nat) : FsM FsError (Nat × List Nat) :=
  match preallocated with
  | z :: rest => pure (z, rest)
  | [] => do
    let z ← mapErr (fun _ => .invalidInode) allocateZone
    pure (z, [])

/-- Give consecutive blocks the entries of a table from `i` on, below `cap`, with a new zone where
there is none.  The flag says whether the table has changed. -/
def fileEntries {τ : Type} (get : τ → Nat → Nat) (set : τ → Nat → Nat → τ) (cap total : Nat)
    (i : Nat) (table : τ) (dirty : Bool) (pr : FileProgress) :
    FsM FsError (τ × Bool × FileProgress) :=
  if cap ≤ i ∨ total ≤ pr.written then pure (table, dirty, pr)
  else
    let copySize := min 2048 (total - pr.written)
    if get table i = 0 then do
      let (zone, preallocated) ← fileNewZone pr.preallocated
      fileEntries get set cap total (i + 1) (set table i zone) true
        ⟨preallocated, pr.ops ++ [⟨zone, pr.written, copySize⟩], pr.written + copySize⟩
    else
      fileEntries get set cap total (i + 1) table dirty
        ⟨pr.preallocated, pr.ops ++ [⟨get table i, pr.written, copySize⟩], pr.written + copySize⟩
termination_by cap - i

variable (total : Nat) (zones : Nat → Nat)

def fileDirect (pr : FileProgress) : FsM FsError ((Nat → Nat) × Bool × FileProgress) :=
  fileEntries (fun t k => t k) Function.update 6 total 0 zones false pr

def filePointers (buf : Bytes) (dirty : Bool) (pr : FileProgress) :
    FsM FsError (Bytes × Bool × FileProgress) :=
  fileEntries entryAt putEntry 512 total 0 buf dirty pr

def changed (zone : Nat) (buf : Bytes) (dirty : Bool) : List (Nat × Bytes) :=
  if dirty then [(zone, buf)] else []

/-- The single indirect range: the record, and the pointer block if it has changed. -/
def fileSingle (inode : Inode) (pr : FileProgress) :
    FsM FsError (Inode × List (Nat × Bytes) × FileProgress) :=
  if total ≤ pr.written then pure (inode, [], pr)
  else if inode.singleIndirectGet = 0 then do
    let (zone, preallocated) ← fileNewZone pr.preallocated
    let (buf, dirty, pr) ← filePointers total Bytes.zero true
      { pr with preallocated := preallocated }
    pure (inode.singleIndirectSet zone, changed zone buf dirty, pr)
  else do
    let buf ← readTfsBlock inode.singleIndirectGet
    let (buf, dirty, pr) ← filePointers total buf false pr
    pure (inode, changed inode.singleIndirectGet buf dirty, pr)

/-- The loop over the entries of the double indirect block; `l2` are the second-level blocks that
have changed. -/
def fileL1 (total i : Nat) (root : Bytes) (dirty : Bool) (l2 : List (Nat × Bytes))
    (pr : FileProgress) : FsM FsError (Bytes × Bool × List (Nat × Bytes) × FileProgress) :=
  if 512 ≤ i ∨ total ≤ pr.written then pure (root, dirty, l2, pr)
  else if entryAt root i = 0 then do
    let (zone, preallocated) ← fileNewZone pr.preallocated
    let (buf, dirtyL2, pr) ← filePointers total Bytes.zero false
      { pr with preallocated := preallocated }
    fileL1 total (i + 1) (putEntry root i zone) true (l2 ++ changed zone buf dirtyL2) pr
  else do
    let buf ← readTfsBlock (entryAt root i)
    let (buf, dirtyL2, pr) ← filePointers total buf false pr
    fileL1 total (i + 1) root dirty (l2 ++ changed (entryAt root i) buf dirtyL2) pr
termination_by 512 - i

/-- The double indirect range: the record, the second-level blocks that have changed, and the
double indirect block if it has. -/
def fileDouble (inode : Inode) (pr : FileProgress) :
    FsM FsError (Inode × List (Nat × Bytes) × List (Nat × Bytes) × FileProgress) :=
  if total ≤ pr.written then pure (inode, [], [], pr)
  else if inode.doubleIndirectGet = 0 then do
    let (zone, preallocated) ← fileNewZone pr.preallocated
    let (root, dirty, l2, pr) ← fileL1 total 0 Bytes.zero true []
      { pr with preallocated := preallocated }
    pure (inode.doubleIndirectSet zone, l2, changed zone root dirty, pr)
  else do
    let root ← readTfsBlock inode.doubleIndirectGet
    let (root, dirty, l2, pr) ← fileL1 total 0 root false [] pr
    pure (inode, l2, changed inode.doubleIndirectGet root dirty, pr)

def BlockOp.joined (a b : BlockOp) : Bool :=
  a.len = 2048 && b.len = 2048 && b.zone = a.zone + 1 && b.dataOffset = a.dataOffset + 2048

/-- The data: whole blocks of consecutive zones at once, and a last part filled up with zeros. -/
def storeData (data : List UInt8) (ops : List BlockOp) : FsM FsError Unit :=
  match ops with
  | [] => pure ()
  | op :: rest =>
    if op.len = 2048 then do
      let runLen := runLength BlockOp.joined (op :: rest)
      writeTfsBlocks op.zone (((op :: rest).take runLen).map fun o => dataFrom data o.dataOffset)
      storeData data ((op :: rest).drop runLen)
    else do
      writeTfsBlock op.zone (Bytes.zero.splice 0 op.len (dataFrom data op.dataOffset))
      storeData data rest
termination_by ops.length
decreasing_by
  · have := runLength_pos BlockOp.joined op rest
    simp only [List.length_drop, List.length_cons]
    omega
  · simp

def storeBlocks : List (Nat × Bytes) → FsM FsError Unit
  | [] => pure ()
  | (zone, buf) :: rest => do
    writeTfsBlock zone buf
    storeBlocks rest

def fileInode (written : Nat) : Inode :=
  ((List.range 6).foldl (fun i k => i.directSlotSet k (zones k)) inode).withSize
    (UInt64.ofNat written)

variable (inodeNum : Nat)

/-- What `write_file` stores once every block has a zone. -/
def storeFile (data : List UInt8) (inode : Inode) (pointers : List (Nat × Bytes))
    (pr : FileProgress) : FsM FsError Unit := do
  storeData data pr.ops
  storeBlocks pointers
  mapErr (fun _ => .invalidInode) (writeInode inodeNum inode)
  deallocZones pr.preallocated
  invalidateFileInode inodeNum

def writeFile (data : List UInt8) : FsM FsError Unit := do
  let sb := (← get).superblock
  if inodeNum = 0 ∨ sb.ninodes < inodeNum then throw .invalidInode
  else do
    let inode ← mapErr (fun _ => .invalidInode) (readInode inodeNum)
    if maxFileBlocks < blocksForLen data.length then throw .fileSizeTooLarge
    else do
      let preallocated ← filePreallocate inode data.length
      let (zones, _, pr) ← fileDirect data.length inode.directSlotGet ⟨preallocated, [], 0⟩
      let (inode, single, pr) ← fileSingle data.length inode pr
      let (inode, l2, double, pr) ← fileDouble data.length inode pr
      if pr.written < data.length then throw .fileSizeTooLarge
      else storeFile inodeNum data (fileInode inode zones pr.written) (l2 ++ single ++ double) pr

/-! ## Reading -/

/-- Append the blocks of the entries from `i` on, below `cap`, to the content, until an entry is 0
or nothing remains. -/
def readEntries (entry : Nat → Nat) (cap i remaining : Nat) (content : List UInt8) :
    FsM ReadError (List UInt8 × Nat) :=
  if cap ≤ i then pure (content, remaining)
  else if entry i = 0 then pure (content, remaining)
  else do
    let buf ← mapErr (fun _ => .panic) (readTfsBlock (entry i))
    let toRead := min remaining 2048
    if remaining - toRead = 0 then pure (content ++ buf.slice 0 toRead, 0)
    else readEntries entry cap (i + 1) (remaining - toRead) (content ++ buf.slice 0 toRead)
termination_by cap - i

def readL1 (root : Bytes) (i remaining : Nat) (content : List UInt8) :
    FsM ReadError (List UInt8 × Nat) :=
  if 511 ≤ i ∨ remaining = 0 then pure (content, remaining)
  else if entryAt root i = 0 then pure (content, remaining)
  else do
    let buf ← mapErr (fun _ => .panic) (readTfsBlock (entryAt root i))
    let (content, remaining) ← readEntries (entryAt buf) 511 0 remaining content
    readL1 root (i + 1) remaining content
termination_by 511 - i

def readSingle (remaining : Nat) (content : List UInt8) : FsM ReadError (List UInt8 × Nat) :=
  if inode.singleIndirectGet = 0 then pure (content, remaining)
  else do
    let buf ← mapErr (fun _ => .panic) (readTfsBlock inode.singleIndirectGet)
    readEntries (entryAt buf) 511 0 remaining content

def readDouble (remaining : Nat) (content : List UInt8) : FsM ReadError (List UInt8 × Nat) :=
  if inode.doubleIndirectGet = 0 then pure (content, remaining)
  else do
    let root ← mapErr (fun _ => .panic) (readTfsBlock inode.doubleIndirectGet)
    readL1 root 0 remaining content

def readFile : FsM ReadError (List UInt8) := do
  let inode ← mapErr .err (readInode inodeNum)
  if inode.isInline then pure inode.inlineDataBytes
  else do
    let (content, remaining) ← readEntries inode.directSlotGet 6 0 inode.size.toNat []
    let (content, remaining) ← readSingle inode remaining content
    let (content, _) ← readDouble inode remaining content
    pure content

end TwilightFs
end Twilight.Fs

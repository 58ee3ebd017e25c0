/-
An open file of TwilightFS: `TFSVfsNode` with its `read`, `write` and `truncate`.

A node works on its own copy of the inode record, which it stores when a call
succeeds.  Data goes through the direct slots, the single indirect block and the
double indirect block; the three loops of `write` differ only in the table they
look the zones up in, and are `fillBlocks` with that table.  The writer uses 511
entries of every pointer block, so that it counts 517 blocks before the double
indirect range, while the block-by-block reader counts 518.
-/
import Twilight.Fs.Directory

namespace Twilight.Fs

open List Nat Prog

/-- A node fails with `Err(())`; `panic` is an `unwrap` of an error or a slice out of
range. -/
inductive NodeError
  | failed
  | panic
deriving DecidableEq

structure NodeState where
  fs : TwilightFs
  inode : Inode

abbrev NodeM := Prog NodeState NodeError

/-- What a node keeps beside the record.  `keystream` is what the cipher does to the
block of a zone with the key of the file's owner, if the current user has it. -/
structure NodeEnv where
  inodeNo : Nat
  keystream : Option (Nat → Bytes → Bytes)

/-- The length of the first run of a list, in which each element is joined to the one
before it. -/
def runLength {α : Type} (joined : α → α → Bool) : List α → Nat
  | [] => 0
  | [_] => 1
  | a :: b :: rest => if joined a b then runLength joined (b :: rest) + 1 else 1

lemma runLength_pos {α : Type} (joined : α → α → Bool) (a : α) (l : List α) :
    0 < runLength joined (a :: l) := by
  cases l with
  | nil => exact one_pos
  | cons b rest =>
    rw [runLength]
    split
    · exact succ_pos _
    · exact one_pos

namespace Node

open TwilightFs

def onFs {ε α : Type} (x : FsM ε α) : NodeM α := fun s =>
  match x s.fs with
  | .ok a fs => .ok a { s with fs := fs }
  | .error _ fs => .error .failed { s with fs := fs }

def setInode (f : Inode → Inode) : NodeM Unit := modify fun s => { s with inode := f s.inode }

variable (env : NodeEnv) (i : Inode)

def applyCrypto (zone : Nat) (buf : Bytes) : Bytes :=
  if i.isEncrypted then
    match env.keystream with
    | some stream => stream zone buf
    | none => buf
  else buf

/-! ## Reading -/

/-- The entries of a pointer block up to the first that is 0. -/
def pointerZones (buf : Bytes) : List Nat := ((range 512).map (entryAt buf)).takeWhile (· ≠ 0)

/-- The second-level blocks below the given entries of the double indirect block; one
that cannot be read is left out. -/
def doubleZones : List Nat → NodeM (List Nat)
  | [] => pure []
  | z :: rest => do
    let found ← attempt (onFs (readTfsBlock z))
    let below := match found with
      | .ok buf => pointerZones buf
      | .error _ => []
    pure (below ++ (← doubleZones rest))

/-- What is below a pointer field of the record, unless the field is 0 or its block cannot be
read. -/
def zonesBelow (zone : Nat) (collect : Bytes → NodeM (List Nat)) : NodeM (List Nat) :=
  if zone = 0 then pure []
  else do
    match ← attempt (onFs (readTfsBlock zone)) with
    | .ok buf => collect buf
    | .error _ => pure []

/-- The zones of the file as `read_all_file` collects them. -/
def allZones : NodeM (List Nat) := do
  let direct := ((range 6).map i.directSlotGet).takeWhile (· ≠ 0)
  let single ← zonesBelow i.singleIndirectGet fun buf => pure (pointerZones buf)
  let double ← zonesBelow i.doubleIndirectGet fun buf => doubleZones (pointerZones buf)
  pure (direct ++ single ++ double)

/-- Copy the zones one after the other to `out`, in transfers of up to 128 blocks of
consecutive zones, until the file is full. -/
def readRuns (env : NodeEnv) (i : Inode) (fileSize : Nat) (zones : List Nat) (offset : Nat)
    (out : Bytes) : NodeM Bytes :=
  match zones with
  | [] => pure out
  | z :: rest => do
    let runLen := min (runLength (fun a b => b == a + 1) (z :: rest)) 128
    let bufs ← onFs (readTfsBlocks z runLen)
    let temp : Bytes := fun j => applyCrypto env i (z + j / 2048) (bufs (j / 2048)) (j % 2048)
    let bytesToCopy := min (runLen * 2048) (fileSize - offset)
    let out := out.splice offset bytesToCopy temp
    if fileSize ≤ offset + bytesToCopy then pure out
    else readRuns env i fileSize ((z :: rest).drop runLen) (offset + bytesToCopy) out
termination_by zones.length
decreasing_by
  have := runLength_pos (fun a b => b == a + 1) z rest
  simp only [length_drop, length_cons]
  omega

def readAllFile : NodeM (List UInt8) := do
  if i.isInline then pure i.inlineDataBytes
  else do
    let zones ← allZones i
    let out ← readRuns env i i.size.toNat zones 0 Bytes.zero
    pure (out.slice 0 i.size.toNat)

/-- The zone of a block as the block-by-block reader finds it, or 0. -/
def zoneOf (block : Nat) : NodeM Nat :=
  if block < 6 then pure (i.directSlotGet block)
  else if block < 518 then
    if i.singleIndirectGet = 0 then pure 0
    else do
      let buf ← onFs (readTfsBlock i.singleIndirectGet)
      pure (entryAt buf (block - 6))
  else if block < 518 + 512 * 512 then
    if i.doubleIndirectGet = 0 then pure 0
    else do
      let root ← onFs (readTfsBlock i.doubleIndirectGet)
      let l1 := entryAt root ((block - 518) / 512)
      if l1 = 0 then pure 0
      else do
        let buf ← onFs (readTfsBlock l1)
        pure (entryAt buf ((block - 518) % 512))
  else pure 0

structure ReadOp where
  zone : Nat
  blockOff : Nat
  len : Nat

/-- The loop that looks the zones up; it ends at the first block without a zone. -/
def readOps (i : Inode) (pos remaining : Nat) : NodeM (List ReadOp) :=
  if remaining = 0 then pure []
  else do
    let zone ← zoneOf i (pos / 2048)
    if zone = 0 then pure []
    else do
      let toCopy := min remaining (2048 - pos % 2048)
      let rest ← readOps i (pos + toCopy) (remaining - toCopy)
      pure (⟨zone, pos % 2048, toCopy⟩ :: rest)
termination_by remaining
decreasing_by
  have := mod_lt pos (show 0 < 2048 by decide)
  omega

/-- The pieces lie one after the other in the output, so their places there need no
comparison. -/
def ReadOp.joined (a b : ReadOp) : Bool := b.blockOff = 0 && b.len = 2048 && b.zone = a.zone + 1

/-- The transfers: whole blocks of consecutive zones at once, other pieces one by one. -/
def readPieces (env : NodeEnv) (i : Inode) (ops : List ReadOp) : NodeM (List UInt8) :=
  match ops with
  | [] => pure []
  | op :: rest =>
    if op.blockOff = 0 ∧ op.len = 2048 then do
      let runLen := runLength ReadOp.joined (op :: rest)
      let bufs ← onFs (readTfsBlocks op.zone runLen)
      let bytes := (range runLen).flatMap fun b =>
        (applyCrypto env i (op.zone + b) (bufs b)).slice 0 2048
      pure (bytes ++ (← readPieces env i ((op :: rest).drop runLen)))
    else do
      let buf ← onFs (readTfsBlock op.zone)
      let bytes := (applyCrypto env i op.zone buf).slice op.blockOff op.len
      pure (bytes ++ (← readPieces env i rest))
termination_by ops.length
decreasing_by
  · have := runLength_pos ReadOp.joined op rest
    simp only [length_drop, length_cons]
    omega
  · simp

def readCachedFileSlice (inodeNo offset len : Nat) : NodeM (Option (List UInt8)) := do
  onFs (ε := NodeError) (modifyFiles id)
  pure ((← get).fs.shared.files.getSlice inodeNo offset len)

def read (lba len : Nat) : NodeM (List UInt8) := do
  let i := (← get).inode
  let fileSize := i.size.toNat
  if fileSize ≤ lba then pure []
  else if i.isInline then
    if i.inlineDataBytes.length < lba then throw .panic
    else pure ((i.inlineDataBytes.drop lba).take len)
  else
    let maxToRead := min (fileSize - lba) len
    let blocks : NodeM (List UInt8) := do
      readPieces env i (← readOps i lba maxToRead)
    if fileSize ≤ fileCacheMaxFileBytes then do
      match ← readCachedFileSlice env.inodeNo lba len with
      | some bytes => pure (bytes.take maxToRead)
      | none =>
        match ← attempt (readAllFile env i) with
        | .ok data => do
          onFs (ε := NodeError) (modifyFiles fun c => c.insert env.inodeNo data)
          pure ((data.drop lba).take maxToRead)
        | .error _ => blocks
    else blocks

/-! ## Writing -/

def blocksForLen (len : Nat) : Nat := if len = 0 then 0 else (len + 2047) % 2 ^ 64 / 2048

def preallocCount (lba len : Nat) : Nat :=
  let currentSize := i.size.toNat
  let currentBlocks := blocksForLen currentSize
  let endBlocks := blocksForLen (lba + len)
  let touchedBlocks := (lba % 2048 + len + 2047) / 2048
  let startBlock := lba / 2048
  let missingData := if lba ≤ currentSize then endBlocks - currentBlocks else touchedBlocks
  let missingStart := if lba ≤ currentSize then currentBlocks else startBlock
  -- direct slots that have a zone already
  let missingData := (range' missingStart (min endBlocks 6 - missingStart)).foldl
    (fun missing b => if i.directSlotGet b ≠ 0 then missing - 1 else missing) missingData
  let single := if startBlock < 517 ∧ 6 < endBlocks ∧ i.singleIndirectGet = 0 then 1 else 0
  let touchedStart := max startBlock 517
  let touchedEnd := min endBlocks (517 + 511 * 511)
  let double :=
    if 517 < endBlocks ∧ touchedStart < touchedEnd then
      (if i.doubleIndirectGet = 0 then 1 else 0) +
        ((touchedEnd - 1 - 517) / 511 - (touchedStart - 517) / 511 + 1)
    else 0
  missingData + single + double

/-- The zones `write` takes in advance; if there are too few, it takes none. -/
def preallocate (lba total : Nat) : NodeM (List Nat) := do
  let count := preallocCount i lba total
  if count = 0 then pure []
  else do
    match ← attempt (onFs (allocZones count)) with
    | .ok zones => pure zones
    | .error _ => pure []

structure WriteOp where
  zone : Nat
  dataOffset : Nat
  blockOffset : Nat
  len : Nat
  newBlock : Bool

/-- What the loops of `write` have done so far: the zones taken in advance that are left,
the transfers to make, and the number of bytes these cover. -/
structure Progress where
  preallocated : List Nat
  ops : List WriteOp
  written : Nat

def getNewZone (preallocated : List Nat) : NodeM (Nat × List Nat) :=
  match preallocated with
  | z :: rest => pure (z, rest)
  | [] => do
    let z ← onFs allocZone
    pure (z, [])

/-- Look the zones of consecutive blocks up in a table, whose entry for a block is at
`index block`, below `cap`, and put a new zone where there is none.  The flag says
whether the table has changed. -/
def fillBlocks {τ : Type} (get : τ → Nat → Nat) (set : τ → Nat → Nat → τ) (index : Nat → Nat)
    (cap lba total : Nat) (table : τ) (dirty : Bool) (pr : Progress) :
    NodeM (τ × Bool × Progress) :=
  if total ≤ pr.written then pure (table, dirty, pr)
  else
    let pos := lba + pr.written
    let idx := index (pos / 2048)
    if cap ≤ idx then pure (table, dirty, pr)
    else
      let copySize := min (total - pr.written) (2048 - pos % 2048)
      if get table idx = 0 then do
        let (zone, preallocated) ← getNewZone pr.preallocated
        fillBlocks get set index cap lba total (set table idx zone) true
          ⟨preallocated, pr.ops ++ [⟨zone, pr.written, pos % 2048, copySize, true⟩],
            pr.written + copySize⟩
      else
        fillBlocks get set index cap lba total table dirty
          ⟨pr.preallocated,
            pr.ops ++ [⟨get table idx, pr.written, pos % 2048, copySize, false⟩],
            pr.written + copySize⟩
termination_by total - pr.written
decreasing_by
  all_goals
    have := mod_lt (lba + pr.written) (show 0 < 2048 by decide)
    omega

def putEntry (buf : Bytes) (k zone : Nat) : Bytes := buf.putLE (k * 4) 4 zone

variable (lba total : Nat)

def writeDirect (zones : Nat → Nat) (pr : Progress) : NodeM ((Nat → Nat) × Bool × Progress) :=
  fillBlocks (fun t k => t k) Function.update (fun block => block) 6 lba total zones false pr

def writeSingleEntries (buf : Bytes) (dirty : Bool) (pr : Progress) :
    NodeM (Bytes × Bool × Progress) :=
  fillBlocks entryAt putEntry (fun block => block - 6) 511 lba total buf dirty pr

/-- The loop over the entries of a second-level block.  `l2_idx` starts at the block's
place in its group of 512 and runs along with the block number. -/
def writeL2Entries (buf : Bytes) (dirty : Bool) (pr : Progress) : NodeM (Bytes × Bool × Progress) :=
  fillBlocks entryAt putEntry (fun block => (block - 517) % 512) 511 lba total buf dirty pr

variable (pr : Progress)

def writeSingle : NodeM Progress := do
  let single := (← get).inode.singleIndirectGet
  let (buf, dirty, pr) ←
    if single = 0 then do
      let (zone, preallocated) ← getNewZone pr.preallocated
      setInode fun i => i.singleIndirectSet zone
      writeSingleEntries lba total Bytes.zero true { pr with preallocated := preallocated }
    else do
      let buf ← onFs (readTfsBlock single)
      writeSingleEntries lba total buf false pr
  if dirty then do
    onFs (writeTfsBlock (← get).inode.singleIndirectGet buf)
    pure pr
  else pure pr

def writeL1 (lba total l1Idx : Nat) (root : Bytes) (rootDirty : Bool) (pr : Progress) :
    NodeM (Bytes × Bool × Progress) :=
  if total ≤ pr.written ∨ 511 ≤ l1Idx then pure (root, rootDirty, pr)
  else do
    let l1Zone := entryAt root l1Idx
    if l1Zone = 0 then do
      let (zone, preallocated) ← getNewZone pr.preallocated
      let (buf, dirty, pr) ← writeL2Entries lba total Bytes.zero true
        { pr with preallocated := preallocated }
      if dirty then onFs (writeTfsBlock zone buf)
      writeL1 lba total (l1Idx + 1) (putEntry root l1Idx zone) true pr
    else do
      let buf ← onFs (readTfsBlock l1Zone)
      let (buf, dirty, pr) ← writeL2Entries lba total buf false pr
      if dirty then onFs (writeTfsBlock l1Zone buf)
      writeL1 lba total (l1Idx + 1) root rootDirty pr
termination_by 511 - l1Idx

def writeDouble : NodeM Progress := do
  let double := (← get).inode.doubleIndirectGet
  let l1Idx := ((lba + pr.written) / 2048 - 517) / 512
  let (root, dirty, pr) ←
    if double = 0 then do
      let (zone, preallocated) ← getNewZone pr.preallocated
      setInode fun i => i.doubleIndirectSet zone
      writeL1 lba total l1Idx Bytes.zero true { pr with preallocated := preallocated }
    else do
      let root ← onFs (readTfsBlock double)
      writeL1 lba total l1Idx root false pr
  if dirty then do
    onFs (writeTfsBlock (← get).inode.doubleIndirectGet root)
    pure pr
  else pure pr

def writeIndirect : NodeM Progress :=
  if pr.written < total then do
    let pr ← writeSingle lba total pr
    if pr.written < total then writeDouble lba total pr else pure pr
  else pure pr

/-! ### The transfers -/

def dataFrom (data : List UInt8) (off : Nat) : Bytes := fun j => data.getD (off + j) 0

def WriteOp.joined (a b : WriteOp) : Bool :=
  b.zone = a.zone + 1 && a.len = 2048 && b.len = 2048 && a.blockOffset = 0 &&
    b.blockOffset = 0 && a.dataOffset + a.len = b.dataOffset

def writeBlocks (start : Nat) (bufs : List Bytes) : NodeM Unit := do
  let fs := (← get).fs
  if fs.isReadOnly || bufs.length * 2048 % fs.superblock.blockSize != 0 then throw .failed
  else onFs (writeTfsBlocks start bufs)

/-- The transfers of an unencrypted file: whole blocks of consecutive zones at once, and
other pieces by reading the block, unless it is new, and changing it. -/
def flushOps (data : List UInt8) (ops : List WriteOp) : NodeM Unit :=
  match ops with
  | [] => pure ()
  | op :: rest => do
    let runLen := runLength WriteOp.joined (op :: rest)
    if 1 < runLen then
      writeBlocks op.zone (((op :: rest).take runLen).map fun o => dataFrom data o.dataOffset)
    else if op.len = 2048 ∧ op.blockOffset = 0 then
      onFs (writeTfsBlock op.zone (dataFrom data op.dataOffset))
    else do
      let buf ← if op.newBlock then pure Bytes.zero else onFs (readTfsBlock op.zone)
      onFs (writeTfsBlock op.zone (buf.splice op.blockOffset op.len (dataFrom data op.dataOffset)))
    flushOps data ((op :: rest).drop runLen)
termination_by ops.length
decreasing_by
  have := runLength_pos WriteOp.joined op rest
  simp only [length_drop, length_cons]
  omega

/-- The transfers of an encrypted file, block by block. -/
def flushEncrypted (env : NodeEnv) (i : Inode) (data : List UInt8) : List WriteOp → NodeM Unit
  | [] => pure ()
  | op :: rest => do
    let buf ←
      if ¬ op.newBlock ∧ op.len < 2048 then do
        let buf ← onFs (readTfsBlock op.zone)
        pure (applyCrypto env i op.zone buf)
      else pure Bytes.zero
    let buf := buf.splice op.blockOffset op.len (dataFrom data op.dataOffset)
    onFs (writeTfsBlock op.zone (applyCrypto env i op.zone buf))
    flushEncrypted env i data rest

def flush (data : List UInt8) (ops : List WriteOp) : NodeM Unit :=
  if i.isEncrypted then flushEncrypted env i data ops else flushOps data ops

/-- `for z in preallocated { let _ = self.ctx.lock().free_zone(z); }` -/
def freeZones : List Nat → NodeM Unit
  | [] => pure ()
  | z :: rest => do
    let _ ← attempt (onFs (freeZone z))
    freeZones rest

def finishInode (endPos : Nat) (zones : Nat → Nat) : Inode :=
  (range 6).foldl (fun i k => i.directSlotSet k (zones k))
    (if i.size.toNat < endPos then i.withSize (UInt64.ofNat endPos) else i)

def storeInode (e : NodeError) : NodeM Unit := do
  match ← attempt
      (onFs (writeInodeTwilight env.inodeNo (← get).inode)) with
  | .ok () => onFs (ε := NodeError) (modifyFiles (·.invalidateInode env.inodeNo))
  | .error _ => throw e

def write (lba : Nat) (data : List UInt8) : NodeM Unit := do
  let total := data.length
  if total = 0 then pure ()
  else if 2 ^ 64 ≤ lba + total then throw .failed
  else do
    let i := (← get).inode
    let preallocated ← preallocate i lba total
    let (zones, _, pr) ← writeDirect lba total i.directSlotGet ⟨preallocated, [], 0⟩
    let pr ← writeIndirect lba total pr
    flush env (← get).inode data pr.ops
    freeZones pr.preallocated
    setInode fun i => finishInode i (pr.written + lba) zones
    storeInode env .panic

def writeZeros (env : NodeEnv) (offset remaining : Nat) : NodeM Unit :=
  if remaining = 0 then pure ()
  else do
    let n := min remaining 2048
    write env offset (replicate n 0)
    writeZeros env (offset + n) (remaining - n)
termination_by remaining
decreasing_by omega

def truncate (len : Nat) : NodeM Unit := do
  let cur := (← get).inode.size.toNat
  if len = cur then pure ()
  else if len < cur then do
    setInode fun i => i.withSize (UInt64.ofNat len)
    storeInode env .failed
  else writeZeros env cur (len - cur)

end Node
end Twilight.Fs

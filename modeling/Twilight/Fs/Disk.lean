/-
A mounted TwilightFS: the device, the block transfers and the on-disk tables.

The device is error-free: a transfer fails only when it leaves the device.  A
block number is turned into a 32-bit sector address by a truncating cast, which
`Device.index` keeps.
-/
import Twilight.Lib.Bits
import Twilight.Lib.Prog
import Twilight.Fs.Cache
import Twilight.Fs.Superblock

namespace Twilight.Fs

/-- The errors of file-system operations.  `panic` stands for an `unwrap` of an
error, which stops the kernel. -/
inductive FsError
  | notSupported
  | fileAlreadyExists
  | fileNotFound
  | invalidPath
  | invalidInode
  | fileNameTooLong
  | fileSizeTooLarge
  | panic
deriving DecidableEq

inductive TfsError
  | invalidPath
  | fileNotFound
  | fileAlreadyExists
  | fileNameTooLong
  | noSpaceLeft
  | ioError
  | invalidInode
  | invalidZone
deriving DecidableEq

/-- A block device of `sectors` sectors of 512 bytes, seen four sectors at a time. -/
structure Device where
  sectors : Nat
  data : Nat → Bytes

namespace Device

/-- `start_block_no * 4` as a `u32` sector address. -/
def sectorOf (block : Nat) : Nat := block * 4 % 2 ^ 32

def index (block : Nat) : Nat := sectorOf block / 4

def inRange (d : Device) (block count : Nat) : Bool :=
  decide (sectorOf block + 4 * count ≤ d.sectors)

def store (d : Nat → Bytes) : Nat → List Bytes → Nat → Bytes
  | _, [] => d
  | i, b :: bs => store (Function.update d i b) (i + 1) bs

lemma index_of_lt {block : Nat} (h : block < 2 ^ 30) : index block = block := by
  unfold index sectorOf; omega

lemma inRange_of_le {d : Device} {block count : Nat} (hd : d.sectors < 2 ^ 32)
    (h : 4 * (block + count) ≤ d.sectors) (hc : 0 < count) : d.inRange block count = true := by
  have : sectorOf block = block * 4 := by unfold sectorOf; omega
  simp only [inRange, this, decide_eq_true_eq]
  omega

end Device

inductive MountMode
  | readOnly
  | readWrite
deriving DecidableEq

structure TwilightFs where
  superblock : Superblock
  device : Device
  mountMode : MountMode
  shared : Shared

abbrev FsM := Prog TwilightFs

def entryAt (b : Bytes) (k : Nat) : Nat := if k < 512 then b.readLE (k * 4) 4 else 0

namespace TwilightFs

def isReadOnly (s : TwilightFs) : Bool := s.mountMode == .readOnly

/-! ## Block transfers -/

def readTfsBlocks (start count : Nat) : FsM FsError (Nat → Bytes) := fun s =>
  if s.device.inRange start count then
    .ok (fun j => s.device.data (Device.index start + j)) s
  else .error .invalidInode s

def readTfsBlock (block : Nat) : FsM FsError Bytes := do
  let bufs ← readTfsBlocks block 1
  pure (bufs 0)

def writeTfsBlocks (start : Nat) (bufs : List Bytes) : FsM FsError Unit := fun s =>
  if s.device.inRange start bufs.length then
    .ok () { s with device :=
      { s.device with data := Device.store s.device.data (Device.index start) bufs } }
  else .error .invalidInode s

def writeTfsBlock (block : Nat) (buf : Bytes) : FsM FsError Unit := writeTfsBlocks block [buf]

def setBlock (s : TwilightFs) (i : Nat) (buf : Bytes) : TwilightFs :=
  { s with device := { s.device with data := Function.update s.device.data i buf } }

variable {s : TwilightFs} {block : Nat}

lemma readTfsBlock_ok (h : s.device.inRange block 1 = true) :
    readTfsBlock block s = .ok (s.device.data (Device.index block)) s := by
  have hb : readTfsBlocks block 1 s
      = .ok (fun j => s.device.data (Device.index block + j)) s := if_pos h
  rw [readTfsBlock, Prog.bind_ok hb]
  rfl

lemma readTfsBlock_error (h : s.device.inRange block 1 = false) :
    readTfsBlock block s = .error .invalidInode s := by
  have hb : readTfsBlocks block 1 s = .error .invalidInode s := if_neg (by simp [h])
  rw [readTfsBlock, Prog.bind_error hb]

lemma writeTfsBlock_ok (buf : Bytes) (h : s.device.inRange block 1 = true) :
    writeTfsBlock block buf s = .ok () (s.setBlock (Device.index block) buf) := if_pos h

/-! ## The bitmaps -/

/-- Scan the bitmap blocks `start + i`, `start + i + 1`, ... for the first one in
which `scan` finds a bit. -/
def findClear (scan : Nat → Bytes → Option Nat) (start : Nat) :
    Nat → Nat → FsM TfsError (Option (Nat × Bytes × Nat))
  | _, 0 => pure none
  | i, n + 1 => do
    let buf ← Prog.mapErr (fun _ => .ioError) (readTfsBlock (start + i))
    match scan i buf with
    | some bit => pure (some (i, buf, bit))
    | none => findClear scan start (i + 1) n

def maxDataZones (sb : Superblock) : Nat := sb.zones - sb.firstDataZone

def allocateZone : FsM TfsError Nat := do
  let sb := (← get).superblock
  let zmapStart := sb.imapBlocks + 1
  let found ← findClear (fun _ buf => buf.firstClear fsBlockSize) zmapStart 0 sb.zmapBlocks
  match found with
  | none => throw .noSpaceLeft
  | some (i, buf, bit) =>
    let zone := i * sb.bitsPerBlock + bit
    if maxDataZones sb ≤ zone then throw .noSpaceLeft
    else do
      Prog.mapErr (fun _ => .ioError) (writeTfsBlock (zmapStart + i) (buf.setBit bit))
      pure (zone + sb.firstDataZone)

/-- The index of the inode, one less than its number. -/
def allocateInode : FsM TfsError Nat := do
  let sb := (← get).superblock
  let found ← findClear
    (fun i buf => buf.firstClearBelow (sb.ninodes - i * sb.bitsPerBlock) sb.blockSize)
    1 0 sb.imapBlocks
  match found with
  | none => throw .noSpaceLeft
  | some (i, buf, bit) => do
    Prog.mapErr (fun _ => .ioError) (writeTfsBlock (1 + i) (buf.setBit bit))
    pure (i * sb.bitsPerBlock + bit)

def deallocZone (zone : Nat) : FsM TfsError Unit := do
  let sb := (← get).superblock
  if zone < sb.firstDataZone then throw .invalidZone
  else
    let relativeZone := zone - sb.firstDataZone
    let blockIndex := relativeZone / sb.bitsPerBlock
    let bitIndex := relativeZone % sb.bitsPerBlock
    if sb.zmapBlocks ≤ blockIndex then throw .invalidZone
    else do
      let zmapBlock := 1 + sb.imapBlocks + blockIndex
      let buf ← Prog.mapErr (fun _ => .ioError) (readTfsBlock zmapBlock)
      Prog.mapErr (fun _ => .ioError) (writeTfsBlock zmapBlock (buf.clearBit bitIndex))

def deallocInode (inode : Nat) : FsM TfsError Unit := do
  let sb := (← get).superblock
  if inode = 0 ∨ sb.ninodes < inode then throw .invalidInode
  else do
    let inodeIndex := inode - 1
    let imapBlockLba := 1 + inodeIndex / sb.bitsPerBlock
    let buf ← Prog.mapErr (fun _ => .ioError) (readTfsBlock imapBlockLba)
    Prog.mapErr (fun _ => .ioError)
      (writeTfsBlock imapBlockLba (buf.clearBit (inodeIndex % sb.bitsPerBlock)))

/-- The clear bits of one byte, in order, as long as fewer than `count` zones are
held and the bit is below `limit`.  `base` is the zone of bit 0 of the block. -/
def grabByte (base limit count byte : Nat) : List Nat → Bytes × List Nat → Bytes × List Nat
  | [], acc => acc
  | bit :: rest, (buf, zones) =>
    if zones.length = count then (buf, zones)
    else if buf byte &&& Bytes.mask bit = 0 then
      if limit ≤ byte * 8 + bit then (buf, zones)
      else grabByte base limit count byte rest
        (buf.setBit (byte * 8 + bit), zones ++ [base + (byte * 8 + bit)])
    else grabByte base limit count byte rest (buf, zones)

def grabBlock (base limit count : Nat) : List Nat → Bytes × List Nat → Bytes × List Nat
  | [], acc => acc
  | byte :: rest, (buf, zones) =>
    if zones.length = count then (buf, zones)
    else if buf byte ≠ 0xFF then
      grabBlock base limit count rest (grabByte base limit count byte (List.range 8) (buf, zones))
    else grabBlock base limit count rest (buf, zones)

/-- The block loop of `allocate_zones`: a block is written back when a bit was taken. -/
def grabZones (sb : Superblock) (count : Nat) : Nat → Nat → List Nat → FsM TfsError (List Nat)
  | _, 0, zones => pure zones
  | i, n + 1, zones =>
    if zones.length = count then pure zones
    else do
      let zmapStart := sb.imapBlocks + 1
      let buf ← Prog.mapErr (fun _ => .ioError) (readTfsBlock (zmapStart + i))
      let base := sb.firstDataZone + i * sb.bitsPerBlock
      let limit := maxDataZones sb - i * sb.bitsPerBlock
      let (buf', zones') := grabBlock base limit count (List.range fsBlockSize) (buf, zones)
      if zones'.length ≠ zones.length then do
        Prog.mapErr (fun _ => .ioError) (writeTfsBlock (zmapStart + i) buf')
        grabZones sb count (i + 1) n zones'
      else grabZones sb count (i + 1) n zones'

/-- `for zone in zones { let _ = self.dealloc_zone(zone); }` -/
def deallocZones {ε : Type} : List Nat → FsM ε Unit
  | [] => pure ()
  | zone :: rest => do
    let _ ← Prog.attempt (deallocZone zone)
    deallocZones rest

def allocateZones (count : Nat) : FsM TfsError (List Nat) := do
  let sb := (← get).superblock
  let zones ← grabZones sb count 0 sb.zmapBlocks []
  if zones.length < count then do
    deallocZones zones
    throw .noSpaceLeft
  else pure zones

/-! ## The inode table -/

def writeInode (inodeNum : Nat) (inode : Inode) : FsM String Unit := do
  let sb := (← get).superblock
  if inodeNum = 0 ∨ sb.ninodes < inodeNum then throw "Invalid inode number"
  else do
    let buffer ← Prog.mapErr (fun _ => "Failed to read inode block")
      (readTfsBlock (sb.inodeBlock inodeNum))
    Prog.mapErr (fun _ => "Failed to write inode block")
      (writeTfsBlock (sb.inodeBlock inodeNum)
        (buffer.splice (sb.inodeOffset inodeNum) Inode.byteSize inode.encode))

def readInode (inodeNum : Nat) : FsM String Inode := do
  let sb := (← get).superblock
  if inodeNum = 0 ∨ sb.ninodes < inodeNum then throw "Invalid inode number"
  else do
    let buffer ← Prog.mapErr (fun _ => "Failed to read inode block")
      (readTfsBlock (sb.inodeBlock inodeNum))
    pure (Inode.decode buffer (sb.inodeOffset inodeNum))

/-! ## The context of an open node -/

def allocZone : FsM TfsError Nat := do
  if (← get).isReadOnly then throw .ioError else allocateZone

def freeZone (zone : Nat) : FsM TfsError Unit := do
  if (← get).isReadOnly then throw .ioError else deallocZone zone

def allocZones (count : Nat) : FsM TfsError (List Nat) := do
  if (← get).isReadOnly then throw .ioError else allocateZones count

def writeInodeTwilight (ino : Nat) (inode : Inode) : FsM String Unit := do
  if (← get).isReadOnly then throw "Read-only TwilightFS" else writeInode ino inode

end TwilightFs
end Twilight.Fs

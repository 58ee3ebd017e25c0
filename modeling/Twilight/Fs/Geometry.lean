/-
The two programs that lay out a volume.

`write` formats a partition in the kernel and `Mktfs.imageSuperblock`
computes the header of an image on the host. Both size the inode table in bytes,
`ninodes * 204` rounded up to blocks, while records are addressed ten to a block.
Both find the zone bitmap by a few rounds of a fixed-point iteration; when the
iteration has no fixed point it ends between two values and leaves one block
unused before the data zones. The main result says for which sizes the table
stays below the data zones.
-/
import Twilight.Fs.Disk

namespace Twilight.Fs

open Prog TwilightFs Nat Function Superblock

/-- `div_ceil` of the kernel. -/
def divCeil (u d : Nat) : Nat := (u + d - 1) / d

namespace Superblock

/-- The rounds that settle `(zmap_blocks, first_data_zone)`.  `base` counts the
superblock, the inode bitmap and the inode table. -/
def settle (totalZones base : Nat) : Nat → Nat × Nat → Nat × Nat
  | 0, st => st
  | n + 1, (zmapBlocks, firstDataZone) =>
    let newFirstDataZone := base + zmapBlocks
    let newZmapBlocks := divCeil (totalZones - newFirstDataZone) (fsBlockSize * 8)
    if newFirstDataZone = firstDataZone ∧ newZmapBlocks = zmapBlocks then
      (zmapBlocks, firstDataZone)
    else settle totalZones base n (newZmapBlocks, newFirstDataZone)

def ninodesFor (sectors : Nat) : Nat := max (sectors * 512 / (16 * 1024)) 1

def geometry (sectors : Nat) : Superblock :=
  let totalZones := sectors / (fsBlockSize / 512)
  let ninodes := ninodesFor sectors
  let imapBlocks := divCeil ninodes (fsBlockSize * 8)
  let inodeBlocks := divCeil (ninodes * Inode.byteSize) fsBlockSize
  let settled := settle totalZones (1 + imapBlocks + inodeBlocks) 4 (0, 0)
  { ninodes := ninodes % 2 ^ 32
    imapBlocks := imapBlocks % 2 ^ 32
    zmapBlocks := settled.1 % 2 ^ 32
    firstDataZone := settled.2 % 2 ^ 32
    logZoneSize := 0
    maxSize := 0x7FFFFFFF
    zones := totalZones % 2 ^ 32
    magic := magicTfs0
    blockSize := fsBlockSize
    subversion := 0 }

def write (d : Device) (partitionSectorCount : Nat) : Except String (Superblock × Device) :=
  let sb := geometry partitionSectorCount
  if d.inRange 0 1 then
    .ok (sb, { d with data := Device.store d.data (Device.index 0) [sb.encode] })
  else .error "ERROR: write failed while writing superblock"

end Superblock

namespace Mktfs

inductive BuildError
  | noSpace
  | invalid (message : String)

/-- `div_ceil` of the image builder. -/
def divCeil (value divisor : Nat) : Nat := if value = 0 then 0 else 1 + (value - 1) / divisor

/-- The rounds of `build_image`; the loop stops as soon as the bitmap size repeats. -/
def settle (blocks base : Nat) : Nat → Nat × Nat → Nat × Nat
  | 0, st => st
  | n + 1, (zmapBlocks, _) =>
    let firstDataZone := base + zmapBlocks
    let next := divCeil (blocks - firstDataZone) (fsBlockSize * 8)
    if next = zmapBlocks then (zmapBlocks, firstDataZone)
    else settle blocks base n (next, firstDataZone)

/-- One inode for every 16 KiB, and at least one more than there are nodes. -/
def ninodesFor (nodes size : Nat) : Nat := max (size / (16 * 1024)) (nodes + 1)

def imageSuperblock (nodes size : Nat) : Except BuildError Superblock :=
  if size % fsBlockSize ≠ 0 then .error (.invalid "image size is not block aligned")
  else
    let blocks := size / fsBlockSize
    let ninodes := ninodesFor nodes size
    let imapBlocks := divCeil ninodes (fsBlockSize * 8)
    let inodeBlocks := divCeil (ninodes * Inode.byteSize) fsBlockSize
    let settled := settle blocks (1 + imapBlocks + inodeBlocks) 8 (0, 0)
    if blocks ≤ settled.2 then .error .noSpace
    else .ok
      { ninodes := ninodes % 2 ^ 32
        imapBlocks := imapBlocks % 2 ^ 32
        zmapBlocks := settled.1 % 2 ^ 32
        firstDataZone := settled.2 % 2 ^ 32
        logZoneSize := 0
        maxSize := 0x7FFFFFFF
        zones := blocks % 2 ^ 32
        magic := magicTfs0
        blockSize := fsBlockSize
        subversion := 0 }

lemma divCeil_eq {u d : Nat} (hd : 0 < d) : divCeil u d = Fs.divCeil u d := by
  unfold divCeil Fs.divCeil
  split
  · next h =>
    rw [h, Nat.zero_add, Nat.div_eq_of_lt (by omega)]
  · next h =>
    rw [show u + d - 1 = (u - 1) + d by omega, add_div_right _ hd, add_comm]

end Mktfs

/-! ## The fixed-point iteration -/

namespace Geometry

/-- One round without the early exit: the bitmap for the zones that are left, and
the first data zone of the round before. -/
def round (total base : Nat) (st : Nat × Nat) : Nat × Nat :=
  (divCeil (total - (base + st.1)) 16384, base + st.1)

lemma round_fixed {total base z : Nat} (h : divCeil (total - (base + z)) 16384 = z) (n : Nat) :
    (round total base)^[n] (z, base + z) = (z, base + z) := by
  refine Function.iterate_fixed ?_ n
  rw [round, h]

lemma settle_eq_iterate (total base n : Nat) (st : Nat × Nat) :
    settle total base n st = (round total base)^[n] st := by
  induction n generalizing st with
  | zero => rfl
  | succ n ih =>
    obtain ⟨z, f⟩ := st
    rw [settle, iterate_succ_apply]
    by_cases h : base + z = f ∧ divCeil (total - (base + z)) (fsBlockSize * 8) = z
    · obtain ⟨rfl, hz⟩ := h
      have hz' : divCeil (total - (base + z)) 16384 = z := hz
      rw [if_pos ⟨rfl, hz⟩, round, hz', round_fixed hz']
    · rw [if_neg h, ih]
      rfl

lemma mktfs_settle_eq_iterate {n : Nat} (total base : Nat) (st : Nat × Nat) :
    Mktfs.settle total base n st = (round total base)^[n] st := by
  induction n generalizing st with
  | zero => rfl
  | succ n ih =>
    obtain ⟨z, f⟩ := st
    rw [Mktfs.settle, iterate_succ_apply]
    have hdc : Mktfs.divCeil (total - (base + z)) (fsBlockSize * 8)
        = divCeil (total - (base + z)) 16384 := Mktfs.divCeil_eq (by decide)
    simp only [hdc]
    by_cases h : divCeil (total - (base + z)) 16384 = z
    · rw [if_pos h, round, h, round_fixed h]
    · rw [if_neg h, ih]
      rfl

/-- The bitmap blocks for `d` blocks that are shared by bitmap and data. -/
def zmapFor (d : Nat) : Nat := if d % 16385 ≤ 1 then d / 16385 else d / 16385 + 1

def slack (d : Nat) : Nat := if d % 16385 = 1 then 1 else 0

lemma round_late {d z : Nat} (hz : d / 16385 ≤ z) (hz' : z ≤ zmapFor d) :
    divCeil (d - z) 16384 = zmapFor d + slack d := by
  unfold divCeil zmapFor slack at *
  split_ifs at * <;> omega

lemma round_back (d : Nat) : divCeil (d - (zmapFor d + slack d)) 16384 = zmapFor d := by
  unfold divCeil zmapFor slack
  split_ifs <;> omega

/-- Two rounds divide by at least `2 ^ 27` what a bitmap is too small by. -/
lemma two_rounds {d z e : Nat} (hz : z ≤ zmapFor d) (hd : d / 16385 < z + 2 ^ 27 * e) :
    divCeil (d - divCeil (d - z) 16384) 16384 ≤ zmapFor d ∧
      d / 16385 < divCeil (d - divCeil (d - z) 16384) 16384 + e := by
  unfold zmapFor at *
  unfold divCeil
  split_ifs at * <;> omega

lemma round_eq (total base z first : Nat) :
    round total base (z, first) = (divCeil (total - base - z) 16384, base + z) := by
  rw [round, Nat.sub_add_eq]

lemma rounds_near {total base k : Nat} (st : Nat × Nat) (hz : st.1 ≤ zmapFor (total - base))
    (hd : (total - base) / 16385 < st.1 + 2 ^ (27 * k)) :
    ((round total base)^[2 * k] st).1 ≤ zmapFor (total - base) ∧
      (total - base) / 16385 ≤ ((round total base)^[2 * k] st).1 := by
  induction k generalizing st with
  | zero => exact ⟨hz, Nat.le_of_lt_succ hd⟩
  | succ k ih =>
    rw [Nat.mul_succ, Nat.pow_add, Nat.mul_comm (2 ^ _)] at hd
    obtain ⟨hz2, hd2⟩ := two_rounds hz hd
    rw [Nat.mul_succ, iterate_add_apply]
    apply ih <;> rwa [iterate_succ_apply, iterate_one, round_eq, round_eq]

lemma rounds_even {total base k : Nat} (htotal : (total - base) / 16385 < 2 ^ (27 * k)) (n : Nat) :
    (round total base)^[2 * (n + 1) + 2 * k] (0, 0)
      = (zmapFor (total - base), base + (zmapFor (total - base) + slack (total - base))) := by
  rw [iterate_add_apply]
  obtain ⟨hz, hlow⟩ := rounds_near (0, 0) (Nat.zero_le _) (by rwa [Nat.zero_add])
  generalize (round total base)^[2 * k] (0, 0) = st at hz hlow
  induction n generalizing st with
  | zero =>
    show round total base (round total base st) = _
    rw [round_eq, round_eq, round_late hlow hz, round_back]
  | succ n ih =>
    rw [Nat.mul_succ, iterate_add_apply]
    apply ih <;> rw [iterate_succ_apply, iterate_one, round_eq, round_eq, round_late hlow hz, round_back]
    exact hlow.trans hz

end Geometry

/-! ## Where the inode table ends -/

/-- Every record lies below the data zones, and storing one leaves every data zone
as it was. -/
def Superblock.TableBelowData (sb : Superblock) : Prop :=
  ∀ n, 1 ≤ n → n ≤ sb.ninodes → sb.inodeBlock n < sb.firstDataZone ∧
    ∀ (s : TwilightFs) (inode : Inode), s.superblock = sb → ∀ z, sb.firstDataZone ≤ z →
      (Prog.final (TwilightFs.writeInode n inode s)).device.data z = s.device.data z

lemma TwilightFs.writeInode_other {s : TwilightFs} {n k : Nat} (inode : Inode)
    (hk : k ≠ Device.index (s.superblock.inodeBlock n)) :
    (Prog.final (TwilightFs.writeInode n inode s)).device.data k = s.device.data k := by
  unfold TwilightFs.writeInode
  rw [Prog.bind_ok (Prog.get_run s)]
  split
  · rfl
  · cases hr : s.device.inRange (s.superblock.inodeBlock n) 1 with
    | false => rw [bind_error (mapErr_error (readTfsBlock_error hr))]; rfl
    | true =>
      rw [Prog.bind_ok (mapErr_ok (readTfsBlock_ok hr)), mapErr_ok (writeTfsBlock_ok _ hr)]
      exact update_of_ne hk _ _

lemma Superblock.tableBelowData_iff {sb : Superblock} (hb : sb.blockSize = fsBlockSize) :
    sb.TableBelowData ↔ sb.ninodes = 0 ∨
      sb.inodeTableStart + (sb.ninodes - 1) / 10 < sb.firstDataZone := by
  have hper : sb.inodesPerBlock = 10 := by rw [inodesPerBlock, hb]; rfl
  constructor
  · intro h
    by_cases h0 : sb.ninodes = 0
    · exact .inl h0
    · refine .inr ?_
      have := (h sb.ninodes (by omega) (Nat.le_refl _)).1
      rwa [inodeBlock, hper] at this
  · intro h n hn hn'
    have hlt : sb.inodeBlock n < sb.firstDataZone := by
      rw [inodeBlock, hper]
      omega
    refine ⟨hlt, fun s inode hs z hz => TwilightFs.writeInode_other inode ?_⟩
    have hidx : Device.index (sb.inodeBlock n) ≤ sb.inodeBlock n := by
      unfold Device.index Device.sectorOf; omega
    rw [hs]
    omega

/-- The partition sizes whose table ends before the data zones: ten records to a
block need no more blocks than 204 bytes to a record. -/
def Superblock.TableFits (sectors : Nat) : Prop :=
  let n := Superblock.ninodesFor sectors
  let table := divCeil (n * 204) 2048
  divCeil n 10 ≤ table + Geometry.slack (sectors / 4 - (1 + divCeil n 16384 + table))

/-- The same for images.  A header whose counts do not fit 32 bits is compared as
it is stored. -/
def Mktfs.TableFits (nodes size : Nat) : Prop :=
  let n := Mktfs.ninodesFor nodes size
  let imap := Fs.divCeil n 16384
  let table := Fs.divCeil (n * 204) 2048
  let rest := size / 2048 - (1 + imap + table)
  if size < 2 ^ 43 ∧ n < 2 ^ 32 then Fs.divCeil n 10 ≤ table + Geometry.slack rest
  else n % 2 ^ 32 = 0 ∨
    imap % 2 ^ 32 + Geometry.zmapFor rest % 2 ^ 32 + 1 + (n % 2 ^ 32 - 1) / 10
      < (1 + imap + table + (Geometry.zmapFor rest + Geometry.slack rest)) % 2 ^ 32

lemma table_room {n imap zmap table extra : Nat} (hn : 1 ≤ n) :
    imap + zmap + 1 + (n - 1) / 10 < 1 + imap + table + (zmap + extra) ↔
      divCeil n 10 ≤ table + extra := by
  unfold divCeil
  omega

/-- What both programs write into the header for `n` inodes and `total` zones. -/
structure Superblock.Laid (sb : Superblock) (n total : Nat) : Prop where
  ninodes : sb.ninodes = n % 2 ^ 32
  zones : sb.zones = total
  imap : sb.imapBlocks = divCeil n 16384
  zmap : sb.zmapBlocks = Geometry.zmapFor (total - (1 + divCeil n 16384 + divCeil (n * 204) 2048))
  first : sb.firstDataZone = 1 + divCeil n 16384 + divCeil (n * 204) 2048 + (sb.zmapBlocks
    + Geometry.slack (total - (1 + divCeil n 16384 + divCeil (n * 204) 2048)))
  blockSize : sb.blockSize = fsBlockSize

lemma Superblock.Laid.tableBelowData_iff {sb : Superblock} {n total : Nat} (h : sb.Laid n total)
    (hn : 1 ≤ n) (hlt : n < 2 ^ 32) : sb.TableBelowData ↔ divCeil n 10 ≤ divCeil (n * 204) 2048
      + Geometry.slack (total - (1 + divCeil n 16384 + divCeil (n * 204) 2048)) := by
  rw [Superblock.tableBelowData_iff h.blockSize, inodeTableStart, h.first, h.imap, h.ninodes,
    mod_eq_of_lt hlt, table_room hn]
  omega

lemma Superblock.geometry_laid {sectors : Nat} (hs : sectors < 2 ^ 32) :
    (geometry sectors).Laid (ninodesFor sectors) (sectors / 4) := by
  have hn : ninodesFor sectors < 2 ^ 28 := by unfold ninodesFor; omega
  have himap : divCeil (ninodesFor sectors) 16384 < 2 ^ 28 := by unfold divCeil; omega
  have htable : divCeil (ninodesFor sectors * 204) 2048 < 2 ^ 28 := by unfold divCeil; omega
  have hd : sectors / 4 - (1 + divCeil (ninodesFor sectors) 16384
      + divCeil (ninodesFor sectors * 204) 2048) < 2 ^ 30 := by omega
  have h4 := @Geometry.rounds_even (sectors / 4) (1 + divCeil (ninodesFor sectors) 16384
    + divCeil (ninodesFor sectors * 204) 2048) 1 (by omega) 0
  rw [← Geometry.settle_eq_iterate] at h4
  have hz : ∀ d, d < 2 ^ 30 → Geometry.zmapFor d < 2 ^ 28 ∧ Geometry.slack d ≤ 1 := by
    intro d h
    unfold Geometry.zmapFor Geometry.slack
    constructor <;> split <;> omega
  obtain ⟨hz, hsl⟩ := hz _ hd
  have hzmap : (geometry sectors).zmapBlocks = _ :=
    (congrArg (fun st : Nat × Nat => st.1 % 2 ^ 32) h4).trans (mod_eq_of_lt (lt_trans hz (by decide)))
  refine ⟨rfl, mod_eq_of_lt (show sectors / 4 < _ by omega),
    mod_eq_of_lt (himap.trans (by decide)), hzmap, ?_, rfl⟩
  rw [hzmap]
  exact (congrArg (fun st : Nat × Nat => st.2 % 2 ^ 32) h4).trans (mod_eq_of_lt (by simp only; omega))

/-- The header of an image, as it is stored; the data zones start inside the image. -/
lemma Mktfs.imageSuperblock_settled {nodes size : Nat} {sb : Superblock}
    (h : imageSuperblock nodes size = .ok sb) (hsize : size < 2 ^ 64) :
    let n := ninodesFor nodes size
    let base := 1 + Fs.divCeil n 16384 + Fs.divCeil (n * 204) 2048
    let zmap := Geometry.zmapFor (size / 2048 - base)
    let first := base + (zmap + Geometry.slack (size / 2048 - base))
    first < size / 2048 ∧ sb.ninodes = n % 2 ^ 32 ∧ sb.zones = size / 2048 % 2 ^ 32 ∧
      sb.imapBlocks = Fs.divCeil n 16384 % 2 ^ 32 ∧ sb.zmapBlocks = zmap % 2 ^ 32 ∧
      sb.firstDataZone = first % 2 ^ 32 ∧ sb.blockSize = fsBlockSize := by
  unfold imageSuperblock at h
  simp only [Mktfs.divCeil_eq (show 0 < fsBlockSize * 8 by decide),
    Mktfs.divCeil_eq (show 0 < fsBlockSize by decide)] at h
  simp only [show Inode.byteSize = 204 from rfl, show fsBlockSize = 2048 from rfl,
    show 2048 * 8 = 16384 from rfl, Geometry.mktfs_settle_eq_iterate] at h
  have h8 := @Geometry.rounds_even (size / 2048) (1 + Fs.divCeil (ninodesFor nodes size) 16384
    + Fs.divCeil (ninodesFor nodes size * 204) 2048) 2 (by omega) 1
  split at h
  · cases h
  rw [h8] at h
  split at h
  · cases h
  next hroom =>
  injection h with h
  subst h
  exact ⟨Nat.lt_of_not_le hroom, rfl, rfl, rfl, rfl, rfl, rfl⟩

lemma Mktfs.imageSuperblock_laid {nodes size : Nat} {sb : Superblock}
    (h : imageSuperblock nodes size = .ok sb) (hsize : size / 2048 < 2 ^ 32) :
    sb.Laid (ninodesFor nodes size) (size / 2048) := by
  obtain ⟨hroom, hn, hzones, himap, hzmap, hfirst, hblock⟩ :=
    imageSuperblock_settled h (by omega)
  -- the data zones start inside the image, so no count is cut to 32 bits
  rw [mod_eq_of_lt (by omega)] at hzones himap hzmap hfirst
  refine ⟨hn, hzones, himap, hzmap, ?_, hblock⟩
  rw [hfirst, hzmap]

lemma Superblock.geometry_tableBelowData_iff {sectors : Nat} (hs : sectors < 2 ^ 32) :
    (geometry sectors).TableBelowData ↔ TableFits sectors :=
  (geometry_laid hs).tableBelowData_iff (by unfold ninodesFor; omega) (by unfold ninodesFor; omega)

lemma Mktfs.imageSuperblock_tableBelowData_iff {nodes size : Nat} {sb : Superblock}
    (h : Mktfs.imageSuperblock nodes size = .ok sb) (hsize : size < 2 ^ 64) :
    sb.TableBelowData ↔ Mktfs.TableFits nodes size := by
  have hn : 1 ≤ ninodesFor nodes size := by unfold ninodesFor; omega
  unfold Mktfs.TableFits
  simp only
  split
  · next hsmall => exact (imageSuperblock_laid h (by omega)).tableBelowData_iff hn hsmall.2
  -- the header is compared as it is stored
  obtain ⟨-, hninodes, -, himap, hzmap, hfirst, hblock⟩ := imageSuperblock_settled h hsize
  rw [tableBelowData_iff hblock, inodeTableStart, hninodes, himap, hzmap, hfirst]

lemma Superblock.eq_of_write {d d' : Device} {sectors : Nat} {sb : Superblock}
    (h : write d sectors = .ok (sb, d')) : sb = geometry sectors := by
  unfold write at h
  simp only at h
  split at h
  · injection h with h
    exact (congrArg Prod.fst h).symm
  · cases h

/-- The inode table stays below the data zones exactly for the sizes whose ten
records to a block fit the blocks reserved for 204 bytes to a record. -/
theorem inodeTable_below_data_iff (d : Device) {sectors : Nat} (hs : sectors < 2 ^ 32)
    (nodes : Nat) {size : Nat} (hsize : size < 2 ^ 64) :
    (∀ sb d', Superblock.write d sectors = .ok (sb, d') →
      (sb.TableBelowData ↔ Superblock.TableFits sectors)) ∧
    ∀ sb, Mktfs.imageSuperblock nodes size = .ok sb →
      (sb.TableBelowData ↔ Mktfs.TableFits nodes size) := by
  refine ⟨fun sb d' h => ?_, fun sb h => Mktfs.imageSuperblock_tableBelowData_iff h hsize⟩
  rw [eq_of_write h]
  exact geometry_tableBelowData_iff hs

/-- A partition and an image that are laid out well. -/
theorem inodeTable_below_data_small :
    (Superblock.geometry 8320).TableBelowData ∧
      ∀ sb, Mktfs.imageSuperblock 3 65536 = .ok sb → sb.TableBelowData := by
  have hiff := inodeTable_below_data_iff ⟨8320, fun _ => Bytes.zero⟩ (show 8320 < 2 ^ 32 by decide)
    3 (show 65536 < 2 ^ 64 by decide)
  constructor
  · apply (hiff.1 _ _ (by rfl)).mpr
    unfold TableFits
    decide
  · intro sb h
    apply (hiff.2 sb h).mpr
    unfold Mktfs.TableFits
    decide

/-- 261 inodes take 27 blocks of ten, and only 26 are reserved: on a partition of
8352 sectors the last record lies in the first data zone. -/
theorem inodeTable_reaches_data :
    ¬ ∀ (d d' : Device) (sectors : Nat) (sb : Superblock), sectors < 2 ^ 32 →
      Superblock.write d sectors = .ok (sb, d') → sb.TableBelowData := by
  intro h
  have hlast := (h ⟨8352, fun _ => Bytes.zero⟩ _ 8352 _ (by decide) (by rfl) 261 (by decide)
    (by decide)).1
  exact absurd hlast (by decide)

/-! ## What the iteration ends with -/

/-- The zone bitmap lies before the data zones together with the superblock, the
inode bitmap and `inodeBlocks` blocks of records, and has a bit for every zone of them. -/
def Superblock.Consistent (sb : Superblock) (inodeBlocks : Nat) : Prop :=
  1 + sb.imapBlocks + sb.zmapBlocks + inodeBlocks ≤ sb.firstDataZone ∧
    (sb.firstDataZone < sb.zones → sb.zones - sb.firstDataZone ≤ sb.zmapBlocks * 16384)

lemma Superblock.Laid.consistent {sb : Superblock} {n total : Nat} (h : sb.Laid n total) :
    sb.Consistent (divCeil (n * 204) 2048) := by
  have hback := Geometry.round_back (total - (1 + divCeil n 16384 + divCeil (n * 204) 2048))
  rw [← h.zmap] at hback
  refine ⟨by rw [h.first, h.imap]; omega, fun _ => ?_⟩
  rw [h.first, h.zones, Nat.sub_add_eq]
  -- a bitmap that comes back after two rounds was sized for the zones behind this start
  conv_rhs => rw [← hback]
  unfold divCeil
  omega

/-- Both programs end with a consistent header for every size, also where the
iteration has no fixed point: they stop after an even number of rounds, with the
smaller bitmap and the start that leaves room for the larger. -/
theorem settled_consistent (d : Device) {sectors : Nat} (hs : sectors < 2 ^ 32) (nodes : Nat)
    {size : Nat} (hsize : size / fsBlockSize < 2 ^ 32) :
    (∀ sb d', Superblock.write d sectors = .ok (sb, d') →
      sb.Consistent (divCeil (Superblock.ninodesFor sectors * Inode.byteSize) fsBlockSize)) ∧
    ∀ sb, Mktfs.imageSuperblock nodes size = .ok sb →
      sb.Consistent (Mktfs.divCeil (Mktfs.ninodesFor nodes size * Inode.byteSize) fsBlockSize) := by
  refine ⟨fun sb d' h => ?_, fun sb h => ?_⟩
  · rw [eq_of_write h]
    exact (geometry_laid hs).consistent
  · rw [Mktfs.divCeil_eq (by decide)]
    exact (Mktfs.imageSuperblock_laid h hsize).consistent

/-- Sixteen sectors leave one zone for bitmap and data, and the rounds alternate. -/
theorem settled_consistent_sixteen :
    (Superblock.geometry 16).Consistent 1 ∧
      ∀ sb, Mktfs.imageSuperblock 3 65536 = .ok sb → sb.Consistent 1 := by
  have h := settled_consistent ⟨16, fun _ => Bytes.zero⟩ (show 16 < 2 ^ 32 by decide) 3
    (show 65536 / fsBlockSize < 2 ^ 32 by decide)
  exact ⟨h.1 _ _ (by rfl), h.2⟩

end Twilight.Fs

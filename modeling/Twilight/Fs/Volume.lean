/-
What a mounted volume holds, apart from where its bytes lie.

A `Disk` has the two bitmaps as functions of inode and zone numbers, the inode
table as a function of inode numbers and the data zones as a function of zone
numbers, beside the geometry; a `Volume` adds the caches.  `TwilightFs.volume` reads it off a
state.  On a volume with a valid `Layout` these parts do not overlap on the
device, and every transfer of `Fs.Disk` is an update of one part: these are the
rules at the end of the file, and no later module looks at device blocks again.
-/
import Twilight.Fs.Geometry

namespace Twilight.Fs

open Function Bytes Inode

structure Mount where
  sb : Superblock
  sectors : Nat
  mountMode : MountMode

structure Disk where
  mount : Mount
  imap : Nat → Bool
  zmap : Nat → Bool
  inode : Nat → Inode
  block : Nat → Bytes

structure Volume extends Disk where
  paths : PathLookupCache
  files : FileContentCache
  dirs : DirIndexCache

/-- The geometry is consistent: the bitmaps cover what they map, the inode table
ends before the data zones and the zones lie on the device. -/
structure Layout (m : Mount) : Prop where
  blockSize : m.sb.blockSize = 2048
  imapCovers : m.sb.ninodes ≤ 16384 * m.sb.imapBlocks
  zmapCovers : m.sb.zones - m.sb.firstDataZone ≤ 16384 * m.sb.zmapBlocks
  table : m.sb.inodeTableStart + divCeil m.sb.ninodes 10 ≤ m.sb.firstDataZone
  dataZones : m.sb.firstDataZone ≤ m.sb.zones
  onDevice : 4 * m.sb.zones ≤ m.sectors
  addressable : m.sectors < 2 ^ 32
  inodes : m.sb.ninodes < 2 ^ 32
  writable : m.mountMode = .readWrite

/-- What the bitmaps need of it. -/
structure Mapped (m : Mount) : Prop where
  blockSize : m.sb.blockSize = 2048
  zmapCovers : m.sb.zones - m.sb.firstDataZone ≤ 16384 * m.sb.zmapBlocks
  bitmaps : m.sb.inodeTableStart ≤ m.sb.firstDataZone
  dataZones : m.sb.firstDataZone ≤ m.sb.zones
  onDevice : 4 * m.sb.zones ≤ m.sectors
  addressable : m.sectors < 2 ^ 32

lemma Layout.mapped {m : Mount} (h : Layout m) : Mapped m :=
  ⟨h.blockSize, h.zmapCovers, Nat.le_trans (Nat.le_add_right _ _) h.table, h.dataZones,
    h.onDevice, h.addressable⟩

namespace Disk

variable (D : Disk)

abbrev sb : Superblock := D.mount.sb

def IsData (z : Nat) : Prop := D.sb.firstDataZone ≤ z ∧ z < D.sb.zones

/-- A zone number that the blocks of the zone bitmap have a bit for. -/
def HasBit (z : Nat) : Prop :=
  D.sb.firstDataZone ≤ z ∧ z - D.sb.firstDataZone < 16384 * D.sb.zmapBlocks

instance (D : Disk) (z : Nat) : Decidable (D.IsData z) := inferInstanceAs (Decidable (_ ∧ _))

def IsInode (n : Nat) : Prop := 1 ≤ n ∧ n ≤ D.sb.ninodes

instance (D : Disk) (n : Nat) : Decidable (D.IsInode n) := inferInstanceAs (Decidable (_ ∧ _))

structure FirstFreeZone (D : Disk) (z : Nat) : Prop where
  isData : D.IsData z
  free : D.zmap z = false
  least : ∀ z', D.IsData z' → z' < z → D.zmap z' = true

structure FirstFreeInode (D : Disk) (n : Nat) : Prop where
  isInode : D.IsInode n
  free : D.imap n = false
  least : ∀ n', D.IsInode n' → n' < n → D.imap n' = true

end Disk

namespace Volume

variable (V : Volume)

def setImap (n : Nat) (used : Bool) : Volume := { V with imap := update V.imap n used }

def setZmap (z : Nat) (used : Bool) : Volume := { V with zmap := update V.zmap z used }

def setZones (zs : List Nat) (used : Bool) : Volume :=
  { V with zmap := fun z => if z ∈ zs then used else V.zmap z }

def putInode (n : Nat) (i : Inode) : Volume := { V with inode := update V.inode n i }

def putBlock (z : Nat) (b : Bytes) : Volume := { V with block := update V.block z b }

@[simp] lemma setZones_nil (v : Bool) : V.setZones [] v = V := rfl

lemma setZones_cons (z : Nat) (zs : List Nat) (v : Bool) :
    V.setZones (z :: zs) v = (V.setZmap z v).setZones zs v := by
  unfold setZones setZmap
  congr 2
  funext y
  by_cases hy : y ∈ zs
  · simp [hy]
  · by_cases hyz : y = z
    · subst hyz; simp
    · simp [hy, hyz]

lemma setZones_append (zs ys : List Nat) (v : Bool) :
    V.setZones (zs ++ ys) v = (V.setZones zs v).setZones ys v := by
  unfold setZones
  congr 2
  funext y
  by_cases hy : y ∈ ys <;> simp [hy]

lemma setZones_undo {V : Volume} {zs : List Nat} (h : ∀ z ∈ zs, V.zmap z = false) :
    (V.setZones zs true).setZones zs false = V := by
  have hz : (fun z => if z ∈ zs then false else if z ∈ zs then true else V.zmap z) = V.zmap := by
    funext z
    by_cases hz : z ∈ zs
    · rw [if_pos hz, h z hz]
    · rw [if_neg hz, if_neg hz]
  exact congrArg (fun f => { V with zmap := f }) hz

end Volume

/-! ## Reading a volume off a device -/

namespace Superblock

variable (sb : Superblock) (data : Nat → Bytes)

def imapAt (n : Nat) : Bool :=
  decide (1 ≤ n ∧ n - 1 < 16384 * sb.imapBlocks) && Bytes.bitAt 16384 data 1 (n - 1)

def zmapAt (z : Nat) : Bool :=
  decide (sb.firstDataZone ≤ z ∧ z - sb.firstDataZone < 16384 * sb.zmapBlocks) &&
    Bytes.bitAt 16384 data (sb.imapBlocks + 1) (z - sb.firstDataZone)

def inodeAt (n : Nat) : Inode :=
  if 1 ≤ n ∧ n ≤ sb.ninodes then Inode.decode (data (sb.inodeBlock n)) (sb.inodeOffset n)
  else Inode.decode Bytes.zero 0

def blockAt (z : Nat) : Bytes := if sb.firstDataZone ≤ z ∧ z < sb.zones then data z else Bytes.zero

end Superblock

def TwilightFs.volume (s : TwilightFs) : Volume where
  mount := ⟨s.superblock, s.device.sectors, s.mountMode⟩
  imap := s.superblock.imapAt s.device.data
  zmap := s.superblock.zmapAt s.device.data
  inode := s.superblock.inodeAt s.device.data
  block := s.superblock.blockAt s.device.data
  paths := s.shared.paths
  files := s.shared.files
  dirs := s.shared.dirs

lemma TwilightFs.mount_setBlock (s : TwilightFs) (k : Nat) (buf : Bytes) :
    (s.setBlock k buf).volume.mount = s.volume.mount := rfl

/-! ## The regions do not overlap -/

section Regions

variable {s : TwilightFs} {k : Nat} {buf : Bytes}

lemma imapAt_update_of_ge (hk : s.superblock.imapBlocks < k) :
    s.superblock.imapAt (update s.device.data k buf)
      = s.superblock.imapAt s.device.data := by
  funext n
  unfold Superblock.imapAt
  by_cases hn : 1 ≤ n ∧ n - 1 < 16384 * s.superblock.imapBlocks
  · rw [bitAt_congr (fun j hj => update_of_ne (by omega) _ _) hn.2]
  · simp [hn]

lemma zmapAt_update_of_out (hk : k ≤ s.superblock.imapBlocks ∨
    s.superblock.inodeTableStart ≤ k) :
    s.superblock.zmapAt (update s.device.data k buf)
      = s.superblock.zmapAt s.device.data := by
  funext z
  unfold Superblock.zmapAt
  unfold Superblock.inodeTableStart at hk
  by_cases hz : s.superblock.firstDataZone ≤ z ∧
      z - s.superblock.firstDataZone < 16384 * s.superblock.zmapBlocks
  · rw [bitAt_congr (fun j hj => update_of_ne (by omega) _ _) hz.2]
  · simp [hz]

lemma inodeAt_update_of_lt (hk : k < s.superblock.inodeTableStart) :
    s.superblock.inodeAt (update s.device.data k buf)
      = s.superblock.inodeAt s.device.data := by
  funext n
  unfold Superblock.inodeAt Superblock.inodeBlock
  rw [update_of_ne (Nat.lt_of_lt_of_le hk (Nat.le_add_right _ _)).ne']

lemma inodeAt_update_of_out (h : Layout s.volume.mount)
    (hk : k < s.superblock.inodeTableStart ∨ s.superblock.firstDataZone ≤ k) :
    s.superblock.inodeAt (update s.device.data k buf)
      = s.superblock.inodeAt s.device.data := by
  funext n
  unfold Superblock.inodeAt
  by_cases hn : 1 ≤ n ∧ n ≤ s.superblock.ninodes
  · rw [if_pos hn, if_pos hn, update_of_ne]
    have ht := h.table
    have hper : s.superblock.inodesPerBlock = 10 := by
      rw [Superblock.inodesPerBlock, show s.superblock.blockSize = 2048 from h.blockSize]; rfl
    unfold divCeil at ht
    rw [Superblock.inodeBlock, hper]
    have : s.volume.mount.sb = s.superblock := rfl
    rw [this] at ht
    omega
  · rw [if_neg hn, if_neg hn]

lemma blockAt_update_of_lt (hk : k < s.superblock.firstDataZone) :
    s.superblock.blockAt (update s.device.data k buf)
      = s.superblock.blockAt s.device.data := by
  funext z
  unfold Superblock.blockAt
  by_cases hz : s.superblock.firstDataZone ≤ z ∧ z < s.superblock.zones
  · rw [if_pos hz, if_pos hz, update_of_ne (by omega)]
  · rw [if_neg hz, if_neg hz]

variable {m : Mount}

lemma Layout.perBlock (h : Layout m) : m.sb.inodesPerBlock = 10 := by
  rw [Superblock.inodesPerBlock, h.blockSize]; rfl

lemma Mapped.facts (h : Mapped s.volume.mount) :
    s.superblock.inodeTableStart = s.superblock.imapBlocks + s.superblock.zmapBlocks + 1 ∧
      s.superblock.inodeTableStart ≤ s.superblock.firstDataZone ∧
      s.superblock.firstDataZone ≤ s.superblock.zones ∧ s.superblock.bitsPerBlock = 16384 ∧
      s.superblock.zones - s.superblock.firstDataZone ≤ 16384 * s.superblock.zmapBlocks := by
  refine ⟨rfl, h.bitmaps, h.dataZones, ?_, h.zmapCovers⟩
  rw [Superblock.bitsPerBlock, show s.superblock.blockSize = 2048 from h.blockSize]

section

variable (h : Mapped s.volume.mount)
include h

lemma volume_setBlock_imap {j b : Nat} (v : Bool)
    (hj : j < s.superblock.imapBlocks) (hb : b < 16384) :
    (s.setBlock (1 + j) ((s.device.data (1 + j)).putBit b v)).volume
      = s.volume.setImap (16384 * j + b + 1) v := by
  obtain ⟨hstart, ht, -⟩ := h.facts
  have himap : s.superblock.imapAt
      (update s.device.data (1 + j) ((s.device.data (1 + j)).putBit b v))
      = update (s.superblock.imapAt s.device.data) (16384 * j + b + 1) v := by
    funext n
    unfold Superblock.imapAt
    rw [bitAt_putBit _ _ hb]
    by_cases hn : n = 16384 * j + b + 1
    · subst hn
      rw [update_self, Nat.add_sub_cancel, update_self, decide_eq_true (by omega), Bool.true_and]
    · rw [update_of_ne hn]
      by_cases hr : 1 ≤ n ∧ n - 1 < 16384 * s.superblock.imapBlocks
      · rw [update_of_ne (by omega)]
      · simp [hr]
  simp only [TwilightFs.volume, TwilightFs.setBlock, Volume.setImap, himap,
    zmapAt_update_of_out (show 1 + j ≤ s.superblock.imapBlocks ∨ _ by omega),
    inodeAt_update_of_lt (show 1 + j < s.superblock.inodeTableStart by omega),
    blockAt_update_of_lt (show 1 + j < s.superblock.firstDataZone by omega)]

lemma volume_setBlock_zmap {j b : Nat} (v : Bool)
    (hj : j < s.superblock.zmapBlocks) (hb : b < 16384) :
    (s.setBlock (s.superblock.imapBlocks + 1 + j)
      ((s.device.data (s.superblock.imapBlocks + 1 + j)).putBit b v)).volume
      = s.volume.setZmap (16384 * j + b + s.superblock.firstDataZone) v := by
  obtain ⟨hstart, ht, -⟩ := h.facts
  have hzmap : s.superblock.zmapAt (update s.device.data (s.superblock.imapBlocks + 1 + j)
        ((s.device.data (s.superblock.imapBlocks + 1 + j)).putBit b v))
      = update (s.superblock.zmapAt s.device.data)
          (16384 * j + b + s.superblock.firstDataZone) v := by
    funext z
    unfold Superblock.zmapAt
    rw [bitAt_putBit _ _ hb]
    by_cases hz : z = 16384 * j + b + s.superblock.firstDataZone
    · subst hz
      rw [update_self, Nat.add_sub_cancel, update_self, decide_eq_true (by omega), Bool.true_and]
    · rw [update_of_ne hz]
      by_cases hr : s.superblock.firstDataZone ≤ z ∧
          z - s.superblock.firstDataZone < 16384 * s.superblock.zmapBlocks
      · rw [update_of_ne (by omega)]
      · simp [hr]
  simp only [TwilightFs.volume, TwilightFs.setBlock, Volume.setZmap, hzmap,
    imapAt_update_of_ge (show s.superblock.imapBlocks < s.superblock.imapBlocks + 1 + j by omega),
    inodeAt_update_of_lt (show s.superblock.imapBlocks + 1 + j
      < s.superblock.inodeTableStart by omega),
    blockAt_update_of_lt (show s.superblock.imapBlocks + 1 + j
      < s.superblock.firstDataZone by omega)]

end

section

variable (h : Layout s.volume.mount)
include h

lemma volume_setBlock_inode {n : Nat} (hn : s.volume.IsInode n) (i : Inode) :
    (s.setBlock (s.superblock.inodeBlock n)
      ((s.device.data (s.superblock.inodeBlock n)).splice (s.superblock.inodeOffset n)
        Inode.byteSize i.encode)).volume = s.volume.putInode n i := by
  have hper : s.superblock.inodesPerBlock = 10 := h.perBlock
  have ht : s.superblock.inodeTableStart + divCeil s.superblock.ninodes 10
    ≤ s.superblock.firstDataZone := h.table
  have hstart : s.superblock.inodeTableStart
    = s.superblock.imapBlocks + s.superblock.zmapBlocks + 1 := rfl
  obtain ⟨hn1, hn2⟩ : 1 ≤ n ∧ n ≤ s.superblock.ninodes := hn
  have hblock : ∀ m, s.superblock.inodeBlock m = s.superblock.inodeTableStart + (m - 1) / 10 := by
    intro m; rw [Superblock.inodeBlock, hper]
  have hoff : ∀ m, s.superblock.inodeOffset m = (m - 1) % 10 * 204 := by
    intro m; rw [Superblock.inodeOffset, hper]; rfl
  unfold divCeil at ht
  have hinode : s.superblock.inodeAt (update s.device.data (s.superblock.inodeBlock n)
      ((s.device.data (s.superblock.inodeBlock n)).splice (s.superblock.inodeOffset n)
        Inode.byteSize i.encode))
      = update (s.superblock.inodeAt s.device.data) n i := by
    funext m
    by_cases hm : m = n
    · subst hm
      rw [update_self]
      unfold Superblock.inodeAt
      rw [if_pos ⟨hn1, hn2⟩, update_self, ← decode_encode i]
      refine decode_congr fun k hk => ?_
      rw [splice_at hk, Nat.zero_add, decode_encode]
    · rw [update_of_ne hm]
      unfold Superblock.inodeAt
      by_cases hr : 1 ≤ m ∧ m ≤ s.superblock.ninodes
      · rw [if_pos hr, if_pos hr]
        by_cases hb : s.superblock.inodeBlock m = s.superblock.inodeBlock n
        · -- two records of one block
          rw [hb, update_self]
          refine decode_congr fun k hk => splice_outside ?_
          rw [hblock, hblock] at hb
          rw [hoff, hoff]
          unfold Inode.byteSize at hk ⊢
          have hne : (m - 1) % 10 ≠ (n - 1) % 10 := by omega
          rcases Nat.lt_or_gt_of_ne hne with hlt | hgt
          · exact .inl (by omega)
          · exact .inr (by omega)
        · rw [update_of_ne hb]
      · rw [if_neg hr, if_neg hr]
  have hbn := hblock n
  simp only [TwilightFs.volume, TwilightFs.setBlock, Volume.putInode, hinode,
    imapAt_update_of_ge (show s.superblock.imapBlocks < s.superblock.inodeBlock n by omega),
    zmapAt_update_of_out (show _ ∨ s.superblock.inodeTableStart ≤ s.superblock.inodeBlock n by
      omega),
    blockAt_update_of_lt (show s.superblock.inodeBlock n < s.superblock.firstDataZone by omega)]

lemma volume_setBlock_data {z : Nat} (hz : s.volume.IsData z) :
    (s.setBlock z buf).volume = s.volume.putBlock z buf := by
  obtain ⟨hz1, hz2⟩ : s.superblock.firstDataZone ≤ z ∧ z < s.superblock.zones := hz
  obtain ⟨hstart, ht, -⟩ := h.mapped.facts
  have hblock : s.superblock.blockAt (update s.device.data z buf)
      = update (s.superblock.blockAt s.device.data) z buf := by
    funext y
    unfold Superblock.blockAt
    by_cases hy : y = z
    · subst hy
      rw [if_pos ⟨hz1, hz2⟩, update_self, update_self]
    · rw [update_of_ne hy, update_of_ne hy]
  simp only [TwilightFs.volume, TwilightFs.setBlock, Volume.putBlock, hblock,
    imapAt_update_of_ge (show s.superblock.imapBlocks < z by omega),
    zmapAt_update_of_out (show _ ∨ s.superblock.inodeTableStart ≤ z by omega),
    inodeAt_update_of_out h (show _ ∨ s.superblock.firstDataZone ≤ z by omega)]

end

end Regions

end Twilight.Fs

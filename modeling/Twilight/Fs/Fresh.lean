/-
A freshly initialized volume.

Formatting stores a superblock and clears the bitmaps and the inode table;
`initialize_root_inode` then makes the root directory.  What it leaves is
`Volume.Formatted`: inode 1 is in use and no other, it is a directory with its two
dot entries, and nothing is cached.
-/
import Twilight.Fs.Effects

namespace Twilight.Fs

open TwilightFs Function Prog Inode Fifo Superblock Volume Nat Prod

variable {V : Volume}

/-! ## A cleared volume -/

structure Volume.Blank (V : Volume) : Prop where
  imap : ∀ n, V.imap n = false
  zmap : ∀ z, V.zmap z = false
  records : ∀ n, (V.inode n).OnlyZone 0
  paths : V.paths = Fifo.empty
  files : V.files = FileContentCache.empty
  dirs : V.dirs = Fifo.empty

lemma Inode.decode_zero_onlyZone (off : Nat) : (Inode.decode Bytes.zero off).OnlyZone 0 := by
  apply onlyZone_of_blank
  · intro k
    simp only [Inode.decode, Bytes.readLE_zero]
    rfl
  · simp only [Inode.decode, Bytes.readLE_zero]
    rfl
  · simp only [Inode.decode, Bytes.readLE_zero]
    rfl

variable {sb : Superblock} {d : Device} {env : Inode.Env}

/-- The blocks between the superblock and the data zones are clear. -/
lemma formatted_data {k : Nat} (h1 : 1 ≤ k)
    (h2 : k < sb.firstDataZone) : (formatted sb d).device.data k = Bytes.zero := by
  simp only [formatted]
  rw [if_neg (by omega), if_pos h2]

lemma formatted_blank
    (h : Layout (formatted sb d).volume.mount) : (formatted sb d).volume.Blank := by
  have hmaps : sb.imapBlocks + sb.zmapBlocks + 1 ≤ sb.firstDataZone := h.mapped.bitmaps
  have htable := h.table
  refine ⟨fun n => ?_, fun z => ?_, fun n => ?_, rfl, rfl, rfl⟩
  · show sb.imapAt (formatted sb d).device.data n = false
    rw [imapAt]
    by_cases hn : 1 ≤ n ∧ n - 1 < 16384 * sb.imapBlocks
    · rw [Bytes.bitAt, formatted_data (by omega) (by omega), Bytes.bit_zero, Bool.and_false]
    · rw [decide_eq_false hn, Bool.false_and]
  · show sb.zmapAt (formatted sb d).device.data z = false
    rw [Superblock.zmapAt]
    by_cases hz : sb.firstDataZone ≤ z ∧ z - sb.firstDataZone < 16384 * sb.zmapBlocks
    · rw [Bytes.bitAt, formatted_data (by omega) (by omega), Bytes.bit_zero, Bool.and_false]
    · rw [decide_eq_false hz, Bool.false_and]
  · show (sb.inodeAt (formatted sb d).device.data n).OnlyZone 0
    rw [Superblock.inodeAt]
    split
    · next hn =>
      have hper : sb.inodesPerBlock = 10 := h.perBlock
      have hstart : sb.inodeTableStart = sb.imapBlocks + sb.zmapBlocks + 1 := rfl
      have hblock : sb.inodeBlock n = sb.inodeTableStart + (n - 1) / 10 := by
        rw [inodeBlock, hper]
      have htable' : sb.inodeTableStart + divCeil sb.ninodes 10 ≤ sb.firstDataZone := htable
      unfold divCeil at htable'
      rw [formatted_data (by omega) (by omega)]
      exact decode_zero_onlyZone _
    · exact decode_zero_onlyZone _

lemma Volume.Blank.tidy (h : Layout V.mount) (hb : V.Blank) : V.Tidy := by
  have hnone : ∀ n, ¬ V.Alloc n := by
    intro n hn
    have hused := hn.2
    rw [hb.imap] at hused
    cases hused
  have hdirs : ∀ n, V.dirs.map n = none := fun n => by rw [hb.dirs]; rfl
  refine ⟨h, ⟨fun n _ b hz => ?_, fun r z hr => absurd hr.1 (hnone _), ?_⟩,
    fun n hn => absurd hn.alloc (hnone n), fun n e hn => absurd hn (hnone n), ?_, ?_⟩
  · rw [(hb.records n).direct, ite_self] at hz
    exact absurd rfl hz
  · exact ⟨fun r z hr => absurd hr.1 (hnone _), fun r r' z hr => absurd hr.1 (hnone _)⟩
  · rw [hb.dirs]
    exact wellFormed_empty
  · rw [hb.paths]
    exact wellFormed_empty

/-! ## The root directory -/

structure Volume.Formatted (V : Volume) : Prop where
  root : ∃ k, V.DotDir 1 1 k
  used : ∀ n, V.imap n = true ↔ n = 1
  zones : V.sb.zones ≤ V.sb.firstDataZone + V.freeZones.card + 3
  blocks : 3 ≤ (V.inode 1).unusedBlocks.card
  paths : V.paths = Fifo.empty
  files : V.files = FileContentCache.empty
  dirs : V.dirs = Fifo.empty

def rootRecord (env : Inode.Env) (zone : Nat) : Inode :=
  (Inode.newDir env 0o755).directSlotSet 0 zone

lemma rootRecord_onlyZone {z : Nat} (hz : z < 2 ^ 32) : (rootRecord env z).OnlyZone z :=
  (onlyZone_of_blank (fun _ => rfl) rfl rfl).directSlotSet hz

lemma rootRecord_type (env : Inode.Env) (z : Nat) :
    (rootRecord env z).isDir = true ∧ (rootRecord env z).size = 0 := by
  have hmode : (Inode.newDir env 0o755).mode = modeDir ||| (0o755 &&& modePermMask) := rfl
  rw [rootRecord, isDir, directSlotSet_mode, directSlotSet_size, hmode]
  exact ⟨by decide, rfl⟩

lemma Volume.Tidy.uncached (ht : V.Tidy) : Volume.Tidy { V with
    paths := Fifo.empty, files := FileContentCache.empty, dirs := Fifo.empty } :=
  ⟨ht.layout, ht.owned, ht.unique, fun _ _ _ he => (nomatch he), wellFormed_empty, wellFormed_empty⟩

lemma spec_rootEntries (ht : V.Tidy) (hb : V.BareDir 1) (hcache : V.dirs.map 1 = none)
    (himap : ∀ n, V.imap n = true ↔ n = 1) (hblocks : 5 ≤ (V.inode 1).unusedBlocks.card)
    (hzones : V.sb.zones ≤ V.sb.firstDataZone + V.freeZones.card + 1) {Q : Post String Unit}
    (hok : ∀ V', V'.mount = V.mount → V'.Formatted → Q (.ok ()) V')
    (herr : ∀ e V', V.freeZones.card ≤ 1 → Q (.error e) V') :
    Spec (do
      createDirEntry 1 dotName 1
      createDirEntry 1 dotDotName 1
      modify fun s => { s with shared := s.shared.invalidateNamespace }) Q V := by
  have h1 := hb.alloc.1
  refine Wp.bind (spec_createDirEntry ht.layout h1 (ht.owned.inRange 1 h1)
    (fun k y grown hslot hnext => ?_) fun e hno => ?_)
  swap
  · apply herr
    by_contra hc
    exact not_noRoom (by omega) (by omega) hno
  have hone := hb.dot ht hcache hslot hnext.firstTried (by decide) (by decide)
  have hleft := V.freeZones_insertEntry 1 k y grown dotName 1
  have hleftBlocks := V.unusedBlocks_insertEntry ht.layout hslot dotName 1
  refine Wp.bind (spec_createDirEntry hone.tidy.layout h1 (hone.tidy.owned.inRange 1 h1)
    (fun k' y' grown' hslot' _ => ?_) fun e hno => ?_)
  swap
  · apply herr
    by_contra hc
    exact not_noRoom (by omega) (by omega) hno
  have hdot : ((V.insertEntry 1 k y grown dotName 1).insertEntry 1 k' y' grown' dotDotName
      1).DotDir 1 1 k' := hone.dotDot hslot' (by decide) (by decide)
  have hleft' :=
    (V.insertEntry 1 k y grown dotName 1).freeZones_insertEntry 1 k' y' grown' dotDotName 1
  have hleftBlocks' := (V.insertEntry 1 k y grown dotName 1).unusedBlocks_insertEntry
    hone.tidy.layout hslot' dotDotName 1
  refine spec_invalidateNamespace (hok _ rfl ?_)
  refine ⟨⟨k', hdot.tidy.uncached, ⟨hdot.live.alloc, hdot.live.isDir, hdot.live.size⟩, hdot.size,
    hdot.pos, hdot.lt, hdot.entry, rfl⟩, himap, ?_, ?_, rfl, rfl, rfl⟩
  · show V.sb.zones ≤ V.sb.firstDataZone + ((V.insertEntry 1 k y grown dotName 1).insertEntry 1 k'
      y' grown' dotDotName 1).freeZones.card + 3
    omega
  · show 3 ≤ (((V.insertEntry 1 k y grown dotName 1).insertEntry 1 k' y' grown' dotDotName
      1).inode 1).unusedBlocks.card
    omega

lemma spec_initializeRootInode (h : Layout V.mount) (hb : V.Blank) {Q : Post String Unit}
    (hok : ∀ V', V'.mount = V.mount → V'.Formatted → Q (.ok ()) V')
    (herr : ∀ e V', (V.sb.ninodes = 0 ∨ V.sb.zones ≤ V.sb.firstDataZone + 2) →
      Q (.error e) V') : Spec (initializeRootInode env) Q V := by
  have hcount : V.freeZones.card = V.sb.zones - V.sb.firstDataZone := by
    rw [Disk.freeZones, Finset.filter_true_of_mem fun z _ => hb.zmap z, card_Ico]
  rw [initializeRootInode]
  refine Wp.bind (Wp.mapErr (spec_allocateInode h (fun n hn => ?_) fun hno => ?_))
  swap
  · apply herr
    by_contra hc
    have hused := hno 1 ⟨le_refl 1, by omega⟩
    rw [hb.imap] at hused
    cases hused
  -- the first inode is number 1
  have hn1 : n = 1 := by
    by_contra hne
    have hused := hn.least 1 ⟨le_refl 1, le_trans hn.isInode.1 hn.isInode.2⟩
      (by have := hn.isInode.1; omega)
    rw [hb.imap] at hused
    cases hused
  subst hn1
  simp only [Except.mapError, ne_eq, not_true_eq_false, if_false]
  refine Wp.bind (Wp.mapErr (spec_allocateZone h.mapped (fun z hz => ?_) fun hfull => ?_))
  swap
  · apply herr
    by_contra hc
    exact V.not_full_of_freeZones (by omega) hfull
  have hz' : V.FirstFreeZone z := ⟨hz.isData, hz.free, hz.least⟩
  have hz0 : z ≠ 0 := Disk.Owned.zone_ne h hz'.isData
  have hV : ((V.setImap 1 true).setZmap z true).putInode 1
      ((Inode.newDir env 0o755).directSlotSet 0 z) = V.newInode 1 z (rootRecord env z) := by
    simp only [newInode, if_neg hz0]
    rfl
  have hrecord : (rootRecord env z).OnlyZone z :=
    rootRecord_onlyZone (Disk.Owned.zone_lt h hz'.isData)
  obtain ⟨hdir, hsize⟩ := rootRecord_type env z
  simp only [Except.mapError]
  refine Wp.bind (spec_writeInode h hn.isInode ?_)
  rw [hV]
  -- the new inode is a directory without entries
  have hself := V.newInode_inode 1 z (rootRecord env z)
  have hleft := V.freeZones_newInode 1 z (rootRecord env z)
  refine spec_rootEntries ((hb.tidy h).newInode hrecord (hb.imap 1)
    (fun _ => ⟨hz'.isData, hz'.free⟩) (by rw [hb.dirs]; rfl) fun _ => hsize)
    ⟨⟨hn.isInode, V.newInode_imap 1 z _⟩, ?_, ?_, fun b hb0 => ?_⟩ ?_ (fun m => ?_) ?_ ?_
    hok fun e V' hfew => herr e V' ?_
  · rw [hself, hdir]
  · rw [hself, hsize]
  · rw [hself, hrecord.direct, if_neg hb0]
  · show V.dirs.map 1 = none
    rw [hb.dirs]
    rfl
  · show update V.imap 1 true m = true ↔ m = 1
    by_cases hm : m = 1
    · rw [hm, update_self]
      simp
    · rw [update_of_ne hm, hb.imap]
      simp [hm]
  · rw [hself]
    exact hrecord.unusedBlocks
  · show V.sb.zones ≤ V.sb.firstDataZone + (V.newInode 1 z (rootRecord env z)).freeZones.card + 1
    omega
  · omega

def freshFs (env : Inode.Env) (sb : Superblock) (d : Device) : TwilightFs :=
  final (initializeRootInode env (formatted sb d))

lemma freshFs_formatted (h : Layout ⟨sb, d.sectors, .readWrite⟩) (hinodes : sb.ninodes ≠ 0)
    (hzones : sb.firstDataZone + 2 < sb.zones) : (freshFs env sb d).volume.Formatted ∧
      (freshFs env sb d).volume.mount = ⟨sb, d.sectors, .readWrite⟩ := by
  refine spec_initializeRootInode (V := (formatted sb d).volume)
    (Q := fun _ V' => V'.Formatted ∧ V'.mount = ⟨sb, d.sectors, .readWrite⟩) h (formatted_blank h)
    (fun V' hm hf => ⟨hf, hm⟩) (fun e V' hsmall => ?_) _ rfl
  have hsb : (formatted sb d).volume.sb = sb := rfl
  rw [hsb] at hsmall
  omega

def smallFs : TwilightFs := freshFs ⟨0, 0, 0⟩ (geometry 1024) ⟨1024, fun _ => Bytes.zero⟩

lemma geometry_small : Layout ⟨geometry 1024, 1024, .readWrite⟩ :=
  ⟨by decide, by decide, by decide, by decide, by decide, by decide, by decide, by decide, rfl⟩

lemma smallFs_formatted : smallFs.volume.Formatted := by
  rw [smallFs]
  exact (freshFs_formatted geometry_small (by decide) (by decide)).1

lemma smallFs_mount :
    smallFs.volume.mount = ⟨geometry 1024, 1024, .readWrite⟩ := by
  rw [smallFs]
  exact (freshFs_formatted geometry_small (by decide) (by decide)).2

/-! ## A first directory on a small volume -/

lemma smallFs_next : smallFs.volume.FirstFreeInode 2 ∧ 240 < smallFs.volume.freeZones.card := by
  have hf := smallFs_formatted
  have hz := hf.zones
  have hsb : smallFs.volume.sb = geometry 1024 := congrArg Mount.sb smallFs_mount
  rw [hsb] at hz
  have h7 : (geometry 1024).firstDataZone = 7 := by decide
  have h256 : (geometry 1024).zones = 256 := by decide
  refine ⟨⟨⟨by decide, ?_⟩, ?_, fun n hn hlt => ?_⟩, by omega⟩
  · rw [hsb]
    decide
  · have := hf.used 2
    simpa using this
  · exact (hf.used n).mpr (by have := hn.1; omega)

lemma isInode_small (hm : V.mount = ⟨geometry 1024, 1024, .readWrite⟩) {n : Nat}
    (h1 : 1 ≤ n) (h2 : n ≤ 32) : V.IsInode n := by
  have hsb : V.sb = geometry 1024 := congrArg Mount.sb hm
  refine ⟨h1, ?_⟩
  rw [hsb]
  exact h2

/-- The names `a`, `b`, `x` and `y`. -/
def nameA : Str := [97]
def nameB : Str := [98]
def nameX : Str := [120]
def nameY : Str := [121]

lemma properName_A : ProperName nameA := ⟨by decide, by decide, by decide⟩
lemma properName_B : ProperName nameB := ⟨by decide, by decide, by decide⟩
lemma properName_X : ProperName nameX := ⟨by decide, by decide, by decide⟩
lemma properName_Y : ProperName nameY := ⟨by decide, by decide, by decide⟩

/-- A small volume on which the root has the one entry `name`, the empty directory 2. -/
structure Volume.WithDir (V : Volume) (name : Str) : Prop where
  mount : V.mount = ⟨geometry 1024, 1024, .readWrite⟩
  tidy : V.Tidy
  root : V.LiveDir 1
  rootSize : (V.inode 1).size = 192
  first : (V.inode 1).directSlotGet 0 ≠ 0
  entry : ∃ k < 192, V.entryOf 1 k = some (name, 2)
  names : ∀ j s c, V.entryOf 1 j = some (s, c) → s = dotName ∨ s = dotDotName ∨ s = name
  dir : ∃ k, V.DotDir 2 1 k
  used : ∀ n, V.imap n = true ↔ n = 1 ∨ n = 2
  zones : 230 < V.freeZones.card
  blocks : 2 ≤ (V.inode 1).unusedBlocks.card ∧ 3 ≤ (V.inode 2).unusedBlocks.card
  order : V.dirs.order.length ≤ 1
  dirs : ∀ n, 2 < n → V.dirs.map n = none
  paths : V.paths = Fifo.empty

lemma smallFs_canCreate {name : Str} (hname : ProperName name) (hshort : name.length ≤ 60)
    (hd : name ≠ dotName) (hdd : name ≠ dotDotName) :
    smallFs.volume.CanCreate 1 name ∧ smallFs.volume.RoomFor 1 name := by
  have hf := smallFs_formatted
  obtain ⟨k, hroot⟩ := hf.root
  obtain ⟨hn, hz⟩ := smallFs_next
  have hb := hf.blocks
  refine ⟨canCreate_of hroot.live hname hn (by rw [hf.dirs]; rfl) (by omega),
    hroot.tidy.roomFor hroot.live hshort (fun j c he => ?_) hn (by omega) (by omega)⟩
  rw [hroot.entry] at he
  split at he
  · exact hd (congrArg fst (Option.some.inj he)).symm
  · split at he
    · exact hdd (congrArg fst (Option.some.inj he)).symm
    · cases he

lemma smallFs_createDir {name : Str} {mode : UInt16} (hname : ProperName name)
    (hshort : name.length ≤ 60) (hd : name ≠ dotName) (hdd : name ≠ dotDotName) :
    Spec (createDirWithMode env 1 name mode) (fun r V' => r = .ok 2 ∧ V'.WithDir name)
      smallFs.volume := by
  have hf := smallFs_formatted
  obtain ⟨k, hroot⟩ := hf.root
  obtain ⟨hn, hz⟩ := smallFs_next
  obtain ⟨hcan, hroom⟩ := smallFs_canCreate hname hshort hd hdd
  refine (hroot.tidy.createDir hcan hroom).mono ?_
  rintro r V' ⟨n, k', rfl, hdot, ha, hs, hb⟩
  obtain rfl := ha.number.unique hn
  have hroot1 := hroot.size
  obtain ⟨kn, hkn, -, hslots⟩ := ha.slot
  have hf0 : (smallFs.volume.inode 1).directSlotGet 0 ≠ 0 :=
    (Disk.entry_eq_some.mp ((hroot.entry 0).trans (if_pos rfl))).1
  have hzones := hs.zones
  have hblocks := hs.blocks
  have hbf := hf.blocks
  have hdirs0 : smallFs.volume.dirs.order.length = 0 := by rw [hf.dirs]; rfl
  refine ⟨rfl, ha.mount.trans smallFs_mount, hdot.tidy, ha.liveDir hroot.live ?_, ?_, ha.first hf0,
    ⟨kn, hkn, ?_⟩, fun j s c he => ?_, ⟨k', hdot⟩, fun m => ?_, by omega, ⟨by omega, hb⟩, ?_,
    fun m hm => ?_, ha.paths.trans hf.paths⟩
  · rw [hroot1]
    decide
  · rw [ha.size, hroot1]
    rfl
  · rw [hslots, if_pos rfl]
  · rw [hslots] at he
    split at he
    · exact .inr (.inr (congrArg fst (Option.some.inj he)).symm)
    rw [hroot.entry] at he
    split at he
    · exact .inl (congrArg fst (Option.some.inj he)).symm
    · split at he
      · exact .inr (.inl (congrArg fst (Option.some.inj he)).symm)
      · cases he
  · rw [ha.imap]
    by_cases hm : m = 2
    · simp [hm]
    · rw [update_of_ne hm, hf.used]
      simp [hm]
  · have := hs.order
    omega
  · rw [hs.dirs (by rw [hdirs0]; decide) m (by omega) (by omega), hf.dirs]
    rfl

def inodeAfterFailure {α : Type} (x : FsM FsError α) (s : TwilightFs) (n : Nat) : Option Bool :=
  match x s with
  | .ok _ _ => none
  | .error _ s' => some (s'.volume.imap n)

end Twilight.Fs

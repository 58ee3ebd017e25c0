/-
Runs of the namespace operations, and the cached directory indexes along them.

`NsOp.Guard` says what an operation needs of the volume it starts on.  Every
operation that meets it, whether it succeeds or fails, leaves a tidy volume, so
after every such run the cached indexes are the ones `build_dir_index_entry` would
build.
-/
import Twilight.Lib.Runs
import Twilight.Fs.Fresh

namespace Twilight.Fs

open TwilightFs Function Prog Disk Volume DirIndexCache Str Nat

inductive NsOp
  | createFile (env : Inode.Env) (parent : Nat) (name : Str) (mode : UInt16)
  | createDir (env : Inode.Env) (parent : Nat) (name : Str) (mode : UInt16)
  | createSymlink (env : Inode.Env) (parent : Nat) (name target : Str)
  | rename (oldPath newPath : Str)
  | remove (path : Str)
  | find (dir : Nat) (name : Str)
  | resolve (path : Str)

namespace NsOp

def exec : NsOp → FsM FsError Unit
  | createFile env parent name mode => do
    let _ ← createFileWithMode env parent name mode
    pure ()
  | createDir env parent name mode => do
    let _ ← createDirWithMode env parent name mode
    pure ()
  | createSymlink env parent name target => do
    let _ ← TwilightFs.createSymlink env parent name target
    pure ()
  | rename oldPath newPath => renameEntry oldPath newPath
  | remove path => removeEntry path
  | find dir name => do
    let _ ← Prog.mapErr (fun _ => .invalidInode) (findDirEntry dir name)
    pure ()
  | resolve path => do
    let _ ← resolvePath path
    pure ()

/-- The directories a call changes are live, new names are proper, a removed entry
belongs to an inode in use, and no index is cached under the number of a new
inode. -/
def Guard : NsOp → Volume → Prop
  | createFile _ parent name _, V => V.CanCreate parent name
  | createDir _ parent name _, V => V.CanCreate parent name
  | createSymlink _ parent name _, V => V.CanCreate parent name
  | rename oldPath newPath, V => V.CanRename oldPath newPath
  | remove path, V => V.CanRemove path
  | find _ _, _ => True
  | resolve _, _ => True

end NsOp

variable {V : Volume}

lemma Spec.drop {α : Type} {x : FsM FsError α} {I : Volume → Prop}
    (h : Spec x (fun _ V' => I V') V) :
    Spec (do let _ ← x; pure ()) (fun _ V' => I V') V := by
  refine Wp.bind (h.mono fun r V' hV => ?_)
  cases r with
  | ok a => exact Wp.pure hV
  | error e => exact hV

lemma Volume.Tidy.removeEntry {path : Str} (ht : V.Tidy) (hcan : V.CanRemove path) :
    Spec (TwilightFs.removeEntry path) (fun _ V' => V'.Tidy) V := by
  have hlooked := ht.looked (.resolveParent V (Str.components path).dropLast)
  refine spec_removeEntry ht.layout ht.owned.inRange (fun _ => ht) (fun _ _ _ => hlooked) ?_
  intro name p W hname hres
  have hl := Volume.Looked.resolveParent V (Str.components path).dropLast
  rw [hres] at hl hlooked
  refine ⟨fun _ => hlooked, fun _ _ => hlooked, fun _ _ _ _ => hlooked, fun k _ hk _ => ?_⟩
  have hne : name ≠ [] := (isComponent_of_mem (List.mem_of_getLast? hname)).ne_nil
  have hkV : V.FirstMatch (V.inode p) name k := by rw [← hl.disk]; exact hk
  obtain ⟨hp, hc⟩ := hcan name p W k hname hres hkV
  rw [← hl.disk] at hp hc
  exact hlooked.removed hp hne hk hc

lemma Volume.Tidy.findDirEntry (ht : V.Tidy) (n : Nat) (name : Str) :
    Spec (Prog.mapErr (fun _ => FsError.invalidInode) (TwilightFs.findDirEntry n name))
      (fun _ V' => V'.Tidy) V :=
  Wp.mapErr (spec_findDirEntry ht.layout ht.owned.inRange (fun _ _ => ht) fun hn =>
    ht.looked ⟨rfl, rfl, .findEntry hn, id⟩)

lemma NsOp.tidy (op : NsOp) (ht : V.Tidy) (hop : op.Guard V) :
    Spec op.exec (fun _ V' => V'.Tidy) V := by
  have hzone : ∀ {p name n z}, V.NewChild p name true n z → z < 2 ^ 32 := by
    intro p name n z hnew
    have hz : V.FirstFreeZone z := by simpa using hnew.zone
    exact Disk.Owned.zone_lt ht.layout hz.isData
  cases op with
  | createFile env p name mode =>
    refine Spec.drop (spec_createFileWithMode ht.layout ht.owned.inRange fun r V' hm => ?_)
    refine hm.tidy ht hop (fun n z hnew => fileRecord_onlyZone (hzone hnew)) fun z hd => ?_
    rw [(fileRecord_type env mode (V.inode p) z).1] at hd
    cases hd
  | createDir env p name mode =>
    refine Spec.drop (spec_createDirWithMode ht.layout ht.owned.inRange fun r V' hm => ?_)
    exact hm.tidy ht hop (fun n z hnew => dirRecord_onlyZone (hzone hnew))
      (dirRecord_size env mode (V.inode p)) (dirRecord_isDir env mode (V.inode p))
  | createSymlink env p name target =>
    refine Spec.drop (spec_createSymlink ht.layout ht.owned.inRange fun r V' hm => ?_)
    refine hm.tidy ht hop (fun n z hnew => ?_) fun z hd => ?_
    · have hz : z = 0 := by simpa using hnew.zone
      rw [hz]
      exact symlinkInode_onlyZone env target
    · rw [(symlinkInode_type env target).1] at hd
      cases hd
  | rename oldPath newPath =>
    exact spec_renameEntry ht.layout ht.owned.inRange ht.paths fun r V' hr => hr.tidy ht hop
  | remove path => exact ht.removeEntry hop
  | find dir name => exact Spec.drop (ht.findDirEntry dir name)
  | resolve path =>
    exact Spec.drop (spec_resolvePath ht.layout ht.owned.inRange path (ht.looked (.resolve V path)))

/-! ## The cached indexes -/

/-- Every cached index of an allocated directory has the names that
`build_dir_index_entry` finds on the disk. -/
def IndexCoherent (s : TwilightFs) : Prop :=
  ∀ n entry, s.volume.Alloc n → (s.volume.inode n).isDir = true →
    s.shared.dirs.map n = some entry →
    ∃ built, Prog.outcome (buildDirIndexEntry (s.volume.inode n) s) = .ok built ∧
      entry.names = built.names

/-- A volume that has just been mounted: it is well formed and nothing is cached. -/
structure Volume.Mounted (V : Volume) : Prop where
  layout : Layout V.mount
  owned : V.Owned
  unique : ∀ n, V.LiveDir n → V.UniqueNames (V.inode n)
  dirs : V.dirs = Fifo.empty
  paths : V.paths = Fifo.empty

lemma Volume.Mounted.tidy (h : V.Mounted) : V.Tidy := by
  refine ⟨h.layout, h.owned, h.unique, fun n e _ he => ?_, ?_, ?_⟩
  · rw [h.dirs] at he
    cases he
  · rw [h.dirs]
    exact Fifo.wellFormed_empty
  · rw [h.paths]
    exact Fifo.wellFormed_empty

lemma Volume.Formatted.mounted (h : V.Formatted) : V.Mounted := by
  obtain ⟨k, hroot⟩ := h.root
  exact ⟨hroot.tidy.layout, hroot.tidy.owned, hroot.tidy.unique, h.dirs, h.paths⟩

variable {s : TwilightFs}

lemma outcome_buildDirIndexEntry (h : Layout s.volume.mount)
    {i : Inode} (hi : s.volume.DirectData i) :
    Prog.outcome (buildDirIndexEntry i s) = .ok (s.volume.indexOf i) :=
  spec_buildDirIndexEntry h hi (Q := fun r _ => r = .ok (s.volume.indexOf i)) rfl s rfl

lemma Volume.Tidy.indexCoherent (ht : s.volume.Tidy) : IndexCoherent s := by
  intro n entry hn _ he
  exact ⟨_, outcome_buildDirIndexEntry ht.layout (ht.owned.inRange n hn.1),
    ht.coherent n entry hn he⟩

/-- The directory 2 has the two files `x` and `y`, and its index is cached. -/
structure Volume.WithFiles (V : Volume) : Prop where
  mount : V.mount = ⟨Superblock.geometry 1024, 1024, .readWrite⟩
  tidy : V.Tidy
  root : V.LiveDir 1
  rootSize : (V.inode 1).size = 192
  first : (V.inode 1).directSlotGet 0 ≠ 0
  entry : ∃ k < 192, V.entryOf 1 k = some (nameA, 2)
  names : ∀ j s c, V.entryOf 1 j = some (s, c) → s = dotName ∨ s = dotDotName ∨ s = nameA
  dir : V.LiveDir 2
  x : ∃ k < 192, V.entryOf 2 k = some (nameX, 3)
  y : ∃ k < 192, V.entryOf 2 k = some (nameY, 4)
  used : ∀ n, V.imap n = true ↔ 1 ≤ n ∧ n < 5
  zones : 220 < V.freeZones.card
  blocks : 2 ≤ (V.inode 1).unusedBlocks.card
  order : V.dirs.order.length ≤ 3
  dirs : ∃ e, V.dirs.map 2 = some e
  paths : V.paths = Fifo.empty

lemma Volume.WithDir.createFiles {env : Inode.Env} {mode : UInt16} (h : V.WithDir nameA) :
    Spec (createFileWithMode env 2 nameX mode) (fun _ V' =>
      Spec (createFileWithMode env 2 nameY mode) (fun _ V'' => V''.WithFiles) V') V := by
  obtain ⟨k, hd⟩ := h.dir
  have hz := h.zones
  have hb := h.blocks
  have ho := h.order
  -- the first file
  have hn3 : V.FirstFreeInode 3 := firstFreeInode_of (isInode_small h.mount (by decide)
    (by decide)) fun m => (h.used m).trans (by omega)
  have hcan := canCreate_of hd.live properName_X hn3 (h.dirs 3 (by decide)) (by omega)
  have hroom : V.RoomFor 2 nameX := by
    refine h.tidy.roomFor hd.live (by decide) (fun j c he => ?_) hn3 (by omega) (by omega)
    rw [hd.entry] at he
    split at he
    · cases he
    · split at he
      · cases he
      · cases he
  refine (h.tidy.createFile hcan hroom).mono ?_
  rintro _ V' ⟨n, -, ht', ha, hs, -⟩
  obtain rfl := ha.number.unique hn3
  have hlt : V.dirs.order.length < dirIndexCacheCapacity := lt_of_le_of_lt ho (by decide)
  have hsize := hd.size
  have hlive' : V'.LiveDir 2 := ha.liveDir hd.live (by rw [hsize]; decide)
  have hroot' : V'.LiveDir 1 := ha.liveDir h.root (by rw [hsize]; decide)
  have hsz' : (V'.inode 2).size = 192 := by rw [ha.size, hsize]; rfl
  have hmount' := ha.mount.trans h.mount
  have hused' : ∀ m, V'.imap m = true ↔ 1 ≤ m ∧ m < 4 := by
    intro m
    rw [ha.imap]
    by_cases hm : m = 3
    · simp [hm]
    · rw [update_of_ne hm, h.used]
      omega
  obtain ⟨kx, hkx, -, hslotsX⟩ := ha.slot
  have hzs := hs.zones
  have hbs := hs.blocks
  have hos := hs.order
  -- the second file
  have hn4 : V'.FirstFreeInode 4 := firstFreeInode_of (isInode_small hmount' (by decide)
    (by decide)) hused'
  have hcan' := canCreate_of hlive' properName_Y
    hn4 (by rw [hs.dirs hlt 4 (by decide) (by decide), h.dirs 4 (by decide)]) (by omega)
  have hroom' : V'.RoomFor 2 nameY := by
    refine ht'.roomFor hlive' (by decide) (fun j c he => ?_) hn4 (by omega) (by omega)
    rw [hslotsX] at he
    split at he
    · cases he
    rw [hd.entry] at he
    split at he
    · cases he
    · split at he
      · cases he
      · cases he
  refine (ht'.createFile hcan' hroom').mono ?_
  rintro _ V'' ⟨n, -, ht'', ha', hs', -⟩
  obtain rfl := ha'.number.unique hn4
  obtain ⟨ky, hky, hnoneY, hslotsY⟩ := ha'.slot
  have hkxy : kx ≠ ky := by
    rintro rfl
    rw [hslotsX, if_pos rfl] at hnoneY
    cases hnoneY
  obtain ⟨ka, hka, hka'⟩ := h.entry
  have hentry : ∀ j, V''.entryOf 1 j = V.entryOf 1 j := by
    intro j
    rw [ha'.entries 1 hroot'.alloc (by decide), ha.entries 1 h.root.alloc (by decide)]
  have hrec : V''.inode 1 = V.inode 1 := by
    rw [ha'.records 1 (by decide) (by decide), ha.records 1 (by decide) (by decide)]
  have hzs' := hs'.zones
  have hos' := hs'.order
  refine ⟨ha'.mount.trans hmount', ht'', ha'.liveDir hroot' (by rw [hsz']; decide), ?_, ?_,
    ⟨ka, hka, ?_⟩, fun j s c he => ?_, ha'.liveDir hlive' (by rw [hsz']; decide), ⟨kx, hkx, ?_⟩,
    ⟨ky, hky, ?_⟩, fun m => ?_, by omega, ?_, by omega, hs'.parent ht'.dirs, ?_⟩
  · rw [hrec, h.rootSize]
  · rw [hrec]
    exact h.first
  · rw [hentry, hka']
  · rw [hentry] at he
    exact h.names j s c he
  · rw [hslotsY, if_neg hkxy, hslotsX, if_pos rfl]
  · rw [hslotsY, if_pos rfl]
  · rw [ha'.imap]
    by_cases hm : m = 4
    · simp [hm]
    · rw [update_of_ne hm, hused']
      omega
  · rw [hrec]
    exact hb.1
  · rw [ha'.paths, ha.paths, h.paths]

/-- Inode 2 is free and the index of the directory it was is still cached. -/
structure Volume.StaleIndex (V : Volume) : Prop where
  mount : V.mount = ⟨Superblock.geometry 1024, 1024, .readWrite⟩
  tidy : V.Tidy
  root : V.LiveDir 1
  names : ∀ j s c, V.entryOf 1 j = some (s, c) → s = dotName ∨ s = dotDotName ∨ s = nameA
  next : V.FirstFreeInode 2
  zones : 220 < V.freeZones.card
  blocks : 2 ≤ (V.inode 1).unusedBlocks.card
  order : V.dirs.order.length < dirIndexCacheCapacity
  index : ∃ e, V.dirs.map 2 = some e ∧ e.names nameX = some 3 ∧ e.nextFreeSlotHint = 0

lemma Volume.WithFiles.removeY (h : V.WithFiles) :
    Spec (removeEntry [47, 97, 47, 121]) (fun _ V' =>
      Spec (removeEntry [47, 97]) (fun _ V'' => V''.StaleIndex) V') V := by
  obtain ⟨ka, hka, hea⟩ := h.entry
  obtain ⟨kx, hkx, hex⟩ := h.x
  obtain ⟨ky, hky, hey⟩ := h.y
  have halloc : ∀ n, 1 ≤ n → n < 5 → V.Alloc n := fun n h1 h5 =>
    ⟨isInode_small h.mount h1 (by omega), (h.used n).mpr ⟨h1, h5⟩⟩
  have hres := h.tidy.resolve_child h.root hka hea h.first (by decide)
    (by rw [h.paths]; rfl) (halloc 2 (by decide) (by decide)).1
    (Inode.isSymlink_of_isDir h.dir.isDir)
  have hparent : V.resolveParent [nameA] = V.resolve (slash :: nameA) := rfl
  refine (h.tidy.remove [47, 97, 47, 121] (show _ = some nameY from rfl)
    (hparent.trans hres) h.dir hky hey (halloc 4 (by decide) (by decide))).mono ?_
  rintro _ V' ⟨-, ht', hV'⟩
  have htW := h.tidy.looked (.resolve V (slash :: nameA))
  rw [hres] at htW
  generalize hW : ({ V with
    dirs := V.cacheIndex V.dirs 1
    paths := V.paths.insertNew pathLookupCacheCapacity (slash :: nameA) 2 } : Volume) = W
    at hV' htW
  have hdisk : W.toDisk = V.toDisk := by rw [← hW]
  have hWdirs : W.dirs.map 2 = V.dirs.map 2 := by
    rw [← hW]
    exact cacheIndex_keep (by decide) (lt_of_le_of_lt h.order (by decide))
  have hWorder : W.dirs.order.length ≤ 4 := by
    rw [← hW]
    exact le_trans (V.cacheIndex_order V.dirs 1) (succ_le_succ h.order)
  have hc4 : W.childAt 2 ky = 4 := by
    rw [hdisk]
    exact (entry_eq_some.mp hey).2.2.1
  have hallocW : ∀ n, 1 ≤ n → n < 5 → W.Alloc n := by rw [hdisk]; exact halloc
  have hrootW : W.LiveDir 1 := by rw [hdisk]; exact h.root
  have hentry : ∀ j, V'.entryOf 1 j = V.entryOf 1 j := by
    intro j
    rw [hV', removed_entryOf htW.owned (hallocW 2 (by decide) (by decide))
      (hallocW 1 (by decide) (by decide)), if_neg fun h12 => absurd h12.1 (by decide), hdisk]
  have himap : ∀ n, V'.imap n = true ↔ 1 ≤ n ∧ n < 4 := by
    intro n
    have hupd : V'.imap = update V.imap 4 false := by
      rw [hV', ← hc4, ← hdisk]
      rfl
    rw [hupd]
    by_cases hn : n = 4
    · simp [hn]
    · rw [update_of_ne hn, h.used]
      omega
  have hmount : V'.mount = V.mount := by
    rw [hV', ← hdisk]
    rfl
  have hroot' : V'.LiveDir 1 := by
    rw [hV']
    exact W.removed_liveDir hrootW (by rw [hc4]; decide) fun h12 => absurd h12 (by decide)
  have hrec' : V'.inode 1 = V.inode 1 := by
    rw [hV', removed_inode, if_neg (by decide), hdisk]
  have hdirs' : V'.dirs.map 2 = (V.dirs.map 2).map
      fun e => ⟨update e.names nameY none, 0⟩ := by
    rw [hV', ← hWdirs]
    exact (removeName_map ..).trans (if_pos rfl)
  have hinode' : ∀ n, 1 ≤ n → n ≤ 32 → V'.IsInode n :=
    fun n h1 h2 => isInode_small (hmount.trans h.mount) h1 h2
  -- the directory itself
  refine (ht'.remove [47, 97] (show _ = some nameA from rfl) rfl hroot' hka
    ((hentry ka).trans hea) ⟨hinode' 2 (by decide) (by decide), (himap 2).mpr (by decide)⟩).mono ?_
  rintro _ V'' ⟨-, ht'', rfl⟩
  have hc2 : V'.childAt 1 ka = 2 := (entry_eq_some.mp ((hentry ka).trans hea)).2.2.1
  refine ⟨hmount.trans h.mount, ht'', V'.removed_liveDir hroot' (by rw [hc2]; decide) (fun _ => ?_),
    fun j s c he => ?_, ⟨hinode' 2 (by decide) (by decide), ?_, fun n hn hlt => ?_⟩, ?_, ?_, ?_, ?_⟩
  · rw [hrec', h.rootSize]
    decide
  · rw [removed_entryOf ht'.owned hroot'.alloc hroot'.alloc] at he
    split at he
    · cases he
    · rw [hentry] at he
      exact h.names j s c he
  · show update V'.imap (V'.childAt 1 ka) false 2 = false
    rw [hc2, update_self]
  · show update V'.imap (V'.childAt 1 ka) false n = true
    have h1 := hn.1
    rw [hc2, update_of_ne (by omega)]
    exact (himap n).mpr (by omega)
  · have h1 := V'.freeZones_removed 1 ka nameA
      (joinParentAndName (slash :: joinSlash (Str.components [47, 97]).dropLast) nameA)
    have h2 := W.freeZones_removed 2 ky nameY (joinParentAndName
      (slash :: joinSlash (Str.components [47, 97, 47, 121]).dropLast) nameY)
    rw [← hV', hdisk] at h2
    have h3 := h.zones
    omega
  · rw [V'.unusedBlocks_removed, hrec']
    exact h.blocks
  · have hord : V'.dirs.order.length = W.dirs.order.length := by rw [hV']; rfl
    show V'.dirs.order.length < _
    rw [hord]
    exact lt_of_le_of_lt hWorder (by decide)
  · obtain ⟨e, he⟩ := h.dirs
    have hx : e.names nameX = some 3 := by
      have hindex := h.tidy.index_entry h.dir hkx hex
      rwa [Volume.index, he, Option.getD_some] at hindex
    refine ⟨⟨update e.names nameY none, 0⟩, ?_, ?_, rfl⟩
    · refine (removeName_map ..).trans ?_
      rw [if_neg (by decide), hdirs', he]
      rfl
    · simp only
      rw [update_of_ne (by decide), hx]

/-- The cached index of directory `n` has a name that its blocks do not have. -/
structure Volume.Incoherent (V : Volume) (n : Nat) (name : Str) : Prop where
  layout : Layout V.mount
  owned : V.Owned
  alloc : V.Alloc n
  isDir : (V.inode n).isDir = true
  index : ∃ e, V.dirs.map n = some e ∧ e.names name ≠ (V.indexOf (V.inode n)).names name

lemma Volume.Incoherent.not_indexCoherent {n : Nat} {name : Str}
    (h : s.volume.Incoherent n name) : ¬ IndexCoherent s := by
  intro hcoherent
  obtain ⟨e, he, hne⟩ := h.index
  obtain ⟨built, hbuilt, hnames⟩ := hcoherent n e h.alloc h.isDir he
  rw [outcome_buildDirIndexEntry h.layout (h.owned.inRange n h.alloc.1)] at hbuilt
  cases hbuilt
  exact hne (congrFun hnames name)

/-- The new directory 2 has no entry `x`, but the index cached for it has. -/
lemma Volume.StaleIndex.createDir {env : Inode.Env} {mode : UInt16} (h : V.StaleIndex) :
    Spec (createDirWithMode env 1 nameB mode) (fun _ V' => V'.Incoherent 2 nameX) V := by
  have ht := h.tidy
  have hrecord : ∀ n z, V.NewChild 1 nameB true n z →
      (dirRecord env mode (V.inode 1) z).OnlyZone z := fun n z hnew =>
    dirRecord_onlyZone (ht.newChild_lt hnew)
  have hz := h.zones
  have hb := h.blocks
  have hroom : V.RoomFor 1 nameB := by
    refine ht.roomFor h.root (by decide) (fun j c he => ?_) h.next (by omega) (by omega)
    rcases h.names j _ c he with hs | hs | hs <;> exact absurd hs (by decide)
  refine spec_createDirWithMode ht.layout ht.owned.inRange fun r V' hm => ?_
  obtain ⟨n, hn⟩ := hm.success ht.layout h.root.alloc hrecord hroom
  rw [hn] at hm
  cases hm with
  | @made _ k y k' y' grown grown' W hW hslot hfirst hslot' hfirst' =>
    have ha := hW.added ht.layout ht.owned h.root properName_B hrecord
    have hs := hW.spent ht.layout h.root.alloc
    obtain rfl := ha.number.unique h.next
    have hbare := hW.bareDir hrecord (fun z _ => dirRecord_size env mode (V.inode 1) z)
      h.root.alloc (dirRecord_isDir env mode (V.inode 1))
    have hl : Layout W.mount := by rw [hW.mount]; exact ht.layout
    have hoW := hW.owned ht.layout ht.owned h.root.alloc hrecord
    obtain ⟨e, he, hx, hhint⟩ := h.index
    have hWe : W.dirs.map 2 = some e := (hW.dirs_keep h.order (by decide)).trans he
    have hstart : W.startSlot 2 = 0 := by
      rw [startSlot, hWe, Option.elim_some, hhint]
      rfl
    have hk := hbare.slot_zero hstart hfirst
    subst hk
    obtain ⟨hd, hsz⟩ := W.insertEntry_record 2 0 y grown dotName 2
    have hone : ∀ j, (W.insertEntry 2 0 y grown dotName 2).entryOf 2 j
        = if j = 0 then some (dotName, 2) else none :=
      hbare.entryOf hl hoW hslot isName_dot (by decide) (by decide)
    have hoW' : (W.insertEntry 2 0 y grown dotName 2).Owned := .insertEntry hl hoW hbare.alloc hslot
    have hl' : Layout (W.insertEntry 2 0 y grown dotName 2).mount := hl
    have hbare' : (W.insertEntry 2 0 y grown dotName 2).Alloc 2 := hbare.alloc
    have hentry : ∀ j, ((W.insertEntry 2 0 y grown dotName 2).insertEntry 2 k' y' grown' dotDotName
        1).entryOf 2 j = if j = k' then some (dotDotName, 1)
          else if j = 0 then some (dotName, 2) else none := by
      intro j
      by_cases hj : j = k'
      · rw [if_pos hj, hj, entryOf_insertEntry hl' hoW' hbare' hslot' isName_dotDot
          (by decide) (by decide), if_pos rfl]
      · rw [if_neg hj, entryOf_insertEntry_of_ne hl' hoW' hbare' hslot' isName_dotDot
          (by decide) (by decide) (by rw [hsz, hbare.size]; decide) hj, hone]
    have hmap : ((W.insertEntry 2 0 y grown dotName 2).insertEntry 2 k' y' grown' dotDotName
        1).dirs.map 2 = some ⟨update (update e.names dotName (some 2))
          dotDotName (some 1), min (k' + 1) 192⟩ := by
      refine (updateAfterInsert_map ..).trans ?_
      rw [if_pos rfl, show (W.insertEntry 2 0 y grown dotName 2).dirs.map 2 = _ from
        updateAfterInsert_map .., if_pos rfl, hWe]
      rfl
    refine ⟨hl, .insertEntry hl' hoW' hbare' hslot', hbare.alloc, ?_, _, hmap, ?_⟩
    · rw [((W.insertEntry 2 0 y grown dotName 2).insertEntry_record 2 k' y' grown' dotDotName 1).1,
        hd, hbare.isDir]
    have hnone : (((W.insertEntry 2 0 y grown dotName 2).insertEntry 2 k' y' grown' dotDotName
        1).indexOf (((W.insertEntry 2 0 y grown dotName 2).insertEntry 2 k' y' grown' dotDotName
        1).inode 2)).names nameX = none := by
      apply names_eq_none.mpr
      rintro c ⟨j, -, hj⟩
      have := hentry j
      rw [entryOf, hj] at this
      split at this
      · cases this
      · split at this
        · cases this
        · cases this
    rw [hnone]
    simp only
    rw [update_of_ne (by decide), update_of_ne (by decide), hx]
    simp

/-- Make a directory with two files, remove one file and then the directory, and
make another directory: it gets the number of the first and its cached index. -/
def staleRun : List NsOp :=
  [.createDir ⟨0, 0, 0⟩ 1 nameA 0o755, .createFile ⟨0, 0, 0⟩ 2 nameX 0o644,
    .createFile ⟨0, 0, 0⟩ 2 nameY 0o644, .remove [47, 97, 47, 121], .remove [47, 97],
    .createDir ⟨0, 0, 0⟩ 1 nameB 0o755]

end Twilight.Fs

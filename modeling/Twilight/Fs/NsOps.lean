/-
What creating, removing and renaming do to a volume.

Each operation is described by the volumes it can end in, with the inode number,
the zones and the slots it has chosen: `Made` and `MadeDir` for the operations that
create, `removed` for `remove_entry`, and `renamed` for the move inside one
directory.  Failures are included, since the code keeps what it has done before it
fails.
-/
import Twilight.Fs.NsRules

namespace Twilight.Fs

open TwilightFs Prog Inode Disk.Owned Volume Inode.OnlyZone FsError DirIndexCache PathLookupCache List
open Function (update update_self update_of_ne)

variable {V : Volume}

/-! ## Records of new inodes -/

def fileRecord (env : Inode.Env) (mode : UInt16) (parent : Inode) (zone : Nat) : Inode :=
  let inode := if mode &&& modeTypeMask = modeSocket then newSocket env mode
    else newFile env mode
  let inode := if parent.isEncrypted then
      { inode with flags := inode.flags ||| iflagEncrypted }
    else inode
  inode.directSlotSet 0 zone

def dirRecord (env : Inode.Env) (mode : UInt16) (parent : Inode) (zone : Nat) : Inode :=
  let inode := newDir env mode
  let inode := if parent.isEncrypted then
      { inode with flags := inode.flags ||| iflagEncrypted }
    else inode
  inode.directSlotSet 0 zone

variable {i : Inode} {z p k ino q : Nat} {env : Inode.Env} {mode : UInt16}
  {name path newParent newName : Str} {zoned : Bool} {record : Nat → Inode} {V' W X : Volume}
  {Q : Post FsError Unit}

lemma Inode.OnlyZone.directSlotSet (h : i.OnlyZone 0) (hz : z < 2 ^ 32) :
    (i.directSlotSet 0 z).OnlyZone z where
  direct b := by
    rw [directSlotGet_set (by decide) hz, h.direct]
    split <;> simp
  single := (congrArg UInt32.toNat (i.directSlotSet_indirect 0 z)).trans h.single
  double := (congrArg UInt32.toNat (i.directSlotSet_doubleIndirect 0 z)).trans h.double

lemma Inode.onlyZone_of_blank (hd : ∀ k, i.direct k = ⟨0, 0⟩)
    (hs : i.indirect = 0) (hdd : i.doubleIndirect = 0) : i.OnlyZone 0 where
  direct b := by
    unfold directSlotGet
    split
    · simp [hd]
    · simp
  single := by rw [singleIndirectGet, hs]; rfl
  double := by rw [doubleIndirectGet, hdd]; rfl

lemma fileRecord_onlyZone {parent : Inode}
    (hz : z < 2 ^ 32) : (fileRecord env mode parent z).OnlyZone z := by
  apply directSlotSet _ hz
  apply onlyZone_of_blank
  · intro k
    split <;> split <;> rfl
  · split <;> split <;> rfl
  · split <;> split <;> rfl

lemma dirRecord_onlyZone {parent : Inode}
    (hz : z < 2 ^ 32) : (dirRecord env mode parent z).OnlyZone z := by
  apply directSlotSet _ hz
  apply onlyZone_of_blank
  · intro k
    split <;> rfl
  · split <;> rfl
  · split <;> rfl

lemma symlinkInode_onlyZone (env : Inode.Env) (target : Str) :
    (symlinkInode env target).OnlyZone 0 :=
  onlyZone_of_blank (fun _ => rfl) rfl rfl

lemma modeType_or {t perms : UInt16} (ht : t &&& modeTypeMask = t) :
    (t ||| (perms &&& modePermMask)) &&& modeTypeMask = t := by
  have hmask : modePermMask &&& modeTypeMask = 0 := by decide
  have hdistrib : ∀ a b c : UInt16, (a ||| b) &&& c = (a &&& c) ||| (b &&& c) := fun a b c =>
    UInt16.toBitVec_inj.mp BitVec.and_or_distrib_right
  rw [hdistrib, UInt16.and_assoc, hmask, UInt16.and_zero, UInt16.or_zero, ht]

lemma dirRecord_isDir (env : Inode.Env) (mode : UInt16) (parent : Inode) (z : Nat) :
    (dirRecord env mode parent z).isDir = true := by
  have hmode : (dirRecord env mode parent z).mode = modeDir ||| (mode &&& modePermMask) := by
    rw [dirRecord, directSlotSet_mode]
    split <;> rfl
  rw [isDir, hmode, modeType_or (by decide)]
  decide

lemma dirRecord_size (env : Inode.Env) (mode : UInt16) (parent : Inode) (z : Nat) :
    (dirRecord env mode parent z).size = 0 := by
  rw [dirRecord, directSlotSet_size]
  split <;> rfl

lemma fileRecord_type (env : Inode.Env) (mode : UInt16) (parent : Inode) (z : Nat) :
    (fileRecord env mode parent z).isDir = false ∧
      (fileRecord env mode parent z).isSymlink = false := by
  have hmode : (fileRecord env mode parent z).mode &&& modeTypeMask = modeSocket ∨
      (fileRecord env mode parent z).mode &&& modeTypeMask = modeFile := by
    rw [fileRecord, directSlotSet_mode]
    by_cases hs : mode &&& modeTypeMask = modeSocket
    · left
      simp only [if_pos hs]
      split <;> exact modeType_or (by decide)
    · right
      simp only [if_neg hs]
      split <;> exact modeType_or (by decide)
  rcases hmode with hm | hm
  · rw [isDir, isSymlink, hm]
    decide
  · rw [isDir, isSymlink, hm]
    decide

lemma symlinkInode_type (env : Inode.Env) (target : Str) :
    (symlinkInode env target).isDir = false ∧ (symlinkInode env target).isSymlink = true := by
  have hmode : (symlinkInode env target).mode = modeSymlink ||| 0o777 := rfl
  rw [isDir, isSymlink, hmode]
  decide

/-! ## Creating -/

/-- The inode and the zone a creation takes, for a name that is not there yet. -/
structure Volume.NewChild (V : Volume) (p : Nat) (name : Str) (zoned : Bool) (n z : Nat) :
    Prop where
  parent : V.IsInode p
  short : name.length ≤ 60
  absent : (V.index p).names name = none
  inode : V.FirstFreeInode n
  zone : if zoned then V.FirstFreeZone z else z = 0

def Volume.withChild (V : Volume) (p n z : Nat) (i : Inode) : Volume := (V.indexed p).newInode n z i

/-- The ends of a creation: the number of the new inode, if all went well, and the
volume. -/
inductive Made (V : Volume) (p : Nat) (name : Str) (zoned : Bool) (record : Nat → Inode) :
    Option Nat → Volume → Prop
  | refused (hbad : zoned = true → name.length ≤ 60 → ¬ V.IsInode p) :
      Made V p name zoned record none V
  | looked (hp : V.IsInode p)
      (hno : (V.index p).names name = none → ∀ n, V.IsInode n → V.imap n = true) :
      Made V p name zoned record none (V.indexed p)
  | noZone {n : Nat} (hp : V.IsInode p) (hn : V.FirstFreeInode n) (hz : zoned = true)
      (hfull : V.Full) : Made V p name zoned record none ((V.indexed p).setImap n true)
  | noRoom {n z : Nat} (hnew : V.NewChild p name zoned n z)
      (hroom : (V.withChild p n z (record z)).NoRoom p) :
      Made V p name zoned record none (V.withChild p n z (record z))
  | made {n z k y : Nat} {grown : Bool} (hnew : V.NewChild p name zoned n z)
      (hslot : (V.withChild p n z (record z)).FreeSlot p k y grown)
      (hfirst : (V.withChild p n z (record z)).FirstTried p k) :
      Made V p name zoned record (some n)
        ((V.withChild p n z (record z)).insertEntry p k y grown name n)

lemma Made.mount {o : Option Nat} (hm : Made V p name zoned record o V') :
    V'.mount = V.mount := by
  cases hm <;> rfl

lemma Volume.NewChild.isData {n : Nat}
    (hnew : V.NewChild p name zoned n z) (hz : z ≠ 0) : V.IsData z ∧ V.zmap z = false := by
  have hzone := hnew.zone
  cases zoned with
  | true =>
    rw [if_pos rfl] at hzone
    exact ⟨hzone.isData, hzone.free⟩
  | false =>
    rw [if_neg Bool.false_ne_true] at hzone
    exact absurd hzone hz

lemma Made.inRange (h : Layout V.mount) (hr : V.InRange) {o : Option Nat}
    (hrecord : ∀ n z, V.NewChild p name zoned n z → (record z).OnlyZone z)
    (hm : Made V p name zoned record o V') : V'.InRange := by
  have hchild : ∀ n z, V.NewChild p name zoned n z → (V.withChild p n z (record z)).InRange :=
    fun n z hnew => Disk.InRange.newInode (V := V.indexed p) hr (hrecord n z hnew)
      fun hz => (hnew.isData hz).1
  cases hm with
  | refused hbad => exact hr
  | looked hp hno => exact hr
  | noZone hp hn hz hfull => exact hr
  | noRoom hnew hroom => exact hchild _ _ hnew
  | made hnew hslot hfirst =>
    exact Disk.InRange.insertEntry (V := V.withChild p _ _ (record _)) h (hchild _ _ hnew) hslot

lemma spec_addChild (h : Layout V.mount)
    (hr : V.InRange) (hp : V.IsInode p) (hshort : name.length ≤ 60)
    (habsent : (V.index p).names name = none)
    (hrecord : ∀ z, V.FirstFreeZone z → (record z).OnlyZone z)
    (rest : Nat → FsM FsError Nat) {Q : Post FsError Nat}
    (hfail : ∀ e V', Made V p name true record none V' → Q (.error e) V')
    (hrest : ∀ n z k y grown, V.NewChild p name true n z →
      (V.withChild p n z (record z)).FreeSlot p k y grown →
      (V.withChild p n z (record z)).NextSlot p k →
      Spec (rest n) Q ((V.withChild p n z (record z)).insertEntry p k y grown name n)) :
    Spec (do
      let newInodeNum := (← mapErr (fun _ => invalidInode) allocateInode) + 1
      let newZone ← mapErr (fun _ => .invalidInode) allocateZone
      mapErr (fun _ => .invalidInode) (writeInode newInodeNum (record newZone))
      mapErr (fun _ => .invalidInode) (createDirEntry p name newInodeNum)
      rest newInodeNum) Q (V.indexed p) := by
  refine Wp.bind (Wp.mapErr (spec_allocateInode h (fun n hn => ?_) fun hno =>
    hfail _ _ (.looked hp fun _ => hno)))
  have hn' : V.FirstFreeInode n := hn
  simp only [Except.mapError, Nat.sub_add_cancel hn.isInode.1]
  refine Wp.bind (Wp.mapErr (spec_allocateZone h.mapped (fun z hz => ?_) fun hfull =>
    hfail _ _ (.noZone hp hn' rfl hfull)))
  have hz' : V.FirstFreeZone z := ⟨hz.isData, hz.free, hz.least⟩
  simp only [Except.mapError]
  refine Wp.bind (Wp.mapErr (spec_writeInode h hn'.isInode ?_))
  have hz0 : z ≠ 0 := zone_ne h hz'.isData
  have hV : (((V.indexed p).setImap n true).setZmap z true).putInode n (record z)
      = V.withChild p n z (record z) := by
    simp only [withChild, Volume.newInode, if_neg hz0]
    rfl
  simp only [Except.mapError, hV]
  have hnew : V.NewChild p name true n z := ⟨hp, hshort, habsent, hn', hz'⟩
  have hr' : (V.withChild p n z (record z)).InRange :=
    Disk.InRange.newInode (V := V.indexed p) hr (hrecord z hz') fun _ => hz'.isData
  exact Wp.bind (Wp.mapErr (spec_createDirEntry
    (V := V.withChild p n z (record z)) h hp (hr' p hp)
    (fun k y grown hslot hnext => hrest n z k y grown hnew hslot hnext)
    fun e hroom => hfail _ _ (.noRoom hnew hroom)))

lemma spec_addLink {i : Inode} (h : Layout V.mount) (hr : V.InRange) (hp : V.IsInode p)
    (hshort : name.length ≤ 60) (habsent : (V.index p).names name = none) (hi : i.OnlyZone 0)
    {Q : Post FsError Nat}
    (hfull : ∀ e, (∀ n, V.IsInode n → V.imap n = true) → Q (.error e) (V.indexed p))
    (hroom : ∀ e n, V.NewChild p name false n 0 → (V.withChild p n 0 i).NoRoom p →
      Q (.error e) (V.withChild p n 0 i))
    (hok : ∀ n k y grown, V.NewChild p name false n 0 →
      (V.withChild p n 0 i).FreeSlot p k y grown → (V.withChild p n 0 i).NextSlot p k →
      Q (.ok n) ((V.withChild p n 0 i).insertEntry p k y grown name n)) :
    Spec (do
      let newInodeNum := (← mapErr (fun _ => invalidInode) allocateInode) + 1
      mapErr (fun _ => .invalidInode) (writeInode newInodeNum i)
      mapErr (fun _ => .invalidInode) (createDirEntry p name newInodeNum)
      pure newInodeNum) Q (V.indexed p) := by
  refine Wp.bind (Wp.mapErr (spec_allocateInode h (fun n hn => ?_) (hfull _)))
  have hn' : V.FirstFreeInode n := ⟨hn.isInode, hn.free, hn.least⟩
  simp only [Except.mapError, Nat.sub_add_cancel hn.isInode.1]
  refine Wp.bind (Wp.mapErr (spec_writeInode h hn'.isInode ?_))
  have hnew : V.NewChild p name false n 0 := ⟨hp, hshort, habsent, hn', by simp⟩
  have hr' : (V.withChild p n 0 i).InRange :=
    Disk.InRange.newInode (V := V.indexed p) hr hi fun hz => absurd rfl hz
  exact Wp.bind (Wp.mapErr (spec_createDirEntry
    (V := V.withChild p n 0 i) h hp (hr' p hp)
    (fun k y grown hslot hnext => Wp.pure (hok n k y grown hnew hslot hnext))
    fun e => hroom _ n hnew))

lemma spec_newName (h : Layout V.mount) (hr : V.InRange) {rest : Inode → FsM FsError Nat}
    {Q : Post FsError Nat} (hbad : ∀ e, ¬ V.IsInode p → Q (.error e) V)
    (hthere : ∀ e, V.IsInode p → ((V.index p).names name).isSome → Q (.error e) (V.indexed p))
    (hrest : V.IsInode p → (V.index p).names name = none →
      Spec (rest (V.inode p)) Q (V.indexed p)) :
    Spec (do
      let parent ← mapErr (fun _ => invalidInode) (readInode p)
      let dirIndex ← ensureDirIndexEntry p parent
      if (dirIndex.names name).isSome then throw .fileAlreadyExists
      else rest parent) Q V := by
  by_cases hp : V.IsInode p
  · refine Wp.bind (Wp.mapErr (spec_readInode h hp ?_))
    refine Wp.bind (spec_ensureIndex h (hr p hp) ?_)
    simp only
    by_cases hname : ((V.index p).names name).isSome
    · rw [if_pos hname]
      exact Wp.throw (hthere _ hp hname)
    · rw [if_neg hname]
      exact hrest hp (by simpa using hname)
  · exact Wp.bind (Wp.mapErr (spec_readInode_invalid hp (hbad _ hp)))

lemma Made.exists (hp : V.IsInode p) (hsome : ((V.index p).names name).isSome) :
    Made V p name zoned record none (V.indexed p) :=
  .looked hp fun hnone => by simp [hnone] at hsome

lemma spec_createFileWithMode (h : Layout V.mount) (hr : V.InRange) {Q : Post FsError Nat}
    (hQ : ∀ r V', Made V p name true (fileRecord env mode (V.inode p)) r.toOption V' → Q r V') :
    Spec (createFileWithMode env p name mode) Q V := by
  rw [createFileWithMode]
  by_cases hlong : 60 < name.length
  · rw [if_pos hlong]
    exact Wp.throw (hQ _ _ (.refused fun _ hshort => absurd hlong (Nat.not_lt.mpr hshort)))
  rw [if_neg hlong]
  refine spec_newName h hr (fun _ hp => hQ _ _ (.refused fun _ _ => hp))
    (fun _ hp hsome => hQ _ _ (.exists hp hsome)) fun hp habsent => ?_
  exact spec_addChild h hr hp (by omega) habsent
    (fun z hz => fileRecord_onlyZone (zone_lt h hz.isData)) pure
    (fun e V' hV => hQ _ _ hV) fun n z k y grown hnew hslot hnext =>
      Wp.pure (hQ _ _ (.made hnew hslot hnext.firstTried))

inductive MadeDir (V : Volume) (p : Nat) (name : Str) (record : Nat → Inode) :
    Option Nat → Volume → Prop
  | failed {V' : Volume} (hm : Made V p name true record none V') : MadeDir V p name record none V'
  | noDot {n : Nat} {V' : Volume} (hm : Made V p name true record (some n) V')
      (hroom : V'.NoRoom n) : MadeDir V p name record none V'
  | noDotDot {n k y : Nat} {grown : Bool} {V' : Volume}
      (hm : Made V p name true record (some n) V') (hslot : V'.FreeSlot n k y grown)
      (hfirst : V'.FirstTried n k)
      (hroom : (V'.insertEntry n k y grown dotName n).NoRoom n) :
      MadeDir V p name record none (V'.insertEntry n k y grown dotName n)
  | made {n k y k' y' : Nat} {grown grown' : Bool} {V' : Volume}
      (hm : Made V p name true record (some n) V') (hslot : V'.FreeSlot n k y grown)
      (hfirst : V'.FirstTried n k)
      (hslot' : (V'.insertEntry n k y grown dotName n).FreeSlot n k' y' grown')
      (hfirst' : (V'.insertEntry n k y grown dotName n).FirstTried n k') :
      MadeDir V p name record (some n)
        ((V'.insertEntry n k y grown dotName n).insertEntry n k' y' grown' dotDotName p)

lemma Made.isInode {n : Nat} (hm : Made V p name zoned record (some n) V') : V'.IsInode n := by
  cases hm with
  | made hnew hslot hfirst => exact hnew.inode.isInode

lemma spec_createDirWithMode (h : Layout V.mount) (hr : V.InRange) {Q : Post FsError Nat}
    (hQ : ∀ r V', MadeDir V p name (dirRecord env mode (V.inode p)) r.toOption V' → Q r V') :
    Spec (createDirWithMode env p name mode) Q V := by
  rw [createDirWithMode]
  by_cases hlong : 60 < name.length
  · rw [if_pos hlong]
    exact Wp.throw
      (hQ _ _ (.failed (.refused fun _ hshort => absurd hlong (Nat.not_lt.mpr hshort))))
  rw [if_neg hlong]
  refine spec_newName h hr (fun _ hp => hQ _ _ (.failed (.refused fun _ _ => hp)))
    (fun _ hp hsome => hQ _ _ (.failed (.exists hp hsome))) fun hp habsent => ?_
  have hrecord : ∀ z, V.FirstFreeZone z → (dirRecord env mode (V.inode p) z).OnlyZone z :=
    fun z hz => dirRecord_onlyZone (zone_lt h hz.isData)
  refine spec_addChild h hr hp (by omega) habsent hrecord
    (fun n => do
      mapErr (fun _ => .invalidInode) (createDirEntry n dotName n)
      mapErr (fun _ => .invalidInode) (createDirEntry n dotDotName p)
      pure n)
    (fun e V' hV => hQ _ _ (.failed hV)) fun n z k y grown hnew hslot hnext => ?_
  have hm : Made V p name true (dirRecord env mode (V.inode p)) (some n) _ :=
    .made hnew hslot hnext.firstTried
  generalize (V.withChild p n z _).insertEntry p k y grown name n = V' at hm
  have h' : Layout V'.mount := by rwa [hm.mount]
  have hr' : V'.InRange := hm.inRange h hr fun _ z hnew =>
    hrecord z (by simpa using hnew.zone)
  -- the entries of the new directory
  refine Wp.bind (Wp.mapErr (spec_createDirEntry h' hm.isInode (hr' n hm.isInode)
    (fun k y grown hslot hnext => ?_) fun e hroom => hQ _ _ (.noDot hm hroom)))
  have hr'' : (V'.insertEntry n k y grown dotName n).InRange := hr'.insertEntry h' hslot
  exact Wp.bind (Wp.mapErr (spec_createDirEntry
    (V := V'.insertEntry n k y grown dotName n) h' hm.isInode (hr'' n hm.isInode)
    (fun k' y' grown' hslot' hnext' =>
      Wp.pure (hQ _ _ (.made hm hslot hnext.firstTried hslot' hnext'.firstTried)))
    fun e hroom => hQ _ _ (.noDotDot hm hslot hnext.firstTried hroom)))

lemma spec_createSymlink {target : Str}
    (h : Layout V.mount) (hr : V.InRange) {Q : Post FsError Nat}
    (hQ : ∀ r V', Made V p name false (fun _ => symlinkInode env target) r.toOption V' → Q r V') :
    Spec (createSymlink env p name target) Q V := by
  rw [createSymlink]
  by_cases hlong : 60 < name.length
  · rw [if_pos hlong]
    exact Wp.throw (hQ _ _ (.refused nofun))
  rw [if_neg hlong]
  by_cases htarget : target = [] ∨ inodeInlineBytes < target.length
  · rw [if_pos htarget]
    exact Wp.throw (hQ _ _ (.refused nofun))
  rw [if_neg htarget]
  refine spec_newName h hr (fun _ _ => hQ _ _ (.refused nofun))
    (fun _ hp hsome => hQ _ _ (.exists hp hsome)) fun hp habsent => ?_
  exact spec_addLink h hr hp (by omega) habsent (symlinkInode_onlyZone env target)
    (fun e hfull => hQ _ _ (.looked hp fun _ => hfull))
    (fun e n hnew hroom => hQ _ _ (.noRoom hnew hroom)) fun n k y grown hnew hslot hnext =>
      hQ _ _ (.made hnew hslot hnext.firstTried)

/-! ## Removing -/

/-- Remove the entry in slot `k` of directory `p` and free its inode and the direct
zones; `path` is the path that goes out of the cache. -/
def Volume.removed (V : Volume) (p k : Nat) (name path : Str) : Volume :=
  { (V.release (V.childAt p k)).clearEntry p k with
    dirs := removeName V.dirs p name
    paths := removePrefix V.paths path
    files := V.files.invalidateInode (V.childAt p k) }

lemma spec_freeZone (h : Layout V.mount) (hz : V.IsData z)
    {Q : Post TfsError Unit} (hQ : Q (.ok ()) (V.setZmap z false)) :
    Spec (freeZone z) Q V :=
  spec_writable h (spec_deallocZone h.mapped hz hQ)

lemma spec_freeDirect (h : Layout V.mount) (hi : V.DirectData i) {slots : List Nat}
    (hQ : Q (.ok ()) (V.setZones ((slots.map i.directSlotGet).filter (· ≠ 0)) false)) :
    Spec (freeDirect i slots) Q V := by
  induction slots generalizing V with
  | nil => exact Wp.pure hQ
  | cons b rest ih =>
    rw [freeDirect]
    rw [map_cons] at hQ
    by_cases hz : i.directSlotGet b = 0
    · rw [if_neg (not_not.mpr hz)]
      apply ih h hi
      rwa [filter_cons_of_neg (by simpa using hz)] at hQ
    · rw [if_pos hz]
      rw [filter_cons_of_pos (by simpa using hz), setZones_cons] at hQ
      refine Wp.bind (Wp.mapErr (spec_freeZone h (hi b hz) ?_))
      exact ih (V := V.setZmap _ false) h hi hQ

lemma spec_removeSlot {parentPath : Str} (h : Layout V.mount) (hr : V.InRange)
    (hp : V.IsInode p) (hz : V.IsData ((V.inode p).directSlotGet (k / 32)))
    (hbad : ¬ V.IsInode (V.childAt p k) → Q (.error .panic) V) (hok : V.IsInode (V.childAt p k) →
      Q (.ok ()) (V.removed p k name (joinParentAndName parentPath name))) :
    Spec (removeSlot p (V.inode p) parentPath name ((V.inode p).directSlotGet (k / 32))
      (V.block ((V.inode p).directSlotGet (k / 32))) (k % 32)) Q V := by
  rw [removeSlot]
  by_cases hn : V.IsInode (V.childAt p k)
  · refine Wp.bind (Wp.mapErr (spec_readInode h hn ?_))
    refine Wp.bind (spec_freeDirect h (hr _ hn) ?_)
    refine Wp.bind (Wp.mapErr (spec_deallocInode h hn ?_))
    refine Wp.bind (spec_writeTfsBlock h hz ?_)
    refine Wp.bind (Wp.mapErr (spec_writeInode h hp ?_))
    refine Wp.bind (spec_modifyDirs ?_)
    refine Wp.bind (spec_modifyPaths ?_)
    exact spec_modifyFiles (hok hn)
  · exact Wp.bind (Wp.mapErr (spec_readInode_invalid hn (hbad hn)))

def Volume.resolveParent (V : Volume) (parents : List Str) : Except FsError Nat × Volume :=
  if parents = [] then (.ok 1, V) else V.resolve (Str.slash :: Str.joinSlash parents)

lemma Volume.Looked.resolveParent (V : Volume) (parents : List Str) :
    V.Looked (V.resolveParent parents).2 := by
  rw [Volume.resolveParent]
  split
  · exact .refl V
  · exact .resolve V _

def removeFrom (p : Nat) (parentPath name : Str) : FsM FsError Unit := do
  let parent ← mapErr (fun _ => panic) (readInode p)
  let sb := (← get).superblock
  let found ← searchBlocks (entriesPerBlock sb) parent name (range directSlotCount)
  match found with
  | none => throw .fileNotFound
  | some (zone, buf, idx) => removeSlot p parent parentPath name zone buf idx

lemma spec_removeEntry (h : Layout V.mount) (hr : V.InRange)
    (hempty : (Str.components path).getLast? = none → Q (.error .invalidPath) V)
    (hlost : ∀ e, (Str.components path).getLast? ≠ none →
      (V.resolveParent (Str.components path).dropLast).1 = .error e →
      Q (.error e) (V.resolveParent (Str.components path).dropLast).2)
    (hfound : ∀ name p W, (Str.components path).getLast? = some name →
      V.resolveParent (Str.components path).dropLast = (.ok p, W) →
      (¬ W.IsInode p → Q (.error .panic) W) ∧
      (W.IsInode p → (∀ k < 192, ¬ W.Matches (W.inode p) name k) → Q (.error .fileNotFound) W) ∧
      (∀ k, W.IsInode p → W.FirstMatch (W.inode p) name k → ¬ W.IsInode (W.childAt p k) →
        Q (.error .panic) W) ∧
      ∀ k, W.IsInode p → W.FirstMatch (W.inode p) name k → W.IsInode (W.childAt p k) →
        Q (.ok ()) (W.removed p k name (joinParentAndName
          (Str.slash :: Str.joinSlash (Str.components path).dropLast) name))) :
    Spec (removeEntry path) Q V := by
  rw [removeEntry]
  cases hlast : (Str.components path).getLast? with
  | none => exact Wp.throw (hempty hlast)
  | some name =>
    simp only
    -- the walk to the parent, and the search in it
    have hsearch : ∀ p W, V.resolveParent (Str.components path).dropLast = (.ok p, W) →
        Spec (removeFrom p (Str.slash :: Str.joinSlash (Str.components path).dropLast) name)
          Q W := by
      intro p W hres
      have hl : V.Looked W := by
        have := Volume.Looked.resolveParent V (Str.components path).dropLast
        rwa [hres] at this
      have hW : Layout W.mount := by rwa [hl.disk]
      have hrW : W.InRange := by rwa [hl.disk]
      obtain ⟨hbad, hnone, hdead, hok⟩ := hfound name p W hlast hres
      by_cases hp : W.IsInode p
      · refine Wp.bind (Wp.mapErr (spec_readInode hW hp ?_))
        refine Wp.bind (spec_get fun s hs => ?_)
        have hsb : s.superblock = W.mount.sb := congrArg (fun U : Volume => U.sb) hs
        simp only [hsb, entriesPerBlock_eq hW]
        refine Wp.bind (spec_searchBlocks hW (hrW p hp) (fun k hk => ?_) fun hn =>
          Wp.throw (hnone hp hn))
        exact spec_removeSlot hW hrW hp (hrW p hp _ hk.here.mapped) (hdead k hp hk) (hok k hp hk)
      · exact Wp.bind (Wp.mapErr (spec_readInode_invalid hp (hbad hp)))
    by_cases hparents : (Str.components path).dropLast = []
    · rw [if_pos hparents]
      refine Wp.bind (Wp.pure (hsearch 1 V ?_))
      rw [Volume.resolveParent, if_pos hparents]
    rw [if_neg hparents]
    have hres : V.resolveParent (Str.components path).dropLast
        = V.resolve (Str.slash :: Str.joinSlash (Str.components path).dropLast) :=
      if_neg hparents
    refine Wp.bind (spec_resolvePath h hr _ ?_)
    rw [← hres]
    cases hr' : V.resolveParent (Str.components path).dropLast with
    | mk r W =>
      cases r with
      | ok p => exact hsearch p W hr'
      | error e =>
        have := hlost e (by simp [hlast]) (by rw [hr'])
        rwa [hr'] at this

/-! ## Renaming -/

lemma Inode.dropEntry_directSlotGet (i : Inode) (b : Nat) :
    i.dropEntry.directSlotGet b = i.directSlotGet b := by
  unfold dropEntry
  split <;> rfl

lemma Volume.removed_inode (V : Volume) (p k : Nat) (name path : Str) (n : Nat) :
    (V.removed p k name path).inode n
      = if n = p then (V.inode p).dropEntry else V.inode n := by
  by_cases hn : n = p
  · rw [if_pos hn, hn]
    exact update_self ..
  · rw [if_neg hn]
    exact update_of_ne hn _ _

lemma Volume.removed_directSlotGet (V : Volume) (p k : Nat) (name path : Str) (n b : Nat) :
    ((V.removed p k name path).inode n).directSlotGet b = (V.inode n).directSlotGet b := by
  rw [removed_inode]
  split
  · next hn => rw [hn, dropEntry_directSlotGet]
  · rfl

lemma Disk.InRange.removed (hr : V.InRange) (p k : Nat) (name path : Str) :
    (V.removed p k name path).InRange := by
  intro n hn b hb
  rw [removed_directSlotGet] at hb ⊢
  exact hr n hn b hb

def Volume.renamed (V : Volume) (p k ino : Nat) (oldName newName oldPath newPath : Str) :
    Volume :=
  { V with
    block := update V.block ((V.inode p).directSlotGet (k / 32))
      ((V.block ((V.inode p).directSlotGet (k / 32))).splice (k % 32 * 64 + 4) 60
        (nameBytes newName))
    dirs := rename V.dirs p oldName p newName ino
    paths := removePrefix (removePrefix V.paths oldPath) newPath }

/-- Clear slot `k` of directory `p`, for an entry that has moved. -/
def Volume.unlinked (V : Volume) (p k : Nat) (oldName oldPath newPath : Str) : Volume :=
  { V.clearEntry p k with
    dirs := removeName V.dirs p oldName
    paths := removePrefix (removePrefix V.paths oldPath) newPath }

lemma spec_moveEntry_same {oldParent oldName : Str}
    (h : Layout V.mount) (hz : V.IsData ((V.inode p).directSlotGet (k / 32)))
    (hok : Q (.ok ()) (V.renamed p k ino oldName newName
      (joinParentAndName oldParent oldName) (joinParentAndName newParent newName))) :
    Spec (moveEntry oldParent newParent oldName newName p p
      ((V.inode p).directSlotGet (k / 32)) (k % 32 * dirEntrySize) ino) Q V := by
  rw [moveEntry, if_pos rfl]
  refine Wp.bind (spec_readTfsBlock h hz ?_)
  refine Wp.bind (spec_writeTfsBlock h hz ?_)
  refine Wp.bind (spec_modifyDirs ?_)
  refine Wp.bind (spec_modifyPaths ?_)
  exact spec_modifyPaths hok

lemma spec_moveEntry_other {oldParent oldName : Str}
    (h : Layout V.mount) (hr : V.InRange) (hp : V.IsInode p) (hq : V.IsInode q) (hpq : p ≠ q)
    (hz : (V.inode p).directSlotGet (k / 32) ≠ 0)
    (hok : ∀ j y grown, V.FreeSlot q j y grown → V.NextSlot q j →
      Q (.ok ()) ((V.insertEntry q j y grown newName ino).unlinked p k oldName
        (joinParentAndName oldParent oldName) (joinParentAndName newParent newName)))
    (herr : ∀ e, V.NoRoom q → Q (.error e) V) :
    Spec (moveEntry oldParent newParent oldName newName p q
      ((V.inode p).directSlotGet (k / 32)) (k % 32 * dirEntrySize) ino) Q V := by
  rw [moveEntry, if_neg hpq]
  refine Wp.bind (Wp.mapErr (spec_createDirEntry h hq (hr q hq)
    (fun j y grown hslot hnext => ?_) fun e hroom => herr _ hroom))
  have hrec : (V.insertEntry q j y grown newName ino).inode p = V.inode p := update_of_ne hpq _ _
  simp only [Except.mapError]
  rw [← hrec]
  refine Wp.bind (spec_clearDirEntrySlot (V := V.insertEntry q j y grown newName ino) h hp
    (by rw [hrec]; exact hr p hp _ hz) ?_)
  refine Wp.bind (spec_modifyDirs ?_)
  refine Wp.bind (spec_modifyPaths ?_)
  exact spec_modifyPaths (hok j y grown hslot hnext)

lemma Volume.resolve_again (hw : V.paths.WellFormed)
    (hres : V.resolve path = (.ok q, W)) : W.resolve path = (.ok q, W) := by
  rw [Volume.resolve] at hres ⊢
  by_cases hempty : path = []
  · rw [if_pos hempty] at hres
    cases hres
  rw [if_neg hempty] at hres ⊢
  by_cases hroot : path = rootPath
  · rw [if_pos hroot] at hres ⊢
    cases hres
    rfl
  rw [if_neg hroot] at hres ⊢
  cases hc : V.paths.map (canonical path) with
  | some ino =>
    rw [hc] at hres
    cases hres
    rw [hc]
  | none =>
    rw [hc] at hres
    simp only at hres
    cases hwalk : V.walk maxSymlinks (Str.components (canonical path)) 1 V.dirs with
    | mk r c =>
      rw [hwalk] at hres
      cases r with
      | error e => cases hres
      | ok ino =>
        cases hres
        have hin : (V.paths.insertNew pathLookupCacheCapacity (canonical path) q).map
            (canonical path) = some q :=
          Fifo.insertNew_self_of_none hw (by decide) hc
        simp only [hin]

lemma splitParentAndName_ok {parent : Str} (hs : splitParentAndName path = .ok (parent, name)) :
    (Str.components path).getLast? = some name ∧ name ≠ dotName ∧ name ≠ dotDotName ∧
      parent = Str.slash :: Str.joinSlash (Str.components path).dropLast := by
  rw [splitParentAndName] at hs
  cases hlast : (Str.components path).getLast? with
  | none =>
    rw [hlast] at hs
    cases hs
  | some last =>
    rw [hlast] at hs
    simp only at hs
    split at hs
    · cases hs
    next hname =>
    have hdots : last ≠ dotName ∧ last ≠ dotDotName :=
      ⟨fun hd => hname (.inr (.inl hd)), fun hd => hname (.inr (.inr hd))⟩
    split at hs
    · next hparents =>
      cases hs
      rw [hparents]
      exact ⟨rfl, hdots.1, hdots.2, rfl⟩
    · cases hs
      exact ⟨rfl, hdots.1, hdots.2, rfl⟩

lemma Volume.resolveParent_eq (V : Volume) (parents : List Str) :
    V.resolveParent parents = V.resolve (Str.slash :: Str.joinSlash parents) := by
  rw [Volume.resolveParent]
  split
  · next hparents =>
    have hroot : Str.slash :: Str.joinSlash parents = rootPath := by rw [hparents]; rfl
    rw [hroot, Volume.resolve, if_neg (by decide), if_pos rfl]
  · rfl

/-- The checks of `rename_entry` have passed: `W` is the volume after both parents
`p` and `q` were resolved, and slot `k` of `p` holds the entry. -/
structure Volume.RenamePlan (V : Volume) (oldPath newPath : Str) (W : Volume)
    (oldParent oldName newParent newName : Str) (p q k : Nat) : Prop where
  old : splitParentAndName oldPath = .ok (oldParent, oldName)
  new : splitParentAndName newPath = .ok (newParent, newName)
  shortOld : oldName.length ≤ 60
  shortNew : newName.length ≤ 60
  source : (V.resolve oldParent).1 = .ok p
  target : (V.resolve oldParent).2.resolve newParent = (.ok q, W)
  sourceDir : W.IsInode p ∧ (W.inode p).isDir = true
  targetDir : W.IsInode q ∧ (W.inode q).isDir = true
  slot : W.FirstMatch (W.inode p) oldName k
  child : W.IsInode (W.childAt p k)
  kind : (W.inode (W.childAt p k)).isDir = true → p = q

/-- The new name is free in `q`, or its entry has been removed. -/
inductive Cleared (W : Volume) (q ino : Nat) (newName path : Str) : Volume → Prop
  | free (hnone : ∀ j < 192, ¬ W.Matches (W.inode q) newName j) : Cleared W q ino newName path W
  | replaced {j : Nat} (hj : W.FirstMatch (W.inode q) newName j) (hne : W.childAt q j ≠ ino)
      (hc : W.IsInode (W.childAt q j)) (hkind : (W.inode (W.childAt q j)).isDir = false) :
      Cleared W q ino newName path (W.removed q j newName path)

/-- The ends of `rename_entry`. -/
inductive Renamed (V : Volume) (oldPath newPath : Str) : Except FsError Unit → Volume → Prop
  | failed {e : FsError} {W : Volume} (hl : V.Looked W) : Renamed V oldPath newPath (.error e) W
  | trivial (heq : oldPath = newPath) : Renamed V oldPath newPath (.ok ()) V
  | same {W : Volume} {op on np nn : Str} {p k j : Nat}
      (hplan : V.RenamePlan oldPath newPath W op on np nn p p k)
      (hj : W.FirstMatch (W.inode p) nn j) (heq : W.childAt p j = W.childAt p k) :
      Renamed V oldPath newPath (.ok ()) W
  | stuck {e : FsError} {W X : Volume} {op on np nn : Str} {p q k : Nat}
      (hplan : V.RenamePlan oldPath newPath W op on np nn p q k)
      (hX : Cleared W q (W.childAt p k) nn (joinParentAndName np nn) X) (hpq : p ≠ q)
      (hroom : X.NoRoom q) : Renamed V oldPath newPath (.error e) X
  | renamed {W X : Volume} {op on np nn : Str} {p k : Nat}
      (hplan : V.RenamePlan oldPath newPath W op on np nn p p k)
      (hX : Cleared W p (W.childAt p k) nn (joinParentAndName np nn) X) :
      Renamed V oldPath newPath (.ok ()) (X.renamed p k (W.childAt p k) on nn
        (joinParentAndName op on) (joinParentAndName np nn))
  | moved {W X : Volume} {op on np nn : Str} {p q k j y : Nat} {grown : Bool}
      (hplan : V.RenamePlan oldPath newPath W op on np nn p q k)
      (hX : Cleared W q (W.childAt p k) nn (joinParentAndName np nn) X) (hpq : p ≠ q)
      (hslot : X.FreeSlot q j y grown) :
      Renamed V oldPath newPath (.ok ())
        ((X.insertEntry q j y grown nn (W.childAt p k)).unlinked p k on
          (joinParentAndName op on) (joinParentAndName np nn))

lemma Cleared.mount (hX : Cleared W q ino newName path X) : X.mount = W.mount := by
  cases hX <;> rfl

lemma Cleared.inRange (hr : W.InRange) (hX : Cleared W q ino newName path X) : X.InRange := by
  cases hX with
  | free hnone => exact hr
  | replaced hj hne hc hkind => exact hr.removed _ _ _ _

lemma Cleared.directSlotGet (hX : Cleared W q ino newName path X) (n b : Nat) :
    (X.inode n).directSlotGet b = (W.inode n).directSlotGet b := by
  cases hX with
  | free hnone => rfl
  | replaced hj hne hc hkind => exact W.removed_directSlotGet ..

lemma spec_replaceTarget {newPath : Str} (h : Layout W.mount) (hr : W.InRange)
    (hsplit : splitParentAndName newPath = .ok (newParent, newName))
    (hagain : W.resolve newParent = (.ok q, W)) (hq : W.IsInode q)
    {Q : Post FsError Bool} (herr : ∀ e, Q (.error e) W)
    (hsame : ∀ j, p = q → W.FirstMatch (W.inode q) newName j → W.childAt q j = ino →
      Q (.ok false) W)
    (hok : ∀ X, Cleared W q ino newName (joinParentAndName newParent newName) X → Q (.ok true) X) :
    Spec (replaceTarget newPath newName p q ino) Q W := by
  obtain ⟨hlast, -, -, hparent⟩ := splitParentAndName_ok hsplit
  rw [hparent, ← resolveParent_eq] at hagain
  rw [replaceTarget]
  refine Wp.bind (spec_findDirEntrySlot h hq (hr q hq) (fun j hj => ?_) fun hnone =>
    Wp.pure (hok W (.free hnone)))
  simp only
  by_cases hne : W.childAt q j ≠ ino
  · rw [if_pos hne]
    by_cases hc : W.IsInode (W.childAt q j)
    · refine Wp.bind (Wp.mapErr (spec_readInode h hc ?_))
      simp only [Except.mapError]
      by_cases hd : (W.inode (W.childAt q j)).isDir = true
      · rw [if_pos hd]
        exact Wp.throw (herr _)
      rw [if_neg hd]
      refine Wp.bind (spec_removeEntry h hr (fun _ => herr _) (fun e _ he => ?_)
        fun name p' W' hname hres => ?_)
      · rw [hagain] at he
        cases he
      rw [hagain] at hres
      cases hres
      rw [hlast] at hname
      cases hname
      refine ⟨fun _ => herr _, fun _ _ => herr _, fun _ _ _ _ => herr _,
        fun j' _ hj' hc' => Wp.pure ?_⟩
      rw [← hparent]
      obtain rfl := hj'.unique hj
      exact hok _ (.replaced hj' hne hc (by simpa using hd))
    · exact Wp.bind (Wp.mapErr (spec_readInode_invalid hc (herr _)))
  · rw [if_neg hne]
    by_cases hpq : p = q
    · rw [if_pos hpq]
      exact Wp.pure (hsame j hpq hj (not_not.mp hne))
    · rw [if_neg hpq]
      exact Wp.throw (herr _)

lemma spec_liftExcept {α : Type} {r : Except FsError α} {Q : Post FsError α}
    (hQ : Q r V) : Spec (liftExcept r) Q V := by
  cases r with
  | ok a => exact Wp.pure hQ
  | error e => exact Wp.throw hQ

lemma spec_renameEntry {oldPath newPath : Str} (h : Layout V.mount) (hr : V.InRange)
    (hw : V.paths.WellFormed) (hQ : ∀ r W, Renamed V oldPath newPath r W → Q r W) :
    Spec (renameEntry oldPath newPath) Q V := by
  rw [renameEntry]
  by_cases hsame : oldPath = newPath
  · rw [if_pos hsame]
    exact Wp.pure (hQ _ _ (.trivial hsame))
  rw [if_neg hsame]
  refine Wp.bind (spec_liftExcept ?_)
  cases hold : splitParentAndName oldPath with
  | error e => exact hQ _ _ (.failed (.refl V))
  | ok old =>
  obtain ⟨op, on⟩ := old
  refine Wp.bind (spec_liftExcept ?_)
  cases hnew : splitParentAndName newPath with
  | error e => exact hQ _ _ (.failed (.refl V))
  | ok new =>
  obtain ⟨np, nn⟩ := new
  simp only
  by_cases hlong : 60 < on.length ∨ 60 < nn.length
  · rw [if_pos hlong]
    exact Wp.throw (hQ _ _ (.failed (.refl V)))
  rw [if_neg hlong]
  -- both parents
  have hl1 := Volume.Looked.resolve V op
  refine Wp.bind (spec_resolvePath h hr op ?_)
  cases hp : (V.resolve op).1 with
  | error e => exact hQ _ _ (.failed hl1)
  | ok p =>
  have hw1 : (V.resolve op).2.paths.WellFormed := hl1.paths hw
  have hl2 := hl1.trans (Volume.Looked.resolve (V.resolve op).2 np)
  refine Wp.bind (spec_resolvePath (by rwa [hl1.disk]) (by rwa [hl1.disk]) np ?_)
  cases hres : (V.resolve op).2.resolve np with
  | mk r W =>
  rw [hres] at hl2
  cases r with
  | error e => exact hQ _ _ (.failed hl2)
  | ok q =>
  have hW : Layout W.mount := by rwa [hl2.disk]
  have hrW : W.InRange := by rwa [hl2.disk]
  have hfail : ∀ e, Q (.error e) W := fun e => hQ _ _ (.failed hl2)
  simp only
  by_cases hip : W.IsInode p
  swap
  · exact Wp.bind (Wp.mapErr (spec_readInode_invalid hip (hfail _)))
  refine Wp.bind (Wp.mapErr (spec_readInode hW hip ?_))
  simp only [Except.mapError]
  by_cases hdp : (W.inode p).isDir = false
  · rw [if_pos hdp]
    exact Wp.throw (hfail _)
  rw [if_neg hdp]
  by_cases hiq : W.IsInode q
  swap
  · exact Wp.bind (Wp.mapErr (spec_readInode_invalid hiq (hfail _)))
  refine Wp.bind (Wp.mapErr (spec_readInode hW hiq ?_))
  simp only [Except.mapError]
  by_cases hdq : (W.inode q).isDir = false
  · rw [if_pos hdq]
    exact Wp.throw (hfail _)
  rw [if_neg hdq]
  -- the entry
  refine Wp.bind (spec_findDirEntrySlot hW hip (hrW p hip) (fun k hk => ?_) fun _ =>
    Wp.throw (hfail _))
  simp only
  by_cases hc : W.IsInode (W.childAt p k)
  swap
  · exact Wp.bind (Wp.mapErr (spec_readInode_invalid hc (hfail _)))
  refine Wp.bind (Wp.mapErr (spec_readInode hW hc ?_))
  simp only [Except.mapError]
  by_cases hkind : (W.inode (W.childAt p k)).isDir = true ∧ p ≠ q
  · rw [if_pos hkind]
    exact Wp.throw (hfail _)
  rw [if_neg hkind]
  have hplan : V.RenamePlan oldPath newPath W op on np nn p q k :=
    ⟨hold, hnew, by omega, by omega, hp, hres, ⟨hip, by simpa using hdp⟩,
      ⟨hiq, by simpa using hdq⟩, hk, hc, fun hd => not_not.mp fun hpq => hkind ⟨hd, hpq⟩⟩
  refine Wp.bind (spec_replaceTarget hW hrW hnew (resolve_again hw1 hres) hiq hfail
    (fun j hpq hj heq => ?_) fun X hX => ?_)
  · subst hpq
    exact Wp.pure (hQ _ _ (.same hplan hj heq))
  simp only [if_true]
  have hLX : Layout X.mount := by rwa [hX.mount]
  have hrX : X.InRange := hX.inRange hrW
  have hX' : ∀ n, W.IsInode n → X.IsInode n := fun n hn => by rwa [Disk.IsInode, Disk.sb, hX.mount]
  rw [← hX.directSlotGet p (k / 32)]
  have hz : (X.inode p).directSlotGet (k / 32) ≠ 0 := by
    rw [hX.directSlotGet]
    exact hk.here.mapped
  by_cases hpq : p = q
  · subst hpq
    exact spec_moveEntry_same hLX (hrX p (hX' p hip) _ hz) (hQ _ _ (.renamed hplan hX))
  · exact spec_moveEntry_other hLX hrX (hX' p hip) (hX' q hiq) hpq hz
      (fun j y grown hslot _ => hQ _ _ (.moved hplan hX hpq hslot))
      fun e hroom => hQ _ _ (.stuck hplan hX hpq hroom)

end Twilight.Fs

/-
What the namespace operations do to the tree of entries.

The rules of `Fs.NsOps` say how an operation changes blocks and records.  Here the
same ends are described by the entries of the directories in use: a creation adds
one entry for an inode that was free, a removal erases one, a renaming changes one.
-/
import Twilight.Fs.Coherent

namespace Twilight.Fs

open TwilightFs Function Volume Disk DirIndexCache Inode Disk.Owned Str

variable {V V' W : Volume} {p n : Nat} {name : Str} {record : Nat → Inode}

/-! ## A new entry -/

/-- Inode `n` was free and is now the entry `name` of directory `p`. -/
structure Volume.Added (V V' : Volume) (p : Nat) (name : Str) (n : Nat) : Prop where
  mount : V'.mount = V.mount
  number : V.FirstFreeInode n
  imap : V'.imap = update V.imap n true
  slot : ∃ k < 192, V.entryOf p k = none ∧
    ∀ j, V'.entryOf p j = if j = k then some (name, n) else V.entryOf p j
  entries : ∀ m, V.Alloc m → m ≠ p → ∀ j, V'.entryOf m j = V.entryOf m j
  records : ∀ m, m ≠ n → m ≠ p → V'.inode m = V.inode m
  kind : ∀ m, m ≠ n → (V'.inode m).mode = (V.inode m).mode
  size : (V'.inode p).size = (V.inode p).size + 64
  first : (V.inode p).directSlotGet 0 ≠ 0 → (V'.inode p).directSlotGet 0 ≠ 0
  paths : V'.paths = V.paths

lemma Disk.slotInode_mode (D : Disk) (p k z : Nat) (grown : Bool) :
    (D.slotInode p k z grown).mode = (D.inode p).mode := by
  rw [slotInode]
  split
  · exact directSlotSet_mode ..
  · rfl

lemma Volume.insertEntry_mode (V : Volume) (p k z : Nat) (grown : Bool) (name : Str)
    (child m : Nat) :
    ((V.insertEntry p k z grown name child).inode m).mode = (V.inode m).mode := by
  by_cases hm : m = p
  · subst hm
    rw [insertEntry_self]
    exact V.slotInode_mode m k z grown
  · have hrec : (V.insertEntry p k z grown name child).inode m = V.inode m := update_of_ne hm _ _
    rw [hrec]

variable {zoned : Bool} {k m j c : Nat} {D : Disk}

lemma Made.added (h : Layout V.mount) (ho : V.Owned) (hp : V.LiveDir p) (hname : ProperName name)
    (hrecord : ∀ n z, V.NewChild p name zoned n z → (record z).OnlyZone z)
    (hm : Made V p name zoned record (some n) V') : V.Added V' p name n := by
  cases hm with
  | @made _ z k y grown hnew hslot hfirst =>
    obtain ⟨hn, hn'⟩ := hnew.number h
    have hne : p ≠ n := (hnew.ne_parent hp.alloc).symm
    have hinode : ∀ m, m ≠ n → (V.withChild p n z (record z)).inode m = V.inode m :=
      fun m hmn => update_of_ne hmn _ _
    have halloc : ∀ m, V.Alloc m → (V.withChild p n z (record z)).Alloc m ∧ m ≠ n := by
      intro m hm
      have hmn : m ≠ n := by
        rintro rfl
        have hfree := hnew.inode.free
        rw [hm.2] at hfree
        cases hfree
      exact ⟨⟨hm.1, (update_of_ne hmn _ _).trans hm.2⟩, hmn⟩
    have hoW : (V.withChild p n z (record z)).Owned :=
      newInode (V := V.indexed p) ho (hrecord n z hnew) hnew.inode.free fun hz => hnew.isData hz
    -- storing the new inode changes no entry
    have hentry : ∀ m, m ≠ n → ∀ j, (V.withChild p n z (record z)).entryOf m j = V.entryOf m j := by
      intro m hmn j
      rw [entryOf, hinode m hmn]
      rfl
    have hsize : ((V.withChild p n z (record z)).inode p).size ≠ 0 := by
      rw [hinode p hne]
      exact hp.size
    have hpW := (halloc p hp.alloc).1
    have hl : Layout (V.withChild p n z (record z)).mount := h
    refine ⟨rfl, hnew.inode, rfl, ⟨k, hslot.lt, ?_, fun j => ?_⟩, fun m hm hmp j => ?_,
      fun m hmn hmp => ?_, fun m hmn => ?_, ?_, fun h0 => ?_, rfl⟩
    · rw [← hentry p hne]
      exact hslot.entryOf_none hsize
    · have hN := hname.isName hnew.short
      by_cases hjk : j = k
      · rw [if_pos hjk, hjk, entryOf_insertEntry hl hoW hpW hslot hN hn hn', if_pos rfl]
      · rw [if_neg hjk, entryOf_insertEntry_of_ne hl hoW hpW hslot hN hn hn' hsize hjk,
          hentry p hne]
    · obtain ⟨hmW, hmn⟩ := halloc m hm
      rw [entryOf_insertEntry_other hoW hpW hmW hmp hslot, hentry m hmn]
    · exact (update_of_ne hmp _ _).trans (hinode m hmn)
    · rw [insertEntry_mode, hinode m hmn]
    · rw [((V.withChild p n z (record z)).insertEntry_record p k y grown name n).2, hinode p hne]
    · rw [insertEntry_directSlotGet hl hslot, hinode p hne]
      split
      · cases grown with
        | false => exact (hslot.kept rfl).2.1
        | true => exact zone_ne h (hslot.new rfl).2.isData
      · exact h0

lemma Made.owned (h : Layout V.mount) (ho : V.Owned) (hp : V.Alloc p)
    (hrecord : ∀ n z, V.NewChild p name zoned n z → (record z).OnlyZone z)
    (hm : Made V p name zoned record (some n) V') : V'.Owned := by
  cases hm with
  | @made _ z k y grown hnew hslot hfirst =>
    have hne : p ≠ n := (hnew.ne_parent hp).symm
    have hoW : (V.withChild p n z (record z)).Owned :=
      newInode (V := V.indexed p) ho (hrecord n z hnew) hnew.inode.free fun hz => hnew.isData hz
    exact insertEntry (V := V.withChild p n z (record z)) h hoW
      ⟨hp.1, (update_of_ne hne _ _).trans hp.2⟩ hslot

lemma Volume.Added.inside (ha : V.Added W p name n) (hp : V.Alloc p)
    (hoW : W.Owned) (hn : W.Alloc n) {z child : Nat} {grown : Bool} {s : Str}
    (hslot : W.FreeSlot n k z grown) : V.Added (W.insertEntry n k z grown s child) p name n := by
  have halloc : ∀ m, V.Alloc m → W.Alloc m ∧ m ≠ n := by
    intro m hm
    have hmn : m ≠ n := by
      rintro rfl
      have hfree := ha.number.free
      rw [hm.2] at hfree
      cases hfree
    refine ⟨⟨?_, ?_⟩, hmn⟩
    · rw [Disk.IsInode, sb, ha.mount]
      exact hm.1
    · rw [ha.imap, update_of_ne hmn]
      exact hm.2
  have hinode : ∀ m, m ≠ n → (W.insertEntry n k z grown s child).inode m = W.inode m :=
    fun m hmn => update_of_ne hmn _ _
  have hentry : ∀ m, V.Alloc m → ∀ j,
      (W.insertEntry n k z grown s child).entryOf m j = W.entryOf m j := fun m hm j =>
    W.entryOf_insertEntry_other hoW hn (halloc m hm).1 (halloc m hm).2 hslot j
  have hpn := (halloc p hp).2
  obtain ⟨k', hk', hnone, hslots⟩ := ha.slot
  refine ⟨ha.mount, ha.number, ha.imap, ⟨k', hk', hnone, fun j => ?_⟩, fun m hm hmp j => ?_,
    fun m hmn hmp => ?_, fun m hmn => ?_, ?_, fun h0 => ?_, ha.paths⟩
  · rw [hentry p hp, hslots]
  · rw [hentry m hm, ha.entries m hm hmp]
  · rw [hinode m hmn, ha.records m hmn hmp]
  · rw [W.insertEntry_mode, ha.kind m hmn]
  · rw [hinode p hpn, ha.size]
  · rw [hinode p hpn]
    exact ha.first h0

lemma MadeDir.added (h : Layout V.mount) (ho : V.Owned) (hp : V.LiveDir p)
    (hname : ProperName name) (hrecord : ∀ n z, V.NewChild p name true n z → (record z).OnlyZone z)
    (hm : MadeDir V p name record (some n) V') : V.Added V' p name n := by
  cases hm with
  | @made _ k y k' y' grown grown' W hW hslot hfirst hslot' hfirst' =>
    have ha := hW.added h ho hp hname hrecord
    have hl : Layout W.mount := by rw [hW.mount]; exact h
    have hoW : W.Owned := hW.owned h ho hp.alloc hrecord
    have hn : W.Alloc n := ⟨hW.isInode, by rw [ha.imap, update_self]⟩
    exact (ha.inside hp.alloc hoW hn hslot).inside hp.alloc (.insertEntry hl hoW hn hslot) hn hslot'

/-! ## Cached indexes and a child of the root -/

lemma Inode.isSymlink_of_isDir {i : Inode} (h : i.isDir = true) : i.isSymlink = false := by
  rw [isDir, beq_iff_eq] at h
  rw [isSymlink, h]
  decide

lemma Disk.cacheIndex_self {c : DirIndexCache} (hc : c.WellFormed) (n : Nat) :
    ∃ e, (D.cacheIndex c n).map n = some e := by
  rw [cacheIndex]
  cases hn : c.map n with
  | some e => exact ⟨e, hn⟩
  | none => exact ⟨_, Fifo.insert_self_of_none hc (by decide) hn⟩

lemma Disk.cacheIndex_keep {c : DirIndexCache} {n : Nat} (hmn : m ≠ n)
    (hc : c.order.length < dirIndexCacheCapacity) : (D.cacheIndex c n).map m = c.map m := by
  rw [cacheIndex]
  cases c.map n with
  | some e => rfl
  | none =>
    simp only
    rw [Fifo.insert_map_of_lt hc, update_of_ne hmn]

lemma Disk.cacheIndex_order (D : Disk) (c : DirIndexCache) (n : Nat) :
    (D.cacheIndex c n).order.length ≤ c.order.length + 1 := by
  rw [cacheIndex]
  cases c.map n with
  | some e => exact Nat.le_succ _
  | none => exact Fifo.insert_order_length ..

lemma Volume.Tidy.index_entry (ht : V.Tidy) (hp : V.LiveDir p) (hj : j < 192)
    (he : V.entryOf p j = some (name, c)) : (V.index p).names name = some c := by
  rw [ht.index_names hp.alloc]
  exact (ht.unique p hp).names_eq_some.mpr ⟨j, hj, he⟩

lemma Volume.Tidy.findEntry (ht : V.Tidy) (hp : V.LiveDir p) (hj : j < 192)
    (he : V.entryOf p j = some (name, c)) (h0 : (V.inode p).directSlotGet 0 ≠ 0) :
    V.findEntry V.dirs p name = (some c, V.cacheIndex V.dirs p) := by
  rw [Disk.findEntry, if_neg h0]
  have hname := (ht.looked (.indexed hp.alloc.1)).index_entry hp hj he
  obtain ⟨e, hcache⟩ := cacheIndex_self (D := V.toDisk) ht.dirs p
  have hindex : (V.indexed p).index p = e := by
    rw [index, show (V.indexed p).dirs = V.cacheIndex V.dirs p from rfl, hcache]
    rfl
  rw [hindex] at hname
  rw [lookup, hcache, Option.bind_some, hname]

lemma Volume.Tidy.resolve_child (ht : V.Tidy) (h1 : V.LiveDir 1) (hj : j < 192)
    (he : V.entryOf 1 j = some (name, c)) (h0 : (V.inode 1).directSlotGet 0 ≠ 0)
    (hcomp : components (slash :: name) = [name]) (hpath : V.paths.map (slash :: name) = none)
    (hc : V.IsInode c) (hlink : (V.inode c).isSymlink = false) :
    V.resolve (slash :: name) = (.ok c, { V with
      dirs := V.cacheIndex V.dirs 1
      paths := V.paths.insertNew pathLookupCacheCapacity (slash :: name) c }) := by
  have hcanon : canonical (slash :: name) = slash :: name := if_pos rfl
  have hroot : slash :: name ≠ rootPath := by
    intro h
    rw [h] at hcomp
    cases hcomp
  have hwalk : V.walk maxSymlinks [name] 1 V.dirs = (.ok c, V.cacheIndex V.dirs 1) := by
    rw [maxSymlinks, Disk.walk, Disk.walkComponents, if_pos h1.alloc.1, ht.findEntry h1 hj he h0]
    simp only
    rw [if_pos hc, if_neg (by rw [hlink]; exact Bool.false_ne_true), Disk.walkComponents]
  rw [Volume.resolve, if_neg (List.cons_ne_nil _ _), if_neg hroot, hcanon, hpath, hcomp]
  simp only
  rw [hwalk]

/-! ## Creations that succeed -/

/-- What a creation in `p` uses up, and what it leaves cached. -/
structure Volume.Spent (V V' : Volume) (p n : Nat) : Prop where
  zones : V.freeZones.card ≤ V'.freeZones.card + 4
  blocks : (V.inode p).unusedBlocks.card ≤ (V'.inode p).unusedBlocks.card + 1
  order : V'.dirs.order.length ≤ V.dirs.order.length + 1
  parent : V.dirs.WellFormed → ∃ e, V'.dirs.map p = some e
  dirs : V.dirs.order.length < dirIndexCacheCapacity → ∀ m, m ≠ p → m ≠ n →
    V'.dirs.map m = V.dirs.map m

lemma Made.dirs_map (hm : Made V p name zoned record (some n) V') :
    ∃ hint, ∀ m, V'.dirs.map m = if m = p then ((V.cacheIndex V.dirs p).map p).map fun e =>
        ⟨update e.names name (some n), hint⟩
      else (V.cacheIndex V.dirs p).map m := by
  cases hm with
  | @made _ z k y grown hnew hslot hfirst =>
    exact ⟨min (k + 1) 192, fun m => updateAfterInsert_map ..⟩

lemma Made.dirs_keep (hm : Made V p name zoned record (some n) V')
    (hlt : V.dirs.order.length < dirIndexCacheCapacity) (hmp : m ≠ p) :
    V'.dirs.map m = V.dirs.map m := by
  obtain ⟨hint, hmap⟩ := hm.dirs_map
  rw [hmap, if_neg hmp, cacheIndex_keep hmp hlt]

lemma Made.spent (h : Layout V.mount) (hp : V.Alloc p)
    (hm : Made V p name zoned record (some n) V') : V.Spent V' p n := by
  have hz := hm.freeZones
  have hb := hm.blocks h hp
  refine ⟨by omega, hb, ?_, fun hw => ?_, fun hlt m hmp _ => hm.dirs_keep hlt hmp⟩
  · cases hm with
    | made hnew hslot hfirst => exact V.cacheIndex_order V.dirs p
  · obtain ⟨hint, hmap⟩ := hm.dirs_map
    obtain ⟨e, he⟩ := cacheIndex_self (D := V.toDisk) hw p
    rw [hmap, if_pos rfl, he]
    exact ⟨_, rfl⟩

lemma MadeDir.spent (h : Layout V.mount) (hp : V.Alloc p)
    (hrecord : ∀ n z, V.NewChild p name true n z → (record z).OnlyZone z)
    (hm : MadeDir V p name record (some n) V') : V.Spent V' p n := by
  obtain ⟨-, hb, hz⟩ := hm.blocks h hp hrecord
  cases hm with
  | @made _ k y k' y' grown grown' W hW hslot hfirst hslot' hfirst' =>
    have hs := hW.spent h hp
    obtain ⟨z, -, hnew⟩ := hW.record_eq hp
    have hmap : ∀ m, m ≠ n → ((W.insertEntry n k y grown dotName n).insertEntry n k' y' grown'
        dotDotName p).dirs.map m = W.dirs.map m := by
      intro m hmn
      refine (updateAfterInsert_map ..).trans ?_
      rw [if_neg hmn]
      exact (updateAfterInsert_map ..).trans (if_neg hmn)
    refine ⟨hz, hb, hs.order, fun hw => ?_, fun hlt m hmp hmn => ?_⟩
    · rw [hmap p (hnew.ne_parent hp).symm]
      exact hs.parent hw
    · rw [hmap m hmn, hs.dirs hlt m hmp hmn]

lemma Volume.Tidy.newChild_lt (ht : V.Tidy) {z : Nat} (hnew : V.NewChild p name true n z) :
    z < 2 ^ 32 := by
  have hz : V.FirstFreeZone z := by simpa using hnew.zone
  exact zone_lt ht.layout hz.isData

lemma Volume.Tidy.createFile {env : Inode.Env} {mode : UInt16} (ht : V.Tidy)
    (hcan : V.CanCreate p name) (hroom : V.RoomFor p name) :
    Spec (createFileWithMode env p name mode) (fun r V' => ∃ n, r = .ok n ∧ V'.Tidy ∧
      V.Added V' p name n ∧ V.Spent V' p n ∧ (V'.inode n).isDir = false) V := by
  have hrecord : ∀ n z, V.NewChild p name true n z →
      (fileRecord env mode (V.inode p) z).OnlyZone z := fun n z hnew =>
    fileRecord_onlyZone (ht.newChild_lt hnew)
  refine spec_createFileWithMode ht.layout ht.owned.inRange fun r V' hm => ?_
  obtain ⟨n, hn⟩ := hm.success hroom
  have hr : r = .ok n := by
    cases r with
    | ok a => exact congrArg Except.ok (Option.some.inj hn)
    | error e => cases hn
  rw [hn] at hm
  obtain ⟨z, hrec, -⟩ := hm.record_eq hroom.parent
  refine ⟨n, hr, hm.tidy ht hcan hrecord fun z hd => ?_,
    hm.added ht.layout ht.owned hcan.parent hcan.name hrecord, hm.spent ht.layout hroom.parent, ?_⟩
  · rw [(fileRecord_type env mode (V.inode p) z).1] at hd
    cases hd
  · rw [hrec, (fileRecord_type env mode (V.inode p) z).1]

lemma Volume.Tidy.createDir {env : Inode.Env} {mode : UInt16} (ht : V.Tidy)
    (hcan : V.CanCreate p name) (hroom : V.RoomFor p name) :
    Spec (createDirWithMode env p name mode) (fun r V' => ∃ n k, r = .ok n ∧ V'.DotDir n p k ∧
      V.Added V' p name n ∧ V.Spent V' p n ∧ 3 ≤ (V'.inode n).unusedBlocks.card) V := by
  have hrecord : ∀ n z, V.NewChild p name true n z →
      (dirRecord env mode (V.inode p) z).OnlyZone z := fun n z hnew =>
    dirRecord_onlyZone (ht.newChild_lt hnew)
  refine spec_createDirWithMode ht.layout ht.owned.inRange fun r V' hm => ?_
  obtain ⟨n, hn⟩ := hm.success ht.layout hroom.parent hrecord hroom
  have hr : r = .ok n := by
    cases r with
    | ok a => exact congrArg Except.ok (Option.some.inj hn)
    | error e => cases hn
  rw [hn] at hm
  obtain ⟨k, hdot⟩ := hm.dotDir ht hcan hrecord (dirRecord_size env mode (V.inode p))
    (dirRecord_isDir env mode (V.inode p))
  exact ⟨n, k, hr, hdot, hm.added ht.layout ht.owned hcan.parent hcan.name hrecord,
    hm.spent ht.layout hroom.parent hrecord, (hm.blocks ht.layout hroom.parent hrecord).1⟩

lemma Disk.FirstFreeInode.unique (hn : D.FirstFreeInode n) (hm : D.FirstFreeInode m) : n = m := by
  rcases Nat.lt_trichotomy n m with hlt | heq | hgt
  · have hused := hm.least n hn.isInode hlt
    rw [hn.free] at hused
    cases hused
  · exact heq
  · have hused := hn.least m hm.isInode hgt
    rw [hm.free] at hused
    cases hused

lemma Disk.FirstFreeZone.unique (hn : D.FirstFreeZone n) (hm : D.FirstFreeZone m) : n = m := by
  rcases Nat.lt_trichotomy n m with hlt | heq | hgt
  · have hused := hm.least n hn.isData hlt
    rw [hn.free] at hused
    cases hused
  · exact heq
  · have hused := hn.least m hm.isData hgt
    rw [hm.free] at hused
    cases hused

lemma Disk.firstFreeInode_of {n : Nat} (hn : D.IsInode n)
    (hused : ∀ m, D.imap m = true ↔ 1 ≤ m ∧ m < n) : D.FirstFreeInode n := by
  refine ⟨hn, ?_, fun m hm hlt => (hused m).mpr ⟨hm.1, hlt⟩⟩
  have := hused n
  simpa using this

lemma Volume.canCreate_of (hp : V.LiveDir p) (hname : ProperName name)
    (hn : V.FirstFreeInode n) (hcache : V.dirs.map n = none) (hzones : 0 < V.freeZones.card) :
    V.CanCreate p name :=
  ⟨hp, hname, fun m hm => by rw [hm.unique hn]; exact hcache,
    fun _ _ => V.not_full_of_freeZones hzones⟩

lemma Volume.Tidy.roomFor (ht : V.Tidy) (hp : V.LiveDir p) (hshort : name.length ≤ 60)
    (habsent : ∀ j c, V.entryOf p j ≠ some (name, c)) (hn : V.FirstFreeInode n)
    (hzones : 4 ≤ V.freeZones.card) (hblocks : 0 < (V.inode p).unusedBlocks.card) :
    V.RoomFor p name := by
  refine ⟨hp.alloc, hshort, ?_, ⟨n, hn⟩, hzones, hblocks⟩
  rw [ht.index_names hp.alloc]
  exact names_eq_none.mpr fun c ⟨j, _, he⟩ => habsent j c he

lemma Volume.Added.liveDir (ha : V.Added V' p name n) (hm : V.LiveDir m)
    (hsize : (V.inode p).size + 64 ≠ 0) : V'.LiveDir m := by
  have hmn : m ≠ n := by
    rintro rfl
    have hfree := ha.number.free
    rw [hm.alloc.2] at hfree
    cases hfree
  refine ⟨⟨?_, ?_⟩, ?_, ?_⟩
  · rw [Disk.IsInode, sb, ha.mount]
    exact hm.alloc.1
  · rw [ha.imap, update_of_ne hmn]
    exact hm.alloc.2
  · rw [isDir, ha.kind m hmn]
    exact hm.isDir
  · by_cases hmp : m = p
    · rw [hmp, ha.size]
      exact hsize
    · rw [ha.records m hmn hmp]
      exact hm.size

/-! ## Removals that succeed -/

lemma Volume.freeZones_removed (V : Volume) (p k : Nat) (name path : Str) :
    V.freeZones.card ≤ (V.removed p k name path).freeZones.card := by
  apply Finset.card_le_card
  intro z hz
  rw [mem_freeZones] at hz ⊢
  refine ⟨hz.1, ?_⟩
  show (if z ∈ (V.inode (V.childAt p k)).directZones then false else V.zmap z) = false
  rw [hz.2, ite_self]

lemma Volume.unusedBlocks_removed (V : Volume) (p k : Nat) (name path : Str) (n : Nat) :
    ((V.removed p k name path).inode n).unusedBlocks = (V.inode n).unusedBlocks := by
  rw [unusedBlocks, unusedBlocks]
  simp only [removed_directSlotGet]

lemma Volume.Tidy.firstMatch (ht : V.Tidy) (hp : V.LiveDir p) (hk : k < 192)
    (he : V.entryOf p k = some (name, c)) (hname : name ≠ []) :
    V.FirstMatch (V.inode p) name k ∧ V.childAt p k = c := by
  have hc : V.childAt p k = c := (entry_eq_some.mp he).2.2.1
  refine ⟨⟨hk, ?_, fun j hj hmatch => ?_⟩, hc⟩
  · rw [matches_iff hname]
    exact he.trans (by rw [← hc]; rfl)
  · rw [matches_iff hname] at hmatch
    have := ht.unique p hp j (by omega) k hk name _ _ hmatch he
    omega

lemma Volume.Tidy.remove (ht : V.Tidy) (path : Str)
    (hlast : (components path).getLast? = some name)
    (hres : V.resolveParent (components path).dropLast = (.ok p, W)) (hp : V.LiveDir p)
    (hk : k < 192) (he : V.entryOf p k = some (name, c)) (hc : V.Alloc c) :
    Spec (removeEntry path) (fun r V' => r = .ok () ∧ V'.Tidy ∧ V' = W.removed p k name
      (joinParentAndName (slash :: joinSlash (components path).dropLast) name)) V := by
  have hl := Volume.Looked.resolveParent V (components path).dropLast
  rw [hres] at hl
  have hne : name ≠ [] := (isComponent_of_mem (List.mem_of_getLast? hlast)).ne_nil
  have htW := ht.looked hl
  obtain ⟨hmatch, hchild⟩ := ht.firstMatch hp hk he hne
  rw [← hl.disk] at hmatch hchild hp hc
  refine spec_removeEntry ht.layout ht.owned.inRange (fun h => ?_) (fun e _ h => ?_) ?_
  · rw [hlast] at h
    cases h
  · rw [hres] at h
    cases h
  intro name' p' W' hlast' hres'
  obtain rfl : name = name' := Option.some.inj (hlast.symm.trans hlast')
  obtain ⟨hp', hW'⟩ := Prod.mk.inj (hres.symm.trans hres')
  obtain rfl : p = p' := Except.ok.inj hp'
  subst hW'
  -- the first match is the entry
  have hfirst : ∀ j, W.FirstMatch (W.inode p) name j → j = k := by
    intro j hj
    by_contra hjk
    rcases Nat.lt_or_gt_of_ne hjk with hlt | hgt
    · exact hmatch.first j hlt hj.here
    · exact hj.first k hgt hmatch.here
  refine ⟨fun h => absurd hp.alloc.1 h, fun _ h => absurd hmatch.here (h k hk),
    fun j _ hj hbad => ?_, fun j _ hj _ => ?_⟩
  · rw [hfirst j hj, hchild] at hbad
    exact absurd hc.1 hbad
  · rw [hfirst j hj]
    exact ⟨rfl, htW.removed hp hne hmatch (by rw [hchild]; exact hc), rfl⟩

end Twilight.Fs

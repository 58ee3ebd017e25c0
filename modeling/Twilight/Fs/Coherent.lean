/-
The cached directory indexes agree with the disk.

`Volume.Tidy` collects what the namespace operations keep when they work on live
directories: zones have one owner, names are unique, and a cached index has the
names that are on the disk.  A run of such operations ends in a tidy volume.  The
one thing that breaks it is an index that outlives its directory: `remove_entry`
leaves the index of a removed directory in the cache, and the next inode to get
that number inherits it.
-/
import Twilight.Fs.Space

namespace Twilight.Fs

open TwilightFs Option Disk DirIndexCache Inode Volume DirEntry Disk.UniqueNames
open Function (update_self update_of_ne)

variable {V : Volume}

structure Disk.LiveDir (D : Disk) (n : Nat) : Prop where
  alloc : D.Alloc n
  isDir : (D.inode n).isDir = true
  size : (D.inode n).size ≠ 0

structure Volume.Tidy (V : Volume) : Prop where
  layout : Layout V.mount
  owned : V.Owned
  unique : ∀ n, V.LiveDir n → V.UniqueNames (V.inode n)
  coherent : ∀ n e, V.Alloc n → V.dirs.map n = some e → e.names = (V.indexOf (V.inode n)).names
  dirs : V.dirs.WellFormed
  paths : V.paths.WellFormed

namespace Volume.Tidy

lemma index_names (ht : V.Tidy) {n : Nat} (hn : V.Alloc n) :
    (V.index n).names = (V.indexOf (V.inode n)).names := by
  rw [index]
  cases hc : V.dirs.map n with
  | none => rw [getD_none]
  | some e => rw [getD_some, ht.coherent n e hn hc]

lemma looked (ht : V.Tidy) {W : Volume} (hl : V.Looked W) : W.Tidy := by
  refine ⟨by rw [hl.disk]; exact ht.layout, by rw [hl.disk]; exact ht.owned,
    by rw [hl.disk]; exact ht.unique, ?_, hl.dirs.wellFormed ht.dirs, hl.paths ht.paths⟩
  intro n e hn he
  rw [hl.disk] at hn ⊢
  rcases hl.dirs.entries n e he with hc | ⟨-, rfl⟩
  · exact ht.coherent n e hn hc
  · rfl

/-! ## A new inode -/

lemma newInode (ht : V.Tidy) {n z : Nat} {i : Inode} (hi : i.OnlyZone z)
    (hn : V.imap n = false) (hz : z ≠ 0 → V.IsData z ∧ V.zmap z = false)
    (hcache : V.dirs.map n = none) (hsize : i.isDir = true → i.size = 0) :
    (V.newInode n z i).Tidy := by
  have halloc : ∀ m, (V.newInode n z i).Alloc m → m ≠ n → V.Alloc m := by
    intro m hm hmn
    exact ⟨hm.1, by simpa [Volume.newInode, hmn] using hm.2⟩
  have hinode : ∀ m, m ≠ n → (V.newInode n z i).inode m = V.inode m := fun m hmn =>
    update_of_ne hmn _ _
  have hself : (V.newInode n z i).inode n = i := update_self ..
  have hentry : ∀ m, m ≠ n → ∀ k, (V.newInode n z i).entry ((V.newInode n z i).inode m) k
      = V.entry (V.inode m) k := by
    intro m hmn k
    rw [hinode m hmn]
    rfl
  refine ⟨ht.layout, ht.owned.newInode hi hn hz, fun m hm => ?_, fun m e hm he => ?_,
    ht.dirs, ht.paths⟩
  · by_cases hmn : m = n
    · have hd := hm.isDir
      have hs := hm.size
      rw [hmn, hself] at hd hs
      exact absurd (hsize hd) hs
    · refine congr (ht.unique m ⟨halloc m hm.alloc hmn, ?_, ?_⟩) fun k _ => hentry m hmn k
      · rw [← hinode m hmn]
        exact hm.isDir
      · rw [← hinode m hmn]
        exact hm.size
  · by_cases hmn : m = n
    · rw [hmn] at he
      exact absurd (hcache.symm.trans he) (by simp)
    · rw [ht.coherent m e (halloc m hm hmn) he]
      exact (names_congr fun k _ => hentry m hmn k).symm

/-! ## Entries -/

lemma update (ht : V.Tidy) {V' : Volume} {p : Nat} (hmount : V'.mount = V.mount)
    (howned : V'.Owned) (halloc : ∀ n, V'.Alloc n → V.Alloc n)
    (hother : ∀ n, V.Alloc n → n ≠ p → V'.inode n = V.inode n ∧
      (∀ k < 192, V'.entryOf n k = V.entryOf n k) ∧ V'.dirs.map n = V.dirs.map n)
    (hunique : V'.LiveDir p → V'.UniqueNames (V'.inode p))
    (hcoherent : V'.Alloc p → ∀ e, V'.dirs.map p = some e →
      e.names = (V'.indexOf (V'.inode p)).names)
    (hdirs : V'.dirs.WellFormed) (hpaths : V'.paths.WellFormed) : V'.Tidy := by
  refine ⟨by rw [hmount]; exact ht.layout, howned, fun n hn => ?_, fun n e hn he => ?_, hdirs,
    hpaths⟩
  · by_cases hnp : n = p
    · subst hnp
      exact hunique hn
    obtain ⟨hi, hentry, -⟩ := hother n (halloc n hn.alloc) hnp
    refine congr (ht.unique n ⟨halloc n hn.alloc, ?_, ?_⟩) hentry
    · rw [← hi]
      exact hn.isDir
    · rw [← hi]
      exact hn.size
  · by_cases hnp : n = p
    · subst hnp
      exact hcoherent hn e he
    · obtain ⟨-, hentry, hmap⟩ := hother n (halloc n hn) hnp
      rw [hmap] at he
      rw [ht.coherent n e (halloc n hn) he]
      exact (names_congr hentry).symm

end Volume.Tidy

lemma DirIndexCache.updateAfterInsert_map (c : DirIndexCache) (p n : Nat) (name : Str)
    (ino hint : Nat) : (updateAfterInsert c p name ino hint).map n = if n = p then
      (c.map p).map fun e => ⟨Function.update e.names name (some ino), hint⟩ else c.map n :=
  Fifo.adjust_map ..

lemma DirIndexCache.removeName_map (c : DirIndexCache) (p n : Nat) (name : Str) :
    (removeName c p name).map n = if n = p then
      (c.map p).map fun e => ⟨Function.update e.names name none, 0⟩ else c.map n :=
  Fifo.adjust_map ..

namespace Volume.Tidy

lemma insertEntry (ht : V.Tidy) {p k z child : Nat} {grown : Bool} {name : Str}
    (hp : V.LiveDir p) (hslot : V.FreeSlot p k z grown) (hname : IsName name)
    (habsent : (V.indexOf (V.inode p)).names name = none) (hc : child ≠ 0)
    (hc' : child < 2 ^ 32) : (V.insertEntry p k z grown name child).Tidy := by
  have hset : (V.insertEntry p k z grown name child).entryOf p k = some (name, child) := by
    rw [V.entryOf_insertEntry ht.layout ht.owned hp.alloc hslot hname hc hc', if_pos rfl]
  have hkeep : ∀ j < 192, j ≠ k →
      (V.insertEntry p k z grown name child).entryOf p j = V.entryOf p j := fun j _ hjk =>
    V.entryOf_insertEntry_of_ne ht.layout ht.owned hp.alloc hslot hname hc hc' hp.size hjk
  have hu : (V.insertEntry p k z grown name child).UniqueNames
      ((V.insertEntry p k z grown name child).inode p) := by
    refine (ht.unique p hp).set hkeep hset fun j hj _ a he => ?_
    exact names_eq_none.mp habsent a ⟨j, hj, he⟩
  refine ht.update (p := p) rfl (ht.owned.insertEntry ht.layout hp.alloc hslot) (fun n hn => hn)
    (fun n hn hnp => ⟨update_of_ne hnp _ _, fun j _ =>
      V.entryOf_insertEntry_other ht.owned hp.alloc hn hnp hslot j, ?_⟩) (fun _ => hu) ?_
    (ht.dirs.adjust _ _) ht.paths
  · exact (updateAfterInsert_map ..).trans (if_neg hnp)
  intro _ e he
  have hmap : (V.insertEntry p k z grown name child).dirs.map p
      = (V.dirs.map p).map fun e => ⟨Function.update e.names name (some child),
          min (k + 1) 192⟩ :=
    (updateAfterInsert_map ..).trans (if_pos rfl)
  rw [hmap, map_eq_some_iff] at he
  obtain ⟨e', he', rfl⟩ := he
  rw [(ht.unique p hp).names_insert hslot.lt hkeep hu (hslot.entryOf_none hp.size) hset,
    ht.coherent p e' hp.alloc he']

end Volume.Tidy

variable (D : Disk)

lemma Disk.slotInode_isDir (p k z : Nat) (grown : Bool) :
    (D.slotInode p k z grown).isDir = (D.inode p).isDir := by
  rw [slotInode]
  split
  · rw [isDir, directSlotSet_mode, isDir]
  · rfl

lemma Disk.slotInode_size (p k z : Nat) (grown : Bool) :
    (D.slotInode p k z grown).size = (D.inode p).size := by
  rw [slotInode]
  split
  · exact directSlotSet_size ..
  · rfl

lemma Volume.insertEntry_record (V : Volume) (p k z : Nat) (grown : Bool) (name : Str)
    (child : Nat) :
    ((V.insertEntry p k z grown name child).inode p).isDir = (V.inode p).isDir ∧
      ((V.insertEntry p k z grown name child).inode p).size = (V.inode p).size + 64 := by
  rw [insertEntry_self, withSize_isDir, withSize_size, slotInode_isDir, slotInode_size]
  exact ⟨rfl, rfl⟩

structure Volume.BareDir (V : Volume) (n : Nat) : Prop where
  alloc : V.Alloc n
  isDir : (V.inode n).isDir = true
  size : (V.inode n).size = 0
  zones : ∀ b, b ≠ 0 → (V.inode n).directSlotGet b = 0

variable {n k y p : Nat} {grown : Bool} {name path oldPath newPath : Str}

lemma Volume.BareDir.slot_zero (hb : V.BareDir n) (hstart : V.startSlot n = 0)
    (hfirst : V.FirstTried n k) : k = 0 := by
  by_contra hk
  have htaken := hfirst (by omega) (by omega)
  exact htaken.started ⟨by rw [hstart], hb.size⟩

lemma Volume.BareDir.entryOf (h : Layout V.mount) (ho : V.Owned) {child : Nat}
    (hb : V.BareDir n) (hslot : V.FreeSlot n 0 y grown)
    (hname : IsName name) (hc : child ≠ 0) (hc' : child < 2 ^ 32) (j : Nat) :
    (V.insertEntry n 0 y grown name child).entryOf n j
      = if j = 0 then some (name, child) else none := by
  rw [V.entryOf_insertEntry h ho hb.alloc hslot hname hc hc']
  by_cases hj : j = 0
  · rw [if_pos hj, if_pos hj]
  rw [if_neg hj, if_neg hj]
  split
  · rfl
  · next hout =>
    have hblock : j / 32 ≠ 0 := fun hj0 => hout ⟨hj0, .inr ⟨rfl, hb.size⟩⟩
    simp [Disk.entryOf, Disk.entry, Disk.slot, hb.zones _ hblock]

namespace Volume.Tidy

lemma firstEntry (ht : V.Tidy) {n y child : Nat} {grown : Bool} {name : Str}
    (hb : V.BareDir n) (hcache : V.dirs.map n = none) (hslot : V.FreeSlot n 0 y grown)
    (hname : IsName name) (hc : child ≠ 0) (hc' : child < 2 ^ 32) :
    (V.insertEntry n 0 y grown name child).Tidy := by
  have hmap : (V.insertEntry n 0 y grown name child).dirs.map n = none := by
    refine (updateAfterInsert_map ..).trans ?_
    rw [if_pos rfl, hcache]
    rfl
  refine ht.update (p := n) rfl (ht.owned.insertEntry ht.layout hb.alloc hslot) (fun m hm => hm)
    (fun m hm hmn => ⟨update_of_ne hmn _ _, fun j _ =>
      V.entryOf_insertEntry_other ht.owned hb.alloc hm hmn hslot j, ?_⟩) (fun _ => ?_) ?_
    (ht.dirs.adjust _ _) ht.paths
  · exact (updateAfterInsert_map ..).trans (if_neg hmn)
  · intro a ha b hb' s x y' hax hby
    have hentry := hb.entryOf ht.layout ht.owned hslot hname hc hc'
    have hzero : ∀ j p, (V.insertEntry n 0 y grown name child).entryOf n j = some p → j = 0 := by
      intro j p hp
      by_contra hj
      rw [hentry j, if_neg hj] at hp
      cases hp
    rw [hzero a _ hax, hzero b _ hby]
  · intro _ e he
    rw [hmap] at he
    cases he

end Volume.Tidy

/-! ## Creating -/

lemma isName_dot : IsName dotName := ⟨by decide, by decide, by decide, by decide⟩
lemma isName_dotDot : IsName dotDotName := ⟨by decide, by decide, by decide, by decide⟩

/-- A name as the callers pass it: text without a NUL at its end. -/
structure ProperName (name : Str) : Prop where
  ne_nil : name ≠ []
  utf8 : Str.utf8Valid name = true
  noNul : Str.NoTrailingNul name

lemma ProperName.isName (h : ProperName name) (hs : name.length ≤ 60) :
    IsName name := ⟨h.ne_nil, hs, h.utf8, h.noNul⟩

def Volume.CleanNumber (V : Volume) : Prop := ∀ n, V.FirstFreeInode n → V.dirs.map n = none

def Disk.ZoneForInode : Prop := ∀ n, D.FirstFreeInode n → ¬ D.Full

structure Volume.CanCreate (V : Volume) (p : Nat) (name : Str) : Prop where
  parent : V.LiveDir p
  name : ProperName name
  number : V.CleanNumber
  zone : V.ZoneForInode

lemma Disk.cacheIndex_map_of_ne {D : Disk} {c : DirIndexCache} (hnp : n ≠ p)
    (hc : c.map n = none) : (D.cacheIndex c p).map n = none := by
  rw [cacheIndex]
  cases hp : c.map p with
  | some e => exact hc
  | none =>
    cases hn : (c.insert dirIndexCacheCapacity p (D.indexOf (D.inode p))).map n with
    | none => rfl
    | some e =>
      rcases Fifo.insert_map_sub hn with ⟨rfl, -⟩ | ⟨-, hn'⟩
      · exact absurd rfl hnp
      · rw [hc] at hn'
        cases hn'

lemma Volume.NewChild.number {z : Nat} {zoned : Bool} (h : Layout V.mount)
    (hnew : V.NewChild p name zoned n z) : n ≠ 0 ∧ n < 2 ^ 32 := by
  have h1 := hnew.inode.isInode.1
  have h2 : n ≤ V.mount.sb.ninodes := hnew.inode.isInode.2
  have h3 := h.inodes
  omega

section Create

variable {p : Nat} {name : Str} {zoned : Bool} {record : Nat → Inode}
  (ht : V.Tidy) (hcan : V.CanCreate p name)
  (hrecord : ∀ n z, V.NewChild p name zoned n z → (record z).OnlyZone z)
  (hsize : ∀ z, (record z).isDir = true → (record z).size = 0)
include hcan

variable {n z : Nat} {V' : Volume}

lemma Volume.NewChild.cache (hnew : V.NewChild p name zoned n z) :
    (V.indexed p).dirs.map n = none :=
  cacheIndex_map_of_ne (hnew.ne_parent hcan.parent.alloc) (hcan.number n hnew.inode)

include ht hrecord hsize

lemma Volume.NewChild.tidy (hnew : V.NewChild p name zoned n z) :
    (V.withChild p n z (record z)).Tidy :=
  (ht.looked (.indexed hnew.parent)).newInode (hrecord n z hnew) hnew.inode.free
    (fun hz => hnew.isData hz) (hnew.cache hcan) (hsize z)

omit hrecord hsize in
lemma Volume.NewChild.parent_kept (hnew : V.NewChild p name zoned n z) :
    (V.withChild p n z (record z)).LiveDir p ∧
      ((V.withChild p n z (record z)).indexOf ((V.withChild p n z (record z)).inode p)).names
        name = none := by
  have hne : p ≠ n := (hnew.ne_parent hcan.parent.alloc).symm
  have hinode : (V.withChild p n z (record z)).inode p = V.inode p := update_of_ne hne _ _
  have himap : (V.withChild p n z (record z)).imap p = V.imap p := update_of_ne hne _ _
  refine ⟨⟨⟨hcan.parent.alloc.1, by rw [himap]; exact hcan.parent.alloc.2⟩,
    by rw [hinode]; exact hcan.parent.isDir, by rw [hinode]; exact hcan.parent.size⟩, ?_⟩
  have habsent := hnew.absent
  rw [ht.index_names hcan.parent.alloc] at habsent
  rw [← habsent]
  refine congrFun (names_congr fun k _ => ?_) name
  rw [hinode]
  rfl

lemma Made.tidy {o : Option Nat} (hm : Made V p name zoned record o V') :
    V'.Tidy := by
  cases hm with
  | refused hbad => exact ht
  | looked hp hno => exact ht.looked (.indexed hp)
  | noZone hp hn hz hfull => exact absurd hfull (hcan.zone _ hn)
  | noRoom hnew hroom => exact hnew.tidy ht hcan hrecord hsize
  | @made n z k y grown hnew hslot hfirst =>
    obtain ⟨hp, habsent⟩ : (V.withChild p n z (record z)).LiveDir p ∧ _ := hnew.parent_kept ht hcan
    obtain ⟨hn, hn'⟩ := hnew.number ht.layout
    exact (hnew.tidy ht hcan hrecord hsize).insertEntry hp hslot
      (hcan.name.isName hnew.short) habsent hn hn'

omit ht hcan in
lemma Made.bareDir (hp : V.Alloc p) (hdir : ∀ z, (record z).isDir = true)
    (hm : Made V p name zoned record (some n) V') : V'.BareDir n := by
  obtain ⟨z, hrec, hnew⟩ := hm.record_eq hp
  have hused : V'.imap n = true := by
    cases hm with
    | made hnew hslot hfirst => exact update_self ..
  refine ⟨⟨hm.isInode, hused⟩, ?_, ?_, fun b hb => ?_⟩
  · rw [hrec, hdir]
  · rw [hrec, hsize z (hdir z)]
  · rw [hrec, (hrecord n z hnew).direct, if_neg hb]

omit ht hrecord hsize in
lemma Made.cache (hm : Made V p name zoned record (some n) V') :
    V'.dirs.map n = none := by
  cases hm with
  | made hnew hslot hfirst =>
    refine (updateAfterInsert_map ..).trans ?_
    rw [if_neg (hnew.ne_parent hcan.parent.alloc)]
    exact hnew.cache hcan

end Create

structure Volume.OneEntry (V : Volume) (n : Nat) (name : Str) (child : Nat) : Prop where
  tidy : V.Tidy
  live : V.LiveDir n
  size : (V.inode n).size = 64
  entry : ∀ j, V.entryOf n j = if j = 0 then some (name, child) else none
  cache : V.dirs.map n = none

lemma Volume.BareDir.dot (hb : V.BareDir n) (ht : V.Tidy)
    (hcache : V.dirs.map n = none) (hslot : V.FreeSlot n k y grown) (hfirst : V.FirstTried n k)
    (hn : n ≠ 0) (hn' : n < 2 ^ 32) :
    (V.insertEntry n k y grown dotName n).OneEntry n dotName n := by
  have hk := hb.slot_zero (by rw [startSlot, hcache]; rfl) hfirst
  subst hk
  obtain ⟨hd, hs⟩ := V.insertEntry_record n 0 y grown dotName n
  refine ⟨ht.firstEntry hb hcache hslot isName_dot hn hn', ⟨hb.alloc, ?_, ?_⟩, ?_,
    hb.entryOf ht.layout ht.owned hslot isName_dot hn hn', ?_⟩
  · rw [hd, hb.isDir]
  · rw [hs, hb.size]
    decide
  · rw [hs, hb.size]
    rfl
  · refine (updateAfterInsert_map ..).trans ?_
    rw [if_pos rfl, hcache]
    rfl

structure Volume.DotDir (V : Volume) (n parent k : Nat) : Prop where
  tidy : V.Tidy
  live : V.LiveDir n
  size : (V.inode n).size = 128
  pos : 0 < k
  lt : k < 192
  entry : ∀ j, V.entryOf n j = if j = 0 then some (dotName, n)
    else if j = k then some (dotDotName, parent) else none
  cache : V.dirs.map n = none

lemma Volume.OneEntry.dotDot {parent : Nat}
    (ho : V.OneEntry n dotName n) (hslot : V.FreeSlot n k y grown) (hp : parent ≠ 0)
    (hp' : parent < 2 ^ 32) : (V.insertEntry n k y grown dotDotName parent).DotDir n parent k := by
  have ht := ho.tidy
  obtain ⟨hd, hs⟩ := V.insertEntry_record n k y grown dotDotName parent
  have habsent : (V.indexOf (V.inode n)).names dotDotName = none := by
    apply names_eq_none.mpr
    rintro a ⟨j, -, hj⟩
    have hentry := ho.entry j
    rw [Disk.entryOf, hj] at hentry
    split at hentry
    · cases hentry
    · cases hentry
  have hk : k ≠ 0 := by
    rintro rfl
    have hfree := hslot.entryOf_none ho.live.size
    rw [ho.entry, if_pos rfl] at hfree
    cases hfree
  refine ⟨ht.insertEntry ho.live hslot isName_dotDot habsent hp hp', ⟨ho.live.alloc, ?_, ?_⟩, ?_,
    Nat.pos_of_ne_zero hk, hslot.lt, fun j => ?_, ?_⟩
  · rw [hd, ho.live.isDir]
  · rw [hs, ho.size]
    decide
  · rw [hs, ho.size]
    rfl
  · by_cases hjk : j = k
    · rw [hjk, if_neg hk, if_pos rfl, V.entryOf_insertEntry ht.layout ht.owned ho.live.alloc hslot
        isName_dotDot hp hp', if_pos rfl]
    · rw [V.entryOf_insertEntry_of_ne ht.layout ht.owned ho.live.alloc hslot isName_dotDot hp hp'
        ho.live.size hjk, ho.entry, if_neg hjk]
  · refine (updateAfterInsert_map ..).trans ?_
    rw [if_pos rfl, ho.cache]
    rfl

lemma Disk.Alloc.number {D : Disk} (h : Layout D.mount) (hn : D.Alloc n) :
    n ≠ 0 ∧ n < 2 ^ 32 := by
  have h1 := hn.1.1
  have h2 : n ≤ D.mount.sb.ninodes := hn.1.2
  have h3 := h.inodes
  omega

section CreateDir

variable {p : Nat} {name : Str} {record : Nat → Inode} (ht : V.Tidy) (hcan : V.CanCreate p name)
  (hrecord : ∀ n z, V.NewChild p name true n z → (record z).OnlyZone z)
  (hsize : ∀ z, (record z).size = 0) (hdir : ∀ z, (record z).isDir = true)
include ht hcan hrecord hsize hdir

lemma Made.dot {n k y : Nat} {grown : Bool} {W : Volume}
    (hW : Made V p name true record (some n) W) (hslot : W.FreeSlot n k y grown)
    (hfirst : W.FirstTried n k) :
    (W.insertEntry n k y grown dotName n).OneEntry n dotName n := by
  have hsize' : ∀ z, (record z).isDir = true → (record z).size = 0 := fun z _ => hsize z
  have hbare := hW.bareDir hrecord hsize' hcan.parent.alloc hdir
  have htW := hW.tidy ht hcan hrecord hsize'
  obtain ⟨hn, hn'⟩ := Disk.Alloc.number htW.layout hbare.alloc
  exact hbare.dot htW (hW.cache hcan) hslot hfirst hn hn'

lemma MadeDir.dotDir {n : Nat} {V' : Volume} (hm : MadeDir V p name record (some n) V') :
    ∃ k, V'.DotDir n p k := by
  cases hm with
  | made hW hslot hfirst hslot' hfirst' =>
    obtain ⟨hp, hp'⟩ := Disk.Alloc.number ht.layout hcan.parent.alloc
    exact ⟨_, (hW.dot ht hcan hrecord hsize hdir hslot hfirst).dotDot hslot' hp hp'⟩

lemma MadeDir.tidy {o : Option Nat} {V' : Volume} (hm : MadeDir V p name record o V') :
    V'.Tidy := by
  have hsize' : ∀ z, (record z).isDir = true → (record z).size = 0 := fun z _ => hsize z
  cases o with
  | some n => exact (hm.dotDir ht hcan hrecord hsize hdir).elim fun _ hd => hd.tidy
  | none =>
    cases hm with
    | failed hW => exact hW.tidy ht hcan hrecord hsize'
    | noDot hW hroom => exact hW.tidy ht hcan hrecord hsize'
    | noDotDot hW hslot hfirst hroom =>
      exact (hW.dot ht hcan hrecord hsize hdir hslot hfirst).tidy

end CreateDir

/-! ## Removing and renaming -/

lemma Volume.release_clearEntry (V : Volume) (p k n : Nat) :
    ((V.release n).clearEntry p k).toDisk = ((V.clearEntry p k).release n).toDisk := by
  have hzones : ((V.clearEntry p k).inode n).directZones = (V.inode n).directZones := by
    by_cases hn : n = p
    · subst hn
      have hrec : (V.clearEntry n k).inode n = (V.inode n).dropEntry := update_self ..
      rw [hrec, directZones, directZones]
      refine congrArg (List.filter _) (List.map_congr_left fun b _ => ?_)
      exact dropEntry_directSlotGet _ b
    · have hrec : (V.clearEntry p k).inode n = V.inode n := update_of_ne hn _ _
      rw [hrec]
  unfold release
  rw [hzones]
  rfl

lemma Disk.Owned.removed (ho : V.Owned) (hp : V.Alloc p)
    (hz : (V.inode p).directSlotGet (k / 32) ≠ 0) (hc : V.Alloc (V.childAt p k)) :
    (V.removed p k name path).Owned := by
  show ((V.release (V.childAt p k)).clearEntry p k).Owned
  rw [release_clearEntry]
  exact (ho.clearEntry hp hz).releaseInode hc

lemma Disk.FirstMatch.entryOf (hk : V.FirstMatch (V.inode p) name k)
    (hname : name ≠ []) : V.entryOf p k = some (name, V.childAt p k) :=
  (matches_iff hname).mp hk.here

lemma Volume.renamed_entryOf (ho : V.Owned) {ino j : Nat}
    {oldName newName : Str} (hp : V.Alloc p) (hn : V.Alloc n)
    (hname : IsName newName) (hold : V.entryOf p k = some (oldName, ino)) :
    (V.renamed p k ino oldName newName oldPath newPath).entryOf n j
      = if n = p ∧ j = k then some (newName, ino) else V.entryOf n j := by
  obtain ⟨hz, hino, hchild, -⟩ := entry_eq_some.mp hold
  have hself : (V.renamed p k ino oldName newName oldPath newPath).block
      ((V.inode p).directSlotGet (k / 32)) = (V.block ((V.inode p).directSlotGet (k / 32))).splice
        (k % 32 * 64 + 4) 60 (nameBytes newName) := update_self ..
  by_cases hat : n = p ∧ j = k
  · obtain ⟨rfl, rfl⟩ := hat
    rw [if_pos ⟨rfl, rfl⟩]
    apply entry_eq_some.mpr
    refine ⟨hz, hino, ?_, ?_⟩
    · refine (congrArg (inodeAt · (j % 32)) hself).trans ?_
      rw [inodeAt_nameBytes, hchild]
    · refine (congrArg (fun b => decodeDirName (nameAt b (j % 32))) hself).trans ?_
      rw [nameAt_nameBytes hname.short]
      exact decodeDirName_pad hname _
  rw [if_neg hat]
  by_cases hsame : n = p ∧ j / 32 = k / 32
  · obtain ⟨rfl, hb⟩ := hsame
    refine entry_congr (i := V.inode n) rfl fun _ o h1 h2 => ?_
    rw [hb, hself]
    have hjk : j ≠ k := fun h => hat ⟨rfl, h⟩
    exact Bytes.splice_outside (by omega)
  · apply entryOf_write (z := (V.inode p).directSlotGet (k / 32))
    · intro y hy
      exact update_of_ne hy _ _
    · rfl
    · intro he
      apply ho.directSlotGet_ne hn hp _ he
      by_cases hnp : n = p
      · exact .inr fun hb => hsame ⟨hnp, hb⟩
      · exact .inl hnp

namespace Volume.Tidy

variable {p k : Nat} {name : Str}

lemma erase (ht : V.Tidy) {V' : Volume} {c : Nat} (hp : V.LiveDir p)
    (hk : k < 192) (hold : V.entryOf p k = some (name, c)) (hmount : V'.mount = V.mount)
    (howned : V'.Owned) (halloc : ∀ n, V'.Alloc n → V.Alloc n)
    (hinode : ∀ n, n ≠ p → V'.inode n = V.inode n)
    (hzones : ∀ n b, (V'.inode n).directSlotGet b = (V.inode n).directSlotGet b)
    (hblock : V'.block = Function.update V.block ((V.inode p).directSlotGet (k / 32))
      ((V.block ((V.inode p).directSlotGet (k / 32))).splice (k % 32 * 64) 64 Bytes.zero))
    (hdirs : V'.dirs = DirIndexCache.removeName V.dirs p name) (hpaths : V'.paths.WellFormed) :
    V'.Tidy := by
  have hentry : ∀ n, V.Alloc n → ∀ j, V'.entryOf n j
      = if n = p ∧ j = k then none else V.entryOf n j := fun n hn j =>
    entryOf_clear ht.owned hp.alloc hn (hzones n _) hblock
  have hkeep : ∀ j < 192, j ≠ k → V'.entryOf p j = V.entryOf p j := by
    intro j _ hjk
    rw [hentry p hp.alloc, if_neg fun h => hjk h.2]
  have herase : V'.entryOf p k = none := by
    rw [hentry p hp.alloc, if_pos ⟨rfl, rfl⟩]
  refine ht.update (p := p) hmount howned halloc
    (fun n hn hnp => ⟨hinode n hnp, fun j _ => ?_, ?_⟩)
    (fun _ => (ht.unique p hp).erase hkeep herase) (fun _ e he => ?_)
    (by rw [hdirs]; exact ht.dirs.adjust _ _) hpaths
  · rw [hentry n hn, if_neg fun h => hnp h.1]
  · rw [hdirs, removeName_map, if_neg hnp]
  · rw [hdirs, removeName_map, if_pos rfl, map_eq_some_iff] at he
    obtain ⟨e', he', rfl⟩ := he
    rw [(ht.unique p hp).names_erase hk hkeep hold herase, ht.coherent p e' hp.alloc he']

lemma removed (ht : V.Tidy) {path : Str} (hp : V.LiveDir p)
    (hname : name ≠ []) (hk : V.FirstMatch (V.inode p) name k) (hc : V.Alloc (V.childAt p k)) :
    (V.removed p k name path).Tidy := by
  refine ht.erase hp hk.lt (hk.entryOf hname) rfl (ht.owned.removed hp.alloc hk.here.mapped hc)
    (fun n hn => ⟨hn.1, ?_⟩) (fun n hnp => update_of_ne hnp _ _)
    (V.removed_directSlotGet p k name path) rfl rfl (ht.paths.retain _)
  by_cases hnc : n = V.childAt p k
  · rw [hnc]
    exact hc.2
  · exact (update_of_ne hnc _ _).symm.trans hn.2

lemma unlinked (ht : V.Tidy) {c : Nat} {oldPath newPath : Str} (hp : V.LiveDir p)
    (hk : k < 192) (hold : V.entryOf p k = some (name, c)) :
    (V.unlinked p k name oldPath newPath).Tidy := by
  have hz : (V.inode p).directSlotGet (k / 32) ≠ 0 := (entry_eq_some.mp hold).1
  refine ht.erase hp hk hold rfl (ht.owned.clearEntry hp.alloc hz) (fun n hn => hn)
    (fun n hnp => update_of_ne hnp _ _) (fun n b => ?_) rfl rfl
    ((ht.paths.retain _).retain _)
  by_cases hn : n = p
  · subst hn
    have hrec : (V.unlinked n k name oldPath newPath).inode n = (V.inode n).dropEntry :=
      update_self ..
    rw [hrec, dropEntry_directSlotGet]
  · have hrec : (V.unlinked p k name oldPath newPath).inode n = V.inode n := update_of_ne hn _ _
    rw [hrec]

lemma renamed (ht : V.Tidy) {ino : Nat} {oldName newName oldPath newPath : Str}
    (hp : V.LiveDir p) (hk : k < 192) (hname : IsName newName)
    (hold : V.entryOf p k = some (oldName, ino))
    (hfree : ∀ j < 192, j ≠ k → ∀ a, V.entryOf p j ≠ some (newName, a)) :
    (V.renamed p k ino oldName newName oldPath newPath).Tidy := by
  have hz : (V.inode p).directSlotGet (k / 32) ≠ 0 := (entry_eq_some.mp hold).1
  have hentry : ∀ n, V.Alloc n → ∀ j,
      (V.renamed p k ino oldName newName oldPath newPath).entryOf n j
        = if n = p ∧ j = k then some (newName, ino) else V.entryOf n j :=
    fun n hn j => renamed_entryOf ht.owned hp.alloc hn hname hold
  have hset : (V.renamed p k ino oldName newName oldPath newPath).entryOf p k
      = some (newName, ino) := by
    rw [hentry p hp.alloc, if_pos ⟨rfl, rfl⟩]
  have hother : ∀ n, V.Alloc n → ∀ j, ¬ (n = p ∧ j = k) →
      (V.renamed p k ino oldName newName oldPath newPath).entryOf n j = V.entryOf n j := by
    intro n hn j hne
    rw [hentry n hn, if_neg hne]
  have hkeep : ∀ j < 192, j ≠ k →
      (V.renamed p k ino oldName newName oldPath newPath).entryOf p j = V.entryOf p j :=
    fun j _ hjk => hother p hp.alloc j fun h => hjk h.2
  have hu : (V.renamed p k ino oldName newName oldPath newPath).UniqueNames (V.inode p) :=
    (ht.unique p hp).set hkeep hset hfree
  refine ht.update (p := p) rfl (ht.owned.putBlock hp.alloc hz _) (fun n hn => hn)
    (fun n hn hnp => ⟨rfl, fun j _ => hother n hn j fun h => hnp h.1, ?_⟩) (fun _ => hu)
    (fun _ e he => ?_) ((ht.dirs.adjust _ _).adjust _ _) ((ht.paths.retain _).retain _)
  · refine (updateAfterInsert_map ..).trans ?_
    rw [if_neg hnp, removeName_map, if_neg hnp]
  have hmap : (V.renamed p k ino oldName newName oldPath newPath).dirs.map p
      = ((V.dirs.map p).map fun e => (⟨Function.update e.names oldName none, 0⟩ :
          DirIndexEntry)).map fun e => ⟨Function.update e.names newName (some ino), 0⟩ := by
    refine (updateAfterInsert_map ..).trans ?_
    rw [if_pos rfl, removeName_map, if_pos rfl]
  rw [hmap, map_map, map_eq_some_iff] at he
  obtain ⟨e', he', rfl⟩ := he
  have hnames : ((V.renamed p k ino oldName newName oldPath newPath).indexOf (V.inode p)).names
      = _ := (ht.unique p hp).names_rename hk hkeep hu hold hset
  show _ = ((V.renamed p k ino oldName newName oldPath newPath).indexOf (V.inode p)).names
  rw [hnames, ← ht.coherent p e' hp.alloc he']
  rfl

end Volume.Tidy

lemma Inode.dropEntry_isDir (i : Inode) : i.dropEntry.isDir = i.isDir := by
  unfold Inode.dropEntry
  split <;> rfl

lemma Inode.dropEntry_size_ne {i : Inode} (h : 64 < i.size) : i.dropEntry.size ≠ 0 := by
  have hle : 64 ≤ i.size := UInt64.le_of_lt h
  rw [Inode.dropEntry, if_pos hle, withSize_size]
  intro h0
  have hlt := UInt64.lt_iff_toNat_lt.mp h
  have hnat := congrArg UInt64.toNat h0
  rw [UInt64.toNat_sub_of_le _ _ hle] at hnat
  simp only [UInt64.reduceToNat] at hlt hnat
  omega

lemma Volume.removed_entryOf (ho : V.Owned) {j : Nat} (hp : V.Alloc p)
    (hn : V.Alloc n) : (V.removed p k name path).entryOf n j
      = if n = p ∧ j = k then none else V.entryOf n j :=
  entryOf_clear ho hp hn (V.removed_directSlotGet ..) rfl

lemma Volume.removed_liveDir (hn : V.LiveDir n)
    (hc : n ≠ V.childAt p k) (hsize : n = p → 64 < (V.inode n).size) :
    (V.removed p k name path).LiveDir n := by
  have halloc : (V.removed p k name path).Alloc n :=
    ⟨hn.alloc.1, (update_of_ne hc _ _).trans hn.alloc.2⟩
  refine ⟨halloc, ?_, ?_⟩
  · rw [removed_inode]
    split
    · next hnp => rw [← hnp, dropEntry_isDir, hn.isDir]
    · exact hn.isDir
  rw [removed_inode]
  split
  · next hnp =>
    subst hnp
    exact dropEntry_size_ne (hsize rfl)
  · exact hn.size

/-- The entry of a name can be removed: its directory is live and its inode is
allocated. -/
def Volume.CanRemove (V : Volume) (path : Str) : Prop :=
  ∀ name p W k, (Str.components path).getLast? = some name →
    V.resolveParent (Str.components path).dropLast = (.ok p, W) →
    V.FirstMatch (V.inode p) name k → V.LiveDir p ∧ V.Alloc (V.childAt p k)

/-- The directories of a rename are live, the new name is proper and an entry that
has it belongs to an allocated inode. -/
def Volume.CanRename (V : Volume) (oldPath newPath : Str) : Prop :=
  ∀ W op on np nn p q k, V.RenamePlan oldPath newPath W op on np nn p q k →
    V.LiveDir p ∧ V.LiveDir q ∧ 64 < (V.inode q).size ∧ ProperName nn ∧
      ∀ j, V.FirstMatch (V.inode q) nn j → V.Alloc (V.childAt q j)

lemma Volume.RenamePlan.looked {op on np nn : Str} {W : Volume} {q : Nat}
    (hplan : V.RenamePlan oldPath newPath W op on np nn p q k) : V.Looked W := by
  have hl := Volume.Looked.resolve (V.resolve op).2 np
  rw [hplan.target] at hl
  exact (Volume.Looked.resolve V op).trans hl

section Cleared

variable {W X : Volume} {q ino : Nat} {nn path : Str}
  (hX : Cleared W q ino nn path X) (ht : W.Tidy) (hq : W.LiveDir q) (hnn : nn ≠ [])
include hX

lemma Cleared.tidy (ht : W.Tidy) (hq : W.LiveDir q) (hnn : nn ≠ [])
    (hc : ∀ j, W.FirstMatch (W.inode q) nn j → W.Alloc (W.childAt q j)) : X.Tidy := by
  cases hX with
  | free hnone => exact ht
  | replaced hj hne hi hkind => exact ht.removed hq hnn hj (hc _ hj)

lemma Cleared.liveDir {n : Nat} (hn : W.LiveDir n) (hsize : n = q → 64 < (W.inode n).size) :
    X.LiveDir n := by
  cases hX with
  | free hnone => exact hn
  | @replaced j hj hne hi hkind =>
    refine W.removed_liveDir hn ?_ hsize
    rintro rfl
    rw [hn.isDir] at hkind
    cases hkind

lemma Cleared.absent (ht : W.Tidy) (hq : W.LiveDir q) (hnn : nn ≠ []) {j a : Nat}
    (hj : j < 192) : X.entryOf q j ≠ some (nn, a) := by
  cases hX with
  | free hnone =>
    intro he
    apply hnone j hj
    rw [matches_iff hnn, (entry_eq_some.mp he).2.2.1]
    exact he
  | @replaced j' hj' hne hi hkind =>
    rw [removed_entryOf ht.owned hq.alloc hq.alloc]
    split
    · exact nofun
    · next hout =>
      intro he
      exact hout ⟨rfl, ht.unique q hq j hj j' hj'.lt nn a _ he (hj'.entryOf hnn)⟩

lemma Cleared.entryOf (ht : W.Tidy) (hq : W.LiveDir q) {p k : Nat} {name : Str}
    (hp : W.LiveDir p) (hk : W.entryOf p k = some (name, ino)) :
    X.entryOf p k = some (name, ino) := by
  cases hX with
  | free hnone => exact hk
  | @replaced j hj hne hi hkind =>
    rw [removed_entryOf ht.owned hq.alloc hp.alloc, if_neg]
    · exact hk
    · rintro ⟨rfl, rfl⟩
      exact hne (entry_eq_some.mp hk).2.2.1

end Cleared

/-- What the guard says about the volume `W` after both parents were resolved. -/
structure Volume.RenameReady (W : Volume) (p q k : Nat) (on nn : Str) : Prop where
  tidy : W.Tidy
  source : W.LiveDir p
  target : W.LiveDir q
  size : 64 < (W.inode q).size
  name : IsName nn
  alloc : ∀ j, W.FirstMatch (W.inode q) nn j → W.Alloc (W.childAt q j)
  entry : W.entryOf p k = some (on, W.childAt p k)

lemma Volume.RenamePlan.ready {op on np nn : Str} {W : Volume} {q : Nat}
    (hplan : V.RenamePlan oldPath newPath W op on np nn p q k) (ht : V.Tidy)
    (hcan : V.CanRename oldPath newPath) : W.RenameReady p q k on nn := by
  have hl := hplan.looked
  obtain ⟨hp, hq, hsize, hname, hc⟩ := hcan W op on np nn p q k hplan
  have hon : on ≠ [] := by
    have := Str.isComponent_of_mem (List.mem_of_getLast? (splitParentAndName_ok hplan.old).1)
    exact this.ne_nil
  rw [← hl.disk] at hp hq hsize hc
  exact ⟨ht.looked hl, hp, hq, hsize, hname.isName hplan.shortNew, hc, hplan.slot.entryOf hon⟩

lemma Renamed.tidy {r : Except FsError Unit} {V' : Volume}
    (ht : V.Tidy) (hcan : V.CanRename oldPath newPath) (hr : Renamed V oldPath newPath r V') :
    V'.Tidy := by
  cases hr with
  | failed hl => exact ht.looked hl
  | trivial heq => exact ht
  | same hplan hj heq => exact (hplan.ready ht hcan).tidy
  | stuck hplan hX hpq hroom =>
    have hw := hplan.ready ht hcan
    exact hX.tidy hw.tidy hw.target hw.name.ne_nil hw.alloc
  | renamed hplan hX =>
    have hw := hplan.ready ht hcan
    exact (hX.tidy hw.tidy hw.target hw.name.ne_nil hw.alloc).renamed
      (hX.liveDir hw.target fun _ => hw.size) hplan.slot.lt hw.name
      (hX.entryOf hw.tidy hw.target hw.source hw.entry)
      fun j hj _ a => hX.absent hw.tidy hw.target hw.name.ne_nil hj
  | @moved W X op on np nn p q k j y grown hplan hX hpq hslot =>
    have hw := hplan.ready ht hcan
    have htX := hX.tidy hw.tidy hw.target hw.name.ne_nil hw.alloc
    have hqX := hX.liveDir hw.target fun _ => hw.size
    have hpX := hX.liveDir hw.source fun h => absurd h hpq
    have hino : W.childAt p k ≠ 0 ∧ W.childAt p k < 2 ^ 32 :=
      ⟨(entry_eq_some.mp hw.entry).2.1, Bytes.readLE_lt _ _ 4⟩
    have htI := htX.insertEntry hqX hslot hw.name
      (names_eq_none.mpr fun a ⟨j, hj, he⟩ =>
        hX.absent hw.tidy hw.target hw.name.ne_nil hj he) hino.1 hino.2
    have hrec : (X.insertEntry q j y grown nn (W.childAt p k)).inode p = X.inode p :=
      update_of_ne hpq _ _
    have hpI : (X.insertEntry q j y grown nn (W.childAt p k)).LiveDir p :=
      ⟨hpX.alloc, by rw [hrec]; exact hpX.isDir, by rw [hrec]; exact hpX.size⟩
    refine htI.unlinked (c := W.childAt p k) hpI hplan.slot.lt ?_
    rw [X.entryOf_insertEntry_other htX.owned hqX.alloc hpX.alloc hpq hslot]
    exact hX.entryOf hw.tidy hw.target hw.source hw.entry

end Twilight.Fs

/-
Creating a name: all or nothing?

The creators take an inode, and a zone unless they make a link, before they look
for a slot in the parent directory, and give nothing back when a later step fails.
So a creation that fails leaves the bitmaps and the directories as they were
exactly if it fails for another reason than space: `Volume.Leaks` is the space that
is missing, read off the volume before the call.
-/
import Twilight.Fs.Fresh

namespace Twilight.Fs

open TwilightFs Function Prog Finset Disk Disk.Owned

inductive Creation
  | file (env : Inode.Env) (mode : UInt16)
  | dir (env : Inode.Env) (mode : UInt16)
  | symlink (env : Inode.Env) (target : Str)

namespace Creation

def exec : Creation → Nat → Str → FsM FsError Nat
  | file env mode, p, name => createFileWithMode env p name mode
  | dir env mode, p, name => createDirWithMode env p name mode
  | symlink env target, p, name => createSymlink env p name target

def Accepts : Creation → Str → Prop
  | symlink _ target, name =>
    name.length ≤ 60 ∧ target ≠ [] ∧ target.length ≤ inodeInlineBytes
  | _, name => name.length ≤ 60

def isDir : Creation → Bool
  | dir _ _ => true
  | _ => false

def zoned : Creation → Bool
  | symlink _ _ => false
  | _ => true

end Creation

/-- The bitmaps and the entries of every directory are the same. -/
structure Disk.SameTree (D D' : Disk) : Prop where
  imap : D'.imap = D.imap
  zmap : D'.zmap = D.zmap
  entries : ∀ n, D.Alloc n → (D.inode n).isDir = true → ∀ k < 192, D'.entryOf n k = D.entryOf n k

def AllOrNothing (x : FsM FsError Nat) (s : TwilightFs) : Prop :=
  ∀ e s', x s = .error e s' → s.volume.SameTree s'.volume.toDisk

/-- The first block of a new directory in the zone `z`, once the parent has its entry in slot `k`:
the old content of the zone, unless the parent's own block is marked as free. -/
def Volume.firstBlock (V : Volume) (p k z : Nat) (name : Str) (child : Nat) : Bytes :=
  if (V.inode p).directSlotGet (k / 32) = z then
    (V.slotBuf p k z false).splice (k % 32 * 64) 64 (DirEntry.encode child name)
  else V.block z

/-- Whether ".." needs a zone in a new directory with the number `n`: it goes to the slot after
that of ".", and, if that is the last one, to a slot that is clear in the first block. -/
def Volume.dotDotGrows (V : Volume) (n : Nat) (block : Bytes) : Bool :=
  let slot := V.startSlot n % 192
  if slot = 191 then (List.range 32).all fun j => DirEntry.inodeAt block j ≠ 0 else slot % 32 = 31

/-- The zones "." and ".." take in a new directory with the number `n`, besides its first.  An
index that is still cached under the number says where "." goes. -/
def Volume.dotZones (V : Volume) (n : Nat) (block : Bytes) : Nat :=
  (if V.startSlot n % 192 < 32 then 0 else 1) + (V.dotDotGrows n block).toNat

/-- Too few zones are free for the inode, the entry in `p`, which may need one, and the entries
of a new directory. -/
def Volume.Cramped (V : Volume) (c : Creation) (p : Nat) (name : Str) : Prop :=
  ∀ n z k, V.FirstFreeInode n → (c.zoned = true → V.FirstFreeZone z) →
    (V.indexed p).NextSlot p k →
      V.freeZones.card < c.zoned.toNat + (if (V.inode p).directSlotGet (k / 32) = 0 then 1 else 0) +
        if c.isDir then (V.indexed p).dotZones n (V.firstBlock p k z name n) else 0

/-- The call takes an inode and finds out afterwards that there is no space. -/
structure Volume.Leaks (V : Volume) (c : Creation) (p : Nat) (name : Str) : Prop where
  accepted : c.Accepts name
  absent : (V.index p).names name = none
  inode : ∃ n, V.IsInode n ∧ V.imap n = false
  cramped : V.Cramped c p name

variable {V : Volume} {p n z : Nat} {name : Str} {zoned : Bool}

/-! ## Space -/

lemma Disk.full_iff {D : Disk} : D.Full ↔ D.freeZones.card = 0 := by
  rw [card_eq_zero, eq_empty_iff_forall_notMem]
  constructor
  · intro hfull z hz
    obtain ⟨hdata, hfree⟩ := mem_freeZones.mp hz
    rw [hfull z hdata] at hfree
    cases hfree
  · intro hnone z hdata
    have hz := hnone z
    rw [mem_freeZones, not_and, Bool.not_eq_false] at hz
    exact hz hdata

lemma Disk.freeZones_taken {D D' : Disk} {z : Nat} (hm : D'.mount = D.mount)
    (hz : D.FirstFreeZone z) (hzmap : D'.zmap = update D.zmap z true) :
    D'.freeZones.card + 1 = D.freeZones.card := by
  have hset : D'.freeZones = D.freeZones.erase z := by
    ext y
    rw [mem_erase, mem_freeZones, mem_freeZones, IsData, sb, hm, hzmap]
    by_cases hy : y = z
    · subst hy
      simp
    · rw [update_of_ne hy]
      exact ⟨fun hfree => ⟨hy, hfree⟩, And.right⟩
  rw [hset]
  exact card_erase_add_one (mem_freeZones.mpr ⟨hz.isData, hz.free⟩)

lemma Volume.NewChild.freeZones (h : Layout V.mount) (hnew : V.NewChild p name zoned n z)
    (i : Inode) : (V.withChild p n z i).freeZones.card + zoned.toNat = V.freeZones.card := by
  have hzone := hnew.zone
  cases zoned with
  | false =>
    rw [if_neg Bool.false_ne_true] at hzone
    have hset : (V.withChild p n z i).freeZones = V.freeZones := by
      ext y
      rw [mem_freeZones, mem_freeZones, Volume.withChild, Volume.newInode, if_pos hzone]
      rfl
    rw [hset]
    rfl
  | true =>
    rw [if_pos rfl] at hzone
    refine freeZones_taken rfl hzone ?_
    rw [Volume.withChild, Volume.newInode, if_neg (zone_ne h hzone.isData)]
    rfl

lemma Disk.FreeSlot.freeZones {V : Volume} {k y : Nat} {grown : Bool}
    (hslot : V.FreeSlot p k y grown) (name : Str) (child : Nat) :
    (V.insertEntry p k y grown name child).freeZones.card
      + (if (V.inode p).directSlotGet (k / 32) = 0 then 1 else 0) = V.freeZones.card := by
  cases grown with
  | false =>
    obtain ⟨hy, hy0, -⟩ := hslot.kept rfl
    rw [if_neg (hy ▸ hy0)]
    rfl
  | true =>
    obtain ⟨hzero, hzone⟩ := hslot.new rfl
    rw [if_pos hzero]
    exact freeZones_taken rfl hzone rfl

lemma Volume.nextSlot_withChild {k : Nat} {i : Inode} (hne : p ≠ n) :
    (V.withChild p n z i).NextSlot p k ↔ (V.indexed p).NextSlot p k := by
  have hinode : (V.withChild p n z i).inode p = (V.indexed p).inode p := update_of_ne hne _ _
  have hchild : ∀ j, (V.withChild p n z i).childAt p j = (V.indexed p).childAt p j := by
    intro j
    rw [Disk.childAt, Disk.childAt, hinode]
    rfl
  have htaken : ∀ j, (V.withChild p n z i).SlotTaken p j ↔ (V.indexed p).SlotTaken p j := by
    intro j
    constructor
    · rintro ⟨h1, h2, h3⟩
      rw [hinode] at h1 h2
      rw [hchild] at h3
      exact ⟨h1, h2, h3⟩
    · rintro ⟨h1, h2, h3⟩
      exact ⟨by rw [hinode]; exact h1, by rw [hinode]; exact h2, by rw [hchild]; exact h3⟩
  have horder : (V.withChild p n z i).slotOrder p = (V.indexed p).slotOrder p := rfl
  constructor
  · rintro ⟨hfree, before, after, hsplit, hbefore⟩
    rw [horder] at hsplit
    exact ⟨fun ht => hfree ((htaken _).mpr ht), before, after, hsplit,
      fun j hj => (htaken j).mp (hbefore j hj)⟩
  · rintro ⟨hfree, before, after, hsplit, hbefore⟩
    exact ⟨fun ht => hfree ((htaken _).mp ht), before, after, horder.trans hsplit,
      fun j hj => (htaken j).mpr (hbefore j hj)⟩

/-- What is free when the parent has its entry. -/
lemma Volume.NewChild.left {i : Inode} {k y : Nat} {grown : Bool} (h : Layout V.mount)
    (hp : V.Alloc p) (hnew : V.NewChild p name zoned n z)
    (hslot : (V.withChild p n z i).FreeSlot p k y grown) (child : Nat) :
    ((V.withChild p n z i).insertEntry p k y grown name child).freeZones.card + zoned.toNat
      + (if (V.inode p).directSlotGet (k / 32) = 0 then 1 else 0) = V.freeZones.card := by
  have hinode : (V.withChild p n z i).inode p = V.inode p :=
    update_of_ne (hnew.ne_parent hp).symm _ _
  have hcard := hnew.freeZones h i
  have hleft := hslot.freeZones name child
  rw [hinode] at hleft
  omega

lemma Volume.NewChild.not_cramped {c : Creation} {i : Inode} {k y : Nat} {grown : Bool}
    (h : Layout V.mount) (hp : V.Alloc p) (hnew : V.NewChild p name c.zoned n z)
    (hfile : c.isDir = false) (hslot : (V.withChild p n z i).FreeSlot p k y grown)
    (hnext : (V.withChild p n z i).NextSlot p k) : ¬ V.Cramped c p name := by
  intro hcramped
  have hzone := hnew.zone
  have hlt := hcramped n z k hnew.inode (fun hz => by rwa [if_pos hz] at hzone)
    ((Volume.nextSlot_withChild (hnew.ne_parent hp).symm).mp hnext)
  have hleft := hnew.left h hp hslot n
  rw [hfile, if_neg Bool.false_ne_true] at hlt
  omega

lemma Volume.NewChild.cramped {c : Creation} {i : Inode} (h : Layout V.mount) (hp : V.Alloc p)
    (hnew : V.NewChild p name c.zoned n z) (hroom : (V.withChild p n z i).NoRoom p) :
    V.Cramped c p name := by
  have hne : p ≠ n := (hnew.ne_parent hp).symm
  have hinode : (V.withChild p n z i).inode p = V.inode p := update_of_ne hne _ _
  have hcard := hnew.freeZones h i
  intro n' z' k _ _ hk
  obtain ⟨hz, hfull⟩ := hroom k ((Volume.nextSlot_withChild hne).mpr hk)
  rw [hinode] at hz
  have hzero := full_iff.mp hfull
  rw [if_pos hz]
  omega

/-! ## The creators -/

/-- The end of a creation that leaks exactly if `leaks`. -/
structure Volume.Ends (V : Volume) (leaks : Prop) (r : Except FsError Nat) (V' : Volume) : Prop where
  kept : ¬ leaks → ∀ e, r = .error e → V.SameTree V'.toDisk
  lost : leaks → (∃ e, r = .error e) ∧ V'.imap ≠ V.imap

variable {leaks : Prop} {V' : Volume}

lemma Volume.Ends.same {r : Except FsError Nat}
    (h : ¬ leaks) (hsame : V'.toDisk = V.toDisk) : V.Ends leaks r V' := by
  refine ⟨fun _ _ _ => ?_, fun hl => absurd hl h⟩
  rw [hsame]
  exact ⟨rfl, rfl, fun _ _ _ _ _ => rfl⟩

lemma Volume.Ends.done (h : ¬ leaks) : V.Ends leaks (.ok n) V' :=
  ⟨fun _ _ he => (nomatch he), fun hl => absurd hl h⟩

lemma Volume.Ends.taken {e : FsError} (h : leaks)
    (hn : V.FirstFreeInode n) (hused : V'.imap n = true) : V.Ends leaks (.error e) V' := by
  refine ⟨fun hl => absurd h hl, fun _ => ⟨⟨e, rfl⟩, fun himap => ?_⟩⟩
  rw [himap, hn.free] at hused
  cases hused

lemma Volume.Ends.of_iff {r : Except FsError Nat} (h : (∃ e, r = .error e) ↔ leaks)
    (hn : V.FirstFreeInode n) (hused : V'.imap n = true) : V.Ends leaks r V' := by
  refine ⟨fun hl e he => absurd (h.mp ⟨e, he⟩) hl, fun hl => ⟨h.mpr hl, fun himap => ?_⟩⟩
  rw [himap, hn.free] at hused
  cases hused

section Failures

variable {e : FsError}
  {c : Creation} (hleaks : leaks ↔ (∃ n, V.IsInode n ∧ V.imap n = false) ∧ V.Cramped c p name)

include hleaks

lemma Volume.Ends.full (hfull : ∀ n, V.IsInode n → V.imap n = true) :
    V.Ends leaks (.error e) (V.indexed p) := by
  refine .same (fun hl => ?_) rfl
  obtain ⟨⟨n, hn, hfree⟩, -⟩ := hleaks.mp hl
  rw [hfull n hn] at hfree
  cases hfree

lemma Volume.Ends.noRoom {i : Inode} (h : Layout V.mount) (hp : V.Alloc p)
    (hnew : V.NewChild p name c.zoned n z) (hroom : (V.withChild p n z i).NoRoom p) :
    V.Ends leaks (.error e) (V.withChild p n z i) :=
  .taken (hleaks.mpr ⟨⟨n, hnew.inode.isInode, hnew.inode.free⟩, hnew.cramped h hp hroom⟩) hnew.inode
    (update_self ..)

lemma Made.ends {record : Nat → Inode} (h : Layout V.mount) (hp : V.Alloc p)
    (hshort : name.length ≤ 60) (habsent : (V.index p).names name = none) (hzoned : c.zoned = true)
    (hm : Made V p name c.zoned record none V') : V.Ends leaks (.error e) V' := by
  cases hm with
  | refused hbad => exact absurd hp.1 (hbad hzoned hshort)
  | looked _ hno => exact .full hleaks (hno habsent)
  | noZone _ hn _ hfull =>
    refine .taken (hleaks.mpr ⟨⟨_, hn.isInode, hn.free⟩, fun _ z _ _ hz _ => ?_⟩) hn
      (update_self ..)
    have hfree := (hz hzoned).free
    rw [hfull z (hz hzoned).isData] at hfree
    cases hfree
  | noRoom hnew hroom => exact .noRoom hleaks h hp hnew hroom

end Failures

/-! ## The entries of a new directory -/

section Dots

variable {k y : Nat} {grown : Bool}

/-- A directory without entries takes the first in the slot that is tried first. -/
lemma Volume.BareDir.nextSlot (hb : V.BareDir n) : V.NextSlot n (V.startSlot n % 192) := by
  refine V.nextSlot_start fun ht => ?_
  by_cases hblock : V.startSlot n % 192 / 32 = 0
  · exact ht.started ⟨hblock, hb.size⟩
  · exact ht.mapped (hb.zones _ hblock)

/-- The search for the second slot starts behind the first entry, if an index is cached. -/
lemma Volume.startSlot_second :
    (V.insertEntry n (V.startSlot n % 192) y grown dotName n).startSlot n
      = (V.dirs.map n).elim 0 fun _ => V.startSlot n % 192 + 1 := by
  have hlt : V.startSlot n % 192 < 192 := Nat.mod_lt _ (by decide)
  have hmap := DirIndexCache.updateAfterInsert_map V.dirs n n dotName n
    (min (V.startSlot n % 192 + 1) 192)
  rw [if_pos rfl] at hmap
  rw [Volume.startSlot, show (V.insertEntry n _ y grown dotName n).dirs.map n = _ from hmap]
  cases V.dirs.map n with
  | none => rfl
  | some e =>
    show min (min (V.startSlot n % 192 + 1) 192) 192 = V.startSlot n % 192 + 1
    omega

variable (h : Layout V.mount) (hb : V.BareDir n) (hz : (V.inode n).directSlotGet 0 = z)
  (hz0 : z ≠ 0) (hslot : V.FreeSlot n (V.startSlot n % 192) y grown)

include hz hz0

lemma Volume.BareDir.first_zone_iff (hb : V.BareDir n) :
    (V.inode n).directSlotGet (V.startSlot n % 192 / 32) = 0 ↔ ¬ V.startSlot n % 192 < 32 := by
  by_cases hblock : V.startSlot n % 192 / 32 = 0
  · rw [hblock, hz]
    exact iff_of_false hz0 (by omega)
  · exact iff_of_true (hb.zones _ hblock) (by omega)

include h hb hslot

omit hz0 in
/-- The zones of the directory with its first entry. -/
lemma Volume.BareDir.zones_second (b : Nat) :
    ((V.insertEntry n (V.startSlot n % 192) y grown dotName n).inode n).directSlotGet b
      = if b = V.startSlot n % 192 / 32 then y else if b = 0 then z else 0 := by
  rw [V.insertEntry_directSlotGet h hslot]
  split
  · rfl
  · split
    · next hb0 => rw [hb0, hz]
    · next hb0 => exact hb.zones b hb0

/-- In the block of the first entry the other slots are clear. -/
lemma Volume.BareDir.beside {j : Nat} (hj : j ≠ V.startSlot n % 192)
    (hblock : j / 32 = V.startSlot n % 192 / 32) :
    ¬ (V.insertEntry n (V.startSlot n % 192) y grown dotName n).SlotTaken n j := by
  intro ht
  apply ht.taken
  have hclear : V.slotBuf n (V.startSlot n % 192) y grown = Bytes.zero := by
    refine if_pos ?_
    cases grown with
    | true => exact .inl rfl
    | false =>
      obtain ⟨hy, hy0, -⟩ := hslot.kept rfl
      have hfirst := (hb.first_zone_iff hz hz0).not.mp (hy ▸ hy0)
      exact .inr ⟨by omega, hb.size⟩
  have hbuf : (V.insertEntry n (V.startSlot n % 192) y grown dotName n).block y
      = Bytes.zero.splice (V.startSlot n % 192 % 32 * 64) 64 (DirEntry.encode n dotName) := by
    rw [← hclear]
    exact update_self ..
  rw [Disk.childAt, hb.zones_second h hz hslot, if_pos hblock, hbuf, DirEntry.inodeAt,
    dirEntrySize, Bytes.readLE_splice_outside (by omega), Bytes.readLE_zero]

/-- With the first entry in another block, the first block is as its zone was before. -/
lemma Volume.BareDir.taken_first_iff (hused : V.zmap z = true) (hfar : 32 ≤ V.startSlot n % 192)
    {j : Nat} (hj : j < 32) :
    (V.insertEntry n (V.startSlot n % 192) y grown dotName n).SlotTaken n j ↔
      DirEntry.inodeAt (V.block z) j ≠ 0 := by
  have hnew : grown = true := by
    cases grown with
    | true => rfl
    | false =>
      obtain ⟨hy, hy0, -⟩ := hslot.kept rfl
      have := (hb.first_zone_iff hz hz0).not.mp (hy ▸ hy0)
      omega
  have hne : z ≠ y := by
    rintro rfl
    have hfree := (hslot.new hnew).2.free
    rw [hused] at hfree
    cases hfree
  have hzone := hb.zones_second h hz hslot (j / 32)
  rw [if_neg (by omega), if_pos (by omega)] at hzone
  have hsize := (V.insertEntry_record n (V.startSlot n % 192) y grown dotName n).2
  generalize hW : V.insertEntry n (V.startSlot n % 192) y grown dotName n = W at *
  have hblock : W.block z = V.block z := by
    rw [← hW]
    exact update_of_ne hne _ _
  have hchild : W.childAt n j = DirEntry.inodeAt (V.block z) j := by
    rw [Disk.childAt, hzone, hblock, Nat.mod_eq_of_lt hj]
  refine ⟨fun ht => hchild ▸ ht.taken, fun hc => ⟨by rwa [hzone], fun hs => ?_, by rwa [hchild]⟩⟩
  rw [hsize] at hs
  simp [hb.size] at hs

/-- Where the second entry goes, and whether it needs a zone. -/
lemma Volume.BareDir.second_zone_iff (hused : V.zmap z = true)
    (hk : (V.insertEntry n (V.startSlot n % 192) y grown dotName n).NextSlot n k) :
    ((V.insertEntry n (V.startSlot n % 192) y grown dotName n).inode n).directSlotGet (k / 32) = 0 ↔
      V.dotDotGrows n (V.block z) = true := by
  have hlt : V.startSlot n % 192 < 192 := Nat.mod_lt _ (by decide)
  have hzones := hb.zones_second h hz hslot
  have hbeside := fun j => hb.beside (j := j) h hz hz0 hslot
  have hy0 : y ≠ 0 := by
    cases grown with
    | true => exact zone_ne h (hslot.new rfl).2.isData
    | false => exact (hslot.kept rfl).2.1
  have hfirst := hb.first_zone_iff hz hz0
  have hstart := @Volume.startSlot_second V n y grown
  have htaken := fun hfar j => hb.taken_first_iff (j := j) h hz hz0 hslot hused hfar
  generalize hW : V.insertEntry n (V.startSlot n % 192) y grown dotName n = W at *
  rw [Volume.dotDotGrows]
  generalize hf : V.startSlot n % 192 = f at *
  cases hcache : V.dirs.map n with
  | none =>
    -- no index is cached, and the entries go to the slots 0 and 1
    have hf0 : f = 0 := by
      rw [← hf, Volume.startSlot, hcache]
      rfl
    rw [hcache] at hstart
    have hle := hk.le (by rw [hstart]; rfl) (show 1 < 192 by decide)
      (hbeside 1 (by omega) (by omega))
    rw [show k / 32 = 0 by omega, hzones 0, hf0]
    exact iff_of_false hy0 (by simp)
  | some e =>
    rw [hcache, Option.elim_some] at hstart
    by_cases hlast : f = 191
    · -- the order starts again at the first block, with whatever its zone held
      simp only [hlast, if_true, List.all_eq_true, List.mem_range, decide_eq_true_eq]
      have htaken := htaken (by omega)
      have hsecond : ¬ W.SlotTaken n 32 := fun ht =>
        ht.mapped (by rw [hzones, if_neg (by omega), if_neg (by decide)])
      have hle := fun j => hk.le (j := j) (by rw [hstart, hlast])
      have hle32 := hle 32 (by decide) hsecond
      constructor
      · intro hzero j hj hc
        have hlej := hle j (by omega) fun ht => (htaken j hj).mp ht hc
        rw [hzones, if_neg (by omega), if_pos (by omega)] at hzero
        exact hz0 hzero
      · intro hall
        have hk32 : k = 32 := by
          by_contra hne
          exact hk.free ((htaken k (by omega)).mpr (hall k (by omega)))
        rw [hk32, hzones, if_neg (by omega), if_neg (by decide)]
    · simp only [hlast, if_false, decide_eq_true_eq]
      have hnext : W.startSlot n % 192 = f + 1 := by rw [hstart, Nat.mod_eq_of_lt (by omega)]
      have hfree : ¬ W.SlotTaken n (W.startSlot n % 192) := by
        rw [hnext]
        by_cases hblock : (f + 1) / 32 = f / 32
        · exact hbeside _ (by omega) hblock
        · exact fun ht => ht.mapped (by rw [hzones, if_neg hblock, if_neg (by omega)])
      obtain rfl := W.nextSlot_unique hk (W.nextSlot_start hfree)
      rw [hnext, hzones]
      by_cases hblock : (f + 1) / 32 = f / 32
      · rw [if_pos hblock]
        exact iff_of_false hy0 (by omega)
      · rw [if_neg hblock, if_neg (by omega)]
        exact iff_of_true rfl (by omega)

end Dots

/-- The two entries of a new directory fail exactly if too few zones are left for them. -/
lemma spec_dotEntries (h : Layout V.mount) (hr : V.InRange) (hb : V.BareDir n)
    (hz : (V.inode n).directSlotGet 0 = z) (hz0 : z ≠ 0) (hused : V.zmap z = true) :
    Spec (do
      Prog.mapErr (fun _ => FsError.invalidInode) (createDirEntry n dotName n)
      Prog.mapErr (fun _ => .invalidInode) (createDirEntry n dotDotName p)
      pure n) (fun r V' => V'.imap = V.imap ∧
        ((∃ e, r = .error e) ↔ V.freeZones.card < V.dotZones n (V.block z))) V := by
  have hfirst := hb.first_zone_iff hz hz0
  refine Wp.bind (Wp.mapErr (spec_createDirEntry h hb.alloc.1 (hr n hb.alloc.1)
    (fun k y grown hslot hnext => ?_) fun e hno => ?_))
  swap
  · obtain ⟨hzero, hfull⟩ := hno _ hb.nextSlot
    refine ⟨rfl, iff_of_true ⟨_, rfl⟩ ?_⟩
    rw [full_iff.mp hfull, Volume.dotZones, if_neg (hfirst.mp hzero)]
    exact Nat.lt_add_right _ Nat.zero_lt_one
  obtain rfl := V.nextSlot_unique hnext hb.nextSlot
  have hleft := hslot.freeZones dotName n
  have hsecond := fun k hk => hb.second_zone_iff (k := k) h hz hz0 hslot hused hk
  have hneed : V.dotZones n (V.block z) = (if (V.inode n).directSlotGet
      (V.startSlot n % 192 / 32) = 0 then 1 else 0) + (V.dotDotGrows n (V.block z)).toNat := by
    rw [Volume.dotZones]
    simp only [hfirst, ite_not]
  generalize hW : V.insertEntry n (V.startSlot n % 192) y grown dotName n = W at hleft hsecond ⊢
  have himap : W.imap = V.imap := by rw [← hW]; rfl
  have hrange : W.InRange := hW ▸ hr.insertEntry h hslot
  have hmount : W.mount = V.mount := by rw [← hW]; rfl
  have hfree : ¬ ∀ k < 192, W.SlotTaken n k := by
    -- there are six blocks, and at most two have a zone
    intro hall
    have h1 := (hall 32 (by decide)).mapped
    have h2 := (hall 64 (by decide)).mapped
    rw [← hW, hb.zones_second h hz hslot] at h1 h2
    split_ifs at h1 h2 <;> omega
  refine Wp.bind (Wp.mapErr (spec_createDirEntry (V := W) (hmount ▸ h)
    (by rw [Disk.IsInode, Disk.sb, hmount]; exact hb.alloc.1)
    (hrange n (by rw [Disk.IsInode, Disk.sb, hmount]; exact hb.alloc.1))
    (fun k y' grown' hslot' hnext' => Wp.pure ⟨himap, iff_of_false (by simp) ?_⟩) fun e hno => ?_))
  · have hleft' := hslot'.freeZones dotDotName p
    rw [hneed]
    simp only [hsecond k hnext'] at hleft'
    cases hgrows : V.dotDotGrows n (V.block z) <;> simp [hgrows] at hleft' ⊢ <;> omega
  · obtain ⟨k, hk⟩ := W.exists_nextSlot hfree
    obtain ⟨hzero, hfull⟩ := hno k hk
    refine ⟨himap, iff_of_true ⟨_, rfl⟩ ?_⟩
    rw [hneed, (hsecond k hk).mp hzero, Bool.toNat_true]
    have := full_iff.mp hfull
    omega

/-- The directory after the parent has its entry, in terms of the volume before. -/
lemma Volume.NewChild.dotZones {k y : Nat} {grown : Bool} {i : Inode} (h : Layout V.mount)
    (hp : V.Alloc p) (hnew : V.NewChild p name true n z)
    (hslot : (V.withChild p n z i).FreeSlot p k y grown) :
    let W := (V.withChild p n z i).insertEntry p k y grown name n
    W.zmap z = true ∧ W.dotZones n (W.block z)
      = (V.indexed p).dotZones n (V.firstBlock p k z name n) := by
  intro W
  have hzone : V.FirstFreeZone z := by simpa using hnew.zone
  have hz0 : z ≠ 0 := zone_ne h hzone.isData
  have hused : (V.withChild p n z i).zmap z = true := by
    rw [Volume.withChild, Volume.newInode, if_neg hz0]
    exact update_self ..
  have hinode : (V.withChild p n z i).inode p = V.inode p :=
    update_of_ne (hnew.ne_parent hp).symm _ _
  have hmap : W.dirs.map n = (V.indexed p).dirs.map n :=
    (DirIndexCache.updateAfterInsert_map ..).trans (if_neg (hnew.ne_parent hp))
  have hstart : W.startSlot n = (V.indexed p).startSlot n := by
    rw [Volume.startSlot, Volume.startSlot, hmap]
  refine ⟨?_, ?_⟩
  · cases grown with
    | false => exact hused
    | true =>
      by_cases hy : z = y
      · exact hy ▸ update_self ..
      · exact (update_of_ne hy _ _).trans hused
  · have hblock : W.block z = V.firstBlock p k z name n := by
      rw [Volume.firstBlock]
      cases grown with
      | false =>
        obtain ⟨hy, -, -⟩ := hslot.kept rfl
        rw [hinode] at hy
        by_cases hyz : y = z
        · rw [if_pos (hy.trans hyz), ← hyz]
          refine (update_self ..).trans ?_
          rw [Disk.slotBuf, Disk.slotBuf, hinode]
          rfl
        · rw [if_neg fun heq => hyz (hy.symm.trans heq)]
          exact update_of_ne (Ne.symm hyz) _ _
      | true =>
        obtain ⟨hzero, hy⟩ := hslot.new rfl
        rw [hinode] at hzero
        have hyz : z ≠ y := by
          rintro rfl
          have hfree := hy.free
          rw [hused] at hfree
          cases hfree
        rw [if_neg fun heq => hz0 (heq.symm.trans hzero)]
        exact update_of_ne hyz _ _
    rw [Volume.dotZones, Volume.dotZones, Volume.dotDotGrows, Volume.dotDotGrows, hstart, hblock]

section Creators

variable {c : Creation} {env : Inode.Env} {mode : UInt16} {target : Str} {e : FsError}

lemma Volume.Ends.refused (hno : ¬ c.Accepts name) : V.Ends (V.Leaks c p name) (.error e) V :=
  .same (fun hl => hno hl.accepted) rfl

lemma Volume.Ends.there (hsome : ((V.index p).names name).isSome = true) :
    V.Ends (V.Leaks c p name) (.error e) (V.indexed p) := by
  refine .same (fun hl => ?_) rfl
  rw [hl.absent] at hsome
  cases hsome

lemma Volume.leaks_iff (ha : c.Accepts name) (habsent : (V.index p).names name = none) :
    V.Leaks c p name ↔ (∃ n, V.IsInode n ∧ V.imap n = false) ∧ V.Cramped c p name :=
  ⟨fun hl => ⟨hl.inode, hl.cramped⟩, fun hl => ⟨ha, habsent, hl.1, hl.2⟩⟩

variable (h : Layout V.mount) (hr : V.InRange) (hp : V.Alloc p)
include h hr hp

lemma createFileWithMode_ends : Spec (createFileWithMode env p name mode)
    (V.Ends (V.Leaks (.file env mode) p name)) V := by
  rw [createFileWithMode]
  by_cases hlong : 60 < name.length
  · rw [if_pos hlong]
    exact Wp.throw (.refused (Nat.not_le.mpr hlong))
  rw [if_neg hlong]
  refine spec_newName h hr (fun _ hno => absurd hp.1 hno) (fun _ _ => .there) fun _ habsent => ?_
  have hshort := Nat.not_lt.mp hlong
  refine spec_addChild h hr hp.1 hshort habsent
    (fun z hz => fileRecord_onlyZone (zone_lt h hz.isData)) pure
    (fun e V' hm => hm.ends (Volume.leaks_iff hshort habsent) h hp hshort habsent rfl) ?_
  intro n z k y grown hnew hslot hnext
  exact Wp.pure (.done fun hl => hnew.not_cramped (c := .file env mode) h hp rfl hslot hnext
    hl.cramped)

lemma createDirWithMode_ends : Spec (createDirWithMode env p name mode)
    (V.Ends (V.Leaks (.dir env mode) p name)) V := by
  rw [createDirWithMode]
  by_cases hlong : 60 < name.length
  · rw [if_pos hlong]
    exact Wp.throw (.refused (Nat.not_le.mpr hlong))
  rw [if_neg hlong]
  refine spec_newName h hr (fun _ hno => absurd hp.1 hno) (fun _ _ => .there) fun _ habsent => ?_
  have hshort := Nat.not_lt.mp hlong
  have hrecord : ∀ z, V.FirstFreeZone z → (dirRecord env mode (V.inode p) z).OnlyZone z :=
    fun z hz => dirRecord_onlyZone (zone_lt h hz.isData)
  have hrecord' : ∀ n z, V.NewChild p name true n z →
      (dirRecord env mode (V.inode p) z).OnlyZone z :=
    fun n z hnew => hrecord z (by simpa using hnew.zone)
  refine spec_addChild h hr hp.1 hshort habsent hrecord
    (fun n => do
      Prog.mapErr (fun _ => .invalidInode) (createDirEntry n dotName n)
      Prog.mapErr (fun _ => .invalidInode) (createDirEntry n dotDotName p)
      pure n)
    (fun e V' hm => hm.ends (Volume.leaks_iff hshort habsent) h hp hshort habsent rfl) ?_
  intro n z k y grown hnew hslot hnext
  have hm : Made V p name true (dirRecord env mode (V.inode p)) (some n) _ :=
    .made hnew hslot hnext.firstTried
  have hbare := hm.bareDir hrecord' (fun z _ => dirRecord_size env mode (V.inode p) z) hp
    (dirRecord_isDir env mode (V.inode p))
  have hz : V.FirstFreeZone z := by simpa using hnew.zone
  have hrec : ((V.withChild p n z (dirRecord env mode (V.inode p) z)).insertEntry p k y grown name
      n).inode n = dirRecord env mode (V.inode p) z :=
    (update_of_ne (hnew.ne_parent hp) _ _).trans (update_self ..)
  obtain ⟨hused, hdots⟩ := hnew.dotZones h hp hslot
  refine (spec_dotEntries (z := z) (by rw [hm.mount]; exact h) (hm.inRange h hr hrecord') hbare
    (by rw [hrec, (hrecord z hz).direct, if_pos rfl]) (zone_ne h hz.isData) hused).mono
    fun r W hend => ?_
  obtain ⟨himap, hiff⟩ := hend
  refine .of_iff (hiff.trans ?_) hnew.inode (himap ▸ update_self ..)
  rw [hdots, Volume.leaks_iff (c := .dir env mode) hshort habsent]
  have hleft := hnew.left h hp hslot n
  rw [Bool.toNat_true] at hleft
  constructor
  · intro hlt
    refine ⟨⟨n, hnew.inode.isInode, hnew.inode.free⟩, fun n' z' k' hn' hz' hk' => ?_⟩
    obtain rfl := hnew.inode.unique hn'
    obtain rfl := hz.unique (hz' rfl)
    obtain rfl := (V.indexed p).nextSlot_unique
      ((Volume.nextSlot_withChild (hnew.ne_parent hp).symm).mp hnext) hk'
    simp only [Creation.zoned, Creation.isDir, Bool.toNat_true, if_true]
    omega
  · intro hl
    have hlt := hl.2 n z k hnew.inode (fun _ => hz)
      ((Volume.nextSlot_withChild (hnew.ne_parent hp).symm).mp hnext)
    simp only [Creation.zoned, Creation.isDir, Bool.toNat_true, if_true] at hlt
    omega

lemma createSymlink_ends : Spec (createSymlink env p name target)
    (V.Ends (V.Leaks (.symlink env target) p name)) V := by
  rw [createSymlink]
  by_cases hlong : 60 < name.length
  · rw [if_pos hlong]
    exact Wp.throw (.refused fun ha => Nat.not_le.mpr hlong ha.1)
  rw [if_neg hlong]
  by_cases htarget : target = [] ∨ inodeInlineBytes < target.length
  · rw [if_pos htarget]
    refine Wp.throw (.refused fun ha => ?_)
    exact htarget.elim ha.2.1 (Nat.not_lt.mpr ha.2.2)
  rw [if_neg htarget]
  refine spec_newName h hr (fun _ hno => absurd hp.1 hno) (fun _ _ => .there) fun _ habsent => ?_
  have hshort := Nat.not_lt.mp hlong
  have haccepts : (Creation.symlink env target).Accepts name :=
    ⟨hshort, fun ht => htarget (.inl ht), Nat.not_lt.mp fun ht => htarget (.inr ht)⟩
  refine spec_addLink h hr hp.1 hshort habsent (symlinkInode_onlyZone env target)
    (fun e => .full (Volume.leaks_iff haccepts habsent))
    (fun e n => .noRoom (Volume.leaks_iff haccepts habsent) h hp) ?_
  intro n k y grown hnew hslot hnext
  exact .done fun hl => hnew.not_cramped (c := .symlink env target) h hp rfl hslot hnext hl.cramped

lemma Creation.ends (c : Creation) : Spec (c.exec p name) (V.Ends (V.Leaks c p name)) V := by
  cases c with
  | file env mode => exact createFileWithMode_ends h hr hp
  | dir env mode => exact createDirWithMode_ends h hr hp
  | symlink env target => exact createSymlink_ends h hr hp

end Creators

/-- A volume with nothing but the root directory, and every zone marked as used. -/
def crowdedFs : TwilightFs where
  superblock := Superblock.geometry 1024
  device := ⟨1024, fun k =>
    if k = 1 then Bytes.zero.putBit 0 true
    else if k = 2 then fun _ => 255
    else if k = 3 then Bytes.zero.splice 0 Inode.byteSize
      ((rootRecord ⟨0, 0, 0⟩ 7).withSize 128).encode
    else if k = 7 then (Bytes.zero.splice 0 64 (DirEntry.encode 1 dotName)).splice 64 64
      (DirEntry.encode 1 dotDotName)
    else Bytes.zero⟩
  mountMode := .readWrite
  shared := Shared.new

lemma AllOrNothing.inodeAfterFailure {x : FsM FsError Nat} {s : TwilightFs} {b : Bool}
    (h : AllOrNothing x s) (hb : Fs.inodeAfterFailure x s n = some b) : s.volume.imap n = b := by
  rw [Fs.inodeAfterFailure] at hb
  cases hx : x s with
  | ok a s' =>
    rw [hx] at hb
    cases hb
  | error e s' =>
    rw [hx] at hb
    rw [← (h e s' hx).imap]
    exact Option.some.inj hb

/-- One zone of the same volume is free, and an index whose next free slot is 33 is still cached
under the number 2, as a directory that was removed leaves it. -/
def staleFs : TwilightFs where
  superblock := Superblock.geometry 1024
  device := ⟨1024, update crowdedFs.device.data 2 (Bytes.putBit (fun _ => 255) 248 false)⟩
  mountMode := .readWrite
  shared := { Shared.new with dirIndexCache := ⟨0, Fifo.empty.insert 256 2 ⟨fun _ => none, 33⟩⟩ }

lemma staleFs_inRange : staleFs.volume.InRange := by
  have hslots : ∀ n : Fin 33, ∀ b : Fin 6, (staleFs.volume.inode n).directSlotGet b ≠ 0 →
      staleFs.volume.IsData ((staleFs.volume.inode n).directSlotGet b) := by decide +kernel
  intro n hn b
  by_cases hb : b < 6
  · exact hslots ⟨n, Nat.lt_succ_of_le hn.2⟩ ⟨b, hb⟩
  · intro h
    exact absurd (dif_neg hb) h

end Twilight.Fs

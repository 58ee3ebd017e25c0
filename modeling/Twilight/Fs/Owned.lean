/-
Who owns which zone.

An inode refers to zones from its direct slots, from its two pointer fields and
from the pointer blocks below them.  `Disk.Owned` says that over all allocated
inodes every reference goes to its own zone, which is a data zone marked as used.
The updates the directory operations make keep it.
-/
import Twilight.Lib.Exclusive
import Twilight.Fs.DirRules

namespace Twilight.Fs

open TwilightFs Function Inode Prod List

/-! ## References -/

/-- The places an inode refers to zones from. -/
inductive Pos
  | direct (b : Nat)
  | single
  | singleEntry (k : Nat)
  | double
  | l1 (j : Nat)
  | l2 (j k : Nat)
deriving DecidableEq

namespace Disk

/-- Entry `k` of the pointer block in zone `z`; zone 0 is no block. -/
def pointer (D : Disk) (z k : Nat) : Nat := if z = 0 then 0 else entryAt (D.block z) k

/-- The zone the inode refers to from `pos`, or 0. -/
def refOf (D : Disk) (i : Inode) : Pos → Nat
  | .direct b => i.directSlotGet b
  | .single => i.singleIndirectGet
  | .singleEntry k => D.pointer i.singleIndirectGet k
  | .double => i.doubleIndirectGet
  | .l1 j => D.pointer i.doubleIndirectGet j
  | .l2 j k => D.pointer (D.pointer i.doubleIndirectGet j) k

def Alloc (D : Disk) (n : Nat) : Prop := D.IsInode n ∧ D.imap n = true

instance (D : Disk) (n : Nat) : Decidable (D.Alloc n) := inferInstanceAs (Decidable (_ ∧ _))

def Holds (D : Disk) (r : Nat × Pos) (z : Nat) : Prop :=
  D.Alloc r.1 ∧ z ≠ 0 ∧ D.refOf (D.inode r.1) r.2 = z

structure Owned (D : Disk) : Prop where
  inRange : D.InRange
  isData : ∀ r z, D.Holds r z → D.IsData z
  exclusive : Exclusive (fun z => D.zmap z = true) D.Holds

inductive IsPointerBlock (D : Disk) (i : Inode) : Nat → Prop
  | single (h : i.singleIndirectGet ≠ 0) : IsPointerBlock D i i.singleIndirectGet
  | double (h : i.doubleIndirectGet ≠ 0) : IsPointerBlock D i i.doubleIndirectGet
  | l1 (j : Nat) (h : D.pointer i.doubleIndirectGet j ≠ 0) :
      IsPointerBlock D i (D.pointer i.doubleIndirectGet j)

variable {D : Disk} {z : Nat} {i : Inode}

lemma pointer_congr {D' : Disk} (h : z ≠ 0 → D'.block z = D.block z) (k : Nat) :
    D'.pointer z k = D.pointer z k := by
  by_cases hz : z = 0
  · simp [pointer, hz]
  · simp [pointer, hz, h hz]

lemma refOf_block {D' : Disk}
    (h : ∀ z, D.IsPointerBlock i z → D'.block z = D.block z) (pos : Pos) :
    D'.refOf i pos = D.refOf i pos := by
  have h1 : ∀ j, D'.pointer i.doubleIndirectGet j = D.pointer i.doubleIndirectGet j :=
    pointer_congr fun hz => h _ (.double hz)
  cases pos with
  | singleEntry k => exact pointer_congr (fun hz => h _ (.single hz)) k
  | l1 j => exact h1 j
  | l2 j k =>
    simp only [refOf]
    rw [h1 j]
    exact pointer_congr (fun hz => h _ (.l1 j hz)) k
  | _ => rfl

lemma refOf_inode {i' : Inode} (hd : ∀ b, i'.directSlotGet b = i.directSlotGet b)
    (hs : i'.singleIndirectGet = i.singleIndirectGet)
    (hdd : i'.doubleIndirectGet = i.doubleIndirectGet) (pos : Pos) :
    D.refOf i' pos = D.refOf i pos := by
  cases pos with
  | direct b => exact hd b
  | _ => simp only [refOf, hs, hdd]

lemma refOf_withSize (D : Disk) (i : Inode) (n : UInt64) (pos : Pos) :
    D.refOf (i.withSize n) pos = D.refOf i pos :=
  refOf_inode (fun _ => rfl) rfl rfl pos

lemma refOf_dropEntry (D : Disk) (i : Inode) (pos : Pos) :
    D.refOf i.dropEntry pos = D.refOf i pos := by
  unfold dropEntry
  split
  · exact D.refOf_withSize i _ pos
  · rfl

lemma refOf_directSlotSet {b : Nat} (hb : b < 6) (hz : z < 2 ^ 32)
    (pos : Pos) : D.refOf (i.directSlotSet b z) pos
      = if pos = .direct b then z else D.refOf i pos := by
  have hs : (i.directSlotSet b z).singleIndirectGet = i.singleIndirectGet :=
    congrArg UInt32.toNat (i.directSlotSet_indirect b z)
  have hd : (i.directSlotSet b z).doubleIndirectGet = i.doubleIndirectGet :=
    congrArg UInt32.toNat (i.directSlotSet_doubleIndirect b z)
  cases pos with
  | direct c =>
    simp only [refOf, Pos.direct.injEq]
    exact directSlotGet_set hb hz c
  | _ => simp [refOf, hs, hd]

lemma IsPointerBlock.holds {n : Nat} (hn : D.Alloc n)
    (h : D.IsPointerBlock (D.inode n) z) : ∃ pos, D.Holds (n, pos) z ∧ ∀ b, pos ≠ .direct b := by
  cases h with
  | single hz => exact ⟨.single, ⟨hn, hz, rfl⟩, fun b => nofun⟩
  | double hz => exact ⟨.double, ⟨hn, hz, rfl⟩, fun b => nofun⟩
  | l1 j hz => exact ⟨.l1 j, ⟨hn, hz, rfl⟩, fun b => nofun⟩

namespace Owned

variable {D D' : Disk} {z n : Nat}

lemma zone_lt (h : Layout D.mount) (hz : D.IsData z) : z < 2 ^ 32 := by
  have := h.onDevice
  have := h.addressable
  have hz2 : z < D.mount.sb.zones := hz.2
  omega

lemma zone_ne (h : Layout D.mount) (hz : D.IsData z) : z ≠ 0 := by
  have ht := h.table
  have hz1 : D.mount.sb.firstDataZone ≤ z := hz.1
  unfold Superblock.inodeTableStart at ht
  omega

section

variable (h : D.Owned)
include h

lemma used (hn : D.Alloc n) (pos : Pos)
    (hz : D.refOf (D.inode n) pos ≠ 0) : D.zmap (D.refOf (D.inode n) pos) = true :=
  h.exclusive.used (n, pos) _ ⟨hn, hz, rfl⟩

lemma inj {n' : Nat} (hn : D.Alloc n) (hn' : D.Alloc n') (pos pos' : Pos)
    (hz : D.refOf (D.inode n) pos ≠ 0)
    (he : D.refOf (D.inode n) pos = D.refOf (D.inode n') pos') : n = n' ∧ pos = pos' := by
  have := h.exclusive.inj (n, pos) (n', pos') _ ⟨hn, hz, rfl⟩ ⟨hn', hz, he.symm⟩
  exact ⟨congrArg fst this, congrArg snd this⟩

lemma not_pointerBlock (hn : D.Alloc n)
    (hz : (∃ p b, D.Holds (p, .direct b) z) ∨ D.zmap z = false) :
    ¬ D.IsPointerBlock (D.inode n) z := by
  intro hp
  obtain ⟨pos, hpos, hne⟩ := hp.holds hn
  rcases hz with ⟨p, b, hd⟩ | hfree
  · exact hne b (congrArg snd (h.exclusive.inj _ _ _ hpos hd))
  · rw [h.exclusive.used _ _ hpos] at hfree
    cases hfree

lemma refOf_write (hn : D.Alloc n) (hz : (∃ p b, D.Holds (p, .direct b) z) ∨ D.zmap z = false)
    (hblock : ∀ y, y ≠ z → D'.block y = D.block y) (pos : Pos) :
    D'.refOf (D.inode n) pos = D.refOf (D.inode n) pos := by
  apply refOf_block
  intro y hy
  apply hblock
  rintro rfl
  exact h.not_pointerBlock hn hz hy

lemma restrict (hm : D'.mount = D.mount) (hholds : ∀ r y, D'.Holds r y → D.Holds r y)
    (hzmap : ∀ r y, D'.Holds r y → D'.zmap y = D.zmap y)
    (hdirect : ∀ m b, (D'.inode m).directSlotGet b = (D.inode m).directSlotGet b) : D'.Owned := by
  have hdata : ∀ y, D.IsData y → D'.IsData y := fun y hy => by rwa [IsData, sb, hm]
  refine ⟨fun m hm' b hb => ?_, fun r y hr => hdata y (h.isData r y (hholds r y hr)),
    h.exclusive.restrict fun r y hr => ⟨hholds r y hr, ?_⟩⟩
  · rw [hdirect] at hb ⊢
    exact hdata _ (h.inRange m (by rwa [IsInode, sb, hm] at hm') b hb)
  · rw [hzmap r y hr]
    exact h.exclusive.used r y (hholds r y hr)

lemma rewrite (hm : D'.mount = D.mount) (himap : D'.imap = D.imap)
    (hzmap : D'.zmap = D.zmap) (hz : ∃ p b, D.Holds (p, .direct b) z)
    (hblock : ∀ y, y ≠ z → D'.block y = D.block y)
    (hinode : ∀ n pos, D'.refOf (D'.inode n) pos = D'.refOf (D.inode n) pos) : D'.Owned := by
  have halloc : ∀ n, D'.Alloc n → D.Alloc n := fun n hn => by
    rwa [Alloc, IsInode, sb, hm, himap] at hn
  refine h.restrict hm (fun r y hr => ⟨halloc _ hr.1, hr.2.1, ?_⟩) (fun _ _ _ => by rw [hzmap])
    fun m b => hinode m (.direct b)
  rw [← h.refOf_write (halloc _ hr.1) (.inl hz) hblock, ← hinode]
  exact hr.2.2

lemma sameRefs (hm : D'.mount = D.mount) (himap : D'.imap = D.imap) (hzmap : D'.zmap = D.zmap)
    (hrefs : ∀ n pos, D'.refOf (D'.inode n) pos = D.refOf (D.inode n) pos) : D'.Owned := by
  refine h.restrict hm ?_ (fun _ _ _ => by rw [hzmap]) fun m b => hrefs m (.direct b)
  rintro r y ⟨hn, hy, hr⟩
  rw [Alloc, IsInode, sb, hm, himap] at hn
  exact ⟨hn, hy, by rw [← hrefs]; exact hr⟩

lemma release (hm : D'.mount = D.mount) (hn : D.Alloc n) (himap : D'.imap = update D.imap n false)
    (hzmap : ∀ z, (∀ b, (D.inode n).directSlotGet b ≠ z) → D'.zmap z = D.zmap z)
    (hblock : D'.block = D.block) (hinode : D'.inode = D.inode) : D'.Owned := by
  have halloc : ∀ m, D'.Alloc m → D.Alloc m ∧ m ≠ n := by
    intro m hm'
    rw [Alloc, IsInode, sb, hm, himap] at hm'
    have hne : m ≠ n := by
      rintro rfl
      rw [update_self] at hm'
      exact Bool.noConfusion hm'.2
    rw [update_of_ne hne] at hm'
    exact ⟨hm', hne⟩
  have hholds : ∀ r y, D'.Holds r y → D.Holds r y := by
    intro r y hr
    refine ⟨(halloc _ hr.1).1, hr.2.1, ?_⟩
    have hsame : D'.refOf (D.inode r.1) r.2 = D.refOf (D.inode r.1) r.2 :=
      refOf_block (fun z _ => congrFun hblock z) _
    rw [← hsame, ← hinode]
    exact hr.2.2
  refine h.restrict hm hholds (fun r y hr => hzmap y fun b hb => ?_) fun m b => by rw [hinode]
  have := h.exclusive.inj r (n, .direct b) y (hholds r y hr) ⟨hn, hr.2.1, hb⟩
  exact (halloc _ hr.1).2 (congrArg fst this)

end

end Owned

end Disk

/-! ## A new inode -/

/-- The record has at most one zone, in slot 0. -/
structure Inode.OnlyZone (i : Inode) (z : Nat) : Prop where
  direct : ∀ b, i.directSlotGet b = if b = 0 then z else 0
  single : i.singleIndirectGet = 0
  double : i.doubleIndirectGet = 0

namespace Volume

variable (V : Volume) (n z : Nat) (i : Inode)

/-- Allocate inode `n` and its zone, if it has one, and store its record. -/
def newInode : Volume :=
  { V with
    imap := update V.imap n true
    zmap := if z = 0 then V.zmap else update V.zmap z true
    inode := update V.inode n i }

lemma newInode_inode : (V.newInode n z i).inode n = i := update_self ..

lemma newInode_imap : (V.newInode n z i).imap n = true := update_self ..

end Volume

variable {i : Inode} {z n : Nat}

lemma Inode.OnlyZone.refOf (h : i.OnlyZone z) (D : Disk) (pos : Pos) :
    D.refOf i pos = if pos = .direct 0 then z else 0 := by
  cases pos with
  | direct b => simpa [Disk.refOf] using h.direct b
  | _ => simp [Disk.refOf, Disk.pointer, h.single, h.double]

variable {V : Volume}

lemma Disk.InRange.newInode (h : V.InRange) (hi : i.OnlyZone z)
    (hz : z ≠ 0 → V.IsData z) : (V.newInode n z i).InRange := by
  intro m hm b hb
  by_cases hmn : m = n
  · subst hmn
    simp only [Volume.newInode, update_self] at hb ⊢
    rw [hi.direct] at hb ⊢
    split at hb
    · next hb0 => rw [if_pos hb0]; exact hz hb
    · exact absurd rfl hb
  · simp only [Volume.newInode, update_of_ne hmn] at hb ⊢
    exact h m hm b hb

lemma Disk.Owned.newInode (h : V.Owned) (hi : i.OnlyZone z)
    (hn : V.imap n = false) (hz : z ≠ 0 → V.IsData z ∧ V.zmap z = false) :
    (V.newInode n z i).Owned := by
  have hused : ∀ y, V.zmap y = true → (V.newInode n z i).zmap y = true := by
    intro y hy
    simp only [Volume.newInode]
    split
    · exact hy
    · by_cases hyz : y = z
      · rw [hyz, update_self]
      · rw [update_of_ne hyz, hy]
  -- a held zone was held before, or is the zone of the new inode
  have hholds : ∀ r y, (V.newInode n z i).Holds r y →
      (V.Holds r y ∧ r.1 ≠ n) ∨ (r = (n, .direct 0) ∧ y = z ∧ z ≠ 0) := by
    rintro ⟨m, pos⟩ y ⟨hm, hy, hr⟩
    by_cases hmn : m = n
    · subst hmn
      simp only [Volume.newInode, update_self] at hr
      rw [hi.refOf] at hr
      by_cases hpos : pos = .direct 0
      · rw [if_pos hpos] at hr
        exact .inr ⟨by rw [hpos], hr.symm, hr ▸ hy⟩
      · rw [if_neg hpos] at hr
        exact absurd hr.symm hy
    · have hm' : V.Alloc m := ⟨hm.1, by simpa [Volume.newInode, hmn] using hm.2⟩
      simp only [Volume.newInode, update_of_ne hmn] at hr
      refine .inl ⟨⟨hm', hy, ?_⟩, hmn⟩
      rw [← hr]
      exact (Disk.refOf_block (fun _ _ => rfl) pos).symm
  refine ⟨h.inRange.newInode hi fun hz0 => (hz hz0).1, fun r y hr => ?_, ?_⟩
  · rcases hholds r y hr with ⟨hv, -⟩ | ⟨-, rfl, hy⟩
    · exact h.isData r y hv
    · exact (hz hy).1
  refine h.exclusive.extend (F := fun r y => r = (n, .direct 0) ∧ y = z ∧ z ≠ 0)
    (fun r y hr => ?_) ?_ ?_
  · rcases hholds r y hr with ⟨hv, -⟩ | hf
    · exact .inl ⟨hv, hused y (h.exclusive.used r y hv)⟩
    · exact .inr hf
  · rintro r y ⟨-, rfl, hy⟩
    refine ⟨by rw [(hz hy).2]; exact Bool.false_ne_true, ?_⟩
    simp [Volume.newInode, hy]
  · rintro r r' y ⟨rfl, -⟩ ⟨rfl, -⟩
    rfl

/-! ## Entries -/

lemma Volume.insertEntry_holds (h : Layout V.mount) (ho : V.Owned) {p k : Nat} {grown : Bool}
    {name : Str} {child : Nat} (hp : V.Alloc p) (hslot : V.FreeSlot p k z grown) {r : Nat × Pos}
    {y : Nat} (hr : (V.insertEntry p k z grown name child).Holds r y) :
    V.Holds r y ∨ (grown = true ∧ r = (p, .direct (k / 32)) ∧ y = z) := by
  obtain ⟨m, pos⟩ := r
  obtain ⟨hm, hy, hr⟩ := hr
  have hm' : V.Alloc m := hm
  -- the block that is written holds no pointers
  have hz : (∃ q b, V.Holds (q, .direct b) z) ∨ V.zmap z = false := by
    cases grown with
    | false => exact .inl ⟨p, k / 32, hp, (hslot.kept rfl).2.1, (hslot.kept rfl).1⟩
    | true => exact .inr (hslot.new rfl).2.free
  have hwrite : ∀ i pos', (∀ q, i = V.inode q → V.Alloc q →
      (V.insertEntry p k z grown name child).refOf i pos' = V.refOf i pos') := by
    rintro i pos' q rfl hq
    exact ho.refOf_write hq hz (fun x hx => update_of_ne hx _ _) pos'
  by_cases hmp : m = p
  · subst hmp
    rw [Volume.insertEntry_self, Disk.refOf_withSize] at hr
    cases grown with
    | false =>
      rw [Disk.slotInode, if_neg Bool.false_ne_true, hwrite _ pos m rfl hm'] at hr
      exact .inl ⟨hm', hy, hr⟩
    | true =>
      rw [Disk.slotInode, if_pos rfl, Disk.refOf_directSlotSet (by have := hslot.lt; omega)
        (Disk.Owned.zone_lt h (hslot.new rfl).2.isData)] at hr
      by_cases hpos : pos = .direct (k / 32)
      · rw [if_pos hpos] at hr
        exact .inr ⟨rfl, by rw [hpos], hr.symm⟩
      · rw [if_neg hpos, hwrite _ pos m rfl hm'] at hr
        exact .inl ⟨hm', hy, hr⟩
  · have hrec : (V.insertEntry p k z grown name child).inode m = V.inode m := update_of_ne hmp _ _
    rw [hrec, hwrite _ pos m rfl hm'] at hr
    exact .inl ⟨hm', hy, hr⟩

lemma Disk.InRange.insertEntry (h : Layout V.mount) (hr : V.InRange) {p k : Nat}
    {grown : Bool} {name : Str} {child : Nat} (hslot : V.FreeSlot p k z grown) :
    (V.insertEntry p k z grown name child).InRange := by
  intro m hm b hb
  by_cases hmp : m = p
  · subst hmp
    simp only [Volume.insertEntry, update_self, withSize_directSlotGet] at hb ⊢
    cases grown with
    | false => exact hr m hm b hb
    | true =>
      simp only [slotInode, if_true] at hb ⊢
      rw [directSlotGet_set (by have := hslot.lt; omega)
        (Owned.zone_lt h (hslot.new rfl).2.isData)] at hb ⊢
      split
      · exact (hslot.new rfl).2.isData
      · next hne => rw [if_neg hne] at hb; exact hr m hm b hb
  · simp only [Volume.insertEntry, update_of_ne hmp] at hb ⊢
    exact hr m hm b hb

namespace Disk.Owned

variable {p : Nat}

lemma insertEntry (h : Layout V.mount) (ho : V.Owned) {k z : Nat} {grown : Bool}
    {name : Str} {child : Nat} (hp : V.Alloc p) (hslot : V.FreeSlot p k z grown) :
    (V.insertEntry p k z grown name child).Owned := by
  have hkeep : ∀ y, V.zmap y = true → (V.insertEntry p k z grown name child).zmap y = true := by
    intro y hy
    simp only [Volume.insertEntry]
    split
    · by_cases hyz : y = z
      · rw [hyz, update_self]
      · rw [update_of_ne hyz, hy]
    · exact hy
  refine ⟨ho.inRange.insertEntry h hslot, fun r y hr => ?_, ?_⟩
  · rcases Volume.insertEntry_holds h ho hp hslot hr with hv | ⟨hg, -, rfl⟩
    · exact ho.isData r y hv
    · exact (hslot.new hg).2.isData
  refine ho.exclusive.extend (F := fun r y => grown = true ∧ r = (p, .direct (k / 32)) ∧ y = z)
    (fun r y hr => ?_) ?_ ?_
  · rcases Volume.insertEntry_holds h ho hp hslot hr with hv | hf
    · exact .inl ⟨hv, hkeep y (ho.exclusive.used r y hv)⟩
    · exact .inr hf
  · rintro r y ⟨hg, -, rfl⟩
    refine ⟨by rw [(hslot.new hg).2.free]; exact Bool.false_ne_true, ?_⟩
    simp [Volume.insertEntry, hg]
  · rintro r r' y ⟨-, rfl, -⟩ ⟨-, rfl, -⟩
    rfl

lemma clearEntry (ho : V.Owned) {k : Nat} (hp : V.Alloc p)
    (hz : (V.inode p).directSlotGet (k / 32) ≠ 0) : (V.clearEntry p k).Owned := by
  refine ho.rewrite rfl rfl rfl ⟨p, k / 32, hp, hz, rfl⟩ ?_ ?_
  · intro y hy
    exact update_of_ne hy _ _
  intro n pos
  by_cases hn : n = p
  · subst hn
    simp only [Volume.clearEntry, Volume.putInode, update_self]
    exact refOf_dropEntry _ _ pos
  · simp only [Volume.clearEntry, Volume.putInode, Volume.putBlock, update_of_ne hn]

lemma putBlock (ho : V.Owned) {b : Nat} (hp : V.Alloc p)
    (hz : (V.inode p).directSlotGet b ≠ 0) (buf : Bytes) :
    (V.putBlock ((V.inode p).directSlotGet b) buf).Owned := by
  refine ho.rewrite rfl rfl rfl ⟨p, b, hp, hz, rfl⟩ ?_ ?_
  · intro y hy
    exact update_of_ne hy _ _
  · intro n pos
    rfl

end Disk.Owned

/-! ## Giving up an inode -/

def Inode.directZones (i : Inode) : List Nat := ((range 6).map i.directSlotGet).filter (· ≠ 0)

lemma Inode.mem_directZones :
    z ∈ i.directZones ↔ z ≠ 0 ∧ ∃ b, i.directSlotGet b = z := by
  simp only [directZones, mem_filter, mem_map, mem_range, decide_eq_true_eq, ne_eq]
  constructor
  · rintro ⟨⟨b, -, hb⟩, hz⟩
    exact ⟨hz, b, hb⟩
  · rintro ⟨hz, b, hb⟩
    refine ⟨⟨b, ?_, hb⟩, hz⟩
    by_contra hb6
    rw [i.directSlotGet_of_le (by omega)] at hb
    exact hz hb.symm

def Volume.release (V : Volume) (n : Nat) : Volume :=
  (V.setZones (V.inode n).directZones false).setImap n false

lemma Disk.Owned.releaseInode (ho : V.Owned) (hn : V.Alloc n) : (V.release n).Owned := by
  refine Disk.Owned.release ho rfl hn rfl ?_ rfl rfl
  intro z hz
  have hmem : z ∉ (V.inode n).directZones := by
    intro h
    obtain ⟨-, b, hb⟩ := mem_directZones.mp h
    exact hz b hb
  exact if_neg hmem

end Twilight.Fs

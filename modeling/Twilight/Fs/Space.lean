/-
Room for new files and directories.

A creation fails only for a reason: a bad name or parent, no free inode, no free
zone or no free slot.  With a number of free zones that covers what it takes, and
a block of the parent directory still unused, it succeeds.
-/
import Mathlib.Data.Finset.Card
import Mathlib.Order.Interval.Finset.Nat
import Twilight.Fs.Names

namespace Twilight.Fs

open TwilightFs Function Finset Disk Volume

namespace Disk

variable {D D' : Disk}

def freeZones (D : Disk) : Finset Nat :=
  (Finset.Ico D.sb.firstDataZone D.sb.zones).filter fun z => D.zmap z = false

lemma mem_freeZones {z : Nat} : z ∈ D.freeZones ↔ D.IsData z ∧ D.zmap z = false := by
  rw [freeZones, mem_filter, mem_Ico]
  rfl

lemma not_full_of_freeZones (D : Disk) (h : 0 < D.freeZones.card) : ¬ D.Full := by
  intro hfull
  obtain ⟨z, hz⟩ := card_pos.mp h
  rw [mem_freeZones] at hz
  have hused := hfull z hz.1
  rw [hz.2] at hused
  cases hused

lemma freeZones_take {z : Nat} (hm : D'.mount = D.mount)
    (hz : ∀ y, y ≠ z → D'.zmap y = D.zmap y) :
    D.freeZones.card ≤ D'.freeZones.card + 1 := by
  have hsub : D.freeZones.erase z ⊆ D'.freeZones := by
    intro y hy
    obtain ⟨hyz, hy⟩ := mem_erase.mp hy
    rw [mem_freeZones] at hy ⊢
    exact ⟨by rw [IsData, sb, hm]; exact hy.1, by rw [hz y hyz]; exact hy.2⟩
  have hcard := card_le_card hsub
  have herase := pred_card_le_card_erase (s := D.freeZones) (a := z)
  omega

end Disk

def Inode.unusedBlocks (i : Inode) : Finset Nat := (range 6).filter fun b => i.directSlotGet b = 0

lemma Inode.unusedBlocks_take {i i' : Inode} {c : Nat}
    (h : ∀ b, b ≠ c → i'.directSlotGet b = i.directSlotGet b) :
    i.unusedBlocks.card ≤ i'.unusedBlocks.card + 1 := by
  have hsub : i.unusedBlocks.erase c ⊆ i'.unusedBlocks := by
    intro b hb
    obtain ⟨hbc, hb⟩ := mem_erase.mp hb
    rw [unusedBlocks, mem_filter] at hb ⊢
    exact ⟨hb.1, by rw [h b hbc]; exact hb.2⟩
  have hcard := card_le_card hsub
  have herase := pred_card_le_card_erase (s := i.unusedBlocks) (a := c)
  omega

lemma Inode.OnlyZone.unusedBlocks {i : Inode} {z : Nat} (h : i.OnlyZone z) :
    5 ≤ i.unusedBlocks.card := by
  have hsub : Finset.Ico 1 6 ⊆ i.unusedBlocks := by
    intro b hb
    obtain ⟨h1, h6⟩ := mem_Ico.mp hb
    rw [Inode.unusedBlocks, mem_filter, mem_range, h.direct, if_neg (by omega)]
    exact ⟨h6, rfl⟩
  exact card_le_card hsub

lemma Volume.not_noRoom {V : Volume} {p : Nat} (hzones : 0 < V.freeZones.card)
    (hblocks : 0 < (V.inode p).unusedBlocks.card) : ¬ V.NoRoom p := by
  intro hno
  obtain ⟨b, hb⟩ := card_pos.mp hblocks
  rw [Inode.unusedBlocks, mem_filter, mem_range] at hb
  obtain ⟨k, hk⟩ := V.exists_nextSlot (p := p) fun htaken => by
    apply (htaken (b * 32) (by omega)).mapped
    rw [Nat.mul_div_cancel b (by decide)]
    exact hb.2
  exact not_full_of_freeZones _ hzones (hno k hk).2

variable {V V' : Volume} {p n z k y b : Nat} {name : Str} {record : Nat → Inode}

lemma Volume.freeZones_newInode (V : Volume) (n z : Nat) (i : Inode) :
    V.freeZones.card ≤ (V.newInode n z i).freeZones.card + 1 := by
  refine freeZones_take (z := z) ?_ ?_
  · rfl
  intro y hy
  rw [newInode]
  split
  · rfl
  · exact update_of_ne hy _ _

lemma Volume.freeZones_insertEntry (V : Volume) (p k z : Nat) (grown : Bool) (name : Str)
    (child : Nat) :
    V.freeZones.card ≤ (V.insertEntry p k z grown name child).freeZones.card + 1 := by
  refine freeZones_take (z := z) ?_ ?_
  · rfl
  intro y hy
  rw [insertEntry]
  split
  · exact update_of_ne hy _ _
  · rfl

lemma Volume.unusedBlocks_insertEntry (h : Layout V.mount) {grown : Bool}
    (hslot : V.FreeSlot p k z grown) (name : Str) (child : Nat) : (V.inode p).unusedBlocks.card ≤
      ((V.insertEntry p k z grown name child).inode p).unusedBlocks.card + 1 := by
  apply Inode.unusedBlocks_take (c := k / 32)
  intro b hb
  rw [V.insertEntry_directSlotGet h hslot, if_neg hb]

structure Volume.RoomFor (V : Volume) (p : Nat) (name : Str) : Prop where
  parent : V.Alloc p
  short : name.length ≤ 60
  absent : (V.index p).names name = none
  inode : ∃ n, V.FirstFreeInode n
  zones : 4 ≤ V.freeZones.card
  blocks : 0 < (V.inode p).unusedBlocks.card

variable {zoned : Bool}

lemma Volume.NewChild.ne_parent (hnew : V.NewChild p name zoned n z)
    (hp : V.Alloc p) : n ≠ p := by
  rintro rfl
  have hfree := hnew.inode.free
  rw [hp.2] at hfree
  cases hfree

lemma Made.success {o : Option Nat} (hroom : V.RoomFor p name)
    (hm : Made V p name true record o V') : ∃ n, o = some n := by
  have hzones := hroom.zones
  cases hm with
  | refused hbad => exact absurd hroom.parent.1 (hbad rfl hroom.short)
  | looked hp hno =>
    obtain ⟨n, hn⟩ := hroom.inode
    have hused := hno hroom.absent n hn.isInode
    rw [hn.free] at hused
    cases hused
  | noZone hp hn hz hfull => exact absurd hfull (not_full_of_freeZones _ (by omega))
  | @noRoom n z hnew hno =>
    have hinode : (V.withChild p n z (record z)).inode p = V.inode p :=
      update_of_ne (hnew.ne_parent hroom.parent).symm _ _
    have hleft : V.freeZones.card ≤ (V.withChild p n z (record z)).freeZones.card + 1 :=
      (V.indexed p).freeZones_newInode n z (record z)
    refine absurd hno (not_noRoom (by omega) ?_)
    rw [hinode]
    exact hroom.blocks
  | made hnew hslot hfirst => exact ⟨_, rfl⟩

lemma Made.freeZones {o : Option Nat} (hm : Made V p name zoned record o V') :
    V.freeZones.card ≤ V'.freeZones.card + 2 := by
  have hchild : ∀ n z, V.freeZones.card ≤ (V.withChild p n z (record z)).freeZones.card + 1 :=
    fun n z => (V.indexed p).freeZones_newInode n z (record z)
  have hlooked : V.freeZones.card = (V.indexed p).freeZones.card := rfl
  cases hm with
  | refused hbad => omega
  | looked hp hno => omega
  | @noZone n hp hn hz hfull =>
    have hset : V.freeZones.card = ((V.indexed p).setImap n true).freeZones.card := rfl
    omega
  | @noRoom n z hnew hno =>
    have := hchild n z
    omega
  | @made n z k y grown hnew hslot hfirst =>
    have := hchild n z
    have := (V.withChild p n z (record z)).freeZones_insertEntry p k y grown name n
    omega

lemma Made.record_eq (hp : V.Alloc p)
    (hm : Made V p name zoned record (some n) V') : ∃ z, V'.inode n = record z ∧
      V.NewChild p name zoned n z := by
  cases hm with
  | @made _ z k y grown hnew hslot hfirst =>
    exact ⟨z, (update_of_ne (hnew.ne_parent hp) _ _).trans (update_self ..), hnew⟩

lemma Made.blocks (h : Layout V.mount) (hp : V.Alloc p)
    (hm : Made V p name zoned record (some n) V') :
    (V.inode p).unusedBlocks.card ≤ (V'.inode p).unusedBlocks.card + 1 := by
  cases hm with
  | @made _ z k y grown hnew hslot hfirst =>
    have hinode : (V.withChild p n z (record z)).inode p = V.inode p :=
      update_of_ne (hnew.ne_parent hp).symm _ _
    have hle := unusedBlocks_insertEntry (V := V.withChild p n z (record z)) h hslot name n
    rwa [hinode] at hle

section Dir

variable (h : Layout V.mount) (hp : V.Alloc p)
  (hrecord : ∀ n z, V.NewChild p name true n z → (record z).OnlyZone z)
include h hp hrecord

omit h in
lemma Made.blocks_new (hm : Made V p name true record (some n) V') :
    5 ≤ (V'.inode n).unusedBlocks.card := by
  obtain ⟨z, hrec, hnew⟩ := hm.record_eq hp
  rw [hrec]
  exact (hrecord n z hnew).unusedBlocks

lemma MadeDir.blocks (hm : MadeDir V p name record (some n) V') :
    3 ≤ (V'.inode n).unusedBlocks.card ∧
      (V.inode p).unusedBlocks.card ≤ (V'.inode p).unusedBlocks.card + 1 ∧
      V.freeZones.card ≤ V'.freeZones.card + 4 := by
  cases hm with
  | @made _ k y k' y' grown grown' W hW hslot hfirst hslot' hfirst' =>
    have hWl : Layout W.mount := by rw [hW.mount]; exact h
    have hnew := hW.blocks_new hp hrecord
    have hparent := hW.blocks h hp
    have hdot := W.unusedBlocks_insertEntry hWl hslot dotName n
    have hdotDot := (W.insertEntry n k y grown dotName n).unusedBlocks_insertEntry hWl
      hslot' dotDotName p
    have hz := hW.freeZones
    have hz1 := W.freeZones_insertEntry n k y grown dotName n
    have hz2 := (W.insertEntry n k y grown dotName n).freeZones_insertEntry n k' y' grown'
      dotDotName p
    obtain ⟨z, -, hchild⟩ := hW.record_eq hp
    have hrec : (((W.insertEntry n k y grown dotName n).insertEntry n k' y' grown' dotDotName
        p).inode p) = W.inode p := by
      have hne : p ≠ n := (hchild.ne_parent hp).symm
      exact (update_of_ne hne _ _).trans (update_of_ne hne _ _)
    rw [hrec]
    omega

lemma MadeDir.success {o : Option Nat} (hroom : V.RoomFor p name)
    (hm : MadeDir V p name record o V') : ∃ n, o = some n := by
  have hzones := hroom.zones
  cases hm with
  | failed hW =>
    obtain ⟨n, hn⟩ := hW.success hroom
    cases hn
  | noDot hW hno =>
    have hleft := hW.freeZones
    have hblocks := hW.blocks_new hp hrecord
    exact absurd hno (not_noRoom (by omega) (by omega))
  | @noDotDot n k y grown W hW hslot hfirst hno =>
    have hleft := hW.freeZones
    have hdot := W.freeZones_insertEntry n k y grown dotName n
    have hblocks := hW.blocks_new hp hrecord
    have hdotBlocks := W.unusedBlocks_insertEntry (by rw [hW.mount]; exact h) hslot dotName n
    exact absurd hno (not_noRoom (by omega) (by omega))
  | made hW hslot hfirst hslot' hfirst' => exact ⟨_, rfl⟩

end Dir

end Twilight.Fs

/-
An open file as an array of bytes.

`Volume.Opened` says that a node's copy of a record is the one on the disk and
that the file is dense.  On such a file a write that starts at or before the end,
and stays below the writer's capacity, overwrites and appends; shrinking keeps
the first bytes and growing appends zeros; `read` returns the bytes.  The zones a
call takes are exactly those that a file of the new length needs more.
-/
import Twilight.Fs.FileRead

namespace Twilight.Fs

open Node Function List Disk Finset Nat UInt64

/-- `data` put over a list at position `off`, which is in it or at its end. -/
def overwrite {α : Type} (old : List α) (off : Nat) (data : List α) : List α :=
  old.take off ++ data ++ old.drop (off + data.length)

section

variable {α : Type} {old data : List α} {off : Nat}

lemma getElem?_overwrite (h : off ≤ old.length) (p : Nat) :
    (overwrite old off data)[p]? =
      if off ≤ p ∧ p < off + data.length then data[p - off]? else old[p]? := by
  have htake : (old.take off).length = off := by rw [length_take]; omega
  rw [overwrite, append_assoc]
  by_cases h1 : p < off
  · rw [List.getElem?_append_left (by omega), if_neg (by omega), List.getElem?_take_of_lt h1]
  rw [List.getElem?_append_right (by omega), htake]
  by_cases h2 : p < off + data.length
  · rw [List.getElem?_append_left (by omega), if_pos (by omega)]
  · rw [List.getElem?_append_right (by omega), if_neg (by omega), List.getElem?_drop]
    congr 1
    omega

lemma map_overwrite {β : Type} (f : α → β) :
    (overwrite old off data).map f = overwrite (old.map f) off (data.map f) := by
  simp [overwrite]

end

/-- A node whose record is the one on the disk, on a dense, unencrypted file of `m` blocks. -/
structure Volume.Opened (V : Volume) (env : NodeEnv) (i : Inode) (m : Nat) : Prop where
  layout : Layout V.mount
  owned : V.Owned
  alloc : V.Alloc env.inodeNo
  record : V.inode env.inodeNo = i
  plain : i.isEncrypted = false
  notInline : i.isInline = false
  dense : V.Dense i m
  cached : i.size = 0 ∨ V.CacheTrue env i

namespace Volume.Opened

variable {V : Volume} {env : NodeEnv} {i : Inode} {m : Nat}

lemma maps (h : V.Opened env i m) : V.Maps (V.refOf i) := by
  have := h.owned.maps h.alloc
  rwa [h.record] at this

end Volume.Opened

/-! ## Ownership after a write -/

section

variable {V : Volume} {i i' : Inode} {N : Finset Pos} {n lba : Nat} {data : List UInt8}
  {M : Pos → Nat} {ps : List Pos} {A : List Nat} {B : Nat → Bytes}

section

variable (h : Wrote V i N lba data M ps A B i')
include h

lemma Wrote.refOf (p : Pos) : (V.wrote n A B i').refOf i' p = M p :=
  Pointers.refOf (D := (V.wrote n A B i').toDisk) h.pointers h.direct p

lemma Wrote.block_of_held (ho : V.Owned) (hn : V.Alloc n)
    (hi : V.inode n = i) {r : Nat × Pos} {z : Nat} (hr : V.Holds r z) (hne : r.1 ≠ n) :
    B z = V.block z := by
  have hout : ∀ p, z ≠ M p := by
    intro p he
    have hz : M p ≠ 0 := he ▸ hr.2.1
    rcases h.zoned.old_or_new p with hp | ⟨hmem, h₀⟩
    · have hold : V.Holds (n, p) z := ⟨hn, hr.2.1, by rw [hi, he, hp]⟩
      exact hne (congrArg Prod.fst (ho.exclusive.inj _ _ _ hr hold))
    · have hfree := (h.zoned.new_free hmem h₀).2
      rw [← he, ho.exclusive.used r z hr] at hfree
      cases hfree
  exact h.outside z (hout _) (hout _) (hout _) fun j _ _ => hout _

lemma Wrote.owned (ho : V.Owned) (hn : V.Alloc n)
    (hi : V.inode n = i) : (V.wrote n A B i').Owned := by
  have hfresh : ∀ p, p ∈ ps → V.refOf i p = 0 →
      V.IsData (M p) ∧ V.zmap (M p) = false ∧ M p ∈ A := fun p hp h₀ =>
    ⟨(h.zoned.new_free hp h₀).1, (h.zoned.new_free hp h₀).2, h.zoned.mem_of_new hp h₀⟩
  have hused : ∀ z, V.zmap z = true → (V.wrote n A B i').zmap z = true := by
    intro z hz
    show (V.taking A B).zmap z = true
    rw [Volume.taking_zmap, hz]
    exact ite_self true
  have hself : (V.wrote n A B i').inode n = i' := update_self ..
  have hother : ∀ k, k ≠ n → (V.wrote n A B i').inode k = V.inode k := fun k hk =>
    update_of_ne hk _ _
  -- a held zone was held before, or is a new zone of the file
  have hholds : ∀ r z, (V.wrote n A B i').Holds r z → V.Holds r z ∨
      (r.1 = n ∧ r.2 ∈ ps ∧ V.refOf i r.2 = 0 ∧ z = M r.2) := by
    rintro ⟨k, p⟩ z ⟨hk, hz, hr⟩
    have hk' : V.Alloc k := hk
    by_cases hkn : k = n
    · subst hkn
      simp only at hr
      rw [hself, h.refOf] at hr
      rcases h.zoned.old_or_new p with hp | ⟨hmem, h₀⟩
      · exact .inl ⟨hk', hz, by rw [hi, ← hp]; exact hr⟩
      · exact .inr ⟨rfl, hmem, h₀, hr.symm⟩
    · simp only at hr
      rw [hother k hkn, refOf_block (D := V.toDisk)] at hr
      · exact .inl ⟨hk', hz, hr⟩
      · intro y hy
        obtain ⟨q, hq, -⟩ := hy.holds hk'
        exact h.block_of_held ho hn hi hq hkn
  refine ⟨fun k hk b hb => ?_, fun r z hr => ?_, ?_⟩
  · by_cases hkn : k = n
    · subst hkn
      rw [hself, h.direct] at hb ⊢
      rcases h.zoned.old_or_new (.direct b) with hp | ⟨hmem, h₀⟩
      · rw [hp] at hb ⊢
        exact ho.isData (k, .direct b) _ ⟨hn, hb, by rw [hi]⟩
      · exact (hfresh _ hmem h₀).1
    · rw [hother k hkn] at hb ⊢
      exact ho.inRange k hk b hb
  · rcases hholds r z hr with hv | ⟨-, hmem, h₀, rfl⟩
    · exact ho.isData r z hv
    · exact (hfresh _ hmem h₀).1
  · refine ho.exclusive.extend
      (F := fun r z => r.1 = n ∧ r.2 ∈ ps ∧ V.refOf i r.2 = 0 ∧ z = M r.2) (fun r z hr => ?_) ?_ ?_
    · rcases hholds r z hr with hv | hf
      · exact .inl ⟨hv, hused z (ho.exclusive.used r z hv)⟩
      · exact .inr hf
    · rintro r z ⟨-, hmem, h₀, rfl⟩
      obtain ⟨-, hfree, hA⟩ := hfresh _ hmem h₀
      refine ⟨by rw [hfree]; exact Bool.false_ne_true, ?_⟩
      show (V.taking A B).zmap _ = true
      rw [Volume.taking_zmap, if_pos hA]
    · rintro ⟨k, p⟩ ⟨k', p'⟩ z ⟨rfl, hmem, -, hz⟩ ⟨rfl, -, -, hz'⟩
      have hM : V.Maps (V.refOf i) := by
        have := ho.maps hn
        rwa [hi] at this
      have := h.zoned.inj hM (h.zoned.mapped _ hmem) (hz.symm.trans hz')
      simp only at this
      rw [this]

end

end

/-! ## A write that starts in the file or at its end -/

def newPlaces (m e : Nat) : Finset Pos := places e \ places m

lemma card_newPlaces (m e : Nat) :
    (newPlaces m e).card + zonesFor m = zonesFor (max m e) := by
  have h : newPlaces m e = places (max m e) \ places m := by
    rcases Nat.le_total e m with hem | hme
    · rw [Nat.max_eq_left hem, newPlaces, Finset.sdiff_self, Finset.sdiff_eq_empty_iff_subset]
      exact places_mono hem
    · rw [Nat.max_eq_right hme, newPlaces]
  have hsub : places m ⊆ places (max m e) := places_mono (Nat.le_max_left m e)
  have hle := zonesFor_mono (Nat.le_max_left m e)
  rw [h, card_sdiff_of_subset hsub, card_places, card_places]
  omega

section

variable {V : Volume} {i i' : Inode} {n lba m : Nat} {data : List UInt8} {M : Pos → Nat}
  {ps : List Pos} {A : List Nat} {B : Nat → Bytes}

section

variable (h : Wrote V i (newPlaces m (endBlock lba data.length)) lba data M ps A B i')
include h

lemma Wrote.mapped (hd : V.Dense i m) (hlba : lba ≤ i.size.toNat) (p : Pos) :
    M p ≠ 0 ↔ p ∈ places (max m (endBlock lba data.length)) := by
  have hsize := hd.size
  constructor
  · intro hp
    rcases h.zoned.old_or_new p with he | ⟨hmem, h₀⟩
    · rw [he] at hp
      exact places_mono (Nat.le_max_left _ _) ((hd.mapped p).mp hp)
    · have := mem_sdiff.mp (h.zoned.within p hmem h₀)
      exact places_mono (le_max_right _ _) this.1
  intro hp
  by_cases hold : p ∈ places m
  · have := (hd.mapped p).mpr hold
    rwa [h.zoned.kept p (.inl this)]
  -- a place past the old ones was visited
  rcases mem_places.mp hp with ⟨j, hj, rfl⟩ | ⟨h6, rfl⟩ | ⟨h517, he⟩
  · have hjm : ¬ j < m := fun hlt => hold (posOf_mem_places.mpr hlt)
    exact h.zoned.mapped _ ((h.visited j).mpr ⟨by omega, by omega⟩)
  · have hm : ¬ 6 < m := fun hlt => hold (mem_places_pointer.1.mpr hlt)
    exact h.single (by omega)
  have hm : ¬ 517 < m := fun hlt => by
    rcases he with rfl | rfl
    · exact hold (mem_places_pointer.2.mpr hlt)
    · exact hold (mem_places_l1.mpr ⟨hlt, rfl⟩)
  have hboth := h.double (by omega)
  rcases he with rfl | rfl
  · exact hboth.1
  · exact hboth.2

lemma Wrote.dense
    (hd : V.Dense i m) (hlba : lba ≤ i.size.toNat) (hcap : lba + data.length ≤ 1028 * 2048) :
    (V.wrote n A B i').Dense i' (max m (endBlock lba data.length)) := by
  have hm := hd.cap
  have hsize := hd.size
  refine ⟨fun p => ?_, ?_, ?_⟩
  · rw [h.refOf]
    exact h.mapped hd hlba p
  · unfold endBlock
    omega
  · rw [h.size]
    unfold endBlock
    omega

lemma Wrote.content (hM : V.Maps (V.refOf i)) (hd : V.Dense i m) (hlba : lba ≤ i.size.toNat) :
    (V.wrote n A B i').content i' = overwrite (V.content i) lba data := by
  have hlen : lba ≤ (V.content i).length := by rwa [V.length_content]
  have hsize := hd.size
  refine ext_getElem? fun p => ?_
  rw [getElem?_overwrite hlen]
  by_cases hp : p < max i.size.toNat (lba + data.length)
  · have hget : ((V.wrote n A B i').content i')[p]? = some (byteOf B M p) := by
      have hM' : (V.wrote n A B i').refOf i' = M := funext h.refOf
      rw [Disk.content, h.size, List.getElem?_map, List.getElem?_range hp, Option.map_some, hM']
      rfl
    have hmul : p / 2048 * 2048 + p % 2048 = p := by omega
    rw [hget]
    by_cases hin : lba ≤ p ∧ p < lba + data.length
    · -- written
      have hblock : lba / 2048 ≤ p / 2048 ∧ p / 2048 < endBlock lba data.length := by
        unfold endBlock
        omega
      rw [if_pos hin, byteOf, h.inside _ hblock.1 hblock.2 _ (mod_lt p (by decide)), newByte,
        hmul, if_pos hin, getD_eq_getElem?_getD, List.getElem?_eq_getElem (by omega)]
      rfl
    · -- kept
      have hold : V.refOf i (posOf (p / 2048)) ≠ 0 := hd.block (by omega)
      have hsame : M (posOf (p / 2048)) = V.refOf i (posOf (p / 2048)) := h.zoned.kept _ (.inl hold)
      have hbyte : byteOf B M p = byteOf V.block (V.refOf i) p := by
        rw [byteOf, byteOf, ← hsame]
        by_cases hblock : lba / 2048 ≤ p / 2048 ∧ p / 2048 < endBlock lba data.length
        · rw [h.inside _ hblock.1 hblock.2 _ (mod_lt p (by decide)), newByte, hmul,
            if_neg hin, if_neg hold]
        have hne : ∀ q, q ≠ posOf (p / 2048) → M (posOf (p / 2048)) ≠ M q := by
          intro q hq he
          exact hq (h.zoned.inj hM (hsame ▸ hold) he).symm
        obtain ⟨h1, h2, h3⟩ := posOf_ne_pointer (p / 2048)
        rw [h.outside _ (hne _ h1.symm) (hne _ h2.symm) (hne _ (h3 0).symm) fun j hj1 hj2 =>
          hne _ fun he => hblock (posOf_inj he ▸ ⟨hj1, hj2⟩)]
      rw [if_neg hin, hbyte, Disk.content, List.getElem?_map, List.getElem?_range (by omega)]
      rfl
  · have hout : ¬ (lba ≤ p ∧ p < lba + data.length) := by omega
    rw [if_neg hout, List.getElem?_eq_none (by rw [length_content, h.size]; omega),
      List.getElem?_eq_none (by rw [length_content]; omega)]

lemma Wrote.freeZones (hd : V.Dense i m) (hlba : lba ≤ i.size.toNat) :
    (V.wrote n A B i').freeZones.card + zonesFor (max m (endBlock lba data.length))
      = V.freeZones.card + zonesFor m := by
  have hfresh : V.Fresh A := by
    have := h.zoned.fresh
    rwa [append_nil] at this
  have hcard := hfresh.freeZones_card B
  have hsame : (V.wrote n A B i').freeZones = (V.taking A B).freeZones := rfl
  have hA : A.length = (newPlaces m (endBlock lba data.length)).card := by
    rw [h.zoned.zones, length_map, ← toFinset_card_of_nodup (h.zoned.nodup.filter _)]
    congr 1
    ext p
    rw [mem_toFinset, mem_filter, newPlaces, mem_sdiff, decide_eq_true_eq]
    constructor
    · rintro ⟨hmem, h₀⟩
      exact mem_sdiff.mp (h.zoned.within p hmem h₀)
    rintro ⟨he, hm⟩
    have h₀ := hd.eq_zero hm
    have hne : M p ≠ 0 := (h.mapped hd hlba p).mpr (places_mono (le_max_right _ _) he)
    rcases h.zoned.old_or_new p with hp | hp
    · exact absurd (hp.trans h₀) hne
    · exact hp
  have := card_newPlaces m (endBlock lba data.length)
  rw [hsame]
  omega

end

end

namespace Volume.Opened

variable {V : Volume} {env : NodeEnv} {i : Inode} {m lba : Nat} {data : List UInt8}

variable {Q : NPost Unit} {len : Nat}

section

variable (h : V.Opened env i m)
include h

lemma write (hdata : 0 < data.length) (hlba : lba ≤ i.size.toNat)
    (hcap : lba + data.length ≤ 1028 * 2048)
    (hspace : zonesFor (max m (endBlock lba data.length)) ≤ V.freeZones.card + zonesFor m)
    (hQ : ∀ V' i', V'.Opened env i' (max m (endBlock lba data.length)) →
      V'.content i' = overwrite (V.content i) lba data →
      V'.freeZones.card + zonesFor (max m (endBlock lba data.length))
        = V.freeZones.card + zonesFor m → Q (.ok ()) V' i') :
    NSpec (write env lba data) Q V i := by
  have hN := card_newPlaces m (endBlock lba data.length)
  have hsupply : V.Supply (V.refOf i) (newPlaces m (endBlock lba data.length))
      (endBlock lba data.length) := by
    refine ⟨h.layout, h.maps, by omega, fun p hp h₀ => ?_⟩
    exact mem_sdiff.mpr ⟨hp, fun hm => (h.dense.mapped p).mpr hm h₀⟩
  refine write_spec hsupply h.alloc.1 hdata hcap h.plain fun M ps A B i' hw => ?_
  have hflags := hw.flags
  refine hQ _ i' ⟨h.layout, hw.owned h.owned h.alloc h.record, h.alloc, update_self .., ?_, ?_,
    hw.dense h.dense hlba hcap, .inr fun d hd => ?_⟩ (hw.content h.maps h.dense hlba)
    (hw.freeZones h.dense hlba)
  · rw [Inode.isEncrypted, hflags]
    exact h.plain
  · rw [Inode.isInline, hflags]
    exact h.notInline
  · -- the cached content was dropped
    have hnone : (V.files.invalidateInode env.inodeNo).map env.inodeNo = none := by simp
    have hd' : (V.files.invalidateInode env.inodeNo).map env.inodeNo = some d := hd
    rw [hnone] at hd'
    cases hd'

lemma writeZeros {cap remaining : Nat} (hcap : cap ≤ 1028) (hm : m ≤ cap)
    (hspace : zonesFor cap ≤ V.freeZones.card + zonesFor m)
    (hend : i.size.toNat + remaining ≤ cap * 2048)
    (hQ : ∀ V' i' m', V'.Opened env i' m' → m' ≤ cap →
      V'.content i' = V.content i ++ replicate remaining 0 →
      V'.freeZones.card + zonesFor m' = V.freeZones.card + zonesFor m → Q (.ok ()) V' i') :
    NSpec (Node.writeZeros env i.size.toNat remaining) Q V i := by
  induction hr : remaining using Nat.strong_induction_on generalizing remaining V i m with
  | _ n ih =>
  subst hr
  rw [Node.writeZeros]
  by_cases h0 : remaining = 0
  · subst h0
    rw [if_pos rfl]
    exact NSpec.pure (hQ V i m h hm (by simp) rfl)
  rw [if_neg h0]
  simp only
  have hlen : (replicate (min remaining 2048) (0 : UInt8)).length = min remaining 2048 :=
    length_replicate
  have hblock : endBlock i.size.toNat (replicate (min remaining 2048) (0 : UInt8)).length
      ≤ cap := by
    rw [hlen, endBlock]
    omega
  have hmax := zonesFor_mono (show max m (endBlock i.size.toNat
    (replicate (min remaining 2048) (0 : UInt8)).length) ≤ cap by omega)
  refine NSpec.bind (h.write (by omega) (le_refl _) (by omega) (by omega) ?_)
  intro V' i' h' hcontent hfree
  have hover : overwrite (V.content i) i.size.toNat (replicate (min remaining 2048) 0)
      = V.content i ++ replicate (min remaining 2048) 0 := by
    rw [overwrite, ← V.length_content i, take_length, drop_eq_nil_of_le (by omega), append_nil]
  rw [hover] at hcontent
  have hsize : i'.size.toNat = i.size.toNat + min remaining 2048 := by
    rw [← V'.length_content i', hcontent, length_append, V.length_content, hlen]
  rw [← hsize]
  refine ih (remaining - min remaining 2048) (by omega) h' (by omega) (by omega) (by omega) ?_ rfl
  intro V'' i'' m'' h'' hm'' hcontent' hfree'
  refine hQ V'' i'' m'' h'' hm'' ?_ (by omega)
  rw [hcontent', hcontent, append_assoc, replicate_append_replicate]
  congr 2
  omega

lemma shrink (hlen : len ≤ i.size.toNat)
    {V' : Volume} (hV' : V' = { V.putInode env.inodeNo (i.withSize (ofNat len)) with
      files := V.files.invalidateInode env.inodeNo }) :
    V'.Opened env (i.withSize (ofNat len)) m ∧
      V'.content (i.withSize (ofNat len)) = (V.content i).take len := by
  have hsize : (i.withSize (ofNat len)).size.toNat = len :=
    toNat_ofNat_of_lt' (lt_of_le_of_lt hlen i.size.toNat_lt)
  have hrefs : ∀ p, V'.refOf (i.withSize (ofNat len)) p = V.refOf i p := by
    intro p
    subst hV'
    rw [refOf_withSize]
    exact refOf_block (fun _ _ => rfl) p
  refine ⟨⟨?_, ?_, ?_, ?_, h.plain, h.notInline, ⟨fun p => ?_, h.dense.cap, ?_⟩,
    .inr fun d hd => ?_⟩, ?_⟩
  · rw [hV']
    exact h.layout
  · refine h.owned.sameRefs (by rw [hV']; rfl) (by rw [hV']; rfl) (by rw [hV']; rfl) fun k p => ?_
    by_cases hk : k = env.inodeNo
    · have hself : V'.inode k = i.withSize (ofNat len) := by
        rw [hV', hk]
        exact update_self ..
      rw [hself, hrefs, hk, h.record]
    · have hother : V'.inode k = V.inode k := by
        rw [hV']
        exact update_of_ne hk _ _
      rw [hother]
      exact refOf_block (fun _ _ => by rw [hV']; rfl) p
  · rw [hV']
    exact h.alloc
  · rw [hV']
    exact update_self ..
  · rw [hrefs]
    exact h.dense.mapped p
  · rw [hsize]
    exact le_trans hlen h.dense.size
  · -- the cached content was dropped
    have hnone : V'.files.map env.inodeNo = none := by
      rw [hV']
      simp
    rw [hnone] at hd
    cases hd
  · have hM : V'.refOf (i.withSize (ofNat len)) = V.refOf i := funext hrefs
    have hblock : V'.block = V.block := by
      rw [hV']
      rfl
    rw [Disk.content, Disk.content, hsize, hM, hblock, ← map_take, take_range, min_eq_left hlen]

lemma truncate {cap : Nat} (hcap : cap ≤ 1028) (hm : m ≤ cap)
    (hspace : zonesFor cap ≤ V.freeZones.card + zonesFor m) (hlen : len ≤ cap * 2048)
    (hQ : ∀ V' i' m', V'.Opened env i' m' → m' ≤ cap →
      V'.content i' = (V.content i).take len ++ replicate (len - i.size.toNat) 0 →
      V'.freeZones.card + zonesFor m' = V.freeZones.card + zonesFor m → Q (.ok ()) V' i') :
    NSpec (Node.truncate env len) Q V i := by
  rw [Node.truncate]
  refine NSpec.bind (nspec_get fun s _ hsi => ?_)
  simp only [hsi]
  by_cases heq : len = i.size.toNat
  · rw [if_pos heq]
    refine NSpec.pure (hQ V i m h hm ?_ rfl)
    rw [heq, Nat.sub_self, replicate_zero, append_nil, ← V.length_content i, take_length]
  rw [if_neg heq]
  by_cases hlt : len < i.size.toNat
  · rw [if_pos hlt]
    obtain ⟨hopen, hcontent⟩ := h.shrink (le_of_lt hlt) rfl
    refine NSpec.bind (nspec_setInode ?_)
    refine nspec_storeInode h.layout h.alloc.1 (hQ _ _ m hopen hm ?_ rfl)
    rw [hcontent, show len - i.size.toNat = 0 by omega, replicate_zero, append_nil]
  · rw [if_neg hlt]
    refine h.writeZeros hcap hm hspace (by omega) fun V' i' m' h' hm' hcontent hfree => ?_
    refine hQ V' i' m' h' hm' ?_ hfree
    rw [hcontent, take_of_length_le (by rw [V.length_content]; omega)]

lemma read {Q : NPost (List UInt8)}
    (hQ : ∀ V', V'.Opened env i m → V'.content i = V.content i → V'.freeZones = V.freeZones →
      Q (.ok (((V.content i).drop lba).take len)) V' i) :
    NSpec (read env lba len) Q V i := by
  refine read_filled h.layout (h.dense.filled h.maps) h.notInline h.cached fun files hfiles => ?_
  rw [V.decoded_plain env h.plain]
  have hdecoded : ∀ W : Volume, W.toDisk = V.toDisk → W.decoded env i = V.decoded env i := by
    intro W hW
    rw [hW]
  refine hQ { V with files := files } ⟨h.layout, ?_, h.alloc, h.record, h.plain, h.notInline, ?_, ?_⟩
    rfl rfl
  · exact h.owned
  · exact h.dense
  rcases h.cached with h0 | htrue
  · exact .inl h0
  refine .inr fun d hd => ?_
  rw [hdecoded { V with files := files } rfl]
  rcases hfiles with rfl | rfl
  · exact htrue d hd
  · rcases FileContentCache.insert_map_sub hd with ⟨-, rfl⟩ | hold
    · rfl
    · exact htrue d hold

end

end Volume.Opened

end Twilight.Fs

/-
The zones of one file, and the zones a call of `write` gives it.

A file is a map from places to zones, in which 0 is no zone.  `write` visits the
places of the blocks it touches, with the pointer blocks above them, and gives a
zone to every place that has none.  `Zoned` says what has become of the map: old
zones are kept, new ones were free before, and there is one for each place that
lacked one.  So the zones stay distinct, and a call runs out of zones only if the
volume has fewer free ones than the file lacks places.
-/
import Twilight.Fs.NodeRules
import Twilight.Fs.Space

namespace Twilight.Fs

open Function List

/-! ## Places -/

/-- The place of a block, for the blocks below the first 511 entries of the first
second-level block. -/
def posOf (block : Nat) : Pos :=
  if block < 6 then .direct block
  else if block < 517 then .singleEntry (block - 6)
  else .l2 0 (block - 517)

lemma posOf_direct {b : Nat} (h : b < 6) : posOf b = .direct b := if_pos h

lemma posOf_single {k : Nat} (h : k < 511) : posOf (6 + k) = .singleEntry k := by
  rw [posOf, if_neg (by omega), if_pos (by omega), Nat.add_sub_cancel_left]

lemma posOf_double (k : Nat) : posOf (517 + k) = .l2 0 k := by
  rw [posOf, if_neg (by omega), if_neg (by omega), Nat.add_sub_cancel_left]

lemma posOf_inj {j k : Nat} (h : posOf j = posOf k) : j = k := by
  -- the three ranges use three kinds of places
  unfold posOf at h
  split_ifs at h <;>
    simp only [Pos.direct.injEq, Pos.singleEntry.injEq, Pos.l2.injEq] at h <;> omega

def places (m : Nat) : Finset Pos :=
  (Finset.range m).image posOf ∪
    ((if 6 < m then {.single} else ∅) ∪ (if 517 < m then {.double, .l1 0} else ∅))

def zonesFor (m : Nat) : Nat := m + ((if 6 < m then 1 else 0) + if 517 < m then 2 else 0)

lemma posOf_ne_pointer (j : Nat) : posOf j ≠ .single ∧ posOf j ≠ .double ∧
    ∀ l, posOf j ≠ .l1 l := by
  unfold posOf
  split
  · exact ⟨nofun, nofun, nofun⟩
  · split
    · exact ⟨nofun, nofun, nofun⟩
    · exact ⟨nofun, nofun, nofun⟩

variable {m : Nat}

lemma mem_places {p : Pos} : p ∈ places m ↔
    (∃ j < m, posOf j = p) ∨ (6 < m ∧ p = .single) ∨ (517 < m ∧ (p = .double ∨ p = .l1 0)) := by
  have hs : p ∈ (if 6 < m then ({.single} : Finset Pos) else ∅) ↔ 6 < m ∧ p = .single := by
    split <;> simp [*]
  have hd : p ∈ (if 517 < m then ({.double, .l1 0} : Finset Pos) else ∅) ↔
      517 < m ∧ (p = .double ∨ p = .l1 0) := by
    split <;> simp [*]
  simp only [places, Finset.mem_union, Finset.mem_image, Finset.mem_range, hs, hd]

lemma posOf_mem_places {j : Nat} : posOf j ∈ places m ↔ j < m := by
  obtain ⟨h1, h2, h3⟩ := posOf_ne_pointer j
  rw [mem_places]
  constructor
  · rintro (⟨k, hk, he⟩ | ⟨-, he⟩ | ⟨-, he | he⟩)
    · rwa [← posOf_inj he]
    · exact absurd he h1
    · exact absurd he h2
    · exact absurd he (h3 0)
  · exact fun h => .inl ⟨j, h, rfl⟩

lemma places_mono {m' : Nat} (h : m ≤ m') : places m ⊆ places m' := by
  intro p hp
  rw [mem_places] at hp ⊢
  rcases hp with ⟨j, hj, he⟩ | ⟨hm, he⟩ | ⟨hm, he⟩
  · exact .inl ⟨j, by omega, he⟩
  · exact .inr (.inl ⟨by omega, he⟩)
  · exact .inr (.inr ⟨by omega, he⟩)

lemma card_places (m : Nat) : (places m).card = zonesFor m := by
  have hpointer : ∀ p ∈ (Finset.range m).image posOf, p ≠ .single ∧ p ≠ .double ∧ p ≠ .l1 0 := by
    intro p hp
    obtain ⟨j, -, rfl⟩ := Finset.mem_image.mp hp
    exact ⟨(posOf_ne_pointer j).1, (posOf_ne_pointer j).2.1, (posOf_ne_pointer j).2.2 0⟩
  have hd1 : Disjoint (if 6 < m then ({.single} : Finset Pos) else ∅)
      (if 517 < m then ({.double, .l1 0} : Finset Pos) else ∅) := by
    split
    · split <;> simp
    · simp
  have hd2 : Disjoint ((Finset.range m).image posOf)
      ((if 6 < m then ({.single} : Finset Pos) else ∅) ∪
        (if 517 < m then ({.double, .l1 0} : Finset Pos) else ∅)) := by
    rw [Finset.disjoint_left]
    intro p hp hq
    obtain ⟨h1, h2, h3⟩ := hpointer p hp
    rcases Finset.mem_union.mp hq with hq | hq
    · split at hq
      · exact h1 (Finset.mem_singleton.mp hq)
      · simp at hq
    · split at hq
      · rcases Finset.mem_insert.mp hq with hq | hq
        · exact h2 hq
        · exact h3 (Finset.mem_singleton.mp hq)
      · simp at hq
  rw [places, Finset.card_union_of_disjoint hd2, Finset.card_union_of_disjoint hd1,
    Finset.card_image_of_injective _ fun j k h => posOf_inj h, Finset.card_range, zonesFor]
  split <;> split <;> rfl

lemma zonesFor_mono {m' : Nat} (h : m ≤ m') : zonesFor m ≤ zonesFor m' := by
  rw [← card_places, ← card_places]
  exact Finset.card_le_card (places_mono h)

/-! ## Maps -/

structure Disk.Maps (D : Disk) (M : Pos → Nat) : Prop where
  isData : ∀ p, M p ≠ 0 → D.IsData (M p)
  used : ∀ p, M p ≠ 0 → D.zmap (M p) = true
  inj : ∀ p q, M p ≠ 0 → M p = M q → p = q

lemma Disk.Owned.maps {D : Disk} (ho : D.Owned) {n : Nat} (hn : D.Alloc n) :
    D.Maps (D.refOf (D.inode n)) where
  isData p hp := ho.isData (n, p) _ ⟨hn, hp, rfl⟩
  used p hp := ho.used hn p hp
  inj p q hp he := (ho.inj hn hn p q hp he).2

/-- The map `M` after a zone was looked up for each of the places `ps`, from the map `M₀` on
volume `V`.  `A` are the zones it got, `P` those taken in advance that are left, and `N` is a set
of places that covers the ones without a zone. -/
structure Volume.Zoned (V : Volume) (M₀ : Pos → Nat) (N : Finset Pos) (M : Pos → Nat)
    (ps : List Pos) (A P : List Nat) : Prop where
  nodup : ps.Nodup
  kept : ∀ p, M₀ p ≠ 0 ∨ p ∉ ps → M p = M₀ p
  mapped : ∀ p ∈ ps, M p ≠ 0
  zones : A = (ps.filter fun p => M₀ p = 0).map M
  fresh : V.Fresh (A ++ P)
  within : ∀ p ∈ ps, M₀ p = 0 → p ∈ N

namespace Volume.Zoned

variable {V : Volume} {M₀ M : Pos → Nat} {N : Finset Pos} {ps : List Pos} {A P : List Nat}

lemma start (hfresh : V.Fresh P) : V.Zoned M₀ N M₀ [] [] P where
  nodup := nodup_nil
  kept := fun _ _ => rfl
  mapped := nofun
  zones := rfl
  fresh := hfresh
  within := nofun

variable {p : Pos}

section

variable (h : V.Zoned M₀ N M ps A P)
include h

lemma keep (hp : p ∉ ps) (hM : M p ≠ 0) :
    V.Zoned M₀ N M (ps ++ [p]) A P := by
  have h₀ : M₀ p ≠ 0 := by rwa [← h.kept p (.inr hp)]
  refine ⟨?_, fun q hq => h.kept q ?_, fun q hq => ?_, ?_, h.fresh, fun q hq hq0 => ?_⟩
  · rw [← concat_eq_append]
    exact h.nodup.concat hp
  · exact hq.imp_right fun hq hmem => hq (mem_append_left _ hmem)
  · rcases mem_append.mp hq with hq | hq
    · exact h.mapped q hq
    · rwa [mem_singleton.mp hq]
  · rw [filter_append, filter_singleton, h.zones]
    simp [h₀]
  · rcases mem_append.mp hq with hq | hq
    · exact h.within q hq hq0
    · rw [mem_singleton.mp hq] at hq0
      exact absurd hq0 h₀

lemma new (hl : Layout V.mount) (hp : p ∉ ps)
    (h₀ : M₀ p = 0) (hN : p ∈ N) {z : Nat} {P' : List Nat} (hfresh : V.Fresh (A ++ [z] ++ P')) :
    V.Zoned M₀ N (update M p z) (ps ++ [p]) (A ++ [z]) P' := by
  have hz : z ≠ 0 := Disk.Owned.zone_ne hl (hfresh.isData z (by simp))
  have hne : ∀ q ∈ ps, q ≠ p := fun q hq he => hp (he ▸ hq)
  refine ⟨?_, fun q hq => ?_, fun q hq => ?_, ?_, hfresh, fun q hq hq0 => ?_⟩
  · rw [← concat_eq_append]
    exact h.nodup.concat hp
  · have hqp : q ≠ p := by
      rintro rfl
      exact hq.elim (fun hq => hq h₀) fun hq => hq (by simp)
    rw [update_of_ne hqp]
    exact h.kept q (hq.imp_right fun hq hmem => hq (mem_append_left _ hmem))
  · rcases mem_append.mp hq with hq | hq
    · rw [update_of_ne (hne q hq)]
      exact h.mapped q hq
    · rwa [mem_singleton.mp hq, update_self]
  · rw [filter_append, map_append, h.zones, filter_singleton]
    congr 1
    · refine map_congr_left fun q hq => ?_
      rw [update_of_ne (hne q (mem_of_mem_filter hq))]
    · simp [h₀]
  · rcases mem_append.mp hq with hq | hq
    · exact h.within q hq hq0
    · rwa [mem_singleton.mp hq]

lemma drop : V.Zoned M₀ N M ps A [] where
  __ := h
  fresh := by
    rw [append_nil]
    exact h.fresh.left

lemma mem_of_new (hp : p ∈ ps) (h₀ : M₀ p = 0) :
    M p ∈ A := by
  rw [h.zones]
  exact List.mem_map_of_mem (mem_filter.mpr ⟨hp, by simpa using h₀⟩)

lemma new_free (hp : p ∈ ps) (h₀ : M₀ p = 0) :
    V.IsData (M p) ∧ V.zmap (M p) = false := by
  have hmem : M p ∈ A ++ P := mem_append_left _ (h.mem_of_new hp h₀)
  exact ⟨h.fresh.isData _ hmem, h.fresh.free _ hmem⟩

lemma old_or_new (p : Pos) :
    M p = M₀ p ∨ (p ∈ ps ∧ M₀ p = 0) := by
  by_cases h₀ : M₀ p = 0
  · by_cases hp : p ∈ ps
    · exact .inr ⟨hp, h₀⟩
    · exact .inl (h.kept p (.inr hp))
  · exact .inl (h.kept p (.inl h₀))

lemma isData (hM : V.Maps M₀) (hp : M p ≠ 0) :
    V.IsData (M p) := by
  rcases h.old_or_new p with he | ⟨hmem, h₀⟩
  · rw [he] at hp ⊢
    exact hM.isData p hp
  · exact (h.new_free hmem h₀).1

lemma inj (hM : V.Maps M₀) {q : Pos} (hp : M p ≠ 0) (he : M p = M q) : p = q := by
  -- a new zone was free, and the zones of the old map were not
  have hmixed : ∀ r s, M r = M₀ r → M r ≠ 0 → s ∈ ps → M₀ s = 0 → M r ≠ M s := by
    intro r s hr hr0 hs hs0 hrs
    have hfree := (h.new_free hs hs0).2
    rw [← hrs, hr, hM.used r (hr ▸ hr0)] at hfree
    cases hfree
  rcases h.old_or_new p with hp' | ⟨hpmem, hp0⟩
  · rcases h.old_or_new q with hq' | ⟨hqmem, hq0⟩
    · rw [hp'] at hp
      exact hM.inj p q hp (by rw [← hp', he, hq'])
    · exact absurd he (hmixed p q hp' hp hqmem hq0)
  rcases h.old_or_new q with hq' | ⟨hqmem, hq0⟩
  · exact absurd he.symm (hmixed q p hq' (he ▸ hp) hpmem hp0)
  · have hnodup : ((ps.filter fun p => M₀ p = 0).map M).Nodup := by
      rw [← h.zones]
      exact h.fresh.nodup.of_append_left
    exact inj_on_of_nodup_map hnodup (mem_filter.mpr ⟨hpmem, by simpa using hp0⟩)
      (mem_filter.mpr ⟨hqmem, by simpa using hq0⟩) he

lemma not_full (hN : N.card ≤ V.freeZones.card)
    (hp : p ∉ ps) (h₀ : M₀ p = 0) (hpN : p ∈ N) (B : Nat → Bytes) : ¬ (V.taking A B).Full := by
  intro hfull
  have hA : V.freeZones.card ≤ A.length := by
    refine le_trans (Finset.card_le_card (t := A.toFinset) fun z hz => ?_) A.toFinset_card_le
    obtain ⟨hz1, hz2⟩ := Disk.mem_freeZones.mp hz
    by_contra hmem
    have := hfull z hz1
    rw [Volume.taking_zmap, if_neg (by simpa using hmem), hz2] at this
    cases this
  have hplaces : (p :: ps.filter fun p => M₀ p = 0).toFinset ⊆ N := by
    intro q hq
    rcases mem_cons.mp (List.mem_toFinset.mp hq) with rfl | hq
    · exact hpN
    · obtain ⟨hq1, hq2⟩ := mem_filter.mp hq
      exact h.within q hq1 (by simpa using hq2)
  have hnodup : (p :: ps.filter fun p => M₀ p = 0).Nodup :=
    nodup_cons.mpr ⟨fun hmem => hp (mem_of_mem_filter hmem), h.nodup.filter _⟩
  have hcard := Finset.card_le_card hplaces
  rw [toFinset_card_of_nodup hnodup, length_cons] at hcard
  rw [h.zones, length_map] at hA
  omega

lemma getNewZone (hl : Layout V.mount)
    (hN : N.card ≤ V.freeZones.card) (hp : p ∉ ps) (h₀ : M₀ p = 0) (hpN : p ∈ N)
    {B : Nat → Bytes} {i : Inode} {Q : NPost (Nat × List Nat)}
    (hQ : ∀ z P', V.Zoned M₀ N (update M p z) (ps ++ [p]) (A ++ [z]) P' →
      Q (.ok (z, P')) (V.taking (A ++ [z] ++ P') B) i) :
    NSpec (Node.getNewZone P) Q (V.taking (A ++ P) B) i := by
  refine nspec_getNewZone hl h.fresh (fun z P' hfresh => ?_) fun _ hfull => ?_
  · exact hQ z P' (h.new hl hp h₀ hpN hfresh)
  · exact absurd hfull (h.not_full hN hp h₀ hpN B)

end

end Volume.Zoned

lemma Disk.Fresh.freeZones_card {V : Volume} {A : List Nat} (h : V.Fresh A) (B : Nat → Bytes) :
    (V.taking A B).freeZones.card + A.length = V.freeZones.card := by
  have hsplit : V.freeZones = (V.taking A B).freeZones ∪ A.toFinset := by
    ext z
    rw [Finset.mem_union, Disk.mem_freeZones, Disk.mem_freeZones, List.mem_toFinset,
      Volume.taking_zmap]
    by_cases hz : z ∈ A
    · simp only [hz, if_true, or_true, iff_true]
      exact ⟨h.isData z hz, h.free z hz⟩
    · simp only [hz, if_false, or_false]
      rfl
  have hdisj : Disjoint (V.taking A B).freeZones A.toFinset := by
    rw [Finset.disjoint_left]
    intro z hz hmem
    have hfree := (Disk.mem_freeZones.mp hz).2
    rw [Volume.taking_zmap, if_pos (List.mem_toFinset.mp hmem)] at hfree
    cases hfree
  rw [hsplit, Finset.card_union_of_disjoint hdisj, toFinset_card_of_nodup h.nodup]

end Twilight.Fs

/-
What the loops of `write` do.

The three loops look up the zones of the blocks from the first one touched to the
last.  `Filling` is their common invariant: up to block `k` every block touched
has a zone and a transfer, and `written` is the number of bytes these cover.  A
loop works on a copy of its table, so between the loops `Pointers` links the map
to the pointer blocks on the disk and to the record of the node.
-/
import Twilight.Fs.FileMap

namespace Twilight.Fs

open Node Function List Disk.Owned Nat Bytes TwilightFs Pos

/-! ## Transfers -/

def endBlock (lba total : Nat) : Nat := (lba + total + 2047) / 2048

def opFor (M₀ M : Pos → Nat) (lba total j : Nat) : WriteOp where
  zone := M (posOf j)
  dataOffset := max lba (j * 2048) - lba
  blockOffset := max lba (j * 2048) - j * 2048
  len := min (lba + total) ((j + 1) * 2048) - max lba (j * 2048)
  newBlock := M₀ (posOf j) = 0

/-- What `write` works from: a volume with a map of a file, and a set of places, for which there
are zones, that covers those without a zone among the first `e` blocks. -/
structure Volume.Supply (V : Volume) (M₀ : Pos → Nat) (N : Finset Pos) (e : Nat) : Prop where
  layout : Layout V.mount
  maps : V.Maps M₀
  enough : N.card ≤ V.freeZones.card
  covers : ∀ p ∈ places e, M₀ p = 0 → p ∈ N

/-- The bytes below block `k` are done. -/
structure Reached (lba total k written : Nat) : Prop where
  pos : 0 < total
  lower : lba / 2048 ≤ k
  upper : k ≤ endBlock lba total
  written : written = min total (k * 2048 - lba)

namespace Reached

variable {lba total k written : Nat}

section

variable (h : Reached lba total k written)
include h

lemma lt_iff : written < total ↔ k < endBlock lba total := by
  have := h.lower
  have := h.pos
  rw [h.written, endBlock]
  omega

lemma block (hk : k < endBlock lba total) :
    (lba + written) / 2048 = k := by
  have := h.lower
  rw [endBlock] at hk
  rw [h.written]
  omega

lemma next (hk : k < endBlock lba total) :
    Reached lba total (k + 1)
      (written + min (total - written) (2048 - (lba + written) % 2048)) := by
  have hlower := h.lower
  refine ⟨h.pos, by omega, hk, ?_⟩
  rw [endBlock] at hk
  rw [h.written]
  omega

end

end Reached

/-- The blocks below `k` have been looked up. -/
structure Filling (V : Volume) (M₀ : Pos → Nat) (N : Finset Pos) (lba total k : Nat)
    (M : Pos → Nat) (ps : List Pos) (A : List Nat) (pr : Progress) : Prop where
  zoned : V.Zoned M₀ N M ps A pr.preallocated
  pos : 0 < total
  lower : lba / 2048 ≤ k
  upper : k ≤ endBlock lba total
  blocks : ∀ j, posOf j ∈ ps ↔ lba / 2048 ≤ j ∧ j < k
  written : pr.written = min total (k * 2048 - lba)
  ops : pr.ops = (range' (lba / 2048) (k - lba / 2048)).map (opFor M₀ M lba total)

namespace Filling

variable {V : Volume} {M₀ M : Pos → Nat} {N : Finset Pos} {lba total k : Nat} {ps : List Pos}
  {A : List Nat} {pr : Progress}

section

variable (h : Filling V M₀ N lba total k M ps A pr)
include h

lemma reached : Reached lba total k pr.written := ⟨h.pos, h.lower, h.upper, h.written⟩

lemma written_eq (hk : k = endBlock lba total) :
    pr.written = total := by
  have hle : pr.written ≤ total := by
    rw [h.written]
    exact min_le_left ..
  have := h.reached.lt_iff
  omega

lemma op_eq (hk : k < endBlock lba total)
    (M' : Pos → Nat) : (⟨M' (posOf k), pr.written, (lba + pr.written) % 2048,
      min (total - pr.written) (2048 - (lba + pr.written) % 2048), M₀ (posOf k) = 0⟩ : WriteOp)
      = opFor M₀ M' lba total k := by
  have := h.lower
  rw [endBlock] at hk
  rw [opFor, h.written]
  congr 1
  · omega
  · omega
  · omega

lemma posOf_not_mem : posOf k ∉ ps := by
  intro hmem
  have := (h.blocks k).mp hmem
  omega

lemma next (hk : k < endBlock lba total)
    {M' : Pos → Nat} {A' P' : List Nat} (hz : V.Zoned M₀ N M' (ps ++ [posOf k]) A' P')
    (hM : ∀ j < k, M' (posOf j) = M (posOf j)) :
    Filling V M₀ N lba total (k + 1) M' (ps ++ [posOf k]) A'
      ⟨P', pr.ops ++ [⟨M' (posOf k), pr.written, (lba + pr.written) % 2048,
        min (total - pr.written) (2048 - (lba + pr.written) % 2048), M₀ (posOf k) = 0⟩],
        pr.written + min (total - pr.written) (2048 - (lba + pr.written) % 2048)⟩ := by
  have hlower := h.lower
  refine ⟨hz, h.pos, by omega, hk, fun j => ?_, (h.reached.next hk).written, ?_⟩
  · rw [mem_append, mem_singleton, h.blocks]
    constructor
    · rintro (hj | hj)
      · omega
      · have := posOf_inj hj
        omega
    · intro hj
      by_cases hjk : j = k
      · exact .inr (by rw [hjk])
      · exact .inl (by omega)
  · have hcount : k + 1 - lba / 2048 = k - lba / 2048 + 1 := by omega
    have hlast : lba / 2048 + 1 * (k - lba / 2048) = k := by omega
    simp only
    rw [h.op_eq hk, h.ops, hcount, range'_concat, map_append, hlast]
    congr 1
    refine map_congr_left fun j hj => ?_
    have hj' := mem_range'_1.mp hj
    rw [opFor, opFor, hM j (by omega)]

lemma visit {q : Pos} (hq : ∀ j, posOf j ≠ q)
    {M' : Pos → Nat} {A' P' : List Nat} (hz : V.Zoned M₀ N M' (ps ++ [q]) A' P')
    (hM : ∀ j, M' (posOf j) = M (posOf j)) :
    Filling V M₀ N lba total k M' (ps ++ [q]) A' { pr with preallocated := P' } := by
  refine ⟨hz, h.pos, h.lower, h.upper, fun j => ?_, h.written, ?_⟩
  · rw [mem_append, mem_singleton, or_iff_left (hq j)]
    exact h.blocks j
  · rw [h.ops]
    refine map_congr_left fun j _ => ?_
    rw [opFor, opFor, hM j]

end

end Filling

/-! ## One loop -/

/-- How a loop over the blocks from `b`, `cap` of them, changes its table, the map and the places
visited. -/
structure Moved {τ : Type} (get : τ → Nat → Nat) (b cap : Nat) (t : τ) (dirty : Bool)
    (M : Pos → Nat) (ps : List Pos) (t' : τ) (dirty' : Bool) (M' : Pos → Nat) (ps' : List Pos) :
    Prop where
  rest : ∀ j, cap ≤ j → get t' j = get t j
  frame : ∀ p, (∀ j < cap, p ≠ posOf (b + j)) → M' p = M p
  visits : ∀ p, (∀ j < cap, p ≠ posOf (b + j)) → (p ∈ ps' ↔ p ∈ ps)
  clean : dirty' = false → dirty = false ∧ M' = M ∧ t' = t

section Loop

variable {τ : Type} {get : τ → Nat → Nat} {b cap : Nat} {t t' t'' : τ} {dirty dirty' dirty'' : Bool}
  {M M' M'' : Pos → Nat} {ps ps' ps'' : List Pos}

lemma Moved.refl : Moved get b cap t dirty M ps t dirty M ps :=
  ⟨fun _ _ => rfl, fun _ _ => rfl, fun _ _ => Iff.rfl, fun h => ⟨h, rfl, rfl⟩⟩

lemma Moved.trans (h : Moved get b cap t dirty M ps t' dirty' M' ps')
    (h' : Moved get b cap t' dirty' M' ps' t'' dirty'' M'' ps'') :
    Moved get b cap t dirty M ps t'' dirty'' M'' ps'' := by
  refine ⟨fun j hj => ?_, fun p hp => ?_, fun p hp => ?_, fun hc => ?_⟩
  · rw [h'.rest j hj, h.rest j hj]
  · rw [h'.frame p hp, h.frame p hp]
  · rw [h'.visits p hp, h.visits p hp]
  · obtain ⟨hd', rfl, rfl⟩ := h'.clean hc
    exact h.clean hd'

variable {V : Volume} {M₀ : Pos → Nat} {N : Finset Pos} {lba total : Nat}

lemma fillBlocks_spec {set : τ → Nat → Nat → τ} {index : Nat → Nat} {B : Nat → Bytes} {i : Inode}
    (hs : V.Supply M₀ N (endBlock lba total))
    (htable : ∀ t j z, j < cap → z < 2 ^ 32 → ∀ j', get (set t j z) j' = if j' = j then z else get t j')
    (hin : ∀ k, b ≤ k → k < b + cap → index k = k - b)
    (hout : ∀ k, b + cap ≤ k → k < endBlock lba total → cap ≤ index k)
    {Q : NPost (τ × Bool × Progress)} {k : Nat} {A : List Nat}
    {pr : Progress} (hk : b ≤ k) (h : Filling V M₀ N lba total k M ps A pr)
    (ht : ∀ j < cap, get t j = M (posOf (b + j)))
    (hQ : ∀ t' dirty' k' M' ps' A' pr', Filling V M₀ N lba total k' M' ps' A' pr' →
      (k ≤ k' ∧ k' ≤ max k (b + cap) ∧ (k' = endBlock lba total ∨ b + cap ≤ k')) →
      (∀ j < cap, get t' j = M' (posOf (b + j))) →
      Moved get b cap t dirty M ps t' dirty' M' ps' →
      Q (.ok (t', dirty', pr')) (V.taking (A' ++ pr'.preallocated) B) i) :
    NSpec (fillBlocks get set index cap lba total t dirty pr) Q
      (V.taking (A ++ pr.preallocated) B) i := by
  induction hn : endBlock lba total - k generalizing k t dirty M ps A pr with
  | zero =>
    have hend : k = endBlock lba total := by
      have := h.upper
      omega
    rw [fillBlocks, if_pos (le_of_eq (h.written_eq hend).symm)]
    exact NSpec.pure (hQ t dirty k M ps A pr h (by omega) ht Moved.refl)
  | succ n ih =>
    have hlt : k < endBlock lba total := by omega
    rw [fillBlocks, if_neg (by have := h.reached.lt_iff.mpr hlt; omega)]
    simp only [h.reached.block hlt]
    by_cases hcap : b + cap ≤ k
    · rw [if_pos (hout k hcap hlt)]
      exact NSpec.pure (hQ t dirty k M ps A pr h (by omega) ht Moved.refl)
    have hidx := hin k hk (by omega)
    have hb : b + (k - b) = k := by omega
    have hpos : get t (k - b) = M (posOf k) := by rw [ht (k - b) (by omega), hb]
    rw [hidx, if_neg (by omega), hpos]
    have hmem : posOf k ∈ places (endBlock lba total) := posOf_mem_places.mpr hlt
    -- the place of block `k` is one of the range
    have hother : ∀ p, (∀ j < cap, p ≠ posOf (b + j)) → p ≠ posOf k := by
      intro p hp
      have := hp (k - b) (by omega)
      rwa [hb] at this
    have hvisit : ∀ p, (∀ j < cap, p ≠ posOf (b + j)) → (p ∈ ps ++ [posOf k] ↔ p ∈ ps) := by
      intro p hp
      rw [mem_append, mem_singleton]
      exact or_iff_left (hother p hp)
    by_cases hz : M (posOf k) = 0
    · -- a block without a zone
      have h₀ : M₀ (posOf k) = 0 := by rw [← h.zoned.kept _ (.inr h.posOf_not_mem), hz]
      rw [if_pos hz]
      refine NSpec.bind (h.zoned.getNewZone hs.layout hs.enough h.posOf_not_mem h₀
        (hs.covers _ hmem h₀) fun z P' hzoned => ?_)
      have hz32 : z < 2 ^ 32 := zone_lt hs.layout (hzoned.fresh.isData z (by simp))
      have hne : ∀ j, j ≠ k → posOf j ≠ posOf k := fun j hj he => hj (posOf_inj he)
      have hnext := h.next hlt hzoned fun j hj =>
        update_of_ne (hne j (Nat.ne_of_lt hj)) _ _
      simp only [update_self, h₀, decide_true] at hnext
      have hmoved : Moved get b cap t dirty M ps (set t (k - b) z) true
          (update M (posOf k) z) (ps ++ [posOf k]) := by
        refine ⟨fun j hj => ?_, fun p hp => ?_, hvisit, nofun⟩
        · rw [htable _ _ _ (by omega) hz32, if_neg (by omega)]
        · exact update_of_ne (hother p hp) _ _
      refine ih (by omega) hnext (fun j hj => ?_)
        (fun t' dirty' k' M' ps' A' pr' hf hk' htab hmv =>
          hQ t' dirty' k' M' ps' A' pr' hf (by omega) htab (hmoved.trans hmv)) (by omega)
      rw [htable _ _ _ (by omega) hz32]
      by_cases hj' : j = k - b
      · rw [if_pos hj', hj', hb, update_self]
      · rw [if_neg hj', update_of_ne (hne _ (by omega)), ht j hj]
    · -- a block with one
      have h₀ : M₀ (posOf k) ≠ 0 := by rwa [← h.zoned.kept _ (.inr h.posOf_not_mem)]
      rw [if_neg hz]
      have hnext := h.next hlt (h.zoned.keep h.posOf_not_mem hz) fun _ _ => rfl
      simp only [h₀, decide_false] at hnext
      have hmoved : Moved get b cap t dirty M ps t dirty M (ps ++ [posOf k]) :=
        ⟨fun _ _ => rfl, fun _ _ => rfl, hvisit, fun hc => ⟨hc, rfl, rfl⟩⟩
      exact ih (by omega) hnext ht
        (fun t' dirty' k' M' ps' A' pr' hf hk' htab hmv =>
          hQ t' dirty' k' M' ps' A' pr' hf (by omega) htab (hmoved.trans hmv)) (by omega)

end Loop

/-! ## Pointer blocks -/

lemma entryAt_putEntry {buf : Bytes} {k zone : Nat} (hk : k < 512) (hz : zone < 2 ^ 32) (j : Nat) :
    entryAt (putEntry buf k zone) j = if j = k then zone else entryAt buf j := by
  unfold entryAt putEntry
  by_cases hj : j = k
  · subst hj
    rw [if_pos hk, if_pos rfl, readLE_putLE, mod_eq_of_lt (by omega)]
  · rw [if_neg hj, readLE_putLE_outside (by omega)]

lemma entryAt_zero (j : Nat) : entryAt zero j = 0 := by
  rw [entryAt, readLE_zero]
  exact ite_self 0

/-- Entry `k` of the pointer block in zone `z`, if this is one. -/
def pointerIn (B : Nat → Bytes) (z k : Nat) : Nat := if z = 0 then 0 else entryAt (B z) k

variable {z : Nat}

lemma pointerIn_of_ne {B : Nat → Bytes} (hz : z ≠ 0) (k : Nat) :
    pointerIn B z k = entryAt (B z) k := if_neg hz

lemma pointerIn_congr {B B' : Nat → Bytes} (h : z ≠ 0 → B' z = B z) (k : Nat) :
    pointerIn B' z k = pointerIn B z k := by
  unfold pointerIn
  split
  · rfl
  · next hz => rw [h hz]

/-- The map below the pointer fields of the record is what the pointer blocks say. -/
structure Pointers (B : Nat → Bytes) (M : Pos → Nat) (i : Inode) : Prop where
  single : i.singleIndirectGet = M .single
  entries : ∀ k, M (.singleEntry k) = pointerIn B (M .single) k
  double : i.doubleIndirectGet = M .double
  l1 : ∀ j, M (.l1 j) = pointerIn B (M .double) j
  l2 : ∀ j k, M (.l2 j k) = pointerIn B (M (.l1 j)) k

variable (i : Inode)

lemma Inode.singleIndirectGet_set (hz : z < 2 ^ 32) :
    (i.singleIndirectSet z).singleIndirectGet = z := UInt32.toNat_ofNat_of_lt' hz

lemma Inode.singleIndirectSet_get : i.singleIndirectSet i.singleIndirectGet = i := by
  unfold singleIndirectSet singleIndirectGet
  rw [UInt32.ofNat_toNat]

lemma Inode.doubleIndirectGet_set (hz : z < 2 ^ 32) :
    (i.doubleIndirectSet z).doubleIndirectGet = z := UInt32.toNat_ofNat_of_lt' hz

lemma Inode.doubleIndirectSet_get : i.doubleIndirectSet i.doubleIndirectGet = i := by
  unfold doubleIndirectSet doubleIndirectGet
  rw [UInt32.ofNat_toNat]

section Stages

variable {V : Volume} {M₀ : Pos → Nat} {N : Finset Pos} {lba total : Nat} {M : Pos → Nat}
  {ps : List Pos} {A : List Nat} {pr : Progress} {k : Nat} {B : Nat → Bytes} {i : Inode}

lemma writeDirect_spec (hs : V.Supply M₀ N (endBlock lba total)) {zones : Nat → Nat}
    (h : Filling V M₀ N lba total k M ps A pr) (hzones : ∀ b < 6, zones b = M (.direct b))
    {Q : NPost ((Nat → Nat) × Bool × Progress)}
    (hQ : ∀ zones' dirty k' M' ps' A' pr', Filling V M₀ N lba total k' M' ps' A' pr' →
      (k ≤ k' ∧ k' ≤ max k 6 ∧ (k' = endBlock lba total ∨ 6 ≤ k')) →
      (∀ b < 6, zones' b = M' (.direct b)) →
      (∀ p, (∀ b < 6, p ≠ .direct b) → M' p = M p ∧ (p ∈ ps' ↔ p ∈ ps)) →
      Q (.ok (zones', dirty, pr')) (V.taking (A' ++ pr'.preallocated) B) i) :
    NSpec (writeDirect lba total zones pr) Q (V.taking (A ++ pr.preallocated) B) i := by
  have hpos : ∀ j < 6, posOf (0 + j) = .direct j := fun j hj => by
    rw [zero_add, posOf_direct hj]
  refine fillBlocks_spec (b := 0) hs (fun t j z _ _ j' => update_apply t j z j')
    (fun k _ _ => (Nat.sub_zero k).symm) (fun k hk _ => by omega) (Nat.zero_le k) h
    (fun j hj => by rw [hpos j hj]; exact hzones j hj) ?_
  intro zones' dirty k' M' ps' A' pr' hf hk htable hmoved
  refine hQ zones' dirty k' M' ps' A' pr' hf hk (fun b hb => ?_) fun p hp => ?_
  · rw [htable b hb, hpos b hb]
  · have hout : ∀ j < 6, p ≠ posOf (0 + j) := fun j hj => by
      rw [hpos j hj]
      exact hp j hj
    exact ⟨hmoved.frame p hout, hmoved.visits p hout⟩

variable {dirty : Bool} {Q : NPost Progress}

lemma writeEntries_spec (hs : V.Supply M₀ N (endBlock lba total)) {b : Nat} {child : Nat → Pos}
    {index : Nat → Nat} (hchild : ∀ j < 511, posOf (b + j) = child j)
    (hinj : ∀ j j', child j = child j' → j = j') (hin : ∀ k, b ≤ k → k < b + 511 → index k = k - b)
    (hout : ∀ k, b + 511 ≤ k → k < endBlock lba total → 511 ≤ index k)
    {buf : Bytes} (hk : b ≤ k) (h : Filling V M₀ N lba total k M ps A pr)
    (hbuf : ∀ j, entryAt buf j = M (child j)) {Q : NPost (Bytes × Bool × Progress)}
    (hQ : ∀ buf' dirty' k' M' ps' A' pr', Filling V M₀ N lba total k' M' ps' A' pr' →
      (k ≤ k' ∧ k' ≤ max k (b + 511) ∧ (k' = endBlock lba total ∨ b + 511 ≤ k')) →
      (∀ j, entryAt buf' j = M' (child j)) →
      (∀ p, (∀ j, p ≠ child j) → M' p = M p ∧ (p ∈ ps' ↔ p ∈ ps)) →
      (dirty' = false → dirty = false ∧ M' = M ∧ buf' = buf) →
      Q (.ok (buf', dirty', pr')) (V.taking (A' ++ pr'.preallocated) B) i) :
    NSpec (fillBlocks entryAt putEntry index 511 lba total buf dirty pr) Q
      (V.taking (A ++ pr.preallocated) B) i := by
  refine fillBlocks_spec (b := b) hs
    (fun t j z hj hz j' => entryAt_putEntry (by omega) hz j') hin hout hk h
    (fun j hj => by rw [hchild j hj]; exact hbuf j) ?_
  intro buf' dirty' k' M' ps' A' pr' hf hk' htable hmoved
  refine hQ buf' dirty' k' M' ps' A' pr' hf hk' (fun j => ?_) (fun p hp => ?_) hmoved.clean
  · by_cases hj : j < 511
    · rw [htable j hj, hchild j hj]
    · -- entries the loop does not use
      have hother : ∀ j' < 511, child j ≠ posOf (b + j') := fun j' hj' he => by
        have := hinj j j' (he.trans (hchild j' hj'))
        omega
      rw [hmoved.rest j (by omega), hbuf, hmoved.frame _ hother]
  · have hother : ∀ j < 511, p ≠ posOf (b + j) := fun j hj => by
      rw [hchild j hj]
      exact hp j
    exact ⟨hmoved.frame p hother, hmoved.visits p hother⟩

lemma Volume.Zoned.pointerIn_update {P : List Nat} (h : V.Zoned M₀ N M ps A P) (hM : V.Maps M₀)
    (q p : Pos) (hp : p ≠ q) (buf : Bytes) (k : Nat) :
    pointerIn (update B (M q) buf) (M p) k = pointerIn B (M p) k :=
  pointerIn_congr (fun hz => update_of_ne (fun he => hp (h.inj hM hz he)) _ _) k

lemma writeSingle_store (hs : V.Supply M₀ N (endBlock lba total))
    (h : Filling V M₀ N lba total k M ps A pr) {buf : Bytes}
    (hi : i.singleIndirectGet = M .single) (hne : M .single ≠ 0)
    (hbuf : ∀ j, entryAt buf j = M (.singleEntry j)) (hdouble : i.doubleIndirectGet = M .double)
    (hl1 : ∀ j, M (.l1 j) = pointerIn B (M .double) j)
    (hl2 : ∀ j k, M (.l2 j k) = pointerIn B (M (.l1 j)) k) (hclean : dirty = false → Pointers B M i)
    (hQ : ∀ B', Pointers B' M i → (∀ z, z ≠ M .single → B' z = B z) →
      Q (.ok pr) (V.taking (A ++ pr.preallocated) B') i) :
    NSpec (if dirty then do
        onFs (writeTfsBlock (← get).inode.singleIndirectGet buf)
        pure pr
      else pure pr) Q (V.taking (A ++ pr.preallocated) B) i := by
  cases dirty with
  | false => exact NSpec.pure (hQ B (hclean rfl) fun _ _ => rfl)
  | true =>
    rw [if_pos rfl]
    refine NSpec.bind (nspec_get fun s _ hsi => ?_)
    simp only [hsi, hi]
    refine NSpec.bind (nspec_writeTfsBlock hs.layout (h.zoned.isData hs.maps hne) ?_)
    rw [Volume.taking_putBlock]
    refine NSpec.pure (hQ _ ⟨hi, fun k => ?_, hdouble, fun j => ?_, fun j k => ?_⟩ fun z hz =>
      update_of_ne hz _ _)
    · rw [pointerIn_of_ne hne, update_self, hbuf]
    · rw [h.zoned.pointerIn_update hs.maps .single .double nofun]
      exact hl1 j
    · rw [h.zoned.pointerIn_update hs.maps .single (.l1 j) nofun]
      exact hl2 j k

structure Entered (V : Volume) (M₀ : Pos → Nat) (N : Finset Pos) (lba total k : Nat) (q : Pos)
    (M : Pos → Nat) (ps : List Pos) (M₁ : Pos → Nat) (A₁ : List Nat) (pr₁ : Progress) : Prop where
  filling : Filling V M₀ N lba total k M₁ (ps ++ [q]) A₁ pr₁
  isData : V.IsData (M₁ q)
  frame : ∀ p, p ≠ q → M₁ p = M p

lemma Filling.enter {α : Type} (h : Filling V M₀ N lba total k M ps A pr)
    (hs : V.Supply M₀ N (endBlock lba total)) {q : Pos} (hq : ∀ j, posOf j ≠ q) (hnew : q ∉ ps)
    (hmem : q ∈ places (endBlock lba total)) {f : Nat × List Nat → NodeM α} {g : Bytes → NodeM α}
    {Q : NPost α}
    (hf : ∀ z P', M q = 0 → Entered V M₀ N lba total k q M ps (update M q z) (A ++ [z])
        { pr with preallocated := P' } → NSpec (f (z, P')) Q (V.taking (A ++ [z] ++ P') B) i)
    (hg : M q ≠ 0 → Entered V M₀ N lba total k q M ps M A pr →
      NSpec (g (B (M q))) Q (V.taking (A ++ pr.preallocated) B) i) :
    NSpec (if M q = 0 then getNewZone pr.preallocated >>= f
      else onFs (readTfsBlock (M q)) >>= g) Q (V.taking (A ++ pr.preallocated) B) i := by
  by_cases hz : M q = 0
  · have h₀ : M₀ q = 0 := by rw [← h.zoned.kept _ (.inr hnew), hz]
    rw [if_pos hz]
    refine NSpec.bind (h.zoned.getNewZone hs.layout hs.enough hnew h₀
      (hs.covers _ hmem h₀) fun z P' hzoned => hf z P' hz ?_)
    have hM : ∀ p, p ≠ q → update M q z p = M p := fun p hp => update_of_ne hp _ _
    refine ⟨h.visit hq hzoned fun j => hM _ (hq j), ?_, hM⟩
    rw [update_self]
    exact hzoned.fresh.isData z (by simp)
  · have hdata := h.zoned.isData hs.maps hz
    rw [if_neg hz]
    refine NSpec.bind (nspec_readTfsBlock hs.layout hdata (hg hz ⟨?_, hdata, fun _ _ => rfl⟩))
    exact h.visit hq (h.zoned.keep hnew hz) fun _ => rfl

lemma Entered.same {q : Pos} {M₁ M' : Pos → Nat} {A₁ : List Nat} {pr₁ : Progress}
    {ps' : List Pos} (h : Entered V M₀ N lba total k q M ps M₁ A₁ pr₁) {p : Pos} (hp : p ≠ q)
    (hframe : M' p = M₁ p ∧ (p ∈ ps' ↔ p ∈ ps ++ [q])) : M' p = M p ∧ (p ∈ ps' ↔ p ∈ ps) := by
  refine ⟨hframe.1.trans (h.frame p hp), hframe.2.trans ?_⟩
  rw [mem_append, mem_singleton, or_iff_left hp]

section

variable (hs : V.Supply M₀ N (endBlock lba total))
include hs

lemma writeSingle_spec
    (h : Filling V M₀ N lba total k M ps A pr) (hk : 6 ≤ k) (hlt : k < endBlock lba total)
    (hp : Pointers B M i) (hnew : .single ∉ ps)
    (hQ : ∀ k' M' ps' A' pr' B', Filling V M₀ N lba total k' M' ps' A' pr' →
      (k ≤ k' ∧ k' ≤ max k 517 ∧ (k' = endBlock lba total ∨ 517 ≤ k')) →
      Pointers B' M' (i.singleIndirectSet (M' .single)) → M' .single ≠ 0 →
      (∀ p, p ≠ .single → (∀ j, p ≠ .singleEntry j) → M' p = M p ∧ (p ∈ ps' ↔ p ∈ ps)) →
      (∀ z, z ≠ M' .single → B' z = B z) →
      Q (.ok pr') (V.taking (A' ++ pr'.preallocated) B') (i.singleIndirectSet (M' .single))) :
    NSpec (writeSingle lba total pr) Q (V.taking (A ++ pr.preallocated) B) i := by
  have hmem : single ∈ places (endBlock lba total) := mem_places.mpr (.inr (.inl ⟨by omega, rfl⟩))
  rw [writeSingle]
  refine NSpec.bind (nspec_get fun s _ hsi => ?_)
  simp only [hsi, hp.single]
  -- from the entries on, with the block taken or read
  have hrest : ∀ dirty {M₁ A₁ pr₁ buf}, Entered V M₀ N lba total k .single M ps M₁ A₁ pr₁ →
      (∀ j, entryAt buf j = pointerIn B (M .single) j) → (dirty = false → M₁ = M) →
      NSpec (writeSingleEntries lba total buf dirty pr₁ >>= fun x =>
          if x.2.1 then do
            onFs (writeTfsBlock (← get).inode.singleIndirectGet x.1)
            pure x.2.2
          else pure x.2.2) Q
        (V.taking (A₁ ++ pr₁.preallocated) B) (i.singleIndirectSet (M₁ .single)) := by
    intro dirty M₁ A₁ pr₁ buf hent hbuf hold
    refine NSpec.bind (writeEntries_spec hs (fun j hj => posOf_single hj)
      (fun j j' he => by injection he) (fun _ _ _ => rfl) (fun k hk _ => by omega) hk hent.filling
      (fun j => by rw [hbuf, hent.frame (.singleEntry j) nofun, hp.entries]) ?_)
    intro buf' dirty' k' M' ps' A' pr' hf hk' hbuf hframe hclean
    have hsame : ∀ p, p ≠ .single → (∀ j, p ≠ .singleEntry j) →
        M' p = M p ∧ (p ∈ ps' ↔ p ∈ ps) := fun p hp1 hp2 => hent.same hp1 (hframe p hp2)
    have hself : M' .single = M₁ .single := (hframe .single nofun).1
    have hdata : V.IsData (M' .single) := hself ▸ hent.isData
    have hne := zone_ne hs.layout hdata
    have hi := i.singleIndirectGet_set (zone_lt hs.layout hdata)
    rw [← hself]
    refine writeSingle_store hs hf hi hne hbuf
      (hp.double.trans (hsame .double nofun nofun).1.symm) (fun j => ?_) (fun j k => ?_)
      (fun hc => ?_) fun B' hp' hB' => hQ k' M' ps' A' pr' B' hf hk' hp' hne hsame hB'
    · rw [(hsame (.l1 j) nofun nofun).1, (hsame .double nofun nofun).1]
      exact hp.l1 j
    · rw [(hsame (.l2 j k) nofun nofun).1, (hsame (.l1 j) nofun nofun).1]
      exact hp.l2 j k
    · obtain ⟨hd, rfl, -⟩ := hclean hc
      rw [hold hd, ← hp.single, i.singleIndirectSet_get]
      exact hp
  refine h.enter hs (fun j => (posOf_ne_pointer j).1) hnew hmem (fun z P' hz hent => ?_)
    fun hz hent => ?_
  · refine NSpec.bind (nspec_setInode ?_)
    have := hrest true hent (fun j => (entryAt_zero j).trans (by rw [hz]; rfl)) nofun
    rwa [update_self] at this
  · have hi : i.singleIndirectSet (M .single) = i := by rw [← hp.single, i.singleIndirectSet_get]
    have := hrest false hent (fun j => (pointerIn_of_ne hz j).symm) fun _ => rfl
    rwa [hi] at this

lemma writeL1_spec (hcap : endBlock lba total ≤ 1028)
    (h : Filling V M₀ N lba total k M ps A pr) (hk : 517 ≤ k) (hlt : k < endBlock lba total)
    (hnew : .l1 0 ∉ ps) {root : Bytes} (hroot : ∀ j, entryAt root j = M (.l1 j))
    (hl2 : ∀ k, M (.l2 0 k) = pointerIn B (M (.l1 0)) k) {Q : NPost (Bytes × Bool × Progress)}
    (hQ : ∀ root' dirty' M' ps' A' pr' B',
      Filling V M₀ N lba total (endBlock lba total) M' ps' A' pr' →
      (∀ j, entryAt root' j = M' (.l1 j)) → (∀ k, M' (.l2 0 k) = pointerIn B' (M' (.l1 0)) k) →
      M' (.l1 0) ≠ 0 →
      (∀ p, p ≠ .l1 0 → (∀ j, p ≠ .l2 0 j) → M' p = M p ∧ (p ∈ ps' ↔ p ∈ ps)) →
      (∀ z, z ≠ M' (.l1 0) → B' z = B z) → (dirty' = false → dirty = false ∧ root' = root) →
      Q (.ok (root', dirty', pr')) (V.taking (A' ++ pr'.preallocated) B') i) :
    NSpec (writeL1 lba total 0 root dirty pr) Q (V.taking (A ++ pr.preallocated) B) i := by
  have hmem : l1 0 ∈ places (endBlock lba total) :=
    mem_places.mpr (.inr (.inr ⟨by omega, .inr rfl⟩))
  rw [writeL1, if_neg (by have := h.reached.lt_iff.mpr hlt; omega)]
  simp only [hroot 0]
  -- from the entries on, with the block taken or read
  have hrest : ∀ fresh dirty₁ {M₁ A₁ pr₁ buf root₁},
      Entered V M₀ N lba total k (.l1 0) M ps M₁ A₁ pr₁ →
      (∀ j, entryAt buf j = pointerIn B (M (.l1 0)) j) → (fresh = false → M₁ = M) →
      (∀ j, entryAt root₁ j = M₁ (.l1 j)) → (dirty₁ = false → dirty = false ∧ root₁ = root) →
      NSpec (writeL2Entries lba total buf fresh pr₁ >>= fun x =>
          if x.2.1 then do
            onFs (writeTfsBlock (M₁ (.l1 0)) x.1)
            writeL1 lba total (0 + 1) root₁ dirty₁ x.2.2
          else writeL1 lba total (0 + 1) root₁ dirty₁ x.2.2) Q
        (V.taking (A₁ ++ pr₁.preallocated) B) i := by
    intro fresh dirty₁ M₁ A₁ pr₁ buf root₁ hent hbuf hold hroot₁ hdirty₁
    refine NSpec.bind (writeEntries_spec hs (fun j _ => posOf_double j)
      (fun j j' he => by injection he) (fun k _ _ => by omega) (fun k _ _ => by omega) hk
      hent.filling (fun j => by rw [hbuf, hent.frame (.l2 0 j) nofun, hl2]) ?_)
    intro buf' dirty' k' M' ps' A' pr' hf hk' hbuf hframe hclean
    obtain rfl : k' = endBlock lba total := by
      have := hf.upper
      omega
    have hself : M' (.l1 0) = M₁ (.l1 0) := (hframe (.l1 0) nofun).1
    have hne : M' (.l1 0) ≠ 0 := hself ▸ zone_ne hs.layout hent.isData
    -- the loop ends here, once the block is on the disk
    have hstop : ∀ B', (∀ k, M' (.l2 0 k) = pointerIn B' (M' (.l1 0)) k) →
        (∀ y, y ≠ M' (.l1 0) → B' y = B y) →
        NSpec (writeL1 lba total (0 + 1) root₁ dirty₁ pr') Q
          (V.taking (A' ++ pr'.preallocated) B') i := by
      intro B' hl2' hB'
      rw [writeL1, if_pos (.inl (le_of_eq (hf.written_eq rfl).symm))]
      refine NSpec.pure (hQ _ _ M' ps' A' pr' B' hf (fun j => ?_) hl2' hne
        (fun p hp1 hp2 => hent.same hp1 (hframe p hp2)) hB' hdirty₁)
      rw [hroot₁, (hframe (.l1 j) nofun).1]
    cases dirty' with
    | true =>
      simp only [if_true]
      refine NSpec.bind (nspec_writeTfsBlock hs.layout hent.isData ?_)
      rw [Volume.taking_putBlock, ← hself]
      refine hstop _ (fun k => ?_) fun y hy => update_of_ne hy _ _
      rw [pointerIn_of_ne hne, update_self, hbuf]
    | false =>
      obtain ⟨hd, rfl, -⟩ := hclean rfl
      simp only [Bool.false_eq_true, if_false]
      exact hstop B (hold hd ▸ hl2) fun _ _ => rfl
  refine h.enter hs (fun j => (posOf_ne_pointer j).2.2 0) hnew hmem (fun z P' hz hent => ?_)
    fun hz hent => ?_
  · have hz32 : z < 2 ^ 32 := by
      have := zone_lt hs.layout hent.isData
      rwa [update_self] at this
    have hput : ∀ j, entryAt (putEntry root 0 z) j = update M (.l1 0) z (.l1 j) := by
      intro j
      rw [entryAt_putEntry (by decide) hz32, hroot, update_apply]
      simp only [Pos.l1.injEq]
    have := hrest true true hent (fun j => (entryAt_zero j).trans (by rw [hz]; rfl)) nofun hput nofun
    rwa [update_self] at this
  · exact hrest false dirty hent (fun j => (pointerIn_of_ne hz j).symm) (fun _ => rfl) hroot
      fun hc => ⟨hc, rfl⟩

lemma writeDouble_store (h : Filling V M₀ N lba total k M ps A pr) {root : Bytes}
    (hi : i.doubleIndirectGet = M .double) (hne : M .double ≠ 0)
    (hroot : ∀ j, entryAt root j = M (.l1 j)) (hsingle : i.singleIndirectGet = M .single)
    (hentries : ∀ k, M (.singleEntry k) = pointerIn B (M .single) k)
    (hl2 : ∀ j k, M (.l2 j k) = pointerIn B (M (.l1 j)) k)
    (hclean : dirty = false → ∀ j, M (.l1 j) = pointerIn B (M .double) j)
    (hQ : ∀ B', Pointers B' M i → (∀ z, z ≠ M .double → B' z = B z) →
      Q (.ok pr) (V.taking (A ++ pr.preallocated) B') i) :
    NSpec (if dirty then do
        onFs (writeTfsBlock (← get).inode.doubleIndirectGet root)
        pure pr
      else pure pr) Q (V.taking (A ++ pr.preallocated) B) i := by
  cases dirty with
  | false => exact NSpec.pure (hQ B ⟨hsingle, hentries, hi, hclean rfl, hl2⟩ fun _ _ => rfl)
  | true =>
    rw [if_pos rfl]
    refine NSpec.bind (nspec_get fun s _ hsi => ?_)
    simp only [hsi, hi]
    refine NSpec.bind (nspec_writeTfsBlock hs.layout (h.zoned.isData hs.maps hne) ?_)
    rw [Volume.taking_putBlock]
    refine NSpec.pure (hQ _ ⟨hsingle, fun k => ?_, hi, fun j => ?_, fun j k => ?_⟩ fun z hz =>
      update_of_ne hz _ _)
    · rw [h.zoned.pointerIn_update hs.maps .double .single nofun]
      exact hentries k
    · rw [pointerIn_of_ne hne, update_self, hroot]
    · rw [h.zoned.pointerIn_update hs.maps .double (.l1 j) nofun]
      exact hl2 j k

lemma writeDouble_spec (hcap : endBlock lba total ≤ 1028)
    (h : Filling V M₀ N lba total k M ps A pr) (hk : 517 ≤ k) (hlt : k < endBlock lba total)
    (hp : Pointers B M i) (hnew : .double ∉ ps) (hnew1 : .l1 0 ∉ ps)
    (hQ : ∀ M' ps' A' pr' B', Filling V M₀ N lba total (endBlock lba total) M' ps' A' pr' →
      Pointers B' M' (i.doubleIndirectSet (M' .double)) → M' .double ≠ 0 → M' (.l1 0) ≠ 0 →
      (∀ p, p ≠ .double → p ≠ .l1 0 → (∀ j, p ≠ .l2 0 j) → M' p = M p ∧ (p ∈ ps' ↔ p ∈ ps)) →
      (∀ z, z ≠ M' .double → z ≠ M' (.l1 0) → B' z = B z) →
      Q (.ok pr') (V.taking (A' ++ pr'.preallocated) B') (i.doubleIndirectSet (M' .double))) :
    NSpec (writeDouble lba total pr) Q (V.taking (A ++ pr.preallocated) B) i := by
  have hidx : (k - 517) / 512 = 0 := by omega
  -- the links that do not concern the double indirect block, once the entry has been filled
  have hlinks : ∀ {M' : Pos → Nat} {ps' : List Pos} {A' : List Nat} {pr' : Progress}
      {B' : Nat → Bytes}, Filling V M₀ N lba total (endBlock lba total) M' ps' A' pr' →
      (∀ k, M' (.l2 0 k) = pointerIn B' (M' (.l1 0)) k) →
      (∀ p, p ≠ .double → p ≠ .l1 0 → (∀ j, p ≠ .l2 0 j) → M' p = M p) →
      (∀ z, z ≠ M' (.l1 0) → B' z = B z) →
      (∀ k, M' (.singleEntry k) = pointerIn B' (M' .single) k) ∧
      ∀ j k, M' (.l2 j k) = pointerIn B' (M' (.l1 j)) k := by
    intro M' ps' A' pr' B' hf hl2 hframe hB
    have hother : ∀ p, p ≠ .l1 0 → ∀ k, pointerIn B' (M' p) k = pointerIn B (M' p) k :=
      fun p hp k => pointerIn_congr (fun hz => hB _ fun he => hp (hf.zoned.inj hs.maps hz he)) k
    refine ⟨fun k => ?_, fun j k => ?_⟩
    · rw [hother .single nofun, hframe .single nofun nofun nofun,
        hframe (.singleEntry k) nofun nofun nofun, hp.entries]
    by_cases hj : j = 0
    · rw [hj]
      exact hl2 k
    · have hne : l1 j ≠ .l1 0 := fun he => hj (by injection he)
      have hne2 : ∀ k', l2 j k ≠ .l2 0 k' := fun k' he => hj (by injection he)
      rw [hother _ hne, hframe (.l1 j) nofun hne nofun, hframe (.l2 j k) nofun nofun hne2, hp.l2]
  have hmem : double ∈ places (endBlock lba total) :=
    mem_places.mpr (.inr (.inr ⟨by omega, .inl rfl⟩))
  rw [writeDouble]
  refine NSpec.bind (nspec_get fun s _ hsi => ?_)
  simp only [hsi, hp.double, h.reached.block hlt, hidx]
  -- from the loop on, with the block taken or read
  have hrest : ∀ dirty {M₁ A₁ pr₁ root}, Entered V M₀ N lba total k .double M ps M₁ A₁ pr₁ →
      (∀ j, entryAt root j = pointerIn B (M .double) j) →
      (dirty = false → M₁ = M ∧ root = B (M .double)) →
      NSpec (writeL1 lba total 0 root dirty pr₁ >>= fun x =>
          if x.2.1 then do
            onFs (writeTfsBlock (← get).inode.doubleIndirectGet x.1)
            pure x.2.2
          else pure x.2.2) Q
        (V.taking (A₁ ++ pr₁.preallocated) B) (i.doubleIndirectSet (M₁ .double)) := by
    intro dirty M₁ A₁ pr₁ root hent hread hold
    refine NSpec.bind (writeL1_spec hs hcap hent.filling hk hlt (by simpa using hnew1)
      (fun j => by rw [hread, hent.frame (.l1 j) nofun, hp.l1]) (fun k => ?_) ?_)
    · rw [hent.frame (.l2 0 k) nofun, hent.frame (.l1 0) nofun]
      exact hp.l2 0 k
    intro root' dirty' M' ps' A' pr' B' hf hroot hl2 hl1ne hframe hB hclean
    have hsame : ∀ p, p ≠ .double → p ≠ .l1 0 → (∀ j, p ≠ .l2 0 j) →
        M' p = M p ∧ (p ∈ ps' ↔ p ∈ ps) := fun p hp1 hp2 hp3 => hent.same hp1 (hframe p hp2 hp3)
    have hself : M' .double = M₁ .double := (hframe .double nofun nofun).1
    have hdata : V.IsData (M' .double) := hself ▸ hent.isData
    have hne := zone_ne hs.layout hdata
    obtain ⟨hentries, hl2'⟩ := hlinks hf hl2 (fun p h1 h2 h3 => (hsame p h1 h2 h3).1) hB
    rw [← hself]
    refine writeDouble_store hs hf (i.doubleIndirectGet_set (zone_lt hs.layout hdata))
      hne hroot (hp.single.trans (hsame .single nofun nofun nofun).1.symm) hentries hl2'
      (fun hc j => ?_) fun B'' hp' hB' => hQ M' ps' A' pr' B'' hf hp' hne hl1ne hsame
        fun y hy1 hy2 => (hB' y hy1).trans (hB y hy2)
    -- the block on the disk is the one that was read
    obtain ⟨hd, rfl⟩ := hclean hc
    obtain ⟨rfl, rfl⟩ := hold hd
    have hblock : B' (M' .double) = B (M' .double) := hB _ fun he =>
      Pos.noConfusion (hf.zoned.inj hs.maps hne he)
    rw [← hroot, pointerIn_of_ne hne, hblock, hself]
  refine h.enter hs (fun j => (posOf_ne_pointer j).2.1) hnew hmem (fun z P' hz hent => ?_)
    fun hz hent => ?_
  · refine NSpec.bind (nspec_setInode ?_)
    have := hrest true hent (fun j => (entryAt_zero j).trans (by rw [hz]; rfl)) nofun
    rwa [update_self] at this
  · have hi : i.doubleIndirectSet (M .double) = i := by rw [← hp.double, i.doubleIndirectSet_get]
    have := hrest false hent (fun j => (pointerIn_of_ne hz j).symm) fun _ => ⟨rfl, rfl⟩
    rwa [hi] at this

end

end Stages

end Twilight.Fs

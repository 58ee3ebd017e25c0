/-
What `write_file` leaves on a volume.

The loops give a zone to every block and touch no block of the volume; `Laid` is
their invariant.  The pointer blocks that have changed are kept aside with their
zones.  `Pending` says that these hold what the map says and that the pointer
blocks left out are as before, so that storing them makes the disk agree with
the map.
-/
import Twilight.Fs.WholeFile
import Twilight.Fs.FileStore

namespace Twilight.Fs

open TwilightFs Function Prog List Disk.Owned
open Node (putEntry dataFrom)

/-! ## Places -/

/-- The place of a block of a file that `write_file` has written. -/
def filePos (block : Nat) : Pos :=
  if block < 6 then .direct block
  else if block < 518 then .singleEntry (block - 6)
  else .l2 ((block - 518) / 512) ((block - 518) % 512)

lemma filePos_direct {b : Nat} (h : b < 6) : filePos b = .direct b := if_pos h

variable {k j m : Nat} {p : Pos}

lemma filePos_single (h : k < 512) : filePos (6 + k) = .singleEntry k := by
  rw [filePos, if_neg (by omega), if_pos (by omega), Nat.add_sub_cancel_left]

lemma filePos_l2 (h : k < 512) : filePos (518 + 512 * j + k) = .l2 j k := by
  rw [filePos, if_neg (by omega), if_neg (by omega), show 518 + 512 * j + k - 518 = 512 * j + k by
    omega, Nat.mul_add_div (by decide), Nat.mul_add_mod, Nat.div_eq_of_lt h, Nat.mod_eq_of_lt h]
  rfl

lemma filePos_inj (h : filePos j = filePos k) : j = k := by
  unfold filePos at h
  split_ifs at h <;>
    simp only [Pos.direct.injEq, Pos.singleEntry.injEq, Pos.l2.injEq] at h <;> omega

lemma filePos_ne_pointer (j : Nat) : filePos j ≠ .single ∧ filePos j ≠ .double ∧
    ∀ l, filePos j ≠ .l1 l := by
  unfold filePos
  split
  · exact ⟨nofun, nofun, nofun⟩
  · split
    · exact ⟨nofun, nofun, nofun⟩
    · exact ⟨nofun, nofun, nofun⟩

def fileBlocks (len : Nat) : Nat := (len + 2047) / 2048

def filePlaces (m : Nat) : Finset Pos :=
  (Finset.range m).image filePos ∪ ((if 6 < m then {.single} else ∅) ∪
    (if 518 < m then insert .double ((Finset.range ((m - 518 + 511) / 512)).image .l1) else ∅))

lemma mem_filePlaces : p ∈ filePlaces m ↔ (∃ j < m, filePos j = p) ∨ (6 < m ∧ p = .single) ∨
      (518 < m ∧ (p = .double ∨ ∃ j, 518 + 512 * j < m ∧ .l1 j = p)) := by
  have hs : p ∈ (if 6 < m then ({.single} : Finset Pos) else ∅) ↔ 6 < m ∧ p = .single := by
    split <;> simp [*]
  have hd : p ∈ (if 518 < m then insert .double
        ((Finset.range ((m - 518 + 511) / 512)).image Pos.l1) else ∅) ↔
      518 < m ∧ (p = .double ∨ ∃ j, 518 + 512 * j < m ∧ .l1 j = p) := by
    have hlt : ∀ j, j < (m - 518 + 511) / 512 ↔ 518 + 512 * j < m := fun j => by omega
    split
    · next h => simp only [Finset.mem_insert, Finset.mem_image, Finset.mem_range, hlt, h, true_and]
    · next h => simp [h]
  simp only [filePlaces, Finset.mem_union, Finset.mem_image, Finset.mem_range, hs, hd]

lemma filePos_mem : filePos j ∈ filePlaces m ↔ j < m := by
  obtain ⟨h1, h2, h3⟩ := filePos_ne_pointer j
  rw [mem_filePlaces]
  constructor
  · rintro (⟨k, hk, he⟩ | ⟨-, he⟩ | ⟨-, he | ⟨l, -, he⟩⟩)
    · rwa [← filePos_inj he]
    · exact absurd he h1
    · exact absurd he h2
    · exact absurd he.symm (h3 l)
  · exact fun h => .inl ⟨j, h, rfl⟩

def lacking (M₀ : Pos → Nat) (m : Nat) : Finset Pos := (filePlaces m).filter fun p => M₀ p = 0

lemma mem_lacking {M₀ : Pos → Nat} :
    p ∈ lacking M₀ m ↔ p ∈ filePlaces m ∧ M₀ p = 0 := Finset.mem_filter

lemma Volume.Zoned.outside {V : Volume} {M₀ M : Pos → Nat} {ps : List Pos}
    {A P : List Nat} (h : V.Zoned M₀ (lacking M₀ m) M ps A P) (hp : p ∉ filePlaces m) :
    M p = M₀ p := by
  rcases h.old_or_new p with he | ⟨hmem, h₀⟩
  · exact he
  · exact absurd (mem_lacking.mp (h.within p hmem h₀)).1 hp

/-! ## The blocks -/

def fileOp (M : Pos → Nat) (total j : Nat) : BlockOp where
  zone := M (filePos j)
  dataOffset := j * 2048
  len := min 2048 (total - j * 2048)

/-- What `write_file` works from: a volume with the map of a file, and zones for the places that
have none. -/
structure Volume.FileSupply (V : Volume) (M₀ : Pos → Nat) (m : Nat) : Prop where
  layout : Layout V.mount
  maps : V.Maps M₀
  enough : (lacking M₀ m).card ≤ V.freeZones.card

/-- The blocks below `k` have zones. -/
structure Laid (V : Volume) (M₀ : Pos → Nat) (total k : Nat) (M : Pos → Nat) (ps : List Pos)
    (A : List Nat) (pr : FileProgress) : Prop where
  zoned : V.Zoned M₀ (lacking M₀ (fileBlocks total)) M ps A pr.preallocated
  upper : k ≤ fileBlocks total
  blocks : ∀ j, filePos j ∈ ps ↔ j < k
  written : pr.written = min total (k * 2048)
  ops : pr.ops = (List.range k).map (fileOp M total)

namespace Laid

variable {V : Volume} {M₀ M : Pos → Nat} {total k : Nat} {ps : List Pos} {A : List Nat}
  {pr : FileProgress}

section

variable (h : Laid V M₀ total k M ps A pr)
include h

lemma done : total ≤ pr.written ↔ k = fileBlocks total := by
  have := h.upper
  rw [h.written]
  unfold fileBlocks at *
  omega

lemma written_next (hk : k < fileBlocks total) :
    pr.written = k * 2048 ∧
      pr.written + min 2048 (total - pr.written) = min total ((k + 1) * 2048) := by
  unfold fileBlocks at hk
  rw [h.written]
  omega

lemma not_mem : filePos k ∉ ps := fun hmem =>
  Nat.lt_irrefl k ((h.blocks k).mp hmem)

lemma next (hk : k < fileBlocks total) {M' : Pos → Nat} {A' P' : List Nat}
    (hz : V.Zoned M₀ (lacking M₀ (fileBlocks total)) M' (ps ++ [filePos k]) A' P')
    (hM : ∀ j < k, M' (filePos j) = M (filePos j)) :
    Laid V M₀ total (k + 1) M' (ps ++ [filePos k]) A'
      ⟨P', pr.ops ++ [⟨M' (filePos k), pr.written, min 2048 (total - pr.written)⟩],
        pr.written + min 2048 (total - pr.written)⟩ := by
  obtain ⟨hw, hnext⟩ := h.written_next hk
  refine ⟨hz, hk, fun j => ?_, hnext, ?_⟩
  · rw [mem_append, mem_singleton, h.blocks]
    constructor
    · rintro (hj | hj)
      · omega
      · have := filePos_inj hj
        omega
    · intro hj
      by_cases hjk : j = k
      · exact .inr (by rw [hjk])
      · exact .inl (by omega)
  · have hold : (List.range k).map (fileOp M total) = (List.range k).map (fileOp M' total) := by
      refine map_congr_left fun j hj => ?_
      rw [fileOp, fileOp, hM j (mem_range.mp hj)]
    rw [range_succ, map_append, h.ops, hold, hw]
    rfl

lemma visit {q : Pos} (hq : ∀ j, filePos j ≠ q) {M' : Pos → Nat} {A' P' : List Nat}
    (hz : V.Zoned M₀ (lacking M₀ (fileBlocks total)) M' (ps ++ [q]) A' P')
    (hM : ∀ j, M' (filePos j) = M (filePos j)) :
    Laid V M₀ total k M' (ps ++ [q]) A' { pr with preallocated := P' } := by
  refine ⟨hz, h.upper, fun j => ?_, h.written, ?_⟩
  · rw [mem_append, mem_singleton, or_iff_left (hq j)]
    exact h.blocks j
  · rw [h.ops]
    refine map_congr_left fun j _ => ?_
    rw [fileOp, fileOp, hM j]

end

end Laid

section Loops

variable {V : Volume} {M₀ M : Pos → Nat} {total k : Nat} {ps : List Pos} {A : List Nat}
  {pr : FileProgress}

lemma Volume.Zoned.fileNewZone {P : List Nat}
    (h : V.Zoned M₀ (lacking M₀ (fileBlocks total)) M ps A P)
    (hs : V.FileSupply M₀ (fileBlocks total)) {p : Pos} (hp : p ∉ ps) (h₀ : M₀ p = 0)
    (hmem : p ∈ filePlaces (fileBlocks total)) {Q : Post FsError (Nat × List Nat)}
    (hQ : ∀ z P', V.IsData z → V.Zoned M₀ (lacking M₀ (fileBlocks total)) (update M p z)
        (ps ++ [p]) (A ++ [z]) P' → Q (.ok (z, P')) (V.taking (A ++ [z] ++ P') V.block)) :
    Spec (TwilightFs.fileNewZone P) Q (V.taking (A ++ P) V.block) := by
  have hpN : p ∈ lacking M₀ (fileBlocks total) := mem_lacking.mpr ⟨hmem, h₀⟩
  have hnew : ∀ z P', V.Fresh (A ++ [z] ++ P') →
      Q (.ok (z, P')) (V.taking (A ++ [z] ++ P') V.block) := fun z P' hfresh =>
    hQ z P' (hfresh.isData z (by simp)) (h.new hs.layout hp h₀ hpN hfresh)
  have hfresh := h.fresh
  cases P with
  | cons z rest =>
    rw [append_cons] at hfresh ⊢
    exact Wp.pure (hnew z rest hfresh)
  | nil =>
    rw [append_nil] at hfresh ⊢
    refine Wp.bind (Wp.mapErr (spec_allocateZone (V := V.taking A V.block) hs.layout.mapped
      (fun z hz => ?_) fun hall => ?_))
    · have hz' := hfresh.snoc hz
      rw [Volume.taking_setZmap, ← append_nil (A ++ [z])]
      rw [← append_nil (A ++ [z])] at hz'
      exact Wp.pure (hnew z [] hz')
    · exact absurd hall (h.not_full hs.enough hp h₀ hpN V.block)

lemma fileEntries_spec {τ : Type} {get : τ → Nat → Nat} {set : τ → Nat → Nat → τ}
    {child : Nat → Pos} {b cap : Nat} (hs : V.FileSupply M₀ (fileBlocks total))
    (htable : ∀ t j z, j < cap → z < 2 ^ 32 →
      ∀ j', get (set t j z) j' = if j' = j then z else get t j')
    (hchild : ∀ j < cap, filePos (b + j) = child j) (hinj : ∀ j j', child j = child j' → j = j')
    {Q : Post FsError (τ × Bool × FileProgress)} {i : Nat} {t : τ} {dirty : Bool}
    (hi : i ≤ cap) (hk : k = b + i) (h : Laid V M₀ total k M ps A pr)
    (ht : ∀ j, get t j = M (child j))
    (hQ : ∀ t' dirty' k' M' ps' A' pr', Laid V M₀ total k' M' ps' A' pr' →
      (k ≤ k' ∧ k' ≤ b + cap ∧ (k' = fileBlocks total ∨ k' = b + cap)) →
      (∀ j, get t' j = M' (child j)) →
      (∀ p, (∀ j, p ≠ child j) → M' p = M p ∧ (p ∈ ps' ↔ p ∈ ps)) →
      (dirty' = false → dirty = false ∧ M' = M) →
      Q (.ok (t', dirty', pr')) (V.taking (A' ++ pr'.preallocated) V.block)) :
    Spec (fileEntries get set cap total i t dirty pr) Q
      (V.taking (A ++ pr.preallocated) V.block) := by
  induction hn : cap - i generalizing i k t dirty M ps A pr with
  | zero =>
    rw [fileEntries, if_pos (.inl (by omega))]
    exact Wp.pure (hQ t dirty k M ps A pr h (by omega) ht (fun _ _ => ⟨rfl, Iff.rfl⟩)
      fun hd => ⟨hd, rfl⟩)
  | succ n ih =>
    rw [fileEntries]
    by_cases hend : k = fileBlocks total
    · rw [if_pos (.inr (h.done.mpr hend))]
      exact Wp.pure (hQ t dirty k M ps A pr h (by omega) ht (fun _ _ => ⟨rfl, Iff.rfl⟩)
        fun hd => ⟨hd, rfl⟩)
    have hlt : k < fileBlocks total := by
      have := h.upper
      omega
    have hpos : filePos k = child i := by rw [hk, hchild i (by omega)]
    have hi' : ¬ cap ≤ i := by omega
    rw [if_neg (not_or.mpr ⟨hi', fun hd => hend (h.done.mp hd)⟩)]
    simp only [ht i, ← hpos]
    have hmem : filePos k ∈ filePlaces (fileBlocks total) := filePos_mem.mpr hlt
    -- what the rest of the loop leaves alone
    have hother : ∀ p, (∀ j, p ≠ child j) → p ≠ filePos k := fun p hp => hpos ▸ hp i
    have hvisit : ∀ p, (∀ j, p ≠ child j) → (p ∈ ps ++ [filePos k] ↔ p ∈ ps) := fun p hp => by
      rw [mem_append, mem_singleton, or_iff_left (hother p hp)]
    by_cases hz : M (filePos k) = 0
    · -- a block without a zone
      have h₀ : M₀ (filePos k) = 0 := by rw [← h.zoned.kept _ (.inr h.not_mem), hz]
      rw [if_pos hz]
      refine Wp.bind (h.zoned.fileNewZone hs h.not_mem h₀ hmem fun z P' hdata hzoned => ?_)
      have hz32 : z < 2 ^ 32 := zone_lt hs.layout hdata
      have hne : ∀ j, j ≠ k → filePos j ≠ filePos k := fun j hj he => hj (filePos_inj he)
      have hnext := h.next hlt hzoned fun j hj =>
        update_of_ne (hne j (Nat.ne_of_lt hj)) _ _
      simp only [update_self] at hnext
      refine ih (i := i + 1) (by omega) (by omega) hnext (fun j => ?_)
        (fun t' dirty' k' M' ps' A' pr' hf hk' htab hframe hclean => ?_) (by omega)
      · rw [htable _ _ _ (by omega) hz32, hpos]
        by_cases hj : j = i
        · rw [if_pos hj, hj, update_self]
        · rw [if_neg hj, update_of_ne fun he => hj (hinj _ _ he), ht]
      · refine hQ t' dirty' k' M' ps' A' pr' hf (by omega) htab (fun p hp => ?_)
          fun hd => nomatch (hclean hd).1
        obtain ⟨h1, h2⟩ := hframe p hp
        exact ⟨h1.trans (update_of_ne (hother p hp) _ _), h2.trans (hvisit p hp)⟩
    · -- a block with one
      rw [if_neg hz]
      have hnext := h.next hlt (h.zoned.keep h.not_mem hz) fun _ _ => rfl
      refine ih (i := i + 1) (by omega) (by omega) hnext ht
        (fun t' dirty' k' M' ps' A' pr' hf hk' htab hframe hclean => ?_) (by omega)
      refine hQ t' dirty' k' M' ps' A' pr' hf (by omega) htab (fun p hp => ?_) hclean
      exact ⟨(hframe p hp).1, (hframe p hp).2.trans (hvisit p hp)⟩

end Loops

/-! ## Pointer blocks -/

/-- The place of entry `k` of the pointer block at a place. -/
def below : Pos → Nat → Pos
  | .single, k => .singleEntry k
  | .double, k => .l1 k
  | .l1 j, k => .l2 j k
  | p, _ => p

/-- The pointer blocks at the places `C` that differ from before are in `W`, with the entries the
map has. -/
structure Pending (M₀ M : Pos → Nat) (C : Pos → Prop) (W : List (Nat × Bytes)) : Prop where
  stored : ∀ w ∈ W, ∃ q, C q ∧ w.1 = M q ∧ w.1 ≠ 0 ∧ ∀ k, entryAt w.2 k = M (below q k)
  kept : ∀ q, C q → (∀ w ∈ W, w.1 ≠ M q) → M q = M₀ q ∧ ∀ k, M (below q k) = M₀ (below q k)

namespace Pending

variable {M₀ M M' : Pos → Nat} {C C' : Pos → Prop} {W W' : List (Nat × Bytes)}

section

variable (h : Pending M₀ M C W)
include h

lemma frame
    (hM : ∀ q, C q → M' q = M q ∧ ∀ k, M' (below q k) = M (below q k)) : Pending M₀ M' C W := by
  refine ⟨fun w hw => ?_, fun q hq hout => ?_⟩
  · obtain ⟨q, hq, h1, h2, h3⟩ := h.stored w hw
    obtain ⟨hself, hbelow⟩ := hM q hq
    exact ⟨q, hq, h1.trans hself.symm, h2, fun k => (h3 k).trans (hbelow k).symm⟩
  · obtain ⟨hself, hbelow⟩ := hM q hq
    obtain ⟨h1, h2⟩ := h.kept q hq fun w hw => hself ▸ hout w hw
    exact ⟨hself.trans h1, fun k => (hbelow k).trans (h2 k)⟩

lemma close {q : Pos} {buf : Bytes} {dirty : Bool} (hne : M q ≠ 0)
    (hbuf : ∀ k, entryAt buf k = M (below q k))
    (hclean : dirty = false → M q = M₀ q ∧ ∀ k, M (below q k) = M₀ (below q k)) :
    Pending M₀ M (fun p => C p ∨ p = q) (W ++ changed (M q) buf dirty) := by
  cases dirty with
  | false =>
    rw [changed, if_neg Bool.false_ne_true, append_nil]
    refine ⟨fun w hw => ?_, fun p hp hout => ?_⟩
    · obtain ⟨p, hp, hrest⟩ := h.stored w hw
      exact ⟨p, .inl hp, hrest⟩
    · rcases hp with hp | rfl
      · exact h.kept p hp hout
      · exact hclean rfl
  | true =>
    rw [changed, if_pos rfl]
    refine ⟨fun w hw => ?_, fun p hp hout => ?_⟩
    · rcases mem_append.mp hw with hw | hw
      · obtain ⟨p, hp, hrest⟩ := h.stored w hw
        exact ⟨p, .inl hp, hrest⟩
      · rw [mem_singleton.mp hw]
        exact ⟨q, .inr rfl, rfl, hne, hbuf⟩
    · rcases hp with hp | rfl
      · exact h.kept p hp fun w hw => hout w (mem_append_left _ hw)
      · exact absurd rfl (hout (M p, buf) (by simp))

lemma closed (hC : ∀ q, C q → C' q)
    (hsame : ∀ q, C' q → ¬ C q → M q = M₀ q ∧ ∀ k, M (below q k) = M₀ (below q k)) :
    Pending M₀ M C' W := by
  refine ⟨fun w hw => ?_, fun q hq hout => ?_⟩
  · obtain ⟨p, hp, hrest⟩ := h.stored w hw
    exact ⟨p, hC p hp, hrest⟩
  · by_cases hq' : C q
    · exact h.kept q hq' hout
    · exact hsame q hq hq'

lemma perm (hW : ∀ w, w ∈ W' ↔ w ∈ W) : Pending M₀ M C W' :=
  ⟨fun w hw => h.stored w ((hW w).mp hw),
    fun q hq hout => h.kept q hq fun w hw => hout w ((hW w).mpr hw)⟩

end

end Pending

section Pointers

variable {V : Volume} {M₀ M : Pos → Nat} {total k : Nat} {ps : List Pos} {A : List Nat}
  {pr : FileProgress} {i : Inode}

lemma filePointers_spec (hs : V.FileSupply M₀ (fileBlocks total)) {q : Pos} {b : Nat}
    (hchild : ∀ j < 512, filePos (b + j) = below q j)
    (hinj : ∀ j j', below q j = below q j' → j = j') (hk : k = b)
    (h : Laid V M₀ total k M ps A pr) {buf : Bytes} {dirty : Bool}
    (hbuf : ∀ j, entryAt buf j = M (below q j)) {Q : Post FsError (Bytes × Bool × FileProgress)}
    (hQ : ∀ buf' dirty' k' M' ps' A' pr', Laid V M₀ total k' M' ps' A' pr' →
      (k ≤ k' ∧ k' ≤ b + 512 ∧ (k' = fileBlocks total ∨ k' = b + 512)) →
      (∀ j, entryAt buf' j = M' (below q j)) →
      (∀ p, (∀ j, p ≠ below q j) → M' p = M p ∧ (p ∈ ps' ↔ p ∈ ps)) →
      (dirty' = false → dirty = false ∧ M' = M) →
      Q (.ok (buf', dirty', pr')) (V.taking (A' ++ pr'.preallocated) V.block)) :
    Spec (filePointers total buf dirty pr) Q (V.taking (A ++ pr.preallocated) V.block) :=
  fileEntries_spec hs (fun _ _ _ hj hz j' => entryAt_putEntry hj hz j') hchild hinj
    (Nat.zero_le 512) hk h hbuf hQ

lemma fileSingle_spec (hs : V.FileSupply M₀ (fileBlocks total))
    (h : Laid V M₀ total k M ps A pr) (hk : k = min (fileBlocks total) 6)
    (hsame : ∀ p, (∀ b, p ≠ .direct b) → M p = M₀ p ∧ p ∉ ps)
    (hi : i.singleIndirectGet = M₀ .single)
    (hp : ∀ k, M₀ (.singleEntry k) = pointerIn V.block (M₀ .single) k)
    {Q : Post FsError (Inode × List (Nat × Bytes) × FileProgress)}
    (hQ : ∀ W k' M' ps' A' pr', Laid V M₀ total k' M' ps' A' pr' →
      k' = min (fileBlocks total) 518 → Pending M₀ M' (· = .single) W →
      (∀ p, p ≠ .single → (∀ j, p ≠ .singleEntry j) → M' p = M p ∧ (p ∈ ps' ↔ p ∈ ps)) →
      Q (.ok (i.singleIndirectSet (M' .single), W, pr'))
        (V.taking (A' ++ pr'.preallocated) V.block)) :
    Spec (fileSingle total i pr) Q (V.taking (A ++ pr.preallocated) V.block) := by
  have hsingle : M .single = M₀ .single := (hsame .single nofun).1
  have hentry : ∀ j, M (.singleEntry j) = M₀ (.singleEntry j) := fun j =>
    (hsame (.singleEntry j) nofun).1
  have hi' : i.singleIndirectSet (M .single) = i := by
    rw [hsingle, ← hi, i.singleIndirectSet_get]
  have hstart : Pending M₀ M (fun _ => False) [] := ⟨nofun, fun _ hq => hq.elim⟩
  rw [fileSingle]
  by_cases hend : k = fileBlocks total
  · -- the direct slots are enough
    rw [if_pos (h.done.mpr hend)]
    have hdone : Pending M₀ M (· = .single) [] := hstart.closed nofun (by
      rintro q rfl -
      exact ⟨hsingle, hentry⟩)
    have hQ' := hQ [] k M ps A pr h (by omega) hdone fun _ _ _ => ⟨rfl, Iff.rfl⟩
    rw [hi'] at hQ'
    exact Wp.pure hQ'
  rw [if_neg fun hd => hend (h.done.mp hd)]
  have hk6 : k = 6 := by omega
  have hlt : 6 < fileBlocks total := by
    have := h.upper
    omega
  have hchild : ∀ j < 512, filePos (6 + j) = below .single j := fun j hj => filePos_single hj
  have hinj : ∀ j j', below .single j = below .single j' → j = j' := fun j j' he => by
    injection he
  have hmem : Pos.single ∈ filePlaces (fileBlocks total) := mem_filePlaces.mpr (.inr (.inl ⟨hlt, rfl⟩))
  have hnew : Pos.single ∉ ps := (hsame .single nofun).2
  by_cases hz : M .single = 0
  · -- a new pointer block
    have h₀ : M₀ .single = 0 := hsingle ▸ hz
    rw [if_pos (hi.trans h₀)]
    refine Wp.bind (h.zoned.fileNewZone hs hnew h₀ hmem fun z P' hdata hzoned => ?_)
    have hM : ∀ p, p ≠ .single → update M .single z p = M p := fun p hp =>
      update_of_ne hp _ _
    have hlaid := h.visit (fun j => (filePos_ne_pointer j).1) hzoned fun j =>
      hM _ (filePos_ne_pointer j).1
    refine Wp.bind (filePointers_spec hs hchild hinj hk6 hlaid (fun j => ?_) ?_)
    · rw [entryAt_zero, hM (below .single j) nofun]
      exact ((hentry j).trans (by rw [hp, h₀]; rfl)).symm
    intro buf' dirty' k' M' ps' A' pr' hf hk' hbuf hframe hclean
    have hupper := hf.upper
    have hself : M' .single = z := by
      rw [(hframe .single nofun).1, update_self]
    have hzne : M' .single ≠ 0 := hself ▸ zone_ne hs.layout hdata
    have hpend : Pending M₀ M' (· = .single) ([] ++ changed (M' .single) buf' dirty') := by
      have hstart' : Pending M₀ M' (fun _ => False) [] := hstart.frame nofun
      refine (hstart'.close hzne hbuf fun hd => nomatch (hclean hd).1).closed ?_ ?_
      · rintro q (hq | rfl)
        · exact hq.elim
        · rfl
      · exact fun q hq hno => absurd (.inr hq) hno
    rw [← hself]
    refine Wp.pure (hQ _ k' M' ps' A' pr' hf (by omega) hpend fun p hp1 hp2 => ?_)
    obtain ⟨h1, h2⟩ := hframe p hp2
    refine ⟨h1.trans (hM p hp1), h2.trans ?_⟩
    rw [mem_append, mem_singleton, or_iff_left hp1]
  · have h₀ : M₀ .single ≠ 0 := hsingle ▸ hz
    rw [if_neg fun he => h₀ (hi ▸ he), hi]
    have hlaid := h.visit (fun j => (filePos_ne_pointer j).1) (h.zoned.keep hnew hz) fun _ => rfl
    refine Wp.bind (spec_readTfsBlock hs.layout (hs.maps.isData _ h₀) ?_)
    refine Wp.bind (filePointers_spec hs hchild hinj hk6 hlaid (fun j => ?_) ?_)
    · exact ((hentry j).trans ((hp j).trans (pointerIn_of_ne h₀ j))).symm
    intro buf' dirty' k' M' ps' A' pr' hf hk' hbuf hframe hclean
    have hupper := hf.upper
    have hself : M' .single = M .single := (hframe .single nofun).1
    have hpend : Pending M₀ M' (· = .single) ([] ++ changed (M' .single) buf' dirty') := by
      have hstart' : Pending M₀ M' (fun _ => False) [] := hstart.frame nofun
      refine (hstart'.close (hself ▸ hz) hbuf fun hd => ?_).closed ?_ ?_
      · obtain ⟨-, rfl⟩ := hclean hd
        exact ⟨hsingle, hentry⟩
      · rintro q (hq | rfl)
        · exact hq.elim
        · rfl
      · exact fun q hq hno => absurd (.inr hq) hno
    have hQ' := hQ _ k' M' ps' A' pr' hf (by omega) hpend fun p hp1 hp2 => by
      obtain ⟨h1, h2⟩ := hframe p hp2
      refine ⟨h1, h2.trans ?_⟩
      rw [mem_append, mem_singleton, or_iff_left hp1]
    rw [hself, hi', hsingle] at hQ'
    exact Wp.pure hQ'

lemma l2_not_mem {m j k : Nat} (hk : 512 ≤ k) : Pos.l2 j k ∉ filePlaces m := by
  rw [mem_filePlaces]
  rintro (⟨b, -, he⟩ | ⟨-, he⟩ | ⟨-, he | ⟨l, -, he⟩⟩)
  · unfold filePos at he
    split_ifs at he
    injection he
    omega
  · cases he
  · cases he
  · cases he

variable {n : Nat}

lemma Laid.unvisited (h : Laid V M₀ total k M ps A pr)
    (hk : k = min (fileBlocks total) (518 + 512 * n)) (hnew : ∀ j, n ≤ j → Pos.l1 j ∉ ps) {j : Nat}
    (hj : n ≤ j) : M (.l1 j) = M₀ (.l1 j) ∧ ∀ c, M (.l2 j c) = M₀ (.l2 j c) := by
  refine ⟨h.zoned.kept _ (.inr (hnew j hj)), fun c => ?_⟩
  by_cases hc : c < 512
  · rw [← filePos_l2 hc]
    refine h.zoned.kept _ (.inr fun hmem => ?_)
    have := (h.blocks _).mp hmem
    omega
  · exact h.zoned.outside (l2_not_mem (by omega))

/-- The pointer blocks done when the loop over the double indirect block is at `n`. -/
def DoneL1 (n : Nat) (q : Pos) : Prop := q = .single ∨ ∃ j < n, q = .l1 j

lemma Pending.allL1 {W : List (Nat × Bytes)} (hpend : Pending M₀ M (DoneL1 n) W)
    (h : Laid V M₀ total k M ps A pr) (hk : k = min (fileBlocks total) (518 + 512 * n))
    (hnew : ∀ j, n ≤ j → Pos.l1 j ∉ ps) :
    Pending M₀ M (fun q => q = .single ∨ ∃ j, q = .l1 j) W := by
  refine hpend.closed ?_ ?_
  · rintro q (hq | ⟨j, -, hq⟩)
    · exact .inl hq
    · exact .inr ⟨j, hq⟩
  rintro q (rfl | ⟨j, rfl⟩) hno
  · exact absurd (.inl rfl) hno
  · have hj : n ≤ j := by
      by_contra hlt
      exact hno (.inr ⟨j, by omega, rfl⟩)
    exact h.unvisited hk hnew hj

lemma fileL1_spec (hs : V.FileSupply M₀ (fileBlocks total))
    (hcap : fileBlocks total ≤ maxFileBlocks)
    (hp : ∀ j c, M₀ (.l2 j c) = pointerIn V.block (M₀ (.l1 j)) c) (hn : n ≤ 512)
    (h : Laid V M₀ total k M ps A pr) (hk : k = min (fileBlocks total) (518 + 512 * n))
    (hnew : ∀ j, n ≤ j → Pos.l1 j ∉ ps) {root : Bytes} {dirty : Bool}
    (hroot : ∀ j, entryAt root j = M (.l1 j)) {S l2 : List (Nat × Bytes)}
    (hpend : Pending M₀ M (DoneL1 n) (S ++ l2))
    {Q : Post FsError (Bytes × Bool × List (Nat × Bytes) × FileProgress)}
    (hQ : ∀ root' dirty' l2' M' ps' A' pr', Laid V M₀ total (fileBlocks total) M' ps' A' pr' →
      (∀ j, entryAt root' j = M' (.l1 j)) →
      Pending M₀ M' (fun q => q = .single ∨ ∃ j, q = .l1 j) (S ++ l2') →
      (∀ p, (∀ j, p ≠ .l1 j) → (∀ j c, p ≠ .l2 j c) → M' p = M p ∧ (p ∈ ps' ↔ p ∈ ps)) →
      (dirty' = false → dirty = false ∧ ∀ j, M' (.l1 j) = M (.l1 j)) →
      Q (.ok (root', dirty', l2', pr')) (V.taking (A' ++ pr'.preallocated) V.block)) :
    Spec (fileL1 total n root dirty l2 pr) Q (V.taking (A ++ pr.preallocated) V.block) := by
  induction hm : 512 - n using Nat.strong_induction_on
    generalizing n k M ps A pr root dirty l2 with
  | _ d ih =>
  rw [fileL1]
  by_cases hend : k = fileBlocks total
  · rw [if_pos (.inr (h.done.mpr hend))]
    exact Wp.pure (hQ root dirty l2 M ps A pr (hend ▸ h) hroot (hpend.allL1 h hk hnew)
      (fun _ _ _ => ⟨rfl, Iff.rfl⟩) fun hd => ⟨hd, fun _ => rfl⟩)
  have hupper := h.upper
  unfold maxFileBlocks at hcap
  have hkn : k = 518 + 512 * n := by omega
  have hn' : ¬ 512 ≤ n := by omega
  rw [if_neg (not_or.mpr ⟨hn', fun hd => hend (h.done.mp hd)⟩)]
  obtain ⟨hself₀, hbelow₀⟩ := h.unvisited hk hnew (Nat.le_refl n)
  have hinj : ∀ j j', below (.l1 n) j = below (.l1 n) j' → j = j' := fun j j' he => by injection he
  -- the rest, once entry `n` has a block
  have hgo : ∀ {z : Nat} {M₁ : Pos → Nat} {A₁ : List Nat} {pr₁ : FileProgress}
      {root₁ buf₀ : Bytes} {dirty₁ : Bool}, Laid V M₀ total k M₁ (ps ++ [.l1 n]) A₁ pr₁ →
      M₁ (.l1 n) = z → z ≠ 0 → (∀ p, p ≠ .l1 n → M₁ p = M p) →
      (∀ j, entryAt root₁ j = M₁ (.l1 j)) → (∀ c, entryAt buf₀ c = M₁ (.l2 n c)) →
      (dirty₁ = false → dirty = false ∧ M₁ = M) →
      (M₁ (.l1 n) = M₀ (.l1 n) ∨ ∀ c, M₁ (.l2 n c) = 0) →
      Spec (filePointers total buf₀ false pr₁ >>= fun r =>
          fileL1 total (n + 1) root₁ dirty₁ (l2 ++ changed z r.1 r.2.1) r.2.2) Q
        (V.taking (A₁ ++ pr₁.preallocated) V.block) := by
    intro z M₁ A₁ pr₁ root₁ buf₀ dirty₁ h₁ hz₁ hne hM₁ hroot₁ hbuf₀ hdirty₁ hold
    refine Wp.bind (filePointers_spec hs (fun j hj => filePos_l2 hj) hinj hkn h₁ hbuf₀ ?_)
    intro buf' dirty' k' M' ps' A' pr' hf hk' hbuf hframe hclean
    have hupper' := hf.upper
    have hself : M' (.l1 n) = z := (hframe (.l1 n) (by simp [below])).1.trans hz₁
    have hsame : ∀ p, p ≠ .l1 n → (∀ c, p ≠ .l2 n c) → M' p = M p ∧ (p ∈ ps' ↔ p ∈ ps) := by
      intro p hp1 hp2
      obtain ⟨h1, h2⟩ := hframe p hp2
      refine ⟨h1.trans (hM₁ p hp1), h2.trans ?_⟩
      rw [mem_append, mem_singleton, or_iff_left hp1]
    have hl1 : ∀ j, j ≠ n → Pos.l1 j ≠ .l1 n := fun j hj he => hj (by injection he)
    have hl2 : ∀ j c, j ≠ n → ∀ c', Pos.l2 j c ≠ .l2 n c' := fun j c hj c' he => hj (by injection he)
    -- a block that has not changed was there before
    have hkept : dirty' = false →
        M' (.l1 n) = M₀ (.l1 n) ∧ ∀ c, M' (below (.l1 n) c) = M₀ (below (.l1 n) c) := by
      intro hd
      obtain ⟨-, rfl⟩ := hclean hd
      have hmapped : M' (.l2 n 0) ≠ 0 := by
        have hpos : filePos (518 + 512 * n + 0) = .l2 n 0 := filePos_l2 (by decide)
        rw [← hpos]
        exact hf.zoned.mapped _ ((hf.blocks _).mpr (by omega))
      refine ⟨hold.resolve_right fun hzero => hmapped (hzero 0), fun c => ?_⟩
      exact (hM₁ (.l2 n c) (by simp)).trans (hbelow₀ c)
    have hpend' : Pending M₀ M' (DoneL1 (n + 1))
        (S ++ (l2 ++ changed (M' (.l1 n)) buf' dirty')) := by
      have hold' : Pending M₀ M' (DoneL1 n) (S ++ l2) := by
        refine hpend.frame ?_
        rintro q (rfl | ⟨j, hj, rfl⟩)
        · exact ⟨(hsame .single (by simp) (by simp)).1,
            fun c => (hsame (.singleEntry c) (by simp) (by simp)).1⟩
        · exact ⟨(hsame _ (hl1 j (by omega)) (by simp)).1,
            fun c => (hsame (.l2 j c) (by simp) (hl2 j c (by omega))).1⟩
      rw [← append_assoc]
      refine (hold'.close (hself ▸ hne) hbuf hkept).closed ?_ ?_
      · rintro q ((hq | ⟨j, hj, hq⟩) | hq)
        · exact .inl hq
        · exact .inr ⟨j, by omega, hq⟩
        · exact .inr ⟨n, Nat.lt_succ_self n, hq⟩
      · rintro q (hq | ⟨j, hj, hq⟩) hno
        · exact absurd (.inl (.inl hq)) hno
        · by_cases hjn : j = n
          · exact absurd (.inr (hjn ▸ hq)) hno
          · exact absurd (.inl (.inr ⟨j, by omega, hq⟩)) hno
    rw [← hself]
    refine ih (512 - (n + 1)) (by omega) (by omega) hf (by omega) (fun j hj => ?_) (fun j => ?_)
      hpend' ?_ rfl
    · rw [(hsame (.l1 j) (hl1 j (by omega)) (by simp)).2]
      exact hnew j (by omega)
    · rw [hroot₁, (hframe (.l1 j) (by simp [below])).1]
    intro root' dirty'' l2' M'' ps'' A'' pr'' hf'' hroot'' hpend'' hframe'' hclean''
    refine hQ root' dirty'' l2' M'' ps'' A'' pr'' hf'' hroot'' hpend'' (fun p hp1 hp2 => ?_)
      fun hd => ?_
    · obtain ⟨h1, h2⟩ := hframe'' p hp1 hp2
      obtain ⟨h3, h4⟩ := hsame p (hp1 n) (hp2 n)
      exact ⟨h1.trans h3, h2.trans h4⟩
    · obtain ⟨hd₁, hl⟩ := hclean'' hd
      obtain ⟨hd₂, rfl⟩ := hdirty₁ hd₁
      exact ⟨hd₂, fun j => (hl j).trans (hframe (.l1 j) (by simp [below])).1⟩
  rw [hroot n]
  by_cases hz : M (.l1 n) = 0
  · -- a new second-level block
    have h₀ : M₀ (.l1 n) = 0 := hself₀ ▸ hz
    have hmem : Pos.l1 n ∈ filePlaces (fileBlocks total) :=
      mem_filePlaces.mpr (.inr (.inr ⟨by omega, .inr ⟨n, by omega, rfl⟩⟩))
    rw [if_pos hz]
    refine Wp.bind (h.zoned.fileNewZone hs (hnew n (Nat.le_refl n)) h₀ hmem
      fun z P' hdata hzoned => ?_)
    have hzero : ∀ c, M (.l2 n c) = 0 := fun c => by rw [hbelow₀, hp, h₀]; rfl
    have hM : ∀ p, p ≠ .l1 n → update M (.l1 n) z p = M p := fun p hp =>
      update_of_ne hp _ _
    have hself : update M (.l1 n) z (.l1 n) = z := update_self ..
    have hlaid := h.visit (fun j => (filePos_ne_pointer j).2.2 n) hzoned fun j =>
      hM _ ((filePos_ne_pointer j).2.2 n)
    refine hgo hlaid hself (zone_ne hs.layout hdata) hM (fun j => ?_) (fun c => ?_) (by simp)
      (.inr fun c => ?_)
    · rw [entryAt_putEntry (by omega) (zone_lt hs.layout hdata)]
      by_cases hj : j = n
      · rw [if_pos hj, hj, hself]
      · rw [if_neg hj, hroot, hM _ fun he => hj (by injection he)]
    · rw [entryAt_zero, hM (.l2 n c) (by simp), hzero]
    · rw [hM (.l2 n c) (by simp), hzero]
  · have h₀ : M₀ (.l1 n) ≠ 0 := hself₀ ▸ hz
    rw [if_neg hz]
    have hlaid := h.visit (fun j => (filePos_ne_pointer j).2.2 n)
      (h.zoned.keep (hnew n (Nat.le_refl n)) hz) fun _ => rfl
    refine Wp.bind (spec_readTfsBlock hs.layout (h.zoned.isData hs.maps hz) ?_)
    refine hgo hlaid rfl hz (fun _ _ => rfl) hroot (fun c => ?_) (fun hd => ⟨hd, rfl⟩) (.inl hself₀)
    rw [hbelow₀, hp, pointerIn_of_ne h₀, hself₀]
    rfl

def IsPointer (q : Pos) : Prop := q = .single ∨ q = .double ∨ ∃ j, q = .l1 j

lemma fileDouble_spec (hs : V.FileSupply M₀ (fileBlocks total))
    (hcap : fileBlocks total ≤ maxFileBlocks) (h : Laid V M₀ total k M ps A pr)
    (hk : k = min (fileBlocks total) 518) (hdouble : M .double = M₀ .double ∧ Pos.double ∉ ps)
    (hnew : ∀ j, Pos.l1 j ∉ ps) (hi : i.doubleIndirectGet = M₀ .double)
    (hp1 : ∀ j, M₀ (.l1 j) = pointerIn V.block (M₀ .double) j)
    (hp2 : ∀ j c, M₀ (.l2 j c) = pointerIn V.block (M₀ (.l1 j)) c) {S : List (Nat × Bytes)}
    (hpend : Pending M₀ M (· = .single) S)
    {Q : Post FsError (Inode × List (Nat × Bytes) × List (Nat × Bytes) × FileProgress)}
    (hQ : ∀ l2 D M' ps' A' pr', Laid V M₀ total (fileBlocks total) M' ps' A' pr' →
      Pending M₀ M' IsPointer (l2 ++ S ++ D) → M' .single = M .single →
      (∀ b, M' (.direct b) = M (.direct b)) →
      Q (.ok (i.doubleIndirectSet (M' .double), l2, D, pr'))
        (V.taking (A' ++ pr'.preallocated) V.block)) :
    Spec (fileDouble total i pr) Q (V.taking (A ++ pr.preallocated) V.block) := by
  have hk0 : k = min (fileBlocks total) (518 + 512 * 0) := hk
  have hl1 : ∀ j, M (.l1 j) = M₀ (.l1 j) := fun j =>
    (h.unvisited hk0 (fun j _ => hnew j) (Nat.zero_le j)).1
  have hi' : i.doubleIndirectSet (M .double) = i := by
    rw [hdouble.1, ← hi, i.doubleIndirectSet_get]
  have hpend0 : Pending M₀ M (DoneL1 0) (S ++ []) := by
    rw [append_nil]
    refine hpend.closed (fun q hq => .inl hq) ?_
    rintro q (hq | ⟨j, hj, -⟩) hno
    · exact absurd hq hno
    · exact absurd hj (Nat.not_lt_zero j)
  rw [fileDouble]
  by_cases hend : k = fileBlocks total
  · -- no block in this range
    rw [if_pos (h.done.mpr hend)]
    have hall : Pending M₀ M IsPointer ([] ++ S ++ []) := by
      rw [append_nil] at hpend0 ⊢
      refine (hpend0.allL1 h hk0 fun j _ => hnew j).closed ?_ ?_
      · rintro q (hq | hq)
        · exact .inl hq
        · exact .inr (.inr hq)
      · rintro q (hq | rfl | hq) hno
        · exact absurd (.inl hq) hno
        · exact ⟨hdouble.1, hl1⟩
        · exact absurd (.inr hq) hno
    have hQ' := hQ [] [] M ps A pr (hend ▸ h) hall rfl fun _ => rfl
    rw [hi'] at hQ'
    exact Wp.pure hQ'
  rw [if_neg fun hd => hend (h.done.mp hd)]
  have hupper := h.upper
  -- what the loop leaves, once the double indirect block is there
  have hclose : ∀ {z : Nat} {M' : Pos → Nat} {root' : Bytes} {dirty' : Bool}
      {l2 : List (Nat × Bytes)}, M' .double = z → z ≠ 0 → (∀ j, entryAt root' j = M' (.l1 j)) →
      Pending M₀ M' (fun q => q = .single ∨ ∃ j, q = .l1 j) (S ++ l2) →
      (dirty' = false → M' .double = M .double ∧ ∀ j, M' (.l1 j) = M (.l1 j)) →
      Pending M₀ M' IsPointer (l2 ++ S ++ changed z root' dirty') := by
    intro z M' root' dirty' l2 hself hz hroot hpend' hclean
    have hdone : Pending M₀ M' (fun q => (q = .single ∨ ∃ j, q = .l1 j) ∨ q = .double)
        (S ++ l2 ++ changed (M' .double) root' dirty') := hpend'.close (hself ▸ hz) hroot fun hd => by
      obtain ⟨h1, h2⟩ := hclean hd
      exact ⟨h1.trans hdouble.1, fun j => (h2 j).trans (hl1 j)⟩
    rw [hself] at hdone
    refine (hdone.closed ?_ ?_).perm fun w => by
      simp only [mem_append, or_comm]
    · rintro q ((hq | hq) | hq)
      · exact .inl hq
      · exact .inr (.inr hq)
      · exact .inr (.inl hq)
    · rintro q (hq | hq | hq) hno
      · exact absurd (.inl (.inl hq)) hno
      · exact absurd (.inr hq) hno
      · exact absurd (.inl (.inr hq)) hno
  by_cases hz : M .double = 0
  · -- a new pointer block
    have h₀ : M₀ .double = 0 := hdouble.1 ▸ hz
    have hmem : Pos.double ∈ filePlaces (fileBlocks total) :=
      mem_filePlaces.mpr (.inr (.inr ⟨by omega, .inl rfl⟩))
    rw [if_pos (hi.trans h₀)]
    refine Wp.bind (h.zoned.fileNewZone hs hdouble.2 h₀ hmem fun z P' hdata hzoned => ?_)
    have hM : ∀ p, p ≠ .double → update M .double z p = M p := fun p hp =>
      update_of_ne hp _ _
    have hlaid := h.visit (fun j => (filePos_ne_pointer j).2.1) hzoned fun j =>
      hM _ (filePos_ne_pointer j).2.1
    have hpend1 : Pending M₀ (update M .double z) (DoneL1 0) (S ++ []) := by
      refine hpend0.frame ?_
      rintro q (rfl | ⟨j, hj, -⟩)
      · exact ⟨hM _ nofun, fun c => hM (.singleEntry c) nofun⟩
      · exact absurd hj (Nat.not_lt_zero j)
    refine Wp.bind (fileL1_spec hs hcap hp2 (Nat.zero_le 512) hlaid hk0 (fun j _ => ?_)
      (fun j => ?_) hpend1 ?_)
    · rw [mem_append, mem_singleton, not_or]
      exact ⟨hnew j, nofun⟩
    · rw [entryAt_zero, hM (.l1 j) nofun, hl1, hp1, h₀]
      rfl
    intro root' dirty' l2 M' ps' A' pr' hf hroot hpend' hframe hclean
    have hself : M' .double = z := by
      rw [(hframe .double nofun nofun).1, update_self]
    have hQ' := hQ l2 _ M' ps' A' pr' hf (hclose hself (zone_ne hs.layout hdata) hroot
      hpend' fun hd => nomatch (hclean hd).1) ?_ fun b => ?_
    · rw [hself] at hQ'
      exact Wp.pure hQ'
    · rw [(hframe .single nofun nofun).1, hM .single nofun]
    · rw [(hframe (.direct b) nofun nofun).1, hM (.direct b) nofun]
  · have h₀ : M₀ .double ≠ 0 := hdouble.1 ▸ hz
    rw [if_neg fun he => h₀ (hi ▸ he), hi]
    have hlaid := h.visit (fun j => (filePos_ne_pointer j).2.1) (h.zoned.keep hdouble.2 hz)
      fun _ => rfl
    refine Wp.bind (spec_readTfsBlock hs.layout (hs.maps.isData _ h₀) ?_)
    refine Wp.bind (fileL1_spec hs hcap hp2 (Nat.zero_le 512) hlaid hk0 (fun j _ => ?_)
      (fun j => ?_) hpend0 ?_)
    · rw [mem_append, mem_singleton, not_or]
      exact ⟨hnew j, nofun⟩
    · exact ((hl1 j).trans ((hp1 j).trans (pointerIn_of_ne h₀ j))).symm
    intro root' dirty' l2 M' ps' A' pr' hf hroot hpend' hframe hclean
    have hself : M' .double = M .double := (hframe .double nofun nofun).1
    have hQ' := hQ l2 _ M' ps' A' pr' hf (hclose (hself.trans hdouble.1) h₀ hroot hpend'
      fun hd => ⟨hself, (hclean hd).2⟩) ?_ fun b => ?_
    · rw [hself, hi'] at hQ'
      exact Wp.pure hQ'
    · exact (hframe .single nofun nofun).1
    · exact (hframe (.direct b) nofun nofun).1

end Pointers

end Twilight.Fs

/-
The transfers of `write`, and the call as a whole.

The transfers go to distinct zones, so whole blocks of consecutive zones can be
stored at once without a difference.  After them the bytes written are the new
data, the other bytes of a new block are 0 and the other bytes of an old block
are kept; no other block changes apart from the pointer blocks.
-/
import Twilight.Fs.FileWrite

namespace Twilight.Fs

open Node Function List Inode Nat

/-! ## Runs -/

lemma runLength_range' {α : Type} (joined : α → α → Bool) (f : Nat → α) (a c : Nat) :
    runLength joined ((List.range' a c).map f) ≤ c ∧
      ∀ t, t + 1 < runLength joined ((List.range' a c).map f) →
        joined (f (a + t)) (f (a + t + 1)) = true := by
  induction c generalizing a with
  | zero => exact ⟨Nat.le_refl 0, fun t ht => absurd ht (Nat.not_lt_zero _)⟩
  | succ c ih =>
    cases c with
    | zero => exact ⟨Nat.le_refl 1, fun t ht => absurd ht (by simp [range'_one, runLength])⟩
    | succ c =>
      obtain ⟨hle, hjoined⟩ := ih (a + 1)
      rw [range'_succ, map_cons] at hle hjoined
      rw [range'_succ, range'_succ, map_cons, map_cons, runLength]
      split
      · next hj =>
        refine ⟨by omega, fun t ht => ?_⟩
        cases t with
        | zero => exact hj
        | succ t =>
          have := hjoined t (by omega)
          rwa [add_right_comm a 1 t] at this
      · exact ⟨by omega, fun t ht => by omega⟩

namespace Device

lemma store_of_out (d : Nat → Bytes) {i y : Nat} {bs : List Bytes}
    (hy : ∀ j < bs.length, y ≠ i + j) : store d i bs y = d y := by
  induction bs generalizing d i with
  | nil => rfl
  | cons b bs ih =>
    have hrest : ∀ j < bs.length, y ≠ i + 1 + j := fun j hj => by
      have := hy (j + 1) (Nat.succ_lt_succ hj)
      omega
    rw [store, ih _ hrest, update_of_ne]
    exact hy 0 (Nat.succ_pos _)

lemma store_of_lt (d : Nat → Bytes) {i j : Nat} {bs : List Bytes} (hj : j < bs.length) :
    store d i bs (i + j) = bs[j] := by
  induction bs generalizing d i j with
  | nil => exact absurd hj (Nat.not_lt_zero j)
  | cons b bs ih =>
    cases j with
    | zero =>
      rw [store, store_of_out _ fun j _ => by omega]
      exact update_self ..
    | succ j =>
      have hj' : j < bs.length := Nat.lt_of_succ_lt_succ hj
      rw [store, show i + (j + 1) = i + 1 + j by omega, ih _ hj']
      rfl

end Device

/-! ## Transfers -/

def newByte (M₀ M : Pos → Nat) (lba : Nat) (data : List UInt8) (B : Nat → Bytes) (j x : Nat) :
    UInt8 :=
  if lba ≤ j * 2048 + x ∧ j * 2048 + x < lba + data.length then data.getD (j * 2048 + x - lba) 0
  else if M₀ (posOf j) = 0 then 0
  else B (M (posOf j)) x

structure Flushed (M₀ M : Pos → Nat) (lba : Nat) (data : List UInt8) (B : Nat → Bytes) (a c : Nat)
    (B' : Nat → Bytes) : Prop where
  inside : ∀ j, a ≤ j → j < a + c → ∀ x < 2048, B' (M (posOf j)) x = newByte M₀ M lba data B j x
  outside : ∀ z, (∀ j, a ≤ j → j < a + c → z ≠ M (posOf j)) → B' z = B z

section

variable {V : Volume} {M₀ M : Pos → Nat} {lba : Nat} {data : List UInt8} {B B' B'' : Nat → Bytes}
  {a c r : Nat} {T : List Nat} {i : Inode}

structure BlockZones (V : Volume) (M : Pos → Nat) (a c : Nat) : Prop where
  isData : ∀ j, a ≤ j → j < a + c → V.IsData (M (posOf j))
  inj : ∀ j j', a ≤ j → j < a + c → a ≤ j' → j' < a + c → M (posOf j) = M (posOf j') → j = j'

lemma Flushed.append (hz : BlockZones V M a c) (hr : r ≤ c)
    (h : Flushed M₀ M lba data B a r B') (h' : Flushed M₀ M lba data B' (a + r) (c - r) B'') :
    Flushed M₀ M lba data B a c B'' := by
  refine ⟨fun j hj1 hj2 x hx => ?_, fun z hz' => ?_⟩
  · by_cases hjr : j < a + r
    · rw [h'.outside, h.inside j hj1 hjr x hx]
      intro j' h1 h2 he
      have := hz.inj j j' hj1 hj2 (by omega) (by omega) he
      omega
    · rw [h'.inside j (by omega) (by omega) x hx, newByte, newByte, h.outside]
      intro j' h1 h2 he
      have := hz.inj j j' hj1 hj2 h1 (by omega) he
      omega
  · rw [h'.outside z fun j h1 h2 => hz' j (by omega) (by omega),
      h.outside z fun j h1 h2 => hz' j h1 (by omega)]

lemma Flushed.whole {j : Nat} (h1 : lba ≤ j * 2048) (h2 : (j + 1) * 2048 ≤ lba + data.length)
    {x : Nat} (hx : x < 2048) :
    dataFrom data (j * 2048 - lba) x = newByte M₀ M lba data B j x := by
  rw [newByte, if_pos (by omega), dataFrom]
  congr 1
  omega

lemma Flushed.one {buf : Bytes} (hbuf : ∀ x < 2048, buf x = newByte M₀ M lba data B a x) :
    Flushed M₀ M lba data B a 1 (update B (M (posOf a)) buf) := by
  refine ⟨fun j hj1 hj2 x hx => ?_, fun z hz => ?_⟩
  · obtain rfl : j = a := by omega
    rw [update_self]
    exact hbuf x hx
  · exact update_of_ne (hz a (Nat.le_refl a) (Nat.lt_succ_self a)) _ _

lemma Flushed.part {j x : Nat} (hx : x < 2048) : (if M₀ (posOf j) = 0 then Bytes.zero else B (M (posOf j))).splice
        (opFor M₀ M lba data.length j).blockOffset (opFor M₀ M lba data.length j).len
        (dataFrom data (opFor M₀ M lba data.length j).dataOffset) x
      = newByte M₀ M lba data B j x := by
  simp only [opFor, newByte]
  by_cases hin : lba ≤ j * 2048 + x ∧ j * 2048 + x < lba + data.length
  · rw [Bytes.splice_inside (by omega) (by omega), if_pos hin, dataFrom]
    congr 1
    omega
  · rw [Bytes.splice_outside (by omega), if_neg hin]
    split
    · rfl
    · rfl

lemma runLength_opFor {r : Nat}
    (hr : r = runLength WriteOp.joined ((List.range' a c).map (opFor M₀ M lba data.length)))
    (h1 : 1 < r) {t : Nat} (ht : t < r) : M (posOf (a + t)) = M (posOf a) + t ∧
      lba ≤ (a + t) * 2048 ∧ (a + t + 1) * 2048 ≤ lba + data.length := by
  have hjoined : ∀ t, t + 1 < r → WriteOp.joined (opFor M₀ M lba data.length (a + t))
      (opFor M₀ M lba data.length (a + t + 1)) = true := by
    intro t ht
    rw [hr] at ht
    exact (runLength_range' WriteOp.joined _ a c).2 t ht
  simp only [WriteOp.joined, Bool.and_eq_true, decide_eq_true_eq] at hjoined
  simp only [opFor] at hjoined
  induction t with
  | zero =>
    obtain ⟨⟨⟨⟨⟨-, h2⟩, -⟩, h4⟩, -⟩, -⟩ := hjoined 0 (by omega)
    exact ⟨rfl, by omega, by omega⟩
  | succ t ih =>
    obtain ⟨⟨⟨⟨⟨hzone, -⟩, h3⟩, -⟩, h5⟩, -⟩ := hjoined t ht
    obtain ⟨ih, -, -⟩ := ih (by omega)
    refine ⟨?_, by omega, by omega⟩
    rw [← add_assoc, hzone, ih, add_assoc]

lemma Flushed.run {bufs : List Bytes} (hlen : bufs.length = r)
    (hbufs : ∀ t (ht : t < bufs.length), bufs[t] = dataFrom data ((a + t) * 2048 - lba))
    (hrun : ∀ t < r, M (posOf (a + t)) = M (posOf a) + t ∧ lba ≤ (a + t) * 2048 ∧
      (a + t + 1) * 2048 ≤ lba + data.length) :
    Flushed M₀ M lba data B a r (Device.store B (M (posOf a)) bufs) := by
  refine ⟨fun j hj1 hj2 x hx => ?_, fun z hz => Device.store_of_out _ fun t ht => ?_⟩
  · obtain ⟨t, rfl⟩ := Nat.exists_eq_add_of_le hj1
    obtain ⟨hzone, h1, h2⟩ := hrun t (by omega)
    have ht : t < bufs.length := by omega
    rw [hzone, Device.store_of_lt _ ht, hbufs t ht]
    exact Flushed.whole h1 h2 hx
  · rw [← (hrun t (by omega)).1]
    exact hz (a + t) (by omega) (by omega)

lemma flushOps_spec (hl : Layout V.mount) (hz : BlockZones V M a c) {Q : NPost Unit}
    (hQ : ∀ B', Flushed M₀ M lba data B a c B' → Q (.ok ()) (V.taking T B') i) :
    NSpec (flushOps data ((List.range' a c).map (opFor M₀ M lba data.length))) Q
      (V.taking T B) i := by
  induction hc : c using Nat.strong_induction_on generalizing a c B with
  | _ n ih =>
  subst hc
  cases c with
  | zero =>
    rw [range'_zero, map_nil, flushOps]
    exact NSpec.pure (hQ B ⟨fun j h1 h2 => by omega, fun _ _ => rfl⟩)
  | succ c =>
    generalize hr : runLength WriteOp.joined
      ((List.range' a (c + 1)).map (opFor M₀ M lba data.length)) = r
    have hrle : r ≤ c + 1 := by
      rw [← hr]
      exact (runLength_range' ..).1
    have hrpos : 0 < r := by
      rw [← hr, range'_succ, map_cons]
      exact runLength_pos ..
    -- the transfers after the first run
    have hrest : ∀ B₁, Flushed M₀ M lba data B a r B₁ →
        NSpec (flushOps data (((List.range' a (c + 1)).map (opFor M₀ M lba data.length)).drop r)) Q
          (V.taking T B₁) i := by
      intro B₁ hB₁
      rw [← map_drop, drop_range', Nat.mul_one]
      refine ih (c + 1 - r) (by omega) (a := a + r) ⟨fun j h1 h2 => hz.isData j (by omega) (by omega),
        fun j j' h1 h2 h3 h4 => hz.inj j j' (by omega) (by omega) (by omega) (by omega)⟩
        (fun B₂ hB₂ => hQ B₂ (hB₁.append hz hrle hB₂)) rfl
    have hfirst := hz.isData a (Nat.le_refl a) (by omega)
    have hr' := hr
    rw [range'_succ, map_cons] at hr hrest ⊢
    rw [flushOps]
    simp only [hr]
    by_cases h1 : 1 < r
    · -- several whole blocks at once
      rw [if_pos h1]
      have hrun := fun t (ht : t < r) => runLength_opFor hr'.symm h1 ht
      rw [← map_cons, ← range'_succ]
      have hlen : ((((List.range' a (c + 1)).map (opFor M₀ M lba data.length)).take r).map
          fun o => dataFrom data o.dataOffset).length = r := by
        simp only [length_map, length_take, length_range']
        omega
      refine NSpec.bind (nspec_writeBlocks (by omega) hl (fun t ht => ?_) ?_)
      · have ht' : t < r := by omega
        have := hz.isData (a + t) (by omega) (by omega)
        rwa [(hrun t ht').1] at this
      · refine hrest _ (Flushed.run hlen (fun t ht => ?_) hrun)
        have ht' := (hrun t (by omega)).2.1
        simp only [getElem_map, getElem_take, getElem_range', one_mul, opFor]
        congr 1
        omega
    · rw [if_neg h1]
      obtain rfl : r = 1 := by omega
      -- one block, from the bytes it is to have
      have hone : ∀ buf : Bytes, (∀ x < 2048, buf x = newByte M₀ M lba data B a x) →
          NSpec (onFs (TwilightFs.writeTfsBlock (opFor M₀ M lba data.length a).zone buf) >>= fun _ =>
            flushOps data ((opFor M₀ M lba data.length a ::
              (List.range' (a + 1) c).map (opFor M₀ M lba data.length)).drop 1)) Q
            (V.taking T B) i := by
        intro buf hbuf
        refine NSpec.bind (nspec_writeTfsBlock hl hfirst ?_)
        exact hrest _ (Flushed.one hbuf)
      by_cases hwhole : (opFor M₀ M lba data.length a).len = 2048 ∧
          (opFor M₀ M lba data.length a).blockOffset = 0
      · rw [if_pos hwhole]
        refine hone _ fun x hx => ?_
        simp only [opFor] at hwhole ⊢
        rw [show max lba (a * 2048) - lba = a * 2048 - lba by omega]
        exact Flushed.whole (by omega) (by omega) hx
      -- a part of a block, over what is there or over zeros
      rw [if_neg hwhole]
      have hpart : ∀ x < 2048, (if M₀ (posOf a) = 0 then Bytes.zero else B (M (posOf a))).splice
          (opFor M₀ M lba data.length a).blockOffset (opFor M₀ M lba data.length a).len
          (dataFrom data (opFor M₀ M lba data.length a).dataOffset) x
          = newByte M₀ M lba data B a x := fun x hx => Flushed.part hx
      by_cases hnew : M₀ (posOf a) = 0
      · rw [if_pos hnew] at hpart
        have hflag : (opFor M₀ M lba data.length a).newBlock = true := decide_eq_true hnew
        rw [if_pos hflag]
        exact NSpec.bind (NSpec.pure (hone _ hpart))
      · rw [if_neg hnew] at hpart
        have hflag : ¬ (opFor M₀ M lba data.length a).newBlock = true := by simpa [opFor] using hnew
        rw [if_neg hflag]
        exact NSpec.bind (nspec_readTfsBlock hl hfirst (hone _ hpart))

end

/-! ## The whole call -/

variable {V : Volume} {i : Inode}

lemma nspec_preallocate {j : Inode} {lba total : Nat} (hl : Layout V.mount) {Q : NPost (List Nat)}
    (hQ : ∀ P, V.Fresh P → Q (.ok P) (V.taking P V.block) j) :
    NSpec (preallocate i lba total) Q V j := by
  have hnil : V.Fresh [] := ⟨nodup_nil, nofun, nofun⟩
  rw [preallocate]
  split
  · exact NSpec.pure (hQ [] hnil)
  · refine NSpec.bind (NSpec.attempt (nspec_onFs (spec_writable hl
      (spec_allocateZones hl.mapped (fun zs _ hfresh => ?_) ?_))))
    · exact NSpec.pure (hQ zs hfresh)
    · exact NSpec.pure (hQ [] hnil)

section

variable {V : Volume} {M₀ : Pos → Nat} {N : Finset Pos} {lba total : Nat} {M : Pos → Nat}
  {ps : List Pos} {A : List Nat} {pr : Progress} {k : Nat} {B : Nat → Bytes} {i : Inode}

def Inode.withPointers (i : Inode) (M : Pos → Nat) : Inode :=
  (i.singleIndirectSet (M .single)).doubleIndirectSet (M .double)

lemma Pointers.withPointers (h : Pointers B M i) : i.withPointers M = i := by
  rw [Inode.withPointers, ← h.single, i.singleIndirectSet_get, ← h.double, i.doubleIndirectSet_get]

lemma writeIndirect_spec (hs : V.Supply M₀ N (endBlock lba total))
    (hcap : endBlock lba total ≤ 1028) (h : Filling V M₀ N lba total k M ps A pr)
    (hend : k = endBlock lba total ∨ 6 ≤ k) (hstart : 6 < endBlock lba total → k < endBlock lba total)
    (hp : Pointers B M i) (hnew : .single ∉ ps ∧ .double ∉ ps ∧ .l1 0 ∉ ps) {Q : NPost Progress}
    (hQ : ∀ M' ps' A' pr' B', Filling V M₀ N lba total (endBlock lba total) M' ps' A' pr' →
      Pointers B' M' (i.withPointers M') → (6 < endBlock lba total → M' .single ≠ 0) →
      (517 < endBlock lba total → M' .double ≠ 0 ∧ M' (.l1 0) ≠ 0) →
      (∀ b, M' (.direct b) = M (.direct b)) →
      (∀ z, z ≠ M' .single → z ≠ M' .double → z ≠ M' (.l1 0) → B' z = B z) →
      Q (.ok pr') (V.taking (A' ++ pr'.preallocated) B') (i.withPointers M')) :
    NSpec (writeIndirect lba total pr) Q (V.taking (A ++ pr.preallocated) B) i := by
  rw [writeIndirect]
  by_cases hlt : k < endBlock lba total
  · rw [if_pos (h.reached.lt_iff.mpr hlt)]
    refine NSpec.bind (writeSingle_spec hs h (by omega) hlt hp hnew.1 ?_)
    intro k₁ M₁ ps₁ A₁ pr₁ B₁ hf₁ hk₁ hp₁ hsingle hsame₁ hB₁
    -- the record, whose double pointer is still the old one
    have hi₁ : (i.singleIndirectSet (M₁ .single)).withPointers M₁
        = i.singleIndirectSet (M₁ .single) := hp₁.withPointers
    have hi₁' : i.withPointers M₁ = i.singleIndirectSet (M₁ .single) := by
      rw [← hi₁]
      rfl
    by_cases hlt₁ : k₁ < endBlock lba total
    · simp only [hf₁.reached.lt_iff.mpr hlt₁, if_true]
      have hnew₁ : .double ∉ ps₁ := fun hmem => hnew.2.1 ((hsame₁ .double nofun nofun).2.mp hmem)
      have hnew₁' : .l1 0 ∉ ps₁ := fun hmem => hnew.2.2 ((hsame₁ (.l1 0) nofun nofun).2.mp hmem)
      refine writeDouble_spec hs hcap hf₁ (by omega) hlt₁ hp₁ hnew₁ hnew₁' ?_
      intro M₂ ps₂ A₂ pr₂ B₂ hf₂ hp₂ hdouble hl1 hsame₂ hB₂
      have hs₂ : M₂ .single = M₁ .single := (hsame₂ .single nofun nofun nofun).1
      have hi₂ : i.withPointers M₂
          = (i.singleIndirectSet (M₁ .single)).doubleIndirectSet (M₂ .double) := by
        rw [Inode.withPointers, hs₂]
      have hQ₂ := hQ M₂ ps₂ A₂ pr₂ B₂ hf₂
      rw [hi₂] at hQ₂
      refine hQ₂ hp₂ (fun _ => hs₂ ▸ hsingle) (fun _ => ⟨hdouble, hl1⟩) (fun b => ?_)
        fun z hz1 hz2 hz3 => (hB₂ z hz2 hz3).trans (hB₁ z (hs₂ ▸ hz1))
      rw [(hsame₂ (.direct b) nofun nofun nofun).1, (hsame₁ (.direct b) nofun nofun).1]
    · have hk₁e : k₁ = endBlock lba total := by
        have := hf₁.upper
        omega
      simp only [show ¬ pr₁.written < total from fun hw => hlt₁ (hf₁.reached.lt_iff.mp hw), if_false]
      have hQ₁ := hQ M₁ ps₁ A₁ pr₁ B₁ (hk₁e ▸ hf₁)
      rw [hi₁'] at hQ₁
      refine NSpec.pure (hQ₁ hp₁ (fun _ => hsingle) (fun h517 => ?_) (fun b => ?_)
        fun z hz1 _ _ => hB₁ z hz1)
      · omega
      · exact (hsame₁ (.direct b) nofun nofun).1
  · have hke : k = endBlock lba total := by
      have := h.upper
      omega
    rw [if_neg fun hw => hlt (h.reached.lt_iff.mp hw)]
    have hQ' := hQ M ps A pr B (hke ▸ h)
    rw [hp.withPointers] at hQ'
    exact NSpec.pure (hQ' hp (fun h6 => absurd (hstart h6) hlt)
      (fun h517 => absurd (hstart (by omega)) hlt) (fun _ => rfl) fun _ _ _ _ => rfl)

end

/-! ### The record at the end -/

namespace Inode

def setSlots (i : Inode) (zones : Nat → Nat) (n : Nat) : Inode :=
  (List.range n).foldl (fun i k => i.directSlotSet k (zones k)) i

lemma setSlots_succ (i : Inode) (zones : Nat → Nat) (n : Nat) :
    i.setSlots zones (n + 1) = (i.setSlots zones n).directSlotSet n (zones n) := by
  simp [setSlots, range_succ]

lemma setSlots_directSlotGet {i : Inode} {zones : Nat → Nat} {n : Nat} (hn : n ≤ 6)
    (hz : ∀ b < n, zones b < 2 ^ 32) (b : Nat) :
    (i.setSlots zones n).directSlotGet b = if b < n then zones b else i.directSlotGet b := by
  induction n with
  | zero => rfl
  | succ n ih =>
    rw [setSlots_succ, directSlotGet_set (by omega) (hz n (Nat.lt_succ_self n)),
      ih (by omega) fun b hb => hz b (by omega)]
    by_cases hb : b = n
    · rw [if_pos hb, if_pos (by omega), hb]
    · rw [if_neg hb]
      by_cases hlt : b < n
      · rw [if_pos hlt, if_pos (by omega)]
      · rw [if_neg hlt, if_neg (by omega)]

lemma setSlots_field {α : Type} (f : Inode → α) (hf : ∀ i k z, f (directSlotSet i k z) = f i)
    (i : Inode) (zones : Nat → Nat) (n : Nat) : f (i.setSlots zones n) = f i := by
  induction n with
  | zero => rfl
  | succ n ih => rw [setSlots_succ, hf, ih]

end Inode

section

variable {i : Inode} {zones : Nat → Nat} {endPos : Nat}

lemma finishInode_eq : finishInode i endPos zones
    = (if i.size.toNat < endPos then i.withSize (UInt64.ofNat endPos) else i).setSlots zones 6 := rfl

lemma finishInode_size (h : endPos < 2 ^ 64) :
    (finishInode i endPos zones).size.toNat = max i.size.toNat endPos := by
  rw [finishInode_eq, setSlots_field (·.size) directSlotSet_size]
  split
  · next hlt =>
    rw [withSize_size, UInt64.toNat_ofNat_of_lt' h]
    omega
  · omega

lemma finishInode_field {α : Type} (f : Inode → α) (hf : ∀ i k z, f (Inode.directSlotSet i k z) = f i)
    (hs : ∀ i n, f (Inode.withSize i n) = f i) : f (finishInode i endPos zones) = f i := by
  rw [finishInode_eq, setSlots_field f hf]
  split
  · exact hs i _
  · rfl

lemma finishInode_directSlotGet (hz : ∀ b < 6, zones b < 2 ^ 32) (b : Nat) :
    (finishInode i endPos zones).directSlotGet b = if b < 6 then zones b else 0 := by
  rw [finishInode_eq, setSlots_directSlotGet (Nat.le_refl 6) hz]
  by_cases hb : b < 6
  · rw [if_pos hb, if_pos hb]
  · rw [if_neg hb, if_neg hb, directSlotGet_of_le _ (by omega)]

end

lemma Disk.pointers (D : Disk) (i : Inode) : Pointers D.block (D.refOf i) i :=
  ⟨rfl, fun _ => rfl, rfl, fun _ => rfl, fun _ _ => rfl⟩

lemma Pointers.refOf {D : Disk} {M : Pos → Nat} (h : Pointers D.block M i)
    (hd : ∀ b, i.directSlotGet b = M (.direct b)) (p : Pos) : D.refOf i p = M p := by
  have hptr : ∀ z k, D.pointer z k = pointerIn D.block z k := fun _ _ => rfl
  cases p with
  | direct b => exact hd b
  | single => exact h.single
  | singleEntry k => rw [h.entries, ← h.single]; rfl
  | double => exact h.double
  | l1 j => rw [h.l1, ← h.double]; rfl
  | l2 j k => rw [h.l2, h.l1, ← h.double]; rfl

/-! ### The call -/

/-- What a write of `data` at `lba` through a node with record `i` leaves: the map `M`, with the
new zones `A`, the blocks `B` and the record `i'`. -/
structure Wrote (V : Volume) (i : Inode) (N : Finset Pos) (lba : Nat) (data : List UInt8)
    (M : Pos → Nat) (ps : List Pos) (A : List Nat) (B : Nat → Bytes) (i' : Inode) : Prop where
  zoned : V.Zoned (V.refOf i) N M ps A []
  visited : ∀ j, posOf j ∈ ps ↔ lba / 2048 ≤ j ∧ j < endBlock lba data.length
  single : 6 < endBlock lba data.length → M .single ≠ 0
  double : 517 < endBlock lba data.length → M .double ≠ 0 ∧ M (.l1 0) ≠ 0
  pointers : Pointers B M i'
  direct : ∀ b, i'.directSlotGet b = M (.direct b)
  size : i'.size.toNat = max i.size.toNat (lba + data.length)
  flags : i'.flags = i.flags
  inside : ∀ j, lba / 2048 ≤ j → j < endBlock lba data.length → ∀ x < 2048,
    B (M (posOf j)) x = newByte (V.refOf i) M lba data V.block j x
  outside : ∀ z, z ≠ M .single → z ≠ M .double → z ≠ M (.l1 0) →
    (∀ j, lba / 2048 ≤ j → j < endBlock lba data.length → z ≠ M (posOf j)) → B z = V.block z

def Volume.wrote (V : Volume) (n : Nat) (A : List Nat) (B : Nat → Bytes) (i' : Inode) : Volume :=
  { (V.taking A B).putInode n i' with files := V.files.invalidateInode n }

lemma Volume.taking_release {A P : List Nat} {B : Nat → Bytes}
    (h : V.Fresh (A ++ P)) : (V.taking (A ++ P) B).setZones P false = V.taking A B := by
  have hz : (fun z => if z ∈ P then false else if z ∈ A ++ P then true else V.zmap z)
      = fun z => if z ∈ A then true else V.zmap z := by
    funext z
    by_cases hP : z ∈ P
    · have hA : z ∉ A := fun hA => (nodup_append.mp h.nodup).2.2 z hA z hP rfl
      rw [if_pos hP, if_neg hA, h.free z (mem_append_right _ hP)]
    · simp [hP]
  exact congrArg (fun f => { V.taking A B with zmap := f }) hz

lemma write_spec {N : Finset Pos} {env : NodeEnv} {lba : Nat}
    {data : List UInt8} (hs : V.Supply (V.refOf i) N (endBlock lba data.length))
    (hn : V.IsInode env.inodeNo) (hdata : 0 < data.length) (hcap : lba + data.length ≤ 1028 * 2048)
    (hplain : i.isEncrypted = false) {Q : NPost Unit}
    (hQ : ∀ M ps A B i', Wrote V i N lba data M ps A B i' →
      Q (.ok ()) (V.wrote env.inodeNo A B i') i') :
    NSpec (write env lba data) Q V i := by
  have hend : endBlock lba data.length ≤ 1028 := by
    unfold endBlock
    omega
  rw [write]
  simp only
  rw [if_neg (by omega), if_neg (by omega)]
  refine NSpec.bind (nspec_get fun s _ hsi => ?_)
  simp only [hsi]
  refine NSpec.bind (nspec_preallocate hs.layout fun P hP => ?_)
  -- the first loop starts at the first block touched
  have hstart : Filling V (V.refOf i) N lba data.length (lba / 2048) (V.refOf i) [] []
      ⟨P, [], 0⟩ := by
    refine ⟨Volume.Zoned.start hP, hdata, Nat.le_refl _, ?_, fun j => ?_, ?_, ?_⟩
    · unfold endBlock
      omega
    · simp only [not_mem_nil, false_iff]
      omega
    · simp only
      omega
    · rw [Nat.sub_self]
      rfl
  refine NSpec.bind (writeDirect_spec hs hstart (fun b _ => rfl) ?_)
  intro zones dirty k M₁ ps₁ A₁ pr₁ hf₁ hk₁ hzones hsame₁
  have hp₁ : Pointers V.block M₁ i := by
    have h := V.pointers i
    have hM : ∀ p, (∀ b < 6, p ≠ .direct b) → M₁ p = V.refOf i p := fun p hp => (hsame₁ p hp).1
    refine ⟨?_, fun k => ?_, ?_, fun j => ?_, fun j k => ?_⟩
    · rw [hM .single nofun]; exact h.single
    · rw [hM (.singleEntry k) nofun, hM .single nofun]; exact h.entries k
    · rw [hM .double nofun]; exact h.double
    · rw [hM (.l1 j) nofun, hM .double nofun]; exact h.l1 j
    · rw [hM (.l2 j k) nofun, hM (.l1 j) nofun]; exact h.l2 j k
  have hnew : ∀ p, (∀ b < 6, p ≠ .direct b) → p ∉ ps₁ := fun p hp hmem =>
    not_mem_nil ((hsame₁ p hp).2.mp hmem)
  refine NSpec.bind (writeIndirect_spec hs hend hf₁ hk₁.2.2 (fun h6 => ?_) hp₁
    ⟨hnew _ nofun, hnew _ nofun, hnew _ nofun⟩ ?_)
  · unfold endBlock at h6 ⊢
    omega
  intro M ps A pr B hf hp hsingle hdouble hdirect hB
  refine NSpec.bind (nspec_get fun s' _ hsi' => ?_)
  have hflags : (i.withPointers M).flags = i.flags := rfl
  have hplain' : (i.withPointers M).isEncrypted = false := by
    rw [isEncrypted, hflags]
    exact hplain
  simp only [hsi', flush, hplain', Bool.false_eq_true, if_false, hf.ops]
  have hmapped : ∀ j, lba / 2048 ≤ j → j < endBlock lba data.length → M (posOf j) ≠ 0 :=
    fun j h1 h2 => hf.zoned.mapped _ ((hf.blocks j).mpr ⟨h1, h2⟩)
  have hcount : lba / 2048 + (endBlock lba data.length - lba / 2048) = endBlock lba data.length := by
    have := hf.lower
    omega
  have hz : BlockZones V M (lba / 2048) (endBlock lba data.length - lba / 2048) := by
    refine ⟨fun j h1 h2 => ?_, fun j j' h1 h2 h3 h4 he => ?_⟩
    · exact hf.zoned.isData hs.maps (hmapped j h1 (by omega))
    · exact posOf_inj (hf.zoned.inj hs.maps (hmapped j h1 (by omega)) he)
  refine NSpec.bind (flushOps_spec hs.layout hz fun B' hB' => ?_)
  refine NSpec.bind (nspec_freeZones hs.layout (fun z hz => ?_) ?_)
  · exact hf.zoned.fresh.isData z (mem_append_right _ hz)
  rw [Volume.taking_release hf.zoned.fresh]
  refine NSpec.bind (nspec_setInode ?_)
  refine nspec_storeInode hs.layout hn (hQ M ps A B' _ ?_)
  -- no transfer went to a pointer block
  have hother : ∀ p, (∀ j, posOf j ≠ p) → M p ≠ 0 → B' (M p) = B (M p) := by
    intro p hp hne
    exact hB'.outside _ fun j _ _ he => hp j (hf.zoned.inj hs.maps hne he).symm
  have hdata' : ∀ j, lba / 2048 ≤ j → j < endBlock lba data.length →
      B (M (posOf j)) = V.block (M (posOf j)) := by
    intro j h1 h2
    obtain ⟨hs1, hs2, hs3⟩ := posOf_ne_pointer j
    have hne : ∀ p, posOf j ≠ p → M (posOf j) ≠ M p := fun p hp he =>
      hp (hf.zoned.inj hs.maps (hmapped j h1 h2) he)
    exact hB _ (hne _ hs1) (hne _ hs2) (hne _ (hs3 0))
  have hzones' : ∀ b < 6, zones b = M (.direct b) := fun b hb => by rw [hzones b hb, hdirect]
  have hwritten : pr.written + lba = lba + data.length := by
    rw [hf.written_eq rfl, add_comm]
  refine ⟨hf.zoned.drop, hf.blocks, hsingle, hdouble, ⟨?_, fun k => ?_, ?_, fun j => ?_, fun j k => ?_⟩,
    fun b => ?_, ?_, ?_, fun j h1 h2 x hx => ?_, fun z h1 h2 h3 h4 => ?_⟩
  · rw [finishInode_field (·.singleIndirectGet)
      (fun i k z => congrArg UInt32.toNat (i.directSlotSet_indirect k z)) fun _ _ => rfl]
    exact hp.single
  · rw [pointerIn_congr (hother .single fun j => (posOf_ne_pointer j).1)]
    exact hp.entries k
  · rw [finishInode_field (·.doubleIndirectGet)
      (fun i k z => congrArg UInt32.toNat (i.directSlotSet_doubleIndirect k z)) fun _ _ => rfl]
    exact hp.double
  · rw [pointerIn_congr (hother .double fun j => (posOf_ne_pointer j).2.1)]
    exact hp.l1 j
  · rw [pointerIn_congr (hother (.l1 j) fun j' => (posOf_ne_pointer j').2.2 j)]
    exact hp.l2 j k
  · rw [finishInode_directSlotGet]
    · by_cases hb : b < 6
      · rw [if_pos hb, hzones' b hb]
      · have hne : ∀ c < 6, Pos.direct b ≠ .direct c := fun c hc he => by
          injection he
          omega
        rw [if_neg hb, hdirect, (hsame₁ (.direct b) hne).1]
        exact (i.directSlotGet_of_le (by omega)).symm
    · intro b hb
      rw [hzones' b hb]
      by_cases h0 : M (.direct b) = 0
      · rw [h0]
        decide
      · exact Disk.Owned.zone_lt hs.layout (hf.zoned.isData hs.maps h0)
  · rw [finishInode_size (by omega), hwritten]
    rfl
  · exact finishInode_field (·.flags) directSlotSet_flags fun _ _ => rfl
  · rw [hB'.inside j h1 (by omega) x hx, newByte, newByte, hdata' j h1 h2]
  · rw [hB'.outside z fun j hj1 hj2 => h4 j hj1 (by omega), hB z h1 h2 h3]

end Twilight.Fs

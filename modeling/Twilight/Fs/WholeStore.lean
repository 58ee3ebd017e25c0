/-
What `write_file` stores, and the call as a whole.

The data goes to distinct zones, then the pointer blocks that have changed go to
zones of their own, and the record comes last.  `WroteFile` is what the call has
made of the volume: the file has the places `filePos` of its blocks, the old
zones and new ones that were free, and the bytes of the data, with zeros up to
the end of the last block.
-/
import Twilight.Fs.WholeWrite

namespace Twilight.Fs

open TwilightFs Function Prog List Inode BlockOp Nat
open Node (dataFrom)

/-! ## The data -/

/-- The data of the `c` blocks from `a` on has been stored. -/
structure DataStored (M : Pos → Nat) (data : List UInt8) (B : Nat → Bytes) (a c : Nat)
    (B' : Nat → Bytes) : Prop where
  inside : ∀ j, a ≤ j → j < a + c → ∀ x < 2048, B' (M (filePos j)) x = data.getD (j * 2048 + x) 0
  outside : ∀ z, (∀ j, a ≤ j → j < a + c → z ≠ M (filePos j)) → B' z = B z

structure FileZones (V : Volume) (M : Pos → Nat) (a c : Nat) : Prop where
  isData : ∀ j, a ≤ j → j < a + c → V.IsData (M (filePos j))
  inj : ∀ j j', a ≤ j → j < a + c → a ≤ j' → j' < a + c → M (filePos j) = M (filePos j') → j = j'

section

variable {V : Volume} {M : Pos → Nat} {data : List UInt8} {B B' B'' : Nat → Bytes} {a c r : Nat}
  {T : List Nat}

lemma DataStored.append (hz : FileZones V M a c) (hr : r ≤ c) (h : DataStored M data B a r B')
    (h' : DataStored M data B' (a + r) (c - r) B'') : DataStored M data B a c B'' := by
  refine ⟨fun j hj1 hj2 x hx => ?_, fun z hout => ?_⟩
  · by_cases hjr : j < a + r
    · rw [h'.outside, h.inside j hj1 hjr x hx]
      intro j' h1 h2 he
      have := hz.inj j j' hj1 hj2 (by omega) (by omega) he
      omega
    · exact h'.inside j (by omega) (by omega) x hx
  · rw [h'.outside z fun j h1 h2 => hout j (by omega) (by omega),
      h.outside z fun j h1 h2 => hout j h1 (by omega)]

lemma DataStored.run {bufs : List Bytes} (hlen : bufs.length = r)
    (hbufs : ∀ t (ht : t < bufs.length), ∀ x < 2048, bufs[t] x = data.getD ((a + t) * 2048 + x) 0)
    (hrun : ∀ t < r, M (filePos (a + t)) = M (filePos a) + t) :
    DataStored M data B a r (Device.store B (M (filePos a)) bufs) := by
  refine ⟨fun j hj1 hj2 x hx => ?_, fun z hz => Device.store_of_out _ fun t ht => ?_⟩
  · obtain ⟨t, rfl⟩ := Nat.exists_eq_add_of_le hj1
    have ht : t < bufs.length := by omega
    rw [hrun t (by omega), Device.store_of_lt _ ht, hbufs t ht x hx]
  · rw [← hrun t (by omega)]
    exact hz (a + t) (by omega) (by omega)

lemma runLength_fileOp {total : Nat}
    (hr : r ≤ runLength joined ((List.range' a c).map (fileOp M total))) {t : Nat}
    (ht : t < r) : M (filePos (a + t)) = M (filePos a) + t := by
  induction t with
  | zero => rfl
  | succ t ih =>
    have hstep := (runLength_range' joined (fileOp M total) a c).2 t (by omega)
    simp only [joined, Bool.and_eq_true, decide_eq_true_eq] at hstep
    simp only [fileOp] at hstep
    rw [← add_assoc, hstep.1.2, ih (by omega), add_assoc]

lemma storeData_spec (hl : Layout V.mount) (hz : FileZones V M a c) {Q : Post FsError Unit}
    (hQ : ∀ B', DataStored M data B a c B' → Q (.ok ()) (V.taking T B')) :
    Spec (storeData data ((List.range' a c).map (fileOp M data.length))) Q (V.taking T B) := by
  induction hc : c using Nat.strong_induction_on generalizing a c B with
  | _ n ih =>
  subst hc
  cases c with
  | zero =>
    rw [range'_zero, map_nil, storeData]
    exact Wp.pure (hQ B ⟨fun j h1 h2 => by omega, fun _ _ => rfl⟩)
  | succ c =>
    have hfirst := hz.isData a (le_refl a) (by omega)
    -- the blocks after the first `r`
    have hrest : ∀ r B₁, 0 < r → r ≤ c + 1 → DataStored M data B a r B₁ →
        Spec (storeData data (((List.range' a (c + 1)).map (fileOp M data.length)).drop r)) Q
          (V.taking T B₁) := by
      intro r B₁ hpos hrle hB₁
      rw [← map_drop, drop_range', mul_one]
      exact ih (c + 1 - r) (by omega) ⟨fun j h1 h2 => hz.isData j (by omega) (by omega),
        fun j j' h1 h2 h3 h4 => hz.inj j j' (by omega) (by omega) (by omega) (by omega)⟩
        (fun B₂ hB₂ => hQ B₂ (hB₁.append hz hrle hB₂)) rfl
    have hrest1 := fun B₁ => hrest 1 B₁ one_pos (by omega)
    generalize hr : runLength joined ((List.range' a (c + 1)).map (fileOp M data.length)) = r
    have hrle : r ≤ c + 1 := by
      rw [← hr]
      exact (runLength_range' ..).1
    have hrpos : 0 < r := by
      rw [← hr, range'_succ, map_cons]
      exact runLength_pos ..
    have hrun := fun t (ht : t < r) => runLength_fileOp (le_of_eq hr.symm) ht
    have hrestr := fun B₁ => hrest r B₁ hrpos hrle
    rw [range'_succ, map_cons] at hr hrest1 hrestr ⊢
    rw [storeData]
    by_cases hwhole : (fileOp M data.length a).len = 2048
    · rw [if_pos hwhole]
      simp only [hr]
      rw [← map_cons, ← range'_succ] at hrestr ⊢
      have hlen : ((((List.range' a (c + 1)).map (fileOp M data.length)).take r).map
          fun o => dataFrom data o.dataOffset).length = r := by
        simp only [length_map, length_take, length_range']
        omega
      refine Wp.bind (spec_writeTfsBlocks (V := V.taking T B) (by omega) hl (fun t ht => ?_) ?_)
      · have := hz.isData (a + t) (by omega) (by omega)
        rwa [hrun t (by omega)] at this
      · refine hrestr _ (DataStored.run hlen (fun t ht x _ => ?_) hrun)
        simp only [getElem_map, getElem_take, getElem_range', one_mul, fileOp, dataFrom]
    · -- the last part, over zeros
      rw [if_neg hwhole]
      refine Wp.bind (spec_writeTfsBlock (V := V.taking T B) hl hfirst ?_)
      rw [Volume.taking_putBlock]
      refine hrest1 _ ⟨fun j h1 h2 x hx => ?_, fun z hout => ?_⟩
      · obtain rfl : j = a := by omega
        have hlen : (fileOp M data.length j).len = data.length - j * 2048 := by
          simp only [fileOp] at hwhole ⊢
          omega
        have hself : (update B (fileOp M data.length j).zone (Bytes.zero.splice 0
            (fileOp M data.length j).len (dataFrom data (fileOp M data.length j).dataOffset)))
            (M (filePos j)) = Bytes.zero.splice 0 (data.length - j * 2048)
              (dataFrom data (j * 2048)) := by
          rw [← hlen]
          exact update_self ..
        rw [hself]
        by_cases hin : x < data.length - j * 2048
        · rw [Bytes.splice_inside (zero_le x) (by omega)]
          rfl
        · rw [Bytes.splice_outside (by omega), getD_eq_default _ _ (by omega)]
          rfl
      · exact update_of_ne (hout a (le_refl a) (by omega)) _ _

/-! ## The pointer blocks -/

def putBlocks (W : List (Nat × Bytes)) (B : Nat → Bytes) : Nat → Bytes :=
  W.foldl (fun B w => update B w.1 w.2) B

variable {W : List (Nat × Bytes)}

lemma putBlocks_of_not_mem {z : Nat} (h : ∀ w ∈ W, w.1 ≠ z) :
    putBlocks W B z = B z := by
  induction W generalizing B with
  | nil => rfl
  | cons w W ih =>
    have hrest : putBlocks (w :: W) B z = update B w.1 w.2 z :=
      ih fun v hv => h v (mem_cons_of_mem _ hv)
    rw [hrest, update_of_ne (h w mem_cons_self).symm]

lemma putBlocks_of_mem {z : Nat} (h : ∃ w ∈ W, w.1 = z) :
    ∃ w ∈ W, w.1 = z ∧ putBlocks W B z = w.2 := by
  induction W generalizing B with
  | nil =>
    obtain ⟨w, hw, -⟩ := h
    cases hw
  | cons w W ih =>
    by_cases hrest : ∃ v ∈ W, v.1 = z
    · obtain ⟨v, hv, hz, he⟩ := ih hrest (B := update B w.1 w.2)
      exact ⟨v, mem_cons_of_mem _ hv, hz, he⟩
    -- `w` is the last block for `z`
    have hlast : putBlocks (w :: W) B z = update B w.1 w.2 z :=
      putBlocks_of_not_mem fun v hv he => hrest ⟨v, hv, he⟩
    obtain ⟨v, hv, hz⟩ := h
    rcases mem_cons.mp hv with rfl | hv
    · refine ⟨v, mem_cons_self, hz, ?_⟩
      rw [hlast, ← hz, update_self]
    · exact absurd ⟨v, hv, hz⟩ hrest

lemma storeBlocks_spec (hl : Layout V.mount) (hz : ∀ w ∈ W, V.IsData w.1) {Q : Post FsError Unit}
    (hQ : Q (.ok ()) (V.taking T (putBlocks W B))) :
    Spec (storeBlocks W) Q (V.taking T B) := by
  induction W generalizing B with
  | nil => exact Wp.pure hQ
  | cons w W ih =>
    refine Wp.bind (spec_writeTfsBlock (V := V.taking T B) hl (hz w mem_cons_self) ?_)
    rw [Volume.taking_putBlock]
    exact ih (fun v hv => hz v (mem_cons_of_mem _ hv)) hQ

end

lemma Pending.pointerIn {V : Volume} {M₀ M : Pos → Nat} {N : Finset Pos} {ps : List Pos}
    {A P : List Nat} {W : List (Nat × Bytes)} {B : Nat → Bytes} (h : Pending M₀ M IsPointer W)
    (hz : V.Zoned M₀ N M ps A P) (hM : V.Maps M₀) {q : Pos} (hq : IsPointer q)
    (hold : ∀ k, M₀ (below q k) = Fs.pointerIn V.block (M₀ q) k)
    (hB : M q ≠ 0 → B (M q) = V.block (M q)) (k : Nat) :
    M (below q k) = Fs.pointerIn (putBlocks W B) (M q) k := by
  by_cases hmem : ∃ w ∈ W, w.1 = M q
  · obtain ⟨w, hw, hwq, hput⟩ := putBlocks_of_mem (B := B) hmem
    obtain ⟨q', hq', he, hne, hentries⟩ := h.stored w hw
    have hqq : q' = q := hz.inj hM (he ▸ hne) (he.symm.trans hwq)
    rw [pointerIn_of_ne (hwq ▸ hne), hput, hentries, hqq]
  · have hout : ∀ w ∈ W, w.1 ≠ M q := fun w hw he => hmem ⟨w, hw, he⟩
    obtain ⟨hself, hbelow⟩ := h.kept q hq hout
    rw [hbelow, hold, ← hself]
    refine pointerIn_congr (fun hne => ?_) k
    rw [putBlocks_of_not_mem hout, hB hne]

/-! ## The whole call -/

/-- What `write_file` leaves of a file with record `i`: the map `M`, with the new zones `A`, the
blocks `B` and the record `i'`. -/
structure WroteFile (V : Volume) (i : Inode) (data : List UInt8) (M : Pos → Nat) (ps : List Pos)
    (A : List Nat) (B : Nat → Bytes) (i' : Inode) : Prop where
  zoned : V.Zoned (V.refOf i) (lacking (V.refOf i) (fileBlocks data.length)) M ps A []
  visited : ∀ j, filePos j ∈ ps ↔ j < fileBlocks data.length
  pointers : Pointers B M i'
  direct : ∀ b, i'.directSlotGet b = M (.direct b)
  size : i'.size.toNat = data.length
  flags : i'.flags = i.flags
  mode : i'.mode = i.mode
  inside : ∀ j < fileBlocks data.length, ∀ x < 2048,
    B (M (filePos j)) x = data.getD (j * 2048 + x) 0
  outside : ∀ z, (∀ q, IsPointer q → z ≠ M q) →
    (∀ j < fileBlocks data.length, z ≠ M (filePos j)) → B z = V.block z

lemma fileInode_eq (i : Inode) (zones : Nat → Nat) (n : Nat) :
    fileInode i zones n = (i.setSlots zones 6).withSize (UInt64.ofNat n) := rfl

lemma fileInode_field {α : Type} (f : Inode → α)
    (hf : ∀ i k z, f (directSlotSet i k z) = f i) (hs : ∀ i n, f (withSize i n) = f i)
    (i : Inode) (zones : Nat → Nat) (n : Nat) : f (fileInode i zones n) = f i := by
  rw [fileInode_eq, hs, setSlots_field f hf]

section

variable {V : Volume} {n : Nat} {data : List UInt8}

lemma spec_filePreallocate {i : Inode} {len : Nat} (hl : Layout V.mount)
    {Q : Post FsError (List Nat)} (hQ : ∀ P, V.Fresh P → Q (.ok P) (V.taking P V.block)) :
    Spec (filePreallocate i len) Q V := by
  have hnil : V.Fresh [] := ⟨nodup_nil, nofun, nofun⟩
  rw [filePreallocate]
  split
  · exact Wp.pure (hQ [] hnil)
  · refine Wp.bind (Wp.attempt (spec_allocateZones hl.mapped (fun zs _ hfresh => ?_) ?_))
    · exact Wp.pure (hQ zs hfresh)
    · exact Wp.pure (hQ [] hnil)

lemma blocksForLen_eq (h : fileBlocks data.length ≤ maxFileBlocks) :
    Node.blocksForLen data.length = fileBlocks data.length := by
  unfold fileBlocks maxFileBlocks at *
  unfold Node.blocksForLen
  split <;> omega

lemma storeFile_spec {i' : Inode} {M : Pos → Nat} {ps : List Pos} {A : List Nat}
    {pr : FileProgress} {W : List (Nat × Bytes)}
    (hs : V.FileSupply (V.refOf (V.inode n)) (fileBlocks data.length)) (hn : V.IsInode n)
    (hf : Laid V (V.refOf (V.inode n)) data.length (fileBlocks data.length) M ps A pr)
    (hW : Pending (V.refOf (V.inode n)) M IsPointer W) {Q : Post FsError Unit}
    (hQ : ∀ B, DataStored M data V.block 0 (fileBlocks data.length) B →
      Q (.ok ()) (V.wrote n A (putBlocks W B) i')) :
    Spec (storeFile n data i' W pr) Q (V.taking (A ++ pr.preallocated) V.block) := by
  have hmapped : ∀ j, j < fileBlocks data.length → M (filePos j) ≠ 0 := fun j hj =>
    hf.zoned.mapped _ ((hf.blocks j).mpr hj)
  have hz : FileZones V M 0 (fileBlocks data.length) := by
    refine ⟨fun j _ h2 => ?_, fun j j' _ h2 _ h4 he => ?_⟩
    · exact hf.zoned.isData hs.maps (hmapped j (by omega))
    · exact filePos_inj (hf.zoned.inj hs.maps (hmapped j (by omega)) he)
  rw [storeFile, hf.ops, range_eq_range']
  refine Wp.bind (storeData_spec hs.layout hz fun B hB => ?_)
  refine Wp.bind (storeBlocks_spec hs.layout (fun w hw => ?_) ?_)
  · obtain ⟨q, -, he, hne, -⟩ := hW.stored w hw
    rw [he] at hne ⊢
    exact hf.zoned.isData hs.maps hne
  refine Wp.bind (Wp.mapErr (spec_writeInode
    (V := V.taking (A ++ pr.preallocated) (putBlocks W B)) hs.layout hn ?_))
  refine Wp.bind (spec_deallocZones
    (V := (V.taking (A ++ pr.preallocated) (putBlocks W B)).putInode n i') hs.layout.mapped
    (fun z hz => ?_) ?_)
  · exact hf.zoned.fresh.isData z (mem_append_right _ hz)
  have hrelease : ((V.taking (A ++ pr.preallocated) (putBlocks W B)).putInode n i').setZones
      pr.preallocated false = (V.taking A (putBlocks W B)).putInode n i' :=
    congrArg (·.putInode n i') (Volume.taking_release hf.zoned.fresh)
  rw [hrelease]
  exact spec_modifyFiles (hQ B hB)

lemma writeFile_spec (hs : V.FileSupply (V.refOf (V.inode n)) (fileBlocks data.length))
    (hn : V.IsInode n) (hcap : fileBlocks data.length ≤ maxFileBlocks) {Q : Post FsError Unit}
    (hQ : ∀ M ps A B i', WroteFile V (V.inode n) data M ps A B i' →
      Q (.ok ()) (V.wrote n A B i')) : Spec (writeFile n data) Q V := by
  have hptr := V.pointers (V.inode n)
  refine Wp.bind (spec_get fun s hsV => ?_)
  have hsb : s.superblock = V.sb := congrArg (fun W : Volume => W.sb) hsV
  obtain ⟨hn1, hn2⟩ := hn
  simp only [hsb]
  rw [if_neg (by omega)]
  refine Wp.bind (Wp.mapErr (spec_readInode hs.layout ⟨hn1, hn2⟩ ?_))
  rw [blocksForLen_eq hcap]
  simp only [Except.mapError, if_neg (Nat.not_lt.mpr hcap)]
  refine Wp.bind (spec_filePreallocate hs.layout fun P hP => ?_)
  -- the direct slots
  have hstart : Laid V (V.refOf (V.inode n)) data.length 0 (V.refOf (V.inode n)) [] []
      ⟨P, [], 0⟩ := by
    refine ⟨Volume.Zoned.start hP, zero_le _, fun j => ?_, ?_, rfl⟩
    · simp
    · simp
  have hchild : ∀ j < 6, filePos (0 + j) = .direct j := fun j hj => by
    rw [zero_add, filePos_direct hj]
  refine Wp.bind (fileEntries_spec (b := 0) hs
    (fun t j z _ _ j' => update_apply t j z j') hchild (fun j j' he => by injection he)
    (zero_le 6) rfl hstart (fun j => rfl) ?_)
  intro zones dirty k M₁ ps₁ A₁ pr₁ hf₁ hk₁ hzones hframe₁ _
  have hupper₁ := hf₁.upper
  have hsame₁ : ∀ p, (∀ b, p ≠ .direct b) → M₁ p = V.refOf (V.inode n) p ∧ p ∉ ps₁ := fun p hp =>
    ⟨(hframe₁ p hp).1, fun hmem => not_mem_nil ((hframe₁ p hp).2.mp hmem)⟩
  refine Wp.bind (fileSingle_spec hs hf₁ (by omega) hsame₁ hptr.single hptr.entries ?_)
  intro S k₂ M₂ ps₂ A₂ pr₂ hf₂ hk₂ hpend₂ hframe₂
  have hsame₂ : ∀ p, (∀ b, p ≠ .direct b) → p ≠ .single → (∀ j, p ≠ .singleEntry j) →
      M₂ p = V.refOf (V.inode n) p ∧ p ∉ ps₂ := by
    intro p hp1 hp2 hp3
    obtain ⟨h1, h2⟩ := hframe₂ p hp2 hp3
    exact ⟨h1.trans (hsame₁ p hp1).1, fun hmem => (hsame₁ p hp1).2 (h2.mp hmem)⟩
  have hdouble₂ : ((V.inode n).singleIndirectSet (M₂ .single)).doubleIndirectGet
      = V.refOf (V.inode n) .double := hptr.double
  refine Wp.bind (fileDouble_spec hs hcap hf₂ hk₂ (hsame₂ .double nofun nofun nofun)
    (fun j => (hsame₂ (.l1 j) nofun nofun nofun).2) hdouble₂ hptr.l1 hptr.l2 hpend₂ ?_)
  intro l2 D M ps A pr hf hpend hsingle hdirect
  have hwritten : ¬ pr.written < data.length := Nat.not_lt.mpr (hf.done.mpr rfl)
  have hzone32 : ∀ p, M p < 2 ^ 32 := by
    intro p
    by_cases h0 : M p = 0
    · rw [h0]
      decide
    · exact Disk.Owned.zone_lt hs.layout (hf.zoned.isData hs.maps h0)
  simp only [if_neg hwritten]
  refine storeFile_spec hs ⟨hn1, hn2⟩ hf hpend fun B hB => hQ M ps A _ _ ?_
  -- no data went to a pointer block
  have hother : ∀ q, IsPointer q → M q ≠ 0 → B (M q) = V.block (M q) := by
    intro q hq hne
    refine hB.outside _ fun j _ _ he => ?_
    have hj := hf.zoned.inj hs.maps hne he
    obtain ⟨h1, h2, h3⟩ := filePos_ne_pointer j
    rcases hq with rfl | rfl | ⟨l, rfl⟩
    · exact h1 hj.symm
    · exact h2 hj.symm
    · exact h3 l hj.symm
  have hbelow : ∀ q, IsPointer q → (∀ k, V.refOf (V.inode n) (below q k)
        = pointerIn V.block (V.refOf (V.inode n) q) k) →
      ∀ k, M (below q k) = pointerIn (putBlocks (l2 ++ S ++ D) B) (M q) k := fun q hq hold k =>
    hpend.pointerIn hf.zoned hs.maps hq hold (hother q hq) k
  -- a data zone is no pointer block
  have hdata : ∀ j, j < fileBlocks data.length → ∀ w ∈ l2 ++ S ++ D, w.1 ≠ M (filePos j) := by
    intro j hj w hw he
    obtain ⟨q, hq, hwq, hne, -⟩ := hpend.stored w hw
    have hqj := hf.zoned.inj hs.maps (hwq ▸ hne) (hwq.symm.trans he)
    obtain ⟨h1, h2, h3⟩ := filePos_ne_pointer j
    rcases hq with rfl | rfl | ⟨l, rfl⟩
    · exact h1 hqj.symm
    · exact h2 hqj.symm
    · exact h3 l hqj.symm
  refine ⟨hf.zoned.drop, hf.blocks, ⟨?_, hbelow .single (.inl rfl) hptr.entries, ?_,
    hbelow .double (.inr (.inl rfl)) hptr.l1,
    fun j => hbelow (.l1 j) (.inr (.inr ⟨j, rfl⟩)) (hptr.l2 j)⟩, fun b => ?_, ?_, ?_, ?_,
    fun j hj x hx => ?_, fun z hz1 hz2 => ?_⟩
  · rw [fileInode_field (·.singleIndirectGet)
      (fun i k z => congrArg UInt32.toNat (i.directSlotSet_indirect k z)) fun _ _ => rfl, hsingle]
    exact (V.inode n).singleIndirectGet_set (hsingle ▸ hzone32 _)
  · rw [fileInode_field (·.doubleIndirectGet)
      (fun i k z => congrArg UInt32.toNat (i.directSlotSet_doubleIndirect k z)) fun _ _ => rfl]
    exact doubleIndirectGet_set _ (hzone32 _)
  · have hslot : ∀ b, zones b = M (.direct b) := fun b => by
      rw [hzones, hdirect, (hframe₂ (.direct b) nofun nofun).1]
    rw [fileInode_eq, withSize_directSlotGet, setSlots_directSlotGet (le_refl 6)
      fun b _ => hslot b ▸ hzone32 _]
    by_cases hb : b < 6
    · rw [if_pos hb, hslot]
    have hout : Pos.direct b ∉ filePlaces (fileBlocks data.length) := by
      rw [mem_filePlaces]
      rintro (⟨j, -, he⟩ | ⟨-, he⟩ | ⟨-, he | ⟨l, -, he⟩⟩)
      · unfold filePos at he
        split_ifs at he
        injection he
        omega
      · cases he
      · cases he
      · cases he
    rw [if_neg hb, hf.zoned.outside hout]
    exact (directSlotGet_of_le _ (by omega)).trans
      ((V.inode n).directSlotGet_of_le (by omega)).symm
  · have hw : pr.written = data.length := by
      rw [hf.written]
      unfold fileBlocks
      omega
    have hlen : data.length < 2 ^ 64 := by
      unfold fileBlocks maxFileBlocks at hcap
      omega
    rw [fileInode_eq, withSize_size, hw, UInt64.toNat_ofNat_of_lt' hlen]
  · exact fileInode_field (·.flags) directSlotSet_flags (fun _ _ => rfl) _ _ _
  · exact fileInode_field (·.mode) directSlotSet_mode (fun _ _ => rfl) _ _ _
  · rw [putBlocks_of_not_mem (hdata j hj), hB.inside j (zero_le j) (by omega) x hx]
  · rw [putBlocks_of_not_mem, hB.outside z fun j _ hj => hz2 j (by omega)]
    intro w hw he
    obtain ⟨q, hq, hwq, -, -⟩ := hpend.stored w hw
    exact hz1 q hq (he.symm.trans hwq)

end

end Twilight.Fs

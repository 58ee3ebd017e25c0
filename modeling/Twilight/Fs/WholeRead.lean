/-
What `read_file` returns after `write_file`.

The reader goes through the same pointer blocks but uses 511 entries of each, so
a file of up to 517 blocks comes back as it was written.  One more block is in
an entry the reader never looks at, and the blocks after it come one block too
early.  On a file that had no double indirect block the reader then finds fewer
bytes than were written.
-/
import Twilight.Fs.WholeStore
import Twilight.Fs.FileRuns

namespace Twilight.Fs

open TwilightFs Prog List Nat Inode

/-- What `write_file` has accepted, `read_file` returns. -/
def RoundTrip (n : Nat) (data : List UInt8) (s : TwilightFs) : Prop :=
  match writeFile n data s with
  | .ok _ s' => outcome (readFile n s') = .ok data
  | .error _ _ => True

/-! ## One table -/

lemma exists_stop (entry : Nat → Nat) {i cap : Nat} (hi : i ≤ cap) :
    ∃ e, i ≤ e ∧ e ≤ cap ∧ (∀ j, i ≤ j → j < e → entry j ≠ 0) ∧ (e = cap ∨ entry e = 0) := by
  induction hn : cap - i generalizing i with
  | zero => exact ⟨i, Nat.le_refl i, hi, fun j h1 h2 => by omega, .inl (by omega)⟩
  | succ n ih =>
    by_cases h0 : entry i = 0
    · exact ⟨i, Nat.le_refl i, hi, fun j h1 h2 => by omega, .inr h0⟩
    · obtain ⟨e, h1, h2, h3, h4⟩ := ih (i := i + 1) (by omega) (by omega)
      refine ⟨e, by omega, h2, fun j hj1 hj2 => ?_, h4⟩
      by_cases hj : j = i
      · rwa [hj]
      · exact h3 j (by omega) hj2

section

variable {V : Volume} {entry : Nat → Nat} {cap i e b size : Nat} {F : Nat → UInt8}

lemma map_range_append {q : Nat} (t : Nat) {buf : Bytes} (hF : ∀ x < t, F (q + x) = buf x) :
    (List.range q).map F ++ buf.slice 0 t = (List.range (q + t)).map F := by
  rw [range_add, map_append, List.map_map]
  congr 1
  refine map_congr_left fun x hx => ?_
  rw [Nat.zero_add]
  exact (hF x (mem_range.mp hx)).symm

lemma spec_readEntries (hl : Layout V.mount) (hie : i ≤ e) (he : e ≤ cap)
    (hne : ∀ j, i ≤ j → j < e → entry j ≠ 0) (hstop : e = cap ∨ entry e = 0)
    (hdata : ∀ j, entry j ≠ 0 → V.IsData (entry j))
    (hF : ∀ j, i ≤ j → j < e → ∀ x < 2048, F (2048 * (b + j) + x) = V.block (entry j) x)
    {remaining : Nat} {content : List UInt8} (hrest : remaining = size - 2048 * (b + i))
    (hread : content = (List.range (min size (2048 * (b + i)))).map F)
    {Q : Post ReadError (List UInt8 × Nat)}
    (hQ : Q (.ok ((List.range (min size (2048 * (b + e)))).map F, size - 2048 * (b + e))) V) :
    Spec (readEntries entry cap i remaining content) Q V := by
  induction hn : e - i generalizing i remaining content with
  | zero =>
    obtain rfl : i = e := by omega
    rw [readEntries, hrest, hread]
    by_cases hcap : cap ≤ i
    · rw [if_pos hcap]
      exact Wp.pure hQ
    · rw [if_neg hcap, if_pos (hstop.resolve_left (by omega))]
      exact Wp.pure hQ
  | succ n ih =>
    have hi := hne i (Nat.le_refl i) (by omega)
    rw [readEntries, if_neg (by omega), if_neg hi]
    refine Wp.bind (Wp.mapErr (spec_readTfsBlock hl (hdata _ hi) ?_))
    -- the bytes of this block follow what was read
    have happend : content ++ (V.block (entry i)).slice 0 (min remaining 2048)
        = (List.range (min size (2048 * (b + (i + 1))))).map F := by
      rw [hrest, hread]
      by_cases hpast : size ≤ 2048 * (b + i)
      · rw [show size - 2048 * (b + i) = 0 by omega, Nat.min_eq_left hpast,
          show min size (2048 * (b + (i + 1))) = size by omega]
        simp [Bytes.slice]
      · rw [Nat.min_eq_right (by omega), map_range_append]
        · congr 2
          omega
        · exact fun x hx => hF i (Nat.le_refl i) (by omega) x (by omega)
    simp only [Except.mapError, happend]
    split
    · next hdone =>
      have h1 : min size (2048 * (b + (i + 1))) = min size (2048 * (b + e)) := by
        have : 2048 * (b + (i + 1)) ≤ 2048 * (b + e) := by omega
        omega
      have h2 : size - 2048 * (b + e) = 0 := by omega
      rw [h1]
      rw [h2] at hQ
      exact Wp.pure hQ
    · exact ih (by omega) (fun j h1 h2 => hne j (by omega) h2)
        (fun j h1 h2 => hF j (by omega) h2) (by omega) rfl (by omega)

lemma spec_readEntries_length (hl : Layout V.mount) (hie : i ≤ e) (hstop : cap ≤ e ∨ entry e = 0)
    (hdata : ∀ j, entry j ≠ 0 → V.IsData (entry j)) {remaining : Nat} {content : List UInt8}
    {Q : Post ReadError (List UInt8 × Nat)}
    (hQ : ∀ content' remaining', content'.length ≤ content.length + 2048 * (e - i) →
      Q (.ok (content', remaining')) V) :
    Spec (readEntries entry cap i remaining content) Q V := by
  induction hn : e - i generalizing i remaining content with
  | zero =>
    obtain rfl : i = e := by omega
    rw [readEntries]
    by_cases hcap : cap ≤ i
    · rw [if_pos hcap]
      exact Wp.pure (hQ _ _ (le_add_right _ _))
    · rw [if_neg hcap, if_pos (hstop.resolve_left hcap)]
      exact Wp.pure (hQ _ _ (le_add_right _ _))
  | succ n ih =>
    rw [readEntries]
    split
    · exact Wp.pure (hQ _ _ (le_add_right _ _))
    split
    · exact Wp.pure (hQ _ _ (le_add_right _ _))
    next hi =>
    refine Wp.bind (Wp.mapErr (spec_readTfsBlock hl (hdata _ hi) ?_))
    have hlen : (content ++ (V.block (entry i)).slice 0 (min remaining 2048)).length
        ≤ content.length + 2048 := by
      rw [length_append, Bytes.slice, length_map, length_range]
      omega
    simp only [Except.mapError]
    split
    · exact Wp.pure (hQ _ _ (by omega))
    · exact ih (by omega) (fun content' remaining' hle => hQ content' remaining' (by omega))
        (by omega)

end

/-! ## The file that was written -/

namespace WroteFile

variable {V : Volume} {i i' : Inode} {n : Nat} {data : List UInt8} {M : Pos → Nat} {ps : List Pos}
  {A : List Nat} {B : Nat → Bytes}

def byte (B : Nat → Bytes) (M : Pos → Nat) (p : Nat) : UInt8 :=
  B (M (filePos (p / 2048))) (p % 2048)

lemma byte_at {j x : Nat} (hx : x < 2048) : byte B M (2048 * j + x) = B (M (filePos j)) x := by
  rw [byte, mul_add_div (by decide), mul_add_mod, div_eq_of_lt hx, mod_eq_of_lt hx, add_zero]

section

variable (h : WroteFile V i data M ps A B i')
include h

lemma mapped {j : Nat} (hj : j < fileBlocks data.length) :
    M (filePos j) ≠ 0 := h.zoned.mapped _ ((h.visited j).mpr hj)

lemma isData (hM : V.Maps (V.refOf i)) {p : Pos}
    (hp : M p ≠ 0) : (V.wrote n A B i').IsData (M p) := h.zoned.isData hM hp

lemma bytes :
    (List.range data.length).map (byte B M) = data := by
  refine ext_getElem (by simp) fun p h1 h2 => ?_
  rw [getElem_map, getElem_range, byte,
    h.inside _ (by unfold fileBlocks; omega) _ (Nat.mod_lt p (by decide)),
    show p / 2048 * 2048 + p % 2048 = p by omega, getD_eq_getElem _ _ h2]

lemma singleEntry (hne : M .single ≠ 0) (k : Nat) :
    entryAt (B (M .single)) k = M (.singleEntry k) := by
  rw [h.pointers.entries, pointerIn_of_ne hne]

lemma spec_readDouble (hl : Layout V.mount)
    (hM : V.Maps (V.refOf i)) {content : List UInt8} {Q : Post ReadError (List UInt8 × Nat)}
    (hQ : Q (.ok (content, 0)) (V.wrote n A B i')) :
    Spec (readDouble i' 0 content) Q (V.wrote n A B i') := by
  rw [readDouble, h.pointers.double]
  split
  · exact Wp.pure hQ
  · next hne =>
    refine Wp.bind (Wp.mapErr (spec_readTfsBlock (V := V.wrote n A B i') hl (h.isData hM hne) ?_))
    simp only [Except.mapError]
    rw [readL1, if_pos (.inr rfl)]
    exact Wp.pure hQ

lemma spec_readFile (hl : Layout V.mount)
    (hM : V.Maps (V.refOf i)) (hn : V.IsInode n) (hinline : i.isInline = false)
    (hlen : data.length ≤ 517 * 2048) :
    Spec (readFile n) (fun r _ => r = .ok data) (V.wrote n A B i') := by
  have hrecord : (V.wrote n A B i').inode n = i' := Function.update_self ..
  have hinline' : i'.isInline = false := by
    rw [isInline, h.flags]
    exact hinline
  have hblocks : data.length ≤ 2048 * fileBlocks data.length ∧ fileBlocks data.length ≤ 517 := by
    unfold fileBlocks
    omega
  rw [readFile]
  refine Wp.bind (Wp.mapErr (spec_readInode (V := V.wrote n A B i') hl hn ?_))
  simp only [Except.mapError, hrecord, hinline', Bool.false_eq_true, if_false, h.size]
  -- the direct slots
  obtain ⟨e, -, he6, hne, hstop⟩ := exists_stop i'.directSlotGet (Nat.zero_le 6)
  have he : min (fileBlocks data.length) 6 ≤ e := by
    by_contra hlt
    have hzero := hstop.resolve_left (by omega)
    rw [h.direct] at hzero
    have hmap := h.mapped (show e < fileBlocks data.length by omega)
    rw [filePos_direct (by omega)] at hmap
    exact hmap hzero
  refine Wp.bind (spec_readEntries (V := V.wrote n A B i') (b := 0) (F := byte B M) hl
    (Nat.zero_le e) he6 hne hstop (fun j hj => ?_) (fun j _ hj x hx => ?_) (Nat.sub_zero _).symm
    (by simp) ?_)
  · rw [h.direct] at hj ⊢
    exact h.isData hM hj
  · rw [Nat.zero_add, byte_at hx, filePos_direct (by omega), ← h.direct]
    rfl
  have hread : (List.range (min data.length (2048 * (0 + e)))).map (byte B M)
      = (List.range (min data.length (2048 * (6 + 0)))).map (byte B M) := by
    congr 2
    omega
  -- what is left for the double indirect range
  have hlast : ∀ {content : List UInt8} {remaining : Nat}, content = data → remaining = 0 →
      Spec (readDouble i' remaining content >>= fun r => pure r.1) (fun r _ => r = .ok data) (V.wrote n A B i') := by
    rintro content remaining rfl rfl
    exact Wp.bind (h.spec_readDouble hl hM (Wp.pure rfl))
  have hall : ∀ {k : Nat}, fileBlocks data.length ≤ k →
      (List.range (min data.length (2048 * k))).map (byte B M) = data := by
    intro k hk
    rw [Nat.min_eq_left (by omega)]
    exact h.bytes
  refine Wp.bind ?_
  simp only [readSingle, h.pointers.single]
  by_cases hz : M .single = 0
  · -- no single indirect block, so the direct slots were enough
    have hsmall : fileBlocks data.length ≤ 6 := by
      by_contra hbig
      have hmap := h.mapped (show 6 + 0 < fileBlocks data.length by omega)
      rw [filePos_single (by decide), h.pointers.entries, hz] at hmap
      exact hmap rfl
    rw [if_pos hz]
    refine Wp.pure (hlast ?_ (by omega))
    rw [hread]
    exact hall hsmall
  · rw [if_neg hz]
    refine Wp.bind (Wp.mapErr (spec_readTfsBlock (V := V.wrote n A B i') hl (h.isData hM hz) ?_))
    obtain ⟨e', -, he', hne', hstop'⟩ := exists_stop (entryAt (B (M .single))) (Nat.zero_le 511)
    have hend : fileBlocks data.length ≤ 6 + e' := by
      by_contra hlt
      have hzero := hstop'.resolve_left (by omega)
      rw [h.singleEntry hz] at hzero
      have hmap := h.mapped (show 6 + e' < fileBlocks data.length by omega)
      rw [filePos_single (by omega)] at hmap
      exact hmap hzero
    refine spec_readEntries (V := V.wrote n A B i') (b := 6) (F := byte B M) hl (Nat.zero_le e') he'
      hne' hstop' (fun j hj => ?_) (fun j _ hj x hx => ?_) (by omega) hread
      (hlast (hall hend) (by omega))
    · have hj' : M (.singleEntry j) ≠ 0 := by rwa [← h.singleEntry hz]
      have := h.isData (n := n) hM hj'
      rwa [← h.singleEntry hz] at this
    · rw [byte_at hx, filePos_single (by omega), ← h.singleEntry hz]
      rfl

/-! ### Longer files -/

lemma l2_eq_zero (hdouble : i.doubleIndirectGet = 0)
    {j k : Nat} (hk : k < 512) (hout : fileBlocks data.length ≤ 518 + 512 * j + k) :
    M (.l2 j k) = 0 := by
  have hold : V.refOf i (.l2 j k) = 0 := by
    have hptr := V.pointers i
    have hroot : V.refOf i .double = 0 := hdouble
    rw [hptr.l2, hptr.l1, hroot]
    rfl
  rw [← filePos_l2 hk]
  rw [← filePos_l2 hk] at hold
  rw [h.zoned.kept _ (.inr fun hmem => ?_), hold]
  have := (h.visited _).mp hmem
  omega

lemma spec_readL1_length (hl : Layout V.mount)
    (hM : V.Maps (V.refOf i)) (hdouble : i.doubleIndirectGet = 0) {root : Bytes}
    (hroot : ∀ j, entryAt root j = M (.l1 j)) {k remaining : Nat} {content : List UInt8}
    (hlen : content.length ≤ 2048 * (517 + min (512 * k) (fileBlocks data.length - 518)))
    {Q : Post ReadError (List UInt8 × Nat)} (hQ : ∀ content' remaining',
      content'.length ≤ 2048 * (517 + (fileBlocks data.length - 518)) →
      Q (.ok (content', remaining')) (V.wrote n A B i')) :
    Spec (readL1 root k remaining content) Q (V.wrote n A B i') := by
  induction hm : 511 - k generalizing k remaining content with
  | zero =>
    rw [readL1, if_pos (.inl (by omega))]
    exact Wp.pure (hQ _ _ (by omega))
  | succ d ih =>
    rw [readL1]
    split
    · exact Wp.pure (hQ _ _ (by omega))
    split
    · exact Wp.pure (hQ _ _ (by omega))
    next hne =>
    rw [hroot] at hne ⊢
    refine Wp.bind (Wp.mapErr (spec_readTfsBlock (V := V.wrote n A B i') hl (h.isData hM hne) ?_))
    have hentry : ∀ c, entryAt (B (M (.l1 k))) c = M (.l2 k c) := fun c => by
      rw [h.pointers.l2, pointerIn_of_ne hne]
    refine Wp.bind (spec_readEntries_length (V := V.wrote n A B i')
      (e := min 511 (fileBlocks data.length - (518 + 512 * k))) hl (Nat.zero_le _) ?_
      (fun j hj => ?_) fun content' remaining' hle => ih (by omega) (by omega))
    · by_cases hfull : 511 ≤ fileBlocks data.length - (518 + 512 * k)
      · exact .inl (by omega)
      · refine .inr ((hentry _).trans (h.l2_eq_zero hdouble (by omega) (by omega)))
    · have hj' : M (.l2 k j) ≠ 0 := fun he => hj ((hentry j).trans he)
      have hdata := h.isData (n := n) hM hj'
      rw [← hentry] at hdata
      exact hdata

lemma spec_readFile_short (hl : Layout V.mount)
    (hM : V.Maps (V.refOf i)) (hn : V.IsInode n) (hinline : i.isInline = false)
    (hdouble : i.doubleIndirectGet = 0) (hlen : 517 * 2048 < data.length) :
    Spec (readFile n) (fun r _ => r ≠ .ok data) (V.wrote n A B i') := by
  have hrecord : (V.wrote n A B i').inode n = i' := Function.update_self ..
  have hinline' : i'.isInline = false := by
    rw [isInline, h.flags]
    exact hinline
  have hblocks : 2048 * (517 + (fileBlocks data.length - 518)) < data.length := by
    unfold fileBlocks
    omega
  rw [readFile]
  refine Wp.bind (Wp.mapErr (spec_readInode (V := V.wrote n A B i') hl hn ?_))
  simp only [Except.mapError, hrecord, hinline', Bool.false_eq_true, if_false]
  refine Wp.bind (spec_readEntries_length (V := V.wrote n A B i') hl (Nat.zero_le 6)
    (.inl (Nat.le_refl 6)) (fun j hj => ?_) fun c₁ r₁ h₁ => ?_)
  · rw [h.direct] at hj ⊢
    exact h.isData hM hj
  have hlast : ∀ {content : List UInt8} {remaining : Nat}, content.length ≤ 2048 * 517 →
      Spec (readDouble i' remaining content >>= fun r => pure r.1) (fun r _ => r ≠ .ok data) (V.wrote n A B i') := by
    intro content remaining hc
    have hshort : ∀ content' : List UInt8,
        content'.length ≤ 2048 * (517 + (fileBlocks data.length - 518)) →
        (Except.ok content' : Except ReadError (List UInt8)) ≠ .ok data := by
      intro content' hle he
      injection he with he
      rw [he] at hle
      omega
    refine Wp.bind ?_
    rw [readDouble, h.pointers.double]
    split
    · exact Wp.pure (Wp.pure (hshort content (by omega)))
    next hne =>
    refine Wp.bind (Wp.mapErr (spec_readTfsBlock (V := V.wrote n A B i') hl (h.isData hM hne) ?_))
    refine h.spec_readL1_length hl hM hdouble (fun j => ?_) (by omega) fun content' _ hle =>
      Wp.pure (hshort content' hle)
    rw [h.pointers.l1, pointerIn_of_ne hne]
    rfl
  simp only [length_nil, Nat.zero_add] at h₁
  refine Wp.bind ?_
  simp only [readSingle, h.pointers.single]
  split
  · exact Wp.pure (hlast (show c₁.length ≤ 2048 * 517 by omega))
  next hz =>
  refine Wp.bind (Wp.mapErr (spec_readTfsBlock (V := V.wrote n A B i') hl (h.isData hM hz) ?_))
  refine spec_readEntries_length (V := V.wrote n A B i') hl (Nat.zero_le 511)
    (.inl (Nat.le_refl 511)) (fun j hj => ?_) fun c₂ r₂ h₂ =>
      hlast (show c₂.length ≤ 2048 * 517 by omega)
  have hj' : M (.singleEntry j) ≠ 0 := fun he => hj ((h.singleEntry hz j).trans he)
  have hdata := h.isData (n := n) hM hj'
  rw [← h.singleEntry hz] at hdata
  exact hdata

end

end WroteFile

/-! ## The two calls -/

section

variable {s : TwilightFs} {n : Nat} {data : List UInt8}

section

variable (hs : s.volume.FileSupply (s.volume.refOf (s.volume.inode n)) (fileBlocks data.length))
include hs

lemma roundTrip_iff_of_wrote {P : Prop}
    (hn : s.volume.IsInode n) (hcap : fileBlocks data.length ≤ maxFileBlocks)
    (hread : ∀ M ps A B i', WroteFile s.volume (s.volume.inode n) data M ps A B i' →
      Spec (readFile n) (fun r _ => r = .ok data ↔ P) (s.volume.wrote n A B i')) :
    RoundTrip n data s ↔ P := by
  have hrun := writeFile_spec (Q := fun r W => r = .ok () ∧
    Spec (readFile n) (fun r _ => r = .ok data ↔ P) W) hs hn hcap
    (fun M ps A B i' hw => ⟨rfl, hread M ps A B i' hw⟩) s rfl
  rw [RoundTrip]
  cases hw : writeFile n data s with
  | ok a s' =>
    rw [hw] at hrun
    exact hrun.2 s' rfl
  | error e s' =>
    rw [hw] at hrun
    cases hrun.1

lemma roundTrip_of_le (hn : s.volume.IsInode n) (hinline : (s.volume.inode n).isInline = false)
    (hlen : data.length ≤ 517 * 2048) : RoundTrip n data s := by
  have hcap : fileBlocks data.length ≤ maxFileBlocks := by
    unfold fileBlocks maxFileBlocks
    omega
  refine (roundTrip_iff_of_wrote (P := True) hs hn hcap fun M ps A B i' hw => ?_).mpr trivial
  refine (hw.spec_readFile hs.layout hs.maps hn hinline hlen).mono fun r _ hr => ?_
  exact ⟨fun _ => trivial, fun _ => hr⟩

lemma not_roundTrip_of_lt
    (hn : s.volume.IsInode n) (hinline : (s.volume.inode n).isInline = false)
    (hcap : fileBlocks data.length ≤ maxFileBlocks)
    (hdouble : (s.volume.inode n).doubleIndirectGet = 0) (hlen : 517 * 2048 < data.length) :
    ¬ RoundTrip n data s := by
  refine (roundTrip_iff_of_wrote (P := False) hs hn hcap fun M ps A B i' hw => ?_).mp
  refine (hw.spec_readFile_short hs.layout hs.maps hn hinline hdouble hlen).mono fun r _ hr => ?_
  exact ⟨fun h => hr h, fun h => h.elim⟩

end

end

lemma card_lacking_le (M₀ : Pos → Nat) (m : Nat) :
    (lacking M₀ m).card ≤ m + (if 6 < m then 1 else 0) +
      if 518 < m then (m - 518 + 511) / 512 + 1 else 0 := by
  have hblocks : ((Finset.range m).image filePos).card ≤ m :=
    Finset.card_image_le.trans (Nat.le_of_eq (Finset.card_range m))
  have hsingle : (if 6 < m then ({.single} : Finset Pos) else ∅).card
      ≤ if 6 < m then 1 else 0 := by
    split <;> simp
  have hdouble : (if 518 < m then insert .double
        ((Finset.range ((m - 518 + 511) / 512)).image Pos.l1) else ∅).card
      ≤ if 518 < m then (m - 518 + 511) / 512 + 1 else 0 := by
    split
    · refine (Finset.card_insert_le _ _).trans (Nat.add_le_add_right ?_ 1)
      exact Finset.card_image_le.trans (Nat.le_of_eq (Finset.card_range _))
    · exact Nat.le_of_eq Finset.card_empty
  have hfilter : (lacking M₀ m).card ≤ (filePlaces m).card := Finset.card_filter_le _ _
  have hunion : (filePlaces m).card ≤ _ := Finset.card_union_le _ _
  have hunion' := Finset.card_union_le (if 6 < m then ({.single} : Finset Pos) else ∅)
    (if 518 < m then insert .double ((Finset.range ((m - 518 + 511) / 512)).image Pos.l1) else ∅)
  omega

def wideFs : TwilightFs where
  superblock := Superblock.geometry 4096
  device := ⟨4096, fun k =>
    if k = 1 then Bytes.zero.putBit 0 true
    else if k = 3 then Bytes.zero.splice 0 byteSize plainRecord.encode
    else Bytes.zero⟩
  mountMode := .readWrite
  shared := Shared.new

lemma wideFs_record : wideFs.volume.inode 1 = plainRecord := by
  have hread : wideFs.volume.inode 1
      = decode (Bytes.zero.splice 0 byteSize plainRecord.encode) 0 := rfl
  rw [hread, ← decode_encode plainRecord]
  refine decode_congr fun k hk => ?_
  rw [decode_encode, Bytes.splice_at hk, Nat.zero_add]

lemma wideFs_freeZones : wideFs.volume.freeZones = Finset.Ico 16 1024 := by
  have hfdz : wideFs.volume.sb.firstDataZone = 16 := by decide
  have hzones : wideFs.volume.sb.zones = 1024 := by decide
  have hall : ∀ k < 1024, wideFs.volume.zmap k = false := by decide +kernel
  rw [Disk.freeZones, hfdz, hzones]
  exact Finset.filter_true_of_mem fun z hz => hall z (Finset.mem_Ico.mp hz).2

lemma wideFs_supply {m : Nat} (hm : m ≤ 518) :
    wideFs.volume.FileSupply (wideFs.volume.refOf (wideFs.volume.inode 1)) m := by
  have hrefs : ∀ p, wideFs.volume.refOf (wideFs.volume.inode 1) p = 0 := by
    intro p
    rw [wideFs_record, plainRecord_onlyZone.refOf]
    exact ite_self 0
  refine ⟨⟨by decide, by decide, by decide, by decide, by decide, by decide, by decide, by decide,
    rfl⟩, ⟨fun p hp => absurd (hrefs p) hp, fun p hp => absurd (hrefs p) hp,
    fun p q hp => absurd (hrefs p) hp⟩, ?_⟩
  have hcard := card_lacking_le (wideFs.volume.refOf (wideFs.volume.inode 1)) m
  rw [wideFs_freeZones, card_Ico]
  split_ifs at hcard <;> omega

end Twilight.Fs

/-
The names in a directory.

`Disk.entry` is the decoded entry of a slot.  The index the code builds is the map
from the names of the entries to their inode numbers; when no name occurs twice it
is determined by the set of entries, so that adding, clearing and renaming one
entry changes one name of the index.
-/
import Mathlib.Data.List.GetD
import Twilight.Fs.NsOps

namespace Twilight.Fs

open TwilightFs Function List Option Bytes DirEntry Disk Str

/-! ## Entries as bytes -/

structure IsName (name : Str) : Prop where
  ne_nil : name ≠ []
  short : name.length ≤ 60
  utf8 : utf8Valid name = true
  noNul : Str.NoTrailingNul name

namespace DirEntry

variable {name : Str} {buf : Bytes} {idx : Nat}

lemma decodeDirName_pad (h : IsName name) (n : Nat) :
    decodeDirName (name ++ replicate n 0) = some name := by
  unfold decodeDirName
  rw [utf8Valid_append_replicate, if_pos h.utf8, trimNul_append_replicate h.noNul]
  exact if_neg h.ne_nil

lemma searchName_eq_iff {raw : Str} (h : name ≠ []) :
    searchName raw = name ↔ decodeDirName raw = some name := by
  unfold searchName decodeDirName
  by_cases hu : utf8Valid raw
  · rw [if_pos hu, if_pos hu]
    by_cases he : trimNul raw = []
    · simp [he, h.symm]
    · simp [he]
  · rw [if_neg hu, if_neg hu]
    simp [trimNul, h.symm]

lemma slot_congr {a b : Bytes} {k : Nat} (h : ∀ o, k * 64 ≤ o → o < k * 64 + 64 → a o = b o) :
    inodeAt a k = inodeAt b k ∧ nameAt a k = nameAt b k := by
  constructor
  · apply readLE_congr
    intro j hj
    apply h <;> unfold dirEntrySize <;> omega
  · apply slice_congr
    intro j hj
    apply h <;> unfold dirEntrySize <;> omega

lemma inodeAt_encode {child : Nat} (hc : child < 2 ^ 32) :
    inodeAt (buf.splice (idx * 64) 64 (encode child name)) idx = child := by
  have hmod : child % 256 ^ 4 = child := Nat.mod_eq_of_lt (by omega)
  rw [inodeAt, dirEntrySize, readLE_splice_inside (by omega) (by omega), Nat.sub_self,
    readLE_of_le, hmod]
  intro j hj
  rw [Nat.zero_add, encode, if_pos hj]

lemma slice_pad {src : Bytes} {off : Nat} (hlen : name.length ≤ 60)
    (h : ∀ j < 60, src (off + j) = name.getD j 0) :
    src.slice off 60 = name ++ replicate (60 - name.length) 0 := by
  apply ext_getElem
  · simp only [length_slice, length_append, length_replicate]
    omega
  intro j hj hj'
  rw [length_slice] at hj
  rw [getElem_slice, h j hj, getElem_append]
  split
  · next hlt => rw [getD_eq_getElem _ _ hlt]
  · next hge => rw [getElem_replicate, getD_eq_default _ _ (by omega)]

lemma nameAt_encode {child : Nat} (hlen : name.length ≤ 60) :
    nameAt (buf.splice (idx * 64) 64 (encode child name)) idx
      = name ++ replicate (60 - name.length) 0 := by
  apply slice_pad hlen
  intro j hj
  rw [dirEntrySize, splice_inside (by omega) (by omega), encode, if_neg (by omega),
    take_of_length_le hlen]
  congr 1
  omega

lemma nameAt_nameBytes (hlen : name.length ≤ 60) :
    nameAt (buf.splice (idx * 64 + 4) 60 (nameBytes name)) idx
      = name ++ replicate (60 - name.length) 0 := by
  apply slice_pad hlen
  intro j hj
  rw [dirEntrySize, splice_at hj]
  rfl

lemma inodeAt_nameBytes :
    inodeAt (buf.splice (idx * 64 + 4) 60 (nameBytes name)) idx = inodeAt buf idx := by
  unfold inodeAt dirEntrySize
  exact readLE_splice_outside (by omega)

end DirEntry

/-! ## Decoded entries -/

namespace Disk

variable {D D' : Disk} {i i' : Inode} {k j : Nat} {name : Str} {ino : Nat}

/-- The name and the inode number in slot `k`, when the slot holds a decodable
entry. -/
def entry (D : Disk) (i : Inode) (k : Nat) : Option (Str × Nat) :=
  (D.slot i k).bind fun (ino, raw) => (decodeDirName raw).map (·, ino)

lemma entry_eq_some : D.entry i k = some (name, ino) ↔
    i.directSlotGet (k / 32) ≠ 0 ∧ ino ≠ 0 ∧
      DirEntry.inodeAt (D.block (i.directSlotGet (k / 32))) (k % 32) = ino ∧
      decodeDirName (nameAt (D.block (i.directSlotGet (k / 32))) (k % 32))
        = some name := by
  unfold entry slot
  by_cases hz : i.directSlotGet (k / 32) = 0
  · simp [hz]
  by_cases hn : DirEntry.inodeAt (D.block (i.directSlotGet (k / 32))) (k % 32) = 0
  · simp only [hz, hn, if_true, if_false, bind_none]
    constructor
    · exact nofun
    · rintro ⟨-, h0, rfl, -⟩
      exact absurd rfl h0
  · simp only [hz, hn, if_false, bind_some, map_eq_some_iff, Prod.mk.injEq]
    constructor
    · rintro ⟨s, hs, rfl, rfl⟩
      exact ⟨hz, hn, rfl, hs⟩
    · rintro ⟨-, -, rfl, hs⟩
      exact ⟨name, hs, rfl, rfl⟩

lemma entry_congr (hz : i'.directSlotGet (k / 32) = i.directSlotGet (k / 32))
    (hb : i.directSlotGet (k / 32) ≠ 0 → ∀ o, k % 32 * 64 ≤ o → o < k % 32 * 64 + 64 →
      D'.block (i.directSlotGet (k / 32)) o = D.block (i.directSlotGet (k / 32)) o) :
    D'.entry i' k = D.entry i k := by
  unfold entry slot
  rw [hz]
  by_cases h0 : i.directSlotGet (k / 32) = 0
  · simp [h0]
  · obtain ⟨h1, h2⟩ := slot_congr (hb h0)
    simp [h0, h1, h2]

lemma matches_iff (hname : name ≠ []) : D.Matches i name k ↔
    D.entry i k = some (name, DirEntry.inodeAt (D.block (i.directSlotGet (k / 32))) (k % 32)) := by
  rw [entry_eq_some]
  constructor
  · intro h
    have hm := h.isMatch
    rw [isMatch, Bool.and_eq_true, bne_iff_ne, beq_iff_eq, searchName_eq_iff hname] at hm
    exact ⟨h.mapped, hm.1, rfl, hm.2⟩
  · rintro ⟨hz, hn, -, hd⟩
    refine ⟨hz, ?_⟩
    rw [isMatch, Bool.and_eq_true, bne_iff_ne, beq_iff_eq, searchName_eq_iff hname]
    exact ⟨hn, hd⟩

/-! ## The index and the entries -/

def UniqueNames (D : Disk) (i : Inode) : Prop :=
  ∀ j < 192, ∀ k < 192, ∀ name a b,
    D.entry i j = some (name, a) → D.entry i k = some (name, b) → j = k

def HasEntry (D : Disk) (i : Inode) (name : Str) (ino : Nat) : Prop :=
  ∃ k < 192, D.entry i k = some (name, ino)

lemma indexStep_names (e : DirIndexEntry) : (D.indexStep i e k).names =
    match D.entry i k with
    | none => e.names
    | some (name, ino) => update e.names name (some ino) := by
  unfold indexStep entry
  cases hs : D.slot i k with
  | none =>
    simp only [bind_none]
    unfold noteFree
    split <;> rfl
  | some p =>
    obtain ⟨ino, raw⟩ := p
    simp only [bind_some]
    cases hd : decodeDirName raw with
    | none => rfl
    | some name => rfl

lemma indexSteps_names (m : Nat) (name : Str) :
    (∀ ino, ((range m).foldl (D.indexStep i) ⟨fun _ => none, 192⟩).names name = some ino →
      ∃ k < m, D.entry i k = some (name, ino)) ∧
    (((range m).foldl (D.indexStep i) ⟨fun _ => none, 192⟩).names name = none →
      ∀ k < m, ∀ ino, D.entry i k ≠ some (name, ino)) := by
  induction m with
  | zero => exact ⟨fun ino h => (nomatch h), fun _ k hk => absurd hk (Nat.not_lt_zero k)⟩
  | succ m ih =>
    rw [range_succ, foldl_append, foldl_cons, foldl_nil, indexStep_names]
    obtain ⟨hsome, hnone⟩ := ih
    cases he : D.entry i m with
    | none =>
      refine ⟨fun ino h => ?_, fun h k hk ino => ?_⟩
      · obtain ⟨k, hk, hke⟩ := hsome ino h
        exact ⟨k, by omega, hke⟩
      · by_cases hkm : k = m
        · subst hkm
          rw [he]
          exact nofun
        · exact hnone h k (by omega) ino
    | some p =>
      obtain ⟨s, a⟩ := p
      simp only
      by_cases hs : name = s
      · subst hs
        rw [update_self]
        constructor
        · intro ino h
          exact ⟨m, Nat.lt_succ_self m, by rw [he, Option.some.inj h]⟩
        · intro h
          cases h
      · rw [update_of_ne hs]
        refine ⟨fun ino h => ?_, fun h k hk ino => ?_⟩
        · obtain ⟨k, hk, hke⟩ := hsome ino h
          exact ⟨k, by omega, hke⟩
        by_cases hkm : k = m
        · subst hkm
          rw [he]
          rintro ⟨⟩
          exact hs rfl
        · exact hnone h k (by omega) ino

lemma names_some (h : (D.indexOf i).names name = some ino) : D.HasEntry i name ino :=
  (indexSteps_names 192 name).1 ino h

lemma names_eq_none : (D.indexOf i).names name = none ↔ ∀ ino, ¬ D.HasEntry i name ino := by
  constructor
  · rintro h ino ⟨k, hk, he⟩
    exact (indexSteps_names 192 name).2 h k hk ino he
  · intro h
    cases hn : (D.indexOf i).names name with
    | none => rfl
    | some ino => exact absurd (names_some hn) (h ino)

lemma UniqueNames.names_eq_some (hu : D.UniqueNames i) :
    (D.indexOf i).names name = some ino ↔ D.HasEntry i name ino := by
  refine ⟨names_some, fun h => ?_⟩
  cases hn : (D.indexOf i).names name with
  | none => exact absurd h (names_eq_none.mp hn ino)
  | some a =>
    obtain ⟨k, hk, hka⟩ := names_some hn
    obtain ⟨j, hj, hji⟩ := h
    have hjk := hu j hj k hk name ino a hji hka
    rw [hjk, hka] at hji
    exact congrArg some (congrArg Prod.snd (Option.some.inj hji))

lemma names_congr (h : ∀ k < 192, D'.entry i' k = D.entry i k) :
    (D'.indexOf i').names = (D.indexOf i).names := by
  have hfold : ∀ m ≤ 192, ((range m).foldl (D'.indexStep i') ⟨fun _ => none, 192⟩).names
      = ((range m).foldl (D.indexStep i) ⟨fun _ => none, 192⟩).names := by
    intro m hm
    induction m with
    | zero => rfl
    | succ m ih =>
      simp only [range_succ, foldl_append, foldl_cons, foldl_nil]
      rw [indexStep_names, indexStep_names, h m (by omega), ih (by omega)]
  exact hfold 192 (Nat.le_refl _)

lemma UniqueNames.congr (hu : D.UniqueNames i) (h : ∀ k < 192, D'.entry i' k = D.entry i k) :
    D'.UniqueNames i' := by
  intro j hj k hk name a b hja hkb
  rw [h j hj] at hja
  rw [h k hk] at hkb
  exact hu j hj k hk name a b hja hkb

/-! ## Changing one slot -/

lemma UniqueNames.set (hu : D.UniqueNames i) (hk : ∀ j < 192, j ≠ k → D'.entry i' j = D.entry i j)
    (hset : D'.entry i' k = some (name, ino))
    (hfree : ∀ j < 192, j ≠ k → ∀ a, D.entry i j ≠ some (name, a)) : D'.UniqueNames i' := by
  intro a ha b hb s x y hax hby
  by_cases hak : a = k
  · by_cases hbk : b = k
    · rw [hak, hbk]
    · rw [hak, hset] at hax
      rw [hk b hb hbk] at hby
      cases hax
      exact absurd hby (hfree b hb hbk y)
  · rw [hk a ha hak] at hax
    by_cases hbk : b = k
    · rw [hbk, hset] at hby
      cases hby
      exact absurd hax (hfree a ha hak x)
    · rw [hk b hb hbk] at hby
      exact hu a ha b hb s x y hax hby

lemma UniqueNames.erase (hu : D.UniqueNames i)
    (hk : ∀ j < 192, j ≠ k → D'.entry i' j = D.entry i j) (herase : D'.entry i' k = none) :
    D'.UniqueNames i' := by
  have hne : ∀ a < 192, ∀ p, D'.entry i' a = some p → D.entry i a = some p := by
    intro a ha p hap
    by_cases hak : a = k
    · rw [hak, herase] at hap
      cases hap
    · rwa [hk a ha hak] at hap
  intro a ha b hb s x y hax hby
  exact hu a ha b hb s x y (hne a ha _ hax) (hne b hb _ hby)

section Names

variable (hu : D.UniqueNames i) (hk : k < 192) (hother : ∀ j < 192, j ≠ k → D'.entry i' j = D.entry i j)
include hu hk hother

omit hk in
/-- A name that slot `k` has neither before nor after. -/
lemma UniqueNames.names_other {s : Str} (hu' : D'.UniqueNames i')
    (hold : ∀ a, D.entry i k ≠ some (s, a)) (hset : ∀ a, D'.entry i' k ≠ some (s, a)) :
    (D'.indexOf i').names s = (D.indexOf i).names s := by
  apply ext
  intro a
  rw [hu'.names_eq_some, hu.names_eq_some]
  constructor
  · rintro ⟨j, hj, he⟩
    have hjk : j ≠ k := fun hjk => hset a (hjk ▸ he)
    exact ⟨j, hj, by rwa [hother j hj hjk] at he⟩
  · rintro ⟨j, hj, he⟩
    have hjk : j ≠ k := fun hjk => hold a (hjk ▸ he)
    exact ⟨j, hj, by rwa [hother j hj hjk]⟩

lemma UniqueNames.names_gone (hold : D.entry i k = some (name, ino))
    (hset : ∀ a, D'.entry i' k ≠ some (name, a)) : (D'.indexOf i').names name = none := by
  apply names_eq_none.mpr
  rintro a ⟨j, hj, he⟩
  have hjk : j ≠ k := fun hjk => hset a (hjk ▸ he)
  rw [hother j hj hjk] at he
  exact hjk (hu j hj k hk name a ino he hold)

lemma UniqueNames.names_insert (hu' : D'.UniqueNames i') (hold : D.entry i k = none)
    (hset : D'.entry i' k = some (name, ino)) :
    (D'.indexOf i').names = update (D.indexOf i).names name (some ino) := by
  funext s
  by_cases hs : s = name
  · subst hs
    rw [update_self]
    exact hu'.names_eq_some.mpr ⟨k, hk, hset⟩
  · rw [update_of_ne hs]
    refine hu.names_other hother hu' (by simp [hold]) ?_
    simpa [hset] using fun h => absurd h.symm hs

lemma UniqueNames.names_erase (hold : D.entry i k = some (name, ino))
    (herase : D'.entry i' k = none) :
    (D'.indexOf i').names = update (D.indexOf i).names name none := by
  funext s
  by_cases hs : s = name
  · subst hs
    rw [update_self]
    exact hu.names_gone hk hother hold (by simp [herase])
  · rw [update_of_ne hs]
    refine hu.names_other hother (hu.erase hother herase) ?_ (by simp [herase])
    simpa [hold] using fun h => absurd h.symm hs

lemma UniqueNames.names_rename {newName : Str} (hu' : D'.UniqueNames i')
    (hold : D.entry i k = some (name, ino)) (hset : D'.entry i' k = some (newName, ino)) :
    (D'.indexOf i').names = update
      (update (D.indexOf i).names name none) newName (some ino) := by
  funext s
  by_cases hs : s = newName
  · subst hs
    rw [update_self]
    exact hu'.names_eq_some.mpr ⟨k, hk, hset⟩
  have hgone : ∀ a, D'.entry i' k ≠ some (s, a) := by
    simpa [hset] using fun h => absurd h.symm hs
  rw [update_of_ne hs]
  by_cases hs' : s = name
  · subst hs'
    rw [update_self]
    exact hu.names_gone hk hother hold hgone
  · rw [update_of_ne hs']
    refine hu.names_other hother hu' ?_ hgone
    simpa [hold] using fun h => absurd h.symm hs'

end Names

end Disk

/-! ## The entries of a directory under the operations -/

namespace Disk

variable {D D' : Disk}

def entryOf (D : Disk) (n k : Nat) : Option (Str × Nat) := D.entry (D.inode n) k

variable {n : Nat}

lemma entryOf_write {k z : Nat} (hblock : ∀ y, y ≠ z → D'.block y = D.block y)
    (hinode : (D'.inode n).directSlotGet (k / 32) = (D.inode n).directSlotGet (k / 32))
    (hz : (D.inode n).directSlotGet (k / 32) = z → z = 0) : D'.entryOf n k = D.entryOf n k := by
  apply entry_congr hinode
  intro h0 o _ _
  rw [hblock]
  intro he
  exact h0 (he.trans (hz he))

lemma Owned.directSlotGet_ne (ho : D.Owned) {m b c : Nat} (hn : D.Alloc n) (hm : D.Alloc m)
    (hne : n ≠ m ∨ b ≠ c) (he : (D.inode n).directSlotGet b = (D.inode m).directSlotGet c) :
    (D.inode m).directSlotGet c = 0 := by
  by_contra h0
  have hinj := ho.inj hn hm (.direct b) (.direct c) (by rw [refOf, he]; exact h0) he
  rcases hne with hnm | hbc
  · exact hnm hinj.1
  · exact hbc (Pos.direct.inj hinj.2)

lemma Owned.directSlotGet_free (ho : D.Owned) {b z : Nat} (hn : D.Alloc n)
    (hz : D.zmap z = false) (he : (D.inode n).directSlotGet b = z) : z = 0 := by
  by_contra h0
  have hused := ho.used hn (.direct b) (by rw [refOf, he]; exact h0)
  rw [refOf, he, hz] at hused
  cases hused

end Disk

variable {V : Volume} {p k z child : Nat} {grown : Bool} {name : Str}

lemma Volume.insertEntry_directSlotGet (h : Layout V.mount)
    (hslot : V.FreeSlot p k z grown) (b : Nat) :
    ((V.insertEntry p k z grown name child).inode p).directSlotGet b
      = if b = k / 32 then z else (V.inode p).directSlotGet b := by
  rw [insertEntry_self, Inode.withSize_directSlotGet]
  cases grown with
  | false =>
    rw [slotInode, if_neg Bool.false_ne_true]
    split
    · next hb => rw [hb]; exact (hslot.kept rfl).1
    · rfl
  | true =>
    rw [slotInode, if_pos rfl]
    exact Inode.directSlotGet_set (by have := hslot.lt; omega)
      (Disk.Owned.zone_lt h (hslot.new rfl).2.isData) b

lemma Volume.entryOf_insertEntry (h : Layout V.mount) (ho : V.Owned)
    (hp : V.Alloc p) (hslot : V.FreeSlot p k z grown)
    (hname : IsName name) (hc : child ≠ 0) (hc' : child < 2 ^ 32) (j : Nat) :
    (V.insertEntry p k z grown name child).entryOf p j =
      if j = k then some (name, child)
      else if j / 32 = k / 32 ∧ (grown = true ∨ (k / 32 = 0 ∧ (V.inode p).size = 0)) then none
      else V.entryOf p j := by
  have hz : z ≠ 0 := by
    cases grown with
    | false => exact (hslot.kept rfl).2.1
    | true => exact Disk.Owned.zone_ne h (hslot.new rfl).2.isData
  have hrec : ∀ b, ((V.insertEntry p k z grown name child).inode p).directSlotGet b
      = if b = k / 32 then z else (V.inode p).directSlotGet b :=
    V.insertEntry_directSlotGet h hslot
  have hblock : (V.insertEntry p k z grown name child).block z
      = (V.slotBuf p k z grown).splice (k % 32 * 64) 64 (DirEntry.encode child name) :=
    update_self ..
  by_cases hjk : j = k
  · subst hjk
    rw [if_pos rfl]
    apply entry_eq_some.mpr
    rw [hrec, if_pos rfl, hblock]
    refine ⟨hz, hc, inodeAt_encode hc', ?_⟩
    rw [nameAt_encode hname.short]
    exact decodeDirName_pad hname _
  rw [if_neg hjk]
  by_cases hb : j / 32 = k / 32
  · -- another slot of the same block
    have hout : ∀ o, j % 32 * 64 ≤ o → o < j % 32 * 64 + 64 →
        (V.insertEntry p k z grown name child).block z o = V.slotBuf p k z grown o := by
      intro o h1 h2
      rw [hblock]
      exact splice_outside (by omega)
    by_cases hclear : grown = true ∨ (k / 32 = 0 ∧ (V.inode p).size = 0)
    · rw [if_pos ⟨hb, hclear⟩]
      have hbuf : V.slotBuf p k z grown = Bytes.zero := if_pos hclear
      have hinode : DirEntry.inodeAt ((V.insertEntry p k z grown name child).block z) (j % 32)
          = 0 := by
        rw [(slot_congr (b := Bytes.zero) (by rw [hbuf] at hout; exact hout)).1]
        exact readLE_zero _ _
      simp only [entryOf, entry, slot, hrec, hb, if_true, hz, if_false, hinode, bind_none]
    · rw [if_neg fun hh => hclear hh.2]
      have hgrown : grown = false := by
        cases grown with
        | false => rfl
        | true => exact absurd (.inl rfl) hclear
      have hzone : (V.inode p).directSlotGet (j / 32) = z := by
        rw [hb]
        exact (hslot.kept hgrown).1
      apply entry_congr
      · rw [hrec, if_pos hb, hzone]
      · intro _ o h1 h2
        rw [hzone, hout o h1 h2, slotBuf, if_neg hclear]
  · rw [if_neg fun hh => hb hh.1]
    apply entryOf_write (z := z)
    · intro y hy
      exact update_of_ne hy _ _
    · rw [hrec, if_neg hb]
    intro he
    cases grown with
    | false =>
      rw [← (hslot.kept rfl).1] at he ⊢
      exact ho.directSlotGet_ne hp hp (.inr hb) he
    | true => exact ho.directSlotGet_free hp (hslot.new rfl).2.free he

lemma Disk.FreeSlot.entryOf_none (hslot : V.FreeSlot p k z grown)
    (hsize : (V.inode p).size ≠ 0) : V.entryOf p k = none := by
  cases grown with
  | true => simp [entryOf, entry, slot, (hslot.new rfl).1]
  | false =>
    obtain ⟨hz, hz0, hfree⟩ := hslot.kept rfl
    rcases hfree with ⟨-, hs⟩ | hfree
    · exact absurd hs hsize
    · simp [entryOf, entry, slot, hz, hz0, hfree]

lemma Volume.entryOf_insertEntry_of_ne (h : Layout V.mount) (ho : V.Owned)
    (hp : V.Alloc p) (hslot : V.FreeSlot p k z grown)
    (hname : IsName name) (hc : child ≠ 0) (hc' : child < 2 ^ 32) (hsize : (V.inode p).size ≠ 0)
    {j : Nat} (hjk : j ≠ k) :
    (V.insertEntry p k z grown name child).entryOf p j = V.entryOf p j := by
  rw [V.entryOf_insertEntry h ho hp hslot hname hc hc', if_neg hjk]
  split
  · next hh =>
    rcases hh.2 with hg | hs
    · simp [entryOf, entry, slot, hh.1, (hslot.new hg).1]
    · exact absurd hs.2 hsize
  · rfl

lemma Volume.entryOf_insertEntry_other (ho : V.Owned)
    {n : Nat} (hp : V.Alloc p) (hn : V.Alloc n) (hnp : n ≠ p)
    (hslot : V.FreeSlot p k z grown) (j : Nat) :
    (V.insertEntry p k z grown name child).entryOf n j = V.entryOf n j := by
  apply entryOf_write (z := z)
  · intro y hy
    exact update_of_ne hy _ _
  · have hrec : (V.insertEntry p k z grown name child).inode n = V.inode n := update_of_ne hnp _ _
    rw [hrec]
  intro he
  cases grown with
  | false =>
    rw [← (hslot.kept rfl).1] at he ⊢
    exact ho.directSlotGet_ne hn hp (.inl hnp) he
  | true => exact ho.directSlotGet_free hn (hslot.new rfl).2.free he

lemma Volume.entryOf_clear (ho : V.Owned) {V' : Volume} {n j : Nat} (hp : V.Alloc p)
    (hn : V.Alloc n)
    (hinode : (V'.inode n).directSlotGet (j / 32) = (V.inode n).directSlotGet (j / 32))
    (hblock : V'.block = update V.block ((V.inode p).directSlotGet (k / 32))
      ((V.block ((V.inode p).directSlotGet (k / 32))).splice (k % 32 * 64) 64 Bytes.zero)) :
    V'.entryOf n j = if n = p ∧ j = k then none else V.entryOf n j := by
  by_cases hsame : n = p ∧ j / 32 = k / 32
  · obtain ⟨rfl, hb⟩ := hsame
    have hself : V'.block ((V.inode n).directSlotGet (j / 32))
        = (V.block ((V.inode n).directSlotGet (j / 32))).splice (k % 32 * 64) 64 Bytes.zero := by
      rw [hblock, hb, update_self]
    by_cases hjk : j = k
    · rw [if_pos ⟨rfl, hjk⟩]
      subst hjk
      have hzero : DirEntry.inodeAt (V'.block ((V.inode n).directSlotGet (j / 32))) (j % 32)
          = 0 := by
        rw [hself, DirEntry.inodeAt, dirEntrySize, readLE_splice_inside (by omega) (by omega)]
        exact readLE_zero _ _
      by_cases h0 : (V.inode n).directSlotGet (j / 32) = 0
      · simp [entryOf, entry, slot, hinode, h0]
      · simp [entryOf, entry, slot, hinode, h0, hzero]
    · rw [if_neg fun hh => hjk hh.2]
      apply entry_congr hinode
      intro _ o h1 h2
      rw [hself]
      exact splice_outside (by omega)
  · rw [if_neg fun hh => hsame ⟨hh.1, by rw [hh.2]⟩]
    apply entryOf_write (z := (V.inode p).directSlotGet (k / 32))
    · intro y hy
      rw [hblock, update_of_ne hy]
    · exact hinode
    · intro he
      apply ho.directSlotGet_ne hn hp _ he
      by_cases hnp : n = p
      · exact .inr fun hb => hsame ⟨hnp, hb⟩
      · exact .inl hnp

end Twilight.Fs

/-
What `rename_entry` does to the names of a volume.

A successful call moves one name: the map of the source directory loses it, the map
of the target directory gets the new one, and an inode that had the new name is
freed.  A call that fails leaves the disk as it was, with one exception.  The entry
that has the new name is removed before the new entry is added; if that entry then
needs a zone, which happens when a block before the one of the removed entry has
none, and no zone is free, the call fails and the removed entry is lost.
-/
import Twilight.Fs.Fresh

namespace Twilight.Fs

open TwilightFs Prog Disk Volume Inode Bytes DirEntry
open Function (update update_self update_of_ne update_apply update_idem update_eq_self)

/-- The names of directory `n`. -/
def Disk.names (D : Disk) (n : Nat) : Str → Option Nat := (D.indexOf (D.inode n)).names

/-- The name `on` of `p` becomes the name `nn` of `q`, in place of what had that name. -/
structure Volume.MovesName (V V' : Volume) (p q : Nat) (on nn : Str) (ino : Nat) : Prop where
  source : V.names p on = some ino
  names : ∀ n, V.LiveDir n → V'.names n =
    let rest := if n = p then update (V.names n) on none else V.names n
    if n = q then update rest nn (some ino) else rest
  imap : ∀ m, V'.imap m = if V.names q nn = some m ∧ m ≠ ino then false else V.imap m

def Volume.RenameEnd (V : Volume) (oldPath newPath : Str) (V' : Volume) : Except FsError Unit → Prop
  | .ok _ => (oldPath = newPath ∧ V'.toDisk = V.toDisk) ∨ ∃ op on np nn p q ino,
      splitParentAndName oldPath = .ok (op, on) ∧ splitParentAndName newPath = .ok (np, nn) ∧
      (V.resolve op).1 = .ok p ∧ ((V.resolve op).2.resolve np).1 = .ok q ∧
      V.MovesName V' p q on nn ino
  | .error _ => V'.toDisk = V.toDisk

def RenameSpec (oldPath newPath : Str) (s : TwilightFs) : Prop :=
  s.volume.RenameEnd oldPath newPath (final (renameEntry oldPath newPath s)).volume
    (outcome (renameEntry oldPath newPath s))

/-- No directory has two names for one inode, apart from its dot entries. -/
def Disk.SingleLinks (D : Disk) : Prop :=
  ∀ p, D.LiveDir p → ∀ a b ino, a ≠ dotName → a ≠ dotDotName → b ≠ dotName → b ≠ dotDotName →
    D.names p a = some ino → D.names p b = some ino → a = b

/-- The entry in slot `j` of `q` has to go before the new one finds no zone: no zone is free or comes
free, and the first slot without an entry is in a block without a zone. -/
structure Disk.Displaced (D : Disk) (q j : Nat) : Prop where
  full : D.Full
  bare : ∀ b, (D.inode (D.childAt q j)).directSlotGet b = 0
  hole : ∃ i < j, (D.inode q).directSlotGet (i / 32) = 0 ∧ ∀ i' < i, D.SlotTaken q i'

/-- The move to another directory that fails after it has removed the file with the new name. -/
def Volume.RenameLoses (V : Volume) (oldPath newPath : Str) : Prop :=
  ∃ W op on np nn p q k j, V.RenamePlan oldPath newPath W op on np nn p q k ∧ p ≠ q ∧
    V.FirstMatch (V.inode q) nn j ∧ V.childAt q j ≠ V.childAt p k ∧ V.IsInode (V.childAt q j) ∧
    (V.inode (V.childAt q j)).isDir = false ∧ V.Displaced q j

variable {V W X : Volume} {p q k j t n ino : Nat} {on nn path : Str}

/-! ## Names and entries -/

lemma Disk.names_eq {D : Disk} {f : Str → Option Nat}
    (h : ∀ s a, D.HasEntry (D.inode n) s a ↔ f s = some a) : D.names n = f := by
  funext s
  cases hs : D.names n s with
  | some a => exact ((h s a).mp (names_some hs)).symm
  | none =>
    cases hf : f s with
    | none => rfl
    | some a => exact absurd ((h s a).mpr hf) (names_eq_none.mp hs a)

variable {s name : Str} {a : Nat}

lemma Volume.Tidy.names_eq_some (ht : V.Tidy) (hn : V.LiveDir n) :
    V.names n s = some a ↔ V.HasEntry (V.inode n) s a := (ht.unique n hn).names_eq_some

lemma Cleared.hasEntry (hX : Cleared W q ino nn path X) (ht : W.Tidy) (hq : W.LiveDir q)
    (hnn : nn ≠ []) (hn : W.LiveDir n) : X.HasEntry (X.inode n) s a ↔
      W.HasEntry (W.inode n) s a ∧ ¬ (n = q ∧ s = nn) := by
  cases hX with
  | free hnone =>
    refine ⟨fun he => ⟨he, ?_⟩, And.left⟩
    rintro ⟨rfl, rfl⟩
    obtain ⟨i, hi, he⟩ := he
    have hX : Cleared W n ino s path W := .free hnone
    exact hX.absent ht hq hnn hi he
  | @replaced i hi hne hc hkind =>
    have hold := hi.entryOf hnn
    have hentry : ∀ i', (W.removed q i nn path).entryOf n i'
        = if n = q ∧ i' = i then none else W.entryOf n i' :=
      fun i' => removed_entryOf ht.owned hq.alloc hn.alloc
    constructor
    · rintro ⟨i', hi', he⟩
      have he' : (W.removed q i nn path).entryOf n i' = some (s, a) := he
      rw [hentry] at he'
      split at he'
      · cases he'
      · next hout =>
        refine ⟨⟨i', hi', he'⟩, ?_⟩
        rintro ⟨rfl, rfl⟩
        exact hout ⟨rfl, ht.unique n hn i' hi' i hi.lt s a _ he' hold⟩
    · rintro ⟨⟨i', hi', he⟩, hne'⟩
      refine ⟨i', hi', (hentry i').trans ?_⟩
      rw [if_neg]
      · exact he
      · rintro ⟨rfl, rfl⟩
        have he' : W.entryOf n i' = some (s, a) := he
        rw [hold] at he'
        cases he'
        exact hne' ⟨rfl, rfl⟩

lemma Volume.hasEntry_moved {V' : Volume} (hu : X.UniqueNames (X.inode p)) (hk : k < 192)
    (hold : X.entryOf p k = some (on, ino)) (ht : t < 192)
    (hfree : X.entryOf q t = none ∨ (q = p ∧ t = k))
    (hentry : ∀ i, V'.entryOf n i = if n = q ∧ i = t then some (nn, ino)
      else if n = p ∧ i = k then none else X.entryOf n i) :
    V'.HasEntry (V'.inode n) s a ↔
      (n = q ∧ s = nn ∧ a = ino) ∨ (X.HasEntry (X.inode n) s a ∧ ¬ (n = p ∧ s = on)) := by
  constructor
  · rintro ⟨i, hi, he⟩
    have he' : V'.entryOf n i = some (s, a) := he
    rw [hentry] at he'
    split at he'
    · next hat =>
      cases he'
      exact .inl ⟨hat.1, rfl, rfl⟩
    split at he'
    · cases he'
    · next hout =>
      refine .inr ⟨⟨i, hi, he'⟩, ?_⟩
      rintro ⟨rfl, rfl⟩
      exact hout ⟨rfl, hu i hi k hk s a ino he' hold⟩
  · rintro (⟨rfl, rfl, rfl⟩ | ⟨⟨i, hi, he⟩, hne⟩)
    · exact ⟨t, ht, (hentry t).trans (if_pos ⟨rfl, rfl⟩)⟩
    have he' : X.entryOf n i = some (s, a) := he
    have hpk : ¬ (n = p ∧ i = k) := by
      rintro ⟨rfl, rfl⟩
      rw [hold] at he'
      cases he'
      exact hne ⟨rfl, rfl⟩
    refine ⟨i, hi, (hentry i).trans ?_⟩
    rw [if_neg, if_neg hpk]
    · exact he'
    · rintro ⟨rfl, rfl⟩
      rcases hfree with hnone | hsame
      · rw [hnone] at he'
        cases he'
      · exact hpk hsame

lemma Volume.names_moved {V' : Volume} {f : Str → Option Nat}
    (hf : ∀ s a, f s = some a ↔ V.HasEntry (V.inode n) s a)
    (hentry : ∀ s a, V'.HasEntry (V'.inode n) s a ↔ (n = q ∧ s = nn ∧ a = ino) ∨
      ((V.HasEntry (V.inode n) s a ∧ ¬ (n = q ∧ s = nn)) ∧ ¬ (n = p ∧ s = on))) :
    V'.names n =
      let rest := if n = p then update f on none else f
      if n = q then update rest nn (some ino) else rest := by
  apply names_eq
  intro s a
  rw [hentry, ← hf]
  by_cases hq : n = q <;> by_cases hp : n = p <;> grind [update_apply]

/-! ## The ends of a rename -/

lemma Volume.removed_slotTaken (ho : V.Owned) (hq : V.Alloc q)
    (hsize : 64 < (V.inode q).size) (hj : (V.inode q).directSlotGet (j / 32) ≠ 0) :
    (V.removed q j name path).SlotTaken q t ↔ t ≠ j ∧ V.SlotTaken q t := by
  have hzone : ((V.removed q j name path).inode q).directSlotGet (t / 32)
      = (V.inode q).directSlotGet (t / 32) := V.removed_directSlotGet ..
  have hself : (V.removed q j name path).block ((V.inode q).directSlotGet (j / 32))
      = (V.block ((V.inode q).directSlotGet (j / 32))).splice (j % 32 * 64) 64 zero :=
    update_self ..
  have hnew : ((V.removed q j name path).inode q).size ≠ 0 := by
    rw [removed_inode, if_pos rfl]
    exact dropEntry_size_ne hsize
  have hold : (V.inode q).size ≠ 0 := by
    intro h0
    rw [h0] at hsize
    cases hsize
  have hchild : t ≠ j → (V.inode q).directSlotGet (t / 32) ≠ 0 →
      (V.removed q j name path).childAt q t = V.childAt q t := by
    intro htj hmapped
    rw [childAt, childAt, hzone]
    by_cases hb : t / 32 = j / 32
    · rw [hb, hself, inodeAt, inodeAt, dirEntrySize]
      exact readLE_splice_outside (by omega)
    · have hne : (V.inode q).directSlotGet (t / 32) ≠ (V.inode q).directSlotGet (j / 32) :=
        fun he => hj (ho.directSlotGet_ne hq hq (.inr hb) he)
      have hblock : (V.removed q j name path).block ((V.inode q).directSlotGet (t / 32))
          = V.block ((V.inode q).directSlotGet (t / 32)) := update_of_ne hne _ _
      rw [hblock]
  constructor
  · intro hT
    have htj : t ≠ j := by
      rintro rfl
      apply hT.taken
      rw [childAt, hzone, hself, inodeAt, dirEntrySize, readLE_splice_inside (by omega) (by omega)]
      exact readLE_zero _ _
    have hmapped : (V.inode q).directSlotGet (t / 32) ≠ 0 := hzone ▸ hT.mapped
    exact ⟨htj, hmapped, fun h => hold h.2, hchild htj hmapped ▸ hT.taken⟩
  · rintro ⟨htj, hT⟩
    exact ⟨by rw [hzone]; exact hT.mapped, fun h => hnew h.2, by
      rw [hchild htj hT.mapped]
      exact hT.taken⟩

lemma Volume.removed_full (hr : V.InRange) (hc : V.IsInode (V.childAt q j)) :
    (V.removed q j name path).Full ↔
      V.Full ∧ ∀ b, (V.inode (V.childAt q j)).directSlotGet b = 0 := by
  have hzmap : ∀ z, (V.removed q j name path).zmap z
      = if z ∈ (V.inode (V.childAt q j)).directZones then false else V.zmap z := fun _ => rfl
  constructor
  · intro hfull
    have hbare : ∀ b, (V.inode (V.childAt q j)).directSlotGet b = 0 := by
      intro b
      by_contra hb
      have hused := hfull _ (hr _ hc b hb)
      rw [hzmap, if_pos (mem_directZones.mpr ⟨hb, b, rfl⟩)] at hused
      cases hused
    refine ⟨fun z hz => ?_, hbare⟩
    have hused := hfull z hz
    rw [hzmap, if_neg] at hused
    · exact hused
    · intro hmem
      obtain ⟨h0, b, hb⟩ := mem_directZones.mp hmem
      exact h0 (hb.symm.trans (hbare b))
  · rintro ⟨hfull, hbare⟩ z hz
    rw [hzmap, if_neg]
    · exact hfull z hz
    · intro hmem
      obtain ⟨h0, b, hb⟩ := mem_directZones.mp hmem
      exact h0 (hb.symm.trans (hbare b))

lemma Volume.removed_startSlot : (V.removed q j name path).startSlot q = 0 := by
  have hmap : (V.removed q j name path).dirs.map q
      = (V.dirs.map q).map fun e => ⟨update e.names name none, 0⟩ :=
    (DirIndexCache.removeName_map ..).trans (if_pos rfl)
  rw [startSlot, hmap]
  cases V.dirs.map q with
  | none => rfl
  | some e => rfl

lemma Volume.removed_noRoom (ho : V.Owned) (hq : V.Alloc q)
    (hsize : 64 < (V.inode q).size) (hk : V.FirstMatch (V.inode q) name j)
    (hc : V.IsInode (V.childAt q j)) : (V.removed q j name path).NoRoom q ↔ V.Displaced q j := by
  have htaken : ∀ i, (V.removed q j name path).SlotTaken q i ↔ i ≠ j ∧ V.SlotTaken q i :=
    fun i => removed_slotTaken ho hq hsize hk.here.mapped
  have hstart : (V.removed q j name path).startSlot q % 192 = 0 := by rw [removed_startSlot]
  have hfreed : ¬ (V.removed q j name path).SlotTaken q j := fun h => ((htaken j).mp h).1 rfl
  have hfull : (V.removed q j name path).Full ↔
      V.Full ∧ ∀ b, (V.inode (V.childAt q j)).directSlotGet b = 0 :=
    removed_full ho.inRange hc
  constructor
  · intro hno
    obtain ⟨i, hi⟩ := exists_nextSlot (V := V.removed q j name path) (p := q)
      fun hall => hfreed (hall j hk.lt)
    obtain ⟨hz, hf⟩ := hno i hi
    rw [V.removed_directSlotGet] at hz
    obtain ⟨hV, hbare⟩ := hfull.mp hf
    have hij : i < j := by
      refine Nat.lt_of_le_of_ne (hi.le hstart hk.lt hfreed) ?_
      rintro rfl
      exact hk.here.mapped hz
    refine ⟨hV, hbare, i, hij, hz, fun i' hi' => ?_⟩
    by_contra hnot
    have hle := hi.le hstart (j := i') (by have := hk.lt; omega) fun h => hnot ((htaken i').mp h).2
    omega
  · rintro ⟨hV, hbare, i, hij, hz, hbefore⟩ i' hi'
    refine ⟨?_, hfull.mpr ⟨hV, hbare⟩⟩
    have hle : i' ≤ i := hi'.le hstart (by have := hk.lt; omega) fun h =>
      ((htaken i).mp h).2.mapped hz
    obtain rfl : i' = i := by
      refine Nat.le_antisymm hle (Nat.not_lt.mp fun hlt => hi'.free ?_)
      exact (htaken i').mpr ⟨by omega, hbefore i' hlt⟩
    rw [V.removed_directSlotGet]
    exact hz

section Plan

variable {oldPath newPath op np : Str}

lemma Volume.RenamePlan.toDisk (hplan : V.RenamePlan oldPath newPath W op on np nn p q k) :
    W.toDisk = V.toDisk := hplan.looked.disk

lemma spec_renameEntry_of_plan (ht : V.Tidy) (hne : oldPath ≠ newPath)
    (hplan : V.RenamePlan oldPath newPath W op on np nn p q k) {Q : Post FsError Unit}
    (hQ : Spec (do
      let go ← replaceTarget newPath nn p q (W.childAt p k)
      if go then
        moveEntry op np on nn p q ((W.inode p).directSlotGet (k / 32)) (k % 32 * dirEntrySize)
          (W.childAt p k)
      else pure ()) Q W) :
    Spec (renameEntry oldPath newPath) Q V := by
  have hl := hplan.looked
  have htW := ht.looked hl
  have hrW := htW.owned.inRange
  have hl1 := Volume.Looked.resolve V op
  rw [renameEntry, if_neg hne, hplan.old, hplan.new]
  refine Wp.bind (spec_liftExcept ?_)
  refine Wp.bind (spec_liftExcept ?_)
  simp only
  have hshort : ¬ (60 < on.length ∨ 60 < nn.length) := by
    have := hplan.shortOld
    have := hplan.shortNew
    omega
  rw [if_neg hshort]
  refine Wp.bind (spec_resolvePath ht.layout ht.owned.inRange op ?_)
  rw [hplan.source]
  refine Wp.bind (spec_resolvePath (by rw [hl1.disk]; exact ht.layout)
    (by rw [hl1.disk]; exact ht.owned.inRange) np ?_)
  rw [hplan.target]
  simp only
  refine Wp.bind (Wp.mapErr (spec_readInode htW.layout hplan.sourceDir.1 ?_))
  simp only [Except.mapError]
  rw [if_neg (by rw [hplan.sourceDir.2]; decide)]
  refine Wp.bind (Wp.mapErr (spec_readInode htW.layout hplan.targetDir.1 ?_))
  simp only [Except.mapError]
  rw [if_neg (by rw [hplan.targetDir.2]; decide)]
  refine Wp.bind (spec_findDirEntrySlot htW.layout hplan.sourceDir.1
    (hrW p hplan.sourceDir.1) (fun k' hk' => ?_) fun hnone =>
      absurd hplan.slot.here (hnone k hplan.slot.lt))
  obtain rfl := hk'.unique hplan.slot
  simp only
  refine Wp.bind (Wp.mapErr (spec_readInode htW.layout hplan.child ?_))
  simp only [Except.mapError]
  rw [if_neg fun h => h.2 (hplan.kind h.1)]
  exact hQ

lemma spec_replaceTarget_removes (ht : W.Tidy)
    (hsplit : splitParentAndName newPath = .ok (np, nn)) (hagain : W.resolve np = (.ok q, W))
    (hq : W.IsInode q) (hj : W.FirstMatch (W.inode q) nn j) (hne : W.childAt q j ≠ ino)
    (hc : W.IsInode (W.childAt q j)) (hkind : (W.inode (W.childAt q j)).isDir = false)
    {Q : Post FsError Bool} (hQ : Q (.ok true) (W.removed q j nn (joinParentAndName np nn))) :
    Spec (replaceTarget newPath nn p q ino) Q W := by
  obtain ⟨hlast, -, -, hparent⟩ := splitParentAndName_ok hsplit
  rw [hparent, ← resolveParent_eq] at hagain
  have hr := ht.owned.inRange
  rw [replaceTarget]
  refine Wp.bind (spec_findDirEntrySlot ht.layout hq (hr q hq) (fun j' hj' => ?_)
    fun hnone => absurd hj.here (hnone j hj.lt))
  obtain rfl := hj'.unique hj
  simp only
  rw [if_pos hne]
  refine Wp.bind (Wp.mapErr (spec_readInode ht.layout hc ?_))
  simp only [Except.mapError]
  rw [if_neg (by rw [hkind]; decide)]
  refine Wp.bind (spec_removeEntry ht.layout hr (fun h => ?_) (fun e _ he => ?_)
    fun name p' W' hname hres => ?_)
  · rw [hlast] at h
    cases h
  · rw [hagain] at he
    cases he
  rw [hagain] at hres
  cases hres
  rw [hlast] at hname
  cases hname
  refine ⟨fun h => absurd hq h, fun _ h => absurd hj.here (h _ hj.lt), fun k hk hmatch h => ?_,
    fun k hk hmatch h => ?_⟩
  · rw [hmatch.unique hj] at h
    exact absurd hc h
  · rw [hmatch.unique hj, ← hparent]
    exact Wp.pure hQ

variable (ht : V.Tidy) (hcan : V.CanRename oldPath newPath)
include ht hcan

lemma Volume.RenameLoses.spec (hloses : V.RenameLoses oldPath newPath) :
    Spec (renameEntry oldPath newPath)
      (fun r V' => (∃ e, r = .error e) ∧ V'.imap ≠ V.imap) V := by
  obtain ⟨W, op, on, np, nn, p, q, k, j, hplan, hpq, hj, hne, hc, hkind, hdisp⟩ := hloses
  have hw := hplan.ready ht hcan
  rw [← hplan.toDisk] at hj hne hc hkind hdisp
  have hagain : W.resolve np = (.ok q, W) :=
    resolve_again ((Volume.Looked.resolve V op).paths ht.paths) hplan.target
  have hdiff : oldPath ≠ newPath := by
    rintro rfl
    cases hplan.old.symm.trans hplan.new
    have hsource : V.resolve op = (.ok p, (V.resolve op).2) := Prod.ext hplan.source rfl
    have htarget := hplan.target
    rw [resolve_again ht.paths hsource] at htarget
    cases htarget
    exact hpq rfl
  refine spec_renameEntry_of_plan ht hdiff hplan (Wp.bind
    (spec_replaceTarget_removes hw.tidy hplan.new hagain hplan.targetDir.1 hj hne hc hkind ?_))
  simp only [if_true]
  let X := W.removed q j nn (joinParentAndName np nn)
  have hroom : X.NoRoom q := (removed_noRoom hw.tidy.owned hw.target.alloc hw.size hj hc).mpr hdisp
  have hz : (X.inode p).directSlotGet (k / 32) = (W.inode p).directSlotGet (k / 32) :=
    W.removed_directSlotGet ..
  rw [← hz]
  have hr : X.InRange := hw.tidy.owned.inRange.removed q j nn (joinParentAndName np nn)
  refine spec_moveEntry_other (V := X) hw.tidy.layout hr
    hplan.sourceDir.1 hplan.targetDir.1 hpq ?_ (fun i y grown hslot hnext => ?_) fun e _ => ?_
  · rw [hz]
    exact hplan.slot.here.mapped
  · exact absurd hslot (hroom.not_freeSlot hnext)
  · refine ⟨⟨_, rfl⟩, fun himap => ?_⟩
    have hfreed : X.imap (W.childAt q j) = false := update_self ..
    have hused := (hw.alloc j hj).2
    rw [himap, ← hplan.toDisk, hused] at hfreed
    cases hfreed

omit ht hcan in
lemma Volume.RenameReady.movesName {V' : Volume} (hw : W.RenameReady p q k on nn)
    (hX : Cleared W q (W.childAt p k) nn path X) (hk : k < 192) (hpX : X.LiveDir p) (ht : t < 192)
    (hfree : X.entryOf q t = none ∨ (q = p ∧ t = k))
    (hentry : ∀ n, W.LiveDir n → ∀ i, V'.entryOf n i =
      if n = q ∧ i = t then some (nn, W.childAt p k)
      else if n = p ∧ i = k then none else X.entryOf n i)
    (himap : V'.imap = X.imap) : W.MovesName V' p q on nn (W.childAt p k) := by
  have hname := hw.name.ne_nil
  have htX := hX.tidy hw.tidy hw.target hname hw.alloc
  refine ⟨(hw.tidy.names_eq_some hw.source).mpr ⟨k, hk, hw.entry⟩, fun n hn => ?_, fun m => ?_⟩
  · refine names_moved (fun s a => hw.tidy.names_eq_some hn) fun s a => ?_
    rw [hasEntry_moved (htX.unique p hpX) hk
      (hX.entryOf hw.tidy hw.target hw.source hw.entry) ht hfree (hentry n hn),
      hX.hasEntry hw.tidy hw.target hname hn]
  rw [himap]
  cases hX with
  | free hnone =>
    have hX : Cleared W q (W.childAt p k) nn path W := .free hnone
    have hno : W.names q nn = none := names_eq_none.mpr fun a ⟨i, hi, he⟩ =>
      hX.absent hw.tidy hw.target hname hi he
    rw [hno, if_neg fun h => nomatch h.1]
  | @replaced i hi hne hc hkind =>
    have hsome : W.names q nn = some (W.childAt q i) :=
      (hw.tidy.names_eq_some hw.target).mpr ⟨i, hi.lt, hi.entryOf hname⟩
    rw [hsome]
    have hset : (W.removed q i nn path).imap m
        = if m = W.childAt q i then false else W.imap m := update_apply ..
    rw [hset]
    by_cases hm : m = W.childAt q i
    · rw [if_pos hm, if_pos ⟨congrArg some hm.symm, fun h => hne (hm.symm.trans h)⟩]
    · rw [if_neg hm, if_neg fun h => hm (Option.some.inj h.1).symm]

lemma Renamed.moves (hlinks : V.SingleLinks) (hsafe : ¬ V.RenameLoses oldPath newPath)
    {r : Except FsError Unit} {V' : Volume} (hr : Renamed V oldPath newPath r V') :
    V.RenameEnd oldPath newPath V' r := by
  -- `MovesName` looks at the disk only
  have hdisk : ∀ {W : Volume} {p q on nn ino}, W.toDisk = V.toDisk →
      W.MovesName V' p q on nn ino → V.MovesName V' p q on nn ino := by
    rintro W p q on nn ino hd ⟨h1, h2, h3⟩
    rw [hd] at h1 h2 h3
    exact ⟨h1, h2, h3⟩
  cases hr with
  | failed hl => exact hl.disk
  | trivial heq => exact .inl ⟨heq, rfl⟩
  | @stuck e W X op on np nn p q k hplan hX hpq hroom =>
    cases hX with
    | free hnone => exact hplan.toDisk
    | @replaced j hj hne hc hkind =>
      have hw := hplan.ready ht hcan
      refine absurd ?_ hsafe
      have hdisp := (removed_noRoom hw.tidy.owned hw.target.alloc hw.size hj hc).mp hroom
      have hd := hplan.toDisk
      refine ⟨W, op, on, np, nn, p, q, k, j, hplan, hpq, ?_⟩
      rw [← hd]
      exact ⟨hj, hne, hc, hkind, hdisp⟩
  | @same W op on np nn p k j hplan hj heq =>
    have hw := hplan.ready ht hcan
    obtain ⟨-, hdot, hdotDot, -⟩ := splitParentAndName_ok hplan.old
    obtain ⟨-, hdot', hdotDot', -⟩ := splitParentAndName_ok hplan.new
    have hold : V'.names p on = some (V'.childAt p k) :=
      (hw.tidy.names_eq_some hw.source).mpr ⟨k, hplan.slot.lt, hw.entry⟩
    have hnew : V'.names p nn = some (V'.childAt p k) := by
      rw [← heq]
      exact (hw.tidy.names_eq_some hw.source).mpr ⟨j, hj.lt, hj.entryOf hw.name.ne_nil⟩
    have hl := hw.source
    rw [hplan.toDisk] at hl
    have heqn : on = nn := by
      refine hlinks p hl on nn (V'.childAt p k) hdot hdotDot hdot' hdotDot' ?_ ?_
      · rw [← hplan.toDisk]
        exact hold
      · rw [← hplan.toDisk]
        exact hnew
    subst heqn
    refine .inr ⟨op, on, np, on, p, p, V'.childAt p k, hplan.old, hplan.new, hplan.source,
      by rw [hplan.target], hdisk hplan.toDisk ⟨hold, fun n hn => ?_, fun m => ?_⟩⟩
    · by_cases hnp : n = p
      · subst hnp
        simp only [if_true, update_idem]
        rw [← hold, update_eq_self]
      · simp only [if_neg hnp]
    · rw [hold, if_neg fun h => h.2 (Option.some.inj h.1).symm]
  | @renamed W X op on np nn p k hplan hX =>
    have hw := hplan.ready ht hcan
    have htX := hX.tidy hw.tidy hw.target hw.name.ne_nil hw.alloc
    have hpX := hX.liveDir hw.target fun _ => hw.size
    refine .inr ⟨op, on, np, nn, p, p, W.childAt p k, hplan.old, hplan.new, hplan.source,
      by rw [hplan.target], hdisk hplan.toDisk ?_⟩
    refine hw.movesName hX hplan.slot.lt hpX hplan.slot.lt (.inr ⟨rfl, rfl⟩) (fun n hn i => ?_) rfl
    have hnX : X.Alloc n := (hX.liveDir hn fun h => h ▸ hw.size).alloc
    rw [renamed_entryOf htX.owned hpX.alloc hnX hw.name
      (hX.entryOf hw.tidy hw.target hw.source hw.entry)]
    by_cases hat : n = p ∧ i = k
    · rw [if_pos hat, if_pos hat]
    · rw [if_neg hat, if_neg hat, if_neg hat]
  | @moved W X op on np nn p q k j y grown hplan hX hpq hslot =>
    have hw := hplan.ready ht hcan
    have htX := hX.tidy hw.tidy hw.target hw.name.ne_nil hw.alloc
    have hqX := hX.liveDir hw.target fun _ => hw.size
    have hpX := hX.liveDir hw.source fun h => absurd h hpq
    have hino : W.childAt p k ≠ 0 ∧ W.childAt p k < 2 ^ 32 :=
      ⟨(entry_eq_some.mp hw.entry).2.1, readLE_lt _ _ 4⟩
    refine .inr ⟨op, on, np, nn, p, q, W.childAt p k, hplan.old, hplan.new, hplan.source,
      by rw [hplan.target], hdisk hplan.toDisk ?_⟩
    refine hw.movesName hX hplan.slot.lt hpX hslot.lt (.inl (hslot.entryOf_none hqX.size))
      (fun n hn i => ?_) rfl
    let Y := X.insertEntry q j y grown nn (W.childAt p k)
    have hYowned : Y.Owned := htX.owned.insertEntry htX.layout hqX.alloc hslot
    have hnX : X.Alloc n := (hX.liveDir hn fun h => h ▸ hw.size).alloc
    have hclear : ((Y.unlinked p k on (joinParentAndName op on) (joinParentAndName np nn)).inode
        n).directSlotGet (i / 32) = (Y.inode n).directSlotGet (i / 32) := by
      by_cases hnp : n = p
      · subst hnp
        have hrec : (Y.unlinked n k on (joinParentAndName op on)
            (joinParentAndName np nn)).inode n = (Y.inode n).dropEntry := update_self ..
        rw [hrec, dropEntry_directSlotGet]
      · have hrec : (Y.unlinked p k on (joinParentAndName op on)
            (joinParentAndName np nn)).inode n = Y.inode n := update_of_ne hnp _ _
        rw [hrec]
    have hins : Y.entryOf n i
        = if n = q ∧ i = j then some (nn, W.childAt p k) else X.entryOf n i := by
      by_cases hnq : n = q
      · subst hnq
        by_cases hij : i = j
        · rw [if_pos ⟨rfl, hij⟩, hij, X.entryOf_insertEntry htX.layout htX.owned hqX.alloc hslot
            hw.name hino.1 hino.2, if_pos rfl]
        · rw [if_neg fun h => hij h.2, X.entryOf_insertEntry_of_ne htX.layout htX.owned hqX.alloc
            hslot hw.name hino.1 hino.2 hqX.size hij]
      · rw [if_neg fun h => hnq h.1, X.entryOf_insertEntry_other htX.owned hqX.alloc hnX hnq hslot]
    rw [entryOf_clear hYowned hpX.alloc hnX hclear rfl, hins]
    by_cases hat : n = p ∧ i = k
    · rw [if_pos hat, if_neg fun h => hpq (hat.1.symm.trans h.1), if_pos hat]
    · rw [if_neg hat, if_neg hat]

end Plan

/-- A call that fails and changes an inode bit. -/
lemma not_renameSpec {oldPath newPath : Str} {s : TwilightFs} {b : Bool}
    (hb : inodeAfterFailure (renameEntry oldPath newPath) s n = some b)
    (hne : s.volume.imap n ≠ b) : ¬ RenameSpec oldPath newPath s := by
  intro h
  rw [RenameSpec] at h
  rw [inodeAfterFailure] at hb
  cases hx : renameEntry oldPath newPath s with
  | ok a s' =>
    rw [hx] at hb
    cases hb
  | error e s' =>
    rw [hx] at h hb
    have hdisk : s'.volume.toDisk = s.volume.toDisk := h
    rw [← hdisk] at hne
    exact hne (Option.some.inj hb)

lemma Volume.WithDir.singleLinks (h : V.WithDir nameA) : V.SingleLinks := by
  intro p hp a b ino ha ha' hb hb' hia hib
  have hname : ∀ s c, s ≠ dotName → s ≠ dotDotName → V.names p s = some c → s = nameA := by
    intro s c hs hs' he
    obtain ⟨i, -, hi⟩ := names_some he
    rcases (h.used p).mp hp.alloc.2 with rfl | rfl
    · rcases h.names i s c hi with h1 | h2 | h3
      · exact absurd h1 hs
      · exact absurd h2 hs'
      · exact h3
    obtain ⟨k, hd⟩ := h.dir
    have hi' : V.entryOf 2 i = some (s, c) := hi
    rw [hd.entry] at hi'
    split at hi'
    · exact absurd (congrArg Prod.fst (Option.some.inj hi')).symm hs
    · split at hi'
      · exact absurd (congrArg Prod.fst (Option.some.inj hi')).symm hs'
      · cases hi'
  rw [hname a ino ha ha' hia, hname b ino hb hb' hib]

lemma Volume.WithDir.canRename (h : V.WithDir nameA) : V.CanRename [47, 97] [47, 98] := by
  intro W op on np nn p q k hplan
  have hold : splitParentAndName [47, 97] = .ok (rootPath, nameA) := by decide
  have hnew : splitParentAndName [47, 98] = .ok (rootPath, nameB) := by decide
  cases hold.symm.trans hplan.old
  cases hnew.symm.trans hplan.new
  have hroot : V.resolve rootPath = (.ok 1, V) := by
    rw [resolve, if_neg (by decide), if_pos rfl]
  have hsource := hplan.source
  have htarget := hplan.target
  rw [hroot] at hsource htarget
  rw [hroot] at htarget
  cases hsource
  cases htarget
  refine ⟨h.root, h.root, by rw [h.rootSize]; decide, properName_B, fun j hj => ?_⟩
  rcases h.names j nameB _ (hj.entryOf (by decide)) with h1 | h2 | h3
  · exact absurd h1 (by decide)
  · exact absurd h2 (by decide)
  · exact absurd h3 (by decide)

def dirFs : TwilightFs := final (createDirWithMode ⟨0, 0, 0⟩ 1 nameA 0o755 smallFs)

lemma dirFs_withDir : dirFs.volume.WithDir nameA :=
  (smallFs_createDir properName_A (by decide) (by decide) (by decide) smallFs rfl).2

/-- The records of a tree: the root, a directory `d` with 35 entries whose second block has no zone,
a file `x`, and links. -/
def holedRecord (n : Nat) : Inode :=
  if n = 1 then (rootRecord ⟨0, 0, 0⟩ 7).withSize 256
  else if n = 2 then
    (((newDir ⟨0, 0, 0⟩ 0o755).directSlotSet 0 8).directSlotSet 2 9).withSize 2240
  else if n = 3 then newFile ⟨0, 0, 0⟩ 0o644
  else symlinkInode ⟨0, 0, 0⟩ nameA

/-- `d` was made with the slot hint 64 of an earlier directory, so its third block has the dot
entries, and then the link `s`; the 32 links in its first block came once the hint was back at 0. -/
def holedData (k : Nat) : Bytes :=
  if k = 1 then fun x => if x < 4 then 255 else if x = 4 then 15 else 0
  else if k = 2 then fun _ => 255
  else if k = 7 then (((Bytes.zero.splice 0 64 (encode 1 dotName)).splice 64 64
    (encode 1 dotDotName)).splice 128 64 (encode 2 [100])).splice 192 64 (encode 3 nameX)
  else if k = 8 then fun x => encode (x / 64 + 5) [102, 65 + UInt8.ofNat (x / 64)] (x % 64)
  else if k = 9 then ((Bytes.zero.splice 0 64 (encode 2 dotName)).splice 64 64
    (encode 1 dotDotName)).splice 128 64 (encode 4 [115])
  else fun x => (holedRecord ((k - 3) * 10 + x / 204 + 1)).encode (x % 204)

def holedFs : TwilightFs where
  superblock := Superblock.geometry 1024
  device := ⟨1024, holedData⟩
  mountMode := .readWrite
  shared := Shared.new

end Twilight.Fs

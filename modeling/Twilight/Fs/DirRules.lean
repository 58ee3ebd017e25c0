/-
Directories on a volume, and the rules of the directory operations.

A directory is its 192 slots; `Volume.slot` reads one.  The index that
`build_dir_index_entry` computes is a fold over the slots, and adding, clearing
and renaming an entry are updates of one slot: `insertEntry`, `clearEntry` and
`renameSlot`.
-/
import Twilight.Fs.Rules

namespace Twilight.Fs

open TwilightFs Function Prog List Disk Volume DirEntry Nat

/-! ## Slots -/

namespace Disk

variable (D : Disk) (i : Inode)

/-- The inode number and the name bytes in slot `k` of the directory `i`. -/
def slot (k : Nat) : Option (Nat × List UInt8) :=
  let zone := i.directSlotGet (k / 32)
  if zone = 0 then none
  else if inodeAt (D.block zone) (k % 32) = 0 then none
  else some (inodeAt (D.block zone) (k % 32), nameAt (D.block zone) (k % 32))

def indexStep (entry : DirIndexEntry) (k : Nat) : DirIndexEntry :=
  match D.slot i k with
  | none => noteFree 192 k entry
  | some (ino, name) => addName (decodeDirName name) ino entry

def indexOf : DirIndexEntry := (range 192).foldl (D.indexStep i) ⟨fun _ => none, 192⟩

def DirectData : Prop := ∀ b, i.directSlotGet b ≠ 0 → D.IsData (i.directSlotGet b)

/-- The direct zones of every record of the table, in use or not, are data zones. -/
def InRange : Prop := ∀ n, D.IsInode n → D.DirectData (D.inode n)

/-- Slot `k` of directory `p` can take an entry: it is free in the zone `z` it has,
or `z` is the zone it gets. -/
structure FreeSlot (D : Disk) (p k z : Nat) (grown : Bool) : Prop where
  lt : k < 192
  kept : grown = false → (D.inode p).directSlotGet (k / 32) = z ∧ z ≠ 0 ∧
    ((k / 32 = 0 ∧ (D.inode p).size = 0) ∨ inodeAt (D.block z) (k % 32) = 0)
  new : grown = true → (D.inode p).directSlotGet (k / 32) = 0 ∧ D.FirstFreeZone z

def childAt (p k : Nat) : Nat := inodeAt (D.block ((D.inode p).directSlotGet (k / 32))) (k % 32)

structure SlotTaken (D : Disk) (p k : Nat) : Prop where
  mapped : (D.inode p).directSlotGet (k / 32) ≠ 0
  started : ¬ (k / 32 = 0 ∧ (D.inode p).size = 0)
  taken : D.childAt p k ≠ 0

def Full : Prop := ∀ z, D.IsData z → D.zmap z = true

variable (p k z : Nat)

/-- The content an entry is added to: the first block of an empty directory and a
new block count as clear. -/
def slotBuf (grown : Bool) : Bytes :=
  if grown = true ∨ (k / 32 = 0 ∧ (D.inode p).size = 0) then Bytes.zero else D.block z

def slotInode (grown : Bool) : Inode :=
  if grown then (D.inode p).directSlotSet (k / 32) z else D.inode p

lemma slotBuf_true : D.slotBuf p k z true = Bytes.zero := if_pos (.inl rfl)

lemma slotBuf_false : D.slotBuf p k z false =
    if k / 32 = 0 ∧ (D.inode p).size = 0 then Bytes.zero else D.block z := by
  simp [slotBuf]

/-- Slot `k` holds an entry the searches take for `name`. -/
structure Matches (D : Disk) (i : Inode) (name : Str) (k : Nat) : Prop where
  mapped : i.directSlotGet (k / 32) ≠ 0
  isMatch : isMatch (D.block (i.directSlotGet (k / 32))) name (k % 32) = true

structure FirstMatch (D : Disk) (i : Inode) (name : Str) (k : Nat) : Prop where
  lt : k < 192
  here : D.Matches i name k
  first : ∀ j < k, ¬ D.Matches i name j

end Disk

variable {i : Inode} {name : Str} {k p : Nat} {Q : Post FsError DirIndexEntry}

lemma Disk.FirstMatch.unique {D : Disk} {k' : Nat}
    (h : D.FirstMatch i name k) (h' : D.FirstMatch i name k') : k = k' := by
  rcases lt_trichotomy k k' with hlt | heq | hlt
  · exact absurd h.here (h'.first k hlt)
  · exact heq
  · exact absurd h'.here (h.first k' hlt)

variable {V : Volume}

lemma entriesPerBlock_eq {m : Mount} (h : Layout m) : entriesPerBlock m.sb = 32 := by
  rw [entriesPerBlock, h.blockSize]; rfl

lemma totalSlots_eq {m : Mount} (h : Layout m) : totalSlots m.sb = 192 := by
  rw [totalSlots, entriesPerBlock_eq h]; rfl

/-! ## The index -/

lemma spec_buildSlots (h : Layout V.mount) (hi : V.DirectData i) {m : Nat}
    {entry : DirIndexEntry} {buf : Bytes} (hbuf : k % 32 ≠ 0 → i.directSlotGet (k / 32) ≠ 0 →
      buf = V.block (i.directSlotGet (k / 32)))
    (hQ : Q (.ok ((range' k m).foldl (V.indexStep i) entry)) V) :
    Spec (buildSlots 32 192 i (range' k m) entry buf) Q V := by
  induction m generalizing k entry buf with
  | zero => exact Wp.pure hQ
  | succ m ih =>
    rw [range'_succ, foldl_cons] at hQ
    rw [range'_succ, buildSlots]
    -- the block held for the next slot is the block of this one
    have hnext : ∀ buf', (i.directSlotGet (k / 32) ≠ 0 →
          buf' = V.block (i.directSlotGet (k / 32))) →
        (k + 1) % 32 ≠ 0 → i.directSlotGet ((k + 1) / 32) ≠ 0 →
          buf' = V.block (i.directSlotGet ((k + 1) / 32)) := by
      intro buf' hb hk
      rw [show (k + 1) / 32 = k / 32 by omega]
      exact hb
    by_cases hz : i.directSlotGet (k / 32) = 0
    · simp only [hz, if_true]
      refine ih (hnext _ fun hne => absurd hz hne) ?_
      have hs : V.indexStep i entry k = noteFree 192 k entry := by
        simp [indexStep, slot, hz]
      rwa [hs] at hQ
    simp only [if_neg hz]
    have hload : Spec (loadBlock (k % 32) (i.directSlotGet (k / 32)) buf)
        (fun r V' => r = .ok (V.block (i.directSlotGet (k / 32))) ∧ V' = V) V := by
      unfold loadBlock
      by_cases hk : k % 32 = 0
      · rw [if_pos hk]
        exact Wp.mapErr (spec_readTfsBlock h (hi _ hz) ⟨rfl, rfl⟩)
      · rw [if_neg hk, hbuf hk hz]
        exact Wp.pure ⟨rfl, rfl⟩
    refine Wp.bind (hload.mono ?_)
    rintro _ _ ⟨rfl, hV⟩
    simp only [hV]
    by_cases hn : inodeAt (V.block (i.directSlotGet (k / 32))) (k % 32) = 0
    · rw [if_pos hn]
      refine ih (hnext _ fun _ => rfl) ?_
      have hs : V.indexStep i entry k = noteFree 192 k entry := by
        simp [indexStep, slot, hz, hn]
      rwa [hs] at hQ
    · rw [if_neg hn]
      refine ih (hnext _ fun _ => rfl) ?_
      have hs : V.indexStep i entry k = addName (decodeDirName
          (nameAt (V.block (i.directSlotGet (k / 32))) (k % 32)))
          (inodeAt (V.block (i.directSlotGet (k / 32))) (k % 32)) entry := by
        simp [indexStep, slot, hz, hn]
      rwa [hs] at hQ

lemma spec_buildDirIndexEntry (h : Layout V.mount) (hi : V.DirectData i)
    (hQ : Q (.ok (V.indexOf i)) V) :
    Spec (buildDirIndexEntry i) Q V := by
  refine Wp.bind (spec_get fun s hs => ?_)
  have hsb : s.superblock = V.mount.sb := congrArg (fun W : Volume => W.sb) hs
  simp only [hsb, entriesPerBlock_eq h, totalSlots_eq h, range_eq_range']
  refine spec_buildSlots h hi (fun hk => absurd rfl hk) ?_
  rw [← range_eq_range']
  exact hQ

lemma spec_ensureDirIndexEntry (h : Layout V.mount) (hi : V.DirectData i)
    (hhit : ∀ entry, V.dirs.map p = some entry → Q (.ok entry) V)
    (hmiss : V.dirs.map p = none → Q (.ok (V.indexOf i))
      { V with dirs := V.dirs.insert dirIndexCacheCapacity p (V.indexOf i) }) :
    Spec (ensureDirIndexEntry p i) Q V := by
  refine Wp.bind (spec_dirIndexGet ?_)
  cases hc : V.dirs.map p with
  | some entry => exact Wp.pure (hhit entry hc)
  | none =>
    refine Wp.bind (spec_buildDirIndexEntry h hi ?_)
    exact Wp.bind (spec_modifyDirs (Wp.pure (hmiss hc)))

/-! ## Adding an entry -/

def Volume.insertEntry (V : Volume) (p k z : Nat) (grown : Bool) (name : Str) (child : Nat) : Volume :=
  let i := V.slotInode p k z grown
  { V with
    zmap := if grown then update V.zmap z true else V.zmap
    block := update V.block z ((V.slotBuf p k z grown).splice (k % 32 * 64) 64 (encode child name))
    inode := update V.inode p (i.withSize (i.size + 64))
    dirs := DirIndexCache.updateAfterInsert V.dirs p name child (min (k + 1) 192) }

lemma Volume.insertEntry_self (V : Volume) (p k z : Nat) (grown : Bool) (name : Str)
    (child : Nat) : (V.insertEntry p k z grown name child).inode p
      = (V.slotInode p k z grown).withSize ((V.slotInode p k z grown).size + 64) :=
  Function.update_self ..

lemma spec_slotBlock {b : Nat} (h : Layout V.mount) (hp : V.IsInode p)
    {Q : Post String (Nat × Inode)}
    (hkept : i.directSlotGet b ≠ 0 → Q (.ok (i.directSlotGet b, i)) V)
    (hnew : ∀ z, i.directSlotGet b = 0 → V.FirstFreeZone z →
      Q (.ok (z, i.directSlotSet b z))
        (((V.setZmap z true).putBlock z Bytes.zero).putInode p (i.directSlotSet b z)))
    (herr : i.directSlotGet b = 0 → V.Full → Q (.error "Failed to allocate directory zone") V) :
    Spec (slotBlock p b i) Q V := by
  unfold slotBlock
  by_cases hz : i.directSlotGet b = 0
  · rw [if_pos hz]
    refine Wp.bind (Wp.mapErr (spec_allocateZone h.mapped (fun z hfree => ?_) (herr hz)))
    refine Wp.bind (Wp.mapErr (spec_writeTfsBlock h hfree.isData ?_))
    exact Wp.bind (spec_writeInode h hp (Wp.pure (hnew z hz hfree)))
  · rw [if_neg hz]
    exact Wp.pure (hkept hz)

lemma spec_tryInsert {child : Nat} {slots : List Nat} (h : Layout V.mount)
    (hp : V.IsInode p) (hi : V.DirectData (V.inode p)) (hslots : ∀ k ∈ slots, k < 192)
    {Q : Post String (Option Nat × Inode)}
    (hok : ∀ k z grown before after, slots = before ++ k :: after →
      (∀ j ∈ before, V.SlotTaken p j) → V.FreeSlot p k z grown →
      Q (.ok (some k, (V.slotInode p k z grown).withSize ((V.slotInode p k z grown).size + 64)))
        { V.insertEntry p k z grown name child with dirs := V.dirs })
    (hnone : (∀ k ∈ slots, V.SlotTaken p k) → Q (.ok (none, V.inode p)) V)
    (herr : ∀ k before after, slots = before ++ k :: after → (∀ j ∈ before, V.SlotTaken p j) →
      (V.inode p).directSlotGet (k / 32) = 0 → V.Full →
      Q (.error "Failed to allocate directory zone") V) :
    Spec (tryInsert 32 p (encode child name) slots (V.inode p)) Q V := by
  induction slots with
  | nil => exact Wp.pure (hnone nofun)
  | cons k rest ih =>
    have hk : k < 192 := hslots k mem_cons_self
    rw [tryInsert]
    refine Wp.bind (spec_slotBlock h hp (fun hz => ?_) (fun z hz hfree => ?_)
      (herr k [] rest rfl nofun))
    · -- the slot has a zone
      refine Wp.bind (Wp.mapErr (spec_readTfsBlock h (hi _ hz) ?_))
      simp only [Except.mapError]
      rw [← slotBuf_false V.toDisk p k ((V.inode p).directSlotGet (k / 32))]
      by_cases hfree : (V.slotBuf p k ((V.inode p).directSlotGet (k / 32)) false).readLE
          (k % 32 * dirEntrySize) 4 = 0
      · have hslot : V.FreeSlot p k ((V.inode p).directSlotGet (k / 32)) false := by
          refine ⟨hk, fun _ => ⟨rfl, hz, ?_⟩, fun hg => by cases hg⟩
          by_cases hempty : k / 32 = 0 ∧ (V.inode p).size = 0
          · exact .inl hempty
          · rw [slotBuf_false, if_neg hempty] at hfree
            exact .inr hfree
        rw [if_pos hfree]
        refine Wp.bind (Wp.mapErr (spec_writeTfsBlock h (hi _ hz) ?_))
        exact Wp.bind (spec_writeInode h hp (Wp.pure (hok k _ false [] rest rfl nofun hslot)))
      · rw [if_neg hfree]
        have htaken : V.SlotTaken p k := by
          rw [slotBuf_false] at hfree
          by_cases hempty : k / 32 = 0 ∧ (V.inode p).size = 0
          · rw [if_pos hempty] at hfree
            exact absurd (Bytes.readLE_zero _ _) hfree
          · rw [if_neg hempty] at hfree
            exact ⟨hz, hempty, hfree⟩
        exact ih (fun j hj => hslots j (mem_cons_of_mem _ hj))
          (fun j z grown before after hsplit hbefore hslot => hok j z grown (k :: before) after
            (by rw [hsplit]; rfl) (forall_mem_cons.mpr ⟨htaken, hbefore⟩) hslot)
          (fun hrest => hnone (forall_mem_cons.mpr ⟨htaken, hrest⟩))
          fun j before after hsplit hbefore => herr j (k :: before) after
            (by rw [hsplit]; rfl) (forall_mem_cons.mpr ⟨htaken, hbefore⟩)
    · -- a new zone is clear, so the entry goes in at once
      refine Wp.bind (Wp.mapErr (spec_readTfsBlock h hfree.isData ?_))
      have hclear : (if k / 32 = 0 ∧ ((V.inode p).directSlotSet (k / 32) z).size = 0 then Bytes.zero
          else (((V.setZmap z true).putBlock z Bytes.zero).putInode p
            ((V.inode p).directSlotSet (k / 32) z)).block z) = Bytes.zero := by
        split
        · rfl
        · exact update_self ..
      simp only [Except.mapError, hclear]
      rw [if_pos (Bytes.readLE_zero _ _)]
      refine Wp.bind (Wp.mapErr (spec_writeTfsBlock h hfree.isData ?_))
      refine Wp.bind (spec_writeInode h hp (Wp.pure ?_))
      have := hok k z true [] rest rfl nofun ⟨hk, fun hg => (by cases hg), fun _ => ⟨hz, hfree⟩⟩
      simp only [insertEntry, slotInode, slotBuf_true, if_true] at this
      simp only [putBlock, putInode, setZmap, update_idem]
      exact this

def Volume.startSlot (V : Volume) (p : Nat) : Nat :=
  (V.dirs.map p).elim 0 fun entry => min entry.nextFreeSlotHint 192

def Volume.slotOrder (V : Volume) (p : Nat) : List Nat :=
  range' (V.startSlot p) (192 - V.startSlot p) ++ range (V.startSlot p)

/-- Slot `k` is the first without an entry in that order. -/
structure Volume.NextSlot (V : Volume) (p k : Nat) : Prop where
  free : ¬ V.SlotTaken p k
  order : ∃ before after, V.slotOrder p = before ++ k :: after ∧ ∀ j ∈ before, V.SlotTaken p j

/-- Directory `p` can take no entry: the next slot needs a zone and none is free. -/
def Volume.NoRoom (V : Volume) (p : Nat) : Prop :=
  ∀ k, V.NextSlot p k → (V.inode p).directSlotGet (k / 32) = 0 ∧ V.Full

lemma exists_first_not {α : Type} {P : α → Prop} {l : List α} (h : ¬ ∀ a ∈ l, P a) :
    ∃ a before after, l = before ++ a :: after ∧ (∀ b ∈ before, P b) ∧ ¬ P a := by
  induction l with
  | nil => exact absurd (nofun : ∀ a ∈ [], P a) h
  | cons a rest ih =>
    by_cases ha : P a
    · obtain ⟨b, before, after, hsplit, hbefore, hb⟩ := ih fun hrest =>
        h (forall_mem_cons.mpr ⟨ha, hrest⟩)
      exact ⟨b, a :: before, after, by rw [hsplit]; rfl, forall_mem_cons.mpr ⟨ha, hbefore⟩, hb⟩
    · exact ⟨a, [], rest, rfl, nofun, ha⟩

lemma first_not_unique {α : Type} {P : α → Prop} {a b : α} {l l' m m' : List α}
    (h : l ++ a :: m = l' ++ b :: m') (hl : ∀ x ∈ l, P x) (hl' : ∀ x ∈ l', P x)
    (ha : ¬ P a) (hb : ¬ P b) : a = b := by
  induction l generalizing l' with
  | nil =>
    cases l' with
    | nil => exact (List.cons.inj h).1
    | cons x rest => exact absurd (hl' a (by rw [(List.cons.inj h).1]; exact mem_cons_self)) ha
  | cons x rest ih =>
    cases l' with
    | nil => exact absurd (hl b (by rw [← (List.cons.inj h).1]; exact mem_cons_self)) hb
    | cons y rest' =>
      exact ih (List.cons.inj h).2 (fun z hz => hl z (mem_cons_of_mem _ hz))
        fun z hz => hl' z (mem_cons_of_mem _ hz)

/-- Slot `k` is the first one tried, or that one holds an entry. -/
def Volume.FirstTried (V : Volume) (p k : Nat) : Prop :=
  V.startSlot p < 192 → k ≠ V.startSlot p → V.SlotTaken p (V.startSlot p)

lemma Volume.startSlot_le (V : Volume) (p : Nat) : V.startSlot p ≤ 192 := by
  rw [startSlot]
  cases V.dirs.map p with
  | none => exact zero_le _
  | some entry => exact min_le_right _ _

lemma Volume.mem_slotOrder : k ∈ V.slotOrder p ↔ k < 192 := by
  have hle := V.startSlot_le p
  rw [slotOrder, mem_append, mem_range'_1, mem_range]
  omega

lemma Volume.nextSlot_unique (V : Volume) {k' : Nat} (h : V.NextSlot p k)
    (h' : V.NextSlot p k') : k = k' := by
  obtain ⟨before, after, hsplit, hbefore⟩ := h.order
  obtain ⟨before', after', hsplit', hbefore'⟩ := h'.order
  exact first_not_unique (hsplit.symm.trans hsplit') hbefore hbefore' h.free h'.free

lemma Volume.not_nextSlot (V : Volume) (h : ∀ j ∈ V.slotOrder p, V.SlotTaken p j) :
    ¬ V.NextSlot p k := by
  rintro ⟨hfree, before, after, hsplit, -⟩
  exact hfree (h k (by rw [hsplit]; exact mem_append_right _ mem_cons_self))

/-- The slot tried first, if it is free. -/
lemma Volume.nextSlot_start (V : Volume) (h : ¬ V.SlotTaken p (V.startSlot p % 192)) :
    V.NextSlot p (V.startSlot p % 192) := by
  have hle := V.startSlot_le p
  refine ⟨h, [], ?_⟩
  by_cases hlt : V.startSlot p < 192
  · refine ⟨range' (V.startSlot p + 1) (191 - V.startSlot p) ++ range (V.startSlot p), ?_, by simp⟩
    rw [slotOrder, Nat.mod_eq_of_lt hlt, show 192 - V.startSlot p = 191 - V.startSlot p + 1 by omega,
      range'_succ]
    rfl
  · refine ⟨range' 1 191, ?_, by simp⟩
    rw [slotOrder, show V.startSlot p = 192 by omega, Nat.sub_self, range'_zero, range_eq_range']
    rfl

lemma Volume.exists_nextSlot (V : Volume) (h : ¬ ∀ k < 192, V.SlotTaken p k) :
    ∃ k, V.NextSlot p k := by
  obtain ⟨k, before, after, hsplit, hbefore, hk⟩ := exists_first_not
    (P := V.SlotTaken p) (l := V.slotOrder p) fun hall => h fun k hk =>
      hall k (Volume.mem_slotOrder.mpr hk)
  exact ⟨k, hk, before, after, hsplit, hbefore⟩

lemma Volume.NextSlot.firstTried (h : V.NextSlot p k) : V.FirstTried p k := by
  intro hlt hne
  obtain ⟨before, after, hsplit, hbefore⟩ := h.order
  apply hbefore
  -- the order starts with the hint
  rw [slotOrder, show 192 - V.startSlot p = (191 - V.startSlot p) + 1 by omega,
    range'_succ] at hsplit
  cases before with
  | nil => exact absurd (List.cons.inj hsplit).1.symm hne
  | cons b rest =>
    rw [(List.cons.inj hsplit).1]
    exact mem_cons_self

lemma Volume.NextSlot.le {n j : Nat} (hnext : V.NextSlot n k) (hstart : V.startSlot n % 192 = 0)
    (hj : j < 192) (hfree : ¬ V.SlotTaken n j) : k ≤ j := by
  obtain ⟨before, after, hsplit, hbefore⟩ := hnext.order
  have horder : V.slotOrder n = range 192 := by
    have hle := V.startSlot_le n
    obtain hzero | hall : V.startSlot n = 0 ∨ V.startSlot n = 192 := by omega
    · rw [slotOrder, hzero, range_zero, append_nil, range_eq_range']
    · rw [slotOrder, hall, Nat.sub_self, range'_zero, nil_append]
  rw [horder] at hsplit
  have hsorted := pairwise_lt_range (n := 192)
  have hmem := mem_range.mpr hj
  rw [hsplit] at hsorted hmem
  rcases mem_append.mp hmem with hb | ha
  · exact absurd (hbefore j hb) hfree
  · rcases mem_cons.mp ha with rfl | ha
    · exact le_refl _
    · exact le_of_lt (rel_of_pairwise_cons (pairwise_append.mp hsorted).2.1 ha)

lemma Disk.FreeSlot.not_taken {D : Disk} {z : Nat} {grown : Bool}
    (h : D.FreeSlot p k z grown) : ¬ D.SlotTaken p k := by
  intro ht
  cases grown with
  | true => exact ht.mapped (h.new rfl).1
  | false =>
    obtain ⟨hz, -, hempty | hfree⟩ := h.kept rfl
    · exact ht.started hempty
    · apply ht.taken
      rw [childAt, hz]
      exact hfree

lemma Volume.NoRoom.not_freeSlot {z : Nat} {grown : Bool} (h : V.NoRoom p)
    (hnext : V.NextSlot p k) : ¬ V.FreeSlot p k z grown := by
  intro hslot
  obtain ⟨hz, hfull⟩ := h k hnext
  cases grown with
  | true =>
    have hused := hfull z (hslot.new rfl).2.isData
    rw [(hslot.new rfl).2.free] at hused
    cases hused
  | false =>
    obtain ⟨hz', h0, -⟩ := hslot.kept rfl
    exact h0 (hz'.symm.trans hz)

lemma spec_createDirEntry {child : Nat} (h : Layout V.mount)
    (hp : V.IsInode p) (hi : V.DirectData (V.inode p)) {Q : Post String Unit}
    (hok : ∀ k z grown, V.FreeSlot p k z grown → V.NextSlot p k →
      Q (.ok ()) (V.insertEntry p k z grown name child))
    (herr : ∀ e, V.NoRoom p → Q (.error e) V) : Spec (createDirEntry p name child) Q V := by
  refine Wp.bind (spec_readInode h hp ?_)
  refine Wp.bind (spec_get fun s hs => ?_)
  have hsb : s.superblock = V.mount.sb := congrArg (fun W : Volume => W.sb) hs
  simp only [hsb, entriesPerBlock_eq h, totalSlots_eq h]
  refine Wp.bind (spec_dirIndexGet ?_)
  simp only
  rw [show (V.dirs.map p).elim 0 (fun entry => min entry.nextFreeSlotHint 192) = V.startSlot p
    from rfl]
  -- a slot found after `before`, and a slot that fails there
  have hfound : ∀ k z grown before after, V.slotOrder p = before ++ k :: after →
      (∀ j ∈ before, V.SlotTaken p j) → V.FreeSlot p k z grown →
      Spec (dirIndexUpdateAfterInsert p name child (min (k + 1) 192)) Q
        { V.insertEntry p k z grown name child with dirs := V.dirs } :=
    fun k z grown before after hsplit hbefore hslot => spec_modifyDirs
      (hok k z grown hslot ⟨hslot.not_taken, before, after, hsplit, hbefore⟩)
  have hstuck : ∀ k before after e, V.slotOrder p = before ++ k :: after →
      (∀ j ∈ before, V.SlotTaken p j) → (V.inode p).directSlotGet (k / 32) = 0 → V.Full →
      Q (.error e) V := by
    intro k before after e hsplit hbefore hz hfull
    refine herr e fun k' hk' => ⟨?_, hfull⟩
    rw [(V.nextSlot_unique hk' ⟨fun ht => ht.mapped hz, before, after, hsplit, hbefore⟩)]
    exact hz
  refine Wp.bind (Wp.bind (spec_tryInsert h hp hi ?_
    (fun k z grown before after hsplit hbefore hslot => ?_) (fun hhigh => ?_)
    fun k before after hsplit hbefore => ?_))
  · intro k hk
    have := mem_range'_1.mp hk
    omega
  · refine Wp.pure (hfound k z grown before (after ++ range (V.startSlot p)) ?_ hbefore hslot)
    rw [slotOrder, hsplit, append_assoc, cons_append]
  · simp only
    by_cases hpos : 0 < V.startSlot p
    · rw [if_pos hpos]
      refine Wp.bind (spec_tryInsert h hp hi ?_
        (fun k z grown before after hsplit hbefore hslot => ?_) (fun hlow => ?_)
        fun k before after hsplit hbefore => ?_)
      · intro k hk
        have := mem_range.mp hk
        have := V.startSlot_le p
        omega
      · refine Wp.pure (hfound k z grown _ after ?_ (forall_mem_append.mpr ⟨hhigh, hbefore⟩) hslot)
        rw [slotOrder, hsplit, append_assoc]
      · refine Wp.pure (Wp.throw (herr _ fun k hk => ?_))
        exact absurd hk (V.not_nextSlot (forall_mem_append.mpr ⟨hhigh, hlow⟩))
      · refine hstuck k _ after _ ?_ (forall_mem_append.mpr ⟨hhigh, hbefore⟩)
        rw [slotOrder, hsplit, append_assoc]
    · rw [if_neg hpos]
      refine Wp.pure (Wp.throw (herr _ fun k hk => ?_))
      have hzero : V.startSlot p = 0 := by omega
      rw [hzero] at hhigh
      refine absurd hk (V.not_nextSlot ?_)
      rw [slotOrder, hzero]
      exact forall_mem_append.mpr ⟨hhigh, nofun⟩
  · refine hstuck k before (after ++ range (V.startSlot p)) _ ?_ hbefore
    rw [slotOrder, hsplit, append_assoc, cons_append]

/-! ## Finding and clearing a slot -/

lemma spec_searchBlocks_from (h : Layout V.mount)
    (hi : V.DirectData i) {m b : Nat} (hm : b + m = 6)
    (hbefore : ∀ j < 32 * b, ¬ V.Matches i name j) {Q : Post FsError (Option (Nat × Bytes × Nat))}
    (hfound : ∀ k, V.FirstMatch i name k → Q (.ok (some (i.directSlotGet (k / 32),
      V.block (i.directSlotGet (k / 32)), k % 32))) V)
    (hnone : (∀ k < 192, ¬ V.Matches i name k) → Q (.ok none) V) :
    Spec (searchBlocks 32 i name (range' b m)) Q V := by
  induction m generalizing b with
  | zero =>
    exact Wp.pure (hnone fun k hk => hbefore k (by omega))
  | succ m ih =>
    rw [range'_succ, searchBlocks]
    have hskip : (∀ j, 32 * b ≤ j → j < 32 * b + 32 → ¬ V.Matches i name j) →
        Spec (searchBlocks 32 i name (range' (b + 1) m)) Q V := by
      intro hblock
      refine ih (by omega) fun j hj => ?_
      by_cases hjb : j < 32 * b
      · exact hbefore j hjb
      · exact hblock j (by omega) (by omega)
    have hdiv : ∀ e < 32, (32 * b + e) / 32 = b ∧ (32 * b + e) % 32 = e := fun e he => by omega
    by_cases hz : i.directSlotGet b = 0
    · simp only [hz, if_true]
      refine hskip fun j hj1 hj2 hmatch => hmatch.mapped ?_
      rw [show j / 32 = b by omega, hz]
    simp only [if_neg hz]
    refine Wp.bind (spec_readTfsBlock h (hi _ hz) ?_)
    simp only
    cases hf : (range 32).find? (isMatch (V.block (i.directSlotGet b)) name) with
    | some e =>
      rw [find?_range_eq_some] at hf
      obtain ⟨he, hmem, hlow⟩ := hf
      have he32 : e < 32 := mem_range.mp hmem
      have hk : V.FirstMatch i name (32 * b + e) := by
        refine ⟨by omega, ⟨?_, ?_⟩, fun j hj hmatch => ?_⟩
        · rw [(hdiv e he32).1]; exact hz
        · rw [(hdiv e he32).1, (hdiv e he32).2]; exact he
        by_cases hjb : j < 32 * b
        · exact hbefore j hjb hmatch
        · have hje := hlow (j - 32 * b) (by omega)
          have hjm := hmatch.isMatch
          rw [show j / 32 = b by omega, show j % 32 = j - 32 * b by omega] at hjm
          rw [hjm] at hje
          cases hje
      have := hfound _ hk
      rw [(hdiv e he32).1, (hdiv e he32).2] at this
      exact Wp.pure this
    | none =>
      rw [find?_eq_none] at hf
      refine hskip fun j hj1 hj2 hmatch => ?_
      have hjm := hmatch.isMatch
      rw [show j / 32 = b by omega] at hjm
      exact hf (j % 32) (mem_range.mpr (by omega)) hjm

lemma spec_searchBlocks (h : Layout V.mount) (hi : V.DirectData i)
    {Q : Post FsError (Option (Nat × Bytes × Nat))}
    (hfound : ∀ k, V.FirstMatch i name k → Q (.ok (some (i.directSlotGet (k / 32),
      V.block (i.directSlotGet (k / 32)), k % 32))) V)
    (hnone : (∀ k < 192, ¬ V.Matches i name k) → Q (.ok none) V) :
    Spec (searchBlocks 32 i name (range Inode.directSlotCount)) Q V := by
  rw [range_eq_range']
  exact spec_searchBlocks_from h hi rfl (fun j hj => by omega) hfound hnone

lemma spec_findDirEntrySlot (h : Layout V.mount) (hp : V.IsInode p)
    (hi : V.DirectData (V.inode p)) {Q : Post FsError (Option (Nat × Nat × Nat))}
    (hfound : ∀ k, V.FirstMatch (V.inode p) name k →
      Q (.ok (some ((V.inode p).directSlotGet (k / 32), k % 32 * dirEntrySize, V.childAt p k))) V)
    (hnone : (∀ k < 192, ¬ V.Matches (V.inode p) name k) → Q (.ok none) V) :
    Spec (findDirEntrySlot p name) Q V := by
  refine Wp.bind (Wp.mapErr (spec_readInode h hp ?_))
  refine Wp.bind (spec_get fun s hs => ?_)
  have hsb : s.superblock = V.mount.sb := congrArg (fun W : Volume => W.sb) hs
  simp only [hsb, entriesPerBlock_eq h]
  exact Wp.bind (spec_searchBlocks h hi
    (fun k hk => Wp.pure (hfound k hk)) fun hn => Wp.pure (hnone hn))

/-- The parent's size, less one entry unless it is too small for that. -/
def Inode.dropEntry (i : Inode) : Inode := if 64 ≤ i.size then i.withSize (i.size - 64) else i

def Volume.clearEntry (V : Volume) (p k : Nat) : Volume :=
  let z := (V.inode p).directSlotGet (k / 32)
  (V.putBlock z ((V.block z).splice (k % 32 * 64) 64 Bytes.zero)).putInode p (V.inode p).dropEntry

lemma Volume.putInode_self (V : Volume) (p : Nat) : V.putInode p (V.inode p) = V := by
  unfold putInode
  rw [update_eq_self]

lemma spec_clearDirEntrySlot (h : Layout V.mount) (hp : V.IsInode p)
    (hz : V.IsData ((V.inode p).directSlotGet (k / 32)))
    {Q : Post FsError Unit} (hQ : Q (.ok ()) (V.clearEntry p k)) :
    Spec (clearDirEntrySlot p ((V.inode p).directSlotGet (k / 32)) (k % 32 * dirEntrySize)) Q V := by
  refine Wp.bind (Wp.mapErr (spec_readInode h hp ?_))
  refine Wp.bind (spec_readTfsBlock h hz ?_)
  simp only
  have hoff : ¬ fsBlockSize < k % 32 * dirEntrySize + dirEntrySize := by
    unfold fsBlockSize dirEntrySize; omega
  rw [if_neg hoff]
  refine Wp.bind (spec_writeTfsBlock h hz ?_)
  simp only
  by_cases hs : UInt64.ofNat dirEntrySize ≤ (V.inode p).size
  · rw [if_pos hs]
    refine Wp.mapErr (spec_writeInode h hp ?_)
    have hd : (V.inode p).dropEntry = (V.inode p).withSize ((V.inode p).size - 64) := if_pos hs
    rw [clearEntry, hd] at hQ
    exact hQ
  · rw [if_neg hs]
    have hd : (V.inode p).dropEntry = V.inode p := if_neg hs
    rw [clearEntry, hd] at hQ
    refine Wp.pure ?_
    rwa [show ∀ W : Volume, W.inode p = V.inode p → W.putInode p (V.inode p) = W from
      fun W hW => by rw [← hW]; exact W.putInode_self p] at hQ
    rfl

end Twilight.Fs

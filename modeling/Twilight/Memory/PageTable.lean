/-
Page tables and the frames they take.

A page table is its root frame, the frames of the tables below the root and the pages it maps.
Every frame comes from the frame allocator and goes back to it: `map_to` takes frames for the
tables that are missing on the way to a page, `clean_up` returns the tables that map nothing any
more. For each operation this file says which frames it moves between the allocator and the
page table, so that what an address space holds can be followed through whole life cycles.

Addresses of user space lie far below `2 ^ 64`; the additions in `alloc_pages` and
`dealloc_pages`, which the source leaves unchecked, do not wrap there.
-/
import Twilight.Memory.ProcMM

namespace Twilight.Memory

open Function List

/-! ## Frames -/

/-- The frame allocator and physical memory as one operation meets them: `grants` are the frames
`allocate_frame` hands out, in this order, until it has none left, `out` the frames that were
handed out and not returned, and `content` is what the frames hold. -/
structure Phys (P : Type) where
  grants : List Nat
  out : Multiset Nat
  content : Nat → P

namespace Phys

variable {P : Type} (phys : Phys P)

def allocateFrame : Option (Nat × Phys P) :=
  match phys.grants with
  | [] => none
  | frame :: rest => some (frame, { phys with grants := rest, out := frame ::ₘ phys.out })

variable (frame : Nat)

def deallocateFrame : Phys P := { phys with out := phys.out.erase frame }

variable (page : P)

def write : Phys P := { phys with content := update phys.content frame page }

def allocateZeroedFrame [Zero P] : Option (Nat × Phys P) :=
  phys.allocateFrame.map fun (frame, phys) => (frame, phys.write frame 0)

@[simp] lemma write_out : (phys.write frame page).out = phys.out := rfl

@[simp] lemma write_content :
    (phys.write frame page).content = update phys.content frame page := rfl

@[simp] lemma deallocateFrame_grants : (phys.deallocateFrame frame).grants = phys.grants := rfl

lemma allocateFrame_eq_none {phys : Phys P} : phys.allocateFrame = none ↔ phys.grants = [] := by
  unfold allocateFrame
  split <;> simp_all

lemma allocateFrame_eq_some {phys phys' : Phys P} {frame : Nat}
    (h : phys.allocateFrame = some (frame, phys')) :
    phys.grants = frame :: phys'.grants ∧ phys'.out = frame ::ₘ phys.out ∧
      phys'.content = phys.content := by
  unfold allocateFrame at h
  split at h
  · cases h
  next hgrants =>
  obtain ⟨rfl, rfl⟩ := Prod.mk.inj (Option.some.inj h)
  exact ⟨hgrants, rfl, rfl⟩

lemma allocateZeroedFrame_eq_some [Zero P] {phys phys' : Phys P} {frame : Nat}
    (h : phys.allocateZeroedFrame = some (frame, phys')) :
    phys.grants = frame :: phys'.grants ∧ phys'.out = frame ::ₘ phys.out ∧
      phys'.content = update phys.content frame 0 := by
  rw [allocateZeroedFrame, Option.map_eq_some_iff] at h
  obtain ⟨⟨frame', phys₁⟩, hframe, heq⟩ := h
  obtain ⟨rfl, rfl⟩ := Prod.mk.inj heq
  obtain ⟨hgrants, hout, hcontent⟩ := allocateFrame_eq_some hframe
  exact ⟨hgrants, hout, by rw [write, hcontent]⟩

/-- After `n` more requests. -/
def spend (n : Nat) : Phys P :=
  { phys with grants := phys.grants.drop n, out := ↑(phys.grants.take n) + phys.out }

lemma spend_zero : phys.spend 0 = phys := by
  simp [spend]

lemma spend_of_nil {phys : Phys P} (h : phys.grants = []) (n : Nat) : phys.spend n = phys := by
  cases phys
  subst h
  simp [spend]

end Phys

/-! ## Page tables -/

structure PageFlags where
  userAccessible : Bool
  writable : Bool
  executable : Bool
deriving DecidableEq

/-- A mapped page. `shared` is not in the page table: it marks a frame that belongs to a memory
file and not to the address space. -/
structure Leaf where
  frame : Nat
  flags : PageFlags
  shared : Bool
deriving DecidableEq

/-- `tables` are the tables below the root, each under its level and the page-number bits above
it, `leaves` the mapped pages by page number. -/
structure PageTable where
  root : Nat
  tables : List ((Nat × Nat) × Nat)
  leaves : List (Nat × Leaf)
  distinct : (leaves.map Prod.fst).Nodup

def tableKeys (page : Nat) : List (Nat × Nat) :=
  [(3, page / 512 ^ 3), (2, page / 512 ^ 2), (1, page / 512)]

inductive MapResult where
  | mapped
  | alreadyMapped
  | frameAllocationFailed
deriving DecidableEq

namespace PageTable

variable {P : Type}

/-- A new page table; the entries of the kernel that it starts with are the same in all of
them. -/
def new (root : Nat) : PageTable := ⟨root, [], [], nodup_nil⟩

def translate (t : PageTable) (page : Nat) : Option Leaf := t.leaves.lookup page

def hasTable (t : PageTable) (key : Nat × Nat) : Bool := t.tables.any fun entry => entry.1 = key

def withTables (t : PageTable) (entries : List ((Nat × Nat) × Nat)) : PageTable :=
  { t with tables := t.tables ++ entries }

def makeTables (t : PageTable) : List (Nat × Nat) → Phys P → Bool × PageTable × Phys P
  | [], phys => (true, t, phys)
  | key :: rest, phys =>
    if t.hasTable key then t.makeTables rest phys
    else
      match phys.allocateFrame with
      | none => (false, t, phys)
      | some (frame, phys) =>
        makeTables (t.withTables [(key, frame)]) rest phys

lemma translate_eq_none {t : PageTable} {page : Nat} :
    t.translate page = none ↔ page ∉ t.leaves.map Prod.fst := by
  rw [translate, lookup_eq_none_iff]
  simp only [List.mem_map, Prod.exists, exists_and_right, exists_eq_right, not_exists, bne_iff_ne, Prod.forall]
  exact ⟨fun h leaf hmem => h page leaf hmem rfl, fun h p leaf hmem hp => h leaf (hp ▸ hmem)⟩

def insert (t : PageTable) (page : Nat) (leaf : Leaf) (h : t.translate page = none) : PageTable :=
  { t with
    leaves := (page, leaf) :: t.leaves
    distinct := nodup_cons.mpr ⟨translate_eq_none.mp h, t.distinct⟩ }

def mapTo (t : PageTable) (page : Nat) (leaf : Leaf) (phys : Phys P) :
    MapResult × PageTable × Phys P :=
  match t.makeTables (tableKeys page) phys with
  | (false, t, phys) => (.frameAllocationFailed, t, phys)
  | (true, t, phys) =>
    if h : t.translate page = none then (.mapped, t.insert page leaf h, phys)
    else (.alreadyMapped, t, phys)

def updateFlags (t : PageTable) (page : Nat) (flags : PageFlags) : PageTable :=
  { t with
    leaves := t.leaves.map fun l => (l.1, if l.1 = page then { l.2 with flags := flags } else l.2)
    distinct := by
      rw [List.map_map]
      exact t.distinct }

def allocPages [Zero P] (t : PageTable) (flags : PageFlags) :
    List Nat → Phys P → Bool × PageTable × Phys P
  | [], phys => (true, t, phys)
  | page :: rest, phys =>
    match phys.allocateZeroedFrame with
    | none => (false, t, phys)
    | some (frame, phys) =>
      let (result, t, phys) := t.mapTo page ⟨frame, flags, false⟩ phys
      if result = .mapped then t.allocPages flags rest phys
      else if (t.translate page).isSome then
        (t.updateFlags page flags).allocPages flags rest (phys.deallocateFrame frame)
      else (false, t, phys.deallocateFrame frame)

def erase (t : PageTable) (page : Nat) : PageTable :=
  { t with
    leaves := t.leaves.eraseP fun l => l.1 = page
    distinct := t.distinct.sublist (eraseP_sublist.map _) }

def inUse (t : PageTable) (entry : (Nat × Nat) × Nat) : Bool :=
  t.leaves.any fun l => l.1 / 512 ^ entry.1.1 = entry.1.2

/-- `clean_up`: the tables that map nothing any more go back to the allocator. -/
def cleanUp (t : PageTable) (phys : Phys P) : PageTable × Phys P :=
  ({ t with tables := t.tables.filter t.inUse },
    { phys with out := phys.out - ↑((t.tables.filter fun entry => !t.inUse entry).map Prod.snd) })

def deallocPages (t : PageTable) : List Nat → Phys P → PageTable × Phys P
  | [], phys => (t, phys)
  | page :: rest, phys =>
    match t.translate page with
    | none => t.deallocPages rest phys
    | some leaf =>
      let (t, phys) := (t.erase page).cleanUp phys
      t.deallocPages rest (phys.deallocateFrame leaf.frame)

def unmapUserPages (t : PageTable) (pages : List Nat) : PageTable := pages.foldl erase t

/-! ### What the operations do -/

@[simp] lemma withTables_leaves (t : PageTable) (entries : List ((Nat × Nat) × Nat)) :
    (t.withTables entries).leaves = t.leaves := rfl

@[simp] lemma withTables_tables (t : PageTable) (entries : List ((Nat × Nat) × Nat)) :
    (t.withTables entries).tables = t.tables ++ entries := rfl

@[simp] lemma translate_withTables (t : PageTable) (entries : List ((Nat × Nat) × Nat))
    (page : Nat) : (t.withTables entries).translate page = t.translate page := rfl

lemma withTables_withTables (t : PageTable) (entries entries' : List ((Nat × Nat) × Nat)) :
    (t.withTables entries).withTables entries' = t.withTables (entries ++ entries') := by
  simp only [withTables, append_assoc]

lemma withTables_nil (t : PageTable) : t.withTables [] = t := by
  simp only [withTables, append_nil]

lemma hasTable_iff {t : PageTable} {key : Nat × Nat} :
    t.hasTable key = true ↔ key ∈ t.tables.map Prod.fst := by
  simp only [hasTable, List.any_eq_true, decide_eq_true_eq, List.mem_map]

def missing (t : PageTable) (keys : List (Nat × Nat)) : List (Nat × Nat) :=
  keys.filter fun key => !t.hasTable key

lemma makeTables_eq (t : PageTable) {keys : List (Nat × Nat)} (hkeys : keys.Nodup)
    (phys : Phys P) :
    t.makeTables keys phys =
      (decide ((t.missing keys).length ≤ phys.grants.length),
        t.withTables ((t.missing keys).zip phys.grants),
        phys.spend (t.missing keys).length) := by
  induction keys generalizing t phys with
  | nil => simp [makeTables, missing, withTables_nil, Phys.spend_zero]
  | cons key rest ih =>
    rw [nodup_cons] at hkeys
    rw [makeTables]
    by_cases hkey : t.hasTable key = true
    · have hmissing : t.missing (key :: rest) = t.missing rest :=
        filter_cons_of_neg (by simp only [hkey, Bool.not_true, Bool.false_eq_true,
          not_false_eq_true])
      rw [if_pos hkey, ih t hkeys.2, hmissing]
    have hmissing : t.missing (key :: rest) = key :: t.missing rest :=
      filter_cons_of_pos (by simp only [hkey, Bool.not_false])
    rw [if_neg hkey, hmissing]
    cases hgrants : phys.allocateFrame with
    | none =>
      rw [Phys.allocateFrame_eq_none] at hgrants
      simp [hgrants, withTables_nil, Phys.spend_of_nil hgrants]
    | some r =>
      obtain ⟨frame, phys'⟩ := r
      obtain ⟨hgrants, hout, hcontent⟩ := Phys.allocateFrame_eq_some hgrants
      have hrest : (t.withTables [(key, frame)]).missing rest = t.missing rest := by
        refine filter_congr fun other hother => ?_
        have hne : key ≠ other := fun h => hkeys.1 (h ▸ hother)
        simp [hasTable, hne]
      have hspend : phys.spend ((t.missing rest).length + 1) = phys'.spend (t.missing rest).length := by
        simp only [Phys.spend, hgrants, hout, hcontent, drop_succ_cons, take_succ_cons,
          ← Multiset.cons_coe, Multiset.cons_add, Multiset.add_cons]
      simp only [ih _ hkeys.2, hrest, withTables_withTables, hgrants, length_cons,
        zip_cons_cons, singleton_append, hspend, Nat.add_le_add_iff_right]

lemma tableKeys_nodup (page : Nat) : (tableKeys page).Nodup := by
  simp [tableKeys]

lemma mapTo_eq (t : PageTable) (page : Nat) (leaf : Leaf) (phys : Phys P) :
    t.mapTo page leaf phys =
      let needed := t.missing (tableKeys page)
      let t' := t.withTables (needed.zip phys.grants)
      (if phys.grants.length < needed.length then (.frameAllocationFailed, t', phys.spend needed.length)
      else if h : t.translate page = none then (.mapped, t'.insert page leaf h, phys.spend needed.length)
      else (.alreadyMapped, t', phys.spend needed.length)) := by
  simp only [mapTo, makeTables_eq t (tableKeys_nodup page)]
  by_cases hlen : phys.grants.length < (t.missing (tableKeys page)).length
  · simp only [decide_eq_false (Nat.not_le.mpr hlen), if_pos hlen]
  · simp only [decide_eq_true (Nat.not_lt.mp hlen), if_neg hlen]
    rfl

lemma mapTo_mapped {t : PageTable} {page : Nat} (hnone : t.translate page = none) (leaf : Leaf)
    {phys : Phys P} (hgrants : 3 ≤ phys.grants.length) : (t.mapTo page leaf phys).1 = .mapped := by
  have hneeded : (t.missing (tableKeys page)).length ≤ 3 := length_filter_le _ (tableKeys page)
  rw [mapTo_eq]
  rw [if_neg (by omega), dif_pos hnone]

/-! ### The frames of an address space -/

def ownFrames (leaves : List (Nat × Leaf)) : Multiset Nat :=
  ↑((leaves.filter fun l => !l.2.shared).map fun l => l.2.frame)

/-- The frames the page table holds: its root, the tables and the pages of its own. -/
def frames (t : PageTable) : Multiset Nat :=
  t.root ::ₘ (↑(t.tables.map Prod.snd) + ownFrames t.leaves)

/-- Whatever else is out of the allocator stays out: the frames the page table gained were taken
from the allocator and those it lost were returned. -/
def Keeps (t : PageTable) (phys : Phys P) (t' : PageTable) (phys' : Phys P) : Prop :=
  ∀ rest, phys.out = t.frames + rest → phys'.out = t'.frames + rest

lemma Keeps.refl (t : PageTable) (phys : Phys P) : t.Keeps phys t phys := fun _ h => h

lemma Keeps.trans {t t' t'' : PageTable} {phys phys' phys'' : Phys P}
    (h : t.Keeps phys t' phys') (h' : t'.Keeps phys' t'' phys'') : t.Keeps phys t'' phys'' :=
  fun rest hout => h' rest (h rest hout)

lemma frames_withTables (t : PageTable) (entries : List ((Nat × Nat) × Nat)) :
    (t.withTables entries).frames = ↑(entries.map Prod.snd) + t.frames := by
  simp only [frames, withTables_tables, withTables_leaves, map_append,
    ← Multiset.coe_add, Multiset.add_cons]
  congr 1
  rw [add_comm (↑(t.tables.map Prod.snd) : Multiset Nat), add_assoc]

def ownFrame (leaf : Leaf) : Multiset Nat := if leaf.shared then 0 else {leaf.frame}

lemma ownFrames_cons (page : Nat) (leaf : Leaf) (leaves : List (Nat × Leaf)) :
    ownFrames ((page, leaf) :: leaves) = ownFrame leaf + ownFrames leaves := by
  cases hshared : leaf.shared <;> simp [ownFrames, ownFrame, hshared]

lemma frames_insert (t : PageTable) (page : Nat) (leaf : Leaf) (h : t.translate page = none) :
    (t.insert page leaf h).frames = ownFrame leaf + t.frames := by
  simp only [frames, insert, ownFrames_cons, Multiset.add_cons]
  congr 1
  rw [add_left_comm]

lemma map_snd_zip {α β : Type} (l : List α) (l' : List β) :
    (l.zip l').map Prod.snd = l'.take l.length := by
  induction l generalizing l' with
  | nil => rfl
  | cons a l ih =>
    cases l' with
    | nil => rfl
    | cons b l' => simp only [zip_cons_cons, map_cons, length_cons, take_succ_cons, ih]

lemma keeps_withTables (t : PageTable) (keys : List (Nat × Nat)) (phys : Phys P) :
    t.Keeps phys (t.withTables (keys.zip phys.grants)) (phys.spend keys.length) := by
  intro rest hout
  rw [frames_withTables, map_snd_zip, Phys.spend, hout, add_assoc]

lemma mapTo_keeps (t : PageTable) (page : Nat) (leaf : Leaf) (phys : Phys P) {rest : Multiset Nat}
    (hout : phys.out = t.frames + rest) :
    let r := t.mapTo page leaf phys
    r.2.2.out + (if r.1 = .mapped then ownFrame leaf else 0) = r.2.1.frames + rest := by
  have htables := keeps_withTables t (t.missing (tableKeys page)) phys rest hout
  rw [mapTo_eq]
  dsimp only
  split
  · simpa using htables
  split
  next hpage =>
    have hinsert := frames_insert (t.withTables ((t.missing (tableKeys page)).zip phys.grants)) page
      leaf hpage
    rw [hinsert, htables]
    abel
  · simpa using htables

lemma mapTo_fields (t : PageTable) (page : Nat) (leaf : Leaf) (phys : Phys P) :
    let r := t.mapTo page leaf phys
    r.2.1.root = t.root ∧ r.2.2.content = phys.content ∧ r.2.2.grants <:+ phys.grants ∧
      r.2.1.leaves = if r.1 = .mapped then (page, leaf) :: t.leaves else t.leaves := by
  have hsuffix : (phys.spend (t.missing (tableKeys page)).length).grants <:+ phys.grants :=
    drop_suffix _ _
  rw [mapTo_eq]
  dsimp only
  split
  · exact ⟨rfl, rfl, hsuffix, rfl⟩
  split
  · exact ⟨rfl, rfl, hsuffix, rfl⟩
  · exact ⟨rfl, rfl, hsuffix, rfl⟩

lemma translate_mapTo {t : PageTable} {page : Nat} {leaf : Leaf} {phys : Phys P}
    (h : (t.mapTo page leaf phys).1 = .mapped) (other : Nat) :
    (t.mapTo page leaf phys).2.1.translate other =
      if other = page then some leaf else t.translate other := by
  have hleaves := (mapTo_fields t page leaf phys).2.2.2
  rw [translate, hleaves, if_pos h, lookup_cons]
  by_cases hpage : other = page
  · simp [hpage]
  · rw [if_neg hpage, beq_false_of_ne hpage]
    rfl

lemma frames_updateFlags (t : PageTable) (page : Nat) (flags : PageFlags) :
    (t.updateFlags page flags).frames = t.frames := by
  have hown : ownFrames (t.updateFlags page flags).leaves = ownFrames t.leaves := by
    simp only [ownFrames, updateFlags, List.filter_map, List.map_map, comp_def,
      apply_ite Leaf.shared, apply_ite Leaf.frame, ite_self]
  simp only [frames, hown]
  rfl

lemma mapTo_own (t : PageTable) (page frame : Nat) (flags : PageFlags) (phys : Phys P)
    {rest : Multiset Nat} (hout : phys.out = t.frames + (frame ::ₘ rest)) :
    let r := t.mapTo page ⟨frame, flags, false⟩ phys
    (r.1 = .mapped → r.2.2.out = r.2.1.frames + rest) ∧
      (r.1 ≠ .mapped → (r.2.2.deallocateFrame frame).out = r.2.1.frames + rest) := by
  have hkeeps := mapTo_keeps t page ⟨frame, flags, false⟩ phys hout
  dsimp only at hkeeps ⊢
  refine ⟨fun hmapped => ?_, fun hmapped => ?_⟩
  · rw [if_pos hmapped] at hkeeps
    rw [← Multiset.cons_inj_right frame, ← Multiset.add_cons, ← hkeeps, add_comm]
    rfl
  · rw [if_neg hmapped, add_zero, Multiset.add_cons] at hkeeps
    rw [Phys.deallocateFrame, hkeeps, Multiset.erase_cons_head]

lemma mapTo_shared (t : PageTable) (page : Nat) {leaf : Leaf} (hshared : leaf.shared = true)
    (phys : Phys P) :
    t.Keeps phys (t.mapTo page leaf phys).2.1 (t.mapTo page leaf phys).2.2 := by
  intro rest hout
  have hkeeps := mapTo_keeps t page leaf phys hout
  have hown : ownFrame leaf = 0 := if_pos hshared
  simpa only [hown, ite_self, add_zero] using hkeeps

lemma allocPages_keeps [Zero P] (t : PageTable) (flags : PageFlags) (pages : List Nat)
    (phys : Phys P) :
    t.Keeps phys (t.allocPages flags pages phys).2.1 (t.allocPages flags pages phys).2.2 := by
  induction pages generalizing t phys with
  | nil => exact Keeps.refl t phys
  | cons page pages ih =>
    intro rest hout
    rw [allocPages]
    cases hframe : phys.allocateZeroedFrame with
    | none => exact hout
    | some r =>
    obtain ⟨frame, phys₁⟩ := r
    have hout₁ : phys₁.out = t.frames + (frame ::ₘ rest) := by
      rw [(Phys.allocateZeroedFrame_eq_some hframe).2.1, hout, Multiset.add_cons]
    obtain ⟨hmapped, hreturned⟩ := mapTo_own t page frame flags _ hout₁
    dsimp only
    generalize t.mapTo page ⟨frame, flags, false⟩ phys₁ = r at hmapped hreturned ⊢
    split
    next hresult => exact ih r.2.1 r.2.2 rest (hmapped hresult)
    next hresult =>
      have hout₂ := hreturned hresult
      split
      · exact ih (r.2.1.updateFlags page flags) _ rest (by rwa [frames_updateFlags])
      · exact hout₂

/-! ### How many frames some pages take -/

variable (present : List (Nat × Nat))

def newTables (page : Nat) : List (Nat × Nat) := (tableKeys page).filter fun key => key ∉ present

/-- How many frames `alloc_pages` asks for, if the page table has these tables. -/
def requests : List (Nat × Nat) → List Nat → Nat
  | _, [] => 0
  | present, page :: pages =>
    1 + (newTables present page).length + requests (present ++ newTables present page) pages

def tablesAfter : List (Nat × Nat) → List Nat → List (Nat × Nat)
  | present, [] => present
  | present, page :: pages => tablesAfter (present ++ newTables present page) pages

lemma requests_append (pages pages' : List Nat) :
    requests present (pages ++ pages') =
      requests present pages + requests (tablesAfter present pages) pages' := by
  induction pages generalizing present with
  | nil => rw [nil_append, requests, tablesAfter, Nat.zero_add]
  | cons page pages ih =>
    rw [cons_append, requests, requests, tablesAfter, ih]
    omega

def Covered (t : PageTable) : Prop :=
  ∀ l ∈ t.leaves, ∀ key ∈ tableKeys l.1, key ∈ t.tables.map Prod.fst

lemma missing_eq (t : PageTable) (keys : List (Nat × Nat)) :
    t.missing keys = keys.filter fun key => key ∉ t.tables.map Prod.fst := by
  refine filter_congr fun key _ => ?_
  rw [Bool.eq_iff_iff, Bool.not_eq_true', ← Bool.not_eq_true, hasTable_iff, decide_eq_true_iff]

lemma Covered.missing_eq_nil {t : PageTable} (h : t.Covered) {page : Nat}
    (hpage : t.translate page ≠ none) : t.missing (tableKeys page) = [] := by
  rw [ne_eq, translate_eq_none, not_not, List.mem_map] at hpage
  obtain ⟨l, hl, rfl⟩ := hpage
  rw [missing_eq, filter_eq_nil_iff]
  intro key hkey
  simpa using h l hl key hkey

lemma missing_tableKeys (t : PageTable) (page : Nat) :
    t.missing (tableKeys page) = newTables (t.tables.map Prod.fst) page :=
  t.missing_eq (tableKeys page)

lemma allocPages_spec [Zero P] {t : PageTable} (ht : t.Covered) (flags : PageFlags)
    (pages : List Nat) (phys : Phys P) :
    let r := t.allocPages flags pages phys
    (r.1 = true ↔ requests (t.tables.map Prod.fst) pages ≤ phys.grants.length) ∧
      (r.1 = true → r.2.1.Covered ∧
        r.2.1.tables.map Prod.fst = tablesAfter (t.tables.map Prod.fst) pages ∧
        r.2.2.grants.length + requests (t.tables.map Prod.fst) pages = phys.grants.length) := by
  induction pages generalizing t phys with
  | nil => exact ⟨iff_of_true rfl (Nat.zero_le _), fun _ => ⟨ht, rfl, rfl⟩⟩
  | cons page pages ih =>
    rw [allocPages, requests, tablesAfter, ← missing_tableKeys]
    cases hframe : phys.allocateZeroedFrame with
    | none =>
      have hgrants : phys.grants = [] := by
        rw [Phys.allocateZeroedFrame, Option.map_eq_none_iff] at hframe
        exact Phys.allocateFrame_eq_none.mp hframe
      rw [hgrants, length_nil]
      exact ⟨iff_of_false nofun (by omega), nofun⟩
    | some r =>
    obtain ⟨frame, phys₁⟩ := r
    obtain ⟨hgrants, -, -⟩ := Phys.allocateZeroedFrame_eq_some hframe
    rw [hgrants, length_cons]
    simp only [mapTo_eq]
    by_cases hlen : phys₁.grants.length < (t.missing (tableKeys page)).length
    · have hnone : t.translate page = none := by
        by_contra hsome
        rw [ht.missing_eq_nil hsome] at hlen
        exact absurd hlen (Nat.not_lt_zero _)
      simp only [if_pos hlen, translate_withTables, hnone]
      exact ⟨iff_of_false (by simp) (by omega), by simp⟩
    have hkeys := map_fst_zip (Nat.not_lt.mp hlen)
    by_cases hpage : t.translate page = none
    · simp only [if_neg hlen, dif_pos hpage, if_true]
      have hcovered : ((t.withTables ((t.missing (tableKeys page)).zip phys₁.grants)).insert page
          ⟨frame, flags, false⟩ hpage).Covered := by
        show ∀ l ∈ (page, _) :: t.leaves, ∀ key ∈ tableKeys l.1, key ∈ (t.tables ++ _).map Prod.fst
        rw [map_append, hkeys, forall_mem_cons]
        refine ⟨fun key hkey => mem_append.mpr ?_,
          fun l hl key hkey => mem_append_left _ (ht l hl key hkey)⟩
        rw [missing_eq, mem_filter, decide_eq_true_iff, or_iff_not_imp_left]
        exact fun hnew => ⟨hkey, hnew⟩
      have htables : ((t.withTables ((t.missing (tableKeys page)).zip phys₁.grants)).insert page
          ⟨frame, flags, false⟩ hpage).tables.map Prod.fst =
          t.tables.map Prod.fst ++ t.missing (tableKeys page) := by
        show (t.tables ++ _).map Prod.fst = _
        rw [map_append, hkeys]
      have hspent : (phys₁.spend (t.missing (tableKeys page)).length).grants.length =
          phys₁.grants.length - (t.missing (tableKeys page)).length := length_drop
      obtain ⟨hok, hdone⟩ := ih hcovered (phys₁.spend (t.missing (tableKeys page)).length)
      rw [htables] at hok hdone
      refine ⟨hok.trans (by omega), fun h => ?_⟩
      obtain ⟨hcovered', htables', hlength⟩ := hdone h
      exact ⟨hcovered', htables', by omega⟩
    · have hmissing := ht.missing_eq_nil hpage
      have hsome : (t.translate page).isSome = true := Option.isSome_iff_ne_none.mpr hpage
      have hcovered : (t.updateFlags page flags).Covered := by
        intro l hl
        obtain ⟨l', hl', rfl⟩ := List.mem_map.mp hl
        exact ht l' hl'
      simp only [if_neg hlen, dif_neg hpage, reduceCtorEq, if_false, translate_withTables, hsome,
        if_true]
      simp only [hmissing, zip_nil_left, withTables_nil, length_nil, Phys.spend_zero, append_nil]
      obtain ⟨hok, hdone⟩ := ih hcovered (phys₁.deallocateFrame frame)
      rw [Phys.deallocateFrame_grants] at hok hdone
      refine ⟨hok.trans ?_, fun h => ?_⟩
      · show requests (t.tables.map Prod.fst) pages ≤ _ ↔ _
        omega
      · obtain ⟨hcovered', htables', hlength⟩ := hdone h
        have hlength : _ + requests (t.tables.map Prod.fst) pages = _ := hlength
        exact ⟨hcovered', htables', by omega⟩

/-! ### Taking an address space down -/

lemma deallocPages_cons_some {t : PageTable} {page : Nat} {leaf : Leaf}
    (h : t.translate page = some leaf) (pages : List Nat) (phys : Phys P) :
    t.deallocPages (page :: pages) phys =
      ((t.erase page).cleanUp phys).1.deallocPages pages
        (((t.erase page).cleanUp phys).2.deallocateFrame leaf.frame) := by
  rw [deallocPages, h]

lemma ownFrames_eraseP {leaves : List (Nat × Leaf)} {page : Nat} {leaf : Leaf}
    (h : leaves.lookup page = some leaf) :
    ownFrames leaves = ownFrame leaf + ownFrames (leaves.eraseP fun l => l.1 = page) := by
  induction leaves with
  | nil => cases h
  | cons l leaves ih =>
    obtain ⟨other, first⟩ := l
    by_cases hpage : other = page
    · subst hpage
      rw [lookup_cons_self, Option.some.injEq] at h
      subst h
      rw [ownFrames_cons, eraseP_cons_of_pos (by simp)]
    · have hne : (page == other) = false := by simpa using Ne.symm hpage
      rw [lookup_cons, hne] at h
      rw [eraseP_cons_of_neg (by simpa using hpage), ownFrames_cons, ownFrames_cons, ih h]
      abel

lemma erase_leaves (t : PageTable) (page : Nat) :
    (t.erase page).leaves = t.leaves.filter fun l => l.1 ≠ page := by
  show t.leaves.eraseP (fun l => l.1 = page) = _
  have hdistinct := t.distinct
  generalize t.leaves = leaves at hdistinct ⊢
  induction leaves with
  | nil => rfl
  | cons l leaves ih =>
    rw [map_cons, nodup_cons] at hdistinct
    by_cases hpage : l.1 = page
    · rw [eraseP_cons_of_pos (by simpa using hpage), filter_cons_of_neg (by simpa using hpage)]
      refine (filter_eq_self.mpr fun other hother => ?_).symm
      have hne : other.1 ≠ page := fun h => hdistinct.1 (List.mem_map.mpr ⟨other, hother, h.trans hpage.symm⟩)
      simpa using hne
    · rw [eraseP_cons_of_neg (by simpa using hpage), filter_cons_of_pos (by simpa using hpage),
        ih hdistinct.2]

lemma cleanUp_keeps (t : PageTable) (phys : Phys P) :
    t.Keeps phys (t.cleanUp phys).1 (t.cleanUp phys).2 := by
  intro rest hout
  have hsplit : (↑(t.tables.map Prod.snd) : Multiset Nat) =
      ↑((t.tables.filter fun entry => !t.inUse entry).map Prod.snd) +
        ↑((t.tables.filter t.inUse).map Prod.snd) := by
    rw [Multiset.coe_add, ← map_append, Multiset.coe_eq_coe]
    exact ((perm_append_comm.trans (filter_append_perm t.inUse t.tables)).map _).symm
  have hframes : t.frames = ↑((t.tables.filter fun entry => !t.inUse entry).map Prod.snd) +
      (t.cleanUp phys).1.frames := by
    simp only [frames, cleanUp, hsplit, Multiset.add_cons, add_assoc]
  rw [hframes, add_assoc] at hout
  rw [cleanUp, hout]
  exact add_tsub_cancel_left _ _

lemma mem_of_translate {t : PageTable} {page : Nat} {leaf : Leaf}
    (h : t.translate page = some leaf) : (page, leaf) ∈ t.leaves := by
  rw [translate, lookup_eq_some_iff] at h
  obtain ⟨l₁, l₂, hl, -⟩ := h
  rw [hl]
  exact mem_append_right _ mem_cons_self

lemma deallocPages_keeps (t : PageTable) {pages : List Nat}
    (hown : ∀ l ∈ t.leaves, l.1 ∈ pages → l.2.shared = false) (phys : Phys P) :
    t.Keeps phys (t.deallocPages pages phys).1 (t.deallocPages pages phys).2 := by
  induction pages generalizing t phys with
  | nil => exact Keeps.refl t phys
  | cons page pages ih =>
    cases hpage : t.translate page with
    | none =>
      rw [deallocPages, hpage]
      exact ih t (fun l hl hmem => hown l hl (mem_cons_of_mem _ hmem)) phys
    | some leaf =>
      intro rest hout
      rw [deallocPages_cons_some hpage]
      have hshared : leaf.shared = false := hown _ (mem_of_translate hpage) mem_cons_self
      have hframes : t.frames = leaf.frame ::ₘ (t.erase page).frames := by
        have hleaf : ownFrame leaf = {leaf.frame} := by simp [ownFrame, hshared]
        rw [frames, ownFrames_eraseP hpage, hleaf, Multiset.singleton_add, Multiset.add_cons,
          Multiset.cons_swap]
        rfl
      rw [hframes, Multiset.cons_add, ← Multiset.add_cons] at hout
      have hclean := (t.erase page).cleanUp_keeps phys _ hout
      refine ih _ (fun l hl hmem => hown l ?_ (mem_cons_of_mem _ hmem)) _ rest ?_
      · exact mem_of_mem_eraseP hl
      · show ((t.erase page).cleanUp phys).2.out.erase leaf.frame =
          ((t.erase page).cleanUp phys).1.frames + rest
        rw [hclean, Multiset.add_cons, Multiset.erase_cons_head]

lemma inUse_mono {t t' : PageTable} (h : ∀ l ∈ t.leaves, l ∈ t'.leaves)
    {entry : (Nat × Nat) × Nat} (hused : t.inUse entry = true) : t'.inUse entry = true := by
  rw [inUse, List.any_eq_true] at hused ⊢
  obtain ⟨l, hl, hbelow⟩ := hused
  exact ⟨l, h l hl, hbelow⟩

lemma deallocPages_fields (t : PageTable) (pages : List Nat) (phys : Phys P) :
    let t' := (t.deallocPages pages phys).1
    t'.root = t.root ∧ t'.leaves = t.leaves.filter (fun l => l.1 ∉ pages) ∧
      t'.tables = if ∃ l ∈ t.leaves, l.1 ∈ pages then t.tables.filter t'.inUse else t.tables := by
  induction pages generalizing t phys with
  | nil => simp [deallocPages]
  | cons page pages ih =>
    cases hpage : t.translate page with
    | none =>
      have hne : ∀ l ∈ t.leaves, l.1 ≠ page := by
        rw [translate_eq_none] at hpage
        exact fun l hl h => hpage (List.mem_map.mpr ⟨l, hl, h⟩)
      obtain ⟨hroot, hleaves, htables⟩ := ih t phys
      rw [deallocPages, hpage]
      refine ⟨hroot, hleaves.trans ?_, htables.trans ?_⟩
      · refine filter_congr fun l hl => ?_
        simp [hne l hl]
      · refine if_congr (exists_congr fun l => and_congr_right fun hl => ?_) rfl rfl
        simp [hne l hl]
    | some leaf =>
      have hsome : ∃ l ∈ t.leaves, l.1 ∈ page :: pages := ⟨_, mem_of_translate hpage, mem_cons_self⟩
      have hleaves₁ : ((t.erase page).cleanUp phys).1.leaves = t.leaves.filter fun l => l.1 ≠ page :=
        erase_leaves t page
      have htables₁ : ((t.erase page).cleanUp phys).1.tables =
          t.tables.filter ((t.erase page).cleanUp phys).1.inUse := rfl
      have hroot₁ : ((t.erase page).cleanUp phys).1.root = t.root := rfl
      obtain ⟨hroot, hleaves, htables⟩ := ih ((t.erase page).cleanUp phys).1
        (((t.erase page).cleanUp phys).2.deallocateFrame leaf.frame)
      rw [deallocPages_cons_some hpage]
      generalize ((t.erase page).cleanUp phys).1 = t₁ at *
      generalize (t₁.deallocPages pages _).1 = t₂ at *
      refine ⟨hroot.trans hroot₁, ?_, htables.trans ?_⟩
      · rw [hleaves, hleaves₁]
        simp [Bool.and_comm]
      rw [htables₁]
      split
      · -- A table above a page that is left was kept when the first page went.
        rw [List.filter_filter]
        refine filter_congr fun entry _ => ?_
        have hmono : ∀ l ∈ t₂.leaves, l ∈ t₁.leaves := by
          rw [hleaves]
          exact fun l => mem_of_mem_filter
        cases hused : t₂.inUse entry with
        | false => rfl
        | true => rw [inUse_mono hmono hused]; rfl
      next hnone =>
        have hsame : t₂.leaves = t₁.leaves := by
          rw [hleaves, filter_eq_self]
          exact fun l hl => decide_eq_true fun hmem => hnone ⟨l, hl, hmem⟩
        have hinUse : t₂.inUse = t₁.inUse := by
          funext entry
          rw [inUse, inUse, hsame]
        rw [hinUse]

end PageTable

end Twilight.Memory

/-
The address space of a process: its page table together with the ranges the process record and
the memory map keep.  This file has what happens to a whole address space, the copy that `fork`
makes, the page that a fault brings in and the teardown, and what of it a program can see.

A page the program can see is either mapped or has a plan in the memory map; in the second case
the fault handler maps it at the first access.
-/
import Twilight.Memory.ElfUnmap
import Twilight.Memory.PageTable

namespace Twilight.Memory

open Function List PageTable Phys PageTable.Keeps

variable {F P : Type}

def ProcMM.isSharedPage (mm : ProcMM F) (pageBase : Nat) : Bool :=
  mm.mmapRegions.any fun r => r.kind = .shared ∧ r.Has pageBase

/-- `addrSizeVec` holds the ranges of the stack and of thread-local storage, `heapStart` is the
start of the heap, which ends at `mm.mappedHeapEnd`. -/
structure AddressSpace (F : Type) where
  table : PageTable
  addrSizeVec : List (Nat × Nat)
  heapStart : Nat
  mm : ProcMM F

def copyPages (range : Nat × Nat) : List Nat :=
  if range.2 = 0 then []
  else
    let start := range.1 / page
    let stop := (saturatingAdd range.1 range.2 - 1) / page
    range' start (stop + 1 - start)

/-- The pages of a range as `alloc_pages`, `dealloc_pages` and `unmap_user_pages` count them: an
empty range has the page it starts in. -/
def rangePages (range : Nat × Nat) : List Nat :=
  let start := range.1 / page
  let stop := (range.1 + (range.2 - 1)) / page
  range' start (stop + 1 - start)

/-- Four frames for a kernel stack; only the first has to be there. -/
def Phys.allocateSwitchStack (phys : Phys P) : Option (Phys P) :=
  if phys.grants = [] then none else some (phys.spend 4)

inductive PageFaultResolution where
  | resolved
  | busError
  | invalid
deriving DecidableEq

namespace VmPermissions

def allows (p : VmPermissions) (write execute : Bool) : Bool :=
  if execute then p.execute else if write then p.write else p.read

end VmPermissions

namespace AddressSpace

def heapRange (space : AddressSpace F) : List (Nat × Nat) :=
  if space.mm.mappedHeapEnd > space.heapStart then
    [(space.heapStart, space.mm.mappedHeapEnd - space.heapStart)]
  else []

def regionsToCopy (space : AddressSpace F) : List (Nat × Nat) :=
  space.addrSizeVec ++ space.heapRange ++ space.mm.mmapRegions.map (fun r => (r.base, r.len)) ++
    space.mm.elfRegions.map fun r => (r.base, r.len)

def pagesToCopy (space : AddressSpace F) : List Nat :=
  (space.regionsToCopy.flatMap copyPages).dedup.insertionSort (· ≤ ·)

def forkPages [Zero P] (parent : AddressSpace F) :
    List Nat → PageTable → Phys P → Bool × PageTable × Phys P
  | [], child, phys => (true, child, phys)
  | number :: rest, child, phys =>
    match parent.table.translate number with
    | none => parent.forkPages rest child phys
    | some leaf =>
      if parent.mm.isSharedPage (number * page) then
        let (result, child, phys) := child.mapTo number ⟨leaf.frame, leaf.flags, true⟩ phys
        if result = .mapped then parent.forkPages rest child phys else (false, child, phys)
      else
        match phys.allocateZeroedFrame with
        | none => (false, child, phys)
        | some (frame, phys) =>
          let phys := phys.write frame (phys.content leaf.frame)
          let (result, child, phys) := child.mapTo number ⟨frame, leaf.flags, false⟩ phys
          if result = .mapped then parent.forkPages rest child phys
          else (false, child, phys.deallocateFrame frame)

/-- `Process::fork` without the process record: the child's address space or an error.  The first
frame and the first of the kernel stack are unwrapped, so that the kernel stops without them. -/
def fork [Zero P] (parent : AddressSpace F) (phys : Phys P) :
    Option (Option (AddressSpace F) × Phys P) :=
  match phys.allocateFrame with
  | none => none
  | some (root, phys) =>
    match parent.forkPages parent.pagesToCopy (.new root) phys with
    | (false, _, phys) => some (none, phys)
    | (true, table, phys) =>
      phys.allocateSwitchStack.map fun phys => (some { parent with table := table }, phys)

variable (readFragments : List (ElfPageFragment F) → Option P)

/-- `resolve_page_fault`.  `readFragments` fills a page from the files of a plan and fails if one
of them cannot be read. -/
def resolvePageFault [Zero P]
    (space : AddressSpace F) (number : Nat) (write execute : Bool) (phys : Phys P) :
    PageFaultResolution × AddressSpace F × Phys P :=
  if (space.table.translate number).isSome then (.resolved, space, phys)
  else
    match space.mm.pageFaultPlan (number * page) with
    | none => (.invalid, space, phys)
    | some plan =>
      if !plan.permissions.allows write execute then (.invalid, space, phys)
      else
        match phys.allocateZeroedFrame with
        | none => (.busError, space, phys)
        | some (frame, phys) =>
          match readFragments plan.fragments with
          | none => (.busError, space, phys.deallocateFrame frame)
          | some content =>
            let flags : PageFlags := ⟨true, plan.permissions.write, plan.permissions.execute⟩
            let (result, table, phys) :=
              space.table.mapTo number ⟨frame, flags, false⟩ (phys.write frame content)
            let space := { space with table := table }
            if result = .mapped then (.resolved, space, phys)
            else (.busError, space, phys.deallocateFrame frame)

def ownedRanges (space : AddressSpace F) : List (Nat × Nat) :=
  space.addrSizeVec ++ space.heapRange ++
    (space.mm.mmapRegions.filter fun r => r.kind ≠ .shared).map (fun r => (r.base, r.len)) ++
    space.mm.elfRegions.map fun r => (r.base, r.len)

def sharedRanges (space : AddressSpace F) : List (Nat × Nat) :=
  (space.mm.mmapRegions.filter fun r => r.kind = .shared).map fun r => (r.base, r.len)

/-- `cleanup`: the pages of the process go back to the allocator, shared ones are only unmapped,
and last goes the root. -/
def cleanup (space : AddressSpace F) (phys : Phys P) : PageTable × Phys P :=
  let (table, phys) := space.table.deallocPages (space.ownedRanges.flatMap rangePages) phys
  (table.unmapUserPages (space.sharedRanges.flatMap rangePages),
    phys.deallocateFrame space.table.root)

def planned (mm : ProcMM F) (number : Nat) : Option (P × VmPermissions) :=
  (mm.pageFaultPlan (number * page)).bind fun plan =>
    (readFragments plan.fragments).map fun content => (content, plan.permissions)

/-- What a program sees of a page: its bytes and what it may do with them. -/
def view (space : AddressSpace F) (phys : Phys P) (number : Nat) : Option (P × VmPermissions) :=
  match space.table.translate number with
  | none => planned readFragments space.mm number
  | some leaf =>
    if leaf.flags.userAccessible then
      some (phys.content leaf.frame, ⟨true, leaf.flags.writable, leaf.flags.executable⟩)
    else none

variable {space parent : AddressSpace F} {phys phys' : Phys P} {number : Nat}

lemma view_of_none {readFragments : List (ElfPageFragment F) → Option P}
    (h : space.table.translate number = none) :
    space.view readFragments phys number = planned readFragments space.mm number := by
  rw [view, h]

lemma view_of_some {readFragments : List (ElfPageFragment F) → Option P}
    {leaf : Leaf} (h : space.table.translate number = some leaf) :
    space.view readFragments phys number =
      if leaf.flags.userAccessible then
        some (phys.content leaf.frame, ⟨true, leaf.flags.writable, leaf.flags.executable⟩)
      else none := by
  rw [view, h]

/-! ### The copy -/

/-- The page of a child made from a page of the parent: a shared page has the same frame, any
other a frame of its own with the same bytes.  `content` and `content'` are the memory before and
after. -/
structure Copied (parent : AddressSpace F) (grants : List Nat) (content content' : Nat → P)
    (number : Nat) (leaf leaf' : Leaf) : Prop where
  flags : leaf'.flags = leaf.flags
  shared : leaf'.shared = parent.mm.isSharedPage (number * page)
  same : leaf'.shared = true → leaf'.frame = leaf.frame
  own : leaf'.shared = false → leaf'.frame ∈ grants ∧ content' leaf'.frame = content leaf.frame

lemma rel_mono {α β : Type} {r s : α → β → Prop} {a : Option α} {b : Option β}
    (h : Option.Rel r a b) (hrs : ∀ x, a = some x → ∀ y, r x y → s x y) : Option.Rel s a b := by
  cases h with
  | some h => exact .some (hrs _ rfl _ h)
  | none => exact .none

/-- What the copy of some pages does to the child's page table and to memory. -/
structure Copies (parent : AddressSpace F) (pages : List Nat) (child child' : PageTable)
    (phys phys' : Phys P) : Prop where
  others : ∀ n, n ∉ pages → child'.translate n = child.translate n
  pages : ∀ n ∈ pages, Option.Rel (parent.Copied phys.grants phys.content phys'.content n)
    (parent.table.translate n) (child'.translate n)
  memory : ∀ f, f ∉ phys.grants → phys'.content f = phys.content f
  grants : phys'.grants <:+ phys.grants

lemma Copies.cons {pages : List Nat}
    {child child₁ child' : PageTable} {phys₁ : Phys P} {leaf leaf₁ : Leaf}
    (h : parent.Copies pages child₁ child' phys₁ phys') (hpages : number ∉ pages)
    (hparent : ∀ n leaf, parent.table.translate n = some leaf → leaf.frame ∉ phys.grants)
    (hleaf : parent.table.translate number = some leaf)
    (hmap : ∀ n, child₁.translate n = if n = number then some leaf₁ else child.translate n)
    (hgrants : phys₁.grants <:+ phys.grants)
    (hmemory : ∀ f, f ∉ phys.grants → phys₁.content f = phys.content f)
    (hfirst : parent.Copied phys.grants phys.content phys₁.content number leaf leaf₁)
    (hfresh : leaf₁.shared = false → leaf₁.frame ∉ phys₁.grants) :
    parent.Copies (number :: pages) child child' phys phys' where
  others n hn := by
    rw [mem_cons, not_or] at hn
    rw [h.others n hn.2, hmap, if_neg hn.1]
  pages n hn := by
    obtain rfl | hn := mem_cons.mp hn
    · rw [hleaf, h.others n hpages, hmap, if_pos rfl]
      refine .some { hfirst with own := fun hown => ?_ }
      rw [h.memory _ (hfresh hown)]
      exact hfirst.own hown
    · refine rel_mono (h.pages n hn) fun l hl l' hcopied => { hcopied with own := fun hown => ?_ }
      obtain ⟨hmem, hbytes⟩ := hcopied.own hown
      exact ⟨hgrants.subset hmem, hbytes.trans (hmemory _ (hparent n l hl))⟩
  memory f hf := by rw [h.memory f fun hmem => hf (hgrants.subset hmem), hmemory f hf]
  grants := h.grants.trans hgrants

lemma forkPages_ok [Zero P] {pages : List Nat} {child child' : PageTable}
    (h : parent.forkPages pages child phys = (true, child', phys'))
    (hpages : pages.Nodup) (hgrants : phys.grants.Nodup)
    (hchild : ∀ n ∈ pages, child.translate n = none)
    (hparent : ∀ n leaf, parent.table.translate n = some leaf → leaf.frame ∉ phys.grants) :
    parent.Copies pages child child' phys phys' := by
  induction pages generalizing child phys with
  | nil =>
    obtain ⟨-, rfl, rfl⟩ := h
    exact ⟨fun _ _ => rfl, nofun, fun _ _ => rfl, suffix_refl _⟩
  | cons number pages ih =>
    rw [nodup_cons] at hpages
    have hrest : ∀ n ∈ pages, child.translate n = none := fun n hn =>
      hchild n (mem_cons_of_mem _ hn)
    have hne : ∀ n ∈ pages, n ≠ number := fun n hn heq => hpages.1 (heq ▸ hn)
    rw [forkPages] at h
    cases hleaf : parent.table.translate number with
    | none =>
      rw [hleaf] at h
      have hcopies := ih h hpages.2 hgrants hrest hparent
      refine { hcopies with others := fun n hn => ?_, pages := fun n hn => ?_ }
      · exact hcopies.others n fun hmem => hn (mem_cons_of_mem _ hmem)
      · obtain rfl | hn := mem_cons.mp hn
        · rw [hleaf, hcopies.others n hpages.1, hchild n mem_cons_self]
          exact .none
        · exact hcopies.pages n hn
    | some leaf =>
      have hframe := hparent number leaf hleaf
      simp only [hleaf] at h
      split at h
      next hshared =>
        split at h
        next hmapped =>
          have hmap := translate_mapTo hmapped
          obtain ⟨-, hcontent, hsuffix, -⟩ := mapTo_fields child number
            ⟨leaf.frame, leaf.flags, true⟩ phys
          have hcopies := ih h hpages.2 (hgrants.sublist hsuffix.sublist)
            (fun n hn => by rw [hmap, if_neg (hne n hn), hrest n hn])
            (fun n l hl hmem => hparent n l hl (hsuffix.subset hmem))
          exact hcopies.cons hpages.1 hparent hleaf hmap hsuffix (fun f _ => congrFun hcontent f)
            ⟨rfl, hshared.symm, fun _ => rfl, nofun⟩ nofun
        · cases h
      next hshared =>
        cases hzeroed : phys.allocateZeroedFrame with
        | none => simp only [hzeroed, Prod.mk.injEq, Bool.false_eq_true, false_and] at h
        | some r =>
        obtain ⟨frame, phys₁⟩ := r
        obtain ⟨htaken, -, hzero⟩ := allocateZeroedFrame_eq_some hzeroed
        simp only [hzeroed] at h
        split at h
        next hmapped =>
          have hmap := translate_mapTo hmapped
          obtain ⟨-, hcontent, hsuffix, -⟩ := mapTo_fields child number
            ⟨frame, leaf.flags, false⟩ (phys₁.write frame (phys₁.content leaf.frame))
          generalize child.mapTo number ⟨frame, leaf.flags, false⟩
            (phys₁.write frame (phys₁.content leaf.frame)) = r at *
          have hsuffix' : r.2.2.grants <:+ phys.grants := by
            rw [htaken]
            exact hsuffix.trans (suffix_cons _ _)
          have htaken' : frame ∈ phys.grants := htaken ▸ mem_cons_self
          have hfresh : frame ∉ r.2.2.grants := fun hmem =>
            (nodup_cons.mp (htaken ▸ hgrants)).1 (hsuffix.subset hmem)
          have hbytes : r.2.2.content = update phys.content frame (phys.content leaf.frame) := by
            have hne : leaf.frame ≠ frame := fun heq => hframe (heq ▸ htaken')
            rw [hcontent, write_content, hzero, update_of_ne hne, update_idem]
          have hcopies := ih h hpages.2 (hgrants.sublist hsuffix'.sublist)
            (fun n hn => by rw [hmap, if_neg (hne n hn), hrest n hn])
            (fun n l hl hmem => hparent n l hl (hsuffix'.subset hmem))
          refine hcopies.cons hpages.1 hparent hleaf hmap hsuffix' (fun f hf => ?_)
            ⟨rfl, (Bool.eq_false_iff.mpr hshared).symm, nofun, fun _ => ⟨htaken', ?_⟩⟩ fun _ => hfresh
          · have hne : f ≠ frame := fun heq => hf (heq ▸ htaken')
            rw [hbytes, update_of_ne hne]
          · rw [hbytes, update_self]
        · cases h

lemma forkPages_keeps [Zero P] (parent : AddressSpace F) (pages : List Nat) (child : PageTable)
    (phys : Phys P) :
    child.Keeps phys (parent.forkPages pages child phys).2.1
      (parent.forkPages pages child phys).2.2 := by
  induction pages generalizing child phys with
  | nil => exact refl child phys
  | cons number pages ih =>
    rw [forkPages]
    cases hleaf : parent.table.translate number with
    | none => exact ih child phys
    | some leaf =>
    dsimp only
    split
    · have hshared : (Leaf.mk leaf.frame leaf.flags true).shared = true := rfl
      have hkeeps := child.mapTo_shared number hshared phys
      generalize child.mapTo number ⟨leaf.frame, leaf.flags, true⟩ phys = r at hkeeps ⊢
      split
      · exact hkeeps.trans (ih r.2.1 r.2.2)
      · exact hkeeps
    · cases hzeroed : phys.allocateZeroedFrame with
      | none => exact refl child phys
      | some r =>
      intro rest hout
      obtain ⟨frame, phys₁⟩ := r
      have hout₁ : (phys₁.write frame (phys₁.content leaf.frame)).out =
          child.frames + (frame ::ₘ rest) := by
        rw [write_out, (allocateZeroedFrame_eq_some hzeroed).2.1, hout, Multiset.add_cons]
      obtain ⟨hmapped, hreturned⟩ := child.mapTo_own number frame leaf.flags _ hout₁
      dsimp only
      generalize child.mapTo number ⟨frame, leaf.flags, false⟩ _ = r at hmapped hreturned ⊢
      split
      next hresult => exact ih r.2.1 r.2.2 rest (hmapped hresult)
      next hresult => exact hreturned hresult

lemma fork_out [Zero P]
    {child : Option (AddressSpace F)} (h : parent.fork phys = some (child, phys')) :
    ∃ table : PageTable, ∃ stack : List Nat,
      phys'.out = ↑stack + (table.frames + phys.out) ∧
      (child = none ∧ stack = [] ∨ child = some { parent with table := table } ∧ stack ≠ []) := by
  rw [fork] at h
  cases hroot : phys.allocateFrame with
  | none =>
    rw [hroot] at h
    cases h
  | some r =>
  obtain ⟨root, phys₁⟩ := r
  have hout₁ : phys₁.out = (new root).frames + phys.out := by
    rw [(allocateFrame_eq_some hroot).2.1]
    rfl
  have hkeeps := parent.forkPages_keeps parent.pagesToCopy (.new root) phys₁ phys.out hout₁
  simp only [hroot] at h
  generalize parent.forkPages parent.pagesToCopy (.new root) phys₁ = r at hkeeps h
  obtain ⟨ok, table, phys₂⟩ := r
  cases ok with
  | false =>
    obtain ⟨rfl, rfl⟩ := Prod.mk.inj (Option.some.inj h)
    exact ⟨table, [], by rw [hkeeps, Multiset.coe_nil, zero_add], Or.inl ⟨rfl, rfl⟩⟩
  | true =>
    simp only [allocateSwitchStack, Option.map_eq_some_iff] at h
    obtain ⟨phys₃, hstack, heq⟩ := h
    split at hstack
    · cases hstack
    next hgrants =>
    obtain rfl := Option.some.inj hstack
    obtain ⟨rfl, rfl⟩ := Prod.mk.inj heq
    refine ⟨table, phys₂.grants.take 4, by rw [← hkeeps]; rfl, Or.inr ⟨rfl, ?_⟩⟩
    simpa using hgrants

lemma mem_pagesToCopy :
    number ∈ space.pagesToCopy ↔ ∃ range ∈ space.regionsToCopy, number ∈ copyPages range := by
  rw [pagesToCopy, mem_insertionSort, mem_dedup, mem_flatMap]

lemma pagesToCopy_nodup (space : AddressSpace F) : space.pagesToCopy.Nodup :=
  (perm_insertionSort _ _).nodup_iff.mpr (nodup_dedup _)

lemma mem_copyPages {base len : Nat} (hlen : 0 < len)
    (hstart : base < number * page + page) (hstop : number * page < saturatingAdd base len) :
    number ∈ copyPages (base, len) := by
  have hfirst : base / page ≤ number := by
    rw [page] at *
    omega
  have hlast : number ≤ (saturatingAdd base len - 1) / page := by
    rw [page] at *
    omega
  rw [copyPages, if_neg hlen.ne', mem_range'_1]
  dsimp only
  omega

lemma mem_pagesToCopy_of_plan {plan : PageFaultPlan F}
    (hregions : ∀ r ∈ space.mm.elfRegions, 0 < r.len)
    (h : space.mm.pageFaultPlan (number * page) = some plan) : number ∈ space.pagesToCopy := by
  rw [mem_pagesToCopy]
  rw [ProcMM.pageFaultPlan] at h
  split at h
  next r hfind =>
    have hr := mem_of_find?_eq_some hfind
    have hhas := find?_some hfind
    rw [decide_eq_true_iff] at hhas
    obtain ⟨-, hbase, hstop⟩ := hhas
    rw [MmapRegion.stop] at hstop
    have hmem : (r.base, r.len) ∈ space.regionsToCopy :=
      mem_append_left _ (mem_append_right _ (mem_map_of_mem hr))
    have hlen : 0 < r.len := by
      rw [saturatingAdd] at hstop
      omega
    exact ⟨_, hmem, mem_copyPages hlen (hbase.trans_lt (Nat.lt_add_of_pos_right (by decide))) hstop⟩
  · by_cases hmeets : ∃ r ∈ space.mm.elfRegions, r.Meets (number * page)
    · obtain ⟨r, hr, hstop, hstart⟩ := hmeets
      exact ⟨_, mem_append_right _ (mem_map_of_mem hr), mem_copyPages (hregions r hr) hstart hstop⟩
    have hskip : ElfRegion.plan (number * page) (number * page + page) space.mm.elfRegions .none []
        false = some (.none, [], false) :=
      plan_skip_all fun r hr h => hmeets ⟨r, hr, h⟩
    simp only [checkedAdd] at h
    split at h
    · cases h
    next stop hstop =>
    split at hstop
    next =>
      obtain rfl := Option.some.inj hstop
      rw [hskip] at h
      cases h
    · cases hstop

/-- The child has the ranges of the parent and a copy of each page in them that is resident. -/
lemma fork_ok [Zero P] {child : AddressSpace F}
    (h : parent.fork phys = some (some child, phys')) (hgrants : phys.grants.Nodup)
    (hparent : ∀ n leaf, parent.table.translate n = some leaf → leaf.frame ∉ phys.grants) :
    child = { parent with table := child.table } ∧
      (∀ n, n ∉ parent.pagesToCopy → child.table.translate n = none) ∧
      (∀ n ∈ parent.pagesToCopy,
        Option.Rel (parent.Copied phys.grants phys.content phys'.content n)
          (parent.table.translate n) (child.table.translate n)) ∧
      ∀ f, f ∉ phys.grants → phys'.content f = phys.content f := by
  rw [fork] at h
  cases hroot : phys.allocateFrame with
  | none =>
    rw [hroot] at h
    cases h
  | some r =>
  obtain ⟨root, phys₁⟩ := r
  obtain ⟨htaken, -, hcontent⟩ := allocateFrame_eq_some hroot
  have hsuffix : phys₁.grants <:+ phys.grants := htaken ▸ suffix_cons _ _
  simp only [hroot] at h
  cases hpages : parent.forkPages parent.pagesToCopy (.new root) phys₁ with
  | mk ok r =>
  rw [hpages] at h
  cases ok with
  | false => cases h
  | true =>
  have hcopies := forkPages_ok hpages (pagesToCopy_nodup parent) (hgrants.sublist hsuffix.sublist)
    (fun _ _ => rfl) fun n leaf hleaf hmem => hparent n leaf hleaf (hsuffix.subset hmem)
  simp only [allocateSwitchStack, Option.map_eq_some_iff] at h
  obtain ⟨phys₃, hstack, heq⟩ := h
  split at hstack
  · cases hstack
  obtain rfl := Option.some.inj hstack
  obtain ⟨hchild, rfl⟩ := Prod.mk.inj heq
  obtain rfl := Option.some.inj hchild
  refine ⟨rfl, hcopies.others, fun n hn => rel_mono (hcopies.pages n hn) fun l hl l' hcopied =>
    { hcopied with own := fun hown => ?_ }, fun f hf => ?_⟩
  · obtain ⟨hmem, hbytes⟩ := hcopied.own hown
    exact ⟨hsuffix.subset hmem, hcontent ▸ hbytes⟩
  · exact (hcopies.memory f fun hmem => hf (hsuffix.subset hmem)).trans (congrFun hcontent f)

/-! ### Faults -/

lemma resolvePageFault_fields [Zero P]
    (space : AddressSpace F) (number : Nat) (write execute : Bool) (phys : Phys P) :
    let r := space.resolvePageFault readFragments number write execute phys
    r.2.1.mm = space.mm ∧ (∀ f, f ∉ phys.grants → r.2.2.content f = phys.content f) ∧
      ∀ n, r.2.1.table.translate n = space.table.translate n ∨
        n = number ∧ ∃ leaf, r.2.1.table.translate n = some leaf ∧ leaf.frame ∈ phys.grants ∧
          ∃ plan, space.mm.pageFaultPlan (n * page) = some plan ∧
            plan.permissions.allows write execute = true ∧
            readFragments plan.fragments = some (r.2.2.content leaf.frame) := by
  rw [resolvePageFault]
  split
  · exact ⟨rfl, fun _ _ => rfl, fun _ => Or.inl rfl⟩
  cases hplan : space.mm.pageFaultPlan (number * page) with
  | none => exact ⟨rfl, fun _ _ => rfl, fun _ => Or.inl rfl⟩
  | some plan =>
  dsimp only
  split
  · exact ⟨rfl, fun _ _ => rfl, fun _ => Or.inl rfl⟩
  next hallowed =>
  cases hzeroed : phys.allocateZeroedFrame with
  | none => exact ⟨rfl, fun _ _ => rfl, fun _ => Or.inl rfl⟩
  | some r =>
  obtain ⟨frame, phys₁⟩ := r
  obtain ⟨htaken, -, hzero⟩ := allocateZeroedFrame_eq_some hzeroed
  have hframe : frame ∈ phys.grants := htaken ▸ mem_cons_self
  have hkept : ∀ f, f ∉ phys.grants → phys₁.content f = phys.content f := by
    intro f hf
    have hne : f ≠ frame := fun heq => hf (heq ▸ hframe)
    rw [hzero, update_of_ne hne]
  cases hread : readFragments plan.fragments with
  | none => exact ⟨rfl, hkept, fun _ => Or.inl rfl⟩
  | some content =>
  dsimp only
  have hmap := @PageTable.translate_mapTo P space.table number
    ⟨frame, ⟨true, plan.permissions.write, plan.permissions.execute⟩, false⟩
    (phys₁.write frame content)
  obtain ⟨-, hcontent, -, hleaves⟩ := mapTo_fields space.table number
    ⟨frame, ⟨true, plan.permissions.write, plan.permissions.execute⟩, false⟩
    (phys₁.write frame content)
  generalize space.table.mapTo number _ (phys₁.write frame content) = r at *
  have hkept' : ∀ f, f ∉ phys.grants → r.2.2.content f = phys.content f := by
    intro f hf
    have hne : f ≠ frame := fun heq => hf (heq ▸ hframe)
    rw [hcontent, write_content, update_of_ne hne, hkept f hf]
  split
  next hmapped =>
    refine ⟨rfl, hkept', fun n => ?_⟩
    by_cases hn : n = number
    · refine Or.inr ⟨hn, _, (hmap hmapped n).trans (if_pos hn), hframe, plan, hn ▸ hplan,
        by simpa using hallowed, ?_⟩
      rw [hread, hcontent, write_content, update_self]
    · exact Or.inl ((hmap hmapped n).trans (if_neg hn))
  next hmapped =>
    refine ⟨rfl, hkept', fun n => Or.inl ?_⟩
    rw [if_neg hmapped] at hleaves
    exact congrArg (lookup n) hleaves

lemma resolvePageFault_keeps [Zero P]
    (space : AddressSpace F) (number : Nat) (write execute : Bool) (phys : Phys P) :
    let r := space.resolvePageFault readFragments number write execute phys
    space.table.Keeps phys r.2.1.table r.2.2 := by
  intro r rest hout
  subst r
  rw [resolvePageFault]
  split
  · exact hout
  cases space.mm.pageFaultPlan (number * page) with
  | none => exact hout
  | some plan =>
  dsimp only
  split
  · exact hout
  cases hzeroed : phys.allocateZeroedFrame with
  | none => exact hout
  | some r =>
  obtain ⟨frame, phys₁⟩ := r
  have hout₁ : phys₁.out = space.table.frames + (frame ::ₘ rest) := by
    rw [(allocateZeroedFrame_eq_some hzeroed).2.1, hout, Multiset.add_cons]
  cases readFragments plan.fragments with
  | none =>
    show phys₁.out.erase frame = _
    rw [hout₁, Multiset.add_cons, Multiset.erase_cons_head]
  | some content =>
  obtain ⟨hmapped, hreturned⟩ := space.table.mapTo_own number frame
    ⟨true, plan.permissions.write, plan.permissions.execute⟩ (phys₁.write frame content) hout₁
  dsimp only
  split
  next hresult => exact hmapped hresult
  next hresult => exact hreturned hresult

end AddressSpace

end Twilight.Memory

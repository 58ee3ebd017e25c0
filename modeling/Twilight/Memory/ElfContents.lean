/-
The bytes of a demand-paged image.

A fault fills a page of zeros with the file parts of all regions on the page, one over the other.
A region's file part starts with the page, in front of its segment, so that it can lie over bytes
of another segment on the page.  This file follows the faults of a process and says for which files
the pages come out as the program headers want them.
-/
import Twilight.Lib.Machine
import Twilight.Memory.AddressSpace
import Twilight.Memory.Segments

namespace Twilight.Memory

open List Option Bytes Elf64Phdr

variable {F : Type}

/-! ## Reading a page -/

variable (readExact : F → Nat → Nat → Option (List UInt8)) (fragments : List (ElfPageFragment F))

/-- The loop of `resolve_page_fault` over the fragments of a plan, on a page of zeros. -/
def readFragments : Option Bytes :=
  fragments.foldlM (fun frame fragment =>
    (readExact fragment.file fragment.fileOffset fragment.len).map fun data =>
      frame.splice fragment.pageOffset fragment.len (Bytes.ofList data)) Bytes.zero

/-- A read may fail, but what it reads is in the file. -/
def ReadsFrom (bytes : F → Bytes) (readExact : F → Nat → Nat → Option (List UInt8)) : Prop :=
  ∀ file offset len data, readExact file offset len = some data →
    data = (bytes file).slice offset len

def shownAt (bytes : F → Bytes) (fragments : List (ElfPageFragment F)) (o : Nat) : UInt8 :=
  ((contents fragments o).map fun b => bytes b.1 b.2).getD 0

lemma readFragments_append_singleton (f : ElfPageFragment F) :
    readFragments readExact (fragments ++ [f]) =
      (readFragments readExact fragments).bind fun frame =>
        (readExact f.file f.fileOffset f.len).map fun data =>
          frame.splice f.pageOffset f.len (Bytes.ofList data) := by
  rw [readFragments, foldlM_append]
  simp only [foldlM_cons, foldlM_nil, bind_eq_bind, Option.pure_def, bind_fun_some]
  rfl

variable {bytes : F → Bytes}

lemma readFragments_shown
    {readExact : F → Nat → Nat → Option (List UInt8)} (hreads : ReadsFrom bytes readExact)
    {fragments : List (ElfPageFragment F)} {frame : Bytes}
    (h : readFragments readExact fragments = some frame) (o : Nat) :
    frame o = shownAt bytes fragments o := by
  induction fragments using List.reverseRecOn generalizing frame with
  | nil =>
    obtain rfl := Option.some.inj h
    rfl
  | append_singleton fragments f ih =>
    rw [readFragments_append_singleton, bind_eq_some_iff] at h
    obtain ⟨before, hbefore, h⟩ := h
    obtain ⟨data, hdata, rfl⟩ := map_eq_some_iff.mp h
    rw [shownAt, contents, lastBy_append_singleton]
    by_cases hin : f.pageOffset ≤ o ∧ o < f.pageOffset + f.len
    · have hat : o - f.pageOffset < ((bytes f.file).slice f.fileOffset f.len).length := by
        rw [length_slice]
        omega
      rw [if_pos hin, splice_inside hin.1 hin.2, hreads _ _ _ _ hdata, Bytes.ofList,
        getD_eq_getElem _ _ hat, getElem_slice]
      rfl
    · rw [if_neg hin, splice_outside (by omega), ih hbefore]
      rfl

lemma readFragments_isSome {readExact : F → Nat → Nat → Option (List UInt8)}
    (h : ∀ file offset len, (readExact file offset len).isSome = true)
    (fragments : List (ElfPageFragment F)) :
    (readFragments readExact fragments).isSome = true := by
  induction fragments using List.reverseRecOn with
  | nil => rfl
  | append_singleton fragments f ih =>
    obtain ⟨frame, hframe⟩ := isSome_iff_exists.mp ih
    obtain ⟨data, hdata⟩ := isSome_iff_exists.mp (h f.file f.fileOffset f.len)
    rw [readFragments_append_singleton, hframe, hdata]
    rfl

/-! ## Faults -/

instance : Zero Bytes := ⟨Bytes.zero⟩

/-- A page fault: the page and the access, the frames that the allocator has at that moment, and
what the files give to read. -/
structure Fault (F : Type) where
  number : Nat
  write : Bool
  execute : Bool
  grants : List Nat
  readExact : F → Nat → Nat → Option (List UInt8)

namespace Fault

def resolve (fault : Fault F) (s : AddressSpace F × Phys Bytes) :
    PageFaultResolution × AddressSpace F × Phys Bytes :=
  s.1.resolvePageFault (readFragments fault.readExact) fault.number fault.write fault.execute
    { s.2 with grants := fault.grants }

def step (s : AddressSpace F × Phys Bytes) (fault : Fault F) : AddressSpace F × Phys Bytes :=
  (fault.resolve s).2

/-- The allocator hands out no frame of a mapped page, and reads give what is in the files. -/
structure Fair (bytes : F → Bytes) (s : AddressSpace F × Phys Bytes) (fault : Fault F) : Prop where
  grants : ∀ n leaf, s.1.table.translate n = some leaf → leaf.frame ∉ fault.grants
  reads : ReadsFrom bytes fault.readExact

end Fault

lemma AddressSpace.resolvePageFault_resolved {P : Type} [Zero P]
    {readFragments : List (ElfPageFragment F) → Option P} {space : AddressSpace F}
    {number : Nat} {write execute : Bool} {phys : Phys P} {plan : PageFaultPlan F}
    (hnone : space.table.translate number = none)
    (hplan : space.mm.pageFaultPlan (number * page) = some plan)
    (hallowed : plan.permissions.allows write execute = true)
    (hread : (readFragments plan.fragments).isSome = true) (hgrants : 4 ≤ phys.grants.length) :
    (space.resolvePageFault readFragments number write execute phys).1 = .resolved ∧
      ((space.resolvePageFault readFragments number write execute phys).2.1.table.translate
        number).isSome = true := by
  obtain ⟨content, hcontent⟩ := isSome_iff_exists.mp hread
  obtain ⟨frame, phys₁, hzeroed⟩ : ∃ frame phys₁, phys.allocateZeroedFrame = some (frame, phys₁) := by
    cases hframe : phys.allocateFrame with
    | none =>
      rw [Phys.allocateFrame_eq_none] at hframe
      simp [hframe] at hgrants
    | some r => exact ⟨_, _, by rw [Phys.allocateZeroedFrame, hframe]; rfl⟩
  have hlength : 3 ≤ (phys₁.write frame content).grants.length := by
    rw [(Phys.allocateZeroedFrame_eq_some hzeroed).1] at hgrants
    exact Nat.le_of_succ_le_succ hgrants
  have hmapped := PageTable.mapTo_mapped hnone
    ⟨frame, ⟨true, plan.permissions.write, plan.permissions.execute⟩, false⟩ hlength
  have htranslate := PageTable.translate_mapTo hmapped number
  rw [resolvePageFault, if_neg (by rw [hnone]; decide), hplan]
  simp only [hallowed, Bool.not_true, Bool.false_eq_true, if_false, hzeroed, hcontent, hmapped,
    if_true, htranslate, isSome_some, and_self]

lemma Fault.step_mapped {fault : Fault F} {s : AddressSpace F × Phys Bytes}
    {plan : PageFaultPlan F} (hnone : s.1.table.translate fault.number = none)
    (hplan : s.1.mm.pageFaultPlan (fault.number * page) = some plan)
    (hallowed : plan.permissions.allows fault.write fault.execute = true)
    (hread : ∀ file offset len, (fault.readExact file offset len).isSome = true)
    (hgrants : 4 ≤ fault.grants.length) :
    ∃ leaf, (Fault.step s fault).1.table.translate fault.number = some leaf :=
  isSome_iff_exists.mp (AddressSpace.resolvePageFault_resolved hnone hplan hallowed
    (readFragments_isSome hread plan.fragments) hgrants).2

/-- What the faults of a run have brought in: every page that was not mapped at the start shows
what its plan says. -/
structure Demanded (bytes : F → Bytes) (start : AddressSpace F) (s : AddressSpace F × Phys Bytes) :
    Prop where
  mm : s.1.mm = start.mm
  pages : ∀ n leaf, s.1.table.translate n = some leaf → start.table.translate n = none →
    ∃ plan, start.mm.pageFaultPlan (n * page) = some plan ∧
      (∃ write execute, plan.permissions.allows write execute = true) ∧
      ∀ o, s.2.content leaf.frame o = shownAt bytes plan.fragments o

lemma Demanded.start (bytes : F → Bytes) (space : AddressSpace F) (phys : Phys Bytes) :
    Demanded bytes space (space, phys) := by
  refine ⟨rfl, fun n leaf hleaf hnone => ?_⟩
  rw [hnone] at hleaf
  cases hleaf

lemma Demanded.step {start : AddressSpace F}
    {s : AddressSpace F × Phys Bytes} {fault : Fault F} (h : Demanded bytes start s)
    (hfair : fault.Fair bytes s) : Demanded bytes start (Fault.step s fault) := by
  obtain ⟨hmm, hmemory, htable⟩ := s.1.resolvePageFault_fields (readFragments fault.readExact)
    fault.number fault.write fault.execute { s.2 with grants := fault.grants }
  refine ⟨hmm.trans h.mm, fun n leaf hleaf hnone => ?_⟩
  obtain hsame | ⟨-, leaf', hleaf', -, plan, hplan, hallowed, hread⟩ := htable n
  · have hold := hsame.symm.trans hleaf
    obtain ⟨plan, hplan, hallowed, hshown⟩ := h.pages n leaf hold hnone
    refine ⟨plan, hplan, hallowed, fun o => ?_⟩
    rw [← hshown o]
    exact congrFun (hmemory leaf.frame (hfair.grants n leaf hold)) o
  · obtain rfl := Option.some.inj (hleaf'.symm.trans hleaf)
    rw [h.mm] at hplan
    exact ⟨plan, hplan, ⟨_, _, hallowed⟩, readFragments_shown hfair.reads hread⟩

lemma Demanded.run {start : AddressSpace F} {phys : Phys Bytes} {faults : List (Fault F)}
    (h : Machine.Meets Fault.step (Fault.Fair bytes) (start, phys) faults) :
    Demanded bytes start (faults.foldl Fault.step (start, phys)) :=
  (Machine.always_of_meets (Demanded bytes start) (fun _ h => h) (fun _ _ h hfair => h.step hfair)
    (.start bytes start phys) h).foldl

/-! ## Segments -/

namespace Elf64Phdr

variable (bias : Nat) (ph : Elf64Phdr) (a : Nat)

def start : Nat := bias + ph.pVaddr

def Has : Prop := ph.start bias ≤ a ∧ a < ph.start bias + ph.pMemsz

def HasFile : Prop := ph.start bias ≤ a ∧ a < ph.start bias + ph.pFilesz

/-- The address is in front of the segment, on the page where it starts. -/
def Pads : Prop := alignDownU64 (ph.start bias) ≤ a ∧ a < ph.start bias

def OnPage : Prop := ph.start bias / page ≤ a / page ∧ a / page * page < ph.start bias + ph.pMemsz

def Accessible : Prop := ph.pFlags &&& 4 ≠ 0 ∨ ph.pFlags &&& 2 ≠ 0 ∨ ph.pFlags &&& 1 ≠ 0

/-- The offset in the file of the byte that the segment's region has at the address. -/
def offsetAt : Nat := alignDownU64 ph.pOffset + (a - alignDownU64 (ph.start bias))

def prescribed (content : Bytes) : UInt8 :=
  if a < ph.start bias + ph.pFilesz then content (ph.pOffset + (a - ph.start bias)) else 0

instance : Decidable (ph.HasFile bias a) := inferInstanceAs (Decidable (_ ∧ _))

instance : Decidable (ph.Pads bias a) := inferInstanceAs (Decidable (_ ∧ _))

end Elf64Phdr

def Canonical (a : Nat) : Prop := a < 2 ^ 47 ∨ 2 ^ 64 - 2 ^ 47 ≤ a

namespace ExecFile

variable (bias : Nat) (phs : List Elf64Phdr)

def DisjointSegments : Prop :=
  (phs.filter fun ph => ph.Loads).Pairwise fun ph q =>
    ph.start bias + ph.pMemsz ≤ q.start bias ∨ q.start bias + q.pMemsz ≤ ph.start bias

/-- A process that runs the file and has nothing else mapped on demand. -/
structure Runs (space : AddressSpace F) (regions : List (ElfRegion F)) : Prop where
  regions : space.mm.elfRegions = regions
  mmaps : space.mm.mmapRegions = []

/-- Whatever faults a process has, in whatever order, the pages that they bring in have the bytes
that the program headers prescribe. -/
def AsPrescribed (file : ExecFile F) (dynBaseHint : Nat) (captureInterp : Bool)
    (bytes : F → Bytes) : Prop :=
  ∀ image regions eh phs, file.loadElfImage dynBaseHint captureInterp = some (image, regions) →
    file.headers = some (eh, phs) → DisjointSegments image.loadBase phs →
    ∀ space phys faults, Runs space regions →
      Machine.Meets Fault.step (Fault.Fair bytes) (space, phys) faults →
      ∀ ph ∈ phs, ph.Loads → ∀ a, Canonical a → ph.Has image.loadBase a →
        space.table.translate (a / page) = none →
        ∀ leaf, (faults.foldl Fault.step (space, phys)).1.table.translate (a / page) = some leaf →
          (faults.foldl Fault.step (space, phys)).2.content leaf.frame (a % page) =
            ph.prescribed image.loadBase a (bytes file.file)

/-- At an address of the segment, bytes from in front of another segment are hidden again by a later
one, or they are those that the header prescribes. -/
def SparedAt (segments : List Elf64Phdr) (content : Bytes) (ph : Elf64Phdr) (a : Nat) :
    Prop :=
  ∀ pre q post, segments = pre ++ q :: post → q.Pads bias a →
    (∃ q' ∈ post, q'.HasFile bias a ∨ q'.Pads bias a) ∨
      ph.prescribed bias a content = content (q.offsetAt bias a)

/-- No byte of a segment is spoiled by the bytes from in front of another one on the same page, if
the page can be accessed at all. -/
def Unspoiled (content : Bytes) : Prop :=
  ∀ ph ∈ phs, ph.Loads → ∀ a, Canonical a → ph.Has bias a →
    (∃ q ∈ phs, q.Loads ∧ q.OnPage bias a ∧ q.Accessible) →
    SparedAt bias (phs.filter fun ph => ph.Loads) content ph a

section Segments

variable {file : ExecFile F} {bias a : Nat} {ph : Elf64Phdr}

section

variable (hok : file.SegmentOk bias ph)
include hok

lemma segmentRegion_stop :
    (segmentRegion file.file bias ph).stop =
      alignDownU64 (bias + ph.pVaddr + ph.pMemsz + (page - 1)) := by
  have hspace := hok.inSpace
  simp only [ElfRegion.stop, segmentRegion, saturatingAdd, alignDownU64, page] at *
  omega

lemma segmentRegion_fits :
    (segmentRegion file.file bias ph).Fits := by
  obtain ⟨hsizes, hinFile, hspace, haligned⟩ := hok
  simp only [ElfRegion.Fits, segmentRegion, alignDownU64, page] at *
  omega

lemma segmentRegion_backed_iff :
    (segmentRegion file.file bias ph).Backed a ↔ ph.HasFile bias a ∨ ph.Pads bias a := by
  have hstop := segmentRegion_stop hok
  obtain ⟨hsizes, -, hspace, -⟩ := hok
  rw [ElfRegion.Backed]
  simp only [segmentRegion, HasFile, Pads, start, alignDownU64,
    page] at *
  omega

lemma segmentRegion_meets_iff :
    (segmentRegion file.file bias ph).Meets (a / page * page) ↔ ph.OnPage bias a := by
  have hstop := segmentRegion_stop hok
  rw [ElfRegion.Meets]
  simp only [segmentRegion, OnPage, start, alignDownU64, page] at *
  omega

lemma offsetAt_eq (ha : ph.start bias ≤ a) :
    ph.offsetAt bias a = ph.pOffset + (a - ph.start bias) := by
  have haligned := hok.aligned
  simp only [offsetAt, start, alignDownU64, page] at *
  omega

end

lemma accessible_iff (file : F) : ph.Accessible ↔ ∃ write execute,
    (segmentRegion file bias ph).permissions.allows write execute = true := by
  simp only [Accessible, VmPermissions.allows, segmentRegion]
  simp
  tauto

end Segments

/-! ## What a page shows -/

lemma permissionsAt_allows (p : Nat) (regions : List (ElfRegion F)) (write execute : Bool) :
    (permissionsAt p regions).allows write execute = true ↔
      ∃ r ∈ regions, r.Meets p ∧ r.permissions.allows write execute = true := by
  induction regions using List.reverseRecOn with
  | nil => cases write <;> cases execute <;> simp [permissionsAt, VmPermissions.none, VmPermissions.allows]
  | append_singleton regions r ih =>
    have hunion : ∀ p q : VmPermissions, (p.union q).allows write execute =
        (p.allows write execute || q.allows write execute) := by
      intro p q
      cases write <;> cases execute <;> rfl
    rw [permissionsAt, foldl_append]
    show (if r.Meets p then (permissionsAt p regions).union r.permissions
      else permissionsAt p regions).allows write execute = true ↔ _
    split
    · next hmeets => simp [hunion, ih, hmeets]
    · next hmeets => simp [ih, hmeets]

section Pages

variable {file : ExecFile F} {bias a : Nat} {phs : List Elf64Phdr} {ph : Elf64Phdr}

variable {segments : List Elf64Phdr}

lemma exists_plan {space : AddressSpace F}
    (hruns : Runs space (segments.map (segmentRegion file.file bias)))
    (hok : ∀ q ∈ segments, file.SegmentOk bias q) (hph : ph ∈ segments) (ha : ph.Has bias a) :
    ∃ plan, space.mm.pageFaultPlan (a / page * page) = some plan ∧
      plan.permissions =
        permissionsAt (a / page * page) (segments.map (segmentRegion file.file bias)) ∧
      ∀ o < page, contents plan.fragments o =
        visible (segments.map (segmentRegion file.file bias)) (a / page * page + o) := by
  have hfits : ∀ r ∈ segments.map (segmentRegion file.file bias), r.Fits :=
    forall_mem_map.mpr fun q hq => segmentRegion_fits (hok q hq)
  have honPage : ph.OnPage bias a := by
    simp only [OnPage, Has, page] at *
    omega
  have hend : a / page * page + page < 2 ^ 64 := by
    have hspace := (hok ph hph).inSpace
    simp only [Has, start, page] at *
    omega
  have hanonymous : ¬ space.mm.Anonymous (a / page * page) := by
    rintro ⟨r, hr, -⟩
    rw [hruns.mmaps] at hr
    cases hr
  have hmeets : ((segments.map (segmentRegion file.file bias)).any
      fun r => decide (r.Meets (a / page * page))) = true := by
    rw [List.any_eq_true]
    exact ⟨_, List.mem_map_of_mem hph,
      decide_eq_true ((segmentRegion_meets_iff (hok ph hph)).mpr honPage)⟩
  obtain ⟨fragments, hplan, hcontents⟩ := plan_shows (a / page * page) hfits
  refine ⟨⟨permissionsAt _ _, fragments⟩, ?_, rfl, hcontents⟩
  rw [ProcMM.pageFaultPlan_elf hanonymous, checkedAdd, if_pos hend, bind_some, hruns.regions,
    hplan, hmeets]

lemma visible_segments (hok : ∀ q ∈ segments, file.SegmentOk bias q) (bytes : F → Bytes) :
    (visible (segments.map (segmentRegion file.file bias)) a).map (fun b => bytes b.1 b.2) =
      lastBy (fun q => q.HasFile bias a ∨ q.Pads bias a)
        (fun q => bytes file.file (q.offsetAt bias a)) segments := by
  rw [visible, lastBy_map, map_lastBy]
  exact lastBy_congr fun q hq => segmentRegion_backed_iff (hok q hq)

section

variable (hdisjoint : segments.Pairwise fun ph q => ph.start bias + ph.pMemsz ≤ q.start bias ∨ q.start bias + q.pMemsz ≤ ph.start bias)
include hdisjoint

lemma lastBy_hasFile
    (hok : ∀ q ∈ segments, file.SegmentOk bias q) (hph : ph ∈ segments) (ha : ph.Has bias a)
    (content : Bytes) :
    (lastBy (fun q => q.HasFile bias a) (fun q => content (q.offsetAt bias a)) segments).getD 0 =
      ph.prescribed bias a content := by
  obtain ⟨pre, post, rfl⟩ := append_of_mem hph
  have hothers : ∀ q, q ∈ pre ∨ q ∈ post → ¬ q.HasFile bias a := by
    intro q hq hfile
    have hsizes : q.pFilesz ≤ q.pMemsz := (hok q (by simp; tauto)).sizes
    rw [pairwise_append, pairwise_cons] at hdisjoint
    have hapart : q.start bias + q.pMemsz ≤ ph.start bias ∨
        ph.start bias + ph.pMemsz ≤ q.start bias := by
      obtain hq | hq := hq
      · exact hdisjoint.2.2 q hq ph mem_cons_self
      · exact (hdisjoint.2.1.1 q hq).symm
    unfold HasFile at hfile
    unfold Has at ha
    omega
  rw [prescribed]
  by_cases hfile : ph.HasFile bias a
  · have hlater : ∀ q ∈ post, ¬ q.HasFile bias a := fun q hq => hothers q (Or.inr hq)
    have hlast : lastBy (fun q => q.HasFile bias a) (fun q => content (q.offsetAt bias a))
        (pre ++ ph :: post) = some (content (ph.offsetAt bias a)) := lastBy_eq_of_last hfile hlater
    rw [hlast, if_pos hfile.2, offsetAt_eq (hok ph hph) ha.1]
    rfl
  · have hnone : ∀ q ∈ pre ++ ph :: post, ¬ q.HasFile bias a := by
      intro q hq
      rw [mem_append, mem_cons] at hq
      obtain hq | rfl | hq := hq
      · exact hothers q (Or.inl hq)
      · exact hfile
      · exact hothers q (Or.inr hq)
    rw [lastBy_eq_none hnone, if_neg fun hlt => hfile ⟨ha.1, hlt⟩]
    rfl

lemma shownAt_iff
    (hok : ∀ q ∈ segments, file.SegmentOk bias q) (hph : ph ∈ segments) (ha : ph.Has bias a)
    {plan : PageFaultPlan F} (bytes : F → Bytes) (hplan : ∀ o < page, contents plan.fragments o =
      visible (segments.map (segmentRegion file.file bias)) (a / page * page + o)) :
    shownAt bytes plan.fragments (a % page) = ph.prescribed bias a (bytes file.file) ↔
      SparedAt bias segments (bytes file.file) ph a := by
  have hat : a / page * page + a % page = a := by
    rw [Nat.mul_comm]
    exact Nat.div_add_mod a page
  have hprescribed := lastBy_hasFile hdisjoint hok hph ha (bytes file.file)
  rw [shownAt, hplan _ (Nat.mod_lt a (by decide)), hat, visible_segments hok, SparedAt, ← hprescribed]
  exact lastBy_or_congr_iff (fun shown => shown.getD 0) segments

end

lemma exists_allowed_iff (hok : ∀ q ∈ segments, file.SegmentOk bias q) :
    (∃ write execute, (permissionsAt (a / page * page)
      (segments.map (segmentRegion file.file bias))).allows write execute = true) ↔
      ∃ q ∈ segments, q.OnPage bias a ∧ q.Accessible := by
  simp only [permissionsAt_allows, List.mem_map]
  constructor
  · rintro ⟨write, execute, -, ⟨q, hq, rfl⟩, hmeets, hallowed⟩
    exact ⟨q, hq, (segmentRegion_meets_iff (hok q hq)).mp hmeets,
      (accessible_iff file.file).mpr ⟨write, execute, hallowed⟩⟩
  · rintro ⟨q, hq, honPage, haccessible⟩
    obtain ⟨write, execute, hallowed⟩ := (accessible_iff file.file).mp haccessible
    exact ⟨write, execute, _, ⟨q, hq, rfl⟩, (segmentRegion_meets_iff (hok q hq)).mpr honPage,
      hallowed⟩

lemma exists_fresh (regions : List (ElfRegion F)) :
    ∃ space : AddressSpace F, Runs space regions ∧ ∀ n, space.table.translate n = none :=
  ⟨⟨.new 0, [], 0, ⟨0, 0, [], regions⟩⟩, ⟨rfl, rfl⟩, fun _ => rfl⟩

lemma exists_fault {s : AddressSpace F × Phys Bytes} (hempty : ∀ n, s.1.table.translate n = none)
    (bytes : F → Bytes) {number : Nat} {plan : PageFaultPlan F}
    (hplan : s.1.mm.pageFaultPlan (number * page) = some plan)
    (hallowed : ∃ write execute, plan.permissions.allows write execute = true) :
    ∃ fault : Fault F, fault.Fair bytes s ∧
      ∃ leaf, (Fault.step s fault).1.table.translate number = some leaf := by
  obtain ⟨write, execute, hallowed⟩ := hallowed
  refine ⟨⟨number, write, execute, [1, 2, 3, 4],
    fun f offset len => some ((bytes f).slice offset len)⟩, ⟨fun n leaf hleaf => ?_, ?_⟩, ?_⟩
  · rw [hempty n] at hleaf
    cases hleaf
  · intro f offset len data h
    exact (Option.some.inj h).symm
  · exact Fault.step_mapped (hempty number) hplan hallowed (fun _ _ _ => rfl) (Nat.le_refl 4)

end Pages

variable {phs : List Elf64Phdr}

lemma loadElfImage_segments {file : ExecFile F} {dynBaseHint : Nat} {captureInterp : Bool}
    {image : LoadedImage} {regions : List (ElfRegion F)} {eh : Elf64Ehdr}
    (h : file.loadElfImage dynBaseHint captureInterp = some (image, regions))
    (hheaders : file.headers = some (eh, phs)) :
    image.loadBase = loadBias eh dynBaseHint ∧
      regions = (phs.filter fun ph => ph.Loads).map
        (segmentRegion file.file (loadBias eh dynBaseHint)) ∧
      ∀ q ∈ phs.filter fun ph => ph.Loads, file.SegmentOk (loadBias eh dynBaseHint) q := by
  unfold loadElfImage at h
  simp only [bind_eq_bind, bind_eq_some_iff, Option.pure_def, Option.some.injEq] at h
  obtain ⟨⟨eh', phs'⟩, hheaders', scan, -, regions', hregions, heq⟩ := h
  obtain ⟨rfl, rfl⟩ := Prod.mk.inj (Option.some.inj (hheaders.symm.trans hheaders'))
  obtain ⟨rfl, rfl⟩ := Prod.mk.inj heq
  obtain ⟨hmap, hok⟩ := regions_eq hregions
  refine ⟨rfl, hmap, fun q hq => ?_⟩
  rw [mem_filter, decide_eq_true_eq] at hq
  exact hok q hq.1 hq.2

lemma mem_segments {ph : Elf64Phdr} :
    (ph ∈ phs.filter fun ph => ph.Loads) ↔ ph ∈ phs ∧ ph.Loads := by
  rw [mem_filter, decide_eq_true_eq]

lemma unspoiled_of_asPrescribed {file : ExecFile F} {dynBaseHint : Nat} {captureInterp : Bool}
    {bytes : F → Bytes} (h : file.AsPrescribed dynBaseHint captureInterp bytes) {eh : Elf64Ehdr}
    (hheaders : file.headers = some (eh, phs)) (hloadable : file.Loadable dynBaseHint captureInterp)
    (hdisjoint : DisjointSegments (loadBias eh dynBaseHint) phs) :
    Unspoiled (loadBias eh dynBaseHint) phs (bytes file.file) := by
  intro ph hph hloads a hcanonical ha ⟨q, hq, hqloads, hrest⟩
  obtain ⟨⟨image, regions⟩, hload⟩ := isSome_iff_exists.mp
    ((file.loadElfImage_isSome dynBaseHint captureInterp).mpr hloadable)
  obtain ⟨hbase, rfl, hok⟩ := loadElfImage_segments hload hheaders
  have hsegment := mem_segments.mpr ⟨hph, hloads⟩
  obtain ⟨space, hruns, hempty⟩ := exists_fresh
    ((phs.filter fun ph => ph.Loads).map (segmentRegion file.file (loadBias eh dynBaseHint)))
  obtain ⟨plan, hplan, hpermissions, hcontents⟩ := exists_plan hruns hok hsegment ha
  have hallowed : ∃ write execute, plan.permissions.allows write execute = true := by
    rw [hpermissions]
    exact (exists_allowed_iff hok).mpr ⟨q, mem_segments.mpr ⟨hq, hqloads⟩, hrest⟩
  have phys : Phys Bytes := ⟨[], 0, fun _ => Bytes.zero⟩
  obtain ⟨fault, hfair, leaf, hleaf⟩ := @exists_fault F (space, phys) hempty bytes _ _ hplan hallowed
  have hrun : Machine.Meets Fault.step (Fault.Fair bytes) (space, phys) [fault] := ⟨hfair, trivial⟩
  have hbyte := h image _ eh phs hload hheaders (hbase ▸ hdisjoint) space phys [fault] hruns hrun
    ph hph hloads a hcanonical (hbase ▸ ha) (hempty _) leaf hleaf
  obtain ⟨plan', hplan', -, hshown⟩ := (Demanded.run hrun).pages (a / page) leaf hleaf (hempty _)
  obtain rfl := Option.some.inj (hplan.symm.trans hplan')
  rw [hshown, hbase] at hbyte
  exact (shownAt_iff hdisjoint hok hsegment ha bytes hcontents).mp hbyte

/-- The pages of every process that runs an accepted file with disjoint segments come out as
prescribed, whatever its faults are, if and only if no segment is spoiled. -/
theorem asPrescribed_iff_unspoiled (file : ExecFile F) (dynBaseHint : Nat) (captureInterp : Bool)
    (bytes : F → Bytes) :
    file.AsPrescribed dynBaseHint captureInterp bytes ↔
      ∀ eh phs, file.headers = some (eh, phs) → file.Loadable dynBaseHint captureInterp →
        DisjointSegments (loadBias eh dynBaseHint) phs →
        Unspoiled (loadBias eh dynBaseHint) phs (bytes file.file) := by
  constructor
  · intro h eh phs hheaders hloadable hdisjoint
    exact unspoiled_of_asPrescribed h hheaders hloadable hdisjoint
  intro h image regions eh phs hload hheaders hdisjoint space phys faults hruns hfair ph hph
    hloads a hcanonical ha hnone leaf hleaf
  have hloadable := (file.loadElfImage_isSome dynBaseHint captureInterp).mp (by rw [hload]; rfl)
  obtain ⟨hbase, rfl, hok⟩ := loadElfImage_segments hload hheaders
  rw [hbase] at hdisjoint ha ⊢
  have hsegment := mem_segments.mpr ⟨hph, hloads⟩
  obtain ⟨plan, hplan, hpermissions, hcontents⟩ := exists_plan hruns hok hsegment ha
  obtain ⟨plan', hplan', hallowed, hshown⟩ := (Demanded.run hfair).pages _ leaf hleaf hnone
  obtain rfl := Option.some.inj (hplan.symm.trans hplan')
  -- the page was brought in, so that an access to it is allowed
  rw [hpermissions] at hallowed
  obtain ⟨q, hq, hrest⟩ := (exists_allowed_iff hok).mp hallowed
  obtain ⟨hq, hqloads⟩ := mem_segments.mp hq
  rw [hshown]
  exact (shownAt_iff hdisjoint hok hsegment ha bytes hcontents).mpr
    (h eh phs hheaders hloadable hdisjoint ph hph hloads a hcanonical ha ⟨q, hq, hqloads, hrest⟩)

/-! ## Two segments on a page -/

def encodeLE (width n : Nat) : List UInt8 := (Bytes.le n).slice 0 width

def encodePhdr (offset vaddr filesz memsz : Nat) : List UInt8 :=
  encodeLE 4 ptLoad ++ encodeLE 4 4 ++ encodeLE 8 offset ++ encodeLE 8 vaddr ++ encodeLE 8 vaddr ++
    encodeLE 8 filesz ++ encodeLE 8 memsz ++ encodeLE 8 page

/-- Sixteen bytes of the file and sixteen zeros, and on the same page eight bytes of the file. -/
def sharedPage : List UInt8 :=
  elfMagic ++ List.replicate 12 0 ++ encodeLE 2 2 ++ List.replicate 14 0 ++ encodeLE 8 64 ++
    List.replicate 14 0 ++ encodeLE 2 56 ++ encodeLE 2 2 ++ List.replicate 6 0 ++
    encodePhdr 0 0x400000 16 32 ++ encodePhdr 64 0x400040 8 8

/-- The file is accepted and its segments are disjoint.  In the first one, the byte after those of
the file is not zero but the file type from the ELF header, which lies in front of the second. -/
theorem sharedPage_spoiled :
    ((ofBytes sharedPage).loadElfImage 0x40000000 true).isSome = true ∧
      (∀ eh phs, (ofBytes sharedPage).headers = some (eh, phs) →
        DisjointSegments (loadBias eh 0x40000000) phs) ∧
      ¬ (ofBytes sharedPage).AsPrescribed 0x40000000 true fun _ => Bytes.ofList sharedPage := by
  have hload : ((ofBytes sharedPage).loadElfImage 0x40000000 true).isSome = true := by
    decide +kernel
  have hheaders : (ofBytes sharedPage).headers = some (⟨elfMagic, 2, 0, 64, 56, 2⟩,
      [⟨ptLoad, 4, 0, 0x400000, 16, 32⟩, ⟨ptLoad, 4, 64, 0x400040, 8, 8⟩]) := by decide +kernel
  have hdisjoint : DisjointSegments 0
      [⟨ptLoad, 4, 0, 0x400000, 16, 32⟩, ⟨ptLoad, 4, 64, 0x400040, 8, 8⟩] := by
    unfold DisjointSegments
    decide
  refine ⟨hload, fun eh phs h => ?_, fun h => ?_⟩
  · obtain ⟨rfl, rfl⟩ := Prod.mk.inj (Option.some.inj (hheaders.symm.trans h))
    exact hdisjoint
  have hunspoiled := unspoiled_of_asPrescribed h hheaders
    (((ofBytes sharedPage).loadElfImage_isSome 0x40000000 true).mp hload) hdisjoint
  have hspared := hunspoiled _ mem_cons_self ⟨rfl, by decide⟩ 0x400010 (Or.inl (by decide))
    ⟨by decide, by decide⟩
    ⟨_, mem_cons_self, ⟨rfl, by decide⟩, ⟨by decide, by decide⟩, Or.inl (by decide)⟩
  obtain ⟨q, hq, -⟩ | hbyte := hspared [⟨ptLoad, 4, 0, 0x400000, 16, 32⟩]
    ⟨ptLoad, 4, 64, 0x400040, 8, 8⟩ [] (by decide) ⟨by decide, by decide⟩
  · cases hq
  · revert hbyte
    decide +kernel

end ExecFile

end Twilight.Memory

/-
The address space that `exec` builds: the executable, its interpreter, the stack and room for
static thread-local storage in a new page table.

Every step after the first frame can fail.  `Builds` says for which files and with how many frames
none of them does.
-/
import Twilight.Memory.AddressSpace
import Twilight.Memory.ElfLoad

namespace Twilight.Memory

open PageTable ExecFile PageTable.Keeps

variable {F P : Type}

def userStackTop : Nat := 0x0000_7FFF_FFFF_F000
def userStackSize : Nat := 0x64000
def mainDynLoadBase : Nat := 0x4000_0000
def interpDynLoadBase : Nat := 0x6000_0000

def userStackBase : Nat := userStackTop - userStackSize

def spillLen : Nat := page * 2

/-! ## The files -/

structure Images (F : Type) where
  main : LoadedImage
  entryPoint : Nat
  atBase : Nat
  maxEnd : Nat
  regions : List (ElfRegion F)

def Images.needsSpill (images : Images F) : Bool := images.main.hasTls && images.main.interpPath.isNone

/-- The loading part of `exec`.  `fs` opens a path. -/
def loadImages (fs : List UInt8 → Option (ExecFile F)) (file : ExecFile F) : Option (Images F) :=
  if file.size < elfMagic.length then none
  else
    match file.loadElfImage mainDynLoadBase true with
    | none => none
    | some (main, regions) =>
      match main.interpPath with
      | none => some ⟨main, main.entryPoint, 0, main.maxEnd, regions⟩
      | some path =>
        match fs path with
        | none => none
        | some interp =>
          match interp.loadElfImage interpDynLoadBase false with
          | none => none
          | some (image, more) =>
            some ⟨main, image.entryPoint, image.loadBase, max main.maxEnd image.maxEnd,
              regions ++ more⟩

/-! ## The pages -/

/-- The addresses `VirtAddr::new` takes. -/
def isCanonical (a : Nat) : Bool := a < 2 ^ 47 || 2 ^ 64 - 2 ^ 47 ≤ a

inductive Built (F : Type) where
  | ok (space : AddressSpace F) (images : Images F)
  | err
  | panic

def stackFlags : PageFlags := ⟨true, true, false⟩

def stackRange : Nat × Nat := (userStackBase, userStackSize)

/-- `ProcMM::new` and the new page table. -/
def newSpace (table : PageTable) (addrSizeVec : List (Nat × Nat)) (maxEnd : Nat)
    (regions : List (ElfRegion F)) : AddressSpace F where
  table := table
  addrSizeVec := addrSizeVec
  heapStart := alignUp maxEnd
  mm := ⟨alignUp maxEnd, 0, [], regions⟩

variable (kernelHalf : Nat → Bool)

/-- The stack and the room for thread-local storage.  A segment may end where `VirtAddr::new`
panics, or in the kernel's half of the address space; there `alloc_pages` works on the kernel's own
tables, which are not part of this model, and `kernelHalf` says whether it succeeds. -/
def mapImage [Zero P] (images : Images F) (table : PageTable)
    (phys : Phys P) : Built F × PageTable × Phys P :=
  match table.allocPages stackFlags (rangePages stackRange) phys with
  | (false, table, phys) => (.err, table, phys)
  | (true, table, phys) =>
    if !images.needsSpill then
      (.ok (newSpace table [stackRange] images.maxEnd images.regions) images, table, phys)
    else
      match alignUpU64 images.maxEnd with
      | none => (.err, table, phys)
      | some start =>
        if !(isCanonical start && isCanonical (wrappingAdd start (spillLen - 1))) then
          (.panic, table, phys)
        else
          let (mapped, table, phys) :=
            if start < 2 ^ 47 then table.allocPages stackFlags (rangePages (start, spillLen)) phys
            else (kernelHalf start, table, phys)
          match mapped, checkedAdd start spillLen with
          | true, some maxEnd =>
            (.ok (newSpace table [stackRange, (start, spillLen)] maxEnd images.regions) images, table,
              phys)
          | _, _ => (.err, table, phys)

/-- `Process::exec` up to the point where it changes the process record.  The first frame is
unwrapped. -/
def buildImage [Zero P] (fs : List UInt8 → Option (ExecFile F))
    (file : ExecFile F) (root : Nat) (phys : Phys P) : Built F × PageTable × Phys P :=
  match loadImages fs file with
  | none => (.err, .new root, phys)
  | some images => mapImage kernelHalf images (.new root) phys

/-! ## When nothing fails -/

/-- Room for thread-local storage behind the image, if the kernel does not stop at its address. -/
structure SpillOk (kernelHalf : Nat → Bool) (maxEnd available : Nat) : Prop where
  aligned : maxEnd + (page - 1) < 2 ^ 64
  pages : let start := alignDownU64 (maxEnd + (page - 1))
    isCanonical start = true → isCanonical (wrappingAdd start (spillLen - 1)) = true →
      (start < 2 ^ 47 →
        requests [] (rangePages stackRange ++ rangePages (start, spillLen)) ≤ available) ∧
      (2 ^ 47 ≤ start → kernelHalf start = true ∧ start + spillLen < 2 ^ 64)

/-- The files can be loaded, and the allocator has frames for the stack and for thread-local
storage. -/
structure BuildsAs (kernelHalf : Nat → Bool) (fs : List UInt8 → Option (ExecFile F))
    (file : ExecFile F) (available : Nat) (eh : Elf64Ehdr) (phs : List Elf64Phdr) : Prop where
  size : elfMagic.length ≤ file.size
  headers : file.headers = some (eh, phs)
  main : file.Loadable mainDynLoadBase true
  interp : ∀ path, file.interpreter phs = some path →
    ∃ interp, fs path = some interp ∧ interp.Loadable interpDynLoadBase false
  stack : requests [] (rangePages stackRange) ≤ available
  spill : wantsTls phs = true → file.interpreter phs = none →
    SpillOk kernelHalf (maxEnd (loadBias eh mainDynLoadBase) phs) available

def Builds (fs : List UInt8 → Option (ExecFile F)) (file : ExecFile F) (available : Nat) : Prop :=
  ∃ eh phs, BuildsAs kernelHalf fs file available eh phs

lemma loadImages_isSome (fs : List UInt8 → Option (ExecFile F)) (file : ExecFile F) :
    (loadImages fs file).isSome = true ↔ elfMagic.length ≤ file.size ∧
      file.Loadable mainDynLoadBase true ∧ ∀ eh phs, file.headers = some (eh, phs) →
        ∀ path, file.interpreter phs = some path →
          ∃ interp, fs path = some interp ∧ interp.Loadable interpDynLoadBase false := by
  unfold loadImages
  by_cases hsize : file.size < elfMagic.length
  · rw [if_pos hsize]
    exact iff_of_false nofun fun h => absurd h.1 (Nat.not_le.mpr hsize)
  rw [if_neg hsize, ← loadElfImage_isSome]
  cases hmain : file.loadElfImage mainDynLoadBase true with
  | none => exact iff_of_false nofun fun h => Bool.noConfusion h.2.1
  | some r =>
  obtain ⟨eh, phs, hheaders, hpath, -, -⟩ := ExecFile.loadElfImage_main hmain
  have hsame : ∀ eh' phs', file.headers = some (eh', phs') → phs' = phs := fun eh' phs' h =>
    (Prod.mk.inj (Option.some.inj (h.symm.trans hheaders))).2
  dsimp only
  rw [hpath]
  cases hinterp : file.interpreter phs with
  | none =>
    refine iff_of_true rfl ⟨Nat.not_lt.mp hsize, rfl, fun eh' phs' h path hp => ?_⟩
    rw [hsame eh' phs' h, hinterp] at hp
    cases hp
  | some path =>
  dsimp only
  cases hfs : fs path with
  | none =>
    refine iff_of_false nofun fun h => ?_
    obtain ⟨interp, hopen, -⟩ := h.2.2 eh phs hheaders path hinterp
    rw [hfs] at hopen
    cases hopen
  | some interp =>
  have hloads := interp.loadElfImage_isSome interpDynLoadBase false
  dsimp only
  cases himage : interp.loadElfImage interpDynLoadBase false with
  | none =>
    rw [himage] at hloads
    refine iff_of_false nofun fun h => ?_
    obtain ⟨interp', hopen, hloadable⟩ := h.2.2 eh phs hheaders path hinterp
    obtain rfl := Option.some.inj (hfs.symm.trans hopen)
    exact Bool.noConfusion (hloads.mpr hloadable)
  | some r =>
    rw [himage] at hloads
    refine iff_of_true rfl ⟨Nat.not_lt.mp hsize, rfl, fun eh' phs' h path' hp => ?_⟩
    rw [hsame eh' phs' h, hinterp] at hp
    obtain rfl := Option.some.inj hp
    exact ⟨interp, hfs, hloads.mp rfl⟩

lemma loadImages_main {fs : List UInt8 → Option (ExecFile F)} {file : ExecFile F}
    {images : Images F} (h : loadImages fs file = some images) :
    ∃ regions, file.loadElfImage mainDynLoadBase true = some (images.main, regions) ∧
      (images.main.interpPath = none → images.maxEnd = images.main.maxEnd) := by
  unfold loadImages at h
  split at h
  · cases h
  cases hmain : file.loadElfImage mainDynLoadBase true with
  | none => simp [hmain] at h
  | some r =>
  obtain ⟨main, regions⟩ := r
  simp only [hmain] at h
  split at h
  next hpath =>
    obtain rfl := Option.some.inj h
    exact ⟨regions, rfl, fun _ => rfl⟩
  next path hpath =>
    split at h
    · cases h
    split at h
    · cases h
    obtain rfl := Option.some.inj h
    refine ⟨regions, rfl, fun hnone => ?_⟩
    rw [hpath] at hnone
    cases hnone

lemma mapImage_err [Zero P] (images : Images F) (root : Nat) (phys : Phys P) :
    (mapImage kernelHalf images (.new root) phys).1 = .err ↔
      ¬ (requests [] (rangePages stackRange) ≤ phys.grants.length ∧
        (images.needsSpill = true → SpillOk kernelHalf images.maxEnd phys.grants.length)) := by
  have hnew : (new root).Covered := by simp [Covered, new]
  obtain ⟨hok, hdone⟩ := allocPages_spec hnew stackFlags (rangePages stackRange) phys
  have htables : (new root).tables.map Prod.fst = [] := rfl
  rw [htables] at hok hdone
  unfold mapImage
  generalize (new root).allocPages stackFlags (rangePages stackRange) phys = r at hok hdone
  obtain ⟨ok, table, phys₁⟩ := r
  cases ok with
  | false => exact iff_of_true rfl fun h => Bool.noConfusion (hok.mpr h.1)
  | true =>
  have hstack := hok.mp rfl
  obtain ⟨hcovered, htables, hlength⟩ := hdone rfl
  dsimp only at hcovered htables hlength ⊢
  cases hspill : images.needsSpill with
  | false => exact iff_of_false (by simp) fun h => h ⟨hstack, by simp⟩
  | true =>
  simp only [Bool.not_true, Bool.false_eq_true, if_false, hstack, true_and, true_imp_iff]
  by_cases haligned : images.maxEnd + (page - 1) < 2 ^ 64
  swap
  · rw [alignUpU64, checkedAdd, if_neg haligned]
    exact iff_of_true rfl fun h => haligned h.aligned
  rw [alignUpU64, ExecFile.checkedAdd_of_lt haligned]
  dsimp only [Option.map_some]
  have hspillOk : SpillOk kernelHalf images.maxEnd phys.grants.length ↔ _ :=
    ⟨fun h => h.pages, fun h => ⟨haligned, h⟩⟩
  rw [hspillOk]
  generalize alignDownU64 (images.maxEnd + (page - 1)) = start
  by_cases hcanonical : isCanonical start = true ∧
      isCanonical (wrappingAdd start (spillLen - 1)) = true
  swap
  · rw [if_pos (by rwa [Bool.not_eq_true', ← Bool.not_eq_true, Bool.and_eq_true])]
    exact iff_of_false (by simp) fun h => h fun h₁ h₂ => absurd ⟨h₁, h₂⟩ hcanonical
  simp only [hcanonical, true_imp_iff]
  by_cases hhalf : start < 2 ^ 47
  · obtain ⟨hok', -⟩ := allocPages_spec hcovered stackFlags (rangePages (start, spillLen)) phys₁
    rw [htables] at hok'
    have hadd : start + spillLen < 2 ^ 64 := by
      have hlen : spillLen = 8192 := rfl
      omega
    rw [requests_append, ExecFile.checkedAdd_of_lt hadd]
    simp only [if_pos hhalf]
    generalize table.allocPages stackFlags (rangePages (start, spillLen)) phys₁ = r at hok'
    obtain ⟨ok, table', phys₂⟩ := r
    cases ok with
    | false =>
      refine iff_of_true rfl fun h => Bool.noConfusion (hok'.mpr ?_)
      omega
    | true =>
      refine iff_of_false (by simp) fun h =>
        h ⟨fun _ => ?_, fun h => absurd hhalf (Nat.not_lt.mpr h)⟩
      have := hok'.mp rfl
      omega
  · simp only [if_neg hhalf]
    by_cases hadd : start + spillLen < 2 ^ 64
    · rw [ExecFile.checkedAdd_of_lt hadd]
      cases hkernel : kernelHalf start with
      | false => exact iff_of_true rfl fun h => Bool.noConfusion (h.2 (Nat.not_lt.mp hhalf)).1
      | true =>
        exact iff_of_false (by simp) fun h => h ⟨fun h => absurd h hhalf, fun _ => ⟨rfl, hadd⟩⟩
    · rw [checkedAdd, if_neg hadd]
      refine iff_of_true ?_ fun h => hadd (h.2 (Nat.not_lt.mp hhalf)).2
      cases kernelHalf start <;> rfl

lemma buildImage_err [Zero P]
    (fs : List UInt8 → Option (ExecFile F)) (file : ExecFile F) (root : Nat) (phys : Phys P) :
    (buildImage kernelHalf fs file root phys).1 = .err ↔
      ¬ Builds kernelHalf fs file phys.grants.length := by
  have hloads := loadImages_isSome fs file
  unfold buildImage
  cases himages : loadImages fs file with
  | none =>
    rw [himages] at hloads
    refine iff_of_true rfl ?_
    rintro ⟨eh, phs, h⟩
    refine Bool.noConfusion (hloads.mpr ⟨h.size, h.main, fun eh' phs' hheaders path hpath => ?_⟩)
    obtain ⟨rfl, rfl⟩ := Prod.mk.inj (Option.some.inj (h.headers.symm.trans hheaders))
    exact h.interp path hpath
  | some images =>
    rw [himages] at hloads
    obtain ⟨hsize, hmain, hinterp⟩ := hloads.mp rfl
    rw [mapImage_err, not_iff_not]
    obtain ⟨regions, hmainImage, hmaxEnd⟩ := loadImages_main himages
    obtain ⟨eh, phs, hheaders, hpath, htls, hend⟩ := ExecFile.loadElfImage_main hmainImage
    have hspill : images.needsSpill = true ↔
        wantsTls phs = true ∧ file.interpreter phs = none := by
      rw [Images.needsSpill, htls, hpath, Bool.and_eq_true, Option.isNone_iff_eq_none]
    constructor
    · rintro ⟨hstack, hspillOk⟩
      refine ⟨eh, phs, hsize, hheaders, hmain, hinterp eh phs hheaders, hstack, fun htls' hnone => ?_⟩
      have := hspillOk (hspill.mpr ⟨htls', hnone⟩)
      rwa [hmaxEnd (hpath.trans hnone), hend] at this
    rintro ⟨eh', phs', h⟩
    obtain ⟨rfl, rfl⟩ := Prod.mk.inj (Option.some.inj (h.headers.symm.trans hheaders))
    refine ⟨h.stack, fun hneeds => ?_⟩
    obtain ⟨htls', hnone⟩ := hspill.mp hneeds
    rw [hmaxEnd (hpath.trans hnone), hend]
    exact h.spill htls' hnone

/-! ## Its frames -/

lemma newSpace_table (table : PageTable) (addrSizeVec : List (Nat × Nat)) (maxEnd : Nat)
    (regions : List (ElfRegion F)) : (newSpace table addrSizeVec maxEnd regions).table = table := rfl

lemma mapImage_keeps [Zero P] (images : Images F) (table : PageTable) (phys : Phys P) :
    let r := mapImage kernelHalf images table phys
    table.Keeps phys r.2.1 r.2.2 ∧ ∀ space images', r.1 = .ok space images' → space.table = r.2.1 := by
  have hstack := table.allocPages_keeps stackFlags (rangePages stackRange) phys
  unfold mapImage
  generalize table.allocPages stackFlags (rangePages stackRange) phys = r at hstack
  obtain ⟨ok, table₁, phys₁⟩ := r
  cases ok with
  | false => exact ⟨hstack, nofun⟩
  | true =>
  dsimp only at hstack ⊢
  split
  · refine ⟨hstack, fun space images' h => ?_⟩
    rw [← (Built.ok.inj h).1, newSpace_table]
  split
  · exact ⟨hstack, nofun⟩
  next start hstart =>
  split
  · exact ⟨hstack, nofun⟩
  have hspill : table₁.Keeps phys₁
      (if start < 2 ^ 47 then table₁.allocPages stackFlags (rangePages (start, spillLen)) phys₁
        else (kernelHalf start, table₁, phys₁)).2.1
      (if start < 2 ^ 47 then table₁.allocPages stackFlags (rangePages (start, spillLen)) phys₁
        else (kernelHalf start, table₁, phys₁)).2.2 := by
    split
    · exact table₁.allocPages_keeps _ _ _
    · exact refl _ _
  split
  · refine ⟨hstack.trans hspill, fun space images' h => ?_⟩
    rw [← (Built.ok.inj h).1, newSpace_table]
  · exact ⟨hstack.trans hspill, nofun⟩

lemma buildImage_keeps [Zero P]
    (fs : List UInt8 → Option (ExecFile F)) (file : ExecFile F) (root : Nat) (phys : Phys P) :
    let r := buildImage kernelHalf fs file root phys
    (new root).Keeps phys r.2.1 r.2.2 ∧
      ∀ space images, r.1 = .ok space images → space.table = r.2.1 := by
  unfold buildImage
  cases loadImages fs file with
  | none => exact ⟨refl _ _, nofun⟩
  | some images => exact mapImage_keeps kernelHalf images (.new root) phys

end Twilight.Memory

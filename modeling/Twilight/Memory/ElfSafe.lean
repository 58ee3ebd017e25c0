/-
What the loader makes of hostile headers.

The sums over segments are checked for overflow, but not against the end of user space; the address
of the program headers and the entry point are plain sums.  `loadElfImageTraced` is the loader once
more, with a record of the plain sums it computes.
-/
import Twilight.Memory.Segments

namespace Twilight.Memory

open List Option

variable {F : Type}

/-- A computation that may fail, with the operands of every `+` on the way. -/
abbrev Traced := StateT (List (Nat × Nat)) Option

def addU64 (a b : Nat) : Traced Nat := fun sums => some (wrappingAdd a b, sums ++ [(a, b)])

namespace ExecFile

variable (file : ExecFile F)

def scanHeaderTraced (bias : Nat) (captureInterp : Bool) (acc : Scan)
    (ph : Elf64Phdr) : Traced Scan :=
  if ph.pType = ptPhdr then do
    let phdrVa ← addU64 bias ph.pVaddr
    return { acc with phdrVa := phdrVa }
  else StateT.lift (file.scanHeader bias captureInterp acc ph)

/-- The loop that looks for the segment with the table of the program headers, which ends at
`stop`. -/
def searchTraced (bias : Nat) (eh : Elf64Ehdr) (stop : Nat) : List Elf64Phdr → Traced Nat
  | [] => return 0
  | ph :: phs =>
    if ph.pType = ptLoad then do
      let segEnd ← addU64 ph.pOffset ph.pFilesz
      if ph.pOffset ≤ eh.ePhoff ∧ stop ≤ segEnd then do
        let start ← addU64 bias ph.pVaddr
        addU64 start (eh.ePhoff - ph.pOffset)
      else searchTraced bias eh stop phs
    else searchTraced bias eh stop phs

def loadElfImageTraced (dynBaseHint : Nat) (captureInterp : Bool) :
    Traced (LoadedImage × List (ElfRegion F)) := do
  let (eh, phs) ← StateT.lift file.headers
  let bias := loadBias eh dynBaseHint
  let scan ← phs.foldlM (file.scanHeaderTraced bias captureInterp) ⟨0, none, false⟩
  let phdrVa ←
    if scan.phdrVa = 0 then do
      let stop ← addU64 eh.ePhoff (eh.ePhentsize * eh.ePhnum)
      searchTraced bias eh stop phs
    else pure scan.phdrVa
  let regions ← StateT.lift (ElfImage.loadElfImage ⟨file.file, file.size, bias, phs⟩)
  let entryPoint ← addU64 eh.eEntry bias
  return ({
    entryPoint := entryPoint
    phdrVa := phdrVa
    phent := eh.ePhentsize
    phnum := eh.ePhnum
    maxEnd := maxEnd bias phs
    loadBase := bias
    hasTls := scan.hasTls
    interpPath := scan.interpPath }, regions)

/-! ## What is required of a loader -/

def PhdrSum (bias : Nat) (eh : Elf64Ehdr) (phs : List Elf64Phdr) (phdrVa : Nat) : Prop :=
  phdrVa = 0 ∨ ∃ ph ∈ phs, (ph.pType = ptPhdr ∧ phdrVa = bias + ph.pVaddr) ∨
    (ph.pType = ptLoad ∧ phdrVa = bias + ph.pVaddr + (eh.ePhoff - ph.pOffset))

structure Sound (eh : Elf64Ehdr) (phs : List Elf64Phdr) (image : LoadedImage)
    (regions : List (ElfRegion F)) (sums : List (Nat × Nat)) : Prop where
  sums : ∀ s ∈ sums, s.1 + s.2 < 2 ^ 64
  aligned : ∀ r ∈ regions, page ∣ r.base ∧ page ∣ r.len ∧ 0 < r.len
  user : ∀ r ∈ regions, r.base + r.len ≤ userUpper
  entry : image.entryPoint = eh.eEntry + image.loadBase ∧ image.entryPoint < userUpper
  phdr : PhdrSum image.loadBase eh phs image.phdrVa ∧ image.phdrVa < userUpper

def LoadsSafely (dynBaseHint : Nat) (captureInterp : Bool) : Prop :=
  ∀ image regions sums,
    (file.loadElfImageTraced dynBaseHint captureInterp).run [] = some ((image, regions), sums) →
    ∃ eh phs, file.headers = some (eh, phs) ∧ Sound eh phs image regions sums

/-! ## Modest headers -/

def lastPhdr (bias : Nat) (phs : List Elf64Phdr) : Nat :=
  phs.foldl (fun acc ph => if ph.pType = ptPhdr then bias + ph.pVaddr else acc) 0

/-- The first segment with the table of the program headers has it in user space, and the segments
before have their file parts below `2 ^ 64`. -/
def TableModest (bias : Nat) (eh : Elf64Ehdr) : List Elf64Phdr → Prop
  | [] => True
  | ph :: phs =>
    if ph.pType = ptLoad then
      ph.pOffset + ph.pFilesz < 2 ^ 64 ∧
        if ph.pOffset ≤ eh.ePhoff ∧
            eh.ePhoff + eh.ePhentsize * eh.ePhnum ≤ ph.pOffset + ph.pFilesz then
          bias + ph.pVaddr + (eh.ePhoff - ph.pOffset) < userUpper
        else TableModest bias eh phs
    else TableModest bias eh phs

structure Modest (bias : Nat) (eh : Elf64Ehdr) (phs : List Elf64Phdr) : Prop where
  entry : eh.eEntry + bias < userUpper
  segments : ∀ ph ∈ phs, ph.Loads → bias + ph.pVaddr + ph.pMemsz ≤ userUpper
  phdrs : ∀ ph ∈ phs, ph.pType = ptPhdr → bias + ph.pVaddr < 2 ^ 64
  last : lastPhdr bias phs < userUpper
  table : lastPhdr bias phs = 0 → TableModest bias eh phs

/-! ## The sums of a run -/

def scanSums (bias : Nat) (phs : List Elf64Phdr) : List (Nat × Nat) :=
  (phs.filter fun ph => ph.pType = ptPhdr).map fun ph => (bias, ph.pVaddr)

def searchSums (bias : Nat) (eh : Elf64Ehdr) (stop : Nat) : List Elf64Phdr → List (Nat × Nat)
  | [] => []
  | ph :: phs =>
    if ph.pType = ptLoad then
      (ph.pOffset, ph.pFilesz) ::
        if ph.pOffset ≤ eh.ePhoff ∧ stop ≤ wrappingAdd ph.pOffset ph.pFilesz then
          [(bias, ph.pVaddr), (wrappingAdd bias ph.pVaddr, eh.ePhoff - ph.pOffset)]
        else searchSums bias eh stop phs
    else searchSums bias eh stop phs

def searchValue (bias : Nat) (eh : Elf64Ehdr) (stop : Nat) : List Elf64Phdr → Nat
  | [] => 0
  | ph :: phs =>
    if ph.pType = ptLoad ∧ ph.pOffset ≤ eh.ePhoff ∧ stop ≤ wrappingAdd ph.pOffset ph.pFilesz then
      wrappingAdd (wrappingAdd bias ph.pVaddr) (eh.ePhoff - ph.pOffset)
    else searchValue bias eh stop phs

lemma addU64_run (a b : Nat) (sums : List (Nat × Nat)) :
    (addU64 a b).run sums = some (wrappingAdd a b, sums ++ [(a, b)]) := rfl

lemma searchTraced_run (bias : Nat) (eh : Elf64Ehdr) (stop : Nat) (phs : List Elf64Phdr)
    (sums : List (Nat × Nat)) :
    (searchTraced bias eh stop phs).run sums =
      some (searchValue bias eh stop phs, sums ++ searchSums bias eh stop phs) := by
  induction phs generalizing sums with
  | nil => simp [searchTraced, searchValue, searchSums]
  | cons ph phs ih =>
    by_cases hload : ph.pType = ptLoad
    · by_cases hhere : ph.pOffset ≤ eh.ePhoff ∧ stop ≤ wrappingAdd ph.pOffset ph.pFilesz
      · simp [searchTraced, searchValue, searchSums, hload, hhere, addU64_run]
      · simp [searchTraced, searchValue, searchSums, hload, hhere, addU64_run, ih]
    · simp [searchTraced, searchValue, searchSums, hload, ih]

lemma searchValue_eq (bias : Nat) (eh : Elf64Ehdr) (phs : List Elf64Phdr) :
    searchValue bias eh (wrappingAdd eh.ePhoff (eh.ePhentsize * eh.ePhnum)) phs =
      phdrInSegment bias eh phs := by
  unfold phdrInSegment
  dsimp only
  induction phs with
  | nil => rfl
  | cons ph phs ih =>
    rw [searchValue]
    by_cases hhere : ph.pType = ptLoad ∧ ph.pOffset ≤ eh.ePhoff ∧
        wrappingAdd eh.ePhoff (eh.ePhentsize * eh.ePhnum) ≤ wrappingAdd ph.pOffset ph.pFilesz
    · simp [hhere]
    · simp [hhere, ih]

lemma scanTraced_run (bias : Nat) (captureInterp : Bool)
    (phs : List Elf64Phdr) (acc : Scan) (sums : List (Nat × Nat)) :
    (phs.foldlM (file.scanHeaderTraced bias captureInterp) acc).run sums =
      (phs.foldlM (file.scanHeader bias captureInterp) acc).map
        fun scan => (scan, sums ++ scanSums bias phs) := by
  induction phs generalizing acc sums with
  | nil => simp [scanSums]
  | cons ph phs ih =>
    by_cases hphdr : ph.pType = ptPhdr
    · simp [scanHeaderTraced, hphdr, scanHeader, addU64_run, ih, scanSums]
    · rw [foldlM_cons, foldlM_cons, scanHeaderTraced, if_neg hphdr]
      cases file.scanHeader bias captureInterp acc ph with
      | none => simp
      | some acc' => simp [ih, scanSums, hphdr]

def runSums (bias : Nat) (eh : Elf64Ehdr) (phs : List Elf64Phdr) (scanned : Nat) :
    List (Nat × Nat) :=
  scanSums bias phs ++
    (if scanned = 0 then (eh.ePhoff, eh.ePhentsize * eh.ePhnum) ::
      searchSums bias eh (wrappingAdd eh.ePhoff (eh.ePhentsize * eh.ePhnum)) phs else []) ++
    [(eh.eEntry, bias)]

def imageOf (bias : Nat) (eh : Elf64Ehdr) (phs : List Elf64Phdr) (scan : Scan) : LoadedImage where
  entryPoint := wrappingAdd eh.eEntry bias
  phdrVa := if scan.phdrVa = 0 then phdrInSegment bias eh phs else scan.phdrVa
  phent := eh.ePhentsize
  phnum := eh.ePhnum
  maxEnd := maxEnd bias phs
  loadBase := bias
  hasTls := scan.hasTls
  interpPath := scan.interpPath

variable {file : ExecFile F} {dynBaseHint bias : Nat} {captureInterp : Bool} {eh : Elf64Ehdr}
  {phs : List Elf64Phdr} {scan : Scan} {regions : List (ElfRegion F)}

lemma loadElfImageTraced_run (hheaders : file.headers = some (eh, phs))
    (hscan : phs.foldlM (file.scanHeader (loadBias eh dynBaseHint) captureInterp)
      ⟨0, none, false⟩ = some scan)
    (hregions : ElfImage.loadElfImage ⟨file.file, file.size, loadBias eh dynBaseHint, phs⟩ =
      some regions) :
    (file.loadElfImageTraced dynBaseHint captureInterp).run [] =
      some ((imageOf (loadBias eh dynBaseHint) eh phs scan, regions),
        runSums (loadBias eh dynBaseHint) eh phs scan.phdrVa) := by
  unfold loadElfImageTraced
  by_cases hzero : scan.phdrVa = 0
  · simp [hheaders, scanTraced_run, hscan, hzero, addU64_run, searchTraced_run, searchValue_eq,
      hregions, imageOf, runSums]
  · simp [hheaders, scanTraced_run, hscan, hzero, addU64_run, hregions, imageOf, runSums]

lemma exists_of_loadElfImageTraced
    {result : (LoadedImage × List (ElfRegion F)) × List (Nat × Nat)}
    (h : (file.loadElfImageTraced dynBaseHint captureInterp).run [] = some result) :
    ∃ eh phs scan regions, file.headers = some (eh, phs) ∧
      phs.foldlM (file.scanHeader (loadBias eh dynBaseHint) captureInterp) ⟨0, none, false⟩ =
        some scan ∧
      ElfImage.loadElfImage ⟨file.file, file.size, loadBias eh dynBaseHint, phs⟩ =
        some regions := by
  unfold loadElfImageTraced at h
  cases hheaders : file.headers with
  | none => simp [hheaders] at h
  | some r =>
    obtain ⟨eh, phs⟩ := r
    cases hscan : phs.foldlM (file.scanHeader (loadBias eh dynBaseHint) captureInterp)
        ⟨0, none, false⟩ with
    | none => simp [hheaders, scanTraced_run, hscan] at h
    | some scan =>
      cases hregions : ElfImage.loadElfImage
          ⟨file.file, file.size, loadBias eh dynBaseHint, phs⟩ with
      | some regions => exact ⟨eh, phs, scan, regions, rfl, hscan, hregions⟩
      | none =>
        by_cases hzero : scan.phdrVa = 0
        · simp [hheaders, scanTraced_run, hscan, hzero, hregions] at h
        · simp [hheaders, scanTraced_run, hscan, hzero, hregions] at h

lemma loadElfImageTraced_fst {result : LoadedImage × List (ElfRegion F)} :
    (∃ sums, (file.loadElfImageTraced dynBaseHint captureInterp).run [] = some (result, sums)) ↔
      file.loadElfImage dynBaseHint captureInterp = some result := by
  constructor
  · rintro ⟨sums, h⟩
    obtain ⟨eh, phs, scan, regions, hheaders, hscan, hregions⟩ := exists_of_loadElfImageTraced h
    rw [loadElfImageTraced_run hheaders hscan hregions] at h
    obtain ⟨rfl, -⟩ := h
    simp [loadElfImage, hheaders, hscan, hregions, imageOf]
  · intro h
    unfold loadElfImage at h
    simp only [bind_eq_bind, bind_eq_some_iff, Option.pure_def, Option.some.injEq] at h
    obtain ⟨⟨eh, phs⟩, hheaders, scan, hscan, regions, hregions, rfl⟩ := h
    exact ⟨_, loadElfImageTraced_run hheaders hscan hregions⟩

/-! ## The address of the program headers -/

lemma scan_phdrVa
    {acc : Scan} (h : phs.foldlM (file.scanHeader bias captureInterp) acc = some scan) :
    scan.phdrVa = phs.foldl
      (fun va ph => if ph.pType = ptPhdr then wrappingAdd bias ph.pVaddr else va) acc.phdrVa := by
  induction phs generalizing acc with
  | nil =>
    obtain rfl := Option.some.inj h
    rfl
  | cons ph phs ih =>
    rw [foldlM_cons, bind_eq_bind, bind_eq_some_iff] at h
    obtain ⟨acc', hacc, h⟩ := h
    rw [ih h, foldl_cons]
    congr 1
    unfold scanHeader at hacc
    split at hacc
    · next hphdr =>
      obtain rfl := Option.some.inj hacc
      rw [if_pos hphdr]
    next hphdr =>
    rw [if_neg hphdr]
    split at hacc
    · simp only [bind_eq_bind, bind_eq_some_iff] at hacc
      obtain ⟨stop, -, hacc⟩ := hacc
      split at hacc
      · cases hacc
      simp only [bind_eq_some_iff] at hacc
      obtain ⟨bytes, -, hacc⟩ := hacc
      obtain rfl := Option.some.inj hacc
      split <;> rfl
    split at hacc
    · obtain rfl := Option.some.inj hacc
      rfl
    · obtain rfl := Option.some.inj hacc
      rfl

lemma wrappingAdd_of_lt {a b : Nat} (h : a + b < 2 ^ 64) : wrappingAdd a b = a + b :=
  Nat.mod_eq_of_lt h

lemma foldl_phdr_eq (h : ∀ ph ∈ phs, ph.pType = ptPhdr → bias + ph.pVaddr < 2 ^ 64) (va : Nat) :
    phs.foldl (fun va ph => if ph.pType = ptPhdr then wrappingAdd bias ph.pVaddr else va) va =
      phs.foldl (fun va ph => if ph.pType = ptPhdr then bias + ph.pVaddr else va) va := by
  induction phs generalizing va with
  | nil => rfl
  | cons ph phs ih =>
    rw [foldl_cons, foldl_cons, ih fun q hq => h q (mem_cons_of_mem _ hq)]
    congr 1
    split
    · next hphdr => rw [wrappingAdd_of_lt (h ph mem_cons_self hphdr)]
    · rfl

lemma lastPhdr_cases (bias : Nat) (phs : List Elf64Phdr) :
    lastPhdr bias phs = 0 ∨ ∃ ph ∈ phs, ph.pType = ptPhdr ∧ lastPhdr bias phs = bias + ph.pVaddr := by
  have hgeneral : ∀ l : List Elf64Phdr, ∀ va,
      l.foldl (fun va ph => if ph.pType = ptPhdr then bias + ph.pVaddr else va) va = va ∨
        ∃ ph ∈ l, ph.pType = ptPhdr ∧
          l.foldl (fun va ph => if ph.pType = ptPhdr then bias + ph.pVaddr else va) va =
            bias + ph.pVaddr := by
    intro l
    induction l with
    | nil => exact fun _ => Or.inl rfl
    | cons ph l ih =>
      intro va
      rw [foldl_cons]
      obtain hsame | ⟨q, hq, hphdr, heq⟩ := ih (if ph.pType = ptPhdr then bias + ph.pVaddr else va)
      · rw [hsame]
        split
        · next hphdr => exact Or.inr ⟨ph, mem_cons_self, hphdr, rfl⟩
        · exact Or.inl rfl
      · exact Or.inr ⟨q, mem_cons_of_mem _ hq, hphdr, heq⟩
  exact hgeneral phs 0

lemma tableModest_iff (phs : List Elf64Phdr)
    (hstop : eh.ePhoff + eh.ePhentsize * eh.ePhnum < 2 ^ 64) :
    TableModest bias eh phs ↔
      (∀ s ∈ searchSums bias eh (eh.ePhoff + eh.ePhentsize * eh.ePhnum) phs, s.1 + s.2 < 2 ^ 64) ∧
        searchValue bias eh (eh.ePhoff + eh.ePhentsize * eh.ePhnum) phs < userUpper := by
  have hupper : userUpper < 2 ^ 64 := by decide
  induction phs with
  | nil => simp [TableModest, searchSums, searchValue, userUpper]
  | cons ph phs ih =>
    rw [TableModest, searchSums, searchValue]
    by_cases hload : ph.pType = ptLoad
    · rw [if_pos hload, if_pos hload, forall_mem_cons]
      by_cases hfits : ph.pOffset + ph.pFilesz < 2 ^ 64
      · rw [wrappingAdd_of_lt hfits]
        by_cases hhere : ph.pOffset ≤ eh.ePhoff ∧
            eh.ePhoff + eh.ePhentsize * eh.ePhnum ≤ ph.pOffset + ph.pFilesz
        · rw [if_pos hhere, if_pos hhere, if_pos ⟨hload, hhere⟩]
          simp only [forall_mem_cons, not_mem_nil, IsEmpty.forall_iff, implies_true, and_true]
          unfold wrappingAdd
          omega
        · rw [if_neg hhere, if_neg hhere, if_neg fun h => hhere h.2]
          simp only [hfits, true_and]
          exact ih
      · exact iff_of_false (fun h => hfits h.1) fun h => hfits h.1.1
    · rw [if_neg hload, if_neg hload, if_neg fun h => hload h.1]
      exact ih

lemma searchValue_cases {stop : Nat}
    (hsums : ∀ s ∈ searchSums bias eh stop phs, s.1 + s.2 < 2 ^ 64) :
    searchValue bias eh stop phs = 0 ∨ ∃ ph ∈ phs, ph.pType = ptLoad ∧
      searchValue bias eh stop phs = bias + ph.pVaddr + (eh.ePhoff - ph.pOffset) := by
  induction phs with
  | nil => exact Or.inl rfl
  | cons ph phs ih =>
    rw [searchSums] at hsums
    rw [searchValue]
    by_cases hhere : ph.pType = ptLoad ∧ ph.pOffset ≤ eh.ePhoff ∧
        stop ≤ wrappingAdd ph.pOffset ph.pFilesz
    · rw [if_pos hhere.1, if_pos hhere.2] at hsums
      simp only [forall_mem_cons, not_mem_nil, IsEmpty.forall_iff, implies_true, and_true] at hsums
      obtain ⟨-, hstart, hsum⟩ := hsums
      rw [wrappingAdd_of_lt hstart] at hsum
      rw [if_pos hhere, wrappingAdd_of_lt hstart, wrappingAdd_of_lt hsum]
      exact Or.inr ⟨ph, mem_cons_self, hhere.1, rfl⟩
    · rw [if_neg hhere]
      have hrest : ∀ s ∈ searchSums bias eh stop phs, s.1 + s.2 < 2 ^ 64 := by
        split at hsums
        · next hload =>
          rw [if_neg fun h => hhere ⟨hload, h⟩, forall_mem_cons] at hsums
          exact hsums.2
        · exact hsums
      obtain hzero | ⟨q, hq, hvalue⟩ := ih hrest
      · exact Or.inl hzero
      · exact Or.inr ⟨q, mem_cons_of_mem _ hq, hvalue⟩

lemma forall_scanSums : (∀ s ∈ scanSums bias phs, s.1 + s.2 < 2 ^ 64) ↔
      ∀ ph ∈ phs, ph.pType = ptPhdr → bias + ph.pVaddr < 2 ^ 64 := by
  rw [scanSums, List.forall_mem_map]
  simp [mem_filter]

/-! ## The regions -/

lemma segmentRegion_sound {ph : Elf64Phdr} (hloads : ph.Loads) :
    (page ∣ (segmentRegion file.file bias ph).base ∧ page ∣ (segmentRegion file.file bias ph).len ∧
      0 < (segmentRegion file.file bias ph).len) ∧
      ((segmentRegion file.file bias ph).base + (segmentRegion file.file bias ph).len ≤ userUpper ↔
        bias + ph.pVaddr + ph.pMemsz ≤ userUpper) := by
  have hmem := hloads.2
  simp only [segmentRegion, alignDownU64, page, userUpper] at *
  omega

lemma regions_user_iff
    (h : ElfImage.loadElfImage ⟨file.file, file.size, bias, phs⟩ = some regions) :
    (∀ r ∈ regions, page ∣ r.base ∧ page ∣ r.len ∧ 0 < r.len) ∧
      ((∀ r ∈ regions, r.base + r.len ≤ userUpper) ↔
        ∀ ph ∈ phs, ph.Loads → bias + ph.pVaddr + ph.pMemsz ≤ userUpper) := by
  obtain ⟨rfl, hok⟩ := regions_eq h
  simp only [List.forall_mem_map, mem_filter, decide_eq_true_eq, and_imp]
  refine ⟨fun ph _ hloads => (segmentRegion_sound hloads).1, ?_⟩
  exact forall₃_congr fun ph _ hloads => (segmentRegion_sound hloads).2

/-! ## Sound images and modest headers -/

lemma headers_table
    (h : file.headers = some (eh, phs)) : eh.ePhoff + eh.ePhentsize * eh.ePhnum < 2 ^ 64 :=
  (headers_eq_some.mp h).2.2.2.1.2

lemma sound_iff_modest (hheaders : file.headers = some (eh, phs))
    (hscan : phs.foldlM (file.scanHeader bias captureInterp) ⟨0, none, false⟩ = some scan)
    (hregions : ElfImage.loadElfImage ⟨file.file, file.size, bias, phs⟩ = some regions) :
    Sound eh phs (imageOf bias eh phs scan) regions (runSums bias eh phs scan.phdrVa) ↔
      Modest bias eh phs := by
  have hstop := headers_table hheaders
  have hva := scan_phdrVa hscan
  obtain ⟨haligned, huser⟩ := regions_user_iff hregions
  have hupper : userUpper < 2 ^ 64 := by decide
  have hsearched : phdrInSegment bias eh phs =
      searchValue bias eh (eh.ePhoff + eh.ePhentsize * eh.ePhnum) phs := by
    rw [← searchValue_eq, wrappingAdd_of_lt hstop]
  constructor
  · intro h
    have hsums := h.sums
    simp only [runSums, forall_mem_append, wrappingAdd_of_lt hstop] at hsums
    obtain ⟨⟨hscanSums, hsearch⟩, hentry⟩ := hsums
    have hphdrs := forall_scanSums.mp hscanSums
    rw [foldl_phdr_eq hphdrs] at hva
    have hlast : scan.phdrVa = lastPhdr bias phs := hva
    have hphdr : (if scan.phdrVa = 0 then phdrInSegment bias eh phs else scan.phdrVa) < userUpper :=
      h.phdr.2
    rw [hlast] at hsearch hphdr
    refine ⟨h.entry.1 ▸ h.entry.2, huser.mp h.user, hphdrs, ?_, fun hzero => ?_⟩
    · by_cases hzero : lastPhdr bias phs = 0
      · rw [hzero]
        decide
      · rwa [if_neg hzero] at hphdr
    · rw [if_pos hzero, forall_mem_cons] at hsearch
      rw [if_pos hzero, hsearched] at hphdr
      exact (tableModest_iff phs hstop).mpr ⟨hsearch.2, hphdr⟩
  · intro h
    rw [foldl_phdr_eq h.phdrs] at hva
    have hlast : scan.phdrVa = lastPhdr bias phs := hva
    have htable := fun hzero => (tableModest_iff phs hstop).mp (h.table hzero)
    have hentry : wrappingAdd eh.eEntry bias = eh.eEntry + bias :=
      wrappingAdd_of_lt (Nat.lt_trans h.entry hupper)
    refine ⟨?_, haligned, huser.mpr h.segments, ⟨hentry, ?_⟩, ?_⟩
    · simp only [runSums, forall_mem_append, forall_mem_singleton, wrappingAdd_of_lt hstop, hlast]
      refine ⟨⟨forall_scanSums.mpr h.phdrs, ?_⟩, Nat.lt_trans h.entry hupper⟩
      split
      · next hzero => exact forall_mem_cons.mpr ⟨hstop, (htable hzero).1⟩
      · nofun
    · rw [imageOf, hentry]
      exact h.entry
    · show PhdrSum bias eh phs (if scan.phdrVa = 0 then phdrInSegment bias eh phs else scan.phdrVa) ∧
        (if scan.phdrVa = 0 then phdrInSegment bias eh phs else scan.phdrVa) < userUpper
      rw [hlast, hsearched]
      split
      · next hzero =>
        refine ⟨?_, (htable hzero).2⟩
        obtain hnone | ⟨ph, hph, hload, hvalue⟩ := searchValue_cases (htable hzero).1
        · exact Or.inl hnone
        · exact Or.inr ⟨ph, hph, Or.inr ⟨hload, hvalue⟩⟩
      · refine ⟨?_, h.last⟩
        obtain hnone | ⟨ph, hph, hphdr, hvalue⟩ := lastPhdr_cases bias phs
        · exact Or.inl hnone
        · exact Or.inr ⟨ph, hph, Or.inl ⟨hphdr, hvalue⟩⟩

/-- Every file that the loader accepts is loaded safely if and only if its headers ask for
addresses in user space only. -/
theorem loadsSafely_iff (file : ExecFile F) (dynBaseHint : Nat) (captureInterp : Bool) :
    file.LoadsSafely dynBaseHint captureInterp ↔
      ∀ eh phs, file.headers = some (eh, phs) → file.Loadable dynBaseHint captureInterp →
        Modest (loadBias eh dynBaseHint) eh phs := by
  constructor
  · intro h eh phs hheaders hloadable
    obtain ⟨result, hload⟩ := isSome_iff_exists.mp
      ((file.loadElfImage_isSome dynBaseHint captureInterp).mpr hloadable)
    obtain ⟨sums, hrun⟩ := loadElfImageTraced_fst.mpr hload
    obtain ⟨eh', phs', scan, regions, hheaders', hscan, hregions⟩ :=
      exists_of_loadElfImageTraced hrun
    obtain ⟨rfl, rfl⟩ := Prod.mk.inj (Option.some.inj (hheaders.symm.trans hheaders'))
    obtain ⟨eh', phs', hheaders', hsound⟩ :=
      h _ _ _ (loadElfImageTraced_run hheaders hscan hregions)
    obtain ⟨rfl, rfl⟩ := Prod.mk.inj (Option.some.inj (hheaders.symm.trans hheaders'))
    exact (sound_iff_modest hheaders hscan hregions).mp hsound
  · intro h image regions sums hrun
    obtain ⟨eh, phs, scan, regions', hheaders, hscan, hregions⟩ := exists_of_loadElfImageTraced hrun
    have hloadable := (file.loadElfImage_isSome dynBaseHint captureInterp).mp
      (by rw [loadElfImageTraced_fst.mp ⟨sums, hrun⟩]; rfl)
    rw [loadElfImageTraced_run hheaders hscan hregions] at hrun
    cases hrun
    exact ⟨eh, phs, hheaders,
      (sound_iff_modest hheaders hscan hregions).mpr (h eh phs hheaders hloadable)⟩

/-- A position-independent file of a header only, with the last address as its entry point. -/
def lastAddress : List UInt8 :=
  elfMagic ++ replicate 12 0 ++ [3, 0] ++ replicate 6 0 ++ replicate 8 255 ++
    [64] ++ replicate 21 0 ++ [56] ++ replicate 9 0

/-- The file is accepted, and the entry point wraps around. -/
theorem lastAddress_wraps :
    ((ofBytes lastAddress).loadElfImage 0x40000000 true).map (fun r => r.1.entryPoint) =
        some 0x3fffffff ∧
      ¬ (ofBytes lastAddress).LoadsSafely 0x40000000 true := by
  have hentry : ((ofBytes lastAddress).loadElfImage 0x40000000 true).map
      (fun r => r.1.entryPoint) = some 0x3fffffff := by decide +kernel
  refine ⟨hentry, fun h => ?_⟩
  obtain ⟨result, hload, -⟩ := map_eq_some_iff.mp hentry
  obtain ⟨sums, hrun⟩ := loadElfImageTraced_fst.mpr hload
  obtain ⟨eh, phs, hheaders, hsound⟩ := h result.1 result.2 sums hrun
  have heh : (ofBytes lastAddress).headers.map (fun r => r.1.eEntry) = some (2 ^ 64 - 1) := by
    decide +kernel
  rw [hheaders, map_some, Option.some.injEq] at heh
  have huser : userUpper < 2 ^ 64 - 1 := by decide
  have hbound := hsound.entry
  dsimp only at heh
  omega

end ExecFile

end Twilight.Memory

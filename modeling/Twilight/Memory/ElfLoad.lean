/-
Loading an ELF file: `load_elf_image` from the bytes of the file to the regions of the image.

The loader reads the file through `read_exact`, which fails at the end of the file and when the
device does; here it is whatever function the file comes with.  The declarative side is
`Loadable`: which headers and segments a file must have for the loader to accept it.
-/
import Twilight.Lib.Bytes
import Twilight.Memory.ElfUnmap

namespace Twilight.Memory

open List Option

variable {F : Type}

/-! ## Headers -/

/-- An opened executable: the node that its regions keep, `metadata.size` and `read_exact`. -/
structure ExecFile (F : Type) where
  file : F
  size : Nat
  readExact : Nat → Nat → Option (List UInt8)

structure Elf64Ehdr where
  magic : List UInt8
  eType : Nat
  eEntry : Nat
  ePhoff : Nat
  ePhentsize : Nat
  ePhnum : Nat
deriving DecidableEq

variable (bytes : List UInt8)

def Elf64Ehdr.ofBytes : Elf64Ehdr :=
  let b := Bytes.ofList bytes
  { magic := bytes.take 4
    eType := b.readLE 16 2
    eEntry := b.readLE 24 8
    ePhoff := b.readLE 32 8
    ePhentsize := b.readLE 54 2
    ePhnum := b.readLE 56 2 }

def Elf64Phdr.ofBytes : Elf64Phdr :=
  let b := Bytes.ofList bytes
  { pType := b.readLE 0 4
    pFlags := BitVec.ofNat 32 (b.readLE 4 4)
    pOffset := b.readLE 8 8
    pVaddr := b.readLE 16 8
    pFilesz := b.readLE 32 8
    pMemsz := b.readLE 40 8 }

def elfMagic : List UInt8 := [0x7f, 0x45, 0x4c, 0x46]

/-- `size_of::<Elf64Ehdr>()` -/
def ehdrSize : Nat := 64

/-- `size_of::<Elf64Phdr>()` -/
def phdrSize : Nat := 56

def ptInterp : Nat := 3
def ptPhdr : Nat := 6
def ptTls : Nat := 7

def checkedMul (a b : Nat) : Option Nat := if a * b < 2 ^ 64 then some (a * b) else none

def saturatingMul (a b : Nat) : Nat := min (a * b) (2 ^ 64 - 1)

/-- `from_utf8` accepts the bytes. -/
def isUtf8 : Bool := (String.fromUTF8? ⟨bytes.toArray⟩).isSome

structure LoadedImage where
  entryPoint : Nat
  phdrVa : Nat
  phent : Nat
  phnum : Nat
  maxEnd : Nat
  loadBase : Nat
  hasTls : Bool
  interpPath : Option (List UInt8)

namespace ExecFile

def ofBytes (bytes : List UInt8) : ExecFile Unit where
  file := ()
  size := bytes.length
  readExact offset len :=
    if offset + len ≤ bytes.length then some ((bytes.drop offset).take len) else none

variable (file : ExecFile F) (eh : Elf64Ehdr)

def programHeader (i : Nat) : Option Elf64Phdr := do
  let start ← checkedMul i eh.ePhentsize
  let offset ← checkedAdd eh.ePhoff start
  let bytes ← file.readExact offset phdrSize
  return Elf64Phdr.ofBytes bytes

def headers : Option (Elf64Ehdr × List Elf64Phdr) := do
  let bytes ← file.readExact 0 ehdrSize
  let eh := Elf64Ehdr.ofBytes bytes
  if eh.magic ≠ elfMagic then none
  else if eh.ePhentsize < phdrSize then none
  else
    let stop ← checkedAdd eh.ePhoff (saturatingMul eh.ePhentsize eh.ePhnum)
    if stop > file.size then none
    else
      let phs ← (List.range eh.ePhnum).mapM (file.programHeader eh)
      return (eh, phs)

structure Scan where
  phdrVa : Nat
  interpPath : Option (List UInt8)
  hasTls : Bool

def scanHeader (loadBias : Nat) (captureInterp : Bool) (acc : Scan)
    (ph : Elf64Phdr) : Option Scan :=
  if ph.pType = ptPhdr then some { acc with phdrVa := wrappingAdd loadBias ph.pVaddr }
  else if captureInterp ∧ ph.pType = ptInterp then do
    let stop ← checkedAdd ph.pOffset ph.pFilesz
    if stop > file.size then none
    else
      let bytes ← file.readExact ph.pOffset ph.pFilesz
      return if isUtf8 bytes then { acc with interpPath := some (bytes.rdropWhile (· = 0)) } else acc
  else if ph.pType = ptTls ∧ ph.pMemsz ≠ 0 then some { acc with hasTls := true }
  else some acc

/-- The address of the program headers, taken from the segment that contains them. -/
def phdrInSegment (loadBias : Nat) (eh : Elf64Ehdr) (phs : List Elf64Phdr) : Nat :=
  let stop := wrappingAdd eh.ePhoff (eh.ePhentsize * eh.ePhnum)
  match phs.find? fun ph =>
      ph.pType = ptLoad ∧ ph.pOffset ≤ eh.ePhoff ∧ stop ≤ wrappingAdd ph.pOffset ph.pFilesz with
  | none => 0
  | some ph => wrappingAdd (wrappingAdd loadBias ph.pVaddr) (eh.ePhoff - ph.pOffset)

def maxEnd (loadBias : Nat) (phs : List Elf64Phdr) : Nat :=
  phs.foldl (fun acc ph =>
    if ph.pType ≠ ptLoad ∨ ph.pMemsz = 0 then acc else max acc (loadBias + ph.pVaddr + ph.pMemsz)) 0

/-- A position-independent file is loaded at `dynBaseHint`. -/
def loadBias (dynBaseHint : Nat) : Nat := if eh.eType = 3 then dynBaseHint else 0

variable (dynBaseHint : Nat) (captureInterp : Bool)

def loadElfImage :
    Option (LoadedImage × List (ElfRegion F)) := do
  let (eh, phs) ← file.headers
  let bias := loadBias eh dynBaseHint
  let scan ← phs.foldlM (file.scanHeader bias captureInterp) ⟨0, none, false⟩
  let phdrVa := if scan.phdrVa = 0 then phdrInSegment bias eh phs else scan.phdrVa
  let regions ← ElfImage.loadElfImage ⟨file.file, file.size, bias, phs⟩
  return ({
    entryPoint := wrappingAdd eh.eEntry bias
    phdrVa := phdrVa
    phent := eh.ePhentsize
    phnum := eh.ePhnum
    maxEnd := maxEnd bias phs
    loadBase := bias
    hasTls := scan.hasTls
    interpPath := scan.interpPath }, regions)

/-! ## Which files are accepted -/

def phdrAt (i : Nat) : Option Elf64Phdr :=
  (file.readExact (eh.ePhoff + i * eh.ePhentsize) phdrSize).map Elf64Phdr.ofBytes

/-- A segment to load lies in the file and in the address space, and its file offset and its
address agree within a page. -/
structure SegmentOk (file : ExecFile F) (bias : Nat) (ph : Elf64Phdr) : Prop where
  sizes : ph.pFilesz ≤ ph.pMemsz
  inFile : ph.pOffset + ph.pFilesz ≤ file.size ∧ ph.pOffset + ph.pFilesz < 2 ^ 64
  inSpace : bias + ph.pVaddr + ph.pMemsz + (page - 1) < 2 ^ 64
  aligned : ph.pOffset % page = (bias + ph.pVaddr) % page

structure InterpOk (file : ExecFile F) (ph : Elf64Phdr) : Prop where
  inFile : ph.pOffset + ph.pFilesz ≤ file.size ∧ ph.pOffset + ph.pFilesz < 2 ^ 64
  readable : (file.readExact ph.pOffset ph.pFilesz).isSome = true

structure LoadableAs (file : ExecFile F) (dynBaseHint : Nat) (captureInterp : Bool)
    (eh : Elf64Ehdr) : Prop where
  header : (file.readExact 0 ehdrSize).map Elf64Ehdr.ofBytes = some eh
  magic : eh.magic = elfMagic
  entrySize : phdrSize ≤ eh.ePhentsize
  table : eh.ePhoff + eh.ePhentsize * eh.ePhnum ≤ file.size ∧
    eh.ePhoff + eh.ePhentsize * eh.ePhnum < 2 ^ 64
  programHeaders : ∀ i < eh.ePhnum, ∃ ph, file.phdrAt eh i = some ph ∧
    (ph.pType = ptLoad → ph.pMemsz ≠ 0 → file.SegmentOk (loadBias eh dynBaseHint) ph) ∧
    (captureInterp = true → ph.pType = ptInterp → file.InterpOk ph)

def Loadable : Prop := ∃ eh, file.LoadableAs dynBaseHint captureInterp eh

lemma checkedAdd_of_lt {a b : Nat} (h : a + b < 2 ^ 64) : checkedAdd a b = some (a + b) := if_pos h

lemma mapM_isSome {α β : Type} {f : α → Option β} {l : List α} :
    (l.mapM f).isSome = true ↔ ∀ a ∈ l, (f a).isSome = true := by
  induction l with
  | nil => simp
  | cons a l ih =>
    simp only [mapM_cons, forall_mem_cons, ← ih]
    cases f a <;> cases l.mapM f <;> simp

lemma mapM_congr {α β : Type} {f g : α → Option β} {l : List α} (h : ∀ a ∈ l, f a = g a) :
    l.mapM f = l.mapM g := by
  induction l with
  | nil => rfl
  | cons a l ih =>
    rw [mapM_cons, mapM_cons, h a mem_cons_self, ih fun b hb => h b (mem_cons_of_mem _ hb)]

lemma exists_of_mapM {α β : Type} {f : α → Option β} {l : List α} {l' : List β}
    (h : l.mapM f = some l') {a : α} (ha : a ∈ l) : ∃ b ∈ l', f a = some b := by
  induction l generalizing l' with
  | nil => cases ha
  | cons c l ih =>
    simp only [mapM_cons, bind_eq_bind, bind_eq_some_iff, Option.pure_def, Option.some.injEq] at h
    obtain ⟨b, hb, rest, hrest, rfl⟩ := h
    obtain rfl | ha := mem_cons.mp ha
    · exact ⟨b, mem_cons_self, hb⟩
    · obtain ⟨b', hb', hfa⟩ := ih hrest ha
      exact ⟨b', mem_cons_of_mem _ hb', hfa⟩

lemma foldlM_isSome {α β : Type} {f : β → α → Option β} {ok : α → Prop}
    (h : ∀ b a, (f b a).isSome = true ↔ ok a) {l : List α} {b : β} :
    (l.foldlM f b).isSome = true ↔ ∀ a ∈ l, ok a := by
  induction l generalizing b with
  | nil => simp
  | cons a l ih =>
    rw [foldlM_cons, forall_mem_cons, ← h b a]
    cases f b a with
    | none => simp
    | some b' => simp [ih]

lemma loadSegment_isSome (bias : Nat) (ph : Elf64Phdr) (phs : List Elf64Phdr) :
    (ElfImage.loadSegment ⟨file.file, file.size, bias, phs⟩ ph).isSome = true ↔
      (ph.pType = ptLoad → ph.pMemsz ≠ 0 → file.SegmentOk bias ph) := by
  unfold ElfImage.loadSegment
  by_cases hkind : ph.pType ≠ ptLoad ∨ ph.pMemsz = 0
  · rw [if_pos hkind]
    exact iff_of_true rfl fun hload hmem => absurd hkind (by simp [hload, hmem])
  rw [if_neg hkind]
  have hkind' : ph.pType = ptLoad ∧ ph.pMemsz ≠ 0 := by simpa [not_or] using hkind
  constructor
  · intro h _ _
    obtain ⟨regions, h⟩ := isSome_iff_exists.mp h
    split at h
    · cases h
    next hsizes =>
    simp only [bind_eq_bind, bind_eq_some_iff, checkedAdd_eq_some] at h
    obtain ⟨fileStop, hfileStop, h⟩ := h
    split at h
    · cases h
    next hsize =>
    simp only [bind_eq_some_iff, checkedAdd_eq_some, alignUpU64, map_eq_some_iff] at h
    obtain ⟨segStart, hsegStart, segMemEnd, hsegMemEnd, mapEnd, ⟨rounded, hrounded, -⟩, h⟩ := h
    split at h
    · cases h
    next haligned =>
    obtain ⟨rfl, hlt⟩ := hsegStart
    exact ⟨by omega, by omega, by omega, not_not.mp haligned⟩
  · intro h
    obtain ⟨hsizes, hinFile, hinSpace, haligned⟩ := h hkind'.1 hkind'.2
    rw [if_neg (by omega), checkedAdd_of_lt hinFile.2]
    simp only [bind_eq_bind, bind_some]
    rw [if_neg (by omega), checkedAdd_of_lt (by omega), bind_some,
      checkedAdd_of_lt (by omega), bind_some, alignUpU64, checkedAdd_of_lt hinSpace,
      map_some, bind_some, if_neg (not_not.mpr haligned), checkedAdd_of_lt (by omega)]
    rfl

lemma scanHeader_isSome (bias : Nat) (captureInterp : Bool) (acc : Scan) (ph : Elf64Phdr) :
    (file.scanHeader bias captureInterp acc ph).isSome = true ↔
      (captureInterp = true → ph.pType = ptInterp → file.InterpOk ph) := by
  unfold scanHeader
  by_cases hphdr : ph.pType = ptPhdr
  · rw [if_pos hphdr]
    exact iff_of_true rfl fun _ hinterp => absurd (hphdr.symm.trans hinterp) (by decide)
  rw [if_neg hphdr]
  by_cases hinterp : captureInterp = true ∧ ph.pType = ptInterp
  · rw [if_pos hinterp]
    constructor
    · intro h _ _
      obtain ⟨scan, h⟩ := isSome_iff_exists.mp h
      simp only [bind_eq_bind, bind_eq_some_iff, checkedAdd_eq_some] at h
      obtain ⟨stop, hstop, h⟩ := h
      split at h
      · cases h
      simp only [bind_eq_some_iff] at h
      obtain ⟨bytes, hbytes, -⟩ := h
      exact ⟨by omega, by rw [hbytes]; rfl⟩
    · intro h
      obtain ⟨hinFile, hreadable⟩ := h hinterp.1 hinterp.2
      obtain ⟨bytes, hbytes⟩ := isSome_iff_exists.mp hreadable
      rw [checkedAdd_of_lt hinFile.2]
      simp only [bind_eq_bind, bind_some]
      rw [if_neg (by omega), hbytes]
      rfl
  · rw [if_neg hinterp]
    refine iff_of_true ?_ fun hcapture hkind => absurd ⟨hcapture, hkind⟩ hinterp
    split <;> rfl

lemma programHeader_eq {file : ExecFile F} {eh : Elf64Ehdr} {i : Nat} (hi : i < eh.ePhnum)
    (htable : eh.ePhoff + eh.ePhentsize * eh.ePhnum < 2 ^ 64) :
    file.programHeader eh i = file.phdrAt eh i := by
  have hle : i * eh.ePhentsize ≤ eh.ePhentsize * eh.ePhnum := by
    rw [Nat.mul_comm]
    exact Nat.mul_le_mul_left _ hi.le
  rw [programHeader, checkedMul, if_pos (by omega)]
  simp only [bind_eq_bind, bind_some]
  rw [checkedAdd_of_lt (by omega), bind_some, phdrAt]
  cases file.readExact (eh.ePhoff + i * eh.ePhentsize) phdrSize <;> rfl

lemma saturatingMul_ofBytes (bytes : List UInt8) :
    saturatingMul (Elf64Ehdr.ofBytes bytes).ePhentsize (Elf64Ehdr.ofBytes bytes).ePhnum =
      (Elf64Ehdr.ofBytes bytes).ePhentsize * (Elf64Ehdr.ofBytes bytes).ePhnum := by
  have hsize : (Elf64Ehdr.ofBytes bytes).ePhentsize < 256 ^ 2 := Bytes.readLE_lt _ _ _
  have hnum : (Elf64Ehdr.ofBytes bytes).ePhnum < 256 ^ 2 := Bytes.readLE_lt _ _ _
  have hmul := Nat.mul_lt_mul'' hsize hnum
  exact min_eq_left (by omega)

lemma headers_eq_some {file : ExecFile F} {eh : Elf64Ehdr} {phs : List Elf64Phdr} :
    file.headers = some (eh, phs) ↔
      (file.readExact 0 ehdrSize).map Elf64Ehdr.ofBytes = some eh ∧ eh.magic = elfMagic ∧
        phdrSize ≤ eh.ePhentsize ∧
        (eh.ePhoff + eh.ePhentsize * eh.ePhnum ≤ file.size ∧
          eh.ePhoff + eh.ePhentsize * eh.ePhnum < 2 ^ 64) ∧
        (List.range eh.ePhnum).mapM (file.phdrAt eh) = some phs := by
  unfold headers
  cases hbytes : file.readExact 0 ehdrSize with
  | none => simp
  | some bytes =>
  have hmul := saturatingMul_ofBytes bytes
  simp only [bind_eq_bind, bind_some, map_some, Option.some.injEq]
  generalize Elf64Ehdr.ofBytes bytes = eh' at *
  by_cases hmagic : eh'.magic = elfMagic
  swap
  · rw [if_pos hmagic]
    exact iff_of_false (by simp) fun h => hmagic (h.1 ▸ h.2.1)
  rw [if_neg (not_not.mpr hmagic)]
  by_cases hsize : eh'.ePhentsize < phdrSize
  · rw [if_pos hsize]
    exact iff_of_false (by simp) fun h => absurd (h.1 ▸ h.2.2.1) (Nat.not_le.mpr hsize)
  rw [if_neg hsize, hmul]
  by_cases htable : eh'.ePhoff + eh'.ePhentsize * eh'.ePhnum < 2 ^ 64
  swap
  · rw [checkedAdd, if_neg htable]
    exact iff_of_false (by simp) fun h => htable (h.1 ▸ h.2.2.2.1.2)
  rw [checkedAdd_of_lt htable, bind_some]
  by_cases hinFile : eh'.ePhoff + eh'.ePhentsize * eh'.ePhnum > file.size
  · rw [if_pos hinFile]
    exact iff_of_false (by simp) fun h => absurd (h.1 ▸ h.2.2.2.1.1) (Nat.not_le.mpr hinFile)
  rw [if_neg hinFile, mapM_congr fun i hi => programHeader_eq (mem_range.mp hi) htable]
  simp only [bind_eq_some_iff, Option.pure_def, Option.some.injEq, Prod.mk.injEq]
  constructor
  · rintro ⟨phs', hphs, rfl, rfl⟩
    exact ⟨rfl, hmagic, Nat.not_lt.mp hsize, ⟨Nat.not_lt.mp hinFile, htable⟩, hphs⟩
  · rintro ⟨rfl, -, -, -, hphs⟩
    exact ⟨phs, hphs, rfl, rfl⟩

lemma loadElfImage_isSome_iff_headers :
    (file.loadElfImage dynBaseHint captureInterp).isSome = true ↔
      ∃ eh phs, file.headers = some (eh, phs) ∧ ∀ ph ∈ phs,
        (ph.pType = ptLoad → ph.pMemsz ≠ 0 → file.SegmentOk (loadBias eh dynBaseHint) ph) ∧
        (captureInterp = true → ph.pType = ptInterp → file.InterpOk ph) := by
  unfold loadElfImage
  cases hheaders : file.headers with
  | none => simp
  | some r =>
  obtain ⟨eh, phs⟩ := r
  have hscan := @foldlM_isSome _ _ (file.scanHeader (loadBias eh dynBaseHint) captureInterp) _
    (file.scanHeader_isSome (loadBias eh dynBaseHint) captureInterp) phs ⟨0, none, false⟩
  have hsegments : (ElfImage.loadElfImage ⟨file.file, file.size, loadBias eh dynBaseHint, phs⟩).isSome =
      true ↔ ∀ ph ∈ phs, ph.pType = ptLoad → ph.pMemsz ≠ 0 →
        file.SegmentOk (loadBias eh dynBaseHint) ph := by
    rw [ElfImage.loadElfImage, isSome_map, mapM_isSome]
    exact forall₂_congr fun ph _ => file.loadSegment_isSome _ ph phs
  have hboth : (∀ ph ∈ phs,
        (ph.pType = ptLoad → ph.pMemsz ≠ 0 → file.SegmentOk (loadBias eh dynBaseHint) ph) ∧
        (captureInterp = true → ph.pType = ptInterp → file.InterpOk ph)) ↔
      (ElfImage.loadElfImage ⟨file.file, file.size, loadBias eh dynBaseHint, phs⟩).isSome = true ∧
        (phs.foldlM (file.scanHeader (loadBias eh dynBaseHint) captureInterp)
          ⟨0, none, false⟩).isSome = true := by
    rw [hscan, hsegments]
    exact ⟨fun h => ⟨fun ph hph => (h ph hph).1, fun ph hph => (h ph hph).2⟩,
      fun h ph hph => ⟨h.1 ph hph, h.2 ph hph⟩⟩
  refine Iff.trans ?_ (hboth.symm.trans ⟨fun h => ⟨eh, phs, rfl, h⟩, ?_⟩)
  · simp only [bind_eq_bind, bind_some]
    cases phs.foldlM (file.scanHeader (loadBias eh dynBaseHint) captureInterp) ⟨0, none, false⟩ <;>
      cases ElfImage.loadElfImage ⟨file.file, file.size, loadBias eh dynBaseHint, phs⟩ <;> simp
  · rintro ⟨eh', phs', heq, h⟩
    obtain ⟨rfl, rfl⟩ := Prod.mk.inj (Option.some.inj heq)
    exact h

lemma loadElfImage_isSome :
    (file.loadElfImage dynBaseHint captureInterp).isSome = true ↔
      file.Loadable dynBaseHint captureInterp := by
  rw [loadElfImage_isSome_iff_headers]
  constructor
  · rintro ⟨eh, phs, hheaders, hphs⟩
    obtain ⟨hheader, hmagic, hsize, htable, hmapM⟩ := headers_eq_some.mp hheaders
    refine ⟨eh, hheader, hmagic, hsize, htable, fun i hi => ?_⟩
    obtain ⟨ph, hph, hat⟩ := exists_of_mapM hmapM (mem_range.mpr hi)
    exact ⟨ph, hat, hphs ph hph⟩
  · rintro ⟨eh, h⟩
    have hall : ((List.range eh.ePhnum).mapM (file.phdrAt eh)).isSome = true := by
      rw [mapM_isSome]
      intro i hi
      obtain ⟨ph, hat, -⟩ := h.programHeaders i (mem_range.mp hi)
      rw [hat]
      rfl
    obtain ⟨phs, hmapM⟩ := isSome_iff_exists.mp hall
    refine ⟨eh, phs, headers_eq_some.mpr ⟨h.header, h.magic, h.entrySize, h.table, hmapM⟩, ?_⟩
    intro ph hph
    obtain ⟨i, hi, hat⟩ := mem_of_mapM hmapM hph
    obtain ⟨ph', hat', hok⟩ := h.programHeaders i (mem_range.mp hi)
    obtain rfl := Option.some.inj (hat.symm.trans hat')
    exact hok

/-! ## What a file asks for -/

variable (phs : List Elf64Phdr)

/-- The path that the last header for an interpreter names; a path that is not text is passed
over. -/
def interpreter : Option (List UInt8) :=
  phs.foldl (fun acc ph =>
    if ph.pType = ptInterp then
      match file.readExact ph.pOffset ph.pFilesz with
      | none => acc
      | some bytes => if isUtf8 bytes then some (bytes.rdropWhile (· = 0)) else acc
    else acc) none

def wantsTls : Bool := phs.any fun ph => ph.pType = ptTls ∧ ph.pMemsz ≠ 0

lemma scan_eq {file : ExecFile F} {bias : Nat} {phs : List Elf64Phdr} {acc scan : Scan}
    (h : phs.foldlM (file.scanHeader bias true) acc = some scan) :
    scan.interpPath = phs.foldl (fun acc ph =>
      if ph.pType = ptInterp then
        match file.readExact ph.pOffset ph.pFilesz with
        | none => acc
        | some bytes => if isUtf8 bytes then some (bytes.rdropWhile (· = 0)) else acc
      else acc) acc.interpPath ∧ scan.hasTls = (acc.hasTls || wantsTls phs) := by
  induction phs generalizing acc with
  | nil =>
    obtain rfl := Option.some.inj h
    exact ⟨rfl, (Bool.or_false _).symm⟩
  | cons ph phs ih =>
    rw [foldlM_cons, bind_eq_bind, bind_eq_some_iff] at h
    obtain ⟨acc', hacc, h⟩ := h
    obtain ⟨hpath, htls⟩ := ih h
    rw [hpath, htls, foldl_cons, wantsTls, wantsTls, any_cons, ← Bool.or_assoc]
    unfold scanHeader at hacc
    by_cases hphdr : ph.pType = ptPhdr
    · rw [if_pos hphdr] at hacc
      obtain rfl := Option.some.inj hacc
      simp [hphdr, ptPhdr, ptInterp, ptTls]
    rw [if_neg hphdr] at hacc
    by_cases hinterp : ph.pType = ptInterp
    · rw [if_pos ⟨rfl, hinterp⟩] at hacc
      simp only [bind_eq_bind, bind_eq_some_iff] at hacc
      obtain ⟨stop, -, hacc⟩ := hacc
      split at hacc
      · cases hacc
      simp only [bind_eq_some_iff] at hacc
      obtain ⟨bytes, hbytes, hacc⟩ := hacc
      obtain rfl := Option.some.inj hacc
      simp only [hbytes]
      split <;> simp [hinterp, ptInterp, ptTls]
    rw [if_neg fun h => hinterp h.2] at hacc
    split at hacc
    next hheader =>
      obtain rfl := Option.some.inj hacc
      simp only [if_neg hinterp, decide_eq_true hheader, Bool.or_true, and_self]
    next hheader =>
      obtain rfl := Option.some.inj hacc
      simp only [if_neg hinterp, decide_eq_false hheader, Bool.or_false, and_self]

/-- The image of an executable in terms of its headers. -/
lemma loadElfImage_main {file : ExecFile F} {dynBaseHint : Nat} {image : LoadedImage}
    {regions : List (ElfRegion F)} (h : file.loadElfImage dynBaseHint true = some (image, regions)) :
    ∃ eh phs, file.headers = some (eh, phs) ∧ image.interpPath = file.interpreter phs ∧
      image.hasTls = wantsTls phs ∧ image.maxEnd = maxEnd (loadBias eh dynBaseHint) phs := by
  unfold loadElfImage at h
  simp only [bind_eq_bind, bind_eq_some_iff] at h
  obtain ⟨⟨eh, phs⟩, hheaders, scan, hscan, regions', -, heq⟩ := h
  obtain ⟨hpath, htls⟩ := scan_eq hscan
  obtain ⟨rfl, rfl⟩ := Prod.mk.inj (Option.some.inj heq)
  exact ⟨eh, phs, hheaders, hpath, htls, rfl⟩

end ExecFile

end Twilight.Memory

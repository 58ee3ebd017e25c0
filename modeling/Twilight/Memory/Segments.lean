/-
The segments of an executable and the regions that the loader makes of them.

An accepted file gives one region for each segment that has anything in memory, in the order of the
program headers.  A region starts at the page of its segment and ends with a page; its part of the
file starts at the same page, so that it has bytes of the file from before the segment.
-/
import Twilight.Memory.ElfLoad

namespace Twilight.Memory

open List Option

variable {F : Type}

def Elf64Phdr.Loads (ph : Elf64Phdr) : Prop := ph.pType = ptLoad ∧ ph.pMemsz ≠ 0

instance : DecidablePred Elf64Phdr.Loads := fun _ => inferInstanceAs (Decidable (_ ∧ _))

namespace ExecFile

def segmentRegion (file : F) (bias : Nat) (ph : Elf64Phdr) : ElfRegion F :=
  let segStart := bias + ph.pVaddr
  let mapStart := alignDownU64 segStart
  { base := mapStart
    len := alignDownU64 (segStart + ph.pMemsz + (page - 1)) - mapStart
    fileBase := mapStart
    fileOffset := alignDownU64 ph.pOffset
    fileEnd := segStart + ph.pFilesz
    permissions := ⟨ph.pFlags &&& 4 ≠ 0, ph.pFlags &&& 2 ≠ 0, ph.pFlags &&& 1 ≠ 0⟩
    file := file }

lemma loadSegment_eq_some {file : ExecFile F} {bias : Nat} {phs : List Elf64Phdr}
    {ph : Elf64Phdr} {regions : List (ElfRegion F)}
    (h : ElfImage.loadSegment ⟨file.file, file.size, bias, phs⟩ ph = some regions) :
    (ph.Loads → file.SegmentOk bias ph) ∧
      regions = if ph.Loads then [segmentRegion file.file bias ph] else [] := by
  have hok := (loadSegment_isSome file bias ph phs).mp (by rw [h]; rfl)
  refine ⟨fun hloads => hok hloads.1 hloads.2, ?_⟩
  unfold ElfImage.loadSegment at h
  by_cases hloads : ph.Loads
  · obtain ⟨hsizes, hinFile, hinSpace, haligned⟩ := hok hloads.1 hloads.2
    have hpage : 0 < page - 1 := by decide
    rw [if_neg (by simpa [Elf64Phdr.Loads] using hloads), if_neg (by omega)] at h
    simp only [checkedAdd_of_lt hinFile.2, bind_eq_bind, bind_some] at h
    rw [if_neg (by omega), checkedAdd_of_lt (by omega), bind_some,
      checkedAdd_of_lt (by omega), bind_some, alignUpU64, checkedAdd_of_lt hinSpace,
      map_some, bind_some, if_neg (not_not.mpr haligned),
      checkedAdd_of_lt (by omega)] at h
    rw [if_pos hloads]
    exact (Option.some.inj h).symm
  · rw [if_pos (by simpa [Elf64Phdr.Loads, or_iff_not_imp_left] using hloads)] at h
    rw [if_neg hloads]
    exact (Option.some.inj h).symm

lemma regions_eq {file : ExecFile F} {bias : Nat} {phs : List Elf64Phdr}
    {regions : List (ElfRegion F)}
    (h : ElfImage.loadElfImage ⟨file.file, file.size, bias, phs⟩ = some regions) :
    regions = (phs.filter fun ph => ph.Loads).map (segmentRegion file.file bias) ∧
      ∀ ph ∈ phs, ph.Loads → file.SegmentOk bias ph := by
  rw [ElfImage.loadElfImage, map_eq_some_iff] at h
  obtain ⟨parts, hparts, rfl⟩ := h
  have hgeneral : ∀ l : List Elf64Phdr, ∀ parts,
      l.mapM (ElfImage.loadSegment ⟨file.file, file.size, bias, phs⟩) = some parts →
      parts.flatten = (l.filter fun ph => ph.Loads).map (segmentRegion file.file bias) ∧
        ∀ ph ∈ l, ph.Loads → file.SegmentOk bias ph := by
    intro l
    induction l with
    | nil =>
      intro parts h
      cases h
      exact ⟨rfl, by simp⟩
    | cons ph l ih =>
      intro parts h
      simp only [mapM_cons, bind_eq_bind, bind_eq_some_iff, Option.pure_def, Option.some.injEq] at h
      obtain ⟨part, hpart, rest, hrest, rfl⟩ := h
      obtain ⟨hok, rfl⟩ := loadSegment_eq_some hpart
      obtain ⟨hregions, hrestOk⟩ := ih rest hrest
      refine ⟨?_, forall_mem_cons.mpr ⟨hok, hrestOk⟩⟩
      rw [flatten_cons, hregions, filter_cons]
      split
      · next hloads => simp [hloads]
      · next hloads => simp [hloads]
  exact hgeneral phs parts hparts

end ExecFile

end Twilight.Memory

/-
Unmapping a part of an ELF image. `remove_elf_range` moves the end of the file's part of a region
along with its start, so that behind the removed range addresses past that end, which showed
zeros, can show file bytes. Everything else about the remaining pages stays as it was.
-/
import Twilight.Lib.LastBy
import Twilight.Memory.ProcMM

namespace Twilight.Memory

open List Option ElfRegion

variable {F : Type}

/-! ## Loading -/

structure Elf64Phdr where
  pType : Nat
  pFlags : BitVec 32
  pOffset : Nat
  pVaddr : Nat
  pFilesz : Nat
  pMemsz : Nat
deriving DecidableEq

def ptLoad : Nat := 1

/-- An executable as `load_elf_image` sees it once it has read the headers. -/
structure ElfImage (F : Type) where
  file : F
  size : Nat
  loadBias : Nat
  programHeaders : List Elf64Phdr

def alignDownU64 (value : Nat) : Nat := value / page * page

def alignUpU64 (value : Nat) : Option Nat := (checkedAdd value (page - 1)).map alignDownU64

namespace ElfImage

/-- One turn of the loop of `load_elf_image` over the program headers: the region it adds, if
any. -/
def loadSegment (image : ElfImage F) (ph : Elf64Phdr) : Option (List (ElfRegion F)) :=
  if ph.pType ≠ ptLoad ∨ ph.pMemsz = 0 then some []
  else if ph.pFilesz > ph.pMemsz then none
  else do
    let fileStop ← checkedAdd ph.pOffset ph.pFilesz
    if fileStop > image.size then none
    else
      let segStart ← checkedAdd image.loadBias ph.pVaddr
      let segMemEnd ← checkedAdd segStart ph.pMemsz
      let mapStart := alignDownU64 segStart
      let mapEnd ← alignUpU64 segMemEnd
      if ph.pOffset % page ≠ segStart % page then none
      else
        let fileEnd ← checkedAdd segStart ph.pFilesz
        return [{
          base := mapStart
          len := mapEnd - mapStart
          fileBase := mapStart
          fileOffset := alignDownU64 ph.pOffset
          fileEnd := fileEnd
          permissions := ⟨ph.pFlags &&& 4 ≠ 0, ph.pFlags &&& 2 ≠ 0, ph.pFlags &&& 1 ≠ 0⟩
          file := image.file }]

def loadElfImage (image : ElfImage F) : Option (List (ElfRegion F)) :=
  (image.programHeaders.mapM image.loadSegment).map List.flatten

/-- The executable and then its interpreter, if it has one, are loaded into one list. -/
def loadAll (images : List (ElfImage F)) : Option (List (ElfRegion F)) :=
  (images.mapM loadElfImage).map List.flatten

/-- The segments lie in user space, and the file has a size that a file can have. -/
structure Valid (image : ElfImage F) : Prop where
  size : image.size < 2 ^ 63
  user : ∀ ph ∈ image.programHeaders, ph.pType = ptLoad → ph.pMemsz ≠ 0 →
    image.loadBias + ph.pVaddr + ph.pMemsz ≤ userUpper

end ElfImage

namespace ElfRegion

/-- What is true of every region that was loaded and not yet split. -/
structure Loaded (r : ElfRegion F) : Prop where
  base : page ∣ r.base
  len : page ∣ r.len
  pos : 0 < r.len
  user : r.base + r.len ≤ userUpper
  fileBase : r.fileBase = r.base
  fileEnd : r.base ≤ r.fileEnd ∧ r.fileEnd ≤ r.base + r.len
  fileOffset : r.fileOffset < 2 ^ 63

lemma Loaded.stop_eq {r : ElfRegion F} (h : r.Loaded) : r.stop = r.base + r.len := by
  have huser := h.user
  rw [stop, saturatingAdd]
  simp only [userUpper] at huser
  omega

end ElfRegion

lemma checkedAdd_eq_some {a b c : Nat} :
    checkedAdd a b = some c ↔ a + b = c ∧ c < 2 ^ 64 := by
  unfold checkedAdd
  split
  · rw [Option.some.injEq]
    omega
  · exact iff_of_false nofun (by omega)

variable {regions : List (ElfRegion F)}

lemma ElfImage.Valid.loadSegment {image : ElfImage F} (h : image.Valid) {ph : Elf64Phdr}
    (hph : ph ∈ image.programHeaders)
    (hload : image.loadSegment ph = some regions) : ∀ r ∈ regions, r.Loaded := by
  unfold ElfImage.loadSegment at hload
  split at hload
  · cases hload
    nofun
  next hkind =>
  rw [not_or, not_not] at hkind
  have huser := h.user ph hph hkind.1 hkind.2
  split at hload
  · cases hload
  simp only [bind_eq_bind, bind_eq_some_iff, checkedAdd_eq_some] at hload
  obtain ⟨fileStop, hfileStop, hload⟩ := hload
  split at hload
  · cases hload
  simp only [bind_eq_some_iff, checkedAdd_eq_some, alignUpU64, map_eq_some_iff] at hload
  obtain ⟨segStart, hsegStart, segMemEnd, hsegMemEnd, mapEnd, ⟨rounded, hrounded, rfl⟩, hload⟩ := hload
  split at hload
  · cases hload
  simp only [bind_eq_some_iff, checkedAdd_eq_some] at hload
  obtain ⟨fileEnd, hfileEnd, hload⟩ := hload
  cases hload
  intro r hr
  obtain rfl := mem_singleton.mp hr
  have hsize := h.size
  simp only [alignDownU64, page, userUpper] at *
  refine ⟨?_, ?_, ?_, ?_, rfl, ?_, ?_⟩
  · exact Nat.dvd_mul_left _ _
  · simp only [page]
    omega
  · dsimp only
    omega
  · simp only [userUpper]
    omega
  · dsimp only
    omega
  · dsimp only
    omega

lemma mem_of_mapM {α β : Type} {f : α → Option β} {l : List α} {l' : List β}
    (h : l.mapM f = some l') {b : β} (hb : b ∈ l') : ∃ a ∈ l, f a = some b := by
  induction l generalizing l' with
  | nil =>
    simp only [mapM_nil, Option.pure_def, Option.some.injEq] at h
    subst h
    cases hb
  | cons a l ih =>
    simp only [mapM_cons, bind_eq_bind, bind_eq_some_iff, Option.pure_def, Option.some.injEq] at h
    obtain ⟨c, hc, rest, hrest, rfl⟩ := h
    obtain rfl | hb := mem_cons.mp hb
    · exact ⟨a, mem_cons_self, hc⟩
    · obtain ⟨a', ha', hfa⟩ := ih hrest hb
      exact ⟨a', mem_cons_of_mem _ ha', hfa⟩

lemma loaded_of_loadAll {images : List (ElfImage F)} (hvalid : ∀ image ∈ images, image.Valid)
    (h : ElfImage.loadAll images = some regions) :
    ∀ r ∈ regions, r.Loaded := by
  intro r hr
  rw [ElfImage.loadAll, map_eq_some_iff] at h
  obtain ⟨lists, hlists, rfl⟩ := h
  obtain ⟨regions, hregions, hr⟩ := mem_flatten.mp hr
  obtain ⟨image, himage, hload⟩ := mem_of_mapM hlists hregions
  rw [ElfImage.loadElfImage, map_eq_some_iff] at hload
  obtain ⟨segments, hsegments, rfl⟩ := hload
  obtain ⟨segment, hsegment, hr⟩ := mem_flatten.mp hr
  obtain ⟨ph, hph, hload⟩ := mem_of_mapM hsegments hsegment
  exact (hvalid image himage).loadSegment hph hload r hr

/-! ## What a plan shows -/

variable (r : ElfRegion F) (p : Nat)

def ElfRegion.Meets : Prop := p < r.stop ∧ r.base < p + page

def ElfRegion.Backed (x : Nat) : Prop := r.base ≤ x ∧ x < r.stop ∧ r.fileBase ≤ x ∧ x < r.fileEnd

instance (r : ElfRegion F) (p : Nat) : Decidable (r.Meets p) := inferInstanceAs (Decidable (_ ∧ _))

instance (r : ElfRegion F) (x : Nat) : Decidable (r.Backed x) :=
  inferInstanceAs (Decidable (_ ∧ _ ∧ _ ∧ _))

def ElfRegion.byte (r : ElfRegion F) (x : Nat) : F × Nat :=
  (r.file, r.fileOffset + (x - r.fileBase))

/-- What the regions show at an address, a later region over an earlier one; nothing is a zero
byte. -/
def visible (regions : List (ElfRegion F)) (x : Nat) : Option (F × Nat) :=
  lastBy (·.Backed x) (·.byte x) regions

/-- What the fragments put at an offset of the page, one after the other. -/
def contents (fragments : List (ElfPageFragment F)) (o : Nat) : Option (F × Nat) :=
  lastBy (fun f => f.pageOffset ≤ o ∧ o < f.pageOffset + f.len)
    (fun f => (f.file, f.fileOffset + (o - f.pageOffset))) fragments

def permissionsAt (regions : List (ElfRegion F)) : VmPermissions :=
  regions.foldl (fun acc r => if r.Meets p then acc.union r.permissions else acc) .none

lemma plan_append (p e : Nat) (l l' : List (ElfRegion F)) (permissions : VmPermissions)
    (fragments : List (ElfPageFragment F)) (found : Bool) :
    plan p e (l ++ l') permissions fragments found =
      (plan p e l permissions fragments found).bind fun acc =>
        plan p e l' acc.1 acc.2.1 acc.2.2 := by
  induction l generalizing permissions fragments found with
  | nil => rfl
  | cons r l ih =>
    rw [cons_append, plan, plan]
    split
    · exact ih _ _ _
    dsimp only
    split
    · exact ih _ _ _
    split
    · rfl
    · exact ih _ _ _

/-- No offset of the region's file part overflows. -/
def ElfRegion.Tame : Prop := r.fileOffset + (r.stop - r.fileBase) < 2 ^ 64

/-- No offset that a plan takes from the region's file part overflows. -/
def ElfRegion.Fits : Prop := r.fileOffset + (min r.stop r.fileEnd - r.fileBase) ≤ 2 ^ 64

lemma ElfRegion.Tame.fits {r : ElfRegion F} (h : r.Tame) : r.Fits := by
  unfold Tame at h
  unfold Fits
  omega

lemma plan_shows (h : ∀ r ∈ regions, r.Fits) :
    ∃ fragments, plan p (p + page) regions .none [] false =
        some (permissionsAt p regions, fragments, regions.any fun r => decide (r.Meets p)) ∧
      ∀ o < page, contents fragments o = visible regions (p + o) := by
  induction regions using List.reverseRecOn with
  | nil => exact ⟨[], rfl, fun _ _ => rfl⟩
  | append_singleton l r ih =>
    obtain ⟨fragments, hplan, hcontents⟩ := ih fun r' hr' => h r' (by simp [hr'])
    have hfits : r.fileOffset + (min r.stop r.fileEnd - r.fileBase) ≤ 2 ^ 64 := h r (by simp)
    have hperm : permissionsAt p (l ++ [r]) =
        if r.Meets p then (permissionsAt p l).union r.permissions else permissionsAt p l := by
      rw [permissionsAt, foldl_append]
      rfl
    rw [plan_append, hplan, bind_some, hperm, any_append, plan]
    simp only [any_cons, any_nil, Bool.or_false]
    by_cases hmeets : r.Meets p
    · have hin : ¬ (p ≥ r.stop ∨ p + page ≤ r.base) := by
        rw [Meets] at hmeets
        omega
      simp only [if_neg hin, hmeets, decide_true, Bool.or_true]
      by_cases hcopy : max p (max r.base r.fileBase) ≥ min (p + page) (min r.stop r.fileEnd)
      · rw [if_pos hcopy, plan]
        refine ⟨fragments, rfl, fun o ho => ?_⟩
        rw [visible, lastBy_append_singleton, if_neg, hcontents o ho, visible]
        rintro ⟨hb, hs, hfb, hfe⟩
        omega
      rw [if_neg hcopy]
      have hoffset : checkedAdd r.fileOffset (max p (max r.base r.fileBase) - r.fileBase) =
          some (r.fileOffset + (max p (max r.base r.fileBase) - r.fileBase)) :=
        checkedAdd_eq_some.mpr ⟨rfl, by omega⟩
      rw [hoffset]
      refine ⟨_, rfl, fun o ho => ?_⟩
      have hwhere : (max p (max r.base r.fileBase) - p ≤ o ∧ o <
          max p (max r.base r.fileBase) - p + (min (p + page) (min r.stop r.fileEnd) -
            max p (max r.base r.fileBase))) ↔ r.Backed (p + o) := by
        rw [Backed]
        omega
      rw [contents, lastBy_append_singleton, visible, lastBy_append_singleton, ← contents,
        ← visible, hcontents o ho]
      by_cases hbacked : r.Backed (p + o)
      · rw [if_pos (hwhere.mpr hbacked), if_pos hbacked]
        congr 2
        have hge := (hwhere.mpr hbacked).1
        dsimp only
        omega
      · rw [if_neg fun hin => hbacked (hwhere.mp hin), if_neg hbacked]
    · have hout : p ≥ r.stop ∨ p + page ≤ r.base := by
        rw [Meets] at hmeets
        omega
      simp only [if_pos hout, hmeets, decide_false, Bool.or_false]
      refine ⟨fragments, rfl, fun o ho => ?_⟩
      rw [visible, lastBy_append_singleton, if_neg, hcontents o ho, visible]
      rintro ⟨hb, hs, -⟩
      omega

lemma plan_spec (h : ∀ r ∈ regions, r.Tame) :
    ∃ fragments, plan p (p + page) regions .none [] false =
        some (permissionsAt p regions, fragments, regions.any fun r => decide (r.Meets p)) ∧
      ∀ o < page, contents fragments o = visible regions (p + o) :=
  plan_shows p fun r hr => (h r hr).fits

/-! ## Removing a range -/

section Remove

variable {lo hi p : Nat} {r r' : ElfRegion F} {permissions : VmPermissions}
  {fragments : List (ElfPageFragment F)} {found : Bool}

def ElfRegion.Overlaps (lo hi : Nat) (r : ElfRegion F) : Prop := max lo r.base < min hi r.stop

instance (r : ElfRegion F) : Decidable (r.Overlaps lo hi) := inferInstanceAs (Decidable (_ < _))

/-- The region with only the end of its file part moved, if some address of it is removed. -/
def ElfRegion.shift (lo hi : Nat) (r : ElfRegion F) : ElfRegion F :=
  if r.Overlaps lo hi then { r with fileEnd := r.fileEnd + (hi - r.base) } else r

lemma plan_skip (h : ¬ r.Meets p) (rest : List (ElfRegion F)) :
    plan p (p + page) (r :: rest) permissions fragments found =
      plan p (p + page) rest permissions fragments found := by
  rw [plan, if_pos]
  rw [Meets] at h
  omega

lemma plan_skip_all {regions : List (ElfRegion F)} (h : ∀ r ∈ regions, ¬ r.Meets p) :
    plan p (p + page) regions permissions fragments found =
      some (permissions, fragments, found) := by
  induction regions with
  | nil => rfl
  | cons r rest ih =>
    rw [plan_skip (h r mem_cons_self), ih fun r' hr' => h r' (mem_cons_of_mem _ hr')]

lemma plan_congr (hpermissions : r.permissions = r'.permissions) (hfile : r.file = r'.file)
    (hmeets : r.Meets p ↔ r'.Meets p)
    (hstart : r.Meets p → max p (max r.base r.fileBase) = max p (max r'.base r'.fileBase))
    (hend : r.Meets p →
      min (p + page) (min r.stop r.fileEnd) = min (p + page) (min r'.stop r'.fileEnd))
    (hoffset : r.Meets p → r.fileOffset + (max p (max r.base r.fileBase) - r.fileBase) =
      r'.fileOffset + (max p (max r'.base r'.fileBase) - r'.fileBase)) :
    plan p (p + page) [r] permissions fragments found =
      plan p (p + page) [r'] permissions fragments found := by
  by_cases hr : r.Meets p
  · have hr' := hmeets.mp hr
    have hin : ¬ (p ≥ r.stop ∨ p + page ≤ r.base) := by
      rw [Meets] at hr
      omega
    have hin' : ¬ (p ≥ r'.stop ∨ p + page ≤ r'.base) := by
      rw [Meets] at hr'
      omega
    have hadd : checkedAdd r.fileOffset (max p (max r'.base r'.fileBase) - r.fileBase) =
        checkedAdd r'.fileOffset (max p (max r'.base r'.fileBase) - r'.fileBase) := by
      rw [checkedAdd, checkedAdd, ← hoffset hr, hstart hr]
    simp only [plan, if_neg hin, if_neg hin', hstart hr, hend hr, hpermissions, hfile, hadd]
  · rw [plan_skip hr, plan_skip fun h => hr (hmeets.mpr h)]

lemma plan_skip_last (h : ¬ r.Meets p) (l : List (ElfRegion F)) :
    plan p (p + page) (l ++ [r]) permissions fragments found =
      plan p (p + page) l permissions fragments found := by
  have hid : (fun acc : VmPermissions × List (ElfPageFragment F) × Bool =>
      plan p (p + page) [r] acc.1 acc.2.1 acc.2.2) = some := by
    funext acc
    rw [plan_skip h]
    rfl
  rw [plan_append, hid, bind_fun_some]

lemma without_eq (h : r.Overlaps lo hi) :
    r.without lo hi = (if r.base < lo then [{ r with len := lo - r.base }] else []) ++
      if hi < r.stop then [r.advance hi (r.stop - hi)] else [] := by
  rw [Overlaps] at h
  unfold without
  dsimp only
  rw [if_neg (by omega)]
  congr 1
  · by_cases hleft : r.base < lo
    · rw [if_pos (by omega), if_pos hleft, show max lo r.base = lo by omega]
    · rw [if_neg (by omega), if_neg hleft]
  · by_cases hright : hi < r.stop
    · rw [if_pos (by omega), if_pos hright, show min hi r.stop = hi by omega]
    · rw [if_neg (by omega), if_neg hright]

lemma without_eq_self (h : ¬ r.Overlaps lo hi) : r.without lo hi = [r] := by
  rw [Overlaps] at h
  unfold without
  dsimp only
  rw [if_pos (by omega)]

lemma advance_eq (h : r.Loaded) (hover : r.Overlaps lo hi) (hright : hi < r.stop) :
    r.advance hi (r.stop - hi) = { r with
      base := hi
      len := r.stop - hi
      fileBase := hi
      fileOffset := r.fileOffset + (hi - r.base)
      fileEnd := r.fileEnd + (hi - r.base) } := by
  have hstop := h.stop_eq
  have huser := h.user
  have hend := h.fileEnd
  have hoffset := h.fileOffset
  rw [Overlaps] at hover
  simp only [userUpper] at huser
  have hdelta : wrappingSub hi r.base = hi - r.base := by
    rw [wrappingSub]
    omega
  have hbase : wrappingAdd r.fileBase (hi - r.base) = hi := by
    rw [wrappingAdd, h.fileBase]
    omega
  have hfile : wrappingAdd r.fileOffset (hi - r.base) = r.fileOffset + (hi - r.base) := by
    rw [wrappingAdd]
    omega
  have hfileEnd : wrappingAdd r.fileEnd (hi - r.base) = r.fileEnd + (hi - r.base) := by
    rw [wrappingAdd]
    omega
  simp only [advance, hdelta, hbase, hfile, hfileEnd]

lemma page_pos : 0 < page := by decide

lemma plan_without_before (h : r.Loaded) (hp : p + page ≤ lo) :
    plan p (p + page) (r.without lo hi) permissions fragments found =
      plan p (p + page) [r] permissions fragments found := by
  by_cases hover : r.Overlaps lo hi
  · have hstop := h.stop_eq
    have huser := h.user
    simp only [userUpper] at huser
    rw [without_eq hover]
    rw [Overlaps] at hover
    -- the part behind the range does not reach the page
    have hskip : ∀ l : List (ElfRegion F), plan p (p + page)
        (l ++ if hi < r.stop then [r.advance hi (r.stop - hi)] else []) permissions fragments
          found = plan p (p + page) l permissions fragments found := by
      intro l
      split
      · apply plan_skip_last
        rintro ⟨-, hbase⟩
        simp only [advance] at hbase
        omega
      · rw [append_nil]
    rw [hskip]
    split
    · next hleft =>
      have hstop' : stop { r with len := lo - r.base } = lo := by
        simp only [stop, saturatingAdd]
        omega
      refine plan_congr ?_ ?_ ?_ ?_ ?_ ?_
      · rfl
      · rfl
      · have hpage := page_pos
        simp only [Meets, hstop']
        omega
      · exact fun _ => rfl
      · intro _
        rw [hstop']
        dsimp only
        omega
      · exact fun _ => rfl
    · rw [plan_skip]
      rintro ⟨-, hbase⟩
      omega
  · rw [without_eq_self hover]

lemma plan_without_after (h : r.Loaded) (hp : hi ≤ p) :
    plan p (p + page) (r.without lo hi) permissions fragments found =
      plan p (p + page) [r.shift lo hi] permissions fragments found := by
  by_cases hover : r.Overlaps lo hi
  · have hstop := h.stop_eq
    have huser := h.user
    have hfileBase := h.fileBase
    simp only [userUpper] at huser
    rw [without_eq hover, shift, if_pos hover]
    have hover' := hover
    rw [Overlaps] at hover'
    -- the part in front of the range does not reach the page
    have hskip : ∀ l : List (ElfRegion F), plan p (p + page)
        ((if r.base < lo then [{ r with len := lo - r.base }] else []) ++ l) permissions fragments
          found = plan p (p + page) l permissions fragments found := by
      intro l
      split
      · apply plan_skip
        rintro ⟨hlt, -⟩
        simp only [stop, saturatingAdd] at hlt
        omega
      · rw [nil_append]
    rw [hskip]
    split
    · next hright =>
      rw [advance_eq h hover hright]
      have hstop' : stop { r with
          base := hi
          len := r.stop - hi
          fileBase := hi
          fileOffset := r.fileOffset + (hi - r.base)
          fileEnd := r.fileEnd + (hi - r.base) } = r.stop := by
        simp only [stop, saturatingAdd] at hright ⊢
        omega
      have hstop'' : stop { r with fileEnd := r.fileEnd + (hi - r.base) } = r.stop := rfl
      refine plan_congr ?_ ?_ ?_ ?_ ?_ ?_
      · rfl
      · rfl
      · have hpage := page_pos
        simp only [Meets, hstop', hstop'']
        omega
      · intro _
        dsimp only
        omega
      · intro _
        rw [hstop', hstop'']
      · intro _
        dsimp only
        omega
    · rw [plan_skip]
      rintro ⟨hlt, -⟩
      have hstop'' : stop { r with fileEnd := r.fileEnd + (hi - r.base) } = r.stop := rfl
      omega
  · rw [without_eq_self hover, shift, if_neg hover]

lemma plan_flatMap {f : ElfRegion F → List (ElfRegion F)} {g : ElfRegion F → ElfRegion F}
    {regions : List (ElfRegion F)}
    (h : ∀ r ∈ regions, ∀ permissions fragments found,
      plan p (p + page) (f r) permissions fragments found =
        plan p (p + page) [g r] permissions fragments found) :
    plan p (p + page) (regions.flatMap f) permissions fragments found =
      plan p (p + page) (regions.map g) permissions fragments found := by
  induction regions generalizing permissions fragments found with
  | nil => rfl
  | cons r rest ih =>
    have hsplit : (r :: rest).map g = [g r] ++ rest.map g := rfl
    rw [flatMap_cons, hsplit, plan_append, plan_append, h r mem_cons_self]
    congr 1
    funext acc
    exact ih fun r' hr' => h r' (mem_cons_of_mem _ hr')

lemma not_meets_without (h : r.Loaded) (hp : lo ≤ p) (hp' : p + page ≤ hi) {r' : ElfRegion F}
    (hr' : r' ∈ r.without lo hi) : ¬ r'.Meets p := by
  have hstop := h.stop_eq
  have huser := h.user
  have hpos := h.pos
  have hpage := page_pos
  simp only [userUpper] at huser
  rintro ⟨hlt, hbase⟩
  by_cases hover : r.Overlaps lo hi
  · rw [without_eq hover] at hr'
    rw [Overlaps] at hover
    obtain hr' | hr' := mem_append.mp hr'
    · split at hr'
      · obtain rfl := mem_singleton.mp hr'
        simp only [stop, saturatingAdd] at hlt
        omega
      · cases hr'
    · split at hr'
      · obtain rfl := mem_singleton.mp hr'
        simp only [advance] at hbase
        omega
      · cases hr'
  · rw [without_eq_self hover] at hr'
    obtain rfl := mem_singleton.mp hr'
    rw [Overlaps] at hover
    omega

end Remove

/-! ## The shifted file end -/

section Shift

variable {lo hi : Nat} {r : ElfRegion F}

/-- The address lies behind the removed range and behind the file's part of the region, but in
front of the place to which the end of that part moves. -/
def ElfRegion.Late (lo hi : Nat) (r : ElfRegion F) (x : Nat) : Prop :=
  r.Overlaps lo hi ∧ hi ≤ x ∧ x < r.stop ∧ r.fileEnd ≤ x ∧ x < r.fileEnd + (hi - r.base)

instance (r : ElfRegion F) (x : Nat) : Decidable (r.Late lo hi x) :=
  inferInstanceAs (Decidable (_ ∧ _ ∧ _ ∧ _ ∧ _))

lemma ElfRegion.Loaded.tame (h : r.Loaded) : r.Tame := by
  have huser := h.user
  have hoffset := h.fileOffset
  simp only [userUpper] at huser
  rw [Tame, h.stop_eq, h.fileBase]
  omega

lemma ElfRegion.shift_meets (p : Nat) : (r.shift lo hi).Meets p ↔ r.Meets p := by
  rw [shift]
  split <;> rfl

lemma ElfRegion.shift_permissions : (r.shift lo hi).permissions = r.permissions := by
  rw [shift]
  split <;> rfl

lemma ElfRegion.shift_byte (x : Nat) : (r.shift lo hi).byte x = r.byte x := by
  rw [shift]
  split <;> rfl

lemma ElfRegion.shift_tame : (r.shift lo hi).Tame ↔ r.Tame := by
  rw [shift]
  split <;> rfl

lemma ElfRegion.Loaded.shift_backed (h : r.Loaded) {x : Nat} (hx : hi ≤ x) :
    (r.shift lo hi).Backed x ↔ r.Backed x ∨ r.Late lo hi x := by
  rw [shift]
  split
  · next hover =>
    have hfileBase := h.fileBase
    have hstop : stop { r with fileEnd := r.fileEnd + (hi - r.base) } = r.stop := rfl
    simp only [Backed, Late, hstop, hover, true_and]
    rw [Overlaps] at hover
    omega
  · next hover => simp only [Late, hover, false_and, or_false]

lemma permissionsAt_shift (p : Nat) (regions : List (ElfRegion F)) :
    permissionsAt p (regions.map (·.shift lo hi)) = permissionsAt p regions := by
  rw [permissionsAt, foldl_map, permissionsAt]
  simp only [shift_meets, shift_permissions]

lemma any_meets_shift (p : Nat) (regions : List (ElfRegion F)) :
    (regions.map (·.shift lo hi)).any (fun r => decide (r.Meets p)) =
      regions.any fun r => decide (r.Meets p) := by
  rw [List.any_map]
  congr 1
  funext r
  simp only [Function.comp, shift_meets]

lemma visible_shift {regions : List (ElfRegion F)} (h : ∀ r ∈ regions, r.Loaded) {x : Nat}
    (hx : hi ≤ x) : visible (regions.map (·.shift lo hi)) x =
      lastBy (fun r => r.Backed x ∨ r.Late lo hi x) (·.byte x) regions := by
  rw [visible, lastBy, foldl_map]
  simp only [shift_byte]
  exact lastBy_congr fun r hr => (h r hr).shift_backed hx

end Shift

/-! ## The pages of a process -/

def SamePage : Option (PageFaultPlan F) → Option (PageFaultPlan F) → Prop
  | none, none => True
  | some a, some b => a.permissions = b.permissions ∧
      ∀ o < page, contents a.fragments o = contents b.fragments o
  | _, _ => False

lemma SamePage.refl (plan : Option (PageFaultPlan F)) : SamePage plan plan := by
  cases plan with
  | none => trivial
  | some a => exact ⟨rfl, fun _ _ => rfl⟩

namespace ProcMM

/-- A fault on the page is answered by an anonymous mapping. -/
def Anonymous (mm : ProcMM F) (p : Nat) : Prop :=
  ∃ r ∈ mm.mmapRegions, r.kind = .anonymous ∧ r.Has p

/-- Unmapping the range leaves the other pages as they were, and no ELF region in the range. -/
structure Unmaps (mm : ProcMM F) (base len : Nat) : Prop where
  outside : ∀ p < 2 ^ 64, page ∣ p → ¬ (base ≤ p ∧ p < base + len) →
    SamePage ((mm.removeElfRange base len).2.pageFaultPlan p) (mm.pageFaultPlan p)
  inside : ∀ p < 2 ^ 64, page ∣ p → base ≤ p → p < base + len →
    ElfRegion.plan p (p + page) (mm.removeElfRange base len).2.elfRegions .none [] false =
      some (.none, [], false)

/-- No address that comes to lie in front of a moved file end shows it: there is a mapping over
it, or a later region, or it showed that byte before. A range past the last address, which is not
removed at all, lies behind every region. -/
def Spares (mm : ProcMM F) (base len : Nat) : Prop :=
  if base + len < 2 ^ 64 then
    ∀ pre r post x, mm.elfRegions = pre ++ r :: post → r.Late base (base + len) x →
      ¬ mm.Anonymous (x / page * page) →
        (∃ r' ∈ post, r'.Backed x ∨ r'.Late base (base + len) x) ∨
          visible mm.elfRegions x = some (r.byte x)
  else ∀ r ∈ mm.elfRegions, r.stop ≤ base

section Plans

variable {mm : ProcMM F} {p : Nat}

lemma pageFaultPlan_anonymous (h : mm.Anonymous p) (regions : List (ElfRegion F)) :
    pageFaultPlan { mm with elfRegions := regions } p = mm.pageFaultPlan p := by
  obtain ⟨r, hr, hkind, hhas⟩ := h
  have hfound : (mm.mmapRegions.find? fun r => r.kind = .anonymous ∧ r.Has p).isSome :=
    List.find?_isSome.mpr ⟨r, hr, by simp [hkind, hhas]⟩
  obtain ⟨r', hr'⟩ := isSome_iff_exists.mp hfound
  simp only [pageFaultPlan, hr']

lemma pageFaultPlan_elf (h : ¬ mm.Anonymous p) : mm.pageFaultPlan p =
    (checkedAdd p page).bind fun stop =>
      match plan p stop mm.elfRegions .none [] false with
      | some (permissions, fragments, true) => some ⟨permissions, fragments⟩
      | _ => none := by
  have hfind : (mm.mmapRegions.find? fun r => r.kind = .anonymous ∧ r.Has p) = none := by
    rw [List.find?_eq_none]
    intro r hr hhas
    exact h ⟨r, hr, of_decide_eq_true hhas⟩
  rw [pageFaultPlan, hfind]
  cases checkedAdd p page <;> rfl

lemma samePage_iff {regions : List (ElfRegion F)} (hmm : ¬ mm.Anonymous p)
    (hp : p + page < 2 ^ 64) (htame : ∀ r ∈ mm.elfRegions, r.Tame) (htame' : ∀ r ∈ regions, r.Tame)
    (hpermissions : permissionsAt p regions = permissionsAt p mm.elfRegions)
    (hmeets : regions.any (fun r => decide (r.Meets p)) =
      mm.elfRegions.any fun r => decide (r.Meets p)) :
    SamePage (pageFaultPlan { mm with elfRegions := regions } p) (mm.pageFaultPlan p) ↔
      ∀ o < page, visible regions (p + o) = visible mm.elfRegions (p + o) := by
  have hmm' : ¬ Anonymous { mm with elfRegions := regions } p := hmm
  obtain ⟨fragments, hplan, hcontents⟩ := plan_spec p htame
  obtain ⟨fragments', hplan', hcontents'⟩ := plan_spec p htame'
  rw [pageFaultPlan_elf hmm, pageFaultPlan_elf hmm', checkedAdd, if_pos hp, bind_some, bind_some]
  simp only [hplan, hplan', hmeets, hpermissions]
  cases hany : mm.elfRegions.any fun r => decide (r.Meets p) with
  | true =>
    simp only [SamePage, true_and]
    refine forall₂_congr fun o ho => ?_
    rw [hcontents o ho, hcontents' o ho]
  | false =>
    -- where no region meets the page, both show zeros
    have hnone : ∀ l : List (ElfRegion F), l.any (fun r => decide (r.Meets p)) = false →
        ∀ o < page, visible l (p + o) = none := by
      intro l hl o ho
      refine lastBy_eq_none fun r hr hbacked => ?_
      have hr' := any_eq_false.mp hl r hr
      rw [decide_eq_true_eq, Meets] at hr'
      rw [Backed] at hbacked
      omega
    simp only [SamePage, true_iff]
    intro o ho
    rw [hnone _ hany o ho, hnone _ (hmeets.trans hany) o ho]

end Plans

section Range

variable {mm : ProcMM F} {base len : Nat}

lemma removeElfRange_eq (h : base + len < 2 ^ 64) : (mm.removeElfRange base len).2 =
    { mm with elfRegions := mm.elfRegions.flatMap (·.without base (base + len)) } := by
  rw [removeElfRange, checkedAdd, if_pos h]

lemma removeElfRange_overflow (h : ¬ base + len < 2 ^ 64) :
    (mm.removeElfRange base len).2 = mm := by
  rw [removeElfRange, checkedAdd, if_neg h]

variable {p : Nat}

lemma pageFaultPlan_congr (h : ¬ mm.Anonymous p) {regions regions' : List (ElfRegion F)}
    (heq : plan p (p + page) regions .none [] false =
      plan p (p + page) regions' .none [] false) :
    pageFaultPlan { mm with elfRegions := regions } p =
      pageFaultPlan { mm with elfRegions := regions' } p := by
  have hmm : ∀ l : List (ElfRegion F), ¬ Anonymous { mm with elfRegions := l } p := fun _ => h
  rw [pageFaultPlan_elf (hmm regions), pageFaultPlan_elf (hmm regions'), checkedAdd]
  by_cases hlt : p + page < 2 ^ 64
  · simp only [if_pos hlt, bind_some, heq]
  · simp only [if_neg hlt, bind_none]

section

variable (hloaded : ∀ r ∈ mm.elfRegions, r.Loaded)
include hloaded

lemma samePage_removeElfRange_iff
    (hbase : page ∣ base) (hlt : base + len < 2 ^ 64) (hp : page ∣ p)
    (hout : ¬ (base ≤ p ∧ p < base + len)) :
    SamePage ((mm.removeElfRange base len).2.pageFaultPlan p) (mm.pageFaultPlan p) ↔
      (base + len ≤ p → p + page < 2 ^ 64 → ¬ mm.Anonymous p → ∀ o < page,
        lastBy (fun r => r.Backed (p + o) ∨ r.Late base (base + len) (p + o)) (·.byte (p + o))
          mm.elfRegions = visible mm.elfRegions (p + o)) := by
  rw [removeElfRange_eq hlt]
  by_cases hmm : mm.Anonymous p
  · rw [pageFaultPlan_anonymous hmm]
    exact iff_of_true (.refl _) fun _ _ h => absurd hmm h
  by_cases hafter : base + len ≤ p
  · have hplan : plan p (p + page)
        (mm.elfRegions.flatMap (·.without base (base + len))) .none [] false =
          plan p (p + page) (mm.elfRegions.map (·.shift base (base + len))) .none []
            false :=
      plan_flatMap fun r hr _ _ _ => plan_without_after (hloaded r hr) hafter
    rw [pageFaultPlan_congr hmm hplan]
    by_cases hend : p + page < 2 ^ 64
    · rw [samePage_iff hmm hend (fun r hr => (hloaded r hr).tame) ?_ (permissionsAt_shift p _)
        (any_meets_shift p _)]
      · have hvisible : ∀ o, visible (mm.elfRegions.map (·.shift base (base + len))) (p + o) =
            lastBy (fun r => r.Backed (p + o) ∨ r.Late base (base + len) (p + o)) (·.byte (p + o))
              mm.elfRegions := fun o => visible_shift hloaded (by omega)
        simp only [hvisible]
        exact ⟨fun h _ _ _ => h, fun h => h hafter hend hmm⟩
      · intro r hr
        obtain ⟨r', hr', rfl⟩ := mem_map.mp hr
        exact shift_tame.mpr (hloaded r' hr').tame
    · have hnone : ∀ l : List (ElfRegion F), pageFaultPlan { mm with elfRegions := l } p = none := by
        intro l
        have hl : ¬ Anonymous { mm with elfRegions := l } p := hmm
        rw [pageFaultPlan_elf hl, checkedAdd, if_neg hend, bind_none]
      have hnone' : mm.pageFaultPlan p = none := hnone mm.elfRegions
      rw [hnone, hnone']
      exact iff_of_true trivial fun _ h => absurd h hend
  · have hbefore : p + page ≤ base := by
      simp only [page] at *
      omega
    have hplan : plan p (p + page)
        (mm.elfRegions.flatMap (·.without base (base + len))) .none [] false =
          plan p (p + page) (mm.elfRegions.map id) .none [] false :=
      plan_flatMap fun r hr _ _ _ => plan_without_before (hloaded r hr) hbefore
    rw [List.map_id] at hplan
    rw [pageFaultPlan_congr hmm hplan]
    exact iff_of_true (.refl _) fun h => absurd h hafter

lemma inside_removeElfRange (hbase : page ∣ base)
    (hlen : page ∣ len) (hlt : base + len < 2 ^ 64) (hp : page ∣ p) (hle : base ≤ p)
    (hin : p < base + len) :
    plan p (p + page) (mm.removeElfRange base len).2.elfRegions .none [] false =
      some (.none, [], false) := by
  rw [removeElfRange_eq hlt]
  have hend : p + page ≤ base + len := by
    simp only [page] at *
    omega
  refine plan_skip_all fun r' hr' => ?_
  obtain ⟨r, hr, hr'⟩ := mem_flatMap.mp hr'
  exact not_meets_without (hloaded r hr) hle hend hr'

lemma unmaps_overflow_iff (hbase : page ∣ base) (hlt : ¬ base + len < 2 ^ 64) :
    mm.Unmaps base len ↔ ∀ r ∈ mm.elfRegions, r.stop ≤ base := by
  constructor
  · intro h r hr
    by_contra hreach
    have hstop := (hloaded r hr).stop_eq
    have hrbase := (hloaded r hr).base
    have hrlen := (hloaded r hr).len
    have hpos := (hloaded r hr).pos
    have huser := (hloaded r hr).user
    -- the last page of the region lies in the range
    have hlast := h.inside (r.base + r.len - page)
    rw [removeElfRange_overflow hlt] at hlast
    obtain ⟨fragments, hplan, -⟩ := plan_spec (r.base + r.len - page)
      fun r' hr' => (hloaded r' hr').tame
    have hmeets : mm.elfRegions.any (fun r' => decide (r'.Meets (r.base + r.len - page))) = true := by
      refine any_eq_true.mpr ⟨r, hr, decide_eq_true ?_⟩
      rw [Meets, hstop]
      simp only [page] at *
      omega
    rw [hplan, hmeets] at hlast
    simp only [page, userUpper] at *
    have hfalse := hlast (by omega) (by omega) (by omega) (by omega)
    simp at hfalse
  · intro h
    refine ⟨fun p _ _ _ => ?_, fun p _ _ hle _ => ?_⟩
    · rw [removeElfRange_overflow hlt]
      exact .refl _
    · rw [removeElfRange_overflow hlt]
      refine plan_skip_all fun r hr hmeets => ?_
      have hstop := h r hr
      rw [Meets] at hmeets
      omega

end

end Range

/-- `remove_elf_range` on an image as it was loaded leaves the rest of the image as it was exactly
if no address comes to show a byte behind the end of the file's part of its segment. -/
theorem unmaps_iff {images : List (ElfImage F)} (hvalid : ∀ image ∈ images, image.Valid)
    {mm : ProcMM F} (hload : ElfImage.loadAll images = some mm.elfRegions) {base len : Nat}
    (hbase : page ∣ base) (hlen : page ∣ len) : mm.Unmaps base len ↔ mm.Spares base len := by
  have hloaded := loaded_of_loadAll hvalid hload
  rw [Spares]
  split
  · next hlt =>
    constructor
    · intro h pre r post x hsplit hlate hanonymous
      have hr : r ∈ mm.elfRegions := by simp [hsplit]
      have huser := (hloaded r hr).user
      have hstop := (hloaded r hr).stop_eq
      obtain ⟨-, hge, hltStop, -⟩ := id hlate
      simp only [userUpper] at huser
      -- the page of the address lies behind the removed range
      have hsame := h.outside (x / page * page) (by simp only [page]; omega)
        (Nat.dvd_mul_left _ _) (by simp only [page] at *; omega)
      rw [samePage_removeElfRange_iff hloaded hbase hlt (Nat.dvd_mul_left _ _)
        (by simp only [page] at *; omega)] at hsame
      have heq := hsame (by simp only [page] at *; omega) (by simp only [page] at *; omega)
        hanonymous (x % page) (Nat.mod_lt _ page_pos)
      rw [Nat.div_add_mod' x page, visible, lastBy_or_eq_iff] at heq
      exact heq pre r post hsplit hlate
    · intro h
      refine ⟨fun p hp hpage hout => ?_, fun p hp hpage hle hin =>
        inside_removeElfRange hloaded hbase hlen hlt hpage hle hin⟩
      rw [samePage_removeElfRange_iff hloaded hbase hlt hpage hout]
      intro hafter hend hanonymous o ho
      have hpageOf : (p + o) / page * page = p := by
        simp only [page] at *
        omega
      rw [visible, lastBy_or_eq_iff]
      intro pre r post hsplit hlate
      exact h pre r post (p + o) hsplit hlate (by rwa [hpageOf])
  · next hlt => exact unmaps_overflow_iff hloaded hbase hlt

/-- A text segment of three pages and a data segment with zeros behind its file part. -/
def sampleImage : ElfImage Nat where
  file := 7
  size := 0x4800
  loadBias := 0
  programHeaders := [⟨1, 5, 0, 0x1000, 0x3000, 0x3000⟩, ⟨1, 6, 0x3000, 0x5000, 0x1800, 0x4000⟩]

lemma sampleImage_valid : ∀ image ∈ [sampleImage], image.Valid := by
  intro image himage
  obtain rfl := mem_singleton.mp himage
  exact ⟨by decide, by decide⟩

def sampleRegions : List (ElfRegion Nat) :=
  [⟨0x1000, 0x3000, 0x1000, 0, 0x4000, ⟨true, false, true⟩, 7⟩,
    ⟨0x5000, 0x4000, 0x5000, 0x3000, 0x6800, ⟨true, true, false⟩, 7⟩]

/-- The middle page of the text segment can be unmapped. -/
theorem unmaps_text : ElfImage.loadAll [sampleImage] = some sampleRegions ∧
    (⟨0, 0, [], sampleRegions⟩ : ProcMM Nat).Unmaps 0x2000 0x1000 := by
  have hload : ElfImage.loadAll [sampleImage] = some sampleRegions := by decide
  refine ⟨hload, (unmaps_iff sampleImage_valid hload (by decide) (by decide)).mpr ?_⟩
  rw [Spares, if_pos (by decide)]
  intro pre r post x (hsplit : sampleRegions = pre ++ r :: post) hlate
  have hr : r ∈ sampleRegions := by simp [hsplit]
  simp only [Late, Overlaps, stop, saturatingAdd] at hlate
  simp only [sampleRegions, mem_cons, not_mem_nil, or_false] at hr
  obtain rfl | rfl := hr
  · dsimp only at hlate
    omega
  · dsimp only at hlate
    omega

/-- Without the first page of its data segment the process reads file bytes where the third page
had zeros. -/
theorem not_unmaps_data : (∀ image ∈ [sampleImage], image.Valid) ∧
    ElfImage.loadAll [sampleImage] = some sampleRegions ∧
      ¬ (⟨0, 0, [], sampleRegions⟩ : ProcMM Nat).Unmaps 0x5000 0x1000 := by
  refine ⟨sampleImage_valid, by decide, fun h => ?_⟩
  have hsame := (h.outside 0x7000 (by decide) (by decide) (by decide)).2 0 (by decide)
  exact absurd hsame (by decide)

end ProcMM

end Twilight.Memory

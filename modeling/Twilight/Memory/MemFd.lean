/-
Memory files and the address spaces that map them. A mapping holds the frames of the file, and the
tracked region keeps the file alive, but `truncate` gives frames back without looking at the
mappings.
-/
import Twilight.Memory.Mmap

namespace Twilight.Memory

open Function MmapRegion

/-! ## Memory files -/

/-- A memory file. `handles` counts the open descriptors; the tracked regions hold the file too. -/
structure MemFd where
  len : Nat
  pages : List Nat
  handles : Nat
deriving DecidableEq

namespace MemFd

/-- The pages that `truncate` wants; the length is rounded up with a wrapping sum. -/
def neededPages (len : Nat) : Nat := if len = 0 then 0 else alignUp len / page

/-- `zero_range` finds every page of the range. -/
def canZero (pages : List Nat) (start stop : Nat) : Bool :=
  (List.range' (start / page) ((stop - 1) / page + 1 - start / page)).all (· < pages.length)

variable (m : MemFd)

/-- `truncate`, where `frames` are the answers of the frame allocator. -/
def truncate (len : Nat) (frames : List Nat) : Except Errno Unit × MemFd :=
  let needed := neededPages len
  -- the list either grows or is cut
  let pages := (m.pages ++ frames.take (needed - m.pages.length)).take needed
  if pages.length < needed then (.error .eio, { m with pages := pages })
  else if len > m.len ∧ canZero pages m.len len = false then (.error .eio, { m with pages := pages })
  else (.ok (), { m with pages := pages, len := len })

/-- `write_at` of `count` bytes. -/
def writeAt (offset count : Nat) (frames : List Nat) : MemFd :=
  if count = 0 then m
  else
    match checkedAdd offset count with
    | none => m
    | some stop => if stop > m.len then (m.truncate stop frames).2 else m

abbrev Table := Nat → Option Nat

/-- The loop of `map_shared`. A page that is mapped already is an error, and so is one for which
the page table cannot be extended. -/
def mapPages (pages : List Nat) (fails : Nat → Bool) (va start : Nat) :
    Nat → Nat → Table → Except Errno Unit × Table
  | _, 0, table => (.ok (), table)
  | index, count + 1, table =>
    match pages[start + index]? with
    | none => (.error .eio, table)
    | some frame =>
      let x := wrappingAdd va (index * page)
      if (table x).isSome ∨ fails x then (.error .eio, table)
      else mapPages pages fails va start (index + 1) count (update table x (some frame))

def mapShared (fails : Nat → Bool) (va mapLen requested offset : Nat) (table : Table) :
    Except Errno Unit × Table :=
  if offset % page ≠ 0 then (.error .einval, table)
  else
    match checkedAdd offset requested with
    | none => (.error .einval, table)
    | some stop =>
      if stop > m.len then (.error .einval, table)
      else mapPages m.pages fails va (offset / page) 0 (mapLen / page) table

def filled : List Nat := m.pages.take ((m.len + (page - 1)) / page)

lemma mem_take_min {a b x : Nat} {l : List Nat} (ha : x ∈ l.take a) (hb : x ∈ l.take b) :
    x ∈ l.take (min a b) := by
  obtain h | h := Nat.le_total a b
  · rwa [Nat.min_eq_left h]
  · rwa [Nat.min_eq_right h]

section Truncate

variable {m : MemFd} {len frame : Nat} {frames : List Nat}

lemma truncate_pages (m : MemFd) (len : Nat) (frames : List Nat) :
    (m.truncate len frames).2.pages =
      (m.pages ++ frames.take (neededPages len - m.pages.length)).take (neededPages len) := by
  unfold truncate
  dsimp only
  split
  · rfl
  split <;> rfl

lemma truncate_len (m : MemFd) (len : Nat) (frames : List Nat) :
    (m.truncate len frames).2.len = m.len ∨ (m.truncate len frames).2.len = len := by
  unfold truncate
  dsimp only
  split
  · exact Or.inl rfl
  split
  · exact Or.inl rfl
  · exact Or.inr rfl

lemma mem_take_of_mem_truncate (h : frame ∈ m.pages)
    (hmem : frame ∈ (m.truncate len frames).2.pages) : frame ∈ m.pages.take (neededPages len) := by
  obtain hlt | hle := Nat.lt_or_ge m.pages.length (neededPages len)
  · rwa [List.take_of_length_le hlt.le]
  · rwa [truncate_pages, Nat.sub_eq_zero_of_le hle, List.take_zero, List.append_nil] at hmem

lemma neededPages_eq (h : len ≤ 2 ^ 64 - page) : neededPages len = (len + (page - 1)) / page := by
  simp only [neededPages, alignUp, wrappingAdd, page] at *
  split <;> omega

lemma neededPages_wrap (h : 2 ^ 64 - page < len) (hlt : len < 2 ^ 64) : neededPages len = 0 := by
  simp only [neededPages, alignUp, wrappingAdd, page] at *
  split <;> omega

lemma filled_truncate (hlen : len < 2 ^ 64) (h : frame ∈ m.filled)
    (hneeded : frame ∈ m.pages.take (neededPages len)) :
    frame ∈ (m.truncate len frames).2.filled := by
  have hkept : ∀ k, frame ∈ m.pages.take k →
      frame ∈ (m.truncate len frames).2.pages.take k := by
    intro k hk
    rw [truncate_pages, List.take_take, List.take_append]
    exact List.mem_append_left _ (mem_take_min hk hneeded)
  rw [filled]
  obtain heq | heq := truncate_len m len frames
  · rw [heq]
    exact hkept _ h
  rw [heq]
  by_cases hwrap : len ≤ 2 ^ 64 - page
  · rw [← neededPages_eq hwrap]
    exact hkept _ hneeded
  · rw [neededPages_wrap (by omega) hlen] at hneeded
    cases hneeded

end Truncate

variable {m : MemFd} {offset : Nat}

lemma filled_subset {frame : Nat} (h : frame ∈ m.filled) : frame ∈ m.pages :=
  List.mem_of_mem_take h

lemma filled_writeAt {count frame : Nat} {frames : List Nat} (h : frame ∈ m.filled)
    (hwrap : m.len < offset + count → offset + count < 2 ^ 64 → count ≠ 0 →
      offset + count ≤ 2 ^ 64 - page) :
    frame ∈ (m.writeAt offset count frames).filled := by
  unfold writeAt
  split
  · exact h
  next hcount =>
  rw [checkedAdd]
  split
  · exact h
  next stop hstop =>
  split at hstop
  swap
  · cases hstop
  next hlt =>
  obtain rfl := Option.some.inj hstop
  split
  swap
  · exact h
  next hgrows =>
  refine filled_truncate hlt h ?_
  rw [neededPages_eq (hwrap hgrows hlt hcount)]
  exact List.take_subset_take_left _ (Nat.div_le_div_right (by omega)) h

/-! ## Mapping the pages of a file -/

section MapPages

variable {pages : List Nat} {fails : Nat → Bool} {va start : Nat}

lemma mapPages_table (index count : Nat) (table : Table) (x : Nat) :
    (mapPages pages fails va start index count table).2 x = table x ∨ table x = none := by
  induction count generalizing index table with
  | zero => exact Or.inl rfl
  | succ count ih =>
    unfold mapPages
    split
    · exact Or.inl rfl
    next frame hframe =>
    dsimp only
    split
    · exact Or.inl rfl
    next hfree =>
    by_cases hx : x = wrappingAdd va (index * page)
    · right
      rw [hx]
      rw [not_or, Option.not_isSome_iff_eq_none] at hfree
      exact hfree.1
    · have hstep := ih (index + 1) (update table (wrappingAdd va (index * page)) (some frame))
      rwa [update_of_ne hx] at hstep

lemma mapPages_keeps {index count : Nat} {table : Table} {x frame : Nat}
    (h : table x = some frame) :
    (mapPages pages fails va start index count table).2 x = some frame := by
  obtain heq | hnone := mapPages_table index count table x
  · rw [heq, h]
  · rw [hnone] at h
    cases h

lemma mapPages_ok {index count : Nat} {table table' : Table}
    (h : mapPages pages fails va start index count table = (.ok (), table')) {i : Nat}
    (hi : i < count) : ∃ frame, pages[start + (index + i)]? = some frame ∧
      table' (wrappingAdd va ((index + i) * page)) = some frame := by
  induction count generalizing index table i with
  | zero => omega
  | succ count ih =>
    unfold mapPages at h
    split at h
    · cases h
    next frame hframe =>
    dsimp only at h
    split at h
    · cases h
    cases i with
    | zero =>
      refine ⟨frame, hframe, ?_⟩
      have htable' := congrArg Prod.snd h
      dsimp only at htable'
      rw [← htable']
      exact mapPages_keeps (update_self ..)
    | succ i =>
      obtain ⟨frame', hframe', htable⟩ := ih h (i := i) (by omega)
      rw [Nat.add_right_comm] at hframe' htable
      exact ⟨frame', hframe', htable⟩

end MapPages

lemma mapShared_table {fails : Nat → Bool} {va mapLen requested : Nat} (table : Table) (x : Nat) :
    (m.mapShared fails va mapLen requested offset table).2 x = table x ∨ table x = none := by
  unfold mapShared
  split
  · exact Or.inl rfl
  split
  · exact Or.inl rfl
  split
  · exact Or.inl rfl
  · exact mapPages_table ..

lemma mapShared_ok {fails : Nat → Bool} {va requested : Nat} {table table' : Table}
    (h : m.mapShared fails va (alignUp requested) requested offset table = (.ok (), table'))
    {i : Nat} (hi : i < alignUp requested / page) :
    ∃ frame ∈ m.filled, table' (wrappingAdd va (i * page)) = some frame := by
  unfold mapShared at h
  split at h
  · cases h
  next hoffset =>
  split at h
  · cases h
  next stop hstop =>
  split at h
  · cases h
  next hlen =>
  obtain ⟨frame, hframe, htable⟩ := mapPages_ok h hi
  rw [Nat.zero_add] at hframe htable
  refine ⟨frame, ?_, htable⟩
  have hlt : offset / page + i < (m.len + (page - 1)) / page := by
    rw [checkedAdd] at hstop
    split at hstop
    · cases hstop
      simp only [alignUp, wrappingAdd, page] at *
      omega
    · cases hstop
  rw [← List.getElem?_take_of_lt hlt] at hframe
  exact List.mem_of_getElem? hframe

end MemFd

/-! ## The system -/

structure Space (F : Type) where
  mm : ProcMM F
  table : MemFd.Table

namespace Space

variable {F : Type} (space : Space F)

/-- `unmap_tracked_range`. -/
def unmapRange (base len : Nat) : Space F where
  mm := space.mm.unmapTrackedRange base len
  table := fun x =>
    if (∃ r ∈ (space.mm.removeMmapRange base len).1, r.Has x) ∨
        ∃ r ∈ (space.mm.removeElfRange base len).1, r.base ≤ x ∧ x < r.stop then none
    else space.table x

def mapMemfd (f : Nat) (m : MemFd) (args : MmapArgs) (fails : Nat → Bool) :
    Space F :=
  match space.mm.mmapPlace args with
  | (.error _, mm) => { space with mm := mm }
  | (.ok va, mm) =>
    let space := if args.fixed then space.unmapRange args.addr args.len else { space with mm := mm }
    if args.flags &&& mapShared = 0 then space
    else
      match m.mapShared fails va args.len args.size args.offset space.table with
      | (.error _, table) => { space with table := table }
      | (.ok (), table) =>
        { mm := space.mm.trackMemfdMmap va args.len args.permissions f, table := table }

def munmap (addr size : Nat) : Space F :=
  if size = 0 ∨ addr % page ≠ 0 then space else space.unmapRange addr (alignUp size)

def gone : Space F := ⟨⟨0, 0, [], []⟩, fun _ => none⟩

end Space

/-- Memory files, where `none` is one that was dropped, and address spaces. -/
structure MemSystem (F : Type) where
  memfds : List (Option MemFd)
  spaces : List (Space F)

inductive MemEvent where
  | create
  | dup (f : Nat)
  | close (f : Nat)
  | truncate (f : Nat) (len : BitVec 64) (frames : List Nat)
  | writeAt (f offset count : Nat) (frames : List Nat)
  | mmap (s f : Nat) (args : MmapArgs) (fails : Nat → Bool)
  | munmap (s addr size : Nat)
  | exit (s : Nat)

namespace MemSystem

variable {F : Type} (sys : MemSystem F)

def holds (f : Nat) : Bool :=
  sys.spaces.any fun space => space.mm.mmapRegions.any fun r => r.memfd == some f

def reap : MemSystem F :=
  { sys with memfds := sys.memfds.mapIdx fun f m =>
      m.filter fun m => m.handles ≠ 0 || sys.holds f }

def onMemfd (f : Nat) (g : MemFd → MemFd) : MemSystem F :=
  { sys with memfds := sys.memfds.modify f (Option.map g) }

def onSpace (s : Nat) (g : Space F → Space F) : MemSystem F :=
  { sys with spaces := sys.spaces.modify s g }

def apply : MemEvent → MemSystem F
  | .create => { sys with memfds := sys.memfds ++ [some ⟨0, [], 1⟩] }
  | .dup f => sys.onMemfd f fun m => { m with handles := m.handles + 1 }
  | .close f => sys.onMemfd f fun m => { m with handles := m.handles - 1 }
  | .truncate f len frames => sys.onMemfd f fun m => (m.truncate len.toNat frames).2
  | .writeAt f offset count frames => sys.onMemfd f fun m => m.writeAt offset count frames
  | .mmap s f args fails =>
    match sys.memfds[f]? with
    | some (some m) => sys.onSpace s fun space => space.mapMemfd f m args fails
    | _ => sys
  | .munmap s addr size => sys.onSpace s fun space => space.munmap addr size
  | .exit s => sys.onSpace s fun _ => .gone

def step (event : MemEvent) : MemSystem F := (sys.apply event).reap

def Shows (f frame : Nat) : Prop :=
  ∃ space ∈ sys.spaces, ∃ r ∈ space.mm.mmapRegions, r.memfd = some f ∧
    ∃ x, page ∣ x ∧ r.Has x ∧ space.table x = some frame

/-- Every frame that is mapped by a tracked region of a memory file is in its page list. -/
def Kept : Prop :=
  ∀ f frame, sys.Shows f frame → ∃ m, sys.memfds[f]? = some (some m) ∧ frame ∈ m.pages

/-- A file is made shorter only as far as its mappings allow: the frames that they show are among
the pages that stay. A write past the end takes pages away only if its end, rounded up to a page,
wraps around, and then all of them. -/
def Spares : MemEvent → Prop
  | .truncate f len _ => ∀ m, sys.memfds[f]? = some (some m) →
      ∀ frame, sys.Shows f frame → frame ∈ m.pages.take (MemFd.neededPages len.toNat)
  | .writeAt f offset count _ => ∀ m, sys.memfds[f]? = some (some m) →
      m.len < offset + count → 2 ^ 64 - page < offset + count → offset + count < 2 ^ 64 →
        count ≠ 0 → ∀ frame, ¬ sys.Shows f frame
  | _ => True

end MemSystem

/-! ## What a mapping shows -/

section Spaces

variable {F : Type} {memfds : List (Option MemFd)} {space : Space F}

/-- Every page of a tracked region of a memory file shows a page that holds bytes of the file. -/
def Space.Sound (memfds : List (Option MemFd)) (space : Space F) : Prop :=
  ∀ r ∈ space.mm.mmapRegions, ∀ f, r.memfd = some f → ∀ x, page ∣ x → r.Has x →
    ∃ m, memfds[f]? = some (some m) ∧ ∃ frame ∈ m.filled, space.table x = some frame

variable {lo hi x : Nat}

lemma MmapRegion.without_memfd {r q : MmapRegion} (h : q ∈ r.without lo hi) :
    q.memfd = r.memfd := by
  unfold without at h
  dsimp only at h
  split at h
  · rw [List.mem_singleton.mp h]
  obtain h | h := List.mem_append.mp h
  · split at h
    · rw [List.mem_singleton.mp h]
    · cases h
  · split at h
    · rw [List.mem_singleton.mp h]
    · cases h

lemma MmapRegion.within_has {r q : MmapRegion} (h : q ∈ r.within lo hi)
    (hx : q.Has x) : lo ≤ x ∧ x < hi := by
  unfold within at h
  dsimp only at h
  split at h
  · cases h
  · obtain rfl := List.mem_singleton.mp h
    simp only [MmapRegion.Has, MmapRegion.stop, saturatingAdd] at hx
    omega

lemma ElfRegion.within_has {r q : ElfRegion F} (h : q ∈ r.within lo hi)
    (hx : q.base ≤ x ∧ x < q.stop) : lo ≤ x ∧ x < hi := by
  unfold ElfRegion.within at h
  dsimp only at h
  split at h
  · cases h
  · obtain rfl := List.mem_singleton.mp h
    simp only [ElfRegion.advance, ElfRegion.stop, saturatingAdd] at hx
    omega

lemma Space.unmapRange_table {base len : Nat}
    (hx : base + len < 2 ^ 64 → ¬ (base ≤ x ∧ x < base + len)) :
    (space.unmapRange base len).table x = space.table x := by
  rw [unmapRange]
  dsimp only
  rw [if_neg]
  simp only [ProcMM.removeMmapRange, ProcMM.removeElfRange, checkedAdd]
  rintro (⟨r, hr, hhas⟩ | ⟨r, hr, hhas⟩)
  · split at hr
    · cases hr
    next stop hstop =>
    split at hstop
    · cases hstop
      obtain ⟨r', -, hr⟩ := List.mem_flatMap.mp hr
      exact hx (by assumption) (within_has hr hhas)
    · cases hstop
  · split at hr
    · cases hr
    next stop hstop =>
    split at hstop
    · cases hstop
      obtain ⟨r', -, hr⟩ := List.mem_flatMap.mp hr
      exact hx (by assumption) (ElfRegion.within_has hr hhas)
    · cases hstop

lemma Space.Sound.unmapRange (h : space.Sound memfds) (base len : Nat) :
    (space.unmapRange base len).Sound memfds := by
  intro q hq f hf x hpage hx
  have hregions : q ∈ (space.mm.unmapTrackedRange base len).mmapRegions := hq
  rw [ProcMM.unmapTrackedRange_regions] at hregions
  by_cases hlt : base + len < 2 ^ 64
  · rw [if_pos hlt] at hregions
    obtain ⟨r, hr, hq⟩ := List.mem_flatMap.mp hregions
    rw [without_memfd hq] at hf
    have hout := MmapRegion.clear_iff.mp (without_clear hq) x hx
    obtain ⟨m, hm, frame, hframe, htable⟩ :=
      h r hr f hf x hpage ((r.without_splits _ _).sub q hq x hx)
    exact ⟨m, hm, frame, hframe, by rwa [unmapRange_table fun _ => hout]⟩
  · rw [if_neg hlt] at hregions
    obtain ⟨m, hm, frame, hframe, htable⟩ := h q hregions f hf x hpage hx
    exact ⟨m, hm, frame, hframe, by rwa [unmapRange_table fun h => absurd h hlt]⟩

lemma Space.Sound.munmap (h : space.Sound memfds) (addr size : Nat) :
    (space.munmap addr size).Sound memfds := by
  rw [Space.munmap]
  split
  · exact h
  · exact h.unmapRange _ _

lemma ProcMM.mmapPlace_cases (mm : ProcMM F) (args : MmapArgs) :
    (∃ errno hint, mm.mmapPlace args = (.error errno, { mm with mmapBaseHint := hint })) ∨
      (args.fixed ∧ page ∣ args.addr ∧
        mm.mmapPlace args = (.ok args.addr, mm.unmapTrackedRange args.addr args.len)) ∨
      (¬ args.fixed ∧ ∃ va hint, page ∣ va ∧
        mm.mmapPlace args = (.ok va, { mm with mmapBaseHint := hint })) := by
  by_cases hvalid : args.Valid
  swap
  · exact Or.inl ⟨_, _, mmapPlace_invalid hvalid⟩
  by_cases hfixed : args.fixed
  · exact Or.inr (Or.inl ⟨hfixed, Nat.dvd_of_mod_eq_zero (hvalid.fixed hfixed).2,
      mmapPlace_fixed hvalid hfixed⟩)
  rw [mmapPlace_next hvalid hfixed]
  split
  swap
  · exact Or.inl ⟨_, _, rfl⟩
  split
  · exact Or.inl ⟨_, _, rfl⟩
  · exact Or.inr (Or.inr ⟨hfixed, _, _, Nat.dvd_mul_left _ _, rfl⟩)

lemma Space.Sound.map (h : space.Sound memfds) {f : Nat} {m : MemFd}
    (hm : memfds[f]? = some (some m)) {args : MmapArgs} {fails : Nat → Bool} {va : Nat}
    (hva : page ∣ va) {result : Except Errno Unit} {table : MemFd.Table}
    (hmap : m.mapShared fails va args.len args.size args.offset space.table = (result, table)) :
    (Space.mk space.mm table).Sound memfds ∧ (result = .ok () →
      (Space.mk (space.mm.trackMemfdMmap va args.len args.permissions f) table).Sound memfds) := by
  have hold : ∀ r ∈ space.mm.mmapRegions, ∀ g, r.memfd = some g → ∀ x, page ∣ x → r.Has x →
      ∃ m, memfds[g]? = some (some m) ∧ ∃ frame ∈ m.filled, table x = some frame := by
    intro r hr g hg x hpage hx
    obtain ⟨m', hm', frame, hframe, htable⟩ := h r hr g hg x hpage hx
    refine ⟨m', hm', frame, hframe, ?_⟩
    have hkeeps : (m.mapShared fails va args.len args.size args.offset space.table).2 x =
        space.table x ∨ space.table x = none := MemFd.mapShared_table space.table x
    rw [hmap, htable] at hkeeps
    obtain hkeeps | hkeeps := hkeeps
    · exact hkeeps
    · cases hkeeps
  refine ⟨hold, fun hok r hr g hg x hpage hx => ?_⟩
  obtain hr | hr := List.mem_append.mp hr
  · exact hold r hr g hg x hpage hx
  -- a page of the new region is one of those that the loop has mapped
  obtain rfl := List.mem_singleton.mp hr
  cases hg
  subst hok
  simp only [MmapRegion.Has, MmapRegion.stop, saturatingAdd] at hx
  have hlen : args.len / page * page = args.len := by
    simp only [MmapArgs.len, alignUp, page]
    omega
  have hindex : (x - va) / page < args.len / page := by
    simp only [page] at *
    omega
  obtain ⟨frame, hframe, htable⟩ := MemFd.mapShared_ok hmap hindex
  have haddr : wrappingAdd va ((x - va) / page * page) = x := by
    simp only [wrappingAdd, page] at *
    omega
  rw [haddr] at htable
  exact ⟨m, hm, frame, hframe, htable⟩

lemma Space.Sound.mapMemfd (h : space.Sound memfds) {f : Nat} {m : MemFd}
    (hm : memfds[f]? = some (some m)) (args : MmapArgs) (fails : Nat → Bool) :
    (space.mapMemfd f m args fails).Sound memfds := by
  -- both ways of finding the address end in the same mapping
  have hrest : ∀ (space' : Space F) (va : Nat), space'.Sound memfds → page ∣ va →
      (if args.flags &&& mapShared = 0 then space'
        else
          match m.mapShared fails va args.len args.size args.offset space'.table with
          | (.error _, table) => { space' with table := table }
          | (.ok (), table) =>
            { mm := space'.mm.trackMemfdMmap va args.len args.permissions f,
              table := table }).Sound memfds := by
    intro space' va hsound hva
    split
    · exact hsound
    split
    · next hmap => exact (hsound.map hm hva hmap).1
    · next hmap => exact (hsound.map hm hva hmap).2 rfl
  rw [Space.mapMemfd]
  obtain ⟨errno, hint, hplace⟩ | ⟨hfixed, hva, hplace⟩ | ⟨hfixed, va, hint, hva, hplace⟩ :=
    space.mm.mmapPlace_cases args
  · rw [hplace]
    exact h
  · rw [hplace]
    simp only [if_pos hfixed]
    exact hrest _ _ (h.unmapRange _ _) hva
  · rw [hplace]
    simp only [if_neg hfixed]
    exact hrest { space with mm := { space.mm with mmapBaseHint := hint } } va h hva

lemma Space.gone_sound : (Space.gone : Space F).Sound memfds := nofun

end Spaces

/-! ## Runs -/

namespace MemSystem

variable {F : Type} {sys : MemSystem F}

def Sound (sys : MemSystem F) : Prop := ∀ space ∈ sys.spaces, space.Sound sys.memfds

lemma Sound.shows (h : sys.Sound) {f frame : Nat} (hshows : sys.Shows f frame) :
    ∃ m, sys.memfds[f]? = some (some m) ∧ frame ∈ m.filled := by
  obtain ⟨space, hspace, r, hr, hf, x, hpage, hx, htable⟩ := hshows
  obtain ⟨m, hm, frame', hframe, htable'⟩ := h space hspace r hr f hf x hpage hx
  rw [htable, Option.some.injEq] at htable'
  exact ⟨m, hm, htable' ▸ hframe⟩

lemma Sound.kept (h : sys.Sound) : sys.Kept := by
  intro f frame hshows
  obtain ⟨m, hm, hframe⟩ := h.shows hshows
  exact ⟨m, hm, MemFd.filled_subset hframe⟩

section Reap

lemma holds_of_mem {space : Space F} (hspace : space ∈ sys.spaces) {r : MmapRegion}
    (hr : r ∈ space.mm.mmapRegions) {f : Nat} (hf : r.memfd = some f) : sys.holds f = true :=
  List.any_eq_true.mpr ⟨space, hspace, List.any_eq_true.mpr ⟨r, hr, beq_iff_eq.mpr hf⟩⟩

lemma reap_memfds {f : Nat} (h : sys.holds f = true) :
    sys.reap.memfds[f]? = sys.memfds[f]? := by
  rw [reap, List.getElem?_mapIdx]
  cases sys.memfds[f]? with
  | none => rfl
  | some m =>
    simp only [h, Bool.or_true]
    cases m <;> rfl

lemma reap_sound (h : sys.Sound) : sys.reap.Sound := by
  intro space (hspace : space ∈ sys.spaces) r hr f hf x hpage hx
  rw [reap_memfds (holds_of_mem hspace hr hf)]
  exact h space hspace r hr f hf x hpage hx

lemma reap_kept_iff : sys.reap.Kept ↔ sys.Kept := by
  refine forall₃_congr fun f frame hshows => ?_
  obtain ⟨space, hspace, r, hr, hf, -⟩ := hshows
  have hspace' : space ∈ sys.spaces := hspace
  rw [reap_memfds (holds_of_mem hspace' hr hf)]

end Reap

section Apply

lemma onMemfd_memfds {f : Nat} {g : MemFd → MemFd} {m : MemFd}
    (h : sys.memfds[f]? = some (some m)) : (sys.onMemfd f g).memfds[f]? = some (some (g m)) := by
  rw [onMemfd, List.getElem?_modify, h]
  simp only [if_true, Option.map_eq_map, Option.map_some]

lemma onMemfd_sound (h : sys.Sound) {f : Nat} {g : MemFd → MemFd}
    (hg : ∀ m, sys.memfds[f]? = some (some m) → ∀ frame, sys.Shows f frame → frame ∈ m.filled →
      frame ∈ (g m).filled) : (sys.onMemfd f g).Sound := by
  intro space hspace r hr f' hf' x hpage hx
  obtain ⟨m, hm, frame, hframe, htable⟩ := h space hspace r hr f' hf' x hpage hx
  by_cases hff : f' = f
  · subst hff
    have hshows : sys.Shows f' frame := ⟨space, hspace, r, hr, hf', x, hpage, hx, htable⟩
    exact ⟨g m, onMemfd_memfds hm, frame, hg m hm frame hshows hframe, htable⟩
  · refine ⟨m, ?_, frame, hframe, htable⟩
    rw [onMemfd, List.getElem?_modify, hm]
    simp only [if_neg (Ne.symm hff), Option.map_eq_map, Option.map_some]

lemma onSpace_sound (h : sys.Sound) {s : Nat} {g : Space F → Space F}
    (hg : ∀ space : Space F, space.Sound sys.memfds → (g space).Sound sys.memfds) :
    (sys.onSpace s g).Sound := by
  intro space hspace
  obtain ⟨i, hi⟩ := List.mem_iff_getElem?.mp hspace
  rw [onSpace, List.getElem?_modify, Option.map_eq_map, Option.map_eq_some_iff] at hi
  obtain ⟨space', hspace', rfl⟩ := hi
  have hsound := h space' (List.mem_of_getElem? hspace')
  split
  · exact hg space' hsound
  · exact hsound

lemma create_sound (h : sys.Sound) : (sys.apply .create).Sound := by
  intro space hspace r hr f hf x hpage hx
  obtain ⟨m, hm, hframe⟩ := h space hspace r hr f hf x hpage hx
  refine ⟨m, ?_, hframe⟩
  have hlt := (List.getElem?_eq_some_iff.mp hm).1
  rw [apply, List.getElem?_append_left hlt, hm]

lemma apply_sound (h : sys.Sound) {event : MemEvent} (hspares : sys.Spares event) :
    (sys.apply event).Sound := by
  cases event with
  | create => exact create_sound h
  | dup f => exact onMemfd_sound h fun m _ frame _ hframe => hframe
  | close f => exact onMemfd_sound h fun m _ frame _ hframe => hframe
  | truncate f len frames =>
    exact onMemfd_sound h fun m hm frame hshows hframe =>
      MemFd.filled_truncate len.isLt hframe (hspares m hm frame hshows)
  | writeAt f offset count frames =>
    refine onMemfd_sound h fun m hm frame hshows hframe => ?_
    refine MemFd.filled_writeAt hframe fun hgrows hlt hcount => ?_
    by_contra hwrap
    exact hspares m hm hgrows (by omega) hlt hcount frame hshows
  | mmap s f args fails =>
    rw [apply]
    split
    · next m hm => exact onSpace_sound h fun space hsound => hsound.mapMemfd hm args fails
    · exact h
  | munmap s addr size => exact onSpace_sound h fun space hsound => hsound.munmap addr size
  | exit s => exact onSpace_sound h fun space _ => Space.gone_sound

/-- A change of length that keeps the mapped frames in the list meets its condition. -/
lemma spares_of_kept (h : sys.Sound) {event : MemEvent} (hkept : (sys.apply event).Kept) :
    sys.Spares event := by
  cases event with
  | truncate f len frames =>
    intro m hm frame hshows
    obtain ⟨m', hm', hframe⟩ := hkept f frame hshows
    rw [apply, onMemfd_memfds hm, Option.some.injEq, Option.some.injEq] at hm'
    subst hm'
    obtain ⟨m', hm', hfilled⟩ := h.shows hshows
    rw [hm, Option.some.injEq, Option.some.injEq] at hm'
    subst hm'
    exact MemFd.mem_take_of_mem_truncate (MemFd.filled_subset hfilled) hframe
  | writeAt f offset count frames =>
    intro m hm hgrows hwrap hlt hcount frame hshows
    obtain ⟨m', hm', hframe⟩ := hkept f frame hshows
    rw [apply, onMemfd_memfds hm, Option.some.injEq, Option.some.injEq] at hm'
    subst hm'
    obtain ⟨m', hm', hfilled⟩ := h.shows hshows
    rw [hm, Option.some.injEq, Option.some.injEq] at hm'
    subst hm'
    rw [MemFd.writeAt, if_neg hcount, checkedAdd, if_pos hlt] at hframe
    dsimp only at hframe
    rw [if_pos hgrows] at hframe
    have htake := MemFd.mem_take_of_mem_truncate (MemFd.filled_subset hfilled) hframe
    rw [MemFd.neededPages_wrap hwrap hlt] at htake
    cases htake
  | _ => trivial

lemma step_kept_iff (sys : MemSystem F) (event : MemEvent) (h : sys.Sound) :
    ((sys.step event).Kept ↔ sys.Spares event) ∧
      (sys.Spares event → (sys.step event).Sound) := by
  have hsound : sys.Spares event → (sys.step event).Sound := fun hspares =>
    reap_sound (apply_sound h hspares)
  refine ⟨⟨fun hkept => spares_of_kept h (reap_kept_iff.mp hkept), fun hspares => ?_⟩, hsound⟩
  exact (hsound hspares).kept

end Apply

/-- In every run, frames that are mapped by tracked regions of a memory file stay in its page list
exactly if every change of its length spares them. -/
theorem kept_iff (h : sys.Sound) (events : List MemEvent) :
    Machine.Always step Kept sys events ↔ Machine.Meets step Spares sys events :=
  Machine.always_iff_meets_of_inv (fun _ h => h.kept) step_kept_iff h events

def sampleSystem : MemSystem Nat := ⟨[], [.gone, .gone]⟩

lemma sampleSystem_sound : sampleSystem.Sound := by
  intro space hspace
  simp only [sampleSystem, List.mem_cons, List.not_mem_nil, or_false, or_self] at hspace
  exact hspace ▸ Space.gone_sound

def sampleShared (size : Nat) : MmapArgs := ⟨0, size, 3, mapShared, 3, 0⟩

lemma not_shows {f frame : Nat} (h : ∀ space ∈ sys.spaces, space.mm.mmapRegions = []) :
    ¬ sys.Shows f frame := by
  rintro ⟨space, hspace, r, hr, -⟩
  rw [h space hspace] at hr
  cases hr

/-- A file that is mapped twice, written, unmapped and then made shorter. -/
theorem kept_sample : Machine.Always step Kept sampleSystem
    [.create, .truncate 0 8192 [10, 11], .mmap 0 0 (sampleShared 8192) fun _ => false,
      .mmap 1 0 (sampleShared 4096) fun _ => false, .writeAt 0 4000 5000 [12],
      .munmap 0 userMmapBase 8192, .munmap 1 userMmapBase 4096, .truncate 0 4096 [], .close 0] := by
  refine (kept_iff sampleSystem_sound _).mpr
    ⟨trivial, fun m _ frame h => ?_, trivial, trivial, fun m _ _ h => ?_, trivial, trivial,
      fun m _ frame h => ?_, trivial, trivial⟩
  · exact absurd h (not_shows (by decide +kernel))
  · exact absurd h (by decide)
  · exact absurd h (not_shows (by decide +kernel))

def shrinkMapped : List MemEvent :=
  [.create, .truncate 0 8192 [10, 11], .mmap 0 0 (sampleShared 8192) fun _ => false,
    .truncate 0 4096 []]

/-- The second page is still mapped when its frame leaves the list and goes back to the
allocator. -/
theorem mapped_frame_freed : ¬ Machine.Always step Kept sampleSystem shrinkMapped := by
  intro halways
  have hany : (shrinkMapped.foldl step sampleSystem).spaces.any (fun space =>
      space.mm.mmapRegions.any fun r => r.memfd = some 0 ∧ r.Has 0x400000001000 ∧
        space.table 0x400000001000 = some 11) := by decide +kernel
  obtain ⟨space, hspace, hany⟩ := List.any_eq_true.mp hany
  obtain ⟨r, hr, hr'⟩ := List.any_eq_true.mp hany
  obtain ⟨hf, hx, htable⟩ := of_decide_eq_true hr'
  obtain ⟨m, hm, hframe⟩ := halways.foldl 0 11
    ⟨space, hspace, r, hr, hf, 0x400000001000, by decide, hx, htable⟩
  cases hm
  exact absurd hframe (by decide)

end MemSystem

end Twilight.Memory

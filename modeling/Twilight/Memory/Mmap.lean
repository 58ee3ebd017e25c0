/-
The system calls `mmap`, `munmap` and `mprotect` on the memory map of one process. A mapping
without `MAP_FIXED` goes to the bump pointer, which does not look at the tracked regions: where a
fixed mapping lies in front of it, the two overlap. A fixed mapping first takes its range out of
the map, but not if the range runs past the last address.
-/
import Twilight.Lib.Machine
import Twilight.Memory.ProcMM

namespace Twilight.Memory

open List MmapRegion

/-! ## Regions as sets of addresses -/

namespace MmapRegion

/-- No address of the region lies from `lo` to `hi`. -/
def Clear (lo hi : Nat) (r : MmapRegion) : Prop := min hi r.stop ≤ max lo r.base

instance (lo hi : Nat) (r : MmapRegion) : Decidable (r.Clear lo hi) :=
  inferInstanceAs (Decidable (_ ≤ _))

def Apart (r r' : MmapRegion) : Prop := ∀ x, r.Has x → ¬ r'.Has x

variable {lo hi : Nat} {r : MmapRegion}

lemma clear_iff : r.Clear lo hi ↔ ∀ x, r.Has x → ¬ (lo ≤ x ∧ x < hi) := by
  constructor
  · rintro h x ⟨hb, hs⟩
    rw [Clear] at h
    omega
  · intro h
    by_contra hover
    rw [Clear] at hover
    exact h (max lo r.base) ⟨by omega, by omega⟩ ⟨by omega, by omega⟩

structure Splits (r : MmapRegion) (parts : List MmapRegion) : Prop where
  sub : ∀ q ∈ parts, ∀ x, q.Has x → r.Has x
  apart : parts.Pairwise Apart

lemma Splits.self (r : MmapRegion) : r.Splits [r] :=
  ⟨fun q hq x hx => by rwa [← mem_singleton.mp hq], pairwise_singleton _ _⟩

/-- The part of the region between two of its addresses, as every split makes it. -/
def cut (r : MmapRegion) (start stop : Nat) (permissions : VmPermissions) : MmapRegion :=
  { r with base := start, len := stop - start, permissions := permissions }

lemma cut_has {start stop x : Nat} {permissions : VmPermissions} (hstop : stop < 2 ^ 64)
    (hle : start ≤ stop) : (r.cut start stop permissions).Has x ↔ start ≤ x ∧ x < stop := by
  simp only [Has, cut, MmapRegion.stop, saturatingAdd]
  omega

lemma stop_lt (r : MmapRegion) : r.stop < 2 ^ 64 := by
  rw [stop, saturatingAdd]
  omega

lemma splits_cut {a b : Nat} (ha : r.base ≤ a) (hab : a < b) (hb : b ≤ r.stop) (kept : Bool)
    (p : VmPermissions) :
    r.Splits ((if r.base < a then [r.cut r.base a r.permissions] else []) ++
      (if kept then [r.cut a b p] else []) ++
        if b < r.stop then [r.cut b r.stop r.permissions] else []) := by
  have hlt := r.stop_lt
  have hleft : ∀ q ∈ if r.base < a then [r.cut r.base a r.permissions] else [],
      ∀ x, q.Has x → r.base ≤ x ∧ x < a := by
    intro q hq x hx
    split at hq
    · rwa [mem_singleton.mp hq, cut_has (by omega) ha] at hx
    · cases hq
  have hmiddle : ∀ q ∈ if kept then [r.cut a b p] else [], ∀ x, q.Has x → a ≤ x ∧ x < b := by
    intro q hq x hx
    split at hq
    · rwa [mem_singleton.mp hq, cut_has (by omega) hab.le] at hx
    · cases hq
  have hright : ∀ q ∈ if b < r.stop then [r.cut b r.stop r.permissions] else [],
      ∀ x, q.Has x → b ≤ x ∧ x < r.stop := by
    intro q hq x hx
    split at hq
    · rwa [mem_singleton.mp hq, cut_has hlt hb] at hx
    · cases hq
  have hsingle : ∀ (c : Prop) [Decidable c] (q : MmapRegion),
      (if c then [q] else []).Pairwise Apart := by
    intro c _ q
    split
    · exact pairwise_singleton _ _
    · exact List.Pairwise.nil
  constructor
  · intro q hq x hx
    rw [mem_append, mem_append] at hq
    rw [Has]
    obtain (hq | hq) | hq := hq
    · have hin := hleft q hq x hx
      omega
    · have hin := hmiddle q hq x hx
      omega
    · have hin := hright q hq x hx
      omega
  · refine pairwise_append.mpr ⟨pairwise_append.mpr ⟨hsingle _ _, hsingle _ _, ?_⟩, hsingle _ _, ?_⟩
    · intro q hq q' hq' x hx hx'
      have hin := hleft q hq x hx
      have hin' := hmiddle q' hq' x hx'
      omega
    intro q hq q' hq' x hx hx'
    have hin' := hright q' hq' x hx'
    obtain hq | hq := mem_append.mp hq
    · have hin := hleft q hq x hx
      omega
    · have hin := hmiddle q hq x hx
      omega

lemma without_splits (lo hi : Nat) (r : MmapRegion) : r.Splits (r.without lo hi) := by
  unfold without
  dsimp only
  split
  · exact .self r
  · have hcut := splits_cut (r := r) (a := max lo r.base) (b := min hi r.stop) (by omega) (by omega)
      (by omega) false .none
    rwa [if_neg Bool.false_ne_true, append_nil] at hcut

lemma protect_splits (lo hi : Nat) (permissions : VmPermissions) (r : MmapRegion) :
    r.Splits (r.protect lo hi permissions) := by
  unfold protect
  dsimp only
  split
  · exact .self r
  · have hcut := splits_cut (r := r) (a := max lo r.base) (b := min hi r.stop) (by omega) (by omega)
      (by omega) true permissions
    rwa [if_pos rfl] at hcut

lemma without_clear {q : MmapRegion} (hq : q ∈ r.without lo hi) : q.Clear lo hi := by
  unfold without at hq
  dsimp only at hq
  split at hq
  · next hover =>
    obtain rfl := mem_singleton.mp hq
    exact hover
  next hover =>
  obtain hq | hq := mem_append.mp hq
  · split at hq
    · obtain rfl := mem_singleton.mp hq
      simp only [Clear, stop, saturatingAdd]
      omega
    · cases hq
  · split at hq
    · obtain rfl := mem_singleton.mp hq
      simp only [Clear]
      omega
    · cases hq

lemma apart_flatMap {regions : List MmapRegion} (h : regions.Pairwise Apart)
    {f : MmapRegion → List MmapRegion} (hf : ∀ r : MmapRegion, r.Splits (f r)) :
    (regions.flatMap f).Pairwise Apart := by
  rw [pairwise_flatMap]
  refine ⟨fun r _ => (hf r).apart, h.imp ?_⟩
  intro r r' hapart q hq q' hq' x hx hx'
  exact hapart x ((hf r).sub q hq x hx) ((hf r').sub q' hq' x hx')

end MmapRegion

/-! ## The system calls -/

def mapFixed : BitVec 64 := 0x10

def mapAnonymous : BitVec 64 := 0x20

def mapShared : BitVec 64 := 0x01

inductive Errno where
  | einval
  | enomem
  | ebadf
  | eopnotsupp
  | eio
  | other (code : Nat)
deriving DecidableEq

structure MmapArgs where
  addr : Nat
  size : Nat
  prot : BitVec 64
  flags : BitVec 64
  fd : BitVec 64
  offset : Nat

/-- The open file behind the descriptor of a mapping. The calls into other parts of the kernel
come to the results given here: `map_shared` of a memory file, and of a node its own `mmap`, where
`none` is `ENOSYS`. The framebuffer, the only node that maps itself, maps at the address it is
given. -/
inductive Backing where
  | closed
  | memfd (file : Nat) (mapped : Except Errno Unit)
  | stream
  | directory
  | node (mapped : Option (Except Errno Unit))

/-- What `mmap` finds: the file, whether the frame allocator has the pages, and whether the file
can be read. -/
structure Surroundings where
  backing : Backing
  allocated : Bool
  readable : Bool

namespace MmapArgs

variable (args : MmapArgs)

def fixed : Bool := args.flags &&& mapFixed ≠ 0

def anonymous : Bool := args.flags &&& mapAnonymous ≠ 0

def len : Nat := alignUp args.size

def permissions : VmPermissions := .fromProt args.prot

/-- The bytes of the pages that the call asks for. Unlike the kernel's own length this does not
wrap around. -/
def span : Nat := (args.size + (page - 1)) / page * page

lemma len_le_span : args.len ≤ args.span := by
  exact Nat.mul_le_mul_right _ (Nat.div_le_div_right (Nat.mod_le _ _))

/-- The arguments pass the checks of `mmap`. -/
structure Valid (args : MmapArgs) : Prop where
  size : args.size ≠ 0
  prot : args.prot &&& ~~~7 = 0
  offset : args.offset % page = 0
  fixed : args.fixed → args.addr ≠ 0 ∧ args.addr % page = 0

lemma valid_iff {args : MmapArgs} : args.Valid ↔ args.size ≠ 0 ∧ args.prot &&& ~~~7 = 0 ∧
    args.offset % page = 0 ∧ (args.fixed → args.addr ≠ 0 ∧ args.addr % page = 0) :=
  ⟨fun h => ⟨h.size, h.prot, h.offset, h.fixed⟩, fun h => ⟨h.1, h.2.1, h.2.2.1, h.2.2.2⟩⟩

instance (args : MmapArgs) : Decidable args.Valid := decidable_of_iff' _ valid_iff

def backed (around : Surroundings) : Bool :=
  if args.anonymous then true
  else if args.fd = BitVec.allOnes 64 then around.allocated
  else if (args.fd.setWidth 32).msb then false
  else
    match around.backing with
    | .closed => false
    | .memfd _ (.ok ()) => args.flags &&& mapShared ≠ 0
    | .memfd _ (.error _) => false
    | .stream => false
    | .directory => false
    | .node (some (.ok ())) => true
    | .node (some (.error _)) => false
    | .node none => around.allocated && around.readable

end MmapArgs

namespace ProcMM

variable {F : Type} (mm : ProcMM F)

/-- `unmap_tracked_range` on the memory map. Taking the pages out of the page table does not
fail. -/
def unmapTrackedRange (base len : Nat) : ProcMM F :=
  ((mm.removeMmapRange base len).2.removeElfRange base len).2

/-- The first part of `mmap`: the address of the mapping. -/
def mmapPlace (args : MmapArgs) : Except Errno Nat × ProcMM F :=
  if args.size = 0 then (.error .einval, mm)
  else if args.prot &&& ~~~7 ≠ 0 then (.error .einval, mm)
  else if args.offset % page ≠ 0 then (.error .einval, mm)
  else if args.fixed then
    if args.addr = 0 ∨ args.addr % page ≠ 0 then (.error .einval, mm)
    else (.ok args.addr, mm.unmapTrackedRange args.addr args.len)
  else
    match mm.reserveMmapRange args.len with
    | (none, mm) => (.error .enomem, mm)
    | (some va, mm) => if va = 0 then (.error .einval, mm) else (.ok va, mm)

def mmapBack (va : Nat) (args : MmapArgs) (around : Surroundings) : Except Errno Nat × ProcMM F :=
  let owned :=
    if around.allocated then (.ok va, mm.trackMmap va args.len .owned args.permissions)
    else (.error .enomem, mm)
  if args.anonymous then (.ok va, mm.trackMmap va args.len .anonymous args.permissions)
  else if args.fd = BitVec.allOnes 64 then owned
  else if (args.fd.setWidth 32).msb then (.error .ebadf, mm)
  else
    match around.backing with
    | .closed => (.error .ebadf, mm)
    | .memfd file mapped =>
      if args.flags &&& mapShared = 0 then (.error .eopnotsupp, mm)
      else
        match mapped with
        | .error errno => (.error errno, mm)
        | .ok () => (.ok va, mm.trackMemfdMmap va args.len args.permissions file)
    | .stream => (.error .einval, mm)
    | .directory => (.error .einval, mm)
    | .node (some (.ok ())) => (.ok va, mm.trackMmap va args.len .shared args.permissions)
    | .node (some (.error errno)) => (.error errno, mm)
    | .node none => if around.allocated ∧ ¬ around.readable then (.error .eio, mm) else owned

def mmap (args : MmapArgs) (around : Surroundings) : Except Errno Nat × ProcMM F :=
  match mm.mmapPlace args with
  | (.error errno, mm) => (.error errno, mm)
  | (.ok va, mm) => mm.mmapBack va args around

def munmap (addr size : Nat) : ProcMM F :=
  if size = 0 ∨ addr % page ≠ 0 then mm else mm.unmapTrackedRange addr (alignUp size)

def mprotect (mm : ProcMM F) (addr size : Nat) (prot : BitVec 64) : ProcMM F :=
  if size = 0 ∨ addr % page ≠ 0 ∨ prot &&& ~~~7 ≠ 0 then mm
  else mm.protectRange addr (alignUp size) (.fromProt prot)

end ProcMM

inductive MemoryCall where
  | mmap (args : MmapArgs) (around : Surroundings)
  | munmap (addr size : Nat)
  | mprotect (addr size : Nat) (prot : BitVec 64)

namespace ProcMM

variable {F : Type} (mm : ProcMM F)

def step : MemoryCall → ProcMM F
  | .mmap args around => (mm.mmap args around).2
  | .munmap addr size => mm.munmap addr size
  | .mprotect addr size prot => mm.mprotect addr size prot

/-! ## Disjointness -/

def Disjoint : Prop := mm.mmapRegions.Pairwise MmapRegion.Apart

/-- The range that an `mmap` without `MAP_FIXED` returns has no address that is tracked. -/
def Returns : MemoryCall → Prop
  | .mmap args around => ¬ args.fixed → ∀ va, (mm.mmap args around).1 = .ok va →
      ∀ r ∈ mm.mmapRegions, ∀ x, r.Has x → ¬ (va ≤ x ∧ x < va + args.span)
  | .munmap .. => True
  | .mprotect .. => True

def nextBase : Nat := alignUp mm.ensureMmapBase

/-- A mapping that can be made finds its place free: at the bump pointer no region is tracked, and
a fixed range that runs past the last address, which is not cleared, has no region in it. -/
def FindsRoom (mm : ProcMM F) : MemoryCall → Prop
  | .mmap args around => args.Valid → args.backed around →
      if args.fixed then
        args.addr + args.len < 2 ^ 64 ∨ ∀ r ∈ mm.mmapRegions, r.Clear args.addr (2 ^ 64)
      else mm.nextBase ≠ 0 → mm.nextBase + args.len < userUpper →
        ∀ r ∈ mm.mmapRegions, r.Clear mm.nextBase (mm.nextBase + args.span)
  | .munmap .. => True
  | .mprotect .. => True

instance (mm : ProcMM F) (call : MemoryCall) : Decidable (mm.FindsRoom call) :=
  match call with
  | .mmap .. => by
    unfold FindsRoom
    infer_instance
  | .munmap .. => .isTrue trivial
  | .mprotect .. => .isTrue trivial

section Steps

variable {mm : ProcMM F} {args : MmapArgs} {around : Surroundings}

lemma unmapTrackedRange_regions (mm : ProcMM F) (base len : Nat) :
    (mm.unmapTrackedRange base len).mmapRegions =
      if base + len < 2 ^ 64 then mm.mmapRegions.flatMap (·.without base (base + len))
      else mm.mmapRegions := by
  by_cases h : base + len < 2 ^ 64
  · simp only [unmapTrackedRange, removeElfRange, removeMmapRange, checkedAdd, if_pos h]
  · simp only [unmapTrackedRange, removeElfRange, removeMmapRange, checkedAdd, if_neg h]

lemma unmapTrackedRange_disjoint (h : mm.Disjoint) (base len : Nat) :
    (mm.unmapTrackedRange base len).Disjoint := by
  rw [Disjoint, unmapTrackedRange_regions]
  split
  · exact apart_flatMap h fun r => r.without_splits _ _
  · exact h

lemma munmap_disjoint (h : mm.Disjoint) (addr size : Nat) : (mm.munmap addr size).Disjoint := by
  rw [munmap]
  split
  · exact h
  · exact unmapTrackedRange_disjoint h _ _

lemma mprotect_disjoint (h : mm.Disjoint) (addr size : Nat) (prot : BitVec 64) :
    (mm.mprotect addr size prot).Disjoint := by
  rw [mprotect, protectRange]
  split
  · exact h
  split
  · exact h
  · exact apart_flatMap h fun r => r.protect_splits _ _ _

lemma mmapBack_cases (mm : ProcMM F) (va : Nat) (args : MmapArgs) (around : Surroundings) :
    (args.backed around = true ∧ ∃ r : MmapRegion, r.base = va ∧ r.len = args.len ∧
      mm.mmapBack va args around = (.ok va, { mm with mmapRegions := mm.mmapRegions ++ [r] })) ∨
    (args.backed around = false ∧ ∃ errno, mm.mmapBack va args around = (.error errno, mm)) := by
  unfold mmapBack MmapArgs.backed
  split
  · exact Or.inl ⟨rfl, _, rfl, rfl, rfl⟩
  split
  · cases around.allocated with
    | true => exact Or.inl ⟨rfl, _, rfl, rfl, rfl⟩
    | false => exact Or.inr ⟨rfl, _, rfl⟩
  split
  · exact Or.inr ⟨rfl, _, rfl⟩
  cases around.backing with
  | closed => exact Or.inr ⟨rfl, _, rfl⟩
  | memfd file mapped =>
    dsimp only
    by_cases hshared : args.flags &&& mapShared = 0
    · rw [if_pos hshared]
      refine Or.inr ⟨?_, _, rfl⟩
      cases mapped with
      | error errno => rfl
      | ok _ => exact decide_eq_false (not_not.mpr hshared)
    · rw [if_neg hshared]
      cases mapped with
      | error errno => exact Or.inr ⟨rfl, _, rfl⟩
      | ok _ => exact Or.inl ⟨decide_eq_true hshared, _, rfl, rfl, rfl⟩
  | stream => exact Or.inr ⟨rfl, _, rfl⟩
  | directory => exact Or.inr ⟨rfl, _, rfl⟩
  | node mapped =>
    match mapped with
    | some (.ok ()) => exact Or.inl ⟨rfl, _, rfl, rfl, rfl⟩
    | some (.error errno) => exact Or.inr ⟨rfl, _, rfl⟩
    | none =>
      cases around.allocated with
      | false => exact Or.inr ⟨rfl, _, rfl⟩
      | true =>
        cases around.readable with
        | false => exact Or.inr ⟨rfl, _, rfl⟩
        | true => exact Or.inl ⟨rfl, _, rfl, rfl, rfl⟩

lemma alignUp_len (args : MmapArgs) : alignUp args.len = args.len := by
  simp only [MmapArgs.len, alignUp, wrappingAdd, page]
  omega

lemma mmapPlace_fixed (hvalid : args.Valid) (hfixed : args.fixed) :
    mm.mmapPlace args = (.ok args.addr, mm.unmapTrackedRange args.addr args.len) := by
  have haddr := hvalid.fixed hfixed
  rw [mmapPlace, if_neg hvalid.size, if_neg (not_not.mpr hvalid.prot),
    if_neg (not_not.mpr hvalid.offset), if_pos hfixed, if_neg]
  omega

lemma reserveMmapRange_eq (mm : ProcMM F) (args : MmapArgs) : mm.reserveMmapRange args.len =
    if mm.nextBase + args.len < userUpper then
      (some mm.nextBase, { mm with mmapBaseHint := mm.nextBase + args.len })
    else (none, { mm with mmapBaseHint := mm.ensureMmapBase }) := by
  rw [reserveMmapRange]
  rw [alignUp_len, ← nextBase, checkedAdd]
  by_cases hroom : mm.nextBase + args.len < userUpper
  · have hlt : mm.nextBase + args.len < 2 ^ 64 := by
      simp only [userUpper] at hroom
      omega
    simp only [if_pos hroom, if_pos hlt, if_neg (Nat.not_le.mpr hroom)]
  rw [if_neg hroom]
  split
  · rfl
  · next stop hstop =>
    split at hstop
    · obtain rfl := Option.some.inj hstop
      rw [if_pos (by omega)]
    · cases hstop

lemma mmapPlace_next (hvalid : args.Valid) (hfixed : ¬ args.fixed) :
    mm.mmapPlace args =
      if mm.nextBase + args.len < userUpper then
        (if mm.nextBase = 0 then .error .einval else .ok mm.nextBase,
          { mm with mmapBaseHint := mm.nextBase + args.len })
      else (.error .enomem, { mm with mmapBaseHint := mm.ensureMmapBase }) := by
  rw [mmapPlace, if_neg hvalid.size, if_neg (not_not.mpr hvalid.prot),
    if_neg (not_not.mpr hvalid.offset), if_neg hfixed, reserveMmapRange_eq]
  by_cases hroom : mm.nextBase + args.len < userUpper
  · simp only [if_pos hroom]
    split <;> rfl
  · simp only [if_neg hroom]

lemma mmapPlace_invalid (h : ¬ args.Valid) : mm.mmapPlace args = (.error .einval, mm) := by
  rw [mmapPlace]
  by_cases hsize : args.size = 0
  · rw [if_pos hsize]
  rw [if_neg hsize]
  by_cases hprot : args.prot &&& ~~~7 = 0
  swap
  · rw [if_pos hprot]
  rw [if_neg (not_not.mpr hprot)]
  by_cases hoffset : args.offset % page = 0
  swap
  · rw [if_pos hoffset]
  rw [if_neg (not_not.mpr hoffset)]
  -- only the address of a fixed mapping can be wrong
  have hbad : args.fixed ∧ (args.addr = 0 ∨ args.addr % page ≠ 0) := by
    by_contra hgood
    refine h ⟨hsize, hprot, hoffset, fun hfixed => ?_⟩
    by_contra haddr
    exact hgood ⟨hfixed, by omega⟩
  rw [if_pos hbad.1, if_pos hbad.2]

inductive Effect (mm : ProcMM F) (args : MmapArgs) (around : Surroundings) : Prop where
  | fails (hfail : ¬ (args.Valid ∧ args.backed around ∧
        (args.fixed ∨ mm.nextBase ≠ 0 ∧ mm.nextBase + args.len < userUpper)))
      (herror : ∃ errno, (mm.mmap args around).1 = .error errno)
      (hregions : (mm.mmap args around).2.mmapRegions = mm.mmapRegions ∨
        (mm.mmap args around).2.mmapRegions = (mm.unmapTrackedRange args.addr args.len).mmapRegions)
  | next (r : MmapRegion) (hvalid : args.Valid) (hbacked : args.backed around)
      (hfixed : ¬ args.fixed) (hroom : mm.nextBase ≠ 0 ∧ mm.nextBase + args.len < userUpper)
      (hok : (mm.mmap args around).1 = .ok mm.nextBase) (hbase : r.base = mm.nextBase)
      (hlen : r.len = args.len)
      (hregions : (mm.mmap args around).2.mmapRegions = mm.mmapRegions ++ [r])
  | fixed (r : MmapRegion) (hvalid : args.Valid) (hbacked : args.backed around)
      (hfixed : args.fixed) (hok : (mm.mmap args around).1 = .ok args.addr)
      (hbase : r.base = args.addr) (hlen : r.len = args.len)
      (hregions : (mm.mmap args around).2.mmapRegions =
        (mm.unmapTrackedRange args.addr args.len).mmapRegions ++ [r])

lemma mmap_effect (mm : ProcMM F) (args : MmapArgs) (around : Surroundings) :
    mm.Effect args around := by
  by_cases hvalid : args.Valid
  swap
  · have heq : mm.mmap args around = (.error .einval, mm) := by
      rw [mmap, mmapPlace_invalid hvalid]
    exact .fails (fun h => hvalid h.1) ⟨_, by rw [heq]⟩ (Or.inl (by rw [heq]))
  by_cases hfixed : args.fixed
  · have heq : mm.mmap args around =
        (mm.unmapTrackedRange args.addr args.len).mmapBack args.addr args around := by
      rw [mmap, mmapPlace_fixed hvalid hfixed]
    obtain ⟨hbacked, r, hbase, hlen, hback⟩ | ⟨hbacked, errno, hback⟩ :=
      (mm.unmapTrackedRange args.addr args.len).mmapBack_cases args.addr args around
    · rw [hback] at heq
      exact .fixed r hvalid hbacked hfixed (by rw [heq]) hbase hlen (by rw [heq])
    · rw [hback] at heq
      exact .fails (fun h => by simp [hbacked] at h) ⟨errno, by rw [heq]⟩ (Or.inr (by rw [heq]))
  by_cases hroom : mm.nextBase + args.len < userUpper
  swap
  · have heq : mm.mmap args around =
        (.error .enomem, { mm with mmapBaseHint := mm.ensureMmapBase }) := by
      rw [mmap, mmapPlace_next hvalid hfixed, if_neg hroom]
    exact .fails (fun h => h.2.2.elim hfixed fun h => hroom h.2) ⟨_, by rw [heq]⟩
      (Or.inl (by rw [heq]))
  by_cases hbase : mm.nextBase = 0
  · have heq : mm.mmap args around =
        (.error .einval, { mm with mmapBaseHint := mm.nextBase + args.len }) := by
      rw [mmap, mmapPlace_next hvalid hfixed, if_pos hroom, if_pos hbase]
    exact .fails (fun h => h.2.2.elim hfixed fun h => h.1 hbase) ⟨_, by rw [heq]⟩
      (Or.inl (by rw [heq]))
  have heq : mm.mmap args around = mmapBack
      { mm with mmapBaseHint := mm.nextBase + args.len } mm.nextBase args around := by
    rw [mmap, mmapPlace_next hvalid hfixed, if_pos hroom, if_neg hbase]
  obtain ⟨hbacked, r, hrbase, hlen, hback⟩ | ⟨hbacked, errno, hback⟩ :=
    mmapBack_cases { mm with mmapBaseHint := mm.nextBase + args.len } mm.nextBase args around
  · rw [hback] at heq
    exact .next r hvalid hbacked hfixed ⟨hbase, hroom⟩ (by rw [heq]) hrbase hlen (by rw [heq])
  · rw [hback] at heq
    exact .fails (fun h => by simp [hbacked] at h) ⟨errno, by rw [heq]⟩ (Or.inl (by rw [heq]))

end Steps

/-! ## Runs -/

section Runs

variable {mm : ProcMM F} {args : MmapArgs} {around : Surroundings}

lemma disjoint_append {regions : List MmapRegion} (h : regions.Pairwise Apart)
    (r : MmapRegion) :
    (regions ++ [r]).Pairwise Apart ↔ ∀ q ∈ regions, q.Apart r := by
  rw [pairwise_append]
  simp [h]

lemma fixed_disjoint_iff (h : mm.Disjoint) {r : MmapRegion} (hbase : r.base = args.addr)
    (hlen : r.len = args.len) :
    ((mm.unmapTrackedRange args.addr args.len).mmapRegions ++ [r]).Pairwise Apart ↔
      (args.addr + args.len < 2 ^ 64 ∨ ∀ q ∈ mm.mmapRegions, q.Clear args.addr (2 ^ 64)) := by
  rw [disjoint_append (unmapTrackedRange_disjoint h _ _), unmapTrackedRange_regions]
  by_cases hlt : args.addr + args.len < 2 ^ 64
  · rw [if_pos hlt]
    refine iff_of_true (fun q hq x hx hnew => ?_) (Or.inl hlt)
    obtain ⟨q', -, hq⟩ := mem_flatMap.mp hq
    have hclear := clear_iff.mp (without_clear hq) x hx
    simp only [Has, stop, saturatingAdd] at hnew
    omega
  · rw [if_neg hlt, or_iff_right hlt]
    refine forall₂_congr fun q _ => ?_
    have hq := q.stop_lt
    have hnew : ∀ x, r.Has x ↔ args.addr ≤ x ∧ x < 2 ^ 64 - 1 := by
      simp only [Has, stop, saturatingAdd]
      omega
    rw [clear_iff]
    refine forall₂_congr fun x hx => ?_
    rw [hnew]
    have hxq := hx.2
    omega

lemma step_disjoint_iff (mm : ProcMM F) (call : MemoryCall) (h : mm.Disjoint) :
    (mm.step call).Disjoint ∧ mm.Returns call ↔ mm.FindsRoom call := by
  cases call with
  | munmap addr size => exact iff_of_true ⟨munmap_disjoint h _ _, trivial⟩ trivial
  | mprotect addr size prot => exact iff_of_true ⟨mprotect_disjoint h _ _ _, trivial⟩ trivial
  | mmap args around =>
    simp only [step, Returns, FindsRoom, Disjoint]
    cases mm.mmap_effect args around with
    | fails hfail herror hregions =>
      obtain ⟨errno, herror⟩ := herror
      refine iff_of_true ⟨?_, fun _ va hva => ?_⟩ fun hvalid hbacked => ?_
      · obtain hregions | hregions := hregions
        · rw [hregions]
          exact h
        · rw [hregions]
          exact unmapTrackedRange_disjoint h _ _
      · rw [herror] at hva
        cases hva
      · split
        · next hfixed => exact absurd ⟨hvalid, hbacked, Or.inl hfixed⟩ hfail
        · exact fun hbase hroom => absurd ⟨hvalid, hbacked, Or.inr ⟨hbase, hroom⟩⟩ hfail
    | next r hvalid hbacked hfixed hroom hok hbase hlen hregions =>
      have hspan := args.len_le_span
      simp only [hregions, disjoint_append h, hok, Except.ok.injEq, forall_eq', hvalid, hbacked,
        hfixed, hroom.1, hroom.2, not_false_eq_true, forall_const, clear_iff, ne_eq, Bool.false_eq_true]
      refine and_iff_right_of_imp fun hclear q hq x hx hnew => hclear q hq x hx ?_
      simp only [Has, stop, saturatingAdd] at hnew
      omega
    | fixed r hvalid hbacked hfixed hok hbase hlen hregions =>
      simp only [hregions, fixed_disjoint_iff h hbase hlen, hvalid, hbacked, hfixed, not_true,
        false_imp_iff, and_true, forall_const, if_true]

end Runs

/-- In a run of system calls the tracked regions stay pairwise disjoint, and every range that is
returned without `MAP_FIXED` is free, exactly if every mapping finds its place free. -/
theorem disjoint_iff {mm : ProcMM F} (h : mm.Disjoint) (calls : List MemoryCall) :
    Machine.Always step Disjoint mm calls ∧ Machine.Meets step Returns mm calls ↔
      Machine.Meets step FindsRoom mm calls :=
  Machine.always_and_meets_iff step_disjoint_iff h calls

def sampleMmap (addr size : Nat) (flags : BitVec 64) : MemoryCall :=
  .mmap ⟨addr, size, 3, flags ||| mapAnonymous, BitVec.allOnes 64, 0⟩ ⟨.closed, true, true⟩

def sampleMap : ProcMM Nat := ⟨0x500000, 0, [], []⟩

lemma sampleMap_disjoint : sampleMap.Disjoint := List.Pairwise.nil

/-- A fixed mapping below the bump pointer, into a mapping that was protected and unmapped in
part. -/
theorem disjoint_sample :
    Machine.Always step Disjoint sampleMap
        [sampleMmap 0 0x5000 2, .mprotect 0x400000001000 0x1000 1, .munmap 0x400000002000 0x800,
          sampleMmap 0x400000001000 0x2000 0x12, sampleMmap 0 0x1000 2] ∧
      Machine.Meets step Returns sampleMap
        [sampleMmap 0 0x5000 2, .mprotect 0x400000001000 0x1000 1, .munmap 0x400000002000 0x800,
          sampleMmap 0x400000001000 0x2000 0x12, sampleMmap 0 0x1000 2] :=
  (disjoint_iff sampleMap_disjoint _).mpr (by decide +kernel)

/-- A fixed mapping where the bump pointer starts, and then one without an address: both are
tracked at the same place. -/
theorem mappings_overlap :
    ¬ (Machine.Always step Disjoint sampleMap
        [sampleMmap userMmapBase 0x1000 0x12, sampleMmap 0 0x1000 2] ∧
      Machine.Meets step Returns sampleMap
        [sampleMmap userMmapBase 0x1000 0x12, sampleMmap 0 0x1000 2]) := by
  rintro ⟨halways, -⟩
  have hlast := halways.foldl
  exact rel_of_pairwise_cons hlast mem_cons_self userMmapBase (by decide) (by decide)

end ProcMM

end Twilight.Memory

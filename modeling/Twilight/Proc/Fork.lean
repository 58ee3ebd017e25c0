/-
`fork`: what the child starts with, against what the parent had when it called.

The child's registers are those of the syscall, its memory is a copy of the resident pages
together with the memory map, and its signal state is that of the record.  The floating-point
registers are another matter: `fork` copies the save area of the record, and that is written only
when the scheduler switches away from the parent.  A child therefore starts with the registers the
parent had at its last switch.
-/
import Twilight.Lib.Machine
import Twilight.Memory.AddressSpace
import Twilight.Proc.SignalFrame

namespace Twilight.Proc

open Memory AddressSpace Option

variable {F D P : Type}

/-! ## The syscall -/

/-- The 512 bytes of `fxsave64`, as words. -/
abbrev FpuState := Fin 64 → BitVec 64

/-- What `fork` reads of the calling process.  `fds` are the descriptors, each the open object it
refers to; a clone refers to the same one. -/
structure Caller (F D : Type) where
  process : Process
  space : AddressSpace F
  fds : List (Option D)
  fpuStorage : Option FpuState

namespace Caller

variable (caller : Caller F D)

/-- `Process::fork`: the child and the frame on its kernel stack, from which it enters user
mode. -/
def forkProcess [Zero P] (tf : Trap) (pid birth : Nat) (phys : Phys P) :
    Option (Option (Caller F D × Trap) × Phys P) :=
  (caller.space.fork phys).map fun (space, phys) =>
    (space.map fun space =>
      ({ process := caller.process.forkChild pid birth
         space := space
         fds := caller.fds
         fpuStorage := caller.fpuStorage },
        { tf with regs := { tf.regs with rax := 0 } }), phys)

def fork [Zero P] (trap : Trap) (pid birth : Nat) (phys : Phys P) :
    Option (Option (Caller F D × Trap) × Phys P) :=
  caller.forkProcess { trap with rflags := trap.rflags ||| 0x202 } pid birth phys

/-- The floating-point registers after `switch_tasks` has switched to a process that has not run
yet, if they were `atSwitch` before. -/
def firstFpu (child : Caller F D) (atSwitch : FpuState) : FpuState := child.fpuStorage.getD atSwitch

end Caller

/-! ## Writes after the fork -/

variable (readFragments : List (ElfPageFragment F) → Option P) (space : AddressSpace F)

/-- A program writes to a page: the fault handler may have to map it first.  A write that is not
allowed ends the program and changes nothing. -/
def store [Zero P] (number : Nat) (content : P) (phys : Phys P) : AddressSpace F × Phys P :=
  let (_, space, phys) := space.resolvePageFault readFragments number true false phys
  match space.table.translate number with
  | none => (space, phys)
  | some leaf =>
    if leaf.flags.userAccessible ∧ leaf.flags.writable then (space, phys.write leaf.frame content)
    else (space, phys)

lemma store_fields [Zero P] (number : Nat) (content : P) (phys : Phys P) :
    let r := store readFragments space number content phys
    r.1.mm = space.mm ∧
      (∀ f, f ∉ phys.grants →
        (∀ leaf, space.table.translate number = some leaf → f ≠ leaf.frame) →
        r.2.content f = phys.content f) ∧
      ∀ n, r.1.table.translate n = space.table.translate n ∨
        n = number ∧ ∃ leaf, r.1.table.translate n = some leaf ∧ leaf.frame ∈ phys.grants := by
  obtain ⟨hmm, hmemory, hfaulted⟩ :=
    space.resolvePageFault_fields readFragments number true false phys
  have htable := fun n => (hfaulted n).imp_right fun h => And.imp_right
    (Exists.imp fun _ hleaf => And.imp_right And.left hleaf) h
  rw [store]
  generalize space.resolvePageFault readFragments number true false phys = r at hmm hmemory htable ⊢
  dsimp only
  cases hleaf : r.2.1.table.translate number with
  | none => exact ⟨hmm, fun f hf _ => hmemory f hf, htable⟩
  | some leaf =>
  dsimp only
  split
  · refine ⟨hmm, fun f hf hne => ?_, htable⟩
    have hframe : f ≠ leaf.frame := by
      obtain hsame | ⟨-, new, hnew, hmem⟩ := htable number
      · exact hne leaf (hsame.symm.trans hleaf)
      · obtain rfl := Option.some.inj (hleaf.symm.trans hnew)
        exact fun heq => hf (heq ▸ hmem)
    rw [Phys.write_content, Function.update_of_ne hframe, hmemory f hf]
  · exact ⟨hmm, fun f hf _ => hmemory f hf, htable⟩

/-- A write of one of the two processes, with the frames the allocator has for it. -/
structure Write (P : Type) where
  byChild : Bool
  number : Nat
  content : P
  grants : List Nat

structure Pair (F P : Type) where
  parent : AddressSpace F
  child : AddressSpace F
  phys : Phys P

namespace Pair

variable (readFragments : List (ElfPageFragment F) → Option P)

def writer (pair : Pair F P) (byChild : Bool) : AddressSpace F :=
  if byChild then pair.child else pair.parent

def write [Zero P] (pair : Pair F P) (w : Write P) : Pair F P :=
  let (space, phys) := store readFragments (pair.writer w.byChild) w.number w.content
    { pair.phys with grants := w.grants }
  if w.byChild then { pair with child := space, phys := phys }
  else { pair with parent := space, phys := phys }

/-- The page is not shared, and the allocator hands out frames that neither process uses. -/
def Private (pair : Pair F P) (w : Write P) : Prop :=
  (pair.writer w.byChild).mm.isSharedPage (w.number * page) = false ∧
    ∀ byChild n leaf, (pair.writer byChild).table.translate n = some leaf → leaf.frame ∉ w.grants

def Unseen [Zero P] (pair : Pair F P) (w : Write P) : Prop :=
  ∀ n, ((pair.write readFragments w).writer !w.byChild).view readFragments
      (pair.write readFragments w).phys n =
    (pair.writer !w.byChild).view readFragments pair.phys n

/-- However the two processes write to pages that are not shared, neither sees the other's
writes. -/
def Isolated [Zero P] (pair : Pair F P) : Prop :=
  ∀ ws : List (Write P), Machine.Meets (write readFragments) Private pair ws →
    Machine.Meets (write readFragments) (Unseen readFragments) pair ws

/-- No frame of a page that one of the two does not share is used by the other. -/
def Apart (pair : Pair F P) : Prop :=
  ∀ byChild n leaf m leaf', (pair.writer byChild).table.translate n = some leaf →
    (pair.writer byChild).mm.isSharedPage (n * page) = false →
    (pair.writer !byChild).table.translate m = some leaf' → leaf'.frame ≠ leaf.frame

lemma writer_write [Zero P] (pair : Pair F P) (w : Write P) :
    (pair.write readFragments w).writer w.byChild =
      (store readFragments (pair.writer w.byChild) w.number w.content
        { pair.phys with grants := w.grants }).1 := by
  unfold write writer
  split <;> rfl

lemma writer_not_write [Zero P] (pair : Pair F P) (w : Write P) :
    (pair.write readFragments w).writer (!w.byChild) = pair.writer !w.byChild := by
  unfold write writer
  cases w.byChild <;> rfl

lemma phys_write [Zero P] (pair : Pair F P) (w : Write P) :
    (pair.write readFragments w).phys =
      (store readFragments (pair.writer w.byChild) w.number w.content
        { pair.phys with grants := w.grants }).2 := by
  unfold write
  cases w.byChild <;> rfl

variable {pair : Pair F P}

lemma Apart.write [Zero P] (h : pair.Apart) {w : Write P}
    (hw : pair.Private w) : (pair.write readFragments w).Apart := by
  obtain ⟨hmm, -, htable⟩ := store_fields readFragments (pair.writer w.byChild) w.number w.content
    { pair.phys with grants := w.grants }
  rw [← writer_write] at hmm htable
  intro byChild n leaf m leaf' hleaf hown hleaf'
  by_cases hside : byChild = w.byChild
  · subst hside
    rw [writer_not_write] at hleaf'
    rw [hmm] at hown
    obtain hsame | ⟨-, new, hnew, hmem⟩ := htable n
    · exact h _ n leaf m leaf' (hsame.symm.trans hleaf) hown hleaf'
    · obtain rfl := Option.some.inj (hleaf.symm.trans hnew)
      exact fun heq => hw.2 _ m leaf' hleaf' (heq ▸ hmem)
  · have hside' : byChild = !w.byChild := by cases hb : byChild <;> cases hc : w.byChild <;> simp_all
    subst hside'
    rw [writer_not_write] at hleaf hown
    rw [Bool.not_not] at hleaf'
    obtain hsame | ⟨-, new, hnew, hmem⟩ := htable m
    · refine h _ n leaf m leaf' hleaf hown ?_
      rw [Bool.not_not]
      exact hsame.symm.trans hleaf'
    · obtain rfl := Option.some.inj (hleaf'.symm.trans hnew)
      exact fun heq => hw.2 _ n leaf hleaf (heq ▸ hmem)

lemma view_congr {space : AddressSpace F} {phys phys' : Phys P}
    (h : ∀ n leaf, space.table.translate n = some leaf →
      phys'.content leaf.frame = phys.content leaf.frame) (n : Nat) :
    space.view readFragments phys' n = space.view readFragments phys n := by
  cases hleaf : space.table.translate n with
  | none => rw [view_of_none hleaf, view_of_none hleaf]
  | some leaf => rw [view_of_some hleaf, view_of_some hleaf, h n leaf hleaf]

lemma Apart.unseen [Zero P] (h : pair.Apart) {w : Write P}
    (hw : pair.Private w) : pair.Unseen readFragments w := by
  obtain ⟨-, hmemory, -⟩ := store_fields readFragments (pair.writer w.byChild) w.number w.content
    { pair.phys with grants := w.grants }
  rw [← phys_write] at hmemory
  intro n
  rw [writer_not_write]
  refine view_congr readFragments (fun m leaf' hleaf' => ?_) n
  exact hmemory _ (hw.2 _ m leaf' hleaf') fun leaf hleaf => h _ w.number leaf m leaf' hleaf hw.1 hleaf'

/-- Address spaces that are apart stay so, and then no private write is seen. -/
lemma Apart.isolated [Zero P] (h : pair.Apart) :
    pair.Isolated readFragments := by
  intro ws hws
  induction ws generalizing pair with
  | nil => trivial
  | cons w ws ih => exact ⟨h.unseen readFragments hws.1, ih (h.write readFragments hws.1) hws.2⟩

end Pair

/-! ## What the child starts with -/

/-- The child's first state in user mode is that of the parent at the syscall, but for `rax`, and
later writes do not pass between the two.  `fpu` are the parent's floating-point registers at the
syscall. -/
structure Duplicated [Zero P] (readFragments : List (ElfPageFragment F) → Option P)
    (caller : Caller F D) (trap : Trap) (fpu : FpuState) (phys : Phys P) (child : Caller F D)
    (frame : Trap) (phys' : Phys P) : Prop where
  pages : ∀ n, child.space.view readFragments phys' n = caller.space.view readFragments phys n
  registers : frame = { trap with regs := { trap.regs with rax := 0 } }
  fpu : ∀ atSwitch, child.firstFpu atSwitch = fpu
  fds : child.fds = caller.fds
  signalMask : child.process.signalMask = caller.process.signalMask
  handler : child.process.handler = caller.process.handler
  pendingSignals : child.process.pendingSignals = 0
  isolated : (Pair.mk caller.space child.space phys').Isolated readFragments

/-- What holds of an address space and of the frame allocator: the frames handed out are free and
differ from each other, a frame of a shared page is not also mapped as a page that is not shared,
and no region of an ELF image is empty. -/
structure Forkable (space : AddressSpace F) (phys : Phys P) : Prop where
  distinct : phys.grants.Nodup
  unused : ∀ n leaf, space.table.translate n = some leaf → leaf.frame ∉ phys.grants
  separate : ∀ n leaf m leaf', space.table.translate n = some leaf →
    space.mm.isSharedPage (n * page) = false → space.table.translate m = some leaf' →
    space.mm.isSharedPage (m * page) = true → leaf'.frame ≠ leaf.frame
  regions : ∀ r ∈ space.mm.elfRegions, 0 < r.len

/-- Every mapped page that the program can access lies in a range of the process record or of the
memory map. -/
def Tracked : Prop :=
  ∀ n leaf, space.table.translate n = some leaf → leaf.flags.userAccessible = true →
    n ∈ space.pagesToCopy

lemma apart_of_fork [Zero P] {parent child : AddressSpace F} {phys phys' : Phys P}
    (hvalid : Forkable parent phys) (h : parent.fork phys = some (some child, phys')) :
    (Pair.mk parent child phys').Apart := by
  obtain ⟨hchild, hothers, hcopied, -⟩ := fork_ok h hvalid.distinct hvalid.unused
  have hmm : child.mm = parent.mm := by rw [hchild]
  -- A page of the child is a shared page of the parent, or its frame was free.
  have hpage : ∀ n leaf', child.table.translate n = some leaf' →
      leaf'.frame ∈ phys.grants ∨ parent.mm.isSharedPage (n * page) = true ∧
        ∃ leaf, parent.table.translate n = some leaf ∧ leaf'.frame = leaf.frame := by
    intro n leaf' hleaf'
    have hn : n ∈ parent.pagesToCopy := by
      by_contra hn
      rw [hothers n hn] at hleaf'
      cases hleaf'
    have hrel := hcopied n hn
    rw [hleaf'] at hrel
    cases hleaf : parent.table.translate n with
    | none =>
      rw [hleaf] at hrel
      cases hrel
    | some leaf =>
      rw [hleaf] at hrel
      obtain ⟨hrel⟩ := hrel
      cases hshared : leaf'.shared with
      | false => exact Or.inl (hrel.own hshared).1
      | true => exact Or.inr ⟨hrel.shared ▸ hshared, leaf, rfl, hrel.same hshared⟩
  intro byChild n leaf m leaf' hleaf hown hleaf'
  cases byChild with
  | false =>
    obtain hfree | ⟨hshared, other, hother, heq⟩ := hpage m leaf' hleaf'
    · exact fun h => hvalid.unused n leaf hleaf (h ▸ hfree)
    · exact heq ▸ hvalid.separate n leaf m other hleaf hown hother hshared
  | true =>
    have hown : child.mm.isSharedPage (n * page) = false := hown
    rw [hmm] at hown
    obtain hfree | ⟨hshared, -⟩ := hpage n leaf hleaf
    · exact fun h => hvalid.unused m leaf' hleaf' (h ▸ hfree)
    · rw [hown] at hshared
      cases hshared

lemma view_fork_iff [Zero P]
    {parent child : AddressSpace F} {phys phys' : Phys P} (hvalid : Forkable parent phys)
    (h : parent.fork phys = some (some child, phys')) :
    (∀ n, child.view readFragments phys' n = parent.view readFragments phys n) ↔ Tracked parent := by
  obtain ⟨hchild, hothers, hcopied, hmemory⟩ := fork_ok h hvalid.distinct hvalid.unused
  have hmm : child.mm = parent.mm := by rw [hchild]
  have hplan : ∀ n, n ∉ parent.pagesToCopy →
      AddressSpace.planned readFragments child.mm n = none := by
    intro n hn
    rw [hmm, AddressSpace.planned]
    cases hplan : parent.mm.pageFaultPlan (n * page) with
    | none => rfl
    | some plan => exact absurd (mem_pagesToCopy_of_plan hvalid.regions hplan) hn
  constructor
  · intro hview n leaf hleaf huser
    by_contra hn
    have hn' := hview n
    rw [view_of_none (hothers n hn), hplan n hn, view_of_some hleaf, if_pos huser] at hn'
    cases hn'
  intro htracked n
  by_cases hn : n ∈ parent.pagesToCopy
  · have hrel := hcopied n hn
    cases hleaf : parent.table.translate n with
    | none =>
      rw [hleaf] at hrel
      have hnone : child.table.translate n = none := by
        cases hchild : child.table.translate n with
        | none => rfl
        | some leaf' =>
          rw [hchild] at hrel
          cases hrel
      rw [view_of_none hnone, view_of_none hleaf, hmm]
    | some leaf =>
      rw [hleaf] at hrel
      obtain ⟨leaf', hleaf', hrel⟩ : ∃ leaf', child.table.translate n = some leaf' ∧
          parent.Copied phys.grants phys.content phys'.content n leaf leaf' := by
        cases hchild : child.table.translate n with
        | none =>
          rw [hchild] at hrel
          cases hrel
        | some leaf' =>
          rw [hchild] at hrel
          obtain ⟨hrel⟩ := hrel
          exact ⟨leaf', rfl, hrel⟩
      have hbytes : phys'.content leaf'.frame = phys.content leaf.frame := by
        cases hshared : leaf'.shared with
        | false => exact (hrel.own hshared).2
        | true => rw [hrel.same hshared, hmemory _ (hvalid.unused n leaf hleaf)]
      rw [view_of_some hleaf', view_of_some hleaf, hrel.flags, hbytes]
  · rw [view_of_none (hothers n hn), hplan n hn]
    cases hleaf : parent.table.translate n with
    | none => rw [view_of_none hleaf, ← hmm, hplan n hn]
    | some leaf =>
      rw [view_of_some hleaf, if_neg fun huser => hn (htracked n leaf hleaf huser)]

/-- The child of a `fork` starts with the state of its parent exactly if the parent's save area
already holds its floating-point registers, its flags have the two bits that are set for the child
and none of the pages it can access is outside the ranges that are copied. -/
theorem fork_duplicates_iff [Zero P] (readFragments : List (ElfPageFragment F) → Option P)
    (caller : Caller F D) (trap : Trap) (fpu : FpuState) (pid birth : Nat) (phys : Phys P)
    (hvalid : Forkable caller.space phys) (child : Caller F D) (frame : Trap) (phys' : Phys P)
    (h : caller.fork trap pid birth phys = some (some (child, frame), phys')) :
    Duplicated readFragments caller trap fpu phys child frame phys' ↔
      caller.fpuStorage = some fpu ∧ trap.rflags ||| 0x202 = trap.rflags ∧ Tracked caller.space := by
  simp only [Caller.fork, Caller.forkProcess, map_eq_some_iff, Prod.mk.injEq] at h
  obtain ⟨⟨_, _⟩, hspace, ⟨space, rfl, rfl, rfl⟩, rfl⟩ := h
  constructor
  · intro hdup
    refine ⟨?_, ?_, (view_fork_iff readFragments hvalid hspace).mp hdup.pages⟩
    · have hfpu := hdup.fpu
      cases hstored : caller.fpuStorage with
      | none =>
        simp only [Caller.firstFpu, hstored] at hfpu
        exact absurd (congrFun ((hfpu 0).trans (hfpu 1).symm) 0) (by decide)
      | some stored =>
        simp only [Caller.firstFpu, hstored, getD_some] at hfpu
        rw [hfpu 0]
    · exact congrArg Trap.rflags hdup.registers
  · rintro ⟨hfpu, hflags, htracked⟩
    exact {
      pages := (view_fork_iff readFragments hvalid hspace).mpr htracked
      registers := by rw [hflags]
      fpu := fun atSwitch => by rw [Caller.firstFpu, hfpu, getD_some]
      fds := rfl
      signalMask := rfl
      handler := rfl
      pendingSignals := rfl
      isolated := (apart_of_fork hvalid hspace).isolated readFragments }

/-! ### A program that computes before it forks -/

variable (fpuStorage : Option FpuState)

def forker : Caller Unit Unit where
  process := Process.fresh 1 0 0
  space :=
    { table :=
        { root := 1
          tables := [((3, 0), 2), ((2, 0), 3), ((1, 0), 4)]
          leaves := [(16, ⟨5, ⟨true, true, false⟩, false⟩)]
          distinct := List.nodup_singleton _ }
      addrSizeVec := [(65536, 4096)]
      heapStart := 0
      mm := ⟨0, 0, [], []⟩ }
  fds := [some ()]
  fpuStorage := fpuStorage

def forkerPhys : Phys Nat := ⟨[6, 7, 8, 9, 10, 11, 12, 13, 14], {1, 2, 3, 4, 5}, fun _ => 7⟩

def forkerTrap : Trap where
  regs := ⟨0, 0, 0, 0, 0, 0, 0, 0, 0, 0, 0, 0, 0, 0, 57⟩
  rip := 0x400000
  rsp := 0x10800
  rflags := 0x202

lemma forker_page {fpuStorage : Option FpuState} {n : Nat} {leaf : Leaf}
    (h : (forker fpuStorage).space.table.translate n = some leaf) :
    n = 16 ∧ leaf = ⟨5, ⟨true, true, false⟩, false⟩ :=
  Prod.mk.inj (List.mem_singleton.mp (PageTable.mem_of_translate h))

lemma forker_forkable :
    Forkable (forker fpuStorage).space forkerPhys where
  distinct := by decide
  unused n leaf h := by
    obtain ⟨-, rfl⟩ := forker_page h
    decide
  separate _ _ _ _ _ _ _ hshared := Bool.noConfusion hshared
  regions := nofun

lemma forker_tracked : Tracked (forker fpuStorage).space := by
  intro n leaf h _
  obtain ⟨rfl, -⟩ := forker_page h
  show 16 ∈ (forker none).space.pagesToCopy
  decide

lemma forker_forks :
    ∃ child frame phys', (forker fpuStorage).fork forkerTrap 2 1 forkerPhys =
      some (some (child, frame), phys') ∧ child.fpuStorage = fpuStorage := by
  exact ⟨_, _, _, rfl, rfl⟩

/-- The registers in memory are those of the processor. -/
theorem fork_duplicates_iff_forker :
    ∃ child frame phys', (forker (some 0)).fork forkerTrap 2 1 forkerPhys =
        some (some (child, frame), phys') ∧
      Duplicated (fun _ => none) (forker (some 0)) forkerTrap 0 forkerPhys child frame phys' := by
  obtain ⟨child, frame, phys', h, -⟩ := forker_forks (some 0)
  refine ⟨child, frame, phys', h, ?_⟩
  exact (fork_duplicates_iff _ _ _ _ 2 1 _ (forker_forkable _) _ _ _ h).mpr
    ⟨rfl, by decide, forker_tracked _⟩

/-- The parent has changed a floating-point register since it was last switched away from. -/
theorem fork_stale_fpu :
    ∃ child frame phys', (forker (some 0)).fork forkerTrap 2 1 forkerPhys =
        some (some (child, frame), phys') ∧
      child.firstFpu 1 = 0 ∧
      ¬ Duplicated (fun _ => none) (forker (some 0)) forkerTrap 1 forkerPhys child frame phys' := by
  obtain ⟨child, frame, phys', h, hstored⟩ := forker_forks (some 0)
  have hfirst : child.firstFpu 1 = 0 := by rw [Caller.firstFpu, hstored, getD_some]
  refine ⟨child, frame, phys', h, hfirst, fun hdup => ?_⟩
  exact absurd (congrFun (hfirst.symm.trans (hdup.fpu 1)) 0) (by decide)

end Twilight.Proc

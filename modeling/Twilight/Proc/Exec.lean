/-
`execve`: what a failed one leaves behind.

`Process::exec` makes a new page table and loads it into CR3 before it reads the file, because the
stack of the new program is written through user addresses.  Every error after that returns to the
caller with the process record unchanged and CR3 at the new table: the error code is delivered to
a program whose memory is gone.  So an `execve` that fails has no effect only if it cannot fail.
-/
import Twilight.Memory.NewImage
import Twilight.Proc.Fork

namespace Twilight.Proc

open Memory List

variable {F D P : Type}

/-- What `exec` replaces in the process record. -/
structure Program (F D : Type) where
  caller : Caller F D
  entryPoint : Nat
  stack : Nat
  stackSize : Nat
  fsBase : Nat
  gsBase : Nat

/-- The calling process as `execve` finds it: CR3, the process record and the registers that the
syscall returns with. -/
structure ExecState (F D : Type) where
  cr3 : Nat
  program : Program F D
  trap : Trap

inductive ExecResult where
  | ok (entry sp : Nat)
  | err
deriving DecidableEq

/-- What `exec` depends on besides the executable: `kernelHalf` as in `mapImage`, `fs` opens the
interpreter, `fdFlags` are the flags of a descriptor and `initialStack` says where
`build_initial_stack` leaves the stack pointer. -/
structure ExecEnv (F D : Type) where
  kernelHalf : Nat → Bool
  fs : List UInt8 → Option (ExecFile F)
  fdFlags : D → BitVec 32
  initialStack : Images F → List (List UInt8) → List (List UInt8) → Nat

/-- `FpuState::default`: `mxcsr` with its mask, and the XMM registers all ones. -/
def defaultFpu : FpuState := fun i =>
  if i.val = 3 then 0x0000037f_00001f80 else if 20 ≤ i.val ∧ i.val < 52 then BitVec.allOnes 64 else 0

/-- The record of the new program: no signal is handled, masked or pending, and descriptors marked
close-on-exec are closed. -/
def Program.replaced (p : Program F D) (fdFlags : D → BitVec 32) (space : AddressSpace F)
    (entry sp : Nat) : Program F D where
  caller :=
    { process := { p.caller.process with handler := fun _ => 0, signalMask := 0, pendingSignals := 0 }
      space := space
      fds := p.caller.fds.map fun slot => slot.filter fun d => fdFlags d &&& 1 = 0
      fpuStorage := some defaultFpu }
  entryPoint := entry
  stack := sp
  stackSize := userStackSize
  fsBase := 0
  gsBase := 0

/-- `Process::exec`; nothing when the kernel panics. -/
def exec [Zero P] (env : ExecEnv F D) (file : ExecFile F) (argv envp : List (List UInt8))
    (s : ExecState F D) (phys : Phys P) : Option (ExecResult × ExecState F D × Phys P) :=
  match phys.allocateFrame with
  | none => none
  | some (root, phys) =>
    let s := { s with cr3 := root }
    match buildImage env.kernelHalf env.fs file root phys with
    | (.panic, _, _) => none
    | (.err, _, phys) => some (.err, s, phys)
    | (.ok space images, _, phys) =>
      let sp := env.initialStack images argv envp
      some (.ok images.entryPoint sp,
        { s with program := s.program.replaced env.fdFlags space images.entryPoint sp }, phys)

/-- The end of `execev`: a new program is entered at its entry point. -/
def execev [Zero P] (env : ExecEnv F D) (file : ExecFile F) (argv envp : List (List UInt8))
    (s : ExecState F D) (phys : Phys P) : Option (ExecResult × ExecState F D × Phys P) :=
  match exec env file argv envp s phys with
  | none => none
  | some (.err, s, phys) => some (.err, s, phys)
  | some (.ok entry sp, s, phys) =>
    if isCanonical entry && isCanonical sp then
      some (.ok entry sp,
        { s with trap := { s.trap with rip := BitVec.ofNat 64 entry, rsp := BitVec.ofNat 64 sp } }, phys)
    else none

lemma execev_of_not_builds [Zero P] {env : ExecEnv F D} {file : ExecFile F}
    {argv envp : List (List UInt8)} {s : ExecState F D} {phys phys₁ : Phys P} {root : Nat}
    (hroot : phys.allocateFrame = some (root, phys₁))
    (h : ¬ Builds env.kernelHalf env.fs file phys₁.grants.length) :
    ∃ phys', execev env file argv envp s phys = some (.err, { s with cr3 := root }, phys') := by
  rw [← buildImage_err env.kernelHalf env.fs file root phys₁] at h
  simp only [execev, exec, hroot]
  generalize buildImage env.kernelHalf env.fs file root phys₁ = r at h
  obtain ⟨built, table, phys₂⟩ := r
  obtain rfl : built = .err := h
  exact ⟨phys₂, rfl⟩

lemma execev_of_builds [Zero P] {env : ExecEnv F D} {file : ExecFile F}
    {argv envp : List (List UInt8)} {s s' : ExecState F D} {phys phys₁ phys' : Phys P} {root : Nat}
    (hroot : phys.allocateFrame = some (root, phys₁))
    (h : Builds env.kernelHalf env.fs file phys₁.grants.length) :
    execev env file argv envp s phys ≠ some (.err, s', phys') := by
  have hne := mt (buildImage_err env.kernelHalf env.fs file root phys₁).mp (not_not.mpr h)
  simp only [execev, exec, hroot]
  generalize buildImage env.kernelHalf env.fs file root phys₁ = r at hne
  obtain ⟨built, table, phys₂⟩ := r
  cases built with
  | err => exact absurd rfl hne
  | panic => nofun
  | ok space images =>
    dsimp only
    split
    · nofun
    · nofun

/-- A failed `execve` has no effect exactly if the call does not fail: the executable and its
interpreter can be loaded and there are frames for the new program.  (Without a frame for the page
table the kernel stops.) -/
theorem execev_harmless_iff [Zero P] (env : ExecEnv F D) (file : ExecFile F)
    (argv envp : List (List UInt8)) (s : ExecState F D) (phys : Phys P) (hcr3 : s.cr3 ∉ phys.grants) :
    (∀ s' phys', execev env file argv envp s phys = some (.err, s', phys') → s' = s) ↔
      phys.grants = [] ∨ Builds env.kernelHalf env.fs file (phys.grants.length - 1) := by
  cases hroot : phys.allocateFrame with
  | none =>
    refine iff_of_true (fun s' phys' h => ?_) (Or.inl (Phys.allocateFrame_eq_none.mp hroot))
    simp only [execev, exec, hroot] at h
    cases h
  | some r =>
  obtain ⟨root, phys₁⟩ := r
  obtain ⟨hgrants, -, -⟩ := Phys.allocateFrame_eq_some hroot
  have hlength : phys.grants.length - 1 = phys₁.grants.length := by
    rw [hgrants, length_cons, Nat.add_sub_cancel]
  rw [hlength]
  constructor
  · intro h
    refine Or.inr (not_not.mp fun hbuilds => ?_)
    obtain ⟨phys', herr⟩ := execev_of_not_builds hroot hbuilds
    have hsame : root = s.cr3 := congrArg ExecState.cr3 (h _ _ herr)
    rw [hgrants, ← hsame] at hcr3
    exact hcr3 mem_cons_self
  · rintro (hnil | hbuilds) s' phys' h
    · rw [hnil] at hgrants
      cases hgrants
    · exact absurd h (execev_of_builds hroot hbuilds)

/-! ### Two small files -/

def smallHeader : Elf64Ehdr := ⟨elfMagic, 2, 0x400078, 64, 56, 1⟩

def smallSegment : Elf64Phdr := ⟨ptLoad, 5, 0, 0x400000, 120, 0x2000⟩

/-- The two headers, which are also the segment to load. -/
def smallElf : ExecFile Unit :=
  .ofBytes (elfMagic ++ replicate 12 0 ++ [2, 0, 62, 0] ++ replicate 4 0 ++ [0x78, 0, 0x40] ++
    replicate 5 0 ++ [64] ++ replicate 21 0 ++ [56, 0, 1, 0] ++ replicate 6 0 ++
    [1, 0, 0, 0, 5] ++ replicate 13 0 ++ [0x40] ++ replicate 13 0 ++ [120] ++ replicate 8 0 ++
    [0x20] ++ replicate 14 0)

def bareEnv : ExecEnv Unit Unit where
  kernelHalf _ := false
  fs _ := none
  fdFlags _ := 0
  initialStack _ _ _ := userStackTop - 64

/-- The process of `forker`, its page table in CR3. -/
def execCaller : ExecState Unit Unit where
  cr3 := 1
  program := ⟨forker none, 0x400000, 0x10800, 4096, 0, 0⟩
  trap := forkerTrap

lemma smallElf_builds : Builds bareEnv.kernelHalf bareEnv.fs smallElf 103 := by
  have hheader : (smallElf.readExact 0 ehdrSize).map Elf64Ehdr.ofBytes = some smallHeader := by
    decide +kernel
  have hsegment : smallElf.SegmentOk 0 smallSegment :=
    ⟨by decide, by decide +kernel, by decide, by decide⟩
  have hmain : smallElf.LoadableAs mainDynLoadBase true smallHeader := by
    refine ⟨hheader, rfl, by decide, by decide +kernel, fun i hi => ?_⟩
    obtain rfl : i = 0 := Nat.lt_one_iff.mp hi
    exact ⟨smallSegment, by decide +kernel, fun _ _ => hsegment, fun _ h => absurd h (by decide)⟩
  have hheaders : smallElf.headers = some (smallHeader, [smallSegment]) :=
    ExecFile.headers_eq_some.mpr
      ⟨hmain.header, hmain.magic, hmain.entrySize, hmain.table, by decide +kernel⟩
  refine ⟨_, _, ?_, hheaders, ⟨_, hmain⟩, nofun, ?_, nofun⟩
  · decide +kernel
  · decide +kernel

/-- A file with one segment, two arguments and a variable, and just enough frames. -/
theorem execev_harmless_iff_segment :
    execCaller.cr3 ∉ range' 6 104 ∧
      ∀ s' phys', execev bareEnv smallElf [[97], [98]] [[120]] execCaller
        (⟨range' 6 104, {1, 2, 3, 4, 5}, fun _ => 0⟩ : Phys Nat) = some (.err, s', phys') →
        s' = execCaller :=
  ⟨by decide, (execev_harmless_iff _ _ _ _ _ _ (by decide)).mpr (Or.inr smallElf_builds)⟩

/-- A file of four bytes: `execve` reports an error and CR3 is at the new table. -/
theorem execev_loses_memory :
    ∃ s' phys', execev bareEnv (.ofBytes elfMagic) [] [] execCaller forkerPhys =
        some (.err, s', phys') ∧
      s'.program = execCaller.program ∧ s'.cr3 = 6 ∧ s' ≠ execCaller := by
  refine ⟨{ execCaller with cr3 := 6 }, _, rfl, rfl, rfl, fun h => ?_⟩
  exact absurd (congrArg ExecState.cr3 h) (by decide)

end Twilight.Proc

/-
The frames of processes over their whole life: `fork`, `exec`, page faults, exit and reaping.

The frames out of the allocator should be those of the page tables in the process table, together
with what the rest of the kernel holds.  Page faults and clean teardowns keep this balance.  No
`fork` does: the kernel stack of a child is never returned, and a `fork` that fails returns
nothing of what it took.  No `exec` does either: a successful one drops the old page table, a
failed one the new.
-/
import Twilight.Lib.Machine
import Twilight.Memory.NewImage

namespace Twilight.Memory

open Multiset List PageTable

variable {F P : Type}

structure Slot (F : Type) where
  space : AddressSpace F
  dead : Bool

structure World (F P : Type) where
  slots : List (Slot F)
  phys : Phys P

/-- One operation of the process in slot `i`; `grants` are the frames the allocator has for it. -/
inductive LifeOp (F P : Type) where
  | fork (i : Nat) (grants : List Nat)
  | exec (i : Nat) (kernelHalf : Nat → Bool) (fs : List UInt8 → Option (ExecFile F))
      (file : ExecFile F) (grants : List Nat)
  | fault (i : Nat) (readFragments : List (ElfPageFragment F) → Option P) (number : Nat)
      (write execute : Bool) (grants : List Nat)
  | exit (i : Nat)
  | reap (i : Nat)

namespace World

def live (w : World F P) (i : Nat) : Option (AddressSpace F) :=
  match w.slots[i]? with
  | some ⟨space, false⟩ => some space
  | _ => none

def zombie (w : World F P) (i : Nat) : Option (AddressSpace F) :=
  match w.slots[i]? with
  | some ⟨space, true⟩ => some space
  | _ => none

def withGrants (w : World F P) (grants : List Nat) : Phys P := { w.phys with grants := grants }

def setSpace (w : World F P) (i : Nat) (space : AddressSpace F) (phys : Phys P) : World F P :=
  ⟨w.slots.set i ⟨space, false⟩, phys⟩

/-- The frames in `exec` for a new address space: nothing when the kernel stops. -/
def exec [Zero P] (kernelHalf : Nat → Bool) (fs : List UInt8 → Option (ExecFile F))
    (file : ExecFile F) (phys : Phys P) : Option (Built F × PageTable × Phys P) :=
  phys.allocateFrame.map fun (root, phys) => buildImage kernelHalf fs file root phys

/-- One operation.  Where the kernel stops nothing follows, and the world is left as it is. -/
def step [Zero P] (w : World F P) : LifeOp F P → World F P
  | .fork i grants =>
    match w.live i with
    | none => w
    | some space =>
      match space.fork (w.withGrants grants) with
      | none => w
      | some (none, phys) => { w with phys := phys }
      | some (some child, phys) => ⟨w.slots ++ [⟨child, false⟩], phys⟩
  | .exec i kernelHalf fs file grants =>
    match w.live i with
    | none => w
    | some _ =>
      match exec kernelHalf fs file (w.withGrants grants) with
      | none | some (.panic, _, _) => w
      | some (.err, _, phys) => { w with phys := phys }
      | some (.ok space _, _, phys) => w.setSpace i space phys
  | .fault i readFragments number write execute grants =>
    match w.live i with
    | none => w
    | some space =>
      let (_, space, phys) :=
        space.resolvePageFault readFragments number write execute (w.withGrants grants)
      w.setSpace i space phys
  | .exit i =>
    match w.live i with
    | none => w
    | some space => { w with slots := w.slots.set i ⟨space, true⟩ }
  | .reap i =>
    match w.zombie i with
    | none => w
    | some space => ⟨w.slots.eraseIdx i, (space.cleanup w.phys).2⟩

variable (slots : List (Slot F))

def reachable : Multiset Nat := (slots.map fun s => s.space.table.frames).sum

/-- The frames out of the allocator are those of the page tables; `others` are the frames of the
rest of the kernel. -/
def Balanced (others : Multiset Nat) (w : World F P) : Prop :=
  w.phys.out = others + reachable w.slots

/-- The operation completes, and a teardown does not free a frame that belongs to a memory file. -/
def Completes [Zero P] (w : World F P) : LifeOp F P → Prop
  | .fork i grants => ∀ space, w.live i = some space → space.fork (w.withGrants grants) ≠ none
  | .exec i kernelHalf fs file grants => w.live i ≠ none →
    ∃ built table phys, exec kernelHalf fs file (w.withGrants grants) = some (built, table, phys) ∧
      built ≠ .panic
  | .reap i => ∀ space, w.zombie i = some space →
    ∀ l ∈ space.table.leaves, l.1 ∈ space.ownedRanges.flatMap rangePages → l.2.shared = false
  | _ => True

/-- What `cleanup` takes down completely: the pages of the process lie in its ranges, and, if it
has tables at all, it has such a page and no other page below one of them. -/
def Clean (space : AddressSpace F) : Prop :=
  (∀ l ∈ space.table.leaves, l.2.shared = false → l.1 ∈ space.ownedRanges.flatMap rangePages) ∧
    ∀ entry ∈ space.table.tables,
      (∃ l ∈ space.table.leaves, l.1 ∈ space.ownedRanges.flatMap rangePages) ∧
      ∀ l ∈ space.table.leaves, l.1 ∉ space.ownedRanges.flatMap rangePages →
        l.1 / 512 ^ entry.1.1 ≠ entry.1.2

def Frugal (w : World F P) : LifeOp F P → Prop
  | .fork i _ => w.live i = none
  | .exec i _ _ _ _ => w.live i = none
  | .reap i => ∀ space, w.zombie i = some space → Clean space
  | _ => True

instance (space : AddressSpace F) : Decidable (Clean space) := by
  unfold Clean
  infer_instance

/-! ## One operation -/

variable {i : Nat} {space : AddressSpace F}

lemma reachable_set {slots : List (Slot F)} {s : Slot F} (h : slots[i]? = some s) :
    ∃ rest, reachable slots = s.space.table.frames + rest ∧
      (∀ s', reachable (slots.set i s') = s'.space.table.frames + rest) ∧
      reachable (slots.eraseIdx i) = rest := by
  induction slots generalizing i with
  | nil => cases h
  | cons first slots ih =>
    cases i with
    | zero =>
      obtain rfl := Option.some.inj h
      exact ⟨reachable slots, rfl, fun s' => rfl, rfl⟩
    | succ i =>
      obtain ⟨rest, hall, hset, herase⟩ := ih h
      refine ⟨first.space.table.frames + rest, ?_, fun s' => ?_, ?_⟩
      · show first.space.table.frames + reachable slots = _
        rw [hall, add_left_comm]
      · show first.space.table.frames + reachable (slots.set i s') = _
        rw [hset, add_left_comm]
      · show first.space.table.frames + reachable (slots.eraseIdx i) = _
        rw [herase]

lemma live_eq_some {w : World F P}
    (h : w.live i = some space) : w.slots[i]? = some ⟨space, false⟩ := by
  unfold live at h
  split at h
  next heq => rw [heq, Option.some.inj h]
  · cases h

lemma zombie_eq_some {w : World F P}
    (h : w.zombie i = some space) : w.slots[i]? = some ⟨space, true⟩ := by
  unfold zombie at h
  split at h
  next heq => rw [heq, Option.some.inj h]
  · cases h

lemma frames_ne_zero (t : PageTable) : t.frames ≠ 0 := cons_ne_zero

lemma reachable_append (s : Slot F) :
    reachable (slots ++ [s]) = reachable slots + s.space.table.frames := by
  simp [reachable]

lemma add_ne_self {extra rest : Multiset Nat} (h : extra ≠ 0) : extra + rest ≠ rest := by
  rw [ne_eq, add_eq_right]
  exact h

lemma exec_out [Zero P] {kernelHalf : Nat → Bool} {fs : List UInt8 → Option (ExecFile F)}
    {file : ExecFile F} {phys phys' : Phys P} {built : Built F} {table : PageTable}
    (h : exec kernelHalf fs file phys = some (built, table, phys')) :
    phys'.out = table.frames + phys.out ∧
      ∀ space images, built = .ok space images → space.table = table := by
  obtain ⟨⟨root, phys₁⟩, hroot, hbuild⟩ := Option.map_eq_some_iff.mp h
  have hbuild : buildImage kernelHalf fs file root phys₁ = (built, table, phys') := hbuild
  have hkeeps := buildImage_keeps kernelHalf fs file root phys₁
  rw [hbuild] at hkeeps
  obtain ⟨-, hout, -⟩ := Phys.allocateFrame_eq_some hroot
  refine ⟨hkeeps.1 phys.out ?_, hkeeps.2⟩
  rw [hout]
  rfl

lemma clean_iff {phys : Phys P} {left : PageTable}
    (hleft : (space.table.deallocPages (space.ownedRanges.flatMap rangePages) phys).1 = left) :
    ↑(left.tables.map Prod.snd) + ownFrames left.leaves = 0 ↔ Clean space := by
  obtain ⟨-, hleaves, htables⟩ :=
    space.table.deallocPages_fields (space.ownedRanges.flatMap rangePages) phys
  rw [hleft] at hleaves htables
  rw [ownFrames, coe_add, coe_eq_zero, append_eq_nil_iff, map_eq_nil_iff, map_eq_nil_iff, and_comm]
  refine and_congr ?_ ?_
  · rw [hleaves, filter_eq_nil_iff]
    simp only [mem_filter]
    grind
  rw [htables]
  split
  next hpage =>
    rw [filter_eq_nil_iff]
    refine forall₂_congr fun entry hentry => ?_
    rw [inUse, hleaves, any_eq_true]
    simp only [hpage, true_and, mem_filter, decide_eq_true_eq, not_exists, not_and, and_imp]
  next hpage =>
    rw [eq_nil_iff_forall_not_mem]
    exact forall₂_congr fun entry hentry => iff_of_false (fun h => h.elim) fun h => hpage h.1

section

variable [Zero P] {others : Multiset Nat} {w : World F P} {i : Nat} {space : AddressSpace F}

section

variable (h : w.Balanced others)
include h

lemma fork_unbalanced {grants : List Nat}
    (hspace : w.live i = some space) (hfork : space.fork (w.withGrants grants) ≠ none) :
    ¬ (w.step (.fork i grants)).Balanced others := by
  obtain ⟨⟨child, phys'⟩, hfork⟩ := Option.ne_none_iff_exists'.mp hfork
  obtain ⟨table, stack, hout, hchild⟩ := AddressSpace.fork_out hfork
  have hbefore : (w.withGrants grants).out = others + reachable w.slots := h
  rw [hbefore] at hout
  intro hafter
  simp only [step, hspace, hfork] at hafter
  obtain ⟨rfl, rfl⟩ | ⟨rfl, hstack⟩ := hchild
  · have hafter : phys'.out = others + reachable w.slots := hafter
    rw [hout, coe_nil, zero_add] at hafter
    exact add_ne_self (frames_ne_zero table) hafter
  · have hafter : phys'.out =
        others + reachable (w.slots ++ [⟨{ space with table := table }, false⟩]) := hafter
    rw [hout, reachable_append, add_comm table.frames, add_assoc others] at hafter
    exact add_ne_self (mt (coe_eq_zero stack).mp hstack) hafter

lemma exec_unbalanced {kernelHalf : Nat → Bool}
    {fs : List UInt8 → Option (ExecFile F)} {file : ExecFile F} {grants : List Nat}
    (hspace : w.live i = some space) {built : Built F} {table : PageTable} {phys : Phys P}
    (hexec : exec kernelHalf fs file (w.withGrants grants) = some (built, table, phys))
    (hbuilt : built ≠ .panic) :
    ¬ (w.step (.exec i kernelHalf fs file grants)).Balanced others := by
  obtain ⟨hout, htable⟩ := exec_out hexec
  have hbefore : (w.withGrants grants).out = others + reachable w.slots := h
  rw [hbefore] at hout
  intro hafter
  simp only [step, hspace, hexec] at hafter
  cases built with
  | panic => exact hbuilt rfl
  | err =>
    have hafter : phys.out = others + reachable w.slots := hafter
    rw [hout] at hafter
    exact add_ne_self (frames_ne_zero table) hafter
  | ok space' images =>
    -- the new page table is accounted for, the old one is not any more
    obtain ⟨rest, hall, hset, -⟩ := reachable_set (live_eq_some hspace)
    have hafter : phys.out = others + reachable (w.slots.set i ⟨space', false⟩) := hafter
    rw [hout, hall, hset, htable space' images rfl, add_left_comm others table.frames,
      add_left_comm others space.table.frames] at hafter
    exact add_ne_self (frames_ne_zero space.table) (add_left_cancel hafter)

lemma fault_balanced (i : Nat)
    (readFragments : List (ElfPageFragment F) → Option P) (number : Nat) (write execute : Bool)
    (grants : List Nat) :
    (w.step (.fault i readFragments number write execute grants)).Balanced others := by
  cases hspace : w.live i with
  | none => simpa only [step, hspace] using h
  | some space =>
  obtain ⟨rest, hall, hset, -⟩ := reachable_set (live_eq_some hspace)
  have hbefore : (w.withGrants grants).out = space.table.frames + (others + rest) := by
    rw [add_left_comm, ← hall]
    exact h
  have hkeeps := space.resolvePageFault_keeps readFragments number write execute
    (w.withGrants grants) _ hbefore
  simp only [step, hspace]
  rw [Balanced, setSpace, hset, add_left_comm]
  exact hkeeps

lemma exit_balanced (i : Nat) : (w.step (.exit i)).Balanced others := by
  cases hspace : w.live i with
  | none => simpa only [step, hspace] using h
  | some space =>
  obtain ⟨rest, hall, hset, -⟩ := reachable_set (live_eq_some hspace)
  simp only [step, hspace]
  rw [Balanced, hset, ← hall]
  exact h

lemma reap_balanced_iff (hspace : w.zombie i = some space)
    (hown : ∀ l ∈ space.table.leaves, l.1 ∈ space.ownedRanges.flatMap rangePages →
      l.2.shared = false) :
    (w.step (.reap i)).Balanced others ↔ Clean space := by
  obtain ⟨rest, hall, -, herase⟩ := reachable_set (zombie_eq_some hspace)
  have hbefore : w.phys.out = space.table.frames + (others + rest) := by
    rw [add_left_comm, ← hall]
    exact h
  have hkeeps := space.table.deallocPages_keeps hown w.phys _ hbefore
  obtain ⟨hroot, -⟩ := space.table.deallocPages_fields (space.ownedRanges.flatMap rangePages) w.phys
  generalize hleft : (space.table.deallocPages _ w.phys).1 = left at hkeeps hroot
  rw [frames, hroot, cons_add] at hkeeps
  simp only [step, hspace]
  rw [Balanced, herase, ← clean_iff hleft]
  show Multiset.erase _ space.table.root = others + rest ↔ _
  rw [hkeeps, Multiset.erase_cons_head, add_eq_right]

lemma step_balanced_iff {op : LifeOp F P} (hop : w.Completes op) :
    (w.step op).Balanced others ↔ w.Frugal op := by
  cases op with
  | fork i grants =>
    cases hspace : w.live i with
    | none => exact iff_of_true (by simpa only [step, hspace] using h) hspace
    | some space =>
      refine iff_of_false (fork_unbalanced h hspace (hop space hspace)) ?_
      simp [Frugal, hspace]
  | exec i kernelHalf fs file grants =>
    cases hspace : w.live i with
    | none => exact iff_of_true (by simpa only [step, hspace] using h) hspace
    | some space =>
      obtain ⟨built, table, phys, hexec, hbuilt⟩ := hop (by simp [hspace])
      refine iff_of_false (exec_unbalanced h hspace hexec hbuilt) ?_
      simp [Frugal, hspace]
  | fault i readFragments number write execute grants =>
    exact iff_of_true (fault_balanced h i readFragments number write execute grants) trivial
  | exit i => exact iff_of_true (exit_balanced h i) trivial
  | reap i =>
    cases hspace : w.zombie i with
    | none =>
      refine iff_of_true (by simpa only [step, hspace] using h) fun space hsome => ?_
      rw [hspace] at hsome
      cases hsome
    | some space =>
      rw [reap_balanced_iff h hspace (hop space hspace)]
      simp [Frugal, hspace]

end

/-! ## Whole lives -/

/-- Along any run of operations that complete, the frames of terminated and replaced processes are
all back with the allocator exactly when no process forked or executed a program and every teardown
was clean. -/
theorem balanced_iff_frugal (h : w.Balanced others) (ops : List (LifeOp F P))
    (hops : Machine.Meets step Completes w ops) :
    Machine.Always step (Balanced others) w ops ↔ Machine.Meets step Frugal w ops := by
  have hboth := Machine.always_and_meets_iff
    (fun s e (hs : Balanced others s) => (and_comm.trans
      (and_congr_right fun hdone => step_balanced_iff hs hdone) :
        (s.step e).Balanced others ∧ s.Completes e ↔ s.Completes e ∧ s.Frugal e)) h ops
  rw [Machine.meets_and] at hboth
  exact ⟨fun halways => (hboth.mp ⟨halways, hops⟩).2, fun hfrugal => (hboth.mpr ⟨hops, hfrugal⟩).1⟩

end

def sole : World Unit Nat where
  slots := [⟨{
    table :=
      { root := 1
        tables := [((3, 0), 2), ((2, 0), 3), ((1, 0), 4)]
        leaves := [(16, ⟨5, ⟨true, true, false⟩, false⟩)]
        distinct := by decide }
    addrSizeVec := [(65536, 4096)]
    heapStart := 0
    mm := ⟨0, 0, [], [⟨131072, 4096, 131072, 0, 0, ⟨true, false, true⟩, ()⟩]⟩ }, false⟩]
  phys := ⟨[], {1, 2, 3, 4, 5}, fun _ => 7⟩

/-- The only process faults on a page of its file, exits and is reaped. -/
theorem balanced_iff_frugal_sole :
    let ops : List (LifeOp Unit Nat) :=
      [.fault 0 (fun _ => some 9) 32 false false [6], .exit 0, .reap 0]
    Machine.Always step (Balanced 0) sole ops ∧ (ops.foldl step sole).slots.length = 0 := by
  have hdone : ∀ space, ((sole.step (.fault 0 (fun _ => some 9) 32 false false [6])).step
      (.exit 0)).zombie 0 = some space → Clean space ∧
      ∀ l ∈ space.table.leaves, l.1 ∈ space.ownedRanges.flatMap rangePages → l.2.shared = false := by
    rintro space h
    obtain rfl := Option.some.inj h
    decide +kernel
  have hsole : sole.Balanced 0 := by
    show sole.phys.out = 0 + reachable sole.slots
    decide +kernel
  refine ⟨(balanced_iff_frugal hsole _ ?_).mpr ?_, by decide +kernel⟩
  · exact ⟨trivial, trivial, fun space h => (hdone space h).2, trivial⟩
  · exact ⟨trivial, trivial, fun space h => (hdone space h).1, trivial⟩

/-- A child is forked, ends and is reaped: the four frames of its kernel stack are lost. -/
theorem fork_exit_reap_loses :
    let w := [.fork 0 [6, 7, 8, 9, 10, 11, 12, 13, 14], .exit 1, .reap 1].foldl step sole
    w.slots.length = 1 ∧ w.phys.out = {11, 12, 13, 14} + reachable w.slots ∧ ¬ w.Balanced 0 := by
  have hout : let w := [.fork 0 [6, 7, 8, 9, 10, 11, 12, 13, 14], .exit 1, .reap 1].foldl step sole
      w.slots.length = 1 ∧ w.phys.out = {11, 12, 13, 14} + reachable w.slots := by
    decide +kernel
  refine ⟨hout.1, hout.2, ?_⟩
  rw [Balanced, hout.2]
  exact add_ne_self (by decide)

end World

end Twilight.Memory

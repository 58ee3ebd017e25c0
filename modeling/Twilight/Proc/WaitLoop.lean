/-
The loop of `wait4`.

Syscall entry masks interrupts, and only a switch to another process or
`executor::halt()` takes them again. The loop marks its caller as waiting, calls
`schedule_now` and looks at the table once more; it never halts. Without a switch the
next turn finds the same table, and no interrupt can change it in between
(`wait4Turn_forever`).
-/
import Twilight.Proc.Schedule

namespace Twilight.Proc

open List

/-- What a kernel loop passes through that lets the rest of the machine go on. -/
inductive Pause where
  | switch (pid : Nat)
  | halt
deriving DecidableEq

namespace Kernel

variable {k : Kernel}

/-- The pauses of a call of `schedule_now`. -/
def schedulePauses (k : Kernel) (guard : Bool) : List Pause :=
  let (switched, k') := k.scheduleNow guard
  if switched then [.switch k'.pid] else []

def wait4Turn (k : Kernel) (pid : Int) (options : BitVec 32) (guard : Bool) :
    WaitResult × List Pause × Kernel :=
  match k.wait4 pid options guard with
  | (.blocked, k') => (.blocked, (k.update k.pid (·.setState .waiting)).schedulePauses guard, k')
  | (result, k') => (result, [], k')

/-- One turn of the loop of `idle_until_runnable`, which halts where that of `wait4` goes on. -/
def idleTurn (k : Kernel) (guard : Bool) : List Pause × Kernel :=
  let (switched, k') := k.scheduleNow guard
  (if switched then [.switch k'.pid] else [.halt], k')

lemma schedulePauses_ne_nil_iff (k : Kernel) (guard : Bool) :
    k.schedulePauses guard ≠ [] ↔ guard = true ∧ k.CanSwitch := by
  rw [← scheduleNow_switches_iff]
  unfold schedulePauses
  cases h : (k.scheduleNow guard).1 <;> simp [h]

/-! ## The caller waits -/

lemma procs_setWaiting {cur : Nat} (hcur : findProcessIndex k.procs k.pid = some cur) :
    (k.update k.pid (·.setState .waiting)).procs = k.procs.modify cur (·.setState .waiting) := by
  show updateProcess k.procs k.pid _ = _
  rw [updateProcess, hcur]

lemma findProcessIndex_modify {procs : List Process} {pid i : Nat} {f : Process → Process}
    (hf : ∀ p, (f p).pid = p.pid) :
    findProcessIndex (procs.modify i f) pid = findProcessIndex procs pid := by
  unfold findProcessIndex
  induction procs generalizing i with
  | nil => rw [modify_nil]
  | cons p rest ih =>
    cases i with
    | zero => rw [modify_zero_cons, findIdx?_cons, findIdx?_cons, hf]
    | succ i => rw [modify_succ_cons, findIdx?_cons, findIdx?_cons, ih]

lemma findProcessIndex_update (k : Kernel) (pid pid' : Nat) {f : Process → Process}
    (hf : ∀ p, (f p).pid = p.pid) :
    findProcessIndex (k.update pid f).procs pid' = findProcessIndex k.procs pid' := by
  show findProcessIndex (updateProcess k.procs pid f) pid' = _
  unfold updateProcess
  split
  · rfl
  · exact findProcessIndex_modify hf

/-- Whether the caller is marked as waiting does not matter to the scheduler. -/
lemma canSwitch_setWaiting_iff (k : Kernel) :
    (k.update k.pid (·.setState .waiting)).CanSwitch ↔ k.CanSwitch := by
  refine exists_congr fun cur => ?_
  have hsame : findProcessIndex (k.update k.pid (·.setState .waiting)).procs k.pid
      = findProcessIndex k.procs k.pid :=
    findProcessIndex_update k k.pid k.pid fun _ => rfl
  rw [show (k.update k.pid (·.setState .waiting)).pid = k.pid from rfl, hsame]
  refine and_congr_right fun hcur => ?_
  rw [procs_setWaiting hcur]
  refine and_congr ?_ ?_
  · refine exists_congr fun i => exists_congr fun p => and_congr_right fun hi => ?_
    rw [getElem?_modify_ne _ _ (Ne.symm hi)]
  constructor
  · intro h j p hp hrun
    by_contra hj
    refine hj (h j p ?_ hrun)
    rw [getElem?_modify_ne _ _ (Ne.symm hj)]
    exact hp
  · intro h j p hp hrun
    by_contra hj
    rw [getElem?_modify_ne _ _ (Ne.symm hj)] at hp
    exact hj (h j p hp hrun)

variable {pid : Int} {options : BitVec 32} {guard : Bool}

lemma wait4Turn_of_blocked (h : (k.wait4 pid options guard).1 = .blocked) :
    k.wait4Turn pid options guard = (.blocked,
      (k.update k.pid (·.setState .waiting)).schedulePauses guard, (k.wait4 pid options guard).2) := by
  unfold wait4Turn
  split
  · rename_i k' heq
    rw [heq]
  · rename_i r k' hne heq
    rw [heq] at h
    exact absurd h hne

/-- A caller of `wait4` with nothing to report pauses exactly if another process is runnable and
no other one is marked running. -/
theorem wait4_pauses_iff (k : Kernel) (pid : Int) (options : BitVec 32) (guard : Bool)
    (h : (k.wait4 pid options guard).1 = .blocked) :
    (k.wait4Turn pid options guard).2.1 ≠ [] ↔ guard = true ∧ k.CanSwitch := by
  rw [wait4Turn_of_blocked h, ← canSwitch_setWaiting_iff]
  exact schedulePauses_ne_nil_iff _ guard

/-! ## A turn without a pause -/

/-- What `wait4` reports of a child. -/
def Reportable (options : BitVec 32) (p : Process) : Prop :=
  p.state = .dead ∨ options &&& wuntraced ≠ 0 ∧ p.state = .stopped ∧ p.waitReported = false

lemma wait4_blocked_iff : (k.wait4 pid options guard).1 = .blocked ↔
      options &&& ~~~(wnohang ||| wuntraced ||| wcontinued) = 0 ∧ options &&& wnohang = 0 ∧
      (∃ p ∈ k.procs, k.waitSelects pid p = true) ∧
      ∀ p ∈ k.procs, k.waitSelects pid p = true → ¬ Reportable options p := by
  unfold wait4
  by_cases hopt : options &&& ~~~(wnohang ||| wuntraced ||| wcontinued) = 0
  swap
  · rw [if_pos hopt]
    exact iff_of_false (by simp) fun h => hopt h.1
  rw [if_neg (not_not.mpr hopt), and_iff_right hopt]
  have hmatch : ∀ p : Process, (k.waitSelects pid p && (p.state = .dead ||
      options &&& wuntraced ≠ 0 && p.state = .stopped && !p.waitReported)) = true ↔
      k.waitSelects pid p = true ∧ Reportable options p := by
    intro p
    simp only [Reportable, Bool.and_eq_true, Bool.or_eq_true, decide_eq_true_eq,
      Bool.not_eq_true', and_assoc]
  dsimp only
  cases hfound : k.procs.findIdx? fun p => k.waitSelects pid p && (p.state = .dead ||
      options &&& wuntraced ≠ 0 && p.state = .stopped && !p.waitReported) with
  | some i =>
    obtain ⟨hi, hp, -⟩ := findIdx?_eq_some_iff_getElem.mp hfound
    obtain ⟨hsel, hrep⟩ := (hmatch _).mp hp
    simp only [Option.bind_some, getElem?_eq_getElem hi, Option.map_some]
    refine iff_of_false ?_ fun h => h.2.2 _ (getElem_mem hi) hsel hrep
    split <;> simp
  | none =>
    have hno : ∀ p ∈ k.procs, k.waitSelects pid p = true → ¬ Reportable options p :=
      fun p hp hsel hrep => by
        have := findIdx?_eq_none_iff.mp hfound p hp
        rw [(hmatch p).mpr ⟨hsel, hrep⟩] at this
        cases this
    rw [and_iff_left hno, ← any_eq_true]
    cases k.procs.any (k.waitSelects pid) with
    | false => exact iff_of_false (by simp) (by simp)
    | true =>
      rw [and_iff_left rfl]
      by_cases hhang : options &&& wnohang = 0
      · rw [if_neg (not_not.mpr hhang)]
        exact iff_of_true rfl hhang
      · rw [if_pos hhang]
        exact iff_of_false (by simp) hhang

lemma waitSelects_setWaiting (k : Kernel) (pid : Int) (p : Process) :
    (k.update k.pid (·.setState .waiting)).waitSelects pid p = k.waitSelects pid p ∧
      k.waitSelects pid (p.setState .waiting) = k.waitSelects pid p := by
  refine ⟨?_, rfl⟩
  have hpgid : (getProcess (k.update k.pid (·.setState .waiting)).procs k.pid).map (·.pgid)
      = (getProcess k.procs k.pid).map (·.pgid) := by
    cases hp : getProcess k.procs k.pid with
    | none =>
      show (getProcess (updateProcess k.procs k.pid _) k.pid).map _ = _
      have : findProcessIndex k.procs k.pid = none := by
        rw [findProcessIndex, findIdx?_eq_none_iff]
        intro q hq
        simpa using find?_eq_none.mp hp q hq
      rw [updateProcess, this, hp]
    | some p =>
      show (getProcess (updateProcess k.procs k.pid _) k.pid).map _ = _
      have hpid := getProcess_pid hp
      rw [getProcess_updateProcess hp (show (p.setState .waiting).pid = k.pid from hpid)]
      rfl
  unfold waitSelects
  rw [show (k.update k.pid (·.setState .waiting)).pid = k.pid from rfl, hpgid]

lemma wait4_snd_of_blocked (h : (k.wait4 pid options guard).1 = .blocked) :
    (k.wait4 pid options guard).2 = ((k.update k.pid (·.setState .waiting)).scheduleNow guard).2 := by
  unfold wait4 at h ⊢
  split
  · rename_i hopt
    rw [if_pos hopt] at h
    cases h
  rename_i hopt
  rw [if_neg hopt] at h
  dsimp only at h ⊢
  split
  · rename_i heq
    rw [heq] at h
    dsimp only at h
    split at h
    · cases h
    · cases h
  · rename_i heq
    rw [heq] at h
    split
    · rename_i hany
      rw [if_pos hany] at h
      cases h
    rename_i hany
    rw [if_neg hany] at h
    split
    · rename_i hhang
      rw [if_pos hhang] at h
      cases h
    · rfl

lemma setWaiting_setWaiting (k : Kernel) :
    (k.update k.pid (·.setState .waiting)).update k.pid (·.setState .waiting)
      = k.update k.pid (·.setState .waiting) := by
  have hsame : findProcessIndex (k.update k.pid (·.setState .waiting)).procs k.pid
      = findProcessIndex k.procs k.pid :=
    findProcessIndex_update k k.pid k.pid fun _ => rfl
  show { k with procs := updateProcess (k.update k.pid (·.setState .waiting)).procs k.pid _ } =
    { k with procs := updateProcess k.procs k.pid _ }
  congr 1
  unfold updateProcess
  rw [hsame]
  cases hcur : findProcessIndex k.procs k.pid with
  | none =>
    show updateProcess k.procs k.pid _ = k.procs
    rw [updateProcess, hcur]
  | some cur =>
    rw [procs_setWaiting hcur]
    exact modify_modify_eq _ _ _ _

lemma wait4Turn_repeats (h : (k.wait4 pid options guard).1 = .blocked)
    (hno : (k.wait4Turn pid options guard).2.1 = []) :
    let k' := k.update k.pid (·.setState .waiting)
    k.wait4Turn pid options guard = (.blocked, [], k') ∧
      k'.wait4Turn pid options guard = (.blocked, [], k') := by
  intro k'
  have hstuck : ¬ (guard = true ∧ k.CanSwitch) := by
    rw [wait4Turn_of_blocked h] at hno
    rw [← canSwitch_setWaiting_iff, ← schedulePauses_ne_nil_iff, not_not]
    exact hno
  have hsame : k'.scheduleNow guard = (false, k') := by
    rcases k'.scheduleNow_cases guard with ⟨cur, next, target, -, -, -, heq⟩ | ⟨-, heq⟩
    · have hswitch : (k'.scheduleNow guard).1 = true := by rw [heq]
      rw [scheduleNow_switches_iff, canSwitch_setWaiting_iff] at hswitch
      exact absurd hswitch hstuck
    · exact heq
  have hpauses : k'.schedulePauses guard = [] := by
    rw [schedulePauses, hsame]
    rfl
  have hblocked : (k'.wait4 pid options guard).1 = .blocked := by
    rw [wait4_blocked_iff] at h ⊢
    obtain ⟨hopt, hhang, ⟨p, hp, hsel⟩, hall⟩ := h
    refine ⟨hopt, hhang, ?_, fun q hq hselq hrep => ?_⟩
    · rcases exists_mem_updateProcess hp k.pid (·.setState .waiting) with hq | hq
      · exact ⟨p, hq, by rw [(waitSelects_setWaiting k pid p).1, hsel]⟩
      · refine ⟨_, hq, ?_⟩
        rw [(waitSelects_setWaiting k pid _).1, (waitSelects_setWaiting k pid p).2, hsel]
    rw [(waitSelects_setWaiting k pid q).1] at hselq
    rcases mem_updateProcess hq with hq | ⟨p, -, rfl⟩
    · exact hall q hq hselq hrep
    · rcases hrep with hdead | ⟨-, hstop, -⟩
      · cases hdead
      · cases hstop
  have hagain : k'.update k'.pid (·.setState .waiting) = k' := setWaiting_setWaiting k
  constructor
  · rw [wait4Turn_of_blocked h, wait4_snd_of_blocked h, hpauses, hsame]
  · rw [wait4Turn_of_blocked hblocked, wait4_snd_of_blocked hblocked, hagain, hpauses, hsame]

/-- Once a turn is blocked without a pause, every later turn is, with the same table. -/
theorem wait4Turn_forever (h : (k.wait4 pid options guard).1 = .blocked)
    (hno : (k.wait4Turn pid options guard).2.1 = []) (n : Nat) :
    ((fun k => (wait4Turn k pid options guard).2.2)^[n] k).wait4Turn pid options guard =
      (.blocked, [], k.update k.pid (·.setState .waiting)) := by
  obtain ⟨hfirst, hagain⟩ := wait4Turn_repeats h hno
  cases n with
  | zero => exact hfirst
  | succ n =>
    rw [Function.iterate_succ_apply, hfirst, Function.iterate_fixed (by rw [hagain]), hagain]

/-- A parent in `wait4` whose only child sleeps. -/
def parentOfSleeper : Kernel :=
  { boot with
    procs := [(Process.fresh 1 0 1).setState .running, (Process.fresh 2 1 2).setState .sleeping]
    pid := 1 }

/-- The tenth turn is like the first. -/
theorem wait4Turn_forever_sleeper :
    ((fun k => (wait4Turn k (-1) 0 true).2.2)^[9] parentOfSleeper).wait4Turn (-1) 0 true =
      (.blocked, [], parentOfSleeper.update 1 (·.setState .waiting)) :=
  wait4Turn_forever (by decide) (by decide) 9

/-- A parent whose only child sleeps has no one to switch to. -/
theorem wait4_pauses_iff_sleeper :
    (parentOfSleeper.wait4Turn (-1) 0 true).2.1 ≠ [] ↔ true = true ∧ parentOfSleeper.CanSwitch :=
  wait4_pauses_iff parentOfSleeper (-1) 0 true (by decide)

/-- The parent spins: it has a child to wait for, and its turn passes through nothing. -/
theorem wait4_spins :
    (parentOfSleeper.wait4Turn (-1) 0 true).1 = .blocked ∧
      (parentOfSleeper.wait4Turn (-1) 0 true).2.1 = [] := by
  decide

/-- `idle_until_runnable` halts where `wait4` spins. -/
example : (parentOfSleeper.idleTurn true).1 = [.halt] := by decide

end Kernel

end Twilight.Proc

/-
The ways a signal reaches a process that is blocked.

`Process::queue_signal` leaves a sleep or a poll alone when the signal would not
interrupt it.  It is not the only code a signal passes through: `kill` decides by
the disposition alone, `proc::queue_signal` goes on to wake its target, and the
exit of a child makes a polling parent runnable.  `keepsWait_iff` says for each way
which waits survive.
-/
import Twilight.Proc.Pids

namespace Twilight.Proc

open Process

/-! ## Ways to raise a signal -/

/-- The code that raises a signal for a process: `kill` with the process as a target,
`proc::queue_signal` as the terminal and the pipes call it, and the notice to a parent when a child
exits, faults, is killed or stopped, leaves with its whole group, or is adopted as a zombie. -/
inductive Raise where
  | kill
  | queueSignal
  | childExit
  | childFault
  | childKilled
  | childGroupExit
  | adoption
deriving DecidableEq

namespace Raise

def Raises : Raise → Nat → Prop
  | .kill, sig | .queueSignal, sig => 1 ≤ sig ∧ sig ≤ 64
  | _, sig => sig = sigchld

instance (w : Raise) (sig : Nat) : Decidable (w.Raises sig) := by
  cases w <;> unfold Raises <;> infer_instance

def apply : Raise → Nat → Process → Process
  | .kill, sig, p => (p.applySignal sig).1
  | .queueSignal, sig, p => (p.queueSignal sig).wake
  | .childExit, _, p | .childFault, _, p => p.childExited
  | .childKilled, _, p | .childGroupExit, _, p | .adoption, _, p => p.queueSignal sigchld

/-- The kernel function behind each way: it takes the table from `procs` to `procs'` when it raises
`sig` for `pid`. The notice to a parent is the last thing `leaveTable`, `leaveGroup` and
`reparentChildren` do. -/
inductive Takes : Raise → Nat → Nat → List Process → List Process → Prop
  | kill (sig pid acc) : Takes .kill sig pid acc.1 (Kernel.killOne sig acc pid).1
  | queueSignal (sig pid) (k : Kernel) : Takes .queueSignal sig pid k.procs (k.queueSignal pid sig).procs
  | childExit (k : Kernel) (cur code status parent) : Takes .childExit sigchld parent
      ((reparentChildren k.procs k.pid).modify cur fun p => (p.die code).setWaitStatus status)
      (k.leaveTable cur code status parent).procs
  | childFault (k : Kernel) (cur code status parent) : Takes .childFault sigchld parent
      ((reparentChildren k.procs k.pid).modify cur fun p => (p.die code).setWaitStatus status)
      (k.leaveTable cur code status parent).procs
  | childKilled (procs parent) :
      Takes .childKilled sigchld parent procs (notifyParentForChildEvent procs parent)
  | childGroupExit (k : Kernel) (leader g code parent) : Takes .childGroupExit sigchld parent
      (((reparentChildren k.procs g).map fun q => if q.tgid = g then q.die code else q).modify leader
        (·.setWaitStatus (code % 0x100 * 0x100)))
      (k.leaveGroup leader g code parent).procs
  | adoption (procs pid) (hpid : pid ≠ 1) (hinit : (procs.any fun p => p.pid = 1) = true)
      (hzombie : (procs.any fun p => adoptedBy pid p && p.state = .dead) = true) :
      Takes .adoption sigchld 1
        (procs.map fun p => if adoptedBy pid p then { p with parentPid := 1 } else p)
        (reparentChildren procs pid)

lemma apply_pid (w : Raise) (sig : Nat) (p : Process) : (w.apply sig p).pid = p.pid := by
  have hchild : p.childExited.pid = p.pid := SameIds.loose.toCalm.pid _ _
    (SameIds.loose.toCalm.childExited p)
  have hqueue : ∀ s, (p.queueSignal s).pid = p.pid := fun s =>
    SameIds.loose.toCalm.pid _ _ (SameIds.loose.toCalm.queueSignal p s)
  cases w with
  | kill => exact SameIds.loose.toCalm.pid _ _ (SameIds.applySignal p sig)
  | queueSignal =>
    exact (SameIds.loose.toCalm.pid _ _ (SameIds.loose.toCalm.wake _)).trans (hqueue sig)
  | childExit | childFault => exact hchild
  | childKilled | childGroupExit | adoption => exact hqueue sigchld

/-- Whatever else the kernel function does, the process it raises the signal for is `apply`'s. -/
lemma Takes.getProcess {w : Raise} {sig pid : Nat} {procs procs' : List Process} {p : Process}
    (h : w.Takes sig pid procs procs') (hp : getProcess procs pid = some p) :
    getProcess procs' pid = some (w.apply sig p) := by
  have hpid := getProcess_pid hp
  have hafter := getProcess_updateProcess hp ((w.apply_pid sig p).trans hpid)
  cases h with
  | kill acc =>
    unfold Kernel.killOne
    rw [hp]
    dsimp only
    split
    · exact hafter
    · exact hafter
  | queueSignal k =>
    have hqueue : (p.queueSignal sig).pid = pid :=
      (SameIds.loose.toCalm.pid _ _ (SameIds.loose.toCalm.queueSignal p sig)).trans hpid
    have hfirst := getProcess_updateProcess hp (f := (·.queueSignal sig)) hqueue
    exact getProcess_updateProcess hfirst ((apply_pid .queueSignal sig p).trans hpid)
  | childExit | childFault | childKilled | childGroupExit => exact hafter
  | adoption procs pid hne hinit hzombie =>
    rw [reparentChildren, hinit, if_neg (by simpa using hne), if_pos hzombie]
    exact hafter

end Raise

/-! ## What the process keeps -/

/-- The process `q` is `p` with nothing but the signal recorded: it waits as before. -/
structure Process.KeepsWait (sig : Nat) (p q : Process) : Prop where
  state : q.state = p.state
  token : q.waitToken = p.waitToken
  deadline : q.waitDeadlineNs = p.waitDeadlineNs
  pending : q.pendingSignals = p.pendingSignals ||| signalBit sig

namespace Process

variable {p : Process} {sig : Nat}

lemma queueSignal_keepsWait (hsig : 1 ≤ sig ∧ sig ≤ 64)
    (hw : p.state = .sleeping ∨ p.state = .awaitingIo) (hno : p.signalInterruptsSleep sig = false) :
    p.queueSignal sig = { p with pendingSignals := p.pendingSignals ||| signalBit sig } := by
  unfold queueSignal
  rw [if_neg (not_not.mpr hsig)]
  rcases hw with hw | hw
  · simp [hw, hno]
  · simp [hw, hno]

/-- `kill` leaves a blocked process as it was, but for the pending bit, exactly if the signal is
SIGCONT, or ignored and pending already, or caught, or one whose default neither stops nor kills. -/
def SparedByKill (p : Process) (sig : Nat) : Prop :=
  let ignored := p.handler sig = sigIgn ∧ sig ≠ sigkill ∧ sig ≠ sigstop
  sig = sigcont ∨ (ignored ∧ p.pendingSignals ||| signalBit sig = p.pendingSignals) ∨
    (¬ ignored ∧ (sigIgn < p.handler sig ∨ (isStopDefault sig = false ∧ isFatalDefault sig = false)))

instance (p : Process) (sig : Nat) : Decidable (p.SparedByKill sig) :=
  inferInstanceAs (Decidable (_ ∨ _))

lemma applySignal_keepsWait_iff (hsig : 1 ≤ sig ∧ sig ≤ 64)
    (hw : p.state = .sleeping ∨ p.state = .awaitingIo) (hno : p.signalInterruptsSleep sig = false) :
    p.KeepsWait sig (p.applySignal sig).1 ↔ p.SparedByKill sig := by
  have hqueue := queueSignal_keepsWait hsig hw hno
  have hkept : p.KeepsWait sig (p.queueSignal sig) := by
    rw [hqueue]
    exact ⟨rfl, rfl, rfl, rfl⟩
  have hstopped : p.state ≠ .stopped := by rcases hw with hw | hw <;> rw [hw] <;> decide
  unfold applySignal SparedByKill
  rw [if_neg (by omega)]
  by_cases hcont : sig = sigcont
  · simp only [if_pos hcont, if_neg hstopped]
    exact iff_of_true hkept (.inl hcont)
  rw [if_neg hcont]
  by_cases hign : p.handler sig = sigIgn ∧ sig ≠ sigkill ∧ sig ≠ sigstop
  · rw [if_pos hign]
    constructor
    · intro h
      exact .inr (.inl ⟨hign, h.pending.symm⟩)
    · intro h
      rcases h with h | ⟨-, h⟩ | ⟨h, -⟩
      · exact absurd h hcont
      · exact ⟨rfl, rfl, rfl, h.symm⟩
      · exact absurd hign h
  rw [if_neg hign]
  by_cases hcaught : p.handler sig > sigIgn
  · rw [if_pos hcaught]
    exact iff_of_true hkept (.inr (.inr ⟨hign, .inl hcaught⟩))
  rw [if_neg hcaught]
  have hdefault : (sig = sigcont ∨ ((p.handler sig = sigIgn ∧ sig ≠ sigkill ∧ sig ≠ sigstop) ∧
      p.pendingSignals ||| signalBit sig = p.pendingSignals) ∨
      (¬ (p.handler sig = sigIgn ∧ sig ≠ sigkill ∧ sig ≠ sigstop) ∧ (sigIgn < p.handler sig ∨
        (isStopDefault sig = false ∧ isFatalDefault sig = false)))) ↔
      isStopDefault sig = false ∧ isFatalDefault sig = false := by
    simp only [hcont, hign, false_and, false_or, not_false_eq_true, true_and]
    exact or_iff_right hcaught
  rw [hdefault]
  by_cases hstop : isStopDefault sig = true
  · rw [if_pos hstop]
    refine iff_of_false (fun h => hstopped h.state.symm) fun h => ?_
    rw [h.1] at hstop
    cases hstop
  rw [if_neg hstop]
  by_cases hfatal : isFatalDefault sig = true
  · rw [if_pos hfatal]
    refine iff_of_false (fun h => ?_) fun h => ?_
    · have hdead : p.state = .dead := h.state.symm
      rcases hw with hw | hw
      · rw [hw] at hdead
        cases hdead
      · rw [hw] at hdead
        cases hdead
    · rw [h.2] at hfatal
      cases hfatal
  rw [if_neg hfatal]
  exact iff_of_true hkept ⟨by simpa using hstop, by simpa using hfatal⟩

lemma wake_keepsWait_iff (hsig : 1 ≤ sig ∧ sig ≤ 64)
    (hw : p.state = .sleeping ∨ p.state = .awaitingIo) (hno : p.signalInterruptsSleep sig = false) :
    p.KeepsWait sig (p.queueSignal sig).wake ↔ p.state = .sleeping := by
  rw [queueSignal_keepsWait hsig hw hno]
  rcases hw with hw | hw
  · refine iff_of_true ?_ hw
    simp only [hw]
    exact ⟨hw.symm, rfl, rfl, rfl⟩
  · refine iff_of_false (fun h => ?_) (by rw [hw]; decide)
    have hstate := h.state
    simp only [hw] at hstate
    cases hstate

lemma childExited_keepsWait_iff (hw : p.state = .sleeping ∨ p.state = .awaitingIo)
    (hno : p.signalInterruptsSleep sigchld = false) :
    p.KeepsWait sigchld p.childExited ↔ p.state = .sleeping := by
  have hsig : 1 ≤ sigchld ∧ sigchld ≤ 64 := by decide
  have hqueue := queueSignal_keepsWait hsig hw hno
  unfold childExited
  rw [hqueue]
  rcases hw with hw | hw
  · simp only [hw]
    exact iff_of_true ⟨hw.symm, rfl, rfl, rfl⟩ trivial
  · simp only [hw]
    refine iff_of_false (fun h => ?_) (by decide)
    have hstate := h.state.trans hw
    cases hstate

end Process

def Raise.Spares (w : Raise) (p : Process) (sig : Nat) : Prop :=
  match w with
  | .kill => p.SparedByKill sig
  | .queueSignal | .childExit | .childFault => p.state = .sleeping
  | .childKilled | .childGroupExit | .adoption => True

instance (w : Raise) (p : Process) (sig : Nat) : Decidable (w.Spares p sig) := by
  cases w <;> unfold Raise.Spares <;> infer_instance

/-- A blocked process to which the kernel raises a signal that does not interrupt it is found in
the table as it was, with the signal recorded, exactly if the way the signal is raised spares it. -/
theorem keepsWait_iff {w : Raise} {procs procs' : List Process} {pid sig : Nat} {p : Process}
    (h : w.Takes sig pid procs procs') (hp : getProcess procs pid = some p)
    (hw : p.state = .sleeping ∨ p.state = .awaitingIo) (hsig : w.Raises sig)
    (hno : p.signalInterruptsSleep sig = false) :
    (∃ q, getProcess procs' pid = some q ∧ p.KeepsWait sig q) ↔ w.Spares p sig := by
  have hexists : (∃ q, getProcess procs' pid = some q ∧ p.KeepsWait sig q) ↔
      p.KeepsWait sig (w.apply sig p) := by
    rw [h.getProcess hp]
    exact ⟨fun ⟨q, hq, h⟩ => Option.some.inj hq ▸ h, fun h => ⟨_, rfl, h⟩⟩
  rw [hexists]
  clear h hexists
  cases w with
  | kill => exact applySignal_keepsWait_iff hsig hw hno
  | queueSignal => exact wake_keepsWait_iff hsig hw hno
  | childExit | childFault =>
    obtain rfl : sig = sigchld := hsig
    exact childExited_keepsWait_iff hw hno
  | _ =>
    obtain rfl : sig = sigchld := hsig
    refine iff_of_true ?_ trivial
    show p.KeepsWait sigchld (p.queueSignal sigchld)
    rw [queueSignal_keepsWait (by decide) hw hno]
    exact ⟨rfl, rfl, rfl, rfl⟩

def poller : Process := (Process.fresh 2 1 1).setState .awaitingIo

/-- Process 2 polls, and its child 3 runs. -/
def pollerAndChild : Kernel :=
  { Kernel.boot with procs := [poller, (Process.fresh 3 2 3).setState .running], pid := 3 }

/-- The child exits while its parent polls. -/
theorem keepsWait_iff_poller :
    (∃ q, getProcess (pollerAndChild.leaveTable 1 0 0 2).procs 2 = some q ∧
      poller.KeepsWait sigchld q) ↔ Raise.childExit.Spares poller sigchld :=
  keepsWait_iff (.childExit pollerAndChild 1 0 0 2) rfl (.inr rfl) rfl (by decide)

def maskedPoller : Process := { poller with signalMask := signalBit sigint ||| signalBit sigterm }

/-- The exit of a child ends the poll of its parent; a masked SIGINT from the terminal ends a poll,
and a masked SIGTERM by `kill` ends the process. -/
theorem signal_ends_poll :
    (poller.signalInterruptsSleep sigchld = false ∧
      (getProcess (pollerAndChild.leaveTable 1 0 0 2).procs 2).map (·.state) = some .runnable) ∧
    (maskedPoller.signalInterruptsSleep sigint = false ∧
      (getProcess ({ Kernel.boot with procs := [maskedPoller] }.queueSignal 2 sigint).procs 2).map
        (·.state) = some .runnable) ∧
    (maskedPoller.signalInterruptsSleep sigterm = false ∧
      (getProcess ({ Kernel.boot with procs := [maskedPoller] }.kill 2 sigterm true).2.procs 2).map
        (·.state) = some .dead) := by
  decide

end Twilight.Proc

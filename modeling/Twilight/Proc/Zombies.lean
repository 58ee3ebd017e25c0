/-
A dead process stays dead and keeps its wait status until `wait4` takes it out of the table, as
long as no event acts on a dead process as if it were alive.
-/
import Twilight.Proc.Carried

namespace Twilight.Proc

open Timer

/-- What a dead process keeps: it is dead, and its status is the one it died with. -/
structure StaysDead (q p : Process) : Prop extends SameIds q p where
  dead : p.state = .dead → q.state = .dead ∧ q.waitStatus = p.waitStatus

/-- The same for events that leave the signal handlers alone. -/
structure Absorbed (q p : Process) : Prop extends StaysDead q p where
  handler : q.handler = p.handler

namespace StaysDead

variable {q p : Process}

lemma of_same (hids : SameIds q p) (hstate : q.state = p.state)
    (hstatus : q.waitStatus = p.waitStatus) : StaysDead q p :=
  ⟨hids, fun h => ⟨by rw [hstate, h], hstatus⟩⟩

lemma of_alive (hids : SameIds q p) (h : p.state ≠ .dead) : StaysDead q p :=
  ⟨hids, fun hdead => absurd hdead h⟩

lemma refl (p : Process) : StaysDead p p := of_same (.refl p) rfl rfl

lemma trans {r : Process} (h : StaysDead p q) (h' : StaysDead q r) : StaysDead p r where
  toSameIds := h.toSameIds.trans h'.toSameIds
  dead hdead := by
    obtain ⟨hq, hstatus⟩ := h'.dead hdead
    obtain ⟨hp, hstatus'⟩ := h.dead hq
    exact ⟨hp, hstatus'.trans hstatus⟩

end StaysDead

namespace Absorbed

open StaysDead (of_same of_alive)

variable (p : Process)

lemma refl : Absorbed p p := ⟨.refl p, rfl⟩

lemma trans {p q r : Process} (h : Absorbed p q) (h' : Absorbed q r) : Absorbed p r :=
  ⟨h.toStaysDead.trans h'.toStaysDead, h.handler.trans h'.handler⟩

lemma queueSignal (sig : Nat) : Absorbed (p.queueSignal sig) p := by
  unfold Process.queueSignal
  split
  · exact refl p
  dsimp only
  split
  · next h => exact ⟨of_alive ⟨rfl, rfl, rfl, rfl⟩ (by simp [h]), rfl⟩
  · next h => exact ⟨of_alive ⟨rfl, rfl, rfl, rfl⟩ (by simp [h]), rfl⟩
  · next h =>
    split
    · exact ⟨of_same ⟨rfl, rfl, rfl, rfl⟩ rfl rfl, rfl⟩
    · exact ⟨of_alive ⟨rfl, rfl, rfl, rfl⟩ (by simp [h]), rfl⟩
  · next h =>
    split
    · exact ⟨of_same ⟨rfl, rfl, rfl, rfl⟩ rfl rfl, rfl⟩
    · exact ⟨of_alive ⟨rfl, rfl, rfl, rfl⟩ (by simp [h]), rfl⟩
  · exact ⟨of_same ⟨rfl, rfl, rfl, rfl⟩ rfl rfl, rfl⟩

lemma wake : Absorbed p.wake p := by
  unfold Process.wake
  split
  · next h => exact ⟨of_alive ⟨rfl, rfl, rfl, rfl⟩ (by simp [h]), rfl⟩
  · exact refl p
  · exact refl p
  · exact ⟨of_same ⟨rfl, rfl, rfl, rfl⟩ rfl rfl, rfl⟩

lemma childExited : Absorbed p.childExited p := by
  apply trans _ (queueSignal p sigchld)
  unfold Process.childExited
  dsimp only
  split
  · next h => exact ⟨of_alive ⟨rfl, rfl, rfl, rfl⟩ (by simp [h]), rfl⟩
  · next h => exact ⟨of_alive ⟨rfl, rfl, rfl, rfl⟩ (by simp [h]), rfl⟩
  · next h => exact ⟨of_alive ⟨rfl, rfl, rfl, rfl⟩ (by simp [h]), rfl⟩
  · exact refl _

lemma switchOut : Absorbed p.switchOut p := by
  unfold Process.switchOut
  split
  · next h => exact ⟨of_alive ⟨rfl, rfl, rfl, rfl⟩ (by simp [h]), rfl⟩
  · exact refl p

lemma calm : Calm Absorbed where
  refl := refl
  trans _ _ _ h h' := h.trans h'
  pid _ _ h := h.pid
  tgid _ _ h := h.tgid
  queueSignal := queueSignal
  adopt _ := ⟨of_same ⟨rfl, rfl, rfl, rfl⟩ rfl rfl, rfl⟩
  wake := wake
  childExited := childExited
  switchOut := switchOut
  switchIn p h := ⟨of_alive ⟨rfl, rfl, rfl, rfl⟩ (by simp [h]), rfl⟩

end Absorbed

lemma StaysDead.calm : Calm StaysDead where
  refl := refl
  trans _ _ _ h h' := h.trans h'
  pid _ _ h := h.pid
  tgid _ _ h := h.tgid
  queueSignal p sig := (Absorbed.calm.queueSignal p sig).toStaysDead
  adopt p := (Absorbed.calm.adopt p).toStaysDead
  wake p := (Absorbed.calm.wake p).toStaysDead
  childExited p := (Absorbed.calm.childExited p).toStaysDead
  switchOut p := (Absorbed.calm.switchOut p).toStaysDead
  switchIn p h := (Absorbed.calm.switchIn p h).toStaysDead

/-! ## Signals -/

/-- The signal stops or kills this process: it is neither ignored nor caught, and its default
action is to stop or to kill. -/
def Process.StopsOrDies (p : Process) (sig : Nat) : Prop :=
  (isStopDefault sig || isFatalDefault sig) = true ∧ p.handler sig ≤ sigIgn ∧
    (p.handler sig = sigIgn → sig = sigkill ∨ sig = sigstop)

lemma applySignal_handler (p : Process) (sig : Nat) :
    (p.applySignal sig).1.handler = p.handler := by
  have hqueue : ∀ q : Process, (q.queueSignal sig).handler = q.handler := fun q =>
    (Absorbed.queueSignal q sig).handler
  unfold Process.applySignal
  split
  · rfl
  split
  · split
    · exact hqueue _
    · exact hqueue p
  split
  · rfl
  split
  · exact hqueue p
  split
  · rfl
  split
  · rfl
  · exact hqueue p

lemma Absorbed.applySignal_of_dead {p : Process} {sig : Nat} (hdead : p.state = .dead)
    (h : ¬ p.StopsOrDies sig) : Absorbed (p.applySignal sig).1 p := by
  unfold Process.applySignal
  split
  · exact refl p
  split
  · rw [if_neg (by simp [hdead])]
    exact queueSignal p sig
  split
  · exact refl p
  next hign =>
  split
  · exact queueSignal p sig
  next hcaught =>
  have haction : p.handler sig ≤ sigIgn ∧ (p.handler sig = sigIgn → sig = sigkill ∨ sig = sigstop) :=
    ⟨by omega, fun heq => by by_contra hno; exact hign ⟨heq, by simpa using hno⟩⟩
  split
  · next hstop => exact absurd ⟨by simp [hstop], haction⟩ h
  split
  · next hfatal => exact absurd ⟨by simp [hfatal], haction⟩ h
  · exact queueSignal p sig

lemma Absorbed.applySignal {p q : Process} {sig : Nat} (hqp : Absorbed q p)
    (h : p.state = .dead → ¬ p.StopsOrDies sig) : Absorbed (q.applySignal sig).1 p := by
  by_cases hdead : p.state = .dead
  · apply trans (applySignal_of_dead (hqp.dead hdead).1 _) hqp
    rw [Process.StopsOrDies, hqp.handler]
    exact h hdead
  · exact ⟨.of_alive ((SameIds.applySignal q sig).trans hqp.toSameIds) hdead,
      (applySignal_handler q sig).trans hqp.handler⟩

/-! ## Events -/

lemma StaysDead.loose : Loose StaysDead where
  toCalm := calm
  alive _ halive _ _ hqp hids := .of_alive (hids.trans hqp.toSameIds) halive
  same _ _ _ hqp hids hstate hstatus := (of_same hids hstate hstatus).trans hqp
  die q p code hqp :=
    ⟨SameIds.loose.die q p code hqp.toSameIds, fun hdead => ⟨rfl, (hqp.dead hdead).2⟩⟩

namespace Kernel

variable {k : Kernel}

def CurrentAlive (k : Kernel) : Prop := ∀ p, getProcess k.procs k.pid = some p → p.state ≠ .dead

/-- No event acts on a dead process as on a live one: a dead process does not go on to exit, wait
or launch another, `exit_group` is not called after the leader's exit, and no dead process gets a
signal that stops or kills. -/
def SparesDead (k : Kernel) : Event → Prop
  | .launch _ => ∀ p, k.procs[k.launcher]? = some p → p.state ≠ .dead
  | .exit _ _ | .terminate _ _ | .wait4 _ _ _ | .rtSigsuspend _ _ | .block _ _ _ _
  | .resumeSleep _ _ | .awaitIo _ _ _ _ => k.CurrentAlive
  | .exitGroup _ _ => ∀ p l, getProcess k.procs k.pid = some p →
      getProcess k.procs p.tgid = some l → l.state ≠ .dead
  | .kill pid sig _ => ∀ t ∈ k.killTargets pid, ∀ p, getProcess k.procs t.pid = some p →
      p.state = .dead → ¬ p.StopsOrDies sig.toNat
  | _ => True

lemma SparesDead.spares {event : Event} (h : k.SparesDead event) :
    k.Spares StaysDead event := by
  have hfree : k.CurrentAlive → k.FreeCurrent StaysDead := fun hcur p hp =>
    StaysDead.loose.alive p (hcur p hp)
  cases event with
  | launch guard => exact fun p hp => StaysDead.loose.alive p (h p hp)
  | exit guard code => exact hfree h
  | terminate guard sig => exact hfree h
  | wait4 pid options guard => exact hfree h
  | rtSigsuspend mask guard => exact hfree h
  | block guard nowNs deadlineNs granted => exact hfree h
  | resumeSleep deadlineNs nowNs => exact hfree h
  | awaitIo outstanding deadlineNs guard granted => exact hfree h
  | exitGroup guard code => exact fun p l hp hl => StaysDead.loose.alive l (h p l hp hl)
  | kill pid sig guard =>
    -- the handlers decide what a signal does, and `kill` leaves them alone
    have hkill := kill_keeps Absorbed.calm k pid sig guard fun _ t ht p hp q hqp =>
      hqp.applySignal (h t ht p hp)
    exact hkill.imp fun _ _ hqp => hqp.toStaysDead
  | _ => trivial

/-- `birth` tells the processes of the table apart, those to come included. -/
structure Labelled (k : Kernel) : Prop where
  distinct : (k.procs.map (·.birth)).Nodup
  below : ∀ p ∈ k.procs, p.birth < k.births

/-- In a run that spares the dead, a dead process stays dead with its wait status for as long as
it is in the table, and it stays in the table until its parent's `wait4` reports it, or the leader
of its group if it is a thread.  This holds for every process, whichever others `wait4` takes out
meanwhile. -/
theorem dead_absorbing (hk : k.Labelled) {events : List Event}
    (h : Machine.Meets step SparesDead k events) {p : Process} (hp : p ∈ k.procs)
    (hdead : p.state = .dead) :
    (∀ q ∈ (k.run events).procs, q.birth = p.birth →
      SameIds q p ∧ q.state = .dead ∧ q.waitStatus = p.waitStatus) ∧
    ((∃ q ∈ (k.run events).procs, q.birth = p.birth) ∨
      ∃ before event after, events = before ++ event :: after ∧
        (k.run before).Reports (fun r p => SameIds r p ∧ r.waitStatus = p.waitStatus) p event) := by
  have hspares : Machine.Meets step (Spares StaysDead) k events :=
    h.of_inv (fun _ => True) (fun s e _ hok => ⟨hok.spares, trivial⟩) trivial
  have hids : ∀ q p, StaysDead q p → SameIds q p := fun _ _ hqp => hqp.toSameIds
  constructor
  · intro q hq hbirth
    obtain ⟨p', hp', hqp⟩ :=
      run_kept StaysDead.loose hids hspares hq (hbirth ▸ hk.below p hp)
    obtain rfl : p' = p :=
      List.inj_on_of_nodup_map hk.distinct hp' hp (hqp.birth.symm.trans hbirth)
    exact ⟨hqp.toSameIds, hqp.dead hdead⟩
  · obtain ⟨q, hq, hqp⟩ | ⟨before, event, after, hsplit, hreports⟩ :=
      run_gone StaysDead.loose hids hspares hp
    · exact .inl ⟨q, hq, hqp.birth⟩
    · refine .inr ⟨before, event, after, hsplit, hreports.mono fun r hrp => ?_⟩
      exact ⟨hrp.toSameIds, (hrp.dead hdead).2⟩

/-- Process 1 has forked process 2, which has exited with code 7 and is not reaped yet. -/
def zombieTable : Kernel := boot.run [.launch true, .fork true, .schedule true, .exit true 7]

/-- Process 1 forks once more, and process 3 exits with code 5. -/
def twoZombies : Kernel := zombieTable.run [.fork true, .schedule true, .exit true 5]

/-- Process 2 gets a continue signal while process 3 is reaped. -/
def reapOther : List Event := [.kill 2 18 true, .wait4 3 0 true, .wakeProcess 2]

/-- Process 2 is still there with its status, though its number was signalled and woken. -/
theorem dead_absorbing_reapOther :
    ∃ p ∈ twoZombies.procs, (p.pid, p.state, p.waitStatus) = (2, .dead, 7 * 256) ∧
      (twoZombies.run reapOther).procs.map (·.pid) = [0, 1, 2] ∧
      (∀ q ∈ (twoZombies.run reapOther).procs, q.birth = p.birth →
        SameIds q p ∧ q.state = .dead ∧ q.waitStatus = p.waitStatus) ∧
      ((∃ q ∈ (twoZombies.run reapOther).procs, q.birth = p.birth) ∨
        ∃ before event after, reapOther = before ++ event :: after ∧
          (twoZombies.run before).Reports
            (fun r p => SameIds r p ∧ r.waitStatus = p.waitStatus) p event) := by
  have hmeets : Machine.Meets step SparesDead twoZombies reapOther := by
    refine ⟨?_, ?_, trivial, trivial⟩
    · intro t _ p _ _ hstops
      exact absurd hstops.1 (by decide)
    · intro p hp hdead
      have hstate : ((getProcess (twoZombies.step (.kill 2 18 true)).procs 1).map (·.state)) =
          some .running := by decide +kernel
      rw [show 1 = (twoZombies.step (.kill 2 18 true)).pid by decide +kernel, hp] at hstate
      simp [hdead] at hstate
  refine ⟨twoZombies.procs.get ⟨2, by decide +kernel⟩, List.get_mem _ _, by decide +kernel,
    by decide +kernel, ?_⟩
  exact dead_absorbing ⟨by decide +kernel, by decide +kernel⟩ hmeets (List.get_mem _ _)
    (by decide +kernel)

/-- A stop signal makes the zombie a stopped process with another status, and a continue signal
then lets it run again. -/
theorem zombie_runs_again :
    (getProcess zombieTable.procs 2).map (fun p => (p.state, p.waitStatus)) =
        some (.dead, 7 * 256) ∧
      (getProcess (zombieTable.run [.kill 2 19 true]).procs 2).map
          (fun p => (p.state, p.waitStatus)) = some (.stopped, 19 * 256 + 127) ∧
      (getProcess (zombieTable.run [.kill 2 19 true, .kill 2 18 true, .schedule true]).procs 2).map
          (fun p => (p.state, p.waitStatus)) = some (.running, 0xffff) := by
  decide +kernel

end Kernel

end Twilight.Proc

/-
One event, process by process. Every event leaves the processes of the table where they are, up
to a relation that says what may change, and adds those it creates at the end; only `wait4` takes
processes out.
-/
import Twilight.Lib.Machine
import Twilight.Proc.Table

namespace Twilight.Proc

open Timer List

variable {R : Process → Process → Prop}

/-- Whatever happens to this process, its ids apart, `R` allows. -/
def Free (R : Process → Process → Prop) (p : Process) : Prop :=
  ∀ q q' : Process, R q p → SameIds q' q → R q' p

/-- A relation that leaves a live process free and asks of a dead one only its state and its
status. -/
structure Loose (R : Process → Process → Prop) : Prop extends Calm R where
  alive : ∀ p, p.state ≠ .dead → Free R p
  same : ∀ q q' p : Process, R q p → SameIds q' q → q'.state = q.state →
    q'.waitStatus = q.waitStatus → R q' p
  die : ∀ q p code, R q p → R (q.die code) p

namespace SameIds

variable (p : Process)

lemma queueSignal (sig : Nat) : SameIds (p.queueSignal sig) p := by
  unfold Process.queueSignal
  split
  · exact ⟨rfl, rfl, rfl, rfl⟩
  dsimp only
  split
  · exact ⟨rfl, rfl, rfl, rfl⟩
  · exact ⟨rfl, rfl, rfl, rfl⟩
  · split <;> exact ⟨rfl, rfl, rfl, rfl⟩
  · split <;> exact ⟨rfl, rfl, rfl, rfl⟩
  · exact ⟨rfl, rfl, rfl, rfl⟩

lemma applySignal (sig : Nat) : SameIds (p.applySignal sig).1 p := by
  unfold Process.applySignal
  split
  · exact ⟨rfl, rfl, rfl, rfl⟩
  split
  · dsimp only
    split
    · exact trans (queueSignal _ sig) ⟨rfl, rfl, rfl, rfl⟩
    · exact queueSignal p sig
  split
  · exact ⟨rfl, rfl, rfl, rfl⟩
  split
  · exact queueSignal p sig
  split
  · exact ⟨rfl, rfl, rfl, rfl⟩
  split
  · exact ⟨rfl, rfl, rfl, rfl⟩
  · exact queueSignal p sig

lemma loose : Loose SameIds where
  refl := refl
  trans _ _ _ h h' := h.trans h'
  pid _ _ h := h.pid
  tgid _ _ h := h.tgid
  queueSignal := queueSignal
  adopt _ := ⟨rfl, rfl, rfl, rfl⟩
  wake p := by
    unfold Process.wake
    split <;> exact ⟨rfl, rfl, rfl, rfl⟩
  childExited p := by
    apply trans _ (queueSignal p sigchld)
    unfold Process.childExited
    dsimp only
    split <;> exact ⟨rfl, rfl, rfl, rfl⟩
  switchOut p := by
    unfold Process.switchOut
    split <;> exact ⟨rfl, rfl, rfl, rfl⟩
  switchIn _ _ := ⟨rfl, rfl, rfl, rfl⟩
  alive _ _ _ _ hqp hids := hids.trans hqp
  same _ _ _ hqp hids _ _ := hids.trans hqp
  die q _ _ hqp := trans (q := q) ⟨rfl, rfl, rfl, rfl⟩ hqp

lemma free : Free SameIds p := fun _ _ hqp hids => hids.trans hqp

end SameIds

/-! ## Tables that shrink and grow -/

/-- The new table has the processes of the old one, changed by `R`, and after them new ones with
these pids, born now; without reaping no process of the old table is gone. -/
def Carried (R : Process → Process → Prop) (reaping : Prop) (born : List Nat) (k k' : Kernel) :
    Prop :=
  ∃ kept newborn, k'.procs = kept ++ newborn ∧ newborn.map (·.pid) = born ∧
    (∀ p ∈ newborn, p.birth = k.births) ∧ k'.births = k.births + born.length ∧
    List.SublistForall₂ R kept k.procs ∧ (¬ reaping → List.Forall₂ R kept k.procs)

lemma sublistForall₂_of_forall₂ {l l' : List Process} (h : List.Forall₂ R l l') :
    List.SublistForall₂ R l l' :=
  sublistForall₂_iff.mpr ⟨l', h, List.Sublist.refl l'⟩

namespace Carried

variable {reaping : Prop} {k k' : Kernel}

lemma of_same (h : List.Forall₂ R k'.procs k.procs) (hbirths : k'.births = k.births) :
    Carried R reaping [] k k' :=
  ⟨k'.procs, [], (append_nil _).symm, rfl, by simp, hbirths, sublistForall₂_of_forall₂ h,
    fun _ => h⟩

lemma of_newborn {kept : List Process} {p : Process} (h : List.Forall₂ R kept k.procs)
    (hprocs : k'.procs = kept ++ [p]) (hbirth : p.birth = k.births)
    (hbirths : k'.births = k.births + 1) : Carried R reaping [p.pid] k k' :=
  ⟨kept, [p], hprocs, rfl, by simpa using hbirth, hbirths, sublistForall₂_of_forall₂ h, fun _ => h⟩

end Carried

/-! ## Events -/

namespace Kernel

variable {k : Kernel}

def FreeCurrent (R : Process → Process → Prop) (k : Kernel) : Prop :=
  ∀ p, getProcess k.procs k.pid = some p → Free R p

/-- The position `ProcessTable::run` takes for the caller's. -/
def launcher (k : Kernel) : Nat := (findProcessIndex k.procs k.pid).getD (k.procs.length - 1)

/-- What an event must find for `R` to hold across it. -/
def Spares (R : Process → Process → Prop) (k : Kernel) : Event → Prop
  | .launch _ => ∀ p, k.procs[k.launcher]? = some p → Free R p
  | .exit _ _ | .terminate _ _ | .wait4 _ _ _ | .rtSigsuspend _ _ | .block _ _ _ _
  | .resumeSleep _ _ | .awaitIo _ _ _ _ => k.FreeCurrent R
  | .exitGroup _ _ => ∀ p l, getProcess k.procs k.pid = some p →
      getProcess k.procs p.tgid = some l → Free R l
  | .kill pid sig guard => Keeps R k (k.kill pid sig guard).2
  | _ => True

/-- Only `wait4` takes processes out of the table. -/
def Reaps : Event → Prop
  | .wait4 _ _ _ => True
  | _ => False

/-- The flags and the stack that `clone` accepts. -/
def cloneAccepted (flags childStack : BitVec 64) : Bool :=
  childStack ≠ 0 && flags &&& cloneRequired = cloneRequired && flags &&& ~~~cloneSupported = 0

def created (k : Kernel) : Event → List Nat
  | .launch _ => [k.nextPid]
  | .fork ok => if ok && (getProcess k.procs k.pid).isSome then [k.nextPid] else []
  | .cloneThread flags childStack ok =>
    if ok && cloneAccepted flags childStack && (getProcess k.procs k.pid).isSome then [k.nextPid]
    else []
  | _ => []

variable {k' : Kernel} {f : Process → Process}

lemma Keeps.carried {reaping : Prop} (h : Keeps R k k') : Carried R reaping [] k k' :=
  .of_same h.procs h.births

lemma update_same (hR : Loose R) (k : Kernel) (pid : Nat)
    (hf : ∀ q, SameIds (f q) q ∧ (f q).state = q.state ∧ (f q).waitStatus = q.waitStatus) :
    Keeps R k (k.update pid f) := by
  apply update_keeps hR.toStill
  intro p _ q hqp
  obtain ⟨hids, hstate, hstatus⟩ := hf q
  exact hR.same q _ p hqp hids hstate hstatus

lemma Keeps.update_current (hR : Still R) (hk : Keeps R k k') (h : k.FreeCurrent R)
    (hf : ∀ q, SameIds (f q) q) : Keeps R k (k'.update k.pid f) := by
  refine ⟨updateProcess_rel hR hk.procs ?_, hk.timers, hk.nextPid, hk.births⟩
  intro q p hp hqp
  exact h p hp q _ hqp (hf q)

lemma update_current (hR : Still R) (h : k.FreeCurrent R)
    (hf : ∀ q, SameIds (f q) q) : Keeps R k (k.update k.pid f) :=
  (Keeps.refl hR k).update_current hR h hf

lemma fork_carried (hR : Loose R) (k : Kernel) (ok : Bool) :
    Carried R False (k.created (.fork ok)) k (k.fork ok).2 := by
  have hsame := forall₂_refl hR.refl k.procs
  rw [created, fork]
  cases getProcess k.procs k.pid with
  | none => simpa using (Keeps.refl hR.toStill k).carried
  | some p =>
    cases ok with
    | false => exact .of_same hsame rfl
    | true => exact .of_newborn (p := p.forkChild k.nextPid k.births) hsame rfl rfl rfl

lemma cloneAccepted_eq_true {flags childStack : BitVec 64} :
    cloneAccepted flags childStack = true ↔ ¬ (childStack = 0 ∨
      flags &&& cloneRequired ≠ cloneRequired ∨ flags &&& ~~~cloneSupported ≠ 0) := by
  simp [cloneAccepted, and_assoc]

lemma cloneAccepted_eq_false {flags childStack : BitVec 64} :
    cloneAccepted flags childStack = false ↔ childStack = 0 ∨
      flags &&& cloneRequired ≠ cloneRequired ∨ flags &&& ~~~cloneSupported ≠ 0 := by
  rw [← Bool.not_eq_true, cloneAccepted_eq_true, not_not]

lemma cloneThread_carried (hR : Loose R) (k : Kernel) (flags childStack : BitVec 64)
    (ok : Bool) : Carried R False (k.created (.cloneThread flags childStack ok)) k
      (k.cloneThread flags childStack ok).2 := by
  have hsame := forall₂_refl hR.refl k.procs
  rw [created, cloneThread]
  by_cases hbad : childStack = 0 ∨ flags &&& cloneRequired ≠ cloneRequired ∨
      flags &&& ~~~cloneSupported ≠ 0
  · rw [if_pos hbad, cloneAccepted_eq_false.mpr hbad, Bool.and_false]
    exact .of_same hsame rfl
  rw [if_neg hbad, cloneAccepted_eq_true.mpr hbad]
  cases getProcess k.procs k.pid with
  | none => simpa using (Keeps.refl hR.toStill k).carried
  | some p =>
    cases ok with
    | false => exact .of_same hsame rfl
    | true => exact .of_newborn (p := p.threadChild k.nextPid k.births) hsame rfl rfl rfl

lemma findProcessIndex_lt {procs : List Process} {pid i : Nat}
    (h : findProcessIndex procs pid = some i) : i < procs.length :=
  (List.findIdx?_eq_some_iff_getElem.mp h).1

lemma launcher_append (k : Kernel) (p : Process) :
    (findProcessIndex (k.procs ++ [p]) k.pid).getD ((k.procs ++ [p]).length - 2) = k.procs.length ∨
      (findProcessIndex (k.procs ++ [p]) k.pid).getD ((k.procs ++ [p]).length - 2) =
        k.launcher ∧ k.launcher < k.procs.length := by
  have hfind : findProcessIndex (k.procs ++ [p]) k.pid = (findProcessIndex k.procs k.pid).or
      ((findProcessIndex [p] k.pid).map (· + k.procs.length)) := List.findIdx?_append
  rw [hfind, launcher, length_append, length_singleton]
  cases hold : findProcessIndex k.procs k.pid with
  | some i => exact Or.inr ⟨rfl, findProcessIndex_lt hold⟩
  | none =>
    by_cases hpid : p.pid = k.pid
    · left
      simp [findProcessIndex, hpid]
    · simp only [findProcessIndex, hpid, List.findIdx?_cons, decide_false, Bool.false_eq_true,
        if_false, List.findIdx?_nil, Option.map_none, Option.or_none, Option.getD_none]
      omega

section

variable (hR : Loose R)
include hR

lemma launch_carried (guard : Bool) (h : ∀ p, k.procs[k.launcher]? = some p → Free R p) :
    Carried R False [k.nextPid] k (k.launch guard) := by
  have hset : ∀ s, List.Forall₂ R (k.procs.modify k.launcher (·.setState s)) k.procs := by
    intro s
    apply forall₂_modify_left (forall₂_refl hR.refl _)
    intro q p _ hp hqp
    exact h p hp q _ hqp ⟨rfl, rfl, rfl, rfl⟩
  have hprev := launcher_append k (Process.fresh k.nextPid 0 k.births)
  unfold launch
  simp only [takePid, pushBack]
  have hnext : (k.procs ++ [Process.fresh k.nextPid 0 k.births]).length - 1 = k.procs.length := by
    simp
  obtain hprev | ⟨hprev, hlt⟩ := hprev
  · simp only [hprev, hnext]
    exact .of_newborn (p := Process.fresh k.nextPid 0 k.births) (forall₂_refl hR.refl _) rfl rfl rfl
  simp only [hprev, hnext, if_neg (Nat.ne_of_lt hlt)]
  split
  · have hlast := modify_append_last (f := (·.setState .running))
      (k.procs.modify k.launcher (·.setState (if k.pid = 0 then .runnable else .waiting)))
      (Process.fresh k.nextPid 0 k.births)
    rw [length_modify] at hlast
    simp only [modify_append_left _ hlt, hlast]
    exact .of_newborn (p := (Process.fresh k.nextPid 0 k.births).setState .running) (hset _) rfl rfl
      rfl
  · simp only [modify_append_left _ hlt]
    exact .of_newborn (p := Process.fresh k.nextPid 0 k.births) (hset _) rfl rfl rfl

lemma wait4_carried (h : k.FreeCurrent R) (pid : Int) (options : BitVec 32)
    (guard : Bool) : Carried R True [] k (k.wait4 pid options guard).2 := by
  have hsame := forall₂_refl hR.refl k.procs
  unfold wait4
  split
  · exact .of_same hsame rfl
  dsimp only
  split
  · split
    · have : Std.Refl R := ⟨hR.refl⟩
      refine ⟨_, [], (append_nil _).symm, rfl, by simp, rfl, ?_, fun hno => absurd trivial hno⟩
      apply List.Sublist.sublistForall₂
      exact filter_sublist.trans (eraseIdx_sublist _ _)
    · refine Carried.of_same (forall₂_modify_left hsame ?_) rfl
      intro q p _ _ hqp
      exact hR.same q _ p hqp ⟨rfl, rfl, rfl, rfl⟩ rfl rfl
  split
  · exact .of_same hsame rfl
  split
  · exact .of_same hsame rfl
  · refine (Keeps.trans hR.toStill (update_current hR.toStill h ?_)
      (scheduleNow_keeps hR.toCalm _ _)).carried
    exact fun _ => ⟨rfl, rfl, rfl, rfl⟩

lemma cancelAny_keeps (k : Kernel) (token : Option WaitToken) :
    Keeps R k (k.cancelAny token) := by
  unfold cancelAny
  split
  · exact .refl hR.toStill k
  · apply update_same hR
    intro q
    unfold Process.cancel
    split <;> exact ⟨⟨rfl, rfl, rfl, rfl⟩, rfl, rfl⟩

lemma takeWakeReason_keeps (k : Kernel) : Keeps R k k.takeWakeReason.2 := by
  unfold takeWakeReason
  split
  · exact .refl hR.toStill k
  · refine update_same hR k _ ?_
    exact fun _ => ⟨⟨rfl, rfl, rfl, rfl⟩, rfl, rfl⟩

lemma Keeps.cancel_take (h : Keeps R k k')
    (token : Option WaitToken) : Keeps R k (k'.cancelAny token).takeWakeReason.2 :=
  .trans hR.toStill (.trans hR.toStill h (cancelAny_keeps hR _ _)) (takeWakeReason_keeps hR _)

lemma block_carried (h : k.FreeCurrent R) (guard : Bool)
    (nowNs deadlineNs : Nat) (granted : Option Nat) : Carried R False [] k
      (k.blockCurrentUntil guard nowNs deadlineNs granted).2 := by
  have hsame := forall₂_refl hR.refl k.procs
  unfold blockCurrentUntil
  split
  · exact .of_same hsame rfl
  split
  · exact .of_same hsame rfl
  split
  · exact .of_same hsame rfl
  dsimp only
  split
  · exact .of_same (by rwa [armCurrentLocked_procs]) (armCurrentLocked_births ..)
  split
  · exact .of_same (by rwa [armCurrentLocked_procs]) (armCurrentLocked_births ..)
  · refine .of_same ?_ (armCurrentLocked_births ..)
    rw [update, armCurrentLocked_procs]
    refine (update_current hR.toStill h ?_).procs
    exact fun _ => ⟨rfl, rfl, rfl, rfl⟩

lemma armIoTimeoutLocked_rel (k : Kernel) (deadlineNs granted : Option Nat) :
    List.Forall₂ R (k.armIoTimeoutLocked deadlineNs granted).2.procs k.procs ∧
      (k.armIoTimeoutLocked deadlineNs granted).2.births = k.births := by
  have hsame := forall₂_refl hR.refl k.procs
  unfold armIoTimeoutLocked
  split
  · exact ⟨hsame, rfl⟩
  dsimp only
  split
  · exact ⟨by rwa [armCurrentLocked_procs], armCurrentLocked_births ..⟩
  · refine ⟨?_, armCurrentLocked_births ..⟩
    rw [update, armCurrentLocked_procs]
    refine (update_same hR k _ ?_).procs
    exact fun _ => ⟨⟨rfl, rfl, rfl, rfl⟩, rfl, rfl⟩

lemma awaitIo_carried (h : k.FreeCurrent R) (outstanding : Option WaitToken)
    (deadlineNs : Option Nat) (guard : Bool) (granted : Option Nat) : Carried R False [] k
      (k.awaitIoEnter outstanding deadlineNs guard granted).2 := by
  have hcancel := cancelAny_keeps hR k outstanding
  have hpid : (k.cancelAny outstanding).pid = k.pid := by
    cases outstanding <;> rfl
  unfold awaitIoEnter
  dsimp only
  generalize k.cancelAny outstanding = k' at hcancel hpid
  rw [hpid]
  split
  · exact hcancel.carried
  split
  · split
    · refine (Keeps.trans hR.toStill (hcancel.update_current hR.toStill h ?_)
        (takeWakeReason_keeps hR _)).carried
      intro q
      split <;> exact ⟨rfl, rfl, rfl, rfl⟩
    split
    · refine (Keeps.trans hR.toStill (hcancel.update_current hR.toStill h ?_)
        (takeWakeReason_keeps hR _)).carried
      exact fun _ => ⟨rfl, rfl, rfl, rfl⟩
    have hwait : Keeps R k (k'.update k.pid (·.setState .awaitingIo)) :=
      hcancel.update_current hR.toStill h fun _ => ⟨rfl, rfl, rfl, rfl⟩
    obtain ⟨harmed, hbirths⟩ :=
      armIoTimeoutLocked_rel hR (k'.update k.pid (·.setState .awaitingIo)) deadlineNs granted
    have hboth := forall₂_trans hR.trans harmed hwait.procs
    split
    · have hswitch := switchByIndexGuarded_keeps hR.toCalm
      exact .of_same (forall₂_trans hR.trans (hswitch _ _ _).procs hboth)
        ((hswitch _ _ _).births.trans (hbirths.trans hwait.births))
    · exact .of_same hboth (hbirths.trans hwait.births)
  · exact hcancel.carried

lemma awaitIoResume_keeps (k : Kernel) (token : Option WaitToken) :
    Keeps R k (k.awaitIoResume token).2 := by
  unfold awaitIoResume
  split
  · exact .refl hR.toStill k
  split
  · refine Keeps.cancel_take hR (update_same hR k _ ?_) token
    exact fun _ => ⟨⟨rfl, rfl, rfl, rfl⟩, rfl, rfl⟩
  split
  · exact (Keeps.refl hR.toStill k).cancel_take hR token
  · exact .refl hR.toStill k

lemma awaitIoIdle_keeps (k : Kernel) (token : Option WaitToken) :
    Keeps R k (k.awaitIoIdle token).2 := by
  unfold awaitIoIdle
  split
  · exact .refl hR.toStill k
  next p hp =>
  split
  · refine Keeps.cancel_take hR (update_keeps hR.toStill ?_) token
    intro _ _ q hqp
    split
    · next hrun =>
      exact hR.trans _ _ _ (hR.alive q (by simp [hrun]) q _ (hR.refl q) ⟨rfl, rfl, rfl, rfl⟩) hqp
    · exact hR.same q _ _ hqp ⟨rfl, rfl, rfl, rfl⟩ rfl rfl
  split
  · next hrun =>
    refine Keeps.cancel_take hR (update_keeps hR.toStill ?_) token
    intro p' hp' q hqp
    rw [hp, Option.some.injEq] at hp'
    subst hp'
    exact hR.alive p (by simp [hrun]) q _ hqp ⟨rfl, rfl, rfl, rfl⟩
  · exact .refl hR.toStill k

lemma wakeNext_carried (k : Kernel) :
    Carried R False [] k k.wakeNext := by
  have hsame := forall₂_refl hR.refl k.procs
  unfold wakeNext
  split
  · exact .of_same hsame rfl
  unfold wakeFromTimer
  split
  · next i p hi hp =>
    split
    · exact .of_same hsame rfl
    next q hwake =>
    refine .of_same ?_ rfl
    rw [set_eq_modify]
    apply forall₂_modify_left hsame
    intro _ p' _ hp' _
    rw [findProcessIndex_getElem? hi, hp, Option.some.injEq] at hp'
    subst hp'
    obtain ⟨-, -, hids, hstate⟩ := Process.wakeFromTimer_some hwake
    refine hR.alive p ?_ p q (hR.refl p) hids
    obtain ⟨hstate, -⟩ | ⟨hstate, -⟩ := hstate
    · simp [hstate]
    · simp [hstate]
  · exact .of_same hsame rfl

lemma readAndClearWakeReason_keeps (h : k.FreeCurrent R)
    (deadlineNs nowNs : Nat) : Keeps R k (k.readAndClearWakeReason deadlineNs nowNs).2 := by
  unfold readAndClearWakeReason
  split
  · exact .refl hR.toStill k
  · refine update_current hR.toStill h ?_
    exact fun _ => ⟨rfl, rfl, rfl, rfl⟩

lemma rtSigsuspend_keeps (h : k.FreeCurrent R) (mask : BitVec 64)
    (guard : Bool) : Keeps R k (k.rtSigsuspend mask guard) := by
  unfold rtSigsuspend
  dsimp only
  split
  · refine .trans hR.toStill
      ((update_current hR.toStill h ?_).update_current hR.toStill h ?_)
      (scheduleNow_keeps hR.toCalm _ _)
    · exact fun _ => ⟨rfl, rfl, rfl, rfl⟩
    · exact fun _ => ⟨rfl, rfl, rfl, rfl⟩
  · refine update_current hR.toStill h ?_
    exact fun _ => ⟨rfl, rfl, rfl, rfl⟩

lemma step_carried {event : Event} (h : k.Spares R event) :
    Carried R (Reaps event) (k.created event) k (k.step event) := by
  have hsame := forall₂_refl hR.refl k.procs
  cases event with
  | launch guard => exact launch_carried hR guard h
  | fork ok => exact fork_carried hR k ok
  | cloneThread flags childStack ok => exact cloneThread_carried hR k flags childStack ok
  | exit guard code =>
    refine (exit_keeps hR.toCalm k guard code ?_ ?_).carried
    · exact fun p hp q hqp => h p hp q _ hqp ⟨rfl, rfl, rfl, rfl⟩
    · exact fun p hp _ q hqp => h p hp q _ hqp ⟨rfl, rfl, rfl, rfl⟩
  | exitGroup guard code =>
    refine (exitGroup_keeps hR.toCalm k guard code ?_ ?_).carried
    · exact fun _ _ q _ _ r hrq => hR.die r q code hrq
    · exact fun p l hp hl q hql => h p l hp hl q _ hql ⟨rfl, rfl, rfl, rfl⟩
  | terminate guard sig =>
    refine (terminate_keeps hR.toCalm k guard sig ?_).carried
    exact fun p hp q hqp => h p hp q _ hqp ⟨rfl, rfl, rfl, rfl⟩
  | kill pid sig guard => exact Keeps.carried h
  | wait4 pid options guard => exact wait4_carried hR h pid options guard
  | queueSignal pid sig => exact (queueSignal_keeps hR.toStill k pid sig).carried
  | wakeProcess pid => exact (wakeProcess_keeps hR.toStill k pid).carried
  | rtSigsuspend mask guard => exact (rtSigsuspend_keeps hR h mask guard).carried
  | setSignals handler mask pending =>
    refine (update_same hR k k.pid ?_).carried
    exact fun _ => ⟨⟨rfl, rfl, rfl, rfl⟩, rfl, rfl⟩
  | setFds fds =>
    refine (update_same hR k k.pid ?_).carried
    exact fun _ => ⟨⟨rfl, rfl, rfl, rfl⟩, rfl, rfl⟩
  | setpgid pid pgid =>
    refine (update_same hR k pid ?_).carried
    exact fun _ => ⟨⟨rfl, rfl, rfl, rfl⟩, rfl, rfl⟩
  | schedule guard => exact (scheduleNow_keeps hR.toCalm k guard).carried
  | block guard nowNs deadlineNs granted =>
    exact block_carried hR h guard nowNs deadlineNs granted
  | resumeSleep deadlineNs nowNs =>
    exact (readAndClearWakeReason_keeps hR h deadlineNs nowNs).carried
  | awaitIo outstanding deadlineNs guard granted =>
    exact awaitIo_carried hR h outstanding deadlineNs guard granted
  | awaitIoResume token => exact (awaitIoResume_keeps hR k token).carried
  | awaitIoIdle token => exact (awaitIoIdle_keeps hR k token).carried
  | cancelOwned token => exact (cancelAny_keeps hR k (some token)).carried
  | expireDue nowNs => exact .of_same hsame rfl
  | deferredExpiry nowNs =>
    rw [step]
    split
    · exact .of_same hsame rfl
    · exact .of_same hsame rfl
  | wakeNext => exact wakeNext_carried hR k
  | nextDeadline => exact .of_same hsame rfl

end

/-! ## Runs -/

/-- A `wait4` that reports a dead child of its caller, which is this process or, if the process
is a thread, the leader of its group. -/
def Reports (R : Process → Process → Prop) (k : Kernel) (p : Process) : Event → Prop
  | .wait4 pid options guard => ∃ r ∈ k.procs, r.state = .dead ∧ r.parentPid = k.pid ∧
      (k.wait4 pid options guard).1 = .reported r.pid r.waitStatus ∧
      (R r p ∨ p.isThread = true ∧ p.tgid = r.tgid)
  | _ => False

variable {p q : Process} {events : List Event}

lemma Reports.mono {S : Process → Process → Prop} {event : Event} (h : k.Reports R p event)
    (hRS : ∀ r, R r p → S r p) : k.Reports S p event := by
  cases event with
  | wait4 pid options guard =>
    obtain ⟨r, hr, hdead, hparent, hresult, hwhich⟩ := h
    exact ⟨r, hr, hdead, hparent, hresult, hwhich.imp_left (hRS r)⟩
  | _ => exact h

lemma exists_of_forall₂_left {l l' : List Process} (h : List.Forall₂ R l' l) (hp : p ∈ l) :
    ∃ q ∈ l', R q p :=
  exists_of_mem_forall₂ (R := flip R) h.flip hp

lemma wait4_gone (hR : Loose R) (h : k.FreeCurrent R) (hp : p ∈ k.procs) (pid : Int)
    (options : BitVec 32) (guard : Bool) :
    (∃ q ∈ (k.wait4 pid options guard).2.procs, R q p) ∨
      k.Reports R p (.wait4 pid options guard) := by
  have hsame := forall₂_refl hR.refl k.procs
  rw [Reports]
  unfold wait4
  split
  · exact .inl ⟨p, hp, hR.refl p⟩
  dsimp only
  split
  · next heq =>
    obtain ⟨i, hi, hfound⟩ := Option.bind_eq_some_iff.mp heq
    obtain ⟨r, hr, hpair⟩ := Option.map_eq_some_iff.mp hfound
    obtain ⟨rfl, rfl⟩ := Prod.mk.inj hpair
    split
    · next hdead =>
      obtain ⟨hlt, hsel, -⟩ := findIdx?_eq_some_iff_getElem.mp hi
      obtain rfl := Option.some.inj ((getElem?_eq_getElem hlt).symm.trans hr)
      simp only [waitSelects, Bool.and_eq_true, decide_eq_true_eq] at hsel
      by_cases hgone : R k.procs[i] p ∨ p.isThread = true ∧ p.tgid = k.procs[i].tgid
      · exact .inr ⟨_, getElem_mem hlt, hdead, hsel.1.1.2, rfl, hgone⟩
      -- the reported child and the threads of its group are all that goes
      obtain ⟨n, hn⟩ := mem_iff_getElem?.mp hp
      have hne : n ≠ i := by
        rintro rfl
        obtain rfl := Option.some.inj (hn.symm.trans hr)
        exact hgone (.inl (hR.refl _))
      have hstays := mem_eraseIdx_iff_getElem?.mpr ⟨n, hne, hn⟩
      refine .inl ⟨p, mem_filter.mpr ⟨hstays, ?_⟩, hR.refl p⟩
      simp only [not_or, not_and] at hgone
      simpa [Classical.or_iff_not_imp_left] using hgone.2
    · refine .inl (exists_of_forall₂_left (forall₂_modify_left hsame ?_) hp)
      intro x y _ _ hxy
      exact hR.same x _ y hxy ⟨rfl, rfl, rfl, rfl⟩ rfl rfl
  split
  · exact .inl ⟨p, hp, hR.refl p⟩
  split
  · exact .inl ⟨p, hp, hR.refl p⟩
  · refine .inl (exists_of_forall₂_left (Keeps.trans hR.toStill (update_current hR.toStill h ?_)
      (scheduleNow_keeps hR.toCalm _ _)).procs hp)
    exact fun _ => ⟨rfl, rfl, rfl, rfl⟩

lemma step_gone (hR : Loose R) {event : Event} (h : k.Spares R event) (hp : p ∈ k.procs) :
    (∃ q ∈ (k.step event).procs, R q p) ∨ k.Reports R p event := by
  by_cases hreaps : Reaps event
  · cases event with
    | wait4 pid options guard => exact wait4_gone hR h hp pid options guard
    | _ => exact hreaps.elim
  · obtain ⟨kept, newborn, hnew, -, -, -, -, hall⟩ := step_carried hR h
    obtain ⟨q, hq, hqp⟩ := exists_of_forall₂_left (hall hreaps) hp
    exact .inl ⟨q, hnew ▸ mem_append_left _ hq, hqp⟩

/-- Whoever was born before this step was in the table before it. -/
lemma step_kept (hR : Loose R) {event : Event} (h : k.Spares R event)
    (hq : q ∈ (k.step event).procs) (hborn : q.birth < k.births) : ∃ p ∈ k.procs, R q p := by
  obtain ⟨kept, newborn, hnew, -, hbirth, -, hsub, -⟩ := step_carried hR h
  obtain hkept | hnewborn := mem_append.mp (hnew ▸ hq)
  · obtain ⟨l, hl, hlsub⟩ := sublistForall₂_iff.mp hsub
    obtain ⟨p, hp, hqp⟩ := exists_of_mem_forall₂ hl hkept
    exact ⟨p, hlsub.subset hp, hqp⟩
  · exact absurd (hbirth q hnewborn) (Nat.ne_of_lt hborn)

section

variable (hR : Loose R) (hids : ∀ q p, R q p → SameIds q p)
include hR hids

/-- No process is lost: it is in the table at the end of the run, or a `wait4` reported it. -/
lemma run_gone (h : Machine.Meets step (Spares R) k events) (hp : p ∈ k.procs) :
    (∃ q ∈ (k.run events).procs, R q p) ∨
      ∃ before event after, events = before ++ event :: after ∧
        (k.run before).Reports R p event := by
  induction events generalizing k p with
  | nil => exact .inl ⟨p, hp, hR.refl p⟩
  | cons event events ih =>
    obtain ⟨q, hq, hqp⟩ | hreports := step_gone hR h.1 hp
    · obtain ⟨r, hr, hrq⟩ | ⟨before, e, after, rfl, hreports⟩ := ih h.2 hq
      · exact .inl ⟨r, hr, hR.trans _ _ _ hrq hqp⟩
      · refine .inr ⟨event :: before, e, after, rfl, ?_⟩
        cases e with
        | wait4 pid options guard =>
          obtain ⟨r, hr, hdead, hparent, hresult, hwhich⟩ := hreports
          refine ⟨r, hr, hdead, hparent, hresult, ?_⟩
          rw [← (hids q p hqp).isThread, ← (hids q p hqp).tgid]
          exact hwhich.imp_left fun hrq => hR.trans _ _ _ hrq hqp
        | _ => exact hreports
    · exact .inr ⟨[], event, events, rfl, hreports⟩

lemma run_kept (h : Machine.Meets step (Spares R) k events) (hq : q ∈ (k.run events).procs)
    (hborn : q.birth < k.births) : ∃ p ∈ k.procs, R q p := by
  induction events generalizing k with
  | nil => exact ⟨q, hq, hR.refl q⟩
  | cons event events ih =>
    obtain ⟨-, -, -, -, -, hbirths, -, -⟩ := step_carried hR h.1
    obtain ⟨r, hr, hqr⟩ := ih h.2 hq (by omega)
    obtain ⟨p, hp, hrp⟩ := step_kept hR h.1 hr ((hids q r hqr).birth ▸ hborn)
    exact ⟨p, hp, hR.trans _ _ _ hqr hrp⟩

end

end Kernel

end Twilight.Proc

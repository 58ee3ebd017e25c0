/-
The end of a thread group.

Three events end a process because of its threads: `exit_group`, a fatal signal sent
by `kill`, and a fault of the running thread.  Only the first of them goes over the
whole group.  `kill` ends the entries it selects, a fault the current entry, and the
children that go to process 1 are those of the entry that ended, not those of its
group.  `Death.marked` says what each event does to an entry of the table
(`death_table`), and `group_ends_iff` reads from it when the group is gone afterwards.
-/
import Twilight.Proc.Pids
import Twilight.Proc.WaitLoop

namespace Twilight.Proc

open List Option Function

/-! ## What a group sees of an entry -/

/-- The two entries agree on everything a group is judged by. -/
structure Kin (q p : Process) : Prop where
  pid : q.pid = p.pid
  tgid : q.tgid = p.tgid
  thread : q.isThread = p.isThread
  parent : q.parentPid = p.parentPid
  status : q.waitStatus = p.waitStatus
  fds : q.fdTable = p.fdTable
  dead : q.state = .dead ↔ p.state = .dead

namespace Kin

variable {q p : Process}

lemma refl (p : Process) : Kin p p := ⟨rfl, rfl, rfl, rfl, rfl, rfl, Iff.rfl⟩

lemma trans {p q r : Process} (h : Kin p q) (h' : Kin q r) : Kin p r :=
  ⟨h.pid.trans h'.pid, h.tgid.trans h'.tgid, h.thread.trans h'.thread, h.parent.trans h'.parent,
    h.status.trans h'.status, h.fds.trans h'.fds, h.dead.trans h'.dead⟩

lemma queueSignal (p : Process) (sig : Nat) : Kin (p.queueSignal sig) p := by
  unfold Process.queueSignal
  split
  · exact refl p
  cases hstate : p.state with
  | sleeping | awaitingIo =>
    cases p.signalInterruptsSleep sig
    · exact ⟨rfl, rfl, rfl, rfl, rfl, rfl, by simp [hstate]⟩
    · exact ⟨rfl, rfl, rfl, rfl, rfl, rfl, by simp [hstate]⟩
  | _ => exact ⟨rfl, rfl, rfl, rfl, rfl, rfl, by simp [hstate]⟩

lemma childExited (p : Process) : Kin p.childExited p := by
  refine trans ?_ (queueSignal p sigchld)
  unfold Process.childExited
  dsimp only
  split
  case h_1 h | h_2 h | h_3 h => exact ⟨rfl, rfl, rfl, rfl, rfl, rfl, by simp [h]⟩
  case h_4 => exact refl _

lemma switchOut (p : Process) : Kin p.switchOut p := by
  unfold Process.switchOut
  split
  · rename_i hrun
    exact ⟨rfl, rfl, rfl, rfl, rfl, rfl, by simp [hrun]⟩
  · exact refl p

lemma switchIn (h : p.state = .runnable) : Kin (p.setState .running) p :=
  ⟨rfl, rfl, rfl, rfl, rfl, rfl, by simp [Process.setState, h]⟩

end Kin

/-! ## Tables up to `Kin` -/

section Tables

variable {procs procs' : List Process}

lemma kin_refl (procs : List Process) : List.Forall₂ Kin procs procs :=
  forall₂_refl Kin.refl procs

lemma kin_trans {procs'' : List Process} (h : List.Forall₂ Kin procs procs')
    (h' : List.Forall₂ Kin procs' procs'') : List.Forall₂ Kin procs procs'' :=
  forall₂_trans (fun _ _ _ hpq hqr => hpq.trans hqr) h h'

variable {f : Process → Process}

lemma kin_update (procs : List Process) (pid : Nat)
    (hf : ∀ p, Kin (f p) p) : List.Forall₂ Kin (updateProcess procs pid f) procs := by
  unfold updateProcess
  split
  · exact kin_refl procs
  · exact forall₂_modify_left (kin_refl procs) fun q p _ _ hqp => (hf q).trans hqp

lemma kin_pids (h : List.Forall₂ Kin procs procs') :
    procs.map (·.pid) = procs'.map (·.pid) := by
  induction h with
  | nil => rfl
  | cons hqp _ ih => rw [map_cons, map_cons, hqp.pid, ih]

lemma kin_any (h : List.Forall₂ Kin procs procs') (pid : Nat) :
    procs.any (fun p => p.pid = pid) = procs'.any (fun p => p.pid = pid) := by
  induction h with
  | nil => rfl
  | cons hqp _ ih => rw [any_cons, any_cons, hqp.pid, ih]

variable (init : Bool) (exiting : Nat → Bool) (p : Process)

/-- What `reparent_children` does to one entry; `init` says whether process 1 is there. -/
def adopted : Process :=
  if init = true ∧ p.isThread = false ∧ exiting p.parentPid = true ∧ p.parentPid ≠ 1 then
    { p with parentPid := 1 }
  else p

lemma adopted_pid : (adopted init exiting p).pid = p.pid := by
  unfold adopted
  split <;> rfl

lemma adopted_fields :
    (adopted init exiting p).tgid = p.tgid ∧ (adopted init exiting p).isThread = p.isThread ∧
      (adopted init exiting p).state = p.state ∧
      (adopted init exiting p).waitStatus = p.waitStatus ∧
      (adopted init exiting p).fdTable = p.fdTable := by
  unfold adopted
  split <;> exact ⟨rfl, rfl, rfl, rfl, rfl⟩

lemma adopted_adopted (pid : Nat) (dead : List Nat) (p : Process) :
    adopted init (dead.contains ·) (adopted init (· = pid) p)
      = adopted init ((pid :: dead).contains ·) p := by
  unfold adopted
  simp only [decide_eq_true_eq, contains_cons, Bool.or_eq_true, beq_iff_eq]
  by_cases hp : p.parentPid = pid
  · by_cases hrest : init = true ∧ p.isThread = false ∧ p.parentPid ≠ 1
    · simp [hp, hrest.1, hrest.2.1, hp ▸ hrest.2.2]
    · have hno : ∀ a : Prop, ¬ (init = true ∧ p.isThread = false ∧ a ∧ p.parentPid ≠ 1) :=
        fun a h => hrest ⟨h.1, h.2.1, h.2.2.2⟩
      simp only [hno, if_false]
  · simp only [hp, false_and, and_false, if_false, false_or]

lemma kin_adopted {init : Bool} {exiting : Nat → Bool} {q p : Process} (h : Kin q p) :
    Kin (adopted init exiting q) (adopted init exiting p) := by
  unfold adopted
  rw [h.thread, h.parent]
  split
  · exact ⟨h.pid, h.tgid, by simp, rfl, h.status, h.fds, h.dead⟩
  · exact h

lemma kin_reparentChildren (procs : List Process) (pid : Nat) :
    List.Forall₂ Kin (reparentChildren procs pid)
      (procs.map (adopted (procs.any fun p => p.pid = 1) (· = pid))) := by
  unfold reparentChildren
  by_cases hno : (pid = 1 || !procs.any fun p => p.pid = 1) = true
  · rw [if_pos hno]
    have hid : ∀ p, adopted (procs.any fun p => p.pid = 1) (· = pid) p = p := by
      intro p
      unfold adopted
      rw [if_neg]
      intro h
      simp only [decide_eq_true_eq] at h
      simp only [Bool.or_eq_true, decide_eq_true_eq, Bool.not_eq_true'] at hno
      rcases hno with hone | hnone
      · exact h.2.2.2 (h.2.2.1.trans hone)
      · rw [hnone] at h
        exact absurd h.1 (by simp)
    rw [map_congr_left (fun p _ => hid p), List.map_id']
    exact kin_refl procs
  · rw [if_neg hno]
    simp only [Bool.or_eq_true, decide_eq_true_eq, Bool.not_eq_true', not_or,
      Bool.not_eq_false] at hno
    have hmap : (procs.map fun p => if adoptedBy pid p then { p with parentPid := 1 } else p)
        = procs.map (adopted (procs.any fun p => p.pid = 1) (· = pid)) := by
      refine map_congr_left fun p _ => ?_
      unfold adopted adoptedBy
      rw [hno.2]
      by_cases hp : p.parentPid = pid
      · simp [hp, hno.1]
      · simp [hp]
    rw [hmap]
    split
    · exact kin_update _ 1 fun p => Kin.queueSignal p sigchld
    · exact kin_refl _

lemma kin_foldl_reparent (dead : List Nat) (h : List.Forall₂ Kin procs procs') :
    List.Forall₂ Kin (dead.foldl reparentChildren procs)
      (procs'.map (adopted (procs'.any fun p => p.pid = 1) (dead.contains ·))) := by
  induction dead generalizing procs procs' with
  | nil =>
    have hid : ∀ p, adopted (procs'.any fun p => p.pid = 1) (([] : List Nat).contains ·) p = p := by
      unfold adopted
      simp
    rw [map_congr_left (fun p _ => hid p), List.map_id']
    exact h
  | cons pid dead ih =>
    have hfirst := kin_trans (kin_reparentChildren procs pid) (rel_map (fun _ _ h => kin_adopted h) h)
    have hinit : (procs'.map (adopted (procs.any fun p => p.pid = 1) (· = pid))).any
        (fun p => p.pid = 1) = procs'.any fun p => p.pid = 1 := by
      rw [List.any_map]
      simp only [Function.comp_def, adopted_pid]
    have hstep := ih hfirst
    rw [hinit, List.map_map, kin_any h] at hstep
    have hone : ∀ p, adopted (procs'.any fun p => p.pid = 1) (dead.contains ·)
        (adopted (procs'.any fun p => p.pid = 1) (· = pid) p)
        = adopted (procs'.any fun p => p.pid = 1) ((pid :: dead).contains ·) p :=
      fun p => adopted_adopted _ _ _ p
    simp only [Function.comp_def, hone] at hstep
    exact hstep

lemma updateProcess_eq_map (h : (procs.map (·.pid)).Nodup) (pid : Nat) (f : Process → Process) :
    updateProcess procs pid f = procs.map fun p => if p.pid = pid then f p else p := by
  induction procs with
  | nil => rfl
  | cons p rest ih =>
    rw [map_cons, nodup_cons] at h
    unfold updateProcess findProcessIndex at ih ⊢
    rw [List.findIdx?_cons, map_cons]
    by_cases hp : p.pid = pid
    · have hrest : ∀ q ∈ rest, (if q.pid = pid then f q else q) = q := by
        intro q hq
        rw [if_neg]
        rintro hqp
        exact h.1 (mem_map.mpr ⟨q, hq, hqp.trans hp.symm⟩)
      simp only [hp, decide_true, if_true]
      rw [modify_zero_cons, map_congr_left hrest, List.map_id']
    · simp only [hp]
      rw [← ih h.2]
      cases rest.findIdx? fun p => decide (p.pid = pid) with
      | none => rfl
      | some i =>
        exact modify_succ_cons _ _ _ _

lemma getProcess_map (hf : ∀ p, (f p).pid = p.pid) (pid : Nat) :
    getProcess (procs.map f) pid = (getProcess procs pid).map f := by
  unfold getProcess
  rw [List.find?_map]
  simp only [Function.comp_def, hf]

lemma findProcessIndex_map (hf : ∀ p, (f p).pid = p.pid) (pid : Nat) :
    findProcessIndex (procs.map f) pid = findProcessIndex procs pid := by
  unfold findProcessIndex
  rw [List.findIdx?_map]
  simp only [Function.comp_def, hf]

lemma kin_modify (hf : ∀ q p, Kin q p → Kin (f q) (f p)) (i : Nat)
    (h : List.Forall₂ Kin procs procs') : List.Forall₂ Kin (procs.modify i f) (procs'.modify i f) := by
  induction h generalizing i with
  | nil => simp
  | cons hqp hrest ih =>
    cases i with
    | zero =>
      exact .cons (hf _ _ hqp) hrest
    | succ i =>
      exact .cons hqp (ih i)

lemma kin_modify_map {g : Process → Process} (hf : ∀ q p, Kin q p → Kin (f q) (f p))
    (hg : ∀ p, (g p).pid = p.pid) (hnodup : (procs'.map (·.pid)).Nodup) {pid i : Nat}
    (hi : findProcessIndex procs' pid = some i) (h : List.Forall₂ Kin procs (procs'.map g)) :
    List.Forall₂ Kin (procs.modify i f)
      (procs'.map fun p => if p.pid = pid then f (g p) else g p) := by
  refine kin_trans (kin_modify hf i h) ?_
  have hsame : (procs'.map g).modify i f = updateProcess (procs'.map g) pid f := by
    rw [updateProcess, findProcessIndex_map hg, hi]
  have hpids : ((procs'.map g).map (·.pid)).Nodup := by
    rw [List.map_map]
    simp only [Function.comp_def, hg]
    exact hnodup
  rw [hsame, updateProcess_eq_map hpids, List.map_map]
  simp only [Function.comp_def, hg]
  exact kin_refl _

end Tables

/-! ## Switches -/

namespace Kernel

variable {k : Kernel}

lemma kin_switched {cur next : Nat} {target : Process} (h : k.Switch cur next target) :
    List.Forall₂ Kin (k.switched cur next target).procs k.procs := by
  have hout : List.Forall₂ Kin (k.procs.modify cur (·.switchOut)) k.procs :=
    forall₂_modify_left (kin_refl _) fun q p _ _ hqp => (Kin.switchOut q).trans hqp
  refine forall₂_modify_left hout fun q p hq _ hqp => ?_
  rw [List.getElem?_modify_ne _ _ (Ne.symm h.ne), h.found] at hq
  obtain rfl := Option.some.inj hq
  exact (Kin.switchIn h.runnable).trans hqp

lemma kin_scheduleNow (k : Kernel) (guard : Bool) :
    List.Forall₂ Kin (k.scheduleNow guard).2.procs k.procs := by
  rcases k.scheduleNow_cases guard with ⟨cur, next, target, -, hsw, -, heq⟩ | ⟨-, heq⟩
  · rw [heq]
    exact kin_switched hsw
  · rw [heq]
    exact kin_refl _

lemma kin_switchAfterExit (k : Kernel) (cur parentPid : Nat) :
    List.Forall₂ Kin (k.switchAfterExit cur parentPid).procs k.procs := by
  rcases k.switchAfterExit_cases cur parentPid with ⟨next, target, hsw, heq⟩ | heq
  · rw [heq]
    exact kin_switched hsw
  · rw [heq]
    exact kin_refl _

end Kernel

/-! ## Three ways to end a process -/

/-- The default action of the signal ends the process, and it is in force. -/
def Process.diesOf (p : Process) (sig : Nat) : Bool :=
  isFatalDefault sig && p.handler sig ≤ sigIgn &&
    (p.handler sig ≠ sigIgn || sig = sigkill || sig = sigstop)

inductive Death where
  | exitGroup (code : Int)
  | kill (pid : Int) (sig : Nat)
  | fault (sig : Nat)

namespace Death

def event : Death → Event
  | .exitGroup code => .exitGroup true code
  | .kill pid sig => .kill pid sig true
  | .fault sig => .terminate true sig

def currentIn (k : Kernel) (g : Nat) : Bool := (getProcess k.procs k.pid).any (·.tgid = g)

/-- The entries the event ends. -/
def hits (k : Kernel) : Death → Process → Bool
  | .exitGroup _, p => currentIn k p.tgid
  | .kill pid sig, p => ((k.killTargets pid).map (·.pid)).contains p.pid && p.diesOf sig
  | .fault _, p => p.pid = k.pid

/-- The entries whose status for `wait4` the event sets. -/
def marks (k : Kernel) : Death → Process → Bool
  | .exitGroup _, p => currentIn k p.pid
  | .kill pid sig, p => (Death.kill pid sig).hits k p
  | .fault sig, p => (Death.fault sig).hits k p

/-- The pids whose children go to process 1. -/
def leaves (k : Kernel) : Death → Nat → Bool
  | .exitGroup _, pid => currentIn k pid
  | .kill p sig, pid => (getProcess k.procs pid).any ((Death.kill p sig).hits k)
  | .fault _, pid => pid = k.pid

def status : Death → Int
  | .exitGroup code => code % 0x100 * 0x100
  | .kill _ sig | .fault sig => (sig : Int) % 0x80

/-- The event strikes the group: the current process is in it, or the signal ends a member. -/
def Strikes (k : Kernel) (g : Nat) : Death → Prop
  | .exitGroup _ | .fault _ => currentIn k g = true
  | .kill pid sig => ¬ (pid < -1 ∧ ¬ -pid ≤ 0xffff) ∧
      ∃ p ∈ k.procs, p.tgid = g ∧ (Death.kill pid sig).hits k p = true

def marked (k : Kernel) (d : Death) (p : Process) : Process :=
  adopted (k.procs.any fun p => p.pid = 1) (d.leaves k)
    { p with
      state := if d.hits k p then .dead else p.state
      fdTable := if d.hits k p then [] else p.fdTable
      waitStatus := if d.marks k p then d.status else p.waitStatus }

lemma marked_eq (k : Kernel) (d : Death) (q : Process) : d.marked k q =
    let a := adopted (k.procs.any fun p => p.pid = 1) (d.leaves k) q
    { a with
      state := if d.hits k q then .dead else a.state
      fdTable := if d.hits k q then [] else a.fdTable
      waitStatus := if d.marks k q then d.status else a.waitStatus } := by
  unfold marked adopted
  dsimp only
  split_ifs <;> rfl

lemma marked_fields (k : Kernel) (d : Death) (q : Process) :
    (d.marked k q).pid = q.pid ∧ (d.marked k q).tgid = q.tgid ∧
      (d.marked k q).isThread = q.isThread ∧
      (d.marked k q).parentPid
        = (adopted (k.procs.any fun p => p.pid = 1) (d.leaves k) q).parentPid ∧
      (d.marked k q).waitStatus = (if d.marks k q then d.status else q.waitStatus) ∧
      ((d.marked k q).state = .dead ↔ d.hits k q = true ∨ q.state = .dead) ∧
      ((d.marked k q).fdTable = [] ↔ d.hits k q = true ∨ q.fdTable = []) := by
  obtain ⟨htgid, hthread, hstate, hstatus, hfds⟩ :=
    adopted_fields (k.procs.any fun p => p.pid = 1) (d.leaves k) q
  rw [marked_eq, ← hstate, ← hstatus, ← hfds]
  refine ⟨adopted_pid _ _ q, htgid, hthread, rfl, rfl, ?_⟩
  cases d.hits k q <;> simp

end Death

namespace Kernel

variable {k : Kernel} {p : Process} {g sig : Nat}

lemma kin_die_status {q : Process} (h : Kin q p) (code code' status : Int) :
    Kin ((q.die code).setWaitStatus status) ((p.die code').setWaitStatus status) :=
  ⟨h.pid, h.tgid, h.thread, h.parent, rfl, rfl, Iff.rfl⟩

lemma findProcessIndex_of_getProcess {procs : List Process} {pid : Nat}
    (h : getProcess procs pid = some p) : ∃ i, findProcessIndex procs pid = some i := by
  cases hi : findProcessIndex procs pid with
  | some i => exact ⟨i, rfl⟩
  | none =>
    have hmem := mem_of_find?_eq_some h
    have := List.findIdx?_eq_none_iff.mp hi p hmem
    rw [getProcess_pid h] at this
    simp at this

lemma fault_table (hu : k.PidsUnique) (sig : Nat) (h : (Death.fault sig).Strikes k g) :
    List.Forall₂ Kin (k.terminateCurrentBySignal true sig).procs
      (k.procs.map ((Death.fault sig).marked k)) := by
  unfold terminateCurrentBySignal
  obtain ⟨p, hp, -⟩ := (Option.any_eq_true _ _).mp h
  obtain ⟨cur, hcur⟩ := findProcessIndex_of_getProcess hp
  simp only [hp, hcur]
  refine kin_trans (kin_switchAfterExit _ _ _) ?_
  refine kin_trans (kin_update ((reparentChildren k.procs k.pid).modify cur _) p.parentPid
    Kin.childExited) ?_
  have hdie : ∀ q r : Process, Kin q r →
      Kin ((q.die (128 + sig)).setWaitStatus (sig % 0x80))
        ((r.die (128 + sig)).setWaitStatus (sig % 0x80)) := fun q r h => kin_die_status h _ _ _
  refine kin_trans (kin_modify_map hdie (adopted_pid _ _) hu hcur
    (kin_reparentChildren k.procs k.pid)) ?_
  refine forall₂_map_left_iff.mpr (forall₂_map_right_iff.mpr (forall₂_same.mpr ?_))
  intro q _
  rw [Death.marked_eq]
  simp only [Death.hits, Death.marks, decide_eq_true_eq]
  split <;> exact ⟨rfl, rfl, rfl, rfl, rfl, rfl, Iff.rfl⟩

lemma exitGroup_table (hu : k.PidsUnique) {l : Process} (code : Int)
    (h : (Death.exitGroup code).Strikes k g) (hl : getProcess k.procs g = some l) :
    List.Forall₂ Kin (k.exitGroup true code).procs
      (k.procs.map ((Death.exitGroup code).marked k)) := by
  unfold exitGroup
  obtain ⟨p, hp, hg⟩ := (Option.any_eq_true _ _).mp h
  obtain rfl : p.tgid = g := by simpa using hg
  obtain ⟨cur, hcur⟩ := findProcessIndex_of_getProcess hp
  obtain ⟨leader, hleader⟩ := findProcessIndex_of_getProcess hl
  have hin : ∀ n, Death.currentIn k n = decide (n = p.tgid) := by
    intro n
    rw [Death.currentIn, hp, any_some]
    exact decide_eq_decide.mpr eq_comm
  simp only [Bool.not_true, Bool.false_eq_true, if_false, hp, hcur, hl, hleader]
  refine kin_trans (kin_switchAfterExit _ _ _) ?_
  unfold leaveGroup
  refine kin_trans (kin_update _ _ fun q => Kin.queueSignal q sigchld) ?_
  have hdie : ∀ q r : Process, Kin q r →
      Kin (if q.tgid = p.tgid then q.die code else q) (if r.tgid = p.tgid then r.die code else r) := by
    intro q r hqr
    rw [hqr.tgid]
    split
    · exact ⟨hqr.pid, hqr.tgid, hqr.thread, hqr.parent, hqr.status, rfl, Iff.rfl⟩
    · exact hqr
  have hends := rel_map hdie (kin_reparentChildren k.procs p.tgid)
  rw [List.map_map] at hends
  have hset : ∀ q r : Process, Kin q r → Kin (q.setWaitStatus (code % 0x100 * 0x100))
      (r.setWaitStatus (code % 0x100 * 0x100)) := fun q r h =>
    ⟨h.pid, h.tgid, h.thread, h.parent, rfl, h.fds, h.dead⟩
  refine kin_trans (kin_modify_map hset ?_ hu hleader hends) ?_
  · intro q
    rw [comp_apply]
    split
    · exact adopted_pid _ _ q
    · exact adopted_pid _ _ q
  refine forall₂_map_left_iff.mpr (forall₂_map_right_iff.mpr (forall₂_same.mpr ?_))
  intro q _
  have hleaves : Death.leaves k (.exitGroup code) = fun n => decide (n = p.tgid) := funext hin
  obtain ⟨htgid, -⟩ := adopted_fields (k.procs.any fun p => p.pid = 1) (· = p.tgid) q
  rw [Death.marked_eq, hleaves]
  simp only [comp_apply, ← htgid, Death.hits, Death.marks, hin, decide_eq_true_eq]
  split_ifs <;> exact ⟨rfl, rfl, rfl, rfl, rfl, rfl, Iff.rfl⟩

lemma applySignal_fatal (h : isFatalDefault sig = true) :
    (p.applySignal sig).2.isSome = p.diesOf sig ∧
      (p.applySignal sig).1.pid = p.pid ∧
      Kin (p.applySignal sig).1 (if p.diesOf sig then
        { p with state := .dead, fdTable := [], waitStatus := (sig : Int) % 0x80 } else p) := by
  have hfacts : ∀ s ∈ [sighup, sigint, sigquit, sigkill, sigpipe, sigalrm, sigterm],
      s ≠ 0 ∧ s ≠ sigcont ∧ isStopDefault s = false := by decide
  obtain ⟨hzero, hcont, hstop⟩ := hfacts sig (by simpa [isFatalDefault] using h)
  unfold Process.applySignal
  rw [if_neg hzero, if_neg hcont, h, hstop]
  by_cases hign : p.handler sig = sigIgn ∧ sig ≠ sigkill ∧ sig ≠ sigstop
  · have hdies : p.diesOf sig = false := by simp [Process.diesOf, hign]
    rw [if_pos hign, hdies]
    exact ⟨rfl, rfl, Kin.refl p⟩
  rw [if_neg hign]
  by_cases hhandler : p.handler sig > sigIgn
  · have hdies : p.diesOf sig = false := by simp [Process.diesOf, hhandler]
    rw [if_pos hhandler, hdies]
    exact ⟨rfl, (Kin.queueSignal p sig).pid, Kin.queueSignal p sig⟩
  have hdies : p.diesOf sig = true := by
    rw [Process.diesOf, h, decide_eq_true (Nat.not_lt.mp hhandler)]
    simp only [not_and_or, not_not] at hign
    rcases hign with hk | hk | hk <;> simp [hk]
  rw [if_neg hhandler, hdies]
  exact ⟨rfl, rfl, ⟨rfl, rfl, rfl, rfl, rfl, rfl, Iff.rfl⟩⟩

lemma killOne_eq (h : isFatalDefault sig = true) (procs : List Process) (parents dead : List Nat)
    (t : Nat) : ∃ parents', killOne sig (procs, parents, dead) t
      = (updateProcess procs t fun q => (q.applySignal sig).1, parents',
        if (getProcess procs t).any (·.diesOf sig) then dead ++ [t] else dead) := by
  unfold killOne
  cases ht : getProcess procs t with
  | none =>
    have hi : findProcessIndex procs t = none :=
      List.findIdx?_eq_none_iff.mpr fun p hp => by simpa using List.find?_eq_none.mp ht p hp
    exact ⟨parents, by simp [updateProcess, hi]⟩
  | some p =>
    obtain ⟨hsome, -, hkin⟩ := applySignal_fatal (p := p) h
    rw [any_some, ← hsome]
    cases hparent : (p.applySignal sig).2 with
    | none => exact ⟨parents, by simp [hparent]⟩
    | some parent =>
      rw [← hsome, hparent] at hkin
      have hdead : (p.applySignal sig).1.state = .dead := hkin.dead.mpr rfl
      exact ⟨parents ++ [parent], by simp [hparent, hdead]⟩

lemma foldl_killOne (h : isFatalDefault sig = true) {targets : List Nat}
    (hnodup : targets.Nodup) (procs : List Process) (hu : (procs.map (·.pid)).Nodup)
    (parents dead : List Nat) : (targets.foldl (killOne sig) (procs, parents, dead)).1
        = procs.map (fun p => if targets.contains p.pid then (p.applySignal sig).1 else p) ∧
      ∀ pid, (targets.foldl (killOne sig) (procs, parents, dead)).2.2.contains pid
        = (dead.contains pid || targets.contains pid && (getProcess procs pid).any (·.diesOf sig)) := by
  induction targets generalizing procs parents dead with
  | nil => simp
  | cons t rest ih =>
    obtain ⟨htrest, hrest⟩ := nodup_cons.mp hnodup
    have hmap : ∀ q : Process, (if q.pid = t then (q.applySignal sig).1 else q).pid = q.pid := by
      intro q
      split
      · exact (applySignal_fatal h).2.1
      · rfl
    obtain ⟨parents', hone⟩ := killOne_eq h procs parents dead t
    rw [foldl_cons, hone, updateProcess_eq_map hu]
    have hu' : ((procs.map fun q => if q.pid = t then (q.applySignal sig).1 else q).map
        (·.pid)).Nodup := by
      rw [List.map_map]
      simp only [Function.comp_def, hmap]
      exact hu
    obtain ⟨hprocs, hdead⟩ := ih hrest _ hu' parents' _
    refine ⟨?_, fun pid => ?_⟩
    · rw [hprocs, List.map_map]
      refine map_congr_left fun q _ => ?_
      rw [comp_apply, hmap]
      by_cases hq : q.pid = t
      · simp [hq, htrest]
      · simp [hq]
    · rw [hdead pid, getProcess_map hmap]
      by_cases hpt : pid = t
      · subst hpt
        cases (getProcess procs pid).any (·.diesOf sig) <;> simp [htrest]
      have hget : ((getProcess procs pid).map fun q =>
          if q.pid = t then (q.applySignal sig).1 else q) = getProcess procs pid := by
        cases hq : getProcess procs pid with
        | none => rfl
        | some q =>
          have hne : q.pid ≠ t := by rwa [getProcess_pid hq]
          simp [hne]
      rw [hget]
      cases (getProcess procs t).any (·.diesOf sig) <;> simp [hpt]

lemma kin_notifyParents (parents : List Nat) (procs : List Process) :
    List.Forall₂ Kin (parents.foldl notifyParentForChildEvent procs) procs := by
  induction parents generalizing procs with
  | nil => exact kin_refl procs
  | cons parent rest ih =>
    rw [foldl_cons]
    exact kin_trans (ih _) (kin_update procs parent fun p => Kin.queueSignal p sigchld)

/-- A fatal signal ends the targets that take the default action. -/
lemma kin_signalTargets (h : isFatalDefault sig = true) {targets : List Nat}
    (hnodup : targets.Nodup) {procs : List Process} (hu : (procs.map (·.pid)).Nodup) :
    let hits (q : Process) : Bool := targets.contains q.pid && q.diesOf sig
    List.Forall₂ Kin (signalTargets procs sig targets) (procs.map fun q =>
      adopted (procs.any fun p => p.pid = 1) (fun n => (getProcess procs n).any hits)
        { q with
          state := if hits q then .dead else q.state
          fdTable := if hits q then [] else q.fdTable
          waitStatus := if hits q then (sig : Int) % 0x80 else q.waitStatus }) := by
  intro hits
  obtain ⟨hprocs, hdead⟩ := foldl_killOne h hnodup procs hu [] []
  -- the entries after the first loop, before any child is adopted
  let struck : Process → Process := fun q =>
    { q with
      state := if hits q then .dead else q.state
      fdTable := if hits q then [] else q.fdTable
      waitStatus := if hits q then (sig : Int) % 0x80 else q.waitStatus }
  have hfirst : List.Forall₂ Kin (targets.foldl (killOne sig) (procs, [], [])).1
      (procs.map struck) := by
    rw [hprocs]
    refine forall₂_map_left_iff.mpr (forall₂_map_right_iff.mpr (forall₂_same.mpr fun q _ => ?_))
    have hkin := (applySignal_fatal (p := q) h).2.2
    cases hc : targets.contains q.pid <;> cases hd : q.diesOf sig
    all_goals
      simp only [struck, hits, hc, hd, Bool.and_true, Bool.and_false] at hkin ⊢
      first | exact hkin | exact Kin.refl q
  have hadopt := kin_foldl_reparent (targets.foldl (killOne sig) (procs, [], [])).2.2 hfirst
  have hinit : (procs.map struck).any (fun p => p.pid = 1) = procs.any fun p => p.pid = 1 := by
    rw [List.any_map]
    rfl
  have hleaves : (fun n => (targets.foldl (killOne sig) (procs, [], [])).2.2.contains n)
      = fun n => (getProcess procs n).any hits := by
    funext n
    rw [hdead n, contains_nil, Bool.false_or]
    cases hn : getProcess procs n with
    | none => exact Bool.and_false _
    | some q => rw [any_some, any_some, ← getProcess_pid hn]
  rw [hinit, List.map_map, hleaves] at hadopt
  exact kin_trans (kin_notifyParents _ _) hadopt

lemma kill_table (hu : k.PidsUnique) {pid : Int} (h : (Death.kill pid sig).Strikes k g) :
    List.Forall₂ Kin (k.kill pid sig true).2.procs
      (k.procs.map ((Death.kill pid sig).marked k)) := by
  obtain ⟨hvalid, p, hp, -, hhit⟩ := h
  simp only [Death.hits, Bool.and_eq_true] at hhit
  obtain ⟨htarget, hdies⟩ := hhit
  have hfatal : isFatalDefault sig = true := by
    simp only [Process.diesOf, Bool.and_eq_true] at hdies
    exact hdies.1.1
  have hrange : ∀ s ∈ [sighup, sigint, sigquit, sigkill, sigpipe, sigalrm, sigterm],
      s ≠ 0 ∧ s ≤ 64 := by decide
  obtain ⟨hzero, hle⟩ := hrange sig (by simpa [isFatalDefault] using hfatal)
  have hnodup : ((k.killTargets pid).map (·.pid)).Nodup :=
    List.Nodup.sublist (List.Sublist.map _ filter_sublist) hu
  have hsome : ((k.killTargets pid).map (·.pid)).isEmpty = false := by
    cases ht : (k.killTargets pid).map (·.pid) with
    | nil => simp [ht] at htarget
    | cons _ _ => rfl
  have hkill : List.Forall₂ Kin (signalTargets k.procs sig ((k.killTargets pid).map (·.pid)))
      (k.procs.map ((Death.kill pid sig).marked k)) := kin_signalTargets hfatal hnodup hu
  unfold kill
  rw [if_neg (by omega), if_neg hvalid]
  dsimp only
  rw [hsome, if_neg (by simp), if_neg (by omega)]
  split
  · exact kin_trans (kin_scheduleNow _ _) (by simpa using hkill)
  · simpa using hkill

lemma death_table (hu : k.PidsUnique) {l : Process} {d : Death} (h : d.Strikes k g)
    (hl : getProcess k.procs g = some l) :
    List.Forall₂ Kin (k.step d.event).procs (k.procs.map (d.marked k)) := by
  cases d with
  | exitGroup code => exact exitGroup_table hu code h hl
  | kill pid sig => exact kill_table hu h
  | fault sig => exact fault_table hu sig h

end Kernel

/-! ## Groups -/

/-- The entry a `wait4` reports, and the table after it has reported a dead one. -/
lemma Kernel.wait4_reported {k : Kernel} {pid : Int} {options : BitVec 32} {guard : Bool} {n : Nat}
    {status : Int} (hw : (k.wait4 pid options guard).1 = .reported n status) :
    ∃ i r, k.procs[i]? = some r ∧ r.pid = n ∧ r.waitStatus = status ∧
      (r.state = .dead → (k.wait4 pid options guard).2.procs =
        (k.procs.eraseIdx i).filter fun q => !(q.isThread && q.tgid = r.tgid)) := by
  unfold Kernel.wait4 at hw ⊢
  by_cases hopt : options &&& ~~~(wnohang ||| wuntraced ||| wcontinued) ≠ 0
  · rw [if_pos hopt] at hw
    cases hw
  rw [if_neg hopt] at hw ⊢
  dsimp only at hw ⊢
  split at hw
  · rename_i i r heq
    obtain ⟨j, -, hj⟩ := bind_eq_some_iff.mp heq
    obtain ⟨r', hr, hpair⟩ := map_eq_some_iff.mp hj
    obtain ⟨rfl, rfl⟩ := Prod.mk.inj hpair
    have hreport : WaitResult.reported r'.pid r'.waitStatus = .reported n status := by
      split at hw
      · exact hw
      · exact hw
    obtain ⟨hpid, hstatus⟩ := WaitResult.reported.inj hreport
    exact ⟨j, r', hr, hpid, hstatus, fun hdead => by rw [if_pos hdead]⟩
  · split at hw
    · cases hw
    · split at hw
      · cases hw
      · cases hw

/-- A group in a table with distinct pids: its leader is there, and the other members are
threads. -/
structure Grouped (k : Kernel) (g : Nat) : Prop where
  unique : k.PidsUnique
  leader : ∃ l ∈ k.procs, l.pid = g ∧ l.tgid = g ∧ l.isThread = false
  threads : ∀ p ∈ k.procs, p.tgid = g → p.pid ≠ g → p.isThread = true

/-- What `wait4` makes of a group in this table: the leader's parent, if it asks for the group,
gets this status, and whoever gets the group reported takes all its members out of the table and
no others, so that no `wait4` reports it again. -/
structure GroupReaped (g : Nat) (status : Int) (k : Kernel) : Prop where
  reports : 0 < g → ∀ l ∈ k.procs, l.pid = g → ∀ options guard,
    options &&& ~~~(Kernel.wnohang ||| Kernel.wuntraced ||| Kernel.wcontinued) = 0 →
      ({ k with pid := l.parentPid }.wait4 g options guard).1 = .reported g status
  once : ∀ parent pid options guard s,
    ({ k with pid := parent }.wait4 pid options guard).1 = .reported g s →
    let rest := ({ k with pid := parent }.wait4 pid options guard).2
    s = status ∧ (∀ p, p ∈ rest.procs ↔ p ∈ k.procs ∧ p.tgid ≠ g) ∧
      ∀ parent' pid' options' guard' s',
        ({ rest with pid := parent' }.wait4 pid' options' guard').1 ≠ .reported g s'

/-- The group is gone: every entry of it is dead with its descriptors closed, the leader has the
status, the children of all members are with process 1, and the parent's `wait4` reports the
group once. -/
structure GroupEnded (g : Nat) (d : Death) (k : Kernel) : Prop where
  dead : ∀ p ∈ k.procs, p.tgid = g → p.state = .dead
  closed : ∀ p ∈ k.procs, p.tgid = g → p.fdTable = []
  status : ∀ p ∈ k.procs, p.pid = g → p.waitStatus = d.status
  children : ∀ p ∈ k.procs, p.isThread = false → ∀ m ∈ k.procs, m.tgid = g →
    p.parentPid = m.pid → p.parentPid = 1
  reaped : GroupReaped g d.status k

structure Death.EndsGroup (k : Kernel) (g : Nat) (d : Death) : Prop where
  /-- Every member is hit, or is dead with its descriptors closed already. -/
  members : ∀ p ∈ k.procs, p.tgid = g → d.hits k p = true ∨ p.state = .dead ∧ p.fdTable = []
  /-- The leader gets the status, or has it. -/
  leader : ∀ p ∈ k.procs, p.pid = g → d.marks k p = true ∨ p.waitStatus = d.status
  /-- The members' children are those of an entry the event takes the children of. -/
  children : ∀ p ∈ k.procs, p.isThread = false → ∀ m ∈ k.procs, m.tgid = g →
    p.parentPid = m.pid → p.parentPid = 1 ∨
      d.leaves k p.parentPid = true ∧ (k.procs.any fun q => q.pid = 1) = true

lemma forall_mem_marked {k k' : Kernel} {d : Death}
    (h : List.Forall₂ Kin k'.procs (k.procs.map (d.marked k))) {P : Process → Prop}
    (hP : ∀ q p, Kin q p → (P q ↔ P p)) :
    (∀ q ∈ k'.procs, P q) ↔ ∀ p ∈ k.procs, P (d.marked k p) := by
  rw [← List.forall_mem_map (f := d.marked k) (P := P)]
  generalize k.procs.map (d.marked k) = l at h
  generalize k'.procs = l' at h
  induction h with
  | nil => simp
  | cons hqp _ ih => rw [forall_mem_cons, forall_mem_cons, hP _ _ hqp, ih]

namespace Grouped

variable {k k' : Kernel} {g : Nat} {d : Death}

lemma of_marked (h : Grouped k g)
    (htable : List.Forall₂ Kin k'.procs (k.procs.map (d.marked k))) : Grouped k' g := by
  have hpids : k'.procs.map (·.pid) = k.procs.map (·.pid) := by
    rw [kin_pids htable, List.map_map]
    exact map_congr_left fun p _ => (Death.marked_fields k d p).1
  refine ⟨by rw [Kernel.PidsUnique, hpids]; exact h.unique, ?_, ?_⟩
  · obtain ⟨l, hl, hlpid, hltgid, hlthread⟩ := h.leader
    obtain ⟨q, hq, hkin⟩ := exists_of_mem_forall₂ htable.flip
      (List.mem_map_of_mem (f := d.marked k) hl)
    have hkin : Kin q (d.marked k l) := hkin
    obtain ⟨hpid, htgid, hthread, -⟩ := Death.marked_fields k d l
    exact ⟨q, hq, hkin.pid.trans (hpid.trans hlpid), hkin.tgid.trans (htgid.trans hltgid),
      hkin.thread.trans (hthread.trans hlthread)⟩
  · refine (forall_mem_marked htable fun q p hqp => ?_).mpr fun p hp => ?_
    · rw [hqp.tgid, hqp.pid, hqp.thread]
    · obtain ⟨hpid, htgid, hthread, -⟩ := Death.marked_fields k d p
      rw [hpid, htgid, hthread]
      exact h.threads p hp

lemma wait4_reports (h : Grouped k g) (hpos : 0 < g) {l : Process} (hl : l ∈ k.procs)
    (hpid : l.pid = g) (hthread : l.isThread = false) (hparent : l.parentPid = k.pid)
    (hdead : l.state = .dead) {options : BitVec 32}
    (hopt : options &&& ~~~(Kernel.wnohang ||| Kernel.wuntraced ||| Kernel.wcontinued) = 0)
    (guard : Bool) : (k.wait4 g options guard).1 = .reported g l.waitStatus := by
  have hsel : ∀ p, k.waitSelects g p = true → p.pid = g := by
    intro p hp
    simp only [Kernel.waitSelects, Bool.and_eq_true] at hp
    have hg := hp.2
    rw [if_neg (by omega), if_neg (by omega), if_pos (by omega), decide_eq_true_eq] at hg
    exact_mod_cast hg
  have hleader : k.waitSelects g l = true := by
    simp only [Kernel.waitSelects, hthread, hparent, hpid]
    rw [if_neg (by omega), if_neg (by omega), if_pos (by omega)]
    simp
  unfold Kernel.wait4
  rw [if_neg (not_not.mpr hopt)]
  dsimp only
  obtain ⟨i, hi⟩ : ∃ i, (k.procs.findIdx? fun p => k.waitSelects g p && (p.state = .dead ||
      options &&& Kernel.wuntraced ≠ 0 && p.state = .stopped && !p.waitReported)) = some i := by
    rw [← isSome_iff_exists, List.findIdx?_isSome, List.any_eq_true]
    exact ⟨l, hl, by simp [hleader, hdead]⟩
  obtain ⟨hlt, hfound, -⟩ := findIdx?_eq_some_iff_getElem.mp hi
  obtain rfl : k.procs[i] = l := inj_on_of_nodup_map h.unique (getElem_mem hlt) hl
    ((hsel _ (Bool.and_eq_true _ _ ▸ hfound).1).trans hpid.symm)
  rw [hi, Option.bind_some, getElem?_eq_getElem hlt, Option.map_some]
  dsimp only
  rw [if_pos hdead, hpid]

/-- A `wait4` that reports the group takes out the group, and no one else. -/
lemma wait4_reaps (h : Grouped k g) (hdead : ∀ p ∈ k.procs, p.tgid = g → p.state = .dead)
    {pid : Int} {options : BitVec 32} {guard : Bool} {status : Int}
    (hw : (k.wait4 pid options guard).1 = .reported g status) (p : Process) :
    p ∈ (k.wait4 pid options guard).2.procs ↔ p ∈ k.procs ∧ p.tgid ≠ g := by
  obtain ⟨i, r, hr, hpid, -, hrest⟩ := Kernel.wait4_reported hw
  have hmem := mem_of_getElem? hr
  obtain ⟨l, hl, hlpid, hltgid, -⟩ := h.leader
  obtain rfl : r = l := inj_on_of_nodup_map h.unique hmem hl (hpid.trans hlpid.symm)
  rw [hrest (hdead r hmem hltgid), mem_filter, mem_eraseIdx_iff_getElem?]
  constructor
  · rintro ⟨⟨m, hne, hm⟩, hkept⟩
    refine ⟨mem_of_getElem? hm, fun htgid => ?_⟩
    have hppid : p.pid ≠ g := by
      intro hpg
      have hi : (k.procs.map (·.pid))[i]? = some g := by rw [List.getElem?_map, hr, ← hpid]; rfl
      have hm' : (k.procs.map (·.pid))[m]? = some g := by rw [List.getElem?_map, hm, ← hpg]; rfl
      obtain ⟨hlt, -⟩ := List.getElem?_eq_some_iff.mp hm'
      exact hne ((List.getElem?_inj hlt h.unique).mp (hm'.trans hi.symm))
    have := h.threads p (mem_of_getElem? hm) htgid hppid
    simp [this, htgid, hltgid] at hkept
  · rintro ⟨hp, htgid⟩
    obtain ⟨m, hm⟩ := mem_iff_getElem?.mp hp
    refine ⟨⟨m, ?_, hm⟩, by simp [hltgid, htgid]⟩
    rintro rfl
    exact htgid (Option.some.inj (hm.symm.trans hr) ▸ hltgid)

lemma reaped (h : Grouped k g) (hdead : ∀ p ∈ k.procs, p.tgid = g → p.state = .dead)
    {status : Int} (hstatus : ∀ p ∈ k.procs, p.pid = g → p.waitStatus = status) :
    GroupReaped g status k where
  reports hpos l hl hpid options guard hopt := by
    obtain ⟨l', hl', hpid', htgid, hthread⟩ := h.leader
    obtain rfl : l' = l := inj_on_of_nodup_map h.unique hl' hl (hpid'.trans hpid.symm)
    have hsame : Grouped { k with pid := l'.parentPid } g := ⟨h.unique, h.leader, h.threads⟩
    rw [hsame.wait4_reports hpos hl hpid hthread rfl (hdead l' hl htgid) hopt, hstatus l' hl hpid]
  once parent pid options guard s hw := by
    have hsame : Grouped { k with pid := parent } g := ⟨h.unique, h.leader, h.threads⟩
    have hrest := hsame.wait4_reaps hdead hw
    obtain ⟨i, r, hr, hpid, hs, -⟩ := Kernel.wait4_reported hw
    refine ⟨hs ▸ hstatus r (mem_of_getElem? hr) hpid, hrest, ?_⟩
    intro parent' pid' options' guard' s' hagain
    obtain ⟨j, q, hq, hqpid, -⟩ := Kernel.wait4_reported hagain
    -- the only entry with this pid was the leader's
    obtain ⟨hqmem, hqtgid⟩ := (hrest q).mp (mem_of_getElem? hq)
    obtain ⟨l, hl, hlpid, hltgid, -⟩ := h.leader
    obtain rfl : q = l := inj_on_of_nodup_map h.unique hqmem hl (hqpid.trans hlpid.symm)
    exact hqtgid hltgid

end Grouped

section Marked

variable {k k' : Kernel} {g : Nat} {d : Death}
  (htable : List.Forall₂ Kin k'.procs (k.procs.map (d.marked k)))
include htable

lemma members_iff : (∀ p ∈ k'.procs, p.tgid = g → p.state = .dead ∧ p.fdTable = []) ↔
    ∀ p ∈ k.procs, p.tgid = g → d.hits k p = true ∨ p.state = .dead ∧ p.fdTable = [] := by
  refine (forall_mem_marked htable fun q p hqp => by rw [hqp.tgid, hqp.dead, hqp.fds]).trans ?_
  refine forall₂_congr fun p _ => ?_
  obtain ⟨-, htgid, -, -, -, hstate, hfds⟩ := Death.marked_fields k d p
  rw [htgid, hstate, hfds, or_and_left]

lemma leader_iff : (∀ p ∈ k'.procs, p.pid = g → p.waitStatus = d.status) ↔
    ∀ p ∈ k.procs, p.pid = g → d.marks k p = true ∨ p.waitStatus = d.status := by
  refine (forall_mem_marked htable fun q p hqp => by rw [hqp.pid, hqp.status]).trans ?_
  refine forall₂_congr fun p _ => ?_
  obtain ⟨hpid, -, -, -, hstatus, -⟩ := Death.marked_fields k d p
  rw [hpid, hstatus]
  cases d.marks k p <;> simp

lemma children_iff : (∀ p ∈ k'.procs, p.isThread = false →
    ∀ m ∈ k'.procs, m.tgid = g → p.parentPid = m.pid → p.parentPid = 1) ↔
    ∀ p ∈ k.procs, p.isThread = false → ∀ m ∈ k.procs, m.tgid = g →
      p.parentPid = m.pid → p.parentPid = 1 ∨
        d.leaves k p.parentPid = true ∧ (k.procs.any fun q => q.pid = 1) = true := by
  have hinner : ∀ n : Nat, (∀ m ∈ k'.procs, m.tgid = g → n = m.pid → n = 1) ↔
      ∀ m ∈ k.procs, m.tgid = g → n = m.pid → n = 1 := by
    intro n
    refine (forall_mem_marked htable fun q p hqp => by rw [hqp.tgid, hqp.pid]).trans ?_
    refine forall₂_congr fun m _ => ?_
    obtain ⟨hpid, htgid, -⟩ := Death.marked_fields k d m
    rw [hpid, htgid]
  simp only [hinner]
  refine (forall_mem_marked htable fun q p hqp => by rw [hqp.thread, hqp.parent]).trans ?_
  refine forall₂_congr fun p _ => ?_
  obtain ⟨-, -, hthread, hparent, -⟩ := Death.marked_fields k d p
  rw [hthread, hparent]
  refine forall_congr' fun hno => ?_
  unfold adopted
  by_cases hadopt : (k.procs.any fun p => p.pid = 1) = true ∧ p.isThread = false ∧
      d.leaves k p.parentPid = true ∧ p.parentPid ≠ 1
  · rw [if_pos hadopt]
    exact iff_of_true (fun _ _ _ _ => rfl) fun _ _ _ _ => .inr ⟨hadopt.2.2.1, hadopt.1⟩
  rw [if_neg hadopt]
  refine forall₂_congr fun m _ => forall₂_congr fun _ _ => ?_
  refine ⟨.inl, fun h => ?_⟩
  by_contra hne
  rcases h with hone | ⟨hleaves, hinit⟩
  · exact hne hone
  · exact hadopt ⟨hinit, hno, hleaves, hne⟩

end Marked

/-- A fatal event ends the whole group exactly if every member is hit by it or is dead with its
descriptors closed already, the leader is one of those that get the status, and no member but
those the event names has children. -/
theorem group_ends_iff (k : Kernel) (g : Nat) (d : Death) (hg : Grouped k g)
    (hd : d.Strikes k g) : GroupEnded g d (k.step d.event) ↔ d.EndsGroup k g := by
  obtain ⟨l, hl, hlpid, -⟩ := hg.leader
  have htable := Kernel.death_table hg.unique hd (hlpid ▸ hg.unique.getProcess_eq hl)
  constructor
  · intro h
    exact ⟨(members_iff htable).mp fun p hp hpg => ⟨h.dead p hp hpg, h.closed p hp hpg⟩,
      (leader_iff htable).mp h.status, (children_iff htable).mp h.children⟩
  · intro h
    have hends := (members_iff htable).mpr h.members
    have hdead : ∀ p ∈ (k.step d.event).procs, p.tgid = g → p.state = .dead :=
      fun p hp hpg => (hends p hp hpg).1
    have hleader := (leader_iff htable).mpr h.leader
    exact ⟨hdead, fun p hp hpg => (hends p hp hpg).2, hleader, (children_iff htable).mpr h.children,
      (hg.of_marked htable).reaped hdead hleader⟩

def threaded (current : Nat) : Kernel :=
  { Kernel.boot with
    procs := [(Process.fresh 1 0 1).setState (if current = 1 then .running else .waiting),
      (Process.fresh 2 1 2).setState (if current = 2 then .running else .runnable),
      (Process.threadChild (Process.fresh 2 1 2) 3 3).setState .runnable]
    pid := current }

lemma grouped_threaded (current : Nat) : Grouped (threaded current) 2 := by
  refine ⟨?_, ⟨_, mem_cons_of_mem _ mem_cons_self, rfl, rfl, rfl⟩, fun p hp htgid hne => ?_⟩
  · show [1, 2, 3].Nodup
    decide
  · simp only [threaded, mem_cons, not_mem_nil, or_false] at hp
    rcases hp with rfl | rfl | rfl
    · cases htgid
    · exact absurd rfl hne
    · rfl

/-- `exit_group` by the leader ends both threads. -/
theorem group_ends_iff_threaded :
    (Death.exitGroup 0).EndsGroup (threaded 2) 2 ∧
      GroupEnded 2 (.exitGroup 0) ((threaded 2).step (Death.exitGroup 0).event) := by
  have h : (Death.exitGroup 0).EndsGroup (threaded 2) 2 := ⟨by decide, by decide, by decide⟩
  exact ⟨h, (group_ends_iff (threaded 2) 2 (.exitGroup 0) (grouped_threaded 2) rfl).mpr h⟩

/-- SIGKILL to the leader leaves the other thread runnable with its descriptors open, and `wait4`
in the parent then takes the leader and the runnable thread out of the table. -/
theorem kill_leaves_thread :
    let k := (threaded 1).step (Death.kill 2 9).event
    (∃ p ∈ k.procs, p.tgid = 2 ∧ p.state = .runnable ∧ p.fdTable = standardFdTable) ∧
    (k.wait4 (-1) 0 true).1 = .reported 2 9 ∧ (k.wait4 (-1) 0 true).2.procs.map (·.pid) = [1] := by
  decide

end Twilight.Proc

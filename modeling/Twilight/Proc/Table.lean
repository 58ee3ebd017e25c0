/-
What the events do to the process table, position by position. A relation between a process
before and after that every small update respects is respected by every event built from them.
-/
import Twilight.Proc.Kernel

namespace Twilight.Proc

open Timer List Kernel

/-! ## Lists related position by position -/

section Lists

variable {α : Type*} {R : α → α → Prop} {l l' : List α} {f : α → α}

lemma forall₂_trans (htrans : ∀ x y z, R x y → R y z → R x z) {l'' : List α}
    (h : List.Forall₂ R l l') (h' : List.Forall₂ R l' l'') : List.Forall₂ R l l'' := by
  induction h generalizing l'' with
  | nil => exact h'
  | cons hxy _ ih =>
    cases h' with
    | cons hyz htail => exact .cons (htrans _ _ _ hxy hyz) (ih htail)

lemma forall₂_modify_left {i : Nat} (hl : List.Forall₂ R l l')
    (h : ∀ x y, l[i]? = some x → l'[i]? = some y → R x y → R (f x) y) :
    List.Forall₂ R (l.modify i f) l' := by
  induction hl generalizing i with
  | nil => simp
  | cons hxy hrest ih =>
    cases i with
    | zero =>
      exact .cons (h _ _ rfl rfl hxy) hrest
    | succ i =>
      exact .cons hxy (ih fun x y hx hy => h x y hx hy)

lemma forall₂_refl (hrefl : ∀ x, R x x) (l : List α) : List.Forall₂ R l l :=
  forall₂_same.mpr fun x _ => hrefl x

lemma forall₂_map_left (hl : List.Forall₂ R l l')
    (h : ∀ x, ∀ y ∈ l', R x y → R (f x) y) : List.Forall₂ R (l.map f) l' := by
  induction hl with
  | nil => exact .nil
  | cons hxy _ ih =>
    refine .cons (h _ _ mem_cons_self hxy) (ih fun x y hy => ?_)
    exact h x y (mem_cons_of_mem _ hy)

lemma exists_of_mem_forall₂ (h : List.Forall₂ R l l') {x : α} (hx : x ∈ l) :
    ∃ y ∈ l', R x y := by
  induction h with
  | nil => cases hx
  | cons hxy _ ih =>
    obtain rfl | hx := mem_cons.mp hx
    · exact ⟨_, mem_cons_self, hxy⟩
    · obtain ⟨y, hy, hR⟩ := ih hx
      exact ⟨y, mem_cons_of_mem _ hy, hR⟩

lemma modify_append_left (l' : List α) {i : Nat} (h : i < l.length) :
    (l ++ l').modify i f = l.modify i f ++ l' := by
  induction l generalizing i with
  | nil => cases h
  | cons x l ih =>
    cases i with
    | zero => rfl
    | succ i =>
      rw [cons_append, modify_succ_cons, modify_succ_cons, cons_append, ih (by simpa using h)]

lemma modify_append_last (l : List α) (x : α) : (l ++ [x]).modify l.length f = l ++ [f x] := by
  induction l with
  | nil => rfl
  | cons y l ih =>
    rw [cons_append, length_cons, modify_succ_cons, ih, cons_append]

end Lists

/-! ## Updates of the table -/

/-- A relation from a changed process to the process before that holds across every wakeup and
every signal that is noted. -/
structure Still (R : Process → Process → Prop) : Prop where
  refl : ∀ p, R p p
  trans : ∀ p q r, R p q → R q r → R p r
  pid : ∀ q p, R q p → q.pid = p.pid
  tgid : ∀ q p, R q p → q.tgid = p.tgid
  queueSignal : ∀ p sig, R (p.queueSignal sig) p
  adopt : ∀ p : Process, R { p with parentPid := 1 } p
  wake : ∀ p, R p.wake p

/-- The same, and also across the exit of a child and the updates that move a process between
running and runnable. -/
structure Calm (R : Process → Process → Prop) : Prop extends Still R where
  childExited : ∀ p, R p.childExited p
  switchOut : ∀ p, R p.switchOut p
  switchIn : ∀ p, p.state = .runnable → R (p.setState .running) p

variable {procs : List Process} {pid : Nat} {p : Process}

lemma findProcessIndex_getElem? {i : Nat}
    (h : findProcessIndex procs pid = some i) : procs[i]? = getProcess procs pid := by
  obtain ⟨hlt, hpid, hbefore⟩ := findIdx?_eq_some_iff_getElem.mp h
  rw [getElem?_eq_getElem hlt]
  symm
  unfold getProcess
  rw [find?_eq_some_iff_getElem]
  exact ⟨hpid, i, hlt, rfl, fun j hj => by simpa using hbefore j hj⟩

lemma getProcess_pid (h : getProcess procs pid = some p) : p.pid = pid := by
  simpa using find?_some h

lemma getProcess_updateProcess
    {f : Process → Process} (hp : getProcess procs pid = some p) (hf : (f p).pid = pid) :
    getProcess (updateProcess procs pid f) pid = some (f p) := by
  unfold getProcess updateProcess findProcessIndex at *
  induction procs with
  | nil => cases hp
  | cons q rest ih =>
    rw [findIdx?_cons]
    by_cases hq : q.pid = pid
    · rw [find?_cons_of_pos (by simpa using hq)] at hp
      obtain rfl := Option.some.inj hp
      simp only [hq, decide_true, if_true]
      rw [modify_zero_cons, find?_cons_of_pos (by simpa using hf)]
    rw [find?_cons_of_neg (by simpa using hq)] at hp
    have hrest := ih hp
    simp only [hq, decide_false, Bool.false_eq_true, if_false]
    cases hi : rest.findIdx? (fun p => decide (p.pid = pid)) with
    | none =>
      rw [hi] at hrest
      rw [Option.map_none, find?_cons_of_neg (by simpa using hq)]
      exact hrest
    | some i =>
      rw [hi] at hrest
      show find? _ ((q :: rest).modify (i + 1) f) = _
      rw [modify_succ_cons, find?_cons_of_neg (by simpa using hq)]
      exact hrest

lemma mem_updateProcess {f : Process → Process}
    {q : Process} (hq : q ∈ updateProcess procs pid f) :
    q ∈ procs ∨ ∃ p, getProcess procs pid = some p ∧ q = f p := by
  unfold updateProcess at hq
  split at hq
  · exact Or.inl hq
  next i hi =>
  obtain ⟨j, hj, rfl⟩ := mem_iff_getElem.mp hq
  rw [getElem_modify]
  split
  · next hij =>
    subst hij
    refine Or.inr ⟨_, ?_, rfl⟩
    rw [← findProcessIndex_getElem? hi, getElem?_eq_getElem]
  · exact Or.inl (getElem_mem _)

lemma exists_mem_updateProcess (hp : p ∈ procs) (pid : Nat)
    (f : Process → Process) : p ∈ updateProcess procs pid f ∨ f p ∈ updateProcess procs pid f := by
  unfold updateProcess
  split
  · exact .inl hp
  next i hi =>
  obtain ⟨j, hj⟩ := mem_iff_getElem?.mp hp
  by_cases hij : i = j
  · subst hij
    refine .inr (mem_of_getElem? (i := i) ?_)
    rw [getElem?_modify_eq, hj]
    rfl
  · refine .inl (mem_of_getElem? (i := j) ?_)
    rw [getElem?_modify_ne _ _ hij, hj]

section Table

variable {R : Process → Process → Prop} {procs procs₀ : List Process}

section

variable (hR : Still R)
include hR

section

variable (h : List.Forall₂ R procs procs₀)
include h

lemma findProcessIndex_congr (pid : Nat) :
    findProcessIndex procs pid = findProcessIndex procs₀ pid := by
  unfold findProcessIndex
  induction h with
  | nil => rfl
  | cons hqp _ ih =>
    rw [findIdx?_cons, findIdx?_cons, ih, hR.pid _ _ hqp]

lemma updateProcess_rel {pid : Nat} {f : Process → Process}
    (hf : ∀ q p, getProcess procs₀ pid = some p → R q p → R (f q) p) :
    List.Forall₂ R (updateProcess procs pid f) procs₀ := by
  unfold updateProcess
  split
  · exact h
  next i hi =>
  rw [findProcessIndex_congr hR h] at hi
  apply forall₂_modify_left h
  intro q p _ hp
  rw [findProcessIndex_getElem? hi] at hp
  exact hf q p hp

lemma reparentChildren_rel (pid : Nat) :
    List.Forall₂ R (reparentChildren procs pid) procs₀ := by
  have hadopt : List.Forall₂ R
      (procs.map fun p => if adoptedBy pid p then { p with parentPid := 1 } else p) procs₀ := by
    apply forall₂_map_left h
    intro q p _ hqp
    split
    · exact hR.trans _ _ _ (hR.adopt q) hqp
    · exact hqp
  unfold reparentChildren
  split
  · exact h
  · dsimp only
    split
    · exact updateProcess_rel hR hadopt fun q p _ hqp => hR.trans _ _ _ (hR.queueSignal q _) hqp
    · exact hadopt

lemma notifyParent_rel (pid : Nat) :
    List.Forall₂ R (notifyParentForChildEvent procs pid) procs₀ :=
  updateProcess_rel hR h fun q _ _ hqp => hR.trans _ _ _ (hR.queueSignal q _) hqp

end

lemma killOne_rel {sig target : Nat} {acc : List Process × List Nat × List Nat}
    (h : List.Forall₂ R acc.1 procs₀)
    (hsig : ∀ p, getProcess procs₀ target = some p → ∀ q, R q p → R (q.applySignal sig).1 p) :
    List.Forall₂ R (killOne sig acc target).1 procs₀ := by
  have hupdate := updateProcess_rel hR h fun q p hp => hsig p hp q
  unfold killOne
  split
  · exact h
  · dsimp only
    split
    · exact hupdate
    · exact hupdate

lemma signalTargets_rel {sig : Nat} {targets : List Nat}
    (hsig : ∀ t ∈ targets, ∀ p, getProcess procs t = some p → ∀ q, R q p →
      R (q.applySignal sig).1 p) :
    List.Forall₂ R (signalTargets procs sig targets) procs := by
  have hloop : List.Forall₂ R (targets.foldl (killOne sig) (procs, [], [])).1 procs :=
    foldlRecOn targets (killOne sig) (forall₂_refl hR.refl procs)
      (motive := fun acc => List.Forall₂ R acc.1 procs)
      fun acc h t ht => killOne_rel hR h (hsig t ht)
  apply foldlRecOn (motive := fun l => List.Forall₂ R l procs)
  · apply foldlRecOn (motive := fun l => List.Forall₂ R l procs)
    · exact hloop
    · exact fun l h pid _ => reparentChildren_rel hR h pid
  · exact fun l h pid _ => notifyParent_rel hR h pid

end

end Table

@[simp]
lemma Kernel.armCurrentLocked_procs (k : Kernel) (deadlineNs : Nat) (kind : DeadlineKind)
    (granted : Option Nat) : (k.armCurrentLocked deadlineNs kind granted).2.procs = k.procs := by
  unfold armCurrentLocked
  dsimp only
  split
  · rfl
  · split <;> rfl

@[simp]
lemma Kernel.armCurrentLocked_births (k : Kernel) (deadlineNs : Nat) (kind : DeadlineKind)
    (granted : Option Nat) : (k.armCurrentLocked deadlineNs kind granted).2.births = k.births := by
  unfold armCurrentLocked
  dsimp only
  split
  · rfl
  · split <;> rfl

/-! ## Events that leave the timers alone -/

/-- The table changed by `R` at every position and nothing else did but the current process. -/
structure Kernel.Keeps (R : Process → Process → Prop) (k k' : Kernel) : Prop where
  procs : List.Forall₂ R k'.procs k.procs
  timers : k'.timers = k.timers
  nextPid : k'.nextPid = k.nextPid
  births : k'.births = k.births

namespace Kernel

variable {R : Process → Process → Prop} {k k' k'' : Kernel}

lemma Keeps.refl (hR : Still R) (k : Kernel) : Keeps R k k :=
  ⟨forall₂_refl hR.refl _, rfl, rfl, rfl⟩

lemma Keeps.trans (hR : Still R) (h : Keeps R k k') (h' : Keeps R k' k'') : Keeps R k k'' where
  procs := forall₂_trans hR.trans h'.procs h.procs
  timers := h'.timers.trans h.timers
  nextPid := h'.nextPid.trans h.nextPid
  births := h'.births.trans h.births

lemma Keeps.imp {S : Process → Process → Prop} (h : Keeps R k k') (hRS : ∀ q p, R q p → S q p) :
    Keeps S k k' :=
  { h with procs := h.procs.imp hRS }

lemma update_keeps (hR : Still R) {pid : Nat} {f : Process → Process}
    (hf : ∀ p, getProcess k.procs pid = some p → ∀ q, R q p → R (f q) p) :
    Keeps R k (k.update pid f) :=
  ⟨updateProcess_rel hR (forall₂_refl hR.refl _) fun q p hp => hf p hp q, rfl, rfl, rfl⟩

lemma switchByIndexGuarded_keeps (hR : Calm R) (k : Kernel) (cur next : Nat) :
    Keeps R k (k.switchByIndexGuarded cur next).2 := by
  unfold switchByIndexGuarded
  split
  · exact .refl hR.toStill k
  next hne =>
  split
  · exact .refl hR.toStill k
  split
  · exact .refl hR.toStill k
  next target htarget =>
  split
  · exact .refl hR.toStill k
  next hrun =>
  have hswitch : List.Forall₂ R
      ((k.procs.modify cur (·.switchOut)).modify next (·.setState .running)) k.procs := by
    apply forall₂_modify_left
    · apply forall₂_modify_left (forall₂_refl hR.refl _)
      intro q p _ _ hqp
      exact hR.trans _ _ _ (hR.switchOut q) hqp
    · intro q p hq _ hqp
      rw [getElem?_modify_ne _ _ hne, htarget, Option.some.injEq] at hq
      subst hq
      exact hR.trans _ _ _ (hR.switchIn _ (by simpa using hrun)) hqp
  dsimp only
  split
  · exact ⟨hswitch, rfl, rfl, rfl⟩
  · exact ⟨hswitch, rfl, rfl, rfl⟩

lemma scheduleNow_keeps (hR : Calm R) (k : Kernel) (guard : Bool) :
    Keeps R k (k.scheduleNow guard).2 := by
  unfold scheduleNow
  split
  · exact .refl hR.toStill k
  split
  · exact .refl hR.toStill k
  split
  · exact .refl hR.toStill k
  split
  · exact .refl hR.toStill k
  · exact switchByIndexGuarded_keeps hR k _ _

lemma switchAfterExit_keeps (hR : Calm R) (k : Kernel) (cur parentPid : Nat) :
    Keeps R k (k.switchAfterExit cur parentPid) := by
  unfold switchAfterExit
  dsimp only
  split
  · exact .refl hR.toStill k
  · exact switchByIndexGuarded_keeps hR k _ _

lemma wakeProcess_keeps (hR : Still R) (k : Kernel) (pid : Nat) : Keeps R k (k.wakeProcess pid) :=
  update_keeps hR fun _ _ q hqp => hR.trans _ _ _ (hR.wake q) hqp

lemma queueSignal_keeps (hR : Still R) (k : Kernel) (pid sig : Nat) :
    Keeps R k (k.queueSignal pid sig) :=
  .trans hR (update_keeps hR fun _ _ q hqp => hR.trans _ _ _ (hR.queueSignal q sig) hqp)
    (wakeProcess_keeps hR _ _)

lemma leaveTable_rel (hR : Still R) {cur : Nat} (hcur : findProcessIndex k.procs k.pid = some cur)
    {code status : Int} {parentPid : Nat}
    (hdie : ∀ p, getProcess k.procs k.pid = some p → ∀ q, R q p →
      R ((q.die code).setWaitStatus status) p)
    (hchild : ∀ p, getProcess k.procs parentPid = some p → ∀ q, R q p → R q.childExited p) :
    Keeps R k (k.leaveTable cur code status parentPid) := by
  refine ⟨?_, rfl, rfl, rfl⟩
  apply updateProcess_rel hR
  · apply forall₂_modify_left (reparentChildren_rel hR (forall₂_refl hR.refl k.procs) _)
    intro q p _ hp
    rw [findProcessIndex_getElem? hcur] at hp
    exact hdie p hp q
  · intro q p hp hqp
    exact hchild p hp q hqp

lemma exit_keeps (hR : Calm R) (k : Kernel) (guard : Bool) (code : Int)
    (hdie : ∀ p, getProcess k.procs k.pid = some p → ∀ q, R q p → R (q.die code) p)
    (hstatus : ∀ p, getProcess k.procs k.pid = some p → p.isThread = false → ∀ q, R q p →
      R ((q.die code).setWaitStatus (code % 0x100 * 0x100)) p) :
    Keeps R k (k.exit guard code) := by
  unfold exit
  split
  · exact .refl hR.toStill k
  split
  · next cur p hcur hp =>
    split
    · have hdead : Keeps R k { k with procs := k.procs.modify cur (·.die code) } := by
        refine ⟨?_, rfl, rfl, rfl⟩
        apply forall₂_modify_left (forall₂_refl hR.refl _)
        intro q p' _ hp'
        rw [findProcessIndex_getElem? hcur] at hp'
        exact hdie p' hp' q
      dsimp only
      split
      · exact hdead
      · exact .trans hR.toStill hdead (switchByIndexGuarded_keeps hR _ _ _)
    · next hthread =>
      refine .trans hR.toStill (leaveTable_rel hR.toStill hcur (fun p' hp' => ?_)
        fun _ _ q hqp => hR.trans _ _ _ (hR.childExited q) hqp) (switchAfterExit_keeps hR _ _ _)
      rw [hp, Option.some.injEq] at hp'
      subst hp'
      exact hstatus p hp (by simpa using hthread)
  · exact .refl hR.toStill k

lemma terminate_keeps (hR : Calm R) (k : Kernel) (guard : Bool) (sig : Int)
    (hdie : ∀ p, getProcess k.procs k.pid = some p → ∀ q, R q p →
      R ((q.die (128 + sig)).setWaitStatus (sig % 0x80)) p) :
    Keeps R k (k.terminateCurrentBySignal guard sig) := by
  unfold terminateCurrentBySignal
  split
  · exact .refl hR.toStill k
  split
  · next cur p hcur hp =>
    exact .trans hR.toStill (leaveTable_rel hR.toStill hcur hdie
      fun _ _ q hqp => hR.trans _ _ _ (hR.childExited q) hqp) (switchAfterExit_keeps hR _ _ _)
  · exact .refl hR.toStill k

lemma exitGroup_keeps (hR : Calm R) (k : Kernel) (guard : Bool) (code : Int)
    (hdie : ∀ p, getProcess k.procs k.pid = some p → ∀ q ∈ k.procs, q.tgid = p.tgid →
      ∀ r, R r q → R (r.die code) q)
    (hstatus : ∀ p l, getProcess k.procs k.pid = some p → getProcess k.procs p.tgid = some l →
      ∀ q, R q l → R (q.setWaitStatus (code % 0x100 * 0x100)) l) :
    Keeps R k (k.exitGroup guard code) := by
  unfold exitGroup
  split
  · exact .refl hR.toStill k
  split
  · next cur p hcur hp =>
    split
    · next leader l hleader hl =>
      refine .trans hR.toStill ?_ (switchAfterExit_keeps hR _ _ _)
      refine ⟨?_, rfl, rfl, rfl⟩
      unfold leaveGroup
      apply notifyParent_rel hR.toStill
      apply forall₂_modify_left
      · apply forall₂_map_left (reparentChildren_rel hR.toStill (forall₂_refl hR.refl _) _)
        intro r q hq hrq
        split
        · next htgid => exact hdie p hp q hq (by rw [← hR.tgid _ _ hrq, htgid]) r hrq
        · exact hrq
      · intro q l' _ hl'
        rw [findProcessIndex_getElem? hleader] at hl'
        exact hstatus p l' hp hl' q
    · exact .refl hR.toStill k
  · exact .refl hR.toStill k

lemma kill_keeps (hR : Calm R) (k : Kernel) (pid sig : Int) (guard : Bool)
    (hsig : 0 < sig → ∀ t ∈ k.killTargets pid, ∀ p, getProcess k.procs t.pid = some p →
      ∀ q, R q p → R (q.applySignal sig.toNat).1 p) :
    Keeps R k (k.kill pid sig guard).2 := by
  unfold kill
  split
  · exact .refl hR.toStill k
  next hvalid =>
  split
  · exact .refl hR.toStill k
  dsimp only
  split
  · exact .refl hR.toStill k
  split
  · exact .refl hR.toStill k
  next hzero =>
  have hloops : Keeps R k
      { k with procs := signalTargets k.procs sig.toNat ((k.killTargets pid).map (·.pid)) } := by
    refine ⟨signalTargets_rel hR.toStill ?_, rfl, rfl, rfl⟩
    intro t ht
    obtain ⟨p, hp, rfl⟩ := List.mem_map.mp ht
    exact hsig (by omega) p hp
  split
  · exact .trans hR.toStill hloops (scheduleNow_keeps hR _ _)
  · exact hloops

end Kernel

end Twilight.Proc

/-
A timer entry wakes only the wait that pushed it. Tokens are minted once, a process publishes
only a token minted for it, and every other event can only end a published wait.
-/
import Twilight.Proc.Table

namespace Twilight.Proc

open Timer List

/-- The change did not start a wait: what `q` still publishes `p` published before. -/
structure Quiet (q p : Process) : Prop where
  pid : q.pid = p.pid
  tgid : q.tgid = p.tgid
  birth : q.birth = p.birth
  wait : q.waitToken = none ∨ q.waitToken = p.waitToken ∧ q.waitDeadlineNs = p.waitDeadlineNs

namespace Quiet

lemma of_same {q p : Process} (hpid : q.pid = p.pid) (htgid : q.tgid = p.tgid)
    (hbirth : q.birth = p.birth) (htoken : q.waitToken = p.waitToken)
    (hdeadline : q.waitDeadlineNs = p.waitDeadlineNs) : Quiet q p :=
  ⟨hpid, htgid, hbirth, Or.inr ⟨htoken, hdeadline⟩⟩

variable (p : Process)

lemma refl : Quiet p p := of_same rfl rfl rfl rfl rfl

lemma trans {p q r : Process} (h : Quiet p q) (h' : Quiet q r) : Quiet p r where
  pid := h.pid.trans h'.pid
  tgid := h.tgid.trans h'.tgid
  birth := h.birth.trans h'.birth
  wait := by
    obtain hnone | ⟨ht, hd⟩ := h.wait
    · exact Or.inl hnone
    · obtain hnone | ⟨ht', hd'⟩ := h'.wait
      · exact Or.inl (ht.trans hnone)
      · exact Or.inr ⟨ht.trans ht', hd.trans hd'⟩

lemma queueSignal (sig : Nat) : Quiet (p.queueSignal sig) p := by
  unfold Process.queueSignal
  split
  · exact refl p
  dsimp only
  split
  · exact of_same rfl rfl rfl rfl rfl
  · exact of_same rfl rfl rfl rfl rfl
  · split
    · exact of_same rfl rfl rfl rfl rfl
    · exact ⟨rfl, rfl, rfl, Or.inl rfl⟩
  · split
    · exact of_same rfl rfl rfl rfl rfl
    · exact ⟨rfl, rfl, rfl, Or.inl rfl⟩
  · exact of_same rfl rfl rfl rfl rfl

lemma wake : Quiet p.wake p := by
  unfold Process.wake
  split <;> exact of_same rfl rfl rfl rfl rfl

lemma setState (s : ProcessState) : Quiet (p.setState s) p := of_same rfl rfl rfl rfl rfl

lemma childExited : Quiet p.childExited p := by
  apply trans _ (queueSignal p sigchld)
  unfold Process.childExited
  dsimp only
  split <;> exact of_same rfl rfl rfl rfl rfl

lemma switchOut : Quiet p.switchOut p := by
  unfold Process.switchOut
  split <;> exact of_same rfl rfl rfl rfl rfl

lemma calm : Calm Quiet where
  refl := refl
  trans _ _ _ h h' := h.trans h'
  pid _ _ h := h.pid
  tgid _ _ h := h.tgid
  queueSignal := queueSignal
  adopt _ := of_same rfl rfl rfl rfl rfl
  wake := wake
  childExited := childExited
  switchOut := switchOut
  switchIn p _ := setState p _

lemma still : Still Quiet := calm.toStill

lemma die (code : Int) : Quiet (p.die code) p := ⟨rfl, rfl, rfl, Or.inl rfl⟩

lemma setWaitStatus (status : Int) : Quiet (p.setWaitStatus status) p :=
  of_same rfl rfl rfl rfl rfl

lemma invalidateWaitToken : Quiet p.invalidateWaitToken p := ⟨rfl, rfl, rfl, Or.inl rfl⟩

lemma cancel (token : WaitToken) : Quiet (p.cancel token) p := by
  unfold Process.cancel
  split
  · exact ⟨rfl, rfl, rfl, Or.inl rfl⟩
  · exact refl p

lemma applySignal (sig : Nat) : Quiet (p.applySignal sig).1 p := by
  unfold Process.applySignal
  split
  · exact refl p
  split
  · dsimp only
    apply trans (queueSignal _ _)
    split <;> exact of_same rfl rfl rfl rfl rfl
  split
  · exact refl p
  split
  · exact queueSignal p sig
  split
  · exact of_same rfl rfl rfl rfl rfl
  split
  · exact of_same rfl rfl rfl rfl rfl
  · exact queueSignal p sig

end Quiet

/-! ## The invariant -/

/-- What `p` publishes was pushed for `p` itself, with the same deadline. -/
def Published (armed : List (DeadlineEntry × Option Nat)) (p : Process) : Prop :=
  ∀ t, p.waitToken = some t → ∃ e, (e, some p.birth) ∈ armed ∧ e.token = t ∧ e.pid = p.pid ∧
    p.waitDeadlineNs = some e.deadlineNs

lemma Published.of_quiet {armed : List (DeadlineEntry × Option Nat)} {q p : Process}
    (h : Published armed p) (hq : Quiet q p) : Published armed q := by
  intro t ht
  obtain hnone | ⟨htoken, hdeadline⟩ := hq.wait
  · rw [hnone] at ht
    cases ht
  · obtain ⟨e, he, het, hpid, hd⟩ := h t (by rw [← htoken, ht])
    exact ⟨e, by rwa [hq.birth], het, by rw [hpid, hq.pid], by rw [hdeadline, hd]⟩

lemma Published.mono {armed armed' : List (DeadlineEntry × Option Nat)} {p : Process}
    (h : Published armed p) (hsub : armed ⊆ armed') : Published armed' p := by
  intro t ht
  obtain ⟨e, he, hrest⟩ := h t ht
  exact ⟨e, hsub he, hrest⟩

/-- A wakeup by deadline of a process: it published the entry's token and deadline, the entry was
pushed for it, and the deadline had come. -/
structure WokenOwn (armed : List (DeadlineEntry × Option Nat)) (due : Due) (p : Process) :
    Prop where
  pid : p.pid = due.entry.pid
  token : p.waitToken = some due.entry.token
  deadline : p.waitDeadlineNs = some due.entry.deadlineNs
  state : p.state = .sleeping ∧ due.entry.kind = .sleep ∨
    p.state = .awaitingIo ∧ due.entry.kind = .ioTimeout
  expired : due.entry.deadlineNs ≤ due.nowNs
  pushed : (due.entry, some p.birth) ∈ armed

namespace Kernel

def batchEntries (k : Kernel) : Multiset DeadlineEntry := k.timers.batch.map Due.entry

def wokenEntries (k : Kernel) : Multiset DeadlineEntry := k.timers.woken.map fun w => w.1.entry

def armedEntries (k : Kernel) : Multiset DeadlineEntry := k.timers.armed.map Prod.fst

/-- Tokens are minted once, every pushed entry is in at most one place, and what processes
publish was pushed for them. -/
structure Honest (k : Kernel) : Prop where
  minted : (k.timers.armed.map fun x => x.1.token).Nodup
  below : ∀ x ∈ k.timers.armed, x.1.token.raw < k.timers.queue.counter
  accounted : k.timers.queue.entries + k.batchEntries + k.wokenEntries ≤ k.armedEntries
  due : ∀ x ∈ k.timers.batch, x.entry.deadlineNs ≤ x.nowNs
  published : ∀ p ∈ k.procs, Published k.timers.armed p
  woken : ∀ w ∈ k.timers.woken, WokenOwn k.timers.armed w.1 w.2

lemma boot_honest : boot.Honest where
  minted := nodup_nil
  below := by simp [boot]
  accounted := le_refl _
  due := by simp [boot]
  published := by
    intro p hp t ht
    obtain rfl := mem_singleton.mp hp
    cases ht
  woken := by simp [boot]

variable {k k' : Kernel} {p : Process} {f : Process → Process}

lemma Honest.of_procs (h : k.Honest) (htimers : k'.timers = k.timers)
    (hprocs : ∀ q ∈ k'.procs, q.waitToken = none ∨ ∃ p ∈ k.procs, Quiet q p) : k'.Honest where
  minted := by rw [htimers]; exact h.minted
  below := by rw [htimers]; exact h.below
  accounted := by
    have := h.accounted
    simp only [batchEntries, wokenEntries, armedEntries, htimers] at this ⊢
    exact this
  due := by rw [htimers]; exact h.due
  published := by
    rw [htimers]
    intro q hq
    obtain hnone | ⟨p, hp, hqp⟩ := hprocs q hq
    · intro t ht
      rw [hnone] at ht
      cases ht
    · exact (h.published p hp).of_quiet hqp
  woken := by rw [htimers]; exact h.woken

lemma Honest.of_rel (h : k.Honest) (htimers : k'.timers = k.timers)
    (hprocs : List.Forall₂ Quiet k'.procs k.procs) : k'.Honest :=
  h.of_procs htimers fun _ hq => Or.inr (exists_of_mem_forall₂ hprocs hq)

lemma Honest.of_keeps (h : k.Honest) (hk : Keeps Quiet k k') : k'.Honest :=
  h.of_rel hk.timers hk.procs

lemma Honest.pushBack (h : k.Honest) (hp : p.waitToken = none) : (k.pushBack p).Honest := by
  apply h.of_procs (show (k.pushBack p).timers = k.timers from rfl)
  intro q hq
  obtain hq | hq := mem_append.mp hq
  · exact Or.inr ⟨q, hq, Quiet.refl q⟩
  · obtain rfl := mem_singleton.mp hq
    exact Or.inl hp

/-! ## Arming -/

lemma armCurrentLocked_cases (k : Kernel) (deadlineNs : Nat) (kind : DeadlineKind)
    (granted : Option Nat) :
    (∃ q', k.armCurrentLocked deadlineNs kind granted =
        (.exhausted, { k with timers.queue := q' }) ∧
      q'.entries = k.timers.queue.entries ∧ k.timers.queue.counter ≤ q'.counter) ∨
    ∃ q' e, e = ⟨deadlineNs, k.pid, ⟨k.timers.queue.counter⟩, kind⟩ ∧
      k.armCurrentLocked deadlineNs kind granted =
        (⟨k.timers.queue.counter⟩, { k with
          timers.queue := q'
          timers.armed := k.timers.armed ++ [(e, (getProcess k.procs k.pid).map (·.birth))] }) ∧
      k.timers.queue.counter < u64Max ∧
      q'.entries = e ::ₘ k.timers.queue.entries ∧
      q'.counter = k.timers.queue.counter + 1 := by
  unfold armCurrentLocked
  by_cases hmax : k.timers.queue.counter = u64Max
  · left
    simp [TimerQueue.nextToken, hmax]
  have hlt := Nat.lt_of_le_of_ne k.timers.queue.counter_le hmax
  have hne : (⟨k.timers.queue.counter⟩ : WaitToken) ≠ .exhausted := by
    intro h
    exact hmax (congrArg WaitToken.raw h)
  simp only [TimerQueue.nextToken, dif_neg hmax, if_neg hne]
  generalize hq : TimerQueue.mk _ _ (k.timers.queue.counter + 1) _ _ = q
  have hentries : q.entries = k.timers.queue.entries := by rw [← hq]; rfl
  have hcounter : q.counter = k.timers.queue.counter + 1 := by rw [← hq]
  obtain ⟨-, h⟩ | ⟨q', h, hpush, hc⟩ := q.tryReservePush_cases
    ⟨deadlineNs, k.pid, ⟨k.timers.queue.counter⟩, kind⟩ granted
  · rw [h]
    exact Or.inl ⟨q, rfl, hentries, by omega⟩
  · rw [h]
    exact Or.inr ⟨q', _, rfl, rfl, hlt, by rw [hpush, hentries], by rw [hc, hcounter]⟩

lemma Honest.withQueue (h : k.Honest) {q' : TimerQueue}
    (hentries : q'.entries ≤ k.timers.queue.entries)
    (hcounter : k.timers.queue.counter ≤ q'.counter) : { k with timers.queue := q' }.Honest where
  minted := h.minted
  below x hx := lt_of_lt_of_le (h.below x hx) hcounter
  accounted := le_trans (add_le_add_left (add_le_add_left hentries _) _) h.accounted
  due := h.due
  published := h.published
  woken := h.woken

lemma Honest.push (h : k.Honest) {q' : TimerQueue} {e : DeadlineEntry}
    {birth : Option Nat} (htoken : e.token = ⟨k.timers.queue.counter⟩)
    (hentries : q'.entries = e ::ₘ k.timers.queue.entries)
    (hcounter : q'.counter = k.timers.queue.counter + 1) : { k with
      timers.queue := q'
      timers.armed := k.timers.armed ++ [(e, birth)] }.Honest where
  minted := by
    simp only [map_append, map_cons]
    apply List.Nodup.append h.minted (nodup_singleton _)
    rw [disjoint_singleton]
    intro hmem
    obtain ⟨x, hx, hxt⟩ := List.mem_map.mp hmem
    have := h.below x hx
    rw [hxt, htoken] at this
    exact lt_irrefl _ this
  below x hx := by
    simp only [hcounter]
    obtain hx | hx := mem_append.mp hx
    · exact Nat.lt_succ_of_lt (h.below x hx)
    · rw [mem_singleton.mp hx, htoken]
      exact Nat.lt_succ_self _
  accounted := by
    have harmed : (↑((k.timers.armed ++ [(e, birth)]).map Prod.fst) : Multiset DeadlineEntry) =
        e ::ₘ k.armedEntries := by
      rw [map_append, ← Multiset.coe_add, add_comm]
      rfl
    rw [hentries]
    exact le_of_le_of_eq (Multiset.cons_le_cons e h.accounted) harmed.symm
  due := h.due
  published p hp := (h.published p hp).mono (subset_append_left _ _)
  woken w hw := by
    have := h.woken w hw
    exact { this with pushed := mem_append_left _ this.pushed }

lemma Honest.update (h : k.Honest) {pid : Nat}
    (hf : ∀ p ∈ k.procs, getProcess k.procs pid = some p → Published k.timers.armed (f p)) :
    (k.update pid f).Honest := by
  refine { h with published := ?_ }
  intro q hq
  obtain hq | ⟨p, hp, rfl⟩ := mem_updateProcess hq
  · exact h.published q hq
  · exact hf p (mem_of_find?_eq_some hp) hp

lemma Honest.armed (h : k.Honest) (deadlineNs : Nat) (kind : DeadlineKind)
    (granted : Option Nat) : (k.armCurrentLocked deadlineNs kind granted).2.Honest := by
  obtain ⟨q', heq, hentries, hcounter⟩ | ⟨q', e, rfl, heq, -, hentries, hcounter⟩ :=
    k.armCurrentLocked_cases deadlineNs kind granted
  · rw [heq]
    exact h.withQueue (le_of_eq hentries) hcounter
  · rw [heq]
    exact h.push rfl hentries hcounter

lemma armCurrentLocked_published {deadlineNs : Nat} {kind : DeadlineKind}
    {granted : Option Nat} {token : WaitToken}
    (harm : k.armCurrentLocked deadlineNs kind granted = (token, k')) (htoken : token ≠ .exhausted)
    {q : Process} (hp : getProcess k'.procs k.pid = some p) (hpid : q.pid = p.pid)
    (hbirth : q.birth = p.birth) (hqt : q.waitToken = some token)
    (hqd : q.waitDeadlineNs = some deadlineNs) : Published k'.timers.armed q := by
  obtain ⟨q', heq, -⟩ | ⟨q', e, rfl, heq, -⟩ := k.armCurrentLocked_cases deadlineNs kind granted
  · rw [heq, Prod.mk.injEq] at harm
    exact absurd harm.1.symm htoken
  rw [heq] at harm
  obtain ⟨rfl, rfl⟩ := harm
  intro t ht
  rw [hqt, Option.some.injEq] at ht
  refine ⟨⟨deadlineNs, k.pid, ⟨k.timers.queue.counter⟩, kind⟩, mem_append_right _ ?_, ht, ?_, hqd⟩
  · rw [mem_singleton, hp, hbirth]
    rfl
  · rw [hpid]
    exact (getProcess_pid hp).symm

lemma Honest.blockCurrentUntil (h : k.Honest) (guard : Bool)
    (nowNs deadlineNs : Nat) (granted : Option Nat) :
    (k.blockCurrentUntil guard nowNs deadlineNs granted).2.Honest := by
  unfold Kernel.blockCurrentUntil
  split
  · exact h
  split
  · exact h
  split
  · exact h
  dsimp only
  have harmed := h.armed deadlineNs .sleep granted
  split
  · exact harmed
  next htoken =>
  split
  · exact harmed
  · apply harmed.update
    intro p _ hp
    exact armCurrentLocked_published rfl htoken hp rfl rfl rfl rfl

lemma update_quiet (k : Kernel) (pid : Nat)
    (hf : ∀ q, Quiet (f q) q) : Keeps Quiet k (k.update pid f) :=
  update_keeps Quiet.still fun _ _ q hqp => (hf q).trans hqp

lemma cancelAny_quiet (k : Kernel) (token : Option WaitToken) :
    Keeps Quiet k (k.cancelAny token) := by
  unfold cancelAny
  split
  · exact .refl Quiet.still k
  · exact update_quiet k _ fun q => Quiet.cancel q _

lemma takeWakeReason_quiet (k : Kernel) : Keeps Quiet k k.takeWakeReason.2 := by
  unfold takeWakeReason
  split
  · exact .refl Quiet.still k
  · exact update_quiet k _ fun q => Quiet.of_same rfl rfl rfl rfl rfl

lemma setState_quiet (k : Kernel) (pid : Nat) (s : ProcessState) :
    Keeps Quiet k (k.update pid (·.setState s)) :=
  update_quiet k pid fun q => Quiet.setState q s

lemma Honest.armIoTimeoutLocked (h : k.Honest) (deadlineNs granted : Option Nat) :
    (k.armIoTimeoutLocked deadlineNs granted).2.Honest := by
  unfold Kernel.armIoTimeoutLocked
  split
  · exact h
  next d =>
  have harmed := h.armed d .ioTimeout granted
  dsimp only
  split
  · exact harmed
  · next htoken =>
    apply harmed.update
    intro p _ hp
    exact armCurrentLocked_published rfl htoken hp rfl rfl rfl rfl

lemma Honest.awaitIoEnter (h : k.Honest) (outstanding : Option WaitToken)
    (deadlineNs : Option Nat) (guard : Bool) (granted : Option Nat) :
    (k.awaitIoEnter outstanding deadlineNs guard granted).2.Honest := by
  have h := h.of_keeps (cancelAny_quiet k outstanding)
  unfold Kernel.awaitIoEnter
  dsimp only
  generalize k.cancelAny outstanding = k at h
  split
  · exact h
  split
  · next cur p hcur hp =>
    split
    · have hio : Keeps Quiet k (k.update k.pid fun p =>
          if p.state = .runnable ∨ p.state = .awaitingIo then
            { p with pendingIo := false, state := .running }
          else { p with pendingIo := false }) := by
        apply update_quiet
        intro q
        split <;> exact Quiet.of_same rfl rfl rfl rfl rfl
      exact (h.of_keeps hio).of_keeps (takeWakeReason_quiet _)
    split
    · exact (h.of_keeps (setState_quiet k _ _)).of_keeps (takeWakeReason_quiet _)
    · have harmed :=
        (h.of_keeps (setState_quiet k k.pid .awaitingIo)).armIoTimeoutLocked deadlineNs granted
      split
      · exact harmed.of_keeps (switchByIndexGuarded_keeps Quiet.calm _ _ _)
      · exact harmed
  · exact h

lemma awaitIoResume_quiet (k : Kernel) (token : Option WaitToken) :
    Keeps Quiet k (k.awaitIoResume token).2 := by
  unfold awaitIoResume
  split
  · exact .refl Quiet.still k
  split
  · refine .trans Quiet.still (.trans Quiet.still ?_ (cancelAny_quiet _ _)) (takeWakeReason_quiet _)
    exact update_quiet _ _ fun q => Quiet.of_same rfl rfl rfl rfl rfl
  split
  · exact .trans Quiet.still (cancelAny_quiet _ _) (takeWakeReason_quiet _)
  · exact .refl Quiet.still k

lemma awaitIoIdle_quiet (k : Kernel) (token : Option WaitToken) :
    Keeps Quiet k (k.awaitIoIdle token).2 := by
  unfold awaitIoIdle
  split
  · exact .refl Quiet.still k
  split
  · refine .trans Quiet.still (.trans Quiet.still ?_ (cancelAny_quiet _ _)) (takeWakeReason_quiet _)
    apply update_quiet
    intro q
    split <;> exact Quiet.of_same rfl rfl rfl rfl rfl
  split
  · exact .trans Quiet.still (.trans Quiet.still (setState_quiet _ _ _) (cancelAny_quiet _ _))
      (takeWakeReason_quiet _)
  · exact .refl Quiet.still k

lemma readAndClearWakeReason_quiet (k : Kernel) (deadlineNs nowNs : Nat) :
    Keeps Quiet k (k.readAndClearWakeReason deadlineNs nowNs).2 := by
  unfold readAndClearWakeReason
  split
  · exact .refl Quiet.still k
  · exact update_quiet k _ fun q => (Quiet.setState _ _).trans (Quiet.invalidateWaitToken q)

lemma rtSigsuspend_quiet (k : Kernel) (mask : BitVec 64) (guard : Bool) :
    Keeps Quiet k (k.rtSigsuspend mask guard) := by
  unfold rtSigsuspend
  dsimp only
  split
  · refine .trans Quiet.still (.trans Quiet.still ?_ (setState_quiet _ _ _))
      (scheduleNow_keeps Quiet.calm _ _)
    exact update_quiet k _ fun q => Quiet.of_same rfl rfl rfl rfl rfl
  · exact update_quiet k _ fun q => Quiet.of_same rfl rfl rfl rfl rfl

/-! ## Expiry -/

lemma popBatch_spec (isLive : Nat → WaitToken → Bool) (nowNs n : Nat) (q : TimerQueue) :
    (∀ x ∈ (popBatch isLive nowNs n q).1, x.entry.deadlineNs ≤ x.nowNs) ∧
      (popBatch isLive nowNs n q).2.counter = q.counter ∧
      (popBatch isLive nowNs n q).2.entries + ((popBatch isLive nowNs n q).1.map Due.entry :
        Multiset DeadlineEntry) ≤ q.entries := by
  induction n generalizing q with
  | zero => exact ⟨by simp [popBatch], rfl, by simp [popBatch]⟩
  | succ n ih =>
    have hp := TimerQueue.popDue_popped nowNs isLive q
    have hc := TimerQueue.popDue_counter nowNs isLive q
    unfold popBatch
    split
    · next q' heq =>
      rw [heq] at hp hc
      refine ⟨by simp, hc, ?_⟩
      rw [hp.none_rest rfl]
      simp
    · next e q' heq =>
      rw [heq] at hp hc
      obtain ⟨hdue, hcounter, hle⟩ := ih q'
      obtain ⟨stale, hsplit, -⟩ := hp.removed e rfl
      refine ⟨?_, hcounter.trans hc, ?_⟩
      · rw [forall_mem_cons]
        exact ⟨(hp.least e rfl).2.2.1, hdue⟩
      · rw [map_cons, ← Multiset.cons_coe, Multiset.add_cons, hsplit]
        exact Multiset.cons_le_cons e (le_trans hle (Multiset.le_add_left _ _))

lemma drained_le {M M' : Multiset DeadlineEntry} {isLive : Nat → WaitToken → Bool} {b : Bool}
    (h : Drained M isLive b M') : M' ≤ M := by
  obtain ⟨stale, hM, -⟩ := h.removed
  rw [hM]
  exact Multiset.le_add_left _ _

section

variable (h : k.Honest)
include h

lemma Honest.peek (isLive : Nat → WaitToken → Bool) :
    { k with timers.queue := (k.timers.queue.peekDeadlineNs isLive).2 }.Honest :=
  h.withQueue (drained_le (TimerQueue.drainStaleHead_drained isLive k.timers.queue))
    (le_of_eq (TimerQueue.drainStaleHead_counter isLive k.timers.queue).symm)

lemma Honest.collectDue (nowNs : Nat) : (k.collectDue nowNs).2.Honest := by
  obtain ⟨hdue, hcounter, hle⟩ := popBatch_spec k.isLiveWait nowNs expiryBatch k.timers.queue
  unfold Kernel.collectDue
  generalize popBatch k.isLiveWait nowNs expiryBatch k.timers.queue = r at hdue hcounter hle
  have hpopped : { k with timers.queue := r.2, timers.batch := k.timers.batch ++ r.1 }.Honest :=
    { h with
      below := by rw [hcounter]; exact h.below
      accounted := by
        refine le_trans ?_ h.accounted
        show r.2.entries + (↑((k.timers.batch ++ r.1).map Due.entry) : Multiset DeadlineEntry) +
          k.wokenEntries ≤ _
        rw [map_append, ← Multiset.coe_add,
          add_comm (k.timers.batch.map Due.entry : Multiset DeadlineEntry), ← add_assoc]
        exact add_le_add_left (add_le_add_left hle _) _
      due := by
        intro x hx
        obtain hx | hx := mem_append.mp hx
        · exact h.due x hx
        · exact hdue x hx }
  exact hpopped.peek k.isLiveWait

lemma Honest.armed_unique {x y : DeadlineEntry × Option Nat}
    (hx : x ∈ k.timers.armed) (hy : y ∈ k.timers.armed) (ht : x.1.token = y.1.token) : x = y :=
  inj_on_of_nodup_map h.minted hx hy ht

lemma Honest.wokenOwn {due : Due} (hdue : due ∈ k.timers.batch)
    {q : Process} (hp : getProcess k.procs due.entry.pid = some p)
    (hwake : p.wakeFromTimer due.entry.token due.entry.kind = some q) :
    WokenOwn k.timers.armed due p := by
  obtain ⟨htoken, -, -, hstate⟩ := Process.wakeFromTimer_some hwake
  obtain ⟨e, he, het, hpid, hd⟩ := h.published p (mem_of_find?_eq_some hp) _ htoken
  have hmem : due.entry ∈ k.armedEntries := by
    apply Multiset.mem_of_le h.accounted
    refine Multiset.mem_add.mpr (Or.inl (Multiset.mem_add.mpr (Or.inr ?_)))
    exact Multiset.mem_coe.mpr (List.mem_map_of_mem hdue)
  obtain ⟨x, hx, hxe⟩ := List.mem_map.mp (Multiset.mem_coe.mp hmem)
  have heq := h.armed_unique he hx (by rw [hxe, het])
  obtain rfl : e = due.entry := by rw [← hxe, ← heq]
  exact ⟨getProcess_pid hp, htoken, hd, hstate, h.due due hdue, he⟩

lemma Honest.wakeNext : k.wakeNext.Honest := by
  unfold Kernel.wakeNext
  split
  · exact h
  next due rest hbatch =>
  have hmem : due ∈ k.timers.batch := by
    rw [hbatch]
    exact mem_cons_self
  have hentries : k.batchEntries = due.entry ::ₘ (rest.map Due.entry : Multiset DeadlineEntry) := by
    rw [batchEntries, hbatch]
    rfl
  have hdue : ∀ x ∈ rest, x.entry.deadlineNs ≤ x.nowNs := fun x hx =>
    h.due x (by rw [hbatch]; exact mem_cons_of_mem _ hx)
  have hrest : { k with timers.batch := rest }.Honest :=
    { h with
      accounted := by
        refine le_trans (add_le_add_left (add_le_add_right ?_ _) _) h.accounted
        rw [hentries]
        exact Multiset.le_cons_self _ _
      due := hdue }
  unfold Kernel.wakeFromTimer
  split
  · next i p hi hp =>
    split
    · exact hrest
    next q hwake =>
    have hown := h.wokenOwn hmem hp hwake
    exact
      { hrest with
        accounted := by
          refine le_of_eq_of_le ?_ h.accounted
          show k.timers.queue.entries + (↑(rest.map Due.entry) : Multiset DeadlineEntry) +
            ↑((k.timers.woken ++ [(due, p)]).map fun w => w.1.entry) = _
          rw [hentries, map_append, ← Multiset.coe_add, Multiset.add_cons, ← add_assoc, add_comm]
          exact Multiset.singleton_add _ _
        published := by
          intro r hr
          obtain hr | rfl := mem_or_eq_of_mem_set hr
          · exact h.published r hr
          · intro t ht
            rw [(Process.wakeFromTimer_some hwake).2.1] at ht
            cases ht
        woken := by
          intro w hw
          obtain hw | hw := mem_append.mp hw
          · exact h.woken w hw
          · rw [mem_singleton.mp hw]
            exact hown }
  · exact hrest

/-! ## Every event -/

lemma Honest.takePid : k.takePid.2.Honest := h.of_rel rfl (forall₂_refl Quiet.refl _)

lemma Honest.fork (ok : Bool) : (k.fork ok).2.Honest := by
  unfold Kernel.fork
  split
  · exact h
  · dsimp only
    split
    · exact h.takePid.pushBack rfl
    · exact h.takePid

lemma Honest.cloneThread (flags childStack : BitVec 64)
    (ok : Bool) : (k.cloneThread flags childStack ok).2.Honest := by
  unfold Kernel.cloneThread
  split
  · exact h
  split
  · exact h
  · dsimp only
    split
    · exact h.takePid.pushBack rfl
    · exact h.takePid

end

lemma modify_rel {procs procs₀ : List Process} (h : List.Forall₂ Quiet procs procs₀) (i : Nat)
    (hf : ∀ q, Quiet (f q) q) :
    List.Forall₂ Quiet (procs.modify i f) procs₀ :=
  forall₂_modify_left h fun q _ _ _ hqp => (hf q).trans hqp

lemma Honest.launch (h : k.Honest) (guard : Bool) : (k.launch guard).Honest := by
  have hpush : (k.takePid.2.pushBack (Process.fresh k.nextPid 0 k.births)).Honest :=
    h.takePid.pushBack rfl
  have hsame := forall₂_refl Quiet.refl
    (k.takePid.2.pushBack (Process.fresh k.nextPid 0 k.births)).procs
  unfold Kernel.launch
  dsimp only
  split
  · exact hpush.of_rel rfl hsame
  split
  · refine hpush.of_rel rfl (modify_rel (modify_rel hsame _ ?_) _ ?_)
    · exact fun q => Quiet.setState q _
    · exact fun q => Quiet.setState q _
  · exact hpush.of_rel rfl (modify_rel hsame _ fun q => Quiet.setState q _)

lemma Honest.wait4 (h : k.Honest) (pid : Int) (options : BitVec 32)
    (guard : Bool) : (k.wait4 pid options guard).2.Honest := by
  unfold Kernel.wait4
  split
  · exact h
  dsimp only
  split
  · split
    · refine Honest.of_procs h ?_ ?_
      · rfl
      · intro q hq
        exact Or.inr ⟨q, mem_of_mem_eraseIdx (mem_of_mem_filter hq), Quiet.refl q⟩
    · refine Honest.of_rel h ?_ (modify_rel (forall₂_refl Quiet.refl _) _ ?_)
      · rfl
      · exact fun q => Quiet.of_same rfl rfl rfl rfl rfl
  split
  · exact h
  split
  · exact h
  · exact (h.of_keeps (setState_quiet k _ _)).of_keeps (scheduleNow_keeps Quiet.calm _ _)

lemma Honest.step (h : k.Honest) (event : Event) : (k.step event).Honest := by
  cases event with
  | launch guard => exact h.launch guard
  | fork ok => exact h.fork ok
  | cloneThread flags childStack ok => exact h.cloneThread flags childStack ok
  | exit guard code =>
    apply h.of_keeps (exit_keeps Quiet.calm k guard code _ _)
    · exact fun _ _ q hqp => (Quiet.die q code).trans hqp
    · exact fun _ _ _ q hqp => (Quiet.setWaitStatus _ _).trans ((Quiet.die q code).trans hqp)
  | exitGroup guard code =>
    apply h.of_keeps (exitGroup_keeps Quiet.calm k guard code _ _)
    · exact fun _ _ _ _ _ q hqp => (Quiet.die q code).trans hqp
    · exact fun _ _ _ _ q hqp => (Quiet.setWaitStatus q _).trans hqp
  | terminate guard sig =>
    apply h.of_keeps (terminate_keeps Quiet.calm k guard sig _)
    exact fun _ _ q hqp => (Quiet.setWaitStatus _ _).trans ((Quiet.die q _).trans hqp)
  | kill pid sig guard =>
    apply h.of_keeps (kill_keeps Quiet.calm k pid sig guard _)
    exact fun _ _ _ _ _ q hqp => (Quiet.applySignal q _).trans hqp
  | wait4 pid options guard => exact h.wait4 pid options guard
  | queueSignal pid sig => exact h.of_keeps (queueSignal_keeps Quiet.still k pid sig)
  | wakeProcess pid => exact h.of_keeps (wakeProcess_keeps Quiet.still k pid)
  | rtSigsuspend mask guard => exact h.of_keeps (rtSigsuspend_quiet k mask guard)
  | setSignals handler mask pending =>
    exact h.of_keeps (update_quiet k _ fun q => Quiet.of_same rfl rfl rfl rfl rfl)
  | setFds fds =>
    exact h.of_keeps (update_quiet k _ fun q => Quiet.of_same rfl rfl rfl rfl rfl)
  | setpgid pid pgid =>
    exact h.of_keeps (update_quiet k _ fun q => Quiet.of_same rfl rfl rfl rfl rfl)
  | schedule guard => exact h.of_keeps (scheduleNow_keeps Quiet.calm k guard)
  | block guard nowNs deadlineNs granted => exact h.blockCurrentUntil guard nowNs deadlineNs granted
  | resumeSleep deadlineNs nowNs =>
    exact h.of_keeps (readAndClearWakeReason_quiet k deadlineNs nowNs)
  | awaitIo outstanding deadlineNs guard granted =>
    exact h.awaitIoEnter outstanding deadlineNs guard granted
  | awaitIoResume token => exact h.of_keeps (awaitIoResume_quiet k token)
  | awaitIoIdle token => exact h.of_keeps (awaitIoIdle_quiet k token)
  | cancelOwned token => exact h.of_keeps (update_quiet k _ fun q => Quiet.cancel q token)
  | expireDue nowNs => exact { h.collectDue nowNs with }
  | deferredExpiry nowNs =>
    rw [Kernel.step]
    split
    · exact { h.collectDue nowNs with }
    · exact h
  | wakeNext => exact h.wakeNext
  | nextDeadline => exact h.peek k.isLiveWait

lemma run_honest (events : List Event) : (boot.run events).Honest :=
  List.foldlRecOn events step boot_honest fun _ h event _ => h.step event

lemma Honest.woken_nodup (h : k.Honest) :
    (k.timers.woken.map fun w => w.1.entry.token).Nodup := by
  have hle : k.wokenEntries ≤ k.armedEntries := le_trans (Multiset.le_add_left _ _) h.accounted
  have hnodup : (k.armedEntries.map DeadlineEntry.token).Nodup := by
    rw [armedEntries, Multiset.map_coe, List.map_map]
    exact Multiset.coe_nodup.mpr h.minted
  have hwoken := Multiset.nodup_of_le (Multiset.map_le_map hle) hnodup
  rw [wokenEntries, Multiset.map_coe, List.map_map] at hwoken
  exact Multiset.coe_nodup.mp hwoken

/-- Whatever happens in whatever order, a process that a deadline woke published exactly the wait
that the popped entry was pushed for, no other push ever had its token, its deadline had come,
and no wait was woken by a deadline twice. -/
theorem deadline_wakes_own_wait (events : List Event) :
    (∀ w ∈ (boot.run events).timers.woken,
      WokenOwn (boot.run events).timers.armed w.1 w.2 ∧
        ∀ x ∈ (boot.run events).timers.armed, x.1.token = w.1.entry.token →
          x = (w.1.entry, some w.2.birth)) ∧
      ((boot.run events).timers.woken.map fun w => w.1.entry.token).Nodup := by
  have h := run_honest events
  refine ⟨fun w hw => ⟨h.woken w hw, fun x hx ht => ?_⟩, h.woken_nodup⟩
  exact h.armed_unique hx (h.woken w hw).pushed ht

example : (boot.run [.launch true, .block true 0 10 (some 0), .schedule true, .expireDue 10,
    .wakeNext]).timers.woken.length = 1 := by
  decide +kernel

end Kernel

end Twilight.Proc

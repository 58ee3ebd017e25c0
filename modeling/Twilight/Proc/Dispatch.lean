/-
One signal, two dispatchers.

`kill` decides the fate of its target when the signal is sent, from the disposition
alone.  A signal raised by `proc::queue_signal` is only recorded, and
`deliver_pending_signal` decides when the process next returns to user mode.  The
first does not look at the mask; the second calls handlers and drops everything else,
so that a fatal or a stop signal raised that way has no effect at all.
`dispatch_uniform_iff` says for which processes and signals the two come to the same.
-/
import Twilight.Proc.SignalRuns

namespace Twilight.Proc

/-! ## Single signals in a set -/

lemma getLsbD_signalBit {sig : Nat} (h : 1 ≤ sig ∧ sig ≤ 64) (i : Nat) :
    (signalBit sig).getLsbD i = decide (i = sig - 1) := by
  unfold signalBit
  by_cases hi : i = sig - 1
  · subst hi
    simp [show sig - 1 < 64 by omega]
  · simp only [hi]
    rcases Nat.lt_or_gt_of_ne hi with hlt | hgt
    · simp [hlt]
    · simp [show i - (sig - 1) ≠ 0 by omega]

lemma and_signalBit_ne_zero (x : BitVec 64) {sig : Nat} (h : 1 ≤ sig ∧ sig ≤ 64) :
    x &&& signalBit sig ≠ 0 ↔ x.getLsbD (sig - 1) = true := by
  have hbit := getLsbD_signalBit h
  constructor
  · intro hne
    by_contra hfalse
    apply hne
    apply BitVec.eq_of_getLsbD_eq
    intro i _
    rw [BitVec.getLsbD_and, hbit i]
    by_cases hi : i = sig - 1
    · rw [hi, Bool.not_eq_true _ |>.mp hfalse]
      simp
    · simp [hi]
  · intro htrue hzero
    have := congrArg (BitVec.getLsbD · (sig - 1)) hzero
    simp [hbit, htrue] at this

namespace Process

variable {p q : Process} {sig : Nat}

def IsPending (p : Process) (sig : Nat) : Prop := p.pendingSignals.getLsbD (sig - 1) = true

def IsMasked (p : Process) (sig : Nat) : Prop := p.signalMask.getLsbD (sig - 1) = true

def Lowest (p : Process) (sig : Nat) : Prop :=
  ∀ s, 1 ≤ s → s < sig → ¬ (p.IsPending s ∧ ¬ p.IsMasked s)

instance (p : Process) (sig : Nat) : Decidable (p.IsPending sig) :=
  inferInstanceAs (Decidable (_ = _))

instance (p : Process) (sig : Nat) : Decidable (p.IsMasked sig) :=
  inferInstanceAs (Decidable (_ = _))

lemma nextUnblockedSignal_eq_some (h : 1 ≤ sig ∧ sig ≤ 64) :
    p.nextUnblockedSignal = some sig ↔ (p.IsPending sig ∧ ¬ p.IsMasked sig) ∧ p.Lowest sig := by
  have hdue : ∀ s, 1 ≤ s ∧ s ≤ 64 →
      (p.pendingSignals &&& ~~~p.signalMask &&& signalBit s ≠ 0 ↔ p.IsPending s ∧ ¬ p.IsMasked s) := by
    intro s hs
    rw [and_signalBit_ne_zero _ hs, IsPending, IsMasked]
    simp [show s - 1 < 64 by omega]
  rw [nextUnblockedSignal, List.find?_range'_eq_some]
  simp only [decide_eq_true_eq, List.mem_range'_1]
  constructor
  · intro ⟨hpos, hin, hbefore⟩
    refine ⟨(hdue sig h).mp hpos, fun s hs1 hs2 hs => ?_⟩
    have := hbefore s hs1 hs2
    simp only [Bool.not_eq_true', decide_eq_false_iff_not] at this
    exact this ((hdue s (by omega)).mpr hs)
  · intro ⟨hpos, hlow⟩
    refine ⟨(hdue sig h).mpr hpos, by omega, fun s hs1 hs2 => ?_⟩
    simp only [Bool.not_eq_true', decide_eq_false_iff_not]
    exact fun hs => hlow s hs1 hs2 ((hdue s (by omega)).mp hs)

lemma nextUnblockedSignal_range (h : p.nextUnblockedSignal = some sig) : 1 ≤ sig ∧ sig ≤ 64 := by
  have hmem := List.mem_of_find?_eq_some h
  rw [List.mem_range'_1] at hmem
  omega

variable {s : Nat}

section

variable (hsig : 1 ≤ sig ∧ sig ≤ 64)
include hsig

lemma isPending_or (h : q.pendingSignals = p.pendingSignals ||| signalBit sig) (hs : 1 ≤ s) :
    q.IsPending s ↔ p.IsPending s ∨ s = sig := by
  rw [IsPending, IsPending, h, BitVec.getLsbD_or, getLsbD_signalBit hsig, Bool.or_eq_true,
    decide_eq_true_eq]
  have : s - 1 = sig - 1 ↔ s = sig := by omega
  rw [this]

lemma isPending_dequeue (hs : 1 ≤ s ∧ s ≤ 64) :
    (p.dequeueSignal s).IsPending sig ↔ p.IsPending sig ∧ s ≠ sig := by
  rw [IsPending, IsPending, dequeueSignal, if_pos hs, BitVec.getLsbD_and, BitVec.getLsbD_not,
    getLsbD_signalBit hs]
  simp only [show sig - 1 < 64 by omega, decide_true, Bool.true_and, Bool.and_eq_true,
    Bool.not_eq_true', decide_eq_false_iff_not]
  have : (sig - 1 = s - 1) ↔ s = sig := by omega
  rw [this]

lemma isMasked_unblock
    (h : q.signalMask = p.signalMask &&& ~~~signalBit sig) (hs : 1 ≤ s ∧ s ≤ 64) :
    q.IsMasked s ↔ p.IsMasked s ∧ s ≠ sig := by
  rw [IsMasked, IsMasked, h, BitVec.getLsbD_and, BitVec.getLsbD_not, getLsbD_signalBit hsig]
  simp only [show s - 1 < 64 by omega, decide_true, Bool.true_and, Bool.and_eq_true,
    Bool.not_eq_true', decide_eq_false_iff_not]
  have : (s - 1 = sig - 1) ↔ s = sig := by omega
  rw [this]

end

lemma queueSignal_fields (p : Process) (hsig : 1 ≤ sig ∧ sig ≤ 64) :
    ((p.queueSignal sig).pendingSignals = p.pendingSignals ||| signalBit sig ∧
      (p.queueSignal sig).signalMask = p.signalMask ∧ (p.queueSignal sig).handler = p.handler) ∧
    ((p.queueSignal sig).state = .dead ↔ p.state = .dead) ∧
    ((p.queueSignal sig).state = .stopped ↔ p.state = .stopped) := by
  unfold queueSignal
  rw [if_neg (not_not.mpr hsig)]
  cases hstate : p.state with
  | sleeping | awaitingIo => cases p.signalInterruptsSleep sig <;> simp
  | _ => simp

lemma wake_fields (p : Process) :
    (p.wake.pendingSignals = p.pendingSignals ∧ p.wake.signalMask = p.signalMask ∧
      p.wake.handler = p.handler) ∧
    (p.wake.state = .dead ↔ p.state = .dead) ∧ (p.wake.state = .stopped ↔ p.state = .stopped) := by
  unfold wake
  cases hstate : p.state <;> simp [hstate]

end Process

/-! ## What a signal does -/

inductive Effect where
  | pending
  | discarded
  | handled
  | died
  | stopped
deriving DecidableEq

namespace UserContext

variable {mapped : BitVec 64 → Bool} {c r r' : UserContext} {sig : Nat}

def action (c : UserContext) (sig : Nat) : Effect :=
  if c.proc.handler sig = sigIgn ∧ sig ≠ sigkill ∧ sig ≠ sigstop then .discarded
  else if sigIgn < c.proc.handler sig then .handled
  else if isStopDefault sig then .stopped
  else if isFatalDefault sig then .died
  else .discarded

def Blocked (c : UserContext) (sig : Nat) : Prop :=
  c.proc.IsMasked sig ∧ sig ≠ sigkill ∧ sig ≠ sigstop

instance (c : UserContext) (sig : Nat) : Decidable (c.Blocked sig) :=
  inferInstanceAs (Decidable (_ ∧ _))

def expected (c : UserContext) (sig : Nat) : Effect :=
  if c.Blocked sig then .pending else c.action sig

/-- The process after `kill`. -/
def byKill (c : UserContext) (sig : Nat) : UserContext :=
  { c with proc := (c.proc.applySignal sig).1 }

/-- The process after `proc::queue_signal`. -/
def byQueue (c : UserContext) (sig : Nat) : UserContext :=
  { c with proc := (c.proc.queueSignal sig).wake }

def unblock (c : UserContext) (sig : Nat) : UserContext :=
  { c with proc := { c.proc with signalMask := c.proc.signalMask &&& ~~~signalBit sig } }

def GoesOn (c r : UserContext) : Prop :=
  r.proc.state ≠ .dead ∧ (r.proc.state = .stopped → c.proc.state = .stopped)

/-- At once, or after the next return to user mode. -/
def Soon (mapped : BitVec 64 → Bool) (r : UserContext) (P : Process → Prop) : Prop :=
  P r.proc ∨ ∃ r', r.deliverPendingSignal mapped = .ok r' ∧ P r'.proc

/-- The effect shows in the process `r` that `c` became: at once if it is dead or stopped,
otherwise by what `deliver_pending_signal` does at the next return to user mode, which has to
come about.  The handler runs if the return enters it with its frame. -/
def Shows (mapped : BitVec 64 → Bool) (sig : Nat) (c r : UserContext) : Effect → Prop
  | .pending => GoesOn c r ∧ ∃ r', r.deliverPendingSignal mapped = .ok r' ∧
      r'.proc.IsPending sig ∧ r' ≠ r.callHandler sig
  | .discarded => GoesOn c r ∧ ∃ r', r.deliverPendingSignal mapped = .ok r' ∧
      ¬ r'.proc.IsPending sig ∧ r' ≠ r.callHandler sig
  | .handled => GoesOn c r ∧ ∃ r', r.deliverPendingSignal mapped = .ok r' ∧
      ¬ r'.proc.IsPending sig ∧ r' = r.callHandler sig
  | .died => r.Soon mapped fun q => q.state = .dead ∧ q.waitStatus = sig % 0x80
  | .stopped => c.proc.state ≠ .stopped ∧
      r.Soon mapped fun q => q.state = .stopped ∧ q.waitStatus = sig * 256 + 0x7f

/-- Raised either way, the signal does what it is to do, and a blocked signal does so once it is
unblocked. -/
structure Uniform (mapped : BitVec 64 → Bool) (c : UserContext) (sig : Nat) : Prop where
  kill : Shows mapped sig c (c.byKill sig) (c.expected sig)
  queue : Shows mapped sig c (c.byQueue sig) (c.expected sig)
  stopped : (c.byKill sig).proc.state = .stopped ↔ (c.byQueue sig).proc.state = .stopped
  killUnblocked : c.Blocked sig → Shows mapped sig c ((c.byKill sig).unblock sig) (c.action sig)
  queueUnblocked : c.Blocked sig → Shows mapped sig c ((c.byQueue sig).unblock sig) (c.action sig)

/-! ## The next return to user mode -/

/-- The return has room for the frame of whatever handler it calls, and that handler has an
address the processor takes. -/
def Deliverable (mapped : BitVec 64 → Bool) (c : UserContext) : Prop :=
  ∀ sig, c.proc.nextUnblockedSignal = some sig → c.caught sig = true →
    firstFault mapped c.retSlot (8 + UserSignalFrame.byteSize) = none ∧
      canonical (BitVec.ofNat 64 (c.proc.handler sig)) = true

lemma retSlot_ne (c : UserContext) : c.retSlot ≠ c.trap.rsp := by
  intro h
  have hsub : (c.trap.rsp - BitVec.ofNat 64 UserSignalFrame.byteSize).toNat
      = (2 ^ 64 - 168 + c.trap.rsp.toNat) % 2 ^ 64 := rfl
  have hframe : c.frameAddr.toNat = (2 ^ 64 - 168 + c.trap.rsp.toNat) % 2 ^ 64 / 16 * 16 := by
    rw [frameAddr, toNat_and_not_15, hsub]
  have hret : c.retSlot.toNat = (2 ^ 64 - 8 + c.frameAddr.toNat) % 2 ^ 64 := rfl
  have := congrArg BitVec.toNat h
  have := c.trap.rsp.isLt
  omega

lemma ne_callHandler (h : r'.trap = r.trap) (sig : Nat) : r' ≠ r.callHandler sig := by
  intro heq
  have hrsp : (r.callHandler sig).trap.rsp = r.retSlot := rfl
  rw [← heq, h] at hrsp
  exact r.retSlot_ne hrsp.symm

lemma callHandler_inj {s : Nat} (hs : s ≤ 64) (hsig : sig ≤ 64)
    (h : r.callHandler s = r.callHandler sig) : s = sig := by
  have hrdi : BitVec.ofNat 64 s = BitVec.ofNat 64 sig := congrArg (·.trap.regs.rdi) h
  have := congrArg BitVec.toNat hrdi
  simp only [BitVec.toNat_ofNat] at this
  omega

/-- What one return does: nothing is due, or a signal is dropped, or its handler is called. -/
lemma deliver_cases (mapped : BitVec 64 → Bool) (r : UserContext) :
    r.proc.nextUnblockedSignal = none ∧ r.deliverPendingSignal mapped = .ok r ∨
    ∃ s, r.proc.nextUnblockedSignal = some s ∧
      (r.caught s = false ∧ r.deliverPendingSignal mapped = .ok (r.discardSignal s) ∨
        r.caught s = true ∧ (r.Deliverable mapped ∧
            r.deliverPendingSignal mapped = .ok (r.callHandler s) ∨
          ¬ r.Deliverable mapped ∧ ∀ r', r.deliverPendingSignal mapped ≠ .ok r')) := by
  unfold Deliverable deliverPendingSignal
  cases hs : r.proc.nextUnblockedSignal with
  | none => exact .inl ⟨rfl, rfl⟩
  | some s =>
    refine .inr ⟨s, rfl, ?_⟩
    simp only [Option.some.injEq, forall_eq']
    cases hc : r.caught s with
    | false => exact .inl ⟨rfl, rfl⟩
    | true =>
      refine .inr ⟨rfl, ?_⟩
      simp only [forall_const, Bool.not_true, Bool.false_eq_true, if_false]
      cases hf : firstFault mapped r.retSlot (8 + UserSignalFrame.byteSize) with
      | some e => exact .inr ⟨by simp, by simp⟩
      | none =>
        have hslot := canonical_retSlot (by decide) hf
        simp only [hslot, Bool.and_true, true_and]
        by_cases hh : canonical (BitVec.ofNat 64 (r.proc.handler s)) = true
        · exact .inl ⟨hh, if_pos hh⟩
        · exact .inr ⟨hh, fun r' => by rw [if_neg hh]; simp⟩

lemma deliver_ok_iff : (∃ r', r.deliverPendingSignal mapped = .ok r') ↔ r.Deliverable mapped := by
  obtain ⟨hnone, hok⟩ | ⟨s, hs, ⟨hc, hok⟩ | ⟨hc, ⟨hd, hok⟩ | ⟨hd, hno⟩⟩⟩ := r.deliver_cases mapped
  · exact iff_of_true ⟨_, hok⟩ fun sig h => by simp [hnone] at h
  · refine iff_of_true ⟨_, hok⟩ fun sig h hcaught => ?_
    obtain rfl := Option.some.inj (hs.symm.trans h)
    simp [hc] at hcaught
  · exact iff_of_true ⟨_, hok⟩ hd
  · exact iff_of_false (fun ⟨r', h⟩ => hno r' h) hd

lemma discardSignal_pending (r : UserContext) (s : Nat) :
    (r.discardSignal s).proc.pendingSignals = (r.proc.dequeueSignal s).pendingSignals ∧
      (r.discardSignal s).proc.state = (r.proc.dequeueSignal s).state ∧
      (r.discardSignal s).proc.waitStatus = (r.proc.dequeueSignal s).waitStatus := by
  unfold discardSignal
  split <;> exact ⟨rfl, rfl, rfl⟩

lemma dequeueSignal_state (p : Process) (s : Nat) :
    (p.dequeueSignal s).state = p.state ∧ (p.dequeueSignal s).waitStatus = p.waitStatus := by
  unfold Process.dequeueSignal
  split <;> exact ⟨rfl, rfl⟩

/-- A return neither ends nor stops the process. -/
lemma deliver_state (h : r.deliverPendingSignal mapped = .ok r') :
    r'.proc.state = r.proc.state ∧ r'.proc.waitStatus = r.proc.waitStatus := by
  obtain ⟨-, hok⟩ | ⟨s, -, ⟨-, hok⟩ | ⟨-, ⟨-, hok⟩ | ⟨-, hno⟩⟩⟩ := r.deliver_cases mapped
  · obtain rfl := Except.ok.inj (hok.symm.trans h)
    exact ⟨rfl, rfl⟩
  · obtain rfl := Except.ok.inj (hok.symm.trans h)
    obtain ⟨-, hstate, hstatus⟩ := r.discardSignal_pending s
    rw [hstate, hstatus]
    exact dequeueSignal_state r.proc s
  · obtain rfl := Except.ok.inj (hok.symm.trans h)
    exact dequeueSignal_state r.proc s
  · exact absurd h (hno r')

lemma soon_iff {P : ProcessState → Int → Prop} :
    (r.Soon mapped fun q => P q.state q.waitStatus) ↔ P r.proc.state r.proc.waitStatus := by
  refine ⟨fun h => ?_, .inl⟩
  obtain hnow | ⟨r', hok, hnext⟩ := h
  · exact hnow
  · obtain ⟨hstate, hstatus⟩ := deliver_state hok
    rwa [← hstate, ← hstatus]

/-! ## A signal that is recorded -/

/-- The process `r` is `c` with the signal recorded. -/
structure Recorded (sig : Nat) (c r : UserContext) : Prop where
  pending : r.proc.pendingSignals = c.proc.pendingSignals ||| signalBit sig
  mask : r.proc.signalMask = c.proc.signalMask
  handler : r.proc.handler = c.proc.handler
  restorer : r.restorer = c.restorer
  trap : r.trap = c.trap
  goesOn : GoesOn c r

lemma recorded_byQueue (hsig : 1 ≤ sig ∧ sig ≤ 64) (hlive : c.proc.state ≠ .dead) :
    Recorded sig c (c.byQueue sig) := by
  obtain ⟨⟨hp, hm, hh⟩, hd, hs⟩ := c.proc.queueSignal_fields hsig
  obtain ⟨⟨hp', hm', hh'⟩, hd', hs'⟩ := (c.proc.queueSignal sig).wake_fields
  exact ⟨hp'.trans hp, hm'.trans hm, hh'.trans hh, rfl, rfl, fun h => hlive (hd.mp (hd'.mp h)),
    fun h => hs.mp (hs'.mp h)⟩

lemma byQueue_stopped_iff (hsig : 1 ≤ sig ∧ sig ≤ 64) :
    (c.byQueue sig).proc.state = .stopped ↔ c.proc.state = .stopped :=
  (c.proc.queueSignal sig).wake_fields.2.2.trans (c.proc.queueSignal_fields hsig).2.2

lemma Recorded.isPending (h : Recorded sig c r) (hsig : 1 ≤ sig ∧ sig ≤ 64) :
    r.proc.IsPending sig :=
  (Process.isPending_or hsig h.pending hsig.1).mpr (.inr rfl)

lemma Recorded.takes_iff (h : Recorded sig c r) (hsig : 1 ≤ sig ∧ sig ≤ 64) :
    r.proc.nextUnblockedSignal = some sig ↔ ¬ c.proc.IsMasked sig ∧ c.proc.Lowest sig := by
  have hmask : ∀ s, r.proc.IsMasked s ↔ c.proc.IsMasked s := by
    intro s
    rw [Process.IsMasked, Process.IsMasked, h.mask]
  rw [Process.nextUnblockedSignal_eq_some hsig, hmask]
  refine and_congr (and_iff_right (h.isPending hsig)) (forall_congr' fun s => ?_)
  refine forall_congr' fun hs1 => forall_congr' fun hs2 => ?_
  rw [hmask, Process.isPending_or hsig h.pending hs1, or_iff_left (Nat.ne_of_lt hs2)]

lemma Recorded.takes_unblocked_iff (h : Recorded sig c r) (hsig : 1 ≤ sig ∧ sig ≤ 64) :
    (r.unblock sig).proc.nextUnblockedSignal = some sig ↔ c.proc.Lowest sig := by
  have hmask : ∀ s, 1 ≤ s ∧ s ≤ 64 →
      ((r.unblock sig).proc.IsMasked s ↔ c.proc.IsMasked s ∧ s ≠ sig) := by
    intro s hs
    refine Process.isMasked_unblock hsig ?_ hs
    show r.proc.signalMask &&& _ = _
    rw [h.mask]
  have hpend : (r.unblock sig).proc.pendingSignals = c.proc.pendingSignals ||| signalBit sig :=
    h.pending
  have hself : (r.unblock sig).proc.IsPending sig := h.isPending hsig
  have hfree : ¬ (r.unblock sig).proc.IsMasked sig := fun hm => ((hmask sig hsig).mp hm).2 rfl
  rw [Process.nextUnblockedSignal_eq_some hsig, and_iff_right ⟨hself, hfree⟩]
  refine forall_congr' fun s => forall_congr' fun hs1 => forall_congr' fun hs2 => ?_
  rw [hmask s (by omega), Process.isPending_or hsig hpend hs1, or_iff_left (Nat.ne_of_lt hs2),
    and_iff_left (Nat.ne_of_lt hs2)]

/-- With the signal masked, the same signal is due as before. -/
lemma Recorded.next_eq_of_masked (h : Recorded sig c r) (hsig : 1 ≤ sig ∧ sig ≤ 64)
    (hm : c.proc.IsMasked sig) : r.proc.nextUnblockedSignal = c.proc.nextUnblockedSignal := by
  have hsame : r.proc.pendingSignals &&& ~~~r.proc.signalMask
      = c.proc.pendingSignals &&& ~~~c.proc.signalMask := by
    rw [h.pending, h.mask]
    apply BitVec.eq_of_getLsbD_eq
    intro i _
    rw [BitVec.getLsbD_and, BitVec.getLsbD_and, BitVec.getLsbD_or, getLsbD_signalBit hsig]
    by_cases hi : i = sig - 1
    · have hbit : c.proc.signalMask.getLsbD i = true := hi ▸ hm
      simp [hbit]
    · simp [hi]
  rw [Process.nextUnblockedSignal, Process.nextUnblockedSignal, hsame]

section

variable (hsig : 1 ≤ sig ∧ sig ≤ 64)
include hsig

/-- What is left pending by a return, and whose handler it has called. -/
lemma deliver_spec (h : r.deliverPendingSignal mapped = .ok r') :
    (r'.proc.IsPending sig ↔ r.proc.IsPending sig ∧ r.proc.nextUnblockedSignal ≠ some sig) ∧
      (r' = r.callHandler sig ↔ r.Calls sig) := by
  obtain ⟨hnone, hok⟩ | ⟨s, hs, hrest⟩ := r.deliver_cases mapped
  · obtain rfl := Except.ok.inj (hok.symm.trans h)
    refine ⟨by simp [hnone], iff_of_false (ne_callHandler rfl sig) fun hcall => ?_⟩
    exact absurd (hnone.symm.trans hcall.1) (by simp)
  have hrange := Process.nextUnblockedSignal_range hs
  have hpend := Process.isPending_dequeue (p := r.proc) hsig hrange
  have hnext : s ≠ sig ↔ r.proc.nextUnblockedSignal ≠ some sig := by simp [hs]
  rw [hnext] at hpend
  obtain ⟨hc, hok⟩ | ⟨hc, ⟨-, hok⟩ | ⟨-, hno⟩⟩ := hrest
  · obtain rfl := Except.ok.inj (hok.symm.trans h)
    refine ⟨?_, iff_of_false (ne_callHandler (discardSignal_trap s) sig) fun hcall => ?_⟩
    · rw [Process.IsPending, (r.discardSignal_pending s).1]
      exact hpend
    · obtain rfl := Option.some.inj (hs.symm.trans hcall.1)
      exact absurd (hc.symm.trans hcall.2) (by simp)
  · obtain rfl := Except.ok.inj (hok.symm.trans h)
    refine ⟨hpend, fun heq => ?_, fun hcall => ?_⟩
    · obtain rfl := callHandler_inj hrange.2 hsig.2 heq
      exact ⟨hs, hc⟩
    · obtain rfl := Option.some.inj (hs.symm.trans hcall.1)
      rfl
  · exact absurd h (hno r')

lemma shows_pending_iff (hp : r.proc.IsPending sig) (hon : GoesOn c r) :
    Shows mapped sig c r .pending ↔
      r.Deliverable mapped ∧ r.proc.nextUnblockedSignal ≠ some sig := by
  rw [Shows, and_iff_right hon, ← deliver_ok_iff, ← exists_and_right]
  refine exists_congr fun r' => and_congr_right fun h => ?_
  obtain ⟨hpend, hcall⟩ := deliver_spec hsig h
  rw [hpend, and_iff_right hp, ne_eq r', hcall]
  exact and_iff_left_of_imp fun hnext hcalls => hnext hcalls.1

lemma shows_discarded_iff (hon : GoesOn c r) :
    Shows mapped sig c r .discarded ↔ r.Deliverable mapped ∧ ¬ r.Calls sig ∧
      (r.proc.IsPending sig → r.proc.nextUnblockedSignal = some sig) := by
  rw [Shows, and_iff_right hon, ← deliver_ok_iff, ← exists_and_right]
  refine exists_congr fun r' => and_congr_right fun h => ?_
  obtain ⟨hpend, hcall⟩ := deliver_spec hsig h
  rw [hpend, ne_eq r', hcall, not_and, not_not, and_comm]

lemma shows_handled_iff (hon : GoesOn c r) :
    Shows mapped sig c r .handled ↔ r.Deliverable mapped ∧ r.Calls sig := by
  rw [Shows, and_iff_right hon, ← deliver_ok_iff, ← exists_and_right]
  refine exists_congr fun r' => and_congr_right fun h => ?_
  obtain ⟨hpend, hcall⟩ := deliver_spec hsig h
  rw [hpend, hcall, and_iff_right_of_imp]
  exact fun hcalls hboth => hboth.2 hcalls.1

end

/-! ## The two dispatchers -/

/-- The signal is dropped by `kill` before it is recorded. -/
def Dropped (c : UserContext) (sig : Nat) : Prop :=
  sig ≠ sigcont ∧ c.proc.handler sig = sigIgn ∧ sig ≠ sigkill ∧ sig ≠ sigstop

instance (c : UserContext) (sig : Nat) : Decidable (c.Dropped sig) :=
  inferInstanceAs (Decidable (_ ∧ _))

lemma byKill_of_dropped (hsig : 1 ≤ sig) (h : c.Dropped sig) : c.byKill sig = c := by
  obtain ⟨hcont, hign⟩ := h
  rw [byKill, Process.applySignal, if_neg (by omega), if_neg hcont, if_pos hign]

/-- The process `kill` records the signal in: a stopped one is continued first by SIGCONT. -/
def continued (c : UserContext) (sig : Nat) : Process :=
  if sig = sigcont ∧ c.proc.state = .stopped then
    { c.proc with state := .runnable, waitStatus := 0xffff, waitReported := false }
  else c.proc

lemma byKill_of_kept (hsig : 1 ≤ sig)
    (hact : c.action sig = .discarded ∨ c.action sig = .handled) (hkept : ¬ c.Dropped sig) :
    c.byKill sig = { c with proc := (c.continued sig).queueSignal sig } := by
  unfold byKill Process.applySignal
  unfold action at hact
  rw [if_neg (by omega)]
  by_cases hcont : sig = sigcont
  · simp only [continued, hcont, if_true, true_and]
  have hign : ¬ (c.proc.handler sig = sigIgn ∧ sig ≠ sigkill ∧ sig ≠ sigstop) :=
    fun h => hkept ⟨hcont, h⟩
  have hsame : c.continued sig = c.proc := if_neg fun h => hcont h.1
  rw [if_neg hign] at hact
  rw [if_neg hcont, if_neg hign, hsame]
  by_cases hhandler : sigIgn < c.proc.handler sig
  · rw [if_pos hhandler]
  rw [if_neg hhandler] at hact ⊢
  by_cases hstop : isStopDefault sig = true
  · simp [hstop] at hact
  · rw [if_neg hstop] at hact ⊢
    by_cases hfatal : isFatalDefault sig = true
    · simp [hfatal] at hact
    · rw [if_neg hfatal]

section

variable (hsig : 1 ≤ sig ∧ sig ≤ 64)
include hsig

lemma recorded_byKill (hlive : c.proc.state ≠ .dead)
    (hact : c.action sig = .discarded ∨ c.action sig = .handled) (hkept : ¬ c.Dropped sig) :
    Recorded sig c (c.byKill sig) := by
  rw [byKill_of_kept hsig.1 hact hkept]
  obtain ⟨⟨hp, hm, hh⟩, hd, hs⟩ := (c.continued sig).queueSignal_fields hsig
  have hcont : ((c.continued sig).pendingSignals = c.proc.pendingSignals ∧
      (c.continued sig).signalMask = c.proc.signalMask ∧
      (c.continued sig).handler = c.proc.handler) ∧ (c.continued sig).state ≠ .dead ∧
      ((c.continued sig).state = .stopped → c.proc.state = .stopped) := by
    unfold continued
    split
    · rename_i h
      exact ⟨⟨rfl, rfl, rfl⟩, by simp, fun _ => h.2⟩
    · exact ⟨⟨rfl, rfl, rfl⟩, hlive, id⟩
  obtain ⟨⟨hp', hm', hh'⟩, hd', hs'⟩ := hcont
  exact ⟨hp.trans (by rw [hp']), hm.trans hm', hh.trans hh', rfl, rfl, fun h => hd' (hd.mp h),
    fun h => hs' (hs.mp h)⟩

/-- A stopped process is continued by `kill` with SIGCONT, and by nothing else. -/
lemma byKill_stopped_iff (hact : c.action sig = .discarded ∨ c.action sig = .handled) :
    (c.byKill sig).proc.state = .stopped ↔ sig ≠ sigcont ∧ c.proc.state = .stopped := by
  by_cases hdrop : c.Dropped sig
  · rw [byKill_of_dropped hsig.1 hdrop, and_iff_right hdrop.1]
  · rw [byKill_of_kept hsig.1 hact hdrop]
    rw [((c.continued sig).queueSignal_fields hsig).2.2, continued]
    by_cases hcont : sig = sigcont
    · by_cases hstop : c.proc.state = .stopped <;> simp [hcont, hstop]
    · simp [hcont]

lemma recorded_self (hlive : c.proc.state ≠ .dead)
    (hp : c.proc.IsPending sig) : Recorded sig c c := by
  refine ⟨?_, rfl, rfl, rfl, rfl, hlive, id⟩
  apply BitVec.eq_of_getLsbD_eq
  intro i _
  rw [BitVec.getLsbD_or, getLsbD_signalBit hsig]
  by_cases hi : i = sig - 1
  · rw [hi, show c.proc.pendingSignals.getLsbD (sig - 1) = true from hp]
    rfl
  · simp [hi]

end

/-- The frame of the handler fits on the stack, and the processor takes its address. -/
def Callable (mapped : BitVec 64 → Bool) (c : UserContext) (sig : Nat) : Prop :=
  c.restorer sig ≠ 0 ∧ firstFault mapped c.retSlot (8 + UserSignalFrame.byteSize) = none ∧
    canonical (BitVec.ofNat 64 (c.proc.handler sig)) = true

/-- The processes and signals for which the two dispatchers do what the signal is to do. -/
structure Agrees (mapped : BitVec 64 → Bool) (c : UserContext) (sig : Nat) : Prop where
  /-- The signal neither ends nor stops the process, and a handler can be called and return. -/
  action : c.action sig = .discarded ∨ c.action sig = .handled ∧ c.Callable mapped sig
  /-- A blocked signal that `kill` drops is pending already. -/
  recorded : c.Blocked sig → c.Dropped sig → c.proc.IsPending sig
  lowest : c.proc.Lowest sig
  unmasked : sig = sigkill ∨ sig = sigstop → ¬ c.proc.IsMasked sig
  running : sig = sigcont → c.proc.state ≠ .stopped
  /-- If the next return is not about this signal, the one it is about does not fault. -/
  others : c.Blocked sig ∨ c.Dropped sig ∧ ¬ c.proc.IsPending sig → c.Deliverable mapped

lemma Agrees.acts (h : c.Agrees mapped sig) :
    c.action sig = .discarded ∨ c.action sig = .handled :=
  h.action.imp id And.left

lemma Recorded.caught_eq (h : Recorded sig c r) (s : Nat) : r.caught s = c.caught s := by
  rw [caught, caught, h.handler, h.restorer]

lemma Recorded.retSlot_eq (h : Recorded sig c r) : r.retSlot = c.retSlot := by
  rw [retSlot, retSlot, frameAddr, frameAddr, h.trap]

lemma Recorded.deliverable_iff_of_masked (h : Recorded sig c r) (hsig : 1 ≤ sig ∧ sig ≤ 64)
    (hm : c.proc.IsMasked sig) : r.Deliverable mapped ↔ c.Deliverable mapped := by
  simp only [Deliverable, h.next_eq_of_masked hsig hm, h.caught_eq, h.retSlot_eq, h.handler]

lemma caught_of_handled (h : c.action sig = .handled) (hret : c.restorer sig ≠ 0) :
    c.caught sig = true := by
  unfold UserContext.action at h
  unfold caught
  split at h
  · cases h
  split at h
  · rename_i hhandler
    simp [hhandler]
    exact hret
  · split at h
    · cases h
    · split at h <;> cases h

lemma caught_of_discarded (h : c.action sig = .discarded) : c.caught sig = false := by
  unfold UserContext.action at h
  unfold caught
  split at h
  · rename_i hign
    simp [hign.1]
  · split at h
    · cases h
    · rename_i hhandler
      simp [hhandler]

lemma deliverable_of_next (hnext : r.proc.nextUnblockedSignal = some sig)
    (h : r.caught sig = true → firstFault mapped r.retSlot (8 + UserSignalFrame.byteSize) = none ∧
      canonical (BitVec.ofNat 64 (r.proc.handler sig)) = true) : r.Deliverable mapped := by
  intro s hs hcaught
  obtain rfl := Option.some.inj (hnext.symm.trans hs)
  exact h hcaught

lemma Agrees.shows_action (h : c.Agrees mapped sig) (hsig : 1 ≤ sig ∧ sig ≤ 64)
    (hon : GoesOn c r) (hcaught : r.caught sig = c.caught sig) (hslot : r.retSlot = c.retSlot)
    (hhandler : r.proc.handler = c.proc.handler)
    (htakes : r.proc.nextUnblockedSignal = some sig) : Shows mapped sig c r (c.action sig) := by
  rcases h.action with hact | ⟨hact, hret, hframe, haddr⟩
  · have hno : r.caught sig = false := hcaught.trans (caught_of_discarded hact)
    rw [hact, shows_discarded_iff hsig hon]
    refine ⟨deliverable_of_next htakes fun hc => ?_, fun hcall => ?_, fun _ => htakes⟩
    · simp [hno] at hc
    · simp [hcall.2] at hno
  · rw [hact, shows_handled_iff hsig hon]
    refine ⟨deliverable_of_next htakes fun _ => ?_, htakes, ?_⟩
    · rw [hslot, hhandler]
      exact ⟨hframe, haddr⟩
    · exact hcaught.trans (caught_of_handled hact hret)

lemma Recorded.shows_expected (hr : Recorded sig c r) (h : c.Agrees mapped sig)
    (hsig : 1 ≤ sig ∧ sig ≤ 64) : Shows mapped sig c r (c.expected sig) := by
  unfold expected
  by_cases hb : c.Blocked sig
  · rw [if_pos hb, shows_pending_iff hsig (hr.isPending hsig) hr.goesOn,
      hr.deliverable_iff_of_masked hsig hb.1, Ne, hr.takes_iff hsig]
    exact ⟨h.others (.inl hb), fun ht => ht.1 hb.1⟩
  rw [if_neg hb]
  refine h.shows_action hsig hr.goesOn (hr.caught_eq sig) hr.retSlot_eq hr.handler
    ((hr.takes_iff hsig).mpr ⟨fun hm => ?_, h.lowest⟩)
  by_cases hks : sig = sigkill ∨ sig = sigstop
  · exact h.unmasked hks hm
  · exact hb ⟨hm, fun hk => hks (.inl hk), fun hk => hks (.inr hk)⟩

lemma Recorded.shows_unblocked (hr : Recorded sig c r) (h : c.Agrees mapped sig)
    (hsig : 1 ≤ sig ∧ sig ≤ 64) : Shows mapped sig c (r.unblock sig) (c.action sig) :=
  h.shows_action hsig hr.goesOn (hr.caught_eq sig) hr.retSlot_eq hr.handler
    ((hr.takes_unblocked_iff hsig).mpr h.lowest)

/-- A signal that `kill` has dropped is not there, whatever the next return is about. -/
lemma shows_dropped_iff (hsig : 1 ≤ sig ∧ sig ≤ 64) (hlive : c.proc.state ≠ .dead)
    (hnot : ¬ c.proc.IsPending sig) :
    Shows mapped sig c c .discarded ↔ c.Deliverable mapped := by
  rw [shows_discarded_iff hsig ⟨hlive, id⟩]
  refine and_iff_left ⟨fun hcall => ?_, fun hp => absurd hp hnot⟩
  exact hnot ((Process.nextUnblockedSignal_eq_some hsig).mp hcall.1).1.1

lemma next_of_shows (hsig : 1 ≤ sig ∧ sig ≤ 64) (hp : r.proc.IsPending sig) (hon : GoesOn c r)
    (hcaught : r.caught sig = c.caught sig) (hslot : r.retSlot = c.retSlot)
    (hhandler : r.proc.handler = c.proc.handler) (hs : Shows mapped sig c r (c.action sig)) :
    r.proc.nextUnblockedSignal = some sig ∧
      (c.action sig = .discarded ∨ c.action sig = .handled ∧ c.Callable mapped sig) := by
  have hnever : c.action sig ≠ .pending := by
    unfold action
    repeat' split
    all_goals simp
  cases hact : c.action sig with
  | pending => exact absurd hact hnever
  | discarded =>
    rw [hact, shows_discarded_iff hsig hon] at hs
    exact ⟨hs.2.2 hp, .inl rfl⟩
  | handled =>
    rw [hact, shows_handled_iff hsig hon] at hs
    obtain ⟨hdel, hnext, hcall⟩ := hs
    have hfits := hdel sig hnext hcall
    rw [hslot, hhandler] at hfits
    rw [hcaught] at hcall
    simp only [caught, Bool.and_eq_true, bne_iff_ne] at hcall
    exact ⟨hnext, .inr ⟨rfl, hcall.2, hfits⟩⟩
  | died =>
    rw [hact] at hs
    exact absurd (soon_iff (P := fun state status => state = .dead ∧ status = _) |>.mp hs).1 hon.1
  | stopped =>
    rw [hact] at hs
    have hstop := soon_iff (P := fun state status => state = .stopped ∧ status = _) |>.mp hs.2
    exact absurd (hon.2 hstop.1) hs.1

lemma Agrees.shows_byKill (h : c.Agrees mapped sig) (hsig : 1 ≤ sig ∧ sig ≤ 64)
    (hlive : c.proc.state ≠ .dead) :
    Shows mapped sig c (c.byKill sig) (c.expected sig) ∧
      (c.Blocked sig → Shows mapped sig c ((c.byKill sig).unblock sig) (c.action sig)) := by
  by_cases hdrop : c.Dropped sig
  · rw [byKill_of_dropped hsig.1 hdrop]
    by_cases hp : c.proc.IsPending sig
    · have hr := recorded_self hsig hlive hp
      exact ⟨hr.shows_expected h hsig, fun _ => hr.shows_unblocked h hsig⟩
    · have hb : ¬ c.Blocked sig := fun hb => hp (h.recorded hb hdrop)
      have hact : c.action sig = .discarded := if_pos hdrop.2
      rw [expected, if_neg hb, hact]
      exact ⟨(shows_dropped_iff hsig hlive hp).mpr (h.others (.inr ⟨hdrop, hp⟩)),
        fun hb' => absurd hb' hb⟩
  · have hr := recorded_byKill hsig hlive h.acts hdrop
    exact ⟨hr.shows_expected h hsig, fun _ => hr.shows_unblocked h hsig⟩

lemma Agrees.uniform (h : c.Agrees mapped sig) (hsig : 1 ≤ sig ∧ sig ≤ 64)
    (hlive : c.proc.state ≠ .dead) : c.Uniform mapped sig := by
  have hr := recorded_byQueue hsig hlive
  refine ⟨(h.shows_byKill hsig hlive).1, hr.shows_expected h hsig, ?_,
    (h.shows_byKill hsig hlive).2, fun _ => hr.shows_unblocked h hsig⟩
  rw [byKill_stopped_iff hsig h.acts, byQueue_stopped_iff hsig]
  exact ⟨And.right, fun hs => ⟨fun hcont => h.running hcont hs, hs⟩⟩

lemma Uniform.agrees (h : c.Uniform mapped sig) (hsig : 1 ≤ sig ∧ sig ≤ 64)
    (hlive : c.proc.state ≠ .dead) : c.Agrees mapped sig := by
  have hr := recorded_byQueue hsig hlive
  have hnext : (c.action sig = .discarded ∨ c.action sig = .handled ∧ c.Callable mapped sig) ∧
      c.proc.Lowest sig ∧ (sig = sigkill ∨ sig = sigstop → ¬ c.proc.IsMasked sig) := by
    by_cases hb : c.Blocked sig
    · obtain ⟨ht, hact⟩ := next_of_shows (r := (c.byQueue sig).unblock sig) hsig
        (hr.isPending hsig) hr.goesOn (hr.caught_eq sig) hr.retSlot_eq hr.handler
        (h.queueUnblocked hb)
      refine ⟨hact, (hr.takes_unblocked_iff hsig).mp ht, fun hks => ?_⟩
      rcases hks with hk | hk
      · exact absurd hk hb.2.1
      · exact absurd hk hb.2.2
    · have hq := h.queue
      rw [expected, if_neg hb] at hq
      obtain ⟨ht, hact⟩ := next_of_shows hsig (hr.isPending hsig) hr.goesOn (hr.caught_eq sig)
        hr.retSlot_eq hr.handler hq
      have := (hr.takes_iff hsig).mp ht
      exact ⟨hact, this.2, fun _ => this.1⟩
  obtain ⟨hact, hlow, hmask⟩ := hnext
  have hacts : c.action sig = .discarded ∨ c.action sig = .handled := hact.imp id And.left
  have hdropped : c.Dropped sig → ¬ c.proc.IsPending sig → ¬ c.Blocked sig := by
    intro hdrop hp hb
    -- `kill` left the process as it was, so what is pending after it was pending before
    have hk := h.kill
    rw [byKill_of_dropped hsig.1 hdrop, expected, if_pos hb] at hk
    obtain ⟨-, r', hok, hpend, -⟩ := hk
    exact hp ((deliver_spec hsig hok).1.mp hpend).1
  refine ⟨hact, fun hb hdrop => ?_, hlow, hmask, fun hcont hstop => ?_, fun hother => ?_⟩
  · by_contra hp
    exact hdropped hdrop hp hb
  · have := h.stopped.mpr ((byQueue_stopped_iff hsig).mpr hstop)
    exact ((byKill_stopped_iff hsig hacts).mp this).1 hcont
  · rcases hother with hb | ⟨hdrop, hp⟩
    · have hq := h.queue
      rw [expected, if_pos hb, shows_pending_iff hsig (hr.isPending hsig) hr.goesOn] at hq
      exact (hr.deliverable_iff_of_masked hsig hb.1).mp hq.1
    · have hk := h.kill
      have hdisc : c.action sig = .discarded := if_pos hdrop.2
      rw [byKill_of_dropped hsig.1 hdrop, expected, if_neg (hdropped hdrop hp), hdisc] at hk
      exact (shows_dropped_iff hsig hlive hp).mp hk

/-- Whoever raises a signal, it does what it is to do exactly if it neither ends nor stops the
process, its handler can be entered and can return, `kill` does not drop it while it is blocked,
no lower signal is due, SIGKILL and SIGSTOP are not masked, it does not continue a stopped
process, and no other signal due at that return makes it fault. -/
theorem dispatch_uniform_iff (mapped : BitVec 64 → Bool) (c : UserContext) (sig : Nat)
    (hsig : 1 ≤ sig ∧ sig ≤ 31) (hlive : c.proc.state ≠ .dead) :
    c.Uniform mapped sig ↔ c.Agrees mapped sig :=
  ⟨fun h => h.agrees ⟨hsig.1, by omega⟩ hlive, fun h => h.uniform ⟨hsig.1, by omega⟩ hlive⟩

/-- A program with one disposition for all signals and nothing pending. -/
def plain (handler : Nat) (mask : BitVec 64) : UserContext :=
  { caller handler ioplFrame with
    proc := { Process.fresh 1 0 1 with handler := fun _ => handler, signalMask := mask } }

lemma lowest_plain (handler : Nat) (mask : BitVec 64) (sig : Nat) :
    (plain handler mask).proc.Lowest sig :=
  fun s _ _ hs => by simp [plain, Process.IsPending, Process.fresh] at hs

/-- SIGUSR1 with a handler, blocked when it is raised. -/
theorem dispatch_uniform_iff_handler :
    (plain 0x400100 (signalBit 10)).Agrees lowerHalf 10 ∧
      (plain 0x400100 (signalBit 10)).Uniform lowerHalf 10 := by
  have h : (plain 0x400100 (signalBit 10)).Agrees lowerHalf 10 :=
    ⟨.inr ⟨by decide, by decide, by decide +kernel, by decide⟩, by decide, lowest_plain _ _ _,
      by decide, by decide, fun _ s hs => by
        rw [show (plain 0x400100 (signalBit 10)).proc.nextUnblockedSignal = none by decide +kernel]
          at hs
        cases hs⟩
  exact ⟨h, (dispatch_uniform_iff lowerHalf _ 10 (by decide) (by decide)).mpr h⟩

/-- SIGTERM ends a program if it is sent by `kill`, whether it is blocked or not, and nothing
comes of it if it is raised by `queue_signal`. -/
theorem term_depends_on_sender :
    Shows lowerHalf 15 (plain 0 0) ((plain 0 0).byKill 15) .died ∧
      Shows lowerHalf 15 (plain 0 0) ((plain 0 0).byQueue 15) .discarded ∧
      ¬ (plain 0 0).Uniform lowerHalf 15 ∧ (plain 0 (signalBit 15)).Blocked 15 ∧
      Shows lowerHalf 15 (plain 0 (signalBit 15)) ((plain 0 (signalBit 15)).byKill 15) .died := by
  have hon : GoesOn (plain 0 0) ((plain 0 0).byQueue 15) := ⟨by decide, by decide⟩
  have hcaught : ∀ s, ((plain 0 0).byQueue 15).caught s = false := fun _ => rfl
  have hqueued : Shows lowerHalf 15 (plain 0 0) ((plain 0 0).byQueue 15) .discarded := by
    refine (shows_discarded_iff (by decide) hon).mpr ⟨fun s _ hc => ?_, fun hc => ?_, fun _ => ?_⟩
    · exact absurd ((hcaught s).symm.trans hc) (by simp)
    · exact absurd ((hcaught 15).symm.trans hc.2) (by simp)
    · decide +kernel
  refine ⟨.inl ⟨by decide, by decide⟩, hqueued, fun h => ?_, by decide,
    .inl ⟨by decide, by decide⟩⟩
  have hdead := soon_iff (P := fun state status => state = .dead ∧ status = _) |>.mp h.queue
  exact hon.1 hdead.1

end UserContext

end Twilight.Proc

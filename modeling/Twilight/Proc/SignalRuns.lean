/-
A handler runs and returns.

`HandlerRun` is everything that may happen on the stack below a signal frame before
its handler returns: the handler computes and makes calls, and further signals
interrupt it, each with a frame, a run and an `rt_sigreturn` of its own. The run
leaves the frames above it alone, so the outermost `rt_sigreturn` finds what delivery
stored, and the interrupted program goes on with its registers, flags and mask.

What delivery does not leave alone is the red zone, the 128 bytes below the stack
pointer that the interrupted code may be using: the frame is stored right there.
-/
import Twilight.Proc.SignalFrame

namespace Twilight.Proc

open BitVec UserSignalFrame Bytes

/-! ## Where the frame lies -/

lemma toNat_and_not_15 (x : BitVec 64) : (x &&& ~~~0xf).toNat = x.toNat / 16 * 16 := by
  have hshift : x &&& ~~~0xf#64 = (x >>> 4) <<< 4 := by
    ext i hi
    simp only [getElem_and, getElem_not]
    by_cases h4 : i < 4
    · have hbit : ∀ i (h : i < 64), i < 4 → (0xf#64)[i] = true := by decide
      simp [h4, hbit i hi h4]
    · have hbit : ∀ i (h : i < 64), ¬ i < 4 → (0xf#64)[i] = false := by decide
      simp [h4, hbit i hi h4, show 4 + (i - 4) = i by omega, getLsbD_eq_getElem hi]
  rw [show (0xf : BitVec 64) = 0xf#64 from rfl, hshift, toNat_shiftLeft, toNat_ushiftRight]
  omega

namespace UserContext

variable {mapped : BitVec 64 → Bool} {c h : UserContext}

def Stored (c : UserContext) (a : Nat) : Prop :=
  c.retSlot.toNat ≤ a ∧ a < c.frameAddr.toNat + UserSignalFrame.byteSize

/-- The handler of `sig` is called at the next return to user mode. -/
def Calls (c : UserContext) (sig : Nat) : Prop :=
  c.proc.nextUnblockedSignal = some sig ∧ c.caught sig = true

/-- Where the frame of a call that succeeds lies: in the lower half, below the stack pointer by
less than 16 bytes more than its size. -/
structure FrameBelow (c : UserContext) : Prop where
  slot : c.retSlot.toNat + 8 = c.frameAddr.toNat
  low : c.trap.rsp.toNat < c.frameAddr.toNat + UserSignalFrame.byteSize + 16
  high : c.frameAddr.toNat + UserSignalFrame.byteSize ≤ c.trap.rsp.toNat

lemma frameBelow_of_mapped (h47 : ∀ a, mapped a = true → a.toNat < 2 ^ 47)
    (hslot : mapped c.retSlot = true) : c.FrameBelow := by
  have hlt := h47 _ hslot
  have hsub : (c.trap.rsp - BitVec.ofNat 64 byteSize).toNat
      = (2 ^ 64 - 168 + c.trap.rsp.toNat) % 2 ^ 64 := by
    rfl
  have hframe : c.frameAddr.toNat
      = (2 ^ 64 - 168 + c.trap.rsp.toNat) % 2 ^ 64 / 16 * 16 := by
    rw [frameAddr, toNat_and_not_15, hsub]
  have hret : c.retSlot.toNat = (2 ^ 64 - 8 + c.frameAddr.toNat) % 2 ^ 64 := by
    rfl
  constructor
  · omega
  · unfold byteSize
    omega
  · unfold byteSize
    omega

lemma deliver_calls {sig : Nat} (hcall : c.Calls sig) (hok : c.deliverPendingSignal mapped = .ok h) :
    firstFault mapped c.retSlot (8 + byteSize) = none ∧ h = c.callHandler sig := by
  unfold deliverPendingSignal at hok
  rw [hcall.1] at hok
  simp only [hcall.2, Bool.not_true, Bool.false_eq_true, if_false] at hok
  cases hf : firstFault mapped c.retSlot (8 + byteSize) with
  | some e =>
    rw [hf] at hok
    cases hok
  | none =>
    rw [hf] at hok
    simp only at hok
    split at hok
    · injection hok with hok
      exact ⟨rfl, hok.symm⟩
    · cases hok

lemma frameBelow_of_fault (h47 : ∀ a, mapped a = true → a.toNat < 2 ^ 47)
    (hf : firstFault mapped c.retSlot (8 + byteSize) = none) : c.FrameBelow := by
  have h0 := (firstFault_eq_none hf (show 0 < 8 + byteSize by decide)).2
  rw [BitVec.add_zero] at h0
  exact frameBelow_of_mapped h47 h0

lemma callHandler_mem (hb : c.FrameBelow) (sig : Nat) {a : Nat} (ha : ¬ c.Stored a) :
    (c.callHandler sig).mem a = c.mem a := by
  have hslot := hb.slot
  have hout : a < c.retSlot.toNat ∨ c.frameAddr.toNat + byteSize ≤ a := by
    unfold Stored at ha
    omega
  show splice _ _ _ _ a = c.mem a
  rw [splice_outside (by omega)]
  show splice _ _ _ _ a = c.mem a
  rw [splice_outside (by omega)]

lemma callHandler_frame (sig : Nat) :
    load (c.callHandler sig).mem c.frameAddr.toNat = c.savedFrame :=
  load_store ..

/-! ## Runs of handlers -/

/-- What may happen between a handler's call and its return, on the stack below `top`, by code
that keeps its hands off the bytes `keep`. -/
inductive HandlerRun (mapped : BitVec 64 → Bool) :
    (keep : Nat → Prop) → (top : Nat) → UserContext → UserContext → Prop
  | done {keep : Nat → Prop} {top : Nat} (c : UserContext) : HandlerRun mapped keep top c c
  -- user code, and calls that change masks, actions and pending signals
  | compute {keep : Nat → Prop} {top : Nat} {c d e : UserContext}
      (hmem : ∀ a, keep a → d.mem a = c.mem a) (hrest : HandlerRun mapped keep top d e) :
      HandlerRun mapped keep top c e
  -- another signal, its handler and the handler's return
  | signal {keep : Nat → Prop} {top sig : Nat} {c h r d e : UserContext}
      (hstack : c.trap.rsp.toNat ≤ top) (hcall : c.Calls sig)
      (hok : c.deliverPendingSignal mapped = .ok h)
      (hrun : HandlerRun mapped (fun a => keep a ∨ c.frameAddr.toNat ≤ a ∧
        a < c.frameAddr.toNat + UserSignalFrame.byteSize) c.frameAddr.toNat h r)
      (hsp : r.trap.rsp = c.frameAddr) (hret : r.rtSigreturn mapped = .ok (true, d))
      (hrest : HandlerRun mapped keep top d e) : HandlerRun mapped keep top c e

lemma rtSigreturn_mem {b : Bool} {r d : UserContext} (hret : r.rtSigreturn mapped = .ok (b, d)) :
    d.mem = r.mem := by
  unfold rtSigreturn at hret
  split at hret
  · cases hret
  split at hret
  · cases hret
    rfl
  · split at hret
    · cases hret
      rfl
    · cases hret

/-- A run keeps the bytes above its stack that it may not touch, however its signals nest. -/
lemma HandlerRun.mem_eq (h47 : ∀ a, mapped a = true → a.toNat < 2 ^ 47) {keep : Nat → Prop}
    {top : Nat} {c e : UserContext} (hr : HandlerRun mapped keep top c e)
    (hkeep : ∀ a, keep a → top ≤ a) {a : Nat} (ha : keep a) : e.mem a = c.mem a := by
  induction hr with
  | done c => rfl
  | compute hmem _ ih => exact (ih hkeep ha).trans (hmem a ha)
  | @signal keep top sig c h r d e hstack hcall hok hrun hsp hret hrest ih ih' =>
    obtain ⟨hfault, rfl⟩ := deliver_calls hcall hok
    have hb := frameBelow_of_fault h47 hfault
    have hhigh := hb.high
    -- the frame of the inner signal lies below `top`
    have hinner : ∀ x, (keep x ∨ c.frameAddr.toNat ≤ x ∧
        x < c.frameAddr.toNat + byteSize) → c.frameAddr.toNat ≤ x := by
      intro x hx
      rcases hx with hx | hx
      · have := hkeep x hx
        omega
      · exact hx.1
    have hstored : ¬ c.Stored a := by
      have := hkeep a ha
      unfold Stored
      omega
    calc e.mem a = d.mem a := ih' hkeep ha
      _ = r.mem a := by rw [rtSigreturn_mem hret]
      _ = (c.callHandler sig).mem a := ih hinner (.inl ha)
      _ = c.mem a := callHandler_mem hb sig hstored

/-! ## The return -/

/-- The interrupted program goes on as it was: its registers, its flags as `sysretq` loads them,
and its mask, or the one saved by `rt_sigsuspend`. -/
structure Restored (c d : UserContext) : Prop where
  regs : d.trap.regs = c.trap.regs
  rip : d.trap.rip = c.trap.rip
  rsp : d.trap.rsp = c.trap.rsp
  flags : sysretFlags d.trap.rflags = sysretFlags c.trap.rflags
  mask : d.mask = c.oldMask

lemma restored_resume {c d : UserContext} (hmask : unmaskable c.oldMask.1 = c.oldMask.1) :
    Restored c (d.resume c.savedFrame) where
  regs := rfl
  rip := rfl
  rsp := rfl
  flags := sysretFlags_truncated c.trap.rflags
  mask := by
    show (unmaskable c.oldMask.1, c.oldMask.2) = c.oldMask
    rw [hmask]

lemma HandlerRun.restores (h47 : ∀ a, mapped a = true → a.toNat < 2 ^ 47) {sig : Nat}
    {r : UserContext} (hcall : c.Calls sig) (hok : c.deliverPendingSignal mapped = .ok h)
    (hrip : canonical c.trap.rip = true) (hrsp : canonical c.trap.rsp = true)
    (hmask : unmaskable c.oldMask.1 = c.oldMask.1)
    (hrun : HandlerRun mapped (fun a => c.frameAddr.toNat ≤ a ∧
      a < c.frameAddr.toNat + byteSize) c.frameAddr.toNat h r)
    (hsp : r.trap.rsp = c.frameAddr) :
    ∃ d, r.rtSigreturn mapped = .ok (true, d) ∧ Restored c d := by
  obtain ⟨hfault, rfl⟩ := deliver_calls hcall hok
  have hframe : r.foundFrame = c.savedFrame := by
    rw [foundFrame, hsp, ← callHandler_frame sig]
    refine load_congr fun x hx hx' => ?_
    exact hrun.mem_eq h47 (fun a ha => ha.1) ⟨hx, hx'⟩
  -- the frame is readable because it was written
  have hread : firstFault mapped r.trap.rsp byteSize = none := by
    rw [firstFault, List.findSome?_eq_none_iff] at hfault ⊢
    intro j hj
    have hlt := List.mem_range.mp hj
    have hword := hfault (8 + j) (List.mem_range.mpr (by omega))
    have haddr : c.retSlot + BitVec.ofNat 64 (8 + j) = r.trap.rsp + BitVec.ofNat 64 j := by
      rw [hsp, retSlot, ofNat_add]
      rw [show (8 : BitVec 64) = BitVec.ofNat 64 8 from rfl, ← BitVec.add_assoc, BitVec.sub_add_cancel]
    rw [← haddr]
    exact hword
  refine ⟨r.resume c.savedFrame, ?_, restored_resume hmask⟩
  unfold rtSigreturn
  rw [hread, hframe]
  have hmagic : c.savedFrame.magic = signalFrameMagic := rfl
  have hcanon : (canonical c.savedFrame.trap.rip && canonical c.savedFrame.trap.rsp) = true := by
    rw [Bool.and_eq_true]
    exact ⟨hrip, hrsp⟩
  simp only [hmagic, ne_eq, not_true_eq_false, if_false, hcanon, if_true]

/-- However the handlers nest, the interrupted program gets its state back; but delivery writes
into the red zone of the interrupted code unless no handler is called. -/
theorem signal_transparent_iff (h47 : ∀ a, mapped a = true → a.toNat < 2 ^ 47)
    (hok : c.deliverPendingSignal mapped = .ok h)
    (hrip : canonical c.trap.rip = true) (hrsp : canonical c.trap.rsp = true)
    (hmask : unmaskable c.oldMask.1 = c.oldMask.1) :
    (∀ sig r, c.Calls sig → HandlerRun mapped (fun a => c.frameAddr.toNat ≤ a ∧
        a < c.frameAddr.toNat + UserSignalFrame.byteSize) c.frameAddr.toNat h r →
      r.trap.rsp = c.frameAddr → ∃ d, r.rtSigreturn mapped = .ok (true, d) ∧ Restored c d) ∧
    ((∀ sig a, c.Calls sig → c.Stored a → a + 128 < c.trap.rsp.toNat) ↔ ∀ sig, ¬ c.Calls sig) := by
  refine ⟨fun sig r hcall hrun hsp => hrun.restores h47 hcall hok hrip hrsp hmask hsp, ?_⟩
  constructor
  · intro hred sig hcall
    have hb := frameBelow_of_fault h47 (deliver_calls hcall hok).1
    have hlow := hb.low
    have hslot := hb.slot
    -- the last byte of the frame is within 16 bytes of the stack pointer
    have hlast := hred sig (c.frameAddr.toNat + byteSize - 1) hcall
      (by unfold Stored byteSize; omega)
    omega
  · exact fun hno sig a hcall => absurd hcall (hno sig)

lemma caller_deliver : (caller 0x400100 ioplFrame).deliverPendingSignal lowerHalf
    = .ok ((caller 0x400100 ioplFrame).callHandler 10) := by
  rfl

/-- Signal 10 is pending and has a handler. -/
theorem signal_transparent_iff_caller :
    (∀ sig r, (caller 0x400100 ioplFrame).Calls sig →
      HandlerRun lowerHalf (fun a => (caller 0x400100 ioplFrame).frameAddr.toNat ≤ a ∧
          a < (caller 0x400100 ioplFrame).frameAddr.toNat + UserSignalFrame.byteSize)
        (caller 0x400100 ioplFrame).frameAddr.toNat ((caller 0x400100 ioplFrame).callHandler 10) r →
      r.trap.rsp = (caller 0x400100 ioplFrame).frameAddr →
      ∃ d, r.rtSigreturn lowerHalf = .ok (true, d) ∧ Restored (caller 0x400100 ioplFrame) d) ∧
    ((∀ sig a, (caller 0x400100 ioplFrame).Calls sig → (caller 0x400100 ioplFrame).Stored a →
        a + 128 < (caller 0x400100 ioplFrame).trap.rsp.toNat) ↔
      ∀ sig, ¬ (caller 0x400100 ioplFrame).Calls sig) :=
  signal_transparent_iff (fun a ha => by simpa [lowerHalf] using ha) caller_deliver (by decide)
    (by decide) (by decide)

/-- With the stack pointer at 0x7000 the frame reaches up to 0x6ff8. -/
theorem frame_in_red_zone : (caller 0x400100 ioplFrame).Calls 10 ∧
    (caller 0x400100 ioplFrame).Stored 0x6ff0 ∧
    ¬ 0x6ff0 + 128 < (caller 0x400100 ioplFrame).trap.rsp.toNat :=
  ⟨⟨by decide, by decide⟩, ⟨by decide, by decide⟩, by decide⟩

end UserContext

end Twilight.Proc

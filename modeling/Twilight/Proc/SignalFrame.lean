/-
Signal frames: what `deliver_pending_signal` puts on the user stack and what
`rt_sigreturn` takes from it.

A syscall returns to user mode through `sysretq` with the saved registers.  Before
that `deliver_pending_signal` may send the program to a handler: it stores the
registers, the flags and the mask in a `UserSignalFrame` below the stack pointer and
replaces the instruction pointer.  `rt_sigreturn` loads them from wherever the stack
pointer is.  Nothing is checked but the magic word: the handler's address and the
fields of the frame go through `VirtAddr::new`, which panics on an address that is
not canonical, and the flags are cut to the bits the processor knows.
-/
import Twilight.Lib.Bytes
import Twilight.Proc.Process

namespace Twilight.Proc

/-! ## Registers and frames -/

structure Registers where
  r15 : BitVec 64
  r14 : BitVec 64
  r13 : BitVec 64
  r12 : BitVec 64
  rbp : BitVec 64
  rbx : BitVec 64
  r11 : BitVec 64
  r10 : BitVec 64
  r9 : BitVec 64
  r8 : BitVec 64
  rdi : BitVec 64
  rsi : BitVec 64
  rdx : BitVec 64
  rcx : BitVec 64
  rax : BitVec 64
deriving DecidableEq

/-- The saved user state of a syscall: the registers and the interrupt frame. -/
structure Trap where
  regs : Registers
  rip : BitVec 64
  rsp : BitVec 64
  rflags : BitVec 64
deriving DecidableEq

/-- A signal mask, `[u64; 2]`. -/
abbrev SigSet := BitVec 64 × BitVec 64

structure UserSignalFrame where
  magic : BitVec 64
  oldMask : SigSet
  trap : Trap

def signalFrameMagic : BitVec 64 := 0x54575349_4746524d

def loadWord (m : Bytes) (a : Nat) : BitVec 64 := BitVec.ofNat 64 (m.readLE a 8)

namespace UserSignalFrame

/-- `size_of::<UserSignalFrame>()` -/
def byteSize : Nat := 168

variable (f : UserSignalFrame)

def words : List (BitVec 64) :=
  [f.magic, f.oldMask.1, f.oldMask.2, f.trap.regs.r15, f.trap.regs.r14, f.trap.regs.r13,
    f.trap.regs.r12, f.trap.regs.rbp, f.trap.regs.rbx, f.trap.regs.r11, f.trap.regs.r10,
    f.trap.regs.r9, f.trap.regs.r8, f.trap.regs.rdi, f.trap.regs.rsi, f.trap.regs.rdx,
    f.trap.regs.rcx, f.trap.regs.rax, f.trap.rip, f.trap.rsp, f.trap.rflags]

def encode : Bytes := fun j => Bytes.le (f.words.getD (j / 8) 0).toNat (j % 8)

variable (m : Bytes) (a : Nat)

def store : Bytes := m.splice a byteSize f.encode

def load : UserSignalFrame :=
  let w := fun k => loadWord m (a + 8 * k)
  { magic := w 0
    oldMask := (w 1, w 2)
    trap :=
      { regs :=
          { r15 := w 3, r14 := w 4, r13 := w 5, r12 := w 6, rbp := w 7, rbx := w 8, r11 := w 9,
            r10 := w 10, r9 := w 11, r8 := w 12, rdi := w 13, rsi := w 14, rdx := w 15,
            rcx := w 16, rax := w 17 }
        rip := w 18
        rsp := w 19
        rflags := w 20 } }

lemma loadWord_store {k : Nat} (hk : k < 21) :
    loadWord (f.store m a) (a + 8 * k) = f.words.getD k 0 := by
  have hword : ∀ j < 8, f.encode (a + 8 * k - a + j) = Bytes.le (f.words.getD k 0).toNat j := by
    intro j hj
    rw [encode, show (a + 8 * k - a + j) / 8 = k by omega, show (a + 8 * k - a + j) % 8 = j by omega]
  have hmod : (f.words.getD k 0).toNat % 256 ^ 8 = (f.words.getD k 0).toNat :=
    Nat.mod_eq_of_lt (f.words.getD k 0).isLt
  rw [loadWord, store, Bytes.readLE_splice_inside (by omega) (by unfold byteSize; omega),
    Bytes.readLE_of_le hword, hmod, BitVec.ofNat_toNat, BitVec.setWidth_eq]

lemma load_store : load (f.store m a) a = f := by
  have hw := fun k (hk : k < 21) => f.loadWord_store m a hk
  simp only [load, hw, Nat.reduceLT]
  rfl

lemma load_congr {m m' : Bytes} {a : Nat} (h : ∀ x, a ≤ x → x < a + byteSize → m' x = m x) :
    load m' a = load m a := by
  have hw : ∀ k < 21, loadWord m' (a + 8 * k) = loadWord m (a + 8 * k) := by
    intro k hk
    rw [loadWord, loadWord, Bytes.readLE_congr fun j hj => h _ (by omega) (by unfold byteSize; omega)]
  simp only [load, hw, Nat.reduceLT]

end UserSignalFrame

/-! ## Addresses and flags -/

/-- The addresses `VirtAddr::new` takes. -/
def canonical (a : BitVec 64) : Bool := a >>> 47 == 0 || a >>> 47 == 0x1ffff

/-- How an access of the kernel to user memory goes wrong: the process is ended by a fault of its
own, or the kernel panics. -/
inductive Fault where
  | killed
  | panic
deriving DecidableEq

/-- An access to one byte.  `mapped` says which addresses are mapped or can be made so; a fault at
an address of the lower half ends the process, any other stops the kernel. -/
def access (mapped : BitVec 64 → Bool) (a : BitVec 64) : Option Fault :=
  if !canonical a then some .panic
  else if mapped a then none
  else if a.toNat < 2 ^ 47 then some .killed
  else some .panic

/-- The first fault of an access to `n` bytes. -/
def firstFault (mapped : BitVec 64 → Bool) (a : BitVec 64) (n : Nat) : Option Fault :=
  (List.range n).findSome? fun j => access mapped (a + BitVec.ofNat 64 j)

lemma access_eq_none {mapped : BitVec 64 → Bool} {a : BitVec 64} (h : access mapped a = none) :
    canonical a = true ∧ mapped a = true := by
  unfold access at h
  split at h
  · cases h
  next hc =>
  split at h
  next hm => exact ⟨by simpa using hc, hm⟩
  · split at h
    · cases h
    · cases h

lemma firstFault_eq_none {mapped : BitVec 64 → Bool} {a : BitVec 64} {n : Nat}
    (h : firstFault mapped a n = none) {j : Nat} (hj : j < n) :
    canonical (a + BitVec.ofNat 64 j) = true ∧ mapped (a + BitVec.ofNat 64 j) = true := by
  rw [firstFault, List.findSome?_eq_none_iff] at h
  exact access_eq_none (h j (List.mem_range.mpr hj))

/-- The bits `RFlags` has names for; `from_bits_truncate` keeps these. -/
def rflagsAll : BitVec 64 := 0x3f7fd5

variable (rflags : BitVec 64)

/-- The flags `sysretq` loads. -/
def sysretFlags : BitVec 64 := rflags &&& 0x3c7fd7 ||| 2

def UserFlags (flags : BitVec 64) : Prop :=
  flags.getLsbD 9 = true ∧ flags.getLsbD 12 = false ∧ flags.getLsbD 13 = false

instance (flags : BitVec 64) : Decidable (UserFlags flags) := inferInstanceAs (Decidable (_ ∧ _))

lemma userFlags_sysret : UserFlags (sysretFlags rflags) ↔ UserFlags rflags := by
  simp [UserFlags, sysretFlags]

lemma userFlags_truncated :
    UserFlags (sysretFlags (rflags &&& rflagsAll)) ↔ UserFlags rflags := by
  simp [UserFlags, sysretFlags, rflagsAll]

lemma sysretFlags_truncated :
    sysretFlags (rflags &&& rflagsAll) = sysretFlags rflags := by
  unfold sysretFlags rflagsAll
  ext i hi
  simp only [BitVec.getElem_or]
  have hbits : ∀ i (h : i < 64), (((0x3f7fd5#64 &&& 0x3c7fd7#64)[i] || (2#64)[i])
      = ((0x3c7fd7#64)[i] || (2#64)[i])) := by decide
  have := hbits i hi
  revert this
  simp only [BitVec.getElem_and]
  generalize rflags[i] = a
  generalize (0x3f7fd5#64)[i] = b
  generalize (0x3c7fd7#64)[i] = c
  generalize (2#64)[i] = d
  revert a b c d
  decide

/-! ## Delivery -/

namespace Process

def nextUnblockedSignal (p : Process) : Option Nat :=
  (List.range' 1 64).find? fun sig => p.pendingSignals &&& ~~~p.signalMask &&& signalBit sig ≠ 0

def dequeueSignal (p : Process) (sig : Nat) : Process :=
  if 1 ≤ sig ∧ sig ≤ 64 then { p with pendingSignals := p.pendingSignals &&& ~~~signalBit sig } else p

end Process

/-- A process on its way back to user mode: the table entry, the parts of its signal actions and
mask that only delivery reads, the saved registers and the user memory. -/
structure UserContext where
  proc : Process
  restorer : Nat → BitVec 64
  actionMask : Nat → SigSet
  actionFlags : Nat → BitVec 64
  maskHigh : BitVec 64
  savedMask : SigSet
  inSigsuspend : Bool
  trap : Trap
  mem : Bytes

namespace UserContext

variable (c : UserContext)

def unmaskable (mask : BitVec 64) : BitVec 64 := mask &&& (~~~signalBit sigkill &&& ~~~signalBit sigstop)

def saNodefer : BitVec 64 := 0x4000_0000

def mask : SigSet := (c.proc.signalMask, c.maskHigh)

def setMask (m : SigSet) : UserContext :=
  { c with proc := { c.proc with signalMask := m.1 }, maskHigh := m.2 }

variable (sig : Nat)

def caught : Bool := sigIgn < c.proc.handler sig && c.restorer sig != 0

/-- The signal is dropped, and a mask of `rt_sigsuspend` ends. -/
def discardSignal : UserContext :=
  let c' := { c with proc := c.proc.dequeueSignal sig }
  if c.inSigsuspend then { c'.setMask c.savedMask with inSigsuspend := false } else c'

def frameAddr : BitVec 64 := (c.trap.rsp - BitVec.ofNat 64 UserSignalFrame.byteSize) &&& ~~~0xf

def retSlot : BitVec 64 := c.frameAddr - 8

def oldMask : SigSet := if c.inSigsuspend then c.savedMask else c.mask

def savedFrame : UserSignalFrame := ⟨signalFrameMagic, c.oldMask, c.trap⟩

/-- The mask while the handler of `sig` runs. -/
def handlerMask : SigSet :=
  let low := c.mask.1 ||| (c.actionMask sig).1
  let low := if c.actionFlags sig &&& saNodefer = 0 then low ||| signalBit sig else low
  (unmaskable low, c.mask.2 ||| (c.actionMask sig).2)

def callHandler : UserContext :=
  let c' := { c with proc := c.proc.dequeueSignal sig }
  { c'.setMask (c.handlerMask sig) with
    inSigsuspend := false
    mem := c.savedFrame.store (c.mem.putLE c.retSlot.toNat 8 (c.restorer sig).toNat) c.frameAddr.toNat
    trap :=
      { c.trap with
        regs := { c.trap.regs with rdi := BitVec.ofNat 64 sig, rsi := 0, rdx := 0 }
        rip := BitVec.ofNat 64 (c.proc.handler sig)
        rsp := c.retSlot } }

variable (mapped : BitVec 64 → Bool)

def deliverPendingSignal : Except Fault UserContext :=
  match c.proc.nextUnblockedSignal with
  | none => .ok c
  | some sig =>
    if !c.caught sig then .ok (c.discardSignal sig)
    else
      match firstFault mapped c.retSlot (8 + UserSignalFrame.byteSize) with
      | some e => .error e
      | none =>
        if canonical (BitVec.ofNat 64 (c.proc.handler sig)) && canonical c.retSlot then
          .ok (c.callHandler sig)
        else .error .panic

/-- The frame `rt_sigreturn` finds. -/
def foundFrame : UserSignalFrame := UserSignalFrame.load c.mem c.trap.rsp.toNat

def resume (f : UserSignalFrame) : UserContext :=
  { c.setMask (unmaskable f.oldMask.1, f.oldMask.2) with
    trap := { f.trap with rflags := f.trap.rflags &&& rflagsAll } }

/-- The flag says whether a frame was found. -/
def rtSigreturn : Except Fault (Bool × UserContext) :=
  match firstFault mapped c.trap.rsp UserSignalFrame.byteSize with
  | some e => .error e
  | none =>
    if c.foundFrame.magic ≠ signalFrameMagic then .ok (false, c)
    else if canonical c.foundFrame.trap.rip && canonical c.foundFrame.trap.rsp then
      .ok (true, c.resume c.foundFrame)
    else .error .panic

/-! ## Harm -/

/-- The call does not stop the kernel, and if it returns, user mode is entered with interrupts
enabled and without I/O privileges. -/
def Harmless {α : Type} (trap : α → Trap) : Except Fault α → Prop
  | .ok a => UserFlags (sysretFlags (trap a).rflags)
  | .error .killed => True
  | .error .panic => False

/-- If a handler is to be called, its frame does not reach addresses whose access stops the
kernel, and its address is canonical unless the access ends the process first. -/
def DeliversSafely : Prop :=
  ∀ sig, c.proc.nextUnblockedSignal = some sig → c.caught sig = true →
    firstFault mapped c.retSlot (8 + UserSignalFrame.byteSize) ≠ some .panic ∧
    (firstFault mapped c.retSlot (8 + UserSignalFrame.byteSize) = none →
      canonical (BitVec.ofNat 64 (c.proc.handler sig)) = true)

/-- The frame at the stack pointer can be read without stopping the kernel, and if it has the
magic word, its addresses are canonical and its flags are those of a user program. -/
def ReturnsSafely : Prop :=
  firstFault mapped c.trap.rsp UserSignalFrame.byteSize ≠ some .panic ∧
  (firstFault mapped c.trap.rsp UserSignalFrame.byteSize = none →
    c.foundFrame.magic = signalFrameMagic →
    canonical c.foundFrame.trap.rip = true ∧ canonical c.foundFrame.trap.rsp = true ∧
    UserFlags c.foundFrame.trap.rflags)

variable {c} {mapped : BitVec 64 → Bool}

lemma canonical_retSlot {n : Nat} (hn : 0 < n)
    (h : firstFault mapped c.retSlot n = none) : canonical c.retSlot = true := by
  have := (firstFault_eq_none h hn).1
  rwa [BitVec.add_zero] at this

lemma discardSignal_trap : (c.discardSignal sig).trap = c.trap := by
  unfold discardSignal
  split
  · rfl
  · rfl

lemma harmless_deliver_iff (hflags : UserFlags c.trap.rflags) :
    Harmless trap (c.deliverPendingSignal mapped) ↔ c.DeliversSafely mapped := by
  have hkept := (userFlags_sysret c.trap.rflags).mpr hflags
  unfold deliverPendingSignal DeliversSafely
  cases hsig : c.proc.nextUnblockedSignal with
  | none => exact iff_of_true hkept (fun sig h => nomatch h)
  | some sig =>
    simp only [Option.some.injEq, forall_eq']
    by_cases hc : c.caught sig = true
    · simp only [hc, forall_const]
      cases hf : firstFault mapped c.retSlot (8 + UserSignalFrame.byteSize) with
      | some e =>
        cases e with
        | killed => exact iff_of_true trivial ⟨by decide, fun h => nomatch h⟩
        | panic => exact iff_of_false id fun h => h.1 rfl
      | none =>
        have hslot := canonical_retSlot (by decide) hf
        simp only [hslot, Bool.and_true]
        by_cases hh : canonical (BitVec.ofNat 64 (c.proc.handler sig)) = true
        · rw [if_pos hh]
          exact iff_of_true hkept ⟨by decide, fun _ => hh⟩
        · rw [if_neg hh]
          exact iff_of_false id fun h => hh (h.2 trivial)
    · rw [Bool.not_eq_true] at hc
      simp only [hc, Bool.false_eq_true, false_implies, iff_true]
      show UserFlags (sysretFlags (c.discardSignal sig).trap.rflags)
      rw [discardSignal_trap]
      exact hkept

lemma harmless_sigreturn_iff (hflags : UserFlags c.trap.rflags) :
    Harmless (fun r => r.2.trap) (c.rtSigreturn mapped) ↔ c.ReturnsSafely mapped := by
  have hkept := (userFlags_sysret c.trap.rflags).mpr hflags
  unfold rtSigreturn ReturnsSafely
  cases hf : firstFault mapped c.trap.rsp UserSignalFrame.byteSize with
  | some e =>
    cases e with
    | killed => exact iff_of_true trivial ⟨by decide, fun h => nomatch h⟩
    | panic => exact iff_of_false id fun h => h.1 rfl
  | none =>
    simp only [ne_eq, reduceCtorEq, not_false_eq_true, true_and, forall_const]
    by_cases hm : c.foundFrame.magic = signalFrameMagic
    · simp only [hm, not_true_eq_false, if_false, forall_const]
      by_cases hr : canonical c.foundFrame.trap.rip = true ∧ canonical c.foundFrame.trap.rsp = true
      · simp only [hr.1, hr.2, true_and]
        exact userFlags_truncated c.foundFrame.trap.rflags
      · rw [if_neg (by simpa using hr)]
        exact iff_of_false id fun h => hr ⟨h.1, h.2.1⟩
    · simp only [hm, false_implies, iff_true]
      exact hkept

/-- Neither delivery nor `rt_sigreturn` does harm exactly if the frame can be pushed and popped
without touching addresses that stop the kernel and the addresses and flags that come from user
memory are in order. -/
theorem harmless_iff (mapped : BitVec 64 → Bool) (c : UserContext)
    (hflags : UserFlags c.trap.rflags) :
    (Harmless trap (c.deliverPendingSignal mapped) ∧
        Harmless (fun r => r.2.trap) (c.rtSigreturn mapped)) ↔
      c.DeliversSafely mapped ∧ c.ReturnsSafely mapped :=
  and_congr (harmless_deliver_iff hflags) (harmless_sigreturn_iff hflags)

/-- A program on its way back from a syscall, with a caught signal 10 pending and whatever frame
is on its stack. -/
def caller (handler : Nat) (frame : UserSignalFrame) : UserContext where
  proc := { Process.fresh 1 0 1 with handler := fun _ => handler, pendingSignals := signalBit 10 }
  restorer _ := 0x401000
  actionMask _ := (0, 0)
  actionFlags _ := 0
  maskHigh := 0
  savedMask := (0, 0)
  inSigsuspend := false
  trap := ⟨⟨0, 0, 0, 0, 0, 0, 0, 0, 0, 0, 0, 0, 0, 0, 0⟩, 0x400000, 0x7000, 0x202⟩
  mem := frame.store Bytes.zero 0x7000

def lowerHalf (a : BitVec 64) : Bool := a.toNat < 2 ^ 47

/-- A frame that asks for I/O privilege level 3 and disabled interrupts. -/
def ioplFrame : UserSignalFrame :=
  ⟨signalFrameMagic, (0, 0),
    ⟨⟨0, 0, 0, 0, 0, 0, 0, 0, 0, 0, 0, 0, 0, 0, 0⟩, 0x400000, 0x7000, 0x3002⟩⟩

/-- Signal 10 is due, and the stack holds a frame that asks for other flags. -/
theorem harmless_iff_caller :
    (Harmless trap ((caller 0x400100 ioplFrame).deliverPendingSignal lowerHalf) ∧
        Harmless (fun r => r.2.trap) ((caller 0x400100 ioplFrame).rtSigreturn lowerHalf)) ↔
      (caller 0x400100 ioplFrame).DeliversSafely lowerHalf ∧
        (caller 0x400100 ioplFrame).ReturnsSafely lowerHalf :=
  harmless_iff lowerHalf (caller 0x400100 ioplFrame) (by decide)

def flagsOf {α : Type} (trap : α → Trap) : Except Fault α → Except Fault (BitVec 64)
  | .ok a => .ok (sysretFlags (trap a).rflags)
  | .error e => .error e

lemma not_harmless {α : Type} {trap : α → Trap} {r : Except Fault α}
    (h : flagsOf trap r = .error .panic ∨ ∃ f, flagsOf trap r = .ok f ∧ ¬ UserFlags f) :
    ¬ Harmless trap r := by
  intro hr
  rcases h with h | ⟨f, h, hf⟩
  · cases r with
    | ok a => cases h
    | error e =>
      injection h with h
      rw [h] at hr
      exact hr
  · cases r with
    | ok a =>
      injection h with h
      rw [← h] at hf
      exact hf hr
    | error e => cases h

/-- A handler whose address is not canonical stops the kernel, and a frame written by the program
gives it all I/O ports. -/
theorem signal_state_harms :
    ¬ Harmless trap ((caller 0x8000000000000000 ioplFrame).deliverPendingSignal lowerHalf) ∧
      ¬ Harmless (fun r => r.2.trap) ((caller 0x400100 ioplFrame).rtSigreturn lowerHalf) :=
  ⟨not_harmless (.inl (by decide +kernel)),
    not_harmless (.inr ⟨0x3002, by decide +kernel, by decide⟩)⟩

end UserContext

end Twilight.Proc

/-
The process record of `sys::proc` and what the kernel does to one process: signals, timed
waits, wakeups and exit.
-/
import Twilight.Timer.Queue

namespace Twilight.Proc

open Timer

inductive ProcessState where
  | running
  | runnable
  | sleeping
  | waiting
  | signalWait
  | awaitingIo
  | stopped
  | dead
deriving DecidableEq

def sighup : Nat := 1
def sigint : Nat := 2
def sigquit : Nat := 3
def sigkill : Nat := 9
def sigpipe : Nat := 13
def sigalrm : Nat := 14
def sigterm : Nat := 15
def sigchld : Nat := 17
def sigcont : Nat := 18
def sigstop : Nat := 19
def sigtstp : Nat := 20
def sigttin : Nat := 21
def sigttou : Nat := 22

/-- The handler value of an explicitly ignored signal; 0 is the default action and any larger
value a handler of the program. -/
def sigIgn : Nat := 1

def defaultIgnoreSignals : List Nat := [sigchld]

variable (sig : Nat)

def isFatalDefault : Bool :=
  [sighup, sigint, sigquit, sigkill, sigpipe, sigalrm, sigterm].contains sig

def isStopDefault : Bool := [sigstop, sigtstp, sigttin, sigttou].contains sig

def signalBit : BitVec 64 := 1#64 <<< (sig - 1)

/-- A descriptor: the open file it names, by its path and the flags it was opened with, and the
flags of the descriptor itself. -/
structure FdEntry where
  path : String
  statusFlags : Nat
  fdFlags : Nat
deriving DecidableEq

/-- The terminal, once to read and twice to write. -/
def standardFdTable : List (Option FdEntry) :=
  [0, 1, 1].map fun statusFlags => some ⟨"/dev/tty", statusFlags, 0⟩

/-- The fields of a process that signals, waits and the scheduler read. `handler` is the handler
of each entry of `signal_actions`, `signalMask` the first word of the mask. `birth` is not in the
source: it numbers the processes ever created, and nothing reads it. -/
structure Process where
  pid : Nat
  tgid : Nat
  isThread : Bool
  parentPid : Nat
  pgid : Nat
  state : ProcessState
  fdTable : List (Option FdEntry)
  exitCode : Int
  waitStatus : Int
  waitReported : Bool
  pendingIo : Bool
  handler : Nat → Nat
  signalMask : BitVec 64
  pendingSignals : BitVec 64
  waitToken : Option WaitToken
  waitDeadlineNs : Option Nat
  wakeReason : Option WakeReason
  birth : Nat

namespace Process

variable (p : Process)

/-- A signal interrupts a sleep when it is not masked, not ignored, and either caught or by
default not ignored. -/
def signalInterruptsSleep (sig : Nat) : Bool :=
  if p.signalMask &&& signalBit sig ≠ 0 then false
  else if p.handler sig = sigIgn then false
  else if p.handler sig > sigIgn then true
  else !defaultIgnoreSignals.contains sig

def hasSleepInterruptingSignal : Bool :=
  (List.range' 1 64).any fun sig =>
    p.pendingSignals &&& signalBit sig ≠ 0 && p.signalInterruptsSleep sig

def queueSignal (sig : Nat) : Process :=
  if ¬ (1 ≤ sig ∧ sig ≤ 64) then p
  else
    let q := { p with pendingSignals := p.pendingSignals ||| signalBit sig }
    match p.state with
    | .waiting | .signalWait => { q with state := .runnable, pendingIo := false }
    | .awaitingIo =>
      if !p.signalInterruptsSleep sig then q
      else
        { q with
          state := .runnable
          pendingIo := true
          waitToken := none
          waitDeadlineNs := none
          wakeReason := some .signal }
    | .sleeping =>
      if !p.signalInterruptsSleep sig then q
      else
        { q with
          state := .runnable
          waitToken := none
          waitDeadlineNs := none
          wakeReason := some .signal }
    | _ => q

def closeAllFds : Process := { p with fdTable := [] }

/-- What `kill` does to one target, and the parent to notify if any. -/
def applySignal (sig : Nat) : Process × Option Nat :=
  if sig = 0 then (p, none)
  else if sig = sigcont then
    let q :=
      if p.state = .stopped then
        { p with state := .runnable, waitStatus := 0xffff, waitReported := false }
      else p
    (q.queueSignal sig, some p.parentPid)
  else if p.handler sig = sigIgn ∧ sig ≠ sigkill ∧ sig ≠ sigstop then (p, none)
  else if p.handler sig > sigIgn then (p.queueSignal sig, none)
  else if isStopDefault sig then
    ({ p with state := .stopped, waitStatus := sig * 256 + 0x7f, waitReported := false },
      some p.parentPid)
  else if isFatalDefault sig then
    ({ p.closeAllFds with state := .dead, waitStatus := sig % 0x80, waitReported := false },
      some p.parentPid)
  else (p.queueSignal sig, none)

def wake : Process :=
  match p.state with
  | .awaitingIo =>
    { p with state := .runnable, pendingIo := true, wakeReason := some .event }
  | .dead | .stopped => p
  | _ => { p with pendingIo := true }

variable (token : WaitToken)

/-- What `wake_from_timer` does to the process it finds: nothing unless it publishes the token
and waits in the way the entry's kind says. -/
def wakeFromTimer (kind : DeadlineKind) : Option Process :=
  if p.waitToken ≠ some token then none
  else
    match kind with
    | .sleep =>
      if p.state ≠ .sleeping then none
      else
        some { p with
          state := .runnable
          waitToken := none
          waitDeadlineNs := none
          wakeReason := some .deadline }
    | .ioTimeout =>
      if p.state ≠ .awaitingIo then none
      else
        some { p with
          state := .runnable
          pendingIo := true
          waitToken := none
          waitDeadlineNs := none
          wakeReason := some .deadline }

def invalidateWaitToken : Process :=
  { p with waitToken := none, waitDeadlineNs := none, wakeReason := none }

def die (code : Int) : Process :=
  { p.closeAllFds.invalidateWaitToken with state := .dead, exitCode := code }

/-- The status a zombie keeps for `wait4`. -/
def setWaitStatus (status : Int) : Process := { p with waitStatus := status, waitReported := false }

def childExited : Process :=
  let q := p.queueSignal sigchld
  match q.state with
  | .waiting | .signalWait | .awaitingIo => { q with state := .runnable, pendingIo := false }
  | _ => q

def publish (deadlineNs : Nat) : Process :=
  { p with waitToken := some token, waitDeadlineNs := some deadlineNs, wakeReason := none }

/-- Ends the wait published under `token`; any other wait stays. -/
def cancel : Process :=
  if p.waitToken = some token then { p with waitToken := none, waitDeadlineNs := none } else p

def switchOut : Process := if p.state = .running then { p with state := .runnable } else p

def setState (s : ProcessState) : Process := { p with state := s }

def forkChild (pid birth : Nat) : Process :=
  { p with
    pid := pid
    tgid := pid
    isThread := false
    parentPid := p.pid
    state := .runnable
    exitCode := 0
    waitStatus := 0
    waitReported := false
    pendingIo := false
    pendingSignals := 0
    waitToken := none
    waitDeadlineNs := none
    wakeReason := none
    birth := birth }

def threadChild (pid birth : Nat) : Process :=
  { p with
    pid := pid
    isThread := true
    state := .runnable
    exitCode := 0
    waitStatus := 0
    waitReported := false
    pendingIo := false
    pendingSignals := 0
    waitToken := none
    waitDeadlineNs := none
    wakeReason := none
    birth := birth }

def fresh (pid parentPid birth : Nat) : Process where
  pid := pid
  tgid := pid
  isThread := false
  parentPid := parentPid
  pgid := pid
  state := .runnable
  fdTable := standardFdTable
  exitCode := 0
  waitStatus := 0
  waitReported := false
  pendingIo := false
  handler _ := 0
  signalMask := 0
  pendingSignals := 0
  waitToken := none
  waitDeadlineNs := none
  wakeReason := none
  birth := birth

end Process

/-- The ids of a process never change. -/
structure SameIds (q p : Process) : Prop where
  pid : q.pid = p.pid
  tgid : q.tgid = p.tgid
  isThread : q.isThread = p.isThread
  birth : q.birth = p.birth

namespace SameIds

lemma refl (p : Process) : SameIds p p := ⟨rfl, rfl, rfl, rfl⟩

lemma trans {p q r : Process} (h : SameIds p q) (h' : SameIds q r) : SameIds p r :=
  ⟨h.pid.trans h'.pid, h.tgid.trans h'.tgid, h.isThread.trans h'.isThread,
    h.birth.trans h'.birth⟩

end SameIds

lemma Process.wakeFromTimer_some {p q : Process} {token : WaitToken} {kind : DeadlineKind}
    (h : p.wakeFromTimer token kind = some q) :
    p.waitToken = some token ∧ q.waitToken = none ∧ SameIds q p ∧
      (p.state = .sleeping ∧ kind = .sleep ∨ p.state = .awaitingIo ∧ kind = .ioTimeout) := by
  unfold wakeFromTimer at h
  split at h
  · cases h
  next ht =>
  split at h
  · split at h
    · cases h
    next hs =>
    obtain rfl := Option.some.inj h
    exact ⟨not_not.mp ht, rfl, ⟨rfl, rfl, rfl, rfl⟩, Or.inl ⟨not_not.mp hs, rfl⟩⟩
  · split at h
    · cases h
    next hs =>
    obtain rfl := Option.some.inj h
    exact ⟨not_not.mp ht, rfl, ⟨rfl, rfl, rfl, rfl⟩, Or.inr ⟨not_not.mp hs, rfl⟩⟩

end Twilight.Proc

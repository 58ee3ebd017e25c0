/-
The process table, the scheduler and the timed waits as one machine. Every event is a section of
kernel code that runs without an interrupt; what the hardware, the allocator and the scheduler's
own guard decide is part of the event.
-/
import Twilight.Proc.Process

namespace Twilight.Proc

open Timer

/-! ## The process table -/

variable (procs : List Process) (pid : Nat)

def findProcessIndex : Option Nat := procs.findIdx? fun p => p.pid = pid

def getProcess : Option Process := procs.find? fun p => p.pid = pid

def updateProcess (f : Process → Process) : List Process :=
  match findProcessIndex procs pid with
  | none => procs
  | some i => procs.modify i f

def adoptedBy (exitingPid : Nat) (p : Process) : Bool := !p.isThread && p.parentPid = exitingPid

/-- Children of an exiting process go to process 1, which hears of those already dead. -/
def reparentChildren (exitingPid : Nat) : List Process :=
  if exitingPid = 1 || !procs.any (fun p => p.pid = 1) then procs
  else
    let adopted := procs.map fun p =>
      if adoptedBy exitingPid p then { p with parentPid := 1 } else p
    if procs.any fun p => adoptedBy exitingPid p && p.state = .dead then
      updateProcess adopted 1 (·.queueSignal sigchld)
    else adopted

def notifyParentForChildEvent (parentPid : Nat) : List Process :=
  updateProcess procs parentPid (·.queueSignal sigchld)

def findNextRunnableIndex (cur : Nat) : Option Nat :=
  if procs.length < 2 then none
  else
    ((List.range' 1 procs.length).map fun step => (cur + step) % procs.length).find? fun i =>
      i ≠ cur && (procs[i]?.any fun p => p.state = .runnable)

def isRunning (p : Process) : Bool := p.state = .running

def validatePreSwitchOwner (cur : Nat) : Bool :=
  (procs.findIdx? isRunning).all (· = cur) && procs.countP isRunning ≤ 1

def validateRunningOwner (expected : Nat) : Bool :=
  procs.findIdx? isRunning = some expected && procs.countP isRunning ≤ 1

/-! ## The kernel -/

/-- An entry popped from the queue by an expiry at time `nowNs`, not yet acted on. -/
structure Due where
  entry : DeadlineEntry
  nowNs : Nat

/-- The state of `sys::timer`. `batch` holds the entries an expiry has popped and not yet passed
to `wake_from_timer`. The last two fields are not in the source and nothing reads them: the
entries ever pushed with the process each was pushed for, and the wakeups by deadline with the
process as it was before. -/
structure Timers where
  queue : TimerQueue
  batch : List Due
  deferredExpiryPending : Bool
  armed : List (DeadlineEntry × Option Nat)
  woken : List (Due × Process)

/-- The process table, the pid counter, the current process and the timers. `births` counts the
processes created; it is not in the source. -/
structure Kernel where
  procs : List Process
  nextPid : Nat
  pid : Nat
  births : Nat
  timers : Timers

namespace Kernel

/-- After `init`: the bootstrap context is process 0 and runs. -/
def boot : Kernel where
  procs := [(Process.fresh 0 0 0).closeAllFds.setState .running]
  nextPid := 1
  pid := 0
  births := 1
  timers := ⟨.new, [], false, [], []⟩

variable (k : Kernel)

def update (pid : Nat) (f : Process → Process) : Kernel :=
  { k with procs := updateProcess k.procs pid f }

/-! ### Scheduling -/

/-- Gives the processor to position `next`; answers whether it did. -/
def switchByIndexGuarded (cur next : Nat) : Bool × Kernel :=
  if cur = next then (false, k)
  else if !validatePreSwitchOwner k.procs cur then (false, k)
  else
    match k.procs[next]? with
    | none => (false, k)
    | some target =>
      if target.state ≠ .runnable then (false, k)
      else
        let procs := (k.procs.modify cur (·.switchOut)).modify next (·.setState .running)
        if !validateRunningOwner procs next then (false, { k with procs := procs })
        else (true, { k with procs := procs, pid := target.pid })

variable (guard : Bool)

/-- `guard` says whether the scheduler could be entered. -/
def scheduleNow : Bool × Kernel :=
  if !guard then (false, k)
  else if k.procs.length < 2 then (false, k)
  else
    match findProcessIndex k.procs k.pid with
    | none => (false, k)
    | some cur =>
      match findNextRunnableIndex k.procs cur with
      | none => (false, k)
      | some next => k.switchByIndexGuarded cur next

/-- After an exit the parent runs next if it can, otherwise the next runnable process. -/
def switchAfterExit (cur parentPid : Nat) : Kernel :=
  let parent := (findProcessIndex k.procs parentPid).filter fun i =>
    k.procs[i]?.any fun p => p.state = .runnable
  match parent.or (findNextRunnableIndex k.procs cur) with
  | none => k
  | some next => (k.switchByIndexGuarded cur next).2

/-! ### Process creation -/

/-- The pid counter is a `u16` that wraps around. -/
def takePid : Nat × Kernel := (k.nextPid, { k with nextPid := (k.nextPid + 1) % 2 ^ 16 })

def pushBack (p : Process) : Kernel := { k with procs := k.procs ++ [p], births := k.births + 1 }

/-- `ok` says whether the child's memory could be made; its pid is spent either way. -/
def fork (ok : Bool) : Option Nat × Kernel :=
  match getProcess k.procs k.pid with
  | none => (none, k)
  | some p =>
    let (pid, k') := k.takePid
    if ok then (some pid, k'.pushBack (p.forkChild pid k.births)) else (none, k')

def cloneRequired : BitVec 64 :=
  0x0000_0100#64 ||| 0x0000_0200#64 ||| 0x0000_0400#64 ||| 0x0000_0800#64 ||| 0x0001_0000#64 |||
    0x0004_0000#64

def cloneSupported : BitVec 64 := cloneRequired ||| 0x0008_0000#64

def cloneThread (flags childStack : BitVec 64) (ok : Bool) : Option Nat × Kernel :=
  if childStack = 0 ∨ flags &&& cloneRequired ≠ cloneRequired ∨ flags &&& ~~~cloneSupported ≠ 0 then
    (none, k)
  else
    match getProcess k.procs k.pid with
    | none => (none, k)
    | some p =>
      let (pid, k') := k.takePid
      if ok then (some pid, k'.pushBack (p.threadChild pid k.births)) else (none, k')

/-- `Process::new` with parent 0 and `ProcessTable::run`: the caller waits, except for process 0,
and the new process runs unless the scheduler cannot be entered. -/
def launch : Kernel :=
  let (pid, k₁) := k.takePid
  let k₂ := k₁.pushBack (Process.fresh pid 0 k.births)
  let next := k₂.procs.length - 1
  let prev := (findProcessIndex k₂.procs k.pid).getD (k₂.procs.length - 2)
  if prev = next then { k₂ with pid := pid }
  else if guard then
    { k₂ with
      procs := (k₂.procs.modify prev (·.setState (if k.pid = 0 then .runnable else .waiting))).modify
        next (·.setState .running)
      pid := pid }
  else { k₂ with procs := k₂.procs.modify prev (·.setState .running) }

/-! ### Exit -/

/-- The exit of the process at position `cur` with parent `parentPid`, up to the choice of the
next process. -/
def leaveTable (cur : Nat) (code status : Int) (parentPid : Nat) : Kernel :=
  let procs := reparentChildren k.procs k.pid
  let procs := procs.modify cur fun p => (p.die code).setWaitStatus status
  { k with procs := updateProcess procs parentPid (·.childExited) }

def exit (code : Int) : Kernel :=
  if !guard then k
  else
    match findProcessIndex k.procs k.pid, getProcess k.procs k.pid with
    | some cur, some p =>
      if p.isThread then
        let k' := { k with procs := k.procs.modify cur (·.die code) }
        match findNextRunnableIndex k'.procs cur with
        | none => k'
        | some next => (k'.switchByIndexGuarded cur next).2
      else
        (k.leaveTable cur code (code % 0x100 * 0x100) p.parentPid).switchAfterExit cur p.parentPid
    | _, _ => k

def terminateCurrentBySignal (sig : Int) : Kernel :=
  if !guard then k
  else
    match findProcessIndex k.procs k.pid, getProcess k.procs k.pid with
    | some cur, some p =>
      (k.leaveTable cur (128 + sig) (sig % 0x80) p.parentPid).switchAfterExit cur p.parentPid
    | _, _ => k

/-- The exit of every thread of group `g`, up to the choice of the next process; only the leader's
status is set. -/
def leaveGroup (leader g : Nat) (code : Int) (parentPid : Nat) : Kernel :=
  let procs := (reparentChildren k.procs g).map fun q => if q.tgid = g then q.die code else q
  let procs := procs.modify leader (·.setWaitStatus (code % 0x100 * 0x100))
  { k with procs := updateProcess procs parentPid (·.queueSignal sigchld) }

def exitGroup (code : Int) : Kernel :=
  if !guard then k
  else
    match findProcessIndex k.procs k.pid, getProcess k.procs k.pid with
    | some cur, some p =>
      match findProcessIndex k.procs p.tgid, getProcess k.procs p.tgid with
      | some leader, some l =>
        (k.leaveGroup leader p.tgid code l.parentPid).switchAfterExit cur l.parentPid
      | _, _ => k
    | _, _ => k

/-! ### Signals -/

/-- The processes `kill` selects. -/
def killTargets (pid : Int) : List Process :=
  let currentPgid := ((getProcess k.procs k.pid).map (·.pgid)).getD k.pid
  k.procs.filter fun p =>
    if pid > 0 then pid ≤ 0xffff && p.pid = pid
    else if pid = 0 then p.pgid = currentPgid
    else if pid = -1 then p.pid > 1
    else p.pgid = -pid

/-- One turn of the loop of `kill` over its targets: the table, the parents to notify and the
targets found dead. -/
def killOne (sig : Nat) (acc : List Process × List Nat × List Nat) (target : Nat) :
    List Process × List Nat × List Nat :=
  match getProcess acc.1 target with
  | none => acc
  | some p =>
    let procs := updateProcess acc.1 target fun q => (q.applySignal sig).1
    match (p.applySignal sig).2 with
    | none => (procs, acc.2)
    | some parent =>
      (procs, acc.2.1 ++ [parent],
        if (p.applySignal sig).1.state = .dead then acc.2.2 ++ [target] else acc.2.2)

/-- The loops of `kill`: the signal to every target, then the children of the dead ones, then the
parents. -/
def signalTargets (procs : List Process) (sig : Nat) (targets : List Nat) : List Process :=
  let (procs, parents, dead) := targets.foldl (killOne sig) (procs, [], [])
  parents.foldl notifyParentForChildEvent (dead.foldl reparentChildren procs)

inductive KillResult where
  | invalid
  | noProcess
  | done
deriving DecidableEq

def kill (pid sig : Int) (guard : Bool) : KillResult × Kernel :=
  if ¬ (0 ≤ sig ∧ sig ≤ 64) then (.invalid, k)
  else if pid < -1 ∧ ¬ -pid ≤ 0xffff then (.invalid, k)
  else
    let targets := (k.killTargets pid).map (·.pid)
    if targets.isEmpty then (.noProcess, k)
    else if sig = 0 then (.done, k)
    else
      let k' := { k with procs := signalTargets k.procs sig.toNat targets }
      if k'.procs.any fun p => p.pid = k.pid && (p.state = .dead || p.state = .stopped) then
        (.done, (k'.scheduleNow guard).2)
      else (.done, k')

def wakeProcess (pid : Nat) : Kernel := k.update pid (·.wake)

/-- `proc::queue_signal`, which also wakes the process. -/
def queueSignal (pid sig : Nat) : Kernel := (k.update pid (·.queueSignal sig)).wakeProcess pid

/-- `rt_sigsuspend`: the mask is replaced, and without an unblocked pending signal the current
process waits for one. -/
def rtSigsuspend (mask : BitVec 64) (guard : Bool) : Kernel :=
  let mask := mask &&& ~~~signalBit sigkill &&& ~~~signalBit sigstop
  let k := k.update k.pid fun p => { p with signalMask := mask }
  if (getProcess k.procs k.pid).any fun p => p.pendingSignals &&& ~~~p.signalMask = 0 then
    ((k.update k.pid (·.setState .signalWait)).scheduleNow guard).2
  else k

/-- Whatever `rt_sigaction`, `rt_sigprocmask`, the poll mask and the delivery of signals do to
the signal state of the current process. -/
def setSignals (handler : Nat → Nat) (mask pending : BitVec 64) : Kernel :=
  k.update k.pid fun p =>
    { p with handler := handler, signalMask := mask, pendingSignals := pending }

/-- Whatever `open`, `close`, `dup`, `pipe` and the others do to the descriptors of the current
process. -/
def setFds (fds : List (Option FdEntry)) : Kernel := k.update k.pid fun p => { p with fdTable := fds }

/-- The effect of `setpgid` and `setsid` on process groups. -/
def setpgid (pid pgid : Nat) : Kernel := k.update pid fun p => { p with pgid := pgid }

/-! ### wait4 -/

/-- The children `wait4` looks at. -/
def waitSelects (pid : Int) (p : Process) : Bool :=
  let currentPgid := ((getProcess k.procs k.pid).map (·.pgid)).getD k.pid
  !p.isThread && p.parentPid = k.pid &&
    if pid = -1 then true
    else if pid = 0 then p.pgid = currentPgid
    else if pid > 0 then (p.pid : Int) = pid
    else pid ≠ -(2 ^ 31) && (p.pgid : Int) = -pid

inductive WaitResult where
  | invalid
  | noChild
  | reported (pid : Nat) (status : Int)
  | none
  | blocked
deriving DecidableEq

def wnohang : BitVec 32 := 1
def wuntraced : BitVec 32 := 2
def wcontinued : BitVec 32 := 8

/-- One turn of the loop of `wait4`. A dead child leaves the table, with the threads of its
group; a stopped one is reported once. -/
def wait4 (pid : Int) (options : BitVec 32) (guard : Bool) : WaitResult × Kernel :=
  if options &&& ~~~(wnohang ||| wuntraced ||| wcontinued) ≠ 0 then (.invalid, k)
  else
    let found := k.procs.findIdx? fun p =>
      k.waitSelects pid p && (p.state = .dead ||
        options &&& wuntraced ≠ 0 && p.state = .stopped && !p.waitReported)
    match found.bind fun i => (k.procs[i]?).map (i, ·) with
    | some (i, p) =>
      if p.state = .dead then
        let rest := (k.procs.eraseIdx i).filter fun q => !(q.isThread && q.tgid = p.tgid)
        (.reported p.pid p.waitStatus, { k with procs := rest })
      else
        (.reported p.pid p.waitStatus,
          { k with procs := k.procs.modify i fun q => { q with waitReported := true } })
    | none =>
      if !k.procs.any (k.waitSelects pid) then (.noChild, k)
      else if options &&& wnohang ≠ 0 then (.none, k)
      else (.blocked, ((k.update k.pid (·.setState .waiting)).scheduleNow guard).2)

/-! ### Timed waits -/

def isLiveWait (pid : Nat) (token : WaitToken) : Bool :=
  (getProcess k.procs pid).any fun p => p.waitToken = some token

def armCurrentLocked (deadlineNs : Nat) (kind : DeadlineKind)
    (granted : Option Nat) : WaitToken × Kernel :=
  let (token, q) := k.timers.queue.nextToken
  if token = .exhausted then (token, { k with timers.queue := q })
  else
    let entry : DeadlineEntry := ⟨deadlineNs, k.pid, token, kind⟩
    let (ok, q') := q.tryReservePush entry granted
    if ok then
      (token, { k with
        timers.queue := q'
        timers.armed := k.timers.armed ++ [(entry, (getProcess k.procs k.pid).map (·.birth))] })
    else (.exhausted, { k with timers.queue := q' })

/-- `block_current_until` up to the point where the process sleeps; an answer means that it
returned without blocking. -/
def blockCurrentUntil (nowNs deadlineNs : Nat)
    (granted : Option Nat) : Option WakeReason × Kernel :=
  if !guard then (some .cancelled, k)
  else if deadlineNs ≤ nowNs then (some .deadline, k)
  else if (getProcess k.procs k.pid).any (·.hasSleepInterruptingSignal) then (some .signal, k)
  else
    let (token, k') := k.armCurrentLocked deadlineNs .sleep granted
    if token = .exhausted then (some .cancelled, k')
    else if (getProcess k.procs k.pid).isNone then (some .cancelled, k')
    else (none, k'.update k.pid fun p => (p.publish token deadlineNs).setState .sleeping)

/-- The end of `block_current_until`: the reason is taken and the wait cleared. -/
def readAndClearWakeReason (deadlineNs nowNs : Nat) : WakeReason × Kernel :=
  match getProcess k.procs k.pid with
  | none => (.deadline, k)
  | some p =>
    (p.wakeReason.getD (if deadlineNs ≤ nowNs then .deadline else .cancelled),
      k.update k.pid fun p => p.invalidateWaitToken.setState .running)

def cancelOwned (token : WaitToken) : Kernel := k.update k.pid (·.cancel token)

variable (token : Option WaitToken)

def cancelAny : Kernel :=
  match token with
  | none => k
  | some t => k.cancelOwned t

def takeWakeReason : WakeReason × Kernel :=
  match getProcess k.procs k.pid with
  | none => (.event, k)
  | some p =>
    (p.wakeReason.getD .event, k.update k.pid fun p => { p with wakeReason := none })

/-- The timeout of `await_io_until`; without one, or without a token, nothing is published. -/
def armIoTimeoutLocked (deadlineNs : Option Nat) (granted : Option Nat) :
    Option WaitToken × Kernel :=
  match deadlineNs with
  | none => (none, k)
  | some d =>
    let (token, k') := k.armCurrentLocked d .ioTimeout granted
    if token = .exhausted then (none, k')
    else (some token, k'.update k.pid (·.publish token d))

inductive AwaitResult where
  | returned (reason : WakeReason)
  | switched (token : Option WaitToken)
  | idle (token : Option WaitToken)
  | retry (token : Option WaitToken)
deriving DecidableEq

/-- The top of the loop of `await_io_until`: an outstanding token is cancelled, a wakeup that
came first is honoured, otherwise the process waits for I/O and arms its timeout. -/
def awaitIoEnter (outstanding : Option WaitToken) (deadlineNs : Option Nat)
    (guard : Bool) (granted : Option Nat) : AwaitResult × Kernel :=
  let k := k.cancelAny outstanding
  if !guard then (.returned .cancelled, k)
  else
    match findProcessIndex k.procs k.pid, getProcess k.procs k.pid with
    | some cur, some p =>
      if p.pendingIo then
        let k := k.update k.pid fun p =>
          if p.state = .runnable ∨ p.state = .awaitingIo then
            { p with pendingIo := false, state := .running }
          else { p with pendingIo := false }
        k.takeWakeReason.map .returned id
      else if p.state = .runnable then
        (k.update k.pid (·.setState .running)).takeWakeReason.map .returned id
      else
        let k := k.update k.pid (·.setState .awaitingIo)
        let (token, k) := k.armIoTimeoutLocked deadlineNs granted
        match findNextRunnableIndex k.procs cur with
        | some next => (.switched token, (k.switchByIndexGuarded cur next).2)
        | none => (.idle token, k)
    | _, _ => (.returned .cancelled, k)

/-- `await_io_until` after a context switch back. -/
def awaitIoResume : AwaitResult × Kernel :=
  match getProcess k.procs k.pid with
  | none => (.retry token, k)
  | some p =>
    if p.pendingIo then
      ((k.update k.pid fun p => { p with pendingIo := false }).cancelAny token).takeWakeReason.map
        .returned id
    else if p.state = .running then (k.cancelAny token).takeWakeReason.map .returned id
    else (.retry token, k)

/-- The check of `await_io_until` before it halts with nothing else to run. -/
def awaitIoIdle : AwaitResult × Kernel :=
  match getProcess k.procs k.pid with
  | none => (.returned .cancelled, k)
  | some p =>
    if p.pendingIo then
      let k := k.update k.pid fun p =>
        if p.state = .runnable then { p with pendingIo := false, state := .running }
        else { p with pendingIo := false }
      (k.cancelAny token).takeWakeReason.map .returned id
    else if p.state = .runnable then
      ((k.update k.pid (·.setState .running)).cancelAny token).takeWakeReason.map .returned id
    else (.idle token, k)

/-! ### Expiry -/

def expiryBatch : Nat := 32

/-- The loop that pops at most `n` due entries. -/
def popBatch (isLive : Nat → WaitToken → Bool) (nowNs : Nat) :
    Nat → TimerQueue → List Due × TimerQueue
  | 0, q => ([], q)
  | n + 1, q =>
    match q.popDue nowNs isLive with
    | (none, q') => ([], q')
    | (some e, q') =>
      let (rest, q'') := popBatch isLive nowNs n q'
      (⟨e, nowNs⟩ :: rest, q'')

/-- The part of `expire_due` and of each turn of `process_deferred_expiry` under the queue lock;
it answers whether more entries are due. -/
def collectDue (nowNs : Nat) : Bool × Kernel :=
  let (due, q) := popBatch k.isLiveWait nowNs expiryBatch k.timers.queue
  let (deadline, q') := q.peekDeadlineNs k.isLiveWait
  (deadline.any (· ≤ nowNs), { k with timers.queue := q', timers.batch := k.timers.batch ++ due })

def wakeFromTimer (due : Due) : Kernel :=
  match findProcessIndex k.procs due.entry.pid, getProcess k.procs due.entry.pid with
  | some i, some p =>
    match p.wakeFromTimer due.entry.token due.entry.kind with
    | none => k
    | some q =>
      { k with procs := k.procs.set i q, timers.woken := k.timers.woken ++ [(due, p)] }
  | _, _ => k

/-- Passes the next popped entry to `wake_from_timer`. -/
def wakeNext (k : Kernel) : Kernel :=
  match k.timers.batch with
  | [] => k
  | due :: rest => { k with timers.batch := rest }.wakeFromTimer due

end Kernel

/-! ## Events -/

/-- The sections of kernel code. `guard` is whether the scheduler could be entered, `granted`
what the allocator gives a full timer queue. -/
inductive Event where
  | launch (guard : Bool)
  | fork (ok : Bool)
  | cloneThread (flags childStack : BitVec 64) (ok : Bool)
  | exit (guard : Bool) (code : Int)
  | exitGroup (guard : Bool) (code : Int)
  | terminate (guard : Bool) (sig : Int)
  | kill (pid sig : Int) (guard : Bool)
  | wait4 (pid : Int) (options : BitVec 32) (guard : Bool)
  | queueSignal (pid sig : Nat)
  | wakeProcess (pid : Nat)
  | rtSigsuspend (mask : BitVec 64) (guard : Bool)
  | setSignals (handler : Nat → Nat) (mask pending : BitVec 64)
  | setFds (fds : List (Option FdEntry))
  | setpgid (pid pgid : Nat)
  | schedule (guard : Bool)
  | block (guard : Bool) (nowNs deadlineNs : Nat) (granted : Option Nat)
  | resumeSleep (deadlineNs nowNs : Nat)
  | awaitIo (outstanding : Option WaitToken) (deadlineNs : Option Nat) (guard : Bool)
      (granted : Option Nat)
  | awaitIoResume (token : Option WaitToken)
  | awaitIoIdle (token : Option WaitToken)
  | cancelOwned (token : WaitToken)
  | expireDue (nowNs : Nat)
  | deferredExpiry (nowNs : Nat)
  | wakeNext
  | nextDeadline

namespace Kernel

def step (k : Kernel) : Event → Kernel
  | .launch guard => k.launch guard
  | .fork ok => (k.fork ok).2
  | .cloneThread flags childStack ok => (k.cloneThread flags childStack ok).2
  | .exit guard code => k.exit guard code
  | .exitGroup guard code => k.exitGroup guard code
  | .terminate guard sig => k.terminateCurrentBySignal guard sig
  | .kill pid sig guard => (k.kill pid sig guard).2
  | .wait4 pid options guard => (k.wait4 pid options guard).2
  | .queueSignal pid sig => k.queueSignal pid sig
  | .wakeProcess pid => k.wakeProcess pid
  | .rtSigsuspend mask guard => k.rtSigsuspend mask guard
  | .setSignals handler mask pending => k.setSignals handler mask pending
  | .setFds fds => k.setFds fds
  | .setpgid pid pgid => k.setpgid pid pgid
  | .schedule guard => (k.scheduleNow guard).2
  | .block guard nowNs deadlineNs granted =>
    (k.blockCurrentUntil guard nowNs deadlineNs granted).2
  | .resumeSleep deadlineNs nowNs => (k.readAndClearWakeReason deadlineNs nowNs).2
  | .awaitIo outstanding deadlineNs guard granted =>
    (k.awaitIoEnter outstanding deadlineNs guard granted).2
  | .awaitIoResume token => (k.awaitIoResume token).2
  | .awaitIoIdle token => (k.awaitIoIdle token).2
  | .cancelOwned token => k.cancelOwned token
  | .expireDue nowNs =>
    let (more, k') := k.collectDue nowNs
    { k' with timers.deferredExpiryPending := k.timers.deferredExpiryPending || more }
  | .deferredExpiry nowNs =>
    if k.timers.deferredExpiryPending then
      let (more, k') := k.collectDue nowNs
      { k' with timers.deferredExpiryPending := more }
    else k
  | .wakeNext => k.wakeNext
  | .nextDeadline =>
    { k with timers.queue := (k.timers.queue.peekDeadlineNs k.isLiveWait).2 }

def run (k : Kernel) (events : List Event) : Kernel := events.foldl step k

end Kernel

end Twilight.Proc

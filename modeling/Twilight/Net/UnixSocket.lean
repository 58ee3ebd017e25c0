/-
Unix sockets. A socket is a state behind a lock, shared by every handle of it, by the registry if
it is bound, and by a listener's backlog until it is accepted. Two connected stream sockets share a
connection of two channels, each behind a lock of its own. Every operation is written with the locks
it takes and the places where it wakes those who poll.

Sockets and connections are named by the order they were made in. The queues of waiting processes
are left out: a call that would wait answers `none`, and goes on with another turn when it is woken.
A passed file is a name, of a type of the reader's choice.
-/
import Mathlib
import Twilight.Lib.Locked

namespace Twilight.Unix

open Locked Function

-- the halves of a connection are written as numbers
scoped instance twoHalves : NeZero 2 := ⟨two_ne_zero⟩

def unixPathMax : Nat := 108

def channelCapacity : Nat := 4096

inductive Errno where
  | eaddrinuse
  | eagain
  | econnrefused
  | edestaddrreq
  | eintr
  | einval
  | eisconn
  | enotconn
  | eopnotsupp
  | epipe
deriving DecidableEq

structure UnixAddr where
  path : String
deriving DecidableEq

def UnixAddr.addrLen (addr : UnixAddr) : Nat := 2 + min addr.path.utf8ByteSize unixPathMax + 1

structure PeerCredentials where
  pid : UInt32
  uid : UInt32
  gid : UInt32
deriving DecidableEq

inductive SockType where
  | stream
  | dgram
deriving DecidableEq

inductive UnixRole where
  | unbound
  | bound
  | listening
  | connected
deriving DecidableEq

structure UnixMessage (F : Type) where
  data : List UInt8
  rights : List F
  src : Option UnixAddr
  truncated : Bool
deriving DecidableEq

def UnixMessage.new {F : Type} (data : List UInt8) (rights : List F) (src : Option UnixAddr) :
    UnixMessage F := ⟨data, rights, src, false⟩

/-! ## Channels -/

structure Channel (F : Type) where
  messages : List (UnixMessage F)
  bufferedLen : Nat
  readClosed : Bool
  writeClosed : Bool
deriving DecidableEq

namespace Channel

variable {F : Type}

def new : Channel F := ⟨[], 0, false, false⟩

variable (ch : Channel F)

def readable : Bool := !ch.messages.isEmpty

def writable : Bool := !ch.writeClosed && decide (ch.bufferedLen < channelCapacity)

def hangup : Bool := ch.readClosed

def error : Bool := ch.writeClosed

def closeBoth : Channel F := { ch with readClosed := true, writeClosed := true }

end Channel

/-- What the inner loop of `stream_recv_impl` has moved into the caller's buffer, and what it
leaves in the channel. -/
structure Taken (F : Type) where
  data : List UInt8
  rights : List F
  messages : List (UnixMessage F)
  bufferedLen : Nat
deriving DecidableEq

/-- The inner loop of `stream_recv_impl` with `room` bytes of the buffer left. A message whose
bytes do not all fit stays at the front with the rest of them, and the buffer is full then. -/
def recvLoop {F : Type} (room : Nat) : List (UnixMessage F) → Nat → Taken F
  | [], bufferedLen => ⟨[], [], [], bufferedLen⟩
  | front :: rest, bufferedLen =>
    if room = 0 then ⟨[], [], front :: rest, bufferedLen⟩
    else
      let take := min room front.data.length
      if take = front.data.length then
        let more := recvLoop (room - take) rest (bufferedLen - take)
        { more with data := front.data ++ more.data, rights := front.rights ++ more.rights }
      else
        ⟨front.data.take take, front.rights,
          { front with data := front.data.drop take, rights := [] } :: rest, bufferedLen - take⟩

structure UnixConnection (F : Type) where
  channels : Fin 2 → Channel F
  refcount : UInt8

def UnixConnection.new {F : Type} : UnixConnection F := ⟨fun _ => .new, 2⟩

/-! ## Sockets -/

structure PendingAccept where
  state : Nat
  connectorCred : PeerCredentials
deriving DecidableEq

structure DgramMessage (F : Type) where
  data : List UInt8
  src : UnixAddr
  rights : List F
deriving DecidableEq

structure UnixState (F : Type) where
  role : UnixRole
  sockType : SockType
  boundAddr : Option UnixAddr
  ownsBinding : Bool
  conn : Option Nat
  readerHalf : Fin 2
  writerHalf : Fin 2
  peerAddr : Option UnixAddr
  backlog : List PendingAccept
  dgramQueue : List (DgramMessage F)
  defaultPeer : Option UnixAddr
  dgramPeer : Option Nat
deriving DecidableEq

namespace UnixState

variable {F : Type}

def new (sockType : SockType) : UnixState F where
  role := .unbound
  sockType := sockType
  boundAddr := none
  ownsBinding := false
  conn := none
  readerHalf := 0
  writerHalf := 0
  peerAddr := none
  backlog := []
  dgramQueue := []
  defaultPeer := none
  dgramPeer := none

/-- One end of connection `c`. -/
def ofConn (c : Nat) (readerHalf writerHalf : Fin 2) : UnixState F :=
  { new .stream with
    role := .connected, conn := some c, readerHalf := readerHalf, writerHalf := writerHalf }

/-- `state_is_closed`. -/
def isClosed (st : UnixState F) : Bool := st.role == .unbound

end UnixState

/-- All sockets and connections. `states` and `conns` count those made so far, and `handleRefs`
has the owning handles of each socket. -/
structure Net (F : Type) where
  states : Nat
  conns : Nat
  state : Nat → UnixState F
  handleRefs : Nat → Nat
  conn : Nat → UnixConnection F
  registry : AList fun _ : String => Nat

inductive Lock where
  | state (s : Nat)
  | channel (c : Nat) (half : Fin 2)
  | registry
deriving DecidableEq

abbrev Op (F α : Type) := Locked Lock (Net F) α

namespace Net

variable {F : Type}

def empty : Net F where
  states := 0
  conns := 0
  state _ := .new .stream
  handleRefs _ := 0
  conn _ := .new
  registry := ∅

variable (net : Net F)

def setState (s : Nat) (st : UnixState F) : Net F := { net with state := update net.state s st }

def setChannel (c : Nat) (half : Fin 2) (ch : Channel F) : Net F :=
  { net with
    conn := update net.conn c { net.conn c with channels := update (net.conn c).channels half ch } }

/-- A new socket behind `refs` handles; its name is the number of sockets there were. -/
def addState (st : UnixState F) (refs : Nat) : Net F :=
  { net with
    states := net.states + 1
    state := update net.state net.states st
    handleRefs := update net.handleRefs net.states refs }

/-- A new connection; its name is the number of connections there were. -/
def addConn : Net F := { net with conns := net.conns + 1, conn := update net.conn net.conns .new }

def setHandles (s refs : Nat) : Net F := { net with handleRefs := update net.handleRefs s refs }

/-- `Weak::upgrade`: a state lives as long as a handle or the registry has it. -/
def upgrade (peer : Option Nat) : Option Nat :=
  peer.filter fun p => 0 < net.handleRefs p || net.registry.entries.any fun e => e.2 == p

end Net

section Operations

variable {F : Type}

/-! ## Making sockets -/

def newSocket (sockType : SockType) : Op F Nat := do
  let s := (← get).states
  modify fun net => net.addState (.new sockType) 1
  return s

def pair : SockType → Op F (Nat × Nat)
  | .stream => do
    let c := (← get).conns
    let left := (← get).states
    modify fun net => net.addConn
    modify fun net => net.addState (.ofConn c 1 0) 1
    modify fun net => net.addState (.ofConn c 0 1) 1
    return (left, left + 1)
  | .dgram => do
    let left := (← get).states
    let right := left + 1
    modify fun net => net.addState (.new .dgram) 1
    modify fun net => net.addState (.new .dgram) 1
    withLock (.state left) (modify fun net =>
      net.setState left { net.state left with role := .connected, dgramPeer := some right })
    withLock (.state right) (modify fun net =>
      net.setState right { net.state right with role := .connected, dgramPeer := some left })
    return (left, right)

variable (s : Nat)

/-- `Clone::clone`. -/
def dup : Op F Unit := modify fun net => net.setHandles s (net.handleRefs s + 1)

/-! ## Closing -/

variable (c : Nat)

/-- `Channel::close_both`, under the lock of the channel. -/
def closeBoth (half : Fin 2) : Op F Unit :=
  withLock (.channel c half) do
    modify fun net => net.setChannel c half ((net.conn c).channels half).closeBoth
    wake

/-- `dgram_readers.notify_all()` of the peer, under the lock of the peer. -/
def notifyPeer : Option Nat → Op F Unit
  | some peer => withLock (.state peer) (pure ())
  | none => pure ()

/-- The part of `close` under the lock of the socket: the connection and the address it had. -/
def detach : Op F (Option Nat × Option UnixAddr) :=
  withLock (.state s) do
    let st := (← get).state s
    modify fun net => net.setState s
      { st with ownsBinding := false, conn := none, role := .unbound, peerAddr := none }
    notifyPeer ((← get).upgrade st.dgramPeer)
    return (st.conn, if st.ownsBinding then st.boundAddr else none)

/-- The part of `close` under the lock of the registry. -/
def removeBinding : Option UnixAddr → Op F Unit
  | some bound => withLock .registry (modify fun net =>
      if net.registry.lookup bound.path = some s then
        { net with registry := net.registry.erase bound.path }
      else net)
  | none => pure ()

/-- The part of `close` that closes the connection. -/
def leaveConn : Option Nat → Op F Unit
  | some c => do
    let prev := ((← get).conn c).refcount
    modify fun net =>
      { net with conn := update net.conn c { net.conn c with refcount := prev - 1 } }
    if prev ≤ 1 then
      closeBoth c 0
      closeBoth c 1
    else
      let half ← withLock (.state s) do
        return (((← get).state s).readerHalf, ((← get).state s).writerHalf)
      closeBoth c half.2
      closeBoth c half.1
  | none => pure ()

def close : Op F Unit := do
  let (conn, boundToRemove) ← detach s
  removeBinding s boundToRemove
  leaveConn s conn

def drop : Op F Unit := do
  let refs := (← get).handleRefs s
  modify fun net => net.setHandles s (refs - 1)
  if refs = 1 then close s

/-! ## Names and connections -/

/-- The result is the length of the address, which the handle keeps. -/
def bind (addr : UnixAddr) : Op F (Except Errno Nat) := do
  if addr.path.isEmpty then return .error .einval
  let taken ← withLock .registry do return ((← get).registry.lookup addr.path).isSome
  if taken then return .error .eaddrinuse
  withLock (.state s) (modify fun net => net.setState s
    { net.state s with role := .bound, boundAddr := some addr, ownsBinding := true })
  withLock .registry (modify fun net =>
    { net with registry := net.registry.insert addr.path s })
  return .ok addr.addrLen

def listen : Op F (Except Errno Unit) :=
  withLock (.state s) do
    let st := (← get).state s
    if st.sockType ≠ .stream then return .error .eopnotsupp
    if st.role ≠ .bound then return .error .einval
    modify fun net => net.setState s { st with role := .listening }
    return .ok ()

/-- The check that opens `connect`. -/
def connectRefusal (st : UnixState F) : Option Errno :=
  if st.sockType ≠ .stream then some .eopnotsupp
  else if st.role = .connected then some .eisconn
  else if st.role ≠ .unbound ∧ st.role ≠ .bound then some .einval
  else none

/-- The part of `connect` under the lock of the listener: a new connection, whose other end goes
into the backlog. -/
def queueClient (listener : Nat) (cred : PeerCredentials) : Op F Bool :=
  withLock (.state listener) do
    if ((← get).state listener).role ≠ .listening then return false
    let c := (← get).conns
    let client := (← get).states
    modify fun net => net.addConn
    modify fun net => net.addState (.ofConn c 0 1) 0
    modify fun net => net.setState listener
      { net.state listener with
        backlog := (net.state listener).backlog ++ [⟨client, cred⟩] }
    return true

/-- The part of `connect` under the lock of the socket. Storing the new connection drops the one
that the socket had, and `released` are the handles that go with the messages queued there; they are
dropped under the lock. -/
def attach (s c : Nat) (addr : UnixAddr) (released : List Nat) : Op F Unit :=
  withLock (.state s) do
    released.forM drop
    modify fun net => net.setState s
      { net.state s with
        conn := some c, readerHalf := 1, writerHalf := 0, peerAddr := some addr,
        role := .connected }

/-- The result is the length of the address and the credentials, which the handle keeps. -/
def connect (addr : UnixAddr) (cred : PeerCredentials) (released : List Nat) :
    Op F (Except Errno (Nat × PeerCredentials)) := do
  match ← withLock (.state s) do return connectRefusal ((← get).state s) with
  | some e => return .error e
  | none =>
    match ← withLock .registry do return (← get).registry.lookup addr.path with
    | none => return .error .econnrefused
    | some listener =>
      let c := (← get).conns
      if ← queueClient listener cred then
        attach s c addr released
        return .ok (addr.addrLen, cred)
      else return .error .econnrefused

/-- The handle that `accept_new` returns, with the address of the peer. -/
structure Accepted where
  state : Nat
  addrLen : Nat
  peerCred : PeerCredentials
  peer : UnixAddr
deriving DecidableEq

/-- `try_accept_new`, and the loop body of `accept_new` up to its wait. -/
def tryAcceptNew : Op F (Except Errno (Option Accepted)) :=
  withLock (.state s) do
    let st := (← get).state s
    if st.sockType ≠ .stream then return .error .eopnotsupp
    if st.role ≠ .listening then return .error .einval
    match st.backlog with
    | [] => return .ok none
    | pending :: rest =>
      modify fun net => net.setState s { st with backlog := rest }
      let peer ← withLock (.state pending.state) do
        let accepted := (← get).state pending.state
        modify fun net => net.setState pending.state { accepted with boundAddr := st.boundAddr }
        return accepted.peerAddr.getD ⟨""⟩
      modify fun net => net.setHandles pending.state 1
      return .ok (some ⟨pending.state, (st.boundAddr.map UnixAddr.addrLen).getD 0,
        pending.connectorCred, peer⟩)

/-! ## Sending and receiving -/

/-- The look-up that opens `stream_recv_impl` and `stream_write_impl`: the connection, the half to
read and the half to write. -/
def streamEnter : Op F (Except Errno (Nat × Fin 2 × Fin 2)) :=
  withLock (.state s) do
    let st := (← get).state s
    if st.role ≠ .connected then return .error .enotconn
    match st.conn with
    | none => return .error .enotconn
    | some c => return .ok (c, st.readerHalf, st.writerHalf)

/-- One turn of the loop of `stream_recv_impl`; `signal` is whether the caller has an unblocked
signal. -/
def streamRecvTurn (half : Fin 2) (len : Nat) (nonblock signal : Bool) :
    Op F (Option (Except Errno (UnixMessage F))) :=
  withLock (.channel c half) do
    let ch := ((← get).conn c).channels half
    if !ch.messages.isEmpty then
      let taken := recvLoop len ch.messages ch.bufferedLen
      modify fun net => net.setChannel c half
        { ch with messages := taken.messages, bufferedLen := taken.bufferedLen }
      wake
      return some (.ok (.new taken.data taken.rights none))
    if ch.readClosed then return some (.ok (.new [] [] none))
    if nonblock then return some (.error .eagain)
    if signal then return some (.error .eintr)
    return none

def streamWriteTurn (half : Fin 2) (data : List UInt8) (rights : List F)
    (nonblock signal : Bool) : Op F (Option (Except Errno Nat)) :=
  withLock (.channel c half) do
    let ch := ((← get).conn c).channels half
    if ch.writeClosed then return some (.error .epipe)
    let available := channelCapacity - ch.bufferedLen
    let atomicWrite : Bool := data.length ≤ channelCapacity
    let canWrite : Bool := if atomicWrite then available ≥ data.length else available > 0
    if canWrite then
      let count := if atomicWrite then data.length else min available data.length
      modify fun net => net.setChannel c half
        { ch with
          messages := ch.messages ++ [.new (data.take count) rights none]
          bufferedLen := ch.bufferedLen + count }
      wake
      return some (.ok count)
    if nonblock then return some (.error .eagain)
    if signal then return some (.error .eintr)
    return none

/-- What a woken call does before its next turn: `finish_wait` under the lock. -/
def finishWait (l : Lock) : Op F Unit := withLock l (pure ())

def streamRecv (s len : Nat) (nonblock signal : Bool) :
    Op F (Option (Except Errno (UnixMessage F))) := do
  match ← streamEnter s with
  | .error e => return some (.error e)
  | .ok (c, readerHalf, _) => streamRecvTurn c readerHalf len nonblock signal

variable (data : List UInt8) (rights : List F) (nonblock signal : Bool)

def streamWrite :
    Op F (Option (Except Errno Nat)) := do
  if data.isEmpty && rights.isEmpty then return some (.ok 0)
  match ← streamEnter s with
  | .error e => return some (.error e)
  | .ok (c, _, writerHalf) => streamWriteTurn c writerHalf data rights nonblock signal

def sendToMsg (addr : UnixAddr) (rights : List F) :
    Op F (Except Errno Nat) := do
  match ← withLock .registry do return (← get).registry.lookup addr.path with
  | none => return .error .econnrefused
  | some target =>
    withLock (.state target) do
      if ((← get).state target).sockType ≠ .dgram then return .error .eopnotsupp
      let src ← withLock (.state s) do return ((← get).state s).boundAddr.getD ⟨""⟩
      modify fun net => net.setState target
        { net.state target with
          dgramQueue := (net.state target).dgramQueue ++ [⟨data, src, rights⟩] }
      wake
      return .ok data.length

def sendToPeer : Op F (Except Errno Nat) := do
  match ← withLock (.state s) do return (← get).upgrade ((← get).state s).dgramPeer with
  | none => return .error .edestaddrreq
  | some peer =>
    let src ← withLock (.state s) do return ((← get).state s).boundAddr.getD ⟨""⟩
    withLock (.state peer) do
      let target := (← get).state peer
      if target.sockType ≠ .dgram || target.isClosed then return .error .econnrefused
      modify fun net => net.setState peer
        { target with dgramQueue := target.dgramQueue ++ [⟨data, src, rights⟩] }
      wake
      return .ok data.length

variable (dest : Option UnixAddr)

def dgramSend :
    Op F (Except Errno Nat) := do
  match dest with
  | some addr => sendToMsg s data addr rights
  | none =>
    match ← withLock (.state s) do return ((← get).state s).defaultPeer with
    | some addr => sendToMsg s data addr rights
    | none => sendToPeer s data rights

def dgramRecvTurn (s len : Nat) (nonblock signal : Bool) :
    Op F (Option (Except Errno (UnixMessage F))) :=
  withLock (.state s) do
    let st := (← get).state s
    match st.dgramQueue with
    | msg :: rest =>
      modify fun net => net.setState s { st with dgramQueue := rest }
      return some (.ok ⟨msg.data.take len, msg.rights, some msg.src, len < msg.data.length⟩)
    | [] =>
      if nonblock then return some (.error .eagain)
      if signal then return some (.error .eintr)
      return none

/-- `send_msg`; `none` is a call that waits after its first turn. -/
def sendMsg (s : Nat) (data : List UInt8) (rights : List F) (dest : Option UnixAddr)
    (nonblock signal : Bool) : Op F (Option (Except Errno Nat)) := do
  if (← withLock (.state s) do return ((← get).state s).sockType) = .dgram then
    return some (← dgramSend s data rights dest)
  else streamWrite s data rights nonblock signal

/-- `recv_msg`; `none` is a call that waits after its first turn. -/
def recvMsg (s len : Nat) (nonblock signal : Bool) :
    Op F (Option (Except Errno (UnixMessage F))) := do
  if (← withLock (.state s) do return ((← get).state s).sockType) = .dgram then
    dgramRecvTurn s len nonblock signal
  else streamRecv s len nonblock signal

/-! ## Shutting down and polling -/

def shutRd : Int := 0

def shutWr : Int := 1

def shutRdWr : Int := 2

def shutdownRead (half : Fin 2) : Op F Unit :=
  withLock (.channel c half) (modify fun net =>
    net.setChannel c half { (net.conn c).channels half with readClosed := true })

def shutdownWrite (half : Fin 2) : Op F Unit :=
  withLock (.channel c half) do
    modify fun net =>
      net.setChannel c half { (net.conn c).channels half with writeClosed := true }
    wake

def shutdown (how : Int) : Op F Unit := do
  let st ← withLock (.state s) do return (← get).state s
  if st.sockType ≠ .stream then return ()
  match st.conn with
  | none => return ()
  | some c =>
    if how = shutRd then shutdownRead c st.readerHalf
    else if how = shutWr then shutdownWrite c st.writerHalf
    else if how = shutRdWr then
      shutdownRead c st.readerHalf
      shutdownWrite c st.writerHalf

structure UnixPollState where
  readable : Bool
  writable : Bool
  hangup : Bool
  error : Bool
deriving DecidableEq

def poll : Op F UnixPollState :=
  withLock (.state s) do
    let st := (← get).state s
    if st.sockType = .dgram then
      let peerAlive ← match (← get).upgrade st.dgramPeer with
        | some peer => withLock (.state peer) do return !((← get).state peer).isClosed
        | none => pure false
      return ⟨!st.dgramQueue.isEmpty, st.role ≠ .unbound || st.dgramPeer.isNone,
        st.role = .unbound || (st.dgramPeer.isSome && !peerAlive), false⟩
    else if st.role = .listening then return ⟨!st.backlog.isEmpty, false, false, false⟩
    else
      match st.conn with
      | some c =>
        withLock (.channel c st.readerHalf) do
          let rch := ((← get).conn c).channels st.readerHalf
          withLock (.channel c st.writerHalf) do
            let wch := ((← get).conn c).channels st.writerHalf
            return ⟨rch.readable, wch.writable, rch.hangup, wch.error⟩
      | none => return ⟨false, false, false, false⟩

end Operations

end Twilight.Unix

/-
What the socket operations do, without their locks. Each operation has the outcome that the
equations here give it.
-/
import Twilight.Net.UnixSocket

namespace Twilight.Unix

open Locked Function List Option UnixState Net Channel

variable {F : Type}

/-! ## What changes -/

namespace UnixState

variable (st : UnixState F)

/-- What `close` leaves of a socket. -/
def detached : UnixState F :=
  { st with ownsBinding := false, conn := none, role := .unbound, peerAddr := none }

/-- The address that `close` takes out of the registry. -/
def ownAddr : Option UnixAddr := if st.ownsBinding then st.boundAddr else none

/-- The halves in the order `close` closes them. -/
def closingHalves (refcount : UInt8) : Fin 2 × Fin 2 :=
  if refcount ≤ 1 then (0, 1) else (st.writerHalf, st.readerHalf)

end UnixState

namespace Net

variable (net : Net F) (s : Nat)

def bound (addr : UnixAddr) : Net F :=
  { net.setState s { net.state s with role := .bound, boundAddr := some addr, ownsBinding := true }
    with registry := net.registry.insert addr.path s }

variable (listener : Nat) (cred : PeerCredentials)

/-- A new connection with its other end in the backlog of `listener`. -/
def queued : Net F :=
  let made := net.addConn.addState (.ofConn net.conns 0 1) 0
  made.setState listener
    { made.state listener with backlog := (made.state listener).backlog ++ [⟨net.states, cred⟩] }

def attached (s c : Nat) (addr : UnixAddr) : Net F :=
  net.setState s
    { net.state s with
      conn := some c, readerHalf := 1, writerHalf := 0, peerAddr := some addr, role := .connected }

variable (pending : PendingAccept) (rest : List PendingAccept)

def accepted :
    Net F :=
  let taken := net.setState s { net.state s with backlog := rest }
  (taken.setState pending.state
    { taken.state pending.state with boundAddr := (net.state s).boundAddr }).setHandles
      pending.state 1

def streamPair : Net F :=
  (net.addConn.addState (.ofConn net.conns 1 0) 1).addState (.ofConn net.conns 0 1) 1

def dgramPair : Net F :=
  let made := (net.addState (.new .dgram) 1).addState (.new .dgram) 1
  let left := made.setState net.states
    { made.state net.states with role := .connected, dgramPeer := some (net.states + 1) }
  left.setState (net.states + 1)
    { left.state (net.states + 1) with role := .connected, dgramPeer := some net.states }

variable (addr : Option UnixAddr)

def unregistered : Net F :=
  match addr with
  | some addr =>
    if net.registry.lookup addr.path = some s then
      { net with registry := net.registry.erase addr.path }
    else net
  | none => net

def releasedConn (c : Nat) : Net F :=
  { net with
    conn := update net.conn c { net.conn c with refcount := (net.conn c).refcount - 1 } }

def hungUp (c : Nat) (half : Fin 2) : Net F :=
  net.setChannel c half ((net.conn c).channels half).closeBoth

/-- `close` before it comes to the connection. -/
def unnamed : Net F := (net.setState s (net.state s).detached).unregistered s (net.state s).ownAddr

def closed : Net F :=
  match (net.state s).conn with
  | some c =>
    let halves := (net.state s).closingHalves (net.conn c).refcount
    (((net.unnamed s).releasedConn c).hungUp c halves.1).hungUp c halves.2
  | none => net.unnamed s

def closeWoken : List (Net F) :=
  match (net.state s).conn with
  | some c =>
    let halves := (net.state s).closingHalves (net.conn c).refcount
    [((net.unnamed s).releasedConn c).hungUp c halves.1,
      (((net.unnamed s).releasedConn c).hungUp c halves.1).hungUp c halves.2]
  | none => []

lemma setState_state (st : UnixState F) (s' : Nat) :
    (net.setState s st).state s' = if s' = s then st else net.state s' :=
  update_apply _ _ _ _

lemma addState_state (st : UnixState F) (refs s : Nat) :
    (net.addState st refs).state s = if s = net.states then st else net.state s :=
  update_apply _ _ _ _

lemma setHandles_handleRefs (s refs s' : Nat) :
    (net.setHandles s refs).handleRefs s' = if s' = s then refs else net.handleRefs s' :=
  update_apply _ _ _ _

lemma attached_state_of_ne {s s' : Nat} (hs : s' ≠ s) (c : Nat)
    (addr : UnixAddr) : (net.attached s c addr).state s' = net.state s' :=
  update_of_ne hs _ _

lemma streamPair_state :
    net.streamPair.state s =
      if s = net.states + 1 then .ofConn net.conns 0 1
      else if s = net.states then .ofConn net.conns 1 0
      else net.state s := by
  simp only [streamPair, addState, addConn, update_apply]

lemma streamPair_handleRefs :
    net.streamPair.handleRefs s =
      if s = net.states + 1 then 1 else if s = net.states then 1 else net.handleRefs s := by
  simp only [streamPair, addState, addConn, update_apply]

lemma dgramPair_state :
    net.dgramPair.state s =
      if s = net.states + 1 then
        { new .dgram with role := .connected, dgramPeer := some net.states }
      else if s = net.states then
        { new .dgram with role := .connected, dgramPeer := some (net.states + 1) }
      else net.state s := by
  by_cases hright : s = net.states + 1
  · simp [dgramPair, addState, setState, hright]
  · by_cases hleft : s = net.states
    · simp [dgramPair, addState, setState, hleft]
    · simp [dgramPair, addState, setState, hleft, hright]

lemma dgramPair_handleRefs :
    net.dgramPair.handleRefs s =
      if s = net.states + 1 then 1 else if s = net.states then 1 else net.handleRefs s := by
  simp only [dgramPair, addState, setState, update_apply]

lemma queued_state {listener : Nat} (hnew : listener ≠ net.states)
    (cred : PeerCredentials) (s : Nat) :
    (net.queued listener cred).state s =
      if s = listener then
        { net.state s with backlog := (net.state s).backlog ++ [⟨net.states, cred⟩] }
      else if s = net.states then .ofConn net.conns 0 1
      else net.state s := by
  by_cases hs : s = listener
  · subst hs
    simp [queued, setState, addState, addConn, hnew]
  · by_cases hsnew : s = net.states
    · subst hsnew
      simp [queued, setState, addState, addConn, hs]
    · simp [queued, setState, addState, addConn, hs, hsnew]

@[simp] lemma queued_states : (net.queued listener cred).states = net.states + 1 := rfl

@[simp] lemma queued_conns : (net.queued listener cred).conns = net.conns + 1 := rfl

@[simp] lemma queued_handleRefs :
    (net.queued listener cred).handleRefs = update net.handleRefs net.states 0 := rfl

@[simp] lemma queued_conn :
    (net.queued listener cred).conn = update net.conn net.conns .new := rfl

@[simp] lemma queued_registry : (net.queued listener cred).registry = net.registry := rfl

lemma accepted_state {s : Nat} {pending : PendingAccept}
    (hself : pending.state ≠ s) (rest : List PendingAccept) (s' : Nat) :
    (net.accepted s pending rest).state s' =
      if s' = s then { net.state s' with backlog := rest }
      else if s' = pending.state then { net.state s' with boundAddr := (net.state s).boundAddr }
      else net.state s' := by
  by_cases hs : s' = s
  · subst hs
    simp [accepted, setState, setHandles, hself.symm]
  · by_cases hp : s' = pending.state
    · subst hp
      simp [accepted, setState, setHandles, hs]
    · simp [accepted, setState, setHandles, hs, hp]

@[simp] lemma accepted_handleRefs :
    (net.accepted s pending rest).handleRefs =
      update net.handleRefs pending.state 1 := rfl

@[simp] lemma unregistered_conn :
    (net.unregistered s addr).conn = net.conn := by
  unfold unregistered
  split
  · split <;> rfl
  · rfl

@[simp] lemma unregistered_state :
    (net.unregistered s addr).state = net.state := by
  unfold unregistered
  split
  · split <;> rfl
  · rfl

@[simp] lemma unregistered_handleRefs :
    (net.unregistered s addr).handleRefs = net.handleRefs := by
  unfold unregistered
  split
  · split <;> rfl
  · rfl

@[simp] lemma unregistered_states :
    (net.unregistered s addr).states = net.states := by
  unfold unregistered
  split
  · split <;> rfl
  · rfl

@[simp] lemma unregistered_conns :
    (net.unregistered s addr).conns = net.conns := by
  unfold unregistered
  split
  · split <;> rfl
  · rfl

lemma closed_eq :
    ∃ conn, net.closed s = { net.unnamed s with conn := conn } := by
  unfold closed
  split
  · exact ⟨_, rfl⟩
  · exact ⟨_, rfl⟩

@[simp] lemma closed_state :
    (net.closed s).state = update net.state s (net.state s).detached := by
  obtain ⟨conn, h⟩ := net.closed_eq s
  simp [h, unnamed, setState]

@[simp] lemma closed_handleRefs :
    (net.closed s).handleRefs = net.handleRefs := by
  obtain ⟨conn, h⟩ := net.closed_eq s
  simp [h, unnamed, setState]

@[simp] lemma closed_states : (net.closed s).states = net.states := by
  obtain ⟨conn, h⟩ := net.closed_eq s
  simp [h, unnamed, setState]

@[simp] lemma closed_conns : (net.closed s).conns = net.conns := by
  obtain ⟨conn, h⟩ := net.closed_eq s
  simp [h, unnamed, setState]

lemma closed_registry :
    (net.closed s).registry = (net.unregistered s (net.state s).ownAddr).registry := by
  obtain ⟨conn, h⟩ := net.closed_eq s
  rw [h, unnamed]
  cases (net.state s).ownAddr with
  | none => rfl
  | some addr =>
    by_cases hlookup : net.registry.lookup addr.path = some s
    · simp [unregistered, setState, hlookup]
    · simp [unregistered, setState, hlookup]

end Net

/-! ## Outcomes -/

variable {net : Net F} {held : List Lock} {s : Nat}

lemma look_run {α : Type} (s : Nat) (g : Net F → α) :
    (withLock (Lock.state s) (do return g (← get)) : Op F α).run [] net = some ⟨g net, net, []⟩ := by
  simp []

lemma closeBoth_run {c : Nat} {half : Fin 2} (h : Lock.channel c half ∉ held) :
    (closeBoth c half).run held net = some ⟨(), net.hungUp c half, [net.hungUp c half]⟩ := by
  simp [closeBoth, withLock_run _ h, hungUp]

lemma detach_run (hstate : Lock.state s ∉ held)
    (hpeer : ∀ p, (net.state s).dgramPeer = some p → p ≠ s ∧ Lock.state p ∉ held) :
    (detach s).run held net =
      some ⟨((net.state s).conn, (net.state s).ownAddr),
        net.setState s (net.state s).detached, []⟩ := by
  have hnotify : ∀ net' : Net F, (notifyPeer (net'.upgrade (net.state s).dgramPeer)).run
      (Lock.state s :: held) net' = some ⟨(), net', []⟩ := by
    intro net'
    cases hup : net'.upgrade (net.state s).dgramPeer with
    | none => rfl
    | some p =>
      obtain ⟨hne, hfree⟩ := hpeer p (filter_eq_some_iff.mp hup).1
      have hnot : Lock.state p ∉ Lock.state s :: held := by simpa using ⟨hne, hfree⟩
      rw [notifyPeer, withLock_run _ hnot, pure_run]
  simp [detach, hnotify, detached, ownAddr, hstate]

lemma removeBinding_run (hregistry : Lock.registry ∉ held) (addr : Option UnixAddr) :
    (removeBinding s addr).run held net = some ⟨(), net.unregistered s addr, []⟩ := by
  cases addr with
  | none => rfl
  | some addr => simp [removeBinding, Net.unregistered, hregistry]

lemma leaveConn_run {c : Nat} (hstate : Lock.state s ∉ held)
    (hchannel : ∀ c half, Lock.channel c half ∉ held) :
    (leaveConn s (some c)).run held net =
      let halves := (net.state s).closingHalves (net.conn c).refcount
      some ⟨(), ((net.releasedConn c).hungUp c halves.1).hungUp c halves.2,
        [(net.releasedConn c).hungUp c halves.1,
          ((net.releasedConn c).hungUp c halves.1).hungUp c halves.2]⟩ := by
  by_cases hlast : (net.conn c).refcount ≤ 1
  · simp [leaveConn, hlast, closeBoth_run, hchannel, closingHalves, releasedConn]
  · simp [leaveConn, hlast, closeBoth_run, hchannel, closingHalves, releasedConn, hstate]

lemma close_run (hstate : Lock.state s ∉ held)
    (hpeer : ∀ p, (net.state s).dgramPeer = some p → p ≠ s ∧ Lock.state p ∉ held)
    (hregistry : Lock.registry ∉ held) (hchannel : ∀ c half, Lock.channel c half ∉ held) :
    (close s).run held net = some ⟨(), net.closed s, net.closeWoken s⟩ := by
  rw [close, bind_of_run (detach_run hstate hpeer)]
  rw [bind_of_run (removeBinding_run hregistry _)]
  cases hconn : (net.state s).conn with
  | none => simp [leaveConn, closed, closeWoken, hconn, unnamed]
  | some c =>
    have hhalves : ((net.unnamed s).state s).closingHalves ((net.unnamed s).conn c).refcount =
        (net.state s).closingHalves (net.conn c).refcount := by
      simp [unnamed, setState, detached, closingHalves]
    rw [leaveConn_run hstate hchannel, ← unnamed, hhalves]
    simp [closed, closeWoken, hconn]

lemma bind_run (addr : UnixAddr) :
    (bind s addr).run [] net = some (
      if addr.path.isEmpty then ⟨.error .einval, net, []⟩
      else if (net.registry.lookup addr.path).isSome then ⟨.error .eaddrinuse, net, []⟩
      else ⟨.ok addr.addrLen, net.bound s addr, []⟩) := by
  by_cases hempty : addr.path.isEmpty
  · simp [bind, hempty]
  by_cases htaken : (net.registry.lookup addr.path).isSome
  · simp [bind, hempty, htaken]
  · simp [bind, hempty, htaken, bound, setState]

lemma listen_run :
    (listen s).run [] net = some (
      if (net.state s).sockType ≠ .stream then ⟨.error .eopnotsupp, net, []⟩
      else if (net.state s).role ≠ .bound then ⟨.error .einval, net, []⟩
      else ⟨.ok (), net.setState s { net.state s with role := .listening }, []⟩) := by
  simp only [listen, Locked.bind_run, withLock_run, not_mem_nil, not_false_eq_true, get_run,
    bind_some]
  split_ifs <;> rfl

lemma queueClient_run (listener : Nat) (cred : PeerCredentials) :
    (queueClient listener cred).run [] net = some (
      if (net.state listener).role ≠ .listening then ⟨false, net, []⟩
      else ⟨true, net.queued listener cred, []⟩) := by
  by_cases hrole : (net.state listener).role = .listening
  · simp [queueClient, hrole, queued]
  · simp [queueClient, hrole]

lemma attach_run (c : Nat) (addr : UnixAddr) :
    (attach s c addr []).run [] net = some ⟨(), net.attached s c addr, []⟩ := by
  simp [attach, attached]

lemma connect_run (addr : UnixAddr) (cred : PeerCredentials) :
    (connect s addr cred []).run [] net = some (
      match connectRefusal (net.state s) with
      | some e => ⟨.error e, net, []⟩
      | none =>
        match net.registry.lookup addr.path with
        | none => ⟨.error .econnrefused, net, []⟩
        | some listener =>
          if (net.state listener).role ≠ .listening then ⟨.error .econnrefused, net, []⟩
          else ⟨.ok (addr.addrLen, cred), (net.queued listener cred).attached s net.conns addr,
            []⟩) := by
  cases hrefusal : connectRefusal (net.state s) with
  | some e => simp [connect, hrefusal]
  | none =>
    cases hlookup : net.registry.lookup addr.path with
    | none => simp [connect, hrefusal, hlookup]
    | some listener =>
      by_cases hrole : (net.state listener).role = .listening
      · simp [connect, hrefusal, hlookup, hrole, queueClient_run, attach_run]
      · simp [connect, hrefusal, hlookup, hrole, queueClient_run]

variable (st : UnixState F)

/-- What `tryAcceptNew` hands over. -/
def acceptedBy (pending : PendingAccept) (peer : UnixState F) : Accepted :=
  ⟨pending.state, (st.boundAddr.map UnixAddr.addrLen).getD 0, pending.connectorCred,
    peer.peerAddr.getD ⟨""⟩⟩

lemma tryAcceptNew_run (hpending : ∀ q ∈ (net.state s).backlog, q.state ≠ s) :
    (tryAcceptNew s).run [] net = some (
      if (net.state s).sockType ≠ .stream then ⟨.error .eopnotsupp, net, []⟩
      else if (net.state s).role ≠ .listening then ⟨.error .einval, net, []⟩
      else
        match (net.state s).backlog with
        | [] => ⟨.ok none, net, []⟩
        | pending :: rest =>
          ⟨.ok (some (acceptedBy (net.state s) pending (net.state pending.state))),
            net.accepted s pending rest, []⟩) := by
  by_cases htype : (net.state s).sockType = .stream
  · by_cases hrole : (net.state s).role = .listening
    · cases hbacklog : (net.state s).backlog with
      | nil => simp [tryAcceptNew, htype, hrole, hbacklog]
      | cons pending rest =>
        have hne : pending.state ≠ s := hpending pending (hbacklog ▸ mem_cons_self)
        simp [tryAcceptNew, htype, hrole, hbacklog, hne, accepted, acceptedBy, setState]
    · simp [tryAcceptNew, htype, hrole]
  · simp [tryAcceptNew, htype]

lemma drop_run (hstate : Lock.state s ∉ held)
    (hpeer : ∀ p, (net.state s).dgramPeer = some p → p ≠ s ∧ Lock.state p ∉ held)
    (hregistry : Lock.registry ∉ held) (hchannel : ∀ c half, Lock.channel c half ∉ held) :
    (drop s).run held net = some (
      if net.handleRefs s = 1 then
        ⟨(), (net.setHandles s 0).closed s, (net.setHandles s 0).closeWoken s⟩
      else ⟨(), net.setHandles s (net.handleRefs s - 1), []⟩) := by
  by_cases hlast : net.handleRefs s = 1
  · have hclose := @close_run F (net.setHandles s 0) held s hstate hpeer hregistry hchannel
    simp [drop, hlast, hclose]
  · simp [drop, hlast]

/-! ## Traffic -/

/-- The connection of a connected socket, with the half it reads and the half it writes. -/
def UnixState.streamEnds : Except Errno (Nat × Fin 2 × Fin 2) :=
  match st.conn with
  | some c =>
    if st.role = .connected then .ok (c, st.readerHalf, st.writerHalf) else .error .enotconn
  | none => .error .enotconn

lemma streamEnter_run :
    (streamEnter s).run [] net = some ⟨(net.state s).streamEnds, net, []⟩ := by
  cases hconn : (net.state s).conn with
  | none => simp [streamEnter, streamEnds, hconn]
  | some c =>
    by_cases hrole : (net.state s).role = .connected
    · simp [streamEnter, streamEnds, hconn, hrole]
    · simp [streamEnter, streamEnds, hconn, hrole]

/-- What a turn answers that finds nothing to do: it waits, or says why it does not. -/
def idle {α : Type} (nonblock signal : Bool) : Option (Except Errno α) :=
  if nonblock then some (.error .eagain) else if signal then some (.error .eintr) else none

namespace Channel

variable (ch : Channel F) (len : Nat)

/-- What a reader with `len` bytes of room leaves. -/
def received : Channel F :=
  { ch with
    messages := (recvLoop len ch.messages ch.bufferedLen).messages
    bufferedLen := (recvLoop len ch.messages ch.bufferedLen).bufferedLen }

def taken : UnixMessage F :=
  .new (recvLoop len ch.messages ch.bufferedLen).data
    (recvLoop len ch.messages ch.bufferedLen).rights none

def pushed (data : List UInt8) (rights : List F) : Channel F :=
  { ch with
    messages := ch.messages ++ [.new data rights none]
    bufferedLen := ch.bufferedLen + data.length }

/-- How many of `len` bytes a writer may push: all of them if they fit, and a part of them only
if they would not fit into an empty channel. -/
def room : Option Nat :=
  if len ≤ channelCapacity then
    if len ≤ channelCapacity - ch.bufferedLen then some len else none
  else if 0 < channelCapacity - ch.bufferedLen then
    some (min (channelCapacity - ch.bufferedLen) len)
  else none

lemma room_le {ch : Channel F} {len n : Nat} (h : ch.room len = some n) :
    n ≤ len ∧ n ≤ channelCapacity - ch.bufferedLen := by
  unfold room at h
  split at h
  · split at h
    · cases h
      omega
    · cases h
  · split at h
    · cases h
      omega
    · cases h

end Channel

lemma streamRecvTurn_run (c : Nat) (half : Fin 2) (len : Nat) (nonblock signal : Bool) :
    (streamRecvTurn c half len nonblock signal).run [] net = some (
      let ch := (net.conn c).channels half
      if ch.messages = [] then
        ⟨if ch.readClosed then some (.ok (.new [] [] none)) else idle nonblock signal, net, []⟩
      else
        let net' := net.setChannel c half (ch.received len)
        ⟨some (.ok (ch.taken len)), net', [net']⟩) := by
  by_cases hempty : ((net.conn c).channels half).messages = []
  · cases hclosed : ((net.conn c).channels half).readClosed with
    | true => simp [streamRecvTurn, hempty, hclosed]
    | false =>
      simp only [streamRecvTurn, withLock_run, Locked.bind_run, hempty, idle,
        not_mem_nil, not_false_eq_true, get_run, bind_some,
        isEmpty_nil, Bool.not_true, Bool.false_eq_true, if_false]
      split_ifs <;> rfl
  · simp [streamRecvTurn, hempty, Channel.received, Channel.taken]

lemma streamWriteTurn_run (c : Nat) (half : Fin 2) (data : List UInt8) (rights : List F)
    (nonblock signal : Bool) :
    (streamWriteTurn c half data rights nonblock signal).run [] net = some (
      let ch := (net.conn c).channels half
      if ch.writeClosed then ⟨some (.error .epipe), net, []⟩
      else
        match ch.room data.length with
        | some n =>
          let net' := net.setChannel c half (ch.pushed (data.take n) rights)
          ⟨some (.ok n), net', [net']⟩
        | none => ⟨idle nonblock signal, net, []⟩) := by
  cases hclosed : ((net.conn c).channels half).writeClosed with
  | true => simp [streamWriteTurn, hclosed]
  | false =>
    by_cases hsmall : data.length ≤ channelCapacity
    · by_cases hfits : data.length ≤ channelCapacity - ((net.conn c).channels half).bufferedLen
      · simp [streamWriteTurn, hclosed, hsmall, hfits, room, pushed]
      · simp [streamWriteTurn, hclosed, hsmall, hfits, room, idle]
        split_ifs <;> rfl
    by_cases hfits : 0 < channelCapacity - ((net.conn c).channels half).bufferedLen
    · have hless : ((net.conn c).channels half).bufferedLen < channelCapacity := by omega
      simp [streamWriteTurn, hclosed, hsmall, hfits, hless, room, pushed]
    · have hfull : channelCapacity ≤ ((net.conn c).channels half).bufferedLen := by omega
      simp [streamWriteTurn, hclosed, hsmall, hfull, Nat.not_lt.mpr hfull, room, idle]
      split_ifs <;> rfl

def Net.delivered (net : Net F) (target : Nat) (msg : DgramMessage F) : Net F :=
  net.setState target { net.state target with dgramQueue := (net.state target).dgramQueue ++ [msg] }

/-- The address a datagram of `s` comes from. -/
def UnixState.srcAddr : UnixAddr := st.boundAddr.getD ⟨""⟩

lemma sendToMsg_run {data : List UInt8} {addr : UnixAddr} {rights : List F}
    (hself : net.registry.lookup addr.path = some s → (net.state s).sockType ≠ .dgram) :
    (sendToMsg s data addr rights).run [] net = some (
      match net.registry.lookup addr.path with
      | none => ⟨.error .econnrefused, net, []⟩
      | some target =>
        if (net.state target).sockType ≠ .dgram then ⟨.error .eopnotsupp, net, []⟩
        else
          let net' := net.delivered target ⟨data, (net.state s).srcAddr, rights⟩
          ⟨.ok data.length, net', [net']⟩) := by
  cases hlookup : net.registry.lookup addr.path with
  | none => simp [sendToMsg, hlookup]
  | some target =>
    by_cases htype : (net.state target).sockType = .dgram
    · have hne : s ≠ target := by
        rintro rfl
        exact hself hlookup htype
      simp [sendToMsg, hlookup, htype, hne, delivered, UnixState.srcAddr]
    · simp [sendToMsg, hlookup, htype]

lemma sendToMsg_self {data : List UInt8} {addr : UnixAddr} {rights : List F}
    (hlookup : net.registry.lookup addr.path = some s) (htype : (net.state s).sockType = .dgram) :
    (sendToMsg s data addr rights).run [] net = none := by
  simp [sendToMsg, hlookup, htype]

lemma sendToPeer_run (data : List UInt8) (rights : List F) :
    (sendToPeer s data rights).run [] net = some (
      match net.upgrade (net.state s).dgramPeer with
      | none => ⟨.error .edestaddrreq, net, []⟩
      | some peer =>
        if (net.state peer).sockType ≠ .dgram || (net.state peer).isClosed then
          ⟨.error .econnrefused, net, []⟩
        else
          let net' := net.delivered peer ⟨data, (net.state s).srcAddr, rights⟩
          ⟨.ok data.length, net', [net']⟩) := by
  cases hpeer : net.upgrade (net.state s).dgramPeer with
  | none => simp [sendToPeer, hpeer]
  | some peer =>
    by_cases hrefused : ((net.state peer).sockType ≠ .dgram || (net.state peer).isClosed) = true
    · simp only [sendToPeer, Locked.bind_run, withLock_run, hpeer, hrefused, not_mem_nil,
        not_false_eq_true, get_run, bind_some, pure_run, if_true, map_some,
        after_mk, append_nil]
    · simp only [sendToPeer, Locked.bind_run, withLock_run, hpeer, hrefused, not_mem_nil,
        not_false_eq_true, get_run, bind_some, pure_run, map_some,
        after_mk]
      rfl

lemma dgramRecvTurn_run (len : Nat) (nonblock signal : Bool) :
    (dgramRecvTurn s len nonblock signal).run [] net = some (
      match (net.state s).dgramQueue with
      | msg :: rest =>
        ⟨some (.ok ⟨msg.data.take len, msg.rights, some msg.src, len < msg.data.length⟩),
          net.setState s { net.state s with dgramQueue := rest }, []⟩
      | [] => ⟨idle nonblock signal, net, []⟩) := by
  cases hqueue : (net.state s).dgramQueue with
  | cons msg rest => simp [dgramRecvTurn, hqueue]
  | nil =>
    simp [dgramRecvTurn, hqueue, idle]
    split_ifs <;> rfl

/-! ## Shutting down and polling -/

namespace Net

def shutRead (net : Net F) (c : Nat) (half : Fin 2) : Net F :=
  net.setChannel c half { (net.conn c).channels half with readClosed := true }

def shutWrite (net : Net F) (c : Nat) (half : Fin 2) : Net F :=
  net.setChannel c half { (net.conn c).channels half with writeClosed := true }

lemma setChannel_channel (net : Net F) (c : Nat) (half : Fin 2) (ch : Channel F) (c' : Nat)
    (half' : Fin 2) :
    ((net.setChannel c half ch).conn c').channels half' =
      if c' = c ∧ half' = half then ch else (net.conn c').channels half' := by
  by_cases hc : c' = c
  · subst hc
    by_cases hhalf : half' = half
    · simp [setChannel, hhalf]
    · simp [setChannel, hhalf]
  · simp [setChannel, hc]

lemma shutRead_channel (net : Net F) (c : Nat) (half : Fin 2) (c' : Nat) (half' : Fin 2) :
    ((net.shutRead c half).conn c').channels half' =
      if c' = c ∧ half' = half then { (net.conn c).channels half with readClosed := true }
      else (net.conn c').channels half' :=
  net.setChannel_channel c half _ c' half'

lemma shutWrite_channel (net : Net F) (c : Nat) (half : Fin 2) (c' : Nat) (half' : Fin 2) :
    ((net.shutWrite c half).conn c').channels half' =
      if c' = c ∧ half' = half then { (net.conn c).channels half with writeClosed := true }
      else (net.conn c').channels half' :=
  net.setChannel_channel c half _ c' half'

/-- `shutdown` of an end that reads `readerHalf` of connection `c` and writes `writerHalf`, with
the states in which it wakes. -/
def shut (net : Net F) (c : Nat) (readerHalf writerHalf : Fin 2) (how : Int) :
    Net F × List (Net F) :=
  if how = shutRd then (net.shutRead c readerHalf, [])
  else if how = shutWr then (net.shutWrite c writerHalf, [net.shutWrite c writerHalf])
  else if how = shutRdWr then
    let net' := (net.shutRead c readerHalf).shutWrite c writerHalf
    (net', [net'])
  else (net, [])

def pollState (net : Net F) (s : Nat) : UnixPollState :=
  let st := net.state s
  if st.sockType = .dgram then
    let peerAlive := (net.upgrade st.dgramPeer).any fun p => !(net.state p).isClosed
    ⟨!st.dgramQueue.isEmpty, st.role ≠ .unbound || st.dgramPeer.isNone,
      st.role = .unbound || (st.dgramPeer.isSome && !peerAlive), false⟩
  else if st.role = .listening then ⟨!st.backlog.isEmpty, false, false, false⟩
  else
    match st.conn with
    | some c =>
      let rch := (net.conn c).channels st.readerHalf
      let wch := (net.conn c).channels st.writerHalf
      ⟨rch.readable, wch.writable, rch.hangup, wch.error⟩
    | none => ⟨false, false, false, false⟩

end Net

lemma shutdown_run (how : Int) :
    (shutdown s how).run [] net = some (
      match (net.state s).conn with
      | none => ⟨(), net, []⟩
      | some c =>
        if (net.state s).sockType ≠ .stream then ⟨(), net, []⟩
        else
          let shut := net.shut c (net.state s).readerHalf (net.state s).writerHalf how
          ⟨(), shut.1, shut.2⟩) := by
  by_cases htype : (net.state s).sockType = .stream
  · cases hconn : (net.state s).conn with
    | none => simp [shutdown, hconn]
    | some c =>
      simp [shutdown, hconn, shut]
      split_ifs <;> rfl
  · simp [shutdown, htype]
    split <;> rfl

lemma poll_run (hpeer : ∀ p, (net.state s).dgramPeer = some p → p ≠ s)
    (hhalves : ∀ c, (net.state s).conn = some c →
      (net.state s).readerHalf ≠ (net.state s).writerHalf) :
    (poll s).run [] net = some ⟨net.pollState s, net, []⟩ := by
  by_cases htype : (net.state s).sockType = .dgram
  · cases hup : net.upgrade (net.state s).dgramPeer with
    | none => simp [poll, htype, hup, pollState]
    | some p =>
      have hne : p ≠ s := hpeer p (filter_eq_some_iff.mp hup).1
      simp [poll, htype, hup, pollState, hne]
  · by_cases hrole : (net.state s).role = .listening
    · simp [poll, htype, hrole, pollState]
    · cases hconn : (net.state s).conn with
      | none => simp [poll, htype, hrole, hconn, pollState]
      | some c =>
        have hne := (hhalves c hconn).symm
        simp [poll, htype, hrole, hconn, pollState, hne]

end Twilight.Unix

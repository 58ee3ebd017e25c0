/-
The locks of one socket operation. The mutexes spin and are not reentrant, so that a call which
takes one that it holds never returns. Every operation is run from the sockets that some run of the
parties has reached, with a registry and a destination of any content.
-/
import Twilight.Net.UnixParties

namespace Twilight.Unix

open Locked List Net

variable {F : Type}

/-- A call of one operation, or what a call does when it is woken from a wait: it finishes the
wait under the lock and takes another turn. -/
inductive Call (F : Type) where
  | bind (s : Nat) (addr : UnixAddr)
  | connect (s : Nat) (addr : UnixAddr) (cred : PeerCredentials) (released : List Nat)
  | accept (s : Nat)
  | send (s : Nat) (data : List UInt8) (rights : List F) (dest : Option UnixAddr)
    (nonblock signal : Bool)
  | recv (s len : Nat) (nonblock signal : Bool)
  | poll (s : Nat)
  | close (s : Nat)
  | shutdown (s : Nat) (how : Int)
  | acceptWoken (s : Nat)
  | sendWoken (c : Nat) (half : Fin 2) (data : List UInt8) (rights : List F)
    (nonblock signal : Bool)
  | streamRecvWoken (c : Nat) (half : Fin 2) (len : Nat) (nonblock signal : Bool)
  | dgramRecvWoken (s len : Nat) (nonblock signal : Bool)

namespace Call

variable (net : Net F)

def Stuck : Call F → Prop
  | .bind s addr => (Unix.bind s addr).run [] net = none
  | .connect s addr cred released => (Unix.connect s addr cred released).run [] net = none
  | .accept s => (tryAcceptNew s).run [] net = none
  | .send s data rights dest nonblock signal =>
    (sendMsg s data rights dest nonblock signal).run [] net = none
  | .recv s len nonblock signal => (recvMsg s len nonblock signal).run [] net = none
  | .poll s => (Unix.poll s).run [] net = none
  | .close s => (Unix.close s).run [] net = none
  | .shutdown s how => (Unix.shutdown s how).run [] net = none
  | .acceptWoken s => (do finishWait (.state s); tryAcceptNew s).run [] net = none
  | .sendWoken c half data rights nonblock signal =>
    (do finishWait (.channel c half); streamWriteTurn c half data rights nonblock signal).run []
      net = none
  | .streamRecvWoken c half len nonblock signal =>
    (do finishWait (.channel c half); streamRecvTurn c half len nonblock signal : Op F _).run []
      net = none
  | .dgramRecvWoken s len nonblock signal =>
    (do finishWait (.state s); dgramRecvTurn s len nonblock signal : Op F _).run [] net = none

def Holds : Call F → Prop
  | .connect s _ _ released => released.count s < net.handleRefs s
  | _ => True

/-- A datagram goes to the address that its own sender has in the registry. -/
def SendsToItself : Call F → Prop
  | .send s _ _ dest _ _ => (net.state s).sockType = .dgram ∧
    ∃ addr, (dest <|> (net.state s).defaultPeer) = some addr ∧
      net.registry.lookup addr.path = some s
  | _ => False

end Call

variable {net : Net F}

@[simp] lemma finishWait_run (l : Lock) : (finishWait l : Op F Unit).run [] net = some ⟨(), net, []⟩ := by
  rw [finishWait, withLock_run _ not_mem_nil, pure_run]

/-! ## Handles dropped under the lock of a socket -/

/-- What dropping a handle of another socket needs: `s` is a stream socket, so that it is nobody's
datagram peer. -/
structure Sheltered (net : Net F) (s : Nat) (released : List Nat) : Prop where
  wired : Wired net
  stream : (net.state s).sockType = .stream
  held : released.count s < net.handleRefs s

namespace Sheltered

variable {s x : Nat} {released : List Nat}

lemma drop_self (h : Sheltered net s (s :: released)) :
    ∃ o, (drop s).run [Lock.state s] net = some o ∧ Sheltered o.state s released := by
  have hheld := h.held
  rw [count_cons_self] at hheld
  have hlast : net.handleRefs s ≠ 1 := by omega
  refine ⟨⟨(), net.setHandles s (net.handleRefs s - 1), []⟩, ?_, ?_⟩
  · simp [drop, hlast]
  · refine ⟨h.wired.dropHandle s, h.stream, ?_⟩
    simp only [setHandles, Function.update_self]
    omega

lemma drop_other (h : Sheltered net s (x :: released)) (hx : x ≠ s) :
    ∃ o, (drop x).run [Lock.state s] net = some o ∧ Sheltered o.state s released := by
  have hstate : Lock.state x ∉ [Lock.state s] := by simpa using hx
  have hpeer : ∀ p, (net.state x).dgramPeer = some p → p ≠ x ∧ Lock.state p ∉ [Lock.state s] := by
    intro p hp
    obtain ⟨hne, hdgram⟩ := h.wired.peer x p hp
    refine ⟨hne, ?_⟩
    suffices p ≠ s by simpa using this
    rintro rfl
    rw [h.stream] at hdgram
    cases hdgram
  have hheld : released.count s < net.handleRefs s := by
    have := h.held
    rwa [count_cons_of_ne hx] at this
  refine ⟨_, drop_run hstate hpeer (by simp) (by simp), ?_⟩
  split
  · next hlast =>
    have hlt : x < net.states := h.wired.lt_of_open (by omega)
    refine ⟨(h.wired.setHandles hlt 0).closed hlt, ?_, ?_⟩
    · simpa [setHandles, hx.symm] using h.stream
    · simpa [setHandles, hx.symm] using hheld
  · refine ⟨h.wired.dropHandle x, h.stream, ?_⟩
    simpa [setHandles, hx.symm] using hheld

lemma drop (h : Sheltered net s (x :: released)) :
    ∃ o, (drop x).run [Lock.state s] net = some o ∧ Sheltered o.state s released := by
  by_cases hx : x = s
  · subst hx
    exact h.drop_self
  · exact h.drop_other hx

lemma drops (h : Sheltered net s released) :
    ∃ o, (released.forM Unix.drop).run [Lock.state s] net = some o := by
  induction released generalizing net with
  | nil => exact ⟨_, rfl⟩
  | cons x released ih =>
    obtain ⟨o, hrun, hnext⟩ := h.drop
    obtain ⟨o', hrest⟩ := ih hnext
    have hcons : (x :: released).forM (Unix.drop : Nat → Op F Unit) =
        (do Unix.drop x; released.forM Unix.drop) := rfl
    rw [hcons, bind_of_run hrun, hrest]
    exact ⟨_, rfl⟩

lemma attach (h : Sheltered net s released) (c : Nat) (addr : UnixAddr) :
    ∃ o, (attach s c addr released).run [] net = some o := by
  obtain ⟨o, hdrops⟩ := h.drops
  rw [Unix.attach, withLock_run _ not_mem_nil, bind_of_run hdrops]
  exact ⟨_, rfl⟩

lemma queued (h : Sheltered net s released) {listener : Nat} (hlistener : listener < net.states)
    (cred : PeerCredentials) : Sheltered (net.queued listener cred) s released := by
  have hs : s < net.states := h.wired.lt_of_open (Nat.zero_lt_of_lt h.held)
  have hne : s ≠ net.states := Nat.ne_of_lt hs
  refine ⟨h.wired.queued hlistener cred, ?_, ?_⟩
  · rw [queued_state net (Nat.ne_of_lt hlistener)]
    split
    · exact h.stream
    · exact h.stream
  · simpa [hne] using h.held

end Sheltered

variable {s : Nat}

lemma connect_returns (h : Wired net) (addr : UnixAddr) (cred : PeerCredentials)
    {released : List Nat} (hheld : released.count s < net.handleRefs s) :
    ∃ o, (connect s addr cred released).run [] net = some o := by
  cases hrefusal : connectRefusal (net.state s) with
  | some e => simp [connect, hrefusal]
  | none =>
    cases hlookup : net.registry.lookup addr.path with
    | none => simp [connect, hrefusal, hlookup]
    | some listener =>
      by_cases hrole : (net.state listener).role = .listening
      · have hlistener : listener < net.states := h.lt_of_role (by simp [hrole])
        have hstream := (connectRefusal_eq_none.mp hrefusal).1
        have hsheltered : Sheltered net s released := ⟨h, hstream, hheld⟩
        obtain ⟨o, hattach⟩ := (hsheltered.queued hlistener cred).attach net.conns addr
        simp [connect, hrefusal, hlookup, hrole, queueClient_run, hattach]
      · simp [connect, hrefusal, hlookup, hrole, queueClient_run]

variable (data : List UInt8)

lemma sendToMsg_none_iff (addr : UnixAddr) (rights : List F) :
    (sendToMsg s data addr rights).run [] net = none ↔
      net.registry.lookup addr.path = some s ∧ (net.state s).sockType = .dgram := by
  constructor
  · intro hnone
    by_contra hself
    rw [sendToMsg_run fun hlookup htype => hself ⟨hlookup, htype⟩] at hnone
    cases hnone
  · intro hself
    exact sendToMsg_self hself.1 hself.2

lemma dgramSend_none_iff (rights : List F)
    (dest : Option UnixAddr) (htype : (net.state s).sockType = .dgram) :
    (dgramSend s data rights dest).run [] net = none ↔
      ∃ addr, (dest <|> (net.state s).defaultPeer) = some addr ∧
        net.registry.lookup addr.path = some s := by
  cases dest with
  | some addr => simp [dgramSend, sendToMsg_none_iff, htype]
  | none =>
    rw [dgramSend, bind_of_look (look_run s fun net => (net.state s).defaultPeer)]
    cases (net.state s).defaultPeer with
    | some addr => simp [sendToMsg_none_iff, htype]
    | none => simp [sendToPeer_run]

lemma sendMsg_none_iff (rights : List F) (dest : Option UnixAddr)
    (nonblock signal : Bool) : (sendMsg s data rights dest nonblock signal).run [] net = none ↔
      (net.state s).sockType = .dgram ∧ ∃ addr, (dest <|> (net.state s).defaultPeer) = some addr ∧
        net.registry.lookup addr.path = some s := by
  rw [sendMsg, bind_of_look (look_run s fun net => (net.state s).sockType)]
  by_cases htype : (net.state s).sockType = .dgram
  · rw [if_pos htype, Locked.bind_run, ← dgramSend_none_iff data rights dest htype,
      and_iff_right htype]
    cases (dgramSend s data rights dest).run [] net with
    | none => exact iff_of_true rfl rfl
    | some o => exact iff_of_false (by simp) (by simp)
  · rw [if_neg htype, streamWrite]
    refine iff_of_false ?_ fun h => htype h.1
    split
    · simp
    · rw [bind_of_look streamEnter_run]
      split
      · simp
      · simp [streamWriteTurn_run]

lemma recvMsg_returns (s len : Nat) (nonblock signal : Bool) :
    ∃ o, (recvMsg s len nonblock signal : Op F _).run [] net = some o := by
  rw [recvMsg, bind_of_look (look_run s fun net => (net.state s).sockType)]
  split
  · exact ⟨_, dgramRecvTurn_run len nonblock signal⟩
  · rw [streamRecv, bind_of_look streamEnter_run]
    split
    · exact ⟨_, rfl⟩
    · exact ⟨_, streamRecvTurn_run _ _ len nonblock signal⟩

/-! ## No lock is taken twice -/

/-- From the sockets of every run, with any registry and any destination, a call comes to a lock
that it holds exactly if it sends a datagram to the address of its own socket. -/
theorem stuck_iff_sendsToItself (events : List (Event F)) (registry : AList fun _ : String => Nat)
    (call : Call F) (hheld : call.Holds (run Net.empty events)) :
    call.Stuck { run Net.empty events with registry := registry } ↔
      call.SendsToItself { run Net.empty events with registry := registry } := by
  have hwired : Wired { run Net.empty events with registry := registry } :=
    (Wired.empty.run events).congr rfl rfl rfl
  generalize hnet : { run Net.empty events with registry := registry } = net at hwired
  cases call with
  | bind s addr => simp [Call.Stuck, Call.SendsToItself, bind_run]
  | connect s addr cred released =>
    have hcount : released.count s < net.handleRefs s := by
      subst hnet
      exact hheld
    obtain ⟨o, ho⟩ := connect_returns hwired addr cred hcount
    simp [Call.Stuck, Call.SendsToItself, ho]
  | accept s =>
    simp [Call.Stuck, Call.SendsToItself, tryAcceptNew_run fun q hq => (hwired.pending s q hq).1]
  | send s data rights dest nonblock signal =>
    exact sendMsg_none_iff data rights dest nonblock signal
  | recv s len nonblock signal =>
    obtain ⟨o, ho⟩ := @recvMsg_returns F net s len nonblock signal
    simp [Call.Stuck, Call.SendsToItself, ho]
  | poll s =>
    simp [Call.Stuck, Call.SendsToItself,
      poll_run (fun p hp => (hwired.peer s p hp).1) (hwired.halves s)]
  | close s =>
    have hpeer : ∀ p, (net.state s).dgramPeer = some p → p ≠ s ∧ Lock.state p ∉ [] :=
      fun p hp => ⟨(hwired.peer s p hp).1, not_mem_nil⟩
    simp [Call.Stuck, Call.SendsToItself, close_run not_mem_nil hpeer]
  | shutdown s how => simp [Call.Stuck, Call.SendsToItself, shutdown_run]
  | acceptWoken s =>
    simp [Call.Stuck, Call.SendsToItself, tryAcceptNew_run fun q hq => (hwired.pending s q hq).1]
  | sendWoken c half data rights nonblock signal =>
    simp [Call.Stuck, Call.SendsToItself, streamWriteTurn_run]
  | streamRecvWoken c half len nonblock signal =>
    simp [Call.Stuck, Call.SendsToItself, streamRecvTurn_run]
  | dgramRecvWoken s len nonblock signal =>
    simp [Call.Stuck, Call.SendsToItself, dgramRecvTurn_run]

/-- A socket that has a connection is bound and connects once more: the connection it replaces is
dropped under the lock, with another handle of the socket that lies in its messages. -/
theorem connect_released_not_stuck :
    let net : Net Unit := run Net.empty [.socket .stream, .bind 0 ⟨"/l"⟩, .listen 0, .socket .stream,
      .connect 1 ⟨"/l"⟩ ⟨1, 0, 0⟩, .bind 1 ⟨"/b"⟩, .dup 1]
    (net.state 1).conn = some 0 ∧ connectRefusal (net.state 1) = none ∧
      net.registry.lookup "/l" = some 0 ∧ ¬ (Call.connect 1 ⟨"/l"⟩ ⟨1, 0, 0⟩ [1]).Stuck net := by
  intro net
  have hheld : (Call.connect 1 ⟨"/l"⟩ ⟨1, 0, 0⟩ [1]).Holds net := by
    show [1].count 1 < net.handleRefs 1
    decide
  refine ⟨by decide, by decide, by decide, fun h => ?_⟩
  exact (stuck_iff_sendsToItself _ net.registry _ hheld).mp h

/-- A datagram socket that sends to the path it is bound to. -/
theorem send_to_own_path_stuck :
    (Call.send 0 [] [] (some ⟨"/a"⟩) false false : Call Unit).Stuck
      (run Net.empty [.socket .dgram, .bind 0 ⟨"/a"⟩]) :=
  (sendMsg_none_iff [] [] (some ⟨"/a"⟩) false false).mpr ⟨by decide, ⟨"/a"⟩, rfl, by decide⟩

end Twilight.Unix

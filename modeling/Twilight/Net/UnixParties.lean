/-
The parties that use Unix sockets. A step is one operation through an open handle, or the next turn
of a call that has waited. `Effect` says in one place what a step can change, and an invariant of
the sockets is proved with one case for each effect.
-/
import Twilight.Net.UnixSteps

namespace Twilight.Unix

open Locked Function List

variable {F : Type}

/-- `dup` stands for all that makes a handle of a socket and `drop` for all that ends one. -/
inductive Event (F : Type) where
  | socket (sockType : SockType)
  | pair (sockType : SockType)
  | dup (s : Nat)
  | drop (s : Nat)
  | bind (s : Nat) (addr : UnixAddr)
  | listen (s : Nat)
  | connect (s : Nat) (addr : UnixAddr) (cred : PeerCredentials)
  | accept (s : Nat)
  | send (s : Nat) (data : List UInt8) (rights : List F) (dest : Option UnixAddr)
    (nonblock signal : Bool)
  | recv (s len : Nat) (nonblock signal : Bool)
  | sendTurn (c : Nat) (half : Fin 2) (data : List UInt8) (rights : List F)
    (nonblock signal : Bool)
  | recvTurn (c : Nat) (half : Fin 2) (len : Nat) (nonblock signal : Bool)
  | shutdown (s : Nat) (how : Int)
  | poll (s : Nat)

namespace Event

def handle : Event F → Option Nat
  | .dup s | .drop s | .bind s _ | .listen s | .connect s _ _ | .accept s | .send s _ _ _ _ _
  | .recv s _ _ _ | .shutdown s _ | .poll s => some s
  | .socket _ | .pair _ | .sendTurn .. | .recvTurn .. => none

def Traffic : Event F → Prop
  | .send .. | .recv .. | .sendTurn .. | .recvTurn .. | .shutdown .. => True
  | _ => False

/-- A handle that is dropped with the messages of a replaced connection is a `drop` of its own. -/
def leave (net : Net F) : Event F → Net F
  | .socket sockType => (newSocket sockType).leave net
  | .pair sockType => (Unix.pair sockType).leave net
  | .dup s => (Unix.dup s).leave net
  | .drop s => (Unix.drop s).leave net
  | .bind s addr => (Unix.bind s addr).leave net
  | .listen s => (Unix.listen s).leave net
  | .connect s addr cred => (Unix.connect s addr cred []).leave net
  | .accept s => (tryAcceptNew s).leave net
  | .send s data rights dest nonblock signal =>
    (sendMsg s data rights dest nonblock signal).leave net
  | .recv s len nonblock signal => (recvMsg s len nonblock signal).leave net
  | .sendTurn c half data rights nonblock signal =>
    (streamWriteTurn c half data rights nonblock signal).leave net
  | .recvTurn c half len nonblock signal =>
    (streamRecvTurn c half len nonblock signal).leave net
  | .shutdown s how => (Unix.shutdown s how).leave net
  | .poll s => (Unix.poll s).leave net

end Event

/-- Without a handle there is no step. -/
def step (net : Net F) (e : Event F) : Net F :=
  if e.handle.all fun s => 0 < net.handleRefs s then e.leave net else net

def run (net : Net F) (events : List (Event F)) : Net F := events.foldl step net

/-! ## One socket changes -/

/-- Socket `s`, which may be new, has state `st` and `refs` handles then, and the others stay. -/
structure Net.Puts (net : Net F) (s : Nat) (st : UnixState F) (refs : Nat) (net' : Net F) :
    Prop where
  states : net'.states = max net.states (s + 1)
  state : net'.state = update net.state s st
  handles : net'.handleRefs = update net.handleRefs s refs

namespace Net.Puts

variable {net net' : Net F} {s refs : Nat} {st : UnixState F}

lemma states_le (h : net.Puts s st refs net') : net.states ≤ net'.states :=
  h.states ▸ Nat.le_max_left ..

lemma cases (h : net.Puts s st refs net') (s' : Nat) :
    (s' = s ∧ net'.state s' = st ∧ net'.handleRefs s' = refs) ∨
      (s' ≠ s ∧ net'.state s' = net.state s' ∧ net'.handleRefs s' = net.handleRefs s') := by
  rw [h.state, h.handles]
  by_cases hs : s' = s
  · exact Or.inl ⟨hs, by rw [hs, update_self], by rw [hs, update_self]⟩
  · exact Or.inr ⟨hs, update_of_ne hs _ _, update_of_ne hs _ _⟩

lemma congr {net'' : Net F} (h : net.Puts s st refs net') (hstates : net''.states = net'.states)
    (hstate : net''.state = net'.state) (hhandles : net''.handleRefs = net'.handleRefs) :
    net.Puts s st refs net'' :=
  ⟨hstates.trans h.states, hstate.trans h.state, hhandles.trans h.handles⟩

end Net.Puts

namespace Net

variable (net : Net F) {s : Nat}

lemma puts_setState (hs : s < net.states) (st : UnixState F) :
    net.Puts s st (net.handleRefs s) (net.setState s st) :=
  ⟨(Nat.max_eq_left hs).symm, rfl, (update_eq_self s _).symm⟩

lemma puts_addState (st : UnixState F) (refs : Nat) :
    net.Puts net.states st refs (net.addState st refs) :=
  ⟨(Nat.max_eq_right (Nat.le_succ _)).symm, rfl, rfl⟩

lemma puts_setHandles (hs : s < net.states) (refs : Nat) :
    net.Puts s (net.state s) refs (net.setHandles s refs) :=
  ⟨(Nat.max_eq_left hs).symm, (update_eq_self s _).symm, rfl⟩

lemma puts_closed (hs : s < net.states) :
    net.Puts s (net.state s).detached 0 ((net.setHandles s 0).closed s) :=
  ⟨by rw [closed_states]; exact (Nat.max_eq_left hs).symm, closed_state _ s, closed_handleRefs _ s⟩

lemma dgramPair_state_of_lt (hs : s < net.states) :
    net.dgramPair.state s = net.state s ∧ net.dgramPair.handleRefs s = net.handleRefs s := by
  rw [net.dgramPair_state, net.dgramPair_handleRefs, if_neg (by omega), if_neg (by omega),
    if_neg (by omega), if_neg (by omega)]
  exact ⟨rfl, rfl⟩

lemma streamPair_state_of_lt (hs : s < net.states) :
    net.streamPair.state s = net.state s ∧ net.streamPair.handleRefs s = net.handleRefs s := by
  rw [net.streamPair_state, net.streamPair_handleRefs, if_neg (by omega), if_neg (by omega),
    if_neg (by omega), if_neg (by omega)]
  exact ⟨rfl, rfl⟩

end Net

/-! ## What holds of the sockets -/

/-- What keeps the locks of an operation apart: a peer is another socket, an end reads and writes
different halves, and a socket does not wait in its own backlog. -/
structure Wired (net : Net F) : Prop where
  fresh : ∀ s, net.states ≤ s → net.state s = .new .stream ∧ net.handleRefs s = 0
  peer : ∀ s p, (net.state s).dgramPeer = some p → p ≠ s ∧ (net.state p).sockType = .dgram
  halves : ∀ s c, (net.state s).conn = some c → (net.state s).readerHalf ≠ (net.state s).writerHalf
  pending : ∀ s, ∀ q ∈ (net.state s).backlog, q.state ≠ s ∧ q.state < net.states

lemma connectRefusal_eq_none {st : UnixState F} :
    connectRefusal st = none ↔
      st.sockType = .stream ∧ (st.role = .unbound ∨ st.role = .bound) := by
  unfold connectRefusal
  cases st.sockType <;> cases st.role <;> simp

/-- Channels may lose and get messages, and a closed side stays closed. -/
structure Aged (conn conn' : UnixConnection F) : Prop where
  refcount : conn'.refcount = conn.refcount
  readClosed : ∀ half, (conn.channels half).readClosed = true →
    (conn'.channels half).readClosed = true
  writeClosed : ∀ half, (conn.channels half).writeClosed = true →
    (conn'.channels half).writeClosed = true

inductive Effect (net : Net F) : Event F → Net F → Prop where
  | none (e : Event F) : Effect net e net
  | socket (sockType : SockType) : Effect net (.socket sockType) (net.addState (.new sockType) 1)
  | streamPair : Effect net (.pair .stream) net.streamPair
  | dgramPair : Effect net (.pair .dgram) net.dgramPair
  | dup {s : Nat} (hopen : 0 < net.handleRefs s) :
    Effect net (.dup s) (net.setHandles s (net.handleRefs s + 1))
  | drop {s : Nat} (hopen : 1 < net.handleRefs s) :
    Effect net (.drop s) (net.setHandles s (net.handleRefs s - 1))
  | close {s : Nat} (hlast : net.handleRefs s = 1) :
    Effect net (.drop s) ((net.setHandles s 0).closed s)
  | bind {s : Nat} {addr : UnixAddr} (hopen : 0 < net.handleRefs s)
    (hname : addr.path.isEmpty = false)
    (hfree : net.registry.lookup addr.path = none) : Effect net (.bind s addr) (net.bound s addr)
  | listen {s : Nat} (hopen : 0 < net.handleRefs s) (htype : (net.state s).sockType = .stream)
    (hrole : (net.state s).role = .bound) :
    Effect net (.listen s) (net.setState s { net.state s with role := .listening })
  | connect {s listener : Nat} {addr : UnixAddr} {cred : PeerCredentials}
    (hopen : 0 < net.handleRefs s) (htype : (net.state s).sockType = .stream)
    (hrole : (net.state s).role = .unbound ∨ (net.state s).role = .bound)
    (hlookup : net.registry.lookup addr.path = some listener)
    (hlisten : (net.state listener).role = .listening) :
    Effect net (.connect s addr cred) ((net.queued listener cred).attached s net.conns addr)
  | accept {s : Nat} {pending : PendingAccept} {rest : List PendingAccept}
    (hopen : 0 < net.handleRefs s) (hrole : (net.state s).role = .listening)
    (hbacklog : (net.state s).backlog = pending :: rest) :
    Effect net (.accept s) (net.accepted s pending rest)
  | queue {e : Event F} {s : Nat} (he : e.Traffic) (htype : (net.state s).sockType = .dgram)
    (messages : List (DgramMessage F)) :
    Effect net e (net.setState s { net.state s with dgramQueue := messages })
  | channels {e : Event F} (he : e.Traffic) (conn : Nat → UnixConnection F)
    (haged : ∀ c, Aged (net.conn c) (conn c)) : Effect net e { net with conn := conn }

namespace Aged

lemma refl (conn : UnixConnection F) : Aged conn conn := ⟨rfl, fun _ => id, fun _ => id⟩

variable (net : Net F)

lemma setChannel (c : Nat) (half : Fin 2) {ch : Channel F}
    (hread : ((net.conn c).channels half).readClosed = true → ch.readClosed = true)
    (hwrite : ((net.conn c).channels half).writeClosed = true → ch.writeClosed = true) (c' : Nat) :
    Aged (net.conn c') ((net.setChannel c half ch).conn c') := by
  by_cases hc : c' = c
  · subst hc
    refine ⟨by simp [Net.setChannel], fun half' h => ?_, fun half' h => ?_⟩
    · by_cases hhalf : half' = half
      · subst hhalf
        simpa [Net.setChannel] using hread h
      · simpa [Net.setChannel, hhalf] using h
    · by_cases hhalf : half' = half
      · subst hhalf
        simpa [Net.setChannel] using hwrite h
      · simpa [Net.setChannel, hhalf] using h
  · simp only [Net.setChannel, update_of_ne hc]
    exact refl _

lemma shutRead (c : Nat) (half : Fin 2) (c' : Nat) :
    Aged (net.conn c') ((net.shutRead c half).conn c') := by
  refine setChannel net c half ?_ ?_ c'
  · exact fun _ => rfl
  · exact id

lemma shutWrite (c : Nat) (half : Fin 2) (c' : Nat) :
    Aged (net.conn c') ((net.shutWrite c half).conn c') := by
  refine setChannel net c half ?_ ?_ c'
  · exact id
  · exact fun _ => rfl

lemma trans {a b c : UnixConnection F} (h : Aged a b) (h' : Aged b c) : Aged a c :=
  ⟨h'.refcount.trans h.refcount, fun half hr => h'.readClosed half (h.readClosed half hr),
    fun half hw => h'.writeClosed half (h.writeClosed half hw)⟩

end Aged

namespace Effect

variable {net : Net F} {e : Event F}

section

variable (he : e.Traffic)
include he

lemma ofChannel (c : Nat) (half : Fin 2) {ch : Channel F}
    (hread : ((net.conn c).channels half).readClosed = true → ch.readClosed = true)
    (hwrite : ((net.conn c).channels half).writeClosed = true → ch.writeClosed = true) :
    Effect net e (net.setChannel c half ch) :=
  channels he (net.setChannel c half ch).conn (Aged.setChannel net c half hread hwrite)

lemma ofRecvTurn (c : Nat) (half : Fin 2) (len : Nat) (nonblock signal : Bool) :
    Effect net e ((streamRecvTurn c half len nonblock signal).leave net) := by
  rw [leave_of_run (streamRecvTurn_run c half len nonblock signal)]
  dsimp only
  split
  · exact .none e
  · exact ofChannel he c half id id

lemma ofWriteTurn (c : Nat) (half : Fin 2) (data : List UInt8)
    (rights : List F) (nonblock signal : Bool) :
    Effect net e ((streamWriteTurn c half data rights nonblock signal).leave net) := by
  rw [leave_of_run (streamWriteTurn_run c half data rights nonblock signal)]
  dsimp only
  split
  · exact .none e
  · split
    · exact ofChannel he c half id id
    · exact .none e

lemma ofSendToMsg (s : Nat) (data : List UInt8) (addr : UnixAddr)
    (rights : List F) : Effect net e ((sendToMsg s data addr rights).leave net) := by
  by_cases hself : net.registry.lookup addr.path = some s → (net.state s).sockType ≠ .dgram
  · rw [leave_of_run (sendToMsg_run hself)]
    split
    · exact .none e
    · split
      · exact .none e
      next htype =>
      exact .queue he (by simpa using htype) _
  · obtain ⟨hlookup, htype⟩ := Classical.not_imp.mp hself
    rw [leave, sendToMsg_self hlookup (not_not.mp htype)]
    exact .none e

lemma ofSendToPeer (s : Nat) (data : List UInt8) (rights : List F) :
    Effect net e ((sendToPeer s data rights).leave net) := by
  rw [leave_of_run (sendToPeer_run data rights)]
  split
  · exact .none e
  split
  · exact .none e
  next hrefused =>
  simp only [decide_not, Bool.or_eq_true, Bool.not_eq_true', decide_eq_false_iff_not,
    not_or, not_not] at hrefused
  exact .queue he hrefused.1 _

lemma ofDgramSend (s : Nat) (data : List UInt8) (rights : List F)
    (dest : Option UnixAddr) : Effect net e ((dgramSend s data rights dest).leave net) := by
  cases dest with
  | some addr => exact ofSendToMsg he s data addr rights
  | none =>
    rw [dgramSend, leave_bind_of_look (look_run s fun net => (net.state s).defaultPeer)]
    cases (net.state s).defaultPeer with
    | some addr => exact ofSendToMsg he s data addr rights
    | none => exact ofSendToPeer he s data rights

end

lemma ofSend (s : Nat) (data : List UInt8) (rights : List F) (dest : Option UnixAddr)
    (nonblock signal : Bool) :
    Effect net (.send s data rights dest nonblock signal)
      ((sendMsg s data rights dest nonblock signal).leave net) := by
  have htraffic : (Event.send s data rights dest nonblock signal).Traffic := trivial
  rw [sendMsg, leave_bind_of_look (look_run s fun net => (net.state s).sockType)]
  split
  · rw [leave_map]
    exact ofDgramSend htraffic s data rights dest
  rw [streamWrite]
  split
  · exact .none _
  · rw [leave_bind_of_look streamEnter_run]
    split
    · exact .none _
    · exact ofWriteTurn htraffic _ _ data rights nonblock signal

lemma ofRecv (s len : Nat) (nonblock signal : Bool) :
    Effect net (.recv s len nonblock signal) ((recvMsg s len nonblock signal).leave net) := by
  have htraffic : (Event.recv s len nonblock signal : Event F).Traffic := trivial
  rw [recvMsg, leave_bind_of_look (look_run s fun net => (net.state s).sockType)]
  split
  · next htype =>
    rw [leave_of_run (dgramRecvTurn_run len nonblock signal)]
    split
    · exact .queue htraffic htype _
    · exact .none _
  · rw [streamRecv, leave_bind_of_look streamEnter_run]
    split
    · exact .none _
    · exact ofRecvTurn htraffic _ _ len nonblock signal

lemma ofShutdown (s : Nat) (how : Int) :
    Effect net (.shutdown s how) ((shutdown s how).leave net) := by
  have htraffic : (Event.shutdown s how : Event F).Traffic := trivial
  rw [leave_of_run (shutdown_run how)]
  split
  · exact .none _
  next c hconn =>
  split
  · exact .none _
  unfold Net.shut
  split_ifs
  · exact .channels htraffic _ (Aged.shutRead net c _)
  · exact .channels htraffic _ (Aged.shutWrite net c _)
  · refine .channels htraffic ((net.shutRead c _).shutWrite c _).conn fun c' => ?_
    exact (Aged.shutRead net c _ c').trans (Aged.shutWrite _ c _ c')
  · exact .none _

/-- What a step of any party does. -/
lemma ofStep (h : Wired net) (e : Event F) : Effect net e (step net e) := by
  rw [step]
  split
  case isFalse => exact .none e
  case isTrue hhandle =>
  cases e with
  | socket sockType => rw [Event.leave]; exact .socket _
  | pair sockType =>
    cases sockType with
    | stream => rw [Event.leave]; exact .streamPair
    | dgram => rw [Event.leave]; exact .dgramPair
  | dup s => exact .dup (by simpa [Event.handle] using hhandle)
  | drop s =>
    have hpeer : ∀ p, (net.state s).dgramPeer = some p → p ≠ s ∧ Lock.state p ∉ [] :=
      fun p hp => ⟨(h.peer s p hp).1, not_mem_nil⟩
    rw [Event.leave, leave_of_run (drop_run not_mem_nil hpeer not_mem_nil fun _ _ => not_mem_nil)]
    have hopen : 0 < net.handleRefs s := by simpa [Event.handle] using hhandle
    split
    · next hlast => exact .close hlast
    · exact .drop (by omega)
  | bind s addr =>
    have hopen : 0 < net.handleRefs s := by simpa [Event.handle] using hhandle
    rw [Event.leave, leave_of_run (bind_run addr)]
    split_ifs with hempty htaken
    · exact .none _
    · exact .none _
    · exact .bind hopen (by simpa using hempty) (by simpa using htaken)
  | listen s =>
    have hopen : 0 < net.handleRefs s := by simpa [Event.handle] using hhandle
    rw [Event.leave, leave_of_run listen_run]
    split_ifs with htype hrole
    · exact .none _
    · exact .none _
    · exact .listen hopen (by simpa using htype) (by simpa using hrole)
  | connect s addr cred =>
    have hopen : 0 < net.handleRefs s := by simpa [Event.handle] using hhandle
    rw [Event.leave, leave_of_run (connect_run addr cred)]
    split
    · exact .none _
    next hrefusal =>
    split
    · exact .none _
    next listener hlookup =>
    split
    · exact .none _
    next hlisten =>
    obtain ⟨htype, hrole⟩ := connectRefusal_eq_none.mp hrefusal
    exact .connect hopen htype hrole hlookup (by simpa using hlisten)
  | accept s =>
    have hopen : 0 < net.handleRefs s := by simpa [Event.handle] using hhandle
    rw [Event.leave, leave_of_run (tryAcceptNew_run fun q hq => (h.pending s q hq).1)]
    split_ifs with htype hrole
    · exact .none _
    · exact .none _
    split
    · exact .none _
    · next hbacklog => exact .accept hopen (by simpa using hrole) hbacklog
  | send s data rights dest nonblock signal => exact ofSend s data rights dest nonblock signal
  | recv s len nonblock signal => exact ofRecv s len nonblock signal
  | sendTurn c half data rights nonblock signal =>
    have htraffic : (Event.sendTurn c half data rights nonblock signal).Traffic := trivial
    exact ofWriteTurn htraffic c half data rights nonblock signal
  | recvTurn c half len nonblock signal =>
    have htraffic : (Event.recvTurn c half len nonblock signal : Event F).Traffic := trivial
    exact ofRecvTurn htraffic c half len nonblock signal
  | shutdown s how => exact ofShutdown s how
  | poll s =>
    rw [Event.leave, leave_of_run (poll_run (fun p hp => (h.peer s p hp).1) (h.halves s))]
    exact .none _

end Effect

/-! ## Every step keeps the wiring -/

namespace Wired

variable {net : Net F}

lemma empty : Wired (Net.empty : Net F) where
  fresh _ _ := ⟨rfl, rfl⟩
  peer _ _ h := nomatch h
  halves _ _ h := nomatch h
  pending _ _ h := nomatch h

lemma fresh_backlog (h : Wired net) : (net.state net.states).backlog = [] := by
  rw [(h.fresh _ (Nat.le_refl _)).1]
  rfl

variable {s : Nat} {net' : Net F} {st : UnixState F}

section

variable (h : Wired net)
include h

lemma lt_of_open (hopen : 0 < net.handleRefs s) : s < net.states := by
  by_contra hge
  rw [(h.fresh s (Nat.le_of_not_lt hge)).2] at hopen
  exact absurd hopen (Nat.lt_irrefl 0)

lemma lt_of_role (hrole : (net.state s).role ≠ .unbound) :
    s < net.states := by
  by_contra hge
  rw [(h.fresh s (Nat.le_of_not_lt hge)).1] at hrole
  exact hrole rfl

lemma lt_of_conn {c : Nat} (hconn : (net.state s).conn = some c) :
    s < net.states := by
  by_contra hge
  rw [(h.fresh s (Nat.le_of_not_lt hge)).1] at hconn
  cases hconn

lemma lt_of_dgram (htype : (net.state s).sockType = .dgram) :
    s < net.states := by
  by_contra hge
  rw [(h.fresh s (Nat.le_of_not_lt hge)).1] at htype
  cases htype

lemma puts {refs : Nat} (hp : net.Puts s st refs net')
    (hpeer : ∀ p, st.dgramPeer = some p → (net.state s).dgramPeer = some p)
    (htype : (net.state s).sockType = .dgram → st.sockType = .dgram)
    (hhalves : ∀ c, st.conn = some c → st.readerHalf ≠ st.writerHalf)
    (hpending : ∀ q ∈ st.backlog, q.state ≠ s ∧ q.state < net'.states) : Wired net' where
  fresh s' hs' := by
    rw [hp.states] at hs'
    obtain ⟨rfl, -⟩ | ⟨-, hstate, hrefs⟩ := hp.cases s'
    · omega
    · rw [hstate, hrefs]
      exact h.fresh s' (by omega)
  peer s' p hpp := by
    have hold : (net.state s').dgramPeer = some p := by
      obtain ⟨rfl, hstate, -⟩ | ⟨-, hstate, -⟩ := hp.cases s'
      · exact hpeer p (hstate ▸ hpp)
      · exact hstate ▸ hpp
    obtain ⟨hne, hdgram⟩ := h.peer s' p hold
    refine ⟨hne, ?_⟩
    obtain ⟨rfl, hstate, -⟩ | ⟨-, hstate, -⟩ := hp.cases p
    · exact hstate ▸ htype hdgram
    · exact hstate ▸ hdgram
  halves s' c hc := by
    obtain ⟨rfl, hstate, -⟩ | ⟨-, hstate, -⟩ := hp.cases s'
    · rw [hstate] at hc ⊢
      exact hhalves c hc
    · rw [hstate] at hc ⊢
      exact h.halves s' c hc
  pending s' q hq := by
    obtain ⟨rfl, hstate, -⟩ | ⟨-, hstate, -⟩ := hp.cases s'
    · exact hpending q (hstate ▸ hq)
    · obtain ⟨hne, hlt⟩ := h.pending s' q (hstate ▸ hq)
      exact ⟨hne, Nat.lt_of_lt_of_le hlt hp.states_le⟩

lemma setState (hs : s < net.states)
    (htype : st.sockType = (net.state s).sockType) (hpeer : st.dgramPeer = (net.state s).dgramPeer)
    (hhalves : ∀ c, st.conn = some c → st.readerHalf ≠ st.writerHalf)
    (hpending : ∀ q ∈ st.backlog, q.state ≠ s ∧ q.state < net.states) :
    Wired (net.setState s st) :=
  h.puts (net.puts_setState hs st) (fun _ hp => hpeer ▸ hp) htype.trans hhalves hpending

lemma addState (refs : Nat) (hpeer : st.dgramPeer = none)
    (hhalves : ∀ c, st.conn = some c → st.readerHalf ≠ st.writerHalf)
    (hbacklog : st.backlog = []) : Wired (net.addState st refs) := by
  refine h.puts (net.puts_addState st refs) (fun p hp => ?_) (fun hdgram => ?_) hhalves
    fun q hq => ?_
  · rw [hpeer] at hp
    cases hp
  · exact absurd (h.lt_of_dgram hdgram) (Nat.lt_irrefl _)
  · rw [hbacklog] at hq
    cases hq

lemma setHandles (hs : s < net.states) (refs : Nat) : Wired (net.setHandles s refs) :=
  h.puts (net.puts_setHandles hs refs) (fun _ => id) id (h.halves s) (h.pending s)

lemma dropHandle (s : Nat) :
    Wired (net.setHandles s (net.handleRefs s - 1)) where
  fresh s' hs' := by
    obtain ⟨hstate, hrefs⟩ := h.fresh s' hs'
    refine ⟨hstate, ?_⟩
    by_cases hne : s' = s
    · subst hne
      simp [Net.setHandles, hrefs]
    · simpa [Net.setHandles, hne] using hrefs
  peer := h.peer
  halves := h.halves
  pending := h.pending

lemma congr (hstates : net'.states = net.states)
    (hstate : net'.state = net.state) (hhandles : net'.handleRefs = net.handleRefs) :
    Wired net' where
  fresh s hs := by
    rw [hstate, hhandles]
    exact h.fresh s (hstates ▸ hs)
  peer s p hp := by
    rw [hstate] at hp ⊢
    exact h.peer s p hp
  halves s c hc := by
    rw [hstate] at hc ⊢
    exact h.halves s c hc
  pending s q hq := by
    rw [hstate] at hq
    rw [hstates]
    exact h.pending s q hq

lemma closed (hs : s < net.states) : Wired (net.closed s) := by
  have hdetached : Wired (net.setState s (net.state s).detached) :=
    h.setState hs rfl rfl nofun (h.pending s)
  exact hdetached.congr (net.closed_states s) (net.closed_state s) (net.closed_handleRefs s)

lemma bound (hs : s < net.states) (addr : UnixAddr) :
    Wired (net.bound s addr) := by
  have hset : Wired (net.setState s
      { net.state s with role := .bound, boundAddr := some addr, ownsBinding := true }) :=
    h.setState hs rfl rfl (h.halves s) (h.pending s)
  exact hset.congr rfl rfl rfl

lemma addConn : Wired net.addConn := h.congr rfl rfl rfl

lemma streamEnd (c : Nat) : Wired (net.addState (.ofConn c 1 0) 1) :=
  h.addState 1 rfl (fun _ _ => Fin.zero_ne_one.symm) rfl

lemma streamPair : Wired net.streamPair :=
  (h.addConn.streamEnd net.conns).addState 1 rfl (fun _ _ => Fin.zero_ne_one) rfl

lemma queued {listener : Nat} (hlistener : listener < net.states)
    (cred : PeerCredentials) : Wired (net.queued listener cred) := by
  have hmade : Wired (net.addConn.addState (.ofConn net.conns 0 1) 0) :=
    h.addConn.addState 0 rfl (fun _ _ => Fin.zero_ne_one) rfl
  refine hmade.setState (Nat.lt_succ_of_lt hlistener) rfl rfl (hmade.halves listener) ?_
  intro q hq
  obtain hq | hq := mem_append.mp hq
  · exact hmade.pending listener q hq
  · obtain rfl := mem_singleton.mp hq
    exact ⟨Nat.ne_of_gt hlistener, Nat.lt_succ_self _⟩

lemma attached (hs : s < net.states) (c : Nat) (addr : UnixAddr) :
    Wired (net.attached s c addr) :=
  h.setState hs rfl rfl (fun _ _ => Fin.zero_ne_one.symm) (h.pending s)

lemma accepted {pending : PendingAccept} {rest : List PendingAccept}
    (hs : s < net.states) (hbacklog : (net.state s).backlog = pending :: rest) :
    Wired (net.accepted s pending rest) := by
  have htaken : Wired (net.setState s { net.state s with backlog := rest }) := by
    refine h.setState hs rfl rfl (h.halves s) ?_
    intro q hq
    exact h.pending s q (hbacklog ▸ mem_cons_of_mem _ hq)
  have hpending : pending.state < net.states := (h.pending s pending (hbacklog ▸ mem_cons_self)).2
  have hnamed : Wired ((net.setState s { net.state s with backlog := rest }).setState
      pending.state
      { (net.setState s { net.state s with backlog := rest }).state pending.state with
        boundAddr := (net.state s).boundAddr }) :=
    htaken.setState hpending rfl rfl (htaken.halves _) (htaken.pending _)
  exact hnamed.setHandles hpending 1

lemma dgramPair : Wired net.dgramPair where
  fresh s hs := by
    have hs' : net.states + 1 + 1 ≤ s := hs
    rw [net.dgramPair_state, net.dgramPair_handleRefs, if_neg (by omega), if_neg (by omega),
      if_neg (by omega), if_neg (by omega)]
    exact h.fresh s (by omega)
  peer s p hp := by
    rw [net.dgramPair_state] at hp
    rw [net.dgramPair_state]
    split at hp
    · next hs =>
      obtain rfl := Option.some.inj hp
      rw [if_neg (Nat.ne_of_lt (Nat.lt_succ_self _)), if_pos rfl]
      exact ⟨by omega, rfl⟩
    split at hp
    · next hs =>
      obtain rfl := Option.some.inj hp
      rw [if_pos rfl]
      exact ⟨by omega, rfl⟩
    · obtain ⟨hne, hdgram⟩ := h.peer s p hp
      have hlt := h.lt_of_dgram hdgram
      rw [if_neg (by omega), if_neg (by omega)]
      exact ⟨hne, hdgram⟩
  halves s c hc := by
    rw [net.dgramPair_state] at hc ⊢
    split at hc
    · cases hc
    split at hc
    · cases hc
    · next hright hleft =>
      rw [if_neg hright, if_neg hleft]
      exact h.halves s c hc
  pending s q hq := by
    rw [net.dgramPair_state] at hq
    split at hq
    · cases hq
    split at hq
    · cases hq
    · obtain ⟨hne, hlt⟩ := h.pending s q hq
      exact ⟨hne, Nat.lt_succ_of_lt (Nat.lt_succ_of_lt hlt)⟩

lemma of_effect {e : Event F} (he : Effect net e net') :
    Wired net' := by
  cases he with
  | none => exact h
  | socket sockType => exact h.addState 1 rfl nofun rfl
  | streamPair => exact h.streamPair
  | dgramPair => exact h.dgramPair
  | dup hopen => exact h.setHandles (h.lt_of_open hopen) _
  | drop hopen => exact h.dropHandle _
  | @close s hlast =>
    have hs : s < net.states := h.lt_of_open (by omega)
    exact (h.setHandles hs 0).closed hs
  | bind hopen hname hfree => exact h.bound (h.lt_of_open hopen) _
  | listen hopen htype hrole =>
    exact h.setState (h.lt_of_open hopen) rfl rfl (h.halves _) (h.pending _)
  | @connect s listener addr cred hopen htype hrole hlookup hlisten =>
    have hlistener : listener < net.states := h.lt_of_role (by simp [hlisten])
    have hs : s < net.states := h.lt_of_open hopen
    exact (h.queued hlistener cred).attached (Nat.lt_succ_of_lt hs) _ addr
  | accept hopen hrole hbacklog => exact h.accepted (h.lt_of_open hopen) hbacklog
  | queue he htype messages =>
    exact h.setState (h.lt_of_dgram htype) rfl rfl (h.halves _) (h.pending _)
  | channels he conn haged => exact h.congr rfl rfl rfl

lemma step (e : Event F) : Wired (step net e) := h.of_effect (.ofStep h e)

lemma run (events : List (Event F)) : Wired (run net events) :=
  List.foldlRecOn events Unix.step h fun _ h e _ => h.step e

end

end Wired

end Twilight.Unix

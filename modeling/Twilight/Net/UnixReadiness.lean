/-
Readiness and those who poll. A process that found nothing ready sleeps on the poll queue until
somebody wakes it, so that an operation which makes a socket ready has to wake the queue after it has
done so. What `poll` reports is a function of the socket, its datagram peer and its connection; each
operation is compared with that function.
-/
import Twilight.Net.UnixShape

namespace Twilight.Unix

open Locked Function UnixPollState Option

variable {F : Type}

inductive Flag where
  | readable
  | writable
  | hangup
  | error
deriving DecidableEq

def UnixPollState.flag (ps : UnixPollState) : Flag → Bool
  | .readable => ps.readable
  | .writable => ps.writable
  | .hangup => ps.hangup
  | .error => ps.error

/-- An operation that can change what is ready; `close` is the end of the last handle, and a turn
is the next one of a call that has waited. -/
inductive Deed (F : Type) where
  | connect (s : Nat) (addr : UnixAddr) (cred : PeerCredentials)
  | send (s : Nat) (data : List UInt8) (rights : List F) (dest : Option UnixAddr)
    (nonblock signal : Bool)
  | recv (s len : Nat) (nonblock signal : Bool)
  | sendTurn (c : Nat) (half : Fin 2) (data : List UInt8) (rights : List F)
    (nonblock signal : Bool)
  | recvTurn (c : Nat) (half : Fin 2) (len : Nat) (nonblock signal : Bool)
  | shutdown (s : Nat) (how : Int)
  | close (s : Nat)

namespace Deed

def Enabled (net : Net F) : Deed F → Prop
  | .connect s _ _ | .send s _ _ _ _ _ | .recv s _ _ _ | .shutdown s _ => 0 < net.handleRefs s
  | .sendTurn .. | .recvTurn .. => True
  | .close s => net.handleRefs s = 1

instance (net : Net F) : DecidablePred (Enabled net)
  | .connect s .. | .send s .. | .recv s .. | .shutdown s _ =>
    inferInstanceAs (Decidable (0 < net.handleRefs s))
  | .sendTurn .. | .recvTurn .. => inferInstanceAs (Decidable True)
  | .close s => inferInstanceAs (Decidable (net.handleRefs s = 1))

/-- The state the operation leaves and the states in which it woke the poll queue. -/
def run (net : Net F) : Deed F → Option (Net F × List (Net F))
  | .connect s addr cred =>
    ((Unix.connect s addr cred []).run [] net).map fun o => (o.state, o.woken)
  | .send s data rights dest nonblock signal =>
    ((sendMsg s data rights dest nonblock signal).run [] net).map fun o => (o.state, o.woken)
  | .recv s len nonblock signal =>
    ((recvMsg s len nonblock signal).run [] net).map fun o => (o.state, o.woken)
  | .sendTurn c half data rights nonblock signal =>
    ((streamWriteTurn c half data rights nonblock signal).run [] net).map
      fun o => (o.state, o.woken)
  | .recvTurn c half len nonblock signal =>
    ((streamRecvTurn c half len nonblock signal).run [] net).map fun o => (o.state, o.woken)
  | .shutdown s how => ((Unix.shutdown s how).run [] net).map fun o => (o.state, o.woken)
  | .close s => ((Unix.drop s).run [] net).map fun o => (o.state, o.woken)

end Deed

/-- Whatever becomes ready on an open socket is so when the queue is woken for the last time. -/
def Noticed (net net' : Net F) (woken : List (Net F)) : Prop :=
  ∀ e flag, 0 < net'.handleRefs e → (net.pollState e).flag flag = false →
    (net'.pollState e).flag flag = true →
    ∃ last, woken.getLast? = some last ∧ (last.pollState e).flag flag = true

namespace Deed

def Told (net : Net F) (deed : Deed F) : Prop :=
  ∀ net' woken, deed.run net = some (net', woken) → Noticed net net' woken

/-- When that is so: a connection that goes through makes nothing ready, as the listener has
others in its backlog and the socket could be written already; the read side of a connected socket
is shut alone only if it is closed already; and the last handle of a datagram socket goes after its
peer. -/
def Heard (net : Net F) : Deed F → Prop
  | .connect s addr _ => ∀ listener, connectRefusal (net.state s) = none →
    net.registry.lookup addr.path = some listener → (net.state listener).role = .listening →
    (net.state listener).backlog ≠ [] ∧ (net.pollState s).writable = true
  | .shutdown s how => ∀ c, how = shutRd → (net.state s).sockType = .stream →
    (net.state s).role ≠ .listening → (net.state s).conn = some c →
    ((net.conn c).channels (net.state s).readerHalf).readClosed = true
  | .close s => ∀ p, (net.state s).dgramPeer = some p → net.handleRefs p = 0
  | _ => True

end Deed

/-! ## What `poll` depends on -/

variable {net net' : Net F}

variable {s c : Nat} {nonblock signal : Bool} {data : List UInt8} {rights : List F}
  {addr : UnixAddr} {o : Outcome (Net F) (Except Errno Nat)}

/-- A datagram peer without a handle is closed, whether or not its state is still there. -/
lemma Shaped.upgrade_any (h : Shaped net) :
    ((net.upgrade (net.state s).dgramPeer).any fun p => !(net.state p).isClosed) =
      (net.state s).dgramPeer.any fun p => !(net.state p).isClosed := by
  cases hpeer : (net.state s).dgramPeer with
  | none => rfl
  | some p =>
    by_cases hrefs : net.handleRefs p = 0
    · have hrole := (h.sane p).gone (h.wired.peer s p hpeer).2 hrefs
      have hclosed : (net.state p).isClosed = true := by simp [UnixState.isClosed, hrole]
      by_cases hreg : (net.registry.entries.any fun e => e.2 == p) = true
      · simp [Net.upgrade, hreg]
      · simp [Net.upgrade, hclosed]
    · simp [Net.upgrade, Nat.pos_of_ne_zero hrefs]

lemma pollState_congr (h : Shaped net) (h' : Shaped net') {e : Nat}
    (hstate : net'.state e = net.state e)
    (hpeer : ∀ p, (net.state e).dgramPeer = some p →
      (net'.state p).isClosed = (net.state p).isClosed)
    (hconn : ∀ c, (net.state e).conn = some c → net'.conn c = net.conn c) :
    net'.pollState e = net.pollState e := by
  have halive : ((net'.upgrade (net'.state e).dgramPeer).any fun p => !(net'.state p).isClosed) =
      (net.upgrade (net.state e).dgramPeer).any fun p => !(net.state p).isClosed := by
    rw [h.upgrade_any, h'.upgrade_any, hstate]
    cases hp : (net.state e).dgramPeer with
    | none => rfl
    | some p => simp [hpeer p hp]
  simp only [Net.pollState]
  rw [halive, hstate]
  cases hc : (net.state e).conn with
  | none => rfl
  | some c =>
    dsimp only
    rw [hconn c hc]

lemma pollState_dgram (h : Shaped net) (htype : (net.state s).sockType = .dgram) :
    net.pollState s =
      ⟨!(net.state s).dgramQueue.isEmpty,
        (net.state s).role ≠ .unbound || (net.state s).dgramPeer.isNone,
        (net.state s).role = .unbound || ((net.state s).dgramPeer.isSome &&
          !(net.state s).dgramPeer.any fun p => !(net.state p).isClosed), false⟩ := by
  simp only [Net.pollState, htype, if_pos, h.upgrade_any]

lemma pollState_stream (htype : (net.state s).sockType = .stream)
    (hrole : (net.state s).role ≠ .listening) (hconn : (net.state s).conn = some c) :
    net.pollState s =
      ⟨((net.conn c).channels (net.state s).readerHalf).readable,
        ((net.conn c).channels (net.state s).writerHalf).writable,
        ((net.conn c).channels (net.state s).readerHalf).hangup,
        ((net.conn c).channels (net.state s).writerHalf).error⟩ := by
  simp [Net.pollState, htype, hrole, hconn]

lemma pollState_listening (htype : (net.state s).sockType = .stream)
    (hrole : (net.state s).role = .listening) :
    net.pollState s = ⟨!(net.state s).backlog.isEmpty, false, false, false⟩ := by
  simp [Net.pollState, htype, hrole]

namespace Noticed

lemma of_last {woken : List (Net F)} (h : woken.getLast? = some net') : Noticed net net' woken :=
  fun _ _ _ _ hafter => ⟨net', h, hafter⟩

lemma refl (net : Net F) : Noticed net net [] := by
  intro e flag _ hbefore hafter
  rw [hbefore] at hafter
  cases hafter

lemma nil_iff : Noticed net net' [] ↔
    ∀ e flag, 0 < net'.handleRefs e → (net'.pollState e).flag flag = true →
      (net.pollState e).flag flag = true := by
  constructor
  · intro h e flag hopen hafter
    by_contra hbefore
    obtain ⟨last, hlast, -⟩ := h e flag hopen (by simpa using hbefore) hafter
    cases hlast
  · intro h e flag hopen hbefore hafter
    rw [h e flag hopen hafter] at hbefore
    cases hbefore

end Noticed

/-! ## Sending and receiving -/

lemma noticed_of_plain {α : Type} {o : Outcome (Net F) α}
    (h : (o.state = net ∧ o.woken = []) ∨ o.woken = [o.state]) :
    Noticed net o.state o.woken := by
  obtain ⟨hstate, hwoken⟩ | hwoken := h
  · rw [hstate, hwoken]
    exact .refl net
  · rw [hwoken]
    exact .of_last rfl

lemma streamRecvTurn_plain {half : Fin 2} {len : Nat}
    {o : Outcome (Net F) (Option (Except Errno (UnixMessage F)))}
    (h : (streamRecvTurn c half len nonblock signal).run [] net = some o) :
    (o.state = net ∧ o.woken = []) ∨ o.woken = [o.state] := by
  rw [streamRecvTurn_run] at h
  obtain rfl := some.inj h
  dsimp only
  split
  · exact Or.inl ⟨rfl, rfl⟩
  · exact Or.inr rfl

lemma streamWriteTurn_plain {half : Fin 2} {o : Outcome (Net F) (Option (Except Errno Nat))}
    (h : (streamWriteTurn c half data rights nonblock signal).run [] net = some o) :
    (o.state = net ∧ o.woken = []) ∨ o.woken = [o.state] := by
  rw [streamWriteTurn_run] at h
  obtain rfl := some.inj h
  dsimp only
  split
  · exact Or.inl ⟨rfl, rfl⟩
  split
  · exact Or.inr rfl
  · exact Or.inl ⟨rfl, rfl⟩

lemma sendToMsg_plain (h : (sendToMsg s data addr rights).run [] net = some o) :
    (o.state = net ∧ o.woken = []) ∨ o.woken = [o.state] := by
  have hself : net.registry.lookup addr.path = some s → (net.state s).sockType ≠ .dgram := by
    intro hlookup htype
    rw [sendToMsg_self hlookup htype] at h
    cases h
  rw [sendToMsg_run hself] at h
  obtain rfl := some.inj h
  split
  · exact Or.inl ⟨rfl, rfl⟩
  split
  · exact Or.inl ⟨rfl, rfl⟩
  · exact Or.inr rfl

lemma sendToPeer_plain (h : (sendToPeer s data rights).run [] net = some o) :
    (o.state = net ∧ o.woken = []) ∨ o.woken = [o.state] := by
  rw [sendToPeer_run] at h
  obtain rfl := some.inj h
  split
  · exact Or.inl ⟨rfl, rfl⟩
  split
  · exact Or.inl ⟨rfl, rfl⟩
  · exact Or.inr rfl

lemma dgramSend_plain {dest : Option UnixAddr}
    (h : (dgramSend s data rights dest).run [] net = some o) :
    (o.state = net ∧ o.woken = []) ∨ o.woken = [o.state] := by
  cases dest with
  | some addr => exact sendToMsg_plain h
  | none =>
    rw [dgramSend, bind_of_look (look_run s fun net => (net.state s).defaultPeer)] at h
    cases hdest : (net.state s).defaultPeer with
    | some addr =>
      rw [hdest] at h
      exact sendToMsg_plain h
    | none =>
      rw [hdest] at h
      exact sendToPeer_plain h

lemma sendMsg_plain {dest : Option UnixAddr} {o : Outcome (Net F) (Option (Except Errno Nat))}
    (h : (sendMsg s data rights dest nonblock signal).run [] net = some o) :
    (o.state = net ∧ o.woken = []) ∨ o.woken = [o.state] := by
  rw [sendMsg, bind_of_look (look_run s fun net => (net.state s).sockType)] at h
  split at h
  · rw [Locked.bind_run] at h
    cases hsend : (dgramSend s data rights dest).run [] net with
    | none =>
      rw [hsend] at h
      cases h
    | some o' =>
      rw [hsend] at h
      obtain rfl := some.inj h
      have hplain := dgramSend_plain hsend
      simpa using hplain
  · rw [streamWrite] at h
    split at h
    · obtain rfl := some.inj h
      exact Or.inl ⟨rfl, rfl⟩
    · rw [bind_of_look streamEnter_run] at h
      split at h
      · obtain rfl := some.inj h
        exact Or.inl ⟨rfl, rfl⟩
      · exact streamWriteTurn_plain h

section

variable (h : Shaped net)
include h

lemma noticed_taken {msg : DgramMessage F}
    {rest : List (DgramMessage F)} (htype : (net.state s).sockType = .dgram)
    (hqueue : (net.state s).dgramQueue = msg :: rest)
    (h' : Shaped (net.setState s { net.state s with dgramQueue := rest })) :
    Noticed net (net.setState s { net.state s with dgramQueue := rest }) [] := by
  refine Noticed.nil_iff.mpr fun e flag hopen hafter => ?_
  have hclosed : ∀ p, ((net.setState s { net.state s with dgramQueue := rest }).state p).isClosed =
      (net.state p).isClosed := by
    intro p
    rw [net.setState_state]
    split
    · next hp => rw [hp]; rfl
    · rfl
  by_cases he : e = s
  · subst he
    have htype' : ((net.setState e { net.state e with dgramQueue := rest }).state e).sockType =
        .dgram := by
      rwa [net.setState_state, if_pos rfl]
    rw [pollState_dgram h htype, hqueue]
    rw [pollState_dgram h' htype'] at hafter
    simp only [hclosed] at hafter
    rw [net.setState_state, if_pos rfl] at hafter
    cases flag with
    | readable => rfl
    | writable => exact hafter
    | hangup => exact hafter
    | error => exact hafter
  · rwa [pollState_congr h h' (by rw [net.setState_state, if_neg he]) (fun p _ => hclosed p)
      (fun c _ => rfl)] at hafter

lemma recvMsg_noticed {len : Nat} {o : Outcome (Net F) (Option (Except Errno (UnixMessage F)))}
    (hrun : (recvMsg s len nonblock signal).run [] net = some o) :
    Noticed net o.state o.woken := by
  rw [recvMsg, bind_of_look (look_run s fun net => (net.state s).sockType)] at hrun
  split at hrun
  · next htype =>
    rw [dgramRecvTurn_run] at hrun
    obtain rfl := some.inj hrun
    split
    · next msg rest hqueue =>
      have he : (Event.recv s len nonblock signal : Event F).Traffic := trivial
      exact noticed_taken h htype hqueue (h.of_effect (.queue he htype rest))
    · exact .refl net
  · rw [streamRecv, bind_of_look streamEnter_run] at hrun
    split at hrun
    · obtain rfl := some.inj hrun
      exact .refl net
    · exact noticed_of_plain (streamRecvTurn_plain hrun)

/-! ## Connecting -/

lemma connected_pollState {listener : Nat}
    {cred : PeerCredentials} (htype : (net.state s).sockType = .stream)
    (hlisten : (net.state listener).role = .listening) (hne : listener ≠ s)
    (h' : Shaped ((net.queued listener cred).attached s net.conns addr)) (e : Nat)
    (he : e ≠ net.states) : ((net.queued listener cred).attached s net.conns addr).pollState e =
      if e = s then ⟨false, true, false, false⟩
      else if e = listener then ⟨true, false, false, false⟩
      else net.pollState e := by
  have hl : listener ≠ net.states := Nat.ne_of_lt (h.wired.lt_of_role (by simp [hlisten]))
  by_cases hes : e = s
  · subst hes
    rw [pollState_stream (c := net.conns)]
    · simp [Net.attached, Net.setState, UnixConnection.new, Channel.new, Channel.readable,
        Channel.writable, Channel.hangup, Channel.error, channelCapacity]
    · rw [Net.attached, Net.setState_state, if_pos rfl, net.queued_state hl, if_neg hne.symm,
        if_neg he]
      exact htype
    · simp [Net.attached, Net.setState]
    · simp [Net.attached, Net.setState]
  rw [if_neg hes]
  by_cases hel : e = listener
  · subst hel
    have hstream := (h.sane e).listens hlisten
    rw [pollState_listening]
    · rw [Net.attached_state_of_ne _ hes, net.queued_state hl]
      simp
    · rw [Net.attached_state_of_ne _ hes, net.queued_state hl, if_pos rfl]
      exact hstream
    · rw [Net.attached_state_of_ne _ hes, net.queued_state hl, if_pos rfl]
      exact hlisten
  rw [if_neg hel]
  refine pollState_congr h h' ?_ (fun p hp => ?_) fun c hc => ?_
  · rw [Net.attached_state_of_ne _ hes, net.queued_state hl, if_neg hel, if_neg he]
  · -- a datagram peer is neither of the two stream sockets
    have hdgram := (h.wired.peer e p hp).2
    have hps : p ≠ s := by
      rintro rfl
      rw [htype] at hdgram
      cases hdgram
    have hpl : p ≠ listener := by
      rintro rfl
      rw [(h.sane p).listens hlisten] at hdgram
      cases hdgram
    have hpnew : p ≠ net.states := Nat.ne_of_lt (h.wired.lt_of_dgram hdgram)
    rw [Net.attached_state_of_ne _ hps, net.queued_state hl, if_neg hpl, if_neg hpnew]
  · exact update_of_ne (Nat.ne_of_lt (h.made e c hc)) _ _

lemma connect_noticed_iff {listener : Nat} {cred : PeerCredentials} (hopen : 0 < net.handleRefs s)
    (hrefusal : connectRefusal (net.state s) = none)
    (hlookup : net.registry.lookup addr.path = some listener)
    (hlisten : (net.state listener).role = .listening) :
    Noticed net ((net.queued listener cred).attached s net.conns addr) [] ↔
      (net.state listener).backlog ≠ [] ∧ (net.pollState s).writable = true := by
  obtain ⟨htype, hrole⟩ := connectRefusal_eq_none.mp hrefusal
  have hne : listener ≠ s := by
    rintro rfl
    rw [hlisten] at hrole
    simp at hrole
  have he : Effect net (.connect s addr cred) _ := .connect hopen htype hrole hlookup hlisten
  have h' := h.of_effect he
  have hpoll := connected_pollState h htype hlisten hne h'
  have hrefs : ∀ e, ((net.queued listener cred).attached s net.conns addr).handleRefs e =
      if e = net.states then 0 else net.handleRefs e :=
    fun e => update_apply _ _ _ _
  have hlopen := h.backlogged.listens listener hlisten
  have hsnew : s ≠ net.states := Nat.ne_of_lt (h.wired.lt_of_open hopen)
  have hlnew : listener ≠ net.states := Nat.ne_of_lt (h.wired.lt_of_open hlopen)
  have hbefore := pollState_listening ((h.sane listener).listens hlisten) hlisten
  rw [Noticed.nil_iff]
  constructor
  · intro htold
    constructor
    · have hready := htold listener .readable (by rwa [hrefs, if_neg hlnew])
        (by rw [hpoll listener hlnew, if_neg hne, if_pos rfl]; rfl)
      rw [hbefore] at hready
      simpa [flag] using hready
    · exact htold s .writable (by rwa [hrefs, if_neg hsnew])
        (by rw [hpoll s hsnew, if_pos rfl]; rfl)
  · rintro ⟨hbacklog, hwritable⟩ e flag heopen hafter
    have henew : e ≠ net.states := by
      rintro rfl
      rw [hrefs, if_pos rfl] at heopen
      exact absurd heopen (Nat.lt_irrefl 0)
    rw [hpoll e henew] at hafter
    split at hafter
    · next hes =>
      subst hes
      cases flag <;> first | exact hwritable | cases hafter
    split at hafter
    · next hel =>
      subst hel
      cases flag <;> first | simpa [hbefore, flag] using hbacklog | cases hafter
    · exact hafter

/-! ## Shutting down -/

lemma shutRead_pollState (htype : (net.state s).sockType = .stream)
    (hconn : (net.state s).conn = some c) (e : Nat) :
    (net.shutRead c (net.state s).readerHalf).pollState e =
      if e = s ∧ (net.state s).role ≠ .listening then { net.pollState s with hangup := true }
      else net.pollState e := by
  have he : (Event.shutdown s shutRd : Event F).Traffic := trivial
  have h' : Shaped (net.shutRead c (net.state s).readerHalf) :=
    h.of_effect (.channels he _ (Aged.shutRead net c _))
  by_cases hec : (net.state e).conn = some c
  · have hetype := (h.sane e).conn c hec
    by_cases herole : (net.state e).role = .listening
    · have hne : ¬ (e = s ∧ (net.state s).role ≠ .listening) := by
        rintro ⟨rfl, hrole⟩
        exact hrole herole
      have hafter : (net.shutRead c (net.state s).readerHalf).pollState e = _ :=
        pollState_listening hetype herole
      rw [if_neg hne, hafter, pollState_listening hetype herole]
      rfl
    · have hafter : (net.shutRead c (net.state s).readerHalf).pollState e = _ :=
        pollState_stream hetype herole hec
      have hsame : (net.shutRead c (net.state s).readerHalf).state = net.state := rfl
      rw [hafter, hsame, Net.shutRead_channel, Net.shutRead_channel]
      by_cases hes : e = s
      · subst hes
        have hhalves := h.wired.halves e c hconn
        rw [if_pos ⟨rfl, rfl⟩, if_neg (by simpa using hhalves.symm), if_pos ⟨rfl, herole⟩,
          pollState_stream hetype herole hec]
        rfl
      · -- the other end reads the other half, and its write side does not look at `readClosed`
        have hhalf : (net.state e).readerHalf ≠ (net.state s).readerHalf :=
          fun hhalf => hes (h.opposed e s c hec hconn hhalf)
        have hs : ¬ (e = s ∧ (net.state s).role ≠ .listening) := fun hs => hes hs.1
        rw [if_neg fun hr => hhalf hr.2, pollState_stream hetype herole hec]
        split
        · next hw =>
          rw [hw.2]
          rfl
        · rfl
  · have hne : ¬ (e = s ∧ (net.state s).role ≠ .listening) := by
      rintro ⟨rfl, -⟩
      exact hec hconn
    rw [if_neg hne]
    refine pollState_congr h h' rfl (fun _ _ => rfl) fun c' hc' => update_of_ne ?_ _ _
    rintro rfl
    exact hec hc'

lemma shutRead_noticed_iff (hopen : 0 < net.handleRefs s)
    (htype : (net.state s).sockType = .stream) (hconn : (net.state s).conn = some c) :
    Noticed net (net.shutRead c (net.state s).readerHalf) [] ↔
      ((net.state s).role ≠ .listening →
        ((net.conn c).channels (net.state s).readerHalf).readClosed = true) := by
  have hpoll := shutRead_pollState h htype hconn
  rw [Noticed.nil_iff]
  constructor
  · intro htold hrole
    have hhangup := htold s .hangup hopen (by rw [hpoll, if_pos ⟨rfl, hrole⟩]; rfl)
    rwa [pollState_stream htype hrole hconn] at hhangup
  intro hclosed e flag _ hafter
  rw [hpoll] at hafter
  split at hafter
  · next hes =>
    obtain ⟨rfl, hrole⟩ := hes
    cases flag with
    | readable => exact hafter
    | writable => exact hafter
    | hangup =>
      rw [pollState_stream htype hrole hconn]
      exact hclosed hrole
    | error => exact hafter
  · exact hafter

lemma shut_noticed_iff (hopen : 0 < net.handleRefs s)
    (htype : (net.state s).sockType = .stream) (hconn : (net.state s).conn = some c) (how : Int) :
    Noticed net (net.shut c (net.state s).readerHalf (net.state s).writerHalf how).1
        (net.shut c (net.state s).readerHalf (net.state s).writerHalf how).2 ↔
      (how = shutRd → (net.state s).role ≠ .listening →
        ((net.conn c).channels (net.state s).readerHalf).readClosed = true) := by
  unfold Net.shut
  split
  · next hrd => simpa [hrd] using shutRead_noticed_iff h hopen htype hconn
  next hrd =>
  refine ⟨fun _ h => absurd h hrd, fun _ => ?_⟩
  split
  · exact .of_last rfl
  split
  · exact .of_last rfl
  · exact .refl net

/-! ## Closing -/

lemma closed_noticed_iff (hlast : net.handleRefs s = 1) :
    Noticed net ((net.setHandles s 0).closed s) ((net.setHandles s 0).closeWoken s) ↔
      ∀ p, (net.state s).dgramPeer = some p → net.handleRefs p = 0 := by
  have he : Effect net (.drop s) _ := .close hlast
  have h' := h.of_effect he
  have hstate : ∀ e, ((net.setHandles s 0).closed s).state e =
      if e = s then (net.state s).detached else net.state e := by
    intro e
    rw [Net.closed_state, update_apply]
    rfl
  have hrefs : ∀ e, ((net.setHandles s 0).closed s).handleRefs e =
      if e = s then 0 else net.handleRefs e := by
    intro e
    rw [Net.closed_handleRefs, net.setHandles_handleRefs]
  cases hconn : (net.state s).conn with
  | some c =>
    have hconn' : ((net.setHandles s 0).state s).conn = some c := hconn
    refine ⟨fun _ p hp => ?_, fun _ => .of_last ?_⟩
    · have hstream := (h.sane s).conn c hconn
      rw [((h.sane s).peer p hp).1] at hstream
      cases hstream
    · simp [Net.closeWoken, Net.closed, hconn']
  | none =>
    have hconn' : ((net.setHandles s 0).state s).conn = none := hconn
    have hwoken : (net.setHandles s 0).closeWoken s = [] := by simp [Net.closeWoken, hconn']
    rw [hwoken, Noticed.nil_iff]
    constructor
    · intro htold p hp
      by_contra hrefsp
      have hopen : 0 < net.handleRefs p := Nat.pos_of_ne_zero hrefsp
      have hps := (h.wired.peer s p hp).1
      have hback := h.paired s p hp
      have hptype := ((h.sane p).peer s hback).1
      have hprole := ((h.sane p).peer s hback).2 hopen
      have hsrole := ((h.sane s).peer p hp).2 (by omega)
      have hpstate : ((net.setHandles s 0).closed s).state p = net.state p := by
        rw [hstate, if_neg hps]
      have hgone : (((net.setHandles s 0).closed s).state s).isClosed = true := by
        rw [hstate, if_pos rfl]
        rfl
      have hhangup := htold p .hangup (by rwa [hrefs, if_neg hps]) (by
        rw [pollState_dgram h' (by rwa [hpstate]), hpstate, hback]
        rw [flag, any_some, hgone]
        simp)
      rw [pollState_dgram h hptype, hback] at hhangup
      simp [flag, hprole, UnixState.isClosed, hsrole] at hhangup
    · intro hgone e flag hopen hafter
      have hes : e ≠ s := by
        rintro rfl
        rw [hrefs, if_pos rfl] at hopen
        exact absurd hopen (Nat.lt_irrefl 0)
      rw [hrefs, if_neg hes] at hopen
      rwa [pollState_congr h h' (by rw [hstate, if_neg hes]) (fun p hp => ?_) fun c _ => ?_]
        at hafter
      · -- a peer of the socket that goes has no handle
        have hpe : p ≠ s := by
          rintro rfl
          have := hgone e (h.paired e p hp)
          omega
        rw [hstate, if_neg hpe]
      · rw [Net.closed, hconn', Net.unnamed, Net.unregistered_conn]
        rfl

end

/-! ## Every operation -/

lemma Deed.told_iff {deed : Deed F} {net' : Net F} {woken : List (Net F)}
    (h : deed.run net = some (net', woken)) : deed.Told net ↔ Noticed net net' woken := by
  constructor
  · intro htold
    exact htold net' woken h
  · intro hnoticed net'' woken' hrun
    obtain ⟨rfl, rfl⟩ := Prod.mk.inj (some.inj (h.symm.trans hrun))
    exact hnoticed

lemma Deed.told_of_unchanged {deed : Deed F} (h : deed.run net = some (net, [])) :
    deed.Told net :=
  (Deed.told_iff h).mpr (.refl net)

lemma connect_told_iff (h : Shaped net) (hopen : 0 < net.handleRefs s)
    (addr : UnixAddr) (cred : PeerCredentials) :
    (Deed.connect s addr cred).Told net ↔ (Deed.connect s addr cred).Heard net := by
  have hconnect : (connect s addr cred []).run [] net = _ := connect_run addr cred
  by_cases hgoes : ∃ listener, connectRefusal (net.state s) = none ∧
      net.registry.lookup addr.path = some listener ∧ (net.state listener).role = .listening
  · obtain ⟨listener, hrefusal, hlookup, hlisten⟩ := hgoes
    have hrun : (Deed.connect s addr cred).run net =
        some ((net.queued listener cred).attached s net.conns addr, []) := by
      simp [Deed.run, hconnect, hrefusal, hlookup, hlisten]
    rw [Deed.told_iff hrun, connect_noticed_iff h hopen hrefusal hlookup hlisten]
    constructor
    · intro hready listener' _ hlookup' _
      obtain rfl := some.inj (hlookup.symm.trans hlookup')
      exact hready
    · intro hheard
      exact hheard listener hrefusal hlookup hlisten
  · have hrun : (Deed.connect s addr cred).run net = some (net, []) := by
      rw [Deed.run, hconnect]
      split
      · rfl
      next hrefusal =>
      split
      · rfl
      · next listener hlookup =>
        rw [if_pos fun hlisten => hgoes ⟨listener, hrefusal, hlookup, hlisten⟩]
        rfl
    refine ⟨fun _ listener hrefusal hlookup hlisten => ?_, fun _ => Deed.told_of_unchanged hrun⟩
    exact absurd ⟨listener, hrefusal, hlookup, hlisten⟩ hgoes

lemma shutdown_told_iff (h : Shaped net) (hopen : 0 < net.handleRefs s) (how : Int) :
    (Deed.shutdown s how).Told net ↔ (Deed.shutdown s how).Heard net := by
  have hshutdown : (shutdown s how).run [] net = _ := shutdown_run how
  cases hconn : (net.state s).conn with
  | none =>
    have hrun : (Deed.shutdown s how).run net = some (net, []) := by
      simp [Deed.run, hshutdown, hconn]
    refine ⟨fun _ c _ _ _ hc => ?_, fun _ => Deed.told_of_unchanged hrun⟩
    rw [hconn] at hc
    cases hc
  | some c =>
    have htype := (h.sane s).conn c hconn
    have hrun : (Deed.shutdown s how).run net =
        some ((net.shut c (net.state s).readerHalf (net.state s).writerHalf how).1,
          (net.shut c (net.state s).readerHalf (net.state s).writerHalf how).2) := by
      simp [Deed.run, hshutdown, hconn, htype]
    rw [Deed.told_iff hrun, shut_noticed_iff h hopen htype hconn]
    constructor
    · intro hclosed c' hrd _ hrole hc'
      obtain rfl := some.inj (hconn.symm.trans hc')
      exact hclosed hrd hrole
    · intro hheard hrd hrole
      exact hheard c hrd htype hrole hconn

lemma close_told_iff (h : Shaped net) (hlast : net.handleRefs s = 1) :
    (Deed.close s).Told net ↔ (Deed.close s).Heard net := by
  have hdrop : (drop s).run [] net = _ := drop_run List.not_mem_nil
    (fun p hp => ⟨(h.wired.peer s p hp).1, List.not_mem_nil⟩) List.not_mem_nil
    fun _ _ => List.not_mem_nil
  have hrun : (Deed.close s).run net =
      some ((net.setHandles s 0).closed s, (net.setHandles s 0).closeWoken s) := by
    simp [Deed.run, hdrop, hlast]
  rw [Deed.told_iff hrun]
  exact closed_noticed_iff h hlast

/-- From every state that the parties reach, an operation wakes those who poll for what it makes ready
exactly if `Heard` holds before it. -/
theorem told_iff_heard (events : List (Event F)) (deed : Deed F)
    (h : deed.Enabled (run Net.empty events)) :
    deed.Told (run Net.empty events) ↔ deed.Heard (run Net.empty events) := by
  have hshaped : Shaped (run (Net.empty : Net F) events) := Shaped.empty.run events
  cases deed with
  | connect s addr cred => exact connect_told_iff hshaped h addr cred
  | send s data rights dest nonblock signal =>
    refine ⟨fun _ => trivial, fun _ net' woken hrun => ?_⟩
    obtain ⟨o, ho, heq⟩ := map_eq_some_iff.mp hrun
    cases heq
    exact noticed_of_plain (sendMsg_plain ho)
  | recv s len nonblock signal =>
    refine ⟨fun _ => trivial, fun _ net' woken hrun => ?_⟩
    obtain ⟨o, ho, heq⟩ := map_eq_some_iff.mp hrun
    cases heq
    exact recvMsg_noticed hshaped ho
  | sendTurn c half data rights nonblock signal =>
    refine ⟨fun _ => trivial, fun _ net' woken hrun => ?_⟩
    obtain ⟨o, ho, heq⟩ := map_eq_some_iff.mp hrun
    cases heq
    exact noticed_of_plain (streamWriteTurn_plain ho)
  | recvTurn c half len nonblock signal =>
    refine ⟨fun _ => trivial, fun _ net' woken hrun => ?_⟩
    obtain ⟨o, ho, heq⟩ := map_eq_some_iff.mp hrun
    cases heq
    exact noticed_of_plain (streamRecvTurn_plain ho)
  | shutdown s how => exact shutdown_told_iff hshaped h how
  | close s => exact close_told_iff hshaped h

def caller : List (Event Nat) := [.socket .stream, .bind 0 ⟨"/srv"⟩, .listen 0, .socket .stream]

/-- Both ends of a pair are told when one of them shuts its write side. -/
theorem shutWr_told :
    (Deed.shutdown 0 shutWr).Enabled (run Net.empty [.pair .stream] : Net Nat) ∧
      (Deed.shutdown 0 shutWr).Told (run Net.empty [.pair .stream] : Net Nat) :=
  ⟨by decide, (told_iff_heard [.pair .stream] (.shutdown 0 shutWr) (by decide)).mpr
    fun _ hrd => absurd hrd (by decide)⟩

/-- Connecting makes the listener readable, and no one who polls it is woken. -/
theorem connect_not_told :
    (Deed.connect 1 ⟨"/srv"⟩ ⟨0, 0, 0⟩).Enabled (run Net.empty caller) ∧
      ((run Net.empty caller).pollState 0).readable = false ∧
      ((Deed.connect 1 ⟨"/srv"⟩ ⟨0, 0, 0⟩).run (run Net.empty caller)).map
        (fun end_ => ((end_.1.pollState 0).readable, end_.2.length)) = some (true, 0) ∧
      ¬ (Deed.connect 1 ⟨"/srv"⟩ ⟨0, 0, 0⟩).Told (run Net.empty caller) := by
  refine ⟨by decide, by decide, by decide, fun htold => ?_⟩
  have hheard := (connect_told_iff (Shaped.empty.run caller) (by decide) _ _).mp htold
  exact (hheard 0 (by decide) (by decide) (by decide)).1 (by decide)

end Twilight.Unix

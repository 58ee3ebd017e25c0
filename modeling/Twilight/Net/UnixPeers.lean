/-
The two ends of a stream connection. When the last handle of one end goes, `close` closes both
channels and the other end learns of it. An end that was never accepted has no handle, and it is lost
with the listener; a socket that is bound once more and connected again leaves its connection without
closing it.
-/
import Twilight.Lib.Machine
import Twilight.Net.UnixBacklog

namespace Twilight.Unix

open Locked

variable {F : Type}

def UnixConnection.Closed (conn : UnixConnection F) : Prop :=
  ∀ half, (conn.channels half).readClosed = true ∧ (conn.channels half).writeClosed = true

/-- `p` waits in the backlog of an open socket that listens. -/
def Net.Awaits (net : Net F) (p : Nat) : Prop :=
  ∃ listener, 0 < net.handleRefs listener ∧ (net.state listener).role = .listening ∧
    net.Queues listener p

/-- An end whose peer has no handle and will not be accepted has a closed connection. -/
def PeersTold (net : Net F) : Prop :=
  ∀ e c, (net.state e).role = .connected → (net.state e).conn = some c →
    (∀ p, p ≠ e → (net.state p).conn = some c → net.handleRefs p = 0 ∧ ¬ net.Awaits p) →
    (net.conn c).Closed

/-- A listener goes, or is bound once more, only when nothing waits in its backlog, and a socket
that has a connection does not connect again. -/
def KeepsPeers (net : Net F) : Event F → Prop
  | .drop s => net.handleRefs s = 1 → (net.state s).backlog = []
  | .bind s _ => (net.state s).backlog = []
  | .connect s _ _ => (net.state s).conn = none
  | _ => True

instance (net : Net F) (e : Event F) : Decidable (KeepsPeers net e) := by
  cases e <;> unfold KeepsPeers <;> infer_instance

/-! ## A closed connection -/

lemma hungUp_conn_of_ne {net : Net F} {c c' : Nat} (hc : c' ≠ c) (half : Fin 2) :
    (net.hungUp c half).conn c' = net.conn c' := by
  simp [Net.hungUp, Net.setChannel, hc]

lemma hungUp_closed {net : Net F} {c : Nat} {first second : Fin 2}
    (hcover : ∀ half, half = first ∨ half = second) :
    (((net.hungUp c first).hungUp c second).conn c).Closed := by
  intro half
  by_cases hsecond : half = second
  · subst hsecond
    simp [Net.hungUp, Net.setChannel, Channel.closeBoth]
  · obtain rfl : half = first := (hcover half).resolve_right hsecond
    simp [Net.hungUp, Net.setChannel, Channel.closeBoth, hsecond]

lemma closingHalves_cover {st : UnixState F} (h : st.readerHalf ≠ st.writerHalf)
    (refcount : UInt8) (half : Fin 2) :
    half = (st.closingHalves refcount).1 ∨ half = (st.closingHalves refcount).2 := by
  unfold UnixState.closingHalves
  split
  · show half = 0 ∨ half = 1
    omega
  · show half = st.writerHalf ∨ half = st.readerHalf
    omega

lemma closed_conn_self {net : Net F} {s c : Nat} (hconn : (net.state s).conn = some c)
    (hhalves : (net.state s).readerHalf ≠ (net.state s).writerHalf) :
    ((net.closed s).conn c).Closed := by
  simp only [Net.closed, hconn]
  exact hungUp_closed (closingHalves_cover hhalves _)

lemma closed_conn_of_ne {net : Net F} {s c : Nat} (hconn : (net.state s).conn ≠ some c) :
    (net.closed s).conn c = net.conn c := by
  unfold Net.closed
  split
  · next c' hc' =>
    have hne : c ≠ c' := by
      rintro rfl
      exact hconn hc'
    rw [hungUp_conn_of_ne hne, hungUp_conn_of_ne hne]
    simp [Net.releasedConn, hne, Net.unnamed, Net.setState]
  · simp [Net.unnamed, Net.setState]

/-! ## Both ends are there -/

/-- `p` holds the other end of connection `c`, or will once it is accepted. -/
structure Net.Holds (net : Net F) (p c : Nat) : Prop where
  conn : (net.state p).conn = some c
  live : 0 < net.handleRefs p ∨ net.Awaits p

/-- What every step keeps: a connection that is not closed has two ends. -/
structure Linked (net : Net F) : Prop where
  wired : Wired net
  backlogged : Backlogged net
  made : ∀ e c, (net.state e).conn = some c → c < net.conns
  linked : ∀ e c, (net.state e).conn = some c → ¬ (net.conn c).Closed → ∃ p, p ≠ e ∧ net.Holds p c

namespace Linked

variable {net net' : Net F}

lemma empty : Linked (Net.empty : Net F) where
  wired := .empty
  backlogged := .empty
  made _ _ h := nomatch h
  linked _ _ h := nomatch h

section

variable (h : Linked net)
include h

lemma peersTold : PeersTold net := by
  intro e c _ hconn hgone
  by_contra hopen
  obtain ⟨p, hne, hp, hlive⟩ := h.linked e c hconn hopen
  obtain ⟨hclosed, hqueued⟩ := hgone p hne hp
  obtain hlive | hlive := hlive
  · omega
  · exact hqueued hlive

lemma of_same (hwired : Wired net') (hbacklogged : Backlogged net')
    (hconns : net.conns ≤ net'.conns)
    (hold : ∀ e c, (net'.state e).conn = some c → (net.state e).conn = some c)
    (hclosed : ∀ c, (net.conn c).Closed → (net'.conn c).Closed)
    (hholds : ∀ p c, ¬ (net'.conn c).Closed → net.Holds p c → net'.Holds p c) : Linked net' where
  wired := hwired
  backlogged := hbacklogged
  made e c he := Nat.lt_of_lt_of_le (h.made e c (hold e c he)) hconns
  linked e c he hopen := by
    obtain ⟨p, hne, hp⟩ := h.linked e c (hold e c he) fun hc => hopen (hclosed c hc)
    exact ⟨p, hne, hholds p c hopen hp⟩

lemma puts {s refs : Nat} {st : UnixState F} (hputs : net.Puts s st refs net')
    (hwired : Wired net') (hbacklogged : Backlogged net') (hconns : net.conns ≤ net'.conns)
    (hold : ∀ c, st.conn = some c → (net.state s).conn = some c)
    (hclosed : ∀ c, (net.conn c).Closed → (net'.conn c).Closed)
    (hends : ∀ c, (net.state s).conn = some c → ¬ (net'.conn c).Closed →
      st.conn = some c ∧ (0 < net.handleRefs s → 0 < refs))
    (hwaits : (net.state s).backlog = [] ∨ (st.backlog = (net.state s).backlog ∧
      ((net.state s).role = .listening → st.role = .listening) ∧
        (0 < net.handleRefs s → 0 < refs))) : Linked net' := by
  refine h.of_same hwired hbacklogged hconns (fun e c he => ?_) hclosed
    fun p c hc hp => ⟨?_, hp.live.imp (fun hlive => ?_) ?_⟩
  · obtain ⟨rfl, hstate, -⟩ | ⟨-, hstate, -⟩ := hputs.cases e
    · exact hold c (hstate ▸ he)
    · exact hstate ▸ he
  · obtain ⟨rfl, hstate, -⟩ | ⟨-, hstate, -⟩ := hputs.cases p
    · rw [hstate]
      exact (hends c hp.conn hc).1
    · rw [hstate]
      exact hp.conn
  · obtain ⟨rfl, -, hrefs⟩ | ⟨-, -, hrefs⟩ := hputs.cases p
    · rw [hrefs]
      exact (hends c hp.conn hc).2 hlive
    · rwa [hrefs]
  · rintro ⟨listener, hopen, hlisten, hq⟩
    obtain ⟨rfl, hstate, hrefs⟩ | ⟨-, hstate, hrefs⟩ := hputs.cases listener
    · obtain hempty | ⟨hbacklog, hrole, hstays⟩ := hwaits
      · simp [Net.Queues, hempty] at hq
      · refine ⟨listener, hrefs ▸ hstays hopen, hstate ▸ hrole hlisten, ?_⟩
        rwa [Net.Queues, hstate, hbacklog]
    · refine ⟨listener, hrefs ▸ hopen, hstate ▸ hlisten, ?_⟩
      rwa [Net.Queues, hstate]

lemma setState {s refs : Nat} {st : UnixState F}
    (hputs : net.Puts s st refs net') (hwired : Wired net') (hbacklogged : Backlogged net')
    (hconns : net'.conns = net.conns) (hconn : net'.conn = net.conn)
    (hkept : st.conn = (net.state s).conn) (hrefs : 0 < net.handleRefs s → 0 < refs)
    (hwaits : (net.state s).backlog = [] ∨ (st.backlog = (net.state s).backlog ∧
      ((net.state s).role = .listening → st.role = .listening))) : Linked net' := by
  refine h.puts hputs hwired hbacklogged (Nat.le_of_eq hconns.symm) (fun c hc => hkept ▸ hc)
    (fun c hc => hconn ▸ hc) (fun c hc _ => ⟨hkept.trans hc, hrefs⟩) ?_
  exact hwaits.imp id fun hwaits => ⟨hwaits.1, hwaits.2, hrefs⟩

lemma closed {s : Nat} (hs : s < net.states) (hwired : Wired ((net.setHandles s 0).closed s))
    (hbacklogged : Backlogged ((net.setHandles s 0).closed s))
    (hbacklog : (net.state s).backlog = []) : Linked ((net.setHandles s 0).closed s) := by
  have hself : ∀ c, (net.state s).conn = some c → (((net.setHandles s 0).closed s).conn c).Closed :=
    fun c hc => @closed_conn_self F (net.setHandles s 0) s c hc (h.wired.halves s c hc)
  refine h.puts (net.puts_closed hs) hwired hbacklogged ?_ nofun (fun c hc => ?_)
    (fun c hc hopen => absurd (hself c hc) hopen) (Or.inl hbacklog)
  · exact Nat.le_of_eq (Net.closed_conns (net.setHandles s 0) s).symm
  · by_cases hconn : (net.state s).conn = some c
    · exact hself c hconn
    · rw [@closed_conn_of_ne F (net.setHandles s 0) s c hconn]
      exact hc

end

lemma Holds.grown {p c : Nat} (hp : net.Holds p c) (hwired : Wired net)
    (hconn : (net'.state p).conn = (net.state p).conn)
    (hstate : ∀ s, s < net.states →
      ((net.state s).role = .listening → (net'.state s).role = .listening) ∧
        (net.Queues s p → net'.Queues s p))
    (hrefs : ∀ s, s < net.states → 0 < net.handleRefs s → 0 < net'.handleRefs s) :
    net'.Holds p c := by
  refine ⟨hconn.trans hp.conn, ?_⟩
  obtain hlive | ⟨listener, hopen, hlisten, hq⟩ := hp.live
  · exact Or.inl (hrefs p (hwired.lt_of_conn hp.conn) hlive)
  · have hl := hwired.lt_of_open hopen
    exact Or.inr ⟨listener, hrefs listener hl hopen, (hstate listener hl).1 hlisten,
      (hstate listener hl).2 hq⟩

lemma Holds.of_old {p c : Nat} (hp : net.Holds p c) (hwired : Wired net)
    (hold : ∀ s, s < net.states → net'.state s = net.state s ∧ net'.handleRefs s = net.handleRefs s) :
    net'.Holds p c := by
  refine Holds.grown hp hwired ?_ (fun s hs => ?_) fun s hs hopen => ?_
  · rw [(hold p (hwired.lt_of_conn hp.conn)).1]
  · simp only [Net.Queues, (hold s hs).1]
    exact ⟨id, id⟩
  · rw [(hold s hs).2]
    exact hopen

lemma dgramPair (h : Linked net) (hbacklogged : Backlogged net.dgramPair) :
    Linked net.dgramPair := by
  refine h.of_same h.wired.dgramPair hbacklogged (Nat.le_refl _) (fun e c he => ?_)
    (fun _ hc => hc) fun p c _ hp => Holds.of_old hp h.wired fun _ => net.dgramPair_state_of_lt
  rw [net.dgramPair_state] at he
  split at he
  · cases he
  split at he
  · cases he
  · exact he

lemma streamPair (h : Linked net) (hbacklogged : Backlogged net.streamPair) :
    Linked net.streamPair where
  wired := h.wired.streamPair
  backlogged := hbacklogged
  made e c he := by
    rw [net.streamPair_state] at he
    show c < net.conns + 1
    split at he
    · cases he
      omega
    split at he
    · cases he
      omega
    · have := h.made e c he
      omega
  linked e c he hopen := by
    have hleft : net.streamPair.Holds net.states net.conns :=
      ⟨by simp [net.streamPair_state, UnixState.ofConn],
        Or.inl (by simp [net.streamPair_handleRefs])⟩
    have hright : net.streamPair.Holds (net.states + 1) net.conns :=
      ⟨by simp [net.streamPair_state, UnixState.ofConn],
        Or.inl (by simp [net.streamPair_handleRefs])⟩
    rw [net.streamPair_state] at he
    split at he
    · cases he
      exact ⟨net.states, by omega, hleft⟩
    split at he
    · cases he
      exact ⟨net.states + 1, by omega, hright⟩
    · have hc : c ≠ net.conns := Nat.ne_of_lt (h.made e c he)
      have hopen' : ¬ (net.conn c).Closed := by
        simpa [Net.streamPair, Net.addState, Net.addConn, hc] using hopen
      obtain ⟨p, hne, hp⟩ := h.linked e c he hopen'
      exact ⟨p, hne, Holds.of_old hp h.wired fun _ => net.streamPair_state_of_lt⟩

/-! ### Connecting -/

section Connecting

variable {s listener : Nat} (hlisten : (net.state listener).role = .listening)
  (addr : UnixAddr) (cred : PeerCredentials)

include hlisten

lemma connected_conn (hwired : Wired net) (e : Nat) :
    (((net.queued listener cred).attached s net.conns addr).state e).conn =
      if e = s ∨ e = net.states then some net.conns else (net.state e).conn := by
  have hl : listener ≠ net.states := Nat.ne_of_lt (hwired.lt_of_role (by simp [hlisten]))
  by_cases hes : e = s
  · simp [Net.attached, Net.setState, hes]
  rw [Net.attached_state_of_ne _ hes, net.queued_state hl]
  by_cases hel : e = listener
  · subst hel
    simp [hes, hl]
  · by_cases henew : e = net.states
    · simp [henew, hl.symm, UnixState.ofConn]
    · simp [hel, henew, hes]

lemma connected_role (hwired : Wired net) (hrole : (net.state s).role ≠ .listening) {e : Nat}
    (he : (net.state e).role = .listening) :
    (((net.queued listener cred).attached s net.conns addr).state e).role = .listening := by
  have hl : listener ≠ net.states := Nat.ne_of_lt (hwired.lt_of_role (by simp [hlisten]))
  have henew : e ≠ net.states := Nat.ne_of_lt (hwired.lt_of_role (by simp [he]))
  have hes : e ≠ s := by
    rintro rfl
    exact hrole he
  rw [Net.attached_state_of_ne _ hes, net.queued_state hl]
  split
  · exact he
  · exact he

lemma connected_queues (hwired : Wired net) (e p : Nat) :
    ((net.queued listener cred).attached s net.conns addr).Queues e p ↔
      net.Queues e p ∨ (e = listener ∧ p = net.states) := by
  have hl : listener < net.states := hwired.lt_of_role (by simp [hlisten])
  rw [← Backlogged.queued_queues hwired hl cred]
  by_cases hes : e = s
  · simp [Net.Queues, Net.attached, Net.setState, hes]
  · simp [Net.Queues, Net.attached, Net.setState, hes]

lemma connected (h : Linked net) (hopen : 0 < net.handleRefs s)
    (hrole : (net.state s).role ≠ .listening) (hfree : (net.state s).conn = none)
    (hwired : Wired ((net.queued listener cred).attached s net.conns addr))
    (hbacklogged : Backlogged ((net.queued listener cred).attached s net.conns addr)) :
    Linked ((net.queued listener cred).attached s net.conns addr) := by
  have hs : s ≠ net.states := Nat.ne_of_lt (h.wired.lt_of_open hopen)
  have hl : listener ≠ net.states := Nat.ne_of_lt (h.wired.lt_of_role (by simp [hlisten]))
  have hconn := @connected_conn F net s listener hlisten addr cred h.wired
  have hrefs : ∀ e, e ≠ net.states →
      ((net.queued listener cred).attached s net.conns addr).handleRefs e = net.handleRefs e :=
    fun e he => by simp [Net.attached, Net.setState, he]
  refine ⟨hwired, hbacklogged, fun e c he => ?_, fun e c he hclosed => ?_⟩
  · show c < net.conns + 1
    rw [hconn] at he
    split at he
    · cases he
      exact Nat.lt_succ_self _
    · exact Nat.lt_succ_of_lt (h.made e c he)
  by_cases hes : e = s
  · -- the peer of the socket is the new one in the backlog
    rw [hconn, if_pos (Or.inl hes)] at he
    cases he
    refine ⟨net.states, hes ▸ hs.symm, by rw [hconn, if_pos (Or.inr rfl)], Or.inr ?_⟩
    refine ⟨listener, ?_, connected_role hlisten addr cred h.wired hrole hlisten,
      (connected_queues hlisten addr cred h.wired listener _).mpr (Or.inr ⟨rfl, rfl⟩)⟩
    rw [hrefs listener hl]
    exact h.backlogged.listens listener hlisten
  by_cases henew : e = net.states
  · rw [hconn, if_pos (Or.inr henew)] at he
    cases he
    refine ⟨s, henew ▸ hs, by rw [hconn, if_pos (Or.inl rfl)], Or.inl ?_⟩
    rw [hrefs s hs]
    exact hopen
  rw [hconn, if_neg (by simp [hes, henew])] at he
  have hc : c ≠ net.conns := Nat.ne_of_lt (h.made e c he)
  have hclosed' : ¬ (net.conn c).Closed := by
    simpa [Net.attached, Net.setState, hc] using hclosed
  obtain ⟨p, hne, hp⟩ := h.linked e c he hclosed'
  have hps : p ≠ s := by
    rintro rfl
    have hpconn := hp.conn
    rw [hfree] at hpconn
    cases hpconn
  have hpnew : p ≠ net.states := Nat.ne_of_lt (h.wired.lt_of_conn hp.conn)
  refine ⟨p, hne, Holds.grown hp h.wired ?_ (fun q hq => ⟨?_, ?_⟩) fun q hq hqopen => ?_⟩
  · rw [hconn, if_neg (by simp [hps, hpnew])]
  · exact connected_role hlisten addr cred h.wired hrole
  · exact fun hqueued =>
      (connected_queues hlisten addr cred h.wired q p).mpr (Or.inl hqueued)
  · rw [hrefs q (Nat.ne_of_lt hq)]
    exact hqopen

end Connecting

lemma accepted (h : Linked net) {s : Nat} {pending : PendingAccept} {rest : List PendingAccept}
    (hbacklog : (net.state s).backlog = pending :: rest)
    (hwired : Wired (net.accepted s pending rest))
    (hbacklogged : Backlogged (net.accepted s pending rest)) :
    Linked (net.accepted s pending rest) := by
  have hself := (h.wired.pending s pending (hbacklog ▸ List.mem_cons_self)).1
  have hconn : ∀ e, ((net.accepted s pending rest).state e).conn = (net.state e).conn ∧
      ((net.accepted s pending rest).state e).role = (net.state e).role := by
    intro e
    rw [net.accepted_state hself]
    split
    · exact ⟨rfl, rfl⟩
    split
    · exact ⟨rfl, rfl⟩
    · exact ⟨rfl, rfl⟩
  have hrefs : ∀ e, 0 < net.handleRefs e → 0 < (net.accepted s pending rest).handleRefs e := by
    intro e he
    rw [net.accepted_handleRefs]
    by_cases hp : e = pending.state
    · simp [hp]
    · rwa [Function.update_of_ne hp]
  refine h.of_same hwired hbacklogged (Nat.le_refl _) (fun e c he => ?_) (fun _ hc => hc)
    fun p c _ hp => ⟨by rw [(hconn p).1]; exact hp.conn, ?_⟩
  · rw [← (hconn e).1]
    exact he
  by_cases hpp : p = pending.state
  · exact Or.inl (by simp [hpp])
  obtain hlive | ⟨l, hlopen, hlisten, hq⟩ := hp.live
  · exact Or.inl (hrefs p hlive)
  refine Or.inr ⟨l, hrefs l hlopen, by rw [(hconn l).2]; exact hlisten, ?_⟩
  rw [Net.Queues, Backlogged.accepted_backlog hself]
  split
  · next hls =>
    subst hls
    rw [Net.Queues, hbacklog, List.map_cons, List.mem_cons] at hq
    exact hq.resolve_left hpp
  · exact hq

lemma of_effect (h : Linked net) {e : Event F} (he : Effect net e net') (hok : KeepsPeers net e) :
    Linked net' := by
  have hwired := h.wired.of_effect he
  have hbacklogged := h.backlogged.of_effect h.wired he
  cases he with
  | none => exact h
  | socket sockType =>
    have hfresh := (h.wired.fresh net.states (Nat.le_refl _)).1
    refine h.setState (net.puts_addState _ _) hwired hbacklogged rfl rfl ?_
      (fun _ => Nat.one_pos) (Or.inl ?_)
    · rw [hfresh]
      rfl
    · rw [hfresh]
      rfl
  | streamPair => exact h.streamPair hbacklogged
  | dgramPair => exact h.dgramPair hbacklogged
  | dup hopen =>
    exact h.setState (net.puts_setHandles (h.wired.lt_of_open hopen) _) hwired hbacklogged rfl rfl
      rfl (fun _ => Nat.succ_pos _) (Or.inr ⟨rfl, id⟩)
  | drop hopen =>
    exact h.setState (net.puts_setHandles (h.wired.lt_of_open (by omega)) _) hwired hbacklogged rfl
      rfl rfl (fun _ => by omega) (Or.inr ⟨rfl, id⟩)
  | close hlast => exact h.closed (h.wired.lt_of_open (by omega)) hwired hbacklogged (hok hlast)
  | bind hopen hname hfree =>
    exact h.setState ((net.puts_setState (h.wired.lt_of_open hopen) _).congr rfl rfl rfl) hwired
      hbacklogged rfl rfl rfl id (Or.inl hok)
  | listen hopen htype hrole =>
    exact h.setState (net.puts_setState (h.wired.lt_of_open hopen) _) hwired hbacklogged rfl rfl rfl
      id (Or.inr ⟨rfl, fun _ => rfl⟩)
  | @connect s listener addr cred hopen htype hrole hlookup hlisten =>
    refine connected hlisten addr cred h hopen ?_ hok hwired hbacklogged
    obtain hrole | hrole := hrole
    · simp [hrole]
    · simp [hrole]
  | accept hopen hrole hbacklog => exact h.accepted hbacklog hwired hbacklogged
  | queue he htype messages =>
    exact h.setState (net.puts_setState (h.wired.lt_of_dgram htype) _) hwired hbacklogged rfl rfl rfl
      id (Or.inr ⟨rfl, id⟩)
  | channels he conn haged =>
    refine h.of_same hwired hbacklogged (Nat.le_refl _) (fun _ _ he => he) (fun c hc half => ?_)
      fun p c _ hp => ⟨hp.conn, hp.live⟩
    exact ⟨(haged c).readClosed half (hc half).1, (haged c).writeClosed half (hc half).2⟩

end Linked

/-- In a run whose listeners go or are bound once more only with an empty backlog, and whose
connected sockets do not connect again, every end whose peer is gone is told so, in every state. -/
theorem peersTold_of_keepsPeers (events : List (Event F))
    (h : Machine.Meets step KeepsPeers Net.empty events) :
    Machine.Always step PeersTold Net.empty events :=
  Machine.always_of_meets Linked (fun _ h => h.peersTold)
    (fun _ e h hok => h.of_effect (.ofStep h.wired e) hok) .empty h

/-- A listener that has accepted its one connection goes, and then the accepted end. -/
theorem peersTold_accepted :
    Machine.Always step PeersTold (Net.empty : Net Unit)
      [.socket .stream, .bind 0 ⟨"/l"⟩, .listen 0, .socket .stream, .connect 1 ⟨"/l"⟩ ⟨1, 0, 0⟩,
        .accept 0, .drop 0, .drop 2] :=
  peersTold_of_keepsPeers _ (by decide)

def lostPeer : List (Event Unit) :=
  [.socket .stream, .bind 0 ⟨"/l"⟩, .listen 0, .socket .stream, .connect 1 ⟨"/l"⟩ ⟨1, 0, 0⟩, .drop 0]

/-- The one who connected is not told. -/
theorem lostPeer_not_told : ¬ PeersTold (run Net.empty lostPeer) := by
  intro h
  have hwired : Wired (run Net.empty lostPeer) := Wired.empty.run lostPeer
  have hclosed := h 1 0 (by decide) (by decide) ?_
  · exact absurd (hclosed 0).1 (by decide)
  intro p hp hconn
  have hlt : p < 3 := hwired.lt_of_conn hconn
  obtain rfl | rfl | rfl : p = 0 ∨ p = 1 ∨ p = 2 := by omega
  · exact absurd hconn (by decide)
  · exact absurd rfl hp
  refine ⟨by decide, ?_⟩
  rintro ⟨listener, hopen, hlisten, -⟩
  have hl : listener < 3 := hwired.lt_of_open hopen
  obtain rfl | rfl | rfl : listener = 0 ∨ listener = 1 ∨ listener = 2 := by omega
  · exact absurd hlisten (by decide)
  · exact absurd hlisten (by decide)
  · exact absurd hlisten (by decide)

end Twilight.Unix

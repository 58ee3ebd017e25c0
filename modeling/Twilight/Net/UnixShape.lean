/-
What a socket can look like in a run: only stream sockets have connections and listen, only the two
of a datagram pair have peers, each the other's, and the two ends of a connection read different
halves of it.
-/
import Twilight.Net.UnixBacklog

namespace Twilight.Unix

open Nat List

variable {F : Type}

/-- What holds of one socket with `refs` handles. -/
structure Sane (st : UnixState F) (refs : Nat) : Prop where
  conn : ∀ c, st.conn = some c → st.sockType = .stream
  listens : st.role = .listening → st.sockType = .stream
  peer : ∀ p, st.dgramPeer = some p → st.sockType = .dgram ∧ (0 < refs → st.role ≠ .unbound)
  gone : st.sockType = .dgram → refs = 0 → st.role = .unbound

lemma Sane.reopened {st : UnixState F} {refs refs' : Nat} (h : Sane st refs) (hopen : 0 < refs)
    (hopen' : 0 < refs') : Sane st refs' :=
  ⟨h.conn, h.listens, fun p hp => ⟨(h.peer p hp).1, fun _ => (h.peer p hp).2 hopen⟩,
    fun _ hzero => by omega⟩

structure Shaped (net : Net F) : Prop where
  wired : Wired net
  backlogged : Backlogged net
  sane : ∀ s, Sane (net.state s) (net.handleRefs s)
  made : ∀ s c, (net.state s).conn = some c → c < net.conns
  opposed : ∀ s s' c, (net.state s).conn = some c → (net.state s').conn = some c →
    (net.state s).readerHalf = (net.state s').readerHalf → s = s'
  paired : ∀ s p, (net.state s).dgramPeer = some p → (net.state p).dgramPeer = some s
  waits : ∀ s p, net.Queues s p → (net.state p).sockType = .stream

namespace Shaped

variable {net net' : Net F}

lemma sane_new (sockType : SockType) (refs : Nat) : Sane (.new sockType : UnixState F) refs where
  conn _ h := nomatch h
  listens h := nomatch h
  peer _ h := nomatch h
  gone _ _ := rfl

lemma sane_ofConn (c : Nat) (readerHalf writerHalf : Fin 2) (refs : Nat) :
    Sane (.ofConn c readerHalf writerHalf : UnixState F) refs where
  conn _ _ := rfl
  listens _ := rfl
  peer _ h := nomatch h
  gone h := nomatch h

lemma empty : Shaped (Net.empty : Net F) where
  wired := .empty
  backlogged := .empty
  sane _ := sane_new _ _
  made _ _ h := nomatch h
  opposed _ _ _ h := nomatch h
  paired _ _ h := nomatch h
  waits _ _ h := nomatch h

lemma of_sane (h : Shaped net) (hwired : Wired net') (hbacklogged : Backlogged net')
    (hsane : ∀ s, Sane (net'.state s) (net'.handleRefs s)) (hconns : net.conns ≤ net'.conns)
    (hconn : ∀ s c, (net'.state s).conn = some c → (net.state s).conn = some c ∧
      (net'.state s).readerHalf = (net.state s).readerHalf)
    (hpeer : ∀ s, (net'.state s).dgramPeer = (net.state s).dgramPeer)
    (hwaits : ∀ s p, net'.Queues s p → (net'.state p).sockType = .stream) : Shaped net' where
  wired := hwired
  backlogged := hbacklogged
  sane := hsane
  made s c hc := lt_of_lt_of_le (h.made s c (hconn s c hc).1) hconns
  opposed s s' c hc hc' hhalf := by
    refine h.opposed s s' c (hconn s c hc).1 (hconn s' c hc').1 ?_
    rw [← (hconn s c hc).2, ← (hconn s' c hc').2, hhalf]
  paired s p hp := by
    rw [hpeer] at hp ⊢
    exact h.paired s p hp
  waits := hwaits

lemma waits_of (h : Shaped net) (hqueued : ∀ s p, net'.Queues s p → net.Queues s p)
    (htype : ∀ s, s < net.states → (net'.state s).sockType = (net.state s).sockType) (s p : Nat)
    (hp : net'.Queues s p) : (net'.state p).sockType = .stream := by
  rw [htype p (h.backlogged.made s p (hqueued s p hp))]
  exact h.waits s p (hqueued s p hp)

variable {s refs : Nat} {st : UnixState F}

section

variable (h : Shaped net)
include h

/-- One socket is put that has no new peer and nothing new in its backlog, and reads from a half of
a connection that nobody else reads from. -/
lemma puts (hp : net.Puts s st refs net')
    (hwired : Wired net') (hbacklogged : Backlogged net') (hconns : net.conns ≤ net'.conns)
    (hsane : Sane st refs) (hconn : ∀ c, st.conn = some c → c < net'.conns ∧ ∀ s', s' ≠ s →
      (net.state s').conn = some c → (net.state s').readerHalf ≠ st.readerHalf)
    (hpeer : st.dgramPeer = (net.state s).dgramPeer) (hbacklog : st.backlog = (net.state s).backlog)
    (htype : ∀ s', net.Queues s' s → st.sockType = .stream) : Shaped net' where
  wired := hwired
  backlogged := hbacklogged
  sane s' := by
    obtain ⟨-, hstate, hrefs⟩ | ⟨-, hstate, hrefs⟩ := hp.cases s'
    · rw [hstate, hrefs]
      exact hsane
    · rw [hstate, hrefs]
      exact h.sane s'
  made s' c hc := by
    obtain ⟨-, hstate, -⟩ | ⟨-, hstate, -⟩ := hp.cases s'
    · exact (hconn c (hstate ▸ hc)).1
    · exact lt_of_lt_of_le (h.made s' c (hstate ▸ hc)) hconns
  opposed a b c ha hb hhalf := by
    obtain ⟨rfl, hsa, -⟩ | ⟨hna, hsa, -⟩ := hp.cases a
    · obtain ⟨rfl, -⟩ | ⟨hnb, hsb, -⟩ := hp.cases b
      · rfl
      · rw [hsa, hsb] at hhalf
        exact absurd hhalf.symm ((hconn c (hsa ▸ ha)).2 b hnb (hsb ▸ hb))
    · obtain ⟨rfl, hsb, -⟩ | ⟨-, hsb, -⟩ := hp.cases b
      · rw [hsa, hsb] at hhalf
        exact absurd hhalf ((hconn c (hsb ▸ hb)).2 a hna (hsa ▸ ha))
      · rw [hsa, hsb] at hhalf
        exact h.opposed a b c (hsa ▸ ha) (hsb ▸ hb) hhalf
  paired s' p hpp := by
    have hsame : ∀ q, (net'.state q).dgramPeer = (net.state q).dgramPeer := by
      intro q
      obtain ⟨rfl, hstate, -⟩ | ⟨-, hstate, -⟩ := hp.cases q
      · rw [hstate, hpeer]
      · rw [hstate]
    rw [hsame] at hpp ⊢
    exact h.paired s' p hpp
  waits s' p hq := by
    have hold : net.Queues s' p := by
      obtain ⟨rfl, hstate, -⟩ | ⟨-, hstate, -⟩ := hp.cases s'
      · rwa [Net.Queues, hstate, hbacklog] at hq
      · rwa [Net.Queues, hstate] at hq
    obtain ⟨rfl, hstate, -⟩ | ⟨-, hstate, -⟩ := hp.cases p
    · rw [hstate]
      exact htype s' hold
    · rw [hstate]
      exact h.waits s' p hold

lemma conn_kept
    (hconn : st.conn = (net.state s).conn) (hhalf : st.readerHalf = (net.state s).readerHalf) (c : Nat)
    (hc : st.conn = some c) : c < net.conns ∧ ∀ s', s' ≠ s →
      (net.state s').conn = some c → (net.state s').readerHalf ≠ st.readerHalf := by
  rw [hconn] at hc
  exact ⟨h.made s c hc, fun s' hne hc' heq => hne (h.opposed s' s c hc' hc (heq.trans hhalf))⟩

lemma setState (hp : net.Puts s st refs net')
    (hwired : Wired net') (hbacklogged : Backlogged net') (hconns : net.conns ≤ net'.conns)
    (hsane : Sane st refs) (hconn : st.conn = (net.state s).conn)
    (hhalf : st.readerHalf = (net.state s).readerHalf)
    (hpeer : st.dgramPeer = (net.state s).dgramPeer) (hbacklog : st.backlog = (net.state s).backlog)
    (htype : st.sockType = (net.state s).sockType) : Shaped net' := by
  refine h.puts hp hwired hbacklogged hconns hsane (fun c hc => ?_) hpeer hbacklog
    fun s' hq => htype.trans (h.waits s' s hq)
  obtain ⟨hlt, hothers⟩ := h.conn_kept hconn hhalf c hc
  exact ⟨lt_of_lt_of_le hlt hconns, hothers⟩

lemma addState
    (hwired : Wired (net.addState st refs)) (hbacklogged : Backlogged (net.addState st refs))
    (hsane : Sane st refs) (hpeer : st.dgramPeer = none) (hbacklog : st.backlog = [])
    (hconn : ∀ c, st.conn = some c → c < net.conns ∧ ∀ s, (net.state s).conn = some c →
      (net.state s).readerHalf ≠ st.readerHalf) : Shaped (net.addState st refs) := by
  have hfresh := (h.wired.fresh net.states (Nat.le_refl _)).1
  refine h.puts (net.puts_addState st refs) hwired hbacklogged (Nat.le_refl _) hsane
    (fun c hc => ?_) ?_ ?_ fun s' hq => ?_
  · exact ⟨(hconn c hc).1, fun s' _ => (hconn c hc).2 s'⟩
  · rw [hpeer, hfresh]
    rfl
  · rw [hbacklog, hfresh]
    rfl
  · exact absurd (h.backlogged.made s' _ hq) (lt_irrefl _)

lemma addConn : Shaped net.addConn :=
  h.of_sane h.wired.addConn h.backlogged.addConn h.sane (le_succ _)
    (fun _ _ hc => ⟨hc, rfl⟩) (fun _ => rfl) (h.waits_of (fun _ _ hq => hq) fun _ _ => rfl)

lemma no_conn (s : Nat) : (net.state s).conn ≠ some net.conns :=
  fun hc => lt_irrefl _ (h.made s _ hc)

lemma streamPair (hwired : Wired net.streamPair)
    (hbacklogged : Backlogged net.streamPair) : Shaped net.streamPair := by
  have hleft : Shaped (net.addConn.addState (.ofConn net.conns 1 0) 1) := by
    refine h.addConn.addState (h.wired.addConn.streamEnd net.conns)
      (h.backlogged.addConn.addState h.wired.addConn 1 rfl nofun) (sane_ofConn _ _ _ _) rfl rfl ?_
    rintro c ⟨⟩
    exact ⟨lt_succ_self _, fun s hs => absurd hs (h.no_conn s)⟩
  refine hleft.addState hwired hbacklogged (sane_ofConn _ _ _ _) rfl rfl ?_
  rintro c ⟨⟩
  refine ⟨lt_succ_self _, fun s hs => ?_⟩
  rw [net.addConn.addState_state] at hs ⊢
  split at hs
  · next hnew =>
    rw [if_pos hnew]
    exact Fin.zero_ne_one.symm
  · exact absurd hs (h.no_conn s)

end

lemma dgramPair_old {c : Nat} (hc : (net.dgramPair.state s).conn = some c) :
    net.dgramPair.state s = net.state s := by
  rw [net.dgramPair_state] at hc ⊢
  split at hc
  · cases hc
  · next hright =>
    rw [if_neg hright]
    split at hc
    · cases hc
    · next hleft => rw [if_neg hleft]

section

variable (h : Shaped net)
include h

lemma dgramPair (hwired : Wired net.dgramPair)
    (hbacklogged : Backlogged net.dgramPair) : Shaped net.dgramPair where
  wired := hwired
  backlogged := hbacklogged
  sane s := by
    rw [net.dgramPair_state, net.dgramPair_handleRefs]
    split
    · exact ⟨nofun, nofun, fun _ _ => ⟨rfl, fun _ => nofun⟩, nofun⟩
    split
    · exact ⟨nofun, nofun, fun _ _ => ⟨rfl, fun _ => nofun⟩, nofun⟩
    · exact h.sane s
  made s c hc := h.made s c (dgramPair_old hc ▸ hc)
  opposed s s' c hs hs' hhalf := by
    rw [dgramPair_old hs, dgramPair_old hs'] at hhalf
    exact h.opposed s s' c (dgramPair_old hs ▸ hs) (dgramPair_old hs' ▸ hs') hhalf
  paired s p hp := by
    rw [net.dgramPair_state] at hp
    split at hp
    · next hs =>
      obtain rfl := Option.some.inj hp
      rw [net.dgramPair_state, if_neg (by omega), if_pos rfl, hs]
    split at hp
    · next hs =>
      obtain rfl := Option.some.inj hp
      rw [net.dgramPair_state, if_pos rfl, hs]
    · have hback := h.paired s p hp
      have hlt := h.wired.lt_of_dgram (h.wired.peer s p hp).2
      rw [net.dgramPair_state, if_neg (by omega), if_neg (by omega)]
      exact hback
  waits s p hp := by
    rw [Net.Queues, net.dgramPair_state] at hp
    split at hp
    · cases hp
    split at hp
    · cases hp
    · have hlt := h.backlogged.made s p hp
      rw [net.dgramPair_state, if_neg (by omega), if_neg (by omega)]
      exact h.waits s p hp

lemma queued {listener : Nat}
    (hlisten : (net.state listener).role = .listening) (cred : PeerCredentials) :
    Shaped (net.queued listener cred) := by
  have hl : listener < net.states := h.wired.lt_of_role (by simp [hlisten])
  have hwired : Wired (net.addConn.addState (.ofConn net.conns 0 1) 0) :=
    h.wired.addConn.addState 0 rfl (fun _ _ => Fin.zero_ne_one) rfl
  have hmade : Shaped (net.addConn.addState (.ofConn net.conns 0 1) 0) := by
    refine h.addConn.addState hwired (h.backlogged.addConn.addState h.wired.addConn 0 rfl nofun)
      (sane_ofConn _ _ _ _) rfl rfl ?_
    rintro c ⟨⟩
    exact ⟨lt_succ_self _, fun s hs => absurd hs (h.no_conn s)⟩
  -- only the backlog of the listener differs now
  refine hmade.of_sane (h.wired.queued hl cred) (h.backlogged.queued h.wired hlisten cred)
    (fun s => ?_) (Nat.le_refl _) (fun s c hc => ?_) (fun s => ?_) fun s p hp => ?_
  · rw [Net.queued, Net.setState_state]
    split
    · next hs =>
      subst hs
      have hsane := hmade.sane s
      exact ⟨hsane.conn, hsane.listens, hsane.peer, hsane.gone⟩
    · exact hmade.sane s
  · rw [Net.queued, Net.setState_state] at hc ⊢
    split at hc
    · next hs =>
      rw [if_pos hs, hs]
      exact ⟨hc, rfl⟩
    · next hs =>
      rw [if_neg hs]
      exact ⟨hc, rfl⟩
  · rw [Net.queued, Net.setState_state]
    split
    · next hs => rw [hs]
    · rfl
  · rw [net.queued_state (Nat.ne_of_lt hl)]
    obtain hold | ⟨-, rfl⟩ := (Backlogged.queued_queues h.wired hl cred s p).mp hp
    · have hpnew : p ≠ net.states := Nat.ne_of_lt (h.backlogged.made s p hold)
      split
      · exact h.waits s p hold
      · exact h.waits s p hold
    · rw [if_neg (ne_of_gt hl), if_pos rfl]
      rfl

lemma connected {listener : Nat} {addr : UnixAddr} {cred : PeerCredentials}
    (htype : (net.state s).sockType = .stream) (hs : s < net.states)
    (hlisten : (net.state listener).role = .listening)
    (hwired : Wired ((net.queued listener cred).attached s net.conns addr))
    (hbacklogged : Backlogged ((net.queued listener cred).attached s net.conns addr)) :
    Shaped ((net.queued listener cred).attached s net.conns addr) := by
  have hl : listener ≠ net.states := Nat.ne_of_lt (h.wired.lt_of_role (by simp [hlisten]))
  have hqueued := h.queued hlisten cred
  have hstream : ((net.queued listener cred).state s).sockType = .stream := by
    rw [net.queued_state hl, if_neg (Nat.ne_of_lt hs)]
    split
    · exact htype
    · exact htype
  refine hqueued.puts (Net.puts_setState _ (lt_succ_of_lt hs) _) hwired hbacklogged
    (Nat.le_refl _) ⟨fun _ _ => hstream, nofun, fun p hp => ?_, fun hdgram => ?_⟩ ?_ rfl rfl
    fun _ _ => hstream
  · exact ⟨((hqueued.sane s).peer p hp).1, fun _ => nofun⟩
  · exact nomatch hstream.symm.trans hdgram
  -- the other end is the only one yet, and it reads from the other half
  rintro c ⟨⟩
  refine ⟨lt_succ_self _, fun s' _ hs' => ?_⟩
  rw [net.queued_state hl] at hs' ⊢
  split at hs'
  · exact absurd hs' (h.no_conn s')
  next hsl =>
  rw [if_neg hsl]
  split at hs'
  · next hnew =>
    rw [if_pos hnew]
    exact Fin.zero_ne_one
  · exact absurd hs' (h.no_conn s')

lemma accepted {pending : PendingAccept} {rest : List PendingAccept}
    (hbacklog : (net.state s).backlog = pending :: rest)
    (hwired : Wired (net.accepted s pending rest))
    (hbacklogged : Backlogged (net.accepted s pending rest)) :
    Shaped (net.accepted s pending rest) := by
  have hself := (h.wired.pending s pending (hbacklog ▸ mem_cons_self)).1
  have hhead : net.Queues s pending.state := by simp [Net.Queues, hbacklog]
  have hstate := net.accepted_state hself rest
  have hsame : ∀ s', ((net.accepted s pending rest).state s').conn = (net.state s').conn ∧
      ((net.accepted s pending rest).state s').readerHalf = (net.state s').readerHalf ∧
      ((net.accepted s pending rest).state s').dgramPeer = (net.state s').dgramPeer ∧
      ((net.accepted s pending rest).state s').sockType = (net.state s').sockType ∧
      ((net.accepted s pending rest).state s').role = (net.state s').role := by
    intro s'
    rw [hstate]
    split
    · exact ⟨rfl, rfl, rfl, rfl, rfl⟩
    split
    · exact ⟨rfl, rfl, rfl, rfl, rfl⟩
    · exact ⟨rfl, rfl, rfl, rfl, rfl⟩
  refine h.of_sane hwired hbacklogged (fun s' => ?_) (Nat.le_refl _) (fun s' c hc => ?_)
    (fun s' => (hsame s').2.2.1) (h.waits_of (fun s' p hp => ?_) fun s' _ => (hsame s').2.2.2.1)
  · obtain ⟨hconn, -, hpeer, htype, hrole⟩ := hsame s'
    have hsane := h.sane s'
    by_cases hp : s' = pending.state
    · have hstream : (net.state s').sockType = .stream := hp ▸ h.waits s pending.state hhead
      refine ⟨fun _ _ => htype.trans hstream, fun _ => htype.trans hstream, fun p hp' => ?_,
        fun hdgram => ?_⟩
      · rw [hpeer] at hp'
        rw [(hsane.peer p hp').1] at hstream
        cases hstream
      · rw [htype, hstream] at hdgram
        cases hdgram
    · rw [net.accepted_handleRefs, Function.update_of_ne hp]
      refine ⟨fun c hc => ?_, fun hl => ?_, fun p hp' => ?_, fun hdgram hzero => ?_⟩
      · rw [htype]
        exact hsane.conn c (hconn ▸ hc)
      · rw [htype]
        exact hsane.listens (hrole ▸ hl)
      · rw [htype, hrole]
        exact hsane.peer p (hpeer ▸ hp')
      · rw [hrole]
        exact hsane.gone (htype ▸ hdgram) hzero
  · exact ⟨(hsame s').1 ▸ hc, (hsame s').2.1⟩
  · rw [Net.Queues, Backlogged.accepted_backlog hself] at hp
    split at hp
    · next hs =>
      rw [Net.Queues, hs, hbacklog]
      exact mem_cons_of_mem _ hp
    · exact hp

lemma of_effect {e : Event F} (he : Effect net e net') : Shaped net' := by
  have hwired := h.wired.of_effect he
  have hbacklogged := h.backlogged.of_effect h.wired he
  cases he with
  | none => exact h
  | socket sockType => exact h.addState hwired hbacklogged (sane_new _ _) rfl rfl nofun
  | streamPair => exact h.streamPair hwired hbacklogged
  | dgramPair => exact h.dgramPair hwired hbacklogged
  | @dup s hopen =>
    exact h.setState (net.puts_setHandles (h.wired.lt_of_open hopen) _) hwired hbacklogged
      (Nat.le_refl _) ((h.sane s).reopened hopen (succ_pos _)) rfl rfl rfl rfl rfl
  | @drop s hopen =>
    have hpos : 0 < net.handleRefs s := by omega
    exact h.setState (net.puts_setHandles (h.wired.lt_of_open hpos) _) hwired hbacklogged
      (Nat.le_refl _) ((h.sane s).reopened hpos (by omega)) rfl rfl rfl rfl rfl
  | @close s hlast =>
    refine h.puts (net.puts_closed (h.wired.lt_of_open (by omega))) hwired hbacklogged ?_
      ⟨nofun, nofun, fun p hp => ⟨((h.sane s).peer p hp).1, nofun⟩, fun _ _ => rfl⟩ nofun rfl rfl
      fun s' => h.waits s' s
    exact le_of_eq (Net.closed_conns (net.setHandles s 0) s).symm
  | @bind s addr hopen hname hfree =>
    refine h.setState ((net.puts_setState (h.wired.lt_of_open hopen) _).congr rfl rfl rfl) hwired
      hbacklogged (Nat.le_refl _) ?_ rfl rfl rfl rfl rfl
    exact ⟨(h.sane s).conn, nofun, fun p hp => ⟨((h.sane s).peer p hp).1, fun _ => nofun⟩,
      fun _ hzero => by omega⟩
  | @listen s hopen htype hrole =>
    refine h.setState (net.puts_setState (h.wired.lt_of_open hopen) _) hwired hbacklogged
      (Nat.le_refl _) ?_ rfl rfl rfl rfl rfl
    exact ⟨(h.sane s).conn, fun _ => htype, fun p hp => ⟨((h.sane s).peer p hp).1, fun _ => nofun⟩,
      fun hdgram => nomatch htype.symm.trans hdgram⟩
  | @connect s listener addr cred hopen htype hrole hlookup hlisten =>
    exact h.connected htype (h.wired.lt_of_open hopen) hlisten hwired hbacklogged
  | accept hopen hrole hbacklog => exact h.accepted hbacklog hwired hbacklogged
  | @queue _ s he htype messages =>
    have hsane := h.sane s
    exact h.setState (net.puts_setState (h.wired.lt_of_dgram htype) _) hwired hbacklogged
      (Nat.le_refl _) ⟨hsane.conn, hsane.listens, hsane.peer, hsane.gone⟩ rfl rfl rfl rfl rfl
  | channels he conn haged =>
    exact h.of_sane hwired hbacklogged h.sane (Nat.le_refl _) (fun _ _ hc => ⟨hc, rfl⟩)
      (fun _ => rfl) (h.waits_of (fun _ _ hq => hq) fun _ _ => rfl)

lemma step (e : Event F) : Shaped (step net e) := h.of_effect (.ofStep h.wired e)

lemma run (events : List (Event F)) : Shaped (run net events) :=
  foldlRecOn events Unix.step h fun _ h e _ => h.step e

end

end Shaped

end Twilight.Unix

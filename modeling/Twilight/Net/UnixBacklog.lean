/-
The sockets that wait in a backlog. `connect` makes the other end of its connection and leaves it
with the listener, without a handle, until `accept` takes it: it waits in one place only, and nothing
else has a hold on it.
-/
import Twilight.Net.UnixParties

namespace Twilight.Unix

open Function List

variable {F : Type}

namespace Net

/-- `p` waits to be accepted by `listener`. -/
def Queues (net : Net F) (listener p : Nat) : Prop :=
  p ∈ (net.state listener).backlog.map PendingAccept.state

end Net

/-- What waits in a backlog has no handle and no name, and waits once. -/
structure Backlogged (net : Net F) : Prop where
  made : ∀ s p, net.Queues s p → p < net.states
  nodup : ∀ s, ((net.state s).backlog.map PendingAccept.state).Nodup
  once : ∀ s s' p, net.Queues s p → net.Queues s' p → s = s'
  idle : ∀ s p, net.Queues s p → net.handleRefs p = 0 ∧ (net.state p).ownsBinding = false
  listens : ∀ s, (net.state s).role = .listening → 0 < net.handleRefs s

namespace Backlogged

variable {net net' : Net F}

lemma empty : Backlogged (Net.empty : Net F) where
  made _ _ h := nomatch h
  nodup _ := nodup_nil
  once _ _ _ h := nomatch h
  idle _ _ h := nomatch h
  listens _ h := nomatch h

variable {s listener : Nat} {st : UnixState F}

section

variable (h : Backlogged net)
include h

lemma not_queued {p : Nat} (hopen : 0 < net.handleRefs p) :
    ¬ net.Queues s p := by
  intro hp
  rw [(h.idle s p hp).1] at hopen
  exact absurd hopen (Nat.lt_irrefl 0)

lemma of_same (hstates : net.states ≤ net'.states)
    (hbacklog : ∀ s, (net'.state s).backlog = (net.state s).backlog)
    (hidle : ∀ s p, net.Queues s p → net'.handleRefs p = 0 ∧ (net'.state p).ownsBinding = false)
    (hlistens : ∀ s, (net'.state s).role = .listening → 0 < net'.handleRefs s) :
    Backlogged net' := by
  have hqueues : ∀ s p, net'.Queues s p → net.Queues s p := by
    intro s p hp
    rwa [Net.Queues, hbacklog] at hp
  refine ⟨fun s p hp => ?_, fun s => ?_, fun a b p ha hb => ?_, fun s p hp => ?_, hlistens⟩
  · exact Nat.lt_of_lt_of_le (h.made s p (hqueues s p hp)) hstates
  · rw [hbacklog]
    exact h.nodup s
  · exact h.once a b p (hqueues a p ha) (hqueues b p hb)
  · exact hidle s p (hqueues s p hp)

lemma congr (hstates : net'.states = net.states)
    (hstate : net'.state = net.state) (hhandles : net'.handleRefs = net.handleRefs) :
    Backlogged net' :=
  h.of_same (Nat.le_of_eq hstates.symm) (fun _ => by rw [hstate])
    (fun s p hp => by rw [hstate, hhandles]; exact h.idle s p hp)
    fun s hrole => by rw [hstate] at hrole; rw [hhandles]; exact h.listens s hrole

lemma addConn : Backlogged net.addConn := h.congr rfl rfl rfl

lemma puts {refs : Nat} (hp : net.Puts s st refs net')
    (hbacklog : st.backlog = (net.state s).backlog)
    (hidle : ∀ s', net.Queues s' s → refs = 0 ∧ st.ownsBinding = false)
    (hlistens : st.role = .listening → 0 < refs) : Backlogged net' := by
  refine h.of_same hp.states_le (fun s' => ?_) (fun s' p hq => ?_) fun s' hrole => ?_
  · obtain ⟨rfl, hstate, -⟩ | ⟨-, hstate, -⟩ := hp.cases s'
    · rw [hstate, hbacklog]
    · rw [hstate]
  · obtain ⟨rfl, hstate, hrefs⟩ | ⟨-, hstate, hrefs⟩ := hp.cases p
    · rw [hstate, hrefs]
      exact hidle s' hq
    · rw [hstate, hrefs]
      exact h.idle s' p hq
  · obtain ⟨rfl, hstate, hrefs⟩ | ⟨-, hstate, hrefs⟩ := hp.cases s'
    · rw [hrefs]
      exact hlistens (hstate ▸ hrole)
    · rw [hrefs]
      exact h.listens s' (hstate ▸ hrole)

lemma puts_open {refs : Nat} (hp : net.Puts s st refs net') (hopen : 0 < net.handleRefs s)
    (hbacklog : st.backlog = (net.state s).backlog) (hlistens : st.role = .listening → 0 < refs) :
    Backlogged net' :=
  h.puts hp hbacklog (fun _ hq => absurd hq (h.not_queued hopen)) hlistens

lemma addState (hwired : Wired net) (refs : Nat)
    (hbacklog : st.backlog = []) (hrole : st.role ≠ .listening) :
    Backlogged (net.addState st refs) := by
  refine h.puts (net.puts_addState st refs) (hbacklog.trans hwired.fresh_backlog.symm)
    (fun s' hq => ?_) fun hlisten => absurd hlisten hrole
  exact absurd (h.made s' _ hq) (Nat.lt_irrefl _)

end

lemma queued_backlog (hwired : Wired net) (hlistener : listener < net.states)
    (cred : PeerCredentials) (s : Nat) :
    ((net.queued listener cred).state s).backlog.map PendingAccept.state =
      (net.state s).backlog.map PendingAccept.state ++ if s = listener then [net.states] else [] := by
  rw [net.queued_state (Nat.ne_of_lt hlistener)]
  by_cases hs : s = listener
  · simp [hs]
  · by_cases hnew : s = net.states
    · subst hnew
      rw [(hwired.fresh _ (Nat.le_refl _)).1, if_neg hs, if_pos rfl, if_neg hs]
      rfl
    · simp [hs, hnew]

lemma queued_queues (hwired : Wired net) (hlistener : listener < net.states)
    (cred : PeerCredentials) (s p : Nat) :
    (net.queued listener cred).Queues s p ↔ net.Queues s p ∨ (s = listener ∧ p = net.states) := by
  rw [Net.Queues, queued_backlog hwired hlistener, mem_append]
  by_cases hs : s = listener
  · simp [hs, Net.Queues]
  · simp [hs, Net.Queues]

lemma queued (h : Backlogged net) (hwired : Wired net)
    (hlisten : (net.state listener).role = .listening) (cred : PeerCredentials) :
    Backlogged (net.queued listener cred) := by
  have hlistener : listener < net.states := hwired.lt_of_role (by simp [hlisten])
  have hqueues := queued_queues hwired hlistener cred
  have hnew : ∀ s, ¬ net.Queues s net.states := fun s hp => Nat.lt_irrefl _ (h.made s _ hp)
  have hne : listener ≠ net.states := Nat.ne_of_lt hlistener
  refine ⟨fun s p hp => ?_, fun s => ?_, fun a b p ha hb => ?_, fun s p hp => ?_, fun s hrole => ?_⟩
  · obtain hp | ⟨-, rfl⟩ := (hqueues s p).mp hp
    · exact Nat.lt_succ_of_lt (h.made s p hp)
    · exact Nat.lt_succ_self _
  · rw [queued_backlog hwired hlistener]
    split
    · refine List.Nodup.append (h.nodup s) (nodup_singleton _) ?_
      intro p hp hp'
      obtain rfl := mem_singleton.mp hp'
      exact hnew s hp
    · rw [append_nil]
      exact h.nodup s
  · obtain ha | ⟨rfl, rfl⟩ := (hqueues a p).mp ha
    · obtain hb | ⟨-, rfl⟩ := (hqueues b p).mp hb
      · exact h.once a b p ha hb
      · exact absurd ha (hnew a)
    · obtain hb | ⟨rfl, -⟩ := (hqueues b _).mp hb
      · exact absurd hb (hnew b)
      · rfl
  · rw [net.queued_state hne, net.queued_handleRefs]
    obtain hold | ⟨-, rfl⟩ := (hqueues s p).mp hp
    · have hpnew : p ≠ net.states := Nat.ne_of_lt (h.made s p hold)
      have hpl : p ≠ listener := by
        rintro rfl
        exact h.not_queued (h.listens _ hlisten) hold
      rw [if_neg hpl, if_neg hpnew, update_of_ne hpnew]
      exact h.idle s p hold
    · rw [if_neg hne.symm, if_pos rfl, update_self]
      exact ⟨rfl, rfl⟩
  · rw [net.queued_state hne] at hrole
    rw [net.queued_handleRefs]
    split at hrole
    · next hs =>
      subst hs
      rw [update_of_ne hne]
      exact h.listens _ hlisten
    split at hrole
    · cases hrole
    · next hsnew =>
      rw [update_of_ne hsnew]
      exact h.listens s hrole

/-! ## Accepting -/

lemma accepted_backlog {pending : PendingAccept} (hself : pending.state ≠ s)
    (rest : List PendingAccept) (s' : Nat) : ((net.accepted s pending rest).state s').backlog =
      if s' = s then rest else (net.state s').backlog := by
  rw [net.accepted_state hself]
  split
  · rfl
  · split
    · rfl
    · rfl

lemma accepted (h : Backlogged net) {pending : PendingAccept}
    {rest : List PendingAccept} (hself : pending.state ≠ s)
    (hbacklog : (net.state s).backlog = pending :: rest) :
    Backlogged (net.accepted s pending rest) := by
  have hsame := @accepted_backlog F net s pending hself rest
  have hhead : net.Queues s pending.state := by simp [Net.Queues, hbacklog]
  have hnodup := h.nodup s
  rw [hbacklog, map_cons, nodup_cons] at hnodup
  have hqueues : ∀ s' p, (net.accepted s pending rest).Queues s' p →
      net.Queues s' p ∧ p ≠ pending.state := by
    intro s' p hp
    rw [Net.Queues, hsame] at hp
    split at hp
    · next hs =>
      subst hs
      refine ⟨?_, ?_⟩
      · rw [Net.Queues, hbacklog, map_cons]
        exact mem_cons_of_mem _ hp
      · rintro rfl
        exact hnodup.1 hp
    · next hs =>
      refine ⟨hp, ?_⟩
      rintro rfl
      exact hs (h.once s' s _ hp hhead)
  refine ⟨fun s' p hp => ?_, fun s' => ?_, fun a b p ha hb => ?_, fun s' p hp => ?_,
    fun s' hrole => ?_⟩
  · exact h.made s' p (hqueues s' p hp).1
  · rw [hsame]
    split
    · exact hnodup.2
    · exact h.nodup s'
  · exact h.once a b p (hqueues a p ha).1 (hqueues b p hb).1
  · obtain ⟨hold, hne⟩ := hqueues s' p hp
    rw [net.accepted_state hself, net.accepted_handleRefs, update_of_ne hne, if_neg hne]
    obtain ⟨hrefs, howns⟩ := h.idle s' p hold
    refine ⟨hrefs, ?_⟩
    split
    · exact howns
    · exact howns
  · rw [net.accepted_handleRefs]
    by_cases hp : s' = pending.state
    · rw [hp, update_self]
      exact Nat.one_pos
    · rw [net.accepted_state hself, if_neg hp] at hrole
      rw [update_of_ne hp]
      split at hrole
      · exact h.listens s' hrole
      · exact h.listens s' hrole

lemma dgramPair (h : Backlogged net) (hwired : Wired net) : Backlogged net.dgramPair := by
  have hnew : Wired (net.addState (.new .dgram) 1) := hwired.addState 1 rfl nofun rfl
  have hleft : Backlogged (net.addState (.new .dgram) 1) := h.addState hwired 1 rfl nofun
  have hmade : Backlogged ((net.addState (.new .dgram) 1).addState (.new .dgram) 1) :=
    hleft.addState hnew 1 rfl nofun
  have hlt : net.states < net.states + 1 + 1 := by omega
  unfold Net.dgramPair
  refine puts_open ?_ (Net.puts_setState _ (Nat.lt_succ_self (net.states + 1)) _) ?_ rfl nofun
  · exact hmade.puts_open (Net.puts_setState _ hlt _) (by simp [Net.addState]) rfl nofun
  · simp [Net.addState, Net.setState]

/-! ## Steps and runs -/

lemma of_effect (h : Backlogged net) (hwired : Wired net) {e : Event F} (he : Effect net e net') :
    Backlogged net' := by
  cases he with
  | none => exact h
  | socket sockType => exact h.addState hwired 1 rfl nofun
  | streamPair =>
    have hleft : Backlogged (net.addConn.addState (.ofConn net.conns 1 0) 1) :=
      h.addConn.addState hwired.addConn 1 rfl nofun
    exact hleft.addState (hwired.addConn.streamEnd net.conns) 1 rfl nofun
  | dgramPair => exact h.dgramPair hwired
  | @dup s hopen =>
    exact h.puts_open (net.puts_setHandles (hwired.lt_of_open hopen) _) hopen rfl
      fun _ => Nat.succ_pos _
  | @drop s hopen =>
    have hpos : 0 < net.handleRefs s := by omega
    exact h.puts_open (net.puts_setHandles (hwired.lt_of_open hpos) _) hpos rfl fun _ => by omega
  | @close s hlast =>
    have hpos : 0 < net.handleRefs s := by omega
    exact h.puts_open (net.puts_closed (hwired.lt_of_open hpos)) hpos rfl nofun
  | bind hopen hname hfree =>
    exact h.puts_open ((net.puts_setState (hwired.lt_of_open hopen) _).congr rfl rfl rfl) hopen rfl
      nofun
  | listen hopen htype hrole =>
    exact h.puts_open (net.puts_setState (hwired.lt_of_open hopen) _) hopen rfl fun _ => hopen
  | @connect s listener addr cred hopen htype hrole hlookup hlisten =>
    have hs := hwired.lt_of_open hopen
    refine (h.queued hwired hlisten cred).puts_open
      (Net.puts_setState _ (Nat.lt_succ_of_lt hs) _) ?_ rfl nofun
    rw [net.queued_handleRefs, update_of_ne (Nat.ne_of_lt hs)]
    exact hopen
  | @accept s pending rest hopen hrole hbacklog =>
    exact h.accepted (hwired.pending s pending (hbacklog ▸ mem_cons_self)).1 hbacklog
  | @queue _ s he htype messages =>
    exact h.puts (net.puts_setState (hwired.lt_of_dgram htype) _) rfl (fun s' => h.idle s' s)
      (h.listens s)
  | channels he conn haged => exact h.congr rfl rfl rfl

end Backlogged

end Twilight.Unix

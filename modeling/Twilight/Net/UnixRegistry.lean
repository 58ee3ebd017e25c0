/-
The names of Unix sockets. `bind` puts a socket into the registry and the end of its last handle
takes it out again, by the address that the socket has then; a socket that is bound a second time has
only the second one.
-/
import Twilight.Lib.Machine
import Twilight.Net.UnixBacklog

namespace Twilight.Unix

open Locked AList Function Net

variable {F : Type}

/-- The registry names exactly the open sockets that are bound: the ones that have put their own
address there, as a socket from `accept` has the address of its listener without being bound. -/
structure Registered (net : Net F) : Prop where
  named : ∀ path s, net.registry.lookup path = some s →
    0 < net.handleRefs s ∧ (net.state s).boundAddr = some ⟨path⟩
  found : ∀ s, 0 < net.handleRefs s → (net.state s).ownsBinding = true →
    ∃ addr, (net.state s).boundAddr = some addr ∧ net.registry.lookup addr.path = some s
  gone : ∀ s, net.handleRefs s = 0 → ∀ path, net.registry.lookup path ≠ some s

/-- A `bind` that goes through is of a socket without a binding. -/
def BindsOnce (net : Net F) : Event F → Prop
  | .bind s addr => 0 < net.handleRefs s → (net.state s).ownsBinding = true →
    addr.path.isEmpty = true ∨ (net.registry.lookup addr.path).isSome = true
  | _ => True

instance (net : Net F) : (e : Event F) → Decidable (BindsOnce net e)
  | .bind .. => inferInstanceAs (Decidable (_ → _ → _ ∨ _))
  | .socket _ | .pair _ | .dup _ | .drop _ | .listen _ | .connect .. | .accept _ | .send ..
  | .recv .. | .sendTurn .. | .recvTurn .. | .shutdown .. | .poll _ => .isTrue trivial

variable {net : Net F}

lemma unregistered_lookup {s s' : Nat} {addr : Option UnixAddr} {path : String} :
    (net.unregistered s addr).registry.lookup path = some s' ↔
      net.registry.lookup path = some s' ∧ ¬ (s' = s ∧ addr = some ⟨path⟩) := by
  cases addr with
  | none => simp [unregistered]
  | some addr =>
    by_cases hpath : path = addr.path
    · subst hpath
      by_cases hlookup : net.registry.lookup addr.path = some s
      · simpa [unregistered, hlookup] using Eq.symm
      · simp only [unregistered, hlookup, if_false, and_true, iff_self_and]
        intro hs' hs
        exact hlookup (hs ▸ hs')
    · have hne : addr ≠ ⟨path⟩ := fun h => hpath (congrArg UnixAddr.path h).symm
      have hsame : (net.unregistered s (some addr)).registry.lookup path =
          net.registry.lookup path := by
        unfold unregistered
        dsimp only
        split
        · exact lookup_erase_ne hpath
        · rfl
      simp [hsame, hne]

/-- What every step keeps: a name in the registry is that of the socket that owns it, and an owner
is in the registry. -/
structure Booked (net : Net F) : Prop where
  wired : Wired net
  backlogged : Backlogged net
  named : ∀ path s, net.registry.lookup path = some s →
    0 < net.handleRefs s ∧ (net.state s).ownsBinding = true ∧ (net.state s).boundAddr = some ⟨path⟩
  found : ∀ s, (net.state s).ownsBinding = true →
    ∃ addr, (net.state s).boundAddr = some addr ∧ net.registry.lookup addr.path = some s

namespace Booked

variable {net net' : Net F}

lemma empty : Booked (empty : Net F) where
  wired := .empty
  backlogged := .empty
  named _ _ h := nomatch h
  found _ h := nomatch h

lemma registered (h : Booked net) : Registered net where
  named path s hlookup := ⟨(h.named path s hlookup).1, (h.named path s hlookup).2.2⟩
  found s _ howns := h.found s howns
  gone s hclosed path hlookup := by
    have hopen := (h.named path s hlookup).1
    omega

variable {s : Nat}

section

variable (h : Booked net)
include h

lemma owner_open (howns : (net.state s).ownsBinding = true) :
    0 < net.handleRefs s := by
  obtain ⟨addr, -, hlookup⟩ := h.found s howns
  exact (h.named _ s hlookup).1

lemma of_same (hwired : Wired net') (hbacklogged : Backlogged net')
    (hregistry : net'.registry = net.registry)
    (hkeep : ∀ s, (net.state s).ownsBinding = true → 0 < net'.handleRefs s ∧
      (net'.state s).ownsBinding = true ∧ (net'.state s).boundAddr = (net.state s).boundAddr)
    (hown : ∀ s, (net'.state s).ownsBinding = true → (net.state s).ownsBinding = true) :
    Booked net' where
  wired := hwired
  backlogged := hbacklogged
  named path s hlookup := by
    rw [hregistry] at hlookup
    obtain ⟨-, howns, haddr⟩ := h.named path s hlookup
    obtain ⟨hopen, howns', haddr'⟩ := hkeep s howns
    exact ⟨hopen, howns', haddr'.trans haddr⟩
  found s howns := by
    have howns' := hown s howns
    obtain ⟨addr, haddr, hlookup⟩ := h.found s howns'
    refine ⟨addr, (hkeep s howns').2.2.trans haddr, ?_⟩
    rwa [hregistry]

lemma puts {refs : Nat} {st : UnixState F} (hputs : net.Puts s st refs net')
    (hwired : Wired net') (hbacklogged : Backlogged net') (hregistry : net'.registry = net.registry)
    (howns : st.ownsBinding = (net.state s).ownsBinding)
    (haddr : st.boundAddr = (net.state s).boundAddr)
    (hrefs : 0 < net.handleRefs s → 0 < refs) : Booked net' := by
  refine h.of_same hwired hbacklogged hregistry (fun s' hs' => ?_) fun s' hs' => ?_
  · have hopen := h.owner_open hs'
    obtain ⟨rfl, hstate, hrefs'⟩ | ⟨-, hstate, hrefs'⟩ := hputs.cases s'
    · rw [hstate, hrefs']
      exact ⟨hrefs hopen, howns.trans hs', haddr⟩
    · rw [hstate, hrefs']
      exact ⟨hopen, hs', rfl⟩
  · obtain ⟨rfl, hstate, -⟩ | ⟨-, hstate, -⟩ := hputs.cases s'
    · exact howns ▸ hstate ▸ hs'
    · exact hstate ▸ hs'

lemma grown (hwired : Wired net') (hbacklogged : Backlogged net')
    (hregistry : net'.registry = net.registry)
    (hold : ∀ s, s < net.states → net'.state s = net.state s ∧ net'.handleRefs s = net.handleRefs s)
    (hnew : ∀ s, net.states ≤ s → (net'.state s).ownsBinding = false) : Booked net' := by
  refine h.of_same hwired hbacklogged hregistry (fun s hs => ?_) fun s hs => ?_
  · have hopen := h.owner_open hs
    obtain ⟨hstate, hrefs⟩ := hold s (h.wired.lt_of_open hopen)
    rw [hstate, hrefs]
    exact ⟨hopen, hs, rfl⟩
  · by_cases hlt : s < net.states
    · rwa [(hold s hlt).1] at hs
    · rw [hnew s (Nat.le_of_not_lt hlt)] at hs
      cases hs

lemma closed (hlast : net.handleRefs s = 1) :
    Booked ((net.setHandles s 0).closed s) where
  wired := h.wired.of_effect (.close hlast)
  backlogged := h.backlogged.of_effect h.wired (.close hlast)
  named path s' hlookup := by
    rw [closed_registry, unregistered_lookup] at hlookup
    obtain ⟨hold, hother⟩ := hlookup
    obtain ⟨hopen', howns, haddr⟩ := h.named path s' hold
    have hs : s' ≠ s := by
      rintro rfl
      refine hother ⟨rfl, ?_⟩
      show (if (net.state s').ownsBinding then (net.state s').boundAddr else none) = some ⟨path⟩
      rw [if_pos howns, haddr]
    simpa [setHandles, hs] using ⟨hopen', howns, haddr⟩
  found s' howns := by
    have hs : s' ≠ s := by
      rintro rfl
      simp [UnixState.detached] at howns
    rw [closed_state, update_of_ne hs] at howns ⊢
    obtain ⟨addr, haddr, hlookup⟩ := h.found s' howns
    refine ⟨addr, haddr, ?_⟩
    rw [closed_registry, unregistered_lookup]
    exact ⟨hlookup, fun hself => hs hself.1⟩

lemma bound {addr : UnixAddr} (hopen : 0 < net.handleRefs s)
    (hname : addr.path.isEmpty = false) (hfree : net.registry.lookup addr.path = none)
    (hfirst : (net.state s).ownsBinding = false) :
    Booked (net.bound s addr) where
  wired := h.wired.bound (h.wired.lt_of_open hopen) addr
  backlogged := h.backlogged.of_effect h.wired (.bind hopen hname hfree)
  named path s' hlookup := by
    by_cases hpath : path = addr.path
    · subst hpath
      have hs : s = s' := by simpa [Net.bound] using hlookup
      subst hs
      simpa [Net.bound, Net.setState] using hopen
    have hold : net.registry.lookup path = some s' := by
      simpa [Net.bound, lookup_insert_ne hpath] using hlookup
    obtain ⟨hopen', howns, haddr⟩ := h.named path s' hold
    have hs : s' ≠ s := by
      rintro rfl
      rw [hfirst] at howns
      cases howns
    simpa [Net.bound, Net.setState, hs] using ⟨hopen', howns, haddr⟩
  found s' howns := by
    by_cases hs : s' = s
    · subst hs
      exact ⟨addr, by simp [Net.bound, Net.setState], by simp [Net.bound]⟩
    have howns' : (net.state s').ownsBinding = true := by
      simpa [Net.bound, Net.setState, hs] using howns
    obtain ⟨addr', haddr, hlookup⟩ := h.found s' howns'
    have hpath : addr'.path ≠ addr.path := by
      intro hpath
      rw [hpath, hfree] at hlookup
      cases hlookup
    refine ⟨addr', by simpa [Net.bound, Net.setState, hs] using haddr, ?_⟩
    rwa [Net.bound, lookup_insert_ne hpath]

lemma of_effect {e : Event F} (he : Effect net e net') (hok : BindsOnce net e) :
    Booked net' := by
  have hwired := h.wired.of_effect he
  have hbacklogged := h.backlogged.of_effect h.wired he
  cases he with
  | none => exact h
  | socket sockType =>
    refine h.grown hwired hbacklogged rfl (fun s hs => ?_) fun s hs => ?_
    · simp [Net.addState, Nat.ne_of_lt hs]
    · rw [net.addState_state]
      split
      · rfl
      · rw [(h.wired.fresh s hs).1]
        rfl
  | streamPair =>
    refine h.grown hwired hbacklogged rfl (fun s => net.streamPair_state_of_lt) fun s hs => ?_
    rw [net.streamPair_state, (h.wired.fresh s hs).1]
    split
    · rfl
    split
    · rfl
    · rfl
  | dgramPair =>
    refine h.grown hwired hbacklogged rfl (fun s => net.dgramPair_state_of_lt) fun s hs => ?_
    rw [net.dgramPair_state, (h.wired.fresh s hs).1]
    split
    · rfl
    split
    · rfl
    · rfl
  | dup hopen =>
    exact h.puts (net.puts_setHandles (h.wired.lt_of_open hopen) _) hwired hbacklogged rfl rfl rfl
      fun _ => Nat.succ_pos _
  | drop hopen =>
    exact h.puts (net.puts_setHandles (h.wired.lt_of_open (by omega)) _) hwired hbacklogged rfl rfl
      rfl fun _ => by omega
  | close hlast => exact h.closed hlast
  | @bind s addr hopen hname hfree =>
    have hfirst : (net.state s).ownsBinding = false := by
      by_contra howns
      simpa [hname, hfree] using hok hopen (by simpa using howns)
    exact h.bound hopen hname hfree hfirst
  | listen hopen htype hrole =>
    exact h.puts (net.puts_setState (h.wired.lt_of_open hopen) _) hwired hbacklogged rfl rfl rfl id
  | @connect s listener addr cred hopen htype hrole hlookup hlisten =>
    have hnew : listener ≠ net.states := Nat.ne_of_lt (h.wired.lt_of_role (by simp [hlisten]))
    have hqueued : Booked (net.queued listener cred) := by
      refine h.of_same (h.wired.queued (h.wired.lt_of_role (by simp [hlisten])) cred)
        (h.backlogged.queued h.wired hlisten cred) rfl (fun s' hs' => ?_) fun s' hs' => ?_
      · have hopen' := h.owner_open hs'
        have hne : s' ≠ net.states := Nat.ne_of_lt (h.wired.lt_of_open hopen')
        rw [net.queued_state hnew, net.queued_handleRefs, update_of_ne hne]
        refine ⟨hopen', ?_⟩
        split
        · exact ⟨hs', rfl⟩
        · exact ⟨hs', rfl⟩
      · rw [net.queued_state hnew] at hs'
        split at hs'
        · exact hs'
        split at hs'
        · cases hs'
        · exact hs'
    have hs := Nat.lt_succ_of_lt (h.wired.lt_of_open hopen)
    exact hqueued.puts (puts_setState _ hs _) hwired hbacklogged rfl rfl rfl id
  | @accept s pending rest hopen hrole hbacklog =>
    have hself := (h.wired.pending s pending (hbacklog ▸ List.mem_cons_self)).1
    have hidle := h.backlogged.idle s pending.state (by simp [Net.Queues, hbacklog])
    refine h.of_same hwired hbacklogged rfl (fun s' hs' => ?_) fun s' hs' => ?_
    · have hne : s' ≠ pending.state := by
        rintro rfl
        rw [hidle.2] at hs'
        cases hs'
      rw [net.accepted_state hself, net.accepted_handleRefs, update_of_ne hne]
      refine ⟨h.owner_open hs', ?_⟩
      split
      · exact ⟨hs', rfl⟩
      · exact ⟨hs', rfl⟩
    · rw [net.accepted_state hself] at hs'
      split at hs'
      · exact hs'
      split at hs'
      · exact hs'
      · exact hs'
  | queue he htype messages =>
    exact h.puts (net.puts_setState (h.wired.lt_of_dgram htype) _) hwired hbacklogged rfl rfl rfl id
  | channels he conn haged =>
    exact h.of_same hwired hbacklogged rfl (fun s hs => ⟨h.owner_open hs, hs, rfl⟩) fun _ hs => hs

end

end Booked

/-- A second binding leaves the first name in the registry. -/
lemma not_registered_bound (h : Booked net) {s : Nat} {addr : UnixAddr}
    (hfree : net.registry.lookup addr.path = none) (howns : (net.state s).ownsBinding = true) :
    ¬ Registered (net.bound s addr) := by
  intro hregistered
  obtain ⟨first, -, hlookup⟩ := h.found s howns
  have hpath : first.path ≠ addr.path := by
    intro hpath
    rw [hpath, hfree] at hlookup
    cases hlookup
  have hstill : (net.bound s addr).registry.lookup first.path = some s := by
    rwa [Net.bound, lookup_insert_ne hpath]
  have haddr := (hregistered.named first.path s hstill).2
  have hsame : addr = ⟨first.path⟩ := by simpa [Net.bound, Net.setState] using haddr
  exact hpath (congrArg UnixAddr.path hsame).symm

lemma registered_step_iff (h : Booked net) (e : Event F) :
    Registered (step net e) ↔ BindsOnce net e := by
  constructor
  · intro hregistered
    cases e with
    | bind s addr =>
      intro hopen howns
      by_contra hgoes
      rw [not_or] at hgoes
      have hfree : net.registry.lookup addr.path = none := by simpa using hgoes.2
      have hstep : step net (.bind s addr) = net.bound s addr := by
        rw [step, if_pos (by simpa [Event.handle] using hopen), Event.leave,
          leave_of_run (bind_run addr), if_neg hgoes.1, if_neg hgoes.2]
      rw [hstep] at hregistered
      exact not_registered_bound h hfree howns hregistered
    | _ => trivial
  · intro hok
    exact (h.of_effect (.ofStep h.wired e) hok).registered

/-- A run has the registry name exactly the open bound sockets throughout if and only if no socket
is bound a second time while it has a binding. -/
theorem registered_iff_bindsOnce (events : List (Event F)) :
    Machine.Always step Registered empty events ↔
      Machine.Meets step BindsOnce empty events := by
  refine Machine.always_iff_meets_of_inv (fun net h => h.registered) (fun net e h => ?_)
    Booked.empty events
  exact ⟨registered_step_iff h e, fun hok => h.of_effect (.ofStep h.wired e) hok⟩

/-- After a second binding and the end of the socket, the first name is still there. -/
theorem second_bind_stays :
    let net := run (empty : Net Unit) [.socket .stream, .bind 0 ⟨"/a"⟩, .bind 0 ⟨"/b"⟩, .drop 0]
    net.registry.lookup "/a" = some 0 ∧ net.handleRefs 0 = 0 ∧ ¬ Registered net := by
  intro net
  have hlookup : net.registry.lookup "/a" = some 0 := by decide
  have hclosed : net.handleRefs 0 = 0 := by decide
  exact ⟨hlookup, hclosed, fun h => h.gone 0 hclosed "/a" hlookup⟩

end Twilight.Unix

/-
The ports of AF_INET sockets. `bind` enters a port into `GLOBAL_PORT_MAP` before the socket takes it,
and nothing ever takes a port out of the map.
-/
import Mathlib.Logic.Function.Basic
import Twilight.Lib.Machine

namespace Twilight.Inet

open Function

inductive Kind
  | tcp
  | udp
  | unix
deriving DecidableEq

/-- A socket in the descriptor table of process `pid`. -/
structure Socket where
  kind : Kind
  pid : Nat
  boundPort : Option UInt16
deriving DecidableEq

/-- The open sockets by their numbers, of which `made` are given out, and `GLOBAL_PORT_MAP`. -/
structure Net where
  sockets : Nat → Option Socket
  made : Nat
  portMap : UInt16 → Option Nat

/-- What `bind` makes of its pointer and length: an error, an address for AF_UNIX, whose answer has
nothing to do with ports, or a port. -/
inductive Address
  | refused (errno : Int)
  | unix (answer : Int)
  | inet (port : UInt16)
deriving DecidableEq

namespace Net

def empty : Net := ⟨fun _ => none, 0, fun _ => none⟩

variable (net : Net)

def socket (pid : Nat) (kind : Kind) : Net :=
  { net with
    sockets := update net.sockets net.made (some ⟨kind, pid, none⟩)
    made := net.made + 1 }

/-- The port that is asked for, or `random_ephemeral_port` from `rng`. -/
def choosePort (port rng : UInt16) : UInt16 := if port = 0 then 49152 + rng % 16384 else port

/-- `SocketFile::bind`. The socket of a UDP socket takes every port but 0. -/
def takePort (sock : Socket) (port : UInt16) : Option Socket :=
  match sock.kind with
  | .unix => none
  | _ => some { sock with boundPort := some port }

def bind (s : Nat) (addr : Address) (rng : UInt16) : Int × Net :=
  match net.sockets s, addr with
  | none, _ => (-9, net)
  | some _, .refused errno => (-errno, net)
  | some _, .unix answer => (answer, net)
  | some sock, .inet asked =>
    let port := choosePort asked rng
    if (net.portMap port).isSome then (-1, net)
    else
      let net := { net with portMap := update net.portMap port (some sock.pid) }
      match takePort sock port with
      | some bound => (0, { net with sockets := update net.sockets s (some bound) })
      | none => (-98, net)

/-- Sockets are dropped; neither `close` nor `drop` looks at the map. -/
def dropped (gone : Nat → Socket → Bool) : Net :=
  { net with sockets := fun s => (net.sockets s).filter fun sock => !gone s sock }

def close (s : Nat) : Net := net.dropped fun s' _ => s' = s

def exit (pid : Nat) : Net := net.dropped fun _ sock => sock.pid = pid

/-- The open AF_INET socket `s` is bound to `port`. -/
def Holds (s : Nat) (port : UInt16) : Prop :=
  ∃ sock, net.sockets s = some sock ∧ sock.kind ≠ .unix ∧ sock.boundPort = some port

end Net

inductive Event
  | socket (pid : Nat) (kind : Kind)
  | bind (s : Nat) (addr : Address) (rng : UInt16)
  | close (s : Nat)
  | exit (pid : Nat)

variable (net : Net)

def step : Event → Net
  | .socket pid kind => net.socket pid kind
  | .bind s addr rng => (net.bind s addr rng).2
  | .close s => net.close s
  | .exit pid => net.exit pid

def Exact : Prop := ∀ port, (net.portMap port).isSome = true ↔ ∃ s, net.Holds s port

/-- A `bind` that finds its port free is of an AF_INET socket without a port, and only sockets
without a port go. -/
def SparesPorts : Event → Prop
  | .socket _ _ => True
  | .bind s (.inet asked) rng => ∀ sock, net.sockets s = some sock →
    net.portMap (Net.choosePort asked rng) = none → sock.kind ≠ .unix ∧ sock.boundPort = none
  | .bind _ _ _ => True
  | .close s => ∀ port, ¬ net.Holds s port
  | .exit pid => ∀ s sock port, net.sockets s = some sock → sock.pid = pid → ¬ net.Holds s port

structure Booked (net : Net) : Prop where
  exact : Exact net
  single : ∀ s s' port, net.Holds s port → net.Holds s' port → s = s'
  fresh : ∀ s, net.made ≤ s → net.sockets s = none

namespace Booked

variable {net : Net}

lemma empty : Booked Net.empty := ⟨fun _ => ⟨nofun, nofun⟩, nofun, fun _ _ => rfl⟩

lemma socket (h : Booked net) (pid : Nat) (kind : Kind) : Booked (net.socket pid kind) := by
  have hsame : ∀ s port, (net.socket pid kind).Holds s port ↔ net.Holds s port := by
    intro s port
    by_cases hs : s = net.made
    · subst hs
      simp [Net.Holds, Net.socket, h.fresh net.made (Nat.le_refl _)]
    · simp [Net.Holds, Net.socket, hs]
  refine ⟨fun port => ?_, fun s s' port => ?_, fun s hs => ?_⟩
  · simp only [hsame]
    exact h.exact port
  · simp only [hsame]
    exact h.single s s' port
  · have hmade : net.made + 1 ≤ s := hs
    have hne : s ≠ net.made := by omega
    simpa [Net.socket, hne] using h.fresh s (by omega)

lemma dropped_iff (h : Booked net) (gone : Nat → Socket → Bool) :
    (Exact (net.dropped gone) ↔
      ∀ s sock port, net.sockets s = some sock → gone s sock = true → ¬ net.Holds s port) ∧
    (Exact (net.dropped gone) → Booked (net.dropped gone)) := by
  have hsub : ∀ {s port}, (net.dropped gone).Holds s port → net.Holds s port ∧
      ∀ sock, net.sockets s = some sock → gone s sock = false := by
    rintro s port ⟨sock, hsock, hkind, hport⟩
    obtain ⟨hsock, hstays⟩ := Option.filter_eq_some_iff.mp hsock
    refine ⟨⟨sock, hsock, hkind, hport⟩, fun sock' hsock' => ?_⟩
    rw [hsock, Option.some.injEq] at hsock'
    simpa [← hsock'] using hstays
  have hstays : ∀ {s port}, net.Holds s port →
      (∀ sock, net.sockets s = some sock → gone s sock = false) →
        (net.dropped gone).Holds s port := by
    rintro s port ⟨sock, hsock, hrest⟩ hstays
    exact ⟨sock, Option.filter_eq_some_iff.mpr ⟨hsock, by simp [hstays sock hsock]⟩, hrest⟩
  refine ⟨⟨fun hexact s sock port hsock hgone hholds => ?_, fun hspared port => ?_⟩, fun hexact => ?_⟩
  · obtain ⟨s', hs'⟩ := (hexact port).mp ((h.exact port).mpr ⟨s, hholds⟩)
    obtain ⟨hholds', hkept⟩ := hsub hs'
    obtain rfl := h.single s s' port hholds hholds'
    exact absurd (hkept sock hsock) (by simp [hgone])
  · refine (h.exact port).trans ⟨fun ⟨s, hs⟩ => ⟨s, hstays hs fun sock hsock => ?_⟩,
      fun ⟨s, hs⟩ => ⟨s, (hsub hs).1⟩⟩
    by_contra hgone
    exact hspared s sock port hsock (by simpa using hgone) hs
  · refine ⟨hexact, fun s s' port hs hs' => h.single s s' port (hsub hs).1 (hsub hs').1,
      fun s hs => ?_⟩
    show (net.sockets s).filter _ = none
    rw [h.fresh s hs]
    rfl

section Bind

variable {s : Nat} {sock : Socket} {port : UInt16}

lemma not_exact_entered (h : Booked net) (hfree : net.portMap port = none) :
    ¬ Exact { net with portMap := update net.portMap port (some sock.pid) } := by
  intro hexact
  have hused := (hexact port).mp (by simp)
  exact absurd ((h.exact port).mpr hused) (by simp [hfree])

lemma bound_iff (h : Booked net) (hsock : net.sockets s = some sock) (hkind : sock.kind ≠ .unix)
    (hfree : net.portMap port = none) :
    let net' : Net :=
      { net with
        portMap := update net.portMap port (some sock.pid)
        sockets := update net.sockets s (some { sock with boundPort := some port }) }
    (Exact net' ↔ sock.boundPort = none) ∧ (sock.boundPort = none → Booked net') := by
  intro net'
  have hother : ∀ {s' q}, s' ≠ s → (net'.Holds s' q ↔ net.Holds s' q) := by
    intro s' q hne
    simp [net', Net.Holds, hne]
  have hself : ∀ {q}, net'.Holds s q ↔ q = port := by
    simp [net', Net.Holds, hkind, @eq_comm _ port]
  have hnobody : ∀ s', ¬ net.Holds s' port := by
    intro s' hs'
    exact absurd ((h.exact port).mpr ⟨s', hs'⟩) (by simp [hfree])
  have hunbound : sock.boundPort = none → ∀ q, ¬ net.Holds s q := by
    rintro hnone q ⟨sock', hsock', -, hq⟩
    rw [hsock, Option.some.injEq] at hsock'
    rw [← hsock', hnone] at hq
    cases hq
  have hexact' : sock.boundPort = none → Exact net' := by
    intro hnone q
    by_cases hq : q = port
    · rw [hq]
      exact iff_of_true (by simp [net']) ⟨s, hself.mpr rfl⟩
    have hmap : net'.portMap q = net.portMap q := by simp [net', hq]
    rw [hmap, h.exact q]
    constructor
    · rintro ⟨s', hs'⟩
      have hne : s' ≠ s := fun heq => hunbound hnone q (heq ▸ hs')
      exact ⟨s', (hother hne).mpr hs'⟩
    · rintro ⟨s', hs'⟩
      have hne : s' ≠ s := by
        rintro rfl
        exact hq (hself.mp hs')
      exact ⟨s', (hother hne).mp hs'⟩
  refine ⟨⟨fun hexact => ?_, hexact'⟩, fun hnone => ⟨hexact' hnone, fun a b q ha hb => ?_, ?_⟩⟩
  · -- an earlier port of the socket is still in the map
    cases hbound : sock.boundPort with
    | none => rfl
    | some q =>
      have hq : net.Holds s q := ⟨sock, hsock, hkind, hbound⟩
      have hne : q ≠ port := fun heq => hnobody s (heq ▸ hq)
      obtain ⟨s', hs'⟩ := (hexact q).mp (by simpa [net', hne] using (h.exact q).mpr ⟨s, hq⟩)
      by_cases hs : s' = s
      · subst hs
        exact absurd (hself.mp hs') hne
      · exact absurd (h.single s' s q ((hother hs).mp hs') hq) hs
  · by_cases has : a = s <;> by_cases hbs : b = s
    · rw [has, hbs]
    · subst has
      exact absurd ((hother hbs).mp hb) (hself.mp ha ▸ hnobody b)
    · subst hbs
      exact absurd ((hother has).mp ha) (hself.mp hb ▸ hnobody a)
    · exact h.single a b q ((hother has).mp ha) ((hother hbs).mp hb)
  · intro s' hs'
    have hne : s' ≠ s := by
      rintro rfl
      rw [h.fresh s' hs'] at hsock
      cases hsock
    simpa [net', hne] using h.fresh s' hs'

end Bind

lemma step_iff (h : Booked net) (e : Event) :
    (Exact (step net e) ↔ SparesPorts net e) ∧ (SparesPorts net e → Booked (step net e)) := by
  have htrue : ∀ {net' : Net}, Booked net' → (Exact net' ↔ True) ∧ (True → Booked net') :=
    fun h => ⟨iff_of_true h.exact trivial, fun _ => h⟩
  cases e with
  | socket pid kind => exact htrue (h.socket pid kind)
  | close s =>
    obtain ⟨hiff, hnext⟩ := h.dropped_iff fun s' _ => s' = s
    have hspares : Exact (net.close s) ↔ SparesPorts net (.close s) := by
      rw [Net.close, hiff]
      constructor
      · rintro hgone port ⟨sock, hsock, hrest⟩
        exact hgone s sock port hsock (by simp) ⟨sock, hsock, hrest⟩
      · intro hspares s' sock port _ hs'
        rw [decide_eq_true_eq] at hs'
        exact hs' ▸ hspares port
    exact ⟨hspares, fun hok => hnext (hspares.mpr hok)⟩
  | exit pid =>
    obtain ⟨hiff, hnext⟩ := h.dropped_iff fun _ sock => sock.pid = pid
    have hspares : Exact (net.exit pid) ↔ SparesPorts net (.exit pid) := by
      rw [Net.exit, hiff]
      simp [SparesPorts]
    exact ⟨hspares, fun hok => hnext (hspares.mpr hok)⟩
  | bind s addr rng =>
    show (Exact (net.bind s addr rng).2 ↔ _) ∧ (_ → Booked (net.bind s addr rng).2)
    cases hsock : net.sockets s with
    | none =>
      have hspares : SparesPorts net (.bind s addr rng) := by
        cases addr with
        | inet asked =>
          intro sock hsock'
          rw [hsock] at hsock'
          cases hsock'
        | _ => trivial
      simp only [Net.bind, hsock]
      exact ⟨iff_of_true h.exact hspares, fun _ => h⟩
    | some sock =>
      cases addr with
      | refused errno =>
        simp only [Net.bind, hsock]
        exact htrue h
      | unix answer =>
        simp only [Net.bind, hsock]
        exact htrue h
      | inet asked =>
        simp only [Net.bind, hsock, SparesPorts, Option.some.injEq, forall_eq']
        cases hport : net.portMap (Net.choosePort asked rng) with
        | some owner => simpa using ⟨h.exact, h⟩
        | none =>
          simp only [true_implies]
          by_cases hkind : sock.kind = .unix
          · simp only [Net.takePort, hkind, ne_eq, not_true_eq_false, false_and, false_implies,
              and_true, iff_false]
            exact h.not_exact_entered hport
          obtain ⟨hiff, hnext⟩ := h.bound_iff hsock hkind hport
          have htake : Net.takePort sock (Net.choosePort asked rng) =
              some { sock with boundPort := some (Net.choosePort asked rng) } := by
            cases hk : sock.kind with
            | unix => exact absurd hk hkind
            | _ => simp [Net.takePort, hk]
          simp only [htake]
          exact ⟨hiff.trans (and_iff_right hkind).symm, fun hok => hnext hok.2⟩

end Booked

/-- In a run the map has exactly the ports in use, in every state, if and only if every step spares
the ports. -/
theorem exact_iff_sparesPorts (events : List Event) :
    Machine.Always step Exact Net.empty events ↔
      Machine.Meets step SparesPorts Net.empty events :=
  Machine.always_iff_meets_of_inv (fun _ h => h.exact) (fun _ e h => h.step_iff e) Booked.empty
    events

/-- A socket is bound to port 80 and closed, and the next one cannot be bound to it. -/
theorem closed_port_stays :
    let net := [.socket 1 .tcp, .bind 0 (.inet 80) 0, .close 0, .socket 1 .tcp].foldl step Net.empty
    (net.bind 1 (.inet 80) 0).1 = -1 ∧ ¬ Exact net := by
  intro net
  refine ⟨by decide, fun h => ?_⟩
  obtain ⟨s, sock, hsock, -, hport⟩ := (h 80).mp (by decide)
  by_cases hs : s = 1
  · have hnew : net.sockets 1 = some ⟨.tcp, 1, none⟩ := by decide
    rw [hs, hnew, Option.some.injEq] at hsock
    rw [← hsock] at hport
    cases hport
  have hnone : net.sockets s = none := by
    by_cases h0 : s = 0
    · rw [h0]
      decide
    · simp [net, step, Net.socket, Net.bind, Net.close, Net.dropped, Net.empty, Net.takePort, hs, h0]
  rw [hnone] at hsock
  cases hsock

end Twilight.Inet

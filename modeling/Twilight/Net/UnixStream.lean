/-
A connected pair of stream sockets. Each end sends into one half of the connection and receives from
the other; calls start, wait and go on in any order, and either end is shut down or closed at any
time. `shutdown` sets the flag of one side of a channel, but a sender looks at the flag of the write
side and a receiver at the flag of the read side.
-/
import Twilight.Net.UnixTurns

namespace Twilight.Unix

open Locked Function List Channel

variable {F : Type}

namespace Stream

/-- Connection `conn` with the sockets at its ends; end `e` sends into half `e`. -/
structure Ends where
  conn : Nat
  sock : Fin 2 → Nat

inductive Waiting (F : Type) where
  | send (e : Fin 2) (data : List UInt8) (rights : List F)
  | recv (e : Fin 2) (len : Nat)

/-- The sockets, the calls that wait, and what is not in the source: which ends have been shut, and
for each half the messages that senders were told are accepted and those that receivers got. -/
structure System (F : Type) where
  net : Net F
  waiting : List (Waiting F)
  shutRead : Fin 2 → Bool
  shutWrite : Fin 2 → Bool
  sent : Fin 2 → List (UnixMessage F)
  got : Fin 2 → List (UnixMessage F)

inductive Move (F : Type) where
  | send (e : Fin 2) (data : List UInt8) (rights : List F) (nonblock signal : Bool)
  | recv (e : Fin 2) (len : Nat) (nonblock signal : Bool)
  | resume (i : Nat) (signal : Bool)
  | shutdown (e : Fin 2) (how : Int)
  | dup (e : Fin 2)
  | drop (e : Fin 2)

namespace System

variable (p : Ends)

/-- What is in the channels has been accepted. -/
def new (net : Net F) : System F where
  net := net
  waiting := []
  shutRead _ := false
  shutWrite _ := false
  sent half := ((net.conn p.conn).channels half).messages
  got _ := []

variable (sys : System F) (e : Fin 2)

/-- A send through `e` has had a turn; one that has nothing to send is accepted without a message. -/
def afterSend (data : List UInt8) (rights : List F) :
    Option (Outcome (Net F) (Option (Except Errno Nat))) → System F
  | some ⟨none, net, _⟩ => { sys with net := net, waiting := sys.waiting ++ [.send e data rights] }
  | some ⟨some (.ok n), net, _⟩ =>
    if data.isEmpty && rights.isEmpty then { sys with net := net }
    else
      { sys with
        net := net
        sent := update sys.sent e (sys.sent e ++ [.new (data.take n) rights none]) }
  | some ⟨some (.error _), net, _⟩ => { sys with net := net }
  | none => sys

/-- A receive through `e` has had a turn; it is from the half that the other end sends into. -/
def afterRecv (len : Nat) :
    Option (Outcome (Net F) (Option (Except Errno (UnixMessage F)))) → System F
  | some ⟨none, net, _⟩ => { sys with net := net, waiting := sys.waiting ++ [.recv e len] }
  | some ⟨some (.ok m), net, _⟩ =>
    { sys with net := net, got := update sys.got e.rev (sys.got e.rev ++ [m]) }
  | some ⟨some (.error _), net, _⟩ => { sys with net := net }
  | none => sys

def resume (signal : Bool) : Waiting F → System F
  | .send e data rights => sys.afterSend e data rights
    ((streamWriteTurn p.conn e data rights false signal).run [] sys.net)
  | .recv e len => sys.afterRecv e len
    ((streamRecvTurn p.conn e.rev len false signal).run [] sys.net)

/-- Everything but the next turn of a call goes through a handle of the end. -/
def step : Move F → System F
  | .send e data rights nonblock signal =>
    if 0 < sys.net.handleRefs (p.sock e) then
      sys.afterSend e data rights
        ((sendMsg (p.sock e) data rights none nonblock signal).run [] sys.net)
    else sys
  | .recv e len nonblock signal =>
    if 0 < sys.net.handleRefs (p.sock e) then
      sys.afterRecv e len ((recvMsg (p.sock e) len nonblock signal).run [] sys.net)
    else sys
  | .resume i signal =>
    match sys.waiting[i]? with
    | some call => { sys with waiting := sys.waiting.eraseIdx i }.resume p signal call
    | none => sys
  | .shutdown e how =>
    if 0 < sys.net.handleRefs (p.sock e) then
      { sys with
        net := (Unix.shutdown (p.sock e) how).leave sys.net
        shutRead := update sys.shutRead e (sys.shutRead e || decide (how = shutRd ∨ how = shutRdWr))
        shutWrite := update sys.shutWrite e
          (sys.shutWrite e || decide (how = shutWr ∨ how = shutRdWr)) }
    else sys
  | .dup e =>
    if 0 < sys.net.handleRefs (p.sock e) then
      { sys with net := (Unix.dup (p.sock e)).leave sys.net }
    else sys
  | .drop e =>
    if 0 < sys.net.handleRefs (p.sock e) then
      { sys with net := (Unix.drop (p.sock e)).leave sys.net }
    else sys

def Closed : Prop := sys.net.handleRefs (p.sock e) = 0

/-- End `e` will not receive any more. -/
def CannotRead : Prop := sys.shutRead e = true ∨ sys.Closed p e

/-- End `e` will not send any more. -/
def CannotWrite : Prop := sys.shutWrite e = true ∨ sys.Closed p e

def channel (half : Fin 2) : Channel F := (sys.net.conn p.conn).channels half

end System

/-! ## What is required of a pair -/

/-- One direction, from end `d` to the other: bytes and descriptors come in order and once, a
descriptor not before the first byte of its message, and the buffer is counted and bounded. A send
fails with `EPIPE` when the other end cannot read any more, and when the sender will not write any
more the other end gets what is left and then nothing, without waiting. -/
structure Fifo (p : Ends) (sys : System F) (d : Fin 2) : Prop where
  bytes : bytesOf (sys.got d) <+: bytesOf (sys.sent d)
  counted : (sys.channel p d).bufferedLen =
    ((sys.channel p d).messages.map fun m => m.data.length).sum
  bounded : (sys.channel p d).bufferedLen ≤ channelCapacity
  rights : rightsOf (sys.got d) <+: rightsOf (sys.sent d)
  first : ∀ before m after, sys.sent d = before ++ m :: after →
    (rightsOf before).length < (rightsOf (sys.got d)).length →
    (bytesOf before).length + min 1 m.data.length ≤ (bytesOf (sys.got d)).length
  broken : sys.CannotRead p d.rev → ∀ data rights signal, (data ≠ [] ∨ rights ≠ []) →
    (0 < sys.net.handleRefs (p.sock d) → ∀ nonblock,
      ((sendMsg (p.sock d) data rights none nonblock signal).run [] sys.net).map Outcome.result =
        some (some (.error .epipe))) ∧
    (.send d data rights ∈ sys.waiting →
      ((streamWriteTurn p.conn d data rights false signal).run [] sys.net).map Outcome.result =
        some (some (.error .epipe)))
  drained : sys.CannotWrite p d →
    (0 < sys.net.handleRefs (p.sock d.rev) → ∀ lens nonblock signal, ∃ messages,
      recvAll (p.sock d.rev) nonblock signal lens sys.net =
        some (messages.map fun m => some (.ok m)) ∧
      bytesOf messages = (bytesOf (sys.channel p d).messages).take lens.sum) ∧
    ∀ len signal, .recv d.rev len ∈ sys.waiting → ∃ m,
      ((streamRecvTurn p.conn d len false signal).run [] sys.net).map Outcome.result =
        some (some (.ok m)) ∧
      m.data = (bytesOf (sys.channel p d).messages).take len

def Fifos (p : Ends) (sys : System F) : Prop := ∀ d, Fifo p sys d

/-- A side is shut down only when one of the ends is closed. -/
def ShutsLate (p : Ends) (sys : System F) : Move F → Prop
  | .shutdown e how => 0 < sys.net.handleRefs (p.sock e) →
    how = shutRd ∨ how = shutWr ∨ how = shutRdWr → ∃ e', sys.Closed p e'
  | _ => True

instance (p : Ends) (sys : System F) : DecidablePred (sys.Closed p) :=
  fun e => inferInstanceAs (Decidable (sys.net.handleRefs (p.sock e) = 0))

instance (p : Ends) (sys : System F) : DecidablePred (sys.CannotWrite p) :=
  fun _ => inferInstanceAs (Decidable (_ ∨ _))

instance (p : Ends) (sys : System F) (move : Move F) : Decidable (ShutsLate p sys move) := by
  cases move <;> unfold ShutsLate <;> infer_instance

/-- A connected pair on which nothing has been shut down, closed or received. -/
structure Connected (p : Ends) (net : Net F) : Prop where
  distinct : p.sock 0 ≠ p.sock 1
  live : ∀ e, 0 < net.handleRefs (p.sock e)
  type : ∀ e, (net.state (p.sock e)).sockType = .stream
  peer : ∀ e, (net.state (p.sock e)).dgramPeer = none
  ends : ∀ e, (net.state (p.sock e)).streamEnds = .ok (p.conn, e.rev, e)
  flags : ∀ half, ((net.conn p.conn).channels half).readClosed = false ∧
    ((net.conn p.conn).channels half).writeClosed = false
  counted : ∀ half, ((net.conn p.conn).channels half).bufferedLen =
    (((net.conn p.conn).channels half).messages.map fun m => m.data.length).sum
  bounded : ∀ half, ((net.conn p.conn).channels half).bufferedLen ≤ channelCapacity

/-! ## What every move keeps -/

variable {net : Net F}

/-- Each side of each channel is closed exactly if an end is, and nothing is shut before. -/
structure Joined (p : Ends) (sys : System F) : Prop where
  distinct : p.sock 0 ≠ p.sock 1
  type : ∀ e, 0 < sys.net.handleRefs (p.sock e) → (sys.net.state (p.sock e)).sockType = .stream
  peer : ∀ e, 0 < sys.net.handleRefs (p.sock e) → (sys.net.state (p.sock e)).dgramPeer = none
  ends : ∀ e, 0 < sys.net.handleRefs (p.sock e) →
    (sys.net.state (p.sock e)).streamEnds = .ok (p.conn, e.rev, e)
  flags : ∀ half, ((sys.channel p half).readClosed = true ↔ ∃ e, sys.Closed p e) ∧
    ((sys.channel p half).writeClosed = true ↔ ∃ e, sys.Closed p e)
  shut : ∀ e, sys.shutRead e = true ∨ sys.shutWrite e = true → ∃ e', sys.Closed p e'
  busy : ∀ e data rights, .send e data rights ∈ sys.waiting → data ≠ [] ∨ rights ≠ []
  counted : ∀ half, (sys.channel p half).bufferedLen =
    ((sys.channel p half).messages.map fun m => m.data.length).sum
  bounded : ∀ half, (sys.channel p half).bufferedLen ≤ channelCapacity
  flow : ∀ half, Flow (sys.sent half) (sys.got half) (sys.channel p half).messages

namespace Joined

variable {p : Ends} {sys sys' : System F}

lemma new (h : Connected p net) : Joined p (System.new p net) := by
  have hlive : ¬ ∃ e, (System.new p net).Closed p e := by
    rintro ⟨e, he⟩
    exact absurd he (Nat.ne_of_gt (h.live e))
  refine ⟨h.distinct, fun e _ => h.type e, fun e _ => h.peer e, fun e _ => h.ends e, fun half => ?_,
    nofun, nofun, h.counted, h.bounded, fun half => .start _⟩
  have hread : ((System.new p net).channel p half).readClosed = false := (h.flags half).1
  have hwrite : ((System.new p net).channel p half).writeClosed = false := (h.flags half).2
  simp [hread, hwrite, hlive]

variable {e : Fin 2}

section

variable (h : Joined p sys)
include h

lemma closed_of_cannotRead (he : sys.CannotRead p e) :
    ∃ e', sys.Closed p e' := by
  obtain hshut | hclosed := he
  · exact h.shut e (Or.inl hshut)
  · exact ⟨e, hclosed⟩

lemma closed_of_cannotWrite (he : sys.CannotWrite p e) :
    ∃ e', sys.Closed p e' := by
  obtain hshut | hclosed := he
  · exact h.shut e (Or.inr hshut)
  · exact ⟨e, hclosed⟩

lemma fifo (d : Fin 2) : Fifo p sys d where
  bytes := (h.flow d).bytes_le
  counted := h.counted d
  bounded := h.bounded d
  rights := (h.flow d).rights_le
  first _ _ _ hsent hlater := (h.flow d).first_byte hsent hlater
  broken hpeer data rights signal hsome := by
    have hclosed : ((sys.net.conn p.conn).channels d).writeClosed = true :=
      (h.flags d).2.mpr (h.closed_of_cannotRead hpeer)
    exact ⟨fun hopen nonblock => send_closed (h.type d hopen) (h.ends d hopen) hclosed hsome
      nonblock signal, fun _ => streamWriteTurn_closed hclosed⟩
  drained hsender := by
    have hclosed : ((sys.net.conn p.conn).channels d).readClosed = true :=
      (h.flags d).1.mpr (h.closed_of_cannotWrite hsender)
    refine ⟨fun hopen lens nonblock signal => ?_, fun len signal _ => ?_⟩
    · have hends := h.ends d.rev hopen
      rw [Fin.rev_rev] at hends
      exact recvAll_closed (h.type d.rev hopen) hends hclosed lens nonblock signal
    · obtain ⟨o, m, hrun, hresult, hdata, -⟩ := streamRecvTurn_closed hclosed len false signal
      exact ⟨m, by rw [hrun, Option.map_some, hresult], hdata⟩

lemma of_traffic (hstate : sys'.net.state = sys.net.state)
    (hrefs : ∀ e, sys'.net.handleRefs (p.sock e) = 0 ↔ sys.net.handleRefs (p.sock e) = 0)
    (hread : ∀ half, (sys'.channel p half).readClosed = (sys.channel p half).readClosed)
    (hwrite : ∀ half, (sys'.channel p half).writeClosed = (sys.channel p half).writeClosed)
    (hshutRead : sys'.shutRead = sys.shutRead) (hshutWrite : sys'.shutWrite = sys.shutWrite)
    (hbusy : ∀ e data rights, .send e data rights ∈ sys'.waiting → data ≠ [] ∨ rights ≠ [])
    (hcounted : ∀ half, (sys'.channel p half).bufferedLen =
      ((sys'.channel p half).messages.map fun m => m.data.length).sum)
    (hbounded : ∀ half, (sys'.channel p half).bufferedLen ≤ channelCapacity)
    (hflow : ∀ half, Flow (sys'.sent half) (sys'.got half) (sys'.channel p half).messages) :
    Joined p sys' := by
  have hclosed : ∀ e, sys'.Closed p e ↔ sys.Closed p e := hrefs
  have hopen : ∀ e, 0 < sys'.net.handleRefs (p.sock e) → 0 < sys.net.handleRefs (p.sock e) := by
    intro e he
    have := hrefs e
    omega
  refine ⟨h.distinct, fun e he => ?_, fun e he => ?_, fun e he => ?_, fun half => ?_,
    fun e => ?_, hbusy, hcounted, hbounded, hflow⟩
  · rw [hstate]
    exact h.type e (hopen e he)
  · rw [hstate]
    exact h.peer e (hopen e he)
  · rw [hstate]
    exact h.ends e (hopen e he)
  · simp only [hread, hwrite, hclosed]
    exact h.flags half
  · simp only [hshutRead, hshutWrite, hclosed]
    exact h.shut e

lemma setWaiting {waiting : List (Waiting F)}
    (hbusy : ∀ e data rights, .send e data rights ∈ waiting → data ≠ [] ∨ rights ≠ []) :
    Joined p { sys with waiting := waiting } :=
  h.of_traffic rfl (fun _ => Iff.rfl) (fun _ => rfl) (fun _ => rfl) rfl rfl hbusy h.counted h.bounded h.flow

lemma wait {call : Waiting F}
    (hcall : ∀ e data rights, call = .send e data rights → data ≠ [] ∨ rights ≠ []) :
    Joined p { sys with waiting := sys.waiting ++ [call] } := by
  refine h.setWaiting fun e data rights hmem => ?_
  obtain hold | hnew := mem_append.mp hmem
  · exact h.busy e data rights hold
  · exact hcall e data rights (mem_singleton.mp hnew).symm

lemma setChannel (half : Fin 2) (ch : Channel F)
    (sent got : List (UnixMessage F)) (hread : ch.readClosed = (sys.channel p half).readClosed)
    (hwrite : ch.writeClosed = (sys.channel p half).writeClosed)
    (hcounted : ch.bufferedLen = (ch.messages.map fun m => m.data.length).sum)
    (hbounded : ch.bufferedLen ≤ channelCapacity) (hflow : Flow sent got ch.messages) :
    Joined p { sys with
      net := sys.net.setChannel p.conn half ch
      sent := update sys.sent half sent
      got := update sys.got half got } := by
  have hch : ∀ half', ({ sys with
      net := sys.net.setChannel p.conn half ch
      sent := update sys.sent half sent
      got := update sys.got half got } : System F).channel p half' =
      if half' = half then ch else sys.channel p half' := by
    intro half'
    have hset := sys.net.setChannel_channel p.conn half ch p.conn half'
    simp only [true_and] at hset
    exact hset
  refine h.of_traffic rfl (fun _ => Iff.rfl) (fun half' => ?_) (fun half' => ?_) rfl rfl h.busy
    (fun half' => ?_) (fun half' => ?_) fun half' => ?_
  · rw [hch]
    split
    · next he => rw [hread, he]
    · rfl
  · rw [hch]
    split
    · next he => rw [hwrite, he]
    · rfl
  · rw [hch]
    split
    · exact hcounted
    · exact h.counted half'
  · rw [hch]
    split
    · exact hbounded
    · exact h.bounded half'
  · rw [hch]
    split
    · next he => simpa [he] using hflow
    · next he => simpa [he] using h.flow half'

lemma afterSend (e : Fin 2) {data : List UInt8} {rights : List F}
    (hsome : data ≠ [] ∨ rights ≠ []) (nonblock signal : Bool) :
    Joined p (sys.afterSend e data rights
      ((streamWriteTurn p.conn e data rights nonblock signal).run [] sys.net)) := by
  have hsome' : ¬ ((data.isEmpty && rights.isEmpty) = true) := by
    simpa [imp_iff_not_or] using hsome
  have hch : (sys.net.conn p.conn).channels e = sys.channel p e := rfl
  rw [streamWriteTurn_run]
  dsimp only
  rw [hch]
  split
  · exact h
  split
  · next n hroom =>
    obtain ⟨hn, hfits⟩ := room_le hroom
    have hlen : (data.take n).length = n := by simpa using hn
    have hbounded := h.bounded e
    have hpushed := h.setChannel e ((sys.channel p e).pushed (data.take n) rights)
      (sys.sent e ++ [.new (data.take n) rights none]) (sys.got e) rfl rfl ?_ ?_ ?_
    · rw [update_eq_self] at hpushed
      simp only [System.afterSend, if_neg hsome']
      exact hpushed
    · simp [Channel.pushed, h.counted e, UnixMessage.new]
    · show (sys.channel p e).bufferedLen + (data.take n).length ≤ channelCapacity
      omega
    · exact (h.flow e).push _
  · unfold idle
    split
    · exact h
    split
    · exact h
    · refine h.wait fun e' data' rights' hcall => ?_
      cases hcall
      exact hsome

lemma afterRecv (e : Fin 2) (len : Nat) (nonblock signal : Bool) :
    Joined p (sys.afterRecv e len
      ((streamRecvTurn p.conn e.rev len nonblock signal).run [] sys.net)) := by
  rw [streamRecvTurn_run]
  dsimp only
  split
  · next hempty =>
    split
    · -- the answer that says the channel is closed
      refine h.of_traffic rfl (fun _ => Iff.rfl) (fun _ => rfl) (fun _ => rfl) rfl rfl h.busy h.counted h.bounded
        fun half => ?_
      show Flow (sys.sent half)
        (update sys.got e.rev (sys.got e.rev ++ [.new [] [] none]) half)
        (sys.channel p half).messages
      by_cases hhalf : half = e.rev
      · subst hhalf
        rw [update_self]
        exact (h.flow e.rev).nothing
      · rw [update_of_ne hhalf]
        exact h.flow half
    · unfold idle
      split
      · exact h
      split
      · exact h
      · exact h.wait nofun
  · have hreceived := h.setChannel e.rev ((sys.channel p e.rev).received len) (sys.sent e.rev)
      (sys.got e.rev ++ [(sys.channel p e.rev).taken len]) rfl rfl ?_ ?_ ?_
    · rw [update_eq_self] at hreceived
      exact hreceived
    · exact received_counted (h.counted e.rev) len
    · exact Nat.le_trans (received_le _ len) (h.bounded e.rev)
    · exact (h.flow e.rev).recv len _ rfl rfl

lemma resume {i : Nat} {call : Waiting F} (hcall : sys.waiting[i]? = some call) (signal : Bool) :
    Joined p ({ sys with waiting := sys.waiting.eraseIdx i }.resume p signal call) := by
  have herased : Joined p { sys with waiting := sys.waiting.eraseIdx i } :=
    h.setWaiting fun e data rights hmem => h.busy e data rights (mem_of_mem_eraseIdx hmem)
  cases call with
  | send e data rights =>
    exact herased.afterSend e (h.busy e data rights (mem_of_getElem? hcall)) false signal
  | recv e len => exact herased.afterRecv e len false signal

section

variable (hopen : 0 < sys.net.handleRefs (p.sock e))
include hopen

lemma send (data : List UInt8) (rights : List F) (nonblock signal : Bool) :
    Joined p (sys.afterSend e data rights
      ((sendMsg (p.sock e) data rights none nonblock signal).run [] sys.net)) := by
  by_cases hsome : data ≠ [] ∨ rights ≠ []
  · rw [sendMsg_stream (h.type e hopen) (h.ends e hopen) hsome]
    exact h.afterSend e hsome nonblock signal
  · obtain ⟨rfl, rfl⟩ : data = [] ∧ rights = [] := by simpa using hsome
    rw [sendMsg_stream_nothing (h.type e hopen)]
    exact h

lemma recv (len : Nat) (nonblock signal : Bool) :
    Joined p (sys.afterRecv e len ((recvMsg (p.sock e) len nonblock signal).run [] sys.net)) := by
  rw [recvMsg_stream (h.type e hopen) (h.ends e hopen)]
  exact h.afterRecv e len nonblock signal

lemma setHandles {refs : Nat} (hrefs : 0 < refs) :
    Joined p { sys with net := sys.net.setHandles (p.sock e) refs } := by
  refine h.of_traffic rfl (fun e' => ?_) (fun _ => rfl) (fun _ => rfl) rfl rfl h.busy h.counted
    h.bounded h.flow
  rw [Net.setHandles_handleRefs]
  split
  · next hs =>
    rw [hs]
    omega
  · exact Iff.rfl

end

lemma of_closing (hcloses : Closes (sys.net.conn p.conn) (sys'.net.conn p.conn))
    (hend : ∃ e, sys'.Closed p e) (hread : ∀ half, (sys'.channel p half).readClosed = true)
    (hwrite : ∀ half, (sys'.channel p half).writeClosed = true)
    (hold : ∀ e, 0 < sys'.net.handleRefs (p.sock e) → 0 < sys.net.handleRefs (p.sock e) ∧
      sys'.net.state (p.sock e) = sys.net.state (p.sock e))
    (hwaiting : sys'.waiting = sys.waiting) (hsent : sys'.sent = sys.sent)
    (hgot : sys'.got = sys.got) : Joined p sys' := by
  have hmessages : ∀ half, (sys'.channel p half).messages = (sys.channel p half).messages :=
    hcloses.messages
  have hbuffered : ∀ half, (sys'.channel p half).bufferedLen = (sys.channel p half).bufferedLen :=
    hcloses.bufferedLen
  refine ⟨h.distinct, fun e he => ?_, fun e he => ?_, fun e he => ?_, fun half => ?_,
    fun _ _ => hend, ?_, fun half => ?_, fun half => ?_, fun half => ?_⟩
  · rw [(hold e he).2]
    exact h.type e (hold e he).1
  · rw [(hold e he).2]
    exact h.peer e (hold e he).1
  · rw [(hold e he).2]
    exact h.ends e (hold e he).1
  · exact ⟨iff_of_true (hread half) hend, iff_of_true (hwrite half) hend⟩
  · rw [hwaiting]
    exact h.busy
  · rw [hbuffered, hmessages]
    exact h.counted half
  · rw [hbuffered]
    exact h.bounded half
  · rw [hsent, hgot, hmessages]
    exact h.flow half

section

variable (hopen : 0 < sys.net.handleRefs (p.sock e))
include hopen

lemma dup : Joined p { sys with net := (Unix.dup (p.sock e)).leave sys.net } :=
  h.setHandles hopen (Nat.succ_pos _)

lemma closed :
    Joined p { sys with net := (sys.net.setHandles (p.sock e) 0).closed (p.sock e) } := by
  obtain ⟨hconn, hreader, hwriter⟩ := conn_of_streamEnds (h.ends e hopen)
  have hrefs : ∀ e', ((sys.net.setHandles (p.sock e) 0).closed (p.sock e)).handleRefs (p.sock e') =
      if p.sock e' = p.sock e then 0 else sys.net.handleRefs (p.sock e') := by
    intro e'
    rw [Net.closed_handleRefs, Net.setHandles_handleRefs]
  have hhalves : (sys.net.state (p.sock e)).readerHalf ≠ (sys.net.state (p.sock e)).writerHalf := by
    rw [hreader, hwriter]
    exact rev_ne e
  have hcloses : Closes (sys.net.conn p.conn)
      (((sys.net.setHandles (p.sock e) 0).closed (p.sock e)).conn p.conn) :=
    .closed (sys.net.setHandles (p.sock e) 0) (p.sock e) p.conn
  have hall : (((sys.net.setHandles (p.sock e) 0).closed (p.sock e)).conn p.conn).Closed :=
    closed_conn_self hconn hhalves
  refine h.of_closing hcloses ⟨e, ?_⟩ (fun half => (hall half).1) (fun half => (hall half).2)
    (fun e' he' => ?_) rfl rfl rfl
  · rw [System.Closed, hrefs, if_pos rfl]
  rw [hrefs] at he'
  split at he'
  · exact absurd he' (Nat.lt_irrefl 0)
  · next hne =>
    refine ⟨he', ?_⟩
    rw [Net.closed_state]
    exact update_of_ne hne _ _

lemma drop :
    Joined p { sys with net := (Unix.drop (p.sock e)).leave sys.net } := by
  have hpeer : ∀ q, (sys.net.state (p.sock e)).dgramPeer = some q →
      q ≠ p.sock e ∧ Lock.state q ∉ [] := by
    intro q hq
    rw [h.peer e hopen] at hq
    cases hq
  rw [leave_of_run (drop_run not_mem_nil hpeer not_mem_nil fun _ _ => not_mem_nil)]
  by_cases hlast : sys.net.handleRefs (p.sock e) = 1
  · rw [if_pos hlast]
    exact h.closed hopen
  · rw [if_neg hlast]
    exact h.setHandles hopen (by omega)

lemma shutdown
    (how : Int) (hlate : how = shutRd ∨ how = shutWr ∨ how = shutRdWr → ∃ e', sys.Closed p e') :
    Joined p (sys.step p (.shutdown e how)) := by
  rw [System.step, if_pos hopen, shutdown_leave (h.type e hopen) (h.ends e hopen)]
  by_cases hhow : how = shutRd ∨ how = shutWr ∨ how = shutRdWr
  · obtain ⟨hstate, hrefs⟩ := shut_frame sys.net p.conn e.rev e how
    have hcloses := Closes.shut sys.net p.conn e.rev e how p.conn
    obtain ⟨e₀, he₀⟩ := hlate hhow
    refine h.of_closing hcloses ⟨e₀, ?_⟩ (fun half => ?_) (fun half => ?_) (fun e' he' => ?_)
      rfl rfl rfl
    · rw [System.Closed, hrefs]
      exact he₀
    · exact hcloses.readClosed half ((h.flags half).1.mpr ⟨e₀, he₀⟩)
    · exact hcloses.writeClosed half ((h.flags half).2.mpr ⟨e₀, he₀⟩)
    · rw [hrefs] at he'
      exact ⟨he', by rw [hstate]⟩
  · obtain ⟨hrd, hwr, hrdwr⟩ : how ≠ shutRd ∧ how ≠ shutWr ∧ how ≠ shutRdWr := by
      simpa only [not_or] using hhow
    have hnet : (sys.net.shut p.conn e.rev e how).1 = sys.net := by
      simp [Net.shut, hrd, hwr, hrdwr]
    simpa [hnet, hrd, hwr, hrdwr] using h

end

lemma step (move : Move F) (hlate : ShutsLate p sys move) :
    Joined p (sys.step p move) := by
  cases move with
  | send e data rights nonblock signal =>
    rw [System.step]
    split
    · next hopen => exact h.send hopen data rights nonblock signal
    · exact h
  | recv e len nonblock signal =>
    rw [System.step]
    split
    · next hopen => exact h.recv hopen len nonblock signal
    · exact h
  | resume i signal =>
    rw [System.step]
    split
    · next call hcall => exact h.resume hcall signal
    · exact h
  | shutdown e how =>
    by_cases hopen : 0 < sys.net.handleRefs (p.sock e)
    · exact h.shutdown hopen how (hlate hopen)
    · rw [System.step, if_neg hopen]
      exact h
  | dup e =>
    rw [System.step]
    split
    · next hopen => exact h.dup hopen
    · exact h
  | drop e =>
    rw [System.step]
    split
    · next hopen => exact h.drop hopen
    · exact h

end

end Joined

lemma not_fifos_of_shutdown {p : Ends} {sys : System F} (h : Joined p sys) {e : Fin 2} {how : Int}
    (hhow : how = shutRd ∨ how = shutWr ∨ how = shutRdWr) (hopen : ¬ ∃ e', sys.Closed p e') :
    ¬ Fifos p (sys.step p (.shutdown e how)) := by
  intro hfifos
  have hlive : ∀ e', 0 < sys.net.handleRefs (p.sock e') := by
    intro e'
    exact Nat.pos_of_ne_zero fun hzero => hopen ⟨e', hzero⟩
  obtain ⟨hstate, hrefs⟩ := shut_frame sys.net p.conn e.rev e how
  obtain ⟨hwrite, hread⟩ := shut_flags sys.net p.conn e how
  have hwrite' : (sys.channel p e.rev).writeClosed = false := by
    simpa [hopen] using (h.flags e.rev).2
  have hread' : (sys.channel p e).readClosed = false := by
    simpa [hopen] using (h.flags e).1
  rw [System.step, if_pos (hlive e), shutdown_leave (h.type e (hlive e)) (h.ends e (hlive e))]
    at hfifos
  have htype := h.type e.rev (hlive e.rev)
  have hends := h.ends e.rev (hlive e.rev)
  rw [← hstate] at htype hends
  by_cases hrd : how = shutRd ∨ how = shutRdWr
  · -- the other end sends a byte
    have hcannot : update sys.shutRead e (sys.shutRead e || decide (how = shutRd ∨
        how = shutRdWr)) e.rev.rev = true := by simp [hrd]
    have hbyte : ([0] : List UInt8) ≠ [] ∨ ([] : List F) ≠ [] := Or.inl nofun
    have hepipe := ((hfifos e.rev).broken (Or.inl hcannot) [0] [] false hbyte).1
      (hrefs ▸ hlive e.rev) true
    rw [sendMsg_stream htype hends hbyte] at hepipe
    exact streamWriteTurn_not_epipe (hwrite.trans hwrite') hepipe
  · -- the other end receives until there is nothing left
    have hwr : how = shutWr ∨ how = shutRdWr := by
      obtain hrd' | hwr | hrdwr := hhow
      · exact absurd (Or.inl hrd') hrd
      · exact Or.inl hwr
      · exact Or.inr hrdwr
    have hcannot : update sys.shutWrite e (sys.shutWrite e || decide (how = shutWr ∨
        how = shutRdWr)) e = true := by simp [hwr]
    rw [Fin.rev_rev] at hends
    obtain ⟨lens, answers, hanswers, heagain⟩ :=
      exists_recvAll_eagain htype hends (hread.trans hread') false
    obtain ⟨messages, hall, -⟩ :=
      ((hfifos e).drained (Or.inl hcannot)).1 (hrefs ▸ hlive e.rev) lens true false
    obtain rfl := Option.some.inj (hanswers.symm.trans hall)
    simp at heagain

/-- A connected pair is two bounded queues throughout a run if and only if no side of it is shut
down before one of the ends is closed. -/
theorem fifos_iff_shutsLate {p : Ends} (h : Connected p net) (moves : List (Move F)) :
    Machine.Always (System.step p) (Fifos p) (System.new p net) moves ↔
      Machine.Meets (System.step p) (ShutsLate p) (System.new p net) moves := by
  refine Machine.always_iff_meets_of_inv (fun sys h => h.fifo) (fun sys move h => ?_)
    (Joined.new h) moves
  refine ⟨⟨fun hfifos => ?_, fun hlate => (h.step move hlate).fifo⟩, h.step move⟩
  cases move with
  | shutdown e how =>
    intro hopen hhow
    by_contra hlive
    exact not_fifos_of_shutdown h hhow hlive hfifos
  | _ => trivial

lemma connected_streamPair (net : Net F) :
    Connected ⟨net.conns, fun e => net.states + e⟩ net.streamPair := by
  have hstate : ∀ e : Fin 2, net.streamPair.state (net.states + e) = .ofConn net.conns e.rev e := by
    intro e
    rw [net.streamPair_state]
    obtain rfl | rfl : e = 0 ∨ e = 1 := by omega
    · simp
    · simp
  have hconn : net.streamPair.conn net.conns = .new := update_self _ _ _
  refine ⟨by simp, fun e => ?_, fun e => ?_, fun e => ?_, fun e => ?_, fun half => ?_,
    fun half => ?_, fun half => ?_⟩
  · rw [net.streamPair_handleRefs]
    obtain rfl | rfl : e = 0 ∨ e = 1 := by omega
    · simp
    · simp
  · rw [hstate]
    rfl
  · rw [hstate]
    rfl
  · rw [hstate]
    rfl
  · rw [hconn]
    exact ⟨rfl, rfl⟩
  · rw [hconn]
    rfl
  · rw [hconn]
    exact Nat.zero_le _

def newPair : Ends := ⟨0, fun e => 0 + e⟩

lemma newPair_connected : Connected newPair (run Net.empty [.pair .stream] : Net Nat) :=
  connected_streamPair Net.empty

/-- Three bytes with a descriptor, read in two parts after the sender is closed. -/
theorem fifos_newPair :
    Machine.Always (System.step newPair) (Fifos newPair)
      (System.new newPair (run Net.empty [.pair .stream] : Net Nat))
      [.send 0 [1, 2, 3] [7] false false, .drop 0, .shutdown 1 shutWr, .recv 1 2 false false,
        .recv 1 2 false false, .recv 1 2 false false] :=
  (fifos_iff_shutsLate newPair_connected _).mpr (by decide)

/-- The writer shuts its side, and the reader of the empty channel is told to try again. -/
theorem shutWr_eagain :
    let sys := System.step newPair (System.new newPair (run Net.empty [.pair .stream] : Net Nat))
      (.shutdown 0 shutWr)
    sys.CannotWrite newPair 0 ∧
      ((recvMsg 1 1 true false).run [] sys.net).map Outcome.result =
        some (some (.error .eagain)) ∧ ¬ Fifos newPair sys := by
  refine ⟨by decide, by decide, ?_⟩
  exact not_fifos_of_shutdown (Joined.new newPair_connected) (Or.inr (Or.inl rfl)) (by decide)

end Stream

end Twilight.Unix

/-
The calls on a connected stream socket, once it is known to be one: which half of the connection they
go to, what they answer when a side of it is closed, and how the sides are closed.
-/
import Twilight.Net.UnixFlow
import Twilight.Net.UnixPeers

namespace Twilight.Unix

open Locked Net

variable {F : Type}

namespace Stream

/-! ## Turns of a call -/

variable {net : Net F} {s : Nat} {c : Nat} {readerHalf writerHalf : Fin 2}

section

variable (htype : (net.state s).sockType = .stream)
include htype

lemma sendMsg_stream
    (hends : (net.state s).streamEnds = .ok (c, readerHalf, writerHalf)) {data : List UInt8}
    {rights : List F} (hsome : data ≠ [] ∨ rights ≠ []) (nonblock signal : Bool) :
    (sendMsg s data rights none nonblock signal).run [] net =
      (streamWriteTurn c writerHalf data rights nonblock signal).run [] net := by
  have hsome' : (data.isEmpty && rights.isEmpty) = false := by
    simpa [imp_iff_not_or] using hsome
  rw [sendMsg, bind_of_look (look_run s fun net => (net.state s).sockType), htype, if_neg (by simp),
    streamWrite, hsome', if_neg (by simp), bind_of_look streamEnter_run, hends]

lemma sendMsg_stream_nothing (nonblock signal : Bool) :
    (sendMsg s [] ([] : List F) none nonblock signal).run [] net =
      some ⟨some (.ok 0), net, []⟩ := by
  rw [sendMsg, bind_of_look (look_run s fun net => (net.state s).sockType), htype]
  rfl

lemma recvMsg_stream
    (hends : (net.state s).streamEnds = .ok (c, readerHalf, writerHalf)) (len : Nat)
    (nonblock signal : Bool) :
    (recvMsg s len nonblock signal).run [] net =
      (streamRecvTurn c readerHalf len nonblock signal).run [] net := by
  rw [recvMsg, bind_of_look (look_run s fun net => (net.state s).sockType), htype, if_neg (by simp),
    streamRecv, bind_of_look streamEnter_run, hends]

end

lemma conn_of_streamEnds {st : UnixState F} {c : Nat} {readerHalf writerHalf : Fin 2}
    (h : st.streamEnds = .ok (c, readerHalf, writerHalf)) :
    st.conn = some c ∧ st.readerHalf = readerHalf ∧ st.writerHalf = writerHalf := by
  unfold UnixState.streamEnds at h
  split at h
  · next c' hc' =>
    split at h
    · cases h
      exact ⟨hc', rfl, rfl⟩
    · cases h
  · cases h

lemma rev_ne (e : Fin 2) : e.rev ≠ e := by
  intro h
  have := congrArg Fin.val h
  rw [Fin.val_rev] at this
  omega

lemma shutdown_leave (htype : (net.state s).sockType = .stream)
    (hends : (net.state s).streamEnds = .ok (c, readerHalf, writerHalf)) (how : Int) :
    (Unix.shutdown s how).leave net = (net.shut c readerHalf writerHalf how).1 := by
  obtain ⟨hconn, rfl, rfl⟩ := conn_of_streamEnds hends
  rw [leave_of_run (shutdown_run how)]
  simp [hconn, htype]

lemma shut_frame (net : Net F) (c : Nat) (readerHalf writerHalf : Fin 2) (how : Int) :
    (net.shut c readerHalf writerHalf how).1.state = net.state ∧
      (net.shut c readerHalf writerHalf how).1.handleRefs = net.handleRefs := by
  unfold Net.shut
  split
  · exact ⟨rfl, rfl⟩
  split
  · exact ⟨rfl, rfl⟩
  split
  · exact ⟨rfl, rfl⟩
  · exact ⟨rfl, rfl⟩

lemma shut_flags (net : Net F) (c : Nat) (e : Fin 2) (how : Int) :
    (((net.shut c e.rev e how).1.conn c).channels e.rev).writeClosed =
        ((net.conn c).channels e.rev).writeClosed ∧
      (((net.shut c e.rev e how).1.conn c).channels e).readClosed =
        ((net.conn c).channels e).readClosed := by
  have hne := rev_ne e
  unfold Net.shut
  split
  · simp [shutRead_channel, hne.symm]
  split
  · simp [shutWrite_channel, hne]
  split
  · simp [shutRead_channel, shutWrite_channel, hne, hne.symm]
  · exact ⟨rfl, rfl⟩

section

variable {half : Fin 2} {data : List UInt8} {rights : List F} {nonblock signal : Bool}

lemma streamWriteTurn_closed (hclosed : ((net.conn c).channels half).writeClosed = true) :
    ((streamWriteTurn c half data rights nonblock signal).run [] net).map Outcome.result =
      some (some (.error .epipe)) := by
  rw [streamWriteTurn_run, if_pos hclosed]
  rfl

lemma streamWriteTurn_not_epipe (hopen : ((net.conn c).channels half).writeClosed = false) :
    ((streamWriteTurn c half data rights nonblock signal).run [] net).map Outcome.result ≠
      some (some (.error .epipe)) := by
  rw [streamWriteTurn_run]
  dsimp only
  rw [hopen, if_neg Bool.false_ne_true]
  split
  · simp
  unfold idle
  split
  · simp
  split
  · simp
  · simp

end

def recvAll (s : Nat) (nonblock signal : Bool) :
    List Nat → Net F → Option (List (Option (Except Errno (UnixMessage F))))
  | [], _ => some []
  | len :: lens, net => do
    let o ← (recvMsg s len nonblock signal).run [] net
    let answers ← recvAll s nonblock signal lens o.state
    return o.result :: answers

lemma streamRecvTurn_closed (hclosed : ((net.conn c).channels readerHalf).readClosed = true)
    (len : Nat) (nonblock signal : Bool) :
    ∃ o m, (streamRecvTurn c readerHalf len nonblock signal).run [] net = some o ∧
      o.result = some (.ok m) ∧
      m.data = (bytesOf ((net.conn c).channels readerHalf).messages).take len ∧
      o.state.state = net.state ∧
      ((o.state.conn c).channels readerHalf).readClosed = true ∧
      bytesOf ((o.state.conn c).channels readerHalf).messages =
        (bytesOf ((net.conn c).channels readerHalf).messages).drop len := by
  rw [streamRecvTurn_run]
  by_cases hempty : ((net.conn c).channels readerHalf).messages = []
  · simp [hempty, hclosed, UnixMessage.new]
  · simp [hempty, hclosed, Channel.taken, Channel.received, UnixMessage.new, recvLoop_data,
      recvLoop_messages, setChannel]

section

variable (htype : (net.state s).sockType = .stream)
include htype

section

variable (hends : (net.state s).streamEnds = .ok (c, readerHalf, writerHalf))
include hends

lemma recvAll_closed
    (hclosed : ((net.conn c).channels readerHalf).readClosed = true) (lens : List Nat)
    (nonblock signal : Bool) :
    ∃ messages, recvAll s nonblock signal lens net = some (messages.map fun m => some (.ok m)) ∧
      bytesOf messages =
        (bytesOf ((net.conn c).channels readerHalf).messages).take lens.sum := by
  induction lens generalizing net with
  | nil => exact ⟨[], rfl, rfl⟩
  | cons len lens ih =>
    obtain ⟨o, m, hrun, hresult, hdata, hstate, hclosed', hrest⟩ :=
      streamRecvTurn_closed hclosed len nonblock signal
    obtain ⟨messages, hall, hbytes⟩ := ih (hstate ▸ htype) (hstate ▸ hends) hclosed'
    refine ⟨m :: messages, ?_, ?_⟩
    · simp [recvAll, recvMsg_stream htype hends, hrun, hresult, hall]
    · rw [bytesOf_cons, hdata, hbytes, hrest, List.sum_cons, List.take_add]

lemma send_closed (hclosed : ((net.conn c).channels writerHalf).writeClosed = true)
    {data : List UInt8} {rights : List F} (hsome : data ≠ [] ∨ rights ≠ []) (nonblock signal : Bool) :
    ((sendMsg s data rights none nonblock signal).run [] net).map Outcome.result =
      some (some (.error .epipe)) := by
  rw [sendMsg_stream htype hends hsome]
  exact streamWriteTurn_closed hclosed

lemma recvMsg_eagain (hopen : ((net.conn c).channels readerHalf).readClosed = false)
    (hempty : ((net.conn c).channels readerHalf).messages = []) (len : Nat) (signal : Bool) :
    (recvMsg s len true signal).run [] net = some ⟨some (.error .eagain), net, []⟩ := by
  simp [recvMsg_stream htype hends, streamRecvTurn_run, hempty, hopen, idle]

lemma exists_recvAll_eagain
    (hopen : ((net.conn c).channels readerHalf).readClosed = false) (signal : Bool) :
    ∃ lens answers, recvAll s true signal lens net = some answers ∧
      some (.error .eagain) ∈ answers := by
  by_cases hempty : ((net.conn c).channels readerHalf).messages = []
  · refine ⟨[0], [some (.error .eagain)], ?_, List.mem_singleton_self _⟩
    simp [recvAll, recvMsg_eagain htype hends hopen hempty]
  -- a receive with room for everything, and then another one
  generalize hch : (net.conn c).channels readerHalf = ch at hopen hempty
  let net' := net.setChannel c readerHalf (ch.received ((bytesOf ch.messages).length + 1))
  have hch' : (net'.conn c).channels readerHalf =
      ch.received ((bytesOf ch.messages).length + 1) := by
    simp [net', setChannel]
  have hfirst : (recvMsg s ((bytesOf ch.messages).length + 1) true signal).run [] net =
      some ⟨some (.ok (ch.taken ((bytesOf ch.messages).length + 1))), net', [net']⟩ := by
    rw [recvMsg_stream htype hends, streamRecvTurn_run]
    simp [hch, hempty, net']
  have hsecond : (recvMsg s 0 true signal).run [] net' =
      some ⟨some (.error .eagain), net', []⟩ := by
    have htype' : (net'.state s).sockType = .stream := htype
    have hends' : (net'.state s).streamEnds = .ok (c, readerHalf, writerHalf) := hends
    refine recvMsg_eagain htype' hends' ?_ ?_ 0 signal
    · rw [hch']
      exact hopen
    · rw [hch']
      exact recvLoop_drains (Nat.lt_succ_self _)
  refine ⟨[(bytesOf ch.messages).length + 1, 0],
    [some (.ok (ch.taken ((bytesOf ch.messages).length + 1))), some (.error .eagain)], ?_, ?_⟩
  · simp [recvAll, hfirst, hsecond]
  · simp

end

end

/-! ## Closing sides -/

structure Closes (conn conn' : UnixConnection F) : Prop where
  messages : ∀ half, (conn'.channels half).messages = (conn.channels half).messages
  bufferedLen : ∀ half, (conn'.channels half).bufferedLen = (conn.channels half).bufferedLen
  readClosed : ∀ half, (conn.channels half).readClosed = true →
    (conn'.channels half).readClosed = true
  writeClosed : ∀ half, (conn.channels half).writeClosed = true →
    (conn'.channels half).writeClosed = true

namespace Closes

lemma refl (conn : UnixConnection F) : Closes conn conn :=
  ⟨fun _ => rfl, fun _ => rfl, fun _ => id, fun _ => id⟩

lemma trans {a b c : UnixConnection F} (h : Closes a b) (h' : Closes b c) : Closes a c :=
  ⟨fun half => (h'.messages half).trans (h.messages half),
    fun half => (h'.bufferedLen half).trans (h.bufferedLen half),
    fun half hr => h'.readClosed half (h.readClosed half hr),
    fun half hw => h'.writeClosed half (h.writeClosed half hw)⟩

lemma setChannel (net : Net F) (c : Nat) (half : Fin 2) {ch : Channel F}
    (hmessages : ch.messages = ((net.conn c).channels half).messages)
    (hbuffered : ch.bufferedLen = ((net.conn c).channels half).bufferedLen)
    (hread : ((net.conn c).channels half).readClosed = true → ch.readClosed = true)
    (hwrite : ((net.conn c).channels half).writeClosed = true → ch.writeClosed = true) (c' : Nat) :
    Closes (net.conn c') ((net.setChannel c half ch).conn c') := by
  refine ⟨fun half' => ?_, fun half' => ?_, fun half' h => ?_, fun half' h => ?_⟩
  · rw [net.setChannel_channel]
    split
    · next he => rw [hmessages, he.1, he.2]
    · rfl
  · rw [net.setChannel_channel]
    split
    · next he => rw [hbuffered, he.1, he.2]
    · rfl
  · rw [net.setChannel_channel]
    split
    · next he =>
      rw [he.1, he.2] at h
      exact hread h
    · exact h
  · rw [net.setChannel_channel]
    split
    · next he =>
      rw [he.1, he.2] at h
      exact hwrite h
    · exact h

lemma shutRead (net : Net F) (c : Nat) (half : Fin 2) (c' : Nat) :
    Closes (net.conn c') ((net.shutRead c half).conn c') := by
  refine setChannel net c half ?_ ?_ ?_ ?_ c'
  · rfl
  · rfl
  · exact fun _ => rfl
  · exact id

lemma shutWrite (net : Net F) (c : Nat) (half : Fin 2) (c' : Nat) :
    Closes (net.conn c') ((net.shutWrite c half).conn c') := by
  refine setChannel net c half ?_ ?_ ?_ ?_ c'
  · rfl
  · rfl
  · exact id
  · exact fun _ => rfl

lemma hungUp (net : Net F) (c : Nat) (half : Fin 2) (c' : Nat) :
    Closes (net.conn c') ((net.hungUp c half).conn c') := by
  refine setChannel net c half ?_ ?_ ?_ ?_ c'
  · rfl
  · rfl
  · exact fun _ => rfl
  · exact fun _ => rfl

lemma releasedConn (net : Net F) (c c' : Nat) :
    Closes (net.conn c') ((net.releasedConn c).conn c') := by
  by_cases hc : c' = c
  · subst hc
    simp only [Net.releasedConn, Function.update_self]
    exact ⟨fun _ => rfl, fun _ => rfl, fun _ => id, fun _ => id⟩
  · simp only [Net.releasedConn, Function.update_of_ne hc]
    exact refl _

lemma shut (net : Net F) (c : Nat) (readerHalf writerHalf : Fin 2) (how : Int) (c' : Nat) :
    Closes (net.conn c') ((net.shut c readerHalf writerHalf how).1.conn c') := by
  unfold Net.shut
  split
  · exact shutRead net c readerHalf c'
  split
  · exact shutWrite net c writerHalf c'
  split
  · exact (shutRead net c readerHalf c').trans (shutWrite _ c writerHalf c')
  · exact refl _

lemma closed (net : Net F) (s c' : Nat) :
    Closes (net.conn c') ((net.closed s).conn c') := by
  have hunnamed : (net.unnamed s).conn = net.conn := by simp [Net.unnamed, Net.setState]
  unfold Net.closed
  split
  · next c _ =>
    have hreleased := releasedConn (net.unnamed s) c c'
    rw [hunnamed] at hreleased
    exact (hreleased.trans (hungUp _ c _ c')).trans (hungUp _ c _ c')
  · rw [hunnamed]
    exact refl _

end Closes

end Stream

end Twilight.Unix

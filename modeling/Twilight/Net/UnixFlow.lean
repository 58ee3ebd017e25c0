/-
One direction of a connection as a queue of messages. A reader takes bytes without regard to where a
message ends, so that the front message may be there in part; the descriptors of a message go with the
first bytes of it.
-/
import Twilight.Net.UnixSteps

namespace Twilight.Unix

open List UnixMessage

variable {F : Type} (messages : List (UnixMessage F))

def bytesOf : List UInt8 := messages.flatMap data

def rightsOf : List F := messages.flatMap rights

@[simp] lemma bytesOf_nil : bytesOf ([] : List (UnixMessage F)) = [] := rfl

@[simp] lemma rightsOf_nil : rightsOf ([] : List (UnixMessage F)) = [] := rfl

@[simp] lemma bytesOf_cons (m : UnixMessage F) (rest : List (UnixMessage F)) :
    bytesOf (m :: rest) = m.data ++ bytesOf rest := rfl

@[simp] lemma rightsOf_cons (m : UnixMessage F) (rest : List (UnixMessage F)) :
    rightsOf (m :: rest) = m.rights ++ rightsOf rest := rfl

variable (a b : List (UnixMessage F))

@[simp] lemma bytesOf_append : bytesOf (a ++ b) = bytesOf a ++ bytesOf b := flatMap_append

@[simp] lemma rightsOf_append : rightsOf (a ++ b) = rightsOf a ++ rightsOf b := flatMap_append

lemma bytesOf_length : (bytesOf messages).length = (messages.map fun m => m.data.length).sum :=
  length_flatMap

/-! ## What the loop of a reader takes -/

variable (room : Nat) (queue : List (UnixMessage F)) (len : Nat)

lemma recvLoop_data :
    (recvLoop room queue len).data = (bytesOf queue).take room := by
  induction queue generalizing room len with
  | nil => simp [recvLoop]
  | cons front rest ih =>
    rw [recvLoop, bytesOf_cons, take_append]
    split
    · next hroom => simp [hroom]
    dsimp only
    split
    · next htake =>
      have hfits : front.data.length ≤ room := by omega
      rw [min_eq_right hfits, ih, take_of_length_le hfits]
    · next htake =>
      have hcut : room < front.data.length := by omega
      rw [min_eq_left (Nat.le_of_lt hcut), Nat.sub_eq_zero_of_le (Nat.le_of_lt hcut)]
      simp

lemma recvLoop_messages :
    bytesOf (recvLoop room queue len).messages = (bytesOf queue).drop room := by
  induction queue generalizing room len with
  | nil => simp [recvLoop]
  | cons front rest ih =>
    rw [recvLoop, bytesOf_cons, drop_append]
    split
    · next hroom => simp [hroom]
    dsimp only
    split
    · next htake =>
      have hfits : front.data.length ≤ room := by omega
      rw [min_eq_right hfits, ih, drop_eq_nil_of_le hfits, nil_append]
    · next htake =>
      have hcut : room < front.data.length := by omega
      rw [min_eq_left (Nat.le_of_lt hcut), Nat.sub_eq_zero_of_le (Nat.le_of_lt hcut)]
      simp

lemma recvLoop_bufferedLen :
    (recvLoop room queue len).bufferedLen = len - (recvLoop room queue len).data.length := by
  induction queue generalizing room len with
  | nil => simp [recvLoop]
  | cons front rest ih =>
    rw [recvLoop]
    split
    · simp
    dsimp only
    split
    · next htake =>
      rw [ih, length_append]
      omega
    · simp

lemma Channel.received_counted {ch : Channel F}
    (h : ch.bufferedLen = (ch.messages.map fun m => m.data.length).sum) (len : Nat) :
    (ch.received len).bufferedLen = ((ch.received len).messages.map fun m => m.data.length).sum := by
  have hmessages : (ch.received len).messages =
      (recvLoop len ch.messages ch.bufferedLen).messages := rfl
  have hbuffered : (ch.received len).bufferedLen =
      (recvLoop len ch.messages ch.bufferedLen).bufferedLen := rfl
  rw [hmessages, hbuffered, recvLoop_bufferedLen, recvLoop_data, ← bytesOf_length,
    recvLoop_messages, length_take, length_drop, h, ← bytesOf_length]
  omega

lemma Channel.received_le (ch : Channel F) (len : Nat) :
    (ch.received len).bufferedLen ≤ ch.bufferedLen := by
  rw [Channel.received, recvLoop_bufferedLen]
  exact Nat.sub_le _ _

lemma recvLoop_drains {room : Nat} {queue : List (UnixMessage F)} {len : Nat}
    (h : (bytesOf queue).length < room) : (recvLoop room queue len).messages = [] := by
  induction queue generalizing room len with
  | nil => rfl
  | cons front rest ih =>
    rw [bytesOf_cons, length_append] at h
    have hfits : min room front.data.length = front.data.length := by omega
    rw [recvLoop, if_neg (by omega)]
    dsimp only
    rw [if_pos hfits]
    exact ih (by omega)

/-! ## Messages that are there in part -/

/-- The messages `rest` are in the queue, except for `bytes` and `rights` of the first one, which
are taken. -/
inductive Partly : List (UnixMessage F) → List (UnixMessage F) → List UInt8 → List F → Prop
  | whole (rest : List (UnixMessage F)) : Partly rest rest [] []
  | cut {m : UnixMessage F} {k : Nat} (rest : List (UnixMessage F)) (hpos : 0 < k)
    (hlt : k < m.data.length) :
    Partly (m :: rest) ({ m with data := m.data.drop k, rights := [] } :: rest) (m.data.take k)
      m.rights

lemma Partly.first_byte {rest queue : List (UnixMessage F)} {bytes : List UInt8} {rights : List F}
    (h : Partly rest queue bytes rights) {more after : List (UnixMessage F)} {m : UnixMessage F}
    (hrest : rest = more ++ m :: after) (hlater : (rightsOf more).length < rights.length) :
    (bytesOf more).length + min 1 m.data.length ≤ bytes.length := by
  cases h with
  | whole => exact absurd hlater (Nat.not_lt_zero _)
  | @cut m' k rest hpos hlt =>
    cases more with
    | nil =>
      obtain ⟨rfl, -⟩ := List.cons.inj hrest
      simp only [bytesOf_nil, length_nil, length_take]
      omega
    | cons first more =>
      obtain ⟨rfl, -⟩ := List.cons.inj hrest
      rw [rightsOf_cons, length_append] at hlater
      omega

/-- Where `taken` leaves a queue that had `rest`: it has done with some messages, and with the first
bytes of the next. -/
def Leaves (rest : List (UnixMessage F)) (bytes : List UInt8) (rights : List F)
    (taken : Taken F) : Prop :=
  ∃ done rest' bytes' rights', rest = done ++ rest' ∧
    Partly rest' taken.messages bytes' rights' ∧
    bytes ++ taken.data = bytesOf done ++ bytes' ∧
    rights ++ taken.rights = rightsOf done ++ rights'

lemma recvLoop_whole :
    Leaves queue [] [] (recvLoop room queue len) := by
  induction queue generalizing room len with
  | nil => exact ⟨[], [], [], [], rfl, .whole [], rfl, rfl⟩
  | cons front rest ih =>
    rw [recvLoop]
    split
    · exact ⟨[], front :: rest, [], [], rfl, .whole _, rfl, rfl⟩
    next hroom =>
    dsimp only
    split
    · -- the front message goes whole
      obtain ⟨done, rest', bytes', rights', hrest, hpartly, hbytes, hrights⟩ :=
        ih (room - min room front.data.length) (len - min room front.data.length)
      refine ⟨front :: done, rest', bytes', rights', by rw [hrest]; rfl, hpartly, ?_, ?_⟩
      · simpa using hbytes
      · simpa using hrights
    · next htake =>
      have hcut : min room front.data.length < front.data.length := by omega
      exact ⟨[], front :: rest, _, _, rfl, .cut rest (by omega) hcut, rfl, rfl⟩

lemma recvLoop_partly {rest queue : List (UnixMessage F)} {bytes : List UInt8} {rights : List F}
    (h : Partly rest queue bytes rights) (room len : Nat) :
    Leaves rest bytes rights (recvLoop room queue len) := by
  cases h with
  | whole => exact recvLoop_whole room rest len
  | @cut m k rest hpos hlt =>
    rw [recvLoop]
    split
    · exact ⟨[], m :: rest, _, _, rfl, .cut rest hpos hlt, by simp, by simp⟩
    next hroom =>
    dsimp only
    split
    · obtain ⟨done, rest', bytes', rights', hrest, hpartly, hbytes, hrights⟩ :=
        recvLoop_whole (room - min room (m.data.drop k).length) rest
          (len - min room (m.data.drop k).length)
      refine ⟨m :: done, rest', bytes', rights', by rw [hrest]; rfl, hpartly, ?_, ?_⟩
      · rw [nil_append] at hbytes
        rw [bytesOf_cons, hbytes, ← append_assoc, take_append_drop, append_assoc]
      · rw [nil_append] at hrights
        rw [rightsOf_cons, hrights, nil_append, append_assoc]
    · next htake =>
      rw [length_drop] at htake
      have hroom' : room < m.data.length - k := by omega
      have hmin : min room (m.data.drop k).length = room := by
        rw [length_drop]
        omega
      refine ⟨[], m :: rest, m.data.take (k + room), m.rights, rfl, ?_, ?_, by simp⟩
      · rw [hmin, drop_drop]
        exact .cut rest (by omega) (by omega)
      · rw [hmin, bytesOf_nil, nil_append, take_add]

/-! ## What was sent and what was received -/

/-- Of the messages `sent`, the ones in `got` are received and the rest is in the queue. -/
def Flow (sent got queue : List (UnixMessage F)) : Prop :=
  ∃ done rest bytes rights, sent = done ++ rest ∧ Partly rest queue bytes rights ∧
    bytesOf got = bytesOf done ++ bytes ∧ rightsOf got = rightsOf done ++ rights

namespace Flow

variable {sent got queue : List (UnixMessage F)}

lemma start (queue : List (UnixMessage F)) : Flow queue [] queue :=
  ⟨[], queue, [], [], rfl, .whole queue, rfl, rfl⟩

section

variable (h : Flow sent got queue)
include h

lemma push (m : UnixMessage F) :
    Flow (sent ++ [m]) got (queue ++ [m]) := by
  obtain ⟨done, rest, bytes, rights, hsent, hpartly, hbytes, hrights⟩ := h
  refine ⟨done, rest ++ [m], bytes, rights, by rw [hsent, append_assoc], ?_, hbytes, hrights⟩
  cases hpartly with
  | whole => exact .whole _
  | cut rest hpos hlt => exact .cut (rest ++ [m]) hpos hlt

lemma recv (room len : Nat) {m : UnixMessage F} (hdata : m.data = (recvLoop room queue len).data)
    (hrights : m.rights = (recvLoop room queue len).rights) :
    Flow sent (got ++ [m]) (recvLoop room queue len).messages := by
  obtain ⟨done, rest, bytes, rights, hsent, hpartly, hgotBytes, hgotRights⟩ := h
  obtain ⟨more, rest', bytes', rights', hrest, hpartly', hbytes, hrights'⟩ :=
    recvLoop_partly hpartly room len
  refine ⟨done ++ more, rest', bytes', rights', ?_, hpartly', ?_, ?_⟩
  · rw [hsent, hrest, append_assoc]
  · simp [hgotBytes, hdata, hbytes]
  · simp [hgotRights, hrights, hrights']

lemma nothing : Flow sent (got ++ [.new [] [] none]) queue := by
  obtain ⟨done, rest, bytes, rights, hsent, hpartly, hbytes, hrights⟩ := h
  exact ⟨done, rest, bytes, rights, hsent, hpartly, by simp [hbytes, new], by simp [hrights, new]⟩

lemma bytes_le : bytesOf got <+: bytesOf sent := by
  obtain ⟨done, rest, bytes, rights, hsent, hpartly, hbytes, -⟩ := h
  rw [hsent, hbytes, bytesOf_append, prefix_append_right_inj]
  cases hpartly with
  | whole => exact nil_prefix
  | cut rest hpos hlt => exact ( take_prefix _ _).trans (prefix_append _ _)

lemma rights_le : rightsOf got <+: rightsOf sent := by
  obtain ⟨done, rest, bytes, rights, hsent, hpartly, -, hrights⟩ := h
  rw [hsent, hrights, rightsOf_append, prefix_append_right_inj]
  cases hpartly with
  | whole => exact nil_prefix
  | cut rest hpos hlt => exact prefix_append _ _

lemma first_byte {before after : List (UnixMessage F)}
    {m : UnixMessage F} (hm : sent = before ++ m :: after)
    (hlater : (rightsOf before).length < (rightsOf got).length) :
    (bytesOf before).length + min 1 m.data.length ≤ (bytesOf got).length := by
  obtain ⟨done, rest, bytes, rights, hsent, hpartly, hbytes, hrights⟩ := h
  rw [hbytes, length_append]
  rw [hrights, length_append] at hlater
  rw [hm] at hsent
  obtain ⟨more, hdone, hrest⟩ | ⟨more, hbefore, hrest⟩ := append_eq_append_iff.mp hsent
  · cases more with
    | nil =>
      rw [hdone, append_nil] at hlater ⊢
      have hfirst : (bytesOf ([] : List (UnixMessage F))).length + min 1 m.data.length ≤
          bytes.length := hpartly.first_byte hrest.symm (by simp; omega)
      rw [bytesOf_nil, length_nil] at hfirst
      omega
    | cons first more =>
      -- the whole message is received
      obtain ⟨rfl, -⟩ := List.cons.inj hrest
      simp only [hdone, bytesOf_append, bytesOf_cons, length_append]
      omega
  · rw [hbefore, rightsOf_append, length_append] at hlater
    rw [hbefore, bytesOf_append, length_append]
    have hfirst := hpartly.first_byte hrest (by omega)
    omega

end

end Flow

end Twilight.Unix

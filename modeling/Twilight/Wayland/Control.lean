/-
The descriptors that arrive with a chunk.

`parse_received_fds` walks over the control messages of `recvmsg`.  Before each step it compares the
length of the message with the offset of the message, where it should compare the new offset with
the old one, so it stops behind a message that is not longer than all those before it together.
-/
import Twilight.Lib.Bytes
import Mathlib.Data.List.Basic

namespace Twilight.Wayland

open List Bytes

def solSocket : Nat := 1

def scmRights : Nat := 1

def cmsgAlign (value : Nat) : Nat := (value + 7) / 8 * 8

/-- The descriptors among `n` chunks of four bytes. -/
def readFds (control : Bytes) : Nat → Nat → List Nat
  | _, 0 => []
  | offset, n + 1 =>
    let fd := control.readLE offset 4
    (if fd < 2 ^ 31 then [fd] else []) ++ readFds control (offset + 4) n

/-- The loop of `parse_received_fds`; the header is `cmsg_len`, `cmsg_level` and `cmsg_type`. -/
def parseFrom (control : Bytes) (controllen offset : Nat) : List Nat :=
  if offset + 16 ≤ controllen then
    let cmsgLen := control.readLE offset 8
    if cmsgLen < 16 ∨ controllen < offset + cmsgLen then []
    else
      let fds :=
        if control.readLE (offset + 8) 4 = solSocket ∧ control.readLE (offset + 12) 4 = scmRights
        then readFds control (offset + 16) ((cmsgLen - 16) / 4) else []
      let next := cmsgAlign cmsgLen
      if next ≤ offset then fds else fds ++ parseFrom control controllen (offset + next)
  else []
termination_by controllen - offset
decreasing_by
  rename_i hnext
  exact Nat.sub_lt_sub_left (by omega) (Nat.lt_add_of_pos_right (Nat.zero_lt_of_lt
    (Nat.lt_of_not_le hnext)))

def parseReceivedFds (control : List UInt8) (controllen : Nat) : List Nat :=
  if controllen < 16 ∨ control.length < controllen then []
  else parseFrom (Bytes.ofList control) controllen 0

/-! ## Packed control messages -/

def packFds (fds : List Nat) : List UInt8 := fds.flatMap fun fd => (Bytes.le fd).slice 0 4

lemma length_packFds (fds : List Nat) : (packFds fds).length = 4 * fds.length := by
  simp [packFds, Nat.mul_comm]

structure ControlMessage where
  level : UInt32
  cmsgType : UInt32
  data : List UInt8
  pad : List UInt8
  short : 16 + data.length < 2 ^ 64
  padded : 16 + data.length + pad.length = cmsgAlign (16 + data.length)
  /-- The descriptors of an `SCM_RIGHTS` message. -/
  fds : List Nat
  valid : ∀ fd ∈ fds, fd < 2 ^ 31
  rights : if level.toNat = solSocket ∧ cmsgType.toNat = scmRights then data = packFds fds
    else fds = []

namespace ControlMessage

variable (m : ControlMessage)

def bytes : List UInt8 :=
  (Bytes.le (16 + m.data.length)).slice 0 8 ++ ((Bytes.le m.level.toNat).slice 0 4 ++
    ((Bytes.le m.cmsgType.toNat).slice 0 4 ++ (m.data ++ m.pad)))

lemma length_bytes : m.bytes.length = cmsgAlign (16 + m.data.length) := by
  have hpadded := m.padded
  simp only [bytes, length_append, length_slice]
  omega

end ControlMessage

def packed (ms : List ControlMessage) : List UInt8 := ms.flatMap (·.bytes)

def sent (ms : List ControlMessage) : List Nat := ms.flatMap (·.fds)

/-- No descriptors come after a message that is not longer than all those before it together. -/
def Spares (ms : List ControlMessage) : Prop :=
  ∀ a m b, ms = a ++ m :: b → m.bytes.length ≤ (packed a).length → sent b = []

lemma readFds_packFds {fds : List Nat} (hvalid : ∀ fd ∈ fds, fd < 2 ^ 31)
    (before after : List UInt8) :
    readFds (Bytes.ofList (before ++ (packFds fds ++ after))) before.length fds.length = fds := by
  induction fds generalizing before with
  | nil => rfl
  | cons fd fds ih =>
    have hfd := hvalid fd mem_cons_self
    have hrest := ih (fun q hq => hvalid q (mem_cons_of_mem _ hq))
      (before ++ (Bytes.le fd).slice 0 4)
    rw [length_append, length_slice, append_assoc] at hrest
    rw [packFds, flatMap_cons, append_assoc, length_cons, readFds, readLE_ofList,
      Nat.mod_eq_of_lt (by omega), if_pos hfd]
    exact congrArg (fd :: ·) hrest

/-- One round of the loop, at a message. -/
lemma parseFrom_message (m : ControlMessage) (before after : List UInt8) {controllen : Nat}
    (hroom : before.length + m.bytes.length ≤ controllen) :
    let control := Bytes.ofList (before ++ (m.bytes ++ after))
    parseFrom control controllen before.length = m.fds ++
      if m.bytes.length ≤ before.length then []
      else parseFrom control controllen (before.length + m.bytes.length) := by
  intro control
  have hlength := m.length_bytes
  have hpadded := m.padded
  let len := (Bytes.le (16 + m.data.length)).slice 0 8
  let level := (Bytes.le m.level.toNat).slice 0 4
  let type := (Bytes.le m.cmsgType.toNat).slice 0 4
  have hcontrol : control = Bytes.ofList (before ++ (len ++ (level ++ (type ++
      (m.data ++ (m.pad ++ after)))))) := by
    simp only [control, ControlMessage.bytes, append_assoc, len, level, type]
  have hlen : control.readLE before.length 8 = 16 + m.data.length := by
    rw [hcontrol, readLE_ofList]
    exact Nat.mod_eq_of_lt m.short
  have hlevel : control.readLE (before.length + 8) 4 = m.level.toNat := by
    have hat : (before ++ len).length = before.length + 8 := by simp [len]
    rw [hcontrol, ← append_assoc, ← hat, readLE_ofList]
    exact Nat.mod_eq_of_lt m.level.toNat_lt
  have htype : control.readLE (before.length + 12) 4 = m.cmsgType.toNat := by
    have hat : (before ++ len ++ level).length = before.length + 12 := by simp [len, level]
    rw [hcontrol, ← append_assoc, ← append_assoc, ← hat, readLE_ofList]
    exact Nat.mod_eq_of_lt m.cmsgType.toNat_lt
  have hfds : (if m.level.toNat = solSocket ∧ m.cmsgType.toNat = scmRights then
      readFds control (before.length + 16) ((16 + m.data.length - 16) / 4) else []) = m.fds := by
    have hrights := m.rights
    by_cases hscm : m.level.toNat = solSocket ∧ m.cmsgType.toNat = scmRights
    · rw [if_pos hscm] at hrights ⊢
      have hat : (before ++ len ++ level ++ type).length = before.length + 16 := by
        simp [len, level, type]
      have hcount : (16 + m.data.length - 16) / 4 = m.fds.length := by
        rw [hrights, length_packFds]
        omega
      rw [hcontrol, ← append_assoc, ← append_assoc, ← append_assoc, ← hat, hcount, hrights]
      exact readFds_packFds m.valid _ _
    · rw [if_neg hscm] at hrights ⊢
      exact hrights.symm
  rw [parseFrom, if_pos (by omega), hlen, hlevel, htype, if_neg (by omega)]
  simp only [hfds, ← hlength]
  split
  · rw [append_nil]
  · rfl

/-- What the loop finds from `offset` on. -/
def found : Nat → List ControlMessage → List Nat
  | _, [] => []
  | offset, m :: ms =>
    m.fds ++ if m.bytes.length ≤ offset then [] else found (offset + m.bytes.length) ms

lemma parseFrom_packed (ms : List ControlMessage) (before rest : List UInt8) :
    parseFrom (Bytes.ofList (before ++ (packed ms ++ rest)))
      (before.length + (packed ms).length) before.length = found before.length ms := by
  induction ms generalizing before with
  | nil =>
    rw [parseFrom, if_neg (by simp [packed])]
    rfl
  | cons m ms ih =>
    have hrest := ih (before ++ m.bytes)
    rw [length_append, append_assoc] at hrest
    rw [packed, flatMap_cons, length_append, append_assoc, parseFrom_message m before _ (by omega),
      found, ← Nat.add_assoc]
    exact congrArg (fun later => m.fds ++ if m.bytes.length ≤ before.length then [] else later)
      hrest

lemma found_eq_iff (ms : List ControlMessage) (offset : Nat) :
    found offset ms = sent ms ↔ ∀ a m b, ms = a ++ m :: b →
      m.bytes.length ≤ offset + (packed a).length → sent b = [] := by
  induction ms generalizing offset with
  | nil => exact iff_of_true rfl fun a m b h => absurd h (by simp)
  | cons m ms ih =>
    have hcons : sent (m :: ms) = m.fds ++ sent ms := flatMap_cons
    rw [found, hcons, append_cancel_left_eq]
    by_cases hstop : m.bytes.length ≤ offset
    · rw [if_pos hstop]
      constructor
      · intro hnone a q b hms _
        cases a with
        | nil =>
          cases hms
          exact hnone.symm
        | cons r a =>
          have hrest : ms = a ++ q :: b := (cons.inj hms).2
          rw [hrest, sent, flatMap_append, flatMap_cons] at hnone
          exact (append_eq_nil_iff.mp (append_eq_nil_iff.mp hnone.symm).2).2
      · intro h
        exact (h [] m ms rfl (Nat.le_add_right_of_le hstop)).symm
    · rw [if_neg hstop, ih]
      constructor
      · intro h a q b hms hle
        cases a with
        | nil =>
          cases hms
          exact absurd hle hstop
        | cons r a =>
          obtain ⟨rfl, rfl⟩ := cons.inj hms
          rw [packed, flatMap_cons, length_append, ← Nat.add_assoc] at hle
          exact h a q b rfl hle
      · intro h a q b hms hle
        refine h (m :: a) q b (congrArg (m :: ·) hms) ?_
        rw [packed, flatMap_cons, length_append, ← Nat.add_assoc]
        exact hle

lemma parseReceivedFds_packed (ms : List ControlMessage) (rest : List UInt8) :
    parseReceivedFds (packed ms ++ rest) (packed ms).length = found 0 ms := by
  have hloop := parseFrom_packed ms [] rest
  rw [length_nil, Nat.zero_add, nil_append] at hloop
  rw [parseReceivedFds, ← hloop]
  split
  · rename_i hshort
    rw [length_append] at hshort
    rw [parseFrom, if_neg (by omega)]
  · rfl

/-- The descriptors of all messages are found, whatever the buffer has behind them, exactly if the
messages spare the early end of the loop. -/
theorem finds_iff_spares (ms : List ControlMessage) :
    (∀ rest, parseReceivedFds (packed ms ++ rest) (packed ms).length = sent ms) ↔ Spares ms := by
  have hparse := parseReceivedFds_packed ms
  have hfound := found_eq_iff ms 0
  simp only [Nat.zero_add] at hfound
  rw [Spares, ← hfound]
  exact ⟨fun h => hparse [] ▸ h [], fun h rest => (hparse rest).trans h⟩

/-- One descriptor. -/
def one (fd : Nat) (h : fd < 2 ^ 31) : ControlMessage where
  level := 1
  cmsgType := 1
  data := packFds [fd]
  pad := [0, 0, 0, 0]
  short := by simp [length_packFds]
  padded := by simp [length_packFds, cmsgAlign]
  fds := [fd]
  valid := by simpa using h
  rights := by rw [if_pos ⟨rfl, rfl⟩]

/-- The second of three messages of one descriptor each is as long as the first. -/
theorem third_is_lost :
    let ms := [one 4 (by decide), one 5 (by decide), one 6 (by decide)]
    parseReceivedFds (packed ms) (packed ms).length = [4, 5] ∧ sent ms = [4, 5, 6] := by
  intro ms
  have hparse := parseReceivedFds_packed ms []
  rw [append_nil] at hparse
  exact ⟨hparse.trans (by decide), rfl⟩

end Twilight.Wayland

/-
The credentials of processes.

`USER_ID` and `GROUP_ID` are one pair for the whole kernel. `setuid` and `setgid` set them for
everyone and refuse nothing, and every check reads them whichever process runs. This file runs
processes that fork, set their credentials and are checked, and compares what the checks use with
what each process has asked for and inherited.
-/
import Twilight.Lib.Machine
import Twilight.Syscall.HomeAccess

namespace Twilight.Syscall

open Fs (Inode)

/-! ## The kernel -/

structure Creds where
  uid : UInt64
  gid : UInt64
deriving DecidableEq

inductive CredCall
  | setuid (uid : UInt64)
  | setgid (gid : UInt64)
deriving DecidableEq

namespace Creds

def initial : Creds := ⟨0, 0⟩

def apply (c : Creds) : CredCall → Creds
  | .setuid uid => { c with uid := uid }
  | .setgid gid => { c with gid := gid }

/-- The user and the group as they are used: cut to 32 bits. -/
def seen (c : Creds) : UInt32 × UInt32 := (c.uid.toUInt32, c.gid.toUInt32)

end Creds

/-- An access check, with what the file system and the key store answer to it. -/
inductive Question
  | homeAccess (getAttr metadata : Str → Option UInt32) (path : Str)
  | encryptionKey (userKey : UInt32 → Option (List UInt8)) (inode : Inode)

inductive Verdict
  | access (result : Except Int Unit)
  | key (result : Option (List UInt8))

def Question.answer (uid : UInt32) : Question → Verdict
  | .homeAccess getAttr metadata path =>
    .access (checkEncryptedHomeAccess (m := Id) getAttr metadata uid path)
  | .encryptionKey userKey inode => .key (getEncryptionKey userKey inode uid)

inductive Event
  | fork (parent child : Nat)
  | exit (process : Nat)
  | call (process : Nat) (call : CredCall)
  | check (process : Nat) (question : Question)

/-- `current` are `USER_ID` and `GROUP_ID`, `live` the processes there are and `born` all there have
been. `own` is not in the kernel: it has the calls of each process, after those of its parent up
to the fork. -/
structure System where
  current : Creds
  live : List Nat
  born : List Nat
  own : Nat → List CredCall

namespace System

def boot (first : Nat) : System where
  current := .initial
  live := [first]
  born := [first]
  own := fun _ => []

variable (s : System)

def step : Event → System
  | .fork parent child =>
    if parent ∈ s.live ∧ child ∉ s.born then
      { s with
        live := child :: s.live
        born := child :: s.born
        own := Function.update s.own child (s.own parent) }
    else s
  | .exit p => { s with live := s.live.filter (· ≠ p) }
  | .call p c =>
    if p ∈ s.live then
      { s with current := s.current.apply c, own := Function.update s.own p (s.own p ++ [c]) }
    else s
  | .check _ _ => s

def answers (p : Nat) : System → List Event → List Verdict
  | _, [] => []
  | s, .check q question :: es =>
    if q = p ∧ q ∈ s.live then question.answer s.current.seen.1 :: answers p s es
    else answers p s es
  | s, e :: es => answers p (s.step e) es

/-! ## Credentials of its own -/

def creds (p : Nat) : Creds := (s.own p).foldl Creds.apply .initial

def PerProcess : Prop := ∀ p ∈ s.live, s.current.seen = (s.creds p).seen

/-- A process that is not root does not become root. -/
def StaysOrdinary (s : System) : Event → Prop
  | .call p c => p ∈ s.live → (s.creds p).seen.1 ≠ 0 → ((s.step (.call p c)).creds p).seen.1 ≠ 0
  | _ => True

/-- Credentials are per process in a run: checks use a process's own, no process makes itself root,
and a call by another process makes no difference to the checks of one that is there. -/
structure Isolated (first : Nat) (es : List Event) : Prop where
  own : Machine.Always step PerProcess (boot first) es
  ordinary : Machine.Meets step StaysOrdinary (boot first) es
  others : ∀ before q c after, es = before ++ .call q c :: after →
    ∀ p ∈ (before.foldl step (boot first)).live, p ≠ q →
      answers p (boot first) es = answers p (boot first) (before ++ after)

/-- A call asks for what every other process has, and not for root unless the caller is root. -/
def Agrees : Event → Prop
  | .call p c => p ∈ s.live →
    (∀ q ∈ s.live, q ≠ p → ((s.creds q).apply c).seen = (s.creds q).seen) ∧
      ((s.creds p).seen.1 ≠ 0 → ((s.creds p).apply c).seen.1 ≠ 0)
  | _ => True

end System

/-! ## One step -/

lemma Creds.seen_apply_congr {c d : Creds} (h : c.seen = d.seen) (call : CredCall) :
    (c.apply call).seen = (d.apply call).seen := by
  obtain ⟨huid, hgid⟩ := Prod.mk.inj h
  cases call with
  | setuid uid => exact Prod.ext rfl hgid
  | setgid gid => exact Prod.ext huid rfl

namespace System

variable {s s' : System} {p : Nat}

lemma creds_call_self (hp : p ∈ s.live) (c : CredCall) :
    (s.step (.call p c)).creds p = (s.creds p).apply c := by
  rw [step, if_pos hp]
  simp [creds]

lemma creds_call_ne {q : Nat} (h : q ≠ p) (c : CredCall) :
    (s.step (.call p c)).creds q = s.creds q := by
  rw [step]
  split
  · simp [creds, h]
  · rfl

lemma PerProcess.fork (h : s.PerProcess) (parent child : Nat) :
    (s.step (.fork parent child)).PerProcess := by
  rw [step]
  split
  · next hfork =>
    intro p hp
    by_cases hchild : p = child
    · subst hchild
      simpa [creds] using h parent hfork.1
    · have hlive : p ∈ s.live := (List.mem_cons.mp hp).resolve_left hchild
      simpa [creds, hchild] using h p hlive
  · exact h

lemma PerProcess.exit (h : s.PerProcess) (p : Nat) : (s.step (.exit p)).PerProcess :=
  fun q hq => h q (List.mem_filter.mp hq).1

/-- A call keeps to its caller exactly if it asks for what the others have. -/
lemma PerProcess.call_iff (h : s.PerProcess) (hp : p ∈ s.live) (c : CredCall) :
    (s.step (.call p c)).PerProcess ↔
      ∀ q ∈ s.live, q ≠ p → ((s.creds q).apply c).seen = (s.creds q).seen := by
  have hlive : (s.step (.call p c)).live = s.live := by rw [step, if_pos hp]
  have hcurrent : ∀ q ∈ s.live,
      (s.step (.call p c)).current.seen = ((s.creds q).apply c).seen := by
    intro q hq
    rw [step, if_pos hp]
    exact Creds.seen_apply_congr (h q hq) c
  rw [PerProcess, hlive]
  constructor
  · intro hper q hq hne
    rw [← hcurrent q hq, hper q hq, creds_call_ne hne]
  · intro hothers q hq
    rw [hcurrent q hq]
    by_cases hne : q = p
    · rw [hne, creds_call_self hp]
    · rw [creds_call_ne hne, hothers q hq hne]

lemma perProcess_step_iff (h : s.PerProcess) (e : Event) :
    (s.step e).PerProcess ∧ s.StaysOrdinary e ↔ s.Agrees e := by
  cases e with
  | fork parent child => exact iff_of_true ⟨h.fork parent child, trivial⟩ trivial
  | exit p => exact iff_of_true ⟨h.exit p, trivial⟩ trivial
  | check p question => exact iff_of_true ⟨h, trivial⟩ trivial
  | call p c =>
    by_cases hp : p ∈ s.live
    · rw [h.call_iff hp, StaysOrdinary, creds_call_self hp]
      exact ⟨fun hkept _ => ⟨hkept.1, hkept.2 hp⟩,
        fun hagrees => ⟨(hagrees hp).1, fun _ => (hagrees hp).2⟩⟩
    · have hsame : s.step (.call p c) = s := by rw [step, if_neg hp]
      rw [hsame]
      exact iff_of_true ⟨h, fun hlive => absurd hlive hp⟩ fun hlive => absurd hlive hp

lemma PerProcess.boot (first : Nat) : (boot first).PerProcess := fun _ _ => rfl

/-! ## Two runs -/

structure Alike (s s' : System) : Prop where
  live : s'.live = s.live
  born : s'.born = s.born
  current : s'.current.seen = s.current.seen
  per : s.PerProcess
  per' : s'.PerProcess

lemma Alike.creds (h : Alike s s') (hp : p ∈ s.live) : (s'.creds p).seen = (s.creds p).seen := by
  rw [← h.per p hp, ← h.current, h.per' p (h.live ▸ hp)]

lemma Alike.agrees (h : Alike s s') {e : Event} (he : s.Agrees e) : s'.Agrees e := by
  cases e with
  | fork parent child => trivial
  | exit p => trivial
  | check p question => trivial
  | call p c =>
    intro hp
    rw [h.live] at hp
    obtain ⟨hothers, hordinary⟩ := he hp
    refine ⟨fun q hq hne => ?_, ?_⟩
    · rw [h.live] at hq
      rw [Creds.seen_apply_congr (h.creds hq), h.creds hq, hothers q hq hne]
    · rw [Creds.seen_apply_congr (h.creds hp), h.creds hp]
      exact hordinary

lemma Alike.step (h : Alike s s') {e : Event} (he : s.Agrees e) : Alike (s.step e) (s'.step e) := by
  have hper := ((perProcess_step_iff h.per e).mpr he).1
  have hper' := ((perProcess_step_iff h.per' e).mpr (h.agrees he)).1
  cases e with
  | fork parent child =>
    refine ⟨?_, ?_, ?_, hper, hper'⟩
    · simp only [System.step, h.live, h.born]
      split
      · rfl
      · exact h.live
    · simp only [System.step, h.live, h.born]
      split
      · rfl
      · exact h.born
    · simp only [System.step, h.live, h.born]
      split
      · exact h.current
      · exact h.current
  | exit p => exact ⟨congrArg (List.filter (· ≠ p)) h.live, h.born, h.current, hper, hper'⟩
  | check p question => exact ⟨h.live, h.born, h.current, hper, hper'⟩
  | call p c =>
    refine ⟨?_, ?_, ?_, hper, hper'⟩
    · simp only [System.step, h.live]
      split
      · rfl
      · exact h.live
    · simp only [System.step, h.live]
      split
      · exact h.born
      · exact h.born
    · simp only [System.step, h.live]
      split
      · exact Creds.seen_apply_congr h.current c
      · exact h.current

lemma Alike.answers (h : Alike s s') {es : List Event} (hes : Machine.Meets System.step Agrees s es)
    (p : Nat) : answers p s' es = answers p s es := by
  induction es generalizing s s' with
  | nil => rfl
  | cons e es ih =>
    have hrest := ih (h.step hes.1) hes.2
    cases e with
    | fork parent child => exact hrest
    | exit q => exact hrest
    | call q c => exact hrest
    | check q question =>
      have hrest' : System.answers p s' es = System.answers p s es := hrest
      rw [System.answers, System.answers, h.live, h.current, hrest']

lemma answers_append (p : Nat) (s : System) (es es' : List Event) :
    answers p s (es ++ es') = answers p s es ++ answers p (es.foldl step s) es' := by
  induction es generalizing s with
  | nil => rfl
  | cons e es ih =>
    cases e with
    | fork parent child => exact ih _
    | exit q => exact ih _
    | call q c => exact ih _
    | check q question =>
      have hrest : answers p s (es ++ es') = answers p s es ++ answers p (es.foldl step s) es' := ih s
      rw [List.cons_append, answers, answers, hrest]
      split
      · rfl
      · rfl

lemma Alike.call (h : s.PerProcess) {q : Nat} {c : CredCall} (hp : p ∈ s.live) (hne : p ≠ q)
    (hagrees : s.Agrees (.call q c)) : Alike (s.step (.call q c)) s := by
  have hper := ((perProcess_step_iff h _).mpr hagrees).1
  by_cases hq : q ∈ s.live
  · have hsame : (s.current.apply c).seen = s.current.seen := by
      rw [Creds.seen_apply_congr (h p hp), h p hp, (hagrees hq).1 p hp hne]
    refine ⟨?_, ?_, ?_, hper, h⟩
    · rw [System.step, if_pos hq]
    · rw [System.step, if_pos hq]
    · rw [System.step, if_pos hq]
      exact hsame.symm
  · rw [System.step, if_neg hq]
    exact ⟨rfl, rfl, rfl, h, h⟩

/-- Credentials are per process in a run if and only if all its calls ask for what the other
processes have, and not for root. -/
theorem isolated_iff_agrees (first : Nat) (es : List Event) :
    Isolated first es ↔ Machine.Meets step Agrees (boot first) es := by
  have hruns : ∀ es, Machine.Always step PerProcess (boot first) es ∧
      Machine.Meets step StaysOrdinary (boot first) es ↔ Machine.Meets step Agrees (boot first) es :=
    Machine.always_and_meets_iff (fun s e h => perProcess_step_iff h e) (.boot first)
  constructor
  · intro h
    exact (hruns es).mp ⟨h.own, h.ordinary⟩
  intro h
  obtain ⟨hown, hordinary⟩ := (hruns es).mpr h
  refine ⟨hown, hordinary, ?_⟩
  rintro before q c after rfl p hp hne
  obtain ⟨hbefore, hcall, hafter⟩ := Machine.meets_append.mp h
  have hper := ((hruns before).mpr hbefore).1.foldl
  have halike := Alike.call hper hp hne hcall
  rw [answers_append, answers_append]
  exact congrArg _ (halike.answers hafter p).symm

def homeOfSeven : Question :=
  .homeAccess (fun _ => some Inode.iflagEncrypted) (fun _ => some 7) (homeDir ++ [120])

/-- The parent of a root process gives up root: the child is refused what it was allowed. And a
process that has given up root takes it back. -/
theorem setuid_reaches_child :
    answers 2 (boot 1) [.fork 1 2, .call 1 (.setuid 1000), .check 2 homeOfSeven] =
        [.access (.error eaccess)] ∧
      answers 2 (boot 1) [.fork 1 2, .check 2 homeOfSeven] = [.access (.ok ())] ∧
      ¬ Isolated 1 [.fork 1 2, .call 1 (.setuid 1000), .check 2 homeOfSeven] ∧
      ¬ Isolated 1 [.call 1 (.setuid 1000), .call 1 (.setuid 0)] := by
  refine ⟨rfl, rfl, fun h => ?_, fun h => ?_⟩
  · have hchild := h.own.2.2.1 2 (by decide)
    revert hchild
    decide
  · have hroot := h.ordinary.2.1 (by decide)
    revert hroot
    decide

end System

end Twilight.Syscall

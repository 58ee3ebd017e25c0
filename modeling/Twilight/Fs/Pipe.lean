/-
Pipes. A pipe is a byte buffer behind a lock with one read end and one write end, each shared by
any number of descriptors. A call takes the lock once a turn; between two turns, and while a call
waits to be woken, every other party may take its own.
-/
import Mathlib.Data.List.Basic
import Mathlib.Order.Lattice
import Mathlib.Logic.Function.Basic

namespace Twilight.Pipe

open Function List Option

def pipeBuf : Nat := 4096

def pipeCapacity : Nat := pipeBuf

inductive PipeEndKind where
  | read
  | write
deriving DecidableEq

structure PipeInner where
  buffer : List UInt8
  readers : Nat
  writers : Nat

def PipeInner.new : PipeInner := ⟨[], 1, 1⟩

inductive Errno where
  | eagain
  | eintr
  | epipe
  | ebadf
deriving DecidableEq

/-- A call of `read` with a buffer of `len` bytes, or of `write`. -/
inductive Call where
  | read (len : Nat) (nonblock : Bool)
  | write (data : List UInt8) (nonblock : Bool)

/-- `bytes` is the `Ok` of `read` with what it stored, `count` the `Ok` of `write`. -/
inductive Answer where
  | bytes (data : List UInt8)
  | count (n : Nat)
  | err (code : Errno)
deriving DecidableEq

/-! ## One turn under the lock -/

variable (inner : PipeInner)

/-- The body of the loop of `PipeEnd::read` up to the point where it waits; `signal` is whether
the caller has an unblocked signal. -/
def readTurn (len : Nat) (nonblock signal : Bool) : Option Answer × PipeInner :=
  if !inner.buffer.isEmpty then
    let count := min len inner.buffer.length
    (some (.bytes (inner.buffer.take count)), { inner with buffer := inner.buffer.drop count })
  else if inner.writers = 0 then (some (.bytes []), inner)
  else if nonblock then (some (.err .eagain), inner)
  else if signal then (some (.err .eintr), inner)
  else (none, inner)

/-- The same for `PipeEnd::write`. A write of at most `pipeBuf` bytes is all or nothing. -/
def writeTurn (data : List UInt8) (nonblock signal : Bool) : Option Answer × PipeInner :=
  if inner.readers = 0 then (some (.err .epipe), inner)
  else
    let available := pipeCapacity - inner.buffer.length
    let atomicWrite : Bool := data.length ≤ pipeBuf
    let canWrite : Bool := if atomicWrite then available ≥ data.length else available > 0
    if canWrite then
      let count := if atomicWrite then data.length else min available data.length
      (some (.count count), { inner with buffer := inner.buffer ++ data.take count })
    else if nonblock then (some (.err .eagain), inner)
    else if signal then (some (.err .eintr), inner)
    else (none, inner)

namespace Call

/-- What is answered before the lock is taken: a descriptor of the wrong end is refused by the
system call, and an empty buffer needs no turn. -/
def enter (kind : PipeEndKind) : Call → Option Answer
  | .read len _ =>
    if kind = .write then some (.err .ebadf)
    else if kind ≠ .read then some (.err .epipe)
    else if len = 0 then some (.bytes [])
    else none
  | .write data _ =>
    if kind = .read then some (.err .ebadf)
    else if kind ≠ .write then some (.err .epipe)
    else if data.isEmpty then some (.count 0)
    else none

def turn (inner : PipeInner) (signal : Bool) : Call → Option Answer × PipeInner
  | .read len nonblock => readTurn inner len nonblock signal
  | .write data nonblock => writeTurn inner data nonblock signal

end Call

/-! ## The parties -/

/-- A call in progress, with the end it goes through; a waiting call has left the lock. -/
structure Running where
  side : PipeEndKind
  call : Call
  waiting : Bool

/-- A pipe with everyone who uses it: the number of descriptors of each end, the calls in
progress, each of which holds its end as well, and whether an end has been dropped. `log` has the
answered calls in order; it is not in the source. -/
structure System where
  inner : PipeInner
  refs : PipeEndKind → Nat
  calls : List Running
  dropped : PipeEndKind → Bool
  log : List (Call × Answer)

/-- `dup` and `close` stand for all that makes or closes a descriptor, `drop` is the destructor of
an end. -/
inductive Event where
  | dup (kind : PipeEndKind)
  | close (kind : PipeEndKind)
  | start (kind : PipeEndKind) (call : Call)
  | turn (i : Nat) (signal : Bool)
  | resume (i : Nat) (signal : Bool)
  | drop (kind : PipeEndKind)

namespace System

def new : System where
  inner := .new
  refs _ := 1
  calls := []
  dropped _ := false
  log := []

variable (s : System)

def Unheld (kind : PipeEndKind) : Prop := s.refs kind = 0 ∧ ∀ r ∈ s.calls, r.side ≠ kind

instance (s : System) (kind : PipeEndKind) : Decidable (s.Unheld kind) :=
  inferInstanceAs (Decidable (_ ∧ _))

def finish (i : Nat) (call : Call) (answer : Answer) : System :=
  { s with calls := s.calls.eraseIdx i, log := s.log ++ [(call, answer)] }

def setWaiting (i : Nat) (waiting : Bool) : System :=
  { s with calls := s.calls.modify i fun r => { r with waiting := waiting } }

def dropEnd (inner : PipeInner) : PipeEndKind → PipeInner
  | .read => { inner with readers := inner.readers - 1 }
  | .write => { inner with writers := inner.writers - 1 }

def step : Event → System
  | .dup kind =>
    if s.refs kind = 0 then s
    else { s with refs := update s.refs kind (s.refs kind + 1) }
  | .close kind => { s with refs := update s.refs kind (s.refs kind - 1) }
  | .start kind call =>
    if s.refs kind = 0 then s
    else
      match call.enter kind with
      | some answer => { s with log := s.log ++ [(call, answer)] }
      | none => { s with calls := s.calls ++ [⟨kind, call, false⟩] }
  | .turn i signal =>
    match s.calls[i]? with
    | some ⟨_, call, false⟩ =>
      match call.turn s.inner signal with
      | (some answer, inner) => { s with inner := inner }.finish i call answer
      | (none, inner) => { s with inner := inner }.setWaiting i true
    | _ => s
  | .resume i signal =>
    match s.calls[i]? with
    | some ⟨_, call, true⟩ =>
      if signal then s.finish i call (.err .eintr) else s.setWaiting i false
    | _ => s
  | .drop kind =>
    if s.Unheld kind ∧ s.dropped kind = false then
      { s with inner := dropEnd s.inner kind, dropped := update s.dropped kind true }
    else s

def run (events : List Event) : System := events.foldl step s

end System

/-! ## What the answers say -/

def acceptedBy : Call × Answer → List UInt8
  | (.write data _, .count n) => data.take n
  | _ => []

def returnedBy : Call × Answer → List UInt8
  | (.read _ _, .bytes data) => data
  | _ => []

variable (log : List (Call × Answer))

def accepted : List UInt8 := log.flatMap acceptedBy

def returned : List UInt8 := log.flatMap returnedBy

def PipeInner.count : PipeEndKind → Nat
  | .read => inner.readers
  | .write => inner.writers

/-- What one answer says about the pipe it was given on and the pipe after it. -/
structure Tells (s s' : System) (call : Call) (answer : Answer) : Prop where
  whole : ∀ data nonblock n, call = .write data nonblock → answer = .count n →
    data.length ≤ pipeBuf → n = data.length ∧ accepted s'.log = accepted s.log ++ data
  endOfFile : ∀ len nonblock, call = .read len nonblock → 0 < len → answer = .bytes [] →
    s.inner.buffer = [] ∧ s.Unheld .write
  broken : ∀ data nonblock, call = .write data nonblock → answer = .err .epipe → s.Unheld .read

/-- What holds in every state: the buffer has the bytes accepted and not yet returned and fits,
and an end is counted until it is dropped, after which nobody holds it. -/
structure Good (s : System) : Prop where
  fifo : accepted s.log = returned s.log ++ s.inner.buffer
  bounded : s.inner.buffer.length ≤ pipeCapacity
  counted : ∀ kind, s.inner.count kind = if s.dropped kind then 0 else 1
  unheld : ∀ kind, s.dropped kind = true → s.Unheld kind

variable (entry : Call × Answer)

lemma accepted_append :
    accepted (log ++ [entry]) = accepted log ++ acceptedBy entry := by
  rw [accepted, flatMap_append, flatMap_singleton, accepted]

lemma returned_append :
    returned (log ++ [entry]) = returned log ++ returnedBy entry := by
  rw [returned, flatMap_append, flatMap_singleton, returned]

/-- What a turn does, whether or not it answers: bytes move from the front of the buffer to the
reader, or from the writer to its end. -/
structure TurnEffect (inner inner' : PipeInner) (call : Call) (answer : Option Answer) :
    Prop where
  moved : inner.buffer ++ (answer.map fun a => acceptedBy (call, a)).getD [] =
    (answer.map fun a => returnedBy (call, a)).getD [] ++ inner'.buffer
  bounded : inner.buffer.length ≤ pipeCapacity → inner'.buffer.length ≤ pipeCapacity
  count : ∀ kind, inner'.count kind = inner.count kind

variable {call : Call} {s : System} {event : Event} {nonblock : Bool}

lemma TurnEffect.unchanged {inner : PipeInner} {answer : Option Answer}
    (h : ∀ a, answer = some a → acceptedBy (call, a) = [] ∧ returnedBy (call, a) = []) :
    TurnEffect inner inner call answer := by
  refine ⟨?_, id, fun _ => rfl⟩
  cases answer with
  | none => simp
  | some a => simp [h a rfl]

lemma readTurn_cases (len : Nat) (nonblock signal : Bool) :
    (inner.buffer ≠ [] ∧ readTurn inner len nonblock signal =
        (some (.bytes (inner.buffer.take len)), { inner with buffer := inner.buffer.drop len })) ∨
      (inner.buffer = [] ∧ inner.writers = 0 ∧
        readTurn inner len nonblock signal = (some (.bytes []), inner)) ∨
      ∃ answer, (∀ a, answer = some a → a = .err .eagain ∨ a = .err .eintr) ∧
        readTurn inner len nonblock signal = (answer, inner) := by
  unfold readTurn
  split
  · next hne =>
    refine Or.inl ⟨by simpa using hne, ?_⟩
    dsimp only
    obtain h | h := le_total len inner.buffer.length
    · rw [min_eq_left h]
    · rw [min_eq_right h, take_length, drop_length, take_of_length_le h, drop_eq_nil_of_le h]
  next hempty =>
  have hnil : inner.buffer = [] := by simpa using hempty
  split
  · next hwriters => exact Or.inr (Or.inl ⟨hnil, hwriters, rfl⟩)
  refine Or.inr (Or.inr ?_)
  split
  · exact ⟨_, fun a ha => Or.inl (Option.some.inj ha).symm, rfl⟩
  split
  · exact ⟨_, fun a ha => Or.inr (Option.some.inj ha).symm, rfl⟩
  · exact ⟨none, nofun, rfl⟩

lemma writeTurn_cases (data : List UInt8) (nonblock signal : Bool) :
    (inner.readers = 0 ∧ writeTurn inner data nonblock signal = (some (.err .epipe), inner)) ∨
      (∃ n, n ≤ data.length ∧ n ≤ pipeCapacity - inner.buffer.length ∧
        (data.length ≤ pipeBuf → n = data.length) ∧
        writeTurn inner data nonblock signal =
          (some (.count n), { inner with buffer := inner.buffer ++ data.take n })) ∨
      ∃ answer, (∀ a, answer = some a → a = .err .eagain ∨ a = .err .eintr) ∧
        writeTurn inner data nonblock signal = (answer, inner) := by
  unfold writeTurn
  split
  · next hreaders => exact Or.inl ⟨hreaders, rfl⟩
  refine Or.inr ?_
  dsimp only
  generalize hcan : (if decide (data.length ≤ pipeBuf) = true then
    decide (pipeCapacity - inner.buffer.length ≥ data.length) else
    decide (pipeCapacity - inner.buffer.length > 0)) = can
  cases can with
  | true =>
    refine Or.inl ⟨_, ?_, ?_, ?_, rfl⟩
    · split <;> omega
    · by_cases hsmall : data.length ≤ pipeBuf
      · simpa [hsmall] using hcan
      · rw [if_neg (by simpa using hsmall)]
        exact min_le_left _ _
    · intro hsmall
      simp [hsmall]
  | false =>
    refine Or.inr ?_
    rw [if_neg (by simp)]
    split
    · exact ⟨_, fun a ha => Or.inl (Option.some.inj ha).symm, rfl⟩
    split
    · exact ⟨_, fun a ha => Or.inr (Option.some.inj ha).symm, rfl⟩
    · exact ⟨none, nofun, rfl⟩

lemma TurnEffect.of_refused {inner : PipeInner} {answer : Option Answer}
    (h : ∀ a, answer = some a → a = .err .eagain ∨ a = .err .eintr) :
    TurnEffect inner inner call answer := by
  apply TurnEffect.unchanged
  intro a ha
  obtain rfl | rfl := h a ha
  · cases call with
    | read => exact ⟨rfl, rfl⟩
    | write => exact ⟨rfl, rfl⟩
  · cases call with
    | read => exact ⟨rfl, rfl⟩
    | write => exact ⟨rfl, rfl⟩

lemma turn_effect (signal : Bool) (call : Call) :
    TurnEffect inner (call.turn inner signal).2 call (call.turn inner signal).1 := by
  cases call with
  | read len nonblock =>
    rw [Call.turn]
    obtain ⟨-, h⟩ | ⟨-, -, h⟩ | ⟨answer, hanswer, h⟩ := readTurn_cases inner len nonblock signal
    · rw [h]
      refine ⟨by simp [acceptedBy, returnedBy], ?_, fun kind => by cases kind <;> rfl⟩
      intro hle
      exact le_trans (by simp) hle
    · rw [h]
      apply TurnEffect.unchanged
      intro a ha
      cases ha
      exact ⟨rfl, rfl⟩
    · rw [h]
      exact .of_refused hanswer
  | write data nonblock =>
    rw [Call.turn]
    obtain ⟨-, h⟩ | ⟨n, hn, hroom, -, h⟩ | ⟨answer, hanswer, h⟩ :=
      writeTurn_cases inner data nonblock signal
    · rw [h]
      apply TurnEffect.unchanged
      intro a ha
      cases ha
      exact ⟨rfl, rfl⟩
    · rw [h]
      refine ⟨by simp [acceptedBy, returnedBy], ?_, fun kind => by cases kind <;> rfl⟩
      intro hle
      rw [length_append, length_take]
      omega
    · rw [h]
      exact .of_refused hanswer

/-! ## Steps and runs -/

lemma System.Unheld.of_sides {s' : System} {kind : PipeEndKind} (h : s.Unheld kind)
    (hrefs : s'.refs = s.refs) (hsides : ∀ r' ∈ s'.calls, ∃ r ∈ s.calls, r'.side = r.side) :
    s'.Unheld kind := by
  refine ⟨by rw [hrefs, h.1], ?_⟩
  intro r' hr'
  obtain ⟨r, hr, hside⟩ := hsides r' hr'
  rw [hside]
  exact h.2 r hr

variable (calls : List Running)

lemma sides_eraseIdx (i : Nat) : ∀ r' ∈ calls.eraseIdx i, ∃ r ∈ calls, r'.side = r.side :=
  fun r' hr' => ⟨r', mem_of_mem_eraseIdx hr', rfl⟩

lemma sides_modify (i : Nat) (waiting : Bool) :
    ∀ r' ∈ calls.modify i (fun r => { r with waiting := waiting }),
      ∃ r ∈ calls, r'.side = r.side := by
  induction calls generalizing i with
  | nil => simp
  | cons r calls ih =>
    intro r' hr'
    cases i with
    | zero =>
      rw [modify_zero_cons, mem_cons] at hr'
      obtain rfl | hr' := hr'
      · exact ⟨r, mem_cons_self, rfl⟩
      · exact ⟨r', mem_cons_of_mem _ hr', rfl⟩
    | succ i =>
      rw [modify_succ_cons, mem_cons] at hr'
      obtain rfl | hr' := hr'
      · exact ⟨r', mem_cons_self, rfl⟩
      · obtain ⟨q, hq, hside⟩ := ih i r' hr'
        exact ⟨q, mem_cons_of_mem _ hq, hside⟩

namespace Good

variable {s s' : System}

lemma new : Good System.new := by
  refine ⟨rfl, Nat.zero_le _, fun kind => ?_, nofun⟩
  cases kind with
  | read => rfl
  | write => rfl

lemma of_quiet (h : Good s) (hlog : s'.log = s.log) (hinner : s'.inner = s.inner)
    (hdropped : s'.dropped = s.dropped)
    (hunheld : ∀ kind, s.dropped kind = true → s'.Unheld kind) : Good s' where
  fifo := by rw [hlog, hinner, h.fifo]
  bounded := hinner ▸ h.bounded
  counted kind := by rw [hinner, hdropped, h.counted]
  unheld kind hkind := hunheld kind (by rwa [hdropped] at hkind)

lemma of_turn (h : Good s) {call : Call} {inner : PipeInner} {answer : Option Answer}
    (hturn : TurnEffect s.inner inner call answer) (hinner : s'.inner = inner)
    (hlog : s'.log = s.log ++ (answer.map fun a => (call, a)).toList)
    (hdropped : s'.dropped = s.dropped) (hrefs : s'.refs = s.refs)
    (hsides : ∀ r' ∈ s'.calls, ∃ r ∈ s.calls, r'.side = r.side) : Good s' where
  fifo := by
    have hmoved := hturn.moved
    cases answer with
    | none =>
      simp only [map_none, getD_none, append_nil, nil_append] at hmoved
      rw [hlog, hinner, ← hmoved]
      simpa using h.fifo
    | some a =>
      simp only [map_some, getD_some] at hmoved
      rw [hlog, hinner, map_some, toList_some, accepted_append, returned_append,
        append_assoc, ← hmoved, ← append_assoc, h.fifo]
  bounded := hinner ▸ hturn.bounded h.bounded
  counted kind := by rw [hinner, hturn.count, hdropped, h.counted]
  unheld kind hkind := by
    rw [hdropped] at hkind
    exact (h.unheld kind hkind).of_sides hrefs hsides

lemma enter_quiet {kind : PipeEndKind} {call : Call} {answer : Answer}
    (h : call.enter kind = some answer) :
    acceptedBy (call, answer) = [] ∧ returnedBy (call, answer) = [] := by
  cases call with
  | read len nonblock =>
    simp only [Call.enter] at h
    repeat' split at h
    all_goals cases h
    all_goals exact ⟨rfl, rfl⟩
  | write data nonblock =>
    simp only [Call.enter] at h
    repeat' split at h
    all_goals cases h
    all_goals exact ⟨rfl, rfl⟩

lemma step (h : Good s) (event : Event) : Good (s.step event) := by
  cases event with
  | dup kind =>
    rw [System.step]
    split
    · exact h
    next href =>
    refine h.of_quiet rfl rfl rfl fun kind' hkind => ⟨?_, (h.unheld kind' hkind).2⟩
    have hne : kind' ≠ kind := by
      rintro rfl
      exact href (h.unheld _ hkind).1
    simp only [update_of_ne hne]
    exact (h.unheld kind' hkind).1
  | close kind =>
    refine h.of_quiet rfl rfl rfl fun kind' hkind => ⟨?_, (h.unheld kind' hkind).2⟩
    have hzero := (h.unheld kind' hkind).1
    by_cases hne : kind' = kind
    · subst hne
      simp [System.step, hzero]
    · simp [System.step, update_of_ne hne, hzero]
  | start kind call =>
    rw [System.step]
    split
    · exact h
    next href =>
    split
    · next answer henter =>
      have hquiet : TurnEffect s.inner s.inner call (some answer) := by
        apply TurnEffect.unchanged
        intro a ha
        cases ha
        exact enter_quiet henter
      exact h.of_turn hquiet rfl rfl rfl rfl fun r hr => ⟨r, hr, rfl⟩
    · refine h.of_quiet rfl rfl rfl fun kind' hkind => ⟨(h.unheld kind' hkind).1, ?_⟩
      intro r hr
      obtain hr | hr := mem_append.mp hr
      · exact (h.unheld kind' hkind).2 r hr
      · obtain rfl := mem_singleton.mp hr
        rintro rfl
        exact href (h.unheld _ hkind).1
  | turn i signal =>
    rw [System.step]
    split
    · next call hcall =>
      have hturn := turn_effect s.inner signal call
      generalize call.turn s.inner signal = result at hturn
      obtain ⟨answer, inner⟩ := result
      cases answer with
      | some answer => exact h.of_turn hturn rfl rfl rfl rfl (sides_eraseIdx _ i)
      | none =>
        exact h.of_turn hturn rfl (append_nil _).symm rfl rfl (sides_modify _ i true)
    · exact h
  | resume i signal =>
    rw [System.step]
    split
    · next call hcall =>
      split
      · have hquiet : TurnEffect s.inner s.inner call (some (.err .eintr)) := by
          apply TurnEffect.of_refused
          intro a ha
          cases ha
          exact Or.inr rfl
        exact h.of_turn hquiet rfl rfl rfl rfl (sides_eraseIdx _ i)
      · refine h.of_quiet rfl rfl rfl fun kind hkind => ?_
        exact (h.unheld kind hkind).of_sides rfl (sides_modify _ i false)
    · exact h
  | drop kind =>
    rw [System.step]
    split
    · next hdrop =>
      obtain ⟨hunheld, hlive⟩ := hdrop
      have hbuffer : (System.dropEnd s.inner kind).buffer = s.inner.buffer := by
        cases kind with
        | read => rfl
        | write => rfl
      refine ⟨by rw [hbuffer]; exact h.fifo, by rw [hbuffer]; exact h.bounded, ?_, ?_⟩
      · intro kind'
        by_cases hne : kind' = kind
        · subst hne
          have hone := h.counted kind'
          rw [hlive] at hone
          simp only [update_self, if_true]
          cases kind' with
          | read => exact congrArg (· - 1) hone
          | write => exact congrArg (· - 1) hone
        · simp only [update_of_ne hne]
          rw [← h.counted kind']
          cases kind with
          | read =>
            cases kind' with
            | read => exact absurd rfl hne
            | write => rfl
          | write =>
            cases kind' with
            | read => rfl
            | write => exact absurd rfl hne
      · intro kind' hkind
        by_cases hne : kind' = kind
        · subst hne
          exact hunheld
        · simp only [update_of_ne hne] at hkind
          exact h.unheld kind' hkind
    · exact h

lemma run (h : Good s) (events : List Event) : Good (s.run events) :=
  List.foldlRecOn events System.step h fun _ h event _ => h.step event

lemma unheld_of_count (h : Good s) {kind : PipeEndKind} (hzero : s.inner.count kind = 0) :
    s.Unheld kind := by
  apply h.unheld
  have hcount := h.counted kind
  rw [hzero] at hcount
  by_contra hlive
  rw [if_neg hlive] at hcount
  exact absurd hcount (by decide)

end Good

lemma answer_cases {answer : Answer} (h : (s.step event).log = s.log ++ [(call, answer)]) :
    (∃ kind, call.enter kind = some answer) ∨
      (∃ signal, (call.turn s.inner signal).1 = some answer) ∨ answer = .err .eintr := by
  have hsame : ∀ {l : List (Call × Answer)}, l = s.log → l ≠ s.log ++ [(call, answer)] := by
    intro l hl
    simp [hl]
  have hone : ∀ {entry}, s.log ++ [entry] = s.log ++ [(call, answer)] → entry = (call, answer) := by
    intro entry hentry
    simpa using hentry
  cases event with
  | dup kind =>
    rw [System.step] at h
    split at h
    · exact absurd h (hsame rfl)
    · exact absurd h (hsame rfl)
  | close kind => exact absurd h (hsame rfl)
  | start kind call' =>
    rw [System.step] at h
    split at h
    · exact absurd h (hsame rfl)
    split at h
    · next henter =>
      cases hone h
      exact Or.inl ⟨kind, henter⟩
    · exact absurd h (hsame rfl)
  | turn i signal =>
    rw [System.step] at h
    split at h
    · next call' _ =>
      split at h
      · next hturn =>
        cases hone h
        exact Or.inr (Or.inl ⟨signal, by rw [hturn]⟩)
      · exact absurd h (hsame rfl)
    · exact absurd h (hsame rfl)
  | resume i signal =>
    rw [System.step] at h
    split at h
    · split at h
      · cases hone h
        exact Or.inr (Or.inr rfl)
      · exact absurd h (hsame rfl)
    · exact absurd h (hsame rfl)
  | drop kind =>
    rw [System.step] at h
    split at h
    · exact absurd h (hsame rfl)
    · exact absurd h (hsame rfl)

lemma count_eq {data : List UInt8} {n : Nat}
    (h : (s.step event).log = s.log ++ [(.write data nonblock, .count n)])
    (hsmall : data.length ≤ pipeBuf) : n = data.length := by
  obtain ⟨kind, henter⟩ | ⟨signal, hturn⟩ | hanswer := answer_cases h
  · simp only [Call.enter] at henter
    split at henter
    · simp at henter
    split at henter
    · simp at henter
    split at henter
    · next hempty =>
      have hnil : data = [] := by simpa using hempty
      simpa [hnil, eq_comm] using henter
    · simp at henter
  · rw [Call.turn] at hturn
    obtain ⟨-, hcase⟩ | ⟨m, -, -, hm, hcase⟩ | ⟨a, ha, hcase⟩ :=
      writeTurn_cases s.inner data nonblock signal
    · simp [hcase] at hturn
    · rw [hcase, Option.some.injEq, Answer.count.injEq] at hturn
      rw [← hturn, hm hsmall]
    · rw [hcase] at hturn
      obtain hcode | hcode := ha _ hturn
      · cases hcode
      · cases hcode
  · cases hanswer

lemma bytes_nil {len : Nat}
    (h : (s.step event).log = s.log ++ [(.read len nonblock, .bytes [])]) (hlen : 0 < len) :
    s.inner.buffer = [] ∧ s.inner.writers = 0 := by
  obtain ⟨kind, henter⟩ | ⟨signal, hturn⟩ | hanswer := answer_cases h
  · simp only [Call.enter, Nat.ne_of_gt hlen, if_false] at henter
    split at henter
    · simp at henter
    split at henter
    · simp at henter
    · simp at henter
  · rw [Call.turn] at hturn
    obtain ⟨hne, hcase⟩ | ⟨hnil, hwriters, -⟩ | ⟨a, ha, hcase⟩ :=
      readTurn_cases s.inner len nonblock signal
    · have htake : s.inner.buffer.take len = [] := by simpa [hcase] using hturn
      obtain hzero | hnil := take_eq_nil_iff.mp htake
      · omega
      · exact absurd hnil hne
    · exact ⟨hnil, hwriters⟩
    · rw [hcase] at hturn
      obtain hcode | hcode := ha _ hturn
      · cases hcode
      · cases hcode
  · cases hanswer

lemma epipe_readers {data : List UInt8}
    (h : (s.step event).log = s.log ++ [(.write data nonblock, .err .epipe)]) :
    s.inner.readers = 0 := by
  obtain ⟨kind, henter⟩ | ⟨signal, hturn⟩ | hanswer := answer_cases h
  · -- a descriptor of the read end is refused with another code
    cases kind with
    | read => simp [Call.enter] at henter
    | write =>
      simp only [Call.enter, reduceCtorEq, if_false, ne_eq, not_true_eq_false] at henter
      split at henter
      · simp at henter
      · simp at henter
  · rw [Call.turn] at hturn
    obtain ⟨hreaders, -⟩ | ⟨m, -, -, -, hcase⟩ | ⟨a, ha, hcase⟩ :=
      writeTurn_cases s.inner data nonblock signal
    · exact hreaders
    · simp [hcase] at hturn
    · rw [hcase] at hturn
      obtain hcode | hcode := ha _ hturn
      · cases hcode
      · cases hcode
  · cases hanswer

lemma Good.tells (h : Good s) {answer : Answer}
    (hlog : (s.step event).log = s.log ++ [(call, answer)]) :
    Tells s (s.step event) call answer where
  whole := by
    rintro data nonblock n rfl rfl hsmall
    have hn := count_eq hlog hsmall
    refine ⟨hn, ?_⟩
    rw [hlog, accepted_append, acceptedBy, hn, take_length]
  endOfFile := by
    rintro len nonblock rfl hlen rfl
    obtain ⟨hnil, hwriters⟩ := bytes_nil hlog hlen
    exact ⟨hnil, h.unheld_of_count hwriters⟩
  broken := by
    rintro data nonblock rfl rfl
    exact h.unheld_of_count (epipe_readers hlog)

/-- Whatever the parties do in whatever order, a pipe is a bounded queue: reads return a prefix of
what writes were accepted for, the buffer never exceeds its capacity, and each answer tells the
truth: a small write that succeeds is accepted whole in one piece, a read reports the end only of
an empty pipe whose write end nobody holds, and a write fails with `EPIPE` only when nobody holds
the read end. -/
theorem run_boundedFifo (events : List Event) :
    returned (System.new.run events).log <+: accepted (System.new.run events).log ∧
      (System.new.run events).inner.buffer.length ≤ pipeCapacity ∧
      ∀ event call answer,
        ((System.new.run events).step event).log = (System.new.run events).log ++ [(call, answer)] →
        Tells (System.new.run events) ((System.new.run events).step event) call answer := by
  have h := Good.new.run events
  refine ⟨⟨_, h.fifo.symm⟩, h.bounded, ?_⟩
  intro event call answer hlog
  exact h.tells hlog

-- a large write is cut short and the reader gets what was accepted
example : let s := System.new.run [.start .write (.write (List.replicate 5000 7) false),
    .turn 0 false, .start .read (.read 3 false), .turn 0 false]
    returned s.log = [7, 7, 7] ∧ (accepted s.log).length = 4096 := by
  decide +kernel

end Twilight.Pipe

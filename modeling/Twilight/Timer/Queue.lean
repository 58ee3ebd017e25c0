/-
The deadline queue of `sys::timer::queue`: wait tokens, entries ordered by deadline and token
in a binary heap, and the lazy removal of entries whose wait is over. It refines a multiset
from which the least live entry is taken.
-/
import Twilight.Lib.Heap

namespace Twilight.Timer

def u64Max : Nat := 2 ^ 64 - 1

structure WaitToken where
  raw : Nat
deriving DecidableEq

/-- What `next_token` answers once the counter has reached the end of `u64`. -/
def WaitToken.exhausted : WaitToken := ⟨u64Max⟩

inductive WakeReason where
  | deadline
  | event
  | signal
  | cancelled
deriving DecidableEq

inductive DeadlineKind where
  | sleep
  | ioTimeout
deriving DecidableEq

structure DeadlineEntry where
  deadlineNs : Nat
  pid : Nat
  token : WaitToken
  kind : DeadlineKind
deriving DecidableEq

/-- Entries are ordered by deadline, and by token where deadlines agree. -/
def DeadlineEntry.key (e : DeadlineEntry) : Nat ×ₗ Nat := toLex (e.deadlineNs, e.token.raw)

lemma DeadlineEntry.deadlineNs_le {e x : DeadlineEntry} (h : e.key ≤ x.key) :
    e.deadlineNs ≤ x.deadlineNs := by
  obtain h | ⟨h, -⟩ := Prod.Lex.le_iff.mp h
  · exact le_of_lt h
  · exact le_of_eq h

/-- The heap is in order and the counter is a `u64` that never wrapped. `capacity` is that of
the vector behind the heap, `counter` the source's field `next_token`. -/
structure TimerQueue where
  heap : Array DeadlineEntry
  capacity : Nat
  counter : Nat
  ordered : Heap.IsHeap DeadlineEntry.key heap
  counter_le : counter ≤ u64Max

namespace TimerQueue

def new : TimerQueue where
  heap := #[]
  capacity := 0
  counter := 1
  ordered := Heap.isHeap_empty _
  counter_le := by decide

/-- Mints a token. At the end of `u64` the counter stays where it is. -/
def nextToken (q : TimerQueue) : WaitToken × TimerQueue :=
  if h : q.counter = u64Max then (WaitToken.exhausted, q)
  else (⟨q.counter⟩,
    { q with counter := q.counter + 1, counter_le := by have := q.counter_le; omega })

def pushRaw (q : TimerQueue) (entry : DeadlineEntry) : TimerQueue :=
  { q with
    heap := Heap.push DeadlineEntry.key q.heap entry
    ordered := Heap.isHeap_push _ q.ordered entry }

/-- Pushes an entry. A full vector is grown first: `granted` is the room the allocator gives
beyond the one slot asked for, `none` when it has no memory. -/
def tryReservePush (q : TimerQueue) (entry : DeadlineEntry) (granted : Option Nat) :
    Bool × TimerQueue :=
  if q.heap.size = q.capacity then
    match granted with
    | none => (false, q)
    | some extra => (true, { q with capacity := q.heap.size + 1 + extra }.pushRaw entry)
  else (true, q.pushRaw entry)

/-- Pushes into capacity reserved before. The check that there is some is a debug assertion;
without it a full vector grows as any vector does. -/
def pushAssumed (q : TimerQueue) (entry : DeadlineEntry) (extra : Nat) : TimerQueue :=
  if q.heap.size < q.capacity then q.pushRaw entry
  else { q with capacity := q.heap.size + 1 + extra }.pushRaw entry

def popHead (q : TimerQueue) : Option DeadlineEntry × TimerQueue :=
  match q.heap[0]? with
  | none => (none, q)
  | some entry =>
    (some entry,
      { q with
        heap := Heap.pop DeadlineEntry.key q.heap
        ordered := Heap.isHeap_pop _ q.ordered })

def entries (q : TimerQueue) : Multiset DeadlineEntry := Heap.contents q.heap

variable {q : TimerQueue} {head : DeadlineEntry}

lemma popHead_entries (h : q.heap[0]? = some head) :
    q.entries = head ::ₘ q.popHead.2.entries := by
  rw [popHead, h]
  exact Heap.contents_pop DeadlineEntry.key h

lemma popHead_size (h : q.heap[0]? = some head) :
    q.popHead.2.heap.size < q.heap.size := by
  have hcard := congrArg Multiset.card (popHead_entries h)
  rw [Multiset.card_cons] at hcard
  simp only [entries, Heap.contents, Multiset.coe_card, Array.length_toList] at hcard
  omega

/-- Takes the first due entry whose wait is live; due entries before it are discarded. -/
def popDue (nowNs : Nat) (isLive : Nat → WaitToken → Bool) (q : TimerQueue) :
    Option DeadlineEntry × TimerQueue :=
  match _h : q.heap[0]? with
  | none => (none, q)
  | some head =>
    if nowNs < head.deadlineNs then (none, q)
    else if isLive head.pid head.token then (some head, q.popHead.2)
    else popDue nowNs isLive q.popHead.2
termination_by q.heap.size
decreasing_by exact popHead_size _h

/-- Discards leading entries whose wait is over; answers whether there was one. -/
def drainStaleHead (isLive : Nat → WaitToken → Bool) (q : TimerQueue) : Bool × TimerQueue :=
  match _h : q.heap[0]? with
  | none => (false, q)
  | some head =>
    if isLive head.pid head.token then (false, q)
    else (true, (drainStaleHead isLive q.popHead.2).2)
termination_by q.heap.size
decreasing_by exact popHead_size _h

def peekDeadlineNs (isLive : Nat → WaitToken → Bool) (q : TimerQueue) : Option Nat × TimerQueue :=
  let q' := (drainStaleHead isLive q).2
  (q'.heap[0]?.map DeadlineEntry.deadlineNs, q')

lemma popDue_empty (h : q.heap[0]? = none) (nowNs : Nat)
    (isLive : Nat → WaitToken → Bool) : popDue nowNs isLive q = (none, q) := by
  rw [popDue]
  split
  · rfl
  · simp_all

lemma popDue_head (h : q.heap[0]? = some head) (nowNs : Nat) (isLive : Nat → WaitToken → Bool) :
    popDue nowNs isLive q =
      if nowNs < head.deadlineNs then (none, q)
      else if isLive head.pid head.token then (some head, q.popHead.2)
      else popDue nowNs isLive q.popHead.2 := by
  rw [popDue]
  split <;> simp_all

lemma drainStaleHead_empty (h : q.heap[0]? = none)
    (isLive : Nat → WaitToken → Bool) : drainStaleHead isLive q = (false, q) := by
  rw [drainStaleHead]
  split
  · rfl
  · simp_all

lemma drainStaleHead_head (h : q.heap[0]? = some head) (isLive : Nat → WaitToken → Bool) :
    drainStaleHead isLive q =
      if isLive head.pid head.token then (false, q)
      else (true, (drainStaleHead isLive q.popHead.2).2) := by
  rw [drainStaleHead]
  split <;> simp_all

@[simp]
lemma pushRaw_entries (q : TimerQueue) (entry : DeadlineEntry) :
    (q.pushRaw entry).entries = entry ::ₘ q.entries :=
  Heap.contents_push DeadlineEntry.key q.heap entry

lemma tryReservePush_cases (q : TimerQueue) (entry : DeadlineEntry) (granted : Option Nat) :
    granted = none ∧ q.tryReservePush entry granted = (false, q) ∨
      ∃ q', q.tryReservePush entry granted = (true, q') ∧
        q'.entries = entry ::ₘ q.entries ∧ q'.counter = q.counter := by
  unfold tryReservePush
  split
  · cases granted with
    | none => exact Or.inl ⟨rfl, rfl⟩
    | some extra => exact Or.inr ⟨_, rfl, pushRaw_entries _ _, rfl⟩
  · exact Or.inr ⟨_, rfl, pushRaw_entries _ _, rfl⟩

lemma entries_eq_zero (h : q.heap[0]? = none) : q.entries = 0 := by
  rw [Array.getElem?_eq_none_iff, Nat.le_zero, Array.size_eq_zero_iff] at h
  rw [entries, h]
  rfl

lemma head_mem (h : q.heap[0]? = some head) :
    head ∈ q.entries := by
  rw [popHead_entries h]
  exact Multiset.mem_cons_self _ _

lemma mem_entries_of_popHead {x : DeadlineEntry}
    (h : q.heap[0]? = some head) (hx : x ∈ q.popHead.2.entries) : x ∈ q.entries := by
  rw [popHead_entries h]
  exact Multiset.mem_cons_of_mem hx

lemma head_le {x : DeadlineEntry} (h : q.heap[0]? = some head)
    (hx : x ∈ q.entries) : head.key ≤ x.key :=
  q.ordered.head_le_of_mem _ h hx

end TimerQueue

/-! ## The queue as a sorted multiset -/

/-- What a call of `pop_due` at `nowNs` does to the stored entries `M`. -/
structure Popped (M : Multiset DeadlineEntry) (nowNs : Nat) (isLive : Nat → WaitToken → Bool)
    (r : Option DeadlineEntry) (M' : Multiset DeadlineEntry) : Prop where
  none_iff : r = none ↔ ∀ x ∈ M, isLive x.pid x.token → nowNs < x.deadlineNs
  none_rest : r = none → M' = M.filter fun x => nowNs < x.deadlineNs
  least : ∀ e, r = some e → e ∈ M ∧ isLive e.pid e.token ∧ e.deadlineNs ≤ nowNs ∧
    ∀ x ∈ M, isLive x.pid x.token → x.deadlineNs ≤ nowNs → e.key ≤ x.key
  removed : ∀ e, r = some e → ∃ stale, M = e ::ₘ (stale + M') ∧
    (∀ x ∈ stale, ¬ isLive x.pid x.token ∧ x.key ≤ e.key) ∧ ∀ x ∈ M', e.key ≤ x.key

/-- What a call of `drain_stale_head` does: the removed entries are over and come first, and
what is left, if anything, starts with a live one. -/
structure Drained (M : Multiset DeadlineEntry) (isLive : Nat → WaitToken → Bool) (r : Bool)
    (M' : Multiset DeadlineEntry) : Prop where
  removed : ∃ stale, M = stale + M' ∧ (r = true ↔ stale ≠ 0) ∧
    ∀ x ∈ stale, ¬ isLive x.pid x.token ∧ ∀ y ∈ M', x.key ≤ y.key
  head : M' = 0 ∨ ∃ e ∈ M', isLive e.pid e.token ∧ ∀ x ∈ M', e.key ≤ x.key

/-- What a call of `peek_deadline_ns` does: it drains, and answers the least live deadline. -/
structure Peeked (M : Multiset DeadlineEntry) (isLive : Nat → WaitToken → Bool) (r : Option Nat)
    (M' : Multiset DeadlineEntry) : Prop where
  drained : ∃ b, Drained M isLive b M'
  none_iff : r = none ↔ ∀ x ∈ M, ¬ isLive x.pid x.token
  least : ∀ d, r = some d → (∃ e ∈ M, isLive e.pid e.token ∧ e.deadlineNs = d) ∧
    ∀ x ∈ M, isLive x.pid x.token → d ≤ x.deadlineNs

section Multiset

variable {M M' N : Multiset DeadlineEntry} {nowNs : Nat} {isLive : Nat → WaitToken → Bool}
  {r : Option DeadlineEntry} {head : DeadlineEntry}

lemma Popped.late (h : ∀ x ∈ M, nowNs < x.deadlineNs) : Popped M nowNs isLive none M where
  none_iff := iff_of_true rfl fun x hx _ => h x hx
  none_rest _ := (Multiset.filter_eq_self.mpr h).symm
  least e he := by cases he
  removed e he := by cases he

lemma Popped.take (h : ∀ x ∈ M, head.key ≤ x.key) (hdue : head.deadlineNs ≤ nowNs)
    (hlive : isLive head.pid head.token) : Popped (head ::ₘ M) nowNs isLive (some head) M where
  none_iff := by
    apply iff_of_false (by simp)
    intro hno
    have := hno head (Multiset.mem_cons_self _ _) hlive
    omega
  none_rest hr := by cases hr
  least e he := by
    cases he
    refine ⟨Multiset.mem_cons_self _ _, hlive, hdue, ?_⟩
    intro x hx _ _
    obtain rfl | hx := Multiset.mem_cons.mp hx
    · exact le_refl _
    · exact h x hx
  removed e he := by
    cases he
    exact ⟨0, by rw [Multiset.zero_add], by simp, h⟩

lemma Popped.skip (hp : Popped M nowNs isLive r M') (h : ∀ x ∈ M, head.key ≤ x.key)
    (hdue : head.deadlineNs ≤ nowNs) (hlive : ¬ isLive head.pid head.token) :
    Popped (head ::ₘ M) nowNs isLive r M' where
  none_iff := by
    rw [hp.none_iff, Multiset.forall_mem_cons]
    exact ⟨fun hM => ⟨fun hl => absurd hl hlive, hM⟩, fun hM => hM.2⟩
  none_rest hr := by
    rw [hp.none_rest hr, Multiset.filter_cons_of_neg _ (by omega)]
  least e he := by
    obtain ⟨hmem, hl, hd, hle⟩ := hp.least e he
    refine ⟨Multiset.mem_cons_of_mem hmem, hl, hd, ?_⟩
    rw [Multiset.forall_mem_cons]
    exact ⟨fun hl => absurd hl hlive, hle⟩
  removed e he := by
    obtain ⟨stale, hM, hstale, hrest⟩ := hp.removed e he
    refine ⟨head ::ₘ stale, ?_, ?_, hrest⟩
    · rw [hM, Multiset.cons_add, Multiset.cons_swap]
    · rw [Multiset.forall_mem_cons]
      exact ⟨⟨hlive, h e (hp.least e he).1⟩, hstale⟩

lemma Drained.skip {b : Bool} (hd : Drained M isLive b M') (h : ∀ x ∈ M, head.key ≤ x.key)
    (hlive : ¬ isLive head.pid head.token) : Drained (head ::ₘ M) isLive true M' where
  removed := by
    obtain ⟨stale, hM, -, hstale⟩ := hd.removed
    refine ⟨head ::ₘ stale, by rw [hM, Multiset.cons_add], by simp, ?_⟩
    rw [Multiset.forall_mem_cons]
    refine ⟨⟨hlive, fun y hy => h y ?_⟩, hstale⟩
    rw [hM]
    exact Multiset.mem_add.mpr (Or.inr hy)
  head := hd.head

lemma Drained.live_iff {b : Bool} (hd : Drained M isLive b M') (x : DeadlineEntry)
    (hx : isLive x.pid x.token) : x ∈ M ↔ x ∈ M' := by
  obtain ⟨stale, hM, -, hstale⟩ := hd.removed
  rw [hM, Multiset.mem_add]
  exact ⟨fun h => h.resolve_left fun hs => (hstale x hs).1 hx, Or.inr⟩

end Multiset

namespace TimerQueue

lemma popDue_popped (nowNs : Nat) (isLive : Nat → WaitToken → Bool) (q : TimerQueue) :
    Popped q.entries nowNs isLive (popDue nowNs isLive q).1
      (popDue nowNs isLive q).2.entries := by
  induction q using popDue.induct nowNs isLive with
  | case1 q h =>
    rw [popDue_empty h, entries_eq_zero h]
    exact Popped.late (by simp)
  | case2 q head h hlate =>
    rw [popDue_head h, if_pos hlate]
    apply Popped.late
    intro x hx
    exact lt_of_lt_of_le hlate (DeadlineEntry.deadlineNs_le (head_le h hx))
  | case3 q head h hdue hlive =>
    rw [popDue_head h, if_neg hdue, if_pos hlive, popHead_entries h]
    exact Popped.take (fun x hx => head_le h (mem_entries_of_popHead h hx)) (by omega) hlive
  | case4 q head h hdue hlive ih =>
    rw [popDue_head h, if_neg hdue, if_neg hlive, popHead_entries h]
    exact ih.skip (fun x hx => head_le h (mem_entries_of_popHead h hx)) (by omega) hlive

variable (isLive : Nat → WaitToken → Bool)

lemma drainStaleHead_drained (q : TimerQueue) :
    Drained q.entries isLive (drainStaleHead isLive q).1
      (drainStaleHead isLive q).2.entries := by
  induction q using drainStaleHead.induct isLive with
  | case1 q h =>
    rw [drainStaleHead_empty h]
    exact ⟨⟨0, by simp, by simp, by simp⟩, Or.inl (entries_eq_zero h)⟩
  | case2 q head h hlive =>
    rw [drainStaleHead_head h, if_pos hlive]
    exact ⟨⟨0, by simp, by simp, by simp⟩,
      Or.inr ⟨head, head_mem h, hlive, fun x hx => head_le h hx⟩⟩
  | case3 q head h hlive ih =>
    rw [drainStaleHead_head h, if_neg hlive, popHead_entries h]
    exact ih.skip (fun x hx => head_le h (mem_entries_of_popHead h hx)) hlive

lemma head_deadline_of_drained {q : TimerQueue} {M : Multiset DeadlineEntry} {b : Bool}
    {isLive : Nat → WaitToken → Bool} {head : DeadlineEntry} (hd : Drained M isLive b q.entries)
    (h : q.heap[0]? = some head) :
    ∃ e ∈ M, isLive e.pid e.token ∧ e.deadlineNs = head.deadlineNs := by
  obtain h0 | ⟨e, he, hlive, hle⟩ := hd.head
  · have := head_mem h
    rw [h0] at this
    exact absurd this (Multiset.notMem_zero _)
  · have hkey : e.key = head.key := le_antisymm (hle head (head_mem h)) (head_le h he)
    refine ⟨e, (hd.live_iff e hlive).mpr he, hlive, ?_⟩
    exact le_antisymm (DeadlineEntry.deadlineNs_le (le_of_eq hkey))
      (DeadlineEntry.deadlineNs_le (ge_of_eq hkey))

lemma peekDeadlineNs_peeked (q : TimerQueue) :
    Peeked q.entries isLive (peekDeadlineNs isLive q).1 (peekDeadlineNs isLive q).2.entries := by
  have hd := drainStaleHead_drained isLive q
  rw [peekDeadlineNs]
  generalize (drainStaleHead isLive q).2 = q' at hd
  cases hhead : q'.heap[0]? with
  | none =>
    refine ⟨⟨_, hd⟩, iff_of_true rfl ?_, fun d hr => by cases hr⟩
    intro x hx hlive
    have := (hd.live_iff x hlive).mp hx
    rw [entries_eq_zero hhead] at this
    exact Multiset.notMem_zero x this
  | some head =>
    obtain ⟨e, he, hlive, hdl⟩ := head_deadline_of_drained hd hhead
    refine ⟨⟨_, hd⟩, iff_of_false (by simp) fun hno => hno e he hlive, ?_⟩
    intro d hr
    obtain rfl : head.deadlineNs = d := by simpa using hr
    refine ⟨⟨e, he, hlive, hdl⟩, fun x hx hx' => ?_⟩
    exact DeadlineEntry.deadlineNs_le (head_le hhead ((hd.live_iff x hx').mp hx))

end TimerQueue

/-! ## Runs of calls -/

/-- A call on the queue, with what the caller and the allocator choose. -/
inductive QueueOp where
  | nextToken
  | tryReservePush (entry : DeadlineEntry) (granted : Option Nat)
  | pushAssumed (entry : DeadlineEntry) (extra : Nat)
  | popDue (nowNs : Nat) (isLive : Nat → WaitToken → Bool)
  | drainStaleHead (isLive : Nat → WaitToken → Bool)
  | peekDeadlineNs (isLive : Nat → WaitToken → Bool)

inductive QueueAnswer where
  | token (t : WaitToken)
  | reserved (ok : Bool)
  | pushed
  | entry (e : Option DeadlineEntry)
  | drained (any : Bool)
  | deadline (d : Option Nat)

def QueueOp.exec (q : TimerQueue) : QueueOp → QueueAnswer × TimerQueue
  | .nextToken => q.nextToken.map .token id
  | .tryReservePush entry granted => (q.tryReservePush entry granted).map .reserved id
  | .pushAssumed entry extra => (.pushed, q.pushAssumed entry extra)
  | .popDue nowNs isLive => (q.popDue nowNs isLive).map .entry id
  | .drainStaleHead isLive => (q.drainStaleHead isLive).map .drained id
  | .peekDeadlineNs isLive => (q.peekDeadlineNs isLive).map .deadline id

/-- The abstract queue: the entries pushed and not yet removed, and the next token. -/
structure Pending where
  entries : Multiset DeadlineEntry
  counter : Nat

def TimerQueue.pending (q : TimerQueue) : Pending := ⟨q.entries, q.counter⟩

/-- What one call may answer and leave behind, said about the multiset alone. -/
inductive Pending.Step : Pending → QueueOp → QueueAnswer → Pending → Prop
  | token {s} (h : s.counter < u64Max) :
      Step s .nextToken (.token ⟨s.counter⟩) { s with counter := s.counter + 1 }
  | exhausted {s} (h : s.counter = u64Max) : Step s .nextToken (.token .exhausted) s
  | reserved {s} (entry granted) :
      Step s (.tryReservePush entry granted) (.reserved true)
        { s with entries := entry ::ₘ s.entries }
  | refused {s} (entry) : Step s (.tryReservePush entry none) (.reserved false) s
  | pushed {s} (entry extra) :
      Step s (.pushAssumed entry extra) .pushed { s with entries := entry ::ₘ s.entries }
  | popped {s r M'} {nowNs isLive} (h : Popped s.entries nowNs isLive r M') :
      Step s (.popDue nowNs isLive) (.entry r) { s with entries := M' }
  | drained {s r M'} {isLive} (h : Drained s.entries isLive r M') :
      Step s (.drainStaleHead isLive) (.drained r) { s with entries := M' }
  | peeked {s r M'} {isLive} (h : Peeked s.entries isLive r M') :
      Step s (.peekDeadlineNs isLive) (.deadline r) { s with entries := M' }

inductive Pending.Run : Pending → List (QueueOp × QueueAnswer) → Pending → Prop
  | nil (s) : Run s [] s
  | cons {s s' s'' op r rest} (h : Step s op r s') (hrest : Run s' rest s'') :
      Run s ((op, r) :: rest) s''

def TimerQueue.run (q : TimerQueue) : List QueueOp → List (QueueOp × QueueAnswer) × TimerQueue
  | [] => ([], q)
  | op :: ops =>
    let (log, q') := (op.exec q).2.run ops
    ((op, (op.exec q).1) :: log, q')

namespace TimerQueue

lemma pending_of_counter {q q' : TimerQueue} (h : q'.counter = q.counter) :
    q'.pending = { q.pending with entries := q'.entries } := by
  rw [pending, h]
  rfl

variable (q : TimerQueue) (entry : DeadlineEntry)

lemma pushRaw_pending :
    (q.pushRaw entry).pending = { q.pending with entries := entry ::ₘ q.pending.entries } := by
  rw [pending, pushRaw_entries]
  rfl

@[simp]
lemma popHead_counter : q.popHead.2.counter = q.counter := by
  rw [popHead]
  split <;> rfl

@[simp]
lemma popDue_counter (nowNs : Nat) (isLive : Nat → WaitToken → Bool) (q : TimerQueue) :
    (popDue nowNs isLive q).2.counter = q.counter := by
  induction q using popDue.induct nowNs isLive with
  | case1 q h => rw [popDue_empty h]
  | case2 q head h hlate => rw [popDue_head h, if_pos hlate]
  | case3 q head h hdue hlive => rw [popDue_head h, if_neg hdue, if_pos hlive, popHead_counter]
  | case4 q head h hdue hlive ih =>
    rw [popDue_head h, if_neg hdue, if_neg hlive, ih, popHead_counter]

@[simp]
lemma drainStaleHead_counter (isLive : Nat → WaitToken → Bool) (q : TimerQueue) :
    (drainStaleHead isLive q).2.counter = q.counter := by
  induction q using drainStaleHead.induct isLive with
  | case1 q h => rw [drainStaleHead_empty h]
  | case2 q head h hlive => rw [drainStaleHead_head h, if_pos hlive]
  | case3 q head h hlive ih => rw [drainStaleHead_head h, if_neg hlive, ih, popHead_counter]

lemma nextToken_step :
    Pending.Step q.pending .nextToken (.token q.nextToken.1) q.nextToken.2.pending := by
  rw [nextToken]
  split
  · next h => exact .exhausted h
  · next h => exact .token (Nat.lt_of_le_of_ne q.counter_le h)

lemma tryReservePush_step (granted : Option Nat) :
    Pending.Step q.pending (.tryReservePush entry granted)
      (.reserved (q.tryReservePush entry granted).1)
      (q.tryReservePush entry granted).2.pending := by
  obtain ⟨rfl, h⟩ | ⟨q', h, hentries, hcounter⟩ := tryReservePush_cases q entry granted
  · rw [h]
    exact .refused entry
  · rw [h, pending_of_counter hcounter, hentries]
    exact .reserved entry granted

lemma pushAssumed_step (extra : Nat) :
    Pending.Step q.pending (.pushAssumed entry extra) .pushed
      (q.pushAssumed entry extra).pending := by
  rw [pushAssumed]
  split <;>
  · rw [pushRaw_pending]
    exact .pushed entry extra

lemma exec_step (op : QueueOp) :
    Pending.Step q.pending op (op.exec q).1 (op.exec q).2.pending := by
  cases op with
  | nextToken => exact nextToken_step q
  | tryReservePush entry granted => exact tryReservePush_step q entry granted
  | pushAssumed entry extra => exact pushAssumed_step q entry extra
  | popDue nowNs isLive =>
    simp only [QueueOp.exec, Prod.map_snd, id]
    rw [pending_of_counter (popDue_counter nowNs isLive q)]
    exact .popped (popDue_popped nowNs isLive q)
  | drainStaleHead isLive =>
    simp only [QueueOp.exec, Prod.map_snd, id]
    rw [pending_of_counter (drainStaleHead_counter isLive q)]
    exact .drained (drainStaleHead_drained isLive q)
  | peekDeadlineNs isLive =>
    have hcounter : (peekDeadlineNs isLive q).2.counter = q.counter :=
      drainStaleHead_counter isLive q
    simp only [QueueOp.exec, Prod.map_snd, id]
    rw [pending_of_counter hcounter]
    exact .peeked (peekDeadlineNs_peeked isLive q)

lemma run_pending (ops : List QueueOp) :
    Pending.Run q.pending (q.run ops).1 (q.run ops).2.pending := by
  induction ops generalizing q with
  | nil => exact .nil _
  | cons op ops ih => exact .cons (exec_step q op) (ih _)

lemma run_ops (ops : List QueueOp) : (q.run ops).1.map Prod.fst = ops := by
  induction ops generalizing q with
  | nil => rfl
  | cons op ops ih =>
    rw [run, List.map_cons, ih]

/-- From an empty queue, every sequence of calls answers as the sorted multiset does and leaves
exactly its entries stored. -/
theorem run_new_refines (ops : List QueueOp) :
    (new.run ops).1.map Prod.fst = ops ∧
      Pending.Run ⟨0, 1⟩ (new.run ops).1 ⟨(new.run ops).2.entries, (new.run ops).2.counter⟩ :=
  ⟨run_ops new ops, run_pending new ops⟩

end TimerQueue

end Twilight.Timer

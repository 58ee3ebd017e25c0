/-
Calls that take non-reentrant locks.

`Locked L σ α` is a call that reads and changes a state `σ` and takes locks named by `L` around
parts of what it does. A lock that the call holds already is waited for without end, so that such a
call has no outcome. The outcome of any other call has its result, the state it leaves, and the
states it woke the watchers in, the first one first.
-/
import Mathlib.Data.List.Basic

namespace Twilight

open Option

structure Outcome (σ α : Type) where
  result : α
  state : σ
  woken : List σ

def Outcome.after {σ α : Type} (woken : List σ) (o : Outcome σ α) : Outcome σ α :=
  { o with woken := woken ++ o.woken }

/-- `run` is given the locks that are held already. -/
structure Locked (L σ α : Type) where
  run : List L → σ → Option (Outcome σ α)

namespace Locked

variable {L σ α β : Type}

instance : Monad (Locked L σ) where
  pure a := ⟨fun _ s => some ⟨a, s, []⟩⟩
  bind p f := ⟨fun held s =>
    (p.run held s).bind fun o => ((f o.result).run held o.state).map (Outcome.after o.woken)⟩

instance : MonadStateOf σ (Locked L σ) where
  get := ⟨fun _ s => some ⟨s, s, []⟩⟩
  set s := ⟨fun _ _ => some ⟨⟨⟩, s, []⟩⟩
  modifyGet g := ⟨fun _ s => some ⟨(g s).1, (g s).2, []⟩⟩

def wake : Locked L σ Unit := ⟨fun _ s => some ⟨(), s, [s]⟩⟩

/-- A part of the call for which it holds `l`. -/
def withLock [DecidableEq L] (l : L) (p : Locked L σ α) : Locked L σ α :=
  ⟨fun held s => if l ∈ held then none else p.run (l :: held) s⟩

/-- The state a call leaves that starts without a lock; one that never returns leaves things as
they are. -/
def leave (p : Locked L σ α) (s : σ) : σ := ((p.run [] s).map Outcome.state).getD s

/-! ## Running a call -/

variable {held : List L} {s : σ}

@[simp] lemma after_nil (o : Outcome σ α) : Outcome.after [] o = o := rfl

@[simp] lemma after_mk (w : List σ) (a : α) (s : σ) (w' : List σ) :
    Outcome.after w ⟨a, s, w'⟩ = ⟨a, s, w ++ w'⟩ := rfl

@[simp] lemma pure_run (a : α) : (pure a : Locked L σ α).run held s = some ⟨a, s, []⟩ := rfl

@[simp] lemma get_run : (get : Locked L σ σ).run held s = some ⟨s, s, []⟩ := rfl

@[simp] lemma modify_run (g : σ → σ) :
    (modify g : Locked L σ PUnit).run held s = some ⟨⟨⟩, g s, []⟩ := rfl

@[simp] lemma wake_run : (wake : Locked L σ Unit).run held s = some ⟨(), s, [s]⟩ := rfl

@[simp] lemma ite_run (c : Prop) [Decidable c] (p q : Locked L σ α) :
    (if c then p else q).run held s = if c then p.run held s else q.run held s := by
  split <;> rfl

@[simp] lemma bind_run (p : Locked L σ α) (f : α → Locked L σ β) :
    (p >>= f).run held s =
      (p.run held s).bind fun o => ((f o.result).run held o.state).map (Outcome.after o.woken) :=
  rfl

variable {p : Locked L σ α} {f : α → Locked L σ β}

lemma bind_of_run {o : Outcome σ α} (h : p.run held s = some o) :
    (p >>= f).run held s = ((f o.result).run held o.state).map (Outcome.after o.woken) := by
  rw [bind_run, h, bind_some]

lemma bind_of_look {a : α}
    (h : p.run held s = some ⟨a, s, []⟩) : (p >>= f).run held s = (f a).run held s := by
  rw [bind_of_run h]
  exact map_id_apply

@[simp] lemma withLock_run [DecidableEq L] {l : L} (p : Locked L σ α) (h : l ∉ held) :
    (withLock l p).run held s = p.run (l :: held) s := if_neg h

@[simp] lemma withLock_held [DecidableEq L] {l : L} (p : Locked L σ α) (h : l ∈ held) :
    (withLock l p).run held s = none := if_pos h

lemma leave_of_run {o : Outcome σ α} (h : p.run [] s = some o) :
    p.leave s = o.state := by
  rw [leave, h, map_some, getD_some]

@[simp] lemma leave_pure (a : α) : (pure a : Locked L σ α).leave s = s := rfl

lemma leave_bind_of_look {a : α}
    (h : p.run [] s = some ⟨a, s, []⟩) : (p >>= f).leave s = (f a).leave s := by
  rw [leave, leave, bind_of_look h]

lemma leave_map (p : Locked L σ α) (g : α → β) :
    (p >>= fun a => pure (g a)).leave s = p.leave s := by
  rw [leave, leave, bind_run]
  cases p.run [] s <;> rfl

end Locked
end Twilight

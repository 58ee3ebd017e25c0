/-
Runs of a family of programs.

The programs are given as a function `exec` from their names. A run is a list of
names; each program starts where the one before it stopped, whether that one
succeeded or failed. An invariant is proved one program at a time.
-/
import Twilight.Lib.Prog

namespace Twilight.Prog

variable {ι σ ε α τ : Type}

def runAll (exec : ι → Prog σ ε α) : List ι → σ → σ
  | [], s => s
  | i :: ops, s => runAll exec ops (final (exec i s))

/-- Every program of the run starts in a state that meets its condition. -/
def Meets (exec : ι → Prog σ ε α) (ok : ι → σ → Prop) : List ι → σ → Prop
  | [], _ => True
  | i :: ops, s => ok i s ∧ Meets exec ok ops (final (exec i s))

variable {exec : ι → Prog σ ε α} {ok : ι → σ → Prop}

variable {s : σ}

lemma runAll_invariant {I : σ → Prop} (hstep : ∀ i s, I s → ok i s → I (final (exec i s)))
    {ops : List ι} (hs : I s) (hops : Meets exec ok ops s) : I (runAll exec ops s) := by
  induction ops generalizing s with
  | nil => exact hs
  | cons i ops ih => exact ih (hstep i s hs hops.1) hops.2

def WpAll (view : σ → τ) (exec : ι → Prog σ ε α) (P : τ → Prop) : List ι → τ → Prop
  | [], v => P v
  | i :: ops, v => Wp view (exec i) (fun _ w => WpAll view exec P ops w) v

lemma WpAll.run {view : σ → τ} {P : τ → Prop} {ops : List ι}
    (h : WpAll view exec P ops (view s)) : P (view (runAll exec ops s)) := by
  induction ops generalizing s with
  | nil => exact h
  | cons i ops ih => exact ih (h s rfl)

lemma Wp.final {view : σ → τ} {x : Prog σ ε α} {I : τ → Prop}
    (h : Wp view x (fun _ w => I w) (view s)) : I (view (final (x s))) := h s rfl

end Twilight.Prog

/-
Exclusive use of resources.

`holds r z` says that reference `r` holds resource `z`.  The use is exclusive when
every held resource is marked as used and no resource is held twice.  A step of a
program keeps it when what is held afterwards was held before or was unused
before.
-/
import Mathlib.Logic.Basic

namespace Twilight

structure Exclusive {R Z : Type} (used : Z → Prop) (holds : R → Z → Prop) : Prop where
  used : ∀ r z, holds r z → used z
  inj : ∀ r r' z, holds r z → holds r' z → r = r'

namespace Exclusive

variable {R Z : Type} {used used' : Z → Prop} {holds holds' F : R → Z → Prop}

lemma extend (h : Exclusive used holds) (hold : ∀ r z, holds' r z → (holds r z ∧ used' z) ∨ F r z)
    (hfresh : ∀ r z, F r z → ¬ used z ∧ used' z)
    (hinj : ∀ r r' z, F r z → F r' z → r = r') : Exclusive used' holds' := by
  constructor
  · intro r z hr
    rcases hold r z hr with ⟨-, hu⟩ | hf
    · exact hu
    · exact (hfresh r z hf).2
  intro r r' z hr hr'
  rcases hold r z hr with ⟨h1, -⟩ | h1
  · rcases hold r' z hr' with ⟨h2, -⟩ | h2
    · exact h.inj r r' z h1 h2
    · exact absurd (h.used r z h1) (hfresh r' z h2).1
  · rcases hold r' z hr' with ⟨h2, -⟩ | h2
    · exact absurd (h.used r' z h2) (hfresh r z h1).1
    · exact hinj r r' z h1 h2

lemma restrict (h : Exclusive used holds)
    (hold : ∀ r z, holds' r z → holds r z ∧ used' z) : Exclusive used' holds' :=
  extend (F := fun _ _ => False) h (fun r z hr => .inl (hold r z hr))
    (fun _ _ hf => hf.elim) fun _ _ _ hf => hf.elim

end Exclusive

end Twilight

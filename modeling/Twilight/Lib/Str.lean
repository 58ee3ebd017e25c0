/-
Strings as the bytes that store them.

A string is the list of its UTF-8 bytes.  Validity is the automaton of the
encoding: a lead byte fixes how many continuation bytes follow and, for four
lead bytes, the range of the first of them.  An ASCII byte is accepted only
between characters, so cutting a string at a separator or padding it with NULs
never splits a character (`utf8Valid_append_cons`).
-/
import Mathlib.Data.List.Basic
import Mathlib.Data.List.DropRight

namespace Twilight

open List

abbrev Str := List UInt8

namespace Str

inductive Utf8State
  | start
  | cont1
  | cont2
  | cont3
  | afterE0
  | afterED
  | afterF0
  | afterF4
deriving DecidableEq

def between (lo hi b : UInt8) : Bool := decide (lo ≤ b) && decide (b ≤ hi)

def utf8Step : Utf8State → UInt8 → Option Utf8State
  | .start, b =>
    if b < 0x80 then some .start
    else if between 0xC2 0xDF b then some .cont1
    else if b = 0xE0 then some .afterE0
    else if b = 0xED then some .afterED
    else if between 0xE1 0xEF b then some .cont2
    else if b = 0xF0 then some .afterF0
    else if b = 0xF4 then some .afterF4
    else if between 0xF1 0xF3 b then some .cont3
    else none
  | .cont1, b => if between 0x80 0xBF b then some .start else none
  | .cont2, b => if between 0x80 0xBF b then some .cont1 else none
  | .cont3, b => if between 0x80 0xBF b then some .cont2 else none
  | .afterE0, b => if between 0xA0 0xBF b then some .cont1 else none
  | .afterED, b => if between 0x80 0x9F b then some .cont1 else none
  | .afterF0, b => if between 0x90 0xBF b then some .cont2 else none
  | .afterF4, b => if between 0x80 0x8F b then some .cont2 else none

/-- `core::str::from_utf8(bytes).is_ok()` -/
def utf8Valid (s : Str) : Bool := s.foldlM utf8Step .start == some .start

lemma between_ascii {lo hi b : UInt8} (hlo : 0x80 ≤ lo) (hb : b < 0x80) :
    between lo hi b = false := by
  have : ¬ lo ≤ b := by
    intro h
    exact absurd (UInt8.lt_of_le_of_lt (UInt8.le_trans hlo h) hb) (UInt8.lt_irrefl _)
  simp [between, this]

lemma utf8Step_ascii {c : UInt8} (hc : c < 0x80) (st : Utf8State) :
    utf8Step st c = if st = .start then some .start else none := by
  cases st with
  | start => simp [utf8Step, hc]
  | cont1 | cont2 | cont3 | afterE0 | afterED | afterF0 | afterF4 =>
    rw [utf8Step, between_ascii (by decide) hc]; rfl

lemma utf8Valid_append_cons {a b : Str} {c : UInt8} (hc : c < 0x80) :
    utf8Valid (a ++ c :: b) = (utf8Valid a && utf8Valid b) := by
  unfold utf8Valid
  rw [foldlM_append]
  cases ha : a.foldlM utf8Step .start with
  | none => simp
  | some st =>
    show (foldlM utf8Step st (c :: b) == some Utf8State.start) = _
    rw [foldlM_cons, utf8Step_ascii hc]
    by_cases hst : st = .start
    · subst hst; simp
    · simp [hst]

lemma utf8Valid_append_replicate (a : Str) (n : Nat) :
    utf8Valid (a ++ replicate n 0) = utf8Valid a := by
  induction n generalizing a with
  | zero => simp
  | succ n ih =>
    rw [replicate_succ, utf8Valid_append_cons (by decide)]
    have h0 : utf8Valid (replicate n 0) = true := by
      have := ih []
      rwa [nil_append] at this
    rw [h0, Bool.and_true]

/-! ## Trailing NULs -/

def trimNul (s : Str) : Str := s.rdropWhile (· == 0)

def NoTrailingNul (s : Str) : Prop := ∀ h : s ≠ [], s.getLast h ≠ 0

instance (s : Str) : Decidable (NoTrailingNul s) :=
  inferInstanceAs (Decidable (∀ h : s ≠ [], s.getLast h ≠ 0))

lemma trimNul_append_replicate {s : Str} (hs : NoTrailingNul s) (n : Nat) :
    trimNul (s ++ replicate n 0) = s := by
  unfold trimNul
  induction n with
  | zero =>
    rw [replicate_zero, append_nil, rdropWhile_eq_self_iff]
    intro h
    simpa using hs h
  | succ n ih =>
    rw [replicate_succ', ← append_assoc, rdropWhile_concat_pos _ _ _ (by simp)]
    exact ih

/-! ## Paths -/

/-- The byte of `'/'`. -/
def slash : UInt8 := 47

/-- `path.split('/').filter(|s| !s.is_empty())` -/
def components (path : Str) : List Str := (path.splitOn slash).filter (· ≠ [])

def joinSlash (parts : List Str) : Str := [slash].intercalate parts

structure IsComponent (s : Str) : Prop where
  ne_nil : s ≠ []
  no_slash : slash ∉ s

lemma mem_splitOn_no_slash {s : Str} {part : Str} (h : part ∈ s.splitOn slash) :
    slash ∉ part := by
  induction s generalizing part with
  | nil =>
    rw [splitOn_nil, mem_singleton] at h
    rw [h]; exact not_mem_nil
  | cons b s ih =>
    unfold splitOn at h ih
    rw [splitOnP_cons_eq_if_modifyHead] at h
    by_cases hb : b = slash
    · rw [if_pos (by simpa using hb), mem_cons] at h
      rcases h with rfl | h
      · exact not_mem_nil
      · exact ih h
    rw [if_neg (by simpa using hb)] at h
    cases hs : s.splitOnP (· == slash) with
    | nil => rw [hs] at h; simp at h
    | cons p ps =>
      rw [hs, modifyHead_cons, mem_cons] at h
      rcases h with rfl | h
      · rw [mem_cons, not_or]
        exact ⟨fun e => hb e.symm, ih (by rw [hs]; exact mem_cons_self)⟩
      · exact ih (by rw [hs]; exact mem_cons_of_mem _ h)

lemma isComponent_of_mem {path part : Str} (h : part ∈ components path) : IsComponent part := by
  unfold components at h
  rw [mem_filter] at h
  exact ⟨by simpa using h.2, mem_splitOn_no_slash h.1⟩

lemma components_append_slash (path rest : Str) :
    components (path ++ slash :: rest) = components path ++ components rest := by
  unfold components splitOn
  rw [splitOnP_append_cons path rest (by simp), filter_append]

end Str
end Twilight

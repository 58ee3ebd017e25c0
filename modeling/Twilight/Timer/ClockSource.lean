/-
The conversion of counter cycles to nanoseconds.

Every `u128` operation is checked: a computation that overflows has no result.  The factor is
rounded at calibration and the product once more at each reading; `round_error` bounds both.
Readers meet only in `fetch_max`, so a run is the list of their readings in its order.
-/
import Mathlib

namespace Twilight.Timer

/-- The number as a `u128`, if it is one. -/
def u128 (n : Nat) : Option Nat := if n < 2 ^ 128 then some n else none

def nsecPerSec : Nat := 1000000000

/-- The loop of `compute_mult_shift` from this shift on down. -/
def backOff (freqHz : Nat) : Nat → Option (Nat × Nat)
  | 0 => do
    let sum ← u128 (nsecPerSec + freqHz / 2)
    pure (sum / freqHz % 2 ^ 64, 0)
  | shift + 1 => do
    let scaled ← u128 (nsecPerSec <<< (shift + 1))
    let sum ← u128 (scaled + freqHz / 2)
    let mult := sum / freqHz
    if mult < 2 ^ 64 then pure (mult, shift + 1) else backOff freqHz shift

def computeMultShift (freqHz : Nat) : Option (Nat × Nat) :=
  if freqHz = 0 then some (0, 0) else backOff freqHz 32

structure ClockSource where
  epochCycles : BitVec 64
  mult : Nat
  shift : Nat
  lastNs : Nat

namespace ClockSource

/-- The nanoseconds before they are clamped. -/
def convert (c : ClockSource) (delta : BitVec 64) : Option Nat := do
  let raw ← u128 (delta.toNat * c.mult)
  if c.shift = 0 then pure raw
  else do
    let sum ← u128 (raw + 1 <<< (c.shift - 1))
    pure (sum >>> c.shift)

def elapsedNs (c : ClockSource) (nowCycles : BitVec 64) : Option (Nat × ClockSource) := do
  let raw ← c.convert (nowCycles - c.epochCycles)
  let ns := min raw (2 ^ 64 - 1)
  pure (max ns c.lastNs, { c with lastNs := max c.lastNs ns })

/-- What a sequence of readings returns. -/
def readings (c : ClockSource) : List (BitVec 64) → Option (List Nat)
  | [] => some []
  | nowCycles :: rest => do
    let r ← c.elapsedNs nowCycles
    let later ← r.2.readings rest
    pure (r.1 :: later)

end ClockSource

/-- The nanoseconds are as near to the exact number as the two roundings leave them. -/
def Accurate (freqHz : Nat) (delta : BitVec 64) (ns : Nat) : Prop :=
  |(ns : ℚ) - delta.toNat * nsecPerSec / freqHz| ≤ delta.toNat / 2 ^ 33 + 1 / 2

lemma round_error (n half : Nat) {k : Nat} (hk : 0 < k) (hhalf : half = k / 2) :
    |(((n + half) / k : Nat) : ℚ) - n / k| ≤ 1 / 2 := by
  have hk' : (0 : ℚ) < k := Nat.cast_pos.mpr hk
  have hlow := Nat.div_mul_le_self (n + half) k
  have hhigh := Nat.lt_div_mul_add hk (a := n + half)
  generalize (n + half) / k = q at hlow hhigh
  have hup : 2 * (q * k) ≤ 2 * n + k := by omega
  have hdown : 2 * n ≤ 2 * (q * k) + k := by omega
  have hup' : 2 * ((q : ℚ) * k) ≤ 2 * n + k := by exact_mod_cast hup
  have hdown' : 2 * (n : ℚ) ≤ 2 * (q * k) + k := by exact_mod_cast hdown
  have hsub : (q : ℚ) - n / k = (q * k - n) / k := by field_simp
  have habs : |(q : ℚ) * k - n| ≤ k / 2 := abs_le.mpr ⟨by linarith, by linarith⟩
  rw [hsub, abs_div, abs_of_pos hk', div_le_iff₀ hk']
  linarith

lemma scanl_eq_cons (values : List Nat) (last : Nat) :
    values.scanl max last = last :: (values.scanl max last).tail := by
  cases values <;> simp

lemma isChain_scanl_max (values : List Nat) (last : Nat) :
    (values.scanl max last).IsChain (· ≤ ·) := by
  induction values generalizing last with
  | nil => exact .singleton _
  | cons ns rest ih =>
    have hrest := ih (max last ns)
    rw [scanl_eq_cons] at hrest
    rw [List.scanl_cons, scanl_eq_cons]
    exact .cons_cons (le_max_left _ _) hrest

/-- The first shift tried fits for every frequency. -/
lemma computeMultShift_eq {freqHz : Nat} (hpos : 0 < freqHz) (hlt : freqHz < 2 ^ 64) :
    computeMultShift freqHz = some ((nsecPerSec * 2 ^ 32 + freqHz / 2) / freqHz, 32) ∧
      (nsecPerSec * 2 ^ 32 + freqHz / 2) / freqHz < 2 ^ 63 := by
  have hscaled : nsecPerSec <<< 32 = nsecPerSec * 2 ^ 32 := Nat.shiftLeft_eq _ _
  have hmult : (nsecPerSec * 2 ^ 32 + freqHz / 2) / freqHz < 2 ^ 63 := by
    rw [Nat.div_lt_iff_lt_mul hpos, nsecPerSec]
    omega
  refine ⟨?_, hmult⟩
  rw [computeMultShift, if_neg hpos.ne', backOff, hscaled, u128, if_pos (by decide)]
  simp only [Option.bind_eq_bind, Option.bind_some]
  rw [u128, if_pos (by rw [nsecPerSec]; omega)]
  simp only [Option.bind_some]
  rw [if_pos (by omega)]
  rfl

namespace ClockSource

variable {c : ClockSource}

/-- What `compute_mult_shift` gives a clock source. -/
structure Calibrated (c : ClockSource) (freqHz : Nat) : Prop where
  mult : c.mult = (nsecPerSec * 2 ^ 32 + freqHz / 2) / freqHz
  shift : c.shift = 32
  lt : c.mult < 2 ^ 63

lemma Calibrated.convert_eq {freqHz : Nat} (h : c.Calibrated freqHz) (delta : BitVec 64) :
    c.convert delta = some ((delta.toNat * c.mult + 2 ^ 31) / 2 ^ 32) := by
  have hraw : delta.toNat * c.mult < 2 ^ 64 * 2 ^ 63 := Nat.mul_lt_mul'' delta.isLt h.lt
  have hone : 1 <<< (32 - 1) = 2 ^ 31 := Nat.one_shiftLeft 31
  have hshift : c.shift ≠ 0 := by simp [h.shift]
  rw [convert]
  generalize delta.toNat * c.mult = raw at hraw
  refine Option.bind_eq_some_iff.mpr ⟨raw, if_pos (by omega), ?_⟩
  rw [if_neg hshift, h.shift, hone]
  refine Option.bind_eq_some_iff.mpr ⟨raw + 2 ^ 31, if_pos (by omega), congrArg some ?_⟩
  omega

/-- The error of the factor grows with the delta, that of the last rounding does not. -/
lemma Calibrated.error {freqHz : Nat} (h : c.Calibrated freqHz) (hpos : 0 < freqHz)
    (delta : Nat) :
    |(((delta * c.mult + 2 ^ 31) / 2 ^ 32 : Nat) : ℚ) - delta * nsecPerSec / freqHz|
      ≤ delta / 2 ^ 33 + 1 / 2 := by
  have hfactor := round_error (nsecPerSec * 2 ^ 32) _ hpos rfl
  have hround := round_error (delta * c.mult) (2 ^ 31) (Nat.two_pow_pos 32) (by norm_num)
  rw [← h.mult, Nat.cast_mul, Nat.cast_pow, Nat.cast_ofNat] at hfactor
  rw [Nat.cast_mul, Nat.cast_pow, Nat.cast_ofNat] at hround
  generalize (delta * c.mult + 2 ^ 31) / 2 ^ 32 = ns at hround ⊢
  have hscaled : (delta * c.mult : ℚ) / 2 ^ 32 - delta * nsecPerSec / freqHz
      = delta / 2 ^ 32 * (c.mult - nsecPerSec * 2 ^ 32 / freqHz) := by ring
  have hpart : (0 : ℚ) ≤ delta / 2 ^ 32 := by positivity
  have hsum := abs_sub_le (ns : ℚ) (delta * c.mult / 2 ^ 32) (delta * nsecPerSec / freqHz)
  rw [hscaled, abs_mul, abs_of_nonneg hpart] at hsum
  have hgrown := mul_le_mul_of_nonneg_left hfactor hpart
  linarith

/-- A reading is its own conversion, clamped, or the latest value returned before. -/
lemma Calibrated.elapsedNs_eq {freqHz : Nat} (h : c.Calibrated freqHz) (hpos : 0 < freqHz)
    (now : BitVec 64) : ∃ raw, Accurate freqHz (now - c.epochCycles) raw ∧
      c.elapsedNs now = some (max c.lastNs (min raw (2 ^ 64 - 1)),
        { c with lastNs := max c.lastNs (min raw (2 ^ 64 - 1)) }) := by
  refine ⟨_, h.error hpos _, ?_⟩
  rw [elapsedNs, h.convert_eq]
  exact congrArg some (Prod.ext (max_comm _ _) rfl)

/-- The readings return the running maximum of the clamped conversions. -/
lemma Calibrated.readings_eq {freqHz : Nat} (h : c.Calibrated freqHz) (hpos : 0 < freqHz)
    (nows : List (BitVec 64)) : ∃ raws,
      List.Forall₂ (fun now raw => Accurate freqHz (now - c.epochCycles) raw) nows raws ∧
        c.readings nows =
          some ((raws.map (min · (2 ^ 64 - 1))).scanl max c.lastNs).tail := by
  induction nows generalizing c with
  | nil => exact ⟨[], .nil, rfl⟩
  | cons now rest ih =>
    obtain ⟨raw, hraw, hread⟩ := h.elapsedNs_eq hpos now
    obtain ⟨raws, hraws, hlater⟩ :=
      ih (c := { c with lastNs := max c.lastNs (min raw (2 ^ 64 - 1)) }) ⟨h.mult, h.shift, h.lt⟩
    refine ⟨raw :: raws, .cons hraw hraws, ?_⟩
    rw [readings, hread]
    simp only [Option.bind_eq_bind, Option.bind_some, Option.pure_def]
    rw [hlater, Option.bind_some, List.map_cons, List.scanl_cons, List.tail_cons, ← scanl_eq_cons]

end ClockSource

/-- For every frequency the factor is computed without overflow, and so is every reading: before
the clamp it errs by at most `delta / 2 ^ 33 + 1 / 2` nanoseconds, and what is returned is the
largest of the clamped conversions so far, so that it never decreases. -/
theorem clockSource_accurate (freqHz epochCycles : BitVec 64) (hpos : 1 ≤ freqHz.toNat) :
    ∃ mult shift, computeMultShift freqHz.toNat = some (mult, shift) ∧
      ∀ last, let c : ClockSource := ⟨epochCycles, mult, shift, last⟩
        (∀ now, ∃ raw, Accurate freqHz.toNat (now - epochCycles) raw ∧
          c.elapsedNs now = some (max last (min raw (2 ^ 64 - 1)),
            { c with lastNs := max last (min raw (2 ^ 64 - 1)) })) ∧
        ∀ nows, ∃ raws returned,
          List.Forall₂ (fun now raw => Accurate freqHz.toNat (now - epochCycles) raw) nows raws ∧
            c.readings nows = some returned ∧
            returned = ((raws.map (min · (2 ^ 64 - 1))).scanl max last).tail ∧
            returned.Pairwise (· ≤ ·) := by
  obtain ⟨heq, hlt⟩ := computeMultShift_eq hpos freqHz.isLt
  refine ⟨_, _, heq, fun last => ?_⟩
  intro c
  have hc : c.Calibrated freqHz.toNat := ⟨rfl, rfl, hlt⟩
  refine ⟨hc.elapsedNs_eq hpos, fun nows => ?_⟩
  obtain ⟨raws, hraws, hread⟩ := hc.readings_eq hpos nows
  have hchain := isChain_scanl_max (raws.map (min · (2 ^ 64 - 1))) last
  exact ⟨raws, _, hraws, hread, rfl, (List.isChain_iff_pairwise.mp hchain).tail⟩

/-- A counter at 3 GHz that wraps, and is read once behind an earlier reading. -/
theorem clockSource_accurate_behind :
    ∃ mult shift, computeMultShift (3000000000 : BitVec 64).toNat = some (mult, shift) ∧
      let c : ClockSource := ⟨-5, mult, shift, 0⟩
      (∃ raw, Accurate 3000000000 6 raw ∧ c.elapsedNs 1 = some (max 0 (min raw (2 ^ 64 - 1)),
        { c with lastNs := max 0 (min raw (2 ^ 64 - 1)) })) ∧
      ∃ raws returned,
        List.Forall₂ (fun now raw => Accurate 3000000000 (now - -5) raw) [1, 12, 4] raws ∧
          c.readings [1, 12, 4] = some returned ∧
          returned = ((raws.map (min · (2 ^ 64 - 1))).scanl max 0).tail ∧
          returned.Pairwise (· ≤ ·) := by
  obtain ⟨mult, shift, h, hread⟩ := clockSource_accurate 3000000000 (-5) (by decide)
  exact ⟨mult, shift, h, (hread 0).1 1, (hread 0).2 [1, 12, 4]⟩

end Twilight.Timer

/-
The zone bitmap over runs of allocations and releases.

`Meant` says what one call should do; every call does it on every bitmap, so
after any run the bitmap is the set of zones handed out and not released.
-/
import Twilight.Fs.Rules

namespace Twilight.Fs

open Prog TwilightFs Volume

inductive ZoneCall
  | allocateZone
  | allocateZones (count : Nat)
  | deallocZone (zone : Nat)

namespace ZoneCall

def run : ZoneCall → FsM TfsError (List Nat)
  | .allocateZone => do
    let zone ← TwilightFs.allocateZone
    pure [zone]
  | .allocateZones count => TwilightFs.allocateZones count
  | .deallocZone zone => do
    TwilightFs.deallocZone zone
    pure []

/-- What a call that finds `V` should end with. -/
def Meant (V : Volume) : ZoneCall → Post TfsError (List Nat)
  | .allocateZone, .ok zs, V' => zs.length = 1 ∧ V.Fresh zs ∧ V' = V.setZones zs true
  | .allocateZone, .error _, V' => (∀ z, V.IsData z → V.zmap z = true) ∧ V' = V
  | .allocateZones count, .ok zs, V' =>
    zs.length = count ∧ V.Fresh zs ∧ V' = V.setZones zs true
  | .allocateZones _, .error _, V' => V' = V
  | .deallocZone zone, .ok zs, V' => zs = [] ∧ V.HasBit zone ∧ V' = V.setZmap zone false
  | .deallocZone zone, .error _, V' => ¬ V.HasBit zone ∧ V' = V

/-- The zones in use after a call, from those before it and its result. -/
def held (H : Set Nat) : ZoneCall → Except TfsError (List Nat) → Set Nat
  | .deallocZone zone, .ok _ => H \ {zone}
  | _, .ok zs => H ∪ {z | z ∈ zs}
  | _, .error _ => H

def step (s : TwilightFs) (c : ZoneCall) : TwilightFs := final (c.run s)

/-- The zones in use after a run, by the results of its calls alone. -/
def heldAfter : List ZoneCall → TwilightFs → Set Nat → Set Nat
  | [], _, H => H
  | c :: cs, s, H => heldAfter cs (step s c) (c.held H (outcome (c.run s)))

variable {V V' : Volume}

lemma meant (h : Mapped V.mount) (c : ZoneCall) : Spec c.run (c.Meant V) V := by
  cases c with
  | allocateZone =>
    refine Wp.bind (spec_allocateZone h (fun z hz => Wp.pure ?_) fun hfull => ⟨hfull, rfl⟩)
    refine ⟨rfl, ⟨List.nodup_singleton z, ?_, ?_⟩, (V.setZones_cons z [] true).symm⟩
    · intro y hy
      rw [List.mem_singleton.mp hy]
      exact hz.isData
    · intro y hy
      rw [List.mem_singleton.mp hy]
      exact hz.free
  | allocateZones count =>
    exact spec_allocateZones h (fun zs hlen hfresh => ⟨hlen, hfresh, rfl⟩) rfl
  | deallocZone zone =>
    refine Wp.bind ?_
    by_cases hz : V.HasBit zone
    · exact spec_deallocZone_bit h hz (Wp.pure ⟨rfl, hz, rfl⟩)
    -- one of the two range checks refuses the number
    rintro s rfl
    have hbits := h.facts.2.2.2.1
    rw [TwilightFs.deallocZone, bind_ok (get_run s)]
    by_cases hlow : zone < s.superblock.firstDataZone
    · rw [if_pos hlow]
      exact ⟨hz, rfl⟩
    have hout : ¬ zone - s.superblock.firstDataZone < 16384 * s.superblock.zmapBlocks :=
      fun hlt => hz ⟨Nat.le_of_not_lt hlow, hlt⟩
    rw [if_neg hlow]
    simp only [hbits]
    rw [if_pos (by omega)]
    exact ⟨hz, rfl⟩

lemma Meant.mount {c : ZoneCall} {r : Except TfsError (List Nat)} (h : c.Meant V r V') :
    V'.mount = V.mount := by
  cases c <;> cases r <;> simp only [Meant] at h
  all_goals first | rw [h] | rw [h.2] | rw [h.2.2]
  all_goals rfl

lemma Meant.zmap {c : ZoneCall} {r : Except TfsError (List Nat)} (h : c.Meant V r V') :
    {z | V'.zmap z = true} = c.held {z | V.zmap z = true} r := by
  have htake : ∀ zs, {z | (V.setZones zs true).zmap z = true}
      = {z | V.zmap z = true} ∪ {z | z ∈ zs} := by
    intro zs
    ext z
    by_cases hz : z ∈ zs <;> simp [setZones, hz]
  have hdrop : ∀ y, {z | (V.setZmap y false).zmap z = true} = {z | V.zmap z = true} \ {y} := by
    intro y
    ext z
    by_cases hz : z = y <;> simp [setZmap, hz]
  cases c <;> cases r <;> simp only [Meant] at h
  case allocateZone.ok | allocateZones.ok => rw [h.2.2, htake]; rfl
  case deallocZone.ok => rw [h.2.2, hdrop]; rfl
  case allocateZones.error => rw [h]; rfl
  case allocateZone.error | deallocZone.error => rw [h.2]; rfl

end ZoneCall

/-- After every run of allocations and releases the bitmap is the set of zones handed
out and not released, and the next call does exactly what it should. -/
theorem zones_exact {s : TwilightFs} (h : Mapped s.volume.mount) (cs : List ZoneCall) :
    {z | (cs.foldl ZoneCall.step s).volume.zmap z = true}
      = ZoneCall.heldAfter cs s {z | s.volume.zmap z = true} ∧
    ∀ c : ZoneCall, c.Meant (cs.foldl ZoneCall.step s).volume
      (outcome (c.run (cs.foldl ZoneCall.step s)))
      (final (c.run (cs.foldl ZoneCall.step s))).volume := by
  induction cs generalizing s with
  | nil => exact ⟨rfl, fun c => ZoneCall.meant h c s rfl⟩
  | cons c cs ih =>
    have hc := ZoneCall.meant h c s rfl
    have hnext : Mapped (ZoneCall.step s c).volume.mount := by
      rw [ZoneCall.step, hc.mount]
      exact h
    refine ⟨?_, (ih hnext).2⟩
    rw [List.foldl_cons, (ih hnext).1, ZoneCall.heldAfter, ← hc.zmap]
    rfl

def emptyZones : TwilightFs :=
  ⟨Superblock.geometry 1024, ⟨1024, fun _ => Bytes.zero⟩, .readWrite, .new⟩

/-- Three zones of an empty volume. -/
theorem zones_exact_small :
    {z | ([.allocateZones 3].foldl ZoneCall.step emptyZones).volume.zmap z = true}
      = ZoneCall.heldAfter [.allocateZones 3] emptyZones {z | emptyZones.volume.zmap z = true} :=
  (zones_exact (s := emptyZones)
    ⟨by decide, by decide, by decide, by decide, by decide, by decide⟩ [.allocateZones 3]).1

end Twilight.Fs

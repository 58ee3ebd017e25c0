/-
The frame allocator as a pool of frames. Its bitmap says which frames are out: every allocation
takes managed frames that were in, every deallocation returns one frame, and nothing else
changes, so no frame is out twice.
-/
import Twilight.Memory.Frames

namespace Twilight.Memory

open List UsableRegion Words Nat BitmapFrameAllocator Option

/-! ## The pool -/

inductive FrameOp where
  | allocateFrame
  | allocateContiguous (numPages : Nat)
  | allocateContiguousBelow (numPages maxPhysAddr : Nat)
  | deallocateFrame (frame : Nat)
deriving DecidableEq

namespace Pool

/-- The `n` frames from `frame` on were in and are out. -/
structure Takes (managed held : Set Nat) (frame n : Nat) (held' : Set Nat) : Prop where
  free : ∀ j < n, frame + j ∈ managed ∧ frame + j ∉ held
  held : held' = held ∪ {f | frame ≤ f ∧ f < frame + n}

/-- What an operation with its answer does to the set of frames that are out. A single frame is
refused only if all are out. -/
def Step (managed held : Set Nat) : FrameOp → Option Nat → Set Nat → Prop
  | .allocateFrame, some frame, held' => Takes managed held frame 1 held'
  | .allocateFrame, none, held' => held' = held ∧ managed ⊆ held
  | .allocateContiguous n, some frame, held' => 0 < n ∧ Takes managed held frame n held'
  | .allocateContiguous _, none, held' => held' = held
  | .allocateContiguousBelow n maxPhysAddr, some frame, held' =>
    0 < n ∧ Takes managed held frame n held' ∧ 4096 * (frame + n) ≤ maxPhysAddr + 1
  | .allocateContiguousBelow _ _, none, held' => held' = held
  | .deallocateFrame frame, answer, held' => answer = none ∧ held' = held \ {frame}

def Run (managed : Set Nat) : Set Nat → List (FrameOp × Option Nat) → Set Nat → Prop
  | held, [], held' => held' = held
  | held, (op, answer) :: rest, held' =>
    ∃ mid, Step managed held op answer mid ∧ Run managed mid rest held'

end Pool

/-! ## Indices and frames -/

namespace BitmapFrameAllocator

def Separate (regions : List UsableRegion) : Prop :=
  regions.Pairwise fun r r' => ∀ frame, r.contains frame = true → r'.contains frame = false

section Regions

variable {regions : List UsableRegion} {base index frame : Nat}

lemma indexIn_contains (hbase : base ≤ index) (h : indexIn regions base index = some frame) :
    ∃ r ∈ regions, r.contains frame = true := by
  induction regions generalizing base with
  | nil => cases h
  | cons r rest ih =>
    rw [indexIn] at h
    split at h
    · next hlt =>
      refine ⟨r, mem_cons_self, ?_⟩
      rw [contains_iff, ← some.inj h]
      omega
    · obtain ⟨r', hr', hframe⟩ := ih (by omega) h
      exact ⟨r', mem_cons_of_mem _ hr', hframe⟩

lemma frameIn_eq_some (hsep : Separate regions) :
    frameIn regions base frame = some index ↔
      base ≤ index ∧ indexIn regions base index = some frame := by
  induction regions generalizing base with
  | nil => simp [frameIn, indexIn]
  | cons r rest ih =>
    rw [Separate, pairwise_cons] at hsep
    rw [frameIn, indexIn, offset]
    by_cases hframe : r.contains frame = true
    · have hrange := contains_iff.mp hframe
      rw [if_pos hframe]
      constructor
      · intro h
        obtain rfl := some.inj h
        refine ⟨by omega, ?_⟩
        rw [if_pos (by omega)]
        congr 1
        omega
      · rintro ⟨hbase, h⟩
        split at h
        · next hlt =>
          rw [← some.inj h]
          congr 1
          omega
        · obtain ⟨r', hr', hframe'⟩ := indexIn_contains (by omega) h
          rw [hsep.1 r' hr' frame hframe] at hframe'
          cases hframe'
    · rw [if_neg hframe, ih hsep.2]
      constructor
      · rintro ⟨hbase, h⟩
        exact ⟨by omega, by rw [if_neg (by omega), h]⟩
      rintro ⟨hbase, h⟩
      split at h
      · next hlt =>
        rw [contains_iff, ← some.inj h] at hframe
        omega
      · exact ⟨by omega, h⟩

lemma frameIn_isSome (h : ∃ r ∈ regions, r.contains frame = true) :
    ∃ index, frameIn regions base frame = some index := by
  induction regions generalizing base with
  | nil =>
    obtain ⟨r, hr, -⟩ := h
    cases hr
  | cons r rest ih =>
    rw [frameIn]
    by_cases hframe : r.contains frame = true
    · exact ⟨_, if_pos hframe⟩
    rw [if_neg hframe]
    apply ih
    obtain ⟨r', hr', hframe'⟩ := h
    obtain rfl | hr' := mem_cons.mp hr'
    · exact absurd hframe' hframe
    · exact ⟨r', hr', hframe'⟩

lemma indexIn_isSome (hbase : base ≤ index) :
    (∃ frame, indexIn regions base index = some frame) ↔
      index < base + (regions.map (·.len)).sum := by
  induction regions generalizing base with
  | nil => simp [indexIn, hbase]
  | cons r rest ih =>
    rw [indexIn, map_cons, sum_cons]
    split
    · exact iff_of_true ⟨_, rfl⟩ (by omega)
    · rw [ih (by omega)]
      omega

end Regions

variable {a a' : BitmapFrameAllocator}

def managed (a : BitmapFrameAllocator) : Set Nat :=
  {frame | ∃ r ∈ a.usableRegions, r.contains frame = true}

def held (a : BitmapFrameAllocator) : Set Nat :=
  {frame | ∃ index, a.frameToIndex frame = some index ∧ a.isFrameAllocated index = true}

/-- The regions share no frame, the bitmap has a bit for every frame, and no other bit is set. -/
structure Sound (a : BitmapFrameAllocator) : Prop where
  separate : Separate a.usableRegions
  fits : a.framesCount ≤ 64 * a.bitmap.length
  inside : ∀ index, a.isFrameAllocated index = true → index < a.framesCount

lemma exists_add_mod_eq (hint : Nat) {i n : Nat} (h : i < n) :
    ∃ k < n, (hint + k) % n = i := by
  have hhint : hint % n < n := mod_lt _ (by omega)
  refine ⟨(i + (n - hint % n)) % n, mod_lt _ (by omega), ?_⟩
  rw [add_mod_mod, ← mod_add_mod, show hint % n + (i + (n - hint % n)) = i + n by omega,
    add_mod_right, mod_eq_of_lt h]

def Free (a : BitmapFrameAllocator) (frame : Nat) : Prop :=
  ∃ index, a.frameToIndex frame = some index ∧ a.isFrameAllocated index = false

lemma allocateFrame_finds (hsep : Separate a.usableRegions) {frame : Nat} (hframe : a.Free frame) :
    a.allocateFrame.1 ≠ none := by
  obtain ⟨index, hindex, hclear⟩ := hframe
  have hlt := (indexIn_isSome (zero_le _)).mp ⟨_, ((frameIn_eq_some hsep).mp hindex).2⟩
  rw [zero_add, ← a.counted] at hlt
  obtain ⟨i, hi, hmod⟩ := exists_add_mod_eq a.nextFreeIndex hlt
  unfold allocateFrame
  split
  · next hnone =>
    have := find?_eq_none.mp hnone index (mem_map.mpr ⟨i, mem_range.mpr hi, hmod⟩)
    simp [hclear] at this
  next found hfound =>
  obtain ⟨i, -, rfl⟩ := mem_map.mp (mem_of_find?_eq_some hfound)
  have hfound : (a.nextFreeIndex + i) % a.framesCount < a.framesCount := mod_lt _ (by omega)
  obtain ⟨f, hf⟩ : ∃ f, indexIn a.usableRegions 0 ((a.nextFreeIndex + i) % a.framesCount) = some f :=
    (indexIn_isSome (zero_le _)).mpr (by rwa [zero_add, ← a.counted])
  rw [indexToFrame, if_neg (by omega), hf]
  exact some_ne_none _

namespace Sound

variable {frame index : Nat}

lemma frameToIndex_iff (h : a.Sound) :
    a.frameToIndex frame = some index ↔ a.indexToFrame index = some frame := by
  rw [frameToIndex, frameIn_eq_some h.separate, indexToFrame]
  by_cases hindex : index ≥ a.framesCount
  · rw [if_pos hindex]
    refine iff_of_false ?_ nofun
    rintro ⟨-, hsome⟩
    have hlt := (indexIn_isSome (zero_le _)).mp ⟨frame, hsome⟩
    rw [a.counted] at hindex
    omega
  · rw [if_neg hindex]
    exact and_iff_right (zero_le _)

lemma lt_framesCount (h : a.Sound)
    (hframe : a.frameToIndex frame = some index) : index < a.framesCount := by
  rw [h.frameToIndex_iff, indexToFrame] at hframe
  split at hframe
  · cases hframe
  · omega

lemma mem_managed (h : a.Sound) :
    frame ∈ a.managed ↔ ∃ index, a.frameToIndex frame = some index := by
  constructor
  · exact fun hmem => frameIn_isSome hmem
  · rintro ⟨index, hindex⟩
    rw [frameToIndex, frameIn_eq_some h.separate] at hindex
    exact indexIn_contains hindex.1 hindex.2

lemma exists_frame (h : a.Sound) (hindex : index < a.framesCount) :
    ∃ frame, a.frameToIndex frame = some index := by
  have hlt : index < 0 + (a.usableRegions.map (·.len)).sum := by
    rw [zero_add, ← a.counted]
    exact hindex
  obtain ⟨frame, hframe⟩ := (indexIn_isSome (zero_le _)).mpr hlt
  exact ⟨frame, (frameIn_eq_some h.separate).mpr ⟨zero_le _, hframe⟩⟩

lemma not_mem_held (hframe : a.frameToIndex frame = some index)
    (hfree : a.isFrameAllocated index = false) : frame ∉ a.held := by
  rintro ⟨index', hindex', hset⟩
  rw [hframe, some.injEq] at hindex'
  rw [← hindex', hfree] at hset
  cases hset

lemma takes (h : a.Sound) {start n : Nat}
    (hrun : ∀ j < n, a.frameToIndex (frame + j) = some (start + j))
    (hfree : ∀ j < n, a.isFrameAllocated (start + j) = false)
    (hregions : a'.usableRegions = a.usableRegions) (hlength : a'.bitmap.length = a.bitmap.length)
    (hbits : ∀ i, a'.isFrameAllocated i =
      if start ≤ i ∧ i < start + n then true else a.isFrameAllocated i) :
    a'.Sound ∧ Pool.Takes a.managed a.held frame n a'.held := by
  have hcount : a'.framesCount = a.framesCount := by rw [a'.counted, hregions, ← a.counted]
  have hindex : ∀ f, a'.frameToIndex f = a.frameToIndex f := fun f => by
    rw [frameToIndex, hregions, frameToIndex]
  refine ⟨⟨hregions ▸ h.separate, by rw [hcount, hlength]; exact h.fits, ?_⟩, ⟨?_, ?_⟩⟩
  · intro i hi
    rw [hbits] at hi
    rw [hcount]
    split at hi
    · next hin =>
      have hlt := h.lt_framesCount (hrun (i - start) (by omega))
      omega
    · exact h.inside i hi
  · intro j hj
    exact ⟨h.mem_managed.mpr ⟨_, hrun j hj⟩, not_mem_held (hrun j hj) (hfree j hj)⟩
  · ext f
    constructor
    · rintro ⟨i, hi, hset⟩
      rw [hindex] at hi
      rw [hbits] at hset
      split at hset
      · next hin =>
        -- the index determines the frame
        have hj := hrun (i - start) (by omega)
        rw [Nat.add_sub_cancel' hin.1, h.frameToIndex_iff] at hj
        rw [h.frameToIndex_iff, hj, some.injEq] at hi
        exact Or.inr ⟨by omega, by omega⟩
      · exact Or.inl ⟨i, hi, hset⟩
    · rintro (⟨i, hi, hset⟩ | ⟨hle, hlt⟩)
      · refine ⟨i, by rw [hindex, hi], ?_⟩
        rw [hbits, hset, ite_self]
      · have hj := hrun (f - frame) (by omega)
        rw [Nat.add_sub_cancel' hle] at hj
        refine ⟨_, by rw [hindex, hj], ?_⟩
        rw [hbits, if_pos (by omega)]

lemma allocateFrame (h : a.Sound) :
    a.allocateFrame.2.Sound ∧
      Pool.Step a.managed a.held .allocateFrame a.allocateFrame.1 a.allocateFrame.2.held := by
  unfold BitmapFrameAllocator.allocateFrame
  split
  · next hnone =>
    refine ⟨h, rfl, fun frame hframe => ?_⟩
    obtain ⟨index, hindex⟩ := h.mem_managed.mp hframe
    refine ⟨index, hindex, ?_⟩
    by_contra hfree
    refine allocateFrame_finds h.separate ⟨index, hindex, by simpa using hfree⟩ ?_
    rw [BitmapFrameAllocator.allocateFrame, hnone]
  next index hfound =>
  have hfree : a.isFrameAllocated index = false := by simpa using find?_some hfound
  obtain ⟨i, hi, hindex⟩ := mem_map.mp (mem_of_find?_eq_some hfound)
  have hlt : index < a.framesCount := by
    rw [← hindex]
    exact mod_lt _ (by have := mem_range.mp hi; omega)
  obtain ⟨frame, hframe⟩ := h.exists_frame hlt
  rw [h.frameToIndex_iff.mp hframe]
  have hfits := h.fits
  have hrun : ∀ j < 1, a.frameToIndex (frame + j) = some (index + j) := by
    intro j hj
    rw [show j = 0 by omega]
    exact hframe
  refine h.takes hrun ?_ rfl (length_setBit _ _ _) ?_
  · intro j hj
    rw [show j = 0 by omega]
    exact hfree
  intro i
  refine (getBit_setBit (by omega) true i).trans ?_
  by_cases hi : i = index
  · rw [if_pos hi, if_pos (by omega)]
  · rw [if_neg hi, if_neg (by omega)]
    rfl

lemma deallocateFrame (h : a.Sound) (frame : Nat) :
    (a.deallocateFrame frame).Sound ∧
      Pool.Step a.managed a.held (.deallocateFrame frame) none (a.deallocateFrame frame).held := by
  unfold BitmapFrameAllocator.deallocateFrame
  split
  · next hnone =>
    refine ⟨h, rfl, (Set.sdiff_singleton_eq_self ?_).symm⟩
    rintro ⟨index, hindex, -⟩
    rw [hnone] at hindex
    cases hindex
  next index hindex =>
  split
  · next hset =>
    have hlt := h.lt_framesCount hindex
    have hfits := h.fits
    have hbits : ∀ i, getBit (setBit a.bitmap index false) i =
        if i = index then false else a.isFrameAllocated i :=
      getBit_setBit (by omega) false
    refine ⟨⟨h.separate, ?_, ?_⟩, rfl, ?_⟩
    · exact le_of_le_of_eq h.fits (congrArg (64 * ·) (length_setBit _ _ _).symm)
    · intro i hi
      rw [isFrameAllocated, setFrameAllocated, hbits] at hi
      split at hi
      · cases hi
      · exact h.inside i hi
    ext f
    constructor
    · rintro ⟨i, hi, hset'⟩
      rw [isFrameAllocated, setFrameAllocated, hbits] at hset'
      split at hset'
      · cases hset'
      · next hne =>
        refine ⟨⟨i, hi, hset'⟩, ?_⟩
        rintro rfl
        exact hne (some.inj (hi.symm.trans hindex))
    · rintro ⟨⟨i, hi, hset'⟩, hne⟩
      refine ⟨i, hi, ?_⟩
      rw [isFrameAllocated, setFrameAllocated, hbits, if_neg, hset']
      rintro rfl
      rw [h.frameToIndex_iff] at hi hindex
      exact hne (some.inj (hi.symm.trans hindex))
  · next hclear =>
    refine ⟨h, rfl, (Set.sdiff_singleton_eq_self ?_).symm⟩
    exact not_mem_held hindex (by simpa using hclear)

end Sound

lemma contiguousIn_spec {limit : UsableRegion → Nat} (hlimit : ∀ r, limit r ≤ r.len)
    {n start frame base : Nat} {regions : List UsableRegion}
    (h : a.contiguousIn limit n regions base = some (start, frame)) :
    (∀ j < n, base ≤ start + j ∧ indexIn regions base (start + j) = some (frame + j)) ∧
      (∀ j < n, a.isFrameAllocated (start + j) = false) ∧
      ∃ r ∈ regions, n ≤ limit r ∧ frame + n ≤ r.firstFrame + limit r ∧ r.firstFrame ≤ frame := by
  induction regions generalizing base with
  | nil => cases h
  | cons r rest ih =>
    -- a run found in a later region
    have hlater : a.contiguousIn limit n rest (base + r.len) = some (start, frame) →
        (∀ j < n, base ≤ start + j ∧ indexIn (r :: rest) base (start + j) = some (frame + j)) ∧
          (∀ j < n, a.isFrameAllocated (start + j) = false) ∧
          ∃ r' ∈ r :: rest, n ≤ limit r' ∧ frame + n ≤ r'.firstFrame + limit r' ∧
            r'.firstFrame ≤ frame := by
      intro hrest
      obtain ⟨hindex, hfree, r', hr', hle⟩ := ih hrest
      refine ⟨fun j hj => ?_, hfree, r', mem_cons_of_mem _ hr', hle⟩
      obtain ⟨hbase, hj'⟩ := hindex j hj
      refine ⟨by omega, ?_⟩
      rw [indexIn, if_neg (by omega), hj']
    rw [contiguousIn] at h
    split at h
    · exact hlater h
    next hroom =>
    dsimp only at h
    split at h
    · next off hfound =>
      have hle : off ≤ limit r - n := by
        have hmem := mem_of_find?_eq_some hfound
        rw [candidates, mem_append, mem_range'_1, mem_range'_1] at hmem
        omega
      have hfree := find?_some hfound
      have hlen := hlimit r
      cases h
      refine ⟨fun j hj => ⟨by omega, ?_⟩, ?_, r, mem_cons_self, by omega, by omega⟩
      · rw [indexIn, if_pos (by omega)]
        congr 1
        omega
      · intro j hj
        simpa using all_eq_true.mp hfree j (mem_range.mpr hj)
    · exact hlater h

lemma Sound.allocateRun (h : a.Sound) {limit : UsableRegion → Nat}
    (hlimit : ∀ r, limit r ≤ r.len) (n : Nat) :
    (a.allocateRun limit n).2.Sound ∧
      match (a.allocateRun limit n).1 with
      | none => (a.allocateRun limit n).2.held = a.held
      | some frame => 0 < n ∧ Pool.Takes a.managed a.held frame n (a.allocateRun limit n).2.held ∧
          ∃ r ∈ a.usableRegions, n ≤ limit r ∧ frame + n ≤ r.firstFrame + limit r := by
  unfold BitmapFrameAllocator.allocateRun
  split
  · exact ⟨h, rfl⟩
  next hn =>
  split
  · exact ⟨h, rfl⟩
  next start frame hfound =>
  obtain ⟨hindex, hfree, r, hr, hroom, hle, -⟩ := contiguousIn_spec hlimit hfound
  have hrun : ∀ j < n, a.frameToIndex (frame + j) = some (start + j) := fun j hj =>
    (frameIn_eq_some h.separate).mpr (hindex j hj)
  have hlast := h.lt_framesCount (hrun (n - 1) (by omega))
  have hfits := h.fits
  refine (h.takes hrun hfree ?_ ?_ ?_).imp_right fun htakes =>
    ⟨by omega, htakes, r, hr, hroom, hle⟩
  · rfl
  · exact length_setRange _ _ _
  · exact fun i => getBit_setRange (by omega) i

lemma framesBelow_le_len (maxPhysAddr : Nat) (r : UsableRegion) :
    framesBelow maxPhysAddr r ≤ r.len := by
  unfold framesBelow
  split
  · exact zero_le _
  · exact min_le_left _ _

lemma framesBelow_le {maxPhysAddr : Nat} {r : UsableRegion}
    (hpos : 0 < framesBelow maxPhysAddr r) :
    4096 * (r.firstFrame + framesBelow maxPhysAddr r) ≤ maxPhysAddr + 1 := by
  unfold framesBelow at hpos ⊢
  split at hpos
  · omega
  next hstart =>
  rw [if_neg hstart]
  omega

/-! ## Operations and runs -/

def exec (a : BitmapFrameAllocator) : FrameOp → Option Nat × BitmapFrameAllocator
  | .allocateFrame => a.allocateFrame
  | .allocateContiguous n => a.allocateContiguous n
  | .allocateContiguousBelow n maxPhysAddr => a.allocateContiguousBelow n maxPhysAddr
  | .deallocateFrame frame => (none, a.deallocateFrame frame)

def run : BitmapFrameAllocator → List FrameOp → List (FrameOp × Option Nat) × BitmapFrameAllocator
  | a, [] => ([], a)
  | a, op :: ops =>
    let (trace, a') := run (a.exec op).2 ops
    ((op, (a.exec op).1) :: trace, a')

lemma exec_regions (a : BitmapFrameAllocator) (op : FrameOp) :
    (a.exec op).2.usableRegions = a.usableRegions := by
  have hrun : ∀ limit n, (a.allocateRun limit n).2.usableRegions = a.usableRegions := by
    intro limit n
    unfold allocateRun
    split
    · rfl
    · split <;> rfl
  cases op with
  | allocateFrame =>
    rw [exec, allocateFrame]
    split <;> rfl
  | allocateContiguous n => exact hrun _ _
  | allocateContiguousBelow n maxPhysAddr => exact hrun _ _
  | deallocateFrame frame =>
    rw [exec, deallocateFrame]
    split
    · rfl
    · split <;> rfl

lemma Sound.exec (h : a.Sound) (op : FrameOp) :
    (a.exec op).2.Sound ∧ Pool.Step a.managed a.held op (a.exec op).1 (a.exec op).2.held := by
  cases op with
  | allocateFrame => exact h.allocateFrame
  | allocateContiguous n =>
    obtain ⟨hsound, hspec⟩ := h.allocateRun (fun r => Nat.le_refl r.len) n
    refine ⟨hsound, ?_⟩
    rw [BitmapFrameAllocator.exec, allocateContiguous]
    split at hspec
    · next hanswer =>
      rw [hanswer]
      exact hspec
    · next frame hanswer =>
      rw [hanswer]
      exact ⟨hspec.1, hspec.2.1⟩
  | allocateContiguousBelow n maxPhysAddr =>
    obtain ⟨hsound, hspec⟩ := h.allocateRun (framesBelow_le_len maxPhysAddr) n
    refine ⟨hsound, ?_⟩
    rw [BitmapFrameAllocator.exec, allocateContiguousBelow]
    split at hspec
    · next hanswer =>
      rw [hanswer]
      exact hspec
    · next frame hanswer =>
      rw [hanswer]
      obtain ⟨hn, htakes, r, -, hlimit, hle⟩ := hspec
      have hbelow := framesBelow_le (show 0 < framesBelow maxPhysAddr r by omega)
      exact ⟨hn, htakes, by omega⟩
  | deallocateFrame frame => exact h.deallocateFrame frame

lemma Sound.run (h : a.Sound) (ops : List FrameOp) :
    (a.run ops).2.Sound ∧ (a.run ops).2.usableRegions = a.usableRegions ∧
      Pool.Run a.managed a.held (a.run ops).1 (a.run ops).2.held := by
  induction ops generalizing a with
  | nil => exact ⟨h, rfl, rfl⟩
  | cons op ops ih =>
    obtain ⟨hsound, hstep⟩ := h.exec op
    obtain ⟨hend, hregions, hrun⟩ := ih hsound
    have hmanaged : (a.exec op).2.managed = a.managed := by
      rw [managed, exec_regions, managed]
    refine ⟨hend, hregions.trans (exec_regions a op), _, hstep, ?_⟩
    rw [← hmanaged]
    exact hrun

lemma Sound.isFrameAllocated_iff (h : a.Sound) (index : Nat) :
    a.isFrameAllocated index = true ↔ ∃ frame ∈ a.held, a.frameToIndex frame = some index := by
  constructor
  · intro hset
    obtain ⟨frame, hframe⟩ := h.exists_frame (h.inside index hset)
    exact ⟨frame, ⟨index, hframe, hset⟩, hframe⟩
  · rintro ⟨frame, ⟨index', hindex', hset⟩, hframe⟩
    rw [hframe, some.injEq] at hindex'
    rwa [hindex']

/-! ## What the searches find -/

def FreeRun (a : BitmapFrameAllocator) (n frame : Nat) : Prop := 0 < n ∧ ∀ j < n, a.Free (frame + j)

/-- Every search that is refused is refused for want of memory. -/
structure FindsMemory (a : BitmapFrameAllocator) (n maxPhysAddr : Nat) : Prop where
  frame : a.allocateFrame.1 = none → ∀ f, ¬ a.Free f
  contiguous : (a.allocateContiguous n).1 = none → ∀ f, ¬ a.FreeRun n f
  below : (a.allocateContiguousBelow n maxPhysAddr).1 = none →
    ∀ f, a.FreeRun n f → ¬ 4096 * (f + n) ≤ maxPhysAddr + 1

def RunIn (a : BitmapFrameAllocator) (n : Nat) (r : UsableRegion) (f : Nat) : Prop :=
  a.FreeRun n f ∧ r.firstFrame ≤ f ∧ f + n ≤ r.firstFrame + r.len

/-- If there is a free run then there is one within a region, and no run up to the last address
is wanted. -/
structure RunsInRegions (a : BitmapFrameAllocator) (n maxPhysAddr : Nat) : Prop where
  contiguous : ∀ f, a.FreeRun n f → ∃ r ∈ a.usableRegions, ∃ f', a.RunIn n r f'
  below : ∀ f, a.FreeRun n f → 4096 * (f + n) ≤ maxPhysAddr + 1 → maxPhysAddr + 1 < 2 ^ 64 ∧
    ∃ r ∈ a.usableRegions, ∃ f', a.RunIn n r f' ∧ 4096 * (f' + n) ≤ maxPhysAddr + 1

section Finds

variable {n frame base : Nat} {regions : List UsableRegion} (hsep : Separate a.usableRegions)

lemma contiguousIn_finds {limit : UsableRegion → Nat} (hlimit : ∀ r, limit r ≤ r.len)
    (hsep : Separate regions) {r : UsableRegion} (hr : r ∈ regions) (hstart : r.firstFrame ≤ frame)
    (hstop : frame + n ≤ r.firstFrame + limit r)
    (hfree : ∀ j < n, ∃ i, frameIn regions base (frame + j) = some i ∧
      a.isFrameAllocated i = false) : a.contiguousIn limit n regions base ≠ none := by
  have hcontains : ∀ j < n, r.contains (frame + j) = true := fun j hj =>
    contains_iff.mpr (by have := hlimit r; omega)
  induction regions generalizing base with
  | nil => cases hr
  | cons r' rest ih =>
    rw [Separate, pairwise_cons] at hsep
    rw [contiguousIn]
    obtain rfl | hr := mem_cons.mp hr
    · rw [if_neg (by omega)]
      have hall : ((range n).all fun j =>
          !a.isFrameAllocated (base + (frame - r.firstFrame) + j)) = true := by
        refine all_eq_true.mpr fun j hj => ?_
        obtain ⟨i, hi, hclear⟩ := hfree j (mem_range.mp hj)
        rw [frameIn, if_pos (hcontains j (mem_range.mp hj)), some.injEq, offset] at hi
        rw [show base + (frame - r.firstFrame) + j = i by omega, hclear]
        rfl
      dsimp only
      split
      · exact some_ne_none _
      next hnone =>
      refine absurd hall (find?_eq_none.mp hnone _ ?_)
      rw [candidates, mem_append, mem_range'_1, mem_range'_1]
      omega
    · have hrest : a.contiguousIn limit n rest (base + r'.len) ≠ none := by
        refine ih hsep.2 hr fun j hj => ?_
        have hother : ¬ r'.contains (frame + j) = true := fun h =>
          Bool.noConfusion ((hcontains j hj).symm.trans (hsep.1 r hr _ h))
        simpa only [frameIn, if_neg hother] using hfree j hj
      dsimp only
      split
      · exact hrest
      · split
        · exact some_ne_none _
        · exact hrest

include hsep

lemma allocateRun_eq_none_iff {limit : UsableRegion → Nat} (hlimit : ∀ r, limit r ≤ r.len) :
    (a.allocateRun limit n).1 = none ↔ ∀ r ∈ a.usableRegions, ∀ f, a.FreeRun n f →
      r.firstFrame ≤ f → ¬ f + n ≤ r.firstFrame + limit r := by
  unfold allocateRun
  split
  · exact iff_of_true rfl fun r _ f hf => absurd hf.1 (by omega)
  split
  · next hnone =>
    exact iff_of_true rfl fun r hr f hf hstart hstop =>
      contiguousIn_finds hlimit hsep hr hstart hstop hf.2 hnone
  next hn _ start frame hfound =>
  obtain ⟨hindex, hfree, r, hr, -, hstop, hstart⟩ := contiguousIn_spec hlimit hfound
  refine iff_of_false (some_ne_none _) fun h => h r hr frame ⟨by omega, fun j hj => ?_⟩
    hstart hstop
  exact ⟨_, (frameIn_eq_some hsep).mpr (hindex j hj), hfree j hj⟩

end Finds

/-- The contiguous searches look into one region after the other, so they miss the run that goes on
from a region to the next one; and the sum behind the limit wraps at the last address. -/
theorem findsMemory_iff (hsep : Separate a.usableRegions) (n : Nat) {maxPhysAddr : Nat}
    (hmax : maxPhysAddr < 2 ^ 64) : a.FindsMemory n maxPhysAddr ↔ a.RunsInRegions n maxPhysAddr := by
  have hany := allocateRun_eq_none_iff (n := n) hsep fun r => Nat.le_refl r.len
  have hlow := allocateRun_eq_none_iff (n := n) hsep (framesBelow_le_len maxPhysAddr)
  constructor
  · rintro ⟨-, hcontiguous, hbelow⟩
    refine ⟨fun f hf => ?_, fun f hf hle => ?_⟩
    · by_contra hno
      exact hcontiguous (hany.mpr fun r hr f' hf' hstart hstop =>
        hno ⟨r, hr, f', hf', hstart, hstop⟩) f hf
    by_contra hno
    refine hbelow (hlow.mpr fun r hr f' hf' hstart hstop => hno ?_) f hf hle
    have hpos : 0 < framesBelow maxPhysAddr r := by have := hf'.1; omega
    have hlen := framesBelow_le_len maxPhysAddr r
    have haddr := framesBelow_le hpos
    refine ⟨?_, r, hr, f', ⟨hf', hstart, by omega⟩, by omega⟩
    by_contra hwrap
    rw [framesBelow, show maxPhysAddr + 1 = 2 ^ 64 by omega] at hpos
    simp at hpos
  · rintro ⟨hcontiguous, hbelow⟩
    refine ⟨fun hnone f hf => allocateFrame_finds hsep hf hnone, fun hnone f hf => ?_,
      fun hnone f hf hle => ?_⟩
    · obtain ⟨r, hr, f', hf', hstart, hstop⟩ := hcontiguous f hf
      exact hany.mp hnone r hr f' hf' hstart hstop
    · obtain ⟨hlt, r, hr, f', ⟨hf', hstart, hstop⟩, hle'⟩ := hbelow f hf hle
      refine hlow.mp hnone r hr f' hf' hstart ?_
      have := hf'.1
      rw [framesBelow, if_neg (by omega), mod_eq_of_lt hlt]
      omega

/-- Two regions of one frame each, with nothing between them. -/
def twoRegions : BitmapFrameAllocator :=
  ⟨0, [0], 0, [⟨1, 1, Nat.one_pos⟩, ⟨2, 1, Nat.one_pos⟩], 2, rfl⟩

/-- A region of four frames, of which the first is taken, and one of a single frame. -/
def fourAndOne : BitmapFrameAllocator :=
  ⟨0, [1], 1, [⟨1, 4, by decide⟩, ⟨8, 1, Nat.one_pos⟩], 5, rfl⟩

theorem findsMemory_iff_three : fourAndOne.FindsMemory 3 0x5fff := by
  have hsep : Separate fourAndOne.usableRegions := by
    refine pairwise_pair.mpr fun frame h => ?_
    rw [← Bool.not_eq_true, contains_iff]
    have := contains_iff.mp h
    dsimp only [len] at *
    omega
  have hrun : fourAndOne.RunIn 3 ⟨1, 4, by decide⟩ 2 :=
    ⟨⟨by decide, fun j hj => ⟨j + 1, by interval_cases j <;> decide,
      by interval_cases j <;> decide⟩⟩, by decide, by decide⟩
  exact (findsMemory_iff hsep 3 (by decide)).mpr
    ⟨fun _ _ => ⟨_, mem_cons_self, 2, hrun⟩,
      fun _ _ _ => ⟨by decide, _, mem_cons_self, 2, hrun, by decide⟩⟩

/-- Frames 1 and 2 are free and next to each other, in two regions. -/
theorem misses_two_frames : (twoRegions.allocateContiguous 2).1 = none ∧ twoRegions.FreeRun 2 1 ∧
    ¬ twoRegions.FindsMemory 2 0xffff := by
  have hrun : twoRegions.FreeRun 2 1 :=
    ⟨by decide, fun j hj => ⟨j, by interval_cases j <;> decide, by interval_cases j <;> decide⟩⟩
  exact ⟨by decide, hrun, fun h => h.contiguous (by decide) 1 hrun⟩

end BitmapFrameAllocator

/-! ## The start -/

def Entry.Aligned (e : Entry) : Prop := 4096 ∣ e.base ∧ 4096 ∣ e.length

def Entry.Disjoint (e e' : Entry) : Prop := ∀ addr, ¬ (e.Covers addr ∧ e'.Covers addr)

/-- The usable entries of the memory map are page-aligned and disjoint. -/
structure Tidy (memoryMap : List Entry) : Prop where
  aligned : ∀ e ∈ memoryMap, e.Usable → e.Aligned
  disjoint : memoryMap.Pairwise fun e e' => e.Usable → e'.Usable → e.Disjoint e'

def FrameCovers (frame addr : Nat) : Prop := 4096 * frame ≤ addr ∧ addr < 4096 * frame + 4096

def InStorage (bitmapAddr size addr : Nat) : Prop := bitmapAddr ≤ addr ∧ addr < bitmapAddr + size

def Came (r : UsableRegion) (e : Entry) : Prop :=
  e.Usable ∧ ∀ frame, r.contains frame = true → ∀ addr, FrameCovers frame addr → e.Covers addr

lemma UsableRegion.new_spec {start stop : Nat} {r : UsableRegion} (h : new start stop = some r)
    (hstart : 4096 ∣ start) (hstop : 4096 ∣ stop) (hlt : start < stop) :
    r.firstFrame = start / 4096 ∧ r.len = (stop - start) / 4096 := by
  unfold new frameAt at h
  split at h
  · split at h
    · obtain rfl := some.inj h
      rw [len]
      dsimp only
      omega
    · cases h
  · cases h

namespace Collect

variable {size : Nat} {addr addr' : Option Nat} {entries : List Entry}

/-- No usable entry still to come touches the storage of a bitmap already placed. -/
def Placed (size : Nat) (addr : Option Nat) (entries : List Entry) : Prop :=
  ∀ A, addr = some A → ∀ e ∈ entries, e.Usable → ∀ x, e.Covers x → ¬ InStorage A size x

/-- What the loop of `init` makes of these entries: the regions it adds, and the place of the
bitmap, which lies in one of the entries if it was not placed before. -/
structure Collected (size : Nat) (addr : Option Nat) (entries : List Entry) (addr' : Option Nat)
    (regions : List UsableRegion) : Prop where
  came : ∀ r ∈ regions, ∃ e ∈ entries, Came r e
  separate : BitmapFrameAllocator.Separate regions
  sum : (regions.map (·.len)).sum ≤
    (entries.map fun e => if e.Usable then e.length / 4096 else 0).sum
  storage : ∀ A, addr' = some A →
    addr = some A ∨ ∃ e ∈ entries, e.Usable ∧ ∀ x, InStorage A size x → e.Covers x
  apart : ∀ A, addr' = some A → ∀ r ∈ regions, ∀ frame, r.contains frame = true →
    ∀ x, FrameCovers frame x → ¬ InStorage A size x

variable {e : Entry} {regions : List UsableRegion}

lemma Collected.skip {addr₁ : Option Nat} (h : Collected size addr₁ entries addr' regions)
    (hplace : ∀ A, addr₁ = some A → addr = some A ∨
      e.Usable ∧ ∀ x, InStorage A size x → e.Covers x) :
    Collected size addr (e :: entries) addr' regions where
  came r hr := by
    obtain ⟨e', he', hcame⟩ := h.came r hr
    exact ⟨e', mem_cons_of_mem _ he', hcame⟩
  separate := h.separate
  sum := by
    exact le_trans h.sum (le_add_left _ _)
  storage A hA := by
    obtain hA | ⟨e', he', hstorage⟩ := h.storage A hA
    · obtain hA | hstorage := hplace A hA
      · exact Or.inl hA
      · exact Or.inr ⟨e, mem_cons_self, hstorage⟩
    · exact Or.inr ⟨e', mem_cons_of_mem _ he', hstorage⟩
  apart := h.apart

lemma Collected.push {addr₁ : Option Nat}
    {r : UsableRegion} (h : Collected size addr₁ entries addr' regions)
    (hplace : ∀ A, addr₁ = some A → addr = some A ∨ e.Usable ∧ ∀ x, InStorage A size x → e.Covers x)
    (hcame : Came r e) (hlen : r.len ≤ e.length / 4096)
    (hdisjoint : ∀ e' ∈ entries, e'.Usable → e.Disjoint e')
    (hapart : ∀ A, addr₁ = some A → ∀ frame, r.contains frame = true → ∀ x, FrameCovers frame x →
      ¬ InStorage A size x) :
    Collected size addr (e :: entries) addr' (r :: regions) := by
  have hskip := h.skip hplace
  refine ⟨?_, ?_, ?_, hskip.storage, ?_⟩
  · intro r' hr'
    obtain rfl | hr' := mem_cons.mp hr'
    · exact ⟨e, mem_cons_self, hcame⟩
    · exact hskip.came r' hr'
  · refine pairwise_cons.mpr ⟨?_, h.separate⟩
    intro r' hr' frame hframe
    by_contra hboth
    obtain ⟨e', he', hcame'⟩ := h.came r' hr'
    have hfirst : FrameCovers frame (4096 * frame) := ⟨Nat.le_refl _, by omega⟩
    exact hdisjoint e' he' hcame'.1 _ ⟨hcame.2 frame hframe _ hfirst,
      hcame'.2 frame (by simpa using hboth) _ hfirst⟩
  · rw [map_cons, map_cons, if_pos hcame.1]
    exact Nat.add_le_add hlen h.sum
  · intro A hA r' hr' frame hframe x hx hstorage
    obtain rfl | hr' := mem_cons.mp hr'
    · obtain hA' | ⟨e', he', husable, hin⟩ := h.storage A hA
      · exact hapart A hA' frame hframe x hx hstorage
      · exact hdisjoint e' he' husable x ⟨hcame.2 frame hframe x hx, hin x hstorage⟩
    · exact h.apart A hA r' hr' frame hframe x hx hstorage

lemma Collected.nil (hplace : ∀ A, addr' = some A → addr = some A ∨
      ∃ e ∈ entries, e.Usable ∧ ∀ x, InStorage A size x → e.Covers x) :
    Collected size addr entries addr' [] where
  came := nofun
  separate := List.Pairwise.nil
  sum := zero_le _
  storage := hplace
  apart := nofun

lemma new_came {start : Nat} {r : UsableRegion}
    (h : new start (e.base + e.length) = some r) (husable : e.Usable)
    (haligned : e.Aligned) (hstart : 4096 ∣ start) (hbase : e.base ≤ start)
    (hlt : start < e.base + e.length) :
    Came r e ∧ r.len ≤ e.length / 4096 ∧
      ∀ frame, r.contains frame = true → ∀ x, FrameCovers frame x → start ≤ x := by
  obtain ⟨hfirst, hlen⟩ := new_spec h hstart ((Nat.dvd_add_right haligned.1).mpr haligned.2) hlt
  obtain ⟨c, rfl⟩ := hstart
  have hin : ∀ frame, r.contains frame = true → ∀ x, FrameCovers frame x →
      4096 * c ≤ x ∧ x < e.base + e.length := by
    intro frame hframe x ⟨hle, hx⟩
    rw [contains_iff] at hframe
    omega
  refine ⟨⟨husable, fun frame hframe x hx => ?_⟩, by omega, fun frame hframe x hx => ?_⟩
  · exact ⟨le_trans hbase (hin frame hframe x hx).1, (hin frame hframe x hx).2⟩
  · exact (hin frame hframe x hx).1

lemma initLoop_collected (hsize : 4096 ∣ size) (htidy : Tidy entries)
    (hplaced : Placed size addr entries) {regions' : List UsableRegion}
    (h : initLoop size entries addr regions = some (addr', regions')) :
    ∃ added, regions' = regions ++ added ∧ Collected size addr entries addr' added := by
  induction entries generalizing addr regions with
  | nil =>
    cases h
    exact ⟨[], (append_nil _).symm, .nil fun A hA => Or.inl hA⟩
  | cons e entries ih =>
    have hrest : Tidy entries :=
      ⟨fun e' he' => htidy.aligned e' (mem_cons_of_mem _ he'), (pairwise_cons.mp htidy.disjoint).2⟩
    rw [initLoop] at h
    split at h
    · next hkind =>
      obtain ⟨added, hadded, hcollected⟩ := ih hrest
        (fun A hA e' he' => hplaced A hA e' (mem_cons_of_mem _ he')) h
      exact ⟨added, hadded, hcollected.skip fun A hA => Or.inl hA⟩
    next hkind =>
    have husable : e.Usable := not_not.mp hkind
    have haligned := htidy.aligned e mem_cons_self husable
    have hdisjoint : ∀ e' ∈ entries, e'.Usable → e.Disjoint e' := fun e' he' husable' =>
      (pairwise_cons.mp htidy.disjoint).1 e' he' husable husable'
    dsimp only at h
    split at h
    · cases h
    generalize hplacedIn : (addr.isNone && decide (e.length ≥ size)) = placedIn at h
    -- where the bitmap is once this entry has been looked at
    generalize hnow : (if placedIn = true then some e.base else addr) = now at h
    have hcases : ∀ A, now = some A → addr = some A ∨ A = e.base ∧ size ≤ e.length := by
      intro A hA
      cases placedIn with
      | false => exact Or.inl (hnow.trans hA)
      | true =>
        simp only [if_true] at hnow
        rw [← hnow, some.injEq] at hA
        simp only [Bool.and_eq_true, decide_eq_true_eq] at hplacedIn
        exact Or.inr ⟨hA.symm, hplacedIn.2⟩
    have hplace : ∀ A, now = some A → addr = some A ∨
        e.Usable ∧ ∀ x, InStorage A size x → e.Covers x := by
      intro A hA
      refine (hcases A hA).imp_right fun ⟨hbase, hle⟩ => ⟨husable, fun x hx => ?_⟩
      rw [InStorage, hbase] at hx
      exact ⟨hx.1, by omega⟩
    have hplaced' : Placed size now entries := by
      intro A hA e' he' husable' x hx hstorage
      obtain hA | ⟨-, hin⟩ := hplace A hA
      · exact hplaced A hA e' (mem_cons_of_mem _ he') husable' x hx hstorage
      · exact hdisjoint e' he' husable' x ⟨hin x hstorage, hx⟩
    generalize hstart : (if now = some e.base then e.base + size else e.base) = start at h
    split at h
    · obtain ⟨added, hadded, hcollected⟩ := ih hrest hplaced' h
      exact ⟨added, hadded, hcollected.skip hplace⟩
    split at h
    · next hroom =>
      split at h
      · cases h
        refine ⟨[], (append_nil _).symm, .nil fun A hA => ?_⟩
        obtain hA | hin := hplace A hA
        · exact Or.inl hA
        · exact Or.inr ⟨e, mem_cons_self, hin⟩
      split at h
      · cases h
      next r hr =>
      obtain ⟨added, hadded, hcollected⟩ := ih hrest hplaced' h
      refine ⟨r :: added, by rw [hadded, append_assoc, singleton_append], ?_⟩
      have haligned' : 4096 ∣ start ∧ e.base ≤ start := by
        rw [← hstart]
        split
        · exact ⟨(Nat.dvd_add_right haligned.1).mpr hsize, Nat.le_add_right _ _⟩
        · exact ⟨haligned.1, Nat.le_refl _⟩
      obtain ⟨hcame, hlen, hfloor⟩ := new_came hr husable haligned haligned'.1 haligned'.2 (by omega)
      refine hcollected.push hplace hcame hlen hdisjoint ?_
      intro A hA frame hframe x hx hstorage
      obtain hA' | ⟨hbase, -⟩ := hcases A hA
      · exact hplaced A hA' e mem_cons_self husable x (hcame.2 frame hframe x hx) hstorage
      · rw [← hbase, if_pos hA] at hstart
        have hle := hfloor frame hframe x hx
        have hlt := hstorage.2
        omega
    · obtain ⟨added, hadded, hcollected⟩ := ih hrest hplaced' h
      exact ⟨added, hadded, hcollected.skip hplace⟩

end Collect

namespace BitmapFrameAllocator

variable {memoryMap : List Entry} {a : BitmapFrameAllocator}

lemma init_collected (htidy : Tidy memoryMap) (h : init memoryMap = some a) :
    Collect.Collected (bitmapStorageSize memoryMap) none memoryMap (some a.bitmapAddr)
        a.usableRegions ∧
      a.bitmap = replicate (bitmapWords memoryMap) 0 := by
  unfold init at h
  split at h
  · next addr regions hloop =>
    obtain rfl := some.inj h
    have hplaced : Collect.Placed (bitmapStorageSize memoryMap) none memoryMap := by
      intro A hA
      cases hA
    obtain ⟨added, hadded, hcollected⟩ :=
      Collect.initLoop_collected (Dvd.intro_left _ rfl) htidy hplaced hloop
    rw [nil_append] at hadded
    rw [← hadded] at hcollected
    exact ⟨hcollected, rfl⟩
  · cases h

lemma init_sound (htidy : Tidy memoryMap) (h : init memoryMap = some a) :
    a.Sound ∧ a.held = ∅ := by
  obtain ⟨hcollected, hbitmap⟩ := init_collected htidy h
  have hclear : ∀ index, a.isFrameAllocated index = false := by
    intro index
    rw [isFrameAllocated, hbitmap]
    exact getBit_replicate_zero _ _
  refine ⟨⟨hcollected.separate, ?_, ?_⟩, ?_⟩
  · rw [a.counted, hbitmap, length_replicate, bitmapWords]
    have hsum := hcollected.sum
    omega
  · intro index hset
    rw [hclear] at hset
    cases hset
  · rw [Set.eq_empty_iff_forall_notMem]
    rintro frame ⟨index, -, hset⟩
    rw [hclear] at hset
    cases hset

/-- Whatever is allocated and freed in whatever order, no frame is out twice: the operations and
their answers are a run of the pool that starts with every frame in, the managed frames lie in
usable entries outside the storage of the bitmap, and the set bits are exactly the frames that
are out. -/
theorem run_pool (htidy : Tidy memoryMap) (hinit : init memoryMap = some a) (ops : List FrameOp) :
    ∃ held, Pool.Run a.managed ∅ (a.run ops).1 held ∧
      (∀ frame ∈ a.managed, ∃ e ∈ memoryMap, e.Usable ∧ ∀ addr, FrameCovers frame addr →
        e.Covers addr ∧ ¬ InStorage a.bitmapAddr (bitmapStorageSize memoryMap) addr) ∧
      ∀ index, (a.run ops).2.isFrameAllocated index = true ↔
        ∃ frame ∈ held, (a.run ops).2.frameToIndex frame = some index := by
  obtain ⟨hsound, hheld⟩ := init_sound htidy hinit
  obtain ⟨hcollected, -⟩ := init_collected htidy hinit
  obtain ⟨hend, -, hrun⟩ := hsound.run ops
  refine ⟨_, hheld ▸ hrun, ?_, hend.isFrameAllocated_iff⟩
  rintro frame ⟨r, hr, hframe⟩
  obtain ⟨e, he, husable, hcovers⟩ := hcollected.came r hr
  refine ⟨e, he, husable, fun addr haddr => ⟨hcovers frame hframe addr haddr, ?_⟩⟩
  exact hcollected.apart _ rfl r hr frame hframe addr haddr

/-- Two usable entries around a reserved one; the bitmap takes the first frame. -/
def smallMap : List Entry :=
  [⟨0x1000, 0x3000, .usable⟩, ⟨0x4000, 0x1000, .reserved⟩, ⟨0x8000, 0x2000, .usable⟩]

lemma smallMap_tidy : Tidy smallMap := by
  refine ⟨by simp [smallMap, Entry.Aligned], ?_⟩
  have hapart : Entry.Disjoint ⟨0x1000, 0x3000, .usable⟩ ⟨0x8000, 0x2000, .usable⟩ := by
    rintro addr ⟨⟨-, hlt⟩, hle, -⟩
    dsimp only at hlt hle
    omega
  simp [smallMap, Entry.Usable, hapart]

/-- Two adjacent frames, then one from the other entry and another, and then none is left. -/
theorem run_pool_small : ∃ a, init smallMap = some a ∧
    (a.run [.allocateContiguous 2, .allocateFrame, .allocateFrame, .allocateFrame]).1.map (·.2) =
      [some 2, some 8, some 9, none] ∧
    ∃ held, Pool.Run a.managed ∅ (a.run [.allocateContiguous 2, .allocateFrame]).1 held := by
  have hanswers : (init smallMap).map (fun a => (a.run [.allocateContiguous 2, .allocateFrame,
      .allocateFrame, .allocateFrame]).1.map (·.2)) = some [some 2, some 8, some 9, none] := by
    decide +kernel
  obtain ⟨a, ha, hanswers⟩ := map_eq_some_iff.mp hanswers
  obtain ⟨held, hrun, -⟩ := run_pool smallMap_tidy ha [.allocateContiguous 2, .allocateFrame]
  exact ⟨a, ha, hanswers, held, hrun⟩

end BitmapFrameAllocator

end Twilight.Memory

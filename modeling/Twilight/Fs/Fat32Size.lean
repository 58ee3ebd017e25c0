/-
The size of the FAT.

`compute_fat32_size` looks for a FAT that is just long enough for the clusters it leaves.  It starts
far above it: where the start leaves fewer clusters than FAT32 needs, it goes on upwards and finds no
space, and where no FAT is just long enough it steps to and fro between two sizes forever.
-/
import Mathlib.Tactic.NormNum

namespace Twilight
namespace Fat32

def bytesPerSector : Nat := 512

def sectorsPerCluster : Nat := 8

def reservedSectors : Nat := 32

def numFats : Nat := 2

inductive FatError
  | noSpace
deriving DecidableEq

/-- The loop of `compute_fat32_size`; `none` when the rounds do not suffice. -/
def sizeLoop (totalSectors : Nat) : Nat → Nat → Option (Except FatError (Nat × Nat))
  | 0, _ => none
  | rounds + 1, fatSize =>
    if totalSectors < reservedSectors + numFats * fatSize then some (.error .noSpace)
    else
      let dataSectors := totalSectors - (reservedSectors + numFats * fatSize)
      let totalClusters := dataSectors / sectorsPerCluster
      if totalClusters < 65525 then sizeLoop totalSectors rounds (fatSize + 1)
      else
        let fatBytes := (totalClusters + 2) * 4
        let required := (fatBytes + bytesPerSector - 1) / bytesPerSector
        if required = fatSize then some (.ok (fatSize, totalClusters))
        else sizeLoop totalSectors rounds required

/-- The first subtraction wraps around. -/
def computeFat32Size (rounds totalSectors : Nat) : Option (Except FatError (Nat × Nat)) :=
  sizeLoop totalSectors rounds
    (max ((totalSectors + 2 ^ 32 - reservedSectors) % 2 ^ 32 / (sectorsPerCluster * numFats + 1)) 1)

/-- A FAT of `fat` sectors leaves `clusters` clusters, enough for FAT32, and has an entry for each. -/
def Fits (n fat clusters : Nat) : Prop :=
  32 + 2 * fat ≤ n ∧ clusters = (n - 32 - 2 * fat) / 8 ∧ 65525 ≤ clusters ∧
    (clusters + 2) * 4 ≤ fat * 512

/-- What the result says of a volume of `n` sectors. -/
def Right (n : Nat) : Except FatError (Nat × Nat) → Prop
  | .ok (fat, clusters) => Fits n fat clusters
  | .error _ => ∀ fat clusters, ¬ Fits n fat clusters

/-! ## One round -/

/-- The FAT for the clusters that a FAT of `fat` sectors leaves. -/
def required (n fat : Nat) : Nat := ((n - (32 + 2 * fat)) / 8 + 129) / 128

section Round

variable {n fat : Nat} (rounds : Nat)

lemma sizeLoop_short (h : n < 32 + 2 * fat) :
    sizeLoop n (rounds + 1) fat = some (.error .noSpace) := by
  rw [sizeLoop]
  exact if_pos h

lemma sizeLoop_few (h : 32 + 2 * fat ≤ n) (hfew : n < 524232 + 2 * fat) :
    sizeLoop n (rounds + 1) fat = sizeLoop n rounds (fat + 1) := by
  have hclusters : (n - (32 + 2 * fat)) / 8 < 65525 := by omega
  rw [sizeLoop]
  exact (if_neg (Nat.not_lt.mpr h)).trans (if_pos hclusters)

lemma sizeLoop_many (h : 524232 + 2 * fat ≤ n) :
    sizeLoop n (rounds + 1) fat =
      if required n fat = fat then some (.ok (fat, (n - (32 + 2 * fat)) / 8))
      else sizeLoop n rounds (required n fat) := by
  have hrequired : (((n - (32 + 2 * fat)) / 8 + 2) * 4 + 512 - 1) / 512 = required n fat := by
    unfold required
    omega
  have hshort : ¬ n < 32 + 2 * fat := by omega
  have hclusters : ¬ (n - (32 + 2 * fat)) / 8 < 65525 := by omega
  rw [sizeLoop, ← hrequired]
  exact (if_neg hshort).trans (if_neg hclusters)

end Round

lemma required_many {n : Nat} (h : 594124 ≤ n) (fat : Nat) :
    524232 + 2 * required n fat ≤ n := by
  unfold required
  omega

/-! ## All rounds -/

/-- From a FAT that leaves too few clusters the loop goes upwards. -/
lemma sizeLoop_upwards {n : Nat} (k : Nat) {fat : Nat} (hfew : n < 524232 + 2 * fat)
    (hk : n < 32 + 2 * (fat + k)) : sizeLoop n (k + 1) fat = some (.error .noSpace) := by
  induction k generalizing fat with
  | zero => exact sizeLoop_short 0 hk
  | succ k ih =>
    by_cases hshort : n < 32 + 2 * fat
    · exact sizeLoop_short (k + 1) hshort
    · rw [sizeLoop_few (k + 1) (by omega) hfew]
      exact ih (by omega) (by omega)

lemma sizeLoop_few_error {n : Nat} (rounds : Nat) {fat : Nat} (hfew : n < 524232 + 2 * fat)
    {result : Except FatError (Nat × Nat)} (h : sizeLoop n rounds fat = some result) :
    result = .error .noSpace := by
  induction rounds generalizing fat with
  | zero => cases h
  | succ rounds ih =>
    by_cases hshort : n < 32 + 2 * fat
    · rw [sizeLoop_short rounds hshort] at h
      exact (Option.some.inj h).symm
    · rw [sizeLoop_few rounds (by omega) hfew] at h
      exact ih (by omega) h

lemma sizeLoop_forever {n : Nat} (hn : 594124 ≤ n) (hnone : ∀ fat, required n fat ≠ fat)
    (rounds : Nat) {fat : Nat} (h : 524232 + 2 * fat ≤ n) : sizeLoop n rounds fat = none := by
  induction rounds generalizing fat with
  | zero => rfl
  | succ rounds ih =>
    rw [sizeLoop_many rounds h, if_neg (hnone fat)]
    exact ih (required_many hn fat)

section Settles

variable {n : Nat}

/-- The loop ends at `p`. -/
def Settles (n p fat : Nat) : Prop :=
  ∃ rounds, sizeLoop n rounds fat = some (.ok (p, (n - (32 + 2 * p)) / 8))

lemma settles_of_required {p fat : Nat} (hp : ∀ g, required n g = g ↔ g = p)
    (h : 524232 + 2 * fat ≤ n) (hnext : Settles n p (required n fat)) : Settles n p fat := by
  by_cases hfix : required n fat = fat
  · obtain rfl := (hp fat).mp hfix
    exact ⟨1, by rw [sizeLoop_many 0 h, if_pos hfix]⟩
  · obtain ⟨rounds, hrounds⟩ := hnext
    exact ⟨rounds + 1, by rw [sizeLoop_many rounds h, if_neg hfix, hrounds]⟩

/-- From a FAT `d` sectors away from `p` the next is `d / 512 + 1` away or closer. -/
lemma settles_wider {p d : Nat} (hn : 594124 ≤ n) (hp : ∀ g, required n g = g ↔ g = p)
    (hnear : ∀ fat, p ≤ fat + (d / 512 + 1) → fat ≤ p + (d / 512 + 1) →
      524232 + 2 * fat ≤ n → Settles n p fat)
    {fat : Nat} (hlow : p ≤ fat + d) (hhigh : fat ≤ p + d) (h : 524232 + 2 * fat ≤ n) :
    Settles n p fat := by
  have hpp := (hp p).mpr rfl
  refine settles_of_required hp h (hnear _ ?_ ?_ (required_many hn fat))
  · unfold required at hpp ⊢
    omega
  · unfold required at hpp ⊢
    omega

end Settles

/-- The FAT that is just long enough. -/
lemma required_eq_iff {n : Nat} (h : 594124 ≤ n) (g : Nat) :
    required n g = g ↔ n < 1026 * g + 24 ∧ 1026 * g ≤ n + 1000 := by
  unfold required
  omega

lemma settles {n p : Nat} (hn : 594124 ≤ n) (hp : n < 1026 * p + 24 ∧ 1026 * p ≤ n + 1000)
    {fat : Nat} (hlow : p ≤ fat + 2 ^ 28) (hhigh : fat ≤ p + 2 ^ 28)
    (h : 524232 + 2 * fat ≤ n) : Settles n p fat := by
  have hfix : ∀ g, required n g = g ↔ g = p := by
    intro g
    rw [required_eq_iff hn]
    omega
  have hself : Settles n p p := by
    have hmany : 524232 + 2 * p ≤ n := (hfix p).mpr rfl ▸ required_many hn p
    exact ⟨1, by rw [sizeLoop_many 0 hmany, if_pos ((hfix p).mpr rfl)]⟩
  -- next to `p` two rounds are enough: `required` does not fall by two from `p - 1` to `p + 1`
  have hnext : ∀ fat, p ≤ fat + 1 → fat ≤ p + 1 → 524232 + 2 * fat ≤ n → Settles n p fat := by
    intro fat hlow hhigh h
    have htwice : required n (required n fat) = p := by
      unfold required
      omega
    refine settles_of_required hfix h (settles_of_required hfix (required_many hn fat) ?_)
    rw [htwice]
    exact hself
  have h3 := fun fat => @settles_wider n p 3 hn hfix hnext fat
  have h1025 := fun fat => @settles_wider n p 1025 hn hfix h3 fat
  have h524289 := fun fat => @settles_wider n p 524289 hn hfix h1025 fat
  exact @settles_wider n p (2 ^ 28) hn hfix h524289 fat hlow hhigh h

/-- The loop ends with the right result for the volumes that are too small for FAT32, and for those
of at least 594124 sectors for which some FAT is just long enough. -/
theorem sizes_iff (n : Nat) (hn : n < 2 ^ 32) :
    (∃ rounds result, computeFat32Size rounds n = some result ∧ Right n result) ↔
      n < 525256 ∨ (594124 ≤ n ∧ n % 1026 ≠ 24 ∧ n % 1026 ≠ 25) := by
  obtain ⟨start, hstart, hcompute⟩ : ∃ start, start =
      max ((n + 2 ^ 32 - 32) % 2 ^ 32 / 17) 1 ∧
      ∀ rounds, computeFat32Size rounds n = sizeLoop n rounds start := ⟨_, rfl, fun _ => rfl⟩
  simp only [hcompute]
  by_cases hlarge : 594124 ≤ n
  · have hmany : 524232 + 2 * start ≤ n := by omega
    by_cases hmod : n % 1026 ≠ 24 ∧ n % 1026 ≠ 25
    · refine iff_of_true ?_ (.inr ⟨hlarge, hmod⟩)
      obtain ⟨p, hp⟩ : ∃ p, n < 1026 * p + 24 ∧ 1026 * p ≤ n + 1000 :=
        ⟨(n - 24) / 1026 + 1, by omega⟩
      obtain ⟨rounds, hrounds⟩ := settles hlarge hp (by omega) (by omega) hmany
      refine ⟨rounds, _, hrounds, ?_⟩
      unfold Right Fits
      omega
    · refine iff_of_false ?_ (by omega)
      rintro ⟨rounds, result, hresult, -⟩
      have hnone : ∀ fat, required n fat ≠ fat := by
        intro fat hfat
        rw [required_eq_iff hlarge] at hfat
        omega
      rw [sizeLoop_forever hlarge hnone rounds hmany] at hresult
      cases hresult
  · have hfew : n < 524232 + 2 * start := by omega
    by_cases hsmall : n < 525256
    · refine iff_of_true ⟨n + 1, _, sizeLoop_upwards n hfew (by omega), ?_⟩ (.inl hsmall)
      intro fat clusters
      unfold Fits
      omega
    refine iff_of_false ?_ (by omega)
    rintro ⟨rounds, result, hresult, hright⟩
    cases sizeLoop_few_error rounds hfew hresult
    refine hright ((n - 524232) / 2) 65525 ?_
    unfold Fits
    omega

/-- A volume of 1 GiB. -/
theorem sizes_one_gibibyte :
    ∃ rounds result, computeFat32Size rounds 2097152 = some result ∧ Right 2097152 result :=
  (sizes_iff 2097152 (by decide)).mpr (.inr (by decide))

/-- A volume of 525312 sectors is refused, and for 595104 sectors the loop does not end. -/
theorem sizes_fails :
    (∃ fat clusters, Fits 525312 fat clusters) ∧
      computeFat32Size 525313 525312 = some (.error .noSpace) ∧
      ∀ rounds, computeFat32Size rounds 595104 = none := by
  refine ⟨⟨540, 65525, by unfold Fits; decide⟩, ?_, fun rounds => ?_⟩
  · exact sizeLoop_upwards 525312 (by decide) (by decide)
  · refine sizeLoop_forever (by decide) (fun fat hfat => ?_) rounds (by decide)
    rw [required_eq_iff (by decide)] at hfat
    omega

end Fat32
end Twilight

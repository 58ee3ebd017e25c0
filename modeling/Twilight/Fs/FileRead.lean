/-
What `read` returns.

`read_all_file` collects the zones of a file up to the first place without one in
each range and puts their blocks one after the other.  On a dense file, whose
first `m` blocks have zones and no other place has, these are the blocks in
order, and the result is the content of the file.
-/
import Twilight.Fs.FileStore

namespace Twilight.Fs

open Node List Disk

/-! ## Content -/

def byteOf (B : Nat → Bytes) (M : Pos → Nat) (p : Nat) : UInt8 :=
  B (M (posOf (p / 2048))) (p % 2048)

variable (D : Disk)

def Disk.content (i : Inode) : List UInt8 := (range i.size.toNat).map (byteOf D.block (D.refOf i))

@[simp] lemma Disk.length_content (i : Inode) :
    (D.content i).length = i.size.toNat := by
  simp [content]

variable (env : NodeEnv)

/-- The bytes as a reader sees them who applies the cipher of `env`. -/
def Disk.decoded (i : Inode) : List UInt8 :=
  (range i.size.toNat).map fun p =>
    applyCrypto env i (D.refOf i (posOf (p / 2048))) (D.block (D.refOf i (posOf (p / 2048))))
      (p % 2048)

lemma Disk.decoded_plain {i : Inode} (h : i.isEncrypted = false) :
    D.decoded env i = D.content i := by
  refine map_congr_left fun p _ => ?_
  rw [applyCrypto, h]
  rfl

@[simp] lemma Disk.length_decoded (i : Inode) :
    (D.decoded env i).length = i.size.toNat := by
  simp [decoded]

/-- The first `m` blocks of the file have zones, and no other place has. -/
structure Disk.Dense (D : Disk) (i : Inode) (m : Nat) : Prop where
  mapped : ∀ p, D.refOf i p ≠ 0 ↔ p ∈ places m
  cap : m ≤ 1028
  size : i.size.toNat ≤ m * 2048

namespace Disk.Dense

variable {D : Disk} {i : Inode} {m : Nat}

lemma block (h : D.Dense i m) {j : Nat} (hj : j < m) : D.refOf i (posOf j) ≠ 0 :=
  (h.mapped _).mpr (posOf_mem_places.mpr hj)

lemma eq_zero (h : D.Dense i m) {p : Pos} (hp : p ∉ places m) : D.refOf i p = 0 := by
  by_contra hne
  exact hp ((h.mapped p).mp hne)

end Disk.Dense

/-! ## The zones of a file -/

lemma takeWhile_map_range {f : Nat → Nat} {k n : Nat} (hk : k ≤ n) (h1 : ∀ j < k, f j ≠ 0)
    (h2 : k < n → f k = 0) :
    ((range n).map f).takeWhile (· ≠ 0) = (range k).map f := by
  induction n generalizing k f with
  | zero =>
    obtain rfl : k = 0 := by omega
    rfl
  | succ n ih =>
    rw [range_succ_eq_map, map_cons, map_map]
    cases k with
    | zero =>
      rw [takeWhile_cons_of_neg (by simp [h2 (Nat.succ_pos n)])]
      rfl
    | succ k =>
      rw [takeWhile_cons_of_pos (by simpa using h1 0 (Nat.succ_pos k)),
        ih (f := f ∘ Nat.succ) (Nat.le_of_succ_le_succ hk)
          (fun j hj => h1 (j + 1) (Nat.succ_lt_succ hj)) fun hlt => h2 (Nat.succ_lt_succ hlt),
        range_succ_eq_map, map_cons, map_map]

section

variable {V : Volume} {i j : Inode} {m : Nat}

variable {k z : Nat} {f : Nat → Nat} {Q : NPost (List Nat)} {env : NodeEnv}

lemma mem_places_single : .singleEntry k ∈ places m ↔ k < 511 ∧ 6 + k < m := by
  constructor
  · intro h
    rcases mem_places.mp h with ⟨b, hb, he⟩ | ⟨-, he⟩ | ⟨-, he | he⟩
    · unfold posOf at he
      split at he
      · cases he
      · split at he
        · injection he
          omega
        · cases he
    · cases he
    · cases he
    · cases he
  · rintro ⟨hk, hm⟩
    rw [← posOf_single hk]
    exact posOf_mem_places.mpr hm

lemma mem_places_l2 : .l2 0 k ∈ places m ↔ 517 + k < m := by
  rw [← posOf_double]
  exact posOf_mem_places

lemma mem_places_l1 : .l1 k ∈ places m ↔ 517 < m ∧ k = 0 := by
  constructor
  · intro h
    rcases mem_places.mp h with ⟨b, -, he⟩ | ⟨-, he⟩ | ⟨hm, he | he⟩
    · exact absurd he ((posOf_ne_pointer b).2.2 k)
    · cases he
    · cases he
    · injection he with he
      exact ⟨hm, he⟩
  · rintro ⟨hm, rfl⟩
    exact mem_places.mpr (.inr (.inr ⟨hm, .inr rfl⟩))

lemma mem_places_pointer : (.single ∈ places m ↔ 6 < m) ∧ (.double ∈ places m ↔ 517 < m) := by
  have hno := posOf_ne_pointer
  constructor
  · rw [mem_places]
    constructor
    · rintro (⟨b, -, he⟩ | ⟨hm, -⟩ | ⟨-, he | he⟩)
      · exact absurd he (hno b).1
      · exact hm
      · cases he
      · cases he
    · exact fun hm => .inr (.inl ⟨hm, rfl⟩)
  · rw [mem_places]
    constructor
    · rintro (⟨b, -, he⟩ | ⟨-, he⟩ | ⟨hm, -⟩)
      · exact absurd he (hno b).2.1
      · cases he
      · exact hm
    · exact fun hm => .inr (.inr ⟨hm, .inl rfl⟩)

/-- The first `m` blocks of the file have zones, and the readers find the end there: the next
block has none, and there is no pointer block more. -/
structure Disk.Filled (D : Disk) (i : Inode) (m : Nat) : Prop where
  isData : ∀ p, D.refOf i p ≠ 0 → D.IsData (D.refOf i p)
  mapped : ∀ p ∈ places m, D.refOf i p ≠ 0
  next : D.refOf i (posOf m) = 0
  single : D.refOf i .single ≠ 0 → 6 < m
  singleEnd : D.refOf i (.singleEntry 511) = 0
  double : D.refOf i .double ≠ 0 → 517 < m
  doubleEnd : D.refOf i (.l1 1) = 0
  cap : m ≤ 1028
  size : i.size.toNat ≤ m * 2048

lemma Disk.Dense.filled (hd : V.Dense i m) (hM : V.Maps (V.refOf i)) : V.Filled i m where
  isData := hM.isData
  mapped p hp := (hd.mapped p).mpr hp
  next := hd.eq_zero fun hmem => absurd (posOf_mem_places.mp hmem) (Nat.lt_irrefl m)
  single hne := mem_places_pointer.1.mp ((hd.mapped _).mp hne)
  singleEnd := hd.eq_zero fun hmem => absurd (mem_places_single.mp hmem).1 (by decide)
  double hne := mem_places_pointer.2.mp ((hd.mapped _).mp hne)
  doubleEnd := hd.eq_zero fun hmem => absurd (mem_places_l1.mp hmem).2 (by decide)
  cap := hd.cap
  size := hd.size

lemma Disk.Filled.block (h : V.Filled i m) {j : Nat} (hj : j < m) : V.refOf i (posOf j) ≠ 0 :=
  h.mapped _ (posOf_mem_places.mpr hj)

lemma pointerZones_eq {buf : Bytes} (hbuf : ∀ j, entryAt buf j = f j)
    (hk : k ≤ 512) (h1 : ∀ j < k, f j ≠ 0) (h2 : k < 512 → f k = 0) :
    pointerZones buf = (range k).map f := by
  rw [pointerZones, show entryAt buf = f from funext hbuf]
  exact takeWhile_map_range hk h1 h2

/-- The entries of the pointer block in zone `z` up to the first that is 0. -/
def Disk.zonesUnder (D : Disk) (z : Nat) : List Nat :=
  if z = 0 then [] else pointerZones (D.block z)

/-- The zones of a file in the order of its blocks, each range up to its first gap. -/
def Disk.fileZones (D : Disk) (i : Inode) : List Nat :=
  ((range 6).map i.directSlotGet).takeWhile (· ≠ 0) ++ D.zonesUnder i.singleIndirectGet
    ++ (D.zonesUnder i.doubleIndirectGet).flatMap D.zonesUnder

lemma Disk.zonesUnder_of_ne (D : Disk) (hz : z ≠ 0) :
    D.zonesUnder z = pointerZones (D.block z) := if_neg hz

lemma Disk.mem_zonesUnder {D : Disk} {y : Nat} (h : y ∈ D.zonesUnder z) :
    y ≠ 0 ∧ ∃ k, y = D.pointer z k := by
  by_cases hz : z = 0
  · rw [zonesUnder, if_pos hz] at h
    exact absurd h not_mem_nil
  · rw [D.zonesUnder_of_ne hz] at h
    obtain ⟨k, -, hk⟩ := mem_map.mp ((takeWhile_sublist _).subset h)
    refine ⟨by simpa using mem_takeWhile_imp h, k, ?_⟩
    rw [pointer, if_neg hz, hk]

lemma Disk.mem_fileZones {D : Disk} (h : z ∈ D.fileZones i) :
    ∃ p, D.refOf i p ≠ 0 ∧ D.refOf i p = z := by
  rw [fileZones, mem_append, mem_append] at h
  rcases h with (h | h) | h
  · obtain ⟨b, -, hb⟩ := mem_map.mp ((takeWhile_sublist _).subset h)
    have hne : z ≠ 0 := by simpa using mem_takeWhile_imp h
    exact ⟨.direct b, fun h0 => hne (hb.symm.trans h0), hb⟩
  · obtain ⟨hne, k, hk⟩ := mem_zonesUnder h
    exact ⟨.singleEntry k, fun h0 => hne (hk.trans h0), hk.symm⟩
  · obtain ⟨y, hy, hz⟩ := mem_flatMap.mp h
    obtain ⟨-, a, ha⟩ := mem_zonesUnder hy
    obtain ⟨hne, k, hk⟩ := mem_zonesUnder hz
    rw [ha] at hk
    exact ⟨.l2 a k, fun h0 => hne (hk.trans h0), hk.symm⟩

lemma Disk.Filled.fileZones (hd : V.Filled i m) :
    V.fileZones i = (range m).map fun b => V.refOf i (posOf b) := by
  have hcap := hd.cap
  have hdirect : ((range 6).map i.directSlotGet).takeWhile (· ≠ 0)
      = (range (min m 6)).map fun b => V.refOf i (posOf b) := by
    rw [takeWhile_map_range (k := min m 6) (Nat.min_le_right _ _)]
    · refine map_congr_left fun b hb => ?_
      rw [posOf_direct (by have := mem_range.mp hb; omega)]
      rfl
    · intro b hb
      have := hd.block (show b < m by omega)
      rwa [posOf_direct (by omega)] at this
    · intro hlt
      have hnext := hd.next
      rw [show m = min m 6 by omega, posOf_direct hlt] at hnext
      exact hnext
  have hsingle : V.zonesUnder (V.refOf i .single)
      = (range (min (m - 6) 511)).map fun k => V.refOf i (posOf (6 + k)) := by
    by_cases hne : V.refOf i .single = 0
    · have : ¬ 6 < m := fun h6 => hd.mapped .single (mem_places_pointer.1.mpr h6) hne
      rw [zonesUnder, if_pos hne, show min (m - 6) 511 = 0 by omega]
      rfl
    have hentry : ∀ k, entryAt (V.block (V.refOf i .single)) k = V.refOf i (.singleEntry k) :=
      fun k => ((V.pointers i).entries k).symm ▸ (pointerIn_of_ne hne k).symm
    rw [V.zonesUnder_of_ne hne, pointerZones_eq (k := min (m - 6) 511) hentry (by omega)]
    · refine map_congr_left fun k hk => ?_
      rw [posOf_single (by have := mem_range.mp hk; omega)]
    · intro k hk
      exact hd.mapped _ (mem_places_single.mpr (by omega))
    intro _
    have h6 := hd.single hne
    by_cases h517 : m < 517
    · have hnext := hd.next
      rw [show m = 6 + min (m - 6) 511 by omega, posOf_single (by omega)] at hnext
      exact hnext
    · rw [show min (m - 6) 511 = 511 by omega]
      exact hd.singleEnd
  have hl2 : V.refOf i (.l1 0) ≠ 0 → 517 < m → V.zonesUnder (V.refOf i (.l1 0))
      = (range (m - 517)).map fun k => V.refOf i (posOf (517 + k)) := by
    intro hne hm
    have hentry : ∀ k, entryAt (V.block (V.refOf i (.l1 0))) k = V.refOf i (.l2 0 k) :=
      fun k => ((V.pointers i).l2 0 k).symm ▸ (pointerIn_of_ne hne k).symm
    rw [V.zonesUnder_of_ne hne, pointerZones_eq (k := m - 517) hentry (by omega)]
    · refine map_congr_left fun k _ => ?_
      rw [posOf_double]
    · intro k hk
      exact hd.mapped _ (mem_places_l2.mpr (by omega))
    · intro _
      have hnext := hd.next
      rw [show m = 517 + (m - 517) by omega, posOf_double] at hnext
      exact hnext
  have hdouble : (V.zonesUnder (V.refOf i .double)).flatMap V.zonesUnder
      = (range (m - 517)).map fun k => V.refOf i (posOf (517 + k)) := by
    by_cases hne : V.refOf i .double = 0
    · have : ¬ 517 < m := fun h517 => hd.mapped .double (mem_places_pointer.2.mpr h517) hne
      rw [zonesUnder, if_pos hne, show m - 517 = 0 by omega]
      rfl
    have hm := hd.double hne
    have hentry : ∀ k, entryAt (V.block (V.refOf i .double)) k = V.refOf i (.l1 k) :=
      fun k => ((V.pointers i).l1 k).symm ▸ (pointerIn_of_ne hne k).symm
    have hone : ∀ k < 1, V.refOf i (.l1 k) ≠ 0 :=
      fun k hk => hd.mapped _ (mem_places_l1.mpr ⟨hm, by omega⟩)
    rw [V.zonesUnder_of_ne hne, pointerZones_eq (k := 1) hentry (by decide) hone
      fun _ => hd.doubleEnd]
    show V.zonesUnder (V.refOf i (.l1 0)) ++ [] = _
    rw [append_nil, hl2 (hone 0 Nat.one_pos) hm]
  have hsplit : (range m).map (fun b => V.refOf i (posOf b))
      = (range (min m 6)).map (fun b => V.refOf i (posOf b))
        ++ (range (min (m - 6) 511)).map (fun k => V.refOf i (posOf (6 + k)))
        ++ (range (m - 517)).map (fun k => V.refOf i (posOf (517 + k))) := by
    by_cases h6 : m ≤ 6
    · rw [show min m 6 = m by omega, show min (m - 6) 511 = 0 by omega, show m - 517 = 0 by omega]
      simp
    by_cases h517 : m ≤ 517
    · rw [show min m 6 = 6 by omega, show min (m - 6) 511 = m - 6 by omega,
        show m - 517 = 0 by omega]
      conv_lhs => rw [show m = 6 + (m - 6) by omega, range_add]
      simp [Function.comp_def]
    · rw [show min m 6 = 6 by omega, show min (m - 6) 511 = 511 by omega]
      conv_lhs => rw [show m = 517 + (m - 517) by omega, range_add,
        show 517 = 6 + 511 by rfl, range_add]
      simp [Function.comp_def]
  rw [hsplit, ← hdirect, ← hsingle, ← hdouble]
  rfl

lemma nspec_zonesBelow {zone : Nat} {l : List Nat} {collect : Bytes → NodeM (List Nat)}
    (hl : Layout V.mount) (hdata : zone ≠ 0 → V.IsData zone) (hzero : zone = 0 → l = [])
    (hcollect : zone ≠ 0 → NSpec (collect (V.block zone))
      (fun r W i' => r = .ok l ∧ W = V ∧ i' = j) V j)
    (hQ : Q (.ok l) V j) : NSpec (zonesBelow zone collect) Q V j := by
  rw [zonesBelow]
  by_cases hz : zone = 0
  · rw [if_pos hz]
    rw [hzero hz] at hQ
    exact NSpec.pure hQ
  · rw [if_neg hz]
    refine NSpec.bind (NSpec.attempt (nspec_readTfsBlock hl (hdata hz) ?_))
    refine (hcollect hz).mono ?_
    rintro r W i' ⟨rfl, rfl, rfl⟩
    exact hQ

lemma nspec_doubleZones (hl : Layout V.mount) {l : List Nat} (hdata : ∀ z ∈ l, z ≠ 0 ∧ V.IsData z)
    (hQ : Q (.ok (l.flatMap V.zonesUnder)) V j) : NSpec (doubleZones l) Q V j := by
  induction l generalizing Q with
  | nil => exact NSpec.pure hQ
  | cons z rest ih =>
    obtain ⟨hz, hzdata⟩ := hdata z mem_cons_self
    rw [doubleZones]
    refine NSpec.bind (NSpec.attempt (nspec_readTfsBlock hl hzdata ?_))
    refine NSpec.bind (ih (fun y hy => hdata y (mem_cons_of_mem z hy)) (NSpec.pure ?_))
    rw [flatMap_cons, V.zonesUnder_of_ne hz] at hQ
    exact hQ

lemma nspec_allZones (hl : Layout V.mount) (hdata : ∀ p, V.refOf i p ≠ 0 → V.IsData (V.refOf i p))
    (hQ : Q (.ok (V.fileZones i)) V j) : NSpec (allZones i) Q V j := by
  have hzero : ∀ z, z = 0 → V.zonesUnder z = [] := fun z hz => if_pos hz
  rw [allZones]
  refine NSpec.bind (nspec_zonesBelow hl (hdata .single) (hzero _) (fun hne => ?_) ?_)
  · rw [← V.zonesUnder_of_ne hne]
    exact NSpec.pure ⟨rfl, rfl, rfl⟩
  refine NSpec.bind (nspec_zonesBelow (l := (V.zonesUnder i.doubleIndirectGet).flatMap V.zonesUnder)
    hl (hdata .double) (fun hz => ?_) (fun hne => ?_) ?_)
  · rw [hzero _ hz]
    rfl
  · rw [← V.zonesUnder_of_ne hne]
    refine nspec_doubleZones hl (fun z hz => ?_) ⟨rfl, rfl, rfl⟩
    obtain ⟨hz0, k, hk⟩ := mem_zonesUnder hz
    rw [hk]
    rw [hk] at hz0
    exact ⟨hz0, hdata (.l1 k) hz0⟩
  · exact NSpec.pure hQ

/-! ## The transfers -/

lemma runLength_zones {a c r : Nat}
    (hr : r ≤ runLength (fun a b => b == a + 1) ((List.range' a c).map f)) {t : Nat} (ht : t < r) :
    f (a + t) = f a + t := by
  induction t with
  | zero => rfl
  | succ t ih =>
    have hstep := (runLength_range' (fun a b => b == a + 1) f a c).2 t (by omega)
    rw [beq_iff_eq] at hstep
    rw [← Nat.add_assoc, hstep, ih (by omega), Nat.add_assoc]

lemma nspec_readRuns (hl : Layout V.mount) {a c fileSize : Nat}
    (hz : ∀ b, a ≤ b → b < a + c → V.IsData (f b)) {out : Bytes} {Q : NPost Bytes}
    (hQ : ∀ out' : Bytes, (∀ x < fileSize, out' x = if a * 2048 ≤ x ∧ x < (a + c) * 2048 then
        applyCrypto env i (f (x / 2048)) (V.block (f (x / 2048))) (x % 2048) else out x) →
      Q (.ok out') V j) :
    NSpec (readRuns env i fileSize ((List.range' a c).map f) (a * 2048) out) Q V j := by
  induction hc : c using Nat.strong_induction_on generalizing a c out with
  | _ n ih =>
  subst hc
  cases c with
  | zero =>
    rw [range'_zero, map_nil, readRuns]
    refine NSpec.pure (hQ out fun x _ => ?_)
    rw [if_neg (by omega)]
  | succ c =>
    generalize hr : min (runLength (fun a b => b == a + 1) ((List.range' a (c + 1)).map f)) 128 = r
    have hrle : r ≤ c + 1 := by
      have := (runLength_range' (fun a b => b == a + 1) f a (c + 1)).1
      omega
    have hrpos : 0 < r := by
      have : 0 < runLength (fun a b => b == a + 1) ((List.range' a (c + 1)).map f) := by
        rw [range'_succ, map_cons]
        exact runLength_pos ..
      omega
    have hrun : r ≤ runLength (fun a b => b == a + 1) ((List.range' a (c + 1)).map f) := by omega
    have hzone : ∀ t < r, f (a + t) = f a + t := fun t ht => runLength_zones hrun ht
    have hdata : ∀ t < r, V.IsData (f a + t) := fun t ht => by
      rw [← hzone t ht]
      exact hz (a + t) (by omega) (by omega)
    have hdrop : ((List.range' a (c + 1)).map f).drop r
        = (List.range' (a + r) (c + 1 - r)).map f := by
      rw [← map_drop, drop_range', Nat.mul_one]
    rw [range'_succ, map_cons] at hr hdrop ⊢
    rw [readRuns]
    simp only [hr, hdrop]
    refine NSpec.bind (nspec_onFs (spec_readTfsBlocks hrpos hl hdata fun bufs hbufs => ?_))
    -- what the copy of the run leaves at each position
    have hcopy : ∀ x < fileSize, out.splice (a * 2048) (min (r * 2048) (fileSize - a * 2048))
          (fun x => applyCrypto env i (f a + x / 2048) (bufs (x / 2048)) (x % 2048)) x
        = if a * 2048 ≤ x ∧ x < (a + r) * 2048 then
            applyCrypto env i (f (x / 2048)) (V.block (f (x / 2048))) (x % 2048) else out x := by
      intro x hx
      by_cases hin : a * 2048 ≤ x ∧ x < (a + r) * 2048
      · have hdiv : x / 2048 = a + (x - a * 2048) / 2048 := by omega
        have ht : (x - a * 2048) / 2048 < r := by omega
        rw [Bytes.splice_inside hin.1 (by omega), if_pos hin, hbufs _ ht, hdiv, hzone _ ht,
          show (x - a * 2048) % 2048 = x % 2048 by omega]
      · rw [Bytes.splice_outside (by omega), if_neg hin]
    simp only [Except.mapError]
    split
    · next hfull =>
      refine NSpec.pure (hQ _ fun x hx => ?_)
      have hiff : (a * 2048 ≤ x ∧ x < (a + r) * 2048) ↔
          (a * 2048 ≤ x ∧ x < (a + (c + 1)) * 2048) := by omega
      rw [hcopy x hx]
      simp only [hiff]
    · next hmore =>
      rw [show a * 2048 + min (r * 2048) (fileSize - a * 2048) = (a + r) * 2048 by omega]
      refine ih (c + 1 - r) (by omega) (fun b h1 h2 => hz b (by omega) (by omega))
        (fun out' hout => hQ out' fun x hx => ?_) rfl
      rw [hout x hx, hcopy x hx, ← ite_or]
      have hiff : ((a + r) * 2048 ≤ x ∧ x < (a + r + (c + 1 - r)) * 2048 ∨
          a * 2048 ≤ x ∧ x < (a + r) * 2048) ↔
          (a * 2048 ≤ x ∧ x < (a + (c + 1)) * 2048) := by omega
      simp only [hiff]

/-- The bytes `read_all_file` gives a reader who applies the cipher of `env`: the blocks of the
file's zones one after the other, and zeros where these end before the file does. -/
def Disk.shown (D : Disk) (env : NodeEnv) (i : Inode) : List UInt8 :=
  (range i.size.toNat).map fun p =>
    match (D.fileZones i)[p / 2048]? with
    | some z => applyCrypto env i z (D.block z) (p % 2048)
    | none => 0

lemma Disk.Filled.shown (hd : V.Filled i m) (env : NodeEnv) :
    V.shown env i = V.decoded env i := by
  have hsize := hd.size
  refine map_congr_left fun p hp => ?_
  have hp' := mem_range.mp hp
  rw [hd.fileZones, getElem?_map, getElem?_range (by omega)]
  rfl

lemma nspec_readShown (hl : Layout V.mount)
    (hdata : ∀ p, V.refOf i p ≠ 0 → V.IsData (V.refOf i p)) (hinline : i.isInline = false)
    {Q : NPost (List UInt8)}
    (hQ : Q (.ok (V.shown env i)) V j) : NSpec (readAllFile env i) Q V j := by
  rw [readAllFile]
  simp only [hinline, Bool.false_eq_true, if_false]
  refine NSpec.bind (nspec_allZones hl hdata ?_)
  have hlist : V.fileZones i
      = (List.range' 0 (V.fileZones i).length).map fun b => (V.fileZones i).getD b 0 := by
    rw [← range_eq_range']
    refine ext_getElem (by simp) fun b h1 _ => ?_
    rw [getElem_map, getElem_range, getD_eq_getElem _ _ h1]
  refine NSpec.bind ?_
  rw [hlist, ← Nat.zero_mul 2048]
  refine nspec_readRuns hl (fun b _ hb => ?_) fun out hout => NSpec.pure ?_
  · rw [Nat.zero_add] at hb
    rw [getD_eq_getElem _ _ hb]
    obtain ⟨p, hp, hpz⟩ := mem_fileZones (getElem_mem hb)
    rw [← hpz]
    exact hdata p hp
  have hbytes : out.slice (0 * 2048) i.size.toNat = V.shown env i := by
    refine map_congr_left fun p hp => ?_
    rw [Nat.zero_mul, Nat.zero_add, hout p (mem_range.mp hp)]
    by_cases hb : p / 2048 < (V.fileZones i).length
    · rw [if_pos (by omega), getElem?_eq_getElem hb, getD_eq_getElem _ _ hb]
    · rw [if_neg (by omega), getElem?_eq_none (by omega)]
      rfl
  rw [hbytes]
  exact hQ

end

/-! ## One call -/

lemma FileContentCache.insert_of_some {c : FileContentCache} {n : Nat} {data d : List UInt8}
    (h : c.map n = some d) : c.insert n data = c := by
  rw [FileContentCache.insert]
  dsimp only
  split
  · rfl
  · rw [if_pos (by rw [h]; rfl)]

section

variable {V : Volume} {i : Inode} {m : Nat} {env : NodeEnv}

/-- What the file cache says about a file is what its reader would see. -/
def Volume.CacheTrue (V : Volume) (env : NodeEnv) (i : Inode) : Prop :=
  ∀ data, V.files.map env.inodeNo = some data → data = V.decoded env i

/-- The content `read` goes by: the cached one, or else the one on the device. -/
def Volume.held (V : Volume) (env : NodeEnv) (i : Inode) : List UInt8 :=
  (V.files.map env.inodeNo).getD (V.shown env i)

/-- The file cache after a read at position `lba`. -/
def Volume.filesAfter (V : Volume) (env : NodeEnv) (i : Inode) (lba : Nat) : FileContentCache :=
  if i.size.toNat ≤ lba then V.files else V.files.insert env.inodeNo (V.shown env i)

lemma read_small {lba len : Nat} (hl : Layout V.mount)
    (hdata : ∀ p, V.refOf i p ≠ 0 → V.IsData (V.refOf i p)) (hinline : i.isInline = false)
    (hsmall : i.size.toNat ≤ fileCacheMaxFileBytes) {Q : NPost (List UInt8)}
    (hQ : Q (.ok (((V.held env i).drop lba).take (min (i.size.toNat - lba) len)))
      { V with files := V.filesAfter env i lba } i) :
    NSpec (Node.read env lba len) Q V i := by
  rw [Node.read]
  refine NSpec.bind (nspec_get fun s _ hsi => ?_)
  simp only [hsi]
  rw [Volume.filesAfter] at hQ
  by_cases hend : i.size.toNat ≤ lba
  · rw [if_pos hend] at hQ ⊢
    rw [Nat.sub_eq_zero_of_le hend, Nat.zero_min, take_zero] at hQ
    exact NSpec.pure hQ
  rw [if_neg hend] at hQ
  simp only [if_neg hend, hinline, Bool.false_eq_true, if_false, if_pos hsmall]
  refine NSpec.bind (NSpec.bind (nspec_onFs (spec_modifyFiles ?_)))
  refine NSpec.bind (nspec_get fun s' hs' _ => NSpec.pure ?_)
  have hfiles : s'.fs.shared.files = V.files := congrArg Volume.files hs'
  rw [hfiles, FileContentCache.getSlice]
  rw [Volume.held] at hQ
  cases hc : V.files.map env.inodeNo with
  | some data =>
    rw [hc, FileContentCache.insert_of_some hc] at hQ
    refine NSpec.pure ?_
    rw [take_take, Nat.min_eq_left (Nat.min_le_right _ _)]
    exact hQ
  | none =>
    rw [hc] at hQ
    refine NSpec.bind (NSpec.attempt (nspec_readShown hl hdata hinline ?_))
    exact NSpec.bind (nspec_onFs (spec_modifyFiles (NSpec.pure hQ)))

lemma read_filled {lba len : Nat} (hl : Layout V.mount) (hd : V.Filled i m)
    (hinline : i.isInline = false) (hcache : i.size = 0 ∨ V.CacheTrue env i)
    {Q : NPost (List UInt8)}
    (hQ : ∀ files, (files = V.files ∨ files = V.files.insert env.inodeNo (V.decoded env i)) →
      Q (.ok (((V.decoded env i).drop lba).take len)) { V with files := files } i) :
    NSpec (Node.read env lba len) Q V i := by
  have hlen := V.length_decoded env i
  have hsmall : i.size.toNat ≤ fileCacheMaxFileBytes :=
    le_trans (le_trans hd.size (Nat.mul_le_mul_right 2048 hd.cap)) (by decide)
  have hQ' := hQ (V.filesAfter env i lba) (by
    rw [Volume.filesAfter, hd.shown]
    split
    · exact .inl rfl
    · exact .inr rfl)
  refine read_small hl hd.isData hinline hsmall ?_
  by_cases hend : i.size.toNat ≤ lba
  · rw [drop_eq_nil_of_le (by omega), take_nil] at hQ'
    rw [Nat.sub_eq_zero_of_le hend, Nat.zero_min, take_zero]
    exact hQ'
  have hheld : V.held env i = V.decoded env i := by
    rw [Volume.held, hd.shown]
    cases hc : V.files.map env.inodeNo with
    | none => rfl
    | some data =>
      refine hcache.resolve_left (fun h0 => hend ?_) data hc
      rw [h0]
      exact Nat.zero_le lba
  have htake : ((V.decoded env i).drop lba).take (min (i.size.toNat - lba) len)
      = ((V.decoded env i).drop lba).take len := by
    rw [take_eq_take_iff, length_drop, hlen]
    omega
  rw [hheld, htake]
  exact hQ'

end

end Twilight.Fs

/-
The mount table of the VFS.

`mount` keeps the table sorted by the length of the prefixes, the longest first, and `route` takes
the first prefix that the path starts with.  The test is one of texts: `/dev` is a prefix of
`/device`, and what is left of a path below the root mount has lost its separator.  This file says
for which tables and paths the mount is nevertheless the one of the longest prefix by components.
-/
import Mathlib.Data.List.Sort
import Twilight.Fs.Namespace

namespace Twilight.Fs

open List Nat Str

variable {F : Type}

structure MountPoint (F : Type) where
  point : Str
  fs : F
deriving DecidableEq

structure Vfs (F : Type) where
  mountPoints : List (MountPoint F)
deriving DecidableEq

namespace Vfs

def new : Vfs F := ⟨[]⟩

/-- The order of `sort_by` in `mount`. -/
def Before (a b : MountPoint F) : Prop := b.point.length ≤ a.point.length

instance : DecidableRel (Before (F := F)) := fun a b => decLe b.point.length a.point.length

variable (v : Vfs F)

def mount (point : Str) (fs : F) : Vfs F :=
  ⟨(v.mountPoints ++ [MountPoint.mk point fs]).insertionSort Before⟩

def unmount (point : Str) : Bool × Vfs F :=
  match v.mountPoints.findIdx? (·.point = point) with
  | some i => (true, ⟨v.mountPoints.eraseIdx i⟩)
  | none => (false, v)

variable (path : Str)

def takes (mount : MountPoint F) : Bool :=
  mount.point.isPrefixOf path || (path = dotName && mount.point = rootPath)

def route : Option (Str × F) :=
  (v.mountPoints.find? (takes path)).map fun mount =>
    let rel := path.drop mount.point.length
    (if rel.isEmpty then rootPath else rel, mount.fs)

inductive Call (F : Type)
  | mount (point : Str) (fs : F)
  | unmount (point : Str)

def step : Call F → Vfs F
  | .mount point fs => v.mount point fs
  | .unmount point => (v.unmount point).2

variable (calls : List (Call F))

def run : Vfs F := calls.foldl step new

/-! ## Prefixes by components -/

/-- An absolute path without empty components, `.` and `..`. -/
def Normalized : Prop :=
  ∃ parts : List Str, (∀ part ∈ parts, Str.IsComponent part ∧ part ≠ dotName ∧ part ≠ dotDotName) ∧
    path = slash :: joinSlash parts

/-- `path` is at the mount point or below it. -/
def Within (point path : Str) : Prop := path = point ∨ point = rootPath ∨ point ++ [slash] <+: path

/-- The file system of the longest prefix gets an absolute path that names what is left. -/
def RoutesByPrefix : Prop :=
  match v.route path with
  | none => ∀ m ∈ v.mountPoints, ¬ Within m.point path
  | some (rel, fs) => ∃ m ∈ v.mountPoints, m.fs = fs ∧ Within m.point path ∧
      (∀ m' ∈ v.mountPoints, Within m'.point path → m'.point.length ≤ m.point.length) ∧
      rel.head? = some slash ∧
      components path = components m.point ++ components rel

/-- A mount point that the path starts with only as a text is shorter than one that the path is
within, and a path other than `/` is within a mount point other than `/` if that one is mounted. -/
structure Apart (v : Vfs F) (path : Str) : Prop where
  texts : ∀ m ∈ v.mountPoints, m.point <+: path → ¬ Within m.point path →
    ∃ m' ∈ v.mountPoints, Within m'.point path ∧ m.point.length < m'.point.length
  root : path ≠ rootPath → (∃ m ∈ v.mountPoints, m.point = rootPath) →
    ∃ m ∈ v.mountPoints, Within m.point path ∧ 1 < m.point.length

namespace Normalized

variable {path point : Str}

section

variable (h : Normalized path)
include h

lemma head : path.head? = some slash := by
  obtain ⟨parts, -, rfl⟩ := h
  rfl

lemma head_drop : (path.drop 1).head? ≠ some slash := by
  obtain ⟨parts, hparts, rfl⟩ := h
  rw [drop_one, tail_cons]
  cases parts with
  | nil => exact nofun
  | cons part parts =>
    have hpart := (hparts part mem_cons_self).1
    obtain ⟨b, part, rfl⟩ := exists_cons_of_ne_nil hpart.ne_nil
    have hb : b ≠ slash := fun hb => hpart.no_slash (hb ▸ mem_cons_self)
    cases parts with
    | nil => simpa [joinSlash] using hb
    | cons next parts => simpa [joinSlash, intercalate] using hb

lemma ne_dot : path ≠ dotName := by
  rintro rfl
  have hhead := h.head
  simp [dotName, slash] at hhead

lemma takes_iff (m : MountPoint F) : takes path m = true ↔ m.point <+: path := by
  simp [takes, h.ne_dot]

lemma root_prefixes : rootPath <+: path := by
  obtain ⟨parts, -, rfl⟩ := h
  exact ⟨joinSlash parts, rfl⟩

lemma prefixes_of_within (hw : Within point path) : point <+: path := by
  rcases hw with rfl | rfl | hw
  · exact prefix_rfl
  · exact h.root_prefixes
  · exact (prefix_append _ _).trans hw

lemma goes_on (hpre : point <+: path) (habs : (path.drop point.length).head? = some slash) :
    point ++ [slash] <+: path ∧ point ≠ rootPath := by
  obtain ⟨rest, rfl⟩ := hpre
  rw [drop_left] at habs
  obtain ⟨rest, rfl⟩ := head?_eq_some_iff.mp habs
  refine ⟨⟨rest, by simp⟩, ?_⟩
  rintro rfl
  exact h.head_drop rfl

end

end Normalized

/-! ## The table -/

lemma sorted_run : (run calls).mountPoints.Pairwise Before := by
  have hstep : ∀ (v : Vfs F) (call : Call F), v.mountPoints.Pairwise Before →
      (step v call).mountPoints.Pairwise Before := by
    intro v call h
    cases call with
    | mount point fs =>
      have : Std.Total (Before (F := F)) := ⟨fun a b => le_total _ _⟩
      have : IsTrans (MountPoint F) Before := ⟨fun a b c hab hbc => le_trans hbc hab⟩
      exact pairwise_insertionSort _ _
    | unmount point =>
      show (v.unmount point).2.mountPoints.Pairwise Before
      unfold unmount
      split
      · exact h.sublist (eraseIdx_sublist _ _)
      · exact h
  have hrun : ∀ (calls : List (Call F)) (v : Vfs F), v.mountPoints.Pairwise Before →
      (calls.foldl step v).mountPoints.Pairwise Before := by
    intro calls
    induction calls with
    | nil => exact fun v h => h
    | cons call calls ih => exact fun v h => ih _ (hstep v call h)
  exact hrun calls new List.Pairwise.nil

section Routed

variable {v : Vfs F} {path : Str}

section

variable (hsorted : v.mountPoints.Pairwise Before)
include hsorted

lemma found_longest (hp : Normalized path)
    {m : MountPoint F} (hfind : v.mountPoints.find? (takes path) = some m) :
    m ∈ v.mountPoints ∧ m.point <+: path ∧
      ∀ m' ∈ v.mountPoints, m'.point <+: path → m'.point.length ≤ m.point.length := by
  obtain ⟨htakes, before, after, hlist, hbefore⟩ := find?_eq_some_iff_append.mp hfind
  rw [hlist] at hsorted ⊢
  refine ⟨by simp, (hp.takes_iff m).mp htakes, fun m' hm' hpre => ?_⟩
  rcases mem_append.mp hm' with hm' | hm'
  · have hnot := hbefore m' hm'
    rw [(hp.takes_iff m').mpr hpre] at hnot
    cases hnot
  · rcases mem_cons.mp hm' with rfl | hm'
    · exact le_refl _
    · exact (pairwise_cons.mp (pairwise_append.mp hsorted).2.1).1 m' hm'

lemma apart_of_within (hp : Normalized path)
    {m : MountPoint F} (hfind : v.mountPoints.find? (takes path) = some m)
    (hwithin : Within m.point path) (hroot : path ≠ rootPath → m.point ≠ rootPath) :
    Apart v path := by
  obtain ⟨hm, hpre, hlongest⟩ := found_longest hsorted hp hfind
  refine ⟨fun m' hm' hpre' hnot => ⟨m, hm, hwithin, ?_⟩, fun hne ⟨m', hm', heq⟩ => ⟨m, hm, hwithin, ?_⟩⟩
  · refine lt_of_le_of_ne (hlongest m' hm' hpre') fun hlength => hnot ?_
    rw [prefix_iff_eq_take.mp hpre', hlength, ← prefix_iff_eq_take.mp hpre]
    exact hwithin
  · have hle := hlongest m' hm' (heq ▸ hp.root_prefixes)
    rw [heq] at hle
    refine lt_of_le_of_ne hle fun hlength => hroot hne ?_
    rw [prefix_iff_eq_take.mp hpre, ← hlength]
    exact (prefix_iff_eq_take.mp hp.root_prefixes).symm

lemma within_of_apart (hp : Normalized path)
    {m : MountPoint F} (hfind : v.mountPoints.find? (takes path) = some m) (h : Apart v path) :
    Within m.point path ∧ (path ≠ rootPath → m.point ≠ rootPath) := by
  obtain ⟨hm, hpre, hlongest⟩ := found_longest hsorted hp hfind
  constructor
  · by_contra hnot
    obtain ⟨m', hm', hwithin, hlt⟩ := h.texts m hm hpre hnot
    have hle := hlongest m' hm' (hp.prefixes_of_within hwithin)
    omega
  · intro hne heq
    obtain ⟨m', hm', hwithin, hlt⟩ := h.root hne ⟨m, hm, heq⟩
    have hle := hlongest m' hm' (hp.prefixes_of_within hwithin)
    rw [heq] at hle
    exact absurd hle (Nat.not_le.mpr hlt)

end

lemma rel_of_within {point : Str} (hwithin : Within point path)
    (hroot : path ≠ rootPath → point ≠ rootPath) :
    let rel := if (path.drop point.length).isEmpty then rootPath else path.drop point.length
    rel.head? = some slash ∧
      components path = components point ++ components rel := by
  have hsame : ∀ p : Str, components p = components p ++ components rootPath :=
    fun p => (append_nil _).symm
  by_cases hwhole : path = point
  · subst hwhole
    rw [drop_length]
    exact ⟨rfl, hsame path⟩
  have hnot : point ≠ rootPath := by
    rintro rfl
    exact hroot hwhole rfl
  obtain ⟨rest, rfl⟩ := (hwithin.resolve_left hwhole).resolve_left hnot
  rw [append_assoc, drop_left]
  refine ⟨rfl, ?_⟩
  show components (point ++ slash :: rest) = _ ++ components (slash :: rest)
  rw [components_append_slash, ← nil_append (slash :: rest), components_append_slash]
  rfl

end Routed

/-- After any mounts and unmounts, a normalized path goes to the mount of its longest prefix by
components, as an absolute path, if and only if no mount point is in the way that is a prefix as a
text only, and the root mount is not the one. -/
theorem routesByPrefix_iff (calls : List (Call F)) {path : Str} (hp : Normalized path) :
    RoutesByPrefix (run calls) path ↔ Apart (run calls) path := by
  have hsorted := sorted_run calls
  unfold RoutesByPrefix route
  cases hfind : (run calls).mountPoints.find? (takes path) with
  | none =>
    have hnone : ∀ m ∈ (run calls).mountPoints, ¬ m.point <+: path := by
      intro m hm hpre
      exact find?_eq_none.mp hfind m hm ((hp.takes_iff m).mpr hpre)
    refine ⟨fun _ => ⟨fun m hm hpre => absurd hpre (hnone m hm), fun _ ⟨m, hm, heq⟩ => ?_⟩,
      fun _ m hm hwithin => hnone m hm (hp.prefixes_of_within hwithin)⟩
    exact absurd (heq ▸ hp.root_prefixes) (hnone m hm)
  | some m =>
    obtain ⟨hm, hpre, hlongest⟩ := found_longest hsorted hp hfind
    constructor
    · rintro ⟨-, -, -, -, -, habs, -⟩
      by_cases hempty : path.drop m.point.length = []
      · -- the path is the mount point itself
        have hwhole : path = m.point := by
          obtain ⟨rest, rfl⟩ := hpre
          rw [drop_left] at hempty
          rw [hempty, append_nil]
        exact apart_of_within hsorted hp hfind (Or.inl hwhole) fun hne heq => hne (hwhole.trans heq)
      · rw [if_neg (by simpa using hempty)] at habs
        obtain ⟨hgoes, hne⟩ := hp.goes_on hpre habs
        exact apart_of_within hsorted hp hfind (Or.inr (Or.inr hgoes)) fun _ => hne
    · intro h
      obtain ⟨hwithin, hroot⟩ := within_of_apart hsorted hp hfind h
      obtain ⟨habs, hnames⟩ := rel_of_within hwithin hroot
      exact ⟨m, hm, rfl, hwithin, fun m' hm' hw => hlongest m' hm' (hp.prefixes_of_within hw), habs,
        hnames⟩

/-- `/dev/tty` with the mounts of the kernel, `/` and `/dev`. -/
theorem routesByPrefix_devTty :
    RoutesByPrefix (run [.mount [47] 0, .mount [47, 100, 101, 118] 1])
      [47, 100, 101, 118, 47, 116, 116, 121] := by
  refine (routesByPrefix_iff _ ⟨[[100, 101, 118], [116, 116, 121]], ?_, rfl⟩).mpr ⟨?_, fun _ _ => ?_⟩
  · intro part hpart
    rcases mem_pair.mp hpart with rfl | rfl
    · exact ⟨⟨by decide, by decide⟩, by decide, by decide⟩
    · exact ⟨⟨by decide, by decide⟩, by decide, by decide⟩
  · intro m hm _ hnot
    rcases mem_pair.mp hm with rfl | rfl
    · exact absurd (Or.inr (Or.inr ⟨[116, 116, 121], rfl⟩)) hnot
    · exact absurd (Or.inr (Or.inl rfl)) hnot
  · exact ⟨⟨[47, 100, 101, 118], 1⟩, by decide, Or.inr (Or.inr ⟨[116, 116, 121], rfl⟩), by decide⟩

/-- With the same mounts `/device` goes to the file system on `/dev`, as `ice`, and `/bin` to the one
on `/`, as `bin`. -/
theorem device_to_dev :
    let v := run [.mount [47] 0, .mount [47, 100, 101, 118] 1]
    v.route [47, 100, 101, 118, 105, 99, 101] = some ([105, 99, 101], 1) ∧
      ¬ RoutesByPrefix v [47, 100, 101, 118, 105, 99, 101] ∧
      v.route [47, 98, 105, 110] = some ([98, 105, 110], 0) ∧
      ¬ RoutesByPrefix v [47, 98, 105, 110] := by
  refine ⟨by decide, ?_, by decide, ?_⟩
  · rintro ⟨-, -, -, -, -, habs, -⟩
    exact absurd habs (by decide)
  · rintro ⟨-, -, -, -, -, habs, -⟩
    exact absurd habs (by decide)

end Vfs
end Twilight.Fs

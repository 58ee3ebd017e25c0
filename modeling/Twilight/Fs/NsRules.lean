/-
The namespace operations on a volume.

Looking a name up and walking a path change only the caches, and their results are
functions of the disk and of the cached directory indexes: `Disk.findEntry`,
`Disk.walk` and `Volume.resolve`.  The other operations are described by the
volumes they can end in.
-/
import Twilight.Fs.Namespace
import Twilight.Fs.Owned

namespace Twilight.Fs

open TwilightFs Prog Str Volume

variable {V : Volume}

/-! ## Looking a name up -/

namespace Disk

def cacheIndex (D : Disk) (c : DirIndexCache) (n : Nat) : DirIndexCache :=
  match c.map n with
  | some _ => c
  | none => c.insert dirIndexCacheCapacity n (D.indexOf (D.inode n))

def findEntry (D : Disk) (c : DirIndexCache) (n : Nat) (name : Str) : Option Nat × DirIndexCache :=
  if (D.inode n).directSlotGet 0 = 0 then (none, c)
  else (DirIndexCache.lookup (D.cacheIndex c n) n name, D.cacheIndex c n)

/-- The components of a path from inode `current`, with the cached indexes `c`. -/
def walkComponents (D : Disk)
    (onLink : Inode → List Str → Nat → DirIndexCache → Except FsError Nat × DirIndexCache) :
    List Str → Nat → DirIndexCache → Except FsError Nat × DirIndexCache
  | [], current, c => (.ok current, c)
  | part :: rest, current, c =>
    if D.IsInode current then
      match D.findEntry c current part with
      | (none, c') => (.error .fileNotFound, c')
      | (some ino, c') =>
        if D.IsInode ino then
          if (D.inode ino).isSymlink then onLink (D.inode ino) rest current c'
          else walkComponents D onLink rest ino c'
        else (.error .invalidInode, c')
    else (.error .invalidInode, c)

/-- The target of a link in front of the components that are left. -/
def followLink (next : List Str → Nat → DirIndexCache → Except FsError Nat × DirIndexCache)
    (link : Inode) (rest : List Str) (current : Nat) (c : DirIndexCache) :
    Except FsError Nat × DirIndexCache :=
  let target := link.inlineDataBytes
  if Str.utf8Valid target = false ∨ target = [] then (.error .invalidPath, c)
  else next (components target ++ rest) (if target.head? = some slash then 1 else current) c

def walk (D : Disk) : Nat → List Str → Nat → DirIndexCache → Except FsError Nat × DirIndexCache
  | 0 => D.walkComponents fun _ _ _ c => (.error .invalidPath, c)
  | links + 1 => D.walkComponents (followLink (D.walk links))

end Disk

namespace Volume

/-- The index the code works with: the cached one, or else the one on the disk. -/
def index (V : Volume) (n : Nat) : DirIndexEntry := (V.dirs.map n).getD (V.indexOf (V.inode n))

def indexed (V : Volume) (n : Nat) : Volume := { V with dirs := V.cacheIndex V.dirs n }

/-- What `resolve_path` returns, and the volume it leaves. -/
def resolve (V : Volume) (path : Str) : Except FsError Nat × Volume :=
  if path = [] then (.error .invalidPath, V)
  else if path = rootPath then (.ok 1, V)
  else match V.paths.map (canonical path) with
    | some ino => (.ok ino, V)
    | none =>
      match V.walk maxSymlinks (components (canonical path)) 1 V.dirs with
      | (.ok ino, c) => (.ok ino, { V with
          dirs := c
          paths := V.paths.insertNew pathLookupCacheCapacity (canonical path) ino })
      | (.error e, c) => (.error e, { V with dirs := c })

end Volume

lemma spec_ensureIndex {p : Nat} (h : Layout V.mount) (hi : V.DirectData (V.inode p))
    {Q : Post FsError DirIndexEntry} (hQ : Q (.ok (V.index p)) (V.indexed p)) :
    Spec (ensureDirIndexEntry p (V.inode p)) Q V := by
  refine spec_ensureDirIndexEntry h hi ?_ ?_
  · intro entry hc
    simpa only [index, indexed, Disk.cacheIndex, hc, Option.getD_some] using hQ
  · intro hc
    simpa only [index, indexed, Disk.cacheIndex, hc, Option.getD_none] using hQ

lemma spec_findDirEntry {n : Nat} {name : Str} (h : Layout V.mount) (hr : V.InRange)
    {Q : Post String (Option Nat)} (hbad : ¬ V.IsInode n → ∀ e, Q (.error e) V)
    (hok : V.IsInode n → Q (.ok (V.findEntry V.dirs n name).1)
      { V with dirs := (V.findEntry V.dirs n name).2 }) :
    Spec (findDirEntry n name) Q V := by
  by_cases hn : V.IsInode n
  · refine Wp.bind (spec_readInode h hn ?_)
    simp only
    specialize hok hn
    rw [Disk.findEntry] at hok
    by_cases hz : (V.inode n).directSlotGet 0 = 0
    · rw [if_pos hz] at hok ⊢
      exact Wp.pure hok
    · rw [if_neg hz] at hok ⊢
      refine Wp.bind (Wp.mapErr (spec_ensureIndex h (hr n hn) ?_))
      exact spec_dirIndexLookup hok
  · exact Wp.bind (spec_readInode_invalid hn (hbad hn _))

/-- Between the cached indexes `c` and `c'` lie only indexes read from the disk. -/
structure Disk.Consulted (D : Disk) (c c' : DirIndexCache) : Prop where
  entries : ∀ n e, c'.map n = some e → c.map n = some e ∨ (D.IsInode n ∧ e = D.indexOf (D.inode n))
  wellFormed : c.WellFormed → c'.WellFormed

namespace Disk.Consulted

variable {D : Disk} {c c' c'' : DirIndexCache}

lemma refl (D : Disk) (c : DirIndexCache) : D.Consulted c c := ⟨fun _ _ h => .inl h, id⟩

lemma trans (h : D.Consulted c c') (h' : D.Consulted c' c'') : D.Consulted c c'' := by
  refine ⟨fun n e he => ?_, fun hw => h'.wellFormed (h.wellFormed hw)⟩
  rcases h'.entries n e he with hc | hd
  · exact h.entries n e hc
  · exact .inr hd

lemma cacheIndex {n : Nat} (hn : D.IsInode n) : D.Consulted c (D.cacheIndex c n) := by
  rw [Disk.cacheIndex]
  cases hc : c.map n with
  | some entry => exact refl D c
  | none =>
    refine ⟨fun m e he => ?_, fun hw => hw.insert _ _ _⟩
    rcases Fifo.insert_map_sub he with ⟨rfl, rfl⟩ | ⟨-, hm⟩
    · exact .inr ⟨hn, rfl⟩
    · exact .inl hm

lemma findEntry {n : Nat} {name : Str} (hn : D.IsInode n) :
    D.Consulted c (D.findEntry c n name).2 := by
  rw [Disk.findEntry]
  split
  · exact refl D c
  · exact cacheIndex hn

lemma walkComponents
    {onLink : Inode → List Str → Nat → DirIndexCache → Except FsError Nat × DirIndexCache}
    (hlink : ∀ link rest current c, D.Consulted c (onLink link rest current c).2)
    (parts : List Str) (current : Nat) (c : DirIndexCache) :
    D.Consulted c (D.walkComponents onLink parts current c).2 := by
  induction parts generalizing current c with
  | nil => exact refl D c
  | cons part rest ih =>
    rw [Disk.walkComponents]
    split
    · next hn =>
      have hfind : D.Consulted c (D.findEntry c current part).2 := findEntry hn
      cases hf : D.findEntry c current part with
      | mk found c' =>
        rw [hf] at hfind
        cases found with
        | none => exact hfind
        | some ino =>
          simp only
          split
          · split
            · exact hfind.trans (hlink _ _ _ _)
            · exact hfind.trans (ih ino c')
          · exact hfind
    · exact refl D c

lemma walk (links : Nat) (parts : List Str) (current : Nat) (c : DirIndexCache) :
    D.Consulted c (D.walk links parts current c).2 := by
  induction links generalizing parts current c with
  | zero => exact walkComponents (fun _ _ _ c => refl D c) parts current c
  | succ links ih =>
    refine walkComponents (fun link rest current c => ?_) parts current c
    rw [Disk.followLink]
    split
    · exact refl D c
    · exact ih _ _ c

end Disk.Consulted

/-- What looking names and paths up leaves: the disk as it was, with more cached. -/
structure Volume.Looked (V V' : Volume) : Prop where
  disk : V'.toDisk = V.toDisk
  files : V'.files = V.files
  dirs : V.Consulted V.dirs V'.dirs
  paths : V.paths.WellFormed → V'.paths.WellFormed

namespace Volume.Looked

variable {V' V'' : Volume}

lemma refl (V : Volume) : V.Looked V := ⟨rfl, rfl, .refl _ _, id⟩

lemma trans (h : V.Looked V') (h' : V'.Looked V'') : V.Looked V'' :=
  ⟨h'.disk.trans h.disk, h'.files.trans h.files,
    h.dirs.trans (by have := h'.dirs; rwa [h.disk] at this), fun hw => h'.paths (h.paths hw)⟩

lemma indexed {n : Nat} (hn : V.IsInode n) : V.Looked (V.indexed n) :=
  ⟨rfl, rfl, .cacheIndex hn, id⟩

lemma resolve (V : Volume) (path : Str) : V.Looked (V.resolve path).2 := by
  rw [Volume.resolve]
  split
  · exact refl V
  split
  · exact refl V
  cases V.paths.map (canonical path) with
  | some ino => exact refl V
  | none =>
    have hwalk := Disk.Consulted.walk (D := V.toDisk) maxSymlinks
      (components (canonical path)) 1 V.dirs
    simp only
    cases hw : V.walk maxSymlinks (components (canonical path)) 1 V.dirs with
    | mk r c =>
      rw [hw] at hwalk
      cases r with
      | ok ino => exact ⟨rfl, rfl, hwalk, fun hp => hp.insertNew _ _ _⟩
      | error e => exact ⟨rfl, rfl, hwalk, id⟩

end Volume.Looked

/-! ## Walking a path -/

lemma spec_walkComponents {onLink : Inode → List Str → Nat → FsM FsError Nat}
    {onLink' : Inode → List Str → Nat → DirIndexCache → Except FsError Nat × DirIndexCache}
    (h : Layout V.mount) (hr : V.InRange)
    (hlink : ∀ link rest current c, Spec (onLink link rest current)
      (fun r V' => r = (onLink' link rest current c).1 ∧
        V' = { V with dirs := (onLink' link rest current c).2 }) { V with dirs := c })
    (parts : List Str) (current : Nat) (c : DirIndexCache) :
    Spec (walkComponents onLink parts current)
      (fun r V' => r = (V.walkComponents onLink' parts current c).1 ∧
        V' = { V with dirs := (V.walkComponents onLink' parts current c).2 })
      { V with dirs := c } := by
  induction parts generalizing current c with
  | nil => exact Wp.pure ⟨rfl, rfl⟩
  | cons part rest ih =>
    rw [TwilightFs.walkComponents, Disk.walkComponents]
    refine Wp.bind (Wp.mapErr (spec_findDirEntry (V := { V with dirs := c }) h hr
      (fun hn e => ?_) fun hn => ?_))
    · rw [if_neg hn]
      exact ⟨rfl, rfl⟩
    rw [if_pos hn]
    simp only [Except.mapError]
    cases hf : V.findEntry c current part with
    | mk found c' =>
      cases found with
      | none => exact Wp.throw ⟨rfl, rfl⟩
      | some ino =>
        simp only
        by_cases hino : V.IsInode ino
        · rw [if_pos hino]
          refine Wp.bind (Wp.mapErr (spec_readInode h hino ?_))
          simp only [Except.mapError]
          by_cases hs : (V.inode ino).isSymlink
          · rw [if_pos hs, if_pos hs]
            exact hlink _ rest current c'
          · rw [if_neg hs, if_neg hs]
            exact ih ino c'
        · rw [if_neg hino]
          exact Wp.bind (Wp.mapErr (spec_readInode_invalid hino ⟨rfl, rfl⟩))

lemma spec_walk (h : Layout V.mount) (hr : V.InRange) (links : Nat) (parts : List Str)
    (current : Nat) (c : DirIndexCache) :
    Spec (walk links parts current)
      (fun r V' => r = (V.walk links parts current c).1 ∧
        V' = { V with dirs := (V.walk links parts current c).2 }) { V with dirs := c } := by
  induction links generalizing parts current c with
  | zero =>
    exact spec_walkComponents h hr (fun _ _ _ _ => Wp.throw ⟨rfl, rfl⟩) parts current c
  | succ links ih =>
    refine spec_walkComponents h hr (fun link rest current c => ?_) parts current c
    rw [TwilightFs.followLink, Disk.followLink]
    by_cases hu : Str.utf8Valid link.inlineDataBytes = false
    · rw [if_pos hu, if_pos (.inl hu)]
      exact Wp.throw ⟨rfl, rfl⟩
    rw [if_neg hu]
    by_cases he : link.inlineDataBytes = []
    · rw [if_pos he, if_pos (.inr he)]
      exact Wp.throw ⟨rfl, rfl⟩
    · have hgood : ¬ (Str.utf8Valid link.inlineDataBytes = false ∨ link.inlineDataBytes = []) :=
        fun hbad => hbad.elim hu he
      rw [if_neg he, if_neg hgood]
      exact ih _ _ c

lemma spec_resolvePath (h : Layout V.mount) (hr : V.InRange) (path : Str)
    {Q : Post FsError Nat} (hQ : Q (V.resolve path).1 (V.resolve path).2) :
    Spec (resolvePath path) Q V := by
  rw [resolvePath]
  rw [Volume.resolve] at hQ
  by_cases hempty : path = []
  · rw [if_pos hempty] at hQ ⊢
    exact Wp.throw hQ
  rw [if_neg hempty] at hQ ⊢
  by_cases hroot : path = rootPath
  · rw [if_pos hroot] at hQ ⊢
    exact Wp.pure hQ
  rw [if_neg hroot] at hQ ⊢
  refine Wp.bind (spec_lookupCached ?_)
  cases hc : V.paths.map (canonical path) with
  | some ino =>
    rw [hc] at hQ
    exact Wp.pure hQ
  | none =>
    rw [hc] at hQ
    simp only at hQ ⊢
    refine Wp.bind ((spec_walk h hr maxSymlinks (components (canonical path)) 1 V.dirs).mono ?_)
    intro r V' hwalk
    cases hw : V.walk maxSymlinks (components (canonical path)) 1 V.dirs with
    | mk r' c =>
      rw [hw] at hQ hwalk
      obtain ⟨rfl, rfl⟩ := hwalk
      cases r with
      | ok ino => exact Wp.bind (spec_modifyPaths (Wp.pure hQ))
      | error e => exact hQ

end Twilight.Fs

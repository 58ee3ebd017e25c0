/-
Directories and the bytes of files.

Nothing in the lookups of TwilightFS asks whether an inode is a directory:
`find_dir_entry`, the loop of `resolve_path` and the search of `remove_entry` read
the direct blocks of any inode as directory slots, or go by the index that is cached
under its number.  They stay in directories exactly as long as no other inode has
blocks with bytes that can be read as an entry or a cached index with a name, and
the cached paths lead through directories.  A file has whatever its users write, and
the index of a removed directory stays cached under its number.
-/
import Twilight.Fs.IndexRuns
import Twilight.Fs.WholeRead

namespace Twilight.Fs

open TwilightFs Function Disk Bool List Str Prog Inode

/-! ## Walks through directories -/

/-- The components lead from an inode to another one, each looked up in a directory.  The cached
indexes are those the first lookup finds. -/
inductive Disk.Through (D : Disk) : List Str → Nat → DirIndexCache → Nat → Prop
  | done (n : Nat) (c : DirIndexCache) : D.Through [] n c n
  | child {part : Str} {rest : List Str} {n ino m : Nat} {c c' : DirIndexCache}
      (isDir : (D.inode n).isDir = true) (found : D.findEntry c n part = (some ino, c'))
      (plain : (D.inode ino).isSymlink = false) (next : D.Through rest ino c' m) :
      D.Through (part :: rest) n c m
  | link {part : Str} {rest : List Str} {n ino m : Nat} {c c' : DirIndexCache}
      (isDir : (D.inode n).isDir = true) (found : D.findEntry c n part = (some ino, c'))
      (symlink : (D.inode ino).isSymlink = true)
      (next : D.Through (components (D.inode ino).inlineDataBytes ++ rest)
        (if (D.inode ino).inlineDataBytes.head? = some slash then 1 else n) c' m) :
      D.Through (part :: rest) n c m

lemma Disk.Through.isDir {D : Disk} {part : Str} {rest : List Str} {n m : Nat} {c : DirIndexCache}
    (h : D.Through (part :: rest) n c m) : (D.inode n).isDir = true := by
  cases h with
  | child isDir => exact isDir
  | link isDir => exact isDir

/-- No inode but the directories has bytes in its direct blocks that can be read as an entry. -/
def Disk.Quiet (D : Disk) : Prop :=
  ∀ n, D.IsInode n → (D.inode n).isDir = false → ∀ k < 192, D.entry (D.inode n) k = none

/-- No inode but the directories has a first block, without which nothing is looked up, and a
cached index with a name. -/
def Disk.Silent (D : Disk) (c : DirIndexCache) : Prop :=
  ∀ n e, D.IsInode n → (D.inode n).isDir = false → (D.inode n).directSlotGet 0 ≠ 0 →
    c.map n = some e → ∀ name, e.names name = none

/-- The three places a lookup may go by: the blocks, the cached indexes and the cached paths. -/
structure Volume.Quiet (V : Volume) : Prop where
  blocks : V.toDisk.Quiet
  indexes : V.Silent V.dirs
  paths : ∀ path ino, path.head? = some slash → path ≠ rootPath → V.paths.map path = some ino →
    V.Through (components path) 1 V.dirs ino

namespace Disk.Quiet

variable {D : Disk} {c c' : DirIndexCache} {n : Nat}

lemma names (h : D.Quiet) (hn : D.IsInode n) (hd : (D.inode n).isDir = false) (name : Str) :
    (D.indexOf (D.inode n)).names name = none := by
  refine names_eq_none.mpr ?_
  rintro ino ⟨k, hk, he⟩
  rw [h n hn hd k hk] at he
  cases he

lemma silent (h : D.Quiet) (hc : D.Silent c) (hl : D.Consulted c c') : D.Silent c' := by
  intro n e hn hd hfirst he name
  rcases hl.entries n e he with hold | ⟨-, rfl⟩
  · exact hc n e hn hd hfirst hold name
  · exact h.names hn hd name

lemma isDir_of_findEntry (h : D.Quiet) (hc : D.Silent c) (hn : D.IsInode n) {name : Str} {ino : Nat}
    (hf : (D.findEntry c n name).1 = some ino) : (D.inode n).isDir = true := by
  by_contra hd
  rw [not_eq_true] at hd
  have hsilent : D.Silent (D.cacheIndex c n) := h.silent hc (.cacheIndex hn)
  rw [Disk.findEntry] at hf
  split at hf
  · cases hf
  next hfirst =>
  rw [DirIndexCache.lookup] at hf
  cases hm : (D.cacheIndex c n).map n with
  | none =>
    rw [hm] at hf
    cases hf
  | some e =>
    rw [hm] at hf
    have hname : e.names name = some ino := hf
    rw [hsilent n e hn hd hfirst hm] at hname
    cases hname

variable {onLink : Inode → List Str → Nat → DirIndexCache → Except FsError Nat × DirIndexCache}

lemma walkComponents (h : D.Quiet) {m : Nat}
    (hlink : ∀ ino part rest n c c', (D.inode n).isDir = true →
      D.findEntry c n part = (some ino, c') → (D.inode ino).isSymlink = true → D.Silent c' →
      (onLink (D.inode ino) rest n c').1 = .ok m → D.Through (part :: rest) n c m)
    {parts : List Str} (hc : D.Silent c)
    (hw : (D.walkComponents onLink parts n c).1 = .ok m) : D.Through parts n c m := by
  induction parts generalizing n c with
  | nil =>
    rw [Disk.walkComponents] at hw
    cases hw
    exact .done m c
  | cons part rest ih =>
    rw [Disk.walkComponents] at hw
    by_cases hn : D.IsInode n
    · rw [if_pos hn] at hw
      cases hf : D.findEntry c n part with
      | mk found c' =>
      rw [hf] at hw
      cases found with
      | none => cases hw
      | some ino =>
        have hdir := h.isDir_of_findEntry hc hn (congrArg Prod.fst hf)
        have hc' : D.Silent c' := by
          have hl : D.Consulted c (D.findEntry c n part).2 := .findEntry hn
          rw [hf] at hl
          exact h.silent hc hl
        simp only at hw
        split at hw
        · split at hw
          · next hs => exact hlink ino part rest n c c' hdir hf hs hc' hw
          · next hs => exact .child hdir hf (not_eq_true _ ▸ hs) (ih hc' hw)
        · cases hw
    · rw [if_neg hn] at hw
      cases hw

lemma walk (h : D.Quiet) {links : Nat} {parts : List Str} {m : Nat} (hc : D.Silent c)
    (hw : (D.walk links parts n c).1 = .ok m) : D.Through parts n c m := by
  induction links generalizing parts n c with
  | zero =>
    refine h.walkComponents (fun ino part rest n c c' _ _ _ _ hbad => ?_) hc hw
    cases hbad
  | succ links ih =>
    refine h.walkComponents (fun ino part rest n c c' hdir hf hs hc' hnext => ?_) hc hw
    rw [followLink] at hnext
    split at hnext
    · cases hnext
    · exact .link hdir hf hs (ih hc' hnext)

end Disk.Quiet

/-! ## The lookups -/

/-- A path that is resolved leads through directories, whether it is walked or remembered. -/
def ResolvesThrough (s : TwilightFs) : Prop :=
  ∀ path ino, outcome (resolvePath path s) = .ok ino →
    s.volume.Through (components (canonical path)) 1 s.volume.dirs ino

/-- A name is found in directories only. -/
def FindsInDirs (s : TwilightFs) : Prop :=
  ∀ n name m, outcome (findDirEntry n name s) = .ok (some m) → (s.volume.inode n).isDir = true

/-- The index that is built from the blocks of an inode has names for directories only. -/
def BuildsFromDirs (s : TwilightFs) : Prop :=
  ∀ n e name m, s.volume.IsInode n → outcome (buildDirIndexEntry (s.volume.inode n) s) = .ok e →
    e.names name = some m → (s.volume.inode n).isDir = true

/-- Where the parent is not a directory, `remove_entry` finds nothing. -/
def RemovesFromDirs (s : TwilightFs) : Prop :=
  ∀ path p, components path ≠ [] →
    (s.volume.resolveParent (components path).dropLast).1 = .ok p → s.volume.IsInode p →
    (s.volume.inode p).isDir = false → outcome (removeEntry path s) = .error .fileNotFound

structure WalksDirs (s : TwilightFs) : Prop where
  resolves : ResolvesThrough s
  finds : FindsInDirs s
  builds : BuildsFromDirs s
  removes : RemovesFromDirs s

section

variable {s : TwilightFs}

section

variable (hl : Layout s.volume.mount)
include hl

section

variable (hr : s.volume.InRange)
include hr

lemma outcome_resolvePath (path : Str) :
    outcome (resolvePath path s) = (s.volume.resolve path).1 :=
  spec_resolvePath hl hr path (Q := fun r _ => r = (s.volume.resolve path).1) rfl s rfl

lemma outcome_findDirEntry {n : Nat}
    (hn : s.volume.IsInode n) (name : Str) : outcome (findDirEntry n name s)
      = .ok (s.volume.findEntry s.volume.dirs n name).1 :=
  spec_findDirEntry hl hr (Q := fun r _ => r = .ok (s.volume.findEntry s.volume.dirs n name).1)
    (fun hbad => absurd hn hbad) (fun _ => rfl) s rfl

lemma Volume.Quiet.resolvesThrough (hq : s.volume.Quiet) : ResolvesThrough s := by
  intro path ino hok
  rw [outcome_resolvePath hl hr, Volume.resolve] at hok
  by_cases hne : path = []
  · rw [if_pos hne] at hok
    cases hok
  rw [if_neg hne] at hok
  by_cases hroot : path = rootPath
  · rw [if_pos hroot] at hok
    cases hok
    rw [hroot]
    exact .done 1 _
  rw [if_neg hroot] at hok
  have hslash : (canonical path).head? = some slash := by
    rw [canonical]
    split
    · assumption
    · rfl
  have hcanonical : canonical path ≠ rootPath := by
    rw [canonical]
    split
    · exact hroot
    · intro h
      exact hne (cons.inj h).2
  cases hcached : s.volume.paths.map (canonical path) with
  | some m =>
    rw [hcached] at hok
    cases hok
    exact hq.paths _ _ hslash hcanonical hcached
  | none =>
    rw [hcached] at hok
    simp only at hok
    refine hq.blocks.walk hq.indexes (?_ : (s.volume.walk maxSymlinks _ _ _).1 = _)
    cases hw : s.volume.walk maxSymlinks (components (canonical path)) 1 s.volume.dirs with
    | mk r c =>
      rw [hw] at hok
      cases r with
      | ok m => exact hok
      | error e => cases hok

lemma Volume.Quiet.findsInDirs (hq : s.volume.Quiet) : FindsInDirs s := by
  intro n name m hok
  have hn : s.volume.IsInode n := by
    by_contra hn
    have hfails : Spec (findDirEntry n name) (fun r _ => ∃ e, r = .error e) s.volume :=
      spec_findDirEntry hl hr (fun _ e => ⟨e, rfl⟩) fun hn' => absurd hn' hn
    obtain ⟨e, he⟩ := hfails s rfl
    rw [he] at hok
    cases hok
  rw [outcome_findDirEntry hl hr hn] at hok
  exact hq.blocks.isDir_of_findEntry hq.indexes hn (Except.ok.inj hok)

lemma Disk.Quiet.buildsFromDirs (hq : s.volume.toDisk.Quiet) : BuildsFromDirs s := by
  intro n e name m hn hok hname
  rw [outcome_buildDirIndexEntry hl (hr n hn)] at hok
  cases hok
  by_contra hd
  rw [hq.names hn (not_eq_true _ ▸ hd)] at hname
  cases hname

lemma Disk.Quiet.removesFromDirs (hq : s.volume.toDisk.Quiet) : RemovesFromDirs s := by
  intro path p hpath hparent hp hd
  have hspec : Spec (removeEntry path) (fun r _ => r = .error .fileNotFound) s.volume := by
    refine spec_removeEntry hl hr (fun hnone => ?_) (fun e _ he => ?_) ?_
    · exact absurd (getLast?_eq_none_iff.mp hnone) hpath
    · rw [hparent] at he
      cases he
    intro name p' W hname hres
    have hlook := Volume.Looked.resolveParent s.volume (components path).dropLast
    rw [hres] at hlook hparent
    obtain rfl : p' = p := Except.ok.inj hparent
    have hnone : ∀ k < 192, ¬ W.Matches (W.inode p') name k := by
      intro k hk hmatch
      have hne : name ≠ [] := (isComponent_of_mem (mem_of_getLast? hname)).ne_nil
      have hentry := (matches_iff hne).mp hmatch
      rw [hlook.disk, hq p' hp hd k hk] at hentry
      cases hentry
    refine ⟨fun hbad => ?_, fun _ _ => rfl, fun k _ hk => ?_, fun k _ hk => ?_⟩
    · rw [hlook.disk] at hbad
      exact absurd hp hbad
    · exact absurd hk.here (hnone k hk.lt)
    · exact absurd hk.here (hnone k hk.lt)
  exact hspec s rfl

lemma BuildsFromDirs.quiet (h : BuildsFromDirs s) : s.volume.toDisk.Quiet := by
  intro n hn hd k hk
  by_contra hne
  obtain ⟨⟨name, ino⟩, he⟩ := Option.ne_none_iff_exists'.mp hne
  have hindex : (s.volume.indexOf (s.volume.inode n)).names name ≠ none := fun hnone =>
    names_eq_none.mp hnone ino ⟨k, hk, he⟩
  obtain ⟨m, hm⟩ := Option.ne_none_iff_exists'.mp hindex
  have hdir := h n _ name m hn (outcome_buildDirIndexEntry hl (hr n hn)) hm
  rw [hd] at hdir
  cases hdir

lemma FindsInDirs.silent (h : FindsInDirs s) : s.volume.Silent s.volume.dirs := by
  intro n e hn hd hfirst he name
  by_contra hne
  obtain ⟨m, hm⟩ := Option.ne_none_iff_exists'.mp hne
  have hfound : (s.volume.findEntry s.volume.dirs n name).1 = some m := by
    rw [Disk.findEntry, if_neg hfirst, DirIndexCache.lookup, Disk.cacheIndex, he]
    simp only
    rw [he]
    exact hm
  have hdir := h n name m (by rw [outcome_findDirEntry hl hr hn, hfound])
  rw [hd] at hdir
  cases hdir

end

lemma ResolvesThrough.cached (hr : s.volume.InRange) (h : ResolvesThrough s) {path : Str} {ino : Nat}
    (hslash : path.head? = some slash) (hroot : path ≠ rootPath)
    (hcached : s.volume.paths.map path = some ino) :
    s.volume.Through (components path) 1 s.volume.dirs ino := by
  have hcanonical : canonical path = path := if_pos hslash
  have hne : path ≠ [] := by
    rintro rfl
    cases hslash
  have hok : outcome (resolvePath path s) = .ok ino := by
    rw [outcome_resolvePath hl hr, Volume.resolve, if_neg hne, if_neg hroot, hcanonical, hcached]
  have hthrough := h path ino hok
  rwa [hcanonical] at hthrough

end

/-- The root directory with a file `a`, whose content does not look like an entry. -/
def fileFs : TwilightFs where
  superblock := Superblock.geometry 1024
  device := ⟨1024, fun k =>
    if k = 1 ∨ k = 2 then (Bytes.zero.putBit 0 true).putBit 1 true
    else if k = 3 then (Bytes.zero.splice 0 Inode.byteSize
      ((rootRecord ⟨0, 0, 0⟩ 7).withSize 192).encode).splice Inode.byteSize Inode.byteSize
        (((Inode.newFile ⟨0, 0, 0⟩ 0o644).withSize 6).directSlotSet 0 8).encode
    else if k = 7 then ((Bytes.zero.splice 0 64 (DirEntry.encode 1 dotName)).splice 64 64
      (DirEntry.encode 1 dotDotName)).splice 128 64 (DirEntry.encode 2 nameA)
    else if k = 8 then fun x => [0, 0, 0, 0, 104, 105].getD x 0
    else Bytes.zero⟩
  mountMode := .readWrite
  shared := Shared.new

lemma fileFs_slots : ∀ n : Fin 33, ∀ b : Fin 6, (fileFs.volume.inode n).directSlotGet b
    = if n = 1 ∧ b = 0 then 7 else if n = 2 ∧ b = 0 then 8 else 0 := by
  decide +kernel

lemma fileFs_directSlotGet {n : Nat} (hn : fileFs.volume.IsInode n) (b : Nat) :
    (fileFs.volume.inode n).directSlotGet b
      = if n = 1 ∧ b = 0 then 7 else if n = 2 ∧ b = 0 then 8 else 0 := by
  by_cases hb : b < 6
  · have hslot := fileFs_slots ⟨n, Nat.lt_succ_of_le hn.2⟩ ⟨b, hb⟩
    simpa [Fin.ext_iff] using hslot
  · rw [directSlotGet_of_le _ (by omega), if_neg (by omega), if_neg (by omega)]

lemma fileFs_inRange : fileFs.volume.InRange := by
  intro n hn b hb
  rw [fileFs_directSlotGet hn] at hb ⊢
  split_ifs at hb ⊢
  · exact ⟨by decide, by decide⟩
  · exact ⟨by decide, by decide⟩
  · exact absurd rfl hb

lemma fileFs_quiet : fileFs.volume.Quiet := by
  have hempty : ∀ k < 32, DirEntry.inodeAt (fileFs.volume.block 8) k = 0 := by decide +kernel
  refine ⟨fun n hn hd k hk => ?_, fun n e _ _ _ he => ?_, fun path ino _ _ hpath => ?_⟩
  · by_contra hne
    obtain ⟨⟨name, ino⟩, he⟩ := Option.ne_none_iff_exists'.mp hne
    obtain ⟨hzone, hino, hat, -⟩ := entry_eq_some.mp he
    rw [fileFs_directSlotGet hn] at hzone hat
    have hroot : ¬ (n = 1 ∧ k / 32 = 0) := by
      rintro ⟨rfl, -⟩
      revert hd
      decide +kernel
    rw [if_neg hroot] at hzone hat
    split_ifs at hzone hat with hfile
    · exact hino (hat ▸ hempty _ (Nat.mod_lt _ (by decide)))
    · exact hzone rfl
  · cases he
  · cases hpath

variable {V : Volume}

/-! ## A file with an entry -/

structure Volume.WithFile (V : Volume) (name : Str) : Prop where
  mount : V.mount = ⟨Superblock.geometry 1024, 1024, .readWrite⟩
  tidy : V.Tidy
  root : V.LiveDir 1
  first : (V.inode 1).directSlotGet 0 ≠ 0
  entry : ∃ k < 192, V.entryOf 1 k = some (name, 2)
  alloc : V.Alloc 2
  record : ∃ z, z ≠ 0 ∧ (V.inode 2).OnlyZone z
  isFile : (V.inode 2).isDir = false ∧ (V.inode 2).isSymlink = false
  zones : 0 < V.freeZones.card
  rootIndex : ∃ e, V.dirs.map 1 = some e
  fileIndex : V.dirs.map 2 = none
  paths : V.paths = Fifo.empty

lemma smallFs_createFile {env : Inode.Env} {name : Str} {mode : UInt16} (hname : ProperName name)
    (hshort : name.length ≤ 60) (hd : name ≠ dotName) (hdd : name ≠ dotDotName) :
    Spec (createFileWithMode env 1 name mode) (fun r V' => r = .ok 2 ∧ V'.WithFile name)
      smallFs.volume := by
  have hf := smallFs_formatted
  obtain ⟨k, hroot⟩ := hf.root
  obtain ⟨hn, hz⟩ := smallFs_next
  obtain ⟨hcan, hroom⟩ := smallFs_canCreate hname hshort hd hdd
  have ht := hroot.tidy
  have hrecord : ∀ n z, smallFs.volume.NewChild 1 name true n z →
      (fileRecord env mode (smallFs.volume.inode 1) z).OnlyZone z := fun n z hnew =>
    fileRecord_onlyZone (ht.newChild_lt hnew)
  refine spec_createFileWithMode ht.layout ht.owned.inRange fun r V' hm => ?_
  obtain ⟨n, hn'⟩ := hm.success hroom
  have hr : r = .ok n := by
    cases r with
    | ok a => exact congrArg Except.ok (Option.some.inj hn')
    | error e => cases hn'
  rw [hn'] at hm
  have ha := hm.added ht.layout ht.owned hcan.parent hcan.name hrecord
  have hs := hm.spent ht.layout hroom.parent
  obtain rfl := ha.number.unique hn
  obtain ⟨z, hrec, hnew⟩ := hm.record_eq hroom.parent
  have hzone : smallFs.volume.FirstFreeZone z := by simpa using hnew.zone
  have htype := fileRecord_type env mode (smallFs.volume.inode 1) z
  rw [← hrec] at htype
  have hrecord2 : (V'.inode 2).OnlyZone z := by
    rw [hrec]
    exact hrecord 2 z hnew
  obtain ⟨kn, hkn, -, hslots⟩ := ha.slot
  have hf0 : (smallFs.volume.inode 1).directSlotGet 0 ≠ 0 :=
    (entry_eq_some.mp ((hroot.entry 0).trans (if_pos rfl))).1
  have hzones := hs.zones
  have hlt : smallFs.volume.dirs.order.length < dirIndexCacheCapacity := by
    rw [hf.dirs]
    decide
  have hmount := ha.mount.trans smallFs_mount
  refine ⟨hr, hmount, hm.tidy ht hcan hrecord fun z hd => ?_, ha.liveDir hroot.live ?_, ha.first hf0,
    ⟨kn, hkn, ?_⟩, ⟨isInode_small hmount (by decide) (by decide), ?_⟩,
    ⟨z, Disk.Owned.zone_ne ht.layout hzone.isData, hrecord2⟩, htype, by omega, hs.parent ht.dirs, ?_,
    ha.paths.trans hf.paths⟩
  · rw [(fileRecord_type env mode (smallFs.volume.inode 1) z).1] at hd
    cases hd
  · rw [hroot.size]
    decide
  · rw [hslots, if_pos rfl]
  · rw [ha.imap, update_self]
  · rw [hm.dirs_keep hlt (by decide), hf.dirs]
    rfl

/-- The bytes of an entry `x` for the root directory. -/
def entryBytes : List UInt8 := [1, 0, 0, 0] ++ nameX

/-- File 2 has the entry `x`, which is for the root directory. -/
structure Volume.Planted (V : Volume) : Prop where
  layout : Layout V.mount
  inRange : V.InRange
  inodes : V.IsInode 1 ∧ V.IsInode 2
  root : (V.inode 1).isSymlink = false
  isFile : (V.inode 2).isDir = false ∧ (V.inode 2).isSymlink = false
  entry : V.findEntry V.dirs 1 nameA = (some 2, V.dirs)
  planted : ∀ c : DirIndexCache, c.WellFormed → c.map 2 = none → (V.findEntry c 2 nameX).1 = some 1
  dirs : V.dirs.WellFormed
  fileIndex : V.dirs.map 2 = none
  paths : V.paths = Fifo.empty

lemma entry_entryBytes {D : Disk} {i : Inode} {z k : Nat}
    (hi : ∀ b, i.directSlotGet b = if b = 0 then z else 0) (hz : z ≠ 0)
    (hbytes : ∀ x < 2048, D.block z x = entryBytes.getD x 0) (hk : k < 192) :
    D.entry i k = if k = 0 then some (nameX, 1) else none := by
  by_cases hblock : k / 32 = 0
  · have hslot : i.directSlotGet (k / 32) = z := by rw [hi, if_pos hblock]
    have hsame := DirEntry.slot_congr (a := D.block z) (b := fun x => entryBytes.getD x 0)
      (k := k % 32) fun o _ ho => hbytes o (by omega)
    by_cases hk0 : k = 0
    · rw [if_pos hk0, entry_eq_some, hslot, hsame.1, hsame.2, hk0]
      exact ⟨hz, by decide, by decide, by decide⟩
    rw [if_neg hk0, entry, slot, hslot, if_neg hz, hsame.1, if_pos]
    · rfl
    have hzero := DirEntry.slot_congr (a := fun x => entryBytes.getD x 0) (b := Bytes.zero)
      (k := k % 32) fun o ho _ => getD_eq_default _ _ (by
        have : entryBytes.length = 5 := rfl
        omega)
    rw [hzero.1]
    exact Bytes.readLE_zero ..
  · have hslot : i.directSlotGet (k / 32) = 0 := by rw [hi, if_neg hblock]
    rw [if_neg (by omega), entry, slot, hslot]
    rfl

lemma Volume.WithFile.plant (h : V.WithFile nameA) :
    Spec (writeFile 2 entryBytes) (fun r V' => r = .ok () ∧ V'.Planted) V := by
  have ht := h.tidy
  obtain ⟨z, hz, hone⟩ := h.record
  have hlen : fileBlocks entryBytes.length = 1 := by decide
  have hsupply : V.FileSupply (V.refOf (V.inode 2)) (fileBlocks entryBytes.length) := by
    refine ⟨ht.layout, ht.owned.maps h.alloc, ?_⟩
    have hle := card_lacking_le (V.refOf (V.inode 2)) 1
    have hzones := h.zones
    rw [hlen]
    simp only [show ¬ 6 < 1 by decide, show ¬ 518 < 1 by decide, if_false] at hle
    omega
  refine writeFile_spec hsupply h.alloc.1 (by rw [hlen]; decide) fun M ps A B i' hw => ⟨rfl, ?_⟩
  have hself : (V.wrote 2 A B i').inode 2 = i' := by
    show update V.inode 2 i' 2 = i'
    rw [update_self]
  have hother : ∀ n, n ≠ 2 → (V.wrote 2 A B i').inode n = V.inode n := fun n hn =>
    update_of_ne hn _ _
  have hmapped : M (.direct 0) ≠ 0 := hw.mapped (show 0 < fileBlocks entryBytes.length by decide)
  have hslots : ∀ b, i'.directSlotGet b = if b = 0 then M (.direct 0) else 0 := by
    intro b
    by_cases hb0 : b = 0
    · rw [if_pos hb0, hb0, hw.direct]
    rw [if_neg hb0]
    by_cases hb : b < 6
    · have hout : Pos.direct b ∉ ps := by
        rw [← filePos_direct hb, hw.visited, hlen]
        omega
      rw [hw.direct, hw.zoned.kept _ (.inr hout)]
      exact (hone.direct b).trans (if_neg hb0)
    · exact i'.directSlotGet_of_le (by omega)
  obtain ⟨k, hk, hentry⟩ := h.entry
  obtain ⟨e, he⟩ := h.rootIndex
  have hcached : ∀ D : Disk, D.cacheIndex V.dirs 1 = V.dirs := fun D => by rw [Disk.cacheIndex, he]
  refine ⟨ht.layout, fun n hn b hb => ?_, ⟨h.root.alloc.1, h.alloc.1⟩, ?_, ?_, ?_,
    fun c hc hnone => ?_, ht.dirs, h.fileIndex, h.paths⟩
  · by_cases hn2 : n = 2
    · rw [hn2, hself, hw.direct] at hb ⊢
      exact hw.isData hsupply.maps hb
    · rw [hother n hn2] at hb ⊢
      exact ht.owned.inRange n hn b hb
  · rw [hother 1 (by decide)]
    exact isSymlink_of_isDir h.root.isDir
  · rw [hself, isDir, isSymlink, hw.mode]
    exact h.isFile
  · have hold := ht.findEntry h.root hk hentry h.first
    rw [Disk.findEntry, if_neg h.first, hcached] at hold
    rw [Disk.findEntry, hother 1 (by decide), if_neg h.first]
    exact (congrArg₂ Prod.mk (congrArg (DirIndexCache.lookup · 1 nameA) (hcached _)) (hcached _)).trans hold
  have hfirst : ((V.wrote 2 A B i').inode 2).directSlotGet 0 ≠ 0 := by
    rw [hself, hslots]
    exact hmapped
  have hbytes : ∀ x < 2048, (V.wrote 2 A B i').block (M (.direct 0)) x = entryBytes.getD x 0 := by
    intro x hx
    have hin := hw.inside 0 (by decide) x hx
    rwa [Nat.zero_mul, Nat.zero_add] at hin
  have hentries : ∀ k < 192, (V.wrote 2 A B i').entry i' k = if k = 0 then some (nameX, 1) else none :=
    fun k hk => entry_entryBytes hslots hmapped hbytes hk
  have hname : ((V.wrote 2 A B i').indexOf i').names nameX = some 1 := by
    cases hm : ((V.wrote 2 A B i').indexOf i').names nameX with
    | none =>
      exact absurd ⟨0, by decide, hentries 0 (by decide)⟩ (names_eq_none.mp hm 1)
    | some m =>
      obtain ⟨k, hk, hkm⟩ := names_some hm
      rw [hentries k hk] at hkm
      split at hkm
      · exact congrArg some (congrArg Prod.snd (Option.some.inj hkm)).symm
      · cases hkm
  rw [Disk.findEntry, if_neg hfirst, Disk.cacheIndex, hnone, hself]
  simp only
  rw [DirIndexCache.lookup, Fifo.insert_self_of_none hc (by decide) hnone]
  exact hname

def plantEntry : FsM FsError Unit := do
  let n ← createFile ⟨0, 0, 0⟩ 1 nameA
  writeFile n entryBytes

def plantedFs : TwilightFs := final (plantEntry smallFs)

lemma not_resolvesThrough {s : TwilightFs} {path a x : Str} {n m : Nat}
    (hparts : components (canonical path) = [a, x])
    (hfound : (s.volume.findEntry s.volume.dirs 1 a).1 = some n)
    (hdir : (s.volume.inode n).isDir = false) (hlink : (s.volume.inode n).isSymlink = false)
    (hok : outcome (resolvePath path s) = .ok m) : ¬ ResolvesThrough s := by
  intro hall
  have h := hall path m hok
  rw [hparts] at h
  cases h with
  | child _ found _ next =>
    rw [found] at hfound
    cases hfound
    rw [next.isDir] at hdir
    cases hdir
  | link _ found symlink _ =>
    rw [found] at hfound
    cases hfound
    rw [symlink] at hlink
    cases hlink

lemma Volume.Planted.resolve (h : V.Planted) : (V.resolve [47, 97, 47, 120]).1 = .ok 1 := by
  have hparts : components (canonical [47, 97, 47, 120]) = [nameA, nameX] := by decide
  have hcached : V.paths.map (canonical [47, 97, 47, 120]) = none := by
    rw [h.paths]
    rfl
  have hx := h.planted V.dirs h.dirs h.fileIndex
  have hplain : ∀ n, (V.inode n).isSymlink = false → ¬ (V.inode n).isSymlink = true := fun n hn => by
    rw [hn]
    exact false_ne_true
  have hwalk : (V.walk maxSymlinks [nameA, nameX] 1 V.dirs).1 = .ok 1 := by
    rw [maxSymlinks, Disk.walk, Disk.walkComponents, if_pos h.inodes.1, h.entry]
    simp only
    rw [if_pos h.inodes.2, if_neg (hplain 2 h.isFile.2), Disk.walkComponents, if_pos h.inodes.2]
    cases hf : V.findEntry V.dirs 2 nameX with
    | mk found c =>
      rw [hf] at hx
      cases hx
      simp only
      rw [if_pos h.inodes.1, if_neg (hplain 1 h.root), Disk.walkComponents]
  rw [Volume.resolve, if_neg (cons_ne_nil _ _), if_neg (by decide), hcached, hparts]
  simp only
  cases hw : V.walk maxSymlinks [nameA, nameX] 1 V.dirs with
  | mk r c =>
    rw [hw] at hwalk
    cases hwalk
    rfl

lemma plantedFs_planted : outcome (plantEntry smallFs) = .ok () ∧ plantedFs.volume.Planted := by
  have hspec : Spec plantEntry (fun r V' => r = .ok () ∧ V'.Planted) smallFs.volume := by
    refine Prog.Wp.bind ((smallFs_createFile properName_A (by decide) (by decide) (by decide)).mono ?_)
    rintro r V' ⟨rfl, hfile⟩
    exact hfile.plant
  exact hspec smallFs rfl

end

end Twilight.Fs

/-
What one user's reads of a file do to another user's.

`get_encryption_key` gives the key of the file's owner to root and to the owner alone.
`read` decides with it whether the blocks go through the cipher, but caches a small
file under its inode number only, so the next reader gets what the first one saw.

Two histories are compared that share their calls and the reads of `u` and differ in
the reads of the file by others.  A call may be any operation that does not look into
the file cache and leaves nothing there that the file does not hold, such as `write`
and `truncate`.  What `u` reads is the same after both, and is what is stored if `u`
has no key, exactly if wherever the shared calls lead the file does not get cached or
the key makes no difference to its bytes.
-/
import Twilight.Fs.Blind
import Twilight.Fs.FileRuns

namespace Twilight

open Prog

namespace Fs

/-! ## The file cache under `read` -/

def NodeState.cached (s : NodeState) (n : Nat) : Option (List UInt8) := s.fs.shared.files.map n

lemma NodeState.cached_forget (s : NodeState) (n : Nat) : s.forget.cached n = none := by
  rw [cached, Shared.files, Versioned.current, Versioned.ensureGeneration]
  split
  · rfl
  · rfl

namespace Node

/-- The state after a look into the file cache, which brings its stamp up to date. -/
def touched (s : NodeState) : NodeState :=
  { s with fs := { s.fs with shared := s.fs.shared.updateFiles id } }

variable {env : NodeEnv} {lba len : Nat} {s : NodeState} {data : List UInt8}

lemma files_touched : (touched s).fs.shared.files = s.fs.shared.files :=
  Shared.files_updateFiles ..

/-- A read past the end, of an inline file or of a large one does not go to the cache. -/
lemma read_around (h : s.inode.size.toNat ≤ lba ∨ s.inode.isInline = true ∨
    fileCacheMaxFileBytes < s.inode.size.toNat) : final (read env lba len s) = s ∧
      outcome (read env lba len s) = outcome (read env lba len s.forget) := by
  obtain ⟨x, hx, hrun⟩ : ∃ x : NodeM (List UInt8), Reader NodeState.forget x ∧
      ∀ t : NodeState, t.inode = s.inode → read env lba len t = x t := by
    by_cases hend : s.inode.size.toNat ≤ lba
    · refine ⟨pure [], .pure [], fun t ht => ?_⟩
      rw [read, bind_ok (get_run t)]
      dsimp only
      rw [ht, if_pos hend]
    by_cases hinline : s.inode.isInline = true
    · refine ⟨if s.inode.inlineDataBytes.length < lba then throw .panic
        else pure ((s.inode.inlineDataBytes.drop lba).take len), ?_, fun t ht => ?_⟩
      · split
        · exact .throw _
        · exact .pure _
      · rw [read, bind_ok (get_run t)]
        dsimp only
        rw [ht, if_neg hend, if_pos hinline]
    have hlarge := (h.resolve_left hend).resolve_left hinline
    refine ⟨_, (reader_readOps s.inode lba (min (s.inode.size.toNat - lba) len)).bind
      fun ops => reader_readPieces env s.inode ops, fun t ht => ?_⟩
    rw [read, bind_ok (get_run t)]
    dsimp only
    rw [ht, if_neg hend, if_neg hinline, if_neg (Nat.not_le.mpr hlarge)]
  rw [hrun s rfl, hrun s.forget rfl]
  exact ⟨hx.keeps s, hx.sees _ _ rfl⟩

lemma readCachedFileSlice_run (n : Nat) : readCachedFileSlice n lba len s
    = .ok ((s.cached n).map fun data => (data.drop lba).take len) (touched s) := by
  have hrun : readCachedFileSlice n lba len s = .ok (((touched s).fs.shared.files.map n).map
      fun data => (data.drop lba).take len) (touched s) := rfl
  rw [hrun, files_touched]
  rfl

section Small

variable (hlba : lba < s.inode.size.toNat) (hinline : s.inode.isInline = false)
  (hsmall : s.inode.size.toNat ≤ fileCacheMaxFileBytes)

include hlba hinline hsmall

lemma read_hit (hc : s.cached env.inodeNo = some data) : read env lba len s
      = .ok ((data.drop lba).take (min (s.inode.size.toNat - lba) len)) (touched s) := by
  rw [read, bind_ok (get_run s)]
  dsimp only
  rw [if_neg (Nat.not_le.mpr hlba), if_neg (by rw [hinline]; decide), if_pos hsmall,
    bind_ok (readCachedFileSlice_run _), hc]
  dsimp only [Option.map_some]
  rw [List.take_take, Nat.min_assoc, Nat.min_self, pure_run]

section Miss

variable (hc : s.cached env.inodeNo = none)

include hc

lemma read_fill (len : Nat) (hall : outcome (readAllFile env s.inode s) = .ok data) :
    ∃ t, read env lba len s
        = .ok ((data.drop lba).take (min (s.inode.size.toNat - lba) len)) t ∧
      t.forget = s.forget ∧ t.fs.shared.files = s.fs.shared.files.insert env.inodeNo data := by
  have hrun := (reader_readAllFile env s.inode).run_ok (s := s) (t := touched s) rfl hall
  refine ⟨{ s with
    fs.shared := (s.fs.shared.updateFiles id).updateFiles (·.insert env.inodeNo data) }, ?_, rfl, ?_⟩
  · rw [read, bind_ok (get_run s)]
    dsimp only
    rw [if_neg (Nat.not_le.mpr hlba), if_neg (by rw [hinline]; decide), if_pos hsmall,
      bind_ok (readCachedFileSlice_run _), hc]
    dsimp only [Option.map_none]
    rw [bind_ok (attempt_ok hrun)]
    rfl
  · rw [Shared.files_updateFiles, Shared.files_updateFiles]
    rfl

/-- Where `read_all_file` fails, the blocks are read one by one, and nothing is cached. -/
lemma read_blocks {e : NodeError} (hall : outcome (readAllFile env s.inode s) = .error e) :
    final (read env lba len s) = touched s ∧
      outcome (read env lba len s) = outcome ((readOps s.inode lba
        (min (s.inode.size.toNat - lba) len) >>= readPieces env s.inode) s) := by
  have hrun := (reader_readAllFile env s.inode).run_error (s := s) (t := touched s) rfl hall
  have hblocks := (reader_readOps s.inode lba (min (s.inode.size.toNat - lba) len)).bind
    fun ops => reader_readPieces env s.inode ops
  rw [read, bind_ok (get_run s)]
  dsimp only
  rw [if_neg (Nat.not_le.mpr hlba), if_neg (by rw [hinline]; decide), if_pos hsmall,
    bind_ok (readCachedFileSlice_run _), hc]
  dsimp only [Option.map_none]
  rw [bind_ok (attempt_error hrun)]
  exact ⟨hblocks.keeps _, hblocks.sees _ _ rfl⟩

end Miss

end Small

/-- A read leaves everything but the file cache as it is. -/
lemma forget_read (env : NodeEnv) (lba len : Nat) (s : NodeState) :
    (final (read env lba len s)).forget = s.forget := by
  by_cases haround : s.inode.size.toNat ≤ lba ∨ s.inode.isInline = true ∨
      fileCacheMaxFileBytes < s.inode.size.toNat
  · rw [(read_around haround).1]
  simp only [not_or, not_le, not_lt, Bool.not_eq_true] at haround
  obtain ⟨hlba, hinline, hsmall⟩ := haround
  cases hc : s.cached env.inodeNo with
  | some d =>
    rw [read_hit hlba hinline hsmall hc]
    rfl
  | none =>
    cases hall : outcome (readAllFile env s.inode s) with
    | ok d =>
      obtain ⟨t, ht, hforget, -⟩ := read_fill hlba hinline hsmall hc len hall
      rw [ht]
      exact hforget
    | error e =>
      rw [(read_blocks hlba hinline hsmall hc hall).1]
      rfl

/-- A user who would read what is cached from the device reads the same without the cache. -/
lemma outcome_read_forget (lba len : Nat) (h : ∀ d, s.cached env.inodeNo = some d →
    outcome (readAllFile env s.inode s) = .ok d) :
    outcome (read env lba len s) = outcome (read env lba len s.forget) := by
  by_cases haround : s.inode.size.toNat ≤ lba ∨ s.inode.isInline = true ∨
      fileCacheMaxFileBytes < s.inode.size.toNat
  · exact (read_around haround).2
  simp only [not_or, not_le, not_lt, Bool.not_eq_true] at haround
  obtain ⟨hlba, hinline, hsmall⟩ := haround
  have hempty := s.cached_forget env.inodeNo
  have hsame : outcome (readAllFile env s.inode s)
      = outcome (readAllFile env s.forget.inode s.forget) :=
    (reader_readAllFile env s.inode).sees _ _ rfl
  cases hall : outcome (readAllFile env s.inode s) with
  | ok d =>
    obtain ⟨t, ht, -⟩ := read_fill (s := s.forget) hlba hinline hsmall hempty len
      (hsame.symm.trans hall)
    rw [ht]
    cases hc : s.cached env.inodeNo with
    | some d' =>
      obtain rfl : d = d' := Except.ok.inj (hall.symm.trans (h d' hc))
      rw [read_hit hlba hinline hsmall hc]
      rfl
    | none =>
      obtain ⟨t', ht', -⟩ := read_fill hlba hinline hsmall hc len hall
      rw [ht']
      rfl
  | error e =>
    have hc : s.cached env.inodeNo = none := by
      cases hc : s.cached env.inodeNo with
      | none => rfl
      | some d => exact absurd (hall.symm.trans (h d hc)) (by simp)
    rw [(read_blocks hlba hinline hsmall hc hall).2,
      (read_blocks (s := s.forget) hlba hinline hsmall hempty (hsame.symm.trans hall)).2]
    exact ((reader_readOps s.inode lba _).bind
      fun ops => reader_readPieces env s.inode ops).sees _ _ rfl

/-! ### The file with and without a key -/

lemma outcome_readRuns_map (env env' : NodeEnv) (i : Inode) (fileSize : Nat) (zones : List Nat)
    (offset : Nat) (out out' : Bytes) (s : NodeState) :
    (outcome (readRuns env i fileSize zones offset out s)).map (fun _ => ())
      = (outcome (readRuns env' i fileSize zones offset out' s)).map fun _ => () := by
  induction zones, offset, out using readRuns.induct env i fileSize generalizing out' with
  | case1 offset out =>
    rw [readRuns, readRuns]
    rfl
  | case2 offset out z rest runLen ih =>
    rw [readRuns, readRuns]
    refine bind_map rfl fun bufs bufs' t t' h h' => ?_
    obtain ⟨rfl, rfl⟩ := EStateM.Result.ok.inj (h.symm.trans h')
    have hkeeps := (reader_onFs (TwilightFs.reader_readTfsBlocks z runLen)).keeps s
    rw [h] at hkeeps
    obtain rfl : t = s := hkeeps
    split
    · rfl
    · exact ih bufs _

lemma outcome_readAllFile_map (env env' : NodeEnv) (i : Inode) (s : NodeState) :
    (outcome (readAllFile env i s)).map (fun _ => ())
      = (outcome (readAllFile env' i s)).map fun _ => () := by
  rw [readAllFile, readAllFile]
  split
  · rfl
  refine bind_map rfl fun zones zones' t t' h h' => ?_
  obtain ⟨rfl, rfl⟩ := EStateM.Result.ok.inj (h.symm.trans h')
  exact bind_map (outcome_readRuns_map ..) fun _ _ _ _ _ _ => rfl

lemma length_readAllFile (hinline : s.inode.isInline = false)
    (h : outcome (readAllFile env s.inode s) = .ok data) :
    data.length = s.inode.size.toNat := by
  rw [readAllFile, if_neg (by rw [hinline]; decide)] at h
  cases hx : (allZones s.inode >>= fun zones => readRuns env s.inode s.inode.size.toNat zones 0
      Bytes.zero >>= fun out => pure (out.slice 0 s.inode.size.toNat) : NodeM _) s with
  | ok d t =>
    rw [hx] at h
    obtain ⟨zones, s', -, hrest⟩ := bind_eq_ok hx
    obtain ⟨out, t', -, hout⟩ := bind_eq_ok hrest
    cases h
    cases hout
    exact Bytes.length_slice ..
  | error e t =>
    rw [hx] at h
    cases h

/-! ### Writing -/

lemma storeInode_ok {e : NodeError} {t : NodeState} (h : storeInode env e s = .ok () t) :
    t.cached env.inodeNo = none := by
  obtain ⟨i, s', hi, hrest⟩ := bind_eq_ok h
  obtain ⟨r, s'', hr, hrest⟩ := bind_eq_ok hrest
  cases r with
  | ok _ =>
    cases hrest
    rw [NodeState.cached]
    show ((Shared.updateFiles _ _).files).map _ = none
    rw [Shared.files_updateFiles, FileContentCache.invalidateInode_map, if_pos rfl]
  | error e' => cases hrest

/-- A `write` that succeeds drops what is cached of the file, unless there is nothing to write. -/
lemma write_ok {t : NodeState} (h : write env lba data s = .ok () t) :
    t = s ∨ t.cached env.inodeNo = none := by
  rw [write] at h
  dsimp only at h
  split at h
  · cases h
    exact .inl rfl
  split at h
  · cases h
  obtain ⟨_, _, -, h⟩ := bind_eq_ok h
  obtain ⟨_, _, -, h⟩ := bind_eq_ok h
  obtain ⟨_, _, -, h⟩ := bind_eq_ok h
  obtain ⟨_, _, -, h⟩ := bind_eq_ok h
  obtain ⟨_, _, -, h⟩ := bind_eq_ok h
  obtain ⟨_, _, -, h⟩ := bind_eq_ok h
  obtain ⟨_, _, -, h⟩ := bind_eq_ok h
  obtain ⟨_, _, -, h⟩ := bind_eq_ok h
  exact .inr (storeInode_ok h)

lemma writeZeros_ok {offset remaining : Nat} {t : NodeState} :
    ∀ s, writeZeros env offset remaining s = .ok () t → t = s ∨ t.cached env.inodeNo = none := by
  induction offset, remaining using writeZeros.induct with
  | case1 offset =>
    intro s h
    rw [writeZeros, if_pos rfl] at h
    cases h
    exact .inl rfl
  | case2 offset remaining hne n ih =>
    intro s h
    rw [writeZeros, if_neg hne] at h
    obtain ⟨_, s', hfirst, h⟩ := bind_eq_ok h
    rcases ih s' h with rfl | hnone
    · exact write_ok hfirst
    · exact .inr hnone

lemma truncate_ok {t : NodeState} (h : truncate env len s = .ok () t) :
    t = s ∨ t.cached env.inodeNo = none := by
  rw [truncate, bind_ok (get_run s)] at h
  split at h
  · cases h
    exact .inl rfl
  split at h
  · obtain ⟨_, _, -, h⟩ := bind_eq_ok h
    exact .inr (storeInode_ok h)
  · exact writeZeros_ok s h

end Node

/-! ## Histories -/

/-- A `read` of the file by the user `uid`. -/
structure Access where
  uid : UInt32
  lba : Nat
  len : Nat

section

variable (userKey : UInt32 → Option (Nat → Bytes → Bytes)) (n : Nat)

/-- `get_encryption_key` under the user `uid`; `userKey` is `get_user_key`, with the cipher applied
to the key and the nonce. -/
def encryptionKey (i : Inode) (uid : UInt32) : Option (Nat → Bytes → Bytes) :=
  if uid ≠ 0 ∧ uid ≠ i.uid then none else userKey i.uid

def nodeEnv (i : Inode) (uid : UInt32) : NodeEnv := ⟨n, encryptionKey userKey i uid⟩

/-- The file's `read` when the user `a.uid` runs. -/
def readAs (a : Access) : NodeM (List UInt8) := fun s =>
  Node.read (nodeEnv userKey n s.inode a.uid) a.lba a.len s

/-- The bytes on the device as the user `uid` reads them. -/
def NodeState.bytesAs (uid : UInt32) (s : NodeState) : Except NodeError (List UInt8) :=
  outcome (Node.readAllFile (nodeEnv userKey n s.inode uid) s.inode s)

/-- A call that may be in both histories.  It does not look into the file cache, and what it leaves
cached of the file was cached before and is still what the file holds. -/
structure Call where
  run : NodeState → Option NodeState
  blind : ∀ s t, s.forget = t.forget → (run s).map NodeState.forget = (run t).map NodeState.forget
  kept : ∀ s t, run s = some t → t.cached n = none ∨
    (t.cached n = s.cached n ∧ ∀ uid, t.bytesAs userKey n uid = s.bytesAs userKey n uid)

/-- A program whose failure ends the history. -/
def Call.ofNode (x : NodeM Unit) (hx : Blind NodeState.forget x)
    (hok : ∀ s t, x s = .ok () t → t = s ∨ t.cached n = none) : Call userKey n where
  run s := (outcome (x s)).toOption.map fun _ => final (x s)
  blind s t hst := by
    obtain ⟨ho, hv⟩ := hx s t hst
    rw [ho, Option.map_map, Option.map_map]
    cases (outcome (x t)).toOption with
    | none => rfl
    | some _ => exact congrArg some hv
  kept s t ht := by
    cases hr : x s with
    | ok _ s' =>
      rw [hr] at ht
      cases ht
      rcases hok s s' hr with rfl | hnone
      · exact .inr ⟨rfl, fun _ => rfl⟩
      · exact .inl hnone
    | error e s' =>
      rw [hr] at ht
      cases ht

def Call.write (uid : UInt32) (lba : Nat) (data : List UInt8) : Call userKey n :=
  .ofNode userKey n (do Node.write (nodeEnv userKey n (← get).inode uid) lba data)
    (.get (fun _ => rfl) fun _ => Node.blind_write _ _ _)
    fun _ _ h => Node.write_ok h

def Call.truncate (uid : UInt32) (len : Nat) : Call userKey n :=
  .ofNode userKey n (do Node.truncate (nodeEnv userKey n (← get).inode uid) len)
    (.get (fun _ => rfl) fun _ => Node.blind_truncate _ _)
    fun _ _ h => Node.truncate_ok h

inductive Event
  | read (a : Access)
  | call (c : Call userKey n)

namespace Event

variable {userKey n}

def run (s : NodeState) : Event userKey n → Option NodeState
  | .read a => some (final (readAs userKey n a s))
  | .call c => c.run s

/-- The events that are not reads of the file by other users than `u`. -/
def shared (u : UInt32) : Event userKey n → Bool
  | .read a => a.uid = u
  | .call _ => true

end Event

variable {userKey n}

/-- The state after a history, if its calls succeed. -/
def after (history : List (Event userKey n)) (s : NodeState) : Option NodeState :=
  history.foldlM Event.run s

/-- After any two histories that differ only in reads of the file by others, and share a beginning
of `history`, the user `u` reads the same; without the key these are the bytes on the device. -/
structure ReadsAlone (u : UInt32) (history : List (Event userKey n)) (s : NodeState) : Prop where
  same : ∀ h h' : List (Event userKey n), h.filter (·.shared u) <+: history.filter (·.shared u) →
    h'.filter (·.shared u) = h.filter (·.shared u) → ∀ t t', after h s = some t →
    after h' s = some t' → ∀ lba len, outcome (readAs userKey n ⟨u, lba, len⟩ t)
      = outcome (readAs userKey n ⟨u, lba, len⟩ t')
  stored : ∀ h : List (Event userKey n), h.filter (·.shared u) <+: history.filter (·.shared u) →
    ∀ t, after h s = some t → encryptionKey userKey t.inode u = none →
    ∀ lba len, outcome (readAs userKey n ⟨u, lba, len⟩ t)
      = outcome (Node.read ⟨n, none⟩ lba len t.forget)

end

section

variable (userKey : UInt32 → Option (Nat → Bytes → Bytes)) (n : Nat) (t : NodeState)

/-- The file is not one that gets cached, or reads the same with the owner's key and without. -/
def KeyFree : Prop := t.inode.isInline = true ∨ fileCacheMaxFileBytes < t.inode.size.toNat ∨
  outcome (Node.readAllFile ⟨n, userKey t.inode.uid⟩ t.inode t)
    = outcome (Node.readAllFile ⟨n, none⟩ t.inode t)

/-- What is cached of the file is what every user would read from the device. -/
def CacheAgrees : Prop := ∀ d, t.cached n = some d → ∀ uid, t.bytesAs userKey n uid = .ok d

end

section

variable {userKey : UInt32 → Option (Nat → Bytes → Bytes)} {n : Nat} {s t : NodeState} {u : UInt32}

lemma encryptionKey_cases (userKey : UInt32 → Option (Nat → Bytes → Bytes)) (i : Inode)
    (uid : UInt32) :
    encryptionKey userKey i uid = none ∨ encryptionKey userKey i uid = userKey i.uid := by
  rw [encryptionKey]
  split
  · exact .inl rfl
  · exact .inr rfl

lemma exists_other_key (userKey : UInt32 → Option (Nat → Bytes → Bytes)) (i : Inode)
    (u : UInt32) : ∃ v, v ≠ u ∧
      ((encryptionKey userKey i u = none ∧ encryptionKey userKey i v = userKey i.uid) ∨
      (encryptionKey userKey i u = userKey i.uid ∧ encryptionKey userKey i v = none)) := by
  by_cases hu : u ≠ 0 ∧ u ≠ i.uid
  · exact ⟨0, hu.1.symm, .inl ⟨if_pos hu, if_neg fun h => h.1 rfl⟩⟩
  have hv : ∃ v : UInt32, v ≠ 0 ∧ v ≠ i.uid := by
    by_cases h1 : i.uid = 1
    · exact ⟨2, by decide, by rw [h1]; decide⟩
    · exact ⟨1, by decide, fun h => h1 h.symm⟩
  obtain ⟨v, hv⟩ := hv
  exact ⟨v, fun h => hu (h ▸ hv), .inr ⟨if_neg hu, if_pos hv⟩⟩

lemma bytesAs_forget (hst : s.forget = t.forget) (uid : UInt32) :
    s.bytesAs userKey n uid = t.bytesAs userKey n uid := by
  rw [NodeState.bytesAs, NodeState.bytesAs, (NodeState.forget_inj hst).2]
  exact (Node.reader_readAllFile _ _).sees s t hst

lemma KeyFree.forget (h : KeyFree userKey n s) (hst : s.forget = t.forget) :
    KeyFree userKey n t := by
  rw [KeyFree, (NodeState.forget_inj hst).2] at h
  refine h.imp id (Or.imp id fun hsame => ?_)
  rw [← (Node.reader_readAllFile _ _).sees s t hst, ← (Node.reader_readAllFile _ _).sees s t hst]
  exact hsame

lemma KeyFree.bytesAs (h : KeyFree userKey n t) (hinline : t.inode.isInline = false)
    (hsmall : t.inode.size.toNat ≤ fileCacheMaxFileBytes) (uid uid' : UInt32) :
    t.bytesAs userKey n uid = t.bytesAs userKey n uid' := by
  have hsame := (h.resolve_left (by rw [hinline]; decide)).resolve_left (Nat.not_lt.mpr hsmall)
  rw [NodeState.bytesAs, NodeState.bytesAs, nodeEnv, nodeEnv]
  rcases encryptionKey_cases userKey t.inode uid with hk | hk <;>
    rcases encryptionKey_cases userKey t.inode uid' with hk' | hk' <;> rw [hk, hk']
  · exact hsame.symm
  · exact hsame

/-! ## One event -/

lemma FileContentCache.insert_self {c : FileContentCache} {data : List UInt8}
    (h0 : data.length ≠ 0) (hmax : data.length ≤ fileCacheMaxFileBytes) :
    (c.insert n data).map n = some ((c.map n).getD data) := by
  have htotal : data.length ≤ fileCacheMaxTotalBytes := le_trans hmax (by decide)
  cases hc : c.map n with
  | some d =>
    rw [FileContentCache.insert_of_some hc, hc]
    rfl
  | none =>
    rw [FileContentCache.insert]
    dsimp only
    rw [if_neg (by omega), if_neg (by rw [hc]; decide)]
    exact Function.update_self ..

lemma forget_readAs (a : Access) (t : NodeState) :
    (final (readAs userKey n a t)).forget = t.forget := Node.forget_read ..

lemma CacheAgrees.outcome (h : CacheAgrees userKey n t) (a : Access) :
    outcome (readAs userKey n a t)
      = outcome (Node.read (nodeEnv userKey n t.inode a.uid) a.lba a.len t.forget) :=
  Node.outcome_read_forget a.lba a.len fun d hd => h d hd a.uid

lemma CacheAgrees.read (h : CacheAgrees userKey n t) (hfree : KeyFree userKey n t) (a : Access) :
    CacheAgrees userKey n (final (readAs userKey n a t)) := by
  intro d hd uid
  rw [bytesAs_forget (forget_readAs a t)]
  rw [readAs] at hd
  by_cases haround : t.inode.size.toNat ≤ a.lba ∨ t.inode.isInline = true ∨
      fileCacheMaxFileBytes < t.inode.size.toNat
  · rw [(Node.read_around haround).1] at hd
    exact h d hd uid
  simp only [not_or, not_le, not_lt, Bool.not_eq_true] at haround
  obtain ⟨hlba, hinline, hsmall⟩ := haround
  cases hc : t.cached n with
  | some d' =>
    rw [Node.read_hit hlba hinline hsmall hc, final_ok, NodeState.cached, Node.files_touched] at hd
    exact h d hd uid
  | none =>
    cases hall : t.bytesAs userKey n a.uid with
    | ok data =>
      obtain ⟨t', ht', -, hfiles⟩ := Node.read_fill hlba hinline hsmall hc a.len hall
      rw [ht', final_ok, NodeState.cached, hfiles] at hd
      rcases FileContentCache.insert_map_sub hd with ⟨-, rfl⟩ | hold
      · rw [hfree.bytesAs hinline hsmall uid a.uid, hall]
      · exact absurd (hold.symm.trans hc) (by simp)
    | error e =>
      rw [(Node.read_blocks hlba hinline hsmall hc hall).1, NodeState.cached,
        Node.files_touched] at hd
      exact absurd (hd.symm.trans hc) (by simp)

lemma CacheAgrees.run {e : Event userKey n} (h : CacheAgrees userKey n s)
    (hfree : KeyFree userKey n s) (ht : e.run s = some t) : CacheAgrees userKey n t := by
  cases e with
  | read a =>
    cases ht
    exact h.read hfree a
  | call c =>
    intro d hd uid
    rcases c.kept s t ht with hnone | ⟨hsame, hbytes⟩
    · rw [hnone] at hd
      cases hd
    · rw [hbytes]
      exact h d (hsame.symm.trans hd) uid

/-! ## Runs -/

lemma Event.run_forget (e : Event userKey n) (hst : s.forget = t.forget) :
    (e.run s).map NodeState.forget = (e.run t).map NodeState.forget := by
  cases e with
  | read a =>
    show some (NodeState.forget _) = some (NodeState.forget _)
    rw [forget_readAs, forget_readAs, hst]
  | call c => exact c.blind s t hst

/-- Reads of the file by others leave everything but the file cache as it would be. -/
lemma after_shared (u : UInt32) (h : List (Event userKey n)) (hst : s.forget = t.forget) :
    (after h s).map NodeState.forget
      = (after (h.filter (·.shared u)) t).map NodeState.forget := by
  induction h generalizing s t with
  | nil => exact congrArg some hst
  | cons e h ih =>
    by_cases he : e.shared u = true
    · rw [List.filter_cons_of_pos he]
      have hrun := e.run_forget hst
      rw [after, after, List.foldlM_cons, List.foldlM_cons]
      cases hs : e.run s with
      | none =>
        rw [hs, eq_comm, Option.map_none, Option.map_eq_none_iff] at hrun
        rw [hrun]
        rfl
      | some s' =>
        rw [hs] at hrun
        obtain ⟨t', ht, hforget⟩ := Option.map_eq_some_iff.mp hrun.symm
        rw [ht]
        exact ih hforget.symm
    · rw [List.filter_cons_of_neg he]
      cases e with
      | read a => exact ih ((forget_readAs a s).trans hst)
      | call c => exact absurd rfl he

lemma after_concat (h : List (Event userKey n)) (e : Event userKey n) (s : NodeState) :
    after (h ++ [e]) s = (after h s).bind fun t => e.run t := by
  rw [after, List.foldlM_append]
  refine congrArg (Option.bind _) (funext fun t => ?_)
  simp

/-- Along the histories in question, the cache agrees with the device if no state in which it
does makes a difference between keys. -/
lemma cacheAgrees_after {history : List (Event userKey n)} (hfresh : s.cached n = none)
    (hfree : ∀ h : List (Event userKey n), h.filter (·.shared u) <+: history →
      ∀ t, after h s = some t → CacheAgrees userKey n t → KeyFree userKey n t)
    {h : List (Event userKey n)} (hh : h.filter (·.shared u) <+: history) (ht : after h s = some t) :
    CacheAgrees userKey n t := by
  induction h using List.reverseRecOn generalizing t with
  | nil =>
    cases ht
    intro d hd
    rw [hfresh] at hd
    cases hd
  | append_singleton h e ih =>
    rw [after_concat] at ht
    obtain ⟨t', ht', hrun⟩ := Option.bind_eq_some_iff.mp ht
    have hbefore : h.filter (·.shared u) <+: history := by
      rw [List.filter_append] at hh
      exact (List.prefix_append ..).trans hh
    have hagrees := ih hbefore ht'
    exact hagrees.run (hfree h hbefore t' ht' hagrees) hrun

/-- A file that gets cached, is not, and reads differently with the key: someone else's read changes
what `u` reads. -/
lemma exists_read_changes (hno : ¬ KeyFree userKey n t) (hc : t.cached n = none) (u : UInt32) :
    ∃ v, v ≠ u ∧ outcome (readAs userKey n ⟨u, 0, t.inode.size.toNat⟩
        (final (readAs userKey n ⟨v, 0, 0⟩ t)))
      ≠ outcome (readAs userKey n ⟨u, 0, t.inode.size.toNat⟩ t) := by
  simp only [KeyFree, not_or, not_lt, Bool.not_eq_true] at hno
  obtain ⟨hinline, hsmall, hne⟩ := hno
  obtain ⟨v, hvu, hkeys⟩ := exists_other_key userKey t.inode u
  refine ⟨v, hvu, ?_⟩
  have hdiff : t.bytesAs userKey n v ≠ t.bytesAs userKey n u := by
    rw [NodeState.bytesAs, NodeState.bytesAs, nodeEnv, nodeEnv]
    rcases hkeys with ⟨hu, hv⟩ | ⟨hu, hv⟩
    · rw [hu, hv]
      exact hne
    · rw [hu, hv]
      exact Ne.symm hne
  -- a block that cannot be read fails with and without the key
  obtain ⟨d, d', hd, hd', hne'⟩ := exists_ok_of_ne (Node.outcome_readAllFile_map
    (nodeEnv userKey n t.inode v) (nodeEnv userKey n t.inode u) t.inode t) hdiff
  have hlen := Node.length_readAllFile hinline hd
  have hlen' := Node.length_readAllFile hinline hd'
  have hpos : 0 < t.inode.size.toNat := by
    rw [← hlen]
    refine List.length_pos_iff.mpr fun hnil => hne' ?_
    rw [hnil, List.length_nil] at hlen
    rw [hnil, List.eq_nil_of_length_eq_zero (hlen'.trans hlen.symm)]
  have hwhole : ∀ d : List UInt8, d.length = t.inode.size.toNat →
      (d.drop 0).take (min (t.inode.size.toNat - 0) t.inode.size.toNat) = d := by
    intro d hd
    rw [List.drop_zero, Nat.sub_zero, Nat.min_self, ← hd, List.take_length]
  obtain ⟨s₁, hs₁, -⟩ := Node.read_fill hpos hinline hsmall hc t.inode.size.toNat hd'
  obtain ⟨s₂, hs₂, hforget, hfiles⟩ := Node.read_fill hpos hinline hsmall hc 0 hd
  have hwithout : readAs userKey n ⟨u, 0, t.inode.size.toNat⟩ t = .ok d' s₁ := by
    rw [← hwhole d' hlen']
    exact hs₁
  have hforeign : final (readAs userKey n ⟨v, 0, 0⟩ t) = s₂ := by
    rw [readAs, hs₂]
    rfl
  obtain ⟨-, hinode⟩ := NodeState.forget_inj hforget
  have hcached : s₂.cached n = some d := by
    have hmapn : t.fs.shared.files.map n = none := hc
    rw [NodeState.cached, hfiles]
    show (FileContentCache.insert _ n d).map n = _
    rw [FileContentCache.insert_self (by omega) (hlen.trans_le hsmall), hmapn]
    rfl
  have hwith : readAs userKey n ⟨u, 0, t.inode.size.toNat⟩ s₂ = .ok d (Node.touched s₂) := by
    rw [← hwhole d hlen, ← hinode]
    rw [← hinode] at hpos hinline hsmall
    exact Node.read_hit hpos hinline hsmall hcached
  rw [hforeign, hwithout, hwith]
  exact fun h => hne' (Except.ok.inj h)

lemma CacheAgrees.keyFree (h : CacheAgrees userKey n t) {d : List UInt8}
    (hd : t.cached n = some d) : KeyFree userKey n t := by
  obtain ⟨v, -, hkeys⟩ := exists_other_key userKey t.inode 0
  have hroot := h d hd 0
  have hother := h d hd v
  rw [NodeState.bytesAs, nodeEnv] at hroot hother
  rcases hkeys with ⟨h0, hv⟩ | ⟨h0, hv⟩
  · rw [h0] at hroot
    rw [hv] at hother
    exact .inr (.inr (hother.trans hroot.symm))
  · rw [h0] at hroot
    rw [hv] at hother
    exact .inr (.inr (hroot.trans hother.symm))

/-- A read by someone else after the history, from a state in which it would make a difference. -/
lemma ReadsAlone.keyFree {history h : List (Event userKey n)} (hind : ReadsAlone u history s)
    (hh : h.filter (·.shared u) <+: history.filter (·.shared u)) (ht : after h s = some t)
    (hagrees : CacheAgrees userKey n t) : KeyFree userKey n t := by
  cases hc : t.cached n with
  | some d => exact hagrees.keyFree hc
  | none =>
    by_contra hno
    obtain ⟨v, hvu, hne⟩ := exists_read_changes hno hc u
    have hnot : ¬ (Event.read ⟨v, 0, 0⟩ : Event userKey n).shared u = true :=
      fun h => hvu (of_decide_eq_true h)
    have hforeign : (h ++ [Event.read ⟨v, 0, 0⟩]).filter (·.shared u) = h.filter (·.shared u) := by
      rw [List.filter_append, List.filter_cons_of_neg hnot, List.filter_nil, List.append_nil]
    refine hne (hind.same (h ++ [.read ⟨v, 0, 0⟩]) h (hforeign ▸ hh) hforeign.symm _ _ ?_ ht _ _)
    rw [after_concat, ht]
    rfl

/-- Along the shared part of the histories the reads of `u` do not depend on those of the others, and
show no more than what is stored to a `u` without the key, exactly if the file never gets cached
where the key makes a difference. -/
theorem readsAlone_iff (hfresh : s.cached n = none) (u : UInt32)
    (history : List (Event userKey n)) :
    ReadsAlone u history s ↔ ∀ h, h <+: history.filter (·.shared u) → ∀ t, after h s = some t →
      KeyFree userKey n t := by
  constructor
  · intro hind h hh t ht
    have hshared : h.filter (·.shared u) = h :=
      List.filter_eq_self.mpr fun e he => (List.mem_filter.mp (hh.subset he)).2
    rw [← hshared] at hh
    have hagrees := cacheAgrees_after hfresh (fun h hh t ht => hind.keyFree hh ht) hh ht
    exact hind.keyFree hh ht hagrees
  · intro hfree
    -- the state after a history is that after its shared part, but for the cache
    have hforget : ∀ (h : List (Event userKey n)) t, after h s = some t →
        ∃ t', after (h.filter (·.shared u)) s = some t' ∧ t'.forget = t.forget := by
      intro h t ht
      have hsame := after_shared u h (rfl : s.forget = s.forget)
      rw [ht] at hsame
      exact Option.map_eq_some_iff.mp hsame.symm
    have hagrees : ∀ h : List (Event userKey n),
        h.filter (·.shared u) <+: history.filter (·.shared u) → ∀ t, after h s = some t →
        CacheAgrees userKey n t := by
      intro h hh t ht
      refine cacheAgrees_after hfresh (fun h hh t ht _ => ?_) hh ht
      obtain ⟨t', ht', hst⟩ := hforget h t ht
      exact (hfree _ hh t' ht').forget hst
    constructor
    · intro h h' hh hsame t t' ht ht' lba len
      obtain ⟨r, hr, hrt⟩ := hforget h t ht
      obtain ⟨r', hr', hrt'⟩ := hforget h' t' ht'
      rw [hsame, hr] at hr'
      obtain rfl := Option.some.inj hr'
      have hst : t.forget = t'.forget := hrt.symm.trans hrt'
      rw [(hagrees h hh t ht).outcome, (hagrees h' (hsame ▸ hh) t' ht').outcome, hst,
        (NodeState.forget_inj hst).2]
    · intro h hh t ht hkey lba len
      rw [(hagrees h hh t ht).outcome, nodeEnv, hkey]

/-! ## A file with a key -/

def lockedRecord : Inode :=
  ({ plainRecord with uid := 5, flags := Inode.iflagEncrypted }.withSize 1).directSlotSet 0 7

def lockedNode : NodeState where
  fs := (markedFs.setBlock 2 (Bytes.zero.putBit 0 true)).setBlock (markedFs.superblock.inodeBlock 1)
    ((markedFs.device.data (markedFs.superblock.inodeBlock 1)).splice
      (markedFs.superblock.inodeOffset 1) Inode.byteSize lockedRecord.encode)
  inode := lockedRecord

def addOne (_ : UInt32) : Option (Nat → Bytes → Bytes) := some fun _ buf j => buf j + 1

def noKeys (_ : UInt32) : Option (Nat → Bytes → Bytes) := none

/-- User 7 reads, the owner writes and truncates: with no key in the system others may read in
between; with a key they may not, from the first state on. -/
theorem readsAlone_iff_locked :
    ReadsAlone 7 [.read ⟨7, 0, 1⟩, .call (.write noKeys 1 5 0 [9, 9]), .read ⟨7, 0, 1⟩,
      .call (.truncate noKeys 1 5 1)] lockedNode ∧
    ¬ ReadsAlone 7 [.read ⟨7, 0, 1⟩, .call (.write addOne 1 5 0 [9, 9]), .read ⟨7, 0, 1⟩,
      .call (.truncate addOne 1 5 1)] lockedNode := by
  refine ⟨(readsAlone_iff rfl 7 _).mpr fun _ _ t _ => .inr (.inr rfl), fun h => ?_⟩
  have hfree := (readsAlone_iff rfl 7 _).mp h [] (List.nil_prefix) lockedNode rfl
  rw [KeyFree] at hfree
  revert hfree
  decide +kernel

/-- The owner reads the file, and the bytes it was decrypted to go to user 7, who has no key. -/
theorem read_gives_plaintext : encryptionKey addOne lockedRecord 7 = none ∧
    (after [(.read ⟨5, 0, 1⟩ : Event addOne 1)] lockedNode).map
      (fun t => outcome (readAs addOne 1 ⟨7, 0, 1⟩ t)) = some (.ok [1]) ∧
    ¬ ReadsAlone 7 ([] : List (Event addOne 1)) lockedNode := by
  have hplain : outcome (readAs addOne 1 ⟨7, 0, 1⟩ (final (readAs addOne 1 ⟨5, 0, 1⟩ lockedNode)))
      = .ok [1] := by decide +kernel
  have hraw : outcome (readAs addOne 1 ⟨7, 0, 1⟩ lockedNode) = .ok [0] := by decide +kernel
  refine ⟨rfl, congrArg some hplain, fun h => ?_⟩
  have hsame := h.same [.read ⟨5, 0, 1⟩] [] List.nil_prefix rfl _ _ rfl rfl 0 1
  rw [hplain, hraw] at hsame
  exact absurd hsame (by decide)

end

end Fs
end Twilight

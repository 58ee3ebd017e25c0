/-
Operations of an open file that do not look into the file cache.

`forget` empties the file cache.  What `write` and `truncate` do to the rest of the
state, and what they return, is determined by the rest of the state; the parts of
`read` that go to the device are readers of it.
-/
import Twilight.Lib.Views
import Twilight.Fs.Node

namespace Twilight.Fs

open Prog Node TwilightFs

/-- The file system with nothing in its file cache. -/
def TwilightFs.forget (s : TwilightFs) : TwilightFs :=
  { s with
    shared := { s.shared with
      fileCache := ⟨0, FileContentCache.empty⟩
      fileStamp := Nat.zero_le s.shared.generation } }

def NodeState.forget (s : NodeState) : NodeState := { s with fs := s.fs.forget }

lemma NodeState.forget_inj {s t : NodeState} (h : s.forget = t.forget) :
    s.fs.forget = t.fs.forget ∧ s.inode = t.inode := NodeState.mk.inj h

/-! ## The disk -/

namespace TwilightFs

lemma device_of_forget {s t : TwilightFs} (h : s.forget = t.forget) : s.device = t.device := by
  have hd : s.forget.device = t.forget.device := by rw [h]
  exact hd

@[simp] lemma reader_readTfsBlocks (z n : Nat) : Reader forget (readTfsBlocks z n) where
  keeps s := by
    rw [readTfsBlocks]
    split
    · rfl
    · rfl
  sees s t hst := by
    rw [readTfsBlocks, readTfsBlocks, device_of_forget hst]
    split
    · rfl
    · rfl

@[simp] lemma reader_readTfsBlock (z : Nat) : Reader forget (readTfsBlock z) :=
  (reader_readTfsBlocks z 1).bind fun bufs => .pure (bufs 0)

@[simp] lemma blind_readTfsBlock (z : Nat) : Blind forget (readTfsBlock z) :=
  (reader_readTfsBlock z).blind

@[simp] lemma blind_writeTfsBlocks (z : Nat) (bufs : List Bytes) :
    Blind forget (writeTfsBlocks z bufs) := by
  intro s t hst
  rw [writeTfsBlocks, writeTfsBlocks, device_of_forget hst]
  split
  · exact ⟨rfl, congrArg (fun u : TwilightFs => { u with device :=
      { t.device with data := Device.store t.device.data (Device.index z) bufs } }) hst⟩
  · exact ⟨rfl, hst⟩

@[simp] lemma blind_writeTfsBlock (z : Nat) (buf : Bytes) : Blind forget (writeTfsBlock z buf) :=
  blind_writeTfsBlocks z [buf]

@[simp] lemma blind_readOnly {ε α : Type} {x : FsM ε α} (e : ε) (h : Blind forget x) :
    Blind forget (do if (← get).isReadOnly then throw e else x) :=
  .get (fun _ => rfl) fun _ => .ite (.throw e) h

@[simp] lemma blind_findClear (scan : Nat → Bytes → Option Nat) (start i n : Nat) :
    Blind forget (findClear scan start i n) := by
  induction n generalizing i with
  | zero => simp [findClear]
  | succ n ih =>
    rw [findClear]
    refine .bind (by simp) fun buf => ?_
    split <;> simp [ih]

lemma blind_allocateZone : Blind forget allocateZone := by
  refine .get (fun _ => rfl) fun s => .bind (by simp) fun found => ?_
  split
  · simp
  · exact .ite (by simp) (.bind (by simp) (by simp))

lemma blind_deallocZone (z : Nat) : Blind forget (deallocZone z) :=
  .get (fun _ => rfl) fun _ => .ite (by simp) (.ite (by simp) (.bind (by simp) (by simp)))

lemma blind_grabZones (sb : Superblock) (count i n : Nat) (zones : List Nat) :
    Blind forget (grabZones sb count i n zones) := by
  induction n generalizing i zones with
  | zero => simp [grabZones]
  | succ n ih =>
    rw [grabZones]
    refine .ite (by simp) (.bind (by simp) fun buf => ?_)
    dsimp only
    exact .ite (.bind (by simp) fun _ => ih _ _) (ih _ _)

lemma blind_deallocZones {ε : Type} (zones : List Nat) :
    Blind forget (deallocZones zones : FsM ε Unit) := by
  induction zones with
  | nil => simp [deallocZones]
  | cons z rest ih => exact (blind_deallocZone z).attempt.bind fun _ => ih

lemma blind_allocateZones (count : Nat) : Blind forget (allocateZones count) :=
  .get (fun _ => rfl) fun _ => (blind_grabZones _ _ _ _ _).bind fun zones =>
    .ite ((blind_deallocZones zones).bind (by simp)) (by simp)

lemma blind_writeInode (n : Nat) (i : Inode) : Blind forget (writeInode n i) :=
  .get (fun _ => rfl) fun _ => .ite (by simp) (.bind (by simp) (by simp))

lemma blind_modifyFiles {ε : Type} (f : FileContentCache → FileContentCache) :
    Blind forget (modifyFiles f : FsM ε Unit) := .modify fun _ _ hst => hst

end TwilightFs

/-! ## The node -/

namespace Node

section

variable {ε α : Type} {x : FsM ε α}

@[simp] lemma blind_onFs (h : Blind TwilightFs.forget x) : Blind NodeState.forget (onFs x) := by
  intro s t hst
  obtain ⟨hfs, hi⟩ := NodeState.forget_inj hst
  obtain ⟨ho, hv⟩ := h s.fs t.fs hfs
  rw [onFs, onFs]
  cases hs : x s.fs <;> cases ht : x t.fs <;> rw [hs, ht] at ho hv <;> cases ho
  · exact ⟨rfl, congrArg₂ NodeState.mk hv hi⟩
  · exact ⟨rfl, congrArg₂ NodeState.mk hv hi⟩

@[simp] lemma reader_onFs (h : Reader TwilightFs.forget x) :
    Reader NodeState.forget (onFs x) where
  keeps s := by
    have hs := h.keeps s.fs
    rw [onFs]
    cases hr : x s.fs <;> rw [hr] at hs
    · exact congrArg (NodeState.mk · s.inode) hs
    · exact congrArg (NodeState.mk · s.inode) hs
  sees s t hst := (blind_onFs h.blind s t hst).1

@[simp] lemma blind_setInode (f : Inode → Inode) : Blind NodeState.forget (setInode f) :=
  .modify fun _ _ hst => by
    obtain ⟨hfs, hi⟩ := NodeState.forget_inj hst
    exact congrArg₂ NodeState.mk hfs (congrArg f hi)

end

/-! ### Reading -/

lemma reader_doubleZones (zs : List Nat) : Reader NodeState.forget (doubleZones zs) := by
  induction zs with
  | nil => simp [doubleZones]
  | cons z rest ih => exact .bind (by simp) fun _ => ih.bind fun _ => .pure _

lemma reader_zonesBelow (z : Nat) {collect : Bytes → NodeM (List Nat)}
    (h : ∀ buf, Reader NodeState.forget (collect buf)) :
    Reader NodeState.forget (zonesBelow z collect) := by
  refine .ite (by simp) (.bind (by simp) fun found => ?_)
  split <;> simp [h]

lemma reader_allZones (i : Inode) : Reader NodeState.forget (allZones i) :=
  (reader_zonesBelow _ (by simp)).bind fun _ =>
    (reader_zonesBelow _ fun _ => reader_doubleZones _).bind (by simp)

lemma reader_readRuns (env : NodeEnv) (i : Inode) (fileSize : Nat) (zones : List Nat)
    (offset : Nat) (out : Bytes) :
    Reader NodeState.forget (readRuns env i fileSize zones offset out) := by
  induction zones, offset, out using readRuns.induct env i fileSize with
  | case1 offset out => simp [readRuns]
  | case2 offset out z rest runLen ih =>
    rw [readRuns]
    exact .bind (by simp) fun bufs => .ite (by simp) (ih bufs)

lemma reader_readAllFile (env : NodeEnv) (i : Inode) :
    Reader NodeState.forget (readAllFile env i) :=
  .ite (by simp) ((reader_allZones i).bind fun _ => (reader_readRuns ..).bind (by simp))

lemma reader_zoneOf (i : Inode) (b : Nat) : Reader NodeState.forget (zoneOf i b) :=
  .ite (by simp) (.ite (.ite (by simp) (.bind (by simp) (by simp)))
    (.ite (.ite (by simp) (.bind (by simp) fun _ => .ite (by simp) (.bind (by simp) (by simp))))
      (by simp)))

lemma reader_readOps (i : Inode) (pos remaining : Nat) :
    Reader NodeState.forget (readOps i pos remaining) := by
  induction pos, remaining using readOps.induct with
  | case1 pos => simp [readOps]
  | case2 pos remaining hne ih =>
    rw [readOps]
    exact .ite (by simp) ((reader_zoneOf ..).bind fun _ => .ite (by simp) (ih.bind (by simp)))

lemma reader_readPieces (env : NodeEnv) (i : Inode) (ops : List ReadOp) :
    Reader NodeState.forget (readPieces env i ops) := by
  induction ops using readPieces.induct with
  | case1 => simp [readPieces]
  | case2 op rest hwhole runLen ih =>
    rw [readPieces, if_pos hwhole]
    exact .bind (by simp) fun bufs => ih.bind (by simp)
  | case3 op rest hpart ih =>
    rw [readPieces, if_neg hpart]
    exact .bind (by simp) fun buf => ih.bind (by simp)

/-! ### Writing -/

lemma blind_preallocate (i : Inode) (lba total : Nat) :
    Blind NodeState.forget (preallocate i lba total) := by
  refine .ite (by simp) (.bind (.attempt (blind_onFs (blind_readOnly _ (blind_allocateZones _))))
    fun r => ?_)
  split <;> simp

lemma blind_getNewZone (l : List Nat) : Blind NodeState.forget (getNewZone l) := by
  cases l with
  | nil => exact .bind (blind_onFs (blind_readOnly _ blind_allocateZone)) (by simp)
  | cons z rest => simp [getNewZone]

lemma blind_fillBlocks {τ : Type} {get : τ → Nat → Nat} {set : τ → Nat → Nat → τ}
    {index : Nat → Nat} {cap lba total : Nat} {table : τ} {dirty : Bool} {pr : Progress} :
    Blind NodeState.forget (fillBlocks get set index cap lba total table dirty pr) := by
  induction table, dirty, pr using fillBlocks.induct get set index cap lba total with
  | case1 table dirty pr hdone =>
    rw [fillBlocks, if_pos hdone]
    simp
  | case2 table dirty pr hdone pos idx hcap =>
    rw [fillBlocks, if_neg hdone, if_pos hcap]
    simp
  | case3 table dirty pr hdone pos idx hcap copySize hzero ih =>
    rw [fillBlocks, if_neg hdone, if_neg hcap, if_pos hzero]
    exact (blind_getNewZone _).bind fun p => ih p.1 p.2
  | case4 table dirty pr hdone pos idx hcap copySize hzone ih =>
    rw [fillBlocks, if_neg hdone, if_neg hcap, if_neg hzone]
    exact ih

/-- A pointer block is written back if it has changed. -/
lemma blind_storeBack (pointer : Inode → Nat) (buf : Bytes) (dirty : Bool) (pr : Progress) :
    Blind NodeState.forget (if dirty then do
      onFs (writeTfsBlock (pointer (← get).inode) buf)
      pure pr
    else pure pr) := .ite (.get (fun _ => rfl) fun _ => .bind (by simp) (by simp)) (by simp)

lemma blind_writeSingle (lba total : Nat) (pr : Progress) :
    Blind NodeState.forget (writeSingle lba total pr) := by
  refine .get (fun _ => rfl) fun s => .ite ?_ ?_
  · exact (blind_getNewZone _).bind fun p => .bind (by simp) fun _ =>
      blind_fillBlocks.bind fun q => blind_storeBack Inode.singleIndirectGet q.1 q.2.1 q.2.2
  · exact .bind (by simp) fun buf =>
      blind_fillBlocks.bind fun q => blind_storeBack Inode.singleIndirectGet q.1 q.2.1 q.2.2

lemma blind_writeL1 {lba total l1Idx : Nat} {root : Bytes} {rootDirty : Bool} {pr : Progress} :
    Blind NodeState.forget (writeL1 lba total l1Idx root rootDirty pr) := by
  induction h : 511 - l1Idx generalizing l1Idx root rootDirty pr with
  | zero =>
    rw [writeL1, if_pos (.inr (by omega))]
    simp
  | succ n ih =>
    rw [writeL1]
    refine .ite (by simp) (.ite ?_ ?_)
    · exact (blind_getNewZone _).bind fun p => blind_fillBlocks.bind fun q =>
        .ite (.bind (by simp) fun _ => ih (by omega)) (ih (by omega))
    · exact .bind (by simp) fun buf => blind_fillBlocks.bind fun q =>
        .ite (.bind (by simp) fun _ => ih (by omega)) (ih (by omega))

lemma blind_writeDouble (lba total : Nat) (pr : Progress) :
    Blind NodeState.forget (writeDouble lba total pr) := by
  refine .get (fun _ => rfl) fun s => .ite ?_ ?_
  · exact (blind_getNewZone _).bind fun p => .bind (by simp) fun _ =>
      blind_writeL1.bind fun q => blind_storeBack Inode.doubleIndirectGet q.1 q.2.1 q.2.2
  · exact .bind (by simp) fun buf =>
      blind_writeL1.bind fun q => blind_storeBack Inode.doubleIndirectGet q.1 q.2.1 q.2.2

lemma blind_writeIndirect (lba total : Nat) (pr : Progress) :
    Blind NodeState.forget (writeIndirect lba total pr) :=
  .ite (.bind (blind_writeSingle _ _ _) fun _ => .ite (blind_writeDouble _ _ _) (by simp)) (by simp)

lemma blind_writeBlocks (start : Nat) (bufs : List Bytes) :
    Blind NodeState.forget (writeBlocks start bufs) :=
  .get (fun s => rfl) fun s => .ite (by simp) (by simp)

lemma blind_flushOps (data : List UInt8) (ops : List WriteOp) :
    Blind NodeState.forget (flushOps data ops) := by
  induction h : ops.length using Nat.strong_induction_on generalizing ops with
  | h n ih =>
    cases ops with
    | nil => simp [flushOps]
    | cons op rest =>
      have hpos := runLength_pos WriteOp.joined op rest
      have hrest := ih _ (by rw [← h, List.length_drop, List.length_cons]; omega)
        ((op :: rest).drop (runLength WriteOp.joined (op :: rest))) rfl
      have hstore : ∀ buf, Blind NodeState.forget (do
          onFs (writeTfsBlock op.zone buf)
          flushOps data ((op :: rest).drop (runLength WriteOp.joined (op :: rest)))) := by
        simp [hrest]
      rw [flushOps]
      exact .ite (.bind (blind_writeBlocks _ _) fun _ => hrest) (.ite (hstore _)
        (.ite (.bind (by simp) fun _ => hstore _) (.bind (by simp) fun _ => hstore _)))

lemma blind_flush (env : NodeEnv) (i : Inode) (data : List UInt8) (ops : List WriteOp) :
    Blind NodeState.forget (flush env i data ops) := by
  have hencrypted : Blind NodeState.forget (flushEncrypted env i data ops) := by
    induction ops with
    | nil => simp [flushEncrypted]
    | cons op rest ih =>
      exact .ite (.bind (by simp) fun _ => .bind (by simp) fun _ => .bind (by simp) fun _ => ih)
        (.bind (by simp) fun _ => .bind (by simp) fun _ => ih)
  simp [flush, hencrypted, blind_flushOps]

lemma blind_freeZones (zones : List Nat) : Blind NodeState.forget (freeZones zones) := by
  induction zones with
  | nil => simp [freeZones]
  | cons z rest ih =>
    exact .bind (.attempt (blind_onFs (blind_readOnly _ (blind_deallocZone z)))) fun _ => ih

lemma blind_storeInode (env : NodeEnv) (e : NodeError) :
    Blind NodeState.forget (storeInode env e) := by
  refine .get (fun _ => rfl) fun s =>
    .bind (.attempt (blind_onFs (blind_readOnly _ (blind_writeInode _ _)))) fun r => ?_
  split
  · exact blind_onFs (blind_modifyFiles _)
  · simp

lemma blind_write (env : NodeEnv) (lba : Nat) (data : List UInt8) :
    Blind NodeState.forget (write env lba data) := by
  refine .ite (by simp) (.ite (by simp) (.get (fun _ => rfl) fun s => ?_))
  refine (blind_preallocate _ _ _).bind fun zones => Blind.bind blind_fillBlocks fun p => ?_
  refine (blind_writeIndirect _ _ _).bind fun pr => .get (fun _ => rfl) fun s => ?_
  exact (blind_flush _ _ _ _).bind fun _ => (blind_freeZones _).bind fun _ =>
    .bind (by simp) fun _ => blind_storeInode env _

lemma blind_writeZeros (env : NodeEnv) (offset remaining : Nat) :
    Blind NodeState.forget (writeZeros env offset remaining) := by
  induction offset, remaining using writeZeros.induct with
  | case1 offset => simp [writeZeros]
  | case2 offset remaining hne n ih =>
    rw [writeZeros, if_neg hne]
    exact (blind_write env _ _).bind fun _ => ih

lemma blind_truncate (env : NodeEnv) (len : Nat) : Blind NodeState.forget (truncate env len) :=
  .get (fun _ => rfl) fun _ => .ite (by simp)
    (.ite (.bind (by simp) fun _ => blind_storeInode env _) (blind_writeZeros env _ _))

end Node

end Twilight.Fs

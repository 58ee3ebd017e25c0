/-
The rules of the operations of an open file on a volume.

A node sees a volume and its own copy of an inode; `NSpec` is the specification of
a node operation on both.  While `write` looks its zones up, the volume is the one
it started on with some zones marked: the ones it has given to blocks and the ones
it still holds in advance.
-/
import Twilight.Fs.Node
import Twilight.Fs.Owned

namespace Twilight.Fs

open TwilightFs List Prog Device Prod Node

/-! ## Transfers of several blocks -/

section

variable {V : Volume} {z : Nat}

lemma Layout.inRange_blocks {s : TwilightFs} (h : Layout s.volume.mount) {n : Nat} (hn : 0 < n)
    (hz : ∀ j < n, s.volume.IsData (z + j)) : s.device.inRange z n = true := by
  have hlast : z + (n - 1) < s.superblock.zones := (hz (n - 1) (by omega)).2
  have hdev : 4 * s.superblock.zones ≤ s.device.sectors := h.onDevice
  exact inRange_of_le h.addressable (by omega) hn

lemma spec_readTfsBlocks {n : Nat} (hn : 0 < n) {Q : Post FsError (Nat → Bytes)}
    (h : Layout V.mount) (hz : ∀ j < n, V.IsData (z + j))
    (hQ : ∀ bufs, (∀ j < n, bufs j = V.block (z + j)) → Q (.ok bufs) V) :
    Spec (readTfsBlocks z n) Q V := by
  rintro s rfl
  have hrun : readTfsBlocks z n s = .ok (fun j => s.device.data (index z + j)) s :=
    if_pos (h.inRange_blocks hn hz)
  have hfirst : z < s.superblock.zones := (hz 0 hn).2
  rw [hrun, h.mapped.index hfirst]
  refine hQ _ fun j hj => ?_
  have hb : s.volume.block (z + j) = s.device.data (z + j) := if_pos (hz j hj)
  exact hb.symm

lemma volume_store {s : TwilightFs} (h : Layout s.volume.mount) {bufs : List Bytes}
    (hz : ∀ j < bufs.length, s.volume.IsData (z + j)) :
    volume { s with device := { s.device with data := store s.device.data z bufs } }
      = { s.volume with block := store s.volume.block z bufs } := by
  induction bufs generalizing s z with
  | nil => rfl
  | cons b bufs ih =>
    have hone : (s.setBlock z b).volume = s.volume.putBlock z b :=
      volume_setBlock_data h (hz 0 (by simp))
    have hrest := ih (s := s.setBlock z b) (z := z + 1) h fun j hj => by
      have := hz (j + 1) (by simpa using hj)
      rwa [Nat.add_comm j 1, ← Nat.add_assoc] at this
    rw [hone] at hrest
    exact hrest

lemma spec_writeTfsBlocks {bufs : List Bytes} (hn : 0 < bufs.length)
    {Q : Post FsError Unit} (h : Layout V.mount) (hz : ∀ j < bufs.length, V.IsData (z + j))
    (hQ : Q (.ok ()) { V with block := store V.block z bufs }) :
    Spec (writeTfsBlocks z bufs) Q V := by
  rintro s rfl
  have hfirst : z < s.superblock.zones := (hz 0 hn).2
  rw [writeTfsBlocks, if_pos (h.inRange_blocks hn hz), outcome_ok, final_ok,
    h.mapped.index hfirst, volume_store h hz]
  exact hQ

end

/-! ## Node operations -/

def NodeState.view (s : NodeState) : Volume × Inode := (s.fs.volume, s.inode)

abbrev NPost (α : Type) := Except NodeError α → Volume → Inode → Prop

/-- Every run from a state with volume `V` and record `i` ends in an outcome, a volume
and a record that satisfy `Q`. -/
def NSpec {α : Type} (x : NodeM α) (Q : Except NodeError α → Volume → Inode → Prop) (V : Volume)
    (i : Inode) : Prop := Prog.Wp NodeState.view x (fun r p => Q r p.1 p.2) (V, i)

section Rules

variable {α β ε : Type} {V : Volume} {i : Inode} {x : NodeM α} {Q : NPost Unit} {z : Nat}

lemma NSpec.mono {Q R : NPost α}
    (h : NSpec x Q V i) (hQ : ∀ r W j, Q r W j → R r W j) : NSpec x R V i :=
  Prog.Wp.mono h fun r p => hQ r p.1 p.2

lemma NSpec.pure {a : α} {Q : NPost α} (h : Q (.ok a) V i) :
    NSpec (Pure.pure a) Q V i := Prog.Wp.pure h

lemma NSpec.bind {f : α → NodeM β} {Q : NPost β} (h : NSpec x (fun r W j => match r with
      | .ok a => NSpec (f a) Q W j
      | .error e => Q (.error e) W j) V i) : NSpec (x >>= f) Q V i := by
  refine Prog.Wp.bind (Prog.Wp.mono h ?_)
  rintro (e | a) ⟨W, j⟩ hr
  · exact hr
  · exact hr

lemma NSpec.attempt {Q : NPost (Except NodeError α)}
    (h : NSpec x (fun r W j => Q (.ok r) W j) V i) : NSpec (Prog.attempt x) Q V i :=
  Prog.Wp.attempt h

lemma nspec_get {Q : NPost NodeState}
    (hQ : ∀ s : NodeState, s.fs.volume = V → s.inode = i → Q (.ok s) V i) : NSpec get Q V i := by
  intro s hs
  have hV : s.fs.volume = V := congrArg fst hs
  have hi : s.inode = i := congrArg snd hs
  rw [get_run, outcome_ok, final_ok, hs]
  exact hQ s hV hi

lemma nspec_setInode {f : Inode → Inode}
    (hQ : Q (.ok ()) V (f i)) : NSpec (setInode f) Q V i := by
  intro s hs
  have hV : s.fs.volume = V := congrArg fst hs
  have hi : s.inode = i := congrArg snd hs
  subst hV hi
  exact hQ

lemma nspec_onFs {x : FsM ε α} {Q : NPost α}
    (h : Spec x (fun r W => Q (r.mapError fun _ => .failed) W i) V) : NSpec (onFs x) Q V i := by
  intro s hs
  have hV : s.fs.volume = V := congrArg fst hs
  have hi : s.inode = i := congrArg snd hs
  have hx := h s.fs hV
  simp only [onFs]
  cases hr : x s.fs with
  | ok a fs =>
    rw [hr] at hx
    rw [← hi] at hx
    exact hx
  | error e fs =>
    rw [hr] at hx
    rw [← hi] at hx
    exact hx

lemma nspec_readTfsBlock {Q : NPost Bytes}
    (h : Layout V.mount) (hz : V.IsData z) (hQ : Q (.ok (V.block z)) V i) :
    NSpec (onFs (readTfsBlock z)) Q V i := nspec_onFs (spec_readTfsBlock h hz hQ)

lemma nspec_writeTfsBlock {buf : Bytes}
    (h : Layout V.mount) (hz : V.IsData z) (hQ : Q (.ok ()) (V.putBlock z buf) i) :
    NSpec (onFs (writeTfsBlock z buf)) Q V i := nspec_onFs (spec_writeTfsBlock h hz hQ)

lemma nspec_writeBlocks {bufs : List Bytes} (hn : 0 < bufs.length) (h : Layout V.mount)
    (hz : ∀ j < bufs.length, V.IsData (z + j))
    (hQ : Q (.ok ()) { V with block := store V.block z bufs } i) :
    NSpec (writeBlocks z bufs) Q V i := by
  refine NSpec.bind (nspec_get fun s hs _ => ?_)
  subst hs
  have hsize : s.fs.superblock.blockSize = 2048 := h.blockSize
  have hcheck : (s.fs.isReadOnly || bufs.length * 2048 % s.fs.superblock.blockSize != 0) = false := by
    rw [isReadOnly_eq_false h, hsize, Nat.mul_mod_left]
    rfl
  simp only [hcheck, Bool.false_eq_true, if_false]
  exact nspec_onFs (spec_writeTfsBlocks hn h hz hQ)

lemma nspec_freeZones {zs : List Nat}
    (h : Layout V.mount) (hz : ∀ z ∈ zs, V.IsData z) (hQ : Q (.ok ()) (V.setZones zs false) i) :
    NSpec (freeZones zs) Q V i := by
  induction zs generalizing V with
  | nil => exact NSpec.pure hQ
  | cons z zs ih =>
    refine NSpec.bind (NSpec.attempt (nspec_onFs (spec_writable h
      (spec_deallocZone h.mapped (hz z mem_cons_self) ?_))))
    refine ih (V := V.setZmap z false) h (fun y hy => hz y (mem_cons_of_mem _ hy)) ?_
    rw [← Volume.setZones_cons]
    exact hQ

lemma nspec_storeInode {env : NodeEnv} {e : NodeError} (h : Layout V.mount)
    (hn : V.IsInode env.inodeNo) (hQ : Q (.ok ()) { V.putInode env.inodeNo i with
      files := V.files.invalidateInode env.inodeNo } i) :
    NSpec (storeInode env e) Q V i := by
  refine NSpec.bind (nspec_get fun s _ hs => ?_)
  subst hs
  refine NSpec.bind (NSpec.attempt (nspec_onFs (spec_writable h (spec_writeInode h hn ?_))))
  exact nspec_onFs (spec_modifyFiles hQ)

end Rules

/-! ## New zones -/

namespace Volume

def taking (V : Volume) (T : List Nat) (B : Nat → Bytes) : Volume :=
  { V.setZones T true with block := B }

variable {V : Volume} {T : List Nat} {B : Nat → Bytes}

lemma taking_zmap (z : Nat) : (V.taking T B).zmap z = if z ∈ T then true else V.zmap z := rfl

lemma taking_setZmap {z : Nat} :
    (V.taking T B).setZmap z true = V.taking (T ++ [z]) B := by
  unfold taking setZmap setZones
  congr 2
  funext y
  by_cases hy : y = z
  · subst hy
    simp
  · by_cases hmem : y ∈ T
    · simp [hy, hmem]
    · simp [hy, hmem]

lemma taking_putBlock {z : Nat} {buf : Bytes} :
    (V.taking T B).putBlock z buf = V.taking T (Function.update B z buf) := rfl

end Volume

lemma Disk.Fresh.snoc {V : Volume} {T : List Nat} {B : Nat → Bytes} {z : Nat} (h : V.Fresh T)
    (hz : (V.taking T B).FirstFreeZone z) : V.Fresh (T ++ [z]) := by
  have hfree := hz.free
  rw [Volume.taking_zmap] at hfree
  have hmem : z ∉ T := fun hmem => by simp [hmem] at hfree
  rw [if_neg hmem] at hfree
  refine ⟨?_, fun y hy => ?_, fun y hy => ?_⟩
  · rw [nodup_append]
    refine ⟨h.nodup, nodup_singleton z, fun x hx y hy hxy => hmem ?_⟩
    rw [← mem_singleton.mp hy, ← hxy]
    exact hx
  · obtain hy | hy := mem_append.mp hy
    · exact h.isData y hy
    · rw [mem_singleton.mp hy]
      exact hz.isData
  · obtain hy | hy := mem_append.mp hy
    · exact h.free y hy
    · rw [mem_singleton.mp hy]
      exact hfree

lemma Disk.Fresh.left {D : Disk} {A P : List Nat} (h : D.Fresh (A ++ P)) : D.Fresh A :=
  ⟨h.nodup.of_append_left, fun z hz => h.isData z (mem_append_left _ hz),
    fun z hz => h.free z (mem_append_left _ hz)⟩

lemma nspec_getNewZone {V : Volume} (h : Layout V.mount) {A P : List Nat} {B : Nat → Bytes}
    {i : Inode} (hfresh : V.Fresh (A ++ P)) {Q : NPost (Nat × List Nat)}
    (hok : ∀ z P', V.Fresh (A ++ [z] ++ P') → Q (.ok (z, P')) (V.taking (A ++ [z] ++ P') B) i)
    (hfull : P = [] → (V.taking A B).Full → Q (.error .failed) (V.taking A B) i) :
    NSpec (getNewZone P) Q (V.taking (A ++ P) B) i := by
  cases P with
  | cons z rest =>
    rw [append_cons] at hfresh ⊢
    exact NSpec.pure (hok z rest hfresh)
  | nil =>
    rw [append_nil] at hfresh ⊢
    refine NSpec.bind (nspec_onFs (spec_writable (V := V.taking A B) h
      (spec_allocateZone (V := V.taking A B) h.mapped (fun z hz => ?_) fun hall => ?_)))
    · have hz' := hfresh.snoc hz
      rw [Volume.taking_setZmap, ← append_nil (A ++ [z])]
      rw [← append_nil (A ++ [z])] at hz'
      exact NSpec.pure (hok z [] hz')
    · exact hfull rfl hall

end Twilight.Fs

/-
What a file reads as after any writes and truncates through one node.

Beside the node a run keeps what is to be read: for every position below the size
the byte last written there, or nothing if no write has covered the position since
the file was last shorter.  As long as writes start in the file or at its end, the
node reads these bytes, and 0 where there is nothing.  A write past the end
leaves what the zones held before.
-/
import Twilight.Lib.Machine
import Twilight.Fs.OpenFile
import Twilight.Fs.Fresh

namespace Twilight.Fs

open Node Function List TwilightFs Superblock Bytes

inductive FileOp
  | write (lba : Nat) (data : List UInt8)
  | truncate (len : Nat)
  | read (lba len : Nat)

structure FileState where
  node : NodeState
  expect : List (Option UInt8)

namespace FileState

variable (expect : List (Option UInt8))

/-- The positions from `lba` on are covered by `data`; positions between the old end and `lba`
are new and not covered. -/
def cover (lba : Nat) (data : List UInt8) : List (Option UInt8) :=
  if data = [] then expect
  else overwrite (expect ++ replicate (lba - expect.length) none) lba (data.map some)

/-- A new length; positions past the old end are not covered. -/
def resize (len : Nat) : List (Option UInt8) :=
  expect.take len ++ replicate (len - expect.length) none

/-- A call that fails covers nothing. -/
def after {α : Type} (s : FileState) (r : EStateM.Result NodeError NodeState α)
    (expect : List (Option UInt8)) : FileState :=
  match r with
  | .ok _ node => ⟨node, expect⟩
  | .error _ node => ⟨node, s.expect⟩

def step (env : NodeEnv) (s : FileState) : FileOp → FileState
  | .write lba data => s.after (write env lba data s.node) (cover s.expect lba data)
  | .truncate len => s.after (truncate env len s.node) (resize s.expect len)
  | .read lba len => s.after (read env lba len s.node) s.expect

/-- Every read returns the bytes to be read, and 0 at positions that are not covered. -/
def Reads (env : NodeEnv) (s : FileState) : Prop :=
  s.node.inode.size.toNat = s.expect.length ∧
    ∀ lba len, Prog.outcome (read env lba len s.node)
      = .ok (((s.expect.map (·.getD 0)).drop lba).take len)

/-- A write starts in the file or at its end, and the file stays within `cap` blocks. -/
def InFile (cap : Nat) (s : FileState) : FileOp → Prop
  | .write lba data =>
    data = [] ∨ (lba ≤ s.node.inode.size.toNat ∧ lba + data.length ≤ cap * 2048)
  | .truncate len => len ≤ cap * 2048
  | .read _ _ => True

instance (cap : Nat) (s : FileState) (op : FileOp) : Decidable (InFile cap s op) := by
  cases op <;> unfold InFile <;> infer_instance

def start (node : NodeState) : FileState := ⟨node, (node.fs.volume.content node.inode).map some⟩

/-- The file holds the bytes to be read, and there are free zones for `cap` blocks. -/
structure Holds (env : NodeEnv) (cap : Nat) (s : FileState) (m : Nat) : Prop where
  opened : s.node.fs.volume.Opened env s.node.inode m
  blocks : m ≤ cap
  space : zonesFor cap ≤ s.node.fs.volume.freeZones.card + zonesFor m
  content : s.node.fs.volume.content s.node.inode = s.expect.map (·.getD 0)

variable {env : NodeEnv} {cap m : Nat} {s : FileState}

lemma Holds.size (h : Holds env cap s m) : s.node.inode.size.toNat = s.expect.length := by
  rw [← Disk.length_content, h.content, length_map]

lemma Holds.reads (h : Holds env cap s m) : Reads env s := by
  refine ⟨h.size, fun lba len => ?_⟩
  rw [← h.content]
  exact h.opened.read (Q := fun r _ _ => r = .ok _) (fun _ _ _ _ => rfl) s.node rfl

lemma Holds.after {α : Type} {x : NodeM α} {expect : List (Option UInt8)}
    (hx : NSpec x (fun r V' i' => (∃ a, r = .ok a) ∧ ∃ m', V'.Opened env i' m' ∧ m' ≤ cap ∧
      zonesFor cap ≤ V'.freeZones.card + zonesFor m' ∧ V'.content i' = expect.map (·.getD 0))
      s.node.fs.volume s.node.inode) :
    ∃ m', Holds env cap (s.after (x s.node) expect) m' := by
  have hrun := hx s.node rfl
  cases hr : x s.node with
  | ok a node =>
    rw [hr] at hrun
    obtain ⟨-, m', h1, h2, h3, h4⟩ := hrun
    exact ⟨m', h1, h2, h3, h4⟩
  | error e node =>
    rw [hr] at hrun
    obtain ⟨⟨a, ha⟩, -⟩ := hrun
    cases ha

lemma map_cover {expect : List (Option UInt8)} {lba : Nat} {data : List UInt8}
    (hdata : data ≠ []) (hlba : lba ≤ expect.length) :
    (cover expect lba data).map (·.getD 0) = overwrite (expect.map (·.getD 0)) lba data := by
  rw [cover, if_neg hdata, Nat.sub_eq_zero_of_le hlba, replicate_zero, append_nil,
    map_overwrite, map_map]
  congr 1
  exact map_id' data

lemma map_resize (len : Nat) :
    (resize expect len).map (·.getD 0)
      = (expect.map (·.getD 0)).take len ++ replicate (len - expect.length) 0 := by
  simp [resize, map_take]

lemma Holds.step (h : Holds env cap s m) (hcap : cap ≤ 1028) {op : FileOp}
    (hop : InFile cap s op) : ∃ m', Holds env cap (s.step env op) m' := by
  have hspace := h.space
  have hblocks := h.blocks
  cases op with
  | write lba data =>
    by_cases hdata : data = []
    · -- nothing happens
      subst hdata
      exact ⟨m, h⟩
    obtain ⟨hlba, hend⟩ := hop.resolve_left hdata
    have hpos : 0 < data.length := length_pos_iff.mpr hdata
    have hblock : max m (endBlock lba data.length) ≤ cap := by
      unfold endBlock
      omega
    have hmono := zonesFor_mono hblock
    have hend' : lba + data.length ≤ 1028 * 2048 := le_trans hend (Nat.mul_le_mul_right 2048 hcap)
    refine Holds.after (h.opened.write hpos hlba hend' (le_trans hmono hspace) ?_)
    intro V' i' hopen hcontent hfree
    refine ⟨⟨(), rfl⟩, _, hopen, hblock, by omega, ?_⟩
    rw [hcontent, h.content, map_cover hdata (h.size ▸ hlba)]
  | truncate len =>
    refine Holds.after (h.opened.truncate hcap hblocks hspace hop ?_)
    intro V' i' m' hopen hm' hcontent hfree
    refine ⟨⟨(), rfl⟩, m', hopen, hm', by omega, ?_⟩
    rw [hcontent, h.content, map_resize, h.size]
  | read lba len =>
    refine Holds.after (h.opened.read ?_)
    intro V' hopen hcontent hfree
    refine ⟨⟨_, rfl⟩, m, hopen, hblocks, by rw [hfree]; exact hspace, ?_⟩
    rw [hcontent, h.content]

end FileState

/-! ## A volume with one file -/

def plainRecord : Inode := Inode.newFile ⟨0, 0, 0⟩ 0o644

def markedFs : TwilightFs :=
  let fs := formatted (geometry 1024) ⟨1024, fun _ => zero⟩
  fs.setBlock (1 + 0) ((fs.device.data (1 + 0)).putBit 0 true)

def oneFile : TwilightFs :=
  markedFs.setBlock (markedFs.superblock.inodeBlock 1)
    ((markedFs.device.data (markedFs.superblock.inodeBlock 1)).splice
      (markedFs.superblock.inodeOffset 1) Inode.byteSize plainRecord.encode)

lemma oneFile_volume : ∃ V : Volume, Layout V.mount ∧ V.Blank ∧
    V.mount = ⟨geometry 1024, 1024, .readWrite⟩ ∧
    oneFile.volume = (V.setImap 1 true).putInode 1 plainRecord := by
  refine ⟨(formatted (geometry 1024) ⟨1024, fun _ => zero⟩).volume,
    geometry_small, formatted_blank geometry_small, rfl, ?_⟩
  have hmarked : markedFs.volume = (formatted (geometry 1024)
      ⟨1024, fun _ => zero⟩).volume.setImap 1 true :=
    volume_setBlock_imap (s := formatted (geometry 1024)
      ⟨1024, fun _ => zero⟩) geometry_small.mapped true (by decide) (by decide)
  rw [oneFile, volume_setBlock_inode (s := markedFs) geometry_small ⟨by decide, by decide⟩, hmarked]

def oneNode : NodeState := ⟨oneFile, plainRecord⟩

def oneEnv : NodeEnv := ⟨1, none⟩

lemma plainRecord_onlyZone : plainRecord.OnlyZone 0 :=
  Inode.onlyZone_of_blank (fun _ => rfl) rfl rfl

lemma oneFile_opened : oneFile.volume.Opened oneEnv plainRecord 0 := by
  obtain ⟨V, hl, hb, hm, hV⟩ := oneFile_volume
  have hrefs : ∀ n p, oneFile.volume.refOf (oneFile.volume.inode n) p = 0 := by
    intro n p
    have hone : (oneFile.volume.inode n).OnlyZone 0 := by
      rw [hV]
      by_cases hn : n = 1
      · have hself : ((V.setImap 1 true).putInode 1 plainRecord).inode n = plainRecord := by
          rw [hn]
          exact update_self 1 plainRecord V.inode
        rw [hself]
        exact plainRecord_onlyZone
      · have hother : ((V.setImap 1 true).putInode 1 plainRecord).inode n = V.inode n :=
          update_of_ne hn _ _
        rw [hother]
        exact hb.records n
    rw [hone.refOf]
    exact ite_self 0
  have hrecord : oneFile.volume.inode 1 = plainRecord := by
    rw [hV]
    exact update_self 1 plainRecord V.inode
  have hno : ∀ r z, ¬ oneFile.volume.Holds r z := by
    rintro r z ⟨-, hz, hr⟩
    rw [hrefs] at hr
    exact hz hr.symm
  refine ⟨?_, ⟨fun n _ b hne => absurd (hrefs n (.direct b)) hne, fun r z hr => absurd hr (hno r z),
    ⟨fun r z hr => absurd hr (hno r z), fun r _ z hr => absurd hr (hno r z)⟩⟩, ⟨?_, ?_⟩, hrecord, rfl,
    rfl, ⟨fun p => ?_, by decide, by decide⟩, .inl rfl⟩
  · rw [hV]
    exact hl
  · rw [hV]
    refine isInode_small (V := (V.setImap 1 true).putInode 1 plainRecord) hm (by decide) (by decide)
  · rw [hV]
    exact update_self 1 true V.imap
  · rw [← hrecord, hrefs]
    simp [places]

lemma oneFile_freeZones : 240 < oneFile.volume.freeZones.card := by
  obtain ⟨V, -, hb, hm, hV⟩ := oneFile_volume
  have hfree : oneFile.volume.freeZones = Finset.Ico 7 256 := by
    ext z
    rw [Disk.mem_freeZones, Finset.mem_Ico, hV]
    have hz : V.zmap z = false := hb.zmap z
    have hdata : V.IsData z ↔ 7 ≤ z ∧ z < 256 := by
      rw [Disk.IsData, Disk.sb, hm]
      exact Iff.rfl
    exact ⟨fun h => hdata.mp h.1, fun h => ⟨hdata.mpr h, hz⟩⟩
  rw [hfree, Nat.card_Ico]
  decide

namespace FileState

variable {env : NodeEnv} {cap m : Nat}

end FileState

end Twilight.Fs

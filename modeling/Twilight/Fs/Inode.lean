/-
The inode record of TwilightFS and its 204-byte image on disk.

The record is `#[repr(C, packed)]`, so the image is the fields one after the
other in little-endian order. `decode` is the `ptr::read` of a table block and
`encode` the byte view that is copied back; `decode_encode` says the two agree,
and `decode_congr` that a record depends on its own 204 bytes only.
-/
import Twilight.Lib.Bytes

namespace Twilight.Fs

open Bytes Function

structure Extent32 where
  startBlock : UInt32
  blockLen : UInt32
deriving DecidableEq

def inodeInlineBytes : Nat := 64

structure Inode where
  mode : UInt16
  nlinks : UInt16
  uid : UInt32
  gid : UInt32
  size : UInt64
  accessTime : UInt64
  modifiedTime : UInt64
  changeTime : UInt64
  createdTime : UInt64
  flags : UInt32
  generation : UInt64
  xattrBlock : UInt32
  pad0 : UInt32
  direct : Fin 6 → Extent32
  indirect : UInt32
  doubleIndirect : UInt32
  tripleIndirect : UInt32
  inlineData : Fin 64 → UInt8
  inodeChecksum : UInt32
  pad1 : UInt32

namespace Inode

/-- `size_of::<Inode>()` -/
def byteSize : Nat := 204

def directSlotCount : Nat := 6

def modeTypeMask : UInt16 := 0xF000
def modePermMask : UInt16 := 0x01FF
def modeDir : UInt16 := 0o040000
def modeFile : UInt16 := 0o100000
def modeSymlink : UInt16 := 0o120000
def modeSocket : UInt16 := 0o140000

def iflagEncrypted : UInt32 := 0b100
def iflagInlineData : UInt32 := 0b1000

structure Env where
  now : UInt64
  uid : UInt32
  gid : UInt32

variable (env : Env)

def base (mode : UInt16) : Inode where
  mode := mode
  nlinks := 1
  uid := env.uid
  gid := env.gid
  size := 0
  accessTime := env.now
  modifiedTime := env.now
  changeTime := env.now
  createdTime := env.now
  flags := 0
  generation := 0
  xattrBlock := 0
  pad0 := 0
  direct := fun _ => ⟨0, 0⟩
  indirect := 0
  doubleIndirect := 0
  tripleIndirect := 0
  inlineData := fun _ => 0
  inodeChecksum := 0
  pad1 := 0

variable (perms : UInt16)

def newFile : Inode := base env (modeFile ||| (perms &&& modePermMask))

def newDir : Inode := { base env (modeDir ||| (perms &&& modePermMask)) with nlinks := 2 }

def newSocket : Inode := base env (modeSocket ||| (perms &&& modePermMask))

def newSymlink : Inode := { base env (modeSymlink ||| 0o777) with flags := iflagInlineData }

variable (i : Inode)

def isDir : Bool := i.mode &&& modeTypeMask == modeDir
def isFile : Bool := i.mode &&& modeTypeMask == modeFile
def isSymlink : Bool := i.mode &&& modeTypeMask == modeSymlink
def isEncrypted : Bool := i.flags &&& iflagEncrypted != 0
def isInline : Bool := i.flags &&& iflagInlineData != 0

/-- The inline payload: the first `size` bytes of the inline area. -/
def inlineDataBytes : List UInt8 :=
  (List.ofFn i.inlineData).take (min i.size.toNat inodeInlineBytes)

/-- The zone of a direct slot; an extent of length 0 is no zone. -/
def directSlotGet (index : Nat) : Nat :=
  if h : index < 6 then
    if (i.direct ⟨index, h⟩).blockLen = 0 then 0 else (i.direct ⟨index, h⟩).startBlock.toNat
  else 0

def directSlotSet (index zone : Nat) : Inode :=
  if h : index < 6 then
    let extent : Extent32 := if zone = 0 then ⟨0, 0⟩ else ⟨UInt32.ofNat zone, 1⟩
    { i with direct := update i.direct ⟨index, h⟩ extent }
  else i

def withSize (size : UInt64) : Inode := { i with size := size }

def singleIndirectGet : Nat := i.indirect.toNat
def singleIndirectSet (zone : Nat) : Inode := { i with indirect := UInt32.ofNat zone }
def doubleIndirectGet : Nat := i.doubleIndirect.toNat
def doubleIndirectSet (zone : Nat) : Inode := { i with doubleIndirect := UInt32.ofNat zone }

/-! ## The slots -/

lemma directSlotGet_of_le {k : Nat} (h : 6 ≤ k) : i.directSlotGet k = 0 := dif_neg (by omega)

lemma directSlotGet_set {i : Inode} {k zone : Nat} (hk : k < 6) (hz : zone < 2 ^ 32) (j : Nat) :
    (i.directSlotSet k zone).directSlotGet j = if j = k then zone else i.directSlotGet j := by
  unfold directSlotSet directSlotGet
  rw [dif_pos hk]
  by_cases hj : j < 6
  · rw [dif_pos hj, dif_pos hj]
    by_cases hjk : j = k
    · subst hjk
      simp only [update_self, if_true]
      by_cases h0 : zone = 0
      · simp [h0]
      · simpa [h0] using hz
    · have hne : (⟨j, hj⟩ : Fin 6) ≠ ⟨k, hk⟩ := fun h => hjk (congrArg Fin.val h)
      simp only [update_of_ne hne, if_neg hjk]
  · have hjk : j ≠ k := by omega
    simp [hj, hjk]

variable (k zone : Nat)

lemma directSlotSet_size : (i.directSlotSet k zone).size = i.size := by
  unfold directSlotSet; split <;> rfl

lemma directSlotSet_mode : (i.directSlotSet k zone).mode = i.mode := by
  unfold directSlotSet; split <;> rfl

lemma directSlotSet_flags :
    (i.directSlotSet k zone).flags = i.flags := by
  unfold directSlotSet; split <;> rfl

lemma directSlotSet_indirect :
    (i.directSlotSet k zone).indirect = i.indirect := by
  unfold directSlotSet; split <;> rfl

lemma directSlotSet_doubleIndirect :
    (i.directSlotSet k zone).doubleIndirect = i.doubleIndirect := by
  unfold directSlotSet; split <;> rfl

variable (n : UInt64)

@[simp] lemma withSize_size : (i.withSize n).size = n := rfl
@[simp] lemma withSize_isDir : (i.withSize n).isDir = i.isDir := rfl
@[simp] lemma withSize_directSlotGet (k : Nat) :
    (i.withSize n).directSlotGet k = i.directSlotGet k := rfl
/-! ## The image on disk -/

variable (d : Fin 6 → Extent32)

def extentBytes : Bytes := fun k =>
  if h : k / 8 < 6 then
    if k % 8 < 4 then le (d ⟨k / 8, h⟩).startBlock.toNat (k % 8)
    else le (d ⟨k / 8, h⟩).blockLen.toNat (k % 8 - 4)
  else 0

def encode : Bytes :=
  zero
    |>.putLE 0 2 i.mode.toNat |>.putLE 2 2 i.nlinks.toNat
    |>.putLE 4 4 i.uid.toNat |>.putLE 8 4 i.gid.toNat
    |>.putLE 12 8 i.size.toNat |>.putLE 20 8 i.accessTime.toNat
    |>.putLE 28 8 i.modifiedTime.toNat |>.putLE 36 8 i.changeTime.toNat
    |>.putLE 44 8 i.createdTime.toNat |>.putLE 52 4 i.flags.toNat
    |>.putLE 56 8 i.generation.toNat |>.putLE 64 4 i.xattrBlock.toNat
    |>.putLE 68 4 i.pad0.toNat |>.splice 72 48 (extentBytes i.direct)
    |>.putLE 120 4 i.indirect.toNat |>.putLE 124 4 i.doubleIndirect.toNat
    |>.putLE 128 4 i.tripleIndirect.toNat
    |>.splice 132 64 (fun k => if h : k < 64 then i.inlineData ⟨k, h⟩ else 0)
    |>.putLE 196 4 i.inodeChecksum.toNat |>.putLE 200 4 i.pad1.toNat

def decode (b : Bytes) (off : Nat) : Inode where
  mode := UInt16.ofNat (b.readLE off 2)
  nlinks := UInt16.ofNat (b.readLE (off + 2) 2)
  uid := UInt32.ofNat (b.readLE (off + 4) 4)
  gid := UInt32.ofNat (b.readLE (off + 8) 4)
  size := UInt64.ofNat (b.readLE (off + 12) 8)
  accessTime := UInt64.ofNat (b.readLE (off + 20) 8)
  modifiedTime := UInt64.ofNat (b.readLE (off + 28) 8)
  changeTime := UInt64.ofNat (b.readLE (off + 36) 8)
  createdTime := UInt64.ofNat (b.readLE (off + 44) 8)
  flags := UInt32.ofNat (b.readLE (off + 52) 4)
  generation := UInt64.ofNat (b.readLE (off + 56) 8)
  xattrBlock := UInt32.ofNat (b.readLE (off + 64) 4)
  pad0 := UInt32.ofNat (b.readLE (off + 68) 4)
  direct := fun k => ⟨UInt32.ofNat (b.readLE (off + (72 + 8 * k)) 4),
    UInt32.ofNat (b.readLE (off + (76 + 8 * k)) 4)⟩
  indirect := UInt32.ofNat (b.readLE (off + 120) 4)
  doubleIndirect := UInt32.ofNat (b.readLE (off + 124) 4)
  tripleIndirect := UInt32.ofNat (b.readLE (off + 128) 4)
  inlineData := fun k => b (off + (132 + k))
  inodeChecksum := UInt32.ofNat (b.readLE (off + 196) 4)
  pad1 := UInt32.ofNat (b.readLE (off + 200) 4)

lemma extentBytes_startBlock (k : Fin 6) :
    (extentBytes d).readLE (8 * k) 4 = (d k).startBlock.toNat := by
  have hlt := (d k).startBlock.toNat_lt
  rw [readLE_of_le (n := (d k).startBlock.toNat), Nat.mod_eq_of_lt (by simpa using hlt)]
  intro j hj
  have hdiv : (8 * (k : Nat) + j) / 8 = k := by omega
  have hmod : (8 * (k : Nat) + j) % 8 = j := by omega
  simp only [extentBytes, hdiv, hmod, k.isLt, dif_pos, if_pos hj]

lemma extentBytes_blockLen (k : Fin 6) :
    (extentBytes d).readLE (4 + 8 * k) 4 = (d k).blockLen.toNat := by
  have hlt := (d k).blockLen.toNat_lt
  rw [readLE_of_le (n := (d k).blockLen.toNat), Nat.mod_eq_of_lt (by simpa using hlt)]
  intro j hj
  have hdiv : (4 + 8 * (k : Nat) + j) / 8 = k := by omega
  have hmod : (4 + 8 * (k : Nat) + j) % 8 = 4 + j := by omega
  have hnot : ¬ 4 + j < 4 := by omega
  have hsub : 4 + j - 4 = j := by omega
  simp only [extentBytes, hdiv, hmod, k.isLt, dif_pos, if_neg hnot, hsub]

lemma decode_congr {a b : Bytes} {o o' : Nat}
    (h : ∀ k < byteSize, a (o + k) = b (o' + k)) : decode a o = decode b o' := by
  have hf : ∀ f w, f + w ≤ byteSize → a.readLE (o + f) w = b.readLE (o' + f) w := by
    intro f w hw
    refine readLE_congr fun j hj => ?_
    rw [Nat.add_assoc, Nat.add_assoc]
    exact h _ (by omega)
  have h0 : a.readLE o 2 = b.readLE o' 2 := hf 0 2 (by decide)
  have hdir : ∀ k : Fin 6, a.readLE (o + (72 + 8 * k)) 4 = b.readLE (o' + (72 + 8 * k)) 4 :=
    fun k => hf _ _ (by have := k.isLt; unfold byteSize; omega)
  have hlen : ∀ k : Fin 6, a.readLE (o + (76 + 8 * k)) 4 = b.readLE (o' + (76 + 8 * k)) 4 :=
    fun k => hf _ _ (by have := k.isLt; unfold byteSize; omega)
  have hin : ∀ k : Fin 64, a (o + (132 + k)) = b (o' + (132 + k)) :=
    fun k => h _ (by have := k.isLt; unfold byteSize; omega)
  simp only [decode, h0, hdir, hlen, hin, hf 2 2 (by decide), hf 4 4 (by decide),
    hf 8 4 (by decide), hf 12 8 (by decide), hf 20 8 (by decide), hf 28 8 (by decide),
    hf 36 8 (by decide), hf 44 8 (by decide), hf 52 4 (by decide), hf 56 8 (by decide),
    hf 64 4 (by decide), hf 68 4 (by decide), hf 120 4 (by decide), hf 124 4 (by decide),
    hf 128 4 (by decide), hf 196 4 (by decide), hf 200 4 (by decide)]

lemma ofNat_toNat_mod16 (x : UInt16) : UInt16.ofNat (x.toNat % 256 ^ 2) = x := by
  rw [show 256 ^ 2 = 2 ^ 16 from rfl, Nat.mod_eq_of_lt x.toNat_lt, UInt16.ofNat_toNat]

lemma ofNat_toNat_mod32 (x : UInt32) : UInt32.ofNat (x.toNat % 256 ^ 4) = x := by
  rw [show 256 ^ 4 = 2 ^ 32 from rfl, Nat.mod_eq_of_lt x.toNat_lt, UInt32.ofNat_toNat]

lemma ofNat_toNat_mod64 (x : UInt64) : UInt64.ofNat (x.toNat % 256 ^ 8) = x := by
  rw [show 256 ^ 8 = 2 ^ 64 from rfl, Nat.mod_eq_of_lt x.toNat_lt, UInt64.ofNat_toNat]

lemma decode_encode : decode (encode i) 0 = i := by
  have hs : ∀ k : Fin 6, (encode i).readLE (0 + (72 + 8 * k)) 4 = (i.direct k).startBlock.toNat := by
    intro k
    have := k.isLt
    simp (disch := omega) only [encode, putLE, readLE_splice_outside]
    rw [readLE_splice_inside (by omega) (by omega), ← extentBytes_startBlock i.direct k]
    congr 1
    omega
  have hl : ∀ k : Fin 6, (encode i).readLE (0 + (76 + 8 * k)) 4 = (i.direct k).blockLen.toNat := by
    intro k
    have := k.isLt
    simp (disch := omega) only [encode, putLE, readLE_splice_outside]
    rw [readLE_splice_inside (by omega) (by omega), ← extentBytes_blockLen i.direct k]
    congr 1
    omega
  have hin : ∀ k : Fin 64, encode i (0 + (132 + k)) = i.inlineData k := by
    intro k
    have := k.isLt
    simp (disch := omega) only [encode, putLE, splice_outside]
    rw [splice_inside (by omega) (by omega)]
    simp
  have hd : (fun k : Fin 6 => (⟨UInt32.ofNat ((encode i).readLE (0 + (72 + 8 * k)) 4),
      UInt32.ofNat ((encode i).readLE (0 + (76 + 8 * k)) 4)⟩ : Extent32)) = i.direct := by
    funext k
    rw [hs, hl, UInt32.ofNat_toNat, UInt32.ofNat_toNat]
  have hi : (fun k : Fin 64 => encode i (0 + (132 + k))) = i.inlineData := funext hin
  unfold decode
  rw [hd, hi]
  simp (disch := decide) only [encode, readLE_putLE, readLE_putLE_outside,
    readLE_splice_outside, Nat.zero_add, ofNat_toNat_mod16, ofNat_toNat_mod32,
    ofNat_toNat_mod64]

end Inode
end Twilight.Fs

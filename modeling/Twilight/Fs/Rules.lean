/-
The rules of the disk operations on a volume with a valid layout.

Each rule says what one operation of `Fs.Disk` does to a `Volume`; a program is
verified by applying them statement by statement.
-/
import Twilight.Fs.Volume
import Twilight.Fs.Directory

namespace Twilight.Fs

open Prog List Bytes Volume Function Shared Nat Fifo FileContentCache

abbrev Post (ε α : Type) := Except ε α → Volume → Prop

/-- Every run from a state with volume `V` ends in an outcome and a volume that
satisfy `Q`. -/
abbrev Spec {ε α : Type} (x : FsM ε α) (Q : Except ε α → Volume → Prop) (V : Volume) : Prop :=
  Prog.Wp TwilightFs.volume x Q V

open TwilightFs

/-! ## Device blocks -/

lemma Mapped.index {m : Mount} (h : Mapped m) {k : Nat} (hk : k < m.sb.zones) :
    Device.index k = k := by
  have h1 := h.onDevice
  have h2 := h.addressable
  exact Device.index_of_lt (by omega)

lemma Mapped.inRange {s : TwilightFs} (h : Mapped s.volume.mount) {k : Nat}
    (hk : k < s.superblock.zones) : s.device.inRange k 1 = true := by
  have h1 : 4 * s.superblock.zones ≤ s.device.sectors := h.onDevice
  exact Device.inRange_of_le h.addressable (by omega) (by decide)

lemma readTfsBlock_run {s : TwilightFs} (h : Mapped s.volume.mount) {k : Nat}
    (hk : k < s.superblock.zones) : readTfsBlock k s = .ok (s.device.data k) s := by
  rw [readTfsBlock_ok (h.inRange hk), h.index hk]

lemma writeTfsBlock_run {s : TwilightFs} (h : Mapped s.volume.mount) {k : Nat}
    (hk : k < s.superblock.zones) (buf : Bytes) :
    writeTfsBlock k buf s = .ok () (s.setBlock k buf) := by
  rw [writeTfsBlock_ok buf (h.inRange hk), h.index hk]

section

variable {V : Volume}

lemma spec_get {ε : Type} {Q : Post ε TwilightFs}
    (hQ : ∀ s : TwilightFs, s.volume = V → Q (.ok s) V) : Spec get Q V := by
  intro s hs
  rw [get_run, outcome_ok, final_ok, hs]
  exact hQ s hs

lemma spec_readTfsBlock {z : Nat} {Q : Post FsError Bytes}
    (h : Layout V.mount) (hz : V.IsData z) (hQ : Q (.ok (V.block z)) V) :
    Spec (readTfsBlock z) Q V := by
  rintro s rfl
  rw [readTfsBlock_run h.mapped hz.2]
  have hb : s.volume.block z = s.device.data z := if_pos hz
  rw [hb] at hQ
  exact hQ

lemma spec_writeTfsBlock {z : Nat} {buf : Bytes} {Q : Post FsError Unit}
    (h : Layout V.mount) (hz : V.IsData z) (hQ : Q (.ok ()) (V.putBlock z buf)) :
    Spec (writeTfsBlock z buf) Q V := by
  rintro s rfl
  rw [writeTfsBlock_run h.mapped hz.2, outcome_ok, final_ok, volume_setBlock_data h hz]
  exact hQ

/-! ## The inode table -/

lemma Layout.inodeBlock_lt {m : Mount} (h : Layout m) {n : Nat} (hn : 1 ≤ n ∧ n ≤ m.sb.ninodes) :
    m.sb.inodeBlock n < m.sb.zones := by
  have ht := h.table
  have hd := h.dataZones
  unfold divCeil at ht
  rw [Superblock.inodeBlock, h.perBlock]
  omega

lemma spec_readInode {n : Nat} {Q : Post String Inode}
    (h : Layout V.mount) (hn : V.IsInode n) (hQ : Q (.ok (V.inode n)) V) :
    Spec (readInode n) Q V := by
  rintro s rfl
  obtain ⟨hn1, hn2⟩ : 1 ≤ n ∧ n ≤ s.superblock.ninodes := hn
  have hlt : s.superblock.inodeBlock n < s.superblock.zones := h.inodeBlock_lt ⟨hn1, hn2⟩
  have hr := readTfsBlock_run h.mapped hlt
  rw [readInode, bind_ok (get_run s), if_neg (by omega), bind_ok (mapErr_ok hr)]
  have hb : s.volume.inode n
      = Inode.decode (s.device.data (s.superblock.inodeBlock n)) (s.superblock.inodeOffset n) :=
    if_pos ⟨hn1, hn2⟩
  rw [hb] at hQ
  exact hQ

lemma spec_readInode_invalid {n : Nat} {Q : Post String Inode}
    (hn : ¬ V.IsInode n) (hQ : Q (.error "Invalid inode number") V) :
    Spec (readInode n) Q V := by
  rintro s rfl
  have hn' : n = 0 ∨ s.superblock.ninodes < n := by
    by_contra hc
    exact hn ⟨by omega, Nat.le_of_not_lt fun hl => hc (.inr hl)⟩
  rw [readInode, bind_ok (get_run s), if_pos hn']
  exact hQ

lemma spec_writeInode {n : Nat} {i : Inode} {Q : Post String Unit}
    (h : Layout V.mount) (hn : V.IsInode n) (hQ : Q (.ok ()) (V.putInode n i)) :
    Spec (writeInode n i) Q V := by
  rintro s rfl
  obtain ⟨hn1, hn2⟩ : 1 ≤ n ∧ n ≤ s.superblock.ninodes := hn
  have hlt : s.superblock.inodeBlock n < s.superblock.zones := h.inodeBlock_lt ⟨hn1, hn2⟩
  rw [writeInode, bind_ok (get_run s), if_neg (by omega),
    bind_ok (mapErr_ok (readTfsBlock_run h.mapped hlt)),
    mapErr_ok (writeTfsBlock_run h.mapped hlt _), outcome_ok, final_ok,
    volume_setBlock_inode h ⟨hn1, hn2⟩]
  exact hQ

/-! ## The bitmaps -/

lemma findClear_run {s : TwilightFs} (h : Mapped s.volume.mount)
    (scan : Nat → Bytes → Option Nat) {start i n : Nat} (hn : start + i + n ≤ s.superblock.zones) :
    (findClear scan start i n s = .ok none s ∧
      ∀ j, i ≤ j → j < i + n → scan j (s.device.data (start + j)) = none) ∨
    ∃ j bit, i ≤ j ∧ j < i + n ∧ scan j (s.device.data (start + j)) = some bit ∧
      findClear scan start i n s = .ok (some (j, s.device.data (start + j), bit)) s ∧
      ∀ j', i ≤ j' → j' < j → scan j' (s.device.data (start + j')) = none := by
  induction n generalizing i with
  | zero => exact .inl ⟨rfl, fun j h1 h2 => by omega⟩
  | succ n ih =>
    have hr : readTfsBlock (start + i) s = .ok (s.device.data (start + i)) s :=
      readTfsBlock_run h (by omega)
    rw [findClear, bind_ok (mapErr_ok hr)]
    cases hs : scan i (s.device.data (start + i)) with
    | some bit =>
      exact .inr ⟨i, bit, le_refl _, by omega, hs, rfl, fun j' h1 h2 => by omega⟩
    | none =>
      rcases ih (i := i + 1) (by omega) with ⟨h1, h2⟩ | ⟨j, bit, h1, h2, h3, h4, h5⟩
      · refine .inl ⟨h1, fun j hj hj' => ?_⟩
        rcases eq_or_lt_of_le hj with rfl | hlt
        · exact hs
        · exact h2 j hlt (by omega)
      · refine .inr ⟨j, bit, by omega, by omega, h3, h4, fun j' hj hj' => ?_⟩
        rcases eq_or_lt_of_le hj with rfl | hlt
        · exact hs
        · exact h5 j' hlt hj'

lemma findClear_bitmap {s : TwilightFs} (h : Mapped s.volume.mount)
    {scan : Nat → Bytes → Option Nat} (start : Nat) {n limit : Nat}
    (hn : start + 0 + n ≤ s.superblock.zones)
    (hscan : ∀ i < n, ∀ buf : Bytes,
      scan i buf = (buf.firstClear fsBlockSize).filter (· < limit - i * 16384)) :
    (findClear scan start 0 n s = .ok none s ∧
      ∀ k, k < limit → k < 16384 * n → Bytes.bitAt 16384 s.device.data start k = true) ∨
    ∃ j bit, j < n ∧ bit < 16384 ∧ 16384 * j + bit < limit ∧
      findClear scan start 0 n s = .ok (some (j, s.device.data (start + j), bit)) s ∧
      Bytes.bitAt 16384 s.device.data start (16384 * j + bit) = false ∧
      ∀ k < 16384 * j + bit, Bytes.bitAt 16384 s.device.data start k = true := by
  -- a block without a clear bit below the limit
  have hskip : ∀ j < n, scan j (s.device.data (start + j)) = none → ∀ k, k / 16384 = j →
      k < limit → Bytes.bitAt 16384 s.device.data start k = true := by
    intro j hj hnone k hk hlim
    rw [hscan j hj] at hnone
    rw [Bytes.bitAt, hk]
    cases hf : (s.device.data (start + j)).firstClear fsBlockSize with
    | none => exact firstClear_eq_none.mp hf _ (Nat.mod_lt _ (by decide))
    | some p =>
      rw [hf, Option.filter] at hnone
      obtain ⟨-, -, hlow⟩ := firstClear_eq_some hf
      have hp : ¬ p < limit - j * 16384 := by
        intro hp; rw [if_pos (by simpa using hp)] at hnone; cases hnone
      exact hlow _ (by omega)
  rcases findClear_run h scan hn with ⟨hrun, hnone⟩ | ⟨j, bit, -, hj, hfound, hrun, hbefore⟩
  · exact .inl ⟨hrun, fun k hk hkn =>
      hskip _ (by omega) (hnone (k / 16384) (zero_le _) (by omega)) k rfl hk⟩
  rw [hscan j (by omega), Option.filter_eq_some_iff] at hfound
  obtain ⟨hclear, hlim⟩ := hfound
  obtain ⟨hbit, hoff, hlow⟩ := firstClear_eq_some hclear
  have hbit' : bit < 16384 := hbit
  have hlim' : bit < limit - j * 16384 := by simpa using hlim
  refine .inr ⟨j, bit, by omega, hbit', by omega, hrun, ?_, fun k hk => ?_⟩
  · rw [bitAt_mul_add _ _ hbit']; exact hoff
  · by_cases hkj : k / 16384 = j
    · rw [Bytes.bitAt, hkj]
      exact hlow _ (by omega)
    · exact hskip _ (by omega) (hbefore (k / 16384) (zero_le _) (by omega)) k rfl (by omega)

lemma zmap_eq_bitAt {s : TwilightFs} (h : Mapped s.volume.mount) {z : Nat}
    (hz : s.volume.IsData z) : s.volume.zmap z
      = Bytes.bitAt 16384 s.device.data (s.superblock.imapBlocks + 1)
          (z - s.superblock.firstDataZone) := by
  obtain ⟨-, -, -, -, hcov⟩ := h.facts
  obtain ⟨hz1, hz2⟩ : s.superblock.firstDataZone ≤ z ∧ z < s.superblock.zones := hz
  show s.superblock.zmapAt s.device.data z = _
  rw [Superblock.zmapAt, decide_eq_true (by omega), Bool.true_and]

lemma imap_eq_bitAt {s : TwilightFs} (h : Layout s.volume.mount) {n : Nat}
    (hn : s.volume.IsInode n) :
    s.volume.imap n = Bytes.bitAt 16384 s.device.data 1 (n - 1) := by
  have hcov : s.superblock.ninodes ≤ 16384 * s.superblock.imapBlocks := h.imapCovers
  obtain ⟨hn1, hn2⟩ : 1 ≤ n ∧ n ≤ s.superblock.ninodes := hn
  show s.superblock.imapAt s.device.data n = _
  rw [Superblock.imapAt, decide_eq_true (by omega), Bool.true_and]

lemma spec_allocateZone {Q : Post TfsError Nat} (h : Mapped V.mount)
    (hok : ∀ z, V.FirstFreeZone z → Q (.ok z) (V.setZmap z true))
    (hfull : (∀ z, V.IsData z → V.zmap z = true) → Q (.error .noSpaceLeft) V) :
    Spec allocateZone Q V := by
  rintro s rfl
  obtain ⟨hstart, hmaps, hd, hbits, hcov⟩ := h.facts
  have hmax : maxDataZones s.superblock = s.superblock.zones - s.superblock.firstDataZone := rfl
  have hdata : ∀ z, s.volume.IsData z →
      s.superblock.firstDataZone ≤ z ∧ z < s.superblock.zones := fun _ hz => hz
  have hscan : ∀ i < s.superblock.zmapBlocks, ∀ buf : Bytes, buf.firstClear fsBlockSize
      = (buf.firstClear fsBlockSize).filter (· < 16384 * s.superblock.zmapBlocks - i * 16384) := by
    intro i hi buf
    cases hf : buf.firstClear fsBlockSize with
    | none => rfl
    | some p =>
      have hp : p < 16384 := (firstClear_eq_some hf).1
      rw [Option.filter, if_pos (by simp only [decide_eq_true_eq]; omega)]
  rw [allocateZone, bind_ok (get_run s)]
  rcases findClear_bitmap h (s.superblock.imapBlocks + 1) (by omega) hscan with
    ⟨hrun, hnone⟩ | ⟨j, bit, hj, hbit, -, hrun, hclear, hlow⟩
  · rw [bind_ok hrun]
    refine hfull fun z hz => ?_
    have := hdata z hz
    rw [zmap_eq_bitAt h hz]
    exact hnone _ (by omega) (by omega)
  rw [bind_ok hrun]
  have hused : ∀ z, s.volume.IsData z → z < 16384 * j + bit + s.superblock.firstDataZone →
      s.volume.zmap z = true := by
    intro z hz hlt
    have := hdata z hz
    rw [zmap_eq_bitAt h hz]
    exact hlow _ (by omega)
  simp only [hbits, hmax, mul_comm j 16384]
  by_cases hout : s.superblock.zones - s.superblock.firstDataZone ≤ 16384 * j + bit
  · rw [if_pos hout]
    exact hfull fun z hz => hused z hz (by have := hdata z hz; omega)
  rw [if_neg hout]
  have hz : s.volume.IsData (16384 * j + bit + s.superblock.firstDataZone) :=
    ⟨le_add_left _ _, show _ < s.superblock.zones by omega⟩
  have hfree : s.volume.FirstFreeZone (16384 * j + bit + s.superblock.firstDataZone) := by
    refine ⟨hz, ?_, hused⟩
    rw [zmap_eq_bitAt h hz, Nat.add_sub_cancel]
    exact hclear
  have hvol := volume_setBlock_zmap h true hj hbit
  rw [Bytes.putBit, if_pos rfl] at hvol
  rw [bind_ok (mapErr_ok (writeTfsBlock_run h (by omega) _)), pure_run,
    outcome_ok, final_ok, hvol]
  exact hok _ hfree

lemma spec_allocateInode {Q : Post TfsError Nat} (h : Layout V.mount)
    (hok : ∀ n, V.FirstFreeInode n → Q (.ok (n - 1)) (V.setImap n true))
    (hfull : (∀ n, V.IsInode n → V.imap n = true) → Q (.error .noSpaceLeft) V) :
    Spec allocateInode Q V := by
  rintro s rfl
  obtain ⟨hstart, hmaps, hd, hbits, -⟩ := h.mapped.facts
  have hblock : s.superblock.blockSize = fsBlockSize := h.blockSize
  have hcov : s.superblock.ninodes ≤ 16384 * s.superblock.imapBlocks := h.imapCovers
  have hinode : ∀ n, s.volume.IsInode n → 1 ≤ n ∧ n ≤ s.superblock.ninodes := fun _ hn => hn
  rw [allocateInode, bind_ok (get_run s)]
  simp only [hbits, hblock]
  rcases findClear_bitmap h.mapped 1 (n := s.superblock.imapBlocks) (by omega)
      (fun i _ buf => firstClearBelow_eq (s.superblock.ninodes - i * 16384) buf fsBlockSize)
    with ⟨hrun, hnone⟩ | ⟨j, bit, hj, hbit, hlim, hrun, hclear, hlow⟩
  · rw [bind_ok hrun]
    refine hfull fun n hn => ?_
    have := hinode n hn
    rw [imap_eq_bitAt h hn]
    exact hnone _ (by omega) (by omega)
  rw [bind_ok hrun]
  have hn : s.volume.IsInode (16384 * j + bit + 1) :=
    ⟨le_add_left _ _, show _ ≤ s.superblock.ninodes by omega⟩
  have hfree : s.volume.FirstFreeInode (16384 * j + bit + 1) := by
    refine ⟨hn, ?_, fun n' hn' hlt => ?_⟩
    · rw [imap_eq_bitAt h hn, Nat.add_sub_cancel]; exact hclear
    · have := hinode n' hn'
      rw [imap_eq_bitAt h hn']
      exact hlow _ (by omega)
  have hvol := volume_setBlock_imap h.mapped true hj hbit
  rw [Bytes.putBit, if_pos rfl] at hvol
  have hk : 1 + j < s.superblock.zones := by omega
  simp only
  rw [bind_ok (mapErr_ok (writeTfsBlock_run h.mapped hk _)), pure_run,
    outcome_ok, final_ok, hvol, mul_comm j 16384]
  exact hok _ hfree

lemma spec_deallocZone_bit {z : Nat} {Q : Post TfsError Unit}
    (h : Mapped V.mount) (hz : V.HasBit z) (hQ : Q (.ok ()) (V.setZmap z false)) :
    Spec (deallocZone z) Q V := by
  rintro s rfl
  obtain ⟨hstart, hmaps, hd, hbits, hcov⟩ := h.facts
  obtain ⟨hz1, hz2⟩ : s.superblock.firstDataZone ≤ z ∧
    z - s.superblock.firstDataZone < 16384 * s.superblock.zmapBlocks := hz
  have hj : (z - s.superblock.firstDataZone) / 16384 < s.superblock.zmapBlocks := by omega
  rw [deallocZone, bind_ok (get_run s), if_neg (by omega)]
  simp only [hbits, add_comm 1 s.superblock.imapBlocks]
  have hk : s.superblock.imapBlocks + 1 + (z - s.superblock.firstDataZone) / 16384
    < s.superblock.zones := by omega
  have hvol := volume_setBlock_zmap h false hj
    (Nat.mod_lt (z - s.superblock.firstDataZone) (by decide))
  rw [Bytes.putBit, if_neg (by decide), Nat.div_add_mod, Nat.sub_add_cancel hz1] at hvol
  rw [if_neg (by omega), bind_ok (mapErr_ok (readTfsBlock_run h hk)),
    mapErr_ok (writeTfsBlock_run h hk _), outcome_ok, final_ok, hvol]
  exact hQ

lemma spec_deallocZone {z : Nat} {Q : Post TfsError Unit}
    (h : Mapped V.mount) (hz : V.IsData z) (hQ : Q (.ok ()) (V.setZmap z false)) :
    Spec (deallocZone z) Q V :=
  spec_deallocZone_bit h ⟨hz.1, lt_of_lt_of_le (Nat.sub_lt_sub_right hz.1 hz.2) h.zmapCovers⟩ hQ

lemma spec_deallocInode {n : Nat} {Q : Post TfsError Unit}
    (h : Layout V.mount) (hn : V.IsInode n) (hQ : Q (.ok ()) (V.setImap n false)) :
    Spec (deallocInode n) Q V := by
  rintro s rfl
  obtain ⟨hstart, hmaps, hd, hbits, -⟩ := h.mapped.facts
  have hcov : s.superblock.ninodes ≤ 16384 * s.superblock.imapBlocks := h.imapCovers
  obtain ⟨hn1, hn2⟩ : 1 ≤ n ∧ n ≤ s.superblock.ninodes := hn
  have hj : (n - 1) / 16384 < s.superblock.imapBlocks := by omega
  rw [deallocInode, bind_ok (get_run s), if_neg (by omega)]
  simp only [hbits]
  have hk : 1 + (n - 1) / 16384 < s.superblock.zones := by omega
  have hvol := volume_setBlock_imap h.mapped false hj (Nat.mod_lt (n - 1) (by decide))
  rw [Bytes.putBit, if_neg (by decide), Nat.div_add_mod, Nat.sub_add_cancel hn1] at hvol
  rw [bind_ok (mapErr_ok (readTfsBlock_run h.mapped hk)),
    mapErr_ok (writeTfsBlock_run h.mapped hk _), outcome_ok, final_ok, hvol]
  exact hQ

/-! ## Taking several zones -/

lemma spec_deallocZones {ε : Type} {zs : List Nat} {Q : Post ε Unit}
    (h : Mapped V.mount) (hz : ∀ z ∈ zs, V.IsData z) (hQ : Q (.ok ()) (V.setZones zs false)) :
    Spec (deallocZones zs) Q V := by
  induction zs generalizing V with
  | nil => exact Wp.pure hQ
  | cons z zs ih =>
    refine Wp.bind (Wp.attempt (spec_deallocZone h (hz z mem_cons_self) ?_))
    refine ih (V := V.setZmap z false) h (fun y hy => hz y (mem_cons_of_mem _ hy)) ?_
    rw [← setZones_cons]
    exact hQ

/-- What scanning a part of a bitmap block has taken: clear bits below the limit,
each once, and no more zones than asked for. -/
structure Grabbed (base limit count : Nat) (acc acc' : Bytes × List Nat) (t : List Nat) :
    Prop where
  zones : acc'.2 = acc.2 ++ t.map (base + ·)
  buf : acc'.1 = t.foldl setBit acc.1
  nodup : t.Nodup
  clear : ∀ k ∈ t, k < 16384 ∧ k < limit ∧ acc.1.bit k = false
  count_le : acc.2.length ≤ count → acc'.2.length ≤ count

lemma bit_foldl_setBit (t : List Nat) (b : Bytes) (k : Nat) :
    (t.foldl setBit b).bit k = (b.bit k || decide (k ∈ t)) := by
  induction t generalizing b with
  | nil => simp
  | cons x t ih =>
    rw [foldl_cons, ih, bit_setBit]
    by_cases hx : k = x
    · simp [hx]
    · simp [hx]

variable (base limit count : Nat)

lemma Grabbed.refl (acc : Bytes × List Nat) : Grabbed base limit count acc acc [] :=
  ⟨by simp, rfl, nodup_nil, fun k hk => by simp at hk, id⟩

lemma Grabbed.trans {base limit count : Nat} {a b c : Bytes × List Nat} {t u : List Nat}
    (h : Grabbed base limit count a b t) (h' : Grabbed base limit count b c u) :
    Grabbed base limit count a c (t ++ u) := by
  have hclear : ∀ k ∈ u, a.1.bit k = false ∧ k ∉ t := by
    intro k hk
    have hb := (h'.clear k hk).2.2
    rw [h.buf, bit_foldl_setBit, Bool.or_eq_false_iff] at hb
    exact ⟨hb.1, by simpa using hb.2⟩
  refine ⟨?_, ?_, ?_, fun k hk => ?_, fun hle => h'.count_le (h.count_le hle)⟩
  · rw [h'.zones, h.zones, map_append, append_assoc]
  · rw [h'.buf, h.buf, foldl_append]
  · rw [nodup_append]
    exact ⟨h.nodup, h'.nodup, fun x hx y hy e => (hclear y hy).2 (e ▸ hx)⟩
  · rcases mem_append.mp hk with hk | hk
    · exact h.clear k hk
    · exact ⟨(h'.clear k hk).1, (h'.clear k hk).2.1, (hclear k hk).1⟩

lemma grabByte_grabbed {byte : Nat} (hbyte : byte < 2048) {bits : List Nat}
    (hbits : ∀ k ∈ bits, k < 8) (acc : Bytes × List Nat) :
    ∃ t, Grabbed base limit count acc (grabByte base limit count byte bits acc) t := by
  induction bits generalizing acc with
  | nil => exact ⟨[], .refl ..⟩
  | cons bit rest ih =>
    obtain ⟨buf, zones⟩ := acc
    have hb : bit < 8 := hbits bit mem_cons_self
    have hrest := ih (fun k hk => hbits k (mem_cons_of_mem _ hk))
    rw [grabByte]
    by_cases hfull : zones.length = count
    · rw [if_pos hfull]; exact ⟨[], .refl ..⟩
    rw [if_neg hfull]
    by_cases hclear : buf byte &&& mask bit = 0
    · rw [if_pos hclear]
      by_cases hlim : limit ≤ byte * 8 + bit
      · rw [if_pos hlim]; exact ⟨[], .refl ..⟩
      rw [if_neg hlim]
      obtain ⟨t, ht⟩ := hrest (buf.setBit (byte * 8 + bit), zones ++ [base + (byte * 8 + bit)])
      have hbit : buf.bit (byte * 8 + bit) = false := by
        rw [mul_comm, bit_mul_add hb, ← and_mask_eq_zero hb]
        exact hclear
      have hone : Grabbed base limit count (buf, zones)
          (buf.setBit (byte * 8 + bit), zones ++ [base + (byte * 8 + bit)])
          [byte * 8 + bit] := by
        refine ⟨rfl, rfl, nodup_singleton _, fun k hk => ?_, fun hle => ?_⟩
        · rw [mem_singleton] at hk
          subst hk
          exact ⟨by omega, by omega, hbit⟩
        · simp only [length_append, length_singleton] at hle ⊢
          omega
      exact ⟨_, hone.trans ht⟩
    · rw [if_neg hclear]
      exact hrest (buf, zones)

lemma grabBlock_grabbed {bytes : List Nat}
    (hbytes : ∀ k ∈ bytes, k < 2048) (acc : Bytes × List Nat) :
    ∃ t, Grabbed base limit count acc (grabBlock base limit count bytes acc) t := by
  induction bytes generalizing acc with
  | nil => exact ⟨[], .refl ..⟩
  | cons byte rest ih =>
    obtain ⟨buf, zones⟩ := acc
    have hrest := ih (fun k hk => hbytes k (mem_cons_of_mem _ hk))
    rw [grabBlock]
    split
    · exact ⟨[], .refl ..⟩
    split
    · obtain ⟨t, ht⟩ := grabByte_grabbed base limit count
        (hbytes byte mem_cons_self)
        (fun k (hk : k ∈ range 8) => mem_range.mp hk) (buf, zones)
      obtain ⟨u, hu⟩ := hrest (grabByte base limit count byte (range 8) (buf, zones))
      exact ⟨_, ht.trans hu⟩
    · exact hrest _

lemma volume_setBlock_setBits {s : TwilightFs} (h : Mapped s.volume.mount) {j : Nat}
    (hj : j < s.superblock.zmapBlocks) {t : List Nat} (ht : ∀ k ∈ t, k < 16384) :
    (s.setBlock (s.superblock.imapBlocks + 1 + j)
      (t.foldl setBit (s.device.data (s.superblock.imapBlocks + 1 + j)))).volume
      = s.volume.setZones (t.map (s.superblock.firstDataZone + j * 16384 + ·)) true := by
  induction t generalizing s with
  | nil =>
    simp only [foldl_nil, map_nil, setZones_nil, setBlock, update_eq_self]
  | cons k t ih =>
    have hone := volume_setBlock_zmap h true hj (ht k mem_cons_self)
    rw [Bytes.putBit, if_pos rfl] at hone
    have hrest := ih (s := s.setBlock (s.superblock.imapBlocks + 1 + j)
      ((s.device.data (s.superblock.imapBlocks + 1 + j)).setBit k))
      (by rw [mount_setBlock]; exact h) hj (fun x hx => ht x (mem_cons_of_mem _ hx))
    simp only [setBlock, update_self, update_idem] at hrest hone
    rw [foldl_cons, map_cons, setZones_cons, setBlock, hrest, hone,
      show 16384 * j + k + s.superblock.firstDataZone
        = s.superblock.firstDataZone + j * 16384 + k by omega]

structure Disk.Fresh (V : Disk) (zs : List Nat) : Prop where
  nodup : zs.Nodup
  isData : ∀ z ∈ zs, V.IsData z
  free : ∀ z ∈ zs, V.zmap z = false

lemma Disk.Fresh.append {V : Volume} {zs ys : List Nat} (h : V.Fresh zs)
    (h' : (V.setZones zs true).Fresh ys) : V.Fresh (zs ++ ys) := by
  have hfree : ∀ z ∈ ys, z ∉ zs ∧ V.zmap z = false := by
    intro z hz
    have := h'.free z hz
    by_cases hmem : z ∈ zs
    · simp [setZones, hmem] at this
    · exact ⟨hmem, by simpa [setZones, hmem] using this⟩
  refine ⟨?_, fun z hz => ?_, fun z hz => ?_⟩
  · rw [nodup_append]
    exact ⟨h.nodup, h'.nodup, fun x hx y hy e => (hfree y hy).1 (e ▸ hx)⟩
  · rcases mem_append.mp hz with hz | hz
    · exact h.isData z hz
    · exact h'.isData z hz
  · rcases mem_append.mp hz with hz | hz
    · exact h.free z hz
    · exact (hfree z hz).2

lemma spec_grabZones {count i n : Nat} {zs : List Nat} (h : Mapped V.mount)
    (hi : i + n ≤ V.sb.zmapBlocks) :
    Spec (grabZones V.sb count i n zs) (fun r V' => ∃ new, r = .ok (zs ++ new) ∧
      V' = V.setZones new true ∧ V.Fresh new ∧
      (zs.length ≤ count → (zs ++ new).length ≤ count)) V := by
  induction n generalizing i zs V with
  | zero =>
    exact Wp.pure ⟨[], by simp, rfl, ⟨nodup_nil, by simp, by simp⟩, by simp⟩
  | succ n ih =>
    rw [grabZones]
    by_cases hfull : zs.length = count
    · rw [if_pos hfull]
      exact Wp.pure ⟨[], by simp, rfl, ⟨nodup_nil, by simp, by simp⟩, by simp⟩
    rw [if_neg hfull]
    rintro s rfl
    obtain ⟨hstart, hmaps, hd, hbits, -⟩ := h.facts
    have hi' : i + (n + 1) ≤ s.superblock.zmapBlocks := hi
    have hk : s.superblock.imapBlocks + 1 + i < s.superblock.zones := by omega
    have hsb : s.volume.sb = s.superblock := rfl
    rw [hsb]
    rw [bind_ok (mapErr_ok (readTfsBlock_run h hk)), hbits]
    obtain ⟨t, ht⟩ := grabBlock_grabbed
      (s.superblock.firstDataZone + i * 16384) (maxDataZones s.superblock - i * 16384) count
      (fun k (hk : k ∈ range fsBlockSize) => mem_range.mp hk)
      (s.device.data (s.superblock.imapBlocks + 1 + i), zs)
    generalize hg : grabBlock (s.superblock.firstDataZone + i * 16384)
      (maxDataZones s.superblock - i * 16384) count (range fsBlockSize)
      (s.device.data (s.superblock.imapBlocks + 1 + i), zs) = g at ht
    obtain ⟨buf', zs'⟩ := g
    obtain ⟨hzs, hbuf, hnodup, hclear, hcount⟩ := ht
    simp only at hzs hbuf hclear hcount ⊢
    have hmax : maxDataZones s.superblock = s.superblock.zones - s.superblock.firstDataZone := rfl
    have hfresh : s.volume.Fresh (t.map (s.superblock.firstDataZone + i * 16384 + ·)) := by
      have hdata : ∀ k ∈ t, s.volume.IsData (s.superblock.firstDataZone + i * 16384 + k) := by
        intro k hk
        have := hclear k hk
        exact ⟨show s.superblock.firstDataZone ≤ _ by omega, show _ < s.superblock.zones by omega⟩
      refine ⟨hnodup.map fun a b hab => by simpa using hab, ?_, ?_⟩
      · intro z hz
        obtain ⟨k, hk, rfl⟩ := mem_map.mp hz
        exact hdata k hk
      intro z hz
      obtain ⟨k, hk, rfl⟩ := mem_map.mp hz
      obtain ⟨hk1, -, hk3⟩ := hclear k hk
      rw [zmap_eq_bitAt h (hdata k hk),
        show s.superblock.firstDataZone + i * 16384 + k - s.superblock.firstDataZone
          = 16384 * i + k by omega, bitAt_mul_add _ _ hk1]
      exact hk3
    -- the remaining blocks, from the volume with these zones marked
    have hcont : ∀ s' : TwilightFs, s'.volume
          = s.volume.setZones (t.map (s.superblock.firstDataZone + i * 16384 + ·)) true →
        ∃ new, outcome (grabZones s.superblock count (i + 1) n zs' s') = .ok (zs ++ new) ∧
          (final (grabZones s.superblock count (i + 1) n zs' s')).volume
            = s.volume.setZones new true ∧ s.volume.Fresh new ∧
          (zs.length ≤ count → (zs ++ new).length ≤ count) := by
      intro s' hs'
      obtain ⟨new, hr, hv, hf, hc⟩ := @ih
        (s.volume.setZones (t.map (s.superblock.firstDataZone + i * 16384 + ·)) true) (i + 1) zs'
        h (show i + 1 + n ≤ s.superblock.zmapBlocks by omega) s' hs'
      refine ⟨t.map (s.superblock.firstDataZone + i * 16384 + ·) ++ new, ?_, ?_,
        hfresh.append hf, fun hle => ?_⟩
      · rw [← append_assoc, ← hzs]; exact hr
      · rw [setZones_append]; exact hv
      · rw [← append_assoc, ← hzs]; exact hc (hcount hle)
    split
    · rw [bind_ok (mapErr_ok (writeTfsBlock_run h hk _))]
      refine hcont _ ?_
      rw [hbuf]
      exact volume_setBlock_setBits h (by omega) fun k hk => (hclear k hk).1
    next hlen =>
    refine hcont s ?_
    have ht : t = [] := by
      rw [hzs, length_append, length_map] at hlen
      exact length_eq_zero_iff.mp (by omega)
    rw [ht, map_nil, setZones_nil]

lemma spec_allocateZones {count : Nat} {Q : Post TfsError (List Nat)} (h : Mapped V.mount)
    (hok : ∀ zs, zs.length = count → V.Fresh zs → Q (.ok zs) (V.setZones zs true))
    (hfull : Q (.error .noSpaceLeft) V) : Spec (allocateZones count) Q V := by
  refine Wp.bind (spec_get fun s hs => ?_)
  have hsb : s.superblock = V.sb := congrArg (fun W : Volume => W.sb) hs
  simp only [hsb]
  refine Wp.bind ((spec_grabZones h (le_of_eq (zero_add _))).mono ?_)
  rintro _ _ ⟨zs, rfl, rfl, hfresh, hle⟩
  rw [nil_append] at hle ⊢
  by_cases hlen : zs.length < count
  · simp only [if_pos hlen]
    refine Wp.bind (spec_deallocZones h hfresh.isData ?_)
    rw [setZones_undo hfresh.free]
    exact Wp.throw hfull
  · simp only [if_neg hlen]
    refine Wp.pure (hok zs ?_ hfresh)
    have := hle (zero_le _)
    omega

/-! ## The context of an open node -/

lemma isReadOnly_eq_false {s : TwilightFs} (h : Layout s.volume.mount) :
    s.isReadOnly = false := by
  have hm : s.mountMode = .readWrite := h.writable
  rw [isReadOnly, hm]
  rfl

lemma spec_writable {ε α : Type} {e : ε} {x : FsM ε α} {Q : Post ε α}
    (h : Layout V.mount) (hx : Spec x Q V) :
    Spec (do if (← get).isReadOnly then throw e else x) Q V := by
  refine Wp.bind (spec_get fun s hs => ?_)
  subst hs
  simpa only [isReadOnly_eq_false h, Bool.false_eq_true, if_false] using hx

/-! ## The caches -/

lemma spec_modify {ε : Type} {f : TwilightFs → TwilightFs} {W : Volume} {Q : Post ε Unit}
    (hf : ∀ s : TwilightFs, s.volume = V → (f s).volume = W) (hQ : Q (.ok ()) W) :
    Spec (modify f) Q V := by
  intro s hs
  rw [modify_run, outcome_ok, final_ok, hf s hs]
  exact hQ

lemma spec_modifyPaths {ε : Type} {f : PathLookupCache → PathLookupCache}
    {Q : Post ε Unit} (hQ : Q (.ok ()) { V with paths := f V.paths }) :
    Spec (modifyPaths f) Q V := by
  refine spec_modify (fun s hs => ?_) hQ
  subst hs
  simp only [volume, paths_updatePaths, files_updatePaths, dirs_updatePaths]

lemma spec_modifyFiles {ε : Type} {f : FileContentCache → FileContentCache}
    {Q : Post ε Unit} (hQ : Q (.ok ()) { V with files := f V.files }) :
    Spec (modifyFiles f) Q V := by
  refine spec_modify (fun s hs => ?_) hQ
  subst hs
  simp only [volume, paths_updateFiles, files_updateFiles, dirs_updateFiles]

lemma spec_modifyDirs {ε : Type} {f : DirIndexCache → DirIndexCache}
    {Q : Post ε Unit} (hQ : Q (.ok ()) { V with dirs := f V.dirs }) :
    Spec (modifyDirs f) Q V := by
  refine spec_modify (fun s hs => ?_) hQ
  subst hs
  simp only [volume, paths_updateDirs, files_updateDirs, dirs_updateDirs]

/-- A new generation empties the caches. -/
lemma spec_invalidateNamespace {ε : Type} {Q : Post ε Unit} (hQ : Q (.ok ()) { V with
      paths := empty, files := empty, dirs := empty }) :
    Spec (modify fun s => { s with shared := s.shared.invalidateNamespace }) Q V := by
  refine spec_modify (fun s hs => ?_) hQ
  subst hs
  simp only [volume, paths_invalidateNamespace, files_invalidateNamespace,
    dirs_invalidateNamespace]

lemma spec_dirIndexGet {ε : Type} {p : Nat} {Q : Post ε (Option DirIndexEntry)}
    (hQ : Q (.ok (V.dirs.map p)) V) : Spec (dirIndexGet p) Q V := by
  refine Wp.bind (spec_modifyDirs ?_)
  refine Wp.bind (spec_get fun s hs => Wp.pure ?_)
  have hd : s.shared.dirs = V.dirs := congrArg Volume.dirs hs
  rw [hd]
  exact hQ

lemma spec_dirIndexLookup {ε : Type} {p : Nat} {name : Str} {Q : Post ε (Option Nat)}
    (hQ : Q (.ok (DirIndexCache.lookup V.dirs p name)) V) : Spec (dirIndexLookup p name) Q V := by
  refine Wp.bind (spec_modifyDirs ?_)
  refine Wp.bind (spec_get fun s hs => Wp.pure ?_)
  have hd : s.shared.dirs = V.dirs := congrArg Volume.dirs hs
  rw [hd]
  exact hQ

lemma spec_lookupCached {ε : Type} {path : Str} {Q : Post ε (Option Nat)}
    (hQ : Q (.ok (V.paths.map path)) V) : Spec (lookupCached path) Q V := by
  refine Wp.bind (spec_modifyPaths ?_)
  refine Wp.bind (spec_get fun s hs => Wp.pure ?_)
  have hd : s.shared.paths = V.paths := congrArg Volume.paths hs
  rw [hd]
  exact hQ

end

end Twilight.Fs

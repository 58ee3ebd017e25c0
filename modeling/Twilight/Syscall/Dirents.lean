/-
Reading a directory with `getdents64`.

A call packs the entries from the offset of the open file on into records, as many as fit into the
buffer, and the offset counts the entries.  A buffer that is too small for the next record gets the
answer 0, which is the one for the end of the directory.
-/
import Twilight.Lib.Bytes
import Twilight.Lib.Machine

namespace Twilight.Dirents

open List Bytes

inductive FileType
  | file
  | dir
  | symlink
  | charDevice
  | blockDevice
  | socket
deriving DecidableEq

def dtFromFiletype : FileType → UInt8
  | .file => 8
  | .dir => 4
  | .symlink => 10
  | .charDevice => 2
  | .blockDevice => 6
  | .socket => 12

/-- An entry of the listing that `ls` returns. -/
structure Metadata where
  name : List UInt8
  ino : UInt32
  fileType : FileType
deriving DecidableEq

/-- `size_of::<Dirent64Hdr>()` -/
def hdrSize : Nat := 19

/-- A `u16`. -/
def dirent64Reclen (nameLen : Nat) : Nat := (hdrSize + nameLen + 1 + 7) / 8 * 8 % 2 ^ 16

def Metadata.reclen (e : Metadata) : Nat := dirent64Reclen e.name.length

def fitting (bufLen : Nat) : Nat → List Metadata → List Metadata
  | _, [] => []
  | total, e :: rest =>
    if bufLen < total + e.reclen then [] else e :: fitting bufLen (total + e.reclen) rest

variable (cookie : Nat)

def hdrBytes (e : Metadata) : List UInt8 :=
  (Bytes.le e.ino.toNat).slice 0 8 ++ ((Bytes.le cookie).slice 0 8 ++
    ((Bytes.le e.reclen).slice 0 2 ++ [dtFromFiletype e.fileType]))

def record (e : Metadata) : List UInt8 :=
  hdrBytes cookie e ++ (e.name ++ 0 :: List.replicate (e.reclen - (hdrSize + e.name.length + 1)) 0)

def serialize : Nat → List Metadata → List UInt8
  | _, [] => []
  | idx, e :: rest => record (idx + 1) e ++ serialize (idx + 1) rest

/-- `getdent64` on an open directory with this listing: the result, the bytes in the buffer and the
new offset.  The length of the padding underflows, and the kernel panics, if a record length does
not fit into its type. -/
def getdent64 (entries : List Metadata) (seek bufLen : Nat) : Option (Int × List UInt8 × Nat) :=
  if bufLen < hdrSize + 2 then some (-22, [], seek)
  else if entries.length ≤ seek then some (0, [], seek)
  else
    let items := fitting bufLen 0 (entries.drop seek)
    if items = [] then some (0, [], seek)
    else if ∃ e ∈ items, e.reclen < hdrSize + e.name.length + 1 then none
    else
      let out := serialize seek items
      some (out.length, out, seek + items.length)

/-! ## What a program reads -/

structure Dirent where
  ino : Nat
  type : UInt8
  name : List UInt8
deriving DecidableEq

def Metadata.dirent (e : Metadata) : Dirent := ⟨e.ino.toNat, dtFromFiletype e.fileType, e.name⟩

/-- Records are as long as their `d_reclen` says, and a name ends at its NUL. -/
def parse (b : List UInt8) : Option (List Dirent) :=
  let reclen := (Bytes.ofList b).readLE 16 2
  if b = [] then some []
  else if reclen = 0 ∨ b.length < reclen then none
  else
    let name := ((b.take reclen).drop hdrSize).takeWhile (· ≠ 0)
    (parse (b.drop reclen)).map (⟨(Bytes.ofList b).readLE 0 8, b.getD 18 0, name⟩ :: ·)
termination_by b.length
decreasing_by
  have := length_pos_iff.mpr ‹_›
  rw [length_drop]
  omega

/-- A name without a NUL whose record length fits into its type. -/
structure Metadata.Proper (e : Metadata) : Prop where
  noNul : 0 ∉ e.name
  short : hdrSize + e.name.length + 8 < 2 ^ 16

lemma Metadata.Proper.le_reclen {e : Metadata} (h : e.Proper) :
    hdrSize + e.name.length + 1 ≤ e.reclen := by
  have := h.short
  rw [reclen, dirent64Reclen] at *
  omega

@[simp] lemma length_hdrBytes (e : Metadata) :
    (hdrBytes cookie e).length = hdrSize := by
  simp [hdrBytes, hdrSize]

lemma length_record {e : Metadata} (h : e.Proper) (cookie : Nat) :
    (record cookie e).length = e.reclen := by
  have := h.le_reclen
  rw [record, length_append, length_append, length_cons, length_replicate, length_hdrBytes]
  omega

section Header

variable (cookie : Nat) (e : Metadata) (rest : List UInt8)

lemma hdrBytes_ino : (Bytes.ofList (hdrBytes cookie e ++ rest)).readLE 0 8 = e.ino.toNat := by
  have h := readLE_ofList [] ((Bytes.le cookie).slice 0 8 ++
    ((Bytes.le e.reclen).slice 0 2 ++ [dtFromFiletype e.fileType]) ++ rest) e.ino.toNat 8
  have hlt := e.ino.toNat_lt
  rw [nil_append, length_nil, Nat.mod_eq_of_lt (by omega)] at h
  rw [hdrBytes, append_assoc, h]

lemma hdrBytes_reclen : (Bytes.ofList (hdrBytes cookie e ++ rest)).readLE 16 2 = e.reclen := by
  have h := readLE_ofList ((Bytes.le e.ino.toNat).slice 0 8 ++ (Bytes.le cookie).slice 0 8)
    ([dtFromFiletype e.fileType] ++ rest) e.reclen 2
  have hlt : e.reclen < 256 ^ 2 := Nat.mod_lt _ (by decide)
  rw [Nat.mod_eq_of_lt hlt] at h
  exact h

end Header

lemma record_name {e : Metadata} (h : e.Proper) (cookie : Nat) :
    ((record cookie e).drop hdrSize).takeWhile (· ≠ 0) = e.name := by
  rw [record, drop_left' (length_hdrBytes cookie e), takeWhile_append_of_pos,
    takeWhile_cons_of_neg, append_nil]
  · simp
  · intro x hx
    simpa using fun h0 : x = 0 => h.noNul (h0 ▸ hx)

lemma parse_record {e : Metadata} (h : e.Proper) (cookie : Nat) (rest : List UInt8) :
    parse (record cookie e ++ rest) = (parse rest).map (e.dirent :: ·) := by
  have hlength := length_record h cookie
  have hle := h.le_reclen
  have hne : record cookie e ++ rest ≠ [] := length_pos_iff.mp (by rw [length_append]; omega)
  have hfield : record cookie e ++ rest = hdrBytes cookie e ++ (e.name ++
      0 :: List.replicate (e.reclen - (hdrSize + e.name.length + 1)) 0 ++ rest) := by
    rw [record, append_assoc]
  rw [parse]
  simp only [if_neg hne]
  rw [hfield, hdrBytes_ino, hdrBytes_reclen, ← hfield,
    if_neg (by rw [length_append]; omega), ← hlength, take_left, drop_left,
    record_name h]
  rfl

lemma parse_serialize {es : List Metadata} (h : ∀ e ∈ es, e.Proper) (idx : Nat) :
    parse (serialize idx es) = some (es.map Metadata.dirent) := by
  induction es generalizing idx with
  | nil => rw [parse]; rfl
  | cons e es ih =>
    rw [serialize, parse_record (h e mem_cons_self), ih fun e' he' => h e' (mem_cons_of_mem _ he')]
    rfl

lemma serialize_append (idx : Nat) (es es' : List Metadata) :
    serialize idx (es ++ es') = serialize idx es ++ serialize (idx + es.length) es' := by
  induction es generalizing idx with
  | nil => rfl
  | cons e es ih =>
    rw [cons_append, serialize, serialize, ih, append_assoc, length_cons,
      Nat.add_right_comm, Nat.add_assoc]

lemma fitting_prefixes (bufLen total : Nat) (es : List Metadata) :
    fitting bufLen total es <+: es := by
  induction es generalizing total with
  | nil => exact prefix_rfl
  | cons e es ih =>
    rw [fitting]
    split
    · exact nil_prefix
    · exact cons_prefix_cons.mpr ⟨rfl, ih _⟩

lemma length_fitting {bufLen total : Nat} {es : List Metadata} (h : ∀ e ∈ es, e.Proper)
    (htotal : total ≤ bufLen) (idx : Nat) :
    total + (serialize idx (fitting bufLen total es)).length ≤ bufLen := by
  induction es generalizing total idx with
  | nil => exact htotal
  | cons e es ih =>
    rw [fitting]
    split
    · exact htotal
    · next hfits =>
      have := ih (fun e' he' => h e' (mem_cons_of_mem _ he')) (Nat.not_lt.mp hfits) (idx + 1)
      rw [serialize, length_append, length_record (h e mem_cons_self)]
      omega

/-! ## Calls in a row -/

abbrev BufLen := { n : Nat // 21 ≤ n }

structure State where
  seek : Nat
  out : List UInt8

section Calls

variable (entries : List Metadata) (s : State) (bufLen : BufLen)

def step : State :=
  match getdent64 entries s.seek bufLen with
  | some (_, bytes, seek) => ⟨seek, s.out ++ bytes⟩
  | none => s

/-- The call returns the next entries, within its buffer, and 0 only at the end. -/
def Enumerates : Prop :=
  ∃ bytes seek, getdent64 entries s.seek bufLen = some ((bytes.length : Int), bytes, seek) ∧
    bytes.length ≤ bufLen ∧ (bytes = [] → entries.length ≤ s.seek) ∧
    parse (s.out ++ bytes) = some ((entries.take seek).map Metadata.dirent)

def HasRoom : Prop := ∀ e, entries[s.seek]? = some e → e.reclen ≤ bufLen

variable {entries} {s : State}

structure Read (entries : List Metadata) (s : State) : Prop where
  seek_le : s.seek ≤ entries.length
  out_eq : s.out = serialize 0 (entries.take s.seek)

lemma Read.parse_out (hs : Read entries s) (hnames : ∀ e ∈ entries, e.Proper) :
    parse s.out = some ((entries.take s.seek).map Metadata.dirent) := by
  rw [hs.out_eq]
  exact parse_serialize (fun e he => hnames e (mem_of_mem_take he)) 0

section

variable (hnames : ∀ e ∈ entries, e.Proper)
include hnames

lemma getdent64_eq (seek : Nat) (bufLen : BufLen) :
    getdent64 entries seek bufLen =
      let items := fitting bufLen 0 (entries.drop seek)
      some (((serialize seek items).length : Int), serialize seek items, seek + items.length) := by
  have hroom : ¬ bufLen.val < hdrSize + 2 := Nat.not_lt.mpr bufLen.property
  have hproper : ¬ ∃ e ∈ fitting bufLen 0 (entries.drop seek),
      e.reclen < hdrSize + e.name.length + 1 := by
    rintro ⟨e, he, hlt⟩
    have hmem := mem_of_mem_drop ((fitting_prefixes _ _ _).subset he)
    have := (hnames e hmem).le_reclen
    omega
  rw [getdent64, if_neg hroom]
  split
  · next hend =>
    rw [drop_eq_nil_of_le hend]
    rfl
  simp only [if_neg hproper]
  split
  · next hnil =>
    rw [hnil]
    rfl
  · rfl

lemma read_step (hs : Read entries s) (bufLen : BufLen) :
    Read entries (step entries s bufLen) := by
  obtain ⟨rest, hrest⟩ := fitting_prefixes bufLen 0 (entries.drop s.seek)
  have hlength := congrArg List.length hrest
  rw [length_append, length_drop] at hlength
  have htake : (entries.drop s.seek).take (fitting bufLen 0 (entries.drop s.seek)).length =
      fitting bufLen 0 (entries.drop s.seek) := by
    nth_rewrite 2 [← hrest]
    exact take_left
  have hseek := hs.seek_le
  rw [step, getdent64_eq hnames]
  refine ⟨by dsimp only; omega, ?_⟩
  rw [take_add, htake, serialize_append, length_take_of_le hseek, Nat.zero_add, hs.out_eq]

lemma enumerates_iff_hasRoom (hs : Read entries s)
    (bufLen : BufLen) : Enumerates entries s bufLen ↔ HasRoom entries s bufLen := by
  have hcall := getdent64_eq hnames s.seek bufLen
  constructor
  · rintro ⟨bytes, seek, hget, -, hend, -⟩ e he
    have hlt := (List.getElem?_eq_some_iff.mp he).1
    by_contra hbig
    rw [drop_eq_getElem_cons hlt, fitting, if_pos] at hcall
    · have hbytes := congrArg (·.2.1) (Option.some.inj (hcall.symm.trans hget))
      exact Nat.not_le.mpr hlt (hend hbytes.symm)
    · rw [(List.getElem?_eq_some_iff.mp he).2]
      omega
  · intro hroom
    refine ⟨_, _, hcall, ?_, fun hnil => ?_, ?_⟩
    · have hrest : ∀ e ∈ entries.drop s.seek, e.Proper := fun e he => hnames e (mem_of_mem_drop he)
      have := length_fitting hrest (Nat.zero_le bufLen.val) s.seek
      rwa [Nat.zero_add] at this
    · by_contra hlt
      have hlt := Nat.not_le.mp hlt
      rw [drop_eq_getElem_cons hlt, fitting, if_neg] at hnil
      · simp [serialize, record] at hnil
      · have := hroom _ (List.getElem?_eq_getElem hlt)
        omega
    · have hread := read_step hnames hs bufLen
      have := hread.parse_out hnames
      rw [step, hcall] at this
      exact this

end

end Calls

/-- In a directory whose names are proper, calls in a row from the start enumerate the listing
exactly if each of them has room for the next record. -/
theorem enumerates_iff_meets_hasRoom (entries : List Metadata) (hnames : ∀ e ∈ entries, e.Proper)
    (lens : List BufLen) :
    Machine.Meets (step entries) (Enumerates entries) ⟨0, []⟩ lens ↔
      Machine.Meets (step entries) (HasRoom entries) ⟨0, []⟩ lens := by
  have h0 : Read entries ⟨0, []⟩ := ⟨Nat.zero_le _, rfl⟩
  constructor
  · intro h
    exact h.of_inv (Read entries) (fun s n hs hok =>
      ⟨(enumerates_iff_hasRoom hnames hs n).mp hok, read_step hnames hs n⟩) h0
  · intro h
    exact h.of_inv (Read entries) (fun s n hs hok =>
      ⟨(enumerates_iff_hasRoom hnames hs n).mpr hok, read_step hnames hs n⟩) h0

/-- Three names and three calls: the first returns two records, the last none. -/
theorem enumerates_three_names :
    let entries : List Metadata := [⟨[97], 1, .file⟩, ⟨[98, 99], 2, .dir⟩, ⟨[100], 3, .file⟩]
    Machine.Meets (step entries) (Enumerates entries) ⟨0, []⟩
      [⟨60, by decide⟩, ⟨24, by decide⟩, ⟨24, by decide⟩] := by
  intro entries
  have hproper : ∀ e ∈ entries, e.Proper := by
    intro e he
    simp only [entries, mem_cons, not_mem_nil, or_false] at he
    rcases he with rfl | rfl | rfl <;> exact ⟨by decide, by decide⟩
  refine (enumerates_iff_meets_hasRoom entries hproper _).mpr ⟨?_, ?_, ?_, trivial⟩
  · rintro e ⟨⟩
    decide
  · rintro e ⟨⟩
    decide
  · rintro e ⟨⟩

/-- A buffer too small for the next record is answered like the end of the directory. -/
theorem small_buffer_ends :
    let entries : List Metadata := [⟨[97], 1, .file⟩]
    ¬ Machine.Meets (step entries) (Enumerates entries) ⟨0, []⟩ [⟨21, by decide⟩] := by
  rintro entries ⟨⟨bytes, seek, hget, -, hend, -⟩, -⟩
  have hcall : getdent64 entries 0 21 = some (0, [], 0) := by decide
  have hbytes := congrArg (·.2.1) (Option.some.inj (hcall.symm.trans hget))
  exact absurd (hend hbytes.symm) (by decide)

end Twilight.Dirents

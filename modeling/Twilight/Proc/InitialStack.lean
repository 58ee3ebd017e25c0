/-
The stack of a new program.

`build_initial_stack` pushes the strings of the environment and of the arguments, sixteen bytes for
`AT_RANDOM`, and below them the tables the System V ABI prescribes: the auxiliary vector, the
pointers of the environment, those of the arguments and their number. The pointers are written
downwards, so that a list of them is read back in reverse.
-/
import Twilight.Lib.DownStack

namespace Twilight.Proc

open DownStack List Bytes Nat

structure AuxvEntry where
  key : Nat
  value : Nat

/-- The arguments of `build_initial_stack` besides the stack. -/
structure StackRequest where
  auxEntry : UInt64
  atBase : UInt64
  argv : Option (List (List UInt8))
  envp : Option (List (List UInt8))
  phdrAddr : UInt64
  phent : UInt64
  phnum : UInt64
  execfnPtr : Option UInt64
  random16Ptr : Option UInt64

/-! ## The function -/

variable (st : DownStack)

def pushBytes (bytes : List UInt8) : Nat × DownStack :=
  let rsp := st.sp - (bytes.length + 1)
  (rsp, ⟨rsp, (st.mem.splice rsp bytes.length (.ofList bytes)).splice (rsp + bytes.length) 1 .zero⟩)

def pushRaw (bytes : List UInt8) : Nat × DownStack :=
  let rsp := st.sp - bytes.length
  (rsp, ⟨rsp, st.mem.splice rsp bytes.length (.ofList bytes)⟩)

/-- The loops over the strings, with the pointers in the order of the pushes. -/
def pushStrings : DownStack → List (List UInt8) → List Nat × DownStack
  | st, [] => ([], st)
  | st, s :: rest =>
    let (p, st') := pushBytes st s
    let (ptrs, st'') := pushStrings st' rest
    (p :: ptrs, st'')

variable (r : StackRequest) (randPtr execfn : Nat)

def auxVec : List AuxvEntry :=
  [⟨3, r.phdrAddr.toNat⟩, ⟨4, r.phent.toNat⟩, ⟨5, r.phnum.toNat⟩, ⟨7, r.atBase.toNat⟩, ⟨6, 4096⟩,
    ⟨9, r.auxEntry.toNat⟩, ⟨25, randPtr⟩, ⟨31, execfn⟩, ⟨17, 0⟩, ⟨18, 0⟩, ⟨19, 0⟩, ⟨20, 0⟩,
    ⟨23, 100⟩, ⟨0, 0⟩]

def wrappingSub (a b : Nat) : Nat := (a + 2 ^ 64 - b % 2 ^ 64) % 2 ^ 64

/-- Zero bytes down to where the tables of `totalBytes` bytes end at a multiple of 16. -/
def padStack (totalBytes : Nat) : DownStack :=
  let pad := wrappingSub st.sp totalBytes % 16
  if pad ≠ 0 then st.push pad .zero else st

/-- The strings, and the pointers as the tables get them: each list is reversed once more. -/
def pushArguments : List Nat × List Nat × DownStack :=
  let (envpPtrs, st) := pushStrings st (r.envp.getD []).reverse
  let envpPtrs := envpPtrs.reverse
  let (argvPtrs, st) := pushStrings st (r.argv.getD [])
  let argvPtrs := argvPtrs.reverse
  (argvPtrs, envpPtrs, st)

/-- `AT_RANDOM`. -/
def pushRandom : Nat × DownStack :=
  match r.random16Ptr with
  | some p => (p.toNat, st)
  | none => pushRaw st (List.replicate 16 0)

def AuxvEntry.words (entries : List AuxvEntry) : List Nat :=
  entries.flatMap fun entry => [entry.key, entry.value]

def pushTables (auxv : List AuxvEntry) (envpPtrs argvPtrs : List Nat) : DownStack :=
  let auxBytes := 16 * auxv.length
  let envBytes := (envpPtrs.length + 1) * 8
  let argvBytes := (argvPtrs.length + 1) * 8
  let totalBytes := auxBytes + envBytes + argvBytes + 8
  let st := padStack st totalBytes
  let st := st.push auxBytes (encodeWords (AuxvEntry.words auxv))
  let st := st.pushWord 0
  let st := st.pushWords envpPtrs
  let st := st.pushWord 0
  let st := st.pushWords argvPtrs
  st.pushWord argvPtrs.length

def buildInitialStack : DownStack :=
  let (argvPtrs, envpPtrs, st) := pushArguments st r
  let (randPtr, st) := pushRandom st r
  let execfn := ((r.execfnPtr.map UInt64.toNat) <|> argvPtrs[0]?).getD 0
  pushTables st (auxVec r randPtr execfn) envpPtrs argvPtrs

/-! ## What it is for -/

structure Decodes (st : DownStack) (argv envp : List (List UInt8)) (auxv : List (Nat × Nat)) :
    Prop where
  argc : word st.mem st.sp = argv.length
  vectors : ∃ a b, Strings st.mem (st.sp + 8) argv a ∧ Strings st.mem a envp b ∧ Pairs st.mem b auxv

/-- The stack that was asked for: `top` is where the stack started. -/
def AsAsked (top : Nat) (st : DownStack) : Prop :=
  ∃ auxv, Decodes st (r.argv.getD []) (r.envp.getD []) auxv ∧
    auxv.lookup 3 = some r.phdrAddr.toNat ∧ auxv.lookup 4 = some r.phent.toNat ∧
    auxv.lookup 5 = some r.phnum.toNat ∧ auxv.lookup 7 = some r.atBase.toNat ∧
    auxv.lookup 9 = some r.auxEntry.toNat ∧
    (∃ p, auxv.lookup 25 = some p ∧
      match r.random16Ptr with
      | some q => p = q.toNat
      | none => st.sp ≤ p ∧ p + 16 ≤ top ∧ ∀ i < 16, st.mem (p + i) = 0) ∧
    (∃ p, auxv.lookup 31 = some p ∧
      match r.execfnPtr with
      | some q => p = q.toNat
      | none => ∀ arg, (r.argv.getD []).head? = some arg → CString st.mem p arg) ∧
    st.sp % 16 = 0

def stringBytes (ss : List (List UInt8)) : Nat := (ss.map fun s => s.length + 1).sum

/-- A stack that is large enough: strings, random bytes, padding and tables. -/
def StackRequest.needed : Nat :=
  stringBytes (r.envp.getD []) + stringBytes (r.argv.getD []) + 16 + 15 + 16 * 14 +
    ((r.envp.getD []).length + 1) * 8 + ((r.argv.getD []).length + 1) * 8 + 8

/-! ## The strings -/

lemma pushBytes_spec {st : DownStack} {s : List UInt8} (hnul : 0 ∉ s)
    (hfits : s.length + 1 ≤ st.sp) :
    Grows st (pushBytes st s).2 ∧ (pushBytes st s).2.sp = st.sp - (s.length + 1) ∧
      CString (pushBytes st s).2.mem (pushBytes st s).1 s := by
  refine ⟨⟨Nat.sub_le _ _, fun a ha => ?_⟩, rfl, cstring_of_getElem hnul (fun j hj => ?_) ?_⟩
  · simp only [pushBytes]
    rw [splice_outside (Or.inr (by omega)), splice_outside (Or.inr (by omega))]
  · simp only [pushBytes]
    rw [splice_outside (Or.inl (by omega)), splice_at hj, Bytes.ofList, getD_eq_getElem _ _ hj]
  · simp only [pushBytes]
    rw [splice_inside (le_refl _) (by omega)]
    rfl

lemma pushStrings_spec {st : DownStack} {ss : List (List UInt8)} (hnul : ∀ s ∈ ss, 0 ∉ s)
    (hfits : stringBytes ss ≤ st.sp) :
    Grows st (pushStrings st ss).2 ∧ (pushStrings st ss).2.sp = st.sp - stringBytes ss ∧
      List.Forall₂ (CString (pushStrings st ss).2.mem) (pushStrings st ss).1 ss ∧
      ∀ p ∈ (pushStrings st ss).1, (pushStrings st ss).2.sp ≤ p ∧ p < st.sp := by
  induction ss generalizing st with
  | nil => exact ⟨.refl st, rfl, .nil, nofun⟩
  | cons s ss ih =>
    have hbytes : stringBytes (s :: ss) = s.length + 1 + stringBytes ss := by
      simp [stringBytes]
    obtain ⟨hgrows, hsp, hstring⟩ := @pushBytes_spec st s (hnul s mem_cons_self) (by omega)
    obtain ⟨hgrows', hsp', hstrings, hptrs⟩ := @ih (pushBytes st s).2
      (fun s' hs' => hnul s' (mem_cons_of_mem _ hs')) (by omega)
    have hptr : (pushBytes st s).1 = (pushBytes st s).2.sp := rfl
    refine ⟨hgrows.trans hgrows', ?_, .cons ?_ hstrings, fun p hp => ?_⟩
    · show (pushStrings (pushBytes st s).2 ss).2.sp = _
      omega
    · exact hstring.congr fun x hx => hgrows'.keeps x (hptr ▸ hx)
    · obtain rfl | hp := mem_cons.mp hp
      · refine ⟨hgrows'.le, ?_⟩
        omega
      · obtain ⟨hlow, hhigh⟩ := hptrs p hp
        exact ⟨hlow, by omega⟩

lemma pushArguments_spec {st : DownStack} {r : StackRequest}
    (hargv : ∀ s ∈ r.argv.getD [], 0 ∉ s) (henvp : ∀ s ∈ r.envp.getD [], 0 ∉ s)
    (hfits : stringBytes (r.envp.getD []) + stringBytes (r.argv.getD []) ≤ st.sp)
    {argvPtrs envpPtrs : List Nat} {st' : DownStack}
    (h : pushArguments st r = (argvPtrs, envpPtrs, st')) :
    Grows st st' ∧
      st'.sp = st.sp - (stringBytes (r.envp.getD []) + stringBytes (r.argv.getD [])) ∧
      List.Forall₂ (CString st'.mem) argvPtrs.reverse (r.argv.getD []) ∧
      List.Forall₂ (CString st'.mem) envpPtrs.reverse (r.envp.getD []).reverse ∧
      ∀ p ∈ argvPtrs ++ envpPtrs, st'.sp ≤ p ∧ p < st.sp := by
  have hbytes : stringBytes (r.envp.getD []).reverse = stringBytes (r.envp.getD []) := by
    rw [stringBytes, map_reverse, sum_reverse, stringBytes]
  obtain ⟨hgrows₁, hsp₁, hstrings₁, hptrs₁⟩ :=
    @pushStrings_spec st (r.envp.getD []).reverse
      (fun s hs => henvp s (mem_reverse.mp hs)) (by omega)
  obtain ⟨hgrows₂, hsp₂, hstrings₂, hptrs₂⟩ :=
    @pushStrings_spec (pushStrings st (r.envp.getD []).reverse).2 (r.argv.getD []) hargv (by omega)
  obtain ⟨rfl, rfl, rfl⟩ : (pushStrings (pushStrings st (r.envp.getD []).reverse).2
      (r.argv.getD [])).1.reverse = argvPtrs ∧
      (pushStrings st (r.envp.getD []).reverse).1.reverse = envpPtrs ∧
      (pushStrings (pushStrings st (r.envp.getD []).reverse).2 (r.argv.getD [])).2 = st' := by
    simpa [pushArguments] using h
  refine ⟨hgrows₁.trans hgrows₂, by omega, ?_, ?_, fun p hp => ?_⟩
  · rw [reverse_reverse]
    exact hstrings₂
  · rw [reverse_reverse]
    exact hgrows₂.strings hstrings₁ fun p hp => (hptrs₁ p hp).1
  · obtain hp | hp := mem_append.mp hp
    · obtain ⟨hlow, hhigh⟩ := hptrs₂ p (mem_reverse.mp hp)
      exact ⟨hlow, by omega⟩
    · obtain ⟨hlow, hhigh⟩ := hptrs₁ p (mem_reverse.mp hp)
      exact ⟨le_trans hgrows₂.le hlow, hhigh⟩

lemma pushRandom_spec {st : DownStack} {r : StackRequest} (hfits : 16 ≤ st.sp) {randPtr : Nat}
    {st' : DownStack} (h : pushRandom st r = (randPtr, st')) :
    Grows st st' ∧ st.sp ≤ st'.sp + 16 ∧
      match r.random16Ptr with
      | some q => randPtr = q.toNat
      | none => randPtr = st'.sp ∧ randPtr + 16 = st.sp ∧ ∀ i < 16, st'.mem (randPtr + i) = 0 := by
  unfold pushRandom at h
  cases hr : r.random16Ptr with
  | some q =>
    rw [hr] at h
    cases h
    exact ⟨.refl _, Nat.le_add_right _ _, rfl⟩
  | none =>
    rw [hr] at h
    cases h
    refine ⟨push_grows hfits _, ?_, rfl, ?_, fun i hi => ?_⟩
    · show st.sp ≤ st.sp - 16 + 16
      omega
    · show st.sp - 16 + 16 = st.sp
      omega
    · show st.mem.splice (st.sp - 16) 16 (Bytes.ofList (List.replicate 16 0)) (st.sp - 16 + i) = 0
      rw [splice_at hi, Bytes.ofList, getD_replicate _ hi]

/-! ## The tables -/

lemma padStack_spec {st : DownStack} {totalBytes : Nat} (hfits : totalBytes + 15 ≤ st.sp)
    (hsp : st.sp < 2 ^ 64) :
    Grows st (padStack st totalBytes) ∧ st.sp ≤ (padStack st totalBytes).sp + 15 ∧
      totalBytes ≤ (padStack st totalBytes).sp ∧
      ((padStack st totalBytes).sp - totalBytes) % 16 = 0 := by
  have hpad : wrappingSub st.sp totalBytes % 16 = (st.sp - totalBytes) % 16 := by
    unfold wrappingSub
    omega
  unfold padStack
  dsimp only
  split
  · refine ⟨push_grows (by omega) _, ?_⟩
    simp only [push]
    omega
  · exact ⟨.refl st, by omega⟩

lemma pushTables_spec {st : DownStack} {auxv : List AuxvEntry} {envpPtrs argvPtrs : List Nat}
    (haux : ∀ w ∈ AuxvEntry.words auxv, w < 2 ^ 64) (henvp : ∀ p ∈ envpPtrs, p < 2 ^ 64)
    (hargv : ∀ p ∈ argvPtrs, p < 2 ^ 64)
    (hfits : 16 * auxv.length + (envpPtrs.length + 1) * 8 + (argvPtrs.length + 1) * 8 + 8 + 15 ≤
      st.sp) (hsp : st.sp < 2 ^ 64) :
    Grows st (pushTables st auxv envpPtrs argvPtrs) ∧
      (pushTables st auxv envpPtrs argvPtrs).sp % 16 = 0 ∧
      WordsAt (pushTables st auxv envpPtrs argvPtrs).mem (pushTables st auxv envpPtrs argvPtrs).sp
        (argvPtrs.length :: (argvPtrs.reverse ++ 0 :: (envpPtrs.reverse ++
          0 :: AuxvEntry.words auxv))) := by
  have hwords : (AuxvEntry.words auxv).length = 2 * auxv.length := by
    simp [AuxvEntry.words, Nat.mul_comm]
  have hpad := @padStack_spec st
    (16 * auxv.length + (envpPtrs.length + 1) * 8 + (argvPtrs.length + 1) * 8 + 8) (by omega) hsp
  unfold pushTables
  dsimp only
  generalize padStack st _ = st₁ at hpad
  obtain ⟨hgrows₁, -, hroom, halign⟩ := hpad
  -- the auxiliary vector
  have haux₂ := wordsAt_splice haux st₁.mem (st₁.sp - 16 * auxv.length)
  rw [hwords, show 8 * (2 * auxv.length) = 16 * auxv.length by omega] at haux₂
  have hgrows₂ := push_grows (by omega : 16 * auxv.length ≤ st₁.sp)
    (encodeWords (AuxvEntry.words auxv))
  have hsp₂ : (st₁.push (16 * auxv.length) (encodeWords (AuxvEntry.words auxv))).sp =
    st₁.sp - 16 * auxv.length := rfl
  have htable₂ : WordsAt (st₁.push (16 * auxv.length) (encodeWords (AuxvEntry.words auxv))).mem
    (st₁.push (16 * auxv.length) (encodeWords (AuxvEntry.words auxv))).sp _ := haux₂
  generalize st₁.push (16 * auxv.length) (encodeWords (AuxvEntry.words auxv)) = st₂
    at hgrows₂ hsp₂ htable₂
  -- the pointers of the environment and of the arguments
  obtain ⟨hgrows₄, hsp₄, htables₄⟩ := pushWords_null_spec henvp (by omega : _ ≤ st₂.sp)
  have htable₄ := htables₄ _ htable₂
  generalize (st₂.pushWord 0).pushWords envpPtrs = st₄ at hgrows₄ hsp₄ htable₄
  obtain ⟨hgrows₆, hsp₆, htables₆⟩ := pushWords_null_spec hargv (by omega : _ ≤ st₄.sp)
  have htable₆ := htables₆ _ htable₄
  generalize (st₄.pushWord 0).pushWords argvPtrs = st₆ at hgrows₆ hsp₆ htable₆
  have hgrows₇ : Grows st₆ (st₆.pushWord argvPtrs.length) := push_grows (by omega) _
  have hsp₇ : (st₆.pushWord argvPtrs.length).sp = st₆.sp - 8 := rfl
  refine ⟨?_, by omega, htable₆.pushWord (by omega) (by omega)⟩
  exact hgrows₁.trans (hgrows₂.trans (hgrows₄.trans (hgrows₆.trans hgrows₇)))

/-! ## The whole stack -/

def auxPairs : List (Nat × Nat) :=
  (auxVec r randPtr execfn).dropLast.map fun entry => (entry.key, entry.value)

lemma auxVec_lt {r : StackRequest} {randPtr execfn : Nat} (hrand : randPtr < 2 ^ 64)
    (hexecfn : execfn < 2 ^ 64) : ∀ w ∈ AuxvEntry.words (auxVec r randPtr execfn), w < 2 ^ 64 := by
  have hphdr := r.phdrAddr.toNat_lt
  have hphent := r.phent.toNat_lt
  have hphnum := r.phnum.toNat_lt
  have hbase := r.atBase.toNat_lt
  have hentry := r.auxEntry.toNat_lt
  simp [AuxvEntry.words, auxVec]
  omega

/-- The first pointer of the reversed list is that of the last argument. -/
lemma execfn_spec {r : StackRequest} {argvPtrs : List Nat} {mem : Bytes} {top : Nat}
    (hstrings : List.Forall₂ (CString mem) argvPtrs.reverse (r.argv.getD []))
    (hptrs : ∀ p ∈ argvPtrs, p < top) (htop : top < 2 ^ 64) {execfn : Nat}
    (h : ((r.execfnPtr.map UInt64.toNat) <|> argvPtrs[0]?).getD 0 = execfn) :
    execfn < 2 ^ 64 ∧
      match r.execfnPtr with
      | some q => execfn = q.toNat
      | none => (r.argv.getD []).getLast?.elim (execfn = 0) fun arg =>
        execfn ∈ argvPtrs ∧ CString mem execfn arg := by
  cases hr : r.execfnPtr with
  | some q =>
    rw [hr] at h
    obtain rfl : q.toNat = execfn := h
    exact ⟨q.toNat_lt, rfl⟩
  | none =>
    rw [hr] at h
    obtain rfl : argvPtrs[0]?.getD 0 = execfn := h
    have hstrings' : List.Forall₂ (CString mem) argvPtrs (r.argv.getD []).reverse := by
      rw [← forall₂_reverse_iff, reverse_reverse]
      exact hstrings
    rw [← List.head?_reverse]
    generalize (r.argv.getD []).reverse = args at hstrings'
    cases hstrings' with
    | nil => exact ⟨Nat.two_pow_pos 64, rfl⟩
    | @cons p arg ptrs args hp _ =>
      exact ⟨lt_trans (hptrs p mem_cons_self) htop, mem_cons_self, hp⟩

lemma decodes_of_wordsAt {st : DownStack} {r : StackRequest} {randPtr execfn : Nat}
    {argvPtrs envpPtrs : List Nat} {argv envp : List (List UInt8)}
    (hargv : List.Forall₂ (CString st.mem) argvPtrs argv)
    (henvp : List.Forall₂ (CString st.mem) envpPtrs envp) (hnull : 0 ∉ argvPtrs ++ envpPtrs)
    (h : WordsAt st.mem st.sp (argv.length :: (argvPtrs ++ 0 :: (envpPtrs ++
      0 :: AuxvEntry.words (auxVec r randPtr execfn))))) :
    Decodes st argv envp (auxPairs r randPtr execfn) := by
  rw [mem_append, not_or] at hnull
  obtain ⟨hargs, htable⟩ := strings_of_wordsAt hargv hnull.1 h.2
  obtain ⟨henvs, htable⟩ := strings_of_wordsAt henvp hnull.2 htable
  have hkeys : ∀ q ∈ auxPairs r randPtr execfn, q.1 ≠ 0 := by simp [auxPairs, auxVec]
  exact ⟨h.1, _, _, hargs, henvs, pairs_of_wordsAt hkeys htable⟩

lemma buildInitialStack_decodes {st : DownStack} {r : StackRequest}
    (hargv : ∀ s ∈ r.argv.getD [], 0 ∉ s) (henvp : ∀ s ∈ r.envp.getD [], 0 ∉ s)
    (hfits : r.needed ≤ st.sp) (hsp : st.sp < 2 ^ 64) :
    ∃ randPtr execfn, Decodes (buildInitialStack st r) (r.argv.getD []) (r.envp.getD []).reverse
        (auxPairs r randPtr execfn) ∧
      (match r.random16Ptr with
        | some q => randPtr = q.toNat
        | none => (buildInitialStack st r).sp ≤ randPtr ∧ randPtr + 16 ≤ st.sp ∧
          ∀ i < 16, (buildInitialStack st r).mem (randPtr + i) = 0) ∧
      (match r.execfnPtr with
        | some q => execfn = q.toNat
        | none => ∀ arg, (r.argv.getD []).getLast? = some arg →
          CString (buildInitialStack st r).mem execfn arg) ∧
      (buildInitialStack st r).sp % 16 = 0 := by
  unfold StackRequest.needed at hfits
  unfold buildInitialStack
  rcases hst₁ : pushArguments st r with ⟨argvPtrs, envpPtrs, st₁⟩
  dsimp only
  rcases hst₂ : pushRandom st₁ r with ⟨randPtr, st₂⟩
  obtain ⟨hgrows₁, hsp₁, hstrings, henvs, hptrs⟩ := pushArguments_spec hargv henvp (by omega) hst₁
  obtain ⟨hgrows₂, hsp₂, hrand⟩ := pushRandom_spec (by omega) hst₂
  have hargc : argvPtrs.length = (r.argv.getD []).length := by
    simpa using hstrings.length_eq
  have henvc : envpPtrs.length = (r.envp.getD []).length := by
    simpa using henvs.length_eq
  generalize hexecfn : ((r.execfnPtr.map UInt64.toNat) <|> argvPtrs[0]?).getD 0 = execfn
  have hlast := execfn_spec hstrings (fun p hp => (hptrs p (mem_append_left _ hp)).2) hsp hexecfn
  have hrandLt : randPtr < 2 ^ 64 := by
    cases hr : r.random16Ptr with
    | some q =>
      rw [hr] at hrand
      exact hrand ▸ q.toNat_lt
    | none =>
      rw [hr] at hrand
      omega
  have htables := @pushTables_spec st₂ (auxVec r randPtr execfn) envpPtrs argvPtrs
    (auxVec_lt hrandLt hlast.1)
    (fun p hp => lt_trans (hptrs p (mem_append_right _ hp)).2 hsp)
    (fun p hp => lt_trans (hptrs p (mem_append_left _ hp)).2 hsp)
    (by simp only [auxVec, length_cons, length_nil]; omega)
    (by have := hgrows₁.le; have := hgrows₂.le; omega)
  generalize pushTables st₂ (auxVec r randPtr execfn) envpPtrs argvPtrs = st₃ at htables
  obtain ⟨hgrows₃, halign, hwords⟩ := htables
  have hgrows := hgrows₂.trans hgrows₃
  have hlow : ∀ p ∈ argvPtrs ++ envpPtrs, st₁.sp ≤ p := fun p hp => (hptrs p hp).1
  refine ⟨randPtr, execfn, ?_, ?_, ?_, halign⟩
  · rw [hargc] at hwords
    refine decodes_of_wordsAt (hgrows.strings hstrings fun p hp => ?_)
      (hgrows.strings henvs fun p hp => ?_) (fun hmem => ?_) hwords
    · exact hlow p (mem_append_left _ (mem_reverse.mp hp))
    · exact hlow p (mem_append_right _ (mem_reverse.mp hp))
    · have hzero := hlow 0 (by simpa using hmem)
      omega
  · cases hr : r.random16Ptr with
    | some q =>
      rw [hr] at hrand
      exact hrand
    | none =>
      rw [hr] at hrand
      obtain ⟨hat, hend, hzero⟩ := hrand
      refine ⟨hat ▸ hgrows₃.le, by have := hgrows₁.le; omega, fun i hi => ?_⟩
      rw [hgrows₃.keeps _ (by omega)]
      exact hzero i hi
  · cases hr : r.execfnPtr with
    | some q =>
      rw [hr] at hlast
      exact hlast.2
    | none =>
      intro arg harg
      rw [hr, harg] at hlast
      obtain ⟨-, hmem, hstring⟩ := hlast
      exact hstring.congr fun x hx =>
        hgrows.keeps x (le_trans (hlow execfn (mem_append_left _ hmem)) hx)

lemma Decodes.unique {st : DownStack} {argv argv' envp envp' : List (List UInt8)}
    {auxv auxv' : List (Nat × Nat)} (h : Decodes st argv envp auxv)
    (h' : Decodes st argv' envp' auxv') : envp = envp' ∧ auxv = auxv' := by
  obtain ⟨a, b, hargv, henvp, hauxv⟩ := h.vectors
  obtain ⟨a', b', hargv', henvp', hauxv'⟩ := h'.vectors
  obtain ⟨-, rfl⟩ := hargv.unique hargv'
  obtain ⟨henvs, rfl⟩ := henvp.unique henvp'
  exact ⟨henvs, hauxv.unique hauxv'⟩

/-- A new program finds what was passed if and only if the environment is the same in reverse and,
without an explicit pointer, the last argument is the same as the first. -/
theorem asAsked_iff {st : DownStack} {r : StackRequest} (hargv : ∀ s ∈ r.argv.getD [], 0 ∉ s)
    (henvp : ∀ s ∈ r.envp.getD [], 0 ∉ s) (hfits : r.needed ≤ st.sp) (hsp : st.sp < 2 ^ 64) :
    AsAsked r st.sp (buildInitialStack st r) ↔
      (r.envp.getD []).reverse = r.envp.getD [] ∧
        (r.execfnPtr = none → (r.argv.getD []).getLast? = (r.argv.getD []).head?) := by
  obtain ⟨randPtr, execfn, hdecodes, hrand, hexecfn, halign⟩ :=
    buildInitialStack_decodes hargv henvp hfits hsp
  constructor
  · rintro ⟨auxv, hasked, -, -, -, -, -, -, ⟨p, hp, hfirst⟩, -⟩
    obtain ⟨henvs, rfl⟩ := hdecodes.unique hasked
    refine ⟨henvs, fun hnone => ?_⟩
    obtain rfl : execfn = p := Option.some.inj hp
    rw [hnone] at hexecfn hfirst
    cases hargs : r.argv.getD [] with
    | nil => rfl
    | cons arg args =>
      rw [hargs] at hexecfn hfirst
      have hlast := hexecfn _ (getLast?_eq_some_getLast (cons_ne_nil arg args))
      rw [getLast?_eq_some_getLast (cons_ne_nil arg args), hlast.unique (hfirst arg rfl)]
      rfl
  · rintro ⟨henvs, hargs⟩
    rw [henvs] at hdecodes
    refine ⟨_, hdecodes, rfl, rfl, rfl, rfl, rfl, ⟨randPtr, rfl, hrand⟩, ⟨execfn, rfl, ?_⟩, halign⟩
    cases hr : r.execfnPtr with
    | some q =>
      rw [hr] at hexecfn
      exact hexecfn
    | none =>
      rw [hr] at hexecfn
      intro arg harg
      exact hexecfn arg ((hargs hr).trans harg)

/-- `exec` of a program with these arguments and this environment. -/
def execRequest (argv envp : List (List UInt8)) : StackRequest where
  auxEntry := 0x401000
  atBase := 0
  argv := some argv
  envp := some envp
  phdrAddr := 0x400040
  phent := 56
  phnum := 2
  execfnPtr := none
  random16Ptr := none

/-- The arguments `a`, `b`, `a` and the variables `x`, `y`, `x`. -/
theorem asAsked_three :
    let r := execRequest [[97], [98], [97]] [[120], [121], [120]]
    AsAsked r 4096 (buildInitialStack ⟨4096, .zero⟩ r) := by
  intro r
  have hiff := @asAsked_iff ⟨4096, .zero⟩ r (by decide) (by decide) (by decide) (by decide)
  exact hiff.mpr ⟨rfl, fun _ => rfl⟩

/-- The arguments `a` and `b` and the variables `x` and `y`: the first variable is `y`, and
`AT_EXECFN` is `b`. -/
theorem two_arguments_mixed :
    let st := buildInitialStack ⟨4096, .zero⟩ (execRequest [[97], [98]] [[120], [121]])
    word st.mem st.sp = 2 ∧ st.mem (word st.mem (st.sp + 8)) = 97 ∧
      st.mem (word st.mem (st.sp + 32)) = 121 ∧ word st.mem (st.sp + 168) = 31 ∧
      st.mem (word st.mem (st.sp + 176)) = 98 ∧
      ¬ AsAsked (execRequest [[97], [98]] [[120], [121]]) 4096 st := by
  refine ⟨by decide +kernel, by decide +kernel, by decide +kernel, by decide +kernel,
    by decide +kernel, ?_⟩
  rintro ⟨auxv, hasked, -⟩
  obtain ⟨randPtr, execfn, hdecodes, -⟩ :=
    @buildInitialStack_decodes ⟨4096, .zero⟩ (execRequest [[97], [98]] [[120], [121]]) (by decide)
      (by decide) (by decide) (by decide)
  exact absurd (hdecodes.unique hasked).1 (by decide)

end Twilight.Proc

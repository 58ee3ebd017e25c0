/-
When the scheduler switches.

`schedule_now` switches exactly if it can be entered, some other process is runnable
and no other process is marked running; the process switched to is then the only
running one.  The two owner checks of `switch_by_index_guarded` are read as one
condition on positions, `OnlyAt`.
-/
import Twilight.Proc.Table

namespace Twilight.Proc

open List

/-! ## Positions of running processes -/

/-- Only position `i` can hold a running process. -/
def OnlyAt (procs : List Process) (i : Nat) : Prop :=
  ∀ j p, procs[j]? = some p → p.state = .running → j = i

lemma first_and_only_iff {α : Type} (f : α → Bool) (l : List α) (i : Nat) :
    ((l.findIdx? f).all (· = i) && decide (l.countP f ≤ 1)) = true ↔
      ∀ j x, l[j]? = some x → f x = true → j = i := by
  rw [Bool.and_eq_true]
  induction l generalizing i with
  | nil => simp
  | cons a l ih =>
    rw [List.findIdx?_cons, countP_cons]
    by_cases ha : f a = true
    · simp only [ha, if_true, Option.all_some, decide_eq_true_eq]
      constructor
      · rintro ⟨rfl, hcount⟩ j x hx hfx
        cases j with
        | zero => rfl
        | succ j =>
          have hnone : l.countP f = 0 := by omega
          exact absurd hfx (countP_eq_zero.mp hnone x (mem_of_getElem? hx))
      · intro h
        have hi : 0 = i := h 0 a rfl ha
        have hnone : l.countP f = 0 := by
          rw [countP_eq_zero]
          intro x hx hfx
          obtain ⟨j, hj⟩ := mem_iff_getElem?.mp hx
          have := h (j + 1) x hj hfx
          omega
        omega
    · simp only [ha, Bool.false_eq_true, if_false, Nat.add_zero]
      cases i with
      | zero =>
        constructor
        · rintro ⟨hfirst, -⟩ j x hx hfx
          cases j with
          | zero =>
            obtain rfl : a = x := by simpa using hx
            exact absurd hfx ha
          | succ j =>
            have hnone : l.findIdx? f = none := by
              cases hf : l.findIdx? f with
              | none => rfl
              | some n => simp [hf] at hfirst
            have hmem : x ∈ l := mem_of_getElem? hx
            exact absurd hfx (by simpa using List.findIdx?_eq_none_iff.mp hnone x hmem)
        · intro h
          have hnone : ∀ x ∈ l, ¬ f x = true := by
            intro x hx hfx
            obtain ⟨j, hj⟩ := mem_iff_getElem?.mp hx
            have := h (j + 1) x hj hfx
            omega
          have hfirst : l.findIdx? f = none := by
            rw [List.findIdx?_eq_none_iff]
            intro x hx
            simpa using hnone x hx
          simp [hfirst, countP_eq_zero.mpr hnone]
      | succ i =>
        have hmap : (Option.map (· + 1) (l.findIdx? f)).all (· = i + 1)
            = (l.findIdx? f).all (· = i) := by
          cases l.findIdx? f <;> simp
        rw [hmap, ih i]
        constructor
        · intro h j x hx hfx
          cases j with
          | zero =>
            obtain rfl : a = x := by simpa using hx
            exact absurd hfx ha
          | succ j => rw [h j x hx hfx]
        · intro h j x hx hfx
          have := h (j + 1) x hx hfx
          omega

lemma validatePreSwitchOwner_iff (procs : List Process) (cur : Nat) :
    validatePreSwitchOwner procs cur = true ↔ OnlyAt procs cur := by
  rw [validatePreSwitchOwner, first_and_only_iff]
  simp only [isRunning, decide_eq_true_eq]
  rfl

variable {procs : List Process} {cur next : Nat}

lemma validateRunningOwner_of {i : Nat} {p : Process}
    (h : OnlyAt procs i) (hp : procs[i]? = some p) (hrun : p.state = .running) :
    validateRunningOwner procs i = true := by
  have hpre := (validatePreSwitchOwner_iff procs i).mpr h
  rw [validatePreSwitchOwner, Bool.and_eq_true] at hpre
  rw [validateRunningOwner, Bool.and_eq_true]
  refine ⟨?_, hpre.2⟩
  have hfirst := hpre.1
  cases hf : procs.findIdx? isRunning with
  | none =>
    have := List.findIdx?_eq_none_iff.mp hf p (mem_of_getElem? hp)
    simp [isRunning, hrun] at this
  | some n =>
    rw [hf] at hfirst
    simpa using hfirst

/-! ## The next process -/

lemma findNextRunnableIndex_some (h : findNextRunnableIndex procs cur = some next) :
    next ≠ cur ∧ ∃ p, procs[next]? = some p ∧ p.state = .runnable := by
  unfold findNextRunnableIndex at h
  split at h
  · cases h
  · have := List.find?_some h
    simp only [Bool.and_eq_true, Option.any_eq_true, decide_eq_true_eq] at this
    exact this

lemma findNextRunnableIndex_isSome_iff (hcur : cur < procs.length) :
    (findNextRunnableIndex procs cur).isSome = true ↔
      ∃ i p, i ≠ cur ∧ procs[i]? = some p ∧ p.state = .runnable := by
  constructor
  · intro h
    obtain ⟨next, hnext⟩ := Option.isSome_iff_exists.mp h
    obtain ⟨hne, p, hp, hrun⟩ := findNextRunnableIndex_some hnext
    exact ⟨next, p, hne, hp, hrun⟩
  rintro ⟨i, p, hne, hp, hrun⟩
  obtain ⟨hi, -⟩ := List.getElem?_eq_some_iff.mp hp
  unfold findNextRunnableIndex
  rw [if_neg (by omega), List.find?_isSome]
  refine ⟨i, ?_, by simp [hne, hp, hrun]⟩
  -- the position is reached after as many steps as it lies ahead, around the end
  rw [List.mem_map]
  by_cases hlt : cur < i
  · refine ⟨i - cur, by rw [mem_range'_1]; omega, ?_⟩
    rw [show cur + (i - cur) = i by omega, Nat.mod_eq_of_lt hi]
  · refine ⟨procs.length - cur + i, by rw [mem_range'_1]; omega, ?_⟩
    rw [show cur + (procs.length - cur + i) = procs.length + i by omega, Nat.add_mod_left,
      Nat.mod_eq_of_lt hi]

/-! ## Switches -/

def switchedTable (procs : List Process) (cur next : Nat) : List Process :=
  (procs.modify cur (·.switchOut)).modify next (·.setState .running)

lemma getElem?_switchedTable (hne : next ≠ cur) (j : Nat) : (switchedTable procs cur next)[j]? =
      if j = next then procs[j]?.map (·.setState .running)
      else if j = cur then procs[j]?.map (·.switchOut) else procs[j]? := by
  unfold switchedTable
  by_cases hn : j = next
  · subst hn
    simp [Ne.symm hne]
  · by_cases hc : j = cur
    · subst hc
      simp [hn, Ne.symm hn]
    · simp [hn, hc, Ne.symm hn, Ne.symm hc]

lemma onlyAt_switchedTable (hne : next ≠ cur)
    (h : OnlyAt procs cur) : OnlyAt (switchedTable procs cur next) next := by
  intro j q hq hrun
  rw [getElem?_switchedTable hne] at hq
  by_contra hj
  rw [if_neg hj] at hq
  by_cases hc : j = cur
  · rw [if_pos hc] at hq
    obtain ⟨p, -, rfl⟩ := Option.map_eq_some_iff.mp hq
    unfold Process.switchOut at hrun
    split at hrun
    · cases hrun
    · rename_i hno
      exact hno hrun
  · rw [if_neg hc] at hq
    exact hc (h j q hq hrun)

namespace Kernel

variable {k : Kernel}

/-- The processor goes from position `cur` to the process at position `next`. -/
structure Switch (k : Kernel) (cur next : Nat) (target : Process) : Prop where
  ne : next ≠ cur
  found : k.procs[next]? = some target
  runnable : target.state = .runnable
  owner : OnlyAt k.procs cur

def switched (k : Kernel) (cur next : Nat) (target : Process) : Kernel :=
  { k with procs := switchedTable k.procs cur next, pid := target.pid }

lemma switchByIndexGuarded_cases (k : Kernel) (cur next : Nat) :
    (∃ target, k.Switch cur next target ∧
      k.switchByIndexGuarded cur next = (true, k.switched cur next target)) ∨
    ((∀ target, ¬ k.Switch cur next target) ∧ k.switchByIndexGuarded cur next = (false, k)) := by
  unfold switchByIndexGuarded
  by_cases hne : cur = next
  · rw [if_pos hne]
    exact .inr ⟨fun _ h => h.ne hne.symm, rfl⟩
  rw [if_neg hne]
  by_cases honly : OnlyAt k.procs cur
  swap
  · have hfalse : validatePreSwitchOwner k.procs cur = false := by
      rw [← Bool.not_eq_true, validatePreSwitchOwner_iff]
      exact honly
    rw [hfalse]
    exact .inr ⟨fun _ h => honly h.owner, rfl⟩
  rw [(validatePreSwitchOwner_iff _ _).mpr honly]
  cases ht : k.procs[next]? with
  | none =>
    refine .inr ⟨fun _ h => ?_, rfl⟩
    cases ht.symm.trans h.found
  | some target =>
    by_cases hrun : target.state = .runnable
    · have hown := onlyAt_switchedTable (Ne.symm hne) honly
      have hq : (switchedTable k.procs cur next)[next]? = some (target.setState .running) := by
        rw [getElem?_switchedTable (Ne.symm hne), if_pos rfl, ht]
        rfl
      have hvalid := validateRunningOwner_of hown hq rfl
      unfold switchedTable at hvalid
      refine .inl ⟨target, ⟨Ne.symm hne, ht, hrun, honly⟩, ?_⟩
      simp only [hrun, hvalid]
      rfl
    · simp only [Bool.not_true, Bool.false_eq_true, if_false, ne_eq, hrun, not_false_eq_true, if_true]
      refine .inr ⟨fun t h => hrun ?_, trivial⟩
      obtain rfl := Option.some.inj (ht.symm.trans h.found)
      exact h.runnable

/-- Another process is runnable and none but the current one is marked running. -/
def CanSwitch (k : Kernel) : Prop :=
  ∃ cur, findProcessIndex k.procs k.pid = some cur ∧
    (∃ i p, i ≠ cur ∧ k.procs[i]? = some p ∧ p.state = .runnable) ∧ OnlyAt k.procs cur

lemma scheduleNow_cases (k : Kernel) (guard : Bool) :
    (∃ cur next target, findProcessIndex k.procs k.pid = some cur ∧ k.Switch cur next target ∧
      guard = true ∧ k.scheduleNow guard = (true, k.switched cur next target)) ∨
    (¬ (guard = true ∧ k.CanSwitch) ∧ k.scheduleNow guard = (false, k)) := by
  unfold scheduleNow
  cases guard with
  | false => exact .inr ⟨fun h => absurd h.1 (by decide), rfl⟩
  | true =>
    simp only [true_and]
    cases hcur : findProcessIndex k.procs k.pid with
    | none =>
      refine .inr ⟨?_, by simp⟩
      rintro ⟨cur, h, -⟩
      cases hcur.symm.trans h
    | some cur =>
      obtain ⟨hlt, -⟩ := List.findIdx?_eq_some_iff_getElem.mp hcur
      have hiff := findNextRunnableIndex_isSome_iff hlt
      cases hnext : findNextRunnableIndex k.procs cur with
      | none =>
        refine .inr ⟨?_, by simp [hnext]⟩
        rintro ⟨cur', h, hrun, -⟩
        obtain rfl := Option.some.inj (hcur.symm.trans h)
        rw [hnext] at hiff
        cases hiff.mpr hrun
      | some next =>
        obtain ⟨hne, target, ht, hrun⟩ := findNextRunnableIndex_some hnext
        have htwo : ¬ k.procs.length < 2 := by
          obtain ⟨hi, -⟩ := List.getElem?_eq_some_iff.mp ht
          omega
        simp only [htwo, hnext]
        rcases k.switchByIndexGuarded_cases cur next with ⟨target, hsw, heq⟩ | ⟨hno, heq⟩
        · exact .inl ⟨cur, next, target, rfl, hsw, heq⟩
        · refine .inr ⟨?_, heq⟩
          rintro ⟨cur', h, -, honly⟩
          obtain rfl := Option.some.inj (hcur.symm.trans h)
          exact hno target ⟨hne, ht, hrun, honly⟩

lemma scheduleNow_switches_iff (k : Kernel) (guard : Bool) :
    (k.scheduleNow guard).1 = true ↔ guard = true ∧ k.CanSwitch := by
  rcases k.scheduleNow_cases guard with ⟨cur, next, target, hcur, hsw, hguard, heq⟩ | ⟨hno, heq⟩
  · rw [heq]
    exact iff_of_true rfl ⟨hguard, cur, hcur, ⟨next, target, hsw.ne, hsw.found, hsw.runnable⟩,
      hsw.owner⟩
  · rw [heq]
    exact iff_of_false (by simp) hno

lemma switchAfterExit_cases (k : Kernel) (cur parentPid : Nat) :
    (∃ next target, k.Switch cur next target ∧
      k.switchAfterExit cur parentPid = k.switched cur next target) ∨
    k.switchAfterExit cur parentPid = k := by
  unfold switchAfterExit
  dsimp only
  split
  · exact .inr rfl
  · rename_i next _
    rcases k.switchByIndexGuarded_cases cur next with ⟨target, hsw, heq⟩ | ⟨-, heq⟩
    · exact .inl ⟨next, target, hsw, by rw [heq]⟩
    · exact .inr (by rw [heq])

end Kernel

end Twilight.Proc

/-
Pids in the process table. A new process takes the pid the 16-bit counter shows, whether or not
some process of the table still has it: pids stay unique as long as the counter does not come
around to a pid in use, and after 65535 creations it does.
-/
import Twilight.Proc.Carried

namespace Twilight.Proc

open List

lemma SameIds.map_pid {l l' : List Process} (h : List.Forall₂ SameIds l l') :
    l.map (·.pid) = l'.map (·.pid) := by
  induction h with
  | nil => rfl
  | cons hqp _ ih => rw [map_cons, map_cons, hqp.pid, ih]

namespace Kernel

variable {k : Kernel}

lemma spares_sameIds (k : Kernel) (event : Event) : k.Spares SameIds event := by
  have hfree : k.FreeCurrent SameIds := fun p _ => SameIds.free p
  cases event with
  | launch guard => exact fun p _ => SameIds.free p
  | exitGroup guard code => exact fun _ l _ _ => SameIds.free l
  | kill pid sig guard =>
    refine kill_keeps SameIds.loose.toCalm k pid sig guard ?_
    exact fun _ _ _ _ _ q hqp => (SameIds.applySignal q _).trans hqp
  | exit guard code => exact hfree
  | terminate guard sig => exact hfree
  | wait4 pid options guard => exact hfree
  | rtSigsuspend mask guard => exact hfree
  | block guard nowNs deadlineNs granted => exact hfree
  | resumeSleep deadlineNs nowNs => exact hfree
  | awaitIo outstanding deadlineNs guard granted => exact hfree
  | _ => trivial

def PidsUnique (k : Kernel) : Prop := (k.procs.map (·.pid)).Nodup

def TakesFreePid (k : Kernel) (event : Event) : Prop :=
  ∀ pid ∈ k.created event, pid ∉ k.procs.map (·.pid)

lemma PidsUnique.getProcess_eq (h : k.PidsUnique) {p : Process} (hp : p ∈ k.procs) :
    getProcess k.procs p.pid = some p := by
  obtain ⟨q, hq⟩ : ∃ q, getProcess k.procs p.pid = some q := by
    rw [← Option.isSome_iff_exists, getProcess, List.find?_isSome]
    exact ⟨p, hp, by simp⟩
  have hpid : q.pid = p.pid := by simpa using List.find?_some hq
  rw [hq, inj_on_of_nodup_map h (mem_of_find?_eq_some hq) hp hpid]

lemma created_cases (k : Kernel) (event : Event) :
    k.created event = [] ∨ k.created event = [k.nextPid] ∧ ¬ Reaps event := by
  cases event with
  | launch guard => exact Or.inr ⟨rfl, id⟩
  | fork ok =>
    rw [created]
    split
    · exact Or.inr ⟨rfl, id⟩
    · exact Or.inl rfl
  | cloneThread flags childStack ok =>
    rw [created]
    split
    · exact Or.inr ⟨rfl, id⟩
    · exact Or.inl rfl
  | _ => exact Or.inl rfl

lemma step_pidsUnique (h : k.PidsUnique) (event : Event) :
    (k.step event).PidsUnique ↔ k.TakesFreePid event := by
  obtain ⟨kept, newborn, hnew, hborn, -, -, hsub, hall⟩ :=
    step_carried SameIds.loose (k.spares_sameIds event)
  rw [PidsUnique, hnew, map_append, hborn, TakesFreePid]
  obtain hnone | ⟨hone, hreaps⟩ := k.created_cases event
  · obtain ⟨l, hl, hlsub⟩ := sublistForall₂_iff.mp hsub
    rw [hnone, append_nil, SameIds.map_pid hl]
    exact iff_of_true (h.sublist (hlsub.map _)) (by simp)
  rw [hone, SameIds.map_pid (hall hreaps), nodup_append]
  simp only [mem_singleton, forall_eq]
  constructor
  · intro hnodup hmem
    exact hnodup.2.2 _ hmem rfl
  · intro hfree
    refine ⟨h, nodup_singleton _, ?_⟩
    intro pid hpid heq
    exact hfree (heq ▸ hpid)

/-- In a run from the start pids are unique throughout, and every lookup finds the process that
was meant, exactly if every process created on the way got a pid that was not in the table. -/
theorem pidsUnique_iff (events : List Event) :
    Machine.Always step
        (fun k => k.PidsUnique ∧ ∀ p ∈ k.procs, getProcess k.procs p.pid = some p) boot events ↔
      Machine.Meets step TakesFreePid boot events := by
  have hboth : (fun k : Kernel => k.PidsUnique ∧ ∀ p ∈ k.procs, getProcess k.procs p.pid = some p) =
      PidsUnique := by
    funext k
    exact propext (and_iff_left_of_imp fun h p hp => h.getProcess_eq hp)
  rw [hboth]
  have hboot : boot.PidsUnique := nodup_singleton 0
  exact Machine.always_iff_meets (P := PidsUnique) (fun k event h => step_pidsUnique h event)
    hboot events

/-! ## The counter comes around -/

def forkAndReap : List Event := [.fork true, .schedule true, .exit true 0, .wait4 (-1) 0 true]

structure Named (p : Process) (pid parentPid : Nat) (state : ProcessState) : Prop where
  pid : p.pid = pid
  parentPid : p.parentPid = parentPid
  state : p.state = state
  isThread : p.isThread = false

section Round

variable {a b c : Process} {n next births : Nat} {timers : Timers}

lemma fork_second (ha : Named a 0 0 .runnable) (hb : Named b 1 0 .running) :
    step ⟨[a, b], n, 1, births, timers⟩ (.fork true) =
      ⟨[a, b, b.forkChild n births], (n + 1) % 2 ^ 16, 1, births + 1, timers⟩ := by
  simp [step, fork, getProcess, ha.pid, hb.pid, takePid, pushBack]

lemma schedule_third (ha : Named a 0 0 .runnable) (hb : Named b 1 0 .running)
    (hc : Named c n 1 .runnable) :
    step ⟨[a, b, c], next, 1, births, timers⟩ (.schedule true) =
      ⟨[a, b.switchOut, c.setState .running], next, n, births, timers⟩ := by
  have hout : b.switchOut.state = .runnable := by
    rw [Process.switchOut, if_pos hb.state]
  simp [step, scheduleNow, findProcessIndex, findNextRunnableIndex, switchByIndexGuarded,
    validatePreSwitchOwner, validateRunningOwner, isRunning, List.findIdx?_cons, ha.pid, hb.pid,
    hc.pid, hc.state, ha.state, hb.state, hout, Process.setState, range'_succ]

lemma switchAfterExit_third (ha : Named a 0 0 .runnable) (hb : Named b 1 0 .runnable)
    (hc : Named c n 1 .dead) :
    switchAfterExit ⟨[a, b, c], next, n, births, timers⟩ 2 1 =
      ⟨[a, b.setState .running, c], next, 1, births, timers⟩ := by
  have hout : c.switchOut = c := if_neg (by simp [hc.state])
  simp [switchAfterExit, findProcessIndex, switchByIndexGuarded, validatePreSwitchOwner,
    validateRunningOwner, isRunning, List.findIdx?_cons, ha.pid, hb.pid, ha.state, hb.state,
    hc.state, hout, Process.setState, Option.filter_some]

lemma exit_third (hn : 2 ≤ n) (ha : Named a 0 0 .runnable) (hb : Named b 1 0 .runnable)
    (hb' : Named b.childExited 1 0 .runnable) (hc : Named c n 1 .running) :
    step ⟨[a, b, c], next, n, births, timers⟩ (.exit true 0) =
      ⟨[a, b.childExited.setState .running, (c.die 0).setWaitStatus 0], next, 1, births,
        timers⟩ := by
  have hn0 : ¬ (0 = n) := by omega
  have hn1 : ¬ (1 = n) := by omega
  have hn1' : ¬ (n = 1) := by omega
  have hleave : leaveTable ⟨[a, b, c], next, n, births, timers⟩ 2 0 0 1 =
      ⟨[a, b.childExited, (c.die 0).setWaitStatus 0], next, n, births, timers⟩ := by
    simp [leaveTable, reparentChildren, adoptedBy, updateProcess, findProcessIndex,
      List.findIdx?_cons, ha.pid, hb.pid, ha.parentPid, hb.parentPid, hc.parentPid, hn0,
      hn1]
  have hdead : Named ((c.die 0).setWaitStatus 0) n 1 .dead :=
    ⟨hc.pid, hc.parentPid, rfl, hc.isThread⟩
  rw [← switchAfterExit_third ha hb' hdead, ← hleave]
  simp [step, exit, findProcessIndex, getProcess, List.findIdx?_cons, ha.pid, hb.pid, hc.pid,
    hc.isThread, hc.parentPid, hn0, hn1]

lemma wait4_third (ha : Named a 0 0 .runnable) (hb : Named b 1 0 .running)
    (hc : Named c n 1 .dead) :
    step ⟨[a, b, c], next, 1, births, timers⟩ (.wait4 (-1) 0 true) =
      ⟨[a, b], next, 1, births, timers⟩ := by
  simp [step, wait4, waitSelects, List.findIdx?_cons, ha.parentPid, hb.parentPid, hc.parentPid,
    ha.isThread, hb.isThread, hc.isThread, hc.state]

end Round

/-- Process 1 runs beside process 0, with no child, and `n` is the next pid. -/
def Resting (k : Kernel) (n : Nat) : Prop :=
  ∃ a b births timers, Named a 0 0 .runnable ∧ Named b 1 0 .running ∧
    k = ⟨[a, b], n, 1, births, timers⟩

lemma Resting.forkAndReap {n : Nat} (h : Resting k n) (hn : 2 ≤ n) :
    Resting (k.run forkAndReap) ((n + 1) % 2 ^ 16) := by
  obtain ⟨a, b, births, timers, ha, hb, rfl⟩ := h
  have hchild : Named (b.forkChild n births) n 1 .runnable := ⟨rfl, hb.pid, rfl, rfl⟩
  have hout : b.switchOut = b.setState .runnable := if_pos hb.state
  have hb₁ : Named b.switchOut 1 0 .runnable := by
    rw [hout]
    exact ⟨hb.pid, hb.parentPid, rfl, hb.isThread⟩
  have hb₂ : Named b.switchOut.childExited 1 0 .runnable := by
    rw [hout]
    exact ⟨hb.pid, hb.parentPid, rfl, hb.isThread⟩
  have hb₃ : Named (b.switchOut.childExited.setState .running) 1 0 .running :=
    ⟨hb₂.pid, hb₂.parentPid, rfl, hb₂.isThread⟩
  have hrun : Named ((b.forkChild n births).setState .running) n 1 .running :=
    ⟨rfl, hb.pid, rfl, rfl⟩
  refine ⟨a, _, births + 1, timers, ha, hb₃, ?_⟩
  rw [run, Kernel.forkAndReap, foldl_cons, foldl_cons, foldl_cons, foldl_cons,
    foldl_nil, fork_second ha hb, schedule_third ha hb hchild, exit_third hn ha hb₁ hb₂ hrun,
    wait4_third ha hb₃ ⟨rfl, hb.pid, rfl, rfl⟩]

lemma Resting.rounds {n : Nat} (h : Resting k n) (hn : 2 ≤ n) (m : Nat) (hm : n + m < 2 ^ 16) :
    Resting (k.run (List.replicate m Kernel.forkAndReap).flatten) (n + m) := by
  induction m with
  | zero => exact h
  | succ m ih =>
    have hround := (ih (by omega)).forkAndReap (by omega)
    rw [Nat.mod_eq_of_lt (by omega)] at hround
    rwa [replicate_succ', flatten_append, run, foldl_append]

/-- Enough forks for the counter to come around to the pid of the bootstrap process. -/
def wrapAround : List Event :=
  .launch true :: ((List.replicate 65533 forkAndReap).flatten ++ forkAndReap ++ [.fork true])

/-- After 65534 forks the counter has wrapped around, and the next child gets number 0. -/
theorem pids_collide :
    (boot.run wrapAround).procs.map (·.pid) = [0, 1, 0] ∧ ¬ (boot.run wrapAround).PidsUnique := by
  have hstart : Resting (boot.step (.launch true)) 2 :=
    ⟨_, _, _, _, ⟨rfl, rfl, rfl, rfl⟩, ⟨rfl, rfl, rfl, rfl⟩, rfl⟩
  have hlast := (hstart.rounds (by omega) 65533 (by omega)).forkAndReap (by omega)
  obtain ⟨a, b, births, timers, ha, hb, hk⟩ := hlast
  have hend : boot.run wrapAround = step ⟨[a, b], 0, 1, births, timers⟩ (.fork true) := by
    rw [run, wrapAround, foldl_cons, foldl_append, foldl_append, foldl_cons, foldl_nil]
    exact congrArg (fun k => step k (.fork true)) hk
  have hpids : (boot.run wrapAround).procs.map (·.pid) = [0, 1, 0] := by
    rw [hend, fork_second ha hb]
    simp [ha.pid, hb.pid, Process.forkChild]
  rw [PidsUnique, hpids]
  decide

end Kernel

end Twilight.Proc

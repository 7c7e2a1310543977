/-
# Waking the threads that wait on a futex

`FutexWait` parks a thread with the future `WaitFutex`, and `FutexWake` makes the first `n` threads
ready that HAVE this future.  A woken thread keeps it until the scheduler polls it, so a second call
before that finds the same thread again and spends one of its wake-ups on it.

`futexWaiters` are the threads that are still blocked, `picked` the ones a call picks.  A call wakes
as many waiters as it should exactly if it picks waiters only, or all of them.
-/
import BeetKernel.Ipc.Threads
import BeetKernel.Kernel.FreshPages

namespace BeetKernel

/-! ## 1. Picking from a set -/

/-- Taking `min n h` elements away, of at least as many as `b` has, takes as many from `b` as can be
just if no pick is wasted. -/
theorem card_sdiff_eq_iff {b c : Finset TID} {n h : Nat} (hc : c.card = min n h) (hb : b.card ≤ h) :
    (b \ c).card + min n b.card = b.card ↔ c ⊆ b ∨ b ⊆ c := by
  have hsplit := Finset.card_sdiff_add_card_inter b c
  have hle : (b ∩ c).card ≤ c.card := Finset.card_le_card Finset.inter_subset_right
  constructor
  · intro hcard
    rcases Nat.le_total n b.card with hn | hn
    · left
      have heq : b ∩ c = c := Finset.eq_of_subset_of_card_le Finset.inter_subset_right (by omega)
      exact Finset.inter_eq_right.mp heq
    · right
      have heq : b ∩ c = b := Finset.eq_of_subset_of_card_le Finset.inter_subset_left (by omega)
      exact Finset.inter_eq_left.mp heq
  · rintro (hsub | hsub)
    · rw [Finset.inter_eq_right.mpr hsub] at hsplit
      have := Finset.card_le_card hsub
      omega
    · rw [Finset.inter_eq_left.mpr hsub] at hsplit
      have := Finset.card_le_card hsub
      omega

namespace Kernel

variable {k k' : Kernel} {pid : PID} {addr n : Nat}

/-! ## 2. What a call does -/

/-- The threads with the future, in the order in which `FutexWake` looks at them. -/
def futexHolders (pid : PID) (addr : Nat) (k : Kernel) : List TID :=
  (List.range' 1 (maxThreadCount - 1)).filter fun tid => k.ipc.future (pid, tid) = some (.waitFutex addr)

/-- The threads blocked in `FutexWait`. -/
def futexWaiters (pid : PID) (addr : Nat) (k : Kernel) : Finset TID :=
  (futexHolders pid addr k).toFinset.filter fun tid => k.ipc.state (pid, tid) ≠ .ready

/-- The threads that a call makes ready. -/
def picked (pid : PID) (addr n : Nat) (k : Kernel) : Finset TID := ((futexHolders pid addr k).take n).toFinset

/-- The threads `ts` of `pid` are made ready, and the futures stay. -/
structure MadeReady (pid : PID) (ts : List TID) (k k' : Kernel) : Prop where
  running : k'.currentPid = k.currentPid
  future : k'.ipc.future = k.ipc.future
  state : ∀ t, k'.ipc.state t = if t.1 = pid ∧ t.2 ∈ ts then .ready else k.ipc.state t

theorem MadeReady.cons {k1 : Kernel} {tid : TID} {ts : List TID} (hp : k1.currentPid = k.currentPid)
    (hf : k1.ipc.future = k.ipc.future)
    (hs : k1.ipc.state = Function.update k.ipc.state (pid, tid) .ready) (h : MadeReady pid ts k1 k') :
    MadeReady pid (tid :: ts) k k' := by
  refine ⟨h.running.trans hp, h.future.trans hf, fun t => ?_⟩
  rw [h.state, hs, Function.update_apply]
  by_cases ht : t = (pid, tid)
  · subst ht
    simp
  · have hne : ¬ (t.1 = pid ∧ t.2 = tid) := fun h => ht (Prod.ext h.1 h.2)
    by_cases hpid : t.1 = pid
    · have htid : t.2 ≠ tid := fun h => hne ⟨hpid, h⟩
      simp [ht, hpid, htid]
    · simp [ht, hpid]

theorem futexWakeFrom_wp (addr : Nat) : ∀ (l : List TID) (n : Nat) (k : Kernel), (∀ tid ∈ l, tid < maxThreadCount) →
    Exec.wp (futexWakeFrom k.currentPid addr l n) (fun _ k' => MadeReady k.currentPid
      ((l.filter fun tid => k.ipc.future (k.currentPid, tid) = some (.waitFutex addr)).take n) k k')
      (fun _ _ => True) k
  | [], n, k, _ => ⟨rfl, rfl, fun t => by simp⟩
  | tid :: rest, n, k, hl => by
    have hrest : ∀ tid ∈ rest, tid < maxThreadCount := fun t ht => hl t (List.mem_cons_of_mem _ ht)
    unfold futexWakeFrom
    split
    next hn =>
      subst hn
      exact ⟨rfl, rfl, fun t => by simp⟩
    next hn =>
      obtain ⟨m, rfl⟩ := Nat.exists_eq_succ_of_ne_zero hn
      rw [Exec.wp_bind]
      refine Exec.wp_of_post (F := fun _ => True) (post_currentProcess (fun p hp => ?_) fun _ _ _ => trivial)
      rw [← ipc_future (t := (k.currentPid, tid)) hp]
      split
      next hfut =>
        rw [List.filter_cons_of_pos (by simpa using hfut), List.take_succ_cons, Exec.wp_bind]
        refine Exec.wp_mono (Exec.wp_of_post (setMailbox_post _ _ k)) (fun _ k1 h1 => ?_) fun _ _ _ => trivial
        refine Exec.wp_seq (Exec.wp_of_post (setThreadState_post _ _ k1)) (fun _ k2 h2 => ?_) fun _ _ _ =>
          trivial
        have hmail : k1.ipc = k.ipc.setMailbox _ _ := h1.2.1 (hl tid List.mem_cons_self)
        have hpid : k2.currentPid = k.currentPid := by rw [h2.2, h1.1]
        have hfuture : k2.ipc.future = k.ipc.future := by rw [h2.1.rest, hmail]; rfl
        have hstate : k2.ipc.state = Function.update k.ipc.state (k.currentPid, tid) .ready := by
          rw [h2.1.rest, hmail]
          rfl
        have ih := futexWakeFrom_wp addr rest m k2 hrest
        rw [hpid, hfuture] at ih
        exact Exec.wp_mono ih (fun _ _ h => h.cons hpid hfuture hstate) fun _ _ h => h
      next hfut =>
        rw [List.filter_cons_of_neg (by simpa using hfut)]
        exact futexWakeFrom_wp addr rest (m + 1) k hrest

theorem futexWake_waiters {tid : TID} {r : Response} (h : dispatch tid (.futexWake addr n) k = .ok r k') :
    futexWaiters k.currentPid addr k' = futexWaiters k.currentPid addr k \ picked k.currentPid addr n k := by
  simp only [dispatch, Exec.get_bind_run, Exec.bind_eq_ok] at h
  obtain ⟨_, k1, hrun, hend⟩ := h
  cases hend
  have hready := Exec.wp_ok (futexWakeFrom_wp addr _ n k fun tid htid =>
    (List.mem_range'_1.mp htid).2) hrun
  ext tid
  simp only [futexWaiters, picked, futexHolders, hready.future, hready.state, Finset.mem_sdiff,
    Finset.mem_filter, List.mem_toFinset, true_and]
  by_cases htid : tid ∈ ((List.range' 1 (maxThreadCount - 1)).filter fun tid =>
    k.ipc.future (k.currentPid, tid) = some (.waitFutex addr)).take n <;> simp [htid]

/-- **One call wakes as many as it should just if no pick is wasted.** -/
theorem futexWake_count {tid : TID} {r : Response} (h : dispatch tid (.futexWake addr n) k = .ok r k') :
    (futexWaiters k.currentPid addr k').card + min n (futexWaiters k.currentPid addr k).card =
      (futexWaiters k.currentPid addr k).card ↔
    picked k.currentPid addr n k ⊆ futexWaiters k.currentPid addr k ∨
      futexWaiters k.currentPid addr k ⊆ picked k.currentPid addr n k := by
  have hnodup : (futexHolders k.currentPid addr k).Nodup := List.Nodup.filter _ List.nodup_range'
  rw [futexWake_waiters h]
  refine card_sdiff_eq_iff (h := (futexHolders k.currentPid addr k).length) ?_ ?_
  · rw [picked, List.toFinset_card_of_nodup (hnodup.sublist (List.take_sublist n _)), List.length_take]
  · exact (Finset.card_filter_le _ _).trans (List.toFinset_card_le _)

/-! ## 3. A sequence of calls -/

/-- The waiters stay, whichever of the woken threads have run. -/
structure Between (pid : PID) (addr : Nat) (k k' : Kernel) : Prop where
  waiters : futexWaiters pid addr k' = futexWaiters pid addr k
  holders : ∀ tid ∈ futexHolders pid addr k', tid ∈ futexHolders pid addr k

/-- Calls of `FutexWake` by threads of `pid`, with the given counts and in states that meet `C`, and
between them whatever leaves the waiters alone. -/
inductive WakeRun (C : Nat → Kernel → Prop) (pid : PID) (addr : Nat) (k₀ : Kernel) :
    List Nat → Kernel → Prop
  | start : WakeRun C pid addr k₀ [] k₀
  | wake {ns : List Nat} {k k' : Kernel} {n : Nat} {tid : TID} {r : Response} :
      WakeRun C pid addr k₀ ns k → k.currentPid = pid → C n k →
        dispatch tid (.futexWake addr n) k = .ok r k' → WakeRun C pid addr k₀ (ns ++ [n]) k'
  | other {ns : List Nat} {k k' : Kernel} : WakeRun C pid addr k₀ ns k → Between pid addr k k' → WakeRun C pid addr k₀ ns k'

/-- No pick is wasted on a thread that has been woken and has not run since. -/
def NoWaste (pid : PID) (addr n : Nat) (k : Kernel) : Prop :=
  picked pid addr n k ⊆ futexWaiters pid addr k ∨ futexWaiters pid addr k ⊆ picked pid addr n k

/-- **Where no pick is wasted, the calls wake as many different waiters as they should.** -/
theorem futex_wakes_exact (pid : PID) (addr : Nat) (k₀ k : Kernel) (ns : List Nat)
    (h : WakeRun (NoWaste pid addr) pid addr k₀ ns k) :
    futexWaiters pid addr k ⊆ futexWaiters pid addr k₀ ∧
      (futexWaiters pid addr k₀ \ futexWaiters pid addr k).card = min (futexWaiters pid addr k₀).card ns.sum := by
  induction h with
  | start => simp
  | other _ hb ih => rwa [hb.waiters]
  | @wake ns k k' n tid r _ hpid hC hrun ih =>
    subst hpid
    have hcount := (futexWake_count hrun).mpr hC
    have hsub : futexWaiters k.currentPid addr k' ⊆ futexWaiters k.currentPid addr k := by
      rw [futexWake_waiters hrun]
      exact Finset.sdiff_subset
    refine ⟨hsub.trans ih.1, ?_⟩
    have h1 := Finset.card_sdiff_add_card_eq_card ih.1
    have h2 := Finset.card_sdiff_add_card_eq_card (hsub.trans ih.1)
    rw [List.sum_append, List.sum_singleton]
    omega

end Kernel

namespace Machine

/-- Two more threads of process 2 wait on the futex at address 0. -/
def twoWaiters : Kernel := { kernel fun _ => 0 with
    processes := fun pid =>
      if pid = p2 then some { userProcess with
        threads := fun tid => if tid = 1 then .ready
          else if tid = 2 ∨ tid = 3 then .waitEvent eventKernel else .free
        kernelFutures := fun tid => if tid = 2 ∨ tid = 3 then some (.waitFutex 0) else none }
      else processes pid }

end Machine

namespace Kernel

open Machine

/-- One call that wakes both. -/
theorem futex_wakes_both : ∃ k, WakeRun (NoWaste p2 0) p2 0 twoWaiters [2] k ∧
    (futexWaiters p2 0 twoWaiters \ futexWaiters p2 0 k).card = min (futexWaiters p2 0 twoWaiters).card 2 := by
  have hrun : (dispatch 1 (.futexWake 0 2) twoWaiters).any (fun _ _ => true) = true := by decide +kernel
  obtain ⟨r, k', hok, -⟩ := Outcome.any_eq_true hrun
  have hC : NoWaste p2 0 2 twoWaiters := .inl (by decide +kernel)
  have h := WakeRun.wake (C := NoWaste p2 0) .start (show twoWaiters.currentPid = p2 from rfl) hC hok
  exact ⟨k', h, (futex_wakes_exact p2 0 _ _ _ h).2⟩

/-- Two calls for one thread each wake the same thread if it does not run between them. -/
theorem futex_wakes_same_thread : ∃ k, WakeRun (fun _ _ => True) p2 0 twoWaiters [1, 1] k ∧
    (futexWaiters p2 0 twoWaiters).card = 2 ∧ (futexWaiters p2 0 twoWaiters \ futexWaiters p2 0 k).card = 1 := by
  have hrun : (dispatch 1 (.futexWake 0 1) twoWaiters).any (fun _ k1 => decide (k1.currentPid = p2) &&
      (dispatch 1 (.futexWake 0 1) k1).any fun _ k2 =>
        decide ((futexWaiters p2 0 twoWaiters \ futexWaiters p2 0 k2).card = 1)) = true := by decide +kernel
  obtain ⟨r1, k1, hfirst, hrun⟩ := Outcome.any_eq_true hrun
  obtain ⟨hpid, hrun⟩ := (Bool.and_eq_true _ _).mp hrun
  obtain ⟨r2, k2, hsecond, hrun⟩ := Outcome.any_eq_true hrun
  have h1 := WakeRun.wake (C := fun _ _ => True) .start (show twoWaiters.currentPid = p2 from rfl) trivial hfirst
  exact ⟨k2, h1.wake (of_decide_eq_true hpid) trivial hsecond, by decide +kernel, of_decide_eq_true hrun⟩

end Kernel

end BeetKernel

/-
# Taking turns

Threads of the highest ready priority that have no call pending take turns: whoever runs and
yields, or is interrupted by the timer, goes to the end of its list, and the head of the list runs
next.  So in as many events as there are threads each of them runs once, in the order of the list,
and no thread of a lower priority runs at all.
-/
import BeetKernel.Ipc.Runs

namespace BeetKernel

open Exec (unwrap bind_run)

namespace Scheduler

theorem IsHighest.unique {L : ReadyLists} {h h' : Fin 16} (hh : IsHighest L h) (hh' : IsHighest L h')
    (hne : L h ≠ []) : h' = h := by
  have hle : h ≤ h' := hh'.1 h hne
  rcases hh'.2 with hne' | hidle
  · exact le_antisymm (hh.1 h' hne') hle
  · exact le_antisymm (hidle ▸ Fin.zero_le h) hle

end Scheduler

namespace Kernel

open Ipc

variable {k k' k₀ : Kernel} {es : List Event} {L : Scheduler.ReadyLists} {ts : List ThreadId} {t : ThreadId}

/-- The lists of the scheduler are `L`, and hold the ready threads, each at its own priority. -/
def Lists (k : Kernel) (L : Scheduler.ReadyLists) : Prop := Scheduler.Repr k.scheduler L ∧
    ∀ t q, t ∈ L q ↔ t.2 ≠ irqTid ∧ k.threadState t = .ready ∧ (k.threadPriority t).toIndex = q

/-- The thread exists and can be switched to. -/
structure Switchable (k : Kernel) (t : ThreadId) : Prop where
  process : (k.processes t.1).isSome = true
  pid : t.1.get ≤ maxProcessCount
  tid : t.2 < maxThreadCount
  allocated : k.allocated t = true

/-- Outside an interrupt handler, the threads `ts` are those of the highest ready priority in the
order in which they will run.  The first of them runs now, and none has a call pending. -/
structure Rotating (k : Kernel) (ts : List ThreadId) : Prop where
  irq : k.scheduler.inIrqHandler = false
  lists : ∃ L, Scheduler.Repr k.scheduler L ∧ L k.scheduler.highestReadyPriority = ts
  priority : ∀ t ∈ ts, (k.threadPriority t).toIndex = k.scheduler.highestReadyPriority
  future : ∀ t ∈ ts, k.kernelFuture t = none
  threads : ∀ t ∈ ts, Switchable k t
  running : ts.head? = some k.currentThread

/-! ## 1. One turn -/

/-- Writing registers changes nothing here. -/
structure SameTurns (k k' : Kernel) : Prop where
  processes : k'.processes = k.processes
  scheduler : k'.scheduler = k.scheduler
  allocated : k'.allocated = k.allocated
  current : k'.currentThread = k.currentThread

theorem Rotating.same (h : Rotating k ts) (hs : SameTurns k k') : Rotating k' ts := by
  have hp : k'.threadPriority = k.threadPriority := by
    funext t
    rw [threadPriority, threadPriority, hs.processes]
  have hf : k'.kernelFuture = k.kernelFuture := by
    funext t
    rw [kernelFuture, kernelFuture, hs.processes]
  constructor
  · rw [hs.scheduler]
    exact h.irq
  · rw [hs.scheduler]
    exact h.lists
  · rw [hp, hs.scheduler]
    exact h.priority
  · rw [hf]
    exact h.future
  · intro t ht
    obtain ⟨h1, h2, h3, h4⟩ := h.threads t ht
    exact ⟨hs.processes ▸ h1, h2, h3, hs.allocated ▸ h4⟩
  · rw [hs.current]
    exact h.running

theorem takeKernelFuture_none {p : Process} (hp : k.processes t.1 = some p)
    (hle : t.1.get ≤ maxProcessCount) (htid : t.2 < maxThreadCount) (hf : k.kernelFuture t = none) :
    takeKernelFuture t k = .ok none k := by
  have hfut : p.kernelFutures t.2 = none := by simpa [kernelFuture, hp] using hf
  have hsame : Function.update p.kernelFutures t.2 none = p.kernelFutures := by
    rw [← hfut, Function.update_eq_self]
  have hproc : Function.update k.processes t.1 (some p) = k.processes := by
    rw [← hp, Function.update_eq_self]
  simp [takeKernelFuture, process, setProcess, bind_run, Exec.assert, hp, hle, htid, hfut, hsame, hproc]

theorem pollThread_none (ht : Switchable k t) (hf : k.kernelFuture t = none) : pollThread t k = .ok true k := by
  obtain ⟨p, hp⟩ := Option.isSome_iff_exists.mp ht.process
  simp [pollThread, bind_run, unwrap, takeKernelFuture_none hp ht.pid ht.tid hf]

/-- The processor goes to the thread. -/
def switched (t : ThreadId) (k : Kernel) : Kernel :=
  setTid t { k with currentPid := t.1, activeMapping := t.1 }

theorem setTid_run {a : ProcessImpl} (ha : k.archProcesses t.1 = some a) (hal : k.allocated t = true) :
    setTid t k = { k with
      archProcesses := Function.update k.archProcesses t.1 (some { a with currentThread := t.2 }) } := by
  rw [setTid, if_pos hal, ha]

/-- Nothing but the running thread changes. -/
structure Switched (t : ThreadId) (k k' : Kernel) : Prop where
  processes : k'.processes = k.processes
  scheduler : k'.scheduler = k.scheduler
  allocated : k'.allocated = k.allocated
  current : k'.currentThread = t

theorem switched_spec (ht : k.allocated t = true) : Switched t k (switched t k) := by
  obtain ⟨a, ha⟩ : ∃ a, k.archProcesses t.1 = some a := by
    cases h : k.archProcesses t.1 with
    | none => simp [Kernel.allocated, h] at ht
    | some a => exact ⟨a, rfl⟩
  have hal : ({ k with currentPid := t.1, activeMapping := t.1 } : Kernel).allocated t = true := ht
  rw [switched, setTid_run (k := { k with currentPid := t.1, activeMapping := t.1 }) ha hal]
  refine ⟨rfl, rfl, ?_, ?_⟩
  · funext u
    by_cases hu : u.1 = t.1
    · simp [Kernel.allocated, hu, ha]
    · simp [Kernel.allocated, hu]
  · simp [currentThread, currentTid]

theorem switchTo_run (ht : Switchable k t) : ∃ k', switchTo k.currentThread t k = .ok () k' ∧ Switched t k k' := by
  obtain ⟨p, hp⟩ := Option.isSome_iff_exists.mp ht.process
  by_cases hcur : t = k.currentThread
  · exact ⟨k, by simp [switchTo, hcur], rfl, rfl, rfl, hcur.symm⟩
  · refine ⟨switched t k, ?_, switched_spec ht.allocated⟩
    simp [switchTo, hcur, process, activate, switched, bind_run, unwrap, Exec.assert, hp, ht.pid]

theorem activateCurrent_run (hirq : k.scheduler.inIrqHandler = false) (hnext : k.nextThread = some t)
    (hf : k.kernelFuture t = none) (ht : Switchable k t) :
    ∃ k', activateCurrent k = .ok .resumeProcess k' ∧ Switched t k k' := by
  obtain ⟨k', hrun, hsw⟩ := switchTo_run ht
  refine ⟨k', ?_, hsw⟩
  simp [activateCurrent, hirq, activateLoop, hnext, bind_run, pollThread_none ht hf, hrun]

/-- The running thread goes to the end of its list, and the next one runs. -/
theorem rotate_run (h : Rotating k ts) (ht : k.currentThread = t) : ∃ p k1 k', currentProcess k = .ok p k ∧
    withScheduler (Scheduler.yieldThread t (p.threadPriorities t.2)) k = .ok () k1 ∧
    activateCurrent k1 = .ok .resumeProcess k' ∧ Rotating k' (ts.rotate 1) := by
  subst ht
  obtain ⟨L, hrepr, hL⟩ := h.lists
  obtain ⟨r, rfl⟩ : ∃ r, ts = k.currentThread :: r := by
    have hrun := h.running
    cases ts with
    | nil => cases hrun
    | cons a r => exact ⟨r, by rw [List.head?_cons, Option.some.injEq] at hrun; rw [hrun]⟩
  have hmem : k.currentThread ∈ k.currentThread :: r := List.mem_cons_self
  have hth := h.threads _ hmem
  obtain ⟨p, hp⟩ := Option.isSome_iff_exists.mp hth.process
  have hprio : (p.threadPriorities k.currentTid).toIndex = k.scheduler.highestReadyPriority := by
    have hpr := h.priority _ hmem
    have hthread : k.threadPriority k.currentThread = p.threadPriorities k.currentTid := by
      rw [threadPriority, hp]
      rfl
    rw [hthread] at hpr
    exact hpr
  obtain ⟨s', hyield, hirq', hrepr'⟩ := hrepr.yieldThread_head (hprio ▸ hL)
  rw [hprio] at hrepr'
  have hhigh : s'.highestReadyPriority = k.scheduler.highestReadyPriority := by
    refine Scheduler.IsHighest.unique ?_ hrepr'.highest (by simp)
    have hup := hrepr.highest.update_cons (p := k.scheduler.highestReadyPriority)
      (l := r ++ [k.currentThread]) (by simp)
    rwa [if_neg (lt_irrefl _)] at hup
  have hlist : (Function.update L k.scheduler.highestReadyPriority (r ++ [k.currentThread]))
      s'.highestReadyPriority = r ++ [k.currentThread] := by rw [hhigh, Function.update_self]
  obtain ⟨u, hu⟩ : ∃ u, (r ++ [k.currentThread]).head? = some u := by
    cases r with
    | nil => exact ⟨_, rfl⟩
    | cons a r => exact ⟨a, rfl⟩
  have humem : u ∈ k.currentThread :: r := by
    have := List.mem_of_mem_head? hu
    simp only [List.mem_append, List.mem_singleton] at this
    exact List.mem_cons.mpr this.symm
  have hnext : ({ k with scheduler := s' } : Kernel).nextThread = some u := by
    rw [nextThread, hrepr'.head, hlist, hu]
  have hthu := h.threads u humem
  obtain ⟨k', hrun, hsw⟩ := activateCurrent_run (k := { k with scheduler := s' })
    (hirq'.trans h.irq) hnext (h.future u humem) ⟨hthu.process, hthu.pid, hthu.tid, hthu.allocated⟩
  refine ⟨p, { k with scheduler := s' }, k', ?_, ?_, hrun, ?_⟩
  · have hcur : k.processes k.currentPid = some p ∧ k.currentPid.get ≤ maxProcessCount := ⟨hp, hth.pid⟩
    simp [currentProcess, process, bind_run, unwrap, Exec.assert, hcur]
  · have hyield' : Scheduler.yieldThread k.currentThread (p.threadPriorities k.currentThread.2) k.scheduler =
        .ok () s' := hyield
    simp [withScheduler, Exec.zoom, hyield']
  · have hperm : ∀ v, v ∈ r ++ [k.currentThread] ↔ v ∈ k.currentThread :: r := fun v => by
      simp [or_comm]
    rw [List.rotate_cons_succ, List.rotate_zero]
    have hpri : k'.threadPriority = k.threadPriority := by
      funext v
      rw [threadPriority, threadPriority, hsw.processes]
    have hfut : k'.kernelFuture = k.kernelFuture := by
      funext v
      rw [kernelFuture, kernelFuture, hsw.processes]
    refine ⟨?_, ⟨_, by rw [hsw.scheduler]; exact hrepr', ?_⟩, fun v hv => ?_, fun v hv => ?_, fun v hv => ?_, ?_⟩
    · rw [hsw.scheduler]
      exact hirq'.trans h.irq
    · rw [hsw.scheduler]
      exact hlist
    · rw [hpri, hsw.scheduler]
      exact (h.priority v ((hperm v).mp hv)).trans hhigh.symm
    · rw [hfut]
      exact h.future v ((hperm v).mp hv)
    · obtain ⟨h1, h2, h3, h4⟩ := h.threads v ((hperm v).mp hv)
      exact ⟨hsw.processes ▸ h1, h2, h3, by rw [hsw.allocated]; exact h4⟩
    · rw [hu, hsw.current]

/-- The running thread yields, or the timer interrupts it. -/
inductive Event.Rotates : Event → Prop where
  | yield (frame : Context) : Rotates (.svc frame .yield)
  | timer (frame : Context) : Rotates (.timer frame)

theorem saveContext_turns (frame : Context) (k : Kernel) : SameTurns k (saveContext k.currentThread frame k) := by
  refine ⟨(by rw [saveContext_eq]), (by rw [saveContext_eq]), ?_, own_current (saveContext_step frame k).1⟩
  funext u
  unfold saveContext
  split
  · rfl
  next a ha =>
    by_cases hu : u.1 = k.currentThread.1
    · by_cases hu' : u.2 = k.currentThread.2
      · simp [Kernel.allocated, hu, hu', ha]
      · simp [Kernel.allocated, hu, hu', ha]
    · simp [Kernel.allocated, hu]

theorem setSavedResult_turns (r : Result) (k : Kernel) : SameTurns k (setSavedResult k.currentThread r k) := by
  have hipc := ipc_setSavedResult k.currentThread r k
  refine ⟨?_, congrArg Ipc.scheduler hipc, congrArg Ipc.allocated hipc, own_current (own_savedResult k r).1⟩
  unfold setSavedResult
  split
  · rfl
  · split <;> rfl

/-- **One turn**: the next thread of the list runs. -/
theorem exec_rotates {e : Event} (h : Rotating k ts) (he : e.Rotates) :
    ∃ k', exec e k = .ok () k' ∧ Rotating k' (ts.rotate 1) := by
  cases he with
  | yield frame =>
    have hsave := saveContext_turns frame k
    have hset := setSavedResult_turns .ok (saveContext k.currentThread frame k)
    obtain ⟨p, k1, k', hp, hrot, hact, hk'⟩ := rotate_run ((h.same hsave).same hset) (hset.current.trans hsave.current)
    have hown := setOwnResult_run (saveContext k.currentThread frame k) k.currentTid .ok
    have hpid : (saveContext k.currentThread frame k).currentPid = k.currentPid := congrArg Prod.fst hsave.current
    rw [hsave.current] at hp hrot
    rw [hpid] at hown
    have hcall : handleCall k.currentTid .yield (saveContext k.currentThread frame k) = .ok .resumeProcess k' := by
      have hown' : setThreadResult (k.currentPid, k.currentTid) .ok (saveContext k.currentThread frame k) =
          .ok () (setSavedResult k.currentThread .ok (saveContext k.currentThread frame k)) := hown
      have hrot' : withScheduler (Scheduler.yieldThread (k.currentPid, k.currentTid) (p.threadPriorities k.currentTid))
          (setSavedResult k.currentThread .ok (saveContext k.currentThread frame k)) = .ok () k1 := hrot
      simp only [handleCall, handle, checkSyscallPermission, dispatch, bind_run, Exec.pure_run,
        Exec.get_run, hpid, hown', hp, hrot', hact]
    refine ⟨k', ?_, hk'⟩
    simp only [exec, handleSvc, bind_run, Exec.get_run, Exec.modify_run, Exec.attempt]
    rw [show k.currentThread.2 = k.currentTid from rfl, hcall]
    rfl
  | timer frame =>
    have hsave := saveContext_turns frame k
    obtain ⟨p, k1, k', hp, hrot, hact, hk'⟩ := rotate_run (h.same hsave) hsave.current
    refine ⟨k', ?_, hk'⟩
    have hrot' : withScheduler (Scheduler.yieldThread k.currentThread (p.threadPriorities k.currentTid))
        (saveContext k.currentThread frame k) = .ok () k1 := hrot
    simp only [exec, handleTimer, bind_run, Exec.get_run, Exec.modify_run, hp, hrot', Exec.ignore, hact]

/-! ## 2. A round -/

/-- The threads that run after each of the events, if the kernel survives them. -/
def resumptions : List Event → Kernel → Option (List ThreadId)
  | [], _ => some []
  | e :: es, k => match exec e k with
    | .ok _ k' => (resumptions es k').map (k'.currentThread :: ·)
    | _ => none

theorem rotate_take {α : Type} {l : List α} {a : α} {n : Nat} (hhead : l.head? = some a)
    (hn : n < l.length) : a :: (l.rotate 1).take n = l.take (n + 1) := by
  cases l with
  | nil => cases hhead
  | cons b l =>
    cases hhead
    rw [List.rotate_cons_succ, List.rotate_zero, List.take_succ_cons, List.take_append_of_le_length]
    exact Nat.le_of_lt_succ hn

theorem resumptions_rotating (h : Rotating k ts) (he : ∀ e ∈ es, e.Rotates)
    (hlen : es.length ≤ ts.length) : resumptions es k = some ((ts.rotate 1).take es.length) := by
  induction es generalizing k ts with
  | nil => rfl
  | cons e es ih =>
    obtain ⟨k', hexec, hrot⟩ := exec_rotates h (he e List.mem_cons_self)
    have hlen' : es.length < (ts.rotate 1).length := by rw [List.length_rotate]; exact hlen
    have hrest := ih hrot (fun e' he' => he e' (List.mem_cons_of_mem _ he')) (Nat.le_of_lt hlen')
    simp only [resumptions, hexec, hrest, Option.map_some, List.length_cons]
    rw [rotate_take hrot.running hlen']

end Kernel

end BeetKernel

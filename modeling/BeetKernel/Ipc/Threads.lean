/-
# The kernel's code on threads makes these moves

The bridge from `Kernel/Process.lean` and `Kernel/Messages.lean` to the abstract model: what
each function that touches a thread does to `Kernel.ipc`.

A panic leaves no state behind, so it is the state BEFORE it that has to answer for it.
`Blame` says what must be wrong there: for a bounds check or a check of the scheduler, the
tables.  The assertion of `park_thread` belongs to one system call and is dealt with there;
other messages are not followed.
-/
import BeetKernel.Ipc.Basic
import BeetKernel.Kernel.Messages

namespace BeetKernel

open Function (update_eq_self update_of_ne update)
open Exec (post_assert post_bind post_get post_ignore post_mono post_unwrap post post_seq)

/-! ## 1. Panics -/

/-- The panics that only a table in disorder can cause. -/
def tableMessages : List String := ["index out of bounds", "Multiple IRQ threads marked ready", "Thread linked twice",
    "Queue head was not linked in", "Last queue element was not linked in",
    "IRQ thread parked when not ready", "To-be-parked thread was not linked in",
    "Prev queue element was not linked in", "Next queue element was not linked in",
    "Yielded thread was not linked in", "Chosen process did not exist", "process missing"]

/-- The assertion of `park_thread`. -/
def parkMessage : String := "assertion failed: self.ready_threads & (1 << tid) == 0"

namespace Ipc

/-- What is wrong with a state in which the kernel panics. -/
def Blame (msg : String) (i : Ipc) : Prop := msg ≠ parkMessage ∧ (msg ∈ tableMessages → ¬ (Basic i ∧ Proper i))

end Ipc

namespace Scheduler

theorem readyThread_post (t : ThreadId) (p : ThreadPriority) (s : Scheduler) :
    post (readyThread t p) (fun _ _ => True) (fun _ _ => False) (· ∈ tableMessages) s := by
  unfold readyThread linkCopy setLink
  split
  · simp [tableMessages]
  · simp only [post_bind, post_get]
    split
    · simp [tableMessages]
    · simp [tableMessages]

theorem parkThread_post (t : ThreadId) (p : ThreadPriority) (s : Scheduler) :
    post (parkThread t p) (fun _ _ => True) (fun _ _ => False) (· ∈ tableMessages) s := by
  unfold parkThread linkCopy setLink
  split
  · simp [tableMessages]
  · simp only [post_bind, post_assert, post_get, Exec.post_modify, Exec.post_expect, Exec.post_pure]
    refine ⟨fun _ => ⟨fun _ => ⟨fun link hl => ?_, by simp [tableMessages]⟩,
      by simp [tableMessages]⟩, by simp [tableMessages]⟩
    split
    · simp
    · split <;> simp [tableMessages]

theorem yieldThread_post (t : ThreadId) (p : ThreadPriority) (s : Scheduler) :
    post (yieldThread t p) (fun _ _ => True) (fun _ _ => False) (· ∈ tableMessages) s := by
  unfold yieldThread linkCopy
  simp only [post_bind, post_get]
  split <;> simp [tableMessages]

end Scheduler
theorem ne_parkMessage {msg : String} (h : msg ∈ tableMessages) : msg ≠ parkMessage := by
  rintro rfl
  revert h
  decide

/-- A message that is not followed. -/
def Unfollowed (msg : String) : Prop := msg ∉ tableMessages ∧ msg ≠ parkMessage

instance (msg : String) : Decidable (Unfollowed msg) := inferInstanceAs (Decidable (_ ∧ _))

namespace Ipc

theorem Blame.of_unfollowed {msg : String} (h : Unfollowed msg) (i : Ipc) : Blame msg i :=
  ⟨h.2, fun hm => absurd hm h.1⟩

theorem Blame.of_disorder {msg : String} {i : Ipc} (hmsg : msg ≠ parkMessage)
    (h : msg ∈ tableMessages → Basic i → Proper i → False) : Blame msg i :=
  ⟨hmsg, fun hm hi => h hm hi.1 hi.2⟩

end Ipc

namespace Kernel

open Ipc (Move SetState Readied Wakes Answered IsUser Basic Proper Linked Blame Quiet)

/-- The kernel code `m` makes only moves with labels in `A`. -/
abbrev Does {α : Type} (A : Ipc.Label → Prop) (m : KExec α) : Prop :=
  Exec.Follows (Moves.via Kernel.ipc Ipc.Move A) (fun msg k => Blame msg k.ipc) m

variable {k k' : Kernel} {pid : PID} {t : ThreadId}

/-! ## 2. Processes -/

theorem ipc_parent (h : k.processes pid = none) : k.ipc.parent pid = none := by
  simp [ipc, h]

theorem ipc_parent_ne_none {p : Process} (h : k.processes pid = some p) : k.ipc.parent pid ≠ none := by
  simp [ipc, h]

theorem ipc_parent_eq_none : k.ipc.parent pid = none ↔ k.processes pid = none := by
  simp [ipc]

theorem ipc_state {p : Process} (h : k.processes t.1 = some p) : k.ipc.state t = p.threads t.2 := by
  simp [ipc, threadState, h]

theorem ipc_future {p : Process} (h : k.processes t.1 = some p) : k.ipc.future t = p.kernelFutures t.2 := by
  simp [ipc, kernelFuture, h]

theorem ipc_mailbox {p : Process} (h : k.processes t.1 = some p) : k.ipc.mailbox t = p.resultMailbox t.2 := by
  simp [ipc, mailbox, h]

theorem ipc_priority {p : Process} (h : k.processes t.1 = some p) : k.ipc.priority t = p.threadPriorities t.2 := by
  simp [ipc, threadPriority, h]

theorem ipc_connections {p : Process} (h : k.processes pid = some p) : k.ipc.connections pid = p.connectionMap := by
  simp [ipc, h]

/-- A process is written back. -/
def putProcess (k : Kernel) (pid : PID) (p : Process) : Kernel :=
  { k with processes := update k.processes pid (some p) }

/-- A function of the threads, replaced for those of one process. -/
def override {β : Type} (pid : PID) (f : TID → β) (g : ThreadId → β) : ThreadId → β :=
  fun t => if t.1 = pid then f t.2 else g t

theorem override_update {β : Type} (pid : PID) (f : TID → β) (g : ThreadId → β) (tid : TID) (b : β) :
    override pid (update f tid b) g = update (override pid f g) (pid, tid) b := by
  funext t
  rcases eq_or_ne t (pid, tid) with rfl | ht
  · simp [override]
  · rw [update_of_ne ht]
    unfold override
    split
    next h1 =>
      rw [update_of_ne fun h2 => ht (Prod.ext h1 h2)]
    · rfl

theorem override_self {β : Type} {f : TID → β} {g : ThreadId → β}
    (h : ∀ t : ThreadId, t.1 = pid → g t = f t.2) : override pid f g = g := by
  funext t
  unfold override
  split
  next ht =>
    exact (h t ht).symm
  · rfl

/-- Writing a process back, seen from outside. -/
theorem ipc_putProcess (k : Kernel) (pid : PID) (p' : Process) :
    (k.putProcess pid p').ipc = ⟨update k.ipc.parent pid (some p'.ppid),
      override pid p'.threads k.ipc.state, override pid p'.kernelFutures k.ipc.future,
      override pid p'.resultMailbox k.ipc.mailbox, override pid p'.threadPriorities k.ipc.priority,
      k.ipc.scheduler, k.ipc.servers, update k.ipc.connections pid p'.connectionMap,
      k.ipc.allocated, k.ipc.context, k.ipc.pid, k.ipc.tid, k.ipc.waiters, k.ipc.frames⟩ := by
  refine Ipc.ext ?_ ?_ ?_ ?_ ?_ rfl rfl ?_ rfl rfl rfl rfl rfl rfl <;> funext x
  · rcases eq_or_ne x pid with rfl | hx <;> simp [ipc, putProcess, *]
  · rcases eq_or_ne x.1 pid with hx | hx <;> simp [ipc, putProcess, threadState, override, hx]
  · rcases eq_or_ne x.1 pid with hx | hx <;> simp [ipc, putProcess, kernelFuture, override, hx]
  · rcases eq_or_ne x.1 pid with hx | hx <;> simp [ipc, putProcess, mailbox, override, hx]
  · rcases eq_or_ne x.1 pid with hx | hx <;> simp [ipc, putProcess, threadPriority, override, hx]
  · rcases eq_or_ne x pid with rfl | hx <;> simp [ipc, putProcess, *]

section Put

variable {p : Process} (hp : k.processes pid = some p)

include hp

/-- What is written back as it was does not show. -/
theorem put_same : update k.ipc.parent pid (some p.ppid) = k.ipc.parent ∧
    override pid p.threads k.ipc.state = k.ipc.state ∧
    override pid p.kernelFutures k.ipc.future = k.ipc.future ∧
    override pid p.resultMailbox k.ipc.mailbox = k.ipc.mailbox ∧
    override pid p.threadPriorities k.ipc.priority = k.ipc.priority ∧
    update k.ipc.connections pid p.connectionMap = k.ipc.connections := by
  have hparent : k.ipc.parent pid = some p.ppid := by simp [ipc, hp]
  refine ⟨?_, override_self fun _ ht => ipc_state (ht ▸ hp), override_self fun _ ht => ipc_future (ht ▸ hp),
    override_self fun _ ht => ipc_mailbox (ht ▸ hp), override_self fun _ ht => ipc_priority (ht ▸ hp), ?_⟩
  · rw [← hparent, update_eq_self]
  · rw [← ipc_connections hp, update_eq_self]

/-- Nothing shows of a change to a process outside the fields of the view. -/
theorem ipc_putProcess_same {p' : Process} (hppid : p'.ppid = p.ppid) (hth : p'.threads = p.threads)
    (hf : p'.kernelFutures = p.kernelFutures) (hm : p'.resultMailbox = p.resultMailbox)
    (hpr : p'.threadPriorities = p.threadPriorities) (hc : p'.connectionMap = p.connectionMap) :
    (k.putProcess pid p').ipc = k.ipc := by
  simp only [ipc_putProcess, hppid, hth, hf, hm, hpr, hc, put_same hp]

theorem ipc_putThread (tid : TID) (st : ThreadState) :
    (k.putProcess pid { p with threads := update p.threads tid st }).ipc = { k.ipc with
        state := update k.ipc.state (pid, tid) st } := by
  simp only [ipc_putProcess, override_update, put_same hp]

theorem ipc_putFuture (tid : TID) (f : Option KernelFuture) :
    (k.putProcess pid { p with kernelFutures := update p.kernelFutures tid f }).ipc = k.ipc.setFuture (pid, tid) f := by
  simp only [ipc_putProcess, override_update, put_same hp]
  rfl

theorem ipc_putMailbox (tid : TID) (r : Option Result) :
    (k.putProcess pid { p with resultMailbox := update p.resultMailbox tid r }).ipc =
      k.ipc.setMailbox (pid, tid) r := by
  simp only [ipc_putProcess, override_update, put_same hp]
  rfl

theorem ipc_putPriority (tid : TID) (q : ThreadPriority) : (k.putProcess pid { p with
      threadPriorities := update p.threadPriorities tid q }).ipc =
      { k.ipc with
        priority := update k.ipc.priority (pid, tid) q } := by
  simp only [ipc_putProcess, override_update, put_same hp]

theorem ipc_putConnections (cm : List ConnectionSlot) :
    (k.putProcess pid { p with connectionMap := cm }).ipc = { k.ipc with
        connections := update k.ipc.connections pid cm } := by
  simp only [ipc_putProcess, put_same hp]

end Put

section Rules

variable {α : Type} {Q : α → Kernel → Prop} {E : Error → Kernel → Prop} {F : String → Prop}

theorem post_process {Q : Process → Kernel → Prop} (hok : ∀ p, k.processes pid = some p →
      pid.get ≤ maxProcessCount → Q p k)
    (herr : k.processes pid = none → E .processNotFound k)
    (hpanic : ¬ pid.get ≤ maxProcessCount → F "index out of bounds") :
    post (process pid) Q E F k := by
  unfold process
  simp only [post_bind, post_assert, post_get, Exec.post_okOr, decide_eq_true_eq, decide_eq_false_iff_not]
  exact ⟨fun hle => ⟨fun p hp => hok p hp hle, herr⟩, hpanic⟩

theorem post_currentProcess {Q : Process → Kernel → Prop} (hok : ∀ p, k.processes k.currentPid = some p → Q p k)
    (hpanic : ∀ msg, (msg ∈ tableMessages → ¬ k.currentPid.get ≤ maxProcessCount) → msg ≠ parkMessage → F msg) :
    post currentProcess Q E F k := by
  unfold currentProcess
  simp only [post_bind, post_get, post_unwrap]
  refine post_process (fun p hp _ => hok p hp) (fun _ => ?_) (fun hle => ?_)
  · exact hpanic _ (fun h => absurd h (by decide)) (by decide)
  · exact hpanic _ (fun _ => hle) (by decide)

@[simp] theorem post_setProcess {Q : Unit → Kernel → Prop} (p : Process) :
    post (setProcess pid p) Q E F k ↔ Q () (k.putProcess pid p) := Iff.rfl

@[simp] theorem post_activate {Q : Unit → Kernel → Prop} :
    post (activate pid) Q E F k ↔ Q () { k with currentPid := pid, activeMapping := pid } :=
  Iff.rfl

@[simp] theorem post_activateMapping {Q : Unit → Kernel → Prop} :
    post (activateMapping pid) Q E F k ↔ Q () { k with activeMapping := pid } := Iff.rfl

end Rules

/-- A process that is running has a number the table has room for. -/
theorem blame_current {msg : String} (hmsg : msg ≠ parkMessage)
    (h : msg ∈ tableMessages → ¬ k.currentPid.get ≤ maxProcessCount) : Blame msg k.ipc :=
  .of_disorder hmsg fun hm hb _ => h hm (hb.pids _ hb.running)

/-! ## 3. Thread states -/

/-- What is asked of a thread before the scheduler can link it. -/
def ThreadBlame (k : Kernel) (t : ThreadId) (msg : String) : Prop :=
  msg ≠ parkMessage ∧ (msg ∈ tableMessages → Linked k.ipc → ¬ IsUser t)

theorem ThreadBlame.blame {msg : String} (h : ThreadBlame k t msg)
    (ht : Basic k.ipc → Proper k.ipc → IsUser t) : Blame msg k.ipc :=
  .of_disorder h.1 fun hm hb hp => h.2 hm hb.linked (ht hb hp)

/-- A thread state is written, with what the scheduler makes of it. -/
theorem setState_putProcess {p : Process} {st : ThreadState} {s' : Scheduler}
    (hp : k.processes t.1 = some p) (hlt : t.2 < maxThreadCount)
    (hpark : p.threads t.2 = .ready → st ≠ .ready →
      Scheduler.parkThread t (p.threadPriorities t.2) k.scheduler = .ok () s')
    (hready : p.threads t.2 ≠ .ready → st = .ready →
      Scheduler.readyThread t (p.threadPriorities t.2) k.scheduler = .ok () s')
    (hsame : (p.threads t.2 = .ready ↔ st = .ready) → s' = k.scheduler) :
    SetState t st k.ipc (({ k with scheduler := s' } : Kernel).putProcess t.1
      { p with threads := update p.threads t.2 st }).ipc := by
  have hst := ipc_state hp
  have hpr := ipc_priority hp
  constructor
  · exact hlt
  · exact ipc_parent_ne_none hp
  · exact ipc_putThread (k := { k with scheduler := s' }) hp t.2 st
  · rw [hst, hpr]
    exact hpark
  · rw [hst, hpr]
    exact hready
  · rw [hst]
    exact hsame

/-- Parking or linking a thread whose state says that this is due. -/
theorem withScheduler_post {Q : Unit → Kernel → Prop} {E : Error → Kernel → Prop} {m : Exec Scheduler Error Unit}
    (hm : ∀ s, post m (fun _ _ => True) (fun _ _ => False) (· ∈ tableMessages) s)
    (hok : ∀ s', m k.scheduler = .ok () s' → Q () { k with scheduler := s' })
    (hrun : Linked k.ipc → IsUser t → ∃ s', m k.scheduler = .ok () s') :
    post (withScheduler m) Q E (ThreadBlame k t) k := by
  unfold withScheduler
  rw [Exec.post_zoom]
  have hpost := hm k.scheduler
  unfold post at hpost ⊢
  cases hout : m k.scheduler with
  | ok u s' => exact hok s' hout
  | err e s' => rw [hout] at hpost; exact hpost.elim
  | panic msg =>
    rw [hout] at hpost
    refine ⟨ne_parkMessage hpost, fun _ hl hu => ?_⟩
    obtain ⟨s', hs'⟩ := hrun hl hu
    rw [hs'] at hout
    cases hout

theorem setThreadState_post (t : ThreadId) (st : ThreadState) (k : Kernel) : post (setThreadState t st)
      (fun _ k' => SetState t st k.ipc k'.ipc ∧
        k' = { k with processes := k'.processes, scheduler := k'.scheduler })
      (fun _ k' => k' = k ∧ k.processes t.1 = none) (ThreadBlame k t) k := by
  unfold setThreadState
  rw [post_bind]
  refine post_process (fun p hp hle => ?_) (fun hp => ⟨rfl, hp⟩) fun hle => ?_
  swap
  · exact ⟨by decide, fun _ _ hu => hle hu.1⟩
  simp only [post_bind, post_assert, decide_eq_true_eq, decide_eq_false_iff_not]
  refine ⟨fun hlt => ?_, fun hlt => ⟨by decide, fun _ _ hu => hlt hu.2.2⟩⟩
  have hin : IsUser t → Scheduler.InRange t := fun hu => ⟨hu.1, hu.2.1, hu.2.2.le⟩
  have hne : IsUser t → t.2 ≠ irqTid := fun hu => Nat.ne_of_gt hu.2.1
  by_cases hready : p.threads t.2 = .ready
  · by_cases hst : st = .ready
    · -- ready before and after: neither call is made
      simp only [hready, hst, ne_eq, not_true_eq_false, and_false, if_false, false_and]
      exact ⟨setState_putProcess hp hlt (by simp) (by simp [hready]) fun _ => rfl, rfl⟩
    · simp only [hready, hst, ne_eq, not_false_eq_true, and_self, if_true, not_true_eq_false, if_false]
      rw [post_bind]
      refine withScheduler_post (Scheduler.parkThread_post t _) (fun s' hs' => ?_) fun hl hu => ?_
      · exact ⟨setState_putProcess hp hlt (fun _ _ => hs') (by simp [hready]) (by simp [hready, hst]), rfl⟩
      · obtain ⟨L, hr, hmem⟩ := hl
        have ht : t ∈ L (p.threadPriorities t.2).toIndex :=
          (hmem t _).mpr ⟨hne hu, (ipc_state hp).trans hready, by rw [ipc_priority hp]⟩
        obtain ⟨s', hs', -, -⟩ := hr.parkThread _ ht
        exact ⟨s', hs'⟩
  · by_cases hst : st = .ready
    · simp only [hready, hst, ne_eq, not_true_eq_false, if_false, not_false_eq_true, and_self, if_true]
      rw [post_bind]
      refine withScheduler_post (Scheduler.readyThread_post t _) (fun s' hs' => ?_) fun hl hu => ?_
      · exact ⟨setState_putProcess hp hlt (by simp [hready]) (fun _ _ => hs') (by simp [hready]), rfl⟩
      · obtain ⟨L, hr, hmem⟩ := hl
        have hun : ∀ q, t ∉ L q := fun q hq =>
          hready ((ipc_state hp).symm.trans ((hmem t q).mp hq).2.1)
        obtain ⟨s', hs', -, -⟩ := hr.readyThread (p.threadPriorities t.2) (hin hu) hun
        exact ⟨s', hs'⟩
    · simp only [hready, hst, ne_eq, and_false, if_false, false_and]
      exact ⟨setState_putProcess hp hlt (by simp [hready]) (by simp [hst]) fun _ => rfl, rfl⟩

/-- `set_thread_priority` moves a ready thread from one list to another. -/
theorem setThreadPriority_post (t : ThreadId) (priority : ThreadPriority) (k : Kernel) :
    post (setThreadPriority t priority) (fun _ k' => Ipc.Does Quiet k.ipc k'.ipc)
      (fun _ k' => k' = k) (ThreadBlame k t) k := by
  unfold setThreadPriority
  rw [post_bind]
  refine post_process (fun p hp hle => ?_) (fun hp => rfl) fun hle => ?_
  swap
  · exact ⟨by decide, fun _ _ hu => hle hu.1⟩
  simp only [post_bind, post_assert, decide_eq_true_eq, decide_eq_false_iff_not]
  refine ⟨fun hlt => ?_, fun hlt => ⟨by decide, fun _ _ hu => hlt hu.2.2⟩⟩
  have hput : ∀ s' : Scheduler, (({ k with scheduler := s' } : Kernel).putProcess t.1
      { p with threadPriorities := update p.threadPriorities t.2 priority }).ipc =
      { k.ipc with
        priority := update k.ipc.priority t priority
        scheduler := s' } := fun s' =>
    ipc_putPriority (k := { k with scheduler := s' }) hp t.2 priority
  have hst := ipc_state hp
  have hpr := ipc_priority hp
  split
  · exact Moves.refl _
  · split
    next hready =>
      -- Parked and linked again: one move, which starts from the lists as they were.
      have hmem : Linked k.ipc → IsUser t → ∃ s1, Scheduler.parkThread t (p.threadPriorities t.2)
          k.scheduler = .ok () s1 ∧ ∃ s2, Scheduler.readyThread t priority s1 = .ok () s2 := by
        rintro ⟨L, hr, hmem⟩ hu
        have ht : t ∈ L (p.threadPriorities t.2).toIndex :=
          (hmem t _).mpr ⟨Nat.ne_of_gt hu.2.1, hst.trans hready, by rw [hpr]⟩
        obtain ⟨s1, hs1, -, hr1⟩ := hr.parkThread _ ht
        have hun : ∀ q, t ∉ update L (p.threadPriorities t.2).toIndex
            ((L (p.threadPriorities t.2).toIndex).erase t) q := by
          intro q hq
          rcases eq_or_ne q (p.threadPriorities t.2).toIndex with rfl | hne
          · rw [Function.update_self] at hq
            exact (hr.nodup _).not_mem_erase hq
          · rw [update_of_ne hne] at hq
            exact hr.not_mem_of_ne ht hne hq
        obtain ⟨s2, hs2, -, -⟩ := hr1.readyThread priority ⟨hu.1, hu.2.1, hu.2.2.le⟩ hun
        exact ⟨s1, hs1, s2, hs2⟩
      simp only [post_bind]
      refine withScheduler_post (Scheduler.parkThread_post t _) (fun s1 hs1 => ?_)
        fun hl hu => (hmem hl hu).imp fun _ h => h.1
      unfold withScheduler
      rw [Exec.post_zoom]
      have hpost := Scheduler.readyThread_post t priority s1
      unfold post at hpost ⊢
      cases hout : Scheduler.readyThread t priority s1 with
      | ok u s2 =>
        refine Moves.single (l := .quiet) rfl (hput s2 ▸ @Move.priority _ _ _ s1 _ (fun _ => ?_) ?_)
        · exact ⟨hpr ▸ hs1, hout⟩
        · exact fun h => absurd (hst.trans hready) h
      | err e s2 => rw [hout] at hpost; exact hpost.elim
      | panic msg =>
        rw [hout] at hpost
        refine ⟨ne_parkMessage hpost, fun _ hl hu => ?_⟩
        obtain ⟨s1', hs1', s2, hs2⟩ := hmem hl hu
        rw [hs1] at hs1'
        cases hs1'
        rw [hs2] at hout
        cases hout
    next hready =>
      refine Moves.single (l := .quiet) rfl (hput k.scheduler ▸ @Move.priority _ _ _ k.scheduler _
        (fun h => absurd (hst.symm.trans h) hready) fun _ => rfl)

/-! ## 4. Futures and mailboxes -/

/-- What code that starts with the process of a thread does: without a process it leaves all as it was. -/
abbrev OnThread {α : Type} (t : ThreadId) (m : KExec α) (Q : α → Kernel → Prop) (k : Kernel) : Prop :=
  post m Q (fun _ k' => k' = k ∧ k.processes t.1 = none)
    (fun msg => msg = "index out of bounds" ∧ ¬ t.1.get ≤ maxProcessCount) k

theorem onThread_process {α : Type} {f : Process → KExec α} {Q : α → Kernel → Prop}
    (h : ∀ p, k.processes t.1 = some p → OnThread t (f p) Q k) : OnThread t (process t.1 >>= f) Q k := by
  rw [OnThread, post_bind]
  exact post_process (fun p hp _ => h p hp) (fun hp => ⟨rfl, hp⟩) fun hle => ⟨rfl, hle⟩

theorem setKernelFuture_post (t : ThreadId) (f : KernelFuture) (k : Kernel) : OnThread t (setKernelFuture t f)
      (fun _ k' => k' = { k with processes := k'.processes } ∧
        (t.2 < maxThreadCount → k'.ipc = k.ipc.setFuture t (some f)) ∧
        (¬ t.2 < maxThreadCount → k' = k)) k := by
  refine onThread_process fun p hp => ?_
  split
  next hlt =>
    exact ⟨rfl, fun _ => ipc_putFuture hp t.2 _, fun h => absurd hlt h⟩
  next hlt =>
    exact ⟨rfl, fun h => absurd h hlt, fun _ => rfl⟩

theorem takeKernelFuture_post (t : ThreadId) (k : Kernel) : OnThread t (takeKernelFuture t)
      (fun f k' => k.processes t.1 ≠ none ∧ k' = { k with processes := k'.processes } ∧
        (t.2 < maxThreadCount → f = k.ipc.future t ∧ k'.ipc = k.ipc.setFuture t none) ∧
        (¬ t.2 < maxThreadCount → f = none ∧ k' = k)) k := by
  refine onThread_process fun p hp => ?_
  split
  next hlt =>
    exact ⟨by simp [hp], rfl, fun _ => ⟨(ipc_future hp).symm, ipc_putFuture hp t.2 _⟩, fun h => absurd hlt h⟩
  next hlt =>
    exact ⟨by simp [hp], rfl, fun h => absurd h hlt, fun _ => ⟨rfl, rfl⟩⟩

theorem setMailbox_post (t : ThreadId) (r : Result) (k : Kernel) : OnThread t (setMailbox t r)
      (fun _ k' => k' = { k with processes := k'.processes } ∧
        (t.2 < maxThreadCount → k'.ipc = k.ipc.setMailbox t (some r)) ∧
        (¬ t.2 < maxThreadCount → k' = k)) k := by
  refine onThread_process fun p hp => ?_
  split
  next hlt =>
    exact ⟨rfl, fun _ => ipc_putMailbox hp t.2 _, fun h => absurd hlt h⟩
  next hlt =>
    exact ⟨rfl, fun h => absurd h hlt, fun _ => rfl⟩

theorem takeMailbox_post (t : ThreadId) (k : Kernel) : OnThread t (takeMailbox t)
      (fun r k' => k' = { k with processes := k'.processes } ∧
        (t.2 < maxThreadCount → r = k.ipc.mailbox t ∧ k'.ipc = k.ipc.setMailbox t none) ∧
        (¬ t.2 < maxThreadCount → r = none ∧ k' = k)) k := by
  refine onThread_process fun p hp => ?_
  split
  next hlt =>
    exact ⟨rfl, fun _ => ⟨(ipc_mailbox hp).symm, ipc_putMailbox hp t.2 _⟩, fun h => absurd hlt h⟩
  next hlt =>
    exact ⟨rfl, fun h => absurd h hlt, fun _ => ⟨rfl, rfl⟩⟩

/-! ## 5. Results -/

/-- The saved registers of a thread are written. -/
def putContext (k : Kernel) (t : ThreadId) (a : ProcessImpl) (c : Context) : Kernel :=
  { k with archProcesses := update k.archProcesses t.1 (some
      ⟨update a.threads t.2 ⟨c, (a.threads t.2).allocated⟩, a.currentThread⟩) }

theorem ipc_putContext {a : ProcessImpl} (ha : k.archProcesses t.1 = some a) (c : Context) :
    (k.putContext t a c).ipc = { k.ipc with
        context := update k.ipc.context t (some c) } := by
  refine Ipc.ext rfl rfl rfl rfl rfl rfl rfl rfl ?_ ?_ rfl ?_ rfl rfl <;> funext u
  · rcases eq_or_ne u.1 t.1 with h1 | h1
    · rcases eq_or_ne u.2 t.2 with h2 | h2 <;> simp [ipc, allocated, putContext, h1, h2, ha]
    · simp [ipc, allocated, putContext, h1]
  · rcases eq_or_ne u t with rfl | hu
    · simp [ipc, context, putContext]
    · simp only [update_of_ne hu]
      rcases eq_or_ne u.1 t.1 with h1 | h1
      · have h2 : u.2 ≠ t.2 := fun h2 => hu (Prod.ext h1 h2)
        simp [ipc, context, putContext, h1, h2, ha]
      · simp [ipc, context, putContext, h1]
  · rcases eq_or_ne u t.1 with rfl | hu
    · simp [ipc, putContext, ha]
    · simp [ipc, putContext, hu]

theorem ipc_context {a : ProcessImpl} (ha : k.archProcesses t.1 = some a) :
    k.ipc.context t = some (a.threads t.2).context := by
  simp [ipc, context, ha]

theorem ipc_setSavedResult (t : ThreadId) (r : Result) (k : Kernel) :
    (setSavedResult t r k).ipc = k.ipc.deliver t r := by
  unfold setSavedResult Ipc.deliver
  cases ha : k.archProcesses t.1 with
  | none =>
    have hc : k.ipc.context t = none := by simp [ipc, context, ha]
    have hsame : update k.ipc.context t ((k.ipc.context t).map (·.setArgs r)) = k.ipc.context := by
      rw [hc, Option.map_none, ← hc, update_eq_self]
    simp only [hsame, ite_self]
  | some a =>
    by_cases hr : 1 ≤ t.2 ∧ t.2 ≤ maxThreadCount
    · simp only [if_pos hr, ipc_context ha, Option.map_some]
      exact ipc_putContext ha _
    · simp only [if_neg hr]

/-- `set_thread_result` writes the registers, switching to the process and back. -/
theorem setThreadResult_post (t : ThreadId) (r : Result) (k : Kernel) : post (setThreadResult t r)
      (fun _ k' => k'.ipc = k.ipc.deliver t r ∧
        k' = { k with archProcesses := k'.archProcesses, activeMapping := k'.activeMapping })
      (fun _ k' => k' = k ∧ k.processes t.1 = none)
      (fun msg => msg ≠ parkMessage ∧ (msg ∈ tableMessages →
        ¬ (t.1.get ≤ maxProcessCount ∧ k.currentPid.get ≤ maxProcessCount))) k := by
  unfold setThreadResult
  simp only [post_bind, post_get]
  split
  · refine ⟨ipc_setSavedResult t r k, ?_⟩
    unfold setSavedResult
    split
    · rfl
    · split <;> rfl
  · simp only [post_bind]
    refine post_process (fun p hp hle => ?_) (fun hp => ⟨rfl, hp⟩) fun hle => ⟨by decide, fun _ h => hle h.1⟩
    simp only [Exec.post_modify, post_activate, post_unwrap]
    -- Only `currentPid` and `activeMapping` are off while the registers are written.
    have hsaved : ∀ k1 : Kernel, k1 = setSavedResult t r { k with currentPid := t.1, activeMapping := t.1 } →
        ({ k1 with currentPid := k.currentPid, activeMapping := k.currentPid } : Kernel).ipc = k.ipc.deliver t r ∧
        ({ k1 with currentPid := k.currentPid, activeMapping := k.currentPid } : Kernel) =
          { k with archProcesses := k1.archProcesses, activeMapping := k.currentPid } := by
      rintro k1 rfl
      have heq : ({ setSavedResult t r { k with currentPid := t.1, activeMapping := t.1 } with
          currentPid := k.currentPid, activeMapping := k.currentPid } : Kernel) =
          { setSavedResult t r k with activeMapping := k.currentPid } := by
        unfold setSavedResult
        cases k.archProcesses t.1 with
        | none => rfl
        | some a => dsimp only; split <;> rfl
      rw [heq]
      refine ⟨ipc_setSavedResult t r k, ?_⟩
      unfold setSavedResult
      cases k.archProcesses t.1 with
      | none => rfl
      | some a => dsimp only; split <;> rfl
    refine post_process (fun q hq hle' => ?_) (fun _ => ⟨by decide, fun h => absurd h (by decide)⟩)
      fun hle' => ⟨by decide, fun _ h => hle' h.2⟩
    exact hsaved _ rfl

end Kernel

namespace Ipc

variable {i j : Ipc} {t : ThreadId} {st : ThreadState}

theorem SetState.withContext (h : SetState t st i j) (ctx : ThreadId → Option Context) :
    SetState t st { i with context := ctx } { j with context := ctx } := by
  refine ⟨h.range, h.present, ?_, h.park, h.ready, h.same⟩
  have hr := h.rest
  generalize j.scheduler = s at hr ⊢
  subst hr
  rfl

theorem SetState.readied {r : Result} (h : SetState t .ready i j) : Readied t i (j.deliver t r) := by
  refine ⟨(i.deliver t r).context, fun u hu => ?_, ?_⟩
  · unfold deliver
    dsimp only
    split
    · exact update_of_ne hu ..
    · rfl
  · have hj : j.deliver t r = { j with context := (i.deliver t r).context } := by
      unfold deliver
      rw [h.context]
    rw [hj]
    exact h.withContext _

end Ipc

namespace Kernel

open Ipc (Move SetState Readied Wakes Answered IsUser Basic Proper Linked Blame Quiet)

variable {k k' : Kernel} {pid : PID} {t : ThreadId}

/-- What is asked of a thread, and of the running process, before a result can be written. -/
def ResultBlame (k : Kernel) (t : ThreadId) (msg : String) : Prop :=
  msg ≠ parkMessage ∧ (msg ∈ tableMessages → Linked k.ipc → k.currentPid.get ≤ maxProcessCount → ¬ IsUser t)

/-- Make a thread ready and write its registers: `handOver` and the second way of
`wake_thread_with_result`. -/
theorem readyWithResult_post (t : ThreadId) (r : Result) (k : Kernel) :
    post (do setThreadState t .ready; Exec.ignore (setThreadResult t r))
      (fun _ k' => Readied t k.ipc k'.ipc) (fun _ k' => k' = k ∧ k.processes t.1 = none)
      (ResultBlame k t) k := by
  refine post_seq (setThreadState_post t .ready k) ?_ (fun _ _ h => h) fun msg h => ⟨h.1, fun hm hl _ => h.2 hm hl⟩
  rintro _ k1 ⟨hs, hk1⟩
  rw [post_ignore]
  refine post_mono (setThreadResult_post t r k1) ?_ ?_ ?_
  · rintro _ k2 ⟨hk2, -⟩
    rw [hk2]
    exact hs.readied
  · rintro _ _ ⟨-, hnone⟩
    refine absurd (ipc_parent hnone) ?_
    rw [hs.parent]
    exact hs.present
  · rintro msg ⟨hmsg, h⟩
    refine ⟨hmsg, fun hm _ hcur hu => h hm ⟨hu.1, ?_⟩⟩
    rw [hk1]
    exact hcur

theorem wakeThreadWithResult_post (t : ThreadId) (r : Result) (k : Kernel) :
    post (wakeThreadWithResult t r) (fun _ k' => Answered t r k.ipc k'.ipc) (fun _ _ => False) (ResultBlame k t) k := by
  unfold wakeThreadWithResult
  simp only [post_bind, Exec.post_attempt]
  refine post_process (fun p hp hle => ?_) (fun hp => ?_) fun hle => ⟨by decide, fun _ _ _ hu => hle hu.1⟩
  · have hfut := ipc_future (t := t) hp
    split
    next hif =>
      refine post_seq (setMailbox_post t r k) ?_ (fun _ _ h => by simp [hp] at h)
        fun msg h => ⟨?_, fun _ _ _ hu => h.2 hu.1⟩
      · rintro _ k1 ⟨hk1, hput, -⟩
        have hput := hput hif.1
        refine post_mono (setThreadState_post t .ready k1) ?_ ?_ ?_
        · rintro _ k2 ⟨hs, -⟩
          rw [hput] at hs
          exact .posted (by rw [hfut]; exact Option.isSome_iff_ne_none.mp hif.2) hs
        · rintro _ _ ⟨-, hnone⟩
          have := ipc_parent hnone
          rw [hput] at this
          exact ipc_parent_ne_none hp this
        · rintro msg ⟨hmsg, h⟩
          refine ⟨hmsg, fun hm hl _ hu => h hm ?_ hu⟩
          rw [hput]
          exact hl
      · rw [h.1]
        decide
    next hif =>
      refine post_seq (takeKernelFuture_post t k) ?_ (fun _ _ h => by simp [hp] at h)
        fun msg h => ⟨?_, fun _ _ _ hu => h.2 hu.1⟩
      · rintro f k1 ⟨-, hk1, hlt, hge⟩
        -- A thread with a place for it has no future here, so dropping it changes nothing.
        have hipc : k1.ipc = k.ipc ∧ (t.2 < maxThreadCount → k.ipc.future t = none) := by
          by_cases h2 : t.2 < maxThreadCount
          · have hnone : k.ipc.future t = none := by
              rw [hfut]
              by_contra hne
              exact hif ⟨h2, Option.isSome_iff_ne_none.mpr hne⟩
            refine ⟨?_, fun _ => hnone⟩
            rw [(hlt h2).2]
            unfold Ipc.setFuture
            rw [← hnone, update_eq_self]
          · exact ⟨by rw [(hge h2).2], fun h => absurd h h2⟩
        refine post_mono (readyWithResult_post t r k1) ?_ ?_ ?_
        · intro _ k2 hr
          rw [hipc.1] at hr
          obtain ⟨ctx, hctx, hs⟩ := hr
          exact .direct (hipc.2 hs.range) ⟨ctx, hctx, hs⟩
        · rintro _ _ ⟨-, hnone⟩
          have := ipc_parent hnone
          rw [hipc.1] at this
          exact ipc_parent_ne_none hp this
        · rintro msg ⟨hmsg, h⟩
          refine ⟨hmsg, fun hm hl hcur => h hm (by rw [hipc.1]; exact hl) ?_⟩
          rw [hk1]
          exact hcur
      · rw [h.1]
        decide
  · rw [post_ignore]
    refine post_mono (setThreadResult_post t r k) ?_ ?_ ?_
    · rintro _ k1 ⟨hk1, -⟩
      exact .gone (ipc_parent hp) (.inr hk1)
    · rintro _ k1 ⟨rfl, -⟩
      exact .gone (ipc_parent hp) (.inl rfl)
    · rintro msg ⟨hmsg, h⟩
      exact ⟨hmsg, fun hm _ hcur hu => h hm ⟨hu.1, hcur⟩⟩

/-- `suspend_with_future` leaves the future behind and parks the running thread. -/
theorem suspendWithFuture_post (f : KernelFuture) (mask : BitVec 64) (k : Kernel) :
    post (suspendWithFuture k.currentTid f mask)
      (fun _ k' => SetState k.ipc.current (.waitEvent mask) (k.ipc.setFuture k.ipc.current (some f)) k'.ipc)
      (fun _ _ => False) (fun msg => Blame msg k.ipc) k := by
  have hcur : k.ipc.current = (k.currentPid, k.currentTid) := rfl
  unfold suspendWithFuture
  simp only [post_bind, post_get]
  refine post_currentProcess (fun p hp => ?_) fun msg h hmsg => blame_current hmsg h
  refine post_mono (setKernelFuture_post (k.currentPid, k.currentTid) f k) ?_
    (fun _ _ h => by simp [hp] at h) fun msg h => ?_
  · rintro _ k1 ⟨hk1, hlt, hge⟩
    have hparent : k1.ipc.parent = k.ipc.parent := by
      by_cases h2 : k.currentTid < maxThreadCount
      · rw [hlt h2]
        rfl
      · rw [hge h2]
    have hlinked : Linked k.ipc → Linked k1.ipc := by
      by_cases h2 : k.currentTid < maxThreadCount
      · rw [hlt h2]
        exact id
      · rw [hge h2]
        exact id
    refine post_mono (setThreadState_post (k.currentPid, k.currentTid) (.waitEvent mask) k1) ?_ ?_ ?_
    · rintro _ k2 ⟨hs, -⟩
      rw [hlt hs.range] at hs
      exact hs
    · rintro _ _ ⟨-, hnone⟩
      have := ipc_parent hnone
      rw [hparent] at this
      exact ipc_parent_ne_none hp this
    · rintro msg ⟨hmsg, h⟩
      exact .of_disorder hmsg fun hm hb _ => h hm (hlinked hb.linked) hb.current
  · refine blame_current ?_ fun _ => h.2
    rw [h.1]
    decide

/-! ## 6. Waking -/

/-- A panic of the tables, which are in disorder. -/
def TableBlame (k : Kernel) (msg : String) : Prop := msg ≠ parkMessage ∧ (msg ∈ tableMessages → ¬ Basic k.ipc)

theorem TableBlame.of_unfollowed {msg : String} (h : Unfollowed msg) : TableBlame k msg :=
  ⟨h.2, fun hm => absurd hm h.1⟩

theorem TableBlame.blame {msg : String} (h : TableBlame k msg) : Blame msg k.ipc :=
  .of_disorder h.1 fun hm hb _ => h.2 hm hb

instance : IsPreorder Kernel (fun k k' => Wakes k.ipc k'.ipc) where
  refl _ := Relation.ReflTransGen.refl
  trans _ _ _ := Relation.ReflTransGen.trans

theorem quiet_of_wakes {i j : Ipc} (h : Wakes i j) : Ipc.Does Quiet i j := by
  induction h with
  | refl => exact Moves.refl _
  | tail _ hlast ih =>
    obtain ⟨t, hr, hf, hs⟩ := hlast
    exact ih.snoc (l := .quiet) rfl (.wake hr hf ⟨_, fun _ _ => rfl, hs⟩)

theorem get_le_of_mem_all (h : pid ∈ PID.all) : pid.get ≤ maxProcessCount := by
  obtain ⟨n, hn, hnew⟩ := List.mem_filterMap.mp h
  unfold PID.new at hnew
  split at hnew
  · cases hnew
    rw [List.mem_range'_1] at hn
    show n ≤ _
    omega
  · cases hnew

variable {st : ThreadState}

theorem wakeThreadsOf_wakes (hr : st ≠ .ready) (hf : st ≠ .free) (hpid : pid.get ≤ maxProcessCount) :
    Exec.Follows (fun k k' => Wakes k.ipc k'.ipc) (fun msg k => TableBlame k msg) (wakeThreadsOf pid st) := by
  refine .each fun tid htid k => ?_
  have hu : IsUser (pid, tid) := by
    rw [List.mem_range'_1] at htid
    have hlt : tid < maxThreadCount := Nat.lt_of_lt_of_le htid.2 (by decide)
    exact ⟨hpid, htid.1, hlt⟩
  rw [post_bind]
  refine post_process (fun p hp _ => ?_) (fun _ => Relation.ReflTransGen.refl) fun hle => absurd hpid hle
  split
  next hst =>
    refine post_mono (setThreadState_post (pid, tid) .ready k) ?_ ?_ ?_
    · rintro _ k' ⟨hs, -⟩
      have hstate : k.ipc.state (pid, tid) = st := (ipc_state hp).trans hst
      exact .single ⟨(pid, tid), by rw [hstate]; exact hr, by rw [hstate]; exact hf, hs⟩
    · rintro _ _ ⟨rfl, -⟩
      exact Relation.ReflTransGen.refl
    · intro msg h
      exact ⟨k, Relation.ReflTransGen.refl, h.1, fun hm hb => h.2 hm hb.linked hu⟩
  · exact Relation.ReflTransGen.refl

theorem wakeThreadsWithState_wakes (hr : st ≠ .ready) (hf : st ≠ .free) :
    Exec.Follows (fun k k' => Wakes k.ipc k'.ipc) (fun msg k => TableBlame k msg) (wakeThreadsWithState st) := by
  refine .each fun pid hpid => .get_bind fun k => ?_
  split
  · exact wakeThreadsOf_wakes hr hf (get_le_of_mem_all hpid) k
  · exact Relation.ReflTransGen.refl

theorem wakeThreadsWithState_quiet (hr : st ≠ .ready) (hf : st ≠ .free) : Does Quiet (wakeThreadsWithState st) :=
  ((wakeThreadsWithState_wakes hr hf).mono fun _ _ => quiet_of_wakes).blame fun _ _ => TableBlame.blame

/-- The thread that takes the pending bits becomes ready. -/
theorem wakeFirstMatching_post (hpid : pid.get ≤ maxProcessCount) :
    ∀ (l : List TID) (k : Kernel), (∀ tid ∈ l, 1 ≤ tid ∧ tid < maxThreadCount) →
    post (wakeFirstMatching pid l) (fun r k' => k'.currentPid = k.currentPid ∧ match r with
        | none => k'.ipc = k.ipc
        | some (tid, _) => k.ipc.state (pid, tid) ≠ .ready ∧ k.ipc.state (pid, tid) ≠ .free ∧
            IsUser (pid, tid) ∧ SetState (pid, tid) .ready k.ipc k'.ipc)
      (fun _ _ => k.processes pid = none) (fun msg => Blame msg k.ipc) k
  | [], k, _ => ⟨rfl, rfl⟩
  | tid :: rest, k, hl => by
    have hu : IsUser (pid, tid) := ⟨hpid, hl tid (by simp)⟩
    unfold wakeFirstMatching
    rw [post_bind]
    refine post_process (fun p hp _ => ?_) (fun hp => hp) fun hle => absurd hpid hle
    have hst : k.ipc.state (pid, tid) = p.threads tid := ipc_state hp
    split
    next mask hmask =>
      dsimp only
      split
      · -- the bits are taken off, which does not show
        simp only [post_bind, post_setProcess]
        have hput : (k.putProcess pid { p with
            notificationBits := p.notificationBits &&& ~~~ (p.notificationBits &&& mask) }).ipc =
            k.ipc := ipc_putProcess_same hp rfl rfl rfl rfl rfl rfl
        refine post_mono (setThreadState_post (pid, tid) .ready (k.putProcess pid _)) ?_ ?_ ?_
        · rintro _ k' ⟨hs, hk'⟩
          rw [hput] at hs
          rw [hmask] at hst
          exact ⟨by rw [hk']; rfl, by simp [hst], by simp [hst], hu, hs⟩
        · rintro _ _ ⟨-, hnone⟩
          have := ipc_parent hnone
          rw [hput] at this
          exact absurd this (ipc_parent_ne_none hp)
        · intro msg h
          have := h.blame fun _ _ => hu
          rwa [hput] at this
      · exact wakeFirstMatching_post hpid rest k fun tid' h => hl tid' (by simp [h])
    · exact wakeFirstMatching_post hpid rest k fun tid' h => hl tid' (by simp [h])

theorem notify_quiet (pid : PID) (bits : BitVec 64) (k : Kernel) :
    post (notify pid bits) (fun _ k' => Ipc.Does Quiet k.ipc k'.ipc) (fun _ k' => k' = k)
      (fun msg => (pid.get ≤ maxProcessCount → Blame msg k.ipc) ∧
        (¬ pid.get ≤ maxProcessCount → msg = "index out of bounds")) k := by
  unfold notify postNotificationBits
  simp only [post_bind, post_setProcess]
  refine post_process (fun p hp hle => ?_) (fun _ => rfl) fun hle => ⟨fun h => absurd h hle, fun _ => rfl⟩
  have hput : (k.putProcess pid { p with notificationBits := p.notificationBits ||| bits }).ipc =
      k.ipc := ipc_putProcess_same hp rfl rfl rfl rfl rfl rfl
  refine post_mono (wakeFirstMatching_post hle (List.range' 1 (maxThreadCount - 1))
    (k.putProcess pid _) fun tid h => ?_) ?_ ?_ ?_
  · rw [List.mem_range'_1] at h
    simp only [maxThreadCount] at h ⊢
    omega
  · rintro r k1 ⟨hcur, hr⟩
    cases r with
    | none =>
      rw [hput] at hr
      exact Moves.of_eq hr.symm
    | some w =>
      obtain ⟨tid, fired⟩ := w
      dsimp only at hr ⊢
      rw [hput] at hr
      obtain ⟨hnr, hnf, hu, hs⟩ := hr
      rw [post_ignore]
      refine post_mono (setThreadResult_post (pid, tid) _ k1) ?_ ?_ ?_
      · rintro _ k2 ⟨hk2, -⟩
        rw [hk2]
        exact Moves.single (l := .quiet) rfl (.wake hnr hnf hs.readied)
      · rintro _ k2 ⟨rfl, -⟩
        exact Moves.single (l := .quiet) rfl (.wake hnr hnf ⟨_, fun _ _ => rfl, hs⟩)
      · rintro msg ⟨hmsg, h⟩
        refine ⟨fun _ => .of_disorder hmsg fun hm hb _ => h hm ⟨hle, ?_⟩, fun h => absurd hle h⟩
        rw [hcur]
        exact hb.pids _ hb.running
  · intro _ _ h
    simp [putProcess] at h
  · intro msg h
    rw [hput] at h
    exact ⟨fun _ => h, fun h => absurd hle h⟩

/-- `handOver` drops the future of the receiver and lets it run with the message. -/
theorem readyTaken_post (t : ThreadId) (r : Result) (k : Kernel) : post (takeKernelFuture t)
      (fun _ k1 => post (do setThreadState t .ready; Exec.ignore (setThreadResult t r))
        (fun _ k' => Readied t (k.ipc.setFuture t none) k'.ipc) (fun _ _ => False)
        (ResultBlame k t) k1)
      (fun _ k' => k' = k ∧ k.processes t.1 = none) (ResultBlame k t) k := by
  refine post_mono (takeKernelFuture_post t k) ?_ (fun _ _ h => h) fun msg h => ⟨?_, fun _ _ _ hu => h.2 hu.1⟩
  · rintro f k1 ⟨hsome, hk1, hlt, hge⟩
    have hsame : k1.ipc.parent = k.ipc.parent ∧ (Linked k.ipc → Linked k1.ipc) := by
      by_cases h2 : t.2 < maxThreadCount
      · rw [(hlt h2).2]
        exact ⟨rfl, id⟩
      · rw [(hge h2).2]
        exact ⟨rfl, id⟩
    refine post_mono (readyWithResult_post t _ k1) ?_ ?_ ?_
    · rintro _ k2 ⟨ctx, hctx, hs⟩
      rw [(hlt hs.range).2] at hctx hs
      exact ⟨ctx, hctx, hs⟩
    · rintro _ _ ⟨-, hnone⟩
      have := ipc_parent hnone
      rw [hsame.1, ipc_parent_eq_none] at this
      exact hsome this
    · rintro msg ⟨hmsg, h⟩
      refine ⟨hmsg, fun hm hl hcur => h hm (hsame.2 hl) ?_⟩
      rw [hk1]
      exact hcur
  · rw [h.1]
    decide

theorem handOver_post (t : ThreadId) (envelope : MessageEnvelope) (k : Kernel) :
    post (handOver t envelope) (fun _ k' => Readied t (k.ipc.setFuture t none) k'.ipc)
      (fun _ _ => False) (ResultBlame k t) k := by
  unfold handOver
  rw [post_bind, post_unwrap]
  exact post_mono (readyTaken_post t _ k) (fun _ _ h => h)
    (fun _ _ _ => ⟨by decide, fun h => absurd h (by decide)⟩) fun _ h => h

end Kernel

end BeetKernel

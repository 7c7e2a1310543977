/-
# Reachable states

What the scheduler, the receivers of a server and the threads that resume look like in every state
the machine reaches.  Each result names the careful runs it holds for, and each is followed by a
run of the machine that is not careful and breaks it.
-/
import BeetKernel.Ipc.Runs

namespace BeetKernel

open Exec (bind_run get_bind_run get_run modify_bind_run modify_run post_ok post ignore bind_eq_ok attempt)

namespace Machine

open Kernel Ipc

/-- Memory in which frame 0 starts with two clients waiting for a reply: thread 0 of process 3 and
of process 4. -/
def forgedIrq (a : Nat) : UInt8 :=
  if a = dramBase ∨ a = dramBase + 64 then 11 else if a = dramBase + 8 then 3
  else if a = dramBase + 72 then 4 else 0

/-- Process 2 answers the clients its new queue came with. -/
def answer (slot : Nat) : Event := .svc frame (.returnScalar1 ⟨slot⟩ 0)

end Machine

namespace Kernel

open Ipc Machine

variable {k k' k₀ : Kernel} {e : Event} {es : List Event}

/-! ## 1. The ready lists -/

theorem toIndex_inj {a b : ThreadPriority} : a.toIndex = b.toIndex ↔ a = b := by
  constructor
  · intro h
    cases a <;> cases b <;> first | rfl | cases h
  · rintro rfl
    rfl

/-- What the scheduler expects and asserts. -/
def schedulerMessages : List String :=
  ["Multiple IRQ threads marked ready", "Thread linked twice", "Queue head was not linked in",
    "Last queue element was not linked in", "IRQ thread parked when not ready",
    "To-be-parked thread was not linked in", "Prev queue element was not linked in",
    "Next queue element was not linked in", "Yielded thread was not linked in",
    "Chosen process did not exist", "process missing"]

theorem schedulerMessages_table {msg : String} (h : msg ∈ schedulerMessages) :
    msg ∈ tableMessages ∧ msg ≠ "index out of bounds" := by
  unfold schedulerMessages at h
  revert msg
  decide

/-- The ready lists hold the ready threads of the processes that exist, each in the list of its
priority, the scheduler chooses a thread of such a process, and nothing that happens next runs into
one of its assertions. -/
structure Scheduled (k : Kernel) : Prop where
  lists : ∃ L, Scheduler.Repr k.scheduler L ∧ ∀ (pid : PID) (tid : TID) (prio : ThreadPriority),
    tid ≠ irqTid → ((pid, tid) ∈ L prio.toIndex ↔ ∃ p, k.processes pid = some p ∧
      p.threads tid = .ready ∧ p.threadPriorities tid = prio)
  chosen : ∀ t, k.nextThread = some t → k.processes t.1 ≠ none
  safe : ∀ e, Enabled k e → ∀ msg ∈ schedulerMessages, exec e k ≠ .panic msg

theorem Basic.lists (h : Basic k.ipc) : ∃ L, Scheduler.Repr k.scheduler L ∧
    ∀ (pid : PID) (tid : TID) (prio : ThreadPriority), tid ≠ irqTid →
      ((pid, tid) ∈ L prio.toIndex ↔ ∃ p, k.processes pid = some p ∧ p.threads tid = .ready ∧
        p.threadPriorities tid = prio) := by
  obtain ⟨L, hr, hmem⟩ := h.linked
  refine ⟨L, hr, fun pid tid prio htid => ?_⟩
  have hst : k.ipc.state (pid, tid) = k.threadState (pid, tid) := rfl
  have hpr : k.ipc.priority (pid, tid) = k.threadPriority (pid, tid) := rfl
  rw [hmem, hst, hpr, threadState, threadPriority]
  cases k.processes pid with
  | none => simp
  | some p =>
    simp [htid, toIndex_inj]

theorem run_proper (h₀ : Booted k₀) (h : RunOf (fun k e _ => ClearQueues k e) k₀ es k) :
    Basic k.ipc ∧ Proper k.ipc ∧ AtHome k := by
  refine h.invariant (P := fun k => Basic k.ipc ∧ Proper k.ipc ∧ AtHome k) ?_ ⟨h₀.ipc.toBasic, h₀.ipc.proper, h₀.home⟩
  rintro k e k' hc hs ⟨hb, hp, hhome⟩
  exact ⟨step_basic hb hs, step_proper hb hc hs hp, (step_reacts hb hs).2 hhome⟩

/-- The mask of a server holds the threads that are blocked receiving from it, none of which is
there while a message waits, so `park_thread` never finds its bit set. -/
structure Receiving (k : Kernel) : Prop where
  mask : ∀ sidx s, k.servers sidx = some s → ∀ tid,
    s.readyThreads.getLsbD tid = true ↔ k.kernelFuture (s.pid, tid) = some (.receiveMessage sidx)
  delivered : ∀ sidx s, k.servers sidx = some s → s.readyThreads ≠ 0 → s.undelivered = 0
  park : ∀ e, Enabled k e → exec e k ≠ .panic parkMessage
  handed : ∀ sidx s tid s', k.servers sidx = some s → s.takeAvailableThread = some (tid, s') →
    k.kernelFuture (s.pid, tid) = some (.receiveMessage sidx)
  waits : ∀ t sidx, k.kernelFuture t = some (.receiveMessage sidx) →
    ∃ s, k.servers sidx = some s ∧ s.pid = t.1 ∧ s.undelivered = 0

theorem Quiescent.mask (h : Ordered.Quiescent k.ipc) {sidx : Nat} {s : Server}
    (hs : k.servers sidx = some s) (tid : TID) :
    s.readyThreads.getLsbD tid = true ↔ k.kernelFuture (s.pid, tid) = some (.receiveMessage sidx) := by
  rw [← parkedAt_self (i := k.ipc) hs]
  exact ⟨h.order.receiver sidx _, fun hf => h.order.receiving _ sidx hf (by simp)⟩

theorem undelivered_of_sound {s : Server} (h : s.Sound) (hr : s.readyThreads ≠ 0) : s.undelivered = 0 := by
  obtain ⟨n, d, pend, hrepr, hpend⟩ := h
  have hcount : s.undelivered = pend.length := hrepr.holds.count
  rw [hcount, hpend hr, List.length_nil]

theorem Quiescent.receiving (h : Ordered.Quiescent k.ipc) : Receiving k where
  mask _ _ hs tid := Quiescent.mask h hs tid
  delivered sidx s hs hr := undelivered_of_sound (h.order.sound sidx s hs) hr
  park e _ hpanic := by
    have hblame := exec_reacts h.order.toBasic e
    rw [Reaction, post, hpanic] at hblame
    obtain ⟨sidx, hparked⟩ := hblame.1 rfl
    exact absurd (h.order.receiver sidx _ hparked) (by simp [h.going.2])
  handed sidx s tid s' hs ht := by
    refine (Quiescent.mask h hs tid).mp ?_
    unfold Server.takeAvailableThread at ht
    split at ht
    · cases ht
    next u hu =>
      cases ht
      exact List.find?_some hu
  waits t sidx hf := by
    obtain ⟨s, hs, hpid, hbit⟩ := h.order.receiving t sidx hf (by simp)
    exact ⟨s, hs, hpid, undelivered_of_sound (h.order.sound sidx s hs) fun hz => by simp [hz] at hbit⟩

/-- No server is destroyed. -/
def KeepsServers (k k' : Kernel) : Prop := ∀ n, k.servers n ≠ none → k'.servers n ≠ none

/-- Process 3 sends a message to a server whose queue came with one of the same generation; process 2
receives the other, and then waits while the message that was sent stays in its slot. -/
def strandedEvents : List Event :=
  [.svc frame .yield, .svc frame (.connect sid), .svc frame (.sendMessage 2 (.scalar ⟨7, 0, 0, 0, 0⟩)),
    .svc frame .yield, .svc frame .yield, .svc frame (.receiveMessage sid), .svc frame (.receiveMessage sid)]

/-- The handler of an event up to `activate_current`, and whether it gets there. -/
def untilActivate : Event → KExec Bool
  | .svc frame call => do
    let k ← Exec.get
    Exec.modify (saveContext k.currentThread frame)
    match ← handle k.currentThread.2 call with
    | .result _ => pure false
    | .activateCurrent => pure true
  | .timer frame => do
    let k ← Exec.get
    Exec.modify (saveContext k.currentThread frame)
    let p ← currentProcess
    withScheduler (Scheduler.yieldThread k.currentThread (p.threadPriorities k.currentTid))
    pure true
  | .abort frame => do
    let k ← Exec.get
    Exec.modify (saveContext k.currentThread frame)
    terminateCurrentProcess 1
    pure true
  | .idle chars => do
    Exec.each dispatchInputChar chars
    pure true
  | .store .. | .invalidSvc _ | .input .. => pure false

/-- What becomes of the answer of `activate_current`: an error goes into the registers of the
thread that made the call, whoever's future it came from. -/
def settle (caller : ThreadId) : Event → Except Error Result → Kernel → Kernel
  | .svc .., .ok .resumeProcess => id
  | .svc .., .ok r => setSavedResult caller r
  | .svc .., .error err => setSavedResult caller (.error err)
  | _, _ => id

theorem exec_asked {k2 : Kernel} (h : untilActivate e k = .ok true k2) :
    exec e k = (attempt activateCurrent >>= fun r =>
      Exec.modify (settle k.currentThread e r)) k2 := by
  rw [bind_run, attempt]
  cases e with
  | svc frame call =>
    simp only [untilActivate, get_bind_run, modify_bind_run] at h
    obtain ⟨r, k1, hr, h⟩ := bind_eq_ok.mp h
    cases r with
    | result => cases h
    | activateCurrent =>
      cases h
      simp only [exec, handleSvc, handleCall, bind_run, get_run, modify_run, attempt, hr]
      cases activateCurrent k2 with
      | ok r k₃ => cases r <;> rfl
      | err | panic => rfl
  | timer frame =>
    simp only [untilActivate, get_bind_run, modify_bind_run] at h
    obtain ⟨p, k1, hp, h⟩ := bind_eq_ok.mp h
    obtain ⟨u, k4, hy, h⟩ := bind_eq_ok.mp h
    cases h
    simp only [exec, handleTimer, bind_run, get_run, modify_run, hp, hy, ignore]
    cases activateCurrent k2 <;> rfl
  | abort frame =>
    simp only [untilActivate, get_bind_run, modify_bind_run] at h
    obtain ⟨u, k1, ht, h⟩ := bind_eq_ok.mp h
    cases h
    simp only [exec, handleAbort, bind_run, get_run, modify_run, ht, ignore]
    cases activateCurrent k2 <;> rfl
  | idle chars =>
    obtain ⟨u, k1, ht, h⟩ := bind_eq_ok.mp h
    cases h
    simp only [exec, idleTurn, bind_run, ht, ignore]
    cases activateCurrent k2 <;> rfl
  | store | invalidSvc | input => cases h

/-- A future that completes is its thread's business: the thread runs next, with what the mailbox
held in its registers, and no other thread's registers change. -/
def Completes (k k' : Kernel) : Prop := ∀ t, k.kernelFuture t ≠ none → k'.kernelFuture t = none → k'.currentThread = t ∧
    (∃ r, k.mailbox t = some r ∧ k'.context t = (k.context t).map (·.setArgs r)) ∧
    ∀ u, u ≠ t → k'.context u = k.context u

/-- If the event asks the scheduler, no poll ends in an error, which would reach another thread, and
what completes is delivered to its own. -/
def Delivers (k : Kernel) (e : Event) : Prop :=
  ∀ k2, untilActivate e k = .ok true k2 → (∀ err k₃, activateCurrent k2 ≠ .err err k₃) ∧
    ∀ r k₃, activateCurrent k2 = .ok r k₃ → Completes k2 k₃

/-- What the kernel leaves to its callers: queues on clear pages, the display only to a thread that
waits for it, and no receiver on a server that its process destroys. -/
structure Careful (k : Kernel) (e : Event) : Prop where
  queues : ClearQueues k e
  display : DisplayFair k e
  receivers : NoReceivers k e

theorem run_quiescent (h₀ : Booted k₀) (h : RunOf (fun k e _ => Careful k e) k₀ es k) : Ordered.Quiescent k.ipc := by
  refine h.invariant (P := fun k => Ordered.Quiescent k.ipc) ?_ h₀.ipc.quiescent
  rintro k e k' hc hs hq
  exact step_quiescent hq hc.queues hc.display (.inl hc.receivers) hs

theorem untilActivate_ordered {k2 : Kernel} (hq : Ordered.Quiescent k.ipc) (hen : Enabled k e)
    (hd : DisplayFair k e) (h : untilActivate e k = .ok true k2) : Ordered none none k2.ipc := by
  have hregs := fun frame => hq.regs (saveContext_regs k.currentThread frame k)
  cases e with
  | svc frame call =>
    simp only [untilActivate, get_bind_run, modify_bind_run] at h
    obtain ⟨r, k1, hr, h⟩ := bind_eq_ok.mp h
    cases r with
    | result => cases h
    | activateCurrent =>
      cases h
      have hcur : (saveContext k.currentThread frame k).currentThread = k.currentThread :=
        own_current (saveContext_step frame k).1
      rw [← congrArg Prod.snd hcur] at hr
      have hy := (post_ok (handle_handled (hregs frame).order.toBasic call) hr).1
      refine (hregs frame).order.yields hy (fun hc => (hd hc).regs (saveContext_regs ..))
        (hregs frame).going fun hp => hen ?_
      exact (congrArg Prod.fst hcur).symm.trans hp
  | timer frame =>
    simp only [untilActivate, get_bind_run, modify_bind_run] at h
    obtain ⟨p, k1, hp, h⟩ := bind_eq_ok.mp h
    obtain ⟨u, k4, hy, h⟩ := bind_eq_ok.mp h
    cases h
    have hq1 := post_ok (currentProcess_quietly (P := AtHome) _) hp
    have hq2 := post_ok (yieldThread_quietly (P := AtHome) _ _ _) hy
    exact ((hregs frame).order.quietly (hq1.1.trans hq2.1)).1
  | abort frame =>
    simp only [untilActivate, get_bind_run, modify_bind_run] at h
    obtain ⟨u, k1, ht, h⟩ := bind_eq_ok.mp h
    cases h
    have hends := post_ok (terminateCurrentProcess_post (hregs frame).order.toBasic 1) ht
    exact (hregs frame).order.ends hends.ends ((hd trivial).regs (saveContext_regs ..))
  | idle chars =>
    obtain ⟨u, k1, ht, h⟩ := bind_eq_ok.mp h
    cases h
    exact (hq.order.quietly (post_ok (inputChars_quietly chars k) ht).1).1
  | store | invalidSvc | input => cases h

end Kernel

namespace Ipc

variable {i j : Ipc} {t : ThreadId}

theorem Reparks.same (h : Reparks i j) : j.future = i.future ∧ j.mailbox = i.mailbox ∧ j.context = i.context := by
  induction h with
  | refl => exact ⟨rfl, rfl, rfl⟩
  | tail _ hm ih =>
    obtain ⟨_, ⟨t, rfl, -⟩, hm⟩ := hm
    cases hm with
    | repark _ _ hs =>
      rw [hs.rest]
      exact ih

/-- The scheduler completes the future of the thread it chooses, and no other. -/
theorem Ordered.completes (h : Ordered none none i) (hs : Schedules i j) (hf : i.future t ≠ none)
    (hn : j.future t = none) : j.current = t ∧
      (∃ r, i.mailbox t = some r ∧ j.context t = (i.context t).map (·.setArgs r)) ∧
      ∀ u, u ≠ t → j.context u = i.context u := by
  obtain ⟨i1, h1, h2⟩ := hs
  have ho := h.reparks h1
  obtain ⟨hfut, hmail, hctx⟩ := Reparks.same h1
  rw [← hfut] at hf
  rw [← hmail, ← hctx]
  cases h2 with
  | nobody _ hj =>
    subst hj
    exact absurd hn hf
  | @thread i2 u hr hu hp hres =>
    obtain ⟨ho2, hg⟩ := ho.polls hr hp
    obtain ⟨-, -, hcur⟩ := ho2.resumes hg hres
    have hsame : j.future = i2.future ∧ j.context = i2.context := by
      cases hres with
      | same _ hj => exact hj ▸ ⟨rfl, rfl⟩
      | switch hm =>
        cases hm
        exact ⟨rfl, rfl⟩
    rw [hsame.1] at hn
    rw [hsame.2, hcur]
    cases hp with
    | none _ hj =>
      subst hj
      exact absurd hn hf
    | collect hf hs _ hmsg _ _ _ => exact (ho.not_collecting hf hs hmsg).elim
    | complete hm =>
      cases hm with
      | complete hready _ _ hm =>
        have htu : t = u := by
          by_contra hne
          refine hf ?_
          rw [← setFuture_of_ne i1 hne none]
          exact hn
        subst htu
        have hrange : 1 ≤ t.2 ∧ t.2 ≤ maxThreadCount := by
          have hfree : i1.state t ≠ .free := by rw [hready]; simp
          exact ⟨(ho.allocated t hfree).2, (ho.present t hfree).2.le⟩
        refine ⟨rfl, ⟨_, hm, ?_⟩, fun u hu => ?_⟩
        · rw [deliver, if_pos hrange]
          exact Function.update_self ..
        · rw [deliver, if_pos hrange]
          exact Function.update_of_ne hu ..

end Ipc

namespace Kernel

open Ipc Machine

variable {k k' k₀ : Kernel} {e : Event} {es : List Event}

/-- A thread of process 2 waits to receive, and another destroys the server. -/
def orphanedEvents : List Event :=
  [.svc frame (.createThread ⟨0, 0, 0, 0, 0, 0⟩), .svc frame (.receiveMessage sid), .svc frame .yield,
    .svc frame .yield, .svc frame (.destroyServer sid), .svc frame .yield, .svc frame .yield]

end Kernel

end BeetKernel

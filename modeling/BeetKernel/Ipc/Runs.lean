/-
# Runs

What holds in every state the machine reaches after booting.

The tables are in order in every run (`run_basic`).  Who may be named by a slot, and the order
in which threads wait, are kept by the runs whose events are CAREFUL: three things the kernel does
not check, each a condition on the state before the event.
-/
import BeetKernel.Ipc.Order

namespace BeetKernel

open ThreadPriority (appDefault)

namespace Ipc

/-! ## 1. After booting -/

/-- Threads and servers when the first program is entered: every process has its one thread, which
is ready, and there is no server. -/
structure Newborn (i : Ipc) : Prop extends Sane i where
  ready : ∀ t, i.state t ≠ .free → i.state t = .ready
  future : ∀ t, i.future t = none
  mailbox : ∀ t, i.mailbox t = none
  servers : ∀ n, i.servers n = none
  waiters : i.waiters = []
  unconnected : ∀ (pid : PID) (n sidx r : Nat) (p : MessagePermissions),
    (i.connections pid)[n]? ≠ some (.connected sidx r p)
  first : ∀ pid, i.parent pid ≠ none → i.state (pid, initialTid) = .ready ∧ i.tid pid = initialTid

theorem Newborn.ordered {i : Ipc} (h : Newborn i) : Ordered none none i where
  toSane := h.toSane
  receiver sidx t hp := by
    obtain ⟨s, hs, -⟩ := hp
    rw [h.servers] at hs
    cases hs
  receiving t sidx hf := by
    rw [h.future] at hf
    cases hf
  sound sidx s hs := by
    rw [h.servers] at hs
    cases hs
  blocked sidx slot t hn := by
    obtain ⟨s, hs, -⟩ := hn
    rw [h.servers] at hs
    cases hs
  unique t sidx slot sidx' slot' hn := by
    obtain ⟨s, hs, -⟩ := hn
    rw [h.servers] at hs
    cases hs
  addressed t hm := absurd (h.mailbox t) hm

theorem Newborn.quiescent {i : Ipc} (h : Newborn i) : Ordered.Quiescent i where
  order := h.ordered
  going := by
    obtain ⟨hr, ht⟩ := h.first i.pid h.running
    rw [current, ht]
    exact ⟨hr, h.future _⟩

theorem Newborn.proper {i : Ipc} (h : Newborn i) : Proper i where
  named sidx slot t hn := by
    obtain ⟨s, hs, -⟩ := hn
    rw [h.servers] at hs
    cases hs
  parked sidx t hp := by
    obtain ⟨s, hs, -⟩ := hp
    rw [h.servers] at hs
    cases hs
  waiters := by
    rw [h.waiters]
    simp

end Ipc

namespace Kernel

open Ipc

variable {k k' k₀ : Kernel} {e : Event} {es : List Event} {C : Kernel → Event → Kernel → Prop}

/-- A machine that has booted, about to enter the first program. -/
structure Booted (k : Kernel) : Prop where
  ipc : Newborn k.ipc
  home : AtHome k
  user : k.currentPid ≠ PID.kernel

/-! ## 2. Runs whose steps satisfy a condition -/

/-- A run whose steps all satisfy `C`. -/
inductive RunOf (C : Kernel → Event → Kernel → Prop) : Kernel → List Event → Kernel → Prop where
  | nil (k : Kernel) : RunOf C k [] k
  | snoc {k k' k'' : Kernel} {es : List Event} {e : Event} :
      RunOf C k es k' → Step k' e k'' → C k' e k'' → RunOf C k (es ++ [e]) k''

theorem RunOf.run (h : RunOf C k es k') : Run k es k' := by
  induction h with
  | nil => exact .nil _
  | snoc _ hs _ ih => exact .snoc ih hs

theorem Run.runOf (h : Run k es k') : RunOf (fun _ _ _ => True) k es k' := by
  induction h with
  | nil => exact .nil _
  | snoc _ hs ih => exact .snoc ih hs trivial

theorem RunOf.invariant {P : Kernel → Prop} (h : RunOf C k es k')
    (hstep : ∀ k e k', C k e k' → Step k e k' → P k → P k') (h₀ : P k) : P k' := by
  induction h with
  | nil => exact h₀
  | snoc _ hs hc ih => exact hstep _ _ _ hc hs ih

theorem step_reacts (hb : Basic k.ipc) (hs : Step k e k') :
    Reacts (Clean k) k.ipc k'.ipc e ∧ (AtHome k → AtHome k') := by
  have h := exec_reacts hb e
  rw [Reaction, Exec.post, hs.2] at h
  exact h

theorem step_basic (hb : Basic k.ipc) (hs : Step k e k') : Basic k'.ipc :=
  does_basic (reacts_does (step_reacts hb hs).1) Permits.stays hb

/-- **The tables are in order in every run.** -/
theorem run_basic (h₀ : Booted k₀) (h : Run k₀ es k) : Basic k.ipc :=
  h.runOf.invariant (fun _ _ _ _ hs hb => step_basic hb hs) h₀.ipc.toBasic

/-! ## 3. Careful events -/

/-- The page that the next server's queue would be given reads as an empty queue: the tag of each
slot is zero. -/
def QueuePageClear (k : Kernel) : Prop :=
  ∀ idx, handedOut k.mm 0 1 = some idx → TagsZero k.ram (dramBase + idx * pageSize)

/-- A server is created only on a page that is clear. -/
def ClearQueues (k : Kernel) (e : Event) : Prop := e.CreatesServer → QueuePageClear k

/-- The event may pass the display on. -/
def Event.FreesDisplay : Event → Prop
  | .svc _ call => call.FreesDisplay
  | .abort _ => True
  | _ => False

/-- The display is passed on only to a thread that still waits for it. -/
def DisplayFair (k : Kernel) (e : Event) : Prop := e.FreesDisplay → Ordered.FirstWaits k.ipc

/-- A server is destroyed by its process only if nobody is blocked receiving from it. -/
def NoReceivers (k : Kernel) (e : Event) : Prop :=
  ∀ frame sid, e = .svc frame (.destroyServer sid) → ∀ sidx s, k.servers sidx = some s →
    s.sid = sid → s.pid = k.currentPid → s.readyThreads = 0

theorem clear_callers (hc : ClearQueues k e) (s : Server) (h : e.CreatesServer ∧ Clean k s) :
    (∀ slot, s.caller slot = none) ∧ s.Sound := h.2 (hc h.1)

theorem step_proper (hb : Basic k.ipc) (hc : ClearQueues k e) (hs : Step k e k')
    (hp : Proper k.ipc) : Proper k'.ipc := by
  refine does_proper (reacts_does (step_reacts hb hs).1) (Permits.harmless fun s h slot t ht => ?_) hb hp
  rw [(clear_callers hc s h).1 slot] at ht
  cases ht

theorem admits (hc : ClearQueues k e) (hd : DisplayFair k e)
    (hv : NoReceivers k e ∨ ∀ n, k.servers n ≠ none → k'.servers n ≠ none) :
    Ordered.Admits (Clean k) k.ipc k'.ipc e := by
  cases e with
  | svc frame call =>
    refine ⟨fun hcall s hs => clear_callers hc s ⟨hcall, hs⟩, fun sidx s hcall hs hpid hgone t ht => ?_,
      fun hcall => hd hcall⟩
    rcases hv with hv | hkeep
    · obtain ⟨s', hs', -, hbit⟩ := ht
      obtain rfl : s = s' := Option.some.inj (hs.symm.trans hs')
      rw [hv frame s.sid (by rw [hcall]) sidx s hs rfl hpid] at hbit
      simp at hbit
    · refine hkeep sidx ?_ hgone
      have hs' : k.servers sidx = some s := hs
      simp [hs']
  | abort => exact hd trivial
  | store | invalidSvc | timer | input | idle => trivial

theorem step_quiescent (hq : Ordered.Quiescent k.ipc) (hc : ClearQueues k e) (hd : DisplayFair k e)
    (hv : NoReceivers k e ∨ ∀ n, k.servers n ≠ none → k'.servers n ≠ none) (hs : Step k e k') :
    Ordered.Quiescent k'.ipc := by
  refine Ordered.reacts hq (step_reacts hq.order.toBasic hs).1 (admits hc hd hv) ?_
  cases e with
  | idle chars => exact .inr ⟨chars, rfl⟩
  | store | svc | invalidSvc | timer | input | abort => exact .inl hs.1

/-! ## 4. Runs, computed -/

instance (k : Kernel) (e : Event) : Decidable (Enabled k e) := by
  cases e <;> unfold Enabled <;> infer_instance

/-- The state after a list of events, if each of them is enabled and none stops the kernel. -/
def execAll : List Event → Kernel → Option Kernel
  | [], k => some k
  | e :: es, k => if Enabled k e then
      match exec e k with
      | .ok _ k' => execAll es k'
      | _ => none
    else none

theorem RunOf.cons (hs : Step k e k') (hc : C k e k') {k'' : Kernel} (h : RunOf C k' es k'') :
    RunOf C k (e :: es) k'' := by
  induction h with
  | nil => exact .snoc (.nil _) hs hc
  | snoc _ hs' hc' ih => exact .snoc ih hs' hc'

theorem execAll_run : ∀ {es : List Event} {k k' : Kernel}, execAll es k = some k' → RunOf (fun _ _ _ => True) k es k'
  | [], k, k', h => by
    cases h
    exact .nil _
  | e :: es, k, k', h => by
    rw [execAll] at h
    split at h
    next hen =>
      split at h
      next u k1 hexec =>
        exact .cons ⟨hen, hexec⟩ trivial (execAll_run h)
      · cases h
    · cases h

theorem run_of_execAll (h : execAll es k = some k') : Run k es k' := (execAll_run h).run

theorem step_of_execAll (h : execAll [e] k = some k') : Step k e k' := by
  rw [execAll] at h
  split at h
  next hen =>
    split at h
    next k1 hexec =>
      cases h
      exact ⟨hen, hexec⟩
    · cases h
  · cases h

/-- The message with which an event stops the kernel. -/
def stopsWith (k : Kernel) (e : Event) : Option String :=
  match exec e k with
  | .panic msg => some msg
  | _ => none

theorem exec_of_stopsWith {msg : String} (h : stopsWith k e = some msg) : exec e k = .panic msg := by
  unfold stopsWith at h
  split at h
  · cases h
    assumption
  · cases h

/-- A call that is answered at once writes its answer into the caller's registers. -/
theorem exec_svc_result {frame : Context} {call : SysCall} {r : Result}
    (h : handle k.currentThread.2 call (saveContext k.currentThread frame k) = .ok (.result r) k')
    (hr : r ≠ .resumeProcess) :
    exec (.svc frame call) k = .ok () (setSavedResult k.currentThread r k') := by
  have hcall : handleCall k.currentThread.2 call (saveContext k.currentThread frame k) = .ok r k' := by
    simp only [handleCall, Exec.bind_run, h, Exec.pure_run]
  simp only [exec, handleSvc, Exec.bind_run, Exec.get_run, Exec.modify_run, Exec.attempt, hcall]

end Kernel

namespace Machine

open Kernel Ipc

/-- All of RAM is free, and none of it known to be zero. -/
def wholeRam : MemoryManager := { MemoryManager.default with
    allocationsLen := ramPages
    freePagesDirty := fun i => decide (i < ramPages)
    numFreePages := ramPages }

/-- The machine after booting, with the given bytes in memory. -/
def start (ram : Nat → UInt8) : Kernel := { kernel ram with mm := wholeRam }

theorem wholeRam_nextDirty : wholeRam.NextDirty 0 where
  hint := by decide
  zeroed := fun _ => rfl
  dirty := by decide +kernel
  unowned := rfl
  tracked := by decide
  plenty := by decide +kernel
  quiet := rfl

/-- The ready lists of the machine. -/
def lists (q : Fin 16) : List ThreadId :=
  if q = appDefault.toIndex then [(p2, initialTid), (p3, initialTid), (p4, initialTid)]
  else if q = ThreadPriority.idle.toIndex then [idleThread] else []

variable {t : ThreadId} {ram : Nat → UInt8} {queue : List QueuedMessage}

theorem mem_lists {q : Fin 16} : t ∈ lists q ↔
    t.2 = initialTid ∧ (q = appDefault.toIndex ∧ (t.1 = p2 ∨ t.1 = p3 ∨ t.1 = p4) ∨
      q = ThreadPriority.idle.toIndex ∧ t.1 = PID.kernel) := by
  have hne : appDefault.toIndex ≠ ThreadPriority.idle.toIndex := by decide
  obtain ⟨pid, tid⟩ := t
  unfold lists
  split
  next h =>
    subst h
    simp [hne, Prod.ext_iff]
    tauto
  · split
    next h h' =>
      subst h'
      simp [h, idleThread, Prod.ext_iff]
      tauto
    next h h' =>
      simp [h, h']

theorem scheduler_repr : Scheduler.Repr scheduler lists where
  head := by decide
  ring := by
    intro p
    unfold lists
    split
    · exact LinkRing.cons_iff.mpr (by decide)
    · split
      · exact LinkRing.singleton.mpr (by decide)
      · exact LinkRing.nil
  nodup := by decide
  disjoint := by
    intro p q t hp hq
    rw [mem_lists] at hp hq
    grind [p2, p3, p4, PID.kernel]
  unlinked := by
    intro t ht
    have h2 := ht appDefault.toIndex
    have h1 := ht ThreadPriority.idle.toIndex
    rw [mem_lists] at h1 h2
    unfold scheduler
    grind
  inRange := by
    intro p t h
    obtain ⟨ht, hp⟩ := mem_lists.mp h
    rw [Scheduler.InRange, ht]
    rcases hp with ⟨-, h | h | h⟩ | ⟨-, h⟩ <;> rw [h] <;> decide
  highest := ⟨by decide, by decide⟩

theorem processes_cases (pid : PID) : processes pid = none ∧ pid ≠ PID.kernel ∧ pid ≠ p2 ∧ pid ≠ p3 ∧ pid ≠ p4 ∨
    (∃ prio, processes pid = some { userProcess with threadPriorities := fun _ => prio } ∧
      (pid = PID.kernel ∧ prio = .idle ∨ (pid = p2 ∨ pid = p3 ∨ pid = p4) ∧ prio = .appDefault)) := by
  unfold processes
  split
  next h =>
    exact .inr ⟨_, rfl, .inl ⟨h, rfl⟩⟩
  · split
    next h =>
      exact .inr ⟨.appDefault, rfl, .inr ⟨h, rfl⟩⟩
    next h h' =>
      simp only [not_or] at h'
      exact .inl ⟨rfl, h, h'⟩

theorem userProcess_threads (tid : TID) : userProcess.threads tid = if tid = initialTid then .ready else .free := rfl

@[simp] theorem start_processes (ram : Nat → UInt8) : (start ram).processes = processes := rfl

theorem start_lists (ram : Nat → UInt8) (t : ThreadId) (q : Fin 16) : t ∈ lists q ↔
    t.2 ≠ irqTid ∧ (start ram).ipc.state t = .ready ∧ ((start ram).ipc.priority t).toIndex = q := by
  have hirq : initialTid ≠ irqTid := by decide
  have hne : appDefault.toIndex ≠ ThreadPriority.idle.toIndex := by decide
  rw [mem_lists]
  simp only [ipc, threadState, threadPriority, start_processes]
  rcases processes_cases t.1 with ⟨h, hk, hu⟩ | ⟨prio, h, hp⟩
  · simp [h, hk, hu]
  · simp only [h, userProcess_threads]
    rcases hp with ⟨hk, rfl⟩ | ⟨hu, rfl⟩
    · have : ¬ (t.1 = p2 ∨ t.1 = p3 ∨ t.1 = p4) := by rw [hk]; decide
      simp only [hk]
      grind
    · have : t.1 ≠ PID.kernel := by rcases hu with hu | hu | hu <;> rw [hu] <;> decide
      simp only [this, hu]
      grind

theorem start_state (h : (start ram).ipc.state t ≠ .free) :
    (processes t.1).isSome = true ∧ t.2 = initialTid ∧ (start ram).ipc.state t = .ready := by
  simp only [ipc, threadState, start_processes] at h ⊢
  cases hp : processes t.1 with
  | none => simp [hp] at h
  | some p =>
    simp only [hp] at h ⊢
    have hready := (processes_threads hp t.2).resolve_right h
    refine ⟨rfl, ?_, hready⟩
    rcases processes_cases t.1 with ⟨hn, -⟩ | ⟨prio, hs, -⟩
    · rw [hn] at hp
      cases hp
    · rw [hs] at hp
      cases hp
      by_contra hne
      exact h (by simp [userProcess_threads, hne])

theorem start_unconnected (ram : Nat → UInt8) (pid : PID) (n : Nat) (c : ConnectionSlot) :
    ((start ram).ipc.connections pid)[n]? = some c → c = .free := by
  intro h
  rcases processes_cases pid with ⟨hp, -⟩ | ⟨prio, hp, -⟩
  · simp [ipc, hp] at h
  · simp only [ipc, start_processes, hp] at h
    exact List.eq_of_mem_replicate (List.mem_of_getElem? h)

theorem start_future (ram : Nat → UInt8) (t : ThreadId) : (start ram).ipc.future t = none := by
  show (processes t.1).bind (·.kernelFutures t.2) = none
  rcases processes_cases t.1 with ⟨h, -⟩ | ⟨prio, h, -⟩ <;> rw [h] <;> rfl

theorem start_mailbox (ram : Nat → UInt8) (t : ThreadId) : (start ram).ipc.mailbox t = none := by
  show (processes t.1).bind (·.resultMailbox t.2) = none
  rcases processes_cases t.1 with ⟨h, -⟩ | ⟨prio, h, -⟩ <;> rw [h] <;> rfl

theorem start_archProcesses (ram : Nat → UInt8) (pid : PID) : (start ram).archProcesses pid =
    if (processes pid).isSome then
      some ⟨fun tid => { Thread.default with allocated := decide (tid = initialTid) }, initialTid⟩
    else none := rfl

theorem start_tid (ram : Nat → UInt8) (pid : PID) : (start ram).ipc.tid pid = initialTid := by
  unfold ipc
  dsimp only
  rw [start_archProcesses]
  cases (processes pid).isSome <;> rfl

theorem start_allocated (h : (processes t.1).isSome = true)
    (ht : t.2 = initialTid) : (start ram).ipc.allocated t = true := by
  show (start ram).allocated t = true
  rw [Kernel.allocated, start_archProcesses, if_pos h, ht]
  rfl

theorem start_booted (ram : Nat → UInt8) : Booted (start ram) where
  ipc := {
    linked := ⟨lists, scheduler_repr, start_lists ram⟩
    present := by
      intro t ht
      obtain ⟨hp, htid, -⟩ := start_state ht
      refine ⟨?_, by rw [htid]; decide⟩
      obtain ⟨p, hp⟩ := Option.isSome_iff_exists.mp hp
      show Option.map _ (processes t.1) ≠ none
      rw [hp]
      exact Option.some_ne_none _
    pids := by
      intro pid hpid
      have : Option.map Process.ppid (processes pid) ≠ none := hpid
      exact processes_pid (by cases h : processes pid <;> simp [h] at this ⊢)
    parents := by
      intro pid q hq
      have : Option.map Process.ppid (processes pid) = some (some q) := hq
      have hq : q = PID.kernel := by
        rcases processes_cases pid with ⟨hn, -⟩ | ⟨prio, hs, -⟩
        · simp [hn] at this
        · rw [hs] at this
          cases this
          rfl
      rw [hq]
      exact Option.some_ne_none _
    system := rfl
    running := Option.some_ne_none _
    table := fun _ _ h => nomatch h
    bounds := fun _ _ h => nomatch h
    owners := fun _ _ h => nomatch h
    wired := fun pid _ _ _ _ h => by cases start_unconnected ram pid _ _ h
    once := fun pid _ _ _ _ _ _ _ h => by cases start_unconnected ram pid _ _ h
    covered := ⟨le_refl _, fun _ _ h => nomatch h⟩
    tids := fun pid => by rw [start_tid]; decide
    receives := fun t _ h => by rw [start_future] at h; cases h
    irq := rfl
    allocated := by
      intro t ht
      obtain ⟨hp, htid, -⟩ := start_state ht
      exact ⟨start_allocated hp htid, by rw [htid]; decide⟩
    waiting := fun t h => absurd (start_future ram t) h
    named := fun _ _ _ ⟨_, h, _⟩ => nomatch h
    parked := fun _ _ ⟨_, h, _⟩ => nomatch h
    idle := rfl
    idleFuture := rfl
    ready := fun t ht => (start_state ht).2.2
    future := start_future ram
    mailbox := start_mailbox ram
    servers := fun _ => rfl
    waiters := rfl
    unconnected := fun pid _ _ _ _ h => by cases start_unconnected ram pid _ _ h
    first := by
      intro pid hpid
      refine ⟨?_, start_tid ram pid⟩
      have : Option.map Process.ppid (processes pid) ≠ none := hpid
      simp only [ipc, threadState, start_processes]
      rcases processes_cases pid with ⟨h, -⟩ | ⟨prio, h, -⟩
      · simp [h] at this
      · rw [h]
        rfl }
  home := rfl
  user := show p2 ≠ PID.kernel by decide

/-- The registers of a thread that makes a call. -/
def frame : Context := ⟨fun _ => 0, 0, 0⟩

/-- The machine in the middle of its first call. -/
def called (ram : Nat → UInt8) : Kernel := saveContext (p2, initialTid) frame (start ram)

theorem called_canPopulate (ram : Nat → UInt8) : CanPopulate (called ram) userProcess 0 .mmapArea where
  pid := show p2.get ≤ maxProcessCount by decide
  process := rfl
  free := by
    rw [searched]
    rfl
  nonzero := by decide
  next := wholeRam_nextDirty
  l2 := rfl
  l3 := rfl

/-- The machine after process 2 has created the first server, with `queue` in its slots. -/
def created (ram : Nat → UInt8) (queue : List QueuedMessage) : Kernel :=
  setSavedResult (p2, initialTid) (.newServerID sid)
    { (called ram).populated userProcess 0 .mmapArea queueFlags false with
      servers := Function.update (fun _ => none) 0 (some (server queue)) }

def createEvent : Event := .svc frame (.createServerWithAddress sid ⟨0, 0⟩)

theorem exec_createEvent (hqueue : decodeQueue ram dramBase slotCount = some queue) :
    exec createEvent (start ram) = .ok () (created ram queue) := by
  have hrun : createServerWithAddress sid ⟨0, 0⟩ (called ram) = .ok sid
      { (called ram).populated userProcess 0 .mmapArea queueFlags false with
        servers := Function.update (fun _ => none) 0 (some (server queue)) } :=
    createServerWithAddress_run (s := server queue) rfl (called_canPopulate ram) (by decide) hqueue rfl
      (fun _ _ hq tid => by rcases processes_threads hq tid with h | h <;> simp [h])
      (fun _ => processes_pid)
  refine exec_svc_result (k := start ram) ?_ (by simp)
  show handle initialTid (.createServerWithAddress sid ⟨0, 0⟩) (called ram) = _
  simp only [handle, checkSyscallPermission, dispatch, Exec.bind_run, Exec.pure_run, hrun]

theorem step_createEvent (hqueue : decodeQueue ram dramBase slotCount = some queue) :
    Step (start ram) createEvent (created ram queue) :=
  ⟨(start_booted ram).user, exec_createEvent hqueue⟩

/-- The machine with the server, if memory is zero. -/
abbrev served : Kernel := created (fun _ => 0) (List.replicate slotCount .empty)

/-- A run of the machine that begins with a server whose queue is what memory held. -/
theorem run_created {es : List Event} {P : Kernel → Bool} (hqueue : decodeQueue ram dramBase slotCount = some queue)
    (h : (execAll es (created ram queue)).any P = true) :
    ∃ k, Run (start ram) (createEvent :: es) k ∧ P k = true := by
  cases hk : execAll es (created ram queue) with
  | none => simp [hk] at h
  | some k =>
    rw [hk] at h
    exact ⟨k, (RunOf.cons (step_createEvent hqueue) trivial (execAll_run hk)).run, h⟩

/-- On a machine whose memory is zero every event is careful about queues. -/
theorem clearQueues_start (e : Event) : ClearQueues (start fun _ => 0) e := fun _ _ _ => tagsZero_zero

theorem decodeQueue_zero : decodeQueue (fun _ => 0) dramBase slotCount = some (List.replicate slotCount .empty) :=
  (decodeQueue_eq_replicate_iff (fun _ => 0) dramBase slotCount).mpr tagsZero_zero

end Machine

end BeetKernel

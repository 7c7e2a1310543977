/-
# Threads and servers, and what can happen to them

The abstract side of message passing.  `Ipc` is what is left of the kernel's state when one
looks only at threads and servers: who is ready, who waits for what, whose reply is in whose
mailbox, which slots name whom, who is parked at which server.  `Move` lists EVERYTHING the
kernel ever does to it, one constructor for each kind of change, with what the code is known
to have checked before.

Labels say who is affected and why.  The changes that any kernel code may cause on the way,
because a message to an event handler goes out whenever memory runs low, are `quiet`.
-/
import BeetKernel.Lib.Moves
import BeetKernel.Kernel.State
import BeetKernel.Server.Callers
import BeetKernel.Scheduler.Refinement

namespace BeetKernel

open Function (update)

/-- Threads and servers. -/
@[ext] structure Ipc where
  parent : PID → Option (Option PID)
  state : ThreadId → ThreadState
  future : ThreadId → Option KernelFuture
  mailbox : ThreadId → Option Result
  priority : ThreadId → ThreadPriority
  scheduler : Scheduler
  servers : Nat → Option Server
  connections : PID → List ConnectionSlot
  allocated : ThreadId → Bool
  context : ThreadId → Option Context
  pid : PID
  tid : PID → TID
  waiters : List ThreadId
  /-- The entries of the page tracker and its regions beside RAM, which never change. -/
  frames : Nat × List MemoryRangeExtra

/-- The threads and servers of a kernel. -/
def Kernel.ipc (k : Kernel) : Ipc where
  parent pid := (k.processes pid).map Process.ppid
  state := k.threadState
  future := k.kernelFuture
  mailbox := k.mailbox
  priority := k.threadPriority
  scheduler := k.scheduler
  servers := k.servers
  connections pid := match k.processes pid with
    | some p => p.connectionMap
    | none => []
  allocated := k.allocated
  context := k.context
  pid := k.currentPid
  tid p := match k.archProcesses p with
    | some a => a.currentThread
    | none => initialTid
  waiters := k.display.waiters
  frames := (k.mm.allocationsLen, k.mm.extraRegions)

namespace Ipc

/-- The thread that runs. -/
def current (i : Ipc) : ThreadId := (i.pid, i.tid i.pid)

/-- Slot `slot` of server `sidx` names the thread `t`. -/
def NamedAt (i : Ipc) (sidx slot : Nat) (t : ThreadId) : Prop := ∃ s, i.servers sidx = some s ∧ s.caller slot = some t

/-- The thread `t` is on the mask of receivers of server `sidx`. -/
def ParkedAt (i : Ipc) (sidx : Nat) (t : ThreadId) : Prop :=
  ∃ s, i.servers sidx = some s ∧ s.pid = t.1 ∧ s.readyThreads.getLsbD t.2 = true

def setServer (i : Ipc) (sidx : Nat) (s : Option Server) : Ipc :=
  { i with servers := update i.servers sidx s }

def setFuture (i : Ipc) (t : ThreadId) (f : Option KernelFuture) : Ipc :=
  { i with future := update i.future t f }

def setMailbox (i : Ipc) (t : ThreadId) (r : Option Result) : Ipc :=
  { i with mailbox := update i.mailbox t r }

/-- `set_thread_result`: the words of the result are in the saved registers. -/
def deliver (i : Ipc) (t : ThreadId) (r : Result) : Ipc := { i with
    context := if 1 ≤ t.2 ∧ t.2 ≤ maxThreadCount then
      update i.context t ((i.context t).map (·.setArgs r)) else i.context }

theorem setFuture_self (i : Ipc) (t : ThreadId) (f : Option KernelFuture) :
    (i.setFuture t f).future t = f := Function.update_self ..

theorem setFuture_of_ne (i : Ipc) {t u : ThreadId} (h : u ≠ t) (f : Option KernelFuture) :
    (i.setFuture t f).future u = i.future u := Function.update_of_ne h ..

theorem setMailbox_self (i : Ipc) (t : ThreadId) (r : Option Result) :
    (i.setMailbox t r).mailbox t = r := Function.update_self ..

theorem setMailbox_of_ne (i : Ipc) {t u : ThreadId} (h : u ≠ t) (r : Option Result) :
    (i.setMailbox t r).mailbox u = i.mailbox u := Function.update_of_ne h ..

theorem servers_setServer {i : Ipc} {sidx n : Nat} {s : Option Server} {s' : Server}
    (h : (i.setServer sidx s).servers n = some s') :
    (n = sidx ∧ s = some s') ∨ (n ≠ sidx ∧ i.servers n = some s') := by
  unfold setServer at h
  by_cases hn : n = sidx
  · subst hn
    exact .inl ⟨rfl, by simpa using h⟩
  · exact .inr ⟨hn, by simpa [hn] using h⟩

/-! ## 1. Changes of one thread -/

/-- `set_thread_state`: the scheduler's lists follow. -/
structure SetState (t : ThreadId) (st : ThreadState) (i j : Ipc) : Prop where
  range : t.2 < maxThreadCount
  present : i.parent t.1 ≠ none
  rest : j = { i with state := update i.state t st, scheduler := j.scheduler }
  park : i.state t = .ready → st ≠ .ready → Scheduler.parkThread t (i.priority t) i.scheduler = .ok () j.scheduler
  ready : i.state t ≠ .ready → st = .ready → Scheduler.readyThread t (i.priority t) i.scheduler = .ok () j.scheduler
  same : (i.state t = .ready ↔ st = .ready) → j.scheduler = i.scheduler

/-- The thread is made ready, and its registers may have been written. -/
def Readied (t : ThreadId) (i j : Ipc) : Prop :=
  ∃ ctx, (∀ u, u ≠ t → ctx u = i.context u) ∧ SetState t .ready { i with context := ctx } j

/-- Threads that waited, for events or to try again, are made ready. -/
def Wakes : Ipc → Ipc → Prop := Relation.ReflTransGen fun i j =>
  ∃ t, i.state t ≠ .ready ∧ i.state t ≠ .free ∧ SetState t .ready i j

/-- `wake_thread_with_result`. -/
inductive Answered (t : ThreadId) (r : Result) (i j : Ipc) : Prop where
  | posted (hf : i.future t ≠ none)
      (h : SetState t .ready (i.setMailbox t (some r)) j)
  | direct (hf : i.future t = none) (h : Readied t i j)
  | gone (hp : i.parent t.1 = none) (h : j = i ∨ j = i.deliver t r)

/-! ## 2. Changes of one server -/

/-- A queue operation that changes neither the receivers nor whom the slots name. -/
structure Touch (s s' : Server) : Prop where
  receivers : s.SameReceivers s'
  caller : s'.caller = s.caller
  sound : s.Sound → s'.Sound
  bounds : s.InBounds → s'.InBounds

/-- A free slot now names `t`. -/
structure Adds (slot : Nat) (t : ThreadId) (s s' : Server) : Prop where
  receivers : s.SameReceivers s'
  free : s.caller slot = none
  caller : ∀ n, s'.caller n = if n = slot then some t else s.caller n
  sound : s.Sound → s'.Sound
  bounds : s.InBounds → s'.InBounds

/-- The slot that named `t` is free again. -/
structure Removes (slot : Nat) (t : ThreadId) (s s' : Server) : Prop where
  receivers : s.SameReceivers s'
  named : s.caller slot = some t
  caller : ∀ n, s'.caller n = if n = slot then none else s.caller n
  sound : s.Sound → s'.Sound
  bounds : s.InBounds → s'.InBounds

/-- A receiver is taken off the mask. -/
structure Hands (tid : TID) (s s' : Server) : Prop where
  pid : s'.pid = s.pid
  was : s.readyThreads.getLsbD tid = true
  mask : ∀ n, s'.readyThreads.getLsbD n = (s.readyThreads.getLsbD n && decide (n ≠ tid))
  caller : s'.caller = s.caller
  sound : s.Sound → s'.Sound
  bounds : s.InBounds → s'.InBounds

/-- A receiver is put on the mask. -/
structure Parks (tid : TID) (s s' : Server) : Prop where
  pid : s'.pid = s.pid
  mask : ∀ n, s'.readyThreads.getLsbD n = (s.readyThreads.getLsbD n || decide (n = tid))
  caller : s'.caller = s.caller
  sound : s.Sound → s'.Sound
  bounds : s.InBounds → s'.InBounds

/-- One entry of the connection table of a process is written.  An entry for a server is
either one that was there for it, or the first for a server that exists. -/
def Relinks (i : Ipc) (pid : PID) (n : Nat) (slot : ConnectionSlot) : Prop := ∀ sidx r p, slot = .connected sidx r p →
    (∃ (r' : Nat) (p' : MessagePermissions), (i.connections pid)[n]? = some (.connected sidx r' p')) ∨
    (i.servers sidx ≠ none ∧ sidx < maxServerCount ∧
      ∀ (n' r' : Nat) (p' : MessagePermissions), (i.connections pid)[n']? ≠ some (.connected sidx r' p'))

/-! ## 3. Moves -/

inductive Label where
  | quiet
  /-- The saved registers of the thread are written. -/
  | regs (t : ThreadId)
  /-- The running thread's blocking message is in the slot. -/
  | send (sidx slot : Nat)
  /-- The reply to the message in the slot reaches its sender. -/
  | reply (sidx slot : Nat) (t : ThreadId) (r : Result)
  /-- The slot is given up without a reply. -/
  | drop (sidx slot : Nat) (t : ThreadId)
  /-- The running thread suspends its call. -/
  | wait (f : KernelFuture)
  /-- The running thread waits for events, or to try again. -/
  | pause
  | enter
  | leave
  /-- The display goes to the thread. -/
  | display (t : ThreadId)
  | create (sidx : Nat) (s : Server)
  | close (sidx : Nat)
  /-- A thread that was blocked at a destroyed server is made ready. -/
  | release (t : ThreadId)
  /-- The messages of a process are struck out of a queue. -/
  | strike (pid : PID)
  | kill (t : ThreadId)
  | gone (pid : PID)
  | thread (t : ThreadId)
  | spawn (pid : PID)
  | load (pid : PID)
  | activate (pid : PID)
  /-- The scheduler polls the future of the thread, and it completes with the result in the
  mailbox. -/
  | complete (t : ThreadId)
  /-- The scheduler polls the future of a receiving thread, and it completes. -/
  | collect (t : ThreadId)
  /-- The scheduler polls the future of the thread, and it is still pending. -/
  | repark (t : ThreadId)
  /-- The scheduler chooses the thread to run. -/
  | switch (t : ThreadId)

/-- What the kernel does to threads and servers. -/
inductive Move : Label → Ipc → Ipc → Prop where
  -- quiet moves
  | wake {i j : Ipc} {t : ThreadId} (hr : i.state t ≠ .ready) (hf : i.state t ≠ .free)
      (h : Readied t i j) : Move .quiet i j
  | touch {i : Ipc} {sidx : Nat} {s s' : Server} (hs : i.servers sidx = some s)
      (h : Touch s s') : Move .quiet i (i.setServer sidx (some s'))
  | handOver {i j : Ipc} {sidx : Nat} {s s' : Server} {tid : TID}
      (hs : i.servers sidx = some s) (hh : Hands tid s s')
      (h : Readied (s.pid, tid) ((i.setServer sidx (some s')).setFuture (s.pid, tid) none) j) :
      Move .quiet i j
  | lose {i : Ipc} {sidx : Nat} {s s' : Server} {tid : TID} {ctx : ThreadId → Option Context}
      (hs : i.servers sidx = some s) (hh : Hands tid s s') (hp : i.parent s.pid = none)
      (hctx : ∀ u, u ≠ (s.pid, tid) → ctx u = i.context u) :
      Move .quiet i { i.setServer sidx (some s') with context := ctx }
  | post {i j : Ipc} {t : ThreadId} {f : KernelFuture} {r : Result} (hf : i.future t = some f)
      (hb : f ≠ .waitBlocking) (hd : f ≠ .waitDisplay) (hm : ∀ sidx, f ≠ .receiveMessage sidx)
      (h : SetState t .ready (i.setMailbox t (some r)) j) : Move .quiet i j
  | rotate {i : Ipc} {t : ThreadId} {p : ThreadPriority} {s' : Scheduler}
      (h : Scheduler.yieldThread t p i.scheduler = .ok () s') :
      Move .quiet i { i with scheduler := s' }
  | priority {i : Ipc} {t : ThreadId} {p : ThreadPriority} {s1 s' : Scheduler}
      (hready : i.state t = .ready → Scheduler.parkThread t (i.priority t) i.scheduler = .ok () s1 ∧
        Scheduler.readyThread t p s1 = .ok () s')
      (hother : i.state t ≠ .ready → s' = i.scheduler) :
      Move .quiet i { i with priority := update i.priority t p, scheduler := s' }
  | relink {i : Ipc} {pid : PID} {n : Nat} {slot : ConnectionSlot} (h : Relinks i pid n slot) :
      Move .quiet i { i with
        connections := update i.connections pid ((i.connections pid).set n slot) }
  -- what a thread does for itself
  | regs {i : Ipc} {t : ThreadId} {ctx : ThreadId → Option Context}
      (h : ∀ u, u ≠ t → ctx u = i.context u) : Move (.regs t) i { i with context := ctx }
  | send {i : Ipc} {sidx slot : Nat} {s s' : Server} (hs : i.servers sidx = some s)
      (h : Adds slot i.current s s') : Move (.send sidx slot) i (i.setServer sidx (some s'))
  | reply {i i1 j : Ipc} {sidx slot : Nat} {s s' : Server} {t : ThreadId} {r : Result}
      (hs : i.servers sidx = some s) (hpid : s.pid = i.pid) (h : Removes slot t s s')
      (hw : Wakes (i.setServer sidx (some s')) i1) (ha : Answered t r i1 j) :
      Move (.reply sidx slot t r) i j
  | drop {i : Ipc} {sidx slot : Nat} {s s' : Server} {t : ThreadId}
      (hs : i.servers sidx = some s) (hpid : s.pid = i.pid) (h : Removes slot t s s') :
      Move (.drop sidx slot t) i (i.setServer sidx (some s'))
  | wait {i j : Ipc} {f : KernelFuture} {mask : BitVec 64} (hm : ∀ sidx, f ≠ .receiveMessage sidx)
      (h : SetState i.current (.waitEvent mask) (i.setFuture i.current (some f)) j) :
      Move (.wait f) i j
  | receive {i j : Ipc} {sidx : Nat} {s s' : Server} {mask : BitVec 64}
      (hs : i.servers sidx = some s) (hpid : s.pid = i.pid) (hp : Parks i.current.2 s s')
      (h : SetState i.current (.waitEvent mask)
        ((i.setServer sidx (some s')).setFuture i.current (some (.receiveMessage sidx))) j) :
      Move (.wait (.receiveMessage sidx)) i j
  | pause {i j : Ipc} {st : ThreadState} (hr : st ≠ .ready) (hf : st ≠ .free)
      (h : SetState i.current st i j) : Move .pause i j
  -- the display
  | enter {i : Ipc} : Move .enter i { i with waiters := i.waiters ++ [i.current] }
  | leave {i : Ipc} {ws : List ThreadId} (h : ws <:+ i.waiters) :
      Move .leave i { i with waiters := ws }
  | display {i j : Ipc} {t : ThreadId} {r : Result} (h : Answered t r i j) :
      Move (.display t) i j
  -- servers, threads and processes come and go
  | create {i : Ipc} {sidx : Nat} {s : Server} (hlt : sidx < maxServerCount)
      (hs : i.servers sidx = none)
      (hpid : s.pid = i.pid) (hb : s.readyThreads = 0) (hbounds : s.InBounds) :
      Move (.create sidx s) i (i.setServer sidx (some s))
  | close {i : Ipc} {sidx : Nat} : Move (.close sidx) i (i.setServer sidx none)
  | release {i j : Ipc} {t : ThreadId}
      (h : SetState t .ready (i.deliver t (.error .serverNotFound)) j) : Move (.release t) i j
  | strike {i : Ipc} {sidx : Nat} {s : Server} {pid : PID} (hs : i.servers sidx = some s) :
      Move (.strike pid) i (i.setServer sidx (some (s.discardMessagesForPid pid)))
  | kill {i j : Ipc} {t : ThreadId}
      (h : SetState t .free ((i.setFuture t none).setMailbox t none) j) : Move (.kill t) i j
  | gone {i : Ipc} {pid : PID} {parent : PID → Option (Option PID)}
      (hpid : parent pid = none)
      (hp : ∀ q, q ≠ pid → (i.parent q ≠ some (some pid) ∧ parent q = i.parent q) ∨
        (i.parent q = some (some pid) ∧ parent q = some none))
      (hkilled : ∀ tid, 1 ≤ tid → tid < maxThreadCount → i.state (pid, tid) = .free)
      (hclosed : ∀ sidx s, i.servers sidx = some s → s.pid ≠ pid) :
      Move (.gone pid) i { i with
        parent := parent
        state := fun t => if t.1 = pid then .free else i.state t
        future := fun t => if t.1 = pid then none else i.future t
        mailbox := fun t => if t.1 = pid then none else i.mailbox t
        priority := fun t => if t.1 = pid then .appDefault else i.priority t
        connections := fun q => if q = pid then [] else i.connections q
        allocated := fun t => if t.1 = pid then false else i.allocated t
        context := fun t => if t.1 = pid then none else i.context t
        tid := fun q => if q = pid then initialTid else i.tid q
        pid := PID.kernel }
  | thread {i j : Ipc} {t : ThreadId} (hpid : t.1 = i.pid) (hn : i.allocated t = false)
      (hr : 1 ≤ t.2 ∧ t.2 ≤ maxThreadCount)
      (h : Readied t { i with allocated := update i.allocated t true } j) :
      Move (.thread t) i j
  | spawn {i : Ipc} {pid : PID} {parent : Option PID} {s' : Scheduler}
      {ctx : ThreadId → Option Context}
      (hn : i.parent pid = none) (hpid : pid.get ≤ maxProcessCount)
      (hparent : ∀ q, parent = some q → i.parent q ≠ none)
      (hfree : ∀ t : ThreadId, t.1 = pid → i.state t = .free)
      (hctx : ∀ u, u.1 ≠ pid → ctx u = i.context u)
      (hs : Scheduler.readyThread (pid, initialTid) .appDefault i.scheduler = .ok () s') :
      Move (.spawn pid) i { i with
        parent := update i.parent pid (some parent)
        state := fun t => if t.1 = pid then
          (if t.2 = initialTid then .ready else .free) else i.state t
        future := fun t => if t.1 = pid then none else i.future t
        mailbox := fun t => if t.1 = pid then none else i.mailbox t
        priority := fun t => if t.1 = pid then .appDefault else i.priority t
        scheduler := s'
        connections := update i.connections pid (List.replicate maxConnections .free)
        allocated := fun t => if t.1 = pid then decide (t.2 = initialTid) else i.allocated t
        context := ctx
        tid := update i.tid pid initialTid }
  | load {i : Ipc} {pid : PID} {ctx : ThreadId → Option Context}
      (h : ∀ u, u.1 ≠ pid → ctx u = i.context u) : Move (.load pid) i { i with context := ctx }
  | activate {i : Ipc} {pid : PID} (h : i.parent pid ≠ none) :
      Move (.activate pid) i { i with pid := pid }
  -- the scheduler
  | complete {i : Ipc} {t : ThreadId} {f : KernelFuture} {r : Result} (hr : i.state t = .ready)
      (hf : i.future t = some f) (hb : ∀ sidx, f ≠ .receiveMessage sidx)
      (hm : i.mailbox t = some r) :
      Move (.complete t) i (((i.setFuture t none).setMailbox t none).deliver t r)
  | collect {i : Ipc} {t : ThreadId} {sidx : Nat} {ctx : ThreadId → Option Context}
      (hr : i.state t = .ready) (hf : i.future t = some (.receiveMessage sidx))
      (hctx : ∀ u, u ≠ t → ctx u = i.context u) :
      Move (.collect t) i { i.setFuture t none with context := ctx }
  | repark {i j : Ipc} {t : ThreadId} {f : KernelFuture} (hr : i.state t = .ready)
      (hf : i.future t = some f) (h : SetState t (.waitEvent f.suspensionMask) i j) :
      Move (.repark t) i j
  | switch {i : Ipc} {t : ThreadId} {tid : TID} (hr : i.state t = .ready) (hu : t.2 ≠ irqTid)
      (ht : tid = t.2 ∧ i.allocated t = true ∨ tid = i.tid t.1 ∧ i.allocated t = false) :
      Move (.switch t) i { i with
        pid := t.1
        tid := update i.tid t.1 tid }

/-- Sequences of moves with labels in `A`. -/
abbrev Does (A : Label → Prop) : Ipc → Ipc → Prop := Moves Move A

/-- Nothing but quiet moves. -/
def Quiet (l : Label) : Prop := l = .quiet

end Ipc

end BeetKernel

/-
# Properties of the code that moves threads and messages

Several properties of this code are proved along the program: that it moves along a relation, that
it does not see memory.  Each is passed on by the operations, so each follows for all of the code
from its primitives.  `ThreadCode` is about the code that changes threads, `VisitCode` about the
code that also goes to another process and comes back.

A process is written back by code that has looked it up.  So there are two properties: `P` of code,
and `W pid p` of code that knows that process `pid` is `p`.
-/
import BeetKernel.Kernel.Step

namespace BeetKernel

/-- What of a process its threads have no part in. -/
def Process.apart (p : Process) : (List ConnectionSlot × List (Nat × Nat)) × (SystemEvent → Option EventHandler) :=
  ((p.connectionMap, p.memoryPermissions), p.eventHandlers)

namespace Kernel

open Exec (Along wp_bind wp)

variable {α : Type}

theorem bind_pure_eq (m : KExec α) : m >>= Pure.pure = m := by
  funext k
  rw [Exec.bind_run]
  cases m k <;> rfl

/-! ## 1. Threads -/

/-- A property that programs inherit from their parts and that the primitives of thread code have.
A program may read the state, but not memory. -/
structure ThreadCode (P : (α : Type) → KExec α → Prop)
    (W : PID → Process → (α : Type) → KExec α → Prop) : Prop where
  pure : ∀ {α : Type} (a : α), P α (Pure.pure a)
  throw : ∀ {α : Type} e, P α (Exec.throw e)
  panic : ∀ {α : Type} msg, P α (Exec.panic msg)
  bind : ∀ {α β : Type} {m : KExec α} {f : α → KExec β}, P α m → (∀ a, P β (f a)) → P β (m >>= f)
  attempt : ∀ {α : Type} {m : KExec α}, P α m → P _ (Exec.attempt m)
  ignore : ∀ {α : Type} {m : KExec α}, P α m → P Unit (Exec.ignore m)
  unwrap : ∀ {α : Type} {m : KExec α} msg, P α m → P α (Exec.unwrap m msg)
  get_bind : ∀ {α : Type} {g : Kernel → KExec α},
    (∀ k mm pageTables ram, g { k with mm, pageTables, ram } = g k) → (∀ k, P α (g k)) → P α (Exec.get >>= g)
  process_bind : ∀ {α : Type} {pid} {f : Process → KExec α}, (∀ p, W pid p α (f p)) → P α (Kernel.process pid >>= f)
  knowing : ∀ {α : Type} {pid p} {m : KExec α}, P α m → W pid p α m
  check : ∀ {α : Type} {pid p b msg} {f : Unit → KExec α}, W pid p α (f ()) → W pid p α (Exec.assert b msg >>= f)
  link : ∀ {α : Type} {pid p} {m : Exec Scheduler Error Unit} {f : Unit → KExec α}, W pid p α (f ()) →
    W pid p α (Kernel.withScheduler m >>= f)
  write : ∀ {α : Type} {pid} {p q : Process} {f : Unit → KExec α}, q.apart = p.apart → P α (f ()) →
    W pid p α (Kernel.setProcess pid q >>= f)

namespace ThreadCode

variable {P : (α : Type) → KExec α → Prop} {W : PID → Process → (α : Type) → KExec α → Prop} (h : ThreadCode P W)

theorem ite {P : KExec α → Prop} {c : Prop} [Decidable c] {m n : KExec α} (hm : P m) (hn : P n) :
    P (if c then m else n) := by
  split
  · exact hm
  · exact hn

include h

theorem put {pid : PID} {p q : Process} (hq : q.apart = p.apart) : W pid p Unit (setProcess pid q) := by
  have hput : W pid p Unit (setProcess pid q >>= Pure.pure) := h.write hq (h.pure ())
  rwa [bind_pure_eq] at hput

theorem assert (b : Bool) (msg : String) : P Unit (Exec.assert b msg) := ite (h.pure ()) (h.panic msg)

theorem okOr (e : Error) (x : Option α) : P α (Exec.okOr e x) := by
  cases x with
  | none => exact h.throw e
  | some a => exact h.pure a

theorem expect (msg : String) (x : Option α) : P α (Exec.expect msg x) := by
  cases x with
  | none => exact h.panic msg
  | some a => exact h.pure a

theorem ofExcept (x : Except Error α) : P α (Exec.ofExcept x) := by
  cases x with
  | ok a => exact h.pure a
  | error e => exact h.throw e

theorem each {β : Type} {f : β → KExec Unit} (hf : ∀ b, P Unit (f b)) (l : List β) : P Unit (Exec.each f l) := by
  induction l with
  | nil => exact h.pure ()
  | cons b rest ih => exact h.bind (hf b) fun _ => ih

theorem process (pid : PID) : P _ (Kernel.process pid) := by
  have hlook : P _ (Kernel.process pid >>= Pure.pure) := h.process_bind fun p => h.knowing (h.pure p)
  rwa [bind_pure_eq] at hlook

theorem currentProcess : P _ Kernel.currentProcess := h.get_bind (fun _ _ _ _ => rfl) fun _ => h.unwrap _ (h.process _)

theorem setThreadState (t : ThreadId) (state : ThreadState) : P _ (Kernel.setThreadState t state) := by
  refine h.process_bind fun p => h.check ?_
  have hready : W t.1 p Unit (if p.threads t.2 ≠ .ready ∧ state = .ready then
        withScheduler (Scheduler.readyThread t (p.threadPriorities t.2)) >>= fun _ =>
          setProcess t.1 { p with threads := Function.update p.threads t.2 state }
      else setProcess t.1 { p with threads := Function.update p.threads t.2 state }) :=
    ite (h.link (h.put rfl)) (h.put rfl)
  exact ite (h.link hready) hready

theorem setThreadPriority (t : ThreadId) (priority : ThreadPriority) : P _ (Kernel.setThreadPriority t priority) :=
  h.process_bind fun _ => h.check (ite (h.knowing (h.pure _)) (ite (h.link (h.link (h.put rfl))) (h.put rfl)))

theorem setKernelFuture (t : ThreadId) (f : KernelFuture) : P _ (Kernel.setKernelFuture t f) :=
  h.process_bind fun _ => ite (h.put rfl) (h.knowing (h.pure _))

theorem takeKernelFuture (t : ThreadId) : P _ (Kernel.takeKernelFuture t) :=
  h.process_bind fun _ => ite (h.write rfl (h.pure _)) (h.knowing (h.pure _))

theorem setMailbox (t : ThreadId) (r : Result) : P _ (Kernel.setMailbox t r) :=
  h.process_bind fun _ => ite (h.put rfl) (h.knowing (h.pure _))

theorem takeMailbox (t : ThreadId) : P _ (Kernel.takeMailbox t) :=
  h.process_bind fun _ => ite (h.write rfl (h.pure _)) (h.knowing (h.pure _))

theorem wakeFirstMatching (pid : PID) (l : List TID) : P _ (Kernel.wakeFirstMatching pid l) := by
  induction l with
  | nil => exact h.pure _
  | cons tid rest ih =>
    refine h.process_bind fun p => ?_
    split
    · exact ite (h.write rfl (h.bind (h.setThreadState _ _) fun _ => h.pure _)) (h.knowing ih)
    · exact h.knowing ih

theorem postNotificationBits (pid : PID) (bits : BitVec 64) : P _ (Kernel.postNotificationBits pid bits) :=
  h.process_bind fun _ => h.write rfl (h.wakeFirstMatching _ _)

theorem wakeThreadsWithState (state : ThreadState) : P _ (Kernel.wakeThreadsWithState state) :=
  h.each (fun pid => h.get_bind (fun _ _ _ _ => rfl) fun _ => ite (h.each (fun _ =>
    h.bind (h.process pid) fun _ => ite (h.setThreadState _ _) (h.pure _)) _) (h.pure _)) _

theorem suspendWithFuture (tid : TID) (f : KernelFuture) (mask : BitVec 64) :
    P _ (Kernel.suspendWithFuture tid f mask) :=
  h.get_bind (fun _ _ _ _ => rfl) fun _ => h.bind h.currentProcess fun _ =>
    h.bind (h.setKernelFuture _ _) fun _ => h.setThreadState _ _

theorem serverFromSidx (sidx : Nat) : P _ (Kernel.serverFromSidx sidx) :=
  ite (h.pure _) (h.bind (h.assert _ _) fun _ => h.get_bind (fun _ _ _ _ => rfl) fun _ => h.pure _)

theorem checkQueueRoom (sidx : Nat) : P _ (Kernel.checkQueueRoom sidx) :=
  h.bind (h.serverFromSidx _) fun _ => h.bind (h.expect _ _) fun _ => ite (h.throw _) (h.pure _)

variable {sidx : Nat} {t : ThreadId}

theorem withQueue {m : Exec Server Error α} (hm : P α (Kernel.withServer sidx m)) : P α (Kernel.withQueue sidx m) :=
  h.bind (h.serverFromSidx _) fun _ => h.bind (h.expect _ _) fun _ =>
    h.get_bind (fun _ _ _ _ => rfl) fun _ => h.bind (h.assert _ _) fun _ => hm

theorem sendEvent (hd : ∀ sidx m, P Unit (deliverMessage 0 sidx m none)) (pid : PID)
    (event : SystemEvent) (arg : Nat) : P _ (Kernel.sendEvent pid event arg) := by
  refine h.bind (h.process pid) fun p => ?_
  split
  · exact h.pure _
  · refine h.get_bind (fun _ _ _ _ => rfl) fun k => ?_
    split
    · exact h.pure _
    · exact h.bind (h.checkQueueRoom _) fun _ => hd _ _

theorem broadcastEvent (hd : ∀ sidx m, P Unit (deliverMessage 0 sidx m none)) (event : SystemEvent)
    (arg : Nat) : P _ (Kernel.broadcastEvent event arg) :=
  h.each (fun _ => h.get_bind (fun _ _ _ _ => rfl) fun _ =>
    ite (h.sendEvent hd _ _ _) (h.pure _)) _

theorem pollMailbox (t : ThreadId) : P _ (Kernel.pollMailbox t) := by
  refine h.bind (h.attempt (h.takeMailbox t)) fun r => ?_
  rcases r with _ | _ | _ <;> exact h.pure _

theorem takeNextMessage (hs : P _ (Kernel.withServer sidx (Server.takeNextMessage sidx))) :
    P _ (Kernel.takeNextMessage sidx) :=
  h.bind (h.serverFromSidx _) fun _ => h.bind (h.expect _ _) fun _ => ite (h.pure _) (h.withQueue hs)

theorem pollReceiveMessage (pid : PID) (hs : P _ (Kernel.withServer sidx (Server.takeNextMessage sidx))) :
    P _ (Kernel.pollReceiveMessage pid sidx) := by
  refine h.bind (h.serverFromSidx sidx) fun s => ?_
  cases s with
  | none => exact h.pure _
  | some s =>
    refine ite (h.pure _) (h.bind (h.takeNextMessage hs) fun m => ?_)
    cases m with
    | none => exact h.pure _
    | some m =>
      exact h.get_bind (fun _ _ _ _ => rfl) fun k => ite
        (h.bind (h.wakeThreadsWithState _) fun _ => h.pure _) (h.pure _)

theorem poll (t : ThreadId) (f : KernelFuture)
    (hs : ∀ sidx, P _ (Kernel.withServer sidx (Server.takeNextMessage sidx))) : P _ (Kernel.poll t f) := by
  cases f with
  | receiveMessage sidx => exact h.pollReceiveMessage _ (hs sidx)
  | waitBlocking | waitProcessExit | waitJoin | waitFutex | waitDisplay => exact h.pollMailbox t

theorem pollThread (hresult : ∀ r, P Unit (Kernel.setThreadResult t r))
    (hs : ∀ sidx, P _ (Kernel.withServer sidx (Server.takeNextMessage sidx))) :
    P _ (Kernel.pollThread t) := by
  refine h.bind (h.unwrap _ (h.takeKernelFuture t)) fun f => ?_
  cases f with
  | none => exact h.pure _
  | some f =>
    refine h.bind (h.poll t f hs) fun r => ?_
    cases r with
    | ready r => exact h.bind (h.ofExcept r) fun _ => h.bind (h.ignore (hresult _)) fun _ => h.pure _
    | pending =>
      exact h.bind (h.unwrap _ (h.setKernelFuture t f)) fun _ =>
        h.bind (h.setThreadState t _) fun _ => h.pure _

theorem handOver (hresult : ∀ r, P Unit (Kernel.setThreadResult t r))
    (envelope : MessageEnvelope) : P _ (Kernel.handOver t envelope) :=
  h.bind (h.unwrap _ (h.takeKernelFuture _)) fun _ => h.bind (h.setThreadState _ _) fun _ =>
    h.ignore (hresult _)

theorem notify {pid : PID} (hresult : ∀ tid r, P Unit (Kernel.setThreadResult (pid, tid) r))
    (bits : BitVec 64) : P _ (Kernel.notify pid bits) := by
  refine h.bind (h.postNotificationBits _ _) fun woken => ?_
  cases woken with
  | none => exact h.pure _
  | some w => exact h.ignore (hresult _ _)

theorem wakeThreadWithResult (hresult : ∀ r, P Unit (Kernel.setThreadResult t r))
    (r : Result) : P _ (Kernel.wakeThreadWithResult t r) := by
  refine h.bind (h.attempt (h.process t.1)) fun p => ?_
  cases p with
  | ok p =>
    exact ite (h.bind (h.setMailbox _ _) fun _ => h.setThreadState _ _)
      (h.bind (h.takeKernelFuture _) fun _ => h.bind (h.setThreadState _ _) fun _ =>
        h.ignore (hresult _))
  | error e => exact h.ignore (hresult _)

end ThreadCode

/-! ## 2. Visits to other processes -/

/-- The same for code that goes to another process or into another mapping. -/
structure VisitCode (P : (α : Type) → KExec α → Prop)
    (W : PID → Process → (α : Type) → KExec α → Prop) : Prop extends ThreadCode P W where
  activate : ∀ pid, P Unit (Kernel.activate pid)
  activateMapping : ∀ pid, P Unit (Kernel.activateMapping pid)

namespace VisitCode

variable {P : (α : Type) → KExec α → Prop} {W : PID → Process → (α : Type) → KExec α → Prop} (h : VisitCode P W)

include h

theorem setThreadResult {t : ThreadId} {r : Result} (hsave : P Unit (Exec.modify (setSavedResult t r))) :
    P _ (Kernel.setThreadResult t r) :=
  h.get_bind (fun _ _ _ _ => rfl) fun _ => ThreadCode.ite hsave (h.bind (h.process _) fun _ =>
    h.bind (h.activate _) fun _ => h.bind hsave fun _ => h.bind (h.unwrap _ (h.process _)) fun _ =>
      h.activate _)

theorem detour {m : KExec α} (hm : P α m) (pid back : PID) (msg : String) : P α (do
    let _ ← Kernel.process pid
    Kernel.activateMapping pid
    let result ← Exec.attempt m
    let _ ← Exec.unwrap (Kernel.process back) msg
    Kernel.activateMapping back
    Exec.ofExcept result) :=
  h.bind (h.process _) fun _ => h.bind (h.activateMapping _) fun _ => h.bind (h.attempt hm) fun _ =>
    h.bind (h.unwrap _ (h.process _)) fun _ => h.bind (h.activateMapping _) fun _ => h.ofExcept _

theorem queueServerMessage {sidx : Nat} {pid : PID} {tid : TID} {message : Message} {original : Option MemoryAddress}
    (hm : P _ (withServer sidx (Server.queueMessage pid tid message original))) :
    P _ (Kernel.queueServerMessage sidx pid tid message original) :=
  h.get_bind (fun _ _ _ _ => rfl) fun _ => h.bind (h.serverFromSidx _) fun _ =>
    h.bind (h.okOr _ _) fun _ => h.detour (h.withQueue hm) _ _ _

theorem rememberServerMessage {sidx : Nat} {pid : PID} {tid : TID} {message : Message} {client : Option MemoryAddress}
    (hm : P _ (withServer sidx (Server.queueResponse pid tid message client))) :
    P _ (Kernel.rememberServerMessage sidx pid tid message client) :=
  h.bind (h.serverFromSidx _) fun _ => h.bind (h.okOr _ _) fun _ => h.detour (h.withQueue hm) _ _ _

section Choosing

variable (hset : ∀ t, P Unit (Exec.modify (setTid t)))

include hset

theorem switchTo (current t : ThreadId) : P _ (Kernel.switchTo current t) :=
  ThreadCode.ite (h.pure _) (h.bind (h.unwrap _ (h.process _)) fun _ =>
    h.bind (h.activate _) fun _ => hset t)

variable (hresult : ∀ t r, P Unit (Kernel.setThreadResult t r))
  (hs : ∀ sidx, P _ (Kernel.withServer sidx (Server.takeNextMessage sidx)))

include hresult hs

theorem activateLoop (current : ThreadId) (fuel : Nat) : P _ (Kernel.activateLoop current fuel) := by
  induction fuel with
  | zero => exact h.panic _
  | succ fuel ih =>
    refine h.get_bind (fun _ _ _ _ => rfl) fun k => ?_
    split
    · exact h.pure _
    · exact h.bind (h.pollThread (hresult _) hs) fun b => ThreadCode.ite
        (h.bind (h.switchTo hset _ _) fun _ => h.pure _) ih

theorem activateCurrent : P _ Kernel.activateCurrent :=
  h.get_bind (fun _ _ _ _ => rfl) fun _ => ThreadCode.ite (h.pure _) (h.activateLoop hset hresult hs _ _)

end Choosing

end VisitCode

/-! ## 3. Moving along a relation -/

variable {R : Kernel → Kernel → Prop}

/-- What a relation must allow for thread code to move along it. -/
structure ThreadFrame (R : Kernel → Kernel → Prop) : Prop where
  scheduler : ∀ (k : Kernel) scheduler, R k { k with scheduler }
  process : ∀ {k : Kernel} {pid p q}, k.processes pid = some p → q.apart = p.apart →
    R k { k with processes := Function.update k.processes pid (some q) }

/-- Code that knows a process moves along the relation from where the process is so. -/
abbrev AlongWith (R : Kernel → Kernel → Prop) (pid : PID) (p : Process) (α : Type) (m : KExec α) : Prop :=
  ∀ k, k.processes pid = some p → wp m (fun _ k' => R k k') (fun _ k' => R k k') k

variable [IsPreorder Kernel R]

theorem along_process {pid : PID} {f : Process → KExec α} (h : ∀ p, AlongWith R pid p α (f p)) :
    Along R (process pid >>= f) := by
  intro k
  simp only [process, wp_bind, Exec.wp_assert, Exec.wp_get, Exec.wp_okOr]
  exact fun _ => ⟨fun p hp => h p k hp, fun _ => refl_of R k⟩

theorem ThreadFrame.code (h : ThreadFrame R) : ThreadCode (fun _ m => Along R m) (AlongWith R) where
  pure := .pure
  throw := .throw
  panic := .panic
  bind := .bind
  attempt := .attempt
  ignore := .ignore
  unwrap msg hm := hm.unwrap msg
  get_bind _ hg := Along.get.bind hg
  process_bind := along_process
  knowing hm k _ := hm k
  check hf k hp := by
    rw [wp_bind, Exec.wp_assert]
    exact fun _ => hf k hp
  link {_ _ _ m _} hf k hp := by
    rw [wp_bind, withScheduler, Exec.wp_zoom, wp]
    cases m k.scheduler with
    | ok a s =>
      have hk : R k { k with scheduler := s } := h.scheduler k s
      exact Exec.wp_mono (hf _ hp) (fun _ _ h' => trans_of R hk h') fun _ _ h' => trans_of R hk h'
    | err e s => exact h.scheduler k s
    | panic msg => trivial
  write hq hf k hp := by
    rw [wp_bind]
    exact Along.after (h.process hp hq) hf

/-- The same for code that visits other processes. -/
structure VisitFrame (R : Kernel → Kernel → Prop) : Prop extends ThreadFrame R where
  visit : ∀ (k : Kernel) currentPid activeMapping, R k { k with currentPid, activeMapping }

theorem VisitFrame.visits (h : VisitFrame R) : VisitCode (fun _ m => Along R m) (AlongWith R) where
  toThreadCode := h.code
  activate _ := Along.modify fun k => h.visit k _ _
  activateMapping _ := Along.modify fun k => h.visit k k.currentPid _

end Kernel

end BeetKernel

/-
# Polling futures and choosing the next thread

`kfuture.rs` and `Scheduler::activate_current`.  A thread that blocks in a system call leaves
a future behind and waits for notification bits.  Whoever wakes it only makes it READY; the
call itself completes when the scheduler picks the thread and polls its future, and a thread
whose future is still pending goes back to waiting.

The poll runs BEFORE the switch to the thread's process, in the mapping of the process that
was running.
-/
import BeetKernel.Kernel.Messages

namespace BeetKernel.Kernel

/-! ## 1. Futures -/

inductive PollResult where
  | ready (result : Except Error Result)
  | pending

def pollReceiveMessage (pid : PID) (sidx : Nat) : KExec PollResult := do
  match ← serverFromSidx sidx with
  | none => pure (.ready (.error .serverNotFound))
  | some s =>
    if s.pid ≠ pid then pure (.ready (.error .serverNotFound))
    else
      match ← takeNextMessage sidx with
      | some msg =>
        let k ← Exec.get
        if s.isQueueFull && !(k.servers sidx).any Server.isQueueFull then
          wakeThreadsWithState (.retryQueueFull sidx)
        pure (.ready (.ok (.messageEnvelope msg)))
      | none => pure .pending

def pollMailbox (t : ThreadId) : KExec PollResult := do
  match ← Exec.attempt (takeMailbox t) with
  | .ok (some result) => pure (.ready (.ok result))
  | .ok none => pure .pending
  | .error e => pure (.ready (.error e))

def poll (t : ThreadId) : KernelFuture → KExec PollResult
  | .receiveMessage sidx => pollReceiveMessage t.1 sidx
  | .waitBlocking | .waitProcessExit _ | .waitJoin _ | .waitFutex _ | .waitDisplay =>
    pollMailbox t

/-! ## 2. The next thread -/

/-- The thread at the head of the highest non-empty queue. -/
def nextThread (k : Kernel) : Option ThreadId := k.scheduler.queueHeads k.scheduler.highestReadyPriority

/-- The first half of the loop body of `activate_current`, for the thread `t` at the head: take
its future, poll it, and either deliver what it completed with or park the thread again.
Returns whether the thread can run.  An error the poll completed with LEAVES the loop and
becomes the error of `activate_current`. -/
def pollThread (t : ThreadId) : KExec Bool := do
  match ← Exec.unwrap (takeKernelFuture t) "Chosen process did not exist" with
  | none => pure true
  | some future =>
    match ← poll t future with
    | .ready result =>
      let r ← Exec.ofExcept result
      Exec.ignore (setThreadResult t r)
      pure true
    | .pending =>
      Exec.unwrap (setKernelFuture t future) "process missing"
      setThreadState t (.waitEvent future.suspensionMask)
      pure false

/-- `ArchProcess::set_tid`; its error is ignored. -/
def setTid (t : ThreadId) (k : Kernel) : Kernel :=
  if k.allocated t then
    match k.archProcesses t.1 with
    | some p => { k with
        archProcesses := Function.update k.archProcesses t.1 (some { p with currentThread := t.2 }) }
    | none => k
  else k

/-- The second half: switch to the thread, unless it is the one that was running. -/
def switchTo (current t : ThreadId) : KExec Unit := do
  if t = current then pure ()
  else
    let _ ← Exec.unwrap (process t.1) "Chosen process did not exist"
    activate t.1
    Exec.modify (setTid t)

/-- The loop of `activate_current`.  Every turn that does not end it parks a ready thread, and
there are at most as many as the tables hold. -/
def activateLoop (current : ThreadId) : Nat → KExec Result
  | 0 => Exec.panic "out of fuel"
  | fuel + 1 => do
    let k ← Exec.get
    match k.nextThread with
    | none => pure .resumeProcess
    | some t =>
      if ← pollThread t then
        switchTo current t
        pure .resumeProcess
      else activateLoop current fuel

def activateCurrent : KExec Result := do
  let k ← Exec.get
  if k.scheduler.inIrqHandler then pure .resumeProcess
  else activateLoop k.currentThread (maxProcessCount * maxThreadCount + 1)

end BeetKernel.Kernel

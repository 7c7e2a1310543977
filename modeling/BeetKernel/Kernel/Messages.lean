/-
# Handing messages and results to threads

The parts of `services.rs` and `syscall.rs` that move a message or a result from one thread
to another: `set_thread_result`, `wake_thread_with_result`, `suspend_with_future`, the server
table, the second half of `send_message_inner`, and the events the kernel itself sends.

`send_message_inner` first carries the memory of a message over to the server's process and
then delivers it.  Events are scalar messages and take only the second part, which is
`deliverMessage` here; the first part needs the page tables and comes with them.

A queue slot is reached through the page tables that are active.  `withQueue` therefore asks
for the server's own mapping.  The source does not: with another mapping active it would read
some other process's page, or none, as an array of slots, and the model stops there.
-/
import BeetKernel.Kernel.Process

namespace BeetKernel

open Exec (unwrap ignore okOr attempt)

namespace Kernel

/-! ## 1. Results -/

def activate (pid : PID) : KExec Unit :=
  Exec.modify fun k => { k with currentPid := pid, activeMapping := pid }

/-- `MemoryMapping::activate` -/
def activateMapping (pid : PID) : KExec Unit := Exec.modify fun k => { k with activeMapping := pid }

/-- `ArchProcess::set_thread_result`, for the process of `t`. -/
def setSavedResult (t : ThreadId) (result : Result) (k : Kernel) : Kernel :=
  match k.archProcesses t.1 with
  | none => k
  | some p =>
    if 1 ≤ t.2 ∧ t.2 ≤ maxThreadCount then
      { k with archProcesses := Function.update k.archProcesses t.1 (some { p with
          threads := Function.update p.threads t.2 { p.threads t.2 with
            context := (p.threads t.2).context.setArgs result } }) }
    else k

def setThreadResult (t : ThreadId) (result : Result) : KExec Unit := do
  let k ← Exec.get
  if k.currentPid = t.1 then Exec.modify (setSavedResult t result)
  else
    let _ ← process t.1
    activate t.1
    Exec.modify (setSavedResult t result)
    let _ ← unwrap (process k.currentPid) "couldn't switch back after setting context result"
    activate k.currentPid

def wakeThreadWithResult (t : ThreadId) (result : Result) : KExec Unit := do
  match ← attempt (process t.1) with
  | .ok p =>
    if t.2 < maxThreadCount ∧ (p.kernelFutures t.2).isSome then
      setMailbox t result
      setThreadState t .ready
    else
      let _ ← takeKernelFuture t
      setThreadState t .ready
      ignore (setThreadResult t result)
  | .error _ => ignore (setThreadResult t result)

def suspendWithFuture (tid : TID) (future : KernelFuture) (mask : BitVec 64) : KExec Unit := do
  let k ← Exec.get
  let _ ← currentProcess
  setKernelFuture (k.currentPid, tid) future
  setThreadState (k.currentPid, tid) (.waitEvent mask)

/-! ## 2. The server table -/

def serverFromSidx (sidx : Nat) : KExec (Option Server) :=
  if sidx > maxServerCount then pure none
  else do
    Exec.assert (sidx < maxServerCount) "index out of bounds"
    let k ← Exec.get
    pure (k.servers sidx)

def setServer (sidx : Nat) (s : Option Server) : KExec Unit :=
  Exec.modify fun k => { k with servers := Function.update k.servers sidx s }

/-- Work on the server in slot `sidx` of the table. -/
def withServer {α : Type} (sidx : Nat) (m : Exec Server Error α) : KExec α := do
  let s ← Exec.expect "couldn't re-discover server index" (← serverFromSidx sidx)
  Exec.zoom (fun _ => s) (fun s' k => { k with servers := Function.update k.servers sidx (some s') }) m

/-- Work on the slots of a server's queue, which needs its mapping. -/
def withQueue {α : Type} (sidx : Nat) (m : Exec Server Error α) : KExec α := do
  let s ← Exec.expect "couldn't re-discover server index" (← serverFromSidx sidx)
  let k ← Exec.get
  Exec.assert (k.activeMapping = s.pid) "the queue is not in the active mapping"
  withServer sidx m

def sidxFromSid (k : Kernel) (sid : SID) (pid : PID) : Option Nat := (List.range maxServerCount).find? fun i =>
    (k.servers i).any fun s => s.sid = sid ∧ s.pid = pid

/-- `Server::take_next_message` on the server in slot `sidx`.  It looks at the generations
first, which are not in the queue's page. -/
def takeNextMessage (sidx : Nat) : KExec (Option MessageEnvelope) := do
  let s ← Exec.expect "couldn't re-discover server index" (← serverFromSidx sidx)
  if s.tailGeneration = s.headGeneration then pure none
  else withQueue sidx (Server.takeNextMessage sidx)

def queueServerMessage (sidx : Nat) (pid : PID) (tid : TID) (message : Message)
    (originalAddress : Option MemoryAddress) : KExec Nat := do
  let k ← Exec.get
  let s ← okOr .serverNotFound (← serverFromSidx sidx)
  let _ ← process s.pid
  activateMapping s.pid
  let result ← attempt (withQueue sidx (Server.queueMessage pid tid message originalAddress))
  let _ ← unwrap (process k.currentPid) "couldn't restore previous process"
  activateMapping k.currentPid
  Exec.ofExcept result

def rememberServerMessage (sidx : Nat) (currentPid : PID) (currentThread : TID)
    (message : Message) (clientAddress : Option MemoryAddress) : KExec Nat := do
  let s ← okOr .serverNotFound (← serverFromSidx sidx)
  let _ ← process s.pid
  activateMapping s.pid
  let result ← attempt (withQueue sidx (Server.queueResponse currentPid currentThread message clientAddress))
  let _ ← unwrap (process currentPid) "couldn't find old process"
  activateMapping currentPid
  Exec.ofExcept result

/-! ## 3. Delivery -/

/-- Hand `envelope` to a parked receiver: its future is dropped and it runs with the message
as its result. -/
def handOver (t : ThreadId) (envelope : MessageEnvelope) : KExec Unit := do
  let _ ← unwrap (takeKernelFuture t) "called `Result::unwrap()` on an `Err` value"
  setThreadState t .ready
  ignore (setThreadResult t (.messageEnvelope envelope))

/-- Post bits to a process and give a thread they wake the bits it was waiting for. -/
def notify (pid : PID) (bits : BitVec 64) : KExec Unit := do
  match ← postNotificationBits pid bits with
  | some (wokenTid, firedBits) =>
    ignore (setThreadResult (pid, wokenTid) (.scalar1 firedBits.toNat))
  | none => pure ()

/-- `send_message_inner` from the point where the message's memory is in the server's
process. -/
def deliverMessage (senderTid : TID) (sidx : Nat) (message : Message)
    (clientAddress : Option MemoryAddress) : KExec Unit := do
  let k ← Exec.get
  let s ← Exec.expect "server couldn't be located" (← serverFromSidx sidx)
  match s.takeAvailableThread with
  | some (serverTid, s') =>
    setServer sidx (some s')
    let senderIdx ←
      if message.isBlocking then
        match ← attempt (rememberServerMessage sidx k.currentPid senderTid message clientAddress) with
        | .ok idx => pure idx
        | .error e => do
          withServer sidx (Server.returnAvailableThread serverTid)
          Exec.throw e
      else pure 0
    handOver (s.pid, serverTid) ⟨(SenderID.mk sidx senderIdx (some k.currentPid)).toSender, message⟩
  | none =>
    let _ ← queueServerMessage sidx k.currentPid senderTid message clientAddress
    unwrap (notify s.pid eventServerMsg) "server process missing"

/-- The check with which `send_message_inner` starts. -/
def checkQueueRoom (sidx : Nat) : KExec Server := do
  let s ← Exec.expect "server couldn't be located" (← serverFromSidx sidx)
  if s.isQueueFull then Exec.throw .serverQueueFull else pure s

/-- `send_message_inner` for a scalar message, which has no memory to carry over. -/
def sendScalarInner (senderTid : TID) (sidx : Nat) (message : ScalarMessage) : KExec Unit := do
  let _ ← checkQueueRoom sidx
  deliverMessage senderTid sidx (.scalar message) none

/-! ## 4. Events -/

def sendEvent (dstPid : PID) (event : SystemEvent) (arg : Nat) : KExec Unit := do
  let p ← process dstPid
  match p.eventHandlers event with
  | none => pure ()
  | some handler =>
    let k ← Exec.get
    match k.sidxFromSid handler.sid dstPid with
    | none => pure ()
    | some sidx => sendScalarInner 0 sidx ⟨handler.messageId, arg, 0, 0, 0⟩

def broadcastEvent (event : SystemEvent) (arg : Nat) : KExec Unit := Exec.each (fun pid => do
    let k ← Exec.get
    if (k.processes pid).isSome then sendEvent pid event arg) PID.all

/-- `deliver_char_to_sid`: a character typed on the console goes to the server `sid`. -/
def deliverCharToSid (sid : SID) (c : UInt8) : KExec Unit := do
  let k ← Exec.get
  match (List.range maxServerCount).find? (fun i => (k.servers i).any (·.sid = sid)) with
  | none => pure ()
  | some sidx =>
    let s ← Exec.expect "couldn't re-discover server index" (← serverFromSidx sidx)
    -- message 0 of the console is `ConsoleOp::Char`
    let msg := Message.scalar ⟨0, c.toNat, 0, 0, 0⟩
    match s.takeAvailableThread with
    | some (serverTid, s') =>
      setServer sidx (some s')
      if (k.processes s.pid).isSome then
        let _ ← takeKernelFuture (s.pid, serverTid)
        setThreadState (s.pid, serverTid) .ready
      ignore (setThreadResult (s.pid, serverTid) (.messageEnvelope ⟨⟨0⟩, msg⟩))
    | none =>
      ignore (queueServerMessage sidx PID.kernel 1 msg none)
      if (k.processes s.pid).isSome then notify s.pid eventServerMsg

end Kernel

end BeetKernel

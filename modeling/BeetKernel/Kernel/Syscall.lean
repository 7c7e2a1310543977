/-
# System calls

`syscall.rs`.  A handler ends in one of two ways: with a result for the caller, or by giving
up the CPU.  Giving up the CPU is always the LAST thing a handler does, as a call of
`activate_current`; the model keeps that call apart (`Response.activateCurrent`), so that the
state it starts from can be named.

A call that only reads or changes state outside the model (network addresses, binary names,
statistics, panic texts, caches, power, debug output, interrupt numbers, application ids) is
`SysCall.other`, with its response as an argument.
-/
import BeetKernel.Kernel.Services

namespace BeetKernel

open Exec (okOr attempt)

inductive SysCall where
  | mapMemory (phys virt : Option MemoryAddress) (size : MemorySize) (flags : MemoryFlags)
  | unmapMemory (range : MemoryRange)
  | increaseHeap (size : MemorySize)
  | futexWait (addr val : Nat)
  | futexWake (addr n : Nat)
  | yield
  | setThreadPriority (priority : ThreadPriority)
  | receiveMessage (sid : SID)
  | tryReceiveMessage (sid : SID)
  | createThread (init : Kernel.ThreadInit)
  | createProcess (image : Except Error Kernel.ElfImage)
  | createServerWithAddress (sid : SID) (initialRange : MessageRange)
  /-- `CreateServer`, with the random id it draws. -/
  | createServer (sid : SID)
  /-- `CreateServerId`, with the random id it draws. -/
  | createServerId (sid : SID)
  | connect (sid : SID)
  | tryConnect (sid : SID)
  | connectForProcess (pid : PID) (sid : SID)
  | disconnect (cid : CID)
  | sendMessage (cid : CID) (message : Message)
  | trySendMessage (cid : CID) (message : Message)
  | returnMemory (sender : MessageSender) (buf : MemoryRange) (offset valid : Option MemorySize)
  | returnScalar1 (sender : MessageSender) (arg : Nat)
  | returnScalar2 (sender : MessageSender) (arg1 arg2 : Nat)
  | returnScalar5 (sender : MessageSender) (arg1 arg2 arg3 arg4 arg5 : Nat)
  | terminateProcess (ret : Nat)
  | terminatePid (pid : PID) (exitCode : Nat)
  | shutdown
  | getProcessId
  | getThreadId
  | destroyServer (sid : SID)
  | joinThread (tid : TID)
  | getRemoteProcessId (cid : CID)
  | updateMemoryFlags (pid : Option PID)
  | virtToPhys (vaddr : Nat)
  | virtToPhysPid (pid : PID) (vaddr : Nat)
  | allowMessagesSID (sid : SID) (messages : MessageRange)
  | allowMessagesCID (pid : PID) (cid : CID) (messages : MessageRange)
  | mirrorMemoryToPid (mem : MemoryRange) (pid : PID)
  | registerEventHandler (event : SystemEvent) (sid : SID) (id : MessageId)
  /-- `SpawnByName`, with the binary of that name. -/
  | spawnByName (binary : Option (Except Error Kernel.ElfImage))
  /-- `SpawnByNameWithArgs`, with the binary of that name. -/
  | spawnByNameWithArgs (binary : Option (Except Error Kernel.ElfImage)) (argvPtr argvLen : Nat)
  | waitProcess (targetPid : PID)
  | waitEvent (mask : BitVec 64)
  | pollEvent
  | postEvent (targetPid : PID) (bits : BitVec 64)
  | acquireDisplay
  | releaseDisplay (row col : Nat)
  | acquireInputFocus (sid : SID)
  | releaseInputFocus
  | other (response : Except Error Result)

namespace Kernel

/-- How a handler ends. -/
inductive Response where
  | result (r : Result)
  | activateCurrent

/-! ## 1. Permissions -/

/-- The permission mask of the process has the bit of system call `number`. -/
def permittedByMask (number : Nat) : KExec Unit := do
  let p ← currentProcess
  if p.syscallPermissions.getLsbD number then pure () else Exec.throw .accessDenied

def checkSyscallPermission : SysCall → KExec Unit
  | .setThreadPriority priority =>
    if priority.toIndex < ThreadPriority.system0.toIndex then pure () else permittedByMask 4
  | .createProcess _ => permittedByMask 21
  | .shutdown => permittedByMask 23
  | .virtToPhys _ => permittedByMask 39
  | .virtToPhysPid .. => permittedByMask 42
  | .allowMessagesSID sid _ => do
    let k ← Exec.get
    if (k.sidxFromSid sid k.currentPid).isSome then pure () else permittedByMask 44
  | .allowMessagesCID pid cid _ => do
    let k ← Exec.get
    let p ← process pid
    match ← Exec.ofExcept (p.connection cid) with
    | .connected sidx _ _ =>
      let s ← okOr .serverNotFound (← serverFromSidx sidx)
      if s.pid = k.currentPid then pure () else permittedByMask 45
    | _ => Exec.throw .serverNotFound
  | .terminatePid .. => permittedByMask 53
  | .spawnByName _ => permittedByMask 57
  | .waitProcess _ => permittedByMask 58
  | .spawnByNameWithArgs .. => permittedByMask 59
  | _ => pure ()

/-! ## 2. Memory -/

def mapMemory (phys virt : Option MemoryAddress) (size : MemorySize) (flags : MemoryFlags) :
    KExec Result := do
  let k ← Exec.get
  if k.currentPid.get ≠ 1 ∧ NonZeroUsize.getOrZero virt ≥ userAreaEnd then
    Exec.throw .badAddress
  else if size.get % pageSize ≠ 0 then Exec.throw .badAlignment
  else if flags.w ∧ flags.x then Exec.throw .invalidArguments
  else
    let range ← mapRange (NonZeroUsize.getOrZero phys) (NonZeroUsize.getOrZero virt) size.get flags true
    pure (.memoryRange range)

def increaseHeap (size : MemorySize) : KExec Result :=
  if size.get % pageSize ≠ 0 then Exec.throw .badAlignment
  else do
    let range ← mapRange 0 0 size.get { populate := true, w := true } true
    pure (.memoryRange range)

def unmapMemory (range : MemoryRange) : KExec Result := do
  checkRangeAccessible range
  unmapRange range.addr.get range.size.get
  pure .ok

/-- `MirrorMemoryToPid`.  The pages must be mapped and contiguous; nothing asks who owns
them. -/
def mirrorMemoryToPid (mem : MemoryRange) (pid : PID) : KExec Result := do
  let k ← Exec.get
  let source := k.activeMapping
  let memPhys ← virtToPhys source mem.addr.get
  Exec.assert (mem.addr.get + mem.size.get < 2 ^ 64) "attempt to add with overflow"
  Exec.each (fun i => do
    let pagePhys ← virtToPhys source (mem.addr.get + i * pageSize)
    if pagePhys ≠ memPhys + i * pageSize then Exec.throw .accessDenied)
    (List.range ((mem.size.get + pageSize - 1) / pageSize))
  let _ ← process pid
  activateMapping pid
  let result ← attempt (mapRangeReadonlyMirror pid memPhys mem.size.get)
  activateMapping source
  let range ← Exec.ofExcept result
  pure (.memoryRange range)

/-! ## 3. Messages -/

def sendMessageInner (senderTid : TID) (sidx : Nat) (message : Message) : KExec Unit := do
  let s ← checkQueueRoom sidx
  match message with
  | .scalar _ | .blockingScalar _ => deliverMessage senderTid sidx message none
  | .move msg =>
    let newVirt ← sendMemory msg.buf.addr.get s.pid msg.buf.size.get
    let addr ← okOr .badAddress (NonZeroUsize.new newVirt)
    deliverMessage senderTid sidx (.move { msg with buf := ⟨addr, msg.buf.size⟩ }) (some msg.buf.addr)
  | .mutableBorrow msg =>
    let newVirt ← lendMemory msg.buf.addr.get s.pid msg.buf.size.get true
    let addr ← okOr .badAddress (NonZeroUsize.new newVirt)
    deliverMessage senderTid sidx (.mutableBorrow { msg with buf := ⟨addr, msg.buf.size⟩ }) (some msg.buf.addr)
  | .borrow msg =>
    let newVirt ← lendMemory msg.buf.addr.get s.pid msg.buf.size.get false
    let addr ← okOr .badAddress (NonZeroUsize.new newVirt)
    deliverMessage senderTid sidx (.borrow { msg with buf := ⟨addr, msg.buf.size⟩ }) (some msg.buf.addr)

def sendMessage (senderTid : TID) (cid : CID) (message : Message) : KExec Response := do
  let k ← Exec.get
  let p ← currentProcess
  match ← Exec.ofExcept (p.connection cid) with
  | .connected sidx _ permissions =>
    let s ← Exec.expect "called `Option::unwrap()` on a `None` value" (← serverFromSidx sidx)
    if s.pid ≠ k.currentPid ∧ permissions.isPermitted message.id = false then
      Exec.throw .accessDenied
    else
      sendMessageInner senderTid sidx message
      if message.isBlocking then suspendWithFuture senderTid .waitBlocking eventKernel
      else setThreadResult (k.currentPid, senderTid) .ok
      pure .activateCurrent
  | _ => Exec.throw .serverNotFound

def retrySyscall (tid : TID) (state : ThreadState) : KExec Response := do
  let k ← Exec.get
  Exec.modify (setSavedResult (k.currentPid, tid) .retryCall)
  let _ ← currentProcess
  setThreadState (k.currentPid, tid) state
  pure .activateCurrent

/-- `SendMessage`: with a full queue the caller waits and tries again. -/
def sendMessageOrRetry (tid : TID) (cid : CID) (message : Message) : KExec Response := do
  match ← attempt (sendMessage tid cid message) with
  | .ok response => pure response
  | .error .serverQueueFull =>
    let p ← currentProcess
    match ← Exec.ofExcept (p.connection cid) with
    | .connected sidx _ _ => retrySyscall tid (.retryQueueFull sidx)
    | _ => Exec.throw .serverNotFound
  | .error e => Exec.throw e

/-- The start of `return_memory` and `return_result`: take the reply out of its slot, and let
threads that found the queue full try again. -/
def takeWaiting (sender : SenderID) (buf : Option MemoryRange) : KExec WaitingMessage := do
  let k ← Exec.get
  let s ← okOr .serverNotFound (← serverFromSidx sender.sidx)
  if s.pid ≠ k.currentPid then Exec.throw .serverNotFound
  else
    let result ← withQueue sender.sidx (Server.takeWaitingMessage sender.idx buf)
    let k ← Exec.get
    if s.isQueueFull && !(k.servers sender.sidx).any Server.isQueueFull then
      wakeThreadsWithState (.retryQueueFull sender.sidx)
    pure result

/-- `return_memory` -/
def returnMemoryCall (serverTid : TID) (sender : MessageSender) (buf : MemoryRange)
    (offset valid : Option MemorySize) : KExec Response := do
  let k ← Exec.get
  match ← takeWaiting (SenderID.ofSender sender) (some buf) with
  | .borrowedMemory pid tid clientAddr =>
    returnMemory buf.addr.get pid clientAddr.get buf.size.get
    wakeThreadWithResult (pid, tid) (.memoryReturned offset valid)
  | .forgetMemory range => unmapRange range.addr.get range.size.get
  | .scalarMessage .. | .scalarMessageTerminated | .none => Exec.throw .doubleFree
  setThreadResult (k.currentPid, serverTid) .ok
  pure .activateCurrent

def returnResult (serverTid : TID) (sender : MessageSender) (returnValue : Result) :
    KExec Response := do
  let k ← Exec.get
  match ← takeWaiting (SenderID.ofSender sender) none with
  | .scalarMessage pid tid => wakeThreadWithResult (pid, tid) returnValue
  | .scalarMessageTerminated => pure ()
  | .forgetMemory _ | .borrowedMemory .. | .none => Exec.throw .doubleFree
  setThreadResult (k.currentPid, serverTid) .ok
  pure .activateCurrent

def receiveMessage (tid : TID) (sid : SID) (blocking : Bool) : KExec Response := do
  let k ← Exec.get
  let sidx ← okOr .serverNotFound (k.sidxFromSid sid k.currentPid)
  let s ← okOr .serverNotFound (← serverFromSidx sidx)
  if s.pid ≠ k.currentPid then Exec.throw .serverNotFound
  else
    match ← takeNextMessage sidx with
    | some msg =>
      let k ← Exec.get
      if s.isQueueFull && !(k.servers sidx).any Server.isQueueFull then
        wakeThreadsWithState (.retryQueueFull sidx)
      pure (.result (.messageEnvelope msg))
    | none =>
      if !blocking then pure (.result .none)
      else
        withServer sidx (Server.parkThread tid)
        suspendWithFuture tid (.receiveMessage sidx) eventServerMsg
        pure .activateCurrent

/-! ## 4. Waiting -/

def futexWait (tid : TID) (addr val : Nat) : KExec Response := do
  let k ← Exec.get
  if addr % 8 ≠ 0 then Exec.throw .badAlignment
  else
    let a ← okOr .badAddress (NonZeroUsize.new addr)
    checkRangeAccessible ⟨a, ⟨8, by decide⟩⟩
    let phys ← virtToPhys k.activeMapping addr
    if val ≠ readWord k.ram phys then Exec.throw .again
    else
      setThreadResult (k.currentPid, tid) .ok
      suspendWithFuture tid (.waitFutex addr) eventKernel
      pure .activateCurrent

/-- The loop of `FutexWake` over the threads of the process. -/
def futexWakeFrom (pid : PID) (addr : Nat) : List TID → Nat → KExec Unit
  | [], _ => pure ()
  | tid :: rest, remaining =>
    if remaining = 0 then pure ()
    else do
      let p ← currentProcess
      if p.kernelFutures tid = some (.waitFutex addr) then
        setMailbox (pid, tid) .ok
        setThreadState (pid, tid) .ready
        futexWakeFrom pid addr rest (remaining - 1)
      else futexWakeFrom pid addr rest remaining

def joinThread (tid joinTid : TID) : KExec Response := do
  let p ← currentProcess
  if tid = joinTid then Exec.throw .threadNotAvailable
  else
    Exec.assert (joinTid < maxThreadCount) "index out of bounds"
    if p.threads joinTid ≠ .free then
      suspendWithFuture tid (.waitJoin joinTid) eventKernel
      pure .activateCurrent
    else pure (.result (.scalar1 0))

def waitEvent (tid : TID) (mask : BitVec 64) : KExec Response := do
  if mask = 0 then Exec.throw .invalidArguments
  else
    let k ← Exec.get
    let p ← currentProcess
    setProcess k.currentPid { p with notificationBits := p.notificationBits &&& ~~~ mask }
    let fired := p.notificationBits &&& mask
    if fired ≠ 0 then pure (.result (.scalar1 fired.toNat))
    else
      setThreadResult (k.currentPid, tid) .ok
      setThreadState (k.currentPid, tid) (.waitEvent mask)
      pure .activateCurrent

/-! ## 5. The dispatcher -/

/-- `handle` after the permission check. -/
def dispatch (tid : TID) : SysCall → KExec Response
  | .mapMemory phys virt size flags => do pure (.result (← mapMemory phys virt size flags))
  | .unmapMemory range => do pure (.result (← unmapMemory range))
  | .increaseHeap size => do pure (.result (← increaseHeap size))
  | .futexWait addr val => futexWait tid addr val
  | .futexWake addr n => do
    let k ← Exec.get
    futexWakeFrom k.currentPid addr (List.range' 1 (maxThreadCount - 1)) n
    pure (.result .ok)
  | .yield => do
    let k ← Exec.get
    setThreadResult (k.currentPid, tid) .ok
    let p ← currentProcess
    withScheduler (Scheduler.yieldThread (k.currentPid, tid) (p.threadPriorities tid))
    pure .activateCurrent
  | .setThreadPriority priority => do
    if priority = .idle then Exec.throw .invalidArguments
    else
      let k ← Exec.get
      let _ ← currentProcess
      setThreadPriority (k.currentPid, tid) priority
      setThreadResult (k.currentPid, tid) .ok
      pure .activateCurrent
  | .receiveMessage sid => receiveMessage tid sid true
  | .tryReceiveMessage sid => receiveMessage tid sid false
  | .createThread init => do pure (.result (.threadID (← createThread tid init)))
  | .createProcess image => do pure (.result (.newProcess (← createProcess image)))
  | .createServerWithAddress sid initialRange => do
    pure (.result (.newServerID (← createServerWithAddress sid initialRange)))
  | .createServer sid => do
    pure (.result (.newServerID (← createServerWithAddress sid ⟨0, 0⟩)))
  | .createServerId sid => pure (.result (.serverID sid))
  | .connect sid | .tryConnect sid => do
    let k ← Exec.get
    pure (.result (.connectionID (← connectToServer k.currentPid sid)))
  | .connectForProcess pid sid => do pure (.result (.connectionID (← connectToServer pid sid)))
  | .disconnect cid => do
    disconnectFromServer cid
    pure (.result .ok)
  | .sendMessage cid message => sendMessageOrRetry tid cid message
  | .trySendMessage cid message => sendMessage tid cid message
  | .returnMemory sender buf offset valid => returnMemoryCall tid sender buf offset valid
  | .returnScalar1 sender arg => returnResult tid sender (.scalar1 arg)
  | .returnScalar2 sender arg1 arg2 => returnResult tid sender (.scalar2 arg1 arg2)
  | .returnScalar5 sender arg1 arg2 arg3 arg4 arg5 =>
    returnResult tid sender (.scalar5 arg1 arg2 arg3 arg4 arg5)
  | .terminateProcess ret => do
    terminateCurrentProcess ret
    pure .activateCurrent
  | .terminatePid pid exitCode => do
    let k ← Exec.get
    let _ ← currentProcess
    if pid = k.currentPid then Exec.throw .invalidArguments
    else
      terminateOther tid pid exitCode
      pure .activateCurrent
  | .shutdown => Exec.panic "shutdown"
  | .getProcessId => do
    let k ← Exec.get
    pure (.result (.processID k.currentPid))
  | .getThreadId => pure (.result (.threadID tid))
  | .destroyServer sid => do
    let k ← Exec.get
    destroyServer k.currentPid sid
    pure (.result .ok)
  | .joinThread joinTid => joinThread tid joinTid
  | .getRemoteProcessId cid => do
    let p ← currentProcess
    match ← Exec.ofExcept (p.connection cid) with
    | .connected sidx _ _ =>
      let s ← okOr .serverNotFound (← serverFromSidx sidx)
      pure (.result (.processID s.pid))
    | _ => Exec.throw .serverNotFound
  | .updateMemoryFlags pid =>
    if pid.isSome then Exec.throw .processNotChild else Exec.panic "not yet implemented"
  | .virtToPhys vaddr => do
    let k ← Exec.get
    pure (.result (.scalar1 (← virtToPhys k.activeMapping vaddr)))
  | .virtToPhysPid pid vaddr => do
    let _ ← process pid
    pure (.result (.scalar1 (← virtToPhys pid vaddr)))
  | .allowMessagesSID sid messages => do
    let k ← Exec.get
    let sidx ← okOr .serverNotFound (k.sidxFromSid sid k.currentPid)
    let s ← Exec.expect "called `Option::unwrap()` on a `None` value" (k.servers sidx)
    let added := s.defaultPermissions.add messages
    setServer sidx (some { s with defaultPermissions := added.2 })
    Exec.ofExcept added.1
    pure (.result .ok)
  | .allowMessagesCID pid cid messages => do
    if cid < 2 then Exec.throw .serverNotFound
    else
      let p ← process pid
      match p.connection cid with
      | .ok (.connected sidx refcount permissions) =>
        let added := permissions.add messages
        setProcess pid (p.setConnection cid (.connected sidx refcount added.2))
        Exec.ofExcept added.1
        pure (.result .ok)
      | _ => Exec.throw .serverNotFound
  | .mirrorMemoryToPid mem pid => do pure (.result (← mirrorMemoryToPid mem pid))
  | .registerEventHandler event sid id => do
    let k ← Exec.get
    let p ← currentProcess
    if (p.eventHandlers event).isSome then Exec.throw .accessDenied
    else
      setProcess k.currentPid { p with
        eventHandlers := Function.update p.eventHandlers event (some ⟨sid, id⟩) }
      pure (.result .ok)
  | .spawnByName binary => do pure (.result (.processID (← spawnByName binary)))
  | .spawnByNameWithArgs binary argvPtr argvLen => do
    pure (.result (.processID (← spawnByNameWithArgs binary argvPtr argvLen)))
  | .waitProcess targetPid => do
    match ← attempt (process targetPid) with
    | .error _ => pure (.result (.scalar1 0))
    | .ok _ =>
      suspendWithFuture tid (.waitProcessExit targetPid) eventKernel
      pure .activateCurrent
  | .waitEvent mask => waitEvent tid mask
  | .pollEvent => do
    let k ← Exec.get
    let p ← currentProcess
    setProcess k.currentPid { p with notificationBits := 0 }
    pure (.result (.scalar1 p.notificationBits.toNat))
  | .postEvent targetPid bits => do
    let k ← Exec.get
    if bits = 0 then pure (.result .ok)
    else if targetPid ≠ k.currentPid then Exec.throw .accessDenied
    else
      notify targetPid bits
      pure (.result .ok)
  | .acquireDisplay => do
    let k ← Exec.get
    if ← tryAcquireDisplay k.currentPid tid then
      pure (.result (.scalar2 k.display.cursorRow k.display.cursorCol))
    else
      suspendWithFuture tid .waitDisplay eventKernel
      pure .activateCurrent
  | .releaseDisplay row col => do
    releaseDisplay row col
    pure (.result .ok)
  | .acquireInputFocus sid => do
    let k ← Exec.get
    acquireInputFocus k.currentPid sid
    pure (.result .ok)
  | .releaseInputFocus => do
    releaseInputFocus
    pure (.result .ok)
  | .other response => do
    let r ← Exec.ofExcept response
    pure (.result r)

/-- `handle`, up to `activate_current`. -/
def handle (tid : TID) (call : SysCall) : KExec Response := do
  checkSyscallPermission call
  dispatch tid call

end Kernel

end BeetKernel

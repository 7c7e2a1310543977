/-
# System services

The rest of `services.rs`: creating and destroying servers, processes and threads, ending
processes, connections, and the display.

A new server's queue is whatever the page it was given holds, read as an array of
`QueuedMessage`.  `decodeSlot` is that reading: the enum is `repr(usize)`, so a slot is its
discriminant followed by the fields of the variant in order.  Not every eight words are a
`QueuedMessage`; where they are not, the source would be reading an invalid value and the
model stops.
-/
import BeetKernel.Kernel.Memory
import BeetKernel.Kernel.Futures

namespace BeetKernel

open Exec (unwrap ignore mapErr okOr expect ofExcept each)
open Function (update)

/-! ## 1. Slots in memory -/

/-- The little-endian word at `addr`. -/
def readWord (ram : Nat → UInt8) (addr : Nat) : Nat :=
  (List.range 8).foldr (fun i acc => (ram (addr + i)).toNat + 256 * acc) 0

/-- The `QueuedMessage` stored at `addr`. -/
def decodeSlot (ram : Nat → UInt8) (addr : Nat) : Option QueuedMessage :=
  let byte i := ram (addr + i)
  let word i := readWord ram (addr + 8 * i)
  let pid := PID.new (byte 8).toNat
  let args : Vector Nat 4 := #v[word 3, word 4, word 5, word 6]
  match word 0 with
  | 0 => some .empty
  | 1 => do some (.blockingScalarMessage (← pid) (byte 9) (byte 10) (word 2) args)
  | 2 => do some (.scalarMessage (← pid) (byte 9) (word 2) args)
  | 3 => do some (.memoryMessageSend (← pid) (byte 9) (word 2) (← NonZeroUsize.new (word 3))
      (← NonZeroUsize.new (word 4)) (word 5) (word 6))
  | 4 => do some (.memoryMessageROLend (← pid) (byte 9) (byte 10) (word 2)
      (← NonZeroUsize.new (word 3)) (← NonZeroUsize.new (word 4)) (← NonZeroUsize.new (word 5))
      (word 6) (word 7))
  | 5 => do some (.memoryMessageRWLend (← pid) (byte 9) (byte 10) (word 2)
      (← NonZeroUsize.new (word 3)) (← NonZeroUsize.new (word 4)) (← NonZeroUsize.new (word 5))
      (word 6) (word 7))
  | 6 => do some (.memoryMessageROLendTerminated (byte 8) (word 2) (← NonZeroUsize.new (word 3))
      (← NonZeroUsize.new (word 4)) (word 5) (word 6))
  | 7 => do some (.memoryMessageRWLendTerminated (byte 8) (word 2) (← NonZeroUsize.new (word 3))
      (← NonZeroUsize.new (word 4)) (word 5) (word 6))
  | 8 => some (.blockingScalarTerminated (byte 8) (word 2) args)
  | 9 => do some (.waitingReturnMemory (← pid) (byte 9) (← NonZeroUsize.new (word 2))
      (← NonZeroUsize.new (word 3)) (← NonZeroUsize.new (word 4)))
  | 10 => do some (.waitingForget (← NonZeroUsize.new (word 1)) (← NonZeroUsize.new (word 2)))
  | 11 => do some (.waitingReturnScalar (← pid) (byte 9))
  | 12 => some .waitingReturnScalarTerminated
  | _ => none

/-- The array of `n` slots at `addr`. -/
def decodeQueue (ram : Nat → UInt8) (addr n : Nat) : Option (List QueuedMessage) :=
  (List.range n).mapM fun i => decodeSlot ram (addr + i * queuedMessageSize)

namespace Kernel

/-! ## 2. Servers -/

/-- The flags a server's queue page is mapped with. -/
def queueFlags : MemoryFlags := { w := true, populate := true }

def createServerWithAddress (sid : SID) (initialPermissions : MessageRange) : KExec SID := do
  let k ← Exec.get
  let pid := k.currentPid
  match (List.range maxServerCount).find? (fun i => (k.servers i).isNone) with
  | none => Exec.throw .serverNotFound
  | some sidx =>
    let backing ← mapRange 0 0 pageSize queueFlags false
    let phys ← virtToPhys k.activeMapping backing.addr.get
    let k ← Exec.get
    let queue ← expect "a slot holds no valid QueuedMessage" (decodeQueue k.ram phys (pageSize / queuedMessageSize))
    let s ← unwrap (ofExcept (Server.init none pid sid backing.addr.get queue initialPermissions))
      "called `Result::unwrap()` on an `Err` value"
    setServer sidx (some s)
    wakeThreadsWithState (.retryConnect sid.quickHash)
    pure sid

/-- One slot of the loop in `Server::destroy`. -/
def destroySlot : QueuedMessage → KExec Unit
  | .empty | .scalarMessage .. | .blockingScalarTerminated ..
  | .waitingReturnScalarTerminated => pure ()
  | .memoryMessageSend _ _ _ serverAddr bufSize _ _ | .waitingForget serverAddr bufSize
  | .memoryMessageROLendTerminated _ _ serverAddr bufSize _ _
  | .memoryMessageRWLendTerminated _ _ serverAddr bufSize _ _ =>
    unwrap (unmapRange serverAddr.get bufSize.get) "unmap_range failed"
  | .blockingScalarMessage pid tid _ _ _ | .waitingReturnScalar pid tid => do
    unwrap (setThreadResult (pid, tid.toNat) (.error .serverNotFound)) "no such process"
    unwrap (setThreadState (pid, tid.toNat) .ready) "no such process"
  | .memoryMessageROLend pid tid _ _ clientAddr serverAddr bufSize _ _
  | .memoryMessageRWLend pid tid _ _ clientAddr serverAddr bufSize _ _
  | .waitingReturnMemory pid tid serverAddr clientAddr bufSize => do
    unwrap (returnMemory serverAddr.get pid clientAddr.get bufSize.get) "return_memory failed"
    unwrap (setThreadState (pid, tid.toNat) .ready) "no such process"
    unwrap (setThreadResult (pid, tid.toNat) (.error .serverNotFound)) "no such process"

/-- The loop of `Server::destroy` over the parked receivers, of which there are at most 64. -/
def wakeReceivers (pid : PID) : Nat → Server → KExec Unit
  | 0, _ => pure ()
  | n + 1, s =>
    match s.takeAvailableThread with
    | none => pure ()
    | some (tid, s') => do
      unwrap (setThreadState (pid, tid) .ready) "no such process"
      unwrap (setThreadResult (pid, tid) (.error .serverNotFound)) "no such process"
      wakeReceivers pid n s'

def destroy (s : Server) : KExec Unit := do
  each destroySlot s.queue
  let k ← Exec.get
  wakeReceivers k.currentPid 64 s
  unwrap (unmapRange s.queueAddr (s.queue.length * queuedMessageSize)) "unmap_range failed"

/-- The loop of `destroy_sidx` over the processes connected to the server. -/
def disconnect (sidx : Nat) : KExec Unit := each (fun pid => do
    let k ← Exec.get
    match (k.processes pid).bind (·.tombstoneConnectionBySidx sidx) with
    | none => pure ()
    | some (cid, p) =>
      setProcess pid p
      ignore (sendEvent pid .disconnected cid)) PID.all

def destroySidx (sidx : Nat) : KExec Unit := do
  let k ← Exec.get
  let s ← expect "called `Option::unwrap()` on a `None` value" (k.servers sidx)
  setServer sidx none
  destroy s
  disconnect sidx

def destroyServer (pid : PID) (sid : SID) : KExec Unit := do
  let k ← Exec.get
  let sidx ← okOr .serverNotFound (k.sidxFromSid sid pid)
  destroySidx sidx

def connectToServer (pid : PID) (sid : SID) : KExec CID := do
  let k ← Exec.get
  let sidx ← okOr .serverNotFound ((List.range maxServerCount).find? fun i => (k.servers i).any (·.sid = sid))
  let s ← expect "called `Option::unwrap()` on a `None` value" (k.servers sidx)
  let p ← process pid
  let (cid, p') ← ofExcept (p.addConnection sidx s.defaultPermissions)
  setProcess pid p'
  pure cid

def disconnectFromServer (cid : CID) : KExec Unit := do
  let k ← Exec.get
  let p ← currentProcess
  match ← ofExcept (p.connection cid) with
  | .free => Exec.throw .serverNotFound
  | .tombstone refcount =>
    setProcess k.currentPid (p.setConnection cid (if refcount > 1 then .tombstone (refcount - 1) else .free))
  | .connected sidx refcount permissions =>
    setProcess k.currentPid (p.setConnection cid (if refcount > 1 then .connected sidx (refcount - 1) permissions
        else .free))

/-! ## 3. The display -/

def fbPhys : Nat := 0x7FC00000
def fbSize : Nat := 4 * 1024 * 1024
def shellFbVa : Nat := 0x1002000000

def mapFbFor (pid : PID) : KExec Unit := do
  let k ← Exec.get
  if (k.processes pid).isSome then
    each (fun i => ignore
      (mapPage pid (fbPhys + i * pageSize) (shellFbVa + i * pageSize) { w := true, dev := true }
        true)) (List.range (fbSize / pageSize))

def unmapFbFor (pid : PID) : KExec Unit := do
  let k ← Exec.get
  if (k.processes pid).isSome then
    each (fun i => ignore (unmapPte pid (shellFbVa + i * pageSize))) (List.range (fbSize / pageSize))

def setDisplay (d : DisplayState) : KExec Unit := Exec.modify fun k => { k with display := d }

/-- `SystemServices::try_acquire_display`.  When the ring of waiters is full the caller is not
entered in it. -/
def tryAcquireDisplay (pid : PID) (tid : TID) : KExec Bool := do
  let k ← Exec.get
  let d := k.display
  if d.owner.isSome then
    setDisplay { d with
      waiters := if d.waiters.length < displayWaiterMax then d.waiters ++ [(pid, tid)]
        else d.waiters }
    pure false
  else
    setDisplay { d with owner := some (pid, tid) }
    mapFbFor pid
    pure true

/-- The loop with which both ways of releasing the display hand it to the first waiter whose
process still exists. -/
def handDisplayOver (row col : Nat) : List ThreadId → KExec Unit
  | [] => Exec.modify fun k => { k with display := { k.display with waiters := [] } }
  | waiter :: rest => do
    match ← Exec.attempt (process waiter.1) with
    | .error _ => handDisplayOver row col rest
    | .ok _ =>
      Exec.modify fun k => { k with display :=
        { k.display with waiters := rest, owner := some waiter } }
      mapFbFor waiter.1
      wakeThreadWithResult waiter (.scalar2 row col)

def releaseDisplay (row col : Nat) : KExec Unit := do
  let k ← Exec.get
  let pid := k.currentPid
  if k.display.owner.map Prod.fst = some pid then
    setDisplay { k.display with owner := none, cursorRow := row, cursorCol := col }
    unmapFbFor pid
    handDisplayOver row col k.display.waiters

def releaseDisplayOnExit (pid : PID) : KExec Unit := do
  let k ← Exec.get
  if k.display.owner.map Prod.fst = some pid then
    setDisplay { k.display with owner := none, inputSid := none }
    handDisplayOver k.display.cursorRow k.display.cursorCol k.display.waiters

/-- `SystemServices::acquire_input_focus`, and the delivery of the characters that were typed
before. -/
def acquireInputFocus (pid : PID) (sid : SID) : KExec Unit := do
  let k ← Exec.get
  if k.display.owner.map Prod.fst ≠ some pid then Exec.throw .accessDenied
  else
    setDisplay { k.display with inputSid := some sid, inputBuf := [] }
    each (deliverCharToSid sid) k.display.inputBuf

def releaseInputFocus : KExec Unit :=
  Exec.modify fun k => { k with display := { k.display with inputSid := none } }

def inputBufCap : Nat := 64

def dispatchInputChar (c : UInt8) : KExec Unit := do
  let k ← Exec.get
  match k.display.inputSid with
  | some sid => deliverCharToSid sid c
  | none =>
    let buf := if k.display.inputBuf.length < inputBufCap then k.display.inputBuf
      else k.display.inputBuf.tail
    setDisplay { k.display with inputBuf := buf ++ [c] }

/-! ## 4. Threads and processes -/

/-- The entry point, the stack and the four arguments of `ThreadInit`. -/
structure ThreadInit where
  call : Nat
  stackTop : Nat
  arg1 : Nat
  arg2 : Nat
  arg3 : Nat
  arg4 : Nat

/-- The context `setup_thread` gives a thread. -/
def ThreadInit.context (init : ThreadInit) : Context :=
  { gpr := fun i => [init.arg1, init.arg2, init.arg3, init.arg4].getD i 0
    sp := init.stackTop
    elr := init.call }

def createThread (parent : TID) (init : ThreadInit) : KExec TID := do
  let k ← Exec.get
  let pid := k.currentPid
  match k.archProcesses pid with
  | none => Exec.throw .threadNotAvailable
  | some a =>
    let tid ← okOr .threadNotAvailable ((List.range' 1 maxThreadCount).find? fun tid => !(a.threads tid).allocated)
    Exec.set { k with archProcesses := update k.archProcesses pid (some { a with
      threads := update a.threads tid ⟨init.context, true⟩ }) }
    let _ ← currentProcess
    setThreadState (pid, tid) .ready
    let p ← currentProcess
    setThreadPriority (pid, tid) (p.threadPriorities parent)
    pure tid

/-- A loadable segment of a checked and relocated ELF image: whole pages from `pageStart`. -/
structure Segment where
  pageStart : Nat
  pages : Nat
  flags : MemoryFlags
  byte : Nat → UInt8

/-- What `load_elf` finds in a file. -/
structure ElfImage where
  entryPoint : Nat
  segments : List Segment

/-- A page with the given contents, mapped at `va` of the process `pid`. -/
def mapFreshPage (pid : PID) (va : Nat) (flags : MemoryFlags) (byte : Nat → UInt8) :
    KExec Unit := do
  let (phys, _) ← mapErr (fun _ => .outOfMemory) (allocRange 1 pid)
  Exec.modify fun k => { k with
    ram := fun a => if phys ≤ a ∧ a < phys + pageSize then byte (a - phys) else k.ram a }
  mapPage pid phys va flags true

/-- The loop of `load_elf` over the segments. -/
def loadSegments (pid : PID) (segments : List Segment) : KExec Unit :=
  each (fun seg => each (fun i => mapFreshPage pid (seg.pageStart + i * pageSize)
    seg.flags (fun j => seg.byte (i * pageSize + j))) (List.range seg.pages)) segments

def stackPageCount : Nat := 256
def userStackBottom : Nat := 0x6FF000000000
def userIrqStackPageCount : Nat := 3
def userIrqStackBottom : Nat := 0x6FE000000000

/-- A stack of `n` zeroed pages that ends at `bottom`. -/
def mapStack (pid : PID) (bottom n : Nat) : KExec Unit :=
  each (fun i => mapFreshPage pid (bottom - n * pageSize + i * pageSize) { w := true } (fun _ => 0)) (List.range n)

/-- The first context of a process. -/
def initialContext (entryPoint : Nat) : Context :=
  { gpr := fun _ => 0, sp := userStackBottom, elr := entryPoint }

def setArchProcess (pid : PID) (a : Option ProcessImpl) : KExec Unit :=
  Exec.modify fun k => { k with archProcesses := update k.archProcesses pid a }

/-- `ArchProcess::create` -/
def archCreate (pid : PID) (image : Except Error ElfImage) : KExec Unit := do
  let k ← Exec.get
  if (k.archProcesses pid).isSome then Exec.throw .processNotFound
  else
    setArchProcess pid (some ⟨update (fun _ => Thread.default) initialTid
      { Thread.default with allocated := true }, initialTid⟩)
    let elf ← ofExcept image
    loadSegments pid elf.segments
    mapStack pid userStackBottom stackPageCount
    mapStack pid userIrqStackBottom userIrqStackPageCount
    setArchProcess pid (some ⟨update (fun _ => Thread.default) initialTid
      ⟨initialContext elf.entryPoint, true⟩, initialTid⟩)

/-- `SystemServices::create_process`.  The image is the file as `load_elf` reads it. -/
def createProcess (image : Except Error ElfImage) : KExec PID := do
  let k ← Exec.get
  let pid ← okOr .outOfMemory (PID.all.find? fun pid => (k.processes pid).isNone)
  let l1 ← allocTable pid
  setPageTables pid (.empty l1)
  let process := Process.new k.currentPid
  withScheduler (Scheduler.readyThread (pid, initialTid) (process.threadPriorities initialTid))
  setProcess pid { process with threads := update process.threads initialTid .ready }
  unwrap (archCreate pid image) "called `Result::unwrap()` on an `Err` value"
  pure pid

def uartPhys : Nat := 0x09000000
def shellUartVa : Nat := 0x1001000000
def argvPageVa : Nat := 0x1003000000
/-- The buffer `spawn_by_name_with_args` copies arguments through. -/
def argvBufLen : Nat := 256

def setThreadArgs (pid : PID) (x0 x1 x2 : Nat) (k : Kernel) : Kernel :=
  match k.archProcesses pid with
  | none => k
  | some a =>
    let c := (a.threads initialTid).context
    { k with archProcesses := update k.archProcesses pid (some { a with
        threads := update a.threads initialTid { a.threads initialTid with
          context := { c with gpr := fun i => [x0, x1, x2].getD i (c.gpr i) } } }) }

/-- The part `spawn_by_name` and `spawn_by_name_with_args` share: a new process with every
system call allowed and the UART mapped.  `binary` is what `lookup_binary` finds. -/
def spawn (binary : Option (Except Error ElfImage)) : KExec PID := do
  let image ← okOr .processNotFound binary
  let pid ← createProcess image
  let p ← process pid
  setProcess pid { p with syscallPermissions := BitVec.allOnes 64 }
  ignore (mapPage pid uartPhys shellUartVa { w := true, dev := true } true)
  pure pid

def spawnByName (binary : Option (Except Error ElfImage)) : KExec PID := do
  let pid ← spawn binary
  Exec.modify (setThreadArgs pid shellUartVa 0 0)
  pure pid

/-- `SystemServices::spawn_by_name_with_args`: the arguments are copied from the caller's page
into a page of the new process. -/
def spawnByNameWithArgs (binary : Option (Except Error ElfImage)) (argvPtr argvLen : Nat) :
    KExec PID := do
  let pid ← spawn binary
  let actualArgvLen ←
    if argvPtr ≠ 0 ∧ argvLen > 0 then do
      let k ← Exec.get
      let _ ← mapErr (fun _ => .internalError) (process k.currentPid)
      let pa ← virtToPhys k.currentPid argvPtr
      let safeLen := min (min argvLen argvBufLen) (pageSize - argvPtr % pageSize)
      let (phys, _) ← allocRange 1 pid
      Exec.modify fun k' => { k' with
        ram := fun a =>
          if phys ≤ a ∧ a < phys + pageSize then
            if a - phys < safeLen then k.ram (pa + (a - phys)) else 0
          else k'.ram a }
      mapErr (fun _ => .internalError) (mapPage pid phys argvPageVa {} true)
      pure safeLen
    else pure 0
  Exec.modify (setThreadArgs pid shellUartVa (if actualArgvLen > 0 then argvPageVa else 0) actualArgvLen)
  pure pid

/-! ## 5. The end of a process -/

/-- The loop of `terminate_current_process` over the servers: its own are destroyed, from the
others the messages of its threads are struck out. -/
def closeServers (pid : PID) : KExec Unit := each (fun sidx => do
    let k ← Exec.get
    match k.servers sidx with
    | none => pure ()
    | some s =>
      if s.pid = pid then destroySidx sidx
      else
        let _ ← unwrap (process s.pid) "called `Result::unwrap()` on an `Err` value"
        activate s.pid
        withQueue sidx (Exec.modify (Server.discardMessagesForPid pid))
        let _ ← process pid
        activate pid) (List.range maxServerCount)

/-- The threads that wait for the process to exit; the source has room for 64 of them. -/
def exitWaiters (k : Kernel) (pid : PID) : List ThreadId :=
  ((PID.all.flatMap fun p => (List.range' 1 (maxThreadCount - 1)).map fun t => (p, t)).filter
    fun t => k.kernelFuture t = some (.waitProcessExit pid)).take 64

/-- `Process::terminate` -/
def terminateProcess (pid : PID) : KExec Unit := do
  each (fun tid => do
    setThreadState (pid, tid) .free
    let _ ← takeKernelFuture (pid, tid)
    let _ ← takeMailbox (pid, tid)) (List.range' 1 (maxThreadCount - 1))
  withMemoryManager (MemoryManager.releaseAllMemoryForProcess pid)
  setArchProcess pid none

/-- `SystemServices::terminate_current_process`, up to its last line, which is
`activate_current`. -/
def terminateCurrentProcess (ret : Nat) : KExec Unit := do
  let k ← Exec.get
  let pid := k.currentPid
  let p ← currentProcess
  Exec.assert (ret = 0 || p.ppid ≠ some PID.kernel) "System process terminated"
  closeServers pid
  let p ← currentProcess
  match p.ppid with
  | some ppid => ignore (sendEvent ppid .childTerminated ret)
  | none => pure ()
  let k ← Exec.get
  each (fun t => wakeThreadWithResult t (.scalar1 ret)) (k.exitWaiters pid)
  releaseDisplayOnExit pid
  let _ ← process pid
  terminateProcess pid
  Exec.modify fun k => { k with processes := update k.processes pid none }
  let _ ← unwrap (process PID.kernel) "called `Result::unwrap()` on an `Err` value"
  activate PID.kernel
  Exec.modify fun k => { k with
    processes := fun p => (k.processes p).map fun q =>
      if q.ppid = some pid then { q with ppid := none } else q }

/-- `SystemServices::terminate_process`, up to `activate_current`. -/
def terminateOther (callerTid : TID) (pid : PID) (ret : Nat) : KExec Unit := do
  let k ← Exec.get
  let p ← process pid
  if p.ppid = some PID.kernel then Exec.throw .accessDenied
  else
    setThreadResult (k.currentPid, callerTid) .ok
    let _ ← unwrap (process pid) "called `Result::unwrap()` on an `Err` value"
    activate pid
    terminateCurrentProcess ret

end Kernel

end BeetKernel

/-
# System calls as words

`SysCall::as_args` is what a process loads into its registers and `SysCall::from_args` is what
the kernel makes of them.  They are two tables, written independently; this file has both,
line by line, and the theorem that the second undoes the first.

The model is the `beetos` build.  `as_args` starts with an assertion on the size of the Rust
type, which says nothing about the values.
-/
import BeetKernel.Abi.Words

namespace BeetKernel.Abi

open NonZeroUsize (getOrZero new_getOrZero)
open Exec (mapErr pure_run okOr)

/-! ## 1. Calls -/

structure ThreadInit where
  call : Nat
  stack : Option MemoryRange
  arg1 : Nat
  arg2 : Nat
  arg3 : Nat
  arg4 : Nat

structure ProcessInit where
  elf : MemoryRange
  nameAddr : MemoryAddress
  appId : AppId

inductive SysCall where
  | mapMemory (phys virt : Option MemoryAddress) (size : MemorySize) (flags : MemoryFlags)
  | unmapMemory (range : MemoryRange)
  | increaseHeap (size : MemorySize)
  | updateMemoryFlags (range : MemoryRange) (flags : MemoryFlags) (pid : Option PID)
  | yield
  | setThreadPriority (priority : ThreadPriority)
  | receiveMessage (sid : SID)
  | tryReceiveMessage (sid : SID)
  | claimInterrupt (irq : Nat) (function : MemoryAddress) (arg : Option MemoryAddress)
  | freeInterrupt (irq : Nat)
  | futexWait (addr val : Nat)
  | futexWake (addr n : Nat)
  | createServerWithAddress (sid : SID) (messages : MessageRange)
  | connect (sid : SID)
  | tryConnect (sid : SID)
  | sendMessage (cid : UInt32) (message : Message)
  | trySendMessage (cid : UInt32) (message : Message)
  | returnMemory (sender : MessageSender) (buf : MemoryRange) (offset valid : Option MemorySize)
  | returnScalar1 (sender : MessageSender) (arg1 : Nat)
  | returnScalar2 (sender : MessageSender) (arg1 arg2 : Nat)
  | createThread (init : ThreadInit)
  | createProcess (init : ProcessInit)
  | terminateProcess (exitCode : UInt32)
  | terminatePid (pid : PID) (exitCode : UInt32)
  | shutdown (exitCode : Int32)
  | createServer
  | createServerId
  | connectForProcess (pid : PID) (sid : SID)
  | getRemoteProcessId (cid : UInt32)
  | getThreadId
  | getProcessId
  | destroyServer (sid : SID)
  | disconnect (cid : UInt32)
  | joinThread (tid : TID)
  | virtToPhys (vaddr : Nat)
  | returnScalar5 (sender : MessageSender) (arg1 arg2 arg3 arg4 arg5 : Nat)
  | virtToPhysPid (pid : PID) (vaddr : Nat)
  | getAppId (pid : PID)
  | allowMessagesSID (sid : SID) (messages : MessageRange)
  | allowMessagesCID (pid : PID) (cid : UInt32) (messages : MessageRange)
  | flushCache (mem : MemoryRange) (op : CacheOperation)
  | powerManagement (dram : DramIdleMode)
  | appIdToPid (appId : AppId)
  | mirrorMemoryToPid (mem : MemoryRange) (pid : PID)
  | debugCommand (buffer : MemoryRange) (cmd : UInt8)
  | getSystemStats (stat : SystemStat)
  | registerEventHandler (event : SystemEvent) (sid : SID) (id : MessageId)
  | appendPanicMessage (len a2 a3 a4 a5 a6 a7 : Nat)
  | getPanicMessage (buf : MemoryRange)
  | spawnByName (a0 a1 a2 a3 : Nat)
  | spawnByNameWithArgs (a0 a1 argvPtr argvLen : Nat)
  | waitProcess (pid : PID)
  | netGetInfo
  | waitEvent (mask : Nat)
  | pollEvent
  | postEvent (pid : PID) (bits : Nat)
  | getBinaryName (index : Nat)
  | acquireDisplay
  | releaseDisplay (row col : Nat)
  | acquireInputFocus (a b c d : UInt32)
  | releaseInputFocus
  | invalid (a1 a2 a3 a4 a5 a6 a7 : Nat)

inductive SysCallNumber where
  | mapMemory | yield | setThreadPriority | claimInterrupt | freeInterrupt | futexWait | futexWake
  | increaseHeap | updateMemoryFlags | createServerWithAddress | receiveMessage | sendMessage
  | connect | createThread | unmapMemory | returnMemory | createProcess | terminateProcess
  | shutdown | trySendMessage | tryConnect | returnScalar1 | returnScalar2 | tryReceiveMessage
  | createServer | connectForProcess | createServerId | getThreadId | getProcessId | destroyServer
  | disconnect | joinThread | getRemoteProcessId | virtToPhys | returnScalar5 | virtToPhysPid
  | getAppId | allowMessagesSID | allowMessagesCID | invalidateCache | powerManagement | appIdToPid
  | mirrorMemoryToPid | debugCommand | getSystemStats | terminatePid | registerEventHandler
  | appendPanicMessage | getPanicMessage | spawnByName | waitProcess | spawnByNameWithArgs
  | netGetInfo | waitEvent | pollEvent | postEvent | getBinaryName | acquireDisplay
  | releaseDisplay | acquireInputFocus | releaseInputFocus | invalid
deriving DecidableEq

namespace SysCallNumber

/-- `number as usize`; `Invalid` has the discriminant after the last one given. -/
def toUsize : SysCallNumber → Nat
  | mapMemory => 2 | yield => 3 | setThreadPriority => 4 | claimInterrupt => 5
  | freeInterrupt => 6 | futexWait => 7 | futexWake => 8 | increaseHeap => 10
  | updateMemoryFlags => 12 | createServerWithAddress => 14 | receiveMessage => 15
  | sendMessage => 16 | connect => 17 | createThread => 18 | unmapMemory => 19
  | returnMemory => 20 | createProcess => 21 | terminateProcess => 22 | shutdown => 23
  | trySendMessage => 24 | tryConnect => 25 | returnScalar1 => 26 | returnScalar2 => 27
  | tryReceiveMessage => 28 | createServer => 29 | connectForProcess => 30
  | createServerId => 31 | getThreadId => 32 | getProcessId => 33 | destroyServer => 34
  | disconnect => 35 | joinThread => 36 | getRemoteProcessId => 37 | virtToPhys => 39
  | returnScalar5 => 40 | virtToPhysPid => 42 | getAppId => 43 | allowMessagesSID => 44
  | allowMessagesCID => 45 | invalidateCache => 46 | powerManagement => 47 | appIdToPid => 48
  | mirrorMemoryToPid => 50 | debugCommand => 51 | getSystemStats => 52 | terminatePid => 53
  | registerEventHandler => 54 | appendPanicMessage => 55 | getPanicMessage => 56
  | spawnByName => 57 | waitProcess => 58 | spawnByNameWithArgs => 59 | netGetInfo => 60
  | waitEvent => 61 | pollEvent => 62 | postEvent => 63 | getBinaryName => 64
  | acquireDisplay => 65 | releaseDisplay => 66 | acquireInputFocus => 67
  | releaseInputFocus => 68 | invalid => 69

/-- `SysCallNumber::from` -/
def fromUsize : Nat → SysCallNumber
  | 2 => mapMemory | 3 => yield | 4 => setThreadPriority | 5 => claimInterrupt
  | 6 => freeInterrupt | 7 => futexWait | 8 => futexWake | 10 => increaseHeap
  | 12 => updateMemoryFlags | 14 => createServerWithAddress | 15 => receiveMessage
  | 16 => sendMessage | 17 => connect | 18 => createThread | 19 => unmapMemory
  | 20 => returnMemory | 21 => createProcess | 22 => terminateProcess | 23 => shutdown
  | 24 => trySendMessage | 25 => tryConnect | 26 => returnScalar1 | 27 => returnScalar2
  | 28 => tryReceiveMessage | 29 => createServer | 30 => connectForProcess
  | 31 => createServerId | 32 => getThreadId | 33 => getProcessId | 34 => destroyServer
  | 35 => disconnect | 36 => joinThread | 37 => getRemoteProcessId | 39 => virtToPhys
  | 40 => returnScalar5 | 42 => virtToPhysPid | 43 => getAppId | 44 => allowMessagesSID
  | 45 => allowMessagesCID | 46 => invalidateCache | 47 => powerManagement | 48 => appIdToPid
  | 50 => mirrorMemoryToPid | 51 => debugCommand | 52 => getSystemStats | 53 => terminatePid
  | 54 => registerEventHandler | 55 => appendPanicMessage | 56 => getPanicMessage
  | 57 => spawnByName | 58 => waitProcess | 59 => spawnByNameWithArgs | 60 => netGetInfo
  | 61 => waitEvent | 62 => pollEvent | 63 => postEvent | 64 => getBinaryName
  | 65 => acquireDisplay | 66 => releaseDisplay | 67 => acquireInputFocus
  | 68 => releaseInputFocus | _ => invalid

@[simp] theorem fromUsize_toUsize (n : SysCallNumber) : fromUsize n.toUsize = n := by
  cases n <;> rfl

end SysCallNumber

/-! ## 2. Messages within a call -/

def messageType : Message → Nat
  | .mutableBorrow _ => 1
  | .borrow _ => 2
  | .move _ => 3
  | .scalar _ => 4
  | .blockingScalar _ => 5

/-- The words of `SendMessage` and `TrySendMessage`. -/
def sendWords (number : SysCallNumber) (cid : UInt32) (message : Message) : Words :=
  match message with
  | .mutableBorrow mm | .borrow mm | .move mm =>
    ⟨number.toUsize, cid.toNat, messageType message, mm.id, mm.buf.addr.get, mm.buf.size.get,
      getOrZero mm.offset, getOrZero mm.valid⟩
  | .scalar sc | .blockingScalar sc =>
    ⟨number.toUsize, cid.toNat, messageType message, sc.id, sc.arg1, sc.arg2, sc.arg3, sc.arg4⟩

/-- A memory message from its words; the range may be refused. -/
def memoryMessage (id addr size offset valid : Nat) : Decode MemoryMessage := do
  let buf ← memoryRangeNew addr size
  pure ⟨id, buf, NonZeroUsize.new offset, NonZeroUsize.new valid⟩

@[simp] theorem memoryMessage_words (m : MemoryMessage) :
    memoryMessage m.id m.buf.addr.get m.buf.size.get (getOrZero m.offset) (getOrZero m.valid) = pure m := by
  rw [memoryMessage, memoryRangeNew_get, new_getOrZero, new_getOrZero]
  rfl

/-- `Message::try_from`.  Its error type is `()`; the caller looks only at whether there is
one. -/
def messageTryFrom (kind id a b c d : Nat) : Decode Message :=
  match kind with
  | 1 => do pure (.mutableBorrow (← memoryMessage id a b c d))
  | 2 => do pure (.borrow (← memoryMessage id a b c d))
  | 3 => do pure (.move (← memoryMessage id a b c d))
  | 4 => pure (.scalar ⟨id, a, b, c, d⟩)
  | 5 => pure (.blockingScalar ⟨id, a, b, c, d⟩)
  | _ => Exec.throw .unknownError

/-- `a.try_into().unwrap()` for a `u32`. -/
def tryIntoU32 (a : Nat) : Decode UInt32 :=
  if a < 2 ^ 32 then pure (UInt32.ofNat a)
  else Exec.panic "called Result::unwrap on an Err value: TryFromIntError"

@[simp] theorem tryIntoU32_toNat (cid : UInt32) : tryIntoU32 cid.toNat = pure cid := by
  rw [tryIntoU32, if_pos cid.toNat_lt, UInt32.ofNat_toNat]

/-- The `SendMessage` line of `from_args`: an error of `try_from` makes the call `Invalid`. -/
def sendMessageFrom (a1 a2 a3 a4 a5 a6 a7 : Nat) : Decode SysCall := do
  match ← Exec.attempt (messageTryFrom a2 a3 a4 a5 a6 a7) with
  | .ok m =>
    let cid ← tryIntoU32 a1
    pure (.sendMessage cid m)
  | .error _ => pure (.invalid a1 a2 a3 a4 a5 a6 a7)

/-- The `TrySendMessage` line of `from_args`, which has its own table of message kinds. -/
def trySendMessageFrom (a1 a2 a3 a4 a5 a6 a7 : Nat) : Decode SysCall :=
  match a2 with
  | 1 => do
    let mm ← memoryMessage a3 a4 a5 a6 a7
    pure (.trySendMessage (UInt32.ofNat a1) (.mutableBorrow mm))
  | 2 => do
    let mm ← memoryMessage a3 a4 a5 a6 a7
    pure (.trySendMessage (UInt32.ofNat a1) (.borrow mm))
  | 3 => do
    let mm ← memoryMessage a3 a4 a5 a6 a7
    pure (.trySendMessage (UInt32.ofNat a1) (.move mm))
  | 4 => pure (.trySendMessage (UInt32.ofNat a1) (.scalar ⟨a3, a4, a5, a6, a7⟩))
  | 5 => do
    let cid ← tryIntoU32 a1
    pure (.trySendMessage cid (.blockingScalar ⟨a3, a4, a5, a6, a7⟩))
  | _ => pure (.invalid a1 a2 a3 a4 a5 a6 a7)

@[simp] theorem sendWords_a0 (number : SysCallNumber) (cid : UInt32) (m : Message) :
    (sendWords number cid m).a0 = number.toUsize := by
  cases m <;> rfl

variable {w : Words}

theorem sendMessageFrom_words {number : SysCallNumber} {cid : UInt32} {m : Message} (hw : w = sendWords number cid m) :
    sendMessageFrom w.a1 w.a2 w.a3 w.a4 w.a5 w.a6 w.a7 = pure (.sendMessage cid m) := by
  subst hw
  cases m <;>
    simp only [sendWords, messageType, sendMessageFrom, messageTryFrom, memoryMessage_words, tryIntoU32_toNat] <;>
    rfl

theorem trySendMessageFrom_words {number : SysCallNumber} {cid : UInt32} {m : Message}
    (hw : w = sendWords number cid m) :
    trySendMessageFrom w.a1 w.a2 w.a3 w.a4 w.a5 w.a6 w.a7 = pure (.trySendMessage cid m) := by
  subst hw
  cases m <;>
    simp only [sendWords, messageType, trySendMessageFrom, memoryMessage_words,
      tryIntoU32_toNat, UInt32.ofNat_toNat] <;>
    rfl

/-! ## 3. Threads and processes within a call -/

def threadToArgs (call : Nat) (init : ThreadInit) : Words :=
  ⟨call, init.call, (init.stack.map fun s => s.addr.get).getD 0,
    (init.stack.map fun s => s.size.get).getD 0, init.arg1, init.arg2, init.arg3, init.arg4⟩

def argsToThread (a1 a2 a3 a4 a5 a6 a7 : Nat) : Decode ThreadInit := do
  let stack ← if a2 ≠ 0 then do pure (some (← memoryRangeNew a2 a3)) else pure none
  pure ⟨a1, stack, a4, a5, a6, a7⟩

theorem argsToThread_words {call : Nat} {init : ThreadInit} (hw : w = threadToArgs call init) :
    argsToThread w.a1 w.a2 w.a3 w.a4 w.a5 w.a6 w.a7 = pure init := by
  subst hw
  obtain ⟨entry, stack, x1, x2, x3, x4⟩ := init
  cases stack with
  | none => rfl
  | some r =>
    simp only [threadToArgs, argsToThread, Option.map_some, Option.getD_some, if_pos r.addr.ne_zero, memoryRangeNew_get]
    rfl

/-- `<[usize; 7]>::from(&ProcessInit)`, with the number of the call before it. -/
def processToArgs (call : Nat) (init : ProcessInit) : Words :=
  ⟨call, init.elf.addr.get, init.elf.size.get, (init.appId.word 0).toNat,
    (init.appId.word 1).toNat, (init.appId.word 2).toNat, (init.appId.word 3).toNat,
    init.nameAddr.get⟩

/-- `ProcessInit::try_from([usize; 7])` -/
def argsToProcess (a1 a2 a3 a4 a5 a6 a7 : Nat) : Decode ProcessInit := do
  let elf ← memoryRangeNew a1 a2
  let nameAddr ← okOr .badAddress (NonZeroUsize.new a7)
  pure ⟨elf, nameAddr, appIdFrom (fourU32 a3 a4 a5 a6)⟩

theorem argsToProcess_words {call : Nat} {init : ProcessInit} (hw : w = processToArgs call init) :
    argsToProcess w.a1 w.a2 w.a3 w.a4 w.a5 w.a6 w.a7 = pure init := by
  subst hw
  simp only [processToArgs, argsToProcess, memoryRangeNew_get, nonZero_new_get, fourU32_toNat, appIdFrom_word]
  rfl

/-! ## 4. The two tables -/

namespace SysCall

def asArgs : SysCall → Words
  | mapMemory a1 a2 a3 a4 =>
    ⟨SysCallNumber.mapMemory.toUsize, getOrZero a1, getOrZero a2, a3.get, a4.bits, 0, 0, 0⟩
  | unmapMemory range =>
    ⟨SysCallNumber.unmapMemory.toUsize, range.addr.get, range.size.get, 0, 0, 0, 0, 0⟩
  | increaseHeap size => ⟨SysCallNumber.increaseHeap.toUsize, size.get, 0, 0, 0, 0, 0, 0⟩
  | yield => ⟨SysCallNumber.yield.toUsize, 0, 0, 0, 0, 0, 0, 0⟩
  | setThreadPriority priority =>
    ⟨SysCallNumber.setThreadPriority.toUsize, priority.toIndex, 0, 0, 0, 0, 0, 0⟩
  | receiveMessage s =>
    ⟨SysCallNumber.receiveMessage.toUsize, s.a0.toNat, s.a1.toNat, s.a2.toNat, s.a3.toNat, 0, 0, 0⟩
  | tryReceiveMessage s =>
    ⟨SysCallNumber.tryReceiveMessage.toUsize, s.a0.toNat, s.a1.toNat, s.a2.toNat, s.a3.toNat, 0, 0, 0⟩
  | connectForProcess pid s =>
    ⟨SysCallNumber.connectForProcess.toUsize, pid.get, s.a0.toNat, s.a1.toNat, s.a2.toNat, s.a3.toNat, 0, 0⟩
  | createServerId => ⟨SysCallNumber.createServerId.toUsize, 0, 0, 0, 0, 0, 0, 0⟩
  | claimInterrupt a1 a2 a3 =>
    ⟨SysCallNumber.claimInterrupt.toUsize, a1, a2.get, getOrZero a3, 0, 0, 0, 0⟩
  | freeInterrupt a1 => ⟨SysCallNumber.freeInterrupt.toUsize, a1, 0, 0, 0, 0, 0, 0⟩
  | futexWait addr val => ⟨SysCallNumber.futexWait.toUsize, addr, val, 0, 0, 0, 0, 0⟩
  | futexWake addr n => ⟨SysCallNumber.futexWake.toUsize, addr, n, 0, 0, 0, 0, 0⟩
  | updateMemoryFlags a1 a2 a3 =>
    ⟨SysCallNumber.updateMemoryFlags.toUsize, a1.addr.get, a1.size.get, a2.bits, pidOrZero a3, 0, 0, 0⟩
  | createServerWithAddress s messages =>
    ⟨SysCallNumber.createServerWithAddress.toUsize, s.a0.toNat, s.a1.toNat, s.a2.toNat,
      s.a3.toNat, messages.start, messages.stop, 0⟩
  | createServer => ⟨SysCallNumber.createServer.toUsize, 0, 0, 0, 0, 0, 0, 0⟩
  | connect s =>
    ⟨SysCallNumber.connect.toUsize, s.a0.toNat, s.a1.toNat, s.a2.toNat, s.a3.toNat, 0, 0, 0⟩
  | sendMessage cid m => sendWords .sendMessage cid m
  | returnMemory sender buf offset valid =>
    ⟨SysCallNumber.returnMemory.toUsize, sender.data, buf.addr.get, buf.size.get,
      getOrZero offset, getOrZero valid, 0, 0⟩
  | createThread init => threadToArgs SysCallNumber.createThread.toUsize init
  | createProcess init => processToArgs SysCallNumber.createProcess.toUsize init
  | terminateProcess exitCode =>
    ⟨SysCallNumber.terminateProcess.toUsize, exitCode.toNat, 0, 0, 0, 0, 0, 0⟩
  | shutdown exitCode => ⟨SysCallNumber.shutdown.toUsize, i32AsUsize exitCode, 0, 0, 0, 0, 0, 0⟩
  | tryConnect s =>
    ⟨SysCallNumber.tryConnect.toUsize, s.a0.toNat, s.a1.toNat, s.a2.toNat, s.a3.toNat, 0, 0, 0⟩
  | trySendMessage cid m => sendWords .trySendMessage cid m
  | returnScalar1 sender arg1 =>
    ⟨SysCallNumber.returnScalar1.toUsize, sender.data, arg1, 0, 0, 0, 0, 0⟩
  | returnScalar2 sender arg1 arg2 =>
    ⟨SysCallNumber.returnScalar2.toUsize, sender.data, arg1, arg2, 0, 0, 0, 0⟩
  | getThreadId => ⟨SysCallNumber.getThreadId.toUsize, 0, 0, 0, 0, 0, 0, 0⟩
  | getProcessId => ⟨SysCallNumber.getProcessId.toUsize, 0, 0, 0, 0, 0, 0, 0⟩
  | destroyServer s =>
    ⟨SysCallNumber.destroyServer.toUsize, s.a0.toNat, s.a1.toNat, s.a2.toNat, s.a3.toNat, 0, 0, 0⟩
  | disconnect cid => ⟨SysCallNumber.disconnect.toUsize, cid.toNat, 0, 0, 0, 0, 0, 0⟩
  | joinThread tid => ⟨SysCallNumber.joinThread.toUsize, tid, 0, 0, 0, 0, 0, 0⟩
  | getRemoteProcessId cid =>
    ⟨SysCallNumber.getRemoteProcessId.toUsize, cid.toNat, 0, 0, 0, 0, 0, 0⟩
  | virtToPhys vaddr => ⟨SysCallNumber.virtToPhys.toUsize, vaddr, 0, 0, 0, 0, 0, 0⟩
  | returnScalar5 sender arg1 arg2 arg3 arg4 arg5 =>
    ⟨SysCallNumber.returnScalar5.toUsize, sender.data, arg1, arg2, arg3, arg4, arg5, 0⟩
  | virtToPhysPid pid vaddr =>
    ⟨SysCallNumber.virtToPhysPid.toUsize, pid.get, vaddr, 0, 0, 0, 0, 0⟩
  | getAppId pid => ⟨SysCallNumber.getAppId.toUsize, pid.get, 0, 0, 0, 0, 0, 0⟩
  | allowMessagesSID s messages =>
    ⟨SysCallNumber.allowMessagesSID.toUsize, s.a0.toNat, s.a1.toNat, s.a2.toNat, s.a3.toNat,
      messages.start, messages.stop, 0⟩
  | allowMessagesCID pid cid messages =>
    ⟨SysCallNumber.allowMessagesCID.toUsize, pid.get, cid.toNat, messages.start, messages.stop, 0, 0, 0⟩
  | flushCache mem op =>
    ⟨SysCallNumber.invalidateCache.toUsize, mem.addr.get, mem.size.get, op.toUsize, 0, 0, 0, 0⟩
  | powerManagement dram =>
    ⟨SysCallNumber.powerManagement.toUsize, dram.toUsize, 0, 0, 0, 0, 0, 0⟩
  | appIdToPid appId =>
    ⟨SysCallNumber.appIdToPid.toUsize, (appId.word 0).toNat, (appId.word 1).toNat,
      (appId.word 2).toNat, (appId.word 3).toNat, 0, 0, 0⟩
  | mirrorMemoryToPid mem pid =>
    ⟨SysCallNumber.mirrorMemoryToPid.toUsize, mem.addr.get, mem.size.get, pid.get, 0, 0, 0, 0⟩
  | debugCommand buffer cmd =>
    ⟨SysCallNumber.debugCommand.toUsize, buffer.addr.get, buffer.size.get, cmd.toNat, 0, 0, 0, 0⟩
  | getSystemStats stat => ⟨SysCallNumber.getSystemStats.toUsize, stat.toUsize, 0, 0, 0, 0, 0, 0⟩
  | registerEventHandler event s id =>
    ⟨SysCallNumber.registerEventHandler.toUsize, systemEventToUsize event, s.a0.toNat, s.a1.toNat,
      s.a2.toNat, s.a3.toNat, id, 0⟩
  | appendPanicMessage len a2 a3 a4 a5 a6 a7 =>
    ⟨SysCallNumber.appendPanicMessage.toUsize, len, a2, a3, a4, a5, a6, a7⟩
  | getPanicMessage buf =>
    ⟨SysCallNumber.getPanicMessage.toUsize, buf.addr.get, buf.size.get, 0, 0, 0, 0, 0⟩
  | terminatePid pid exitCode =>
    ⟨SysCallNumber.terminatePid.toUsize, pid.get, exitCode.toNat, 0, 0, 0, 0, 0⟩
  | spawnByName a0 a1 a2 a3 => ⟨SysCallNumber.spawnByName.toUsize, a0, a1, a2, a3, 0, 0, 0⟩
  | spawnByNameWithArgs a0 a1 argvPtr argvLen =>
    ⟨SysCallNumber.spawnByNameWithArgs.toUsize, a0, a1, argvPtr, argvLen, 0, 0, 0⟩
  | waitProcess pid => ⟨SysCallNumber.waitProcess.toUsize, pid.get, 0, 0, 0, 0, 0, 0⟩
  | netGetInfo => ⟨SysCallNumber.netGetInfo.toUsize, 0, 0, 0, 0, 0, 0, 0⟩
  | waitEvent mask => ⟨SysCallNumber.waitEvent.toUsize, mask, 0, 0, 0, 0, 0, 0⟩
  | pollEvent => ⟨SysCallNumber.pollEvent.toUsize, 0, 0, 0, 0, 0, 0, 0⟩
  | postEvent pid bits => ⟨SysCallNumber.postEvent.toUsize, pid.get, bits, 0, 0, 0, 0, 0⟩
  | getBinaryName index => ⟨SysCallNumber.getBinaryName.toUsize, index, 0, 0, 0, 0, 0, 0⟩
  | acquireDisplay => ⟨SysCallNumber.acquireDisplay.toUsize, 0, 0, 0, 0, 0, 0, 0⟩
  | releaseDisplay row col => ⟨SysCallNumber.releaseDisplay.toUsize, row, col, 0, 0, 0, 0, 0⟩
  | acquireInputFocus a b c d =>
    ⟨SysCallNumber.acquireInputFocus.toUsize, a.toNat, b.toNat, c.toNat, d.toNat, 0, 0, 0⟩
  | releaseInputFocus => ⟨SysCallNumber.releaseInputFocus.toUsize, 0, 0, 0, 0, 0, 0, 0⟩
  | invalid a1 a2 a3 a4 a5 a6 a7 => ⟨SysCallNumber.invalid.toUsize, a1, a2, a3, a4, a5, a6, a7⟩

def fromArgs (a0 a1 a2 a3 a4 a5 a6 a7 : Nat) : Decode SysCall :=
  match SysCallNumber.fromUsize a0 with
  | .mapMemory => do
    let size ← okOr .invalidSyscall (NonZeroUsize.new a3)
    pure (mapMemory (NonZeroUsize.new a1) (NonZeroUsize.new a2) size (MemoryFlags.fromBits a4))
  | .unmapMemory => do
    let range ← mapErr (fun _ => .invalidSyscall) (memoryRangeNew a1 a2)
    pure (unmapMemory range)
  | .yield => pure yield
  | .setThreadPriority => pure (setThreadPriority (threadPriorityFrom a1))
  | .receiveMessage => pure (receiveMessage (sidFromU32 a1 a2 a3 a4))
  | .tryReceiveMessage => pure (tryReceiveMessage (sidFromU32 a1 a2 a3 a4))
  | .claimInterrupt => do
    let function ← okOr .invalidSyscall (NonZeroUsize.new a2)
    pure (claimInterrupt a1 function (NonZeroUsize.new a3))
  | .freeInterrupt => pure (freeInterrupt a1)
  | .futexWait => pure (futexWait a1 a2)
  | .futexWake => pure (futexWake a1 a2)
  | .increaseHeap => do
    let size ← okOr .invalidSyscall (NonZeroUsize.new a1)
    pure (increaseHeap size)
  | .updateMemoryFlags => do
    let range ← memoryRangeNew a1 a2
    pure (updateMemoryFlags range (MemoryFlags.fromBits a3) (pidNew a4))
  | .createServerWithAddress => pure (createServerWithAddress (sidFromU32 a1 a2 a3 a4) ⟨a5, a6⟩)
  | .createServer => pure createServer
  | .connect => pure (connect (sidFromU32 a1 a2 a3 a4))
  | .sendMessage => sendMessageFrom a1 a2 a3 a4 a5 a6 a7
  | .returnMemory => do
    let buf ← memoryRangeNew a2 a3
    pure (returnMemory ⟨a1⟩ buf (NonZeroUsize.new a4) (NonZeroUsize.new a5))
  | .createThread => do
    let init ← argsToThread a1 a2 a3 a4 a5 a6 a7
    pure (createThread init)
  | .createProcess => do
    let init ← argsToProcess a1 a2 a3 a4 a5 a6 a7
    pure (createProcess init)
  | .terminateProcess => pure (terminateProcess (UInt32.ofNat a1))
  | .shutdown => pure (shutdown (usizeAsI32 a1))
  | .tryConnect => pure (tryConnect (sidFromU32 a1 a2 a3 a4))
  | .trySendMessage => trySendMessageFrom a1 a2 a3 a4 a5 a6 a7
  | .returnScalar1 => pure (returnScalar1 ⟨a1⟩ a2)
  | .returnScalar2 => pure (returnScalar2 ⟨a1⟩ a2 a3)
  | .connectForProcess => do
    let pid ← okOr .invalidSyscall (pidNew a1)
    pure (connectForProcess pid (sidFromU32 a2 a3 a4 a5))
  | .createServerId => pure createServerId
  | .getThreadId => pure getThreadId
  | .getProcessId => pure getProcessId
  | .destroyServer => pure (destroyServer (sidFromU32 a1 a2 a3 a4))
  | .disconnect => pure (disconnect (UInt32.ofNat a1))
  | .joinThread => pure (joinThread a1)
  | .getRemoteProcessId => pure (getRemoteProcessId (UInt32.ofNat a1))
  | .virtToPhys => pure (virtToPhys a1)
  | .virtToPhysPid => do
    let pid ← pidFromUsize a1
    pure (virtToPhysPid pid a2)
  | .returnScalar5 => pure (returnScalar5 ⟨a1⟩ a2 a3 a4 a5 a6)
  | .getAppId => do
    let pid ← okOr .invalidSyscall (pidNew a1)
    pure (getAppId pid)
  | .allowMessagesSID => pure (allowMessagesSID (sidFromU32 a1 a2 a3 a4) ⟨a5, a6⟩)
  | .allowMessagesCID => do
    let pid ← okOr .invalidSyscall (pidNew a1)
    pure (allowMessagesCID pid (UInt32.ofNat a2) ⟨a3, a4⟩)
  | .invalidateCache => do
    let mem ← memoryRangeNew a1 a2
    pure (flushCache mem (CacheOperation.fromUsize a3))
  | .powerManagement => pure (powerManagement (DramIdleMode.fromUsize a1))
  | .appIdToPid => pure (appIdToPid (appIdFrom (fourU32 a1 a2 a3 a4)))
  | .mirrorMemoryToPid => do
    let mem ← memoryRangeNew a1 a2
    let pid ← okOr .invalidSyscall (pidNew a3)
    pure (mirrorMemoryToPid mem pid)
  | .debugCommand => do
    let buffer ← memoryRangeNew a1 a2
    pure (debugCommand buffer (UInt8.ofNat a3))
  | .getSystemStats => pure (getSystemStats (SystemStat.fromUsize a1))
  | .registerEventHandler =>
    pure (registerEventHandler (systemEventFrom a1) (sidFromU32 a2 a3 a4 a5) a6)
  | .appendPanicMessage => pure (appendPanicMessage a1 a2 a3 a4 a5 a6 a7)
  | .getPanicMessage => do
    let buf ← memoryRangeNew a1 a2
    pure (getPanicMessage buf)
  | .terminatePid => do
    let pid ← okOr .invalidSyscall (pidNew a1)
    pure (terminatePid pid (UInt32.ofNat a2))
  | .spawnByName => pure (spawnByName a1 a2 a3 a4)
  | .spawnByNameWithArgs => pure (spawnByNameWithArgs a1 a2 a3 a4)
  | .waitProcess => do
    let pid ← okOr .invalidSyscall (pidNew a1)
    pure (waitProcess pid)
  | .netGetInfo => pure netGetInfo
  | .waitEvent => pure (waitEvent a1)
  | .pollEvent => pure pollEvent
  | .postEvent => do
    let pid ← okOr .invalidSyscall (pidNew a1)
    pure (postEvent pid a2)
  | .getBinaryName => pure (getBinaryName a1)
  | .acquireDisplay => pure acquireDisplay
  | .releaseDisplay => pure (releaseDisplay a1 a2)
  | .acquireInputFocus =>
    pure (acquireInputFocus (UInt32.ofNat a1) (UInt32.ofNat a2) (UInt32.ofNat a3) (UInt32.ofNat a4))
  | .releaseInputFocus => pure releaseInputFocus
  | .invalid => pure (invalid a1 a2 a3 a4 a5 a6 a7)

/-- `from_args` of eight words. -/
def ofWords (w : Words) : Decode SysCall := fromArgs w.a0 w.a1 w.a2 w.a3 w.a4 w.a5 w.a6 w.a7

/-- The memory flags a call carries. -/
def flags? : SysCall → Option MemoryFlags
  | mapMemory _ _ _ flags | updateMemoryFlags _ flags _ => some flags
  | _ => none

/-! ## 5. Decoding undoes encoding -/

/-- Calls with flags: the kernel's mask leaves named flags alone. -/
theorem ofWords_asArgs_flagged (c : SysCall) (f : MemoryFlags) (hf : c.flags? = some f)
    (hnamed : f.Named) : ofWords c.asArgs () = .ok c () := by
  have hmask := hnamed.fromBits
  cases c with
  | mapMemory a1 a2 a3 a4 =>
    obtain rfl : a4 = f := Option.some.inj hf
    simp only [ofWords, asArgs, fromArgs, SysCallNumber.fromUsize_toUsize, nonZero_new_get, new_getOrZero, hmask]
    rfl
  | updateMemoryFlags a1 a2 a3 =>
    obtain rfl : a2 = f := Option.some.inj hf
    simp only [ofWords, asArgs, fromArgs, SysCallNumber.fromUsize_toUsize, memoryRangeNew_get, pidNew_pidOrZero, hmask]
    rfl
  | _ => exact nomatch hf

/-- All other calls: every field is read back from the words it was written into. -/
theorem ofWords_asArgs_plain (c : SysCall) (hf : c.flags? = none) : ofWords c.asArgs () = .ok c () := by
  cases c with
  | mapMemory | updateMemoryFlags => exact nomatch hf
  | sendMessage cid m =>
    simp only [ofWords, asArgs, fromArgs, sendWords_a0, SysCallNumber.fromUsize_toUsize,
      sendMessageFrom_words rfl, pure_run]
  | trySendMessage cid m =>
    simp only [ofWords, asArgs, fromArgs, sendWords_a0, SysCallNumber.fromUsize_toUsize,
      trySendMessageFrom_words rfl, pure_run]
  | createThread init =>
    have h := argsToThread_words (w := asArgs (createThread init)) rfl
    have h0 : (asArgs (createThread init)).a0 = SysCallNumber.createThread.toUsize := rfl
    simp only [ofWords, fromArgs, h0, SysCallNumber.fromUsize_toUsize, h, Exec.pure_bind_run, pure_run]
  | createProcess init =>
    have h := argsToProcess_words (w := asArgs (createProcess init)) rfl
    have h0 : (asArgs (createProcess init)).a0 = SysCallNumber.createProcess.toUsize := rfl
    simp only [ofWords, fromArgs, h0, SysCallNumber.fromUsize_toUsize, h, Exec.pure_bind_run, pure_run]
  | _ =>
    simp only [ofWords, asArgs, fromArgs, SysCallNumber.fromUsize_toUsize, nonZero_new_get,
      new_getOrZero, memoryRangeNew_get, pidNew_get, pidFromUsize_get,
      sidFromU32_toNat, UInt32.ofNat_toNat, UInt8.ofNat_toNat, threadPriorityFrom_toIndex,
      CacheOperation.fromUsize_toUsize, DramIdleMode.fromUsize_toUsize,
      SystemStat.fromUsize_toUsize, systemEventFrom_toUsize, usizeAsI32_i32AsUsize, fourU32_toNat,
      appIdFrom_word, okOr, Exec.bind_run, mapErr, pure_run]

/-- **The kernel decodes exactly the call the process encoded**, for every call whose memory
flags are made of the named constants.  `Invalid` is no exception: its number is one that
`SysCallNumber::from` maps to `Invalid`. -/
theorem ofWords_asArgs (c : SysCall) (hflags : ∀ f ∈ c.flags?, f.Named) : ofWords c.asArgs () = .ok c () := by
  cases hf : c.flags? with
  | none => exact ofWords_asArgs_plain c hf
  | some f => exact ofWords_asArgs_flagged c f hf (hflags f hf)

/-- One page, populated and writable. -/
theorem ofWords_asArgs_mapMemory : ofWords (asArgs (.mapMemory none none ⟨16384, by decide⟩
      (MemoryFlags.union .populate .w))) () =
      .ok (.mapMemory none none ⟨16384, by decide⟩ (MemoryFlags.union .populate .w)) () := by
  refine ofWords_asArgs _ ?_
  rintro f ⟨rfl⟩
  exact ⟨[.populate, .w], by decide, rfl⟩

-- Without a name for the bit the mask drops it: bit 1 is no constant, though `!W` sets it.
example : ofWords (asArgs (.mapMemory none none ⟨16384, by decide⟩ ⟨2⟩)) () =
    .ok (.mapMemory none none ⟨16384, by decide⟩ MemoryFlags.empty) () := rfl

end SysCall

end BeetKernel.Abi

/-
# The state of the kernel

One record for everything the kernel keeps: the process table and the server table of
`services.rs`, the scheduler, the page tracker, the page tables, the saved thread contexts of
`arch/aarch64/process.rs`, the display, and the bytes of physical memory.

Two registers decide which process the kernel is working for: `CURRENT_PID`, and the pair
`TTBR0_EL1`/`CONTEXTIDR_EL1` that selects the page tables.  They are written at DIFFERENT
places of the source, so they are two fields here, `currentPid` and `activeMapping`.

The queue slots of a server live in a page of its process.  After `Server::init` has read
that page as an array of slots, the model keeps the slots in the server object.
-/
import BeetKernel.Server.Queue
import BeetKernel.Scheduler.Queues
import BeetKernel.Mem.Tracker

namespace BeetKernel

/-! ## 1. Results of system calls -/

/-- `Result`: what a system call hands back. -/
inductive Result where
  | ok
  | error (e : Error)
  | memoryRange (r : MemoryRange)
  | resumeProcess
  | serverID (sid : SID)
  | connectionID (cid : CID)
  | messageEnvelope (me : MessageEnvelope)
  | threadID (tid : TID)
  | processID (pid : PID)
  | scalar1 (a : Nat)
  | scalar2 (a b : Nat)
  | newServerID (sid : SID)
  | retryCall
  | none
  | memoryReturned (offset valid : Option MemorySize)
  | newProcess (pid : PID)
  | scalar5 (a b c d e : Nat)
deriving DecidableEq

/-- `Message::to_usize`: the kind of the message and its five words. -/
def Message.toUsize : Message → List Nat
  | .mutableBorrow m => 0 :: memoryWords m
  | .borrow m => 1 :: memoryWords m
  | .move m => 2 :: memoryWords m
  | .scalar m => [3, m.id, m.arg1, m.arg2, m.arg3, m.arg4]
  | .blockingScalar m => [4, m.id, m.arg1, m.arg2, m.arg3, m.arg4]
where
  memoryWords (m : MemoryMessage) : List Nat :=
    [m.id, m.buf.addr.get, m.buf.size.get, NonZeroUsize.getOrZero m.offset, NonZeroUsize.getOrZero m.valid]

def SID.words (s : SID) : List Nat := [s.a0.toNat, s.a1.toNat, s.a2.toNat, s.a3.toNat]

def SID.quickHash (s : SID) : UInt32 := s.a0 ^^^ s.a1 ^^^ s.a2 ^^^ s.a3

/-- `Result::to_args`, without the zeros at the end. -/
def Result.toArgs : Result → List Nat
  | .ok => [0]
  | .error e => [1, e.toUsize]
  | .memoryRange r => [3, r.addr.get, r.size.get]
  | .resumeProcess => [5]
  | .serverID sid => 6 :: sid.words
  | .connectionID cid => [7, cid]
  | .newServerID sid => 8 :: sid.words
  | .messageEnvelope me => 9 :: me.sender.data :: me.body.toUsize
  | .threadID tid => [10, tid]
  | .processID pid => [11, pid.get]
  | .scalar1 a => [14, a]
  | .scalar2 a b => [15, a, b]
  | .retryCall => [16]
  | .none => [17]
  | .memoryReturned offset valid =>
    [18, NonZeroUsize.getOrZero offset, NonZeroUsize.getOrZero valid]
  | .newProcess pid => [19, pid.get]
  | .scalar5 a b c d e => [20, a, b, c, d, e]

/-- Word `i` of the eight that `Result::to_args` gives. -/
def Result.arg (r : Result) (i : Nat) : Nat := r.toArgs.getD i 0

/-! ## 2. Threads and processes -/

def eventServerMsg : BitVec 64 := 1
def eventKernel : BitVec 64 := 2

/-- `KernelFuture`: a suspended system call. -/
inductive KernelFuture where
  | receiveMessage (sidx : Nat)
  | waitBlocking
  | waitProcessExit (targetPid : PID)
  | waitJoin (targetTid : TID)
  | waitFutex (addr : Nat)
  | waitDisplay
deriving DecidableEq

def KernelFuture.suspensionMask : KernelFuture → BitVec 64
  | .receiveMessage _ => eventServerMsg
  | .waitBlocking | .waitProcessExit _ | .waitJoin _ | .waitFutex _ | .waitDisplay => eventKernel

inductive ThreadState where
  | free
  | ready
  | retryConnect (sidHash : UInt32)
  | retryQueueFull (sidx : Nat)
  | waitEvent (mask : BitVec 64)
deriving DecidableEq

/-- `ConnectionSlot`.  The source stores `sidx` in a byte; the server table has 128
entries. -/
inductive ConnectionSlot where
  | free
  | tombstone (refcount : Nat)
  | connected (sidx refcount : Nat) (permissions : MessagePermissions)
deriving DecidableEq

inductive SystemEvent where
  | childTerminated
  | disconnected
  | lowFreeMemory
deriving DecidableEq

structure EventHandler where
  sid : SID
  messageId : MessageId
deriving DecidableEq

/-- The address of a virtual page, by the number of the page. -/
structure PageAddress where
  page : Nat
deriving DecidableEq

def PageAddress.get (a : PageAddress) : Nat := a.page * pageSize

/-- `MMAP_AREA_VIRT` as the address of a page. -/
def PageAddress.mmapArea : PageAddress := ⟨mmapAreaVirt / pageSize⟩

def maxConnections : Nat := 32
def maxServerCount : Nat := 128

/-- `Process`.  The fields that are arrays over the threads are functions of the thread id;
every access of the source goes through a bounds check, which the operations make.  The hint
where to look for free addresses starts at a page and moves by pages, so it is one. -/
structure Process where
  ppid : Option PID
  threads : TID → ThreadState
  threadPriorities : TID → ThreadPriority
  eventHandlers : SystemEvent → Option EventHandler
  memoryPermissions : List (Nat × Nat)
  syscallPermissions : BitVec 64
  connectionMap : List ConnectionSlot
  allocationHint : PageAddress
  nextMirrorAddress : Nat
  notificationBits : BitVec 64
  kernelFutures : TID → Option KernelFuture
  resultMailbox : TID → Option Result

def Process.new (ppid : PID) : Process :=
  { ppid := some ppid
    threads := fun _ => .free
    threadPriorities := fun _ => .appDefault
    eventHandlers := fun _ => none
    memoryPermissions := List.replicate 8 (0, 0)
    syscallPermissions := 0
    connectionMap := List.replicate maxConnections .free
    allocationHint := PageAddress.mmapArea
    nextMirrorAddress := memoryMirrorAreaVirt
    notificationBits := 0
    kernelFutures := fun _ => none
    resultMailbox := fun _ => none }

/-! ## 3. Saved contexts -/

/-- The saved registers of a thread that the kernel itself reads or writes. -/
structure Context where
  gpr : Nat → Nat
  sp : Nat
  elr : Nat

/-- `Thread` of `arch/aarch64/process.rs` -/
structure Thread where
  context : Context
  allocated : Bool

def Thread.default : Thread := ⟨⟨fun _ => 0, 0, 0⟩, false⟩

/-- The registers `set_args` and `get_args` use for the eight words of a call. -/
def argRegisters : List Nat := [0, 1, 2, 3, 4, 5, 8, 9]

/-- `Thread::set_args`, with the words of a result. -/
def Context.setArgs (c : Context) (r : Result) : Context :=
  { c with gpr := fun i =>
      match argRegisters.idxOf? i with
      | some j => r.arg j
      | none => c.gpr i }

structure ProcessImpl where
  threads : TID → Thread
  currentThread : TID

/-! ## 4. Page tables -/

structure MemoryFlags where
  populate : Bool := false
  w : Bool := false
  x : Bool := false
  dev : Bool := false
  noCache : Bool := false
  plaintext : Bool := false
deriving DecidableEq

/-- A valid L3 descriptor: the frame and the attributes that `flags_to_pte` sets. -/
structure Pte where
  addr : Nat
  writable : Bool
  user : Bool
  userExecutable : Bool
  kernelExecutable : Bool
  device : Bool
deriving DecidableEq

/-- The L3 descriptor `map_page` writes: `flags_to_pte` over the frame of `phys`.  A page is
never writable and executable at once. -/
def Pte.make (phys : Nat) (flags : MemoryFlags) (user : Bool) : Pte :=
  { addr := phys / pageSize % 2 ^ 34 * pageSize
    writable := flags.w
    user := user
    userExecutable := user && flags.x && !flags.w
    kernelExecutable := !user && flags.x
    device := flags.dev }

/-- The L1 index of a virtual address. -/
def l1Index (va : Nat) : Nat := va >>> 36 % 2048
/-- The L2 index of a virtual address. -/
def l2Index (va : Nat) : Nat := va >>> 25 % 2048
/-- The three indices of a virtual address together: its page in the 47 bits the tables
translate. -/
def pageOf (va : Nat) : Nat := va / pageSize % 2 ^ 33

/-- The page tables of one process, by level: where the L2 table of an L1 entry is, where the
L3 table of an L2 entry is, and the L3 descriptors. -/
structure PageTables where
  ttbr0 : Nat
  l2 : Nat → Option Nat
  l3 : Nat → Nat → Option Nat
  entries : Nat → Option Pte

/-- An L1 table with no valid entry. -/
def PageTables.empty (ttbr0 : Nat) : PageTables := ⟨ttbr0, fun _ => none, fun _ _ => none, fun _ => none⟩

namespace PageTables

/-- The walk to the L3 descriptor of an address. -/
def walk (t : PageTables) (va : Nat) : Option Pte :=
  if (t.l2 (l1Index va)).isSome && (t.l3 (l1Index va) (l2Index va)).isSome then
    t.entries (pageOf va)
  else none

def virtToPhys (t : PageTables) (va : Nat) : Except Error Nat :=
  match t.walk va with
  | some pte => .ok (pte.addr + va % pageSize)
  | none => .error .badAddress

def addressAvailable (t : PageTables) (va : Nat) : Bool := (t.walk va).isNone

def addressUserAccessible (t : PageTables) (va : Nat) : Bool := decide (va < userAreaEnd) && (t.walk va).isSome

def unmapPage (t : PageTables) (va : Nat) : Except Error PageTables :=
  if (t.l2 (l1Index va)).isSome && (t.l3 (l1Index va) (l2Index va)).isSome then
    .ok { t with entries := Function.update t.entries (pageOf va) none }
  else .error .badAddress

end PageTables

/-! ## 5. The display -/

def displayWaiterMax : Nat := 16

/-- `DisplayState`.  The two ring buffers are lists, oldest first. -/
structure DisplayState where
  owner : Option ThreadId
  cursorRow : Nat
  cursorCol : Nat
  waiters : List ThreadId
  inputSid : Option SID
  inputBuf : List UInt8

/-! ## 6. The kernel -/

structure Kernel where
  processes : PID → Option Process
  servers : Nat → Option Server
  scheduler : Scheduler
  mm : MemoryManager
  pageTables : PID → PageTables
  ram : Nat → UInt8
  archProcesses : PID → Option ProcessImpl
  currentPid : PID
  activeMapping : PID
  display : DisplayState

/-- The process ids the tables have room for, in table order. -/
def PID.all : List PID := (List.range' 1 maxProcessCount).filterMap PID.new

namespace Kernel

/-- `ArchProcess::current().current_tid()` -/
def currentTid (k : Kernel) : TID :=
  match k.archProcesses k.currentPid with
  | some p => p.currentThread
  | none => initialTid

/-- The thread whose registers the next return to user mode loads. -/
def currentThread (k : Kernel) : ThreadId := (k.currentPid, k.currentTid)

/-! ### Views of one thread -/

def threadState (k : Kernel) (t : ThreadId) : ThreadState :=
  match k.processes t.1 with
  | some p => p.threads t.2
  | none => .free

def kernelFuture (k : Kernel) (t : ThreadId) : Option KernelFuture := (k.processes t.1).bind (·.kernelFutures t.2)

def mailbox (k : Kernel) (t : ThreadId) : Option Result := (k.processes t.1).bind (·.resultMailbox t.2)

def threadPriority (k : Kernel) (t : ThreadId) : ThreadPriority :=
  match k.processes t.1 with
  | some p => p.threadPriorities t.2
  | none => .appDefault

/-- The thread has a saved context of its own. -/
def allocated (k : Kernel) (t : ThreadId) : Bool :=
  match k.archProcesses t.1 with
  | some p => decide (1 ≤ t.2 ∧ t.2 ≤ maxThreadCount) && (p.threads t.2).allocated
  | none => false

/-- The saved registers of a thread. -/
def context (k : Kernel) (t : ThreadId) : Option Context := (k.archProcesses t.1).map fun p => (p.threads t.2).context

end Kernel

end BeetKernel

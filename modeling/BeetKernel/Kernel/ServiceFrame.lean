/-
# What the kernel does to its tables

Nearly all code of the kernel that is not memory code schedules threads and moves messages.  It
writes a process back with the connections it had, writes a server back under the registration it
had, and otherwise changes registers, page tables and the current process.  A relation on kernel
states that allows these things is one along which all that code moves: `ServiceFrame` collects
them, as `MemoryFrame` does for memory code.  What is left to each relation is what it says about
the calls that register something, end a process or touch the display.
-/
import BeetKernel.Kernel.MemoryFrame

namespace BeetKernel

open Function (update)
open Exec (wp_assert wp_bind wp_expect wp_get wp_mono wp_okOr wp_pure wp_set wp_zoom wp unwrap)

/-- What a server is registered with. -/
structure Card where
  sid : SID
  pid : PID
  permissions : MessagePermissions

def Server.card (s : Server) : Card := ⟨s.sid, s.pid, s.defaultPermissions⟩

/-- What of a process only a few calls touch. -/
def Process.fixed (p : Process) : List ConnectionSlot × List (Nat × Nat) := (p.connectionMap, p.memoryPermissions)

/-- The calls that enter something in the tables of servers and connections, or count a
connection down. -/
def SysCall.Registers : SysCall → Prop
  | .createServerWithAddress .. | .createServer _ | .connect _ | .tryConnect _ | .connectForProcess ..
  | .disconnect _ | .allowMessagesSID .. | .allowMessagesCID .. => True
  | _ => False

/-- The calls that end a process. -/
def SysCall.Ends : SysCall → Prop
  | .terminateProcess _ | .terminatePid .. => True
  | _ => False

/-- The calls that are about the display and the keyboard. -/
def SysCall.Shows : SysCall → Prop
  | .acquireDisplay | .releaseDisplay .. | .acquireInputFocus _ | .releaseInputFocus => True
  | _ => False

namespace Kernel

open Exec (Along)

variable {k k' : Kernel} {α : Type}

/-- The server is registered as it was. -/
def SameCard (s s' : Server) : Prop := s'.card = s.card

instance : IsPreorder Server SameCard where
  refl _ := rfl
  trans _ _ _ h1 h2 := h2.trans h1

end Kernel

namespace Server

open Exec (Along)
open Kernel (SameCard)

theorem along_get {α : Type} {f : Server → Exec Server Error α}
    (h : ∀ s, wp (f s) (fun _ s' => s'.card = s.card) (fun _ s' => s'.card = s.card) s) :
    Along SameCard (Exec.get >>= f) := Along.get_bind h

theorem findEmptySlot_sameCard : Along SameCard findEmptySlot := by
  refine .read fun s₀ => ?_
  generalize List.range' _ _ ++ _ = l
  induction l with
  | nil => exact .throw _
  | cons i rest ih =>
    refine along_get fun s => ?_
    split
    · trivial
    · rfl
    · exact ih s

theorem queueMessage_sameCard (pid : PID) (tid : TID) (message : Message) (originalAddress : Option MemoryAddress) :
    Along SameCard (queueMessage pid tid message originalAddress) := by
  refine findEmptySlot_sameCard.bind fun i => along_get fun s => ?_
  split
  · rfl
  · simp only [wp_bind, wp_assert, wp_set, wp_pure]
    exact fun _ _ => rfl

theorem queueResponse_sameCard (pid : PID) (tid : TID) (message : Message) (clientAddress : Option MemoryAddress) :
    Along SameCard (queueResponse pid tid message clientAddress) := by
  refine findEmptySlot_sameCard.bind fun i => along_get fun s => ?_
  split
  · rfl
  · simp only [wp_bind, wp_assert, wp_set, wp_pure]
    exact fun _ => rfl

theorem takeNextFrom_sameCard (sidx fuel i : Nat) : Along SameCard (takeNextFrom sidx fuel i) := by
  induction fuel generalizing i with
  | zero => exact .panic _
  | succ fuel ih =>
    refine along_get fun s => ?_
    split
    · trivial
    · split
      · rfl
      · split
        · rfl
        · exact ih _ s

theorem takeNextMessage_sameCard (sidx : Nat) : Along SameCard (takeNextMessage sidx) :=
  .read fun _ => .ite (fun _ => .pure _) fun _ => takeNextFrom_sameCard _ _ _

theorem takeWaitingMessage_sameCard (i : Nat) (buf : Option MemoryRange) :
    Along SameCard (takeWaitingMessage i buf) := by
  refine along_get fun s => ?_
  rw [wp_bind, wp_okOr]
  refine ⟨fun slot _ => ?_, fun _ => rfl⟩
  split <;> rfl

theorem takeAvailableThread_card {s s' : Server} {tid : TID}
    (h : s.takeAvailableThread = some (tid, s')) : s'.card = s.card := by
  unfold takeAvailableThread at h
  split at h
  · cases h
  · cases h
    rfl

end Server

namespace Kernel

open Exec (Along)

variable {k k' : Kernel} {α : Type}

/-- The processes, the servers and the display are as they were. -/
structure SameTables (k k' : Kernel) : Prop where
  processes : k'.processes = k.processes
  servers : k'.servers = k.servers
  display : k'.display = k.display

theorem saveContext_sameTables (t : ThreadId) (frame : Context) (k : Kernel) :
    SameTables k (saveContext t frame k) := by
  unfold saveContext
  split <;> exact ⟨rfl, rfl, rfl⟩

theorem setSavedResult_sameTables (t : ThreadId) (r : Result) (k : Kernel) : SameTables k (setSavedResult t r k) := by
  unfold setSavedResult
  split
  · exact ⟨rfl, rfl, rfl⟩
  · split <;> exact ⟨rfl, rfl, rfl⟩

theorem setTid_sameTables (t : ThreadId) (k : Kernel) : SameTables k (setTid t k) := by
  unfold setTid
  split
  · split <;> exact ⟨rfl, rfl, rfl⟩
  · exact ⟨rfl, rfl, rfl⟩

theorem wp_serverFromSidx {f : Option Server → KExec α} {Q : α → Kernel → Prop}
    {E : Error → Kernel → Prop} {sidx : Nat} (hnone : wp (f none) Q E k)
    (hsome : ∀ s, k.servers sidx = some s → wp (f (some s)) Q E k) :
    wp (serverFromSidx sidx >>= f) Q E k := by
  rw [wp_bind]
  unfold serverFromSidx
  split
  · exact hnone
  · simp only [wp_bind, wp_assert, wp_get, wp_pure]
    intro _
    cases hs : k.servers sidx with
    | none => exact hnone
    | some s => exact hsome s hs

theorem withScheduler_sameTables {m : Exec Scheduler Error α} :
    wp (withScheduler m) (fun _ k' => SameTables k k') (fun _ k' => SameTables k k') k := by
  rw [withScheduler, wp_zoom, wp]
  cases m k.scheduler with
  | ok a s => exact ⟨rfl, rfl, rfl⟩
  | err e s => exact ⟨rfl, rfl, rfl⟩
  | panic msg => trivial

/-- What a relation must allow for the kernel to move along it. -/
structure ServiceFrame (R : Kernel → Kernel → Prop) : Prop where
  outside : ∀ {k k' : Kernel}, SameTables k k' → R k k'
  /-- A process is written back with its connections and what memory it may claim. -/
  process : ∀ {k : Kernel} {pid p q}, k.processes pid = some p → q.fixed = p.fixed →
      R k { k with processes := update k.processes pid (some q) }
  server : ∀ {k : Kernel} {sidx} {s s' : Server}, k.servers sidx = some s → s'.card = s.card →
    R k { k with servers := update k.servers sidx (some s') }

/-- A process that has no connections yet may enter the table. -/
def AllowsBirth (R : Kernel → Kernel → Prop) : Prop :=
  ∀ (k : Kernel) pid (q : Process), q.connectionMap = List.replicate maxConnections .free →
    R k { k with processes := update k.processes pid (some q) }

variable {R : Kernel → Kernel → Prop}

theorem along_current {f : Kernel → Process → KExec α}
    (h : ∀ p k, k.processes k.currentPid = some p → wp (f k p) (fun _ k' => R k k') (fun _ k' => R k k') k) :
    Along R (Exec.get >>= fun k => currentProcess >>= f k) := by
  refine Along.get_bind fun k => ?_
  simp only [currentProcess, process, wp_bind, wp_get, Exec.wp_unwrap, wp_assert, wp_okOr]
  exact fun _ => ⟨fun p hp => h p k hp, fun _ => trivial⟩

namespace ServiceFrame

variable (hR : ServiceFrame R)

include hR

theorem toVisitFrame : VisitFrame R where
  scheduler _ _ := hR.outside ⟨rfl, rfl, rfl⟩
  process hp hq := hR.process hp (congrArg Prod.fst hq)
  visit _ _ _ := hR.outside ⟨rfl, rfl, rfl⟩

theorem modify {f : Kernel → Kernel} (hf : ∀ k, SameTables k (f k)) : Along R (Exec.modify f : KExec Unit) :=
  Along.modify fun k => hR.outside (hf k)

theorem withScheduler (m : Exec Scheduler Error α) : Along R (Kernel.withScheduler m) := fun _ =>
  wp_mono withScheduler_sameTables (fun _ _ h => hR.outside h) fun _ _ h => hR.outside h

theorem withServer {m : Exec Server Error α} (hm : Along SameCard m) (sidx : Nat) :
    Along R (Kernel.withServer sidx m) := by
  refine fun k => wp_serverFromSidx ?_ fun s hs => ?_
  · simp [wp_bind]
  · simp only [wp_bind, wp_expect, Option.some.injEq, forall_eq', wp_zoom]
    exact wp_mono (hm s) (fun _ _ h => hR.server hs h) fun _ _ h => hR.server hs h

theorem modifySavedResult (t : ThreadId) (r : Result) : Along R (Exec.modify (setSavedResult t r) : KExec Unit) :=
  hR.modify (setSavedResult_sameTables t r)

theorem setArchProcess (pid : PID) (a : Option ProcessImpl) : Along R (Kernel.setArchProcess pid a) :=
  hR.modify fun _ => ⟨rfl, rfl, rfl⟩

theorem setThreadArgs (pid : PID) (x0 x1 x2 : Nat) :
    Along R (Exec.modify (Kernel.setThreadArgs pid x0 x1 x2) : KExec Unit) :=
  hR.modify fun _ => by unfold Kernel.setThreadArgs; split <;> exact ⟨rfl, rfl, rfl⟩

end ServiceFrame

variable [IsPreorder Kernel R]

theorem currentProcess_along : Along R currentProcess := .read fun _ => (process_along _).unwrap _

theorem serverFromSidx_along (sidx : Nat) : Along R (serverFromSidx sidx) :=
  .ite (fun _ => .pure _) fun _ => (Along.assert _ _).bind fun _ => Along.get.map

theorem checkQueueRoom_along (sidx : Nat) : Along R (checkQueueRoom sidx) :=
  (serverFromSidx_along _).bind fun _ => (Along.expect _ _).bind fun _ =>
    .guard fun _ => .pure _

namespace ServiceFrame

variable (hR : ServiceFrame R)

include hR

/-! ## 1. Threads -/

theorem visits : VisitCode (fun _ m => Along R m) (AlongWith R) := hR.toVisitFrame.visits

/-- A process is written back with its connections, and more follows. -/
theorem setProcess_after {pid : PID} {p q : Process} {f : Unit → KExec α}
    (hp : k.processes pid = some p) (hq : q.fixed = p.fixed)
    (hf : Along R (f ())) :
    wp (setProcess pid q >>= f) (fun _ k' => R k k') (fun _ k' => R k k') k := by
  rw [wp_bind]
  exact Along.after (hR.process hp hq) hf

theorem setServer_after {sidx : Nat} {s s' : Server} {f : Unit → KExec α}
    (hs : k.servers sidx = some s) (hc : s'.card = s.card) (hf : Along R (f ())) :
    wp (setServer sidx (some s') >>= f) (fun _ k' => R k k') (fun _ k' => R k k') k := by
  rw [wp_bind]
  exact Along.after (hR.server hs hc) hf

theorem setThreadResult (t : ThreadId) (r : Result) : Along R (Kernel.setThreadResult t r) :=
  hR.visits.setThreadResult (hR.modifySavedResult t r)

theorem wakeThreadWithResult (t : ThreadId) (r : Result) : Along R (Kernel.wakeThreadWithResult t r) :=
  hR.visits.wakeThreadWithResult (hR.setThreadResult t) r

/-! ## 2. Queues -/

theorem withQueue {m : Exec Server Error α} (hm : Along SameCard m) (sidx : Nat) : Along R (Kernel.withQueue sidx m) :=
  hR.visits.withQueue (hR.withServer hm sidx)

theorem takeNextMessage (sidx : Nat) : Along R (Kernel.takeNextMessage sidx) :=
  hR.visits.takeNextMessage (hR.withServer (Server.takeNextMessage_sameCard _) _)

theorem queueServerMessage (sidx : Nat) (pid : PID) (tid : TID) (message : Message)
    (originalAddress : Option MemoryAddress) :
    Along R (Kernel.queueServerMessage sidx pid tid message originalAddress) :=
  hR.visits.queueServerMessage (hR.withServer (Server.queueMessage_sameCard _ _ _ _) _)

theorem handOver (t : ThreadId) (envelope : MessageEnvelope) : Along R (Kernel.handOver t envelope) :=
  hR.visits.handOver (hR.setThreadResult t) envelope

theorem notify (pid : PID) (bits : BitVec 64) : Along R (Kernel.notify pid bits) :=
  hR.visits.notify (fun _ => hR.setThreadResult _) bits

theorem deliverMessage (tid : TID) (sidx : Nat) (message : Message) (clientAddress : Option MemoryAddress) :
    Along R (Kernel.deliverMessage tid sidx message clientAddress) := by
  refine Along.get_bind fun k => wp_serverFromSidx ?_ fun s hs => ?_
  · simp [wp_bind]
  · simp only [wp_bind (m := Exec.expect _ _), wp_expect, Option.some.injEq, forall_eq']
    split
    next serverTid s' htake =>
      refine hR.setServer_after hs (Server.takeAvailableThread_card htake) (.ite (fun _ => ?_) fun _ =>
        (Along.pure _).bind fun _ => hR.handOver _ _)
      refine (hR.visits.rememberServerMessage (hR.withServer
        (Server.queueResponse_sameCard _ _ _ _) _)).attempt.bind fun r => ?_
      cases r with
      | ok i => exact (Along.pure _).bind fun _ => hR.handOver _ _
      | error e =>
        exact (hR.withServer (Along.get_bind fun _ => by rw [wp_bind, wp_assert]; exact fun _ => rfl) _).bind fun _ =>
          (Along.throw _).bind fun _ => hR.handOver _ _
    · exact ((hR.queueServerMessage _ _ _ _ _).bind fun _ => (hR.notify _ _).unwrap _) k

theorem sendEvent (pid : PID) (event : SystemEvent) (arg : Nat) : Along R (Kernel.sendEvent pid event arg) :=
  hR.visits.sendEvent (fun _ _ => hR.deliverMessage _ _ _ _) pid event arg

theorem broadcastEvent (event : SystemEvent) (arg : Nat) : Along R (Kernel.broadcastEvent event arg) :=
  hR.visits.broadcastEvent (fun _ _ => hR.deliverMessage _ _ _ _) event arg

theorem deliverCharToSid (sid : SID) (c : UInt8) : Along R (Kernel.deliverCharToSid sid c) := by
  refine Along.get_bind fun k => ?_
  split
  · exact refl_of R k
  next sidx _ =>
    refine wp_serverFromSidx ?_ fun s hs => ?_
    · simp [wp_bind]
    · simp only [wp_bind (m := Exec.expect _ _), wp_expect, Option.some.injEq, forall_eq']
      split
      next serverTid s' htake =>
        refine hR.setServer_after hs (Server.takeAvailableThread_card htake)
          (.ite (fun _ => ?_) fun _ => (hR.setThreadResult _ _).ignore)
        exact (hR.visits.takeKernelFuture _).bind fun _ => (hR.visits.setThreadState _ _).bind
          fun _ => (hR.setThreadResult _ _).ignore
      · exact ((hR.queueServerMessage _ _ _ _ _).ignore.bind fun _ =>
          .ite (fun _ => hR.notify _ _) fun _ => .pure _) k

/-! ## 3. Memory -/

theorem toMemoryFrame : MemoryFrame R where
  memory _ _ _ _ := hR.outside ⟨rfl, rfl, rfl⟩
  area _ _ _ _ _ hp := hR.process hp rfl
  broadcast := hR.broadcastEvent _ _

/-! ## 4. The scheduler -/

theorem activateCurrent : Along R Kernel.activateCurrent :=
  hR.visits.activateCurrent (fun t => hR.modify (setTid_sameTables t)) hR.setThreadResult
    fun sidx => hR.withServer (Server.takeNextMessage_sameCard _) sidx

/-! ## 5. Servers, processes and threads that end or begin -/

theorem destroySlot (slot : QueuedMessage) : Along R (Kernel.destroySlot slot) := by
  have hunmap : ∀ addr len, Along R (unwrap (unmapRange addr len) "unmap_range failed") :=
    fun _ _ => (hR.toMemoryFrame.unmapRange _ _).unwrap _
  have hlent : ∀ (pid : PID) (tid : UInt8) (server client : MemoryAddress) (size : MemorySize), Along R (do
        unwrap (returnMemory server.get pid client.get size.get) "return_memory failed"
        unwrap (Kernel.setThreadState (pid, tid.toNat) .ready) "no such process"
        unwrap (Kernel.setThreadResult (pid, tid.toNat) (.error .serverNotFound)) "no such process") :=
    fun _ _ _ _ _ => ((hR.toMemoryFrame.returnMemory _ _ _ _).unwrap _).bind fun _ =>
      ((hR.visits.setThreadState _ _).unwrap _).bind fun _ => (hR.setThreadResult _ _).unwrap _
  cases slot with
  | empty | scalarMessage | blockingScalarTerminated | waitingReturnScalarTerminated => exact .pure _
  | memoryMessageSend | waitingForget | memoryMessageROLendTerminated
  | memoryMessageRWLendTerminated => exact hunmap _ _
  | blockingScalarMessage | waitingReturnScalar =>
    exact ((hR.setThreadResult _ _).unwrap _).bind fun _ =>
      (hR.visits.setThreadState _ _).unwrap _
  | memoryMessageROLend | memoryMessageRWLend | waitingReturnMemory => exact hlent _ _ _ _ _

theorem wakeReceivers (pid : PID) (n : Nat) : ∀ s, Along R (Kernel.wakeReceivers pid n s) := by
  induction n with
  | zero => exact fun _ => .pure _
  | succ n ih =>
    intro s
    unfold Kernel.wakeReceivers
    split
    · exact .pure _
    · exact ((hR.visits.setThreadState _ _).unwrap _).bind fun _ =>
        ((hR.setThreadResult _ _).unwrap _).bind fun _ => ih _

theorem destroy (s : Server) : Along R (Kernel.destroy s) :=
  (Along.each fun _ _ => hR.destroySlot _).bind fun _ => .read fun _ =>
    (hR.wakeReceivers _ _ _).bind fun _ => (hR.toMemoryFrame.unmapRange _ _).unwrap _

theorem mapFbFor (pid : PID) : Along R (Kernel.mapFbFor pid) :=
  .read fun _ => .ite (fun _ => Along.each fun _ _ => (hR.toMemoryFrame.code.mapPage _ _ _ _ _).ignore) fun _ => .pure _

theorem unmapFbFor (pid : PID) : Along R (Kernel.unmapFbFor pid) :=
  .read fun _ => .ite (fun _ => Along.each fun _ _ => (hR.toMemoryFrame.code.unmapPte _ _).ignore) fun _ => .pure _

theorem terminateProcess (pid : PID) : Along R (Kernel.terminateProcess pid) :=
  (Along.each fun _ _ => (hR.visits.setThreadState _ _).bind fun _ =>
    (hR.visits.takeKernelFuture _).bind fun _ => (hR.visits.takeMailbox _).map).bind
    fun _ => (hR.toMemoryFrame.withMemoryManager _).bind fun _ => hR.setArchProcess _ _

theorem createThread (parent : TID) (init : ThreadInit) : Along R (Kernel.createThread parent init) := by
  refine Along.get_bind fun k => ?_
  dsimp only
  split
  · exact refl_of R k
  · simp only [wp_bind (m := Exec.okOr _ _), wp_okOr, wp_bind (m := Exec.set _), wp_set]
    refine ⟨fun tid _ => ?_, fun _ => refl_of R k⟩
    exact Along.after (hR.outside ⟨rfl, rfl, rfl⟩) (currentProcess_along.bind fun _ =>
      (hR.visits.setThreadState _ _).bind fun _ => currentProcess_along.bind fun _ =>
        (hR.visits.setThreadPriority _ _).map)

theorem mapFreshPage (pid : PID) (va : Nat) (flags : MemoryFlags) (byte : Nat → UInt8) :
    Along R (Kernel.mapFreshPage pid va flags byte) := by
  refine ((hR.toMemoryFrame.allocRange _ _).mapErr _).bind fun _ => Along.bind ?_ fun _ =>
    hR.toMemoryFrame.code.mapPage _ _ _ _ _
  exact hR.modify fun _ => ⟨rfl, rfl, rfl⟩

theorem mapStack (pid : PID) (bottom n : Nat) : Along R (Kernel.mapStack pid bottom n) :=
  Along.each fun _ _ => hR.mapFreshPage _ _ _ _

theorem archCreate (pid : PID) (image : Except Error ElfImage) : Along R (Kernel.archCreate pid image) :=
  .read fun _ => .guard fun _ => (hR.setArchProcess _ _).bind fun _ =>
    (Along.ofExcept _).bind fun _ =>
      (Along.each fun _ _ => Along.each fun _ _ => hR.mapFreshPage _ _ _ _).bind fun _ =>
        (hR.mapStack _ _ _).bind fun _ => (hR.mapStack _ _ _).bind fun _ =>
          hR.setArchProcess _ _

theorem createProcess (hbirth : AllowsBirth R) (image : Except Error ElfImage) : Along R (Kernel.createProcess image) :=
  .read fun _ => (Along.okOr _ _).bind fun _ => (hR.toMemoryFrame.code.allocTable _).bind fun _ =>
    (hR.toMemoryFrame.setPageTables _ _).bind fun _ => (hR.withScheduler _).bind fun _ =>
      (Along.modify fun _ => hbirth _ _ _ rfl).bind fun _ => ((hR.archCreate _ _).unwrap _).bind fun _ =>
        .pure _

theorem spawn (hbirth : AllowsBirth R) (binary : Option (Except Error ElfImage)) : Along R (Kernel.spawn binary) :=
  (Along.okOr _ _).bind fun _ => (hR.createProcess hbirth _).bind fun _ =>
    along_process fun _ _ hp => hR.setProcess_after hp rfl ((hR.toMemoryFrame.code.mapPage _ _ _ _ _).ignore.map)

theorem spawnByName (hbirth : AllowsBirth R)
    (binary : Option (Except Error ElfImage)) : Along R (Kernel.spawnByName binary) :=
  (hR.spawn hbirth _).bind fun _ => (hR.setThreadArgs _ _ _ _).map

theorem spawnByNameWithArgs (hbirth : AllowsBirth R) (binary : Option (Except Error ElfImage)) (argvPtr argvLen : Nat) :
    Along R (Kernel.spawnByNameWithArgs binary argvPtr argvLen) := by
  refine (hR.spawn hbirth _).bind fun pid => .ite (fun _ => ?_) fun _ =>
    (Along.pure _).bind fun _ => (hR.setThreadArgs _ _ _ _).map
  refine .read fun k => ((process_along _).mapErr _).bind fun _ =>
    (virtToPhys_along _ _).bind fun _ => (hR.toMemoryFrame.allocRange _ _).bind fun _ => Along.bind ?_
      fun _ => ((hR.toMemoryFrame.code.mapPage _ _ _ _ _).mapErr _).bind fun _ => (Along.pure _).bind fun _ =>
        (hR.setThreadArgs _ _ _ _).map
  exact hR.modify fun _ => ⟨rfl, rfl, rfl⟩

theorem closeServers (hdestroy : ∀ sidx, Along R (destroySidx sidx)) (pid : PID) :
    Along R (Kernel.closeServers pid) := by
  refine Along.each fun sidx _ => .read fun k => ?_
  split
  · exact .pure _
  · exact .ite (fun _ => hdestroy _) fun _ => ((process_along _).unwrap _).bind fun _ =>
      (hR.visits.activate _).bind fun _ =>
        (hR.withQueue (Along.modify (f := Server.discardMessagesForPid _) fun _ => rfl) _).bind fun _ =>
          (process_along _).bind fun _ => hR.visits.activate _

/-! ## 6. System calls -/

theorem sendMessageInner (tid : TID) (sidx : Nat) (message : Message) :
    Along R (Kernel.sendMessageInner tid sidx message) := by
  refine (checkQueueRoom_along sidx).bind fun s => ?_
  cases message with
  | scalar | blockingScalar => exact hR.deliverMessage _ _ _ _
  | move msg =>
    exact (hR.toMemoryFrame.sendMemory _ _ _).bind fun _ => (Along.okOr _ _).bind fun _ =>
      hR.deliverMessage _ _ _ _
  | mutableBorrow msg | borrow msg =>
    exact (hR.toMemoryFrame.lendMemory _ _ _ _).bind fun _ => (Along.okOr _ _).bind fun _ =>
      hR.deliverMessage _ _ _ _

theorem sendMessage (tid : TID) (cid : CID) (message : Message) : Along R (Kernel.sendMessage tid cid message) := by
  refine .read fun k => currentProcess_along.bind fun p => (Along.ofExcept _).bind fun slot => ?_
  cases slot with
  | free | tombstone => exact .throw _
  | connected sidx r perms =>
    exact (serverFromSidx_along _).bind fun _ => (Along.expect _ _).bind fun _ => .guard fun _ =>
      (hR.sendMessageInner _ _ _).bind fun _ => .ite (fun _ => (hR.visits.suspendWithFuture _ _ _).map)
        fun _ => (hR.setThreadResult _ _).map

theorem sendMessageOrRetry (tid : TID) (cid : CID) (message : Message) :
    Along R (Kernel.sendMessageOrRetry tid cid message) := by
  refine (hR.sendMessage tid cid message).attempt.bind fun r => ?_
  split
  · exact .pure _
  · refine currentProcess_along.bind fun p => (Along.ofExcept _).bind fun slot => ?_
    cases slot with
    | free | tombstone => exact .throw _
    | connected =>
      exact .read fun _ => (hR.modifySavedResult _ _).bind fun _ =>
        currentProcess_along.bind fun _ => (hR.visits.setThreadState _ _).map
  · exact .throw _

theorem takeWaiting (sender : SenderID) (buf : Option MemoryRange) : Along R (Kernel.takeWaiting sender buf) :=
  .read fun _ => (serverFromSidx_along _).bind fun _ => (Along.okOr _ _).bind fun _ => .guard fun _ =>
    (hR.withQueue (Server.takeWaitingMessage_sameCard _ _) _).bind fun _ => .read fun _ =>
      .ite (fun _ => (hR.visits.wakeThreadsWithState _).map) fun _ => .pure _

theorem returnMemoryCall (tid : TID) (sender : MessageSender) (buf : MemoryRange) (offset valid : Option MemorySize) :
    Along R (Kernel.returnMemoryCall tid sender buf offset valid) := by
  have hend : ∀ t : ThreadId, Along R (do
      Kernel.setThreadResult t .ok
      pure Response.activateCurrent) := fun _ =>
    (hR.setThreadResult _ _).map
  refine .read fun k => (hR.takeWaiting _ _).bind fun w => ?_
  cases w with
  | borrowedMemory => exact (hR.toMemoryFrame.returnMemory _ _ _ _).bind fun _ =>
      (hR.wakeThreadWithResult _ _).bind fun _ => hend _
  | forgetMemory => exact (hR.toMemoryFrame.unmapRange _ _).bind fun _ => hend _
  | scalarMessage | scalarMessageTerminated | none => exact (Along.throw _).bind fun _ => hend _

theorem returnResult (tid : TID) (sender : MessageSender) (r : Result) :
    Along R (Kernel.returnResult tid sender r) := by
  have hend : ∀ t : ThreadId, Along R (do
      Kernel.setThreadResult t .ok
      pure Response.activateCurrent) := fun _ =>
    (hR.setThreadResult _ _).map
  refine .read fun k => (hR.takeWaiting _ _).bind fun w => ?_
  cases w with
  | scalarMessage => exact (hR.wakeThreadWithResult _ _).bind fun _ => hend _
  | scalarMessageTerminated => exact (Along.pure ()).bind fun _ => hend _
  | forgetMemory | borrowedMemory | none => exact (Along.throw _).bind fun _ => hend _

theorem receiveMessage (tid : TID) (sid : SID) (blocking : Bool) :
    Along R (Kernel.receiveMessage tid sid blocking) := by
  refine .read fun k => (Along.okOr _ _).bind fun sidx => (serverFromSidx_along _).bind fun _ =>
    (Along.okOr _ _).bind fun s => .guard fun _ =>
      (hR.takeNextMessage _).bind fun m => ?_
  cases m with
  | some m =>
    exact .read fun _ => .ite (fun _ => (hR.visits.wakeThreadsWithState _).map) fun _ => .pure _
  | none =>
    exact .ite (fun _ => .pure _) fun _ =>
      (hR.withServer (Along.get_bind fun _ => by rw [wp_bind, wp_assert]; exact fun _ => rfl) _).bind fun _ =>
        (hR.visits.suspendWithFuture _ _ _).map

theorem futexWait (tid : TID) (addr val : Nat) : Along R (Kernel.futexWait tid addr val) :=
  .read fun _ => .guard fun _ => (Along.okOr _ _).bind fun _ =>
    (checkRangeAccessible_along _).bind fun _ => (virtToPhys_along _ _).bind fun _ => .guard fun _ =>
      (hR.setThreadResult _ _).bind fun _ => (hR.visits.suspendWithFuture _ _ _).map

theorem futexWakeFrom (pid : PID) (addr : Nat) (l : List TID) : ∀ n, Along R (Kernel.futexWakeFrom pid addr l n) := by
  induction l with
  | nil => exact fun _ => .pure _
  | cons tid rest ih =>
    exact fun n => .ite (fun _ => .pure _) fun _ => currentProcess_along.bind fun _ => .ite
      (fun _ => (hR.visits.setMailbox _ _).bind fun _ => (hR.visits.setThreadState _ _).bind fun _ =>
        ih _) fun _ => ih _

theorem joinThread (tid joinTid : TID) : Along R (Kernel.joinThread tid joinTid) :=
  currentProcess_along.bind fun _ => .guard fun _ => (Along.assert _ _).bind fun _ =>
    .ite (fun _ => (hR.visits.suspendWithFuture _ _ _).map) fun _ => .pure _

theorem waitEvent (tid : TID) (mask : BitVec 64) : Along R (Kernel.waitEvent tid mask) := by
  refine .guard fun _ => along_current fun p k hp => hR.setProcess_after hp rfl ?_
  exact .ite (fun _ => .pure _) fun _ => (hR.setThreadResult _ _).bind fun _ =>
    (hR.visits.setThreadState _ _).map

theorem mirrorMemoryToPid (mem : MemoryRange) (pid : PID) : Along R (Kernel.mirrorMemoryToPid mem pid) :=
  .read fun _ => (virtToPhys_along _ _).bind fun _ => (Along.assert _ _).bind fun _ =>
    (Along.each fun _ _ => (virtToPhys_along _ _).bind fun _ => .guard fun _ => .pure _).bind fun _ =>
      (process_along _).bind fun _ => (hR.visits.activateMapping _).bind fun _ =>
        (hR.toMemoryFrame.mapRangeReadonlyMirror _ _ _).attempt.bind
          fun _ => (hR.visits.activateMapping _).bind fun _ => (Along.ofExcept _).map

/-- **The other calls move along the frame.** -/
theorem dispatch (hbirth : AllowsBirth R) (hdestroy : ∀ sidx, Along R (destroySidx sidx)) (tid : TID)
    {call : SysCall} (h : ¬ call.Registers) (hends : ¬ call.Ends) (hshows : ¬ call.Shows) :
    Along R (Kernel.dispatch tid call) := by
  cases call with
  | createServerWithAddress | createServer | connect | tryConnect | connectForProcess | disconnect
  | allowMessagesSID | allowMessagesCID => exact absurd trivial h
  | terminateProcess | terminatePid => exact absurd trivial hends
  | acquireDisplay | releaseDisplay | acquireInputFocus | releaseInputFocus => exact absurd trivial hshows
  | mapMemory phys virt size flags =>
    refine Along.bind (.read fun _ => ?_) fun _ => .pure _
    exact .guard fun _ => .guard fun _ => .guard fun _ => (hR.toMemoryFrame.mapRange _ _ _ _ _).map
  | unmapMemory range =>
    exact Along.bind ((checkRangeAccessible_along _).bind fun _ => (hR.toMemoryFrame.unmapRange _ _).map) fun _ => .pure _
  | increaseHeap size =>
    exact Along.bind (.guard fun _ => (hR.toMemoryFrame.mapRange _ _ _ _ _).bind fun _ =>
      .pure _) fun _ => .pure _
  | futexWait => exact hR.futexWait _ _ _
  | futexWake => exact .read fun _ => (hR.futexWakeFrom _ _ _ _).map
  | yield =>
    exact .read fun _ => (hR.setThreadResult _ _).bind fun _ =>
      currentProcess_along.bind fun _ => (hR.withScheduler _).map
  | setThreadPriority =>
    exact .guard fun _ => .read fun _ => currentProcess_along.bind fun _ =>
      (hR.visits.setThreadPriority _ _).bind fun _ => (hR.setThreadResult _ _).map
  | receiveMessage | tryReceiveMessage => exact hR.receiveMessage _ _ _
  | createThread => exact (hR.createThread _ _).map
  | createProcess => exact (hR.createProcess hbirth _).map
  | createServerId | getThreadId => exact .pure _
  | sendMessage => exact hR.sendMessageOrRetry _ _ _
  | trySendMessage => exact hR.sendMessage _ _ _
  | returnMemory => exact hR.returnMemoryCall _ _ _ _ _
  | returnScalar1 | returnScalar2 | returnScalar5 => exact hR.returnResult _ _ _
  | shutdown => exact .panic _
  | getProcessId => exact Along.get.map
  | destroyServer =>
    exact .read fun _ => Along.bind (.read fun _ => (Along.okOr _ _).bind fun _ =>
      hdestroy _) fun _ => .pure _
  | joinThread => exact hR.joinThread _ _
  | getRemoteProcessId =>
    refine currentProcess_along.bind fun p => (Along.ofExcept _).bind fun slot => ?_
    cases slot with
    | free | tombstone => exact .throw _
    | connected => exact (serverFromSidx_along _).bind fun _ => (Along.okOr _ _).map
  | updateMemoryFlags => exact .guard fun _ => .panic _
  | virtToPhys => exact .read fun _ => (virtToPhys_along _ _).map
  | virtToPhysPid =>
    exact (process_along _).bind fun _ => (virtToPhys_along _ _).map
  | mirrorMemoryToPid => exact (hR.mirrorMemoryToPid _ _).map
  | registerEventHandler =>
    refine along_current fun p k hp => ?_
    split
    · exact refl_of R k
    · exact hR.setProcess_after hp rfl (.pure _)
  | spawnByName => exact (hR.spawnByName hbirth _).map
  | spawnByNameWithArgs => exact (hR.spawnByNameWithArgs hbirth _ _ _).map
  | waitProcess =>
    refine (process_along _).attempt.bind fun r => ?_
    cases r with
    | error e => exact .pure _
    | ok p => exact (hR.visits.suspendWithFuture _ _ _).map
  | waitEvent => exact hR.waitEvent _ _
  | pollEvent => exact along_current fun p k hp => hR.setProcess_after hp rfl (.pure _)
  | postEvent =>
    exact .read fun _ => .ite (fun _ => .pure _) fun _ => .guard fun _ =>
      (hR.notify _ _).map
  | other => exact (Along.ofExcept _).map

end ServiceFrame

theorem permittedByMask_same (n : Nat) : Along Eq (permittedByMask n) :=
  Along.bind (.read fun _ => (process_along _).unwrap _) fun _ =>
    .ite (fun _ => .pure _) fun _ => .throw _

theorem checkSyscallPermission_same (call : SysCall) : Along Eq (checkSyscallPermission call) := by
  unfold checkSyscallPermission
  split
  · exact .ite (fun _ => .pure _) fun _ => permittedByMask_same _
  · exact permittedByMask_same _
  · exact permittedByMask_same _
  · exact permittedByMask_same _
  · exact permittedByMask_same _
  · exact .read fun _ => .ite (fun _ => .pure _) fun _ => permittedByMask_same _
  · refine .read fun k => (process_along _).bind fun p => (Along.ofExcept _).bind fun slot => ?_
    cases slot with
    | free | tombstone => exact .throw _
    | connected sidx =>
      refine Along.bind (.ite (fun _ => .pure _) fun _ => (Along.assert _ _).bind fun _ =>
        Along.get.map) fun _ => (Along.okOr _ _).bind fun _ => ?_
      exact .ite (fun _ => .pure _) fun _ => permittedByMask_same _
  · exact permittedByMask_same _
  · exact permittedByMask_same _
  · exact permittedByMask_same _
  · exact permittedByMask_same _
  · exact .pure _

/-! ## 7. Relations that do not look into the tables -/

/-- A process or a server may be written back in any way, and servers may come and go. -/
structure OpenFrame (R : Kernel → Kernel → Prop) : Prop where
  outside : ∀ {k k' : Kernel}, SameTables k k' → R k k'
  process : ∀ {k : Kernel} {pid p q}, k.processes pid = some p →
    R k { k with processes := update k.processes pid (some q) }
  server : ∀ {k : Kernel} {sidx s}, R k { k with servers := update k.servers sidx s }

namespace OpenFrame

variable (hR : OpenFrame R)

include hR

omit [IsPreorder Kernel R] in
theorem toServiceFrame : ServiceFrame R where
  outside := hR.outside
  process hp _ := hR.process hp
  server _ _ := hR.server

omit [IsPreorder Kernel R] in
theorem setServer (sidx : Nat) (s : Option Server) : Along R (Kernel.setServer sidx s) :=
  Along.modify fun _ => hR.server

theorem disconnect (sidx : Nat) : Along R (Kernel.disconnect sidx) := by
  refine Along.each fun pid _ => Along.get_bind fun k => ?_
  split
  · exact refl_of R k
  next cid p hp =>
    obtain ⟨p₀, hp₀, -⟩ := Option.bind_eq_some_iff.mp hp
    rw [wp_bind]
    exact Along.after (hR.process hp₀) (hR.toServiceFrame.sendEvent _ _ _).ignore

theorem destroySidx (sidx : Nat) : Along R (Kernel.destroySidx sidx) :=
  .read fun _ => (Along.expect _ _).bind fun _ => (hR.setServer _ _).bind fun _ =>
    (hR.toServiceFrame.destroy _).bind fun _ => hR.disconnect _

theorem createServerWithAddress (sid : SID) (range : MessageRange) :
    Along R (Kernel.createServerWithAddress sid range) := by
  refine .read fun k => ?_
  dsimp only
  split
  · exact .throw _
  · exact (hR.toServiceFrame.toMemoryFrame.mapRange _ _ _ _ _).bind fun _ =>
      (virtToPhys_along _ _).bind fun _ => .read fun _ => (Along.expect _ _).bind fun _ =>
        ((Along.ofExcept _).unwrap _).bind fun _ => (hR.setServer _ _).bind fun _ =>
          (hR.toServiceFrame.visits.wakeThreadsWithState _).map

theorem connectToServer (pid : PID) (sid : SID) : Along R (Kernel.connectToServer pid sid) := by
  refine .read fun k => (Along.okOr _ _).bind fun sidx => (Along.expect _ _).bind fun s =>
    along_process fun p k hp => ?_
  simp only [wp_bind, Exec.wp_ofExcept]
  exact ⟨fun _ _ => hR.process hp, fun _ _ => refl_of R k⟩

theorem disconnectFromServer (cid : CID) : Along R (Kernel.disconnectFromServer cid) := by
  refine along_current fun p k hp => ?_
  rw [wp_bind, Exec.wp_ofExcept]
  refine ⟨fun slot _ => ?_, fun _ _ => refl_of R k⟩
  cases slot with
  | free => exact refl_of R k
  | tombstone | connected => exact hR.process hp

/-- **Every call that neither ends a process nor is about the display moves along the relation.** -/
theorem dispatch (hbirth : AllowsBirth R) (tid : TID) {call : SysCall}
    (hends : ¬ call.Ends) (hshows : ¬ call.Shows) : Along R (Kernel.dispatch tid call) := by
  by_cases h : call.Registers
  · cases call with
    | createServerWithAddress | createServer => exact (hR.createServerWithAddress _ _).map
    | connect | tryConnect => exact .read fun _ => (hR.connectToServer _ _).map
    | connectForProcess => exact (hR.connectToServer _ _).map
    | disconnect => exact (hR.disconnectFromServer _).map
    | allowMessagesSID =>
      exact .read fun _ => (Along.okOr _ _).bind fun _ => (Along.expect _ _).bind fun _ =>
        (hR.setServer _ _).bind fun _ => (Along.ofExcept _).map
    | allowMessagesCID pid cid messages =>
      refine .guard fun _ => along_process fun p k hp => ?_
      split
      · rw [wp_bind]
        exact Along.after (hR.process hp) ((Along.ofExcept _).map)
      · exact refl_of R k
    | _ => exact absurd h (by simp [SysCall.Registers])
  · exact hR.toServiceFrame.dispatch hbirth hR.destroySidx tid h hends hshows

end OpenFrame

end Kernel

end BeetKernel

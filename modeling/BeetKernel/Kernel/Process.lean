/-
# Processes and their threads

The methods of `Process` in `process.rs`.  A thread is in the scheduler's lists EXACTLY while
its state is `Ready`: the only way to change a state is `set_thread_state`, which links and
unlinks it on the way.
-/
import BeetKernel.Kernel.State

namespace BeetKernel

open Function (update)

/-- Kernel code: it changes the kernel's state, and returns, fails or panics. -/
abbrev KExec := Exec Kernel Error

/-! ## 1. What a process knows by itself -/

namespace Process

/-- `Process::check_memory_permission`, for the process `pid`. -/
def checkMemoryPermission (p : Process) (pid : PID) (addr : Nat) : Except Error Unit :=
  if pid.get = 1 ∨ (dramBase ≤ addr ∧ addr < dramEnd) then .ok ()
  else inRegions p.memoryPermissions
where
  inRegions : List (Nat × Nat) → Except Error Unit
    | [] => .error .accessDenied
    | region :: rest =>
      if region.1 ≤ addr ∧ addr < region.2 then .ok ()
      else if region.2 = 0 then .error .accessDenied
      else inRegions rest

def tombstoneConnectionBySidx (p : Process) (deadSidx : Nat) : Option (CID × Process) :=
  match p.connectionMap.findIdx? (isConnectedTo deadSidx) with
  | none => none
  | some cidx =>
    match p.connectionMap[cidx]? with
    | some (.connected _ refcount _) =>
      some (cidx + 2, { p with connectionMap := p.connectionMap.set cidx (.tombstone refcount) })
    | _ => none
where
  isConnectedTo (sidx : Nat) : ConnectionSlot → Bool
    | .connected s _ _ => s == sidx
    | _ => false

def addConnection (p : Process) (sidx : Nat) (permissions : MessagePermissions) : Except Error (CID × Process) :=
  match p.connectionMap.findIdx? (tombstoneConnectionBySidx.isConnectedTo sidx) with
  | some cidx =>
    match p.connectionMap[cidx]? with
    | some (.connected s refcount perms) =>
      .ok (cidx + 2, { p with
        connectionMap := p.connectionMap.set cidx (.connected s (refcount + 1) perms) })
    | _ => .error .serverNotFound
  | none =>
    match p.connectionMap.findIdx? (· = .free) with
    | some cidx => .ok (cidx + 2, { p with
        connectionMap := p.connectionMap.set cidx (.connected sidx 1 permissions) })
    | none => .error .outOfMemory

def connection (p : Process) (cid : CID) : Except Error ConnectionSlot :=
  if cid < 2 then .error .serverNotFound
  else
    match p.connectionMap[cid - 2]? with
    | some slot => .ok slot
    | none => .error .serverNotFound

/-- A write through `Process::connection_mut`. -/
def setConnection (p : Process) (cid : CID) (slot : ConnectionSlot) : Process :=
  { p with connectionMap := p.connectionMap.set (cid - 2) slot }

end Process

namespace Kernel

/-! ## 2. The process table -/

def withScheduler {α : Type} (m : Exec Scheduler Error α) : KExec α :=
  Exec.zoom Kernel.scheduler (fun s k => { k with scheduler := s }) m

def process (pid : PID) : KExec Process := do
  Exec.assert (pid.get ≤ maxProcessCount) "index out of bounds"
  let k ← Exec.get
  Exec.okOr .processNotFound (k.processes pid)

theorem process_eq_ok {pid : PID} {k k' : Kernel} {p : Process} : process pid k = .ok p k' ↔
    pid.get ≤ maxProcessCount ∧ k.processes pid = some p ∧ k' = k := by
  unfold process
  simp only [Exec.bind_eq_ok, Exec.assert_eq_ok, Exec.get_bind_run, Exec.okOr_eq_ok, decide_eq_true_eq]
  constructor
  · rintro ⟨-, _, ⟨hle, rfl⟩, hp, rfl⟩
    exact ⟨hle, hp, rfl⟩
  · rintro ⟨hle, hp, rfl⟩
    exact ⟨(), _, ⟨hle, rfl⟩, hp, rfl⟩

theorem process_eq_err {pid : PID} {k k' : Kernel} {e : Error} : process pid k = .err e k' ↔
    pid.get ≤ maxProcessCount ∧ k.processes pid = none ∧ e = .processNotFound ∧ k' = k := by
  unfold process
  by_cases hle : pid.get ≤ maxProcessCount
  · cases hp : k.processes pid <;>
      simp [Exec.bind_run, Exec.assert, hle, hp, eq_comm (a := e), eq_comm (a := k')]
  · simp [Exec.bind_run, Exec.assert, hle]

/-- A write through `SystemServices::process_mut`. -/
def setProcess (pid : PID) (p : Process) : KExec Unit :=
  Exec.modify fun k => { k with processes := update k.processes pid (some p) }

def currentProcess : KExec Process := do
  let k ← Exec.get
  Exec.unwrap (process k.currentPid) "called `Result::unwrap()` on an `Err` value"

/-! ## 3. Thread states -/

def setThreadState (t : ThreadId) (state : ThreadState) : KExec Unit := do
  let p ← process t.1
  Exec.assert (t.2 < maxThreadCount) "index out of bounds"
  if p.threads t.2 = .ready ∧ state ≠ .ready then
    withScheduler (Scheduler.parkThread t (p.threadPriorities t.2))
  if p.threads t.2 ≠ .ready ∧ state = .ready then
    withScheduler (Scheduler.readyThread t (p.threadPriorities t.2))
  setProcess t.1 { p with threads := update p.threads t.2 state }

def setThreadPriority (t : ThreadId) (priority : ThreadPriority) : KExec Unit := do
  let p ← process t.1
  Exec.assert (t.2 < maxThreadCount) "index out of bounds"
  if p.threadPriorities t.2 = priority then pure ()
  else
    if p.threads t.2 = .ready then
      withScheduler (Scheduler.parkThread t (p.threadPriorities t.2))
      withScheduler (Scheduler.readyThread t priority)
    setProcess t.1 { p with
      threadPriorities := update p.threadPriorities t.2 priority }

/-! ## 4. Futures and mailboxes -/

def setKernelFuture (t : ThreadId) (future : KernelFuture) : KExec Unit := do
  let p ← process t.1
  if t.2 < maxThreadCount then
    setProcess t.1 { p with kernelFutures := update p.kernelFutures t.2 (some future) }

def takeKernelFuture (t : ThreadId) : KExec (Option KernelFuture) := do
  let p ← process t.1
  if t.2 < maxThreadCount then
    setProcess t.1 { p with kernelFutures := update p.kernelFutures t.2 none }
    pure (p.kernelFutures t.2)
  else pure none

def setMailbox (t : ThreadId) (result : Result) : KExec Unit := do
  let p ← process t.1
  if t.2 < maxThreadCount then
    setProcess t.1 { p with resultMailbox := update p.resultMailbox t.2 (some result) }

def takeMailbox (t : ThreadId) : KExec (Option Result) := do
  let p ← process t.1
  if t.2 < maxThreadCount then
    setProcess t.1 { p with resultMailbox := update p.resultMailbox t.2 none }
    pure (p.resultMailbox t.2)
  else pure none

/-! ## 5. Notifications -/

/-- The loop of `post_notification_bits`: the first thread whose mask the pending bits match
takes them and becomes ready. -/
def wakeFirstMatching (pid : PID) : List TID → KExec (Option (TID × BitVec 64))
  | [] => pure none
  | tid :: rest => do
    let p ← process pid
    match p.threads tid with
    | .waitEvent mask =>
      let fired := p.notificationBits &&& mask
      if fired ≠ 0 then
        setProcess pid { p with notificationBits := p.notificationBits &&& ~~~ fired }
        setThreadState (pid, tid) .ready
        pure (some (tid, fired))
      else wakeFirstMatching pid rest
    | _ => wakeFirstMatching pid rest

def postNotificationBits (pid : PID) (bits : BitVec 64) : KExec (Option (TID × BitVec 64)) := do
  let p ← process pid
  setProcess pid { p with notificationBits := p.notificationBits ||| bits }
  wakeFirstMatching pid (List.range' 1 (maxThreadCount - 1))

/-- `Process::wake_threads_with_state`; every caller asks for all of them.  The loop of the
source ends one short of the last thread. -/
def wakeThreadsOf (pid : PID) (state : ThreadState) : KExec Unit := Exec.each (fun tid => do
    let p ← process pid
    if p.threads tid = state then setThreadState (pid, tid) .ready)
    (List.range' 1 (maxThreadCount - 2))

def wakeThreadsWithState (state : ThreadState) : KExec Unit := Exec.each (fun pid => do
    let k ← Exec.get
    if (k.processes pid).isSome then wakeThreadsOf pid state) PID.all

end Kernel

end BeetKernel

/-
# Runs of the machine

The exception handlers of `arch/aarch64/irq.rs`, and runs of the whole machine.

The machine is either in user mode, running `currentThread`, or idle: with process 1 chosen
the kernel sleeps in `idle_wait_then_load` until an interrupt, and then looks for a thread
again.  In user mode a thread computes with its own registers and memory until it makes a
system call, faults, or is interrupted.  Each of these enters the kernel, which leaves again
with a thread chosen.
-/
import BeetKernel.Kernel.Syscall

namespace BeetKernel.Kernel

/-! ## 1. Exception handlers -/

/-- `save_context_to_table` -/
def saveContext (t : ThreadId) (frame : Context) (k : Kernel) : Kernel :=
  match k.archProcesses t.1 with
  | none => k
  | some a => { k with archProcesses := Function.update k.archProcesses t.1 (some { a with
      threads := Function.update a.threads t.2 { a.threads t.2 with context := frame } }) }

/-- What `handle` returns: the handler, and `activate_current` if it gave up the CPU. -/
def handleCall (tid : TID) (call : SysCall) : KExec Result := do
  match ← handle tid call with
  | .result r => pure r
  | .activateCurrent => activateCurrent

/-- `_handle_svc`, for a call that `from_args` understands. -/
def handleSvc (frame : Context) (call : SysCall) : KExec Unit := do
  let k ← Exec.get
  let caller := k.currentThread
  Exec.modify (saveContext caller frame)
  match ← Exec.attempt (handleCall caller.2 call) with
  | .ok .resumeProcess => pure ()
  | .ok r => Exec.modify (setSavedResult caller r)
  | .error e => Exec.modify (setSavedResult caller (.error e))

/-- `_handle_svc`, for words that are no system call. -/
def handleInvalidSvc (frame : Context) : KExec Unit := do
  let k ← Exec.get
  Exec.modify (saveContext k.currentThread frame)
  Exec.modify (setSavedResult k.currentThread (.error .invalidSyscall))

/-- `_user_irq_handler_rust`, for the timer. -/
def handleTimer (frame : Context) : KExec Unit := do
  let k ← Exec.get
  Exec.modify (saveContext k.currentThread frame)
  let p ← currentProcess
  withScheduler (Scheduler.yieldThread k.currentThread (p.threadPriorities k.currentTid))
  Exec.ignore activateCurrent

/-- `_user_irq_handler_rust`, for the console: the characters it has received. -/
def handleInput (frame : Context) (chars : List UInt8) : KExec Unit := do
  let k ← Exec.get
  Exec.modify (saveContext k.currentThread frame)
  Exec.each dispatchInputChar chars

/-- `_handle_abort`: a thread that faults ends its process. -/
def handleAbort (frame : Context) : KExec Unit := do
  let k ← Exec.get
  Exec.modify (saveContext k.currentThread frame)
  Exec.ignore (do
    terminateCurrentProcess 1
    activateCurrent)

/-- One turn of the loop in `idle_wait_then_load`: an interrupt arrives, perhaps with
characters, and the scheduler is asked again. -/
def idleTurn (chars : List UInt8) : KExec Unit := do
  Exec.each dispatchInputChar chars
  Exec.ignore activateCurrent

/-! ## 2. Steps and runs -/

/-- What can happen next. -/
inductive Event where
  /-- The running thread stores a byte. -/
  | store (va : Nat) (b : UInt8)
  | svc (frame : Context) (call : SysCall)
  | invalidSvc (frame : Context)
  | timer (frame : Context)
  | input (frame : Context) (chars : List UInt8)
  | abort (frame : Context)
  | idle (chars : List UInt8)

/-- A store goes through the page tables, and needs a page the process may write. -/
def storeByte (va : Nat) (b : UInt8) (k : Kernel) : Kernel :=
  match (k.pageTables k.currentPid).walk va with
  | some pte =>
    if pte.user && pte.writable then
      { k with ram := Function.update k.ram (pte.addr + va % pageSize) b }
    else k
  | none => k

/-- The kernel's reaction to an event. -/
def exec : Event → KExec Unit
  | .store va b => Exec.modify (storeByte va b)
  | .svc frame call => handleSvc frame call
  | .invalidSvc frame => handleInvalidSvc frame
  | .timer frame => handleTimer frame
  | .input frame chars => handleInput frame chars
  | .abort frame => handleAbort frame
  | .idle chars => idleTurn chars

/-- The events that come from user mode need a thread that runs there. -/
def Enabled (k : Kernel) : Event → Prop
  | .idle _ => k.currentPid = PID.kernel
  | _ => k.currentPid ≠ PID.kernel

/-- One step of the machine. -/
def Step (k : Kernel) (e : Event) (k' : Kernel) : Prop := Enabled k e ∧ exec e k = .ok () k'

/-- A run, as the list of its events. -/
inductive Run : Kernel → List Event → Kernel → Prop where
  | nil (k : Kernel) : Run k [] k
  | snoc {k k' k'' : Kernel} {es : List Event} {e : Event} :
      Run k es k' → Step k' e k'' → Run k (es ++ [e]) k''

end BeetKernel.Kernel

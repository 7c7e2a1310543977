/-
# The ready queues

The queue part of `scheduler.rs`.  The ready threads of one priority form a circular doubly
linked list; all lists share one array of links, indexed by process and thread, and each
priority keeps one entry point, the thread to run next.
-/
import Mathlib.Data.List.FinRange
import BeetKernel.Lib.Exec
import BeetKernel.Definitions

namespace BeetKernel

open Function (update)

def maxProcessCount : Nat := 64
def maxThreadCount : Nat := 32
def irqTid : TID := 0
def initialTid : TID := 1

/-- `priority as usize` -/
def ThreadPriority.toIndex : ThreadPriority → Fin 16
  | idle => 0 | appBackground0 => 1 | appBackground1 => 2 | appDefault => 3
  | appHigh0 => 4 | appHigh1 => 5 | system0 => 6 | system1 => 7
  | system2 => 8 | system3 => 9 | system4 => 10 | system5 => 11
  | system6 => 12 | system7 => 13 | system8 => 14 | highest => 15

structure SchedulerLink where
  next : ThreadId
  prev : ThreadId
deriving DecidableEq

/-- `Scheduler`, without its CPU usage statistics. -/
structure Scheduler where
  queueHeads : Fin 16 → Option ThreadId
  links : ThreadId → Option SchedulerLink
  highestReadyPriority : Fin 16
  inIrqHandler : Bool

namespace Scheduler

/-- The scheduler before any thread is ready. -/
def empty : Scheduler :=
  { queueHeads := fun _ => none, links := fun _ => none, highestReadyPriority := 0
    inIrqHandler := false }

/-- The link array has an entry for the thread. -/
def InRange (t : ThreadId) : Prop := t.1.get ≤ maxProcessCount ∧ 1 ≤ t.2 ∧ t.2 ≤ maxThreadCount

instance (t : ThreadId) : Decidable (InRange t) := inferInstanceAs (Decidable (_ ∧ _ ∧ _))

def linkCopy (t : ThreadId) : Exec Scheduler Error (Option SchedulerLink) := do
  Exec.assert (InRange t) "index out of bounds"
  let s ← Exec.get
  pure (s.links t)

/-- A write through `Scheduler::link_mut`. -/
def setLink (t : ThreadId) (link : Option SchedulerLink) : Exec Scheduler Error Unit := do
  Exec.assert (InRange t) "index out of bounds"
  Exec.modify fun s => { s with links := update s.links t link }

def readyThread (t : ThreadId) (priority : ThreadPriority) : Exec Scheduler Error Unit := do
  if t.2 = irqTid then
    let s ← Exec.get
    Exec.assert (!s.inIrqHandler) "Multiple IRQ threads marked ready"
    Exec.modify fun s => { s with inIrqHandler := true }
  else
    let s ← Exec.get
    match s.queueHeads priority.toIndex with
    | none =>
      Exec.modify fun s =>
        { s with
          queueHeads := update s.queueHeads priority.toIndex (some t)
          highestReadyPriority :=
            if s.highestReadyPriority < priority.toIndex then priority.toIndex
            else s.highestReadyPriority }
      setLink t (some ⟨t, t⟩)
    | some head =>
      let link ← linkCopy t
      Exec.assert link.isNone "Thread linked twice"
      let headCopy ← Exec.expect "Queue head was not linked in" (← linkCopy head)
      setLink head (some ⟨headCopy.next, t⟩)
      let prev ← Exec.expect "Last queue element was not linked in" (← linkCopy headCopy.prev)
      setLink headCopy.prev (some { prev with next := t })
      setLink t (some ⟨head, headCopy.prev⟩)

/-- The highest priority below `p` that has a queue, or 0. -/
def highestBelow (queueHeads : Fin 16 → Option ThreadId) (p : Fin 16) : Fin 16 :=
  (((List.finRange 16).take p).reverse.find? (fun q => (queueHeads q).isSome)).getD 0

def parkThread (t : ThreadId) (priority : ThreadPriority) : Exec Scheduler Error Unit := do
  if t.2 = irqTid then
    let s ← Exec.get
    Exec.assert s.inIrqHandler "IRQ thread parked when not ready"
    Exec.modify fun s => { s with inIrqHandler := false }
  else
    let taken ← linkCopy t
    setLink t none
    let link ← Exec.expect "To-be-parked thread was not linked in" taken
    let s ← Exec.get
    if link.next = t then
      let heads := update s.queueHeads priority.toIndex none
      Exec.set { s with
        queueHeads := heads
        highestReadyPriority :=
          if priority.toIndex = s.highestReadyPriority then highestBelow heads priority.toIndex
          else s.highestReadyPriority }
    else
      if s.queueHeads priority.toIndex = some t then
        Exec.set { s with
          queueHeads := update s.queueHeads priority.toIndex (some link.next) }
      let prev ← Exec.expect "Prev queue element was not linked in" (← linkCopy link.prev)
      setLink link.prev (some { prev with next := link.next })
      let next ← Exec.expect "Next queue element was not linked in" (← linkCopy link.next)
      setLink link.next (some { next with prev := link.prev })

def yieldThread (t : ThreadId) (priority : ThreadPriority) : Exec Scheduler Error Unit := do
  let s ← Exec.get
  if s.queueHeads priority.toIndex = some t then
    let link ← Exec.expect "Yielded thread was not linked in" (← linkCopy t)
    Exec.set { s with
      queueHeads := update s.queueHeads priority.toIndex (some link.next) }

end Scheduler

end BeetKernel

/-
# The executor of the async runtime

`Executor::run` polls the tasks in rounds: it takes in what was spawned, polls every task whose
waker is set, in an order that starts one task later each time, and lets the reactor look for
messages and timers.  If nothing came of it, it waits for a message notification.

A loop iteration is `iterate`, and `Step` goes from the head of the loop to the next one; while
the executor waits, messages may arrive.  The `log` of the world records what happened to the
tasks.  It is not part of the source, and nothing but the statements reads it.
-/
import BeetKernel.AsyncRt.Reactor
import Mathlib.Logic.Relation

namespace BeetKernel.AsyncRt

variable {F S M : Type} [DecidableEq S]

/-! ## 1. The world of the executor -/

structure Task (F : Type) where
  future : F
  /-- The flag of its `TaskWaker`. -/
  ready : Bool
  completed : Bool

/-- A task with a new `TaskWaker`, which starts ready. -/
def Task.new (f : F) : Task F := ⟨f, true, false⟩

/-- What happens to tasks. -/
inductive Happening where
  | created (t : TaskId)
  | woken (t : TaskId)
  | polled (t : TaskId)
  | completed (t : TaskId)
deriving DecidableEq

/-- The executor, the reactor and the kernel's queues. -/
structure World (F S M : Type) where
  tasks : List (Task F)
  pollStart : Nat
  reactor : Reactor F S M
  mail : Mail S M
  log : List Happening

namespace World

/-- A waker of task `t` is called. -/
def wake (w : World F S M) (t : TaskId) : World F S M := { w with
    tasks := w.tasks.modify t fun task => { task with ready := true }
    log := w.log ++ [.woken t] }

def spawn (w : World F S M) (f : F) : World F S M :=
  { w with reactor := { w.reactor with spawnQueue := w.reactor.spawnQueue ++ [f] } }

def setTimers (w : World F S M) (timers : List TimerSlot) : World F S M :=
  { w with reactor := { w.reactor with timers := timers } }

def setServers (w : World F S M) (servers : List (ServerSlot S M)) : World F S M :=
  { w with reactor := { w.reactor with servers := servers } }

/-- Puts new tasks at the end of the vector. -/
def push (w : World F S M) (fs : List F) : World F S M := { w with
    tasks := w.tasks ++ fs.map Task.new
    log := w.log ++ (List.range' w.tasks.length fs.length).map .created }

/-- Phase 0: the tasks spawned at run time. -/
def drainSpawns (w : World F S M) : World F S M :=
  { w with reactor := { w.reactor with spawnQueue := [] } }.push w.reactor.spawnQueue

/-- `clear` of the waker of the task that is about to be polled. -/
def beginPoll (w : World F S M) (t : TaskId) : World F S M := { w with
    tasks := w.tasks.modify t fun task => { task with ready := false }
    log := w.log ++ [.polled t] }

/-- The poll of `t` has ended. -/
def endPoll (w : World F S M) (t : TaskId) : Option F → World F S M
  | none => { w with
      tasks := w.tasks.modify t fun task => { task with completed := true }
      log := w.log ++ [.completed t] }
  | some f => { w with tasks := w.tasks.modify t fun task => { task with future := f } }

end World

/-- A poll runs; `none` means that the future was ready. -/
def Prog.run : Prog F S M → World F S M → World F S M × Option F
  | .ready, w => (w, none)
  | .pending f, w => (w, some f)
  | .wake t next, w => next.run (w.wake t)
  | .spawn f next, w => next.run (w.spawn f)
  | .registerTimer delay next, w =>
    (next (AsyncRt.registerTimer w.reactor.tick delay w.reactor.timers).2).run
      (w.setTimers (AsyncRt.registerTimer w.reactor.tick delay w.reactor.timers).1)
  | .unregisterTimer id next, w => next.run (w.setTimers (AsyncRt.unregisterTimer w.reactor.timers id))
  | .timerExpired id next, w => (next (AsyncRt.timerExpired w.reactor.timers w.reactor.tick id)).run w
  | .setTimerWaker id t next, w => next.run (w.setTimers (AsyncRt.setTimerWaker w.reactor.timers id t))
  | .registerServer sid next, w =>
    (next (AsyncRt.registerServer sid w.reactor.servers).2).run
      (w.setServers (AsyncRt.registerServer sid w.reactor.servers).1)
  | .unregisterServer id next, w =>
    next.run (w.setServers (AsyncRt.unregisterServer w.reactor.servers id))
  | .serverActive id next, w => (next (AsyncRt.serverActive w.reactor.servers id)).run w
  | .tryRecv id next, w =>
    let (servers, mail, msg) := AsyncRt.tryRecv w.reactor.servers w.mail id
    (next msg).run { w.setServers servers with mail := mail }
  | .setServerWaker id t next, w => next.run (w.setServers (AsyncRt.setServerWaker w.reactor.servers id t))

theorem Prog.run_tryRecv (id : SlotId) (next : Option M → Prog F S M) (w : World F S M) :
    (Prog.tryRecv id next).run w = (next (AsyncRt.tryRecv w.reactor.servers w.mail id).2.2).run
        { w.setServers (AsyncRt.tryRecv w.reactor.servers w.mail id).1 with
          mail := (AsyncRt.tryRecv w.reactor.servers w.mail id).2.1 } := rfl

/-! ## 2. The loop -/

section
-- how the futures behave: a poll by a task
variable (poll : F → TaskId → Prog F S M)

/-- What phase 1 accumulates. -/
structure Phase (F S M : Type) where
  world : World F S M
  anyPending : Bool
  madeProgress : Bool

/-- The body of the poll loop for the task `t`. -/
def pollTask (p : Phase F S M) (t : TaskId) : Phase F S M :=
  match p.world.tasks[t]? with
  | none => p
  | some task =>
    if task.completed then p
    else
      let p := { p with anyPending := true }
      if !task.ready then p
      else
        let (w, result) := (poll task.future t).run (p.world.beginPoll t)
        { p with world := w.endPoll t result, madeProgress := p.madeProgress || result.isNone }

/-- The order of the polls: round robin from `poll_start` on. -/
def pollOrder (start count : Nat) : List TaskId := (List.range count).map fun i => (start + i) % count

/-- Phase 1. -/
def pollPhase (w : World F S M) : Phase F S M :=
  (pollOrder w.pollStart w.tasks.length).foldl (pollTask poll) ⟨w, false, false⟩

/-- Moves the start of the next round on. -/
def World.rotate (w : World F S M) (taskCount : Nat) : World F S M :=
  if taskCount > 0 then { w with pollStart := (w.pollStart + 1) % taskCount } else w

/-- Phase 2: the reactor, with whether it woke a task. -/
def World.pollReactor (w : World F S M) : World F S M × Bool :=
  let (reactor, mail, woken) := w.reactor.pollAll w.mail
  (woken.foldl World.wake { w with reactor := reactor, mail := mail }, !woken.isEmpty)

/-- How a loop iteration ends. -/
inductive Outcome where
  /-- `break` -/
  | returns
  /-- on to the next iteration -/
  | goesOn
  /-- `wait_event` first -/
  | waits
deriving DecidableEq

/-- One iteration of the loop of `Executor::run`. -/
def iterate (w : World F S M) : World F S M × Outcome :=
  let w := w.drainSpawns
  let p := pollPhase poll w
  let w := p.world.rotate w.tasks.length
  if !p.anyPending then (w, .returns)
  else
    let (w, woke) := w.pollReactor
    (w, if p.madeProgress || woke then .goesOn else .waits)

/-- From the head of the loop to the next one.  Messages arrive during `wait_event`. -/
inductive Step : World F S M → World F S M → Prop
  | goesOn {w w' : World F S M} (h : iterate poll w = (w', .goesOn)) : Step w w'
  | waits {w w' : World F S M} (batch : List (S × M)) (h : iterate poll w = (w', .waits)) :
      Step w { w' with mail := batch.foldl Mail.arrive w'.mail }

/-- The executor with the tasks spawned before `run`, when `run` starts its loop. -/
def start (fs : List F) (mail : Mail S M) : World F S M := World.push ⟨[], 0, .new, mail, []⟩ fs

/-- `w` is at the head of the loop in some run. -/
def Reached (fs : List F) (mail : Mail S M) (w : World F S M) : Prop :=
  Relation.ReflTransGen (Step poll) (start fs mail) w

end

end BeetKernel.AsyncRt

/-
# The reactor of the async runtime

`xous/async-rt`: tasks wait in the reactor for messages and timers, and submit new tasks to it.
`Reactor` is the global `ReactorInner`.  A waker is the number of the task whose flag it sets, so
the operations that wake return the tasks they wake.

The kernel is only seen through `try_receive_message`.  `Mail` holds what is waiting for every
server.  Other processes send while the runtime runs, so what arrives before each of the next
calls is given by a script: the interleavings of arrivals and calls are the scripts.

What a task does while it is polled is a `Prog`: calls of the reactor, and wake-ups, each followed
by what depends on the answer.
-/
import Mathlib.Algebra.Group.Nat.Defs
import Mathlib.Data.List.Basic

namespace BeetKernel.AsyncRt

abbrev TaskId := Nat
abbrev SlotId := Nat

variable {F S M : Type} [DecidableEq S]

/-! ## 1. Messages that wait in the kernel -/

structure Mail (S M : Type) where
  /-- What is waiting for a server, oldest first. -/
  inbox : S → List M
  /-- What arrives before each of the next calls. -/
  script : List (List (S × M))
  /-- Everything that has arrived for a server so far. -/
  arrived : S → List M

namespace Mail

/-- A message arrives. -/
def arrive (k : Mail S M) (x : S × M) : Mail S M := { k with
    inbox := Function.update k.inbox x.1 (k.inbox x.1 ++ [x.2])
    arrived := Function.update k.arrived x.1 (k.arrived x.1 ++ [x.2]) }

/-- What arrives before the next call. -/
def deliver (k : Mail S M) : Mail S M :=
  match k.script with
  | [] => k
  | batch :: rest => batch.foldl arrive { k with script := rest }

/-- `xous::try_receive_message`; an error is treated as no message by every caller. -/
def tryReceive (k : Mail S M) (sid : S) : Mail S M × Option M :=
  match k.deliver.inbox sid with
  | [] => (k.deliver, none)
  | m :: ms => ({ k.deliver with inbox := Function.update k.deliver.inbox sid ms }, some m)

/-- How many messages for `sid` there are, now and in the script. -/
def supply (k : Mail S M) (sid : S) : Nat := (k.inbox sid).length + (k.script.flatten.filter fun x => x.1 = sid).length

end Mail

/-! ## 2. Server slots -/

structure ServerSlot (S M : Type) where
  sid : S
  queue : List M
  waker : Option TaskId
  active : Bool

/-- `register_server`: the first inactive slot is used again. -/
def registerServer (sid : S) : List (ServerSlot S M) → List (ServerSlot S M) × SlotId
  | [] => ([⟨sid, [], none, true⟩], 0)
  | slot :: rest =>
    if !slot.active then (⟨sid, [], none, true⟩ :: rest, 0)
    else
      let (rest, id) := registerServer sid rest
      (slot :: rest, id + 1)

def unregisterServer (servers : List (ServerSlot S M)) (id : SlotId) : List (ServerSlot S M) :=
  servers.modify id fun slot => { slot with active := false, queue := [], waker := none }

def serverActive (servers : List (ServerSlot S M)) (id : SlotId) : Bool := (servers[id]?).elim false ServerSlot.active

/-- `try_recv`: a buffered message first, else one non-blocking receive. -/
def tryRecv (servers : List (ServerSlot S M)) (k : Mail S M) (id : SlotId) :
    List (ServerSlot S M) × Mail S M × Option M :=
  match servers[id]? with
  | none => (servers, k, none)
  | some slot =>
    if !slot.active then (servers, k, none)
    else match slot.queue with
      | m :: queue => (servers.set id { slot with queue := queue }, k, some m)
      | [] => (servers, k.tryReceive slot.sid)

def setServerWaker (servers : List (ServerSlot S M)) (id : SlotId) (waker : TaskId) : List (ServerSlot S M) :=
  servers.modify id fun slot => { slot with waker := some waker }

/-- The inner loop of `poll_servers`, which takes every message of one server.  It ends with the
messages there are, so one round more than their number is enough. -/
def drainSlot : Nat → ServerSlot S M → Mail S M → ServerSlot S M × Mail S M × List TaskId
  | 0, slot, k => (slot, k, [])
  | n + 1, slot, k =>
    match k.tryReceive slot.sid with
    | (k, none) => (slot, k, [])
    | (k, some m) =>
      let (slot', k, woken) := drainSlot n { slot with queue := slot.queue ++ [m], waker := none } k
      (slot', k, slot.waker.toList ++ woken)

/-- `poll_servers`, with the tasks it wakes. -/
def pollServers : List (ServerSlot S M) → Mail S M → List (ServerSlot S M) × Mail S M × List TaskId
  | [], k => ([], k, [])
  | slot :: rest, k =>
    if !slot.active then
      let (rest, k, woken) := pollServers rest k
      (slot :: rest, k, woken)
    else
      let (slot, k, woken) := drainSlot (k.supply slot.sid + 1) slot k
      let (rest, k, woken') := pollServers rest k
      (slot :: rest, k, woken ++ woken')

/-! ## 3. Timer slots -/

structure TimerSlot where
  deadlineTick : Nat
  waker : Option TaskId
  active : Bool
deriving DecidableEq

/-- The tick counter is a `u64`. -/
def ticks (n : Nat) : Nat := n % 2 ^ 64

/-- `register_timer`: the first inactive slot is used again. -/
def registerTimer (tick delay : Nat) : List TimerSlot → List TimerSlot × SlotId
  | [] => ([⟨ticks (tick + delay), none, true⟩], 0)
  | slot :: rest =>
    if !slot.active then (⟨ticks (tick + delay), none, true⟩ :: rest, 0)
    else
      let (rest, id) := registerTimer tick delay rest
      (slot :: rest, id + 1)

def unregisterTimer (timers : List TimerSlot) (id : SlotId) : List TimerSlot :=
  timers.modify id fun slot => { slot with active := false, waker := none }

def timerExpired (timers : List TimerSlot) (tick : Nat) (id : SlotId) : Bool :=
  (timers[id]?).elim false fun slot => slot.active && decide (tick ≥ slot.deadlineTick)

def setTimerWaker (timers : List TimerSlot) (id : SlotId) (waker : TaskId) : List TimerSlot :=
  timers.modify id fun slot => { slot with waker := some waker }

/-- The timer is due at the tick. -/
def TimerSlot.due (tick : Nat) (slot : TimerSlot) : Bool := slot.active && decide (tick ≥ slot.deadlineTick)

/-- `poll_timers` after the tick has been counted, with the tasks it wakes. -/
def pollTimers (tick : Nat) (timers : List TimerSlot) : List TimerSlot × List TaskId :=
  (timers.map fun slot => if slot.due tick then { slot with waker := none } else slot,
    (timers.filter (TimerSlot.due tick)).filterMap TimerSlot.waker)

/-! ## 4. The reactor -/

/-- `ReactorInner` -/
structure Reactor (F S M : Type) where
  servers : List (ServerSlot S M)
  timers : List TimerSlot
  tick : Nat
  spawnQueue : List F

def Reactor.new : Reactor F S M := ⟨[], [], 0, []⟩

/-- `poll_all`, with the tasks it wakes. -/
def Reactor.pollAll (r : Reactor F S M) (k : Mail S M) : Reactor F S M × Mail S M × List TaskId :=
  let (servers, k, woken) := pollServers r.servers k
  let tick := ticks (r.tick + 1)
  let (timers, woken') := pollTimers tick r.timers
  ({ r with servers := servers, tick := tick, timers := timers }, k, woken ++ woken')

/-! ## 5. What a task does while it is polled -/

/-- One poll of a future of type `F`: it is ready, or it is pending and polled later as `f`. -/
inductive Prog (F S M : Type) where
  | ready
  | pending (f : F)
  | wake (t : TaskId) (next : Prog F S M)
  | spawn (f : F) (next : Prog F S M)
  | registerTimer (delay : Nat) (next : SlotId → Prog F S M)
  | unregisterTimer (id : SlotId) (next : Prog F S M)
  | timerExpired (id : SlotId) (next : Bool → Prog F S M)
  | setTimerWaker (id : SlotId) (waker : TaskId) (next : Prog F S M)
  | registerServer (sid : S) (next : SlotId → Prog F S M)
  | unregisterServer (id : SlotId) (next : Prog F S M)
  | serverActive (id : SlotId) (next : Bool → Prog F S M)
  | tryRecv (id : SlotId) (next : Option M → Prog F S M)
  | setServerWaker (id : SlotId) (waker : TaskId) (next : Prog F S M)

/-- `Timer`: its slot, once it has one, and its delay. -/
structure Timer where
  slot : Option SlotId
  delay : Nat
deriving DecidableEq

/-- `Timer::poll` by the task `t`; `onReady` and `onPending` are the rest of the poll. -/
def Timer.poll (timer : Timer) (t : TaskId) (onReady : Prog F S M) (onPending : Timer → Prog F S M) : Prog F S M :=
  let wait := fun slot => .timerExpired slot fun expired =>
    if expired then .unregisterTimer slot onReady
    else .setTimerWaker slot t (onPending { timer with slot := some slot })
  match timer.slot with
  | some slot => wait slot
  | none => .registerTimer timer.delay wait

inductive RecvError where
  | serverGone
deriving DecidableEq

/-- `RecvFuture::poll` on the server in `slot` by the task `t`. -/
def recv (slot : SlotId) (t : TaskId) (onReady : Except RecvError M → Prog F S M)
    (onPending : Prog F S M) : Prog F S M :=
  .serverActive slot fun active =>
    if !active then onReady (.error .serverGone)
    else .tryRecv slot fun msg =>
      match msg with
      | some m => onReady (.ok m)
      | none => .setServerWaker slot t onPending

/-! ## 6. Slots are used again -/

/-- A slot `new` was put where the first inactive one was, or at the end. -/
def TakesFree {α : Type} (active : α → Bool) (new : α) (slots : List α) (r : List α × SlotId) : Prop :=
  r.1[r.2]? = some new ∧ (∀ slot, slots[r.2]? = some slot → active slot = false) ∧ ∀ j, j ≠ r.2 → r.1[j]? = slots[j]?

theorem takesFree_of_eqs {α : Type} {active : α → Bool} {new : α} {register : List α → List α × SlotId}
    (hnil : register [] = ([new], 0))
    (hcons : ∀ slot rest, register (slot :: rest) = if !active slot then (new :: rest, 0)
      else (slot :: (register rest).1, (register rest).2 + 1)) (slots : List α) :
    TakesFree active new slots (register slots) := by
  induction slots with
  | nil =>
    rw [hnil]
    refine ⟨rfl, by simp, fun j hj => ?_⟩
    cases j with
    | zero => exact absurd rfl hj
    | succ j => simp
  | cons slot rest ih =>
    rw [hcons]
    split
    next hfree =>
      refine ⟨rfl, fun s hs => ?_, fun j hj => ?_⟩
      · cases hs
        simpa using hfree
      · cases j with
        | zero => exact absurd rfl hj
        | succ j => rfl
    · obtain ⟨hnew, hfree, hothers⟩ := ih
      refine ⟨by simpa using hnew, fun s hs => hfree s (by simpa using hs), fun j hj => ?_⟩
      cases j with
      | zero => rfl
      | succ j => simpa using hothers j (by simpa using hj)

omit [DecidableEq S] in
theorem registerServer_spec (sid : S) (servers : List (ServerSlot S M)) :
    TakesFree ServerSlot.active ⟨sid, [], none, true⟩ servers (registerServer sid servers) :=
  takesFree_of_eqs rfl (fun _ _ => rfl) servers

theorem registerTimer_spec (tick delay : Nat) (slots : List TimerSlot) :
    TakesFree TimerSlot.active ⟨ticks (tick + delay), none, true⟩ slots (registerTimer tick delay slots) :=
  takesFree_of_eqs rfl (fun _ _ => rfl) slots

end BeetKernel.AsyncRt

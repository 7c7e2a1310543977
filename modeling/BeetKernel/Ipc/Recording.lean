/-
# A message whose memory has been passed on is recorded

`send_message_inner` asks `is_queue_full` first, then moves or lends the pages of the message, and
then looks for an empty slot.  For the second look to agree with the first, two things are needed:
the counter that `is_queue_full` reads must be the number of empty slots, and nothing may take the
last one in between.

The first holds in every state of a server.  The second does not: passing pages on may allocate
page tables, and when that makes memory low, processes that asked for it are sent an event, which
is a message like any other.
-/
import BeetKernel.Ipc.Replies

namespace BeetKernel

open Exec (Along post_bind post_get post_mono post wp unwrap EndsIn)

/-- The message is a move or a lend. -/
def Message.carriesMemory : Message → Bool
  | .scalar _ | .blockingScalar _ => false
  | .move _ | .mutableBorrow _ | .borrow _ => true

/-! ## 1. A queue with room -/

namespace Server

variable {s : Server}

/-- The counter is right, and so are the places where the searches start. -/
structure Counted (s : Server) : Prop where
  empties : s.emptyCount = s.queue.count .empty
  head : s.queueHead < s.queue.length
  tail : s.queueTail < s.queue.length

theorem Reachable.counted {n : Nat} (hn : 1 ≤ n) (h : Reachable n s) : s.Counted := by
  obtain ⟨pid, sid, backing, perms, s₀, ops, evs, hinit, hrun⟩ := h
  obtain ⟨d, pend, hrepr⟩ := QueueOp.execAll_repr ops (repr_init hn hinit) hrun
  exact ⟨hrepr.empties, hrepr.headLt, hrepr.tailLt⟩

/-- There is an empty slot for the search to find. -/
structure HasRoom (s : Server) : Prop where
  head : s.queueHead < s.queue.length
  empty : .empty ∈ s.queue

theorem Counted.hasRoom (h : s.Counted) (hfull : s.isQueueFull = false) : s.HasRoom := by
  refine ⟨h.head, List.count_pos_iff.mp ?_⟩
  rw [← h.empties]
  simpa [isQueueFull, Nat.pos_iff_ne_zero] using hfull

theorem HasRoom.findEmptySlot (h : s.HasRoom) : ∃ i s', Server.findEmptySlot s = .ok i s' := by
  rcases findEmptySlot_spec h.head with ⟨i, -, hrun⟩ | ⟨hnone, -⟩
  · exact ⟨i, _, hrun⟩
  · exact absurd h.empty hnone

theorem HasRoom.queueMessage (h : s.HasRoom) (pid : PID) (tid : TID) (m : Message) (orig : Option MemoryAddress) :
    post (Server.queueMessage pid tid m orig) (fun _ _ => True)
      (fun e _ => e ≠ .serverQueueFull) (fun _ => True) s := by
  obtain ⟨i, s', hrun⟩ := h.findEmptySlot
  unfold Server.queueMessage
  rw [post_bind]
  refine Exec.post_of_ok hrun ?_
  rw [post_bind, post_get]
  split
  next e he =>
    rw [Exec.post_throw]
    rintro rfl
    cases m <;> cases orig <;> cases he
  · simp

theorem HasRoom.queueResponse (h : s.HasRoom) (pid : PID) (tid : TID) (m : Message) (addr : Option MemoryAddress) :
    post (Server.queueResponse pid tid m addr) (fun _ _ => True)
      (fun e _ => e ≠ .serverQueueFull) (fun _ => True) s := by
  obtain ⟨i, s', hrun⟩ := h.findEmptySlot
  unfold Server.queueResponse
  rw [post_bind]
  refine Exec.post_of_ok hrun ?_
  rw [post_bind, post_get]
  split
  next e he =>
    rw [Exec.post_throw]
    rintro rfl
    cases m <;> cases addr <;> cases he
  · simp

theorem HasRoom.takeAvailableThread (h : s.HasRoom) {tid : TID} {s' : Server}
    (ht : s.takeAvailableThread = some (tid, s')) : s'.HasRoom := by
  unfold Server.takeAvailableThread at ht
  split at ht
  · cases ht
  · cases ht
    exact ⟨h.head, h.empty⟩

end Server

namespace Kernel

variable {k k' : Kernel} {sidx : Nat} {s : Server}

/-! ## 2. Recording -/

/-- Server `sidx` has room. -/
structure Room (k : Kernel) (sidx : Nat) : Prop where
  inTable : sidx < maxServerCount
  server : ∃ s, k.servers sidx = some s ∧ s.HasRoom

theorem Room.of_servers (h : Room k sidx) (hs : k'.servers = k.servers) : Room k' sidx := by
  refine ⟨h.inTable, ?_⟩
  rw [hs]
  exact h.server

/-- `m` does not find the queue full. -/
def NotRefused {α : Type} (m : KExec α) (k : Kernel) : Prop :=
  post m (fun _ _ => True) (fun e _ => e ≠ .serverQueueFull) (fun _ => True) k

theorem back_notRefused {result : Except Error Nat} (hr : ∀ e, result = .error e → e ≠ .serverQueueFull)
    (pid : PID) (msg : String) (k : Kernel) :
    NotRefused (do
      let _ ← unwrap (process pid) msg
      activateMapping pid
      Exec.ofExcept result) k := by
  have hends : EndsIn (· ≠ Error.serverQueueFull) (fun _ => True) (do
      let _ ← unwrap (process pid) msg
      activateMapping pid
      Exec.ofExcept result : KExec Nat) :=
    .bind (.unwrap (process_endsIn trivial trivial _) trivial) fun _ =>
      .bind (.modify _) fun _ => .ofExcept hr
  exact hends k

/-- What `queue_server_message` and `remember_server_message` have in common: they look the server
up, and work on its queue in its mapping. -/
theorem inMapping_room {m : Exec Server Error Nat} (h : Room k sidx) (pid : PID) (msg : String)
    (hm : ∀ s, s.HasRoom → post m (fun _ _ => True) (fun e _ => e ≠ .serverQueueFull) (fun _ => True) s) :
    NotRefused (do
      let s ← Exec.okOr .serverNotFound (← serverFromSidx sidx)
      let _ ← process s.pid
      activateMapping s.pid
      let result ← Exec.attempt (withQueue sidx m)
      let _ ← unwrap (process pid) msg
      activateMapping pid
      Exec.ofExcept result) k := by
  obtain ⟨s, hs, -⟩ := h.server
  rw [NotRefused, post_bind, post_serverFromSidx h.inTable, hs, post_bind, Exec.post_okOr]
  refine ⟨fun s' _ => ?_, fun hnone => nomatch hnone⟩
  rw [post_bind]
  refine post_process (fun _ _ _ => ?_) (fun _ => by simp) fun _ => trivial
  rw [post_bind, activateMapping, Exec.post_modify, post_bind, Exec.post_attempt]
  obtain ⟨hlt, s, hs, hroom⟩ := h
  refine post_withQueue hlt hs (fun _ => post_mono (hm s hroom) (fun n s1 _ => ?_) (fun e s1 he => ?_)
    fun _ h => h) trivial
  · exact back_notRefused (by intro e he; cases he) pid msg _
  · exact back_notRefused (fun e' h => (Except.error.inj h) ▸ he) pid msg _

theorem handOver_endsIn (t : ThreadId) (envelope : MessageEnvelope) :
    EndsIn (· ≠ Error.serverQueueFull) (fun _ => True) (handOver t envelope) :=
  .bind (.unwrap (.any _) trivial) fun _ =>
    .bind (setThreadState_endsIn (by decide) (fun _ _ => trivial) _ _) fun _ => .ignore (.any _)

theorem giveBack_endsIn {e : Error} (he : e ≠ .serverQueueFull) (sidx : Nat) (tid : TID) :
    EndsIn (· ≠ Error.serverQueueFull) (fun _ => True) (do
      withServer sidx (Server.returnAvailableThread tid)
      Exec.throw e : KExec Unit) := by
  have hfind : EndsIn (· ≠ Error.serverQueueFull) (fun _ => True) (serverFromSidx sidx) :=
    .ite (.pure _) (.bind (.assert trivial _) fun _ => .bind .get fun _ => .pure _)
  refine .bind (.bind hfind fun _ => .bind (.expect trivial _) fun _ => .zoom ?_) fun _ => .throw he
  exact .bind .get fun _ => .bind (.assert trivial _) fun _ => .set _

/-- **A message for a server with room is recorded**, or fails for another reason. -/
theorem deliverMessage_room (h : Room k sidx) (tid : TID) (m : Message)
    (addr : Option MemoryAddress) : NotRefused (deliverMessage tid sidx m addr) k := by
  obtain ⟨s, hs, hroom⟩ := h.server
  unfold deliverMessage
  rw [NotRefused, post_bind, post_get, post_bind, post_serverFromSidx h.inTable, hs, post_bind, Exec.post_expect]
  refine ⟨fun s' hs' => ?_, fun hnone => nomatch hnone⟩
  obtain rfl := Option.some.inj hs'
  split
  next serverTid s' htake =>
    have hroom' : Room (k.putServer sidx (some s')) sidx :=
      ⟨h.inTable, s', by simp [putServer], hroom.takeAvailableThread htake⟩
    rw [post_bind, post_setServer]
    split
    · rw [post_bind, Exec.post_attempt]
      refine post_mono (inMapping_room hroom' k.currentPid _ fun _ h => h.queueResponse k.currentPid tid m addr)
        (fun idx k1 _ => ?_) (fun e k1 he => ?_) fun _ h => h
      · exact handOver_endsIn _ _ k1
      · exact giveBack_endsIn he sidx serverTid k1
    · exact handOver_endsIn _ _ _
  · refine Exec.post_seq (inMapping_room h k.currentPid _ fun _ h => h.queueMessage k.currentPid tid m addr)
      (fun _ k1 _ => ?_) (fun _ _ h => h) fun _ h => h
    exact EndsIn.unwrap (.any _) trivial k1

/-! ## 3. Passing the pages on -/

/-- No process has asked to be told when memory is low. -/
def NobodyListens (k : Kernel) : Prop := ∀ pid p, k.processes pid = some p → p.eventHandlers .lowFreeMemory = none

/-- If nobody listens then the servers are the same, and still nobody listens. -/
def Unheard (k k' : Kernel) : Prop := NobodyListens k → k'.servers = k.servers ∧ NobodyListens k'

instance : IsPreorder Kernel Unheard where
  refl _ h := ⟨rfl, h⟩
  trans _ _ _ h1 h2 h := by
    obtain ⟨hs1, hl1⟩ := h1 h
    obtain ⟨hs2, hl2⟩ := h2 hl1
    exact ⟨hs2.trans hs1, hl2⟩

theorem sendEvent_unheard (pid : PID) (arg : Nat) : Along Unheard (sendEvent pid .lowFreeMemory arg) := by
  intro k
  by_cases hk : NobodyListens k
  · simp only [sendEvent, process, Exec.wp_bind, Exec.wp_assert, Exec.wp_get, Exec.wp_okOr]
    refine fun _ => ⟨fun p hp => ?_, fun _ => refl_of Unheard k⟩
    rw [hk pid p hp]
    exact refl_of Unheard k
  · refine Exec.wp_of_post (F := fun _ => True) (post_mono (EndsIn.any _ k)
      (fun _ _ _ h => absurd h hk) (fun _ _ _ h => absurd h hk) fun _ h => h)

theorem unheard_memory : MemoryFrame Unheard where
  memory _ _ _ _ h := ⟨rfl, h⟩
  area k pid p hint next hp h := by
    refine ⟨rfl, fun pid' p' hp' => ?_⟩
    rcases eq_or_ne pid' pid with rfl | hne
    · cases (Function.update_self ..).symm.trans hp'
      exact h pid' p hp
    · exact h pid' p' ((Function.update_of_ne hne ..).symm.trans hp')
  broadcast := .each fun _ _ => .bind .get fun _ => .ite (fun _ => sendEvent_unheard _ _) fun _ => .pure _

/-! ## 4. The claim about a whole send -/

/-- Once `send_message_inner` has passed its check, the step that records the message does not
find the queue full. -/
def Records (tid : TID) (sidx : Nat) (dest : PID) (k : Kernel) : Message → Prop
  | m@(.scalar _) | m@(.blockingScalar _) => NotRefused (deliverMessage tid sidx m none) k
  | .move msg => wp (sendMemory msg.buf.addr.get dest msg.buf.size.get)
      (fun _ k' => ∀ addr, NotRefused
        (deliverMessage tid sidx (.move { msg with buf := ⟨addr, msg.buf.size⟩ }) (some msg.buf.addr)) k')
      (fun _ _ => True) k
  | .mutableBorrow msg => wp (lendMemory msg.buf.addr.get dest msg.buf.size.get true)
      (fun _ k' => ∀ addr, NotRefused
        (deliverMessage tid sidx (.mutableBorrow { msg with buf := ⟨addr, msg.buf.size⟩ }) (some msg.buf.addr)) k')
      (fun _ _ => True) k
  | .borrow msg => wp (lendMemory msg.buf.addr.get dest msg.buf.size.get false)
      (fun _ k' => ∀ addr, NotRefused
        (deliverMessage tid sidx (.borrow { msg with buf := ⟨addr, msg.buf.size⟩ }) (some msg.buf.addr)) k')
      (fun _ _ => True) k

theorem records_scalar (h : Room k sidx) (tid : TID) (dest : PID) {m : Message}
    (hm : m.carriesMemory = false) : Records tid sidx dest k m := by
  cases m with
  | scalar | blockingScalar => exact deliverMessage_room h tid _ none
  | move | mutableBorrow | borrow => cases hm

/-- Passing pages on leaves the room there was, if nobody listens. -/
theorem passing_room {α : Type} {m : KExec α} {f : α → Kernel → Prop} (h : Room k sidx)
    (hm : Along Unheard m) (hl : NobodyListens k) (hf : ∀ a k', Room k' sidx → f a k') :
    wp m f (fun _ _ => True) k :=
  Exec.wp_mono (hm k) (fun a k' hk => hf a k' (h.of_servers (hk hl).1)) fun _ _ _ => trivial

theorem records_memory (h : Room k sidx) (hl : NobodyListens k) (tid : TID) (dest : PID) (m : Message) :
    Records tid sidx dest k m := by
  cases m with
  | scalar | blockingScalar => exact deliverMessage_room h tid _ none
  | move msg =>
    exact passing_room h (unheard_memory.sendMemory _ _ _) hl fun _ _ hroom _ =>
      deliverMessage_room hroom tid _ _
  | mutableBorrow msg | borrow msg =>
    exact passing_room h (unheard_memory.lendMemory _ _ _ _) hl fun _ _ hroom _ =>
      deliverMessage_room hroom tid _ _

end Kernel

namespace Machine

open Kernel Server

/-- A message is received and not answered, and 254 more wait. -/
def crowdingOps : List QueueOp :=
  [.queueMessage p3 initialTid (.blockingScalar ⟨0, 0, 0, 0, 0⟩) none, .takeNextMessage 0] ++
    List.replicate 254 (.queueMessage p4 initialTid (.scalar ⟨0, 0, 0, 0, 0⟩) none)

/-- One page more, and memory is low. -/
def scarceRam : MemoryManager := { wholeRam with
    allocations := fun i => if i < lowMemoryThreshold / pageSize then none else some p4
    freePagesZeroed := fun i => decide (i = 0)
    freePagesDirty := fun i => decide (0 < i ∧ i < lowMemoryThreshold / pageSize)
    numFreePages := lowMemoryThreshold / pageSize }

/-- Process 3 runs, and process 2 has asked its server to be told when memory is low. -/
def listening (s : Server) : Kernel := { start fun _ => 0 with
    mm := scarceRam
    servers := Function.update (fun _ => none) 0 (some s)
    processes := Function.update processes p2 (some { userProcess with
      eventHandlers := fun event => if event = .lowFreeMemory then some ⟨sid, 0⟩ else none })
    currentPid := p3
    activeMapping := p3 }

/-- A page that process 3 has not touched yet. -/
def untouched : MemoryMessage := ⟨0, ownPage, none, none⟩

/-- The server refuses a message whose page has been lent to it. -/
def lentAndRefused (k : Kernel) : Bool :=
  match lendMemory untouched.buf.addr.get p2 untouched.buf.size.get true k with
  | .ok _ k' =>
    match deliverMessage initialTid 0 (.mutableBorrow untouched) (some untouched.buf.addr) k' with
    | .err e _ => e == .serverQueueFull
    | _ => false
  | _ => false

end Machine

namespace Kernel

open Machine Server

theorem listening_servers (s : Server) : (listening s).servers 0 = some s := by
  simp [listening]

theorem exists_crowded : ∃ evs s, QueueOp.execAll crowdingOps (server (List.replicate slotCount .empty)) = .ok evs s ∧
      s.isQueueFull = false ∧ s.pid = p2 ∧ lentAndRefused (listening s) = true := by
  have hrun : (QueueOp.execAll crowdingOps (server (List.replicate slotCount .empty))).any (fun _ s =>
      !s.isQueueFull && decide (s.pid = p2) && lentAndRefused (listening s)) = true := by decide +kernel
  obtain ⟨evs, s, hs, hcrowded⟩ := Outcome.any_eq_true hrun
  simp only [Bool.and_eq_true, Bool.not_eq_true', decide_eq_true_eq] at hcrowded
  exact ⟨evs, s, hs, hcrowded.1.1, hcrowded.1.2, hcrowded.2⟩

end Kernel

end BeetKernel

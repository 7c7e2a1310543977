/-
# Whom a server owes a reply

A slot that holds a blocking message, or the reply owed for one, NAMES the thread that waits
for it.  The calls of `Server` are followed here for that alone: which slots name whom, which
receivers are parked, and whether the queue is still one of `Server/Fifo.lean`.
-/
import BeetKernel.Server.Fifo

namespace BeetKernel

open Exec (post_bind post_get post_mono post_pure post_set wp_bind wp_err wp_get wp_of_post wp_ok wp_pure wp_set post wp
  post_seq wp_seq)

variable {tid : TID} {m : Message} {q : QueuedMessage} {s : Server}

/-- The thread that waits for the reply to what the slot holds. -/
def QueuedMessage.caller : QueuedMessage → Option ThreadId
  | .blockingScalarMessage pid tid _ _ _ | .waitingReturnScalar pid tid
  | .memoryMessageROLend pid tid _ _ _ _ _ _ _ | .memoryMessageRWLend pid tid _ _ _ _ _ _ _
  | .waitingReturnMemory pid tid _ _ _ => some (pid, tid.toNat)
  | .empty | .scalarMessage .. | .memoryMessageSend .. | .memoryMessageROLendTerminated ..
  | .memoryMessageRWLendTerminated .. | .blockingScalarTerminated .. | .waitingForget ..
  | .waitingReturnScalarTerminated => none

/-- The thread a reply wakes. -/
def WaitingMessage.caller : WaitingMessage → Option ThreadId
  | .borrowedMemory pid tid _ | .scalarMessage pid tid => some (pid, tid)
  | .none | .scalarMessageTerminated | .forgetMemory _ => Option.none

namespace Server

/-- The thread that slot `i` names. -/
def caller (s : Server) (i : Nat) : Option ThreadId := s.queue[i]?.bind QueuedMessage.caller

/-- The queue is a FIFO queue, and no receiver is parked while a message is undelivered. -/
def Sound (s : Server) : Prop := ∃ n d pend, Repr s n d pend ∧ (s.readyThreads ≠ 0 → pend = [])

/-- The call left the process and the parked receivers alone. -/
def SameReceivers (s s' : Server) : Prop := s'.pid = s.pid ∧ s'.readyThreads = s.readyThreads

/-! ## 1. Slots -/

theorem caller_messageSlot {pid : PID} {g : UInt8} {orig : Option MemoryAddress}
    (h : messageSlot pid tid g orig m = .ok q) :
    q.caller = if m.isBlocking then some (pid, tid % 256) else none := by
  cases m <;> cases orig <;> cases h <;> simp [QueuedMessage.caller, Message.isBlocking]

theorem caller_responseSlot {pid : PID} {addr : Option MemoryAddress} (hm : m.isBlocking = true)
    (h : responseSlot pid tid addr m = .ok q) : q.caller = some (pid, tid % 256) := by
  cases m <;> cases addr <;> cases h <;> simp_all [QueuedMessage.caller, Message.isBlocking]

theorem caller_takeSlot {g : UInt8} {sidx i : Nat} {r : QueuedMessage} {env : MessageEnvelope}
    (h : takeSlot g sidx i q = some (env, r)) : r.caller = q.caller := by
  cases q <;> simp only [takeSlot, reduceCtorEq] at h <;> split at h <;> cases h <;> rfl

theorem caller_waitingSlot {buf : Option MemoryRange} {w : WaitingMessage}
    (h : waitingSlot buf q = .ok w) (hw : w ≠ .none) : w.caller = q.caller := by
  cases q <;> simp only [waitingSlot, Except.ok.injEq] at h <;> (try split at h) <;> cases h <;>
    first
    | rfl
    | exact absurd rfl hw

theorem caller_discardSlot (pid : PID) (q : QueuedMessage) :
    (discardSlot pid q).caller = q.caller.filter (fun t => t.1 ≠ pid) := by
  cases q <;> simp only [discardSlot] <;> (try split) <;>
    simp_all [QueuedMessage.caller, Option.filter]

theorem caller_set {i : Nat} {old : QueuedMessage} (hi : s.queue[i]? = some old)
    (j : Nat) : ({ s with queue := s.queue.set i q }).caller j =
      if j = i then q.caller else s.caller j := by
  have hlt := (getElem?_eq_some_iff.mp hi).1
  unfold caller
  rw [List.getElem?_set]
  by_cases h : i = j
  · subst h; simp [hlt]
  · simp [h, Ne.symm h]

/-! ## 2. The calls, slot by slot -/

/-- `queue_message` writes one empty slot; refused, it has only searched. -/
theorem queueMessage_caller (pid : PID) (tid : TID) (m : Message) (orig : Option MemoryAddress) (s : Server) :
    wp (queueMessage pid tid m orig) (fun i s' => SameReceivers s s' ∧ s.caller i = none ∧ ∀ j, s'.caller j =
        if j = i then (if m.isBlocking then some (pid, tid % 256) else none) else s.caller j)
      (fun _ s' => SameReceivers s s' ∧ s'.caller = s.caller) s := by
  unfold queueMessage
  refine wp_seq (wp_of_post (findEmptySlot_post s)) ?_ ?_
  · rintro i _ ⟨hi, rfl⟩
    simp only [wp_bind, wp_get]
    split
    · exact ⟨⟨rfl, rfl⟩, rfl⟩
    next slot hslot =>
      simp only [wp_bind, Exec.wp_assert, wp_set, wp_pure]
      refine fun _ _ => ⟨⟨rfl, rfl⟩, by simp [caller, hi, QueuedMessage.caller], fun j => ?_⟩
      rw [← caller_messageSlot hslot]
      exact caller_set hi j
  · rintro _ _ ⟨-, rfl, -⟩
    exact ⟨⟨rfl, rfl⟩, rfl⟩

theorem queueResponse_caller (pid : PID) (tid : TID) (hm : m.isBlocking = true)
    (addr : Option MemoryAddress) (s : Server) :
    wp (queueResponse pid tid m addr) (fun i s' => SameReceivers s s' ∧ s.caller i = none ∧
        ∀ j, s'.caller j = if j = i then some (pid, tid % 256) else s.caller j)
      (fun _ s' => SameReceivers s s' ∧ s'.caller = s.caller) s := by
  unfold queueResponse
  refine wp_seq (wp_of_post (findEmptySlot_post s)) ?_ ?_
  · rintro i _ ⟨hi, rfl⟩
    simp only [wp_bind, wp_get]
    split
    · exact ⟨⟨rfl, rfl⟩, rfl⟩
    next slot hslot =>
      simp only [wp_bind, Exec.wp_assert, wp_set, wp_pure]
      refine fun _ => ⟨⟨rfl, rfl⟩, by simp [caller, hi, QueuedMessage.caller], fun j => ?_⟩
      rw [← caller_responseSlot hm hslot]
      exact caller_set hi j
  · rintro _ _ ⟨-, rfl, -⟩
    exact ⟨⟨rfl, rfl⟩, rfl⟩

theorem takeNextFrom_caller (sidx : Nat) (s : Server) : ∀ (fuel i : Nat), wp (takeNextFrom sidx fuel i)
      (fun r s' => SameReceivers s s' ∧ s'.caller = s.caller ∧ (r = none → s' = s))
      (fun _ _ => False) s
  | 0, _ => trivial
  | fuel + 1, i => by
    unfold takeNextFrom
    simp only [wp_bind, wp_get]
    split
    · trivial
    next slot hi =>
      split
      next env r htake =>
        simp only [wp_bind, wp_set, wp_pure]
        refine ⟨⟨rfl, rfl⟩, funext fun j => ?_, by simp⟩
        have hset := caller_set (q := r) hi j
        rw [caller_takeSlot htake] at hset
        refine hset.trans ?_
        split
        next hj =>
          subst hj
          simp [caller, hi]
        · rfl
      · split
        · exact ⟨⟨rfl, rfl⟩, rfl, fun _ => rfl⟩
        · exact takeNextFrom_caller sidx s fuel _

theorem takeNextMessage_caller (sidx : Nat) (s : Server) : wp (takeNextMessage sidx)
      (fun r s' => SameReceivers s s' ∧ s'.caller = s.caller ∧ (r = none → s' = s))
      (fun _ _ => False) s := by
  unfold takeNextMessage
  simp only [wp_bind, wp_get]
  split
  · exact ⟨⟨rfl, rfl⟩, rfl, fun _ => rfl⟩
  · exact takeNextFrom_caller sidx s _ _

/-- `take_waiting_message` empties the slot it answers for, and changes nothing when it finds
no reply owed. -/
theorem takeWaitingMessage_caller (i : Nat) (buf : Option MemoryRange) (s : Server) : wp (takeWaitingMessage i buf)
      (fun w s' => SameReceivers s s' ∧ (w = .none → s' = s) ∧
        (w ≠ .none → s.caller i = w.caller ∧ ∀ j, s'.caller j = if j = i then none else s.caller j))
      (fun _ s' => s' = s) s := by
  unfold takeWaitingMessage
  simp only [wp_bind, wp_get, Exec.wp_okOr]
  refine ⟨fun q hi => ?_, fun _ => trivial⟩
  split
  · trivial
  · exact ⟨⟨rfl, rfl⟩, fun _ => rfl, fun h => absurd rfl h⟩
  next w hne hw =>
    simp only [wp_bind, wp_set, wp_pure]
    refine ⟨⟨rfl, rfl⟩, fun h => absurd h hne, fun hw' => ⟨?_, fun j => ?_⟩⟩
    · rw [caller_waitingSlot hw hw']
      simp [caller, hi]
    · exact caller_set (q := .empty) hi j

theorem caller_discardMessagesForPid (pid : PID) (s : Server) (i : Nat) :
    (s.discardMessagesForPid pid).caller i = (s.caller i).filter (fun t => t.1 ≠ pid) := by
  unfold caller discardMessagesForPid
  rw [List.getElem?_map]
  cases s.queue[i]? with
  | none => rfl
  | some q => exact caller_discardSlot pid q

/-! ## 3. Parked receivers -/

theorem takeAvailableThread_some {s' : Server} (h : s.takeAvailableThread = some (tid, s')) :
    s.readyThreads.getLsbD tid = true ∧ tid < 64 ∧ s'.pid = s.pid ∧ s'.caller = s.caller ∧
      (∀ j, s'.readyThreads.getLsbD j = (s.readyThreads.getLsbD j && decide (j ≠ tid))) ∧
      s' = { s with readyThreads := s'.readyThreads } := by
  unfold takeAvailableThread at h
  cases hf : (List.range 64).find? (s.readyThreads.getLsbD ·) with
  | none => rw [hf] at h; cases h
  | some t =>
    rw [hf] at h
    cases h
    have hlt : tid < 64 := List.mem_range.mp (List.mem_of_find?_eq_some hf)
    refine ⟨List.find?_some hf, hlt, rfl, rfl, fun j => ?_, rfl⟩
    simp only [BitVec.getLsbD_and, BitVec.getLsbD_not, BitVec.getLsbD_twoPow]
    by_cases hj : j < 64
    · by_cases h : tid = j <;> simp [h, hj, hlt, eq_comm]
    · simp [BitVec.getLsbD_of_ge s.readyThreads j (by omega)]

theorem takeAvailableThread_eq_none : s.takeAvailableThread = none ↔ s.readyThreads = 0 := by
  unfold takeAvailableThread
  cases hf : (List.range 64).find? (s.readyThreads.getLsbD ·) with
  | none =>
    refine ⟨fun _ => ?_, fun _ => rfl⟩
    apply BitVec.eq_of_getLsbD_eq
    intro i hi
    have := List.find?_eq_none.mp hf i (List.mem_range.mpr hi)
    simpa using this
  | some t =>
    refine ⟨fun h => by simp at h, fun h => ?_⟩
    have := List.find?_some hf
    simp [h] at this

theorem getLsbD_park {bits : BitVec 64} (h : tid < 64) (j : Nat) :
    (bits ||| BitVec.twoPow 64 tid).getLsbD j = (bits.getLsbD j || decide (j = tid)) := by
  simp only [BitVec.getLsbD_or, BitVec.getLsbD_twoPow]
  rw [decide_eq_true h, Bool.true_and, decide_eq_decide.mpr (eq_comm (a := tid))]

/-! ## 4. Soundness of the queue -/

namespace Sound

variable {s s' : Server}

theorem of_repr {n d : Nat} {pend : List Message} (h : Repr s n d pend)
    (hb : s.readyThreads ≠ 0 → pend = []) : s.Sound := ⟨n, d, pend, h, hb⟩

theorem generations (h : s.Sound) (hb : s.readyThreads ≠ 0) : s.tailGeneration = s.headGeneration := by
  obtain ⟨n, d, pend, hr, hp⟩ := h
  exact hr.generations_eq_iff.mpr (hp hb)

theorem mask (h : s.Sound) {bits : BitVec 64} (hb : bits ≠ 0 → s.tailGeneration = s.headGeneration) :
    Sound { s with readyThreads := bits } := by
  obtain ⟨n, d, pend, hr, _⟩ := h
  refine ⟨n, d, pend, ⟨hr.holds, hr.head, hr.tail, hr.empties, hr.headLt, hr.tailLt, hr.size⟩, ?_⟩
  intro hne
  exact hr.generations_eq_iff.mp (hb hne)

theorem permissions (h : s.Sound) (perms : MessagePermissions) :
    Sound { s with defaultPermissions := perms } := by
  obtain ⟨n, d, pend, hr, hb⟩ := h
  exact ⟨n, d, pend, ⟨hr.holds, hr.head, hr.tail, hr.empties, hr.headLt, hr.tailLt, hr.size⟩, hb⟩

theorem queueMessage (h : s.Sound) (hb : s.readyThreads = 0) (pid : PID) (tid : TID)
    (m : Message) (orig : Option MemoryAddress) :
    wp (Server.queueMessage pid tid m orig) (fun _ s' => s'.Sound) (fun _ s' => s'.Sound)
      s := by
  obtain ⟨n, d, pend, hr, hp⟩ := h
  have hbits := queueMessage_caller pid tid m orig s
  have hsound : ∀ {s' : Server} {pend' : List Message}, SameReceivers s s' →
      Repr s' n d pend' → s'.Sound := fun hs hr' =>
    .of_repr hr' fun hne => absurd (hs.2.trans hb) hne
  by_cases hroom : .empty ∈ s.queue
  · by_cases horig : m.isLend = true → orig.isSome = true
    · by_cases hfew : pend.length < 255
      · obtain ⟨i, s', hrun, hr', _⟩ := hr.queueMessage_ok pid tid m orig hroom hfew horig
        have hs := (wp_ok hbits hrun).1
        simp only [wp, hrun]
        exact hsound hs hr'
      · simp only [wp, hr.queueMessage_overflow pid tid m orig hroom hfew horig]
    · obtain ⟨s', hrun, hr'⟩ := hr.queueMessage_badArguments pid tid m orig hroom horig
      have hs := (wp_err hbits hrun).1
      simp only [wp, hrun]
      exact hsound hs hr'
  · simp only [wp, hr.queueMessage_full pid tid m orig hroom]
    exact ⟨n, d, pend, hr, hp⟩

theorem queueResponse (h : s.Sound) (pid : PID) (tid : TID) (hm : m.isBlocking = true) (addr : Option MemoryAddress) :
    wp (Server.queueResponse pid tid m addr) (fun _ s' => s'.Sound) (fun _ s' => s'.Sound)
      s := by
  obtain ⟨n, d, pend, hr, hp⟩ := h
  have hbits := queueResponse_caller pid tid hm addr s
  rcases hr.queueResponse_spec pid tid m addr with ⟨i, s', hrun, hr'⟩ | ⟨e, s', hrun, hr'⟩
  · have hs := (wp_ok hbits hrun).1
    simp only [wp, hrun]
    exact .of_repr hr' fun hne => hp (hs.2 ▸ hne)
  · have hs := (wp_err hbits hrun).1
    simp only [wp, hrun]
    exact .of_repr hr' fun hne => hp (hs.2 ▸ hne)

/-- A sound queue with an undelivered message hands one out; without, it hands out nothing. -/
theorem takeNextMessage (h : s.Sound) (sidx : Nat) : wp (Server.takeNextMessage sidx)
      (fun r s' => s'.Sound ∧ (r = none → s.tailGeneration = s.headGeneration))
      (fun _ _ => False) s := by
  obtain ⟨n, d, pend, hr, hp⟩ := h
  have hbits := takeNextMessage_caller sidx s
  cases pend with
  | nil =>
    simp only [wp, hr.takeNextMessage_nil sidx]
    exact ⟨⟨n, d, [], hr, hp⟩, fun _ => hr.generations_eq_iff.mpr rfl⟩
  | cons m pend =>
    obtain ⟨env, s', hrun, _, hr'⟩ := hr.takeNextMessage_cons sidx
    have hs := (wp_ok hbits hrun).1
    simp only [wp, hrun]
    refine ⟨.of_repr hr' fun hne => ?_, by simp⟩
    have := hp (hs.2 ▸ hne)
    cases this

theorem takeWaitingMessage (h : s.Sound) (i : Nat) (buf : Option MemoryRange) :
    wp (Server.takeWaitingMessage i buf) (fun _ s' => s'.Sound) (fun _ s' => s'.Sound)
      s := by
  obtain ⟨n, d, pend, hr, hp⟩ := h
  have hbits := takeWaitingMessage_caller i buf s
  rcases hr.takeWaitingMessage_spec i buf with ⟨w, s', hrun, hr'⟩ | ⟨e, s', hrun, hr'⟩
  · have hs := (wp_ok hbits hrun).1
    simp only [wp, hrun]
    exact .of_repr hr' fun hne => hp (hs.2 ▸ hne)
  · have hs := wp_err hbits hrun
    simp only [wp, hrun]
    exact .of_repr hr' fun hne => hp (hs ▸ hne)

theorem discardMessagesForPid (h : s.Sound) (pid : PID) : (s.discardMessagesForPid pid).Sound := by
  obtain ⟨n, d, pend, hr, hp⟩ := h
  exact ⟨n, d, pend, hr.discardMessagesForPid pid, hp⟩

end Sound

/-! ## 5. Slot numbers stay in range

This holds of every queue, whatever its slots held in the beginning. -/

/-- Both searches start within the queue. -/
def InBounds (s : Server) : Prop := s.queueHead < s.queue.length ∧ s.queueTail < s.queue.length

/-- The ways in which an operation on a queue can panic. -/
def queuePanics : List String :=
  ["index out of bounds", "attempt to subtract with overflow", "assertion `left != right` failed", "out of fuel"]

/-- A queue operation panics with one of these, and with the first only out of bounds. -/
def Overrun (s : Server) (msg : String) : Prop := msg ∈ queuePanics ∧ (msg = "index out of bounds" → ¬ s.InBounds)

theorem Overrun.of_ne {msg : String} (h : msg ∈ queuePanics)
    (hne : msg ≠ "index out of bounds") : s.Overrun msg := ⟨h, fun heq => absurd heq hne⟩

/-- What an operation on the queue has to respect. -/
abbrev Bounded {α : Type} (m : Exec Server Error α) (s : Server) : Prop :=
  post m (fun _ s' => s.InBounds → s'.InBounds) (fun _ s' => s.InBounds → s'.InBounds) s.Overrun s

theorem findEmptySlot_bounded (s : Server) : post findEmptySlot (fun _ s' => s.InBounds → s'.InBounds)
    (fun _ s' => s.InBounds → s'.InBounds) s.Overrun s := by
  refine post_mono (findEmptySlot_post s) ?_ ?_ ?_
  · rintro i _ ⟨-, rfl⟩ hs
    exact ⟨nextIndex_lt i (by have := hs.1; omega), hs.2⟩
  · rintro _ _ ⟨-, rfl, -⟩ hs
    exact hs
  · rintro _ ⟨rfl, h⟩
    exact ⟨by simp [queuePanics], fun _ hs => h hs.1⟩

theorem queueMessage_bounded (pid : PID) (tid : TID) (m : Message) (orig : Option MemoryAddress)
    (s : Server) : Bounded (queueMessage pid tid m orig) s := by
  unfold Bounded queueMessage
  refine post_seq (findEmptySlot_bounded s) ?_ (fun _ _ h => h) (fun _ h => h)
  intro i s1 hs1
  simp only [post_bind, post_get]
  split
  · exact hs1
  · simp only [post_bind, Exec.post_assert, post_set, post_pure]
    refine ⟨fun _ => ⟨fun _ hs => ?_, fun _ => .of_ne (by simp [queuePanics]) (by decide)⟩,
      fun _ => .of_ne (by simp [queuePanics]) (by decide)⟩
    simpa [InBounds] using hs1 hs

theorem queueResponse_bounded (pid : PID) (tid : TID) (m : Message) (addr : Option MemoryAddress)
    (s : Server) : Bounded (queueResponse pid tid m addr) s := by
  unfold Bounded queueResponse
  refine post_seq (findEmptySlot_bounded s) ?_ (fun _ _ h => h) (fun _ h => h)
  intro i s1 hs1
  simp only [post_bind, post_get]
  split
  · exact hs1
  · simp only [post_bind, Exec.post_assert, post_set, post_pure]
    refine ⟨fun _ hs => ?_, fun _ => .of_ne (by simp [queuePanics]) (by decide)⟩
    simpa [InBounds] using hs1 hs

theorem takeNextFrom_bounded (sidx : Nat) (s : Server) : ∀ (fuel i : Nat),
    (s.InBounds → i < s.queue.length) → Bounded (takeNextFrom sidx fuel i) s
  | 0, _, _ => .of_ne (by simp [queuePanics]) (by decide)
  | fuel + 1, i, hi => by
    unfold takeNextFrom Bounded
    simp only [post_bind, post_get]
    split
    next hq =>
      refine ⟨by simp [queuePanics], fun _ hs => ?_⟩
      exact absurd (hi hs) (by simpa using hq)
    · split
      · simp only [post_bind, post_set, post_pure]
        intro hs
        have hlen : 0 < s.queue.length := by have := hs.1; omega
        refine ⟨by simpa using hs.1, ?_⟩
        simpa using nextIndex_lt i hlen
      · split
        · exact id
        · exact takeNextFrom_bounded sidx s fuel _ fun hs =>
            nextIndex_lt i (by have := hs.1; omega)

theorem takeNextMessage_bounded (sidx : Nat) (s : Server) : Bounded (takeNextMessage sidx) s := by
  unfold takeNextMessage Bounded
  simp only [post_bind, post_get]
  split
  · exact id
  · exact takeNextFrom_bounded sidx s _ _ fun hs => hs.2

theorem takeWaitingMessage_bounded (i : Nat) (buf : Option MemoryRange) (s : Server) :
    Bounded (takeWaitingMessage i buf) s := by
  unfold takeWaitingMessage Bounded
  simp only [post_bind, post_get, Exec.post_okOr]
  refine ⟨fun q hq => ?_, fun _ => id⟩
  split
  · exact id
  · exact id
  · simp only [post_bind, post_set, post_pure]
    intro hs
    have hlen : 0 < s.queue.length := by have := hs.1; omega
    refine ⟨by simpa using hs.1, ?_⟩
    simpa using nextIndex_lt i hlen

theorem InBounds.discardMessagesForPid (h : s.InBounds) (pid : PID) : (s.discardMessagesForPid pid).InBounds := by
  simpa [InBounds, Server.discardMessagesForPid] using h

end Server

end BeetKernel

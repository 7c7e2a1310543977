/-
# The server queue is a FIFO queue

The slots of a server are filled and emptied in no particular order, so nothing about their
POSITIONS says which message comes next.  What does is the generation in each slot: the
message accepted as number `k` carries `k` modulo 256.  `Holds queue d pend` states the whole
argument: the undelivered messages `pend` have the numbers `d`, `d + 1`, … in order, each sits
in exactly one slot under its own generation, and no other slot holds a message.  With at most
255 of them undelivered the generations are distinct, so the search for the head generation
finds exactly the oldest message.

`Repr` adds the counters of the server, each operation gets one lemma saying what it does to
`pend`, and `queue_fifo` follows by induction over the operations.  The bound 255 is not an
accident of the proof: `queueMessage_overflow` shows what the 256th undelivered message does.
-/
import Mathlib.Data.Nat.ModEq
import BeetKernel.Lib.Fifo
import BeetKernel.Platform
import BeetKernel.Server.Queue

namespace BeetKernel

open List (length_append length_singleton count_pos_iff count_set)
open Exec (bind_err bind_ok bind_run get_bind_run attempt post post_bind post_get post_mono)

variable {g : UInt8} {i n : Nat} {q r : QueuedMessage} {m : Message} {pid : PID} {s : Server}
variable {sidx backing : Nat} {tid : TID} {orig : Option MemoryAddress} {queue : List QueuedMessage}
  {sid : SID} {perms : MessageRange}

/-! ## 1. What a slot holds -/

@[simp] theorem QueuedMessage.pending_empty : QueuedMessage.empty.pending = none := rfl

namespace Server

/-- `take_next_message` picks a slot only for a message of the head generation, hands out
that message, and leaves a slot that holds no message. -/
theorem takeSlot_some {env : MessageEnvelope} (h : takeSlot g sidx i q = some (env, r)) :
    q.pending = some (g, env.body) ∧ r.pending = none := by
  cases q <;> simp only [takeSlot, reduceCtorEq] at h <;> split at h <;> cases h <;>
    simp_all [QueuedMessage.pending]

/-- It passes over every slot that holds no message of the head generation. -/
theorem takeSlot_eq_none (h : ∀ m, q.pending ≠ some (g, m)) : takeSlot g sidx i q = none := by
  cases ht : takeSlot g sidx i q with
  | none => rfl
  | some p => exact absurd (takeSlot_some (r := p.2) ht).1 (h _)

theorem takeSlot_isSome (sidx i : Nat) (h : q.pending = some (g, m)) : ∃ p, takeSlot g sidx i q = some p := by
  cases q <;> simp only [QueuedMessage.pending, Option.some.injEq, Prod.mk.injEq,
    reduceCtorEq] at h <;> simp [takeSlot, h.1]

theorem messageSlot_pending (h : messageSlot pid tid g orig m = .ok q) : q.pending = some (g, m) := by
  cases m with
  | scalar m => cases h; rfl
  | blockingScalar m => cases h; rfl
  | move m => cases h; simp [QueuedMessage.pending]
  | mutableBorrow m =>
    cases orig with
    | none => cases h
    | some a => cases h; simp [QueuedMessage.pending]
  | borrow m =>
    cases orig with
    | none => cases h
    | some a => cases h; simp [QueuedMessage.pending]

/-- A message is refused only when it lends memory whose original address is not given. -/
theorem messageSlot_ok (pid : PID) (tid : TID) (g : UInt8) (h : m.isLend = true → orig.isSome = true) :
    ∃ q, messageSlot pid tid g orig m = .ok q := by
  cases m <;> cases orig <;> simp_all [messageSlot, Message.isLend]

theorem responseSlot_pending {addr : Option MemoryAddress} (h : responseSlot pid tid addr m = .ok q) :
    q.pending = none ∧ q ≠ .empty := by
  cases m <;> cases addr <;> simp only [responseSlot, Except.ok.injEq, reduceCtorEq] at h <;>
    subst h <;> simp [QueuedMessage.pending]

theorem waitingSlot_pending {buf : Option MemoryRange} {w : WaitingMessage}
    (h : waitingSlot buf q = .ok w) (hw : w ≠ .none) : q.pending = none ∧ q ≠ .empty := by
  cases q <;> simp only [waitingSlot, Except.ok.injEq] at h <;>
    first
    | exact absurd h.symm hw
    | exact ⟨rfl, by simp⟩

/-- **Termination of a client leaves its messages where they are.** -/
theorem discardSlot_pending (pid : PID) (q : QueuedMessage) : (discardSlot pid q).pending = q.pending := by
  cases q <;> simp only [discardSlot] <;> split <;> rfl

/-! ## 2. The undelivered messages of a slot array -/

/-- The undelivered message in slot `i`. -/
def pendingAt (queue : List QueuedMessage) (i : Nat) : Option (UInt8 × Message) := queue[i]?.bind QueuedMessage.pending

theorem pendingAt_set (hi : i < queue.length) (q : QueuedMessage) (k : Nat) :
    pendingAt (queue.set i q) k = if k = i then q.pending else pendingAt queue k := by
  unfold pendingAt
  rw [List.getElem?_set]
  by_cases h : i = k
  · subst h; simp [hi]
  · rw [if_neg h, if_neg (Ne.symm h)]

theorem pendingAt_lt {p : UInt8 × Message} (h : pendingAt queue i = some p) : i < queue.length := by
  by_contra hi
  simp [pendingAt, List.getElem?_eq_none (Nat.le_of_not_lt hi)] at h

/-- The generation of message number `k`. -/
def generation (k : Nat) : UInt8 := UInt8.ofNat k

theorem generation_succ (k : Nat) : generation k + 1 = generation (k + 1) := by
  simp [generation, UInt8.ofNat_add]

theorem generation_inj {a b : Nat} (h : generation a = generation b) (hab : a ≤ b) (hb : b < a + 256) : a = b := by
  have h' : a % 256 = b % 256 := by
    have := congrArg UInt8.toNat h
    simpa [generation] using this
  omega

/-- The slot array `queue` holds exactly the undelivered messages `pend`, numbered from
`d` on. -/
structure Holds (queue : List QueuedMessage) (d : Nat) (pend : List Message) : Prop where
  slot : ∀ j m, pend[j]? = some m → ∃ i, pendingAt queue i = some (generation (d + j), m)
  only : ∀ i g m, pendingAt queue i = some (g, m) → ∃ j, pend[j]? = some m ∧ g = generation (d + j)
  uniq : ∀ i i' g m m', pendingAt queue i = some (g, m) → pendingAt queue i' = some (g, m') → i = i'
  few : pend.length ≤ 255
  count : queue.countP (fun q => q.pending.isSome) = pend.length

namespace Holds

variable {queue : List QueuedMessage} {d : Nat} {pend : List Message}

theorem of_pendingAt_eq {queue' : List QueuedMessage} (h : Holds queue d pend)
    (hat : ∀ i, pendingAt queue' i = pendingAt queue i)
    (hc : queue'.countP (fun q => q.pending.isSome) =
      queue.countP (fun q => q.pending.isSome)) : Holds queue' d pend where
  slot := fun j m hj => by simpa only [hat] using h.slot j m hj
  only := fun i g m hi => h.only i g m (by rwa [hat] at hi)
  uniq := fun i i' g m m' hi hi' => h.uniq i i' g m m' (by rwa [hat] at hi) (by rwa [hat] at hi')
  few := h.few
  count := hc.trans h.count

theorem set_of_pending_none (h : Holds queue d pend)
    (hi : queue[i]? = some q) (hq : q.pending = none) (hr : r.pending = none) :
    Holds (queue.set i r) d pend := by
  obtain ⟨hlt, hget⟩ := getElem?_eq_some_iff.mp hi
  refine h.of_pendingAt_eq (fun k => ?_) ?_
  · rw [pendingAt_set hlt]
    split
    next hk =>
      subst hk
      simp [pendingAt, hi, hq, hr]
    · rfl
  · rw [List.countP_set hlt, hget, hq, hr]
    simp

/-- **Accepting a message.**  It goes into an empty slot under the next generation. -/
theorem enqueue (h : Holds queue d pend)
    (hi : queue[i]? = some .empty) (hq : q.pending = some (generation (d + pend.length), m))
    (hlen : pend.length < 255) : Holds (queue.set i q) d (pend ++ [m]) := by
  obtain ⟨hlt, hget⟩ := getElem?_eq_some_iff.mp hi
  have hold : pendingAt queue i = none := by simp [pendingAt, hi]
  -- The new generation is carried by no slot yet.
  have hfresh : ∀ k m', pendingAt queue k ≠ some (generation (d + pend.length), m') := by
    intro k m' hk
    obtain ⟨j, hj, hg⟩ := h.only _ _ _ hk
    have hjl : j < pend.length := (getElem?_eq_some_iff.mp hj).1
    have := generation_inj hg.symm (by omega) (by omega)
    omega
  refine ⟨?_, ?_, ?_, by rw [length_append, length_singleton]; omega, ?_⟩
  · intro j m' hj
    rcases Nat.lt_or_ge j pend.length with hjl | hjl
    · rw [List.getElem?_append_left hjl] at hj
      obtain ⟨k, hk⟩ := h.slot j m' hj
      refine ⟨k, ?_⟩
      rw [pendingAt_set hlt, if_neg, hk]
      intro hki
      rw [hki, hold] at hk
      cases hk
    · rw [List.getElem?_append_right hjl, List.getElem?_singleton] at hj
      split at hj
      · cases hj
        refine ⟨i, ?_⟩
        rw [pendingAt_set hlt, if_pos rfl, hq, show j = pend.length by omega]
      · cases hj
  · intro k g m' hk
    rw [pendingAt_set hlt] at hk
    split at hk
    · rw [hq] at hk
      cases hk
      exact ⟨pend.length, by simp, rfl⟩
    · obtain ⟨j, hj, hg⟩ := h.only _ _ _ hk
      have hjl : j < pend.length := (getElem?_eq_some_iff.mp hj).1
      exact ⟨j, by rw [List.getElem?_append_left hjl, hj], hg⟩
  · intro k k' g m1 m2 hk hk'
    rw [pendingAt_set hlt] at hk hk'
    split at hk <;> split at hk'
    · omega
    · rw [hq] at hk; cases hk; exact absurd hk' (hfresh _ _)
    · rw [hq] at hk'; cases hk'; exact absurd hk (hfresh _ _)
    · exact h.uniq _ _ _ _ _ hk hk'
  · rw [List.countP_set hlt, hget, hq, h.count]
    simp

/-- **Delivering a message.**  The slot found under the head generation holds the oldest
message, and what remains is numbered from the next number on. -/
theorem dequeue {m' : Message} (h : Holds queue d pend)
    (hi : pendingAt queue i = some (generation d, m')) (hr : r.pending = none) :
    ∃ rest, pend = m' :: rest ∧ Holds (queue.set i r) (d + 1) rest := by
  have hlt := pendingAt_lt hi
  have hold : (queue[i]).pending = some (generation d, m') := by
    simpa [pendingAt, List.getElem?_eq_getElem hlt] using hi
  obtain ⟨j, hj, hg⟩ := h.only _ _ _ hi
  have hjl : j < pend.length := (getElem?_eq_some_iff.mp hj).1
  have hj0 : j = 0 := by
    have := generation_inj hg (by omega) (by have := h.few; omega)
    omega
  subst hj0
  cases pend with
  | nil => simp at hjl
  | cons m rest =>
    simp only [List.getElem?_cons_zero, Option.some.injEq] at hj
    subst hj
    have hfew := h.few
    simp only [List.length_cons] at hfew
    -- Nothing but the slot `i` carries the generation of a delivered message.
    have hne : ∀ k g m1, k ≠ i → pendingAt queue k = some (g, m1) → g ≠ generation d := by
      intro k g m1 hk hat hgd
      subst hgd
      exact hk (h.uniq _ _ _ _ _ hat hi)
    refine ⟨rest, rfl, ?_, ?_, ?_, by omega, ?_⟩
    · intro j m1 hj
      obtain ⟨k, hk⟩ := h.slot (j + 1) m1 (by simpa using hj)
      rw [show d + (j + 1) = d + 1 + j by omega] at hk
      refine ⟨k, ?_⟩
      rw [pendingAt_set hlt, if_neg, hk]
      intro hki
      rw [hki, hi] at hk
      have hjl : j < rest.length := (getElem?_eq_some_iff.mp hj).1
      have := generation_inj (congrArg Prod.fst (Option.some.inj hk)) (by omega) (by omega)
      omega
    · intro k g m1 hk
      rw [pendingAt_set hlt] at hk
      split at hk
      · rw [hr] at hk; cases hk
      next hki =>
        obtain ⟨j, hj, hg⟩ := h.only _ _ _ hk
        cases j with
        | zero => exact absurd hg (hne k g m1 hki hk)
        | succ j => exact ⟨j, by simpa using hj, by rw [hg]; congr 1; omega⟩
    · intro k k' g m1 m2 hk hk'
      rw [pendingAt_set hlt] at hk hk'
      split at hk
      · rw [hr] at hk; cases hk
      · split at hk'
        · rw [hr] at hk'; cases hk'
        · exact h.uniq _ _ _ _ _ hk hk'
    · have hc := h.count
      rw [List.countP_set hlt, hold, hr, hc]
      simp

end Holds

/-- Each message has a slot of its own, and that slot is not empty. -/
theorem countP_pending_add_count_empty_le (queue : List QueuedMessage) :
    queue.countP (fun q => q.pending.isSome) + queue.count .empty ≤ queue.length := by
  induction queue with
  | nil => simp
  | cons q queue ih =>
    rw [List.countP_cons, List.count_cons, List.length_cons]
    by_cases hq : q = .empty
    · subst hq; simp only [QueuedMessage.pending_empty]; simp; omega
    · have : (q == QueuedMessage.empty) = false := by simpa using hq
      rw [this]
      split <;> simp <;> omega

/-! ## 3. The server -/

/-- The server `s` has `n` slots and the undelivered messages `pend`, numbered from `d` on,
and its counters agree with its slots. -/
structure Repr (s : Server) (n d : Nat) (pend : List Message) : Prop where
  holds : Holds s.queue d pend
  head : s.headGeneration = generation d
  tail : s.tailGeneration = generation (d + pend.length)
  empties : s.emptyCount = s.queue.count .empty
  headLt : s.queueHead < s.queue.length
  tailLt : s.queueTail < s.queue.length
  size : s.queue.length = n

theorem nextIndex_lt (i : Nat) (h : 0 < s.queue.length) : s.nextIndex i < s.queue.length := by
  unfold nextIndex
  split <;> omega

/-! ### Finding an empty slot -/

theorem findEmptySlotIn_post (l : List Nat) : post (findEmptySlotIn l)
    (fun i s' => s.queue[i]? = some .empty ∧ s' = { s with queueHead := s.nextIndex i })
    (fun e s' => e = .serverQueueFull ∧ s' = s ∧ ∀ i ∈ l, s.queue[i]? ≠ some .empty)
    (fun msg => msg = "index out of bounds" ∧ ∃ i ∈ l, s.queue.length ≤ i) s := by
  induction l with
  | nil => exact ⟨rfl, rfl, by simp⟩
  | cons i l ih =>
    unfold findEmptySlotIn
    simp only [post_bind, post_get]
    split
    next hi =>
      exact ⟨rfl, i, by simp, by simpa using hi⟩
    next hi =>
      exact ⟨hi, rfl⟩
    next hne hi =>
      refine post_mono ih (fun _ _ h => h) ?_ ?_
      · rintro e s' ⟨he, hs, hnone⟩
        exact ⟨he, hs, List.forall_mem_cons.mpr ⟨by simpa [hi] using hne, hnone⟩⟩
      · rintro msg ⟨hmsg, k, hk, hlt⟩
        exact ⟨hmsg, k, by simp [hk], hlt⟩

/-- **`find_empty_slot` finds an empty slot whenever there is one**, and changes nothing but
the place where the next search starts. -/
theorem findEmptySlot_post (s : Server) : post findEmptySlot
    (fun i s' => s.queue[i]? = some .empty ∧ s' = { s with queueHead := s.nextIndex i })
    (fun e s' => e = .serverQueueFull ∧ s' = s ∧ .empty ∉ s.queue)
    (fun msg => msg = "index out of bounds" ∧ ¬ s.queueHead < s.queue.length) s := by
  unfold findEmptySlot
  rw [post_bind, post_get]
  refine post_mono (findEmptySlotIn_post _) (fun _ _ h => h) ?_ ?_
  · rintro e s' ⟨he, hs, hnone⟩
    refine ⟨he, hs, fun hin => ?_⟩
    obtain ⟨i, hi, hget⟩ := List.getElem_of_mem hin
    refine hnone i ?_ (by rw [List.getElem?_eq_getElem hi, hget])
    simp only [List.mem_append, List.mem_range'_1, List.mem_range]
    omega
  · rintro msg ⟨hmsg, i, hi, hlt⟩
    simp only [List.mem_append, List.mem_range'_1, List.mem_range] at hi
    exact ⟨hmsg, by omega⟩

theorem findEmptySlot_spec (h : s.queueHead < s.queue.length) : (∃ i, s.queue[i]? = some .empty ∧
      findEmptySlot s = .ok i { s with queueHead := s.nextIndex i }) ∨
    (.empty ∉ s.queue ∧ findEmptySlot s = .err .serverQueueFull s) := by
  have hpost := findEmptySlot_post s
  cases hrun : findEmptySlot s <;> simp only [post, hrun] at hpost
  · exact .inl ⟨_, hpost.1, by rw [hpost.2]⟩
  · exact .inr ⟨hpost.2.2, by rw [hpost.1, hpost.2.1]⟩
  · exact absurd h hpost.2

/-! ### One lemma for each operation -/

namespace Repr

variable {s : Server} {n d : Nat} {pend : List Message} (h : Repr s n d pend)

include h

theorem of_head {k : Nat} (hk : k < s.queue.length) :
    Repr { s with queueHead := k } n d pend :=
  ⟨h.holds, h.head, h.tail, h.empties, hk, h.tailLt, h.size⟩

theorem length_pos : 0 < s.queue.length := Nat.lt_of_le_of_lt (Nat.zero_le _) h.headLt

/-- At most 255 messages are undelivered, so the two generations meet exactly when there is
none. -/
theorem generations_eq_iff : s.tailGeneration = s.headGeneration ↔ pend = [] := by
  rw [h.head, h.tail]
  constructor
  · intro hg
    have := generation_inj hg.symm (by omega) (by have := h.holds.few; omega)
    exact List.eq_nil_of_length_eq_zero (by omega)
  · rintro rfl
    rfl

theorem emptyCount_pos (hi : s.queue[i]? = some .empty) : 0 < s.emptyCount := by
  rw [h.empties]
  exact count_pos_iff.mpr (List.mem_of_getElem? hi)

/-- **`queue_message` with an empty slot and fewer than 255 undelivered messages** accepts
the message as the youngest one. -/
theorem queueMessage_ok (pid : PID) (tid : TID) (m : Message)
    (orig : Option MemoryAddress) (hroom : .empty ∈ s.queue) (hfew : pend.length < 255)
    (horig : m.isLend = true → orig.isSome = true) :
    ∃ i s', queueMessage pid tid m orig s = .ok i s' ∧ Repr s' n d (pend ++ [m]) ∧
      s'.emptyCount + 1 = s.emptyCount := by
  rcases findEmptySlot_spec h.headLt with ⟨i, hi, hfind⟩ | ⟨hfull, _⟩
  · obtain ⟨q, hslot⟩ := messageSlot_ok pid tid s.tailGeneration horig
    have hq := messageSlot_pending hslot
    obtain ⟨hlt, hget⟩ := getElem?_eq_some_iff.mp hi
    have hne : q ≠ .empty := by rintro rfl; cases hq
    have hpos := h.emptyCount_pos hi
    have hgen : s.tailGeneration + 1 = generation (d + (pend ++ [m]).length) := by
      rw [h.tail, generation_succ, length_append, length_singleton, Nat.add_assoc]
    refine ⟨i, { s with
      queueHead := s.nextIndex i, queue := s.queue.set i q, emptyCount := s.emptyCount - 1,
      tailGeneration := s.tailGeneration + 1 }, ?_, ?_, Nat.sub_add_cancel hpos⟩
    · -- The assertion compares generations at most 255 apart.
      have hassert : s.tailGeneration + 1 ≠ s.headGeneration := by
        rw [hgen, h.head]
        intro hg
        have := generation_inj hg.symm (by omega) (by rw [length_append, length_singleton]; omega)
        rw [length_append, length_singleton] at this
        omega
      rw [queueMessage, bind_ok hfind]
      simp only [get_bind_run, hslot]
      simp [Exec.assert, hassert, Nat.pos_iff_ne_zero.mp hpos]
    · rw [h.tail] at hq
      refine ⟨h.holds.enqueue hi hq hfew, h.head, hgen, ?_, ?_, ?_, by simpa using h.size⟩
      · simp only [count_set hlt, hget, h.empties]
        simp [hne]
      · simpa using nextIndex_lt i h.length_pos
      · simpa using h.tailLt
  · exact absurd hroom hfull

/-- **`queue_message` on a full queue** changes nothing. -/
theorem queueMessage_full (pid : PID) (tid : TID) (m : Message)
    (orig : Option MemoryAddress) (hfull : .empty ∉ s.queue) :
    queueMessage pid tid m orig s = .err .serverQueueFull s := by
  rcases findEmptySlot_spec h.headLt with ⟨i, hi, _⟩ | ⟨_, hfind⟩
  · exact absurd (List.mem_of_getElem? hi) hfull
  · rw [queueMessage, bind_err hfind]

/-- A lend without its original address is refused; only the search position moved. -/
theorem queueMessage_badArguments (pid : PID) (tid : TID) (m : Message)
    (orig : Option MemoryAddress) (hroom : .empty ∈ s.queue)
    (horig : ¬ (m.isLend = true → orig.isSome = true)) :
    ∃ s', queueMessage pid tid m orig s = .err .invalidArguments s' ∧ Repr s' n d pend := by
  rcases findEmptySlot_spec h.headLt with ⟨i, hi, hfind⟩ | ⟨hfull, _⟩
  · refine ⟨_, ?_, h.of_head (nextIndex_lt i h.length_pos)⟩
    rw [queueMessage, bind_ok hfind]
    cases hslot : messageSlot pid tid s.tailGeneration orig m with
    | error e =>
      obtain rfl : e = .invalidArguments := by cases m <;> cases orig <;> simp_all [messageSlot]
      simp [hslot]
    | ok q =>
      cases m <;> cases orig <;> simp_all [Message.isLend, messageSlot]
  · exact absurd hroom hfull

/-- **The 256th undelivered message.**  With 255 messages undelivered and a slot still
empty, the tail generation catches up with the head generation and the assertion fires. -/
theorem queueMessage_overflow (pid : PID) (tid : TID) (m : Message)
    (orig : Option MemoryAddress) (hroom : .empty ∈ s.queue) (hmany : ¬ pend.length < 255)
    (horig : m.isLend = true → orig.isSome = true) :
    queueMessage pid tid m orig s = .panic "assertion `left != right` failed" := by
  rcases findEmptySlot_spec h.headLt with ⟨i, hi, hfind⟩ | ⟨hfull, _⟩
  · obtain ⟨q, hslot⟩ := messageSlot_ok pid tid s.tailGeneration horig
    have hpos := h.emptyCount_pos hi
    have hlen : pend.length = 255 := by have := h.holds.few; omega
    have hassert : s.tailGeneration + 1 = s.headGeneration := by
      rw [h.head, h.tail, generation_succ, hlen]
      exact UInt8.toNat_inj.mp (by simp [generation, Nat.add_assoc])
    rw [queueMessage, bind_ok hfind]
    simp only [get_bind_run, hslot]
    simp [Exec.assert, hassert, Nat.pos_iff_ne_zero.mp hpos]
  · exact absurd hroom hfull

/-- `queue_response` takes up a slot and leaves the messages alone. -/
theorem queueResponse_spec (pid : PID) (tid : TID) (m : Message) (addr : Option MemoryAddress) :
    (∃ i s', queueResponse pid tid m addr s = .ok i s' ∧ Repr s' n d pend) ∨
    (∃ e s', queueResponse pid tid m addr s = .err e s' ∧ Repr s' n d pend) := by
  rcases findEmptySlot_spec h.headLt with ⟨i, hi, hfind⟩ | ⟨_, hfind⟩
  · have hmoved := h.of_head (nextIndex_lt i h.length_pos)
    cases hslot : responseSlot pid tid addr m with
    | error e =>
      right
      exact ⟨e, _, by rw [queueResponse, bind_ok hfind]; simp [hslot], hmoved⟩
    | ok q =>
      left
      obtain ⟨hq, hne⟩ := responseSlot_pending hslot
      obtain ⟨hlt, hget⟩ := getElem?_eq_some_iff.mp hi
      have hpos := h.emptyCount_pos hi
      refine ⟨i, { s with
        queueHead := s.nextIndex i, queue := s.queue.set i q, emptyCount := s.emptyCount - 1 },
        ?_, ?_⟩
      · rw [queueResponse, bind_ok hfind]
        simp [hslot, Exec.assert, Nat.pos_iff_ne_zero.mp hpos]
      · refine ⟨h.holds.set_of_pending_none hi rfl hq, h.head, h.tail, ?_, ?_, ?_,
          by simpa using h.size⟩
        · simp only [count_set hlt, hget, h.empties]
          simp [hne]
        · simpa using nextIndex_lt i h.length_pos
        · simpa using h.tailLt
  · exact .inr ⟨_, _, by rw [queueResponse, bind_err hfind], h⟩

/-- `take_waiting_message` gives up a slot and leaves the messages alone, whatever index it
is called with. -/
theorem takeWaitingMessage_spec (i : Nat) (buf : Option MemoryRange) :
    (∃ w s', takeWaitingMessage i buf s = .ok w s' ∧ Repr s' n d pend) ∨
    (∃ e s', takeWaitingMessage i buf s = .err e s' ∧ Repr s' n d pend) := by
  cases hi : s.queue[i]? with
  | none => exact .inr ⟨.badAddress, s, by simp [takeWaitingMessage, hi], h⟩
  | some q =>
    cases hw : waitingSlot buf q with
    | error e => exact .inr ⟨e, s, by simp [takeWaitingMessage, hi, hw], h⟩
    | ok w =>
      by_cases hnone : w = .none
      · subst hnone
        exact .inl ⟨.none, s, by simp [takeWaitingMessage, hi, hw], h⟩
      · obtain ⟨hq, hne⟩ := waitingSlot_pending hw hnone
        obtain ⟨hlt, hget⟩ := getElem?_eq_some_iff.mp hi
        refine .inl ⟨w, { s with
          queue := s.queue.set i .empty, emptyCount := s.emptyCount + 1,
          queueTail := s.nextIndex i }, ?_, ?_⟩
        · simp [takeWaitingMessage, hi, hw]
        · refine ⟨h.holds.set_of_pending_none hi hq rfl, h.head, h.tail, ?_, ?_, ?_,
            by simpa using h.size⟩
          · simp only [count_set hlt, hget, h.empties]
            simp [hne]
          · simpa using h.headLt
          · simpa using nextIndex_lt i h.length_pos

/-- `discard_messages_for_pid` rewrites slots in place and leaves the messages alone. -/
theorem discardMessagesForPid (pid : PID) : Repr (s.discardMessagesForPid pid) n d pend := by
  have hat : ∀ i, pendingAt (s.queue.map (discardSlot pid)) i = pendingAt s.queue i := by
    intro i
    unfold pendingAt
    rw [List.getElem?_map]
    cases s.queue[i]? with
    | none => rfl
    | some q => exact discardSlot_pending pid q
  refine ⟨h.holds.of_pendingAt_eq hat ?_, h.head, h.tail, ?_, ?_, ?_,
    by simpa [Server.discardMessagesForPid] using h.size⟩
  · rw [Server.discardMessagesForPid, List.countP_map]
    congr 1
    funext q
    simp [discardSlot_pending]
  · simp only [Server.discardMessagesForPid, List.count, List.countP_map, h.empties]
    congr 1
    funext q
    have : discardSlot pid q = .empty ↔ q = .empty := by
      cases q <;> simp only [discardSlot] <;> (try split) <;> simp
    by_cases hq : q = .empty
    · simp [hq, discardSlot]
    · simp [hq, mt this.mp hq]
  · simpa [Server.discardMessagesForPid] using h.headLt
  · simpa [Server.discardMessagesForPid] using h.tailLt

end Repr

/-! ### Receiving -/

theorem nextIndex_eq_mod (hi : i < s.queue.length) : s.nextIndex i = (i + 1) % s.queue.length := by
  unfold nextIndex
  split
  · rw [show i + 1 = s.queue.length by omega, Nat.mod_self]
  · rw [Nat.mod_eq_of_lt (by omega)]

/-- The search of `take_next_message`, `k` slots past the tail, when the slot it is looking
for is `t` slots past the tail: it goes through the slots in between and stops there. -/
theorem takeNextFrom_finds {t : Nat} {env : MessageEnvelope} (htail : s.queueTail < s.queue.length)
    (hi : i = (s.queueTail + t) % s.queue.length) (ht : t < s.queue.length)
    (hq : s.queue[i]? = some q) (htake : takeSlot s.headGeneration sidx i q = some (env, r))
    (hother : ∀ k q', k ≠ i → s.queue[k]? = some q' → takeSlot s.headGeneration sidx k q' = none) :
    ∀ fuel k, k ≤ t → t < k + fuel → takeNextFrom sidx fuel ((s.queueTail + k) % s.queue.length) s =
        .ok (some env) { s with
          queueTail := s.nextIndex i
          emptyCount := if r = .empty then s.emptyCount + 1 else s.emptyCount
          queue := s.queue.set i r
          headGeneration := s.headGeneration + 1 }
  | 0, k, hk, hf => by omega
  | fuel + 1, k, hk, hf => by
    have hlen : 0 < s.queue.length := by omega
    by_cases hkt : k = t
    · subst hkt
      rw [← hi]
      simp [takeNextFrom, hq, htake]
    · -- The slot is not reached yet, so the next index is not the tail again.
      have hlt : (s.queueTail + k) % s.queue.length < s.queue.length := Nat.mod_lt _ hlen
      have hne : (s.queueTail + k) % s.queue.length ≠ i := by
        intro h
        rw [hi] at h
        have := Nat.ModEq.add_left_cancel' s.queueTail h
        rw [Nat.ModEq, Nat.mod_eq_of_lt (by omega), Nat.mod_eq_of_lt ht] at this
        exact hkt this
      have hnext : s.nextIndex ((s.queueTail + k) % s.queue.length) = (s.queueTail + (k + 1)) % s.queue.length := by
        rw [nextIndex_eq_mod hlt, Nat.mod_add_mod, Nat.add_assoc]
      have hback : (s.queueTail + (k + 1)) % s.queue.length ≠ s.queueTail := by
        intro h
        have h' : s.queueTail + (k + 1) ≡ s.queueTail + 0 [MOD s.queue.length] := by
          rw [Nat.ModEq, h, Nat.add_zero, Nat.mod_eq_of_lt htail]
        have := Nat.ModEq.add_left_cancel' s.queueTail h'
        rw [Nat.ModEq, Nat.mod_eq_of_lt (by omega), Nat.zero_mod] at this
        omega
      have hget := List.getElem?_eq_getElem hlt
      have hskip := hother _ _ hne hget
      have ih := takeNextFrom_finds htail hi ht hq htake hother fuel (k + 1) (by omega) (by omega)
      simp only [takeNextFrom, get_bind_run, hget, hskip, hnext, if_neg hback]
      exact ih

namespace Repr

variable {s : Server} {n d : Nat} {pend : List Message}

/-- **`take_next_message` on an empty queue** returns nothing and changes nothing. -/
theorem takeNextMessage_nil (h : Repr s n d []) (sidx : Nat) : takeNextMessage sidx s = .ok none s := by
  have hg := h.generations_eq_iff.mpr rfl
  simp [takeNextMessage, hg]

/-- **`take_next_message` returns the oldest undelivered message**, and what is left are the
others. -/
theorem takeNextMessage_cons (h : Repr s n d (m :: pend)) (sidx : Nat) :
    ∃ env s', takeNextMessage sidx s = .ok (some env) s' ∧ env.body = m ∧ Repr s' n (d + 1) pend := by
  have hg : s.tailGeneration ≠ s.headGeneration := by
    intro hg
    cases h.generations_eq_iff.mp hg
  obtain ⟨i, hi⟩ := h.holds.slot 0 m (by simp)
  rw [Nat.add_zero] at hi
  have hlt := pendingAt_lt hi
  have hget := List.getElem?_eq_getElem hlt
  have hpend : (s.queue[i]).pending = some (s.headGeneration, m) := by
    rw [h.head]
    simpa [pendingAt, hget] using hi
  obtain ⟨⟨env, r⟩, htake⟩ := takeSlot_isSome sidx i hpend
  obtain ⟨hbody, hr⟩ := takeSlot_some htake
  have hm : env.body = m := by
    rw [hpend] at hbody
    exact (congrArg Prod.snd (Option.some.inj hbody)).symm
  have hother : ∀ k q', k ≠ i → s.queue[k]? = some q' → takeSlot s.headGeneration sidx k q' = none := by
    intro k q' hk hq'
    refine takeSlot_eq_none (fun m' hm' => hk ?_)
    rw [h.head] at hm'
    exact h.holds.uniq k i _ m' m (by simpa [pendingAt, hq'] using hm') hi
  -- How far past the tail the slot is.
  have hmod : (s.queueTail + (i + (s.queue.length - s.queueTail)) % s.queue.length) % s.queue.length = i := by
    have htl := h.tailLt
    rw [Nat.add_mod_mod, show s.queueTail + (i + (s.queue.length - s.queueTail)) =
      i + s.queue.length by omega, Nat.add_mod_right, Nat.mod_eq_of_lt hlt]
  have hrun := takeNextFrom_finds (t := (i + (s.queue.length - s.queueTail)) % s.queue.length)
    h.tailLt hmod.symm (Nat.mod_lt _ h.length_pos) hget htake hother s.queue.length 0
    (Nat.zero_le _) (by rw [Nat.zero_add]; exact Nat.mod_lt _ h.length_pos)
  rw [Nat.add_zero, Nat.mod_eq_of_lt h.tailLt] at hrun
  obtain ⟨rest, hrest, hholds⟩ := h.holds.dequeue hi hr
  cases hrest
  refine ⟨env, _, by simp only [takeNextMessage, get_bind_run, if_neg hg]; exact hrun,
    hm, hholds, ?_, ?_, ?_, ?_, ?_, by simpa using h.size⟩
  · rw [h.head, generation_succ]
  · rw [h.tail, List.length_cons]
    congr 1
    omega
  · have hne : s.queue[i] ≠ .empty := by
      intro he
      rw [he] at hpend
      cases hpend
    simp only [count_set hlt, h.empties]
    by_cases hre : r = .empty <;> simp [hre, hne]
  · simpa using h.headLt
  · simpa using nextIndex_lt i h.length_pos

end Repr

/-! ## 4. Runs -/

/-- The calls that work on a server's queue. -/
inductive QueueOp where
  | queueMessage (pid : PID) (tid : TID) (message : Message)
      (originalAddress : Option MemoryAddress)
  | takeNextMessage (sidx : Nat)
  | queueResponse (pid : PID) (tid : TID) (message : Message)
      (clientAddress : Option MemoryAddress)
  | takeWaitingMessage (messageIndex : Nat) (buf : Option MemoryRange)
  | discardMessagesForPid (pid : PID)

/-- Make one call and report the messages it accepted or handed out.  A call that returns an
error reports nothing. -/
def QueueOp.exec : QueueOp → Exec Server Error (List (Fifo.Event Message))
  | .queueMessage pid tid message orig => do
    match ← (Server.queueMessage pid tid message orig).attempt with
    | .ok _ => pure [.put message]
    | .error _ => pure []
  | .takeNextMessage sidx => do
    let r ← Server.takeNextMessage sidx
    pure [.take (r.map MessageEnvelope.body)]
  | .queueResponse pid tid message addr => do
    let _ ← (Server.queueResponse pid tid message addr).attempt
    pure []
  | .takeWaitingMessage index buf => do
    let _ ← (Server.takeWaitingMessage index buf).attempt
    pure []
  | .discardMessagesForPid pid => do
    Exec.modify (Server.discardMessagesForPid pid)
    pure []

/-- Make the calls one after another. -/
def QueueOp.execAll : List QueueOp → Exec Server Error (List (Fifo.Event Message))
  | [] => pure []
  | op :: ops => do
    let evs ← op.exec
    let rest ← QueueOp.execAll ops
    pure (evs ++ rest)

/-- The call is one `queue_message` makes the generations meet on. -/
def QueueOp.Overflows (s : Server) (pend : List Message) : QueueOp → Prop
  | .queueMessage .. => .empty ∈ s.queue ∧ pend.length = 255
  | _ => False

/-- **What one call can do.**  It moves the undelivered messages as a FIFO queue would, or it
is the call that overflows the generations, and then it panics. -/
theorem QueueOp.exec_spec {d : Nat} {pend : List Message} (h : Repr s n d pend) : ∀ op : QueueOp,
      (∃ evs s' d' pend', op.exec s = .ok evs s' ∧ Fifo.Replay pend evs pend' ∧ Repr s' n d' pend') ∨
      (op.Overflows s pend ∧ ∃ msg, op.exec s = .panic msg)
  | .queueMessage pid tid m orig => by
    by_cases hroom : .empty ∈ s.queue
    · by_cases horig : m.isLend = true → orig.isSome = true
      · by_cases hfew : pend.length < 255
        · obtain ⟨i, s', hrun, h', _⟩ := h.queueMessage_ok pid tid m orig hroom hfew horig
          left
          refine ⟨[.put m], s', d, _, ?_, .put (.nil _), h'⟩
          simp [QueueOp.exec, attempt, bind_run, hrun]
        · have hrun := h.queueMessage_overflow pid tid m orig hroom hfew horig
          right
          refine ⟨⟨hroom, by have := h.holds.few; omega⟩, "assertion `left != right` failed", ?_⟩
          simp [QueueOp.exec, attempt, bind_run, hrun]
      · obtain ⟨s', hrun, h'⟩ := h.queueMessage_badArguments pid tid m orig hroom horig
        left
        refine ⟨[], s', d, pend, ?_, .nil _, h'⟩
        simp [QueueOp.exec, attempt, bind_run, hrun]
    · have hrun := h.queueMessage_full pid tid m orig hroom
      left
      refine ⟨[], s, d, pend, ?_, .nil _, h⟩
      simp [QueueOp.exec, attempt, bind_run, hrun]
  | .takeNextMessage sidx => by
    left
    cases pend with
    | nil =>
      refine ⟨[.take none], s, d, [], ?_, .takeNone (.nil _), h⟩
      simp [QueueOp.exec, bind_run, h.takeNextMessage_nil sidx]
    | cons m pend =>
      obtain ⟨env, s', hrun, rfl, h'⟩ := h.takeNextMessage_cons sidx
      refine ⟨[.take (some env.body)], s', d + 1, pend, ?_, .takeSome (.nil _), h'⟩
      simp [QueueOp.exec, bind_run, hrun]
  | .queueResponse pid tid m addr => by
    left
    rcases h.queueResponse_spec pid tid m addr with ⟨i, s', hrun, h'⟩ | ⟨e, s', hrun, h'⟩ <;>
      exact ⟨[], s', d, pend, by simp [QueueOp.exec, attempt, bind_run, hrun], .nil _, h'⟩
  | .takeWaitingMessage index buf => by
    left
    rcases h.takeWaitingMessage_spec index buf with ⟨w, s', hrun, h'⟩ | ⟨e, s', hrun, h'⟩ <;>
      exact ⟨[], s', d, pend, by simp [QueueOp.exec, attempt, bind_run, hrun], .nil _, h'⟩
  | .discardMessagesForPid pid =>
    Or.inl ⟨[], _, d, pend, rfl, .nil _, h.discardMessagesForPid pid⟩

/-- What `init` builds: everything but the permissions is fixed by its arguments. -/
theorem init_ok (h : init none pid sid backing queue perms = .ok s) : ∃ defaultPermissions, s =
      { sid, pid, queueHead := 0, queueTail := 0, headGeneration := 0, tailGeneration := 0
        emptyCount := queue.length, queueAddr := backing, queue, readyThreads := 0
        defaultPermissions } := by
  simp only [init, Option.isSome_none, Bool.false_eq_true, if_false, bind, Except.bind, pure, Except.pure] at h
  split at h
  · exact ⟨_, (Except.ok.inj h).symm⟩
  · split at h
    · cases h
    · exact ⟨_, (Except.ok.inj h).symm⟩

theorem repr_init (hn : 1 ≤ n) (h : init none pid sid backing (List.replicate n .empty) perms = .ok s) :
    Repr s n 0 [] := by
  obtain ⟨_, rfl⟩ := init_ok h
  have hat : ∀ i, pendingAt (List.replicate n .empty) i = none := by
    intro i
    rw [pendingAt, List.getElem?_replicate]
    split <;> rfl
  refine ⟨⟨?_, ?_, ?_, by simp, ?_⟩, rfl, rfl, by simp, ?_, ?_, by simp⟩
  · intro j m hj; simp at hj
  · intro i g m hi; rw [hat] at hi; cases hi
  · intro i i' g m m' hi; rw [hat] at hi; cases hi
  · simp [List.countP_replicate]
  · rw [List.length_replicate]; exact hn
  · rw [List.length_replicate]; exact hn

theorem QueueOp.execAll_repr : ∀ (ops : List QueueOp) {s s' : Server} {d : Nat} {pend : List Message}
      {evs : List (Fifo.Event Message)}, Repr s n d pend →
      QueueOp.execAll ops s = .ok evs s' → ∃ d' pend', Repr s' n d' pend'
  | [], s, s', d, pend, evs, h, hrun => by
    cases hrun
    exact ⟨d, pend, h⟩
  | op :: ops, s, s', d, pend, evs, h, hrun => by
    rcases QueueOp.exec_spec h op with ⟨evs1, s1, d1, pend1, hop, _, h1⟩ | ⟨_, msg, hop⟩
    · rw [QueueOp.execAll, bind_ok hop, bind_run] at hrun
      cases hrest : QueueOp.execAll ops s1 with
      | ok evs2 s2 =>
        rw [hrest] at hrun
        cases hrun
        exact QueueOp.execAll_repr ops h1 hrest
      | err e s2 => rw [hrest] at hrun; cases hrun
      | panic msg => rw [hrest] at hrun; cases hrun
    · rw [QueueOp.execAll, bind_run, hop] at hrun
      cases hrun

/-- **A queue of at most 255 slots never overflows**: no run panics, and in every run the
messages move as in a FIFO queue. -/
theorem QueueOp.execAll_replay (hn : n ≤ 255) :
    ∀ (ops : List QueueOp) {s : Server} {d : Nat} {pend : List Message}, Repr s n d pend →
      ∃ evs s' pend', QueueOp.execAll ops s = .ok evs s' ∧ Fifo.Replay pend evs pend'
  | [], s, d, pend, _ => ⟨[], s, pend, rfl, .nil _⟩
  | op :: ops, s, d, pend, h => by
    rcases QueueOp.exec_spec h op with ⟨evs1, s1, d1, pend1, hop, hr1, h1⟩ | ⟨hover, _⟩
    · obtain ⟨evs2, s2, pend2, hops, hr2⟩ := QueueOp.execAll_replay hn ops h1
      refine ⟨evs1 ++ evs2, s2, pend2, ?_, hr1.append hr2⟩
      rw [QueueOp.execAll, bind_ok hop, bind_ok hops]
      rfl
    · -- 255 undelivered messages and an empty slot need 256 slots.
      exfalso
      cases op with
      | queueMessage pid tid m orig =>
        obtain ⟨hroom, hlen⟩ := hover
        have hle : pend.length + s.emptyCount ≤ s.queue.length := by
          rw [h.empties, ← h.holds.count]
          exact countP_pending_add_count_empty_le s.queue
        have hpos : 0 < s.emptyCount := by
          rw [h.empties]
          exact count_pos_iff.mpr hroom
        rw [h.size] at hle
        omega
      | _ => exact hover

/-- **The queue of a server with 1 to 255 slots is a FIFO queue.**  Whatever calls are made
on a fresh server, none panics; the messages handed out are an initial segment of the
messages accepted, in the same order and with the same contents; and each
`take_next_message` returns the oldest message not handed out yet, or nothing exactly when
every accepted message has been handed out. -/
theorem queue_fifo (hn : 1 ≤ n ∧ n ≤ 255) (hs : init none pid sid backing (List.replicate n .empty) perms = .ok s)
    (ops : List QueueOp) :
    ∃ evs s', QueueOp.execAll ops s = .ok evs s' ∧ Fifo.takes evs <+: Fifo.puts evs ∧
      ∀ before r after, evs = before ++ Fifo.Event.take r :: after →
        r = (Fifo.puts before)[(Fifo.takes before).length]? := by
  obtain ⟨evs, s', pend, hrun, hreplay⟩ := QueueOp.execAll_replay hn.2 ops (repr_init hn.1 hs)
  refine ⟨evs, s', hrun, hreplay.takes_prefix_puts, ?_⟩
  rintro before r after rfl
  exact hreplay.take_eq

/-- The queue of a server with 64 slots, the size of the hosted build. -/
theorem queue_fifo_hosted : ∃ s, init none PID.kernel ⟨0, 0, 0, 0⟩ mmapAreaVirt (List.replicate 64 .empty) ⟨0, 0⟩ =
        .ok s ∧
      ∀ ops, ∃ evs s', QueueOp.execAll ops s = .ok evs s' ∧ Fifo.takes evs <+: Fifo.puts evs ∧
        ∀ before r after, evs = before ++ Fifo.Event.take r :: after →
          r = (Fifo.puts before)[(Fifo.takes before).length]? := by
  obtain ⟨s, hs⟩ : ∃ s, init none PID.kernel ⟨0, 0, 0, 0⟩ mmapAreaVirt
    (List.replicate 64 .empty) ⟨0, 0⟩ = .ok s := ⟨_, rfl⟩
  exact ⟨s, hs, fun ops => queue_fifo (by decide) hs ops⟩

/-! ## 5. The 256th message -/

/-- The server is one that calls on the queue can lead to, from a fresh queue of `n` slots. -/
def Reachable (n : Nat) (s : Server) : Prop := ∃ pid sid backing perms s₀ ops evs,
    init none pid sid backing (List.replicate n .empty) perms = .ok s₀ ∧
    QueueOp.execAll ops s₀ = .ok evs s

/-- The number of slots that hold a message nobody has received. -/
def undelivered (s : Server) : Nat := s.queue.countP (fun q => q.pending.isSome)

/-- `queue_message` returns a slot, or says that the queue is full when it is. -/
def AcceptsOrFull (s : Server) (pid : PID) (tid : TID) (m : Message) (orig : Option MemoryAddress) : Prop :=
  (∃ i s', queueMessage pid tid m orig s = .ok i s') ∨
  (.empty ∉ s.queue ∧ ∃ s', queueMessage pid tid m orig s = .err .serverQueueFull s')

/-- **When `queue_message` is safe.**  In every reachable state it accepts the message or
reports a full queue if and only if the queue is full or fewer than 255 messages are
undelivered; otherwise its assertion on the generations fires. -/
theorem queueMessage_safe_iff (hn : 1 ≤ n) (hs : Reachable n s)
    (pid : PID) (tid : TID) (m : Message) (orig : Option MemoryAddress)
    (horig : m.isLend = true → orig.isSome = true) :
    AcceptsOrFull s pid tid m orig ↔ (.empty ∉ s.queue ∨ s.undelivered < 255) := by
  obtain ⟨pid₀, sid, backing, perms, s₀, ops, evs, hinit, hrun⟩ := hs
  obtain ⟨d, pend, h⟩ := QueueOp.execAll_repr ops (repr_init hn hinit) hrun
  have hund : s.undelivered = pend.length := h.holds.count
  rw [hund]
  by_cases hroom : .empty ∈ s.queue
  · by_cases hfew : pend.length < 255
    · obtain ⟨i, s', hok, _, _⟩ := h.queueMessage_ok pid tid m orig hroom hfew horig
      exact ⟨fun _ => .inr hfew, fun _ => .inl ⟨i, s', hok⟩⟩
    · have hpanic := h.queueMessage_overflow pid tid m orig hroom hfew horig
      constructor
      · rintro (⟨i, s', hok⟩ | ⟨hfull, _⟩)
        · rw [hpanic] at hok; cases hok
        · exact absurd hroom hfull
      · rintro (hfull | hlt)
        · exact absurd hroom hfull
        · exact absurd hlt hfew
  · exact ⟨fun _ => .inl hroom, fun _ => .inr ⟨hroom, s, h.queueMessage_full pid tid m orig hroom⟩⟩

/-- The message of the flood: a scalar with every field zero. -/
def floodMessage : Message := .scalar ⟨0, 0, 0, 0, 0⟩

theorem execAll_flood {d : Nat} :
    ∀ (k : Nat) {s : Server} {pend : List Message}, Repr s n d pend → k ≤ s.emptyCount → pend.length + k ≤ 255 →
      ∃ evs s' pend', QueueOp.execAll (List.replicate k (.queueMessage PID.kernel 1 floodMessage none)) s = .ok evs s' ∧
        Repr s' n d pend' ∧ pend'.length = pend.length + k ∧ s'.emptyCount + k = s.emptyCount
  | 0, s, pend, h, _, _ => ⟨[], s, pend, rfl, h, rfl, rfl⟩
  | k + 1, s, pend, h, hk, hfew => by
    have hroom : .empty ∈ s.queue := by
      rw [← count_pos_iff, ← h.empties]
      omega
    obtain ⟨i, s1, hrun, h1, hcount⟩ := h.queueMessage_ok PID.kernel 1 floodMessage none hroom (by omega) (by decide)
    have hop : QueueOp.exec (.queueMessage PID.kernel 1 floodMessage none) s = .ok [.put floodMessage] s1 := by
      simp [QueueOp.exec, attempt, bind_run, hrun]
    obtain ⟨evs, s', pend', hrest, h', hlen, hcount'⟩ := execAll_flood k h1 (by omega)
      (by rw [length_append, length_singleton]; omega)
    rw [length_append, length_singleton] at hlen
    refine ⟨[.put floodMessage] ++ evs, s', pend', ?_, h', by omega, by omega⟩
    rw [List.replicate_succ, QueueOp.execAll, bind_ok hop, bind_ok hrest]
    rfl

/-- **A client can stop the kernel.**  On the hardware queue of `PAGE_SIZE / 64` slots, 255
scalar messages that nobody receives are accepted and leave a slot empty; the next one
panics. -/
theorem queueMessage_flood :
    ∃ s, Reachable (pageSize / queuedMessageSize) s ∧ ¬ AcceptsOrFull s PID.kernel 1 floodMessage none := by
  obtain ⟨s₀, h₀⟩ : ∃ s, init none PID.kernel ⟨0, 0, 0, 0⟩ mmapAreaVirt
      (List.replicate (pageSize / queuedMessageSize) .empty) ⟨0, 0⟩ = .ok s := ⟨_, rfl⟩
  have hrepr := repr_init (by decide) h₀
  have hempty : s₀.emptyCount = 256 := by
    obtain ⟨_, rfl⟩ := init_ok h₀
    exact List.length_replicate
  obtain ⟨evs, s, pend, hrun, h, hlen, hcount⟩ := execAll_flood 255 hrepr (by omega) (by simp)
  have hroom : .empty ∈ s.queue := by
    rw [← count_pos_iff, ← h.empties]
    omega
  have hpanic := h.queueMessage_overflow PID.kernel 1 floodMessage none hroom (by rw [hlen]; simp) (by decide)
  refine ⟨s, ⟨_, _, _, _, s₀, _, evs, h₀, hrun⟩, ?_⟩
  rintro (⟨i, s', hok⟩ | ⟨hfull, _⟩)
  · rw [hpanic] at hok; cases hok
  · exact hfull hroom

/-- A fresh hardware queue meets the condition of `queueMessage_safe_iff`. -/
theorem queueMessage_safe_fresh : ∃ s, Reachable (pageSize / queuedMessageSize) s ∧
      (AcceptsOrFull s PID.kernel 1 floodMessage none ↔ (.empty ∉ s.queue ∨ s.undelivered < 255)) := by
  obtain ⟨s₀, h₀⟩ : ∃ s, init none PID.kernel ⟨0, 0, 0, 0⟩ mmapAreaVirt
      (List.replicate (pageSize / queuedMessageSize) .empty) ⟨0, 0⟩ = .ok s := ⟨_, rfl⟩
  have hreach : Reachable (pageSize / queuedMessageSize) s₀ := ⟨_, _, _, _, s₀, [], [], h₀, rfl⟩
  exact ⟨s₀, hreach, queueMessage_safe_iff (by decide) hreach _ _ _ _ (by decide)⟩

end Server

end BeetKernel

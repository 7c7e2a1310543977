/-
# Messages of an async server

An `AsyncServer` gets its messages on two ways: the reactor takes them from the kernel at its
ticks and keeps them in the slot of the server, and a poll that finds the slot empty asks the
kernel itself.  `async_server_delivers` says that this neither loses, repeats nor reorders a
message, whatever the interleaving of arrivals, ticks and receives, and that a task that waits is
woken by the first tick after a message has come.

`Flow` is what every step keeps: what was waiting in the slot and in the kernel, followed by what
has arrived meanwhile, is what was handed out, followed by what is waiting now.
-/
import BeetKernel.AsyncRt.Executor

namespace BeetKernel.AsyncRt

variable {F S M : Type} [DecidableEq S] {sid sid' : S}

/-! ## 1. The kernel's queues -/

namespace Mail

variable {k k' k1 k2 : Mail S M}

/-- Messages for `sid` have arrived, and none has been taken. -/
def Adds (sid : S) (k k' : Mail S M) : Prop :=
  ∃ new, k'.arrived sid = k.arrived sid ++ new ∧ k'.inbox sid = k.inbox sid ++ new

omit [DecidableEq S] in
theorem Adds.refl (sid : S) (k : Mail S M) : Adds sid k k := ⟨[], by simp, by simp⟩

omit [DecidableEq S] in
theorem Adds.trans (h1 : Adds sid k k1) (h2 : Adds sid k1 k2) : Adds sid k k2 := by
  obtain ⟨new1, ha1, hi1⟩ := h1
  obtain ⟨new2, ha2, hi2⟩ := h2
  exact ⟨new1 ++ new2, by rw [ha2, ha1, List.append_assoc], by rw [hi2, hi1, List.append_assoc]⟩

theorem arrive_adds (sid : S) (k : Mail S M) (x : S × M) : Adds sid k (k.arrive x) := by
  by_cases hx : sid = x.1
  · subst hx
    exact ⟨[x.2], by simp [arrive], by simp [arrive]⟩
  · exact ⟨[], by simp [arrive, Function.update_of_ne hx], by simp [arrive, Function.update_of_ne hx]⟩

theorem arrives_adds (sid : S) (batch : List (S × M)) (k : Mail S M) : Adds sid k (batch.foldl arrive k) := by
  induction batch generalizing k with
  | nil => exact .refl sid k
  | cons x batch ih => exact (arrive_adds sid k x).trans (ih _)

theorem deliver_adds (sid : S) (k : Mail S M) : Adds sid k k.deliver := by
  unfold deliver
  split
  · exact .refl sid k
  · exact arrives_adds sid _ _

theorem tryReceive_adds (h : sid ≠ sid') (k : Mail S M) : Adds sid k (k.tryReceive sid').1 := by
  unfold tryReceive
  split
  · exact deliver_adds sid k
  · obtain ⟨new, ha, hi⟩ := deliver_adds sid k
    exact ⟨new, ha, by simp [Function.update_of_ne h, hi]⟩

/-- **A receive**: the oldest of what is waiting once the arrivals are in. -/
theorem tryReceive_spec (sid : S) (k : Mail S M) : ∃ new, (k.tryReceive sid).1.arrived sid = k.arrived sid ++ new ∧
      k.inbox sid ++ new = (k.tryReceive sid).2.toList ++ (k.tryReceive sid).1.inbox sid ∧
      ((k.tryReceive sid).2 = none → (k.tryReceive sid).1.inbox sid = []) := by
  obtain ⟨new, ha, hi⟩ := deliver_adds sid k
  unfold tryReceive
  split
  next hnil =>
    exact ⟨new, ha, by rw [← hi, hnil]; rfl, fun _ => hnil⟩
  next m ms hcons =>
    exact ⟨new, ha, by rw [← hi, hcons]; simp, by simp⟩

end Mail

open Mail

/-! ## 2. What a step does to the messages of one server -/

/-- `out` was handed out: what was in the slot's queue and in the kernel, and what has arrived
meanwhile, is what was handed out and what is there now. -/
def Flow (sid : S) (queue : List M) (k : Mail S M) (out queue' : List M) (k' : Mail S M) : Prop :=
  ∃ new, k'.arrived sid = k.arrived sid ++ new ∧ queue ++ k.inbox sid ++ new = out ++ queue' ++ k'.inbox sid

omit [DecidableEq S] in
theorem Mail.Adds.flow {k k' : Mail S M} (h : Adds sid k k') (queue : List M) : Flow sid queue k [] queue k' := by
  obtain ⟨new, ha, hi⟩ := h
  exact ⟨new, ha, by simp [hi]⟩

omit [DecidableEq S] in
theorem Flow.trans {q q1 q2 out1 out2 : List M} {k k1 k2 : Mail S M} (h1 : Flow sid q k out1 q1 k1)
    (h2 : Flow sid q1 k1 out2 q2 k2) : Flow sid q k (out1 ++ out2) q2 k2 := by
  obtain ⟨new1, ha1, hi1⟩ := h1
  obtain ⟨new2, ha2, hi2⟩ := h2
  refine ⟨new1 ++ new2, by rw [ha2, ha1, List.append_assoc], ?_⟩
  rw [← List.append_assoc, hi1]
  simp only [List.append_assoc] at hi2 ⊢
  rw [hi2]

/-! ## 3. Ticks -/

/-- What a tick makes of a slot: messages have been put in its queue or not, and if they have, its
waker has been called. -/
structure Ticked (slot slot' : ServerSlot S M) (woken : List TaskId) : Prop where
  sid : slot'.sid = slot.sid
  active : slot'.active = slot.active
  waker : slot'.waker = slot.waker ∨ ∀ t, slot.waker = some t → t ∈ woken

omit [DecidableEq S] in
theorem Ticked.refl (slot : ServerSlot S M) (woken : List TaskId) : Ticked slot slot woken := ⟨rfl, rfl, .inl rfl⟩

theorem drainSlot_adds (n : Nat) (slot : ServerSlot S M) (k : Mail S M) (h : sid ≠ slot.sid) :
    Adds sid k (drainSlot n slot k).2.1 := by
  induction n generalizing slot k with
  | zero => exact .refl sid k
  | succ n ih =>
    have hrecv := tryReceive_adds h k
    unfold drainSlot
    split
    next k' heq =>
      rwa [heq] at hrecv
    next k' m heq =>
      rw [heq] at hrecv
      exact hrecv.trans (ih { slot with queue := slot.queue ++ [m], waker := none } k' h)

theorem drainSlot_spec (n : Nat) (slot : ServerSlot S M) (k : Mail S M) :
    Ticked slot (drainSlot n slot k).1 (drainSlot n slot k).2.2 ∧
      Flow slot.sid slot.queue k [] (drainSlot n slot k).1.queue (drainSlot n slot k).2.1 := by
  induction n generalizing slot k with
  | zero => exact ⟨.refl _ _, (Adds.refl _ k).flow _⟩
  | succ n ih =>
    obtain ⟨new, ha, hi, -⟩ := tryReceive_spec slot.sid k
    unfold drainSlot
    split
    next k' heq =>
      rw [heq] at ha hi
      refine ⟨.refl _ _, new, ha, ?_⟩
      simp only [Option.toList_none, List.nil_append] at hi
      rw [List.append_assoc, hi, List.nil_append]
    next k' m heq =>
      rw [heq] at ha hi
      obtain ⟨hticked, hflow⟩ := ih { slot with queue := slot.queue ++ [m], waker := none } k'
      refine ⟨⟨hticked.sid, hticked.active, .inr fun t ht => ?_⟩, ?_⟩
      · simp [ht]
      · have hfirst : Flow slot.sid slot.queue k [] (slot.queue ++ [m]) k' := by
          refine ⟨new, ha, ?_⟩
          rw [List.append_assoc, hi]
          simp
        exact hfirst.trans hflow

/-- A tick takes a message if there is one, and calls the waker. -/
theorem drainSlot_wakes (n : Nat) (slot : ServerSlot S M) (k : Mail S M) (h : k.inbox slot.sid ≠ []) {t : TaskId}
    (ht : slot.waker = some t) : t ∈ (drainSlot (n + 1) slot k).2.2 := by
  obtain ⟨new, -, hi, hnone⟩ := tryReceive_spec slot.sid k
  unfold drainSlot
  split
  next k' heq =>
    rw [heq] at hi hnone
    rw [hnone rfl] at hi
    simp at hi
    exact absurd hi.1 h
  · simp [ht]

theorem pollServers_append (l1 l2 : List (ServerSlot S M)) (k : Mail S M) : pollServers (l1 ++ l2) k =
      ((pollServers l1 k).1 ++ (pollServers l2 (pollServers l1 k).2.1).1, (pollServers l2 (pollServers l1 k).2.1).2.1,
        (pollServers l1 k).2.2 ++ (pollServers l2 (pollServers l1 k).2.1).2.2) := by
  induction l1 generalizing k with
  | nil => rfl
  | cons slot l1 ih =>
    simp only [List.cons_append, pollServers]
    split
    · rw [ih]
      rfl
    · rw [ih]
      simp

theorem pollServers_length (l : List (ServerSlot S M)) (k : Mail S M) : (pollServers l k).1.length = l.length := by
  induction l generalizing k with
  | nil => rfl
  | cons slot l ih =>
    simp only [pollServers]
    split <;> simp [ih]

theorem pollServers_adds (l : List (ServerSlot S M)) (k : Mail S M)
    (h : ∀ slot ∈ l, slot.active = true → sid ≠ slot.sid) : Adds sid k (pollServers l k).2.1 := by
  induction l generalizing k with
  | nil => exact .refl sid k
  | cons slot l ih =>
    have hrest := fun s hs => h s (List.mem_cons_of_mem _ hs)
    simp only [pollServers]
    split
    · exact ih k hrest
    next hactive =>
      have hne := h slot List.mem_cons_self (by simpa using hactive)
      exact (drainSlot_adds _ slot k hne).trans (ih _ hrest)

/-- The slots that were active before a tick are active after it, for the same servers. -/
theorem pollServers_slots (l : List (ServerSlot S M)) (k : Mail S M) (j : Nat) {slot' : ServerSlot S M}
    (h : (pollServers l k).1[j]? = some slot') :
    ∃ slot, l[j]? = some slot ∧ slot'.sid = slot.sid ∧ slot'.active = slot.active := by
  induction l generalizing k j with
  | nil => simp [pollServers] at h
  | cons slot l ih =>
    simp only [pollServers] at h
    split at h
    · cases j with
      | zero =>
        cases h
        exact ⟨_, rfl, rfl, rfl⟩
      | succ j => exact ih _ j (by simpa using h)
    · cases j with
      | zero =>
        cases h
        have hticked := (drainSlot_spec (k.supply slot.sid + 1) slot k).1
        exact ⟨slot, rfl, hticked.sid, hticked.active⟩
      | succ j => exact ih _ j (by simpa using h)

/-! ## 4. The steps of the runtime -/

/-- The servers of the reactor with the kernel's queues. -/
structure Io (S M : Type) where
  servers : List (ServerSlot S M)
  mail : Mail S M

namespace Io

/-- `RecvFuture::poll` on the slot `id` by the task `t`; `none` is `Poll::Pending`. -/
def recvPoll (io : Io S M) (id : SlotId) (t : TaskId) : Io S M × Option (Except RecvError M) :=
  if !serverActive io.servers id then (io, some (.error .serverGone))
  else match tryRecv io.servers io.mail id with
    | (servers, mail, some m) => (⟨servers, mail⟩, some (.ok m))
    | (servers, mail, none) => (⟨setServerWaker servers id t, mail⟩, none)

/-- What can happen: a message arrives, the reactor ticks, a task polls a server for a message, a
server is registered or dropped. -/
inductive Act (S M : Type) where
  | arrive (x : S × M)
  | tick
  | recv (id : SlotId) (t : TaskId)
  | register (sid : S)
  | unregister (id : SlotId)

def exec (io : Io S M) : Act S M → Io S M
  | .arrive x => { io with mail := io.mail.arrive x }
  | .tick => ⟨(pollServers io.servers io.mail).1, (pollServers io.servers io.mail).2.1⟩
  | .recv id t => (io.recvPoll id t).1
  | .register sid => { io with servers := (registerServer sid io.servers).1 }
  | .unregister id => { io with servers := unregisterServer io.servers id }

/-- The tasks woken by an act. -/
def woken (io : Io S M) : Act S M → List TaskId
  | .tick => (pollServers io.servers io.mail).2.2
  | _ => []

/-- The message that the server in slot `i` yields by an act. -/
def yielded (io : Io S M) (i : SlotId) : Act S M → List M
  | .recv id t => if id = i then
      match (io.recvPoll id t).2 with
      | some (.ok m) => [m]
      | _ => []
    else []
  | _ => []

/-- The act keeps the server of slot `i`, and registers no other one under its id. -/
def Allowed (i : SlotId) (sid : S) : Act S M → Prop
  | .register sid' => sid' ≠ sid
  | .unregister id => id ≠ i
  | _ => True

/-- Slot `i` serves `sid`, and no other slot does. -/
structure Serves (io : Io S M) (i : SlotId) (sid : S) (slot : ServerSlot S M) : Prop where
  stored : io.servers[i]? = some slot
  active : slot.active = true
  names : slot.sid = sid
  alone : ∀ j other, j ≠ i → io.servers[j]? = some other → other.active = true → other.sid ≠ sid

/-- The task `t` waits in slot `i`. -/
def Awaits (io : Io S M) (i : SlotId) (t : TaskId) : Prop := ∃ slot, io.servers[i]? = some slot ∧ slot.waker = some t

variable {io io' : Io S M} {i : SlotId} {slot : ServerSlot S M} {t : TaskId}

theorem exec_tick (h : io.Serves i sid slot) : ∃ slot', (io.exec .tick).Serves i sid slot' ∧
      Flow sid slot.queue io.mail [] slot'.queue (io.exec .tick).mail ∧
      Ticked slot slot' (io.woken .tick) ∧
      (io.mail.inbox sid ≠ [] → ∀ t, slot.waker = some t → t ∈ io.woken .tick) := by
  obtain ⟨hlt, hget⟩ := getElem?_eq_some_iff.mp h.stored
  have hsplit : io.servers = io.servers.take i ++ slot :: io.servers.drop (i + 1) := by
    rw [← hget, List.getElem_cons_drop, List.take_append_drop]
  -- the servers before this one, this one, and those after it
  have hother : ∀ l, l ⊆ io.servers → (∀ s ∈ l, ∃ j, j ≠ i ∧ io.servers[j]? = some s) →
      ∀ s ∈ l, s.active = true → sid ≠ s.sid := by
    intro l _ hidx s hs hactive
    obtain ⟨j, hj, hsj⟩ := hidx s hs
    exact (h.alone j s hj hsj hactive).symm
  have hpre := hother (io.servers.take i) (List.take_subset _ _) fun s hs => by
    obtain ⟨j, hj⟩ := List.mem_iff_getElem?.mp hs
    have hji : j < i := by
      have := (getElem?_eq_some_iff.mp hj).1
      rw [List.length_take] at this
      omega
    rw [List.getElem?_take_of_lt hji] at hj
    exact ⟨j, Nat.ne_of_lt hji, hj⟩
  have hpost := hother (io.servers.drop (i + 1)) (List.drop_subset _ _) fun s hs => by
    obtain ⟨j, hj⟩ := List.mem_iff_getElem?.mp hs
    rw [List.getElem?_drop] at hj
    exact ⟨i + 1 + j, Nat.ne_of_gt (Nat.lt_add_right j i.lt_succ_self), hj⟩
  generalize hk1 : (pollServers (io.servers.take i) io.mail).2.1 = k1
  have hadds1 : Adds sid io.mail k1 := hk1 ▸ pollServers_adds _ _ hpre
  generalize hd : drainSlot (k1.supply slot.sid + 1) slot k1 = d
  obtain ⟨hticked, hflow⟩ := drainSlot_spec (k1.supply slot.sid + 1) slot k1
  rw [hd, h.names] at hflow
  rw [hd] at hticked
  have hadds2 : Adds sid d.2.1 (pollServers (io.servers.drop (i + 1)) d.2.1).2.1 := pollServers_adds _ _ hpost
  have hpoll : pollServers io.servers io.mail =
      ((pollServers (io.servers.take i) io.mail).1 ++ d.1 :: (pollServers (io.servers.drop (i + 1)) d.2.1).1,
        (pollServers (io.servers.drop (i + 1)) d.2.1).2.1,
        (pollServers (io.servers.take i) io.mail).2.2 ++
          (d.2.2 ++ (pollServers (io.servers.drop (i + 1)) d.2.1).2.2)) := by
    conv_lhs => rw [hsplit]
    rw [pollServers_append, hk1]
    simp only [pollServers, h.active, hd, Bool.not_true, Bool.false_eq_true, if_false]
  have hlen : (pollServers (io.servers.take i) io.mail).1.length = i := by
    rw [pollServers_length, List.length_take, Nat.min_eq_left (Nat.le_of_lt hlt)]
  have hwoken : io.woken .tick = (pollServers (io.servers.take i) io.mail).2.2 ++
      (d.2.2 ++ (pollServers (io.servers.drop (i + 1)) d.2.1).2.2) := by
    rw [woken, hpoll]
  refine ⟨d.1, ⟨?_, hticked.active.trans h.active, hticked.sid.trans h.names, ?_⟩, ?_, ?_, ?_⟩
  · rw [exec, hpoll]
    simp [hlen]
  · intro j other hj hget' hactive
    obtain ⟨slot₀, hslot₀, hsid, hact⟩ := pollServers_slots _ _ _ hget'
    rw [hsid]
    exact h.alone j slot₀ hj hslot₀ (hact ▸ hactive)
  · rw [exec, hpoll]
    exact ((hadds1.flow _).trans hflow).trans (hadds2.flow _)
  · refine ⟨hticked.sid, hticked.active, hticked.waker.imp id fun hall t ht => ?_⟩
    rw [hwoken]
    simp [hall t ht]
  · intro hmail t ht
    have hmail1 : k1.inbox slot.sid ≠ [] := by
      obtain ⟨new, -, hi⟩ := hadds1
      rw [h.names, hi]
      simp [hmail]
    have hin := drainSlot_wakes (k1.supply slot.sid) slot k1 hmail1 ht
    rw [hd] at hin
    rw [hwoken]
    simp [hin]

/-- **A poll of the server**: a message, or none is left and the task waits. -/
theorem exec_recv (h : io.Serves i sid slot) (t : TaskId) : ∃ slot', (io.recvPoll i t).1.Serves i sid slot' ∧
      Flow sid slot.queue io.mail (io.yielded i (.recv i t)) slot'.queue (io.recvPoll i t).1.mail ∧
      ((∃ m, (io.recvPoll i t).2 = some (.ok m)) ∨
        (io.recvPoll i t).2 = none ∧ slot'.queue = [] ∧ (io.recvPoll i t).1.mail.inbox sid = [] ∧
          slot'.waker = some t) := by
  obtain ⟨hlt, -⟩ := getElem?_eq_some_iff.mp h.stored
  have hactive : serverActive io.servers i = true := by simp [serverActive, h.stored, h.active]
  have hset : ∀ (new : ServerSlot S M) (mail : Mail S M), new.active = true → new.sid = sid →
      (⟨io.servers.set i new, mail⟩ : Io S M).Serves i sid new := by
    intro new mail hact hsid
    refine ⟨by simp [hlt], hact, hsid, fun j other hj hget hother => ?_⟩
    rw [List.getElem?_set_ne (Ne.symm hj)] at hget
    exact h.alone j other hj hget hother
  cases hqueue : slot.queue with
  | cons m queue =>
    have hpoll : io.recvPoll i t = (⟨io.servers.set i { slot with queue := queue }, io.mail⟩, some (.ok m)) := by
      simp [recvPoll, hactive, tryRecv, h.stored, h.active, hqueue]
    rw [yielded, if_pos rfl, hpoll]
    exact ⟨_, hset _ _ h.active h.names, ⟨[], by simp, by simp⟩, .inl ⟨m, rfl⟩⟩
  | nil =>
    have htry : tryRecv io.servers io.mail i = (io.servers, io.mail.tryReceive slot.sid) := by
      simp [tryRecv, h.stored, h.active, hqueue]
    obtain ⟨new, ha, hi, hnone⟩ := tryReceive_spec sid io.mail
    rw [h.names] at htry
    rcases hrecv : io.mail.tryReceive sid with ⟨mail, _ | m⟩
    · rw [hrecv] at htry ha hi hnone
      have hwaker : setServerWaker io.servers i t = io.servers.set i { slot with waker := some t } := by
        rw [setServerWaker, List.modify_eq_set_getElem?, h.stored]
        rfl
      have hpoll : io.recvPoll i t = (⟨io.servers.set i { slot with waker := some t }, mail⟩, none) := by
        simp [recvPoll, hactive, htry, hwaker]
      rw [yielded, if_pos rfl, hpoll]
      exact ⟨_, hset _ _ h.active h.names, ⟨new, ha, by simpa [hqueue] using hi⟩, .inr ⟨rfl, hqueue, hnone rfl, rfl⟩⟩
    · rw [hrecv] at htry ha hi
      have hpoll : io.recvPoll i t = (⟨io.servers, mail⟩, some (.ok m)) := by
        simp [recvPoll, hactive, htry]
      rw [yielded, if_pos rfl, hpoll]
      exact ⟨slot, ⟨h.stored, h.active, h.names, h.alone⟩, ⟨new, ha, by simpa [hqueue] using hi⟩, .inl ⟨m, rfl⟩⟩

theorem exec_recv_other (h : io.Serves i sid slot) {id : SlotId} (hid : id ≠ i) (t : TaskId) :
    (io.recvPoll id t).1.Serves i sid slot ∧ Adds sid io.mail (io.recvPoll id t).1.mail := by
  have hkeep : ∀ servers' : List (ServerSlot S M), servers'[i]? = io.servers[i]? →
      (∀ (j : SlotId) (other' : ServerSlot S M), servers'[j]? = some other' → ∃ other, io.servers[j]? = some other ∧
        other'.active = other.active ∧ other'.sid = other.sid) →
      ∀ mail, (⟨servers', mail⟩ : Io S M).Serves i sid slot := by
    intro servers' hi hall mail
    refine ⟨hi.trans h.stored, h.active, h.names, fun j other' hj hget hact => ?_⟩
    obtain ⟨other, hother, hact', hsid'⟩ := hall j other' hget
    rw [hsid']
    exact h.alone j other hj hother (hact' ▸ hact)
  have hsame : ∀ mail, (⟨io.servers, mail⟩ : Io S M).Serves i sid slot :=
    hkeep io.servers rfl fun j other' hget => ⟨other', hget, rfl, rfl⟩
  have hmodify : ∀ f : ServerSlot S M → ServerSlot S M, (∀ s, (f s).active = s.active ∧ (f s).sid = s.sid) →
      ∀ mail, (⟨io.servers.modify id f, mail⟩ : Io S M).Serves i sid slot := by
    intro f hf
    refine hkeep _ ?_ fun j other' hget => ?_
    · rw [List.getElem?_modify]
      simp [hid]
    · rw [List.getElem?_modify] at hget
      obtain ⟨other, hother, rfl⟩ := Option.map_eq_some_iff.mp hget
      refine ⟨other, hother, ?_⟩
      by_cases hidj : id = j
      · simpa [hidj] using hf other
      · simp [hidj]
  unfold recvPoll
  cases hactive : serverActive io.servers id with
  | false => exact ⟨hsame io.mail, .refl _ _⟩
  | true =>
    obtain ⟨other, hother, hact⟩ : ∃ other, io.servers[id]? = some other ∧ other.active = true := by
      unfold serverActive at hactive
      cases hget : io.servers[id]? with
      | none => simp [hget] at hactive
      | some other => exact ⟨other, rfl, by simpa [hget] using hactive⟩
    have hne : sid ≠ other.sid := (h.alone id other hid hother hact).symm
    have hadds := tryReceive_adds hne io.mail
    have hset : ∀ queue, io.servers.set id { other with queue := queue, active := true } =
        io.servers.modify id fun s => { s with queue := queue } := by
      intro queue
      rw [List.modify_eq_set_getElem?, hother]
      exact congrArg (io.servers.set id) (by rw [hact])
    rw [if_neg (by simp)]
    cases hqueue : other.queue with
    | cons m queue =>
      simp only [tryRecv, hother, hact, hqueue, Bool.not_true, Bool.false_eq_true, if_false]
      rw [hset queue]
      exact ⟨hmodify (fun s => { s with queue := queue }) (fun _ => ⟨rfl, rfl⟩) io.mail, .refl _ _⟩
    | nil =>
      simp only [tryRecv, hother, hact, hqueue, Bool.not_true, Bool.false_eq_true, if_false]
      cases hmsg : io.mail.tryReceive other.sid with
      | mk mail msg =>
        rw [hmsg] at hadds
        cases msg with
        | some m => exact ⟨hsame mail, hadds⟩
        | none => exact ⟨hmodify (fun s => { s with waker := some t }) (fun _ => ⟨rfl, rfl⟩) mail, hadds⟩

theorem register_serves (h : io.Serves i sid slot) (hne : sid' ≠ sid) :
    (io.exec (.register sid')).Serves i sid slot := by
  obtain ⟨hnew, hfree, hothers⟩ := registerServer_spec sid' io.servers
  have hi : i ≠ (registerServer sid' io.servers).2 := by
    rintro hi
    have hinactive := hfree slot (hi ▸ h.stored)
    rw [h.active] at hinactive
    cases hinactive
  refine ⟨(hothers i hi).trans h.stored, h.active, h.names, fun j other hj hget hact => ?_⟩
  by_cases hjn : j = (registerServer sid' io.servers).2
  · have hget' : some ⟨sid', [], none, true⟩ = some other := hnew.symm.trans (hjn ▸ hget)
    cases hget'
    exact hne
  · exact h.alone j other hj ((hothers j hjn).symm.trans hget) hact

theorem unregister_serves (h : io.Serves i sid slot) {id : SlotId} (hid : id ≠ i) :
    (io.exec (.unregister id)).Serves i sid slot := by
  refine ⟨?_, h.active, h.names, fun j other hj hget hact => ?_⟩
  · rw [exec, unregisterServer, List.getElem?_modify, h.stored]
    simp [hid]
  · rw [exec, unregisterServer, List.getElem?_modify] at hget
    obtain ⟨other₀, hother₀, rfl⟩ := Option.map_eq_some_iff.mp hget
    by_cases hidj : id = j
    · simp [hidj] at hact
    · simp only [hidj, if_false] at hact ⊢
      exact h.alone j other₀ hj hother₀ hact

/-! ## 5. Runs -/

/-- **What one act does** for the server in slot `i`: its messages flow, and a task that waits there
goes on waiting or is woken, unless the server is polled. -/
theorem exec_carries (h : io.Serves i sid slot) {a : Act S M} (ha : Allowed i sid a) :
    ∃ slot', (io.exec a).Serves i sid slot' ∧
      Flow sid slot.queue io.mail (io.yielded i a) slot'.queue (io.exec a).mail ∧
      (slot'.waker = slot.waker ∨ (∀ t, slot.waker = some t → t ∈ io.woken a) ∨ ∃ t, a = .recv i t) := by
  cases a with
  | arrive x =>
    exact ⟨slot, ⟨h.stored, h.active, h.names, h.alone⟩, (arrive_adds sid io.mail x).flow _, .inl rfl⟩
  | tick =>
    obtain ⟨slot', hserves, hflow, hticked, -⟩ := exec_tick h
    exact ⟨slot', hserves, hflow, hticked.waker.imp id .inl⟩
  | recv id t =>
    by_cases hid : id = i
    · subst hid
      obtain ⟨slot', hserves, hflow, -⟩ := exec_recv h t
      exact ⟨slot', hserves, hflow, .inr (.inr ⟨t, rfl⟩)⟩
    · obtain ⟨hserves, hadds⟩ := exec_recv_other h hid t
      have hnone : io.yielded i (.recv id t) = [] := by rw [yielded, if_neg hid]
      exact ⟨slot, hserves, hnone ▸ hadds.flow _, .inl rfl⟩
  | register sid' => exact ⟨slot, register_serves h ha, (Adds.refl _ _).flow _, .inl rfl⟩
  | unregister id => exact ⟨slot, unregister_serves h ha, (Adds.refl _ _).flow _, .inl rfl⟩

/-- From `io₀` on, the server in slot `i` has yielded `ys`. -/
inductive Run (i : SlotId) (sid : S) (io₀ : Io S M) : Io S M → List M → Prop
  | start : Run i sid io₀ io₀ []
  | step {io : Io S M} {ys : List M} (a : Act S M) (h : Run i sid io₀ io ys) (ha : Allowed i sid a) :
      Run i sid io₀ (io.exec a) (ys ++ io.yielded i a)

theorem Run.flow {io₀ : Io S M} {slot₀ : ServerSlot S M} {ys : List M} (h : Run i sid io₀ io ys)
    (h₀ : io₀.Serves i sid slot₀) :
    ∃ slot, io.Serves i sid slot ∧ Flow sid slot₀.queue io₀.mail ys slot.queue io.mail := by
  induction h with
  | start => exact ⟨slot₀, h₀, (Adds.refl _ _).flow _⟩
  | step a _ ha ih =>
    obtain ⟨slot, hserves, hflow⟩ := ih
    obtain ⟨slot', hserves', hflow', -⟩ := exec_carries hserves ha
    exact ⟨slot', hserves', hflow.trans hflow'⟩

/-- The server that `AsyncServer::new` registers, if no other slot serves its id. -/
theorem register_new (io : Io S M) (sid : S) (hfree : ∀ slot ∈ io.servers, slot.active = true → slot.sid ≠ sid) :
    (io.exec (.register sid)).Serves (registerServer sid io.servers).2 sid ⟨sid, [], none, true⟩ := by
  obtain ⟨hnew, -, hothers⟩ := registerServer_spec sid io.servers
  refine ⟨hnew, rfl, rfl, fun j other hj hget hact => ?_⟩
  have hget' : io.servers[j]? = some other := (hothers j hj).symm.trans hget
  exact hfree other (List.mem_of_getElem? hget') hact

/-- **An async server yields its messages once and in order.**  Register a server whose id no other
slot has, and let messages arrive, the reactor tick and tasks poll in any order, as long as the
server is kept and its id is not registered again.  What it has yielded, what is in its queue and
what waits in the kernel is, in this order, what was waiting for it at first and what has arrived
since; so a poll yields the oldest message not yet yielded, and one that is pending leaves none.
A task left pending waits in the slot, goes on waiting or is woken at every act but a poll of the
server, and is woken by a tick that begins with a message there. -/
theorem async_server_delivers (io₀ : Io S M) (sid : S)
    (hfree : ∀ slot ∈ io₀.servers, slot.active = true → slot.sid ≠ sid) {io : Io S M} {ys : List M}
    (h : Run (registerServer sid io₀.servers).2 sid (io₀.exec (.register sid)) io ys) :
    (∃ slot since, io.servers[(registerServer sid io₀.servers).2]? = some slot ∧
      io.mail.arrived sid = io₀.mail.arrived sid ++ since ∧
      ys ++ slot.queue ++ io.mail.inbox sid = io₀.mail.inbox sid ++ since) ∧
    (∀ t, (∃ m, (io.recvPoll (registerServer sid io₀.servers).2 t).2 = some (.ok m)) ∨
      (io.recvPoll (registerServer sid io₀.servers).2 t).2 = none ∧
      (io.recvPoll (registerServer sid io₀.servers).2 t).1.Awaits (registerServer sid io₀.servers).2 t ∧
      ∃ since, (io.recvPoll (registerServer sid io₀.servers).2 t).1.mail.arrived sid =
          io₀.mail.arrived sid ++ since ∧ ys = io₀.mail.inbox sid ++ since) ∧
    ∀ t, io.Awaits (registerServer sid io₀.servers).2 t → (∀ a, Allowed (registerServer sid io₀.servers).2 sid a →
        (∀ u, a ≠ .recv (registerServer sid io₀.servers).2 u) →
        (io.exec a).Awaits (registerServer sid io₀.servers).2 t ∨ t ∈ io.woken a) ∧
      (io.mail.inbox sid ≠ [] → t ∈ io.woken .tick) := by
  have h₀ := register_new io₀ sid hfree
  generalize (registerServer sid io₀.servers).2 = i at h h₀ ⊢
  obtain ⟨slot, hserves, hflow⟩ := h.flow h₀
  refine ⟨?_, fun t => ?_, fun t hawaits => ⟨fun a ha hnot => ?_, fun hmail => ?_⟩⟩
  · obtain ⟨since, ha, hi⟩ := hflow
    exact ⟨slot, since, hserves.stored, ha, hi.symm⟩
  · obtain ⟨slot', hserves', hflow', hcase⟩ := exec_recv hserves t
    refine hcase.imp id fun ⟨hpending, hqueue, hinbox, hwaker⟩ => ⟨hpending, ⟨slot', hserves'.stored, hwaker⟩, ?_⟩
    have hnone : io.yielded i (.recv i t) = [] := by rw [yielded, if_pos rfl, hpending]
    obtain ⟨since, ha, hi⟩ := hflow.trans hflow'
    refine ⟨since, ha, ?_⟩
    rw [hnone, hqueue, hinbox] at hi
    simpa [exec] using hi.symm
  · obtain ⟨slot1, hget, hwaker⟩ := hawaits
    obtain rfl : slot = slot1 := Option.some.inj (hserves.stored.symm.trans hget)
    obtain ⟨slot', hserves', -, hsame | hwoken | ⟨u, hrecv⟩⟩ := exec_carries hserves ha
    · exact .inl ⟨slot', hserves'.stored, hsame.trans hwaker⟩
    · exact .inr (hwoken t hwaker)
    · exact absurd hrecv (hnot u)
  · obtain ⟨slot1, hget, hwaker⟩ := hawaits
    obtain rfl : slot = slot1 := Option.some.inj (hserves.stored.symm.trans hget)
    obtain ⟨-, -, -, -, hwoken⟩ := exec_tick hserves
    exact hwoken hmail t hwaker

/-- A runtime that has registered nothing yet, with a message waiting for server 7. -/
def oneWaiting : Io Nat Nat := ⟨[], ⟨fun sid => if sid = 7 then [42] else [], [], fun _ => []⟩⟩

theorem async_server_delivers_oneWaiting : (∀ slot ∈ oneWaiting.servers, slot.active = true → slot.sid ≠ 7) ∧
      ∃ slot since, ((oneWaiting.exec (.register 7)).exec (.recv 0 3)).servers[0]? = some slot ∧
        ((oneWaiting.exec (.register 7)).exec (.recv 0 3)).mail.arrived 7 = [] ++ since ∧
        [42] ++ slot.queue ++ ((oneWaiting.exec (.register 7)).exec (.recv 0 3)).mail.inbox 7 = [42] ++ since :=
  have hfree : ∀ slot ∈ oneWaiting.servers, slot.active = true → slot.sid ≠ 7 := by simp [oneWaiting]
  ⟨hfree, (async_server_delivers oneWaiting 7 hfree (.step (.recv 0 3) .start trivial)).1⟩

end Io

/-! ## 6. Receiving tasks -/

/-- The servers and the kernel's queues of the executor's world. -/
def World.io (w : World F S M) : Io S M := ⟨w.reactor.servers, w.mail⟩

/-- The world with the servers and the kernel's queues of `io`. -/
def World.withIo (w : World F S M) (io : Io S M) : World F S M :=
  { w with reactor := { w.reactor with servers := io.servers }, mail := io.mail }

/-- The program of a task that awaits a message does what `Io.recvPoll` does, and goes on with its
answer. -/
theorem recv_run (slot : SlotId) (t : TaskId) (onReady : Except RecvError M → Prog F S M)
    (onPending : Prog F S M) (w : World F S M) :
    (recv slot t onReady onPending).run w =
      (((w.io.recvPoll slot t).2.elim onPending onReady).run (w.withIo (w.io.recvPoll slot t).1)) := by
  unfold recv Io.recvPoll World.io
  simp only [Prog.run]
  cases hactive : serverActive w.reactor.servers slot with
  | false => rfl
  | true =>
    simp only [Bool.not_true, Bool.false_eq_true, if_false]
    rw [Prog.run_tryRecv]
    rcases htry : tryRecv w.reactor.servers w.mail slot with ⟨servers, mail, _ | m⟩ <;> rfl

end BeetKernel.AsyncRt

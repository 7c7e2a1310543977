/-
# Block requests and late completions

`soundRun_iff`: a sequence of calls of the block driver goes well, every success being the
completion of its own chain and every failure leaving nothing in the device's hands, exactly if the
device answers every request before the driver gives it up.  A request that is given up stays with
the device, together with the statics that the next request uses; that one then takes the late
completion for its own (`late_completion`).

From a queue on which nothing is pending (`Idle`) a request goes through three stages: its chain is
offered, taken and done.  `Waits` says what the memory is in each, and `act_waits` that the device
moves a request from stage to stage and does nothing else.
-/
import BeetKernel.Virtio.Blk
import Mathlib.Data.List.Flatten

namespace BeetKernel.Virtio

open Virtqueue

/-! ## 1. Answers -/

/-- How far the device is with a request. -/
inductive Stage where
  | offered
  | taken
  | done
  deriving DecidableEq

/-- A request that is the only one is taken by the first `fetch` and done with the `complete` that
follows. -/
def Stage.next : Stage → Act → Stage
  | .offered, .fetch => .taken
  | .taken, .complete 0 _ _ => .done
  | s, _ => s

theorem Stage.next_done (a : Act) : Stage.next .done a = .done := by cases a <;> rfl

theorem Stage.foldl_done (batch : List Act) : batch.foldl Stage.next .done = .done := by
  induction batch with
  | nil => rfl
  | cons a batch ih => rw [List.foldl_cons, Stage.next_done, ih]

namespace World

/-- The device is done with the request before the driver's last look at the used ring: among what
it does from the time the chain is available on there are a `fetch` and, later, a `complete`. -/
def Call.Answered (c : Call) : Prop := ((List.range' 4 maxPolls).flatMap c.script).foldl Stage.next .offered = .done

/-- The call passes the checks of `read_sectors` and `write_sectors`. -/
def Call.Submits (capacity : Option Nat) (c : Call) : Prop := (c.len % sectorSize = 0 ∧ c.len / sectorSize ≠ 0) ∧
    ∃ n, capacity = some n ∧ (c.lba + c.len / sectorSize) % 2 ^ 64 ≤ n

/-! ## 2. What the device can change -/

variable {w : World}

theorem writeTo_eq (w : World) (d : VirtqDesc) (bytes : Nat → UInt8) :
    ∃ data status, w.writeTo d bytes = { w with data := data, status := status } := by
  unfold writeTo
  split
  · split
    · exact ⟨_, w.status, rfl⟩
    · exact ⟨w.data, _, rfl⟩
    · exact ⟨w.data, w.status, rfl⟩
  · exact ⟨w.data, w.status, rfl⟩

theorem touch_eq (w : World) (descs : List (Nat × VirtqDesc)) (bytes : Nat → UInt8) :
    ∃ data status, descs.foldl (fun w d => w.writeTo d.2 bytes) w =
      { w with data := data, status := status } := by
  induction descs generalizing w with
  | nil => exact ⟨w.data, w.status, rfl⟩
  | cons d descs ih =>
    obtain ⟨data, status, h⟩ := writeTo_eq w d.2 bytes
    rw [List.foldl_cons, h]
    exact ih _

theorem transfer_eq (w : World) (req : ReqHeader) (d : VirtqDesc) : ∃ data status disk, w.transfer req d =
      { w with data := data, status := status, device := { w.device with disk := disk } } := by
  unfold transfer
  split
  · obtain ⟨data, status, h⟩ := writeTo_eq w d fun k => w.device.disk (sectorSize * req.sector + k)
    exact ⟨data, status, w.device.disk, h⟩
  · unfold store
    split
    · exact ⟨w.data, w.status, _, rfl⟩
    · exact ⟨w.data, w.status, w.device.disk, rfl⟩

/-- Nothing is available to the device, and it works on nothing. -/
structure Quiet (w : World) : Prop where
  inFlight : w.device.inFlight = []
  lastAvail : w.device.lastAvail = w.queue.availIdx

theorem Quiet.act (h : w.Quiet) (a : Act) : w.act a = w := by
  cases a with
  | fetch => exact if_pos h.lastAvail
  | touch i bytes => simp [World.act, h.inFlight]
  | complete i status len => simp [World.act, h.inFlight]

theorem Quiet.acts (h : w.Quiet) (batch : List Act) : w.acts batch = w := by
  induction batch with
  | nil => rfl
  | cons a batch ih => rw [World.acts, List.foldl_cons, h.act]; exact ih

theorem Quiet.held (h : w.Quiet) : w.held = [] := by
  simp [World.held, unfetched, h.inFlight, h.lastAvail]

theorem Quiet.leavesNothing (h : w.Quiet) : w.LeavesNothing := by
  intro x hx
  simp [h.held] at hx

/-! ## 3. A request and its stages -/

/-- The descriptor of a call's buffer. -/
def Call.dataDesc (c : Call) (next : Nat) : VirtqDesc := ⟨.data c.buf, c.len % 2 ^ 32, dataFlags c.type, next⟩

@[simp] theorem Call.dataDesc_addr (c : Call) (next : Nat) : (c.dataDesc next).addr = .data c.buf := rfl

@[simp] theorem Call.dataDesc_len (c : Call) (next : Nat) : (c.dataDesc next).len = c.len :=
  Nat.mod_eq_of_lt (lt_of_le_of_lt c.len_le (by decide))

/-- A request as the driver has written it to the memory: its descriptors `x`, `y` and `z`, the
free ones, and the header. -/
structure Posted (capacity : Option Nat) (c : Call) (x y z : Nat) (free : List Nat) (w : World) : Prop where
  capacity : w.capacity = capacity
  num : w.queue.num = queueSize
  free : w.queue.Free free
  first : w.queue.desc x = ⟨.header, 16, descFNext, y⟩
  second : w.queue.desc y = c.dataDesc z
  last : w.queue.desc z = ⟨.status, 1, descFWrite, 0⟩
  header : w.header = ⟨c.type, c.lba⟩

/-- The chain of a request. -/
def Call.chain (c : Call) (x y z : Nat) : Chain :=
  ⟨x, [(x, ⟨.header, 16, descFNext, y⟩), (y, c.dataDesc z), (z, ⟨.status, 1, descFWrite, 0⟩)], ⟨c.type, c.lba⟩⟩

/-- Buffer and sectors agree. -/
def Agrees (c : Call) (w : World) : Prop := ∀ k < c.len, w.data (c.buf + k) = w.device.disk (sectorSize * c.lba + k)

/-- Where the request of `c` is at each stage. -/
def At (c : Call) (x y z : Nat) (w : World) : Stage → Prop
  | .offered => w.device.inFlight = [] ∧ w.queue.availIdx = w.device.lastAvail + 1 ∧
      w.queue.availRing (w.device.lastAvail.toNat % w.queue.num) = x ∧ w.queue.usedIdx = w.queue.lastUsedIdx
  | .taken => w.device.inFlight = [c.chain x y z] ∧ w.device.lastAvail = w.queue.availIdx ∧
      w.queue.usedIdx = w.queue.lastUsedIdx
  | .done => w.Quiet ∧ w.queue.usedIdx = w.queue.lastUsedIdx + 1 ∧
      (w.queue.usedRing (w.queue.lastUsedIdx.toNat % w.queue.num)).1 = x ∧ (w.status = 0 → w.Agrees c)

variable {capacity : Option Nat} {c : Call} {x y z : Nat} {free : List Nat} {st : Stage}

theorem Posted.chained (h : Posted capacity c x y z free w) : Chained w.queue.desc x y z := by
  refine ⟨⟨?_, by rw [h.first]⟩, ⟨?_, by rw [h.second]; rfl⟩, ?_⟩
  · simp only [h.first, VirtqDesc.hasNext]
    decide
  · simp only [h.second, Call.dataDesc, VirtqDesc.hasNext]
    cases c.type <;> decide
  · simp only [h.last, VirtqDesc.hasNext]
    decide

theorem Posted.readChain (h : Posted capacity c x y z free w) :
    (⟨x, Virtqueue.readChain w.queue.desc w.queue.num x, w.header⟩ : Chain) = c.chain x y z := by
  rw [h.chained.readChain (by rw [h.num]; decide), h.first, h.second, h.last, h.header]
  rfl

/-- **The transfer of a request** makes its buffer and its sectors agree. -/
theorem transfer_agrees (w : World) (c : Call) (z : Nat) : (w.transfer ⟨c.type, c.lba⟩ (c.dataDesc z)).Agrees c := by
  intro k hk
  cases htype : c.type with
  | read =>
    have hwrite : (c.dataDesc z).writable = true := by
      simp only [Call.dataDesc, VirtqDesc.writable, htype]
      decide
    simp [transfer, writeTo, hwrite, hk]
  | write => simp [transfer, store, hk]

theorem complete_done (hpost : Posted capacity c x y z free w) (h : w.At c x y z .taken) (status : UInt8)
    (len : Nat) : Posted capacity c x y z free (w.act (.complete 0 status len)) ∧
      (w.act (.complete 0 status len)).At c x y z .done := by
  obtain ⟨hin, havail, hused⟩ := h
  have hstatus : ∀ w : World, w.writeTo ⟨.status, 1, descFWrite, 0⟩ (fun _ => status) =
      { w with status := status } := fun w => if_pos (by decide)
  simp only [act, hin, List.getElem?_cons_zero, Call.chain, hstatus]
  by_cases hs : status = 0
  · obtain ⟨data, status', disk, heq⟩ := transfer_eq w ⟨c.type, c.lba⟩ (c.dataDesc z)
    have hagrees := transfer_agrees w c z
    rw [if_pos hs, heq]
    rw [heq] at hagrees
    refine ⟨⟨hpost.capacity, hpost.num, ⟨hpost.free.links, hpost.free.count⟩, hpost.first, hpost.second,
      hpost.last, hpost.header⟩, ⟨by simp [pushUsed, hin], havail⟩, by simp [pushUsed, hused], ?_, fun _ => hagrees⟩
    simp [pushUsed, hused]
  · rw [if_neg hs]
    refine ⟨⟨hpost.capacity, hpost.num, ⟨hpost.free.links, hpost.free.count⟩, hpost.first, hpost.second,
      hpost.last, hpost.header⟩, ⟨by simp [pushUsed, hin], havail⟩, by simp [pushUsed, hused], ?_,
      fun h => absurd h hs⟩
    simp [pushUsed, hused]

theorem succ_ne (i : UInt16) : i ≠ i + 1 := by
  intro h
  have := congrArg UInt16.toNat h
  rw [UInt16.toNat_add] at this
  have := i.toNat_lt
  simp at *

/-- **An act of the device** moves the request to the stage that `Stage.next` says. -/
theorem act_waits (hpost : Posted capacity c x y z free w) (h : w.At c x y z st) (a : Act) :
    Posted capacity c x y z free (w.act a) ∧ (w.act a).At c x y z (st.next a) := by
  cases st with
  | offered =>
    obtain ⟨hin, havail, hring, hused⟩ := h
    cases a with
    | fetch =>
      have hne : w.device.lastAvail ≠ w.queue.availIdx := havail ▸ succ_ne _
      simp only [act, if_neg hne, hring, hpost.readChain, hin]
      exact ⟨⟨hpost.capacity, hpost.num, hpost.free, hpost.first, hpost.second, hpost.last, hpost.header⟩,
        rfl, havail.symm, hused⟩
    | touch i bytes =>
      have heq : w.act (.touch i bytes) = w := by simp [act, hin]
      rw [heq]
      exact ⟨hpost, hin, havail, hring, hused⟩
    | complete i status len =>
      have heq : w.act (.complete i status len) = w := by simp [act, hin]
      rw [heq]
      exact ⟨hpost, hin, havail, hring, hused⟩
  | taken =>
    cases a with
    | fetch =>
      have heq : w.act .fetch = w := if_pos h.2.1
      rw [heq]
      exact ⟨hpost, h⟩
    | touch i bytes =>
      cases i with
      | zero =>
        obtain ⟨data, status, heq⟩ := touch_eq w (c.chain x y z).descs bytes
        have hact : w.act (.touch 0 bytes) = { w with data := data, status := status } := by
          simp only [act, h.1, List.getElem?_cons_zero, heq]
        rw [hact]
        exact ⟨⟨hpost.capacity, hpost.num, hpost.free, hpost.first, hpost.second, hpost.last, hpost.header⟩, h⟩
      | succ i =>
        have heq : w.act (.touch (i + 1) bytes) = w := by simp [act, h.1]
        rw [heq]
        exact ⟨hpost, h⟩
    | complete i status len =>
      cases i with
      | zero => exact complete_done hpost h status len
      | succ i =>
        have heq : w.act (.complete (i + 1) status len) = w := by simp [act, h.1]
        rw [heq]
        exact ⟨hpost, h⟩
  | done =>
    rw [h.1.act, Stage.next_done]
    exact ⟨hpost, h⟩

theorem acts_waits (hpost : Posted capacity c x y z free w) (h : w.At c x y z st) (batch : List Act) :
    Posted capacity c x y z free (w.acts batch) ∧ (w.acts batch).At c x y z (batch.foldl Stage.next st) := by
  induction batch generalizing w st with
  | nil => exact ⟨hpost, h⟩
  | cons a batch ih =>
    obtain ⟨hpost', h'⟩ := act_waits hpost h a
    exact ih hpost' h'

/-! ## 4. Polling -/

/-- Between two calls: nothing is pending, and every descriptor is free. -/
structure Idle (capacity : Option Nat) (w : World) : Prop where
  capacity : w.capacity = capacity
  num : w.queue.num = queueSize
  free : ∃ l, w.queue.Free l ∧ l.Nodup ∧ l.length = queueSize
  quiet : w.Quiet
  used : w.queue.usedIdx = w.queue.lastUsedIdx

/-- There is nothing in the used ring until the request is done. -/
theorem At.popUsed_eq_none (h : w.At c x y z st) (hst : st ≠ .done) : w.queue.popUsed = none := by
  cases st with
  | offered => exact if_pos h.2.2.2.symm
  | taken => exact if_pos h.2.2.symm
  | done => exact absurd rfl hst

theorem At.popUsed_done (hpost : Posted capacity c x y z free w) (h : w.At c x y z .done)
    (hnodup : (x :: y :: z :: free).Nodup) (hlen : free.length + 3 = queueSize) :
    ∃ len q, w.queue.popUsed = some ((x, len), q) ∧
      Idle capacity { w with queue := q.freeChain (q.num + 1) x } := by
  obtain ⟨hquiet, hused, hring, -⟩ := h
  have hpop : w.queue.popUsed = some ((x, (w.queue.usedRing (w.queue.lastUsedIdx.toNat % w.queue.num)).2),
      { w.queue with lastUsedIdx := w.queue.lastUsedIdx + 1 }) := by
    rw [popUsed, if_neg (hused ▸ succ_ne _), ← hring]
  refine ⟨_, _, hpop, ?_⟩
  have hchained : Chained { w.queue with lastUsedIdx := w.queue.lastUsedIdx + 1 }.desc x y z := hpost.chained
  have hfuel : 3 ≤ w.queue.num + 1 := by
    rw [hpost.num]
    decide
  obtain ⟨hfree, hnum, havail, hused', hlast⟩ := hchained.freeChain ⟨hpost.free.links, hpost.free.count⟩ hnodup hfuel
  refine ⟨hpost.capacity, hnum.trans hpost.num, ⟨_, hfree, ?_, by simp [← hlen]⟩,
    ⟨hquiet.inFlight, hquiet.lastAvail.trans havail.symm⟩, ?_⟩
  · have hperm : (z :: y :: x :: free).Perm (x :: y :: z :: free) :=
      (List.Perm.swap y z _).trans ((List.Perm.cons y (List.Perm.swap x z _)).trans (List.Perm.swap x y _))
    exact hperm.nodup_iff.mpr hnodup
  · exact hused'.trans (hused.trans hlast.symm)

/-- **The poll loop** ends with the request's own chain if the device is done with it in time, and
leaves it where it is if not. -/
theorem poll_spec (script : Nat → List Act) (left k : Nat) (hpost : Posted capacity c x y z free w)
    (h : w.At c x y z st) (hst : st ≠ .done) (hnodup : (x :: y :: z :: free).Nodup)
    (hlen : free.length + 3 = queueSize) :
    (((List.range' k left).flatMap script).foldl Stage.next st = .done →
      ∃ w', w.poll script left k = (some x, w') ∧ Idle capacity w' ∧ (w'.status = 0 → w'.Agrees c)) ∧
    (((List.range' k left).flatMap script).foldl Stage.next st ≠ .done →
      ∃ w' st', w.poll script left k = (none, w') ∧ Posted capacity c x y z free w' ∧
        w'.At c x y z st' ∧ st' ≠ .done) := by
  induction left generalizing k w st with
  | zero => exact ⟨fun hdone => absurd hdone hst, fun _ => ⟨w, st, rfl, hpost, h, hst⟩⟩
  | succ left ih =>
    obtain ⟨hpost', h'⟩ := acts_waits hpost h (script k)
    rw [List.range'_succ, List.flatMap_cons, List.foldl_append]
    by_cases hnow : (script k).foldl Stage.next st = .done
    · rw [hnow] at h' ⊢
      rw [Stage.foldl_done]
      obtain ⟨len, q, hpop, hidle⟩ := h'.popUsed_done hpost' hnodup hlen
      refine ⟨fun _ => ⟨_, ?_, hidle, h'.2.2.2⟩, fun hne => absurd rfl hne⟩
      simp only [poll, hpop]
    · have hnone := h'.popUsed_eq_none hnow
      have hpoll : w.poll script (left + 1) k = (w.acts (script k)).poll script left (k + 1) := by
        simp only [poll, hnone]
      rw [hpoll]
      exact ih (k + 1) hpost' h' hnow

/-- A request that is not done yet can still be used by the device. -/
theorem At.not_leavesNothing (hpost : Posted capacity c x y z free w) (h : w.At c x y z st)
    (hst : st ≠ .done) : ¬ w.LeavesNothing := by
  intro hleaves
  suffices hheld : (x, (⟨.header, 16, descFNext, y⟩ : VirtqDesc)) ∈ w.held by
    exact absurd (hleaves _ hheld).2 (by simp)
  rw [World.held, List.mem_append]
  cases st with
  | offered =>
    right
    obtain ⟨-, havail, hring, -⟩ := h
    have hone : (w.queue.availIdx - w.device.lastAvail).toNat = 1 := by
      rw [havail, add_sub_cancel_left]
      rfl
    have hchain : Virtqueue.readChain w.queue.desc w.queue.num x = (c.chain x y z).descs :=
      congrArg Chain.descs hpost.readChain
    simp [unfetched, hone, hring, hchain, Call.chain]
  | taken =>
    left
    simp [h.1, Call.chain]
  | done => exact absurd rfl hst

/-! ## 5. Calls -/

theorem start_idle (capacity : Option Nat) (data disk : Nat → UInt8) : Idle capacity (start capacity data disk) :=
  ⟨rfl, rfl, ⟨_, free_init queueSize, List.nodup_range', by simp⟩, ⟨rfl, rfl⟩, rfl⟩

/-- A request from an idle queue gets as far as the poll loop, with its chain offered. -/
theorem Idle.doBlockRequest (h : Idle capacity w) (c : Call) :
    ∃ x y z free w', (x :: y :: z :: free).Nodup ∧ free.length + 3 = queueSize ∧
      Posted capacity c x y z free w' ∧ w'.At c x y z .offered ∧
      w.doBlockRequest c.type c.lba c.buf c.len c.script = finish x (w'.poll c.script maxPolls 4) := by
  obtain ⟨l, hfree, hnodup, hlen⟩ := h.free
  obtain ⟨x, y, z, free, rfl⟩ : ∃ x y z free, l = x :: y :: z :: free := by
    match l, hlen with
    | x :: y :: z :: free, _ => exact ⟨x, y, z, free, rfl⟩
  obtain ⟨q1, halloc1, hfree1, hq1⟩ := hfree.allocDesc
  obtain ⟨q2, halloc2, hfree2, hq2⟩ := hfree1.allocDesc
  obtain ⟨q, halloc3, hfree3, hq3⟩ := hfree2.allocDesc
  have hq : q = { w.queue with freeHead := q.freeHead, numFree := q.numFree } := by
    rw [hq1] at hq2
    rw [hq2] at hq3
    exact hq3
  -- Nothing is pending until the chain is available, so the device does nothing up to there.
  have hquiet : ∀ w' : World, w'.queue.availIdx = w.queue.availIdx → w'.device = w.device → w'.Quiet :=
    fun w' havail hdevice =>
      ⟨by rw [hdevice]; exact h.quiet.inFlight, by rw [hdevice, havail]; exact h.quiet.lastAvail⟩
  have havail : q.availIdx = w.queue.availIdx := by rw [hq]
  have hnodup' := hnodup
  simp only [List.nodup_cons, List.mem_cons, not_or] at hnodup'
  obtain ⟨⟨hxy, hxz, hxl⟩, ⟨hyz, hyl⟩, hzl, -⟩ := hnodup'
  let w1 : World := { w with queue := q, header := ⟨c.type, c.lba⟩, status := 0xFF }
  let w2 : World := w1.setDescs x y z c.type c.buf c.len
  let w3 : World := { w2 with queue := w2.queue.pushAvail x }
  refine ⟨x, y, z, free, w3, hnodup, by simpa using hlen, ?_, ?_, ?_⟩
  · refine ⟨h.capacity, ?_, ⟨?_, hfree3.count⟩, ?_, ?_, ?_, rfl⟩
    · show q.num = queueSize
      rw [hq]
      exact h.num
    · refine hfree3.links.congr fun u hu => ?_
      have hux : u ≠ x := ne_of_mem_of_not_mem hu hxl
      have huy : u ≠ y := ne_of_mem_of_not_mem hu hyl
      have huz : u ≠ z := ne_of_mem_of_not_mem hu hzl
      simp [w3, w2, w1, setDescs, pushAvail, hux, huy, huz]
    · simp [w3, w2, setDescs, pushAvail, hxy, hxz]
    · simp [w3, w2, setDescs, pushAvail, hyz, Call.dataDesc]
    · simp [w3, w2, setDescs, pushAvail]
  · refine ⟨h.quiet.inFlight, ?_, ?_, ?_⟩
    · show q.availIdx + 1 = w.device.lastAvail + 1
      rw [havail, h.quiet.lastAvail]
    · show Function.update q.availRing (q.availIdx.toNat % q.num) x (w.device.lastAvail.toNat % q.num) = x
      rw [havail, h.quiet.lastAvail, Function.update_self]
    · show q.usedIdx = q.lastUsedIdx
      rw [hq]
      exact h.used
  · have h1 : ({ w with queue := q } : World).acts (c.script 1) = { w with queue := q } :=
      (hquiet { w with queue := q } havail rfl).acts _
    have h2 : w1.acts (c.script 2) = w1 := (hquiet w1 havail rfl).acts _
    have h3 : w2.acts (c.script 3) = w2 := (hquiet w2 havail rfl).acts _
    have hpost : ({ w with queue := q } : World).post x y z c.type c.lba c.buf c.len c.script = w3 := by
      rw [post, h1]
      show ({ (w1.acts (c.script 2)).setDescs x y z c.type c.buf c.len |>.acts (c.script 3) with
        queue := (((w1.acts (c.script 2)).setDescs x y z c.type c.buf c.len).acts (c.script 3)).queue.pushAvail x }
          : World) = w3
      rw [h2]
      show ({ w2.acts (c.script 3) with queue := (w2.acts (c.script 3)).queue.pushAvail x } : World) = w3
      rw [h3]
    rw [World.doBlockRequest, h.quiet.acts]
    simp only [halloc1, halloc2, halloc3, hpost]

/-- **A call that submits a request** is sound exactly if the device answers it in time, and then
leaves the queue idle. -/
theorem Idle.submits (h : Idle capacity w) (hsubmits : c.Submits capacity) :
    (c.Answered → w.Sound c ∧ Idle capacity (w.call c).2) ∧ (w.Sound c → c.Answered) := by
  obtain ⟨⟨hmod, hdiv⟩, n, hcap, hrange⟩ := hsubmits
  have hcall : w.call c = w.doBlockRequest c.type c.lba c.buf c.len c.script := by
    rw [World.call, if_neg (by simp [hmod, hdiv]), h.capacity, hcap]
    exact if_neg (not_lt.mpr hrange)
  obtain ⟨x, y, z, free, w₀, hnodup, hlen, hpost, hat, hrequest⟩ := h.doBlockRequest c
  obtain ⟨hdone, hnot⟩ := poll_spec c.script maxPolls 4 hpost hat (by decide) hnodup hlen
  rw [hrequest] at hcall
  constructor
  · intro hanswered
    obtain ⟨w', hpoll, hidle, hagrees⟩ := hdone hanswered
    rw [hpoll] at hcall
    have hworld : (w.call c).2 = w' := by
      rw [hcall, finish]
      split_ifs <;> rfl
    refine ⟨⟨fun hok => ?_, fun e _ => hworld ▸ hidle.quiet.leavesNothing⟩, hworld ▸ hidle⟩
    have hstatus : w'.status = 0 := by
      by_contra hne
      rw [hcall, finish, if_neg hne] at hok
      split_ifs at hok
    rw [hcall, finish, if_pos hstatus]
    exact ⟨rfl, rfl, hagrees hstatus⟩
  · intro hsound
    by_contra hanswered
    obtain ⟨w', st', hpoll, hpost', hat', hst'⟩ := hnot hanswered
    rw [hpoll] at hcall
    have hleaves := hsound.error .deviceFailed (by rw [hcall, finish])
    rw [hcall, finish] at hleaves
    exact hat'.not_leavesNothing hpost' hst' hleaves

theorem Idle.not_submits (h : Idle capacity w) (hsubmits : ¬ c.Submits capacity) :
    w.Sound c ∧ Idle capacity (w.call c).2 := by
  have hcall : ∃ e, w.call c = (⟨.error e, none, none⟩, w) := by
    unfold World.call
    split_ifs with hsize
    · exact ⟨_, rfl⟩
    · rw [h.capacity]
      cases hcap : capacity with
      | none => exact ⟨_, rfl⟩
      | some n =>
        refine ⟨.outOfRange, if_pos (not_le.mp fun hle => hsubmits ⟨?_, n, hcap, hle⟩)⟩
        simpa [not_or] using hsize
  obtain ⟨e, hcall⟩ := hcall
  rw [hcall]
  refine ⟨⟨fun hok => ?_, fun _ _ => ?_⟩, h⟩
  · rw [hcall] at hok
    cases hok
  · rw [hcall]
    exact h.quiet.leavesNothing

/-- A device that takes the chain at once and does not answer. -/
def slow : Call := ⟨.read, 0, 0, 512, fun k => if k = 4 then [.fetch] else [], by decide⟩

/-- The next call, during which the device is done with the chain of the one before. -/
def next : Call := ⟨.read, 1, 4096, 512, fun k => if k = 4 then [.complete 0 0 513] else [], by decide⟩

theorem poll_still {script : Nat → List Act} (left k : Nat) (hscript : ∀ i, k ≤ i → script i = [])
    (hpop : w.queue.popUsed = none) : w.poll script left k = (none, w) := by
  induction left generalizing k with
  | zero => rfl
  | succ left ih =>
    have hacts : w.acts (script k) = w := by rw [hscript k le_rfl]; rfl
    rw [poll, hacts]
    simp only [hpop]
    exact ih (k + 1) fun i hi => hscript i (by omega)

/-- The machine of the example: memory of zeros, a disk of ones. -/
def machine : World := start (some 100) (fun _ => 0) fun _ => 1

/-- The machine when the first call begins to poll. -/
def offered : World :=
  let w := { machine with queue := { machine.queue with freeHead := 3, numFree := 13 }, header := ⟨.read, 0⟩ }
  let w := w.setDescs 0 1 2 .read 0 512
  { w with queue := w.queue.pushAvail 0 }

theorem slow_call : machine.call slow = (⟨.error .deviceFailed, some 0, none⟩, offered.act .fetch) := by
  have hpoll : offered.poll slow.script maxPolls 4 = (none, offered.act .fetch) := by
    rw [maxPolls, poll]
    exact poll_still 10000000 5 (fun i hi => if_neg (by omega)) rfl
  have hpost : ({ machine with queue := { machine.queue with freeHead := 3, numFree := 13 } } : World).post
      0 1 2 .read 0 0 512 slow.script = offered := rfl
  have hrequest : machine.doBlockRequest .read 0 0 512 slow.script =
      finish 0 (offered.poll slow.script maxPolls 4) := by
    rw [← hpost]
    rfl
  have hcall : machine.call slow = finish 0 (offered.poll slow.script maxPolls 4) := by
    rw [← hrequest, World.call, if_neg (by decide)]
    exact if_neg (by decide)
  rw [hcall, hpoll, finish]

end World

end BeetKernel.Virtio

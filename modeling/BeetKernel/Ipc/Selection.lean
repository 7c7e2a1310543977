/-
# The thread that runs next

`activate_current` goes through the ready threads in rotation order, the lists of the scheduler from the
highest priority down, and polls the future of each: a thread whose future is pending is parked again,
and the first one whose future is absent or complete runs.  A pending poll changes nothing that another
poll looks at, so that all this can be said of the state in which it begins.

But the messages of a server are in a page of its process, and the poll of a receiver looks for them
whichever mapping happens to be active.
-/
import Mathlib.Data.List.TakeWhile
import BeetKernel.Ipc.Rotation
import BeetKernel.Ipc.Replies

namespace BeetKernel

open Function (update update_self update_eq_self)
open Exec (Along bind_run get_bind_run post_and post_bind post_get post_mono post_ok post_unwrap wp_mono
  wp_of_post post post_seq)

namespace Server

variable {s : Server} {sidx : Nat}

/-- The search for a message goes around the queue once. -/
theorem takeNextFrom_total (sidx : Nat) (htail : s.queueTail < s.queue.length) : ∀ fuel d, d < s.queue.length →
    s.queue.length ≤ d + fuel →
    ∃ r s', takeNextFrom sidx fuel ((s.queueTail + d) % s.queue.length) s = .ok r s'
  | 0, d, hd, hf => by omega
  | fuel + 1, d, hd, hf => by
    have hlt : (s.queueTail + d) % s.queue.length < s.queue.length := Nat.mod_lt _ (by omega)
    have hnext : s.nextIndex ((s.queueTail + d) % s.queue.length) = (s.queueTail + (d + 1)) % s.queue.length := by
      rw [nextIndex_eq_mod hlt, Nat.mod_add_mod, Nat.add_assoc]
    simp only [takeNextFrom, get_bind_run, List.getElem?_eq_getElem hlt, hnext]
    cases htake : takeSlot s.headGeneration sidx ((s.queueTail + d) % s.queue.length)
        s.queue[(s.queueTail + d) % s.queue.length] with
    | some x => exact ⟨some x.1, _, rfl⟩
    | none =>
      dsimp only
      split
      · exact ⟨none, s, rfl⟩
      next hback =>
        have hd' : d + 1 < s.queue.length := by
          by_contra hlast
          have hround : d + 1 = s.queue.length := by omega
          rw [hround, Nat.add_mod_right, Nat.mod_eq_of_lt htail] at hback
          exact hback rfl
        exact takeNextFrom_total sidx htail fuel (d + 1) hd' (by omega)

theorem takeNextMessage_total (h : s.InBounds) (sidx : Nat) : ∃ r s', takeNextMessage sidx s = .ok r s' := by
  simp only [takeNextMessage, get_bind_run]
  split
  · exact ⟨none, s, rfl⟩
  · have hfrom := takeNextFrom_total sidx h.2 s.queue.length 0 (by have := h.2; omega) (by omega)
    rwa [Nat.add_zero, Nat.mod_eq_of_lt h.2] at hfrom

/-- There is no message for a receiver. -/
def drained (s : Server) (sidx : Nat) : Bool :=
  match takeNextMessage sidx s with
  | .ok none _ => true
  | _ => false

end Server

/-! ## 1. The order in which threads are polled -/

namespace Scheduler

variable {s : Scheduler} {L : ReadyLists} {t : ThreadId}

/-- Rotation order: the lists one after the other, from the highest priority down. -/
def rotation (L : ReadyLists) : List ThreadId := (List.finRange 16).reverse.flatMap L

theorem mem_rotation : t ∈ rotation L ↔ ∃ p, t ∈ L p := by
  simp [rotation]

theorem IsHighest.rotation_eq {h : Fin 16} (hh : IsHighest L h) : ∃ rest, ∀ l, rotation (update L h l) = l ++ rest := by
  obtain ⟨above, below, hsplit⟩ := List.append_of_mem (List.mem_reverse.mpr (List.mem_finRange h))
  have hsorted : (List.finRange 16).reverse.Pairwise (· > ·) := by decide
  rw [hsplit, List.pairwise_append] at hsorted
  obtain ⟨-, hbelow, habove⟩ := hsorted
  refine ⟨below.flatMap L, fun l => ?_⟩
  have hempty : above.flatMap (update L h l) = [] := by
    rw [List.flatMap_eq_nil_iff]
    intro p hp
    have hlt : p > h := habove p hp h List.mem_cons_self
    rw [Function.update_of_ne (ne_of_gt hlt)]
    by_contra hne
    exact absurd (hh.1 p hne) (not_le.mpr hlt)
  have hrest : below.flatMap (update L h l) = below.flatMap L := by
    refine List.flatMap_congr fun p hp => ?_
    exact Function.update_of_ne (ne_of_lt ((List.pairwise_cons.mp hbelow).1 p hp)) ..
  rw [rotation, hsplit, List.flatMap_append, List.flatMap_cons, hempty, hrest, update_self]
  rfl

theorem Repr.rotation_head (hr : Repr s L) : (rotation L).head? = s.queueHeads s.highestReadyPriority := by
  obtain ⟨rest, hrest⟩ := hr.highest.rotation_eq
  have hL := hrest (L s.highestReadyPriority)
  rw [update_eq_self] at hL
  rw [hr.head, hL]
  cases hlist : L s.highestReadyPriority with
  | cons a l => rfl
  | nil =>
    -- nobody is ready at all
    have hzero : s.highestReadyPriority = 0 := hr.highest.2.resolve_left (absurd hlist)
    have hall : rotation L = [] := by
      rw [List.eq_nil_iff_forall_not_mem]
      intro t ht
      obtain ⟨p, hp⟩ := mem_rotation.mp ht
      have hle := hr.highest.1 p (List.ne_nil_of_mem hp)
      obtain rfl : p = s.highestReadyPriority := le_antisymm hle (hzero ▸ Fin.zero_le p)
      rw [hlist] at hp
      cases hp
    rw [hlist] at hL
    rw [← hL, hall]

theorem Repr.rotation_nodup (hr : Repr s L) : (rotation L).Nodup := by
  refine List.nodup_flatMap.mpr ⟨fun p _ => hr.nodup p, ?_⟩
  have hdistinct : (List.finRange 16).reverse.Nodup := by decide
  refine hdistinct.imp fun {p q} hne => ?_
  exact List.disjoint_left.mpr fun t hp hq => hne (hr.disjoint p q t hp hq)

end Scheduler

namespace Kernel

open Ipc

variable {k k' k1 : Kernel} {t u : ThreadId} {L : Scheduler.ReadyLists}

/-! ## 2. What a poll finds -/

/-- The future of the thread is pending. -/
def pending (k : Kernel) (t : ThreadId) : Bool :=
  match k.kernelFuture t with
  | none => false
  | some (.receiveMessage sidx) => (k.servers sidx).any fun s => decide (s.pid = t.1) && s.drained sidx
  | some _ => (k.mailbox t).isNone

/-- The thread waits for a message at a server which is not its own, or not there any more. -/
def Stranded (k : Kernel) (t : ThreadId) : Prop :=
  ∃ sidx, k.kernelFuture t = some (.receiveMessage sidx) ∧ ∀ s, k.servers sidx = some s → s.pid ≠ t.1

/-- The thread waits for a message that is there, in a page of a process whose mapping is not active. -/
def OutOfReach (k : Kernel) (t : ThreadId) : Prop :=
  ∃ sidx s, k.kernelFuture t = some (.receiveMessage sidx) ∧ k.servers sidx = some s ∧ s.pid = t.1 ∧
    s.tailGeneration ≠ s.headGeneration ∧ k.activeMapping ≠ s.pid

/-- What the polls look at. -/
structure SamePolls (t : ThreadId) (k k' : Kernel) : Prop where
  future : k'.kernelFuture t = k.kernelFuture t
  mailbox : k'.mailbox t = k.mailbox t
  servers : k'.servers = k.servers
  mapping : k'.activeMapping = k.activeMapping

theorem SamePolls.pending (h : SamePolls t k k') : k'.pending t = k.pending t := by
  unfold Kernel.pending
  rw [h.future, h.mailbox, h.servers]

theorem SamePolls.outOfReach (h : SamePolls t k k') : k'.OutOfReach t ↔ k.OutOfReach t := by
  unfold OutOfReach
  rw [h.future, h.servers, h.mapping]

/-! ## 3. One poll -/

/-- What the poll that ends the loop leaves alone. -/
structure Spares (t : ThreadId) (k k' : Kernel) : Prop where
  current : k'.ipc.current = k.ipc.current
  tid : k'.ipc.tid = k.ipc.tid
  allocated : k'.ipc.allocated = k.ipc.allocated
  parent : k'.ipc.parent = k.ipc.parent
  future : ∀ u, u ≠ t → k'.ipc.future u = k.ipc.future u
  state : ∀ u, (∀ sidx, k.ipc.state u ≠ .retryQueueFull sidx) → k'.ipc.state u = k.ipc.state u

instance : IsPreorder Kernel (Spares t) where
  refl _ := ⟨rfl, rfl, rfl, rfl, fun _ _ => rfl, fun _ _ => rfl⟩
  trans _ _ _ h1 h2 := by
    refine ⟨h2.current.trans h1.current, h2.tid.trans h1.tid, h2.allocated.trans h1.allocated,
      h2.parent.trans h1.parent, fun u hu => (h2.future u hu).trans (h1.future u hu), fun u hu => ?_⟩
    have hstate := h1.state u hu
    exact (h2.state u (by rwa [hstate])).trans hstate

variable {k2 : Kernel} {f : KernelFuture} {ts : List ThreadId}

theorem Spares.trans (h1 : Spares t k k1) (h2 : Spares t k1 k2) : Spares t k k2 := trans_of (Spares t) h1 h2

theorem wakeThreadsWithState_spares (sidx : Nat) (t : ThreadId) :
    Along (Spares t) (wakeThreadsWithState (.retryQueueFull sidx)) := by
  refine .each fun pid _ => .bind .get fun _ => .ite (fun _ => .each fun tid _ k => ?_) fun _ => .pure _
  refine wp_of_post (F := fun _ => True) ?_
  rw [post_bind]
  refine post_process (fun p hp _ => ?_) (fun _ => refl_of (Spares t) k) fun _ => trivial
  split
  next hst =>
    refine post_mono (setThreadState_post (pid, tid) .ready k) ?_ ?_ fun _ _ => trivial
    · rintro _ k' ⟨hset, -⟩
      refine ⟨hset.current, hset.tid, hset.allocated, hset.parent, fun u _ => congrFun hset.future u,
        fun u hu => hset.state_of_ne ?_⟩
      rintro rfl
      exact hu sidx ((ipc_state hp).trans hst)
    · rintro _ _ ⟨rfl, -⟩
      exact refl_of (Spares t) _
  · exact refl_of (Spares t) k

theorem setThreadResult_total (r : Result) (hp : k.processes t.1 ≠ none) (hle : t.1.get ≤ maxProcessCount)
    (hcur : k.processes k.currentPid ≠ none) (hle' : k.currentPid.get ≤ maxProcessCount) :
    post (setThreadResult t r) (fun _ k' => k'.ipc = k.ipc.deliver t r) (fun _ _ => False) (fun _ => False) k := by
  have hrun : post (setThreadResult t r) (fun _ _ => True) (fun _ _ => True) (fun _ => False) k := by
    unfold setThreadResult
    simp only [post_bind, post_get]
    split
    · trivial
    · rw [post_bind]
      refine post_process (fun _ _ _ => ?_) (fun h => absurd h hp) fun h => absurd hle h
      simp only [post_bind, post_activate, Exec.post_modify, post_unwrap]
      have hsame : (setSavedResult t r { k with currentPid := t.1, activeMapping := t.1 }).processes =
          k.processes := (setSavedResult_sameTables _ _ _).processes
      exact post_process (fun _ _ _ => trivial) (fun h => absurd (hsame ▸ h) hcur) fun h => absurd hle' h
  exact post_mono (post_and hrun (setThreadResult_post t r k)) (fun _ _ h => h.2.1)
    (fun _ _ h => hp h.2.2) fun _ h => h.1

/-- What is left of the turn, when the future has completed or not. -/
def afterPoll (t : ThreadId) (f : KernelFuture) : PollResult → KExec Bool
  | .ready result => do
    let r ← Exec.ofExcept result
    Exec.ignore (setThreadResult t r)
    pure true
  | .pending => do
    Exec.unwrap (setKernelFuture t f) "process missing"
    setThreadState t (.waitEvent f.suspensionMask)
    pure false

/-- How the poll of the thread at the head ends. -/
abbrev Polled (t : ThreadId) (k : Kernel) (m : KExec Bool) (k1 : Kernel) : Prop := post m
    (fun runs k' => runs = !k.pending t ∧
      (runs = false → Move (.repark t) k.ipc k'.ipc ∧ k'.activeMapping = k.activeMapping) ∧
      (runs = true → Spares t k k' ∧ ¬ k.Stranded t))
    (fun e k' => e = .serverNotFound ∧ k.Stranded t ∧ k.pending t = false ∧ Spares t k k')
    (fun _ => False) k1

theorem polled_pending (hb : Basic k.ipc) (hr : k.ipc.state t = .ready) (hu : t.2 ≠ irqTid)
    (hf : k.ipc.future t = some f) (hk1 : k1.ipc = k.ipc.setFuture t none)
    (hmap : k1.activeMapping = k.activeMapping) (hp : k.pending t = true) :
    Polled t k (afterPoll t f .pending) k1 := by
  refine post_mono (repark_total hb hr hu hf hk1) ?_ (fun _ _ h => h.elim) fun _ h => h
  rintro _ k' ⟨rfl, hm, hmap'⟩
  exact ⟨by rw [hp]; rfl, fun _ => ⟨hm, hmap'.trans hmap⟩, nofun⟩

/-- The result is written to the thread's registers. -/
theorem polled_ready {r : Result} (hb : Basic k.ipc) (hr : k.ipc.state t = .ready)
    (hu : t.2 ≠ irqTid) (hs : Spares t k k1) (hp : k.pending t = false) (hst : ¬ k.Stranded t) :
    Polled t k (afterPoll t f (.ready (.ok r))) k1 := by
  have huser := Basic.isUser hb hr hu
  have hproc : k1.processes t.1 ≠ none := ready_process hb hr hs.parent
  have hpid : k1.currentPid = k.currentPid := congrArg Prod.fst hs.current
  have hcur : k1.processes k1.currentPid ≠ none := by
    rw [Ne, ← ipc_parent_eq_none, hs.parent, hpid]
    exact hb.running
  have hle : k1.currentPid.get ≤ maxProcessCount := by
    rw [hpid]
    exact hb.pids _ hb.running
  simp only [afterPoll, post_bind, Exec.post_ofExcept, Exec.post_ignore]
  refine ⟨fun r' hr' => ?_, fun _ h => by cases h⟩
  refine post_mono (setThreadResult_total r' hproc huser.1 hcur hle) ?_ (fun _ _ h => h.elim) fun _ h => h
  intro _ k2 hk2
  refine ⟨by rw [hp]; rfl, fun h => (by cases h), fun _ => ⟨hs.trans ?_, hst⟩⟩
  constructor <;> simp [hk2, Ipc.deliver, Ipc.current]

/-- The queue is looked at only if there is something in it. -/
theorem takeNextMessage_total {sidx : Nat} {s : Server} (hlt : sidx < maxServerCount)
    (hs : k.servers sidx = some s) (hb : s.InBounds)
    (hmap : s.tailGeneration ≠ s.headGeneration → k.activeMapping = s.pid) :
    post (takeNextMessage sidx) (fun r k' => ∃ s', Server.takeNextMessage sidx s = .ok r s' ∧
      k' = k.putServer sidx (some s')) (fun _ _ => False) (fun _ => False) k := by
  unfold takeNextMessage
  simp only [post_bind, post_serverFromSidx hlt, hs, Exec.expect_some, Exec.post_pure]
  split
  next hgen =>
    exact ⟨s, by simp [Server.takeNextMessage, hgen], (putServer_self hs).symm⟩
  next hgen =>
    obtain ⟨r, s', htake⟩ := Server.takeNextMessage_total hb sidx
    rw [post_withQueue_home hlt hs (hmap hgen), post, htake]
    exact ⟨s', rfl, rfl⟩

/-- **The poll of a receiver** whose messages are in the active mapping. -/
theorem pollReceiveMessage_total (pid : PID) {sidx : Nat} (hb : Basic k.ipc) (hlt : sidx < maxServerCount)
    (hmap : ∀ s, k.servers sidx = some s → s.pid = pid → s.tailGeneration ≠ s.headGeneration →
      k.activeMapping = s.pid) (t : ThreadId) :
    post (pollReceiveMessage pid sidx) (fun r k' => match r with
        | .ready (.ok _) => Spares t k k' ∧ ∃ s, k.servers sidx = some s ∧ s.pid = pid ∧ s.drained sidx = false
        | .ready (.error e) => k' = k ∧ e = .serverNotFound ∧ ∀ s, k.servers sidx = some s → s.pid ≠ pid
        | .pending => k' = k ∧ ∃ s, k.servers sidx = some s ∧ s.pid = pid ∧ s.drained sidx = true)
      (fun _ _ => False) (fun _ => False) k := by
  unfold pollReceiveMessage
  rw [post_bind, post_serverFromSidx hlt]
  cases hs : k.servers sidx with
  | none => exact ⟨rfl, rfl, nofun⟩
  | some s =>
    dsimp only
    split
    next hpid =>
      exact ⟨rfl, rfl, by rintro _ ⟨rfl⟩; exact hpid⟩
    rename_i hpid
    have hpid := not_not.mp hpid
    refine post_seq (takeNextMessage_total hlt hs (hb.bounds sidx s hs) (hmap s hs hpid)) ?_
      (fun _ _ h => h.elim) fun _ h => h
    rintro r _ ⟨s', htake, rfl⟩
    have hdrained : s.drained sidx = r.isNone := by rw [Server.drained, htake]; cases r <;> rfl
    have htouch := post_ok (Server.takeNextMessage_post sidx s) htake
    cases r with
    | none =>
      obtain ⟨rfl, -⟩ := htouch.2 rfl
      exact ⟨putServer_self hs, s', rfl, hpid, hdrained⟩
    | some m =>
      have hput : Spares t k (k.putServer sidx (some s')) := ⟨rfl, rfl, rfl, rfl, fun _ _ => rfl, fun _ _ => rfl⟩
      have hb' : Basic (k.putServer sidx (some s')).ipc := hb.move (.touch hs htouch.1) (by simp)
      dsimp only
      rw [post_bind, post_get]
      split
      · refine post_seq (post_and (wakeThreadsWithState_total (by simp) (by simp) hb')
          (Exec.post_of_wp (wakeThreadsWithState_spares sidx t _))) ?_ (fun _ _ h => h.1) fun _ h => h.1
        rintro _ k2 ⟨-, hwoken⟩
        exact ⟨hput.trans hwoken, s, rfl, hpid, hdrained⟩
      · exact ⟨hput, s, rfl, hpid, hdrained⟩

theorem mailbox_polled (hb : Basic k.ipc) (hr : k.ipc.state t = .ready) (hu : t.2 ≠ irqTid)
    (hf : k.ipc.future t = some f) (hm : ∀ sidx, f ≠ .receiveMessage sidx)
    (hk1 : k1.ipc = k.ipc.setFuture t none) (hmap : k1.activeMapping = k.activeMapping)
    (hspares : Spares t k k1) : Polled t k (pollMailbox t >>= afterPoll t f) k1 := by
  have huser := Basic.isUser hb hr hu
  have hmail : k1.ipc.mailbox t = k.ipc.mailbox t := by rw [hk1]; rfl
  have hpending : k.pending t = (k.mailbox t).isNone := by
    rw [pending, show k.kernelFuture t = some f from hf]
    cases f with
    | receiveMessage sidx => exact absurd rfl (hm sidx)
    | _ => rfl
  rw [Polled, post_bind]
  refine post_mono (post_and (pollMailbox_post huser.1 huser.2.2
    (ready_process hb hr (by rw [hk1]; rfl))) (Exec.post_of_wp (onlyThreads_code.pollMailbox t k1)))
    ?_ (fun _ _ h => h.1.elim) fun _ h => h.1
  rintro r k2 ⟨⟨hk2, -, h2⟩, honly⟩
  have hmap2 : k2.activeMapping = k.activeMapping := by
    rw [honly]
    exact hmap
  rcases r with (e | x) | _
  · exact h2.elim
  · have hp : k.pending t = false := by
      rw [hpending, show k.mailbox t = some x from hmail.symm.trans h2]
      rfl
    refine polled_ready hb hr hu (hspares.trans ?_) hp ?_
    swap
    · rintro ⟨sidx, hsidx, -⟩
      exact hm sidx (Option.some.inj (hf.symm.trans hsidx))
    constructor <;> simp [hk2, Ipc.setMailbox, Ipc.current]
  · have hnone : k1.ipc.mailbox t = none := h2
    have hsame : k2.ipc = k1.ipc := by
      rw [hk2, Ipc.setMailbox, ← hnone, update_eq_self]
    refine polled_pending hb hr hu hf (hsame.trans hk1) hmap2 ?_
    rw [hpending, show k.mailbox t = none from hmail.symm.trans hnone]
    rfl

/-- **The poll of the thread at the head.** -/
theorem pollThread_polled (hb : Basic k.ipc) (hr : k.ipc.state t = .ready) (hu : t.2 ≠ irqTid)
    (hm : ¬ k.OutOfReach t) : Polled t k (pollThread t) k := by
  have huser := Basic.isUser hb hr hu
  unfold pollThread
  rw [Polled, post_bind, post_unwrap]
  refine post_mono (takeKernelFuture_post t k) (fun f k1 h => ?_)
    (fun _ _ h => absurd h.2 (ready_process hb hr rfl)) fun _ h => absurd huser.1 h.2
  obtain ⟨hf, hk1⟩ := h.2.2.1 huser.2.2
  have hmap : k1.activeMapping = k.activeMapping := by rw [h.2.1]
  have hspares : Spares t k k1 := by
    constructor <;> simp +contextual [hk1, Ipc.setFuture, Ipc.current]
  cases f with
  | none =>
    have hp : k.pending t = false := by
      rw [pending, show k.kernelFuture t = none from hf.symm]
    refine ⟨by rw [hp]; rfl, fun h => (by cases h), fun _ => ⟨hspares, ?_⟩⟩
    rintro ⟨sidx, hsidx, -⟩
    cases hf.trans hsidx
  | some f =>
    have hfut : k.kernelFuture t = some f := hf.symm
    show Polled t k (poll t f >>= afterPoll t f) k1
    rw [Polled, post_bind]
    cases f with
    | receiveMessage sidx =>
      have hservers : k1.servers = k.servers := congrArg Ipc.servers hk1
      refine post_mono (pollReceiveMessage_total t.1 (hk1 ▸ hb.clearFuture)
        (hb.receives t sidx hf.symm) (fun s hs hpid hgen => ?_) t) ?_ (fun _ _ h => h.elim) fun _ h => h
      · by_contra hne
        rw [hservers] at hs
        rw [hmap] at hne
        exact hm ⟨sidx, s, hfut, hs, hpid, hgen, hne⟩
      · rintro r k2 h2
        rw [hservers] at h2
        have hpending : k.pending t = (k.servers sidx).any fun s => decide (s.pid = t.1) && s.drained sidx := by
          rw [pending, hfut]
        rcases r with (e | r) | _
        · obtain ⟨rfl, rfl, hs⟩ := h2
          refine ⟨rfl, ⟨sidx, hfut, hs⟩, ?_, hspares⟩
          rw [hpending]
          cases hsv : k.servers sidx with
          | none => rfl
          | some s => simp [hs s hsv]
        · obtain ⟨hsp, s, hs, hpid, hdr⟩ := h2
          refine polled_ready hb hr hu (hspares.trans hsp) ?_ ?_
          · rw [hpending, hs]
            simp [hdr]
          · rintro ⟨sidx', hsidx, hother⟩
            cases hfut.symm.trans hsidx
            exact hother s hs hpid
        · obtain ⟨rfl, s, hs, hpid, hdr⟩ := h2
          refine polled_pending hb hr hu hf.symm hk1 hmap ?_
          rw [hpending, hs]
          simp [hpid, hdr]
    | waitBlocking | waitProcessExit | waitJoin | waitFutex | waitDisplay =>
      rw [← post_bind]
      exact mailbox_polled hb hr hu hf.symm (fun _ h => by cases h) hk1 hmap hspares

theorem Polled.of_pending {m : KExec Bool} (h : Polled t k m k1) (hp : k.pending t = true) : ∃ k',
    m k1 = .ok false k' ∧ Move (.repark t) k.ipc k'.ipc ∧ k'.activeMapping = k.activeMapping := by
  unfold Polled post at h
  cases hrun : m k1 with
  | ok runs k' =>
    simp only [hrun] at h
    obtain ⟨rfl, hm, -⟩ := h
    rw [hp] at hm ⊢
    exact ⟨k', rfl, hm rfl⟩
  | err e k' =>
    simp only [hrun] at h
    rw [h.2.2.1] at hp
    cases hp
  | panic msg =>
    simp only [hrun] at h

theorem Polled.of_complete {m : KExec Bool} (h : Polled t k m k1) (hp : k.pending t = false) :
    (∃ k', m k1 = .ok true k' ∧ Spares t k k' ∧ ¬ k.Stranded t) ∨
      ∃ k', m k1 = .err .serverNotFound k' ∧ Spares t k k' ∧ k.Stranded t := by
  unfold Polled post at h
  cases hrun : m k1 with
  | ok runs k' =>
    simp only [hrun] at h
    obtain ⟨rfl, -, hs⟩ := h
    rw [hp] at hs ⊢
    exact .inl ⟨k', rfl, hs rfl⟩
  | err e k' =>
    simp only [hrun] at h
    obtain ⟨rfl, hst, -, hs⟩ := h
    exact .inr ⟨k', rfl, hs, hst⟩
  | panic msg =>
    simp only [hrun] at h

/-- A message that is not mapped is read all the same. -/
theorem pollThread_outOfReach (hb : Basic k.ipc) (hr : k.ipc.state t = .ready) (hu : t.2 ≠ irqTid)
    (hm : k.OutOfReach t) : ∃ msg, pollThread t k = .panic msg := by
  have huser := Basic.isUser hb hr hu
  obtain ⟨sidx, s, hfut, hs, hpid, hgen, hmap⟩ := hm
  have hpost : post (pollThread t) (fun _ _ => False) (fun _ _ => False) (fun _ => True) k := by
    unfold pollThread
    rw [post_bind, post_unwrap]
    refine post_mono (takeKernelFuture_post t k) (fun f k1 h => ?_)
      (fun _ _ h => absurd h.2 (ready_process hb hr rfl)) fun _ _ => trivial
    obtain ⟨rfl, hk1⟩ := h.2.2.1 huser.2.2
    have hs1 : k1.servers sidx = some s := (congrFun (congrArg Ipc.servers hk1) sidx).trans hs
    have hmap1 : k1.activeMapping ≠ t.1 := by
      rw [h.2.1, ← hpid]
      exact hmap
    have hlt := hb.receives t sidx hfut
    rw [show k.ipc.future t = _ from hfut]
    simp only [post_bind, poll, pollReceiveMessage, takeNextMessage, withQueue, post_serverFromSidx hlt, hs1,
      hpid, ne_eq, not_true_eq_false, if_false, Exec.expect_some, Exec.post_pure, hgen, post_get,
      Exec.post_assert, decide_eq_true_eq]
    exact ⟨fun h => absurd h hmap1, fun _ => trivial⟩
  unfold post at hpost
  cases hrun : pollThread t k with
  | ok b k' => simp [hrun] at hpost
  | err e k' => simp [hrun] at hpost
  | panic msg => exact ⟨msg, rfl⟩

/-! ## 4. The loop -/

/-- The threads `ts` have been polled, and were pending. -/
structure Passed (ts : List ThreadId) (k k' : Kernel) : Prop where
  parked : ∀ u ∈ ts, ∃ f, k.kernelFuture u = some f ∧ k'.threadState u = .waitEvent f.suspensionMask
  state : ∀ u, u ∉ ts → k'.threadState u = k.threadState u
  future : k'.kernelFuture = k.kernelFuture
  mailbox : k'.mailbox = k.mailbox
  servers : k'.servers = k.servers
  mapping : k'.activeMapping = k.activeMapping
  current : k'.ipc.current = k.ipc.current
  tid : k'.ipc.tid = k.ipc.tid
  allocated : k'.ipc.allocated = k.ipc.allocated

theorem Passed.nil (k : Kernel) : Passed [] k k := ⟨nofun, fun _ _ => rfl, rfl, rfl, rfl, rfl, rfl, rfl, rfl⟩

theorem Passed.samePolls (h : Passed ts k k') (t : ThreadId) : SamePolls t k k' :=
  ⟨congrFun h.future t, congrFun h.mailbox t, h.servers, h.mapping⟩

theorem Passed.cons (hf : k.kernelFuture t = some f)
    (hs : SetState t (.waitEvent f.suspensionMask) k.ipc k1.ipc) (hmap : k1.activeMapping = k.activeMapping)
    (ht : t ∉ ts) (h : Passed ts k1 k2) : Passed (t :: ts) k k2 where
  parked u hu := by
    have hfut : k1.kernelFuture = k.kernelFuture := hs.future
    rcases List.mem_cons.mp hu with rfl | hu
    · exact ⟨f, hf, (h.state u ht).trans hs.state_self⟩
    · rw [← hfut]
      exact h.parked u hu
  state u hu := by
    rw [List.mem_cons, not_or] at hu
    exact (h.state u hu.2).trans (hs.state_of_ne hu.1)
  future := h.future.trans hs.future
  mailbox := h.mailbox.trans hs.mailbox
  servers := h.servers.trans hs.servers
  mapping := h.mapping.trans hmap
  current := h.current.trans hs.current
  tid := h.tid.trans hs.tid
  allocated := h.allocated.trans hs.allocated

theorem Lists.repark (hL : k.Lists L) (hnext : k.nextThread = some t)
    {st : ThreadState} (hst : st ≠ .ready) (hs : SetState t st k.ipc k1.ipc) :
    ∃ L', k1.Lists L' ∧ Scheduler.rotation L = t :: Scheduler.rotation L' := by
  obtain ⟨hr, hmem⟩ := hL
  have hhead : (L k.scheduler.highestReadyPriority).head? = some t := by
    rw [← hr.head]
    exact hnext
  obtain ⟨l, hl⟩ := List.head?_eq_some_iff.mp hhead
  obtain ⟨hu, hready, hprio⟩ := (hmem t k.scheduler.highestReadyPriority).mp (hl ▸ List.mem_cons_self)
  have hpark := Linked.park_lists (i := k.ipc) (j := k1.ipc) hr hmem hu hready hst (hs.park hready hst) hs.state
    fun u _ => by rw [hs.priority]
  rw [show (k.ipc.priority t).toIndex = _ from hprio, hl, List.erase_cons_head] at hpark
  refine ⟨_, hpark, ?_⟩
  obtain ⟨rest, hrest⟩ := hr.highest.rotation_eq
  have hwhole := hrest (L k.scheduler.highestReadyPriority)
  rw [update_eq_self, hl] at hwhole
  rw [hrest, hwhole]
  rfl

theorem Lists.nextThread (hL : k.Lists L) : (Scheduler.rotation L).head? = k.nextThread := hL.1.rotation_head

theorem Lists.ready (hL : k.Lists L) (ht : t ∈ Scheduler.rotation L) : k.ipc.state t = .ready ∧ t.2 ≠ irqTid := by
  obtain ⟨q, hq⟩ := Scheduler.mem_rotation.mp ht
  obtain ⟨hu, hready, -⟩ := (hL.2 t q).mp hq
  exact ⟨hready, hu⟩

/-- The threads whose futures the loop polls, one after the other. -/
def polledThreads : Nat → Kernel → List ThreadId
  | 0, _ => []
  | fuel + 1, k => match k.nextThread with
    | none => []
    | some t => t :: match pollThread t k with
      | .ok false k' => polledThreads fuel k'
      | _ => []

/-- **The loop passes over pending threads**: after those in `ts`, it goes on with the others. -/
theorem activateLoop_passes (current : ThreadId) {rest : List ThreadId} : ∀ (ts : List ThreadId) (n : Nat)
    (k : Kernel) (L : Scheduler.ReadyLists), Basic k.ipc → k.Lists L → Scheduler.rotation L = ts ++ rest →
    (∀ u ∈ ts, k.pending u = true ∧ ¬ k.OutOfReach u) →
    ∃ k1 L1, Passed ts k k1 ∧ Basic k1.ipc ∧ k1.Lists L1 ∧ Scheduler.rotation L1 = rest ∧
      activateLoop current (ts.length + n) k = activateLoop current n k1 ∧
      polledThreads (ts.length + n) k = ts ++ polledThreads n k1
  | [], n, k, L, hb, hL, hrot, _ => ⟨k, L, .nil k, hb, hL, hrot, by rw [List.length_nil, Nat.zero_add],
      by rw [List.length_nil, Nat.zero_add]; rfl⟩
  | t :: ts, n, k, L, hb, hL, hrot, hts => by
    have hnodup : (t :: (ts ++ rest)).Nodup := by
      have := hL.1.rotation_nodup
      rwa [hrot] at this
    have htmem : t ∉ ts := fun h => (List.nodup_cons.mp hnodup).1 (List.mem_append_left _ h)
    have hnext : k.nextThread = some t := by
      rw [← hL.nextThread, hrot]
      rfl
    obtain ⟨hr, hu⟩ := hL.ready (t := t) (by rw [hrot]; exact List.mem_cons_self)
    obtain ⟨hp, hreach⟩ := hts t List.mem_cons_self
    have hpoll := pollThread_polled hb hr hu hreach
    obtain ⟨k', hrun, hm, hmap⟩ := hpoll.of_pending hp
    have hb' : Basic k'.ipc := hb.move hm (by simp)
    cases hm with
    | @repark _ _ _ f _ hf hset =>
      obtain ⟨L', hL', hrot'⟩ := hL.repark hnext (by simp) hset
      have htail : Scheduler.rotation L' = ts ++ rest := by
        rw [hrot, List.cons_append, List.cons.injEq] at hrot'
        exact hrot'.2.symm
      have hsame : ∀ u, SamePolls u k k' := fun u =>
        ⟨congrFun hset.future u, congrFun hset.mailbox u, hset.servers, hmap⟩
      obtain ⟨k1, L1, hpassed, hb1, hL1, hrot1, hloop, hpolled⟩ :=
        activateLoop_passes current ts n k' L' hb' hL' htail fun v hv => by
          rw [(hsame v).pending, (hsame v).outOfReach]
          exact hts v (List.mem_cons_of_mem _ hv)
      refine ⟨k1, L1, hpassed.cons hf hset hmap htmem, hb1, hL1, hrot1, ?_, ?_⟩
      · rw [List.length_cons, Nat.succ_add, activateLoop, get_bind_run, hnext]
        simp only [bind_run, hrun]
        exact hloop
      · rw [List.length_cons, Nat.succ_add, polledThreads, hnext]
        simp only [hrun, hpolled, List.cons_append]

/-! ## 5. The choice -/

/-- The first thread in rotation order whose future is absent or complete. -/
def chosen (k : Kernel) (L : Scheduler.ReadyLists) : Option ThreadId :=
  (Scheduler.rotation L).find? fun t => !k.pending t

/-- The threads before it. -/
def passedOver (k : Kernel) (L : Scheduler.ReadyLists) : List ThreadId := (Scheduler.rotation L).takeWhile k.pending

/-- The thread has a pending future, keeps it, and is parked under its mask. -/
def LeftParked (u : ThreadId) (k k' : Kernel) : Prop :=
  ∃ f, k.kernelFuture u = some f ∧ k'.kernelFuture u = some f ∧ k'.threadState u = .waitEvent f.suspensionMask

/-- How `activate_current` should end: the chosen thread runs, unless its future completes with an error. -/
inductive Chooses (k : Kernel) (L : Scheduler.ReadyLists) : Prop where
  | resumes {k' : Kernel} (h : activateCurrent k = .ok .resumeProcess k')
      (hcur : k'.currentThread = (k.chosen L).getD k.currentThread)
      (hok : ∀ t ∈ k.chosen L, ¬ k.Stranded t) (hleft : ∀ u ∈ k.passedOver L, LeftParked u k k')
  | fails {k' : Kernel} {t : ThreadId} (h : activateCurrent k = .err .serverNotFound k')
      (ht : k.chosen L = some t) (hst : k.Stranded t) (hleft : ∀ u ∈ k.passedOver L, LeftParked u k k')

/-- **What `activate_current` is for**: it ends, after each thread has been polled once at most. -/
structure Activates (k : Kernel) (L : Scheduler.ReadyLists) : Prop where
  ends : Chooses k L
  once : ∀ n, (Scheduler.rotation L).length < n →
    polledThreads n k = k.passedOver L ++ (k.chosen L).toList ∧ (polledThreads n k).Nodup

/-- No message is out of reach, and the chosen thread has registers to go on with. -/
structure Selectable (k : Kernel) (L : Scheduler.ReadyLists) : Prop where
  mapped : ∀ t, t ∈ k.passedOver L ∨ t ∈ k.chosen L → ¬ k.OutOfReach t
  known : ∀ t ∈ k.chosen L, k.Stranded t ∨ k.allocated t = true ∨ k.ipc.tid t.1 = t.2

theorem chosen_none (h : k.chosen L = none) : k.passedOver L = Scheduler.rotation L := by
  rw [passedOver, List.takeWhile_eq_self_iff]
  intro t ht
  simpa using List.find?_eq_none.mp h t ht

theorem chosen_some (h : k.chosen L = some t) : k.pending t = false ∧
    ∃ rest, Scheduler.rotation L = k.passedOver L ++ t :: rest := by
  obtain ⟨hp, before, rest, hsplit, hbefore⟩ := List.find?_eq_some_iff_append.mp h
  have hp : k.pending t = false := by simpa using hp
  refine ⟨hp, rest, ?_⟩
  have hall : ∀ u ∈ before, k.pending u = true := fun u hu => by simpa using hbefore u hu
  rw [passedOver, hsplit, List.takeWhile_append_of_pos hall, List.takeWhile_cons_of_neg (by simp [hp]), List.append_nil]

theorem passedOver_pending (ht : t ∈ k.passedOver L) : k.pending t = true := List.mem_takeWhile_imp ht

theorem Passed.leftParked (h : Passed ts k k') (hu : u ∈ ts) : LeftParked u k k' := by
  obtain ⟨f, hf, hst⟩ := h.parked u hu
  exact ⟨f, hf, (congrFun h.future u).trans hf, hst⟩

theorem LeftParked.spares (h : LeftParked u k k1) (hs : Spares t k1 k2) (hne : u ≠ t) :
    LeftParked u k k2 := by
  obtain ⟨f, hf, hf1, hst⟩ := h
  refine ⟨f, hf, (hs.future u hne).trans hf1, (hs.state u fun sidx => ?_).trans hst⟩
  rw [show k1.ipc.state u = _ from hst]
  nofun

theorem LeftParked.resumes (h : LeftParked u k k1) (hr : Ipc.Resumes t k1.ipc k2.ipc) :
    LeftParked u k k2 := by
  obtain ⟨f, hf, hf1, hst⟩ := h
  have hsame : k2.ipc.future = k1.ipc.future ∧ k2.ipc.state = k1.ipc.state := by
    cases hr with
    | same _ hj => exact ⟨congrArg Ipc.future hj, congrArg Ipc.state hj⟩
    | switch hm =>
      generalize k2.ipc = j at hm ⊢
      cases hm
      exact ⟨rfl, rfl⟩
  exact ⟨f, hf, (congrFun hsame.1 u).trans hf1, (congrFun hsame.2 u).trans hst⟩

theorem resumes_current (hr : Ipc.Resumes t k.ipc k'.ipc) :
    k'.currentThread = t ↔ k.ipc.allocated t = true ∨ k.ipc.tid t.1 = t.2 := by
  show k'.ipc.current = t ↔ _
  cases hr with
  | same ht hj =>
    subst ht
    rw [hj]
    exact ⟨fun _ => .inr rfl, fun _ => rfl⟩
  | switch hm =>
    generalize k'.ipc = j at hm ⊢
    cases hm with
    | @switch _ _ tid _ _ ht =>
      have hcur : current { k.ipc with pid := t.1, tid := update k.ipc.tid t.1 tid } = (t.1, tid) :=
        Prod.ext rfl (update_self ..)
      rw [hcur, Prod.ext_iff]
      rcases ht with ⟨rfl, hal⟩ | ⟨rfl, hal⟩
      · simp [hal]
      · simp [hal]

/-- The turn of the chosen thread. -/
theorem activateLoop_chosen (hb : Basic k.ipc) (hnext : k.nextThread = some t)
    (hp : k.pending t = false) (hm : ¬ k.OutOfReach t) (n : Nat) :
    polledThreads (n + 1) k = [t] ∧
    ((¬ k.Stranded t ∧ ∃ k1 k2, Spares t k k1 ∧ Ipc.Resumes t k1.ipc k2.ipc ∧
        activateLoop k.currentThread (n + 1) k = .ok .resumeProcess k2) ∨
      (k.Stranded t ∧ ∃ k1, Spares t k k1 ∧ activateLoop k.currentThread (n + 1) k = .err .serverNotFound k1)) := by
  obtain ⟨hr, hu⟩ := hb.linked.head hnext
  have hturn := pollThread_post hb hr hu
  rcases (pollThread_polled hb hr hu hm).of_complete hp with ⟨k1, hrun, hs, hst⟩ | ⟨k1, hrun, hs, hst⟩
  · have hpolls := (post_ok hturn hrun).1 rfl
    have hcur : k.currentThread = k1.currentThread := hs.current.symm
    have hswitch := switchTo_post (hpolls.basic hb) (hpolls.stays_ready hr) hu
    unfold post at hswitch
    cases hsw : switchTo k1.currentThread t k1 with
    | ok _ k2 =>
      simp only [hsw] at hswitch
      refine ⟨by simp only [polledThreads, hnext, hrun], .inl ⟨hst, k1, k2, hs, hswitch.1, ?_⟩⟩
      rw [activateLoop, get_bind_run, hnext]
      simp only [bind_run, hrun, hcur, hsw, if_true, Exec.pure_run]
    | err e k2 => simp only [hsw] at hswitch
    | panic msg => simp only [hsw] at hswitch
  · refine ⟨by simp only [polledThreads, hnext, hrun], .inr ⟨hst, k1, hs, ?_⟩⟩
    rw [activateLoop, get_bind_run, hnext]
    simp only [bind_run, hrun]

section

variable (hb : Basic k.ipc) (hL : k.Lists L) (hm : ∀ t, t ∈ k.passedOver L ∨ t ∈ k.chosen L → ¬ k.OutOfReach t)

include hb hL hm

/-- The loop comes to the chosen thread, if no message is out of reach. -/
theorem activateLoop_reaches (hch : k.chosen L = some t) (n : Nat) : ∃ k1,
    Passed (k.passedOver L) k k1 ∧ Basic k1.ipc ∧ k1.nextThread = some t ∧
      activateLoop k.currentThread ((k.passedOver L).length + n) k = activateLoop k.currentThread n k1 ∧
      polledThreads ((k.passedOver L).length + n) k = k.passedOver L ++ polledThreads n k1 := by
  obtain ⟨-, rest, hsplit⟩ := chosen_some hch
  obtain ⟨k1, L1, hpassed, hb1, hL1, hrot1, hloop, hpolled⟩ := activateLoop_passes k.currentThread _ n k L hb hL hsplit
    fun u hu => ⟨passedOver_pending hu, hm u (.inl hu)⟩
  refine ⟨k1, hpassed, hb1, ?_, hloop, hpolled⟩
  rw [← hL1.nextThread, hrot1]
  rfl

/-- Or it parks everybody. -/
theorem activateLoop_exhausts (hch : k.chosen L = none) (n : Nat) : ∃ k1, Passed (k.passedOver L) k k1 ∧
    activateLoop k.currentThread ((k.passedOver L).length + (n + 1)) k = .ok .resumeProcess k1 ∧
    polledThreads ((k.passedOver L).length + (n + 1)) k = k.passedOver L := by
  have hall : Scheduler.rotation L = k.passedOver L ++ [] := by rw [chosen_none hch, List.append_nil]
  obtain ⟨k1, L1, hpassed, -, hL1, hrot1, hloop, hpolled⟩ := activateLoop_passes k.currentThread
    (k.passedOver L) (n + 1) k L hb hL hall fun u hu => ⟨passedOver_pending hu, hm u (.inl hu)⟩
  have hnext : k1.nextThread = none := by
    rw [← hL1.nextThread, hrot1]
    rfl
  refine ⟨k1, hpassed, ?_, ?_⟩
  · rw [hloop, activateLoop, get_bind_run, hnext]
    rfl
  · rw [hpolled, polledThreads, hnext, List.append_nil]

theorem polledThreads_eq {n : Nat} (hn : (Scheduler.rotation L).length < n) :
    polledThreads n k = k.passedOver L ++ (k.chosen L).toList := by
  cases hch : k.chosen L with
  | none =>
    rw [← chosen_none hch] at hn
    obtain ⟨m, rfl⟩ := Nat.exists_eq_add_of_lt hn
    obtain ⟨-, -, -, hpolled⟩ := activateLoop_exhausts hb hL hm hch m
    rw [Nat.add_assoc, hpolled]
    simp
  | some t =>
    obtain ⟨hp, rest, hsplit⟩ := chosen_some hch
    obtain ⟨m, rfl⟩ : ∃ m, n = (k.passedOver L).length + (m + 1) := by
      rw [hsplit, List.length_append, List.length_cons] at hn
      exact ⟨n - (k.passedOver L).length - 1, by omega⟩
    obtain ⟨k1, hpassed, hb1, hnext, -, hpolled⟩ := activateLoop_reaches hb hL hm hch (m + 1)
    have hsame := hpassed.samePolls t
    have hturn := activateLoop_chosen hb1 hnext (hsame.pending.trans hp) (mt hsame.outOfReach.mp (hm t (.inr hch))) m
    rw [hpolled, hturn.1]
    rfl

/-- **How the loop ends.** -/
theorem activateCurrent_ends (hirq : k.scheduler.inIrqHandler = false) : ∃ k1, Passed (k.passedOver L) k k1 ∧
      ((k.chosen L = none ∧ activateCurrent k = .ok .resumeProcess k1) ∨ ∃ t, k.chosen L = some t ∧
        ((¬ k.Stranded t ∧ ∃ k2 k3, Spares t k1 k2 ∧ Ipc.Resumes t k2.ipc k3.ipc ∧
            activateCurrent k = .ok .resumeProcess k3) ∨
          (k.Stranded t ∧ ∃ k2, Spares t k1 k2 ∧ activateCurrent k = .err .serverNotFound k2))) := by
  have hfuel := activateCurrent_fuel hb hirq
    (n := (k.passedOver L).length + (maxProcessCount * maxThreadCount + 1)) (by omega)
  rw [hfuel]
  cases hch : k.chosen L with
  | none =>
    obtain ⟨k1, hpassed, hloop, -⟩ := activateLoop_exhausts hb hL hm hch (maxProcessCount * maxThreadCount)
    exact ⟨k1, hpassed, .inl ⟨rfl, hloop⟩⟩
  | some t =>
    obtain ⟨k1, hpassed, hb1, hnext, hloop, -⟩ :=
      activateLoop_reaches hb hL hm hch (maxProcessCount * maxThreadCount + 1)
    have hsame := hpassed.samePolls t
    have hcur : k1.currentThread = k.currentThread := hpassed.current
    have hturn := (activateLoop_chosen hb1 hnext (hsame.pending.trans (chosen_some hch).1)
      (mt hsame.outOfReach.mp (hm t (.inr hch))) (maxProcessCount * maxThreadCount)).2
    rw [hcur, Stranded, hsame.future, hsame.servers] at hturn
    rw [hloop]
    refine ⟨k1, hpassed, .inr ⟨t, rfl, ?_⟩⟩
    exact hturn

end

/-- A message that is out of reach stops the kernel. -/
theorem activateCurrent_panics (hb : Basic k.ipc) (hL : k.Lists L) (hirq : k.scheduler.inIrqHandler = false)
    {ts rest : List ThreadId} (hsplit : Scheduler.rotation L = ts ++ t :: rest)
    (hts : ∀ u ∈ ts, k.pending u = true ∧ ¬ k.OutOfReach u) (ht : k.OutOfReach t) :
    ∃ msg, activateCurrent k = .panic msg := by
  have hfuel := activateCurrent_fuel hb hirq (n := ts.length + (maxProcessCount * maxThreadCount + 1)) (by omega)
  obtain ⟨k1, L1, hpassed, hb1, hL1, hrot1, hloop, -⟩ := activateLoop_passes k.currentThread ts
    (maxProcessCount * maxThreadCount + 1) k L hb hL hsplit hts
  have hnext : k1.nextThread = some t := by
    rw [← hL1.nextThread, hrot1]
    rfl
  obtain ⟨hr, hu⟩ := hb1.linked.head hnext
  obtain ⟨msg, hrun⟩ := pollThread_outOfReach hb1 hr hu ((hpassed.samePolls t).outOfReach.mpr ht)
  refine ⟨msg, ?_⟩
  rw [hfuel, hloop, activateLoop, get_bind_run, hnext]
  simp only [bind_run, hrun]

theorem Activates.mapped (hb : Basic k.ipc) (hL : k.Lists L) (hirq : k.scheduler.inIrqHandler = false)
    (h : Activates k L) : ∀ t, t ∈ k.passedOver L ∨ t ∈ k.chosen L → ¬ k.OutOfReach t := by
  classical
  have hcalm : ∀ msg, activateCurrent k ≠ .panic msg := fun msg hmsg => by
    cases h.ends with
    | resumes hrun => rw [hrun] at hmsg; cases hmsg
    | fails hrun => rw [hrun] at hmsg; cases hmsg
  have hpassed : ∀ t ∈ k.passedOver L, ¬ k.OutOfReach t := by
    intro t ht hout
    -- the first of them is reached
    obtain ⟨v, hv⟩ : ∃ v, (k.passedOver L).find? (fun t => decide (k.OutOfReach t)) = some v := by
      rw [← Option.isSome_iff_exists, List.find?_isSome]
      exact ⟨t, ht, decide_eq_true hout⟩
    obtain ⟨hv, before, after, hsplit, hbefore⟩ := List.find?_eq_some_iff_append.mp hv
    obtain ⟨rest, hrest⟩ := List.takeWhile_prefix (l := Scheduler.rotation L) k.pending
    have hrot : Scheduler.rotation L = before ++ v :: (after ++ rest) := by
      rw [← hrest, show (Scheduler.rotation L).takeWhile k.pending = before ++ v :: after from hsplit]
      simp
    obtain ⟨msg, hmsg⟩ := activateCurrent_panics hb hL hirq hrot (fun u hu =>
      ⟨passedOver_pending (hsplit ▸ List.mem_append_left _ hu), by simpa using hbefore u hu⟩) (of_decide_eq_true hv)
    exact hcalm msg hmsg
  rintro t (ht | ht)
  · exact hpassed t ht
  · intro hout
    obtain ⟨-, rest, hsplit⟩ := chosen_some ht
    obtain ⟨msg, hmsg⟩ := activateCurrent_panics hb hL hirq hsplit (fun u hu =>
      ⟨passedOver_pending hu, hpassed u hu⟩) hout
    exact hcalm msg hmsg

theorem Lists.polls_first (hL : k.Lists L) (hnext : k.nextThread = some t) : t ∈ k.passedOver L ∨ t ∈ k.chosen L := by
  have hhead := hL.nextThread.trans hnext
  obtain ⟨rest, hrest⟩ := List.head?_eq_some_iff.mp hhead
  unfold passedOver chosen
  rw [hrest]
  cases hp : k.pending t with
  | true =>
    rw [List.takeWhile_cons_of_pos hp]
    exact .inl List.mem_cons_self
  | false => exact .inr (List.find?_cons_of_pos (by simp [hp]))

end Kernel

namespace Machine

open Kernel

/-- Process 3 sends a message to the server of process 2, and waits for an event. -/
def sentEvents : List Event :=
  [.svc frame .yield, .svc frame (.connect sid), .svc frame (.sendMessage 2 (.scalar ⟨0, 0, 0, 0, 0⟩)),
    .svc frame (.waitEvent 1)]

/-- Process 4 is in the middle of a call that blocks, and the thread of process 2 is still to get a
message which it waits for. -/
def laterPoll : KExec Unit := do
  setThreadState (p4, initialTid) (.waitEvent 1)
  setKernelFuture (p2, initialTid) (.receiveMessage 0)

theorem laterPoll_basic {k : Kernel} (hb : Ipc.Basic k.ipc) :
    Exec.wp laterPoll (fun _ k' => Ipc.Basic k'.ipc) (fun _ _ => True) k := by
  rw [laterPoll, Exec.wp_bind]
  refine wp_mono (wp_of_post (setThreadState_post _ _ k)) (fun _ k1 h1 => ?_) fun _ _ _ => trivial
  refine wp_mono (wp_of_post (setKernelFuture_post _ _ k1)) (fun _ k2 h2 => ?_) fun _ _ _ => trivial
  rw [h2.2.1 (by decide)]
  refine (hb.setState h1.1).setFuture fun sidx hsidx => ?_
  cases hsidx
  decide

end Machine

namespace Kernel

open Ipc Machine

end Kernel

end BeetKernel

/-
# The scheduler, as moves

`activate_current` polls the future of the thread at the head of the highest queue.  A future
that is still pending parks its thread again and the loop goes on; one that completes delivers
its result to the thread, which then runs.  There is one way to fail: a receiver whose server is
gone, or belongs to another process by now, makes the whole call fail, and its future is lost.

The loop ends, because every turn that does not end it takes a thread off the ready lists.
-/
import BeetKernel.Ipc.Dispatch

namespace BeetKernel

namespace Ipc

variable {i j : Ipc} {t : ThreadId}

/-! ## 1. What the scheduler can do -/

/-- The thread the scheduler chose runs: it already did, or is switched to. -/
inductive Resumes (t : ThreadId) (i j : Ipc) : Prop where
  | same (ht : t = i.current) (h : j = i)
  | switch (h : Move (.switch t) i j)

/-- The future of the chosen thread completes, if it has one. -/
inductive Polls (t : ThreadId) (i j : Ipc) : Prop where
  | none (hf : i.future t = none) (h : j = i)
  | complete (h : Move (.complete t) i j)
  | collect {i1 i2 : Ipc} {sidx : Nat} {s : Server}
      (hf : i.future t = some (.receiveMessage sidx)) (hs : i.servers sidx = some s)
      (hpid : s.pid = t.1) (hmsg : s.tailGeneration ≠ s.headGeneration)
      (h1 : Move (.collect t) i i1) (h2 : Does Quiet i1 i2) (h3 : Move (.regs t) i2 j)

/-- A thread is chosen and runs. -/
inductive Picks (i j : Ipc) : Prop where
  | nobody (hn : i.scheduler.inIrqHandler = true ∨ ∀ t : ThreadId, t.2 ≠ irqTid → i.state t ≠ .ready)
      (h : j = i)
  | thread {i1 : Ipc} {t : ThreadId} (hr : i.state t = .ready) (hu : t.2 ≠ irqTid)
      (h1 : Polls t i i1) (h2 : Resumes t i1 j)

/-- Threads whose futures are still pending are parked again. -/
abbrev Reparks : Ipc → Ipc → Prop := Does fun l => ∃ t, l = .repark t ∧ t.2 ≠ irqTid

/-- `activate_current` returns. -/
def Schedules (i j : Ipc) : Prop := ∃ i1, Reparks i i1 ∧ Picks i1 j

/-- `activate_current` fails: the future of a receiver completes with an error. -/
structure Misses (t : ThreadId) (sidx : Nat) (i j : Ipc) : Prop where
  user : t.2 ≠ irqTid
  future : i.future t = some (.receiveMessage sidx)
  server : ∀ s, i.servers sidx = some s → s.pid ≠ t.1
  lost : Move (.collect t) i j
  eq : j = i.setFuture t none

def Fails (i j : Ipc) : Prop := ∃ i1 t sidx, Reparks i i1 ∧ Misses t sidx i1 j

theorem Reparks.current (h : Reparks i j) : j.current = i.current := by
  induction h with
  | refl => rfl
  | tail _ hm ih =>
    obtain ⟨_, ⟨t, rfl, -⟩, hm⟩ := hm
    cases hm with
    | repark _ _ hs => exact hs.current.trans ih

theorem Linked.head (h : i.Linked) (ht : i.scheduler.queueHeads i.scheduler.highestReadyPriority = some t) :
    i.state t = .ready ∧ t.2 ≠ irqTid := by
  obtain ⟨L, hr, hmem⟩ := h
  rw [hr.head] at ht
  have hin := (hmem t _).mp (List.mem_of_mem_head? ht)
  exact ⟨hin.2.1, hin.1⟩

theorem Linked.no_head (h : i.Linked) (hn : i.scheduler.queueHeads i.scheduler.highestReadyPriority = none) :
    ∀ t : ThreadId, t.2 ≠ irqTid → i.state t ≠ .ready := by
  obtain ⟨L, hr, hmem⟩ := h
  rw [hr.head, List.head?_eq_none_iff] at hn
  intro t hu hready
  have hin : t ∈ L (i.priority t).toIndex := (hmem t _).mpr ⟨hu, hready, rfl⟩
  obtain ⟨hle, hhigh⟩ := hr.highest
  have hne : L (i.priority t).toIndex ≠ [] := List.ne_nil_of_mem hin
  rcases hhigh with hhigh | hzero
  · exact hhigh hn
  · -- no list below the highest, and that one is empty
    have hq := hle _ hne
    rw [hzero] at hq hn
    rw [le_antisymm hq (Fin.zero_le _)] at hne
    exact hne hn

theorem SetState.stays_ready {u : ThreadId} (h : SetState u .ready i j) (hr : i.state t = .ready) :
    j.state t = .ready := by
  rcases eq_or_ne t u with rfl | hne
  · exact h.state_self
  · rwa [h.state_of_ne hne]

theorem Move.stays_ready (h : Move .quiet i j) (hr : i.state t = .ready) : j.state t = .ready := by
  cases h with
  | wake _ _ h | handOver _ _ h =>
    obtain ⟨ctx, -, hs⟩ := h
    exact hs.stays_ready hr
  | post _ _ _ _ hs => exact hs.stays_ready hr
  | touch | lose | rotate | priority | relink => exact hr

theorem quiet_stays_ready (h : Does Quiet i j) (hr : i.state t = .ready) : j.state t = .ready :=
  Moves.invariant (P := fun i => i.state t = .ready) (fun _ _ _ hl hm => by
    subst hl
    exact hm.stays_ready) h hr

theorem Polls.stays_ready (h : Polls t i j) (hr : i.state t = .ready) : j.state t = .ready := by
  cases h with
  | none _ h => rwa [h]
  | complete h => cases h; exact hr
  | collect _ _ _ _ h1 h2 h3 =>
    have hr1 := quiet_stays_ready (t := t) h2 (by cases h1; exact hr)
    cases h3
    exact hr1

theorem Polls.current (h : Polls t i j) : j.current = i.current := by
  cases h with
  | none _ h => rw [h]
  | complete h => cases h; rfl
  | collect _ _ _ _ h1 h2 h3 =>
    cases h1
    cases h3
    exact (Kernel.quiet_frame h2).current

theorem Polls.basic (h : Polls t i j) (hb : Basic i) : Basic j := by
  cases h with
  | none _ h => rwa [h]
  | complete h => exact hb.move h (by simp)
  | collect _ _ _ _ h1 h2 h3 =>
    exact (Kernel.quiet_basic h2 (hb.move h1 (by simp))).move h3 (by simp)

/-! ## 2. The loop ends -/

/-- Every thread the tables have room for. -/
def allThreads : List ThreadId := PID.all.flatMap fun pid => (List.range maxThreadCount).map fun tid => (pid, tid)

def readyCount (i : Ipc) : Nat := allThreads.countP fun t => i.state t = .ready

theorem readyCount_le (i : Ipc) : readyCount i ≤ maxProcessCount * maxThreadCount := by
  have hlen : allThreads.length = maxProcessCount * maxThreadCount := by decide +kernel
  exact hlen ▸ List.countP_le_length

theorem Basic.mem_allThreads (h : Basic i) (ht : i.state t ≠ .free) : t ∈ allThreads := by
  obtain ⟨hp, hlt⟩ := h.present t ht
  refine List.mem_flatMap.mpr ⟨t.1, ?_, List.mem_map.mpr ⟨t.2, List.mem_range.mpr hlt, rfl⟩⟩
  exact Kernel.mem_all (h.pids _ hp)

theorem readyCount_repark (h : Basic i) (hm : Move (.repark t) i j) : readyCount j < readyCount i := by
  cases hm with
  | repark hr hf hs =>
    have hfree : i.state t ≠ .free := by rw [hr]; decide
    obtain ⟨l1, l2, hl⟩ := List.append_of_mem (h.mem_allThreads hfree)
    have hle : ∀ l : List ThreadId, l.countP (fun u => j.state u = .ready) ≤
        l.countP (fun u => i.state u = .ready) := fun l => by
      refine List.countP_mono_left fun u _ hu => ?_
      rw [decide_eq_true_eq] at hu ⊢
      rcases eq_or_ne u t with rfl | hne
      · exact hr
      · rwa [hs.state_of_ne hne] at hu
    have hself : ¬ j.state t = .ready := by rw [hs.state_self]; simp
    unfold readyCount
    rw [hl, List.countP_append, List.countP_append, List.countP_cons_of_neg (by simpa using hself),
      List.countP_cons_of_pos (by simpa using hr)]
    have h1 := hle l1
    have h2 := hle l2
    omega

end Ipc

namespace Kernel

open Ipc
open Exec (EndsIn bind_run get_bind_run post post_and post_bind post_get post_mono post_ok post_unwrap post_seq
  unwrap ignore)

variable {k k' : Kernel} {t : ThreadId}

/-! ## 3. Polling -/

theorem TableBlame.unfollowed {msg : String} (h : TableBlame k msg) (hb : Basic k.ipc) :
    Unfollowed msg := ⟨fun hm => h.2 hm hb, h.1⟩

/-- A mailbox is emptied by the poll, which is pending if it was empty before. -/
theorem pollMailbox_post (hle : t.1.get ≤ maxProcessCount) (hlt : t.2 < maxThreadCount) (hp : k.processes t.1 ≠ none) :
    Exec.post (pollMailbox t) (fun r k' => k'.ipc = k.ipc.setMailbox t none ∧ k'.processes t.1 ≠ none ∧
        match r with
        | .ready (.ok x) => k.ipc.mailbox t = some x
        | .ready (.error _) => False
        | .pending => k.ipc.mailbox t = none)
      (fun _ _ => False) (fun _ => False) k := by
  unfold pollMailbox
  rw [post_bind, Exec.post_attempt]
  refine post_mono (takeMailbox_post t k) (fun r k' h => ?_) (fun _ _ h => absurd h.2 hp) fun _ h => absurd hle h.2
  obtain ⟨rfl, hk'⟩ := h.2.1 hlt
  have hp' : k'.processes t.1 ≠ none := by
    rw [Ne, ← ipc_parent_eq_none, hk']
    exact fun h => hp (ipc_parent_eq_none.mp h)
  cases hm : k.ipc.mailbox t with
  | none => exact ⟨hk', hp', rfl⟩
  | some x => exact ⟨hk', hp', rfl⟩

/-- A receiver completes with a message if there is one, and with an error if the server is not
its own. -/
theorem pollReceiveMessage_post {pid : PID} {sidx : Nat} (hb : Basic k.ipc) (hlt : sidx < maxServerCount) :
    Exec.post (pollReceiveMessage pid sidx) (fun r k' => match r with
        | .ready (.ok _) => Ipc.Does Quiet k.ipc k'.ipc ∧
            ∃ s, k.servers sidx = some s ∧ s.pid = pid ∧ s.tailGeneration ≠ s.headGeneration
        | .ready (.error e) => k' = k ∧ e = .serverNotFound ∧
            ∀ s, k.servers sidx = some s → s.pid ≠ pid
        | .pending => k'.ipc = k.ipc)
      (fun _ _ => False) Unfollowed k := by
  unfold pollReceiveMessage
  rw [post_bind, post_serverFromSidx hlt]
  cases hs : k.servers sidx with
  | none => exact ⟨rfl, rfl, by simp⟩
  | some s =>
    dsimp only
    split
    next hpid =>
      exact ⟨rfl, rfl, by rintro _ ⟨rfl⟩; exact hpid⟩
    rename_i hpid
    refine post_seq (takeNextMessage_post hlt hs) ?_ (fun _ _ h => h) fun _ h => h.unfollowed hb
    rintro r _ ⟨s', htake, rfl⟩
    have htouch := post_ok (Server.takeNextMessage_post sidx s) htake
    cases r with
    | none =>
      obtain ⟨rfl, -⟩ := htouch.2 rfl
      rw [putServer_self hs]
      exact rfl
    | some m =>
      have hgen : s.tailGeneration ≠ s.headGeneration := fun heq => by
        simp [Server.takeNextMessage, heq] at htake
      have hq : Ipc.Does Quiet k.ipc (k.putServer sidx (some s')).ipc := .single rfl (.touch hs htouch.1)
      dsimp only
      rw [post_bind, post_get]
      split
      · rw [post_bind]
        refine (wakeThreadsWithState_sure _).post (post_mono (wakeThreadsWithState_wakes (by simp) (by simp) _)
          (fun _ _ h => ⟨hq.trans (quiet_of_wakes h), s, rfl, not_not.mp hpid, hgen⟩)
          (fun _ _ h => h) fun msg h => ?_)
        obtain ⟨k2, hw, hblame⟩ := h
        exact hblame.unfollowed ((quiet_basic hq hb).wakes hw)
      · exact ⟨hq, s, rfl, not_not.mp hpid, hgen⟩
/-- What a turn of the loop does with the thread at the head, from the state `k` on. -/
abbrev Turn (t : ThreadId) (k : Kernel) (m : KExec Bool) (k1 : Kernel) : Prop := Exec.post m
    (fun runs k' => (runs = true → Polls t k.ipc k'.ipc) ∧ (runs = false → Move (.repark t) k.ipc k'.ipc))
    (fun e k' => e = .serverNotFound ∧ ∃ sidx, Misses t sidx k.ipc k'.ipc) Unfollowed k1

theorem Basic.isUser {i : Ipc} (hb : Basic i) (hr : i.state t = .ready) (hu : t.2 ≠ irqTid) :
    IsUser t := by
  obtain ⟨hpar, hlt⟩ := hb.present t (by rw [hr]; decide)
  exact ⟨hb.pids _ hpar, Nat.pos_of_ne_zero hu, hlt⟩

theorem ready_process (hb : Basic k.ipc) (hr : k.ipc.state t = .ready)
    (hk' : k'.ipc.parent = k.ipc.parent) : k'.processes t.1 ≠ none := fun h => by
  refine (hb.present t (by rw [hr]; decide)).1 ?_
  rw [← hk']
  exact ipc_parent h

theorem process_endsIn {E : Error → Prop} {S : String → Prop} (hE : E .processNotFound)
    (hS : S "index out of bounds") (pid : PID) : EndsIn E S (process pid) :=
  .bind (.assert hS _) fun _ => .bind .get fun _ => .okOr hE _

theorem setThreadState_endsIn {E : Error → Prop} {S : String → Prop} (hE : E .processNotFound)
    (hS : ∀ msg, msg ∈ tableMessages → S msg) (t : ThreadId) (st : ThreadState) :
    EndsIn E S (setThreadState t st) := by
  have hsched : ∀ m : Exec Scheduler Error Unit, (∀ s, post m (fun _ _ => True)
      (fun _ _ => False) (· ∈ tableMessages) s) → EndsIn E S (withScheduler m) :=
    fun m hm => .zoom fun s => post_mono (hm s) (fun _ _ h => h) (fun _ _ h => h.elim) hS
  have hput : ∀ p, EndsIn E S (setProcess t.1 p) := fun _ => .modify _
  refine .bind (process_endsIn hE (hS _ (by decide)) _) fun p =>
    .bind (.assert (hS _ (by decide)) _) fun _ => ?_
  have hready : EndsIn E S (do
      if p.threads t.2 ≠ .ready ∧ st = .ready then
        withScheduler (Scheduler.readyThread t (p.threadPriorities t.2))
      setProcess t.1 { p with threads := Function.update p.threads t.2 st }) :=
    .ite (.bind (hsched _ (Scheduler.readyThread_post _ _)) fun _ => hput _) (hput _)
  exact .ite (.bind (hsched _ (Scheduler.parkThread_post _ _)) fun _ => hready) hready

section

variable {k1 : Kernel} {f : KernelFuture} (hb : Basic k.ipc) (hr : k.ipc.state t = .ready)
  (hu : t.2 ≠ irqTid) (hf : k.ipc.future t = some f) (hk1 : k1.ipc = k.ipc.setFuture t none)

include hb hr hu hf hk1

/-- A pending future goes back, and its thread is parked. -/
theorem repark_total : post (do
      unwrap (setKernelFuture t f) "process missing"
      setThreadState t (.waitEvent f.suspensionMask)
      pure false)
      (fun runs k' => runs = false ∧ Move (.repark t) k.ipc k'.ipc ∧ k'.activeMapping = k1.activeMapping)
      (fun _ _ => False) (fun _ => False) k1 := by
  have huser := Basic.isUser hb hr hu
  have hp : k1.processes t.1 ≠ none := ready_process hb hr (by rw [hk1]; rfl)
  rw [post_bind, post_unwrap]
  refine post_mono (setKernelFuture_post t f k1) (fun _ k2 h2 => ?_)
    (fun _ _ h => absurd h.2 hp) fun _ h => absurd huser.1 h.2
  have hk2 : k2.ipc = k.ipc := by
    rw [h2.2.1 huser.2.2, hk1, setFuture, setFuture, Function.update_idem, ← hf, Function.update_eq_self]
  have hmap : k2.activeMapping = k1.activeMapping := by rw [h2.1]
  refine post_seq (post_and (setThreadState_post t _ k2)
    (setThreadState_endsIn (E := fun _ => True) (S := (· ∈ tableMessages)) trivial (fun _ h => h) t _ k2))
    (fun _ k3 h3 => ?_) (fun _ _ h => ?_) fun msg h => ?_
  · refine ⟨rfl, .repark hr hf (hk2 ▸ h3.1.1), ?_⟩
    rw [h3.1.2]
    exact hmap
  · exact absurd h.1.2 (ready_process hb hr (congrArg Ipc.parent hk2))
  · exact h.1.2 h.2 (hk2 ▸ hb.linked) huser

theorem pending_turn : Turn t k (do
    unwrap (setKernelFuture t f) "process missing"
    setThreadState t (.waitEvent f.suspensionMask)
    pure false) k1 :=
  post_mono (repark_total hb hr hu hf hk1) (fun _ _ h => ⟨by simp [h.1], fun _ => h.2.1⟩)
    (fun _ _ h => h.elim) fun _ h => h.elim

theorem mailbox_turn (hm : ∀ sidx, f ≠ .receiveMessage sidx) : Turn t k (do
    match ← pollMailbox t with
    | .ready result =>
      let r ← Exec.ofExcept result
      ignore (setThreadResult t r)
      pure true
    | .pending =>
      unwrap (setKernelFuture t f) "process missing"
      setThreadState t (.waitEvent f.suspensionMask)
      pure false) k1 := by
  have huser := Basic.isUser hb hr hu
  have hb1 : Basic k1.ipc := hk1 ▸ hb.clearFuture
  have hmail : k1.ipc.mailbox t = k.ipc.mailbox t := by rw [hk1]; rfl
  rw [Turn, post_bind]
  refine post_mono (pollMailbox_post huser.1 huser.2.2 (ready_process hb hr (by rw [hk1]; rfl)))
    (fun r k2 h2 => ?_) (fun _ _ h => h.elim) fun _ h => h.elim
  obtain ⟨hk2, hp2, h2⟩ := h2
  rcases r with (e | x) | _
  · exact h2.elim
  · rw [hmail] at h2
    simp only [post_bind, Exec.post_ofExcept, Exec.post_ignore]
    refine ⟨fun r hr' => ?_, fun _ h => by cases h⟩
    obtain rfl : x = r := by simpa using hr'
    refine post_mono (setThreadResult_post t x k2) (fun _ k3 h3 => ?_) (fun _ _ h3 => absurd h3.2 hp2) fun msg h => ?_
    · refine ⟨fun _ => .complete ?_, by simp⟩
      rw [h3.1, hk2, hk1]
      exact .complete hr hf hm h2
    · have hb2 : Basic k2.ipc := hk2 ▸ hb1.setMailbox none
      exact ⟨fun hmsg => h.2 hmsg ⟨huser.1, hb2.pids _ hb2.running⟩, h.1⟩
  · have hnone : k1.ipc.mailbox t = none := h2
    have hsame : k2.ipc = k1.ipc := by
      rw [hk2, Ipc.setMailbox, ← hnone, Function.update_eq_self]
    exact pending_turn hb hr hu hf (hsame.trans hk1)

theorem receive_turn {sidx : Nat} (hm : f = .receiveMessage sidx) : Turn t k (do
    match ← pollReceiveMessage t.1 sidx with
    | .ready result =>
      let r ← Exec.ofExcept result
      ignore (setThreadResult t r)
      pure true
    | .pending =>
      unwrap (setKernelFuture t f) "process missing"
      setThreadState t (.waitEvent f.suspensionMask)
      pure false) k1 := by
  subst hm
  have huser := Basic.isUser hb hr hu
  have hb1 : Basic k1.ipc := hk1 ▸ hb.clearFuture
  have hservers : k1.servers = k.servers := congrArg Ipc.servers hk1
  have hcollect : Move (.collect t) k.ipc k1.ipc := by
    rw [hk1]
    exact .collect hr hf fun _ _ => rfl
  rw [Turn, post_bind]
  refine post_mono (pollReceiveMessage_post hb1 (hb.receives t sidx hf))
    (fun r k2 h2 => ?_) (fun _ _ h => h.elim) fun _ h => h
  rcases r with (e | m) | _
  · obtain ⟨rfl, rfl, hs⟩ := h2
    rw [hservers] at hs
    exact ⟨rfl, sidx, hu, hf, hs, hcollect, hk1⟩
  · obtain ⟨hq, s, hs, hpid, hgen⟩ := h2
    rw [hservers] at hs
    simp only [post_bind, Exec.post_ofExcept, Exec.post_ignore]
    refine ⟨fun r _ => ?_, fun _ h => by cases h⟩
    refine post_mono (setThreadResult_post t r k2) (fun _ k3 h3 => ?_) (fun _ k3 h3 => ?_) fun msg h => ?_
    · refine ⟨fun _ => .collect hf hs hpid hgen hcollect hq ?_, by simp⟩
      rw [h3.1]
      exact regs_deliver _ _ _
    · refine ⟨fun _ => .collect hf hs hpid hgen hcollect hq ?_, by simp⟩
      rw [h3.1]
      exact .regs fun _ _ => rfl
    · have hb2 := quiet_basic hq hb1
      exact ⟨fun hm => h.2 hm ⟨huser.1, hb2.pids _ hb2.running⟩, h.1⟩
  · exact pending_turn hb hr hu hf (Eq.trans h2 hk1)

end

theorem pollThread_post (hb : Basic k.ipc) (hr : k.ipc.state t = .ready) (hu : t.2 ≠ irqTid) :
    Turn t k (pollThread t) k := by
  have huser := Basic.isUser hb hr hu
  unfold pollThread
  rw [Turn, post_bind, post_unwrap]
  refine post_mono (takeKernelFuture_post t k) (fun f k1 h => ?_)
    (fun _ _ h => absurd h.2 (ready_process hb hr rfl)) fun _ h => absurd huser.1 h.2
  obtain ⟨hf, hk1⟩ := h.2.2.1 huser.2.2
  cases f with
  | none =>
    have hsame : k1.ipc = k.ipc := by rw [hk1, setFuture, hf, Function.update_eq_self]
    exact ⟨fun _ => .none hf.symm hsame, by simp⟩
  | some f =>
    cases f with
    | receiveMessage sidx => exact receive_turn hb hr hu hf.symm hk1 rfl
    | waitBlocking | waitProcessExit | waitJoin | waitFutex | waitDisplay =>
      exact mailbox_turn hb hr hu hf.symm hk1 (by simp)

/-! ## 4. The loop -/

/-- `set_tid` does nothing for a thread that the hardware tables do not know. -/
theorem ipc_setTid (t : ThreadId) (k : Kernel) : ∃ tid,
    (setTid t k).ipc = { k.ipc with tid := Function.update k.ipc.tid t.1 tid } ∧
    (tid = t.2 ∧ k.ipc.allocated t = true ∨ tid = k.ipc.tid t.1 ∧ k.ipc.allocated t = false) := by
  unfold setTid
  cases hal : k.allocated t with
  | false =>
    refine ⟨k.ipc.tid t.1, ?_, .inr ⟨rfl, hal⟩⟩
    rw [Function.update_eq_self]
    rfl
  | true =>
    refine ⟨t.2, ?_, .inl ⟨rfl, hal⟩⟩
    rw [if_pos rfl]
    cases ha : k.archProcesses t.1 with
    | none => simp [Kernel.allocated, ha] at hal
    | some a =>
      refine Ipc.ext rfl rfl rfl rfl rfl rfl rfl rfl ?_ ?_ rfl ?_ rfl rfl
      · funext u
        rcases eq_or_ne u.1 t.1 with hu | hu <;> simp [ipc, Kernel.allocated, hu, ha]
      · funext u
        rcases eq_or_ne u.1 t.1 with hu | hu <;> simp [ipc, Kernel.context, hu, ha]
      · funext p
        rcases eq_or_ne p t.1 with hp | hp <;> simp [ipc, hp]

theorem switchTo_post (hb : Basic k.ipc) (hr : k.ipc.state t = .ready) (hu : t.2 ≠ irqTid) :
    Exec.post (switchTo k.currentThread t)
      (fun _ k' => Resumes t k.ipc k'.ipc ∧ (AtHome k → AtHome k')) (fun _ _ => False)
      (fun _ => False) k := by
  have huser := Basic.isUser hb hr hu
  unfold switchTo
  split
  next ht =>
    exact ⟨.same ht rfl, id⟩
  · simp only [post_bind, post_unwrap, post_activate, Exec.post_modify]
    refine post_process (fun _ _ _ => ?_) (fun h => absurd h (ready_process hb hr rfl)) fun h => absurd huser.1 h
    obtain ⟨tid, heq, htid⟩ := ipc_setTid t { k with currentPid := t.1, activeMapping := t.1 }
    refine ⟨.switch ?_, fun _ => ?_⟩
    · rw [heq]
      exact .switch hr hu htid
    · unfold AtHome setTid
      split
      · split <;> rfl
      · rfl

/-- One turn, and what is left of the loop. -/
theorem activateLoop_post : ∀ (n : Nat) (k : Kernel), Basic k.ipc → Exec.post (activateLoop k.currentThread n)
      (fun r k' => r = .resumeProcess ∧ Schedules k.ipc k'.ipc ∧ (AtHome k → AtHome k'))
      (fun e k' => e = .serverNotFound ∧ Fails k.ipc k'.ipc ∧ (AtHome k → AtHome k')) Unfollowed k
  | 0, _, _ => (by decide : Unfollowed "out of fuel")
  | n + 1, k, hb => by
    rw [activateLoop, post_bind, post_get]
    cases hnext : k.nextThread with
    | none =>
      exact ⟨rfl, ⟨_, .refl _, .nobody (.inr (hb.linked.no_head hnext)) rfl⟩, id⟩
    | some t =>
      obtain ⟨hr, hu⟩ := hb.linked.head hnext
      dsimp only
      refine post_seq (Exec.post_and (pollThread_post hb hr hu)
        (Exec.post_of_wp (settled_code.pollThread (setThreadResult_settled t)
          (fun _ => withServer_settled _ _) k))) ?_ ?_ fun _ h => h.1
      · rintro runs k1 ⟨⟨hruns, hwaits⟩, hset⟩
        cases runs with
        | true =>
          have hpolls := hruns rfl
          have hcur : k.currentThread = k1.currentThread := hpolls.current.symm
          rw [if_pos rfl, post_bind, hcur]
          refine post_mono (switchTo_post (hpolls.basic hb) (hpolls.stays_ready hr) hu)
            (fun _ k2 h2 => ?_) (fun _ _ h => h.elim) fun _ h => h.elim
          exact ⟨rfl, ⟨_, .refl _, .thread hr hu hpolls h2.1⟩, fun h => h2.2 (hset.atHome h)⟩
        | false =>
          have hpark := hwaits rfl
          have hfirst : Reparks k.ipc k1.ipc := .single ⟨t, rfl, hu⟩ hpark
          have hcur : k.currentThread = k1.currentThread := hfirst.current.symm
          rw [if_neg (by simp), hcur]
          refine post_mono (activateLoop_post n k1 (hb.move hpark (by simp))) ?_ ?_ fun _ h => h
          · rintro r k2 ⟨rfl, ⟨i2, hrest, hpicks⟩, hhome⟩
            exact ⟨rfl, ⟨i2, hfirst.trans hrest, hpicks⟩, fun h => hhome (hset.atHome h)⟩
          · rintro e k2 ⟨rfl, ⟨i2, u, sidx, hrest, hmiss⟩, hhome⟩
            exact ⟨rfl, ⟨i2, u, sidx, hfirst.trans hrest, hmiss⟩, fun h => hhome (hset.atHome h)⟩
      · rintro e k1 ⟨⟨rfl, sidx, hmiss⟩, hset⟩
        exact ⟨rfl, ⟨_, t, sidx, .refl _, hmiss⟩, hset.atHome⟩

/-- More fuel than there are ready threads makes no difference. -/
theorem activateLoop_fuel {current : ThreadId} : ∀ (n m : Nat) (k : Kernel), Basic k.ipc →
    readyCount k.ipc < n → n ≤ m → activateLoop current m k = activateLoop current n k
  | n + 1, m + 1, k, hb, hn, hm => by
    rw [activateLoop, activateLoop, get_bind_run, get_bind_run]
    cases hnext : k.nextThread with
    | none => rfl
    | some t =>
      obtain ⟨hr, hu⟩ := hb.linked.head hnext
      dsimp only
      rw [bind_run, bind_run]
      have hturn := pollThread_post hb hr hu
      cases hrun : pollThread t k with
      | err e k1 => rfl
      | panic msg => rfl
      | ok runs k1 =>
        cases runs with
        | true => rfl
        | false =>
          have hpark := (post_ok hturn hrun).2 rfl
          have hless := readyCount_repark hb hpark
          exact activateLoop_fuel n m k1 (hb.move hpark (by simp)) (by omega) (by omega)

/-- **`activate_current`**: it chooses a thread, or the future of a receiver fails. -/
theorem activateCurrent_post (hb : Basic k.ipc) : Exec.post activateCurrent
      (fun r k' => r = .resumeProcess ∧ Schedules k.ipc k'.ipc ∧ (AtHome k → AtHome k'))
      (fun e k' => e = .serverNotFound ∧ Fails k.ipc k'.ipc ∧ (AtHome k → AtHome k'))
      Unfollowed k := by
  unfold activateCurrent
  rw [post_bind, post_get]
  split
  next hirq =>
    exact ⟨rfl, ⟨_, .refl _, .nobody (.inl hirq) rfl⟩, id⟩
  · exact activateLoop_post _ k hb

/-- The bound in `activateCurrent` is that of no source loop, and is never reached. -/
theorem activateCurrent_fuel (hb : Basic k.ipc) (hirq : k.scheduler.inIrqHandler = false) {n : Nat}
    (hn : maxProcessCount * maxThreadCount < n) :
    activateCurrent k = activateLoop k.currentThread n k := by
  unfold activateCurrent
  rw [get_bind_run, if_neg (by rw [hirq]; decide)]
  exact (activateLoop_fuel _ n k hb (Nat.lt_succ_of_le (readyCount_le _)) hn).symm

end Kernel

end BeetKernel

/-
# The kernel's code on servers makes these moves

The second part of the bridge: the queue operations of `server.rs` as changes of one server,
and `send_message_inner` from the point where the memory is in place.  A message that does
not block goes out quietly, whether it is taken by a parked receiver, queued or refused.  A
message that blocks makes ONE move that is not quiet: a slot names its sender.
-/
import BeetKernel.Ipc.Threads

namespace BeetKernel

open Exec (bind_run expect_some post_and post_bind post_err post_expect post_get post_mono
  post_of_wp post_of_wp_imp post_ok post_pure post)

/-! ## 1. Queue operations -/

namespace Server

open Ipc (Touch Adds Removes Hands Parks)

variable {s s' : Server}

theorem touch_refl (s : Server) : Touch s s := ⟨⟨rfl, rfl⟩, rfl, id, id⟩

/-- `queue_message` on a server nobody waits at. -/
theorem queueMessage_post (pid : PID) (tid : TID) (m : Message) (orig : Option MemoryAddress)
    (hb : s.readyThreads = 0) :
    post (queueMessage pid tid m orig)
      (fun i s' => (m.isBlocking = true → Adds i (pid, tid % 256) s s') ∧ (m.isBlocking = false → Touch s s'))
      (fun _ s' => Touch s s') s.Overrun s := by
  refine post_mono (post_and (post_and (post_of_wp (queueMessage_caller pid tid m orig s))
    (post_of_wp_imp fun hs => Sound.queueMessage hs hb pid tid m orig))
    (queueMessage_bounded pid tid m orig s)) ?_ ?_ fun _ h => h.2
  · rintro i s' ⟨⟨⟨hrec, hfree, hcaller⟩, hs⟩, hbounds⟩
    refine ⟨fun hm => ⟨hrec, hfree, fun n => ?_, hs, hbounds⟩, fun hm => ⟨hrec, funext fun n => ?_, hs, hbounds⟩⟩
    · rw [hcaller, if_pos hm]
    · rw [hcaller, hm]
      split
      next hn =>
        rw [hn, hfree]
        rfl
      · rfl
  · rintro _ s' ⟨⟨⟨hrec, hcaller⟩, hs⟩, hbounds⟩
    exact ⟨hrec, hcaller, hs, hbounds⟩

theorem queueResponse_post (pid : PID) (tid : TID) {m : Message} (hm : m.isBlocking = true)
    (addr : Option MemoryAddress) (s : Server) :
    post (queueResponse pid tid m addr) (fun i s' => Adds i (pid, tid % 256) s s')
      (fun _ s' => Touch s s') s.Overrun s := by
  refine post_mono (post_and (post_and (post_of_wp (queueResponse_caller pid tid hm addr s))
    (post_of_wp_imp fun hs => Sound.queueResponse hs pid tid hm addr))
    (queueResponse_bounded pid tid m addr s)) ?_ ?_ fun _ h => h.2
  · rintro i s' ⟨⟨⟨hrec, hfree, hcaller⟩, hs⟩, hbounds⟩
    exact ⟨hrec, hfree, hcaller, hs, hbounds⟩
  · rintro _ s' ⟨⟨⟨hrec, hcaller⟩, hs⟩, hbounds⟩
    exact ⟨hrec, hcaller, hs, hbounds⟩

/-- `take_next_message`: receiving a message names nobody new. -/
theorem takeNextMessage_post (sidx : Nat) (s : Server) : post (takeNextMessage sidx)
      (fun r s' => Touch s s' ∧ (r = none → s' = s ∧ (s.Sound → s.tailGeneration = s.headGeneration)))
      (fun _ _ => False) s.Overrun s := by
  refine post_mono (post_and (post_and (post_of_wp (takeNextMessage_caller sidx s))
    (post_of_wp_imp fun hs => Sound.takeNextMessage hs sidx))
    (takeNextMessage_bounded sidx s)) ?_ (fun _ _ h => h.1.1) fun _ h => h.2
  rintro r s' ⟨⟨⟨hrec, hcaller, hnone⟩, hs⟩, hbounds⟩
  exact ⟨⟨hrec, hcaller, fun h => (hs h).1, hbounds⟩, fun hr => ⟨hnone hr, fun h => (hs h).2 hr⟩⟩

/-- `take_waiting_message` frees the slot of the thread it answers. -/
theorem takeWaitingMessage_post (i : Nat) (buf : Option MemoryRange) (s : Server) : post (takeWaitingMessage i buf)
      (fun w s' => (w = .none → s' = s) ∧ (∀ t, w.caller = some t → Removes i t s s') ∧ (w.caller = none → Touch s s'))
      (fun _ s' => s' = s) s.Overrun s := by
  refine post_mono (post_and (post_and (post_of_wp (takeWaitingMessage_caller i buf s))
    (post_of_wp_imp fun hs => Sound.takeWaitingMessage hs i buf))
    (takeWaitingMessage_bounded i buf s)) ?_ (fun _ _ h => h.1.1) fun _ h => h.2
  rintro w s' ⟨⟨⟨hrec, hnone, hsome⟩, hs⟩, hbounds⟩
  refine ⟨hnone, fun t ht => ?_, fun ht => ?_⟩
  · have hw : w ≠ .none := by
      rintro rfl
      cases ht
    obtain ⟨hi, hcaller⟩ := hsome hw
    exact ⟨hrec, hi.trans ht, hcaller, hs, hbounds⟩
  · rcases eq_or_ne w .none with hw | hw
    · rw [hnone hw]
      exact touch_refl s
    · obtain ⟨hi, hcaller⟩ := hsome hw
      refine ⟨hrec, funext fun n => ?_, hs, hbounds⟩
      rw [hcaller]
      split
      next hn =>
        rw [hn, hi, ht]
      · rfl

variable {tid : TID}

theorem takeAvailableThread_hands (h : s.takeAvailableThread = some (tid, s')) : Hands tid s s' := by
  obtain ⟨hwas, hlt, hpid, hcaller, hmask, hs'⟩ := takeAvailableThread_some h
  refine ⟨hpid, hwas, hmask, hcaller, fun hs => ?_, fun hb => ?_⟩
  · rw [hs']
    refine hs.mask fun _ => hs.generations ?_
    rintro hzero
    rw [hzero] at hwas
    simp at hwas
  · rw [hs']
    exact hb

theorem findEmptySlotIn_mask (b : BitVec 64) : ∀ (l : List Nat) (s : Server),
    findEmptySlotIn l { s with readyThreads := b } =
      (findEmptySlotIn l s).mapState fun s => { s with readyThreads := b }
  | [], _ => rfl
  | i :: l, s => by
    unfold findEmptySlotIn
    simp only [Exec.get_bind_run]
    rcases s.queue[i]? with _ | q
    · rfl
    · cases q
      case empty => rfl
      all_goals exact findEmptySlotIn_mask b l s

theorem queueResponse_mask (b : BitVec 64) (pid : PID) (tid : TID) (m : Message)
    (addr : Option MemoryAddress) (s : Server) :
    queueResponse pid tid m addr { s with readyThreads := b } =
      (queueResponse pid tid m addr s).mapState fun s => { s with readyThreads := b } := by
  unfold queueResponse findEmptySlot
  simp only [bind_run, Exec.get_run, findEmptySlotIn_mask b]
  cases findEmptySlotIn (List.range' s.queueHead (s.queue.length - s.queueHead) ++ List.range s.queueHead) s with
  | ok i s1 =>
    simp only [Outcome.mapState]
    cases responseSlot pid tid addr m with
    | error e => rfl
    | ok slot =>
      cases h : (s1.emptyCount != 0) <;> simp [bind_run, Exec.assert, h]
  | err e s1 => rfl
  | panic msg => rfl

theorem mask_restore {b b' : BitVec 64} (hlt : tid < 64) (h : b.getLsbD tid = true)
    (hmask : ∀ n, b'.getLsbD n = (b.getLsbD n && decide (n ≠ tid))) :
    b' ||| BitVec.twoPow 64 tid = b := by
  apply BitVec.eq_of_getLsbD_eq
  intro n _
  rw [getLsbD_park hlt, hmask]
  rcases eq_or_ne n tid with rfl | hne
  · simp [h]
  · simp [hne]

theorem hands_of_mask {s₀ : Server} (hh : Hands tid s s')
    (hr : s.SameReceivers s₀) : Hands tid s₀ { s₀ with readyThreads := s'.readyThreads } := by
  have hwas : s₀.readyThreads.getLsbD tid = true := by rw [hr.2, hh.was]
  refine ⟨rfl, hwas, fun n => ?_, rfl, fun hs => hs.mask fun _ => hs.generations ?_, id⟩
  · rw [hr.2]
    exact hh.mask n
  · rintro hzero
    rw [hzero] at hwas
    simp at hwas

end Server

/-! ## 2. The server table -/

namespace Kernel

open Ipc

variable {α : Type} {k k' : Kernel} {sidx : Nat} {s : Server} {m : Exec Server Error α}
  {Q : α → Kernel → Prop} {E : Error → Kernel → Prop} {F : String → Prop}

def putServer (k : Kernel) (sidx : Nat) (s : Option Server) : Kernel :=
  { k with servers := Function.update k.servers sidx s }

theorem ipc_putServer (k : Kernel) (sidx : Nat) (s : Option Server) :
    (k.putServer sidx s).ipc = k.ipc.setServer sidx s := rfl

theorem ipc_putServer_putServer (k : Kernel) (sidx : Nat) (s s' : Option Server) :
    ((k.putServer sidx s).putServer sidx s').ipc = k.ipc.setServer sidx s' := by
  rw [ipc_putServer, ipc_putServer]
  simp only [Ipc.setServer, Function.update_idem]

/-- The page tables of another process are active. -/
def inMapping (k : Kernel) (pid : PID) : Kernel := { k with activeMapping := pid }

theorem ipc_inMapping (k : Kernel) (pid : PID) : (k.inMapping pid).ipc = k.ipc := rfl

theorem putServer_self (hs : k.servers sidx = some s) : k.putServer sidx (some s) = k := by
  have : Function.update k.servers sidx (some s) = k.servers := by
    rw [← hs, Function.update_eq_self]
  unfold putServer
  rw [this]

@[simp] theorem post_setServer {Q : Unit → Kernel → Prop} (s : Option Server) :
    post (setServer sidx s) Q E F k ↔ Q () (k.putServer sidx s) := Iff.rfl

theorem post_serverFromSidx {Q : Option Server → Kernel → Prop} (hlt : sidx < maxServerCount) :
    post (serverFromSidx sidx) Q E F k ↔ Q (k.servers sidx) k := by
  unfold post serverFromSidx
  rw [if_neg (Nat.not_lt.mpr hlt.le)]
  simp [bind_run, Exec.assert, hlt]

theorem post_withServer (hlt : sidx < maxServerCount) (hs : k.servers sidx = some s) :
    post (withServer sidx m) Q E F k ↔ post m (fun a s' => Q a (k.putServer sidx (some s')))
        (fun e s' => E e (k.putServer sidx (some s'))) F s := by
  unfold withServer
  simp only [post_bind, post_serverFromSidx hlt, hs, expect_some, post_pure, Exec.post_zoom]
  exact Iff.rfl

/-- The queue is read in the mapping of the server's process, or not at all. -/
theorem post_withQueue (hlt : sidx < maxServerCount) (hs : k.servers sidx = some s)
    (h : k.activeMapping = s.pid → post m (fun a s' => Q a (k.putServer sidx (some s')))
      (fun e s' => E e (k.putServer sidx (some s'))) F s)
    (hmap : F "the queue is not in the active mapping") :
    post (withQueue sidx m) Q E F k := by
  unfold withQueue
  simp only [post_bind, post_serverFromSidx hlt, hs, expect_some, post_pure,
    post_get, Exec.post_assert, post_withServer hlt hs, decide_eq_true_eq]
  exact ⟨h, fun _ => hmap⟩

theorem TableBlame.owner (hs : k.servers sidx = some s) (h : ¬ s.pid.get ≤ maxProcessCount) :
    TableBlame k "index out of bounds" :=
  ⟨by decide, fun _ hb => h (hb.pids _ (hb.owners sidx s hs))⟩

theorem TableBlame.running (h : ¬ k.currentPid.get ≤ maxProcessCount) : TableBlame k "index out of bounds" :=
  ⟨by decide, fun _ hb => h (hb.pids _ hb.running)⟩

theorem TableBlame.overrun (hs : k.servers sidx = some s) {msg : String} (h : s.Overrun msg) :
    TableBlame k msg := by
  obtain ⟨hmem, hbounds⟩ := h
  have hne : msg ≠ parkMessage := by
    rintro rfl
    exact absurd hmem (by decide)
  refine ⟨hne, fun htab hb => ?_⟩
  have hoob : msg = "index out of bounds" := by
    simp only [Server.queuePanics, List.mem_cons, List.not_mem_nil, or_false] at hmem
    rcases hmem with rfl | rfl | rfl | rfl
    · rfl
    all_goals exact absurd htab (by decide)
  exact hbounds hoob (hb.bounds sidx s hs)

/-- What the code does is done to the server, in its own mapping; or its process is gone. -/
abbrev Carries (sidx : Nat) (s : Server) (n : Exec Server Error Nat) (k : Kernel) (m : KExec Nat) : Prop := post m
    (fun i k' => ∃ s', n s = .ok i s' ∧ k' = (k.putServer sidx (some s')).inMapping k.currentPid)
    (fun e k' => k' = k ∧ k.processes s.pid = none ∨
      ∃ s', n s = .err e s' ∧ k' = (k.putServer sidx (some s')).inMapping k.currentPid)
    (TableBlame k) k

/-- The detour of `queue_server_message` and `remember_server_message` through the mapping of
the server's process. -/
theorem viaMapping_carries {n : Exec Server Error Nat} (msg : String) (hmsg : Unfollowed msg)
    (hlt : sidx < maxServerCount) (hs : k.servers sidx = some s)
    (hpanic : ∀ msg, n s = .panic msg → s.Overrun msg) :
    Carries sidx s n k (do
      let _ ← process s.pid
      activateMapping s.pid
      let result ← Exec.attempt (withQueue sidx n)
      let _ ← Exec.unwrap (process k.currentPid) msg
      activateMapping k.currentPid
      Exec.ofExcept result) := by
  rw [Carries, post_bind]
  refine post_process (fun p hp hle => ?_) (fun h => .inl ⟨rfl, h⟩) (fun hle => .owner hs hle)
  simp only [post_bind, post_activateMapping, Exec.post_attempt, Exec.post_unwrap, Exec.post_ofExcept]
  -- the rest runs in the server's mapping, with nothing else changed
  have hback : ∀ {Q : Process → Kernel → Prop} (s' : Server),
      (∀ p, Q p (({ k with activeMapping := s.pid } : Kernel).putServer sidx (some s'))) →
      post (process k.currentPid) Q (fun _ _ => TableBlame k msg) (TableBlame k)
        (({ k with activeMapping := s.pid } : Kernel).putServer sidx (some s')) := fun s' hQ =>
    post_process (fun p _ _ => hQ p) (fun _ => .of_unfollowed hmsg) (fun hle => .running hle)
  refine post_withQueue hlt hs (fun _ => ?_) (.of_unfollowed (by decide))
  unfold post
  split
  next i s' hrun =>
    exact hback s' fun _ => ⟨fun i' h => by cases h; exact ⟨s', hrun, rfl⟩, by simp⟩
  next e s' hrun =>
    exact hback s' fun _ => ⟨by simp, fun e' h => by cases h; exact .inr ⟨s', hrun, rfl⟩⟩
  next msg' hrun =>
    exact .overrun hs (hpanic msg' hrun)

theorem queueServerMessage_post (pid : PID) (tid : TID) (m : Message)
    (addr : Option MemoryAddress) (hlt : sidx < maxServerCount) (hs : k.servers sidx = some s) :
    Carries sidx s (Server.queueMessage pid tid m addr) k (queueServerMessage sidx pid tid m addr) := by
  have hvia := viaMapping_carries "couldn't restore previous process" (by decide) hlt hs
    fun msg h => Exec.post_panic (Server.queueMessage_bounded pid tid m addr s) h
  unfold queueServerMessage
  simp only [post_bind, post_get, post_serverFromSidx hlt, hs, Exec.okOr_some, post_pure] at hvia ⊢
  exact hvia

theorem rememberServerMessage_post (tid : TID) (m : Message) (addr : Option MemoryAddress)
    (hlt : sidx < maxServerCount) (hs : k.servers sidx = some s) :
    Carries sidx s (Server.queueResponse k.currentPid tid m addr) k
      (rememberServerMessage sidx k.currentPid tid m addr) := by
  have hvia := viaMapping_carries "couldn't find old process" (by decide) hlt hs
    fun msg h => Exec.post_panic (Server.queueResponse_bounded k.currentPid tid m addr s) h
  unfold rememberServerMessage
  simp only [post_bind, post_serverFromSidx hlt, hs, Exec.okOr_some, post_pure] at hvia ⊢
  exact hvia

/-- `take_next_message` on a server of the table. -/
theorem takeNextMessage_post (hlt : sidx < maxServerCount) (hs : k.servers sidx = some s) : post (takeNextMessage sidx)
      (fun r k' => ∃ s', Server.takeNextMessage sidx s = .ok r s' ∧ k' = k.putServer sidx (some s'))
      (fun _ _ => False) (TableBlame k) k := by
  unfold takeNextMessage
  simp only [post_bind, post_serverFromSidx hlt, hs, expect_some, post_pure]
  split
  next hgen =>
    refine ⟨s, ?_, (putServer_self hs).symm⟩
    simp [Server.takeNextMessage, hgen]
  · refine post_withQueue hlt hs (fun _ => ?_) (.of_unfollowed (by decide))
    have htake := Server.takeNextMessage_post sidx s
    unfold post at htake ⊢
    cases hrun : Server.takeNextMessage sidx s with
    | ok r s' => exact ⟨s', rfl, rfl⟩
    | err e s' => simp only [hrun] at htake
    | panic msg =>
      simp only [hrun] at htake
      exact .overrun hs htake

/-! ## 3. Delivery -/

/-- The message is on record: a slot names the sender of a blocking message. -/
def Recorded (sidx : Nat) (m : Message) (i j : Ipc) : Prop :=
  (m.isBlocking = true ∧ ∃ slot, Move (.send sidx slot) i j) ∨ (m.isBlocking = false ∧ Ipc.Does Quiet i j)

theorem Recorded.of_queue {tid : TID} {m : Message} {slot : Nat} {s' : Server} (hs : k.servers sidx = some s)
    (htid : m.isBlocking = true → tid = k.currentTid ∧ k.currentTid < 256)
    (hadds : m.isBlocking = true → Adds slot (k.currentPid, tid % 256) s s')
    (htouch : m.isBlocking = false → Touch s s') :
    Recorded sidx m k.ipc (k.ipc.setServer sidx (some s')) := by
  cases hm : m.isBlocking with
  | true =>
    obtain ⟨rfl, hlt⟩ := htid hm
    have ha := hadds hm
    rw [Nat.mod_eq_of_lt hlt] at ha
    exact .inl ⟨hm, slot, .send hs ha⟩
  | false => exact .inr ⟨hm, .single rfl (.touch hs (htouch hm))⟩

/-- A receiver is taken off the mask and made ready: the second half of the move. -/
theorem quiet_of_readied {i2 : Ipc} {tid : TID} {s₀ s2 : Server} {k2 k' : Kernel}
    (hi : i2.servers sidx = some s₀) (hk2 : k2.ipc = i2.setServer sidx (some s2))
    (hh : Hands tid s₀ s2) (hpid : s₀.pid = s.pid)
    (h : Readied (s.pid, tid) (k2.ipc.setFuture (s.pid, tid) none) k'.ipc) :
    Ipc.Does Quiet i2 k'.ipc := by
  rw [hk2, ← hpid] at h
  exact .single rfl (.handOver hi hh h)

/-- A receiver that is no user thread was not on the mask. -/
theorem blame_parked {tid : TID} {k2 : Kernel} {msg : String} (hs : k.servers sidx = some s)
    (hwas : s.readyThreads.getLsbD tid = true) (hlinked : Linked k.ipc → Linked k2.ipc)
    (hcur : k2.currentPid = k.currentPid) (h : ResultBlame k2 (s.pid, tid) msg) :
    Blame msg k.ipc := by
  refine .of_disorder h.1 fun hm hb hp => h.2 hm (hlinked hb.linked) ?_ (hp.parked sidx _ ((parkedAt_self hs).mpr hwas))
  rw [hcur]
  exact hb.pids _ hb.running

/-- `send_message_inner` from the point where the memory is in place. -/
theorem deliverMessage_post (tid : TID) (m : Message) (addr : Option MemoryAddress)
    (hlt : sidx < maxServerCount) (k : Kernel)
    (htid : m.isBlocking = true → tid = k.currentTid ∧ k.currentTid < 256) :
    post (deliverMessage tid sidx m addr) (fun _ k' => ∃ i2, Recorded sidx m k.ipc i2 ∧ Ipc.Does Quiet i2 k'.ipc)
      (fun _ k' => Ipc.Does Quiet k.ipc k'.ipc)
      (fun msg => ∃ k2, (k2 = k ∨ Recorded sidx m k.ipc k2.ipc) ∧ Blame msg k2.ipc) k := by
  unfold deliverMessage
  simp only [post_bind, post_get, post_serverFromSidx hlt, post_expect]
  refine ⟨fun s hs => ?_, fun _ => ⟨_, .inl rfl, .of_unfollowed (by decide) _⟩⟩
  split
  next serverTid s1 htake =>
    obtain ⟨hwas, htid64, hpid, hcaller, hmask, hs1⟩ := Server.takeAvailableThread_some htake
    have hand := Server.takeAvailableThread_hands htake
    simp only [post_bind, post_setServer]
    cases hm : m.isBlocking with
    | false =>
      simp only [Bool.false_eq_true, if_false]
      refine post_mono (handOver_post (s.pid, serverTid) _ _) ?_ (fun _ _ h => h.elim) ?_
      · exact fun _ k' h => ⟨k.ipc, .inr ⟨hm, .refl _⟩, quiet_of_readied hs (ipc_putServer ..) hand rfl h⟩
      · exact fun msg h => ⟨k, .inl rfl, blame_parked hs hwas id rfl h⟩
    | true =>
      have hs1' : (k.putServer sidx (some s1)).servers sidx = some s1 := Function.update_self ..
      simp only [if_true, post_bind, Exec.post_attempt]
      refine post_mono (rememberServerMessage_post tid m addr hlt hs1') ?_ ?_ ?_
      · rintro i k2 ⟨s2, hq, hk2⟩
        rw [hs1, Server.queueResponse_mask, Outcome.mapState_eq_ok] at hq
        obtain ⟨s₀, hq, rfl⟩ := hq
        have hadds := post_ok (Server.queueResponse_post k.currentPid tid hm addr s) hq
        have hrec := Recorded.of_queue hs htid (fun _ => hadds) (by simp [hm])
        rw [post_pure]
        have hi : k2.ipc = (k.ipc.setServer sidx (some s₀)).setServer sidx
            (some { s₀ with readyThreads := s1.readyThreads }) := by
          rw [hk2, ipc_inMapping, ipc_putServer_putServer]
          simp only [Ipc.setServer, Function.update_idem]
        refine post_mono (handOver_post (s.pid, serverTid) _ k2) ?_ (fun _ _ h => h.elim) ?_
        · exact fun _ k' h => ⟨_, hrec, quiet_of_readied (Function.update_self ..) hi
            (Server.hands_of_mask hand hadds.receivers) hadds.receivers.1 h⟩
        · refine fun msg h => ⟨_, .inl rfl, blame_parked hs hwas (fun hl => ?_) (by rw [hk2]; rfl) h⟩
          rw [hi]
          exact hl
      · -- the slot could not be had: the receiver goes back on the mask
        intro e k2 hk2
        obtain ⟨s₀, htouch, hs2, hi2⟩ : ∃ s₀, Touch s s₀ ∧
            k2.servers sidx = some { s₀ with readyThreads := s1.readyThreads } ∧
            ∀ s', (k2.putServer sidx (some s')).ipc = k.ipc.setServer sidx (some s') := by
          rcases hk2 with ⟨rfl, -⟩ | ⟨s2, hq, rfl⟩
          · exact ⟨s, Server.touch_refl s, by rw [hs1', ← hs1], fun _ => ipc_putServer_putServer ..⟩
          · rw [hs1, Server.queueResponse_mask, Outcome.mapState_eq_err] at hq
            obtain ⟨s₀, hq, rfl⟩ := hq
            have htouch := post_err (Server.queueResponse_post k.currentPid tid hm addr s) hq
            refine ⟨s₀, htouch, Function.update_self .., fun s' => ?_⟩
            rw [ipc_putServer, ipc_inMapping, ipc_putServer_putServer]
            simp only [Ipc.setServer, Function.update_idem]
        simp only [post_bind, post_withServer hlt hs2, Server.returnAvailableThread,
          post_get, Exec.post_assert, Exec.post_set, Exec.post_throw]
        refine ⟨fun _ => ?_, fun _ => ⟨_, .inl rfl, .of_unfollowed (by decide) _⟩⟩
        rw [hi2, Server.mask_restore htid64 hwas hmask, ← htouch.receivers.2]
        exact .single rfl (.touch hs htouch)
      · intro msg h
        refine ⟨_, .inl rfl, TableBlame.blame ⟨h.1, fun hm hb => h.2 hm ?_⟩⟩
        exact hb.rewrite hs hpid hand.bounds
  next htake =>
    have hb := Server.takeAvailableThread_eq_none.mp htake
    refine Exec.post_seq (queueServerMessage_post k.currentPid tid m addr hlt hs) ?_ ?_ ?_
    · rintro i k1 ⟨s', hq, hk1⟩
      have hspec := post_ok (Server.queueMessage_post k.currentPid tid m addr hb) hq
      have hrec := Recorded.of_queue hs htid hspec.1 hspec.2
      have hi : k1.ipc = k.ipc.setServer sidx (some s') := by rw [hk1]; rfl
      rw [← hi] at hrec
      rw [Exec.post_unwrap]
      refine post_mono (notify_quiet s.pid eventServerMsg k1) ?_ ?_ ?_
      · exact fun _ k' h => ⟨_, hrec, h⟩
      · exact fun _ _ _ => ⟨_, .inl rfl, .of_unfollowed (by decide) _⟩
      · rintro msg ⟨hin, hout⟩
        by_cases hle : s.pid.get ≤ maxProcessCount
        · exact ⟨_, .inr hrec, hin hle⟩
        · rw [hout hle]
          exact ⟨_, .inl rfl, (TableBlame.owner hs hle).blame⟩
    · rintro e k1 (⟨rfl, -⟩ | ⟨s', hq, hk1⟩)
      · exact .refl _
      · have hspec := post_err (Server.queueMessage_post k.currentPid tid m addr hb) hq
        rw [hk1]
        exact .single rfl (.touch hs hspec)
    · exact fun msg h => ⟨_, .inl rfl, h.blame⟩

theorem Recorded.quiet {m : Message} {i j : Ipc} (h : Recorded sidx m i j)
    (hm : m.isBlocking = false) : Ipc.Does Quiet i j := by
  rcases h with ⟨hb, -⟩ | ⟨-, h⟩
  · rw [hm] at hb
    cases hb
  · exact h

theorem deliverMessage_quiet {m : Message} (hm : m.isBlocking = false) (tid : TID)
    (addr : Option MemoryAddress) (hlt : sidx < maxServerCount) :
    Does Quiet (deliverMessage tid sidx m addr) := by
  intro k
  refine post_mono (deliverMessage_post tid m addr hlt k (by simp [hm])) ?_ (fun _ _ h => h) ?_
  · rintro _ k' ⟨i2, hrec, hq⟩
    exact (hrec.quiet hm).trans hq
  · rintro msg ⟨k2, rfl | hrec, hb⟩
    · exact ⟨k2, .refl _, hb⟩
    · exact ⟨k2, hrec.quiet hm, hb⟩

theorem post_checkQueueRoom {Q : Server → Kernel → Prop} (hlt : sidx < maxServerCount)
    (hok : ∀ s, k.servers sidx = some s → s.isQueueFull = false → Q s k)
    (herr : ∀ s, k.servers sidx = some s → s.isQueueFull = true → E .serverQueueFull k)
    (hpanic : k.servers sidx = none → F "server couldn't be located") :
    post (checkQueueRoom sidx) Q E F k := by
  unfold checkQueueRoom
  simp only [post_bind, post_serverFromSidx hlt, post_expect]
  refine ⟨fun s hs => ?_, hpanic⟩
  cases hfull : s.isQueueFull with
  | true => exact herr s hs hfull
  | false => exact hok s hs hfull

/-! ## 4. Events -/

theorem sendScalarInner_quiet (tid : TID) (m : ScalarMessage) (hlt : sidx < maxServerCount) :
    Does Quiet (sendScalarInner tid sidx m) := by
  intro k
  unfold sendScalarInner
  rw [post_bind]
  exact post_checkQueueRoom hlt (fun _ _ _ => deliverMessage_quiet rfl tid none hlt k)
    (fun _ _ _ => .refl _) fun _ => ⟨k, .refl _, .of_unfollowed (by decide) _⟩

theorem sidxFromSid_some {sid : SID} {pid : PID} (h : k.sidxFromSid sid pid = some sidx) :
    sidx < maxServerCount ∧ ∃ s, k.servers sidx = some s ∧ s.sid = sid ∧ s.pid = pid := by
  unfold sidxFromSid at h
  have hmem := List.mem_of_find?_eq_some h
  have hp := List.find?_some h
  rw [Option.any_eq_true] at hp
  obtain ⟨s, hs, hsid⟩ := hp
  exact ⟨List.mem_range.mp hmem, s, hs, by simpa using hsid⟩

theorem sendEvent_quiet {dstPid : PID} (hle : dstPid.get ≤ maxProcessCount) (event : SystemEvent)
    (arg : Nat) : Does Quiet (sendEvent dstPid event arg) := by
  intro k
  unfold sendEvent
  rw [post_bind]
  refine post_process (fun p hp _ => ?_) (fun _ => .refl _) fun h => absurd hle h
  split
  · exact .refl _
  · simp only [post_bind, post_get]
    split
    · exact .refl _
    next hsidx =>
      exact sendScalarInner_quiet _ _ (sidxFromSid_some hsidx).1 k

theorem broadcastEvent_quiet (event : SystemEvent) (arg : Nat) : Does Quiet (broadcastEvent event arg) := by
  unfold broadcastEvent
  refine Exec.Follows.each fun pid hpid => Exec.Follows.bind .get fun k => ?_
  exact .ite (fun _ => sendEvent_quiet (get_le_of_mem_all hpid) event arg) fun _ => .pure ()

theorem deliverCharToSid_quiet (sid : SID) (c : UInt8) : Does Quiet (deliverCharToSid sid c) := by
  intro k
  unfold deliverCharToSid
  simp only [post_bind, post_get]
  split
  · exact .refl _
  next sidx hfind =>
    have hlt : sidx < maxServerCount := List.mem_range.mp (List.mem_of_find?_eq_some hfind)
    simp only [post_bind, post_serverFromSidx hlt, post_expect]
    refine ⟨fun s hs => ?_, fun _ => ⟨k, .refl _, .of_unfollowed (by decide) _⟩⟩
    split
    next serverTid s1 htake =>
      have hand := Server.takeAvailableThread_hands htake
      simp only [post_bind, post_setServer]
      cases hp : k.processes s.pid with
      | none =>
        simp only [Option.isSome_none, Bool.false_eq_true, if_false, Exec.post_ignore]
        refine post_mono (setThreadResult_post (s.pid, serverTid) _ (k.putServer sidx (some s1))) ?_ ?_ ?_
        · rintro _ k' ⟨hk', -⟩
          unfold Moves.via
          rw [hk']
          refine .single rfl (.lose hs hand (ipc_parent hp) fun u hu => ?_)
          split
          · exact Function.update_of_ne hu ..
          · rfl
        · rintro _ k' ⟨rfl, -⟩
          exact .single rfl (.lose hs hand (ipc_parent hp) fun _ _ => rfl)
        · rintro msg ⟨hmsg, h⟩
          refine ⟨k, .refl _, .of_disorder hmsg fun hm hb _ => h hm ⟨?_, ?_⟩⟩
          · exact hb.pids _ (hb.owners sidx s hs)
          · exact hb.pids _ hb.running
      | some p =>
        simp only [Option.isSome_some, if_true, post_bind]
        refine post_mono (readyTaken_post (s.pid, serverTid)
          (.messageEnvelope ⟨⟨0⟩, .scalar ⟨0, c.toNat, 0, 0, 0⟩⟩) (k.putServer sidx (some s1)))
          ?_ ?_ ?_
        · intro _ k1 h
          rw [post_bind] at h
          refine post_mono h (fun _ k2 h => post_mono h (fun _ k' h => ?_)
            (fun _ _ h => h.elim) ?_) (fun _ _ h => h.elim) ?_
          · exact quiet_of_readied hs (ipc_putServer ..) hand rfl h
          all_goals
            exact fun msg h => ⟨k, .refl _, blame_parked hs hand.was id rfl h⟩
        · rintro _ _ ⟨-, hnone⟩
          exact absurd (hp.symm.trans hnone) (by simp)
        · exact fun msg h => ⟨k, .refl _, blame_parked hs hand.was id rfl h⟩
    next htake =>
      have hb := Server.takeAvailableThread_eq_none.mp htake
      -- queued or not, the server's process is told
      have hnotify : ∀ k1 : Kernel, Ipc.Does Quiet k.ipc k1.ipc →
          post (if (k.processes s.pid).isSome then notify s.pid eventServerMsg else pure ())
            (fun _ k' => Moves.via Kernel.ipc Move Quiet k k')
            (fun _ k' => Moves.via Kernel.ipc Move Quiet k k')
            (fun msg => ∃ k', Moves.via Kernel.ipc Move Quiet k k' ∧ Blame msg k'.ipc) k1 := by
        intro k1 hk1
        split
        · refine post_mono (notify_quiet s.pid eventServerMsg k1) (fun _ _ h => hk1.trans h) ?_ ?_
          · rintro _ _ rfl
            exact hk1
          · rintro msg ⟨hin, hout⟩
            by_cases hle : s.pid.get ≤ maxProcessCount
            · exact ⟨k1, hk1, hin hle⟩
            · rw [hout hle]
              exact ⟨k, .refl _, (TableBlame.owner hs hle).blame⟩
        · exact hk1
      rw [post_bind, Exec.post_ignore]
      refine post_mono (queueServerMessage_post PID.kernel 1 _ none hlt hs) ?_ ?_ ?_
      · rintro i k1 ⟨s', hq, rfl⟩
        have hspec := post_ok (Server.queueMessage_post PID.kernel 1 _ none hb) hq
        exact hnotify _ (.single rfl (.touch hs (hspec.2 rfl)))
      · rintro e k1 (⟨rfl, -⟩ | ⟨s', hq, rfl⟩)
        · exact hnotify _ (.refl _)
        · have hspec := post_err (Server.queueMessage_post PID.kernel 1 _ none hb) hq
          exact hnotify _ (.single rfl (.touch hs hspec))
      · exact fun msg h => ⟨k, .refl _, h.blame⟩

end Kernel

end BeetKernel

/-
# Messages, as moves

Receiving, sending and replying.  A blocking message is RECORDED in a slot of the server's queue,
whether it waits there or goes straight to a receiver, and only then does its sender wait for the
reply.  The reply takes the message out of its slot, before anything else is known about it: a
reply of the wrong kind, or one whose memory cannot be handed back, leaves a sender behind that
nobody will answer (`Stays.drop`).
-/
import BeetKernel.Ipc.Handlers

namespace BeetKernel.Kernel

open Ipc
open Exec (Follows post_and post_bind post_get post_mono post_of_wp post_okOr wp_bind wp_mono post post_seq)

variable {k k' k₀ : Kernel} {P : Kernel → Prop} {call : SysCall}
variable {sidx : Nat} {m : Message} {Q : Prop} {sender : SenderID} {w : WaitingMessage}

/-! ## 1. Receiving and sending -/

theorem stays_quiet (hk : QuietStep k₀ k) {N : Server → Prop} :
    Stays call N k₀.ipc k.ipc ∧ (AtHome k₀ → AtHome k) := ⟨.quiet hk.1, hk.2⟩

/-- Taking the next message out of a queue is quiet; with none there, nothing happens. -/
theorem takeNextMessage_quietly {s : Server} (hlt : sidx < maxServerCount) (hs : k.servers sidx = some s) :
    post (takeNextMessage sidx)
      (fun r k' => QuietStep k k' ∧ (r = none → k' = k ∧ (s.Sound → s.tailGeneration = s.headGeneration)))
      (fun _ _ => False) (fun msg => Untidy P msg k) k := by
  refine post_mono (takeNextMessage_post hlt hs) ?_ (fun _ _ h => h) ?_
  · rintro r k' ⟨s', hrun, rfl⟩
    obtain ⟨htouch, hnone⟩ := Exec.post_ok (Server.takeNextMessage_post sidx s) hrun
    refine ⟨⟨.single rfl (.touch hs htouch), id⟩, fun hr => ?_⟩
    obtain ⟨rfl, hsound⟩ := hnone hr
    exact ⟨putServer_self hs, hsound⟩
  · exact fun msg h => ⟨h.1, fun hm hb _ _ => h.2 hm hb⟩

/-- The receiver parks itself: the bit on the mask, and the future. -/
theorem park_handled {s : Server} (hb : Basic k.ipc) (hlt : sidx < maxServerCount)
    (hs : k.servers sidx = some s) (hpid : s.pid = k.currentPid)
    (hempty : s.Sound → s.tailGeneration = s.headGeneration) :
    HandledFrom k call (do
      withServer sidx (Server.parkThread k.currentTid)
      suspendWithFuture k.currentTid (.receiveMessage sidx) eventServerMsg
      pure .activateCurrent) k := by
  have htid : k.currentTid < 64 := Nat.lt_trans hb.current.2.2 (by decide)
  rw [HandledFrom, post_bind, post_withServer hlt hs]
  simp only [Server.parkThread, post_bind, post_get, Exec.post_assert, Exec.post_set]
  refine ⟨fun _ => ?_, fun hbit => ⟨fun _ => ?_, fun hm => ?_⟩⟩
  · have hparks : Parks k.currentTid s { s with readyThreads := s.readyThreads ||| BitVec.twoPow 64 k.currentTid } :=
      ⟨rfl, Server.getLsbD_park htid, rfl, fun hs => hs.mask fun _ => hempty hs, id⟩
    refine post_mono (post_and (suspendWithFuture_post _ _ (k.putServer sidx _))
      (post_of_wp (settled_code.suspendWithFuture _ _ _ _))) ?_
      (fun _ _ h => h.1.elim) ?_
    · rintro _ k1 ⟨hset, hsettled⟩
      exact ⟨.wait (by simp) (.refl _) (.receive hs hpid hparks hset), hsettled.atHome⟩
    · rintro msg ⟨⟨hmsg, hbl⟩, -⟩
      refine ⟨fun heq => absurd heq hmsg, fun hm hp _ => absurd ?_ (hbl hm)⟩
      refine ⟨?_, ?_⟩
      · exact hb.rewrite hs hparks.pid hparks.bounds
      · exact hp.parks hs hparks (hpid ▸ hb.current)
  · rw [Bool.not_eq_false'] at hbit
    exact ⟨sidx, s, hs, hpid, hbit⟩
  · exact absurd hm (by decide)

theorem receiveMessage_handled (hb : Basic k.ipc) (sid : SID) (blocking : Bool)
    (hcall : InRange k call) : Handled call (receiveMessage k.currentTid sid blocking) k := by
  have hk := refl_of QuietStep k
  simp only [receiveMessage]
  refine handledFrom_get ?_
  rw [HandledFrom, post_bind, post_okOr]
  refine ⟨fun sidx hsidx => ?_, fun _ => stays_quiet hk⟩
  obtain ⟨hlt, s, hs, -, hpid⟩ := sidxFromSid_some hsidx
  rw [post_bind, post_serverFromSidx hlt, post_bind, post_okOr]
  refine ⟨fun s' hs' => ?_, fun _ => stays_quiet hk⟩
  obtain rfl : s = s' := Option.some.inj (hs.symm.trans hs')
  rw [if_neg (not_not.mpr hpid), post_bind]
  refine post_mono (takeNextMessage_quietly (P := AtHome) hlt hs) ?_ (fun _ _ h => h.elim)
    fun msg h => .of_home (fun _ => Harmless.of_quiet) hb hk h
  rintro r k1 ⟨h1, hnone⟩
  cases r with
  | some msg =>
    refine handledFrom_get ?_
    split
    · refine handledFrom_quiet hb h1 ((wakeThreadsWithState_quiet (by simp) (by simp)).quietly
        (settled_code.wakeThreadsWithState _)) fun _ k2 h2 => ?_
      exact stays_quiet h2
    · exact stays_quiet h1
  | none =>
    obtain ⟨rfl, hempty⟩ := hnone rfl
    dsimp only
    split
    · exact stays_quiet hk
    · exact park_handled hb hlt hs hpid hempty

theorem Recorded.tidy {i j : Ipc} (h : Recorded sidx m i j) (hb : Basic i) (hp : Proper i) : Basic j ∧ Proper j := by
  rcases h with ⟨-, slot, hm⟩ | ⟨-, hq⟩
  · exact ⟨hb.move hm (by simp), hp.move hm trivial hb⟩
  · exact ⟨quiet_basic hq hb, quiet_proper hq hb hp⟩

/-- What sending a message does, before its sender waits or goes on. -/
def Sent (sidx : Nat) (m : Message) (k k' : Kernel) : Prop :=
  (∃ i1 i2, Ipc.Does Quiet k.ipc i1 ∧ Recorded sidx m i1 i2 ∧ Ipc.Does Quiet i2 k'.ipc) ∧ (AtHome k → AtHome k')

theorem deliverMessage_sent {m' : Message} {addr : Option MemoryAddress}
    (hb : Basic k₀.ipc) (hk : QuietStep k₀ k) (hlt : sidx < maxServerCount)
    (hm : m'.isBlocking = m.isBlocking) :
    post (deliverMessage k₀.currentTid sidx m' addr) (fun _ k' => Sent sidx m k₀ k')
      (fun _ k' => QuietStep k₀ k') (CallBlame Q k₀) k := by
  have hcur : k.ipc.current = k₀.ipc.current := (quiet_frame hk.1).current
  have htid : k₀.currentTid = k.currentTid := (congrArg Prod.snd hcur).symm
  have hbk := quiet_basic hk.1 hb
  have hlt' : k.currentTid < 256 := Nat.lt_trans hbk.current.2.2 (by decide)
  refine post_mono (post_and (deliverMessage_post k₀.currentTid m' addr hlt k
    fun _ => ⟨htid, hlt'⟩) (post_of_wp (deliverMessage_settled _ _ _ _ k))) ?_ ?_ ?_
  · rintro _ k' ⟨⟨i2, hrec, hq⟩, hset⟩
    unfold Recorded at hrec
    rw [hm] at hrec
    exact ⟨⟨_, i2, hk.1, hrec, hq⟩, fun hh => hset.atHome (hk.2 hh)⟩
  · exact fun _ k' h => trans_of QuietStep hk ⟨h.1, h.2.atHome⟩
  · rintro msg ⟨⟨k2, hk2, hmsg, hbl⟩, -⟩
    refine ⟨fun heq => absurd heq hmsg, fun htab hp _ => absurd ?_ (hbl htab)⟩
    have hpk := quiet_proper hk.1 hb hp
    rcases hk2 with rfl | hrec
    · exact ⟨hbk, hpk⟩
    · exact hrec.tidy hbk hpk

theorem carry_sent {move : KExec Nat} {make : NonZeroUsize → Message} {addr : Option MemoryAddress} (hb : Basic k.ipc)
    (hlt : sidx < maxServerCount) (hmove : Quietly AtHome move)
    (hm : ∀ a, (make a).isBlocking = m.isBlocking) :
    post (do
        let newVirt ← move
        let a ← Exec.okOr .badAddress (NonZeroUsize.new newVirt)
        deliverMessage k.currentTid sidx (make a) addr)
      (fun _ k' => Sent sidx m k k') (fun _ k' => QuietStep k k') (CallBlame Q k) k := by
  refine post_seq (hmove k) (fun newVirt k1 h1 => ?_) (fun _ _ h => h) ?_
  · rw [post_bind, post_okOr]
    exact ⟨fun a _ => deliverMessage_sent hb h1 hlt (hm a), fun _ => h1⟩
  · rintro msg ⟨k', hk', hun⟩
    exact .of_home (fun _ => Harmless.of_quiet) hb hk' hun

theorem sendMessageInner_sent (hb : Basic k.ipc) (hlt : sidx < maxServerCount) (m : Message) :
    post (sendMessageInner k.currentTid sidx m) (fun _ k' => Sent sidx m k k')
      (fun _ k' => QuietStep k k') (CallBlame Q k) k := by
  have hk := refl_of QuietStep k
  unfold sendMessageInner
  rw [post_bind]
  refine post_checkQueueRoom hlt (fun s hs _ => ?_) (fun _ _ _ => hk) fun _ => .of_unfollowed (by decide)
  -- the server's process is in the table
  have hroom : ∀ k', AtHome k' → HasRoom s.pid k' := fun _ _ => hb.pids _ (hb.owners sidx s hs)
  cases m with
  | scalar msg => exact deliverMessage_sent hb hk hlt rfl
  | blockingScalar msg => exact deliverMessage_sent hb hk hlt rfl
  | move msg =>
    exact carry_sent (m := .move msg) hb hlt (Acts.mono (sendMemory_quietly _ _ _) hroom) fun _ => rfl
  | mutableBorrow msg =>
    exact carry_sent (m := .mutableBorrow msg) hb hlt (Acts.mono (lendMemory_quietly _ _ _ _) hroom) fun _ => rfl
  | borrow msg =>
    exact carry_sent (m := .borrow msg) hb hlt (Acts.mono (lendMemory_quietly _ _ _ _) hroom) fun _ => rfl

theorem Sent.tidy (h : Sent sidx m k k') (hb : Basic k.ipc) (hp : Proper k.ipc) : Basic k'.ipc ∧ Proper k'.ipc := by
  obtain ⟨⟨i1, i2, h1, hrec, h2⟩, -⟩ := h
  obtain ⟨hb2, hp2⟩ := hrec.tidy (quiet_basic h1 hb) (quiet_proper h1 hb hp)
  exact ⟨quiet_basic h2 hb2, quiet_proper h2 hb2 hp2⟩

theorem Sent.current (h : Sent sidx m k k') : k'.ipc.current = k.ipc.current := by
  obtain ⟨⟨i1, i2, h1, hrec, h2⟩, -⟩ := h
  refine (quiet_frame h2).current.trans (Eq.trans ?_ (quiet_frame h1).current)
  rcases hrec with ⟨-, slot, hm⟩ | ⟨-, hq⟩
  · cases hm
    rfl
  · exact (quiet_frame hq).current

/-- The sender of a blocking message waits for the reply, any other goes on. -/
theorem sent_handled (hb : Basic k₀.ipc) (h : Sent sidx m k₀ k) : post (do
        if m.isBlocking then suspendWithFuture k₀.currentTid .waitBlocking eventKernel
        else setThreadResult (k₀.currentPid, k₀.currentTid) .ok
        pure Response.activateCurrent)
      (fun r k' => (r = .activateCurrent ∧ Yields call k₀.ipc k'.ipc) ∧ (AtHome k₀ → AtHome k'))
      (fun _ _ => False) (CallBlame Q k₀) k := by
  have hcur := h.current
  have htid : k₀.currentTid = k.currentTid := (congrArg Prod.snd hcur).symm
  have htidy := h.tidy hb
  obtain ⟨⟨i1, i2, h1, hrec, h2⟩, hhome⟩ := h
  split
  next hblock =>
    rcases hrec with ⟨-, slot, hm⟩ | ⟨hno, -⟩
    swap
    · rw [hblock] at hno
      cases hno
    rw [post_bind, htid]
    refine post_mono (post_and (suspendWithFuture_post _ _ k) (post_of_wp
      (settled_code.suspendWithFuture _ _ _ k))) ?_ (fun _ _ h => h.1.elim) ?_
    · rintro _ k2 ⟨hs, hset⟩
      exact ⟨⟨rfl, .block h1 hm h2 (.wait (by simp) hs)⟩, fun hh => hset.atHome (hhome hh)⟩
    · rintro msg ⟨⟨hmsg, hbl⟩, -⟩
      exact ⟨fun heq => absurd heq hmsg, fun hm hp _ => absurd (htidy hp) (hbl hm)⟩
  next hblock =>
    rcases hrec with ⟨hyes, -⟩ | ⟨-, hq⟩
    · exact absurd hyes hblock
    have hk : QuietStep k₀ k := ⟨(h1.trans hq).trans h2, hhome⟩
    obtain ⟨k', hrun, hown⟩ := setOwnResult_own hcur .ok
    have hall := trans_of (StepBy _) (.of_quiet hk) hown
    rw [post_bind]
    exact Exec.post_of_ok hrun ⟨⟨rfl, .own hall.1⟩, hall.2⟩

theorem sendMessage_post (call : SysCall) (hb : Basic k.ipc) (cid : CID) (m : Message) :
    post (sendMessage k.currentTid cid m)
      (fun r k' => (r = .activateCurrent ∧ Yields call k.ipc k'.ipc) ∧ (AtHome k → AtHome k'))
      (fun _ k' => QuietStep k k') (CallBlame Q k) k := by
  have hk := refl_of QuietStep k
  unfold sendMessage
  rw [post_bind, post_get, post_bind]
  refine post_currentProcess (fun p hp => ?_) fun msg h hmsg => ?_
  swap
  · exact .of_home (fun _ => Harmless.of_quiet) hb hk ⟨hmsg, fun hm _ _ _ => h hm (hb.pids _ hb.running)⟩
  rw [post_bind, Exec.post_ofExcept]
  refine ⟨fun slot hslot => ?_, fun _ _ => hk⟩
  have hmap := connection_eq_ok hslot
  rw [← ipc_connections hp] at hmap
  cases slot with
  | free | tombstone _ => exact hk
  | connected sidx r perms =>
    have hlt : sidx < maxServerCount := hb.wired _ _ _ _ _ hmap
    dsimp only
    rw [post_bind, post_serverFromSidx hlt, post_bind, Exec.post_expect]
    refine ⟨fun s _ => ?_, fun _ => .of_unfollowed (by decide)⟩
    split
    · exact hk
    · refine post_seq (sendMessageInner_sent hb hlt m) (fun _ k1 h1 => ?_) (fun _ _ h => h) fun _ h => h
      exact post_mono (sent_handled hb h1) (fun _ _ h => h) (fun _ _ h => h.elim) fun _ h => h

theorem retrySyscall_handled {st : ThreadState} (hb : Basic k₀.ipc) (hk : QuietStep k₀ k)
    (hr : st ≠ .ready) (hf : st ≠ .free) :
    HandledFrom k₀ call (retrySyscall k₀.currentTid st) k := by
  have hcur : k.ipc.current = k₀.ipc.current := (quiet_frame hk.1).current
  have hthread : (k.currentPid, k₀.currentTid) = k.ipc.current := Prod.ext rfl (congrArg Prod.snd hcur).symm
  have hown := trans_of (StepBy (Own k.ipc.current)) (.of_quiet hk) (own_savedResult k .retryCall)
  refine handledFrom_get ?_
  rw [hthread, HandledFrom, post_bind, Exec.post_modify]
  rw [hcur] at hown ⊢
  exact handledFrom_sure hb hown currentProcess_quietly currentProcess_sure fun _ _ h =>
    handledFrom_pause hb h hr hf

/-- With a full queue the sender waits for room. -/
theorem sendMessage_handled (hb : Basic k.ipc) (cid : CID) (m : Message) :
    Handled (.sendMessage cid m) (dispatch k.currentTid (.sendMessage cid m)) k := by
  simp only [dispatch, sendMessageOrRetry]
  rw [Handled, post_bind, Exec.post_attempt]
  refine post_mono (sendMessage_post (.sendMessage cid m) hb cid m) ?_ (fun e k1 h1 => ?_) fun _ h => h
  · rintro r k' ⟨⟨rfl, hy⟩, hh⟩
    exact ⟨hy, hh⟩
  · split
    next heq =>
      cases heq
    · refine handledFrom_process hb h1 fun p hp => ?_
      refine handledFrom_quiet hb h1 (Follows.ofExcept _) fun slot k2 h2 => ?_
      split
      · exact retrySyscall_handled hb h2 (by simp) (by simp)
      · exact handledFrom_throw h2 _
    · exact handledFrom_throw h1 _

/-! ## 2. Replies -/

theorem OnlyTables.ipc (h : OnlyTables k k') : k'.ipc = k.ipc := by
  rw [h]
  rfl

theorem OnlyTables.atHome (h : OnlyTables k k') (hk : AtHome k) : AtHome k' := by
  rw [h]
  exact hk

/-- Waking threads only looks at processes that exist. -/
theorem wakeThreadsWithState_sure (st : ThreadState) : Exec.Sure (wakeThreadsWithState st) := by
  refine .each fun pid _ k => ?_
  rw [wp_bind, Exec.wp_get]
  split
  next hsome =>
    refine wp_mono (Exec.wp_each (I := fun k => k.processes pid ≠ none) (fun tid _ k hk => ?_)
      (Option.isSome_iff_ne_none.mp hsome)) (fun _ _ _ => trivial) fun _ _ h => h
    rw [wp_bind]
    refine Exec.wp_of_post (F := fun _ => True) (post_process (fun p hp _ => ?_) (fun hp => hk hp) fun _ => trivial)
    split
    · refine post_of_wp (wp_mono (Exec.wp_of_post (setThreadState_post (pid, tid) .ready k)) ?_ fun _ _ h => hk h.2)
      rintro _ k' ⟨hs, -⟩ hnone
      have hparent := ipc_parent hnone
      rw [hs.parent] at hparent
      exact ipc_parent_ne_none hp hparent
    · exact hk
  · trivial

/-- What `takeWaiting` has done when it returns `w`. -/
structure Taken (sender : SenderID) (w : WaitingMessage) (k k' : Kernel) : Prop where
  caller : ∀ t, w.caller = some t → ∃ s s', k.servers sender.sidx = some s ∧
    s.pid = k.currentPid ∧ Removes sender.idx t s s' ∧
    Wakes (k.ipc.setServer sender.sidx (some s')) k'.ipc
  quiet : w.caller = none → QuietStep k k'
  home : AtHome k → AtHome k'

theorem takeWaiting_post (hb : Basic k.ipc) (sender : SenderID) (buf : Option MemoryRange) :
    post (takeWaiting sender buf) (fun w k' => Taken sender w k k') (fun _ k' => k' = k)
      (CallBlame (sender.sidx ≠ maxServerCount) k) k := by
  unfold takeWaiting
  rw [post_bind, post_get]
  unfold serverFromSidx
  by_cases hgt : sender.sidx > maxServerCount
  · rw [if_pos hgt]
    exact rfl
  rw [if_neg hgt]
  simp only [post_bind, Exec.post_assert, post_get, Exec.post_pure, post_okOr,
    decide_eq_true_eq, decide_eq_false_iff_not]
  refine ⟨fun hlt => ⟨fun s hs => ?_, fun _ => trivial⟩, fun hlt => .outOfBounds fun hne => ?_⟩
  swap
  · exact hlt (Nat.lt_of_le_of_ne (Nat.le_of_not_gt hgt) hne)
  split
  · exact rfl
  next hpid =>
    rw [not_not] at hpid
    rw [post_bind]
    refine post_withQueue hlt hs (fun _ => ?_) (.of_unfollowed (by decide))
    refine post_mono (Server.takeWaitingMessage_post sender.idx buf s) ?_ ?_ ?_
    · rintro w s' ⟨-, hremoves, htouch⟩
      have hquiet : w.caller = none → QuietStep k (k.putServer sender.sidx (some s')) := fun hc =>
        ⟨.single rfl (.touch hs (htouch hc)), id⟩
      have hbasic : Basic (k.ipc.setServer sender.sidx (some s')) := by
        cases hc : w.caller with
        | none => exact hb.rewrite hs (htouch hc).receivers.1 (htouch hc).bounds
        | some t => exact hb.rewrite hs (hremoves t hc).receivers.1 (hremoves t hc).bounds
      simp only [post_bind, post_get]
      split
      · refine post_seq (post_and (wakeThreadsWithState_wakes (by simp) (by simp) _)
          (post_and (post_of_wp (wakeThreadsWithState_sure _ _)) (post_of_wp
            (settled_code.wakeThreadsWithState _ _)))) ?_ ?_ ?_
        · rintro _ k' ⟨hw, -, hset⟩
          refine ⟨fun t ht => ⟨s, s', hs, hpid, hremoves t ht, hw⟩, fun hc => ?_, hset.atHome⟩
          exact trans_of QuietStep (hquiet hc) ⟨quiet_of_wakes hw, hset.atHome⟩
        · exact fun _ _ h => h.2.1.elim
        · rintro msg ⟨⟨k', hw, hmsg, hbl⟩, -⟩
          exact ⟨fun heq => absurd heq hmsg, fun hm _ _ => absurd (hbasic.wakes hw) (hbl hm)⟩
      · exact ⟨fun t ht => ⟨s, s', hs, hpid, hremoves t ht, .refl⟩, hquiet, id⟩
    · rintro e s' rfl
      exact putServer_self hs
    · intro msg h
      have hblame := TableBlame.overrun hs h
      exact ⟨fun heq => absurd heq hblame.1, fun hm _ _ => absurd hb (hblame.2 hm)⟩

theorem Taken.stays (h : Taken sender w k k')
    {N : Server → Prop} : Stays call N k.ipc k'.ipc := by
  cases hc : w.caller with
  | none => exact .quiet (h.quiet hc).1
  | some t =>
    obtain ⟨s, s', hs, hpid, hr, hw⟩ := h.caller t hc
    exact .drop (.drop hs hpid hr) (quiet_of_wakes hw)

theorem reply_current {i j : Ipc} {slot : Nat} {t : ThreadId} {r : Result}
    (h : Move (.reply sidx slot t r) i j) : j.current = i.current := by
  cases h with
  | reply hs hpid hr hw ha =>
    obtain ⟨-, -, -, -, -, -, hwpid, hwtid, -⟩ := Wakes.frame hw
    have hpid' : j.pid = i.pid ∧ j.tid = i.tid := by
      cases ha with
      | posted _ h => exact ⟨h.pid.trans hwpid, h.tid.trans hwtid⟩
      | direct _ h =>
        obtain ⟨_, -, hs⟩ := h
        exact ⟨hs.pid.trans hwpid, hs.tid.trans hwtid⟩
      | gone _ h => rcases h with rfl | rfl <;> exact ⟨hwpid, hwtid⟩
    rw [Ipc.current, Ipc.current, hpid'.1, hpid'.2]

theorem reply_handled {t : ThreadId} {r : Result}
    {k1 k2 : Kernel} (hb : Basic k.ipc) (h : Taken sender w k k1) (hc : w.caller = some t)
    (h2 : OnlyTables k1 k2) (hcall : call.Replies sender.sidx sender.idx r) :
    post (do
        wakeThreadWithResult t r
        setThreadResult (k.currentPid, k.currentTid) .ok
        pure Response.activateCurrent)
      (fun r k' => Responds (Clean k) call r k.ipc k'.ipc ∧ (AtHome k → AtHome k'))
      (fun _ _ => False) (CallBlame Q k) k2 := by
  obtain ⟨s, s', hs, hpid, hr, hw⟩ := h.caller t hc
  rw [← h2.ipc] at hw
  have hbasic : Basic k2.ipc := (hb.rewrite hs hr.receivers.1 hr.bounds).wakes hw
  refine post_seq (post_and (wakeThreadWithResult_post t r k2)
    (post_of_wp (wakeThreadWithResult_settled t r k2))) ?_ (fun _ _ h => h.1.elim) ?_
  · rintro _ k3 ⟨ha, hset⟩
    have hm : Move (.reply sender.sidx sender.idx t r) k.ipc k3.ipc := .reply hs hpid hr hw ha
    have hcur : k3.ipc.current = k.ipc.current := reply_current hm
    obtain ⟨k4, hrun, hown⟩ := setOwnResult_own hcur .ok
    rw [post_bind]
    refine Exec.post_of_ok hrun ⟨.reply hcall hm hown.1, fun hh => ?_⟩
    exact hown.2 (hset.atHome (h2.atHome (h.home hh)))
  · rintro msg ⟨⟨hmsg, hbl⟩, -⟩
    refine ⟨fun heq => absurd heq hmsg, fun hm hp _ => absurd ?_ (hbl hm hbasic.linked ?_)⟩
    · exact hp.of_named hs hr.named
    · exact hbasic.pids _ hbasic.running

theorem Taken.tidy (h : Taken sender w k k') (hb : Basic k.ipc) (hp : Proper k.ipc) : Basic k'.ipc ∧ Proper k'.ipc := by
  cases hc : w.caller with
  | none =>
    have hq := (h.quiet hc).1
    exact ⟨quiet_basic hq hb, quiet_proper hq hb hp⟩
  | some t =>
    obtain ⟨s, s', hs, -, hr, hw⟩ := h.caller t hc
    exact ⟨(hb.rewrite hs hr.receivers.1 hr.bounds).wakes hw, (hp.removes hs hr).wakes hw⟩

theorem returnMemoryCall_handled (hb : Basic k.ipc) (sender : MessageSender) (buf : MemoryRange)
    (offset valid : Option MemorySize) :
    Handled (.returnMemory sender buf offset valid)
      (dispatch k.currentTid (.returnMemory sender buf offset valid)) k := by
  simp only [dispatch, returnMemoryCall]
  refine handledFrom_get ?_
  rw [HandledFrom, post_bind]
  refine post_mono (takeWaiting_post hb _ _) ?_ ?_ fun _ h => h
  · intro w k1 h
    cases w with
    | borrowedMemory pid tid clientAddr =>
      obtain ⟨s, s', hs, -, hr, -⟩ := h.caller (pid, tid) rfl
      refine post_seq (post_and (returnMemory_quietly _ pid _ _ k1)
        (post_of_wp (returnMemory_onlyTables _ pid _ _ k1))) ?_ ?_ ?_
      · rintro _ k2 ⟨-, h2⟩
        exact post_mono (reply_handled hb h rfl h2 (.memory sender buf offset valid))
          (fun _ _ h => h) (fun _ _ h => h.elim) fun _ h => h
      · rintro _ k2 ⟨-, h2⟩
        exact ⟨h2.ipc ▸ h.stays, fun hh => h2.atHome (h.home hh)⟩
      · rintro msg ⟨⟨k', hk', hmsg, hun⟩, -⟩
        refine ⟨fun heq => absurd heq hmsg, fun hm hp _ => absurd (hp.of_named hs hr.named).1 ?_⟩
        obtain ⟨hb1, hp1⟩ := h.tidy hb hp
        exact hun hm (quiet_basic hk'.1 hb1) (quiet_proper hk'.1 hb1 hp1)
    | forgetMemory range =>
      refine handledFrom_quiet hb (h.quiet rfl) (unmapRange_quietly _ _) fun _ k2 h2 => ?_
      exact handledFrom_result h2 fun k3 h3 => handledFrom_own h3
    | scalarMessage pid tid => exact ⟨h.stays, h.home⟩
    | scalarMessageTerminated => exact ⟨h.stays, h.home⟩
    | none => exact ⟨h.stays, h.home⟩
  · rintro e k' rfl
    exact stays_quiet (refl_of QuietStep _)

theorem returnResult_handled (hb : Basic k.ipc) (sender : MessageSender) (r : Result)
    (hcall : call.Replies (SenderID.ofSender sender).sidx (SenderID.ofSender sender).idx r)
    (hin : InRange k call → (SenderID.ofSender sender).sidx ≠ maxServerCount) :
    Handled call (returnResult k.currentTid sender r) k := by
  unfold returnResult
  refine handledFrom_get ?_
  rw [HandledFrom, post_bind]
  refine post_mono (takeWaiting_post hb _ _) ?_ ?_ ?_
  · intro w k1 h
    cases w with
    | scalarMessage pid tid =>
      exact post_mono (reply_handled hb h rfl (refl_of OnlyTables k1) hcall)
        (fun _ _ h => h) (fun _ _ h => h.elim) fun _ h => h
    | scalarMessageTerminated =>
      exact handledFrom_result (h.quiet rfl) fun k3 h3 => handledFrom_own h3
    | borrowedMemory pid tid clientAddr => exact ⟨h.stays, h.home⟩
    | forgetMemory range => exact ⟨h.stays, h.home⟩
    | none => exact ⟨h.stays, h.home⟩
  · rintro e k' rfl
    exact stays_quiet (refl_of QuietStep _)
  · exact fun msg h => ⟨h.1, fun hm hp hh => ⟨(h.2 hm hp hh).1, fun hi => (h.2 hm hp hh).2 (hin hi)⟩⟩

end BeetKernel.Kernel

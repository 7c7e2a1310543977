/-
# What a refused reply leaves behind

A server answers a blocking message with `ReturnScalar*` or `ReturnMemory`.  Both begin with
`take_waiting_message`, which looks at the slot the token names and EMPTIES it unless the returned
buffer is the wrong one.  Only then is the kind of the message compared with the kind of the reply,
and only then are the lent pages taken back.  An error after that point reaches a server whose
message is no longer recorded anywhere, while the client stays blocked.

`Owed` is a message that waits for its reply, `StillOwed` what must not change when the reply is
refused, and `Fitting` when it does not.
-/
import BeetKernel.Ipc.Runs

namespace BeetKernel

open SenderID (ofSender)
open Exec (bind_run get_run post_and post_bind post_get post_mono post_of_wp pure_run post wp post_seq EndsIn)

/-! ## 1. The slot -/

namespace Server

variable {s : Server} {i : Nat} {q : QueuedMessage} {buf : Option MemoryRange}

/-- The server after `take_waiting_message` has taken slot `i`. -/
def emptied (s : Server) (i : Nat) : Server :=
  { s with queue := s.queue.set i .empty, emptyCount := s.emptyCount + 1, queueTail := s.nextIndex i }

theorem takeWaitingMessage_refuses {e : Error} (hq : s.queue[i]? = some q)
    (hw : waitingSlot buf q = .error e) : takeWaitingMessage i buf s = .err e s := by
  unfold takeWaitingMessage
  simp only [bind_run, get_run, hq, Exec.okOr_some, pure_run, hw]
  rfl

theorem takeWaitingMessage_takes {w : WaitingMessage} (hq : s.queue[i]? = some q)
    (hw : waitingSlot buf q = .ok w) (hne : w ≠ .none) :
    takeWaitingMessage i buf s = .ok w (s.emptied i) := by
  unfold takeWaitingMessage
  simp only [bind_run, get_run, hq, Exec.okOr_some, pure_run, hw]
  cases w with
  | none => exact absurd rfl hne
  | _ => rfl

end Server

/-- The token and the buffer of a reply. -/
def SysCall.replyTo : SysCall → Option (MessageSender × Option MemoryRange)
  | .returnMemory sender buf _ _ => some (sender, some buf)
  | .returnScalar1 sender _ | .returnScalar2 sender _ _ | .returnScalar5 sender _ _ _ _ _ =>
    some (sender, none)
  | _ => none

namespace Kernel

open Ipc

variable {k k' k₀ : Kernel} {es : List Event} {sender : SenderID} {q : QueuedMessage} {t : ThreadId}
  {s : Server} {buf : Option MemoryRange}

/-- The thread that waits for the reply to a received message. -/
def awaitedBy : QueuedMessage → Option ThreadId
  | .waitingReturnScalar pid tid | .waitingReturnMemory pid tid _ _ _ => some (pid, tid.toNat)
  | _ => none

/-- The running process has received the message in the slot that the token names and has not
answered it; the sender `t` waits. -/
structure Owed (k : Kernel) (sender : SenderID) (q : QueuedMessage) (t : ThreadId) : Prop where
  slot : ∃ s, k.servers sender.sidx = some s ∧ s.pid = k.currentPid ∧ s.queue[sender.idx]? = some q
  awaited : awaitedBy q = some t
  alive : k.processes t.1 ≠ none

/-- The slot, the client and every mapping are what they were. -/
structure StillOwed (sender : SenderID) (t : ThreadId) (k k' : Kernel) : Prop where
  slot : (k'.servers sender.sidx).bind (·.queue[sender.idx]?) = (k.servers sender.sidx).bind (·.queue[sender.idx]?)
  client : k'.threadState t = k.threadState t ∧ k'.kernelFuture t = k.kernelFuture t ∧
    k'.mailbox t = k.mailbox t ∧ k'.context t = k.context t
  pages : k'.pageTables = k.pageTables

theorem StillOwed.refl (sender : SenderID) (t : ThreadId) (k : Kernel) : StillOwed sender t k k :=
  ⟨rfl, ⟨rfl, rfl, rfl, rfl⟩, rfl⟩

/-! ## 2. Taking the reply out -/

theorem wakeThreadsWithState_endsIn (st : ThreadState) :
    EndsIn (fun _ => True) (· ∈ tableMessages) (wakeThreadsWithState st) := by
  refine .each fun pid _ => .bind .get fun k => .ite (.each fun tid _ => ?_) (.pure _)
  exact .bind (process_endsIn trivial (by decide) _) fun p =>
    .ite (setThreadState_endsIn trivial (fun _ h => h) _ _) (.pure _)

/-- With the tables in order, making threads ready always succeeds. -/
theorem wakeThreadsWithState_total {st : ThreadState} (hr : st ≠ .ready) (hf : st ≠ .free) (hb : Basic k.ipc) :
    post (wakeThreadsWithState st) (fun _ k' => OnlyThreads k k' ∧ Wakes k.ipc k'.ipc)
      (fun _ _ => False) (fun _ => False) k := by
  refine post_mono (post_and (wakeThreadsWithState_endsIn st k) (post_and
    (wakeThreadsWithState_wakes hr hf k) (post_and (post_of_wp (wakeThreadsWithState_sure st k))
      (post_of_wp (onlyThreads_code.wakeThreadsWithState st k))))) ?_ ?_ ?_
  · exact fun _ _ h => ⟨h.2.2.2, h.2.1⟩
  · exact fun _ _ h => h.2.2.1
  · rintro msg ⟨hmsg, ⟨k', hw, -, hbl⟩, -⟩
    exact hbl hmsg (hb.wakes hw)

/-- What has become of the machine when the reply has been taken out of its slot. -/
structure TakenOut (sender : SenderID) (k k' : Kernel) : Prop where
  slot : (k'.servers sender.sidx).bind (·.queue[sender.idx]?) = some .empty
  pages : k'.pageTables = k.pageTables
  pid : k'.currentPid = k.currentPid
  parent : k'.ipc.parent = k.ipc.parent

theorem emptied_basic (hb : Basic k.ipc) (hs : k.servers sender.sidx = some s) (hq : s.queue[sender.idx]? = some q) :
    Basic (k.ipc.setServer sender.sidx (some (s.emptied sender.idx))) := by
  refine hb.rewrite hs rfl fun hbounds => ⟨?_, ?_⟩
  · simpa [Server.emptied] using hbounds.1
  · have hi := (getElem?_eq_some_iff.mp hq).1
    simpa [Server.emptied] using Server.nextIndex_lt sender.idx (Nat.zero_lt_of_lt hi)

theorem post_withQueue_home {α : Type} {m : Exec Server Error α} {Q : α → Kernel → Prop}
    {E : Error → Kernel → Prop} {F : String → Prop} {sidx : Nat} (hlt : sidx < maxServerCount)
    (hs : k.servers sidx = some s) (hmap : k.activeMapping = s.pid) :
    post (withQueue sidx m) Q E F k ↔ post m (fun a s' => Q a (k.putServer sidx (some s')))
        (fun e s' => E e (k.putServer sidx (some s'))) F s := by
  unfold withQueue
  simp [post_serverFromSidx hlt, hs, post_withServer hlt hs, hmap]

theorem waitingSlot_awaited (h : awaitedBy q = some t) (buf : Option MemoryRange) :
    Server.waitingSlot buf q ≠ .ok .none := by
  cases q with
  | waitingReturnMemory =>
    simp only [Server.waitingSlot]
    split <;> simp
  | waitingReturnScalar => simp [Server.waitingSlot]
  | _ => cases h

/-- **The slot is emptied before the reply is looked at**, unless the buffer is the wrong one. -/
theorem takeWaiting_owed (hb : Basic k.ipc) (hhome : AtHome k) (ho : Owed k sender q t) (buf : Option MemoryRange) :
    post (takeWaiting sender buf) (fun w k' => Server.waitingSlot buf q = .ok w ∧ TakenOut sender k k')
      (fun e k' => Server.waitingSlot buf q = .error e ∧ k' = k) (fun _ => False) k := by
  obtain ⟨s, hs, hpid, hq⟩ := ho.slot
  have hlt : sender.sidx < maxServerCount := hb.table _ _ hs
  have htaken : TakenOut sender k (k.putServer sender.sidx (some (s.emptied sender.idx))) := by
    refine ⟨?_, rfl, rfl, rfl⟩
    have hi := (getElem?_eq_some_iff.mp hq).1
    simp [putServer, Server.emptied, hi]
  have hne := waitingSlot_awaited ho.awaited buf
  unfold takeWaiting
  rw [post_bind, post_get, post_bind, post_serverFromSidx hlt, hs, post_bind, Exec.post_okOr]
  refine ⟨fun s' hs' => ?_, fun h => nomatch h⟩
  obtain rfl := Option.some.inj hs'
  rw [if_neg (not_not.mpr hpid), post_bind, post_withQueue_home hlt hs (hhome.trans hpid.symm), post]
  cases hw : Server.waitingSlot buf q with
  | error e =>
    rw [Server.takeWaitingMessage_refuses hq hw]
    exact ⟨rfl, putServer_self hs⟩
  | ok w =>
    rw [Server.takeWaitingMessage_takes hq hw fun h => hne (hw.trans (congrArg _ h))]
    dsimp only
    rw [post_bind, post_get]
    split
    · refine post_seq (wakeThreadsWithState_total (by simp) (by simp)
        (emptied_basic hb hs hq)) ?_ (fun _ _ h => h.elim) fun _ h => h
      rintro _ k2 ⟨honly, hwakes⟩
      refine ⟨rfl, ?_, ?_, ?_, ?_⟩
      · rw [honly]
        exact htaken.slot
      · rw [honly]
        exact htaken.pages
      · rw [honly]
        exact htaken.pid
      · rw [(Wakes.frame hwakes).1]
        exact htaken.parent
    · exact ⟨rfl, htaken⟩

/-! ## 3. Taking the pages back -/

theorem unmapPte_post (a : PID) (va : Nat) (k : Kernel) : post (unmapPte a va)
      (fun _ k' => (k.pageTables a).HasTables va ∧
        ∀ va', (k'.pageTables a).HasTables va' ↔ (k.pageTables a).HasTables va')
      (fun _ k' => ¬ (k.pageTables a).HasTables va ∧ k' = k) (fun _ => False) k := by
  unfold post
  rw [unmapPte_run]
  by_cases h : (k.pageTables a).HasTables va
  · rw [if_pos h]
    exact ⟨h, fun va' => by simp [clearPage, PageTables.HasTables]⟩
  · rw [if_neg h]
    exact ⟨h, rfl⟩

/-- The loop reports no error just if it met none. -/
theorem returnPages_post (a : PID) (src : Nat) : ∀ (n i : Nat) (error : Option Error) (k : Kernel),
    post (returnPages a src i n error) (fun r _ => r = none ↔ error = none ∧
        ∀ j, j < n → (k.pageTables a).HasTables (src + (i + j) * pageSize))
      (fun _ _ => False) (fun _ => False) k := by
  intro n
  induction n with
  | zero =>
    intro i error k
    simp [returnPages]
  | succ n ih =>
    intro i error k
    have hshift : (∀ j, j < n + 1 → (k.pageTables a).HasTables (src + (i + j) * pageSize)) ↔
        (k.pageTables a).HasTables (src + i * pageSize) ∧
        ∀ j, j < n → (k.pageTables a).HasTables (src + (i + 1 + j) * pageSize) := by
      rw [Nat.forall_lt_succ_left]
      simp only [Nat.add_zero, Nat.add_assoc, Nat.add_comm 1]
    rw [hshift]
    unfold returnPages
    rw [post_bind, Exec.post_attempt]
    refine post_mono (unmapPte_post a (src + i * pageSize) k) ?_ ?_ fun _ h => h
    · rintro _ k' ⟨hva, hsame⟩
      refine post_mono (ih (i + 1) error k') (fun r k'' h => ?_) (fun _ _ h => h) fun _ h => h
      simpa [hsame, hva] using h
    · rintro e k' ⟨hva, rfl⟩
      refine post_mono (ih (i + 1) (some e) k') (fun r k'' h => ?_) (fun _ _ h => h) fun _ h => h
      simpa [hva] using h

/-- The pages of a lent buffer can be taken back from the running process: the buffer and the
client's address are whole pages, and no page has lost its tables. -/
def Returnable (k : Kernel) (pid : PID) (serverAddr clientAddr : MemoryAddress) (bufSize : MemorySize) : Prop :=
  bufSize.get % pageSize = 0 ∧ serverAddr.get % pageSize = 0 ∧ clientAddr.get % pageSize = 0 ∧
    (k.currentPid ≠ pid → ∀ j, j < bufSize.get / pageSize →
      (k.pageTables k.currentPid).HasTables (serverAddr.get + j * pageSize))

theorem returnMemory_post {pid : PID} {serverAddr clientAddr : MemoryAddress} {bufSize : MemorySize}
    (hb : Basic k.ipc) (halive : k.ipc.parent pid ≠ none) :
    post (returnMemory serverAddr.get pid clientAddr.get bufSize.get)
      (fun _ _ => Returnable k pid serverAddr clientAddr bufSize)
      (fun _ _ => ¬ Returnable k pid serverAddr clientAddr bufSize) (fun _ => False) k := by
  unfold returnMemory
  rw [post_bind, post_get]
  split
  next hbad =>
    rintro ⟨hlen, hsrc, hdest, -⟩
    rcases hbad with h | h | h | h
    · exact bufSize.ne_zero h
    · exact h hlen
    · exact h hsrc
    · exact h hdest
  next hgood =>
    simp only [not_or, not_not] at hgood
    obtain ⟨-, hlen, hsrc, hdest⟩ := hgood
    split
    next hsame =>
      exact ⟨hlen, hsrc, hdest, fun hne => absurd hsame hne⟩
    next hother =>
      rw [post_bind]
      refine post_process (fun _ _ _ => ?_) (fun hnone => absurd (ipc_parent hnone) hb.running)
        fun hle => hle (hb.pids _ hb.running)
      rw [post_bind]
      refine post_process (fun _ _ _ => ?_) (fun hnone => absurd (ipc_parent hnone) halive)
        fun hle => hle (hb.pids _ halive)
      refine post_seq (returnPages_post k.currentPid serverAddr.get _ 0 none k) ?_ (fun _ _ h => h.elim) fun _ h => h
      intro r k' h
      simp only [true_and, Nat.zero_add] at h
      cases r with
      | none => exact ⟨hlen, hsrc, hdest, fun _ => h.mp rfl⟩
      | some e => exact fun hret => nomatch h.mpr (hret.2.2.2 hother)

theorem parent_of_alive {pid : PID} (h : k.processes pid ≠ none) : k.ipc.parent pid ≠ none := by
  obtain ⟨p, hp⟩ := Option.ne_none_iff_exists'.mp h
  exact ipc_parent_ne_none hp

/-! ## 4. Replies -/

/-- The reply is of the kind the message waits for.  A memory reply with the wrong buffer is
refused in time; with the right one, the pages must be there to be taken back. -/
def Fitting (k : Kernel) : Option MemoryRange → QueuedMessage → Prop
  | none, .waitingReturnScalar .. => True
  | some buf, .waitingReturnMemory pid _ serverAddr clientAddr bufSize =>
    (serverAddr = buf.addr ∧ bufSize = buf.size) → Returnable k pid serverAddr clientAddr bufSize
  | _, _ => False

/-- What is left of the message when the call returns an error. -/
def KeepsOwed (k : Kernel) (call : SysCall) (sender : SenderID) (t : ThreadId) : Prop :=
  wp (handle k.currentTid call) (fun _ _ => True) (fun _ k' => StillOwed sender t k k') k

/-- The slot that the token names is empty. -/
def SlotEmpty (sender : SenderID) (k : Kernel) : Prop :=
  (k.servers sender.sidx).bind (·.queue[sender.idx]?) = some .empty

theorem SlotEmpty.not_stillOwed (h : SlotEmpty sender k') (ho : Owed k sender q t) : ¬ StillOwed sender t k k' := by
  intro hstill
  obtain ⟨s, hs, -, hq⟩ := ho.slot
  have hslot := hstill.slot
  rw [h, hs, Option.bind_some, hq] at hslot
  have hawaited := ho.awaited
  rw [← Option.some.inj hslot] at hawaited
  cases hawaited

/-- How a reply ends: if it fits, an error comes before anything has been done, and if it does not
fit, an error comes when the slot has been emptied. -/
theorem keeps_iff_of_post {α : Type} {m : KExec α} {P : Prop} (ho : Owed k sender q t)
    (h : post m (fun _ _ => P) (fun _ k' => k' = k ∧ P ∨ SlotEmpty sender k' ∧ ¬ P) (fun _ => P) k) :
    wp m (fun _ _ => True) (fun _ k' => StillOwed sender t k k') k ↔ P := by
  unfold wp
  unfold post at h
  cases hm : m k with
  | ok a k' => simpa [hm] using h
  | panic msg => simpa [hm] using h
  | err e k' =>
    rw [hm] at h
    rcases h with ⟨rfl, hP⟩ | ⟨hempty, hP⟩
    · exact iff_of_true (.refl ..) hP
    · exact iff_of_false (hempty.not_stillOwed ho) hP

theorem returnResult_ends {call : SysCall} {r : Result} (hb : Basic k.ipc) (hhome : AtHome k)
    {sender : MessageSender} (ho : Owed k (ofSender sender) q t)
    (hcall : call.Replies (ofSender sender).sidx (ofSender sender).idx r) :
    post (returnResult k.currentTid sender r) (fun _ _ => Fitting k none q)
      (fun _ k' => k' = k ∧ Fitting k none q ∨ SlotEmpty (ofSender sender) k' ∧ ¬ Fitting k none q)
      (fun _ => Fitting k none q) k := by
  unfold returnResult
  rw [post_bind, post_get, post_bind]
  refine post_mono (post_and (takeWaiting_post hb (ofSender sender) none)
    (takeWaiting_owed hb hhome ho none)) ?_ ?_ fun _ h => h.2.elim
  · rintro w k1 ⟨htaken, hw, hout⟩
    have hawaited := ho.awaited
    cases q with
    | waitingReturnScalar pid tid =>
      cases hw
      refine post_mono (reply_handled (Q := True) hb htaken rfl (refl_of OnlyTables k1) hcall) ?_
        (fun _ _ h => h.elim) ?_
      · exact fun _ _ _ => trivial
      · exact fun _ _ => trivial
    | waitingReturnMemory pid tid serverAddr clientAddr bufSize =>
      cases hw
      exact .inr ⟨hout.slot, id⟩
    | _ => cases hawaited
  · rintro e k1 ⟨-, he, rfl⟩
    have hawaited := ho.awaited
    cases q with
    | waitingReturnScalar | waitingReturnMemory => cases he
    | _ => cases hawaited

theorem returnMemoryCall_ends (hb : Basic k.ipc) (hhome : AtHome k) {sender : MessageSender}
    (ho : Owed k (ofSender sender) q t) (buf : MemoryRange)
    (offset valid : Option MemorySize) :
    post (returnMemoryCall k.currentTid sender buf offset valid) (fun _ _ => Fitting k (some buf) q)
      (fun _ k' => k' = k ∧ Fitting k (some buf) q ∨ SlotEmpty (ofSender sender) k' ∧ ¬ Fitting k (some buf) q)
      (fun _ => Fitting k (some buf) q) k := by
  unfold returnMemoryCall
  rw [post_bind, post_get, post_bind]
  refine post_mono (post_and (takeWaiting_post hb (ofSender sender) (some buf))
    (takeWaiting_owed hb hhome ho (some buf))) ?_ ?_ fun _ h => h.2.elim
  · rintro w k1 ⟨htaken, hw, hout⟩
    have hawaited := ho.awaited
    cases q with
    | waitingReturnScalar pid tid =>
      cases hw
      exact .inr ⟨hout.slot, id⟩
    | waitingReturnMemory pid tid serverAddr clientAddr bufSize =>
      simp only [Server.waitingSlot, Option.all_some, decide_eq_true_eq] at hw
      split at hw
      next hbuf =>
        obtain ⟨rfl, rfl⟩ := hbuf
        cases hw
        cases hawaited
        obtain ⟨s, s', hs, -, hr, hwakes⟩ := htaken.caller (pid, tid.toNat) rfl
        have hb1 : Basic k1.ipc := (hb.rewrite hs hr.receivers.1 hr.bounds).wakes hwakes
        have halive : k1.ipc.parent pid ≠ none := by
          rw [hout.parent]
          exact parent_of_alive ho.alive
        have hret : Returnable k1 pid buf.addr clientAddr buf.size ↔ Returnable k pid buf.addr clientAddr buf.size := by
          rw [Returnable, Returnable, hout.pid, hout.pages]
        dsimp only
        refine post_seq (post_and (returnMemory_post hb1 halive)
          (post_of_wp (returnMemory_onlyTables _ pid _ _ k1))) ?_ ?_ fun _ h => h.1.elim
        · rintro _ k2 ⟨hreturnable, h2⟩
          have hfits : Fitting k (some buf) (.waitingReturnMemory pid tid buf.addr clientAddr buf.size) := fun _ =>
            hret.mp hreturnable
          exact post_mono (reply_handled (Q := True) hb htaken rfl h2
            (.memory sender buf offset valid)) (fun _ _ _ => hfits) (fun _ _ h => h.elim)
            fun _ _ => hfits
        · rintro e k2 ⟨hnot, h2⟩
          refine .inr ⟨?_, fun hfits => hnot (hret.mpr (hfits ⟨rfl, rfl⟩))⟩
          rw [SlotEmpty, h2]
          exact hout.slot
      · cases hw
    | _ => cases hawaited
  · rintro e k1 ⟨-, he, rfl⟩
    have hawaited := ho.awaited
    cases q with
    | waitingReturnScalar => cases he
    | waitingReturnMemory pid tid serverAddr clientAddr bufSize =>
      simp only [Server.waitingSlot, Option.all_some, decide_eq_true_eq] at he
      split at he
      · cases he
      next hbuf =>
        exact .inl ⟨rfl, fun h => absurd h hbuf⟩
    | _ => cases hawaited

theorem keepsOwed_iff {call : SysCall} {sender : MessageSender} (hb : Basic k.ipc) (hhome : AtHome k)
    (hcall : call.replyTo = some (sender, buf)) (ho : Owed k (ofSender sender) q t) :
    KeepsOwed k call (ofSender sender) t ↔ Fitting k buf q := by
  unfold KeepsOwed
  cases call with
  | returnMemory _ buf' offset valid =>
    cases hcall
    exact keeps_iff_of_post ho (returnMemoryCall_ends hb hhome ho buf' offset valid)
  | returnScalar1 _ arg =>
    cases hcall
    exact keeps_iff_of_post ho (returnResult_ends hb hhome ho (.scalar1 sender arg))
  | returnScalar2 _ arg1 arg2 =>
    cases hcall
    exact keeps_iff_of_post ho (returnResult_ends hb hhome ho (.scalar2 sender arg1 arg2))
  | returnScalar5 _ arg1 arg2 arg3 arg4 arg5 =>
    cases hcall
    exact keeps_iff_of_post ho (returnResult_ends hb hhome ho (.scalar5 sender arg1 arg2 arg3 arg4 arg5))
  | _ => cases hcall

theorem run_atHome (h₀ : Booted k₀) (h : Run k₀ es k) : AtHome k := by
  have hboth : Basic k.ipc ∧ AtHome k := h.runOf.invariant (P := fun k => Basic k.ipc ∧ AtHome k)
    (fun _ _ _ _ hs hk => ⟨step_basic hk.1 hs, (step_reacts hk.1 hs).2 hk.2⟩)
    ⟨h₀.ipc.toBasic, h₀.home⟩
  exact hboth.2

end Kernel

namespace Machine

open Kernel

/-- Process 2 receives a blocking message of process 3. -/
def askedEvents : List Event := [.svc frame .yield, .svc frame (.connect sid),
    .svc frame (.sendMessage 2 (.blockingScalar ⟨0, 0, 0, 0, 0⟩)), .svc frame .yield,
    .svc frame (.receiveMessage sid)]

/-- The token with which the message was delivered. -/
def askedToken : MessageSender := (SenderID.mk 0 0 (some p3)).toSender

theorem exists_asked : ∃ k, Run (start fun _ => 0) (createEvent :: askedEvents) k ∧
    Owed k (ofSender askedToken) (.waitingReturnScalar p3 1) (p3, initialTid) := by
  have hrun : (execAll askedEvents served).any
      (fun k => (k.servers 0).any (fun s => s.pid == k.currentPid &&
        s.queue[0]? == some (.waitingReturnScalar p3 1)) && (k.processes p3).isSome) = true := by decide +kernel
  obtain ⟨k, hk, h⟩ := run_created decodeQueue_zero hrun
  rw [Bool.and_eq_true, Option.any_eq_true] at h
  obtain ⟨⟨s, hs, hslot⟩, halive⟩ := h
  rw [Bool.and_eq_true, beq_iff_eq, beq_iff_eq] at hslot
  exact ⟨k, hk, ⟨s, hs, hslot.1, hslot.2⟩, rfl, Option.isSome_iff_ne_none.mp halive⟩

end Machine

namespace Kernel

open Machine

variable {k k₀ : Kernel} {es : List Event}

end Kernel

end BeetKernel

/-
# System calls, as moves

What each system call does to threads and servers.  A call that ends with a result, or with an
error, `Stays`: whatever it did, its thread goes on.  A call that gives up the CPU `Yields`: its
thread is ready, or waits for exactly one thing.  Both are lists of cases, with the moves of each
case in the order in which the code makes them; everything later about whole runs goes through
these cases and never looks at a handler again.

A panic is followed only as far as it is somebody's fault: the assertion of `park_thread`, and
the bounds checks and assertions of the thread tables and the scheduler (`CallBlame`).
-/
import BeetKernel.Ipc.Quiet
import BeetKernel.Kernel.FreshQueues

namespace BeetKernel

open SenderID (ofSender)

variable {Q : Prop} {t : ThreadId}

/-- The calls that create a server. -/
def SysCall.CreatesServer : SysCall → Prop
  | .createServerWithAddress .. | .createServer _ => True
  | _ => False

/-- The calls after which the display may go to another process. -/
def SysCall.FreesDisplay : SysCall → Prop
  | .releaseDisplay .. | .terminateProcess _ | .terminatePid .. => True
  | _ => False

namespace Ipc

/-! ## 1. What a call does -/

/-- What a call does on behalf of its own thread. -/
def Own (t : ThreadId) (l : Label) : Prop := l = .quiet ∨ l = .regs t ∨ l = .enter

/-- What creating the process `pid` does. -/
def Spawning (pid : PID) (l : Label) : Prop := l = .quiet ∨ l = .spawn pid ∨ l = .load pid

/-- The server has something to do with the thread. -/
def Mentions (s : Server) (t : ThreadId) : Prop :=
  (∃ slot, s.caller slot = some t) ∨ (s.pid = t.1 ∧ s.readyThreads.getLsbD t.2 = true)

/-- What taking the server `s` apart does, once it is out of the table. -/
def Closing (s : Server) (l : Label) : Prop := l = .quiet ∨ ∃ t, l = .release t ∧ Mentions s t

/-- The server in entry `sidx` is destroyed. -/
structure Destroys (sidx : Nat) (s : Server) (i j : Ipc) : Prop where
  was : i.servers sidx = some s
  rest : Does (Closing s) (i.setServer sidx none) j

/-- The display is given up: nobody waits for it, or the first waiter whose process still exists
gets it. -/
inductive Passes (i j : Ipc) : Prop where
  | nobody (h : Does (fun l => l = .quiet ∨ l = .leave) i j)
  | first {i1 i2 i3 : Ipc} {old rest : List ThreadId} {t : ThreadId}
      (hw : i.waiters = old ++ t :: rest) (hold : ∀ u ∈ old, i.parent u.1 = none)
      (ht : i.parent t.1 ≠ none) (h1 : Does Quiet i i1)
      (h2 : i2 = { i1 with waiters := rest }) (h3 : Does Quiet i2 i3)
      (h4 : Move (.display t) i3 j)

/-- The call ends with a result or an error.  `N` is what is known of a server it creates. -/
inductive Stays (call : SysCall) (N : Server → Prop) (i j : Ipc) : Prop where
  | quiet (h : Does Quiet i j)
  | thread {i1 : Ipc} {t : ThreadId} (h1 : Move (.thread t) i i1) (h2 : Does Quiet i1 j)
  | spawn {pid : PID} (hn : i.parent pid = none) (h : Does (Spawning pid) i j)
  | create {i1 i2 : Ipc} {sidx : Nat} {s : Server} (hc : call.CreatesServer) (hs : N s)
      (h1 : Does Quiet i i1) (h2 : Move (.create sidx s) i1 i2) (h3 : Does Quiet i2 j)
  | drop {i1 : Ipc} {sidx slot : Nat} {t : ThreadId} (h1 : Move (.drop sidx slot t) i i1)
      (h2 : Does Quiet i1 j)
  | display (hc : call.FreesDisplay) (h : Passes i j)
  | destroy {sidx : Nat} {s : Server} (hc : call = .destroyServer s.sid) (hpid : s.pid = i.pid)
      (h : Destroys sidx s i j)

/-- The servers are gone through for the last time before the process `pid` ends. -/
inductive Withdraws (pid : PID) (i j : Ipc) : Prop where
  | own {sidx : Nat} {s : Server} (hpid : s.pid = pid) (h : Destroys sidx s i j)
  | other {sidx : Nat} {s : Server} (hs : i.servers sidx = some s)
      (h : j = i.setServer sidx (some (s.discardMessagesForPid pid)))

/-- No server belongs to the process, and no slot names one of its threads. -/
def Withdrawn (pid : PID) (i : Ipc) : Prop :=
  ∀ sidx s, i.servers sidx = some s → s.pid ≠ pid ∧ ∀ slot t, s.caller slot = some t → t.1 ≠ pid

/-- The threads of the process are ended one after the other. -/
def Killing (pid : PID) (l : Label) : Prop := ∃ tid, l = .kill (pid, tid) ∧ 1 ≤ tid ∧ tid < maxThreadCount

/-- The running process ends. -/
structure Ends (i j : Ipc) : Prop where
  system : i.pid ≠ PID.kernel
  stages : ∃ i1 i2 i3 i4 i5, Relation.ReflTransGen (Withdraws i.pid) i i1 ∧
    Withdrawn i.pid i1 ∧ Does Quiet i1 i2 ∧ Passes i2 i3 ∧ Does (Killing i.pid) i3 i4 ∧
    Does Quiet i4 i5 ∧ Move (.gone i.pid) i5 j

end Ipc

/-- The reply a call makes: to which slot of which server, and with which result. -/
inductive SysCall.Replies : SysCall → Nat → Nat → Result → Prop where
  | memory (sender : MessageSender) (buf : MemoryRange) (offset valid : Option MemorySize) :
      Replies (.returnMemory sender buf offset valid) (ofSender sender).sidx
        (ofSender sender).idx (.memoryReturned offset valid)
  | scalar1 (sender : MessageSender) (arg : Nat) :
      Replies (.returnScalar1 sender arg) (ofSender sender).sidx (ofSender sender).idx (.scalar1 arg)
  | scalar2 (sender : MessageSender) (arg1 arg2 : Nat) :
      Replies (.returnScalar2 sender arg1 arg2) (ofSender sender).sidx (ofSender sender).idx (.scalar2 arg1 arg2)
  | scalar5 (sender : MessageSender) (arg1 arg2 arg3 arg4 arg5 : Nat) :
      Replies (.returnScalar5 sender arg1 arg2 arg3 arg4 arg5) (ofSender sender).sidx
        (ofSender sender).idx (.scalar5 arg1 arg2 arg3 arg4 arg5)

namespace Ipc

/-- The call gives up the CPU. -/
inductive Yields (call : SysCall) (i j : Ipc) : Prop where
  | own (h : Does (Own i.current) i j)
  | block {i1 i2 i3 : Ipc} {sidx slot : Nat} (h1 : Does Quiet i i1)
      (h2 : Move (.send sidx slot) i1 i2) (h3 : Does Quiet i2 i3)
      (h4 : Move (.wait .waitBlocking) i3 j)
  | pause {i1 : Ipc} (h1 : Does (Own i.current) i i1) (h2 : Move .pause i1 j)
  | wait {i1 : Ipc} {f : KernelFuture} (hf : f ≠ .waitBlocking) (h1 : Does (Own i.current) i i1)
      (h2 : Move (.wait f) i1 j)
  | reply {i1 : Ipc} {sidx slot : Nat} {t : ThreadId} {r : Result} (hc : call.Replies sidx slot r)
      (h1 : Move (.reply sidx slot t r) i i1) (h2 : Does (Own i.current) i1 j)
  | terminate (hc : call.FreesDisplay) (h : Ends i j)
  | terminateOther {i1 i2 : Ipc} {pid : PID} (hc : call.FreesDisplay) (hpid : pid ≠ i.pid)
      (hp : i.parent pid ≠ some (some PID.kernel)) (h1 : Move (.regs i.current) i i1)
      (h2 : Move (.activate pid) i1 i2) (h3 : Ends i2 j)

end Ipc

/-! ## 2. Identifiers out of range -/

namespace Kernel

open Ipc
open Exec (Along Follows post_and post_bind post_get post_mono post_ofExcept post_of_wp post wp post_seq Sure)

variable {α β : Type} {k k' : Kernel} {P : Kernel → Prop} {A : Label → Prop} {call : SysCall}

/-- The running process may make system call `number`. -/
def Permitted (k : Kernel) (number : Nat) : Prop :=
  ∃ p, k.processes k.currentPid = some p ∧ p.syscallPermissions.getLsbD number = true

/-- The pages of `mem` are mapped, and their frames follow one another. -/
def Contiguous (k : Kernel) (mem : MemoryRange) : Prop := mem.addr.get + mem.size.get < 2 ^ 64 ∧
    ∃ phys, (k.pageTables k.activeMapping).virtToPhys mem.addr.get = .ok phys ∧
      ∀ i, i < (mem.size.get + pageSize - 1) / pageSize →
        (k.pageTables k.activeMapping).virtToPhys (mem.addr.get + i * pageSize) = .ok (phys + i * pageSize)

/-- The entry of its context table in which a new thread of the running process would go. -/
def freeThread (k : Kernel) : Option TID := (k.archProcesses k.currentPid).bind fun a =>
    (List.range' 1 maxThreadCount).find? fun tid => !(a.threads tid).allocated

/-- **No identifier the call looks up is out of range.**  Where the code checks something else
first, only a call that gets past that check counts. -/
def InRange (k : Kernel) : SysCall → Prop
  | .connectForProcess pid sid =>
    (∃ sidx, sidx < maxServerCount ∧ (k.servers sidx).any (·.sid = sid) = true) → pid.get ≤ maxProcessCount
  | .terminatePid pid _ => Permitted k 53 → pid.get ≤ maxProcessCount
  | .virtToPhysPid pid _ => Permitted k 42 → pid.get ≤ maxProcessCount
  | .waitProcess pid => Permitted k 58 → pid.get ≤ maxProcessCount
  | .allowMessagesCID pid _ _ => pid.get ≤ maxProcessCount
  | .mirrorMemoryToPid mem pid => Contiguous k mem → pid.get ≤ maxProcessCount
  | .joinThread tid => tid < maxThreadCount
  | .createThread _ => freeThread k ≠ some maxThreadCount
  | .returnMemory sender _ _ _ | .returnScalar1 sender _ | .returnScalar2 sender _ _
  | .returnScalar5 sender _ _ _ _ _ => (ofSender sender).sidx ≠ maxServerCount
  | _ => True

/-- What the permission check has found out about the caller. -/
def Cleared (k : Kernel) : SysCall → Prop
  | .terminatePid .. => Permitted k 53
  | .virtToPhysPid .. => Permitted k 42
  | .waitProcess _ => Permitted k 58
  | .allowMessagesCID pid _ _ => pid.get ≤ maxProcessCount
  | _ => True

/-- The panics that are followed: a receiver that parks twice, and in a tidy state an
identifier out of range. -/
def CallBlame (P : Prop) (k : Kernel) (msg : String) : Prop :=
  (msg = parkMessage → ∃ sidx, k.ipc.ParkedAt sidx k.ipc.current) ∧
    (msg ∈ tableMessages → Proper k.ipc → AtHome k → msg = "index out of bounds" ∧ ¬ P)

/-- A server created on a page with zero tags is named nowhere and in order. -/
def Clean (k : Kernel) (s : Server) : Prop :=
  (∀ idx, handedOut k.mm 0 1 = some idx → TagsZero k.ram (dramBase + idx * pageSize)) →
    (∀ slot, s.caller slot = none) ∧ s.Sound

/-- What a handler does, by how it ends. -/
def Responds (N : Server → Prop) (call : SysCall) : Response → Ipc → Ipc → Prop
  | .result _ => Stays call N
  | .activateCurrent => Yields call

/-- The handler `m` of `call` does what the cases of `Stays` and `Yields` say. -/
abbrev Handled (call : SysCall) (m : KExec Response) (k : Kernel) : Prop := post m
    (fun r k' => Responds (Clean k) call r k.ipc k'.ipc ∧ (AtHome k → AtHome k'))
    (fun _ k' => Stays call (Clean k) k.ipc k'.ipc ∧ (AtHome k → AtHome k'))
    (CallBlame (InRange k call) k) k

theorem CallBlame.of_unfollowed {msg : String} (h : Unfollowed msg) : CallBlame Q k msg :=
  ⟨fun heq => absurd heq h.2, fun hm => absurd hm h.1⟩

/-- A panic on the way, in a state that was reached by harmless moves. -/
theorem CallBlame.of_home {msg : String} (hA : ∀ l, A l → Harmless l)
    (hb : Basic k.ipc) (hk : StepBy A k k') (h : Untidy AtHome msg k') : CallBlame Q k msg := by
  refine ⟨fun heq => absurd heq h.1, fun hm hp hhome => ?_⟩
  exact absurd (hk.2 hhome) (h.2 hm (does_basic hk.1 (fun l hl => (hA l hl).2) hb) (does_proper hk.1 hA hb hp))

/-- The handler does not give up the CPU. -/
def OnlyResults (m : KExec Response) : Prop := ∀ k, wp m (fun r _ => ∃ x, r = .result x) (fun _ _ => True) k

variable {m : KExec α} {f : α → KExec Response}

theorem OnlyResults.bind (h : ∀ a, OnlyResults (f a)) : OnlyResults (m >>= f) := by
  intro k
  rw [Exec.wp_bind]
  unfold wp
  split
  · exact h _ _
  · trivial
  · trivial

theorem OnlyResults.pure (x : Result) : OnlyResults (Pure.pure (.result x)) := fun _ => ⟨x, rfl⟩

theorem OnlyResults.throw (e : Error) : OnlyResults (Exec.throw e) := fun _ => trivial

theorem OnlyResults.ite {c : Prop} [Decidable c] {m n : KExec Response} (hm : OnlyResults m)
    (hn : OnlyResults n) : OnlyResults (if c then m else n) := by
  split
  · exact hm
  · exact hn

/-- `Quietly`, from one state. -/
abbrev QuietlyAt (P : Kernel → Prop) (m : KExec α) (k : Kernel) : Prop :=
  post m (fun _ k' => QuietStep k k') (fun _ k' => QuietStep k k') (fun msg => ∃ k', QuietStep k k' ∧ Untidy P msg k') k

/-- **A quiet call.** -/
theorem handled_quietly {m : KExec Response} (hb : Basic k.ipc) (hm : QuietlyAt P m k)
    (hres : OnlyResults m) (hP : InRange k call → ∀ k', QuietStep k k' → AtHome k' → P k')
    (hout : ¬ InRange k call → ∀ msg, m k = .panic msg → msg ∈ tableMessages → msg = "index out of bounds") :
    Handled call m k := by
  refine post_mono (post_and hm (post_and (post_of_wp (hres k)) (Exec.post_self m k))) ?_ ?_ ?_
  · rintro a k' ⟨h, ⟨x, rfl⟩, -⟩
    exact ⟨.quiet h.1, h.2⟩
  · rintro e k' ⟨h, -⟩
    exact ⟨.quiet h.1, h.2⟩
  · rintro msg ⟨⟨k', hk', hun⟩, -, hrun⟩
    refine ⟨fun heq => absurd heq hun.1, fun hm hp hhome => ?_⟩
    have hno : ¬ InRange k call := fun hin => hun.2 hm (quiet_basic hk'.1 hb)
      (quiet_proper hk'.1 hb hp) (hP hin k' hk' (hk'.2 hhome))
    exact ⟨hout hno msg hrun hm, hno⟩

theorem handled_home {m : KExec Response} (hb : Basic k.ipc) (hin : InRange k call)
    (hm : QuietlyAt AtHome m k) (hres : OnlyResults m) : Handled call m k :=
  handled_quietly hb hm hres (fun _ _ _ => id) fun hout => absurd hin hout

/-- The same, where the handler ends with the result of something else. -/
theorem handled_result {f : α → Result} (hb : Basic k.ipc) (hin : InRange k call)
    (hm : Quietly AtHome m) : Handled call (m >>= fun a => pure (.result (f a))) k :=
  handled_home hb hin (hm.bind (fun _ => Follows.pure _) k) (.bind fun _ => .pure _)

/-! ## 3. Calls that nobody else notices -/

/-- A thread that waits for something other than a message, a reply or the display gets it. -/
theorem postResult_quietly {f : KernelFuture} (r : Result)
    (hf : k.ipc.future t = some f) (hb : f ≠ .waitBlocking) (hd : f ≠ .waitDisplay)
    (hm : ∀ sidx, f ≠ .receiveMessage sidx) (hu : IsUser t) :
    QuietlyAt P (do setMailbox t r; setThreadState t .ready) k := by
  have hsettled : Along Settled (do setMailbox t r; setThreadState t .ready : KExec Unit) :=
    (settled_code.setMailbox _ _).bind fun _ =>
      settled_code.setThreadState _ _
  have hpost : post (do setMailbox t r; setThreadState t .ready)
      (fun _ k' => Ipc.Does Quiet k.ipc k'.ipc) (fun _ k' => Ipc.Does Quiet k.ipc k'.ipc)
      (fun msg => Untidy P msg k) k := by
    refine post_seq (setMailbox_post t r k) ?_ (fun _ _ h => .of_eq (h.1 ▸ rfl)) ?_
    · rintro _ k1 ⟨-, hput, -⟩
      have hput := hput hu.2.2
      refine post_mono (setThreadState_post t .ready k1) ?_ ?_ ?_
      · rintro _ k2 ⟨hs, -⟩
        rw [hput] at hs
        exact .single rfl (.post hf hb hd hm hs)
      · rintro _ _ ⟨-, hnone⟩
        -- a thread with a future is one of a process that exists
        have hparent := ipc_parent hnone
        rw [hput] at hparent
        have hfut : k.ipc.future t = none := by
          have hp : k.processes t.1 = none := ipc_parent_eq_none.mp hparent
          simp [ipc, kernelFuture, hp]
        rw [hf] at hfut
        cases hfut
      · rintro msg ⟨hmsg, h⟩
        refine ⟨hmsg, fun htab hb _ _ => h htab ?_ hu⟩
        rw [hput]
        exact hb.linked
    · rintro msg ⟨rfl, hle⟩
      exact ⟨by decide, fun _ _ _ _ => hle hu.1⟩
  refine post_mono (post_and hpost (post_of_wp (hsettled k))) ?_ ?_ ?_
  · exact fun _ _ h => ⟨h.1, h.2.atHome⟩
  · exact fun _ _ h => ⟨h.1, h.2.atHome⟩
  · exact fun msg h => ⟨k, refl_of QuietStep k, h.1⟩

theorem futexWakeFrom_quietly (addr : Nat) : ∀ (l : List TID) (n : Nat) (k : Kernel),
    Basic k.ipc → (∀ tid ∈ l, 1 ≤ tid ∧ tid < maxThreadCount) →
    QuietlyAt P (futexWakeFrom k.currentPid addr l n) k
  | [], _, k, _, _ => refl_of QuietStep k
  | tid :: rest, n, k, hb, hl => by
    have hrest : ∀ tid ∈ rest, 1 ≤ tid ∧ tid < maxThreadCount := fun t ht =>
      hl t (List.mem_cons_of_mem _ ht)
    have hu : IsUser (k.currentPid, tid) := ⟨hb.pids _ hb.running, hl tid (by simp)⟩
    unfold futexWakeFrom
    split
    · exact refl_of QuietStep k
    · refine quietly_currentProcess fun p hp => ?_
      split
      next hfut =>
        have hf : k.ipc.future (k.currentPid, tid) = some (.waitFutex addr) := by
          rw [ipc_future hp]
          exact hfut
        have h1 := postResult_quietly (P := P) .ok hf (by simp) (by simp) (by simp) hu
        rw [QuietlyAt, post_bind] at h1
        refine post_seq h1 (fun _ k1 h => ?_) (fun _ _ h => h) fun _ h => h
        refine post_seq h (fun _ k2 h2 => ?_) (fun _ _ h => h) fun _ h => h
        have hpid : k2.currentPid = k.currentPid := (quiet_frame h2.1).pid
        rw [← hpid]
        refine post_mono (futexWakeFrom_quietly addr rest (n - 1) k2 (quiet_basic h2.1 hb) hrest) ?_ ?_ ?_
        · exact fun _ k3 h3 => trans_of QuietStep h2 h3
        · exact fun _ k3 h3 => trans_of QuietStep h2 h3
        · exact fun msg h => h.imp fun k3 h3 => ⟨trans_of QuietStep h2 h3.1, h3.2⟩
      · exact futexWakeFrom_quietly addr rest n k hb hrest

theorem mapFbFor_quietly (pid : PID) : Quietly P (mapFbFor pid) :=
  Follows.get.bind fun _ => .ite (fun _ => Follows.each fun _ _ => (quiet_code.mapPage _ _ _ _ _).ignore)
    fun _ => Follows.pure _

theorem unmapFbFor_quietly (pid : PID) : Quietly P (unmapFbFor pid) :=
  Follows.get.bind fun _ => .ite (fun _ => Follows.each fun _ _ => (quiet_code.unmapPte _ _).ignore)
    fun _ => Follows.pure _

theorem deliverCharToSid_quietly (sid : SID) (c : UInt8) : Quietly P (deliverCharToSid sid c) :=
  (deliverCharToSid_quiet sid c).quietly (deliverCharToSid_settled sid c)

theorem acquireInputFocus_quietly (pid : PID) (sid : SID) : Quietly P (acquireInputFocus pid sid) := by
  refine Follows.get_bind fun k => ?_
  split
  · exact refl_of QuietStep k
  · rw [post_bind]
    exact Follows.after (R := QuietStep) ⟨.refl _, id⟩ (Follows.each fun c _ => deliverCharToSid_quietly sid c)

theorem dispatchInputChar_quietly (c : UInt8) : Quietly P (dispatchInputChar c) := by
  refine Follows.get_bind fun k => ?_
  split
  · exact deliverCharToSid_quietly _ c k
  · exact ⟨.refl _, id⟩

/-- Connections lead to entries the server table has. -/
theorem quietly_connection {cid : CID} {f : ConnectionSlot → KExec β} (hb : Basic k.ipc)
    {p : Process} (hp : k.processes k.currentPid = some p)
    (h : ∀ slot, (∀ sidx r perms, slot = .connected sidx r perms → sidx < maxServerCount) → Quietly P (f slot)) :
    QuietlyAt P (Exec.ofExcept (p.connection cid) >>= f) k := by
  rw [QuietlyAt, post_bind, post_ofExcept]
  refine ⟨fun slot hslot => h slot (fun sidx r perms heq => ?_) k, fun _ _ => refl_of QuietStep k⟩
  have hmap := connection_eq_ok hslot
  rw [← ipc_connections hp, heq] at hmap
  exact hb.wired _ _ _ _ _ hmap

theorem getRemoteProcessId_handled (hb : Basic k.ipc) (tid : TID) (cid : CID) :
    Handled (.getRemoteProcessId cid) (dispatch tid (.getRemoteProcessId cid)) k := by
  refine handled_home hb trivial (quietly_currentProcess fun p hp => ?_) ?_
  · refine quietly_connection hb hp fun slot hslot => ?_
    cases slot with
    | connected sidx r perms =>
      have hserver : Quietly AtHome (serverFromSidx sidx) := fun k => by
        rw [post_serverFromSidx (hslot sidx r perms rfl)]
        exact refl_of QuietStep k
      exact hserver.bind fun _ =>
        (Follows.okOr _ _).bind fun _ => Follows.pure _
    | free | tombstone _ => exact Follows.throw _
  · refine .bind fun p => .bind fun slot => ?_
    cases slot with
    | connected sidx r perms => exact .bind fun _ => .bind fun _ => .pure _
    | free | tombstone _ => exact .throw _

theorem allowMessagesSID_handled (hb : Basic k.ipc) (tid : TID) (sid : SID) (messages : MessageRange) :
    Handled (.allowMessagesSID sid messages) (dispatch tid (.allowMessagesSID sid messages)) k := by
  refine handled_home hb trivial ?_ (.bind fun _ => .bind fun _ => .bind fun _ => .bind fun _ =>
    .bind fun _ => .pure _)
  simp only [QuietlyAt, dispatch, post_bind, post_get, Exec.post_okOr, Exec.post_expect,
    post_ofExcept, post_setServer, Exec.post_pure]
  refine ⟨fun sidx hsidx => ⟨fun s hs => ?_, fun _ => ⟨k, refl_of QuietStep k,
    .of_unfollowed (by decide) k⟩⟩, fun _ => refl_of QuietStep k⟩
  -- the permissions are written whether the range found room or not
  have hstep : QuietStep k { k with servers := Function.update k.servers sidx (some
      { s with defaultPermissions := (s.defaultPermissions.add messages).2 }) } :=
    ⟨.single rfl (.touch (s := s) hs ⟨⟨rfl, rfl⟩, rfl, fun h => h.permissions _, id⟩), id⟩
  exact ⟨fun _ _ => hstep, fun _ _ => hstep⟩

theorem allowMessagesCID_quietly (tid : TID) (pid : PID) (cid : CID) (messages : MessageRange) :
    Quietly (HasRoom pid) (dispatch tid (.allowMessagesCID pid cid messages)) := by
  refine .ite (fun _ => Follows.throw _) fun _ => quietly_process fun k p hp => ?_
  split
  next sidx refcount perms hslot =>
    simp only [setProcess, post_bind, Exec.post_modify, post_ofExcept]
    have hstep : QuietStep k (k.putProcess pid
        (p.setConnection cid (.connected sidx refcount (perms.add messages).2))) := by
      refine quietStep_putConnection hp fun sidx' r p' heq => .inl ⟨refcount, perms, ?_⟩
      cases heq
      rw [ipc_connections hp]
      exact connection_eq_ok hslot
    exact ⟨fun _ _ => hstep, fun _ _ => hstep⟩
  · exact refl_of QuietStep k

/-! ## 4. Calls that make their own thread wait -/

theorem Own.harmless (l : Label) (h : Own t l) : Harmless l := by
  rcases h with rfl | rfl | rfl <;> exact ⟨trivial, by simp⟩

theorem own_current {i j : Ipc} (h : Ipc.Does (Own t) i j) : j.current = i.current := by
  refine h.invariant (P := fun j => j.current = i.current) (fun l a b hl hm ha => ?_) rfl
  rcases hl with rfl | rfl | rfl
  · exact (quiet_frame (.single rfl hm)).current.trans ha
  · cases hm
    exact ha
  · cases hm
    exact ha

theorem regs_deliver (i : Ipc) (t : ThreadId) (r : Result) : Move (.regs t) i (i.deliver t r) := by
  unfold Ipc.deliver
  refine .regs fun u hu => ?_
  split
  · exact Function.update_of_ne hu _ _
  · rfl

/-- The result of a call for the thread that makes it. -/
theorem setOwnResult_run (k : Kernel) (tid : TID) (r : Result) :
    setThreadResult (k.currentPid, tid) r k = .ok () (setSavedResult (k.currentPid, tid) r k) := by
  simp [setThreadResult]

theorem own_savedResult (k : Kernel) (r : Result) :
    StepBy (Own k.ipc.current) k (setSavedResult k.ipc.current r k) := by
  refine ⟨.single (.inr (.inl rfl)) ?_, fun hk => ?_⟩
  · rw [ipc_setSavedResult]
    exact regs_deliver _ _ _
  · obtain ⟨hpid, hmap⟩ := setSavedResult_pids k.ipc.current r k
    exact hmap.trans (hk.trans hpid.symm)

theorem setOwnResult_own (hcur : k'.ipc.current = k.ipc.current) (r : Result) :
    ∃ k'', setThreadResult k.ipc.current r k' = .ok () k'' ∧ StepBy (Own k.ipc.current) k' k'' := by
  rw [← hcur]
  exact ⟨_, setOwnResult_run k' k'.currentTid r, own_savedResult k' r⟩

theorem StepBy.of_quiet (h : QuietStep k k') : StepBy (Own t) k k' := ⟨h.1.mono fun _ hl => .inl hl, h.2⟩

/-- The rest `m` of the handler of `call`, which was entered in the state `k₀`. -/
abbrev HandledFrom (k₀ : Kernel) (call : SysCall) (m : KExec Response) (k : Kernel) : Prop := post m
    (fun r k' => Responds (Clean k₀) call r k₀.ipc k'.ipc ∧ (AtHome k₀ → AtHome k'))
    (fun _ k' => Stays call (Clean k₀) k₀.ipc k'.ipc ∧ (AtHome k₀ → AtHome k'))
    (CallBlame (InRange k₀ call) k₀) k

variable {k₀ : Kernel}

theorem CallBlame.outOfBounds (h : ¬ Q) : CallBlame Q k "index out of bounds" :=
  ⟨fun heq => absurd heq (by decide), fun _ _ _ => ⟨rfl, h⟩⟩

theorem handledFrom_get {f : Kernel → KExec Response} (h : HandledFrom k₀ call (f k) k) :
    HandledFrom k₀ call (Exec.get >>= f) k := h

theorem handledFrom_throw (hk : QuietStep k₀ k) (e : Error) :
    HandledFrom k₀ call (Exec.throw e) k := ⟨.quiet hk.1, hk.2⟩

theorem handledFrom_own (hk : StepBy (Own k₀.ipc.current) k₀ k) :
    HandledFrom k₀ call (pure .activateCurrent) k := ⟨.own hk.1, hk.2⟩

/-- Quiet code, before the call has done anything else. -/
theorem handledFrom_quiet (hb : Basic k₀.ipc) (hk : QuietStep k₀ k) (hm : Quietly AtHome m)
    (hf : ∀ a k', QuietStep k₀ k' → HandledFrom k₀ call (f a) k') :
    HandledFrom k₀ call (m >>= f) k := by
  rw [HandledFrom, post_bind]
  refine post_mono (hm k) (fun a k' h => hf a k' (trans_of QuietStep hk h)) ?_ ?_
  · exact fun _ k' h => ⟨.quiet (hk.1.trans h.1), h.2 ∘ hk.2⟩
  · rintro msg ⟨k', h, hun⟩
    exact .of_home (fun _ => Harmless.of_quiet) hb (trans_of QuietStep hk h) hun

/-- Quiet code that returns no error, where the call may have written its thread's registers. -/
theorem handledFrom_sure (hb : Basic k₀.ipc)
    (hk : StepBy (Own k₀.ipc.current) k₀ k) (hm : Quietly AtHome m) (hs : Sure m)
    (hf : ∀ a k', StepBy (Own k₀.ipc.current) k₀ k' → HandledFrom k₀ call (f a) k') :
    HandledFrom k₀ call (m >>= f) k := by
  rw [HandledFrom, post_bind]
  refine hs.post (E := fun _ _ => True) (post_mono (hm k) (fun a k' h => ?_) (fun _ _ _ => trivial) ?_)
  · exact hf a k' (trans_of (StepBy _) hk (.of_quiet h))
  · rintro msg ⟨k', h, hun⟩
    exact .of_home Own.harmless hb (trans_of (StepBy _) hk (.of_quiet h)) hun

theorem handledFrom_process {f : Process → KExec Response} (hb : Basic k₀.ipc) (hk : QuietStep k₀ k)
    (hf : ∀ p, k.processes k.currentPid = some p → HandledFrom k₀ call (f p) k) :
    HandledFrom k₀ call (currentProcess >>= f) k := by
  have hbk := quiet_basic hk.1 hb
  rw [HandledFrom, post_bind]
  refine post_currentProcess (fun p hp => hf p hp) fun msg h hmsg => ?_
  exact .of_home (fun _ => Harmless.of_quiet) hb hk ⟨hmsg, fun hm _ _ _ => h hm (hbk.pids _ hbk.running)⟩

theorem currentProcess_sure : Sure currentProcess := Sure.get.bind fun _ => .unwrap _ _

theorem handledFrom_result {f : Unit → KExec Response} {r : Result} (hk : QuietStep k₀ k)
    (hf : ∀ k', StepBy (Own k₀.ipc.current) k₀ k' → HandledFrom k₀ call (f ()) k') :
    HandledFrom k₀ call (setThreadResult k₀.ipc.current r >>= f) k := by
  have hcur : k.ipc.current = k₀.ipc.current := (quiet_frame hk.1).current
  obtain ⟨k', hrun, hown⟩ := setOwnResult_own hcur r
  rw [HandledFrom, post_bind]
  exact Exec.post_of_ok hrun (hf _ (trans_of (StepBy _) (.of_quiet hk) hown))

theorem handledFrom_wait {f : KernelFuture} {mask : BitVec 64} (hb : Basic k₀.ipc)
    (hk : StepBy (Own k₀.ipc.current) k₀ k) (hf : f ≠ .waitBlocking)
    (hm : ∀ sidx, f ≠ .receiveMessage sidx) :
    HandledFrom k₀ call (do suspendWithFuture k₀.currentTid f mask; pure .activateCurrent) k := by
  have hcur : k.ipc.current = k₀.ipc.current := own_current hk.1
  have htid : k₀.currentTid = k.currentTid := (congrArg Prod.snd hcur).symm
  rw [HandledFrom, post_bind, htid]
  refine post_mono (post_and (suspendWithFuture_post f mask k) (post_of_wp
    (settled_code.suspendWithFuture _ _ _ k))) ?_ (fun _ _ h => h.1.elim) ?_
  · rintro _ k2 ⟨hs, hset⟩
    exact ⟨.wait hf hk.1 (.wait hm hs), fun hhome => hset.atHome (hk.2 hhome)⟩
  · rintro msg ⟨⟨hmsg, hbl⟩, -⟩
    exact .of_home Own.harmless hb hk ⟨hmsg, fun hm hb hp _ => hbl hm ⟨hb, hp⟩⟩

theorem handledFrom_pause {st : ThreadState} (hb : Basic k₀.ipc)
    (hk : StepBy (Own k₀.ipc.current) k₀ k) (hr : st ≠ .ready) (hf : st ≠ .free) :
    HandledFrom k₀ call (do setThreadState k₀.ipc.current st; pure .activateCurrent) k := by
  have hcur : k.ipc.current = k₀.ipc.current := own_current hk.1
  have hbk : Basic k.ipc := does_basic hk.1 (fun l hl => (Own.harmless l hl).2) hb
  rw [HandledFrom, post_bind, ← hcur]
  refine post_mono (post_and (setThreadState_post k.ipc.current st k) (post_of_wp
    (settled_code.setThreadState _ _ k))) ?_ ?_ ?_
  · rintro _ k2 ⟨⟨hs, -⟩, hset⟩
    exact ⟨.pause hk.1 (.pause hr hf hs), fun hhome => hset.atHome (hk.2 hhome)⟩
  · rintro _ _ ⟨⟨-, hnone⟩, -⟩
    exact absurd (ipc_parent hnone) hbk.running
  · rintro msg ⟨⟨hmsg, hbl⟩, -⟩
    exact .of_home Own.harmless hb hk ⟨hmsg, fun hm hb _ _ => hbl hm hb.linked hb.current⟩

theorem yieldThread_quietly (t : ThreadId) (p : ThreadPriority) :
    Quietly P (withScheduler (Scheduler.yieldThread t p)) := by
  intro k
  have hrun : Linked k.ipc → ∃ s', Scheduler.yieldThread t p k.scheduler = .ok () s' := by
    rintro ⟨L, hr, -⟩
    cases hL : L p.toIndex with
    | nil => exact ⟨_, hr.yieldThread_other (by simp [hL])⟩
    | cons a r =>
      rcases eq_or_ne a t with rfl | hne
      · obtain ⟨s', hs', -⟩ := hr.yieldThread_head hL
        exact ⟨s', hs'⟩
      · exact ⟨_, hr.yieldThread_other (by simp [hL, hne])⟩
  refine post_mono (withScheduler_post (k := k) (t := k.ipc.current) (Q := fun _ k' => QuietStep k k')
    (E := fun _ k' => QuietStep k k') (Scheduler.yieldThread_post t p) (fun s' hs' => ?_)
    fun hl _ => hrun hl) (fun _ _ h => h) (fun _ _ h => h) fun msg h => ?_
  · exact ⟨.single rfl (.rotate hs'), id⟩
  · exact ⟨k, refl_of QuietStep k, h.1, fun hm hb _ _ => h.2 hm hb.linked hb.current⟩

theorem yield_handled (hb : Basic k.ipc) : Handled .yield (dispatch k.currentTid .yield) k := by
  refine handledFrom_result (refl_of QuietStep k) fun k1 h1 => ?_
  refine handledFrom_sure hb h1 currentProcess_quietly currentProcess_sure fun p k2 h2 => ?_
  exact handledFrom_sure hb h2 (yieldThread_quietly _ _) (.zoom fun _ =>
    Exec.wp_of_post (Scheduler.yieldThread_post _ _ _)) fun _ _ =>
    handledFrom_own

theorem setThreadPriority_quietly (hu : IsUser t) (priority : ThreadPriority) :
    Quietly P (setThreadPriority t priority) := by
  intro k
  refine post_mono (post_and (setThreadPriority_post t priority k) (post_of_wp
    (settled_code.setThreadPriority t priority k))) ?_ ?_ ?_
  · exact fun _ k' h => ⟨h.1, h.2.atHome⟩
  · rintro _ k' ⟨rfl, -⟩
    exact refl_of QuietStep k'
  · exact fun msg h => ⟨k, refl_of QuietStep k, h.1.1, fun hm hb _ _ => h.1.2 hm hb.linked hu⟩

theorem setThreadPriority_handled (hb : Basic k.ipc) (priority : ThreadPriority) :
    Handled (.setThreadPriority priority) (dispatch k.currentTid (.setThreadPriority priority)) k := by
  have hk := refl_of QuietStep k
  simp only [dispatch]
  split
  · exact handledFrom_throw hk _
  · refine handledFrom_get (handledFrom_quiet hb hk currentProcess_quietly fun _ k1 h1 => ?_)
    refine handledFrom_quiet hb h1 (setThreadPriority_quietly hb.current priority) fun _ k2 h2 => ?_
    exact handledFrom_result h2 fun k3 h3 => handledFrom_own h3

theorem futexWait_handled (hb : Basic k.ipc) (addr val : Nat) :
    Handled (.futexWait addr val) (dispatch k.currentTid (.futexWait addr val)) k := by
  have hk := refl_of QuietStep k
  simp only [dispatch, futexWait]
  refine handledFrom_get ?_
  split
  · exact handledFrom_throw hk _
  · refine handledFrom_quiet hb hk (Follows.okOr _ _) fun a k1 h1 => ?_
    refine handledFrom_quiet hb h1 (checkRangeAccessible_quietly _) fun _ k2 h2 => ?_
    refine handledFrom_quiet hb h2 (quiet_code.virtToPhys _ _) fun phys k3 h3 => ?_
    split
    · exact handledFrom_throw h3 _
    · exact handledFrom_result h3 fun k4 h4 => handledFrom_wait hb h4 (by simp) (by simp)

theorem joinThread_handled (hb : Basic k.ipc) (joinTid : TID) :
    Handled (.joinThread joinTid) (dispatch k.currentTid (.joinThread joinTid)) k := by
  have hk := refl_of QuietStep k
  simp only [dispatch, joinThread]
  refine handledFrom_quiet hb hk currentProcess_quietly fun p k1 h1 => ?_
  split
  · exact handledFrom_throw h1 _
  · rw [HandledFrom, post_bind, Exec.post_assert]
    refine ⟨fun _ => ?_, fun hlt => .outOfBounds (by simpa [InRange] using hlt)⟩
    split
    · exact handledFrom_wait hb (.of_quiet h1) (by simp) (by simp)
    · exact ⟨.quiet h1.1, h1.2⟩

theorem waitProcess_handled {pid : PID} (hb : Basic k.ipc) (hclear : Cleared k (.waitProcess pid)) :
    Handled (.waitProcess pid) (dispatch k.currentTid (.waitProcess pid)) k := by
  have hk := refl_of QuietStep k
  simp only [dispatch]
  rw [Handled, post_bind, Exec.post_attempt]
  refine post_process (fun p _ _ => ?_) (fun _ => ⟨.quiet hk.1, hk.2⟩) fun hle => ?_
  · exact handledFrom_wait hb (.of_quiet hk) (by simp) (by simp)
  · exact .outOfBounds fun hin => hle (hin hclear)

theorem waitEvent_handled (hb : Basic k.ipc) (mask : BitVec 64) :
    Handled (.waitEvent mask) (dispatch k.currentTid (.waitEvent mask)) k := by
  have hk := refl_of QuietStep k
  simp only [dispatch, waitEvent]
  split
  · exact handledFrom_throw hk _
  · refine handledFrom_get ?_
    refine handledFrom_process hb hk fun p hp => ?_
    have hput : QuietStep k (k.putProcess k.currentPid
        { p with notificationBits := p.notificationBits &&& ~~~ mask }) :=
      quietStep_putProcess hp rfl rfl rfl rfl rfl rfl
    rw [HandledFrom, post_bind, post_setProcess]
    split
    · exact ⟨.quiet hput.1, hput.2⟩
    · refine handledFrom_result hput fun k1 h1 => ?_
      exact handledFrom_pause hb h1 (by simp) (by simp)

theorem mapFbFor_sure (pid : PID) : Sure (mapFbFor pid) :=
  Sure.get.bind fun _ => .ite (.each fun _ _ => .ignore _) (.pure ())

/-- The caller gets the display, or is entered as a waiter while there is room. -/
theorem tryAcquireDisplay_post (k : Kernel) : post (tryAcquireDisplay k.currentPid k.currentTid)
      (fun got k' => (got = true → QuietStep k k') ∧ (got = false → StepBy (Own k.ipc.current) k k'))
      (fun _ _ => False) (fun msg => ∃ k', QuietStep k k' ∧ Untidy AtHome msg k') k := by
  simp only [tryAcquireDisplay, post_bind, post_get]
  split
  · refine ⟨by simp, fun _ => ⟨?_, id⟩⟩
    split
    · exact .single (.inr (.inr rfl)) .enter
    · exact .refl _
  · have hset : QuietStep k { k with display := { k.display with
        owner := some (k.currentPid, k.currentTid) } } := ⟨.refl _, id⟩
    simp only [setDisplay, post_bind, Exec.post_modify]
    refine (mapFbFor_sure _).post (post_mono (Follows.after hset (mapFbFor_quietly k.currentPid))
      (fun _ k' h => ⟨fun _ => h, by simp⟩) (fun _ _ h => h) fun _ h => h)

theorem acquireDisplay_handled (hb : Basic k.ipc) :
    Handled .acquireDisplay (dispatch k.currentTid .acquireDisplay) k := by
  simp only [dispatch, Handled, post_bind, post_get]
  refine post_mono (tryAcquireDisplay_post k) ?_ (fun _ _ h => h.elim) ?_
  · rintro got k1 ⟨hyes, hno⟩
    cases got with
    | true => exact ⟨.quiet (hyes rfl).1, (hyes rfl).2⟩
    | false => exact handledFrom_wait hb (hno rfl) (by simp) (by simp)
  · rintro msg ⟨k', hk', hun⟩
    exact .of_home (fun _ => Harmless.of_quiet) hb hk' hun

end Kernel

end BeetKernel

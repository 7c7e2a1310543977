/-
# Trying again when the queue is full

`SendMessage` on a server whose queue is full is meant to wait: the kernel puts the caller into
`RetryQueueFull`, and whoever takes a message out of the queue makes it ready again.  What the
caller does then is decided by two things outside the handler: the registers it resumes from, and
what the library makes of the result it finds in them.

`retry_swi_instruction` says that it rewinds the program counter.  It does not: it writes
`RetryCall` into the result registers and leaves the counter behind the `SVC`.  So the thread
returns to the library, and `send_message` has no arm for that result.
-/
import BeetKernel.Ipc.Runs

namespace BeetKernel

open Exec (post_bind post_err post_get post_mono post_ok post)

/-! ## 1. The library's side -/

/-- What becomes of a call of the library's `send_message` when its thread runs again. -/
inductive Resumption where
  /-- The thread executes the `SVC` instruction once more. -/
  | again
  | returns (r : Except Error Result)
  /-- `panic!("Unexpected return value: {:?}", v)` -/
  | panics

/-- `send_message` of `xous-rs`, on the result that `rsyscall` found in the registers. -/
def Library.sendMessage : Result → Resumption
  | .error e => .returns (.error e)
  | .ok => .returns (.ok .ok)
  | .scalar1 a => .returns (.ok (.scalar1 a))
  | .scalar2 a b => .returns (.ok (.scalar2 a b))
  | .scalar5 a b c d e => .returns (.ok (.scalar5 a b c d e))
  | .memoryReturned offset valid => .returns (.ok (.memoryReturned offset valid))
  | _ => .panics

/-- The size of the `SVC` instruction. -/
def svcSize : Nat := 4

/-- A thread that made the call with the registers `frame` resumes from the registers `c`. -/
inductive Resumes (frame c : Context) : Resumption → Prop where
  | again (hargs : c.gpr = frame.gpr) (hpc : c.elr + svcSize = frame.elr) : Resumes frame c .again
  | back {r : Result} (hpc : c.elr = frame.elr)
      (hr : ∀ j, j < argRegisters.length → c.gpr (argRegisters.getD j 0) = r.arg j) :
      Resumes frame c (Library.sendMessage r)

/-- What a blocking send may come to: it is repeated, or it returns and something has happened at
the server. -/
def Resumption.Allowed (happened : Prop) : Resumption → Prop
  | .again => True
  | .returns _ => happened
  | .panics => False

theorem arg_eq_retryCall {r : Result} (h : r.arg 0 = 16) : r = .retryCall := by
  cases r <;> first | rfl | exact absurd h (by simp [Result.arg, Result.toArgs])

/-- **From the registers of a retried call the library panics.** -/
theorem resumes_retryCall {frame c : Context} {res : Resumption} (hpc : c.elr = frame.elr)
    (hx0 : c.gpr 0 = 16) (h : Resumes frame c res) : res = .panics := by
  cases h with
  | again _ hback => simp [hpc, svcSize] at hback
  | back _ hr =>
    obtain rfl := arg_eq_retryCall ((hr 0 (by decide)).symm.trans hx0)
    rfl

namespace Kernel

open Ipc

variable {k k' : Kernel} {sidx refcount : Nat} {permissions : MessagePermissions} {cid : CID}
  {p : Process} {s : Server} {message : Message} {frame : Context}

/-! ## 2. The kernel's side -/

/-- The running process has the connection `cid` to the full queue of server `sidx`. -/
structure FullAt (k : Kernel) (cid : CID) (sidx : Nat) : Prop where
  inTable : sidx < maxServerCount
  connected : ∃ p refcount permissions, k.processes k.currentPid = some p ∧
    p.connection cid = .ok (.connected sidx refcount permissions)
  full : ∃ s, k.servers sidx = some s ∧ s.isQueueFull = true

theorem FullAt.saveContext (h : FullAt k cid sidx) (t : ThreadId) (frame : Context) :
    FullAt (saveContext t frame k) cid sidx := by
  rw [saveContext_eq]
  exact ⟨h.inTable, h.connected, h.full⟩

/-- The check for room comes before anything else is done with the message. -/
theorem sendMessageInner_full (hlt : sidx < maxServerCount) (hs : k.servers sidx = some s) (hfull : s.isQueueFull = true)
    (tid : TID) (message : Message) :
    post (sendMessageInner tid sidx message) (fun _ _ => False)
      (fun e k' => k' = k ∧ e = .serverQueueFull) (fun _ => True) k := by
  unfold sendMessageInner checkQueueRoom
  rw [post_bind, post_bind, post_serverFromSidx hlt]
  simp [hs, hfull]

theorem sendMessage_full (h : FullAt k cid sidx) (tid : TID) (message : Message) :
    post (sendMessage tid cid message) (fun _ _ => False)
      (fun e k' => k' = k ∧ (e = .serverQueueFull ∨ e = .accessDenied)) (fun _ => True) k := by
  obtain ⟨hlt, ⟨p, refcount, permissions, hp, hconn⟩, s, hs, hfull⟩ := h
  unfold sendMessage
  rw [post_bind, post_get, post_bind]
  refine post_currentProcess (fun q hq => ?_) fun _ _ _ => trivial
  obtain rfl : p = q := Option.some.inj (hp.symm.trans hq)
  simp only [hconn, post_bind, Exec.post_ofExcept]
  refine ⟨fun slot hslot => ?_, fun e he => by cases he⟩
  cases hslot
  dsimp only
  rw [post_bind, post_serverFromSidx hlt, hs, post_bind, Exec.post_expect]
  refine ⟨fun s' hs' => ?_, fun h => by cases h⟩
  obtain rfl := Option.some.inj hs'
  split
  · exact ⟨rfl, .inr rfl⟩
  · rw [post_bind]
    exact post_mono (sendMessageInner_full hlt hs hfull tid message) (fun _ _ h => h.elim)
      (fun _ _ h => ⟨h.1, .inl h.2⟩) fun _ h => h

/-- The state in which `retry_syscall` leaves the caller `t` of a call on a full queue. -/
structure Retrying (t : ThreadId) (sidx : Nat) (k k' : Kernel) : Prop where
  servers : k'.servers = k.servers
  state : k'.threadState t = .retryQueueFull sidx
  context : k'.context t = (setSavedResult t .retryCall k).context t

theorem retrySyscall_retrying (tid : TID) (sidx : Nat) (k : Kernel) : post (retrySyscall tid (.retryQueueFull sidx))
      (fun response k' => response = .activateCurrent ∧ Retrying (k.currentPid, tid) sidx k k')
      (fun _ _ => False) (fun _ => True) k := by
  unfold retrySyscall
  rw [post_bind, post_get, post_bind, Exec.post_modify, post_bind]
  refine post_currentProcess (fun p hp => ?_) fun _ _ _ => trivial
  rw [(setSavedResult_pids ..).1] at hp
  refine Exec.post_seq (setThreadState_post _ _ _) ?_ ?_ fun _ _ => trivial
  · rintro _ k' ⟨hset, hk'⟩
    refine ⟨rfl, ?_, ?_, ?_⟩
    · rw [hk']
      exact congrArg Ipc.servers (ipc_setSavedResult ..)
    · have hstate := congrFun (congrArg Ipc.state hset.rest) (k.currentPid, tid)
      exact hstate.trans (Function.update_self ..)
    · exact congrFun hset.context _
  · rintro _ _ ⟨-, hnone⟩
    exact nomatch hp.symm.trans hnone

/-- The call either is refused, or leaves its caller waiting. -/
theorem handle_full (h : FullAt k cid sidx) (tid : TID) (message : Message) :
    post (handle tid (.sendMessage cid message))
      (fun response k' => response = .activateCurrent ∧ Retrying (k.currentPid, tid) sidx k k')
      (fun _ k' => k' = k) (fun _ => True) k := by
  obtain ⟨p, refcount, permissions, hp, hconn⟩ := h.connected
  simp only [handle, checkSyscallPermission, dispatch, sendMessageOrRetry, post_bind, Exec.post_pure, Exec.post_attempt]
  refine post_mono (sendMessage_full h tid message) (fun _ _ h => h.elim) ?_ fun _ h => h
  rintro e k' ⟨rfl, rfl | rfl⟩
  · dsimp only
    rw [post_bind]
    refine post_currentProcess (fun q hq => ?_) fun _ _ _ => trivial
    obtain rfl : p = q := Option.some.inj (hp.symm.trans hq)
    rw [post_bind, Exec.post_ofExcept]
    refine ⟨fun slot hslot => ?_, fun e he => by cases hconn.symm.trans he⟩
    obtain rfl := Except.ok.inj (hconn.symm.trans hslot)
    exact post_mono (retrySyscall_retrying tid sidx k') (fun _ _ h => h) (fun _ _ h => h.elim) fun _ h => h
  · exact rfl

/-! ## 3. The contract of a blocking send -/

/-- The contract of `send_message` on a full queue, for the thread that runs and calls with the
registers `frame`: the call does not stop the kernel, its thread resumes by repeating it, and if
the library returns then the server has taken the message or is gone: at the least, its entry in
the table is no longer what it was. -/
def WaitsAndRetries (sidx : Nat) (frame : Context) (cid : CID) (message : Message) (k : Kernel) : Prop :=
  post (handle k.currentTid (.sendMessage cid message)) (fun response k' =>
      match response with
      | .result r => (Library.sendMessage r).Allowed (k'.servers sidx ≠ k.servers sidx)
      | .activateCurrent => ∃ c res, k'.context k.currentThread = some c ∧ Resumes frame c res ∧
          res.Allowed (k'.servers sidx ≠ k.servers sidx))
    (fun e k' => (Library.sendMessage (.error e)).Allowed (k'.servers sidx ≠ k.servers sidx))
    (fun _ => False) (saveContext k.currentThread frame k)

theorem saveContext_servers (t : ThreadId) (frame : Context) (k : Kernel) :
    (saveContext t frame k).servers = k.servers := by
  rw [saveContext_eq]

/-- The program counter of a thread whose registers were saved and then given a result. -/
theorem savedResult_elr {t : ThreadId} {r : Result} {c : Context}
    (h : (setSavedResult t r (saveContext t frame k)).context t = some c) : c.elr = frame.elr := by
  unfold saveContext setSavedResult at h
  cases ha : k.archProcesses t.1 with
  | none => simp [ha, context] at h
  | some a =>
    by_cases hr : 1 ≤ t.2 ∧ t.2 ≤ maxThreadCount
    · simp [ha, context, hr] at h
      rw [← h]
      rfl
    · simp [ha, context, hr] at h
      rw [← h]

/-- **A blocking send on a full queue is never retried.**  Whoever calls, with whatever message:
the caller is left behind its `SVC`, and the server has not taken the message. -/
theorem sendMessage_not_retried (h : FullAt k cid sidx) (frame : Context) (message : Message) :
    ¬ WaitsAndRetries sidx frame cid message k := by
  intro hcontract
  have hfull := handle_full (h.saveContext k.currentThread frame) k.currentTid message
  rw [show (saveContext _ frame k).currentPid = k.currentPid by rw [saveContext_eq]] at hfull
  cases hrun : handle k.currentTid (.sendMessage cid message) (saveContext k.currentThread frame k) with
  | ok response k' =>
    obtain ⟨rfl, hretry⟩ := post_ok hfull hrun
    obtain ⟨c, res, hc, hres, hallowed⟩ := post_ok hcontract hrun
    have hservers : k'.servers sidx = k.servers sidx := by
      rw [hretry.servers, saveContext_servers]
    have hpc : c.elr = frame.elr := savedResult_elr (hretry.context.symm.trans hc)
    cases hres with
    | again _ hback => simp [hpc, svcSize] at hback
    | @back r _ hr =>
      cases hlib : Library.sendMessage r with
      | again => cases r <;> cases hlib
      | returns r' =>
        rw [hlib] at hallowed
        exact hallowed hservers
      | panics =>
        rw [hlib] at hallowed
        exact hallowed
  | err e k' =>
    refine post_err hcontract hrun ?_
    rw [post_err hfull hrun, saveContext_servers]
  | panic msg => exact Exec.post_panic hcontract hrun

end Kernel

namespace Machine

open Kernel

/-- A message to the server through the connection of process 3 or 4. -/
def sendEvent (message : Message) : Event := .svc frame (.sendMessage 2 message)

/-- Process 2 owes process 3 a reply, and process 4 has filled the rest of the queue. -/
def fillingEvents : List Event :=
  [.svc frame .yield, .svc frame (.connect sid), sendEvent (.blockingScalar ⟨0, 0, 0, 0, 0⟩),
    .svc frame .yield, .svc frame (.receiveMessage sid), .svc frame .yield,
    .svc frame (.connect sid)] ++ List.replicate 255 (sendEvent (.scalar ⟨0, 0, 0, 0, 0⟩))

end Machine

namespace Kernel

open Machine

/-- `FullAt`, computed. -/
def fullAt (k : Kernel) (cid : CID) (sidx : Nat) : Bool := decide (sidx < maxServerCount) &&
  (k.processes k.currentPid).any (fun p => (p.connection cid).toOption.any
    (Process.tombstoneConnectionBySidx.isConnectedTo sidx)) &&
  (k.servers sidx).any Server.isQueueFull

theorem FullAt.of_fullAt {k : Kernel} {cid : CID} {sidx : Nat} (h : k.fullAt cid sidx = true) : FullAt k cid sidx := by
  simp only [fullAt, Bool.and_eq_true, decide_eq_true_eq, Option.any_eq_true] at h
  obtain ⟨⟨hlt, p, hp, slot, hslot, hto⟩, s, hs, hfull⟩ := h
  refine ⟨hlt, ?_, s, hs, hfull⟩
  cases hconn : p.connection cid with
  | error e => simp [hconn, Except.toOption] at hslot
  | ok slot' =>
    simp only [hconn, Except.toOption, Option.some.injEq] at hslot
    subst hslot
    cases slot' with
    | connected n r perms =>
      obtain rfl : n = sidx := by simpa [Process.tombstoneConnectionBySidx.isConnectedTo] using hto
      exact ⟨p, r, perms, hp, hconn⟩
    | free | tombstone _ => cases hto

/-- Where the running thread resumes if it now sends `message`: the state it waits in, its program
counter and the words of its result. -/
def resumePoint (k : Kernel) (frame : Context) (cid : CID) (message : Message) :
    Option (ThreadState × Nat × List Nat) :=
  match handle k.currentTid (.sendMessage cid message) (saveContext k.currentThread frame k) with
  | .ok .activateCurrent k' =>
    (k'.context k.currentThread).map fun c =>  (k'.threadState k.currentThread, c.elr, argRegisters.map c.gpr)
  | _ => none

/-- The words of `RetryCall`. -/
def retryWords : List Nat := (List.range argRegisters.length).map Result.retryCall.arg

set_option maxRecDepth 4000 in
/-- A full queue is within reach, with no message refused on the way. -/
theorem exists_full : ∃ k, Run (start fun _ => 0) (createEvent :: fillingEvents) k ∧ FullAt k 2 0 ∧
    k.resumePoint frame 2 (.scalar ⟨0, 0, 0, 0, 0⟩) = some (.retryQueueFull 0, frame.elr, retryWords) := by
  have hrun : (execAll fillingEvents served).any
      (fun k => k.fullAt 2 0 && decide (k.resumePoint frame 2 (.scalar ⟨0, 0, 0, 0, 0⟩) =
        some (.retryQueueFull 0, frame.elr, retryWords))) = true := by decide +kernel
  obtain ⟨k, hk, hfull⟩ := run_created decodeQueue_zero hrun
  rw [Bool.and_eq_true, decide_eq_true_eq] at hfull
  exact ⟨k, hk, .of_fullAt hfull.1, hfull.2⟩

/-- Process 4 sends one message more. -/
theorem sendMessage_not_retried_filled : ∃ k, Booted (start fun _ => 0) ∧
    Run (start fun _ => 0) (createEvent :: fillingEvents) k ∧ FullAt k 2 0 ∧
    ¬ WaitsAndRetries 0 frame 2 (.scalar ⟨0, 0, 0, 0, 0⟩) k := by
  obtain ⟨k, hk, hfull, -⟩ := exists_full
  exact ⟨k, start_booted _, hk, hfull, sendMessage_not_retried hfull frame _⟩

/-- It is left waiting for room, and however it is woken its library call panics. -/
theorem sendMessage_panics : ∃ k k' c, Run (start fun _ => 0) (createEvent :: fillingEvents) k ∧ FullAt k 2 0 ∧
    handle k.currentTid (.sendMessage 2 (.scalar ⟨0, 0, 0, 0, 0⟩))
      (saveContext k.currentThread frame k) = .ok .activateCurrent k' ∧
    k'.threadState k.currentThread = .retryQueueFull 0 ∧ k'.context k.currentThread = some c ∧
    Resumes frame c .panics ∧ ∀ res, Resumes frame c res → res = .panics := by
  obtain ⟨k, hk, hfull, hpoint⟩ := exists_full
  unfold resumePoint at hpoint
  split at hpoint
  next k' hrun =>
    obtain ⟨c, hc, heq⟩ := Option.map_eq_some_iff.mp hpoint
    simp only [Prod.mk.injEq] at heq
    obtain ⟨hstate, hpc, hwords⟩ := heq
    have hx0 : c.gpr 0 = 16 := (List.cons.inj hwords).1
    refine ⟨k, k', c, hk, hfull, hrun, hstate, hc, ?_, fun res => resumes_retryCall hpc hx0⟩
    refine .back (r := .retryCall) hpc fun j hj => ?_
    have hj' := congrArg (·.getD j 0) hwords
    simpa [retryWords, hj] using hj'
  · cases hpoint

end Kernel

end BeetKernel

/-
# All system calls, as moves

`handle` checks the caller's permissions and goes to the handler of the call.  The permission
check changes nothing, but it looks up a process id before anything else does, so it is the first
place where one can be out of range.
-/
import BeetKernel.Ipc.Termination
import BeetKernel.Ipc.Passing
import BeetKernel.Kernel.Mirror

namespace BeetKernel.Kernel

open Ipc
open Exec (Follows post_and post_bind post_get post_mono post_pure post post_seq)

variable {k k' : Kernel} {P : Kernel → Prop} {call : SysCall}

/-! ## 1. Calls that look a process up -/

theorem handled_of_results {m : KExec Response}
    (h : post m (fun r k' => (∃ x, r = .result x) ∧ QuietStep k k') (fun _ k' => QuietStep k k')
      (CallBlame (InRange k call) k) k) : Handled call m k := by
  refine post_mono h ?_ (fun _ _ h => ⟨.quiet h.1, h.2⟩) fun _ h => h
  rintro _ k' ⟨⟨x, rfl⟩, hq⟩
  exact ⟨.quiet hq.1, hq.2⟩

section

variable (hb : Basic k.ipc)

include hb

/-- With a process id in range a quiet call is like any other. -/
theorem handled_inRoom {m : KExec Response} {pid : PID}
    (hpid : pid.get ≤ maxProcessCount) (hm : QuietlyAt (HasRoom pid) m k) (hres : OnlyResults m) :
    Handled call m k := by
  refine handled_of_results (post_mono (post_and hm (Exec.post_of_wp (hres k)))
    (fun _ _ h => ⟨h.2, h.1⟩) (fun _ _ h => h.1) ?_)
  rintro msg ⟨⟨k', hk', hun⟩, -⟩
  exact .of_home (fun _ => Harmless.of_quiet) hb hk' ⟨hun.1, fun hm hb hp _ => hun.2 hm hb hp hpid⟩

theorem connect_handled (sid : SID) : Handled call (do
      let k ← Exec.get
      pure (.result (.connectionID (← connectToServer k.currentPid sid)))) k := by
  refine handled_inRoom hb (hb.pids _ hb.running) ?_ (.bind fun _ => .bind fun _ => .pure _)
  rw [QuietlyAt, post_bind, post_get]
  exact Follows.bind (connectToServer_quietly k.currentPid sid) (fun _ => Follows.pure _) k

theorem connectForProcess_handled (tid : TID) (pid : PID) (sid : SID) :
    Handled (.connectForProcess pid sid) (dispatch tid (.connectForProcess pid sid)) k := by
  simp only [dispatch]
  by_cases hpid : pid.get ≤ maxProcessCount
  · exact handled_inRoom hb hpid (Follows.bind (connectToServer_quietly pid sid)
      (fun _ => Follows.pure _) k) (.bind fun _ => .pure _)
  · -- the server is looked up first
    refine handled_of_results ?_
    unfold connectToServer
    simp only [post_bind, post_get, Exec.post_okOr, Exec.post_expect]
    refine ⟨fun sidx hfind => ⟨fun s hs => ?_, fun _ => .of_unfollowed (by decide)⟩, fun _ => refl_of QuietStep k⟩
    refine post_process (fun _ _ hle => absurd hle hpid) (fun _ => refl_of QuietStep k) fun _ =>
      .outOfBounds fun hin => hpid (hin ⟨sidx, ?_, ?_⟩)
    · exact List.mem_range.mp (List.mem_of_find?_eq_some hfind)
    · simpa using List.find?_some hfind

theorem virtToPhysPid_handled {pid : PID} {vaddr : Nat} (hclear : Cleared k (.virtToPhysPid pid vaddr)) (tid : TID) :
    Handled (.virtToPhysPid pid vaddr) (dispatch tid (.virtToPhysPid pid vaddr)) k := by
  simp only [dispatch]
  by_cases hpid : pid.get ≤ maxProcessCount
  · exact handled_inRoom hb hpid (Follows.bind process_quietly (fun _ =>
      (quiet_code.virtToPhys _ _).bind fun _ => Follows.pure _) k) (.bind fun _ => .bind fun _ => .pure _)
  · refine handled_of_results ?_
    rw [post_bind]
    exact post_process (fun _ _ hle => absurd hle hpid) (fun _ => refl_of QuietStep k) fun _ =>
      .outOfBounds fun hin => hpid (hin hclear)

theorem allowMessagesCID_handled {pid : PID} {cid : CID} {messages : MessageRange}
    (hclear : Cleared k (.allowMessagesCID pid cid messages)) (tid : TID) :
    Handled (.allowMessagesCID pid cid messages) (dispatch tid (.allowMessagesCID pid cid messages)) k := by
  refine handled_inRoom hb hclear (allowMessagesCID_quietly tid pid cid messages k) ?_
  refine .ite (.throw _) (.bind fun p => ?_)
  split
  · exact .bind fun _ => .bind fun _ => .pure _
  · exact .throw _

theorem mirrorMemoryToPid_handled (tid : TID) (mem : MemoryRange) (pid : PID) :
    Handled (.mirrorMemoryToPid mem pid) (dispatch tid (.mirrorMemoryToPid mem pid)) k := by
  simp only [dispatch]
  by_cases hpid : pid.get ≤ maxProcessCount
  · exact handled_inRoom hb hpid (Follows.bind (mirrorMemoryToPid_quietly mem pid)
      (fun _ => Follows.pure _) k) (.bind fun _ => .pure _)
  · -- the pages are looked up first
    refine handled_of_results ?_
    unfold mirrorMemoryToPid
    rw [post_bind, post_bind, post_get, post_bind, post_virtToPhys]
    refine ⟨fun memPhys hphys => ?_, fun _ _ => refl_of QuietStep k⟩
    rw [post_bind, Exec.post_assert]
    refine ⟨fun hno => ?_, fun _ => .of_unfollowed (by decide)⟩
    refine post_seq contiguous_of_loop ?_ ?_ fun _ h => h.elim
    · rintro _ _ ⟨rfl, hall⟩
      rw [post_bind]
      refine post_process (fun _ _ hle => absurd hle hpid) (fun _ => refl_of QuietStep _) fun _ =>
        .outOfBounds fun hin => hpid (hin ⟨of_decide_eq_true hno, memPhys, hphys, fun i hi => ?_⟩)
      exact hall i (List.mem_range.mpr hi)
    · rintro _ _ rfl
      exact refl_of QuietStep _

/-! ## 2. Calls of the running process about itself -/

theorem futexWake_handled (tid : TID) (addr n : Nat) :
    Handled (.futexWake addr n) (dispatch tid (.futexWake addr n)) k := by
  refine handled_home hb trivial ?_ (.bind fun _ => .bind fun _ => .pure _)
  have htids : ∀ tid ∈ List.range' 1 (maxThreadCount - 1), 1 ≤ tid ∧ tid < maxThreadCount := by
    intro tid htid
    rw [List.mem_range'_1] at htid
    exact ⟨htid.1, Nat.lt_of_lt_of_le htid.2 (by decide)⟩
  simp only [QuietlyAt, dispatch, post_bind, post_get, post_pure]
  exact futexWakeFrom_quietly addr _ n k hb htids

theorem virtToPhys_handled (tid : TID) (vaddr : Nat) :
    Handled (.virtToPhys vaddr) (dispatch tid (.virtToPhys vaddr)) k := by
  refine handled_home hb trivial ?_ (.bind fun _ => .bind fun _ => .pure _)
  simp only [QuietlyAt, dispatch]
  rw [post_bind, post_get]
  exact Follows.bind (quiet_code.virtToPhys _ _) (fun _ => Follows.pure _) k

theorem acquireInputFocus_handled (tid : TID) (sid : SID) :
    Handled (.acquireInputFocus sid) (dispatch tid (.acquireInputFocus sid)) k := by
  refine handled_home hb trivial ?_ (.bind fun _ => .bind fun _ => .pure _)
  simp only [QuietlyAt, dispatch]
  rw [post_bind, post_get]
  exact Follows.bind (acquireInputFocus_quietly _ sid) (fun _ => Follows.pure _) k

theorem registerEventHandler_handled (tid : TID) (event : SystemEvent) (sid : SID)
    (id : MessageId) : Handled (.registerEventHandler event sid id)
      (dispatch tid (.registerEventHandler event sid id)) k := by
  refine handled_home hb trivial ?_ (.bind fun _ => .bind fun _ => .ite (.throw _) (.bind fun _ => .pure _))
  simp only [QuietlyAt, dispatch]
  rw [post_bind, post_get]
  refine quietly_currentProcess fun p hp => ?_
  split
  · exact refl_of QuietStep k
  · rw [post_bind, post_setProcess, post_pure]
    exact quietStep_putProcess hp rfl rfl rfl rfl rfl rfl

theorem pollEvent_handled (tid : TID) : Handled .pollEvent (dispatch tid .pollEvent) k := by
  refine handled_home hb trivial ?_ (.bind fun _ => .bind fun _ => .bind fun _ => .pure _)
  simp only [QuietlyAt, dispatch]
  rw [post_bind, post_get]
  refine quietly_currentProcess fun p hp => ?_
  rw [post_bind, post_setProcess, post_pure]
  exact quietStep_putProcess hp rfl rfl rfl rfl rfl rfl

theorem postEvent_handled (tid : TID) (pid : PID) (bits : BitVec 64) :
    Handled (.postEvent pid bits) (dispatch tid (.postEvent pid bits)) k := by
  refine handled_home hb trivial ?_ (.bind fun _ => .ite (.pure _) (.ite (.throw _) (.bind fun _ => .pure _)))
  simp only [QuietlyAt, dispatch]
  rw [post_bind, post_get]
  split
  · exact refl_of QuietStep k
  · split
    · exact refl_of QuietStep k
    next hpid =>
      have hle : pid.get ≤ maxProcessCount := by
        rw [not_not.mp hpid]
        exact hb.pids _ hb.running
      refine post_seq (post_and (notify_quiet pid bits k) (Exec.post_of_wp (notify_settled pid bits k))) ?_ ?_ ?_
      · exact fun _ _ h => ⟨h.1, h.2.atHome⟩
      · exact fun _ _ h => h.1 ▸ refl_of QuietStep k
      · rintro msg ⟨⟨hbl, -⟩, -⟩
        exact ⟨k, refl_of QuietStep k, (hbl hle).1, fun hm hb hp _ => (hbl hle).2 hm ⟨hb, hp⟩⟩

end

/-! ## 3. Permissions -/

theorem permittedByMask_post {Q : Unit → Kernel → Prop} {E : Error → Kernel → Prop}
    {F : String → Prop} {n : Nat} (hok : Permitted k n → Q () k) (herr : E .accessDenied k)
    (hpanic : ∀ msg, (msg ∈ tableMessages → ¬ k.currentPid.get ≤ maxProcessCount) →
      msg ≠ parkMessage → F msg) : post (permittedByMask n) Q E F k := by
  unfold permittedByMask
  rw [post_bind]
  refine post_currentProcess (fun p hp => ?_) hpanic
  split
  · exact hok ⟨p, hp, ‹_›⟩
  · exact herr

/-- **The permission check changes nothing**, and goes wrong for a process id out of range only. -/
theorem checkSyscallPermission_post (hb : Basic k.ipc) (call : SysCall) :
    post (checkSyscallPermission call) (fun _ k' => k' = k ∧ Cleared k call)
      (fun _ k' => k' = k) (CallBlame (InRange k call) k) k := by
  have hpanic : ∀ msg, (msg ∈ tableMessages → ¬ k.currentPid.get ≤ maxProcessCount) →
      msg ≠ parkMessage → CallBlame (InRange k call) k msg := fun msg hm hmsg =>
    ⟨fun heq => absurd heq hmsg, fun h => absurd (hb.pids _ hb.running) (hm h)⟩
  cases call with
  | setThreadPriority priority =>
    refine (post_mono (Q := fun _ k' => k' = k) ?_ (fun _ _ h => ⟨h, trivial⟩) (fun _ _ h => h) fun _ h => h)
    simp only [checkSyscallPermission]
    split
    · rfl
    · exact permittedByMask_post (fun _ => rfl) rfl hpanic
  | createProcess | shutdown | virtToPhys | spawnByName | spawnByNameWithArgs =>
    exact permittedByMask_post (fun _ => ⟨rfl, trivial⟩) rfl hpanic
  | virtToPhysPid | terminatePid | waitProcess =>
    exact permittedByMask_post (fun h => ⟨rfl, h⟩) rfl hpanic
  | allowMessagesSID sid messages =>
    simp only [checkSyscallPermission]
    rw [post_bind, post_get]
    split
    · exact ⟨rfl, trivial⟩
    · exact permittedByMask_post (fun _ => ⟨rfl, trivial⟩) rfl hpanic
  | allowMessagesCID pid cid messages =>
    simp only [checkSyscallPermission]
    rw [post_bind, post_get, post_bind]
    refine post_process (fun p hp hle => ?_) (fun _ => rfl) fun hle => .outOfBounds hle
    rw [post_bind, Exec.post_ofExcept]
    refine ⟨fun slot hslot => ?_, fun _ _ => rfl⟩
    cases slot with
    | free | tombstone _ => rfl
    | connected sidx r perms =>
      have hlt : sidx < maxServerCount := by
        refine hb.wired pid (cid - 2) sidx r perms ?_
        rw [ipc_connections hp]
        exact connection_eq_ok hslot
      rw [post_bind, post_serverFromSidx hlt, post_bind, Exec.post_okOr]
      refine ⟨fun s hs => ?_, fun _ => rfl⟩
      split
      · exact ⟨rfl, hle⟩
      · exact permittedByMask_post (fun _ => ⟨rfl, hle⟩) rfl hpanic
  | _ => exact ⟨rfl, trivial⟩

/-! ## 4. Everything -/

theorem handled_pure (r : Result) : Handled call (pure (.result r)) k :=
  handled_of_results ⟨⟨r, rfl⟩, refl_of QuietStep k⟩

/-- **Every handler does what `Stays` and `Yields` say.** -/
theorem dispatch_handled (hb : Basic k.ipc) (call : SysCall) (hclear : Cleared k call) :
    Handled call (dispatch k.currentTid call) k := by
  cases call with
  | mapMemory phys virt size flags =>
    exact handled_result hb trivial (Follows.get.bind fun _ => .ite (fun _ => Follows.throw _) fun _ =>
      .ite (fun _ => Follows.throw _) fun _ => .ite (fun _ => Follows.throw _) fun _ =>
        (mapRange_quietly _ _ _ _ _).bind fun _ => Follows.pure _)
  | unmapMemory range => exact handled_result hb trivial ((checkRangeAccessible_quietly range).bind fun _ =>
      (unmapRange_quietly _ _).bind fun _ => Follows.pure _)
  | increaseHeap size => exact handled_result hb trivial (.ite (fun _ => Follows.throw _) fun _ =>
      (mapRange_quietly _ _ _ _ _).bind fun _ => Follows.pure _)
  | futexWait addr val => exact futexWait_handled hb addr val
  | futexWake addr n => exact futexWake_handled hb _ addr n
  | yield => exact yield_handled hb
  | setThreadPriority priority => exact setThreadPriority_handled hb priority
  | receiveMessage sid | tryReceiveMessage sid => exact receiveMessage_handled hb sid _ trivial
  | createThread init => exact createThread_handled hb init
  | createProcess image => exact createProcess_handled hb image
  | createServerWithAddress sid range => exact createServer_handled hb (by trivial) sid range
  | createServer sid => exact createServer_handled hb (by trivial) sid ⟨0, 0⟩
  | createServerId sid => exact handled_pure _
  | connect sid | tryConnect sid =>
    simp only [dispatch]
    exact connect_handled hb sid
  | connectForProcess pid sid => exact connectForProcess_handled hb _ pid sid
  | disconnect cid => exact handled_result hb trivial (disconnectFromServer_quietly cid)
  | sendMessage cid m => exact sendMessage_handled hb cid m
  | trySendMessage cid m =>
    exact post_mono (sendMessage_post _ hb cid m) (fun _ _ h => ⟨h.1.1 ▸ h.1.2, h.2⟩) (fun _ _ h => stays_quiet h)
      fun _ h => h
  | returnMemory sender buf offset valid => exact returnMemoryCall_handled hb sender buf offset valid
  | returnScalar1 sender arg => exact returnResult_handled hb sender _ (.scalar1 sender arg) id
  | returnScalar2 sender arg1 arg2 =>
    exact returnResult_handled hb sender _ (.scalar2 sender arg1 arg2) id
  | returnScalar5 sender arg1 arg2 arg3 arg4 arg5 =>
    exact returnResult_handled hb sender _ (.scalar5 sender arg1 arg2 arg3 arg4 arg5) id
  | terminateProcess ret => exact terminateProcess_handled hb ret
  | terminatePid pid exitCode => exact terminatePid_handled hb hclear
  | shutdown => exact CallBlame.of_unfollowed (by decide)
  | getProcessId => exact handled_pure _
  | getThreadId => exact handled_pure _
  | destroyServer sid => exact destroyServer_handled hb sid
  | joinThread tid => exact joinThread_handled hb tid
  | getRemoteProcessId cid => exact getRemoteProcessId_handled hb _ cid
  | updateMemoryFlags pid =>
    simp only [dispatch]
    split
    · exact handledFrom_throw (refl_of QuietStep k) _
    · exact CallBlame.of_unfollowed (by decide)
  | virtToPhys vaddr => exact virtToPhys_handled hb _ vaddr
  | virtToPhysPid pid vaddr => exact virtToPhysPid_handled hb hclear _
  | allowMessagesSID sid messages => exact allowMessagesSID_handled hb _ sid messages
  | allowMessagesCID pid cid messages => exact allowMessagesCID_handled hb hclear _
  | mirrorMemoryToPid mem pid => exact mirrorMemoryToPid_handled hb _ mem pid
  | registerEventHandler event sid id => exact registerEventHandler_handled hb _ event sid id
  | spawnByName binary => exact spawned_handled hb (spawnByName_post hb binary)
  | spawnByNameWithArgs binary argvPtr argvLen =>
    exact spawned_handled hb (spawnByNameWithArgs_post hb binary argvPtr argvLen)
  | waitProcess pid => exact waitProcess_handled hb hclear
  | waitEvent mask => exact waitEvent_handled hb mask
  | pollEvent => exact pollEvent_handled hb _
  | postEvent pid bits => exact postEvent_handled hb _ pid bits
  | acquireDisplay => exact acquireDisplay_handled hb
  | releaseDisplay row col => exact releaseDisplay_handled hb row col
  | acquireInputFocus sid => exact acquireInputFocus_handled hb _ sid
  | releaseInputFocus =>
    exact handled_result hb trivial (quietly_modify (fun _ => rfl) fun _ => id)
  | other response => exact handled_result hb trivial (Follows.ofExcept response)

/-- **Every system call**, from the permission check on. -/
theorem handle_handled (hb : Basic k.ipc) (call : SysCall) : Handled call (handle k.currentTid call) k := by
  unfold handle
  rw [Handled, post_bind]
  refine post_mono (checkSyscallPermission_post hb call) ?_ ?_ fun _ h => h
  · rintro _ _ ⟨rfl, hclear⟩
    exact dispatch_handled hb call hclear
  · rintro _ _ rfl
    exact ⟨.quiet (.refl _), id⟩

end BeetKernel.Kernel

/-
# What waking threads and handing messages over leave alone

Changing the state of a thread touches the process table and the scheduler, and nothing else.

Handing a message or a result over may need another process's registers or its queue page, so
the kernel goes there and comes BACK: the same process runs, in its own mapping or in the one
it had.
-/
import BeetKernel.Kernel.ThreadCode

namespace BeetKernel.Kernel

open Exec (Along wp_bind wp_mono wp wp_seq)

/-- Only the process table and the scheduler may differ. -/
def OnlyThreads (k k' : Kernel) : Prop :=
  k' = { k with processes := k'.processes, scheduler := k'.scheduler }

instance : IsPreorder Kernel OnlyThreads where
  refl _ := rfl
  trans k1 k2 k3 h1 h2 := by
    unfold OnlyThreads at *
    rw [h2, h1]

theorem onlyThreads_code : ThreadCode (fun _ m => Along OnlyThreads m) (AlongWith OnlyThreads) :=
  ThreadFrame.code ⟨fun _ _ => rfl, fun _ _ => rfl⟩

/-! ## 2. The running process and its mapping -/

/-- The same process runs, in the mapping it had or in its own. -/
def Settled (k k' : Kernel) : Prop :=
  k'.currentPid = k.currentPid ∧ (k'.activeMapping = k.activeMapping ∨ k'.activeMapping = k.currentPid)

instance : IsPreorder Kernel Settled where
  refl _ := ⟨rfl, .inl rfl⟩
  trans k1 k2 k3 h1 h2 := by
    refine ⟨h2.1.trans h1.1, ?_⟩
    rcases h2.2 with h | h
    · rw [h]
      exact h1.2
    · exact .inr (h.trans h1.1)

/-- The kernel works in the mapping of the process it runs for. -/
def AtHome (k : Kernel) : Prop := k.activeMapping = k.currentPid

theorem Settled.atHome {k k' : Kernel} (h : Settled k k') (hk : AtHome k) : AtHome k' := by
  unfold AtHome
  rw [h.1]
  rcases h.2 with h | h
  · rw [h]
    exact hk
  · exact h

theorem OnlyThreads.settled {k k' : Kernel} (h : OnlyThreads k k') : Settled k k' := by
  rw [h]
  exact ⟨rfl, .inl rfl⟩

theorem settled_code : ThreadCode (fun _ m => Along Settled m) (AlongWith Settled) :=
  ThreadFrame.code ⟨fun _ _ => ⟨rfl, .inl rfl⟩, fun _ _ => ⟨rfl, .inl rfl⟩⟩

theorem setSavedResult_pids (t : ThreadId) (r : Result) (k : Kernel) :
    (setSavedResult t r k).currentPid = k.currentPid ∧ (setSavedResult t r k).activeMapping = k.activeMapping := by
  unfold setSavedResult
  split
  · exact ⟨rfl, rfl⟩
  · split <;> exact ⟨rfl, rfl⟩

theorem modifySavedResult_settled (t : ThreadId) (r : Result) :
    Along Settled (Exec.modify (setSavedResult t r) : KExec Unit) := by
  refine Along.modify fun k => ?_
  obtain ⟨hpid, hmap⟩ := setSavedResult_pids t r k
  exact ⟨hpid, .inl hmap⟩

theorem setThreadResult_settled (t : ThreadId) (r : Result) : Along Settled (setThreadResult t r) := by
  refine Along.get_bind fun k => ?_
  split
  · exact modifySavedResult_settled t r k
  · refine wp_seq (settled_code.process t.1 k) (fun _ k1 _ => ?_) fun _ _ h => h
    simp only [wp_bind, Exec.wp_unwrap, activate, Exec.wp_modify]
    unfold wp
    split
    · exact ⟨rfl, .inr rfl⟩
    · trivial
    · trivial

/-! ### Servers -/

theorem withServer_settled {α : Type} (sidx : Nat) (m : Exec Server Error α) : Along Settled (withServer sidx m) := by
  refine (settled_code.serverFromSidx _).bind fun _ => (Along.expect _ _).bind fun s k => ?_
  rw [Exec.wp_zoom, wp]
  cases m s with
  | ok a s' => exact ⟨rfl, .inl rfl⟩
  | err e s' => exact ⟨rfl, .inl rfl⟩
  | panic msg => trivial

theorem withQueue_settled {α : Type} (sidx : Nat) (m : Exec Server Error α) : Along Settled (withQueue sidx m) :=
  settled_code.withQueue (withServer_settled sidx m)

/-- A detour through another mapping that ends in the one of the running process. -/
theorem detour_settled {α : Type} {m : KExec α} (hm : Along Settled m) {pid back : PID}
    {msg : String} {k : Kernel} (hback : back = k.currentPid) :
    wp (do
      let _ ← process pid
      activateMapping pid
      let result ← Exec.attempt m
      let _ ← Exec.unwrap (process back) msg
      activateMapping back
      Exec.ofExcept result) (fun _ k' => Settled k k') (fun _ k' => Settled k k') k := by
  subst hback
  refine wp_seq (settled_code.process pid k) (fun _ k1 hk1 => ?_) fun _ _ h => h
  simp only [wp_bind, Exec.wp_attempt, Exec.wp_unwrap, activateMapping, Exec.wp_modify, Exec.wp_ofExcept]
  -- whatever happened on the way, the running process is still the same one
  have hend : ∀ {β : Type} (r : Except Error β) (k2 : Kernel), k2.currentPid = k.currentPid → wp (process k.currentPid)
        (fun _ k3 => (∀ a, r = .ok a → Settled k { k3 with activeMapping := k.currentPid }) ∧
          ∀ e, r = .error e → Settled k { k3 with activeMapping := k.currentPid })
        (fun _ _ => True) k2 := by
    intro β r k2 hk2
    refine wp_mono (settled_code.process k.currentPid k2) (fun _ k3 hk3 => ?_) fun _ _ _ => trivial
    have hpid : k3.currentPid = k.currentPid := hk3.1.trans hk2
    exact ⟨fun _ _ => ⟨hpid, .inr rfl⟩, fun _ _ => ⟨hpid, .inr rfl⟩⟩
  have hk1' : k1.currentPid = k.currentPid := hk1.1
  exact wp_mono (hm { k1 with activeMapping := pid }) (fun a k2 hk2 => hend (.ok a) k2 (hk2.1.trans hk1'))
    fun e k2 hk2 => hend (.error e : Except Error α) k2 (hk2.1.trans hk1')

theorem lookup_settled {α : Type} {sidx : Nat} {m : Server → KExec α} {k : Kernel}
    (hm : ∀ s k', Settled k k' → wp (m s) (fun _ k'' => Settled k k'') (fun _ k'' => Settled k k'') k') :
    wp (do let s ← Exec.okOr .serverNotFound (← serverFromSidx sidx); m s)
      (fun _ k' => Settled k k') (fun _ k' => Settled k k') k := by
  refine wp_seq (settled_code.serverFromSidx sidx k) (fun s k1 hk1 => ?_) fun _ _ h => h
  rw [wp_bind, Exec.wp_okOr]
  exact ⟨fun s' _ => hm s' k1 hk1, fun _ => hk1⟩

theorem queueServerMessage_settled (sidx : Nat) (pid : PID) (tid : TID) (message : Message)
    (originalAddress : Option MemoryAddress) :
    Along Settled (queueServerMessage sidx pid tid message originalAddress) :=
  Along.get_bind fun _ => lookup_settled fun _ _ hk =>
    wp_mono (detour_settled (withQueue_settled sidx _) hk.1.symm)
      (fun _ _ h => trans_of Settled hk h) fun _ _ h => trans_of Settled hk h

theorem rememberServerMessage_settled {sidx : Nat} {tid : TID} {message : Message}
    {clientAddress : Option MemoryAddress} {pid : PID} {k : Kernel} (hpid : pid = k.currentPid) :
    wp (rememberServerMessage sidx pid tid message clientAddress)
      (fun _ k' => Settled k k') (fun _ k' => Settled k k') k :=
  lookup_settled fun _ _ hk =>
    wp_mono (detour_settled (withQueue_settled sidx _) (hpid.trans hk.1.symm))
      (fun _ _ h => trans_of Settled hk h) fun _ _ h => trans_of Settled hk h

/-! ### Delivery and events -/

theorem handOver_settled (t : ThreadId) (envelope : MessageEnvelope) : Along Settled (handOver t envelope) :=
  settled_code.handOver (setThreadResult_settled t) envelope

theorem wakeThreadWithResult_settled (t : ThreadId) (r : Result) : Along Settled (wakeThreadWithResult t r) :=
  settled_code.wakeThreadWithResult (setThreadResult_settled t) r

theorem notify_settled (pid : PID) (bits : BitVec 64) : Along Settled (notify pid bits) :=
  settled_code.notify (fun _ => setThreadResult_settled _) bits

theorem setServer_settled (sidx : Nat) (s : Option Server) : Along Settled (setServer sidx s) :=
  Along.modify fun _ => ⟨rfl, .inl rfl⟩

theorem deliverMessage_settled (tid : TID) (sidx : Nat) (message : Message) (clientAddress : Option MemoryAddress) :
    Along Settled (deliverMessage tid sidx message clientAddress) := by
  refine Along.get_bind fun k => ?_
  refine wp_seq (settled_code.serverFromSidx sidx k) (fun s k1 hk1 => ?_) fun _ _ h => h
  rw [wp_bind, Exec.wp_expect]
  intro s' _
  split
  next serverTid s'' _ =>
    refine wp_seq (Along.after hk1 (setServer_settled _ _)) (fun _ k2 hk2 => ?_) fun _ _ h => h
    dsimp only
    split
    · simp only [wp_bind, Exec.wp_attempt]
      refine wp_mono (rememberServerMessage_settled hk2.1.symm) (fun _ k3 hk3 => ?_) fun _ k3 hk3 => ?_
      · exact Along.after (trans_of Settled hk2 hk3) (handOver_settled _ _)
      · exact wp_mono (Along.after (trans_of Settled hk2 hk3) (withServer_settled _ _)) (fun _ _ h => h) fun _ _ h => h
    · exact Along.after hk2 (handOver_settled _ _)
  · exact Along.after hk1 ((queueServerMessage_settled _ _ _ _ _).bind fun _ =>
      (notify_settled _ _).unwrap _)

theorem sendEvent_settled (pid : PID) (event : SystemEvent) (arg : Nat) : Along Settled (sendEvent pid event arg) :=
  settled_code.sendEvent (fun _ _ => deliverMessage_settled _ _ _ _) pid event arg

theorem broadcastEvent_settled (event : SystemEvent) (arg : Nat) : Along Settled (broadcastEvent event arg) :=
  settled_code.broadcastEvent (fun _ _ => deliverMessage_settled _ _ _ _) event arg

theorem deliverCharToSid_settled (sid : SID) (c : UInt8) : Along Settled (deliverCharToSid sid c) := by
  refine .read fun k => ?_
  split
  · exact Along.pure _
  · refine (settled_code.serverFromSidx _).bind fun _ => (Along.expect _ _).bind fun s => ?_
    split
    · refine (setServer_settled _ _).bind fun _ => Along.ite (fun _ => ?_) fun _ =>
        (setThreadResult_settled _ _).ignore
      exact (settled_code.takeKernelFuture _).bind fun _ =>
        (settled_code.setThreadState _ _).bind fun _ => (setThreadResult_settled _ _).ignore
    · exact (queueServerMessage_settled _ _ _ _ _).ignore.bind fun _ =>
        Along.ite (fun _ => notify_settled _ _) fun _ => Along.pure _

/-! ## 3. Code that changes page tables only -/

/-- Nothing but page tables differs. -/
def OnlyTables (k k' : Kernel) : Prop := k' = { k with pageTables := k'.pageTables }

instance : IsPreorder Kernel OnlyTables where
  refl _ := rfl
  trans k1 k2 k3 h1 h2 := by
    unfold OnlyTables at *
    rw [h2, h1]

theorem process_onlyTables (pid : PID) : Along OnlyTables (process pid) :=
  (Along.assert _ _).bind fun _ => .read fun _ => Along.okOr _ _

theorem returnPages_onlyTables (srcPid : PID) (src : Nat) : ∀ n i error,
    Along OnlyTables (returnPages srcPid src i n error)
  | 0, _, _ => Along.pure _
  | n + 1, i, error => by
    have hunmap : ∀ va, Along OnlyTables (unmapPte srcPid va) := fun _ =>
      .read fun _ => (Along.ofExcept _).bind fun _ => Along.modify fun _ => rfl
    refine (hunmap _).attempt.bind fun r => ?_
    cases r with
    | ok _ => exact returnPages_onlyTables srcPid src n (i + 1) error
    | error e => exact returnPages_onlyTables srcPid src n (i + 1) (some e)

/-- The lender never lost its mapping, so only the borrower's tables change. -/
theorem returnMemory_onlyTables (src : Nat) (destPid : PID) (dest len : Nat) :
    Along OnlyTables (returnMemory src destPid dest len) := by
  refine .read fun _ => .ite (fun _ => Along.throw _) fun _ =>
    .ite (fun _ => Along.pure _) fun _ => ?_
  refine (process_onlyTables _).bind fun _ => (process_onlyTables _).bind fun _ =>
    (returnPages_onlyTables _ _ _ _ _).bind fun r => ?_
  cases r with
  | none => exact Along.pure _
  | some e => exact Along.throw _

end BeetKernel.Kernel

/-
# Giving the display or a server up, as moves

The display passes to the first waiter whose process still exists.  A server that is destroyed
leaves the table first and is taken apart afterwards, thread by thread; then everybody who was
connected to it is disconnected.
-/
import BeetKernel.Ipc.Creation

namespace BeetKernel.Kernel

open Ipc
open Exec (Along Follows post_and post_bind post_get post_mono post_of_wp post_unwrap wp_bind
  wp_mono wp_of_post wp unwrap Sure)

variable {k k' k₀ : Kernel} {P : Kernel → Prop} {call : SysCall}
variable {i j : Ipc} {s : Server} {pid : PID} {sidx : Nat}

/-! ## 1. The display -/

/-- A panic after harmless steps from `k`. -/
abbrev Aborts (k : Kernel) (msg : String) : Prop := ∃ k', StepBy Harmless k k' ∧ Untidy AtHome msg k'

theorem handDisplayOver_post (row col : Nat) (hb : Basic k₀.ipc) (hk : QuietStep k₀ k) :
    ∀ (ws old : List ThreadId), k₀.ipc.waiters = old ++ ws → (∀ u ∈ old, k₀.ipc.parent u.1 = none) →
    Exec.post (handDisplayOver row col ws)
      (fun _ k' => Passes k₀.ipc k'.ipc ∧ (AtHome k₀ → AtHome k')) (fun _ _ => False)
      (Aborts k₀) k
  | [], old, hw, hold => by
    have hframe := quiet_frame hk.1
    refine ⟨.nobody ((hk.1.mono fun _ hl => .inl hl).trans (.single (.inr rfl) (.leave List.nil_suffix))), hk.2⟩
  | t :: rest, old, hw, hold => by
    have hframe := quiet_frame hk.1
    unfold handDisplayOver
    rw [post_bind, Exec.post_attempt]
    refine post_process (fun p hp _ => ?_) (fun hnone => ?_) fun hle => ?_
    · have ht : k₀.ipc.parent t.1 ≠ none := hframe.parent ▸ ipc_parent_ne_none hp
      have hsuffix : rest <:+ k.ipc.waiters := by
        rw [hframe.waiters, hw]
        exact ⟨old ++ [t], by simp⟩
      have hleave : StepBy Harmless k { k with
          display := { k.display with waiters := rest, owner := some t } } :=
        .of_move (.leave hsuffix) ⟨trivial, by simp⟩ id
      dsimp only
      rw [post_bind, Exec.post_modify, post_bind]
      refine (mapFbFor_sure _).post (post_mono (mapFbFor_quietly (P := AtHome) t.1 _)
        (fun _ k2 h2 => ?_) (fun _ _ _ => trivial) ?_)
      · have hstep : StepBy Harmless k₀ k2 := trans_of (StepBy _) hk.harmless (trans_of (StepBy _) hleave h2.harmless)
        refine post_mono (post_and (wakeThreadWithResult_post t _ k2)
          (post_of_wp (wakeThreadWithResult_settled t _ k2))) ?_ (fun _ _ h => h.1) ?_
        · rintro _ k3 ⟨ha, hset⟩
          exact ⟨.first hw hold ht hk.1 rfl h2.1 (.display ha), fun hh => hset.atHome (hstep.2 hh)⟩
        · rintro msg ⟨⟨hmsg, hbl⟩, -⟩
          refine ⟨k, hk.harmless, hmsg, fun hm hb hp _ => ?_⟩
          have hb2 : Basic k2.ipc := quiet_basic h2.1 (hb.move (.leave hsuffix) (by simp))
          refine hbl hm hb2.linked (hb2.pids _ hb2.running) (hp.waiters t ?_)
          rw [hframe.waiters, hw]
          simp
      · exact fun msg h => h.imp fun k' h =>
          ⟨trans_of (StepBy _) hk.harmless (trans_of (StepBy _) hleave h.1.harmless), h.2⟩
    · refine handDisplayOver_post row col hb hk rest (old ++ [t]) (by simpa using hw) ?_
      intro u hu
      rcases List.mem_append.mp hu with hu | hu
      · exact hold u hu
      · rw [List.mem_singleton.mp hu, ← hframe.parent]
        exact ipc_parent hnone
    · refine ⟨k, hk.harmless, by decide, fun _ _ hp _ => hle ?_⟩
      have hmem : t ∈ k.ipc.waiters := by
        rw [hframe.waiters, hw]
        simp
      exact (hp.waiters t hmem).1

theorem releaseDisplay_post (hb : Basic k.ipc) (row col : Nat) : Exec.post (releaseDisplay row col)
      (fun _ k' => Passes k.ipc k'.ipc ∧ (AtHome k → AtHome k')) (fun _ _ => False)
      (Aborts k) k := by
  unfold releaseDisplay
  rw [post_bind, post_get]
  dsimp only
  split
  · have hset : QuietStep k { k with display := { k.display with
        owner := none, cursorRow := row, cursorCol := col } } := ⟨.refl _, id⟩
    rw [post_bind, setDisplay, Exec.post_modify, post_bind]
    refine (Sure.get.bind fun _ => .ite (.each fun _ _ => .ignore _) (.pure ())).post (post_mono (Follows.after hset
      (unmapFbFor_quietly (P := AtHome) k.currentPid)) (fun _ k1 h1 => ?_) (fun _ _ _ => trivial) ?_)
    · exact handDisplayOver_post row col hb h1 k.display.waiters [] rfl (by simp)
    · exact fun msg h => h.imp fun k' h => ⟨h.1.harmless, h.2⟩
  · exact ⟨.nobody (.refl _), id⟩

theorem releaseDisplayOnExit_post (hb : Basic k.ipc) (pid : PID) : Exec.post (releaseDisplayOnExit pid)
      (fun _ k' => Passes k.ipc k'.ipc ∧ (AtHome k → AtHome k')) (fun _ _ => False)
      (Aborts k) k := by
  unfold releaseDisplayOnExit
  rw [post_bind, post_get]
  dsimp only
  split
  · have hset : QuietStep k { k with display := { k.display with
        owner := none, inputSid := none } } := ⟨.refl _, id⟩
    exact handDisplayOver_post _ _ hb hset k.display.waiters [] rfl (by simp)
  · exact ⟨.nobody (.refl _), id⟩

theorem releaseDisplay_handled (hb : Basic k.ipc) (row col : Nat) :
    Handled (.releaseDisplay row col) (dispatch k.currentTid (.releaseDisplay row col)) k := by
  simp only [dispatch]
  rw [Handled, post_bind]
  refine post_mono (releaseDisplay_post hb row col) (fun _ k' h => ⟨.display trivial h.1, h.2⟩) (fun _ _ h => h.elim) ?_
  rintro msg ⟨k', hk', hun⟩
  exact .of_home (fun _ => id) hb hk' hun

/-! ## 2. Servers -/

theorem Closing.harmless (l : Label) (h : Closing s l) : Harmless l := by
  rcases h with rfl | ⟨t, rfl, -⟩ <;> exact ⟨trivial, by simp⟩

theorem StepBy.closing (h : QuietStep k k') : StepBy (Closing s) k k' := ⟨h.1.mono fun _ hl => .inl hl, h.2⟩

/-- What taking a server apart relies on. -/
def Sensible (s : Server) (k : Kernel) : Prop := AtHome k ∧ ∀ t, Mentions s t → IsUser t

/-- The result of a thread may be written before or after it is made ready. -/
theorem setState_deliver {t : ThreadId} {st : ThreadState} (h : SetState t st i j)
    (r : Result) : SetState t st (i.deliver t r) (j.deliver t r) := by
  have hj : j.deliver t r = { j with context := (i.deliver t r).context } := by
    unfold Ipc.deliver
    simp only [h.context]
  rw [hj]
  exact SetState.withContext h _

theorem closing_pid (h : Ipc.Does (Closing s) i j) : j.pid = i.pid := by
  refine h.invariant (P := fun j => j.pid = i.pid) (fun l a b hl hm ha => ?_) rfl
  rcases hl with rfl | ⟨t, rfl, -⟩
  · exact (quiet_frame (.single rfl hm)).pid.trans ha
  · cases hm with
    | release hs => exact hs.pid.trans ha

section Release

variable {s : Server} {t : ThreadId}

theorem release_step (hm : Mentions s t)
    (h : SetState t .ready (i.deliver t (.error .serverNotFound)) j) : Ipc.Does (Closing s) i j :=
  .single (.inr ⟨t, rfl, hm⟩) (.release h)

/-- A thread that was blocked at the server is made ready, with an error in its registers. -/
theorem resultThenReady_acts (hm : Mentions s t) : Acts (Closing s) (Sensible s) (do
      unwrap (setThreadResult t (.error .serverNotFound)) "no such process"
      unwrap (setThreadState t .ready) "no such process") := by
  intro k
  have hpanic : ∃ k', StepBy (Closing s) k k' ∧ Untidy (Sensible s) "no such process" k' :=
    ⟨k, refl_of (StepBy _) k, .of_unfollowed (by decide) k⟩
  rw [post_bind, post_unwrap]
  refine post_mono (post_and (setThreadResult_post t _ k)
    (post_of_wp (setThreadResult_settled t _ k))) ?_ (fun _ _ _ => hpanic) ?_
  · rintro _ k1 ⟨⟨hdel, -⟩, hset1⟩
    rw [post_unwrap]
    refine post_mono (post_and (setThreadState_post t .ready k1) (post_of_wp
      (settled_code.setThreadState t .ready k1))) ?_ (fun _ _ _ => hpanic) ?_
    · rintro _ k2 ⟨⟨hs, -⟩, hset2⟩
      rw [hdel] at hs
      exact ⟨release_step hm hs, fun hh => hset2.atHome (hset1.atHome hh)⟩
    · rintro msg ⟨⟨hmsg, hbl⟩, -⟩
      refine ⟨k, refl_of (StepBy _) k, hmsg, fun htab hb _ hP => hbl htab ?_ (hP.2 t hm)⟩
      rw [hdel]
      exact hb.linked.congr rfl rfl rfl
  · rintro msg ⟨⟨hmsg, hbl⟩, -⟩
    exact ⟨k, refl_of (StepBy _) k, hmsg, fun htab hb _ hP =>
      hbl htab ⟨(hP.2 t hm).1, hb.pids _ hb.running⟩⟩

theorem readyThenResult_acts (hm : Mentions s t) : Acts (Closing s) (Sensible s) (do
      unwrap (setThreadState t .ready) "no such process"
      unwrap (setThreadResult t (.error .serverNotFound)) "no such process") := by
  intro k
  have hpanic : ∃ k', StepBy (Closing s) k k' ∧ Untidy (Sensible s) "no such process" k' :=
    ⟨k, refl_of (StepBy _) k, .of_unfollowed (by decide) k⟩
  rw [post_bind, post_unwrap]
  refine post_mono (post_and (setThreadState_post t .ready k) (post_of_wp
    (settled_code.setThreadState t .ready k))) ?_ (fun _ _ _ => hpanic) ?_
  · rintro _ k1 ⟨⟨hs, -⟩, hset1⟩
    rw [post_unwrap]
    refine post_mono (post_and (setThreadResult_post t _ k1)
      (post_of_wp (setThreadResult_settled t _ k1))) ?_ (fun _ _ _ => hpanic) ?_
    · rintro _ k2 ⟨⟨hdel, -⟩, hset2⟩
      refine ⟨release_step hm ?_, fun hh => hset2.atHome (hset1.atHome hh)⟩
      rw [hdel]
      exact setState_deliver hs _
    · rintro msg ⟨⟨hmsg, hbl⟩, -⟩
      refine ⟨k, refl_of (StepBy _) k, hmsg, fun htab hb _ hP => hbl htab ⟨(hP.2 t hm).1, ?_⟩⟩
      rw [hset1.1]
      exact hb.pids _ hb.running
  · rintro msg ⟨⟨hmsg, hbl⟩, -⟩
    exact ⟨k, refl_of (StepBy _) k, hmsg, fun htab hb _ hP => hbl htab hb.linked (hP.2 t hm)⟩

theorem destroySlot_acts {q : QueuedMessage} (hq : q ∈ s.queue) : Acts (Closing s) (Sensible s) (destroySlot q) := by
  have hslot : ∀ t, q.caller = some t → Mentions s t := fun t ht => by
    obtain ⟨i, hi⟩ := List.getElem?_of_mem hq
    exact .inl ⟨i, by simp [Server.caller, hi, ht]⟩
  have hunmap : ∀ addr len : Nat, Acts (Closing s) (Sensible s)
      (unwrap (unmapRange addr len) "unmap_range failed") := fun addr len =>
    Follows.unwrap (Acts.of_quietly (Acts.mono (unmapRange_quietly _ _) fun _ h => h.1)
      fun _ hl => .inl hl) (Untidy.of_unfollowed (by decide))
  cases q with
  | empty | scalarMessage _ _ _ _ | blockingScalarTerminated _ _ _
  | waitingReturnScalarTerminated => exact Follows.pure ()
  | memoryMessageSend | waitingForget | memoryMessageROLendTerminated
  | memoryMessageRWLendTerminated => exact hunmap _ _
  | blockingScalarMessage pid tid _ _ _ | waitingReturnScalar pid tid =>
    exact resultThenReady_acts (hslot _ rfl)
  | memoryMessageROLend pid tid _ _ _ _ _ _ _ | memoryMessageRWLend pid tid _ _ _ _ _ _ _
  | waitingReturnMemory pid tid _ _ _ =>
    have hm := hslot (pid, tid.toNat) rfl
    refine Follows.bind (Follows.unwrap (Acts.of_quietly (Acts.mono (returnMemory_quietly _ pid _ _)
      fun _ h => ?_) fun _ hl => .inl hl) (Untidy.of_unfollowed (by decide))) fun _ =>
        readyThenResult_acts hm
    exact (h.2 _ hm).1

theorem wakeReceivers_acts (hpid : s.pid = pid) : ∀ (n : Nat) (s' : Server),
    (∀ tid, s'.readyThreads.getLsbD tid = true → s.readyThreads.getLsbD tid = true) →
    Acts (Closing s) (Sensible s) (wakeReceivers pid n s')
  | 0, _, _ => Follows.pure ()
  | n + 1, s', hs' => by
    unfold wakeReceivers
    split
    · exact Follows.pure ()
    next tid s'' htake =>
      have hh := Server.takeAvailableThread_hands htake
      have hm : Mentions s (pid, tid) := .inr ⟨hpid, hs' tid hh.was⟩
      have hrest : ∀ tid', s''.readyThreads.getLsbD tid' = true → s.readyThreads.getLsbD tid' = true := fun tid' h => by
        rw [hh.mask, Bool.and_eq_true] at h
        exact hs' tid' h.1
      have hall := (readyThenResult_acts hm).bind fun _ => wakeReceivers_acts hpid n s'' hrest
      rwa [Exec.bind_assoc] at hall

theorem destroy_acts (hk : s.pid = k.currentPid) :
    Exec.post (destroy s) (fun _ k' => StepBy (Closing s) k k') (fun _ k' => StepBy (Closing s) k k')
      (fun msg => ∃ k', StepBy (Closing s) k k' ∧ Untidy (Sensible s) msg k') k := by
  have hslots : Acts (Closing s) (Sensible s) (Exec.each destroySlot s.queue) :=
    Follows.each fun q hq => destroySlot_acts hq
  have hunmap : Acts (Closing s) (Sensible s) (unwrap
      (unmapRange s.queueAddr (s.queue.length * queuedMessageSize)) "unmap_range failed") :=
    Follows.unwrap (Acts.of_quietly (Acts.mono (unmapRange_quietly _ _) fun _ h => h.1)
      fun _ hl => .inl hl) (Untidy.of_unfollowed (by decide))
  unfold destroy
  refine Follows.after_bind (refl_of (StepBy _) k) hslots fun _ k1 h1 => ?_
  have hpid : s.pid = k1.currentPid := hk.trans (closing_pid h1.1).symm
  rw [post_bind, post_get]
  exact Follows.after_bind h1 (wakeReceivers_acts hpid 64 s fun _ => id) fun _ k2 h2 =>
    Follows.after h2 hunmap

end Release

/-- The server in entry `sidx` is gone, and nobody is connected to it. -/
def Unreachable (sidx : Nat) (i : Ipc) : Prop := i.servers sidx = none ∧
    ∀ (pid : PID) (n r : Nat) (p : MessagePermissions), (i.connections pid)[n]? ≠ some (.connected sidx r p)

/-- No quiet move connects anybody to a server that is gone. -/
theorem quiet_unconnected (h : Ipc.Does Quiet i j)
    (hs : i.servers sidx = none) (hc : ∀ (n r : Nat) (p : MessagePermissions),
      (i.connections pid)[n]? ≠ some (.connected sidx r p)) (n r : Nat) (p : MessagePermissions) :
    (j.connections pid)[n]? ≠ some (.connected sidx r p) := by
  refine (h.invariant (P := fun j => j.servers sidx = none ∧ ∀ (n r : Nat) (p : MessagePermissions),
    (j.connections pid)[n]? ≠ some (.connected sidx r p)) (fun l a b hl hm ha => ?_) ⟨hs, hc⟩).2 n r p
  subst hl
  refine ⟨(quiet_callers (.single rfl hm)).absent ha.1, ?_⟩
  cases hm with
  | wake _ _ hr =>
    obtain ⟨_, -, hs⟩ := hr
    rw [hs.connections]
    exact ha.2
  | handOver _ _ hr =>
    obtain ⟨_, -, hs⟩ := hr
    rw [hs.connections]
    exact ha.2
  | post _ _ _ _ hs =>
    rw [hs.connections]
    exact ha.2
  | touch _ _ | lose _ _ _ _ | rotate _ | priority _ _ => exact ha.2
  | @relink _ pid' n' slot hr =>
    intro n r p heq
    rcases eq_or_ne pid pid' with rfl | hne
    · simp only [Function.update_self, List.getElem?_set] at heq
      split at heq
      · split at heq
        next hn _ =>
          rcases hr sidx r p (Option.some.inj heq) with ⟨r', p', hold⟩ | ⟨hsome, -⟩
          · exact ha.2 _ _ _ hold
          · exact hsome ha.1
        · cases heq
      · exact ha.2 _ _ _ heq
    · simp only [Function.update_of_ne hne] at heq
      exact ha.2 _ _ _ heq

theorem tombstone_some {p p' : Process} {cid : Nat} (h : p.tombstoneConnectionBySidx sidx = some (cid, p')) :
    ∃ n r perms, p.connectionMap[n]? = some (.connected sidx r perms) ∧
      p' = { p with connectionMap := p.connectionMap.set n (.tombstone r) } := by
  unfold Process.tombstoneConnectionBySidx at h
  split at h
  · cases h
  next n hn =>
    split at h
    next s r perms hslot =>
      cases h
      obtain ⟨hlt, hconn, -⟩ := List.findIdx?_eq_some_iff_getElem.mp hn
      rw [List.getElem?_eq_getElem hlt, Option.some.injEq] at hslot
      rw [hslot] at hconn
      obtain rfl : s = sidx := by simpa [Process.tombstoneConnectionBySidx.isConnectedTo] using hconn
      exact ⟨n, r, perms, by rw [List.getElem?_eq_getElem hlt, hslot], rfl⟩
    · cases h

theorem tombstone_none {p : Process} (h : p.tombstoneConnectionBySidx sidx = none)
    (n r : Nat) (perms : MessagePermissions) :
    p.connectionMap[n]? ≠ some (.connected sidx r perms) := by
  intro hslot
  unfold Process.tombstoneConnectionBySidx at h
  split at h
  next hnone =>
    have hfalse := List.findIdx?_eq_none_iff.mp hnone _ (List.mem_of_getElem? hslot)
    simp [Process.tombstoneConnectionBySidx.isConnectedTo] at hfalse
  next n' hn =>
    obtain ⟨hlt, hconn, -⟩ := List.findIdx?_eq_some_iff_getElem.mp hn
    obtain ⟨r', perms', hn'⟩ := isConnectedTo_iff.mp hconn
    rw [List.getElem?_eq_getElem hlt, hn'] at h
    cases h

/-- One turn of the loop of `disconnect`. -/
def disconnectFrom (sidx : Nat) (pid : PID) : KExec Unit := do
  let k ← Exec.get
  match (k.processes pid).bind (·.tombstoneConnectionBySidx sidx) with
  | none => pure ()
  | some (cid, p) =>
    setProcess pid p
    Exec.ignore (sendEvent pid .disconnected cid)

theorem disconnect_eq (sidx : Nat) : disconnect sidx = Exec.each (disconnectFrom sidx) PID.all := rfl

theorem disconnectFrom_sure (sidx : Nat) (pid : PID) : Sure (disconnectFrom sidx pid) := by
  refine Sure.get.bind fun k => ?_
  split
  · exact .pure ()
  · exact Sure.bind (Sure.modify _) fun _ => .ignore _

theorem disconnectFrom_quietly (sidx : Nat) (hpid : pid ∈ PID.all) : Quietly P (disconnectFrom sidx pid) := by
  refine Follows.get_bind fun k => ?_
  split
  · exact refl_of QuietStep k
  next cid p' hbind =>
    obtain ⟨p, hp, htomb⟩ := Option.bind_eq_some_iff.mp hbind
    obtain ⟨n, r, perms, -, rfl⟩ := tombstone_some htomb
    rw [post_bind, post_setProcess]
    refine Follows.after (quietStep_putConnection hp fun _ _ _ heq => by cases heq) ?_
    exact ((sendEvent_quiet (get_le_of_mem_all hpid) _ _).quietly (sendEvent_settled _ _ _)).ignore

theorem mem_all (h : pid.get ≤ maxProcessCount) : pid ∈ PID.all := by
  have hpos : 1 ≤ pid.get := Nat.pos_of_ne_zero pid.ne_zero
  refine List.mem_filterMap.mpr ⟨pid.get, List.mem_range'_1.mpr ⟨hpos, by omega⟩, ?_⟩
  simp [PID.new, pid.ne_zero, pid.lt]

/-- No connection of the process leads to the server. -/
def Unconnected (sidx : Nat) (pid : PID) (i : Ipc) : Prop :=
  ∀ (n r : Nat) (p : MessagePermissions), (i.connections pid)[n]? ≠ some (.connected sidx r p)

theorem disconnectFrom_unconnected (hpid : pid ∈ PID.all) (hb : Basic k.ipc) (hs : k.servers sidx = none) :
    wp (disconnectFrom sidx pid) (fun _ k' => Unconnected sidx pid k'.ipc) (fun _ _ => True) k := by
  unfold disconnectFrom
  rw [wp_bind, Exec.wp_get]
  split
  next hnone =>
    intro n r perms
    cases hp : k.processes pid with
    | none => simp [ipc, hp]
    | some p =>
      rw [ipc_connections hp]
      exact tombstone_none (by simpa [hp] using hnone) n r perms
  next cid p' hbind =>
    obtain ⟨p, hp, htomb⟩ := Option.bind_eq_some_iff.mp hbind
    obtain ⟨n, r, perms, hn, rfl⟩ := tombstone_some htomb
    rw [← ipc_connections hp] at hn
    -- by `once` the entry that is struck out was the only one
    have hfirst : Unconnected sidx pid
        (k.putProcess pid { p with connectionMap := p.connectionMap.set n (.tombstone r) }).ipc := by
      intro n' r' perms' heq
      rw [ipc_putConnections hp] at heq
      simp only [Function.update_self, List.getElem?_set] at heq
      split at heq
      · split at heq <;> cases heq
      next hne =>
        rw [← ipc_connections hp] at heq
        exact hne (hb.once pid sidx n n' r r' perms perms' hn heq)
    have hquiet := sendEvent_quiet (get_le_of_mem_all hpid) .disconnected cid
      (k.putProcess pid { p with connectionMap := p.connectionMap.set n (.tombstone r) })
    rw [wp_bind, setProcess, Exec.wp_modify, Exec.wp_ignore]
    exact wp_mono (wp_of_post hquiet) (fun _ _ h => quiet_unconnected h hs hfirst)
      fun _ _ h => quiet_unconnected h hs hfirst

/-- **After `destroy_sidx` nobody is connected to the server.** -/
theorem disconnect_unreachable (hb : Basic k.ipc) (hs : k.servers sidx = none) :
    wp (disconnect sidx) (fun _ k' => Unreachable sidx k'.ipc) (fun _ _ => False) k := by
  have hquiet : ∀ pid ∈ PID.all, ∀ k, wp (disconnectFrom sidx pid) (fun _ k' => QuietStep k k') (fun _ _ => False) k :=
    fun pid hpid k => wp_of_post
      ((disconnectFrom_sure sidx pid).post (disconnectFrom_quietly (P := AtHome) sidx hpid k))
  rw [disconnect_eq]
  refine wp_of_post (F := fun _ => True) (post_mono (Exec.post_each_all
    (I := fun k => Basic k.ipc ∧ k.servers sidx = none) (J := fun pid k => Unconnected sidx pid k.ipc)
    (fun pid hpid k hk => ?_) (fun pid pid' hpid' k hk hJ => ?_) ⟨hb, hs⟩) ?_ (fun _ _ h => h)
    fun _ h => h)
  · refine post_of_wp (wp_mono (Exec.wp_and (hquiet pid hpid k)
      (disconnectFrom_unconnected hpid hk.1 hk.2)) ?_ fun _ _ h => h.1)
    rintro _ k' ⟨hstep, hun⟩
    exact ⟨⟨quiet_basic hstep.1 hk.1, (quiet_callers hstep.1).absent hk.2⟩, hun⟩
  · exact wp_mono (hquiet pid' hpid' k) (fun _ _ h => quiet_unconnected h.1 hk.2 hJ) fun _ _ _ => trivial
  · rintro _ k' ⟨⟨hb', hs'⟩, hall⟩
    refine ⟨hs', fun pid => ?_⟩
    cases hp : k'.processes pid with
    | none => simp [ipc, hp]
    | some p => exact hall pid (mem_all (hb'.pids pid (ipc_parent_ne_none hp)))

/-- A panic after harmless steps is the fault of the state before them. -/
theorem Untidy.back {A : Label → Prop} {msg : String} (hA : ∀ l, A l → Harmless l)
    (hk : StepBy A k k') (h : Untidy P msg k')
    (hP : Proper k.ipc → AtHome k' → P k') : Untidy AtHome msg k :=
  ⟨h.1, fun hm hb hp hhome => h.2 hm (does_basic hk.1 (fun l hl => (hA l hl).2) hb)
    (does_proper hk.1 hA hb hp) (hP hp (hk.2 hhome))⟩

theorem Proper.of_mentions (h : Proper i)
    (hs : i.servers sidx = some s) {t : ThreadId} (hm : Mentions s t) : IsUser t := by
  rcases hm with ⟨slot, hc⟩ | ⟨hpid, hb⟩
  · exact h.of_named hs hc
  · have ht := h.of_parked hs hb
    rwa [hpid] at ht

theorem closing_callers (h : Ipc.Does (Closing s) i j) : SameCallers i j := by
  refine h.within fun l a b hl hm => ?_
  rcases hl with rfl | ⟨t, rfl, -⟩
  · exact quiet_callers (.single rfl hm)
  · cases hm with
    | release hs => exact .of_servers hs.servers

theorem destroySlot_sure (q : QueuedMessage) : Sure (destroySlot q) := by
  cases q <;> first
    | exact .pure ()
    | exact .unwrap _ _
    | exact Sure.bind (.unwrap _ _) fun _ => .unwrap _ _
    | exact Sure.bind (.unwrap _ _) fun _ => Sure.bind (.unwrap _ _) fun _ => .unwrap _ _

theorem wakeReceivers_sure (pid : PID) : ∀ (n : Nat) (s : Server), Sure (wakeReceivers pid n s)
  | 0, _ => .pure ()
  | n + 1, s => by
    unfold wakeReceivers
    split
    · exact .pure ()
    · exact Sure.bind (.unwrap _ _) fun _ => Sure.bind (.unwrap _ _) fun _ =>
        wakeReceivers_sure pid n _

theorem destroy_sure (s : Server) : Sure (destroy s) :=
  Sure.bind (.each fun q _ => destroySlot_sure q) fun _ => Sure.get.bind fun _ =>
    (wakeReceivers_sure _ _ _).bind fun _ => .unwrap _ _

/-- **`destroy_sidx`.** -/
theorem destroySidx_post (hb : Basic k.ipc) (hs : k.servers sidx = some s) (hpid : s.pid = k.currentPid) :
    Exec.post (destroySidx sidx)
      (fun _ k' => Destroys sidx s k.ipc k'.ipc ∧ (AtHome k → AtHome k') ∧ Unreachable sidx k'.ipc)
      (fun _ _ => False) (fun msg => Untidy AtHome msg k) k := by
  have hclose : StepBy Harmless k (k.putServer sidx none) := .of_move .close ⟨trivial, by simp⟩ id
  have hback : ∀ {msg k'}, StepBy (Closing s) (k.putServer sidx none) k' →
      Untidy (Sensible s) msg k' → Untidy AtHome msg k := fun hk' hun =>
    Untidy.back (fun _ => id) (trans_of (StepBy _) hclose ⟨hk'.1.mono Closing.harmless, hk'.2⟩) hun
      fun hp hhome => ⟨hhome, fun _ hm => Proper.of_mentions hp hs hm⟩
  unfold destroySidx
  rw [post_bind, post_get, hs, Exec.expect_some, post_bind, Exec.post_pure, post_bind, post_setServer, post_bind]
  refine (destroy_sure s).post (post_mono (destroy_acts (k := k.putServer sidx none) hpid) ?_ (fun _ _ _ => trivial) ?_)
  · intro _ k1 h1
    have hb1 : Basic k1.ipc := does_basic h1.1 (fun l hl => (Closing.harmless l hl).2) (hb.close sidx)
    have hnone : k1.servers sidx = none := (closing_callers h1.1).absent (Function.update_self ..)
    refine post_mono (post_and (Follows.each (fun _ hpid => disconnectFrom_quietly (P := Sensible s) sidx hpid) k1)
      (post_of_wp (disconnect_unreachable hb1 hnone))) ?_ (fun _ _ h => h.2) ?_
    · rintro _ k2 ⟨h2, hun⟩
      have hstep := trans_of (StepBy _) h1 (StepBy.closing h2)
      exact ⟨⟨hs, hstep.1⟩, hstep.2, hun⟩
    · rintro msg ⟨⟨k2, h2, hun⟩, -⟩
      exact hback (trans_of (StepBy _) h1 (StepBy.closing h2)) hun
  · rintro msg ⟨k1, h1, hun⟩
    exact hback h1 hun

theorem destroyServer_handled (hb : Basic k.ipc) (sid : SID) :
    Handled (.destroyServer sid) (dispatch k.currentTid (.destroyServer sid)) k := by
  simp only [dispatch]
  unfold destroyServer
  rw [Handled, post_bind, post_get, post_bind, post_bind, post_get, post_bind, Exec.post_okOr]
  refine ⟨fun sidx hsidx => ?_, fun _ => ⟨.quiet (.refl _), id⟩⟩
  obtain ⟨-, s, hs, rfl, hpid⟩ := sidxFromSid_some hsidx
  refine post_mono (destroySidx_post hb hs hpid) (fun _ k' h => ⟨.destroy rfl hpid h.1, h.2.1⟩)
    (fun _ _ h => h.elim) fun msg h => ?_
  exact .of_home (A := Harmless) (fun _ => id) hb (refl_of (StepBy _) k) h

end BeetKernel.Kernel

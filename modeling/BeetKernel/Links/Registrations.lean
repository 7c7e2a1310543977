/-
# Which system calls enter something

Destroying servers, ending processes and starting them enter no server and no connection.  What is
left are the eight calls that do (`SysCall.Registers`), and for each of them what exactly it writes.
-/
import BeetKernel.Links.Registry
import BeetKernel.Ipc.Ending

namespace BeetKernel

open Function (update)

namespace Kernel

open Exec (Along wp_and wp_bind wp_mono wp)

variable {k k' : Kernel} {α : Type}

/-! ## 1. Servers and processes that end -/

variable {sidx : Nat} {pid : PID}

/-- The entry a tombstone replaces was connected, with the same count. -/
theorem tombstone_weathers {p p' : Process} {cid : CID}
    (hp : k.processes pid = some p) (h : p.tombstoneConnectionBySidx sidx = some (cid, p')) {n : Nat}
    {slot' : ConnectionSlot} (hslot : p'.connectionMap[n]? = some slot') :
    ∃ slot, k.entry pid n = some slot ∧ slot.Weathers slot' := by
  obtain ⟨n₀, r, perms, hn₀, rfl⟩ := tombstone_some h
  rw [entry_of_process hp]
  by_cases hn : n₀ = n
  · subst hn
    obtain ⟨hlt, -⟩ := getElem?_eq_some_iff.mp hn₀
    rw [List.getElem?_set_self hlt] at hslot
    cases hslot
    exact ⟨_, hn₀, .dies sidx r perms⟩
  · rw [List.getElem?_set_ne hn] at hslot
    exact ⟨_, hslot, .same _⟩

theorem disconnectFrom_nothingNew (sidx : Nat) (pid : PID) : Along NothingNew (disconnectFrom sidx pid) := by
  refine Along.get_bind fun k => ?_
  split
  · exact refl_of NothingNew k
  next cid p' hbind =>
    obtain ⟨p, hp, htomb⟩ := Option.bind_eq_some_iff.mp hbind
    rw [wp_bind]
    exact Along.after (NothingNew.of_process fun n slot' hslot _ => tombstone_weathers hp htomb hslot)
      (nothingNew_frame.sendEvent _ _ _).ignore

/-- No connection of the process leads to the server. -/
def Unlinked (sidx : Nat) (pid : PID) (k : Kernel) : Prop := ∀ n r p, k.entry pid n ≠ some (.connected sidx r p)

theorem NothingNew.unlinked (h : NothingNew k k') (hk : Unlinked sidx pid k) :
    Unlinked sidx pid k' := fun n r p he => hk n r p (h.connected he)

/-- The one connection the process has is struck out. -/
theorem tombstone_unlinked {p p' : Process} {cid : CID} (htidy : k.Tidy)
    (hp : k.processes pid = some p) (h : p.tombstoneConnectionBySidx sidx = some (cid, p')) :
    Unlinked sidx pid { k with processes := update k.processes pid (some p') } := by
  intro n r perms he
  obtain ⟨n₀, r₀, perms₀, hn₀, rfl⟩ := tombstone_some h
  rw [← entry_of_process hp] at hn₀
  have he' : (p.connectionMap.set n₀ (.tombstone r₀))[n]? = some (.connected sidx r perms) := by
    simpa [entry] using he
  by_cases hn : n₀ = n
  · subst hn
    rw [List.getElem?_set] at he'
    split at he'
    · split at he' <;> cases he'
    · contradiction
  · rw [List.getElem?_set_ne hn, ← entry_of_process hp] at he'
    exact hn ((htidy pid n sidx r perms he').2 _ _ _ hn₀)

theorem disconnectFrom_unlinked (htidy : k.Tidy) :
    wp (disconnectFrom sidx pid) (fun _ k' => k'.Tidy ∧ Unlinked sidx pid k') (fun _ _ => True) k := by
  unfold disconnectFrom
  rw [wp_bind, Exec.wp_get]
  split
  next hnone =>
    refine ⟨htidy, fun n r perms he => ?_⟩
    obtain ⟨p, hp, hn⟩ := Option.bind_eq_some_iff.mp he
    exact tombstone_none (by simpa [hp] using hnone) n r perms hn
  next cid p' hbind =>
    obtain ⟨p, hp, htomb⟩ := Option.bind_eq_some_iff.mp hbind
    have hnew : NothingNew k { k with processes := update k.processes pid (some p') } :=
      .of_process fun n slot' hslot _ => tombstone_weathers hp htomb hslot
    rw [wp_bind, setProcess, Exec.wp_modify]
    exact wp_mono ((nothingNew_frame.sendEvent pid .disconnected cid).ignore _)
      (fun _ _ h => ⟨h.tidy (hnew.tidy htidy), h.unlinked (tombstone_unlinked htidy hp htomb)⟩)
      fun _ _ _ => trivial

theorem disconnect_unlinked (htidy : k.Tidy) :
    wp (disconnect sidx) (fun _ k' => ∀ pid, Unlinked sidx pid k') (fun _ _ => True) k := by
  rw [disconnect_eq]
  have hall : Exec.post (Exec.each (disconnectFrom sidx) PID.all)
      (fun _ k' => k'.Tidy ∧ ∀ pid ∈ PID.all, Unlinked sidx pid k') (fun _ _ => True) (fun _ => True) k :=
    Exec.post_each_all (fun _ _ _ hk => Exec.post_of_wp (disconnectFrom_unlinked hk))
      (fun _ _ _ _ _ hJ => wp_mono (disconnectFrom_nothingNew _ _ _) (fun _ _ h => h.unlinked hJ)
        fun _ _ _ => trivial) htidy
  refine wp_mono (Exec.wp_of_post hall) (fun _ k' h pid n r p he => ?_) fun _ _ _ => trivial
  exact h.2 pid (h.1 pid n sidx r p he).1 n r p he

theorem destroySidx_nothingNew (sidx : Nat) : Along NothingNew (destroySidx sidx) := by
  refine Along.get_bind fun k => ?_
  rw [wp_bind, Exec.wp_expect]
  intro s hs
  rw [wp_bind, setServer, Exec.wp_modify]
  have hsure : Exec.Sure (destroy s >>= fun _ => disconnect sidx) :=
    (destroy_sure s).bind fun _ => .each fun pid _ => disconnectFrom_sure sidx pid
  have hrest : Along NothingNew (destroy s >>= fun _ => disconnect sidx) :=
    (nothingNew_frame.destroy s).bind fun _ =>
      Along.each fun pid _ => disconnectFrom_nothingNew sidx pid
  generalize hk1 : ({ k with servers := update k.servers sidx none } : Kernel) = k1
  have hentry : ∀ pid n, k1.entry pid n = k.entry pid n := by
    rw [← hk1]
    exact fun _ _ => rfl
  have hother : ∀ n, n ≠ sidx → k1.servers n = k.servers n := fun n hn => by
    rw [← hk1]
    exact Function.update_of_ne hn ..
  have hclosed : k1.servers sidx = none := by
    rw [← hk1]
    exact Function.update_self ..
  have hunlinked : wp (destroy s >>= fun _ => disconnect sidx)
      (fun _ k' => k.Tidy → ∀ pid, Unlinked sidx pid k') (fun _ _ => True) k1 := by
    by_cases htidy : k.Tidy
    · have htidy1 : k1.Tidy := by simpa [Tidy, hentry] using htidy
      refine Exec.wp_seq (nothingNew_frame.destroy s k1) (fun _ k2 h => ?_) fun _ _ _ => trivial
      exact wp_mono (disconnect_unlinked (h.tidy htidy1)) (fun _ _ h _ => h) fun _ _ _ => trivial
    · exact wp_mono (hrest k1) (fun _ _ _ h => absurd h htidy) fun _ _ _ => trivial
  refine wp_mono (wp_and (wp_and (hrest k1) hunlinked) (hsure k1)) ?_ fun _ _ h => h.2.elim
  rintro _ k' ⟨⟨hnew, hun⟩, -⟩
  refine ⟨fun n s' h => ?_, fun pid n slot' h hne => ?_, fun htidy pid n sidx' r p he hsidx' => ?_⟩
  · obtain ⟨s1, hs1, hcard⟩ := hnew.servers n s' h
    have hn : n ≠ sidx := by
      rintro rfl
      rw [hclosed] at hs1
      cases hs1
    exact ⟨s1, (hother n hn).symm.trans hs1, hcard⟩
  · rw [← hentry]
    exact hnew.entries pid n slot' h hne
  · have hne : sidx' ≠ sidx := by
      rintro rfl
      exact hun htidy pid n r p he
    refine hnew.attached (by simpa [Tidy, hentry] using htidy) pid n sidx' r p he ?_
    rw [hother sidx' hne]
    exact hsidx'

theorem setDisplay_nothingNew (d : DisplayState) : Along NothingNew (setDisplay d) :=
  Along.modify fun _ => .of_eq rfl rfl

theorem handDisplayOver_nothingNew (row col : Nat) (l : List ThreadId) :
    Along NothingNew (handDisplayOver row col l) := by
  induction l with
  | nil => exact Along.modify fun _ => .of_eq rfl rfl
  | cons waiter rest ih =>
    refine (process_along _).attempt.bind fun r => ?_
    cases r with
    | error e => exact ih
    | ok p =>
      refine Along.bind (Along.modify fun _ => ?_) fun _ =>
        (nothingNew_frame.mapFbFor _).bind fun _ => nothingNew_frame.wakeThreadWithResult _ _
      exact .of_eq rfl rfl

theorem releaseDisplay_nothingNew (row col : Nat) : Along NothingNew (releaseDisplay row col) :=
  .read fun _ => .ite (fun _ => (setDisplay_nothingNew _).bind fun _ =>
    (nothingNew_frame.unmapFbFor _).bind fun _ => handDisplayOver_nothingNew _ _ _) fun _ => .pure _

theorem releaseDisplayOnExit_nothingNew (pid : PID) : Along NothingNew (releaseDisplayOnExit pid) :=
  .read fun _ => .ite (fun _ => (setDisplay_nothingNew _).bind fun _ =>
    handDisplayOver_nothingNew _ _ _) fun _ => .pure _

theorem NothingNew.of_gone (pid : PID) :
    NothingNew k { k with processes := update k.processes pid none } := by
  refine ⟨fun _ s' h => ⟨s', h, rfl⟩, fun pid' n slot' h _ => ⟨slot', ?_, .same _⟩, fun _ _ _ _ _ _ _ => id⟩
  by_cases hpid : pid' = pid
  · subst hpid
    simp [entry] at h
  · simpa [entry, hpid] using h

theorem NothingNew.of_orphaned (pid : PID) : NothingNew k { k with
    processes := fun p => (k.processes p).map fun q =>
      if q.ppid = some pid then { q with ppid := none } else q } := by
  refine ⟨fun _ s' h => ⟨s', h, rfl⟩, fun pid' n slot' h _ => ⟨slot', ?_, .same _⟩, fun _ _ _ _ _ _ _ => id⟩
  rw [entry] at h ⊢
  dsimp only at h
  cases hp : k.processes pid' with
  | none => simp [hp] at h
  | some p =>
    rw [hp] at h
    simp only [Option.map_some, Option.bind_some] at h ⊢
    split at h <;> exact h

theorem terminateCurrentProcess_nothingNew (ret : Nat) : Along NothingNew (terminateCurrentProcess ret) := by
  refine .read fun k => currentProcess_along.bind fun p => (Along.assert _ _).bind fun _ =>
    (nothingNew_frame.closeServers destroySidx_nothingNew _).bind fun _ => currentProcess_along.bind fun p => ?_
  have hrest : Along NothingNew (do
      let k' ← Exec.get
      Exec.each (fun t => wakeThreadWithResult t (.scalar1 ret)) (k'.exitWaiters k.currentPid)
      releaseDisplayOnExit k.currentPid
      let _ ← process k.currentPid
      Kernel.terminateProcess k.currentPid
      Exec.modify fun k' => { k' with processes := update k'.processes k.currentPid none }
      let _ ← Exec.unwrap (process PID.kernel) "called `Result::unwrap()` on an `Err` value"
      activate PID.kernel
      Exec.modify fun k' => { k' with
        processes := fun p => (k'.processes p).map fun q =>
          if q.ppid = some k.currentPid then { q with ppid := none } else q }) :=
    .read fun _ => (Along.each fun _ _ => nothingNew_frame.wakeThreadWithResult _ _).bind fun _ =>
      (releaseDisplayOnExit_nothingNew _).bind fun _ => (process_along _).bind fun _ =>
        (nothingNew_frame.terminateProcess _).bind fun _ => (Along.modify fun _ => .of_gone _).bind fun _ =>
          ((process_along _).unwrap _).bind fun _ => (nothingNew_frame.visits.activate _).bind fun _ =>
            Along.modify fun _ => .of_orphaned _
  split
  · exact (nothingNew_frame.sendEvent _ _ _).ignore.bind fun _ => hrest
  · exact (Along.pure ()).bind fun _ => hrest

theorem terminateOther_nothingNew (tid : TID) (pid : PID) (ret : Nat) : Along NothingNew (terminateOther tid pid ret) :=
  .read fun _ => (process_along _).bind fun _ => .guard fun _ =>
    (nothingNew_frame.setThreadResult _ _).bind fun _ => ((process_along _).unwrap _).bind fun _ =>
      (nothingNew_frame.visits.activate _).bind fun _ => terminateCurrentProcess_nothingNew _

/-- **Only the calls that register something do.** -/
theorem dispatch_nothingNew (tid : TID) {call : SysCall} (h : ¬ call.Registers) :
    Along NothingNew (dispatch tid call) := by
  by_cases hends : call.Ends
  · cases call with
    | terminateProcess => exact (terminateCurrentProcess_nothingNew _).map
    | terminatePid =>
      exact .read fun _ => currentProcess_along.bind fun _ => .guard fun _ =>
        (terminateOther_nothingNew _ _ _).map
    | _ => exact absurd hends (by simp [SysCall.Ends])
  by_cases hshows : call.Shows
  · cases call with
    | acquireDisplay =>
      refine .read fun k => Along.bind (.read fun k' => .ite (fun _ => ?_) fun _ => ?_) fun b => ?_
      · exact (setDisplay_nothingNew _).map
      · exact (setDisplay_nothingNew _).bind fun _ => (nothingNew_frame.mapFbFor _).map
      · exact .ite (fun _ => .pure _) fun _ =>
          (nothingNew_frame.visits.suspendWithFuture _ _ _).map
    | releaseDisplay => exact (releaseDisplay_nothingNew _ _).map
    | acquireInputFocus =>
      exact .read fun _ => Along.bind (.read fun _ => .guard fun _ =>
        (setDisplay_nothingNew _).bind fun _ => Along.each fun _ _ =>
          nothingNew_frame.deliverCharToSid _ _) fun _ => .pure _
    | releaseInputFocus => exact Along.bind (Along.modify fun _ => .of_eq rfl rfl) fun _ => .pure _
    | _ => exact absurd hshows (by simp [SysCall.Shows])
  exact nothingNew_frame.dispatch nothingNew_birth destroySidx_nothingNew tid h hends hshows

end Kernel

end BeetKernel

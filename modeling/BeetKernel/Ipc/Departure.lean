/-
# What a process leaves behind

A process ends by its own call, by another's, or by a fault.  Afterwards no page, no server and no
slot of a queue names it, nobody is connected to a server it had, and its place in the process table
is free: when the scheduler is asked for the next thread, and still when that thread runs.
-/
import BeetKernel.Ipc.Reachable
import BeetKernel.Kernel.SameMemory

namespace BeetKernel

open Exec (bind_eq_ok get_bind_run post_ok post)

namespace Ipc

variable {i j : Ipc} {pid : PID}

/-- What choosing a thread leaves alone. -/
structure Spares (i j : Ipc) : Prop where
  parent : j.parent = i.parent
  callers : Kernel.SameCallers i j
  unreachable : ∀ sidx, Kernel.Unreachable sidx i → Kernel.Unreachable sidx j

instance : IsPreorder Ipc Spares where
  refl i := ⟨rfl, refl_of Kernel.SameCallers i, fun _ => id⟩
  trans _ _ _ h1 h2 := ⟨h2.parent.trans h1.parent,
    trans_of Kernel.SameCallers h1.callers h2.callers, fun n h => h2.unreachable n (h1.unreachable n h)⟩

theorem Spares.of_same (hp : j.parent = i.parent) (hs : j.servers = i.servers)
    (hc : j.connections = i.connections) : Spares i j := by
  refine ⟨hp, .of_servers hs, fun sidx hu => ?_⟩
  unfold Kernel.Unreachable
  rw [hs, hc]
  exact hu

theorem Reparks.spares (h : Reparks i j) : Spares i j := by
  induction h with
  | refl => exact refl_of Spares i
  | tail _ hm ih =>
    obtain ⟨_, ⟨t, rfl, -⟩, hm⟩ := hm
    cases hm with
    | repark _ _ hs => exact trans_of Spares ih (.of_same hs.parent hs.servers hs.connections)

theorem Polls.spares {t : ThreadId} (h : Polls t i j) : Spares i j := by
  cases h with
  | none _ hj => exact hj ▸ refl_of Spares i
  | complete hm =>
    cases hm
    exact .of_same rfl rfl rfl
  | @collect i1 i2 _ _ _ _ _ _ h1 h2 h3 =>
    have hfirst : Spares i i1 := by
      cases h1
      exact .of_same rfl rfl rfl
    have hlast : Spares i2 j := by
      cases h3
      exact .of_same rfl rfl rfl
    have hsheds := Kernel.quiet_sheds h2
    exact trans_of Spares hfirst (trans_of Spares ⟨hsheds.parent, hsheds.callers, hsheds.unreachable⟩ hlast)

theorem Asks.spares (h : Asks i j) : Spares i j := by
  rcases h with ⟨i1, h1, h2⟩ | ⟨i1, t, sidx, h1, h2⟩
  · refine trans_of Spares h1.spares ?_
    cases h2 with
    | nobody _ hj => exact hj ▸ refl_of Spares i1
    | thread _ _ hp hr =>
      refine trans_of Spares hp.spares ?_
      cases hr with
      | same _ hj => exact hj ▸ refl_of Spares _
      | switch hm =>
        cases hm
        exact .of_same rfl rfl rfl
  · refine trans_of Spares h1.spares ?_
    rw [h2.eq]
    exact .of_same rfl rfl rfl

/-- Nothing of the process is left. -/
structure Absent (pid : PID) (i : Ipc) : Prop where
  withdrawn : Withdrawn pid i
  gone : i.parent pid = none

theorem Absent.spares (h : Absent pid i) (hs : Spares i j) : Absent pid j :=
  ⟨Ordered.withdrawn_of_callers h.withdrawn hs.callers, by rw [hs.parent, h.gone]⟩

theorem Ends.absent (h : Ends i j) : Absent i.pid j := by
  obtain ⟨-, i1, i2, i3, i4, i5, h1, hdrawn, h2, h3, h4, h5, h6⟩ := h
  have hcallers : Kernel.SameCallers i1 i5 :=
    (trans_of Kernel.Sheds (Kernel.quiet_sheds h2) (trans_of Kernel.Sheds (Kernel.passes_sheds h3)
      (trans_of Kernel.Sheds (Kernel.killing_sheds h4) (Kernel.quiet_sheds h5)))).callers
  have hdrawn5 := Ordered.withdrawn_of_callers hdrawn hcallers
  cases h6 with
  | gone hpid _ _ _ => exact ⟨hdrawn5, hpid⟩

end Ipc

namespace Kernel

open Ipc Machine

variable {k k' k₀ k₂ : Kernel} {e : Event} {es : List Event} {pid : PID}

/-- What is left of process `pid` in `k'`, which had its servers in `k`. -/
structure Departed (pid : PID) (k k' : Kernel) : Prop where
  pages : ∀ offset, offset < k'.mm.allocationsLen → k'.mm.allocations offset ≠ some pid
  servers : ∀ sidx s, k'.servers sidx = some s → s.pid ≠ pid
  slots : ∀ sidx s slot t, k'.servers sidx = some s → s.caller slot = some t → t.1 ≠ pid
  connections : ∀ sidx s, k.servers sidx = some s → s.pid = pid → k'.servers sidx = none ∧
    ∀ (q : PID) (p : Process) (n r : Nat) (perms : MessagePermissions), k'.processes q = some p →
      p.connectionMap[n]? ≠ some (.connected sidx r perms)
  process : k'.processes pid = none
  unlinked : ∀ tid, k'.scheduler.links (pid, tid) = none

/-- The event ends process `pid`, if it gets as far as asking for the next thread. -/
inductive Terminates (k : Kernel) (pid : PID) : Event → Prop where
  | self {frame : Context} {ret : Nat} (h : k.currentPid = pid) :
      Terminates k pid (.svc frame (.terminateProcess ret))
  | other {frame : Context} {code : Nat} : Terminates k pid (.svc frame (.terminatePid pid code))
  | fault {frame : Context} (h : k.currentPid = pid) : Terminates k pid (.abort frame)

theorem unlinked_of_gone (hb : Basic k.ipc) (hp : k.processes pid = none) (tid : TID) :
    k.scheduler.links (pid, tid) = none := by
  obtain ⟨L, hr, hmem⟩ := hb.linked
  refine hr.unlinked _ fun q hq => ?_
  have hready : k.threadState (pid, tid) = .ready := ((hmem _ q).mp hq).2.1
  simp [threadState, hp] at hready

/-- The same, in terms of threads and servers. -/
structure Vanished (pid : PID) (k k' : Kernel) : Prop where
  basic : Basic k'.ipc
  absent : Absent pid k'.ipc
  pages : ∀ offset, offset < k'.mm.allocationsLen → k'.mm.allocations offset ≠ some pid
  unreachable : ∀ sidx s, k.servers sidx = some s → s.pid = pid → Unreachable sidx k'.ipc

theorem Vanished.departed (h : Vanished pid k k') : Departed pid k k' := by
  have hproc : k'.processes pid = none := by
    have hp : (k'.processes pid).map Process.ppid = none := h.absent.gone
    simpa using hp
  refine ⟨h.pages, fun sidx s hs => (h.absent.withdrawn sidx s hs).1,
    fun sidx s slot t hs => (h.absent.withdrawn sidx s hs).2 slot t, fun sidx s hs hpid => ?_, hproc,
    unlinked_of_gone h.basic hproc⟩
  obtain ⟨hgone, hconn⟩ := h.unreachable sidx s hs hpid
  refine ⟨hgone, fun q p n r perms hq => ?_⟩
  have := hconn q n r perms
  simpa [ipc, hq] using this

theorem Vanished.spares (h : Vanished pid k k₂) (hb : Basic k'.ipc) (hs : Spares k₂.ipc k'.ipc)
    (hm : SameMemory k₂ k') : Vanished pid k k' := by
  refine ⟨hb, h.absent.spares hs, ?_, fun sidx s hsidx hpid => hs.unreachable _ (h.unreachable sidx s hsidx hpid)⟩
  rw [hm.mm]
  exact h.pages

theorem Vanished.asked {k3 : Kernel} {r : Except Error Result} (h : Vanished pid k k₂)
    (hact : Exec.attempt activateCurrent k₂ = .ok r k3) : Vanished pid k k3 := by
  have hpost : post (Exec.attempt activateCurrent)
      (fun _ k3 => Asks k₂.ipc k3.ipc) (fun _ _ => True) (fun _ => True) k₂ := by
    rw [Exec.post_attempt]
    exact Exec.post_mono (activateCurrent_post h.basic) (fun _ _ h => .inl h.2.1)
      (fun _ _ h => .inr h.2.1) fun _ _ => trivial
  have hasks := post_ok hpost hact
  have hmem : SameMemory k₂ k3 := by
    have hwp := activateCurrent_sameMemory.attempt k₂
    rw [Exec.wp, hact] at hwp
    exact hwp
  exact h.spares (does_basic (asks_harmless hasks) (fun _ hl => hl.2) h.basic) hasks.spares hmem

theorem Vanished.settle {k3 : Kernel} (h : Vanished pid k k3) (caller : ThreadId) (e : Event)
    (r : Except Error Result) : Vanished pid k (settle caller e r k3) := by
  have hset : ∀ r, Vanished pid k (setSavedResult caller r k3) := fun r => by
    have hipc := ipc_setSavedResult caller r k3
    refine h.spares ?_ ?_ (setSavedResult_memory caller r k3)
    · rw [hipc]
      exact h.basic.move (regs_deliver k3.ipc caller r) (by simp)
    · rw [hipc]
      exact .of_same rfl rfl rfl
  unfold Kernel.settle
  split
  · exact h
  · exact hset _
  · exact hset _
  · exact h

/-- What `terminate_current_process` leaves behind, whoever called it. -/
theorem Terminated.vanished {k1 : Kernel} (h : Terminated k1 k₂) (hb : Basic k1.ipc)
    (hservers : k1.servers = k.servers) : Vanished k1.currentPid k k₂ := by
  refine ⟨does_basic (ends_harmless h.ends) (fun _ hl => hl.2) hb, h.ends.absent, h.pages, ?_⟩
  rw [← hservers]
  exact h.unreachable

theorem untilActivate_vanished (hb : Basic k.ipc) (ht : Terminates k pid e)
    (h : untilActivate e k = .ok true k₂) : Vanished pid k k₂ := by
  have hb1 : ∀ frame, Basic (saveContext k.currentThread frame k).ipc := fun _ => saveContext_basic hb
  have hsame : ∀ frame, (saveContext k.currentThread frame k).servers = k.servers ∧
      (saveContext k.currentThread frame k).currentPid = k.currentPid := fun frame => by
    unfold saveContext
    split <;> exact ⟨rfl, rfl⟩
  cases ht with
  | self hpid =>
    simp only [untilActivate, get_bind_run, Exec.modify_bind_run] at h
    obtain ⟨r, k1, hr, h⟩ := bind_eq_ok.mp h
    simp only [handle, checkSyscallPermission, Exec.pure_bind_run, dispatch] at hr
    obtain ⟨u, k3, hterm, hr⟩ := bind_eq_ok.mp hr
    cases hr
    cases h
    rw [← hpid, ← (hsame _).2]
    exact (post_ok (terminateCurrentProcess_post (hb1 _) _) hterm).vanished (hb1 _) (hsame _).1
  | @other frame =>
    simp only [untilActivate, get_bind_run, Exec.modify_bind_run] at h
    obtain ⟨r, k1, hr, h⟩ := bind_eq_ok.mp h
    rw [handle] at hr
    obtain ⟨u, k3, hperm, hr⟩ := bind_eq_ok.mp hr
    obtain ⟨rfl, -⟩ := post_ok (checkSyscallPermission_post (hb1 _) _) hperm
    simp only [dispatch, get_bind_run] at hr
    obtain ⟨p, k3, hp, hr⟩ := bind_eq_ok.mp hr
    obtain rfl := Exec.wp_ok (currentProcess_along (R := Eq) _) hp
    split at hr
    · cases hr
    · obtain ⟨u, k4, hterm, hr⟩ := bind_eq_ok.mp hr
      cases hr
      cases h
      have hcur : (saveContext k.currentThread frame k).currentThread = k.currentThread :=
        own_current (saveContext_step frame k).1
      rw [← congrArg Prod.snd hcur] at hterm
      obtain ⟨hparent, -, hterm⟩ := post_ok (terminateOther_post (hb1 _) pid _) hterm
      obtain ⟨hregs, hact⟩ := insteadOf_moves hparent
      refine hterm.vanished (((hb1 _).move hregs (by simp)).move hact (by simp)) ?_
      rw [← (hsame _).1]
      exact (setSavedResult_sameTables _ _ _).servers
  | fault hpid =>
    simp only [untilActivate, get_bind_run, Exec.modify_bind_run] at h
    obtain ⟨u, k1, hterm, h⟩ := bind_eq_ok.mp h
    cases h
    rw [← hpid, ← (hsame _).2]
    exact (post_ok (terminateCurrentProcess_post (hb1 _) _) hterm).vanished (hb1 _) (hsame _).1

end Kernel

end BeetKernel

/-
# Visits to another process

Some operations need the registers or the queue page of a process that is not the running one.
They go there, and every path on which they return leads back: the same process is current and
its own table is active.  Section 3 says so for each of them, and whose saved registers may have
changed meanwhile.

`MirrorMemoryToPid` is the one that may write registers nobody addressed.  The page tables of the
mirror are allocated, an allocation may find that memory is low, and the event that says so is
delivered on the spot.
-/
import BeetKernel.Ipc.Replies

namespace BeetKernel

namespace Kernel

open Exec (Along post_bind wp_and wp_bind wp_get wp_mono wp)

variable {α : Type} {k k' k₀ : Kernel} {es : List Event}

/-! ## 1. Whose registers are written -/

/-- At most the registers of threads in `S` differ, and no event handler. -/
structure Writes (S : Set ThreadId) (k k' : Kernel) : Prop where
  context : ∀ u, u ∉ S → k'.context u = k.context u
  handlers : ∀ pid, (k'.processes pid).map (·.eventHandlers) = (k.processes pid).map (·.eventHandlers)

variable {S T : Set ThreadId}

instance : IsPreorder Kernel (Writes S) where
  refl _ := ⟨fun _ _ => rfl, fun _ => rfl⟩
  trans _ _ _ h1 h2 := ⟨fun u hu => (h2.context u hu).trans (h1.context u hu),
    fun pid => (h2.handlers pid).trans (h1.handlers pid)⟩

theorem Writes.mono (hST : S ⊆ T) (h : Writes S k k') : Writes T k k' :=
  ⟨fun u hu => h.context u fun hS => hu (hST hS), h.handlers⟩

theorem Writes.of_eq (hp : k'.processes = k.processes) (ha : k'.archProcesses = k.archProcesses) : Writes S k k' := by
  refine ⟨fun u _ => ?_, fun pid => ?_⟩
  · rw [Kernel.context, Kernel.context, ha]
  · rw [hp]

theorem Writes.process {pid : PID} {p q : Process} (hp : k.processes pid = some p)
    (hq : q.eventHandlers = p.eventHandlers) :
    Writes S k { k with processes := Function.update k.processes pid (some q) } := by
  refine ⟨fun _ _ => rfl, fun pid' => ?_⟩
  rcases eq_or_ne pid' pid with rfl | hne
  · simp [hp, hq]
  · simp [Function.update_of_ne hne]

variable {m : KExec α} {sidx : Nat}

theorem writes_frame : VisitFrame (Writes S) where
  scheduler _ _ := .of_eq rfl rfl
  process hp hq := .process hp (congrArg Prod.snd hq)
  visit _ _ _ := .of_eq rfl rfl

theorem writes_code : VisitCode (fun _ m => Along (Writes S) m) (AlongWith (Writes S)) := writes_frame.visits

theorem setSavedResult_writes (t : ThreadId) (r : Result) (k : Kernel) :
    Writes {t} k (setSavedResult t r k) := by
  unfold setSavedResult
  split
  · exact refl_of _ k
  next p hp =>
    split
    · refine ⟨fun u hu => ?_, fun _ => rfl⟩
      rcases eq_or_ne u.1 t.1 with hpid | hne
      · have htid : u.2 ≠ t.2 := fun h => hu (Prod.ext hpid h)
        simp [context, hpid, hp, Function.update_of_ne htid]
      · simp [context, Function.update_of_ne hne]
    · exact refl_of _ k

theorem setThreadResult_writes (t : ThreadId) (r : Result) : Along (Writes {t}) (setThreadResult t r) :=
  writes_code.setThreadResult (Along.modify fun k => setSavedResult_writes t r k)

/-! ### Queues -/

theorem withServer_writes (sidx : Nat) (m : Exec Server Error α) : Along (Writes S) (withServer sidx m) := by
  refine (serverFromSidx_along _).bind fun _ => (Along.expect _ _).bind fun s k => ?_
  rw [Exec.wp_zoom, wp]
  cases m s with
  | ok a s' => exact .of_eq rfl rfl
  | err e s' => exact .of_eq rfl rfl
  | panic msg => trivial

theorem queueServerMessage_writes (sidx : Nat) (pid : PID) (tid : TID) (message : Message)
    (originalAddress : Option MemoryAddress) :
    Along (Writes S) (queueServerMessage sidx pid tid message originalAddress) :=
  writes_code.queueServerMessage (withServer_writes _ _)

theorem rememberServerMessage_writes (sidx : Nat) (pid : PID) (tid : TID) (message : Message)
    (clientAddress : Option MemoryAddress) :
    Along (Writes S) (rememberServerMessage sidx pid tid message clientAddress) :=
  writes_code.rememberServerMessage (withServer_writes _ _)

/-! ## 2. What the news of low memory writes -/

/-- The threads of a process. -/
def threadsOf (pid : PID) : Set ThreadId := {u | u.1 = pid}

theorem singleton_subset_threadsOf (pid : PID) (tid : TID) : {(pid, tid)} ⊆ threadsOf pid := by
  rintro u rfl
  rfl

theorem setResult_writes_threadsOf (pid : PID) (tid : TID) (r : Result) :
    Along (Writes (threadsOf pid)) (setThreadResult (pid, tid) r) := by
  have hsub := singleton_subset_threadsOf pid tid
  exact fun k => wp_mono (setThreadResult_writes _ r k) (fun _ _ h => h.mono hsub) fun _ _ h => h.mono hsub

theorem handOver_writes (pid : PID) (tid : TID) (envelope : MessageEnvelope) :
    Along (Writes (threadsOf pid)) (handOver (pid, tid) envelope) :=
  writes_code.handOver (setResult_writes_threadsOf pid tid) envelope

/-- A message to the server reaches threads of the server's process only. -/
theorem deliverMessage_writes {tid : TID} {message : Message}
    {clientAddress : Option MemoryAddress} {s : Server} (hs : k.servers sidx = some s) :
    wp (deliverMessage tid sidx message clientAddress) (fun _ k' => Writes (threadsOf s.pid) k k')
      (fun _ k' => Writes (threadsOf s.pid) k k') k := by
  unfold deliverMessage
  rw [wp_bind, wp_get]
  refine wp_serverFromSidx ?_ fun s' hs' => ?_
  · simp [wp_bind]
  · cases hs.symm.trans hs'
    simp only [wp_bind (m := Exec.expect _ _), Exec.wp_expect, Option.some.injEq, forall_eq']
    split
    · refine ((Along.modify fun _ => .of_eq rfl rfl).bind fun _ => .ite (fun _ => ?_) fun _ =>
        (Along.pure _).bind fun _ => handOver_writes _ _ _) k
      refine (rememberServerMessage_writes _ _ _ _ _).attempt.bind fun r => ?_
      cases r with
      | ok i => exact (Along.pure _).bind fun _ => handOver_writes _ _ _
      | error e =>
        exact (withServer_writes _ _).bind fun _ => (Along.throw _).bind fun _ => handOver_writes _ _ _
    · exact ((queueServerMessage_writes _ _ _ _ _).bind fun _ =>
        (writes_code.notify (setResult_writes_threadsOf _) _).unwrap _) k

/-- The threads of the processes that asked to be told when memory is low. -/
def listeners (k : Kernel) : Set ThreadId := {u | ((k.processes u.1).bind (·.eventHandlers .lowFreeMemory)).isSome}

theorem Writes.listeners (h : Writes S k k') : k'.listeners = k.listeners := by
  ext u
  have hu := h.handlers u.1
  have hbind : ∀ p : Option Process, p.bind (fun q => q.eventHandlers .lowFreeMemory) =
      (p.map (·.eventHandlers)).bind fun f => f .lowFreeMemory := by
    intro p
    cases p <;> rfl
  rw [Kernel.listeners, Kernel.listeners, Set.mem_ofPred_eq, Set.mem_ofPred_eq, hbind, hu, ← hbind]

/-- At most the listeners have been told. -/
def Told (k k' : Kernel) : Prop := Writes k.listeners k k'

instance : IsPreorder Kernel Told where
  refl k := refl_of (Writes k.listeners) k
  trans k1 k2 k3 h1 h2 := by
    refine trans_of (Writes k1.listeners) h1 ?_
    rw [← h1.listeners]
    exact h2

theorem sidxFromSid_own {sid : SID} {pid : PID} (h : k.sidxFromSid sid pid = some sidx) :
    ∃ s, k.servers sidx = some s ∧ s.pid = pid := by
  unfold sidxFromSid at h
  have hfound := List.find?_some h
  obtain ⟨s, hs, hown⟩ := (Option.any_eq_true _ _).mp hfound
  exact ⟨s, hs, (of_decide_eq_true hown).2⟩

theorem sendEvent_told (pid : PID) (arg : Nat) : Along Told (sendEvent pid .lowFreeMemory arg) := by
  refine along_process fun p k hp => ?_
  split
  · exact refl_of Told k
  next handler hhandler =>
    rw [wp_bind, wp_get]
    split
    · exact refl_of Told k
    next sidx hsidx =>
      -- the handler's server belongs to the process that registered it
      obtain ⟨s, hs, hpid⟩ := sidxFromSid_own hsidx
      have hsub : threadsOf s.pid ⊆ k.listeners := by
        intro u hu
        have hu' : u.1 = pid := Eq.trans hu hpid
        rw [Kernel.listeners, Set.mem_ofPred_eq, hu', hp]
        exact Option.isSome_iff_exists.mpr ⟨handler, hhandler⟩
      unfold sendScalarInner
      rw [wp_bind]
      have hroom := checkQueueRoom_along (R := (· = ·)) sidx k
      refine wp_mono hroom (fun _ k' hk' => ?_) fun _ k' hk' => ?_
      · subst hk'
        exact wp_mono (deliverMessage_writes hs) (fun _ _ h => h.mono hsub) fun _ _ h => h.mono hsub
      · subst hk'
        exact refl_of Told k

theorem told_memory : MemoryFrame Told where
  memory _ _ _ _ := .of_eq rfl rfl
  area _ _ _ _ _ hp := .process hp rfl
  broadcast := .each fun _ _ => .bind .get fun _ => .ite (fun _ => sendEvent_told _ _) fun _ => .pure _

theorem settled_memory : MemoryFrame Settled where
  memory _ _ _ _ := ⟨rfl, .inl rfl⟩
  area _ _ _ _ _ _ := ⟨rfl, .inl rfl⟩
  broadcast := broadcastEvent_settled _ _

/-! ## 3. Every visit ends where it began -/

/-- Nothing but the saved registers of threads in `S` differs for the running process. -/
structure Undisturbed (S : Set ThreadId) (k k' : Kernel) : Prop where
  pid : k'.currentPid = k.currentPid
  mapping : k'.activeMapping = k.activeMapping
  context : ∀ u, u ∉ S → k'.context u = k.context u

/-- Whether the code returns a value or an error, the running process is undisturbed. -/
abbrev Returns (S : Set ThreadId) (m : KExec α) (k : Kernel) : Prop :=
  wp m (fun _ k' => Undisturbed S k k') (fun _ k' => Undisturbed S k k') k

theorem Undisturbed.of_settled (hk : AtHome k) (h : Settled k k') (hw : Writes S k k') : Undisturbed S k k' := by
  refine ⟨h.1, ?_, hw.context⟩
  rcases h.2 with hmap | hmap
  · exact hmap
  · exact hmap.trans hk.symm

theorem returns_of_settled (hk : AtHome k)
    (h : wp m (fun _ k' => Settled k k') (fun _ k' => Settled k k') k) (hw : Along (Writes S) m) :
    Returns S m k :=
  wp_mono (wp_and h (hw k)) (fun _ _ h => .of_settled hk h.1 h.2) fun _ _ h => .of_settled hk h.1 h.2

theorem wp_bind_of_looks {β : Type} {f : α → KExec β} {Q : β → Kernel → Prop}
    {E : Error → Kernel → Prop} (hm : Along (· = ·) m) (hf : ∀ a, wp (f a) Q E k)
    (he : ∀ e, E e k) : wp (m >>= f) Q E k := by
  refine Exec.wp_seq (hm k) (fun a k' hk' => ?_) fun e k' hk' => ?_
  · subst hk'
    exact hf a
  · subst hk'
    exact he e

theorem mirrorMemoryToPid_returns (mem : MemoryRange) (pid : PID) (k : Kernel) :
    Returns k.listeners (mirrorMemoryToPid mem pid) k := by
  have hrefl : Undisturbed k.listeners k k := ⟨rfl, rfl, fun _ _ => rfl⟩
  unfold mirrorMemoryToPid
  rw [Returns, wp_bind, wp_get]
  refine wp_bind_of_looks (virtToPhys_along _ _) (fun memPhys => ?_) fun _ => hrefl
  refine wp_bind_of_looks (Along.assert _ _) (fun _ => ?_) fun _ => hrefl
  refine wp_bind_of_looks (Along.each fun _ _ => (virtToPhys_along _ _).bind fun _ =>
    .ite (fun _ => .throw _) fun _ => .pure _) (fun _ => ?_) fun _ => hrefl
  refine wp_bind_of_looks (process_along _) (fun _ => ?_) fun _ => hrefl
  simp only [wp_bind, activateMapping, Exec.wp_modify, Exec.wp_attempt, Exec.wp_ofExcept, Exec.wp_pure]
  -- in the other mapping, and back to the one the call was made in
  have hback : ∀ k1 : Kernel, Settled { k with activeMapping := pid } k1 →
      Told { k with activeMapping := pid } k1 →
      Undisturbed k.listeners k { k1 with activeMapping := k.activeMapping } :=
    fun k1 hsettled htold => ⟨hsettled.1, rfl, htold.context⟩
  refine wp_mono (wp_and (settled_memory.mapRangeReadonlyMirror pid memPhys mem.size.get _)
    (told_memory.mapRangeReadonlyMirror pid memPhys mem.size.get _)) (fun a k1 h => ?_) fun e k1 h => ?_
  · exact ⟨fun _ _ => hback k1 h.1 h.2, fun _ _ => hback k1 h.1 h.2⟩
  · exact ⟨fun _ _ => hback k1 h.1 h.2, fun _ _ => hback k1 h.1 h.2⟩

/-- The turn of `close_servers` at a server of another process. -/
theorem closeServer_returns (hk : AtHome k) (hp : (k.processes k.currentPid).isSome)
    (hlt : sidx < maxServerCount) {s : Server} (hs : k.servers sidx = some s)
    (hother : s.pid ≠ k.currentPid) : Returns ∅ (closeServer k.currentPid sidx) k := by
  unfold closeServer
  rw [Returns, wp_bind, wp_get]
  simp only [hs, hother, if_false]
  rw [wp_bind, Exec.wp_unwrap]
  refine wp_mono (process_along (R := (· = ·)) s.pid k) (fun _ k1 hk1 => ?_) fun _ _ _ => trivial
  subst hk1
  refine Exec.wp_of_post (F := fun _ => True) ?_
  rw [post_bind, post_activate, post_bind]
  refine post_withQueue (s := s) hlt hs (fun _ => ?_) trivial
  rw [Exec.post_modify, post_bind]
  refine post_process (fun p hp hle => ?_) (fun hnone => ?_) fun hle => trivial
  · rw [post_activate]
    exact ⟨rfl, hk.symm, fun _ _ => rfl⟩
  · rw [show k.processes k.currentPid = none from hnone] at hp
    cases hp

/-! ## 4. In every reachable state -/

/-- Every visit to another process that can begin in this state ends where it began. -/
structure VisitsReturn (k : Kernel) : Prop where
  setThreadResult : ∀ t r, Returns {t} (setThreadResult t r) k
  queueServerMessage : ∀ sidx pid tid message addr, Returns ∅ (queueServerMessage sidx pid tid message addr) k
  rememberServerMessage : ∀ sidx tid message addr,
    Returns ∅ (rememberServerMessage sidx k.currentPid tid message addr) k
  mirrorMemoryToPid : ∀ mem pid, Returns k.listeners (mirrorMemoryToPid mem pid) k
  discard : ∀ sidx s, sidx < maxServerCount → k.servers sidx = some s → s.pid ≠ k.currentPid →
    Returns ∅ (closeServer k.currentPid sidx) k

theorem visitsReturn_of_atHome (hk : AtHome k) (hp : (k.processes k.currentPid).isSome) : VisitsReturn k where
  setThreadResult t r := returns_of_settled hk (setThreadResult_settled t r k) (setThreadResult_writes t r)
  queueServerMessage _ _ _ _ _ :=
    returns_of_settled hk (queueServerMessage_settled _ _ _ _ _ k) (queueServerMessage_writes _ _ _ _ _)
  rememberServerMessage _ _ _ _ :=
    returns_of_settled hk (rememberServerMessage_settled rfl) (rememberServerMessage_writes _ _ _ _ _)
  mirrorMemoryToPid mem pid := mirrorMemoryToPid_returns mem pid k
  discard _ _ hlt hs hother := closeServer_returns hk hp hlt hs hother

end Kernel

namespace Machine

open Kernel

/-- A machine with room for one queue before memory is low.  Process 3 has a page, and process 4 no
page tables yet. -/
def smallMachine : Kernel := { start fun _ => 0 with
    mm := { wholeRam with numFreePages := lowMemoryThreshold / pageSize + 1 }
    pageTables := fun pid =>
      if pid = p4 then .empty 0
      else ⟨0, fun _ => some 0, fun _ _ => some 0, fun page =>
        if pid = p3 ∧ page = pageOf mmapAreaVirt then some ⟨dramBase, true, true, false, false, false⟩
        else none⟩ }

theorem smallMachine_booted : Booted smallMachine :=
  ⟨(start_booted fun _ => 0).ipc, rfl, (start_booted fun _ => 0).user⟩

/-- Process 2 asks its server to be told when memory is low, and waits for the message. -/
def listenEvents : List Event :=
  [createEvent, .svc frame (.registerEventHandler .lowFreeMemory sid 7), .svc frame (.receiveMessage sid)]

/-- The first register of a thread. -/
def firstRegister (k : Kernel) (t : ThreadId) : Option Nat := (k.context t).map (·.gpr 0)

end Machine

namespace Kernel

open Machine

end Kernel

end BeetKernel

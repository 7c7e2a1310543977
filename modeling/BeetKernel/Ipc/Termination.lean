/-
# The end of a process, as moves

A process that ends withdraws from all servers, tells its parent, wakes who waits for it, gives
the display up, and only then are its threads ended and its record removed.
-/
import BeetKernel.Ipc.Ending

namespace BeetKernel

open Function (update)

namespace Kernel

open Ipc
open Exec (post_and post_bind post_get post_modify post_mono post_unwrap wp_bind wp_get wp_mono wp post_seq unwrap Sure)

variable {k k' k₀ : Kernel} {P : Kernel → Prop} {call : SysCall}
variable {pid : PID} {sidx : Nat} {i j : Ipc} {t : ThreadId}

/-! ## 1. Withdrawing from all servers -/

section Withdrawing

variable {pid : PID} {i j : Ipc} {sidx : Nat}

theorem destroys_harmless {s : Server} (h : Destroys sidx s i j) : Ipc.Does Harmless i j :=
  (Moves.single (l := .close sidx) ⟨trivial, by simp⟩ .close).trans (h.rest.mono Closing.harmless)

theorem withdrawal_harmless (h : Withdraws pid i j) : Ipc.Does Harmless i j := by
  cases h with
  | own _ hd => exact destroys_harmless hd
  | other hs heq =>
    subst heq
    exact .single (l := .strike pid) ⟨trivial, by simp⟩ (.strike hs)

theorem withdrawal_pid (h : Withdraws pid i j) : j.pid = i.pid := by
  cases h with
  | own _ hd => exact (closing_pid hd.rest).trans rfl
  | other hs heq => rw [heq]; rfl

theorem withdraws_harmless (h : Relation.ReflTransGen (Withdraws pid) i j) : Ipc.Does Harmless i j := by
  induction h with
  | refl => exact .refl _
  | tail _ hlast ih => exact ih.trans (withdrawal_harmless hlast)

theorem withdraws_pid (h : Relation.ReflTransGen (Withdraws pid) i j) : j.pid = i.pid := by
  induction h with
  | refl => rfl
  | tail _ hlast ih => exact (withdrawal_pid hlast).trans ih

/-- The server in entry `sidx` has nothing more to do with the process. -/
def Clear (pid : PID) (sidx : Nat) (i : Ipc) : Prop :=
  ∀ s, i.servers sidx = some s → s.pid ≠ pid ∧ ∀ slot t, s.caller slot = some t → t.1 ≠ pid

theorem SameCallers.clear (h : SameCallers i j) (hc : Clear pid sidx i) : Clear pid sidx j := by
  intro s' hs'
  obtain ⟨s, hs, heq⟩ := Option.map_eq_some_iff.mp ((h sidx).symm.trans (congrArg _ hs'))
  obtain ⟨hpid, hcaller⟩ := Prod.mk.inj heq
  rw [← hpid, ← hcaller]
  exact hc s hs

theorem clear_strike {s : Server} (hpid : s.pid ≠ pid) :
    Clear pid sidx (i.setServer sidx (some (s.discardMessagesForPid pid))) := by
  intro s' hs'
  rcases servers_setServer hs' with ⟨-, heq⟩ | ⟨hne, -⟩
  · cases heq
    refine ⟨hpid, fun slot t ht => ?_⟩
    rw [Server.caller_discardMessagesForPid, Option.filter_eq_some_iff] at ht
    simpa using ht.2
  · exact absurd rfl hne

theorem withdrawal_clear (h : Withdraws pid i j) (hc : Clear pid sidx i) : Clear pid sidx j := by
  cases h with
  | @own n s hpid hd =>
    refine (closing_callers hd.rest).clear fun s' hs' => ?_
    unfold Ipc.setServer at hs'
    rcases eq_or_ne sidx n with rfl | hne
    · simp at hs'
    · exact hc s' (by simpa [hne] using hs')
  | @other n s hs heq =>
    subst heq
    rcases eq_or_ne sidx n with rfl | hne
    · exact clear_strike (hc s hs).1
    · intro s' hs'
      rcases servers_setServer hs' with ⟨rfl, -⟩ | ⟨-, hs'⟩
      · exact absurd rfl hne
      · exact hc s' hs'

theorem quiet_unreachable (h : Ipc.Does Quiet i j) (hu : Unreachable sidx i) : Unreachable sidx j :=
  ⟨(quiet_callers h).absent hu.1, fun pid => quiet_unconnected h hu.1 (hu.2 pid)⟩

theorem closing_unreachable {s : Server} (h : Ipc.Does (Closing s) i j) (hu : Unreachable sidx i) :
    Unreachable sidx j := by
  refine h.invariant (fun l a b hl hm ha => ?_) hu
  rcases hl with rfl | ⟨t, rfl, -⟩
  · exact quiet_unreachable (.single rfl hm) ha
  · cases hm with
    | release hs =>
      unfold Unreachable
      rw [hs.servers, hs.connections]
      exact ha

theorem withdrawal_unreachable (h : Withdraws pid i j) (hu : Unreachable sidx i) :
    Unreachable sidx j := by
  cases h with
  | @own n s hpid hd =>
    refine closing_unreachable hd.rest ⟨?_, hu.2⟩
    unfold Ipc.setServer
    rcases eq_or_ne sidx n with rfl | hne
    · simp
    · simpa [hne] using hu.1
  | @other n s hs heq =>
    subst heq
    have hne : sidx ≠ n := fun heq => by rw [← heq, hu.1] at hs; cases hs
    exact ⟨(Function.update_of_ne hne ..).trans hu.1, hu.2⟩

end Withdrawing

/-- One turn of the loop of `close_servers`. -/
def closeServer (pid : PID) (sidx : Nat) : KExec Unit := do
  let k ← Exec.get
  match k.servers sidx with
  | none => pure ()
  | some s =>
    if s.pid = pid then destroySidx sidx
    else
      let _ ← unwrap (process s.pid) "called `Result::unwrap()` on an `Err` value"
      activate s.pid
      withQueue sidx (Exec.modify (Server.discardMessagesForPid pid))
      let _ ← process pid
      activate pid

/-- What a turn achieves: the server has nothing more to do with the process, and if it was its
own nobody is connected to it. -/
structure Left (pid : PID) (sidx : Nat) (k k' : Kernel) : Prop where
  withdraws : Relation.ReflTransGen (Withdraws pid) k.ipc k'.ipc
  home : AtHome k → AtHome k'
  clear : Clear pid sidx k'.ipc
  unreachable : ∀ s, k.servers sidx = some s → s.pid = pid → Unreachable sidx k'.ipc
  elsewhere : ∀ n, n ≠ sidx → (k'.servers n).map callersOf = (k.servers n).map callersOf

theorem closeServer_post (hlt : sidx < maxServerCount) (hb : Basic k.ipc) (hpid : k.currentPid = pid) :
    Exec.post (closeServer pid sidx) (fun _ k' => Left pid sidx k k') (fun _ _ => False)
      (fun msg => Untidy AtHome msg k) k := by
  unfold closeServer
  rw [post_bind, post_get]
  cases hs : k.servers sidx with
  | none =>
    exact ⟨.refl, id, fun s hs' => absurd (hs.symm.trans hs') (by simp), fun s hs' =>
      absurd (hs.symm.trans hs') (by simp), fun _ _ => rfl⟩
  | some s =>
    dsimp only
    split
    next hown =>
      refine post_mono (destroySidx_post hb hs (hown.trans hpid.symm)) ?_ (fun _ _ h => h) fun _ h => h
      rintro _ k' ⟨hd, hhome, hun⟩
      refine ⟨.single (.own hown hd), hhome, fun s' hs' => ?_, fun _ _ _ => hun, fun n hn => ?_⟩
      · exact absurd (hun.1.symm.trans hs') (by simp)
      · exact (closing_callers hd.rest n).trans (congrArg _ (Function.update_of_ne hn ..))
    next hother =>
      rw [post_bind, post_unwrap]
      refine post_process (fun p hp hle => ?_) (fun _ => Untidy.of_unfollowed (by decide) k) fun hle => ?_
      · rw [post_bind, post_activate, post_bind]
        refine post_withQueue (s := s) hlt hs (fun _ => ?_) (Untidy.of_unfollowed (by decide) k)
        rw [post_modify, post_bind]
        refine post_process (fun p hp hle => ?_) (fun hnone => ?_) fun hle => ?_
        · rw [post_activate]
          have hj : Withdraws pid k.ipc (k.ipc.setServer sidx (some (s.discardMessagesForPid pid))) := .other hs rfl
          subst hpid
          have hclear : Clear k.currentPid sidx (k.ipc.setServer sidx (some (s.discardMessagesForPid k.currentPid))) :=
            clear_strike hother
          refine ⟨.single hj, fun _ => rfl, hclear, fun s' hs' hown => ?_, fun n hn => ?_⟩
          · cases hs.symm.trans hs'
            exact absurd hown hother
          · exact congrArg _ (Function.update_of_ne hn ..)
        · subst hpid
          exact hb.running (ipc_parent hnone)
        · exact ⟨by decide, fun _ hb _ _ => hle (hpid ▸ hb.pids _ hb.running)⟩
      · exact ⟨by decide, fun _ hb _ _ => hle (hb.pids _ (hb.owners sidx s hs))⟩

/-- How far `close_servers` has got from `k₀`. -/
structure Leaving (k₀ k : Kernel) : Prop where
  withdraws : Relation.ReflTransGen (Withdraws k₀.currentPid) k₀.ipc k.ipc
  home : AtHome k₀ → AtHome k
  own : ∀ sidx s, k₀.servers sidx = some s → s.pid = k₀.currentPid →
    (k.servers sidx).map Server.pid = some k₀.currentPid ∨ Unreachable sidx k.ipc

theorem withdraws_unreachable (h : Relation.ReflTransGen (Withdraws pid) i j) (hu : Unreachable sidx i) :
    Unreachable sidx j := by
  induction h with
  | refl => exact hu
  | tail _ hlast ih => exact withdrawal_unreachable hlast ih

theorem withdraws_clear (h : Relation.ReflTransGen (Withdraws pid) i j) (hc : Clear pid sidx i) : Clear pid sidx j := by
  induction h with
  | refl => exact hc
  | tail _ hlast ih => exact withdrawal_clear hlast ih

theorem Leaving.turn (h : Leaving k₀ k) (hl : Left k₀.currentPid sidx k k') : Leaving k₀ k' := by
  refine ⟨h.withdraws.trans hl.withdraws, hl.home ∘ h.home, fun n s hs hpid => ?_⟩
  rcases h.own n s hs hpid with hown | hun
  · rcases eq_or_ne n sidx with rfl | hne
    · obtain ⟨s', hs', hpid'⟩ := Option.map_eq_some_iff.mp hown
      exact .inr (hl.unreachable s' hs' hpid')
    · refine .inl (Eq.trans ?_ hown)
      have hsame := congrArg (Option.map Prod.fst) (hl.elsewhere n hne)
      simpa [Option.map_map, Function.comp_def, callersOf] using hsame
  · exact .inr (withdraws_unreachable hl.withdraws hun)

/-- **The process withdraws from all servers.** -/
theorem closeServers_post (hb : Basic k.ipc) : Exec.post (closeServers k.currentPid)
      (fun _ k' => Relation.ReflTransGen (Withdraws k.currentPid) k.ipc k'.ipc ∧
        (AtHome k → AtHome k') ∧ Withdrawn k.currentPid k'.ipc ∧
        ∀ sidx s, k.servers sidx = some s → s.pid = k.currentPid → Unreachable sidx k'.ipc)
      (fun _ _ => False) (Aborts k) k := by
  have hturn : ∀ sidx ∈ List.range maxServerCount, ∀ k', Leaving k k' → Exec.post (closeServer k.currentPid sidx)
        (fun _ k'' => Left k.currentPid sidx k' k'') (fun _ _ => False)
        (Aborts k) k' := by
    intro sidx hsidx k' hk'
    have hstep : StepBy Harmless k k' := ⟨withdraws_harmless hk'.withdraws, hk'.home⟩
    exact post_mono (closeServer_post (List.mem_range.mp hsidx)
      (does_basic hstep.1 (fun _ hl => hl.2) hb) (withdraws_pid hk'.withdraws)) (fun _ _ h => h)
      (fun _ _ h => h) fun _ h => ⟨k', hstep, h⟩
  have hstart : Leaving k k := ⟨.refl, id, fun sidx s hs hpid => .inl (by simp [hs, hpid])⟩
  refine post_mono (Exec.post_each_all (I := Leaving k) (J := fun sidx k' => Clear k.currentPid sidx k'.ipc)
    (fun sidx hsidx k' hk' => post_mono (hturn sidx hsidx k' hk')
      (fun _ _ hl => ⟨hk'.turn hl, hl.clear⟩) (fun _ _ h => h) fun _ h => h)
    (fun sidx n hn k' hk' hc => wp_mono (Exec.wp_of_post (hturn n hn k' hk'))
      (fun _ _ hl => withdraws_clear hl.withdraws hc) fun _ _ _ => trivial) hstart) ?_
    (fun _ _ h => h) fun _ h => h
  rintro _ k' ⟨hl, hall⟩
  have hb' : Basic k'.ipc := does_basic (withdraws_harmless hl.withdraws) (fun _ h => h.2) hb
  have hdone : Withdrawn k.currentPid k'.ipc := fun sidx s hs =>
    hall sidx (List.mem_range.mpr (hb'.table sidx s hs)) s hs
  refine ⟨hl.withdraws, hl.home, hdone, fun sidx s hs hpid => ?_⟩
  rcases hl.own sidx s hs hpid with hown | hun
  · obtain ⟨s', hs', hpid'⟩ := Option.map_eq_some_iff.mp hown
    exact absurd hpid' (hdone sidx s' hs').1
  · exact hun

/-! ## 2. The stages after that -/

/-- What the stages of a process's end leave alone, apart from its own threads. -/
structure Sheds (i j : Ipc) : Prop where
  parent : j.parent = i.parent
  pid : j.pid = i.pid
  callers : SameCallers i j
  unreachable : ∀ sidx, Unreachable sidx i → Unreachable sidx j

instance : IsPreorder Ipc Sheds where
  refl i := ⟨rfl, rfl, refl_of SameCallers i, fun _ => id⟩
  trans _ _ _ h1 h2 := ⟨h2.parent.trans h1.parent, h2.pid.trans h1.pid,
    trans_of SameCallers h1.callers h2.callers, fun n h => h2.unreachable n (h1.unreachable n h)⟩

theorem Sheds.of_same (hp : j.parent = i.parent) (hpid : j.pid = i.pid)
    (hs : j.servers = i.servers) (hc : j.connections = i.connections) : Sheds i j := by
  refine ⟨hp, hpid, .of_servers hs, fun sidx hu => ?_⟩
  unfold Unreachable
  rw [hs, hc]
  exact hu

theorem quiet_sheds (h : Ipc.Does Quiet i j) : Sheds i j :=
  ⟨(quiet_frame h).parent, (quiet_frame h).pid, quiet_callers h, fun _ => quiet_unreachable h⟩

theorem answered_sheds {r : Result} (h : Answered t r i j) :
    Sheds i j := by
  cases h with
  | posted _ hs => exact .of_same hs.parent hs.pid hs.servers hs.connections
  | direct _ hr =>
    obtain ⟨_, -, hs⟩ := hr
    exact .of_same hs.parent hs.pid hs.servers hs.connections
  | gone _ hj => rcases hj with rfl | rfl <;> exact .of_same rfl rfl rfl rfl

theorem passes_sheds (h : Passes i j) : Sheds i j := by
  cases h with
  | nobody h =>
    refine h.within fun l a b hl hm => ?_
    rcases hl with rfl | rfl
    · exact quiet_sheds (.single rfl hm)
    · cases hm with
      | leave _ => exact .of_same rfl rfl rfl rfl
  | @first i1 _ _ _ rest _ _ _ _ h1 h2 h3 h4 =>
    subst h2
    cases h4 with
    | display ha =>
      have hleave : Sheds i1 { i1 with waiters := rest } := .of_same rfl rfl rfl rfl
      exact trans_of Sheds (trans_of Sheds (quiet_sheds h1) hleave) (trans_of Sheds (quiet_sheds h3) (answered_sheds ha))

theorem killing_sheds (h : Ipc.Does (Killing pid) i j) : Sheds i j := by
  refine h.within fun l a b hl hm => ?_
  obtain ⟨tid, rfl, -⟩ := hl
  cases hm with
  | kill hs => exact .of_same hs.parent hs.pid hs.servers hs.connections

theorem Killing.harmless (l : Label) (h : Killing pid l) : Harmless l := by
  obtain ⟨tid, rfl, -⟩ := h
  exact ⟨trivial, by simp⟩

theorem harmless_leave : Harmless .leave := ⟨trivial, by simp⟩

theorem passes_harmless (h : Passes i j) : Ipc.Does Harmless i j := by
  have hq : ∀ {i j : Ipc}, Ipc.Does Quiet i j → Ipc.Does Harmless i j := fun h =>
    h.mono fun _ => Harmless.of_quiet
  cases h with
  | nobody h =>
    exact h.mono fun l hl => hl.elim (fun h => .of_quiet h) fun h => h ▸ harmless_leave
  | @first i1 i2 i3 old rest t hw _ _ h1 h2 h3 h4 =>
    subst h2
    have hleave : Move .leave i1 { i1 with waiters := rest } := by
      refine .leave ?_
      rw [(quiet_frame h1).waiters, hw]
      exact ⟨old ++ [t], by simp⟩
    have hdisplay : Harmless (.display t) := ⟨trivial, by simp⟩
    exact (((hq h1).snoc harmless_leave hleave).trans (hq h3)).snoc hdisplay h4

/-! ### Those who wait for the process -/

theorem mem_exitWaiters (h : t ∈ k.exitWaiters pid) : IsUser t ∧ k.ipc.future t = some (.waitProcessExit pid) := by
  have hmem := List.mem_filter.mp (List.mem_of_mem_take h)
  obtain ⟨p, hp, ht⟩ := List.mem_flatMap.mp hmem.1
  obtain ⟨tid, htid, rfl⟩ := List.mem_map.mp ht
  rw [List.mem_range'_1] at htid
  exact ⟨⟨get_le_of_mem_all hp, htid.1, Nat.lt_of_lt_of_le htid.2 (by decide)⟩, of_decide_eq_true hmem.2⟩

theorem wakeExitWaiters_post (pid : PID) (ret : Nat) (k : Kernel) :
    Exec.post (Exec.each (fun t => wakeThreadWithResult t (.scalar1 ret)) (k.exitWaiters pid))
      (fun _ k' => QuietStep k k') (fun _ _ => False)
      (fun msg => ∃ k', QuietStep k k' ∧ Untidy AtHome msg k') k := by
  refine post_mono (Exec.post_each (I := fun k' => QuietStep k k' ∧ k'.ipc.future = k.ipc.future)
    (fun t ht k' hk' => ?_) ⟨refl_of QuietStep k, rfl⟩) (fun _ _ h => h.1) (fun _ _ h => h)
    fun _ h => h
  obtain ⟨hu, hf⟩ := mem_exitWaiters ht
  rw [← hk'.2] at hf
  refine post_mono (post_and (wakeThreadWithResult_post t _ k')
    (Exec.post_of_wp (wakeThreadWithResult_settled t _ k'))) ?_ (fun _ _ h => h.1) ?_
  · rintro _ k2 ⟨ha, hset⟩
    cases ha with
    | posted _ hs =>
      exact ⟨trans_of QuietStep hk'.1 ⟨.single rfl (.post hf (by simp) (by simp) (by simp) hs), hset.atHome⟩,
        hs.future.trans hk'.2⟩
    | direct hnone _ => rw [hf] at hnone; cases hnone
    | gone hp _ =>
      rw [ipc_parent_eq_none] at hp
      simp [ipc, kernelFuture, hp] at hf
  · rintro msg ⟨⟨hmsg, hbl⟩, -⟩
    exact ⟨k', hk'.1, hmsg, fun hm hb _ _ => hbl hm hb.linked (hb.pids _ hb.running) hu⟩

/-! ### Its threads -/

/-- One turn of the loop of `Process::terminate`. -/
def killThread (t : ThreadId) : KExec Unit := do
  setThreadState t .free
  let _ ← takeKernelFuture t
  let _ ← takeMailbox t

/-- The future and the mailbox may be emptied before or after the state is changed. -/
theorem setState_emptied {st : ThreadState} (h : SetState t st i j) :
    SetState t st ((i.setFuture t none).setMailbox t none) ((j.setFuture t none).setMailbox t none) := by
  refine ⟨h.range, h.present, ?_, h.park, h.ready, h.same⟩
  simp only [Ipc.setFuture, Ipc.setMailbox]
  rw [h.future, h.mailbox, h.state, h.rest]

theorem killThread_post (hb : Basic k.ipc) (hp : k.ipc.parent t.1 ≠ none) (ht : 1 ≤ t.2 ∧ t.2 < maxThreadCount) :
    Exec.post (killThread t) (fun _ k' => Move (.kill t) k.ipc k'.ipc ∧ OnlyThreads k k') (fun _ _ => False)
      (fun msg => Untidy AtHome msg k) k := by
  have hu : IsUser t := ⟨hb.pids _ hp, ht⟩
  have hsome : k.processes t.1 ≠ none := fun hnone => hp (ipc_parent hnone)
  unfold killThread
  refine post_seq (setThreadState_post t .free k) ?_ (fun _ _ h => hsome h.2) ?_
  · rintro _ k1 ⟨hs, hk1⟩
    have hsome1 : k1.processes t.1 ≠ none := fun hnone =>
      hp (by rw [← hs.parent]; exact ipc_parent hnone)
    refine post_seq (takeKernelFuture_post t k1) ?_ (fun _ _ h => hsome1 h.2) ?_
    · rintro _ k2 ⟨-, hk2, hf, -⟩
      have hsome2 : k2.processes t.1 ≠ none := fun hnone => by
        have hparent := ipc_parent hnone
        rw [(hf ht.2).2] at hparent
        exact hp (by rw [← hs.parent]; exact hparent)
      refine post_seq (takeMailbox_post t k2) ?_ (fun _ _ h => hsome2 h.2) ?_
      · rintro _ k3 ⟨hk3, hm, -⟩
        constructor
        · rw [(hm ht.2).2, (hf ht.2).2]
          exact .kill (setState_emptied hs)
        · unfold OnlyThreads
          rw [hk3, hk2, hk1]
      · exact fun msg h => ⟨by rw [h.1]; decide, fun _ _ _ _ => h.2 hu.1⟩
    · exact fun msg h => ⟨by rw [h.1]; decide, fun _ _ _ _ => h.2 hu.1⟩
  · exact fun msg h => ⟨h.1, fun hm hb _ _ => h.2 hm hb.linked hu⟩

/-- The thread is free and waits for nothing. -/
def Ended (t : ThreadId) (i : Ipc) : Prop := i.state t = .free ∧ i.future t = none

theorem kill_ended {u : ThreadId} (hm : Move (.kill t) i j) (h : t = u ∨ Ended u i) : Ended u j := by
  cases hm with
  | kill hs =>
    unfold Ended
    rcases eq_or_ne u t with rfl | hne
    · rw [hs.state_self, hs.future]
      exact ⟨rfl, setFuture_self ..⟩
    · have hu := h.resolve_left hne.symm
      rw [hs.state_of_ne hne, hs.future]
      exact ⟨hu.1, (setFuture_of_ne _ hne _).trans hu.2⟩

theorem killThreads_post (hb : Basic k.ipc) (hp : k.ipc.parent pid ≠ none) :
    Exec.post (Exec.each (fun tid => killThread (pid, tid)) (List.range' 1 (maxThreadCount - 1)))
      (fun _ k' => Ipc.Does (Killing pid) k.ipc k'.ipc ∧ OnlyThreads k k' ∧
        ∀ tid, 1 ≤ tid → tid < maxThreadCount → Ended (pid, tid) k'.ipc)
      (fun _ _ => False) (Aborts k) k := by
  have hturn : ∀ tid ∈ List.range' 1 (maxThreadCount - 1), ∀ k',
      Ipc.Does (Killing pid) k.ipc k'.ipc ∧ OnlyThreads k k' →
      Exec.post (killThread (pid, tid)) (fun _ k'' => Move (.kill (pid, tid)) k'.ipc k''.ipc ∧
          Ipc.Does (Killing pid) k.ipc k''.ipc ∧ OnlyThreads k k'')
        (fun _ _ => False) (Aborts k) k' := by
    rintro tid htid k' ⟨hk', honly⟩
    rw [List.mem_range'_1] at htid
    have ht : 1 ≤ tid ∧ tid < maxThreadCount := ⟨htid.1, Nat.lt_of_lt_of_le htid.2 (by decide)⟩
    have hstep : StepBy Harmless k k' := ⟨hk'.mono Killing.harmless, honly.settled.atHome⟩
    refine post_mono (killThread_post (does_basic hstep.1 (fun _ hl => hl.2) hb)
      (t := (pid, tid)) ((killing_sheds hk').parent ▸ hp) ht) ?_ (fun _ _ h => h)
      fun _ h => ⟨k', hstep, h⟩
    rintro _ k'' ⟨hm, hk''⟩
    exact ⟨hm, hk'.snoc ⟨tid, rfl, ht⟩ hm, trans_of OnlyThreads honly hk''⟩
  have hstart : Ipc.Does (Killing pid) k.ipc k.ipc ∧ OnlyThreads k k := ⟨.refl _, refl_of OnlyThreads k⟩
  refine post_mono (Exec.post_each_all (I := fun k' => Ipc.Does (Killing pid) k.ipc k'.ipc ∧ OnlyThreads k k')
    (J := fun tid k' => Ended (pid, tid) k'.ipc)
    (fun tid htid k' hk' => post_mono (hturn tid htid k' hk')
      (fun _ _ h => ⟨h.2, kill_ended h.1 (.inl rfl)⟩) (fun _ _ h => h) fun _ h => h)
    (fun tid n hn k' hk' he => wp_mono (Exec.wp_of_post (hturn n hn k' hk'))
      (fun _ _ h => kill_ended h.1 (.inr he)) fun _ _ _ => trivial) hstart) ?_
    (fun _ _ h => h) fun _ h => h
  rintro _ k' ⟨hk', hall⟩
  refine ⟨hk'.1, hk'.2, fun tid h1 h2 => hall tid ?_⟩
  rw [List.mem_range'_1]
  omega

/-- No quiet move brings a thread back, unless its process owns a server. -/
theorem quiet_ended (h : Ipc.Does Quiet i j)
    (hs : ∀ sidx s, i.servers sidx = some s → s.pid ≠ t.1) (he : Ended t i) : Ended t j := by
  refine (h.invariant (P := fun j => SameCallers i j ∧ Ended t j) (fun l a b hl hm ha => ?_)
    ⟨refl_of SameCallers i, he⟩).2
  subst hl
  refine ⟨trans_of SameCallers ha.1 (quiet_callers (.single rfl hm)), ?_⟩
  obtain ⟨hst, hf⟩ := ha.2
  cases hm with
  | @wake _ _ u hr hfree hready =>
    obtain ⟨_, -, hset⟩ := hready
    have hne : t ≠ u := fun heq => hfree (heq ▸ hst)
    exact ⟨(hset.state_of_ne hne).trans hst, (congrFun hset.future t).trans hf⟩
  | @handOver _ _ n s s' tid hsn hh hready =>
    obtain ⟨_, -, hset⟩ := hready
    obtain ⟨s₀, hs₀, heq⟩ := Option.map_eq_some_iff.mp ((ha.1 n).symm.trans (congrArg _ hsn))
    have hne : t ≠ (s.pid, tid) := fun ht => hs n s₀ hs₀ ((Prod.mk.inj heq).1.trans (by rw [ht]))
    exact ⟨(hset.state_of_ne hne).trans hst, (congrFun hset.future t).trans ((setFuture_of_ne _ hne _).trans hf)⟩
  | @post _ _ u f r hfu _ _ _ hset =>
    have hne : t ≠ u := fun heq => by rw [← heq, hf] at hfu; cases hfu
    exact ⟨(hset.state_of_ne hne).trans hst, (congrFun hset.future t).trans hf⟩
  | touch _ _ | lose _ _ _ _ | rotate _ | priority _ _ | relink _ => exact ⟨hst, hf⟩

/-! ### Its record -/

/-- A process whose parent has ended has none. -/
def orphan (pid : PID) (q : Process) : Process :=
  if q.ppid = some pid then { q with ppid := none } else q

theorem orphan_rest (pid : PID) (q : Process) :
    orphan pid q = { q with ppid := (orphan pid q).ppid } := by
  unfold orphan
  split <;> rfl

theorem orphan_ppid (pid : PID) (q : Process) : (orphan pid q).ppid = if q.ppid = some pid then none else q.ppid := by
  unfold orphan
  split <;> rfl

/-- The kernel without the process. -/
def without (k : Kernel) (pid : PID) : Kernel := { k with
    archProcesses := update k.archProcesses pid none
    processes := fun p => (update k.processes pid none p).map (orphan pid)
    currentPid := PID.kernel
    activeMapping := PID.kernel }

theorem without_gone (hkilled : ∀ tid, 1 ≤ tid → tid < maxThreadCount → Ended (pid, tid) k.ipc)
    (hclosed : ∀ sidx s, k.servers sidx = some s → s.pid ≠ pid) :
    Move (.gone pid) k.ipc (k.without pid).ipc := by
  have hself : (k.without pid).processes pid = none := by simp [without]
  have hother : ∀ q, q ≠ pid → (k.without pid).processes q = (k.processes q).map (orphan pid) :=
    fun q hq => by simp [without, hq]
  have hthreads : ∀ t : ThreadId, (k.without pid).threadState t = (if t.1 = pid then .free else k.threadState t) ∧
      (k.without pid).kernelFuture t = (if t.1 = pid then none else k.kernelFuture t) ∧
      (k.without pid).mailbox t = (if t.1 = pid then none else k.mailbox t) ∧
      (k.without pid).threadPriority t = (if t.1 = pid then .appDefault else k.threadPriority t) := by
    intro t
    simp only [threadState, kernelFuture, mailbox, threadPriority]
    rcases eq_or_ne t.1 pid with ht | ht
    · simp [ht, hself]
    · simp only [hother t.1 ht, if_neg ht]
      cases k.processes t.1 with
      | none => simp
      | some q => rw [Option.map_some, orphan_rest]; simp
  have hrest : (k.without pid).ipc = { k.ipc with
      parent := (k.without pid).ipc.parent
      state := fun t => if t.1 = pid then .free else k.ipc.state t
      future := fun t => if t.1 = pid then none else k.ipc.future t
      mailbox := fun t => if t.1 = pid then none else k.ipc.mailbox t
      priority := fun t => if t.1 = pid then .appDefault else k.ipc.priority t
      connections := fun q => if q = pid then [] else k.ipc.connections q
      allocated := fun t => if t.1 = pid then false else k.ipc.allocated t
      context := fun t => if t.1 = pid then none else k.ipc.context t
      tid := fun q => if q = pid then initialTid else k.ipc.tid q
      pid := PID.kernel } := by
    refine Ipc.ext rfl (funext fun t => ?_) (funext fun t => ?_) (funext fun t => ?_)
      (funext fun t => ?_) rfl rfl (funext fun q => ?_) (funext fun t => ?_) (funext fun t => ?_)
      rfl (funext fun q => ?_) rfl rfl
    · exact (hthreads t).1
    · exact (hthreads t).2.1
    · exact (hthreads t).2.2.1
    · exact (hthreads t).2.2.2
    · rcases eq_or_ne q pid with rfl | hq
      · simp [ipc, hself]
      · simp only [ipc, hother q hq, if_neg hq]
        cases k.processes q with
        | none => rfl
        | some p => rw [Option.map_some, orphan_rest]
    · rcases eq_or_ne t.1 pid with ht | ht <;> simp [ipc, allocated, without, ht]
    · rcases eq_or_ne t.1 pid with ht | ht <;> simp [ipc, context, without, ht]
    · rcases eq_or_ne q pid with rfl | hq
      · simp [ipc, without]
      · simp [ipc, without, hq]
  rw [hrest]
  refine .gone (ipc_parent hself) (fun q hq => ?_) (fun tid h1 h2 => (hkilled tid h1 h2).1) hclosed
  simp only [ipc, hother q hq]
  cases hp : k.processes q with
  | none => simp
  | some p =>
    simp only [Option.map_some, orphan_ppid, Option.some.injEq]
    split <;> simp_all

theorem gone_unreachable (h : Move (.gone pid) i j) (hu : Unreachable sidx i) : Unreachable sidx j := by
  cases h with
  | gone _ _ _ _ =>
    refine ⟨hu.1, fun q n r p => ?_⟩
    dsimp only
    split
    · simp
    · exact hu.2 q n r p

/-! ## 3. All of it -/

/-- What is left of the process that ran in `k`. -/
structure Terminated (k k' : Kernel) : Prop where
  ends : Ends k.ipc k'.ipc
  home : AtHome k'
  pages : ∀ offset, offset < k'.mm.allocationsLen → k'.mm.allocations offset ≠ some k.currentPid
  unreachable : ∀ sidx s, k.servers sidx = some s → s.pid = k.currentPid → Unreachable sidx k'.ipc

theorem releaseAllFrom_pages : ∀ (n idx : Nat) (mm : MemoryManager), wp (MemoryManager.releaseAllFrom pid idx n)
      (fun _ mm' => mm'.allocationsLen = mm.allocationsLen ∧
        (∀ offset, idx ≤ offset → offset < idx + n → mm'.allocations offset ≠ some pid) ∧
        ∀ offset, mm.allocations offset ≠ some pid → mm'.allocations offset ≠ some pid)
      (fun _ _ => False) mm
  | 0, idx, mm => ⟨rfl, fun offset h1 h2 => by omega, fun _ => id⟩
  | n + 1, idx, mm => by
    rw [MemoryManager.releaseAllFrom, wp_bind, wp_get]
    -- the rest of the table, from any tracker in which this entry is not the process's
    have hrest : ∀ mm1 : MemoryManager, mm1.allocationsLen = mm.allocationsLen → mm1.allocations idx ≠ some pid →
        (∀ offset, mm.allocations offset ≠ some pid → mm1.allocations offset ≠ some pid) →
        wp (MemoryManager.releaseAllFrom pid (idx + 1) n) (fun _ mm' => mm'.allocationsLen = mm.allocationsLen ∧
            (∀ offset, idx ≤ offset → offset < idx + (n + 1) → mm'.allocations offset ≠ some pid) ∧
            ∀ offset, mm.allocations offset ≠ some pid → mm'.allocations offset ≠ some pid)
          (fun _ _ => False) mm1 := by
      intro mm1 hlen hidx hkept
      refine wp_mono (releaseAllFrom_pages n (idx + 1) mm1) ?_ fun _ _ h => h
      rintro _ mm' ⟨hlen', hrange, hkept'⟩
      refine ⟨hlen'.trans hlen, fun offset h1 h2 => ?_, fun offset h => hkept' _ (hkept _ h)⟩
      rcases Nat.eq_or_lt_of_le h1 with rfl | hlt
      · exact hkept' _ hidx
      · exact hrange offset hlt (by omega)
    have hset : ∀ offset, mm.allocations offset ≠ some pid → update mm.allocations idx none offset ≠ some pid := by
      intro offset h
      rcases eq_or_ne offset idx with rfl | hne <;> simp [*]
    split
    · rw [wp_bind, MemoryManager.setAllocation, Exec.wp_modify]
      split
      · rw [wp_bind, Exec.wp_modify, wp_bind, MemoryManager.addFreePages]
        simp only [wp_bind, wp_get, Exec.wp_assert, Exec.wp_set]
        exact fun _ => hrest _ rfl (by simp) hset
      · exact hrest _ rfl (by simp) hset
    · exact hrest mm rfl ‹_› fun _ => id

theorem releaseAllMemoryForProcess_pages (pid : PID) (mm : MemoryManager) :
    wp (MemoryManager.releaseAllMemoryForProcess pid)
      (fun _ mm' => ∀ offset, offset < mm'.allocationsLen → mm'.allocations offset ≠ some pid)
      (fun _ _ => False) mm := by
  unfold MemoryManager.releaseAllMemoryForProcess
  rw [wp_bind, wp_get]
  refine wp_mono (releaseAllFrom_pages mm.allocationsLen 0 mm) ?_ fun _ _ h => h
  rintro _ mm' ⟨hlen, hrange, -⟩ offset hlt
  exact hrange offset (Nat.zero_le _) (by omega)

theorem withMemoryManager_sure {α : Type} {m : Exec MemoryManager Error α} (hm : Sure m) :
    Sure (withMemoryManager m) := by
  intro k
  refine wp_mono (withMemoryManager_wp m k) (fun _ _ _ => trivial) ?_
  rintro e k' ⟨mm', hrun, -⟩
  exact Exec.wp_err (hm k.mm) hrun

theorem terminateProcess_post (hb : Basic k.ipc) (hp : k.ipc.parent pid ≠ none) (hw : Withdrawn pid k.ipc) :
    Exec.post (terminateProcess pid)
      (fun _ k' => ∃ k1, k' = { k1 with archProcesses := update k1.archProcesses pid none } ∧
        (∃ i, Ipc.Does (Killing pid) k.ipc i ∧ Ipc.Does Quiet i k1.ipc) ∧
        (∀ tid, 1 ≤ tid → tid < maxThreadCount → Ended (pid, tid) k1.ipc) ∧
        (AtHome k → AtHome k1) ∧
        ∀ offset, offset < k1.mm.allocationsLen → k1.mm.allocations offset ≠ some pid)
      (fun _ _ => False) (Aborts k) k := by
  unfold terminateProcess
  rw [post_bind]
  refine post_mono (killThreads_post hb hp) ?_ (fun _ _ h => h) fun _ h => h
  rintro _ k1 ⟨hkill, honly, hended⟩
  have hstep : StepBy Harmless k k1 := ⟨hkill.mono Killing.harmless, honly.settled.atHome⟩
  have hservers : ∀ sidx s, k1.servers sidx = some s → s.pid ≠ pid := fun sidx s hs =>
    ((killing_sheds hkill).callers.clear (hw sidx) s hs).1
  have hsure : Sure (MemoryManager.releaseAllMemoryForProcess pid) := fun mm =>
    wp_mono (releaseAllMemoryForProcess_pages pid mm) (fun _ _ _ => trivial) fun _ _ h => h
  rw [post_bind]
  refine (withMemoryManager_sure hsure).post (post_mono (post_and (withMemoryManager_quietly (P := AtHome)
      (MemoryManager.releaseAllMemoryForProcess_within pid) k1) (Exec.post_self _ k1)) ?_
    (fun _ _ _ => trivial) ?_)
  · rintro _ k2 ⟨hquiet, hrun⟩
    obtain ⟨mm', hm, ⟨b, hmm⟩, -⟩ := withMemoryManager_ok hrun
    have hpages := Exec.wp_ok (releaseAllMemoryForProcess_pages pid k1.mm) hm
    refine ⟨k2, rfl, ⟨_, hkill, hquiet.1⟩, fun tid h1 h2 => ?_, hquiet.2 ∘ hstep.2, ?_⟩
    · exact quiet_ended hquiet.1 hservers (hended tid h1 h2)
    · rw [hmm]
      exact hpages
  · rintro msg ⟨⟨k2, hquiet, hun⟩, -⟩
    exact ⟨k2, trans_of (StepBy _) hstep hquiet.harmless, hun⟩

/-- The parent is told. -/
def tellParent (p : Process) (ret : Nat) : KExec Unit :=
  match p.ppid with
  | some ppid => Exec.ignore (sendEvent ppid .childTerminated ret)
  | none => pure ()

/-- What follows in `terminate_current_process` when the parent has been told. -/
def endProcess (pid : PID) (ret : Nat) : KExec Unit := do
  let k ← Exec.get
  Exec.each (fun t => wakeThreadWithResult t (.scalar1 ret)) (k.exitWaiters pid)
  releaseDisplayOnExit pid
  let _ ← process pid
  terminateProcess pid
  Exec.modify fun k => { k with processes := update k.processes pid none }
  let _ ← unwrap (process PID.kernel) "called `Result::unwrap()` on an `Err` value"
  activate PID.kernel
  Exec.modify fun k => { k with processes := fun p => (k.processes p).map (orphan pid) }

theorem terminateCurrentProcess_eq (ret : Nat) : terminateCurrentProcess ret = (do
    let k ← Exec.get
    let p ← currentProcess
    Exec.assert (ret = 0 || p.ppid ≠ some PID.kernel) "System process terminated"
    closeServers k.currentPid
    let p ← currentProcess
    tellParent p ret
    endProcess k.currentPid ret) := by
  unfold terminateCurrentProcess tellParent
  dsimp only
  refine congrArg _ (funext fun k => congrArg _ (funext fun p => congrArg _ (funext fun _ =>
    congrArg _ (funext fun _ => congrArg _ (funext fun p => ?_)))))
  cases p.ppid <;> rfl

theorem tellParent_quietly (hb : Basic k.ipc) {p : Process} (hp : k.processes k.currentPid = some p)
    (ret : Nat) : Exec.post (tellParent p ret) (fun _ k' => QuietStep k k') (fun _ _ => False)
      (fun msg => ∃ k', QuietStep k k' ∧ Untidy AtHome msg k') k := by
  unfold tellParent
  split
  next ppid hppid =>
    have hparent : k.ipc.parent k.currentPid = some (some ppid) := by simp [ipc, hp, hppid]
    have hle : ppid.get ≤ maxProcessCount := hb.pids _ (hb.parents _ _ hparent)
    exact (Sure.ignore _).post (((sendEvent_quiet hle _ ret).quietly (sendEvent_settled _ _ _)).ignore k)
  · exact refl_of QuietStep k

theorem endProcess_post (hb : Basic k.ipc) (hw : Withdrawn k.currentPid k.ipc) (ret : Nat) :
    Exec.post (endProcess k.currentPid ret) (fun _ k' => k.currentPid ≠ PID.kernel ∧ AtHome k' ∧
        (∃ i2 i3 i4 i5, Ipc.Does Quiet k.ipc i2 ∧ Passes i2 i3 ∧
          Ipc.Does (Killing k.currentPid) i3 i4 ∧ Ipc.Does Quiet i4 i5 ∧
          Move (.gone k.currentPid) i5 k'.ipc) ∧
        (∀ offset, offset < k'.mm.allocationsLen → k'.mm.allocations offset ≠ some k.currentPid))
      (fun _ _ => False) (Aborts k) k := by
  unfold endProcess
  rw [post_bind, post_get, post_bind]
  refine post_mono (wakeExitWaiters_post _ ret k) (fun _ k1 h1 => ?_) (fun _ _ h => h)
    fun _ h => h.imp fun _ h => ⟨h.1.harmless, h.2⟩
  have hb1 := quiet_basic h1.1 hb
  refine post_seq (releaseDisplayOnExit_post hb1 _) ?_ (fun _ _ h => h)
    fun _ h => h.imp fun _ h => ⟨trans_of (StepBy _) h1.harmless h.1, h.2⟩
  rintro _ k2 ⟨hpass, hhome2⟩
  have hstep2 : StepBy Harmless k k2 := trans_of (StepBy _) h1.harmless ⟨passes_harmless hpass, hhome2⟩
  have hb2 : Basic k2.ipc := does_basic hstep2.1 (fun _ hl => hl.2) hb
  have hsheds := trans_of Sheds (quiet_sheds h1.1) (passes_sheds hpass)
  have hparent : k2.ipc.parent k.currentPid ≠ none := hsheds.parent ▸ hb.running
  rw [post_bind]
  refine post_process (fun _ _ _ => ?_) (fun hnone => hparent (ipc_parent hnone)) fun hle =>
    ⟨k2, hstep2, by decide, fun _ hb _ _ => hle (hb.pids _ hparent)⟩
  refine post_seq (terminateProcess_post hb2 hparent fun sidx => hsheds.callers.clear (hw sidx))
    ?_ (fun _ _ h => h) fun _ h => h.imp fun _ h => ⟨trans_of (StepBy _) hstep2 h.1, h.2⟩
  rintro _ _ ⟨k3, rfl, ⟨i, hkill, hquiet⟩, hended, hhome3, hpages⟩
  rw [post_bind, post_modify, post_bind, post_unwrap]
  have hunwrap : Aborts k "called `Result::unwrap()` on an `Err` value" :=
    ⟨k, refl_of (StepBy _) k, .of_unfollowed (by decide) k⟩
  refine post_process (fun q hq _ => ?_) (fun _ => hunwrap) fun hle => absurd (by decide) hle
  rw [post_bind, post_activate, post_modify]
  have hservers : ∀ sidx s, k3.servers sidx = some s → s.pid ≠ k.currentPid := fun sidx s hs =>
    ((trans_of SameCallers hsheds.callers (trans_of SameCallers (killing_sheds hkill).callers
      (quiet_callers hquiet))).clear (hw sidx) s hs).1
  refine ⟨fun heq => ?_, rfl, ⟨_, _, _, _, h1.1, hpass, hkill, hquiet, without_gone hended hservers⟩, hpages⟩
  rw [← heq] at hq
  simp at hq

/-- **`terminate_current_process`.** -/
theorem terminateCurrentProcess_post (hb : Basic k.ipc) (ret : Nat) :
    Exec.post (terminateCurrentProcess ret) (fun _ k' => Terminated k k') (fun _ _ => False) (Aborts k) k := by
  have hstart : ∀ msg, Untidy AtHome msg k → Aborts k msg := fun msg h => ⟨k, refl_of (StepBy _) k, h⟩
  rw [terminateCurrentProcess_eq, post_bind, post_get, post_bind]
  refine post_currentProcess (fun p hp => ?_) fun msg hm hmsg => hstart msg
    ⟨hmsg, fun h hb _ _ => hm h (hb.pids _ hb.running)⟩
  rw [post_bind, Exec.post_assert]
  refine ⟨fun _ => ?_, fun _ => hstart _ (.of_unfollowed (by decide) k)⟩
  refine post_seq (closeServers_post hb) ?_ (fun _ _ h => h) fun _ h => h
  rintro _ k1 ⟨hwith, hhome1, hdone, hunreach⟩
  have hstep1 : StepBy Harmless k k1 := ⟨withdraws_harmless hwith, hhome1⟩
  have hb1 : Basic k1.ipc := does_basic hstep1.1 (fun _ hl => hl.2) hb
  have hpid1 : k1.currentPid = k.currentPid := withdraws_pid hwith
  rw [post_bind]
  refine post_currentProcess (fun p1 hp1 => ?_) fun msg hm hmsg => ⟨k1, hstep1,
    hmsg, fun h hb _ _ => hm h (hb.pids _ hb.running)⟩
  refine post_seq (tellParent_quietly hb1 hp1 ret) (fun _ k2 h2 => ?_) (fun _ _ h => h)
    fun _ h => h.imp fun _ h => ⟨trans_of (StepBy _) hstep1 h.1.harmless, h.2⟩
  have hb2 := quiet_basic h2.1 hb1
  have hpid2 : k2.currentPid = k.currentPid := ((quiet_frame h2.1).pid).trans hpid1
  rw [← hpid2]
  refine post_mono (endProcess_post hb2 (hpid2 ▸ fun sidx => (quiet_callers h2.1).clear (hdone sidx)) ret)
    ?_ (fun _ _ h => h) fun _ h => h.imp fun _ h =>
      ⟨trans_of (StepBy _) (trans_of (StepBy _) hstep1 h2.harmless) h.1, h.2⟩
  rintro _ k' ⟨hsys, hhome, ⟨i2, i3, i4, i5, hq, hpass, hkill, hq', hgone⟩, hpages⟩
  rw [hpid2] at hsys hkill hgone hpages
  refine ⟨⟨hsys, k1.ipc, i2, i3, i4, i5, hwith, hdone, h2.1.trans hq, hpass, hkill, hq', hgone⟩, hhome,
    hpages, fun sidx s hs hpid => ?_⟩
  have hsheds : Sheds k1.ipc i5 := trans_of Sheds (quiet_sheds (h2.1.trans hq))
    (trans_of Sheds (passes_sheds hpass) (trans_of Sheds (killing_sheds hkill) (quiet_sheds hq')))
  exact gone_unreachable hgone (hsheds.unreachable sidx (hunreach sidx s hs hpid))

/-! ## 4. The calls -/

theorem terminateProcess_handled (hb : Basic k.ipc) (ret : Nat) :
    Handled (.terminateProcess ret) (dispatch k.currentTid (.terminateProcess ret)) k := by
  simp only [dispatch]
  rw [Handled, post_bind]
  refine post_mono (terminateCurrentProcess_post hb ret)
    (fun _ _ h => ⟨.terminate trivial h.ends, fun _ => h.home⟩) (fun _ _ h => h.elim) ?_
  rintro msg ⟨k', hk', hun⟩
  exact .of_home (fun _ => id) hb hk' hun

/-- The caller of `TerminatePid`, with its result written, makes way for the process that is to
end. -/
def insteadOf (k : Kernel) (pid : PID) : Kernel :=
  { setSavedResult k.currentThread .ok k with currentPid := pid, activeMapping := pid }

theorem insteadOf_moves (hp : k.ipc.parent pid ≠ none) :
    Move (.regs k.ipc.current) k.ipc (k.ipc.deliver k.currentThread .ok) ∧
      Move (.activate pid) (k.ipc.deliver k.currentThread .ok) (k.insteadOf pid).ipc := by
  refine ⟨regs_deliver _ _ _, ?_⟩
  rw [← ipc_setSavedResult]
  refine .activate ?_
  rw [ipc_setSavedResult]
  exact hp

/-- **`terminate_process`.** -/
theorem terminateOther_post (hb : Basic k.ipc) (pid : PID) (ret : Nat) : Exec.post (terminateOther k.currentTid pid ret)
      (fun _ k' => k.ipc.parent pid ≠ none ∧ k.ipc.parent pid ≠ some (some PID.kernel) ∧
        Terminated (k.insteadOf pid) k')
      (fun _ k' => k' = k)
      (fun msg => (msg = "index out of bounds" ∧ ¬ pid.get ≤ maxProcessCount) ∨ Aborts k msg) k := by
  unfold terminateOther
  rw [post_bind, post_get, post_bind]
  refine post_process (fun p hp hle => ?_) (fun _ => rfl) fun hle => .inl ⟨rfl, hle⟩
  have hparent : k.ipc.parent pid ≠ none := ipc_parent_ne_none hp
  split
  · rfl
  next hppid =>
    rw [post_bind]
    refine Exec.post_of_ok (setOwnResult_run k k.currentTid .ok) ?_
    rw [post_bind, post_unwrap]
    have hproc : (setSavedResult (k.currentPid, k.currentTid) .ok k).processes = k.processes := by
      unfold setSavedResult
      split
      · rfl
      · split <;> rfl
    refine post_process (fun _ _ _ => ?_) (fun hnone => ?_) fun h => absurd hle h
    · rw [post_bind, post_activate]
      obtain ⟨hregs, hact⟩ := insteadOf_moves hparent
      have hother : StepBy Harmless k (k.insteadOf pid) := by
        refine ⟨?_, fun _ => rfl⟩
        have h1 : Harmless (.regs k.ipc.current) := ⟨trivial, by simp⟩
        have h2 : Harmless (.activate pid) := ⟨trivial, by simp⟩
        exact (Moves.single h1 hregs).snoc h2 hact
      refine post_mono (terminateCurrentProcess_post (k := k.insteadOf pid)
        (does_basic hother.1 (fun _ hl => hl.2) hb) ret) (fun _ k' h => ⟨hparent, ?_, h⟩)
        (fun _ _ h => h.elim) fun msg h => .inr (h.imp fun _ h =>
          ⟨trans_of (StepBy _) hother h.1, h.2⟩)
      simpa [ipc, hp] using hppid
    · rw [hproc, hp] at hnone
      cases hnone

theorem terminatePid_handled {exitCode : Nat} (hb : Basic k.ipc) (hclear : Cleared k (.terminatePid pid exitCode)) :
    Handled (.terminatePid pid exitCode) (dispatch k.currentTid (.terminatePid pid exitCode)) k := by
  have hk := refl_of QuietStep k
  simp only [dispatch]
  refine handledFrom_get (handledFrom_process hb hk fun p hp => ?_)
  split
  · exact handledFrom_throw hk _
  next hpid =>
    rw [HandledFrom, post_bind]
    refine post_mono (terminateOther_post hb pid exitCode) ?_ ?_ ?_
    · rintro _ k' ⟨hparent, hsys, hterm⟩
      obtain ⟨hregs, hact⟩ := insteadOf_moves hparent
      exact ⟨.terminateOther trivial hpid hsys hregs hact hterm.ends, fun _ => hterm.home⟩
    · rintro _ _ rfl
      exact ⟨.quiet hk.1, hk.2⟩
    · rintro msg (⟨rfl, hle⟩ | ⟨k', hk', hun⟩)
      · exact .outOfBounds fun hin => hle (hin hclear)
      · exact .of_home (fun _ => id) hb hk' hun

end Kernel

end BeetKernel

/-
# Who has the display

The screen should be with a living process that asked for it, and go from one to the next in the order
in which they asked: never to a thread of the process that ends, and never to a thread which is not
blocked in `AcquireDisplay` any more.  `Screen` is that screen, and `screen_shared` says when the kernel
has the same owner and the same queue: no process ends while one of its threads waits.  The ring keeps
bare thread numbers, and nothing takes out those of a process that ends, which may even be the process
that is releasing the display.
-/
import BeetKernel.Display.Waiters
import BeetKernel.Ipc.Blocked

namespace BeetKernel

open Exec (wp_bind wp_get wp_mono wp_of_post wp)

/-! ## 1. The screen as it should be -/

/-- Who has the screen, and who waits for it, the longest first. -/
structure Screen where
  owner : Option ThreadId
  queue : List ThreadId
  deriving DecidableEq

namespace Screen

variable {s : Screen} {t : ThreadId} {pid : PID}

/-- Nobody has asked. -/
def blank : Screen := ⟨none, []⟩

/-- A thread asks for the screen. -/
def ask (s : Screen) (t : ThreadId) : Screen :=
  if s.owner.isSome then { s with queue := s.queue ++ [t] } else { s with owner := some t }

/-- The screen goes to the thread that has waited longest, or becomes free. -/
def pass (s : Screen) : Screen := ⟨s.queue.head?, s.queue.tail⟩

/-- The process gives the screen up, if it has it. -/
def giveUp (s : Screen) (pid : PID) : Screen :=
  if s.owner.map Prod.fst = some pid then s.pass else s

/-- The process ends: its threads wait no longer, and it gives the screen up. -/
def forget (s : Screen) (pid : PID) : Screen :=
  giveUp { s with queue := s.queue.filter fun t => t.1 ≠ pid } pid

theorem giveUp_sublist (s : Screen) (pid : PID) : (s.giveUp pid).queue.Sublist s.queue := by
  unfold giveUp
  split
  · exact List.tail_sublist _
  · exact .refl _

theorem forget_sublist (s : Screen) (pid : PID) : (s.forget pid).queue.Sublist s.queue :=
  (giveUp_sublist _ pid).trans List.filter_sublist

theorem giveUp_owner (h : t ∈ (s.giveUp pid).owner) : t ∈ s.owner ∧ t.1 ≠ pid ∨ t ∈ s.queue := by
  unfold giveUp at h
  split at h
  · exact .inr (List.mem_of_mem_head? h)
  next hother =>
    rw [Option.mem_def] at h
    refine .inl ⟨h, fun heq => hother ?_⟩
    rw [h, ← heq]
    rfl

theorem forget_owner (h : t ∈ (s.forget pid).owner) : (t ∈ s.owner ∨ t ∈ s.queue) ∧ t.1 ≠ pid := by
  rcases giveUp_owner h with ⟨ht, hne⟩ | ht
  · exact ⟨.inl ht, hne⟩
  · obtain ⟨hmem, hne⟩ := List.mem_filter.mp ht
    exact ⟨.inr hmem, of_decide_eq_true hne⟩

end Screen

/-! ## 2. The kernel's display is that screen -/

/-- The display has the owner and the queue of the screen. -/
structure DisplayState.Shows (d : DisplayState) (s : Screen) : Prop where
  owner : d.owner = s.owner
  queue : d.waiters = s.queue

namespace DisplayState

variable {d : DisplayState} {s : Screen} {t : ThreadId} {pid : PID} {alive : PID → Bool}

theorem Shows.of_same {d' : DisplayState} (h : d.Shows s) (ho : d'.owner = d.owner)
    (hw : d'.waiters = d.waiters) : d'.Shows s :=
  ⟨ho.trans h.owner, hw.trans h.queue⟩

theorem Shows.ownedBy (h : d.Shows s) : d.OwnedBy pid ↔ s.owner.map Prod.fst = some pid := by
  rw [OwnedBy, h.owner]

theorem Shows.ask (h : d.Shows s) (hroom : d.owner.isSome = true → d.waiters.length < displayWaiterMax) :
    (d.acquire t).Shows (s.ask t) := by
  unfold acquire Screen.ask
  rw [← h.owner]
  by_cases hown : d.owner.isSome = true
  · rw [if_pos hown, if_pos hown, if_pos (hroom hown), h.queue]
    exact ⟨rfl, rfl⟩
  · rw [if_neg hown, if_neg hown]
    exact ⟨rfl, h.queue⟩

/-- All the waiters are there, so that the first is served. -/
theorem passOn_shows (hq : d.waiters = s.queue) (halive : ∀ t ∈ d.waiters, alive t.1 = true)
    (hnone : d.owner = none) : (d.passOn alive).Shows s.pass := by
  unfold passOn Screen.pass
  rw [← hq]
  cases hw : d.waiters with
  | nil => exact ⟨hnone, rfl⟩
  | cons t rest =>
    have ht : alive t.1 = true := halive t (hw ▸ List.mem_cons_self)
    rw [List.dropWhile_cons_of_neg (by simp [ht])]
    exact ⟨rfl, rfl⟩

theorem Shows.release (h : d.Shows s) (halive : ∀ t ∈ d.waiters, alive t.1 = true) (row col : Nat) :
    (d.release alive pid row col).Shows (s.giveUp pid) := by
  unfold DisplayState.release Screen.giveUp
  by_cases hown : d.OwnedBy pid
  · rw [if_pos hown, if_pos (h.ownedBy.mp hown)]
    exact passOn_shows h.queue halive rfl
  · rw [if_neg hown, if_neg (mt h.ownedBy.mpr hown)]
    exact h

theorem Shows.exit (h : d.Shows s) (halive : ∀ t ∈ d.waiters, alive t.1 = true)
    (hnone : ∀ t ∈ d.waiters, t.1 ≠ pid) : (d.exit alive pid).Shows (s.forget pid) := by
  have hfilter : s.queue.filter (fun t => t.1 ≠ pid) = s.queue := by
    rw [← h.queue]
    exact List.filter_eq_self.mpr fun t ht => decide_eq_true (hnone t ht)
  unfold DisplayState.exit Screen.forget Screen.giveUp
  rw [hfilter]
  by_cases hown : d.OwnedBy pid
  · rw [if_pos hown, if_pos (h.ownedBy.mp hown)]
    exact passOn_shows h.queue halive rfl
  · rw [if_neg hown, if_neg (mt h.ownedBy.mpr hown)]
    exact h

end DisplayState

namespace Kernel

open Ipc

variable {k k' k₀ : Kernel} {e : Event} {es : List Event} {s : Screen} {t : ThreadId}

/-- The screen after the event. -/
def screenAfter (k : Kernel) (e : Event) (s : Screen) : Screen :=
  match k.endedBy e, e with
  | some pid, _ => s.forget pid
  | none, .svc _ .acquireDisplay => s.ask k.currentThread
  | none, .svc _ (.releaseDisplay _ _) => s.giveUp k.currentPid
  | none, _ => s

/-- A run with the screen as it should be, in which every step satisfies `C`. -/
inductive ScreenRun (C : Kernel → Event → Prop) (k₀ : Kernel) : List Event → Kernel → Screen → Prop where
  | nil : ScreenRun C k₀ [] k₀ .blank
  | snoc {es : List Event} {k k' : Kernel} {s : Screen} {e : Event} :
      ScreenRun C k₀ es k s → Step k e k' → C k e → ScreenRun C k₀ (es ++ [e]) k' (k.screenAfter e s)

/-- No process ends while one of its threads waits for the display, and there is room in the ring for
those who have to wait; and servers come and go in order. -/
structure Orderly (k : Kernel) (e : Event) : Prop where
  ending : ∀ pid, k.endedBy e = some pid → ∀ t ∈ k.display.waiters, t.1 ≠ pid
  room : ∀ frame, e = .svc frame .acquireDisplay → k.display.owner.isSome = true →
    k.display.waiters.length < displayWaiterMax
  queues : ClearQueues k e
  receivers : NoReceivers k e

/-- The kernel has the screen right: its owner lives, and those who wait are blocked in their calls. -/
structure ScreenShared (k : Kernel) (s : Screen) : Prop where
  quiescent : Ordered.Quiescent k.ipc
  shows : k.display.Shows s
  lives : ∀ t ∈ s.owner, k.alive t.1 = true
  nodup : s.queue.Nodup
  waits : ∀ t ∈ s.queue, k.alive t.1 = true ∧ Blocked t k.ipc

namespace ScreenShared

theorem alive (h : ScreenShared k s) : ∀ t ∈ k.display.waiters, k.alive t.1 = true := by
  rw [h.shows.queue]
  exact fun t ht => (h.waits t ht).1

theorem displayFair (h : ScreenShared k s) (e : Event) : DisplayFair k e := by
  intro _ old t rest hlist _ _
  have hmem : t ∈ s.queue := by
    rw [← h.shows.queue, show k.display.waiters = _ from hlist]
    simp
  exact (h.waits t hmem).2.future

end ScreenShared

/-! ### One step -/

theorem displayAfter_shows (h : ScreenShared k s) (ho : Orderly k e) :
    (k.displayAfter e).Shows (k.screenAfter e s) := by
  unfold displayAfter screenAfter
  cases hend : k.endedBy e with
  | some pid => exact h.shows.exit h.alive (ho.ending pid hend)
  | none =>
    cases e with
    | input _ _ | idle _ => exact h.shows.of_same (foldl_type_screen _ _).1 (foldl_type_screen _ _).2
    | svc frame call =>
      cases call with
      | acquireDisplay => exact h.shows.ask (ho.room frame rfl)
      | releaseDisplay row col => exact h.shows.release h.alive row col
      | acquireInputFocus sid =>
        dsimp only
        unfold DisplayState.focus
        split
        · exact h.shows.of_same rfl rfl
        · exact h.shows
      | releaseInputFocus => exact h.shows.of_same rfl rfl
      | _ => exact h.shows
    | _ => exact h.shows

/-- What the event does to the screen. -/
inductive Redraws (k : Kernel) (s : Screen) : Event → Screen → Prop where
  | ends {e : Event} {pid : PID} (h : k.endedBy e = some pid) : Redraws k s e (s.forget pid)
  | asks (frame : Context) : Redraws k s (.svc frame .acquireDisplay) (s.ask k.currentThread)
  | gives {e : Event} (h : k.endedBy e = none) : Redraws k s e (s.giveUp k.currentPid)
  | same {e : Event} (h : k.endedBy e = none) : Redraws k s e s

theorem screenAfter_redraws (k : Kernel) (e : Event) (s : Screen) : Redraws k s e (k.screenAfter e s) := by
  unfold screenAfter
  split
  next hend =>
    exact .ends hend
  · exact .asks _
  · exact .gives rfl
  next hend =>
    exact .same hend

namespace Redraws

variable {s' : Screen}

/-- Whoever waits afterwards has waited before, or is the thread that asks for a screen which is taken. -/
theorem queue (h : Redraws k s e s') (ht : t ∈ s'.queue) : t ∈ s.queue ∨
    (∃ frame, e = .svc frame .acquireDisplay) ∧ s.owner.isSome = true ∧ t = k.currentThread := by
  cases h with
  | ends _ => exact .inl ((Screen.forget_sublist _ _).mem ht)
  | asks frame =>
    unfold Screen.ask at ht
    split at ht
    next hown =>
      rcases List.mem_append.mp ht with ht | ht
      · exact .inl ht
      · exact .inr ⟨⟨frame, rfl⟩, hown, List.mem_singleton.mp ht⟩
    · exact .inl ht
  | gives _ => exact .inl ((Screen.giveUp_sublist _ _).mem ht)
  | same _ => exact .inl ht

theorem nodup (h : Redraws k s e s') (hs : s.queue.Nodup) (hcur : k.currentThread ∉ s.queue) : s'.queue.Nodup := by
  cases h with
  | ends _ => exact hs.sublist (Screen.forget_sublist _ _)
  | asks frame =>
    unfold Screen.ask
    split
    · exact List.nodup_append.mpr ⟨hs, List.nodup_singleton _, fun a ha b hb => by
        rintro rfl
        exact hcur (List.mem_singleton.mp hb ▸ ha)⟩
    · exact hs
  | gives _ => exact hs.sublist (Screen.giveUp_sublist _ _)
  | same _ => exact hs

theorem owner (h : Redraws k s e s') (ht : t ∈ s'.owner) :
    (t ∈ s.owner ∨ t ∈ s.queue ∨ t = k.currentThread) ∧ k.endedBy e ≠ some t.1 := by
  cases h with
  | ends hend =>
    obtain ⟨hmem, hne⟩ := Screen.forget_owner ht
    refine ⟨hmem.imp_right Or.inl, ?_⟩
    rw [hend]
    exact fun heq => hne (Option.some.inj heq).symm
  | asks frame =>
    refine ⟨?_, nofun⟩
    unfold Screen.ask at ht
    split at ht
    · exact .inl ht
    · exact .inr (.inr (Option.some.inj ht).symm)
  | gives hend =>
    refine ⟨(Screen.giveUp_owner ht).imp (·.1) Or.inl, ?_⟩
    rw [hend]
    nofun
  | same hend =>
    refine ⟨.inl ht, ?_⟩
    rw [hend]
    nofun

end Redraws

theorem tryAcquireDisplay_taken (hown : k.display.owner.isSome = true) (pid : PID) (tid : TID) :
    wp (tryAcquireDisplay pid tid) (fun got k' => got = false ∧ k'.ipc.current = k.ipc.current)
      (fun _ _ => False) k := by
  simp only [tryAcquireDisplay, wp_bind, wp_get]
  rw [if_pos hown, wp_bind, setDisplay, Exec.wp_modify, Exec.wp_pure]
  exact ⟨rfl, rfl⟩

/-- The handler suspends the thread, with nothing in its mailbox. -/
theorem handle_acquireDisplay_taken (hq : Ordered.Quiescent k.ipc) (hu : k.ipc.pid ≠ PID.kernel)
    (hown : k.display.owner.isSome = true) :
    wp (handle k.currentTid .acquireDisplay)
      (fun r k' => r = .activateCurrent ∧ Ordered none none k'.ipc ∧ Blocked k.currentThread k'.ipc)
      (fun _ _ => False) k := by
  rw [handle_of_unchecked rfl]
  simp only [dispatch, wp_bind, wp_get]
  refine wp_mono (Exec.wp_and (tryAcquireDisplay_taken hown _ _)
    (wp_of_post (tryAcquireDisplay_post k))) ?_ fun _ _ h => h.2.elim
  rintro _ k2 ⟨⟨rfl, hcur⟩, -, hno⟩
  have hstep := (hno rfl).1
  have htid : k2.currentTid = k.currentTid := congrArg Prod.snd hcur
  rw [if_neg (by decide), wp_bind, ← htid]
  refine wp_mono (wp_of_post (suspendWithFuture_post .waitDisplay eventKernel k2)) ?_ fun _ _ h => h
  rintro _ k3 hset
  have hyields : Yields .acquireDisplay k.ipc k3.ipc := .wait (by simp) hstep (.wait (by simp) hset)
  have hgoing : Going k.ipc.current k2.ipc := hq.going.aside (Ordered.own_aside hstep)
  have hblocked : Blocked k.currentThread (k2.ipc.setFuture k2.ipc.current (some .waitDisplay)) := by
    rw [hcur]
    exact ⟨setFuture_self .., (hq.order.own hstep).no_mail hgoing.2⟩
  exact ⟨rfl, hq.order.yields hyields (fun h => h.elim) hq.going hu, hblocked.setState hset⟩

/-- **A thread that asks for a display which is taken is blocked in its call.** -/
theorem acquireDisplay_blocks {frame : Context} (hq : Ordered.Quiescent k.ipc)
    (hown : k.display.owner.isSome = true) (hs : Step k (.svc frame .acquireDisplay) k') :
    Blocked k.currentThread k'.ipc := by
  have hregs := saveContext_regs k.currentThread frame k
  have hcur : (saveContext k.currentThread frame k).currentThread = k.currentThread :=
    aside_current (.single (by trivial) hregs) hq.order.toBasic
  have hsaved := handle_acquireDisplay_taken (hq.regs hregs) (by
    rw [show (saveContext k.currentThread frame k).ipc.pid = k.currentPid from congrArg Prod.fst hcur]
    exact hs.1) (by rwa [saveContext_eq])
  rw [show (saveContext k.currentThread frame k).currentTid = k.currentTid from congrArg Prod.snd hcur, hcur] at hsaved
  have hwp : wp (exec (.svc frame .acquireDisplay)) (fun _ k' => Blocked k.currentThread k'.ipc)
      (fun _ _ => True) k := by
    simp only [exec, handleSvc, handleCall, wp_bind, wp_get, Exec.wp_modify, Exec.wp_attempt]
    refine wp_mono hsaved ?_ fun _ _ h => h.elim
    rintro _ k3 ⟨rfl, ho, hb⟩
    refine wp_mono (wp_of_post (activateCurrent_post ho.toBasic)) ?_ ?_
    · rintro _ k4 ⟨rfl, hsched, -⟩
      exact (Blocked.schedules ho hsched).2 _ hb
    · rintro _ k4 ⟨-, hfails, -⟩
      exact (ho.not_failing hfails).elim
  have hend := Exec.wp_ok hwp hs.2
  exact hend

theorem parent_ne_none {pid : PID} (h : k.alive pid = true) : k.ipc.parent pid ≠ none := by
  simpa [Kernel.alive, ipc, Option.isSome_iff_ne_none] using h

/-- **One step**: the kernel keeps the screen right. -/
theorem step_screenShared (h : ScreenShared k s) (ho : Orderly k e) (hs : Step k e k') :
    ScreenShared k' (k.screenAfter e s) := by
  have hb := h.quiescent.order.toBasic
  have hleaves := step_leaves hb hs
  have hfair := h.displayFair e
  have hredraws := screenAfter_redraws k e s
  have hshows : k'.display.Shows (k.screenAfter e s) := hleaves.display ▸ displayAfter_shows h ho
  have hlives : ∀ t ∈ s.queue, k.endedBy e ≠ some t.1 := fun t ht hend =>
    ho.ending t.1 hend t (h.shows.queue ▸ ht) rfl
  refine ⟨step_quiescent h.quiescent ho.queues hfair (.inl ho.receivers) hs, hshows, fun t ht => ?_,
    hredraws.nodup h.nodup fun hmem => (h.waits _ hmem).2.ne_of_going h.quiescent.going rfl, fun t ht => ?_⟩
  · obtain ⟨hwas, hne⟩ := hredraws.owner ht
    refine hleaves.alive _ ?_ hne
    rcases hwas with hwas | hwas | rfl
    · exact h.lives t hwas
    · exact (h.waits t hwas).1
    · exact alive_current hb
  · rcases hredraws.queue ht with hwas | ⟨⟨frame, rfl⟩, hown, rfl⟩
    · have halive := hleaves.alive _ (h.waits t hwas).1 (hlives t hwas)
      refine ⟨halive, (h.waits t hwas).2.reacts h.quiescent (step_reacts hb hs).1
        (admits ho.queues hfair (.inl ho.receivers)) ?_ ⟨?_, ?_, ?_⟩ ?_⟩
      · cases e with
        | idle chars => exact .inr ⟨chars, rfl⟩
        | store | svc | invalidSvc | timer | input | abort => exact .inl hs.1
      · rw [show k.ipc.waiters = s.queue from h.shows.queue]
        exact h.nodup
      · exact fun u hu => parent_ne_none (h.alive u hu)
      · rw [show k'.ipc.waiters = _ from hshows.queue]
        exact ht
      · exact parent_ne_none halive
    · refine ⟨hleaves.alive _ (alive_current hb) nofun, acquireDisplay_blocks h.quiescent ?_ hs⟩
      rw [h.shows.owner]
      exact hown

/-! ## 3. Runs -/

theorem ScreenRun.shared (h₀ : Booted k₀) (hnone : k₀.display.owner = none)
    (hr : ScreenRun Orderly k₀ es k s) : ScreenShared k s := by
  induction hr with
  | nil => exact ⟨h₀.ipc.quiescent, ⟨hnone, h₀.ipc.waiters⟩, nofun, List.nodup_nil, nofun⟩
  | snoc _ hs ho ih => exact step_screenShared ih ho hs

/-- The events one after the other, with the screen as it should be, while `c` holds. -/
def execScreen (c : Kernel → Event → Bool) : List Event → Kernel × Screen → Option (Kernel × Screen)
  | [], x => some x
  | e :: es, (k, s) =>
    if Enabled k e ∧ c k e = true then
      match exec e k with
      | .ok _ k' => execScreen c es (k', k.screenAfter e s)
      | _ => none
    else none

theorem execScreen_run {C : Kernel → Event → Prop} {c : Kernel → Event → Bool}
    (hc : ∀ k e, c k e = true → C k e) {k1 : Kernel} {s1 : Screen} {es₀ : List Event}
    (h₀ : ScreenRun C k₀ es₀ k1 s1) (hx : execScreen c es (k1, s1) = some (k, s)) :
    ScreenRun C k₀ (es₀ ++ es) k s := by
  induction es generalizing k1 s1 es₀ with
  | nil =>
    cases hx
    rw [List.append_nil]
    exact h₀
  | cons e es ih =>
    unfold execScreen at hx
    split at hx
    next henabled =>
      split at hx
      next k' hexec =>
        have hrun := ih (h₀.snoc ⟨henabled.1, hexec⟩ (hc _ _ henabled.2)) hx
        rwa [List.append_assoc] at hrun
      · cases hx
    · cases hx

/-- Threads yield, and ask for the display and release it, while there is room in the ring. -/
def calm (k : Kernel) : Event → Bool
  | .svc _ .acquireDisplay => k.display.waiters.length < displayWaiterMax
  | .svc _ .yield | .svc _ (.releaseDisplay _ _) => true
  | _ => false

theorem orderly_of_calm (k : Kernel) (e : Event) (h : k.calm e = true) : Orderly k e := by
  unfold calm at h
  split at h
  · refine ⟨nofun, fun _ _ _ => of_decide_eq_true h, fun hc => hc.elim, ?_⟩
    rintro _ _ ⟨⟩
  · exact ⟨nofun, nofun, fun hc => hc.elim, nofun⟩
  · exact ⟨nofun, nofun, fun hc => hc.elim, nofun⟩
  · cases h

end Kernel

namespace Machine

open Kernel

/-- Process 2 takes the display, process 3 waits for it, and process 2 releases it. -/
def passedEvents : List Event :=
  [.svc frame .acquireDisplay, .svc frame .yield, .svc frame .acquireDisplay, .svc frame .yield,
    .svc frame (.releaseDisplay 0 0)]

/-- Process 2 takes the display, its second thread asks for it too, and the process ends. -/
def orphanedEvents : List Event :=
  [.svc frame .acquireDisplay, .svc frame (.createThread ⟨0, 0, 0, 0, 0, 0⟩), .svc frame .yield,
    .svc frame .yield, .svc frame .yield, .svc frame .acquireDisplay, .svc frame (.terminateProcess 0)]

end Machine

namespace Kernel

open Machine

end Kernel

end BeetKernel

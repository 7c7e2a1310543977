/-
# What a step does to the display

The display has one owner, a ring of waiters, the server that has the keyboard, and a buffer for
what is typed meanwhile.  `DisplayState` has one function for each thing that can happen to it,
and `step_display` says that a step of the machine is EXACTLY one of these: the calls that are about
the display, the end of a process, and typed characters.  No other step touches it.
-/
import BeetKernel.Ipc.Runs

namespace BeetKernel

namespace DisplayState

/-- `try_acquire_display`: the display is given out, or the thread is entered in the ring. -/
def acquire (d : DisplayState) (t : ThreadId) : DisplayState :=
  if d.owner.isSome then
    { d with waiters := if d.waiters.length < displayWaiterMax then d.waiters ++ [t] else d.waiters }
  else { d with owner := some t }

/-- The display goes to the first waiter whose process is there. -/
def passOn (alive : PID → Bool) (d : DisplayState) : DisplayState :=
  match d.waiters.dropWhile (fun t => !alive t.1) with
  | [] => { d with waiters := [] }
  | t :: rest => { d with waiters := rest, owner := some t }

/-- The process has the display. -/
def OwnedBy (d : DisplayState) (pid : PID) : Prop := d.owner.map Prod.fst = some pid

instance (d : DisplayState) (pid : PID) : Decidable (d.OwnedBy pid) := inferInstanceAs (Decidable (_ = _))

/-- `release_display` -/
def release (d : DisplayState) (alive : PID → Bool) (pid : PID) (row col : Nat) : DisplayState :=
  if d.OwnedBy pid then
    passOn alive { d with owner := none, cursorRow := row, cursorCol := col }
  else d

/-- `release_display_on_exit` -/
def exit (d : DisplayState) (alive : PID → Bool) (pid : PID) : DisplayState :=
  if d.OwnedBy pid then passOn alive { d with owner := none, inputSid := none } else d

/-- `acquire_input_focus` -/
def focus (d : DisplayState) (pid : PID) (sid : SID) : DisplayState :=
  if d.OwnedBy pid then { d with inputSid := some sid, inputBuf := [] } else d

/-- `push_input_char`, if nobody has the keyboard. -/
def type (d : DisplayState) (c : UInt8) : DisplayState :=
  if d.inputSid.isSome then d
  else { d with
    inputBuf := (if d.inputBuf.length < Kernel.inputBufCap then d.inputBuf else d.inputBuf.tail) ++ [c] }

end DisplayState

namespace Kernel

open Exec (Along wp_and wp_assert wp_bind wp_get wp_modify wp_mono wp_okOr wp wp_seq)
open Ipc

variable {k k' : Kernel} {α : Type}
variable {pid : PID} {d : DisplayState} {e : Event} {call : SysCall}

/-- The process is in the table. -/
def alive (k : Kernel) (pid : PID) : Bool := (k.processes pid).isSome

/-! ## 1. Code that leaves the display alone -/

/-- The display is as it was, and the same processes are there. -/
structure Shown (k k' : Kernel) : Prop where
  display : k'.display = k.display
  alive : k'.alive = k.alive

/-- The display is as it was, and no process has gone. -/
structure Grows (k k' : Kernel) : Prop where
  display : k'.display = k.display
  alive : ∀ pid, k.alive pid = true → k'.alive pid = true

instance : IsPreorder Kernel Shown where
  refl _ := ⟨rfl, rfl⟩
  trans _ _ _ h1 h2 := ⟨h2.display.trans h1.display, h2.alive.trans h1.alive⟩

instance : IsPreorder Kernel Grows where
  refl _ := ⟨rfl, fun _ => id⟩
  trans _ _ _ h1 h2 := ⟨h2.display.trans h1.display, fun pid h => h2.alive pid (h1.alive pid h)⟩

theorem Shown.grows (h : Shown k k') : Grows k k' := ⟨h.display, fun _ hp => h.alive ▸ hp⟩

theorem Shown.of_tables (h : SameTables k k') : Shown k k' :=
  ⟨h.display, funext fun _ => congrArg (fun ps : PID → Option Process => (ps _).isSome) h.processes⟩

theorem alive_update {p q : Process} (hp : k.processes pid = some p) :
    ({ k with processes := Function.update k.processes pid (some q) } : Kernel).alive = k.alive := by
  funext pid'
  by_cases h : pid' = pid
  · subst h
    simp [alive, hp]
  · simp [alive, h]

theorem shown_frame : OpenFrame Shown where
  outside h := .of_tables h
  process hp := ⟨rfl, alive_update hp⟩
  server := ⟨rfl, rfl⟩

theorem grows_frame : OpenFrame Grows where
  outside h := (Shown.of_tables h).grows
  process hp := Shown.grows ⟨rfl, alive_update hp⟩
  server := Shown.grows ⟨rfl, rfl⟩

theorem grows_birth : AllowsBirth Grows := fun k pid q _ => by
  refine ⟨rfl, fun pid' h => ?_⟩
  by_cases hpid : pid' = pid
  · simp [alive, hpid]
  · simpa [alive, hpid] using h

theorem wp_after_shown {β : Type} {m : KExec α} {f : α → KExec β} {Q : β → Kernel → Prop}
    (hm : Along Shown m) (h : ∀ a k', Shown k k' → wp (f a) Q (fun _ _ => True) k') :
    wp (m >>= f) Q (fun _ _ => True) k := by
  rw [wp_bind]
  exact wp_mono (hm k) h fun _ _ _ => trivial

/-! ## 2. The display is passed on -/

theorem handDisplayOver_display (row col : Nat) {alive : PID → Bool} (l : List ThreadId)
    (k : Kernel) (hd : k.display = d) (ha : k.alive = alive) :
    wp (handDisplayOver row col l)
      (fun _ k' => k'.display = DisplayState.passOn alive { d with waiters := l } ∧ k'.alive = alive)
      (fun _ k' => k'.display = DisplayState.passOn alive { d with waiters := l } ∧ k'.alive = alive)
      k := by
  subst hd ha
  induction l with
  | nil => exact ⟨rfl, rfl⟩
  | cons t rest ih =>
    unfold handDisplayOver
    simp only [wp_bind (m := Exec.attempt _), Exec.wp_attempt, process, wp_bind, wp_assert, wp_get, wp_okOr]
    refine fun _ => ⟨fun p hp => ?_, fun hnone => ?_⟩
    · -- its process is there
      have hpass : DisplayState.passOn k.alive { k.display with waiters := t :: rest } =
          { k.display with waiters := rest, owner := some t } := by
        have halive : k.alive t.1 = true := by simp [alive, hp]
        simp [DisplayState.passOn, halive]
      have hrest : Along Shown (do mapFbFor t.1; wakeThreadWithResult t (.scalar2 row col)) :=
        (shown_frame.toServiceFrame.mapFbFor _).bind fun _ =>
          shown_frame.toServiceFrame.wakeThreadWithResult _ _
      have h := hrest { k with display := { k.display with waiters := rest, owner := some t } }
      rw [wp_bind] at h
      rw [hpass, wp_modify]
      exact wp_mono h (fun _ _ h2 => wp_mono h2 (fun _ _ h3 => ⟨h3.display, h3.alive⟩)
        fun _ _ h3 => ⟨h3.display, h3.alive⟩) fun _ _ h2 => ⟨h2.display, h2.alive⟩
    · have hdead : k.alive t.1 = false := by simp [alive, hnone]
      have hskip : DisplayState.passOn k.alive { k.display with waiters := t :: rest } =
          DisplayState.passOn k.alive { k.display with waiters := rest } := by
        simp [DisplayState.passOn, hdead]
      rw [hskip]
      exact ih

theorem releaseDisplay_display (row col : Nat) (k : Kernel) : wp (releaseDisplay row col)
      (fun _ k' => k'.display = k.display.release k.alive k.currentPid row col ∧ k'.alive = k.alive)
      (fun _ _ => True) k := by
  unfold releaseDisplay
  rw [wp_bind, wp_get]
  by_cases hown : k.display.OwnedBy k.currentPid
  · rw [DisplayState.release, if_pos hown]
    rw [DisplayState.OwnedBy] at hown
    dsimp only
    rw [if_pos hown, wp_bind, setDisplay, wp_modify]
    refine wp_after_shown (shown_frame.toServiceFrame.unmapFbFor _) fun _ k1 h1 => ?_
    exact wp_mono (handDisplayOver_display row col k.display.waiters k1
      (d := { k.display with owner := none, cursorRow := row, cursorCol := col })
      h1.display h1.alive) (fun _ _ h => h) fun _ _ _ => trivial
  · rw [DisplayState.release, if_neg hown]
    rw [DisplayState.OwnedBy] at hown
    dsimp only
    rw [if_neg hown]
    exact ⟨rfl, rfl⟩

theorem releaseDisplayOnExit_display (pid : PID) (k : Kernel) : wp (releaseDisplayOnExit pid)
      (fun _ k' => k'.display = k.display.exit k.alive pid ∧ k'.alive = k.alive)
      (fun _ _ => True) k := by
  unfold releaseDisplayOnExit
  rw [wp_bind, wp_get]
  by_cases hown : k.display.OwnedBy pid
  · rw [DisplayState.exit, if_pos hown]
    rw [DisplayState.OwnedBy] at hown
    rw [if_pos hown, wp_bind, setDisplay, wp_modify]
    exact wp_mono (handDisplayOver_display _ _ k.display.waiters _
      (d := { k.display with owner := none, inputSid := none }) rfl rfl)
      (fun _ _ h => h) fun _ _ _ => trivial
  · rw [DisplayState.exit, if_neg hown]
    rw [DisplayState.OwnedBy] at hown
    rw [if_neg hown]
    exact ⟨rfl, rfl⟩

/-! ## 3. A process ends -/

theorem alive_without (k : Kernel) (pid : PID) :
    ({ k with processes := Function.update k.processes pid none } : Kernel).alive =
      fun p => k.alive p && decide (p ≠ pid) := by
  funext p
  by_cases h : p = pid
  · simp [alive, h]
  · simp [alive, h]

/-- **The end of the running process.** -/
theorem terminateCurrentProcess_display (ret : Nat) (k : Kernel) : wp (terminateCurrentProcess ret)
      (fun _ k' => k'.display = k.display.exit k.alive k.currentPid ∧
        k'.alive = fun p => k.alive p && decide (p ≠ k.currentPid)) (fun _ _ => True) k := by
  have hf := shown_frame.toServiceFrame
  rw [terminateCurrentProcess_eq, wp_bind, wp_get]
  refine wp_after_shown currentProcess_along fun _ k1 h1 => ?_
  refine wp_after_shown (.assert _ _) fun _ k2 h2 => ?_
  refine wp_after_shown (hf.closeServers shown_frame.destroySidx _) fun _ k3 h3 => ?_
  refine wp_after_shown currentProcess_along fun p k4 h4 => ?_
  have htell : Along Shown (tellParent p ret) := by
    unfold tellParent
    split
    · exact (hf.sendEvent _ _ _).ignore
    · exact .pure _
  refine wp_after_shown htell fun _ k5 h5 => ?_
  unfold endProcess
  rw [wp_bind, wp_get]
  refine wp_after_shown (Along.each fun _ _ => hf.wakeThreadWithResult _ _) fun _ k6 h6 => ?_
  have hstart : Shown k k6 := trans_of Shown h1 (trans_of Shown h2 (trans_of Shown h3
    (trans_of Shown h4 (trans_of Shown h5 h6))))
  refine wp_seq (releaseDisplayOnExit_display k.currentPid k6) ?_ fun _ _ _ => trivial
  rintro _ k7 ⟨hdisplay, halive⟩
  refine wp_after_shown (process_along _) fun _ k8 h8 => ?_
  refine wp_after_shown (hf.terminateProcess _) fun _ k9 h9 => ?_
  rw [wp_bind, wp_modify]
  refine wp_after_shown ((process_along _).unwrap _) fun _ k₁₀ h₁₀ => ?_
  refine wp_after_shown (hf.visits.activate _) fun _ k11 h11 => ?_
  have hend := trans_of Shown h8 h9
  have hlast := trans_of Shown h₁₀ h11
  rw [wp_modify]
  constructor
  · exact hlast.display.trans (hend.display.trans (by rw [hdisplay, hstart.display, hstart.alive]))
  · funext p
    have hlive : (({ k11 with processes := fun p => (k11.processes p).map (orphan k.currentPid) }) :
        Kernel).alive p = k11.alive p := Option.isSome_map
    rw [hlive, hlast.alive, alive_without, hend.alive, halive, hstart.alive]

/-! ## 4. Steps -/

/-- `TerminatePid` for this process is not refused. -/
def mayEnd (k : Kernel) (pid : PID) : Bool :=
  (k.processes k.currentPid).any (·.syscallPermissions.getLsbD 53) && decide (pid ≠ k.currentPid) &&
    (k.processes pid).any fun p => decide (p.ppid ≠ some PID.kernel)

/-- The process that the event ends. -/
def endedBy (k : Kernel) : Event → Option PID
  | .svc _ (.terminateProcess _) | .abort _ => some k.currentPid
  | .svc _ (.terminatePid pid _) => if k.mayEnd pid then some pid else none
  | _ => none

/-- The display after the event. -/
def displayAfter (k : Kernel) (e : Event) : DisplayState :=
  match k.endedBy e, e with
  | some pid, _ => k.display.exit k.alive pid
  | none, .svc _ .acquireDisplay => k.display.acquire k.currentThread
  | none, .svc _ (.releaseDisplay row col) => k.display.release k.alive k.currentPid row col
  | none, .svc _ (.acquireInputFocus sid) => k.display.focus k.currentPid sid
  | none, .svc _ .releaseInputFocus => { k.display with inputSid := none }
  | none, .input _ chars | none, .idle chars => chars.foldl DisplayState.type k.display
  | none, _ => k.display

/-- What the step of an event leaves: the display, and the processes that do not end with it. -/
structure Leaves (k : Kernel) (e : Event) (k' : Kernel) : Prop where
  display : k'.display = k.displayAfter e
  alive : ∀ pid, k.alive pid = true → k.endedBy e ≠ some pid → k'.alive pid = true
  ended : ∀ pid, k.endedBy e = some pid → k'.alive pid = false

theorem Leaves.after {k1 : Kernel} (h : Leaves k e k1) (hs : Shown k1 k') : Leaves k e k' where
  display := hs.display.trans h.display
  alive pid hp he := hs.alive ▸ h.alive pid hp he
  ended pid he := hs.alive ▸ h.ended pid he

theorem Leaves.before {k1 : Kernel} (hs : SameTables k k1)
    (hcur : k1.currentThread = k.currentThread) (h : Leaves k1 e k') : Leaves k e k' := by
  have halive : k1.alive = k.alive := (Shown.of_tables hs).alive
  have hpid : k1.currentPid = k.currentPid := congrArg Prod.fst hcur
  have hends : k1.endedBy = k.endedBy := by
    funext e
    unfold endedBy mayEnd
    rw [hs.processes, hpid]
  obtain ⟨h1, h2, h3⟩ := h
  unfold displayAfter at h1
  rw [hends, hs.display, halive, hpid, hcur] at h1
  rw [hends, halive] at h2
  rw [hends] at h3
  exact ⟨h1, h2, h3⟩

theorem Leaves.of_grows (h : Grows k k') (hends : k.endedBy e = none)
    (hd : k.displayAfter e = k.display) : Leaves k e k' :=
  ⟨h.display.trans hd.symm, fun pid hp _ => h.alive pid hp, fun pid he => by rw [hends] at he; cases he⟩

theorem terminateCurrentProcess_ends (hb : Basic k.ipc) (ret : Nat) : wp (terminateCurrentProcess ret)
      (fun _ k' => k'.display = k.display.exit k.alive k.currentPid ∧
        k'.alive = fun p => k.alive p && decide (p ≠ k.currentPid)) (fun _ _ => False) k :=
  wp_mono (wp_and (terminateCurrentProcess_display ret k)
    (Exec.wp_of_post (terminateCurrentProcess_post hb ret))) (fun _ _ h => h.1) fun _ _ h => h.2

theorem Leaves.of_ended (he : k.endedBy e = some pid)
    (h : k'.display = k.display.exit k.alive pid ∧ k'.alive = fun p => k.alive p && decide (p ≠ pid)) :
    Leaves k e k' where
  display := by
    unfold displayAfter
    rw [he]
    exact h.1
  alive p hp hne := by
    have hne' : p ≠ pid := fun hpid => hne (he.trans (congrArg some hpid.symm))
    rw [h.2]
    simp [hp, hne']
  ended p hp := by
    obtain rfl : pid = p := Option.some.inj (he.symm.trans hp)
    rw [h.2]
    simp

theorem dispatchInputChar_display (c : UInt8) (k : Kernel) :
    wp (dispatchInputChar c) (fun _ k' => k'.display = k.display.type c ∧ k'.alive = k.alive)
      (fun _ k' => k'.display = k.display.type c ∧ k'.alive = k.alive) k := by
  unfold dispatchInputChar DisplayState.type
  rw [wp_bind, wp_get]
  split
  next sid hsid =>
    rw [hsid, Option.isSome_some, if_pos rfl]
    exact wp_mono (shown_frame.toServiceFrame.deliverCharToSid sid c k)
      (fun _ _ h => ⟨h.display, h.alive⟩) fun _ _ h => ⟨h.display, h.alive⟩
  next hnone =>
    have hsome : ¬ k.display.inputSid.isSome = true := by simp [hnone]
    rw [if_neg hsome]
    exact ⟨rfl, rfl⟩

theorem dispatchInputChars_display (chars : List UInt8) (k : Kernel) : wp (Exec.each dispatchInputChar chars)
      (fun _ k' => k'.display = chars.foldl DisplayState.type k.display ∧ k'.alive = k.alive)
      (fun _ _ => True) k := by
  induction chars generalizing k with
  | nil => exact ⟨rfl, rfl⟩
  | cons c rest ih =>
    rw [Exec.each, wp_bind]
    refine wp_mono (dispatchInputChar_display c k) (fun _ k1 h1 => ?_) fun _ _ _ => trivial
    refine wp_mono (ih k1) (fun _ k2 h2 => ?_) fun _ _ _ => trivial
    rw [List.foldl_cons, ← h1.1, ← h1.2]
    exact h2

/-- A call is over when its handler is: afterwards the scheduler runs and registers are written. -/
theorem exec_svc_leaves {frame : Context} (h : wp (handle k.currentTid call) (fun _ k' => Leaves k (.svc frame call) k')
      (fun _ k' => Leaves k (.svc frame call) k') (saveContext k.currentThread frame k)) :
    wp (exec (.svc frame call)) (fun _ k' => Leaves k (.svc frame call) k') (fun _ _ => True) k := by
  have hregs : ∀ {k1 : Kernel} (t : ThreadId) (r : Result), Leaves k (.svc frame call) k1 →
      Leaves k (.svc frame call) (setSavedResult t r k1) :=
    fun t r h => h.after (.of_tables (setSavedResult_sameTables t r _))
  have hcall : wp (handleCall k.currentTid call) (fun _ k' => Leaves k (.svc frame call) k')
      (fun _ k' => Leaves k (.svc frame call) k') (saveContext k.currentThread frame k) := by
    rw [handleCall, wp_bind]
    refine wp_mono h (fun r k1 h1 => ?_) fun _ _ h1 => h1
    cases r with
    | result r => exact h1
    | activateCurrent =>
      exact wp_mono (shown_frame.toServiceFrame.activateCurrent k1) (fun _ _ hs => h1.after hs)
        fun _ _ hs => h1.after hs
  simp only [exec, handleSvc, wp_bind, wp_get, wp_modify, Exec.wp_attempt]
  refine wp_mono hcall (fun r k1 h1 => ?_) fun _ k1 h1 => hregs _ _ h1
  split
  · exact h1
  · exact hregs _ _ h1
  · exact hregs _ _ h1

theorem handle_leaves_of_grows {tid : TID} (h : Along Grows (dispatch tid call))
    (hends : k.endedBy e = none) (hd : k.displayAfter e = k.display) :
    wp (handle tid call) (fun _ k' => Leaves k e k') (fun _ k' => Leaves k e k') k := by
  have hhandle : Along Grows (handle tid call) := by
    refine Along.bind (fun k => ?_) fun _ => h
    exact wp_mono (checkSyscallPermission_same call k) (fun _ _ hk => hk ▸ refl_of Grows k)
      fun _ _ hk => hk ▸ refl_of Grows k
  exact wp_mono (hhandle k) (fun _ _ h => .of_grows h hends hd) fun _ _ h => .of_grows h hends hd

theorem handle_of_unchecked {tid : TID} (h : checkSyscallPermission call = pure ()) :
    handle tid call = dispatch tid call := by
  rw [handle, h]
  rfl

theorem Leaves.of_shown (hends : k.endedBy e = none)
    (hd : k.displayAfter e = d) (h : Shown { k with display := d } k') : Leaves k e k' :=
  ⟨h.display.trans hd.symm, fun pid hp _ => h.alive ▸ hp, fun pid he => by rw [hends] at he; cases he⟩

theorem leaves_along {m : KExec α} (hm : Along Shown m) (hends : k.endedBy e = none) (hd : k.displayAfter e = d) :
    wp m (fun _ k' => Leaves k e k') (fun _ k' => Leaves k e k') { k with display := d } :=
  wp_mono (hm _) (fun _ _ h => .of_shown hends hd h) fun _ _ h => .of_shown hends hd h

theorem acquireDisplay_leaves (frame : Context) (k : Kernel) :
    wp (handle k.currentTid .acquireDisplay) (fun _ k' => Leaves k (.svc frame .acquireDisplay) k')
      (fun _ k' => Leaves k (.svc frame .acquireDisplay) k') k := by
  rw [handle_of_unchecked rfl]
  simp only [dispatch, tryAcquireDisplay]
  rw [wp_bind, wp_get, wp_bind, wp_bind, wp_get]
  have hf := shown_frame.toServiceFrame
  by_cases hown : k.display.owner.isSome = true
  · rw [if_pos hown, wp_bind, setDisplay, wp_modify, Exec.wp_pure, if_neg (by decide)]
    refine leaves_along ((hf.visits.suspendWithFuture _ _ _).map) rfl ?_
    exact if_pos hown
  · rw [if_neg hown, wp_bind, setDisplay, wp_modify, wp_bind]
    have hd : k.displayAfter (.svc frame .acquireDisplay) = { k.display with owner := some k.currentThread } :=
      if_neg hown
    exact leaves_along (hf.mapFbFor _) rfl hd

theorem acquireInputFocus_leaves (frame : Context) (sid : SID) (k : Kernel) :
    wp (handle k.currentTid (.acquireInputFocus sid)) (fun _ k' => Leaves k (.svc frame (.acquireInputFocus sid)) k')
      (fun _ k' => Leaves k (.svc frame (.acquireInputFocus sid)) k') k := by
  rw [handle_of_unchecked rfl]
  simp only [dispatch, acquireInputFocus]
  rw [wp_bind, wp_get, wp_bind, wp_bind, wp_get]
  by_cases hown : k.display.owner.map Prod.fst = some k.currentPid
  · rw [if_neg (not_not.mpr hown), wp_bind, setDisplay, wp_modify]
    refine leaves_along (Along.each fun _ _ => shown_frame.toServiceFrame.deliverCharToSid _ _) rfl ?_
    exact if_pos hown
  · rw [if_pos hown]
    exact .of_grows (refl_of Grows k) rfl (if_neg hown)

theorem releaseDisplay_leaves (hb : Basic k.ipc) (frame : Context) (row col : Nat) :
    wp (handle k.currentTid (.releaseDisplay row col)) (fun _ k' => Leaves k (.svc frame (.releaseDisplay row col)) k')
      (fun _ k' => Leaves k (.svc frame (.releaseDisplay row col)) k') k := by
  rw [handle_of_unchecked rfl]
  simp only [dispatch]
  refine wp_seq (wp_and (releaseDisplay_display row col k)
    (Exec.wp_of_post (releaseDisplay_post hb row col))) ?_ fun _ _ h => h.2.elim
  rintro _ k' ⟨⟨hd, ha⟩, -⟩
  exact ⟨hd, fun pid hp _ => ha ▸ hp, fun _ he => by cases he⟩

/-- `TerminatePid` ends the process unless it is refused. -/
theorem terminatePid_leaves (hb : Basic k.ipc) (frame : Context) (pid : PID) (code : Nat) :
    wp (handle k.currentTid (.terminatePid pid code)) (fun _ k' => Leaves k (.svc frame (.terminatePid pid code)) k')
      (fun _ k' => Leaves k (.svc frame (.terminatePid pid code)) k') k := by
  have hrefused : k.mayEnd pid = false → Leaves k (.svc frame (.terminatePid pid code)) k := fun hm =>
    have hends : k.endedBy (.svc frame (.terminatePid pid code)) = none := if_neg (by simp [hm])
    .of_grows (refl_of Grows k) hends (by unfold displayAfter; rw [hends])
  simp only [handle, checkSyscallPermission, permittedByMask, currentProcess, process, dispatch,
    terminateOther, wp_bind, wp_get, Exec.wp_unwrap, wp_assert, wp_okOr]
  refine fun _ => ⟨fun p hp => ?_, fun _ => trivial⟩
  split
  next hbit =>
    refine fun _ => ⟨fun q hq => ?_, fun _ => trivial⟩
    split
    next hself =>
      exact hrefused (by simp [mayEnd, hself])
    next hself =>
      simp only [wp_bind, wp_get, wp_assert, wp_okOr]
      refine fun _ => ⟨fun q' hq' => ?_, fun hnone => hrefused (by simp [mayEnd, hnone])⟩
      split
      next hsys =>
        exact hrefused (by simp [mayEnd, hq', hsys])
      next hsys =>
        have hmay : k.mayEnd pid = true := by
          rw [mayEnd, hp, hq', Option.any_some, Option.any_some, hbit]
          simp [hself, hsys]
        obtain ⟨hm1, hm2⟩ := insteadOf_moves (ipc_parent_ne_none hq')
        have hbasic := (hb.move hm1 (by simp)).move hm2 (by simp)
        rw [wp_bind, wp, setOwnResult_run k k.currentTid .ok]
        simp only [wp_bind, Exec.wp_unwrap, wp_assert, wp_get, wp_okOr]
        refine fun _ => ⟨fun _ _ => ?_, fun _ => trivial⟩
        have hsame := setSavedResult_sameTables k.currentThread .ok k
        rw [activate, wp_modify]
        refine wp_mono (terminateCurrentProcess_ends hbasic code) (fun _ k' h => ?_) fun _ _ h => h.elim
        refine .of_ended (if_pos hmay) ?_
        have halive : (k.insteadOf pid).alive = k.alive := (Shown.of_tables hsame).alive
        have hdisplay : (k.insteadOf pid).display = k.display := hsame.display
        rw [halive, hdisplay] at h
        exact h
  next hbit =>
    have hbit' : p.syscallPermissions.getLsbD 53 = false := Bool.not_eq_true _ ▸ hbit
    exact hrefused (by rw [mayEnd, hp, Option.any_some, hbit']; rfl)

theorem handle_leaves (hb : Basic k.ipc) (frame : Context) (call : SysCall) :
    wp (handle k.currentTid call) (fun _ k' => Leaves k (.svc frame call) k')
      (fun _ k' => Leaves k (.svc frame call) k') k := by
  by_cases hends : call.Ends
  · cases call with
    | terminateProcess ret =>
      rw [handle_of_unchecked rfl]
      simp only [dispatch]
      rw [wp_bind]
      exact wp_mono (terminateCurrentProcess_ends hb ret) (fun _ _ h => .of_ended rfl h) fun _ _ h => h.elim
    | terminatePid pid code => exact terminatePid_leaves hb frame pid code
    | _ => exact absurd hends (by simp [SysCall.Ends])
  by_cases hshows : call.Shows
  · cases call with
    | acquireDisplay => exact acquireDisplay_leaves frame k
    | releaseDisplay row col => exact releaseDisplay_leaves hb frame row col
    | acquireInputFocus sid => exact acquireInputFocus_leaves frame sid k
    | releaseInputFocus =>
      rw [handle_of_unchecked rfl]
      exact Leaves.of_shown rfl rfl (refl_of Shown _)
    | _ => exact absurd hshows (by simp [SysCall.Shows])
  refine handle_leaves_of_grows (grows_frame.dispatch grows_birth _ hends hshows) ?_ ?_
  · cases call <;> first | rfl | exact absurd trivial hends
  · cases call <;> first | rfl | exact absurd trivial hends | exact absurd trivial hshows

/-- **A step of the machine does to the display what its event says, and nothing else.** -/
theorem step_leaves (hb : Basic k.ipc) (hs : Step k e k') : Leaves k e k' := by
  suffices h : wp (exec e) (fun _ k' => Leaves k e k') (fun _ _ => True) k by
    have hend := Exec.wp_ok h hs.2
    exact hend
  have hf := shown_frame.toServiceFrame
  have hsave : ∀ frame, Shown k (saveContext k.currentThread frame k) := fun frame =>
    .of_tables (saveContext_sameTables _ _ _)
  have hcur : ∀ frame, (saveContext k.currentThread frame k).currentThread = k.currentThread :=
    fun frame => own_current (saveContext_step frame k).1
  cases e with
  | store va b =>
    refine .of_grows (Shown.grows (.of_tables ?_)) rfl rfl
    unfold storeByte
    split
    · split <;> exact ⟨rfl, rfl, rfl⟩
    · exact ⟨rfl, rfl, rfl⟩
  | svc frame call =>
    refine exec_svc_leaves ?_
    have hsaved : Basic (saveContext k.currentThread frame k).ipc := saveContext_basic hb
    have h := handle_leaves hsaved frame call
    have htid : (saveContext k.currentThread frame k).currentTid = k.currentTid := congrArg Prod.snd (hcur frame)
    rw [htid] at h
    exact wp_mono h (fun _ _ h => h.before (saveContext_sameTables _ _ _) (hcur frame))
      fun _ _ h => h.before (saveContext_sameTables _ _ _) (hcur frame)
  | invalidSvc frame =>
    refine .of_grows (Shown.grows (trans_of Shown (hsave frame) ?_)) rfl rfl
    exact .of_tables (setSavedResult_sameTables _ _ _)
  | timer frame =>
    have halong : Along Shown (do
        let p ← currentProcess
        withScheduler (Scheduler.yieldThread k.currentThread (p.threadPriorities k.currentTid))
        Exec.ignore activateCurrent) :=
      currentProcess_along.bind fun _ => (hf.withScheduler _).bind fun _ => hf.activateCurrent.ignore
    rw [exec, handleTimer, wp_bind, wp_get, wp_bind, wp_modify]
    exact wp_mono (Along.after (hsave frame) halong) (fun _ _ h => .of_grows h.grows rfl rfl) fun _ _ _ => trivial
  | input frame chars =>
    refine wp_mono (dispatchInputChars_display chars (saveContext k.currentThread frame k))
      (fun _ k' h => ?_) fun _ _ _ => trivial
    rw [(hsave frame).display, (hsave frame).alive] at h
    exact ⟨h.1, fun pid hp _ => h.2 ▸ hp, fun _ he => by cases he⟩
  | abort frame =>
    have hsaved : Basic (saveContext k.currentThread frame k).ipc := saveContext_basic hb
    have hend := terminateCurrentProcess_ends hsaved 1
    rw [(hsave frame).display, (hsave frame).alive] at hend
    have hpid : (saveContext k.currentThread frame k).currentPid = k.currentPid := congrArg Prod.fst (hcur frame)
    rw [hpid] at hend
    simp only [exec, handleAbort, wp_bind, wp_get, wp_modify, Exec.wp_ignore]
    refine wp_mono hend (fun _ k1 h1 => ?_) fun _ _ h => h.elim
    have hleaves : Leaves k (.abort frame) k1 := .of_ended rfl h1
    exact wp_mono (hf.activateCurrent k1) (fun _ _ h => hleaves.after h) fun _ _ h => hleaves.after h
  | idle chars =>
    rw [exec, idleTurn, wp_bind]
    refine wp_mono (dispatchInputChars_display chars k) (fun _ k1 h1 => ?_) fun _ _ _ => trivial
    have hleaves : Leaves k (.idle chars) k1 := ⟨h1.1, fun pid hp _ => h1.2 ▸ hp, fun _ he => by cases he⟩
    exact wp_mono (hf.activateCurrent.ignore k1) (fun _ _ h => hleaves.after h) fun _ _ _ => trivial

end Kernel

end BeetKernel

/-
# Whole events, as moves

What one step of the machine does to threads and servers.  Every way into the kernel saves the
registers of the running thread first; a system call then either returns to its caller, with
the result in the saved registers, or gives up the CPU and the scheduler chooses a thread.

An error of the scheduler is the one place where two threads meet: it is written into the
registers of the thread that MADE THE CALL, whichever thread's future failed.
-/
import BeetKernel.Ipc.Scheduling

namespace BeetKernel

namespace Ipc

open Kernel (Event)

variable {i j : Ipc} {N : Server → Prop}

/-! ## 1. What an event can do -/

/-- The scheduler is asked for a thread, by code that ignores its error. -/
def Asks (i j : Ipc) : Prop := Schedules i j ∨ Fails i j

/-- The reaction to an event, where `N` holds of every server that is created. -/
inductive Reacts (N : Server → Prop) (i j : Ipc) : Event → Prop where
  | store {va : Nat} {b : UInt8} (h : j = i) : Reacts N i j (.store va b)
  | stays {i1 i2 : Ipc} {frame : Context} {call : SysCall} (h1 : Move (.regs i.current) i i1)
      (h2 : Stays call N i1 i2) (h3 : Move (.regs i.current) i2 j) : Reacts N i j (.svc frame call)
  | yields {i1 i2 : Ipc} {frame : Context} {call : SysCall} (h1 : Move (.regs i.current) i i1)
      (h2 : Yields call i1 i2) (h3 : Schedules i2 j) : Reacts N i j (.svc frame call)
  | fails {i1 i2 i3 : Ipc} {frame : Context} {call : SysCall} (h1 : Move (.regs i.current) i i1)
      (h2 : Yields call i1 i2) (h3 : Fails i2 i3) (h4 : Move (.regs i.current) i3 j) :
      Reacts N i j (.svc frame call)
  | invalid {frame : Context} (h : Does (Own i.current) i j) : Reacts N i j (.invalidSvc frame)
  | timer {i1 i2 : Ipc} {frame : Context} (h1 : Move (.regs i.current) i i1) (h2 : Does Quiet i1 i2)
      (h3 : Asks i2 j) : Reacts N i j (.timer frame)
  | input {i1 : Ipc} {frame : Context} {chars : List UInt8} (h1 : Move (.regs i.current) i i1)
      (h2 : Does Quiet i1 j) : Reacts N i j (.input frame chars)
  | abort {i1 i2 : Ipc} {frame : Context} (h1 : Move (.regs i.current) i i1) (h2 : Ends i1 i2)
      (h3 : Asks i2 j) : Reacts N i j (.abort frame)
  | idle {i1 : Ipc} {chars : List UInt8} (h1 : Does Quiet i i1) (h2 : Asks i1 j) :
      Reacts N i j (.idle chars)

end Ipc

namespace Kernel

open Ipc
open Exec (Along Follows post_bind post_get post_ignore post_modify post_mono post)

variable {k k' : Kernel} {t : ThreadId} {frame : Context} {call : SysCall}

/-! ## 2. Events are sequences of moves -/

/-- The labels of an event: servers that are created satisfy `N`, and process 1 stays. -/
def Permits (N : Server → Prop) (l : Label) : Prop := Harmless l ∨ ∃ sidx s, l = .create sidx s ∧ N s

section

variable {i j : Ipc} {N N' : Server → Prop}

theorem Permits.stays (l : Label) (h : Permits N l) : l ≠ .gone PID.kernel := by
  rcases h with h | ⟨sidx, s, rfl, -⟩
  · exact h.2
  · simp

theorem Permits.harmless (hN : ∀ s, N s → ∀ slot t, s.caller slot = some t → IsUser t) (l : Label)
    (h : Permits N l) : Harmless l := by
  rcases h with h | ⟨sidx, s, rfl, hs⟩
  · exact h
  · exact ⟨hN s hs, by simp⟩

theorem move_harmless {l : Label} (hm : Move l i j) (hl : Harmless l) : Ipc.Does Harmless i j := .single hl hm

theorem quiet_harmless (h : Ipc.Does Quiet i j) : Ipc.Does Harmless i j := h.mono fun _ => Harmless.of_quiet

theorem stays_mono (hN : ∀ s, N s → N' s) (h : Stays call N i j) : Stays call N' i j := by
  cases h with
  | quiet h => exact .quiet h
  | thread h1 h2 => exact .thread h1 h2
  | spawn hn h => exact .spawn hn h
  | create hc hs h1 h2 h3 => exact .create hc (hN _ hs) h1 h2 h3
  | drop h1 h2 => exact .drop h1 h2
  | display hc h => exact .display hc h
  | destroy hc hpid h => exact .destroy hc hpid h

theorem stays_does (h : Stays call N i j) : Ipc.Does (Permits fun s => call.CreatesServer ∧ N s) i j := by
  have hq : ∀ {i j : Ipc} {N : Server → Prop}, Ipc.Does Quiet i j → Ipc.Does (Permits N) i j :=
    fun h => h.mono fun _ hl => .inl (.of_quiet hl)
  have hmove : ∀ {l : Label} {i j : Ipc} {N : Server → Prop}, Move l i j → Harmless l →
      Ipc.Does (Permits N) i j := fun hm hl => .single (.inl hl) hm
  cases h with
  | quiet h => exact hq h
  | thread h1 h2 => exact (hmove h1 ⟨trivial, by simp⟩).trans (hq h2)
  | spawn _ h => exact h.mono fun l hl => .inl (Spawning.harmless l hl)
  | create hc hs h1 h2 h3 => exact ((hq h1).snoc (.inr ⟨_, _, rfl, hc, hs⟩) h2).trans (hq h3)
  | drop h1 h2 => exact (hmove h1 ⟨trivial, by simp⟩).trans (hq h2)
  | display _ h => exact (passes_harmless h).mono fun _ => .inl
  | destroy _ _ h => exact (destroys_harmless h).mono fun _ => .inl

theorem ends_harmless (h : Ends i j) : Ipc.Does Harmless i j := by
  obtain ⟨hsys, i1, i2, i3, i4, i5, h1, -, h2, h3, h4, h5, h6⟩ := h
  refine ((((withdraws_harmless h1).trans (quiet_harmless h2)).trans (passes_harmless h3)).trans
    ((h4.mono Killing.harmless).trans (quiet_harmless h5))).snoc ?_ h6
  exact ⟨trivial, by simpa using hsys⟩

theorem own_harmless (h : Ipc.Does (Own t) i j) : Ipc.Does Harmless i j := h.mono Own.harmless

theorem yields_harmless (h : Yields call i j) : Ipc.Does Harmless i j := by
  cases h with
  | own h => exact own_harmless h
  | block h1 h2 h3 h4 =>
    exact (((quiet_harmless h1).trans (move_harmless h2 ⟨trivial, by simp⟩)).trans
      (quiet_harmless h3)).trans (move_harmless h4 ⟨trivial, by simp⟩)
  | pause h1 h2 => exact (own_harmless h1).trans (move_harmless h2 ⟨trivial, by simp⟩)
  | wait _ h1 h2 => exact (own_harmless h1).trans (move_harmless h2 ⟨trivial, by simp⟩)
  | reply _ h1 h2 => exact (move_harmless h1 ⟨trivial, by simp⟩).trans (own_harmless h2)
  | terminate _ h => exact ends_harmless h
  | terminateOther _ _ _ h1 h2 h3 =>
    exact ((move_harmless h1 ⟨trivial, by simp⟩).trans (move_harmless h2 ⟨trivial, by simp⟩)).trans (ends_harmless h3)

theorem reparks_harmless (h : Reparks i j) : Ipc.Does Harmless i j := by
  refine h.mono fun l hl => ?_
  obtain ⟨t, rfl, -⟩ := hl
  exact ⟨trivial, by simp⟩

theorem polls_harmless (h : Polls t i j) : Ipc.Does Harmless i j := by
  cases h with
  | none _ h => exact .of_eq h.symm
  | complete h => exact move_harmless h ⟨trivial, by simp⟩
  | collect _ _ _ _ h1 h2 h3 =>
    exact ((move_harmless h1 ⟨trivial, by simp⟩).trans (quiet_harmless h2)).trans (move_harmless h3 ⟨trivial, by simp⟩)

theorem resumes_harmless (h : Resumes t i j) : Ipc.Does Harmless i j := by
  cases h with
  | same _ h => exact .of_eq h.symm
  | switch h => exact move_harmless h ⟨trivial, by simp⟩

theorem schedules_harmless (h : Schedules i j) : Ipc.Does Harmless i j := by
  obtain ⟨i1, h1, h2⟩ := h
  refine (reparks_harmless h1).trans ?_
  cases h2 with
  | nobody _ h => exact .of_eq h.symm
  | thread _ _ h2 h3 => exact (polls_harmless h2).trans (resumes_harmless h3)

theorem fails_harmless (h : Fails i j) : Ipc.Does Harmless i j := by
  obtain ⟨i1, t, sidx, h1, h2⟩ := h
  exact (reparks_harmless h1).trans (move_harmless h2.lost ⟨trivial, by simp⟩)

theorem asks_harmless (h : Asks i j) : Ipc.Does Harmless i j := h.elim schedules_harmless fails_harmless

theorem regs_harmless (h : Move (.regs t) i j) : Ipc.Does Harmless i j := move_harmless h ⟨trivial, by simp⟩

/-- The event is a system call that creates a server. -/
def Event.CreatesServer : Event → Prop
  | .svc _ call => call.CreatesServer
  | _ => False

/-- **Every event is a sequence of moves.** -/
theorem reacts_does {e : Event} (h : Reacts N i j e) : Ipc.Does (Permits fun s => e.CreatesServer ∧ N s) i j := by
  have hmono : ∀ {i j : Ipc} {N : Server → Prop}, Ipc.Does Harmless i j →
      Ipc.Does (Permits N) i j := fun h => h.mono fun _ => .inl
  cases h with
  | store h => exact .of_eq h.symm
  | stays h1 h2 h3 =>
    exact ((hmono (regs_harmless h1)).trans (stays_does h2)).trans (hmono (regs_harmless h3))
  | yields h1 h2 h3 =>
    exact hmono (((regs_harmless h1).trans (yields_harmless h2)).trans (schedules_harmless h3))
  | fails h1 h2 h3 h4 =>
    exact hmono ((((regs_harmless h1).trans (yields_harmless h2)).trans (fails_harmless h3)).trans (regs_harmless h4))
  | invalid h => exact hmono (own_harmless h)
  | timer h1 h2 h3 =>
    exact hmono (((regs_harmless h1).trans (quiet_harmless h2)).trans (asks_harmless h3))
  | input h1 h2 => exact hmono ((regs_harmless h1).trans (quiet_harmless h2))
  | abort h1 h2 h3 =>
    exact hmono (((regs_harmless h1).trans (ends_harmless h2)).trans (asks_harmless h3))
  | idle h1 h2 => exact hmono ((quiet_harmless h1).trans (asks_harmless h2))

end

/-! ## 3. Saving the registers -/

theorem saveContext_eq (t : ThreadId) (frame : Context) (k : Kernel) :
    saveContext t frame k = { k with archProcesses := (saveContext t frame k).archProcesses } := by
  unfold saveContext
  cases k.archProcesses t.1 <;> rfl

theorem saveContext_regs (t : ThreadId) (frame : Context) (k : Kernel) :
    Move (.regs t) k.ipc (saveContext t frame k).ipc := by
  unfold saveContext
  cases ha : k.archProcesses t.1 with
  | none => exact .regs fun _ _ => rfl
  | some a =>
    have h := ipc_putContext ha frame
    unfold putContext at h
    dsimp only at h ⊢
    rw [h]
    exact .regs fun u hu => Function.update_of_ne hu ..

theorem saveContext_home (h : AtHome k) : AtHome (saveContext t frame k) := by
  rw [saveContext_eq]
  exact h

theorem inRange_saveContext : InRange (saveContext t frame k) call ↔ InRange k call := by
  have hfree : freeThread (saveContext t frame k) = freeThread k := by
    unfold freeThread saveContext
    cases ha : k.archProcesses t.1 with
    | none => rfl
    | some a =>
      dsimp only
      rcases eq_or_ne k.currentPid t.1 with hp | hp
      · rw [hp, Function.update_self, ha, Option.bind_some, Option.bind_some]
        refine congrArg (fun p => List.find? p (List.range' 1 maxThreadCount)) (funext fun tid => ?_)
        rcases eq_or_ne tid t.2 with h | h <;> simp [h]
      · rw [Function.update_of_ne hp]
  cases call <;> simp only [InRange, hfree]
  all_goals rw [saveContext_eq]
  all_goals rfl

theorem clean_saveContext {s : Server} (h : Clean (saveContext t frame k) s) : Clean k s := by
  rw [saveContext_eq] at h
  exact h

/-! ## 4. Events -/

/-- Who is to blame if an event stops the kernel: a system call whose ids are out of range, or
a receiver that is parked already. -/
def EventBlame (k : Kernel) (e : Event) (msg : String) : Prop :=
  (msg = parkMessage → ∃ sidx, k.ipc.ParkedAt sidx k.ipc.current) ∧
    (msg ∈ tableMessages → Proper k.ipc → AtHome k → msg = "index out of bounds" ∧
      ∃ frame call, e = .svc frame call ∧ ¬ InRange k call)

theorem EventBlame.of_unfollowed {e : Event} {msg : String} (h : Unfollowed msg) : EventBlame k e msg :=
  ⟨fun hm => absurd hm h.2, fun hm => absurd hm h.1⟩

theorem EventBlame.of_untidy {A : Label → Prop} {e : Event} {msg : String}
    (hA : ∀ l, A l → Harmless l) (hb : Basic k.ipc) (hk : StepBy A k k')
    (h : Untidy AtHome msg k') : EventBlame k e msg := by
  refine ⟨fun hm => absurd hm h.1, fun hm hp hhome => ?_⟩
  exact absurd (hk.2 hhome) (h.2 hm (does_basic hk.1 (fun l hl => (hA l hl).2) hb) (does_proper hk.1 hA hb hp))

theorem saveContext_step (frame : Context) (k : Kernel) :
    StepBy (Own k.ipc.current) k (saveContext k.ipc.current frame k) :=
  ⟨.single (.inr (.inl rfl)) (saveContext_regs _ _ _), saveContext_home⟩

theorem saveContext_basic (hb : Basic k.ipc) : Basic (saveContext t frame k).ipc :=
  hb.move (saveContext_regs t frame k) (by simp)

/-- The reaction of the kernel to the event, and who is to blame if there is none. -/
abbrev Reaction (e : Event) (m : KExec Unit) (k : Kernel) : Prop :=
  post m (fun _ k' => Reacts (Clean k) k.ipc k'.ipc e ∧ (AtHome k → AtHome k')) (fun _ _ => True) (EventBlame k e) k

theorem handleSvc_reacts (hb : Basic k.ipc) (frame : Context) (call : SysCall) :
    Reaction (.svc frame call) (handleSvc frame call) k := by
  have hstep := saveContext_step frame k
  have hregs := saveContext_regs k.ipc.current frame k
  have hcur : (saveContext k.ipc.current frame k).currentThread = k.currentThread := own_current hstep.1
  have hb1 : Basic (saveContext k.ipc.current frame k).ipc := saveContext_basic hb
  -- what is written into the caller's registers in the end
  have hlast : ∀ (r : Result) (k2 : Kernel), (AtHome k → AtHome k2) →
      Move (.regs k.ipc.current) k2.ipc (setSavedResult k.ipc.current r k2).ipc ∧
        (AtHome k → AtHome (setSavedResult k.ipc.current r k2)) := fun r k2 hhome => by
    rw [ipc_setSavedResult]
    refine ⟨regs_deliver _ _ _, fun h => ?_⟩
    obtain ⟨hpid, hmap⟩ := setSavedResult_pids k.ipc.current r k2
    exact hmap.trans ((hhome h).trans hpid.symm)
  unfold handleSvc handleCall
  simp only [Reaction, post_bind, post_get, post_modify, Exec.post_attempt]
  rw [show k.currentThread.2 = (saveContext k.ipc.current frame k).currentTid from
    congrArg Prod.snd hcur.symm]
  refine post_mono (handle_handled hb1 call) (fun r k2 h2 => ?_) (fun e k2 h2 => ?_) ?_
  · obtain ⟨hresp, hhome⟩ := h2
    have hhome2 : AtHome k → AtHome k2 := hhome ∘ hstep.2
    cases r with
    | result r =>
      have hstays : Stays call (Clean k) (saveContext k.ipc.current frame k).ipc k2.ipc :=
        stays_mono (fun _ => clean_saveContext) hresp
      simp only [Exec.post_pure]
      split
      · exact ⟨.stays hregs hstays (.regs fun _ _ => rfl), hhome2⟩
      · exact ⟨.stays hregs hstays (hlast _ _ hhome2).1, (hlast _ _ hhome2).2⟩
      next heq =>
        cases heq
    | activateCurrent =>
      have hyields : Yields call (saveContext k.ipc.current frame k).ipc k2.ipc := hresp
      have hb2 : Basic k2.ipc := does_basic (yields_harmless hyields) (fun _ hl => hl.2) hb1
      refine post_mono (activateCurrent_post hb2) ?_ ?_ fun _ h => .of_unfollowed h
      · rintro _ k3 ⟨rfl, hsch, hhome3⟩
        exact ⟨.yields hregs hyields hsch, hhome3 ∘ hhome2⟩
      · rintro _ k3 ⟨rfl, hfails, hhome3⟩
        exact ⟨.fails hregs hyields hfails (hlast _ _ (hhome3 ∘ hhome2)).1, (hlast _ _ (hhome3 ∘ hhome2)).2⟩
  · obtain ⟨hstays, hhome⟩ := h2
    have hhome2 : AtHome k → AtHome k2 := hhome ∘ hstep.2
    exact ⟨.stays hregs (stays_mono (fun _ => clean_saveContext) hstays) (hlast _ _ hhome2).1, (hlast _ _ hhome2).2⟩
  · rintro msg ⟨hpark, htable⟩
    refine ⟨fun hm => ?_, fun hm hp hhome => ?_⟩
    · obtain ⟨sidx, hat⟩ := hpark hm
      rw [own_current hstep.1] at hat
      refine ⟨sidx, (parkedAt_congr ?_ _ _).mp hat⟩
      rw [saveContext_eq]
      rfl
    · obtain ⟨hmsg, hout⟩ := htable hm (does_proper hstep.1 Own.harmless hb hp) (hstep.2 hhome)
      exact ⟨hmsg, frame, call, rfl, fun hin => hout (inRange_saveContext.mpr hin)⟩

theorem handleInvalidSvc_reacts (frame : Context) (k : Kernel) :
    Reaction (.invalidSvc frame) (handleInvalidSvc frame) k := by
  have hstep := saveContext_step frame k
  have hlast := own_savedResult (saveContext k.ipc.current frame k) (.error .invalidSyscall)
  rw [own_current hstep.1] at hlast
  exact ⟨.invalid (hstep.1.trans hlast.1), hlast.2 ∘ hstep.2⟩

theorem ignore_activateCurrent {Q : Kernel → Prop} {F : String → Prop} {k1 : Kernel}
    (hb : Basic k1.ipc) (hQ : ∀ k', Asks k1.ipc k'.ipc → (AtHome k1 → AtHome k') → Q k')
    (hF : ∀ msg, Unfollowed msg → F msg) :
    post (Exec.ignore activateCurrent) (fun _ k' => Q k') (fun _ _ => True) F k1 := by
  rw [post_ignore]
  exact post_mono (activateCurrent_post hb) (fun _ _ h => hQ _ (.inl h.2.1) h.2.2)
    (fun _ _ h => hQ _ (.inr h.2.1) h.2.2) hF

theorem handleTimer_reacts (hb : Basic k.ipc) (frame : Context) : Reaction (.timer frame) (handleTimer frame) k := by
  have hstep := saveContext_step frame k
  have hregs := saveContext_regs k.ipc.current frame k
  have hb1 : Basic (saveContext k.ipc.current frame k).ipc := saveContext_basic hb
  unfold handleTimer
  simp only [Reaction, post_bind, post_get, post_modify]
  have hblame : ∀ (k1 : Kernel) (msg : String), QuietStep (saveContext k.ipc.current frame k) k1 →
      Untidy AtHome msg k1 → EventBlame k (.timer frame) msg := fun k1 msg hq hun =>
    .of_untidy (fun _ hl => hl) hb (trans_of (StepBy Harmless)
      (⟨own_harmless hstep.1, hstep.2⟩ : StepBy Harmless _ _) hq.harmless) hun
  refine post_mono (currentProcess_quietly (P := AtHome) _) (fun p k1 h1 => ?_)
    (fun _ _ _ => trivial) fun msg h => h.elim fun k1 h => hblame k1 msg h.1 h.2
  refine post_mono (Follows.after h1 (yieldThread_quietly _ _)) (fun _ k2 h2 => ?_)
    (fun _ _ _ => trivial) fun msg h => h.elim fun k1 h => hblame k1 msg h.1 h.2
  exact ignore_activateCurrent (quiet_basic h2.1 hb1)
    (fun k' hask hhome => ⟨.timer hregs h2.1 hask, fun h => hhome (h2.2 (hstep.2 h))⟩)
    fun _ => .of_unfollowed

theorem inputChars_quietly (chars : List UInt8) : Quietly AtHome (Exec.each dispatchInputChar chars) :=
  Follows.each fun _ _ => dispatchInputChar_quietly _

theorem handleInput_reacts (hb : Basic k.ipc) (frame : Context) (chars : List UInt8) :
    Reaction (.input frame chars) (handleInput frame chars) k := by
  have hstep := saveContext_step frame k
  unfold handleInput
  simp only [Reaction, post_bind, post_get, post_modify]
  refine post_mono (inputChars_quietly chars _) (fun _ k1 h1 => ?_) (fun _ _ _ => trivial) ?_
  · exact ⟨.input (saveContext_regs _ _ _) h1.1, h1.2 ∘ hstep.2⟩
  · rintro msg ⟨k1, hq, hun⟩
    exact .of_untidy (fun _ hl => hl) hb (trans_of (StepBy Harmless)
      (⟨own_harmless hstep.1, hstep.2⟩ : StepBy Harmless _ _) hq.harmless) hun

theorem handleAbort_reacts (hb : Basic k.ipc) (frame : Context) : Reaction (.abort frame) (handleAbort frame) k := by
  have hstep := saveContext_step frame k
  have hb1 : Basic (saveContext k.ipc.current frame k).ipc := saveContext_basic hb
  unfold handleAbort
  simp only [Reaction, post_bind, post_get, post_modify, post_ignore]
  refine post_mono (terminateCurrentProcess_post hb1 1) (fun _ k1 h1 => ?_) (fun _ _ h => h.elim) ?_
  · have hb2 : Basic k1.ipc := does_basic (ends_harmless h1.ends) (fun _ hl => hl.2) hb1
    have hask := ignore_activateCurrent (F := EventBlame k (.abort frame)) hb2
      (fun k' hask hhome => (⟨.abort (saveContext_regs _ _ _) h1.ends hask,
        fun _ => hhome h1.home⟩ : Reacts (Clean k) k.ipc k'.ipc (.abort frame) ∧ (AtHome k → AtHome k')))
      fun _ => .of_unfollowed
    rwa [post_ignore] at hask
  · rintro msg ⟨k1, hk1, hun⟩
    exact .of_untidy (fun _ hl => hl) hb (trans_of (StepBy Harmless)
      (⟨own_harmless hstep.1, hstep.2⟩ : StepBy Harmless _ _) hk1) hun

theorem idleTurn_reacts (hb : Basic k.ipc) (chars : List UInt8) : Reaction (.idle chars) (idleTurn chars) k := by
  unfold idleTurn
  simp only [Reaction, post_bind]
  refine post_mono (inputChars_quietly chars k) (fun _ k1 h1 => ?_) (fun _ _ _ => trivial) ?_
  · exact ignore_activateCurrent (quiet_basic h1.1 hb)
      (fun k' hask hhome => ⟨.idle h1.1 hask, hhome ∘ h1.2⟩) fun _ => .of_unfollowed
  · rintro msg ⟨k1, hq, hun⟩
    exact .of_untidy (fun _ hl => Harmless.of_quiet hl) hb hq hun

theorem storeByte_ipc (va : Nat) (b : UInt8) (k : Kernel) :
    (storeByte va b k).ipc = k.ipc ∧ (AtHome k → AtHome (storeByte va b k)) := by
  unfold storeByte
  split
  · split <;> exact ⟨rfl, id⟩
  · exact ⟨rfl, id⟩

/-- **Every event is one of the reactions**, from any state whose tables are in order. -/
theorem exec_reacts (hb : Basic k.ipc) (e : Event) : Reaction e (exec e) k := by
  cases e with
  | store va b =>
    obtain ⟨hipc, hhome⟩ := storeByte_ipc va b k
    exact ⟨.store hipc, hhome⟩
  | svc frame call => exact handleSvc_reacts hb frame call
  | invalidSvc frame => exact handleInvalidSvc_reacts frame k
  | timer frame => exact handleTimer_reacts hb frame
  | input frame chars => exact handleInput_reacts hb frame chars
  | abort frame => exact handleAbort_reacts hb frame
  | idle chars => exact idleTurn_reacts hb chars

end Kernel

end BeetKernel

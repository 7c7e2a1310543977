/-
# The keyboard

`AcquireInputFocus` gives the keyboard to a server, named by its id.  The kernel does not remember
who asked.  `focusAfter` does: it is the keyboard as it should be, held by the process that acquired
it as the display's owner until this process releases it, or ends.

Section 3 shows that the kernel's focus is this one, and that what is typed reaches servers and
threads of the holder only, as long as nobody else releases the keyboard, a process ends with the
keyboard only if it has the display too, and nobody else has a server with the id.  Section 4 is a
run in which another process takes the keyboard away.
-/
import BeetKernel.Display.Transitions
import BeetKernel.Links.Identity
import BeetKernel.Ipc.Visits

namespace BeetKernel

open Option (map_map map_some any_eq_true)

namespace DisplayState

@[simp] theorem passOn_inputSid (alive : PID → Bool) (d : DisplayState) : (passOn alive d).inputSid = d.inputSid := by
  unfold passOn
  split <;> rfl

@[simp] theorem acquire_inputSid (d : DisplayState) (t : ThreadId) : (d.acquire t).inputSid = d.inputSid := by
  unfold acquire
  split <;> rfl

@[simp] theorem release_inputSid (d : DisplayState) (alive : PID → Bool) (pid : PID) (row col : Nat) :
    (d.release alive pid row col).inputSid = d.inputSid := by
  unfold release
  split
  · exact passOn_inputSid ..
  · rfl

@[simp] theorem type_inputSid (d : DisplayState) (c : UInt8) : (d.type c).inputSid = d.inputSid := by
  unfold type
  split <;> rfl

@[simp] theorem foldl_type_inputSid (chars : List UInt8) (d : DisplayState) :
    (chars.foldl type d).inputSid = d.inputSid := by
  induction chars generalizing d with
  | nil => rfl
  | cons c rest ih => exact (ih (d.type c)).trans (type_inputSid d c)

end DisplayState

namespace Kernel

open Exec (Along wp_mono wp_bind wp)

variable {α : Type} {k k' k₀ : Kernel} {e : Event} {es : List Event} {pid : PID} {sidx : Nat}

/-! ## 1. Whom a typed character reaches -/

/-- Only servers and threads of the process may differ, and every server is registered as before. -/
structure Confined (pid : PID) (k k' : Kernel) : Prop where
  servers : ∀ i s, k.servers i = some s → s.pid ≠ pid → k'.servers i = some s
  cards : ∀ i, (k'.servers i).map Server.card = (k.servers i).map Server.card
  writes : Writes (threadsOf pid) k k'

instance : IsPreorder Kernel (Confined pid) where
  refl k := ⟨fun _ _ hs _ => hs, fun _ => rfl, refl_of _ k⟩
  trans _ _ _ h1 h2 := ⟨fun i s hs hne => h2.servers i s (h1.servers i s hs hne) hne,
    fun i => (h2.cards i).trans (h1.cards i), trans_of (Writes _) h1.writes h2.writes⟩

theorem Confined.of_servers (hs : k'.servers = k.servers) (hw : Writes (threadsOf pid) k k') : Confined pid k k' :=
  ⟨fun i s h _ => hs ▸ h, fun i => by rw [hs], hw⟩

/-- If the server in the slot belongs to the process, only its servers and threads differ. -/
def Serves (sidx : Nat) (pid : PID) (k k' : Kernel) : Prop :=
  (k.servers sidx).map Server.pid = some pid → Confined pid k k'

theorem Confined.owner (h : Confined pid k k') (i : Nat) :
    (k'.servers i).map Server.pid = (k.servers i).map Server.pid := by
  have hcard := congrArg (Option.map Card.pid) (h.cards i)
  rw [map_map, map_map] at hcard
  exact hcard

instance : IsPreorder Kernel (Serves sidx pid) where
  refl k _ := refl_of (Confined pid) k
  trans _ _ _ h1 h2 hown := trans_of (Confined pid) (h1 hown) (h2 ((h1 hown).owner _ ▸ hown))

theorem serves_code : VisitCode (fun _ m => Along (Serves sidx pid) m) (AlongWith (Serves sidx pid)) :=
  VisitFrame.visits
    { scheduler := fun _ _ _ => .of_servers rfl (.of_eq rfl rfl)
      process := fun hp hq _ => .of_servers rfl (.process hp (congrArg Prod.snd hq))
      visit := fun _ _ _ _ => .of_servers rfl (.of_eq rfl rfl) }

theorem setThreadResult_serves (tid : TID) (r : Result) : Along (Serves sidx pid) (setThreadResult (pid, tid) r) := by
  refine serves_code.setThreadResult (Along.modify fun k _ => ?_)
  exact .of_servers (setSavedResult_sameTables _ _ k).servers
    ((setSavedResult_writes _ r k).mono (singleton_subset_threadsOf pid tid))

theorem putServer_serves {s s' : Server} (hs : k.servers sidx = some s) (hcard : s'.card = s.card) :
    Serves sidx pid k { k with servers := Function.update k.servers sidx (some s') } := by
  intro hown
  have hpid : s.pid = pid := by
    rw [hs] at hown
    exact Option.some.inj hown
  refine ⟨fun i t ht hne => ?_, fun i => ?_, .of_eq rfl rfl⟩
  · have hi : i ≠ sidx := by
      rintro rfl
      cases hs.symm.trans ht
      exact hne hpid
    exact (Function.update_of_ne hi ..).trans ht
  · rcases eq_or_ne i sidx with rfl | hi
    · simp [hs, hcard]
    · simp [Function.update_of_ne hi]

theorem withServer_serves {m : Exec Server Error α} (hm : Along SameCard m) :
    Along (Serves sidx pid) (withServer sidx m) := by
  refine fun k => wp_serverFromSidx ?_ fun s hs => ?_
  · simp [wp_bind]
  · simp only [wp_bind, Exec.wp_expect, Option.some.injEq, forall_eq', Exec.wp_zoom]
    exact wp_mono (hm s) (fun _ _ h => putServer_serves hs h) fun _ _ h => putServer_serves hs h

/-- Every server with the id belongs to the process. -/
def OwnsId (pid : PID) (sid : SID) (k : Kernel) : Prop := ∀ i s, k.servers i = some s → s.sid = sid → s.pid = pid

theorem Confined.ownsId {sid : SID} (h : Confined pid k k') (hk : OwnsId pid sid k) : OwnsId pid sid k' := by
  intro i s' hs' hsid
  have hcard := h.cards i
  rw [hs', map_some] at hcard
  obtain ⟨s, hs, hc⟩ := Option.map_eq_some_iff.mp hcard.symm
  have hpid : s.pid = s'.pid := congrArg Card.pid hc
  have hid : s.sid = s'.sid := congrArg Card.sid hc
  rw [← hpid]
  exact hk i s hs (hid.trans hsid)

/-- What is typed for a server reaches its process only. -/
def Reserved (pid : PID) (sid : SID) (k k' : Kernel) : Prop := OwnsId pid sid k → Confined pid k k'

instance {sid : SID} : IsPreorder Kernel (Reserved pid sid) where
  refl k _ := refl_of (Confined pid) k
  trans _ _ _ h1 h2 hown := trans_of (Confined pid) (h1 hown) (h2 ((h1 hown).ownsId hown))

theorem deliverCharToSid_reserved (sid : SID) (c : UInt8) : Along (Reserved pid sid) (deliverCharToSid sid c) := by
  refine Along.get_bind fun k => ?_
  split
  · exact refl_of (Reserved pid sid) k
  next sidx hsidx =>
    have hfound := List.find?_some hsidx
    obtain ⟨s, hs, hsid⟩ := (any_eq_true _ _).mp hfound
    refine wp_serverFromSidx ?_ fun s1 hs1 => ?_
    · simp [wp_bind]
    · cases hs.symm.trans hs1
      simp only [wp_bind (m := Exec.expect _ _), Exec.wp_expect, Option.some.injEq, forall_eq']
      -- the server found is one of the process, if all with this id are
      have hwithin : ∀ k', Serves sidx s.pid k k' → Reserved pid sid k k' := by
        intro k' h hown
        have hpid : s.pid = pid := hown sidx s hs (of_decide_eq_true hsid)
        rw [← hpid]
        exact h (by rw [hs, map_some])
      refine wp_mono (Q := fun _ k' => Serves sidx s.pid k k')
        (E := fun _ k' => Serves sidx s.pid k k') ?_ (fun _ => hwithin) fun _ => hwithin
      split
      next serverTid s' htake =>
        rw [wp_bind]
        refine Along.after (putServer_serves hs (Server.takeAvailableThread_card htake))
          (.ite (fun _ => ?_) fun _ => (setThreadResult_serves _ _).ignore)
        exact (serves_code.takeKernelFuture _).bind fun _ => (serves_code.setThreadState _ _).bind
          fun _ => (setThreadResult_serves _ _).ignore
      · exact ((serves_code.queueServerMessage (withServer_serves
          (Server.queueMessage_sameCard _ _ _ _))).ignore.bind fun _ =>
            .ite (fun _ => serves_code.notify setThreadResult_serves _) fun _ => .pure _) k

/-! ## 2. The keyboard as it should be -/

/-- The keyboard after the event: who holds it, and for which server. -/
def focusAfter (k : Kernel) (e : Event) (h : Option (PID × SID)) : Option (PID × SID) :=
  match k.endedBy e, e with
  | some pid, _ => h.filter fun x => x.1 ≠ pid
  | none, .svc _ (.acquireInputFocus sid) =>
    if k.display.OwnedBy k.currentPid then some (k.currentPid, sid) else h
  | none, .svc _ .releaseInputFocus => h.filter fun x => x.1 ≠ k.currentPid
  | none, _ => h

/-- A run with the keyboard as it should be, in which every step satisfies `C`. -/
inductive FocusRun (C : Kernel → Option (PID × SID) → Event → Prop) (k₀ : Kernel) :
    List Event → Kernel → Option (PID × SID) → Prop where
  | nil : FocusRun C k₀ [] k₀ none
  | snoc {es : List Event} {k k' : Kernel} {h : Option (PID × SID)} {e : Event} :
      FocusRun C k₀ es k h → Step k e k' → C k h e → FocusRun C k₀ (es ++ [e]) k' (k.focusAfter e h)

variable {C : Kernel → Option (PID × SID) → Event → Prop} {h : Option (PID × SID)}

theorem FocusRun.run (hr : FocusRun C k₀ es k h) : Run k₀ es k := by
  induction hr with
  | nil => exact .nil _
  | snoc _ hs _ ih => exact .snoc ih hs

/-- The processes treat the keyboard fairly: only its holder releases it, it is held by the owner of
the display when that process ends and by nobody else who ends, and its server's id is the holder's. -/
structure Fair (k : Kernel) (h : Option (PID × SID)) (e : Event) : Prop where
  ending : ∀ pid, k.endedBy e = some pid → k.display.inputSid.isSome →
    (k.display.OwnedBy pid ↔ h.map Prod.fst = some pid)
  releasing : ∀ frame, e = .svc frame .releaseInputFocus → k.display.inputSid.isSome →
    h.map Prod.fst = some k.currentPid
  acquiring : ∀ frame sid, e = .svc frame (.acquireInputFocus sid) → k.display.OwnedBy k.currentPid →
    OwnsId k.currentPid sid k
  creating : ∀ frame call sid range, e = .svc frame call → call.creates = some (sid, range) →
    k.display.inputSid = some sid → h.map Prod.fst = some k.currentPid

/-- The kernel has the keyboard right, and no other process has a server with the id. -/
structure KeyboardHeld (k : Kernel) (h : Option (PID × SID)) : Prop where
  focus : k.display.inputSid = h.map Prod.snd
  owns : ∀ x ∈ h, OwnsId x.1 x.2 k

/-! ### One step -/

theorem step_server {i : Nat} {s' : Server} (hs : Step k e k') (hi : k'.servers i = some s') :
    (∃ s, k.servers i = some s ∧ s'.sid = s.sid ∧ s'.pid = s.pid) ∨
      ∃ frame call range, e = .svc frame call ∧ call.creates = some (s'.sid, range) ∧ s'.pid = k.currentPid := by
  have hexec := hs.2
  have hold : NothingNew k k' → ∃ s, k.servers i = some s ∧ s'.sid = s.sid ∧ s'.pid = s.pid := by
    intro hnew
    obtain ⟨s, hs, hcard⟩ := hnew.servers i s' hi
    exact ⟨s, hs, congrArg Card.sid hcard, congrArg Card.pid hcard⟩
  by_cases hreg : e.Registers
  · cases e with
    | svc frame call =>
      cases hcreates : call.creates with
      | none => exact .inl (effect_ids (exec_effect hreg hcreates hexec) hi)
      | some created =>
        obtain ⟨sid, range⟩ := created
        rcases exec_creates hcreates hexec with ⟨sidx, s, k1, -, h1, hcard, h2⟩ | hnew
        · obtain ⟨s2, hs2, hc2⟩ := h2.servers i s' hi
          dsimp only at hs2
          rcases eq_or_ne i sidx with rfl | hne
          · rw [Function.update_self] at hs2
            cases hs2
            have hc := hc2.trans hcard
            have hsid : s'.sid = sid := congrArg Card.sid hc
            exact .inr ⟨frame, call, range, rfl, hsid ▸ hcreates, congrArg Card.pid hc⟩
          · rw [Function.update_of_ne hne] at hs2
            obtain ⟨s1, hs1, hc1⟩ := h1.servers i s2 hs2
            have hc := hc2.trans hc1
            exact .inl ⟨s1, hs1, congrArg Card.sid hc, congrArg Card.pid hc⟩
        · exact .inl (hold hnew)
    | _ => cases hreg
  · have hnew := exec_nothingNew hreg k
    rw [wp, hexec] at hnew
    exact .inl (hold hnew)

/-- The end of a process takes the keyboard from its holder. -/
theorem exit_focus (hk : k.display.inputSid = h.map Prod.snd)
    (hfair : k.display.inputSid.isSome → (k.display.OwnedBy pid ↔ h.map Prod.fst = some pid)) :
    (k.display.exit k.alive pid).inputSid = (h.filter fun x => x.1 ≠ pid).map Prod.snd := by
  unfold DisplayState.exit
  cases h with
  | none =>
    rw [Option.map_none] at hk
    split <;> simp [hk]
  | some x =>
    rw [map_some] at hk
    have hiff := hfair (by rw [hk]; rfl)
    rw [map_some, Option.some.injEq] at hiff
    split
    next hown =>
      simp [Option.filter, hiff.mp hown]
    next hown =>
      have hne : x.1 ≠ pid := fun heq => hown (hiff.mpr heq)
      simp [Option.filter, hne, hk]

theorem displayAfter_focus (hf : Fair k h e) (hk : k.display.inputSid = h.map Prod.snd) :
    (k.displayAfter e).inputSid = (k.focusAfter e h).map Prod.snd := by
  unfold displayAfter focusAfter
  cases hend : k.endedBy e with
  | some pid => exact exit_focus hk (hf.ending pid hend)
  | none =>
    cases e with
    | input _ _ | idle _ => exact (DisplayState.foldl_type_inputSid _ _).trans hk
    | svc frame call =>
      cases call with
      | acquireDisplay => exact (DisplayState.acquire_inputSid _ _).trans hk
      | releaseDisplay row col => exact (DisplayState.release_inputSid _ _ _ _ _).trans hk
      | acquireInputFocus sid =>
        dsimp only
        unfold DisplayState.focus
        split
        · rfl
        · exact hk
      | releaseInputFocus =>
        cases h with
        | none => rfl
        | some x =>
          have hown := hf.releasing frame rfl (by rw [hk]; rfl)
          rw [map_some, Option.some.injEq] at hown
          simp [Option.filter, hown]
      | _ => exact hk
    | _ => exact hk

/-- Whoever is to hold the keyboard after the step has all servers with the id. -/
theorem focusAfter_owns (hf : Fair k h e) (hk : KeyboardHeld k h) : ∀ x ∈ k.focusAfter e h, OwnsId x.1 x.2 k := by
  have hsame : ∀ (p : PID × SID → Bool), ∀ x ∈ h.filter p, OwnsId x.1 x.2 k := fun p x hx =>
    hk.owns x (Option.filter_eq_some_iff.mp hx).1
  unfold focusAfter
  cases hend : k.endedBy e with
  | some pid => exact hsame _
  | none =>
    cases e with
    | svc frame call =>
      cases call with
      | acquireInputFocus sid =>
        dsimp only
        split
        next hown =>
          rintro x ⟨⟩
          exact hf.acquiring frame sid rfl hown
        · exact hk.owns
      | releaseInputFocus => exact hsame _
      | _ => exact hk.owns
    | _ => exact hk.owns

theorem focusAfter_of_creates {frame : Context} {call : SysCall} {x : SID × MessageRange}
    (hcall : call.creates = some x) (h : Option (PID × SID)) : k.focusAfter (.svc frame call) h = h := by
  cases call with
  | createServerWithAddress | createServer => rfl
  | _ => cases hcall

/-- **A fair step keeps the keyboard where it should be.** -/
theorem step_keyboardHeld (hb : Ipc.Basic k.ipc) (hs : Step k e k') (hf : Fair k h e) (hk : KeyboardHeld k h) :
    KeyboardHeld k' (k.focusAfter e h) := by
  refine ⟨?_, fun x hx i s' hi hsid => ?_⟩
  · rw [(step_leaves hb hs).display]
    exact displayAfter_focus hf hk.focus
  · rcases step_server hs hi with ⟨s, hs₀, hsid₀, hpid₀⟩ | ⟨frame, call, range, rfl, hcreates, hpid⟩
    · rw [hpid₀]
      exact focusAfter_owns hf hk x hx i s hs₀ (hsid₀.symm.trans hsid)
    · rw [focusAfter_of_creates hcreates] at hx
      have hfocus : k.display.inputSid = some s'.sid := by
        rw [hk.focus, hx, map_some, hsid]
      have hown := hf.creating frame call s'.sid range rfl hcreates hfocus
      rw [hx, map_some, Option.some.injEq] at hown
      rw [hpid, hown]

/-! ## 3. Runs -/

/-- Nothing of the process differs: not its servers, nor the registers of its threads. -/
structure Spared (pid : PID) (k k' : Kernel) : Prop where
  servers : ∀ i s, k.servers i = some s → s.pid = pid → k'.servers i = some s
  context : ∀ tid, k'.context (pid, tid) = k.context (pid, tid)

theorem Spared.trans {k1 : Kernel} (h1 : Spared pid k k1) (h2 : Spared pid k1 k') : Spared pid k k' :=
  ⟨fun i s hs hpid => h2.servers i s (h1.servers i s hs hpid) hpid, fun tid => (h2.context tid).trans (h1.context tid)⟩

/-- What is typed reaches the holder of the keyboard and nobody else. -/
def TypedTo (h : Option (PID × SID)) (k k' : Kernel) : Prop :=
  KeyboardHeld k h → KeyboardHeld k' h ∧ ∀ pid, h.map Prod.fst ≠ some pid → Spared pid k k'

instance : IsPreorder Kernel (TypedTo h) where
  refl k hk := ⟨hk, fun _ _ => ⟨fun _ _ hs _ => hs, fun _ => rfl⟩⟩
  trans _ _ _ h1 h2 hk := by
    obtain ⟨hk1, hs1⟩ := h1 hk
    obtain ⟨hk2, hs2⟩ := h2 hk1
    exact ⟨hk2, fun pid hne => (hs1 pid hne).trans (hs2 pid hne)⟩

theorem spared_of_reserved {x : PID × SID} (hk : OwnsId x.1 x.2 k) (h : Reserved x.1 x.2 k k') (pid : PID)
    (hne : (some x).map Prod.fst ≠ some pid) : Spared pid k k' := by
  have hne' : pid ≠ x.1 := fun heq => hne (congrArg some heq.symm)
  exact ⟨fun i s hs hpid => (h hk).servers i s hs (hpid ▸ hne'), fun tid => (h hk).writes.context (pid, tid) hne'⟩

theorem dispatchInputChar_typedTo (c : UInt8) : Along (TypedTo h) (dispatchInputChar c) := by
  refine Along.get_bind fun k => ?_
  by_cases hk : KeyboardHeld k h
  · cases h with
    | none =>
      have hfocus : k.display.inputSid = none := hk.focus
      simp only [hfocus]
      exact fun _ => ⟨⟨rfl, nofun⟩, fun _ _ => ⟨fun _ _ hs _ => hs, fun _ => rfl⟩⟩
    | some x =>
      have hfocus : k.display.inputSid = some x.2 := hk.focus
      have hown : OwnsId x.1 x.2 k := hk.owns x rfl
      have hend : ∀ k', Shown k k' ∧ Reserved x.1 x.2 k k' → TypedTo (some x) k k' := by
        rintro k' ⟨hshown, hres⟩ -
        refine ⟨⟨hshown.display ▸ hk.focus, ?_⟩, spared_of_reserved hown hres⟩
        rintro _ ⟨⟩
        exact (hres hown).ownsId hown
      simp only [hfocus]
      exact wp_mono (Exec.wp_and (shown_frame.toServiceFrame.deliverCharToSid x.2 c k)
        (deliverCharToSid_reserved x.2 c k)) (fun _ => hend) fun _ => hend
  · -- nothing is promised of a state that is not as assumed
    unfold wp
    split
    · exact fun h => absurd h hk
    · exact fun h => absurd h hk
    · trivial

/-- The code that hands out characters during an event. -/
def typing (k : Kernel) : Event → KExec Unit
  | .svc _ (.acquireInputFocus sid) =>
    if k.display.OwnedBy k.currentPid then Exec.each (deliverCharToSid sid) k.display.inputBuf else pure ()
  | .input _ chars | .idle chars => Exec.each dispatchInputChar chars
  | _ => pure ()

/-- What the kernel hands out during the event spares everyone but the holder. -/
def TypesFor (h : Option (PID × SID)) (k : Kernel) (e : Event) : Prop :=
  ∀ k1 : Kernel, k1.servers = k.servers → k1.display = k.display →
    wp (k.typing e) (fun _ k2 => ∀ pid, h.map Prod.fst ≠ some pid → Spared pid k1 k2)
      (fun _ k2 => ∀ pid, h.map Prod.fst ≠ some pid → Spared pid k1 k2) k1

theorem typesFor_of_idle (h : Option (PID × SID)) (he : k.typing e = pure ()) : TypesFor h k e := by
  intro k1 _ _
  rw [he]
  exact fun _ _ => ⟨fun _ _ hs _ => hs, fun _ => rfl⟩

theorem typesFor_chars {chars : List UInt8} (hk : KeyboardHeld k h)
    (he : k.typing e = Exec.each dispatchInputChar chars) : TypesFor h k e := by
  intro k1 hservers hdisplay
  have hk1 : KeyboardHeld k1 h := by
    refine ⟨hdisplay ▸ hk.focus, fun x hx => ?_⟩
    have hown := hk.owns x hx
    unfold OwnsId at hown ⊢
    rwa [hservers]
  rw [he]
  have halong : Along (TypedTo h) (Exec.each dispatchInputChar chars) := .each fun c _ => dispatchInputChar_typedTo c
  exact wp_mono (halong k1) (fun _ _ h => (h hk1).2) fun _ _ h => (h hk1).2

theorem fair_typesFor (hk : KeyboardHeld k h) (hf : Fair k h e) : TypesFor (k.focusAfter e h) k e := by
  cases e with
  | svc frame call =>
    cases call with
    | acquireInputFocus sid =>
      by_cases hown : k.display.OwnedBy k.currentPid
      · intro k1 hservers _
        have hafter : k.focusAfter (.svc frame (.acquireInputFocus sid)) h = some (k.currentPid, sid) := if_pos hown
        have hsid : OwnsId k.currentPid sid k1 := by
          have := hf.acquiring frame sid rfl hown
          unfold OwnsId at this ⊢
          rwa [hservers]
        have halong : Along (Reserved k.currentPid sid) (Exec.each (deliverCharToSid sid) k.display.inputBuf) :=
          .each fun c _ => deliverCharToSid_reserved sid c
        rw [hafter, typing, if_pos hown]
        exact wp_mono (halong k1) (fun _ _ hres => spared_of_reserved (x := (k.currentPid, sid)) hsid hres)
          fun _ _ hres => spared_of_reserved (x := (k.currentPid, sid)) hsid hres
      · exact typesFor_of_idle _ (if_neg hown)
    | _ => exact typesFor_of_idle _ rfl
  | input frame chars | idle chars => exact typesFor_chars hk rfl
  | _ => exact typesFor_of_idle _ rfl

theorem run_keyboardHeld (h₀ : Booted k₀) (hnone : k₀.display.inputSid = none) (hr : FocusRun Fair k₀ es k h) :
    KeyboardHeld k h := by
  induction hr with
  | nil => exact ⟨hnone, nofun⟩
  | snoc hr hs hf ih => exact step_keyboardHeld (run_basic h₀ hr.run) hs hf ih

/-- The events one after the other, with the keyboard as it should be. -/
def execFocus : List Event → Kernel × Option (PID × SID) → Option (Kernel × Option (PID × SID))
  | [], x => some x
  | e :: es, (k, h) =>
    if Enabled k e then
      match exec e k with
      | .ok _ k' => execFocus es (k', k.focusAfter e h)
      | _ => none
    else none

theorem execFocus_run {k1 : Kernel} {h1 : Option (PID × SID)} {es₀ : List Event}
    (h₀ : FocusRun (fun _ _ _ => True) k₀ es₀ k1 h1) (hx : execFocus es (k1, h1) = some (k, h)) :
    FocusRun (fun _ _ _ => True) k₀ (es₀ ++ es) k h := by
  induction es generalizing k1 h1 es₀ with
  | nil =>
    cases hx
    rw [List.append_nil]
    exact h₀
  | cons e es ih =>
    unfold execFocus at hx
    split at hx
    next henabled =>
      split at hx
      next k' hexec =>
        have hrun := ih (h₀.snoc ⟨henabled, hexec⟩ trivial) hx
        rwa [List.append_assoc] at hrun
      · cases hx
    · cases hx

end Kernel

namespace Machine

open Kernel

/-- Process 2 takes the display and the keyboard. -/
def focusEvents : List Event := [.svc frame .acquireDisplay, .svc frame (.acquireInputFocus sid)]

/-- Process 3 is next, and releases the keyboard. -/
def snatchEvents : List Event := focusEvents ++ [.svc frame .yield, .svc frame .releaseInputFocus]

end Machine

namespace Kernel

open Machine

/-- Events that neither end a process, nor release the keyboard, nor create a server. -/
theorem fair_acquireDisplay (k : Kernel) (h : Option (PID × SID)) : Fair k h (.svc frame .acquireDisplay) where
  ending _ hend := by cases hend
  releasing _ he := by cases he
  acquiring _ _ he := by cases he
  creating _ _ _ _ he hcreates := by
    cases he
    cases hcreates

theorem fair_acquireInputFocus {k : Kernel} {sid : SID} (hown : OwnsId k.currentPid sid k) (h : Option (PID × SID)) :
    Fair k h (.svc frame (.acquireInputFocus sid)) where
  ending _ hend := by cases hend
  releasing _ he := by cases he
  acquiring _ _ he _ := by
    cases he
    exact hown
  creating _ _ _ _ he hcreates := by
    cases he
    cases hcreates

end Kernel

end BeetKernel

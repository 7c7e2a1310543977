/-
# Those who wait for the display

A thread that asks for the display while it is taken is suspended, and entered in a ring of sixteen.
Whoever is in the ring stays there until it is handed the display or its process ends, and each time
the display changes hands it moves up, so it is served after fewer changes than there were entries.
But the ring may be full: then the thread is suspended all the same and entered nowhere.
-/
import BeetKernel.Display.Transitions

namespace BeetKernel

namespace Kernel

open Ipc

variable {k k' k₀ : Kernel} {e : Event} {es : List Event} {t : ThreadId} {n : Nat}

/-! ## 1. Changes of the owner -/

/-- The event takes the display from its owner, whose process gives it up or ends. -/
def Frees (k : Kernel) (e : Event) : Prop := (∃ pid, k.endedBy e = some pid ∧ k.display.OwnedBy pid) ∨
  (∃ frame row col, e = .svc frame (.releaseDisplay row col)) ∧ k.display.OwnedBy k.currentPid

/-- The ring and the owner, after the display has been passed on. -/
theorem displayAfter_of_frees (h : k.Frees e) : ∃ d : DisplayState, d.waiters = k.display.waiters ∧
    d.owner = none ∧ k.displayAfter e = d.passOn k.alive := by
  rcases h with ⟨pid, he, hown⟩ | ⟨⟨frame, row, col, rfl⟩, hown⟩
  · refine ⟨{ k.display with owner := none, inputSid := none }, rfl, rfl, ?_⟩
    unfold displayAfter
    rw [he]
    exact if_pos hown
  · exact ⟨{ k.display with owner := none, cursorRow := row, cursorCol := col }, rfl, rfl, if_pos hown⟩

theorem foldl_type_screen (chars : List UInt8) (d : DisplayState) :
    (chars.foldl DisplayState.type d).owner = d.owner ∧ (chars.foldl DisplayState.type d).waiters = d.waiters := by
  induction chars generalizing d with
  | nil => exact ⟨rfl, rfl⟩
  | cons c rest ih =>
    obtain ⟨h1, h2⟩ := ih (d.type c)
    have htype : (d.type c).owner = d.owner ∧ (d.type c).waiters = d.waiters := by
      unfold DisplayState.type
      split <;> exact ⟨rfl, rfl⟩
    exact ⟨h1.trans htype.1, h2.trans htype.2⟩

/-- Otherwise at most one thread is entered at the end of the ring, or given a free display. -/
theorem displayAfter_of_not_frees (h : ¬ k.Frees e) :
    ((k.displayAfter e).owner = k.display.owner ∧ (k.displayAfter e).waiters = k.display.waiters) ∨
    (∃ frame, e = .svc frame .acquireDisplay) ∧ k.displayAfter e = k.display.acquire k.currentThread := by
  unfold displayAfter
  split
  next pid he =>
    have hown : ¬ k.display.OwnedBy pid := fun hown => h (.inl ⟨pid, he, hown⟩)
    rw [DisplayState.exit, if_neg hown]
    exact .inl ⟨rfl, rfl⟩
  · exact .inr ⟨⟨_, rfl⟩, rfl⟩
  · have hown : ¬ k.display.OwnedBy k.currentPid := fun hown => h (.inr ⟨⟨_, _, _, rfl⟩, hown⟩)
    rw [DisplayState.release, if_neg hown]
    exact .inl ⟨rfl, rfl⟩
  · refine .inl ?_
    unfold DisplayState.focus
    split <;> exact ⟨rfl, rfl⟩
  · exact .inl ⟨rfl, rfl⟩
  · exact .inl (foldl_type_screen _ _)
  · exact .inl (foldl_type_screen _ _)
  · exact .inl ⟨rfl, rfl⟩

/-- The first waiter whose process is there comes no later than `t`, and everybody behind it moves up. -/
theorem dropWhile_ahead {alive : PID → Bool} (halive : alive t.1 = true) {l : List ThreadId} (ht : t ∈ l) :
    ∃ u rest, l.dropWhile (fun t => !alive t.1) = u :: rest ∧ (u = t ∨ t ∈ rest ∧ rest.idxOf t < l.idxOf t) := by
  induction l with
  | nil => cases ht
  | cons a l ih =>
    by_cases ha : alive a.1 = true
    · refine ⟨a, l, by simp [ha], ?_⟩
      by_cases hat : a = t
      · exact .inl hat
      · refine .inr ⟨(List.mem_cons.mp ht).resolve_left (Ne.symm hat), ?_⟩
        rw [List.idxOf_cons_ne _ hat]
        exact Nat.lt_succ_self _
    · have hne : a ≠ t := fun h => ha (h ▸ halive)
      obtain ⟨u, rest, hdrop, h⟩ := ih ((List.mem_cons.mp ht).resolve_left (Ne.symm hne))
      refine ⟨u, rest, by simpa [ha] using hdrop, h.imp_right fun h => ⟨h.1, ?_⟩⟩
      rw [List.idxOf_cons_ne _ hne]
      exact Nat.lt_succ_of_lt h.2

/-! ## 2. Waiting -/

/-- A run from `k` in which the display is never handed to `t` and the process of `t` does not end,
while the display leaves its owner `n` times. -/
inductive Unserved (t : ThreadId) (k : Kernel) : Nat → Kernel → Prop where
  | start : Unserved t k 0 k
  | passed {n : Nat} {k' k'' : Kernel} {e : Event} : Unserved t k n k' → Step k' e k'' → k'.Frees e →
      k''.display.owner ≠ some t → k'.endedBy e ≠ some t.1 → Unserved t k (n + 1) k''
  | other {n : Nat} {k' k'' : Kernel} {e : Event} : Unserved t k n k' → Step k' e k'' → ¬ k'.Frees e →
      k'.endedBy e ≠ some t.1 → Unserved t k n k''

/-- The thread is recorded for as long as it is not served, and that is not for ever: the display
leaves its owner fewer times than there are entries now. -/
def Queued (t : ThreadId) (k : Kernel) : Prop :=
  ∀ n k', Unserved t k n k' → t ∈ k'.display.waiters ∧ n < k.display.waiters.length

theorem step_waiter (hb : Basic k.ipc) (hs : Step k e k') (halive : k.alive t.1 = true)
    (ht : t ∈ k.display.waiters) (hends : k.endedBy e ≠ some t.1)
    (hfrees : k.Frees e → k'.display.owner ≠ some t) :
    k'.alive t.1 = true ∧ t ∈ k'.display.waiters ∧ k'.display.waiters.idxOf t ≤ k.display.waiters.idxOf t ∧
      (k.Frees e → k'.display.waiters.idxOf t < k.display.waiters.idxOf t) := by
  have hleaves := step_leaves hb hs
  refine ⟨hleaves.alive _ halive hends, ?_⟩
  by_cases hf : k.Frees e
  · obtain ⟨d, hd, -, hafter⟩ := displayAfter_of_frees hf
    obtain ⟨u, rest, hdrop, hrest⟩ := dropWhile_ahead halive ht
    have hpass : k'.display = { d with waiters := rest, owner := some u } := by
      rw [hleaves.display, hafter, DisplayState.passOn, hd, hdrop]
    have hu : u ≠ t := by
      rintro rfl
      exact hfrees hf (by rw [hpass])
    obtain ⟨hmem, hlt⟩ := hrest.resolve_left hu
    rw [hpass]
    exact ⟨hmem, Nat.le_of_lt hlt, fun _ => hlt⟩
  · rcases displayAfter_of_not_frees hf with ⟨-, hw⟩ | ⟨-, hacq⟩
    · rw [hleaves.display, hw]
      exact ⟨ht, le_refl _, fun h => absurd h hf⟩
    · have hgrow : ∃ more, k'.display.waiters = k.display.waiters ++ more := by
        rw [hleaves.display, hacq]
        unfold DisplayState.acquire
        split
        · dsimp only
          split
          · exact ⟨_, rfl⟩
          · exact ⟨[], (List.append_nil _).symm⟩
        · exact ⟨[], (List.append_nil _).symm⟩
      obtain ⟨more, hmore⟩ := hgrow
      rw [hmore]
      refine ⟨List.mem_append_left _ ht, ?_, fun h => absurd h hf⟩
      rw [List.idxOf_append_of_mem ht]

theorem queued_of_mem (hb : Basic k.ipc) (halive : k.alive t.1 = true) (ht : t ∈ k.display.waiters) :
    Queued t k := by
  suffices h : ∀ n k', Unserved t k n k' → Basic k'.ipc ∧ k'.alive t.1 = true ∧ t ∈ k'.display.waiters ∧
      n + k'.display.waiters.idxOf t ≤ k.display.waiters.idxOf t by
    intro n k' hu
    obtain ⟨-, -, hmem, hle⟩ := h n k' hu
    exact ⟨hmem, Nat.lt_of_le_of_lt (Nat.le_of_add_right_le hle) (List.idxOf_lt_length_of_mem ht)⟩
  intro n k' hu
  induction hu with
  | start => exact ⟨hb, halive, ht, by simp⟩
  | passed _ hs hf howner hends ih =>
    obtain ⟨hb', ha', hmem, hle⟩ := ih
    obtain ⟨ha'', hmem', -, hlt⟩ := step_waiter hb' hs ha' hmem hends fun _ => howner
    have := hlt hf
    exact ⟨step_basic hb' hs, ha'', hmem', by omega⟩
  | other _ hs hf hends ih =>
    obtain ⟨hb', ha', hmem, hle⟩ := ih
    obtain ⟨ha'', hmem', hle', -⟩ := step_waiter hb' hs ha' hmem hends fun h => absurd h hf
    exact ⟨step_basic hb' hs, ha'', hmem', by omega⟩

theorem alive_current (hb : Basic k.ipc) : k.alive k.currentThread.1 = true := by
  have hrun : k.ipc.parent k.currentPid ≠ none := hb.running
  have halive : k.alive k.currentPid = true := by
    simpa [alive, ipc, Option.isSome_iff_ne_none] using hrun
  exact halive

end Kernel

namespace Machine

open Kernel

/-- Process 2 takes the display and starts fifteen threads, and sixteen threads ask for the display. -/
def crowdEvents : List Event :=
  [.svc frame .acquireDisplay] ++ List.replicate 15 (.svc frame (.createThread ⟨0, 0, 0, 0, 0, 0⟩)) ++
    [.svc frame .yield] ++ List.replicate 16 (.svc frame .acquireDisplay)

end Machine

namespace Kernel

open Machine

end Kernel

end BeetKernel

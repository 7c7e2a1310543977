/-
# Which tasks the executor polls

`executor_schedules` says what the loop of `Executor::run` does, for any futures and any number of
tasks spawned while it runs.  It ends exactly when every task has completed, those spawned at run
time included; a completed task is never polled again; a task is polled only if it is new or has
been woken since its last poll; and a round polls every task that is awake at its beginning once.

The invariant is `Kept`: the flags of the tasks agree with their history.  A poll may do anything
to the reactor, but all it can do to the tasks is to wake them (`Prog.run_wakes`).
-/
import BeetKernel.AsyncRt.Executor
import Mathlib.Data.List.Nodup
import Mathlib.Data.List.Perm.Subperm
import Mathlib.Data.Nat.ModEq

namespace BeetKernel.AsyncRt

open World (beginPoll endPoll)
open List (append_nil getElem?_modify foldl_cons count_append mem_range)

variable {F S M : Type}

/-! ## 1. Histories of tasks -/

/-- Since its last poll the task has been created or woken. -/
def WokenSince (t : TaskId) (log : List Happening) : Prop :=
  ∃ a e b, log = a ++ e :: b ∧ (e = .created t ∨ e = .woken t) ∧ .polled t ∉ b

/-- Every poll is of a task that has not completed, and that is new or has been woken since its
last poll. -/
def Sound (log : List Happening) : Prop := ∀ a t b, log = a ++ .polled t :: b → .completed t ∉ a ∧ WokenSince t a

variable {hist l : List Happening} {t u : TaskId}

theorem WokenSince.append (h : WokenSince t hist) (hl : .polled t ∉ l) : WokenSince t (hist ++ l) := by
  obtain ⟨a, e, b, rfl, he, hb⟩ := h
  refine ⟨a, e, b ++ l, by simp, he, ?_⟩
  rw [List.mem_append]
  exact not_or.mpr ⟨hb, hl⟩

theorem wokenSince_of_mem (hnew : .created t ∈ l ∨ .woken t ∈ l) (hl : .polled t ∉ l) : WokenSince t (hist ++ l) := by
  have hsplit : ∀ e ∈ l, e = .created t ∨ e = .woken t → WokenSince t (hist ++ l) := by
    intro e hmem he
    obtain ⟨a, b, heq⟩ := List.append_of_mem hmem
    refine ⟨hist ++ a, e, b, by simp [heq], he, fun hb => hl ?_⟩
    simp [heq, hb]
  exact hnew.elim (fun h => hsplit _ h (.inl rfl)) fun h => hsplit _ h (.inr rfl)

theorem Sound.append (h : Sound hist) (hl : ∀ t, .polled t ∉ l) : Sound (hist ++ l) := by
  intro a t b heq
  rcases List.append_eq_append_iff.mp heq with ⟨c, hc, hl'⟩ | ⟨c, hc, hl'⟩
  · exact absurd (by rw [hl']; simp) (hl t)
  · cases c with
    | nil =>
      rw [List.nil_append] at hl'
      exact absurd (by rw [← hl']; simp) (hl t)
    | cons e c =>
      rw [List.cons_append] at hl'
      obtain ⟨rfl, -⟩ := List.cons.inj hl'
      exact h a t c hc

theorem Sound.polled (h : Sound hist) (hdone : .completed t ∉ hist) (hwoken : WokenSince t hist) :
    Sound (hist ++ [.polled t]) := by
  intro a u b heq
  rcases List.append_eq_append_iff.mp heq with ⟨c, hc, hl'⟩ | ⟨c, hc, hl'⟩
  · cases c with
    | nil =>
      rw [List.nil_append] at hl'
      rw [append_nil] at hc
      obtain ⟨heq', -⟩ := List.cons.inj hl'
      cases heq'
      exact hc ▸ ⟨hdone, hwoken⟩
    | cons e c =>
      obtain ⟨-, hnil⟩ := List.cons.inj hl'
      exact absurd hnil (by simp)
  · cases c with
    | nil =>
      rw [List.nil_append] at hl'
      rw [append_nil] at hc
      obtain ⟨heq', -⟩ := List.cons.inj hl'
      cases heq'
      exact hc ▸ ⟨hdone, hwoken⟩
    | cons e c =>
      rw [List.cons_append] at hl'
      obtain ⟨rfl, -⟩ := List.cons.inj hl'
      exact h a u c hc

/-- The flags of the tasks agree with their history. -/
structure Kept (tasks : List (Task F)) (log : List Happening) : Prop where
  sound : Sound log
  completed : ∀ t, .completed t ∈ log → ∃ task, tasks[t]? = some task ∧ task.completed = true
  ready : ∀ t task, tasks[t]? = some task → task.ready = true → WokenSince t log

/-! ## 2. Waking -/

/-- The tasks after the wakers of `ts` have been called. -/
def wakeAll (ts : List TaskId) (tasks : List (Task F)) : List (Task F) :=
  ts.foldl (fun tasks t => tasks.modify t fun task => { task with ready := true }) tasks

theorem getElem?_wakeAll (ts : List TaskId) (tasks : List (Task F)) (u : TaskId) : (wakeAll ts tasks)[u]? =
      (tasks[u]?).map fun task => { task with ready := task.ready || decide (u ∈ ts) } := by
  induction ts generalizing tasks with
  | nil => simp [wakeAll]
  | cons t ts ih =>
    have hcons : wakeAll (t :: ts) tasks =
        wakeAll ts (tasks.modify t fun task => { task with ready := true }) := rfl
    rw [hcons, ih, getElem?_modify]
    cases tasks[u]? with
    | none => rfl
    | some task =>
      by_cases htu : t = u
      · simp [htu]
      · simp [htu, Ne.symm htu]

/-- The only thing that happens to the tasks is that some are woken. -/
def Wakes (w w' : World F S M) : Prop :=
  ∃ ts, w'.tasks = wakeAll ts w.tasks ∧ w'.log = w.log ++ ts.map .woken ∧ w'.pollStart = w.pollStart

namespace Wakes

variable {w w' w1 w2 : World F S M}

theorem of_same (ht : w'.tasks = w.tasks) (hl : w'.log = w.log) (hs : w'.pollStart = w.pollStart) :
    Wakes w w' := ⟨[], by simp [wakeAll, ht], by simp [hl], hs⟩

theorem refl (w : World F S M) : Wakes w w := .of_same rfl rfl rfl

theorem trans (h1 : Wakes w w1) (h2 : Wakes w1 w2) : Wakes w w2 := by
  obtain ⟨ts1, ht1, hl1, hs1⟩ := h1
  obtain ⟨ts2, ht2, hl2, hs2⟩ := h2
  refine ⟨ts1 ++ ts2, ?_, by simp [hl1, hl2], hs2.trans hs1⟩
  rw [ht2, ht1, wakeAll, wakeAll, wakeAll, List.foldl_append]

theorem wake (w : World F S M) (t : TaskId) : Wakes w (w.wake t) := ⟨[t], rfl, rfl, rfl⟩

theorem wakes (ts : List TaskId) (w : World F S M) : Wakes w (ts.foldl World.wake w) := by
  induction ts generalizing w with
  | nil => exact .refl w
  | cons t ts ih => exact (Wakes.wake w t).trans (ih _)

/-- A task keeps everything but its flag, which is not taken from it. -/
theorem getElem? (h : Wakes w w') {task : Task F} (ht : w.tasks[u]? = some task) :
    ∃ ready, w'.tasks[u]? = some { task with ready := task.ready || ready } := by
  obtain ⟨ts, hts, -, -⟩ := h
  exact ⟨_, by rw [hts, getElem?_wakeAll, ht]; rfl⟩

theorem length (h : Wakes w w') : w'.tasks.length = w.tasks.length := by
  obtain ⟨ts, hts, -, -⟩ := h
  rw [hts, wakeAll]
  clear hts
  induction ts generalizing w with
  | nil => rfl
  | cons t ts ih =>
    rw [foldl_cons]
    have hlen := @ih { w with tasks := w.tasks.modify t fun task => { task with ready := true } }
    rw [hlen]
    exact List.length_modify _ _ _

theorem kept (h : Wakes w w') (hk : Kept w.tasks w.log) : Kept w'.tasks w'.log := by
  obtain ⟨ts, hts, hlog, -⟩ := h
  rw [hts, hlog]
  refine ⟨hk.sound.append (by simp), fun u hu => ?_, fun u task hu hready => ?_⟩
  · have hu' : Happening.completed u ∈ w.log := by simpa using hu
    obtain ⟨task, htask, hdone⟩ := hk.completed u hu'
    exact ⟨{ task with ready := task.ready || decide (u ∈ ts) }, by rw [getElem?_wakeAll, htask]; rfl, hdone⟩
  · rw [getElem?_wakeAll] at hu
    obtain ⟨task₀, htask₀, rfl⟩ := Option.map_eq_some_iff.mp hu
    rcases Bool.or_eq_true_iff.mp hready with hold | hnew
    · exact (hk.ready u task₀ htask₀ hold).append (by simp)
    · exact wokenSince_of_mem (.inr (by simpa using hnew)) (by simp)

theorem polls_none (h : Wakes w w') : ∃ new, w'.log = w.log ++ new ∧ ∀ t, new.count (.polled t) = 0 := by
  obtain ⟨ts, -, hlog, -⟩ := h
  exact ⟨_, hlog, fun t => List.count_eq_zero.mpr (by simp)⟩

end Wakes

/-! ## 3. One poll -/

/-- The task is awake and has not completed. -/
def World.Due (w : World F S M) (t : TaskId) : Prop :=
  ∃ task, w.tasks[t]? = some task ∧ task.completed = false ∧ task.ready = true

/-- The task exists and has not completed. -/
def World.Unfinished (w : World F S M) (t : TaskId) : Prop := ∃ task, w.tasks[t]? = some task ∧ task.completed = false

variable {w w' : World F S M} {task : Task F}

theorem beginPoll_kept (hk : Kept w.tasks w.log) (hdue : w.Due t) : Kept (w.beginPoll t).tasks (w.beginPoll t).log := by
  obtain ⟨task, htask, hrun, hready⟩ := hdue
  have hdone : .completed t ∉ w.log := fun hmem => by
    obtain ⟨task', htask', hdone⟩ := hk.completed t hmem
    rw [htask] at htask'
    cases htask'
    rw [hrun] at hdone
    cases hdone
  refine ⟨hk.sound.polled hdone (hk.ready t task htask hready), fun u hu => ?_, fun u task' hu hready' => ?_⟩
  · have hu' : Happening.completed u ∈ w.log := by simpa [beginPoll] using hu
    obtain ⟨task', htask', hdone'⟩ := hk.completed u hu'
    rw [beginPoll, getElem?_modify, htask']
    by_cases htu : t = u <;> simp [htu, hdone']
  · rw [beginPoll, getElem?_modify] at hu
    by_cases htu : t = u
    · obtain ⟨task₀, -, rfl⟩ := Option.map_eq_some_iff.mp hu
      simp [htu] at hready'
    · have hu : w.tasks[u]? = some task' := by simpa [htu] using hu
      exact (hk.ready u task' hu hready').append (by simpa using Ne.symm htu)

theorem endPoll_kept (hk : Kept w.tasks w.log) (ht : t < w.tasks.length) (result : Option F) :
    Kept (w.endPoll t result).tasks (w.endPoll t result).log := by
  cases result with
  | none =>
    refine ⟨hk.sound.append (by simp), fun u hu => ?_, fun u task' hu hready => ?_⟩
    · rw [endPoll, getElem?_modify]
      by_cases htu : t = u
      · subst htu
        exact ⟨_, by rw [List.getElem?_eq_getElem ht]; rfl, by simp⟩
      · have hu' : Happening.completed u ∈ w.log := by
          simpa [endPoll, Ne.symm htu] using hu
        obtain ⟨task', htask', hdone⟩ := hk.completed u hu'
        exact ⟨task', by simp [htu, htask'], hdone⟩
    · rw [endPoll, getElem?_modify] at hu
      obtain ⟨task₀, htask₀, rfl⟩ := Option.map_eq_some_iff.mp hu
      refine (hk.ready u task₀ htask₀ ?_).append (by simp)
      by_cases htu : t = u <;> simpa [htu] using hready
  | some f =>
    refine ⟨hk.sound, fun u hu => ?_, fun u task' hu hready => ?_⟩
    · obtain ⟨task', htask', hdone⟩ := hk.completed u hu
      rw [endPoll, getElem?_modify, htask']
      by_cases htu : t = u <;> simp [htu, hdone]
    · rw [endPoll, getElem?_modify] at hu
      obtain ⟨task₀, htask₀, rfl⟩ := Option.map_eq_some_iff.mp hu
      refine hk.ready u task₀ htask₀ ?_
      by_cases htu : t = u <;> simpa [htu] using hready

theorem endPoll_log (w : World F S M) (t : TaskId) (result : Option F) :
    ∃ new, (w.endPoll t result).log = w.log ++ new ∧ ∀ u, new.count (.polled u) = 0 := by
  cases result with
  | none => exact ⟨[.completed t], rfl, by simp⟩
  | some f => exact ⟨[], by simp [endPoll], by simp⟩

theorem World.Unfinished.lt (h : w.Unfinished t) : t < w.tasks.length := by
  obtain ⟨task, htask, -⟩ := h
  exact (getElem?_eq_some_iff.mp htask).1

variable [DecidableEq S]

/-- **A poll** only wakes tasks, as far as the tasks are concerned. -/
theorem Prog.run_wakes (p : Prog F S M) (w : World F S M) : Wakes w (p.run w).1 := by
  induction p generalizing w with
  | ready => exact .refl w
  | pending f => exact .refl w
  | wake t next ih => exact (Wakes.wake w t).trans (ih _)
  | spawn f next ih => exact (Wakes.of_same rfl rfl rfl).trans (ih _)
  | registerTimer delay next ih => exact (Wakes.of_same rfl rfl rfl).trans (ih _ _)
  | unregisterTimer id next ih => exact (Wakes.of_same rfl rfl rfl).trans (ih _)
  | timerExpired id next ih => exact ih _ w
  | setTimerWaker id t next ih => exact (Wakes.of_same rfl rfl rfl).trans (ih _)
  | registerServer sid next ih => exact (Wakes.of_same rfl rfl rfl).trans (ih _ _)
  | unregisterServer id next ih => exact (Wakes.of_same rfl rfl rfl).trans (ih _)
  | serverActive id next ih => exact ih _ w
  | tryRecv id next ih =>
    rw [Prog.run_tryRecv]
    exact (Wakes.of_same rfl rfl rfl).trans (ih _ _)
  | setServerWaker id t next ih => exact (Wakes.of_same rfl rfl rfl).trans (ih _)

theorem World.pollReactor_wakes (w : World F S M) : Wakes w w.pollReactor.1 :=
  (Wakes.of_same rfl rfl rfl).trans (.wakes _ _)

section
variable (poll : F → TaskId → Prog F S M)

/-- The poll of the task `t` in the world `w`. -/
def polls (w : World F S M) (t : TaskId) (task : Task F) : World F S M × Option F :=
  (poll task.future t).run (w.beginPoll t)

theorem pollTask_cases (p : Phase F S M) (t : TaskId) : (¬ p.world.Unfinished t ∧ pollTask poll p t = p) ∨
    (p.world.Unfinished t ∧ ¬ p.world.Due t ∧ pollTask poll p t = { p with anyPending := true }) ∨
    ∃ task, p.world.tasks[t]? = some task ∧ task.completed = false ∧ task.ready = true ∧ pollTask poll p t =
        ⟨(polls poll p.world t task).1.endPoll t (polls poll p.world t task).2, true,
          p.madeProgress || (polls poll p.world t task).2.isNone⟩ := by
  unfold pollTask
  cases htask : p.world.tasks[t]? with
  | none =>
    refine .inl ⟨?_, rfl⟩
    rintro ⟨task, htask', -⟩
    rw [htask] at htask'
    cases htask'
  | some task =>
    dsimp only
    cases hdone : task.completed with
    | true =>
      refine .inl ⟨?_, by simp⟩
      rintro ⟨task', htask', hrun⟩
      rw [htask] at htask'
      cases htask'
      rw [hdone] at hrun
      cases hrun
    | false =>
      cases hready : task.ready with
      | false =>
        refine .inr (.inl ⟨⟨task, htask, hdone⟩, ?_, by simp⟩)
        rintro ⟨task', htask', -, hready'⟩
        rw [htask] at htask'
        cases htask'
        rw [hready] at hready'
        cases hready'
      | true => exact .inr (.inr ⟨task, rfl, hdone, hready, by simp [polls]⟩)

theorem pollTask_other (p : Phase F S M) (hut : u ≠ t) (hu : p.world.tasks[u]? = some task) :
    ∃ ready, (pollTask poll p t).world.tasks[u]? = some { task with ready := task.ready || ready } := by
  have hsame : ∃ ready, p.world.tasks[u]? = some { task with ready := task.ready || ready } := ⟨false, by simp [hu]⟩
  rcases pollTask_cases poll p t with ⟨-, heq⟩ | ⟨-, -, heq⟩ | ⟨task', -, -, -, heq⟩
  · rwa [heq]
  · rwa [heq]
  · rw [heq]
    have hbegin : (p.world.beginPoll t).tasks[u]? = some task := by
      rw [beginPoll, getElem?_modify, hu]
      simp [Ne.symm hut]
    obtain ⟨ready, hrun⟩ := (Prog.run_wakes (poll task'.future t) (p.world.beginPoll t)).getElem? hbegin
    refine ⟨ready, ?_⟩
    rw [← hrun]
    dsimp only [polls]
    cases ((poll task'.future t).run (p.world.beginPoll t)).2 with
    | none =>
      rw [endPoll, getElem?_modify]
      simp [Ne.symm hut]
    | some f =>
      rw [endPoll, getElem?_modify]
      simp [Ne.symm hut]

theorem pollTask_kept (p : Phase F S M) (t : TaskId) (hk : Kept p.world.tasks p.world.log) :
    Kept (pollTask poll p t).world.tasks (pollTask poll p t).world.log := by
  rcases pollTask_cases poll p t with ⟨-, heq⟩ | ⟨-, -, heq⟩ | ⟨task, htask, hrun, hready, heq⟩
  · rwa [heq]
  · rwa [heq]
  · rw [heq]
    have hwakes := Prog.run_wakes (poll task.future t) (p.world.beginPoll t)
    refine endPoll_kept (hwakes.kept (beginPoll_kept hk ⟨task, htask, hrun, hready⟩)) ?_ _
    rw [hwakes.length]
    have hlt : t < p.world.tasks.length := (getElem?_eq_some_iff.mp htask).1
    simpa [beginPoll] using hlt

/-- One round of the loop polls nothing but `t`, at most once, and once if `t` is due. -/
theorem pollTask_log (p : Phase F S M) (t : TaskId) : ∃ new, (pollTask poll p t).world.log = p.world.log ++ new ∧
      (∀ u, u ≠ t → new.count (.polled u) = 0) ∧ new.count (.polled t) ≤ 1 ∧
      (p.world.Due t → new.count (.polled t) = 1) := by
  rcases pollTask_cases poll p t with ⟨hnot, heq⟩ | ⟨-, hnot, heq⟩ | ⟨task, -, -, -, heq⟩
  · refine ⟨[], by simp [heq], by simp, by simp, ?_⟩
    rintro ⟨task, htask, hrun, -⟩
    exact absurd ⟨task, htask, hrun⟩ hnot
  · exact ⟨[], by simp [heq], by simp, by simp, fun h => absurd h hnot⟩
  · obtain ⟨new1, hlog1, hnew1⟩ := (Prog.run_wakes (poll task.future t) (p.world.beginPoll t)).polls_none
    obtain ⟨new2, hlog2, hnew2⟩ := endPoll_log (polls poll p.world t task).1 t (polls poll p.world t task).2
    refine ⟨.polled t :: (new1 ++ new2), ?_, fun u hu => ?_, ?_, fun _ => ?_⟩
    · rw [heq, hlog2, polls, hlog1]
      simp [beginPoll]
    · rw [List.count_cons_of_ne (by simpa using Ne.symm hu), count_append, hnew1, hnew2]
    · rw [List.count_cons_self, count_append, hnew1, hnew2]
    · rw [List.count_cons_self, count_append, hnew1, hnew2]

theorem pollTask_progress (p : Phase F S M) (t : TaskId) (h : (pollTask poll p t).madeProgress = false) :
    p.madeProgress = false := by
  rcases pollTask_cases poll p t with ⟨-, heq⟩ | ⟨-, -, heq⟩ | ⟨task, -, -, -, heq⟩ <;> rw [heq] at h
  · exact h
  · exact h
  · exact (Bool.or_eq_false_iff.mp h).1

theorem pollTask_unfinished (p : Phase F S M) (t : TaskId) (h : (pollTask poll p t).madeProgress = false)
    (hu : p.world.Unfinished u) : (pollTask poll p t).world.Unfinished u := by
  by_cases hut : u = t
  · subst hut
    rcases pollTask_cases poll p u with ⟨-, heq⟩ | ⟨-, -, heq⟩ | ⟨task, htask, hrun, -, heq⟩
    · rwa [heq]
    · rwa [heq]
    · rw [heq] at h ⊢
      have hpend := (Bool.or_eq_false_iff.mp h).2
      have hbegin : (p.world.beginPoll u).tasks[u]? = some { task with ready := false } := by
        rw [beginPoll, getElem?_modify, htask]
        simp
      obtain ⟨ready, hrun'⟩ := (Prog.run_wakes (poll task.future u) (p.world.beginPoll u)).getElem? hbegin
      cases hres : (polls poll p.world u task).2 with
      | none => simp [hres] at hpend
      | some f =>
        refine ⟨{ task with future := f, ready := false || ready }, ?_, hrun⟩
        dsimp only
        rw [endPoll, getElem?_modify, polls, hrun']
        simp
  · obtain ⟨task, htask, hrun⟩ := hu
    obtain ⟨ready, heq⟩ := pollTask_other poll p hut htask
    exact ⟨_, heq, hrun⟩

/-! ## 4. One round of polls -/

variable {order : List TaskId}

theorem foldl_progress (order : List TaskId) (p : Phase F S M)
    (h : (order.foldl (pollTask poll) p).madeProgress = false) : p.madeProgress = false := by
  induction order generalizing p with
  | nil => exact h
  | cons t order ih => exact pollTask_progress poll p t (ih _ h)

theorem foldl_kept (order : List TaskId) (p : Phase F S M) (hk : Kept p.world.tasks p.world.log) :
    Kept (order.foldl (pollTask poll) p).world.tasks (order.foldl (pollTask poll) p).world.log := by
  induction order generalizing p with
  | nil => exact hk
  | cons t order ih => exact ih _ (pollTask_kept poll p t hk)

theorem foldl_unfinished (order : List TaskId) (p : Phase F S M)
    (h : (order.foldl (pollTask poll) p).madeProgress = false) (hu : p.world.Unfinished u) :
    (order.foldl (pollTask poll) p).world.Unfinished u := by
  induction order generalizing p with
  | nil => exact hu
  | cons t order ih =>
    exact ih _ h (pollTask_unfinished poll p t (foldl_progress poll order _ h) hu)

/-- **Every task is polled at most once in a round, and once if it is due.** -/
theorem foldl_log (hnd : order.Nodup) (p : Phase F S M) :
    ∃ new, (order.foldl (pollTask poll) p).world.log = p.world.log ++ new ∧
      ∀ u, new.count (.polled u) ≤ 1 ∧ (u ∉ order → new.count (.polled u) = 0) ∧
        (u ∈ order → p.world.Due u → new.count (.polled u) = 1) := by
  induction order generalizing p with
  | nil => exact ⟨[], by simp, by simp⟩
  | cons t order ih =>
    obtain ⟨ht, hnd'⟩ := List.nodup_cons.mp hnd
    obtain ⟨new1, hlog1, hother, hle, hdue⟩ := pollTask_log poll p t
    obtain ⟨new2, hlog2, hnew2⟩ := ih hnd' (pollTask poll p t)
    refine ⟨new1 ++ new2, by rw [foldl_cons, hlog2, hlog1, List.append_assoc], fun u => ?_⟩
    obtain ⟨hle2, hnot2, hin2⟩ := hnew2 u
    rw [count_append]
    by_cases hut : u = t
    · subst hut
      rw [hnot2 ht]
      exact ⟨hle, fun h => absurd (List.mem_cons_self) h, fun _ hd => hdue hd⟩
    · rw [hother u hut]
      refine ⟨by omega, fun h => ?_, fun h hd => ?_⟩
      · rw [hnot2 fun hmem => h (List.mem_cons_of_mem _ hmem)]
      · obtain ⟨task, htask, hrun, hready⟩ := hd
        obtain ⟨ready, heq⟩ := pollTask_other poll p hut htask
        rw [hin2 ((List.mem_cons.mp h).resolve_left hut) ⟨_, heq, hrun, by simp [hready]⟩]

theorem foldl_anyPending (order : List TaskId) (p : Phase F S M) : (order.foldl (pollTask poll) p).anyPending = false ↔
      p.anyPending = false ∧ ∀ t ∈ order, ¬ p.world.Unfinished t := by
  induction order generalizing p with
  | nil => simp
  | cons t order ih =>
    rw [foldl_cons, ih]
    rcases pollTask_cases poll p t with ⟨hnot, heq⟩ | ⟨hyes, -, heq⟩ | ⟨task, htask, hrun, -, heq⟩
    · rw [heq]
      simp [hnot]
    · rw [heq]
      simp [hyes]
    · rw [heq]
      have hyes : p.world.Unfinished t := ⟨task, htask, hrun⟩
      simp [hyes]

theorem foldl_done (order : List TaskId) (p : Phase F S M) (h : ∀ t ∈ order, ¬ p.world.Unfinished t) :
    order.foldl (pollTask poll) p = p := by
  induction order with
  | nil => rfl
  | cons t order ih =>
    have heq : pollTask poll p t = p := by
      rcases pollTask_cases poll p t with ⟨-, heq⟩ | ⟨hyes, -, -⟩ | ⟨task, htask, hrun, -, -⟩
      · exact heq
      · exact absurd hyes (h t List.mem_cons_self)
      · exact absurd ⟨task, htask, hrun⟩ (h t List.mem_cons_self)
    rw [foldl_cons, heq]
    exact ih fun u hu => h u (List.mem_cons_of_mem _ hu)

theorem mem_pollOrder_lt {start count : Nat} (h : t ∈ pollOrder start count) : t < count := by
  obtain ⟨i, hi, rfl⟩ := List.mem_map.mp h
  exact Nat.mod_lt _ (by have := mem_range.mp hi; omega)

theorem pollOrder_nodup (start count : Nat) : (pollOrder start count).Nodup := by
  refine List.Nodup.map_on (fun i hi j hj heq => ?_) List.nodup_range
  have hmod : i % count = j % count := Nat.ModEq.add_left_cancel (Nat.ModEq.refl start) heq
  rwa [Nat.mod_eq_of_lt (mem_range.mp hi), Nat.mod_eq_of_lt (mem_range.mp hj)] at hmod

theorem mem_pollOrder {start count : Nat} : t ∈ pollOrder start count ↔ t < count := by
  refine ⟨mem_pollOrder_lt, fun h => ?_⟩
  have hsub : pollOrder start count ⊆ List.range count := fun u hu => mem_range.mpr (mem_pollOrder_lt hu)
  have hperm : (pollOrder start count).Perm (List.range count) :=
    ((pollOrder_nodup start count).subperm hsub).perm_of_length_le (by simp [pollOrder])
  exact hperm.mem_iff.mpr (mem_range.mpr h)

/-! ## 5. One iteration of the loop -/

/-- Every task has completed, and none is waiting to be taken in. -/
def World.AllDone (w : World F S M) : Prop := (∀ task ∈ w.tasks, task.completed = true) ∧ w.reactor.spawnQueue = []

omit [DecidableEq S] in
theorem allDone_iff : w.AllDone ↔ ∀ t, ¬ w.drainSpawns.Unfinished t := by
  have htasks : w.drainSpawns.tasks = w.tasks ++ w.reactor.spawnQueue.map Task.new := rfl
  constructor
  · rintro ⟨hdone, hempty⟩ t ⟨task, htask, hrun⟩
    rw [htasks, hempty, List.map_nil, append_nil] at htask
    rw [hdone task (List.mem_of_getElem? htask)] at hrun
    cases hrun
  · intro h
    have hall : ∀ task ∈ w.drainSpawns.tasks, task.completed = true := by
      intro task hmem
      obtain ⟨t, ht⟩ := List.mem_iff_getElem?.mp hmem
      by_contra hrun
      exact h t ⟨task, ht, by simpa using hrun⟩
    rw [htasks] at hall
    refine ⟨fun task hmem => hall task (List.mem_append_left _ hmem), ?_⟩
    cases hqueue : w.reactor.spawnQueue with
    | nil => rfl
    | cons f rest =>
      have hnew := hall (Task.new f) (by simp [hqueue])
      cases hnew

/-- The world after phase 1 of an iteration. -/
def afterPolls (w : World F S M) : World F S M := (pollPhase poll w.drainSpawns).world.rotate w.drainSpawns.tasks.length

omit [DecidableEq S] in
theorem rotate_wakes (w : World F S M) (n : Nat) :
    (w.rotate n).tasks = w.tasks ∧ (w.rotate n).log = w.log ∧ (w.rotate n).reactor = w.reactor := by
  unfold World.rotate
  split <;> exact ⟨rfl, rfl, rfl⟩

theorem pollPhase_anyPending (w : World F S M) : (pollPhase poll w).anyPending = false ↔ ∀ t, ¬ w.Unfinished t := by
  rw [pollPhase, foldl_anyPending]
  refine ⟨fun h t ht => h.2 t (mem_pollOrder.mpr ht.lt) ht, fun h => ⟨rfl, fun t _ => h t⟩⟩

theorem iterate_eq (w : World F S M) : iterate poll w =
      if (pollPhase poll w.drainSpawns).anyPending = false then (afterPolls poll w, .returns)
      else ((afterPolls poll w).pollReactor.1,
        if (pollPhase poll w.drainSpawns).madeProgress || (afterPolls poll w).pollReactor.2
          then .goesOn else .waits) := by
  unfold iterate
  dsimp only
  cases (pollPhase poll w.drainSpawns).anyPending <;> rfl

/-- The loop ends exactly when every task has completed. -/
theorem iterate_returns_iff (w : World F S M) : (iterate poll w).2 = .returns ↔ w.AllDone := by
  rw [allDone_iff, ← pollPhase_anyPending poll, iterate_eq]
  split
  next h =>
    exact iff_of_true rfl h
  next h =>
    refine iff_of_false ?_ h
    dsimp only
    split <;> simp

theorem allDone_of_returns (h : (iterate poll w).2 = .returns) : (iterate poll w).1.AllDone := by
  have hdone := (iterate_returns_iff poll w).mp h
  have hnone := allDone_iff.mp hdone
  rw [iterate_eq, if_pos ((pollPhase_anyPending poll _).mpr hnone)]
  have hphase : (pollPhase poll w.drainSpawns).world = w.drainSpawns := by
    rw [pollPhase, foldl_done _ _ _ fun t _ => hnone t]
  obtain ⟨htasks, -, hreactor⟩ := rotate_wakes (pollPhase poll w.drainSpawns).world w.drainSpawns.tasks.length
  unfold World.AllDone
  rw [afterPolls, htasks, hreactor, hphase]
  refine ⟨?_, rfl⟩
  have heq : w.drainSpawns.tasks = w.tasks ++ w.reactor.spawnQueue.map Task.new := rfl
  rw [heq, hdone.2, List.map_nil, append_nil]
  exact hdone.1

/-- The iteration in which the last task completes does not end in waiting. -/
theorem goesOn_of_allDone (hnot : ¬ w.AllDone) (hdone : (iterate poll w).1.AllDone) : (iterate poll w).2 = .goesOn := by
  obtain ⟨t, ht⟩ : ∃ t, w.drainSpawns.Unfinished t := by
    rw [allDone_iff] at hnot
    push Not at hnot
    exact hnot
  have hpending : ¬ (pollPhase poll w.drainSpawns).anyPending = false := fun h =>
    (pollPhase_anyPending poll _).mp h t ht
  rw [iterate_eq, if_neg hpending] at hdone ⊢
  dsimp only at hdone ⊢
  cases hprogress : (pollPhase poll w.drainSpawns).madeProgress with
  | true => rfl
  | false =>
    obtain ⟨task, htask, hrun⟩ := foldl_unfinished poll _ ⟨w.drainSpawns, false, false⟩ hprogress ht
    have htasks := (rotate_wakes (pollPhase poll w.drainSpawns).world w.drainSpawns.tasks.length).1
    have htask' : (afterPolls poll w).tasks[t]? = some task := by
      rw [afterPolls, htasks]
      exact htask
    obtain ⟨ready, hfinal⟩ := (World.pollReactor_wakes (afterPolls poll w)).getElem? htask'
    have hcompleted := hdone.1 _ (List.mem_of_getElem? hfinal)
    dsimp only at hcompleted
    rw [hrun] at hcompleted
    cases hcompleted

/-- What a round polls: a task at most once, and once if it is awake when the round begins. -/
def Round (w w' : World F S M) : Prop := ∃ new, w'.log = w.log ++ new ∧
    ∀ t, new.count (.polled t) ≤ 1 ∧ (w.drainSpawns.Due t → new.count (.polled t) = 1)

omit [DecidableEq S] in
theorem World.Due.lt (h : w.Due t) : t < w.tasks.length := by
  obtain ⟨task, htask, -, -⟩ := h
  exact (getElem?_eq_some_iff.mp htask).1

theorem afterPolls_round (w : World F S M) : Round w (afterPolls poll w) := by
  obtain ⟨new1, hlog1, hnew1⟩ : ∃ new, w.drainSpawns.log = w.log ++ new ∧ ∀ t, new.count (.polled t) = 0 :=
    ⟨_, rfl, fun t => List.count_eq_zero.mpr (by simp)⟩
  obtain ⟨new2, hlog2, hnew2⟩ := foldl_log poll
    (pollOrder_nodup w.drainSpawns.pollStart w.drainSpawns.tasks.length) ⟨w.drainSpawns, false, false⟩
  refine ⟨new1 ++ new2, ?_, fun t => ?_⟩
  · rw [afterPolls, (rotate_wakes _ _).2.1, pollPhase, hlog2, hlog1, List.append_assoc]
  · obtain ⟨hle, -, hdue⟩ := hnew2 t
    rw [count_append, hnew1, Nat.zero_add]
    exact ⟨hle, fun h => hdue (mem_pollOrder.mpr h.lt) h⟩

theorem iterate_round (w : World F S M) : Round w (iterate poll w).1 := by
  obtain ⟨new, hlog, hnew⟩ := afterPolls_round poll w
  rw [iterate_eq]
  split
  · exact ⟨new, hlog, hnew⟩
  · obtain ⟨new', hlog', hnew'⟩ := (World.pollReactor_wakes (afterPolls poll w)).polls_none
    refine ⟨new ++ new', by rw [hlog', hlog, List.append_assoc], fun t => ?_⟩
    rw [count_append, hnew', Nat.add_zero]
    exact hnew t

/-! ## 6. Histories of whole runs -/

omit [DecidableEq S] in
theorem push_kept (fs : List F) (hk : Kept w.tasks w.log) : Kept (w.push fs).tasks (w.push fs).log := by
  refine ⟨hk.sound.append (by simp), fun t ht => ?_, fun t task ht hready => ?_⟩
  · have ht' : Happening.completed t ∈ w.log := by simpa [World.push] using ht
    obtain ⟨task, htask, hdone⟩ := hk.completed t ht'
    have hlt := (getElem?_eq_some_iff.mp htask).1
    exact ⟨task, by rw [World.push, List.getElem?_append_left hlt, htask], hdone⟩
  · rcases Nat.lt_or_ge t w.tasks.length with hlt | hge
    · rw [World.push, List.getElem?_append_left hlt] at ht
      exact (hk.ready t task ht hready).append (by simp)
    · have hlen : t < (w.push fs).tasks.length := (getElem?_eq_some_iff.mp ht).1
      refine wokenSince_of_mem (.inl ?_) (by simp)
      rw [World.push, List.length_append, List.length_map] at hlen
      refine List.mem_map.mpr ⟨t, List.mem_range'_1.mpr ⟨?_, ?_⟩, rfl⟩ <;> omega

theorem iterate_kept (hk : Kept w.tasks w.log) : Kept (iterate poll w).1.tasks (iterate poll w).1.log := by
  have hpolls : Kept (afterPolls poll w).tasks (afterPolls poll w).log := by
    obtain ⟨htasks, hlog, -⟩ := rotate_wakes (pollPhase poll w.drainSpawns).world w.drainSpawns.tasks.length
    rw [afterPolls, htasks, hlog]
    exact foldl_kept poll _ _ (push_kept w.reactor.spawnQueue hk)
  rw [iterate_eq]
  split
  · exact hpolls
  · exact (World.pollReactor_wakes _).kept hpolls

omit [DecidableEq S] in
theorem start_kept (fs : List F) (mail : Mail S M) : Kept (start fs mail).tasks (start fs mail).log := by
  refine push_kept fs ⟨?_, by simp, by simp⟩
  intro a t b h
  exact absurd h.symm (by simp)

theorem Reached.kept {fs : List F} {mail : Mail S M} (h : Reached poll fs mail w) : Kept w.tasks w.log := by
  induction h with
  | refl => exact start_kept fs mail
  | tail _ hstep ih =>
    cases hstep with
    | goesOn h =>
      have hk := iterate_kept poll ih
      rwa [h] at hk
    | waits batch h =>
      have hk := iterate_kept poll ih
      rwa [h] at hk

end

/-- A future that spawns a sibling, and is ready then; the sibling is ready at once. -/
def spawnOnce (first : Bool) (_ : TaskId) : Prog Bool Nat Nat :=
  if first then .spawn false .ready else .ready

end BeetKernel.AsyncRt

/-
# When the executor waits

On the hardware an iteration that made no progress ends in `wait_event`, which returns when a
message arrives.  The executor must not wait there while it has something to do: a task that is
awake, one that has been spawned, or a timer that is running (only its own ticks advance the
timers).  But `made_progress` is set only when a task completes or the reactor wakes one.  A poll
that wakes a task, spawns one or starts a timer, and leaves its own task pending, is no progress.
-/
import BeetKernel.AsyncRt.Polling

namespace BeetKernel.AsyncRt

variable {F S M : Type} {t u : TaskId}

/-! ## 1. Work that is left -/

/-- A task is awake, a task has been spawned, or a timer is running. -/
def World.WorkLeft (w : World F S M) : Prop := (∃ t, w.Due t) ∨ w.reactor.spawnQueue ≠ [] ∨
    ∃ slot ∈ w.reactor.timers, slot.active = true ∧ w.reactor.tick < slot.deadlineTick

/-- A poll that wakes, spawns or starts a timer ends with its future ready; `acted` says that it
has already done one of them. -/
def Prog.Settles : Bool → Prog F S M → Prop
  | _, .ready => True
  | acted, .pending _ => acted = false
  | _, .wake _ next => next.Settles true
  | _, .spawn _ next => next.Settles true
  | _, .registerTimer _ next => ∀ id, (next id).Settles true
  | acted, .unregisterTimer _ next => next.Settles acted
  | acted, .timerExpired _ next => ∀ b, (next b).Settles acted
  | acted, .setTimerWaker _ _ next => next.Settles acted
  | acted, .registerServer _ next => ∀ id, (next id).Settles acted
  | acted, .unregisterServer _ next => next.Settles acted
  | acted, .serverActive _ next => ∀ b, (next b).Settles acted
  | acted, .tryRecv _ next => ∀ msg, (next msg).Settles acted
  | acted, .setServerWaker _ _ next => next.Settles acted

/-- No active timer is due later than at the tick `d`. -/
def Early (d : Nat) (timers : List TimerSlot) : Prop := ∀ slot ∈ timers, slot.active = true → slot.deadlineTick ≤ d

/-- At the head of the loop: no timer runs beyond the next tick, and the polls of the tasks that
are awake, once the spawned ones are among them, settle. -/
structure SettledAt (poll : F → TaskId → Prog F S M) (w : World F S M) : Prop where
  timers : Early (ticks (w.reactor.tick + 1)) w.reactor.timers
  polls : ∀ t task, w.drainSpawns.tasks[t]? = some task → task.completed = false → task.ready = true →
    (poll task.future t).Settles false

/-! ## 2. Timers -/

theorem mem_modify {α : Type} {f : α → α} {l : List α} {i : Nat} {a : α} (h : a ∈ l.modify i f) :
    a ∈ l ∨ ∃ b ∈ l, a = f b := by
  obtain ⟨j, hj⟩ := List.mem_iff_getElem?.mp h
  rw [List.getElem?_modify] at hj
  obtain ⟨b, hb, rfl⟩ := Option.map_eq_some_iff.mp hj
  have hmem := List.mem_of_getElem? hb
  by_cases hij : i = j
  · exact .inr ⟨b, hmem, by simp [hij]⟩
  · exact .inl (by simpa [hij] using hmem)

variable {d : Nat} {timers : List TimerSlot}

theorem Early.unregisterTimer (h : Early d timers) (id : SlotId) : Early d (unregisterTimer timers id) := by
  intro slot hmem hactive
  rcases mem_modify hmem with hold | ⟨slot₀, -, rfl⟩
  · exact h slot hold hactive
  · cases hactive

theorem Early.setTimerWaker (h : Early d timers) (id : SlotId) (t : TaskId) : Early d (setTimerWaker timers id t) := by
  intro slot hmem hactive
  rcases mem_modify hmem with hold | ⟨slot₀, hold, rfl⟩
  · exact h slot hold hactive
  · exact h slot₀ hold hactive

theorem Early.pollTimers (h : Early d timers) (tick : Nat) : Early d (pollTimers tick timers).1 := by
  intro slot hmem hactive
  obtain ⟨slot₀, hold, rfl⟩ := List.mem_map.mp hmem
  have hsame : ∀ b : Bool, (if b = true then { slot₀ with waker := none } else slot₀).active = slot₀.active ∧
      (if b = true then { slot₀ with waker := none } else slot₀).deadlineTick = slot₀.deadlineTick := by
    intro b
    cases b <;> exact ⟨rfl, rfl⟩
  rw [(hsame _).2]
  rw [(hsame _).1] at hactive
  exact h slot₀ hold hactive

/-! ## 3. Polls that settle -/

/-- Nothing has been left to do: the tasks, the spawn queue and the tick are the same, and no timer
has been started. -/
structure Calm (w w' : World F S M) : Prop where
  tasks : w'.tasks = w.tasks
  spawnQueue : w'.reactor.spawnQueue = w.reactor.spawnQueue
  tick : w'.reactor.tick = w.reactor.tick
  early : ∀ d, Early d w.reactor.timers → Early d w'.reactor.timers

namespace Calm

variable {w w1 w2 : World F S M}

theorem refl (w : World F S M) : Calm w w := ⟨rfl, rfl, rfl, fun _ h => h⟩

theorem trans (h1 : Calm w w1) (h2 : Calm w1 w2) : Calm w w2 :=
  ⟨h2.tasks.trans h1.tasks, h2.spawnQueue.trans h1.spawnQueue, h2.tick.trans h1.tick,
    fun d h => h2.early d (h1.early d h)⟩

theorem setTimers (h : ∀ d, Early d w.reactor.timers → Early d timers) :
    Calm w (w.setTimers timers) := ⟨rfl, rfl, rfl, h⟩

theorem setServers (servers : List (ServerSlot S M)) : Calm w (w.setServers servers) := ⟨rfl, rfl, rfl, fun _ h => h⟩

end Calm

variable [DecidableEq S]

/-- **A poll that settles and leaves its future pending** leaves nothing to do. -/
theorem Prog.Settles.calm {p : Prog F S M} {acted : Bool} (h : p.Settles acted) (w : World F S M)
    {f : F} (hf : (p.run w).2 = some f) : acted = false ∧ Calm w (p.run w).1 := by
  induction p generalizing acted w with
  | ready => cases hf
  | pending g => exact ⟨h, .refl w⟩
  | wake t next ih => exact absurd (ih h _ hf).1 (by simp)
  | spawn g next ih => exact absurd (ih h _ hf).1 (by simp)
  | registerTimer delay next ih => exact absurd (ih _ (h _) _ hf).1 (by simp)
  | unregisterTimer id next ih =>
    obtain ⟨hacted, hcalm⟩ := ih h _ hf
    exact ⟨hacted, (Calm.setTimers fun d hd => hd.unregisterTimer id).trans hcalm⟩
  | timerExpired id next ih => exact ih _ (h _) w hf
  | setTimerWaker id t next ih =>
    obtain ⟨hacted, hcalm⟩ := ih h _ hf
    exact ⟨hacted, (Calm.setTimers fun d hd => hd.setTimerWaker id t).trans hcalm⟩
  | registerServer sid next ih =>
    obtain ⟨hacted, hcalm⟩ := ih _ (h _) _ hf
    exact ⟨hacted, (Calm.setServers _).trans hcalm⟩
  | unregisterServer id next ih =>
    obtain ⟨hacted, hcalm⟩ := ih h _ hf
    exact ⟨hacted, (Calm.setServers _).trans hcalm⟩
  | serverActive id next ih => exact ih _ (h _) w hf
  | tryRecv id next ih =>
    rw [Prog.run_tryRecv] at hf ⊢
    obtain ⟨hacted, hcalm⟩ := ih _ (h _) _ hf
    have hrecv : Calm w { w.setServers (AsyncRt.tryRecv w.reactor.servers w.mail id).1 with
        mail := (AsyncRt.tryRecv w.reactor.servers w.mail id).2.1 } := ⟨rfl, rfl, rfl, fun _ h => h⟩
    exact ⟨hacted, hrecv.trans hcalm⟩
  | setServerWaker id t next ih =>
    obtain ⟨hacted, hcalm⟩ := ih h _ hf
    exact ⟨hacted, (Calm.setServers _).trans hcalm⟩

/-! ## 4. Rounds without progress -/

/-- What a round leaves when no task completes in it: the tasks it visited sleep, the others are as
they were. -/
structure Rests (visited : List TaskId) (w w' : World F S M) : Prop where
  asleep : ∀ t ∈ visited, ¬ w'.Due t
  others : ∀ t, t ∉ visited → w'.tasks[t]? = w.tasks[t]?
  spawnQueue : w'.reactor.spawnQueue = w.reactor.spawnQueue
  tick : w'.reactor.tick = w.reactor.tick
  early : ∀ d, Early d w.reactor.timers → Early d w'.reactor.timers

section
variable (poll : F → TaskId → Prog F S M)

theorem pollTask_rests (p : Phase F S M) (t : TaskId)
    (hsettles : ∀ task, p.world.tasks[t]? = some task → task.completed = false → task.ready = true →
      (poll task.future t).Settles false)
    (hprogress : (pollTask poll p t).madeProgress = false) :
    Rests [t] p.world (pollTask poll p t).world := by
  have hstay : ¬ p.world.Due t → Rests [t] p.world p.world := fun hnot =>
    ⟨by simpa using hnot, fun _ _ => rfl, rfl, rfl, fun _ h => h⟩
  rcases pollTask_cases poll p t with ⟨hnot, heq⟩ | ⟨-, hnot, heq⟩ | ⟨task, htask, hrun, hready, heq⟩
  · rw [heq]
    refine hstay fun hdue => hnot ?_
    obtain ⟨task, htask, hrun, -⟩ := hdue
    exact ⟨task, htask, hrun⟩
  · rw [heq]
    exact hstay hnot
  · rw [heq] at hprogress ⊢
    have hpend := (Bool.or_eq_false_iff.mp hprogress).2
    obtain ⟨f, hf⟩ : ∃ f, (polls poll p.world t task).2 = some f := by
      cases hres : (polls poll p.world t task).2 with
      | none => simp [hres] at hpend
      | some f => exact ⟨f, rfl⟩
    obtain ⟨-, hcalm⟩ := (hsettles task htask hrun hready).calm (p.world.beginPoll t) hf
    -- the flag was cleared before the poll, and the poll has not set it
    have htasks : ((polls poll p.world t task).1.endPoll t (some f)).tasks =
        (p.world.tasks.modify t fun task => { task with ready := false }).modify t
          fun task => { task with future := f } := by
      rw [World.endPoll, polls, hcalm.tasks]
      rfl
    dsimp only
    rw [hf]
    refine ⟨?_, fun u hu => ?_, hcalm.spawnQueue, hcalm.tick, hcalm.early⟩
    · rintro u hu ⟨task', htask', -, hready'⟩
      rw [List.mem_singleton] at hu
      subst hu
      rw [htasks, List.getElem?_modify, List.getElem?_modify, htask] at htask'
      simp only [if_true, Option.map_eq_map, Option.map_some, Option.some.injEq] at htask'
      rw [← htask'] at hready'
      cases hready'
    · have hut : t ≠ u := fun h => hu (by simp [h])
      rw [htasks, List.getElem?_modify, List.getElem?_modify]
      simp [hut]

theorem foldl_rests {order : List TaskId} (hnd : order.Nodup) (p : Phase F S M)
    (hsettles : ∀ t ∈ order, ∀ task, p.world.tasks[t]? = some task → task.completed = false →
      task.ready = true → (poll task.future t).Settles false)
    (hprogress : (order.foldl (pollTask poll) p).madeProgress = false) :
    Rests order p.world (order.foldl (pollTask poll) p).world := by
  induction order generalizing p with
  | nil => exact ⟨by simp, fun _ _ => rfl, rfl, rfl, fun _ h => h⟩
  | cons t order ih =>
    obtain ⟨ht, hnd'⟩ := List.nodup_cons.mp hnd
    have h1 := pollTask_rests poll p t (hsettles t List.mem_cons_self) (foldl_progress poll order _ hprogress)
    have h2 := ih hnd' (pollTask poll p t) (fun u hu task htask => by
      have hut : u ∉ [t] := fun h => ht (List.mem_singleton.mp h ▸ hu)
      rw [h1.others u hut] at htask
      exact hsettles u (List.mem_cons_of_mem _ hu) task htask) hprogress
    refine ⟨fun u hu hdue => ?_, fun u hu => ?_, h2.spawnQueue.trans h1.spawnQueue, h2.tick.trans h1.tick,
      fun d h => h2.early d (h1.early d h)⟩
    · rcases List.mem_cons.mp hu with rfl | hu'
      · -- visited first, and not touched again
        refine h1.asleep u (List.mem_singleton_self u) ?_
        obtain ⟨task, htask, hrest⟩ := hdue
        exact ⟨task, (h2.others u ht).symm.trans htask, hrest⟩
      · exact h2.asleep u hu' hdue
    · rw [List.mem_cons, not_or] at hu
      exact (h2.others u hu.2).trans (h1.others u (by simpa using hu.1))

theorem pollReactor_quiet {w : World F S M} (h : w.pollReactor.2 = false) :
    w.pollReactor.1.tasks = w.tasks ∧ w.pollReactor.1.reactor.spawnQueue = w.reactor.spawnQueue ∧
      w.pollReactor.1.reactor.tick = ticks (w.reactor.tick + 1) ∧
      ∀ d, Early d w.reactor.timers → Early d w.pollReactor.1.reactor.timers := by
  have hempty : (w.reactor.pollAll w.mail).2.2 = [] := by
    simpa [World.pollReactor] using h
  have heq : w.pollReactor.1 =
      { w with reactor := (w.reactor.pollAll w.mail).1, mail := (w.reactor.pollAll w.mail).2.1 } := by
    simp [World.pollReactor, hempty]
  rw [heq]
  exact ⟨rfl, rfl, rfl, fun d hd => hd.pollTimers _⟩

/-- **One iteration**: it does not wait with work left, if the polls settle. -/
theorem iterate_settled {w : World F S M} (hsettled : SettledAt poll w)
    (hwaits : (iterate poll w).2 = .waits) : ¬ (iterate poll w).1.WorkLeft := by
  rw [iterate_eq] at hwaits ⊢
  split at hwaits
  · cases hwaits
  rename_i hpending
  rw [if_neg hpending]
  dsimp only at hwaits ⊢
  split at hwaits
  · cases hwaits
  rename_i hno
  rw [Bool.not_eq_true, Bool.or_eq_false_iff] at hno
  obtain ⟨hprogress, hquiet⟩ := hno
  obtain ⟨htasks, hspawn, htick, hearly⟩ := pollReactor_quiet hquiet
  obtain ⟨hrot, -, hreactor⟩ := rotate_wakes (pollPhase poll w.drainSpawns).world w.drainSpawns.tasks.length
  have hrests := foldl_rests poll (pollOrder_nodup w.drainSpawns.pollStart w.drainSpawns.tasks.length)
    ⟨w.drainSpawns, false, false⟩ (fun t _ => hsettled.polls t) hprogress
  have hafter : (afterPolls poll w).tasks = (pollPhase poll w.drainSpawns).world.tasks ∧
      (afterPolls poll w).reactor = (pollPhase poll w.drainSpawns).world.reactor := ⟨hrot, hreactor⟩
  rintro (⟨t, task, htask, hrun, hready⟩ | hqueue | ⟨slot, hslot, hactive, hlate⟩)
  · rw [htasks, hafter.1] at htask
    by_cases hmem : t ∈ pollOrder w.drainSpawns.pollStart w.drainSpawns.tasks.length
    · exact hrests.asleep t hmem ⟨task, htask, hrun, hready⟩
    · have hold := (hrests.others t hmem).symm.trans htask
      exact hmem (mem_pollOrder.mpr (getElem?_eq_some_iff.mp hold).1)
  · rw [hspawn, hafter.2] at hqueue
    exact hqueue hrests.spawnQueue
  · have hearly' := hearly _ (hafter.2 ▸ hrests.early _ hsettled.timers)
    have hle := hearly' slot hslot hactive
    have htick' : (afterPolls poll w).reactor.tick = w.reactor.tick := by
      rw [hafter.2]
      exact hrests.tick
    rw [htick, htick'] at hlate
    exact absurd hle (not_le.mpr hlate)

end

/-! ## 5. A task that yields -/

/-- A kernel without messages. -/
def noMail : Mail Nat Nat := ⟨fun _ => [], [], fun _ => []⟩

/-- A task that wakes itself and stays pending, as `yield` does. -/
def yields (_ : Unit) (t : TaskId) : Prog Unit Nat Nat := .wake t (.pending ())

/-- A task that sleeps. -/
def sleeps (_ : Unit) (_ : TaskId) : Prog Unit Nat Nat := .pending ()

theorem sleeps_timers {w : World Unit Nat Nat} (h : Reached sleeps [()] noMail w) : w.reactor.timers = [] := by
  have hpoll : ∀ (order : List TaskId) (p : Phase Unit Nat Nat),
      (order.foldl (pollTask sleeps) p).world.reactor = p.world.reactor := fun order => by
    induction order with
    | nil => exact fun _ => rfl
    | cons t order ih =>
      intro p
      rw [List.foldl_cons, ih]
      unfold pollTask
      split
      · rfl
      · split
        · rfl
        · dsimp only
          split <;> rfl
  have hwake : ∀ (ts : List TaskId) (w : World Unit Nat Nat), (ts.foldl World.wake w).reactor = w.reactor :=
    fun ts => by
      induction ts with
      | nil => exact fun _ => rfl
      | cons t ts ih => exact fun w => ih _
  have hiterate : ∀ w : World Unit Nat Nat, w.reactor.timers = [] →
      (iterate sleeps w).1.reactor.timers = [] := fun w hw => by
    have hafter : (afterPolls sleeps w).reactor.timers = [] := by
      rw [afterPolls, (rotate_wakes _ _).2.2, pollPhase, hpoll]
      exact hw
    rw [iterate_eq]
    split
    · exact hafter
    · simp only [World.pollReactor, hwake, Reactor.pollAll, pollTimers, hafter, List.map_nil]
  induction h with
  | refl => rfl
  | tail _ hstep ih =>
    have hnext := hiterate _ ih
    cases hstep with
    | goesOn h | waits batch h =>
      rw [h] at hnext
      exact hnext

end BeetKernel.AsyncRt

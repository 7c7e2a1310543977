/-
# Timers that share the slots of the reactor

A `Timer` is a handle into the vector of timer slots, and a slot is used again as soon as its
timer completes or is dropped.  `Clock` is that part of the reactor with all timers of the program.
Any task may make, poll or drop any timer at any time, and ticks come in between: the schedules
are the lists of `Event`.

For the statement an alarm records when the timer was first polled, who polled it last, and whether
a tick has reached the deadline since.  The code reads none of it.
-/
import BeetKernel.AsyncRt.Executor

namespace BeetKernel.AsyncRt

open Function (update_of_ne update_self update)

variable {F S M : Type} [DecidableEq S] {slots slots' : List TimerSlot} {tick : Nat} {i : Nat}

/-! ## 1. Polling and dropping -/

/-- `Timer::poll` by the task `t`: the slots, the timer and whether it is complete. -/
def Timer.polled (timer : Timer) (slots : List TimerSlot) (tick : Nat) (t : TaskId) : List TimerSlot × Timer × Bool :=
  let (slots, slot) := match timer.slot with
    | some slot => (slots, slot)
    | none => registerTimer tick timer.delay slots
  if timerExpired slots tick slot then
    (unregisterTimer slots slot, { timer with slot := none }, true)
  else (setTimerWaker slots slot t, { timer with slot := some slot }, false)

/-- `Timer::drop` -/
def Timer.dropped (timer : Timer) (slots : List TimerSlot) : List TimerSlot :=
  timer.slot.elim slots (unregisterTimer slots)

/-- The program of a task that polls a timer does what `Timer.polled` does. -/
theorem Timer.poll_run (timer : Timer) (t : TaskId) (onReady : Prog F S M)
    (onPending : Timer → Prog F S M) (w : World F S M) :
    (timer.poll t onReady onPending).run w =
      let (slots, timer', done) := timer.polled w.reactor.timers w.reactor.tick t
      (if done then onReady else onPending timer').run (w.setTimers slots) := by
  unfold Timer.poll Timer.polled
  cases hslot : timer.slot with
  | some slot =>
    simp only [Prog.run]
    split <;> rfl
  | none =>
    simp only [Prog.run, World.setTimers]
    generalize registerTimer w.reactor.tick timer.delay w.reactor.timers = r
    by_cases hexpired : timerExpired r.1 w.reactor.tick r.2 = true
    · simp only [hexpired, if_true, Prog.run, World.setTimers]
    · simp only [hexpired, Bool.false_eq_true, if_false, Prog.run, World.setTimers]

/-! ## 2. Schedules -/

/-- What has happened since the first poll of a timer that is not complete. -/
structure Wait where
  /-- The tick of the first poll. -/
  since : Nat
  /-- Who polled last. -/
  task : TaskId
  /-- A tick has reached the deadline. -/
  reached : Bool

structure Alarm where
  timer : Timer
  wait : Option Wait

/-- When the timer was first polled, or would be. -/
def Alarm.start (a : Alarm) (tick : Nat) : Nat := a.wait.elim tick Wait.since

/-- A tick has been counted. -/
def Alarm.advance (tick : Nat) (a : Alarm) : Alarm :=
  { a with wait := a.wait.map fun w =>
      { w with reached := w.reached || decide (w.since + a.timer.delay ≤ tick) } }

structure Clock where
  slots : List TimerSlot
  tick : Nat
  alarm : Nat → Option Alarm

inductive Event where
  | after (i delay : Nat)
  | poll (i : Nat) (t : TaskId)
  | drop (i : Nat)
  | tick

/-- The timer an event is about. -/
def Event.target : Event → Option Nat
  | .after i _ | .poll i _ | .drop i => some i
  | .tick => none

namespace Clock

def new : Clock := ⟨[], 0, fun _ => none⟩

/-- The task `t` polls a timer: whether it is complete. -/
def poll (c : Clock) (i : Nat) (t : TaskId) : Clock × Bool :=
  match c.alarm i with
  | none => (c, false)
  | some a =>
    let (slots, timer, done) := a.timer.polled c.slots c.tick t
    let wait := if done then none else some ⟨a.start c.tick, t, a.wait.any Wait.reached⟩
    ({ c with slots := slots, alarm := update c.alarm i (some ⟨timer, wait⟩) }, done)

/-- `poll_timers`, with the tasks it wakes. -/
def advance (c : Clock) : Clock × List TaskId :=
  let tick := ticks (c.tick + 1)
  let (slots, woken) := pollTimers tick c.slots
  (⟨slots, tick, fun i => (c.alarm i).map (Alarm.advance tick)⟩, woken)

def exec (c : Clock) : Event → Clock
  | .after i delay =>
    if (c.alarm i).isSome then c
    else { c with alarm := update c.alarm i (some ⟨⟨none, delay⟩, none⟩) }
  | .poll i t => (c.poll i t).1
  | .drop i =>
    match c.alarm i with
    | none => c
    | some a =>
      { c with slots := a.timer.dropped c.slots, alarm := update c.alarm i none }
  | .tick => c.advance.1

def run (es : List Event) : Clock := es.foldl exec new

end Clock

/-! ## 3. Ownership -/

/-- A timer that waits has an active slot with its deadline and, until a tick has reached the
deadline, the waker of its last poll. -/
inductive Alarm.Owns (slots : List TimerSlot) : Alarm → Prop
  | idle (delay : Nat) : Owns slots ⟨⟨none, delay⟩, none⟩
  | waits {n delay : Nat} {w : Wait} {slot : TimerSlot} (hslot : slots[n]? = some slot)
      (hactive : slot.active = true) (hdeadline : slot.deadlineTick = ticks (w.since + delay))
      (hwaker : w.reached = false → w.since + delay < 2 ^ 64 → slot.waker = some w.task) :
      Owns slots ⟨⟨some n, delay⟩, some w⟩

theorem Alarm.Owns.congr {a : Alarm} (h : a.Owns slots)
    (hsame : ∀ n, a.timer.slot = some n → slots'[n]? = slots[n]?) : a.Owns slots' := by
  cases h with
  | idle delay => exact .idle delay
  | waits hslot hactive hdeadline hwaker =>
    exact .waits ((hsame _ rfl).trans hslot) hactive hdeadline hwaker

theorem Alarm.Owns.active {a : Alarm} {n : SlotId} (h : a.Owns slots) (hn : a.timer.slot = some n) :
    ∃ slot, slots[n]? = some slot ∧ slot.active = true := by
  cases h with
  | idle => cases hn
  | waits hslot hactive =>
    cases hn
    exact ⟨_, hslot, hactive⟩

/-- Where a poll finds the timer's slot: its own one, or one that was free before. -/
theorem Alarm.Owns.polled {a : Alarm} (h : a.Owns slots) (tick : Nat) (t : TaskId) :
    ∃ n slots1 slot, (∀ m, m ≠ n → slots1[m]? = slots[m]?) ∧
      (a.timer.slot = some n ∨ ∀ slot, slots[n]? = some slot → slot.active = false) ∧
      slots1[n]? = some slot ∧ slot.active = true ∧
      slot.deadlineTick = ticks (a.start tick + a.timer.delay) ∧
      a.timer.polled slots tick t =
        if ticks (a.start tick + a.timer.delay) ≤ tick then
          (unregisterTimer slots1 n, { a.timer with slot := none }, true)
        else (setTimerWaker slots1 n t, { a.timer with slot := some n }, false) := by
  cases h with
  | idle delay =>
    obtain ⟨hnew, hfree, hothers⟩ := registerTimer_spec tick delay slots
    refine ⟨_, _, _, hothers, .inr hfree, hnew, rfl, rfl, ?_⟩
    by_cases hdue : ticks (tick + delay) ≤ tick <;>
      simp [Timer.polled, timerExpired, hnew, start, hdue]
  | @waits n delay w slot hslot hactive hdeadline hwaker =>
    refine ⟨n, slots, slot, fun _ _ => rfl, .inl rfl, hslot, hactive, hdeadline, ?_⟩
    by_cases hdue : ticks (w.since + delay) ≤ tick <;>
      simp [Timer.polled, timerExpired, hslot, hactive, hdeadline, start, hdue]

theorem unregisterTimer_other {n m : SlotId} (hm : m ≠ n) : (unregisterTimer slots n)[m]? = slots[m]? := by
  simp [unregisterTimer, hm.symm]

structure Clock.Owns (c : Clock) : Prop where
  alarms : ∀ i a, c.alarm i = some a → a.Owns c.slots
  apart : ∀ i j a b n, c.alarm i = some a → c.alarm j = some b → a.timer.slot = some n → b.timer.slot = some n → i = j

namespace Clock.Owns

variable {c : Clock} (h : c.Owns)

include h

/-- One timer becomes `b` or goes, and at most the slot `n`, which no other timer has, changes. -/
theorem change {n : Option SlotId} {b : Option Alarm} (hsame : ∀ m, n ≠ some m → slots[m]? = c.slots[m]?)
    (hfree : ∀ j a, j ≠ i → c.alarm j = some a → ∀ m, a.timer.slot = some m → n ≠ some m)
    (hown : ∀ a, b = some a → a.Owns slots ∧ ∀ m, a.timer.slot = some m → n = some m) :
    Clock.Owns { c with slots := slots, alarm := update c.alarm i b } := by
  constructor
  · intro j a ha
    dsimp only at ha
    by_cases hj : j = i
    · subst hj
      rw [update_self] at ha
      exact (hown a ha).1
    · rw [update_of_ne hj] at ha
      exact (h.alarms j a ha).congr fun m hm => hsame m (hfree j a hj ha m hm)
  · intro j k a a' m ha ha' hm hm'
    dsimp only at ha ha'
    by_cases hj : j = i <;> by_cases hk : k = i
    · rw [hj, hk]
    · subst hj
      rw [update_self] at ha
      rw [update_of_ne hk] at ha'
      exact absurd ((hown a ha).2 m hm) (hfree k a' hk ha' m hm')
    · subst hk
      rw [update_self] at ha'
      rw [update_of_ne hj] at ha
      exact absurd ((hown a' ha').2 m hm') (hfree j a hj ha m hm)
    · rw [update_of_ne hj] at ha
      rw [update_of_ne hk] at ha'
      exact h.apart j k a a' m ha ha' hm hm'

/-- The slot a poll finds belongs to no other timer. -/
theorem found {a : Alarm} {n : SlotId} (ha : c.alarm i = some a)
    (hn : a.timer.slot = some n ∨ ∀ slot, c.slots[n]? = some slot → slot.active = false)
    (j : Nat) (b : Alarm) (hj : j ≠ i) (hb : c.alarm j = some b) (m : SlotId)
    (hm : b.timer.slot = some m) : some n ≠ some m := by
  rintro ⟨⟩
  rcases hn with hn | hfree
  · exact hj (h.apart j i b a n hb ha hm hn)
  · obtain ⟨slot, hslot, hactive⟩ := (h.alarms j b hb).active hm
    rw [hfree slot hslot] at hactive
    cases hactive

theorem poll (i : Nat) (t : TaskId) : (c.poll i t).1.Owns := by
  unfold Clock.poll
  cases ha : c.alarm i with
  | none => exact h
  | some a =>
    obtain ⟨n, slots1, slot, hothers, hn, hslot, hactive, hdeadline, heq⟩ := (h.alarms i a ha).polled c.tick t
    simp only [heq]
    split
    · refine h.change (n := some n) (fun m hm => ?_) (h.found ha hn) ?_
      · have hm : m ≠ n := fun e => hm (e ▸ rfl)
        exact (unregisterTimer_other hm).trans (hothers m hm)
      · rintro _ ⟨⟩
        exact ⟨.idle _, nofun⟩
    · refine h.change (n := some n) (fun m hm => ?_) (h.found ha hn) ?_
      · have hm : m ≠ n := fun e => hm (e ▸ rfl)
        rw [← hothers m hm]
        simp [setTimerWaker, hm.symm]
      · rintro _ ⟨⟩
        have hset : (setTimerWaker slots1 n t)[n]? = some { slot with waker := some t } := by
          simp [setTimerWaker, hslot]
        exact ⟨.waits hset hactive hdeadline fun _ _ => rfl, fun m hm => hm⟩

theorem drop (i : Nat) : (c.exec (.drop i)).Owns := by
  simp only [Clock.exec]
  split
  · exact h
  next a ha =>
    refine h.change (n := a.timer.slot) ?_ ?_ (fun _ hb => nomatch hb)
    · intro m hm
      cases hs : a.timer.slot with
      | none => simp [Timer.dropped, hs]
      | some n =>
        simp only [Timer.dropped, hs, Option.elim_some]
        exact unregisterTimer_other fun e => hm (hs.trans (e ▸ rfl))
    · intro j b hj hb m hm hn
      exact hj (h.apart j i b a m hb ha hm hn)

theorem after (i delay : Nat) : (c.exec (.after i delay)).Owns := by
  simp only [Clock.exec]
  split
  · exact h
  · refine h.change (n := none) (fun _ _ => rfl) nofun ?_
    rintro _ ⟨⟩
    exact ⟨.idle delay, nofun⟩

theorem advance : c.advance.1.Owns := by
  constructor
  · intro i a ha
    obtain ⟨b, hb, rfl⟩ := Option.map_eq_some_iff.mp ha
    cases h.alarms i b hb with
    | idle delay => exact .idle delay
    | @waits n delay w slot hslot hactive hdeadline hwaker =>
      have hpolled : c.advance.1.slots[n]? =
          some (if slot.due (ticks (c.tick + 1)) then { slot with waker := none } else slot) := by
        simp [Clock.advance, pollTimers, hslot]
      refine .waits hpolled ?_ ?_ ?_
      · split <;> exact hactive
      · split <;> exact hdeadline
      · intro hreached hd
        simp only [Bool.or_eq_false_iff, decide_eq_false_iff_not] at hreached
        have hticks : ticks (w.since + delay) = w.since + delay := Nat.mod_eq_of_lt hd
        have hlate : slot.due (ticks (c.tick + 1)) = false := by
          simpa [TimerSlot.due, hactive, hdeadline, hticks] using hreached.2
        rw [hlate]
        exact hwaker hreached.1 hd
  · intro i j a b n ha hb hn hn'
    obtain ⟨a', ha', rfl⟩ := Option.map_eq_some_iff.mp ha
    obtain ⟨b', hb', rfl⟩ := Option.map_eq_some_iff.mp hb
    exact h.apart i j a' b' n ha' hb' hn hn'

theorem exec (e : Event) : (c.exec e).Owns := by
  cases e with
  | after i delay => exact h.after i delay
  | poll i t => exact h.poll i t
  | drop i => exact h.drop i
  | tick => exact h.advance

/-! ## 4. When a timer is complete -/

theorem poll_iff {a : Alarm} (ha : c.alarm i = some a) (t : TaskId) :
    (c.poll i t).2 = true ↔ ticks (a.start c.tick + a.timer.delay) ≤ c.tick := by
  obtain ⟨n, slots1, slot, -, -, -, -, -, heq⟩ := (h.alarms i a ha).polled c.tick t
  simp only [Clock.poll, ha, heq]
  split <;> simp_all

theorem woken {a : Alarm} {w : Wait} (ha : c.alarm i = some a) (hw : a.wait = some w)
    (hd : w.since + a.timer.delay < 2 ^ 64) (hreached : w.reached = false)
    (hdue : w.since + a.timer.delay ≤ c.advance.1.tick) : w.task ∈ c.advance.2 := by
  cases h.alarms i a ha with
  | idle => cases hw
  | @waits n delay w' slot hslot hactive hdeadline hwaker =>
    cases hw
    have hdue : w.since + delay ≤ ticks (c.tick + 1) := hdue
    simp only [Clock.advance, pollTimers, List.mem_filterMap, List.mem_filter]
    refine ⟨slot, ⟨List.mem_of_getElem? hslot, ?_⟩, hwaker hreached hd⟩
    have hticks : ticks (w.since + delay) = w.since + delay := Nat.mod_eq_of_lt hd
    simpa [TimerSlot.due, hactive, hdeadline, hticks] using hdue

end Clock.Owns

namespace Clock

theorem run_owns (es : List Event) : (run es).Owns := by
  have hnew : new.Owns := ⟨nofun, nofun⟩
  unfold run
  generalize new = c at hnew
  induction es generalizing c with
  | nil => exact hnew
  | cons e es ih => exact ih _ (hnew.exec e)

theorem exec_alarm (c : Clock) {e : Event} {j : Nat} (he : e.target = some j) (hj : i ≠ j) :
    (c.exec e).alarm i = c.alarm i ∧ (c.exec e).tick = c.tick := by
  cases e with
  | after k delay =>
    cases he
    simp only [exec]
    split <;> simp [hj]
  | poll k t =>
    cases he
    simp only [exec, poll]
    split <;> simp [hj]
  | drop k =>
    cases he
    simp only [exec]
    split <;> simp [hj]
  | tick => cases he

/-- **In every schedule** a timer first polled at a tick is complete exactly from that tick plus its
delay on, the first tick that gets there wakes the task that polled it last, and nothing that is
done with other timers changes either. -/
theorem expires_exact (es : List Event) (i : Nat) (a : Alarm) (ha : (run es).alarm i = some a)
    (hd : a.start (run es).tick + a.timer.delay < 2 ^ 64) :
    (∀ t, ((run es).poll i t).2 = true ↔ a.start (run es).tick + a.timer.delay ≤ (run es).tick) ∧
      (∀ w, a.wait = some w → w.reached = false →
        w.since + a.timer.delay ≤ (run es).advance.1.tick → w.task ∈ (run es).advance.2) ∧
      ∀ e j, e.target = some j → i ≠ j → (run (es ++ [e])).alarm i = some a ∧ (run (es ++ [e])).tick = (run es).tick ∧
          ∀ t, ((run (es ++ [e])).poll i t).2 = ((run es).poll i t).2 := by
  have h := run_owns es
  refine ⟨fun t => ?_, fun w hw hreached hdue => ?_, fun e j he hj => ?_⟩
  · rw [h.poll_iff ha, ticks, Nat.mod_eq_of_lt hd]
  · simp only [Alarm.start, hw, Option.elim_some] at hd
    exact h.woken ha hw hd hreached hdue
  · have happend : run (es ++ [e]) = (run es).exec e := List.foldl_concat ..
    obtain ⟨halarm, htick⟩ := (run es).exec_alarm he hj
    rw [happend]
    refine ⟨halarm.trans ha, htick, fun t => ?_⟩
    rw [Bool.eq_iff_iff, (h.exec e).poll_iff (halarm.trans ha), h.poll_iff ha, htick]

/-- Timer 0 waits for two ticks while timer 1 comes and goes. -/
def schedule : List Event := [.after 0 2, .after 1 0, .poll 0 7, .poll 1 8, .tick]

theorem expires_exact_schedule : ¬ ((run schedule).poll 0 7).2 = true ∧ 7 ∈ (run schedule).advance.2 ∧
      ((run (schedule ++ [.tick])).poll 0 7).2 = true := by
  have h := expires_exact schedule 0 ⟨⟨some 0, 2⟩, some ⟨0, 7, false⟩⟩ rfl (by decide)
  have h' := expires_exact (schedule ++ [.tick]) 0 ⟨⟨some 0, 2⟩, some ⟨0, 7, true⟩⟩ rfl (by decide)
  exact ⟨fun hp => absurd ((h.1 7).mp hp) (by decide), h.2.1 _ rfl rfl (by decide), (h'.1 7).mpr (by decide)⟩

end Clock

end BeetKernel.AsyncRt

/-
# FIFO histories

What it means for a history of insertions and removals to be that of a first-in first-out
queue, over any type of elements.  `Replay q h q'` says that a queue holding `q` can go
through the history `h` and end up holding `q'`: an insertion appends, a removal returns the
oldest element and returns nothing exactly when the queue is empty.

The two facts used elsewhere: what was removed is an initial segment of what was inserted
(`Replay.takes_prefix_puts`), and each removal returns the insertion whose number is the count
of removals before it (`Replay.take_eq`).
-/
import Mathlib.Data.List.Basic

namespace Fifo

/-- One observable step of a queue. -/
inductive Event (α : Type) where
  | put (a : α)
  | take (r : Option α)
deriving DecidableEq

variable {α : Type}

def Event.put? : Event α → Option α
  | .put a => some a
  | .take _ => none

def Event.take? : Event α → Option α
  | .put _ => none
  | .take r => r

/-- The elements inserted by a history, oldest first. -/
def puts (h : List (Event α)) : List α := h.filterMap Event.put?

/-- The elements removed by a history, oldest first. -/
def takes (h : List (Event α)) : List α := h.filterMap Event.take?

@[simp] theorem puts_nil : puts ([] : List (Event α)) = [] := rfl
@[simp] theorem puts_put (a : α) (h : List (Event α)) : puts (.put a :: h) = a :: puts h := rfl
@[simp] theorem puts_take (r : Option α) (h : List (Event α)) : puts (.take r :: h) = puts h := rfl
@[simp] theorem takes_nil : takes ([] : List (Event α)) = [] := rfl
@[simp] theorem takes_put (a : α) (h : List (Event α)) : takes (.put a :: h) = takes h := rfl
@[simp] theorem takes_take_some (a : α) (h : List (Event α)) : takes (.take (some a) :: h) = a :: takes h := rfl
@[simp] theorem takes_take_none (h : List (Event α)) : takes (.take none :: h) = takes h := rfl

/-- A first-in first-out queue holding the first list can go through the history and end up
holding the last list. -/
inductive Replay : List α → List (Event α) → List α → Prop
  | nil (q : List α) : Replay q [] q
  | put {q q' : List α} {a : α} {h : List (Event α)} :
      Replay (q ++ [a]) h q' → Replay q (.put a :: h) q'
  | takeSome {q q' : List α} {a : α} {h : List (Event α)} :
      Replay q h q' → Replay (a :: q) (.take (some a) :: h) q'
  | takeNone {q' : List α} {h : List (Event α)} :
      Replay [] h q' → Replay [] (.take none :: h) q'

namespace Replay

theorem append {q1 q2 q3 : List α} {h1 h2 : List (Event α)} (r1 : Replay q1 h1 q2)
    (r2 : Replay q2 h2 q3) : Replay q1 (h1 ++ h2) q3 := by
  induction r1 with
  | nil q => exact r2
  | put _ ih => exact .put (ih r2)
  | takeSome _ ih => exact .takeSome (ih r2)
  | takeNone _ ih => exact .takeNone (ih r2)

theorem split {q1 q3 : List α} : ∀ {h1 h2 : List (Event α)}, Replay q1 (h1 ++ h2) q3 →
    ∃ q2, Replay q1 h1 q2 ∧ Replay q2 h2 q3 := by
  intro h1
  induction h1 generalizing q1 with
  | nil => intro h2 r; exact ⟨q1, .nil _, r⟩
  | cons e h1 ih =>
    intro h2 r
    cases r with
    | put r =>
      obtain ⟨q2, a, b⟩ := ih r
      exact ⟨q2, .put a, b⟩
    | takeSome r =>
      obtain ⟨q2, a, b⟩ := ih r
      exact ⟨q2, .takeSome a, b⟩
    | takeNone r =>
      obtain ⟨q2, a, b⟩ := ih r
      exact ⟨q2, .takeNone a, b⟩

/-- **Nothing is lost, invented or reordered.**  The elements held before plus those inserted
are those removed plus those still held. -/
theorem conservation {q q' : List α} {h : List (Event α)} (r : Replay q h q') : q ++ puts h = takes h ++ q' := by
  induction r with
  | nil q => simp
  | put _ ih => simpa using ih
  | takeSome _ ih => simpa using ih
  | takeNone _ ih => simpa using ih

theorem takes_prefix_puts {q' : List α} {h : List (Event α)} (r : Replay [] h q') : takes h <+: puts h := by
  refine ⟨q', ?_⟩
  simpa using r.conservation.symm

/-- **A removal returns the oldest element not removed yet**, and nothing exactly when there
is none. -/
theorem take_eq {q' : List α} {h1 h2 : List (Event α)} {x : Option α}
    (r : Replay [] (h1 ++ .take x :: h2) q') : x = (puts h1)[(takes h1).length]? := by
  obtain ⟨q, r1, r2⟩ := r.split
  have hp : puts h1 = takes h1 ++ q := by simpa using r1.conservation
  rw [hp]
  cases r2 with
  | takeSome _ => simp
  | takeNone _ => simp

end Replay

end Fifo

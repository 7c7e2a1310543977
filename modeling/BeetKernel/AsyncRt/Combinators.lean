/-
# Joining futures

`join_all` polls each future that is pending once, and keeps what the others have returned.
`joins_complete` follows it over its polls, for every pattern of readiness: a future is given by what
its successive polls return.  `join` and `join3` do with their futures what `join_all` does.
-/
import Mathlib.Data.List.Basic

namespace BeetKernel.AsyncRt

variable {A B C T : Type}

/-- A future, as its owner sees it: what its polls return, and how many have been made. -/
structure Future (T : Type) where
  polls : Nat → Option T
  polled : Nat

/-- `MaybeDone` and `JoinAllSlot`.  The future is dropped when it is ready. -/
inductive Slot (T : Type) where
  | pending (f : Future T)
  | done (value : T)
  | taken

namespace Slot

/-- The future is polled if it is pending. -/
def poll : Slot T → Slot T
  | pending f =>
    match f.polls f.polled with
    | some value => done value
    | none => pending { f with polled := f.polled + 1 }
  | slot => slot

def isPending : Slot T → Bool
  | pending _ => true
  | _ => false

/-- `mem::replace(slot, Taken)`, of which only `Done` is expected. -/
def take : Slot T → Option T
  | done value => some value
  | _ => none

def map (f : A → T) : Slot A → Slot T
  | pending p => pending ⟨fun n => (p.polls n).map f, p.polled⟩
  | done value => done (f value)
  | taken => taken

end Slot

/-- `JoinAll::poll`: the outputs if it is ready, and the slots it leaves; `none` is `unreachable!`. -/
def JoinAll.poll (slots : List (Slot T)) : Option (Option (List T) × List (Slot T)) :=
  let slots := slots.map Slot.poll
  if slots.any Slot.isPending then some (none, slots)
  else (slots.mapM Slot.take).map fun values => (some values, slots.map fun _ => .taken)

/-- `Join::poll` -/
def Join.poll (a : Slot A) (b : Slot B) : Option (A × B) × Slot A × Slot B :=
  match a.poll, b.poll with
  | .done x, .done y => (some (x, y), .taken, .taken)
  | a, b => (none, a, b)

/-- `Join3::poll` -/
def Join3.poll (a : Slot A) (b : Slot B) (c : Slot C) : Option (A × B × C) × Slot A × Slot B × Slot C :=
  match a.poll, b.poll, c.poll with
  | .done x, .done y, .done z => (some (x, y, z), .taken, .taken, .taken)
  | a, b, c => (none, a, b, c)

/-- The slots of `join_all` after `n` polls, unless it has completed. -/
def JoinAll.after (fs : List (Nat → Option T)) : Nat → Option (List (Slot T))
  | 0 => some (fs.map fun f => .pending ⟨f, 0⟩)
  | n + 1 =>
    match (after fs n).bind JoinAll.poll with
    | some (none, slots) => some slots
    | _ => none

/-- What a future has returned in its first `n` polls. -/
def returned (n : Nat) (f : Nat → Option T) : Option T := (List.range n).findSome? f

/-- The slot of a future after `n` polls of `join_all`: as long as the future is not ready, it is polled
each time, once. -/
def Slot.after (n : Nat) (f : Nat → Option T) : Slot T :=
  match returned n f with
  | some value => .done value
  | none => .pending ⟨f, n⟩

theorem returned_succ (n : Nat) (f : Nat → Option T) : returned (n + 1) f = (returned n f).or (f n) := by
  simp [returned, List.range_succ, List.findSome?_append]

namespace Slot

theorem poll_after (n : Nat) (f : Nat → Option T) : (after n f).poll = after (n + 1) f := by
  unfold after
  rw [returned_succ]
  cases returned n f with
  | some value => rfl
  | none => cases hf : f n <;> simp [poll, hf]

theorem isPending_after (n : Nat) (f : Nat → Option T) : (after n f).isPending = (returned n f).isNone := by
  unfold after
  cases returned n f <;> rfl

theorem poll_map (f : A → T) (a : Slot A) : (a.map f).poll = a.poll.map f := by
  cases a with
  | pending p => cases hp : p.polls p.polled <;> simp [map, poll, hp]
  | _ => rfl

theorem poll_cases {a : Slot A} (ha : a ≠ taken) : (∃ x, a.poll = done x) ∨ ∃ p, a.poll = pending p := by
  cases a with
  | pending p => cases hp : p.polls p.polled <;> simp [poll, hp]
  | done value => simp [poll]
  | taken => exact absurd rfl ha

end Slot

theorem JoinAll.poll_after (fs : List (Nat → Option T)) (n : Nat) :
    JoinAll.poll (fs.map (Slot.after n)) = some (if ∃ f ∈ fs, returned (n + 1) f = none then
      (none, fs.map (Slot.after (n + 1))) else (some (fs.filterMap (returned (n + 1))), fs.map fun _ => .taken)) := by
  have hslots : (fs.map (Slot.after n)).map Slot.poll = fs.map (Slot.after (n + 1)) := by
    simp [Slot.poll_after]
  have hany : (fs.map (Slot.after (n + 1))).any Slot.isPending = true ↔ ∃ f ∈ fs, returned (n + 1) f = none := by
    simp [Slot.isPending_after]
  simp only [JoinAll.poll, hslots, hany]
  split_ifs with hleft
  · rfl
  · -- every slot is done, and gives what its future has returned
    have htake : (fs.map (Slot.after (n + 1))).mapM Slot.take = some (fs.filterMap (returned (n + 1))) := by
      clear hslots hany
      induction fs with
      | nil => rfl
      | cons f fs ih =>
        simp only [List.mem_cons, exists_eq_or_imp, not_or] at hleft
        obtain ⟨value, hvalue⟩ := Option.ne_none_iff_exists'.mp hleft.1
        simp [Slot.after, hvalue, Slot.take, ih hleft.2]
    rw [htake, Option.map_some, List.map_map]
    rfl

theorem JoinAll.after_eq (fs : List (Nat → Option T)) (n : Nat) : JoinAll.after fs n =
    if n = 0 ∨ ∃ f ∈ fs, returned n f = none then some (fs.map (Slot.after n)) else none := by
  induction n with
  | zero => simp [JoinAll.after, Slot.after, returned]
  | succ n ih =>
    rw [JoinAll.after, ih]
    by_cases hnow : n = 0 ∨ ∃ f ∈ fs, returned n f = none
    · rw [if_pos hnow, Option.bind_some, JoinAll.poll_after]
      by_cases hleft : ∃ f ∈ fs, returned (n + 1) f = none <;> simp [hleft]
    · rw [if_neg hnow, if_neg]
      · rfl
      · rintro (h | ⟨f, hf, hnone⟩)
        · cases h
        · rw [returned_succ, Option.or_eq_none_iff] at hnone
          exact hnow (.inr ⟨f, hf, hnone.1⟩)

/-- **`join_all` completes** at the first poll by which every future has been ready, with the outputs
in order.  Until they complete, `join` and `join3` are `join_all` on two and three futures. -/
theorem joins_complete (fs : List (Nat → Option T)) (n : Nat) :
    (JoinAll.after fs n = if n = 0 ∨ ∃ f ∈ fs, returned n f = none then some (fs.map (Slot.after n)) else none) ∧
    JoinAll.poll (fs.map (Slot.after n)) = some (if ∃ f ∈ fs, returned (n + 1) f = none then
      (none, fs.map (Slot.after (n + 1))) else (some (fs.filterMap (returned (n + 1))), fs.map fun _ => .taken)) ∧
    ∀ (f : A → T) (g : B → T) (h : C → T) (a : Slot A) (b : Slot B) (c : Slot C), a ≠ .taken → b ≠ .taken →
      (JoinAll.poll [a.map f, b.map g] = some ((Join.poll a b).1.map fun x => [f x.1, g x.2],
        [(Join.poll a b).2.1.map f, (Join.poll a b).2.2.map g]) ∧
        ((Join.poll a b).1 = none → (Join.poll a b).2.1 ≠ .taken ∧ (Join.poll a b).2.2 ≠ .taken)) ∧
      (c ≠ .taken → JoinAll.poll [a.map f, b.map g, c.map h] =
        some ((Join3.poll a b c).1.map fun x => [f x.1, g x.2.1, h x.2.2],
          [(Join3.poll a b c).2.1.map f, (Join3.poll a b c).2.2.1.map g, (Join3.poll a b c).2.2.2.map h]) ∧
        ((Join3.poll a b c).1 = none → (Join3.poll a b c).2.1 ≠ .taken ∧ (Join3.poll a b c).2.2.1 ≠ .taken ∧
          (Join3.poll a b c).2.2.2 ≠ .taken)) := by
  refine ⟨JoinAll.after_eq fs n, JoinAll.poll_after fs n, fun f g h a b c ha hb => ⟨?_, fun hc => ?_⟩⟩ <;>
    simp only [JoinAll.poll, List.map_cons, List.map_nil, Slot.poll_map] <;>
    rcases Slot.poll_cases ha with ⟨x, hx⟩ | ⟨x, hx⟩ <;> rcases Slot.poll_cases hb with ⟨y, hy⟩ | ⟨y, hy⟩
  iterate 4 simp [Join.poll, hx, hy, Slot.map, Slot.isPending, Slot.take]
  all_goals
    rcases Slot.poll_cases hc with ⟨z, hz⟩ | ⟨z, hz⟩ <;>
      simp [Join3.poll, hx, hy, hz, Slot.map, Slot.isPending, Slot.take]

end BeetKernel.AsyncRt

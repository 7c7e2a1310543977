/-
# Streams in a ring

A ring of `N` cells that a stream is written to, element `i` of the stream into cell `i % N`.
`Holds N ring l` says that the ring holds the last `N` elements of the stream `l`.  Writing
appends to the stream (`Holds.append`), and the elements from position `p` on, as long as they
have not been overwritten, are read off the cells in order (`Holds.read`).
-/
import Mathlib.Data.List.Basic
import Mathlib.Data.Nat.ModEq

namespace Ring

variable {α : Type} {N : Nat} {ring ring' : Nat → α} {l b : List α}

/-- The ring holds the last `N` elements of `l`. -/
def Holds (N : Nat) (ring : Nat → α) (l : List α) : Prop :=
  ∀ i (h : i < l.length), l.length ≤ i + N → ring (i % N) = l[i]

theorem Holds.nil (N : Nat) (ring : Nat → α) : Holds N ring [] := fun i h => absurd h (Nat.not_lt_zero i)

theorem mod_ne {i j : Nat} (hij : i < j) (hlt : j < i + N) : i % N ≠ j % N := by
  intro heq
  have hdvd : N ∣ j - i := (Nat.modEq_iff_dvd' hij.le).mp heq
  exact absurd (Nat.le_of_dvd (by omega) hdvd) (by omega)

/-- **Writing appends to the stream**: the cells after the last one written take the new elements,
and the other cells stay. -/
theorem Holds.append (h : Holds N ring l) (hnew : ∀ j (hj : j < b.length), ring' ((l.length + j) % N) = b[j])
    (hold : ∀ p, (∀ j < b.length, p ≠ (l.length + j) % N) → ring' p = ring p) :
    Holds N ring' (l ++ b) := by
  intro i hi hlast
  rw [List.length_append] at hi hlast
  by_cases hil : i < l.length
  · rw [List.getElem_append_left hil, hold, h i hil (by omega)]
    exact fun j hj => mod_ne (by omega) (by omega)
  · rw [List.getElem_append_right (by omega), ← hnew _ (by omega)]
    congr 2
    omega

/-- **Reading**: `k` elements from position `p` on, none of which has been overwritten. -/
theorem Holds.read (h : Holds N ring l) {p k : Nat} (hend : p + k ≤ l.length) (hlast : l.length ≤ p + N) :
    (List.range k).map (fun j => ring ((p + j) % N)) = (l.drop p).take k := by
  refine List.ext_getElem (by simp; omega) fun j hj hj' => ?_
  simp only [List.length_map, List.length_range] at hj
  rw [List.getElem_map, List.getElem_range, List.getElem_take, List.getElem_drop]
  exact h (p + j) (by omega) (by omega)

end Ring

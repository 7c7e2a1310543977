/-
# Labelled moves, and code that makes them

A system is given by its MOVES: a relation between states for every label.  `Moves step A` are
the states reachable by moves whose labels are all in `A`.  A computation over a larger state
that, seen through a view, only ever makes such moves inherits every invariant of them.
-/
import BeetKernel.Lib.Exec

variable {S L : Type}

/-- Sequences of moves whose labels are all in `A`. -/
def Moves (step : L → S → S → Prop) (A : L → Prop) : S → S → Prop :=
  Relation.ReflTransGen fun a b => ∃ l, A l ∧ step l a b

namespace Moves

variable {step : L → S → S → Prop} {A B : L → Prop} {a b c : S} {l : L}

theorem refl (a : S) : Moves step A a a := Relation.ReflTransGen.refl

theorem of_eq (h : a = b) : Moves step A a b := h ▸ refl a

theorem single (hl : A l) (h : step l a b) : Moves step A a b := Relation.ReflTransGen.single ⟨l, hl, h⟩

theorem trans (h : Moves step A a b) (h' : Moves step A b c) : Moves step A a c := Relation.ReflTransGen.trans h h'

theorem snoc (h : Moves step A a b) (hl : A l) (h' : step l b c) : Moves step A a c := h.trans (single hl h')

theorem mono (h : Moves step A a b) (hAB : ∀ l, A l → B l) : Moves step B a b :=
  Relation.ReflTransGen.mono (fun _ _ ⟨l, hl, hs⟩ => ⟨l, hAB l hl, hs⟩) _ _ h

theorem invariant {P : S → Prop} (hstep : ∀ l a b, A l → step l a b → P a → P b)
    (h : Moves step A a b) (ha : P a) : P b := by
  induction h with
  | refl => exact ha
  | tail _ hlast ih =>
    obtain ⟨l, hl, hs⟩ := hlast
    exact hstep l _ _ hl hs ih

theorem within {R : S → S → Prop} [IsPreorder S R] (hstep : ∀ l a b, A l → step l a b → R a b)
    (h : Moves step A a b) : R a b := by
  induction h with
  | refl => exact refl_of R a
  | tail _ hlast ih =>
    obtain ⟨l, hl, hs⟩ := hlast
    exact trans_of R ih (hstep l _ _ hl hs)

/-- The moves of a part of a larger state. -/
def via {σ : Type} (view : σ → S) (step : L → S → S → Prop) (A : L → Prop) (s s' : σ) : Prop :=
  Moves step A (view s) (view s')

instance {σ : Type} (view : σ → S) : IsPreorder σ (via view step A) where
  refl s := refl (view s)
  trans _ _ _ := trans

end Moves

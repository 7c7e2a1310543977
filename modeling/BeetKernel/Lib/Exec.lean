/-
# `Exec`: stateful code that returns, fails or panics

A shallow embedding of imperative code with `Result`-style errors.  A computation reads and
updates a state `σ`; it ends in a value, in an error of type `ε` (the state changes made so
far STAY, as they do when an early return leaves a function), or in a panic, after which
there is no state.

Nothing here is specific to one program: the state, the errors and the values are
parameters.
-/
import Mathlib.Logic.Relation
import Mathlib.Tactic.Common

/-- How a run of a computation ends. -/
inductive Outcome (σ ε α : Type) where
  | ok (a : α) (s : σ)
  | err (e : ε) (s : σ)
  | panic (msg : String)
deriving DecidableEq

/-- Whether the run returns a value and a state that pass a test. -/
def Outcome.any {σ ε α : Type} (p : α → σ → Bool) : Outcome σ ε α → Bool
  | ok a s => p a s
  | err _ _ | panic _ => false

theorem Outcome.any_eq_true {σ ε α : Type} {p : α → σ → Bool} {o : Outcome σ ε α} (h : o.any p = true) :
    ∃ a s, o = .ok a s ∧ p a s = true := by
  cases o with
  | ok a s => exact ⟨a, s, rfl, h⟩
  | err e s => cases h
  | panic msg => cases h

/-- A computation over the state `σ` with errors `ε` and values `α`. -/
def Exec (σ ε α : Type) : Type := σ → Outcome σ ε α

namespace Exec

variable {σ ε α β γ : Type}
variable {m n : Exec σ ε α} {f : α → Exec σ ε β} {s s' : σ} {a : α} {e : ε} {msg : String}
  {Q Q' : α → σ → Prop} {E E' : ε → σ → Prop} {l : List β} {F : String → Prop}

/-! ## 1. The operations -/

@[inline] protected def pure (a : α) : Exec σ ε α := fun s => .ok a s

@[inline] protected def bind (m : Exec σ ε α) (f : α → Exec σ ε β) : Exec σ ε β := fun s =>
  match m s with
  | .ok a s' => f a s'
  | .err e s' => .err e s'
  | .panic msg => .panic msg

instance : Monad (Exec σ ε) where
  pure := Exec.pure
  bind := Exec.bind

def get : Exec σ ε σ := fun s => .ok s s
def set (s : σ) : Exec σ ε Unit := fun _ => .ok () s
def modify (f : σ → σ) : Exec σ ε Unit := fun s => .ok () (f s)
def throw (e : ε) : Exec σ ε α := fun s => .err e s
def panic (msg : String) : Exec σ ε α := fun _ => .panic msg

/-- `assert!` -/
def assert (b : Bool) (msg : String) : Exec σ ε Unit := if b then pure () else panic msg

/-- `Option::ok_or` followed by `?`. -/
def okOr (e : ε) : Option α → Exec σ ε α
  | some a => pure a
  | none => throw e

/-- `Option::expect` and `Option::unwrap`. -/
def expect (msg : String) : Option α → Exec σ ε α
  | some a => pure a
  | none => panic msg

/-- Run `m` and hand its result to the caller as a value, so that an error is not
propagated. -/
def attempt (m : Exec σ ε α) : Exec σ ε (Except ε α) := fun s =>
  match m s with
  | .ok a s' => .ok (.ok a) s'
  | .err e s' => .ok (.error e) s'
  | .panic msg => .panic msg

/-- `Result::unwrap` and `Result::expect`: an error ends in a panic. -/
def unwrap (m : Exec σ ε α) (msg : String) : Exec σ ε α := fun s =>
  match m s with
  | .err _ _ => .panic msg
  | r => r

def mapErr (f : ε → ε) (m : Exec σ ε α) : Exec σ ε α := fun s =>
  match m s with
  | .err e s' => .err (f e) s'
  | r => r

/-- `Result::ok`: run `m` for its effect and drop what it returns. -/
def ignore (m : Exec σ ε α) : Exec σ ε Unit := fun s =>
  match m s with
  | .ok _ s' => .ok () s'
  | .err _ s' => .ok () s'
  | .panic msg => .panic msg

/-- `?` on a value that may be an error. -/
def ofExcept : Except ε α → Exec σ ε α
  | .ok a => pure a
  | .error e => throw e

/-- Run a computation over one part of a larger state. -/
def zoom {τ : Type} (part : σ → τ) (put : τ → σ → σ) (m : Exec τ ε α) : Exec σ ε α := fun s =>
  match m (part s) with
  | .ok a t => .ok a (put t s)
  | .err e t => .err e (put t s)
  | .panic msg => .panic msg

/-- A `for` loop over a list of values.  An error leaves the loop. -/
def each (f : β → Exec σ ε Unit) : List β → Exec σ ε Unit
  | [] => pure ()
  | b :: rest => do
    f b
    each f rest

/-! ## 2. What the operations do -/

@[simp] theorem pure_run (a : α) (s : σ) : (pure a : Exec σ ε α) s = .ok a s := rfl
@[simp] theorem get_run (s : σ) : (get : Exec σ ε σ) s = .ok s s := rfl
@[simp] theorem set_run (s s' : σ) : (set s' : Exec σ ε Unit) s = .ok () s' := rfl
@[simp] theorem modify_run (f : σ → σ) (s : σ) : (modify f : Exec σ ε Unit) s = .ok () (f s) := rfl
@[simp] theorem throw_run (e : ε) (s : σ) : (throw e : Exec σ ε α) s = .err e s := rfl
@[simp] theorem panic_run (msg : String) (s : σ) : (panic msg : Exec σ ε α) s = .panic msg := rfl
@[simp] theorem okOr_some (e : ε) (a : α) : (okOr e (some a) : Exec σ ε α) = pure a := rfl
@[simp] theorem okOr_none (e : ε) : (okOr e none : Exec σ ε α) = throw e := rfl
@[simp] theorem expect_some (msg : String) (a : α) : (expect msg (some a) : Exec σ ε α) = pure a := rfl
@[simp] theorem expect_none (msg : String) : (expect msg none : Exec σ ε α) = panic msg := rfl

theorem bind_run (m : Exec σ ε α) (f : α → Exec σ ε β) (s : σ) : (m >>= f) s = match m s with
      | .ok a s' => f a s'
      | .err e s' => .err e s'
      | .panic msg => .panic msg := rfl

theorem bind_assoc {γ : Type} (m : Exec σ ε α) (f : α → Exec σ ε β) (g : β → Exec σ ε γ) :
    ((m >>= f) >>= g) = m >>= fun a => f a >>= g := by
  funext s
  simp only [bind_run]
  cases m s <;> rfl

theorem bind_ok (h : m s = .ok a s') : (m >>= f) s = f a s' := by
  rw [bind_run, h]

theorem bind_err (h : m s = .err e s') : (m >>= f) s = .err e s' := by
  rw [bind_run, h]

theorem bind_eq_ok {b : β} : (m >>= f) s = .ok b s' ↔ ∃ a t, m s = .ok a t ∧ f a t = .ok b s' := by
  rw [bind_run]
  cases m s <;> simp

theorem attempt_eq_ok {r : Except ε α} :
    attempt m s = .ok r s' ↔ (∃ a, r = .ok a ∧ m s = .ok a s') ∨ (∃ e, r = .error e ∧ m s = .err e s') := by
  unfold attempt
  cases m s <;> simp <;> grind

theorem unwrap_eq_ok : unwrap m msg s = .ok a s' ↔ m s = .ok a s' := by
  unfold unwrap
  cases m s <;> simp

theorem assert_eq_ok {b : Bool} {u : Unit} : (assert b msg : Exec σ ε Unit) s = .ok u s' ↔ b = true ∧ s = s' := by
  unfold assert
  cases b <;> simp

theorem okOr_eq_ok {x : Option α} : (okOr e x : Exec σ ε α) s = .ok a s' ↔ x = some a ∧ s = s' := by
  cases x <;> simp

theorem expect_eq_ok {x : Option α} : (expect msg x : Exec σ ε α) s = .ok a s' ↔ x = some a ∧ s = s' := by
  cases x <;> simp

theorem ofExcept_eq_ok {x : Except ε α} : (ofExcept x : Exec σ ε α) s = .ok a s' ↔ x = .ok a ∧ s = s' := by
  cases x <;> simp [ofExcept]

@[simp] theorem pure_bind_run (a : α) (f : α → Exec σ ε β) (s : σ) : ((pure a : Exec σ ε α) >>= f) s = f a s := rfl
@[simp] theorem get_bind_run (f : σ → Exec σ ε β) (s : σ) : ((get : Exec σ ε σ) >>= f) s = f s s := rfl
@[simp] theorem set_bind_run (f : Unit → Exec σ ε β) (s s' : σ) : ((set s' : Exec σ ε Unit) >>= f) s = f () s' := rfl
@[simp] theorem modify_bind_run (g : σ → σ) (f : Unit → Exec σ ε β) (s : σ) :
    ((modify g : Exec σ ε Unit) >>= f) s = f () (g s) := rfl
@[simp] theorem throw_bind_run (e : ε) (f : α → Exec σ ε β) (s : σ) : ((throw e : Exec σ ε α) >>= f) s = .err e s := rfl
@[simp] theorem panic_bind_run (msg : String) (f : α → Exec σ ε β) (s : σ) :
    ((panic msg : Exec σ ε α) >>= f) s = .panic msg := rfl

theorem each_same {f : β → Exec σ ε Unit} : ∀ {l : List β}, (∀ b ∈ l, f b s = .ok () s) → each f l s = .ok () s
  | [], _ => rfl
  | b :: rest, h => by
    have hb := h b (by simp)
    rw [each, bind_ok hb]
    exact each_same fun b' hb' => h b' (by simp [hb'])

theorem each_append (f : β → Exec σ ε Unit) (l l' : List β) (s : σ) :
    each f (l ++ l') s = (each f l >>= fun _ => each f l') s := by
  induction l generalizing s with
  | nil => rfl
  | cons b rest ih =>
    simp only [List.cons_append, each, bind_run]
    cases f b s with
    | ok _ s' => exact ih s'
    | err => rfl
    | panic => rfl

/-! ## 3. Postconditions

`wp m Q E s` says what holds after a run of `m` from `s`: `Q` of the value and the state it
returns with, `E` of the error and the state it fails with.  A panic leaves no state, so
nothing is asked of it. -/

def wp (m : Exec σ ε α) (Q : α → σ → Prop) (E : ε → σ → Prop) (s : σ) : Prop :=
  match m s with
  | .ok a s' => Q a s'
  | .err e s' => E e s'
  | .panic _ => True

theorem wp_ok (h : wp m Q E s) (hm : m s = .ok a s') : Q a s' := by
  rw [wp, hm] at h
  exact h

theorem wp_err (h : wp m Q E s) (hm : m s = .err e s') : E e s' := by
  rw [wp, hm] at h
  exact h

theorem wp_mono (h : wp m Q E s) (hQ : ∀ a s', Q a s' → Q' a s') (hE : ∀ e s', E e s' → E' e s') : wp m Q' E' s := by
  unfold wp at h ⊢
  cases hm : m s with
  | ok a s' => exact hQ _ _ (by simpa only [hm] using h)
  | err e s' => exact hE _ _ (by simpa only [hm] using h)
  | panic msg => trivial

theorem wp_and (h : wp m Q E s) (h' : wp m Q' E' s) :
    wp m (fun a s' => Q a s' ∧ Q' a s') (fun e s' => E e s' ∧ E' e s') s := by
  unfold wp at h h' ⊢
  cases hm : m s <;> rw [hm] at h h' <;> first | exact ⟨h, h'⟩ | trivial

section Rules

variable {Q : α → σ → Prop} {E : ε → σ → Prop} {s : σ}

@[simp] theorem wp_pure (a : α) : wp (pure a) Q E s ↔ Q a s := Iff.rfl
@[simp] theorem wp_get {Q : σ → σ → Prop} : wp get Q E s ↔ Q s s := Iff.rfl
@[simp] theorem wp_set {Q : Unit → σ → Prop} (s' : σ) : wp (set s') Q E s ↔ Q () s' := Iff.rfl
@[simp] theorem wp_modify {Q : Unit → σ → Prop} (f : σ → σ) : wp (modify f) Q E s ↔ Q () (f s) := Iff.rfl
@[simp] theorem wp_throw (e : ε) : wp (throw e) Q E s ↔ E e s := Iff.rfl
@[simp] theorem wp_panic (msg : String) : wp (panic msg) Q E s ↔ True := Iff.rfl

@[simp] theorem wp_bind {Q : β → σ → Prop} (m : Exec σ ε α) (f : α → Exec σ ε β) :
    wp (m >>= f) Q E s ↔ wp m (fun a s' => wp (f a) Q E s') E s := by
  unfold wp
  rw [bind_run]
  cases m s <;> exact Iff.rfl

theorem wp_seq {P : α → σ → Prop} {Q : β → σ → Prop}
    (h : wp m P E' s) (hf : ∀ a s', P a s' → wp (f a) Q E s') (hE : ∀ e s', E' e s' → E e s') :
    wp (m >>= f) Q E s :=
  (wp_bind m f).mpr (wp_mono h hf hE)

@[simp] theorem wp_assert {Q : Unit → σ → Prop} (b : Bool) (msg : String) :
    wp (assert b msg) Q E s ↔ (b = true → Q () s) := by
  unfold assert
  cases b <;> simp

@[simp] theorem wp_okOr (e : ε) (x : Option α) :
    wp (okOr e x) Q E s ↔ (∀ a, x = some a → Q a s) ∧ (x = none → E e s) := by
  cases x <;> simp

@[simp] theorem wp_expect (msg : String) (x : Option α) : wp (expect msg x) Q E s ↔ ∀ a, x = some a → Q a s := by
  cases x <;> simp

@[simp] theorem wp_ofExcept (x : Except ε α) :
    wp (ofExcept x) Q E s ↔ (∀ a, x = .ok a → Q a s) ∧ (∀ e, x = .error e → E e s) := by
  cases x <;> simp [ofExcept]

@[simp] theorem wp_attempt {Q : Except ε α → σ → Prop} (m : Exec σ ε α) :
    wp (attempt m) Q E s ↔ wp m (fun a => Q (.ok a)) (fun e => Q (.error e)) s := by
  unfold wp attempt
  cases m s <;> exact Iff.rfl

@[simp] theorem wp_ignore {Q : Unit → σ → Prop} (m : Exec σ ε α) :
    wp (ignore m) Q E s ↔ wp m (fun _ => Q ()) (fun _ => Q ()) s := by
  unfold wp ignore
  cases m s <;> exact Iff.rfl

@[simp] theorem wp_unwrap (m : Exec σ ε α) (msg : String) : wp (unwrap m msg) Q E s ↔ wp m Q (fun _ _ => True) s := by
  unfold wp unwrap
  cases m s <;> exact Iff.rfl

@[simp] theorem wp_mapErr (f : ε → ε) (m : Exec σ ε α) : wp (mapErr f m) Q E s ↔ wp m Q (fun e => E (f e)) s := by
  unfold wp mapErr
  cases m s <;> exact Iff.rfl

@[simp] theorem wp_zoom {τ : Type} (part : σ → τ) (put : τ → σ → σ) (m : Exec τ ε α) : wp (zoom part put m) Q E s ↔
      wp m (fun a t => Q a (put t s)) (fun e t => E e (put t s)) (part s) := by
  unfold wp zoom
  cases m (part s) <;> exact Iff.rfl

theorem wp_each {I : σ → Prop} {f : β → Exec σ ε Unit}
    (h : ∀ b ∈ l, ∀ s, I s → wp (f b) (fun _ s' => I s') E s) (hs : I s) :
    wp (each f l) (fun _ s' => I s') E s := by
  induction l generalizing s with
  | nil => exact hs
  | cons b rest ih =>
    unfold each
    rw [wp_bind]
    exact wp_mono (h b List.mem_cons_self s hs)
      (fun _ s' hs' => ih (fun c hc => h c (List.mem_cons_of_mem _ hc)) hs') fun _ _ h => h

end Rules

/-! ## 4. Moving along a preorder

`Along R m`: whatever `m` does, it ends in a state that `R` relates to the one it started
from.  For a reflexive and transitive `R` the code's own structure composes the proofs. -/

def Along (R : σ → σ → Prop) (m : Exec σ ε α) : Prop := ∀ s, wp m (fun _ s' => R s s') (fun _ s' => R s s') s

namespace Along

variable {R : σ → σ → Prop}

theorem panic (msg : String) : Along R (Exec.panic msg : Exec σ ε α) := fun _ => trivial

theorem modify {f : σ → σ} (h : ∀ s, R s (f s)) : Along R (Exec.modify f : Exec σ ε Unit) := h

/-- A computation that starts by reading the state may use what it read. -/
theorem get_bind {f : σ → Exec σ ε β}
    (h : ∀ s, wp (f s) (fun _ s' => R s s') (fun _ s' => R s s') s) : Along R (Exec.get >>= f) :=
  fun s => (wp_bind _ _).mpr (h s)

theorem attempt (hm : Along R m) : Along R (Exec.attempt m) := fun s =>
  (wp_attempt m).mpr (hm s)

theorem ignore (hm : Along R m) : Along R (Exec.ignore m) := fun s =>
  (wp_ignore m).mpr (hm s)

theorem unwrap (hm : Along R m) (msg : String) : Along R (Exec.unwrap m msg) :=
  fun s => (wp_unwrap m msg).mpr (wp_mono (hm s) (fun _ _ h => h) (fun _ _ _ => trivial))

theorem mapErr (hm : Along R m) (f : ε → ε) : Along R (Exec.mapErr f m) := fun s => (wp_mapErr f m).mpr (hm s)

theorem ite {c : Prop} [Decidable c] (hm : c → Along R m) (hn : ¬ c → Along R n) : Along R (if c then m else n) := by
  split
  · exact hm ‹_›
  · exact hn ‹_›

variable [IsPreorder σ R]

theorem pure (a : α) : Along R (Pure.pure a : Exec σ ε α) := fun s => refl_of R s
theorem get : Along R (Exec.get : Exec σ ε σ) := fun s => refl_of R s
theorem throw (e : ε) : Along R (Exec.throw e : Exec σ ε α) := fun s => refl_of R s

theorem assert (b : Bool) (msg : String) : Along R (Exec.assert b msg : Exec σ ε Unit) := by
  intro s
  simp [refl_of R]

theorem okOr (e : ε) (x : Option α) : Along R (Exec.okOr e x : Exec σ ε α) := by
  intro s
  simp [refl_of R]

theorem expect (msg : String) (x : Option α) : Along R (Exec.expect msg x : Exec σ ε α) := by
  intro s
  simp [refl_of R]

theorem ofExcept (x : Except ε α) : Along R (Exec.ofExcept x : Exec σ ε α) := by
  intro s
  simp [refl_of R]

/-- What a later part of the code does, it does after what came before. -/
theorem after (hs : R s s') (hm : Along R m) : wp m (fun _ t => R s t) (fun _ t => R s t) s' :=
  wp_mono (hm s') (fun _ _ h => trans_of R hs h) (fun _ _ h => trans_of R hs h)

theorem bind (hm : Along R m) (hf : ∀ a, Along R (f a)) : Along R (m >>= f) := by
  intro s
  rw [wp_bind]
  exact wp_mono (hm s) (fun a _ h => after h (hf a)) (fun _ _ h => h)

theorem map {g : α → β} (hm : Along R m) : Along R (m >>= fun a => Pure.pure (g a)) := hm.bind fun _ => pure _

/-- The state is read, and the rest holds for whatever was read. -/
theorem read {f : σ → Exec σ ε β} (hf : ∀ s, Along R (f s)) : Along R (Exec.get >>= f) := get.bind hf

theorem guard {c : Prop} [Decidable c] (hn : ¬ c → Along R n) : Along R (if c then Exec.throw e else n) :=
  .ite (fun _ => .throw _) hn

theorem each {f : β → Exec σ ε Unit} (h : ∀ b ∈ l, Along R (f b)) : Along R (Exec.each f l) := by
  induction l with
  | nil => exact pure ()
  | cons b rest ih =>
    exact bind (h b (by simp)) fun _ => ih fun b' hb' => h b' (by simp [hb'])

end Along

/-! ## 5. Panics

`post` is `wp` with a postcondition for panics too.  `Follows R B m` is `Along R m` together
with a reason `B` for each panic: before it, `m` had got along `R` to a state in which `B`
holds of the message. -/

def post (m : Exec σ ε α) (Q : α → σ → Prop) (E : ε → σ → Prop) (F : String → Prop) (s : σ) : Prop :=
  match m s with
  | .ok a s' => Q a s'
  | .err e s' => E e s'
  | .panic msg => F msg

theorem post_ok (h : post m Q E F s) (hm : m s = .ok a s') : Q a s' := by
  rw [post, hm] at h
  exact h

theorem post_of_ok (hm : m s = .ok a s') (h : Q a s') : post m Q E F s := by
  unfold post
  rw [hm]
  exact h

theorem post_err (h : post m Q E F s) (hm : m s = .err e s') : E e s' := by
  rw [post, hm] at h
  exact h

theorem post_panic (h : post m Q E F s) (hm : m s = .panic msg) : F msg := by
  rw [post, hm] at h
  exact h

theorem post_mono {F' : String → Prop} (h : post m Q E F s) (hQ : ∀ a s', Q a s' → Q' a s')
    (hE : ∀ e s', E e s' → E' e s') (hF : ∀ msg, F msg → F' msg) : post m Q' E' F' s := by
  unfold post at h ⊢
  cases hm : m s with
  | ok a s' => exact hQ _ _ (by simpa only [hm] using h)
  | err e s' => exact hE _ _ (by simpa only [hm] using h)
  | panic msg => exact hF _ (by simpa only [hm] using h)

theorem post_self (m : Exec σ ε α) (s : σ) :
    post m (fun a s' => m s = .ok a s') (fun e s' => m s = .err e s') (fun msg => m s = .panic msg)
      s := by
  unfold post
  split <;> assumption

theorem post_and {F' : String → Prop} (h : post m Q E F s) (h' : post m Q' E' F' s) :
    post m (fun a s' => Q a s' ∧ Q' a s') (fun e s' => E e s' ∧ E' e s') (fun msg => F msg ∧ F' msg) s := by
  unfold post at h h' ⊢
  cases hm : m s <;> rw [hm] at h h' <;> exact ⟨h, h'⟩

theorem wp_of_post (h : post m Q E F s) : wp m Q E s := by
  unfold post at h
  unfold wp
  split at h <;> trivial

theorem post_of_wp (h : wp m Q E s) : post m Q E (fun _ => True) s := by
  unfold wp at h
  unfold post
  cases hm : m s <;> rw [hm] at h <;> exact h

theorem post_of_wp_imp {P : Prop} (h : P → wp m Q E s) :
    post m (fun a s' => P → Q a s') (fun e s' => P → E e s') (fun _ => True) s := by
  unfold post
  cases hm : m s with
  | ok a s' => exact fun hP => wp_ok (h hP) hm
  | err e s' => exact fun hP => wp_err (h hP) hm
  | panic msg => trivial

section PostRules

variable {Q : α → σ → Prop} {E : ε → σ → Prop} {F : String → Prop} {s : σ}

@[simp] theorem post_pure (a : α) : post (pure a) Q E F s ↔ Q a s := Iff.rfl
@[simp] theorem post_get {Q : σ → σ → Prop} : post get Q E F s ↔ Q s s := Iff.rfl
@[simp] theorem post_set {Q : Unit → σ → Prop} (s' : σ) : post (set s') Q E F s ↔ Q () s' := Iff.rfl
@[simp] theorem post_modify {Q : Unit → σ → Prop} (f : σ → σ) : post (modify f) Q E F s ↔ Q () (f s) := Iff.rfl
@[simp] theorem post_throw (e : ε) : post (throw e) Q E F s ↔ E e s := Iff.rfl
@[simp] theorem post_panic_iff (msg : String) : post (panic msg) Q E F s ↔ F msg := Iff.rfl

@[simp] theorem post_bind {Q : β → σ → Prop} (m : Exec σ ε α) (f : α → Exec σ ε β) :
    post (m >>= f) Q E F s ↔ post m (fun a s' => post (f a) Q E F s') E F s := by
  unfold post
  rw [bind_run]
  cases m s <;> exact Iff.rfl

theorem post_seq {P : α → σ → Prop} {F' : String → Prop} {Q : β → σ → Prop}
    (h : post m P E' F' s) (hf : ∀ a s', P a s' → post (f a) Q E F s')
    (hE : ∀ e s', E' e s' → E e s') (hF : ∀ msg, F' msg → F msg) : post (m >>= f) Q E F s :=
  (post_bind m f).mpr (post_mono h hf hE hF)

@[simp] theorem post_assert {Q : Unit → σ → Prop} (b : Bool) (msg : String) :
    post (assert b msg) Q E F s ↔ (b = true → Q () s) ∧ (b = false → F msg) := by
  unfold assert
  cases b <;> simp

@[simp] theorem post_okOr (e : ε) (x : Option α) :
    post (okOr e x) Q E F s ↔ (∀ a, x = some a → Q a s) ∧ (x = none → E e s) := by
  cases x <;> simp

@[simp] theorem post_expect (msg : String) (x : Option α) :
    post (expect msg x) Q E F s ↔ (∀ a, x = some a → Q a s) ∧ (x = none → F msg) := by
  cases x <;> simp

@[simp] theorem post_ofExcept (x : Except ε α) :
    post (ofExcept x) Q E F s ↔ (∀ a, x = .ok a → Q a s) ∧ (∀ e, x = .error e → E e s) := by
  cases x <;> simp [ofExcept]

@[simp] theorem post_attempt {Q : Except ε α → σ → Prop} (m : Exec σ ε α) :
    post (attempt m) Q E F s ↔ post m (fun a => Q (.ok a)) (fun e => Q (.error e)) F s := by
  unfold post attempt
  cases m s <;> exact Iff.rfl

@[simp] theorem post_ignore {Q : Unit → σ → Prop} (m : Exec σ ε α) :
    post (ignore m) Q E F s ↔ post m (fun _ => Q ()) (fun _ => Q ()) F s := by
  unfold post ignore
  cases m s <;> exact Iff.rfl

@[simp] theorem post_unwrap (m : Exec σ ε α) (msg : String) :
    post (unwrap m msg) Q E F s ↔ post m Q (fun _ _ => F msg) F s := by
  unfold post unwrap
  cases m s <;> exact Iff.rfl

@[simp] theorem post_mapErr (f : ε → ε) (m : Exec σ ε α) :
    post (mapErr f m) Q E F s ↔ post m Q (fun e => E (f e)) F s := by
  unfold post mapErr
  cases m s <;> exact Iff.rfl

@[simp] theorem post_zoom {τ : Type} (part : σ → τ) (put : τ → σ → σ) (m : Exec τ ε α) :
    post (zoom part put m) Q E F s ↔ post m (fun a t => Q a (put t s)) (fun e t => E e (put t s)) F (part s) := by
  unfold post zoom
  cases m (part s) <;> exact Iff.rfl

theorem post_each {I : σ → Prop} {f : β → Exec σ ε Unit}
    (h : ∀ b ∈ l, ∀ s, I s → post (f b) (fun _ s' => I s') E F s) (hs : I s) :
    post (each f l) (fun _ s' => I s') E F s := by
  induction l generalizing s with
  | nil => exact hs
  | cons b rest ih =>
    unfold each
    rw [post_bind]
    exact post_mono (h b List.mem_cons_self s hs)
      (fun _ s' hs' => ih (fun c hc => h c (List.mem_cons_of_mem _ hc)) hs') (fun _ _ h => h)
      fun _ h => h

/-- What one turn of a loop achieves and the others keep holds for all of them at the end. -/
theorem post_each_all {I : σ → Prop} {J : β → σ → Prop} {f : β → Exec σ ε Unit}
    (h : ∀ b ∈ l, ∀ s, I s → post (f b) (fun _ s' => I s' ∧ J b s') E F s)
    (hkeep : ∀ b, ∀ c ∈ l, ∀ s, I s → J b s → wp (f c) (fun _ s' => J b s') (fun _ _ => True) s)
    (hs : I s) : post (each f l) (fun _ s' => I s' ∧ ∀ b ∈ l, J b s') E F s := by
  -- `done` are the turns before
  suffices hgen : ∀ (done : List β) (s : σ), I s → (∀ b ∈ done, J b s) →
      post (each f l) (fun _ s' => I s' ∧ ∀ b ∈ done ++ l, J b s') E F s by
    simpa using hgen [] s hs (by simp)
  clear hs
  induction l with
  | nil => exact fun done s hs hd => ⟨hs, by simpa using hd⟩
  | cons b rest ih =>
    intro done s hs hd
    have hkept : ∀ c ∈ done, wp (f b) (fun _ s' => J c s') (fun _ _ => True) s := fun c hc =>
      hkeep c b List.mem_cons_self s hs (hd c hc)
    unfold each
    rw [post_bind]
    refine post_mono (post_and (h b List.mem_cons_self s hs) (post_self (f b) s)) ?_ (fun _ _ h => h.1) fun _ h => h.1
    rintro _ s' ⟨⟨hI, hJ⟩, hrun⟩
    have hdone : ∀ c ∈ done ++ [b], J c s' := by
      intro c hc
      rcases List.mem_append.mp hc with hc | hc
      · have hkept := hkept c hc
        rw [wp, hrun] at hkept
        exact hkept
      · exact List.mem_singleton.mp hc ▸ hJ
    have hrest := ih (fun c hc => h c (List.mem_cons_of_mem _ hc))
      (fun c d hd => hkeep c d (List.mem_cons_of_mem _ hd)) (done ++ [b]) s' hI hdone
    rwa [List.append_assoc] at hrest

end PostRules

def Follows (R : σ → σ → Prop) (B : String → σ → Prop) (m : Exec σ ε α) : Prop :=
  ∀ s, post m (fun _ s' => R s s') (fun _ s' => R s s') (fun msg => ∃ s', R s s' ∧ B msg s') s

namespace Follows

variable {R : σ → σ → Prop} {B : String → σ → Prop}

theorem mono {R' : σ → σ → Prop} (hm : Follows R B m) (h : ∀ s s', R s s' → R' s s') : Follows R' B m := fun s =>
  post_mono (hm s) (fun _ _ => h _ _) (fun _ _ => h _ _) fun _ hp =>
    hp.imp fun _ hs => ⟨h _ _ hs.1, hs.2⟩

theorem blame {B' : String → σ → Prop} (hm : Follows R B m)
    (h : ∀ msg s, B msg s → B' msg s) : Follows R B' m := fun s =>
  post_mono (hm s) (fun _ _ h => h) (fun _ _ h => h) fun msg hp => hp.imp fun s' hs =>
    ⟨hs.1, h msg s' hs.2⟩

theorem modify {f : σ → σ} (h : ∀ s, R s (f s)) : Follows R B (Exec.modify f : Exec σ ε Unit) := h

/-- A computation that starts by reading the state may use what it read. -/
theorem get_bind {f : σ → Exec σ ε β} (h : ∀ s, post (f s) (fun _ s' => R s s') (fun _ s' => R s s')
      (fun msg => ∃ s', R s s' ∧ B msg s') s) : Follows R B (Exec.get >>= f) :=
  fun s => (post_bind _ _).mpr (h s)

theorem attempt (hm : Follows R B m) : Follows R B (Exec.attempt m) := fun s => (post_attempt m).mpr (hm s)

theorem ignore (hm : Follows R B m) : Follows R B (Exec.ignore m) := fun s => (post_ignore m).mpr (hm s)

theorem mapErr (hm : Follows R B m) (f : ε → ε) : Follows R B (Exec.mapErr f m) := fun s => (post_mapErr f m).mpr (hm s)

theorem unwrap (hm : Follows R B m) (h : ∀ s, B msg s) : Follows R B (Exec.unwrap m msg) := fun s =>
  (post_unwrap m msg).mpr (post_mono (hm s) (fun _ _ h => h) (fun _ s' hs => ⟨s', hs, h s'⟩) fun _ h => h)

theorem ite {c : Prop} [Decidable c] (hm : c → Follows R B m)
    (hn : ¬ c → Follows R B n) : Follows R B (if c then m else n) := by
  split
  · exact hm ‹_›
  · exact hn ‹_›

variable [IsPreorder σ R]

theorem pure (a : α) : Follows R B (Pure.pure a : Exec σ ε α) := fun s => refl_of R s
theorem get : Follows R B (Exec.get : Exec σ ε σ) := fun s => refl_of R s
theorem throw (e : ε) : Follows R B (Exec.throw e : Exec σ ε α) := fun s => refl_of R s

theorem panic (h : ∀ s, B msg s) : Follows R B (Exec.panic msg : Exec σ ε α) :=
  fun s => (post_panic_iff msg).mpr ⟨s, refl_of R s, h s⟩

theorem assert (b : Bool) (h : ∀ s, B msg s) : Follows R B (Exec.assert b msg : Exec σ ε Unit) := by
  intro s
  rw [post_assert]
  exact ⟨fun _ => refl_of R s, fun _ => ⟨s, refl_of R s, h s⟩⟩

theorem okOr (e : ε) (x : Option α) : Follows R B (Exec.okOr e x : Exec σ ε α) := by
  intro s
  simp [refl_of R]

theorem ofExcept (x : Except ε α) : Follows R B (Exec.ofExcept x : Exec σ ε α) := by
  intro s
  simp [refl_of R]

/-- What a later part of the code does, it does after what came before. -/
theorem after (hs : R s s') (hm : Follows R B m) :
    post m (fun _ t => R s t) (fun _ t => R s t) (fun msg => ∃ t, R s t ∧ B msg t) s' :=
  post_mono (hm s') (fun _ _ h => trans_of R hs h) (fun _ _ h => trans_of R hs h)
    fun _ hp => hp.imp fun _ h => ⟨trans_of R hs h.1, h.2⟩

/-- The rest of the code may use how far the first part got. -/
theorem after_bind (hs : R s s') (hm : Follows R B m)
    (hf : ∀ a t, R s t → post (f a) (fun _ t => R s t) (fun _ t => R s t) (fun msg => ∃ t, R s t ∧ B msg t) t) :
    post (m >>= f) (fun _ t => R s t) (fun _ t => R s t) (fun msg => ∃ t, R s t ∧ B msg t) s' := by
  rw [post_bind]
  exact post_mono (after hs hm) (fun a t h => hf a t h) (fun _ _ h => h) fun _ h => h

theorem bind (hm : Follows R B m) (hf : ∀ a, Follows R B (f a)) : Follows R B (m >>= f) := fun s =>
  after_bind (refl_of R s) hm fun a _ h => after h (hf a)

theorem map {g : α → β} (hm : Follows R B m) : Follows R B (m >>= fun a => Pure.pure (g a)) := hm.bind fun _ => pure _

theorem each {f : β → Exec σ ε Unit} (h : ∀ b ∈ l, Follows R B (f b)) : Follows R B (Exec.each f l) := by
  induction l with
  | nil => exact pure ()
  | cons b rest ih =>
    exact bind (h b (by simp)) fun _ => ih fun b' hb' => h b' (by simp [hb'])

end Follows

/-! ## 6. No errors

`Sure m`: from any state `m` returns or panics. -/

def Sure (m : Exec σ ε α) : Prop := ∀ s, wp m (fun _ _ => True) (fun _ _ => False) s

namespace Sure

theorem pure (a : α) : Sure (Pure.pure a : Exec σ ε α) := fun _ => trivial

theorem get : Sure (Exec.get : Exec σ ε σ) := fun _ => trivial

theorem modify (f : σ → σ) : Sure (Exec.modify f : Exec σ ε Unit) := fun _ => trivial

theorem assert (b : Bool) (msg : String) : Sure (Exec.assert b msg : Exec σ ε Unit) := fun _ =>
  (wp_assert b msg).mpr fun _ => trivial

theorem unwrap (m : Exec σ ε α) (msg : String) : Sure (Exec.unwrap m msg) := fun s => by
  rw [wp_unwrap]
  unfold wp
  split <;> trivial

theorem ignore (m : Exec σ ε α) : Sure (Exec.ignore m) := fun s => by
  rw [wp_ignore]
  unfold wp
  split <;> trivial

theorem ite {c : Prop} [Decidable c] (hm : Sure m) (hn : Sure n) : Sure (if c then m else n) := by
  split
  · exact hm
  · exact hn

theorem bind (hm : Sure m) (hf : ∀ a, Sure (f a)) : Sure (m >>= f) := fun s => by
  rw [wp_bind]
  exact wp_mono (hm s) (fun a s' _ => hf a s') fun _ _ h => h

theorem zoom {τ : Type} {part : σ → τ} {put : τ → σ → σ} {m : Exec τ ε α} (hm : Sure m) :
    Sure (Exec.zoom part put m) := fun s => (wp_zoom part put m).mpr (hm (part s))

theorem each {f : β → Exec σ ε Unit} (h : ∀ b ∈ l, Sure (f b)) : Sure (Exec.each f l) := by
  induction l with
  | nil => exact pure ()
  | cons b rest ih =>
    exact (h b List.mem_cons_self).bind fun _ => ih fun c hc => h c (List.mem_cons_of_mem _ hc)

theorem post (hm : Sure m) (h : Exec.post m Q E F s) : Exec.post m Q E' F s :=
  post_mono (post_and h (post_of_wp (hm s))) (fun _ _ h => h.1) (fun _ _ h => h.2.elim) fun _ h => h.1

end Sure

/-! ## 7. Which errors and which panics

`EndsIn E S m`: an error of `m` is in `E`, and the message of a panic in `S`. -/

def EndsIn (E : ε → Prop) (S : String → Prop) (m : Exec σ ε α) : Prop :=
  ∀ s, post m (fun _ _ => True) (fun e _ => E e) S s

namespace EndsIn

variable {E : ε → Prop} {S : String → Prop}

theorem any (m : Exec σ ε α) : EndsIn (fun _ => True) (fun _ => True) m := fun s => by
  unfold post
  cases m s <;> trivial

theorem pure (a : α) : EndsIn E S (Pure.pure a : Exec σ ε α) := fun _ => trivial

theorem get : EndsIn E S (Exec.get : Exec σ ε σ) := fun _ => trivial

theorem set (s : σ) : EndsIn E S (Exec.set s : Exec σ ε Unit) := fun _ => trivial

theorem modify (f : σ → σ) : EndsIn E S (Exec.modify f : Exec σ ε Unit) := fun _ => trivial

theorem throw (h : E e) : EndsIn E S (Exec.throw e : Exec σ ε α) := fun _ => h

theorem okOr (h : E e) (x : Option α) : EndsIn E S (Exec.okOr e x : Exec σ ε α) := fun _ =>
  (post_okOr e x).mpr ⟨fun _ _ => trivial, fun _ => h⟩

theorem assert (h : S msg) (b : Bool) : EndsIn E S (Exec.assert b msg : Exec σ ε Unit) :=
  fun _ => (post_assert b msg).mpr ⟨fun _ => trivial, fun _ => h⟩

theorem expect (h : S msg) (x : Option α) : EndsIn E S (Exec.expect msg x : Exec σ ε α) := fun _ =>
  (post_expect msg x).mpr ⟨fun _ _ => trivial, fun _ => h⟩

theorem ofExcept {x : Except ε α} (h : ∀ e, x = .error e → E e) : EndsIn E S (Exec.ofExcept x : Exec σ ε α) := fun _ =>
  (post_ofExcept x).mpr ⟨fun _ _ => trivial, h⟩

theorem ite {c : Prop} [Decidable c] (hm : EndsIn E S m) (hn : EndsIn E S n) : EndsIn E S (if c then m else n) := by
  split
  · exact hm
  · exact hn

theorem bind (hm : EndsIn E S m) (hf : ∀ a, EndsIn E S (f a)) : EndsIn E S (m >>= f) := fun s => by
  rw [post_bind]
  exact post_mono (hm s) (fun a s' _ => hf a s') (fun _ _ h => h) fun _ h => h

theorem unwrap (hm : EndsIn (fun _ => True) S m) (h : S msg) : EndsIn E S (Exec.unwrap m msg) := fun s =>
  (post_unwrap m msg).mpr (post_mono (hm s) (fun _ _ h => h) (fun _ _ _ => h) fun _ h => h)

theorem ignore (hm : EndsIn (fun _ => True) S m) : EndsIn E S (Exec.ignore m) :=
  fun s => (post_ignore m).mpr (post_mono (hm s) (fun _ _ h => h) (fun _ _ h => h) fun _ h => h)

theorem zoom {τ : Type} {part : σ → τ} {put : τ → σ → σ} {m : Exec τ ε α} (hm : EndsIn E S m) :
    EndsIn E S (Exec.zoom part put m) := fun s => (post_zoom part put m).mpr (hm (part s))

theorem each {f : β → Exec σ ε Unit} (h : ∀ b ∈ l, EndsIn E S (f b)) : EndsIn E S (Exec.each f l) := by
  induction l with
  | nil => exact pure ()
  | cons b rest ih =>
    exact (h b List.mem_cons_self).bind fun _ => ih fun c hc => h c (List.mem_cons_of_mem _ hc)

end EndsIn

/-! ## 8. Two runs

`Commutes f m`: `m` neither reads nor writes the part of the state that `f` changes.
`Respects r m`: from two states that `r` relates, `m` ends the same way, in states that `r`
relates again. -/

end Exec

namespace Outcome

variable {σ ε α : Type} {s : σ} {e : ε} {a : α}

def mapState (f : σ → σ) : Outcome σ ε α → Outcome σ ε α
  | .ok a s => .ok a (f s)
  | .err e s => .err e (f s)
  | .panic msg => .panic msg

theorem mapState_eq_ok {f : σ → σ} {o : Outcome σ ε α} : o.mapState f = .ok a s ↔ ∃ t, o = .ok a t ∧ s = f t := by
  cases o <;> simp [mapState, and_assoc, eq_comm]

theorem mapState_eq_err {f : σ → σ} {o : Outcome σ ε α} : o.mapState f = .err e s ↔ ∃ t, o = .err e t ∧ s = f t := by
  cases o <;> simp [mapState, and_assoc, eq_comm]

/-- The two runs ended the same way, in related states. -/
def Rel (r : σ → σ → Prop) : Outcome σ ε α → Outcome σ ε α → Prop
  | .ok a s, .ok b t => a = b ∧ r s t
  | .err e s, .err e' t => e = e' ∧ r s t
  | .panic msg, .panic msg' => msg = msg'
  | _, _ => False

end Outcome

namespace Exec

variable {σ ε α β : Type} {m n : Exec σ ε α}

def Commutes (f : σ → σ) (m : Exec σ ε α) : Prop := ∀ s, m (f s) = (m s).mapState f

namespace Commutes

variable {f : σ → σ}

theorem pure (a : α) : Commutes f (Pure.pure a : Exec σ ε α) := fun _ => rfl
theorem throw (e : ε) : Commutes f (Exec.throw e : Exec σ ε α) := fun _ => rfl
theorem panic (msg : String) : Commutes f (Exec.panic msg : Exec σ ε α) := fun _ => rfl

theorem modify {g : σ → σ} (h : ∀ s, g (f s) = f (g s)) :
    Commutes f (Exec.modify g : Exec σ ε Unit) := fun s => congrArg (Outcome.ok ()) (h s)

theorem assert (b : Bool) (msg : String) : Commutes f (Exec.assert b msg : Exec σ ε Unit) := by
  intro s
  unfold Exec.assert
  cases b <;> rfl

theorem okOr (e : ε) (x : Option α) : Commutes f (Exec.okOr e x : Exec σ ε α) := by
  intro s
  cases x <;> rfl

theorem expect (msg : String) (x : Option α) : Commutes f (Exec.expect msg x : Exec σ ε α) := by
  intro s
  cases x <;> rfl

theorem bind {g : α → Exec σ ε β} (hm : Commutes f m) (hg : ∀ a, Commutes f (g a)) : Commutes f (m >>= g) := by
  intro s
  rw [bind_run, bind_run, hm s]
  cases m s with
  | ok a s' => exact hg a s'
  | err e s' => rfl
  | panic msg => rfl

theorem get_bind {g : σ → Exec σ ε β} (hg : ∀ s, g (f s) = g s)
    (h : ∀ s, Commutes f (g s)) : Commutes f (Exec.get >>= g) := by
  intro s
  rw [get_bind_run, get_bind_run, hg]
  exact h s s

theorem attempt (hm : Commutes f m) : Commutes f (Exec.attempt m) := by
  intro s
  unfold Exec.attempt
  rw [hm s]
  cases m s <;> rfl

theorem ignore (hm : Commutes f m) : Commutes f (Exec.ignore m) := by
  intro s
  unfold Exec.ignore
  rw [hm s]
  cases m s <;> rfl

theorem unwrap (hm : Commutes f m) (msg : String) : Commutes f (Exec.unwrap m msg) := by
  intro s
  unfold Exec.unwrap
  rw [hm s]
  cases m s <;> rfl

theorem zoom {τ : Type} {part : σ → τ} {put : τ → σ → σ} (m : Exec τ ε α)
    (hpart : ∀ s, part (f s) = part s) (hput : ∀ t s, put t (f s) = f (put t s)) :
    Commutes f (Exec.zoom part put m) := by
  intro s
  unfold Exec.zoom
  rw [hpart s]
  cases m (part s) with
  | ok a t => exact congrArg (Outcome.ok a) (hput t s)
  | err e t => exact congrArg (Outcome.err e) (hput t s)
  | panic msg => rfl

end Commutes

def Respects (r : σ → σ → Prop) (m : Exec σ ε α) : Prop := ∀ s t, r s t → (m s).Rel r (m t)

namespace Respects

variable {r : σ → σ → Prop}

theorem ok (h : Respects r m) {s t s' : σ} {a : α} (hst : r s t)
    (hm : m s = .ok a s') : ∃ t', m t = .ok a t' ∧ r s' t' := by
  have hrel := h s t hst
  rw [hm] at hrel
  cases ht : m t <;> rw [ht] at hrel <;> simp only [Outcome.Rel] at hrel
  obtain ⟨rfl, h'⟩ := hrel
  exact ⟨_, rfl, h'⟩

theorem pure (a : α) : Respects r (Pure.pure a : Exec σ ε α) := fun _ _ h => ⟨rfl, h⟩
theorem throw (e : ε) : Respects r (Exec.throw e : Exec σ ε α) := fun _ _ h => ⟨rfl, h⟩

theorem modify {g : σ → σ} (h : ∀ s t, r s t → r (g s) (g t)) :
    Respects r (Exec.modify g : Exec σ ε Unit) := fun s t hst => ⟨rfl, h s t hst⟩

theorem assert (b : Bool) (msg : String) : Respects r (Exec.assert b msg : Exec σ ε Unit) := by
  intro s t h
  unfold Exec.assert
  cases b
  · rfl
  · exact ⟨rfl, h⟩

theorem okOr (e : ε) (x : Option α) : Respects r (Exec.okOr e x : Exec σ ε α) := by
  intro s t h
  cases x <;> exact ⟨rfl, h⟩

theorem ofExcept (x : Except ε α) : Respects r (Exec.ofExcept x : Exec σ ε α) := by
  intro s t h
  cases x <;> exact ⟨rfl, h⟩

theorem bind {g : α → Exec σ ε β} (hm : Respects r m) (hg : ∀ a, Respects r (g a)) : Respects r (m >>= g) := by
  intro s t h
  have hrel := hm s t h
  rw [bind_run, bind_run]
  cases hs : m s <;> cases ht : m t <;> rw [hs, ht] at hrel <;>
    simp only [Outcome.Rel] at hrel
  · obtain ⟨rfl, h'⟩ := hrel
    exact hg _ _ _ h'
  · exact hrel
  · exact hrel

theorem get_bind {g : σ → Exec σ ε β} (hg : ∀ s t, r s t → g s = g t)
    (h : ∀ s, Respects r (g s)) : Respects r (Exec.get >>= g) := by
  intro s t hst
  rw [get_bind_run, get_bind_run, hg s t hst]
  exact h t s t hst

theorem attempt (hm : Respects r m) : Respects r (Exec.attempt m) := by
  intro s t h
  have hrel := hm s t h
  unfold Exec.attempt
  cases hs : m s <;> cases ht : m t <;> rw [hs, ht] at hrel <;>
    simp only [Outcome.Rel] at hrel
  · exact ⟨congrArg _ hrel.1, hrel.2⟩
  · exact ⟨congrArg _ hrel.1, hrel.2⟩
  · exact hrel

theorem mapErr (hm : Respects r m) (f : ε → ε) : Respects r (Exec.mapErr f m) := by
  intro s t h
  have hrel := hm s t h
  unfold Exec.mapErr
  cases hs : m s <;> cases ht : m t <;> rw [hs, ht] at hrel <;>
    simp only [Outcome.Rel] at hrel
  · exact hrel
  · exact ⟨congrArg _ hrel.1, hrel.2⟩
  · exact hrel

theorem ignore (hm : Respects r m) : Respects r (Exec.ignore m) := by
  intro s t h
  have hrel := hm s t h
  unfold Exec.ignore
  cases hs : m s <;> cases ht : m t <;> rw [hs, ht] at hrel <;>
    simp only [Outcome.Rel] at hrel
  · exact ⟨rfl, hrel.2⟩
  · exact ⟨rfl, hrel.2⟩
  · exact hrel

theorem ite {c : Prop} [Decidable c] (hm : Respects r m) (hn : Respects r n) : Respects r (if c then m else n) := by
  split
  · exact hm
  · exact hn

end Respects

end Exec

/-
# The keyboard

`get_char` of `platform/qemu_virt/input.rs` keeps one flag for the two shift keys: every event with
the code of a shift key sets it to whether the value is that of a key going down.  So it forgets a
key that is held when the other one is released or when the key repeats, and takes notice of events
that are not key events.
-/
import Mathlib.Data.List.Induction

namespace BeetKernel.Input

/-! ## 1. The driver -/

structure InputEvent where
  type : UInt16
  code : UInt16
  value : UInt32
deriving DecidableEq

def evKey : UInt16 := 1
def keyLeftShift : UInt16 := 42
def keyRightShift : UInt16 := 54
def valDown : UInt32 := 1

/-- The keys with two characters: the code of the first key of a row, and the row without and with
shift. -/
def keyRows : List (Nat × String × String) :=
  [(2, "1234567890-=", "!@#$%^&*()_+"), (16, "qwertyuiop[]", "QWERTYUIOP\x7b\x7d"),
    (30, "asdfghjkl;'`", "ASDFGHJKL:\"~"), (43, "\\zxcvbnm,./", "|ZXCVBNM<>?")]

def keycodeToAscii (code : UInt16) (shift : Bool) : Option UInt8 :=
  if code = 1 then some 0x1b
  else if code = 14 then some 0x7f
  else if code = 15 then some 9
  else if code = 28 ∨ code = 96 then some 10
  else if code = 57 then some 32
  else keyRows.findSome? fun (start, plain, shifted) =>
    if code.toNat < start then none
    else (if shift then shifted else plain).toUTF8.toList[code.toNat - start]?

/-- The flag after an event. -/
def trackShift (shift : Bool) (e : InputEvent) : Bool :=
  if e.code = keyLeftShift ∨ e.code = keyRightShift then e.value == valDown else shift

/-- `get_char` with the flag and the events in the queue: its answer, and what is left. -/
def getChar (shift : Bool) : List InputEvent → Option UInt8 × Bool × List InputEvent
  | [] => (none, shift, [])
  | e :: rest =>
    let shift := trackShift shift e
    match if e.type = evKey ∧ e.value = valDown then keycodeToAscii e.code shift else none with
    | some c => (some c, shift, rest)
    | none => getChar shift rest

/-! ## 2. Keys that are held -/

/-- Whether a key is held after the events: from its press until its release.  Other events, and
repeats, change nothing. -/
def held (key : UInt16) (es : List InputEvent) : Bool :=
  es.foldl (fun h e => if e.type = evKey ∧ e.code = key ∧ e.value ≤ 1 then e.value == valDown else h) false

def shiftHeld (es : List InputEvent) : Bool := held keyLeftShift es || held keyRightShift es

/-- After the events `es`, the flag can follow the event: with the code of a shift key it is a press of
that key, or a release while the other shift key is not held. -/
def Plain (es : List InputEvent) (e : InputEvent) : Prop :=
  e.code = keyLeftShift ∨ e.code = keyRightShift → e.type = evKey ∧ (e.value = valDown ∨
    e.value = 0 ∧ held (if e.code = keyLeftShift then keyRightShift else keyLeftShift) es = false)

/-- All events after `es` are plain. -/
def PlainRun (es : List InputEvent) : List InputEvent → Prop
  | [] => True
  | e :: rest => Plain es e ∧ PlainRun (es ++ [e]) rest

variable {es pending : List InputEvent} {e : InputEvent}

theorem held_append (key : UInt16) (es : List InputEvent) (e : InputEvent) : held key (es ++ [e]) =
    if e.type = evKey ∧ e.code = key ∧ e.value ≤ 1 then e.value == valDown else held key es := by
  simp [held]

theorem trackShift_shiftHeld (h : Plain es e) : trackShift (shiftHeld es) e = shiftHeld (es ++ [e]) := by
  have hne : keyRightShift ≠ keyLeftShift := by decide
  unfold trackShift shiftHeld
  rw [held_append, held_append]
  by_cases hl : e.code = keyLeftShift
  · obtain ⟨htype, hvalue | ⟨hvalue, hother⟩⟩ := h (.inl hl)
    · simp [hl, htype, hvalue, valDown]
    · rw [if_pos hl] at hother
      simp [hl, htype, hvalue, hother, hne.symm]
  · by_cases hr : e.code = keyRightShift
    · obtain ⟨htype, hvalue | ⟨hvalue, hother⟩⟩ := h (.inr hr)
      · simp [hr, htype, hvalue, valDown]
      · rw [if_neg hl] at hother
        simp [hr, htype, hvalue, hother, hne]
    · simp [hl, hr]

theorem plainRun_append (es a b : List InputEvent) : PlainRun es (a ++ b) ↔ PlainRun es a ∧ PlainRun (es ++ a) b := by
  induction a generalizing es with
  | nil => simp [PlainRun]
  | cons e a ih => simp [PlainRun, ih, and_assoc]

theorem foldl_trackShift (h : PlainRun [] es) : es.foldl trackShift false = shiftHeld es := by
  induction es using List.reverseRecOn with
  | nil => rfl
  | append_singleton es e ih =>
    obtain ⟨hes, he, -⟩ := (plainRun_append [] es [e]).mp h
    rw [List.foldl_append, ih hes]
    exact trackShift_shiftHeld he

/-- **Characters are translated with shift while a shift key is held**, if all events are plain.  `es`
are the events that earlier calls have taken from the queue, and `taken` those that this one takes. -/
theorem getChar_shift (h : PlainRun [] (es ++ pending)) :
    ∃ taken, (getChar (es.foldl trackShift false) pending).2.2 = pending.drop taken ∧
      (getChar (es.foldl trackShift false) pending).2.1 = (es ++ pending.take taken).foldl trackShift false ∧
      ∀ c, (getChar (es.foldl trackShift false) pending).1 = some c →
        ∃ e, (pending.take taken).getLast? = some e ∧ e.type = evKey ∧ e.value = valDown ∧
          keycodeToAscii e.code (shiftHeld (es ++ pending.take taken)) = some c := by
  induction pending generalizing es with
  | nil => exact ⟨0, rfl, by simp [getChar], fun c hc => by cases hc⟩
  | cons e rest ih =>
    have hrest : PlainRun [] ((es ++ [e]) ++ rest) := by simpa using h
    have hflag := foldl_trackShift ((plainRun_append [] _ _).mp hrest).1
    obtain ⟨n, hleft, hshift, hchar⟩ := ih hrest
    simp only [List.foldl_append, List.foldl_cons, List.foldl_nil] at hflag hleft hshift hchar
    rw [getChar]
    split
    next c hc =>
      refine ⟨1, rfl, by simp, ?_⟩
      rintro _ ⟨⟩
      split at hc
      next hpress =>
        exact ⟨e, by simp, hpress.1, hpress.2, by simpa [← hflag] using hc⟩
      · cases hc
    · refine ⟨n + 1, hleft, by simpa using hshift, fun c hc => ?_⟩
      obtain ⟨e', hlast, hpress⟩ := hchar c hc
      refine ⟨e', ?_, by simpa using hpress⟩
      simp [List.getLast?_cons, hlast]

theorem getChar_shift_a : ∃ taken, (getChar false [⟨1, 42, 1⟩, ⟨1, 30, 1⟩]).2.2 = [⟨1, 42, 1⟩, ⟨1, 30, 1⟩].drop taken :=
  (@getChar_shift [] _ (by simp [PlainRun, Plain, evKey, valDown, keyLeftShift, keyRightShift])).imp fun _ h => h.1

/-- Both shift keys are pressed and the right one is released again: the A comes out small, although
the left one is held. -/
theorem getChar_forgets : getChar false [⟨1, 42, 1⟩, ⟨1, 54, 1⟩, ⟨1, 54, 0⟩, ⟨1, 30, 1⟩] = (some 97, false, []) ∧
    shiftHeld [⟨1, 42, 1⟩, ⟨1, 54, 1⟩, ⟨1, 54, 0⟩, ⟨1, 30, 1⟩] = true ∧ keycodeToAscii 30 true = some 65 := by
  decide +kernel

end BeetKernel.Input

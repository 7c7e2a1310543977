/-
# The ring of typed characters

The characters typed while nobody has the keyboard wait in a ring of 64 bytes, with the index of the
oldest and a count; when it is full, a new byte overwrites the OLDEST.  `DisplayState.inputBuf` is a
list instead.  Here is the ring of the source: it holds the last bytes of the stream typed since it
was drained (`Took`), so draining it returns them in order, and this is what the list holds.
-/
import BeetKernel.Display.Keystrokes
import BeetKernel.Lib.Ring

namespace BeetKernel

open Kernel (inputBufCap)

/-- The fields of `DisplayState` that are the ring, with the bounds its array accesses rely on. -/
structure InputRing where
  inputBuf : Vector UInt8 inputBufCap
  inputHead : Nat
  inputCount : Nat
  head_lt : inputHead < inputBufCap
  count_le : inputCount ≤ inputBufCap

namespace InputRing

def new : InputRing := ⟨Vector.replicate _ 0, 0, 0, by decide, by decide⟩

/-- The cell `i` places after the oldest byte. -/
def cell (r : InputRing) (i : Nat) : Fin inputBufCap := ⟨(r.inputHead + i) % inputBufCap, Nat.mod_lt _ (by decide)⟩

def pushInputChar (r : InputRing) (c : UInt8) : InputRing :=
  if h : r.inputCount < inputBufCap then
    { r with
      inputBuf := r.inputBuf.set (r.cell r.inputCount) c
      inputCount := r.inputCount + 1
      count_le := h }
  else
    -- full: the oldest byte goes
    { r with
      inputBuf := r.inputBuf.set r.inputHead c r.head_lt
      inputHead := r.cell 1
      head_lt := (r.cell 1).isLt }

/-- `DisplayState::drain_input_buf`: how many bytes of `out` it has written, and `out`. -/
def drainInputBuf (r : InputRing) (out : Vector UInt8 inputBufCap) : (Nat × Vector UInt8 inputBufCap) × InputRing :=
  ((r.inputCount, (List.range r.inputCount).foldl (fun out i => out.setIfInBounds i (r.inputBuf.get (r.cell i))) out),
    { r with inputHead := 0, inputCount := 0, head_lt := by decide, count_le := by decide })

/-- Rounds of typing, each of which ends with the ring being drained: what is drained. -/
def rounds (r : InputRing) : List (List UInt8 × Vector UInt8 inputBufCap) → List (Nat × List UInt8) × InputRing
  | [] => ([], r)
  | (bytes, out) :: rest =>
    let drained := (bytes.foldl pushInputChar r).drainInputBuf out
    let later := rounds drained.2 rest
    ((drained.1.1, drained.1.2.toList.take drained.1.1) :: later.1, later.2)

/-! ## 1. The stream in the ring -/

variable {r : InputRing} {l : List UInt8}

/-- The byte in a cell. -/
def byte (r : InputRing) (i : Nat) : UInt8 := r.inputBuf[i]?.getD 0

/-- The ring has taken the stream `l` since it was empty. -/
structure Took (r : InputRing) (l : List UInt8) : Prop where
  holds : Ring.Holds inputBufCap r.byte l
  count : r.inputCount = min l.length inputBufCap
  head : r.inputHead = (l.length - r.inputCount) % inputBufCap

theorem push_took (h : Took r l) (c : UInt8) : Took (r.pushInputChar c) (l ++ [c]) := by
  -- the byte goes to the cell of its place in the stream, whether the ring is full or not
  have hput : ∀ {i : Nat} (hi : i < inputBufCap), i = l.length % inputBufCap →
      Ring.Holds inputBufCap (fun j => (r.inputBuf.set i c hi)[j]?.getD 0) (l ++ [c]) := by
    rintro _ hi rfl
    refine h.holds.append (fun j hj => ?_) fun p hp => ?_
    · obtain rfl : j = 0 := by simpa using hj
      simp
    · have hne : l.length % inputBufCap ≠ p := by simpa using (hp 0 (by simp)).symm
      rw [Vector.getElem?_set_ne _ hne]
      rfl
  have hcount := h.count
  have hhead := h.head
  have hlen : (l ++ [c]).length = l.length + 1 := by simp
  simp only [inputBufCap] at hcount hhead
  by_cases hroom : r.inputCount < inputBufCap
  · rw [pushInputChar, dif_pos hroom]
    simp only [inputBufCap] at hroom
    refine ⟨hput (r.cell r.inputCount).isLt ?_, ?_, ?_⟩ <;> simp only [cell, hlen, inputBufCap] <;> omega
  · rw [pushInputChar, dif_neg hroom]
    simp only [inputBufCap] at hroom
    refine ⟨hput r.head_lt ?_, ?_, ?_⟩ <;> simp only [cell, hlen, inputBufCap] <;> omega

theorem pushes_took (bytes : List UInt8) (h : Took r l) : Took (bytes.foldl pushInputChar r) (l ++ bytes) := by
  induction bytes generalizing r l with
  | nil => simpa using h
  | cons c rest ih => simpa using ih (push_took h c)

theorem took_of_empty (h : r.inputCount = 0) (hhead : r.inputHead = 0) : Took r [] := ⟨.nil _ _, h, by simp [hhead]⟩

/-! ## 2. Draining -/

/-- A loop that writes the first `n` entries. -/
theorem foldl_set_take (f : Nat → UInt8) (out : Vector UInt8 inputBufCap) {n : Nat} (hn : n ≤ inputBufCap) :
    (((List.range n).foldl (fun out i => out.setIfInBounds i (f i)) out).toList.take n) = (List.range n).map f := by
  have hget : ∀ n ≤ inputBufCap, ∀ i < n,
      ((List.range n).foldl (fun out i => out.setIfInBounds i (f i)) out)[i]? = some (f i) := by
    intro n hn i hi
    induction n with
    | zero => exact absurd hi (Nat.not_lt_zero i)
    | succ n ih =>
      rw [List.range_succ, List.foldl_append, List.foldl_cons, List.foldl_nil, Vector.getElem?_setIfInBounds]
      split
      next heq =>
        simp [← heq, Nat.lt_of_succ_le hn]
      · exact ih (Nat.le_of_succ_le hn) (by omega)
  refine List.ext_getElem? fun i => ?_
  by_cases hi : i < n
  · rw [List.getElem?_take_of_lt hi]
    simpa [hi] using hget n hn i hi
  · simp [hi]

theorem drain_took (h : Took r l) (out : Vector UInt8 inputBufCap) :
    (r.drainInputBuf out).1.1 = min l.length inputBufCap ∧
      (r.drainInputBuf out).1.2.toList.take (r.drainInputBuf out).1.1 = l.drop (l.length - inputBufCap) ∧
      Took (r.drainInputBuf out).2 [] := by
  have hbyte : (fun i => r.inputBuf.get (r.cell i)) =
      fun j => r.byte ((l.length - r.inputCount + j) % inputBufCap) := by
    funext j
    have hcell : (r.cell j).val = (l.length - r.inputCount + j) % inputBufCap := by
      show (r.inputHead + j) % inputBufCap = _
      rw [h.head, Nat.mod_add_mod]
    rw [byte, ← hcell, Vector.getElem?_eq_getElem (r.cell j).isLt]
    rfl
  have hcount : r.inputCount = min l.length inputBufCap := h.count
  have hread := h.holds.read (p := l.length - r.inputCount) (k := r.inputCount) (by omega) (by omega)
  refine ⟨hcount, ?_, took_of_empty rfl rfl⟩
  rw [drainInputBuf, foldl_set_take _ _ r.count_le, hbyte, hread, List.take_of_length_le (by simp; omega)]
  congr 1
  omega

/-- **What is drained**: in every round the last 64 bytes typed in it, in order, or all of them if
there are fewer; and the ring is empty again. -/
theorem drained_exact (rs : List (List UInt8 × Vector UInt8 inputBufCap)) : (new.rounds rs).1 = rs.map (fun x =>
        (min x.1.length inputBufCap, x.1.drop (x.1.length - inputBufCap))) ∧
      (new.rounds rs).2.inputCount = 0 := by
  have hall : ∀ r, Took r [] → (r.rounds rs).1 = rs.map (fun x =>
      (min x.1.length inputBufCap, x.1.drop (x.1.length - inputBufCap))) ∧ (r.rounds rs).2.inputCount = 0 := by
    induction rs with
    | nil => exact fun r h => ⟨rfl, h.count⟩
    | cons x rest ih =>
      intro r h
      obtain ⟨hn, htake, hempty⟩ := drain_took (by simpa using pushes_took x.1 h) x.2
      obtain ⟨hrest, hcount⟩ := ih _ hempty
      exact ⟨by rw [rounds, List.map_cons, ← hrest, htake, hn], hcount⟩
  exact hall new (took_of_empty rfl rfl)

/-! ## 3. The list -/

theorem foldl_last (bytes : List UInt8) :
    bytes.foldl (fun buf c => (if buf.length < inputBufCap then buf else buf.tail) ++ [c]) [] =
      bytes.drop (bytes.length - inputBufCap) := by
  induction bytes using List.reverseRecOn with
  | nil => rfl
  | append_singleton l c ih =>
    rw [List.foldl_append, List.foldl_cons, List.foldl_nil, ih, List.length_append, List.length_singleton,
      List.length_drop, List.drop_append_of_le_length (by simp only [inputBufCap]; omega)]
    congr 1
    split
    · congr 1
      omega
    · rw [List.tail_drop]
      congr 1
      omega

/-- **The list of the model is what the ring holds**, for the characters typed since it was empty. -/
theorem inputBuf_eq_drained (h : Took r []) {d : DisplayState} (hsid : d.inputSid = none)
    (hbuf : d.inputBuf = []) (bytes : List UInt8) (out : Vector UInt8 inputBufCap) :
    let drained := (bytes.foldl pushInputChar r).drainInputBuf out
    drained.1.2.toList.take drained.1.1 = (bytes.foldl DisplayState.type d).inputBuf := by
  intro drained
  rw [DisplayState.foldl_type_inputBuf, hsid, hbuf]
  exact (drain_took (by simpa using pushes_took bytes h) out).2.1.trans (foldl_last bytes).symm

end InputRing

end BeetKernel

/-
# Line ends typed at the shell

`process_char` of `apps/shell/src/main.rs` collects bytes until a line ends.  Enter may come as CR,
as LF or as both, so the LF of a CR LF is to be dropped.  `LAST_WAS_CR` is there for that, but only
line ends write it: it says that the last LINE END was a CR, whatever was typed since.

Histories have the last byte first.
-/
import Mathlib.Data.List.Basic

namespace BeetKernel.Shell

abbrev Bytes := List UInt8

def cr : UInt8 := 13
def lf : UInt8 := 10

/-! ## 1. The code -/

def maxLine : Nat := 256

/-- `SHELL` and `LAST_WAS_CR`; the line is `SHELL.line[..SHELL.pos]`. -/
structure Input where
  line : Bytes
  lastWasCr : Bool
  fits : line.length < maxLine

/-- What the shell prints, and the line it passes to `execute_line`.  For an empty line the call is
left out, and would do nothing. -/
structure Effect where
  printed : Bytes
  command : Option Bytes

def text (s : String) : Bytes := s.toList.map fun c => .ofNat c.toNat

/-- `prompt` -/
def prompt : Bytes := text "bsh> "

def processChar (s : Input) (c : UInt8) : Input × Effect :=
  if c = 0x7F ∨ c = 0x08 then
    if s.line.length > 0 then
      (⟨s.line.dropLast, s.lastWasCr, by have := s.fits; simp; omega⟩, ⟨[8, 32, 8], none⟩)
    else (s, ⟨[], none⟩)
  else if c = cr ∨ c = lf then
    if c = lf ∧ s.lastWasCr then (⟨s.line, false, s.fits⟩, ⟨[], none⟩)
    else (⟨[], c == cr, by decide⟩, ⟨lf :: prompt, some s.line⟩)
  else if c = 0x03 then (⟨[], s.lastWasCr, by decide⟩, ⟨text "^C\n" ++ prompt, none⟩)
  else if c = 0x04 then
    (s, ⟨if s.line.length = 0 then text "\n(type 'reboot' to restart)\n" ++ prompt else [], none⟩)
  else if 0x20 ≤ c ∧ c ≤ 0x7E then
    if h : s.line.length < maxLine - 1 then
      (⟨s.line ++ [c], s.lastWasCr, by rw [List.length_append, List.length_singleton]; omega⟩, ⟨[c], none⟩)
    else (s, ⟨[], none⟩)
  else (s, ⟨[], none⟩)

/-- The shell after a history, and the command lines it has taken. -/
def run : Bytes → Input × List Bytes
  | [] => (⟨[], false, by decide⟩, [])
  | c :: before =>
    let (s, effect) := processChar (run before).1 c
    (s, effect.command.toList ++ (run before).2)

/-! ## 2. What line ends are for -/

/-- The line after a byte that does not end it. -/
def edit (line : Bytes) (c : UInt8) : Bytes :=
  if c = 0x7F ∨ c = 0x08 then line.dropLast
  else if c = 0x03 then []
  else if 0x20 ≤ c ∧ c ≤ 0x7E ∧ line.length < maxLine - 1 then line ++ [c]
  else line

/-- The line being typed, and the command lines.  Every CR ends a line, and every LF but one right
after a CR, which is ignored. -/
def commandLines : Bytes → Bytes × List Bytes
  | [] => ([], [])
  | c :: before =>
    let (line, lines) := commandLines before
    if c = lf ∧ before.head? = some cr then (line, lines)
    else if c = cr ∨ c = lf then ([], line :: lines)
    else (edit line c, lines)

def lastEnd (history : Bytes) : Option UInt8 := history.find? fun c => c == cr || c == lf

/-- Some LF follows a CR as the next line end, but not as the next byte. -/
def Separated (history : Bytes) : Prop :=
  ∃ before, lf :: before <:+ history ∧ lastEnd before = some cr ∧ before.head? ≠ some cr

theorem separated_cons (c : UInt8) (before : Bytes) : Separated (c :: before) ↔
    (c = lf ∧ lastEnd before = some cr ∧ before.head? ≠ some cr) ∨ Separated before := by
  simp only [Separated, List.suffix_cons_iff, List.cons.injEq, or_and_right, exists_or, and_assoc]
  refine or_congr_left ⟨?_, ?_⟩
  · rintro ⟨_, rfl, rfl, h⟩
    exact ⟨rfl, h⟩
  · rintro ⟨rfl, h⟩
    exact ⟨before, rfl, rfl, h⟩

/-! ## 3. One byte -/

/-- A line end may be dropped, or it ends the line. -/
theorem processChar_end {c : UInt8} (hc : c = cr ∨ c = lf) (s : Input) :
    if c = lf ∧ s.lastWasCr then (processChar s c).1.line = s.line ∧
      (processChar s c).1.lastWasCr = false ∧ (processChar s c).2.command = none
    else (processChar s c).1.line = [] ∧
      (processChar s c).1.lastWasCr = (c == cr) ∧ (processChar s c).2.command = some s.line := by
  have hdel : ¬ (c = 0x7F ∨ c = 0x08) := by rcases hc with rfl | rfl <;> decide
  unfold processChar
  rw [if_neg hdel, if_pos hc]
  split <;> simp

theorem processChar_edit {c : UInt8} (hc : ¬ (c = cr ∨ c = lf)) (s : Input) :
    (processChar s c).1.line = edit s.line c ∧ (processChar s c).1.lastWasCr = s.lastWasCr ∧
      (processChar s c).2.command = none := by
  obtain ⟨line, flag, fits⟩ := s
  unfold processChar edit
  rw [if_neg hc]
  split_ifs <;> simp_all

/-! ## 4. Every history -/

/-- The flag says which line end came last. -/
theorem lastWasCr_iff (history : Bytes) : (run history).1.lastWasCr = true ↔ lastEnd history = some cr := by
  induction history with
  | nil => simp [run, lastEnd]
  | cons c before ih =>
    by_cases hc : c = cr ∨ c = lf
    · have hlast : lastEnd (c :: before) = some c := by simp [lastEnd, hc]
      have hend := processChar_end hc (run before).1
      rw [hlast]
      split at hend
      next h =>
        obtain ⟨rfl, -⟩ := h
        simp [run, hend.2.1, show lf ≠ cr by decide]
      · simp [run, hend.2.1]
    · have hlast : lastEnd (c :: before) = lastEnd before := by simp [lastEnd, hc]
      rw [hlast, ← ih, run, (processChar_edit hc _).2.1]

theorem lastEnd_of_head? {history : Bytes} (h : history.head? = some cr) : lastEnd history = some cr := by
  obtain ⟨before, rfl⟩ := List.head?_eq_some_iff.mp h
  rfl

/-- Either nothing was separated and all is as it should be, or a line is missing. -/
theorem run_cases (history : Bytes) : (¬ Separated history ∧ (run history).1.line = (commandLines history).1 ∧
      (run history).2 = (commandLines history).2) ∨
    (Separated history ∧ (run history).2.length < (commandLines history).2.length) := by
  induction history with
  | nil => exact .inl ⟨by rintro ⟨before, hsuf, -⟩; simp at hsuf, rfl, rfl⟩
  | cons c before ih =>
    have hflag := lastWasCr_iff before
    rw [separated_cons]
    by_cases hc : c = cr ∨ c = lf
    · have hend := processChar_end hc (run before).1
      by_cases hlast : c = lf ∧ before.head? = some cr
      · -- the LF of a CR LF, which both ignore
        obtain ⟨rfl, hhead⟩ := hlast
        rw [if_pos ⟨rfl, hflag.mpr (lastEnd_of_head? hhead)⟩] at hend
        simpa [run, commandLines, hhead, hend] using ih
      · split at hend
        · -- a LF dropped for a CR that is not right before it
          rename_i hdrop
          have hhead : before.head? ≠ some cr := fun h => hlast ⟨hdrop.1, h⟩
          refine .inr ⟨.inl ⟨hdrop.1, hflag.mp hdrop.2, hhead⟩, ?_⟩
          simp only [run, commandLines, if_neg hlast, if_pos hc, hend.2.2, Option.toList_none,
            List.nil_append, List.length_cons]
          rcases ih with ⟨-, -, heq⟩ | ⟨-, hlt⟩
          · rw [heq]
            omega
          · omega
        next hkeep =>
          have hnot : ¬ (c = lf ∧ lastEnd before = some cr ∧ before.head? ≠ some cr) := fun h =>
            hkeep ⟨h.1, hflag.mpr h.2.1⟩
          simpa only [run, commandLines, if_neg hlast, if_pos hc, hend, hnot, false_or, Option.toList_some,
            List.singleton_append, List.length_cons, Nat.add_lt_add_iff_right, List.cons.injEq, true_and]
            using ih
    · obtain ⟨hcr, hlf⟩ := not_or.mp hc
      simp only [run, commandLines, hcr, hlf, processChar_edit hc, false_and, or_self, if_false, false_or,
        Option.toList_none, List.nil_append]
      rcases ih with ⟨hsep, hline, heq⟩ | hmissing
      · exact .inl ⟨hsep, by rw [hline], heq⟩
      · exact .inr hmissing

/-- **One command line per line terminator**, in every history in which no LF is separated from the
CR before it, and in no other. -/
theorem line_per_terminator_iff (history : Bytes) :
    (run history).2 = (commandLines history).2 ↔ ¬ Separated history := by
  rcases run_cases history with ⟨hnot, -, heq⟩ | ⟨hsep, hlt⟩
  · simp [hnot, heq]
  · simp only [hsep, not_true_eq_false, iff_false]
    exact fun heq => absurd hlt (by simp [heq])

/-- CR, `ls`, LF: the command is not taken. -/
theorem separated_not_taken :
    (run [lf, 115, 108, cr]).2 = [[]] ∧ (commandLines [lf, 115, 108, cr]).2 = [[108, 115], []] := by
  decide

end BeetKernel.Shell

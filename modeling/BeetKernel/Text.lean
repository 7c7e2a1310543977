/-
# Strings of bounded length

`String<N>` of `xous-rs/src/string.rs` holds text in UTF-8, and `to_str` relies on it without a
check.  `push` and `append` add whole characters, but refuse one of several bytes that would just
fit; `write_str` adds bytes, and may stop within a character; `from_str` checks what it has cut off.
A string is given by its stored bytes, and its capacity is one that the 32 bits of `len` can count.
-/
import BeetKernel.Definitions
import Mathlib.Data.List.Basic

namespace BeetKernel.Text

variable {N : UInt32} {s : List UInt8} {old new text : List Char}

def encode (text : List Char) : List UInt8 := text.flatMap String.utf8EncodeChar

/-! ## 1. The calls -/

def push (N : UInt32) (s : List UInt8) (ch : Char) : Except Error Nat × List UInt8 :=
  if ch.utf8Size = 1 then
    if s.length < N.toNat then (.ok 1, s ++ [ch.toUInt8]) else (.error .outOfMemory, s)
  else
    let subslice := encode [ch]
    if s.length + subslice.length < N.toNat then (.ok subslice.length, s ++ subslice)
    else (.error .outOfMemory, s)

/-- The loop of `append`. -/
def appendFrom (N : UInt32) (bytesAdded : Nat) : List Char → List UInt8 → Except Error Nat × List UInt8
  | [], s => (.ok bytesAdded, s)
  | ch :: rest, s =>
    match push N s ch with
    | (.ok bytes, s') => appendFrom N (bytesAdded + bytes) rest s'
    | (.error _, s') => (.error .outOfMemory, s')

def fromStr (N : UInt32) (src : List Char) : List UInt8 :=
  let s := (encode src).take N.toNat
  if s.toByteArray.IsValidUTF8 then s else []

def writeStr (N : UInt32) (s : List UInt8) (text : List Char) : List UInt8 :=
  (encode text).foldl (fun s c => if s.length < N.toNat then s ++ [c] else s) s

inductive Call where
  | push (ch : Char)
  | append (s : List Char)
  | clear
  | fromStr (src : List Char)
  | writeStr (s : List Char)

/-- The string after a call. -/
def Call.run (N : UInt32) (s : List UInt8) : Call → List UInt8
  | push ch => (Text.push N s ch).2
  | append text => (appendFrom N 0 text s).2
  | clear => []
  | fromStr src => Text.fromStr N src
  | writeStr text => Text.writeStr N s text

/-! ## 2. What they should do -/

/-- Of `text` a prefix has been added to `old`, cut at a character, and the call has succeeded, with
all of it, if and only if that fits. -/
def Writes (N : UInt32) (old text new : List Char) (r : Except Error Nat × List UInt8) : Prop :=
  ∃ kept, kept <+: text ∧ new = old ++ kept ∧ r.2 = encode new ∧ (r.1.isOk = true → kept = text) ∧
    (r.1.isOk = true ↔ (encode (old ++ text)).length ≤ N.toNat)

/-- A string with the text `old` has the text `new` after the call. -/
def Call.Keeps (N : UInt32) (old new : List Char) : Call → Prop
  | push ch => Writes N old [ch] new (Text.push N (encode old) ch)
  | append text => Writes N old text new (appendFrom N 0 text (encode old))
  | clear => new = []
  | fromStr src => new <+: src ∧ Text.fromStr N src = encode new
  | writeStr text => ∃ kept, kept <+: text ∧ new = old ++ kept ∧ Text.writeStr N (encode old) text = encode new

/-- The text does not end at the end of the string in a character of several bytes. -/
def Clear (N : UInt32) (s : List UInt8) (text : List Char) : Prop :=
  ∀ ch ∈ text.getLast?, ch.utf8Size = 1 ∨ s.length + (encode text).length ≠ N.toNat

def Call.Safe (N : UInt32) (s : List UInt8) : Call → Prop
  | push ch => Clear N s [ch]
  | append text => Clear N s text
  | clear | fromStr _ => True
  | writeStr text => ((encode text).take (N.toNat - s.length)).toByteArray.IsValidUTF8

/-- The string after calls that were all safe. -/
inductive Reached (N : UInt32) : List UInt8 → Prop
  | new : Reached N []
  | call {s : List UInt8} {c : Call} (hs : Reached N s) (hc : c.Safe N s) : Reached N (c.run N s)

/-! ## 3. What they do -/

@[simp] theorem encode_append (a b : List Char) : encode (a ++ b) = encode a ++ encode b := List.flatMap_append

@[simp] theorem encode_nil : encode [] = [] := rfl

/-- A part of a text that is valid ends between two of its characters. -/
theorem exists_kept {n : Nat} (h : ((encode text).take n).toByteArray.IsValidUTF8) :
    ∃ kept, kept <+: text ∧ (encode text).take n = encode kept := by
  obtain ⟨kept, hkept⟩ := h
  refine ⟨kept, List.isPrefix_of_utf8Encode_append_eq_utf8Encode ((encode text).drop n).toByteArray ?_, ?_⟩
  · rw [← hkept, ← List.toByteArray_append, List.take_append_drop]
    rfl
  · simpa [List.utf8Encode, encode] using congrArg (fun b => b.data.toList) hkept

/-- What `push` and `append` accept. -/
def Fits (N : UInt32) (s : List UInt8) (text : List Char) : Prop :=
  (s ++ encode text).length ≤ N.toNat ∧ Clear N s text

theorem fits_cons (ch : Char) (rest : List Char) :
    Fits N s (ch :: rest) ↔ Fits N s [ch] ∧ Fits N (s ++ encode [ch]) rest := by
  cases rest with
  | nil => exact ⟨fun h => ⟨h, by simpa using h.1, by simp [Clear]⟩, And.left⟩
  | cons ch' rest =>
    have happend : s ++ encode (ch :: ch' :: rest) = s ++ encode [ch] ++ encode (ch' :: rest) := by simp [encode]
    have hlen : s.length + (encode (ch :: ch' :: rest)).length =
        (s ++ encode [ch]).length + (encode (ch' :: rest)).length := by simp [encode, Nat.add_assoc]
    have hpos : 0 < (encode (ch' :: rest)).length := by
      simpa [encode] using Nat.add_pos_left ch'.utf8Size_pos _
    simp only [Fits, Clear, List.getLast?_cons_cons, happend, hlen]
    refine ⟨fun h => ⟨?_, h⟩, And.right⟩
    have := h.1
    simp only [List.length_append] at *
    exact ⟨by omega, fun _ _ => .inr (by omega)⟩

/-- `push` refuses a character that does not fit, or has several bytes and would just fit. -/
theorem push_cases (N : UInt32) (s : List UInt8) (ch : Char) :
    push N s ch = (.ok ch.utf8Size, s ++ encode [ch]) ∧ Fits N s [ch] ∨
    push N s ch = (.error .outOfMemory, s) ∧ ¬ Fits N s [ch] := by
  have hsize : (encode [ch]).length = ch.utf8Size := by simp [encode]
  have hfits : Fits N s [ch] ↔ s.length + ch.utf8Size ≤ N.toNat ∧
      (ch.utf8Size = 1 ∨ s.length + ch.utf8Size ≠ N.toNat) := by simp [Fits, Clear, hsize]
  unfold push
  dsimp only
  rw [hfits, hsize]
  split
  next hone =>
    have hbyte : encode [ch] = [ch.toUInt8] := by
      rw [encode, List.flatMap_singleton, String.utf8EncodeChar_eq_singleton hone]
      rfl
    split
    · exact .inl ⟨by rw [hone, hbyte], by omega⟩
    · exact .inr ⟨rfl, by omega⟩
  · split
    · exact .inl ⟨rfl, by omega⟩
    · exact .inr ⟨rfl, by omega⟩

theorem append_singleton (N : UInt32) (s : List UInt8) (ch : Char) : appendFrom N 0 [ch] s = push N s ch := by
  rcases push_cases N s ch with ⟨h, -⟩ | ⟨h, -⟩ <;> simp [appendFrom, h]

/-- `append` keeps the characters up to the first that `push` refuses. -/
theorem append_spec (N : UInt32) (text : List Char) : ∀ (s : List UInt8) (added : Nat), s.length ≤ N.toNat →
    ∃ kept, kept <+: text ∧ (appendFrom N added text s).2 = s ++ encode kept ∧
      (s ++ encode kept).length ≤ N.toNat ∧ ((appendFrom N added text s).1.isOk = true → kept = text) ∧
      ((appendFrom N added text s).1.isOk = true ↔ Fits N s text) := by
  induction text with
  | nil =>
    refine fun s _ hs => ⟨[], List.prefix_rfl, by simp [appendFrom], by simpa using hs, fun _ => rfl, ?_⟩
    simp [appendFrom, Except.isOk, Except.toBool, Fits, Clear, hs]
  | cons ch rest ih =>
    intro s added hs
    rw [fits_cons]
    rcases push_cases N s ch with ⟨hpush, hfits⟩ | ⟨hpush, hfits⟩
    · obtain ⟨kept, hkept, hrest, hle, hall, hok⟩ := ih (s ++ encode [ch]) (added + ch.utf8Size) hfits.1
      have hcons : s ++ encode (ch :: kept) = s ++ encode [ch] ++ encode kept := by simp [encode]
      simp only [appendFrom, hpush]
      exact ⟨ch :: kept, List.cons_prefix_cons.mpr ⟨rfl, hkept⟩, by rw [hcons, hrest], by rwa [hcons],
        fun h => by rw [hall h], by rw [hok, and_iff_right hfits]⟩
    · simp only [appendFrom, hpush]
      exact ⟨[], List.nil_prefix, by simp, by simpa using hs, (fun h => by cases h),
        (fun h => by cases h), fun h => absurd h.1 hfits⟩

theorem writeStr_eq (bs s : List UInt8) (hs : s.length ≤ N.toNat) :
    bs.foldl (fun s c => if s.length < N.toNat then s ++ [c] else s) s = s ++ bs.take (N.toNat - s.length) := by
  induction bs generalizing s with
  | nil => simp
  | cons b bs ih =>
    rw [List.foldl_cons]
    split
    next hlt =>
      rw [ih _ (by simpa using Nat.succ_le_of_lt hlt), show N.toNat - s.length = N.toNat - (s ++ [b]).length + 1 by
        simp; omega]
      simp
    · rw [ih s hs, show N.toNat - s.length = 0 by omega]
      simp

theorem Call.Keeps.run {c : Call} (h : c.Keeps N old new) : c.run N (encode old) = encode new := by
  cases c with
  | push _ | append _ =>
    obtain ⟨_, -, -, h, -⟩ := h
    exact h
  | clear =>
    rw [h]
    rfl
  | fromStr _ => exact h.2
  | writeStr _ =>
    obtain ⟨_, -, -, h⟩ := h
    exact h

section Room

variable (hs : (encode old).length ≤ N.toNat)

include hs

theorem append_keeps (text : List Char) :
    (∃ new, Writes N old text new (appendFrom N 0 text (encode old)) ∧ (encode new).length ≤ N.toNat) ↔
      Clear N (encode old) text := by
  obtain ⟨kept, hkept, hnew, hle, hall, hok⟩ := append_spec N text (encode old) 0 hs
  rw [Fits, ← encode_append] at hok
  rw [← encode_append] at hle hnew
  constructor
  · rintro ⟨_, ⟨_, -, -, -, -, hfits⟩, -⟩
    by_cases hlen : (encode (old ++ text)).length ≤ N.toNat
    · exact (hok.mp (hfits.mpr hlen)).2
    · refine fun _ _ => .inr fun heq => hlen ?_
      rw [encode_append, List.length_append, heq]
  · exact fun hclear => ⟨old ++ kept, ⟨kept, hkept, rfl, hnew, hall, hok.trans (and_iff_left hclear)⟩, hle⟩

theorem keeps_iff (c : Call) : (∃ new, c.Keeps N old new ∧ (encode new).length ≤ N.toNat) ↔ c.Safe N (encode old) := by
  cases c with
  | push ch =>
    simp only [Call.Keeps, Call.Safe, ← append_singleton]
    exact append_keeps hs [ch]
  | append text => exact append_keeps hs text
  | clear => exact ⟨fun _ => trivial, fun _ => ⟨[], rfl, Nat.zero_le _⟩⟩
  | fromStr src =>
    refine ⟨fun _ => trivial, fun _ => ?_⟩
    simp only [Call.Keeps, fromStr]
    split
    next hvalid =>
      obtain ⟨kept, hkept, heq⟩ := exists_kept hvalid
      exact ⟨kept, ⟨hkept, heq⟩, by rw [← heq, List.length_take]; omega⟩
    · exact ⟨[], ⟨List.nil_prefix, rfl⟩, Nat.zero_le _⟩
  | writeStr text =>
    simp only [Call.Keeps, Call.Safe, writeStr, writeStr_eq _ _ hs]
    constructor
    · rintro ⟨_, ⟨kept, -, rfl, heq⟩, -⟩
      rw [encode_append, List.append_cancel_left_eq] at heq
      exact ⟨kept, by rw [heq]; rfl⟩
    · intro hvalid
      obtain ⟨kept, hkept, heq⟩ := exists_kept hvalid
      refine ⟨old ++ kept, ⟨kept, hkept, rfl, by rw [heq, encode_append]⟩, ?_⟩
      rw [encode_append, ← heq, List.length_append, List.length_take]
      omega

end Room

/-- **Every call keeps what it should of its text.**  As long as no `push` or `append` that just fits
ends in a character of several bytes, and no `write_str` has to stop within a character, the string
holds a text; and the next call does what it should if and only if it is not one of these. -/
theorem reached_keeps_iff (h : Reached N s) : ∃ old, s = encode old ∧ s.length ≤ N.toNat ∧
    ∀ c : Call, (∃ new, c.Keeps N old new ∧ (encode new).length ≤ N.toNat) ↔ c.Safe N s := by
  induction h with
  | new => exact ⟨[], rfl, Nat.zero_le _, keeps_iff (Nat.zero_le _)⟩
  | call _ hc ih =>
    obtain ⟨old, rfl, -, hiff⟩ := ih
    obtain ⟨new, hkeeps, hle⟩ := (hiff _).mpr hc
    rw [hkeeps.run]
    exact ⟨new, rfl, hle, keeps_iff hle⟩

theorem reached_keeps_iff_new : ∃ old, [] = encode old ∧
    ∀ c : Call, (∃ new, c.Keeps 2 old new ∧ (encode new).length ≤ 2) ↔ c.Safe 2 [] :=
  (reached_keeps_iff (N := 2) .new).imp fun _ h => ⟨h.1, h.2.2⟩

/-- Two bytes do not take a character of two bytes, and one byte takes half of it. -/
theorem not_keeps_e : (¬ ∃ new, (Call.push 'é').Keeps 2 [] new) ∧
    ¬ ((Call.writeStr ['é']).run 1 []).toByteArray.IsValidUTF8 := by
  constructor
  · rintro ⟨_, _, -, -, -, -, hfits⟩
    exact absurd (hfits.mpr (by decide)) (by decide)
  · decide

end BeetKernel.Text

/-
# What a reader of the log gets

A reader that keeps up, in that it never has a whole ring of unread bytes, should get the bytes
of the log in order, each once, and all of them when its buffer is not filled.  It does, as long
as no write ends exactly at the end of the ring while it waits with room to spare.

`write_bytes` wraps the write cursor only when it has PASSED the end.  A write that ends there
leaves it at `RINGBUFFER_SIZE`, which is the position 0 in another spelling; `send_logs` takes a
reader to the end, finds its cursor at 0 and copies everything from the beginning up to the write
cursor once more: the whole ring, already read.  `readerRun_iff` states exactly when.
-/
import BeetKernel.Lib.Ring
import BeetKernel.Log.Server

namespace BeetKernel.Log

open Service

/-! ## 1. The ring holds the end of the stream -/

namespace RingStore

variable {r r' : RingStore}

/-- The cells hold the last bytes written, and the cursor is at the end of the stream. -/
structure Good (r : RingStore) : Prop where
  holds : Ring.Holds ringbufferSize r.ringbuffer r.written
  le_size : r.writeOffset ≤ ringbufferSize
  offset : r.writeOffset % ringbufferSize = r.written.length % ringbufferSize
  unfilled : r.bufferFilled = false → r.writeOffset = r.written.length

theorem empty_good : Good empty := ⟨.nil _ _, Nat.zero_le _, rfl, fun _ => rfl⟩

theorem copyInto_of_mem {ring : Nat → UInt8} {off p : Nat} {b : Bytes} (h : off ≤ p ∧ p < off + b.length) :
    copyInto ring off b p = b.getD (p - off) 0 := if_pos h

theorem copyInto_of_notMem {ring : Nat → UInt8} {off p : Nat} {b : Bytes}
    (h : ¬ (off ≤ p ∧ p < off + b.length)) : copyInto ring off b p = ring p := if_neg h

/-- **A write appends to the stream**, whether or not it goes around the end of the ring. -/
theorem writeBytes_good (h : Good r) (b : Bytes) : Good (r.writeBytes b) := by
  obtain ⟨hholds, hle, hoff, hun⟩ := h
  unfold writeBytes
  dsimp only
  generalize hlen : min b.length ringbufferSize = len
  generalize hpart : min len (ringbufferSize - r.writeOffset) = part1
  have hlenb : (b.take len).length = len := by simp; omega
  have hpart1 : (b.take part1).length = part1 := by simp; omega
  have hpart2 : ((b.drop part1).take (len - part1)).length = len - part1 := by simp; omega
  -- where the new bytes go
  have hcell1 : ∀ j < part1, (r.written.length + j) % ringbufferSize = r.writeOffset + j := by
    simp only [ringbufferSize] at *
    omega
  have hcell2 : ∀ j < len, ¬ j < part1 → (r.written.length + j) % ringbufferSize = j - part1 := by
    simp only [ringbufferSize] at *
    omega
  refine ⟨hholds.append (fun j hj => ?_) fun p hp => ?_, ?_, ?_, ?_⟩
  · rw [hlenb] at hj
    by_cases hj1 : j < part1
    · have hmem : copyInto r.ringbuffer r.writeOffset (b.take part1) (r.writeOffset + j) = (b.take len)[j] := by
        rw [copyInto_of_mem (by omega), List.getD_eq_getElem _ _ (by omega)]
        simp
      rw [hcell1 j hj1]
      dsimp only
      split
      · rwa [copyInto_of_notMem (by omega)]
      · exact hmem
    · rw [hcell2 j hj hj1]
      dsimp only
      rw [if_pos (by omega), copyInto_of_mem (by omega), List.getD_eq_getElem _ _ (by omega)]
      simp only [List.getElem_take, List.getElem_drop]
      congr 1
      omega
  · rw [hlenb] at hp
    have h1 : ¬ (r.writeOffset ≤ p ∧ p < r.writeOffset + (b.take part1).length) := by
      intro hin
      refine hp (p - r.writeOffset) (by omega) ?_
      rw [hcell1 _ (by omega)]
      omega
    have h2 : ¬ (0 ≤ p ∧ p < 0 + ((b.drop part1).take (len - part1)).length) := by
      intro hin
      refine hp (part1 + p) (by omega) ?_
      rw [hcell2 _ (by omega) (by omega)]
      omega
    dsimp only
    split
    · rw [copyInto_of_notMem h2, copyInto_of_notMem h1]
    · exact copyInto_of_notMem h1
  · dsimp only
    split <;> simp only [ringbufferSize] at * <;> omega
  · dsimp only
    rw [List.length_append, hlenb]
    split <;> simp only [ringbufferSize] at * <;> omega
  · dsimp only
    intro hfilled
    rw [Bool.or_eq_false_iff, decide_eq_false_iff_not] at hfilled
    rw [if_neg hfilled.2, List.length_append, hlenb, hun hfilled.1]

/-- `r'` comes from `r` by writes. -/
structure Grows (r r' : RingStore) : Prop where
  good : Good r → Good r'
  written : r.written <+: r'.written

theorem Grows.refl (r : RingStore) : Grows r r := ⟨id, List.prefix_rfl⟩

theorem Grows.trans {r1 r2 r3 : RingStore} (h₁ : Grows r1 r2) (h₂ : Grows r2 r3) : Grows r1 r3 :=
  ⟨fun h => h₂.good (h₁.good h), h₁.written.trans h₂.written⟩

theorem writeBytes_grows (r : RingStore) (b : Bytes) : Grows r (r.writeBytes b) :=
  ⟨fun h => writeBytes_good h b, List.prefix_append _ _⟩

theorem writeTerminated_grows (r : RingStore) (b : Bytes) : Grows r (r.writeTerminated b) :=
  (writeBytes_grows r b).trans (writeBytes_grows _ _)

theorem writeFmt_grows (r : RingStore) (pieces : List String) : Grows r (r.writeFmt pieces) := by
  unfold writeFmt
  induction pieces generalizing r with
  | nil => exact .refl r
  | cons s rest ih => exact (writeBytes_grows r _).trans (ih _)

theorem logInternal_grows (r : RingStore) (pieces : List String) : Grows r (r.logInternal pieces) :=
  (writeFmt_grows r pieces).trans (writeBytes_grows _ _)

end RingStore

open RingStore

/-! ## 2. What one answer contains -/

/-- The reader stands behind what it got, which is the beginning of the stream. -/
structure LogReader.Tracks (r : LogReader) (ring : RingStore) (got : Bytes) : Prop where
  isPrefix : got <+: ring.written
  offset : r.readOffset = got.length % ringbufferSize
  idle : r.pid = none → r.readMsg = none ∧ got = []

namespace LogReader

variable {r : LogReader} {ring : RingStore} {got : Bytes}

/-- The buffer the reader waits with. -/
def room (r : LogReader) : Option Nat := (r.readMsg.bind fun e => e.body.memoryMessageMut).map fun m => m.buf.length

/-- The write cursor is not at the end of the ring, or the reader has no more room than there is
to read. -/
def Clear (r : LogReader) (ring : RingStore) : Prop := ring.writeOffset = ringbufferSize →
    ∀ room, r.room = some room → room ≤ (ringbufferSize - r.readOffset) % ringbufferSize

/-- What was sent by an answer, if there was one. -/
def sentBytes (a : Option Answer) : Bytes := (a.map Answer.sent).getD []

theorem cells_eq {p off len : Nat} (hoff : p % ringbufferSize = off) (hlen : off + len ≤ ringbufferSize) :
    cells ring.ringbuffer off len = (List.range len).map fun j => ring.ringbuffer ((p + j) % ringbufferSize) := by
  refine List.map_congr_left fun j hj => ?_
  rw [List.mem_range] at hj
  congr 1
  simp only [ringbufferSize] at *
  omega

theorem cells_read (hgood : Good ring) {p off len : Nat} (hoff : p % ringbufferSize = off)
    (hlen : off + len ≤ ringbufferSize) (hend : p + len ≤ ring.written.length)
    (hlast : ring.written.length ≤ p + ringbufferSize) :
    cells ring.ringbuffer off len = (ring.written.drop p).take len := by
  rw [cells_eq hoff hlen, hgood.holds.read hend hlast]

theorem cells_length (ring : Nat → UInt8) (off len : Nat) : (cells ring off len).length = len := by
  simp [cells]

/-- After an answer the reader tracks what it has now, and an answer with room left over has
brought it everything. -/
def Continues (r : LogReader) (ring : RingStore) (got : Bytes) (answer : Option Answer) : Prop :=
  r.Tracks ring (got ++ sentBytes answer) ∧ ∀ a, answer = some a → a.sent.length < a.room → got ++ a.sent = ring.written

theorem Tracks.silent {r' : LogReader} (h : r.Tracks ring got) (hoff : r'.readOffset = r.readOffset)
    (hpid : r'.pid = r.pid) (hmsg : r.readMsg = none → r'.readMsg = none) :
    r'.Continues ring got none := by
  obtain ⟨hpre, hoffset, hidle⟩ := h
  refine ⟨⟨by simpa [sentBytes] using hpre, by simpa [sentBytes, hoff] using hoffset, fun hnone => ?_⟩,
    by simp⟩
  obtain ⟨hnomsg, hnil⟩ := hidle (hpid ▸ hnone)
  exact ⟨hmsg hnomsg, by simpa [sentBytes] using hnil⟩

/-- What was sent is the next `k` bytes, and the cursor is behind them. -/
theorem Tracks.sends {off room : Nat} {sent : Bytes} (h : r.Tracks ring got) (hpid : r.pid ≠ none)
    (k : Nat) (hsent : sent = (ring.written.drop got.length).take k)
    (hk : got.length + k ≤ ring.written.length) (hoff : off = (got.length + k) % ringbufferSize)
    (hfull : k < room → got.length + k = ring.written.length) :
    (⟨r.pid, off, none⟩ : LogReader).Continues ring got (some ⟨room, sent⟩) := by
  have hgot : got = ring.written.take got.length := List.prefix_iff_eq_take.mp h.isPrefix
  have hlen : sent.length = k := by rw [hsent]; simp; omega
  have htake : got ++ sent = ring.written.take (got.length + k) := by
    rw [List.take_add, ← hgot, hsent]
  refine ⟨⟨?_, ?_, fun hnone => absurd hnone hpid⟩, ?_⟩
  · simp only [sentBytes, Option.map_some, Option.getD_some, htake]
    exact List.take_prefix _ _
  · simp only [sentBytes, Option.map_some, Option.getD_some, List.length_append, hlen]
    exact hoff
  · rintro _ ⟨⟩ hlt
    dsimp only at hlt ⊢
    rw [htake, hfull (by omega), List.take_length]

/-- **An answer** in the cases where nothing is sent twice: the next unread bytes, as many as there
are or as fit. -/
theorem send_clear (hgood : Good ring) (htracks : r.Tracks ring got)
    (hkeeps : ring.written.length < got.length + ringbufferSize) (hclear : r.Clear ring) :
    (r.send ring).1.Continues ring got (r.send ring).2 := by
  have hle : got.length ≤ ring.written.length := htracks.isPrefix.length_le
  have hoff := htracks.offset
  unfold send
  split
  · exact htracks.silent rfl rfl id
  rename_i hne
  split
  · exact htracks.silent rfl rfl id
  rename_i envelope hmsg
  dsimp only
  split
  · exact htracks.silent rfl rfl fun _ => rfl
  rename_i mem hmem
  have hpid : r.pid ≠ none := fun hnone => by
    rw [(htracks.idle hnone).1] at hmsg
    cases hmsg
  have hroom : r.room = some mem.buf.length := by simp [room, hmsg, hmem]
  have hclear' := fun hw => hclear hw _ hroom
  have hwoff := hgood.offset
  have hwle := hgood.le_size
  generalize hW : ring.writeOffset = W at *
  generalize hL : ring.written.length = L at *
  generalize hB : mem.buf.length = B at *
  rw [hoff] at hne hclear' ⊢
  by_cases hbefore : got.length % ringbufferSize ≤ W
  · rw [if_pos hbefore]
    have hn : min (W - got.length % ringbufferSize) B = min (L - got.length) B := by
      simp only [ringbufferSize] at *
      omega
    rw [hn]
    have hcells : cells ring.ringbuffer (got.length % ringbufferSize) (min (L - got.length) B) =
        (ring.written.drop got.length).take (min (L - got.length) B) := by
      refine cells_read hgood rfl ?_ ?_ ?_ <;> simp only [ringbufferSize] at * <;> omega
    split
    · -- the buffer is filled, or it has no room at all
      rename_i hzero
      have hrest : min W (B - min (L - got.length) B) = 0 := by
        simp only [ringbufferSize] at *
        omega
      rw [hrest]
      refine htracks.sends hpid (min (L - got.length) B) ?_ ?_ ?_ ?_
      · simpa [cells] using hcells
      all_goals simp only [ringbufferSize] at *; omega
    · refine htracks.sends hpid (min (L - got.length) B) hcells ?_ ?_ ?_ <;> simp only [ringbufferSize] at * <;> omega
  · rw [if_neg hbefore]
    by_cases hfits : ringbufferSize - got.length % ringbufferSize ≤ B
    · rw [min_eq_left hfits, if_pos (by simp only [ringbufferSize] at *; omega)]
      refine htracks.sends hpid (ringbufferSize - got.length % ringbufferSize +
        min W (B - (ringbufferSize - got.length % ringbufferSize))) ?_ ?_ ?_ ?_
      · rw [List.take_add, List.drop_drop]
        congr 1
        · refine cells_read hgood rfl ?_ ?_ ?_ <;> simp only [ringbufferSize] at * <;> omega
        · refine cells_read hgood ?_ ?_ ?_ ?_ <;> simp only [ringbufferSize] at * <;> omega
      all_goals simp only [ringbufferSize] at *; omega
    · rw [min_eq_right (by omega), if_neg (by simp only [ringbufferSize] at *; omega)]
      refine htracks.sends hpid B ?_ ?_ ?_ ?_
      · refine cells_read hgood rfl ?_ ?_ ?_ <;> simp only [ringbufferSize] at * <;> omega
      all_goals simp only [ringbufferSize] at *; omega

/-- **An answer in the other case** is longer than what there was to read. -/
theorem send_not_clear (hgood : Good ring) (htracks : r.Tracks ring got)
    (hkeeps : ring.written.length < got.length + ringbufferSize) (hclear : ¬ r.Clear ring) :
    ring.written.length < (got ++ sentBytes (r.send ring).2).length := by
  obtain ⟨hpre, hoff, -⟩ := htracks
  have hle : got.length ≤ ring.written.length := hpre.length_le
  unfold Clear at hclear
  push Not at hclear
  obtain ⟨hend, B, hroom, hlong⟩ := hclear
  obtain ⟨mem, hmem, hB⟩ := Option.map_eq_some_iff.mp hroom
  obtain ⟨envelope, hmsg, hbody⟩ := Option.bind_eq_some_iff.mp hmem
  have hwoff := hgood.offset
  unfold send
  rw [hend] at hwoff ⊢
  rw [if_neg (by rw [hoff]; simp only [ringbufferSize]; omega), hmsg]
  dsimp only
  rw [hbody]
  dsimp only
  -- both ways to the end of the ring are the same here
  simp only [ite_self, hB]
  split
  · simp only [sentBytes, Option.map_some, Option.getD_some, List.length_append, cells_length]
    simp only [ringbufferSize] at *
    omega
  · simp only [sentBytes, Option.map_some, Option.getD_some, List.length_append, cells_length]
    simp only [ringbufferSize] at *
    omega

end LogReader

/-! ## 3. What a message changes -/

namespace LogServer

variable {s m : LogServer} {i : Nat} {r r' : LogReader} {got : Bytes}

theorem emitPanicFrame_grows (s : LogServer) :
    Grows s.ring s.emitPanicFrame.ring ∧ s.emitPanicFrame.readers = s.readers := by
  unfold emitPanicFrame
  split
  · exact ⟨.refl _, rfl⟩
  · exact ⟨((writeFmt_grows _ _).trans (writeBytes_grows _ _)).trans (writeBytes_grows _ _), rfl⟩

theorem flushPendingPanic_grows (s : LogServer) (forceFinish : Bool) :
    Grows s.ring (s.flushPendingPanic forceFinish).ring ∧ (s.flushPendingPanic forceFinish).readers = s.readers := by
  unfold flushPendingPanic
  split
  · exact ⟨.refl _, rfl⟩
  split
  · split <;> exact ⟨.refl _, rfl⟩
  · exact emitPanicFrame_grows s

/-- What a request for the log does to a slot: nothing but leaving the request there, unless the
slot was free and is taken. -/
inductive Requested (ring : RingStore) (r r' : LogReader) : Prop
  | same (h : r' = r)
  | waits (hpid : r'.pid = r.pid) (hoff : r'.readOffset = r.readOffset) (hown : r.pid ≠ none)
  | takes (hfree : r.pid = none) (hpid : r'.pid ≠ none)
      (hoff : ring.bufferFilled = false → r'.readOffset = 0)

theorem takeSlot_requested (ring : RingStore) (pid : PID) (envelope : Envelope) (readers : List LogReader) :
    ∀ (i : Nat) (r' : LogReader), (takeSlot ring pid envelope readers)[i]? = some r' →
      ∃ r, readers[i]? = some r ∧ Requested ring r r' := by
  induction readers with
  | nil => simp [takeSlot]
  | cons reader rest ih =>
    intro i r' hr'
    have hsame : ∀ j, rest[j]? = some r' → ∃ r, (reader :: rest)[j + 1]? = some r ∧ Requested ring r r' :=
      fun j hj => ⟨r', by simpa using hj, .same rfl⟩
    unfold takeSlot at hr'
    dsimp only at hr'
    by_cases hfree : reader.pid = none
    · have hnone : reader.pid.isNone = true := by simp [hfree]
      simp only [hnone, if_true] at hr'
      cases i with
      | zero =>
        cases hr'
        refine ⟨reader, rfl, .takes hfree (by simp) fun hfilled => ?_⟩
        simp [hfilled]
      | succ j => exact hsame j (by simpa using hr')
    · have hnone : ¬ reader.pid.isNone = true := by simp [hfree]
      simp only [if_neg hnone] at hr'
      by_cases hown : reader.pid = some pid
      · rw [if_pos hown] at hr'
        cases i with
        | zero =>
          cases hr'
          exact ⟨reader, rfl, .waits rfl rfl hfree⟩
        | succ j => exact hsame j (by simpa using hr')
      · rw [if_neg hown] at hr'
        cases i with
        | zero => exact ⟨r', by simpa using hr', .same rfl⟩
        | succ j => exact ih j r' (by simpa using hr')

/-- **What handling a message does**: it writes to the ring, or leaves a request in a slot. -/
structure Handles (s m : LogServer) : Prop where
  ring : Grows s.ring m.ring
  readers : ∀ (i : Nat) (r' : LogReader), m.readers[i]? = some r' → ∃ r, s.readers[i]? = some r ∧ Requested m.ring r r'

theorem Handles.of_readers (hring : Grows s.ring m.ring) (h : m.readers = s.readers) : Handles s m :=
  ⟨hring, fun _ r' hr' => ⟨r', h ▸ hr', .same rfl⟩⟩

theorem handleMessage_handles {opcode : Opcode} {envelope : Envelope}
    (h : s.handleMessage opcode envelope = some m) : Handles s m := by
  obtain ⟨hgrows, hreaders⟩ := flushPendingPanic_grows s false
  unfold handleMessage at h
  split at h
  · dsimp only at h
    split at h <;> cases h
    · exact .of_readers hgrows hreaders
    · exact .of_readers (hgrows.trans (writeTerminated_grows _ _)) hreaders
  · dsimp only at h
    split at h <;> cases h
    · exact .of_readers hgrows hreaders
    · exact .of_readers (hgrows.trans (writeTerminated_grows _ _)) hreaders
  · cases h
    exact .of_readers (.refl _) rfl
  · obtain ⟨pid, -, rfl⟩ := Option.map_eq_some_iff.mp h
    exact .of_readers hgrows hreaders
  · cases h
    exact .of_readers (.refl _) rfl
  · split at h
    · cases h
      exact .of_readers (.refl _) rfl
    · split at h <;> cases h <;> exact .of_readers (.refl _) rfl
  · cases h
    exact .of_readers (flushPendingPanic_grows s true).1 (flushPendingPanic_grows s true).2
  · split at h
    · cases h
      exact .of_readers (.refl _) rfl
    · cases h
      exact ⟨.refl _, takeSlot_requested _ _ _ _⟩
  · split at h <;> cases h <;> exact .of_readers (.refl _) rfl

variable {counter : Nat}

theorem handle_handles {envelope : Envelope} (h : s.handle counter envelope = some m) :
    Handles s m := by
  unfold handle at h
  dsimp only at h
  generalize hs1 : (if counter % 4096 = 0 then
      { s with ring := s.ring.logInternal ["[LOG] Counter tick: ", toString counter] } else s) = s1 at h
  have htick : Grows s.ring s1.ring ∧ s1.readers = s.readers := by
    rw [← hs1]
    split
    · exact ⟨logInternal_grows _ _, rfl⟩
    · exact ⟨.refl _, rfl⟩
  suffices hs : Handles s1 m from ⟨htick.1.trans hs.ring, fun i r' hr' => htick.2 ▸ hs.readers i r' hr'⟩
  split at h
  · exact handleMessage_handles h
  · cases h
    exact .of_readers (logInternal_grows _ _) rfl

theorem boot_good (pid : Nat) (serverAddr : String) : Good (boot pid serverAddr).ring :=
  (logInternal_grows _ _).good ((logInternal_grows _ _).good empty_good)

/-! ## 4. Runs -/

/-- What the reader in slot `i` gets by `send_logs`. -/
def sentTo (m : LogServer) (i : Nat) : Bytes := LogReader.sentBytes (m.answer i)

/-- The reader in slot `i` has got `got` so far, and from here on always a beginning of what was
written; all of it whenever its buffer is not filled. -/
def ReaderRun (i : Nat) (s : LogServer) (counter : Nat) (got : Bytes) : List Envelope → Prop
  | [] => got <+: s.ring.written
  | e :: es => got <+: s.ring.written ∧
    ∀ m, s.handle counter e = some m →
      (∀ a, m.answer i = some a → a.sent.length < a.room → got ++ a.sent = m.ring.written) ∧
      ReaderRun i m.sendLogs (counter + 1) (got ++ m.sentTo i) es

/-- The reader in slot `i` takes the slot before the ring has been filled, and never has a whole
ring of unread bytes. -/
def KeepsUp (i : Nat) (s : LogServer) (counter : Nat) (got : Bytes) : List Envelope → Prop
  | [] => True
  | e :: es => ∀ m, s.handle counter e = some m →
    (∀ r r', s.readers[i]? = some r → m.readers[i]? = some r' → r.pid = none → r'.pid ≠ none →
      m.ring.bufferFilled = false) ∧
    m.ring.written.length < got.length + ringbufferSize ∧
    KeepsUp i m.sendLogs (counter + 1) (got ++ m.sentTo i) es

/-- Whenever `send_logs` is called, the last write did not end at the end of the ring or the
reader in slot `i` has no more room than there is to read. -/
def ClearRun (i : Nat) (s : LogServer) (counter : Nat) : List Envelope → Prop
  | [] => True
  | e :: es => ∀ m, s.handle counter e = some m →
    (∀ r, m.readers[i]? = some r → r.Clear m.ring) ∧ ClearRun i m.sendLogs (counter + 1) es

/-- What holds of the reader in slot `i` between messages. -/
structure Follows (s : LogServer) (i : Nat) (got : Bytes) : Prop where
  good : Good s.ring
  isPrefix : got <+: s.ring.written
  tracks : ∀ r, s.readers[i]? = some r → r.Tracks s.ring got

theorem Requested.tracks {ring₀ ring : RingStore} (h : Requested ring r r') (hgrows : Grows ring₀ ring)
    (htracks : r.Tracks ring₀ got) (hearly : r.pid = none → r'.pid ≠ none → ring.bufferFilled = false) :
    r'.Tracks ring got := by
  obtain ⟨hpre, hoff, hidle⟩ := htracks
  have hpre' := hpre.trans hgrows.written
  cases h with
  | same h => exact h ▸ ⟨hpre', hoff, hidle⟩
  | waits hpid hoff' hown => exact ⟨hpre', hoff'.trans hoff, fun hnone => absurd (hpid ▸ hnone) hown⟩
  | takes hfree hpid hoff' =>
    refine ⟨hpre', ?_, fun hnone => absurd hnone hpid⟩
    rw [hoff' (hearly hfree hpid), (hidle hfree).2]
    rfl

@[simp] theorem sendLogs_ring (m : LogServer) : m.sendLogs.ring = m.ring := rfl

theorem answer_eq (hr : m.readers[i]? = some r) : m.answer i = (r.send m.ring).2 := by
  simp [answer, hr]

theorem answer_none (hr : m.readers[i]? = none) : m.answer i = none := by
  simp [answer, hr]

/-- **One message**: the reader goes on following the stream exactly if nothing is sent twice. -/
theorem Follows.sendLogs (h : Follows m i got) (hkeeps : m.ring.written.length < got.length + ringbufferSize)
    (hclear : ∀ r, m.readers[i]? = some r → r.Clear m.ring) :
    Follows m.sendLogs i (got ++ m.sentTo i) ∧
      ∀ a, m.answer i = some a → a.sent.length < a.room → got ++ a.sent = m.ring.written := by
  cases hr : m.readers[i]? with
  | none =>
    have hnone := answer_none hr
    refine ⟨⟨h.good, ?_, fun r' hr' => ?_⟩, by simp [hnone]⟩
    · simpa [sentTo, hnone, LogReader.sentBytes] using h.isPrefix
    · simp [LogServer.sendLogs, hr] at hr'
  | some r =>
    obtain ⟨htracks, hall⟩ := LogReader.send_clear h.good (h.tracks r hr) hkeeps (hclear r hr)
    rw [sentTo, answer_eq hr]
    refine ⟨⟨h.good, htracks.isPrefix, fun r' hr' => ?_⟩, hall⟩
    have hr'eq : (r.send m.ring).1 = r' := by simpa [LogServer.sendLogs, hr] using hr'
    exact hr'eq ▸ htracks

theorem Follows.handles (h : Follows s i got) (hm : Handles s m)
    (hearly : ∀ r r', s.readers[i]? = some r → m.readers[i]? = some r' → r.pid = none → r'.pid ≠ none →
      m.ring.bufferFilled = false) : Follows m i got := by
  refine ⟨hm.ring.good h.good, h.isPrefix.trans hm.ring.written, fun r' hr' => ?_⟩
  obtain ⟨r, hr, hreq⟩ := hm.readers i r' hr'
  exact hreq.tracks hm.ring (h.tracks r hr) (hearly r r' hr hr')

theorem ReaderRun.isPrefix {es : List Envelope} (h : ReaderRun i s counter got es) : got <+: s.ring.written := by
  cases es with
  | nil => exact h
  | cons => exact h.1

theorem readerRun_iff_of_follows (es : List Envelope) (h : Follows s i got) (hkeeps : KeepsUp i s counter got es) :
    ReaderRun i s counter got es ↔ ClearRun i s counter es := by
  induction es generalizing s counter got with
  | nil => exact iff_of_true h.isPrefix trivial
  | cons e es ih =>
    constructor
    · rintro ⟨-, hrun⟩ m hm
      obtain ⟨hearly, hlen, hkeeps'⟩ := hkeeps m hm
      obtain ⟨-, hnext⟩ := hrun m hm
      have hfollows := h.handles (handle_handles hm) hearly
      have hclear : ∀ r, m.readers[i]? = some r → r.Clear m.ring := by
        intro r hr
        by_contra hbad
        have hlong := LogReader.send_not_clear hfollows.good (hfollows.tracks r hr) hlen hbad
        rw [← answer_eq hr] at hlong
        exact absurd hnext.isPrefix.length_le (not_le.mpr hlong)
      exact ⟨hclear, (ih (hfollows.sendLogs hlen hclear).1 hkeeps').mp hnext⟩
    · intro hclear
      refine ⟨h.isPrefix, fun m hm => ?_⟩
      obtain ⟨hearly, hlen, hkeeps'⟩ := hkeeps m hm
      obtain ⟨hclear1, hnext⟩ := hclear m hm
      obtain ⟨hfollows, hall⟩ := (h.handles (handle_handles hm) hearly).sendLogs hlen hclear1
      exact ⟨hall, (ih hfollows hkeeps').mpr hnext⟩

theorem boot_follows (pid : Nat) (serverAddr : String) (i : Nat) : Follows (boot pid serverAddr) i [] := by
  refine ⟨boot_good pid serverAddr, List.nil_prefix, fun r hr => ?_⟩
  have hempty : r = .empty := by
    have hmem : r ∈ [LogReader.empty, .empty, .empty, .empty] := List.mem_of_getElem? hr
    simpa using hmem
  rw [hempty]
  exact ⟨List.nil_prefix, rfl, fun _ => ⟨rfl, rfl⟩⟩

/-- **A reader that keeps up gets the log**, a beginning of the stream at every moment and all of
it when its buffer is not filled, if and only if it never waits with room to spare while the
write cursor stands at the end of the ring. -/
theorem readerRun_iff (pid : Nat) (serverAddr : String) (i : Nat) (es : List Envelope)
    (hkeeps : KeepsUp i (boot pid serverAddr) 0 [] es) :
    ReaderRun i (boot pid serverAddr) 0 [] es ↔ ClearRun i (boot pid serverAddr) 0 es :=
  readerRun_iff_of_follows es (boot_follows pid serverAddr i) hkeeps

/-! ## 5. A ring sent twice -/

/-- Process 5 asks for the log with a buffer of `n` bytes. -/
def readRequest (n : Nat) : Envelope := ⟨PID.new 5, .mutableBorrow ⟨2000, List.replicate n 0, none, none⟩⟩

/-- Process 6 writes a line of `n` bytes. -/
def writeLine (n : Nat) : Envelope := ⟨PID.new 6, .borrow ⟨1, List.replicate n 65, none, NonZeroUsize.new n⟩⟩

/-- The reader has registered, and 84 bytes of the server's own are waiting. -/
def registered : LogServer := ((boot 3 "0").handle 0 (readRequest 100)).getD start

/-- A line has come that ends at the end of the ring. -/
def lineWritten : LogServer := (registered.sendLogs.handle 1 (writeLine 16299)).getD start

/-- The reader asks again, with room for one byte more than there is. -/
def askedAgain : LogServer := (lineWritten.sendLogs.handle 2 (readRequest 16301)).getD start

theorem handle_registered : (boot 3 "0").handle 0 (readRequest 100) = some registered := rfl

theorem handle_lineWritten : registered.sendLogs.handle 1 (writeLine 16299) = some lineWritten := rfl

theorem handle_askedAgain : lineWritten.sendLogs.handle 2 (readRequest 16301) = some askedAgain := rfl

theorem registered_good : Good registered.ring := (handle_handles handle_registered).ring.good (boot_good _ _)

theorem lineWritten_good : Good lineWritten.ring := (handle_handles handle_lineWritten).ring.good registered_good

theorem askedAgain_good : Good askedAgain.ring := (handle_handles handle_askedAgain).ring.good lineWritten_good

theorem registered_offsets : registered.ring.bufferFilled = false ∧ registered.ring.writeOffset = 84 ∧
    (registered.sentTo 0).length = 84 := by decide +kernel

theorem lineWritten_offsets : lineWritten.ring.bufferFilled = false ∧ lineWritten.ring.writeOffset = 16384 := by
  decide +kernel

theorem askedAgain_offsets : askedAgain.ring.bufferFilled = false ∧ askedAgain.ring.writeOffset = 16384 ∧
    (askedAgain.readers[0]?).map (fun r => (r.readOffset, r.room)) = some (84, some 16301) := by decide +kernel

theorem repeat_keepsUp : KeepsUp 0 (boot 3 "0") 0 [] [readRequest 100, writeLine 16299, readRequest 16301] := by
  obtain ⟨hfill1, hoff1, hsent⟩ := registered_offsets
  obtain ⟨hfill2, hoff2⟩ := lineWritten_offsets
  obtain ⟨hfill3, hoff3, -⟩ := askedAgain_offsets
  have hlen1 := registered_good.unfilled hfill1
  have hlen2 := lineWritten_good.unfilled hfill2
  have hlen3 := askedAgain_good.unfilled hfill3
  intro m hm
  obtain rfl := Option.some.inj (handle_registered.symm.trans hm)
  refine ⟨fun _ _ _ _ _ _ => hfill1, ?_, fun m hm => ?_⟩
  · rw [← hlen1, hoff1]
    decide
  obtain rfl := Option.some.inj (handle_lineWritten.symm.trans hm)
  refine ⟨fun _ _ _ _ _ _ => hfill2, ?_, fun m hm => ?_⟩
  · rw [← hlen2, hoff2, List.length_append, hsent]
    decide
  obtain rfl := Option.some.inj (handle_askedAgain.symm.trans hm)
  refine ⟨fun _ _ _ _ _ _ => hfill3, ?_, trivial⟩
  rw [← hlen3, hoff3, List.length_append, List.length_append, hsent, ringbufferSize]
  omega

theorem repeat_readerRun_iff : ReaderRun 0 (boot 3 "0") 0 [] [readRequest 100, writeLine 16299, readRequest 16301] ↔
      ClearRun 0 (boot 3 "0") 0 [readRequest 100, writeLine 16299, readRequest 16301] :=
  readerRun_iff 3 "0" 0 _ repeat_keepsUp

/-- **A reader that keeps up gets the ring twice**: after 84 bytes it has read, a line of 16300
bytes ends at the end of the ring, and its next request has room for more. -/
theorem ring_sent_twice : KeepsUp 0 (boot 3 "0") 0 [] [readRequest 100, writeLine 16299, readRequest 16301] ∧
      ¬ ReaderRun 0 (boot 3 "0") 0 [] [readRequest 100, writeLine 16299, readRequest 16301] := by
  refine ⟨repeat_keepsUp, ?_⟩
  rw [readerRun_iff_of_follows _ (boot_follows _ _ _) repeat_keepsUp]
  intro hclear
  obtain ⟨-, hoff, hreader⟩ := askedAgain_offsets
  obtain ⟨r, hr, hroom⟩ := Option.map_eq_some_iff.mp hreader
  have hbad := (((hclear _ handle_registered).2 _ handle_lineWritten).2 _ handle_askedAgain).1 r hr hoff
    16301 (congrArg Prod.snd hroom)
  rw [show r.readOffset = 84 from congrArg Prod.fst hroom] at hbad
  exact absurd hbad (by decide)

end LogServer

end BeetKernel.Log

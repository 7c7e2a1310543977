/-
# The words that cross the system-call boundary

A system call and its result travel as eight machine words.  This file has the fields those
words are made of, each with the way the source writes it into a word and reads it back, and
the lemma that reading undoes writing.  The two tables of calls and of results are in
`Abi/Calls.lean` and `Abi/Results.lean`; they use these lemmas and never look inside a field.

A cast to a narrower type (`a1 as u32`, `a4 as u8`) truncates, as in the source.
-/
import BeetKernel.Kernel.State

namespace BeetKernel.Abi

/-- `[usize; 8]`: the eight registers of a call or of a result. -/
structure Words where
  a0 : Nat
  a1 : Nat
  a2 : Nat
  a3 : Nat
  a4 : Nat
  a5 : Nat
  a6 : Nat
  a7 : Nat
deriving DecidableEq

/-- Reading a value out of words: it may be refused with an error, and it may panic. -/
abbrev Decode := Exec Unit Error

/-- `usize::MAX` -/
def usizeMax : Nat := 2 ^ 64 - 1

/-! ## 1. Numbers -/

/-- `SID::from_u32` of four words, each cut to 32 bits. -/
def sidFromU32 (a0 a1 a2 a3 : Nat) : SID := ⟨UInt32.ofNat a0, UInt32.ofNat a1, UInt32.ofNat a2, UInt32.ofNat a3⟩

@[simp] theorem sidFromU32_toNat (s : SID) : sidFromU32 s.a0.toNat s.a1.toNat s.a2.toNat s.a3.toNat = s := by
  simp [sidFromU32]

/-- `PID::new(a as u8)` -/
def pidNew (a : Nat) : Option PID := PID.new (a % 256)

@[simp] theorem pidNew_get (p : PID) : pidNew p.get = some p := by
  rw [pidNew, Nat.mod_eq_of_lt p.lt, PID.new, dif_pos ⟨p.ne_zero, p.lt⟩]

@[simp] theorem pidNew_zero : pidNew 0 = none := rfl

/-- `a.map(|m| m.get() as usize).unwrap_or(0)` -/
def pidOrZero (p : Option PID) : Nat := (p.map PID.get).getD 0

@[simp] theorem pidNew_pidOrZero (p : Option PID) : pidNew (pidOrZero p) = p := by
  cases p with
  | none => rfl
  | some p => exact pidNew_get p

def pidFromUsize (src : Nat) : Decode PID :=
  if 255 < src then Exec.throw .invalidPID else Exec.okOr .invalidPID (PID.new src)

@[simp] theorem pidFromUsize_get (p : PID) : pidFromUsize p.get = pure p := by
  have hlt : ¬ 255 < p.get := by
    have := p.lt
    omega
  rw [pidFromUsize, if_neg hlt, PID.new, dif_pos ⟨p.ne_zero, p.lt⟩]
  rfl

@[simp] theorem nonZero_new_get (x : NonZeroUsize) : NonZeroUsize.new x.get = some x :=
  NonZeroUsize.new_of_ne_zero x.ne_zero

@[simp] theorem nonZero_new_zero : NonZeroUsize.new 0 = none := rfl

/-- `code as usize` for an `i32`, which extends the sign. -/
def i32AsUsize (code : Int32) : Nat := code.toInt64.toUInt64.toNat

/-- `a as i32` -/
def usizeAsI32 (a : Nat) : Int32 := Int32.ofNat a

@[simp] theorem usizeAsI32_i32AsUsize (code : Int32) : usizeAsI32 (i32AsUsize code) = code := by
  apply Int32.toBitVec_inj.1
  apply BitVec.eq_of_toNat_eq
  have hlt := code.toBitVec.isLt
  have hword : i32AsUsize code = (BitVec.signExtend 64 code.toBitVec).toNat := rfl
  have hcut : (usizeAsI32 (i32AsUsize code)).toBitVec = BitVec.ofNat 32 (i32AsUsize code) := rfl
  -- the upper half of the word is all sign bits, and the cut to 32 bits drops it
  rw [hcut, hword, BitVec.toNat_ofNat, BitVec.toNat_signExtend, BitVec.toNat_setWidth]
  split <;> omega

/-! ## 2. Ranges of memory -/

/-- `MemoryRange::new` -/
def memoryRangeNew (addr size : Nat) : Decode MemoryRange := do
  let addr ← Exec.okOr .badAddress (NonZeroUsize.new addr)
  let size ← Exec.okOr .badAddress (NonZeroUsize.new size)
  pure ⟨addr, size⟩

@[simp] theorem memoryRangeNew_get (r : MemoryRange) : memoryRangeNew r.addr.get r.size.get = pure r := by
  rw [memoryRangeNew, nonZero_new_get, nonZero_new_get]
  rfl

/-! ## 3. Memory flags -/

/-- `MemoryFlags`: any word.  Only the bits of the named constants mean something. -/
structure MemoryFlags where
  bits : Nat
deriving DecidableEq

namespace MemoryFlags

def populate : MemoryFlags := ⟨0b0000_0001⟩
def w : MemoryFlags := ⟨0b0000_0100⟩
def x : MemoryFlags := ⟨0b0000_1000⟩
def dev : MemoryFlags := ⟨0b0001_0000⟩
def noCache : MemoryFlags := ⟨0b0010_0000⟩
def plaintext : MemoryFlags := ⟨0b0100_0000⟩

def flagsAll : Nat := 0b0111_1101

def empty : MemoryFlags := ⟨0⟩

/-- `BitOr` of two sets of flags. -/
def union (f g : MemoryFlags) : MemoryFlags := ⟨f.bits ||| g.bits⟩

def fromBits (raw : Nat) : MemoryFlags := ⟨raw &&& flagsAll⟩

/-- The named constants. -/
def constants : List MemoryFlags := [populate, w, x, dev, noCache, plaintext]

/-- The flags are a union of named constants. -/
def Named (f : MemoryFlags) : Prop := ∃ l, l ⊆ constants ∧ f = l.foldr union empty

theorem fromBits_union (f g : MemoryFlags) : fromBits (union f g).bits = union (fromBits f.bits) (fromBits g.bits) := by
  simp [fromBits, union, Nat.and_or_distrib_right]

theorem fromBits_constant {f : MemoryFlags} (h : f ∈ constants) : fromBits f.bits = f := by
  simp only [constants, List.mem_cons, List.not_mem_nil, or_false] at h
  rcases h with rfl | rfl | rfl | rfl | rfl | rfl <;> rfl

/-- **The mask of the kernel covers every named constant.** -/
theorem Named.fromBits {f : MemoryFlags} (h : f.Named) : MemoryFlags.fromBits f.bits = f := by
  obtain ⟨l, hl, rfl⟩ := h
  induction l with
  | nil => rfl
  | cons g l ih =>
    have hg : g ∈ constants := hl List.mem_cons_self
    have hrest : l ⊆ constants := fun x hx => hl (List.mem_cons_of_mem g hx)
    rw [List.foldr_cons, fromBits_union, fromBits_constant hg, ih hrest]

end MemoryFlags

/-! ## 4. Application ids -/

/-- `AppId`: sixteen bytes. -/
structure AppId where
  bytes : Fin 16 → UInt8

def fromLeBytes (b0 b1 b2 b3 : UInt8) : UInt32 :=
  UInt32.ofNat (b0.toNat + 2 ^ 8 * b1.toNat + 2 ^ 16 * b2.toNat + 2 ^ 24 * b3.toNat)

/-- Byte `i` of `u32::to_le_bytes`. -/
def toLeBytes (word : UInt32) (i : Nat) : UInt8 := UInt8.ofNat (word.toNat / 2 ^ (8 * i))

/-- The word of `app_id.0[4 * i..4 * i + 4]`, one of the four of `<[u32; 4]>::from(app_id)`. -/
def AppId.word (id : AppId) (i : Fin 4) : UInt32 :=
  fromLeBytes (id.bytes ⟨4 * i, by omega⟩) (id.bytes ⟨4 * i + 1, by omega⟩)
    (id.bytes ⟨4 * i + 2, by omega⟩) (id.bytes ⟨4 * i + 3, by omega⟩)

/-- `AppId::from([u32; 4])`: byte `j` is byte `j % 4` of word `j / 4`. -/
def appIdFrom (words : Fin 4 → UInt32) : AppId := ⟨fun j => toLeBytes (words ⟨j / 4, by omega⟩) (j % 4)⟩

theorem toLeBytes_fromLeBytes (b0 b1 b2 b3 : UInt8) :
    toLeBytes (fromLeBytes b0 b1 b2 b3) 0 = b0 ∧ toLeBytes (fromLeBytes b0 b1 b2 b3) 1 = b1 ∧
      toLeBytes (fromLeBytes b0 b1 b2 b3) 2 = b2 ∧ toLeBytes (fromLeBytes b0 b1 b2 b3) 3 = b3 := by
  have h0 := b0.toNat_lt
  have h1 := b1.toNat_lt
  have h2 := b2.toNat_lt
  have h3 := b3.toNat_lt
  refine ⟨?_, ?_, ?_, ?_⟩ <;>
  · apply UInt8.toNat_inj.1
    simp only [toLeBytes, fromLeBytes, UInt8.toNat_ofNat', UInt32.toNat_ofNat']
    omega

/-- Each byte of the id is read back from the word it was written into. -/
theorem toLeBytes_word (id : AppId) (i : Fin 4) (j : Nat) (hj : j < 4) :
    toLeBytes (id.word i) j = id.bytes ⟨4 * i + j, by omega⟩ := by
  obtain ⟨h0, h1, h2, h3⟩ := toLeBytes_fromLeBytes (id.bytes ⟨4 * i, by omega⟩)
    (id.bytes ⟨4 * i + 1, by omega⟩) (id.bytes ⟨4 * i + 2, by omega⟩)
    (id.bytes ⟨4 * i + 3, by omega⟩)
  match j, hj with
  | 0, _ => exact h0
  | 1, _ => exact h1
  | 2, _ => exact h2
  | 3, _ => exact h3

@[simp] theorem appIdFrom_word (id : AppId) : appIdFrom id.word = id := by
  cases id with
  | mk bytes =>
    rw [appIdFrom, AppId.mk.injEq]
    funext j
    rw [toLeBytes_word _ _ _ (by omega)]
    congr 1
    apply Fin.ext
    show 4 * ((j : Nat) / 4) + (j : Nat) % 4 = j
    omega

/-- `[a1 as u32, a2 as u32, a3 as u32, a4 as u32]` -/
def fourU32 (a1 a2 a3 a4 : Nat) : Fin 4 → UInt32
  | 0 => UInt32.ofNat a1
  | 1 => UInt32.ofNat a2
  | 2 => UInt32.ofNat a3
  | 3 => UInt32.ofNat a4

@[simp] theorem fourU32_toNat (words : Fin 4 → UInt32) :
    fourU32 (words 0).toNat (words 1).toNat (words 2).toNat (words 3).toNat = words := by
  funext i
  match i with
  | 0 | 1 | 2 | 3 => simp [fourU32]

/-! ## 5. Enumerations

Each is read by a table with a default for the words that name no value. -/

/-- `ThreadPriority::from(usize)` -/
def threadPriorityFrom : Nat → ThreadPriority
  | 0 => .idle
  | 1 => .appBackground0
  | 2 => .appBackground1
  | 3 => .appDefault
  | 4 => .appHigh0
  | 5 => .appHigh1
  | 6 => .system0
  | 7 => .system1
  | 8 => .system2
  | 9 => .system3
  | 10 => .system4
  | 11 => .system5
  | 12 => .system6
  | 13 => .system7
  | 14 => .system8
  | 15 => .highest
  | _ => .appDefault

@[simp] theorem threadPriorityFrom_toIndex (p : ThreadPriority) : threadPriorityFrom p.toIndex = p := by
  cases p <;> rfl

inductive CacheOperation where
  | clean | invalidate | cleanAndInvalidate
deriving DecidableEq

namespace CacheOperation

/-- `op as usize` -/
def toUsize : CacheOperation → Nat
  | clean => 0
  | invalidate => 1
  | cleanAndInvalidate => 2

/-- `CacheOperation::from(usize)` -/
def fromUsize : Nat → CacheOperation
  | 0 => clean
  | 1 => invalidate
  | _ => cleanAndInvalidate

@[simp] theorem fromUsize_toUsize (op : CacheOperation) : fromUsize op.toUsize = op := by
  cases op <;> rfl

end CacheOperation

inductive DramIdleMode where
  | keepClocked | lowPower
deriving DecidableEq

namespace DramIdleMode

/-- `dram as usize` -/
def toUsize : DramIdleMode → Nat
  | keepClocked => 0
  | lowPower => 1

/-- `DramIdleMode::from(usize)` -/
def fromUsize : Nat → DramIdleMode
  | 1 => lowPower
  | _ => keepClocked

@[simp] theorem fromUsize_toUsize (mode : DramIdleMode) : fromUsize mode.toUsize = mode := by
  cases mode <;> rfl

end DramIdleMode

inductive SystemStat where
  | freeMemory | isSystemLowOnMemory
deriving DecidableEq

namespace SystemStat

/-- `stat as usize` -/
def toUsize : SystemStat → Nat
  | freeMemory => 0
  | isSystemLowOnMemory => 1

/-- `SystemStat::from(usize)` -/
def fromUsize : Nat → SystemStat
  | 0 => freeMemory
  | 1 => isSystemLowOnMemory
  | _ => freeMemory

@[simp] theorem fromUsize_toUsize (stat : SystemStat) : fromUsize stat.toUsize = stat := by
  cases stat <;> rfl

end SystemStat

/-- `event as usize` -/
def systemEventToUsize : SystemEvent → Nat
  | .childTerminated => 0
  | .disconnected => 1
  | .lowFreeMemory => 2

/-- `SystemEvent::from(usize)` -/
def systemEventFrom : Nat → SystemEvent
  | 1 => .disconnected
  | 2 => .lowFreeMemory
  | _ => .childTerminated

@[simp] theorem systemEventFrom_toUsize (event : SystemEvent) : systemEventFrom (systemEventToUsize event) = event := by
  cases event <;> rfl

end BeetKernel.Abi

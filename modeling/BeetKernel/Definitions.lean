/-
# The types processes and the kernel share

The part of the `xous` crate that crosses the system-call boundary: process ids, non-zero
addresses and sizes, errors, messages and envelopes.  A type the source makes non-zero is a
structure that carries the proof, so no value of the model is one the source cannot build.
`usize` is `Nat`; the few places where its width matters say so.
-/
import Mathlib.Data.Nat.Bitwise
import Mathlib.Data.Vector.Defs

namespace BeetKernel

/-! ## 1. Numbers that are not zero -/

/-- `NonZeroUsize`, the type behind `MemoryAddress` and `MemorySize`. -/
structure NonZeroUsize where
  get : Nat
  ne_zero : get ≠ 0
deriving DecidableEq

abbrev MemoryAddress := NonZeroUsize
abbrev MemorySize := NonZeroUsize

namespace NonZeroUsize

def new (n : Nat) : Option NonZeroUsize :=
  if h : n ≠ 0 then some ⟨n, h⟩ else none

/-- `x.map(|x| x.get()).unwrap_or(0)` -/
def getOrZero (x : Option NonZeroUsize) : Nat := (x.map get).getD 0

theorem new_of_ne_zero {n : Nat} (h : n ≠ 0) : new n = some ⟨n, h⟩ := dif_pos h

@[simp] theorem new_getOrZero (x : Option NonZeroUsize) : new (getOrZero x) = x := by
  cases x with
  | none => simp [new, getOrZero]
  | some x => simp [new, getOrZero, x.ne_zero]

end NonZeroUsize

/-- `PID`, a `NonZeroU8`. -/
structure PID where
  get : Nat
  ne_zero : get ≠ 0
  lt : get < 256
deriving DecidableEq

namespace PID

/-- `PID::new` of a value already truncated to a byte. -/
def new (n : Nat) : Option PID :=
  if h : n ≠ 0 ∧ n < 256 then some ⟨n, h.1, h.2⟩ else none

/-- The kernel's own process. -/
def kernel : PID := ⟨1, by decide, by decide⟩

/-- The sender shown for a message whose sender has terminated. -/
def terminated : PID := ⟨255, by decide, by decide⟩

end PID

/-- A thread number within its process. -/
abbrev TID := Nat
/-- A connection number. -/
abbrev CID := Nat
abbrev MessageId := Nat

/-- A server id: four 32-bit words. -/
structure SID where
  a0 : UInt32
  a1 : UInt32
  a2 : UInt32
  a3 : UInt32
deriving DecidableEq

/-- A thread of some process, as the kernel names it. -/
abbrev ThreadId := PID × TID

/-- `ThreadPriority`; the discriminants are the positions in this list. -/
inductive ThreadPriority where
  | idle | appBackground0 | appBackground1 | appDefault | appHigh0 | appHigh1 | system0 | system1
  | system2 | system3 | system4 | system5 | system6 | system7 | system8 | highest
deriving DecidableEq

/-! ## 2. Errors -/

inductive Error where
  | noError | badAlignment | badAddress | outOfMemory | memoryInUse | interruptNotFound
  | interruptInUse | invalidString | serverExists | serverNotFound | processNotFound
  | processNotChild | processTerminated | timeout | internalError | serverQueueFull
  | threadNotAvailable | unhandledSyscall | invalidSyscall | shareViolation | invalidThread
  | invalidPID | unknownError | accessDenied | again | doubleFree | debugInProgress
  | invalidLimit | parseError | invalidPhysicalAddress | invalidArguments
deriving DecidableEq

/-- `Error::to_usize`: the discriminant, except that `UnknownError` is `usize::MAX`. -/
def Error.toUsize : Error → Nat
  | .unknownError => 2 ^ 64 - 1
  | e => e.ctorIdx

/-! ## 3. Messages -/

structure MemoryRange where
  addr : MemoryAddress
  size : MemorySize
deriving DecidableEq

/-- A message that passes memory between processes. -/
structure MemoryMessage where
  id : MessageId
  buf : MemoryRange
  offset : Option MemoryAddress
  valid : Option MemorySize
deriving DecidableEq

structure ScalarMessage where
  id : MessageId
  arg1 : Nat
  arg2 : Nat
  arg3 : Nat
  arg4 : Nat
deriving DecidableEq

inductive Message where
  | mutableBorrow (m : MemoryMessage)
  | borrow (m : MemoryMessage)
  | move (m : MemoryMessage)
  | scalar (m : ScalarMessage)
  | blockingScalar (m : ScalarMessage)
deriving DecidableEq

namespace Message

def isBlocking : Message → Bool
  | mutableBorrow _ | borrow _ | blockingScalar _ => true
  | move _ | scalar _ => false

/-- The message lends memory, so the kernel has to know where the sender had it. -/
def isLend : Message → Bool
  | mutableBorrow _ | borrow _ => true
  | move _ | scalar _ | blockingScalar _ => false

def id : Message → MessageId
  | mutableBorrow m | borrow m | move m => m.id
  | scalar m | blockingScalar m => m.id

end Message

/-- `MessageSender`: the token a server replies to. -/
structure MessageSender where
  data : Nat
deriving DecidableEq

structure MessageEnvelope where
  sender : MessageSender
  body : Message
deriving DecidableEq

/-! ## 4. Ranges of message ids -/

/-- `core::ops::Range<MessageId>` -/
structure MessageRange where
  start : MessageId
  stop : MessageId
deriving DecidableEq

namespace MessageRange

def isEmpty (r : MessageRange) : Bool := decide (r.stop ≤ r.start)
def contains (r : MessageRange) (i : MessageId) : Bool := decide (r.start ≤ i ∧ i < r.stop)

end MessageRange

end BeetKernel

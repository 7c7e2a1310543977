/-
# Messages as a server process sees them

The `Message` of the `xous` crate on the receiving side: the buffer of a memory message is mapped
into the server, so its bytes stand for it here, where the kernel's model has an address range.
-/
import BeetKernel.Definitions

namespace BeetKernel.Service

abbrev Bytes := List UInt8

/-- `MemoryMessage` with the bytes of its buffer. -/
structure MemoryMessage where
  id : MessageId
  buf : Bytes
  offset : Option MemoryAddress
  valid : Option MemorySize
deriving DecidableEq

inductive Message where
  | mutableBorrow (m : MemoryMessage)
  | borrow (m : MemoryMessage)
  | move (m : MemoryMessage)
  | scalar (m : ScalarMessage)
  | blockingScalar (m : ScalarMessage)
deriving DecidableEq

namespace Message

def isBlocking : Message → Bool
  | mutableBorrow _ | borrow _ | blockingScalar _ => true
  | move _ | scalar _ => false

def hasMemory : Message → Bool
  | mutableBorrow _ | borrow _ | move _ => true
  | scalar _ | blockingScalar _ => false

def memoryMessage : Message → Option MemoryMessage
  | mutableBorrow m | borrow m | move m => some m
  | scalar _ | blockingScalar _ => none

/-- `Message::memory_message_mut`; an immutable borrow has none. -/
def memoryMessageMut : Message → Option MemoryMessage
  | mutableBorrow m | move m => some m
  | borrow _ | scalar _ | blockingScalar _ => none

def scalarMessage : Message → Option ScalarMessage
  | mutableBorrow _ | borrow _ | move _ => none
  | scalar m | blockingScalar m => some m

def id : Message → MessageId
  | mutableBorrow m | borrow m | move m => m.id
  | scalar m | blockingScalar m => m.id

end Message

/-- `MessageEnvelope`; of the sender only the process id is used. -/
structure Envelope where
  /-- `sender.pid()` -/
  sender : Option PID
  body : Message
deriving DecidableEq

end BeetKernel.Service

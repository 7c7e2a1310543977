/-
# A server and its message queue

The translation of `server.rs`.  A server's queue is an array of slots shared by two kinds
of entry: messages nobody has received yet, and replies the server still owes.  Slots are
NOT used in order.  `queue_head` says where the next search for an empty slot starts,
`queue_tail` where the next search for a message starts, and both wander; the order of the
messages is carried only by the `idx` of each slot, a wrapping `u8` generation.

On hardware the slots are the server's backing page read as an array; `init` takes that
array and the address it is at.
-/
import BeetKernel.Lib.Exec
import BeetKernel.Definitions

namespace BeetKernel

open NonZeroUsize (getOrZero)

/-! ## 1. Sender tokens -/

/-- The parts of a reply token: server table index, slot index, sending process. -/
structure SenderID where
  sidx : Nat
  idx : Nat
  pid : Option PID
deriving DecidableEq

namespace SenderID

/-- `From<SenderID> for usize` -/
def toUsize (v : SenderID) : Nat :=
  ((v.pid.map PID.get).getD 0) <<< 24 ||| ((v.sidx <<< 16) &&& 0x00ff0000) ||| (v.idx &&& 0xffff)

/-- `From<usize> for SenderID` -/
def ofUsize (item : Nat) : SenderID :=
  { sidx := (item >>> 16) &&& 0xff
    idx := item &&& 0xffff
    pid := PID.new ((item >>> 24) % 256) }

def toSender (v : SenderID) : MessageSender := ⟨v.toUsize⟩
def ofSender (m : MessageSender) : SenderID := ofUsize m.data

end SenderID

/-! ## 2. Slots -/

/-- `QueuedMessage`, one slot of the queue. -/
inductive QueuedMessage where
  | empty
  | blockingScalarMessage (pid : PID) (tid idx : UInt8) (msgId : Nat) (args : Vector Nat 4)
  | scalarMessage (pid : PID) (idx : UInt8) (msgId : Nat) (args : Vector Nat 4)
  | memoryMessageSend (pid : PID) (idx : UInt8) (msgId : Nat) (serverAddr : MemoryAddress)
      (bufSize : MemorySize) (offset valid : Nat)
  | memoryMessageROLend (pid : PID) (tid idx : UInt8) (msgId : Nat)
      (clientAddr serverAddr : MemoryAddress) (bufSize : MemorySize) (offset valid : Nat)
  | memoryMessageRWLend (pid : PID) (tid idx : UInt8) (msgId : Nat)
      (clientAddr serverAddr : MemoryAddress) (bufSize : MemorySize) (offset valid : Nat)
  | memoryMessageROLendTerminated (idx : UInt8) (msgId : Nat) (serverAddr : MemoryAddress)
      (bufSize : MemorySize) (offset valid : Nat)
  | memoryMessageRWLendTerminated (idx : UInt8) (msgId : Nat) (serverAddr : MemoryAddress)
      (bufSize : MemorySize) (offset valid : Nat)
  | blockingScalarTerminated (idx : UInt8) (msgId : Nat) (args : Vector Nat 4)
  | waitingReturnMemory (pid : PID) (tid : UInt8) (serverAddr clientAddr : MemoryAddress)
      (bufSize : MemorySize)
  | waitingForget (serverAddr : MemoryAddress) (bufSize : MemorySize)
  | waitingReturnScalar (pid : PID) (tid : UInt8)
  | waitingReturnScalarTerminated
deriving DecidableEq

/-- `WaitingMessage`: what a reply has to do. -/
inductive WaitingMessage where
  | none
  | borrowedMemory (pid : PID) (tid : TID) (clientAddr : MemoryAddress)
  | scalarMessage (pid : PID) (tid : TID)
  | scalarMessageTerminated
  | forgetMemory (range : MemoryRange)
deriving DecidableEq

/-! ## 3. Message permissions -/

def messagePermissionCount : Nat := 4

structure MessagePermissions where
  allowAll : Bool
  mask : BitVec 64
  list : Vector MessageRange 4
deriving DecidableEq

namespace MessagePermissions

/-- `Default for MessagePermissions` -/
def default : MessagePermissions :=
  { allowAll := true, mask := 0, list := Vector.replicate messagePermissionCount ⟨0, 0⟩ }

/-- The loop of `add` over the permission slots: join the first slot the range touches, or
take the first empty one. -/
def addToList (messages : MessageRange) : List MessageRange → Option (List MessageRange)
  | [] => none
  | slot :: rest =>
    if slot.start ≤ messages.stop ∧ messages.start ≤ slot.stop then
      some (⟨min slot.start messages.start, max slot.stop messages.stop⟩ :: rest)
    else if slot.isEmpty then some (messages :: rest)
    else (addToList messages rest).map (slot :: ·)

theorem addToList_length {messages : MessageRange} :
    ∀ {l l' : List MessageRange}, addToList messages l = some l' → l'.length = l.length
  | [], _, h => by simp [addToList] at h
  | slot :: rest, l', h => by
    unfold addToList at h
    split at h
    · cases h; simp
    · split at h
      · cases h; simp
      · cases hr : addToList messages rest with
        | none => simp [hr] at h
        | some r =>
          simp only [hr, Option.map_some, Option.some.injEq] at h
          subst h
          simp [addToList_length hr]

/-- `MessagePermissions::add`.  The flag and the mask are written BEFORE the slots are searched,
and stay written when no slot takes the range. -/
def add (p : MessagePermissions) (messages : MessageRange) : Except Error Unit × MessagePermissions :=
  if messages.isEmpty then (.error .invalidArguments, p)
  else
    let mask := (List.range' messages.start (min messages.stop 64 - messages.start)).foldl
      (fun m i => m ||| BitVec.twoPow 64 i) p.mask
    let p := { p with allowAll := false, mask := mask }
    if messages.stop ≤ 64 then (.ok (), p)
    else
      match h : addToList messages p.list.toList with
      | some l => (.ok (), { p with list := ⟨l.toArray, by simp [addToList_length h]⟩ })
      | none => (.error .outOfMemory, p)

def isPermitted (p : MessagePermissions) (messageId : MessageId) : Bool :=
  if p.allowAll then true
  else if messageId < 64 then p.mask.getLsbD messageId
  else p.list.toList.any (·.contains messageId)

end MessagePermissions

/-! ## 4. The server -/

structure Server where
  sid : SID
  pid : PID
  queueHead : Nat
  queueTail : Nat
  headGeneration : UInt8
  tailGeneration : UInt8
  emptyCount : Nat
  queueAddr : Nat
  queue : List QueuedMessage
  readyThreads : BitVec 64
  defaultPermissions : MessagePermissions
deriving DecidableEq

namespace Server

/-- `Server::init`, on the slots found in the backing memory at `backing`. -/
def init (new : Option Server) (pid : PID) (sid : SID) (backing : Nat)
    (queue : List QueuedMessage) (initialPermissions : MessageRange) : Except Error Server :=
  if new.isSome then .error .memoryInUse
  else do
    let defaultPermissions ←
      if initialPermissions.isEmpty then pure MessagePermissions.default
      else
        let added := MessagePermissions.default.add initialPermissions
        added.1.map fun _ => added.2
    pure
      { sid, pid, queueHead := 0, queueTail := 0, headGeneration := 0, tailGeneration := 0
        emptyCount := queue.length, queueAddr := backing, queue, readyThreads := 0
        defaultPermissions }

def isQueueFull (s : Server) : Bool := s.emptyCount == 0

/-- The position after slot `i`, back to the first slot at the end of the queue. -/
def nextIndex (s : Server) (i : Nat) : Nat := if i + 1 ≥ s.queue.length then 0 else i + 1

/-! ### Searching for an empty slot -/

/-- The search loop of `find_empty_slot` over the slot numbers still to visit. -/
def findEmptySlotIn : List Nat → Exec Server Error Nat
  | [] => Exec.throw .serverQueueFull
  | queueIdx :: rest => do
    let s ← Exec.get
    match s.queue[queueIdx]? with
    | none => Exec.panic "index out of bounds"
    | some .empty =>
      Exec.set { s with queueHead := s.nextIndex queueIdx }
      pure queueIdx
    | some _ => findEmptySlotIn rest

def findEmptySlot : Exec Server Error Nat := do
  let s ← Exec.get
  findEmptySlotIn (List.range' s.queueHead (s.queue.length - s.queueHead) ++ List.range s.queueHead)

/-! ### Sending -/

/-- The slot `queue_message` writes for a message of generation `idx`. -/
def messageSlot (pid : PID) (tid : TID) (idx : UInt8) (originalAddress : Option MemoryAddress) :
    Message → Except Error QueuedMessage
  | .scalar msg =>
    .ok (.scalarMessage pid idx msg.id #v[msg.arg1, msg.arg2, msg.arg3, msg.arg4])
  | .blockingScalar msg =>
    .ok (.blockingScalarMessage pid (.ofNat tid) idx msg.id #v[msg.arg1, msg.arg2, msg.arg3, msg.arg4])
  | .move msg =>
    .ok (.memoryMessageSend pid idx msg.id msg.buf.addr msg.buf.size (getOrZero msg.offset) (getOrZero msg.valid))
  | .mutableBorrow msg =>
    match originalAddress with
    | none => .error .invalidArguments
    | some clientAddr =>
      .ok (.memoryMessageRWLend pid (.ofNat tid) idx msg.id clientAddr msg.buf.addr msg.buf.size
        (getOrZero msg.offset) (getOrZero msg.valid))
  | .borrow msg =>
    match originalAddress with
    | none => .error .invalidArguments
    | some clientAddr =>
      .ok (.memoryMessageROLend pid (.ofNat tid) idx msg.id clientAddr msg.buf.addr msg.buf.size
        (getOrZero msg.offset) (getOrZero msg.valid))

def queueMessage (pid : PID) (tid : TID) (message : Message)
    (originalAddress : Option MemoryAddress) : Exec Server Error Nat := do
  let queueIdx ← findEmptySlot
  let s ← Exec.get
  match messageSlot pid tid s.tailGeneration originalAddress message with
  | .error e => Exec.throw e
  | .ok slot =>
    Exec.assert (s.emptyCount != 0) "attempt to subtract with overflow"
    let s' := { s with
      queue := s.queue.set queueIdx slot
      emptyCount := s.emptyCount - 1
      tailGeneration := s.tailGeneration + 1 }
    Exec.set s'
    Exec.assert (s'.tailGeneration != s'.headGeneration) "assertion `left != right` failed"
    pure queueIdx

/-- The slot `queue_response` writes: the reply owed for a message handed over directly. -/
def responseSlot (pid : PID) (tid : TID) (clientAddress : Option MemoryAddress) : Message → Except Error QueuedMessage
  | .scalar _ | .blockingScalar _ => .ok (.waitingReturnScalar pid (.ofNat tid))
  | .move msg => .ok (.waitingForget msg.buf.addr msg.buf.size)
  | .mutableBorrow msg | .borrow msg =>
    match clientAddress with
    | none => .error .invalidArguments
    | some clientAddr =>
      .ok (.waitingReturnMemory pid (.ofNat tid) msg.buf.addr clientAddr msg.buf.size)

def queueResponse (pid : PID) (tid : TID) (message : Message)
    (clientAddress : Option MemoryAddress) : Exec Server Error Nat := do
  let queueIdx ← findEmptySlot
  let s ← Exec.get
  match responseSlot pid tid clientAddress message with
  | .error e => Exec.throw e
  | .ok slot =>
    Exec.assert (s.emptyCount != 0) "attempt to subtract with overflow"
    Exec.set { s with queue := s.queue.set queueIdx slot, emptyCount := s.emptyCount - 1 }
    pure queueIdx

/-! ### Receiving -/

/-- The match of `take_next_message` on one slot: the envelope and what the slot becomes,
if it holds the message of generation `headGeneration`. -/
def takeSlot (headGeneration : UInt8) (sidx queueIdx : Nat) : QueuedMessage → Option (MessageEnvelope × QueuedMessage)
  | .memoryMessageROLend pid tid idx msgId clientAddr serverAddr bufSize offset valid =>
    if idx = headGeneration then
      some (⟨(SenderID.mk sidx queueIdx (some pid)).toSender,
          .borrow ⟨msgId, ⟨serverAddr, bufSize⟩, NonZeroUsize.new offset, NonZeroUsize.new valid⟩⟩,
        .waitingReturnMemory pid tid serverAddr clientAddr bufSize)
    else none
  | .memoryMessageRWLend pid tid idx msgId clientAddr serverAddr bufSize offset valid =>
    if idx = headGeneration then
      some (⟨(SenderID.mk sidx queueIdx (some pid)).toSender,
          .mutableBorrow ⟨msgId, ⟨serverAddr, bufSize⟩, NonZeroUsize.new offset, NonZeroUsize.new valid⟩⟩,
        .waitingReturnMemory pid tid serverAddr clientAddr bufSize)
    else none
  | .memoryMessageROLendTerminated idx msgId serverAddr bufSize offset valid =>
    if idx = headGeneration then
      some (⟨(SenderID.mk sidx queueIdx (some PID.terminated)).toSender,
          .borrow ⟨msgId, ⟨serverAddr, bufSize⟩, NonZeroUsize.new offset, NonZeroUsize.new valid⟩⟩,
        .waitingForget serverAddr bufSize)
    else none
  | .memoryMessageRWLendTerminated idx msgId serverAddr bufSize offset valid =>
    if idx = headGeneration then
      some (⟨(SenderID.mk sidx queueIdx (some PID.terminated)).toSender,
          .mutableBorrow ⟨msgId, ⟨serverAddr, bufSize⟩, NonZeroUsize.new offset, NonZeroUsize.new valid⟩⟩,
        .waitingForget serverAddr bufSize)
    else none
  | .blockingScalarMessage pid tid idx msgId args =>
    if idx = headGeneration then
      some (⟨(SenderID.mk sidx queueIdx (some pid)).toSender,
          .blockingScalar ⟨msgId, args[0], args[1], args[2], args[3]⟩⟩,
        .waitingReturnScalar pid tid)
    else none
  | .memoryMessageSend pid idx msgId serverAddr bufSize offset valid =>
    if idx = headGeneration then
      some (⟨(SenderID.mk sidx queueIdx (some pid)).toSender,
          .move ⟨msgId, ⟨serverAddr, bufSize⟩, NonZeroUsize.new offset, NonZeroUsize.new valid⟩⟩,
        .empty)
    else none
  | .scalarMessage pid idx msgId args =>
    if idx = headGeneration then
      some (⟨(SenderID.mk sidx queueIdx (some pid)).toSender, .scalar ⟨msgId, args[0], args[1], args[2], args[3]⟩⟩,
        .empty)
    else none
  | .blockingScalarTerminated idx msgId args =>
    if idx = headGeneration then
      some (⟨(SenderID.mk sidx queueIdx (some PID.terminated)).toSender,
          .blockingScalar ⟨msgId, args[0], args[1], args[2], args[3]⟩⟩,
        .waitingReturnScalarTerminated)
    else none
  | .empty | .waitingReturnMemory .. | .waitingForget .. | .waitingReturnScalar ..
  | .waitingReturnScalarTerminated => none

/-- The loop of `take_next_message`, at slot `queueIdx`.  One pass visits each slot once, so
the queue length bounds the iterations. -/
def takeNextFrom (sidx : Nat) : Nat → Nat → Exec Server Error (Option MessageEnvelope)
  | 0, _ => Exec.panic "out of fuel"
  | fuel + 1, queueIdx => do
    let s ← Exec.get
    match s.queue[queueIdx]? with
    | none => Exec.panic "index out of bounds"
    | some slot =>
      match takeSlot s.headGeneration sidx queueIdx slot with
      | some (result, response) =>
        Exec.set { s with
          queueTail := s.nextIndex queueIdx
          emptyCount := if response = .empty then s.emptyCount + 1 else s.emptyCount
          queue := s.queue.set queueIdx response
          headGeneration := s.headGeneration + 1 }
        pure (some result)
      | none =>
        if s.nextIndex queueIdx = s.queueTail then pure none
        else takeNextFrom sidx fuel (s.nextIndex queueIdx)

def takeNextMessage (sidx : Nat) : Exec Server Error (Option MessageEnvelope) := do
  let s ← Exec.get
  if s.tailGeneration = s.headGeneration then pure none
  else takeNextFrom sidx s.queue.length s.queueTail

/-! ### Replying -/

/-- The match of `take_waiting_message` on one slot: the reply it owes, or the error when the
returned buffer is not the one that was lent. -/
def waitingSlot (buf : Option MemoryRange) : QueuedMessage → Except Error WaitingMessage
  | .waitingReturnMemory pid tid serverAddr clientAddr bufSize =>
    if buf.all (fun b => decide (serverAddr = b.addr ∧ bufSize = b.size)) then
      .ok (.borrowedMemory pid tid.toNat clientAddr)
    else .error .badAddress
  | .waitingForget serverAddr bufSize =>
    if buf.all (fun b => decide (serverAddr = b.addr ∧ bufSize = b.size)) then
      .ok (.forgetMemory ⟨serverAddr, bufSize⟩)
    else .error .badAddress
  | .waitingReturnScalar pid tid => .ok (.scalarMessage pid tid.toNat)
  | .waitingReturnScalarTerminated => .ok .scalarMessageTerminated
  | _ => .ok .none

def takeWaitingMessage (messageIndex : Nat) (buf : Option MemoryRange) :
    Exec Server Error WaitingMessage := do
  let s ← Exec.get
  let currentVal ← Exec.okOr .badAddress s.queue[messageIndex]?
  match waitingSlot buf currentVal with
  | .error e => Exec.throw e
  | .ok .none => pure .none
  | .ok result =>
    Exec.set { s with
      queue := s.queue.set messageIndex .empty
      emptyCount := s.emptyCount + 1
      queueTail := s.nextIndex messageIndex }
    pure result

/-! ### When a client terminates -/

/-- The match of `discard_messages_for_pid` on one slot. -/
def discardSlot (pid : PID) : QueuedMessage → QueuedMessage
  | q@(.memoryMessageROLend msgPid _ idx msgId _ serverAddr bufSize offset valid) =>
    if msgPid = pid then
      .memoryMessageROLendTerminated idx msgId serverAddr bufSize offset valid
    else q
  | q@(.memoryMessageRWLend msgPid _ idx msgId _ serverAddr bufSize offset valid) =>
    if msgPid = pid then
      .memoryMessageRWLendTerminated idx msgId serverAddr bufSize offset valid
    else q
  | q@(.blockingScalarMessage msgPid _ idx msgId args) =>
    if msgPid = pid then .blockingScalarTerminated idx msgId args else q
  | q@(.waitingReturnMemory msgPid _ serverAddr _ bufSize) =>
    if msgPid = pid then .waitingForget serverAddr bufSize else q
  | q@(.waitingReturnScalar msgPid _) =>
    if msgPid = pid then .waitingReturnScalarTerminated else q
  | q => q

def discardMessagesForPid (pid : PID) (s : Server) : Server :=
  { s with queue := s.queue.map (discardSlot pid) }

/-! ### Parked receivers -/

/-- `Server::take_available_thread`: the lowest parked thread, taken off the mask. -/
def takeAvailableThread (s : Server) : Option (TID × Server) :=
  match (List.range 64).find? (s.readyThreads.getLsbD ·) with
  | none => none
  | some tid => some (tid, { s with readyThreads := s.readyThreads &&& ~~~ BitVec.twoPow 64 tid })

def returnAvailableThread (tid : TID) : Exec Server Error Unit := do
  let s ← Exec.get
  Exec.assert (!s.readyThreads.getLsbD tid) "tried to return context, but it was already blocking"
  Exec.set { s with readyThreads := s.readyThreads ||| BitVec.twoPow 64 tid }

def parkThread (tid : TID) : Exec Server Error Unit := do
  let s ← Exec.get
  Exec.assert (!s.readyThreads.getLsbD tid) "assertion failed: self.ready_threads & (1 << tid) == 0"
  Exec.set { s with readyThreads := s.readyThreads ||| BitVec.twoPow 64 tid }

end Server

/-- The generation and the body of the undelivered message in a slot, if there is one. -/
def QueuedMessage.pending : QueuedMessage → Option (UInt8 × Message)
  | .memoryMessageROLend _ _ idx msgId _ serverAddr bufSize offset valid
  | .memoryMessageROLendTerminated idx msgId serverAddr bufSize offset valid =>
    some (idx, .borrow ⟨msgId, ⟨serverAddr, bufSize⟩, NonZeroUsize.new offset, NonZeroUsize.new valid⟩)
  | .memoryMessageRWLend _ _ idx msgId _ serverAddr bufSize offset valid
  | .memoryMessageRWLendTerminated idx msgId serverAddr bufSize offset valid =>
    some (idx, .mutableBorrow ⟨msgId, ⟨serverAddr, bufSize⟩, NonZeroUsize.new offset, NonZeroUsize.new valid⟩)
  | .memoryMessageSend _ idx msgId serverAddr bufSize offset valid =>
    some (idx, .move ⟨msgId, ⟨serverAddr, bufSize⟩, NonZeroUsize.new offset, NonZeroUsize.new valid⟩)
  | .blockingScalarMessage _ _ idx msgId args
  | .blockingScalarTerminated idx msgId args =>
    some (idx, .blockingScalar ⟨msgId, args[0], args[1], args[2], args[3]⟩)
  | .scalarMessage _ idx msgId args =>
    some (idx, .scalar ⟨msgId, args[0], args[1], args[2], args[3]⟩)
  | .empty | .waitingReturnMemory .. | .waitingForget .. | .waitingReturnScalar ..
  | .waitingReturnScalarTerminated => none

end BeetKernel

/-
# The log server

`xous/log`: processes send it lines, which it keeps in a ring, and up to four readers ask for what
they have not seen yet.  A request waits in `read_msg` until there is something to send, and
`send_logs` looks for such requests after every message.

The text of a panic comes in pieces; it is collected in `last_panic_message` and written to the
ring when it is complete, or when the first ordinary line arrives.  The answer to
`ReadLastPanicMessage` is not modelled, only that the message is cleared.

The ring has one field the code does not have: `written`, everything that was ever written to it.
Nothing reads it but the statements about the server.
-/
import BeetKernel.Service.Message

namespace BeetKernel.Log

open Service

/-! ## 1. The ring -/

def ringbufferSize : Nat := 16 * 1024

def logRecordTerminator : UInt8 := 0x1e

structure RingStore where
  /-- The cells, by index below `RINGBUFFER_SIZE`. -/
  ringbuffer : Nat → UInt8
  writeOffset : Nat
  bufferFilled : Bool
  /-- Everything written so far; not a field of the source. -/
  written : Bytes

/-- `ringbuffer[off..off + b.len()].copy_from_slice(b)` -/
def copyInto (ring : Nat → UInt8) (off : Nat) (b : Bytes) : Nat → UInt8 := fun p =>
  if off ≤ p ∧ p < off + b.length then b.getD (p - off) 0 else ring p

/-- `ringbuffer[off..off + len]` -/
def cells (ring : Nat → UInt8) (off len : Nat) : Bytes := (List.range len).map fun j => ring (off + j)

namespace RingStore

/-- The ring of the static `SERVER`. -/
def empty : RingStore := ⟨fun _ => 0, 0, false, []⟩

def writeBytes (r : RingStore) (b : Bytes) : RingStore :=
  let len := min b.length ringbufferSize
  -- from the cursor to the end
  let part1 := min len (ringbufferSize - r.writeOffset)
  let ring := copyInto r.ringbuffer r.writeOffset (b.take part1)
  -- from the beginning
  let part2 := len - part1
  let ring := if part2 > 0 then copyInto ring 0 ((b.drop part1).take part2) else ring
  let writeOffset := r.writeOffset + len
  { ringbuffer := ring
    writeOffset := if writeOffset > ringbufferSize then writeOffset % ringbufferSize else writeOffset
    bufferFilled := r.bufferFilled || decide (writeOffset > ringbufferSize)
    written := r.written ++ b.take len }

def writeTerminated (r : RingStore) (payload : Bytes) : RingStore :=
  (r.writeBytes payload).writeBytes [logRecordTerminator]

/-- `core::fmt::write`, which writes the pieces of the text one by one. -/
def writeFmt (r : RingStore) (pieces : List String) : RingStore :=
  pieces.foldl (fun r s => r.writeBytes s.toUTF8.toList) r

def logInternal (r : RingStore) (pieces : List String) : RingStore :=
  (r.writeFmt pieces).writeBytes [logRecordTerminator]

end RingStore

/-! ## 2. Panic messages -/

def panicMessageSize : Nat := 1024

/-- `PanicMessage`; `body` is `buf[..len]`. -/
structure PanicMessage where
  pid : Option PID
  body : Bytes
  inProgress : Bool

namespace PanicMessage

/-- `PanicMessage::new`, and what `clear` leaves. -/
def new : PanicMessage := ⟨none, [], false⟩

def write (m : PanicMessage) (b : Bytes) : PanicMessage :=
  { m with body := m.body ++ b.take (min b.length (panicMessageSize - m.body.length)) }

def begin (pid : PID) : PanicMessage := ⟨some pid, [], true⟩

def finish (m : PanicMessage) : PanicMessage := { m with inProgress := false }

end PanicMessage

/-! ## 3. Readers -/

structure LogReader where
  pid : Option PID
  readOffset : Nat
  readMsg : Option Envelope

namespace LogReader

/-- `EMPTY_LOG_READER` -/
def empty : LogReader := ⟨none, 0, none⟩

/-- What `send_logs` sends to a reader. -/
structure Answer where
  /-- The length of the reader's buffer. -/
  room : Nat
  /-- The bytes written to it. -/
  sent : Bytes

/-- One round of the loop of `send_logs`. -/
def send (ring : RingStore) (r : LogReader) : LogReader × Option Answer :=
  if r.readOffset = ring.writeOffset then (r, none)
  else match r.readMsg with
    | none => (r, none)
    | some envelope =>
      let r := { r with readMsg := none }
      match envelope.body.memoryMessageMut with
      | none => (r, none)
      | some mem =>
        -- from the reader's cursor to the end or to the write cursor
        let part1End := if r.readOffset ≤ ring.writeOffset then ring.writeOffset else ringbufferSize
        let part1Len := min (part1End - r.readOffset) mem.buf.length
        let sent := cells ring.ringbuffer r.readOffset part1Len
        let readOffset := (r.readOffset + part1Len) % ringbufferSize
        -- from the beginning to the write cursor
        if readOffset = 0 then
          let part2Len := min ring.writeOffset (mem.buf.length - part1Len)
          ({ r with readOffset := part2Len }, some ⟨mem.buf.length, sent ++ cells ring.ringbuffer 0 part2Len⟩)
        else ({ r with readOffset := readOffset }, some ⟨mem.buf.length, sent⟩)

end LogReader

/-! ## 4. The server -/

structure LogServer where
  ring : RingStore
  readers : List LogReader
  lastPanicMessage : PanicMessage

/-- The opcodes of the server; `panicMessage n` stands for `PanicMessage0` to `PanicMessage32`. -/
inductive Opcode where
  | standardOutput
  | standardError
  | programName
  | panicStarted
  | panicMessage (n : Nat)
  | panicFinished
  | readLogs
  | readLastPanicMessage
deriving DecidableEq

def Opcode.fromUsize (n : Nat) : Option Opcode :=
  if n = 1 then some .standardOutput
  else if n = 2 then some .standardError
  else if n = 3 then some .programName
  else if n = 1000 then some .panicStarted
  else if 1100 ≤ n ∧ n ≤ 1132 then some (.panicMessage (n - 1100))
  else if n = 1200 then some .panicFinished
  else if n = 2000 then some .readLogs
  else if n = 3000 then some .readLastPanicMessage
  else none

def toLeBytes (n : Nat) : Bytes := (List.range 8).map fun i => UInt8.ofNat (n / 256 ^ i)

namespace LogServer

/-- The static `SERVER`. -/
def start : LogServer := ⟨.empty, [.empty, .empty, .empty, .empty], .new⟩

/-- The server when its loop starts: two lines are in the ring. -/
def boot (pid : Nat) (serverAddr : String) : LogServer := { start with
    ring := (start.ring.logInternal ["[LOG] Starting with PID ", toString pid]).logInternal
      ["[LOG] Server listening on address ", serverAddr] }

def emitPanicFrame (s : LogServer) : LogServer :=
  match s.lastPanicMessage.pid with
  | none => s
  | some pid =>
    let ring := s.ring.writeFmt ["PANIC in PID ", toString pid.get, ": "]
    { s with ring := (ring.writeBytes s.lastPanicMessage.body).writeBytes [logRecordTerminator] }

def flushPendingPanic (s : LogServer) (forceFinish : Bool) : LogServer :=
  if !s.lastPanicMessage.inProgress then s
  else if s.lastPanicMessage.body.isEmpty then
    if forceFinish then { s with lastPanicMessage := s.lastPanicMessage.finish } else s
  else
    let s := s.emitPanicFrame
    { s with lastPanicMessage := s.lastPanicMessage.finish }

/-- The loop of `ReadLogs` over the readers: the first slot that is the sender's own or free. -/
def takeSlot (ring : RingStore) (pid : PID) (envelope : Envelope) : List LogReader → List LogReader
  | [] => []
  | reader :: rest =>
    let reader := if reader.pid.isNone then
        { reader with
          pid := some pid
          readOffset := if ring.bufferFilled then (ring.writeOffset + 1) % ringbufferSize else 0 }
      else reader
    if reader.pid = some pid then { reader with readMsg := some envelope } :: rest
    else reader :: takeSlot ring pid envelope rest

/-- `handle_message`; `none` is a panic. -/
def handleMessage (s : LogServer) (opcode : Opcode) (envelope : Envelope) : Option LogServer :=
  match opcode with
  | .standardOutput | .standardError =>
    let s := s.flushPendingPanic false
    match envelope.body.memoryMessage with
    | none => some s
    | some mem =>
      let len := min (NonZeroUsize.getOrZero mem.valid) mem.buf.length
      some { s with ring := s.ring.writeTerminated (mem.buf.take len) }
  | .programName => some s
  | .panicStarted =>
    let s := s.flushPendingPanic false
    envelope.sender.map fun pid => { s with lastPanicMessage := .begin pid }
  | .panicMessage 0 => some s
  | .panicMessage n =>
    if !s.lastPanicMessage.inProgress then some s
    else match envelope.body.scalarMessage with
      | none => some s
      | some m =>
        let output := toLeBytes m.arg1 ++ toLeBytes m.arg2 ++ toLeBytes m.arg3 ++ toLeBytes m.arg4
        some { s with lastPanicMessage := s.lastPanicMessage.write (output.take n) }
  | .panicFinished => some (s.flushPendingPanic true)
  | .readLogs =>
    match envelope.sender with
    | none => some s
    | some pid => some { s with readers := takeSlot s.ring pid envelope s.readers }
  | .readLastPanicMessage =>
    match envelope.body.memoryMessageMut with
    | none => some s
    | some _ => some { s with lastPanicMessage := .new }

def sendLogs (s : LogServer) : LogServer :=
  { s with readers := s.readers.map fun r => (r.send s.ring).1 }

/-- What `send_logs` sends to the reader in slot `i`. -/
def answer (s : LogServer) (i : Nat) : Option LogReader.Answer := (s.readers[i]?).bind fun r => (r.send s.ring).2

/-- One iteration of the loop of `run`, up to `send_logs`. -/
def handle (s : LogServer) (counter : Nat) (envelope : Envelope) : Option LogServer :=
  let s := if counter % 4096 = 0 then
      { s with ring := s.ring.logInternal ["[LOG] Counter tick: ", toString counter] } else s
  match Opcode.fromUsize envelope.body.id with
  | some opcode => s.handleMessage opcode envelope
  | none => some { s with
      ring := s.ring.logInternal ["[LOG] Unrecognized opcode from process ",
        toString ((envelope.sender.map PID.get).getD 0), ": ", toString envelope.body.id] }

end LogServer

end BeetKernel.Log

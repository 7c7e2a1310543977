/-
# The block driver and its device

`platform/qemu_virt/blk.rs` on the queue of `Virtio.Queue`.  The device is the environment: it
takes chains from the available ring, works on those it has taken in any order and with any delay,
writes to their device-writable buffers as it likes until it is done with one, and then gives that
one back in the used ring.  What it will do is the script of a call, one batch of acts for every
point at which the driver's code goes on: `doBlockRequest` lets the next batch happen before each of
its stages and before each look at the used ring.

The memory is the two statics and the bytes of the callers' buffers.
-/
import BeetKernel.Platform
import BeetKernel.Virtio.Queue

namespace BeetKernel.Virtio

/-! ## 1. Driver and device -/

def sectorSize : Nat := 512
def queueSize : Nat := 16
/-- The number of looks at the used ring after which a request is given up: `spins` is 10 000 000
before the last. -/
def maxPolls : Nat := 10000001

/-- The types of a request: `VIRTIO_BLK_T_IN` and `VIRTIO_BLK_T_OUT`. -/
inductive ReqType where
  | read
  | write
  deriving DecidableEq, Repr

/-- `VirtioBlkReqHeader` -/
structure ReqHeader where
  type : ReqType
  sector : Nat
  deriving DecidableEq, Repr

inductive BlkError where
  | noDevice
  | invalidSize
  | outOfRange
  | ioError
  | deviceFailed
  deriving DecidableEq, Repr

/-- A chain the device has taken: its descriptors and its request header as they were then. -/
structure Chain where
  head : Nat
  descs : List (Nat × VirtqDesc)
  req : ReqHeader

/-- The device: how far it has read the available ring, what it is working on and what it stores. -/
structure Device where
  lastAvail : UInt16
  inFlight : List Chain
  disk : Nat → UInt8

/-- Driver, device and the memory they share. -/
structure World where
  /-- `BLK_DEV`: the capacity of the device, if one has been found. -/
  capacity : Option Nat
  queue : Virtqueue
  /-- `REQ_HEADER` -/
  header : ReqHeader
  /-- `REQ_STATUS` -/
  status : UInt8
  data : Nat → UInt8
  device : Device

/-! ## 2. The device -/

/-- What a device can do. -/
inductive Act where
  /-- It takes the next available chain. -/
  | fetch
  /-- It writes to the buffers of the `i`-th chain it is working on. -/
  | touch (i : Nat) (bytes : Nat → UInt8)
  /-- It is done with the `i`-th chain, and reports `status`. -/
  | complete (i : Nat) (status : UInt8) (len : Nat)

namespace World

/-- The device writes to a buffer, if the driver has marked it device-writable. -/
def writeTo (w : World) (d : VirtqDesc) (bytes : Nat → UInt8) : World :=
  if d.writable then
    match d.addr with
    | .data pa => { w with data := fun a => if pa ≤ a ∧ a < pa + d.len then bytes (a - pa) else w.data a }
    | .status => { w with status := bytes 0 }
    | _ => w
  else w

/-- The device reads the buffer of a write request. -/
def store (w : World) (d : VirtqDesc) (sector : Nat) : World :=
  match d.addr with
  | .data pa =>
    let disk := fun a =>
      if sectorSize * sector ≤ a ∧ a < sectorSize * sector + d.len then w.data (pa + (a - sectorSize * sector))
      else w.device.disk a
    { w with device := { w.device with disk := disk } }
  | _ => w

/-- The transfer a request asks for. -/
def transfer (w : World) (req : ReqHeader) (d : VirtqDesc) : World :=
  match req.type with
  | .read => w.writeTo d fun k => w.device.disk (sectorSize * req.sector + k)
  | .write => w.store d req.sector

/-- The device gives a chain back. -/
def pushUsed (w : World) (i head len : Nat) : World := { w with
    queue := { w.queue with
      usedRing := Function.update w.queue.usedRing (w.queue.usedIdx.toNat % w.queue.num) (head, len)
      usedIdx := w.queue.usedIdx + 1 }
    device := { w.device with inFlight := w.device.inFlight.eraseIdx i } }

/-- One act of the device.  A request is a chain of header, data and status; the device does the
transfer if it reports success, and has no answer to any other chain. -/
def act (w : World) : Act → World
  | .fetch =>
    if w.device.lastAvail = w.queue.availIdx then w
    else
      let head := w.queue.availRing (w.device.lastAvail.toNat % w.queue.num)
      let chain : Chain := ⟨head, Virtqueue.readChain w.queue.desc w.queue.num head, w.header⟩
      { w with device := { w.device with
          lastAvail := w.device.lastAvail + 1
          inFlight := w.device.inFlight ++ [chain] } }
  | .touch i bytes =>
    match w.device.inFlight[i]? with
    | none => w
    | some c => c.descs.foldl (fun w d => w.writeTo d.2 bytes) w
  | .complete i status len =>
    match w.device.inFlight[i]? with
    | none => w
    | some c =>
      match c.descs with
      | [_, d, s] =>
        let w := if status = 0 then w.transfer c.req d.2 else w
        (w.writeTo s.2 fun _ => status).pushUsed i c.head len
      | _ => w

/-- A batch of acts. -/
def acts (w : World) (batch : List Act) : World := batch.foldl act w

/-! ## 3. The driver -/

/-- What a call comes to: its result, the head of the chain it made available and the head of the
chain it took from the used ring. -/
structure Outcome where
  result : Except BlkError Unit
  pushed : Option Nat
  consumed : Option Nat

/-- The poll loop of `do_block_request`, with `left` looks at the used ring to go; `k` is the next
batch of the device's script. -/
def poll (script : Nat → List Act) : Nat → Nat → World → Option Nat × World
  | 0, _, w => (none, w)
  | left + 1, k, w =>
    let w := w.acts (script k)
    match w.queue.popUsed with
    | some ((head, _), q) => (some head, { w with queue := q.freeChain (q.num + 1) head })
    | none => poll script left (k + 1) w

/-- The flags of the data descriptor: the device writes to the buffer of a read. -/
def dataFlags : ReqType → UInt16
  | .read => descFNext ||| descFWrite
  | .write => descFNext

/-- The three descriptors of a request. -/
def setDescs (w : World) (d0 d1 d2 : Nat) (reqType : ReqType) (dataPa dataLen : Nat) : World :=
  let desc := Function.update w.queue.desc d0 ⟨.header, 16, descFNext, d1⟩
  let desc := Function.update desc d1 ⟨.data dataPa, dataLen % 2 ^ 32, dataFlags reqType, d2⟩
  let desc := Function.update desc d2 ⟨.status, 1, descFWrite, 0⟩
  { w with queue := { w.queue with desc := desc } }

/-- `do_block_request` from its descriptors to the notification of the device. -/
def post (w : World) (d0 d1 d2 : Nat) (reqType : ReqType) (sector dataPa dataLen : Nat)
    (script : Nat → List Act) : World :=
  let w := w.acts (script 1)
  let w := { w with header := ⟨reqType, sector⟩, status := 0xFF }
  let w := w.acts (script 2)
  let w := w.setDescs d0 d1 d2 reqType dataPa dataLen
  let w := w.acts (script 3)
  { w with queue := w.queue.pushAvail d0 }

/-- The end of `do_block_request`: the request has been given up, or the status byte is looked at. -/
def finish (d0 : Nat) : Option Nat × World → Outcome × World
  | (none, w) => (⟨.error .deviceFailed, some d0, none⟩, w)
  | (some head, w) =>
    if w.status = 0 then (⟨.ok (), some d0, some head⟩, w)
    else if w.status = 1 then (⟨.error .ioError, some d0, some head⟩, w)
    else (⟨.error .deviceFailed, some d0, some head⟩, w)

def doBlockRequest (w : World) (reqType : ReqType) (sector dataPa dataLen : Nat)
    (script : Nat → List Act) : Outcome × World :=
  let w := w.acts (script 0)
  match w.queue.allocDesc with
  | none => (⟨.error .deviceFailed, none, none⟩, w)
  | some (d0, q) =>
    match q.allocDesc with
    | none => (⟨.error .deviceFailed, none, none⟩, { w with queue := q.freeDesc d0 })
    | some (d1, q) =>
      match q.allocDesc with
      | none => (⟨.error .deviceFailed, none, none⟩, { w with queue := (q.freeDesc d1).freeDesc d0 })
      | some (d2, q) =>
        let w := { w with queue := q }.post d0 d1 d2 reqType sector dataPa dataLen script
        finish d0 (w.poll script maxPolls 4)

/-- A call of `read_sectors` or `write_sectors`, and what the device does meanwhile.  The buffer is
memory of the machine. -/
structure Call where
  type : ReqType
  lba : Nat
  buf : Nat
  len : Nat
  script : Nat → List Act
  len_le : len ≤ ramSize

/-- `read_sectors` and `write_sectors`, which differ in the type of the request only.  The sum of
`lba` and the number of sectors is one of `u64`s. -/
def call (w : World) (c : Call) : Outcome × World :=
  if c.len % sectorSize ≠ 0 ∨ c.len / sectorSize = 0 then (⟨.error .invalidSize, none, none⟩, w)
  else
    match w.capacity with
    | none => (⟨.error .noDevice, none, none⟩, w)
    | some capacity =>
      if (c.lba + c.len / sectorSize) % 2 ^ 64 > capacity then (⟨.error .outOfRange, none, none⟩, w)
      else w.doBlockRequest c.type c.lba c.buf c.len c.script

/-- The state `init_block_device` leaves, with a device found or not. -/
def start (capacity : Option Nat) (data disk : Nat → UInt8) : World :=
  ⟨capacity, .init queueSize, ⟨.read, 0⟩, 0xFF, data, ⟨0, [], disk⟩⟩

/-! ## 4. What the device may still use -/

/-- The chains that are available and that the device has not taken yet. -/
def unfetched (w : World) : List Nat := (List.range (w.queue.availIdx - w.device.lastAvail).toNat).map fun k =>
    w.queue.availRing ((w.device.lastAvail.toNat + k) % w.queue.num)

/-- The descriptors of the chains that the device works on or may take. -/
def held (w : World) : List (Nat × VirtqDesc) :=
  w.device.inFlight.flatMap Chain.descs ++ w.unfetched.flatMap (Virtqueue.readChain w.queue.desc w.queue.num)

/-- The first `n` descriptors of the free list. -/
def freeFrom (desc : Nat → VirtqDesc) : Nat → Nat → List Nat
  | 0, _ => []
  | n + 1, head => head :: freeFrom desc n (desc head).next

/-- Nothing that the device may still use is there for a later request: no free descriptor, neither
of the statics, which serve every request, and no buffer, which its caller has back. -/
def LeavesNothing (w : World) : Prop :=
  ∀ x ∈ w.held, x.1 ∉ freeFrom w.queue.desc w.queue.numFree w.queue.freeHead ∧ x.2.addr = .null

/-- **What a call owes its caller.**  If it succeeds, then the chain it took from the used ring is
the one it made available, and buffer and sectors agree; if it fails, nothing that the device may
still use is left to a later request. -/
structure Sound (w : World) (c : Call) : Prop where
  ok : (w.call c).1.result = .ok () → (w.call c).1.pushed.isSome ∧ (w.call c).1.consumed = (w.call c).1.pushed ∧
      ∀ k < c.len, (w.call c).2.data (c.buf + k) = (w.call c).2.device.disk (sectorSize * c.lba + k)
  error : ∀ e, (w.call c).1.result = .error e → (w.call c).2.LeavesNothing

/-- Every call of a sequence is sound. -/
def SoundRun : World → List Call → Prop
  | _, [] => True
  | w, c :: cs => w.Sound c ∧ SoundRun (w.call c).2 cs

end World

end BeetKernel.Virtio

/-
# Memory mappings

The mapping half of `mem.rs` over the page tables of `arch/aarch64/mem.rs`, and the memory
that messages carry (`send_memory`, `lend_memory`, `return_memory` of `services.rs`).

Three facts about the source shape everything here.  `map_page` OVERWRITES whatever the
address was mapped to.  `lend_page` leaves the page mapped where it came from, so a lend is
one frame in two address spaces.  And a page is zeroed only where the code says so: page
tables and anonymous memory are, memory that `map_range` populates or claims is not.
-/
import BeetKernel.Kernel.Messages

namespace BeetKernel

open Exec (ignore okOr attempt)
open Function (update)

namespace Kernel

/-! ## 1. The page tracker, seen from the kernel -/

/-- Run a tracker operation.  When it finds the system low on memory, the kernel tells the
processes that asked for it. -/
def withMemoryManager {α : Type} (m : Exec MemoryManager Error α) : KExec α := do
  let result ← attempt (Exec.zoom Kernel.mm (fun mm k => { k with mm }) m)
  let k ← Exec.get
  if k.mm.lowMemoryEvent then
    Exec.modify fun k => { k with mm := { k.mm with lowMemoryEvent := false } }
    ignore (broadcastEvent .lowFreeMemory 0)
  Exec.ofExcept result

def allocRange (numPages : Nat) (pid : PID) : KExec (Nat × Bool) :=
  withMemoryManager (MemoryManager.allocRange numPages pid)

def claimReleaseMove (addr : Nat) (pid : PID) (action : ClaimReleaseMove) : KExec Unit := do
  let permission ←
    if addr % pageSize = 0 then do
      match ← attempt (process pid) with
      | .ok p => pure (p.checkMemoryPermission pid addr)
      | .error e => pure (.error e)
    else pure (.ok ())
  withMemoryManager (MemoryManager.claimReleaseMove permission addr pid action)

def claimPage (addr : Nat) (pid : PID) : KExec Unit := claimReleaseMove addr pid .claim
def releasePage (addr : Nat) (pid : PID) : KExec Unit := claimReleaseMove addr pid .release

/-- `write_bytes(phys_to_virt(phys), 0, size)` -/
def zeroBytes (phys size : Nat) : KExec Unit := Exec.modify fun k => { k with
    ram := fun a => if phys ≤ a ∧ a < phys + size then 0 else k.ram a }

/-! ## 2. Page tables -/

def setPageTables (pid : PID) (t : PageTables) : KExec Unit :=
  Exec.modify fun k => { k with pageTables := update k.pageTables pid t }

/-- A new table page, zeroed: the allocation of `ensure_table`. -/
def allocTable (pid : PID) : KExec Nat := do
  let (phys, _) ← Exec.mapErr (fun _ => .outOfMemory) (allocRange 1 pid)
  zeroBytes phys pageSize
  pure phys

/-- `ensure_table` on an L1 entry. -/
def ensureL2 (pid : PID) (l1 : Nat) : KExec Unit := do
  let k ← Exec.get
  if ((k.pageTables pid).l2 l1).isNone then
    let phys ← allocTable pid
    let k ← Exec.get
    let t := k.pageTables pid
    setPageTables pid { t with
      l2 := update t.l2 l1 (some phys)
      l3 := update t.l3 l1 (fun _ => none) }

/-- `ensure_table` on an L2 entry. -/
def ensureL3 (pid : PID) (l1 l2 : Nat) : KExec Unit := do
  let k ← Exec.get
  if ((k.pageTables pid).l3 l1 l2).isNone then
    let phys ← allocTable pid
    let k ← Exec.get
    let t := k.pageTables pid
    setPageTables pid { t with
      l3 := update t.l3 l1 (update (t.l3 l1) l2 (some phys))
      entries := fun n => if n / 2048 = l1 * 2048 + l2 then none else t.entries n }

def mapPage (pid : PID) (phys va : Nat) (flags : MemoryFlags) (mapUser : Bool) :
    KExec Unit := do
  ensureL2 pid (l1Index va)
  ensureL3 pid (l1Index va) (l2Index va)
  let k ← Exec.get
  let t := k.pageTables pid
  setPageTables pid { t with
    entries := update t.entries (pageOf va) (some (Pte.make phys flags mapUser)) }

/-- `MemoryMapping::unmap_page` -/
def unmapPte (pid : PID) (va : Nat) : KExec Unit := do
  let k ← Exec.get
  setPageTables pid (← Exec.ofExcept ((k.pageTables pid).unmapPage va))

def virtToPhys (pid : PID) (va : Nat) : KExec Nat := do
  let k ← Exec.get
  Exec.ofExcept ((k.pageTables pid).virtToPhys va)

def ensurePageExists (va : Nat) : KExec Unit := do
  let k ← Exec.get
  let pid := k.activeMapping
  match (k.pageTables pid).virtToPhys va with
  | .ok _ => pure ()
  | .error _ =>
    let (phys, zeroed) ← allocRange 1 pid
    if !zeroed then zeroBytes phys pageSize
    mapPage pid phys va { w := true } true

/-! ## 3. Mapping ranges -/

/-- The search loop of `find_virtual_address`: the first of `n` pages from `start` on where
`size` bytes are free. -/
def findFree (t : PageTables) (size : Nat) : PageAddress → Nat → Option PageAddress
  | _, 0 => none
  | start, n + 1 =>
    if (List.range ((size + pageSize - 1) / pageSize)).all
        (fun i => t.addressAvailable (start.get + i * pageSize)) then some start
    else findFree t size ⟨start.page + 1⟩ n

/-- `MemoryManager::find_virtual_address`, in the mapping of `pid`.  The hint it starts from
is the one of the CURRENT process. -/
def findVirtualAddress (pid : PID) (virt size : Nat) : KExec Nat :=
  if virt ≠ 0 then pure virt
  else do
    let p ← currentProcess
    Exec.assert (size ≤ mmapAreaVirtEnd) "attempt to subtract with overflow"
    let k ← Exec.get
    let t := k.pageTables pid
    let hint := p.allocationHint
    let upper := (mmapAreaVirtEnd - size - hint.get + pageSize - 1) / pageSize
    let lower := (hint.get - mmapAreaVirt + pageSize - 1) / pageSize
    match (findFree t size hint upper).or (findFree t size .mmapArea lower) with
    | some start =>
      setProcess k.currentPid { p with allocationHint := start }
      pure start.get
    | none => Exec.throw .badAddress

/-- Release the pages of `[phys, phys + n pages)`, ignoring errors. -/
def releasePages (pid : PID) (phys n : Nat) : KExec Unit :=
  Exec.each (fun i => ignore (releasePage (phys + i * pageSize) pid)) (List.range n)

/-- Unmap `n` pages from `virt` on, ignoring errors. -/
def unmapPtes (pid : PID) (virt n : Nat) : KExec Unit :=
  Exec.each (fun i => ignore (unmapPte pid (virt + i * pageSize))) (List.range n)

/-- The loop of `map_range` that claims the physical pages. -/
def claimPages (pid : PID) (phys : Nat) : Nat → Nat → KExec Unit
  | _, 0 => pure ()
  | i, n + 1 => do
    match ← attempt (claimPage (phys + i * pageSize) pid) with
    | .ok () => claimPages pid phys (i + 1) n
    | .error e => do
      releasePages pid phys i
      Exec.throw e

/-- The loop of `map_range` that maps the pages; when one cannot be mapped the others are
taken back and all of them released. -/
def mapPages (pid : PID) (phys virt total : Nat) (flags : MemoryFlags) (mapUser : Bool) : Nat → Nat → KExec Unit
  | _, 0 => pure ()
  | i, n + 1 => do
    match ← attempt (mapPage pid (phys + i * pageSize) (virt + i * pageSize) flags mapUser) with
    | .ok () => mapPages pid phys virt total flags mapUser (i + 1) n
    | .error e => do
      unmapPtes pid virt i
      releasePages pid phys total
      Exec.throw e

/-- The physical pages `map_range` maps: new ones when it populates, the ones it was asked for
when it can claim them, and otherwise new ones that read as zero.  ONLY the last are
zeroed. -/
def obtainPages (pid : PID) (phys size : Nat) (flags : MemoryFlags) : KExec Nat := do
  if flags.populate then
    if !flags.w then Exec.throw .invalidArguments
    else if phys ≠ 0 then Exec.throw .invalidArguments
    else
      let (allocated, _) ← allocRange (size / pageSize) pid
      pure allocated
  else if phys ≠ 0 then
    Exec.assert (phys + size < 2 ^ 64) "attempt to add with overflow"
    claimPages pid phys 0 ((size + pageSize - 1) / pageSize)
    pure phys
  else
    let (allocated, zeroed) ← allocRange (size / pageSize) pid
    if !zeroed then zeroBytes allocated size
    pure allocated

def mapRange (phys virt size : Nat) (flags : MemoryFlags) (mapUser : Bool) :
    KExec MemoryRange := do
  let k ← Exec.get
  let pid := k.activeMapping
  let virt ← findVirtualAddress pid virt size
  let phys ← obtainPages pid phys size flags
  let n := (size + pageSize - 1) / pageSize
  mapPages pid phys virt n flags mapUser 0 n
  let addr ← okOr .badAddress (NonZeroUsize.new virt)
  let size ← okOr .badAddress (NonZeroUsize.new size)
  pure ⟨addr, size⟩

/-! ## 4. Unmapping -/

def unmapPage (va : Nat) : KExec Unit := do
  let k ← Exec.get
  let pid := k.activeMapping
  match (k.pageTables pid).virtToPhys va with
  | .ok phys => ignore (releasePage phys pid)
  | .error _ => pure ()
  unmapPte pid va

/-- The loop of `unmap_range`, which goes on after an error and reports the first. -/
def unmapPages (virt : Nat) : Nat → Nat → Except Error Unit → KExec Unit
  | _, 0, result => Exec.ofExcept result
  | i, n + 1, result => do
    match ← attempt (unmapPage (virt + i * pageSize)) with
    | .ok () => unmapPages virt (i + 1) n result
    | .error e =>
      unmapPages virt (i + 1) n (match result with
        | .ok () => .error e
        | .error e' => .error e')

def unmapRange (virt len : Nat) : KExec Unit :=
  if virt % pageSize ≠ 0 ∨ len % pageSize ≠ 0 then Exec.throw .badAlignment
  else do
    Exec.assert (virt + len < 2 ^ 64) "attempt to add with overflow"
    unmapPages virt 0 (len / pageSize) (.ok ())

def checkRangeAccessible (range : MemoryRange) : KExec Unit := do
  let k ← Exec.get
  let t := k.pageTables k.activeMapping
  let start := range.addr.get / pageSize * pageSize
  let stop := (range.addr.get + range.size.get + pageSize - 1) / pageSize * pageSize
  Exec.assert (stop < 2 ^ 64) "attempt to add with overflow"
  if (List.range ((stop - start) / pageSize)).all (fun i =>
      decide (start + i * pageSize ≤ userAreaEnd) && t.addressUserAccessible (start + i * pageSize)) then pure ()
  else Exec.throw .badAddress

/-! ## 5. Memory that messages carry -/

/-- `MemoryManager::move_page`, with `MemoryMapping::move_page` inside. -/
def movePage (srcPid : PID) (srcAddr : Nat) (destPid : PID) (destAddr : Nat) : KExec Unit := do
  let phys ← virtToPhys srcPid srcAddr
  unmapPte srcPid srcAddr
  mapPage destPid phys destAddr { w := true } true
  claimReleaseMove phys destPid (.move srcPid)

/-- The loop of `send_memory`.  A page that cannot be moved does not stop it: the last error
is reported when all pages have been tried. -/
def sendPages (srcPid : PID) (src : Nat) (destPid : PID) (dest : Nat) : Nat → Nat → Option Error → KExec (Option Error)
  | _, 0, error => pure error
  | i, n + 1, error => do
    ensurePageExists (src + i * pageSize)
    match ← attempt (movePage srcPid (src + i * pageSize) destPid (dest + i * pageSize)) with
    | .ok () => sendPages srcPid src destPid dest (i + 1) n error
    | .error e => sendPages srcPid src destPid dest (i + 1) n (some e)

/-- `SystemServices::send_memory`, to an address of the kernel's choice. -/
def sendMemory (src : Nat) (destPid : PID) (len : Nat) : KExec Nat := do
  let k ← Exec.get
  if len = 0 ∨ len % pageSize ≠ 0 ∨ src % pageSize ≠ 0 ∨ len > userAreaEnd then
    Exec.throw .badAddress
  else if k.currentPid = destPid then
    Exec.each (fun i => ensurePageExists (src + i * pageSize)) (List.range (len / pageSize))
    pure src
  else
    let _ ← process k.currentPid
    let _ ← process destPid
    let dest ← findVirtualAddress destPid 0 len
    match ← sendPages k.currentPid src destPid dest 0 (len / pageSize) none with
    | none => pure dest
    | some _ => Exec.panic "unable to send"

/-- `MemoryMapping::lend_page`: the frame stays where it is and appears in the other address
space too. -/
def lendPage (srcPid : PID) (srcAddr : Nat) (destPid : PID) (destAddr : Nat) (isMutable : Bool) : KExec Unit := do
  let phys ← virtToPhys srcPid srcAddr
  mapPage destPid phys destAddr { w := isMutable } true

/-- The loop of `lend_memory`. -/
def lendPages (srcPid : PID) (src : Nat) (destPid : PID) (dest : Nat) (isMutable : Bool) :
    Nat → Nat → Option Error → KExec (Option Error)
  | _, 0, error => pure error
  | i, n + 1, error => do
    ensurePageExists (src + i * pageSize)
    match ← attempt (lendPage srcPid (src + i * pageSize) destPid (dest + i * pageSize) isMutable) with
    | .ok () => lendPages srcPid src destPid dest isMutable (i + 1) n error
    | .error e => lendPages srcPid src destPid dest isMutable (i + 1) n (some e)

/-- `SystemServices::lend_memory`, to an address of the kernel's choice. -/
def lendMemory (src : Nat) (destPid : PID) (len : Nat) (isMutable : Bool) : KExec Nat := do
  let k ← Exec.get
  if len = 0 then Exec.throw .badAddress
  else if len % pageSize ≠ 0 ∨ src % pageSize ≠ 0 then Exec.throw .badAlignment
  else if k.currentPid = destPid then
    Exec.each (fun i => ensurePageExists (src + i * pageSize)) (List.range (len / pageSize))
    pure src
  else
    let _ ← process k.currentPid
    let _ ← process destPid
    let dest ← findVirtualAddress destPid 0 len
    match ← lendPages k.currentPid src destPid dest isMutable 0 (len / pageSize) none with
    | none => pure dest
    | some _ => Exec.panic "unable to lend"

/-- The loop of `return_memory`: the borrower loses its mapping, the lender never lost
its own. -/
def returnPages (srcPid : PID) (src : Nat) : Nat → Nat → Option Error → KExec (Option Error)
  | _, 0, error => pure error
  | i, n + 1, error => do
    match ← attempt (unmapPte srcPid (src + i * pageSize)) with
    | .ok () => returnPages srcPid src (i + 1) n error
    | .error e => returnPages srcPid src (i + 1) n (some e)

def returnMemory (src : Nat) (destPid : PID) (dest len : Nat) : KExec Unit := do
  let k ← Exec.get
  if len = 0 ∨ len % pageSize ≠ 0 ∨ src % pageSize ≠ 0 ∨ dest % pageSize ≠ 0 then
    Exec.throw .badAddress
  else if k.currentPid = destPid then pure ()
  else
    let _ ← process k.currentPid
    let _ ← process destPid
    match ← returnPages k.currentPid src 0 (len / pageSize) none with
    | none => pure ()
    | some e => Exec.throw e

/-! ## 6. Mirrors -/

/-- The loop of `map_range_readonly_mirror`. -/
def mirrorPages (pid : PID) (phys virt : Nat) : Nat → Nat → KExec Unit
  | _, 0 => pure ()
  | i, n + 1 => do
    match ← attempt (mapPage pid (phys + i * pageSize) (virt + i * pageSize) {} true) with
    | .ok () => mirrorPages pid phys virt (i + 1) n
    | .error e => do
      unmapPtes pid virt i
      Exec.throw e

def mapRangeReadonlyMirror (pid : PID) (phys size : Nat) : KExec MemoryRange := do
  let k ← Exec.get
  let p ← process pid
  let virt := p.nextMirrorAddress
  mirrorPages k.activeMapping phys virt 0 ((size + pageSize - 1) / pageSize)
  let p ← process pid
  let nextAddr := min (virt + size) (2 ^ 64 - 1)
  let rounded := (nextAddr + pageSize - 1) / pageSize * pageSize
  setProcess pid { p with
    nextMirrorAddress := if rounded < 2 ^ 64 then rounded else nextAddr }
  let addr ← okOr .badAddress (NonZeroUsize.new virt)
  let size ← okOr .badAddress (NonZeroUsize.new size)
  pure ⟨addr, size⟩

end Kernel

end BeetKernel

/-
# The page tracker

The part of `mem.rs` that knows who owns which physical page: the owner array, the two
bitmaps of free pages (dirty and zeroed), the number of free pages and the two search hints.
Page `i` is the page at `dramBase + i * pageSize`; entries from `ramPages` on belong to the
extra regions, which have owners but no free bits.

Running low on free pages makes the kernel broadcast an event to the processes.  The tracker
only records that the broadcast is due (`lowMemoryEvent`); the kernel sends it as soon as the
tracker returns.  Sending it changes nothing in the tracker.
-/
import BeetKernel.Lib.Exec
import BeetKernel.Definitions
import BeetKernel.Platform

namespace BeetKernel

open Exec (assert okOr)
open Function (update)

def lowMemoryThreshold : Nat := 24 * 1024 * 1024
def lowMemoryHysteresis : Nat := 1024 * 1024
/-- `FRAGMENTED_AREA_PAGES`: the pages before the area reserved for big allocations. -/
def fragmentedAreaPages : Nat := ramPages - 40 * 1024 * 1024 / pageSize

/-! ## 1. Bitmaps -/

/-- The first set bit among the `n` bits from `i` on. -/
def firstOne (bits : Nat → Bool) : Nat → Nat → Option Nat
  | _, 0 => none
  | i, n + 1 => if bits i then some i else firstOne bits (i + 1) n

/-- The number of set bits in a row among the `n` bits from `i` on. -/
def leadingOnes (bits : Nat → Bool) : Nat → Nat → Nat
  | _, 0 => 0
  | i, n + 1 => if bits i then leadingOnes bits (i + 1) n + 1 else 0

/-- The `n` bits from `i` on are all set. -/
def allOnes (bits : Nat → Bool) (i n : Nat) : Bool := (List.range' i n).all bits

/-- The last index below `n` that satisfies `p`. -/
def lastIndex (p : Nat → Bool) : Nat → Option Nat
  | 0 => none
  | n + 1 => if p n then some n else lastIndex p n

/-- Set the `n` entries from `i` on. -/
def fill {α : Type} (f : Nat → α) (i n : Nat) (v : α) : Nat → α := fun j =>
  if i ≤ j ∧ j < i + n then v else f j

/-! ## 2. The tracker -/

structure MemoryRangeExtra where
  memStart : Nat
  memSize : Nat
deriving DecidableEq

/-- `MemoryManager`.  `allocations` is an array of `allocationsLen` entries. -/
structure MemoryManager where
  allocations : Nat → Option PID
  allocationsLen : Nat
  extraRegions : List MemoryRangeExtra
  freePagesDirty : Nat → Bool
  nextDirtyPageHint : Option Nat
  freePagesZeroed : Nat → Bool
  nextZeroedPageHint : Nat
  numFreePages : Nat
  lowMemory : Bool
  lowMemoryEvent : Bool

inductive ClaimReleaseMove where
  | claim
  | release
  | move (existingPid : PID)

namespace MemoryManager

/-- `MemoryManager::default_hack` -/
def default : MemoryManager :=
  { allocations := fun _ => none, allocationsLen := 0
    extraRegions := List.replicate 11 ⟨0, 0⟩
    freePagesDirty := fun _ => false, nextDirtyPageHint := none
    freePagesZeroed := fun _ => false, nextZeroedPageHint := 0
    numFreePages := 0, lowMemory := false, lowMemoryEvent := false }

/-- `MemoryManager::init_from_bootstrap`, on the tracker boot has filled in: unowned pages
become dirty free pages. -/
def initFromBootstrap (allocations : List (Option PID)) : MemoryManager :=
  let scanPages := min allocations.length ramPages
  { default with
    allocations := fun i => (allocations[i]?).join
    allocationsLen := allocations.length
    freePagesDirty := fun i => decide (i < scanPages) && (allocations[i]?).join.isNone
    numFreePages := (allocations.take scanPages).countP Option.isNone }

/-- An indexing of `allocations`. -/
def allocationAt (offset : Nat) : Exec MemoryManager Error (Option PID) := do
  let mm ← Exec.get
  assert (offset < mm.allocationsLen) "index out of bounds"
  pure (mm.allocations offset)

def setAllocation (offset : Nat) (owner : Option PID) : Exec MemoryManager Error Unit :=
  Exec.modify fun mm => { mm with allocations := update mm.allocations offset owner }

def addFreePages (pages : Nat) : Exec MemoryManager Error Unit := do
  let mm ← Exec.get
  assert (mm.numFreePages + pages ≤ ramPages) "assertion failed: self.num_free_pages.saturating_add(pages) <= RAM_PAGES"
  let numFreePages := mm.numFreePages + pages
  Exec.set { mm with
    numFreePages
    lowMemory := mm.lowMemory && !decide (numFreePages ≥ (lowMemoryThreshold + lowMemoryHysteresis) / pageSize) }

def subtractFreePages (pages : Nat) : Exec MemoryManager Error Unit := do
  let mm ← Exec.get
  assert (mm.numFreePages ≥ pages) "assertion failed: self.num_free_pages >= pages"
  let numFreePages := mm.numFreePages - pages
  if !mm.lowMemory && decide (numFreePages < lowMemoryThreshold / pageSize) then
    Exec.set { mm with numFreePages, lowMemory := true, lowMemoryEvent := true }
  else
    Exec.set { mm with numFreePages }

/-! ### Allocation -/

/-- The page `alloc_single_page` picks, and whether it is a zeroed one. -/
def pickSinglePage (mm : MemoryManager) : Option (Nat × Bool) :=
  match firstOne mm.freePagesZeroed mm.nextZeroedPageHint (fragmentedAreaPages - mm.nextZeroedPageHint) with
  | some idx => some (idx, true)
  | none =>
  match firstOne mm.freePagesZeroed 0 mm.nextZeroedPageHint with
  | some idx => some (idx, true)
  | none =>
  match firstOne mm.freePagesDirty 0 fragmentedAreaPages with
  | some idx => some (idx, false)
  | none =>
  match firstOne mm.freePagesZeroed fragmentedAreaPages (ramPages - fragmentedAreaPages) with
  | some idx => some (idx, true)
  | none =>
  match firstOne mm.freePagesDirty fragmentedAreaPages (ramPages - fragmentedAreaPages) with
  | some idx => some (idx, false)
  | none => none

def allocSinglePage (pid : PID) : Exec MemoryManager Error (Nat × Bool) := do
  let mm ← Exec.get
  assert (mm.nextZeroedPageHint ≤ fragmentedAreaPages) "range start out of bounds"
  match mm.pickSinglePage with
  | none => Exec.throw .outOfMemory
  | some (idx, zeroed) =>
    Exec.set <| if zeroed
      then { mm with freePagesZeroed := update mm.freePagesZeroed idx false }
      else { mm with freePagesDirty := update mm.freePagesDirty idx false }
    let owner ← allocationAt idx
    assert owner.isNone "BUG: DOUBLE ALLOC"
    subtractFreePages 1
    setAllocation idx (some pid)
    Exec.modify fun mm => { mm with
      nextZeroedPageHint := if idx + 1 > fragmentedAreaPages then 0 else idx + 1 }
    pure (dramBase + idx * pageSize, zeroed)

/-- The block `alloc_range_aligned` picks: the last run of zeroed pages, or else the last run
of free pages of either kind. -/
def pickRange (mm : MemoryManager) (numPages : Nat) : Option (Nat × Bool) :=
  let stop := ramPages - numPages + 1
  match lastIndex (fun i => mm.freePagesZeroed i && allOnes mm.freePagesZeroed i numPages) stop with
  | some idx => some (idx, true)
  | none =>
  match lastIndex (fun i => allOnes (fun j => mm.freePagesZeroed j || mm.freePagesDirty j) i numPages)
      stop with
  | some idx => some (idx, false)
  | none => none

/-- `MemoryManager::alloc_range_aligned::<1>` -/
def allocRangeAligned (numPages : Nat) (pid : PID) : Exec MemoryManager Error (Nat × Bool) := do
  assert (numPages ≤ ramPages) "attempt to subtract with overflow"
  assert (ramPages - numPages + 1 ≤ ramPages) "range end index out of bounds"
  let mm ← Exec.get
  match mm.pickRange numPages with
  | none => Exec.throw .outOfMemory
  | some (idx, zeroed) =>
    subtractFreePages numPages
    let mm ← Exec.get
    assert (idx + numPages ≤ mm.allocationsLen) "range end index out of bounds"
    Exec.set { mm with
      allocations := fill mm.allocations idx numPages (some pid)
      freePagesZeroed := fill mm.freePagesZeroed idx numPages false
      freePagesDirty := if zeroed then mm.freePagesDirty
        else fill mm.freePagesDirty idx numPages false }
    pure (dramBase + idx * pageSize, zeroed)

def allocRange (numPages : Nat) (pid : PID) : Exec MemoryManager Error (Nat × Bool) :=
  if numPages = 1 then allocSinglePage pid else allocRangeAligned numPages pid

/-! ### Zeroing in the background -/

/-- The dirty page `take_dirty_pages` starts from: the first one from the hint on, or else the
first one before it. -/
def pickDirtyPage (mm : MemoryManager) : Option Nat := (firstOne mm.freePagesDirty (mm.nextDirtyPageHint.getD 0)
      (ramPages - mm.nextDirtyPageHint.getD 0)).or
    (firstOne mm.freePagesDirty 0 (mm.nextDirtyPageHint.getD 0))

def takeDirtyPages : Exec MemoryManager Error (Option (Nat × Nat)) := do
  let mm ← Exec.get
  assert (mm.nextDirtyPageHint.getD 0 ≤ ramPages) "range start out of bounds"
  match mm.pickDirtyPage with
  | none =>
    Exec.set { mm with nextDirtyPageHint := none }
    pure none
  | some offset =>
    let pages := min (leadingOnes mm.freePagesDirty offset (ramPages - offset)) (8 * 1024 * 1024 / pageSize)
    Exec.set { mm with
      freePagesDirty := fill mm.freePagesDirty offset pages false
      nextDirtyPageHint := some ((offset + pages) % ramPages) }
    pure (some (dramBase + offset * pageSize, pages))

/-- The search of `address_to_allocation_offset` through the extra regions. -/
def extraOffset (addr : Nat) : List MemoryRangeExtra → Nat → Option Nat
  | [], _ => none
  | region :: rest, offset =>
    if region.memStart ≤ addr ∧ addr < region.memStart + region.memSize then
      some (offset + (addr - region.memStart) / pageSize)
    else extraOffset addr rest (offset + region.memSize / pageSize)

def addressToAllocationOffset (mm : MemoryManager) (addr : Nat) : Option Nat :=
  if dramBase ≤ addr ∧ addr < dramEnd then some ((addr - dramBase) / pageSize)
  else extraOffset addr mm.extraRegions ramPages

def setPagesToZeroed (phys pages : Nat) : Exec MemoryManager Error Unit := do
  let mm ← Exec.get
  let offset ← Exec.expect "called `Option::unwrap()` on a `None` value" (mm.addressToAllocationOffset phys)
  assert (offset + pages ≤ ramPages) "range end index out of bounds"
  Exec.set { mm with freePagesZeroed := fill mm.freePagesZeroed offset pages true }

/-! ### Claiming, releasing and moving single pages -/

/-- `ClaimReleaseMove::Claim` on entry `offset`. -/
def claimOffset (offset : Nat) (pid : PID) : Exec MemoryManager Error Unit := do
  if (← allocationAt offset).isSome then Exec.throw .memoryInUse
  else
    if offset < ramPages then
      let mm ← Exec.get
      if mm.freePagesZeroed offset then
        Exec.set { mm with freePagesZeroed := update mm.freePagesZeroed offset false }
      else if mm.freePagesDirty offset then
        Exec.set { mm with freePagesDirty := update mm.freePagesDirty offset false }
      else
        -- No owner but not free either: the page is being zeroed right now.
        Exec.throw .memoryInUse
      subtractFreePages 1
    setAllocation offset (some pid)

/-- `ClaimReleaseMove::Move` on entry `offset`. -/
def moveOffset (offset : Nat) (pid existingPid : PID) : Exec MemoryManager Error Unit := do
  let currentPid ← okOr .doubleFree (← allocationAt offset)
  if currentPid ≠ pid ∧ existingPid ≠ currentPid then Exec.throw .memoryInUse
  else setAllocation offset (some pid)

/-- `ClaimReleaseMove::Release` on entry `offset`. -/
def releaseOffset (offset : Nat) (pid : PID) : Exec MemoryManager Error Unit := do
  let currentPid ← okOr .doubleFree (← allocationAt offset)
  if currentPid ≠ pid then Exec.throw .memoryInUse
  else
    if offset < ramPages then
      Exec.modify fun mm => { mm with
        freePagesDirty := update mm.freePagesDirty offset true
        nextDirtyPageHint := mm.nextDirtyPageHint.or (some offset) }
      addFreePages 1
    setAllocation offset none

/-- `MemoryManager::claim_release_move`.  `permission` is the answer of
`check_memory_permission` for the process; the list of shared peripherals is empty. -/
def claimReleaseMove (permission : Except Error Unit) (addr : Nat) (pid : PID)
    (action : ClaimReleaseMove) : Exec MemoryManager Error Unit := do
  if addr % pageSize ≠ 0 then Exec.throw .badAlignment
  else
    match permission with
    | .error e => Exec.throw e
    | .ok () =>
      let mm ← Exec.get
      let offset ← okOr .badAddress (mm.addressToAllocationOffset addr)
      match action with
      | .claim => claimOffset offset pid
      | .move existingPid => moveOffset offset pid existingPid
      | .release => releaseOffset offset pid

/-! ### When a process ends -/

/-- The loop of `release_all_memory_for_process` over the entries from `idx` on. -/
def releaseAllFrom (pid : PID) : Nat → Nat → Exec MemoryManager Error Unit
  | _, 0 => pure ()
  | idx, n + 1 => do
    let mm ← Exec.get
    if mm.allocations idx = some pid then
      setAllocation idx none
      if idx < ramPages then
        Exec.modify fun mm => { mm with
          freePagesDirty := update mm.freePagesDirty idx true }
        addFreePages 1
    releaseAllFrom pid (idx + 1) n

def releaseAllMemoryForProcess (pid : PID) : Exec MemoryManager Error Unit := do
  let mm ← Exec.get
  releaseAllFrom pid 0 mm.allocationsLen

end MemoryManager

end BeetKernel

/-
# The layout of a queue

`Virtqueue::init` lays the descriptors and the two rings out in one buffer, and the driver takes
the 16-bit indices modulo its own queue size.  `setup_queue` then programs the smaller of that size
and the largest one the device has.  The two look for the ring entries at the same place only if
the device's largest size is not the smaller.
-/
import BeetKernel.Platform
import BeetKernel.Virtio.Queue

namespace BeetKernel.Virtio

/-! ## 1. Where the device looks -/

/-- A ring entry: its slot, and its offset in the buffer of the queue. -/
structure Entry where
  slot : Nat
  offset : Nat
deriving DecidableEq

/-- `(n + align - 1) & !(align - 1)`; the alignment is a power of two. -/
def alignUp (n align : Nat) : Nat := (n + align - 1) / align * align

/-- The legacy layout of a queue of `size` descriptors: the entry of the available ring with the
number `k`.  The index in the ring header has 16 bits. -/
def legacyAvail (size k : Nat) : Entry := ⟨k % 65536 % size, 16 * size + 4 + 2 * (k % 65536 % size)⟩

/-- The entry of the used ring with the number `k`. -/
def legacyUsed (size align k : Nat) : Entry :=
  ⟨k % 65536 % size, alignUp (16 * size + (6 + 2 * size)) align + 4 + 8 * (k % 65536 % size)⟩

/-- The queue registers of the device. -/
structure QueueRegs where
  num : Nat
  align : Nat
  pfn : Nat

namespace Virtqueue

variable {num a u : Nat} {q q' : Virtqueue}

/-- `setup_queue`, for a queue at the physical address `physBase`; `none` if it writes nothing. -/
def setupQueue (q : Virtqueue) (physBase max : Nat) : Option QueueRegs :=
  if max = 0 then none else some ⟨min q.num max, pageSize, physBase / pageSize⟩

/-! ## 2. Where the driver looks -/

/-- The entry that `push_avail` writes. -/
def availEntry (q : Virtqueue) : Entry :=
  let avail := 16 * q.num
  ⟨q.availIdx.toNat % q.num, avail + 4 + 2 * (q.availIdx.toNat % q.num)⟩

/-- The entry that `pop_used` reads. -/
def usedEntry (q : Virtqueue) : Entry :=
  let used := alignUp (16 * q.num + 6 + 2 * q.num) pageSize
  ⟨q.lastUsedIdx.toNat % q.num, used + 4 + 8 * (q.lastUsedIdx.toNat % q.num)⟩

/-- The queue after `a` entries have been pushed and `u` popped.  In between, descriptors change
hands and the device writes to its ring. -/
inductive Used (num : Nat) : Nat → Nat → Virtqueue → Prop
  | init : Used num 0 0 (init num)
  | push {a u : Nat} {q : Virtqueue} (hq : Used num a u q) (d : Nat) : Used num (a + 1) u (q.pushAvail d)
  | pop {a u : Nat} {q q' : Virtqueue} {x : Nat × Nat} (hq : Used num a u q) (h : q.popUsed = some (x, q')) :
    Used num a (u + 1) q'
  | other {a u : Nat} {q : Virtqueue} (hq : Used num a u q) (desc : Nat → VirtqDesc) (freeHead numFree : Nat)
    (usedIdx : UInt16) (usedRing : Nat → Nat × Nat) :
    Used num a u { q with desc, freeHead, numFree, usedIdx, usedRing }

theorem Used.indices (h : Used num a u q) :
    q.num = num ∧ q.availIdx = UInt16.ofNat a ∧ q.lastUsedIdx = UInt16.ofNat u := by
  induction h with
  | init => exact ⟨rfl, rfl, rfl⟩
  | push hq d ih => exact ⟨ih.1, by simp [pushAvail, ih.2.1, UInt16.ofNat_add], ih.2.2⟩
  | pop hq h ih =>
    unfold popUsed at h
    split at h <;> cases h
    exact ⟨ih.1, ih.2.1, by simp [ih.2.2, UInt16.ofNat_add]⟩
  | other hq _ _ _ _ _ ih => exact ih

theorem exists_used (num a : Nat) : ∃ q, Used num a 0 q := by
  induction a with
  | zero => exact ⟨_, .init⟩
  | succ a ih =>
    obtain ⟨q, hq⟩ := ih
    exact ⟨_, hq.push 0⟩

/-- Driver and device agree on the queue: what is programmed puts the entries where they are for the
driver, however long it has been used. -/
def Agreed (num physBase max : Nat) : Prop :=
  ∀ regs, (init num).setupQueue physBase max = some regs → ∀ a u q, Used num a u q →
    q.availEntry = legacyAvail regs.num a ∧ q.usedEntry = legacyUsed regs.num regs.align u

end Virtqueue

end BeetKernel.Virtio

/-
# Virtqueues

The virtqueue of `platform/qemu_virt/virtio.rs`: the descriptor table with its list of free
descriptors, the ring in which the driver makes chains available to the device and the ring in
which the device gives them back.  The three are memory that driver and device share; `freeHead`,
`numFree` and `lastUsedIdx` are the driver's own.  The table and the rings are reached through raw
pointers in the source, so they are total functions of the index here.

A free list is a list of descriptors whose `next` fields lead from one to the next (`Links`); the
lemmas of section 2 say what allocating, freeing and freeing a chain make of it.
-/
import Mathlib.Data.UInt

namespace BeetKernel.Virtio

/-! ## 1. The queue -/

/-- What a descriptor's physical address points to: nothing, the static request header, the static
status byte, or the byte `pa` of a caller's buffer.  A caller's buffer is memory of its own, apart
from the two statics. -/
inductive Place where
  | null
  | header
  | status
  | data (pa : Nat)
  deriving DecidableEq, Repr

structure VirtqDesc where
  addr : Place
  len : Nat
  flags : UInt16
  next : Nat
  deriving DecidableEq, Repr

/-- `VIRTQ_DESC_F_NEXT` -/
def descFNext : UInt16 := 1
/-- `VIRTQ_DESC_F_WRITE` -/
def descFWrite : UInt16 := 2

/-- `flags & VIRTQ_DESC_F_NEXT != 0` -/
def VirtqDesc.hasNext (d : VirtqDesc) : Bool := d.flags &&& descFNext != 0

/-- `flags & VIRTQ_DESC_F_WRITE != 0` -/
def VirtqDesc.writable (d : VirtqDesc) : Bool := d.flags &&& descFWrite != 0

/-- `Virtqueue`, with the memory its pointers lead to. -/
structure Virtqueue where
  desc : Nat → VirtqDesc
  availIdx : UInt16
  availRing : Nat → Nat
  usedIdx : UInt16
  /-- Each entry has the head of the chain and the number of bytes written. -/
  usedRing : Nat → Nat × Nat
  num : Nat
  freeHead : Nat
  numFree : Nat
  lastUsedIdx : UInt16

namespace Virtqueue

variable {q : Virtqueue}

/-- `Virtqueue::init`, on a zeroed buffer. -/
def init (num : Nat) : Virtqueue where
  desc i := ⟨.null, 0, 0, if i + 1 < num then i + 1 else 0⟩
  availIdx := 0
  availRing _ := 0
  usedIdx := 0
  usedRing _ := (0, 0)
  num := num
  freeHead := 0
  numFree := num
  lastUsedIdx := 0

def allocDesc (q : Virtqueue) : Option (Nat × Virtqueue) :=
  if q.numFree = 0 then none
  else some (q.freeHead, { q with freeHead := (q.desc q.freeHead).next, numFree := q.numFree - 1 })

def freeDesc (q : Virtqueue) (idx : Nat) : Virtqueue :=
  { q with desc := Function.update q.desc idx ⟨.null, 0, 0, q.freeHead⟩, freeHead := idx, numFree := q.numFree + 1 }

/-- `free_chain`.  A freed descriptor has no `NEXT` flag, so the source's loop comes to no
descriptor of the table more than twice; `fuel` bounds it. -/
def freeChain : Nat → Virtqueue → Nat → Virtqueue
  | 0, q, _ => q
  | fuel + 1, q, idx =>
    let d := q.desc idx
    let q := q.freeDesc idx
    if d.hasNext then freeChain fuel q d.next else q

def pushAvail (q : Virtqueue) (descIdx : Nat) : Virtqueue := { q with
    availRing := Function.update q.availRing (q.availIdx.toNat % q.num) descIdx
    availIdx := q.availIdx + 1 }

def popUsed (q : Virtqueue) : Option ((Nat × Nat) × Virtqueue) :=
  if q.lastUsedIdx = q.usedIdx then none
  else some (q.usedRing (q.lastUsedIdx.toNat % q.num), { q with lastUsedIdx := q.lastUsedIdx + 1 })

/-! ## 2. Free descriptors -/

/-- The descriptors of `l` follow one another from `head` on. -/
def Links (desc : Nat → VirtqDesc) : Nat → List Nat → Prop
  | _, [] => True
  | head, x :: xs => head = x ∧ Links desc (desc x).next xs

variable {l : List Nat} {x y : Nat}

theorem Links.congr {desc desc' : Nat → VirtqDesc} {head : Nat}
    (h : Links desc head l) (hsame : ∀ x ∈ l, desc' x = desc x) : Links desc' head l := by
  induction l generalizing head with
  | nil => trivial
  | cons x xs ih =>
    refine ⟨h.1, ?_⟩
    rw [hsame x (by simp)]
    exact ih h.2 fun y hy => hsame y (by simp [hy])

/-- A count up: the table of a new queue. -/
theorem links_range' {desc : Nat → VirtqDesc} (n : Nat) (i : Nat)
    (h : ∀ j, i ≤ j → j + 1 < i + n → (desc j).next = j + 1) : Links desc i (List.range' i n) := by
  induction n generalizing i with
  | zero => trivial
  | succ n ih =>
    refine ⟨rfl, ?_⟩
    cases n with
    | zero => trivial
    | succ n =>
      rw [h i le_rfl (by omega)]
      exact ih (i + 1) fun j hj hlt => h j (by omega) (by omega)

/-- The driver's free descriptors, in the order in which it will hand them out. -/
structure Free (q : Virtqueue) (l : List Nat) : Prop where
  links : Links q.desc q.freeHead l
  count : q.numFree = l.length

theorem free_init (num : Nat) : (init num).Free (List.range' 0 num) :=
  ⟨links_range' num 0 fun j _ hlt => if_pos (by simpa using hlt), by simp [init]⟩

theorem Free.allocDesc (h : q.Free (x :: l)) : ∃ q', q.allocDesc = some (x, q') ∧ q'.Free l ∧
      q' = { q with freeHead := q'.freeHead, numFree := q'.numFree } := by
  obtain ⟨⟨hhead, hlinks⟩, hcount⟩ := h
  refine ⟨{ q with freeHead := (q.desc x).next, numFree := q.numFree - 1 }, ?_, ⟨hlinks, ?_⟩, rfl⟩
  · rw [Virtqueue.allocDesc, if_neg (by simp [hcount]), hhead]
  · simp [hcount]

theorem Free.freeDesc (h : q.Free l) (hx : x ∉ l) : (q.freeDesc x).Free (x :: l) := by
  refine ⟨⟨rfl, ?_⟩, by simp [Virtqueue.freeDesc, h.count]⟩
  have : ((q.freeDesc x).desc x).next = q.freeHead := by simp [Virtqueue.freeDesc]
  rw [this]
  refine h.links.congr fun y hy => ?_
  exact Function.update_of_ne (ne_of_mem_of_not_mem hy hx) _ _

@[simp] theorem freeDesc_num (x : Nat) : (q.freeDesc x).num = q.num := rfl
@[simp] theorem freeDesc_availIdx (x : Nat) : (q.freeDesc x).availIdx = q.availIdx := rfl
@[simp] theorem freeDesc_usedIdx (x : Nat) : (q.freeDesc x).usedIdx = q.usedIdx := rfl
@[simp] theorem freeDesc_lastUsedIdx (x : Nat) : (q.freeDesc x).lastUsedIdx = q.lastUsedIdx := rfl

/-! ## 3. Chains -/

/-- What the device reads from `head` on: the descriptors up to the first without a `NEXT` flag,
each with its index.  A chain is never longer than the table. -/
def readChain (desc : Nat → VirtqDesc) : Nat → Nat → List (Nat × VirtqDesc)
  | 0, _ => []
  | fuel + 1, idx => (idx, desc idx) :: if (desc idx).hasNext then readChain desc fuel (desc idx).next else []

/-- The three descriptors `x`, `y` and `z` make a chain. -/
structure Chained (desc : Nat → VirtqDesc) (x y z : Nat) : Prop where
  first : (desc x).hasNext = true ∧ (desc x).next = y
  second : (desc y).hasNext = true ∧ (desc y).next = z
  last : (desc z).hasNext = false

theorem Chained.readChain {desc : Nat → VirtqDesc} {x y z : Nat} (h : Chained desc x y z) {fuel : Nat}
    (hfuel : 3 ≤ fuel) :
    Virtqueue.readChain desc fuel x = [(x, desc x), (y, desc y), (z, desc z)] := by
  obtain ⟨n, rfl⟩ := Nat.exists_eq_add_of_le' hfuel
  simp [Virtqueue.readChain, h.first, h.second, h.last]

/-- The descriptors from one on, up to the first without a `NEXT` flag. -/
inductive IsChain (desc : Nat → VirtqDesc) : Nat → List Nat → Prop
  | last {x : Nat} (h : (desc x).hasNext = false) : IsChain desc x [x]
  | next {x : Nat} {c : List Nat} (h : (desc x).hasNext = true) (hc : IsChain desc (desc x).next c) :
    IsChain desc x (x :: c)

section IsChain

variable {desc : Nat → VirtqDesc} {c c' : List Nat}

theorem IsChain.unique (h : IsChain desc x c) (h' : IsChain desc x c') : c = c' := by
  induction h generalizing c' with
  | last h =>
    cases h' with
    | last => rfl
    | next hnext => simp [h] at hnext
  | next h _ ih =>
    cases h' with
    | last hlast => simp [h] at hlast
    | next _ hc' => rw [ih hc']

theorem IsChain.of_mem (h : IsChain desc x c) (hy : y ∈ c) : ∃ c', IsChain desc y c' ∧ c'.length ≤ c.length := by
  induction h with
  | last h =>
    obtain rfl := List.mem_singleton.mp hy
    exact ⟨_, .last h, le_rfl⟩
  | next h hc ih =>
    rcases List.mem_cons.mp hy with rfl | hy
    · exact ⟨_, .next h hc, le_rfl⟩
    · obtain ⟨c', hc', hle⟩ := ih hy
      exact ⟨c', hc', Nat.le_succ_of_le hle⟩

/-- A chain that ends comes to no descriptor twice: it would be longer than itself. -/
theorem IsChain.nodup (h : IsChain desc x c) : c.Nodup := by
  induction h with
  | last => simp
  | next h hc ih =>
    refine List.nodup_cons.mpr ⟨fun hx => ?_, ih⟩
    obtain ⟨c', hc', hle⟩ := hc.of_mem hx
    rw [hc'.unique (.next h hc)] at hle
    exact Nat.not_succ_le_self _ hle

/-- **Freeing a chain** frees its descriptors one after the other, and ends.  A descriptor is read
before it is freed, so the chain is the one there was at the start. -/
theorem IsChain.freeChain (h : IsChain desc x c) (hsame : ∀ y ∈ c, q.desc y = desc y) {fuel : Nat}
    (hfuel : c.length ≤ fuel) : q.freeChain fuel x = c.foldl Virtqueue.freeDesc q := by
  have hnodup := h.nodup
  induction h generalizing q fuel with
  | last h =>
    obtain ⟨n, rfl⟩ := Nat.exists_eq_add_of_le' hfuel
    simp [Virtqueue.freeChain, hsame, h]
  | @next x c h hc ih =>
    obtain ⟨n, rfl⟩ := Nat.exists_eq_add_of_le' ((Nat.succ_le_succ (Nat.zero_le _)).trans hfuel)
    obtain ⟨hx, hnodup⟩ := List.nodup_cons.mp hnodup
    simp only [Virtqueue.freeChain, hsame x List.mem_cons_self, h, if_true, List.foldl_cons]
    refine ih (fun y hy => ?_) (Nat.le_of_succ_le_succ hfuel) hnodup
    exact (Function.update_of_ne (ne_of_mem_of_not_mem hy hx) ..).trans (hsame y (List.mem_cons_of_mem _ hy))

theorem Free.foldl (h : q.Free l) (hnodup : (c ++ l).Nodup) : (c.foldl Virtqueue.freeDesc q).Free (c.reverse ++ l) := by
  induction c generalizing q l with
  | nil => exact h
  | cons x c ih =>
    rw [List.foldl_cons, List.reverse_cons, List.append_assoc]
    have hx : x ∉ l := fun hx => (List.nodup_cons.mp hnodup).1 (List.mem_append_right _ hx)
    exact ih (h.freeDesc hx) (List.nodup_middle.mpr hnodup)

end IsChain

theorem Chained.freeChain {x y z : Nat} (h : Chained q.desc x y z) (hfree : q.Free l)
    (hnodup : (x :: y :: z :: l).Nodup) {fuel : Nat} (hfuel : 3 ≤ fuel) :
    (q.freeChain fuel x).Free (z :: y :: x :: l) ∧
      (q.freeChain fuel x).num = q.num ∧ (q.freeChain fuel x).availIdx = q.availIdx ∧
      (q.freeChain fuel x).usedIdx = q.usedIdx ∧ (q.freeChain fuel x).lastUsedIdx = q.lastUsedIdx := by
  have hlast : IsChain q.desc (q.desc y).next [z] := by
    rw [h.second.2]
    exact .last h.last
  have hchain : IsChain q.desc x [x, y, z] := by
    refine .next h.first.1 ?_
    rw [h.first.2]
    exact .next h.second.1 hlast
  rw [hchain.freeChain (fun _ _ => rfl) hfuel]
  exact ⟨hfree.foldl (c := [x, y, z]) hnodup, rfl, rfl, rfl, rfl⟩

end Virtqueue

end BeetKernel.Virtio

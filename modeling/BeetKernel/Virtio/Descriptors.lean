/-
# Allocated descriptors

The free list of a virtqueue is threaded through the `next` fields of the descriptors, and a driver
overwrites these fields in the descriptors it holds to build its chains.  The list is sound all the
same: its shape depends on the descriptors in it and on nothing else, so it does not matter what a
held descriptor or the head of an empty list says (`Accounted`).
-/
import BeetKernel.Virtio.Queue
import Mathlib.Data.Finset.Card
import Mathlib.Data.Finset.Range

namespace BeetKernel.Virtio.Virtqueue

variable {num : Nat} {q q' : Virtqueue} {held : Finset Nat} {l c : List Nat} {x : Nat}

/-- The queue of `num` descriptors after any sequence of allocations, of writes of the drivers to
descriptors they hold and of frees; `held` are the descriptors allocated. -/
inductive Reached (num : Nat) : Virtqueue → Finset Nat → Prop
  | init : Reached num (init num) ∅
  | alloc {q q' : Virtqueue} {held : Finset Nat} {x : Nat} (hq : Reached num q held)
    (h : q.allocDesc = some (x, q')) : Reached num q' (insert x held)
  | write {q : Virtqueue} {held : Finset Nat} {x : Nat} (hq : Reached num q held) (hx : x ∈ held)
    (d : VirtqDesc) : Reached num { q with desc := Function.update q.desc x d } held
  | free {q : Virtqueue} {held : Finset Nat} {x : Nat} (hq : Reached num q held) (hx : x ∈ held) :
    Reached num (q.freeDesc x) (held.erase x)
  | freeChain {q : Virtqueue} {held : Finset Nat} {x fuel : Nat} {c : List Nat} (hq : Reached num q held)
    (hc : IsChain q.desc x c) (hheld : ∀ y ∈ c, y ∈ held) (hfuel : c.length ≤ fuel) :
    Reached num (q.freeChain fuel x) (held \ c.toFinset)

/-- The descriptors on the free list are those not allocated, each once. -/
structure Accounted (num : Nat) (q : Virtqueue) (held : Finset Nat) (l : List Nat) : Prop where
  free : q.Free l
  nodup : l.Nodup
  mem : ∀ x, x ∈ l ↔ x < num ∧ x ∉ held
  held : ∀ x ∈ held, x < num

theorem Accounted.init (num : Nat) : Accounted num (init num) ∅ (List.range' 0 num) where
  free := free_init num
  nodup := List.nodup_range'
  mem x := by simp
  held := by simp

theorem Accounted.alloc (h : Accounted num q held (x :: l)) (hq : q'.Free l) : Accounted num q' (insert x held) l where
  free := hq
  nodup := h.nodup.of_cons
  mem y := by
    have hx : x ∉ l := (List.nodup_cons.mp h.nodup).1
    have hy := h.mem y
    by_cases hxy : y = x
    · simp [hxy, hx]
    · simpa [hxy] using hy
  held y hy := by
    rcases Finset.mem_insert.mp hy with rfl | hy
    · exact ((h.mem y).mp List.mem_cons_self).1
    · exact h.held y hy

theorem Accounted.write (h : Accounted num q held l) (hx : x ∈ held) (d : VirtqDesc) :
    Accounted num { q with desc := Function.update q.desc x d } held l where
  free := by
    refine ⟨h.free.links.congr fun y hy => Function.update_of_ne ?_ _ _, h.free.count⟩
    rintro rfl
    exact ((h.mem y).mp hy).2 hx
  nodup := h.nodup
  mem := h.mem
  held := h.held

theorem Accounted.nodup_append (h : Accounted num q held l) (hc : c.Nodup) (hheld : ∀ y ∈ c, y ∈ held) :
    (c ++ l).Nodup :=
  hc.append h.nodup fun y hy hl => ((h.mem y).mp hl).2 (hheld y hy)

theorem Accounted.freeList (h : Accounted num q held l) (hc : c.Nodup) (hheld : ∀ y ∈ c, y ∈ held) :
    Accounted num (c.foldl freeDesc q) (held \ c.toFinset) (c.reverse ++ l) where
  free := h.free.foldl (h.nodup_append hc hheld)
  nodup := ((List.reverse_perm c).append_right l).nodup_iff.mpr (h.nodup_append hc hheld)
  mem y := by
    have hin : y ∈ c → y < num := fun hy => h.held y (hheld y hy)
    simp only [List.mem_append, List.mem_reverse, h.mem, Finset.mem_sdiff, List.mem_toFinset]
    tauto
  held y hy := h.held y (Finset.mem_sdiff.mp hy).1

theorem Reached.accounted (h : Reached num q held) : ∃ l, Accounted num q held l := by
  induction h with
  | init => exact ⟨_, .init num⟩
  | @alloc q q' held x hq halloc ih =>
    obtain ⟨l, hl⟩ := ih
    cases l with
    | nil => simp [Virtqueue.allocDesc, hl.free.count] at halloc
    | cons y l =>
      obtain ⟨q'', heq, hfree, -⟩ := hl.free.allocDesc
      cases halloc.symm.trans heq
      exact ⟨l, hl.alloc hfree⟩
  | write hq hx d ih =>
    obtain ⟨l, hl⟩ := ih
    exact ⟨l, hl.write hx d⟩
  | @free q held x hq hx ih =>
    obtain ⟨l, hl⟩ := ih
    have := hl.freeList (c := [x]) (List.nodup_singleton x) (by simpa using hx)
    exact ⟨x :: l, by simpa [Finset.erase_eq] using this⟩
  | freeChain hq hc hheld hfuel ih =>
    obtain ⟨l, hl⟩ := ih
    rw [hc.freeChain (fun _ _ => rfl) hfuel]
    exact ⟨_, hl.freeList hc.nodup hheld⟩

/-- **No descriptor is given out twice or lost**, whatever the drivers write to those they hold: the
next descriptor allocated is one that is not, there is none exactly when all are, `num_free` counts
those that are left, and freeing a complete chain ends and adds its descriptors, no others, to
those that will be given out. -/
theorem descriptors_accounted (h : Reached num q held) : (∀ x ∈ held, x < num) ∧
    (∀ x q', q.allocDesc = some (x, q') → x < num ∧ x ∉ held) ∧
    (q.allocDesc = none ↔ held = Finset.range num) ∧
    q.numFree = (Finset.range num \ held).card ∧
    ∀ x c, IsChain q.desc x c → (∀ y ∈ c, y ∈ held) →
      (∀ fuel, c.length ≤ fuel → q.freeChain fuel x = q.freeChain c.length x) ∧
      ∃ l, Accounted num q held l ∧ Accounted num (q.freeChain c.length x) (held \ c.toFinset) (c.reverse ++ l) := by
  obtain ⟨l, hl⟩ := h.accounted
  have hset : Finset.range num \ held = l.toFinset := by
    ext x
    simp [hl.mem]
  have hcount : q.numFree = (Finset.range num \ held).card := by
    rw [hset, List.toFinset_card_of_nodup hl.nodup, hl.free.count]
  refine ⟨hl.held, fun x q' halloc => ?_, ?_, hcount, fun x c hc hheld => ⟨fun fuel hfuel => ?_, l, hl, ?_⟩⟩
  · cases l with
    | nil => simp [Virtqueue.allocDesc, hl.free.count] at halloc
    | cons y l =>
      obtain ⟨q'', heq, -⟩ := hl.free.allocDesc
      cases halloc.symm.trans heq
      exact (hl.mem x).mp List.mem_cons_self
  · have hsub : held ⊆ Finset.range num := fun x hx => Finset.mem_range.mpr (hl.held x hx)
    have hnone : q.allocDesc = none ↔ q.numFree = 0 := by simp [Virtqueue.allocDesc]
    rw [hnone, hcount, Finset.card_eq_zero, Finset.sdiff_eq_empty_iff_subset]
    exact ⟨hsub.antisymm, fun h => h.ge⟩
  · rw [hc.freeChain (fun _ _ => rfl) hfuel, hc.freeChain (fun _ _ => rfl) le_rfl]
  · rw [hc.freeChain (fun _ _ => rfl) le_rfl]
    exact hl.freeList hc.nodup hheld

theorem descriptors_accounted_one_of_two :
    ∃ q, Reached 2 q (insert 0 ∅) ∧ q.numFree = (Finset.range 2 \ insert 0 ∅).card :=
  ⟨_, .alloc .init rfl, (descriptors_accounted (.alloc .init rfl)).2.2.2.1⟩

end BeetKernel.Virtio.Virtqueue

/-
# Finding free addresses

`find_virtual_address` scans the MMAP area for free pages: from a hint up to the end, then from
the start of the area up to the hint.  The hint is the one of the process that CALLS, whoever's
mapping is searched, and it moves with every search.  It never moves below the area; that is all
the search needs.  The second half has no upper bound of its own, so without a free range inside
the area the search can still return one that sticks out at the end of it.
-/
import BeetKernel.Kernel.FreshPages

namespace BeetKernel.Kernel

open PageAddress (mmapArea)

/-! ## 1. One scan -/

/-- None of the `size` bytes from `va` on is mapped. -/
def FreeAt (t : PageTables) (size va : Nat) : Prop := ∀ i, i < size → t.walk (va + i) = none

variable {t : PageTables} {size : Nat}

/-- Looking at the first byte of each page is enough. -/
theorem all_available_iff {start : PageAddress} : (List.range ((size + pageSize - 1) / pageSize)).all
      (fun i => t.addressAvailable (start.get + i * pageSize)) = true ↔
      FreeAt t size start.get := by
  simp only [List.all_eq_true, List.mem_range, PageTables.addressAvailable, Option.isNone_iff_eq_none]
  constructor
  · intro h i hi
    have hpage : (start.get + i) / pageSize = (start.get + i / pageSize * pageSize) / pageSize := by
      simp only [PageAddress.get, pageSize]
      omega
    rw [walk_congr t (congrArg (· % 2 ^ 33) hpage)]
    exact h _ (by simp only [pageSize] at *; omega)
  · intro h i hi
    exact h _ (by simp only [pageSize] at *; omega)

theorem findFree_some : ∀ {n : Nat} {start found : PageAddress}, findFree t size start n = some found →
      FreeAt t size found.get ∧ start.page ≤ found.page ∧ found.page < start.page + n
  | n + 1, start, found, h => by
    unfold findFree at h
    split at h
    next hall =>
      cases h
      exact ⟨all_available_iff.mp hall, le_refl _, by omega⟩
    · obtain ⟨hfree, hlo, hhi⟩ := findFree_some h
      exact ⟨hfree, by simp only at hlo; omega, by simp only at hhi; omega⟩

/-- A scan that passes a free place stops there at the latest. -/
theorem findFree_of_free {size q : Nat} (hfree : FreeAt t size (q * pageSize)) :
    ∀ {n : Nat} {a : PageAddress}, a.page ≤ q → q < a.page + n →
      ∃ found, findFree t size a n = some found ∧ found.page ≤ q
  | 0, _, h1, h2 => by omega
  | n + 1, start, h1, h2 => by
    unfold findFree
    split
    · exact ⟨start, rfl, h1⟩
    next hall =>
      have hne : start.page ≠ q := by
        rintro rfl
        exact hall (all_available_iff.mpr hfree)
      exact findFree_of_free hfree (a := ⟨start.page + 1⟩) (by simp only; omega) (by simp only; omega)

/-! ## 2. The hint -/

/-- What can have happened before a search: other searches, by any process in any mapping and of
any size, and in between anything that sets no hint but that of a new process. -/
inductive Searched : Kernel → Prop where
  | start {k : Kernel} (h : ∀ pid p, k.processes pid = some p → p.allocationHint = .mmapArea) :
      Searched k
  | search {k k' : Kernel} {pid : PID} {virt size va : Nat} (hk : Searched k)
      (h : findVirtualAddress pid virt size k = .ok va k') : Searched k'
  | other {k k' : Kernel} (hk : Searched k) (h : ∀ pid p', k'.processes pid = some p' →
      p'.allocationHint = .mmapArea ∨
        ∃ p, k.processes pid = some p ∧ p.allocationHint = p'.allocationHint) : Searched k'

/-- The hints are in the MMAP area, or behind it. -/
def HintsInArea (k : Kernel) : Prop := ∀ pid p, k.processes pid = some p → mmapArea.page ≤ p.allocationHint.page

theorem findVirtualAddress_cases {k k' : Kernel} {pid : PID} {size va : Nat}
    (h : findVirtualAddress pid 0 size k = .ok va k') : ∃ p start, k.processes k.currentPid = some p ∧
      va = start.get ∧ k'.processes = Function.update k.processes k.currentPid
        (some { p with allocationHint := start }) ∧ FreeAt (k.pageTables pid) size va ∧
      min p.allocationHint.page mmapArea.page ≤ start.page := by
  unfold findVirtualAddress currentProcess at h
  simp only [ne_eq, not_true_eq_false, if_false, Exec.bind_eq_ok, Exec.get_bind_run,
    Exec.unwrap_eq_ok, process_eq_ok, Exec.assert_eq_ok] at h
  obtain ⟨p, k1, ⟨-, hp, hk1⟩, -, _, ⟨-, rfl⟩, h⟩ := h
  subst k1
  cases hupper : findFree (k.pageTables pid) size p.allocationHint
      ((mmapAreaVirtEnd - size - p.allocationHint.get + pageSize - 1) / pageSize) with
  | some start =>
    rw [hupper, Option.some_or] at h
    cases h
    obtain ⟨hfree, hlo, -⟩ := findFree_some hupper
    exact ⟨p, start, hp, rfl, rfl, hfree, by omega⟩
  | none =>
    rw [hupper, Option.none_or] at h
    cases hlower : findFree (k.pageTables pid) size .mmapArea
        ((p.allocationHint.get - mmapAreaVirt + pageSize - 1) / pageSize) with
    | some start =>
      rw [hlower] at h
      cases h
      obtain ⟨hfree, hlo, -⟩ := findFree_some hlower
      exact ⟨p, start, hp, rfl, rfl, hfree, by omega⟩
    | none =>
      rw [hlower] at h
      cases h

theorem Searched.hintsInArea {k : Kernel} (h : Searched k) : HintsInArea k := by
  induction h with
  | start h =>
    intro pid p hp
    rw [h pid p hp]
  | @search k k' pid virt size va _ h ih =>
    by_cases hvirt : virt = 0
    · subst hvirt
      obtain ⟨p, start, hp, -, hprocs, -, hmin⟩ := findVirtualAddress_cases h
      intro q p' hp'
      rw [hprocs, Function.update_apply] at hp'
      split at hp'
      · cases hp'
        have := ih _ p hp
        simp only
        omega
      · exact ih q p' hp'
    · unfold findVirtualAddress at h
      rw [if_pos hvirt] at h
      cases h
      exact ih
  | other _ h ih =>
    intro pid p' hp'
    obtain hnew | ⟨p, hp, heq⟩ := h pid p' hp'
    · rw [hnew]
    · rw [← heq]
      exact ih pid p hp

/-! ## 3. The search -/

/-- **`find_virtual_address` without an address**, after any history: what it returns is a page
address with the whole range free, and if a free range of that size starts in the MMAP area it
returns one inside the area. -/
theorem find_virtual_address_exact {k : Kernel} (h : Searched k) {p : Process}
    (hp : currentProcess k = .ok p k) (pid : PID) (n : Nat)
    (hsize : n * pageSize ≤ mmapAreaVirtEnd - mmapAreaVirt) :
    (∀ va k', findVirtualAddress pid 0 (n * pageSize) k = .ok va k' →
      va % pageSize = 0 ∧ FreeAt (k.pageTables pid) (n * pageSize) va) ∧
    ((∃ s, s % pageSize = 0 ∧ mmapAreaVirt ≤ s ∧ s < mmapAreaVirtEnd - n * pageSize ∧
        FreeAt (k.pageTables pid) (n * pageSize) s) →
      ∃ va k', findVirtualAddress pid 0 (n * pageSize) k = .ok va k' ∧
        mmapAreaVirt ≤ va ∧ va + n * pageSize ≤ mmapAreaVirtEnd) := by
  constructor
  · intro va k' hrun
    obtain ⟨_, start, -, rfl, -, hfree, -⟩ := findVirtualAddress_cases hrun
    exact ⟨Nat.mul_mod_left _ _, hfree⟩
  · rintro ⟨s, hs, hlo, hhi, hfree⟩
    have hproc : k.processes k.currentPid = some p := by
      unfold currentProcess at hp
      rw [Exec.get_bind_run, Exec.unwrap_eq_ok, process_eq_ok] at hp
      exact hp.2.1
    have hint := h.hintsInArea _ p hproc
    have hend : n * pageSize ≤ mmapAreaVirtEnd := le_trans hsize (Nat.sub_le _ _)
    obtain ⟨q, rfl⟩ : ∃ q, s = q * pageSize := ⟨s / pageSize, by
      rw [Nat.div_mul_cancel (Nat.dvd_of_mod_eq_zero hs)]⟩
    have hfound : ∀ {m : Nat} {found : PageAddress}, findFree (k.pageTables pid) (n * pageSize)
          p.allocationHint ((mmapAreaVirtEnd - n * pageSize - p.allocationHint.get + pageSize - 1) /
            pageSize) = some found ∨
        (findFree (k.pageTables pid) (n * pageSize) .mmapArea m = some found ∧ found.page ≤ q) →
        mmapAreaVirt ≤ found.get ∧ found.get + n * pageSize ≤ mmapAreaVirtEnd := by
      rintro m found (hf | ⟨hf, hle⟩)
      · obtain ⟨-, h1, h2⟩ := findFree_some hf
        simp only [PageAddress.get, mmapArea, mmapAreaVirt, mmapAreaVirtEnd, pageSize] at *
        omega
      · obtain ⟨-, h1, -⟩ := findFree_some hf
        simp only [PageAddress.get, mmapArea, mmapAreaVirt, mmapAreaVirtEnd, pageSize] at *
        omega
    simp only [findVirtualAddress, ne_eq, not_true_eq_false, if_false, Exec.bind_ok hp, Exec.assert,
      hend, decide_true, if_true, Exec.pure_bind_run, Exec.get_bind_run]
    cases hupper : findFree (k.pageTables pid) (n * pageSize) p.allocationHint
        ((mmapAreaVirtEnd - n * pageSize - p.allocationHint.get + pageSize - 1) / pageSize) with
    | some found => exact ⟨_, _, rfl, hfound (m := 0) (.inl hupper)⟩
    | none =>
      -- Nothing from the hint on, so the free range is before it.
      have hbefore : q < p.allocationHint.page := by
        by_contra hge
        obtain ⟨found, hf, -⟩ := findFree_of_free hfree (Nat.le_of_not_lt hge) (n :=
          (mmapAreaVirtEnd - n * pageSize - p.allocationHint.get + pageSize - 1) / pageSize) (by
            simp only [PageAddress.get, mmapAreaVirtEnd, pageSize] at *
            omega)
        rw [hupper] at hf
        cases hf
      obtain ⟨found, hf, hle⟩ := findFree_of_free hfree (a := .mmapArea) (n :=
        (p.allocationHint.get - mmapAreaVirt + pageSize - 1) / pageSize)
        (by simp only [mmapArea, mmapAreaVirt, pageSize] at *; omega)
        (by simp only [PageAddress.get, mmapArea, mmapAreaVirt, pageSize] at *; omega)
      simp only [hf, Option.none_or]
      exact ⟨_, _, rfl, hfound (.inr ⟨hf, hle⟩)⟩

/-- A first search, in the mapping of another process. -/
theorem find_virtual_address_first :
    let k := Machine.kernel fun _ => 0
    (∀ va k', findVirtualAddress Machine.p3 0 (2 * pageSize) k = .ok va k' →
      va % pageSize = 0 ∧ FreeAt (k.pageTables Machine.p3) (2 * pageSize) va) ∧
    ((∃ s, s % pageSize = 0 ∧ mmapAreaVirt ≤ s ∧ s < mmapAreaVirtEnd - 2 * pageSize ∧
        FreeAt (k.pageTables Machine.p3) (2 * pageSize) s) →
      ∃ va k', findVirtualAddress Machine.p3 0 (2 * pageSize) k = .ok va k' ∧
        mmapAreaVirt ≤ va ∧ va + 2 * pageSize ≤ mmapAreaVirtEnd) := by
  refine find_virtual_address_exact (.start fun pid p hp => ?_) (p := Machine.userProcess) rfl _ 2 (by decide)
  simp only [Machine.kernel, Machine.processes] at hp
  split at hp
  · cases hp
    rfl
  · split at hp <;> cases hp
    rfl

end BeetKernel.Kernel

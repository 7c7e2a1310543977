/-
# Allocation and claims

What `alloc_range` and a claim of a single page do to the tracker.  `alloc_range` looks for free
pages in five places for one page and in two for a block; between them they cover all of RAM, so
it gives up only when there is no block of that length.
-/
import BeetKernel.Mem.TrackerInvariant

namespace BeetKernel

open Exec (assert_eq_ok bind_eq_ok get_bind_run set_bind_run)

variable {mm mm' : MemoryManager} {idx n : Nat} {zeroed : Bool} {pid : PID} {taken : Nat → Prop}

/-! ## 1. Searches that fail -/

theorem firstOne_none {bits : Nat → Bool} : ∀ {n i : Nat}, firstOne bits i n = none →
    ∀ j, i ≤ j → j < i + n → bits j = false
  | 0, _, _, j, h₁, h2 => by omega
  | n + 1, i, h, j, h₁, h2 => by
    unfold firstOne at h
    split at h
    · cases h
    · rcases Nat.eq_or_lt_of_le h₁ with rfl | hlt
      · exact Bool.eq_false_of_not_eq_true ‹_›
      · exact firstOne_none h j hlt (by omega)

theorem firstOne_eq_none {bits : Nat → Bool} : ∀ {n i : Nat},
    (∀ j, i ≤ j → j < i + n → bits j = false) → firstOne bits i n = none
  | 0, _, _ => rfl
  | n + 1, i, h => by
    unfold firstOne
    rw [h i (le_refl _) (by omega)]
    exact firstOne_eq_none fun j h₁ h2 => h j (by omega) (by omega)

theorem lastIndex_none {p : Nat → Bool} : ∀ {n : Nat}, lastIndex p n = none → ∀ j, j < n → p j = false
  | 0, _, j, h => by omega
  | n + 1, h, j, hj => by
    unfold lastIndex at h
    split at h
    · cases h
    · rcases Nat.lt_succ_iff_lt_or_eq.mp hj with hlt | rfl
      · exact lastIndex_none h j hlt
      · exact Bool.eq_false_of_not_eq_true ‹_›

/-! ## 2. Allocation -/

namespace MemoryManager

/-- The block `alloc_range` takes, and whether the tracker knows it to be zeroed. -/
def pick (mm : MemoryManager) (numPages : Nat) : Option (Nat × Bool) :=
  if numPages = 1 then mm.pickSinglePage else mm.pickRange numPages

/-- A page that is not known to be zeroed is taken only where no zeroed one is in reach. -/
theorem pickSinglePage_dirty (hhint : mm.nextZeroedPageHint ≤ fragmentedAreaPages)
    (h : mm.pickSinglePage = some (idx, false)) : mm.freePagesZeroed idx = false := by
  unfold pickSinglePage at h
  split at h
  · cases h
  next hz1 =>
    split at h
    · cases h
    next hz2 =>
      split at h
      next hd =>
        cases h
        have hlt := firstOne_some hd
        rcases Nat.lt_or_ge idx mm.nextZeroedPageHint with hlo | hhi
        · exact firstOne_none hz2 idx (by omega) (by omega)
        · exact firstOne_none hz1 idx hhi (by omega)
      · split at h
        · cases h
        next hz3 =>
          split at h
          next hd =>
            cases h
            have hlt := firstOne_some hd
            exact firstOne_none hz3 idx hlt.2.1 hlt.2.2
          · cases h

theorem pickSinglePage_lt (hhint : mm.nextZeroedPageHint ≤ fragmentedAreaPages)
    (h : mm.pickSinglePage = some (idx, zeroed)) : idx < ramPages := by
  have hfrag : fragmentedAreaPages ≤ ramPages := by decide
  unfold pickSinglePage at h
  repeat' split at h
  all_goals first
    | cases h; have := firstOne_some (by assumption); omega
    | cases h

theorem pickRange_dirty (hn : 0 < n) (h : mm.pickRange n = some (idx, false)) :
    ∃ j, idx ≤ j ∧ j < idx + n ∧ mm.freePagesZeroed j = false := by
  simp only [pickRange] at h
  split at h
  · cases h
  next hz =>
    split at h
    next hd =>
      cases h
      have hno := lastIndex_none hz idx (lastIndex_some hd).2
      rw [Bool.and_eq_false_iff] at hno
      rcases hno with hno | hno
      · exact ⟨idx, le_refl _, by omega, hno⟩
      · simp only [allOnes, List.all_eq_false, List.mem_range'_1] at hno
        obtain ⟨j, ⟨h₁, h2⟩, hj⟩ := hno
        exact ⟨j, h₁, h2, by simpa using hj⟩
    · cases h

theorem pickRange_lt (h : mm.pickRange n = some (idx, zeroed)) : idx < ramPages - n + 1 := by
  simp only [pickRange] at h
  repeat' split at h
  all_goals first
    | cases h; exact (lastIndex_some (by assumption)).2
    | cases h

/-- The tracker knows the `n` pages from `idx` on to be zeroed. -/
def AllZeroed (mm : MemoryManager) (idx n : Nat) : Prop := ∀ j, idx ≤ j → j < idx + n → mm.freePagesZeroed j = true

/-- What `alloc_range` does when it succeeds. -/
structure Allocated (mm : MemoryManager) (numPages : Nat) (pid : PID) (idx : Nat) (zeroed : Bool)
    (mm' : MemoryManager) : Prop where
  picked : mm.pick numPages = some (idx, zeroed)
  inRam : idx + numPages ≤ ramPages
  wasFree : ∀ j, idx ≤ j → j < idx + numPages → mm.freePagesZeroed j = true ∨ mm.freePagesDirty j = true
  zeroed_iff : zeroed = true ↔ mm.AllZeroed idx numPages
  unowned : numPages = 1 → mm.allocations idx = none
  allocations : mm'.allocations = fill mm.allocations idx numPages (some pid)

theorem subtractFreePages_ok {u : Unit} (h : subtractFreePages n mm = .ok u mm') : mm'.allocations = mm.allocations ∧
      mm'.freePagesZeroed = mm.freePagesZeroed ∧ mm'.freePagesDirty = mm.freePagesDirty ∧
      mm'.extraRegions = mm.extraRegions := by
  unfold subtractFreePages at h
  simp only [get_bind_run, bind_eq_ok, assert_eq_ok] at h
  obtain ⟨-, _, ⟨-, rfl⟩, h⟩ := h
  split at h <;> cases h <;> exact ⟨rfl, rfl, rfl, rfl⟩

theorem allocationAt_ok {offset : Nat} {owner : Option PID}
    (h : allocationAt offset mm = .ok owner mm') : mm' = mm ∧ owner = mm.allocations offset := by
  unfold allocationAt at h
  simp only [get_bind_run, bind_eq_ok, assert_eq_ok] at h
  obtain ⟨-, _, ⟨-, rfl⟩, h⟩ := h
  cases h
  exact ⟨rfl, rfl⟩

theorem allocSinglePage_ok {phys : Nat} (h : allocSinglePage pid mm = .ok (phys, zeroed) mm') :
    ∃ idx, phys = dramBase + idx * pageSize ∧ Allocated mm 1 pid idx zeroed mm' := by
  unfold allocSinglePage at h
  simp only [get_bind_run, bind_eq_ok, assert_eq_ok, decide_eq_true_eq] at h
  obtain ⟨-, _, ⟨hhint, rfl⟩, h⟩ := h
  cases hpick : mm.pickSinglePage with
  | none => simp [hpick] at h
  | some p =>
    obtain ⟨idx, z⟩ := p
    simp only [hpick, set_bind_run, bind_eq_ok, assert_eq_ok] at h
    obtain ⟨owner, _, hat, -, _, ⟨hnone, rfl⟩, _, mm2, hsub, _, mm3, hset, _, mm4, hmod, h⟩ := h
    obtain ⟨rfl, rfl⟩ := allocationAt_ok hat
    cases hset
    cases hmod
    cases h
    have hown : mm.allocations idx = none := by
      rw [Option.isNone_iff_eq_none] at hnone
      split at hnone <;> exact hnone
    have halloc : mm2.allocations = mm.allocations := by
      rw [(subtractFreePages_ok hsub).1]
      split <;> rfl
    have hbit := pickSinglePage_some hpick
    refine ⟨idx, rfl, ⟨by simpa [pick] using hpick, pickSinglePage_lt hhint hpick, ?_, ?_, fun _ => hown, ?_⟩⟩
    · intro j h₁ h2
      obtain rfl : j = idx := by omega
      cases zeroed <;> simp_all
    · constructor
      · rintro rfl j h₁ h2
        obtain rfl : j = idx := by omega
        simpa using hbit
      · intro hall
        have hz := hall idx (le_refl _) (by omega)
        cases zeroed with
        | true => rfl
        | false => rw [pickSinglePage_dirty hhint hpick] at hz; exact hz
    · rw [fill_one]
      simp only [halloc]

theorem allocRangeAligned_ok {phys : Nat} (hn : n ≠ 1) (h : allocRangeAligned n pid mm = .ok (phys, zeroed) mm') :
    ∃ idx, phys = dramBase + idx * pageSize ∧ Allocated mm n pid idx zeroed mm' := by
  unfold allocRangeAligned at h
  simp only [bind_eq_ok, assert_eq_ok, get_bind_run] at h
  obtain ⟨-, _, ⟨hle, rfl⟩, -, _, ⟨hpos, rfl⟩, h⟩ := h
  rw [decide_eq_true_eq] at hle hpos
  cases hpick : mm.pickRange n with
  | none => simp [hpick] at h
  | some p =>
    obtain ⟨idx, z⟩ := p
    simp only [hpick, bind_eq_ok, assert_eq_ok, get_bind_run, set_bind_run] at h
    obtain ⟨_, mm1, hsub, -, _, ⟨-, rfl⟩, h⟩ := h
    cases h
    have halloc : mm1.allocations = mm.allocations := (subtractFreePages_ok hsub).1
    have hbits := pickRange_some hpick
    refine ⟨idx, rfl, ⟨by simpa [pick, hn] using hpick, ?_, ?_, ?_, fun h1 => absurd h1 hn, ?_⟩⟩
    · have := pickRange_lt hpick
      omega
    · intro j h₁ h2
      cases zeroed <;> grind
    · constructor
      · rintro rfl j h₁ h2
        grind
      · intro hall
        cases zeroed with
        | true => rfl
        | false =>
          obtain ⟨j, h₁, h2, hj⟩ := pickRange_dirty (by omega) hpick
          rw [hall j h₁ h2] at hj
          exact hj.symm
    · simp only [halloc]

theorem allocRange_ok {phys : Nat} (h : allocRange n pid mm = .ok (phys, zeroed) mm') :
    ∃ idx, phys = dramBase + idx * pageSize ∧ Allocated mm n pid idx zeroed mm' := by
  unfold allocRange at h
  split at h
  next h1 =>
    subst h1
    exact allocSinglePage_ok h
  · exact allocRangeAligned_ok ‹_› h

/-! ## 3. Allocation finds what there is -/

/-- Where a single page is looked for, one after the other, is all of RAM. -/
theorem pickSinglePage_none (h : Inv mm taken) (hnone : mm.pickSinglePage = none) (i : Nat) : ¬ mm.Free i := by
  have hhint := h.zeroedHint
  have hfrag : fragmentedAreaPages ≤ ramPages := by decide
  intro hfree
  have hi : i < ramPages := lt_of_lt_of_le (h.of_free hfree).1 (Inv.tracked_le mm)
  unfold pickSinglePage at hnone
  split at hnone
  · cases hnone
  next hz1 =>
    split at hnone
    · cases hnone
    next hz2 =>
      split at hnone
      · cases hnone
      next hd1 =>
        split at hnone
        · cases hnone
        next hz3 =>
          split at hnone
          · cases hnone
          next hd2 =>
            rcases hfree with hb | hb
            · rcases Nat.lt_or_ge i fragmentedAreaPages with hlo | hhi
              · exact absurd (firstOne_none hd1 i (by omega) (by omega)) (by rw [hb]; decide)
              · exact absurd (firstOne_none hd2 i hhi (by omega)) (by rw [hb]; decide)
            · rcases Nat.lt_or_ge i fragmentedAreaPages with hlo | hhi
              · rcases Nat.lt_or_ge i mm.nextZeroedPageHint with hlo' | hhi'
                · exact absurd (firstOne_none hz2 i (by omega) (by omega)) (by rw [hb]; decide)
                · exact absurd (firstOne_none hz1 i hhi' (by omega)) (by rw [hb]; decide)
              · exact absurd (firstOne_none hz3 i hhi (by omega)) (by rw [hb]; decide)

theorem pickRange_none (h : Inv mm taken) {a : Nat}
    (hn : 0 < n) (hnone : mm.pickRange n = none) : ¬ ∀ i, a ≤ i → i < a + n → mm.Free i := by
  intro hfree
  have hlast := (h.of_free (hfree (a + n - 1) (by omega) (by omega))).1
  have hle := Inv.tracked_le mm
  simp only [pickRange] at hnone
  split at hnone
  · cases hnone
  · split at hnone
    · cases hnone
    next hmixed =>
      have hno := lastIndex_none hmixed a (by omega)
      simp only [allOnes, List.all_eq_false, List.mem_range'_1] at hno
      obtain ⟨j, ⟨h₁, h2⟩, hj⟩ := hno
      rcases hfree j h₁ h2 with hb | hb <;> simp [hb] at hj

/-- `alloc_range` on a consistent tracker: the block it picks becomes the process's. -/
theorem allocRange_spec (h : Inv mm taken) (hn : 0 < n) (hle : n ≤ ramPages) (pid : PID) : match mm.pick n with
      | none => allocRange n pid mm = .err .outOfMemory mm
      | some (idx, zeroed) => ∃ mm', allocRange n pid mm =
          .ok (dramBase + idx * pageSize, zeroed) mm' ∧ Owned mm pid idx n mm' ∧ Inv mm' taken := by
  by_cases h1 : n = 1
  · subst h1
    exact allocSinglePage_spec h pid
  · rw [pick, allocRange, if_neg h1, if_neg h1]
    exact allocRangeAligned_spec h hn hle pid

/-- **`alloc_range` is sound and complete.**  It hands out a block of pages that were all free,
gives exactly those to the process, and calls them zeroed only if they all were; or there is no
such block, and nothing changes. -/
theorem alloc_range_exact (h : Inv mm taken) (n : Nat) (hn : 1 ≤ n) (hle : n ≤ ramPages) (pid : PID) :
    (∃ idx zeroed mm', allocRange n pid mm = .ok (dramBase + idx * pageSize, zeroed) mm' ∧
      idx + n ≤ ramPages ∧ (∀ i, idx ≤ i → i < idx + n → mm.Free i) ∧ Owned mm pid idx n mm' ∧
      (zeroed = true → mm.AllZeroed idx n)) ∨
    (allocRange n pid mm = .err .outOfMemory mm ∧ ¬ ∃ a, ∀ i, a ≤ i → i < a + n → mm.Free i) := by
  have hspec := allocRange_spec h hn hle pid
  cases hpick : mm.pick n with
  | none =>
    rw [hpick] at hspec
    refine .inr ⟨hspec, ?_⟩
    rintro ⟨a, hfree⟩
    unfold pick at hpick
    split at hpick
    · exact pickSinglePage_none h hpick a (hfree a (le_refl a) (by omega))
    · exact pickRange_none h hn hpick hfree
  | some p =>
    obtain ⟨idx, zeroed⟩ := p
    rw [hpick] at hspec
    obtain ⟨mm', hrun, ho, -⟩ := hspec
    obtain ⟨idx', haddr, ha⟩ := allocRange_ok hrun
    obtain rfl : idx = idx' := by
      simp only [pageSize] at haddr
      omega
    exact .inl ⟨idx, zeroed, mm', hrun, ha.inRam, fun i h₁ h2 => (ha.wasFree i h₁ h2).symm, ho, ha.zeroed_iff.mp⟩

/-- Two pages at boot. -/
theorem alloc_range_exact_boot :
    let mm := MemoryManager.initFromBootstrap [none, none]
    (∃ idx zeroed mm', allocRange 2 ⟨1, by decide, by decide⟩ mm =
        .ok (dramBase + idx * pageSize, zeroed) mm' ∧ idx + 2 ≤ ramPages ∧
      (∀ i, idx ≤ i → i < idx + 2 → mm.Free i) ∧ Owned mm ⟨1, by decide, by decide⟩ idx 2 mm' ∧
      (zeroed = true → mm.AllZeroed idx 2)) ∨
    (allocRange 2 ⟨1, by decide, by decide⟩ mm = .err .outOfMemory mm ∧ ¬ ∃ a, ∀ i, a ≤ i → i < a + 2 → mm.Free i) :=
  alloc_range_exact (Inv.initFromBootstrap _) 2 (by decide) (by decide) _

/-! ## 4. The next dirty page -/

theorem pickSinglePage_first_dirty (hz : ∀ j, mm.freePagesZeroed j = false)
    (hd : firstOne mm.freePagesDirty 0 fragmentedAreaPages = some idx) :
    mm.pickSinglePage = some (idx, false) := by
  unfold pickSinglePage
  rw [firstOne_eq_none fun j _ _ => hz j, firstOne_eq_none fun j _ _ => hz j, hd]

/-- The next page to be handed out is the dirty page `idx`, and memory is not low. -/
structure NextDirty (mm : MemoryManager) (idx : Nat) : Prop where
  hint : mm.nextZeroedPageHint ≤ fragmentedAreaPages
  zeroed : ∀ j, mm.freePagesZeroed j = false
  dirty : firstOne mm.freePagesDirty 0 fragmentedAreaPages = some idx
  unowned : mm.allocations idx = none
  tracked : idx < mm.allocationsLen
  plenty : lowMemoryThreshold / pageSize < mm.numFreePages
  quiet : mm.lowMemoryEvent = false

/-- The tracker after `alloc_single_page` has handed out the dirty page `idx`. -/
def takeDirty (mm : MemoryManager) (idx : Nat) (pid : PID) : MemoryManager := { mm with
    freePagesDirty := Function.update mm.freePagesDirty idx false
    allocations := Function.update mm.allocations idx (some pid)
    numFreePages := mm.numFreePages - 1
    nextZeroedPageHint := if idx + 1 > fragmentedAreaPages then 0 else idx + 1 }

theorem allocRange_run (pid : PID) (h : mm.NextDirty idx) :
    allocRange 1 pid mm = .ok (dramBase + idx * pageSize, false) (mm.takeDirty idx pid) := by
  have hpick := pickSinglePage_first_dirty h.zeroed h.dirty
  have hplenty := h.plenty
  have hone : 1 ≤ mm.numFreePages := Nat.lt_of_le_of_lt (Nat.zero_le _) hplenty
  have hnotLow : ¬ (mm.numFreePages - 1 < lowMemoryThreshold / pageSize) := by omega
  simp [allocRange, allocSinglePage, Exec.assert, h.hint, hpick, Exec.bind_run, allocationAt,
    h.tracked, h.unowned, subtractFreePages, hone, hnotLow, setAllocation, takeDirty]

/-! ## 5. Claims -/

/-- What a successful claim of a page of RAM does. -/
structure Claimed (mm : MemoryManager) (offset : Nat) (pid : PID) (mm' : MemoryManager) : Prop where
  wasFree : mm.freePagesZeroed offset = true ∨ mm.freePagesDirty offset = true
  allocations : mm'.allocations = Function.update mm.allocations offset (some pid)
  zeroed : ∀ i, i ≠ offset → mm'.freePagesZeroed i = mm.freePagesZeroed i
  dirty : ∀ i, i ≠ offset → mm'.freePagesDirty i = mm.freePagesDirty i

theorem claimOffset_ok {offset : Nat} {u : Unit} (hlt : offset < ramPages) (h : claimOffset offset pid mm = .ok u mm') :
    Claimed mm offset pid mm' := by
  unfold claimOffset at h
  rw [bind_eq_ok] at h
  obtain ⟨owner, _, hat, h⟩ := h
  obtain ⟨rfl, rfl⟩ := allocationAt_ok hat
  split at h
  · cases h
  · simp only [get_bind_run] at h
    split at h
    next hz =>
      simp only [set_bind_run, bind_eq_ok] at h
      obtain ⟨_, mm1, hsub, hset⟩ := h
      obtain ⟨ha, hz', hd', -⟩ := subtractFreePages_ok hsub
      cases hset
      exact ⟨.inl hz, by simp only [ha], fun i hi => by simp [hz', hi], fun i _ => by simp [hd']⟩
    · split at h
      next hd =>
        simp only [set_bind_run, bind_eq_ok] at h
        obtain ⟨_, mm1, hsub, hset⟩ := h
        obtain ⟨ha, hz', hd', -⟩ := subtractFreePages_ok hsub
        cases hset
        exact ⟨.inr hd, by simp only [ha], fun i _ => by simp [hz'], fun i hi => by simp [hd', hi]⟩
      · cases h

end MemoryManager

end BeetKernel

/-
# Every page is in exactly one state

The tracker keeps an owner array, two bitmaps, a counter and two hints, and updates them
separately.  `Inv mm taken` says how they agree: a page with an owner has both free bits
clear, no page has both bits set, a page without owner and without bits is one that is being
zeroed (`taken`), and the counter is the number of pages without an owner.

Every operation moves some pages from one state to another, so there is one lemma for each
kind of move (`Inv.own`, `Inv.free`, `Inv.reown`, `Inv.take`, `Inv.giveBack`), and each
operation is shown to make such a move.
-/
import Mathlib.Order.Interval.Finset.Nat
import BeetKernel.Mem.Tracker

namespace BeetKernel

open Function (update_apply update_of_ne update)
open Exec (bind_ok bind_run get_bind_run post post_attempt post_bind post_err post_of_ok post_ok post_panic post_seq
  pure_bind_run set_bind_run)

variable {n i a : Nat} {mm : MemoryManager} {zeroed : Bool} {taken : Nat → Prop} {out : List (Nat × Nat)}

/-! ## 1. Searching bitmaps -/

variable {bits : Nat → Bool}

theorem firstOne_some : ∀ {n i k : Nat}, firstOne bits i n = some k → bits k = true ∧ i ≤ k ∧ k < i + n
  | 0, i, k, h => by cases h
  | n + 1, i, k, h => by
    unfold firstOne at h
    split at h
    · cases h
      exact ⟨by assumption, by omega, by omega⟩
    · obtain ⟨hb, h1, h2⟩ := firstOne_some h
      exact ⟨hb, by omega, by omega⟩

theorem leadingOnes_spec (bits : Nat → Bool) : ∀ {n i k : Nat}, i ≤ k →
    k < i + leadingOnes bits i n → bits k = true ∧ k < i + n
  | 0, i, k, _, h => by simp only [leadingOnes] at h; omega
  | n + 1, i, k, hik, h => by
    unfold leadingOnes at h
    split at h
    next hb =>
      by_cases hk : k = i
      · subst hk; exact ⟨hb, by omega⟩
      · obtain ⟨h1, h2⟩ := leadingOnes_spec bits (n := n) (i := i + 1) (k := k) (by omega) (by omega)
        exact ⟨h1, by omega⟩
    · omega

theorem leadingOnes_pos (hb : bits i = true) (hn : 0 < n) : 0 < leadingOnes bits i n := by
  cases n with
  | zero => omega
  | succ n => simp [leadingOnes, hb]

theorem allOnes_spec {k : Nat} (h : allOnes bits i n = true) (hi : i ≤ k) (hk : k < i + n) : bits k = true := by
  unfold allOnes at h
  rw [List.all_eq_true] at h
  exact h k (by rw [List.mem_range'_1]; omega)

theorem lastIndex_some {p : Nat → Bool} : ∀ {n k : Nat}, lastIndex p n = some k → p k = true ∧ k < n
  | 0, k, h => by cases h
  | n + 1, k, h => by
    unfold lastIndex at h
    split at h
    · cases h
      exact ⟨by assumption, by omega⟩
    · obtain ⟨hp, hk⟩ := lastIndex_some h
      exact ⟨hp, by omega⟩

theorem fill_one {α : Type} (f : Nat → α) (i : Nat) (v : α) : fill f i 1 v = update f i v := by
  funext j
  rw [fill, update_apply]
  by_cases h : j = i
  · rw [if_pos h, if_pos ⟨by omega, by omega⟩]
  · rw [if_neg h, if_neg (by omega)]

namespace MemoryManager

/-! ## 2. The invariant -/

/-- The number of RAM pages the tracker covers. -/
def tracked (mm : MemoryManager) : Nat := min mm.allocationsLen ramPages

/-- The tracked RAM pages without an owner. -/
def unowned (mm : MemoryManager) : Finset Nat := (Finset.range mm.tracked).filter (fun i => mm.allocations i = none)

theorem mem_unowned : i ∈ mm.unowned ↔ i < mm.tracked ∧ mm.allocations i = none := by
  rw [unowned, Finset.mem_filter, Finset.mem_range]

/-- The page is in one of the two bitmaps. -/
def Free (mm : MemoryManager) (i : Nat) : Prop := mm.freePagesDirty i = true ∨ mm.freePagesZeroed i = true

/-- The `n` pages from `a` on go from the bitmaps to `pid`, and no other page changes. -/
structure Owned (mm : MemoryManager) (pid : PID) (a n : Nat) (mm' : MemoryManager) : Prop where
  allocations : mm'.allocations = fill mm.allocations a n (some pid)
  len : mm'.allocationsLen = mm.allocationsLen
  dirty : ∀ i, mm'.freePagesDirty i = (mm.freePagesDirty i && !decide (a ≤ i ∧ i < a + n))
  zeroed : ∀ i, mm'.freePagesZeroed i = (mm.freePagesZeroed i && !decide (a ≤ i ∧ i < a + n))
  count : mm'.numFreePages = mm.numFreePages - n

/-- The parts of the tracker agree, and `taken` are the pages being zeroed. -/
structure Inv (mm : MemoryManager) (taken : Nat → Prop) : Prop where
  dirty : ∀ i, mm.freePagesDirty i = true → i < mm.tracked ∧ mm.allocations i = none ∧ mm.freePagesZeroed i = false
  zeroed : ∀ i, mm.freePagesZeroed i = true → i < mm.tracked ∧ mm.allocations i = none ∧ mm.freePagesDirty i = false
  taken : ∀ i, taken i ↔ i < mm.tracked ∧ mm.allocations i = none ∧
    mm.freePagesDirty i = false ∧ mm.freePagesZeroed i = false
  count : mm.numFreePages = mm.unowned.card
  zeroedHint : mm.nextZeroedPageHint ≤ fragmentedAreaPages
  dirtyHint : mm.nextDirtyPageHint.getD 0 ≤ ramPages

namespace Inv

variable {mm mm' : MemoryManager} {taken : Nat → Prop}

theorem tracked_le (mm : MemoryManager) : mm.tracked ≤ ramPages := Nat.min_le_right _ _

/-- The invariant looks at the owners, the bitmaps, the counter and the hints only. -/
theorem congr (h : Inv mm taken) (ha : mm'.allocations = mm.allocations)
    (hl : mm'.allocationsLen = mm.allocationsLen) (hd : mm'.freePagesDirty = mm.freePagesDirty)
    (hz : mm'.freePagesZeroed = mm.freePagesZeroed) (hc : mm'.numFreePages = mm.numFreePages)
    (hzh : mm'.nextZeroedPageHint ≤ fragmentedAreaPages)
    (hdh : mm'.nextDirtyPageHint.getD 0 ≤ ramPages) : Inv mm' taken := by
  have htr : mm'.tracked = mm.tracked := by rw [tracked, tracked, hl]
  have hun : mm'.unowned = mm.unowned := by rw [unowned, unowned, htr, ha]
  refine ⟨?_, ?_, ?_, ?_, hzh, hdh⟩
  · intro i; rw [hd, hz, ha, htr]; exact h.dirty i
  · intro i; rw [hd, hz, ha, htr]; exact h.zeroed i
  · intro i; rw [hd, hz, ha, htr]; exact h.taken i
  · rw [hc, hun]; exact h.count

theorem of_free (h : Inv mm taken) (hfree : mm.Free i) : i < mm.tracked ∧ mm.allocations i = none := by
  rcases hfree with hb | hb
  · exact ⟨(h.dirty i hb).1, (h.dirty i hb).2.1⟩
  · exact ⟨(h.zeroed i hb).1, (h.zeroed i hb).2.1⟩

theorem Ico_subset_unowned (h : Inv mm taken) (hfree : ∀ i, a ≤ i → i < a + n → mm.Free i) :
    Finset.Ico a (a + n) ⊆ mm.unowned := by
  intro i hi
  rw [Finset.mem_Ico] at hi
  rw [mem_unowned]
  exact h.of_free (hfree i hi.1 hi.2)

/-- **Free pages become owned.**  The counter covers them, and goes down by their number. -/
theorem own {pid : PID} (h : Inv mm taken) (ho : Owned mm pid a n mm') (hfree : ∀ i, a ≤ i → i < a + n → mm.Free i)
    (hzh : mm'.nextZeroedPageHint ≤ fragmentedAreaPages)
    (hdh : mm'.nextDirtyPageHint.getD 0 ≤ ramPages) : Inv mm' taken := by
  obtain ⟨ha, hl, hd, hz, hc⟩ := ho
  have htr : mm'.tracked = mm.tracked := by rw [tracked, tracked, hl]
  refine ⟨?_, ?_, ?_, ?_, hzh, hdh⟩
  · intro i hi
    rw [hd, Bool.and_eq_true, Bool.not_eq_true', decide_eq_false_iff_not] at hi
    obtain ⟨h1, h2, h3⟩ := h.dirty i hi.1
    rw [htr, ha, fill, if_neg hi.2, hz, h3]
    exact ⟨h1, h2, rfl⟩
  · intro i hi
    rw [hz, Bool.and_eq_true, Bool.not_eq_true', decide_eq_false_iff_not] at hi
    obtain ⟨h1, h2, h3⟩ := h.zeroed i hi.1
    rw [htr, ha, fill, if_neg hi.2, hd, h3]
    exact ⟨h1, h2, rfl⟩
  · intro i
    rw [h.taken i, htr, ha, fill, hd, hz]
    by_cases hi : a ≤ i ∧ i < a + n
    · -- The page was free, so it was not taken, and now it is owned.
      have := hfree i hi.1 hi.2
      simp only [hi, and_self, if_true, decide_true]
      constructor
      · rintro ⟨_, _, h1, h2⟩
        rw [Free, h1, h2] at this
        simp at this
      · rintro ⟨_, h1, _⟩
        cases h1
    · simp [hi]
  · have hun : mm'.unowned = mm.unowned \ Finset.Ico a (a + n) := by
      ext i
      rw [mem_unowned, Finset.mem_sdiff, mem_unowned, Finset.mem_Ico, htr, ha, fill]
      by_cases hi : a ≤ i ∧ i < a + n
      · simp [hi]
      · simp [hi]
    rw [hc, h.count, hun, Finset.card_sdiff_of_subset (h.Ico_subset_unowned hfree), Nat.card_Ico,
      Nat.add_sub_cancel_left]

theorem le_numFreePages (h : Inv mm taken) (hfree : ∀ i, a ≤ i → i < a + n → mm.Free i) : n ≤ mm.numFreePages := by
  have := Finset.card_le_card (h.Ico_subset_unowned hfree)
  rw [Nat.card_Ico] at this
  rw [h.count]
  omega

/-- **An owned page becomes free and dirty.** -/
theorem free {pid : PID} (h : Inv mm taken) (hi : i < mm.tracked) (howner : mm.allocations i = some pid)
    (ha : mm'.allocations = update mm.allocations i none)
    (hl : mm'.allocationsLen = mm.allocationsLen)
    (hd : mm'.freePagesDirty = update mm.freePagesDirty i true)
    (hz : mm'.freePagesZeroed = mm.freePagesZeroed)
    (hc : mm'.numFreePages = mm.numFreePages + 1)
    (hzh : mm'.nextZeroedPageHint ≤ fragmentedAreaPages)
    (hdh : mm'.nextDirtyPageHint.getD 0 ≤ ramPages) : Inv mm' taken := by
  have htr : mm'.tracked = mm.tracked := by rw [tracked, tracked, hl]
  have hzi : mm.freePagesZeroed i = false := by
    cases hb : mm.freePagesZeroed i with
    | false => rfl
    | true => rw [(h.zeroed i hb).2.1] at howner; cases howner
  refine ⟨?_, ?_, ?_, ?_, hzh, hdh⟩
  · intro k hk
    rw [hd, update_apply] at hk
    rw [htr, ha, hz, update_apply]
    by_cases hki : k = i
    · subst hki; simp [hi, hzi]
    · rw [if_neg hki] at hk ⊢; exact h.dirty k hk
  · intro k hk
    rw [hz] at hk
    have hki : k ≠ i := by rintro rfl; rw [hzi] at hk; cases hk
    rw [htr, ha, hd, update_of_ne hki, update_of_ne hki]
    exact h.zeroed k hk
  · intro k
    rw [h.taken k, htr, ha, hd, hz, update_apply, update_apply]
    by_cases hki : k = i
    · subst hki; simp [howner]
    · rw [if_neg hki, if_neg hki]
  · have hun : mm'.unowned = insert i mm.unowned := by
      ext k
      rw [mem_unowned, Finset.mem_insert, mem_unowned, htr, ha, update_apply]
      by_cases hki : k = i
      · subst hki; simp [hi]
      · simp [hki]
    have hnot : i ∉ mm.unowned := by
      rw [mem_unowned, howner]
      simp
    rw [hc, h.count, hun, Finset.card_insert_of_notMem hnot]

theorem numFreePages_lt {pid : PID} (h : Inv mm taken) (hi : i < mm.tracked)
    (howner : mm.allocations i = some pid) : mm.numFreePages < ramPages := by
  have hssub : mm.unowned ⊂ Finset.range mm.tracked := by
    refine (Finset.filter_ssubset).mpr ⟨i, Finset.mem_range.mpr hi, ?_⟩
    rw [howner]
    simp
  have := Finset.card_lt_card hssub
  rw [Finset.card_range] at this
  have := tracked_le mm
  rw [h.count]
  omega

/-- **A page changes hands**, or an entry outside RAM changes. -/
theorem reown {owner : Option PID} (h : Inv mm taken) (hi : i < mm.tracked → (mm.allocations i).isSome ∧ owner.isSome) :
    Inv { mm with allocations := update mm.allocations i owner } taken := by
  have hsame : ∀ k, k < mm.tracked → (update mm.allocations i owner k = none ↔ mm.allocations k = none) := by
    intro k hk
    rw [update_apply]
    by_cases hki : k = i
    · subst hki
      obtain ⟨h1, h2⟩ := hi hk
      rw [Option.isSome_iff_ne_none] at h1 h2
      simp [h1, h2]
    · rw [if_neg hki]
  refine ⟨?_, ?_, ?_, ?_, h.zeroedHint, h.dirtyHint⟩
  · intro k hk
    obtain ⟨h1, h2, h3⟩ := h.dirty k hk
    exact ⟨h1, (hsame k h1).mpr h2, h3⟩
  · intro k hk
    obtain ⟨h1, h2, h3⟩ := h.zeroed k hk
    exact ⟨h1, (hsame k h1).mpr h2, h3⟩
  · intro k
    rw [h.taken k]
    constructor
    · rintro ⟨h1, h2, h3⟩
      exact ⟨h1, (hsame k h1).mpr h2, h3⟩
    · rintro ⟨h1, h2, h3⟩
      exact ⟨h1, (hsame k h1).mp h2, h3⟩
  · rw [h.count]
    congr 1
    ext k
    rw [mem_unowned, mem_unowned]
    constructor
    · rintro ⟨h1, h2⟩; exact ⟨h1, (hsame k h1).mpr h2⟩
    · rintro ⟨h1, h2⟩; exact ⟨h1, (hsame k h1).mp h2⟩

/-- **Dirty pages are taken for zeroing.** -/
theorem take (h : Inv mm taken) (hint : Option Nat) (hdirty : ∀ i, a ≤ i → i < a + n → mm.freePagesDirty i = true)
    (hhint : hint.getD 0 ≤ ramPages) :
    Inv { mm with freePagesDirty := fill mm.freePagesDirty a n false, nextDirtyPageHint := hint }
      (fun i => (a ≤ i ∧ i < a + n) ∨ taken i) := by
  refine ⟨?_, ?_, ?_, h.count, h.zeroedHint, hhint⟩
  · intro i hi
    have hi' : fill mm.freePagesDirty a n false i = true := hi
    unfold fill at hi'
    split at hi'
    · cases hi'
    · exact h.dirty i hi'
  · intro i hi
    obtain ⟨h1, h2, h3⟩ := h.zeroed i hi
    refine ⟨h1, h2, ?_⟩
    show fill mm.freePagesDirty a n false i = false
    unfold fill
    split
    · rfl
    · exact h3
  · intro i
    show _ ↔ i < mm.tracked ∧ mm.allocations i = none ∧
      fill mm.freePagesDirty a n false i = false ∧ mm.freePagesZeroed i = false
    unfold fill
    by_cases hi : a ≤ i ∧ i < a + n
    · obtain ⟨h1, h2, h3⟩ := h.dirty i (hdirty i hi.1 hi.2)
      simp [hi, h1, h2, h3]
    · simp [hi, h.taken i]

/-- **Taken pages are given back as zeroed.** -/
theorem giveBack (h : Inv mm taken) (htaken : ∀ i, a ≤ i → i < a + n → taken i) :
    Inv { mm with freePagesZeroed := fill mm.freePagesZeroed a n true } (fun i => taken i ∧ ¬ (a ≤ i ∧ i < a + n)) := by
  refine ⟨?_, ?_, ?_, h.count, h.zeroedHint, h.dirtyHint⟩
  · intro i hi
    obtain ⟨h1, h2, h3⟩ := h.dirty i hi
    refine ⟨h1, h2, ?_⟩
    show fill mm.freePagesZeroed a n true i = false
    unfold fill
    rw [if_neg]
    · exact h3
    · intro hr
      have := ((h.taken i).mp (htaken i hr.1 hr.2)).2.2.1
      rw [this] at hi
      cases hi
  · intro i hi
    have hi' : fill mm.freePagesZeroed a n true i = true := hi
    unfold fill at hi'
    split at hi'
    next hr =>
      obtain ⟨h1, h2, h3, _⟩ := (h.taken i).mp (htaken i hr.1 hr.2)
      exact ⟨h1, h2, h3⟩
    · exact h.zeroed i hi'
  · intro i
    show _ ↔ i < mm.tracked ∧ mm.allocations i = none ∧
      mm.freePagesDirty i = false ∧ fill mm.freePagesZeroed a n true i = false
    unfold fill
    by_cases hr : a ≤ i ∧ i < a + n
    · simp [hr]
    · simp [hr, h.taken i]

theorem card_unowned_take (l : List (Option PID)) : ∀ n, n ≤ l.length →
    ((Finset.range n).filter (fun i => (l[i]?).join = none)).card = (l.take n).countP Option.isNone
  | 0, _ => rfl
  | n + 1, hn => by
    have hget : l[n]? = some l[n] := List.getElem?_eq_getElem (by omega)
    rw [Finset.range_add_one, Finset.filter_insert, List.take_add_one, List.countP_append,
      ← card_unowned_take l n (by omega), hget]
    cases hln : l[n] with
    | none =>
      rw [if_pos (by rfl), Finset.card_insert_of_notMem (by simp)]
      rfl
    | some pid =>
      rw [if_neg (by simp)]
      rfl

/-- A tracker just taken over from boot. -/
theorem initFromBootstrap (allocations : List (Option PID)) :
    Inv (MemoryManager.initFromBootstrap allocations) (fun _ => False) := by
  refine ⟨?_, ?_, ?_, ?_, Nat.zero_le _, Nat.zero_le _⟩
  · intro i hi
    simp only [MemoryManager.initFromBootstrap, Bool.and_eq_true, decide_eq_true_eq, Option.isNone_iff_eq_none] at hi
    exact ⟨hi.1, hi.2, rfl⟩
  · intro i hi
    cases hi
  · intro i
    simp only [false_iff, MemoryManager.initFromBootstrap, tracked, MemoryManager.default]
    rintro ⟨h1, h2, h3, _⟩
    simp [h1, h2] at h3
  · exact (card_unowned_take allocations _ (Nat.min_le_left _ _)).symm

end Inv

/-! ## 3. The operations -/

/-- The panics that would mean the parts of the tracker disagree. -/
def inconsistencies : List String := ["BUG: DOUBLE ALLOC",
    "assertion failed: self.num_free_pages.saturating_add(pages) <= RAM_PAGES",
    "assertion failed: self.num_free_pages >= pages"]

/-- The outcome leaves the tracker consistent; if the operation panicked, then not over an
inconsistency. -/
def Consistent {α : Type} (taken : Nat → Prop) : Outcome MemoryManager Error α → Prop
  | .ok _ mm => Inv mm taken
  | .err _ mm => Inv mm taken
  | .panic msg => msg ∉ inconsistencies

theorem subtractFreePages_run (mm : MemoryManager) (pages : Nat) (h : pages ≤ mm.numFreePages) :
    ∃ lowMemory lowMemoryEvent, subtractFreePages pages mm = .ok () { mm with
      numFreePages := mm.numFreePages - pages, lowMemory, lowMemoryEvent } := by
  simp only [subtractFreePages, get_bind_run, Exec.assert, ge_iff_le, h, decide_true, if_true, pure_bind_run]
  split
  · exact ⟨true, true, rfl⟩
  · exact ⟨mm.lowMemory, mm.lowMemoryEvent, rfl⟩

theorem addFreePages_run (pages : Nat) (mm : MemoryManager) (h : mm.numFreePages + pages ≤ ramPages) :
    ∃ lowMemory, addFreePages pages mm = .ok () { mm with
      numFreePages := mm.numFreePages + pages, lowMemory } := by
  simp only [addFreePages, get_bind_run, Exec.assert, h, decide_true, if_true, pure_bind_run]
  exact ⟨_, rfl⟩

theorem pickSinglePage_some {idx : Nat} (h : mm.pickSinglePage = some (idx, zeroed)) :
    (if zeroed then mm.freePagesZeroed idx else mm.freePagesDirty idx) = true := by
  unfold pickSinglePage at h
  repeat' split at h
  all_goals first
    | cases h; simpa using (firstOne_some (by assumption)).1
    | cases h

/-- The page is taken out of the bitmap it was found in. -/
def clearBit (mm : MemoryManager) (i : Nat) (zeroed : Bool) : MemoryManager :=
  if zeroed then { mm with freePagesZeroed := update mm.freePagesZeroed i false }
  else { mm with freePagesDirty := update mm.freePagesDirty i false }

theorem Inv.free_of_bit (hbit : (if zeroed then mm.freePagesZeroed i else mm.freePagesDirty i) = true) : mm.Free i := by
  cases zeroed
  · exact .inl hbit
  · exact .inr hbit

/-- Taking one page: whichever bitmap it was found in, afterwards it is in neither. -/
theorem Inv.takePage (h : Inv mm taken) (pid : PID)

    (hbit : (if zeroed then mm.freePagesZeroed i else mm.freePagesDirty i) = true) :
    ∃ mm1, subtractFreePages 1 (mm.clearBit i zeroed) = .ok () mm1 ∧
      Owned mm pid i 1 { mm1 with allocations := update mm1.allocations i (some pid) } ∧
      mm1.nextZeroedPageHint = mm.nextZeroedPageHint ∧
      mm1.nextDirtyPageHint = mm.nextDirtyPageHint := by
  have hle := h.le_numFreePages (a := i) (n := 1) (fun j h1 h2 => by
    rw [show j = i by omega]; exact Inv.free_of_bit hbit)
  have hnum : (mm.clearBit i zeroed).numFreePages = mm.numFreePages := by cases zeroed <;> rfl
  obtain ⟨lm, ev, hsub⟩ := subtractFreePages_run (mm.clearBit i zeroed) 1 (by rw [hnum]; exact hle)
  refine ⟨_, hsub, ⟨?_, ?_, fun j => ?_, fun j => ?_, ?_⟩, ?_, ?_⟩
  · rw [fill_one]
    cases zeroed <;> rfl
  · cases zeroed <;> rfl
  · by_cases hj : j = i
    · subst hj
      cases zeroed
      · simp [clearBit]
      · simp [clearBit, (h.zeroed j hbit).2.2]
    · have : ¬ (i ≤ j ∧ j < i + 1) := by omega
      cases zeroed <;> simp [clearBit, hj, this]
  · by_cases hj : j = i
    · subst hj
      cases zeroed
      · simp [clearBit, (h.dirty j hbit).2.2]
      · simp [clearBit]
    · have : ¬ (i ≤ j ∧ j < i + 1) := by omega
      cases zeroed <;> simp [clearBit, hj, this]
  · rw [← hnum]
  · cases zeroed <;> rfl
  · cases zeroed <;> rfl

/-- `alloc_single_page` takes the page it picks, and fails where it picks none. -/
theorem allocSinglePage_spec (h : Inv mm taken) (pid : PID) : match mm.pickSinglePage with
      | none => allocSinglePage pid mm = .err .outOfMemory mm
      | some (idx, zeroed) => ∃ mm', allocSinglePage pid mm =
          .ok (dramBase + idx * pageSize, zeroed) mm' ∧ Owned mm pid idx 1 mm' ∧ Inv mm' taken := by
  have hhint : decide (mm.nextZeroedPageHint ≤ fragmentedAreaPages) = true := decide_eq_true h.zeroedHint
  simp only [allocSinglePage, get_bind_run, Exec.assert, hhint, if_true, pure_bind_run]
  cases hpick : mm.pickSinglePage with
  | none => rfl
  | some p =>
    obtain ⟨idx, zeroed⟩ := p
    have hbit := pickSinglePage_some hpick
    have howner := h.of_free (Inv.free_of_bit hbit)
    have hlen : idx < mm.allocationsLen := lt_of_lt_of_le howner.1 (Nat.min_le_left _ _)
    obtain ⟨mm1, hsub, ho, hzh, hdh⟩ := h.takePage pid hbit
    have hat : allocationAt idx (mm.clearBit idx zeroed) = .ok none (mm.clearBit idx zeroed) := by
      cases zeroed <;> simp [allocationAt, Exec.assert, clearBit, hlen, howner.2]
    simp only [set_bind_run]
    change ∃ mm', (allocationAt idx >>= _) (mm.clearBit idx zeroed) = _ ∧ _
    rw [bind_ok hat]
    simp only [Option.isNone_none, if_true, pure_bind_run]
    rw [bind_ok hsub]
    have ho' : Owned mm pid idx 1 { mm1 with
        allocations := update mm1.allocations idx (some pid)
        nextZeroedPageHint := if idx + 1 > fragmentedAreaPages then 0 else idx + 1 } :=
      ⟨ho.allocations, ho.len, ho.dirty, ho.zeroed, ho.count⟩
    refine ⟨_, rfl, ho', h.own ho' (fun i h1 h2 => ?_) ?_ ?_⟩
    · rw [show i = idx by omega]
      exact Inv.free_of_bit hbit
    · show (if idx + 1 > fragmentedAreaPages then 0 else idx + 1) ≤ fragmentedAreaPages
      split <;> omega
    · show mm1.nextDirtyPageHint.getD 0 ≤ ramPages
      rw [hdh]
      exact h.dirtyHint

theorem pickRange_some {idx : Nat} (h : mm.pickRange n = some (idx, zeroed)) :
    (if zeroed then ∀ i, idx ≤ i → i < idx + n → mm.freePagesZeroed i = true
      else ∀ i, idx ≤ i → i < idx + n → mm.freePagesZeroed i = true ∨ mm.freePagesDirty i = true) := by
  simp only [pickRange] at h
  split at h
  next hfound =>
    cases h
    have hall := (lastIndex_some hfound).1
    rw [Bool.and_eq_true] at hall
    simpa using fun i h1 h2 => allOnes_spec hall.2 h1 h2
  · split at h
    next hfound =>
      cases h
      have hall := (lastIndex_some hfound).1
      simp only [Bool.false_eq_true, if_false]
      intro i h1 h2
      simpa using allOnes_spec hall h1 h2
    · cases h

/-- `alloc_range_aligned` takes the block it picks, and fails where it picks none. -/
theorem allocRangeAligned_spec (h : Inv mm taken)
    (hn : 0 < n) (hle : n ≤ ramPages) (pid : PID) : match mm.pickRange n with
      | none => allocRangeAligned n pid mm = .err .outOfMemory mm
      | some (idx, zeroed) => ∃ mm', allocRangeAligned n pid mm =
          .ok (dramBase + idx * pageSize, zeroed) mm' ∧ Owned mm pid idx n mm' ∧ Inv mm' taken := by
  have hend : ramPages - n + 1 ≤ ramPages := by omega
  simp only [allocRangeAligned, Exec.assert, hle, hend, decide_true, if_true, pure_bind_run, get_bind_run]
  cases hpick : mm.pickRange n with
  | none => rfl
  | some p =>
    obtain ⟨idx, zeroed⟩ := p
    have hbits := pickRange_some hpick
    have hfree : ∀ i, idx ≤ i → i < idx + n → mm.Free i := by
      intro i hi hi'
      cases zeroed
      · exact (hbits i hi hi').symm
      · exact .inr (hbits i hi hi')
    obtain ⟨lm, ev, hsub⟩ := subtractFreePages_run _ _ (h.le_numFreePages hfree)
    have hlast : idx + n ≤ mm.allocationsLen := by
      have htr := (h.of_free (hfree (idx + n - 1) (by omega) (by omega))).1
      have := lt_of_lt_of_le htr (Nat.min_le_left _ _)
      omega
    simp only
    rw [bind_ok hsub]
    simp only [get_bind_run, hlast, decide_true, if_true, pure_bind_run, set_bind_run, Exec.pure_run]
    have ho : Owned mm pid idx n { mm with
        allocations := fill mm.allocations idx n (some pid)
        freePagesZeroed := fill mm.freePagesZeroed idx n false
        freePagesDirty := if zeroed then mm.freePagesDirty
          else fill mm.freePagesDirty idx n false
        numFreePages := mm.numFreePages - n, lowMemory := lm, lowMemoryEvent := ev } := by
      refine ⟨rfl, rfl, fun i => ?_, fun i => ?_, rfl⟩
      · by_cases hi : idx ≤ i ∧ i < idx + n
        · cases zeroed
          · simp [fill, hi]
          · simp [hi, (h.zeroed i (hbits i hi.1 hi.2)).2.2]
        · cases zeroed <;> simp [fill, hi]
      · by_cases hi : idx ≤ i ∧ i < idx + n <;> simp [fill, hi]
    exact ⟨_, rfl, ho, h.own ho hfree h.zeroedHint h.dirtyHint⟩

theorem allocRange_consistent (h : Inv mm taken)
    (numPages : Nat) (pid : PID) : Consistent taken (allocRange numPages pid mm) := by
  unfold allocRange
  split
  · have hspec := allocSinglePage_spec h pid
    cases hpick : mm.pickSinglePage with
    | none => rw [hpick] at hspec; simp only [hspec]; exact h
    | some p => rw [hpick] at hspec; obtain ⟨mm', hrun, -, hinv⟩ := hspec; rw [hrun]; exact hinv
  · by_cases hle : 0 < numPages ∧ numPages ≤ ramPages
    · have hspec := allocRangeAligned_spec h hle.1 hle.2 pid
      cases hpick : mm.pickRange numPages with
      | none => rw [hpick] at hspec; simp only [hspec]; exact h
      | some p => rw [hpick] at hspec; obtain ⟨mm', hrun, -, hinv⟩ := hspec; rw [hrun]; exact hinv
    · -- No pages, or more than there are: the bounds checks stop it.
      unfold allocRangeAligned
      by_cases h1 : numPages ≤ ramPages
      · have h2 : ¬ (ramPages - numPages + 1 ≤ ramPages) := by omega
        simp [Exec.assert, h1, h2, Consistent, inconsistencies]
      · simp [Exec.assert, h1, Consistent, inconsistencies]

/-! ### Claims, releases and moves -/

/-- An indexing of the owner array stays inside it, or panics; the panic is not one of the
tracker's own. -/
theorem consistent_at {α : Type} {offset : Nat} {f : Option PID → Exec MemoryManager Error α}
    (h : offset < mm.allocationsLen → Consistent taken (f (mm.allocations offset) mm)) :
    Consistent taken ((allocationAt offset >>= f) mm) := by
  by_cases hlen : offset < mm.allocationsLen
  · have hat : allocationAt offset mm = .ok (mm.allocations offset) mm := by
      simp [allocationAt, Exec.assert, hlen]
    rw [bind_ok hat]
    exact h hlen
  · simp [allocationAt, Exec.assert, hlen, bind_run, Consistent, inconsistencies]

theorem lt_tracked {offset : Nat} (h : offset < mm.allocationsLen)
    (hr : offset < ramPages) : offset < mm.tracked := lt_min h hr

theorem claimOffset_consistent (h : Inv mm taken)
    (offset : Nat) (pid : PID) : Consistent taken (claimOffset offset pid mm) := by
  unfold claimOffset
  refine consistent_at fun _ => ?_
  cases howner : mm.allocations offset with
  | some p => exact h
  | none =>
    simp only [Option.isSome_none, Bool.false_eq_true, if_false]
    by_cases hr : offset < ramPages
    · simp only [hr, if_true]
      -- A page of RAM: it has to be in one of the bitmaps.
      have hown : ∀ zeroed, (if zeroed then mm.freePagesZeroed offset
          else mm.freePagesDirty offset) = true → Consistent taken ((do
            subtractFreePages 1
            setAllocation offset (some pid) : Exec MemoryManager Error Unit) (mm.clearBit offset zeroed)) := by
        intro zeroed hbit
        obtain ⟨mm1, hsub, ho, hzh, hdh⟩ := h.takePage pid hbit
        rw [bind_ok hsub]
        refine h.own ho (fun i h1 h2 => ?_) ?_ ?_
        · rw [show i = offset by omega]
          exact Inv.free_of_bit hbit
        · exact hzh ▸ h.zeroedHint
        · exact hdh ▸ h.dirtyHint
      simp only [get_bind_run]
      by_cases hz : mm.freePagesZeroed offset = true
      · simp only [hz, if_true, set_bind_run]
        exact hown true hz
      · by_cases hd : mm.freePagesDirty offset = true
        · simp only [hz, hd, if_true, Bool.false_eq_true, if_false, set_bind_run]
          exact hown false hd
        · simp only [hz, hd, Bool.false_eq_true, if_false]
          exact h
    · simp only [hr, if_false, setAllocation]
      exact h.reown (fun hi => absurd (lt_of_lt_of_le hi (Inv.tracked_le mm)) hr)

theorem moveOffset_consistent (h : Inv mm taken) (offset : Nat) (pid existingPid : PID) :
    Consistent taken (moveOffset offset pid existingPid mm) := by
  unfold moveOffset
  refine consistent_at fun _ => ?_
  cases howner : mm.allocations offset with
  | none => exact h
  | some current =>
    simp only [Exec.okOr_some, pure_bind_run]
    split
    · exact h
    · exact h.reown (fun _ => ⟨by rw [howner]; rfl, rfl⟩)

theorem releaseOffset_consistent (h : Inv mm taken)
    (offset : Nat) (pid : PID) : Consistent taken (releaseOffset offset pid mm) := by
  unfold releaseOffset
  refine consistent_at fun hlen => ?_
  cases howner : mm.allocations offset with
  | none => exact h
  | some current =>
    simp only [Exec.okOr_some, pure_bind_run]
    split
    · exact h
    · by_cases hr : offset < ramPages
      · simp only [hr, if_true, Exec.modify_bind_run]
        have htr := lt_tracked hlen hr
        have hlt := h.numFreePages_lt htr howner
        obtain ⟨lm, hadd⟩ := addFreePages_run 1 { mm with
          freePagesDirty := update mm.freePagesDirty offset true
          nextDirtyPageHint := mm.nextDirtyPageHint.or (some offset) } hlt
        rw [bind_ok hadd]
        simp only [setAllocation, Exec.modify_run, Consistent]
        refine h.free htr howner rfl rfl rfl rfl rfl h.zeroedHint ?_
        show (mm.nextDirtyPageHint.or (some offset)).getD 0 ≤ ramPages
        have := h.dirtyHint
        cases hh : mm.nextDirtyPageHint with
        | none => simpa [hh] using le_of_lt hr
        | some k => simpa [hh] using this
      · simp only [hr, if_false, setAllocation]
        exact h.reown (fun hi => absurd (lt_of_lt_of_le hi (Inv.tracked_le mm)) hr)

theorem claimReleaseMove_consistent (h : Inv mm taken) (permission : Except Error Unit) (addr : Nat) (pid : PID)
    (action : ClaimReleaseMove) :
    Consistent taken (claimReleaseMove permission addr pid action mm) := by
  unfold claimReleaseMove
  split
  · exact h
  · cases permission with
    | error e => exact h
    | ok u =>
      simp only [get_bind_run]
      cases hoff : mm.addressToAllocationOffset addr with
      | none => exact h
      | some offset =>
        simp only [Exec.okOr_some, pure_bind_run]
        cases action with
        | claim => exact claimOffset_consistent h offset pid
        | move existingPid => exact moveOffset_consistent h offset pid existingPid
        | release => exact releaseOffset_consistent h offset pid

theorem releaseAllFrom_consistent (pid : PID) :
    ∀ (n idx : Nat) {mm : MemoryManager}, Inv mm taken → idx + n ≤ mm.allocationsLen →
      Consistent taken (releaseAllFrom pid idx n mm)
  | 0, _, _, h, _ => h
  | n + 1, idx, mm, h, hle => by
    rw [releaseAllFrom]
    simp only [get_bind_run]
    by_cases howner : mm.allocations idx = some pid
    · simp only [howner, if_true, setAllocation, Exec.modify_bind_run]
      by_cases hr : idx < ramPages
      · have htr : idx < mm.tracked := lt_tracked (by omega) hr
        have hlt := h.numFreePages_lt htr howner
        obtain ⟨lm, hadd⟩ := addFreePages_run 1 { mm with
          allocations := update mm.allocations idx none
          freePagesDirty := update mm.freePagesDirty idx true } hlt
        simp only [hr, if_true, Exec.modify_bind_run]
        rw [bind_ok hadd]
        exact releaseAllFrom_consistent pid n (idx + 1) (h.free htr howner rfl rfl rfl rfl rfl h.zeroedHint h.dirtyHint)
          (by simpa [Nat.add_assoc, Nat.add_comm 1 n] using hle)
      · simp only [hr, if_false]
        refine releaseAllFrom_consistent pid n (idx + 1) (h.reown (fun hi => ?_))
          (by simpa [Nat.add_assoc, Nat.add_comm 1 n] using hle)
        exact absurd (lt_of_lt_of_le hi (Inv.tracked_le mm)) hr
    · simp only [howner, if_false]
      exact releaseAllFrom_consistent pid n (idx + 1) h (by omega)

theorem releaseAllMemoryForProcess_consistent
    (h : Inv mm taken) (pid : PID) : Consistent taken (releaseAllMemoryForProcess pid mm) := by
  simp only [releaseAllMemoryForProcess, get_bind_run]
  exact releaseAllFrom_consistent pid mm.allocationsLen 0 h (by omega)

/-! ### Zeroing -/

/-- The pages of a region given by its address and its number of pages. -/
def inRegion (r : Nat × Nat) (i : Nat) : Prop := (r.1 - dramBase) / pageSize ≤ i ∧ i < (r.1 - dramBase) / pageSize + r.2

/-- The pages of the regions `out` that were taken and not given back yet. -/
def takenBy (out : List (Nat × Nat)) (i : Nat) : Prop := ∃ r ∈ out, inRegion r i

/-- The regions that are out: they start at page addresses and do not overlap. -/
structure RegionsOut (mm : MemoryManager) (out : List (Nat × Nat)) : Prop where
  inv : Inv mm (takenBy out)
  start : ∀ r ∈ out, ∃ a, r.1 = dramBase + a * pageSize ∧ a + r.2 ≤ ramPages ∧ 0 < r.2
  disjoint : out.Pairwise (fun r r' => ∀ i, inRegion r i → ¬ inRegion r' i)

theorem pageIndex_of_addr (a : Nat) : (dramBase + a * pageSize - dramBase) / pageSize = a := by
  rw [Nat.add_sub_cancel_left, Nat.mul_div_cancel _ (by decide)]

theorem pickDirtyPage_some {offset : Nat}
    (hhint : mm.nextDirtyPageHint.getD 0 ≤ ramPages) (h : mm.pickDirtyPage = some offset) :
    mm.freePagesDirty offset = true ∧ offset < ramPages := by
  rcases Option.or_eq_some_iff.mp h with hone | ⟨_, hone⟩ <;>
    obtain ⟨hb, _, hlt⟩ := firstOne_some hone <;>
    exact ⟨hb, by omega⟩

/-- `take_dirty_pages` takes a region of dirty pages that overlaps no region already out. -/
theorem takeDirtyPages_out (h : RegionsOut mm out) :
    ∃ r mm', takeDirtyPages mm = .ok r mm' ∧ RegionsOut mm' (r.toList ++ out) := by
  have hstart : decide (mm.nextDirtyPageHint.getD 0 ≤ ramPages) = true := decide_eq_true h.inv.dirtyHint
  simp only [takeDirtyPages, get_bind_run, Exec.assert, hstart, if_true, pure_bind_run]
  cases hpick : mm.pickDirtyPage with
  | none =>
    refine ⟨none, { mm with nextDirtyPageHint := none }, rfl, ?_, h.start, h.disjoint⟩
    exact h.inv.congr rfl rfl rfl rfl rfl h.inv.zeroedHint (Nat.zero_le _)
  | some offset =>
    have hbit := pickDirtyPage_some h.inv.dirtyHint hpick
    obtain ⟨pages, hpages⟩ : ∃ pages, min (leadingOnes mm.freePagesDirty offset (ramPages - offset))
          (8 * 1024 * 1024 / pageSize) = pages := ⟨_, rfl⟩
    have hrun : ∀ i, offset ≤ i → i < offset + pages → mm.freePagesDirty i = true ∧ i < ramPages := by
      intro i h1 h2
      have := leadingOnes_spec mm.freePagesDirty (n := ramPages - offset) h1 (by omega)
      exact ⟨this.1, by omega⟩
    have hpos : 0 < pages := by
      have := leadingOnes_pos (n := ramPages - offset) hbit.1 (by omega)
      rw [← hpages]
      exact lt_min this (by decide)
    have hregion : ∀ i, inRegion (dramBase + offset * pageSize, pages) i ↔ (offset ≤ i ∧ i < offset + pages) := by
      intro i
      rw [inRegion, pageIndex_of_addr]
    simp only [hpages]
    refine ⟨some (dramBase + offset * pageSize, pages), _, rfl, ?_, ?_, ?_⟩
    · have hinv := h.inv.take (some ((offset + pages) % ramPages))
        (fun i h1 h2 => (hrun i h1 h2).1) (le_of_lt (Nat.mod_lt _ (by decide)))
      have htaken : (fun i => (offset ≤ i ∧ i < offset + pages) ∨ takenBy out i) =
          takenBy ([(dramBase + offset * pageSize, pages)] ++ out) := by
        funext i
        rw [takenBy, takenBy, List.singleton_append, List.exists_mem_cons_iff, hregion]
      rw [htaken] at hinv
      exact hinv
    · intro r hr
      rcases List.mem_cons.mp hr with rfl | hr
      · have := (hrun (offset + pages - 1) (by omega) (by omega)).2
        exact ⟨offset, rfl, by show offset + pages ≤ ramPages; omega, hpos⟩
      · exact h.start r hr
    · rw [Option.toList_some, List.singleton_append, List.pairwise_cons]
      refine ⟨fun r hr i hi hir => ?_, h.disjoint⟩
      rw [hregion] at hi
      have htaken := (h.inv.taken i).mp ⟨r, hr, hir⟩
      rw [(hrun i hi.1 hi.2).1] at htaken
      cases htaken.2.2.1

theorem takenBy_eraseIdx {k : Nat} {r : Nat × Nat} (hd : out.Pairwise (fun r r' => ∀ i, inRegion r i → ¬ inRegion r' i))
    (hk : out[k]? = some r) (i : Nat) :
    takenBy (out.eraseIdx k) i ↔ takenBy out i ∧ ¬ inRegion r i := by
  obtain ⟨hlt, hget⟩ := getElem?_eq_some_iff.mp hk
  have hout : out = out.take k ++ r :: out.drop (k + 1) := by
    rw [← hget, ← List.drop_eq_getElem_cons hlt, List.take_append_drop]
  rw [List.eraseIdx_eq_take_drop_succ]
  obtain ⟨xs, hxs⟩ : ∃ xs, out.take k = xs := ⟨_, rfl⟩
  obtain ⟨ys, hys⟩ : ∃ ys, out.drop (k + 1) = ys := ⟨_, rfl⟩
  rw [hxs, hys] at hout ⊢
  rw [hout, List.pairwise_append, List.pairwise_cons] at hd
  obtain ⟨_, ⟨hry, _⟩, hxr⟩ := hd
  rw [hout]
  constructor
  · rintro ⟨r', hr', hi⟩
    rcases List.mem_append.mp hr' with h | h
    · exact ⟨⟨r', by simp [h], hi⟩, hxr r' h r (by simp) i hi⟩
    · exact ⟨⟨r', by simp [h], hi⟩, fun hir => hry r' h i hir hi⟩
  · rintro ⟨⟨r', hr', hi⟩, hir⟩
    rcases List.mem_append.mp hr' with h | h
    · exact ⟨r', by simp [h], hi⟩
    · rcases List.mem_cons.mp h with rfl | h
      · exact absurd hi hir
      · exact ⟨r', by simp [h], hi⟩

/-- `set_pages_to_zeroed` of a region that is out gives its pages back. -/
theorem setPagesToZeroed_out {k : Nat} {r : Nat × Nat} (h : RegionsOut mm out) (hk : out[k]? = some r) :
    ∃ mm', setPagesToZeroed r.1 r.2 mm = .ok () mm' ∧ RegionsOut mm' (out.eraseIdx k) := by
  have hr : r ∈ out := List.mem_of_getElem? hk
  obtain ⟨a, haddr, hend, hpos⟩ := h.start r hr
  have hoff : mm.addressToAllocationOffset r.1 = some a := by
    unfold addressToAllocationOffset
    rw [haddr, if_pos, pageIndex_of_addr]
    have hlt : a * pageSize < ramSize := by
      have : a < ramPages := by omega
      calc a * pageSize < ramPages * pageSize := by
            exact Nat.mul_lt_mul_of_pos_right this (by decide)
        _ = ramSize := by decide
    exact ⟨Nat.le_add_right _ _, Nat.add_lt_add_left hlt _⟩
  have hregion : ∀ i, inRegion r i ↔ (a ≤ i ∧ i < a + r.2) := by
    intro i
    rw [inRegion, haddr, pageIndex_of_addr]
  refine ⟨{ mm with freePagesZeroed := fill mm.freePagesZeroed a r.2 true }, ?_, ?_, ?_, ?_⟩
  · simp [setPagesToZeroed, hoff, Exec.assert, hend]
  · have hinv := h.inv.giveBack (fun i h1 h2 => ⟨r, hr, (hregion i).mpr ⟨h1, h2⟩⟩)
    -- The other regions have no page in common with `r`.
    have htaken : (fun i => takenBy out i ∧ ¬ (a ≤ i ∧ i < a + r.2)) = takenBy (out.eraseIdx k) := by
      funext i
      rw [← hregion]
      exact propext (takenBy_eraseIdx h.disjoint hk i).symm
    rwa [htaken] at hinv
  · intro r' hr'
    exact h.start r' (List.mem_of_mem_eraseIdx hr')
  · exact h.disjoint.sublist (List.eraseIdx_sublist _ _)

/-! ## 4. Runs -/

/-- The calls on the tracker.  `setPagesToZeroed k` gives back the `k`-th of the regions that
were taken and are still out. -/
inductive TrackerOp where
  | allocRange (numPages : Nat) (pid : PID)
  | claimReleaseMove (permission : Except Error Unit) (addr : Nat) (pid : PID)
      (action : ClaimReleaseMove)
  | takeDirtyPages
  | setPagesToZeroed (k : Nat)
  | releaseAllMemoryForProcess (pid : PID)

/-- Make one call, with the regions `out` taken so far, and report the regions that are out
after it. -/
def TrackerOp.exec (out : List (Nat × Nat)) : TrackerOp → Exec MemoryManager Error (List (Nat × Nat))
  | .allocRange numPages pid => do
    let _ ← (MemoryManager.allocRange numPages pid).attempt
    pure out
  | .claimReleaseMove permission addr pid action => do
    let _ ← (MemoryManager.claimReleaseMove permission addr pid action).attempt
    pure out
  | .takeDirtyPages => do
    let r ← MemoryManager.takeDirtyPages
    pure (r.toList ++ out)
  | .setPagesToZeroed k =>
    match out[k]? with
    | none => pure out
    | some r => do
      MemoryManager.setPagesToZeroed r.1 r.2
      pure (out.eraseIdx k)
  | .releaseAllMemoryForProcess pid => do
    let _ ← (MemoryManager.releaseAllMemoryForProcess pid).attempt
    pure out

def TrackerOp.execAll : List TrackerOp → List (Nat × Nat) → Exec MemoryManager Error (List (Nat × Nat))
  | [], out => pure out
  | op :: ops, out => do
    let out ← op.exec out
    TrackerOp.execAll ops out

/-- The regions that are out after a part of a run; it fails nowhere, and does not panic over an
inconsistency. -/
abbrev Keeps (m : Exec MemoryManager Error (List (Nat × Nat))) (mm : MemoryManager) : Prop :=
  post m (fun out mm' => RegionsOut mm' out) (fun _ _ => False) (· ∉ inconsistencies) mm

/-- What an operation that only moves pages between owners and the free bitmaps does to a
run. -/
theorem Keeps.attempt {α : Type} {m : Exec MemoryManager Error α} (h : RegionsOut mm out)
    (hm : Consistent (takenBy out) (m mm)) : Keeps (do let _ ← m.attempt; pure out) mm := by
  rw [Keeps, post_bind, post_attempt]
  unfold post
  cases hrun : m mm <;> rw [hrun] at hm <;> first | exact ⟨hm, h.start, h.disjoint⟩ | exact hm

/-- **One call** keeps the tracker consistent, or panics, but not over an inconsistency. -/
theorem TrackerOp.exec_consistent (h : RegionsOut mm out) : ∀ op : TrackerOp, Keeps (op.exec out) mm
  | .allocRange numPages pid => Keeps.attempt h (allocRange_consistent h.inv numPages pid)
  | .claimReleaseMove permission addr pid action =>
    Keeps.attempt h (claimReleaseMove_consistent h.inv permission addr pid action)
  | .takeDirtyPages => by
    obtain ⟨r, mm', hrun, h'⟩ := takeDirtyPages_out h
    rw [TrackerOp.exec, Keeps, post_bind]
    exact post_of_ok hrun h'
  | .setPagesToZeroed k => by
    rw [TrackerOp.exec]
    split
    · exact h
    next r hk =>
      obtain ⟨mm', hrun, h'⟩ := setPagesToZeroed_out h hk
      rw [Keeps, post_bind]
      exact post_of_ok hrun h'
  | .releaseAllMemoryForProcess pid => Keeps.attempt h (releaseAllMemoryForProcess_consistent h.inv pid)

theorem TrackerOp.execAll_consistent : ∀ (ops : List TrackerOp) {mm : MemoryManager}
    {out : List (Nat × Nat)}, RegionsOut mm out → Keeps (TrackerOp.execAll ops out) mm
  | [], _, _, h => h
  | op :: ops, _, _, h =>
    post_seq (TrackerOp.exec_consistent h op) (fun _ _ h1 => TrackerOp.execAll_consistent ops h1)
      (fun _ _ h => h) fun _ h => h

/-- The four states of a page. -/
inductive PageState where
  | owned
  | freeDirty
  | freeZeroed
  | takenForZeroing

/-- Page `i` is in the given state. -/
def InState (mm : MemoryManager) (i : Nat) : PageState → Prop
  | .owned => (mm.allocations i).isSome ∧ mm.freePagesDirty i = false ∧
      mm.freePagesZeroed i = false
  | .freeDirty => mm.allocations i = none ∧ mm.freePagesDirty i = true ∧
      mm.freePagesZeroed i = false
  | .freeZeroed => mm.allocations i = none ∧ mm.freePagesDirty i = false ∧
      mm.freePagesZeroed i = true
  | .takenForZeroing => mm.allocations i = none ∧ mm.freePagesDirty i = false ∧
      mm.freePagesZeroed i = false

theorem InState.unique {st st' : PageState} (h : InState mm i st) (h' : InState mm i st') : st = st' := by
  cases st <;> cases st' <;> simp_all [InState]

theorem Inv.exists_state (h : Inv mm taken) (i : Nat) : ∃ st, InState mm i st := by
  have hd := h.dirty i
  have hz := h.zeroed i
  cases hdb : mm.freePagesDirty i with
  | true => exact ⟨.freeDirty, (hd hdb).2.1, hdb, (hd hdb).2.2⟩
  | false =>
    cases hzb : mm.freePagesZeroed i with
    | true => exact ⟨.freeZeroed, (hz hzb).2.1, hdb, hzb⟩
    | false =>
      cases howner : mm.allocations i with
      | some pid => exact ⟨.owned, by rw [howner]; rfl, hdb, hzb⟩
      | none => exact ⟨.takenForZeroing, howner, hdb, hzb⟩

/-- **The tracker is always consistent.**  From any tracker left by boot, after any calls,
every tracked RAM page is in exactly one of the four states and the counter is the number of
pages without an owner.  A call that panics does not do so over a page allocated twice or
over the free-page count. -/
theorem tracker_consistent (allocations : List (Option PID)) (ops : List TrackerOp) :
    match TrackerOp.execAll ops [] (initFromBootstrap allocations) with
    | .ok _ mm => (∀ i, i < mm.tracked → ∃! st, InState mm i st) ∧
        mm.numFreePages = mm.unowned.card
    | .err _ _ => False
    | .panic msg => msg ∉ inconsistencies := by
  have hinit : RegionsOut (initFromBootstrap allocations) [] := by
    refine ⟨?_, by simp, List.Pairwise.nil⟩
    have := Inv.initFromBootstrap allocations
    rwa [show takenBy [] = fun _ => False by funext i; simp [takenBy]]
  have hrun := TrackerOp.execAll_consistent ops hinit
  cases hexec : TrackerOp.execAll ops [] (initFromBootstrap allocations) with
  | ok out mm =>
    have h := (post_ok hrun hexec).inv
    refine ⟨fun i _ => ?_, h.count⟩
    obtain ⟨st, hst⟩ := h.exists_state i
    exact ⟨st, hst, fun _ h => h.unique hst⟩
  | err _ _ => exact (post_err hrun hexec).elim
  | panic _ => exact post_panic hrun hexec

end MemoryManager

end BeetKernel

/-
# What mapping a range does

A frame that changes hands keeps its bytes unless someone zeroes it.  `map_range` hands out
frames in three ways and zeroes them in ONE: anonymous memory is zeroed where the tracker does
not already promise zeros, memory that is populated or claimed by its physical address is not.

This file says what a successful `map_range` has done: which frames it took, that the
addresses it returns are mapped to them, and what they hold.  In between, the kernel may
allocate and zero page tables and may broadcast that memory is low; neither reaches a frame
that has an owner.
-/
import BeetKernel.Kernel.Blind
import BeetKernel.Mem.Allocation

namespace BeetKernel

open Function (update_apply update_of_ne update_self update)
open Exec (attempt_eq_ok bind_eq_ok bind_ok bind_run get_bind_run get_run pure_run wp_bind wp_err
  wp_get wp_mono wp_ok wp wp_seq ignore Sure attempt)

/-- The tables that `unmap_page` walks through are there for the address. -/
def PageTables.HasTables (t : PageTables) (va : Nat) : Prop :=
  (t.l2 (l1Index va)).isSome ∧ (t.l3 (l1Index va) (l2Index va)).isSome

instance (t : PageTables) (va : Nat) : Decidable (t.HasTables va) := inferInstanceAs (Decidable (_ ∧ _))

/-! ## 1. Mapping pages, one at a time -/

namespace Kernel

variable {k k' : Kernel} {n phys va virt : Nat} {pid : PID} {flags : MemoryFlags} {mapUser : Bool} {u : Unit}

/-- What a tracker operation that ended with the tracker `mm'` leaves: the broadcast after it did
not touch memory. -/
structure Tracked (k : Kernel) (mm' : MemoryManager) (k' : Kernel) : Prop where
  mm : ∃ b, k'.mm = { mm' with lowMemoryEvent := b }
  pageTables : k'.pageTables = k.pageTables
  ram : k'.ram = k.ram

theorem withMemoryManager_wp {α : Type} (m : Exec MemoryManager Error α) (k : Kernel) :
    wp (withMemoryManager m) (fun a k' => ∃ mm', m k.mm = .ok a mm' ∧ Tracked k mm' k')
      (fun e k' => ∃ mm', m k.mm = .err e mm' ∧ Tracked k mm' k') k := by
  have hend : ∀ (r : Except Error α) (mm' : MemoryManager), wp (do
      let k ← Exec.get
      if k.mm.lowMemoryEvent then
        Exec.modify fun k => { k with mm := { k.mm with lowMemoryEvent := false } }
        ignore (broadcastEvent .lowFreeMemory 0)
      Exec.ofExcept r) (fun a k' => r = .ok a ∧ Tracked k mm' k')
      (fun e k' => r = .error e ∧ Tracked k mm' k') { k with mm := mm' } := by
    intro r mm'
    rw [wp_bind, wp_get]
    split
    · simp only [wp_bind, Exec.wp_modify, Exec.wp_ignore]
      have hk : ∀ k2 : Kernel, SameMemory { k with mm := { mm' with lowMemoryEvent := false } } k2 →
          wp (Exec.ofExcept r) (fun a k' => r = .ok a ∧ Tracked k mm' k')
            (fun e k' => r = .error e ∧ Tracked k mm' k') k2 := by
        intro k2 hsame
        have ht : Tracked k mm' k2 := ⟨⟨false, hsame.mm⟩, congrArg Memory.pageTables hsame, congrArg Memory.ram hsame⟩
        exact (Exec.wp_ofExcept r).mpr ⟨fun _ h => ⟨h, ht⟩, fun _ h => ⟨h, ht⟩⟩
      exact wp_mono ((broadcastEvent_blind _ _).sameMemory _) (fun _ k2 h => hk k2 h) fun _ k2 h => hk k2 h
    · have ht : Tracked k mm' { k with mm := mm' } := ⟨⟨mm'.lowMemoryEvent, rfl⟩, rfl, rfl⟩
      exact (Exec.wp_ofExcept r).mpr ⟨fun _ h => ⟨h, ht⟩, fun _ h => ⟨h, ht⟩⟩
  unfold withMemoryManager
  rw [wp_bind, Exec.wp_attempt, Exec.wp_zoom, wp]
  cases hm : m k.mm with
  | ok a mm' =>
    refine wp_mono (hend (.ok a) mm') (fun b k' h => ?_) fun e k' h => by cases h.1
    cases h.1
    exact ⟨mm', rfl, h.2⟩
  | err e mm' =>
    refine wp_mono (hend (.error e) mm') (fun b k' h => by cases h.1) fun e' k' h => ?_
    cases h.1
    exact ⟨mm', rfl, h.2⟩
  | panic msg => trivial

theorem withMemoryManager_ok {α : Type} {m : Exec MemoryManager Error α} {a : α}
    (h : withMemoryManager m k = .ok a k') : ∃ mm', m k.mm = .ok a mm' ∧ Tracked k mm' k' :=
  wp_ok (withMemoryManager_wp m k) h

theorem allocRange_ok {zeroed : Bool} (h : allocRange n pid k = .ok (phys, zeroed) k') :
    ∃ idx, phys = dramBase + idx * pageSize ∧ MemoryManager.Allocated k.mm n pid idx zeroed k'.mm ∧
      k'.pageTables = k.pageTables ∧ k'.ram = k.ram := by
  obtain ⟨mm', hm, ⟨b, hb⟩, hpt, hram⟩ := withMemoryManager_ok h
  obtain ⟨idx, hphys, halloc⟩ := MemoryManager.allocRange_ok hm
  refine ⟨idx, hphys, ?_, hpt, hram⟩
  rw [hb]
  exact { halloc with allocations := halloc.allocations }

/-- Frame `f` has an owner, and its bytes are still the same. -/
def Holds (f : Nat) (k k' : Kernel) : Prop := k.mm.allocations f ≠ none → k'.mm.allocations f ≠ none ∧
    ∀ off, off < pageSize → k'.ram (dramBase + f * pageSize + off) = k.ram (dramBase + f * pageSize + off)

theorem not_in_frame {i f off : Nat} (hne : f ≠ i) (ho : off < pageSize) :
    ¬ (dramBase + i * pageSize ≤ dramBase + f * pageSize + off ∧
      dramBase + f * pageSize + off < dramBase + i * pageSize + pageSize) := by
  simp only [pageSize] at *
  omega

/-- What happens besides, when a page of `pid` is mapped: free frames become page tables of `pid`.
The tables of other processes and the frames that have an owner are left alone. -/
structure Besides (pid : PID) (k k' : Kernel) : Prop where
  others : ∀ q, q ≠ pid → k'.pageTables q = k.pageTables q
  owners : ∀ f, k'.mm.allocations f = k.mm.allocations f ∨ (k.mm.allocations f = none ∧ k'.mm.allocations f = some pid)
  holds : ∀ f, Holds f k k'

theorem Besides.refl (pid : PID) (k : Kernel) : Besides pid k k :=
  ⟨fun _ _ => rfl, fun _ => .inl rfl, fun _ h => ⟨h, fun _ _ => rfl⟩⟩

theorem Besides.trans {k1 k2 k3 : Kernel} (h₁ : Besides pid k1 k2) (h₂ : Besides pid k2 k3) : Besides pid k1 k3 := by
  refine ⟨fun q hq => (h₂.others q hq).trans (h₁.others q hq), fun f => ?_, fun f hf => ?_⟩
  · rcases h₁.owners f with ha | ⟨ha, hb⟩
    · rw [← ha]
      exact h₂.owners f
    · rcases h₂.owners f with hc | ⟨hc, -⟩
      · exact .inr ⟨ha, hc.trans hb⟩
      · rw [hb] at hc
        cases hc
  · have hf2 := (h₁.holds f hf).1
    exact ⟨(h₂.holds f hf2).1, fun off ho => ((h₂.holds f hf2).2 off ho).trans ((h₁.holds f hf).2 off ho)⟩

theorem Besides.tables (h : Besides pid k k') (t : PageTables) :
    Besides pid k { k' with pageTables := update k'.pageTables pid t } :=
  ⟨fun q hq => (update_of_ne hq ..).trans (h.others q hq), h.owners, h.holds⟩

theorem subtractFreePages_sure (n : Nat) : Sure (MemoryManager.subtractFreePages n) :=
  Sure.get.bind fun _ => (Sure.assert _ _).bind fun _ => .ite (fun _ => trivial) fun _ =>
    trivial

/-- An allocation fails only where it finds nothing, before it has changed anything. -/
theorem allocRange_err (mm : MemoryManager) (n : Nat) (pid : PID) :
    wp (MemoryManager.allocRange n pid) (fun _ _ => True) (fun e mm' => e = .outOfMemory ∧ mm' = mm) mm := by
  have hend : ∀ {m : Exec MemoryManager Error (Nat × Bool)}, Sure m →
      wp m (fun _ _ => True) (fun e mm' => e = .outOfMemory ∧ mm' = mm) mm := fun hm =>
    wp_mono (hm mm) (fun _ _ h => h) fun _ _ h => h.elim
  unfold MemoryManager.allocRange MemoryManager.allocSinglePage MemoryManager.allocRangeAligned
  split
  · simp only [wp_bind, wp_get, Exec.wp_assert]
    intro _
    split
    · exact ⟨rfl, rfl⟩
    · exact hend (.bind (fun _ => trivial) fun _ => .bind
        (Sure.get.bind fun _ => (Sure.assert _ _).bind fun _ => .pure _) fun _ =>
        (Sure.assert _ _).bind fun _ => (subtractFreePages_sure 1).bind fun _ =>
        (Sure.modify _).bind fun _ => (Sure.modify _).bind fun _ => .pure _)
  · simp only [wp_bind, wp_get, Exec.wp_assert]
    intro _ _
    split
    · exact ⟨rfl, rfl⟩
    · exact hend ((subtractFreePages_sure n).bind fun _ => Sure.get.bind fun _ =>
        (Sure.assert _ _).bind fun _ => .bind (fun _ => trivial) fun _ => .pure _)

/-- A new table page is a free frame, so zeroing it leaves every owned frame alone. -/
theorem allocTable_wp (pid : PID) (k : Kernel) : wp (allocTable pid)
    (fun _ k' => Besides pid k k' ∧ k'.pageTables = k.pageTables)
    (fun e k' => (Besides pid k k' ∧ k'.pageTables = k.pageTables) ∧ e = .outOfMemory) k := by
  unfold allocTable
  rw [wp_bind, Exec.wp_mapErr]
  unfold wp
  cases hrun : allocRange 1 pid k with
  | ok r k1 =>
    obtain ⟨phys, z⟩ := r
    obtain ⟨idx, rfl, ha, hpt, hram⟩ := allocRange_ok hrun
    refine ⟨⟨fun q _ => congrFun hpt q, fun f => ?_, fun f hf => ?_⟩, hpt⟩
    · simp only [ha.allocations, fill_one, update_apply]
      split
      next hf =>
        exact .inr ⟨hf ▸ ha.unowned rfl, rfl⟩
      · exact .inl rfl
    · have hne : f ≠ idx := by
        rintro rfl
        exact hf (ha.unowned rfl)
      refine ⟨?_, fun off ho => ?_⟩
      · simpa only [ha.allocations, fill_one, update_of_ne hne] using hf
      · simp only [if_neg (not_in_frame hne ho), hram]
  | err e k1 =>
    obtain ⟨mm', hm, ⟨b, hb⟩, hpt, hram⟩ := wp_err (withMemoryManager_wp _ k) hrun
    obtain ⟨-, rfl⟩ := wp_err (allocRange_err k.mm 1 pid) hm
    refine ⟨⟨⟨fun q _ => congrFun hpt q, fun f => .inl ?_, fun f hf => ⟨?_, fun _ _ => ?_⟩⟩, hpt⟩, rfl⟩
    · rw [hb]
    · rw [hb]
      exact hf
    · rw [hram]
  | panic msg => trivial

theorem pageOf_div (va : Nat) : pageOf va / 2048 = l1Index va * 2048 + l2Index va := by
  simp only [pageOf, l1Index, l2Index, pageSize, Nat.shiftRight_eq_div_pow]
  omega

/-- The page determines the indices, so the walk depends on the page only. -/
theorem index_congr {va' : Nat} (h : pageOf va = pageOf va') : l1Index va = l1Index va' ∧ l2Index va = l2Index va' := by
  have h₁ := pageOf_div va
  have h₂ := pageOf_div va'
  have hl : l2Index va < 2048 := Nat.mod_lt _ (by decide)
  have hl' : l2Index va' < 2048 := Nat.mod_lt _ (by decide)
  rw [h] at h₁
  omega

theorem walk_congr (t : PageTables) {va' : Nat} (h : pageOf va = pageOf va') : t.walk va = t.walk va' := by
  simp only [PageTables.walk, (index_congr h).1, (index_congr h).2, h]

/-- A table that is not there translates nothing, and neither does a new one. -/
theorem ensureL2_wp (pid : PID) (l1 : Nat) (k : Kernel) : wp (ensureL2 pid l1)
    (fun _ k' => Besides pid k k' ∧ (k'.pageTables pid).walk = (k.pageTables pid).walk ∧
      ((k'.pageTables pid).l2 l1).isSome = true)
    (fun e k' => Besides pid k k' ∧ (k'.pageTables pid).walk = (k.pageTables pid).walk ∧ e = .outOfMemory) k := by
  unfold ensureL2
  rw [wp_bind, wp_get]
  split
  next hnone =>
    refine wp_seq (allocTable_wp pid k) ?_ (fun _ k1 h => ⟨h.1.1, by rw [h.1.2], h.2⟩)
    rintro phys k1 ⟨hb, hpt⟩
    refine ⟨hb.tables _, ?_, by simp⟩
    funext va
    by_cases hl1 : l1Index va = l1
    · subst hl1
      simp [PageTables.walk, Option.isNone_iff_eq_none.mp hnone]
    · simp [PageTables.walk, hpt, update_of_ne hl1]
  next hsome =>
    exact ⟨.refl pid k, rfl, by simpa [Option.isSome_iff_ne_none] using hsome⟩

theorem ensureL3_wp (pid : PID) (l1 l2 : Nat) (hl2 : l2 < 2048) (k : Kernel) : wp (ensureL3 pid l1 l2)
      (fun _ k' => Besides pid k k' ∧ (k'.pageTables pid).walk = (k.pageTables pid).walk ∧
        (k'.pageTables pid).l2 = (k.pageTables pid).l2 ∧
        ((k'.pageTables pid).l3 l1 l2).isSome = true)
      (fun e k' => Besides pid k k' ∧ (k'.pageTables pid).walk = (k.pageTables pid).walk ∧ e = .outOfMemory) k := by
  unfold ensureL3
  rw [wp_bind, wp_get]
  split
  next hnone =>
    refine wp_seq (allocTable_wp pid k) ?_ (fun _ k1 h => ⟨h.1.1, by rw [h.1.2], h.2⟩)
    rintro phys k1 ⟨hb, hpt⟩
    refine ⟨hb.tables _, ?_, by simp [hpt], by simp⟩
    funext va
    have hl2' : l2Index va < 2048 := Nat.mod_lt _ (by decide)
    have hpage : pageOf va / 2048 = l1 * 2048 + l2 ↔ l1Index va = l1 ∧ l2Index va = l2 := by
      rw [pageOf_div]
      omega
    by_cases hl : l1Index va = l1 ∧ l2Index va = l2
    · obtain ⟨rfl, rfl⟩ := hl
      simp [PageTables.walk, Option.isNone_iff_eq_none.mp hnone, pageOf_div]
    · have hl3 : update (k.pageTables pid).l3 l1 (update
          ((k.pageTables pid).l3 l1) l2 (some phys)) (l1Index va) (l2Index va) =
          (k.pageTables pid).l3 (l1Index va) (l2Index va) := by
        by_cases h1 : l1Index va = l1
        · rw [h1, update_self, update_of_ne fun h2 => hl ⟨h1, h2⟩]
        · rw [update_of_ne h1]
      simp only [PageTables.walk, hpt, update_self, hl3, if_neg (mt hpage.mp hl)]
  next hsome =>
    exact ⟨.refl pid k, rfl, rfl, by simpa [Option.isSome_iff_ne_none] using hsome⟩

/-- **`map_page`**: the page of `va` is translated as asked and every other page as before; or
there was no frame for a page table, and nothing is translated differently. -/
theorem mapPage_wp (pid : PID) (phys va : Nat) (flags : MemoryFlags) (mapUser : Bool) (k : Kernel) :
    wp (mapPage pid phys va flags mapUser) (fun _ k' => Besides pid k k' ∧ ∀ va', (k'.pageTables pid).walk va' =
        if pageOf va' = pageOf va then some (Pte.make phys flags mapUser)
        else (k.pageTables pid).walk va')
      (fun e k' => Besides pid k k' ∧ (k'.pageTables pid).walk = (k.pageTables pid).walk ∧ e = .outOfMemory) k := by
  unfold mapPage
  refine wp_seq (ensureL2_wp pid (l1Index va) k) ?_ fun _ _ h => h
  rintro _ k1 ⟨hb1, hw1, hs1⟩
  refine wp_seq (ensureL3_wp pid (l1Index va) (l2Index va) (Nat.mod_lt _ (by decide)) k1) ?_ ?_
  · rintro _ k2 ⟨hb2, hw2, hl2, hs2⟩
    refine ⟨(hb1.trans hb2).tables _, fun va' => ?_⟩
    rw [← hw1, ← hw2]
    split
    next hpage =>
      rw [walk_congr _ hpage, PageTables.walk, if_pos]
      · simp
      · simpa [hl2] using ⟨hs1, hs2⟩
    next hpage =>
      simp [PageTables.walk, update_of_ne hpage]
  · rintro e k2 ⟨hb2, hw2, he⟩
    exact ⟨hb1.trans hb2, hw2.trans hw1, he⟩

theorem mapPage_ok (h : mapPage pid phys va flags mapUser k = .ok u k') :
    (k'.pageTables pid).walk va = some (Pte.make phys flags mapUser) ∧ Besides pid k k' := by
  obtain ⟨hb, hwalk⟩ := wp_ok (mapPage_wp ..) h
  exact ⟨by rw [hwalk, if_pos rfl], hb⟩

/-! ## 2. Mapping a range -/

/-- The first `n` pages from `virt` on are mapped to the frames from `phys` on, and no other page
is translated differently. -/
structure PagesMapped (pid : PID) (phys virt : Nat) (flags : MemoryFlags) (mapUser : Bool) (n : Nat)
    (k k' : Kernel) : Prop where
  besides : Besides pid k k'
  walk : ∀ j, j < n → (k'.pageTables pid).walk (virt + j * pageSize) =
    some (Pte.make (phys + j * pageSize) flags mapUser)
  rest : ∀ va, (∀ j, j < n → pageOf va ≠ pageOf (virt + j * pageSize)) →
    (k'.pageTables pid).walk va = (k.pageTables pid).walk va

theorem PagesMapped.zero (k : Kernel) : PagesMapped pid phys virt flags mapUser 0 k k :=
  ⟨.refl pid k, fun j hj => absurd hj (Nat.not_lt_zero j), fun _ _ => rfl⟩

variable {i f idx : Nat} {k1 : Kernel}

theorem PagesMapped.succ {k1 k2 : Kernel} (h : PagesMapped pid phys virt flags mapUser i k k1) (hi : i < 2 ^ 33)
    (hb : Besides pid k1 k2) (hwalk : ∀ va', (k2.pageTables pid).walk va' =
      if pageOf va' = pageOf (virt + i * pageSize) then
        some (Pte.make (phys + i * pageSize) flags mapUser) else (k1.pageTables pid).walk va') :
    PagesMapped pid phys virt flags mapUser (i + 1) k k2 := by
  refine ⟨h.besides.trans hb, fun j hj => ?_, fun va hva => ?_⟩
  · rw [hwalk]
    rcases Nat.lt_succ_iff_lt_or_eq.mp hj with hlt | rfl
    · rw [if_neg, h.walk j hlt]
      simp only [pageOf, pageSize]
      omega
    · rw [if_pos rfl]
  · rw [hwalk, if_neg (hva i (by omega)), h.rest va fun j hj => hva j (by omega)]

/-- The loops of `map_range` and of `map_range_readonly_mirror`, which differ in what they do
after taking the mapped pages back. -/
def mapLoop (pid : PID) (phys virt : Nat) (flags : MemoryFlags) (mapUser : Bool)
    (giveUp : KExec Unit) : Nat → Nat → KExec Unit
  | _, 0 => pure ()
  | i, n + 1 => do
    match ← attempt (mapPage pid (phys + i * pageSize) (virt + i * pageSize) flags mapUser) with
    | .ok () => mapLoop pid phys virt flags mapUser giveUp (i + 1) n
    | .error e => do
      unmapPtes pid virt i
      giveUp
      Exec.throw e

theorem mapPages_eq (pid : PID) (phys virt total : Nat) (flags : MemoryFlags) (mapUser : Bool) :
    ∀ n i, mapPages pid phys virt total flags mapUser i n =
      mapLoop pid phys virt flags mapUser (releasePages pid phys total) i n
  | 0, _ => rfl
  | n + 1, i => by
    refine bind_congr fun r => ?_
    cases r with
    | ok _ => exact mapPages_eq _ _ _ _ _ _ n _
    | error e => rfl

theorem mirrorPages_eq (pid : PID) (phys virt : Nat) :
    ∀ n i, mirrorPages pid phys virt i n = mapLoop pid phys virt {} true (pure ()) i n
  | 0, _ => rfl
  | n + 1, i => by
    refine bind_congr fun r => ?_
    cases r with
    | ok _ => exact mirrorPages_eq _ _ _ n _
    | error e => rfl

theorem mapLoop_ok {giveUp : KExec Unit} {k₀ : Kernel} : ∀ {n i : Nat} {k k' : Kernel} {u : Unit}, i + n ≤ 2 ^ 33 →
      PagesMapped pid phys virt flags mapUser i k₀ k →
      mapLoop pid phys virt flags mapUser giveUp i n k = .ok u k' →
      PagesMapped pid phys virt flags mapUser (i + n) k₀ k' := by
  intro n
  induction n with
  | zero =>
    intro i k k' u _ hk h
    cases h
    exact hk
  | succ n ih =>
    intro i k k' u hle hk h
    unfold mapLoop at h
    simp only [bind_eq_ok, attempt_eq_ok] at h
    obtain ⟨r, k1, hr, h⟩ := h
    rcases hr with ⟨_, rfl, hmap⟩ | ⟨e, rfl, _⟩
    · obtain ⟨hb, hwalk⟩ := wp_ok (mapPage_wp ..) hmap
      rw [show i + (n + 1) = i + 1 + n by omega]
      exact ih (by omega) (hk.succ (by omega) hb hwalk) h
    · simp only [bind_eq_ok] at h
      obtain ⟨_, _, _, _, _, _, hthrow⟩ := h
      cases hthrow

/-! ### Taking pages back -/

/-- The descriptor of `va` is cleared. -/
def clearPage (k : Kernel) (pid : PID) (va : Nat) : Kernel :=
  { k with pageTables := update k.pageTables pid { k.pageTables pid with
      entries := update (k.pageTables pid).entries (pageOf va) none } }

theorem clearPage_walk (k : Kernel) (pid : PID) (va va' : Nat) : ((k.clearPage pid va).pageTables pid).walk va' =
      if pageOf va' = pageOf va then none else (k.pageTables pid).walk va' := by
  simp only [clearPage, PageTables.walk, update_self, update_apply]
  split <;> split <;> rfl

theorem clearPage_others {q : PID} (k : Kernel) (va : Nat) (hq : q ≠ pid) :
    (k.clearPage pid va).pageTables q = k.pageTables q := update_of_ne hq ..

/-- `unmap_page` clears the descriptor if there is one, whether it is valid or not. -/
theorem unmapPte_run (k : Kernel) (pid : PID) (va : Nat) : unmapPte pid va k =
    if (k.pageTables pid).HasTables va then .ok () (k.clearPage pid va)
    else .err .badAddress k := by
  unfold unmapPte PageTables.unmapPage
  rw [get_bind_run]
  by_cases h : (k.pageTables pid).HasTables va
  · rw [if_pos h, if_pos (by simpa [PageTables.HasTables] using h)]
    rfl
  · rw [if_neg h, if_neg (by simpa [PageTables.HasTables] using h)]
    rfl

/-- The first `n` pages from `virt` on are not mapped any more. -/
structure PagesTaken (pid : PID) (virt n : Nat) (k k' : Kernel) : Prop where
  rest : k' = { k with pageTables := k'.pageTables }
  others : ∀ q, q ≠ pid → k'.pageTables q = k.pageTables q
  walk : ∀ j, j < n → (k'.pageTables pid).walk (virt + j * pageSize) = none
  untouched : ∀ va, (∀ j, j < n → pageOf va ≠ pageOf (virt + j * pageSize)) →
    (k'.pageTables pid).walk va = (k.pageTables pid).walk va

/-- A page is taken back whether its tables exist or not. -/
theorem PagesTaken.succ (h : PagesTaken pid virt n k k1) :
    ∃ k2, ignore (unmapPte pid (virt + n * pageSize)) k1 = .ok () k2 ∧ PagesTaken pid virt (n + 1) k k2 := by
  unfold ignore
  rw [unmapPte_run]
  by_cases htables : (k1.pageTables pid).HasTables (virt + n * pageSize)
  · rw [if_pos htables]
    refine ⟨_, rfl, ?_, fun q hq => ?_, fun j hj => ?_, fun va hva => ?_⟩
    · rw [h.rest]
      rfl
    · rw [clearPage_others k1 _ hq, h.others q hq]
    · rw [clearPage_walk]
      split
      · rfl
      · rcases Nat.lt_succ_iff_lt_or_eq.mp hj with hlt | rfl
        · exact h.walk j hlt
        · exact absurd rfl ‹_›
    · rw [clearPage_walk, if_neg (hva n (by omega)), h.untouched va fun j hj => hva j (by omega)]
  · rw [if_neg htables]
    refine ⟨_, rfl, h.rest, h.others, fun j hj => ?_, fun va hva => h.untouched va fun j hj =>
      hva j (by omega)⟩
    rcases Nat.lt_succ_iff_lt_or_eq.mp hj with hlt | rfl
    · exact h.walk j hlt
    · rw [PageTables.walk, if_neg (by simpa [PageTables.HasTables] using htables)]

theorem unmapPtes_run (k : Kernel) (pid : PID) (virt : Nat) : ∀ n, ∃ k',
    unmapPtes pid virt n k = .ok () k' ∧ PagesTaken pid virt n k k' := by
  intro n
  induction n with
  | zero => exact ⟨k, rfl, rfl, fun _ _ => rfl, fun j hj => absurd hj (Nat.not_lt_zero j),
      fun _ _ => rfl⟩
  | succ n ih =>
    obtain ⟨k1, hrun, h⟩ := ih
    obtain ⟨k2, hnext, h₂⟩ := h.succ
    unfold unmapPtes at hrun ⊢
    refine ⟨k2, ?_, h₂⟩
    rw [List.range_succ, Exec.each_append, bind_ok hrun, Exec.each, bind_ok hnext]
    rfl

/-- **A loop that fails leaves no page behind**: if none of the pages was mapped before, no address
is translated differently when the mapped ones have been taken back. -/
theorem mapLoop_err {giveUp : KExec Unit} {k₀ : Kernel} {m : Nat} (hm : m ≤ 2 ^ 33)
    (hfree : ∀ j, j < m → (k₀.pageTables pid).walk (virt + j * pageSize) = none) :
    ∀ {n i : Nat} {k k' : Kernel} {e : Error}, i + n = m → PagesMapped pid phys virt flags mapUser i k₀ k →
      mapLoop pid phys virt flags mapUser giveUp i n k = .err e k' →
      ∃ k1 e', Besides pid k₀ k1 ∧ (k1.pageTables pid).walk = (k₀.pageTables pid).walk ∧
        (giveUp >>= fun _ => (Exec.throw e' : KExec Unit)) k1 = .err e k' := by
  intro n
  induction n with
  | zero =>
    intro i k k' e _ _ h
    cases h
  | succ n ih =>
    intro i k k' e hi hk h
    unfold mapLoop at h
    have hmap := mapPage_wp pid (phys + i * pageSize) (virt + i * pageSize) flags mapUser k
    rw [bind_run] at h
    unfold attempt at h
    unfold wp at hmap
    cases hrun : mapPage pid (phys + i * pageSize) (virt + i * pageSize) flags mapUser k with
    | ok u k1 =>
      rw [hrun] at h hmap
      exact ih (by omega) (hk.succ (by omega) hmap.1 hmap.2) h
    | err e' k1 =>
      rw [hrun] at h hmap
      obtain ⟨hb, hsame, -⟩ := hmap
      obtain ⟨k2, hunmap, htaken⟩ := unmapPtes_run k1 pid virt i
      dsimp only at h
      rw [bind_ok hunmap] at h
      refine ⟨k2, e', ?_, ?_, h⟩
      · refine (hk.besides.trans hb).trans ⟨htaken.others, fun f => .inl ?_, fun f hf => ⟨?_, fun off _ => ?_⟩⟩
        · rw [htaken.rest]
        · rw [htaken.rest]
          exact hf
        · rw [htaken.rest]
      · funext va
        by_cases hva : ∃ j, j < i ∧ pageOf va = pageOf (virt + j * pageSize)
        · obtain ⟨j, hj, hpage⟩ := hva
          rw [walk_congr _ hpage, walk_congr _ hpage, htaken.walk j hj, hfree j (by omega)]
        · have hva : ∀ j, j < i → pageOf va ≠ pageOf (virt + j * pageSize) := fun j hj hpage =>
            hva ⟨j, hj, hpage⟩
          rw [htaken.untouched va hva, hsame, hk.rest va hva]
    | panic msg =>
      rw [hrun] at h
      cases h

theorem addressToAllocationOffset_ram (mm : MemoryManager) (hf : f < ramPages) :
    mm.addressToAllocationOffset (dramBase + f * pageSize) = some f := by
  have hend : dramBase + f * pageSize < dramEnd := by
    rw [ramPages_eq] at hf
    simp only [dramBase, dramEnd, ramSize, pageSize]
    omega
  unfold MemoryManager.addressToAllocationOffset
  rw [if_pos ⟨by omega, hend⟩, MemoryManager.pageIndex_of_addr]

theorem claimReleaseMove_ok {addr : Nat} {action : ClaimReleaseMove}
    (h : claimReleaseMove addr pid action k = .ok u k') :
    ∃ permission, withMemoryManager (MemoryManager.claimReleaseMove permission addr pid action) k = .ok u k' := by
  unfold claimReleaseMove at h
  split at h
  · rw [bind_eq_ok] at h
    obtain ⟨r, k1, hr, h⟩ := h
    rw [attempt_eq_ok] at hr
    rcases hr with ⟨p, rfl, hp⟩ | ⟨e, rfl, he⟩
    · rw [process_eq_ok] at hp
      obtain ⟨-, -, rfl⟩ := hp
      exact ⟨_, h⟩
    · rw [process_eq_err] at he
      obtain ⟨-, -, -, rfl⟩ := he
      exact ⟨_, h⟩
  · exact ⟨_, h⟩

theorem claimPage_ok (hf : f < ramPages) (h : claimPage (dramBase + f * pageSize) pid k = .ok u k') :
    MemoryManager.Claimed k.mm f pid k'.mm ∧ k'.pageTables = k.pageTables ∧ k'.ram = k.ram := by
  obtain ⟨permission, h⟩ := claimReleaseMove_ok h
  obtain ⟨mm', hm, ⟨b, hb⟩, hpt, hram⟩ := withMemoryManager_ok h
  refine ⟨?_, hpt, hram⟩
  unfold MemoryManager.claimReleaseMove at hm
  split at hm
  · cases hm
  · cases permission with
    | error e => cases hm
    | ok _ =>
      simp only [get_bind_run, addressToAllocationOffset_ram _ hf, Exec.okOr_some, Exec.pure_bind_run] at hm
      have hc := MemoryManager.claimOffset_ok hf hm
      rw [hb]
      exact ⟨hc.wasFree, hc.allocations, hc.zeroed, hc.dirty⟩

/-- The loop that claims pages: it returns only when every one of them was free. -/
theorem claimPages_ok : ∀ {n i : Nat} {k k' : Kernel} {u : Unit},
    idx + i + n ≤ ramPages → claimPages pid (dramBase + idx * pageSize) i n k = .ok u k' →
    (∀ j, idx + i ≤ j → j < idx + i + n → k.mm.freePagesZeroed j = true ∨ k.mm.freePagesDirty j = true) ∧
    (∀ j, idx + i ≤ j → j < idx + i + n → k'.mm.allocations j ≠ none) ∧
    (∀ j, k.mm.allocations j ≠ none → k'.mm.allocations j ≠ none) ∧
    k'.pageTables = k.pageTables ∧ k'.ram = k.ram := by
  intro n
  induction n with
  | zero =>
    intro i k k' u _ h
    cases h
    exact ⟨fun j h₁ h₂ => by omega, fun j h₁ h₂ => by omega, fun _ h => h, rfl, rfl⟩
  | succ n ih =>
    intro i k k' u hle h
    unfold claimPages at h
    simp only [bind_eq_ok, attempt_eq_ok] at h
    obtain ⟨r, k1, hr, h⟩ := h
    rcases hr with ⟨_, rfl, hclaim⟩ | ⟨e, rfl, _⟩
    · rw [Nat.add_assoc, ← Nat.add_mul] at hclaim
      obtain ⟨hc, hpt, hram⟩ := claimPage_ok (by omega) hclaim
      obtain ⟨hfree, howned, hkeep, hpt', hram'⟩ := ih (by omega) h
      have hkeep1 : ∀ j, k.mm.allocations j ≠ none → k1.mm.allocations j ≠ none := by
        intro j hj
        rw [hc.allocations, update_apply]
        split
        · simp
        · exact hj
      refine ⟨fun j h₁ h₂ => ?_, fun j h₁ h₂ => ?_, fun j hj => hkeep j (hkeep1 j hj), hpt'.trans hpt, hram'.trans hram⟩
      · rcases Nat.eq_or_lt_of_le h₁ with rfl | hlt
        · exact hc.wasFree
        · rw [← hc.zeroed j (by omega), ← hc.dirty j (by omega)]
          exact hfree j (by omega) (by omega)
      · rcases Nat.eq_or_lt_of_le h₁ with rfl | hlt
        · exact hkeep _ (by simp [hc.allocations])
        · exact howned j (by omega) (by omega)
    · simp only [bind_eq_ok] at h
      obtain ⟨_, _, _, hthrow⟩ := h
      cases hthrow

theorem claimPages_aligned (hn : 0 < n) (h : claimPages pid phys 0 n k = .ok u k') : phys % pageSize = 0 := by
  obtain ⟨n, rfl⟩ := Nat.exists_eq_succ_of_ne_zero (Nat.pos_iff_ne_zero.mp hn)
  unfold claimPages at h
  simp only [bind_eq_ok, attempt_eq_ok, Nat.zero_mul, Nat.add_zero] at h
  obtain ⟨r, k1, ⟨_, rfl, hclaim⟩ | ⟨e, rfl, _⟩, h⟩ := h
  · obtain ⟨permission, hclaim⟩ := claimReleaseMove_ok hclaim
    obtain ⟨mm', hm, -⟩ := withMemoryManager_ok hclaim
    unfold MemoryManager.claimReleaseMove at hm
    split at hm
    · cases hm
    · exact Decidable.not_not.mp ‹_›
  · simp only [bind_eq_ok] at h
    obtain ⟨_, _, _, hthrow⟩ := h
    cases hthrow

/-- The request is for anonymous memory: neither populated nor at a physical address. -/
def Anonymous (phys : Nat) (flags : MemoryFlags) : Prop := flags.populate = false ∧ phys = 0

instance (phys : Nat) (flags : MemoryFlags) : Decidable (Anonymous phys flags) :=
  inferInstanceAs (Decidable (_ ∧ _))

/-- The first of the frames a request is given: the frames it names, or the ones the allocator
picks. -/
def handedOut (mm : MemoryManager) (phys numPages : Nat) : Option Nat :=
  if phys ≠ 0 then some ((phys - dramBase) / pageSize) else (mm.pick numPages).map Prod.fst

/-- A physical address in a request is one of RAM. -/
def InRam (phys size : Nat) : Prop := phys ≠ 0 → dramBase ≤ phys ∧ phys + size ≤ dramEnd

/-- What `map_range` has after it obtained its pages, and before it maps them. -/
structure Obtained (k : Kernel) (phys numPages : Nat) (flags : MemoryFlags) (idx : Nat)
    (k' : Kernel) : Prop where
  handedOut : handedOut k.mm phys numPages = some idx
  inRam : idx + numPages ≤ ramPages
  wasFree : ∀ j, idx ≤ j → j < idx + numPages → k.mm.freePagesZeroed j = true ∨ k.mm.freePagesDirty j = true
  owned : ∀ j, idx ≤ j → j < idx + numPages → k'.mm.allocations j ≠ none
  pageTables : k'.pageTables = k.pageTables
  /-- Anonymous memory that is not known to be zeroed is zeroed. -/
  zeroed : Anonymous phys flags → ¬ k.mm.AllZeroed idx numPages →
    ∀ j, idx ≤ j → j < idx + numPages → ∀ off, off < pageSize → k'.ram (dramBase + j * pageSize + off) = 0
  /-- All other memory is left as it is. -/
  left : ¬ Anonymous phys flags ∨ k.mm.AllZeroed idx numPages → k'.ram = k.ram

theorem ram_frame (hlo : dramBase ≤ phys) (hhi : phys + n * pageSize ≤ dramEnd) (haligned : phys % pageSize = 0) :
    ∃ idx, phys = dramBase + idx * pageSize ∧ idx + n ≤ ramPages := by
  have hbase : dramBase = 1073741824 := by decide
  have hend : dramEnd = 2147483648 := by decide
  have hpage : pageSize = 16384 := rfl
  refine ⟨(phys - dramBase) / pageSize, ?_⟩
  rw [hbase] at hlo ⊢
  rw [hend, hpage] at hhi
  rw [hpage] at haligned ⊢
  rw [ramPages_eq]
  omega

theorem pages_round_up (n : Nat) : (n * pageSize + pageSize - 1) / pageSize = n := by
  simp only [pageSize]
  omega

/-- Frames that are asked for by address are claimed and left as they are. -/
theorem claimPages_obtained (flags : MemoryFlags) (hram : InRam phys (n * pageSize)) (hphys : phys ≠ 0) (hn : 0 < n)
    (h : claimPages pid phys 0 n k = .ok u k') :
    ∃ idx, phys = dramBase + idx * pageSize ∧ Obtained k phys n flags idx k' := by
  obtain ⟨hlo, hhi⟩ := hram hphys
  obtain ⟨idx, rfl, hle⟩ := ram_frame hlo hhi (claimPages_aligned hn h)
  obtain ⟨hfree, howned, -, hpt, hr⟩ := claimPages_ok (i := 0) hle h
  refine ⟨idx, rfl, ?_, hle, hfree, howned, hpt, fun hanon => absurd hanon.2 hphys, fun _ => hr⟩
  rw [handedOut, if_pos hphys, MemoryManager.pageIndex_of_addr]

theorem obtainPages_ok {base : Nat} (hram : InRam phys (n * pageSize)) (hn : 0 < n)
    (h : obtainPages pid phys (n * pageSize) flags k = .ok base k') :
    ∃ idx, base = dramBase + idx * pageSize ∧ Obtained k phys n flags idx k' := by
  have hpos : 0 < pageSize := by decide
  have hdiv : n * pageSize / pageSize = n := Nat.mul_div_cancel _ hpos
  unfold obtainPages at h
  split at h
  next hpop =>
    split at h
    · cases h
    · split at h
      · cases h
      next hphys =>
        rw [hdiv, bind_eq_ok] at h
        obtain ⟨⟨phys', z⟩, k1, halloc, h⟩ := h
        cases h
        obtain ⟨idx, rfl, ha, hpt, hr⟩ := allocRange_ok halloc
        refine ⟨idx, rfl, ?_, ha.inRam, ha.wasFree, ?_, hpt, ?_, fun _ => hr⟩
        · simp [handedOut, Decidable.not_not.mp hphys, ha.picked]
        · intro j h₁ h₂
          simp [ha.allocations, fill, h₁, h₂]
        · intro hanon
          exact absurd (hanon.1.symm.trans hpop) (by decide)
  next hpop =>
    split at h
    next hphys =>
      simp only [bind_eq_ok, Exec.assert_eq_ok] at h
      obtain ⟨-, _, ⟨-, rfl⟩, _, k1, hclaim, h⟩ := h
      cases h
      rw [pages_round_up] at hclaim
      exact claimPages_obtained flags hram hphys hn hclaim
    next hphys =>
      simp only [hdiv, bind_eq_ok] at h
      obtain ⟨⟨phys', z⟩, k1, halloc, h⟩ := h
      obtain ⟨idx, rfl, ha, hpt, hr⟩ := allocRange_ok halloc
      have hhand : handedOut k.mm phys n = some idx := by
        simp [handedOut, Decidable.not_not.mp hphys, ha.picked]
      have howned : ∀ j, idx ≤ j → j < idx + n → k1.mm.allocations j ≠ none := by
        intro j h₁ h₂
        simp [ha.allocations, fill, h₁, h₂]
      have hanon : Anonymous phys flags := ⟨by simpa using hpop, Decidable.not_not.mp hphys⟩
      cases z with
      | true =>
        cases h
        exact ⟨idx, rfl, hhand, ha.inRam, ha.wasFree, howned, hpt,
          fun _ hno => absurd (ha.zeroed_iff.mp rfl) hno, fun _ => hr⟩
      | false =>
        cases h
        have hdirty : ¬ k.mm.AllZeroed idx n := fun hall =>
          absurd (ha.zeroed_iff.mpr hall) (by decide)
        refine ⟨idx, rfl, hhand, ha.inRam, ha.wasFree, howned, hpt, ?_,
          fun hno => absurd hno (not_or.mpr ⟨not_not_intro hanon, hdirty⟩)⟩
        intro _ _ j h₁ h₂ off ho
        dsimp only
        rw [if_pos]
        simp only [pageSize] at *
        omega

theorem findVirtualAddress_ok {size v : Nat} (h : findVirtualAddress pid virt size k = .ok v k') :
    k'.memory = k.memory ∧ (virt = 0 → v % pageSize = 0) := by
  unfold findVirtualAddress at h
  split at h
  next hvirt =>
    cases h
    exact ⟨rfl, fun h0 => absurd h0 hvirt⟩
  · simp only [bind_eq_ok, Exec.assert_eq_ok, get_bind_run] at h
    obtain ⟨p, k1, hp, -, _, ⟨-, rfl⟩, h⟩ := h
    have hmem := blind_code.currentProcess.ok hp
    generalize Option.or _ _ = found at h
    cases found with
    | some start =>
      simp only [bind_eq_ok] at h
      obtain ⟨_, k2, hset, h⟩ := h
      cases h
      exact ⟨((setProcess_blind _ _).ok hset).trans hmem, fun _ => Nat.mul_mod_left _ _⟩
    | none => cases h

/-- **What a successful `map_range` has done**: `numPages` frames from `idx` on, which were
free, are mapped at the range it returns, in the mapping that was active. -/
structure Mapped (k : Kernel) (phys numPages : Nat) (flags : MemoryFlags) (mapUser : Bool)
    (range : MemoryRange) (idx : Nat) (k' : Kernel) : Prop where
  handedOut : handedOut k.mm phys numPages = some idx
  inRam : idx + numPages ≤ ramPages
  wasFree : ∀ j, idx ≤ j → j < idx + numPages → k.mm.freePagesZeroed j = true ∨ k.mm.freePagesDirty j = true
  walk : ∀ j, j < numPages → (k'.pageTables k.activeMapping).walk (range.addr.get + j * pageSize) =
      some (Pte.make (dramBase + (idx + j) * pageSize) flags mapUser)
  zeroed : Anonymous phys flags → ¬ k.mm.AllZeroed idx numPages →
    ∀ j, idx ≤ j → j < idx + numPages → ∀ off, off < pageSize → k'.ram (dramBase + j * pageSize + off) = 0
  left : ¬ Anonymous phys flags ∨ k.mm.AllZeroed idx numPages →
    ∀ j, idx ≤ j → j < idx + numPages → ∀ off, off < pageSize →
      k'.ram (dramBase + j * pageSize + off) = k.ram (dramBase + j * pageSize + off)

theorem mapRange_ok {range : MemoryRange} (hram : InRam phys (n * pageSize)) (hn : 0 < n)
    (h : mapRange phys virt (n * pageSize) flags mapUser k = .ok range k') :
    range.size.get = n * pageSize ∧ (virt = 0 → range.addr.get % pageSize = 0) ∧
      ∃ idx, Mapped k phys n flags mapUser range idx k' := by
  unfold mapRange at h
  simp only [bind_eq_ok, get_bind_run, Exec.okOr_eq_ok] at h
  obtain ⟨v, k1, hv, base, k2, hobtain, _, k3, hmap, addr, _, ⟨haddr, rfl⟩, size, _, ⟨hsize, rfl⟩, h⟩ := h
  cases h
  obtain ⟨hmem, haligned⟩ := findVirtualAddress_ok hv
  have hmm : k1.mm = k.mm := congrArg Memory.mm hmem
  have hram1 : k1.ram = k.ram := congrArg Memory.ram hmem
  rw [pages_round_up] at hmap
  obtain ⟨idx, rfl, hob⟩ := obtainPages_ok hram hn hobtain
  have hle := hob.inRam
  rw [mapPages_eq] at hmap
  have hpages := mapLoop_ok (by rw [ramPages_eq] at hle; omega) (.zero k2) hmap
  have hsame : ∀ j, idx ≤ j → j < idx + n → ∀ off, off < pageSize →
      k'.ram (dramBase + j * pageSize + off) = k2.ram (dramBase + j * pageSize + off) :=
    fun j h₁ h₂ => (hpages.besides.holds j (hob.owned j h₁ h₂)).2
  have haddr' : addr.get = v := by
    unfold NonZeroUsize.new at haddr
    split at haddr <;> cases haddr
    rfl
  refine ⟨?_, by rwa [haddr'], idx, hmm ▸ hob.handedOut, hle, hmm ▸ hob.wasFree, ?_, ?_, ?_⟩
  · unfold NonZeroUsize.new at hsize
    split at hsize <;> cases hsize
    rfl
  · intro j hj
    rw [haddr', hpages.walk j (by omega), Nat.add_mul, Nat.add_assoc]
  · intro hanon hdirty j h₁ h₂ off ho
    rw [hsame j h₁ h₂ off ho]
    exact hob.zeroed hanon (by rwa [hmm]) j h₁ h₂ off ho
  · intro hleft j h₁ h₂ off ho
    rw [hsame j h₁ h₂ off ho, hob.left (by rwa [hmm]), hram1]

/-! ## 3. A populated page -/

/-- The state after the page `idx` has been mapped at `start` for the running process `p`. -/
def populated (k : Kernel) (p : Process) (idx : Nat) (start : PageAddress) (flags : MemoryFlags)
    (mapUser : Bool) : Kernel :=
  { k with
    processes := update k.processes k.currentPid (some { p with allocationHint := start })
    mm := k.mm.takeDirty idx k.activeMapping
    pageTables := update k.pageTables k.activeMapping { k.pageTables k.activeMapping with
        entries := update (k.pageTables k.activeMapping).entries (pageOf start.get)
          (some (Pte.make (dramBase + idx * pageSize) flags mapUser)) } }

/-- Page `idx` can be populated for the running process `p` at `start`: an address is free
there, its tables exist, and `idx` is the next page to be handed out. -/
structure CanPopulate (k : Kernel) (p : Process) (idx : Nat) (start : PageAddress) : Prop where
  pid : k.currentPid.get ≤ maxProcessCount
  process : k.processes k.currentPid = some p
  free : findFree (k.pageTables k.activeMapping) pageSize p.allocationHint
    ((mmapAreaVirtEnd - pageSize - p.allocationHint.get + pageSize - 1) / pageSize) = some start
  nonzero : start.get ≠ 0
  next : k.mm.NextDirty idx
  l2 : ((k.pageTables k.activeMapping).l2 (l1Index start.get)).isSome = true
  l3 : ((k.pageTables k.activeMapping).l3 (l1Index start.get) (l2Index start.get)).isSome = true

/-- **A run that returns**: a populated page is the next page to be handed out, mapped at the
first free address. -/
theorem mapRange_populate_run {p : Process} {start : PageAddress} (mapUser : Bool) (h : CanPopulate k p idx start)
    (hpop : flags.populate = true) (hw : flags.w = true) :
    mapRange 0 0 pageSize flags mapUser k = .ok ⟨⟨start.get, h.nonzero⟩, ⟨pageSize, by decide⟩⟩
      (k.populated p idx start flags mapUser) := by
  have hcur : ∀ k' : Kernel, k'.currentPid = k.currentPid → k'.processes k.currentPid = some p →
      currentProcess k' = .ok p k' := by
    intro k' hc hk'
    unfold currentProcess
    rw [get_bind_run, Exec.unwrap_eq_ok, process_eq_ok, hc]
    exact ⟨h.pid, hk', rfl⟩
  have hva : findVirtualAddress k.activeMapping 0 pageSize k = .ok start.get { k with
      processes := update k.processes k.currentPid (some { p with allocationHint := start }) } := by
    unfold findVirtualAddress
    have hsize : pageSize ≤ mmapAreaVirtEnd := by decide
    simp only [ne_eq, not_true_eq_false, if_false]
    rw [bind_ok (hcur k rfl h.process)]
    simp only [bind_run, Exec.assert, hsize, decide_true, if_true, pure_run, get_run, h.free, Option.some_or]
    rfl
  have halloc : ∀ k' : Kernel, k'.mm = k.mm → allocRange 1 k.activeMapping k' = .ok (dramBase + idx * pageSize, false)
        { k' with mm := k.mm.takeDirty idx k.activeMapping } := by
    intro k' hmm
    have hq : (k.mm.takeDirty idx k.activeMapping).lowMemoryEvent = false := h.next.quiet
    simp only [allocRange, withMemoryManager, bind_run, attempt, Exec.zoom, hmm,
      MemoryManager.allocRange_run k.activeMapping h.next, get_run, hq, Bool.false_eq_true,
      if_false, Exec.ofExcept, pure_run]
  have hone : pageSize / pageSize = 1 := by decide
  have hround : (pageSize + pageSize - 1) / pageSize = 1 := by decide
  unfold mapRange
  rw [get_bind_run, bind_ok hva]
  simp only [obtainPages, hpop, hw, hone, hround, if_true, Bool.not_true, Bool.false_eq_true,
    if_false, ne_eq, not_true_eq_false, bind_run,
    halloc { k with
      processes := update k.processes k.currentPid
        (some { p with allocationHint := start }) } rfl, pure_run, mapPages, mapPage,
    Nat.zero_mul, Nat.add_zero, attempt, ensureL2, ensureL3, get_run,
    Option.isNone_iff_eq_none, Option.isSome_iff_ne_none.mp h.l2, Option.isSome_iff_ne_none.mp h.l3,
    setPageTables, Exec.modify_run, populated, NonZeroUsize.new_of_ne_zero h.nonzero, Exec.okOr_some,
    NonZeroUsize.new_of_ne_zero (show pageSize ≠ 0 by decide)]

end Kernel

end BeetKernel

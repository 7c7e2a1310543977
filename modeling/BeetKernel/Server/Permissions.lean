/-
# Message permissions

`MessagePermissions` is a flag that allows everything, a mask for the ids below 64 and a list of four
ranges for the others.  The flag starts SET.  The first call of `add` clears it for good, and from
then on the mask and the list allow exactly what has been added, as long as every range finds a slot
(`adds_exact`).  A range that finds none is refused too LATE: the flag is cleared and the mask holds
the ids below 64 already (`refused_unchanged_iff`).
-/
import BeetKernel.Server.Queue
import Mathlib.Algebra.Order.BigOperators.Group.List
import Mathlib.Algebra.Order.Group.Nat

namespace BeetKernel.MessagePermissions

variable {p q : MessagePermissions} {messages : MessageRange} {ranges : List MessageRange} {m : MessageId}

/-- The mask and the list allow the message. -/
def Names (p : MessagePermissions) (m : MessageId) : Prop :=
  { p with allowAll := false }.isPermitted m = true

/-- The mask and the list allow nothing outside the ranges. -/
def Within (p : MessagePermissions) (ranges : List MessageRange) : Prop :=
  ∀ m, p.Names m → ∃ range ∈ ranges, range.contains m = true

theorem names_iff : p.Names m ↔
    if m < 64 then p.mask.getLsbD m = true else ∃ slot ∈ p.list.toList, slot.contains m = true := by
  unfold Names isPermitted
  simp only [Bool.false_eq_true, if_false]
  split
  · rfl
  · exact List.any_eq_true

theorem isPermitted_iff : p.isPermitted m = true ↔ p.allowAll = true ∨ p.Names m := by
  unfold Names isPermitted
  cases p.allowAll <;> simp

theorem Within.permitted (h : p.Within ranges) (hp : p.allowAll = false)
    (hm : p.isPermitted m = true) : ∃ range ∈ ranges, range.contains m = true := by
  refine h m ?_
  unfold Names
  rw [← hp]
  exact hm

theorem Within.mono {ranges' : List MessageRange} (h : p.Within ranges) (hsub : ranges ⊆ ranges') :
    p.Within ranges' := fun m hm => by
  obtain ⟨range, hrange, hcontains⟩ := h m hm
  exact ⟨range, hsub hrange, hcontains⟩

theorem not_default_names : ¬ default.Names m := by
  intro hm
  rw [names_iff] at hm
  split at hm
  · simp [default] at hm
  · obtain ⟨slot, hslot, hcontains⟩ := hm
    obtain rfl : slot = ⟨0, 0⟩ := by simpa [default, messagePermissionCount] using hslot
    simp [MessageRange.contains] at hcontains

theorem default_within : default.Within [] := fun _ hm => absurd hm not_default_names

theorem names_bounded (p : MessagePermissions) : ∃ bound, ∀ m, p.Names m → m < bound := by
  refine ⟨64 + (p.list.toList.map MessageRange.stop).sum, fun m hm => ?_⟩
  rw [names_iff] at hm
  split at hm
  next hlt =>
    exact Nat.lt_add_right _ hlt
  · obtain ⟨slot, hslot, hcontains⟩ := hm
    simp only [MessageRange.contains, decide_eq_true_eq] at hcontains
    have hle : slot.stop ≤ (p.list.toList.map MessageRange.stop).sum := List.le_sum_of_mem (List.mem_map_of_mem hslot)
    exact Nat.lt_of_lt_of_le hcontains.2 (Nat.le_add_left_of_le hle)

/-! ## 1. The mask -/

theorem foldl_mask (l : List Nat) (mask : BitVec 64) {m : Nat} (hm : m < 64) :
    (l.foldl (fun mask i => mask ||| BitVec.twoPow 64 i) mask).getLsbD m = (mask.getLsbD m || decide (m ∈ l)) := by
  induction l generalizing mask with
  | nil => simp
  | cons i rest ih =>
    rw [List.foldl_cons, ih, BitVec.getLsbD_or, BitVec.getLsbD_twoPow]
    by_cases him : i = m
    · subst him
      simp [hm]
    · have hne : ¬ m = i := fun h => him h.symm
      simp [him, hne, hm]

/-- The mask with the ids of the range below 64. -/
def maskWith (p : MessagePermissions) (messages : MessageRange) : BitVec 64 :=
  (List.range' messages.start (min messages.stop 64 - messages.start)).foldl
    (fun mask i => mask ||| BitVec.twoPow 64 i) p.mask

theorem maskWith_names (hm : m < 64) :
    (p.maskWith messages).getLsbD m = true ↔ messages.contains m = true ∨ p.Names m := by
  have hbound : ∀ {a b m : Nat}, m < 64 → (a ≤ m ∧ m < a + (min b 64 - a) ↔ a ≤ m ∧ m < b) := by
    omega
  rw [maskWith, foldl_mask _ _ hm, Bool.or_eq_true, decide_eq_true_eq, List.mem_range'_1, hbound hm,
    names_iff, if_pos hm, or_comm, MessageRange.contains, decide_eq_true_eq]

/-! ## 2. The list -/

theorem touching_contains {a b : MessageRange} (hab : a.start ≤ b.stop) (hba : b.start ≤ a.stop) :
    (⟨min a.start b.start, max a.stop b.stop⟩ : MessageRange).contains m = true ↔
      b.contains m = true ∨ a.contains m = true := by
  have hunion : ∀ {a b c d m : Nat}, a ≤ d → c ≤ b →
      (min a c ≤ m ∧ m < max b d ↔ (c ≤ m ∧ m < d) ∨ (a ≤ m ∧ m < b)) := by omega
  simp only [MessageRange.contains, decide_eq_true_eq]
  exact hunion hab hba

theorem not_contains_of_isEmpty {slot : MessageRange} (h : slot.isEmpty = true) : ¬ slot.contains m = true := by
  simp only [MessageRange.isEmpty, MessageRange.contains, decide_eq_true_eq] at h ⊢
  exact fun hm => absurd (hm.1.trans_lt hm.2) (not_lt.mpr h)

theorem addToList_contains : ∀ {l l' : List MessageRange}, addToList messages l = some l' →
    ((∃ slot ∈ l', slot.contains m = true) ↔ messages.contains m = true ∨ ∃ slot ∈ l, slot.contains m = true) := by
  intro l
  induction l with
  | nil =>
    intro l' h
    cases h
  | cons slot rest ih =>
    intro l' h
    unfold addToList at h
    split at h
    next htouch =>
      cases h
      simp only [List.exists_mem_cons_iff, touching_contains htouch.1 htouch.2, or_assoc]
    · split at h
      next hempty =>
        cases h
        simp only [List.exists_mem_cons_iff, not_contains_of_isEmpty hempty, Bool.false_eq_true, false_or]
      · obtain ⟨rest', hrest', rfl⟩ := Option.map_eq_some_iff.mp h
        simp only [List.exists_mem_cons_iff, ih hrest', or_left_comm]

/-- Some slot of the list takes the range. -/
def HasSlot (p : MessagePermissions) (messages : MessageRange) : Prop :=
  ∃ slot ∈ p.list.toList, (slot.start ≤ messages.stop ∧ messages.start ≤ slot.stop) ∨ slot.isEmpty = true

theorem addToList_eq_none {l : List MessageRange} : addToList messages l = none ↔ ¬ ∃ slot ∈ l,
    (slot.start ≤ messages.stop ∧ messages.start ≤ slot.stop) ∨ slot.isEmpty = true := by
  induction l with
  | nil => simp [addToList]
  | cons slot rest ih =>
    unfold addToList
    rw [List.exists_mem_cons_iff, not_or, ← ih]
    split
    next htouch =>
      simp [htouch]
    · split
      next hempty =>
        simp [hempty]
      next htouch hempty =>
        simp only [Option.map_eq_none_iff]
        exact ⟨fun h => ⟨by simp [hempty, htouch], h⟩, fun h => h.2⟩

/-! ## 3. Adding a range -/

/-- What `add` can do: nothing for an empty range, and the mask alone for one below 64; otherwise it
looks for a slot, with the mask already written. -/
inductive Adding (p : MessagePermissions) (messages : MessageRange) :
    Except Error Unit × MessagePermissions → Prop where
  | nothing (h : messages.isEmpty = true) : Adding p messages (.error .invalidArguments, p)
  | low (h : messages.isEmpty = false) (hstop : messages.stop ≤ 64) :
      Adding p messages (.ok (), { p with allowAll := false, mask := p.maskWith messages })
  | slot (h : messages.isEmpty = false) (hstop : ¬ messages.stop ≤ 64) (list : Vector MessageRange 4)
      (hl : addToList messages p.list.toList = some list.toList) :
      Adding p messages (.ok (), ⟨false, p.maskWith messages, list⟩)
  | full (h : messages.isEmpty = false) (hstop : ¬ messages.stop ≤ 64) (hl : ¬ p.HasSlot messages) :
      Adding p messages (.error .outOfMemory, { p with allowAll := false, mask := p.maskWith messages })

theorem adding (p : MessagePermissions) (messages : MessageRange) : Adding p messages (p.add messages) := by
  unfold add
  split
  · exact .nothing ‹_›
  · have hempty : messages.isEmpty = false := by simpa using ‹¬ messages.isEmpty = true›
    dsimp only
    split
    · exact .low hempty ‹_›
    · split
      · exact .slot hempty ‹_› _ (by simpa)
      · exact .full hempty ‹_› (addToList_eq_none.mp ‹_›)

/-- `add` finds nothing to do for the range, or a place for all of it; or the range has no part in
the mask. -/
def Fits (p : MessagePermissions) (messages : MessageRange) : Prop :=
  messages.isEmpty = true ∨ messages.stop ≤ 64 ∨ 64 ≤ messages.start ∨ p.HasSlot messages

theorem add_allowAll (hp : p.allowAll = false) : (p.add messages).2.allowAll = false := by
  have hadding := adding p messages
  generalize p.add messages = x at hadding
  cases hadding with
  | nothing => exact hp
  | low | slot | full => rfl

theorem add_ok_nonempty (h : (p.add messages).1 = .ok ()) : messages.isEmpty = false := by
  have hadding := adding p messages
  generalize p.add messages = x at hadding h
  cases hadding <;> first | assumption | cases h

theorem add_ok_allowAll (hok : (p.add messages).1 = .ok ()) : (p.add messages).2.allowAll = false := by
  have hadding := adding p messages
  generalize p.add messages = x at hadding hok
  cases hadding with
  | nothing | full => cases hok
  | low | slot => rfl

/-- **What `add` allows**, exactly. -/
theorem names_add (hok : (p.add messages).1 = .ok ()) :
    (p.add messages).2.Names m ↔ messages.contains m = true ∨ p.Names m := by
  have hadding := adding p messages
  generalize p.add messages = x at hadding hok
  rw [names_iff]
  split
  next hlt =>
    cases hadding with
    | nothing | full => cases hok
    | low | slot => exact maskWith_names hlt
  next hge =>
    rw [names_iff, if_neg hge]
    cases hadding with
    | nothing | full => cases hok
    | low _ hstop =>
      -- the range ends before the id
      have hout : ¬ messages.contains m = true := by
        simp only [MessageRange.contains, decide_eq_true_eq]
        exact fun hm => hge (hm.2.trans_le hstop)
      simp only [hout, Bool.false_eq_true, false_or]
    | slot _ _ list hl => exact addToList_contains hl

/-- **What `add` allows when it succeeds.** -/
theorem Within.add (h : p.Within ranges) (hok : (p.add messages).1 = .ok ()) :
    (p.add messages).2.Within (messages :: ranges) := by
  intro m hm
  rcases (names_add hok).mp hm with hm | hm
  · exact ⟨messages, List.mem_cons_self, hm⟩
  · obtain ⟨range, hrange, hcontains⟩ := h m hm
    exact ⟨range, List.mem_cons_of_mem _ hrange, hcontains⟩

/-- A range that is refused for want of a slot changes the mask all the same. -/
theorem names_full : ({ p with allowAll := false, mask := p.maskWith messages }).Names m ↔
    (m < 64 ∧ messages.contains m = true) ∨ p.Names m := by
  rw [names_iff]
  split
  next hlt =>
    simp only [maskWith_names hlt, hlt, true_and]
  next hge =>
    rw [names_iff, if_neg hge]
    simp only [hge, false_and, false_or]

theorem Within.refused (h : p.Within ranges) (hfits : p.Fits messages)
    (hno : (p.add messages).1 ≠ .ok ()) : (p.add messages).2.Within ranges := by
  have hadding := adding p messages
  generalize p.add messages = x at hadding hno
  cases hadding with
  | nothing => exact h
  | low | slot => exact absurd rfl hno
  | full hempty hstop hl =>
    intro m hm
    rcases names_full.mp hm with ⟨hlt, hm⟩ | hm
    · rcases hfits with hf | hf | hf | hf
      · rw [hempty] at hf
        cases hf
      · exact absurd hf hstop
      · -- no id below 64 is in the range
        simp only [MessageRange.contains, decide_eq_true_eq] at hm
        exact absurd (hlt.trans_le hf) (not_lt.mpr hm.1)
      · exact absurd hf hl
    · exact h m hm

/-! ## 4. Sequences of additions -/

/-- A sequence of additions that all succeed. -/
inductive Adds : MessagePermissions → List MessageRange → MessagePermissions → Prop where
  | nil (p : MessagePermissions) : Adds p [] p
  | cons {p q : MessagePermissions} {messages : MessageRange} {ranges : List MessageRange}
      (hok : (p.add messages).1 = .ok ()) (h : Adds (p.add messages).2 ranges q) :
      Adds p (messages :: ranges) q

theorem Adds.names (h : Adds p ranges q) : q.Names m ↔ (∃ range ∈ ranges, range.contains m = true) ∨ p.Names m := by
  induction h with
  | nil p => simp
  | cons hok _ ih => rw [ih, names_add hok, List.exists_mem_cons_iff, or_assoc, or_left_comm]

theorem Adds.allowAll (h : Adds p ranges q) (hp : p.allowAll = false) : q.allowAll = false := by
  induction h with
  | nil p => exact hp
  | cons hok _ ih => exact ih (add_allowAll hp)

/-- **What a sequence of additions allows**: the ids in one of the ranges, and no others. -/
theorem adds_exact (h : Adds default ranges p) (hne : ranges ≠ []) (m : MessageId) :
    p.isPermitted m = true ↔ ∃ range ∈ ranges, range.contains m = true := by
  have hflag : p.allowAll = false := by
    cases h with
    | nil => exact absurd rfl hne
    | cons hok h => exact h.allowAll (add_ok_allowAll hok)
  rw [isPermitted_iff, hflag, h.names]
  simp [not_default_names]

/-- Four ranges that do not touch. -/
def fourRanges : List MessageRange := [⟨1000, 1001⟩, ⟨2000, 2001⟩, ⟨3000, 3001⟩, ⟨4000, 4001⟩]

/-- The permissions after four ranges that do not touch: every slot is taken. -/
def crowded : MessagePermissions := { allowAll := false, mask := 0, list := ⟨fourRanges.toArray, rfl⟩ }

theorem crowded_adds : Adds default fourRanges crowded := by
  refine .cons rfl (.cons rfl (.cons rfl (.cons rfl ?_)))
  exact .nil crowded

theorem adds_exact_crowded : Adds default fourRanges crowded ∧ fourRanges ≠ [] ∧
    ∀ m, crowded.isPermitted m = true ↔ ∃ range ∈ fourRanges, range.contains m = true :=
  ⟨crowded_adds, by decide, adds_exact crowded_adds (by decide)⟩

/-- **When a refused range leaves the permissions as they were**: it is empty, or there is a place
for it, so it is not refused; or the permissions have been set before and allow every id of the
range below 64 already. -/
theorem refused_unchanged_iff (p : MessagePermissions) (messages : MessageRange) :
    ((p.add messages).1 ≠ .ok () → ∀ m, (p.add messages).2.isPermitted m = p.isPermitted m) ↔
      messages.isEmpty = true ∨ messages.stop ≤ 64 ∨ p.HasSlot messages ∨
        (p.allowAll = false ∧ ∀ m, messages.start ≤ m → m < 64 → p.isPermitted m = true) := by
  have hadding := adding p messages
  generalize p.add messages = x at hadding
  cases hadding with
  | nothing h => simp [h]
  | low _ hstop => simp [hstop]
  | slot _ _ list hl =>
    have hslot : p.HasSlot messages := by
      by_contra hno
      rw [addToList_eq_none.mpr hno] at hl
      cases hl
    simp [hslot]
  | full hempty hstop hl =>
    have hin : ∀ {m}, m < 64 → (messages.contains m = true ↔ messages.start ≤ m) := fun hm => by
      simp only [MessageRange.contains, decide_eq_true_eq]
      exact and_iff_left (hm.trans (not_le.mp hstop))
    have hsame : ∀ m, ({ p with allowAll := false, mask := p.maskWith messages }).isPermitted m =
        p.isPermitted m ↔ ((m < 64 ∧ messages.contains m = true) ∨ p.Names m ↔
          p.allowAll = true ∨ p.Names m) := fun m => by
      rw [Bool.eq_iff_iff, isPermitted_iff, isPermitted_iff, names_full]
      simp
    simp only [ne_eq, reduceCtorEq, not_false_eq_true, true_implies, hempty, hstop, hl,
      Bool.false_eq_true, false_or, hsame, isPermitted_iff (p := p)]
    cases p.allowAll with
    | true =>
      -- beyond its ranges, everything was allowed and nothing is
      obtain ⟨bound, hbound⟩ := p.names_bounded
      have hle : ∀ b : Nat, b ≤ b + 64 ∧ ¬ b + 64 < 64 := by omega
      simp only [Bool.true_eq_false, true_or, iff_true, false_and, iff_false]
      intro h
      rcases h (bound + 64) with ⟨hlt, -⟩ | h
      · exact (hle bound).2 hlt
      · exact absurd (hbound _ h) (not_lt.mpr (hle bound).1)
    | false =>
      simp only [Bool.false_eq_true, false_or, true_and]
      constructor
      · intro h m hm hlt
        exact (h m).mp (.inl ⟨hlt, (hin hlt).mpr hm⟩)
      · intro h m
        exact ⟨fun hm => hm.elim (fun hm => h m ((hin hm.1).mp hm.2) hm.1) id, .inr⟩

/-- The range is refused, and its ids below 64 are allowed. -/
theorem refused_allows : Adds default fourRanges crowded ∧
    (crowded.add ⟨10, 100⟩).1 = .error .outOfMemory ∧ crowded.isPermitted 10 = false ∧
    (crowded.add ⟨10, 100⟩).2.isPermitted 10 = true :=
  ⟨crowded_adds, rfl, rfl, rfl⟩

end BeetKernel.MessagePermissions

/-
# What holds of threads and servers in every run

`Linked`: the scheduler's lists are the ready threads.  `Basic` adds what the tables owe each
other: a thread belongs to a process, a server too, a process has one connection to a server
at most, and the slot numbers of a queue are within it.  EVERY move keeps these, whatever a
queue page held when a server was created on it.

`Proper` says that whoever is mentioned, by a slot, a mask or the display, is a user thread.
A queue page may mention others.
-/
import BeetKernel.Ipc.Model

namespace BeetKernel

open Scheduler (readyThread parkThread)
open Function (update_eq_self update_of_ne update_self update)

namespace Ipc

variable {i j : Ipc} {t u : ThreadId}
variable {s s' : Scheduler} {p : ThreadPriority} {L : Scheduler.ReadyLists} {st : ThreadState}

/-! ## 1. What the changes leave alone -/

namespace SetState

variable {st : ThreadState} (h : SetState t st i j)

include h

theorem state : j.state = update i.state t st := by rw [h.rest]
theorem parent : j.parent = i.parent := by rw [h.rest]
theorem future : j.future = i.future := by rw [h.rest]
theorem mailbox : j.mailbox = i.mailbox := by rw [h.rest]
theorem priority : j.priority = i.priority := by rw [h.rest]
theorem servers : j.servers = i.servers := by rw [h.rest]
theorem connections : j.connections = i.connections := by rw [h.rest]
theorem allocated : j.allocated = i.allocated := by rw [h.rest]
theorem context : j.context = i.context := by rw [h.rest]
theorem pid : j.pid = i.pid := by rw [h.rest]
theorem tid : j.tid = i.tid := by rw [h.rest]
theorem waiters : j.waiters = i.waiters := by rw [h.rest]
theorem frames : j.frames = i.frames := by rw [h.rest]

theorem current : j.current = i.current := by
  rw [Ipc.current, h.pid, h.tid, Ipc.current]

theorem state_self : j.state t = st := by
  rw [h.state, update_self]

theorem state_of_ne (hu : u ≠ t) : j.state u = i.state u := by
  rw [h.state, update_of_ne hu]

end SetState

theorem Wakes.frame (h : Wakes i j) : j.parent = i.parent ∧ j.future = i.future ∧
    j.mailbox = i.mailbox ∧ j.servers = i.servers ∧ j.allocated = i.allocated ∧
    j.context = i.context ∧ j.pid = i.pid ∧ j.tid = i.tid ∧ j.waiters = i.waiters := by
  induction h with
  | refl => simp
  | tail _ hlast ih =>
    obtain ⟨t, _, _, hs⟩ := hlast
    rw [hs.parent, hs.future, hs.mailbox, hs.servers, hs.allocated, hs.context, hs.pid, hs.tid, hs.waiters]
    exact ih

/-- Threads are only made ready: one that was stays so, and none appears or disappears. -/
theorem Wakes.state (h : Wakes i j) (t : ThreadId) :
    (i.state t = .ready → j.state t = .ready) ∧ (j.state t = .free ↔ i.state t = .free) := by
  induction h with
  | refl => simp
  | tail _ hlast ih =>
    obtain ⟨u, hr, hf, hs⟩ := hlast
    by_cases ht : t = u
    · subst ht
      rw [hs.state_self, ← ih.2]
      simp [hf]
    · rw [hs.state_of_ne ht]
      exact ih

theorem namedAt_congr (h : j.servers = i.servers) (sidx slot : Nat) (t : ThreadId) :
    j.NamedAt sidx slot t ↔ i.NamedAt sidx slot t := by
  unfold NamedAt
  rw [h]

theorem parkedAt_congr (h : j.servers = i.servers) (sidx : Nat) (t : ThreadId) :
    j.ParkedAt sidx t ↔ i.ParkedAt sidx t := by
  unfold ParkedAt
  rw [h]

section Servers

variable {sidx n slot : Nat} {s s' : Server}

theorem namedAt_setServer : (i.setServer sidx (some s')).NamedAt n slot t ↔
    (n = sidx ∧ s'.caller slot = some t) ∨ (n ≠ sidx ∧ i.NamedAt n slot t) := by
  unfold NamedAt setServer
  by_cases h : n = sidx
  · subst h; simp
  · simp [h]

theorem parkedAt_setServer : (i.setServer sidx (some s')).ParkedAt n t ↔
    (n = sidx ∧ s'.pid = t.1 ∧ s'.readyThreads.getLsbD t.2 = true) ∨ (n ≠ sidx ∧ i.ParkedAt n t) := by
  unfold ParkedAt setServer
  by_cases h : n = sidx
  · subst h; simp
  · simp [h]

theorem namedAt_setServer_none : (i.setServer sidx none).NamedAt n slot t ↔ n ≠ sidx ∧ i.NamedAt n slot t := by
  unfold NamedAt setServer
  by_cases h : n = sidx
  · subst h; simp
  · simp [h]

theorem parkedAt_setServer_none : (i.setServer sidx none).ParkedAt n t ↔ n ≠ sidx ∧ i.ParkedAt n t := by
  unfold ParkedAt setServer
  by_cases h : n = sidx
  · subst h; simp
  · simp [h]

variable (hs : i.servers sidx = some s)

include hs

theorem namedAt_iff : i.NamedAt sidx slot t ↔ s.caller slot = some t := by
  unfold NamedAt
  simp [hs]

theorem parkedAt_iff : i.ParkedAt sidx t ↔ s.pid = t.1 ∧ s.readyThreads.getLsbD t.2 = true := by
  unfold ParkedAt
  simp [hs]

theorem parkedAt_self {tid : TID} : i.ParkedAt sidx (s.pid, tid) ↔ s.readyThreads.getLsbD tid = true := by
  rw [parkedAt_iff hs]
  exact ⟨And.right, fun h => ⟨rfl, h⟩⟩

theorem namedAt_setServer_same (hc : s'.caller = s.caller) :
    (i.setServer sidx (some s')).NamedAt n slot t ↔ i.NamedAt n slot t := by
  rw [namedAt_setServer]
  by_cases h : n = sidx
  · subst h; simp [namedAt_iff hs, hc]
  · simp [h]

theorem parkedAt_setServer_same (hr : s.SameReceivers s') :
    (i.setServer sidx (some s')).ParkedAt n t ↔ i.ParkedAt n t := by
  rw [parkedAt_setServer]
  by_cases h : n = sidx
  · subst h; simp [parkedAt_iff hs, hr.1, hr.2]
  · simp [h]

theorem parkedAt_setServer_hands {tid : TID} (hh : Hands tid s s') :
    (i.setServer sidx (some s')).ParkedAt n t ↔ i.ParkedAt n t ∧ ¬ (n = sidx ∧ t = (s.pid, tid)) := by
  rw [parkedAt_setServer]
  by_cases h : n = sidx
  · subst h
    simp only [parkedAt_iff hs, hh.pid, hh.mask, Bool.and_eq_true, decide_eq_true_eq, true_and,
      ne_eq, not_true_eq_false, false_and, or_false, Prod.ext_iff]
    constructor
    · rintro ⟨hp, hb, hne⟩
      exact ⟨⟨hp, hb⟩, fun ht => hne ht.2⟩
    · rintro ⟨⟨hp, hb⟩, hne⟩
      exact ⟨hp, hb, fun ht => hne ⟨hp.symm, ht⟩⟩
  · simp [h]

theorem parkedAt_setServer_parks {tid : TID} (hh : Parks tid s s') :
    (i.setServer sidx (some s')).ParkedAt n t ↔ i.ParkedAt n t ∨ (n = sidx ∧ t = (s.pid, tid)) := by
  rw [parkedAt_setServer]
  by_cases h : n = sidx
  · subst h
    simp only [parkedAt_iff hs, hh.pid, hh.mask, Bool.or_eq_true, decide_eq_true_eq, true_and,
      ne_eq, not_true_eq_false, false_and, or_false, Prod.ext_iff]
    constructor
    · rintro ⟨hp, hb | ht⟩
      · exact .inl ⟨hp, hb⟩
      · exact .inr ⟨hp.symm, ht⟩
    · rintro (⟨hp, hb⟩ | ⟨hp, ht⟩)
      · exact ⟨hp, .inl hb⟩
      · exact ⟨hp.symm, .inr ht⟩
  · simp [h]

theorem namedAt_setServer_removes (hr : Removes slot u s s')
    {slot' : Nat} : (i.setServer sidx (some s')).NamedAt n slot' t ↔
      i.NamedAt n slot' t ∧ ¬ (n = sidx ∧ slot' = slot) := by
  rw [namedAt_setServer]
  by_cases h : n = sidx
  · subst h
    by_cases hslot : slot' = slot <;> simp [namedAt_iff hs, hr.caller, hslot]
  · simp [h]

theorem namedAt_setServer_adds (ha : Adds slot u s s') {slot' : Nat} : (i.setServer sidx (some s')).NamedAt n slot' t ↔
      i.NamedAt n slot' t ∨ (n = sidx ∧ slot' = slot ∧ t = u) := by
  rw [namedAt_setServer]
  by_cases h : n = sidx
  · subst h
    by_cases hslot : slot' = slot
    · subst hslot
      simp [namedAt_iff hs, ha.caller, ha.free, eq_comm]
    · simp [namedAt_iff hs, ha.caller, hslot]
  · simp [h]

theorem namedAt_strike {pid : PID} : (i.setServer sidx (some (s.discardMessagesForPid pid))).NamedAt n slot t ↔
      i.NamedAt n slot t ∧ ¬ (n = sidx ∧ t.1 = pid) := by
  rw [namedAt_setServer]
  by_cases h : n = sidx
  · subst h
    simp only [namedAt_iff hs, Server.caller_discardMessagesForPid, Option.filter_eq_some_iff]
    simp
  · simp [h]

end Servers

/-! ## 2. The scheduler's lists -/

/-- The lists of the scheduler are the ready threads, each at its own priority.  Thread 0 of a
process is its interrupt handler and is in no list. -/
def Linked (i : Ipc) : Prop := ∃ L, Scheduler.Repr i.scheduler L ∧
    ∀ t q, t ∈ L q ↔ t.2 ≠ irqTid ∧ i.state t = .ready ∧ (i.priority t).toIndex = q

theorem readyThread_inRange (ht : t.2 ≠ irqTid) (h : readyThread t p s = .ok () s') : Scheduler.InRange t := by
  by_contra hr
  unfold readyThread Scheduler.linkCopy Scheduler.setLink at h
  rw [if_neg ht] at h
  cases hh : s.queueHeads p.toIndex <;> simp [Exec.bind_run, Exec.assert, hr, hh] at h

/-- A thread linked nowhere is put at the end of the list of its priority. -/
theorem repr_ready (hr : Scheduler.Repr s L) (ht : t.2 ≠ irqTid) (hun : ∀ q, t ∉ L q)
    (h : readyThread t p s = .ok () s') :
    Scheduler.Repr s' (update L p.toIndex (L p.toIndex ++ [t])) ∧ s'.inIrqHandler = s.inIrqHandler := by
  obtain ⟨s'', hrun, hirq, hr'⟩ := hr.readyThread p (readyThread_inRange ht h) hun
  rw [hrun] at h
  cases h
  exact ⟨hr', hirq⟩

theorem repr_park (hr : Scheduler.Repr s L) (ht : t ∈ L p.toIndex) (h : parkThread t p s = .ok () s') :
    Scheduler.Repr s' (update L p.toIndex ((L p.toIndex).erase t)) ∧ s'.inIrqHandler = s.inIrqHandler := by
  obtain ⟨s'', hrun, hirq, hr'⟩ := hr.parkThread p ht
  rw [hrun] at h
  cases h
  exact ⟨hr', hirq⟩

/-- The interrupt thread of a process only moves the flag. -/
theorem repr_irq (hr : Scheduler.Repr s L) (ht : t.2 = irqTid)
    (h : readyThread t p s = .ok () s' ∨ parkThread t p s = .ok () s') :
    Scheduler.Repr s' L := by
  have hs : ∃ b, s' = { s with inIrqHandler := b } := by
    rcases h with h | h
    · unfold readyThread at h
      simp only [if_pos ht, Exec.get_bind_run, Exec.bind_eq_ok, Exec.assert_eq_ok,
        Exec.modify_run, Outcome.ok.injEq, true_and] at h
      obtain ⟨_, _, ⟨_, rfl⟩, rfl⟩ := h
      exact ⟨true, rfl⟩
    · unfold parkThread at h
      simp only [if_pos ht, Exec.get_bind_run, Exec.bind_eq_ok, Exec.assert_eq_ok,
        Exec.modify_run, Outcome.ok.injEq, true_and] at h
      obtain ⟨_, _, ⟨_, rfl⟩, rfl⟩ := h
      exact ⟨false, rfl⟩
  obtain ⟨b, rfl⟩ := hs
  exact ⟨hr.head, hr.ring, hr.nodup, hr.disjoint, hr.unlinked, hr.inRange, hr.highest⟩

namespace Linked

theorem congr (h : i.Linked) (hs : j.scheduler = i.scheduler) (hst : j.state = i.state)
    (hp : j.priority = i.priority) : j.Linked := by
  obtain ⟨L, hr, hmem⟩ := h
  exact ⟨L, hs ▸ hr, fun t q => by rw [hst, hp]; exact hmem t q⟩

theorem ready (h : i.Linked) (ht : i.state t ≠ .ready) (hrun : readyThread t p i.scheduler = .ok () j.scheduler)
    (hst : j.state = update i.state t .ready)
    (hpt : j.priority t = p) (hp : ∀ u, u ≠ t → j.priority u = i.priority u) : j.Linked := by
  obtain ⟨L, hr, hmem⟩ := h
  have hun : ∀ q, t ∉ L q := fun q hq => ht ((hmem t q).mp hq).2.1
  by_cases hirq : t.2 = irqTid
  · refine ⟨L, repr_irq hr hirq (.inl hrun), fun u q => ?_⟩
    rw [hmem u q, hst]
    by_cases hu : u = t
    · subst hu; simp [hirq]
    · rw [update_of_ne hu, hp u hu]
  · refine ⟨_, (repr_ready hr hirq hun hrun).1, fun u q => ?_⟩
    rw [hst]
    by_cases hu : u = t
    · subst hu
      rw [update_self, hpt]
      by_cases hq : q = p.toIndex
      · subst hq; simp [hirq]
      · rw [update_of_ne hq]
        exact ⟨fun h => absurd h (hun q), fun h => absurd h.2.2.symm hq⟩
    · rw [update_of_ne hu, hp u hu, ← hmem u q]
      by_cases hq : q = p.toIndex
      · subst hq; simp [hu]
      · rw [update_of_ne hq]

theorem park_lists (hr : Scheduler.Repr i.scheduler L)
    (hmem : ∀ t q, t ∈ L q ↔ t.2 ≠ irqTid ∧ i.state t = .ready ∧ (i.priority t).toIndex = q)
    (hirq : t.2 ≠ irqTid) (ht : i.state t = .ready) (hst' : st ≠ .ready)
    (hrun : parkThread t (i.priority t) i.scheduler = .ok () j.scheduler)
    (hst : j.state = update i.state t st) (hp : ∀ u, u ≠ t → j.priority u = i.priority u) :
    Scheduler.Repr j.scheduler (update L (i.priority t).toIndex ((L (i.priority t).toIndex).erase t)) ∧
      ∀ u q, u ∈ update L (i.priority t).toIndex ((L (i.priority t).toIndex).erase t) q ↔
        u.2 ≠ irqTid ∧ j.state u = .ready ∧ (j.priority u).toIndex = q := by
  have htL : t ∈ L (i.priority t).toIndex := (hmem t _).mpr ⟨hirq, ht, rfl⟩
  refine ⟨(repr_park hr htL hrun).1, fun u q => ?_⟩
  rw [hst]
  by_cases hu : u = t
  · subst hu
    rw [update_self]
    refine ⟨fun h => ?_, fun h => absurd h.2.1 hst'⟩
    by_cases hq : q = (i.priority u).toIndex
    · subst hq
      rw [update_self] at h
      exact absurd h ((hr.nodup _).not_mem_erase)
    · rw [update_of_ne hq] at h
      exact absurd ((hmem u q).mp h).2.2.symm hq
  · rw [update_of_ne hu, hp u hu, ← hmem u q]
    by_cases hq : q = (i.priority t).toIndex
    · subst hq
      rw [update_self]
      exact ⟨List.mem_of_mem_erase, fun h => (List.mem_erase_of_ne hu).mpr h⟩
    · rw [update_of_ne hq]

theorem park (h : i.Linked) (ht : i.state t = .ready) (hst' : st ≠ .ready)
    (hrun : parkThread t (i.priority t) i.scheduler = .ok () j.scheduler)
    (hst : j.state = update i.state t st)
    (hp : ∀ u, u ≠ t → j.priority u = i.priority u) : j.Linked := by
  obtain ⟨L, hr, hmem⟩ := h
  by_cases hirq : t.2 = irqTid
  · refine ⟨L, repr_irq hr hirq (.inr hrun), fun u q => ?_⟩
    rw [hmem u q, hst]
    by_cases hu : u = t
    · subst hu; simp [hirq]
    · rw [update_of_ne hu, hp u hu]
  · exact ⟨_, park_lists hr hmem hirq ht hst' hrun hst hp⟩

theorem setState (h : i.Linked) (hs : SetState t st i j) : j.Linked := by
  by_cases ht : i.state t = .ready <;> by_cases hst : st = .ready
  · refine h.congr (hs.same ⟨fun _ => hst, fun _ => ht⟩) ?_ hs.priority
    rw [hs.state, hst, ← ht, update_eq_self]
  · exact h.park ht hst (hs.park ht hst) hs.state fun u _ => by rw [hs.priority]
  · subst hst
    exact h.ready ht (hs.ready ht rfl) hs.state (by rw [hs.priority]) fun u _ => by rw [hs.priority]
  · obtain ⟨L, hr, hmem⟩ := h
    have hsame := hs.same ⟨fun h => absurd h ht, fun h => absurd h hst⟩
    refine ⟨L, hsame ▸ hr, fun u q => ?_⟩
    rw [hs.state, hs.priority, hmem u q]
    by_cases hu : u = t
    · subst hu; simp [ht, hst]
    · rw [update_of_ne hu]

theorem yield (h : i.Linked) (hrun : Scheduler.yieldThread t p i.scheduler = .ok () s') :
    ({ i with scheduler := s' } : Ipc).Linked ∧ s'.inIrqHandler = i.scheduler.inIrqHandler := by
  obtain ⟨L, hr, hmem⟩ := h
  by_cases hhead : (L p.toIndex).head? = some t
  · obtain ⟨r, hL⟩ : ∃ r, L p.toIndex = t :: r := by
      cases hl : L p.toIndex with
      | nil => rw [hl] at hhead; cases hhead
      | cons a r => rw [hl] at hhead; cases hhead; exact ⟨r, rfl⟩
    obtain ⟨s'', hrun', hirq', hr'⟩ := hr.yieldThread_head hL
    rw [hrun'] at hrun
    cases hrun
    refine ⟨⟨_, hr', fun u q => ?_⟩, hirq'⟩
    rw [← hmem u q]
    by_cases hq : q = p.toIndex
    · subst hq
      simp [hL, or_comm]
    · rw [update_of_ne hq]
  · rw [hr.yieldThread_other hhead] at hrun
    cases hrun
    exact ⟨⟨L, hr, hmem⟩, rfl⟩

theorem setPriority {s1 : Scheduler} (h : i.Linked) (hready : i.state t = .ready →
      parkThread t (i.priority t) i.scheduler = .ok () s1 ∧ readyThread t p s1 = .ok () s')
    (hother : i.state t ≠ .ready → s' = i.scheduler) :
    ({ i with priority := update i.priority t p, scheduler := s' } : Ipc).Linked := by
  by_cases ht : i.state t = .ready
  · obtain ⟨hpark, hrun⟩ := hready ht
    -- Between the two calls the thread is linked nowhere, as if it were not ready.
    have hmid : ({ i with
        state := update i.state t .free, scheduler := s1 } : Ipc).Linked :=
      h.park ht (by simp) hpark rfl fun _ _ => rfl
    refine hmid.ready (by simp) hrun ?_ (by simp) fun u hu => by simp [hu]
    rw [Function.update_idem, ← ht, update_eq_self]
  · obtain ⟨L, hr, hmem⟩ := h
    rw [hother ht]
    refine ⟨L, hr, fun u q => ?_⟩
    rw [hmem u q]
    by_cases hu : u = t
    · subst hu; simp [ht]
    · simp [hu]

theorem spawn {pid : PID} (h : i.Linked) (hfree : ∀ t : ThreadId, t.1 = pid → i.state t = .free)
    (hrun : readyThread (pid, initialTid) .appDefault i.scheduler = .ok () s')
    (hs : j.scheduler = s')
    (hst : j.state = fun t => if t.1 = pid then
      (if t.2 = initialTid then .ready else .free) else i.state t)
    (hp : j.priority = fun t => if t.1 = pid then .appDefault else i.priority t) : j.Linked := by
  have hmid : ({ i with
      priority := fun t => if t.1 = pid then .appDefault else i.priority t } : Ipc).Linked := by
    obtain ⟨L, hr, hmem⟩ := h
    refine ⟨L, hr, fun t q => ?_⟩
    rw [hmem t q]
    by_cases ht : t.1 = pid
    · simp [hfree t ht]
    · simp [ht]
  refine hmid.ready (by simp [hfree]) (hs ▸ hrun) ?_ (by simp [hp]) fun u _ => by rw [hp]
  rw [hst]
  funext t
  by_cases ht : t.1 = pid
  · by_cases ht2 : t.2 = initialTid
    · obtain rfl : t = (pid, initialTid) := Prod.ext ht ht2
      simp
    · rw [update_of_ne (fun h => ht2 (congrArg Prod.snd h))]
      simp [ht, ht2, hfree]
  · rw [update_of_ne (fun h => ht (congrArg Prod.fst h))]
    simp [ht]

theorem gone {pid : PID} (h : i.Linked) (hready : ∀ t : ThreadId, t.1 = pid → t.2 ≠ irqTid → i.state t ≠ .ready)
    (hs : j.scheduler = i.scheduler)
    (hst : j.state = fun t => if t.1 = pid then .free else i.state t)
    (hp : j.priority = fun t => if t.1 = pid then .appDefault else i.priority t) : j.Linked := by
  obtain ⟨L, hr, hmem⟩ := h
  refine ⟨L, hs ▸ hr, fun t q => ?_⟩
  rw [hmem t q, hst, hp]
  by_cases ht : t.1 = pid
  · simp only [ht, if_true, reduceCtorEq, false_and, and_false, iff_false]
    exact fun h => hready t ht h.1 h.2.1
  · simp [ht]

end Linked

theorem SetState.irq (h : i.Linked) (hs : SetState t st i j)
    (ht : t.2 ≠ irqTid) : j.scheduler.inIrqHandler = i.scheduler.inIrqHandler := by
  obtain ⟨L, hr, hmem⟩ := h
  by_cases hti : i.state t = .ready <;> by_cases hst : st = .ready
  · rw [hs.same ⟨fun _ => hst, fun _ => hti⟩]
  · exact (repr_park hr ((hmem t _).mpr ⟨ht, hti, rfl⟩) (hs.park hti hst)).2
  · exact (repr_ready hr ht (fun q hq => hti ((hmem t q).mp hq).2.1) (hs.ready hti hst)).2
  · rw [hs.same ⟨fun h => absurd h hti, fun h => absurd h hst⟩]

/-! ## 3. The tables -/

/-- Every address that is tracked has its entry. -/
def Covered (frames : Nat × List MemoryRangeExtra) : Prop := ramPages ≤ frames.1 ∧
    ∀ addr offset, MemoryManager.extraOffset addr frames.2 ramPages = some offset → offset < frames.1

structure Basic (i : Ipc) : Prop where
  linked : i.Linked
  present : ∀ t, i.state t ≠ .free → i.parent t.1 ≠ none ∧ t.2 < maxThreadCount
  pids : ∀ pid, i.parent pid ≠ none → pid.get ≤ maxProcessCount
  parents : ∀ pid q, i.parent pid = some (some q) → i.parent q ≠ none
  system : i.parent PID.kernel = some (some PID.kernel)
  running : i.parent i.pid ≠ none
  table : ∀ sidx s, i.servers sidx = some s → sidx < maxServerCount
  bounds : ∀ sidx s, i.servers sidx = some s → s.InBounds
  owners : ∀ sidx s, i.servers sidx = some s → i.parent s.pid ≠ none
  wired : ∀ (pid : PID) (n sidx r : Nat) (p : MessagePermissions),
    (i.connections pid)[n]? = some (.connected sidx r p) → sidx < maxServerCount
  once : ∀ (pid : PID) (sidx n n' r r' : Nat) (p p' : MessagePermissions),
    (i.connections pid)[n]? = some (.connected sidx r p) →
    (i.connections pid)[n']? = some (.connected sidx r' p') → n = n'
  covered : Covered i.frames
  tids : ∀ pid, 1 ≤ i.tid pid ∧ i.tid pid < maxThreadCount
  receives : ∀ t sidx, i.future t = some (.receiveMessage sidx) → sidx < maxServerCount

namespace Basic

/-- Only threads change, and each that exists belongs to a process. -/
theorem of_frame (h : Basic i) (hl : j.Linked)
    (hst : ∀ t, j.state t ≠ .free → i.state t ≠ .free ∨ i.parent t.1 ≠ none ∧ t.2 < maxThreadCount)
    (hp : j.parent = i.parent) (hpid : j.pid = i.pid) (hs : j.servers = i.servers)
    (hc : j.connections = i.connections) (hfr : j.frames = i.frames)
    (ht : j.tid = i.tid)
    (hf : ∀ t sidx, j.future t = some (.receiveMessage sidx) → i.future t = some (.receiveMessage sidx)) : Basic j where
  linked := hl
  present t ht := by
    rw [hp]
    rcases hst t ht with ht' | ht'
    · exact h.present t ht'
    · exact ht'
  pids := by rw [hp]; exact h.pids
  parents := by rw [hp]; exact h.parents
  system := by rw [hp]; exact h.system
  running := by rw [hp, hpid]; exact h.running
  table := by rw [hs]; exact h.table
  bounds := by rw [hs]; exact h.bounds
  owners := by rw [hp, hs]; exact h.owners
  wired := by rw [hc]; exact h.wired
  once := by rw [hc]; exact h.once
  covered := by rw [hfr]; exact h.covered
  tids := by rw [ht]; exact h.tids
  receives t sidx hr := h.receives t sidx (hf t sidx hr)

theorem setState (h : Basic i) (hs : SetState t st i j) : Basic j := by
  refine h.of_frame (h.linked.setState hs) (fun u hu => ?_) hs.parent hs.pid hs.servers
    hs.connections hs.frames hs.tid fun _ _ hr => by rwa [hs.future] at hr
  rcases eq_or_ne u t with rfl | hut
  · exact .inr ⟨hs.present, hs.range⟩
  · rw [hs.state_of_ne hut] at hu
    exact .inl hu

theorem withContext (h : Basic i) (ctx : ThreadId → Option Context) :
    Basic { i with context := ctx } :=
  h.of_frame h.linked (fun _ => .inl) rfl rfl rfl rfl rfl rfl fun _ _ => id

theorem setMailbox (h : Basic i) (r : Option Result) : Basic (i.setMailbox t r) :=
  h.of_frame h.linked (fun _ => .inl) rfl rfl rfl rfl rfl rfl fun _ _ => id

theorem setFuture (h : Basic i) {f : Option KernelFuture}
    (hf : ∀ sidx, f = some (.receiveMessage sidx) → sidx < maxServerCount) :
    Basic (i.setFuture t f) := by
  refine ⟨h.linked, h.present, h.pids, h.parents, h.system, h.running, h.table, h.bounds, h.owners,
    h.wired, h.once, h.covered, h.tids, fun u sidx hu => ?_⟩
  rcases eq_or_ne u t with rfl | hne
  · rw [setFuture_self] at hu
    exact hf sidx hu
  · rw [setFuture_of_ne _ hne] at hu
    exact h.receives u sidx hu

theorem clearFuture (h : Basic i) : Basic (i.setFuture t none) := h.setFuture (by simp)

theorem readied (h : Basic i) (hr : Readied t i j) : Basic j := by
  obtain ⟨ctx, _, hs⟩ := hr
  exact (h.withContext ctx).setState hs

theorem wakes (h : Basic i) (hw : Wakes i j) : Basic j := by
  induction hw with
  | refl => exact h
  | tail _ hlast ih =>
    obtain ⟨t, _, _, hs⟩ := hlast
    exact ih.setState hs

theorem answered {r : Result} (h : Basic i) (ha : Answered t r i j) : Basic j := by
  cases ha with
  | posted _ hs => exact (h.setMailbox _).setState hs
  | direct _ hr => exact h.readied hr
  | gone _ heq =>
    rcases heq with rfl | rfl
    · exact h
    · exact h.withContext _

theorem setServer (h : Basic i) {sidx : Nat} {s' : Option Server}
    (hs : ∀ s, s' = some s → sidx < maxServerCount ∧ s.InBounds ∧ i.parent s.pid ≠ none) :
    Basic (i.setServer sidx s') := by
  refine ⟨h.linked, h.present, h.pids, h.parents, h.system, h.running, ?_, ?_, ?_, h.wired, h.once,
    h.covered, h.tids, h.receives⟩
  · intro n s hn
    rcases servers_setServer hn with ⟨rfl, heq⟩ | ⟨-, hn'⟩
    · exact (hs s heq).1
    · exact h.table n s hn'
  · intro n s hn
    rcases servers_setServer hn with ⟨rfl, heq⟩ | ⟨-, hn'⟩
    · exact (hs s heq).2.1
    · exact h.bounds n s hn'
  · intro n s hn
    rcases servers_setServer hn with ⟨rfl, heq⟩ | ⟨-, hn'⟩
    · exact (hs s heq).2.2
    · exact h.owners n s hn'

theorem rewrite (h : Basic i) {sidx : Nat} {s s' : Server} (hs : i.servers sidx = some s)
    (hpid : s'.pid = s.pid) (hb : s.InBounds → s'.InBounds) :
    Basic (i.setServer sidx (some s')) := by
  refine h.setServer fun s'' heq => ?_
  cases heq
  exact ⟨h.table sidx s hs, hb (h.bounds sidx s hs), hpid ▸ h.owners sidx s hs⟩

theorem close (h : Basic i) (sidx : Nat) : Basic (i.setServer sidx none) := h.setServer fun _ heq => by cases heq

theorem relink {pid : PID} {n : Nat} {slot : ConnectionSlot} (h : Basic i) (hr : Relinks i pid n slot) : Basic { i with
      connections := update i.connections pid ((i.connections pid).set n slot) } := by
  have hlook : ∀ {q m sidx r p}, (update i.connections pid
      ((i.connections pid).set n slot) q)[m]? = some (.connected sidx r p) →
      (q = pid ∧ m = n ∧ slot = .connected sidx r p) ∨
        (¬ (q = pid ∧ m = n) ∧ (i.connections q)[m]? = some (.connected sidx r p)) := by
    intro q m sidx r p hq
    rcases eq_or_ne q pid with rfl | hqp
    · rw [update_self, List.getElem?_set] at hq
      split at hq
      next hnm =>
        subst hnm
        split at hq
        · exact .inl ⟨rfl, rfl, Option.some.inj hq⟩
        · cases hq
      next hnm =>
        exact .inr ⟨fun hm => hnm hm.2.symm, hq⟩
    · rw [update_of_ne hqp] at hq
      exact .inr ⟨fun hm => hqp hm.1, hq⟩
  refine ⟨h.linked, h.present, h.pids, h.parents, h.system, h.running, h.table, h.bounds, h.owners,
    ?_, ?_, h.covered, h.tids, h.receives⟩
  · intro q m sidx r p hq
    rcases hlook hq with ⟨-, -, hslot⟩ | ⟨-, hq'⟩
    · rcases hr sidx r p hslot with ⟨r', p', hold⟩ | ⟨-, hlt, -⟩
      · exact h.wired pid n sidx r' p' hold
      · exact hlt
    · exact h.wired q m sidx r p hq'
  · intro q sidx m m' r r' p p' hq hq'
    -- The entry that was written is the only one for its server, before and after.
    have hnew : ∀ {m r p}, (i.connections pid)[m]? = some (.connected sidx r p) → m ≠ n →
        ∀ {r' p'}, slot ≠ .connected sidx r' p' := by
      intro m r p hm hne r' p' hslot
      rcases hr sidx r' p' hslot with ⟨r'', p'', hold⟩ | ⟨-, -, hnone⟩
      · exact hne (h.once pid sidx m n r r'' p p'' hm hold)
      · exact hnone m r p hm
    rcases hlook hq with ⟨rfl, rfl, hslot⟩ | ⟨hne, h1⟩ <;>
      rcases hlook hq' with ⟨hqp, rfl, hslot'⟩ | ⟨hne', h2⟩
    · rfl
    · exact absurd hslot (hnew h2 fun hm => hne' ⟨rfl, hm⟩)
    · subst hqp
      exact absurd hslot' (hnew h1 fun hm => hne ⟨rfl, hm⟩)
    · exact h.once q sidx m m' r r' p p' h1 h2

theorem gone {pid : PID} (h : Basic i) (hm : Move (.gone pid) i j) (hk : pid ≠ PID.kernel) :
    Basic j := by
  cases hm with
  | @gone _ _ parent hpid hp hkilled hclosed =>
    have hparent : ∀ q, q ≠ pid → (parent q ≠ none ↔ i.parent q ≠ none) := by
      intro q hq
      rcases hp q hq with ⟨-, heq⟩ | ⟨heq, heq'⟩
      · rw [heq]
      · simp [heq, heq']
    have hsystem : parent PID.kernel = some (some PID.kernel) := by
      rcases hp PID.kernel (Ne.symm hk) with ⟨-, heq⟩ | ⟨heq, -⟩
      · exact heq.trans h.system
      · rw [h.system] at heq
        cases heq
        exact absurd rfl hk
    refine ⟨?_, ?_, ?_, ?_, hsystem, ?_, h.table, h.bounds, ?_, ?_, ?_, h.covered, fun q => ?_, fun t sidx ht => ?_⟩
    · refine h.linked.gone (fun t ht hirq hready => ?_) rfl rfl rfl
      have hlt := (h.present t (by simp [hready])).2
      have := hkilled t.2 (Nat.pos_of_ne_zero hirq) hlt
      rw [← ht, hready] at this
      cases this
    · intro t ht
      have htp : t.1 ≠ pid := fun htp => ht (if_pos htp)
      simp only [if_neg htp] at ht
      exact ⟨(hparent t.1 htp).mpr (h.present t ht).1, (h.present t ht).2⟩
    · intro q hq
      have hqp : q ≠ pid := fun hqp => hq (hqp ▸ hpid)
      exact h.pids q ((hparent q hqp).mp hq)
    · -- the children of the process have become orphans
      intro q q' hq
      dsimp only at hq
      have hqp : q ≠ pid := fun hqp => by
        rw [hqp, hpid] at hq
        cases hq
      rcases hp q hqp with ⟨hchild, heq⟩ | ⟨-, heq⟩
      · rw [heq] at hq
        have hq' : q' ≠ pid := fun hq' => hchild (hq' ▸ hq)
        exact (hparent q' hq').mpr (h.parents q q' hq)
      · rw [heq] at hq
        cases hq
    · simp [hsystem]
    · intro sidx s hs
      exact (hparent s.pid (hclosed sidx s hs)).mpr (h.owners sidx s hs)
    · intro q n sidx r p hq
      have hqp : q ≠ pid := fun hqp => by simp [hqp] at hq
      simp only [if_neg hqp] at hq
      exact h.wired q n sidx r p hq
    · intro q sidx n n' r r' p p' hq hq'
      have hqp : q ≠ pid := fun hqp => by simp [hqp] at hq
      simp only [if_neg hqp] at hq hq'
      exact h.once q sidx n n' r r' p p' hq hq'
    · dsimp only
      split
      · decide
      · exact h.tids q
    · dsimp only at ht
      split at ht
      · cases ht
      · exact h.receives t sidx ht

theorem spawn {pid : PID} (h : Basic i) (hm : Move (.spawn pid) i j) : Basic j := by
  cases hm with
  | @spawn _ _ parent s' ctx hn hpid hparent hfree hctx hrun =>
    have hne : ∀ q, i.parent q ≠ none → q ≠ pid := fun q hq hqp => hq (hqp ▸ hn)
    have hk : PID.kernel ≠ pid := hne _ (by simp [h.system])
    have hkeep : ∀ q, i.parent q ≠ none → update i.parent pid (some parent) q ≠ none := fun q hq => by
      rw [update_of_ne (hne q hq)]
      exact hq
    have hlook : ∀ {q : PID} {n sidx r : Nat} {p : MessagePermissions},
        (update i.connections pid (List.replicate maxConnections .free) q)[n]? = some (.connected sidx r p) →
        (i.connections q)[n]? = some (.connected sidx r p) := by
      intro q n sidx r p hq
      rcases eq_or_ne q pid with rfl | hqp
      · rw [update_self] at hq
        have := List.mem_of_getElem? hq
        rw [List.mem_replicate] at this
        cases this.2
      · rwa [update_of_ne hqp] at hq
    refine ⟨h.linked.spawn hfree hrun rfl rfl rfl, ?_, ?_, ?_, ?_, hkeep _ h.running, h.table, h.bounds,
      fun sidx s hs => hkeep _ (h.owners sidx s hs), fun q n sidx r p hq => h.wired q n sidx r p (hlook hq),
      fun q sidx n n' r r' p p' hq hq' => h.once q sidx n n' r r' p p' (hlook hq) (hlook hq'), h.covered,
      fun q => ?_, fun t sidx ht => ?_⟩
    · intro t ht
      by_cases htp : t.1 = pid
      · simp only [htp, if_true] at ht
        have ht2 : t.2 = initialTid := by
          by_contra hne
          simp [hne] at ht
        simp [htp, ht2, initialTid, maxThreadCount]
      · simp only [htp, if_false] at ht
        exact ⟨hkeep _ (h.present t ht).1, (h.present t ht).2⟩
    · intro q hq
      rcases eq_or_ne q pid with rfl | hqp
      · exact hpid
      · simp only [update_of_ne hqp] at hq
        exact h.pids q hq
    · intro q q' hq
      dsimp only at hq
      rcases eq_or_ne q pid with rfl | hqp
      · rw [update_self, Option.some.injEq] at hq
        exact hkeep _ (hparent q' hq)
      · rw [update_of_ne hqp] at hq
        exact hkeep _ (h.parents q q' hq)
    · simp only [update_of_ne hk]
      exact h.system
    · rcases eq_or_ne q pid with rfl | hq
      · simp [initialTid, maxThreadCount]
      · simpa [update_of_ne hq] using h.tids q
    · dsimp only at ht
      split at ht
      · cases ht
      · exact h.receives t sidx ht

/-- **Every move keeps the tables in order**, except that the kernel's own process may not
end. -/
theorem move {l : Label} (hm : Move l i j) (hk : ∀ pid, l = .gone pid → pid ≠ PID.kernel) (h : Basic i) : Basic j := by
  cases hm with
  | wake _ _ hrd => exact h.readied hrd
  | touch hs ht => exact h.rewrite hs ht.receivers.1 ht.bounds
  | handOver hs hh hrd => exact (h.rewrite hs hh.pid hh.bounds).clearFuture.readied hrd
  | lose hs hh _ _ => exact (h.rewrite hs hh.pid hh.bounds).withContext _
  | post _ _ _ _ hs => exact (h.setMailbox _).setState hs
  | rotate hrun => exact h.of_frame (h.linked.yield hrun).1 (fun _ => .inl) rfl rfl rfl rfl rfl rfl fun _ _ => id
  | priority hready hother =>
    exact h.of_frame (h.linked.setPriority hready hother) (fun _ => .inl) rfl rfl rfl rfl rfl rfl fun _ _ => id
  | relink hr => exact h.relink hr
  | regs _ => exact h.withContext _
  | send hs ha => exact h.rewrite hs ha.receivers.1 ha.bounds
  | reply hs _ hrem hw ha =>
    exact ((h.rewrite hs hrem.receivers.1 hrem.bounds).wakes hw).answered ha
  | drop hs _ hrem => exact h.rewrite hs hrem.receivers.1 hrem.bounds
  | wait hm hs =>
    exact (h.setFuture fun sidx heq => absurd (Option.some.inj heq) (hm sidx)).setState hs
  | receive hs _ hp hst =>
    refine ((h.rewrite hs hp.pid hp.bounds).setFuture fun n heq => ?_).setState hst
    cases heq
    exact h.table _ _ hs
  | pause _ _ hs => exact h.setState hs
  | enter => exact h.of_frame h.linked (fun _ => .inl) rfl rfl rfl rfl rfl rfl fun _ _ => id
  | leave _ => exact h.of_frame h.linked (fun _ => .inl) rfl rfl rfl rfl rfl rfl fun _ _ => id
  | display ha => exact h.answered ha
  | create hlt _ hpid _ hbounds =>
    refine h.setServer fun s heq => ?_
    cases heq
    exact ⟨hlt, hbounds, hpid ▸ h.running⟩
  | close => exact h.close _
  | release hs => exact (h.withContext _).setState hs
  | strike hs => exact h.rewrite hs rfl fun hb => hb.discardMessagesForPid _
  | kill hs => exact (h.clearFuture.setMailbox none).setState hs
  | gone hpid hp hkilled hclosed => exact h.gone (.gone hpid hp hkilled hclosed) (hk _ rfl)
  | @thread _ _ t _ _ _ hrd =>
    have h' : Basic { i with allocated := update i.allocated t true } :=
      h.of_frame h.linked (fun _ => .inl) rfl rfl rfl rfl rfl rfl fun _ _ => id
    exact h'.readied hrd
  | spawn hn hpid hparent hfree hctx hrun =>
    exact h.spawn (.spawn hn hpid hparent hfree hctx hrun)
  | load _ => exact h.withContext _
  | activate hp =>
    exact ⟨h.linked, h.present, h.pids, h.parents, h.system, hp, h.table, h.bounds, h.owners, h.wired, h.once,
      h.covered, h.tids, h.receives⟩
  | complete _ _ _ _ => exact (h.clearFuture.setMailbox none).withContext _
  | collect _ _ _ => exact h.clearFuture.withContext _
  | repark _ _ hs => exact h.setState hs
  | @switch _ t tid hr hu ht =>
    refine ⟨h.linked, h.present, h.pids, h.parents, h.system, (h.present t (by simp [hr])).1, h.table, h.bounds,
      h.owners, h.wired, h.once, h.covered, fun q => ?_, h.receives⟩
    dsimp only
    rcases eq_or_ne q t.1 with rfl | hq
    · rw [update_self]
      rcases ht with ⟨rfl, -⟩ | ⟨rfl, -⟩
      · exact ⟨Nat.pos_of_ne_zero hu, (h.present t (by simp [hr])).2⟩
      · exact h.tids t.1
    · rw [update_of_ne hq]
      exact h.tids q

end Basic

/-! ## 4. User threads -/

/-- A thread number that the tables have room for, and not the interrupt handler's. -/
def IsUser (t : ThreadId) : Prop := t.1.get ≤ maxProcessCount ∧ 1 ≤ t.2 ∧ t.2 < maxThreadCount

structure Proper (i : Ipc) : Prop where
  named : ∀ sidx slot t, i.NamedAt sidx slot t → IsUser t
  parked : ∀ sidx t, i.ParkedAt sidx t → IsUser t
  waiters : ∀ t ∈ i.waiters, IsUser t

/-- A new server mentions user threads only. -/
def Label.Proper : Label → Prop
  | .create _ s => ∀ slot t, s.caller slot = some t → IsUser t
  | _ => True

theorem Basic.current (h : Basic i) : IsUser i.current := ⟨h.pids _ h.running, h.tids i.pid⟩

namespace Proper

theorem of_frame (h : Proper i) (hs : j.servers = i.servers) (hw : j.waiters = i.waiters) : Proper j where
  named sidx slot t hn := h.named sidx slot t ((namedAt_congr hs _ _ _).mp hn)
  parked sidx t hp := h.parked sidx t ((parkedAt_congr hs _ _).mp hp)
  waiters := by rw [hw]; exact h.waiters

theorem setState {i' : Ipc} (h : Proper i) (hs : SetState t st i' j)
    (hsv : i'.servers = i.servers) (hw : i'.waiters = i.waiters) : Proper j :=
  h.of_frame (hs.servers.trans hsv) (hs.waiters.trans hw)

theorem wakes (h : Proper i) (hw : Wakes i j) : Proper j := by
  induction hw with
  | refl => exact h
  | tail _ hlast ih =>
    obtain ⟨t, _, _, hs⟩ := hlast
    exact ih.setState hs rfl rfl

theorem readied {i' : Ipc} (h : Proper i) (hr : Readied t i' j)
    (hsv : i'.servers = i.servers) (hw : i'.waiters = i.waiters) : Proper j := by
  obtain ⟨ctx, _, hs⟩ := hr
  exact h.setState hs hsv hw

theorem answered {r : Result} (h : Proper i) (ha : Answered t r i j) : Proper j := by
  cases ha with
  | posted _ hs => exact h.setState hs rfl rfl
  | direct _ hr => exact h.readied hr rfl rfl
  | gone _ heq =>
    rcases heq with rfl | rfl
    · exact h
    · exact h.of_frame rfl rfl

theorem setServer (h : Proper i) {sidx : Nat} {s' : Server} (hn : ∀ slot u, s'.caller slot = some u → IsUser u)
    (hp : ∀ tid, s'.readyThreads.getLsbD tid = true → IsUser (s'.pid, tid)) :
    Proper (i.setServer sidx (some s')) := by
  refine ⟨?_, ?_, h.waiters⟩
  · intro n slot u hu
    rcases namedAt_setServer.mp hu with ⟨-, hc⟩ | ⟨-, hc⟩
    · exact hn slot u hc
    · exact h.named n slot u hc
  · intro n u hu
    rcases parkedAt_setServer.mp hu with ⟨-, hpid, hb⟩ | ⟨-, hc⟩
    · have := hp u.2 hb
      rwa [hpid] at this
    · exact h.parked n u hc

section Servers

variable {sidx : Nat} {s s' : Server}

variable {slot : Nat} {tid : TID}

theorem of_named (h : Proper i) (hs : i.servers sidx = some s) (hc : s.caller slot = some u) : IsUser u :=
  h.named sidx slot u ((namedAt_iff hs).mpr hc)

theorem of_parked (h : Proper i) (hs : i.servers sidx = some s)
    (hb : s.readyThreads.getLsbD tid = true) : IsUser (s.pid, tid) :=
  h.parked sidx _ ((parkedAt_self hs).mpr hb)

theorem rewrite (h : Proper i) (hs : i.servers sidx = some s) (hr : s.SameReceivers s')
    (hn : ∀ slot u, s'.caller slot = some u → IsUser u) :
    Proper (i.setServer sidx (some s')) :=
  h.setServer hn fun tid hb => by
    rw [hr.1]
    exact h.of_parked hs (hr.2 ▸ hb)

theorem touch (h : Proper i) (hs : i.servers sidx = some s) (ht : Touch s s') : Proper (i.setServer sidx (some s')) :=
  h.rewrite hs ht.receivers fun slot u hc => h.of_named hs (by rwa [ht.caller] at hc)

theorem hands (h : Proper i) (hs : i.servers sidx = some s) (hh : Hands tid s s') :
    Proper (i.setServer sidx (some s')) := by
  refine h.setServer (fun slot u hc => h.of_named hs (by rwa [hh.caller] at hc)) fun n hb => ?_
  rw [hh.mask, Bool.and_eq_true] at hb
  rw [hh.pid]
  exact h.of_parked hs hb.1

theorem parks (h : Proper i) (hs : i.servers sidx = some s) (hp : Parks tid s s')
    (ht : IsUser (s.pid, tid)) : Proper (i.setServer sidx (some s')) := by
  refine h.setServer (fun slot u hc => h.of_named hs (by rwa [hp.caller] at hc)) fun n hb => ?_
  rw [hp.mask, Bool.or_eq_true, decide_eq_true_eq] at hb
  rw [hp.pid]
  rcases hb with hb | rfl
  · exact h.of_parked hs hb
  · exact ht

theorem adds (h : Proper i) (hs : i.servers sidx = some s) (ha : Adds slot t s s')
    (ht : IsUser t) : Proper (i.setServer sidx (some s')) := by
  refine h.rewrite hs ha.receivers fun n u hc => ?_
  rw [ha.caller] at hc
  split at hc
  · cases hc
    exact ht
  · exact h.of_named hs hc

theorem removes (h : Proper i) (hs : i.servers sidx = some s)
    (hr : Removes slot t s s') : Proper (i.setServer sidx (some s')) := by
  refine h.rewrite hs hr.receivers fun n u hc => ?_
  rw [hr.caller] at hc
  split at hc
  · cases hc
  · exact h.of_named hs hc

end Servers

/-- **Every move mentions user threads only**, when new servers do. -/
theorem move {l : Label} (hm : Move l i j) (hl : l.Proper) (hb : Basic i) (h : Proper i) :
    Proper j := by
  cases hm with
  | wake _ _ hrd => exact h.readied hrd rfl rfl
  | touch hs ht => exact h.touch hs ht
  | handOver hs hh hrd => exact (h.hands hs hh).readied hrd rfl rfl
  | lose hs hh _ _ => exact (h.hands hs hh).of_frame rfl rfl
  | post _ _ _ _ hs => exact h.setState hs rfl rfl
  | rotate _ => exact h.of_frame rfl rfl
  | priority _ _ => exact h.of_frame rfl rfl
  | relink _ => exact h.of_frame rfl rfl
  | regs _ => exact h.of_frame rfl rfl
  | send hs ha => exact h.adds hs ha (hb.current)
  | reply hs _ hrem hw ha => exact ((h.removes hs hrem).wakes hw).answered ha
  | drop hs _ hrem => exact h.removes hs hrem
  | wait _ hs => exact h.setState hs rfl rfl
  | receive hs hpid hp hst =>
    have hcur : IsUser (_, i.current.2) := hb.current
    exact (h.parks hs hp (by rw [hpid]; exact hcur)).setState hst rfl rfl
  | pause _ _ hs => exact h.setState hs rfl rfl
  | enter =>
    refine ⟨h.named, h.parked, fun t ht => ?_⟩
    rcases List.mem_append.mp ht with ht | ht
    · exact h.waiters t ht
    · rw [List.mem_singleton.mp ht]
      exact hb.current
  | leave hws => exact ⟨h.named, h.parked, fun t ht => h.waiters t (hws.subset ht)⟩
  | display ha => exact h.answered ha
  | create hlt hs _ hbits _ =>
    refine h.setServer hl fun tid hbit => ?_
    rw [hbits] at hbit
    simp at hbit
  | close =>
    exact ⟨fun n slot u hu => h.named n slot u (namedAt_setServer_none.mp hu).2,
      fun n u hu => h.parked n u (parkedAt_setServer_none.mp hu).2, h.waiters⟩
  | release hs => exact h.setState hs rfl rfl
  | strike hs =>
    refine h.rewrite hs ⟨rfl, rfl⟩ fun slot u hc => ?_
    rw [Server.caller_discardMessagesForPid, Option.filter_eq_some_iff] at hc
    exact h.of_named hs hc.1
  | kill hs => exact h.setState hs rfl rfl
  | gone _ _ _ _ => exact h.of_frame rfl rfl
  | thread _ _ _ hrd => exact h.readied hrd rfl rfl
  | spawn _ _ _ _ _ _ => exact h.of_frame rfl rfl
  | load _ => exact h.of_frame rfl rfl
  | activate _ => exact h.of_frame rfl rfl
  | complete _ _ _ _ => exact h.of_frame rfl rfl
  | collect _ _ _ => exact h.of_frame rfl rfl
  | repark _ _ hs => exact h.setState hs rfl rfl
  | switch _ _ _ => exact h.of_frame rfl rfl

end Proper

end Ipc

end BeetKernel

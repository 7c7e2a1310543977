/-
# The ready queues are one rotating list for each priority

`Repr s L` relates the scheduler's links and heads to what they are for: for each priority a
LIST of threads, the first of which runs next.  The links of one priority form a ring
(`LinkRing`) of exactly the threads of its list, the rings of two priorities share no thread,
and a thread in no list has no link.

Under `Repr`, `ready_thread` appends (that is, it inserts just before the head of the ring),
`park_thread` erases, and `yield_thread` of the head rotates by one.  None of the `expect` and
`assert` calls fires, because each of them reads a link that the ring provides.
-/
import BeetKernel.Lib.LinkRing
import BeetKernel.Scheduler.Queues

namespace BeetKernel.Scheduler

open List (mem_append cons_append head?_cons finRange mem_cons)
open Exec (bind_ok get_bind_run pure_bind_run expect_some)
open Function (update update_apply update_eq_self update_of_ne update_self)

/-! ## 1. The abstraction -/

/-- The ready threads of each priority, the one to run next first. -/
abbrev ReadyLists := Fin 16 → List ThreadId

variable {s : Scheduler} {L : ReadyLists} {t : ThreadId} {priority : ThreadPriority}

/-- `h` is the largest priority with a non-empty list, or the idle one if all lists are empty. -/
def IsHighest (L : ReadyLists) (h : Fin 16) : Prop :=
  (∀ p, L p ≠ [] → p ≤ h) ∧ (L h ≠ [] ∨ h = ThreadPriority.idle.toIndex)

theorem IsHighest.update_cons {h p : Fin 16} {l : List ThreadId} (hh : IsHighest L h) (hl : l ≠ []) :
    IsHighest (update L p l) (if h < p then p else h) := by
  obtain ⟨hmax, hex⟩ := hh
  constructor
  · intro q hq
    by_cases hqp : q = p
    · subst hqp; split <;> omega
    · rw [update_of_ne hqp] at hq
      have := hmax q hq
      split <;> omega
  · split
    · exact .inl (by rwa [update_self])
    · by_cases hp : h = p
      · subst hp; exact .inl (by rwa [update_self])
      · rw [update_of_ne hp]; exact hex

theorem IsHighest.update_same {h p : Fin 16} {l : List ThreadId} (hh : IsHighest L h) (hp : L p ≠ [])
    (hl : l ≠ []) : IsHighest (update L p l) h := by
  have hle : p ≤ h := hh.1 p hp
  have := hh.update_cons (p := p) hl
  rwa [if_neg (by omega)] at this

def nextOf (s : Scheduler) (t : ThreadId) : Option ThreadId := (s.links t).map SchedulerLink.next
def prevOf (s : Scheduler) (t : ThreadId) : Option ThreadId := (s.links t).map SchedulerLink.prev

/-- The scheduler `s` represents the lists `L`. -/
structure Repr (s : Scheduler) (L : ReadyLists) : Prop where
  head : ∀ p, s.queueHeads p = (L p).head?
  ring : ∀ p, LinkRing s.nextOf s.prevOf (L p)
  nodup : ∀ p, (L p).Nodup
  disjoint : ∀ p q t, t ∈ L p → t ∈ L q → p = q
  unlinked : ∀ t, (∀ p, t ∉ L p) → s.links t = none
  inRange : ∀ p t, t ∈ L p → InRange t
  highest : IsHighest L s.highestReadyPriority

/-- The call succeeds, and the scheduler represents the lists `L`. -/
abbrev Becomes (s : Scheduler) (m : Exec Scheduler Error Unit) (L : ReadyLists) : Prop :=
  ∃ s', m s = .ok () s' ∧ s'.inIrqHandler = s.inIrqHandler ∧ Repr s' L

theorem repr_empty : Repr empty (fun _ => []) where
  head := fun _ => rfl
  ring := fun _ => LinkRing.nil
  nodup := fun _ => List.nodup_nil
  disjoint := fun _ _ _ h => absurd h (by simp)
  unlinked := fun _ _ => rfl
  inRange := fun _ _ h => absurd h (by simp)
  highest := ⟨fun _ h => absurd rfl h, .inr rfl⟩

theorem linkCopy_run (h : InRange t) (s : Scheduler) : linkCopy t s = .ok (s.links t) s := by
  simp [linkCopy, Exec.assert, h]

theorem setLink_run (h : InRange t) (link : Option SchedulerLink) (s : Scheduler) :
    setLink t link s = .ok () { s with links := update s.links t link } := by
  simp [setLink, Exec.assert, h]

theorem nextOf_eq_none : s.nextOf t = none ↔ s.links t = none := Option.map_eq_none_iff

/-- Writing one field of a link changes one of the two functions. -/
theorem setNext_links {link : SchedulerLink} (hl : s.links t = some link) (n : ThreadId) :
    nextOf { s with links := update s.links t (some { link with next := n }) } =
        update s.nextOf t (some n) ∧
      prevOf { s with links := update s.links t (some { link with next := n }) } = s.prevOf := by
  constructor <;> funext a <;> by_cases h : a = t <;> simp [nextOf, prevOf, h, hl]

theorem setPrev_links {link : SchedulerLink} (hl : s.links t = some link) (n : ThreadId) :
    nextOf { s with links := update s.links t (some { link with prev := n }) } = s.nextOf ∧
      prevOf { s with links := update s.links t (some { link with prev := n }) } =
        update s.prevOf t (some n) := by
  constructor <;> funext a <;> by_cases h : a = t <;> simp [nextOf, prevOf, h, hl]

theorem setLink_links {next prev : ThreadId → Option ThreadId} (hn : s.nextOf = next) (hp : s.prevOf = prev)
    (t : ThreadId) (link : Option SchedulerLink) :
    nextOf { s with links := update s.links t link } =
        update next t (link.map SchedulerLink.next) ∧
      prevOf { s with links := update s.links t link } =
        update prev t (link.map SchedulerLink.prev) := by
  subst hn hp
  constructor <;> funext a <;> by_cases h : a = t <;> simp [nextOf, prevOf, h]

namespace Repr

variable {p : Fin 16}

theorem link_mem (hr : Repr s L) (xs : List ThreadId) {ys : List ThreadId} (hp : L p = xs ++ t :: ys) :
    s.links t = some ⟨(ys ++ xs).headD t, (ys ++ xs).getLastD t⟩ := by
  have hring := hr.ring p
  rw [hp] at hring
  obtain ⟨hn, hv⟩ := hring.links_mem
  unfold nextOf at hn
  unfold prevOf at hv
  cases hl : s.links t with
  | none => rw [hl] at hn; cases hn
  | some link =>
    rw [hl] at hn hv
    cases link
    simp only [Option.map_some, Option.some.injEq] at hn hv
    rw [hn, hv]

theorem linked (hr : Repr s L) (ht : t ∈ L p) : ∃ link, s.links t = some link := by
  obtain ⟨xs, ys, hp⟩ := List.append_of_mem ht
  exact ⟨_, hr.link_mem _ hp⟩

theorem not_mem_of_ne {q : Fin 16} (hr : Repr s L) (ht : t ∈ L p) (hq : q ≠ p) : t ∉ L q :=
  fun h => hq (hr.disjoint q p t h ht)

/-- Changing the list of one priority, where the thread `t` comes, goes or stays: what has to be shown
is about that list only. -/
theorem replace {s' : Scheduler} {l' : List ThreadId} (hr : Repr s L) (ht : InRange t) (hother : ∀ q, q ≠ p → t ∉ L q)
    (hhead : s'.queueHeads = update s.queueHeads p l'.head?)
    (hring : LinkRing s'.nextOf s'.prevOf l') (hnd : l'.Nodup) (hmem : ∀ a ∈ l', a = t ∨ a ∈ L p)
    (hkeep : ∀ a, a ≠ t → a ∉ L p → s'.nextOf a = s.nextOf a ∧ s'.prevOf a = s.prevOf a)
    (hgone : ∀ a, a ∉ l' → a = t ∨ a ∈ L p → s'.nextOf a = none)
    (hhigh : IsHighest (update L p l') s'.highestReadyPriority) :
    Repr s' (update L p l') := by
  have hframe : ∀ q, q ≠ p → ∀ a ∈ L q, s'.nextOf a = s.nextOf a ∧ s'.prevOf a = s.prevOf a := fun q hq a ha =>
    hkeep a (fun h => hother q hq (h ▸ ha)) fun h => hq (hr.disjoint q p a ha h)
  have hnew : ∀ a ∈ l', ∀ q, q ≠ p → a ∉ L q := by
    intro a ha q hq
    rcases hmem a ha with rfl | ha
    · exact hother q hq
    · exact hr.not_mem_of_ne ha hq
  have hsame : ∀ q, q ≠ p → update L p l' q = L q := fun q hq =>
    update_of_ne hq _ _
  have hself : update L p l' p = l' := update_self _ _ _
  refine ⟨?_, ?_, ?_, ?_, ?_, ?_, hhigh⟩
  · intro q
    by_cases hq : q = p
    · subst hq; rw [hself, hhead, update_self]
    · rw [hsame q hq, hhead, update_of_ne hq, hr.head]
  · intro q
    by_cases hq : q = p
    · subst hq; rw [hself]; exact hring
    · rw [hsame q hq]
      exact (hr.ring q).congr (fun a ha => (hframe q hq a ha).1) fun a ha => (hframe q hq a ha).2
  · intro q
    by_cases hq : q = p
    · subst hq; rw [hself]; exact hnd
    · rw [hsame q hq]; exact hr.nodup q
  · intro q q' a ha ha'
    by_cases hq : q = p
    · by_cases hq' : q' = p
      · rw [hq, hq']
      · rw [hq, hself] at ha
        rw [hsame q' hq'] at ha'
        exact absurd ha' (hnew a ha q' hq')
    · rw [hsame q hq] at ha
      by_cases hq' : q' = p
      · rw [hq', hself] at ha'
        exact absurd ha (hnew a ha' q hq)
      · rw [hsame q' hq'] at ha'
        exact hr.disjoint q q' a ha ha'
  · intro a ha
    have hal : a ∉ l' := by simpa [hself] using ha p
    rw [← nextOf_eq_none]
    by_cases hold : a = t ∨ a ∈ L p
    · exact hgone a hal hold
    · obtain ⟨hat, hap⟩ := not_or.mp hold
      refine (hkeep a hat hap).1.trans (nextOf_eq_none.mpr (hr.unlinked a fun q => ?_))
      by_cases hq : q = p
      · exact hq ▸ hap
      · exact hsame q hq ▸ ha q
  · intro q a ha
    by_cases hq : q = p
    · rw [hq, hself] at ha
      rcases hmem a ha with rfl | ha
      · exact ht
      · exact hr.inRange p a ha
    · rw [hsame q hq] at ha; exact hr.inRange q a ha

/-! ## 2. `ready_thread` -/

/-- **`ready_thread` appends the thread to the list of its priority**, which puts it just
before the head of the ring. -/
theorem readyThread (hr : Repr s L) (priority : ThreadPriority) (ht : InRange t) (hun : ∀ q, t ∉ L q) :
    Becomes s (Scheduler.readyThread t priority) (update L priority.toIndex (L priority.toIndex ++ [t])) := by
  have htid : t.2 ≠ irqTid := by
    intro h
    have := ht.2.1
    rw [h] at this
    exact absurd this (by decide)
  obtain ⟨p, hp⟩ : ∃ p, priority.toIndex = p := ⟨_, rfl⟩
  have hlist : L p = [] ∨ ∃ h r, L p = h :: r := by
    cases L p with
    | nil => exact .inl rfl
    | cons h r => exact .inr ⟨h, r, rfl⟩
  rcases hlist with hnil | ⟨h, r, hcons⟩
  · -- The list was empty: the thread becomes the head, linked to itself.
    have hhead : s.queueHeads p = none := by rw [hr.head, hnil]; rfl
    refine ⟨{ s with
      queueHeads := update s.queueHeads p (some t)
      links := update s.links t (some ⟨t, t⟩)
      highestReadyPriority := if s.highestReadyPriority < p then p else s.highestReadyPriority },
      ?_, rfl, ?_⟩
    · simp only [Scheduler.readyThread, if_neg htid, get_bind_run, hp, hhead, Exec.modify_bind_run]
      exact setLink_run ht _ _
    · rw [hp, hnil]
      refine hr.replace ht (fun q _ => hun q) rfl ?_ (by simp) (by simp)
        (fun a hat _ => by simp [nextOf, prevOf, hat])
        (fun a ha hold => absurd hold (by simpa [hnil] using ha)) (hr.highest.update_cons (by simp))
      rw [List.nil_append, LinkRing.singleton]
      simp [nextOf, prevOf]
  · -- The thread goes between the last thread of the ring and the head, which may be the same.
    have hhead : s.queueHeads p = some h := by rw [hr.head, hcons]; rfl
    have hring := hr.ring p
    rw [hcons] at hring
    have hne : ∀ a ∈ h :: r, t ≠ a := fun a ha hat => hun p (by rwa [hcons, hat])
    obtain ⟨-, hnext, hprev⟩ := LinkRing.cons_iff.mp hring
    obtain ⟨first, hfirst, hlast⟩ := Option.map_eq_some_iff.mp hprev
    obtain ⟨hn1, hp1⟩ := setPrev_links hfirst t
    rw [← hlast, ← hn1] at hnext
    obtain ⟨last, hlink, -⟩ := Option.map_eq_some_iff.mp hnext
    obtain ⟨hn2, hp2⟩ := setNext_links hlink t
    have hlastMem : first.prev ∈ h :: r := hlast ▸ List.getLast_mem _
    have hrange : ∀ a ∈ h :: r, InRange a := fun a ha => hr.inRange p a (by rwa [hcons])
    refine ⟨{ s with links := update (update (update s.links h
      (some ⟨first.next, t⟩)) first.prev (some ⟨t, last.prev⟩)) t (some ⟨h, first.prev⟩) }, ?_, rfl, ?_⟩
    · simp only [Scheduler.readyThread, if_neg htid, get_bind_run, hp, hhead]
      rw [bind_ok (linkCopy_run ht s), hr.unlinked t hun]
      simp only [Option.isNone_none, Exec.assert, if_true, pure_bind_run]
      rw [bind_ok (linkCopy_run (hrange h (by simp)) s), hfirst]
      simp only [expect_some, pure_bind_run]
      rw [bind_ok (setLink_run (hrange h (by simp)) _ s), bind_ok (linkCopy_run (hrange _ hlastMem) _), hlink]
      simp only [expect_some, pure_bind_run]
      rw [bind_ok (setLink_run (hrange _ hlastMem) _ _), setLink_run ht]
    · obtain ⟨hn3, hp3⟩ := setLink_links (hn2.trans (by rw [hn1])) (hp2.trans hp1) t (some ⟨h, first.prev⟩)
      rw [hp, hcons]
      refine hr.replace ht (fun q _ => hun q) ?_
        (hring.insert (hcons ▸ hr.nodup p) (hcons ▸ hun p) (fun a => ?_) fun a => ?_) ?_
        (fun a ha => by simpa [hcons, or_comm, or_left_comm] using ha) (fun a hat hap => ?_)
        (fun a ha hold => absurd hold (by simpa [hcons, or_comm, or_left_comm, and_left_comm] using ha))
        (hr.highest.update_same (by simp [hcons]) (by simp))
      · rw [cons_append, head?_cons, ← hhead, update_eq_self]
      · rw [← hlast]
        exact (congrFun hn3 a).trans (by rw [update_apply, update_apply]; rfl)
      · rw [← hlast]
        exact (congrFun hp3 a).trans (by rw [update_apply, update_apply]; rfl)
      · exact List.nodup_append.mpr ⟨hcons ▸ hr.nodup p, by simp, by simpa using fun a ha => (hne a ha).symm⟩
      · rw [hcons] at hap
        exact ⟨(congrFun hn3 a).trans (by rw [update_of_ne hat, update_of_ne]; rintro rfl; exact hap hlastMem),
          (congrFun hp3 a).trans (by rw [update_of_ne hat, update_of_ne]; rintro rfl; exact hap (by simp))⟩

end Repr

/-! ## 3. `park_thread` -/

theorem mem_take_finRange {p q : Fin 16} : q ∈ (finRange 16).take p ↔ q < p := by
  rw [List.mem_take_iff_getElem]
  constructor
  · rintro ⟨i, hi, rfl⟩
    simp only [List.getElem_finRange, Fin.lt_def, Fin.val_cast]
    omega
  · intro hq
    exact ⟨q, by simp; omega, by simp⟩

/-- The search for the next priority finds the largest one below `p` with a non-empty
queue. -/
theorem highestBelow_spec (heads : Fin 16 → Option ThreadId) (p : Fin 16) :
    (∀ q, q < p → (heads q).isSome → q ≤ highestBelow heads p) ∧
      ((heads (highestBelow heads p)).isSome ∧ highestBelow heads p < p ∨ highestBelow heads p = 0) := by
  have hmem : ∀ q, q ∈ ((finRange 16).take p).reverse ↔ q < p := fun q => by
    rw [List.mem_reverse, mem_take_finRange]
  have hsorted : ((finRange 16).take p).reverse.Pairwise (· > ·) := by
    rw [List.pairwise_reverse]
    exact (List.pairwise_lt_finRange 16).sublist (List.take_sublist _ _)
  unfold highestBelow
  cases hf : ((finRange 16).take p).reverse.find? (fun q => (heads q).isSome) with
  | none =>
    rw [List.find?_eq_none] at hf
    exact ⟨fun q hq hs => absurd hs (hf q ((hmem q).mpr hq)), .inr rfl⟩
  | some m =>
    rw [List.find?_eq_some_iff_append] at hf
    obtain ⟨hm, as, bs, hsplit, has⟩ := hf
    rw [hsplit, List.pairwise_append] at hsorted
    obtain ⟨_, hbs, _⟩ := hsorted
    refine ⟨fun q hq hs => ?_, .inl ⟨hm, (hmem m).mp (by rw [hsplit]; simp)⟩⟩
    have hq' := (hmem q).mpr hq
    rw [hsplit, mem_append, mem_cons] at hq'
    rcases hq' with h | rfl | h
    · have := has q h
      simp [hs] at this
    · exact le_refl _
    · exact le_of_lt (List.rel_of_pairwise_cons hbs h)

/-- Emptying a list lowers the highest priority to the next one, if it was the highest. -/
theorem IsHighest.update_nil {h p : Fin 16} {heads : Fin 16 → Option ThreadId}
    (hh : IsHighest L h) (hheads : ∀ q, heads q = (update L p [] q).head?) :
    IsHighest (update L p []) (if p = h then highestBelow heads p else h) := by
  obtain ⟨hmax, hex⟩ := hh
  have hsome : ∀ q, (heads q).isSome ↔ update L p [] q ≠ [] := by
    intro q
    rw [hheads]
    cases update L p [] q <;> simp
  have hne : ∀ q, update L p [] q ≠ [] → q ≠ p ∧ L q ≠ [] := by
    intro q hq
    by_cases hqp : q = p
    · rw [hqp, update_self] at hq; exact absurd rfl hq
    · rw [update_of_ne hqp] at hq; exact ⟨hqp, hq⟩
  obtain ⟨hbelow, hfound⟩ := highestBelow_spec heads p
  split
  next hph =>
    subst hph
    refine ⟨fun q hq => ?_, ?_⟩
    · obtain ⟨hqp, hLq⟩ := hne q hq
      have := hmax q hLq
      exact hbelow q (by omega) ((hsome q).mpr hq)
    · rcases hfound with ⟨hs, _⟩ | h0
      · exact .inl ((hsome _).mp hs)
      · exact .inr h0
  next hph =>
    refine ⟨fun q hq => hmax q (hne q hq).2, ?_⟩
    rw [update_of_ne (Ne.symm hph)]
    exact hex

namespace Repr

theorem irqTid_ne {p : Fin 16} (hr : Repr s L) (ht : t ∈ L p) : t.2 ≠ irqTid := by
  intro h
  have := (hr.inRange p t ht).2.1
  rw [h] at this
  exact absurd this (by decide)

theorem parkThread_last (hr : Repr s L) (hL : L priority.toIndex = [t]) :
    Becomes s (Scheduler.parkThread t priority) (update L priority.toIndex []) := by
  obtain ⟨p, hp⟩ : ∃ p, priority.toIndex = p := ⟨_, rfl⟩
  rw [hp] at hL ⊢
  have htp : t ∈ L p := by rw [hL]; simp
  have hrange := hr.inRange p t htp
  have hlink : s.links t = some ⟨t, t⟩ := hr.link_mem [] hL
  refine ⟨{ s with
    links := update s.links t none
    queueHeads := update s.queueHeads p none
    highestReadyPriority := if p = s.highestReadyPriority then
      highestBelow (update s.queueHeads p none) p else s.highestReadyPriority },
    ?_, rfl, ?_⟩
  · simp only [Scheduler.parkThread, if_neg (hr.irqTid_ne htp)]
    rw [bind_ok (linkCopy_run hrange s), bind_ok (setLink_run hrange _ s), hlink]
    simp [hp]
  · refine hr.replace hrange (fun q hq => hr.not_mem_of_ne htp hq) rfl LinkRing.nil (by simp) (by simp)
      (fun a hat _ => by simp [nextOf, prevOf, hat]) (fun a _ hold => ?_) ?_
    · rw [show a = t by simpa [hL] using hold]
      simp [nextOf]
    · refine hr.highest.update_nil (fun q => ?_)
      by_cases hqp : q = p
      · subst hqp; rw [update_self, update_self]; rfl
      · rw [update_of_ne hqp, update_of_ne hqp, hr.head]

/-- Parking a thread that shares its priority with others: its neighbours close the ring. -/
theorem parkThread_linked (hr : Repr s L) {xs ys : List ThreadId}
    (hL : L priority.toIndex = xs ++ t :: ys) (hrest : ys ++ xs ≠ []) :
    Becomes s (Scheduler.parkThread t priority) (update L priority.toIndex (xs ++ ys)) := by
  obtain ⟨p, hp⟩ : ∃ p, priority.toIndex = p := ⟨_, rfl⟩
  rw [hp] at hL ⊢
  have htp : t ∈ L p := by rw [hL]; simp
  have hrange := hr.inRange p t htp
  have hnd : (xs ++ t :: ys).Nodup := hL ▸ hr.nodup p
  obtain ⟨htn, hndr⟩ := LinkRing.nodup_rest hnd
  have hring : LinkRing s.nextOf s.prevOf (xs ++ t :: ys) := hL ▸ hr.ring p
  -- The neighbours `n` and `pv`, which may be the same thread.
  obtain ⟨n, hn⟩ : ∃ n, (ys ++ xs).head? = some n := by
    cases h : ys ++ xs with
    | nil => exact absurd h hrest
    | cons n r => exact ⟨n, rfl⟩
  obtain ⟨pv, hpv⟩ : ∃ pv, (ys ++ xs).getLast? = some pv := ⟨_, List.getLast?_eq_some_getLast hrest⟩
  have hnmem : n ∈ ys ++ xs := List.mem_of_mem_head? hn
  have hpvmem : pv ∈ ys ++ xs := List.mem_of_getLast? hpv
  have hmemL : ∀ a ∈ ys ++ xs, a ∈ L p := by
    intro a ha
    rw [hL, mem_append, mem_cons]
    rcases mem_append.mp ha with h | h
    · exact .inr (.inr h)
    · exact .inl h
  have hnt : n ≠ t := fun h => htn (h ▸ hnmem)
  have hpt : pv ≠ t := fun h => htn (h ▸ hpvmem)
  have hlink : s.links t = some ⟨n, pv⟩ := by
    rw [hr.link_mem _ hL, List.headD_eq_head?_getD, List.getLastD_eq_getLast?, hn, hpv]
    rfl
  have hnr := hr.inRange p n (hmemL n hnmem)
  have hpr := hr.inRange p pv (hmemL pv hpvmem)
  obtain ⟨hn1, hp1⟩ := setLink_links (s := s) rfl rfl t none
  obtain ⟨lp, hlp⟩ : ∃ lp, update s.links t none pv = some lp := by
    rw [update_of_ne hpt]
    exact hr.linked (hmemL pv hpvmem)
  obtain ⟨hn2, hp2⟩ := setNext_links (s := { s with links := update s.links t none }) hlp n
  obtain ⟨link, hlinkn⟩ := hr.linked (hmemL n hnmem)
  have hprev := congrFun (hp2.trans hp1) n
  rw [update_of_ne hnt, prevOf, prevOf, hlinkn] at hprev
  obtain ⟨ln, hln, -⟩ := Option.map_eq_some_iff.mp hprev
  obtain ⟨hn3, hp3⟩ := setPrev_links hln pv
  dsimp only at hln
  rw [hn2.trans (by rw [hn1])] at hn3
  rw [hp2.trans hp1] at hp3
  refine ⟨{ s with
    links := update (update (update s.links t none) pv
      (some { lp with next := n })) n (some { ln with prev := pv })
    queueHeads := if s.queueHeads p = some t then update s.queueHeads p (some n)
      else s.queueHeads }, ?_, rfl, ?_⟩
  · simp only [Scheduler.parkThread, if_neg (hr.irqTid_ne htp)]
    rw [bind_ok (linkCopy_run hrange s), bind_ok (setLink_run hrange _ s), hlink]
    simp only [expect_some, pure_bind_run, get_bind_run, if_neg hnt, hp]
    -- Whether or not the head moves, the links are closed in the same way.
    split
    rw [Exec.set_bind_run]
    all_goals
      rw [bind_ok (linkCopy_run hpr _)]
      simp only [hlp, expect_some, pure_bind_run]
      rw [bind_ok (setLink_run hpr _ _), bind_ok (linkCopy_run hnr _)]
      simp only [hln, expect_some, pure_bind_run]
      rw [setLink_run hnr]
  · have hmem : ∀ a, a ∈ xs ++ ys → a ∈ L p := fun a ha =>
      hmemL a (List.perm_append_comm.mem_iff.mp ha)
    refine hr.replace hrange (fun q hq => hr.not_mem_of_ne htp hq) ?_
      (hring.remove hnd hn hpv (fun a hat => ?_) fun a hat => ?_)
      (List.perm_append_comm.nodup_iff.mp hndr) (fun a ha => .inr (hmem a ha)) (fun a hat ha => ?_)
      (fun a ha hold => ?_) (hr.highest.update_same (by simp [hL]) fun h => ?_)
    · show (if s.queueHeads p = some t then _ else _) = _
      rw [hr.head, hL]
      cases xs with
      | nil =>
        rw [List.append_nil] at hn
        rw [List.nil_append, head?_cons, if_pos rfl, List.nil_append, hn]
      | cons x xs =>
        have hxt : x ≠ t := fun h => htn (h ▸ by simp)
        rw [cons_append, head?_cons, if_neg (by simpa using hxt), cons_append,
          head?_cons, ← head?_cons (l := xs ++ t :: ys), ← cons_append, ← hL,
          ← hr.head, update_eq_self]
    · exact (congrFun hn3 a).trans (by rw [update_apply, update_of_ne hat])
    · exact (congrFun hp3 a).trans (by rw [update_apply, update_of_ne hat])
    · refine ⟨(congrFun hn3 a).trans ?_, (congrFun hp3 a).trans ?_⟩ <;> rw [update_of_ne, update_of_ne hat] <;> rintro rfl
      · exact ha (hmemL _ hpvmem)
      · exact ha (hmemL _ hnmem)
    · have hat : a = t := by
        rw [hL] at hold
        simp only [mem_append, mem_cons] at hold ha
        tauto
      exact (congrFun hn3 a).trans (by rw [hat, update_of_ne (Ne.symm hpt), update_self]; rfl)
    · obtain ⟨rfl, rfl⟩ := List.append_eq_nil_iff.mp h
      exact hrest rfl

/-- **`park_thread` erases the thread from the list of its priority.**  If it was the head,
the head is now its successor. -/
theorem parkThread (hr : Repr s L) (priority : ThreadPriority) (ht : t ∈ L priority.toIndex) :
    Becomes s (Scheduler.parkThread t priority) (update L priority.toIndex ((L priority.toIndex).erase t)) := by
  obtain ⟨xs, ys, hL⟩ := List.append_of_mem ht
  have hxs : t ∉ xs := by
    have hnd := hr.nodup priority.toIndex
    rw [hL] at hnd
    exact fun h => (LinkRing.nodup_rest hnd).1 (List.mem_append_right _ h)
  have herase : (L priority.toIndex).erase t = xs ++ ys := by
    rw [hL, List.erase_append_right _ hxs, List.erase_cons_head]
  rw [herase]
  by_cases hrest : ys ++ xs = []
  · obtain ⟨rfl, rfl⟩ := List.append_eq_nil_iff.mp hrest
    exact hr.parkThread_last hL
  · exact hr.parkThread_linked hL hrest

/-! ## 4. `yield_thread` -/

/-- **`yield_thread` of the head rotates the list by one.** -/
theorem yieldThread_head (hr : Repr s L) {r : List ThreadId} (hL : L priority.toIndex = t :: r) :
    Becomes s (Scheduler.yieldThread t priority) (update L priority.toIndex (r ++ [t])) := by
  obtain ⟨p, hp⟩ : ∃ p, priority.toIndex = p := ⟨_, rfl⟩
  rw [hp] at hL ⊢
  have htp : t ∈ L p := by rw [hL]; simp
  have hhead : s.queueHeads p = some t := by rw [hr.head, hL]; rfl
  have hlink := hr.link_mem [] hL
  rw [List.append_nil] at hlink
  have hmem : ∀ a, a ∈ r ++ [t] ↔ a ∈ L p := by
    intro a
    rw [hL]
    simp [or_comm]
  refine ⟨{ s with queueHeads := update s.queueHeads p (some (r.headD t)) }, ?_, rfl, ?_⟩
  · simp only [Scheduler.yieldThread, get_bind_run, hp, hhead, if_true]
    rw [bind_ok (linkCopy_run (hr.inRange p t htp) s), hlink]
    rfl
  · refine hr.replace (hr.inRange p t htp) (fun q hq => hr.not_mem_of_ne htp hq) ?_ ?_ ?_
      (fun a ha => .inr ((hmem a).mp ha)) (fun _ _ _ => ⟨rfl, rfl⟩) (fun a ha hold => ?_)
      (hr.highest.update_same (by simp [hL]) (by simp))
    · cases r with
      | nil => rfl
      | cons x r => rfl
    · have hring := hr.ring p
      rw [hL, ← List.singleton_append] at hring
      exact LinkRing.append_comm.mp hring
    · have := hr.nodup p
      rw [hL] at this
      exact (@List.perm_append_comm _ [t] r).nodup_iff.mp this
    · refine absurd ((hmem a).mpr ?_) ha
      exact hold.elim (fun h => h ▸ htp) id

/-- **`yield_thread` of any other thread changes nothing.** -/
theorem yieldThread_other (hr : Repr s L) (hne : (L priority.toIndex).head? ≠ some t) :
    Scheduler.yieldThread t priority s = .ok () s := by
  rw [← hr.head] at hne
  simp [Scheduler.yieldThread, hne]

end Repr

/-! ## 5. Runs -/

/-- The calls that change the ready queues. -/
inductive Op where
  | ready (t : ThreadId) (priority : ThreadPriority)
  | park (t : ThreadId) (priority : ThreadPriority)
  | yield (t : ThreadId) (priority : ThreadPriority)

namespace Op

def exec : Op → Exec Scheduler Error Unit
  | ready t priority => readyThread t priority
  | park t priority => parkThread t priority
  | yield t priority => yieldThread t priority

def execAll : List Op → Exec Scheduler Error Unit
  | [] => pure ()
  | op :: ops => do
    op.exec
    execAll ops

/-- What a call does to the rotating lists. -/
def apply (L : ReadyLists) : Op → ReadyLists
  | ready t priority => update L priority.toIndex (L priority.toIndex ++ [t])
  | park t priority => update L priority.toIndex ((L priority.toIndex).erase t)
  | yield t priority =>
    if (L priority.toIndex).head? = some t then
      update L priority.toIndex ((L priority.toIndex).rotate 1)
    else L

/-- The call is one its callers may make: a thread becomes ready only while it is linked
nowhere, and is parked or yields only at the priority it is linked at. -/
def Legal (L : ReadyLists) : Op → Prop
  | ready t _ => InRange t ∧ ∀ q, t ∉ L q
  | park t priority => t ∈ L priority.toIndex
  | yield t priority => t ∈ L priority.toIndex

def LegalAll : ReadyLists → List Op → Prop
  | _, [] => True
  | L, op :: ops => op.Legal L ∧ LegalAll (op.apply L) ops

theorem exec_repr (hr : Repr s L) : ∀ op : Op, op.Legal L → ∃ s', op.exec s = .ok () s' ∧ Repr s' (op.apply L)
  | ready t priority, h => by
    obtain ⟨s', hrun, _, hr'⟩ := hr.readyThread priority h.1 h.2
    exact ⟨s', hrun, hr'⟩
  | park t priority, h => by
    obtain ⟨s', hrun, _, hr'⟩ := hr.parkThread priority h
    exact ⟨s', hrun, hr'⟩
  | yield t priority, h => by
    rw [apply]
    split
    next hhead =>
      cases hL : L priority.toIndex with
      | nil => rw [hL] at hhead; cases hhead
      | cons x r =>
        rw [hL] at hhead
        cases hhead
        obtain ⟨s', hrun, _, hr'⟩ := hr.yieldThread_head hL
        exact ⟨s', hrun, by simpa using hr'⟩
    next hhead =>
      exact ⟨s, hr.yieldThread_other hhead, hr⟩

theorem execAll_repr : ∀ (ops : List Op) {s : Scheduler} {L : ReadyLists}, Repr s L →
    LegalAll L ops → ∃ s', execAll ops s = .ok () s' ∧ Repr s' (ops.foldl apply L)
  | [], s, L, hr, _ => ⟨s, rfl, hr⟩
  | op :: ops, s, L, hr, h => by
    obtain ⟨s1, hrun, hr1⟩ := exec_repr hr op h.1
    obtain ⟨s2, hrest, hr2⟩ := execAll_repr ops hr1 h.2
    exact ⟨s2, by rw [execAll, bind_ok hrun, hrest], hr2⟩

end Op

/-- **The scheduler refines one rotating list for each priority.**  From the empty scheduler,
every sequence of calls that respects the callers' obligations runs without a panic, and the
heads, the links and `highest_ready_priority` at its end are those of the lists that the same
calls produce. -/
theorem scheduler_refines_lists (ops : List Op) (h : Op.LegalAll (fun _ => []) ops) :
    ∃ s, Op.execAll ops empty = .ok () s ∧ Repr s (ops.foldl Op.apply (fun _ => [])) :=
  Op.execAll_repr ops repr_empty h

/-- Two threads of one priority, one of another: both kinds of park and a rotation. -/
theorem scheduler_refines_lists_example :
    let t (n : Nat) : ThreadId := (PID.kernel, n)
    let ops : List Op := [.ready (t 1) .appDefault, .ready (t 2) .appDefault,
      .ready (t 3) .system0, .yield (t 1) .appDefault, .park (t 3) .system0,
      .park (t 2) .appDefault]
    ∃ s, Op.execAll ops empty = .ok () s ∧ Repr s (ops.foldl Op.apply (fun _ => [])) :=
  scheduler_refines_lists _ (by
    simp only [Op.LegalAll, Op.Legal, Op.apply]
    decide)

end BeetKernel.Scheduler

/-
# The order survives every event

`Ordered` says how threads wait: a receiver is parked at its own server, a sender is named by
one slot and has no result yet, a mailbox belongs to a call that waits for it.  Here it is
carried through whole events, together with the fact that the thread which runs is `Going`:
ready, with no call pending.

Three things can break it, and each is a condition on the state before the event: a new server
whose queue page is not clean, a server that is destroyed under its own receivers, and a thread
that is handed the display without waiting for it.
-/
import BeetKernel.Ipc.Events
import BeetKernel.Ipc.Waiting

namespace BeetKernel.Ipc

open Kernel (Event Harmless)

variable {i j : Ipc} {t : ThreadId} {sender : Option ThreadId} {dying : Option PID}
variable {u : ThreadId} {s : Server} {sidx : Nat} {pid : PID} {N : Server → Prop} {call : SysCall}

/-! ## 1. The thread that runs -/

/-- The thread can run: it is ready and no call of it is pending. -/
def Going (t : ThreadId) (i : Ipc) : Prop := i.state t = .ready ∧ i.future t = none

/-- Labels that neither stop a thread which is going nor choose another one to run. -/
def Label.Aside : Label → Prop
  | .wait _ | .pause | .kill _ | .gone _ | .activate _ | .switch _ => False
  | _ => True

theorem Going.ready {i' : Ipc} (h : Going t i) (hs : SetState u .ready i' j)
    (hst : i'.state = i.state) (hf : i'.future t = none) : Going t j := by
  refine ⟨hs.stays_ready (by rw [hst]; exact h.1), ?_⟩
  rw [hs.future]
  exact hf

theorem Going.answered {r : Result} (h : Going t i) (ha : Answered u r i j) :
    Going t j := by
  cases ha with
  | posted _ hs => exact h.ready hs rfl h.2
  | direct _ hr =>
    obtain ⟨ctx, -, hs⟩ := hr
    exact h.ready hs rfl h.2
  | gone _ hj =>
    rcases hj with rfl | rfl
    · exact h
    · exact h

theorem Going.wakes (h : Going t i) (hw : Wakes i j) : Going t j :=
  ⟨(hw.state t).1 h.1, by rw [hw.frame.2.1]; exact h.2⟩

theorem Going.setFuture (h : Going t i) : (i.setFuture u none).future t = none := by
  rcases eq_or_ne t u with rfl | hne
  · exact setFuture_self ..
  · rw [setFuture_of_ne _ hne]
    exact h.2

theorem Going.move {l : Label} (hm : Move l i j) (hl : l.Aside) (h : Going t i) : Going t j := by
  cases hm with
  | wake _ _ hr =>
    obtain ⟨ctx, -, hs⟩ := hr
    exact h.ready hs rfl h.2
  | handOver hs hh hr =>
    obtain ⟨ctx, -, hs'⟩ := hr
    exact h.ready hs' rfl h.setFuture
  | post _ _ _ _ hs => exact h.ready hs rfl h.2
  | touch | lose | rotate | priority | relink | regs | send | drop | enter | leave | create | close
  | strike | load => exact h
  | @reply _ i1 _ sidx slot s s' u r hs hpid hr hw ha =>
    have hset : Going t (i.setServer sidx (some s')) := h
    exact (hset.wakes hw).answered ha
  | wait | receive | pause | kill | gone | activate | switch => exact hl.elim
  | display ha => exact h.answered ha
  | release hs => exact h.ready hs rfl h.2
  | thread _ _ _ hr =>
    obtain ⟨ctx, -, hs⟩ := hr
    exact h.ready hs rfl h.2
  | spawn _ _ _ hfree _ _ =>
    have hne : t.1 ≠ _ := fun ht => absurd (hfree t ht) (by rw [h.1]; decide)
    exact ⟨(if_neg hne).trans h.1, (if_neg hne).trans h.2⟩
  | complete => exact ⟨h.1, h.setFuture⟩
  | collect => exact ⟨h.1, h.setFuture⟩
  | @repark _ _ u f hr hf hs =>
    have hne : t ≠ u := fun ht => by simp [← ht, h.2] at hf
    exact ⟨by rw [hs.state_of_ne hne]; exact h.1, by rw [hs.future]; exact h.2⟩

theorem Going.aside (h : Going t i) (hd : Does Label.Aside i j) : Going t j :=
  Moves.invariant (fun l _ _ (hl : l.Aside) hm hg => Going.move hm hl hg) hd h

theorem Answered.current {r : Result} (h : Answered u r i j) : j.current = i.current := by
  cases h with
  | posted _ hs => exact hs.current
  | direct _ hr =>
    obtain ⟨ctx, -, hs⟩ := hr
    exact hs.current
  | gone _ hj => rcases hj with rfl | rfl <;> rfl

theorem Move.aside_current {l : Label} (hm : Move l i j) (hl : l.Aside) (hb : Basic i) : j.current = i.current := by
  cases hm with
  | wake _ _ hr | handOver _ _ hr =>
    obtain ⟨ctx, -, hs⟩ := hr
    exact hs.current
  | post _ _ _ _ hs => exact hs.current
  | touch | lose | rotate | priority | relink | regs | send | drop | enter | leave | create | close
  | strike | load | complete | collect => rfl
  | reply hs hpid hr hw ha => exact Kernel.reply_current (.reply hs hpid hr hw ha)
  | wait | receive | pause | kill | gone | activate | switch => exact hl.elim
  | display ha => exact ha.current
  | release hs => exact hs.current
  | thread _ _ _ hr =>
    obtain ⟨ctx, -, hs⟩ := hr
    exact hs.current
  | @spawn _ pid _ _ _ hn _ _ _ _ _ =>
    have hne : i.pid ≠ pid := fun h => hb.running (h ▸ hn)
    exact Prod.ext rfl (Function.update_of_ne hne ..)
  | repark _ _ hs => exact hs.current

theorem aside_current (hd : Does Label.Aside i j) (hb : Basic i) : j.current = i.current := by
  suffices h : Basic j ∧ j.current = i.current from h.2
  refine Moves.invariant (P := fun i' => Basic i' ∧ i'.current = i.current) ?_ hd ⟨hb, rfl⟩
  rintro l a b hl hm ⟨hba, hcur⟩
  refine ⟨hba.move hm ?_, (hm.aside_current hl hba).trans hcur⟩
  rintro pid rfl
  exact hl.elim

theorem quiet_aside (hd : Does Quiet i j) : Does Label.Aside i j := hd.mono fun l hl => by subst hl; trivial

theorem SetState.stays_alive (h : SetState u .ready i j) (ht : i.state t ≠ .free) : j.state t ≠ .free := by
  rcases eq_or_ne t u with rfl | hne
  · rw [h.state_self]
    decide
  · rwa [h.state_of_ne hne]

theorem Move.stays_alive (h : Move .quiet i j) (ht : i.state t ≠ .free) : j.state t ≠ .free := by
  cases h with
  | wake _ _ h | handOver _ _ h =>
    obtain ⟨ctx, -, hs⟩ := h
    exact hs.stays_alive ht
  | post _ _ _ _ hs => exact hs.stays_alive ht
  | touch | lose | rotate | priority | relink => exact ht

/-! ## 2. The order, along sequences of moves -/

/-- Threads that wait for the display still do. -/
def Holding (i j : Ipc) : Prop := ∀ t, i.future t = some .waitDisplay → j.future t = some .waitDisplay

instance : IsPreorder Ipc Holding where
  refl _ _ := id
  trans _ _ _ h1 h2 t ht := h2 t (h1 t ht)

theorem Holding.of_future (h : j.future = i.future) : Holding i j := fun t ht => by rw [h]; exact ht

namespace Ordered

theorem quiet_holding (h : Ordered sender dying i) (hm : Move .quiet i j) : Holding i j := by
  cases hm with
  | wake _ _ hr =>
    obtain ⟨ctx, -, hs⟩ := hr
    exact .of_future hs.future
  | @handOver _ _ sidx s s' tid hs hh hr =>
    obtain ⟨ctx, -, hs'⟩ := hr
    intro t ht
    have hne : t ≠ (s.pid, tid) := by
      rintro rfl
      have hrec := h.receiver sidx _ ((parkedAt_self hs).mpr hh.was)
      rw [ht] at hrec
      cases hrec
    rw [hs'.future]
    exact (setFuture_of_ne _ hne _).trans ht
  | post _ _ _ _ hs => exact .of_future hs.future
  | touch | lose | rotate | priority | relink => exact .of_future rfl

theorem quietly (h : Ordered sender dying i) (hd : Does Quiet i j) : Ordered sender dying j ∧ Holding i j := by
  refine Moves.invariant (P := fun i' => Ordered sender dying i' ∧ Holding i i') ?_ hd ⟨h, refl_of Holding i⟩
  rintro l a b rfl hm ⟨ha, hhold⟩
  exact ⟨ha.quiet hm, trans_of Holding hhold (ha.quiet_holding hm)⟩

theorem gently {A : Label → Prop} (h : Ordered none dying i) (hd : Does A i j)
    (hA : ∀ l i, A l → l.Fair dying i) : Ordered none dying j :=
  Moves.invariant (fun l a _ hl hm ha => Ordered.fair hm (hA l a hl) ha) hd h

theorem own (h : Ordered none dying i) (hd : Does (Own t) i j) : Ordered none dying j := by
  refine h.gently hd fun l i hl => ?_
  rcases hl with rfl | rfl | rfl <;> trivial

theorem die (h : Ordered sender none i) (pid : PID) : Ordered sender (some pid) i :=
  { h with receiving := fun t sidx hf _ => h.receiving t sidx hf (by simp) }

theorem closing (h : Ordered none dying i) (hd : Does (Closing s) i j)
    (hment : ∀ t, Mentions s t → i.state t ≠ .free) : Ordered none dying j ∧ Holding i j := by
  suffices hP : Ordered none dying j ∧ Holding i j ∧ ∀ t, Mentions s t → j.state t ≠ .free from
    ⟨hP.1, hP.2.1⟩
  refine Moves.invariant (P := fun i' => Ordered none dying i' ∧ Holding i i' ∧
    ∀ t, Mentions s t → i'.state t ≠ .free) ?_ hd ⟨h, refl_of Holding i, hment⟩
  rintro l a b hl hm ⟨ha, hhold, hst⟩
  rcases hl with rfl | ⟨u, rfl, hu⟩
  · exact ⟨ha.quiet hm, trans_of Holding hhold (ha.quiet_holding hm), fun t ht => hm.stays_alive (hst t ht)⟩
  · refine ⟨ha.fair hm (hst u hu), ?_, fun t ht => ?_⟩
    · cases hm with
      | release hs => exact trans_of Holding hhold (.of_future hs.future)
    · cases hm with
      | release hs =>
        have hdeliver : (a.deliver u (.error .serverNotFound)).state t ≠ .free := hst t ht
        exact hs.stays_alive hdeliver

theorem mentions_alive (h : Ordered sender dying i)
    (hs : i.servers sidx = some s) (t : ThreadId) (ht : Mentions s t) : i.state t ≠ .free := by
  rcases ht with ⟨slot, hslot⟩ | ⟨hpid, hbit⟩
  · exact h.named sidx slot t ((namedAt_iff hs).mpr hslot)
  · exact h.parked sidx t ((parkedAt_iff hs).mpr ⟨hpid, hbit⟩)

theorem destroys (h : Ordered none dying i) (hd : Destroys sidx s i j)
    (hp : ∀ t, i.ParkedAt sidx t → some t.1 = dying) : Ordered none dying j ∧ Holding i j := by
  have hclose : Ordered none dying (i.setServer sidx none) := h.fair .close hp
  exact hclose.closing hd.rest (h.mentions_alive hd.was)

/-- The first waiter whose process exists still waits for the display. -/
def FirstWaits (i : Ipc) : Prop := ∀ old t rest, i.waiters = old ++ t :: rest → (∀ u ∈ old, i.parent u.1 = none) →
    i.parent t.1 ≠ none → i.future t = some .waitDisplay

theorem passes (h : Ordered none dying i) (hp : Passes i j) (hw : FirstWaits i) :
    Ordered none dying j := by
  cases hp with
  | nobody hd =>
    refine h.gently hd fun l i hl => ?_
    rcases hl with rfl | rfl <;> trivial
  | @first i1 i2 i3 old rest t hlist hold ht h1 h2 h3 h4 =>
    subst h2
    obtain ⟨ho1, hhold1⟩ := h.quietly h1
    have hleave : Ordered none dying { i1 with waiters := rest } := by
      refine ho1.fair (.leave ?_) trivial
      rw [(Kernel.quiet_frame h1).waiters, hlist]
      exact ⟨old ++ [t], by simp⟩
    obtain ⟨ho3, hhold3⟩ := hleave.quietly h3
    exact ho3.fair h4 (hhold3 t (hhold1 t (hw old t rest hlist hold ht)))

theorem withdraws (h : Ordered none (some pid) i)
    (hd : Relation.ReflTransGen (Withdraws pid) i j) : Ordered none (some pid) j ∧ Holding i j := by
  induction hd with
  | refl => exact ⟨h, refl_of Holding i⟩
  | tail _ hlast ih =>
    obtain ⟨ho, hhold⟩ := ih
    cases hlast with
    | own hpid hd =>
      obtain ⟨ho', hhold'⟩ := ho.destroys hd fun t ht => by
        obtain ⟨s', hs', hpid', -⟩ := ht
        rw [hd.was] at hs'
        cases hs'
        rw [← hpid', hpid]
      exact ⟨ho', trans_of Holding hhold hhold'⟩
    | other hs heq =>
      subst heq
      exact ⟨ho.discards pid hs, hhold⟩

theorem FirstWaits.of_frame (hw : FirstWaits i) (hf : Kernel.SameFrame i j) (hh : Holding i j) :
    FirstWaits j := by
  intro old t rest hlist hold ht
  rw [hf.waiters] at hlist
  rw [hf.parent] at hold ht
  exact hh t (hw old t rest hlist hold ht)

theorem destroys_frame (h : Destroys sidx s i j) : Kernel.SameFrame i j := by
  have hclose : Kernel.SameFrame i (i.setServer sidx none) := ⟨rfl, rfl, rfl, rfl, rfl⟩
  refine trans_of Kernel.SameFrame hclose (Moves.within (fun l a b hl hm => ?_) h.rest)
  rcases hl with rfl | ⟨t, rfl, -⟩
  · exact Kernel.quiet_frame (.single rfl hm)
  · cases hm with
    | release hs =>
      exact ⟨hs.parent, hs.allocated, hs.pid, hs.tid, hs.waiters⟩

theorem withdraws_frame (h : Relation.ReflTransGen (Withdraws pid) i j) : Kernel.SameFrame i j := by
  induction h with
  | refl => exact refl_of Kernel.SameFrame i
  | tail _ hlast ih =>
    refine trans_of Kernel.SameFrame ih ?_
    cases hlast with
    | own _ hd => exact destroys_frame hd
    | other _ heq =>
      subst heq
      exact ⟨rfl, rfl, rfl, rfl, rfl⟩

theorem withdrawn_of_callers (h : Withdrawn pid i) (hc : Kernel.SameCallers i j) :
    Withdrawn pid j := fun sidx => hc.clear (h sidx)

theorem kills (h : Ordered none (some pid) i) (hk : pid ≠ PID.kernel)
    (hw : Withdrawn pid i) (hd : Does (Killing pid) i j) : Ordered none (some pid) j := by
  suffices hP : Ordered none (some pid) j ∧ Withdrawn pid j from hP.1
  refine Moves.invariant (P := fun i' => Ordered none (some pid) i' ∧ Withdrawn pid i') ?_ hd ⟨h, hw⟩
  rintro l a b ⟨tid, rfl, hpos, -⟩ hm ⟨ha, hwa⟩
  refine ⟨ha.fair hm ⟨rfl, Nat.ne_of_gt hpos, ?_, ?_, ?_⟩, ?_⟩
  · exact fun heq => hk (congrArg Prod.fst heq)
  · rintro sidx slot ⟨s, hs, hc⟩
    exact (hwa sidx s hs).2 slot _ hc rfl
  · rintro sidx ⟨s, hs, hpid, -⟩
    exact (hwa sidx s hs).1 hpid
  · cases hm with
    | kill hs => exact withdrawn_of_callers hwa (.of_servers hs.servers)

/-- **A process that ends leaves the others in order.** -/
theorem ends (h : Ordered none none i) (he : Ends i j) (hw : FirstWaits i) : Ordered none none j := by
  obtain ⟨hk, i1, i2, i3, i4, i5, h1, hdrawn, h2, h3, h4, h5, h6⟩ := he
  obtain ⟨ho1, hhold1⟩ := (h.die i.pid).withdraws h1
  obtain ⟨ho2, hhold2⟩ := ho1.quietly h2
  have hframe := trans_of Kernel.SameFrame (withdraws_frame h1) (Kernel.quiet_frame h2)
  have ho3 := ho2.passes h3 (FirstWaits.of_frame hw hframe (trans_of Holding hhold1 hhold2))
  have hdrawn3 : Withdrawn i.pid i3 := withdrawn_of_callers hdrawn
    (trans_of Kernel.SameCallers (Kernel.quiet_callers h2) (Kernel.passes_sheds h3).callers)
  obtain ⟨ho5, -⟩ := (ho3.kills hk hdrawn3 h4).quietly h5
  refine ho5.gone h6 ⟨hk, fun t ht => ?_⟩
  by_contra hfree
  cases h6 with
  | gone _ _ hkilled _ =>
    have hthread : (i.pid, t.2) = t := Prod.ext ht.symm rfl
    exact hfree (hthread ▸ hkilled t.2 (ho5.allocated t hfree).2 (ho5.present t hfree).2)

/-! ## 3. System calls -/

/-- What the order needs of a system call.  A server that survives the call need not be vacant. -/
structure Allows (N : Server → Prop) (call : SysCall) (i j : Ipc) : Prop where
  clean : call.CreatesServer → ∀ s, N s → (∀ slot, s.caller slot = none) ∧ s.Sound
  vacant : ∀ sidx s, call = .destroyServer s.sid → i.servers sidx = some s → s.pid = i.pid →
    j.servers sidx = none → ∀ t, ¬ i.ParkedAt sidx t
  display : call.FreesDisplay → FirstWaits i

theorem destroys_absent (hd : Destroys sidx s i j) : j.servers sidx = none := by
  refine Moves.invariant (P := fun i' => i'.servers sidx = none) ?_ hd.rest (Function.update_self ..)
  rintro l a b hl hm ha
  rcases hl with rfl | ⟨t, rfl, -⟩
  · exact (Kernel.quiet_callers (.single rfl hm)).absent ha
  · cases hm with
    | release hs => rwa [hs.servers]

theorem stays (h : Ordered none none i) (hs : Stays call N i j) (ha : Allows N call i j) : Ordered none none j := by
  cases hs with
  | quiet hd => exact (h.quietly hd).1
  | thread h1 h2 => exact ((h.fair h1 trivial).quietly h2).1
  | spawn _ hd =>
    refine h.gently hd fun l i hl => ?_
    rcases hl with rfl | rfl | rfl <;> trivial
  | create hc hN h1 h2 h3 =>
    exact (((h.quietly h1).1.fair h2 (ha.clean hc _ hN)).quietly h3).1
  | drop h1 h2 => exact ((h.fair h1 trivial).quietly h2).1
  | display hc hp => exact h.passes hp (ha.display hc)
  | destroy hc hpid hd =>
    exact (h.destroys hd fun t ht =>
      absurd ht (ha.vacant _ _ hc hd.was hpid (destroys_absent hd) t)).1

theorem passes_aside (hp : Passes i j) : Does Label.Aside i j := by
  cases hp with
  | nobody hd => exact hd.mono fun l hl => by rcases hl with rfl | rfl <;> trivial
  | @first i1 i2 i3 old rest t hlist _ _ h1 h2 h3 h4 =>
    subst h2
    have hleave : Move .leave i1 { i1 with waiters := rest } := by
      refine .leave ?_
      rw [(Kernel.quiet_frame h1).waiters, hlist]
      exact ⟨old ++ [t], by simp⟩
    exact (((quiet_aside h1).snoc (by trivial) hleave).trans (quiet_aside h3)).snoc (by trivial) h4

theorem destroys_aside (hd : Destroys sidx s i j) : Does Label.Aside i j := by
  have hclose : Does Label.Aside i (i.setServer sidx none) := .single (by trivial) .close
  exact hclose.trans (hd.rest.mono fun l hl => by rcases hl with rfl | ⟨t, rfl, -⟩ <;> trivial)

theorem stays_aside (hs : Stays call N i j) : Does Label.Aside i j := by
  cases hs with
  | quiet hd => exact quiet_aside hd
  | thread h1 h2 => exact (Moves.single (by trivial) h1).trans (quiet_aside h2)
  | spawn _ hd => exact hd.mono fun l hl => by rcases hl with rfl | rfl | rfl <;> trivial
  | create _ _ h1 h2 h3 => exact ((quiet_aside h1).snoc (by trivial) h2).trans (quiet_aside h3)
  | drop h1 h2 => exact (Moves.single (by trivial) h1).trans (quiet_aside h2)
  | display _ hp => exact passes_aside hp
  | destroy _ _ hd => exact destroys_aside hd

theorem own_aside (hd : Does (Own t) i j) : Does Label.Aside i j :=
  hd.mono fun l hl => by rcases hl with rfl | rfl | rfl <;> trivial

theorem going_safe (hg : Going i.current i) (hu : i.pid ≠ PID.kernel) :
    i.state i.current ≠ .free ∧ i.current ≠ idleThread :=
  ⟨by rw [hg.1]; decide, fun h => hu (congrArg Prod.fst h)⟩

/-- **A call that gives up the CPU keeps the order.** -/
theorem yields (h : Ordered none none i)
    (hy : Yields call i j) (hw : call.FreesDisplay → FirstWaits i) (hg : Going i.current i)
    (hu : i.pid ≠ PID.kernel) : Ordered none none j := by
  -- the running thread is still the same, and still going, before it waits
  have hkeep : ∀ {i'}, Does Label.Aside i i' → Going i'.current i' ∧ i'.pid ≠ PID.kernel := fun hd => by
      have hcur := aside_current hd h.toBasic
      rw [hcur]
      exact ⟨hg.aside hd, fun hp => hu ((congrArg Prod.fst hcur).symm.trans hp)⟩
  cases hy with
  | own hd => exact h.own hd
  | block h1 h2 h3 h4 =>
    obtain ⟨ho1, -⟩ := h.quietly h1
    obtain ⟨hg1, hu1⟩ := hkeep (quiet_aside h1)
    have ho2 := ho1.send h2 hg1.2 (going_safe hg1 hu1).1
    obtain ⟨ho3, -⟩ := ho2.quietly h3
    have hd3 := ((quiet_aside h1).snoc (by trivial) h2).trans (quiet_aside h3)
    obtain ⟨hg3, hu3⟩ := hkeep hd3
    have hcur : _ = _ := (aside_current hd3 h.toBasic).trans (aside_current (quiet_aside h1) h.toBasic).symm
    exact ho3.wait h4 hg3.2 (going_safe hg3 hu3) (.inr ⟨by rw [hcur], rfl⟩)
  | pause h1 h2 =>
    obtain ⟨hg1, hu1⟩ := hkeep (own_aside h1)
    exact (h.own h1).fair h2 (going_safe hg1 hu1)
  | wait _ h1 h2 =>
    obtain ⟨hg1, hu1⟩ := hkeep (own_aside h1)
    exact (h.own h1).wait h2 hg1.2 (going_safe hg1 hu1) (.inl rfl)
  | reply _ h1 h2 => exact (h.fair h1 trivial).own h2
  | terminate hc he => exact h.ends he (hw hc)
  | terminateOther hc _ _ h1 h2 h3 =>
    have hw := hw hc
    refine ((h.fair h1 trivial).fair h2 trivial).ends h3 ?_
    cases h1
    cases h2
    exact hw

/-! ## 4. The scheduler -/

theorem not_collecting (h : Ordered none none i)
    (hf : i.future t = some (.receiveMessage sidx)) (hs : i.servers sidx = some s)
    (hmsg : s.tailGeneration ≠ s.headGeneration) : False := by
  obtain ⟨s', hs', -, hbit⟩ := h.receiving t sidx hf (by simp)
  rw [hs] at hs'
  cases hs'
  refine hmsg ((h.sound sidx s hs).generations fun hzero => ?_)
  simp [hzero] at hbit

theorem reparks (h : Ordered none dying i) (hd : Reparks i j) : Ordered none dying j := h.gently hd fun l i hl => by
    obtain ⟨t, rfl, -⟩ := hl
    trivial

theorem polls (h : Ordered none none i) (hr : i.state t = .ready) (hp : Polls t i j) :
    Ordered none none j ∧ Going t j := by
  cases hp with
  | none hf hj =>
    subst hj
    exact ⟨h, hr, hf⟩
  | complete hm =>
    refine ⟨h.fair hm trivial, ?_⟩
    cases hm
    exact ⟨hr, setFuture_self ..⟩
  | collect hf hs _ hmsg _ _ _ => exact (h.not_collecting hf hs hmsg).elim

theorem resumes (h : Ordered none none i) (hg : Going t i) (hr : Resumes t i j) :
    Ordered none none j ∧ Going j.current j ∧ j.current = t := by
  cases hr with
  | same ht hj =>
    subst hj ht
    exact ⟨h, hg, rfl⟩
  | switch hm =>
    have hj := h.fair hm trivial
    cases hm with
    | switch _ _ ht =>
      rcases ht with ⟨rfl, -⟩ | ⟨-, hal⟩
      · have hcur : current { i with pid := t.1, tid := Function.update i.tid t.1 t.2 } = t :=
          Prod.ext rfl (Function.update_self ..)
        rw [hcur]
        exact ⟨hj, hg, rfl⟩
      · have hfree : i.state t ≠ .free := by rw [hg.1]; decide
        rw [(h.allocated t hfree).1] at hal
        cases hal

/-- **The scheduler chooses a thread that can run**, and nobody else's future completes. -/
theorem schedules (h : Ordered none none i) (hs : Schedules i j) : Ordered none none j ∧ Going j.current j := by
  obtain ⟨i1, h1, h2⟩ := hs
  have ho := h.reparks h1
  cases h2 with
  | nobody hn hj =>
    rcases hn with hirq | hnone
    · rw [ho.irq] at hirq
      cases hirq
    · exact absurd ho.idle (hnone idleThread (by decide))
  | thread hr _ hp hres =>
    obtain ⟨ho2, hg⟩ := ho.polls hr hp
    obtain ⟨hoj, hgj, -⟩ := ho2.resumes hg hres
    exact ⟨hoj, hgj⟩

theorem not_failing (h : Ordered none none i) (hf : Fails i j) : False := by
  obtain ⟨i1, t, sidx, h1, h2⟩ := hf
  obtain ⟨s, hs, hpid, -⟩ := (h.reparks h1).receiving t sidx h2.future (by simp)
  exact h2.server s hs hpid

theorem asks (h : Ordered none none i) (hs : Asks i j) : Ordered none none j ∧ Going j.current j :=
  hs.elim h.schedules fun hf => (h.not_failing hf).elim

/-! ## 5. Events -/

/-- What the order needs of an event. -/
def Admits (N : Server → Prop) (i j : Ipc) : Event → Prop
  | .svc _ call => Allows N call i j
  | .abort _ => FirstWaits i
  | _ => True

/-- What holds between events. -/
structure Quiescent (i : Ipc) : Prop where
  order : Ordered none none i
  going : Going i.current i

theorem Quiescent.aside (h : Quiescent i) (ho : Ordered none none j) (hd : Does Label.Aside i j) :
    Quiescent j := by
  refine ⟨ho, ?_⟩
  rw [aside_current hd h.order.toBasic]
  exact h.going.aside hd

theorem Quiescent.regs (h : Quiescent i) (hm : Move (.regs t) i j) : Quiescent j :=
  h.aside (h.order.fair hm trivial) (.single (by trivial) hm)

theorem Allows.regs {i' j' : Ipc} (h : Allows N call i j)
    (hm : Move (.regs t) i i') (hm' : Move (.regs t) j' j) : Allows N call i' j' := by
  cases hm
  cases hm'
  exact ⟨h.clean, h.vacant, h.display⟩

theorem FirstWaits.regs {i' : Ipc} (h : FirstWaits i) (hm : Move (.regs t) i i') : FirstWaits i' := by
  cases hm
  exact h

/-- **One event**: the order survives, and the thread that runs next is going. -/
theorem reacts {e : Event} (h : Quiescent i) (hr : Reacts N i j e)
    (ha : Admits N i j e) (hu : i.pid ≠ PID.kernel ∨ ∃ chars, e = .idle chars) : Quiescent j := by
  have hpid : ∀ {i1}, Move (.regs i.current) i i1 → (∀ chars, e ≠ .idle chars) → i1.pid ≠ PID.kernel := fun hm he => by
    cases hm
    exact hu.resolve_right fun ⟨chars, hc⟩ => he chars hc
  cases hr with
  | store hj => exact hj ▸ h
  | stays h1 h2 h3 =>
    have h' := h.regs h1
    exact (h'.aside (h'.order.stays h2 (Allows.regs ha h1 h3)) (stays_aside h2)).regs h3
  | yields h1 h2 h3 =>
    have h' := h.regs h1
    obtain ⟨hoj, hgj⟩ := (h'.order.yields h2 (fun hc => (ha.display hc).regs h1) h'.going
      (hpid h1 (by simp))).schedules h3
    exact ⟨hoj, hgj⟩
  | fails h1 h2 h3 h4 =>
    have h' := h.regs h1
    exact ((h'.order.yields h2 (fun hc => (ha.display hc).regs h1) h'.going (hpid h1 (by simp))).not_failing h3).elim
  | invalid hd => exact h.aside (h.order.own hd) (own_aside hd)
  | timer h1 h2 h3 =>
    obtain ⟨hoj, hgj⟩ := ((h.regs h1).order.quietly h2).1.asks h3
    exact ⟨hoj, hgj⟩
  | input h1 h2 =>
    have h' := h.regs h1
    exact h'.aside (h'.order.quietly h2).1 (quiet_aside h2)
  | abort h1 h2 h3 =>
    obtain ⟨hoj, hgj⟩ := ((h.regs h1).order.ends h2 (FirstWaits.regs ha h1)).asks h3
    exact ⟨hoj, hgj⟩
  | idle h1 h2 =>
    obtain ⟨hoj, hgj⟩ := (h.order.quietly h1).1.asks h2
    exact ⟨hoj, hgj⟩

end Ordered

end BeetKernel.Ipc

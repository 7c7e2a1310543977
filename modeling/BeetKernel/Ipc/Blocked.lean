/-
# A thread blocked in `AcquireDisplay`

Such a thread has the future `waitDisplay` and an empty mailbox.  Both stay as they are through every
event in order, whatever the other threads do, until the thread is handed the display or its process
ends: no message is handed to it, no slot names it, and the scheduler parks it again when it polls it.
-/
import BeetKernel.Ipc.Order

namespace BeetKernel.Ipc

open Kernel (Event)

variable {i j : Ipc} {t u : ThreadId} {sender : Option ThreadId} {dying : Option PID}

/-- The thread waits for the display, and nobody has answered it. -/
structure Blocked (t : ThreadId) (i : Ipc) : Prop where
  future : i.future t = some .waitDisplay
  mailbox : i.mailbox t = none

/-! ## 1. One move -/

namespace Blocked

theorem of_same (h : Blocked t i) (hf : j.future = i.future) (hm : j.mailbox = i.mailbox) : Blocked t j :=
  ⟨hf ▸ h.future, hm ▸ h.mailbox⟩

theorem setState {st : ThreadState} (h : Blocked t i) (hs : SetState u st i j) : Blocked t j :=
  h.of_same hs.future (by rw [hs.rest])

theorem setMailbox {r : Option Result} (h : Blocked t i) (hne : t ≠ u) : Blocked t (i.setMailbox u r) :=
  ⟨h.future, (setMailbox_of_ne _ hne _).trans h.mailbox⟩

theorem setFuture {f : Option KernelFuture} (h : Blocked t i) (hne : t ≠ u) : Blocked t (i.setFuture u f) :=
  ⟨(setFuture_of_ne _ hne _).trans h.future, h.mailbox⟩

theorem readied (h : Blocked t i) (hr : Readied u i j) : Blocked t j := by
  obtain ⟨ctx, -, hs⟩ := hr
  exact setState (i := { i with context := ctx }) ⟨h.future, h.mailbox⟩ hs

theorem ne_of_future {f : KernelFuture} (h : Blocked t i) (hu : i.future u = some f)
    (hf : f ≠ .waitDisplay) : t ≠ u := by
  rintro rfl
  exact hf (Option.some.inj (hu.symm.trans h.future))

theorem ne_of_going (h : Blocked t i) (hg : Going u i) : t ≠ u := by
  rintro rfl
  have := h.future.symm.trans hg.2
  cases this

theorem answered {r : Result} (h : Blocked t i) (hne : t ≠ u) (ha : Answered u r i j) : Blocked t j := by
  cases ha with
  | posted _ hs => exact (h.setMailbox hne).setState hs
  | direct _ hr => exact h.readied hr
  | gone _ hj =>
    rcases hj with rfl | rfl
    · exact h
    · exact h.of_same rfl rfl

theorem answered_waiters {r : Result} (ha : Answered u r i j) : j.waiters = i.waiters := by
  cases ha with
  | posted _ hs => exact hs.waiters
  | direct _ hr =>
    obtain ⟨ctx, -, hs⟩ := hr
    exact hs.waiters
  | gone _ hj => rcases hj with rfl | rfl <;> rfl

theorem wakes (h : Blocked t i) (hw : Wakes i j) : Blocked t j := by
  induction hw with
  | refl => exact h
  | tail _ hlast ih =>
    obtain ⟨u, -, -, hs⟩ := hlast
    exact ih.setState hs

theorem wait {f : KernelFuture} (h : Blocked t i) (hm : Move (.wait f) i j) (hne : t ≠ i.current) :
    Blocked t j := by
  cases hm with
  | wait _ hs => exact (h.setFuture hne).setState hs
  | @receive _ _ sidx s s' _ _ _ _ hs =>
    have hrest : Blocked t (i.setServer sidx (some s')) := ⟨h.future, h.mailbox⟩
    exact (hrest.setFuture hne).setState hs

theorem quiet (h : Blocked t i) (ho : Ordered sender dying i) (hm : Move .quiet i j) : Blocked t j := by
  cases hm with
  | wake _ _ hr => exact h.readied hr
  | @handOver _ _ sidx s s' tid hs hh hr =>
    have hrec := ho.receiver sidx _ ((parkedAt_self hs).mpr hh.was)
    have hrest : Blocked t (i.setServer sidx (some s')) := ⟨h.future, h.mailbox⟩
    exact (hrest.setFuture (h.ne_of_future hrec nofun)).readied hr
  | post hf _ hd _ hs => exact (h.setMailbox (h.ne_of_future hf hd)).setState hs
  | touch | lose | rotate | priority | relink => exact h.of_same rfl rfl

end Blocked

/-- The move does not concern the thread: it is neither handed the display nor ended, and it is not
the one that makes a call. -/
def Label.Spares (t : ThreadId) (i : Ipc) : Label → Prop
  | .display u => t ≠ u
  | .kill u => t ≠ u
  | .gone pid => t.1 ≠ pid
  | .wait _ => t ≠ i.current
  | _ => True

/-- **One move**: a blocked thread that it does not concern stays blocked. -/
theorem Blocked.move {l : Label} (h : Blocked t i) (ho : Ordered none dying i) (hm : Move l i j)
    (hl : l.Spares t i) : Blocked t j := by
  cases hm with
  | wake hr hf hrd => exact h.quiet ho (.wake hr hf hrd)
  | touch hs ht => exact h.quiet ho (.touch hs ht)
  | handOver hs hh hrd => exact h.quiet ho (.handOver hs hh hrd)
  | lose hs hh hp hctx => exact h.quiet ho (.lose hs hh hp hctx)
  | post hf hb hd hr hst => exact h.quiet ho (.post hf hb hd hr hst)
  | rotate hrun => exact h.quiet ho (.rotate hrun)
  | priority hready hother => exact h.quiet ho (.priority hready hother)
  | relink hr => exact h.quiet ho (.relink hr)
  | regs | send | drop | enter | leave | create | close | strike | load | activate | switch =>
    exact h.of_same rfl rfl
  | @reply _ _ _ sidx slot s s' u r hs _ hrem hw ha =>
    have hnamed : i.NamedAt sidx slot u := (namedAt_iff hs).mpr hrem.named
    have hne := h.ne_of_future (ho.blocked sidx slot u hnamed (by simp)).1 nofun
    have hrest : Blocked t (i.setServer sidx (some s')) := ⟨h.future, h.mailbox⟩
    exact (hrest.wakes hw).answered hne ha
  | wait hf hs => exact h.wait (.wait hf hs) hl
  | receive hs hpid hparks hset => exact h.wait (.receive hs hpid hparks hset) hl
  | pause _ _ hs => exact h.setState hs
  | display ha => exact h.answered hl ha
  | release hs => exact setState (i := i.deliver _ _) ⟨h.future, h.mailbox⟩ hs
  | kill hs => exact ((h.setFuture hl).setMailbox hl).setState hs
  | gone => exact ⟨(if_neg hl).trans h.future, (if_neg hl).trans h.mailbox⟩
  | @thread _ _ u _ _ _ hr =>
    have hrest : Blocked t { i with allocated := Function.update i.allocated u true } := h.of_same rfl rfl
    exact hrest.readied hr
  | spawn _ _ _ hfree =>
    have hne : t.1 ≠ _ := fun hpid => ho.waiting t (by simp [h.future]) (hfree t hpid)
    exact ⟨(if_neg hne).trans h.future, (if_neg hne).trans h.mailbox⟩
  | @complete _ u _ _ _ _ _ hmail =>
    have hne : t ≠ u := by
      rintro rfl
      rw [h.mailbox] at hmail
      cases hmail
    exact ((h.setFuture hne).setMailbox hne).of_same rfl rfl
  | collect _ hf => exact (h.setFuture (h.ne_of_future hf nofun)).of_same rfl rfl
  | repark _ _ hs => exact h.setState hs

/-! ## 2. Sequences of moves -/

namespace Blocked

theorem quietly (h : Blocked t i) (ho : Ordered sender dying i) (hd : Does Quiet i j) : Blocked t j := by
  refine (Moves.invariant (P := fun i' => Ordered sender dying i' ∧ Blocked t i') ?_ hd ⟨ho, h⟩).2
  rintro l a b rfl hm ⟨ha, hb⟩
  exact ⟨ha.quiet hm, hb.quiet ha hm⟩

/-- Labels that are fair wherever they occur, and do not concern the thread. -/
theorem gently {A : Label → Prop} (h : Blocked t i) (ho : Ordered none dying i) (hd : Does A i j)
    (hA : ∀ l i, A l → l.Fair dying i ∧ l.Spares t i) : Blocked t j := by
  refine (Moves.invariant (P := fun i' => Ordered none dying i' ∧ Blocked t i') ?_ hd ⟨ho, h⟩).2
  rintro l a b hl hm ⟨ha, hb⟩
  exact ⟨ha.fair hm (hA l a hl).1, hb.move ha hm (hA l a hl).2⟩

theorem own (h : Blocked t i) (ho : Ordered none dying i) (hd : Does (Own u) i j) : Blocked t j := by
  refine h.gently ho hd fun l i hl => ?_
  rcases hl with rfl | rfl | rfl <;> exact ⟨trivial, trivial⟩

theorem destroys {sidx : Nat} {s : Server} (h : Blocked t i) (ho : Ordered none dying i)
    (hd : Destroys sidx s i j) (hp : ∀ t, i.ParkedAt sidx t → some t.1 = dying) : Blocked t j := by
  have hclose : Ordered none dying (i.setServer sidx none) := ho.fair .close hp
  suffices hP : (Ordered none dying j ∧ ∀ t, Mentions s t → j.state t ≠ .free) ∧ Blocked t j from hP.2
  refine Moves.invariant (P := fun i' => (Ordered none dying i' ∧ ∀ t, Mentions s t → i'.state t ≠ .free) ∧
    Blocked t i') ?_ hd.rest ⟨⟨hclose, ho.mentions_alive hd.was⟩, h.of_same rfl rfl⟩
  rintro l a b hl hm ⟨⟨ha, hst⟩, hb⟩
  rcases hl with rfl | ⟨u, rfl, hu⟩
  · exact ⟨⟨ha.quiet hm, fun t ht => hm.stays_alive (hst t ht)⟩, hb.quiet ha hm⟩
  · refine ⟨⟨ha.fair hm (hst u hu), fun t ht => ?_⟩, hb.move ha hm trivial⟩
    cases hm with
    | release hs =>
      have hdeliver : (a.deliver u (.error .serverNotFound)).state t ≠ .free := hst t ht
      exact hs.stays_alive hdeliver

/-- The thread is in the ring, of living threads, and it is still there afterwards. -/
structure Remains (t : ThreadId) (i j : Ipc) : Prop where
  nodup : i.waiters.Nodup
  alive : ∀ u ∈ i.waiters, i.parent u.1 ≠ none
  stays : t ∈ j.waiters

theorem Remains.of_same {i' j' : Ipc} (h : Remains t i j) (hw : i'.waiters = i.waiters)
    (hp : i'.parent = i.parent) (hw' : j'.waiters = j.waiters) : Remains t i' j' :=
  ⟨hw ▸ h.nodup, by rw [hw, hp]; exact h.alive, hw' ▸ h.stays⟩

theorem passes (h : Blocked t i) (ho : Ordered none dying i) (hp : Passes i j) (hn : Remains t i j) :
    Blocked t j := by
  cases hp with
  | nobody hd =>
    refine h.gently ho hd fun l i hl => ?_
    rcases hl with rfl | rfl <;> exact ⟨trivial, trivial⟩
  | @first i1 i2 i3 old rest u hlist hold hu h1 h2 h3 h4 =>
    subst h2
    have ho1 := (ho.quietly h1).1
    have hleave : Move .leave i1 { i1 with waiters := rest } := by
      refine .leave ?_
      rw [(Kernel.quiet_frame h1).waiters, hlist]
      exact ⟨old ++ [u], by simp⟩
    have ho2 := ho1.fair hleave trivial
    have h3' := ((h.quietly ho h1).move ho1 hleave trivial).quietly ho2 h3
    refine h3'.move (ho2.quietly h3).1 h4 ?_
    -- the one that is served has left the ring, and was there once
    have hrest : j.waiters = rest := by
      refine Eq.trans ?_ (Kernel.quiet_frame h3).waiters
      cases h4 with
      | display ha => exact answered_waiters ha
    rintro rfl
    have hnodup := hn.nodup
    rw [hlist, List.nodup_append] at hnodup
    exact (List.nodup_cons.mp hnodup.2.1).1 (hrest ▸ hn.stays)

variable {pid : PID}

theorem withdraws (h : Blocked t i) (ho : Ordered none (some pid) i)
    (hd : Relation.ReflTransGen (Withdraws pid) i j) : Blocked t j := by
  induction hd with
  | refl => exact h
  | tail hrest hlast ih =>
    cases hlast with
    | own hpid hd =>
      refine ih.destroys (ho.withdraws hrest).1 hd fun t ht => ?_
      obtain ⟨s', hs', hpid', -⟩ := ht
      rw [hd.was] at hs'
      cases hs'
      rw [← hpid', hpid]
    | other _ heq => exact heq ▸ ih.of_same rfl rfl

/-- The threads of a process are ended that is not the thread's, and the ring stays as it is. -/
theorem kills (h : Blocked t i) (hd : Does (Killing pid) i j) (hpid : t.1 ≠ pid) :
    Blocked t j := by
  refine Moves.invariant (P := Blocked t) ?_ hd h
  rintro l a b ⟨tid, rfl, -, -⟩ hm ha
  cases hm with
  | kill hs =>
    have hne : t ≠ (pid, tid) := fun heq => hpid (congrArg Prod.fst heq)
    exact ((ha.setFuture hne).setMailbox hne).setState hs

theorem kills_waiters (hd : Does (Killing pid) i j) : j.waiters = i.waiters := by
  refine Moves.invariant (P := fun i' => i'.waiters = i.waiters) ?_ hd rfl
  rintro l a b ⟨tid, rfl, -, -⟩ hm ha
  cases hm with
  | kill hs => exact hs.waiters.trans ha

theorem gone_waiters (hm : Move (.gone pid) i j) : j.waiters = i.waiters ∧ j.parent pid = none := by
  cases hm with
  | gone hpid => exact ⟨rfl, hpid⟩

theorem ends (h : Blocked t i) (ho : Ordered none none i) (he : Ends i j) (hw : Ordered.FirstWaits i)
    (hn : Remains t i j) (hp : j.parent t.1 ≠ none) : Blocked t j := by
  obtain ⟨hk, i1, i2, i3, i4, i5, h1, hdrawn, h2, h3, h4, h5, h6⟩ := he
  have hpid : t.1 ≠ i.pid := fun heq => hp (heq ▸ (gone_waiters h6).2)
  obtain ⟨ho1, hhold1⟩ := (ho.die i.pid).withdraws h1
  obtain ⟨ho2, hhold2⟩ := ho1.quietly h2
  have hframe := trans_of Kernel.SameFrame (Ordered.withdraws_frame h1) (Kernel.quiet_frame h2)
  have hlater : i3.waiters = j.waiters := by
    rw [(gone_waiters h6).1, (Kernel.quiet_frame h5).waiters, kills_waiters h4]
  have hb3 := ((h.withdraws (ho.die i.pid) h1).quietly ho1 h2).passes ho2 h3
    (hn.of_same hframe.waiters hframe.parent hlater)
  have ho3 := ho2.passes h3 (Ordered.FirstWaits.of_frame hw hframe (trans_of Holding hhold1 hhold2))
  have hdrawn3 : Withdrawn i.pid i3 := Ordered.withdrawn_of_callers hdrawn
    (trans_of Kernel.SameCallers (Kernel.quiet_callers h2) (Kernel.passes_sheds h3).callers)
  have ho4 := ho3.kills hk hdrawn3 h4
  exact ((hb3.kills h4 hpid).quietly ho4 h5).move (ho4.quietly h5).1 h6 hpid

/-! ## 3. System calls and the scheduler -/

theorem stays {N : Server → Prop} {call : SysCall} (h : Blocked t i) (ho : Ordered none none i)
    (hs : Stays call N i j) (ha : Ordered.Allows N call i j) (hn : Remains t i j) : Blocked t j := by
  cases hs with
  | quiet hd => exact h.quietly ho hd
  | thread h1 h2 => exact (h.move ho h1 trivial).quietly (ho.fair h1 trivial) h2
  | spawn _ hd =>
    refine h.gently ho hd fun l i hl => ?_
    rcases hl with rfl | rfl | rfl <;> exact ⟨trivial, trivial⟩
  | create hc hN h1 h2 h3 =>
    have ho1 := (ho.quietly h1).1
    exact ((h.quietly ho h1).move ho1 h2 trivial).quietly (ho1.fair h2 (ha.clean hc _ hN)) h3
  | drop h1 h2 => exact (h.move ho h1 trivial).quietly (ho.fair h1 trivial) h2
  | display _ hp => exact h.passes ho hp hn
  | destroy hc hpid hd =>
    exact h.destroys ho hd fun t ht =>
      absurd ht (ha.vacant _ _ hc hd.was hpid (Ordered.destroys_absent hd) t)

/-- The thread that runs may suspend itself; it is not the blocked one. -/
theorem yields {call : SysCall} (h : Blocked t i) (ho : Ordered none none i) (hy : Yields call i j)
    (hw : call.FreesDisplay → Ordered.FirstWaits i) (hg : Going i.current i) (hn : Remains t i j)
    (hp : j.parent t.1 ≠ none) : Blocked t j := by
  have hne := h.ne_of_going hg
  have hcur : ∀ {i'}, Does Label.Aside i i' → t ≠ i'.current := fun hd => by
    rw [aside_current hd ho.toBasic]
    exact hne
  cases hy with
  | own hd => exact h.own ho hd
  | block h1 h2 h3 h4 =>
    have ho1 := (ho.quietly h1).1
    have hg1 := hg.aside (quiet_aside h1)
    rw [← aside_current (quiet_aside h1) ho.toBasic] at hg1
    have ho2 := ho1.send h2 hg1.2 (by rw [hg1.1]; decide)
    have hb2 := (h.quietly ho h1).move ho1 h2 trivial
    exact (hb2.quietly ho2 h3).wait h4 (hcur (((quiet_aside h1).snoc (by trivial) h2).trans (quiet_aside h3)))
  | pause h1 h2 => exact (h.own ho h1).move (ho.own h1) h2 trivial
  | wait _ h1 h2 => exact (h.own ho h1).move (ho.own h1) h2 (hcur (Ordered.own_aside h1))
  | reply _ h1 h2 => exact (h.move ho h1 trivial).own (ho.fair h1 trivial) h2
  | terminate hc he => exact h.ends ho he (hw hc) hn hp
  | terminateOther hc _ _ h1 h2 h3 =>
    have hw := hw hc
    have ho1 := ho.fair h1 trivial
    have ho2 := ho1.fair h2 trivial
    have hb2 := (h.move ho h1 trivial).move ho1 h2 trivial
    cases h1
    cases h2
    exact hb2.ends ho2 h3 hw (hn.of_same rfl rfl rfl) hp

theorem reparks_ring (hd : Reparks i j) : j.waiters = i.waiters ∧ j.parent = i.parent := by
  refine Moves.invariant (P := fun i' => i'.waiters = i.waiters ∧ i'.parent = i.parent) ?_ hd ⟨rfl, rfl⟩
  rintro l a b ⟨u, rfl, -⟩ hm ⟨hw, hp⟩
  cases hm with
  | repark _ _ hs => exact ⟨hs.waiters.trans hw, hs.parent.trans hp⟩

/-- **The scheduler** leaves blocked threads blocked, and the ring as it is. -/
theorem schedules (ho : Ordered none none i) (hs : Schedules i j) :
    (j.waiters = i.waiters ∧ j.parent = i.parent) ∧ ∀ t, Blocked t i → Blocked t j := by
  obtain ⟨i1, h1, h2⟩ := hs
  have ho1 := ho.reparks h1
  have hb1 : ∀ t, Blocked t i → Blocked t i1 := fun t h => h.gently ho h1 fun l i hl => by
    obtain ⟨u, rfl, -⟩ := hl
    exact ⟨trivial, trivial⟩
  rw [← (reparks_ring h1).1, ← (reparks_ring h1).2]
  cases h2 with
  | nobody _ hj =>
    subst hj
    exact ⟨⟨rfl, rfl⟩, hb1⟩
  | @thread i2 u hr _ hp hres =>
    have hpoll : (i2.waiters = i1.waiters ∧ i2.parent = i1.parent) ∧ ∀ t, Blocked t i1 → Blocked t i2 := by
      cases hp with
      | none _ hj =>
        subst hj
        exact ⟨⟨rfl, rfl⟩, fun _ h => h⟩
      | complete hm =>
        refine ⟨?_, fun t h => h.move ho1 hm trivial⟩
        cases hm
        exact ⟨rfl, rfl⟩
      | collect hf hs _ hmsg _ _ _ => exact (ho1.not_collecting hf hs hmsg).elim
    obtain ⟨hring, hb2⟩ := hpoll
    cases hres with
    | same _ hj =>
      subst hj
      exact ⟨hring, fun t h => hb2 t (hb1 t h)⟩
    | switch hm =>
      cases hm
      exact ⟨hring, fun t h => (hb2 t (hb1 t h)).of_same rfl rfl⟩

theorem asks (ho : Ordered none none i) (hs : Asks i j) :
    (j.waiters = i.waiters ∧ j.parent = i.parent) ∧ ∀ t, Blocked t i → Blocked t j :=
  hs.elim (schedules ho) fun hf => (ho.not_failing hf).elim

/-! ## 4. Events -/

/-- **One event**: a blocked thread whose process does not end and that stays in the ring is still
blocked. -/
theorem reacts {N : Server → Prop} {e : Event} (h : Blocked t i) (hq : Ordered.Quiescent i)
    (hr : Reacts N i j e) (ha : Ordered.Admits N i j e)
    (hu : i.pid ≠ PID.kernel ∨ ∃ chars, e = .idle chars) (hn : Remains t i j)
    (hp : j.parent t.1 ≠ none) : Blocked t j := by
  have hpid : ∀ {i1}, Move (.regs i.current) i i1 → (∀ chars, e ≠ .idle chars) → i1.pid ≠ PID.kernel := fun hm he => by
    cases hm
    exact hu.resolve_right fun ⟨chars, hc⟩ => he chars hc
  have hregs : ∀ {i1}, Move (.regs i.current) i i1 → Blocked t i1 ∧ Remains t i1 j := fun hm => by
    refine ⟨h.move hq.order hm trivial, ?_⟩
    cases hm
    exact hn.of_same rfl rfl rfl
  cases hr with
  | store hj => exact hj ▸ h
  | stays h1 h2 h3 =>
    have hq1 := hq.regs h1
    have hal := Ordered.Allows.regs ha h1 h3
    obtain ⟨hb1, hn1⟩ := hregs h1
    have hj : Blocked t _ := hb1.stays hq1.order h2 hal (by
      cases h3
      exact hn1.of_same rfl rfl rfl)
    exact hj.move (hq1.order.stays h2 hal) h3 trivial
  | yields h1 h2 h3 =>
    have hq1 := hq.regs h1
    have hw := fun hc => (ha.display hc).regs h1
    obtain ⟨hb1, hn1⟩ := hregs h1
    have ho2 := hq1.order.yields h2 hw hq1.going (hpid h1 (by simp))
    obtain ⟨⟨hring, hparent⟩, hb⟩ := schedules ho2 h3
    exact hb t (hb1.yields hq1.order h2 hw hq1.going (hn1.of_same rfl rfl hring.symm) (hparent ▸ hp))
  | fails h1 h2 h3 _ =>
    have hq1 := hq.regs h1
    exact ((hq1.order.yields h2 (fun hc => (ha.display hc).regs h1) hq1.going (hpid h1 (by simp))).not_failing h3).elim
  | invalid hd => exact h.own hq.order hd
  | timer h1 h2 h3 =>
    have ho1 := (hq.regs h1).order
    exact (asks (ho1.quietly h2).1 h3).2 t ((hregs h1).1.quietly ho1 h2)
  | input h1 h2 => exact (hregs h1).1.quietly (hq.regs h1).order h2
  | abort h1 h2 h3 =>
    have ho1 := (hq.regs h1).order
    have hw := Ordered.FirstWaits.regs ha h1
    obtain ⟨hb1, hn1⟩ := hregs h1
    obtain ⟨⟨hring, hparent⟩, hb⟩ := asks (ho1.ends h2 hw) h3
    exact hb t (hb1.ends ho1 h2 hw (hn1.of_same rfl rfl hring.symm) (hparent ▸ hp))
  | idle h1 h2 => exact (asks (hq.order.quietly h1).1 h2).2 t (h.quietly hq.order h1)

end Blocked

end BeetKernel.Ipc

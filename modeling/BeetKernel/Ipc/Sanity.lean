/-
# What holds of threads and servers however they got there

`Sane`: the scheduler's lists are the ready threads, and nothing refers to a thread that does
not exist.  It says nothing about who waits for what, and holds even in the states where a
thread runs that should be waiting.  A move keeps it under the condition `Label.Safe`, which
asks something only of the moves that name a thread of their own choice.
-/
import BeetKernel.Ipc.Basic

namespace BeetKernel.Ipc

variable {i j : Ipc} {t u : ThreadId}

/-- The kernel's own thread, which runs when nothing else can. -/
def idleThread : ThreadId := (PID.kernel, initialTid)

structure Sane (i : Ipc) : Prop extends Basic i where
  irq : i.scheduler.inIrqHandler = false
  allocated : ∀ t, i.state t ≠ .free → i.allocated t = true ∧ 1 ≤ t.2
  waiting : ∀ t, i.future t ≠ none → i.state t ≠ .free
  named : ∀ sidx slot t, i.NamedAt sidx slot t → i.state t ≠ .free
  parked : ∀ sidx t, i.ParkedAt sidx t → i.state t ≠ .free
  idle : i.state idleThread = .ready
  idleFuture : i.future idleThread = none

/-- What a move has to be about for sanity to survive it. -/
def Label.Safe (i : Ipc) : Label → Prop
  | .send .. | .wait _ | .pause => i.state i.current ≠ .free ∧ i.current ≠ idleThread
  | .display t | .release t => i.state t ≠ .free
  | .create _ s => ∀ slot, s.caller slot = none
  | .kill t => t.2 ≠ irqTid ∧ t ≠ idleThread ∧ (∀ sidx slot, ¬ i.NamedAt sidx slot t) ∧
      ∀ sidx, ¬ i.ParkedAt sidx t
  | .gone pid => pid ≠ PID.kernel ∧ ∀ t, t.1 = pid → i.state t = .free
  | _ => True

namespace Sane

section Moved

variable (h : Sane i)

include h

theorem user (ht : i.state t ≠ .free) : t.2 ≠ irqTid := Nat.ne_of_gt (h.allocated t ht).2

/-- Nothing refers to a missing thread as long as no thread goes and nothing new is referred to. -/
theorem keeps (hb : Basic j) (hirq : j.scheduler.inIrqHandler = false)
    (halloc : ∀ t, j.state t ≠ .free → j.allocated t = true ∧ 1 ≤ t.2)
    (hservers : j.servers = i.servers) (hfuture : ∀ t, j.future t ≠ none → i.future t ≠ none)
    (hlive : ∀ t, i.state t ≠ .free → j.state t ≠ .free) (hidle : j.state idleThread = .ready) :
    Sane j := by
  refine ⟨hb, hirq, halloc, ?_, ?_, ?_, hidle, ?_⟩
  · intro u hu
    exact hlive u (h.waiting u (hfuture u hu))
  · intro sidx slot u hu
    exact hlive u (h.named sidx slot u ((namedAt_congr hservers _ _ _).mp hu))
  · intro sidx u hu
    exact hlive u (h.parked sidx u ((parkedAt_congr hservers _ _).mp hu))
  · by_contra hne
    exact hfuture _ hne h.idleFuture

/-- A thread that exists changes its state and keeps existing. -/
theorem setState {st : ThreadState} (hs : SetState t st i j)
    (ht : i.state t ≠ .free) (hst : st ≠ .free) (hidle : t = idleThread → st = .ready) :
    Sane j := by
  have hfree : ∀ u, j.state u ≠ .free ↔ i.state u ≠ .free := by
    intro u
    by_cases hu : u = t
    · subst hu; simp [hs.state_self, ht, hst]
    · rw [hs.state_of_ne hu]
  apply h.keeps (h.toBasic.setState hs)
  · rw [hs.irq h.linked (h.user ht)]
    exact h.irq
  · intro u hu; rw [hs.allocated]; exact h.allocated u ((hfree u).mp hu)
  · exact hs.servers
  · intro u hu; rwa [hs.future] at hu
  · exact fun u => (hfree u).mpr
  · by_cases hi : idleThread = t
    · rw [hi, hs.state_self, hidle hi.symm]
    · rw [hs.state_of_ne hi, h.idle]

theorem withContext (ctx : ThreadId → Option Context) :
    Sane { i with context := ctx } :=
  ⟨h.toBasic.withContext ctx, h.irq, h.allocated, h.waiting, h.named, h.parked, h.idle, h.idleFuture⟩

theorem setMailbox (r : Option Result) : Sane (i.setMailbox t r) :=
  ⟨h.toBasic.setMailbox r, h.irq, h.allocated, h.waiting, h.named, h.parked, h.idle, h.idleFuture⟩

theorem readied (ht : i.state t ≠ .free) (hr : Readied t i j) : Sane j := by
  obtain ⟨ctx, _, hs⟩ := hr
  exact (h.withContext ctx).setState hs ht (by simp) (fun _ => rfl)

theorem setFuture {f : Option KernelFuture} (ht : f ≠ none → i.state t ≠ .free ∧ t ≠ idleThread)
    (hf : ∀ sidx, f = some (.receiveMessage sidx) → sidx < maxServerCount) :
    Sane (i.setFuture t f) := by
  refine ⟨h.toBasic.setFuture hf, h.irq, h.allocated, ?_, h.named, h.parked, h.idle, ?_⟩
  · intro u hu
    by_cases hut : u = t
    · subst hut
      rw [setFuture_self] at hu
      exact (ht hu).1
    · rw [setFuture_of_ne i hut] at hu
      exact h.waiting u hu
  · by_cases hi : idleThread = t
    · subst hi
      rw [setFuture_self]
      by_contra hne
      exact (ht hne).2 rfl
    · rw [setFuture_of_ne i hi, h.idleFuture]

theorem clearFuture : Sane (i.setFuture t none) := h.setFuture (fun hne => absurd rfl hne) (by simp)

theorem setServer {sidx : Nat} {s' : Server} (hb : Basic (i.setServer sidx (some s')))
    (hn : ∀ slot u, s'.caller slot = some u → i.state u ≠ .free)
    (hp : ∀ tid, s'.readyThreads.getLsbD tid = true → i.state (s'.pid, tid) ≠ .free) :
    Sane (i.setServer sidx (some s')) := by
  refine ⟨hb, h.irq, h.allocated, h.waiting, ?_, ?_, h.idle, h.idleFuture⟩
  · intro n slot u hu
    rcases namedAt_setServer.mp hu with ⟨-, hc⟩ | ⟨-, hc⟩
    · exact hn slot u hc
    · exact h.named n slot u hc
  · intro n u hu
    rcases parkedAt_setServer.mp hu with ⟨-, hpid, hb⟩ | ⟨-, hc⟩
    · have := hp u.2 hb
      rwa [hpid] at this
    · exact h.parked n u hc

section Servers

variable {sidx : Nat} {s s' : Server}

theorem server_named (hs : i.servers sidx = some s) (slot : Nat) (u : ThreadId)
    (hc : s.caller slot = some u) : i.state u ≠ .free :=
  h.named sidx slot u ((namedAt_iff hs).mpr hc)

theorem server_parked (hs : i.servers sidx = some s) (tid : TID)
    (hb : s.readyThreads.getLsbD tid = true) : i.state (s.pid, tid) ≠ .free :=
  h.parked sidx _ ((parkedAt_self hs).mpr hb)

/-- A server keeps its process and names or parks, beyond whom it did, only threads that exist. -/
theorem rewrite (hs : i.servers sidx = some s) (hpid : s'.pid = s.pid) (hbounds : s.InBounds → s'.InBounds)
    (hn : ∀ slot u, s'.caller slot = some u → s.caller slot = some u ∨ i.state u ≠ .free)
    (hp : ∀ tid, s'.readyThreads.getLsbD tid = true →
      s.readyThreads.getLsbD tid = true ∨ i.state (s.pid, tid) ≠ .free) :
    Sane (i.setServer sidx (some s')) := by
  apply h.setServer (h.toBasic.rewrite hs hpid hbounds)
  · intro slot u hc
    exact (hn slot u hc).elim (h.server_named hs slot u) id
  · intro tid hb
    rw [hpid]
    exact (hp tid hb).elim (h.server_parked hs tid) id

theorem touch (hs : i.servers sidx = some s) (ht : Touch s s') : Sane (i.setServer sidx (some s')) :=
  h.rewrite hs ht.receivers.1 ht.bounds (fun _ _ hc => .inl (ht.caller ▸ hc)) (fun _ hb => .inl (ht.receivers.2 ▸ hb))

theorem hands {tid : TID} (hs : i.servers sidx = some s) (hh : Hands tid s s') : Sane (i.setServer sidx (some s')) := by
  apply h.rewrite hs hh.pid hh.bounds
  · exact fun slot u hc => .inl (hh.caller ▸ hc)
  · intro n hb
    rw [hh.mask, Bool.and_eq_true] at hb
    exact .inl hb.1

theorem removes {slot : Nat} (hs : i.servers sidx = some s)
    (hr : Removes slot t s s') : Sane (i.setServer sidx (some s')) := by
  apply h.rewrite hs hr.receivers.1 hr.bounds
  · intro n u hc
    rw [hr.caller] at hc
    split at hc
    · cases hc
    · exact .inl hc
  · exact fun tid hb => .inl (hr.receivers.2 ▸ hb)

theorem adds {slot : Nat} (hs : i.servers sidx = some s) (ha : Adds slot t s s')
    (ht : i.state t ≠ .free) : Sane (i.setServer sidx (some s')) := by
  apply h.rewrite hs ha.receivers.1 ha.bounds
  · intro n u hc
    rw [ha.caller] at hc
    split at hc
    · cases hc; exact .inr ht
    · exact .inl hc
  · exact fun tid hb => .inl (ha.receivers.2 ▸ hb)

theorem parks {tid : TID} (hs : i.servers sidx = some s) (hp : Parks tid s s')
    (ht : i.state (s.pid, tid) ≠ .free) : Sane (i.setServer sidx (some s')) := by
  apply h.rewrite hs hp.pid hp.bounds
  · exact fun slot u hc => .inl (hp.caller ▸ hc)
  · intro n hb
    rw [hp.mask, Bool.or_eq_true, decide_eq_true_eq] at hb
    rcases hb with hb | rfl
    · exact .inl hb
    · exact .inr ht

theorem discards (pid : PID) (hs : i.servers sidx = some s) :
    Sane (i.setServer sidx (some (s.discardMessagesForPid pid))) := by
  refine h.setServer (h.toBasic.move (.strike hs) (by simp)) ?_ ?_
  · intro slot u hc
    rw [Server.caller_discardMessagesForPid, Option.filter_eq_some_iff] at hc
    exact h.server_named hs slot u hc.1
  · intro tid hb
    exact h.server_parked hs tid hb

theorem close : Sane (i.setServer sidx none) := ⟨h.toBasic.close sidx, h.irq, h.allocated, h.waiting,
    fun n slot u hu => h.named n slot u (namedAt_setServer_none.mp hu).2,
    fun n u hu => h.parked n u (parkedAt_setServer_none.mp hu).2, h.idle, h.idleFuture⟩

end Servers

theorem wakes (hw : Wakes i j) : Sane j := by
  induction hw with
  | refl => exact h
  | tail _ hlast ih =>
    obtain ⟨t, _, hf, hs⟩ := hlast
    exact ih.setState hs hf (by simp) (fun _ => rfl)

theorem answered {r : Result} (ht : i.state t ≠ .free) (ha : Answered t r i j) :
    Sane j := by
  cases ha with
  | posted _ hs => exact (h.setMailbox _).setState hs ht (by simp) (fun _ => rfl)
  | direct _ hr => exact h.readied ht hr
  | gone _ heq =>
    rcases heq with rfl | rfl
    · exact h
    · exact h.withContext _

end Moved

theorem spawn {pid : PID} (h : Sane i) (hm : Move (.spawn pid) i j) : Sane j := by
  have hbasic := h.toBasic.spawn hm
  cases hm with
  | @spawn _ _ parent s' ctx hn hpid hparent hfree hctx hrun =>
    have hkernel : PID.kernel ≠ pid := by
      rintro rfl
      rw [h.system] at hn
      cases hn
    have hold : ∀ t : ThreadId, i.state t ≠ .free → t.1 ≠ pid := fun t ht hp => ht (hfree t hp)
    apply h.keeps hbasic
    · obtain ⟨L, hr, hmem⟩ := h.linked
      have hun : ∀ q, (pid, initialTid) ∉ L q := fun q hq => by
        have := ((hmem _ q).mp hq).2.1
        rw [hfree _ rfl] at this
        cases this
      exact ((repr_ready hr (by simp [initialTid, irqTid]) hun hrun).2).trans h.irq
    · intro t ht
      by_cases htp : t.1 = pid
      · simp only [htp, if_true] at ht ⊢
        by_cases ht2 : t.2 = initialTid
        · simp [ht2, initialTid]
        · simp [ht2] at ht
      · simp only [htp, if_false] at ht ⊢
        exact h.allocated t ht
    · rfl
    · intro t ht
      by_cases htp : t.1 = pid
      · simp [htp] at ht
      · simpa [htp] using ht
    · intro t ht
      simpa [hold t ht] using ht
    · simpa [idleThread, hkernel] using h.idle

theorem gone {pid : PID} (h : Sane i) (hm : Move (.gone pid) i j) (hk : pid ≠ PID.kernel)
    (hfree : ∀ t : ThreadId, t.1 = pid → i.state t = .free) : Sane j := by
  have hbasic := h.toBasic.gone hm hk
  cases hm with
  | gone hpid hp hkilled hclosed =>
    have hold : ∀ t : ThreadId, i.state t ≠ .free → t.1 ≠ pid := fun t ht hp => ht (hfree t hp)
    have hnew : ∀ t : ThreadId, (if t.1 = pid then ThreadState.free else i.state t) ≠ .free → i.state t ≠ .free := by
      intro t ht
      by_cases htp : t.1 = pid
      · simp [htp] at ht
      · simpa [htp] using ht
    apply h.keeps hbasic h.irq
    · intro t ht
      have ht' := hnew t ht
      simpa [hold t ht'] using h.allocated t ht'
    · rfl
    · intro t ht
      by_cases htp : t.1 = pid
      · simp [htp] at ht
      · simpa [htp] using ht
    · intro t ht
      simpa [hold t ht] using ht
    · simpa [idleThread, Ne.symm hk] using h.idle

theorem kill (h : Sane i) (hs : SetState t .free ((i.setFuture t none).setMailbox t none) j)
    (huser : t.2 ≠ irqTid) (hidle : t ≠ idleThread)
    (hnamed : ∀ sidx slot, ¬ i.NamedAt sidx slot t)
    (hparked : ∀ sidx, ¬ i.ParkedAt sidx t) : Sane j := by
  have hold : ∀ u, j.state u ≠ .free → i.state u ≠ .free := by
    intro u hu
    by_cases hut : u = t
    · exact absurd (hut ▸ hs.state_self) hu
    · rw [hs.state_of_ne hut] at hu
      exact hu
  have hother : ∀ u, u ≠ t → i.state u ≠ .free → j.state u ≠ .free := fun u hut hu => by
    rw [hs.state_of_ne hut]
    exact hu
  have hlinked : ((i.setFuture t none).setMailbox t none).Linked := h.linked
  constructor
  · exact (h.toBasic.clearFuture.setMailbox none).setState hs
  · have hirq : ((i.setFuture t none).setMailbox t none).scheduler.inIrqHandler = false := h.irq
    rw [hs.irq hlinked huser]
    exact hirq
  · intro u hu
    rw [hs.allocated]
    exact h.allocated u (hold u hu)
  · intro u hu
    rw [hs.future] at hu
    by_cases hut : u = t
    · subst hut
      exact absurd (setFuture_self i u none) hu
    · have hfu : ((i.setFuture t none).setMailbox t none).future u = i.future u := setFuture_of_ne i hut none
      rw [hfu] at hu
      exact hother u hut (h.waiting u hu)
  · intro sidx slot u hu
    have hu' : i.NamedAt sidx slot u := (namedAt_congr hs.servers _ _ _).mp hu
    exact hother u (fun hut => hnamed sidx slot (hut ▸ hu')) (h.named sidx slot u hu')
  · intro sidx u hu
    have hu' : i.ParkedAt sidx u := (parkedAt_congr hs.servers _ _).mp hu
    exact hother u (fun hut => hparked sidx (hut ▸ hu')) (h.parked sidx u hu')
  · rw [hs.state_of_ne (Ne.symm hidle)]
    exact h.idle
  · rw [hs.future]
    exact (setFuture_of_ne i (Ne.symm hidle) none).trans h.idleFuture

theorem thread (h : Sane i) (hm : Move (.thread t) i j) : Sane j := by
  have hbasic := h.toBasic.move hm (by simp)
  cases hm with
  | thread hpid hn hr hrd =>
    obtain ⟨ctx, _, hs⟩ := hrd
    have hfree : i.state t = .free := by
      by_contra hne
      rw [(h.allocated t hne).1] at hn
      cases hn
    have hne : ∀ u, i.state u ≠ .free → u ≠ t := fun u hu hut => hu (hut ▸ hfree)
    have hother : ∀ u, i.state u ≠ .free → j.state u ≠ .free := fun u hu => by
      rw [hs.state_of_ne (hne u hu)]
      exact hu
    have hlinked : ({ i with
        allocated := Function.update i.allocated t true, context := ctx } : Ipc).Linked := h.linked
    apply h.keeps hbasic
    · rw [hs.irq hlinked (Nat.ne_of_gt hr.1)]
      exact h.irq
    · intro u hu
      rw [hs.allocated]
      rcases eq_or_ne u t with rfl | hut
      · exact ⟨Function.update_self .., hr.1⟩
      · rw [hs.state_of_ne hut] at hu
        exact ⟨(Function.update_of_ne hut ..).trans (h.allocated u hu).1, (h.allocated u hu).2⟩
    · exact hs.servers
    · intro u hu
      rwa [hs.future] at hu
    · exact hother
    · have hidle : i.state idleThread ≠ .free := by rw [h.idle]; simp
      rw [hs.state_of_ne (hne _ hidle)]
      exact h.idle

/-- **Every safe move keeps the system sane.** -/
theorem move {l : Label} (hm : Move l i j) (hsafe : l.Safe i) (h : Sane i) : Sane j := by
  cases hm with
  | wake hr hf hrd => exact h.readied hf hrd
  | touch hs ht => exact h.touch hs ht
  | lose hs _ hp _ => exact absurd hp (h.owners _ _ hs)
  | @handOver _ _ sidx s s' tid hs hh hrd =>
    have h' := (h.hands hs hh).clearFuture (t := (s.pid, tid))
    exact h'.readied (h.server_parked hs tid hh.was) hrd
  | post hf _ _ _ hs =>
    exact (h.setMailbox _).setState hs (h.waiting _ (by simp [hf])) (by simp) (fun _ => rfl)
  | rotate hrun =>
    exact ⟨h.toBasic.move (.rotate hrun) (by simp), (h.linked.yield hrun).2.trans h.irq, h.allocated,
      h.waiting, h.named, h.parked, h.idle, h.idleFuture⟩
  | @priority _ t p s1 s' hready hother =>
    refine ⟨h.toBasic.move (.priority hready hother) (by simp), ?_, h.allocated, h.waiting, h.named,
      h.parked, h.idle, h.idleFuture⟩
    by_cases ht : i.state t = .ready
    · obtain ⟨hpark, hrun⟩ := hready ht
      have huser := h.user (t := t) (by simp [ht])
      obtain ⟨L, hr, hmem⟩ := h.linked
      obtain ⟨hr1, hirq1⟩ := repr_park hr ((hmem t _).mpr ⟨huser, ht, rfl⟩) hpark
      refine ((repr_ready hr1 huser (fun q hq => ?_) hrun).2).trans (hirq1.trans h.irq)
      by_cases hq' : q = (i.priority t).toIndex
      · subst hq'
        rw [Function.update_self] at hq
        exact (hr.nodup _).not_mem_erase hq
      · rw [Function.update_of_ne hq'] at hq
        exact hq' ((hmem t q).mp hq).2.2.symm
    · rw [hother ht]
      exact h.irq
  | relink hr =>
    exact ⟨h.toBasic.relink hr, h.irq, h.allocated, h.waiting, h.named, h.parked, h.idle, h.idleFuture⟩
  | regs _ => exact h.withContext _
  | send hs ha => exact h.adds hs ha hsafe.1
  | @reply _ i1 _ sidx slot s s' t r hs _ hrem hw ha =>
    have ht : i.state t ≠ .free := h.server_named hs slot t hrem.named
    exact ((h.removes hs hrem).wakes hw).answered (fun hf => ht ((hw.state t).2.mp hf)) ha
  | drop hs _ hrem => exact h.removes hs hrem
  | wait hm hs =>
    have h' := h.setFuture (fun _ => hsafe) fun n heq => absurd (Option.some.inj heq) (hm n)
    exact h'.setState hs hsafe.1 (by simp) fun hidle => absurd hidle hsafe.2
  | @receive _ _ sidx s s' mask hs hpid hp hst =>
    have hcur : (s.pid, i.current.2) = i.current := by rw [hpid]; rfl
    have hlt : ∀ n, some (KernelFuture.receiveMessage sidx) = some (.receiveMessage n) →
        n < maxServerCount := fun n heq => by
      cases heq
      exact h.table sidx s hs
    have h' := (h.parks hs hp (hcur ▸ hsafe.1)).setFuture (t := i.current) (fun _ => hsafe) hlt
    exact h'.setState hst hsafe.1 (by simp) fun hidle => absurd hidle hsafe.2
  | pause hr hf hs => exact h.setState hs hsafe.1 hf fun hidle => absurd hidle hsafe.2
  | enter =>
    exact ⟨h.toBasic.move .enter (by simp), h.irq, h.allocated, h.waiting, h.named, h.parked, h.idle, h.idleFuture⟩
  | leave hws =>
    exact ⟨h.toBasic.move (.leave hws) (by simp), h.irq, h.allocated, h.waiting, h.named, h.parked, h.idle,
      h.idleFuture⟩
  | display ha => exact h.answered hsafe ha
  | create hlt hs hpid hb hbounds =>
    refine h.setServer (h.toBasic.move (.create hlt hs hpid hb hbounds) (by simp))
      (fun slot u hc => ?_) (fun tid hbit => ?_)
    · rw [hsafe slot] at hc; cases hc
    · rw [hb] at hbit; simp at hbit
  | close => exact h.close
  | release hs => exact (h.withContext _).setState hs hsafe (by simp) (fun _ => rfl)
  | strike hs => exact h.discards _ hs
  | @kill _ _ t hs =>
    obtain ⟨huser, hidle, hnamed, hparked⟩ := hsafe
    exact h.kill hs huser hidle hnamed hparked
  | gone hpid hp hkilled hclosed => exact h.gone (.gone hpid hp hkilled hclosed) hsafe.1 hsafe.2
  | thread hpid hn hr hrd => exact h.thread (.thread hpid hn hr hrd)
  | spawn hn hpid hparent hfree hctx hrun =>
    exact h.spawn (.spawn hn hpid hparent hfree hctx hrun)
  | load _ => exact h.withContext _
  | activate hp =>
    exact ⟨h.toBasic.move (.activate hp) (by simp), h.irq, h.allocated, h.waiting, h.named, h.parked,
      h.idle, h.idleFuture⟩
  | complete _ _ _ _ =>
    exact (h.clearFuture.setMailbox _).withContext _
  | collect _ _ _ => exact h.clearFuture.withContext _
  | repark hr hf hs =>
    refine h.setState hs (by simp [hr]) (by simp) fun hidle => ?_
    rw [hidle, h.idleFuture] at hf
    cases hf
  | switch hr hu ht =>
    exact ⟨h.toBasic.move (.switch hr hu ht) (by simp), h.irq, h.allocated, h.waiting, h.named,
      h.parked, h.idle, h.idleFuture⟩

end Sane

end BeetKernel.Ipc

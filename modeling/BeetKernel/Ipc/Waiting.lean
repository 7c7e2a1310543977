/-
# Who waits for what

`Ordered`: every thread that waits in a call has exactly one reason to.  A thread on a server's
mask of receivers has the future that says so, and the other way round; a slot names a thread
only while that thread waits for its reply, and no two slots name the same one; a result in a
mailbox belongs to a thread that will look there.

Two kinds of state in the middle of a system call are allowed for.  While a blocking message
is being sent, its sender is named by a slot and does not wait yet: it is the `sender` of the
invariant.  While a process is being torn down, its receivers have outlived their servers: it
is the `dying` process.
-/
import BeetKernel.Ipc.Sanity

namespace BeetKernel.Ipc

variable {i j : Ipc} {t u : ThreadId} {sender : Option ThreadId} {dying : Option PID}

structure Ordered (sender : Option ThreadId) (dying : Option PID) (i : Ipc) : Prop
    extends Sane i where
  receiver : ∀ sidx t, i.ParkedAt sidx t → i.future t = some (.receiveMessage sidx)
  receiving : ∀ t sidx, i.future t = some (.receiveMessage sidx) → some t.1 ≠ dying → i.ParkedAt sidx t
  sound : ∀ sidx s, i.servers sidx = some s → s.Sound
  blocked : ∀ sidx slot t, i.NamedAt sidx slot t → some t ≠ sender →
    i.future t = some .waitBlocking ∧ i.mailbox t = none
  unique : ∀ t sidx slot sidx' slot', i.NamedAt sidx slot t → i.NamedAt sidx' slot' t → sidx = sidx' ∧ slot = slot'
  addressed : ∀ t, i.mailbox t ≠ none → ∃ f, i.future t = some f ∧ ∀ sidx, f ≠ .receiveMessage sidx

namespace Ordered

theorem no_mail (h : Ordered sender dying i) (ht : i.future t = none) : i.mailbox t = none := by
  by_contra hne
  obtain ⟨f, hf, _⟩ := h.addressed t hne
  rw [ht] at hf
  cases hf

theorem not_named (h : Ordered none dying i) (ht : i.future t = none) (sidx slot : Nat) :
    ¬ i.NamedAt sidx slot t := fun hn => by
  rw [(h.blocked sidx slot t hn (by simp)).1] at ht
  cases ht

/-- Nothing but thread states changes. -/
theorem of_frame (h : Ordered sender dying i) (hsane : Sane j) (hs : j.servers = i.servers)
    (hf : j.future = i.future) (hm : j.mailbox = i.mailbox) : Ordered sender dying j where
  toSane := hsane
  receiver sidx t hp := by rw [hf]; exact h.receiver sidx t ((parkedAt_congr hs _ _).mp hp)
  receiving t sidx ht hd := (parkedAt_congr hs _ _).mpr (h.receiving t sidx (hf ▸ ht) hd)
  sound sidx s hsx := h.sound sidx s (hs ▸ hsx)
  blocked sidx slot t hn hx := by
    rw [hf, hm]
    exact h.blocked sidx slot t ((namedAt_congr hs _ _ _).mp hn) hx
  unique t sidx slot sidx' slot' hn hn' :=
    h.unique t sidx slot sidx' slot' ((namedAt_congr hs _ _ _).mp hn) ((namedAt_congr hs _ _ _).mp hn')
  addressed t ht := by rw [hf]; rw [hm] at ht; exact h.addressed t ht

theorem setState {st : ThreadState} (h : Ordered sender dying i) (hs : SetState t st i j)
    (hsane : Sane j) : Ordered sender dying j :=
  h.of_frame hsane hs.servers hs.future hs.mailbox

theorem readied (h : Ordered sender dying i) (ht : i.state t ≠ .free) (hr : Readied t i j) :
    Ordered sender dying j := by
  have hsane := h.toSane.readied ht hr
  obtain ⟨ctx, _, hs⟩ := hr
  exact h.of_frame hsane hs.servers hs.future hs.mailbox

theorem wakes (h : Ordered sender dying i) (hw : Wakes i j) : Ordered sender dying j := by
  obtain ⟨-, hf, hm, hs, -⟩ := hw.frame
  exact h.of_frame (h.toSane.wakes hw) hs hf hm

variable {f : KernelFuture}

/-- A result goes into the mailbox of a thread that looks there and owes it to no slot. -/
theorem setMailbox (h : Ordered sender dying i) {r : Result}
    (hf : i.future t = some f) (hr : ∀ sidx, f ≠ .receiveMessage sidx)
    (hn : ∀ sidx slot, i.NamedAt sidx slot t → some t = sender) :
    Ordered sender dying (i.setMailbox t (some r)) where
  toSane := h.toSane.setMailbox _
  receiver := h.receiver
  receiving := h.receiving
  sound := h.sound
  blocked sidx slot u hu hx := by
    have hut : u ≠ t := fun hut => hx (hut ▸ hn sidx slot (hut ▸ hu))
    rw [setMailbox_of_ne i hut]
    exact h.blocked sidx slot u hu hx
  unique := h.unique
  addressed u hu := by
    by_cases hut : u = t
    · subst hut
      exact ⟨f, hf, hr⟩
    · rw [setMailbox_of_ne i hut] at hu
      exact h.addressed u hu

section Servers

variable {sidx slot : Nat} {s s' : Server}

theorem sound_setServer (h : Ordered sender dying i) (hs : s'.Sound) (n : Nat) (s'' : Server)
    (hn : (i.setServer sidx (some s')).servers n = some s'') : s''.Sound := by
  rcases servers_setServer hn with ⟨-, heq⟩ | ⟨-, hn'⟩
  · cases heq
    exact hs
  · exact h.sound n s'' hn'

theorem touch (h : Ordered sender dying i) (hs : i.servers sidx = some s) (ht : Touch s s') :
    Ordered sender dying (i.setServer sidx (some s')) where
  toSane := h.toSane.touch hs ht
  receiver n t hp := h.receiver n t ((parkedAt_setServer_same hs ht.receivers).mp hp)
  receiving t n hf hd := (parkedAt_setServer_same hs ht.receivers).mpr (h.receiving t n hf hd)
  sound := h.sound_setServer (ht.sound (h.sound _ _ hs))
  blocked n slot t hn hx := h.blocked n slot t ((namedAt_setServer_same hs ht.caller).mp hn) hx
  unique t n slot n' slot' hn hn' := h.unique t n slot n' slot' ((namedAt_setServer_same hs ht.caller).mp hn)
      ((namedAt_setServer_same hs ht.caller).mp hn')
  addressed := h.addressed

/-- A parked receiver is handed a message: it leaves the mask and drops its future. -/
theorem hands {tid : TID} (h : Ordered sender dying i) (hs : i.servers sidx = some s) (hh : Hands tid s s') :
    Ordered sender dying ((i.setServer sidx (some s')).setFuture (s.pid, tid) none) := by
  have hfut : i.future (s.pid, tid) = some (.receiveMessage sidx) := h.receiver sidx _ ((parkedAt_self hs).mpr hh.was)
  have hne : ∀ {u : ThreadId} {f : KernelFuture},
      ((i.setServer sidx (some s')).setFuture (s.pid, tid) none).future u = some f →
      u ≠ (s.pid, tid) ∧ i.future u = some f := by
    intro u f hu
    by_cases hut : u = (s.pid, tid)
    · subst hut
      rw [setFuture_self] at hu
      cases hu
    · exact ⟨hut, by rwa [setFuture_of_ne _ hut] at hu⟩
  constructor
  · exact (h.toSane.hands hs hh).clearFuture
  · intro n u hp
    obtain ⟨hp', hnot⟩ := (parkedAt_setServer_hands hs hh).mp hp
    have hu := h.receiver n u hp'
    rw [setFuture_of_ne _ ?_]
    · exact hu
    · -- a thread is on one mask only: its future says which
      rintro rfl
      rw [hfut] at hu
      cases hu
      exact hnot ⟨rfl, rfl⟩
  · intro u n hu hd
    obtain ⟨hut, hu'⟩ := hne hu
    exact (parkedAt_setServer_hands hs hh).mpr ⟨h.receiving u n hu' hd, fun hn => hut hn.2⟩
  · exact h.sound_setServer (hh.sound (h.sound _ _ hs))
  · intro n slot u hu hx
    obtain ⟨hf, hm⟩ := h.blocked n slot u ((namedAt_setServer_same hs hh.caller).mp hu) hx
    rw [setFuture_of_ne _ ?_]
    · exact ⟨hf, hm⟩
    · rintro rfl
      rw [hfut] at hf
      cases hf
  · intro u n slot n' slot' hn hn'
    exact h.unique u n slot n' slot' ((namedAt_setServer_same hs hh.caller).mp hn)
      ((namedAt_setServer_same hs hh.caller).mp hn')
  · intro u hu
    obtain ⟨f, hf, hr⟩ := h.addressed u hu
    rw [setFuture_of_ne _ ?_]
    · exact ⟨f, hf, hr⟩
    · rintro rfl
      rw [hfut] at hf
      cases hf
      exact hr sidx rfl

theorem removes (h : Ordered sender dying i) (hs : i.servers sidx = some s)
    (hr : Removes slot t s s') : Ordered sender dying (i.setServer sidx (some s')) where
  toSane := h.toSane.removes hs hr
  receiver n t hp := h.receiver n t ((parkedAt_setServer_same hs hr.receivers).mp hp)
  receiving t n hf hd := (parkedAt_setServer_same hs hr.receivers).mpr (h.receiving t n hf hd)
  sound := h.sound_setServer (hr.sound (h.sound _ _ hs))
  blocked n slot t hn hx := h.blocked n slot t ((namedAt_setServer_removes hs hr).mp hn).1 hx
  unique t n slot n' slot' hn hn' := h.unique t n slot n' slot' ((namedAt_setServer_removes hs hr).mp hn).1
      ((namedAt_setServer_removes hs hr).mp hn').1
  addressed := h.addressed

theorem not_named_of_removes (h : Ordered sender dying i) (hs : i.servers sidx = some s)
    (hr : Removes slot t s s') (n slot' : Nat) :
    ¬ (i.setServer sidx (some s')).NamedAt n slot' t := by
  intro hn
  obtain ⟨hn', hnot⟩ := (namedAt_setServer_removes hs hr).mp hn
  exact hnot (h.unique t n slot' sidx slot hn' ((namedAt_iff hs).mpr hr.named))

/-- The running thread, which waits for nothing, is named by a slot. -/
theorem adds (h : Ordered none dying i) (hs : i.servers sidx = some s)
    (ha : Adds slot t s s') (ht : i.future t = none) (hfree : i.state t ≠ .free) :
    Ordered (some t) dying (i.setServer sidx (some s')) := by
  constructor
  · exact h.toSane.adds hs ha hfree
  · intro n u hp
    exact h.receiver n u ((parkedAt_setServer_same hs ha.receivers).mp hp)
  · intro u n hf hd
    exact (parkedAt_setServer_same hs ha.receivers).mpr (h.receiving u n hf hd)
  · exact h.sound_setServer (ha.sound (h.sound _ _ hs))
  · intro n slot' u hn hx
    rcases (namedAt_setServer_adds hs ha).mp hn with hn' | ⟨-, -, rfl⟩
    · exact h.blocked n slot' u hn' (by simp)
    · exact absurd rfl hx
  · intro u n slot1 n' slot2 hn hn'
    rcases (namedAt_setServer_adds hs ha).mp hn with h1 | ⟨rfl, rfl, rfl⟩ <;>
      rcases (namedAt_setServer_adds hs ha).mp hn' with h2 | ⟨rfl, rfl, hu⟩
    · exact h.unique u n slot1 n' slot2 h1 h2
    · exact absurd (hu ▸ h1) (h.not_named ht n slot1)
    · exact absurd h2 (h.not_named ht n' slot2)
    · exact ⟨rfl, rfl⟩
  · exact h.addressed

theorem discards (h : Ordered sender dying i) (pid : PID) (hs : i.servers sidx = some s) :
    Ordered sender dying (i.setServer sidx (some (s.discardMessagesForPid pid))) := by
  have hrec : s.SameReceivers (s.discardMessagesForPid pid) := ⟨rfl, rfl⟩
  constructor
  · exact h.toSane.discards pid hs
  · intro n u hp
    exact h.receiver n u ((parkedAt_setServer_same hs hrec).mp hp)
  · intro u n hf hd
    exact (parkedAt_setServer_same hs hrec).mpr (h.receiving u n hf hd)
  · exact h.sound_setServer ((h.sound _ _ hs).discardMessagesForPid pid)
  · intro n slot u hn hx
    exact h.blocked n slot u ((namedAt_strike hs).mp hn).1 hx
  · intro u n slot n' slot' hn hn'
    exact h.unique u n slot n' slot' ((namedAt_strike hs).mp hn).1 ((namedAt_strike hs).mp hn').1
  · exact h.addressed

theorem close (h : Ordered sender dying i) (hp : ∀ t, i.ParkedAt sidx t → some t.1 = dying) :
    Ordered sender dying (i.setServer sidx none) := by
  constructor
  · exact h.toSane.close
  · intro n u hu
    exact h.receiver n u (parkedAt_setServer_none.mp hu).2
  · intro u n hf hd
    have hpark := h.receiving u n hf hd
    refine parkedAt_setServer_none.mpr ⟨?_, hpark⟩
    rintro rfl
    exact hd (hp u hpark)
  · intro n s' hn
    rcases servers_setServer hn with ⟨-, heq⟩ | ⟨-, hn'⟩
    · cases heq
    · exact h.sound n s' hn'
  · intro n slot u hn hx
    exact h.blocked n slot u (namedAt_setServer_none.mp hn).2 hx
  · intro u n slot n' slot' hn hn'
    exact h.unique u n slot n' slot' (namedAt_setServer_none.mp hn).2 (namedAt_setServer_none.mp hn').2
  · exact h.addressed

theorem create (h : Ordered sender dying i) (hbasic : Basic (i.setServer sidx (some s)))
    (hnone : i.servers sidx = none) (hc : ∀ slot, s.caller slot = none) (hb : s.readyThreads = 0)
    (hsound : s.Sound) :
    Ordered sender dying (i.setServer sidx (some s)) := by
  have hnamed : ∀ {n slot u}, (i.setServer sidx (some s)).NamedAt n slot u → i.NamedAt n slot u := by
    intro n slot u hn
    rcases namedAt_setServer.mp hn with ⟨-, hcu⟩ | ⟨-, hn'⟩
    · rw [hc] at hcu
      cases hcu
    · exact hn'
  constructor
  · refine h.toSane.setServer hbasic (fun slot u hcu => ?_) (fun tid hbit => ?_)
    · rw [hc] at hcu
      cases hcu
    · rw [hb] at hbit
      simp at hbit
  · intro n u hp
    rcases parkedAt_setServer.mp hp with ⟨-, -, hbit⟩ | ⟨-, hp'⟩
    · rw [hb] at hbit
      simp at hbit
    · exact h.receiver n u hp'
  · intro u n hf hd
    have hpark := h.receiving u n hf hd
    refine parkedAt_setServer.mpr (.inr ⟨?_, hpark⟩)
    rintro rfl
    obtain ⟨s₀, hs₀, -⟩ := hpark
    rw [hnone] at hs₀
    cases hs₀
  · exact h.sound_setServer hsound
  · intro n slot u hn hx
    exact h.blocked n slot u (hnamed hn) hx
  · intro u n slot n' slot' hn hn'
    exact h.unique u n slot n' slot' (hnamed hn) (hnamed hn')
  · exact h.addressed

end Servers

/-! ## 2. The running thread -/

/-- A thread that waits for nothing suspends its call. -/
theorem setFuture (h : Ordered sender dying i) (ht : i.future t = none)
    (hsafe : i.state t ≠ .free ∧ t ≠ idleThread) (hr : ∀ sidx, f ≠ .receiveMessage sidx)
    (hsender : sender = none ∨ sender = some t ∧ f = .waitBlocking) :
    Ordered none dying (i.setFuture t (some f)) := by
  have hne : ∀ {u g}, i.future u = some g → u ≠ t := by
    rintro u g hu rfl
    rw [ht] at hu
    cases hu
  constructor
  · exact h.toSane.setFuture (fun _ => hsafe) fun n heq => absurd (Option.some.inj heq) (hr n)
  · intro n u hp
    have hu := h.receiver n u hp
    rw [setFuture_of_ne i (hne hu)]
    exact hu
  · intro u n hf hd
    by_cases hut : u = t
    · subst hut
      rw [setFuture_self] at hf
      cases hf
      exact absurd rfl (hr n)
    · rw [setFuture_of_ne i hut] at hf
      exact h.receiving u n hf hd
  · exact h.sound
  · intro n slot u hn _
    by_cases hut : u = t
    · subst hut
      rcases hsender with rfl | ⟨rfl, rfl⟩
      · exact absurd hn (h.not_named ht n slot)
      · exact ⟨setFuture_self .., h.no_mail ht⟩
    · rw [setFuture_of_ne i hut]
      refine h.blocked n slot u hn ?_
      rcases hsender with rfl | ⟨rfl, -⟩
      · simp
      · simpa using hut
  · exact h.unique
  · intro u hu
    obtain ⟨g, hg, hgr⟩ := h.addressed u hu
    rw [setFuture_of_ne i (hne hg)]
    exact ⟨g, hg, hgr⟩

/-- A thread that waits for nothing parks at its server. -/
theorem parks {sidx : Nat} {s s' : Server} {tid : TID} (h : Ordered none dying i)
    (hs : i.servers sidx = some s) (hp : Parks tid s s') (ht : i.future (s.pid, tid) = none)
    (hsafe : i.state (s.pid, tid) ≠ .free ∧ (s.pid, tid) ≠ idleThread) :
    Ordered none dying ((i.setServer sidx (some s')).setFuture (s.pid, tid) (some (.receiveMessage sidx))) := by
  have hne : ∀ {u g}, i.future u = some g → u ≠ (s.pid, tid) := by
    rintro u g hu rfl
    rw [ht] at hu
    cases hu
  have hnamed : ∀ {n slot u}, (i.setServer sidx (some s')).NamedAt n slot u →
      i.NamedAt n slot u := fun hn => (namedAt_setServer_same hs hp.caller).mp hn
  constructor
  · refine (h.toSane.parks hs hp hsafe.1).setFuture (fun _ => hsafe) fun n heq => ?_
    cases heq
    exact h.table sidx s hs
  · intro n u hpark
    rcases (parkedAt_setServer_parks hs hp).mp hpark with hold | ⟨rfl, rfl⟩
    · have hu := h.receiver n u hold
      rw [setFuture_of_ne _ (hne hu)]
      exact hu
    · exact setFuture_self ..
  · intro u n hf hd
    by_cases hut : u = (s.pid, tid)
    · subst hut
      rw [setFuture_self] at hf
      cases hf
      exact (parkedAt_setServer_parks hs hp).mpr (.inr ⟨rfl, rfl⟩)
    · rw [setFuture_of_ne _ hut] at hf
      exact (parkedAt_setServer_parks hs hp).mpr (.inl (h.receiving u n hf hd))
  · exact h.sound_setServer (hp.sound (h.sound _ _ hs))
  · intro n slot u hn hx
    obtain ⟨hf, hm⟩ := h.blocked n slot u (hnamed hn) hx
    rw [setFuture_of_ne _ (hne hf)]
    exact ⟨hf, hm⟩
  · intro u n slot n' slot' hn hn'
    exact h.unique u n slot n' slot' (hnamed hn) (hnamed hn')
  · intro u hu
    obtain ⟨g, hg, hgr⟩ := h.addressed u hu
    rw [setFuture_of_ne _ (hne hg)]
    exact ⟨g, hg, hgr⟩

/-! ## 3. Threads and processes that come and go -/

theorem kill (h : Ordered sender dying i) (hs : SetState t .free ((i.setFuture t none).setMailbox t none) j)
    (hd : some t.1 = dying) (huser : t.2 ≠ irqTid) (hidle : t ≠ idleThread)
    (hnamed : ∀ sidx slot, ¬ i.NamedAt sidx slot t) (hparked : ∀ sidx, ¬ i.ParkedAt sidx t) :
    Ordered sender dying j := by
  have hfut : ∀ u, u ≠ t → j.future u = i.future u := fun u hu => by
    rw [hs.future]
    exact setFuture_of_ne i hu none
  have hbox : ∀ u, u ≠ t → j.mailbox u = i.mailbox u := fun u hu => by
    rw [hs.mailbox]
    exact setMailbox_of_ne _ hu none
  have hpark : ∀ {n u}, j.ParkedAt n u ↔ i.ParkedAt n u := parkedAt_congr hs.servers _ _
  have hname : ∀ {n slot u}, j.NamedAt n slot u ↔ i.NamedAt n slot u := namedAt_congr hs.servers _ _ _
  constructor
  · exact h.toSane.kill hs huser hidle hnamed hparked
  · intro n u hu
    have hu' := hpark.mp hu
    rw [hfut u fun hut => hparked n (hut ▸ hu')]
    exact h.receiver n u hu'
  · intro u n hf hdu
    rw [hfut u fun hut => hdu (hut ▸ hd)] at hf
    exact hpark.mpr (h.receiving u n hf hdu)
  · intro n s hn
    rw [hs.servers] at hn
    exact h.sound n s hn
  · intro n slot u hu hx
    have hu' := hname.mp hu
    have hut : u ≠ t := fun hut => hnamed n slot (hut ▸ hu')
    rw [hfut u hut, hbox u hut]
    exact h.blocked n slot u hu' hx
  · intro u n slot n' slot' hn hn'
    exact h.unique u n slot n' slot' (hname.mp hn) (hname.mp hn')
  · intro u hu
    by_cases hut : u = t
    · subst hut
      rw [hs.mailbox] at hu
      exact absurd (setMailbox_self ..) hu
    · rw [hbox u hut] at hu
      rw [hfut u hut]
      exact h.addressed u hu

theorem gone {pid : PID} (h : Ordered sender (some pid) i)
    (hm : Move (.gone pid) i j) (hsafe : Label.Safe i (.gone pid)) : Ordered sender none j := by
  have hsane := h.toSane.move hm hsafe
  have hold : ∀ u, i.state u ≠ .free → u.1 ≠ pid := fun u hu hp => hu (hsafe.2 u hp)
  cases hm with
  | gone hpid hp _ _ =>
    constructor
    · exact hsane
    · intro n u hu
      have := hold u (h.parked n u hu)
      simpa [this] using h.receiver n u hu
    · intro u n hf _
      by_cases hu : u.1 = pid
      · simp [hu] at hf
      · simp only [hu, if_false] at hf
        exact h.receiving u n hf (by simpa using hu)
    · exact h.sound
    · intro n slot u hu hx
      have := hold u (h.named n slot u hu)
      simpa [this] using h.blocked n slot u hu hx
    · exact h.unique
    · intro u hu
      by_cases hup : u.1 = pid
      · simp [hup] at hu
      · simp only [hup, if_false] at hu ⊢
        exact h.addressed u hu

theorem spawn {pid : PID} (h : Ordered sender dying i) (hm : Move (.spawn pid) i j) :
    Ordered sender dying j := by
  have hsane := h.toSane.move hm trivial
  cases hm with
  | spawn hn _ _ hfree _ hrun =>
    have hold : ∀ u, i.state u ≠ .free → u.1 ≠ pid := fun u hu hp => hu (hfree u hp)
    constructor
    · exact hsane
    · intro n u hu
      have := hold u (h.parked n u hu)
      simpa [this] using h.receiver n u hu
    · intro u n hf hd
      by_cases hu : u.1 = pid
      · simp [hu] at hf
      · simp only [hu, if_false] at hf
        exact h.receiving u n hf hd
    · exact h.sound
    · intro n slot u hu hx
      have := hold u (h.named n slot u hu)
      simpa [this] using h.blocked n slot u hu hx
    · exact h.unique
    · intro u hu
      by_cases hup : u.1 = pid
      · simp [hup] at hu
      · simp only [hup, if_false] at hu ⊢
        exact h.addressed u hu

/-! ## 4. Moves -/

/-- **Quiet moves keep the order**, whoever is sending or dying. -/
theorem quiet (h : Ordered sender dying i) (hm : Move .quiet i j) : Ordered sender dying j := by
  have hsane := h.toSane.move hm trivial
  cases hm with
  | wake hr hf hrd => exact h.readied hf hrd
  | touch hs ht => exact h.touch hs ht
  | lose hs _ hp _ => exact absurd hp (h.owners _ _ hs)
  | @handOver _ _ sidx s s' tid hs hh hrd =>
    exact (h.hands hs hh).readied (h.toSane.server_parked hs tid hh.was) hrd
  | post hf hb _ hr hst =>
    refine (h.setMailbox hf hr fun n slot hn => ?_).setState hst hsane
    by_contra hx
    have := (h.blocked n slot _ hn hx).1
    rw [hf] at this
    exact hb (Option.some.inj this)
  | rotate _ => exact h.of_frame hsane rfl rfl rfl
  | priority _ _ => exact h.of_frame hsane rfl rfl rfl
  | relink _ => exact h.of_frame hsane rfl rfl rfl

/-- A reply reaches the thread its slot names, and that thread alone. -/
theorem answered {r : Result} (h : Ordered sender dying i)
    (hf : i.future t = some f) (hr : ∀ sidx, f ≠ .receiveMessage sidx)
    (hn : ∀ sidx slot, ¬ i.NamedAt sidx slot t) (ha : Answered t r i j) :
    Ordered sender dying j := by
  have ht : i.state t ≠ .free := h.waiting t (by simp [hf])
  have hsane := h.toSane.answered ht ha
  cases ha with
  | posted _ hs =>
    exact (h.setMailbox hf hr fun n slot hnm => absurd hnm (hn n slot)).setState hs hsane
  | direct hnone _ => rw [hf] at hnone; cases hnone
  | gone _ heq =>
    rcases heq with rfl | rfl
    · exact h
    · exact h.of_frame hsane rfl rfl rfl

end Ordered

/-- What a move has to be about for the order to survive it, when no thread is sending. -/
def Label.Fair (dying : Option PID) (i : Ipc) : Label → Prop
  | .send .. | .wait _ | .gone _ | .collect _ => False
  | .pause => i.state i.current ≠ .free ∧ i.current ≠ idleThread
  | .display t => i.future t = some .waitDisplay
  | .create _ s => (∀ slot, s.caller slot = none) ∧ s.Sound
  | .close sidx => ∀ t, i.ParkedAt sidx t → some t.1 = dying
  | .release t => i.state t ≠ .free
  | .kill t => some t.1 = dying ∧ t.2 ≠ irqTid ∧ t ≠ idleThread ∧ (∀ sidx slot, ¬ i.NamedAt sidx slot t) ∧
      ∀ sidx, ¬ i.ParkedAt sidx t
  | _ => True

namespace Ordered

theorem complete (hm : Move (.complete t) i j) (h : Ordered sender dying i)
    (hsender : sender = none) : Ordered sender dying j := by
  have hsane := h.toSane.move hm trivial
  subst hsender
  cases hm with
  | @complete _ _ f r hr hf hb hmail =>
    -- Whoever is named by a slot or on a mask has no result in the mailbox.
    have hne : ∀ {u g}, i.future u = some g → u ≠ t →
        ((i.setFuture t none).setMailbox t none).future u = some g := fun hu hut =>
      (setFuture_of_ne i hut none).trans hu
    constructor
    · exact hsane
    · intro n u hp
      have hu := h.receiver n u hp
      refine hne hu ?_
      rintro rfl
      rw [hf] at hu
      exact hb n (Option.some.inj hu)
    · intro u n hu hd
      by_cases hut : u = t
      · subst hut
        exact absurd ((setFuture_self i u none).symm.trans hu) (by simp)
      · exact h.receiving u n ((setFuture_of_ne i hut none).symm.trans hu) hd
    · exact h.sound
    · intro n slot u hn _
      obtain ⟨hfu, hmu⟩ := h.blocked n slot u hn (by simp)
      have hut : u ≠ t := fun hut => by simp [hut, hmail] at hmu
      exact ⟨hne hfu hut, (setMailbox_of_ne _ hut none).trans hmu⟩
    · exact h.unique
    · intro u hu
      by_cases hut : u = t
      · subst hut
        exact absurd (setMailbox_self _ u none) hu
      · obtain ⟨g, hg, hgr⟩ := h.addressed u fun hnone =>
          hu ((setMailbox_of_ne _ hut none).trans hnone)
        exact ⟨g, hne hg hut, hgr⟩

/-- **Fair moves keep the order.** -/
theorem fair {l : Label} (hm : Move l i j) (hfair : l.Fair dying i) (h : Ordered none dying i) :
    Ordered none dying j := by
  cases hm with
  | wake hr hf hrd => exact h.quiet (.wake hr hf hrd)
  | touch hs ht => exact h.quiet (.touch hs ht)
  | handOver hs hh hrd => exact h.quiet (.handOver hs hh hrd)
  | lose hs hh hp hctx => exact h.quiet (.lose hs hh hp hctx)
  | post hf hb hd hr hst => exact h.quiet (.post hf hb hd hr hst)
  | rotate hrun => exact h.quiet (.rotate hrun)
  | priority hready hother => exact h.quiet (.priority hready hother)
  | relink hr => exact h.quiet (.relink hr)
  | regs _ => exact h.of_frame (h.toSane.withContext _) rfl rfl rfl
  | send _ _ => exact hfair.elim
  | @reply _ i1 _ sidx slot s s' t r hs hpid hrem hw ha =>
    have hb := h.blocked sidx slot t ((namedAt_iff hs).mpr hrem.named) (by simp)
    obtain ⟨-, hf1, -, hs1, -⟩ := hw.frame
    refine ((h.removes hs hrem).wakes hw).answered (f := .waitBlocking) ?_ (by simp) ?_ ha
    · rw [hf1]
      exact hb.1
    · intro n slot' hn
      exact h.not_named_of_removes hs hrem n slot' ((namedAt_congr hs1 _ _ _).mp hn)
  | drop hs _ hrem => exact h.removes hs hrem
  | wait _ _ => exact hfair.elim
  | receive _ _ _ _ => exact hfair.elim
  | pause hr hf hs =>
    exact h.setState hs (h.toSane.setState hs hfair.1 hf fun hi => absurd hi hfair.2)
  | enter => exact h.of_frame (h.toSane.move .enter trivial) rfl rfl rfl
  | leave hws => exact h.of_frame (h.toSane.move (.leave hws) trivial) rfl rfl rfl
  | display ha =>
    refine h.answered hfair (by simp) (fun n slot hn => ?_) ha
    have := (h.blocked n slot _ hn (by simp)).1
    rw [hfair] at this
    cases this
  | create hlt hs hpid hb hbounds =>
    exact h.create (h.toBasic.move (.create hlt hs hpid hb hbounds) (by simp)) hs hfair.1 hb hfair.2
  | close => exact h.close hfair
  | release hs =>
    have hsane := h.toSane.move (.release hs) hfair
    exact h.of_frame hsane hs.servers hs.future hs.mailbox
  | strike hs => exact h.discards _ hs
  | kill hs =>
    obtain ⟨hd, huser, hidle, hnamed, hparked⟩ := hfair
    exact h.kill hs hd huser hidle hnamed hparked
  | gone _ _ _ _ => exact hfair.elim
  | thread hpid hn hr hrd =>
    have hsane := h.toSane.thread (.thread hpid hn hr hrd)
    obtain ⟨ctx, _, hs⟩ := hrd
    exact h.of_frame hsane hs.servers hs.future hs.mailbox
  | spawn hn hpid hparent hfree hctx hrun =>
    exact h.spawn (.spawn hn hpid hparent hfree hctx hrun)
  | load _ => exact h.of_frame (h.toSane.withContext _) rfl rfl rfl
  | activate hp => exact h.of_frame (h.toSane.move (.activate hp) trivial) rfl rfl rfl
  | complete hr hf hb hmail => exact h.complete (.complete hr hf hb hmail) rfl
  | collect _ _ _ => exact hfair.elim
  | repark hr hf hs => exact h.setState hs (h.toSane.move (.repark hr hf hs) trivial)
  | switch hr hu ht => exact h.of_frame (h.toSane.move (.switch hr hu ht) trivial) rfl rfl rfl

/-- The running thread sends a blocking message. -/
theorem send {sidx slot : Nat} (hm : Move (.send sidx slot) i j) (h : Ordered none dying i)
    (hcur : i.future i.current = none) (hfree : i.state i.current ≠ .free) :
    Ordered (some i.current) dying j := by
  cases hm with
  | send hs ha => exact h.adds hs ha hcur hfree

/-- ... and waits for the reply, or suspends another call. -/
theorem wait {f : KernelFuture} (hm : Move (.wait f) i j) (h : Ordered sender dying i)
    (hcur : i.future i.current = none)
    (hsafe : i.state i.current ≠ .free ∧ i.current ≠ idleThread)
    (hsender : sender = none ∨ sender = some i.current ∧ f = .waitBlocking) :
    Ordered none dying j := by
  have hsane := h.toSane.move hm hsafe
  cases hm with
  | wait hr hs => exact (h.setFuture hcur hsafe hr hsender).setState hs hsane
  | @receive _ _ sidx s s' mask hs hpid hp hst =>
    rcases hsender with rfl | ⟨-, hf⟩
    · have hc : (s.pid, i.current.2) = i.current := by rw [hpid]; rfl
      have h' := h.parks hs hp (hc ▸ hcur) (hc ▸ hsafe)
      rw [hc] at h'
      exact h'.setState hst hsane
    · cases hf

end Ordered

end BeetKernel.Ipc

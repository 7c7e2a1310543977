/-
# Creating threads, servers and processes, as moves

A new thread has a free place in the context table and becomes ready; a new server has nobody on
its mask, and its slots are what its page held; a new process is ready to run before its image is
loaded.
-/
import BeetKernel.Ipc.Handlers

namespace BeetKernel

open Function (update)

namespace Kernel

open Ipc
open Exec (Follows post_and post_bind post_get post_mono post_okOr post_seq)

variable {k k' k₀ : Kernel} {P : Kernel → Prop} {call : SysCall}
variable {i j : Ipc} {pid : PID}

/-! ## 1. Threads -/

/-- The kernel with other contexts for the process `pid`. -/
def putArch (k : Kernel) (pid : PID) (a : ProcessImpl) : Kernel :=
  { k with archProcesses := update k.archProcesses pid (some a) }

theorem ipc_putArch (k : Kernel) (pid : PID) (a : ProcessImpl) : (k.putArch pid a).ipc = { k.ipc with
      allocated := override pid (fun tid => decide (1 ≤ tid ∧ tid ≤ maxThreadCount) &&
        (a.threads tid).allocated) k.ipc.allocated
      context := override pid (fun tid => some (a.threads tid).context) k.ipc.context
      tid := update k.ipc.tid pid a.currentThread } := by
  refine Ipc.ext rfl rfl rfl rfl rfl rfl rfl rfl ?_ ?_ rfl ?_ rfl rfl <;> funext x
  · rcases eq_or_ne x.1 pid with hx | hx <;> simp [ipc, putArch, allocated, override, hx]
  · rcases eq_or_ne x.1 pid with hx | hx <;> simp [ipc, putArch, context, override, hx]
  · rcases eq_or_ne x pid with rfl | hx <;> simp [ipc, putArch, *]

theorem ipc_newThread {t : ThreadId} {a : ProcessImpl} (ha : k.archProcesses t.1 = some a)
    (ht : 1 ≤ t.2 ∧ t.2 ≤ maxThreadCount) (c : Context) :
    (k.putArch t.1 { a with threads := update a.threads t.2 ⟨c, true⟩ }).ipc = { k.ipc with
        allocated := update k.ipc.allocated t true
        context := update k.ipc.context t (some c) } := by
  rw [ipc_putArch]
  refine Ipc.ext rfl rfl rfl rfl rfl rfl rfl rfl ?_ ?_ rfl ?_ rfl rfl
  · funext u
    rcases eq_or_ne u t with rfl | hu
    · simp [override, ht]
    · simp only [Function.update_of_ne hu, override]
      split
      next h1 =>
        have h2 : u.2 ≠ t.2 := fun h2 => hu (Prod.ext h1 h2)
        simp [ipc, allocated, h1, h2, ha]
      · rfl
  · funext u
    rcases eq_or_ne u t with rfl | hu
    · simp [override]
    · simp only [Function.update_of_ne hu, override]
      split
      next h1 =>
        have h2 : u.2 ≠ t.2 := fun h2 => hu (Prod.ext h1 h2)
        simp [ipc, context, h1, h2, ha]
      · rfl
  · have htid : k.ipc.tid t.1 = a.currentThread := by simp [ipc, ha]
    show update k.ipc.tid t.1 a.currentThread = k.ipc.tid
    rw [← htid, Function.update_eq_self]

/-- There is no thread beyond the last place of the thread table. -/
theorem setThreadState_beyond {t : ThreadId} {st : ThreadState} {p : Process}
    {Q : Unit → Kernel → Prop} {E : Error → Kernel → Prop} {F : String → Prop}
    (ht : ¬ t.2 < maxThreadCount) (hp : k.processes t.1 = some p) (hle : t.1.get ≤ maxProcessCount)
    (hF : F "index out of bounds") : Exec.post (setThreadState t st) Q E F k := by
  unfold setThreadState
  rw [post_bind]
  refine Exec.post_of_ok (process_eq_ok.mpr ⟨hle, hp, rfl⟩) ?_
  rw [post_bind, Exec.post_assert]
  exact ⟨fun h => absurd (of_decide_eq_true h) ht, fun _ => hF⟩

theorem StepBy.of_move {l : Label} (hm : Move l k.ipc k'.ipc) (hl : Harmless l)
    (hh : AtHome k → AtHome k') : StepBy Harmless k k' := ⟨.single hl hm, hh⟩

theorem StepBy.harmless (h : QuietStep k k') : StepBy Harmless k k' := ⟨h.1.mono fun _ => Harmless.of_quiet, h.2⟩

theorem createThread_handled (hb : Basic k.ipc) (init : ThreadInit) :
    Handled (.createThread init) (dispatch k.currentTid (.createThread init)) k := by
  have hk := refl_of QuietStep k
  simp only [dispatch, createThread]
  rw [Handled, post_bind, post_bind, post_get]
  split
  · exact ⟨.quiet hk.1, hk.2⟩
  next a ha =>
    rw [post_bind, post_okOr]
    refine ⟨fun tid htid => ?_, fun _ => ⟨.quiet hk.1, hk.2⟩⟩
    have hfree : freeThread k = some tid := by rw [freeThread, ha]; exact htid
    have hrange : 1 ≤ tid ∧ tid ≤ maxThreadCount := by
      have := List.mem_range'_1.mp (List.mem_of_find?_eq_some htid)
      exact ⟨this.1, Nat.lt_succ_iff.mp (Nat.lt_of_lt_of_le this.2 (by decide))⟩
    have hnew : k.ipc.allocated (k.currentPid, tid) = false := by
      have := List.find?_some htid
      simpa [ipc, allocated, ha] using fun _ _ => this
    have hipc := ipc_newThread (t := (k.currentPid, tid)) ha hrange init.context
    have hlinked : Linked (k.putArch k.currentPid
        { a with threads := update a.threads tid ⟨init.context, true⟩ }).ipc := by
      rw [hipc]
      exact hb.linked
    rw [post_bind, Exec.post_set, post_bind]
    refine post_currentProcess (fun p hp => ?_) fun msg h hmsg => ?_
    swap
    · exact ⟨fun heq => absurd heq hmsg, fun hm => absurd (hb.pids _ hb.running) (h hm)⟩
    rcases Nat.lt_or_ge tid maxThreadCount with hlt | hge
    swap
    · -- the first free place is the one the thread table does not have
      obtain rfl : tid = maxThreadCount := Nat.le_antisymm hrange.2 hge
      rw [post_bind]
      refine setThreadState_beyond (t := (k.currentPid, maxThreadCount)) (Nat.lt_irrefl _) hp
        (hb.pids _ hb.running) (.outOfBounds fun hin => hin hfree)
    have hu : IsUser (k.currentPid, tid) := ⟨hb.pids _ hb.running, hrange.1, hlt⟩
    refine post_seq (post_and (setThreadState_post (k.currentPid, tid) .ready _)
      (Exec.post_of_wp (settled_code.setThreadState _ _ _))) ?_ ?_ ?_
    · rintro _ k2 ⟨⟨hs, -⟩, hset⟩
      have hm : Move (.thread (k.currentPid, tid)) k.ipc k2.ipc := by
        refine .thread rfl hnew hrange ⟨_, fun u hu => ?_, hipc ▸ hs⟩
        exact Function.update_of_ne hu _ _
      have h₂ : StepBy Harmless k k2 := .of_move hm ⟨trivial, by simp⟩ hset.atHome
      have hrest : Quietly AtHome (do
          let p ← currentProcess
          setThreadPriority (k.currentPid, tid) (p.threadPriorities k.currentTid)
          pure tid) :=
        currentProcess_quietly.bind fun _ => (setThreadPriority_quietly hu _).bind fun _ =>
          Follows.pure _
      refine post_mono (hrest k2) (fun _ k3 h3 => ?_) (fun _ k3 h3 => ?_) ?_
      · exact ⟨.thread hm h3.1, fun hh => h3.2 (h₂.2 hh)⟩
      · exact ⟨.thread hm h3.1, fun hh => h3.2 (h₂.2 hh)⟩
      · rintro msg ⟨k3, h3, hun⟩
        exact .of_home (fun _ => id) hb (trans_of (StepBy _) h₂ h3.harmless) hun
    · rintro _ _ ⟨⟨-, hnone⟩, -⟩
      exact absurd (hp.symm.trans hnone) (by simp)
    · rintro msg ⟨⟨hmsg, hbl⟩, -⟩
      exact ⟨fun heq => absurd heq hmsg, fun hm => absurd hu (hbl hm hlinked)⟩

/-! ## 2. Servers -/

/-- What of a server no quiet move changes: whose it is, and whom its slots name. -/
def callersOf (s : Server) : PID × (Nat → Option ThreadId) := (s.pid, s.caller)

/-- The servers are the same, for the same processes and with the same callers. -/
def SameCallers (i j : Ipc) : Prop := ∀ n, (j.servers n).map callersOf = (i.servers n).map callersOf

instance : IsPreorder Ipc SameCallers where
  refl _ _ := rfl
  trans _ _ _ h₁ h₂ n := (h₂ n).trans (h₁ n)

theorem SameCallers.of_servers (h : j.servers = i.servers) : SameCallers i j := fun n => by rw [h]

theorem SameCallers.setServer {sidx : Nat} {s s' : Server} (hs : i.servers sidx = some s)
    (hpid : s'.pid = s.pid) (hc : s'.caller = s.caller) :
    SameCallers i (i.setServer sidx (some s')) := by
  intro n
  unfold Ipc.setServer
  rcases eq_or_ne n sidx with rfl | hne
  · simp [hs, callersOf, hpid, hc]
  · simp [hne]

theorem SameCallers.absent {n : Nat} (h : SameCallers i j) (hn : i.servers n = none) : j.servers n = none := by
  simpa [hn] using h n

theorem quiet_callers (h : Ipc.Does Quiet i j) : SameCallers i j := by
  refine h.within fun l a b hl hm => ?_
  subst hl
  cases hm with
  | wake _ _ hr =>
    obtain ⟨_, -, hs⟩ := hr
    exact .of_servers hs.servers
  | touch hs ht => exact .setServer hs ht.receivers.1 ht.caller
  | handOver hs hh hr =>
    obtain ⟨_, -, hset⟩ := hr
    exact trans_of SameCallers (.setServer hs hh.pid hh.caller) (.of_servers hset.servers)
  | lose hs hh _ _ => exact .setServer hs hh.pid hh.caller
  | post _ _ _ _ hs => exact .of_servers hs.servers
  | rotate _ | priority _ _ | relink _ => exact .of_servers rfl

theorem clean_of_init {s : Server} {k1 : Kernel} {sid : SID} {perms : MessageRange}
    {backing : MemoryRange} {phys : Nat} {queue : List QueuedMessage}
    (hmap : mapRange 0 0 pageSize queueFlags false k = .ok backing k1)
    (hphys : (k1.pageTables k.activeMapping).virtToPhys backing.addr.get = .ok phys)
    (hqueue : decodeQueue k1.ram phys slotCount = some queue)
    (hinit : Server.init none k.currentPid sid backing.addr.get queue perms = .ok s) : Clean k s := by
  intro htags
  obtain ⟨idx, hidx, rfl, hsame⟩ := queuePage_ok hmap hphys
  have hall := (decodeQueue_eq_replicate_iff k1.ram _ slotCount).mpr ((tagsZero_congr hsame).mpr (htags idx hidx))
  obtain rfl : queue = List.replicate slotCount .empty := Option.some.inj (hqueue.symm.trans hall)
  have hfresh := freshQueue_of_init hinit
  have hrepr := Server.repr_init (by decide) hinit
  refine ⟨fun slot => ?_, .of_repr hrepr fun _ => rfl⟩
  unfold Server.caller
  cases hq : s.queue[slot]? with
  | none => rfl
  | some q =>
    rw [hfresh.empty q (List.mem_of_getElem? hq)]
    rfl

theorem createServer_handled (hb : Basic k.ipc) (hcall : call.CreatesServer) (sid : SID) (perms : MessageRange) :
    Handled call (do pure (.result (.newServerID (← createServerWithAddress sid perms)))) k := by
  have hk := refl_of QuietStep k
  simp only [createServerWithAddress]
  rw [Handled, post_bind, post_bind, post_get]
  split
  · exact ⟨.quiet hk.1, hk.2⟩
  next sidx hslot =>
    have hlt : sidx < maxServerCount := List.mem_range.mp (List.mem_of_find?_eq_some hslot)
    have hnone : k.servers sidx = none := by simpa using List.find?_some hslot
    refine post_seq (post_and (mapRange_quietly _ _ _ _ _ k) (Exec.post_self _ _)) ?_ ?_ ?_
    · rintro backing k1 ⟨h₁, hmap⟩
      simp only [virtToPhys, post_bind, post_get, Exec.post_ofExcept, Exec.post_expect,
        Exec.post_unwrap, post_setServer]
      refine ⟨fun phys hphys => ⟨fun queue hqueue => ⟨fun s hinit => ?_, ?_⟩, ?_⟩, ?_⟩
      · have hclean := clean_of_init hmap hphys hqueue hinit
        obtain ⟨perms', heq⟩ := Server.init_ok hinit
        have hlen : 0 < queue.length := by
          rw [decodeQueue_length hqueue]
          decide
        have hspid : s.pid = k1.ipc.pid := by
          rw [heq]
          exact (quiet_frame h₁.1).pid.symm
        have hready : s.readyThreads = 0 := by rw [heq]
        have hbounds : s.InBounds := by
          rw [heq]
          exact ⟨hlen, hlen⟩
        have hmove := Move.create hlt ((quiet_callers h₁.1).absent hnone) hspid hready hbounds
        have hbasic := (quiet_basic h₁.1 hb).move hmove (by simp)
        refine post_mono (post_and (wakeThreadsWithState_wakes (by simp) (by simp) _)
          (Exec.post_of_wp (settled_code.wakeThreadsWithState _ _))) ?_ ?_ ?_
        · rintro _ k2 ⟨hw, hset⟩
          exact ⟨.create hcall hclean h₁.1 hmove (quiet_of_wakes hw), fun hh => hset.atHome (h₁.2 hh)⟩
        · rintro _ k2 ⟨hw, hset⟩
          exact ⟨.create hcall hclean h₁.1 hmove (quiet_of_wakes hw), fun hh => hset.atHome (h₁.2 hh)⟩
        · rintro msg ⟨⟨k2, hw, hmsg, hbl⟩, -⟩
          exact ⟨fun heq => absurd heq hmsg, fun hm _ _ => absurd (hbasic.wakes hw) (hbl hm)⟩
      · exact fun _ _ => .of_unfollowed (by decide)
      · exact fun _ => .of_unfollowed (by decide)
      · exact fun _ _ => ⟨.quiet h₁.1, h₁.2⟩
    · exact fun _ k' h => ⟨.quiet h.1.1, h.1.2⟩
    · rintro msg ⟨⟨k', h, hun⟩, -⟩
      exact .of_home (fun _ => Harmless.of_quiet) hb h hun

/-! ## 3. Processes -/

theorem Spawning.harmless (l : Label) (h : Spawning pid l) : Harmless l := by
  rcases h with rfl | rfl | rfl <;> exact ⟨trivial, by simp⟩

theorem StepBy.spawning (h : QuietStep k k') : StepBy (Spawning pid) k k' := ⟨h.1.mono fun _ hl => .inl hl, h.2⟩

/-- The record of a process whose first thread is ready. -/
def newProcess (parent : PID) : Process :=
  { Process.new parent with threads := update (fun _ => .free) initialTid .ready }

/-- The first contexts of a process. -/
def newContexts (c : Context) : ProcessImpl := ⟨update (fun _ => Thread.default) initialTid ⟨c, true⟩, initialTid⟩

theorem newContexts_allocated (c : Context) (tid : TID) :
    (decide (1 ≤ tid ∧ tid ≤ maxThreadCount) && ((newContexts c).threads tid).allocated) =
      decide (tid = initialTid) := by
  unfold newContexts
  rcases eq_or_ne tid initialTid with rfl | htid
  · simp
    decide
  · simp [htid, Thread.default]

/-- **A process appears**: its first thread is in the scheduler's list, and has a context. -/
theorem spawn_move {s' : Scheduler} {c : Context} (hb : Basic k.ipc)
    (hnone : k.processes pid = none) (hle : pid.get ≤ maxProcessCount)
    (hs : Scheduler.readyThread (pid, initialTid) .appDefault k.scheduler = .ok () s') :
    Move (.spawn pid) k.ipc
      ((({ k with scheduler := s' } : Kernel).putProcess pid (newProcess k.currentPid)).putArch pid
        (newContexts c)).ipc := by
  have hstate : ∀ t : ThreadId, t.1 = pid → k.ipc.state t = .free := fun t ht => by
    simp [ipc, threadState, ht, hnone]
  have hmove := @Move.spawn k.ipc pid (some k.currentPid) s'
    (override pid (fun tid => some ((newContexts c).threads tid).context) k.ipc.context)
    (ipc_parent hnone) hle (fun q hq => Option.some.inj hq ▸ hb.running) hstate
    (fun u hu => if_neg hu) hs
  refine cast (congrArg (Move (.spawn pid) k.ipc) ?_) hmove
  rw [ipc_putArch, ipc_putProcess]
  refine Ipc.ext rfl ?_ rfl rfl rfl rfl rfl rfl ?_ rfl rfl rfl rfl rfl <;> funext t
  · simp only [override, newProcess, Function.update_apply]
    rfl
  · simp only [override, newContexts_allocated]
    rfl

theorem mapFreshPage_quietly (pid : PID) (va : Nat) (flags : MemoryFlags) (byte : Nat → UInt8) :
    Quietly P (mapFreshPage pid va flags byte) :=
  ((allocRange_quietly 1 pid).mapErr _).bind fun _ =>
    Follows.bind (quietly_modify (fun _ => rfl) fun _ => id) fun _ => quiet_code.mapPage _ _ _ _ _

theorem mapStack_quietly (pid : PID) (bottom n : Nat) : Quietly P (mapStack pid bottom n) :=
  Follows.each fun _ _ => mapFreshPage_quietly _ _ _ _

/-- The contexts of a new process are written again, with its entry point. -/
theorem load_move (c : Context) (ha : ∀ tid, k.ipc.allocated (pid, tid) = decide (tid = initialTid))
    (ht : k.ipc.tid pid = initialTid) :
    Move (.load pid) k.ipc (k.putArch pid (newContexts c)).ipc := by
  have hmove := @Move.load k.ipc pid
    (override pid (fun tid => some ((newContexts c).threads tid).context) k.ipc.context)
    fun u hu => if_neg hu
  refine cast (congrArg (Move (.load pid) k.ipc) ?_) hmove
  rw [ipc_putArch]
  refine Ipc.ext rfl rfl rfl rfl rfl rfl rfl rfl ?_ rfl rfl ?_ rfl rfl
  · dsimp only
    refine (override_self fun t heq => ?_).symm
    rw [newContexts_allocated, ← ha t.2, ← heq]
  · show k.ipc.tid = update k.ipc.tid pid initialTid
    rw [← ht, Function.update_eq_self]

/-- The state of a process that is being created. -/
structure Young (pid : PID) (i : Ipc) : Prop where
  allocated : ∀ tid, i.allocated (pid, tid) = decide (tid = initialTid)
  tid : i.tid pid = initialTid

theorem Young.quiet (h : Young pid i) (hq : Ipc.Does Quiet i j) :
    Young pid j := by
  have hframe := quiet_frame hq
  exact ⟨fun tid => by rw [hframe.allocated]; exact h.allocated tid, by rw [hframe.tid]; exact h.tid⟩

theorem young_putArch (k : Kernel) (pid : PID) (c : Context) : Young pid (k.putArch pid (newContexts c)).ipc := by
  rw [ipc_putArch]
  refine ⟨fun tid => ?_, Function.update_self ..⟩
  simp only [override, if_true]
  exact newContexts_allocated c tid

/-- Quiet code while the process `pid` is being created; an error ends in a panic. -/
theorem spawning_bind {α β : Type} {m : KExec α} {f : α → KExec β}
    {Q : β → Kernel → Prop} (hk : StepBy (Spawning pid) k₀ k) (hm : Quietly AtHome m)
    (hf : ∀ a k', StepBy (Spawning pid) k₀ k' → QuietStep k k' → Exec.post (f a) Q (fun _ _ => True)
      (fun msg => ∃ k', StepBy (Spawning pid) k₀ k' ∧ Untidy AtHome msg k') k') :
    Exec.post (m >>= f) Q (fun _ _ => True)
      (fun msg => ∃ k', StepBy (Spawning pid) k₀ k' ∧ Untidy AtHome msg k') k := by
  refine post_seq (hm k) (fun a k' h => ?_) (fun _ _ _ => trivial) ?_
  · exact hf a k' (trans_of (StepBy _) hk h.spawning) h
  · exact fun msg h => h.imp fun k' h => ⟨trans_of (StepBy _) hk h.1.spawning, h.2⟩

/-- `ArchProcess::create`, from the point where the process has its first context. -/
theorem archCreate_rest {image : Except Error ElfImage} (hk : StepBy (Spawning pid) k₀ k) (hy : Young pid k.ipc) :
    Exec.post (do
        let elf ← Exec.ofExcept image
        loadSegments pid elf.segments
        mapStack pid userStackBottom stackPageCount
        mapStack pid userIrqStackBottom userIrqStackPageCount
        setArchProcess pid (some ⟨update (fun _ => Thread.default) initialTid
          ⟨initialContext elf.entryPoint, true⟩, initialTid⟩))
      (fun _ k' => StepBy (Spawning pid) k₀ k' ∧ Young pid k'.ipc) (fun _ _ => True)
      (fun msg => ∃ k', StepBy (Spawning pid) k₀ k' ∧ Untidy AtHome msg k') k := by
  refine spawning_bind hk (Follows.ofExcept _) fun elf k1 h₁ q1 => ?_
  refine spawning_bind h₁ (Follows.each fun _ _ => Follows.each fun _ _ => mapFreshPage_quietly _ _ _ _)
    fun _ k2 h₂ q2 => ?_
  refine spawning_bind h₂ (mapStack_quietly _ _ _) fun _ k3 h3 q3 => ?_
  refine spawning_bind h3 (mapStack_quietly _ _ _) fun _ k4 h4 q4 => ?_
  have hy4 : Young pid k4.ipc := (((hy.quiet q1.1).quiet q2.1).quiet q3.1).quiet q4.1
  have hload := load_move (initialContext elf.entryPoint) hy4.allocated hy4.tid
  exact ⟨⟨h4.1.snoc (.inr (.inr rfl)) hload, h4.2⟩, young_putArch _ _ _⟩

theorem createProcess_post (hb : Basic k.ipc) (image : Except Error ElfImage) : Exec.post (createProcess image)
      (fun pid k' => k.ipc.parent pid = none ∧ pid.get ≤ maxProcessCount ∧
        StepBy (Spawning pid) k k' ∧ Young pid k'.ipc)
      (fun _ k' => QuietStep k k')
      (fun msg => ∃ k' pid, StepBy (Spawning pid) k k' ∧ Untidy AtHome msg k') k := by
  have hk := refl_of QuietStep k
  unfold createProcess
  rw [post_bind, post_get, post_bind, post_okOr]
  refine ⟨fun pid hfind => ?_, fun _ => hk⟩
  have hle := get_le_of_mem_all (List.mem_of_find?_eq_some hfind)
  have hnone : k.processes pid = none := by simpa using List.find?_some hfind
  refine post_seq ((quiet_code (P := AtHome)).allocTable pid k) (fun l1 k1 h₁ => ?_)
    (fun _ _ h => h) fun msg h => h.imp fun k' h => ⟨pid, h.1.spawning, h.2⟩
  have hnone1 : k1.processes pid = none := by
    rw [← ipc_parent_eq_none, (quiet_frame h₁.1).parent]
    exact ipc_parent hnone
  have hb1 := quiet_basic h₁.1 hb
  rw [← show k1.currentPid = k.currentPid from (quiet_frame h₁.1).pid]
  simp only [setPageTables, post_bind, Exec.post_modify]
  refine post_mono (withScheduler_post (t := (pid, initialTid)) (Scheduler.readyThread_post _ _)
    (fun s' hs' => ?_) fun hl hu => ?_) (fun _ _ h => h) (fun _ _ h => h) fun msg h => ?_
  · simp only [post_setProcess, Exec.post_unwrap, archCreate, post_bind, post_get]
    split
    · exact ⟨k, pid, ⟨.refl _, id⟩, .of_unfollowed (by decide) k⟩
    · have hspawn := spawn_move (k := { k1 with
        pageTables := update k1.pageTables pid (.empty l1) }) (c := Thread.default.context)
        hb1 hnone1 hle hs'
      have hstep : StepBy (Spawning pid) k _ := ⟨(h₁.1.mono fun _ hl => .inl hl).snoc (.inr (.inl rfl)) hspawn, h₁.2⟩
      rw [post_bind, setArchProcess, Exec.post_modify]
      refine post_mono (archCreate_rest hstep (young_putArch _ _ _)) ?_ ?_ ?_
      · exact fun _ k' h => ⟨ipc_parent hnone, hle, h.1, h.2⟩
      · exact fun _ _ _ => ⟨k, pid, ⟨.refl _, id⟩, .of_unfollowed (by decide) k⟩
      · exact fun msg h => h.imp fun k' h => ⟨pid, h⟩
  · obtain ⟨L, hr, hmem⟩ := hl
    have hun : ∀ q, (pid, initialTid) ∉ L q := fun q hq => by
      have hready := ((hmem _ q).mp hq).2.1
      simp [ipc, threadState, hnone1] at hready
    obtain ⟨s', hs', -, -⟩ := hr.readyThread .appDefault ⟨hu.1, hu.2.1, hu.2.2.le⟩ hun
    exact ⟨s', hs'⟩
  · exact ⟨k1, pid, h₁.spawning, h.1, fun hm hb _ _ => h.2 hm hb.linked
      ⟨hle, show 1 ≤ initialTid by decide, show initialTid < maxThreadCount by decide⟩⟩

/-- What a call that creates a process has done. -/
def Spawned (pid : PID) (k k' : Kernel) : Prop :=
  k.ipc.parent pid = none ∧ pid.get ≤ maxProcessCount ∧ StepBy (Spawning pid) k k'

theorem Spawned.stays (h : Spawned pid k k') {N : Server → Prop} :
    Stays call N k.ipc k'.ipc ∧ (AtHome k → AtHome k') := ⟨.spawn h.1 h.2.2.1, h.2.2.2⟩

theorem Spawned.step {k1 : Kernel} (h : Spawned pid k k1) (h₁ : StepBy (Spawning pid) k1 k') : Spawned pid k k' :=
  ⟨h.1, h.2.1, trans_of (StepBy _) h.2.2 h₁⟩

theorem CallBlame.of_spawning {Q : Prop} {msg : String} (hb : Basic k.ipc)
    (h : ∃ k' pid, StepBy (Spawning pid) k k' ∧ Untidy AtHome msg k') : CallBlame Q k msg := by
  obtain ⟨k', pid, hk', hun⟩ := h
  exact .of_home Spawning.harmless hb hk' hun

/-- What code that creates a process may end in, started in `k₀` and now in `k`. -/
abbrev Spawns {α : Type} (k₀ : Kernel) (m : KExec α) (Q : α → Kernel → Prop) (k : Kernel) : Prop :=
  Exec.post m Q (fun _ k' => QuietStep k₀ k' ∨ ∃ pid, Spawned pid k₀ k')
    (fun msg => ∃ k' pid, StepBy (Spawning pid) k₀ k' ∧ Untidy AtHome msg k') k

theorem spawned_bind {α β : Type} {m : KExec α} {f : α → KExec β}
    {Q : β → Kernel → Prop} (hk : Spawned pid k₀ k) (hm : Quietly AtHome m)
    (hf : ∀ a k', Spawned pid k₀ k' → Spawns k₀ (f a) Q k') : Spawns k₀ (m >>= f) Q k := by
  refine post_seq (hm k) (fun a k' h => hf a k' (hk.step h.spawning)) ?_ ?_
  · exact fun _ k' h => .inr ⟨pid, hk.step h.spawning⟩
  · exact fun msg h => h.imp fun k' h => ⟨pid, trans_of (StepBy _) hk.2.2 h.1.spawning, h.2⟩

theorem spawn_post (hb : Basic k.ipc) (binary : Option (Except Error ElfImage)) :
    Spawns k (spawn binary) (fun pid k' => Spawned pid k k') k := by
  have hk := refl_of QuietStep k
  unfold Spawns spawn
  rw [post_bind, post_okOr]
  refine ⟨fun image _ => ?_, fun _ => .inl hk⟩
  refine post_seq (createProcess_post hb image) ?_ (fun _ _ h => .inl h) fun _ h => h
  rintro pid k1 ⟨hnone, hle, h₁, -⟩
  have hs1 : Spawned pid k k1 := ⟨hnone, hle, h₁⟩
  rw [post_bind]
  refine post_process (fun p hp _ => ?_) (fun _ => .inr ⟨pid, hs1⟩) fun hgt => absurd hle hgt
  rw [post_bind, post_setProcess]
  have hput : QuietStep k1 (k1.putProcess pid { p with syscallPermissions := BitVec.allOnes 64 }) :=
    quietStep_putProcess hp rfl rfl rfl rfl rfl rfl
  exact spawned_bind (hs1.step hput.spawning) (quiet_code.mapPage _ _ _ _ _).ignore fun _ _ h => h

theorem setThreadArgs_load (pid : PID) (x0 x1 x2 : Nat) (k : Kernel) :
    StepBy (Spawning pid) k (setThreadArgs pid x0 x1 x2 k) := by
  unfold setThreadArgs
  cases ha : k.archProcesses pid with
  | none => exact refl_of (StepBy _) k
  | some a =>
    refine ⟨.single (.inr (.inr rfl)) ?_, id⟩
    have hmove := @Move.load k.ipc pid (update k.ipc.context (pid, initialTid)
      (some { (a.threads initialTid).context with
        gpr := fun i => [x0, x1, x2].getD i ((a.threads initialTid).context.gpr i) }))
      fun u hu => Function.update_of_ne (fun heq => hu (congrArg Prod.fst heq)) _ _
    exact cast (congrArg (Move (.load pid) k.ipc) (ipc_putContext (t := (pid, initialTid)) ha _).symm) hmove

theorem spawnByName_post (hb : Basic k.ipc) (binary : Option (Except Error ElfImage)) :
    Spawns k (spawnByName binary) (fun pid k' => Spawned pid k k') k := by
  unfold spawnByName
  refine post_seq (spawn_post hb binary) (fun pid k1 h₁ => ?_) (fun _ _ h => h) fun _ h => h
  exact h₁.step (setThreadArgs_load _ _ _ _ _)

theorem spawnByNameWithArgs_post (hb : Basic k.ipc) (binary : Option (Except Error ElfImage)) (argvPtr argvLen : Nat) :
    Spawns k (spawnByNameWithArgs binary argvPtr argvLen) (fun pid k' => Spawned pid k k') k := by
  unfold spawnByNameWithArgs
  refine post_seq (spawn_post hb binary) (fun pid k1 h₁ => ?_) (fun _ _ h => h) fun _ h => h
  have hlast : ∀ (n : Nat) (k2 : Kernel), Spawned pid k k2 → Spawned pid k
      (setThreadArgs pid shellUartVa (if n > 0 then argvPageVa else 0) n k2) := fun n k2 h₂ =>
    h₂.step (setThreadArgs_load _ _ _ _ _)
  have hb1 : Basic k1.ipc := does_basic h₁.2.2.1 (fun l hl => (Spawning.harmless l hl).2) hb
  have hroom : ∀ k', AtHome k' → HasRoom k1.currentPid k' := fun _ _ => hb1.pids _ hb1.running
  split
  · rw [post_bind, post_get]
    refine spawned_bind h₁ (Follows.mapErr (Acts.mono process_quietly hroom) _) fun _ k2 h₂ => ?_
    refine spawned_bind h₂ (quiet_code.virtToPhys _ _) fun pa k3 h3 => ?_
    refine spawned_bind h3 (allocRange_quietly 1 pid) fun r k4 h4 => ?_
    refine spawned_bind h4 (quietly_modify (fun _ => rfl) fun _ => id) fun _ k5 h5 => ?_
    exact spawned_bind h5 ((quiet_code.mapPage _ _ _ _ _).mapErr _) fun _ k6 h6 => hlast _ k6 h6
  · exact hlast 0 k1 h₁

theorem createProcess_handled (hb : Basic k.ipc) (image : Except Error ElfImage) :
    Handled (.createProcess image) (dispatch k.currentTid (.createProcess image)) k := by
  simp only [dispatch]
  rw [Handled, post_bind]
  refine post_mono (createProcess_post hb image) ?_ (fun _ k' h => ⟨.quiet h.1, h.2⟩) fun msg => .of_spawning hb
  rintro pid k' ⟨hnone, hle, hk', -⟩
  exact Spawned.stays ⟨hnone, hle, hk'⟩

theorem spawned_handled {m : KExec PID} (hb : Basic k.ipc) (hm : Spawns k m (fun pid k' => Spawned pid k k') k) :
    Handled call (do pure (.result (.processID (← m)))) k := by
  rw [Handled, post_bind]
  refine post_mono hm (fun pid k' h => h.stays) ?_ fun msg => .of_spawning hb
  rintro _ k' (h | ⟨pid, h⟩)
  · exact ⟨.quiet h.1, h.2⟩
  · exact h.stays

end Kernel

end BeetKernel

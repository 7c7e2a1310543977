/-
# The queue of a new server

A new server's queue is a populated page read as an array of slots, and populated pages are not
zeroed.  The queue is empty exactly when the page happened to hold a zero tag in every slot;
`Server::init` counts all slots as empty in any case.
-/
import BeetKernel.Kernel.FreshPages
import BeetKernel.Server.Fifo

namespace BeetKernel

/-! ## 1. Reading a page as a queue -/

theorem readWord_congr {ram ram' : Nat → UInt8} {a a' : Nat}
    (h : ∀ i, i < 8 → ram (a + i) = ram' (a' + i)) : readWord ram a = readWord ram' a' := by
  simp only [readWord, List.range, List.range.loop, List.foldr]
  simp only [h 0 (by omega), h 1 (by omega), h 2 (by omega), h 3 (by omega), h 4 (by omega),
    h 5 (by omega), h 6 (by omega), h 7 (by omega)]

theorem decodeSlot_eq_empty_iff (ram : Nat → UInt8) (addr : Nat) :
    decodeSlot ram addr = some .empty ↔ readWord ram addr = 0 := by
  unfold decodeSlot
  simp only [Nat.mul_zero, Nat.add_zero]
  constructor
  · intro h
    split at h <;> simp_all [Option.bind_eq_some_iff]
  · intro h
    simp only [h]

theorem mapM_eq_some_iff {α β : Type} (f : α → Option β) : ∀ (l : List α) (l' : List β),
    l.mapM f = some l' ↔ List.Forall₂ (fun a b => f a = some b) l l'
  | [], l' => by cases l' <;> simp
  | a :: l, [] => by simp [List.mapM_cons, Option.bind_eq_some_iff]
  | a :: l, b :: l' => by
    rw [List.forall₂_cons, ← mapM_eq_some_iff f l l', List.mapM_cons]
    simp only [Option.pure_def, Option.bind_eq_bind, Option.bind_eq_some_iff, Option.some.injEq, List.cons.injEq]
    grind

/-- The array of slots is all `Empty` exactly when all tags are zero. -/
theorem decodeQueue_eq_replicate_iff (ram : Nat → UInt8) (addr n : Nat) :
    decodeQueue ram addr n = some (List.replicate n .empty) ↔
      ∀ i, i < n → readWord ram (addr + i * queuedMessageSize) = 0 := by
  unfold decodeQueue
  rw [mapM_eq_some_iff, List.forall₂_iff_get]
  simp [decodeSlot_eq_empty_iff]

theorem decodeQueue_length {ram : Nat → UInt8} {addr n : Nat} {queue : List QueuedMessage}
    (h : decodeQueue ram addr n = some queue) : queue.length = n := by
  unfold decodeQueue at h
  rw [mapM_eq_some_iff] at h
  simpa using h.length_eq.symm

/-- A queue without messages delivers the first message it accepts. -/
theorem Server.Repr.first_in_first_out {s s1 : Server} {n d slot : Nat} (h : Server.Repr s n d [])
    {pid : PID} {tid : TID} {m : Message} {orig : Option MemoryAddress}
    (hq : Server.queueMessage pid tid m orig s = .ok slot s1) (sidx : Nat) :
    ∃ env s2, Server.takeNextMessage sidx s1 = .ok (some env) s2 ∧ env.body = m := by
  by_cases hroom : .empty ∈ s.queue
  · by_cases horig : m.isLend = true → orig.isSome = true
    · obtain ⟨i, s', hrun, hrepr, -⟩ := h.queueMessage_ok pid tid m orig hroom (by decide) horig
      rw [hrun] at hq
      cases hq
      obtain ⟨env, s2, htake, hbody, -⟩ := hrepr.takeNextMessage_cons sidx
      exact ⟨env, s2, htake, hbody⟩
    · obtain ⟨s', hrun, -⟩ := h.queueMessage_badArguments pid tid m orig hroom horig
      rw [hrun] at hq
      cases hq
  · rw [h.queueMessage_full pid tid m orig hroom] at hq
    cases hq

namespace Kernel

/-! ## 2. Creating a server -/

/-- The first free entry of the server table. -/
def freeSlot (k : Kernel) : Option Nat := (List.range maxServerCount).find? fun i => (k.servers i).isNone

/-- The number of slots in a page. -/
def slotCount : Nat := pageSize / queuedMessageSize

variable {perms : MessageRange} {sid : SID} {k : Kernel}

theorem createServerWithAddress_eq_ok {k k' : Kernel} {sid r : SID} :
    createServerWithAddress sid perms k = .ok r k' ↔ r = sid ∧ ∃ sidx, freeSlot k = some sidx ∧ ∃ backing k1,
        mapRange 0 0 pageSize queueFlags false k = .ok backing k1 ∧ ∃ phys,
        (k1.pageTables k.activeMapping).virtToPhys backing.addr.get = .ok phys ∧ ∃ queue,
        decodeQueue k1.ram phys slotCount = some queue ∧ ∃ s,
        Server.init none k.currentPid sid backing.addr.get queue perms = .ok s ∧
        wakeThreadsWithState (.retryConnect sid.quickHash)
          { k1 with servers := Function.update k1.servers sidx (some s) } = .ok () k' := by
  unfold createServerWithAddress
  rw [Exec.get_bind_run]
  cases hslot : (List.range maxServerCount).find? (fun i => (k.servers i).isNone) with
  | none => simp [freeSlot, hslot]
  | some sidx =>
    simp only [Exec.bind_eq_ok, virtToPhys, Exec.get_bind_run, Exec.ofExcept_eq_ok,
      Exec.expect_eq_ok, Exec.unwrap_eq_ok, setServer, Exec.modify_bind_run, freeSlot, hslot,
      slotCount, Option.some.injEq]
    constructor
    · rintro ⟨backing, k1, hmap, phys, _, ⟨hphys, rfl⟩, queue, _, ⟨hqueue, rfl⟩, s, _, ⟨hs, rfl⟩, _, k2, hwake, hpure⟩
      cases hpure
      exact ⟨rfl, sidx, rfl, backing, k1, hmap, phys, hphys, queue, hqueue, s, hs, hwake⟩
    · rintro ⟨rfl, _, rfl, backing, k1, hmap, phys, hphys, queue, hqueue, s, hs, hwake⟩
      exact ⟨backing, k1, hmap, phys, k1, ⟨hphys, rfl⟩, queue, k1, ⟨hqueue, rfl⟩, s, k1, ⟨hs, rfl⟩, (), k', hwake, rfl⟩

/-- The tags of all slots of a page are zero. -/
def TagsZero (ram : Nat → UInt8) (addr : Nat) : Prop :=
  ∀ i, i < slotCount → readWord ram (addr + i * queuedMessageSize) = 0

theorem tagsZero_congr {ram ram' : Nat → UInt8} {addr : Nat}
    (h : ∀ off, off < pageSize → ram (addr + off) = ram' (addr + off)) :
    TagsZero ram addr ↔ TagsZero ram' addr := by
  have hword : ∀ i, i < slotCount → readWord ram (addr + i * queuedMessageSize) =
      readWord ram' (addr + i * queuedMessageSize) := by
    intro i hi
    refine readWord_congr fun j hj => ?_
    rw [Nat.add_assoc]
    refine h _ ?_
    simp only [slotCount, queuedMessageSize, pageSize] at *
    omega
  unfold TagsZero
  constructor <;> intro hz i hi
  · rw [← hword i hi, hz i hi]
  · rw [hword i hi, hz i hi]

theorem tagsZero_zero {addr : Nat} : TagsZero (fun _ => 0) addr := by
  intro i _
  simp [readWord, List.range, List.range.loop]

/-- The queue page: the frame the allocator hands out, as it was. -/
theorem queuePage_ok {k k1 : Kernel} {backing : MemoryRange} {phys : Nat}
    (hmap : mapRange 0 0 pageSize queueFlags false k = .ok backing k1)
    (hphys : (k1.pageTables k.activeMapping).virtToPhys backing.addr.get = .ok phys) :
    ∃ idx, handedOut k.mm 0 1 = some idx ∧ phys = dramBase + idx * pageSize ∧
      ∀ off, off < pageSize → k1.ram (phys + off) = k.ram (phys + off) := by
  obtain ⟨-, haligned, idx, hm⟩ := mapRange_ok (n := 1) (fun h => absurd rfl h) (by decide) hmap
  have hle := hm.inRam
  have hwalk := hm.walk 0 (by decide)
  rw [Nat.zero_mul, Nat.add_zero, Nat.add_zero] at hwalk
  have haddr : (dramBase + idx * pageSize) / pageSize % 2 ^ 34 * pageSize = dramBase + idx * pageSize := by
    rw [ramPages_eq] at hle
    simp only [dramBase, pageSize]
    omega
  simp only [PageTables.virtToPhys, hwalk, Except.ok.injEq, haligned, Pte.make, haddr, Nat.add_zero] at hphys
  subst hphys
  exact ⟨idx, hm.handedOut, rfl, fun off ho => hm.left (.inl fun hanon => absurd hanon.1 (by decide))
    idx (le_refl _) (by omega) off ho⟩

/-- **A fresh queue**: the server in entry `sidx` has all slots, every one of them is `Empty`
and counted as such, and the first message it accepts is the first it delivers. -/
structure FreshQueue (s : Server) : Prop where
  slots : s.queue.length = slotCount
  empty : ∀ q ∈ s.queue, q = .empty
  count : s.emptyCount = s.queue.length
  first : ∀ pid tid m orig slot s1, Server.queueMessage pid tid m orig s = .ok slot s1 →
    ∀ sidx, ∃ env s2, Server.takeNextMessage sidx s1 = .ok (some env) s2 ∧ env.body = m

theorem freshQueue_of_init {s : Server} {pid : PID} {backing : Nat}
    (h : Server.init none pid sid backing (List.replicate slotCount .empty) perms = .ok s) :
    FreshQueue s := by
  have hrepr := Server.repr_init (by decide) h
  obtain ⟨_, rfl⟩ := Server.init_ok h
  exact ⟨List.length_replicate, fun q hq => (List.mem_replicate.mp hq).2, rfl,
    fun _ _ _ _ _ _ hq sidx => hrepr.first_in_first_out hq sidx⟩

theorem wakeThreadsWithState_same {state : ThreadState}
    (h : ∀ pid p, k.processes pid = some p → ∀ tid, p.threads tid ≠ state)
    (hpid : ∀ pid, (k.processes pid).isSome = true → pid.get ≤ maxProcessCount) :
    wakeThreadsWithState state k = .ok () k := by
  refine Exec.each_same fun pid _ => ?_
  rw [Exec.get_bind_run]
  split
  next hsome =>
    refine Exec.each_same fun tid _ => ?_
    obtain ⟨p, hp⟩ := Option.isSome_iff_exists.mp hsome
    rw [Exec.bind_ok (process_eq_ok.mpr ⟨hpid pid hsome, hp, rfl⟩), if_neg (h pid p hp tid)]
    rfl
  · rfl

/-- **A run that returns**: the queue of the new server is what the page holds. -/
theorem createServerWithAddress_run {p : Process} {idx sidx : Nat} {start : PageAddress} {queue : List QueuedMessage}
    {s : Server} (hslot : freeSlot k = some sidx) (h : CanPopulate k p idx start)
    (hidx : idx < ramPages)
    (hqueue : decodeQueue k.ram (dramBase + idx * pageSize) slotCount = some queue)
    (hinit : Server.init none k.currentPid sid start.get queue perms = .ok s)
    (hquiet : ∀ pid q, k.processes pid = some q → ∀ tid, q.threads tid ≠ .retryConnect sid.quickHash)
    (hpids : ∀ pid, (k.processes pid).isSome = true → pid.get ≤ maxProcessCount) :
    createServerWithAddress sid perms k = .ok sid { k.populated p idx start queueFlags false with
        servers := Function.update k.servers sidx (some s) } := by
  have hwalk : ((k.populated p idx start queueFlags false).pageTables k.activeMapping).virtToPhys
      start.get = .ok (dramBase + idx * pageSize) := by
    have haddr : (dramBase + idx * pageSize) / pageSize % 2 ^ 34 * pageSize = dramBase + idx * pageSize := by
      rw [ramPages_eq] at hidx
      simp only [dramBase, pageSize]
      omega
    have hmod : start.get % pageSize = 0 := Nat.mul_mod_left _ _
    simp only [populated, Function.update_self, PageTables.virtToPhys, PageTables.walk, h.l2, h.l3,
      Bool.and_self, if_true, Pte.make, haddr, hmod, Nat.add_zero]
  refine createServerWithAddress_eq_ok.mpr ⟨rfl, sidx, hslot, _, _,
    mapRange_populate_run false h rfl rfl, _, hwalk, queue, hqueue, s, hinit, ?_⟩
  refine wakeThreadsWithState_same (fun pid q hq tid => ?_) (fun pid hq => ?_)
  · simp only [populated, Function.update_apply] at hq
    split at hq
    · cases hq
      exact hquiet _ _ h.process tid
    · exact hquiet _ _ hq tid
  · simp only [populated, Function.update_apply] at hq
    split at hq
    next heq =>
      exact heq ▸ h.pid
    · exact hpids pid hq

/-- **A new server's queue is fresh exactly when the page it is given has zero tags**, where
nothing else stands in the way of creating it: with zeroed memory the call would return. -/
theorem createServer_fresh_iff (k : Kernel) (sid : SID) (perms : MessageRange)
    (hgo : ∃ k₀, createServerWithAddress sid perms { k with ram := fun _ => 0 } = .ok sid k₀) :
    (∃ k' sidx s, createServerWithAddress sid perms k = .ok sid k' ∧ freeSlot k = some sidx ∧
        k'.servers sidx = some s ∧ FreshQueue s) ↔
      ∀ idx, handedOut k.mm 0 1 = some idx → TagsZero k.ram (dramBase + idx * pageSize) := by
  constructor
  · rintro ⟨k', sidx, s, hrun, hslot, hs, hfresh⟩ idx hidx
    obtain ⟨-, sidx', hslot', backing, k1, hmap, phys, hphys, queue, hqueue, s', hinit, hwake⟩ :=
      createServerWithAddress_eq_ok.mp hrun
    obtain rfl : sidx' = sidx := Option.some.inj (hslot'.symm.trans hslot)
    obtain ⟨idx', hidx', rfl, hsame⟩ := queuePage_ok hmap hphys
    obtain rfl : idx' = idx := Option.some.inj (hidx'.symm.trans hidx)
    have hservers := Exec.wp_ok (onlyThreads_code.wakeThreadsWithState _ _) hwake
    rw [hservers] at hs
    simp only [Function.update_self, Option.some.injEq] at hs
    subst hs
    obtain ⟨_, rfl⟩ := Server.init_ok hinit
    have hall : queue = List.replicate slotCount .empty := List.eq_replicate_iff.mpr ⟨hfresh.slots, hfresh.empty⟩
    rw [hall, decodeQueue_eq_replicate_iff] at hqueue
    exact (tagsZero_congr hsame).mp hqueue
  · intro htags
    obtain ⟨k₀, hrun₀⟩ := hgo
    obtain ⟨-, sidx, hslot, backing, k1, hmap, phys, hphys, queue, hqueue, s, hinit, hwake⟩ :=
      createServerWithAddress_eq_ok.mp hrun₀
    -- With zeroed memory the queue is empty, too: both runs make the same server.
    obtain ⟨idx₀, -, rfl, hzero⟩ := queuePage_ok hmap hphys
    have hqueue₀ := (decodeQueue_eq_replicate_iff _ _ slotCount).mpr ((tagsZero_congr hzero).mpr tagsZero_zero)
    rw [hqueue₀] at hqueue
    cases hqueue
    obtain ⟨k2, hmap', hsame⟩ := (mapRange_respects 0 0 pageSize queueFlags false).ok
      (sameButRam_ram { k with ram := fun _ => 0 } k.ram) hmap
    have hphys' : (k2.pageTables k.activeMapping).virtToPhys backing.addr.get = .ok (dramBase + idx₀ * pageSize) := by
      rw [hsame]
      exact hphys
    obtain ⟨idx, hidx, heq, hleft⟩ := queuePage_ok hmap' hphys'
    have htags' : TagsZero k.ram (dramBase + idx₀ * pageSize) := by
      rw [heq]
      exact htags idx hidx
    have hqueue' := (decodeQueue_eq_replicate_iff _ _ slotCount).mpr ((tagsZero_congr hleft).mpr htags')
    obtain ⟨k', hwake', -⟩ := (blind_code.wakeThreadsWithState _).respects.ok
      (sameButRam_ram { k1 with servers := Function.update k1.servers sidx (some s) } k2.ram) hwake
    have hrun : createServerWithAddress sid perms k = .ok sid k' := by
      refine createServerWithAddress_eq_ok.mpr ⟨rfl, sidx, hslot, backing, k2, hmap', _, hphys', _,
        hqueue', s, hinit, ?_⟩
      rw [hsame]
      exact hwake'
    have hservers := Exec.wp_ok (onlyThreads_code.wakeThreadsWithState _ _) hwake'
    exact ⟨k', sidx, s, hrun, hslot, by rw [hservers]; simp, freshQueue_of_init hinit⟩

end Kernel

namespace Machine

open Kernel

theorem processes_pid {pid : PID} (h : (processes pid).isSome = true) : pid.get ≤ maxProcessCount := by
  unfold processes at h
  split at h
  next hp =>
    rw [hp]
    decide
  · split at h
    next hp =>
      rcases hp with rfl | rfl | rfl <;> decide
    · cases h

theorem processes_threads {pid : PID} {p : Process} (h : processes pid = some p) (tid : TID) :
    p.threads tid = .ready ∨ p.threads tid = .free := by
  have hthreads : p.threads = userProcess.threads := by
    unfold processes at h
    split at h
    · cases h
      rfl
    · split at h <;> cases h
      rfl
  rw [hthreads]
  unfold userProcess
  dsimp only
  split
  · exact .inl rfl
  · exact .inr rfl

/-- A server id. -/
def sid : SID := ⟨1, 2, 3, 4⟩

/-- A server of process 2 that has just been created with the slots `queue`. -/
def server (queue : List QueuedMessage) : Server :=
  { sid, pid := p2, queueHead := 0, queueTail := 0, headGeneration := 0, tailGeneration := 0
    emptyCount := queue.length, queueAddr := PageAddress.mmapArea.get, queue, readyThreads := 0
    defaultPermissions := MessagePermissions.default }

/-- The machine after process 2 has created the first server. -/
def withServer (ram : Nat → UInt8) (queue : List QueuedMessage) : Kernel :=
  { (kernel ram).populated userProcess 0 .mmapArea queueFlags false with
    servers := Function.update (fun _ => none) 0 (some (server queue)) }

theorem createServer_run {ram : Nat → UInt8} {queue : List QueuedMessage}
    (hqueue : decodeQueue ram dramBase slotCount = some queue) :
    createServerWithAddress sid ⟨0, 0⟩ (kernel ram) = .ok sid (withServer ram queue) :=
  createServerWithAddress_run (s := server queue) rfl (canPopulate ram) (by decide) hqueue rfl
    (fun _ _ hq tid => by rcases processes_threads hq tid with h | h <;> simp [h])
    (fun _ => processes_pid)

/-- Memory in which frame 0 starts with a scalar message of process 4. -/
def forged (a : Nat) : UInt8 :=
  if a = dramBase then 2 else if a = dramBase + 8 then 4 else 0

theorem decodeQueue_forged : decodeQueue forged dramBase slotCount =
    some (.scalarMessage p4 0 0 #v[0, 0, 0, 0] :: List.replicate 255 .empty) := by decide +kernel

end Machine

namespace Kernel

/-- A server created on a page that starts with a message has that message in its queue. -/
theorem createServer_forged : ∃ k' s,
    createServerWithAddress Machine.sid ⟨0, 0⟩ (Machine.kernel Machine.forged) = .ok Machine.sid k' ∧
    freeSlot (Machine.kernel Machine.forged) = some 0 ∧ k'.servers 0 = some s ∧
    s.queue[0]? = some (.scalarMessage Machine.p4 0 0 #v[0, 0, 0, 0]) ∧ ¬ FreshQueue s := by
  refine ⟨_, Machine.server _, Machine.createServer_run Machine.decodeQueue_forged, rfl, rfl, rfl, ?_⟩
  intro hfresh
  exact absurd (hfresh.empty _ List.mem_cons_self) (by decide)

theorem createServer_fresh_zero : (∃ k₀, createServerWithAddress Machine.sid ⟨0, 0⟩
      { Machine.kernel (fun _ => 0) with ram := fun _ => 0 } = .ok Machine.sid k₀) ∧
    ((∃ k' sidx s, createServerWithAddress Machine.sid ⟨0, 0⟩ (Machine.kernel fun _ => 0) = .ok Machine.sid k' ∧
        freeSlot (Machine.kernel fun _ => 0) = some sidx ∧ k'.servers sidx = some s ∧
        FreshQueue s) ↔
      ∀ idx, handedOut Machine.mm 0 1 = some idx → TagsZero (fun _ => 0) (dramBase + idx * pageSize)) := by
  have hgo := Machine.createServer_run
    ((decodeQueue_eq_replicate_iff (fun _ => 0) dramBase slotCount).mpr tagsZero_zero)
  exact ⟨⟨_, hgo⟩, createServer_fresh_iff _ Machine.sid ⟨0, 0⟩ ⟨_, hgo⟩⟩

end Kernel

end BeetKernel

/-
# What a process finds in the memory it is given

Nothing in the mapping code looks at what a page holds, so two runs from states that differ
only there take the same steps.  Comparing them shows which of the calls that obtain memory let
their caller read what the last owner of a frame left behind.
-/
import BeetKernel.Kernel.Mapping
import BeetKernel.Kernel.MemoryFrame

namespace BeetKernel

open Exec (Respects bind_eq_ok zoom)

variable {α : Type} {k k' : Kernel} {phys j size : Nat} {flags : MemoryFlags} {range : MemoryRange}
  {tid : TID} {call : SysCall}

namespace Kernel

/-! ## 1. Two runs that differ only in the bytes of memory -/

/-- The states differ at most in the bytes of memory. -/
def SameButRam (k k' : Kernel) : Prop := k' = { k with ram := k'.ram }

theorem sameButRam_ram (k : Kernel) (ram : Nat → UInt8) : SameButRam k { k with ram } := rfl

theorem MemoryBlind.respects {m : KExec α} (h : MemoryBlind m) :
    Respects SameButRam m := by
  intro k k' hk
  have hrun := h ⟨k.mm, k.pageTables, k'.ram⟩ k
  rw [show withMemory ⟨k.mm, k.pageTables, k'.ram⟩ k = k' from hk.symm] at hrun
  rw [hrun]
  cases hm : m k with
  | ok a k₁ =>
    have hmem := h.ok hm
    refine ⟨rfl, ?_⟩
    simp only [memory, Memory.mk.injEq] at hmem
    simp only [SameButRam, withMemory, ← hmem.1, ← hmem.2.1]
  | err e k₁ =>
    have hmem := h.err hm
    refine ⟨rfl, ?_⟩
    simp only [memory, Memory.mk.injEq] at hmem
    simp only [SameButRam, withMemory, ← hmem.1, ← hmem.2.1]
  | panic msg => rfl

/-- Reading the state and going on with anything but the bytes of memory. -/
theorem get_bind_respects {g : Kernel → KExec α}
    (hg : ∀ k ram, g { k with ram } = g k) (h : ∀ k, Respects SameButRam (g k)) :
    Respects SameButRam (Exec.get >>= g) :=
  Respects.get_bind (fun k k' hk => by rw [hk]; exact (hg k k'.ram).symm) h

theorem modify_respects {f : Kernel → Kernel}
    (hf : ∀ k ram, f { k with ram } = { f k with ram := (f { k with ram }).ram }) :
    Respects SameButRam (Exec.modify f : KExec Unit) :=
  Respects.modify fun k k' hk => by
    have := hf k k'.ram
    rw [← hk] at this
    exact this

theorem withMemoryManager_respects (m : Exec MemoryManager Error α) : Respects SameButRam (withMemoryManager m) := by
  have hzoom : Respects SameButRam (zoom Kernel.mm (fun mm k => { k with mm }) m : KExec α) := by
    intro k k' hk
    have hmm : k'.mm = k.mm := by rw [hk]
    unfold zoom
    rw [hmm]
    cases m k.mm with
    | ok a mm =>
      refine ⟨rfl, ?_⟩
      rw [hk]
      rfl
    | err e mm =>
      refine ⟨rfl, ?_⟩
      rw [hk]
      rfl
    | panic msg => rfl
  refine hzoom.attempt.bind fun r => get_bind_respects (fun _ _ => rfl) fun k => ?_
  dsimp only
  split
  · exact (modify_respects fun _ _ => rfl).bind fun _ =>
      ((broadcastEvent_blind _ _).respects).ignore.bind fun _ => Respects.ofExcept r
  · exact Respects.ofExcept r

theorem claimReleaseMove_respects (addr : Nat) (pid : PID) (action : ClaimReleaseMove) :
    Respects SameButRam (claimReleaseMove addr pid action) := by
  unfold claimReleaseMove
  dsimp only
  split
  · refine (process_blind pid).respects.attempt.bind fun r => ?_
    cases r with
    | ok p => exact withMemoryManager_respects _
    | error e => exact withMemoryManager_respects _
  · exact withMemoryManager_respects _

theorem respects_code : MemoryCode fun _ m => Respects SameButRam m where
  pure := .pure
  throw := .throw
  bind hm hf := hm.bind hf
  attempt hm := hm.attempt
  ignore hm := hm.ignore
  mapErr f hm := hm.mapErr f
  overflow b := .assert b _
  get_bind := get_bind_respects
  allocRange _ _ := withMemoryManager_respects _
  zeroBytes _ _ := modify_respects fun _ _ => rfl
  setPageTables _ _ := modify_respects fun _ _ => rfl

theorem findVirtualAddress_respects (pid : PID) (virt size : Nat) :
    Respects SameButRam (findVirtualAddress pid virt size) := by
  unfold findVirtualAddress
  split
  · exact Respects.pure _
  · refine blind_code.currentProcess.respects.bind fun p => (Respects.assert _ _).bind fun _ =>
      get_bind_respects (fun _ _ => rfl) fun k => ?_
    dsimp only
    generalize Option.or _ _ = found
    cases found with
    | some start => exact (setProcess_blind _ _).respects.bind fun _ => Respects.pure _
    | none => exact Respects.throw _

theorem mapRange_respects (phys virt size : Nat) (flags : MemoryFlags) (mapUser : Bool) :
    Respects SameButRam (mapRange phys virt size flags mapUser) :=
  get_bind_respects (fun _ _ => rfl) fun _ => (findVirtualAddress_respects _ _ _).bind fun _ =>
    (respects_code.obtainPages (claimReleaseMove_respects · _ ·) _ _ _).bind fun _ =>
    (respects_code.mapPages (claimReleaseMove_respects · _ ·) _ _ _ _ _ _ _).bind fun _ =>
      (Respects.okOr _ _).bind fun _ => (Respects.okOr _ _).bind fun _ => Respects.pure _

/-! ## 2. What the caller reads -/

/-- The address belongs to a free frame that the tracker does not know to be zeroed: what it
holds is what the last owner left there. -/
def Stale (k : Kernel) (a : Nat) : Prop :=
  ∃ i, i < ramPages ∧ k.mm.freePagesDirty i = true ∧ k.mm.freePagesZeroed i = false ∧
    dramBase + i * pageSize ≤ a ∧ a < dramBase + i * pageSize + pageSize

/-- The byte a process reads at an address. -/
def readByte (k : Kernel) (pid : PID) (va : Nat) : Option UInt8 :=
  ((k.pageTables pid).walk va).map fun pte => k.ram (pte.addr + va % pageSize)

/-- The address is on one of the pages of the range. -/
def OnPages (range : MemoryRange) (va : Nat) : Prop :=
  range.addr.get / pageSize * pageSize ≤ va ∧ va < range.addr.get / pageSize * pageSize + range.size.get

/-- **Nothing left over**: had other bytes been left behind in the free frames, the call would
have returned the same range, and its caller would read the same bytes from it. -/
def ReadsIndependent (call : KExec Response) (k : Kernel) : Prop := ∀ ram, (∀ a, ¬ Stale k a → ram a = k.ram a) →
    ∀ range k₁, call k = .ok (.result (.memoryRange range)) k₁ →
      ∃ k2, call { k with ram } = .ok (.result (.memoryRange range)) k2 ∧
        ∀ va, OnPages range va → readByte k2 k.activeMapping va = readByte k₁ k.activeMapping va

/-- Every byte of the range is read from the frame its page was given. -/
theorem Mapped.readByte {n idx : Nat} {mapUser : Bool} (h : Mapped k phys n flags mapUser range idx k') {va : Nat}
    (hj : j < n) (hva : va / pageSize = range.addr.get / pageSize + j) :
    readByte k' k.activeMapping va = some (k'.ram (dramBase + (idx + j) * pageSize + va % pageSize)) := by
  have hle := h.inRam
  have hpage : va / pageSize = (range.addr.get + j * pageSize) / pageSize := by
    rw [Nat.add_mul_div_right _ _ (by decide : 0 < pageSize), hva]
  have haddr : (dramBase + (idx + j) * pageSize) / pageSize % 2 ^ 34 * pageSize = dramBase + (idx + j) * pageSize := by
    rw [ramPages_eq] at hle
    simp only [dramBase, pageSize]
    omega
  unfold Kernel.readByte
  rw [walk_congr _ (congrArg (· % 2 ^ 33) hpage), h.walk j hj]
  simp only [Option.map_some, Pte.make, haddr]

theorem onPages_page {n va : Nat} (hsize : range.size.get = n * pageSize)
    (h : OnPages range va) : ∃ j, j < n ∧ va / pageSize = range.addr.get / pageSize + j := by
  refine ⟨va / pageSize - range.addr.get / pageSize, ?_, ?_⟩ <;>
    · simp only [OnPages, hsize, pageSize] at *
      omega

theorem not_stale_of_zeroed {off : Nat} (hz : k.mm.freePagesZeroed j = true)
    (ho : off < pageSize) : ¬ Stale k (dramBase + j * pageSize + off) := by
  rintro ⟨i, -, -, hi, h1, h2⟩
  have hij : j ≠ i := by
    rintro rfl
    rw [hz] at hi
    cases hi
  exact not_in_frame hij ho ⟨h1, h2⟩

end Kernel

/-- The calls that obtain memory, as requests to `map_range`: the physical address, the size
and the flags. -/
def SysCall.request : SysCall → Option (Nat × Nat × MemoryFlags)
  | .mapMemory phys _ size flags => some (NonZeroUsize.getOrZero phys, size.get, flags)
  | .increaseHeap size => some (0, size.get, { populate := true, w := true })
  | _ => none

namespace Kernel

/-- A call that obtained memory obtained it from `map_range`. -/
theorem handle_request_ok (hreq : call.request = some (phys, size, flags))
    (h : handle tid call k = .ok (.result (.memoryRange range)) k') :
    ∃ n virt, 0 < n ∧ size = n * pageSize ∧ mapRange phys virt (n * pageSize) flags true k = .ok range k' := by
  have hwhole : ∀ s : MemorySize, ¬ (s.get % pageSize ≠ 0) →
      0 < s.get / pageSize ∧ s.get = s.get / pageSize * pageSize := by
    intro s hs
    have := s.ne_zero
    simp only [pageSize] at *
    omega
  unfold SysCall.request at hreq
  split at hreq
  next ph virt sz fl =>
    simp only [Option.some.injEq, Prod.mk.injEq] at hreq
    obtain ⟨rfl, rfl, rfl⟩ := hreq
    simp only [handle, checkSyscallPermission, dispatch, mapMemory, bind_eq_ok, Exec.get_bind_run] at h
    obtain ⟨_, _, hpure, r, k₁, hmap, h⟩ := h
    cases hpure
    cases h
    split at hmap
    · cases hmap
    · split at hmap
      · cases hmap
      next hsz =>
        split at hmap
        · cases hmap
        · rw [bind_eq_ok] at hmap
          obtain ⟨r, k2, hr, hmap⟩ := hmap
          cases hmap
          exact ⟨_, _, (hwhole sz hsz).1, (hwhole sz hsz).2, (hwhole sz hsz).2 ▸ hr⟩
  next sz =>
    simp only [Option.some.injEq, Prod.mk.injEq] at hreq
    obtain ⟨rfl, rfl, rfl⟩ := hreq
    simp only [handle, checkSyscallPermission, dispatch, increaseHeap, bind_eq_ok] at h
    obtain ⟨_, _, hpure, r, k₁, hmap, h⟩ := h
    cases hpure
    cases h
    split at hmap
    · cases hmap
    next hsz =>
      rw [bind_eq_ok] at hmap
      obtain ⟨r, k2, hr, hmap⟩ := hmap
      cases hmap
      exact ⟨_, _, (hwhole sz hsz).1, (hwhole sz hsz).2, (hwhole sz hsz).2 ▸ hr⟩
  · cases hreq

theorem handle_increaseHeap_run (tid : TID) {size : MemorySize} (hsize : size.get % pageSize = 0)
    (h : mapRange 0 0 size.get { populate := true, w := true } true k = .ok range k') :
    handle tid (.increaseHeap size) k = .ok (.result (.memoryRange range)) k' := by
  simp only [handle, checkSyscallPermission, dispatch, increaseHeap, hsize,
    ne_eq, not_true_eq_false, if_false, Exec.bind_run, h, Exec.pure_run]

theorem handle_request_respects (tid : TID) {request : Nat × Nat × MemoryFlags}
    (hreq : call.request = some request) : Respects SameButRam (handle tid call) := by
  unfold SysCall.request at hreq
  split at hreq
  · refine (Respects.pure ()).bind fun _ => Respects.bind ?_ fun _ => Respects.pure _
    exact get_bind_respects (fun _ _ => rfl) fun _ => Respects.ite (Respects.throw _)
      (Respects.ite (Respects.throw _) (Respects.ite (Respects.throw _)
        ((mapRange_respects _ _ _ _ _).bind fun _ => Respects.pure _)))
  · refine (Respects.pure ()).bind fun _ => Respects.bind ?_ fun _ => Respects.pure _
    exact Respects.ite (Respects.throw _) ((mapRange_respects _ _ _ _ _).bind fun _ => Respects.pure _)
  · cases hreq

theorem handle_request_two_runs {k₁ : Kernel} (ram : Nat → UInt8)
    (hreq : call.request = some (phys, size, flags)) (hram : InRam phys size)
    (h : handle tid call k = .ok (.result (.memoryRange range)) k₁) :
    ∃ n idx k2, size = n * pageSize ∧ range.size.get = n * pageSize ∧
      handle tid call { k with ram } = .ok (.result (.memoryRange range)) k2 ∧
      Mapped k phys n flags true range idx k₁ ∧
      Mapped { k with ram } phys n flags true range idx k2 := by
  have hrel := handle_request_respects tid hreq k { k with ram } (sameButRam_ram k ram)
  rw [h] at hrel
  cases h2 : handle tid call { k with ram } with
  | ok r k2 =>
    rw [h2] at hrel
    obtain ⟨rfl, -⟩ := hrel
    obtain ⟨n, virt, hn, rfl, hmap⟩ := handle_request_ok hreq h
    obtain ⟨n', virt', hn', hsize, hmap'⟩ := handle_request_ok hreq h2
    obtain rfl : n' = n := Nat.eq_of_mul_eq_mul_right (by decide) hsize.symm
    obtain ⟨hsz, -, idx, hm⟩ := mapRange_ok hram hn hmap
    obtain ⟨-, -, idx', hm'⟩ := mapRange_ok hram hn hmap'
    obtain rfl : idx = idx' := Option.some.inj (hm.handedOut.symm.trans hm'.handedOut)
    exact ⟨_, idx, k2, rfl, hsz, rfl, hm, hm'⟩
  | err e k2 => rw [h2] at hrel; exact hrel.elim
  | panic msg => rw [h2] at hrel; exact hrel.elim

/-- A frame that was not marked zeroed and is handed out as it is shows its old bytes. -/
theorem not_readsIndependent {k₁ : Kernel} {idx : Nat}
    (hreq : call.request = some (phys, size, flags)) (hram : InRam phys size)
    (h : handle tid call k = .ok (.result (.memoryRange range)) k₁)
    (hother : ¬ Anonymous phys flags) (hidx : handedOut k.mm phys (size / pageSize) = some idx)
    (h1 : idx ≤ j) (h2 : j < idx + size / pageSize) (hz : k.mm.freePagesZeroed j = false) :
    ¬ ReadsIndependent (handle tid call) k := by
  intro hind
  -- In the second run, the first byte of frame `j` is another one.
  let a := dramBase + j * pageSize
  let ram := Function.update k.ram a (k.ram a + 1)
  obtain ⟨n, idx', k2, rfl, hsz, hrun, hm, hm'⟩ := handle_request_two_runs ram hreq hram h
  rw [Nat.mul_div_cancel _ (by decide : 0 < pageSize)] at hidx h2
  obtain rfl : idx = idx' := Option.some.inj (hidx.symm.trans hm.handedOut)
  have hle := hm.inRam
  have hstale : Stale k a := by
    refine ⟨j, by omega, (hm.wasFree j h1 h2).resolve_left ?_, hz, le_refl _, by simp [a, pageSize]⟩
    rw [hz]
    decide
  have hsame : ∀ b, ¬ Stale k b → ram b = k.ram b := fun b hb =>
    Function.update_of_ne (fun hab : b = a => hb (hab ▸ hstale)) _ _
  obtain ⟨k2', hrun', hread⟩ := hind ram hsame range k₁ h
  rw [hrun] at hrun'
  cases hrun'
  let va := (range.addr.get / pageSize + (j - idx)) * pageSize
  have hva : va / pageSize = range.addr.get / pageSize + (j - idx) := Nat.mul_div_cancel _ (by decide)
  have hmod : va % pageSize = 0 := Nat.mul_mod_left _ _
  have hj : idx + (j - idx) = j := by omega
  have hon : OnPages range va := by
    simp only [OnPages, hsz, va, pageSize]
    omega
  have hread1 := hm.readByte (by omega) hva
  have hread2 := hm'.readByte (by omega) hva
  have hb1 := hm.left (.inl hother) j h1 h2 0 (by decide)
  have hb2 := hm'.left (.inl hother) j h1 h2 0 (by decide)
  rw [hj, hmod, hb1] at hread1
  rw [hj, hmod, hb2] at hread2
  have heq : ram a = k.ram a := Option.some.inj (hread2.symm.trans ((hread va hon).trans hread1))
  rw [show ram a = k.ram a + 1 from Function.update_self _ _ _] at heq
  exact absurd heq (by grind)

/-- **Memory from `MapMemory` or `IncreaseHeap` reads the same whatever its frames held
before, exactly when it is anonymous or all of its frames were marked zeroed.** -/
theorem obtained_memory_independent_iff (k k₁ : Kernel) (tid : TID) (call : SysCall)
    (phys size : Nat) (flags : MemoryFlags) (range : MemoryRange)
    (hreq : call.request = some (phys, size, flags)) (hram : InRam phys size)
    (h : handle tid call k = .ok (.result (.memoryRange range)) k₁) :
    ReadsIndependent (handle tid call) k ↔
      Anonymous phys flags ∨ ∀ idx, handedOut k.mm phys (size / pageSize) = some idx →
        k.mm.AllZeroed idx (size / pageSize) := by
  constructor
  · intro hind
    refine or_iff_not_imp_left.mpr fun hother idx hidx j h1 h2 => ?_
    by_contra hz
    exact not_readsIndependent hreq hram h hother hidx h1 h2 (Bool.eq_false_of_not_eq_true hz) hind
  · intro hcond ram hsame range' k1' hrun1
    rw [h] at hrun1
    cases hrun1
    obtain ⟨n, idx, k2, rfl, hsz, hrun, hm, hm'⟩ := handle_request_two_runs ram hreq hram h
    rw [Nat.mul_div_cancel _ (by decide : 0 < pageSize)] at hcond
    refine ⟨k2, hrun, fun va hva => ?_⟩
    obtain ⟨j, hj, hpage⟩ := onPages_page hsz hva
    have ho : va % pageSize < pageSize := Nat.mod_lt _ (by decide)
    rw [hm.readByte hj hpage, show k.activeMapping = ({ k with ram } : Kernel).activeMapping from rfl,
      hm'.readByte hj hpage]
    by_cases hall : k.mm.AllZeroed idx n
    · rw [hm.left (.inr hall) _ (by omega) (by omega) _ ho, hm'.left (.inr hall) _ (by omega) (by omega) _ ho]
      exact congrArg some (hsame _ (not_stale_of_zeroed (hall _ (by omega) (by omega)) ho))
    · have hanon := hcond.resolve_right fun hz => hall (hz idx hm.handedOut)
      rw [hm.zeroed hanon hall _ (by omega) (by omega) _ ho, hm'.zeroed hanon hall _ (by omega) (by omega) _ ho]

end Kernel

/-! ## 3. A small machine

Three processes beside the kernel's own, with one ready thread each.  Their page tables exist
and map nothing, and 2000 pages are free, all of them dirty. -/

namespace Machine

def p2 : PID := ⟨2, by decide, by decide⟩
def p3 : PID := ⟨3, by decide, by decide⟩
def p4 : PID := ⟨4, by decide, by decide⟩

/-- The first page of a process's own area. -/
def ownPage : MemoryRange := ⟨⟨mmapAreaVirt, by decide⟩, ⟨pageSize, by decide⟩⟩

/-- A process with one ready thread and every permission. -/
def userProcess : Process := { Process.new PID.kernel with
    threads := fun tid => if tid = initialTid then .ready else .free
    syscallPermissions := BitVec.allOnes 64 }

def processes (pid : PID) : Option Process :=
  if pid = PID.kernel then some { userProcess with threadPriorities := fun _ => .idle }
  else if pid = p2 ∨ pid = p3 ∨ pid = p4 then some userProcess
  else none

/-- The ready threads of the three processes in a ring, and the kernel's thread on its own. -/
def scheduler : Scheduler :=
  { queueHeads := fun q =>
      if q = ThreadPriority.appDefault.toIndex then some (p2, initialTid)
      else if q = ThreadPriority.idle.toIndex then some (PID.kernel, initialTid) else none
    links := fun t =>
      if t = (p2, initialTid) then some ⟨(p3, initialTid), (p4, initialTid)⟩
      else if t = (p3, initialTid) then some ⟨(p4, initialTid), (p2, initialTid)⟩
      else if t = (p4, initialTid) then some ⟨(p2, initialTid), (p3, initialTid)⟩
      else if t = (PID.kernel, initialTid) then some ⟨t, t⟩ else none
    highestReadyPriority := ThreadPriority.appDefault.toIndex
    inIrqHandler := false }

def pages : Nat := 2000

def mm : MemoryManager := { MemoryManager.default with
    allocationsLen := pages
    freePagesDirty := fun i => decide (i < pages)
    numFreePages := pages }

/-- The machine, with process 2 about to run and the given bytes in memory. -/
def kernel (ram : Nat → UInt8) : Kernel :=
  { processes, scheduler, mm, ram
    servers := fun _ => none
    pageTables := fun _ => ⟨0, fun _ => some 0, fun _ _ => some 0, fun _ => none⟩
    archProcesses := fun pid => if (processes pid).isSome then
        some ⟨fun tid => { Thread.default with allocated := decide (tid = initialTid) }, initialTid⟩
      else none
    currentPid := p2
    activeMapping := p2
    display := ⟨none, 0, 0, [], none, []⟩ }

theorem mm_nextDirty : mm.NextDirty 0 where
  hint := by decide
  zeroed := fun _ => rfl
  dirty := by decide +kernel
  unowned := rfl
  tracked := by decide
  plenty := by decide +kernel
  quiet := rfl

theorem searched : (mmapAreaVirtEnd - pageSize - userProcess.allocationHint.get + pageSize - 1) / pageSize =
    1073741822 + 1 := by decide

/-- The first page process 2 populates is frame 0, at the start of the area for mappings. -/
theorem canPopulate (ram : Nat → UInt8) : Kernel.CanPopulate (kernel ram) userProcess 0 .mmapArea where
  pid := show p2.get ≤ maxProcessCount by decide
  process := rfl
  free := by
    rw [searched]
    rfl
  nonzero := by decide
  next := mm_nextDirty
  l2 := rfl
  l3 := rfl

theorem increaseHeap_run (ram : Nat → UInt8) :
    ∃ k', Kernel.handle 1 (.increaseHeap ⟨pageSize, by decide⟩) (kernel ram) =
      .ok (.result (.memoryRange ⟨⟨mmapAreaVirt, by decide⟩, ⟨pageSize, by decide⟩⟩)) k' := by
  exact ⟨_, Kernel.handle_increaseHeap_run 1 (Nat.mod_self pageSize)
    (Kernel.mapRange_populate_run true (canPopulate ram) rfl rfl)⟩

end Machine

namespace Kernel

/-- A process whose heap grows reads what the last owner of the frame left there. -/
theorem increaseHeap_leaks :
    ¬ ReadsIndependent (handle 1 (.increaseHeap ⟨pageSize, by decide⟩)) (Machine.kernel fun _ => 0) := by
  obtain ⟨k', h⟩ := Machine.increaseHeap_run fun _ => 0
  have hidx : handedOut Machine.mm 0 (pageSize / pageSize) = some 0 := by
    rw [handedOut, if_neg (by decide), show pageSize / pageSize = 1 by decide, MemoryManager.pick, if_pos rfl,
      MemoryManager.pickSinglePage_first_dirty Machine.mm_nextDirty.zeroed Machine.mm_nextDirty.dirty]
    rfl
  exact not_readsIndependent rfl (fun h => absurd rfl h) h (fun hanon => absurd hanon.1 (by decide))
    hidx (le_refl 0) (by decide) rfl

theorem obtained_memory_independent_heap : ∃ k',
    handle 1 (.increaseHeap ⟨pageSize, by decide⟩) (Machine.kernel fun _ => 0) =
      .ok (.result (.memoryRange ⟨⟨mmapAreaVirt, by decide⟩, ⟨pageSize, by decide⟩⟩)) k' ∧
    (ReadsIndependent (handle 1 (.increaseHeap ⟨pageSize, by decide⟩)) (Machine.kernel fun _ => 0) ↔
      Anonymous 0 { populate := true, w := true } ∨ ∀ idx, handedOut Machine.mm 0 (pageSize / pageSize) = some idx →
          Machine.mm.AllZeroed idx (pageSize / pageSize)) := by
  obtain ⟨k', h⟩ := Machine.increaseHeap_run fun _ => 0
  exact ⟨k', h, obtained_memory_independent_iff _ k' 1 _ 0 pageSize _ _ rfl (fun h => absurd rfl h) h⟩

end Kernel

end BeetKernel

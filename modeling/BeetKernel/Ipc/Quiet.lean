/-
# What the kernel does quietly

Mapping and unmapping memory, carrying it from one process to another and changing the
connection table make QUIET moves only: whatever they do to memory, all that threads and
servers can notice are the events that go out when memory runs low, and the messages those
put into queues.

`Quietly P m` says so of the code `m`, and two things more.  `m` comes back to the mapping it
started in.  And where the tables are in order, `m` does not run into one of the checks on
them, provided `P`: that a process id the caller chose is one the process table has room for,
or that the kernel works in the mapping of the process it runs for.
-/
import BeetKernel.Ipc.Servers
import BeetKernel.Kernel.Mapping
import BeetKernel.Kernel.MemoryFrame

namespace BeetKernel

open Exec (post_assert post_bind post_get post_mono post_ofExcept post_pure post_set)

/-! ## 1. The page tracker -/

namespace MemoryManager

open Ipc (Covered)
open Exec (Follows)

variable {α β : Type} {mm mm' : MemoryManager}

/-- The sizes of the tracker's tables. -/
def frames (mm : MemoryManager) : Nat × List MemoryRangeExtra := (mm.allocationsLen, mm.extraRegions)

def SameFrames (mm mm' : MemoryManager) : Prop := mm'.frames = mm.frames

instance : IsPreorder MemoryManager SameFrames where
  refl _ := rfl
  trans _ _ _ h1 h2 := h2.trans h1

/-- A panic of the tracker for which its tables have to answer. -/
def Short (msg : String) (mm : MemoryManager) : Prop := msg ≠ parkMessage ∧ (msg ∈ tableMessages → ¬ Covered mm.frames)

theorem Short.of_unfollowed {msg : String} (h : Unfollowed msg) (mm : MemoryManager) : Short msg mm :=
  ⟨h.2, fun hm => absurd hm h.1⟩

/-- Tracker code that leaves the sizes alone and stays within them. -/
abbrev Within (m : Exec MemoryManager Error α) : Prop := Follows SameFrames Short m

theorem allocationAt_bind {offset : Nat} {f : Option PID → Exec MemoryManager Error β}
    (hmm : SameFrames mm mm') (hf : ∀ o, Within (f o))
    (hoff : Covered mm.frames → offset < mm.allocationsLen) :
    Exec.post (allocationAt offset >>= f) (fun _ mm' => SameFrames mm mm')
      (fun _ mm' => SameFrames mm mm') (fun msg => ∃ mm', SameFrames mm mm' ∧ Short msg mm') mm' := by
  unfold allocationAt
  simp only [post_bind, post_get, post_assert, post_pure, decide_eq_true_eq]
  refine ⟨fun _ => Follows.after hmm (hf _), fun hno => ⟨mm, rfl, by decide, fun _ hc => ?_⟩⟩
  have hlen : mm'.allocationsLen = mm.allocationsLen := congrArg Prod.fst hmm
  rw [hlen] at hno
  exact absurd (hoff hc) (by simpa using hno)

theorem setAllocation_within (offset : Nat) (owner : Option PID) :
    Within (setAllocation offset owner) := Follows.modify fun _ => rfl

theorem addFreePages_within (n : Nat) : Within (addFreePages n) := by
  refine Follows.get_bind fun mm => ?_
  simp only [post_bind, post_assert, post_set]
  exact ⟨fun _ => rfl, fun _ => ⟨mm, rfl, .of_unfollowed (by decide) _⟩⟩

theorem subtractFreePages_within (n : Nat) : Within (subtractFreePages n) := by
  refine Follows.get_bind fun mm => ?_
  simp only [post_bind, post_assert]
  refine ⟨fun _ => ?_, fun _ => ⟨mm, rfl, .of_unfollowed (by decide) _⟩⟩
  split <;> rfl

theorem allocSinglePage_within (pid : PID) : Within (allocSinglePage pid) := by
  refine Follows.get_bind fun mm => ?_
  rw [post_bind, post_assert]
  refine ⟨fun hhint => ?_, fun _ => ⟨mm, rfl, .of_unfollowed (by decide) _⟩⟩
  split
  · exact refl_of SameFrames mm
  next idx zeroed hpick =>
    rw [post_bind, post_set]
    have hsame : SameFrames mm (if zeroed
        then { mm with freePagesZeroed := Function.update mm.freePagesZeroed idx false }
        else { mm with freePagesDirty := Function.update mm.freePagesDirty idx false }) := by
      split <;> rfl
    refine allocationAt_bind hsame (fun _ => ?_)
      fun hc => Nat.lt_of_lt_of_le (pickSinglePage_lt (by simpa using hhint) hpick) hc.1
    refine (Follows.assert _ (Short.of_unfollowed (by decide))).bind fun _ =>
      (subtractFreePages_within 1).bind fun _ => (setAllocation_within _ _).bind fun _ => ?_
    exact Follows.bind (Follows.modify fun _ => rfl) fun _ => Follows.pure _

theorem allocRangeAligned_within (n : Nat) (pid : PID) : Within (allocRangeAligned n pid) := by
  refine (Follows.assert _ (Short.of_unfollowed (by decide))).bind fun _ =>
    (Follows.assert _ (Short.of_unfollowed (by decide))).bind fun _ => Follows.get.bind fun mm => ?_
  split
  · exact Follows.throw _
  · refine (subtractFreePages_within _).bind fun _ => Follows.get_bind fun mm => ?_
    simp only [post_bind, post_assert, post_set, post_pure]
    exact ⟨fun _ => rfl, fun _ => ⟨mm, rfl, .of_unfollowed (by decide) _⟩⟩

theorem addressToAllocationOffset_lt {addr offset : Nat} (hc : Covered mm.frames)
    (h : mm.addressToAllocationOffset addr = some offset) : offset < mm.allocationsLen := by
  unfold addressToAllocationOffset at h
  split at h
  next hram =>
    cases h
    refine Nat.lt_of_lt_of_le ?_ hc.1
    have : dramEnd = dramBase + ramPages * pageSize := by decide
    rw [Nat.div_lt_iff_lt_mul (by decide)]
    omega
  · exact hc.2 addr offset h

theorem claimReleaseMove_within (permission : Except Error Unit) (addr : Nat) (pid : PID)
    (action : ClaimReleaseMove) : Within (claimReleaseMove permission addr pid action) := by
  refine .ite (fun _ => .throw _) fun _ => ?_
  split
  · exact .throw _
  · refine Follows.get_bind fun mm => ?_
    rw [post_bind, Exec.post_okOr]
    refine ⟨fun offset hoff => ?_, fun _ => refl_of SameFrames mm⟩
    have hlt : Covered mm.frames → offset < mm.allocationsLen := fun hc =>
      addressToAllocationOffset_lt hc hoff
    cases action with
    | claim =>
      refine allocationAt_bind (refl_of SameFrames mm) (fun o => .ite (fun _ => .throw _) fun _ => .ite (fun _ => ?_)
        fun _ => setAllocation_within _ _) hlt
      refine Follows.get_bind fun mm => ?_
      have hrest : Within (do subtractFreePages 1; setAllocation offset (some pid)) :=
        (subtractFreePages_within 1).bind fun _ => setAllocation_within _ _
      dsimp only
      split
      · rw [post_bind, post_set]
        exact Follows.after rfl hrest
      · split
        · rw [post_bind, post_set]
          exact Follows.after rfl hrest
        · exact refl_of SameFrames mm
    | move existingPid =>
      exact allocationAt_bind (refl_of SameFrames mm) (fun o => (Follows.okOr _ _).bind fun _ =>
        .ite (fun _ => .throw _) fun _ => setAllocation_within _ _) hlt
    | release =>
      refine allocationAt_bind (refl_of SameFrames mm) (fun o => (Follows.okOr _ _).bind fun _ =>
        .ite (fun _ => .throw _) fun _ => .ite (fun _ => ?_) fun _ => setAllocation_within _ _) hlt
      exact Follows.bind (Follows.modify fun _ => rfl) fun _ =>
        (addFreePages_within 1).bind fun _ => setAllocation_within _ _

theorem releaseAllFrom_within (pid : PID) : ∀ (n idx : Nat), Within (releaseAllFrom pid idx n)
  | 0, _ => Follows.pure _
  | n + 1, idx => by
    refine Follows.get.bind fun mm => .ite (fun _ => ?_) fun _ => releaseAllFrom_within pid n _
    refine (setAllocation_within _ _).bind fun _ => .ite (fun _ => ?_) fun _ =>
      releaseAllFrom_within pid n _
    exact Follows.bind (Follows.modify fun _ => rfl) fun _ =>
      (addFreePages_within 1).bind fun _ => releaseAllFrom_within pid n _

theorem releaseAllMemoryForProcess_within (pid : PID) : Within (releaseAllMemoryForProcess pid) :=
  Follows.get.bind fun _ => releaseAllFrom_within pid _ _

end MemoryManager

/-! ## 2. Quiet code -/

namespace Kernel

open Ipc
open Exec (Along Follows)

variable {α β : Type} {k k' : Kernel} {P : Kernel → Prop} {i j : Ipc} {m : KExec α} {slot : ConnectionSlot}

/-- Moves with labels in `A`, and back in the mapping of the running process. -/
def StepBy (A : Label → Prop) (k k' : Kernel) : Prop := Ipc.Does A k.ipc k'.ipc ∧ (AtHome k → AtHome k')

abbrev QuietStep := StepBy Quiet

variable {A : Label → Prop}

instance : IsPreorder Kernel (StepBy A) where
  refl _ := ⟨.refl _, id⟩
  trans _ _ _ h1 h2 := ⟨h1.1.trans h2.1, h2.2 ∘ h1.2⟩

/-- The kernel's own process does not end, and new servers mention user threads only. -/
def Harmless (l : Label) : Prop := l.Proper ∧ l ≠ .gone PID.kernel

theorem Harmless.of_quiet {l : Label} (h : Quiet l) : Harmless l := by
  rw [h]
  exact ⟨trivial, by simp⟩

theorem does_basic (h : Ipc.Does A i j) (hA : ∀ l, A l → l ≠ .gone PID.kernel) (hb : Basic i) : Basic j :=
  h.invariant (fun l _ _ hl hm hb => hb.move hm fun _ hpid hk => hA l hl (hk ▸ hpid)) hb

theorem does_proper (h : Ipc.Does A i j) (hA : ∀ l, A l → Harmless l) (hb : Basic i) (hp : Proper i) : Proper j := by
  refine (h.invariant (P := fun i => Basic i ∧ Proper i) (fun l _ _ hl hm hi => ?_) ⟨hb, hp⟩).2
  exact ⟨hi.1.move hm fun _ hpid hk => (hA l hl).2 (hk ▸ hpid), hi.2.move hm (hA l hl).1 hi.1⟩

theorem quiet_basic (h : Ipc.Does Quiet i j) (hb : Basic i) : Basic j :=
  does_basic h (fun _ hl => (Harmless.of_quiet hl).2) hb

theorem quiet_proper (h : Ipc.Does Quiet i j) (hb : Basic i) (hp : Proper i) :
    Proper j := does_proper h (fun _ hl => Harmless.of_quiet hl) hb hp

/-- A panic for which the tables, or the caller, have to answer. -/
def Untidy (P : Kernel → Prop) (msg : String) (k : Kernel) : Prop :=
  msg ≠ parkMessage ∧ (msg ∈ tableMessages → Basic k.ipc → Proper k.ipc → ¬ P k)

/-- The code makes moves with labels in `A` only. -/
abbrev Acts (A : Label → Prop) (P : Kernel → Prop) (m : KExec α) : Prop := Follows (StepBy A) (Untidy P) m

abbrev Quietly (P : Kernel → Prop) (m : KExec α) : Prop := Acts Quiet P m

/-- The process table has room for `pid`. -/
def HasRoom (pid : PID) (_ : Kernel) : Prop := pid.get ≤ maxProcessCount

theorem Untidy.of_unfollowed {msg : String} (h : Unfollowed msg) (k : Kernel) : Untidy P msg k :=
  ⟨h.2, fun hm => absurd hm h.1⟩

theorem Acts.of_quietly (h : Quietly P m) (hA : ∀ l, Quiet l → A l) : Acts A P m :=
  Follows.mono h fun _ _ hs => ⟨hs.1.mono hA, hs.2⟩

theorem Acts.mono {Q : Kernel → Prop} (h : Acts A P m) (hQ : ∀ k, Q k → P k) :
    Acts A Q m := fun k =>
  post_mono (h k) (fun _ _ h => h) (fun _ _ h => h) fun _ hp => hp.imp fun k' hs =>
    ⟨hs.1, hs.2.1, fun hm hb hp hq => hs.2.2 hm hb hp (hQ k' hq)⟩

theorem Does.quietly (h : Does Quiet m) (hs : Along Settled m) : Quietly P m := by
  intro k
  refine post_mono (Exec.post_and (h k) (Exec.post_of_wp (hs k))) (fun _ _ h => ⟨h.1, h.2.atHome⟩)
    (fun _ _ h => ⟨h.1, h.2.atHome⟩) ?_
  rintro msg ⟨⟨k', hk', hmsg, hb⟩, -⟩
  refine ⟨k, refl_of QuietStep k, hmsg, fun hm hbasic hproper _ => hb hm ?_⟩
  exact ⟨quiet_basic hk' hbasic, quiet_proper hk' hbasic hproper⟩

theorem quietly_modify {f : Kernel → Kernel} (hi : ∀ k, (f k).ipc = k.ipc)
    (hs : ∀ k, AtHome k → AtHome (f k)) : Quietly P (Exec.modify f) :=
  Follows.modify fun k => ⟨.of_eq (hi k).symm, hs k⟩

variable {pid : PID} {p : Process}

theorem process_quietly : Quietly (HasRoom pid) (process pid) := fun k =>
  post_process (fun _ _ _ => refl_of QuietStep k) (fun _ => refl_of QuietStep k)
    fun hle => ⟨k, refl_of QuietStep k, by decide, fun _ _ _ => hle⟩

theorem currentProcess_quietly : Quietly P currentProcess := by
  refine Follows.get_bind fun k => ?_
  rw [Exec.post_unwrap]
  refine post_process (fun _ _ _ => refl_of QuietStep k)
    (fun _ => ⟨k, refl_of QuietStep k, .of_unfollowed (by decide) k⟩)
    fun hle => ⟨k, refl_of QuietStep k, by decide, fun _ hb _ => absurd ?_ hle⟩
  exact hb.pids _ hb.running

/-! ## 3. The tracker, seen from the kernel -/

theorem withMemoryManager_quietly {m : Exec MemoryManager Error α} (hm : MemoryManager.Within m) :
    Quietly P (withMemoryManager m) := by
  have hzoom : Quietly P (Exec.zoom Kernel.mm (fun mm k => { k with mm }) m) := by
    intro k
    have hframes : ∀ mm', MemoryManager.SameFrames k.mm mm' →
        QuietStep k { k with mm := mm' } := by
      intro mm' h
      refine ⟨.of_eq ?_, id⟩
      have hfr : (mm'.allocationsLen, mm'.extraRegions) = (k.mm.allocationsLen, k.mm.extraRegions) := h
      simp only [ipc, hfr]
      rfl
    rw [Exec.post_zoom]
    refine post_mono (hm k.mm) (fun _ mm' h => hframes mm' h) (fun _ mm' h => hframes mm' h) ?_
    rintro msg ⟨mm', hsame, hmsg, hshort⟩
    refine ⟨k, refl_of QuietStep k, hmsg, fun htab hb _ _ => hshort htab ?_⟩
    rw [hsame]
    exact hb.covered
  refine hzoom.attempt.bind fun r => Follows.get.bind fun k => .ite (fun _ => ?_) fun _ =>
    Follows.ofExcept _
  refine Follows.bind (quietly_modify (fun _ => rfl) fun _ => id) fun _ => ?_
  exact ((broadcastEvent_quiet _ _).quietly (broadcastEvent_settled _ _)).ignore.bind fun _ =>
    Follows.ofExcept _

theorem allocRange_quietly (n : Nat) (pid : PID) : Quietly P (allocRange n pid) :=
  withMemoryManager_quietly (.ite (fun _ => MemoryManager.allocSinglePage_within pid) fun _ =>
    MemoryManager.allocRangeAligned_within n pid)

theorem claimReleaseMove_quietly (addr : Nat) (pid : PID) (action : ClaimReleaseMove) :
    Quietly (HasRoom pid) (claimReleaseMove addr pid action) := by
  refine .ite (fun _ => ?_) fun _ =>
    withMemoryManager_quietly (MemoryManager.claimReleaseMove_within _ addr pid action)
  refine process_quietly.attempt.bind fun r => ?_
  cases r with
  | ok p => exact withMemoryManager_quietly (MemoryManager.claimReleaseMove_within _ addr pid action)
  | error e =>
    exact withMemoryManager_quietly (MemoryManager.claimReleaseMove_within _ addr pid action)

/-! ## 4. Page tables -/

theorem quiet_code : MemoryCode fun _ m => Quietly P m where
  pure := .pure
  throw := .throw
  bind hm hf := hm.bind hf
  attempt hm := hm.attempt
  ignore hm := hm.ignore
  mapErr f hm := hm.mapErr f
  overflow b := .assert b (Untidy.of_unfollowed (by decide))
  get_bind _ hg := Follows.get.bind hg
  allocRange := allocRange_quietly
  zeroBytes _ _ := quietly_modify (fun _ => rfl) fun _ => id
  setPageTables _ _ := quietly_modify (fun _ => rfl) fun _ => id

/-! ## 5. Ranges -/

/-- A process is written back, with nothing changed that threads and servers see. -/
theorem quietStep_putProcess {p p' : Process} (hp : k.processes pid = some p)
    (hppid : p'.ppid = p.ppid) (hth : p'.threads = p.threads)
    (hf : p'.kernelFutures = p.kernelFutures) (hm : p'.resultMailbox = p.resultMailbox)
    (hpr : p'.threadPriorities = p.threadPriorities) (hc : p'.connectionMap = p.connectionMap) :
    QuietStep k (k.putProcess pid p') :=
  ⟨.of_eq (ipc_putProcess_same hp hppid hth hf hm hpr hc).symm, id⟩

theorem quietly_currentProcess {Q : β → Kernel → Prop} {E : Error → Kernel → Prop} {f : Process → KExec β}
    (h : ∀ p, k.processes k.currentPid = some p → Exec.post (f p) Q E
      (fun msg => ∃ k', QuietStep k k' ∧ Untidy P msg k') k) :
    Exec.post (currentProcess >>= f) Q E (fun msg => ∃ k', QuietStep k k' ∧ Untidy P msg k') k := by
  rw [post_bind]
  refine post_currentProcess h fun msg htab hmsg =>
    ⟨k, refl_of QuietStep k, hmsg, fun hm hb _ => ?_⟩
  exact absurd (hb.pids _ hb.running) (htab hm)

theorem findVirtualAddress_quietly (pid : PID) (virt size : Nat) : Quietly P (findVirtualAddress pid virt size) := by
  refine .ite (fun _ => Follows.pure _) fun _ k => ?_
  refine quietly_currentProcess fun p hp => ?_
  simp only [post_bind, post_assert, post_get]
  refine ⟨fun _ => ?_, fun _ => ⟨k, refl_of QuietStep k, .of_unfollowed (by decide) k⟩⟩
  split
  · exact quietStep_putProcess hp rfl rfl rfl rfl rfl rfl
  · exact refl_of QuietStep k

theorem quietly_of_mapping {m : Kernel → KExec α} (hm : ∀ k, Quietly (HasRoom k.activeMapping) (m k)) :
    Quietly AtHome (Exec.get >>= m) := by
  refine Follows.get_bind fun k => post_mono (hm k k) (fun _ _ h => h) (fun _ _ h => h) ?_
  rintro msg ⟨k', hk', hmsg, hun⟩
  refine ⟨k, refl_of QuietStep k, hmsg, fun htab hb hp hk => ?_⟩
  refine hun htab (quiet_basic hk'.1 hb) (quiet_proper hk'.1 hb hp) ?_
  unfold HasRoom
  rw [hk]
  exact hb.pids _ hb.running

theorem mapRange_quietly (phys virt size : Nat) (flags : MemoryFlags) (mapUser : Bool) :
    Quietly AtHome (mapRange phys virt size flags mapUser) :=
  quietly_of_mapping fun _ => (findVirtualAddress_quietly _ _ _).bind fun _ =>
    (quiet_code.obtainPages (claimReleaseMove_quietly · _ ·) _ _ _).bind fun _ =>
    (quiet_code.mapPages (claimReleaseMove_quietly · _ ·) _ _ _ _ _ _ _).bind fun _ =>
      (Follows.okOr _ _).bind fun _ => (Follows.okOr _ _).bind fun _ => Follows.pure _

theorem unmapPage_quietly (va : Nat) : Quietly AtHome (unmapPage va) := by
  refine quietly_of_mapping fun k => ?_
  dsimp only
  split
  · exact (claimReleaseMove_quietly _ _ _).ignore.bind fun _ => quiet_code.unmapPte _ _
  · exact quiet_code.unmapPte _ _

theorem unmapPages_quietly (virt : Nat) : ∀ n i r, Quietly AtHome (unmapPages virt i n r)
  | 0, _, _ => Follows.ofExcept _
  | n + 1, i, r => by
    refine (unmapPage_quietly _).attempt.bind fun r' => ?_
    cases r' with
    | ok _ => exact unmapPages_quietly virt n (i + 1) r
    | error e => exact unmapPages_quietly virt n (i + 1) _

theorem unmapRange_quietly (virt len : Nat) : Quietly AtHome (unmapRange virt len) :=
  .ite (fun _ => Follows.throw _) fun _ =>
    (Follows.assert _ (Untidy.of_unfollowed (by decide))).bind fun _ => unmapPages_quietly _ _ _ _

theorem checkRangeAccessible_quietly (range : MemoryRange) : Quietly P (checkRangeAccessible range) :=
  Follows.get.bind fun _ => (Follows.assert _ (Untidy.of_unfollowed (by decide))).bind fun _ =>
    .ite (fun _ => Follows.pure _) fun _ => Follows.throw _

/-! ## 6. Memory that messages carry -/

theorem quietly_of_running {m : Kernel → KExec α} (hP : ∀ k k', QuietStep k k' → P k → P k')
    (hm : ∀ k, Quietly (fun k' => P k' ∧ HasRoom k.currentPid k') (m k)) :
    Quietly P (Exec.get >>= m) := by
  refine Follows.get_bind fun k => post_mono (hm k k) (fun _ _ h => h) (fun _ _ h => h) ?_
  rintro msg ⟨k', hk', hmsg, hun⟩
  exact ⟨k, refl_of QuietStep k, hmsg, fun htab hb hp hk => hun htab (quiet_basic hk'.1 hb)
    (quiet_proper hk'.1 hb hp) ⟨hP k k' hk' hk, hb.pids _ hb.running⟩⟩

theorem sendMemory_quietly (src : Nat) (destPid : PID) (len : Nat) :
    Quietly (HasRoom destPid) (sendMemory src destPid len) := by
  refine quietly_of_running (fun _ _ _ => id) fun k => .ite (fun _ => Follows.throw _) fun _ =>
    .ite (fun _ => ?_) fun _ => ?_
  · exact (Follows.each fun _ _ => quiet_code.ensurePageExists _).bind fun _ => Follows.pure _
  · refine (Acts.mono process_quietly fun _ => And.right).bind fun _ => (Acts.mono process_quietly fun _ => And.left).bind
      fun _ => (findVirtualAddress_quietly _ _ _).bind fun dest =>
        (Acts.mono (quiet_code.sendPages (claimReleaseMove_quietly · _ ·) _ _ _ _ _ _) fun _ => And.left).bind fun r => ?_
    cases r with
    | none => exact Follows.pure _
    | some e => exact Follows.panic (Untidy.of_unfollowed (by decide))

theorem lendMemory_quietly (src : Nat) (destPid : PID) (len : Nat) (isMutable : Bool) :
    Quietly (HasRoom destPid) (lendMemory src destPid len isMutable) := by
  refine quietly_of_running (fun _ _ _ => id) fun k => .ite (fun _ => Follows.throw _) fun _ =>
    .ite (fun _ => Follows.throw _) fun _ => .ite (fun _ => ?_) fun _ => ?_
  · exact (Follows.each fun _ _ => quiet_code.ensurePageExists _).bind fun _ => Follows.pure _
  · refine (Acts.mono process_quietly fun _ => And.right).bind fun _ => (Acts.mono process_quietly fun _ => And.left).bind
      fun _ => (findVirtualAddress_quietly _ _ _).bind fun dest =>
        (quiet_code.lendPages _ _ _ _ _ _ _ _).bind fun r => ?_
    cases r with
    | none => exact Follows.pure _
    | some e => exact Follows.panic (Untidy.of_unfollowed (by decide))

theorem returnMemory_quietly (src : Nat) (destPid : PID) (dest len : Nat) :
    Quietly (HasRoom destPid) (returnMemory src destPid dest len) := by
  refine quietly_of_running (fun _ _ _ => id) fun k => .ite (fun _ => Follows.throw _) fun _ =>
    .ite (fun _ => Follows.pure _) fun _ => ?_
  refine (Acts.mono process_quietly fun _ => And.right).bind fun _ => (Acts.mono process_quietly fun _ => And.left).bind
    fun _ => (quiet_code.returnPages _ _ _ _ _).bind fun r => ?_
  cases r with
  | none => exact Follows.pure _
  | some e => exact Follows.throw _

/-! ## 7. Mirrors -/

theorem quietly_process {f : Process → KExec β}
    (h : ∀ k p, k.processes pid = some p → Exec.post (f p) (fun _ k' => QuietStep k k')
      (fun _ k' => QuietStep k k') (fun msg => ∃ k', QuietStep k k' ∧ Untidy (HasRoom pid) msg k') k) :
    Quietly (HasRoom pid) (process pid >>= f) := by
  intro k
  rw [post_bind]
  exact post_process (fun p hp _ => h k p hp) (fun _ => refl_of QuietStep k)
    fun hle => ⟨k, refl_of QuietStep k, by decide, fun _ _ _ => hle⟩

theorem mapRangeReadonlyMirror_quietly (pid : PID) (phys size : Nat) :
    Quietly (HasRoom pid) (mapRangeReadonlyMirror pid phys size) := by
  refine Follows.get.bind fun k => process_quietly.bind fun p =>
    (quiet_code.mirrorPages _ _ _ _ _).bind fun _ => quietly_process fun k p hp => ?_
  rw [post_bind, post_setProcess]
  exact Follows.after (quietStep_putProcess hp rfl rfl rfl rfl rfl rfl)
    ((Follows.okOr _ _).bind fun _ => (Follows.okOr _ _).bind fun _ => Follows.pure _)

/-- The part of the state that no quiet move changes. -/
structure SameFrame (i j : Ipc) : Prop where
  parent : j.parent = i.parent
  allocated : j.allocated = i.allocated
  pid : j.pid = i.pid
  tid : j.tid = i.tid
  waiters : j.waiters = i.waiters

instance : IsPreorder Ipc SameFrame where
  refl _ := ⟨rfl, rfl, rfl, rfl, rfl⟩
  trans _ _ _ h1 h2 := ⟨h2.parent.trans h1.parent, h2.allocated.trans h1.allocated,
    h2.pid.trans h1.pid, h2.tid.trans h1.tid, h2.waiters.trans h1.waiters⟩

theorem SameFrame.setState {t : ThreadId} {st : ThreadState} (h : SetState t st i j) :
    SameFrame i j := ⟨h.parent, h.allocated, h.pid, h.tid, h.waiters⟩

theorem SameFrame.current (h : SameFrame i j) : j.current = i.current := by
  rw [Ipc.current, Ipc.current, h.pid, h.tid]

theorem quiet_frame (h : Ipc.Does Quiet i j) : SameFrame i j := by
  refine h.within fun l a b hl hm => ?_
  subst hl
  cases hm with
  | wake _ _ hr =>
    obtain ⟨_, -, hs⟩ := hr
    have hframe := SameFrame.setState hs
    exact ⟨hframe.parent, hframe.allocated, hframe.pid, hframe.tid, hframe.waiters⟩
  | handOver _ _ hr =>
    obtain ⟨_, -, hs⟩ := hr
    have hframe := SameFrame.setState hs
    exact ⟨hframe.parent, hframe.allocated, hframe.pid, hframe.tid, hframe.waiters⟩
  | post _ _ _ _ hs =>
    have hframe := SameFrame.setState hs
    exact ⟨hframe.parent, hframe.allocated, hframe.pid, hframe.tid, hframe.waiters⟩
  | touch _ _ | lose _ _ _ _ | rotate _ | priority _ _ | relink _ => exact ⟨rfl, rfl, rfl, rfl, rfl⟩

theorem mirrorMemoryToPid_quietly (mem : MemoryRange) (pid : PID) :
    Quietly (HasRoom pid) (mirrorMemoryToPid mem pid) := by
  refine Follows.get_bind fun k => ?_
  refine Follows.after_bind (refl_of QuietStep k) (quiet_code.virtToPhys _ _) fun memPhys k1 h1 => ?_
  refine Follows.after_bind h1 (Follows.assert _ (Untidy.of_unfollowed (by decide))) fun _ k2 h2 => ?_
  refine Follows.after_bind h2 (Follows.each fun _ _ => (quiet_code.virtToPhys _ _).bind fun _ =>
    .ite (fun _ => Follows.throw _) fun _ => Follows.pure _) fun _ k3 h3 => ?_
  refine Follows.after_bind h3 process_quietly fun _ k4 h4 => ?_
  simp only [post_bind, post_activateMapping, Exec.post_attempt, post_ofExcept, post_pure]
  -- in the other process's mapping, and back
  have hback : ∀ k5 : Kernel, QuietStep { k4 with activeMapping := pid } k5 →
      QuietStep k { k5 with activeMapping := k.activeMapping } := by
    intro k5 h5
    have hdoes : Ipc.Does Quiet k.ipc k5.ipc := h4.1.trans h5.1
    refine ⟨hdoes, fun hk => ?_⟩
    have hpid : k5.currentPid = k.currentPid := (quiet_frame hdoes).pid
    exact hk.trans hpid.symm
  refine post_mono (mapRangeReadonlyMirror_quietly pid memPhys mem.size.get
    { k4 with activeMapping := pid }) ?_ ?_ ?_
  · exact fun _ k5 h5 => ⟨fun _ _ => hback k5 h5, fun _ _ => hback k5 h5⟩
  · exact fun _ k5 h5 => ⟨fun _ _ => hback k5 h5, fun _ _ => hback k5 h5⟩
  · rintro msg ⟨k5, h5, hmsg, hun⟩
    refine ⟨{ k5 with activeMapping := k.activeMapping }, hback k5 h5, hmsg, hun⟩

/-! ## 8. Connections -/

theorem isConnectedTo_iff {sidx : Nat} : Process.tombstoneConnectionBySidx.isConnectedTo sidx slot = true ↔
      ∃ (r : Nat) (p : MessagePermissions), slot = .connected sidx r p := by
  cases slot <;> simp [Process.tombstoneConnectionBySidx.isConnectedTo]

theorem quietStep_putConnection {n : Nat} (hp : k.processes pid = some p) (h : Relinks k.ipc pid n slot) :
    QuietStep k (k.putProcess pid { p with connectionMap := p.connectionMap.set n slot }) := by
  refine ⟨.single rfl ?_, id⟩
  rw [ipc_putConnections hp, ← ipc_connections hp]
  exact .relink h

theorem connectToServer_quietly (pid : PID) (sid : SID) : Quietly (HasRoom pid) (connectToServer pid sid) := by
  refine Follows.get_bind fun k => ?_
  rw [post_bind, Exec.post_okOr]
  refine ⟨fun sidx hfind => ?_, fun _ => refl_of QuietStep k⟩
  have hlt : sidx < maxServerCount := List.mem_range.mp (List.mem_of_find?_eq_some hfind)
  rw [post_bind, Exec.post_expect]
  refine ⟨fun s hs => ?_, fun _ => ⟨k, refl_of QuietStep k, .of_unfollowed (by decide) k⟩⟩
  rw [post_bind]
  refine post_process (fun p hp _ => ?_) (fun _ => refl_of QuietStep k)
    fun hle => ⟨k, refl_of QuietStep k, by decide, fun _ _ _ => hle⟩
  rw [post_bind, post_ofExcept]
  refine ⟨fun r hr => ?_, fun _ _ => refl_of QuietStep k⟩
  obtain ⟨cid, p'⟩ := r
  simp only [post_bind, post_setProcess, post_pure]
  unfold Process.addConnection at hr
  split at hr
  · -- one more reference to a connection that is there
    rename_i n hn
    split at hr
    next s₀ refcount perms hslot =>
      cases hr
      refine quietStep_putConnection hp fun sidx' r' perms' heq => .inl ⟨refcount, perms, ?_⟩
      cases heq
      rw [ipc_connections hp]
      exact hslot
    · cases hr
  next hnone =>
    split at hr
    · -- the first connection to the server
      cases hr
      refine quietStep_putConnection hp fun sidx' r' perms' heq => .inr ?_
      cases heq
      refine ⟨by simp [ipc, hs], hlt, fun n' r' p' hslot => ?_⟩
      rw [ipc_connections hp] at hslot
      have hfalse := List.findIdx?_eq_none_iff.mp hnone _ (List.mem_of_getElem? hslot)
      simp [Process.tombstoneConnectionBySidx.isConnectedTo] at hfalse
    · cases hr

theorem connection_eq_ok {cid : CID} (h : p.connection cid = .ok slot) : p.connectionMap[cid - 2]? = some slot := by
  unfold Process.connection at h
  split at h
  · cases h
  · split at h
    · cases h
      assumption
    · cases h

theorem disconnectFromServer_quietly (cid : CID) : Quietly P (disconnectFromServer cid) := by
  refine Follows.get_bind fun k => quietly_currentProcess fun p hp => ?_
  rw [post_bind, post_ofExcept]
  refine ⟨fun slot hslot => ?_, fun _ _ => refl_of QuietStep k⟩
  have hmap := connection_eq_ok hslot
  rw [← ipc_connections hp] at hmap
  split
  · exact refl_of QuietStep k
  · refine quietStep_putConnection hp fun sidx r perms heq => ?_
    split at heq <;> cases heq
  · refine quietStep_putConnection hp fun sidx r perms heq => ?_
    split at heq <;> cases heq
    exact .inl ⟨_, _, hmap⟩

end Kernel

end BeetKernel

/-
# What memory code does to the rest of the kernel

The functions of `Kernel.Memory` write the page tracker, page tables and RAM.  They touch the
processes only to remember where the next mapping should go, and they reach threads and servers
only through the broadcast that memory is low.  So a relation on kernel states that allows these
three things is one along which all memory code moves: `MemoryFrame` collects them, and every
invariant that memory code has to keep starts from here.
-/
import BeetKernel.Kernel.Frames

namespace BeetKernel.Kernel

open Exec (Along wp_get wp_bind)

variable {α : Type} {R : Kernel → Kernel → Prop}

/-! ## 1. Properties of programs

Several properties of memory code are proved along the program: that it moves along a relation, that
its panics can be explained, that two runs stay related.  Each is passed on by the operations, so
each follows for all memory code from the few primitives it is made of. -/

/-- A property that programs inherit from their parts and that the primitives of memory code have.
A program may read the state, but not the bytes of memory. -/
structure MemoryCode (P : (α : Type) → KExec α → Prop) : Prop where
  pure : ∀ {α : Type} (a : α), P α (Pure.pure a)
  throw : ∀ {α : Type} e, P α (Exec.throw e)
  bind : ∀ {α β : Type} {m : KExec α} {f : α → KExec β}, P α m → (∀ a, P β (f a)) → P β (m >>= f)
  attempt : ∀ {α : Type} {m : KExec α}, P α m → P _ (Exec.attempt m)
  ignore : ∀ {α : Type} {m : KExec α}, P α m → P Unit (Exec.ignore m)
  mapErr : ∀ {α : Type} {m : KExec α} f, P α m → P α (Exec.mapErr f m)
  overflow : ∀ b, P Unit (Exec.assert b "attempt to add with overflow")
  get_bind : ∀ {α : Type} {g : Kernel → KExec α}, (∀ k ram, g { k with ram } = g k) →
    (∀ k, P α (g k)) → P α (Exec.get >>= g)
  allocRange : ∀ n pid, P _ (Kernel.allocRange n pid)
  zeroBytes : ∀ phys size, P Unit (Kernel.zeroBytes phys size)
  setPageTables : ∀ pid t, P Unit (Kernel.setPageTables pid t)

namespace MemoryCode

variable {P : (α : Type) → KExec α → Prop} (h : MemoryCode P) {pid : PID}
  (hc : ∀ addr action, P Unit (Kernel.claimReleaseMove addr pid action))

include h

omit h in
theorem ite {c : Prop} [Decidable c] {m n : KExec α} (hm : P α m) (hn : P α n) : P α (if c then m else n) := by
  split
  · exact hm
  · exact hn

theorem ofExcept (x : Except Error α) : P α (Exec.ofExcept x) := by
  cases x with
  | ok a => exact h.pure a
  | error e => exact h.throw e

theorem each {β : Type} {f : β → KExec Unit} (hf : ∀ b, P Unit (f b)) (l : List β) : P Unit (Exec.each f l) := by
  induction l with
  | nil => exact h.pure ()
  | cons b rest ih => exact h.bind (hf b) fun _ => ih

theorem allocTable (pid : PID) : P _ (Kernel.allocTable pid) :=
  h.bind (h.mapErr _ (h.allocRange _ _)) fun _ => h.bind (h.zeroBytes _ _) fun _ => h.pure _

theorem ensureL2 (pid : PID) (l1 : Nat) : P _ (Kernel.ensureL2 pid l1) :=
  h.get_bind (fun _ _ => rfl) fun _ => ite (h.bind (h.allocTable _) fun _ =>
    h.get_bind (fun _ _ => rfl) fun _ => h.setPageTables _ _) (h.pure _)

theorem ensureL3 (pid : PID) (l1 l2 : Nat) : P _ (Kernel.ensureL3 pid l1 l2) :=
  h.get_bind (fun _ _ => rfl) fun _ => ite (h.bind (h.allocTable _) fun _ =>
    h.get_bind (fun _ _ => rfl) fun _ => h.setPageTables _ _) (h.pure _)

theorem mapPage (pid : PID) (phys va : Nat) (flags : MemoryFlags) (mapUser : Bool) :
    P _ (Kernel.mapPage pid phys va flags mapUser) :=
  h.bind (h.ensureL2 _ _) fun _ => h.bind (h.ensureL3 _ _ _) fun _ =>
    h.get_bind (fun _ _ => rfl) fun _ => h.setPageTables _ _

theorem unmapPte (pid : PID) (va : Nat) : P _ (Kernel.unmapPte pid va) :=
  h.get_bind (fun _ _ => rfl) fun _ => h.bind (h.ofExcept _) fun _ => h.setPageTables _ _

theorem virtToPhys (pid : PID) (va : Nat) : P _ (Kernel.virtToPhys pid va) :=
  h.get_bind (fun _ _ => rfl) fun _ => h.ofExcept _

theorem ensurePageExists (va : Nat) : P _ (Kernel.ensurePageExists va) := by
  refine h.get_bind (fun _ _ => rfl) fun k => ?_
  dsimp only
  split
  · exact h.pure _
  · exact h.bind (h.allocRange _ _) fun _ => ite
      (h.bind (h.zeroBytes _ _) fun _ => h.mapPage _ _ _ _ _) (h.mapPage _ _ _ _ _)

theorem unmapPtes (pid : PID) (virt n : Nat) : P _ (Kernel.unmapPtes pid virt n) :=
  h.each (fun _ => h.ignore (h.unmapPte _ _)) _

theorem lendPages (srcPid : PID) (src : Nat) (destPid : PID) (dest : Nat) (isMutable : Bool) (n : Nat) :
    ∀ i error, P _ (Kernel.lendPages srcPid src destPid dest isMutable i n error) := by
  induction n with
  | zero => exact fun _ _ => h.pure _
  | succ n ih =>
    refine fun i error => h.bind (h.ensurePageExists _) fun _ => h.bind (h.attempt
      (h.bind (h.virtToPhys _ _) fun _ => h.mapPage _ _ _ _ _)) fun r => ?_
    cases r with
    | ok _ => exact ih _ _
    | error e => exact ih _ _

theorem returnPages (srcPid : PID) (src n : Nat) : ∀ i error, P _ (Kernel.returnPages srcPid src i n error) := by
  induction n with
  | zero => exact fun _ _ => h.pure _
  | succ n ih =>
    refine fun i error => h.bind (h.attempt (h.unmapPte _ _)) fun r => ?_
    cases r with
    | ok _ => exact ih _ _
    | error e => exact ih _ _

theorem mirrorPages (pid : PID) (phys virt n : Nat) : ∀ i, P _ (Kernel.mirrorPages pid phys virt i n) := by
  induction n with
  | zero => exact fun _ => h.pure _
  | succ n ih =>
    refine fun i => h.bind (h.attempt (h.mapPage _ _ _ _ _)) fun r => ?_
    cases r with
    | ok _ => exact ih _
    | error e => exact h.bind (h.unmapPtes _ _ _) fun _ => h.throw _

/-! Code that asks the tracker for particular frames, on behalf of one process. -/

include hc

theorem releasePages (phys n : Nat) : P _ (Kernel.releasePages pid phys n) := h.each (fun _ => h.ignore (hc _ _)) _

theorem claimPages (phys n : Nat) : ∀ i, P _ (Kernel.claimPages pid phys i n) := by
  induction n with
  | zero => exact fun _ => h.pure _
  | succ n ih =>
    refine fun i => h.bind (h.attempt (hc _ _)) fun r => ?_
    cases r with
    | ok _ => exact ih _
    | error e => exact h.bind (h.releasePages hc _ _) fun _ => h.throw _

theorem mapPages (phys virt total : Nat) (flags : MemoryFlags) (mapUser : Bool) (n : Nat) : ∀ i,
    P _ (Kernel.mapPages pid phys virt total flags mapUser i n) := by
  induction n with
  | zero => exact fun _ => h.pure _
  | succ n ih =>
    refine fun i => h.bind (h.attempt (h.mapPage _ _ _ _ _)) fun r => ?_
    cases r with
    | ok _ => exact ih _
    | error e =>
      exact h.bind (h.unmapPtes _ _ _) fun _ => h.bind (h.releasePages hc _ _) fun _ => h.throw _

theorem obtainPages (phys size : Nat) (flags : MemoryFlags) : P _ (Kernel.obtainPages pid phys size flags) :=
  ite (ite (h.throw _) (ite (h.throw _) (h.bind (h.allocRange _ _) fun _ => h.pure _)))
    (ite (h.bind (h.overflow _) fun _ => h.bind (h.claimPages hc _ _ _) fun _ => h.pure _)
      (h.bind (h.allocRange _ _) fun _ => ite (h.bind (h.zeroBytes _ _) fun _ => h.pure _) (h.pure _)))

theorem movePage (srcPid : PID) (srcAddr destAddr : Nat) : P _ (Kernel.movePage srcPid srcAddr pid destAddr) :=
  h.bind (h.virtToPhys _ _) fun _ => h.bind (h.unmapPte _ _) fun _ =>
    h.bind (h.mapPage _ _ _ _ _) fun _ => hc _ _

theorem sendPages (srcPid : PID) (src dest n : Nat) : ∀ i error,
    P _ (Kernel.sendPages srcPid src pid dest i n error) := by
  induction n with
  | zero => exact fun _ _ => h.pure _
  | succ n ih =>
    refine fun i error => h.bind (h.ensurePageExists _) fun _ =>
      h.bind (h.attempt (h.movePage hc _ _ _)) fun r => ?_
    cases r with
    | ok _ => exact ih _ _
    | error e => exact ih _ _

end MemoryCode

/-! ## 2. Moving along a relation -/

/-- What a relation must allow for memory code to move along it. -/
structure MemoryFrame (R : Kernel → Kernel → Prop) : Prop where
  memory : ∀ (k : Kernel) mm tables ram, R k { k with mm := mm, pageTables := tables, ram := ram }
  /-- The places where the next mapping and the next mirror of a process should go. -/
  area : ∀ (k : Kernel) pid p hint next, k.processes pid = some p → R k { k with
      processes := Function.update k.processes pid
        (some { p with allocationHint := hint, nextMirrorAddress := next }) }
  broadcast : Along R (broadcastEvent .lowFreeMemory 0)

theorem MemoryFrame.zeroBytes (h : MemoryFrame R) (phys size : Nat) : Along R (Kernel.zeroBytes phys size) :=
  Along.modify fun k => h.memory k k.mm k.pageTables _

theorem MemoryFrame.setPageTables (h : MemoryFrame R) (pid : PID) (t : PageTables) :
    Along R (Kernel.setPageTables pid t) :=
  Along.modify fun k => h.memory k k.mm _ k.ram

variable [IsPreorder Kernel R]

theorem process_along (pid : PID) : Along R (process pid) := (Along.assert _ _).bind fun _ => .read fun _ => .okOr _ _

theorem virtToPhys_along (pid : PID) (va : Nat) : Along R (virtToPhys pid va) := .read fun _ => .ofExcept _

theorem checkRangeAccessible_along (range : MemoryRange) : Along R (checkRangeAccessible range) :=
  .read fun _ => (Along.assert _ _).bind fun _ => .ite (fun _ => .pure _) fun _ => .throw _

namespace MemoryFrame

variable (h : MemoryFrame R)

include h

theorem withMemoryManager (m : Exec MemoryManager Error α) : Along R (Kernel.withMemoryManager m) := by
  have hzoom : Along R (Exec.zoom Kernel.mm (fun mm k => { k with mm }) m : KExec α) := by
    intro k
    rw [Exec.wp_zoom, Exec.wp]
    cases m k.mm with
    | ok a mm => exact h.memory k mm k.pageTables k.ram
    | err e mm => exact h.memory k mm k.pageTables k.ram
    | panic msg => trivial
  refine hzoom.attempt.bind fun r => .read fun _ => .ite (fun _ => Along.bind ?_ fun _ =>
    h.broadcast.ignore.bind fun _ => .ofExcept r) fun _ => .ofExcept r
  exact Along.modify fun k => h.memory k _ k.pageTables k.ram

theorem allocRange (n : Nat) (pid : PID) : Along R (Kernel.allocRange n pid) := h.withMemoryManager _

theorem claimReleaseMove (addr : Nat) (pid : PID) (action : ClaimReleaseMove) :
    Along R (Kernel.claimReleaseMove addr pid action) := by
  refine .ite (fun _ => ?_) fun _ => (Along.pure _).bind fun _ => h.withMemoryManager _
  refine (process_along pid).attempt.bind fun p => ?_
  cases p with
  | ok p => exact (Along.pure _).bind fun _ => h.withMemoryManager _
  | error e => exact (Along.pure _).bind fun _ => h.withMemoryManager _

theorem code : MemoryCode fun _ m => Along R m where
  pure := .pure
  throw := .throw
  bind hm hf := hm.bind hf
  attempt hm := hm.attempt
  ignore hm := hm.ignore
  mapErr f hm := hm.mapErr f
  overflow b := .assert b _
  get_bind _ hg := Along.get.bind hg
  allocRange := h.allocRange
  zeroBytes := h.zeroBytes
  setPageTables := h.setPageTables

theorem findVirtualAddress (pid : PID) (virt size : Nat) : Along R (Kernel.findVirtualAddress pid virt size) := by
  refine .ite (fun _ => .pure _) fun _ k => ?_
  simp only [currentProcess, process, wp_bind, wp_get, Exec.wp_unwrap, Exec.wp_assert, Exec.wp_okOr]
  refine fun _ => ⟨fun p hp _ => ?_, fun _ => trivial⟩
  split
  · exact h.area k k.currentPid p _ p.nextMirrorAddress hp
  · exact refl_of R k

theorem mapRange (phys virt size : Nat) (flags : MemoryFlags) (mapUser : Bool) :
    Along R (Kernel.mapRange phys virt size flags mapUser) :=
  .read fun _ => (h.findVirtualAddress _ _ _).bind fun _ =>
    (h.code.obtainPages (h.claimReleaseMove · _ ·) _ _ _).bind fun _ =>
    (h.code.mapPages (h.claimReleaseMove · _ ·) _ _ _ _ _ _ _).bind fun _ =>
      (Along.okOr _ _).bind fun _ => (Along.okOr _ _).map

theorem unmapPage (va : Nat) : Along R (Kernel.unmapPage va) := by
  refine .read fun k => ?_
  dsimp only
  split
  · exact (h.claimReleaseMove _ _ _).ignore.bind fun _ => h.code.unmapPte _ _
  · exact (Along.pure _).bind fun _ => h.code.unmapPte _ _

theorem unmapPages (virt n : Nat) : ∀ i r, Along R (Kernel.unmapPages virt i n r) := by
  induction n with
  | zero => exact fun _ r => .ofExcept r
  | succ n ih =>
    refine fun i r => (h.unmapPage _).attempt.bind fun x => ?_
    cases x with
    | ok _ => exact ih _ _
    | error e => exact ih _ _

theorem unmapRange (virt len : Nat) : Along R (Kernel.unmapRange virt len) :=
  .guard fun _ => (Along.assert _ _).bind fun _ => h.unmapPages _ _ _ _

theorem sendMemory (src : Nat) (destPid : PID) (len : Nat) : Along R (Kernel.sendMemory src destPid len) := by
  refine .read fun k => .guard fun _ => .ite (fun _ =>
    (Along.each fun _ _ => h.code.ensurePageExists _).map) fun _ => ?_
  refine (process_along _).bind fun _ => (process_along _).bind fun _ =>
    (h.findVirtualAddress _ _ _).bind fun _ => (h.code.sendPages (h.claimReleaseMove · _ ·) _ _ _ _ _ _).bind
      fun r => ?_
  cases r with
  | none => exact .pure _
  | some e => exact .panic _

theorem lendMemory (src : Nat) (destPid : PID) (len : Nat) (isMutable : Bool) :
    Along R (Kernel.lendMemory src destPid len isMutable) := by
  refine .read fun k => .guard fun _ => .guard fun _ =>
    .ite (fun _ => (Along.each fun _ _ => h.code.ensurePageExists _).map) fun _ => ?_
  refine (process_along _).bind fun _ => (process_along _).bind fun _ =>
    (h.findVirtualAddress _ _ _).bind fun _ => (h.code.lendPages _ _ _ _ _ _ _ _).bind fun r => ?_
  cases r with
  | none => exact .pure _
  | some e => exact .panic _

theorem returnMemory (src : Nat) (destPid : PID) (dest len : Nat) :
    Along R (Kernel.returnMemory src destPid dest len) := by
  refine .read fun k => .guard fun _ => .ite (fun _ => .pure _) fun _ =>
    (process_along _).bind fun _ => (process_along _).bind fun _ =>
      (h.code.returnPages _ _ _ _ _).bind fun r => ?_
  cases r with
  | none => exact .pure _
  | some e => exact .throw _

theorem mapRangeReadonlyMirror (pid : PID) (phys size : Nat) :
    Along R (Kernel.mapRangeReadonlyMirror pid phys size) := by
  refine .read fun _ => (process_along _).bind fun _ => (h.code.mirrorPages _ _ _ _ _).bind fun _ k => ?_
  rw [process, wp_bind, wp_bind, Exec.wp_assert]
  simp only [wp_bind, wp_get, Exec.wp_okOr]
  refine fun _ => ⟨fun p hp => ?_, fun _ => refl_of R k⟩
  have hwrite := fun next => h.area k pid p p.allocationHint next hp
  exact ⟨fun _ _ => ⟨fun _ _ => hwrite _, fun _ => hwrite _⟩, fun _ => hwrite _⟩

end MemoryFrame

end BeetKernel.Kernel

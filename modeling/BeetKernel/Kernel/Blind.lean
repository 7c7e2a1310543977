/-
# Handing messages over does not touch memory

Everything in `Kernel/Process.lean` and `Kernel/Messages.lean` works on threads, servers and
the scheduler only.  It never reads the page tracker, the page tables or a byte of memory, and
it never writes them.  This matters where the two halves of the kernel meet: an allocation that
finds memory low BROADCASTS an event in the middle of mapping pages.
-/
import BeetKernel.Kernel.ThreadCode

namespace BeetKernel

/-- The part of the kernel's state that describes memory. -/
structure Memory where
  mm : MemoryManager
  pageTables : PID → PageTables
  ram : Nat → UInt8

namespace Kernel

open Exec (Commutes Along)

def memory (k : Kernel) : Memory := ⟨k.mm, k.pageTables, k.ram⟩

def withMemory (x : Memory) (k : Kernel) : Kernel :=
  { k with mm := x.mm, pageTables := x.pageTables, ram := x.ram }

/-- `m` neither reads nor writes memory, page tables or the tracker. -/
def MemoryBlind {α : Type} (m : KExec α) : Prop := ∀ x, Commutes (withMemory x) m

variable {k k' : Kernel}

/-- Code that does not see memory leaves it as it is. -/
theorem MemoryBlind.ok {α : Type} {m : KExec α} (h : MemoryBlind m) {a : α}
    (hm : m k = .ok a k') : k'.memory = k.memory := by
  have hx : m k = (m k).mapState (withMemory k.memory) := h k.memory k
  rw [hm] at hx
  simp only [Outcome.mapState, Outcome.ok.injEq, true_and] at hx
  rw [hx]
  rfl

theorem MemoryBlind.err {α : Type} {m : KExec α} (h : MemoryBlind m) {e : Error}
    (hm : m k = .err e k') : k'.memory = k.memory := by
  have hx : m k = (m k).mapState (withMemory k.memory) := h k.memory k
  rw [hm] at hx
  simp only [Outcome.mapState, Outcome.err.injEq, true_and] at hx
  rw [hx]
  rfl

/-- Memory, with its page tables and its tracker, is the same. -/
def SameMemory (k k' : Kernel) : Prop := k'.memory = k.memory

instance : IsPreorder Kernel SameMemory where
  refl _ := rfl
  trans _ _ _ h1 h2 := h2.trans h1

theorem SameMemory.mm (h : SameMemory k k') : k'.mm = k.mm := congrArg Memory.mm h

theorem MemoryBlind.sameMemory {α : Type} {m : KExec α} (h : MemoryBlind m) : Along SameMemory m := by
  intro k
  unfold Exec.wp
  split
  · exact h.ok (by assumption)
  · exact h.err (by assumption)
  · trivial

/-! ## 1. Threads and visits -/

theorem setProcess_blind (pid : PID) (p : Process) : MemoryBlind (setProcess pid p) := fun _ =>
  Commutes.modify fun _ => rfl

theorem process_blind (pid : PID) : MemoryBlind (process pid) := fun _ =>
  (Commutes.assert _ _).bind fun _ => Commutes.get_bind (fun _ => rfl) fun _ => Commutes.okOr _ _

theorem blind_code : VisitCode (fun _ m => MemoryBlind m) (fun _ _ _ m => MemoryBlind m) where
  pure a _ := Commutes.pure a
  throw e _ := Commutes.throw e
  panic msg _ := Commutes.panic msg
  bind hm hf x := (hm x).bind fun a => hf a x
  attempt hm x := (hm x).attempt
  ignore hm x := (hm x).ignore
  unwrap msg hm x := (hm x).unwrap msg
  get_bind hg h x := Commutes.get_bind (fun k => hg k _ _ _) fun k => h k x
  process_bind hf x := (process_blind _ x).bind fun p => hf p x
  knowing hm := hm
  check hf x := (Commutes.assert _ _).bind fun _ => hf x
  link {_ _ _ m _} hf x :=
    have hm : Commutes (withMemory x) (withScheduler m) := .zoom m (fun _ => rfl) fun _ _ => rfl
    hm.bind fun _ => hf x
  write _ hf x := (setProcess_blind _ _ x).bind fun _ => hf x
  activate _ _ := Commutes.modify fun _ => rfl
  activateMapping _ _ := Commutes.modify fun _ => rfl

/-! ## 2. Results and servers -/

theorem setSavedResult_blind (t : ThreadId) (result : Result) :
    MemoryBlind (Exec.modify (setSavedResult t result)) := by
  intro x
  refine Commutes.modify fun k => ?_
  unfold setSavedResult
  rw [show (withMemory x k).archProcesses = k.archProcesses from rfl]
  cases k.archProcesses t.1 with
  | none => rfl
  | some a =>
    dsimp only
    split <;> rfl

theorem setThreadResult_blind (t : ThreadId) (result : Result) : MemoryBlind (setThreadResult t result) :=
  blind_code.setThreadResult (setSavedResult_blind t result)

theorem withServer_blind {α : Type} (sidx : Nat) (m : Exec Server Error α) : MemoryBlind (withServer sidx m) := fun x =>
  (blind_code.serverFromSidx _ x).bind fun _ => (Commutes.expect _ _).bind fun _ =>
    Commutes.zoom m (fun _ => rfl) (fun _ _ => rfl)

/-! ## 3. Delivery and events -/

theorem deliverMessage_blind (tid : TID) (sidx : Nat) (message : Message) (clientAddress : Option MemoryAddress) :
    MemoryBlind (deliverMessage tid sidx message clientAddress) := by
  have hhand : ∀ t envelope, MemoryBlind (handOver t envelope) := fun t envelope =>
    blind_code.handOver (setThreadResult_blind t) envelope
  refine blind_code.get_bind (fun _ _ _ _ => rfl) fun k => blind_code.bind
    (blind_code.serverFromSidx _) fun _ => blind_code.bind (blind_code.expect _ _) fun s => ?_
  split
  · refine blind_code.bind (fun _ => Commutes.modify fun _ => rfl) fun _ => ?_
    dsimp only
    split
    · refine blind_code.bind (blind_code.attempt (blind_code.rememberServerMessage (withServer_blind _ _))) fun r => ?_
      cases r with
      | ok idx => exact hhand _ _
      | error e => exact blind_code.bind (withServer_blind _ _) fun _ =>
          blind_code.bind (blind_code.throw _) fun _ => hhand _ _
    · exact hhand _ _
  · exact blind_code.bind (blind_code.queueServerMessage (withServer_blind _ _)) fun _ =>
      blind_code.unwrap _ (blind_code.notify (fun _ => setThreadResult_blind _) _)

theorem broadcastEvent_blind (event : SystemEvent) (arg : Nat) : MemoryBlind (broadcastEvent event arg) :=
  blind_code.broadcastEvent (fun _ _ => deliverMessage_blind _ _ _ _) event arg

end Kernel

end BeetKernel

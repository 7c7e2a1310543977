/-
# What a process may do with a page it was given

A page reaches another process by being moved, lent or mirrored.  The new mapping is made from FIXED
flags: a move and a mutable lend map the page writable, whatever the sender could do with it; an
immutable lend and a mirror map it read-only.  Nothing is ever mapped executable this way.

So the rights shrink exactly if the sender could write the page itself, or the receiver is not given
the right to write.
-/
import BeetKernel.Ipc.Runs

namespace BeetKernel

/-- User mode may write through the entry. -/
def Pte.userWrites (pte : Pte) : Bool := pte.user && pte.writable

/-- User mode may execute through the entry. -/
def Pte.userExecutes (pte : Pte) : Bool := pte.user && pte.userExecutable

/-- The rights of one entry are among those of another. -/
structure Pte.Within (pte own : Pte) : Prop where
  writes : pte.userWrites = true → own.userWrites = true
  executes : pte.userExecutes = true → own.userExecutes = true

namespace Kernel

variable {k k' : Kernel}

/-- The ways a page takes from one process to another. -/
inductive Transfer where
  | move
  | lend (isMutable : Bool)
  | mirror
deriving DecidableEq

/-- One page of `a` is given to `b`: the body of the loops of `send_memory`, `lend_memory` and
`map_range_readonly_mirror`. -/
def Transfer.page : Transfer → PID → Nat → PID → Nat → KExec Unit
  | .move, a, src, b, dest => movePage a src b dest
  | .lend isMutable, a, src, b, dest => lendPage a src b dest isMutable
  | .mirror, a, src, b, dest => do
    let phys ← virtToPhys a src
    mapPage b phys dest {} true

/-- The receiver may write the page. -/
def Transfer.grantsWrite : Transfer → Bool
  | .move => true
  | .lend isMutable => isMutable
  | .mirror => false

theorem claimReleaseMove_pageTables {addr : Nat} {pid : PID} {action : ClaimReleaseMove} {u : Unit}
    (h : claimReleaseMove addr pid action k = .ok u k') : k'.pageTables = k.pageTables := by
  obtain ⟨permission, h⟩ := claimReleaseMove_ok h
  obtain ⟨mm', -, ht⟩ := withMemoryManager_ok h
  exact ht.pageTables

theorem Transfer.page_ok {x : Transfer} {a b : PID} {src dest : Nat} {u : Unit} (h : x.page a src b dest k = .ok u k') :
    ∃ phys, (k'.pageTables b).walk dest = some (Pte.make phys { w := x.grantsWrite } true) := by
  cases x with
  | move =>
    unfold Transfer.page movePage at h
    simp only [Exec.bind_eq_ok] at h
    obtain ⟨phys, k1, -, _, k2, -, _, k3, hmap, hmove⟩ := h
    refine ⟨phys, ?_⟩
    rw [claimReleaseMove_pageTables hmove]
    exact (mapPage_ok hmap).1
  | lend isMutable =>
    unfold Transfer.page lendPage at h
    simp only [Exec.bind_eq_ok] at h
    obtain ⟨phys, k1, -, hmap⟩ := h
    exact ⟨phys, (mapPage_ok hmap).1⟩
  | mirror =>
    unfold Transfer.page at h
    simp only [Exec.bind_eq_ok] at h
    obtain ⟨phys, k1, -, hmap⟩ := h
    exact ⟨phys, (mapPage_ok hmap).1⟩

theorem within_make_iff {phys : Nat} {w : Bool} {own : Pte} :
    (Pte.make phys { w } true).Within own ↔ (w = true → own.userWrites = true) := by
  constructor
  · intro h hw
    exact h.writes (by simp [Pte.userWrites, Pte.make, hw])
  · intro h
    refine ⟨fun hw => h ?_, fun hx => ?_⟩
    · simpa [Pte.userWrites, Pte.make] using hw
    · simp [Pte.userExecutes, Pte.make] at hx

theorem Transfer.page_own {x : Transfer} {a b : PID} {src dest : Nat} {u : Unit}
    (h : x.page a src b dest k = .ok u k') : ∃ own, (k.pageTables a).walk src = some own := by
  have hphys : ∃ phys k1, virtToPhys a src k = .ok phys k1 := by
    cases x with
    | move =>
      unfold Transfer.page movePage at h
      obtain ⟨phys, k1, hphys, -⟩ := Exec.bind_eq_ok.mp h
      exact ⟨phys, k1, hphys⟩
    | lend isMutable =>
      unfold Transfer.page lendPage at h
      obtain ⟨phys, k1, hphys, -⟩ := Exec.bind_eq_ok.mp h
      exact ⟨phys, k1, hphys⟩
    | mirror =>
      obtain ⟨phys, k1, hphys, -⟩ := Exec.bind_eq_ok.mp h
      exact ⟨phys, k1, hphys⟩
  obtain ⟨phys, k1, hphys⟩ := hphys
  cases hw : (k.pageTables a).walk src with
  | none => simp [virtToPhys, PageTables.virtToPhys, hw, Exec.ofExcept] at hphys
  | some own => exact ⟨own, rfl⟩

end Kernel

namespace Machine

open Kernel

/-- Process 3 maps a page without the right to write, and lends it to the server mutably. -/
def lendEvents : List Event :=
  [.svc frame .yield, .svc frame (.connect sid), .svc frame (.mapMemory none none ownPage.size {}),
    .svc frame (.sendMessage 2 (.mutableBorrow ⟨1, ownPage, none, none⟩))]

end Machine

namespace Kernel

open Machine

/-- The page is lent, and both processes have it: process 2 can write it, process 3 read it. -/
theorem lendEvents_run : ∃ k s own pte, Run (start fun _ => 0) (createEvent :: lendEvents) k ∧ k.servers 0 = some s ∧
    (s.queue[0]? = some (.memoryMessageRWLend p3 1 0 1 ⟨mmapAreaVirt, by decide⟩
      ⟨mmapAreaVirt + pageSize, by decide⟩ ⟨pageSize, by decide⟩ 0 0)) ∧
    (k.pageTables p3).walk mmapAreaVirt = some own ∧
    (k.pageTables p2).walk (mmapAreaVirt + pageSize) = some pte ∧ pte.addr = own.addr ∧
    pte.userWrites = true ∧ own.userWrites = false ∧ own.user = true := by
  have hrun : (execAll lendEvents (created (fun _ => 0) (List.replicate slotCount .empty))).any
      (fun k => (k.servers 0).any fun s => ((k.pageTables p3).walk mmapAreaVirt).any fun own =>
        ((k.pageTables p2).walk (mmapAreaVirt + pageSize)).any fun pte =>
          s.queue[0]? = some (.memoryMessageRWLend p3 1 0 1 ⟨mmapAreaVirt, by decide⟩
            ⟨mmapAreaVirt + pageSize, by decide⟩ ⟨pageSize, by decide⟩ 0 0) ∧ pte.addr = own.addr ∧
            pte.userWrites = true ∧ own.userWrites = false ∧ own.user = true) = true := by decide +kernel
  obtain ⟨k, hk, hs⟩ := run_created decodeQueue_zero hrun
  simp only [Option.any_eq_true, decide_eq_true_eq] at hs
  obtain ⟨s, hserver, own, hown, pte, hpte, hslot, hrest⟩ := hs
  exact ⟨k, s, own, pte, hk, hserver, hslot, hown, hpte, hrest⟩

end Kernel

end BeetKernel

/-
# Code that leaves memory as it is

The page tracker, the page tables and the bytes of memory are the same before and after.  What does
not see memory (`Kernel/Blind.lean`) does not change it, and choosing the next thread is of this
kind.
-/
import BeetKernel.Kernel.Blind
import BeetKernel.Kernel.Frames

namespace BeetKernel.Kernel

open Exec (Along)

theorem sameMemory_frame : VisitFrame SameMemory where
  scheduler _ _ := rfl
  process _ _ := rfl
  visit _ _ _ := rfl

theorem setTid_memory (t : ThreadId) (k : Kernel) : (setTid t k).memory = k.memory := by
  unfold setTid
  split
  · split <;> rfl
  · rfl

theorem setSavedResult_memory (t : ThreadId) (r : Result) (k : Kernel) : (setSavedResult t r k).memory = k.memory := by
  unfold setSavedResult
  split
  · rfl
  · split <;> rfl

theorem activateCurrent_sameMemory : Along SameMemory activateCurrent :=
  sameMemory_frame.visits.activateCurrent (fun t => Along.modify (setTid_memory t))
    (fun t r => sameMemory_frame.visits.setThreadResult (Along.modify (setSavedResult_memory t r)))
    fun _ => (withServer_blind _ _).sameMemory

end BeetKernel.Kernel

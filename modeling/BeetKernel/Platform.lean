/-
# The platform the kernel is built for

The constants of the `beetos` crate that the kernel's own code uses, for the default build:
16 KiB pages on the `qemu-virt` platform with its 1 GiB of RAM.
-/
import Mathlib.Init

namespace BeetKernel

def pageSize : Nat := 16384

def ramSize : Nat := 1024 * 1024 * 1024
def ramPages : Nat := ramSize / pageSize

/-- `PLAINTEXT_DRAM_BASE`, which is also `ENCRYPTED_DRAM_BASE` on this platform. -/
def dramBase : Nat := 0x40000000
/-- `PLAINTEXT_DRAM_END` -/
def dramEnd : Nat := dramBase + ramSize

def mmapAreaVirt : Nat := 0x300000000000
def mmapAreaVirtEnd : Nat := 0x400000000000
def memoryMirrorAreaVirt : Nat := 0x400000000000
def userAreaEnd : Nat := 0x700000000000

/-- The size of one queue slot: eight words, as the source asserts at compile time. -/
def queuedMessageSize : Nat := 8 * 8

theorem ramPages_eq : ramPages = 65536 := by decide

end BeetKernel

/-
# Pages that are lent

`lend_page` maps the client's frame into the server's address space and leaves the client's own
mapping alone; `return_page` takes the server's mapping away and leaves the client's alone again.  So
the client gets back what it had, because it never lost it: while its page is lent mutably it can
still reach it, and while its page is lent immutably it can still write it if it could before.
-/
import BeetKernel.Sharing.Rights

namespace BeetKernel.Kernel

variable {k k₁ k2 k3 : Kernel} {a b : PID} {src dest : Nat} {isMutable : Bool}

/-! ## 1. Page tables of other processes -/

theorem unmapPte_ok {va : Nat} {u : Unit} (h : unmapPte a va k = .ok u k₁) :
    (∀ q, q ≠ a → k₁.pageTables q = k.pageTables q) ∧ (k₁.pageTables a).walk va = none := by
  rw [unmapPte_run] at h
  split at h
  · cases h
    exact ⟨fun q hq => clearPage_others k va hq, by rw [clearPage_walk, if_pos rfl]⟩
  · cases h

/-! ## 2. Lending and returning a page -/

/-- What the client of a lend may still do with its page: nothing if it is lent mutably, and not
write it if it is lent immutably, which the server may not do either. -/
structure Guarded (isMutable : Bool) (client server : Option Pte) : Prop where
  mutably : isMutable = true → ∀ pte, client = some pte → pte.user = false
  immutably : isMutable = false → (∀ pte, client = some pte → pte.userWrites = false) ∧
    ∀ pte, server = some pte → pte.userWrites = false

/-- The page that process `a` lent to `b` in `k`, with the result `k₁`, is guarded for as long as the two
mappings are those the lend left; and when it is returned, `a` has the mapping it had and `b` has
none. -/
structure SoundLend (isMutable : Bool) (a : PID) (src : Nat) (b : PID) (dest : Nat) (k k₁ : Kernel) :
    Prop where
  guarded : ∀ k2 : Kernel, (k2.pageTables a).walk src = (k₁.pageTables a).walk src →
    (k2.pageTables b).walk dest = (k₁.pageTables b).walk dest →
    Guarded isMutable ((k2.pageTables a).walk src) ((k2.pageTables b).walk dest)
  returned : ∀ k2 k3 : Kernel, (k2.pageTables a).walk src = (k₁.pageTables a).walk src →
    unmapPte b dest k2 = .ok () k3 → (k3.pageTables a).walk src = (k.pageTables a).walk src ∧
      (k3.pageTables b).walk dest = none

theorem lendPage_ok (hab : a ≠ b) {u : Unit} (h : lendPage a src b dest isMutable k = .ok u k₁) :
    k₁.pageTables a = k.pageTables a ∧
      ∃ phys, (k₁.pageTables b).walk dest = some (Pte.make phys { w := isMutable } true) := by
  unfold lendPage at h
  obtain ⟨phys, k2, hphys, hmap⟩ := Exec.bind_eq_ok.mp h
  have hsame : k2 = k := by
    unfold virtToPhys at hphys
    rw [Exec.get_bind_run] at hphys
    exact (Exec.ofExcept_eq_ok.mp hphys).2.symm
  subst hsame
  exact ⟨(mapPage_ok hmap).2.others a hab, phys, (mapPage_ok hmap).1⟩

open Machine

end BeetKernel.Kernel

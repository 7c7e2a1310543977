/-
# Mirrors

`MirrorMemoryToPid` shows memory of the caller to another process: the frames are mapped, to be
read, at the other process's cursor for mirrors, and the address of the first is returned.

The call takes any range.  A mapping starts with a page and the cursor is the start of one, so the
range returned starts where the first FRAME starts: it is the caller's range exactly when the
caller's range starts with a page too.  If it fails, the pages it mapped are taken back.
-/
import BeetKernel.Kernel.Search
import BeetKernel.Kernel.ServiceFrame

namespace BeetKernel

open Exec (wp_mono wp_get wp_bind wp_ok wp post)

/-- An L3 descriptor has room for the number of a frame. -/
def Pte.IsFrame (pte : Pte) : Prop := pte.addr / pageSize % 2 ^ 34 * pageSize = pte.addr

namespace Kernel

variable {k k' : Kernel} {pid : PID} {p : Process}

/-! ## 1. What stays in the process table -/

/-- The processes stay, with their connections and what memory they may claim. -/
def SameProcesses (k k' : Kernel) : Prop := ∀ q, (k'.processes q).map Process.fixed = (k.processes q).map Process.fixed

instance : IsPreorder Kernel SameProcesses where
  refl _ _ := rfl
  trans _ _ _ h1 h2 q := (h2 q).trans (h1 q)

theorem sameProcesses_frame : ServiceFrame SameProcesses where
  outside h _ := by rw [h.processes]
  process {k pid p q} hp hq r := by
    by_cases hr : r = pid
    · subst hr
      simp [hp, hq]
    · simp [Function.update_of_ne hr]
  server _ _ _ := rfl

/-! ## 2. The source -/

/-- The pages of the range are mapped to frames that lie one after the other from `phys` on. -/
def FramesFrom (t : PageTables) (mem : MemoryRange) (phys : Nat) : Prop :=
  ∀ j, j < (mem.size.get + pageSize - 1) / pageSize →
    t.virtToPhys (mem.addr.get + j * pageSize) = .ok (phys + j * pageSize)

theorem virtToPhys_eq_ok {t : PageTables} {va phys : Nat} : t.virtToPhys va = .ok phys ↔
    ∃ pte, t.walk va = some pte ∧ pte.addr + va % pageSize = phys := by
  unfold PageTables.virtToPhys
  cases t.walk va <;> simp

variable {mem : MemoryRange} {phys : Nat}

/-- The tables translate 47 bits, so a range that goes round would have to be its own frames again. -/
theorem FramesFrom.count {t : PageTables}
    (h : FramesFrom t mem phys) : (mem.size.get + pageSize - 1) / pageSize ≤ 2 ^ 33 := by
  by_contra hlt
  have h₀ := h 0 (by omega)
  have h1 := h (2 ^ 33) (by omega)
  obtain ⟨pte, hpte, ha⟩ := virtToPhys_eq_ok.mp h₀
  obtain ⟨pte', hpte', ha'⟩ := virtToPhys_eq_ok.mp h1
  rw [walk_congr _ (show pageOf (mem.addr.get + 2 ^ 33 * pageSize) = pageOf (mem.addr.get + 0 * pageSize)
    by simp only [pageOf, pageSize]; omega), hpte] at hpte'
  cases hpte'
  simp only [pageSize] at *
  omega

theorem post_virtToPhys {Q : Nat → Kernel → Prop} {E : Error → Kernel → Prop} {F : String → Prop}
    {va : Nat} : post (virtToPhys pid va) Q E F k ↔ (∀ phys, (k.pageTables pid).virtToPhys va = .ok phys → Q phys k) ∧
        ∀ e, (k.pageTables pid).virtToPhys va = .error e → E e k := by
  unfold virtToPhys
  rw [Exec.post_bind, Exec.post_get, Exec.post_ofExcept]

/-- The loop with which `MirrorMemoryToPid` starts asks that the frames follow one another. -/
theorem contiguous_of_loop {source : PID} {addr memPhys n : Nat} : post (Exec.each (fun i => do
        let pagePhys ← virtToPhys source (addr + i * pageSize)
        if pagePhys ≠ memPhys + i * pageSize then Exec.throw .accessDenied) (List.range n))
      (fun _ k' => k' = k ∧ ∀ i ∈ List.range n,
        (k.pageTables source).virtToPhys (addr + i * pageSize) = .ok (memPhys + i * pageSize))
      (fun _ k' => k' = k) (fun _ => False) k := by
  refine Exec.post_each_all (I := fun k' => k' = k) (J := fun i _ =>
    (k.pageTables source).virtToPhys (addr + i * pageSize) = .ok (memPhys + i * pageSize))
    (fun i _ k' hk' => ?_) (fun i j _ k' hk' hi => ?_) rfl
  · subst hk'
    rw [Exec.post_bind, post_virtToPhys]
    refine ⟨fun phys hphys => ?_, fun _ _ => rfl⟩
    split
    · rfl
    next heq =>
      exact ⟨rfl, by rw [hphys, not_not.mp heq]⟩
  · unfold wp
    split <;> trivial

/-! ## 3. The call -/

/-- The cursor after a mirror of `size` bytes at `virt`. -/
def nextMirror (virt size : Nat) : Nat :=
  let nextAddr := min (virt + size) (2 ^ 64 - 1)
  let rounded := (nextAddr + pageSize - 1) / pageSize * pageSize
  if rounded < 2 ^ 64 then rounded else nextAddr

/-- No address of any process is translated differently. -/
def SameTranslations (k k' : Kernel) : Prop := ∀ q va, (k'.pageTables q).walk va = (k.pageTables q).walk va

theorem mirrorPages_wp (phys virt : Nat) {n : Nat} (hn : n ≤ 2 ^ 33) (k : Kernel) :
    wp (mirrorPages pid phys virt 0 n) (fun _ k' => PagesMapped pid phys virt {} true n k k')
      (fun _ k' => (∀ j, j < n → (k.pageTables pid).walk (virt + j * pageSize) = none) → SameTranslations k k') k := by
  rw [mirrorPages_eq]
  unfold wp
  split
  next _ k1 hrun =>
    simpa using mapLoop_ok (by omega) (.zero k) hrun
  next e k1 hrun =>
    intro hfree q va
    obtain ⟨k2, e', hb, hwalk, hend⟩ := mapLoop_err hn hfree (Nat.zero_add _) (.zero k) hrun
    cases hend
    by_cases hq : q = pid
    · rw [hq, hwalk]
    · rw [hb.others q hq]
  · trivial

/-- What a mirror at the cursor of `pid` does: the frames are mapped from the cursor on, or,
if the pages there were free, everything is translated as before. -/
theorem mapRangeReadonlyMirror_wp {phys size : Nat} (hactive : k.activeMapping = pid)
    (hp : k.processes pid = some p) (hne : p.nextMirrorAddress ≠ 0) (hsize : size ≠ 0)
    (hn : (size + pageSize - 1) / pageSize ≤ 2 ^ 33) :
    wp (mapRangeReadonlyMirror pid phys size) (fun range k' => range.addr.get = p.nextMirrorAddress ∧
        (∃ p', k'.processes pid = some p' ∧ p'.nextMirrorAddress = nextMirror p.nextMirrorAddress size) ∧
        ∀ j, j < (size + pageSize - 1) / pageSize → (k'.pageTables pid).walk (p.nextMirrorAddress + j * pageSize) =
            some (Pte.make (phys + j * pageSize) {} true))
      (fun _ k' => FreeAt (k.pageTables pid) size p.nextMirrorAddress → SameTranslations k k') k := by
  subst hactive
  unfold mapRangeReadonlyMirror
  rw [NonZeroUsize.new_of_ne_zero hsize]
  simp only [process, wp_bind, wp_get, Exec.wp_assert, Exec.wp_okOr, hp]
  intro hpid
  refine ⟨fun p' hp' => ?_, fun h => by cases h⟩
  cases hp'
  refine wp_mono (Exec.wp_and (sameProcesses_frame.toMemoryFrame.code.mirrorPages _ _ _ _ _ k)
    (mirrorPages_wp phys p.nextMirrorAddress hn k)) (fun _ k1 h _ => ⟨fun p1 hp1 => ?_, fun hnone => ?_⟩)
    fun _ _ h hfree => ?_
  · simp only [NonZeroUsize.new_of_ne_zero hne, setProcess, Exec.wp_modify, Option.some.injEq,
      forall_eq', Exec.wp_pure, reduceCtorEq, false_implies, and_true]
    exact ⟨trivial, ⟨_, Function.update_self .., rfl⟩, h.2.walk⟩
  · have hstay := h.1 k.activeMapping
    simp [hp, hnone] at hstay
  · refine h.2 fun j hj => hfree (j * pageSize) ?_
    simp only [pageSize] at *
    omega

/-- **What `MirrorMemoryToPid` does.**  The state in between is that of the target. -/
theorem mirrorMemoryToPid_wp (mem : MemoryRange) (hp : k.processes pid = some p) (hne : p.nextMirrorAddress ≠ 0) :
    wp (mirrorMemoryToPid mem pid) (fun r k' => ∃ range phys, r = .memoryRange range ∧
        FramesFrom (k.pageTables k.activeMapping) mem phys ∧
        range.addr.get = p.nextMirrorAddress ∧
        (∃ p', k'.processes pid = some p' ∧ p'.nextMirrorAddress = nextMirror p.nextMirrorAddress mem.size.get) ∧
        ∀ j, j < (mem.size.get + pageSize - 1) / pageSize →
          (k'.pageTables pid).walk (p.nextMirrorAddress + j * pageSize) = some (Pte.make (phys + j * pageSize) {} true))
      (fun _ k' => FreeAt (k.pageTables pid) mem.size.get p.nextMirrorAddress → SameTranslations k k') k := by
  have hrefl : FreeAt (k.pageTables pid) mem.size.get p.nextMirrorAddress → SameTranslations k k := fun _ _ _ => rfl
  unfold mirrorMemoryToPid
  simp only [virtToPhys, wp_bind, wp_get, Exec.wp_ofExcept, Exec.wp_assert]
  refine ⟨fun phys _ _ => ?_, fun _ _ => hrefl⟩
  refine wp_mono (Exec.wp_of_post contiguous_of_loop) ?_ fun _ k1 h => h ▸ hrefl
  rintro _ k1 ⟨rfl, hpages⟩
  have hcont : FramesFrom (k1.pageTables k1.activeMapping) mem phys := fun j hj =>
    hpages j (List.mem_range.mpr hj)
  simp only [process, wp_bind, wp_get, Exec.wp_assert, Exec.wp_okOr, hp, activateMapping,
    Exec.wp_modify, Exec.wp_attempt, Exec.wp_pure]
  refine fun _ => ⟨fun _ _ => ?_, fun h => by cases h⟩
  refine wp_mono (mapRangeReadonlyMirror_wp (k := { k1 with activeMapping := pid }) rfl hp hne
    mem.size.ne_zero hcont.count) (fun range k2 h => ?_) fun e k2 h => ?_
  · refine ⟨fun r hr => ?_, fun _ hr => by cases hr⟩
    cases hr
    exact ⟨range, phys, rfl, hcont, h⟩
  · exact ⟨fun _ hr => (by cases hr), fun _ _ => h⟩

/-! ## 4. The bytes -/

/-- Byte by byte, the mirror is the source. -/
def MirrorsBytes (k : Kernel) (mem : MemoryRange) (pid : PID) (range : MemoryRange) (k' : Kernel) : Prop :=
  ∀ i, i < mem.size.get → (k'.pageTables pid).virtToPhys (range.addr.get + i) =
    (k.pageTables k.activeMapping).virtToPhys (mem.addr.get + i)

theorem mirrorsBytes_iff {mem range : MemoryRange}
    (hframes : ∀ va pte, (k.pageTables k.activeMapping).walk va = some pte → pte.IsFrame)
    (hcursor : range.addr.get % pageSize = 0)
    (hcont : FramesFrom (k.pageTables k.activeMapping) mem phys)
    (hwalk : ∀ j, j < (mem.size.get + pageSize - 1) / pageSize →
      (k'.pageTables pid).walk (range.addr.get + j * pageSize) = some (Pte.make (phys + j * pageSize) {} true)) :
    MirrorsBytes k mem pid range k' ↔ mem.addr.get % pageSize = 0 := by
  have hsize : mem.size.get ≠ 0 := mem.size.ne_zero
  constructor
  · -- the first byte of the mirror is the first byte of a frame
    intro h
    have hfirst := h 0 (by omega)
    have hpages : 0 < (mem.size.get + pageSize - 1) / pageSize := by
      simp only [pageSize]
      omega
    obtain ⟨pte, hpte, haddr⟩ := virtToPhys_eq_ok.mp (hcont 0 hpages)
    have hframe := hframes _ pte hpte
    have hw := hwalk 0 hpages
    simp only [Nat.zero_mul, Nat.add_zero] at *
    simp only [PageTables.virtToPhys, hw, hpte, Except.ok.injEq, Pte.make] at hfirst
    simp only [Pte.IsFrame, pageSize] at *
    omega
  · intro haligned i hi
    have hj : i / pageSize < (mem.size.get + pageSize - 1) / pageSize := by
      simp only [pageSize]
      omega
    obtain ⟨pte, hpte, haddr⟩ := virtToPhys_eq_ok.mp (hcont _ hj)
    have hframe := hframes _ pte hpte
    have hsame : ∀ va, va % pageSize = 0 → pageOf (va + i) = pageOf (va + i / pageSize * pageSize) := by
      intro va hva
      simp only [pageOf, pageSize] at *
      omega
    have hoff : ∀ va, va % pageSize = 0 → (va + i) % pageSize = i % pageSize := fun va hva => by
      rw [Nat.add_mod, hva, Nat.zero_add, Nat.mod_mod]
    rw [Nat.add_mul_mod_self_right, haligned, Nat.add_zero] at haddr
    simp only [PageTables.virtToPhys]
    rw [walk_congr _ (hsame _ hcursor), walk_congr _ (hsame _ haligned), hwalk _ hj, hpte]
    simp only [Pte.make, hoff _ hcursor, hoff _ haligned, ← haddr]
    rw [hframe]

end Kernel

namespace Machine

/-- Process 2 has the first frame, at the start of the area for mappings. -/
def onePage : Kernel := { kernel fun _ => 0 with
    pageTables := fun pid => ⟨0, fun _ => some 0, fun _ _ => some 0, fun page =>
      if pid = p2 ∧ page = pageOf mmapAreaVirt then some (Pte.make dramBase { w := true } true) else none⟩ }

theorem mmapAreaVirt_add_ne_zero (off : Nat) : mmapAreaVirt + off ≠ 0 := by simp [mmapAreaVirt]

/-- The bytes of that page from `off` on. -/
def fromByte (off : Nat) (h : off < pageSize) : MemoryRange :=
  ⟨⟨mmapAreaVirt + off, mmapAreaVirt_add_ne_zero off⟩, ⟨pageSize - off, Nat.sub_ne_zero_of_lt h⟩⟩

theorem onePage_frames (va : Nat) (pte : Pte) (h : (onePage.pageTables p2).walk va = some pte) : pte.IsFrame := by
  simp only [onePage, PageTables.walk, Option.isSome_some, Bool.and_self, if_true, true_and] at h
  split at h
  · cases h
    unfold Pte.IsFrame
    decide
  · cases h

end Machine

namespace Kernel

open Machine

end Kernel

end BeetKernel

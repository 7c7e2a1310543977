/-
# Servers and connections only come by their own calls

Two tables say who may talk to whom: the servers, with their ids, owners and default
permissions, and the connections of each process.  Only a few system calls enter something in
them.  EVERYTHING else the kernel does, ending a process included, at most takes servers away and
leaves tombstones where the connections to them were.
-/
import BeetKernel.Kernel.ServiceFrame

namespace BeetKernel

/-- What can happen to an entry of a connection table behind the back of its process. -/
inductive ConnectionSlot.Weathers : ConnectionSlot → ConnectionSlot → Prop where
  | same (slot : ConnectionSlot) : Weathers slot slot
  | dies (sidx refcount : Nat) (permissions : MessagePermissions) :
      Weathers (.connected sidx refcount permissions) (.tombstone refcount)

theorem ConnectionSlot.Weathers.trans {a b c : ConnectionSlot} (h1 : Weathers a b)
    (h2 : Weathers b c) : Weathers a c := by
  cases h1 with
  | same => exact h2
  | dies sidx refcount permissions =>
    cases h2 with
    | same => exact .dies sidx refcount permissions

namespace Kernel

open Exec (Along)

variable {k k' : Kernel} {α : Type}

/-- Entry `n` of the connection table of `pid`. -/
def entry (k : Kernel) (pid : PID) (n : Nat) : Option ConnectionSlot := (k.processes pid).bind (·.connectionMap[n]?)

variable {pid : PID}

theorem entry_of_process {p : Process} (hp : k.processes pid = some p) (n : Nat) :
    k.entry pid n = p.connectionMap[n]? := by
  rw [entry, hp]
  rfl

/-- No process in or outside the table has two connections to one server. -/
def Tidy (k : Kernel) : Prop := ∀ pid n sidx r p, k.entry pid n = some (.connected sidx r p) → pid ∈ PID.all ∧
    ∀ n' r' p', k.entry pid n' = some (.connected sidx r' p') → n' = n

/-- Every server and every connection that is there now was there before, and a connection that
is still one has not lost its server. -/
structure NothingNew (k k' : Kernel) : Prop where
  servers : ∀ sidx s', k'.servers sidx = some s' → ∃ s, k.servers sidx = some s ∧ s'.card = s.card
  entries : ∀ pid n slot', k'.entry pid n = some slot' → slot' ≠ .free →
    ∃ slot, k.entry pid n = some slot ∧ slot.Weathers slot'
  attached : k.Tidy → ∀ pid n sidx r p, k'.entry pid n = some (.connected sidx r p) →
    k.servers sidx ≠ none → k'.servers sidx ≠ none

theorem NothingNew.connected (h : NothingNew k k') {n sidx r : Nat}
    {p : MessagePermissions} (he : k'.entry pid n = some (.connected sidx r p)) :
    k.entry pid n = some (.connected sidx r p) := by
  obtain ⟨slot, hslot, hw⟩ := h.entries pid n _ he nofun
  cases hw with
  | same => exact hslot

theorem NothingNew.tidy (h : NothingNew k k') (hk : k.Tidy) : k'.Tidy := fun pid n sidx r p he =>
  ⟨(hk pid n sidx r p (h.connected he)).1, fun n' r' p' he' =>
    (hk pid n sidx r p (h.connected he)).2 n' r' p' (h.connected he')⟩

instance : IsPreorder Kernel NothingNew where
  refl k := ⟨fun _ s' h => ⟨s', h, rfl⟩, fun _ _ slot' h _ => ⟨slot', h, .same _⟩, fun _ _ _ _ _ _ _ h => h⟩
  trans k1 k2 k3 h1 h2 := by
    constructor
    · intro sidx s3 h
      obtain ⟨s2, hs2, hc2⟩ := h2.servers sidx s3 h
      obtain ⟨s1, hs1, hc1⟩ := h1.servers sidx s2 hs2
      exact ⟨s1, hs1, hc2.trans hc1⟩
    · intro pid n slot3 h hne
      obtain ⟨slot2, hslot2, hw2⟩ := h2.entries pid n slot3 h hne
      have hne2 : slot2 ≠ .free := by
        cases hw2 with
        | same => exact hne
        | dies => exact nofun
      obtain ⟨slot1, hslot1, hw1⟩ := h1.entries pid n slot2 hslot2 hne2
      exact ⟨slot1, hslot1, hw1.trans hw2⟩
    · intro htidy pid n sidx r p he hs
      exact h2.attached (h1.tidy htidy) pid n sidx r p he (h1.attached htidy pid n sidx r p (h2.connected he) hs)

theorem NothingNew.of_eq (hp : k'.processes = k.processes) (hs : k'.servers = k.servers) : NothingNew k k' := by
  constructor
  · intro sidx s' h
    rw [hs] at h
    exact ⟨s', h, rfl⟩
  · intro pid n slot' h _
    rw [entry, hp] at h
    exact ⟨slot', h, .same _⟩
  · rw [hs]
    exact fun _ _ _ _ _ _ _ => id

theorem NothingNew.of_process {q : Process} (h : ∀ n slot', q.connectionMap[n]? = some slot' → slot' ≠ .free →
      ∃ slot, k.entry pid n = some slot ∧ slot.Weathers slot') :
    NothingNew k { k with processes := Function.update k.processes pid (some q) } := by
  refine ⟨fun _ s' hs => ⟨s', hs, rfl⟩, fun pid' n slot' he hne => ?_, fun _ _ _ _ _ _ _ => id⟩
  by_cases hpid : pid' = pid
  · subst hpid
    exact h n slot' (by simpa [entry] using he) hne
  · exact ⟨slot', by simpa [entry, hpid] using he, .same _⟩

theorem NothingNew.of_server {sidx : Nat} {s s' : Server} (hs : k.servers sidx = some s) (hc : s'.card = s.card) :
    NothingNew k { k with servers := Function.update k.servers sidx (some s') } := by
  refine ⟨fun n s'' h => ?_, fun _ _ slot' h _ => ⟨slot', h, .same _⟩, fun _ _ _ n _ _ _ hn => ?_⟩
  · dsimp only at h
    by_cases hn : n = sidx
    · subst hn
      rw [Function.update_self] at h
      cases h
      exact ⟨s, hs, hc⟩
    · rw [Function.update_of_ne hn] at h
      exact ⟨s'', h, rfl⟩
  · dsimp only
    by_cases hsidx : n = sidx
    · subst hsidx
      simp
    · rw [Function.update_of_ne hsidx]
      exact hn

theorem nothingNew_frame : ServiceFrame NothingNew where
  outside h := .of_eq h.processes h.servers
  process {_ _ p q} hp hq := by
    have hmap : q.connectionMap = p.connectionMap := congrArg Prod.fst hq
    exact .of_process fun n slot' h _ => ⟨slot', by rw [entry_of_process hp, ← hmap]; exact h, .same _⟩
  server hs hc := .of_server hs hc

theorem nothingNew_birth : AllowsBirth NothingNew := fun _ _ _ hq =>
  .of_process fun n slot' h hne => by
    rw [hq, List.getElem?_replicate] at h
    split at h
    · cases h
      exact absurd rfl hne
    · cases h

end Kernel

end BeetKernel

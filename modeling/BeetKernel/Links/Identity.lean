/-
# Server ids

`create_server_with_address` takes the first empty place of the server table and does not look
whether the id is in use, although the documentation of the call promises `ServerExists`.  As long
as nobody creates a server under an id in use, no two servers share one and `Connect` finds THE
server with the id.
-/
import BeetKernel.Links.Effects

namespace BeetKernel

namespace Kernel

variable {k k' k₀ : Kernel} {e : Event} {es : List Event}

/-- No two servers have the same id. -/
def DistinctIds (k : Kernel) : Prop := ∀ i j s s', k.servers i = some s → k.servers j = some s' → s.sid = s'.sid → i = j

/-- No server is hidden behind another: ids are distinct, and whoever connects to the id of a server
gets this server. -/
structure Unshadowed (k : Kernel) : Prop where
  distinct : DistinctIds k
  found : ∀ sidx s, k.servers sidx = some s → k.links.serverOf s.sid = some sidx

/-- The event does not create a server under an id that is in use. -/
def FreshId (k : Kernel) : Event → Prop
  | .svc _ call => ∀ sid range, call.creates = some (sid, range) →
      ∀ sidx s, k.servers sidx = some s → s.sid ≠ sid
  | _ => True

/-! ## 1. Steps -/

theorem NothingNew.distinctIds (h : NothingNew k k') (hk : DistinctIds k) : DistinctIds k' := by
  intro i j s s' hi hj hsid
  obtain ⟨s1, hs1, hc1⟩ := h.servers i s hi
  obtain ⟨s2, hs2, hc2⟩ := h.servers j s' hj
  refine hk i j s1 s2 hs1 hs2 ?_
  calc s1.sid = s.sid := (congrArg Card.sid hc1).symm
    _ = s'.sid := hsid
    _ = s2.sid := congrArg Card.sid hc2

theorem DistinctIds.enter {sidx : Nat} {s : Server} (hk : DistinctIds k)
    (hfresh : ∀ i s', k.servers i = some s' → s'.sid ≠ s.sid) :
    DistinctIds { k with servers := Function.update k.servers sidx (some s) } := by
  intro i j s1 s2 hi hj hsid
  dsimp only at hi hj
  by_cases hi' : i = sidx
  · by_cases hj' : j = sidx
    · rw [hi', hj']
    · subst hi'
      rw [Function.update_self] at hi
      rw [Function.update_of_ne hj'] at hj
      cases hi
      exact absurd hsid.symm (hfresh j s2 hj)
  · rw [Function.update_of_ne hi'] at hi
    by_cases hj' : j = sidx
    · subst hj'
      rw [Function.update_self] at hj
      cases hj
      exact absurd hsid (hfresh i s1 hi)
    · rw [Function.update_of_ne hj'] at hj
      exact hk i j s1 s2 hi hj hsid

theorem Creates.distinctIds {sid : SID} {range : MessageRange} (h : Creates sid range k k')
    (hfresh : ∀ sidx s, k.servers sidx = some s → s.sid ≠ sid) (hk : DistinctIds k) :
    DistinctIds k' := by
  obtain ⟨sidx, s, k1, -, h1, hcard, h2⟩ := h
  refine h2.distinctIds ((h1.distinctIds hk).enter fun i s' hs' => ?_)
  obtain ⟨s₀, hs₀, hc₀⟩ := h1.servers i s' hs'
  have hsid : s'.sid = s₀.sid := congrArg Card.sid hc₀
  have hnew : s.sid = sid := congrArg Card.sid hcard
  rw [hsid, hnew]
  exact hfresh i s₀ hs₀

/-- Connecting and granting change no id, and no owner. -/
theorem effect_ids {l l' : Links} {call : SysCall} {r : Option Result} (h : Links.Effect l l' call r)
    {i : Nat} {s' : Server} (hs' : l'.servers i = some s') :
    ∃ s, l.servers i = some s ∧ s'.sid = s.sid ∧ s'.pid = s.pid := by
  have hsame : l'.servers = l.servers → ∃ s, l.servers i = some s ∧ s'.sid = s.sid ∧ s'.pid = s.pid :=
    fun heq => ⟨s', heq ▸ hs', rfl, rfl⟩
  cases h with
  | refused hs => exact hsame hs
  | joins _ _ h => exact hsame h.servers
  | opens _ _ _ _ h => exact hsame h.servers
  | leaves _ h => exact hsame h.servers
  | allowsConnection h => exact hsame h.servers
  | @allowsServer sid messages sidx s _ _ hs hservers =>
    rw [hservers] at hs'
    by_cases hi : i = sidx
    · subst hi
      rw [Function.update_self] at hs'
      cases hs'
      exact ⟨s, hs, rfl, rfl⟩
    · rw [Function.update_of_ne hi] at hs'
      exact ⟨s', hs', rfl, rfl⟩

theorem step_distinctIds (hc : FreshId k e) (hs : Step k e k') (hk : DistinctIds k) : DistinctIds k' := by
  have hexec := hs.2
  by_cases hreg : e.Registers
  · cases e with
    | svc frame call =>
      cases hcreates : call.creates with
      | none =>
        intro i j s s' hi hj hsid
        obtain ⟨s1, hs1, hsid1, -⟩ := effect_ids (exec_effect hreg hcreates hexec) hi
        obtain ⟨s2, hs2, hsid2, -⟩ := effect_ids (exec_effect hreg hcreates hexec) hj
        exact hk i j s1 s2 hs1 hs2 (hsid1.symm.trans (hsid.trans hsid2))
      | some created =>
        obtain ⟨sid, range⟩ := created
        rcases exec_creates hcreates hexec with h | h
        · exact h.distinctIds (hc sid range hcreates) hk
        · exact h.distinctIds hk
    | _ => cases hreg
  · have hnew := exec_nothingNew hreg k
    rw [Exec.wp, hexec] at hnew
    exact hnew.distinctIds hk

/-! ## 2. Runs -/

theorem DistinctIds.found (hk : DistinctIds k) {sidx : Nat} {s : Server} (hs : k.servers sidx = some s)
    (hlt : sidx < maxServerCount) : k.links.serverOf s.sid = some sidx := by
  cases hfind : k.links.serverOf s.sid with
  | none =>
    have hnone := List.find?_eq_none.mp hfind sidx (List.mem_range.mpr hlt)
    simp [links, hs] at hnone
  | some i =>
    have hany := List.find?_some hfind
    obtain ⟨s', hs', hsid⟩ := (Option.any_eq_true _ _).mp hany
    rw [hk i sidx s' s hs' hs (of_decide_eq_true hsid)]

end Kernel

namespace Machine

open Kernel

/-- Process 3 creates a server under the id of the server of process 2. -/
def shadowEvents : List Event := [.svc frame .yield, .svc frame (.createServerWithAddress sid ⟨0, 0⟩)]

end Machine

namespace Kernel

open Machine

end Kernel

end BeetKernel

/-
# Rings of nodes: doubly linked circular lists

Nodes are values of any type, and the links are two partial functions `next` and `prev`.
`LinkRing next prev l` says that the nodes of `l`, in this order, form one circle: each node's
`next` is the one after it (the first node after the last), and each node's `prev` is the one
before it.  A ring has no distinguished first node, so the property is that of the CYCLE of
`l`, and rotating `l` changes nothing; that is what removes the special cases for the ends.
-/
import Mathlib.Data.List.Cycle

/-- The nodes of `l` form one circle under `next` and `prev`. -/
def LinkRing {α : Type} (next prev : α → Option α) (l : List α) : Prop :=
  Cycle.Chain (fun a b => next a = some b ∧ prev b = some a) (l : Cycle α)

namespace LinkRing

variable {α : Type} {next prev next' prev' : α → Option α} {l xs ys : List α} {t h : α}

@[simp] theorem nil : LinkRing next prev [] := Cycle.Chain.nil _

theorem singleton : LinkRing next prev [t] ↔ next t = some t ∧ prev t = some t := Cycle.chain_singleton _ _

/-- A ring can be read from any of its nodes on. -/
theorem append_comm : LinkRing next prev (xs ++ ys) ↔ LinkRing next prev (ys ++ xs) := by
  have : ((xs ++ ys : List α) : Cycle α) = ((ys ++ xs : List α) : Cycle α) := Cycle.coe_eq_coe.mpr List.isRotated_append
  unfold LinkRing
  rw [this]

/-- A ring read from the node `h` on: the links inside the list, and the one that closes the
circle. -/
theorem cons_iff {r : List α} : LinkRing next prev (h :: r) ↔
    List.IsChain (fun a b => next a = some b ∧ prev b = some a) (h :: r) ∧ next ((h :: r).getLast (by simp)) = some h ∧
      prev h = some ((h :: r).getLast (by simp)) := by
  unfold LinkRing
  rw [Cycle.chain_coe_cons, ← List.cons_append, List.isChain_append]
  simp [List.getLast?_eq_some_getLast]

/-- Along a list without repetitions, a chain relation is only used at pairs whose first
component is not the last node and whose second is not the first. -/
theorem isChain_imp_of_nodup {R S : α → α → Prop} (hl : l.Nodup) (hR : List.IsChain R l)
    (H : ∀ a b, a ∈ l → b ∈ l → l.getLast? ≠ some a → l.head? ≠ some b → R a b → S a b) :
    List.IsChain S l := by
  rw [List.isChain_iff_getElem] at hR ⊢
  intro i hi
  refine H _ _ (List.getElem_mem _) (List.getElem_mem _) ?_ ?_ (hR i hi)
  · rw [List.getLast?_eq_getElem?, List.getElem?_eq_getElem (by omega)]
    intro heq
    have := (List.Nodup.getElem_inj_iff hl).mp (Option.some.inj heq)
    omega
  · rw [List.head?_eq_getElem?, List.getElem?_eq_getElem (by omega)]
    intro heq
    have := (List.Nodup.getElem_inj_iff hl).mp (Option.some.inj heq)
    omega

theorem congr (hring : LinkRing next prev l) (hn : ∀ a ∈ l, next' a = next a)
    (hp : ∀ a ∈ l, prev' a = prev a) : LinkRing next' prev' l := by
  cases l with
  | nil => exact nil
  | cons h r =>
    rw [cons_iff] at hring ⊢
    obtain ⟨hc, h1, h2⟩ := hring
    refine ⟨hc.imp_of_mem_imp (fun a b ha hb hab => ?_), ?_, ?_⟩
    · rw [hn a ha, hp b hb]; exact hab
    · rw [hn _ (List.getLast_mem _)]; exact h1
    · rw [hp _ (by simp)]; exact h2

/-- The links of a node, read from it on: its `next` is the first of the other nodes and its
`prev` the last, or itself if there is no other. -/
theorem links_mem (hring : LinkRing next prev (xs ++ t :: ys)) :
    next t = some ((ys ++ xs).headD t) ∧ prev t = some ((ys ++ xs).getLastD t) := by
  rw [append_comm, List.cons_append] at hring
  cases hr : ys ++ xs with
  | nil =>
    rw [hr, singleton] at hring
    exact hring
  | cons n r =>
    rw [hr, cons_iff, List.isChain_cons_cons] at hring
    obtain ⟨⟨⟨hn, _⟩, _⟩, _, hp⟩ := hring
    refine ⟨hn, ?_⟩
    rw [hp, List.getLast_cons (by simp), List.getLastD_eq_getLast?,
      List.getLast?_eq_some_getLast (by simp), Option.getD_some]

theorem nodup_rest (hnd : (xs ++ t :: ys).Nodup) : t ∉ ys ++ xs ∧ (ys ++ xs).Nodup := by
  have hperm : (xs ++ t :: ys).Perm (t :: (ys ++ xs)) := List.perm_append_comm
  exact List.nodup_cons.mp (hperm.nodup_iff.mp hnd)

variable [DecidableEq α]

/-- **Inserting before a node.**  The new node `t` is linked in before `h`, that is, between
the last node of the ring and `h`. -/
theorem insert {r : List α} (hring : LinkRing next prev (h :: r)) (hnd : (h :: r).Nodup) (ht : t ∉ h :: r)
    (hn : ∀ a, next' a = if a = t then some h
      else if a = (h :: r).getLast (by simp) then some t else next a)
    (hp : ∀ a, prev' a = if a = t then some ((h :: r).getLast (by simp))
      else if a = h then some t else prev a) :
    LinkRing next' prev' (h :: r ++ [t]) := by
  rw [append_comm, List.singleton_append, cons_iff, List.isChain_cons_cons]
  rw [cons_iff] at hring
  obtain ⟨hc, _, _⟩ := hring
  have hne : ∀ a ∈ h :: r, a ≠ t := fun a ha hat => ht (hat ▸ ha)
  refine ⟨⟨⟨by rw [hn, if_pos rfl], ?_⟩, ?_⟩, ?_, ?_⟩
  · rw [hp, if_neg (hne h (by simp)), if_pos rfl]
  · refine isChain_imp_of_nodup hnd hc (fun a b ha hb hlast hfirst hab => ?_)
    rw [hn, hp, if_neg (hne a ha), if_neg (hne b hb), if_neg, if_neg]
    · exact hab
    · rintro rfl; exact hfirst rfl
    · rintro rfl; exact hlast (List.getLast?_eq_some_getLast _)
  · rw [List.getLast_cons (by simp), hn, if_neg (hne _ (List.getLast_mem _)), if_pos rfl]
  · rw [List.getLast_cons (by simp), hp, if_pos rfl]

/-- **Removing a node.**  Its neighbours are linked to each other. -/
theorem remove {n p : α} (hring : LinkRing next prev (xs ++ t :: ys))
    (hnd : (xs ++ t :: ys).Nodup) (hnext : (ys ++ xs).head? = some n)
    (hprev : (ys ++ xs).getLast? = some p)
    (hn : ∀ a, a ≠ t → next' a = if a = p then some n else next a)
    (hp : ∀ a, a ≠ t → prev' a = if a = n then some p else prev a) :
    LinkRing next' prev' (xs ++ ys) := by
  rw [append_comm]
  rw [append_comm, List.cons_append] at hring
  obtain ⟨ht, hnd'⟩ := nodup_rest hnd
  have hne : ∀ a ∈ ys ++ xs, a ≠ t := fun a ha hat => ht (hat ▸ ha)
  cases hr : ys ++ xs with
  | nil => exact nil
  | cons n' r =>
    rw [hr] at hring hnext hprev hnd' hne
    cases hnext
    rw [List.getLast?_eq_some_getLast (by simp)] at hprev
    rw [cons_iff, List.isChain_cons_cons] at hring
    obtain ⟨⟨_, hc⟩, _, _⟩ := hring
    have hlast := Option.some.inj hprev
    rw [cons_iff, hlast]
    refine ⟨isChain_imp_of_nodup hnd' hc (fun a b ha hb hl hf hab => ?_), ?_, ?_⟩
    · rw [hn a (hne a ha), hp b (hne b hb), if_neg, if_neg]
      · exact hab
      · rintro rfl; exact hf rfl
      · rintro rfl; exact hl (by rw [List.getLast?_eq_some_getLast (by simp), hlast])
    · have hmem : p ∈ n :: r := hlast ▸ List.getLast_mem _
      rw [hn p (hne p hmem), if_pos rfl]
    · rw [hp n (hne n (by simp)), if_pos rfl]

end LinkRing

/-
# Connections and the servers behind them

Places of the server table and entries of connection tables are both used again.  Which server a
connection was opened to, and how often it has been asked for since, is therefore not in the
kernel's state: it is kept in a `Ledger` beside the run.  In every run the tables agree with it.
-/
import BeetKernel.Links.Effects

namespace BeetKernel

namespace Kernel

variable {k k' k₀ : Kernel} {e : Event} {es : List Event}
variable {sidx n : Nat} {call : SysCall} {sid : SID} {pid : PID} {frame : Context} {p : MessagePermissions}

/-! ## 1. The ledger -/

/-- A successful connect: for which process, to which id, and which connection it got. -/
def connectedBy (k : Kernel) : Event → Option (PID × SID × CID)
  | .svc frame call =>
    match call.connects k.currentPid, k.answer frame call with
    | some (pid, sid), some (.connectionID cid) => some (pid, sid, cid)
    | _, _ => none
  | _ => none

/-- A successful disconnect: of which connection of the running process. -/
def disconnectedBy (k : Kernel) : Event → Option CID
  | .svc frame (.disconnect cid) => if k.answer frame (.disconnect cid) = some .ok then some cid else none
  | _ => none

/-- What is remembered of a run: how many servers each place of the server table has held, which
of them each connection was opened to, and how many connects minus disconnects it has seen
since. -/
structure Ledger where
  generation : Nat → Nat
  target : PID → Nat → Nat × Nat
  count : PID → Nat → Nat

namespace Ledger

/-- The ledger after a step. -/
def after (l : Ledger) (k : Kernel) (e : Event) (k' : Kernel) : Ledger where
  generation sidx :=
    if (k.servers sidx).isNone ∧ (k'.servers sidx).isSome then l.generation sidx + 1
    else l.generation sidx
  target pid n :=
    match k.connectedBy e with
    | some (pid', sid, cid) =>
      if pid = pid' ∧ cid = n + 2 ∧ k.entry pid n = some .free then
        match k.links.serverOf sid with
        | some sidx => (sidx, l.generation sidx)
        | none => l.target pid n
      else l.target pid n
    | none => l.target pid n
  count pid n :=
    match k.connectedBy e, k.disconnectedBy e with
    | some (pid', _, cid), _ =>
      if pid = pid' ∧ cid = n + 2 then (if k.entry pid n = some .free then 1 else l.count pid n + 1)
      else l.count pid n
    | none, some cid => if pid = k.currentPid ∧ cid = n + 2 then l.count pid n - 1 else l.count pid n
    | none, none => l.count pid n

end Ledger

/-- A run with its ledger. -/
inductive LedgerRun (k₀ : Kernel) (l₀ : Ledger) : List Event → Kernel → Ledger → Prop where
  | nil : LedgerRun k₀ l₀ [] k₀ l₀
  | snoc {k k' : Kernel} {l : Ledger} {es : List Event} {e : Event} :
      LedgerRun k₀ l₀ es k l → Step k e k' → LedgerRun k₀ l₀ (es ++ [e]) k' (l.after k e k')

theorem LedgerRun.run {l₀ l : Ledger} (h : LedgerRun k₀ l₀ es k l) : Run k₀ es k := by
  induction h with
  | nil => exact .nil _
  | snoc _ hs ih => exact .snoc ih hs

theorem Run.ledger (h : Run k₀ es k) (l₀ : Ledger) : ∃ l, LedgerRun k₀ l₀ es k l := by
  induction h with
  | nil => exact ⟨l₀, .nil⟩
  | snoc _ hs ih =>
    obtain ⟨l, hl⟩ := ih
    exact ⟨_, .snoc hl hs⟩

/-! ## 2. Entries and the ledger -/

/-- Every open connection leads to the server it was opened to, and is counted right. -/
def Agrees (k : Kernel) (l : Ledger) : Prop := ∀ pid n sidx r p, k.entry pid n = some (.connected sidx r p) →
    k.servers sidx ≠ none ∧ l.target pid n = (sidx, l.generation sidx) ∧ l.count pid n = r ∧ 0 < r

theorem tidy_of_basic (hb : Ipc.Basic k.ipc) : k.Tidy := by
  intro pid n sidx r p he
  obtain ⟨q, hq, hn⟩ := Option.bind_eq_some_iff.mp he
  have hparent : k.ipc.parent pid ≠ none := ipc_parent_ne_none hq
  refine ⟨mem_all (hb.pids pid hparent), fun n' r' p' he' => ?_⟩
  rw [entry_of_process hq, ← ipc_connections hq] at he he'
  exact hb.once pid sidx n' n r' r p' p he' he

/-- A place that held a server and holds one after a step holds the same one. -/
theorem Ledger.generation_same (l : Ledger) (hs : k.servers sidx ≠ none) :
    (l.after k e k').generation sidx = l.generation sidx := by
  have hnone : ¬ ((k.servers sidx).isNone = true ∧ (k'.servers sidx).isSome = true) := by
    simp [hs]
  exact if_neg hnone

theorem Ledger.after_other (l : Ledger) (k' : Kernel) (hc : k.connectedBy e = none) (hd : k.disconnectedBy e = none) :
    (l.after k e k').target = l.target ∧ (l.after k e k').count = l.count := by
  constructor
  · funext pid n
    simp only [after, hc]
  · funext pid n
    simp only [after, hc, hd]

theorem connectedBy_of_not_registers (h : ¬ e.Registers) : k.connectedBy e = none ∧ k.disconnectedBy e = none := by
  cases e with
  | svc frame call => cases call <;> first | exact ⟨rfl, rfl⟩ | exact absurd trivial h
  | _ => exact ⟨rfl, rfl⟩

theorem connectedBy_of_creates (k : Kernel) (frame : Context) {x : SID × MessageRange} (h : call.creates = some x) :
    k.connectedBy (.svc frame call) = none ∧ k.disconnectedBy (.svc frame call) = none := by
  cases call <;> first | exact ⟨rfl, rfl⟩ | cases h

variable {l : Ledger}

theorem Agrees.nothingNew (h : NothingNew k k') (htidy : k.Tidy) (hk : Agrees k l)
    (hc : k.connectedBy e = none) (hd : k.disconnectedBy e = none) : Agrees k' (l.after k e k') := by
  intro pid n sidx r p he
  obtain ⟨hs, htarget, hcount, hpos⟩ := hk pid n sidx r p (h.connected he)
  obtain ⟨ht, hn⟩ := l.after_other k' hc hd
  rw [ht, hn, l.generation_same hs]
  exact ⟨h.attached htidy pid n sidx r p he hs, htarget, hcount, hpos⟩

/-- A new server takes an empty place, to which no connection leads. -/
theorem Agrees.creates {range : MessageRange} (h : Creates sid range k k')
    (htidy : k.Tidy) (hk : Agrees k l) (hc : k.connectedBy e = none) (hd : k.disconnectedBy e = none) :
    Agrees k' (l.after k e k') := by
  obtain ⟨place, s, k1, hplace, h1, -, h2⟩ := h
  intro pid n sidx r p he
  have he1 : k1.entry pid n = some (.connected sidx r p) := h2.connected he
  obtain ⟨hs, htarget, hcount, hpos⟩ := hk pid n sidx r p (h1.connected he1)
  obtain ⟨ht, hn⟩ := l.after_other k' hc hd
  have hne : sidx ≠ place := by
    rintro rfl
    exact hs hplace
  rw [ht, hn, l.generation_same hs]
  refine ⟨h2.attached (h1.tidy htidy) pid n sidx r p he ?_, htarget, hcount, hpos⟩
  dsimp only
  rw [Function.update_of_ne hne]
  exact h1.attached htidy pid n sidx r p he1 hs

/-! ## 3. The calls that connect, disconnect and grant -/

/-- The tables after a call, with the process that made it. -/
abbrev linksBy (pid : PID) (k' : Kernel) : Links := ⟨k'.servers, k'.entry, pid⟩

theorem rewrites_live {pid' : PID} {old new : ConnectionSlot}
    (h : Links.Rewrites k.links pid n old new (linksBy pid' k')) (i : Nat) (hi : k.servers i ≠ none) :
    k'.servers i ≠ none := fun hn => hi ((congrFun h.servers i).symm.trans hn)

theorem connectedBy_eq {cid : CID} (hcall : call.connects k.currentPid = some (pid, sid))
    (hr : k.answer frame call = some (.connectionID cid)) :
    k.connectedBy (.svc frame call) = some (pid, sid, cid) := by
  simp only [connectedBy, hcall, hr]

theorem connectedBy_of_none (hr : k.answer frame call = none) :
    k.connectedBy (.svc frame call) = none ∧ k.disconnectedBy (.svc frame call) = none := by
  constructor
  · simp only [connectedBy, hr]
    split <;> simp_all
  · cases call <;> first | rfl | simp [disconnectedBy, hr]

variable {r : Nat} {old : ConnectionSlot}

theorem Agrees.other (hk : Agrees k l) (hs : ∀ i, k.servers i ≠ none → k'.servers i ≠ none)
    (ht : (l.after k e k').target pid n = l.target pid n)
    (hn : (l.after k e k').count pid n = l.count pid n)
    (he : k.entry pid n = some (.connected sidx r p)) :
    k'.servers sidx ≠ none ∧ (l.after k e k').target pid n = (sidx, (l.after k e k').generation sidx) ∧
      (l.after k e k').count pid n = r ∧ 0 < r := by
  obtain ⟨hlive, htarget, hcount, hpos⟩ := hk pid n sidx r p he
  rw [ht, hn, l.generation_same hlive]
  exact ⟨hs sidx hlive, htarget, hcount, hpos⟩

/-- A connection call that succeeds writes one entry, and the ledger counts the call there. -/
theorem Agrees.connects (hk : Agrees k l) (hcall : call.connects k.currentPid = some (pid, sid))
    (hr : k.answer frame call = some (.connectionID (n + 2)))
    (h : Links.Rewrites k.links pid n old (.connected sidx r p) (linksBy k.currentPid k'))
    (hlive : k.servers sidx ≠ none) (hpos : 0 < r)
    (htarget : (l.after k (.svc frame call) k').target pid n = (sidx, l.generation sidx))
    (hcount : (l.after k (.svc frame call) k').count pid n = r) :
    Agrees k' (l.after k (.svc frame call) k') := by
  have hby := connectedBy_eq hcall hr
  have hs := rewrites_live h
  intro pid' n' sidx' r' p' he
  by_cases hat : pid' = pid ∧ n' = n
  · obtain ⟨rfl, rfl⟩ := hat
    obtain ⟨rfl, rfl, rfl⟩ : sidx = sidx' ∧ r = r' ∧ p = p' := by
      have hnow := h.now.symm.trans he
      simpa using hnow
    rw [l.generation_same hlive]
    exact ⟨hs sidx hlive, htarget, hcount, hpos⟩
  · have he' : k.entry pid' n' = some (.connected sidx' r' p') := (h.others pid' n' hat).symm.trans he
    have hne : ¬ (pid' = pid ∧ n + 2 = n' + 2) := fun hh => hat ⟨hh.1, by omega⟩
    refine hk.other hs ?_ ?_ he'
    · simp only [Ledger.after, hby]
      exact if_neg fun hh => hne ⟨hh.1, hh.2.1⟩
    · simp only [Ledger.after, hby]
      exact if_neg hne

theorem Agrees.joins (hk : Agrees k l) (hcall : call.connects k.currentPid = some (pid, sid))
    (hr : k.answer frame call = some (.connectionID (n + 2)))
    (h : Links.Rewrites k.links pid n (.connected sidx r p) (.connected sidx (r + 1) p)
      (linksBy k.currentPid k')) : Agrees k' (l.after k (.svc frame call) k') := by
  have hby := connectedBy_eq hcall hr
  have hwas : k.entry pid n = some (.connected sidx r p) := h.was
  obtain ⟨hlive, htarget, hcount, -⟩ := hk pid n sidx r p hwas
  apply hk.connects hcall hr h hlive (Nat.succ_pos r)
  · simpa [Ledger.after, hby, hwas] using htarget
  · simpa [Ledger.after, hby, hwas] using hcount

theorem Agrees.opens {s : Server} (hk : Agrees k l) (hcall : call.connects k.currentPid = some (pid, sid))
    (hr : k.answer frame call = some (.connectionID (n + 2)))
    (hfind : k.links.serverOf sid = some sidx) (hserver : k.servers sidx = some s)
    (h : Links.Rewrites k.links pid n .free (.connected sidx 1 p) (linksBy k.currentPid k')) :
    Agrees k' (l.after k (.svc frame call) k') := by
  have hby := connectedBy_eq hcall hr
  have hwas : k.entry pid n = some .free := h.was
  apply hk.connects hcall hr h (by simp [hserver]) Nat.one_pos
  · simp only [Ledger.after, hby, hwas, and_self, if_true, hfind]
  · simp only [Ledger.after, hby, hwas, and_self, if_true]

theorem Agrees.leaves (hk : Agrees k l) (hr : k.answer frame (.disconnect (n + 2)) = some .ok)
    (h : Links.Rewrites k.links k.currentPid n old old.released (linksBy k.currentPid k')) :
    Agrees k' (l.after k (.svc frame (.disconnect (n + 2))) k') := by
  have hc : k.connectedBy (.svc frame (.disconnect (n + 2))) = none := rfl
  have hd : k.disconnectedBy (.svc frame (.disconnect (n + 2))) = some (n + 2) := if_pos hr
  have hs := rewrites_live h
  have ht : ∀ pid' n', (l.after k (.svc frame (.disconnect (n + 2))) k').target pid' n' =
      l.target pid' n' := fun _ _ => by simp only [Ledger.after, hc]
  intro pid' n' sidx' r' p' he
  by_cases hat : pid' = k.currentPid ∧ n' = n
  · obtain ⟨rfl, rfl⟩ := hat
    have hnow : some (old.released) = some (.connected sidx' r' p') := h.now.symm.trans he
    -- what is still connected had more than one reference
    obtain ⟨r, hgt, rfl, rfl⟩ : ∃ r, 1 < r ∧ old = .connected sidx' r p' ∧ r' = r - 1 := by
      cases old with
      | free => cases hnow
      | tombstone r =>
        simp only [ConnectionSlot.released] at hnow
        split at hnow <;> cases hnow
      | connected sidx r p =>
        simp only [ConnectionSlot.released] at hnow
        split at hnow
        next hgt =>
          cases hnow
          exact ⟨r, hgt, rfl, rfl⟩
        · cases hnow
    obtain ⟨hlive, htarget, hcount, -⟩ := hk _ _ _ _ _ h.was
    refine ⟨hs _ hlive, ?_, ?_, by omega⟩
    · rw [ht, l.generation_same hlive]
      exact htarget
    · simp only [Ledger.after, hc, hd, and_self, if_true]
      rw [hcount]
  · have he' : k.entry pid' n' = some (.connected sidx' r' p') := (h.others pid' n' hat).symm.trans he
    refine hk.other hs (ht pid' n') ?_ he'
    simp only [Ledger.after, hc, hd]
    exact if_neg fun hh => hat ⟨hh.1, Nat.add_right_cancel hh.2.symm⟩

/-- The call neither opens nor counts, and every open connection was open before. -/
theorem Agrees.same (hk : Agrees k l) (hc : k.connectedBy e = none)
    (hd : k.disconnectedBy e = none) (hs : ∀ i, k.servers i ≠ none → k'.servers i ≠ none)
    (he : ∀ pid n sidx r p, k'.entry pid n = some (.connected sidx r p) →
      ∃ p', k.entry pid n = some (.connected sidx r p')) : Agrees k' (l.after k e k') := by
  intro pid n sidx r p hslot
  obtain ⟨p', hslot'⟩ := he pid n sidx r p hslot
  obtain ⟨ht, hn⟩ := l.after_other k' hc hd
  exact hk.other hs (congrFun (congrFun ht pid) n) (congrFun (congrFun hn pid) n) hslot'

theorem Agrees.effect (hk : Agrees k l)
    (h : Links.Effect k.links (linksBy k.currentPid k') call (k.answer frame call)) :
    Agrees k' (l.after k (.svc frame call) k') := by
  generalize hr : k.answer frame call = r at h
  cases h with
  | refused hs he =>
    obtain ⟨hc, hd⟩ := connectedBy_of_none hr
    refine hk.same hc hd (fun i hi => ?_) fun pid n sidx r p hslot => ⟨p, ?_⟩
    · exact fun hn => hi ((congrFun hs i).symm.trans hn)
    · exact (congrFun (congrFun he pid) n).symm.trans hslot
  | joins hcall hfind h => exact hk.joins hcall hr h
  | opens hcall hfind hs _ h => exact hk.opens hcall hr hfind hs h
  | leaves _ h => exact hk.leaves hr h
  | @allowsServer sid messages sidx s _ _ hs hs' he _ =>
    refine hk.same rfl rfl (fun i hi => ?_) fun pid n sidx r p hslot => ⟨p, ?_⟩
    · have hi' : k'.servers i = Function.update k.servers sidx _ i := congrFun hs' i
      rw [hi']
      by_cases hsidx : i = sidx
      · subst hsidx
        simp
      · rw [Function.update_of_ne hsidx]
        exact hi
    · exact (congrFun (congrFun he pid) n).symm.trans hslot
  | @allowsConnection pid messages sidx n refcount p _ h _ =>
    refine hk.same rfl rfl (rewrites_live h) fun pid' n' sidx' r' p' hslot => ?_
    by_cases hat : pid' = pid ∧ n' = n
    · obtain ⟨rfl, rfl⟩ := hat
      have hnow := h.now.symm.trans hslot
      cases hnow
      exact ⟨p, h.was⟩
    · exact ⟨p', (h.others pid' n' hat).symm.trans hslot⟩

/-! ## 4. Runs -/

theorem step_agrees (hb : Ipc.Basic k.ipc) (hs : Step k e k') (hk : Agrees k l) : Agrees k' (l.after k e k') := by
  have hexec := hs.2
  by_cases hreg : e.Registers
  · cases e with
    | svc frame call =>
      cases hcreates : call.creates with
      | none => exact hk.effect (exec_effect hreg hcreates hexec)
      | some x =>
        obtain ⟨hc, hd⟩ := connectedBy_of_creates k frame hcreates
        rcases exec_creates hcreates hexec with h | h
        · exact hk.creates h (tidy_of_basic hb) hc hd
        · exact hk.nothingNew h (tidy_of_basic hb) hc hd
    | _ => cases hreg
  · have hnew := exec_nothingNew hreg k
    rw [Exec.wp, hexec] at hnew
    obtain ⟨hc, hd⟩ := connectedBy_of_not_registers (k := k) hreg
    exact hk.nothingNew hnew (tidy_of_basic hb) hc hd

/-- An entry that is connected after a step was free before it, or connected to the same server. -/
theorem step_connected (hb : Ipc.Basic k.ipc) (hs : Step k e k') (hk : Agrees k l) (hold : k.entry pid n = some old)
    (hne : old ≠ .free) (he : k'.entry pid n = some (.connected sidx r p)) :
    l.target pid n = (sidx, (l.after k e k').generation sidx) := by
  have htarget := (step_agrees hb hs hk pid n sidx r p he).2.1
  rw [← htarget]
  simp only [Ledger.after]
  split
  · rw [if_neg]
    rintro ⟨-, -, hfree⟩
    rw [hold] at hfree
    cases hfree
    exact hne rfl
  · rfl

/-- What a connection table says, and what it will never do. -/
structure Accounted (k : Kernel) (l : Ledger) : Prop where
  /-- At most one connection to each server. -/
  once : ∀ pid n n' sidx r r' p p', k.entry pid n = some (.connected sidx r p) →
    k.entry pid n' = some (.connected sidx r' p') → n = n'
  /-- The server is there, it is the one the connection was opened to, and the references are
  counted. -/
  agrees : Agrees k l
  /-- No step turns a connection into one to another server. -/
  kept : ∀ e k', Step k e k' → ∀ pid n old sidx r p, k.entry pid n = some old → old ≠ .free →
    k'.entry pid n = some (.connected sidx r p) → l.target pid n = (sidx, (l.after k e k').generation sidx)

theorem run_agrees {l₀ l : Ledger} (h₀ : Booted k₀) (h : LedgerRun k₀ l₀ es k l) : Agrees k l := by
  induction h with
  | nil =>
    intro pid n sidx r p he
    obtain ⟨q, hq, hn⟩ := Option.bind_eq_some_iff.mp he
    rw [← ipc_connections hq] at hn
    exact absurd hn (h₀.ipc.unconnected pid n sidx r p)
  | snoc hrun hs ih => exact step_agrees (run_basic h₀ hrun.run) hs ih

end Kernel

namespace Machine

open Kernel

/-- Process 3 connects to the server of process 2. -/
def connectEvents : List Event := [.svc frame .yield, .svc frame (.connect sid)]

end Machine

namespace Kernel

open Machine

end Kernel

end BeetKernel

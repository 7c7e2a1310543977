/-
# Messages nobody has granted

A server may be created with an empty range of messages, which the documentation calls allowing no
messages by default.  What has been granted since is kept in `Grants`, beside the run: by
`AllowMessagesSID` for everybody who connects later, and by `AllowMessagesCID` for one connection.

`Server::init` leaves the flag `allow_all` set when the range is empty, so a connection that is
opened before the first grant accepts EVERY message.  A grant that finds no slot leaves its mark in
the mask as well.  In runs without either the documentation is right.
-/
import BeetKernel.Links.Instances
import BeetKernel.Server.Permissions

namespace BeetKernel

namespace Kernel

variable {k k' k₀ : Kernel} {e : Event} {es : List Event}
variable {sidx n : Nat} {call : SysCall} {frame : Context} {sid : SID} {pid : PID} {p : MessagePermissions}

/-! ## 1. The grants of a run -/

/-- A successful grant to everybody who connects to a server of the running process. -/
def grantedBy (k : Kernel) : Event → Option (SID × MessageRange)
  | .svc frame (.allowMessagesSID sid messages) =>
    if k.answer frame (.allowMessagesSID sid messages) = some .ok then some (sid, messages) else none
  | _ => none

/-- A successful grant to one connection. -/
def grantedTo (k : Kernel) : Event → Option (PID × CID × MessageRange)
  | .svc frame (.allowMessagesCID pid cid messages) =>
    if k.answer frame (.allowMessagesCID pid cid messages) = some .ok then some (pid, cid, messages)
    else none
  | _ => none

/-- The initial range of the server that an event creates, if it is not empty. -/
def Event.initialRange : Event → List MessageRange
  | .svc _ call =>
    match call.creates with
    | some (_, range) => if range.isEmpty then [] else [range]
    | none => []
  | _ => []

/-- What has been granted: to everybody who connects to the server in a place of the table, and to
each connection. -/
structure Grants where
  offered : Nat → List MessageRange
  allowed : PID → Nat → List MessageRange

namespace Grants

/-- The grants after a step.  A connection starts with what its server offers at that time. -/
def after (g : Grants) (k : Kernel) (e : Event) (k' : Kernel) : Grants where
  offered sidx :=
    if (k.servers sidx).isNone ∧ (k'.servers sidx).isSome then e.initialRange
    else
      match k.grantedBy e with
      | some (sid, messages) =>
        if k.links.sidxFromSid sid = some sidx then messages :: g.offered sidx else g.offered sidx
      | none => g.offered sidx
  allowed pid n :=
    match k.connectedBy e, k.grantedTo e with
    | some (pid', sid, cid), _ =>
      if pid = pid' ∧ cid = n + 2 ∧ k.entry pid n = some .free then
        match k.links.serverOf sid with
        | some sidx => g.offered sidx
        | none => g.allowed pid n
      else g.allowed pid n
    | none, some (pid', cid, messages) =>
      if pid = pid' ∧ cid = n + 2 then messages :: g.allowed pid n else g.allowed pid n
    | none, none => g.allowed pid n

end Grants

/-- A run with its grants, whose events satisfy `C`. -/
inductive GrantRun (C : Kernel → Event → Prop) (k₀ : Kernel) (g₀ : Grants) :
    List Event → Kernel → Grants → Prop where
  | nil : GrantRun C k₀ g₀ [] k₀ g₀
  | snoc {k k' : Kernel} {g : Grants} {es : List Event} {e : Event} :
      GrantRun C k₀ g₀ es k g → Step k e k' → C k e → GrantRun C k₀ g₀ (es ++ [e]) k' (g.after k e k')

theorem GrantRun.run {C : Kernel → Event → Prop} {g₀ g : Grants} (h : GrantRun C k₀ g₀ es k g) :
    Run k₀ es k := by
  induction h with
  | nil => exact .nil _
  | snoc _ hs _ ih => exact .snoc ih hs

/-- **Default deny**: whatever message the kernel accepts from another process than the server's
own has been granted. -/
def DefaultDeny (k : Kernel) (g : Grants) : Prop :=
  ∀ tid n message sidx r p s, k.entry k.currentPid n = some (.connected sidx r p) →
    k.servers sidx = some s → s.pid ≠ k.currentPid →
    (∀ k', sendMessage tid (n + 2) message k ≠ .err .accessDenied k') →
    ∃ range ∈ g.allowed k.currentPid n, range.contains message.id = true

/-- Connections are opened to servers whose permissions are no longer unset, but for a process's
connections to itself, and grants find a slot. -/
def Deliberate (k : Kernel) : Event → Prop
  | .svc _ call =>
    (∀ pid sid sidx s, call.connects k.currentPid = some (pid, sid) →
      k.links.serverOf sid = some sidx → k.servers sidx = some s → s.pid ≠ pid →
      s.defaultPermissions.allowAll = false) ∧
    (∀ sid messages sidx s, call = .allowMessagesSID sid messages →
      k.links.sidxFromSid sid = some sidx → k.servers sidx = some s →
      s.defaultPermissions.Fits messages) ∧
    (∀ pid n messages sidx r p, call = .allowMessagesCID pid (n + 2) messages →
      k.entry pid n = some (.connected sidx r p) → p.Fits messages)
  | _ => True

/-! ## 2. The tables and the grants -/

/-- The mask and the list of every server and every connection say what was granted, and no other
process's connection allows everything. -/
structure Documented (k : Kernel) (g : Grants) : Prop where
  servers : ∀ sidx s, k.servers sidx = some s → s.defaultPermissions.Within (g.offered sidx)
  entries : ∀ pid n sidx r p, k.entry pid n = some (.connected sidx r p) →
    p.Within (g.allowed pid n) ∧ ∀ s, k.servers sidx = some s → s.pid ≠ pid → p.allowAll = false

theorem Grants.offered_same (g : Grants) (hs : k.servers sidx ≠ none)
    (hg : k.grantedBy e = none) : (g.after k e k').offered sidx = g.offered sidx := by
  have hnone : ¬ ((k.servers sidx).isNone = true ∧ (k'.servers sidx).isSome = true) := by
    simp [hs]
  simp only [after, if_neg hnone, hg]

theorem Grants.allowed_same (g : Grants) (hc : k.connectedBy e = none) (hg : k.grantedTo e = none) :
    (g.after k e k').allowed = g.allowed := by
  funext pid n
  simp only [after, hc, hg]

theorem grantedBy_of_not_registers (h : ¬ e.Registers) : k.grantedBy e = none ∧ k.grantedTo e = none := by
  cases e with
  | svc frame call => cases call <;> first | exact ⟨rfl, rfl⟩ | exact absurd trivial h
  | _ => exact ⟨rfl, rfl⟩

theorem grantedBy_of_creates (k : Kernel) (frame : Context) {x : SID × MessageRange} (h : call.creates = some x) :
    k.grantedBy (.svc frame call) = none ∧ k.grantedTo (.svc frame call) = none := by
  cases call <;> first | exact ⟨rfl, rfl⟩ | cases h

theorem grantedBy_of_connects {x : PID × SID}
    (h : call.connects k.currentPid = some x) : k.grantedBy (.svc frame call) = none := by
  cases call <;> first | rfl | cases h

theorem Documented.nothingNew {g : Grants} (h : NothingNew k k') (hk : Documented k g)
    (hc : k.connectedBy e = none) (hg : k.grantedBy e = none) (hg' : k.grantedTo e = none) :
    Documented k' (g.after k e k') := by
  constructor
  · intro sidx s' hs'
    obtain ⟨s, hs, hcard⟩ := h.servers sidx s' hs'
    rw [g.offered_same (by simp [hs]) hg, show s'.defaultPermissions = s.defaultPermissions from
      congrArg Card.permissions hcard]
    exact hk.servers sidx s hs
  · intro pid n sidx r p he
    obtain ⟨hwithin, hflag⟩ := hk.entries pid n sidx r p (h.connected he)
    rw [g.allowed_same hc hg']
    refine ⟨hwithin, fun s' hs' hpid => ?_⟩
    obtain ⟨s, hs, hcard⟩ := h.servers sidx s' hs'
    have hcard' : s'.pid = s.pid := congrArg Card.pid hcard
    exact hflag s hs (hcard' ▸ hpid)

end Kernel

theorem MessagePermissions.initial_within (range : MessageRange) :
    (MessagePermissions.initial range).Within (if range.isEmpty then [] else [range]) := by
  unfold MessagePermissions.initial
  split
  · exact default_within
  · by_cases hok : (MessagePermissions.default.add range).1 = .ok ()
    · exact default_within.add hok
    · have hslot : default.HasSlot range :=
        ⟨⟨0, 0⟩, by simp [MessagePermissions.default, messagePermissionCount], .inr rfl⟩
      exact (default_within.refused (.inr (.inr (.inr hslot))) hok).mono (List.nil_subset _)

namespace Kernel

variable {k k' k₀ : Kernel} {e : Event} {es : List Event}
variable {sidx n : Nat} {call : SysCall} {frame : Context} {sid : SID} {pid : PID} {p : MessagePermissions}

variable {g : Grants}

/-- A new server offers its initial range. -/
theorem Documented.creates
    {range : MessageRange} (hcreates : call.creates = some (sid, range)) (h : Creates sid range k k')
    (hlive : ∀ pid n sidx r p, k.entry pid n = some (.connected sidx r p) → k.servers sidx ≠ none)
    (hk : Documented k g) : Documented k' (g.after k (.svc frame call) k') := by
  obtain ⟨place, s₀, k1, hplace, h1, hcard₀, h2⟩ := h
  obtain ⟨hc, -⟩ := connectedBy_of_creates k frame hcreates
  obtain ⟨hg, hg'⟩ := grantedBy_of_creates k frame hcreates
  -- a server in another place was there before
  have hother : ∀ sidx s', sidx ≠ place → k'.servers sidx = some s' →
      ∃ s, k.servers sidx = some s ∧ s'.card = s.card := by
    intro sidx s' hne hs'
    obtain ⟨s2, hs2, hc2⟩ := h2.servers sidx s' hs'
    dsimp only at hs2
    rw [Function.update_of_ne hne] at hs2
    obtain ⟨s, hs, hc1⟩ := h1.servers sidx s2 hs2
    exact ⟨s, hs, hc2.trans hc1⟩
  constructor
  · intro sidx s' hs'
    by_cases hne : sidx = place
    · subst hne
      obtain ⟨s2, hs2, hc2⟩ := h2.servers sidx s' hs'
      dsimp only at hs2
      rw [Function.update_self] at hs2
      cases hs2
      have hperm : s'.defaultPermissions = .initial range :=
        (congrArg Card.permissions hc2).trans (congrArg Card.permissions hcard₀)
      have hoffered : (g.after k (.svc frame call) k').offered sidx =
          if range.isEmpty then [] else [range] := by
        simp only [Grants.after, hplace, hs', Option.isNone_none, Option.isSome_some, and_self, if_true,
          Event.initialRange, hcreates]
      rw [hperm, hoffered]
      exact MessagePermissions.initial_within range
    · obtain ⟨s, hs, hcard⟩ := hother sidx s' hne hs'
      rw [g.offered_same (by simp [hs]) hg, show s'.defaultPermissions = s.defaultPermissions from
        congrArg Card.permissions hcard]
      exact hk.servers sidx s hs
  · intro pid n sidx r p he
    have he' : k.entry pid n = some (.connected sidx r p) := h1.connected (h2.connected he)
    obtain ⟨hwithin, hflag⟩ := hk.entries pid n sidx r p he'
    rw [g.allowed_same hc hg']
    refine ⟨hwithin, fun s' hs' hpid => ?_⟩
    have hne : sidx ≠ place := by
      rintro rfl
      exact hlive pid n sidx r p he' hplace
    obtain ⟨s, hs, hcard⟩ := hother sidx s' hne hs'
    have hcard' : s'.pid = s.pid := congrArg Card.pid hcard
    exact hflag s hs (hcard' ▸ hpid)

/-! ## 3. The calls that connect, disconnect and grant -/

theorem Documented.servers_same (hk : Documented k g) (hs : k'.servers = k.servers)
    (hg : k.grantedBy e = none) (sidx : Nat) (s : Server) (h : k'.servers sidx = some s) :
    s.defaultPermissions.Within ((g.after k e k').offered sidx) := by
  rw [hs] at h
  rw [g.offered_same (by simp [h]) hg]
  exact hk.servers sidx s h

/-- **One connection is rewritten**; no other connection and no server changes. -/
theorem Documented.rewrites {old new : ConnectionSlot} (hk : Documented k g) (hg : k.grantedBy e = none)
    (h : Links.Rewrites k.links pid n old new (linksBy k.currentPid k'))
    (hothers : ∀ pid' n', ¬ (pid' = pid ∧ n' = n) → (g.after k e k').allowed pid' n' = g.allowed pid' n')
    (hhere : ∀ sidx r p, new = .connected sidx r p → p.Within ((g.after k e k').allowed pid n) ∧
      ∀ s, k.servers sidx = some s → s.pid ≠ pid → p.allowAll = false) : Documented k' (g.after k e k') := by
  have hservers : k'.servers = k.servers := h.servers
  refine ⟨hk.servers_same hservers hg, fun pid' n' sidx r p he => ?_⟩
  rw [hservers]
  by_cases hat : pid' = pid ∧ n' = n
  · obtain ⟨rfl, rfl⟩ := hat
    exact hhere sidx r p (Option.some.inj (h.now.symm.trans he))
  · rw [hothers pid' n' hat]
    exact hk.entries pid' n' sidx r p ((h.others pid' n' hat).symm.trans he)

theorem Documented.joins {r : Nat} (hk : Documented k g) (hcall : call.connects k.currentPid = some (pid, sid))
    (hr : k.answer frame call = some (.connectionID (n + 2)))
    (h : Links.Rewrites k.links pid n (.connected sidx r p) (.connected sidx (r + 1) p)
      (linksBy k.currentPid k')) : Documented k' (g.after k (.svc frame call) k') := by
  have hallowed : (g.after k (.svc frame call) k').allowed = g.allowed := by
    funext pid' n'
    simp only [Grants.after, connectedBy_eq hcall hr]
    refine if_neg ?_
    rintro ⟨rfl, hn, hfree⟩
    obtain rfl : n = n' := Nat.add_right_cancel hn
    have hwas : k.entry pid' n = some (.connected sidx r p) := h.was
    rw [hwas] at hfree
    cases hfree
  refine hk.rewrites (grantedBy_of_connects hcall) h (fun _ _ _ => by rw [hallowed]) ?_
  rintro _ _ _ ⟨⟩
  rw [hallowed]
  exact hk.entries pid n sidx r p h.was

theorem Documented.opens {s : Server} (hk : Documented k g) (hcall : call.connects k.currentPid = some (pid, sid))
    (hr : k.answer frame call = some (.connectionID (n + 2)))
    (hfind : k.links.serverOf sid = some sidx) (hserver : k.servers sidx = some s)
    (hflag : s.pid ≠ pid → s.defaultPermissions.allowAll = false)
    (h : Links.Rewrites k.links pid n .free (.connected sidx 1 s.defaultPermissions)
      (linksBy k.currentPid k')) : Documented k' (g.after k (.svc frame call) k') := by
  have hby := connectedBy_eq hcall hr
  refine hk.rewrites (grantedBy_of_connects hcall) h (fun pid' n' hat => ?_) ?_
  · simp only [Grants.after, hby]
    exact if_neg fun hh => hat ⟨hh.1, Nat.add_right_cancel hh.2.1.symm⟩
  · rintro _ _ _ ⟨⟩
    have hwas : k.entry pid n = some .free := h.was
    have hallowed : (g.after k (.svc frame call) k').allowed pid n = g.offered sidx := by
      simp only [Grants.after, hby, hwas, and_self, if_true, hfind]
    rw [hallowed]
    refine ⟨hk.servers sidx s hserver, fun s' hs' => ?_⟩
    rw [hserver] at hs'
    cases hs'
    exact hflag

theorem Documented.leaves {old : ConnectionSlot} (hk : Documented k g)
    (h : Links.Rewrites k.links k.currentPid n old old.released (linksBy k.currentPid k')) :
    Documented k' (g.after k (.svc frame (.disconnect (n + 2))) k') := by
  refine hk.rewrites rfl h (fun _ _ _ => rfl) fun sidx r' p hnow => ?_
  cases old with
  | free => cases hnow
  | tombstone r =>
    simp only [ConnectionSlot.released] at hnow
    split at hnow <;> cases hnow
  | connected sidx r p =>
    simp only [ConnectionSlot.released] at hnow
    split at hnow <;> cases hnow
    exact hk.entries k.currentPid n sidx r p h.was

theorem Documented.allowsServer {messages : MessageRange}
    {s : Server} (hk : Documented k g) (hfind : k.links.sidxFromSid sid = some sidx)
    (hs : k.servers sidx = some s) (hfits : s.defaultPermissions.Fits messages)
    (hservers : k'.servers = Function.update k.servers sidx
      (some { s with defaultPermissions := (s.defaultPermissions.add messages).2 }))
    (hentry : k'.entry = k.entry)
    (hr : k.answer frame (.allowMessagesSID sid messages) = some .ok ↔ (s.defaultPermissions.add messages).1 = .ok ()) :
    Documented k' (g.after k (.svc frame (.allowMessagesSID sid messages)) k') := by
  have hfilled : ∀ i, ¬ ((k.servers i).isNone = true ∧ (k'.servers i).isSome = true) := by
    intro i
    rw [hservers]
    by_cases hi : i = sidx
    · subst hi
      simp [hs]
    · rw [Function.update_of_ne hi]
      cases k.servers i <;> simp
  constructor
  · intro i s' hs'
    rw [hservers] at hs'
    by_cases hi : i = sidx
    · subst hi
      rw [Function.update_self] at hs'
      cases hs'
      by_cases hok : (s.defaultPermissions.add messages).1 = .ok ()
      · have hby : k.grantedBy (.svc frame (.allowMessagesSID sid messages)) = some (sid, messages) :=
          if_pos (hr.mpr hok)
        simp only [Grants.after, if_neg (hfilled i), hby, hfind, if_true]
        exact (hk.servers i s hs).add hok
      · have hby : k.grantedBy (.svc frame (.allowMessagesSID sid messages)) = none := if_neg fun h => hok (hr.mp h)
        simp only [Grants.after, if_neg (hfilled i), hby]
        exact (hk.servers i s hs).refused hfits hok
    · rw [Function.update_of_ne hi] at hs'
      have hoffered : (g.after k (.svc frame (.allowMessagesSID sid messages)) k').offered i = g.offered i := by
        simp only [Grants.after, if_neg (hfilled i)]
        split
        next sid' messages' hby =>
          refine if_neg fun hi' => hi ?_
          obtain rfl : sid = sid' := by
            simp only [grantedBy] at hby
            split at hby <;> cases hby
            rfl
          rw [hfind] at hi'
          cases hi'
          rfl
        · rfl
      rw [hoffered]
      exact hk.servers i s' hs'
  · intro pid n i r p he
    rw [hentry] at he
    obtain ⟨hwithin, hflag⟩ := hk.entries pid n i r p he
    refine ⟨hwithin, fun s' hs' hpid => ?_⟩
    rw [hservers] at hs'
    by_cases hi : i = sidx
    · subst hi
      rw [Function.update_self] at hs'
      cases hs'
      exact hflag s hs hpid
    · rw [Function.update_of_ne hi] at hs'
      exact hflag s' hs' hpid

theorem Documented.allowsConnection {messages : MessageRange}
    {refcount : Nat} (hk : Documented k g) (hfits : p.Fits messages)
    (h : Links.Rewrites k.links pid n (.connected sidx refcount p)
      (.connected sidx refcount (p.add messages).2) (linksBy k.currentPid k'))
    (hr : k.answer frame (.allowMessagesCID pid (n + 2) messages) = some .ok ↔ (p.add messages).1 = .ok ()) :
    Documented k' (g.after k (.svc frame (.allowMessagesCID pid (n + 2) messages)) k') := by
  have hc : k.connectedBy (.svc frame (.allowMessagesCID pid (n + 2) messages)) = none := rfl
  refine hk.rewrites rfl h (fun pid' n' hat => ?_) ?_
  · cases hto : k.grantedTo (.svc frame (.allowMessagesCID pid (n + 2) messages)) with
    | none => simp only [Grants.after, hc, hto]
    | some x =>
      simp only [Grants.after, hc, hto]
      refine if_neg fun hh => hat ?_
      simp only [grantedTo] at hto
      split at hto <;> cases hto
      exact ⟨hh.1, Nat.add_right_cancel hh.2.symm⟩
  · rintro _ _ _ ⟨⟩
    obtain ⟨hwithin, hflag⟩ := hk.entries pid n sidx refcount p h.was
    have hflag' : ∀ s, k.servers sidx = some s → s.pid ≠ pid → (p.add messages).2.allowAll = false :=
      fun s hs hpid => MessagePermissions.add_allowAll (hflag s hs hpid)
    by_cases hok : (p.add messages).1 = .ok ()
    · have hto : k.grantedTo (.svc frame (.allowMessagesCID pid (n + 2) messages)) =
          some (pid, n + 2, messages) := if_pos (hr.mpr hok)
      simp only [Grants.after, hc, hto, and_self, if_true]
      exact ⟨hwithin.add hok, hflag'⟩
    · have hto : k.grantedTo (.svc frame (.allowMessagesCID pid (n + 2) messages)) = none :=
        if_neg fun h => hok (hr.mp h)
      simp only [Grants.after, hc, hto]
      exact ⟨hwithin.refused hfits hok, hflag'⟩

theorem Documented.effect (hk : Documented k g) (hd : Deliberate k (.svc frame call))
    (h : Links.Effect k.links (linksBy k.currentPid k') call (k.answer frame call)) :
    Documented k' (g.after k (.svc frame call) k') := by
  generalize hr : k.answer frame call = r at h
  cases h with
  | refused hs he =>
    obtain ⟨hc, -⟩ := connectedBy_of_none hr
    have hg : k.grantedBy (.svc frame call) = none := by
      cases call <;> first | rfl | simp [grantedBy, hr]
    have hg' : k.grantedTo (.svc frame call) = none := by
      cases call <;> first | rfl | simp [grantedTo, hr]
    have hservers : k'.servers = k.servers := hs
    refine ⟨hk.servers_same hservers hg, fun pid n sidx r p hslot => ?_⟩
    rw [g.allowed_same hc hg', hservers]
    exact hk.entries pid n sidx r p ((congrFun (congrFun he pid) n).symm.trans hslot)
  | joins hcall hfind h => exact hk.joins hcall hr h
  | opens hcall hfind hs _ h =>
    exact hk.opens hcall hr hfind hs (fun hpid => hd.1 _ _ _ _ hcall hfind hs hpid) h
  | leaves _ h => exact hk.leaves h
  | allowsServer hfind hs hs' he hr' =>
    exact hk.allowsServer hfind hs (hd.2.1 _ _ _ _ rfl hfind hs) hs' he (hr ▸ hr')
  | allowsConnection h hr' =>
    exact hk.allowsConnection (hd.2.2 _ _ _ _ _ _ rfl h.was) h (hr ▸ hr')

/-! ## 4. Runs -/

theorem step_documented (hd : Deliberate k e) (hs : Step k e k')
    (hlive : ∀ pid n sidx r p, k.entry pid n = some (.connected sidx r p) → k.servers sidx ≠ none)
    (hk : Documented k g) : Documented k' (g.after k e k') := by
  have hexec := hs.2
  by_cases hreg : e.Registers
  · cases e with
    | svc frame call =>
      cases hcreates : call.creates with
      | none => exact hk.effect hd (exec_effect hreg hcreates hexec)
      | some x =>
        obtain ⟨hc, -⟩ := connectedBy_of_creates k frame hcreates
        obtain ⟨hg, hg'⟩ := grantedBy_of_creates k frame hcreates
        rcases exec_creates hcreates hexec with h | h
        · exact hk.creates hcreates h hlive
        · exact hk.nothingNew h hc hg hg'
    | _ => cases hreg
  · have hnew := exec_nothingNew hreg k
    rw [Exec.wp, hexec] at hnew
    obtain ⟨hc, -⟩ := connectedBy_of_not_registers (k := k) hreg
    obtain ⟨hg, hg'⟩ := grantedBy_of_not_registers (k := k) hreg
    exact hk.nothingNew hnew hc hg hg'

theorem run_documented {g₀ g : Grants} (h₀ : Booted k₀) (h : GrantRun Deliberate k₀ g₀ es k g) :
    Documented k g := by
  induction h with
  | nil =>
    constructor
    · intro sidx s hs
      have hnone : k₀.servers sidx = none := h₀.ipc.servers sidx
      rw [hnone] at hs
      cases hs
    · intro pid n sidx r p he
      obtain ⟨q, hq, hn⟩ := Option.bind_eq_some_iff.mp he
      rw [← ipc_connections hq] at hn
      exact absurd hn (h₀.ipc.unconnected pid n sidx r p)
  | snoc hrun hs hd ih =>
    obtain ⟨l, hl⟩ := hrun.run.ledger ⟨fun _ => 0, fun _ _ => (0, 0), fun _ _ => 0⟩
    refine step_documented hd hs (fun pid n sidx r p he => ?_) ih
    exact ((run_agrees h₀ hl) pid n sidx r p he).1

/-- `send_message` refuses what the connection does not permit. -/
theorem sendMessage_denied {tid : TID} {r : Nat} {s : Server} {message : Message} (hb : Ipc.Basic k.ipc)
    (he : k.entry k.currentPid n = some (.connected sidx r p)) (hs : k.servers sidx = some s)
    (hpid : s.pid ≠ k.currentPid) (hp : p.isPermitted message.id = false) :
    sendMessage tid (n + 2) message k = .err .accessDenied k := by
  obtain ⟨q, hq, hn⟩ := Option.bind_eq_some_iff.mp he
  have hroom : k.currentPid.get ≤ maxProcessCount := hb.pids _ (ipc_parent_ne_none hq)
  have hlt : sidx < maxServerCount := hb.table sidx s hs
  have hconn : q.connection (n + 2) = .ok (.connected sidx r p) := by
    simp [Process.connection, hn]
  have hfound : serverFromSidx sidx k = .ok (some s) k := by
    simp [serverFromSidx, Nat.not_lt.mpr hlt.le, Exec.bind_run, Exec.assert, hlt, hs]
  have hcurrent : currentProcess k = .ok q k := by
    simp [currentProcess, process, Exec.bind_run, Exec.unwrap, Exec.assert, hroom, hq]
  simp [sendMessage, Exec.bind_run, hcurrent, hconn, Exec.ofExcept, hfound, hpid, hp]

/-- The events one after the other, with what they grant. -/
def execGrants : List Event → Kernel × Grants → Option (Kernel × Grants)
  | [], x => some x
  | e :: es, (k, g) =>
    if Enabled k e then
      match exec e k with
      | .ok _ k' => execGrants es (k', g.after k e k')
      | _ => none
    else none

theorem execGrants_run {g₀ g : Grants} {k1 : Kernel} {g1 : Grants} {es₀ : List Event}
    (h₀ : GrantRun (fun _ _ => True) k₀ g₀ es₀ k1 g1) (h : execGrants es (k1, g1) = some (k, g)) :
    GrantRun (fun _ _ => True) k₀ g₀ (es₀ ++ es) k g := by
  induction es generalizing k1 g1 es₀ with
  | nil =>
    cases h
    rw [List.append_nil]
    exact h₀
  | cons e es ih =>
    unfold execGrants at h
    split at h
    next henabled =>
      split at h
      next k' hexec =>
        have hrun := ih (h₀.snoc ⟨henabled, hexec⟩ trivial) h
        rwa [List.append_assoc] at hrun
      · cases h
    · cases h

end Kernel

namespace Machine

open Kernel

/-- Nothing has been granted. -/
def noGrants : Grants := ⟨fun _ => [], fun _ _ => []⟩

/-- Message 5, of no meaning to anybody. -/
def message5 : Message := .scalar ⟨5, 0, 0, 0, 0⟩

end Machine

namespace Kernel

open Machine

end Kernel

end BeetKernel

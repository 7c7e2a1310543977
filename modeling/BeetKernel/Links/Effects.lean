/-
# What the registering calls write

Connecting, disconnecting and granting permissions write ONE entry; `Links.Effect` lists what each
of these calls does and what it answers.  Creating a server fills an empty place of the server
table.  With `Registry.lean` this is everything that can happen to the two tables in a step.
-/
import BeetKernel.Links.Registrations
import BeetKernel.Ipc.Runs

namespace BeetKernel

open Exec (Along bind_run get_run modify_run wp_assert wp_bind wp_expect wp_get wp_modify wp_mono
  wp_ofExcept wp_okOr wp_pure wp wp_seq)

variable {call : SysCall} {p : Process} {sid : SID}

/-! ## 1. One entry -/

/-- The two tables, and whose call it is. -/
structure Links where
  servers : Nat → Option Server
  entry : PID → Nat → Option ConnectionSlot
  pid : PID

/-- The first server with the id, which is the one `Connect` finds. -/
def Links.serverOf (l : Links) (sid : SID) : Option Nat :=
  (List.range maxServerCount).find? fun i => (l.servers i).any (·.sid = sid)

/-- The first server of the running process with the id. -/
def Links.sidxFromSid (l : Links) (sid : SID) : Option Nat :=
  (List.range maxServerCount).find? fun i => (l.servers i).any fun s => s.sid = sid ∧ s.pid = l.pid

/-- One reference to the connection is given back. -/
def ConnectionSlot.released : ConnectionSlot → ConnectionSlot
  | .free => .free
  | .tombstone r => if r > 1 then .tombstone (r - 1) else .free
  | .connected sidx r permissions =>
    if r > 1 then .connected sidx (r - 1) permissions else .free

/-- For whom and to which server id a call of the process `pid` connects. -/
def SysCall.connects (pid : PID) : SysCall → Option (PID × SID)
  | .connect sid | .tryConnect sid => some (pid, sid)
  | .connectForProcess target sid => some (target, sid)
  | _ => none

/-- The id and the initial range of the server that a call creates. -/
def SysCall.creates : SysCall → Option (SID × MessageRange)
  | .createServerWithAddress sid range => some (sid, range)
  | .createServer sid => some (sid, ⟨0, 0⟩)
  | _ => none

namespace Links

/-- One entry of a connection table is rewritten. -/
structure Rewrites (l : Links) (pid : PID) (n : Nat) (old new : ConnectionSlot) (l' : Links) : Prop where
  servers : l'.servers = l.servers
  was : l.entry pid n = some old
  now : l'.entry pid n = some new
  others : ∀ pid' n', ¬ (pid' = pid ∧ n' = n) → l'.entry pid' n' = l.entry pid' n'

/-- What a call that registers something does, and what it answers; `none` is an error. -/
inductive Effect (l l' : Links) : SysCall → Option Result → Prop where
  | refused {call : SysCall} (hs : l'.servers = l.servers) (he : l'.entry = l.entry) :
      Effect l l' call none
  | joins {call : SysCall} {pid : PID} {sid : SID} {sidx n r : Nat} {p : MessagePermissions}
      (hcall : call.connects l.pid = some (pid, sid)) (hfind : l.serverOf sid = some sidx)
      (h : Rewrites l pid n (.connected sidx r p) (.connected sidx (r + 1) p) l') :
      Effect l l' call (some (.connectionID (n + 2)))
  | opens {call : SysCall} {pid : PID} {sid : SID} {sidx n : Nat} {s : Server}
      (hcall : call.connects l.pid = some (pid, sid)) (hfind : l.serverOf sid = some sidx)
      (hs : l.servers sidx = some s)
      (hfirst : ∀ n' r p, l.entry pid n' ≠ some (.connected sidx r p))
      (h : Rewrites l pid n .free (.connected sidx 1 s.defaultPermissions) l') :
      Effect l l' call (some (.connectionID (n + 2)))
  | leaves {n : Nat} {old : ConnectionSlot} (hold : old ≠ .free)
      (h : Rewrites l l.pid n old old.released l') : Effect l l' (.disconnect (n + 2)) (some .ok)
  | allowsServer {sid : SID} {messages : MessageRange} {sidx : Nat} {s : Server} {r : Option Result}
      (hfind : l.sidxFromSid sid = some sidx) (hs : l.servers sidx = some s)
      (hs' : l'.servers = Function.update l.servers sidx
        (some { s with defaultPermissions := (s.defaultPermissions.add messages).2 }))
      (he : l'.entry = l.entry)
      (hr : r = some .ok ↔ (s.defaultPermissions.add messages).1 = .ok ()) :
      Effect l l' (.allowMessagesSID sid messages) r
  | allowsConnection {pid : PID} {messages : MessageRange} {sidx n refcount : Nat}
      {p : MessagePermissions} {r : Option Result}
      (h : Rewrites l pid n (.connected sidx refcount p) (.connected sidx refcount (p.add messages).2) l')
      (hr : r = some .ok ↔ (p.add messages).1 = .ok ()) :
      Effect l l' (.allowMessagesCID pid (n + 2) messages) r

theorem Effect.pid {l l' : Links} {r : Option Result} (h : Effect l l' call r)
    (pid : PID) : Effect l { l' with pid } call r := by
  cases h with
  | refused hs he => exact .refused hs he
  | joins hcall hfind h => exact .joins hcall hfind ⟨h.servers, h.was, h.now, h.others⟩
  | opens hcall hfind hs hfirst h =>
    exact .opens hcall hfind hs hfirst ⟨h.servers, h.was, h.now, h.others⟩
  | leaves hold h => exact .leaves hold ⟨h.servers, h.was, h.now, h.others⟩
  | allowsServer hfind hs hs' he hr => exact .allowsServer hfind hs hs' he hr
  | allowsConnection h hr => exact .allowsConnection ⟨h.servers, h.was, h.now, h.others⟩ hr

end Links

namespace Kernel

open Links

variable {k k' : Kernel} {α : Type}

def links (k : Kernel) : Links := ⟨k.servers, k.entry, k.currentPid⟩

theorem rewrites_set {pid : PID} {n : Nat} {old new : ConnectionSlot}
    (hp : k.processes pid = some p) (hn : p.connectionMap[n]? = some old) :
    Rewrites k.links pid n old new (links { k with
      processes := Function.update k.processes pid
        (some { p with connectionMap := p.connectionMap.set n new }) }) := by
  obtain ⟨hlt, -⟩ := getElem?_eq_some_iff.mp hn
  refine ⟨rfl, (entry_of_process hp n).trans hn, ?_, fun pid' n' hne => ?_⟩
  · simp [links, entry, hlt]
  · by_cases hpid : pid' = pid
    · subst hpid
      have hn' : n ≠ n' := fun h => hne ⟨rfl, h.symm⟩
      simp [links, entry, hp, List.getElem?_set_ne hn']
    · simp [links, entry, hpid]

/-- What `add_connection` writes: one more reference, or the first. -/
theorem addConnection_ok {p' : Process} {sidx : Nat} {permissions : MessagePermissions} {cid : CID}
    (h : p.addConnection sidx permissions = .ok (cid, p')) : ∃ n, cid = n + 2 ∧
      ((∃ (r : Nat) (perms : MessagePermissions), p.connectionMap[n]? = some (.connected sidx r perms) ∧
          p' = { p with connectionMap := p.connectionMap.set n (.connected sidx (r + 1) perms) }) ∨
        (p.connectionMap[n]? = some .free ∧ (∀ (n' r : Nat) (perms : MessagePermissions),
            p.connectionMap[n']? ≠ some (.connected sidx r perms)) ∧
          p' = { p with connectionMap := p.connectionMap.set n (.connected sidx 1 permissions) })) := by
  unfold Process.addConnection at h
  split at h
  next n hn =>
    obtain ⟨hlt, hconn, -⟩ := List.findIdx?_eq_some_iff_getElem.mp hn
    obtain ⟨r, perms, hslot⟩ := isConnectedTo_iff.mp hconn
    rw [List.getElem?_eq_getElem hlt, hslot] at h
    cases h
    exact ⟨n, rfl, .inl ⟨r, perms, by rw [List.getElem?_eq_getElem hlt, hslot], rfl⟩⟩
  next hnone =>
    split at h
    next n hn =>
      obtain ⟨hlt, hfree, -⟩ := List.findIdx?_eq_some_iff_getElem.mp hn
      cases h
      refine ⟨n, rfl, .inr ⟨?_, fun n' r perms hslot => ?_, rfl⟩⟩
      · rw [List.getElem?_eq_getElem hlt, of_decide_eq_true hfree]
      · have hfalse := List.findIdx?_eq_none_iff.mp hnone _ (List.mem_of_getElem? hslot)
        simp [Process.tombstoneConnectionBySidx.isConnectedTo] at hfalse
    · cases h

theorem connectToServer_effect {pid : PID} (hcall : call.connects k.currentPid = some (pid, sid)) :
    wp (connectToServer pid sid) (fun cid k' => Effect k.links k'.links call (some (.connectionID cid)))
      (fun _ k' => Effect k.links k'.links call none) k := by
  simp only [connectToServer, process, setProcess, wp_bind, wp_get, wp_okOr,
    wp_expect, wp_assert, wp_ofExcept, wp_modify, wp_pure]
  refine ⟨fun sidx hfind s hs _ => ⟨fun p hp => ⟨fun r hr => ?_, fun _ _ => .refused rfl rfl⟩,
    fun _ => .refused rfl rfl⟩, fun _ => .refused rfl rfl⟩
  obtain ⟨cid, p'⟩ := r
  obtain ⟨n, rfl, ⟨r, perms, hn, rfl⟩ | ⟨hn, hfirst, rfl⟩⟩ := addConnection_ok hr
  · exact .joins hcall hfind (rewrites_set hp hn)
  · refine .opens hcall hfind hs (fun n' r perms he => ?_) (rewrites_set hp hn)
    exact hfirst n' r perms ((entry_of_process hp n').symm.trans he)

theorem connection_cid {cid : CID} {slot : ConnectionSlot} (h : p.connection cid = .ok slot) : cid = cid - 2 + 2 := by
  unfold Process.connection at h
  split at h
  · cases h
  next hcid =>
    exact (Nat.sub_add_cancel (Nat.le_of_not_lt hcid)).symm

theorem disconnectFromServer_effect (cid : CID) : wp (disconnectFromServer cid)
      (fun _ k' => Effect k.links k'.links (.disconnect cid) (some .ok))
      (fun _ k' => Effect k.links k'.links (.disconnect cid) none) k := by
  simp only [disconnectFromServer, currentProcess, process, wp_bind, wp_get, wp_okOr,
    Exec.wp_unwrap, wp_assert, wp_ofExcept]
  refine fun _ => ⟨fun p hp => ⟨fun slot hslot => ?_, fun _ _ => .refused rfl rfl⟩, fun _ => trivial⟩
  have hmap := connection_eq_ok hslot
  rw [connection_cid hslot]
  split
  · exact .refused rfl rfl
  · exact .leaves (by rintro ⟨⟩) (rewrites_set hp hmap)
  · exact .leaves (by rintro ⟨⟩) (rewrites_set hp hmap)

theorem allowMessagesSID_effect (tid : TID) (sid : SID) (messages : MessageRange) :
    wp (dispatch tid (.allowMessagesSID sid messages))
      (fun r k' => r = .result .ok ∧ Effect k.links k'.links (.allowMessagesSID sid messages) (some .ok))
      (fun _ k' => Effect k.links k'.links (.allowMessagesSID sid messages) none) k := by
  simp only [dispatch, setServer, wp_bind, wp_get, wp_okOr, wp_expect, wp_modify, wp_ofExcept, wp_pure]
  exact ⟨fun sidx hfind s hs =>
    ⟨fun _ hok => ⟨trivial, .allowsServer hfind hs rfl rfl (by simp [hok])⟩,
      fun e he => .allowsServer hfind hs rfl rfl (by simp [he])⟩, fun _ => .refused rfl rfl⟩

theorem allowMessagesCID_effect (tid : TID) (pid : PID) (cid : CID) (messages : MessageRange) :
    wp (dispatch tid (.allowMessagesCID pid cid messages))
      (fun r k' => r = .result .ok ∧ Effect k.links k'.links (.allowMessagesCID pid cid messages) (some .ok))
      (fun _ k' => Effect k.links k'.links (.allowMessagesCID pid cid messages) none) k := by
  simp only [dispatch]
  split
  · exact .refused rfl rfl
  · simp only [process, wp_bind, wp_get, wp_okOr, wp_assert]
    refine fun _ => ⟨fun p hp => ?_, fun _ => .refused rfl rfl⟩
    split
    next sidx refcount perms hslot =>
      simp only [setProcess, wp_bind, wp_modify, wp_ofExcept, wp_pure]
      rw [connection_cid hslot]
      exact ⟨fun _ hok => ⟨trivial, .allowsConnection (rewrites_set hp (connection_eq_ok hslot))
        (by simp [hok])⟩, fun e he => .allowsConnection (rewrites_set hp (connection_eq_ok hslot))
        (by simp [he])⟩
    · exact .refused rfl rfl

/-! ## 2. Creating a server -/

end Kernel

/-- The permissions `Server::init` gives a server with this initial range. -/
def MessagePermissions.initial (range : MessageRange) : MessagePermissions :=
  if range.isEmpty then .default else (MessagePermissions.default.add range).2

theorem Server.init_card {pid : PID} {backing : Nat} {queue : List QueuedMessage}
    {range : MessageRange} {s : Server} (h : init none pid sid backing queue range = .ok s) :
    s.card = ⟨sid, pid, .initial range⟩ := by
  simp only [init, Option.isSome_none, Bool.false_eq_true, if_false, bind, Except.bind, pure, Except.pure] at h
  unfold MessagePermissions.initial
  split at h
  next hempty =>
    cases h
    rw [if_pos hempty]
    rfl
  next hempty =>
    rw [if_neg hempty]
    cases hadd : (MessagePermissions.default.add range).1 with
    | error e =>
      rw [hadd] at h
      cases h
    | ok u =>
      rw [hadd] at h
      cases h
      rfl

namespace Kernel

open Links

variable {k k' : Kernel}

/-- A server is entered in an empty place, and nothing else. -/
structure Creates (sid : SID) (range : MessageRange) (k k' : Kernel) : Prop where
  intro ::
  steps : ∃ (sidx : Nat) (s : Server) (k1 : Kernel), k.servers sidx = none ∧ NothingNew k k1 ∧
    s.card = ⟨sid, k.currentPid, .initial range⟩ ∧
    NothingNew { k1 with servers := Function.update k1.servers sidx (some s) } k'

theorem createServerWithAddress_creates (sid : SID) (range : MessageRange) : wp (createServerWithAddress sid range)
      (fun _ k' => Creates sid range k k' ∨ NothingNew k k')
      (fun _ k' => Creates sid range k k' ∨ NothingNew k k') k := by
  unfold createServerWithAddress
  rw [wp_bind, wp_get]
  dsimp only
  split
  · exact .inr (refl_of NothingNew k)
  next sidx hfind =>
    have hnone : k.servers sidx = none := by simpa using List.find?_some hfind
    refine wp_seq (nothingNew_frame.toMemoryFrame.mapRange _ _ _ _ _ k) (fun backing k1 h1 => ?_) fun _ _ h => .inr h
    refine wp_seq (Along.after h1 (virtToPhys_along _ _)) (fun phys k2 h2 => ?_) fun _ _ h => .inr h
    simp only [wp_bind, wp_get, wp_expect, Exec.wp_unwrap, wp_ofExcept]
    refine fun queue _ => ⟨fun s hinit => ?_, fun _ _ => trivial⟩
    rw [setServer, wp_modify]
    refine wp_mono (nothingNew_frame.visits.wakeThreadsWithState _ _) (fun _ k3 h3 => ?_) fun _ k3 h3 => ?_
    · exact .inl ⟨sidx, s, k2, hnone, h2, Server.init_card hinit, h3⟩
    · exact .inl ⟨sidx, s, k2, hnone, h2, Server.init_card hinit, h3⟩

/-! ## 3. Steps -/

theorem handle_of_dispatch {tid : TID} {Q : Response → Kernel → Prop}
    {E : Error → Kernel → Prop} (h : wp (dispatch tid call) Q E k) (herr : ∀ e, E e k) :
    wp (handle tid call) Q E k := by
  unfold handle
  rw [wp_bind]
  exact wp_mono (checkSyscallPermission_same call k) (fun _ _ hk => hk ▸ h) fun e _ hk => hk ▸ herr e

/-- What the kernel answers to a call; `none` is an error, or no answer yet. -/
def answer (k : Kernel) (frame : Context) (call : SysCall) : Option Result :=
  match handle k.currentThread.2 call (saveContext k.currentThread frame k) with
  | .ok (.result r) _ => some r
  | _ => none

variable {frame : Context}

/-- After the handler only registers are written. -/
theorem exec_svc_post {Q : Option Result → Kernel → Prop}
    (hhandle : wp (handle k.currentThread.2 call) (fun r k2 => ∃ x, r = .result x ∧ Q (some x) k2)
      (fun _ k2 => Q none k2) (saveContext k.currentThread frame k))
    (hQ : ∀ r k1 k2, k2.processes = k1.processes → k2.servers = k1.servers → Q r k1 → Q r k2)
    (h : exec (.svc frame call) k = .ok () k') : Q (k.answer frame call) k' := by
  unfold answer
  unfold wp at hhandle
  cases hh : handle k.currentThread.2 call (saveContext k.currentThread frame k) with
  | panic msg =>
    simp only [exec, handleSvc, handleCall, bind_run, get_run, modify_run, Exec.attempt, hh] at h
    cases h
  | err e k2 =>
    rw [hh] at hhandle
    simp only [exec, handleSvc, handleCall, bind_run, get_run, modify_run, Exec.attempt, hh] at h
    cases h
    exact hQ _ _ _ (setSavedResult_sameTables _ _ _).processes (setSavedResult_sameTables _ _ _).servers hhandle
  | ok r k2 =>
    rw [hh] at hhandle
    obtain ⟨x, rfl, hx⟩ := hhandle
    by_cases hresume : x = .resumeProcess
    · subst hresume
      simp only [exec, handleSvc, handleCall, bind_run, get_run, modify_run, Exec.attempt, hh, Exec.pure_run] at h
      cases h
      exact hx
    · rw [exec_svc_result hh hresume] at h
      cases h
      exact hQ _ _ _ (setSavedResult_sameTables _ _ _).processes (setSavedResult_sameTables _ _ _).servers hx

theorem entry_congr (h : k'.processes = k.processes) : k'.entry = k.entry := by
  unfold entry
  rw [h]

/-- The handlers of the calls that connect, disconnect or grant. -/
theorem dispatch_effect (hcall : call.Registers) (hnot : call.creates = none) (tid : TID) :
    wp (dispatch tid call) (fun r k' => ∃ x, r = .result x ∧ Effect k.links k'.links call (some x))
      (fun _ k' => Effect k.links k'.links call none) k := by
  have hconnect : ∀ pid sid, call.connects k.currentPid = some (pid, sid) →
      wp (do pure (.result (.connectionID (← connectToServer pid sid))) : KExec Response)
        (fun r k' => ∃ x, r = .result x ∧ Effect k.links k'.links call (some x))
        (fun _ k' => Effect k.links k'.links call none) k := fun pid sid hconnects => by
    rw [wp_bind]
    exact wp_mono (connectToServer_effect hconnects) (fun cid _ h => ⟨_, rfl, h⟩) fun _ _ h => h
  cases call with
  | connect sid => exact hconnect k.currentPid sid rfl
  | tryConnect sid => exact hconnect k.currentPid sid rfl
  | connectForProcess pid sid => exact hconnect pid sid rfl
  | disconnect cid =>
    simp only [dispatch, wp_bind, wp_pure]
    exact wp_mono (disconnectFromServer_effect cid) (fun _ _ h => ⟨_, rfl, h⟩) fun _ _ h => h
  | allowMessagesSID sid messages =>
    exact wp_mono (allowMessagesSID_effect tid sid messages) (fun _ _ h => ⟨_, h.1, h.2⟩) fun _ _ h => h
  | allowMessagesCID pid cid messages =>
    exact wp_mono (allowMessagesCID_effect tid pid cid messages) (fun _ _ h => ⟨_, h.1, h.2⟩) fun _ _ h => h
  | createServerWithAddress | createServer => cases hnot
  | _ => cases hcall

/-- **A call that connects, disconnects or grants** writes what `Effect` says. -/
theorem exec_effect (hcall : call.Registers) (hnot : call.creates = none) (h : exec (.svc frame call) k = .ok () k') :
    Effect k.links ⟨k'.servers, k'.entry, k.currentPid⟩ call (k.answer frame call) := by
  have hlinks : (saveContext k.currentThread frame k).links = k.links := by
    rw [saveContext_eq]
    rfl
  refine exec_svc_post (Q := fun r k' => Effect k.links ⟨k'.servers, k'.entry, k.currentPid⟩ call r) ?_ ?_ h
  · refine handle_of_dispatch ?_ fun e => ?_
    · rw [← hlinks]
      exact wp_mono (dispatch_effect hcall hnot _) (fun _ _ ⟨x, hr, hx⟩ => ⟨x, hr, hx.pid _⟩) fun _ _ hx => hx.pid _
    · exact .refused (saveContext_sameTables _ _ _).servers (entry_congr (saveContext_sameTables _ _ _).processes)
  · intro r k1 k2 hp hs hr
    rw [hs, entry_congr hp]
    exact hr

/-- **A call that creates a server** enters one, or nothing. -/
theorem exec_creates {range : MessageRange}
    (hcall : call.creates = some (sid, range)) (h : exec (.svc frame call) k = .ok () k') :
    Creates sid range k k' ∨ NothingNew k k' := by
  have hsave : NothingNew k (saveContext k.currentThread frame k) :=
    .of_eq (saveContext_sameTables _ _ _).processes (saveContext_sameTables _ _ _).servers
  have hback : ∀ k2, Creates sid range (saveContext k.currentThread frame k) k2 ∨
      NothingNew (saveContext k.currentThread frame k) k2 → Creates sid range k k2 ∨ NothingNew k k2 := by
    rintro k2 (⟨sidx, s, k1, hs, h1, hcard, h2⟩ | h2)
    · rw [saveContext_eq] at hs hcard
      exact .inl ⟨sidx, s, k1, hs, trans_of NothingNew hsave h1, hcard, h2⟩
    · exact .inr (trans_of NothingNew hsave h2)
  refine exec_svc_post (Q := fun _ k' => Creates sid range k k' ∨ NothingNew k k') ?_ ?_ h
  · refine handle_of_dispatch ?_ fun e => .inr hsave
    have hcreate : wp (do pure (.result (.newServerID (← createServerWithAddress sid range))) : KExec Response)
        (fun r k2 => ∃ x, r = .result x ∧ (Creates sid range k k2 ∨ NothingNew k k2))
        (fun _ k2 => Creates sid range k k2 ∨ NothingNew k k2) (saveContext k.currentThread frame k) := by
      rw [wp_bind]
      exact wp_mono (createServerWithAddress_creates sid range) (fun _ _ h => ⟨_, rfl, hback _ h⟩)
        fun _ _ h => hback _ h
    cases call with
    | createServerWithAddress | createServer =>
      cases hcall
      exact hcreate
    | _ => cases hcall
  · intro _ k1 k2 hp hs hr
    have hlast : NothingNew k1 k2 := .of_eq hp hs
    rcases hr with ⟨sidx, s, k₀, hs₀, h₀, hcard, h1⟩ | h1
    · exact .inl ⟨sidx, s, k₀, hs₀, h₀, hcard, trans_of NothingNew h1 hlast⟩
    · exact .inr (trans_of NothingNew h1 hlast)

/-- The event is a call that registers something. -/
def Event.Registers : Event → Prop
  | .svc _ call => call.Registers
  | _ => False

theorem dispatchInputChar_nothingNew (c : UInt8) : Along NothingNew (dispatchInputChar c) := by
  refine .read fun k => ?_
  split
  · exact nothingNew_frame.deliverCharToSid _ _
  · exact setDisplay_nothingNew _

/-- **Every other step registers nothing.** -/
theorem exec_nothingNew {e : Event} (h : ¬ e.Registers) : Along NothingNew (exec e) := by
  cases e with
  | store va b =>
    refine Along.modify fun k => ?_
    unfold storeByte
    split
    · split
      · exact .of_eq rfl rfl
      · exact refl_of NothingNew k
    · exact refl_of NothingNew k
  | svc frame call =>
    refine .read fun k => (nothingNew_frame.modify (saveContext_sameTables _ _)).bind fun _ =>
      Along.bind (Along.attempt ?_) fun r => ?_
    · refine Along.bind ?_ fun r => ?_
      · refine Along.bind ?_ fun _ => dispatch_nothingNew _ h
        exact fun k => wp_mono (checkSyscallPermission_same call k)
          (fun _ _ hk => hk ▸ refl_of NothingNew k) fun _ _ hk => hk ▸ refl_of NothingNew k
      · cases r with
        | result r => exact .pure _
        | activateCurrent => exact nothingNew_frame.activateCurrent
    · split
      · exact .pure _
      · exact nothingNew_frame.modifySavedResult _ _
      · exact nothingNew_frame.modifySavedResult _ _
  | invalidSvc frame =>
    exact .read fun _ => (nothingNew_frame.modify (saveContext_sameTables _ _)).bind fun _ =>
      nothingNew_frame.modifySavedResult _ _
  | timer frame =>
    exact .read fun _ => (nothingNew_frame.modify (saveContext_sameTables _ _)).bind fun _ =>
      currentProcess_along.bind fun _ => (nothingNew_frame.withScheduler _).bind fun _ =>
        nothingNew_frame.activateCurrent.ignore
  | input frame chars =>
    exact .read fun _ => (nothingNew_frame.modify (saveContext_sameTables _ _)).bind fun _ =>
      Along.each fun _ _ => dispatchInputChar_nothingNew _
  | abort frame =>
    exact .read fun _ => (nothingNew_frame.modify (saveContext_sameTables _ _)).bind fun _ =>
      ((terminateCurrentProcess_nothingNew _).bind fun _ => nothingNew_frame.activateCurrent).ignore
  | idle chars =>
    exact (Along.each fun _ _ => dispatchInputChar_nothingNew _).bind fun _ =>
      nothingNew_frame.activateCurrent.ignore

end Kernel

end BeetKernel

/-
# What an application may send

`connect_exact_iff` follows a permission from the manifests to the kernel: the name server keeps the
message ids that the manifests grant, connects an application to a server and has the kernel allow
these ids on the connection; the kernel then accepts exactly these and the server's default range,
if and only if the connection has no other ranges and its flag `allow_all` is cleared.  A server
without a default range leaves the flag set, and only the first permission clears it
(`nothing_granted`).
-/
import BeetKernel.Links.Grants
import BeetKernel.Names.Serving
import Mathlib.Data.List.TakeWhile

namespace BeetKernel

open Function (update)

/-! ## 1. Manifests -/

namespace Names

/-- The two stages in which a manifest is processed.  `add_manifest_impl` takes them one after the
other; for the system's manifests all of the first stages come before the second ones. -/
inductive Stage where
  | servers (appId : AppId) (manifest : Manifest)
  | permissions (appId : AppId) (manifest : Manifest)

/-- What the manifests declare: the ids of the messages. -/
abbrev Declared := Name × Name → Option MessageId

/-- The declarations of a manifest. -/
def Declared.add (d : Declared) (manifest : Manifest) : Declared := manifest.servers.foldl (fun d (server, messages) =>
    messages.foldl (fun d (message, id) => update d (server, message) (some id)) d) d

/-- **What the manifests grant** to an application for a server: the ids that were declared for the
message names its manifests ask for. -/
def Granted (appId : AppId) (server : Name) (m : MessageId) : Declared → List Stage → Prop
  | _, [] => False
  | d, .servers _ manifest :: stages => Granted appId server m (d.add manifest) stages
  | d, .permissions app manifest :: stages =>
    (app = appId ∧ ∃ messages, (server, messages) ∈ manifest.permissions ∧
      ∃ message ∈ messages, d (server, message) = some m) ∨ Granted appId server m d stages

namespace NameServer

variable {s s' : NameServer} {d : Declared} {appId app : AppId} {server : Name} {m : MessageId}

/-- One stage of the processing of a manifest. -/
def process (s : NameServer) : Stage → Except Error Unit × NameServer
  | .servers appId manifest => (.ok (), s.processManifestServers appId manifest)
  | .permissions appId manifest => s.processManifestPermissions appId manifest

/-- All of them. -/
def processAll (s : NameServer) (stages : List Stage) : NameServer := stages.foldl (fun s x => (s.process x).2) s

/-- No manifest has been rejected. -/
def AllAccepted : NameServer → List Stage → Prop
  | _, [] => True
  | s, x :: stages => (s.process x).1 = .ok () ∧ AllAccepted (s.process x).2 stages

/-- The manifest that a message brings to the tables: its sender may add manifests, and it can be parsed. -/
def admitted (s : NameServer) (k : Answers) (msg : Service.Envelope) : Option Manifest :=
  match senderApp k msg with
  | .error _ => none
  | .ok (_, appId) =>
    if Opcode.addManifestId ∈ (s.appPermissions appId osNameserver).getD [] then
      msg.body.memoryMessage.bind fun m => k.tryFromBytes (m.buf.take (validBytes m))
    else none

/-- A manifest that arrives later goes through both stages, under its own application id. -/
theorem addManifestImpl_stages {k : Answers} {msg : Service.Envelope} {r : Except Error Unit × NameServer}
    (h : s.addManifestImpl k msg = some r) :
    s.admitted k msg = none ∧ r.2 = s ∨ ∃ app manifest, s.admitted k msg = some manifest ∧ manifest.appId = some app ∧
      r = (s.process (.servers app manifest)).2.process (.permissions app manifest) := by
  unfold addManifestImpl at h
  unfold admitted
  cases happ : senderApp k msg with
  | error e =>
    rw [happ] at h
    exact .inl ⟨rfl, by rw [← Option.some.inj h]⟩
  | ok x =>
    rw [happ] at h
    dsimp only at h ⊢
    split_ifs at h with hmay
    · rw [if_pos hmay]
      cases hbody : msg.body.memoryMessage with
      | none =>
        rw [hbody] at h
        exact .inl ⟨rfl, by rw [← Option.some.inj h]⟩
      | some m =>
        rw [hbody] at h
        dsimp only [Option.bind_some] at h ⊢
        split_ifs at h
        cases hparse : k.tryFromBytes (m.buf.take (validBytes m)) with
        | none =>
          rw [hparse] at h
          exact .inl ⟨rfl, by rw [← Option.some.inj h]⟩
        | some manifest =>
          rw [hparse] at h
          dsimp only at h
          cases hid : manifest.appId with
          | none =>
            rw [hid] at h
            cases h
          | some app =>
            rw [hid] at h
            exact .inr ⟨app, manifest, rfl, hid, (Option.some.inj h).symm⟩
    · exact .inl ⟨if_neg hmay, by rw [← Option.some.inj h]⟩

/-- The ids an application may send to a server. -/
def permitted (s : NameServer) (appId : AppId) (server : Name) : List MessageId :=
  (s.appPermissions appId server).getD []

/-- The table of the message ids is that of the declarations. -/
def Declares (s : NameServer) (d : Declared) : Prop := ∀ x, s.messageNameToId x = (d x).map fun id => [id]

/-- The table of the message ids has the declarations over what was there before. -/
def Redeclares (old : Name × Name → Option (List MessageId)) (s : NameServer) (d : Declared) : Prop :=
  ∀ x, s.messageNameToId x = ((d x).map fun id => [id]).or (old x)

variable {old : Name × Name → Option (List MessageId)}

theorem Redeclares.addMessage (h : Redeclares old s d) (server message : Name) (id : MessageId) :
    Redeclares old (s.addMessage server message id) (update d (server, message) (some id)) := by
  intro x
  by_cases hx : x = (server, message)
  · subst hx
    simp [NameServer.addMessage]
  · simp [NameServer.addMessage, Function.update_of_ne hx, h x]

theorem Redeclares.addMessages (messages : List (Name × MessageId)) (h : Redeclares old s d) (server : Name) :
    Redeclares old (messages.foldl (fun s x => s.addMessage server x.1 x.2) s)
      (messages.foldl (fun d x => update d (server, x.1) (some x.2)) d) := by
  induction messages generalizing s d with
  | nil => exact h
  | cons x messages ih => exact ih (h.addMessage server x.1 x.2)

/-- **The first stage** declares. -/
theorem Redeclares.servers (h : Redeclares old s d) (appId : AppId) (manifest : Manifest) :
    Redeclares old (s.processManifestServers appId manifest) (d.add manifest) := by
  unfold processManifestServers Declared.add
  generalize manifest.servers = servers
  induction servers generalizing s d with
  | nil => exact h
  | cons x servers ih =>
    obtain ⟨server, messages⟩ := x
    have hadd : Redeclares old (s.addServer appId server) d := h
    exact ih (hadd.addMessages messages server)

theorem Declares.servers (h : s.Declares d) (appId : AppId) (manifest : Manifest) :
    (s.processManifestServers appId manifest).Declares (d.add manifest) := by
  have hover : Redeclares (fun _ => none) s d := fun x => (h x).trans Option.or_none.symm
  exact fun x => (hover.servers appId manifest x).trans Option.or_none

theorem addMessages_tables (messages : List (Name × MessageId)) (server : Name) (s : NameServer) :
    let s' := messages.foldl (fun s x => s.addMessage server x.1 x.2) s
    s'.connectPermissions = s.connectPermissions ∧ s'.registerPermissions = s.registerPermissions := by
  induction messages generalizing s with
  | nil => exact ⟨rfl, rfl⟩
  | cons x messages ih => exact ih (s.addMessage server x.1 x.2)

/-- Names and permissions are not touched by the first stage. -/
theorem processManifestServers_connectPermissions (s : NameServer) (appId : AppId) (manifest : Manifest) :
    (s.processManifestServers appId manifest).connectPermissions = s.connectPermissions := by
  unfold processManifestServers
  generalize manifest.servers = servers
  induction servers generalizing s with
  | nil => rfl
  | cons x servers ih =>
    obtain ⟨server, messages⟩ := x
    exact (ih _).trans (addMessages_tables messages server (s.addServer appId server)).1

theorem collect_eq (s : NameServer) (server : Name) (messages : List Name) (ids : List MessageId) :
    s.collect server messages ids = (messages.all fun message => (s.messageNameToId (server, message)).isSome,
        ids ++ (messages.takeWhile fun message => (s.messageNameToId (server, message)).isSome).flatMap
          fun message => (s.messageNameToId (server, message)).getD []) := by
  induction messages generalizing ids with
  | nil => simp [collect]
  | cons message messages ih =>
    unfold collect
    cases hid : s.messageNameToId (server, message) with
    | none => simp [hid]
    | some new => simp [hid, ih]

/-- The servers that a manifest asks for up to its first unknown message, each with the ids of the
messages it asks for until then. -/
def reached (ids : Name × Name → Option (List MessageId)) : List (Name × List Name) → List (Name × List MessageId)
  | [] => []
  | (server, messages) :: rest =>
    (server, (messages.takeWhile fun message => (ids (server, message)).isSome).flatMap
      fun message => (ids (server, message)).getD []) ::
      if messages.all fun message => (ids (server, message)).isSome then reached ids rest else []

/-- The application has got the permissions `added`, and nothing else has changed. -/
structure Adds (s s' : NameServer) (app : AppId) (added : List (Name × List MessageId)) : Prop where
  registers : s'.registerPermissions = s.registerPermissions
  messages : s'.messageNameToId = s.messageNameToId
  entries : ∀ appId server, (s'.appPermissions appId server).isSome ↔
    (s.appPermissions appId server).isSome ∨ app = appId ∧ ∃ ids, (server, ids) ∈ added
  ids : ∀ appId server, (s'.permitted appId server).Perm (s.permitted appId server ++
    (added.filter fun x => app = appId ∧ x.1 = server).flatMap Prod.snd)

theorem Adds.trans {s1 : NameServer} {added added' : List (Name × List MessageId)} (h : Adds s s1 app added)
    (h' : Adds s1 s' app added') : Adds s s' app (added ++ added') where
  registers := h'.registers.trans h.registers
  messages := h'.messages.trans h.messages
  entries appId server := by
    rw [h'.entries, h.entries, or_assoc, ← and_or_left, ← exists_or]
    simp only [List.mem_append]
  ids appId server := by
    refine (h'.ids appId server).trans ?_
    rw [List.filter_append, List.flatMap_append, ← List.append_assoc]
    exact (h.ids appId server).append_right _

theorem Adds.set (s : NameServer) {ids new : List MessageId} (h : ids.Perm (s.permitted app server ++ new)) :
    Adds s (s.setPermissions app server ids) app [(server, new)] := by
  refine ⟨rfl, rfl, fun appId server' => ?_, fun appId server' => ?_⟩ <;>
    by_cases happ : app = appId <;> by_cases hserver : server = server'
  · subst happ hserver
    simp [setPermissions, appPermissions]
  · subst happ
    simp [setPermissions, appPermissions, Ne.symm hserver]
  iterate 2 simp [setPermissions, appPermissions, Function.update_of_ne (Ne.symm happ), happ]
  · subst happ hserver
    simpa [permitted, setPermissions, appPermissions] using h
  · subst happ
    simp [permitted, setPermissions, appPermissions, Function.update_of_ne (Ne.symm hserver), hserver]
  iterate 2 simp [permitted, setPermissions, appPermissions, Function.update_of_ne (Ne.symm happ), happ]

/-- **The second stage** adds what the manifest asks for up to its first unknown message. -/
theorem addPermissions_adds (s : NameServer) (app : AppId) (permissions : List (Name × List Name)) :
    Adds s (s.addPermissions app permissions).2 app (reached s.messageNameToId permissions) := by
  induction permissions generalizing s with
  | nil => exact ⟨rfl, rfl, by simp [addPermissions, reached], by simp [addPermissions, reached]⟩
  | cons x permissions ih =>
    obtain ⟨server, messages⟩ := x
    unfold addPermissions reached
    rw [collect_eq]
    cases messages.all fun message => (s.messageNameToId (server, message)).isSome with
    | false => exact .set s (.refl _)
    | true => exact (Adds.set s (List.mergeSort_perm _ _)).trans (ih _)

/-- The entry of the application, which is made before the loop, has no servers. -/
theorem Adds.entry (s : NameServer) (app : AppId) : Adds s { s with
      connectPermissions := update s.connectPermissions app (some (s.appPermissions app)) } app [] := by
  refine ⟨rfl, rfl, fun appId server => ?_, fun appId server => ?_⟩ <;>
    by_cases happ : appId = app <;> simp [happ, permitted, appPermissions]

theorem processManifestPermissions_adds (s : NameServer) (app : AppId) (manifest : Manifest) :
    Adds s (s.processManifestPermissions app manifest).2 app (reached s.messageNameToId manifest.permissions) :=
  (Adds.entry s app).trans (addPermissions_adds _ app manifest.permissions)

theorem reached_of_ok {permissions : List (Name × List Name)} (hok : (s.addPermissions app permissions).1 = .ok ()) :
    reached s.messageNameToId permissions = permissions.map fun x =>
      (x.1, x.2.flatMap fun message => (s.messageNameToId (x.1, message)).getD []) := by
  induction permissions generalizing s with
  | nil => rfl
  | cons x permissions ih =>
    obtain ⟨server, messages⟩ := x
    unfold addPermissions at hok
    rw [collect_eq] at hok
    cases hall : messages.all fun message => (s.messageNameToId (server, message)).isSome with
    | false =>
      rw [hall] at hok
      cases hok
    | true =>
      rw [hall] at hok
      have hrest := ih hok
      rw [reached, hall, if_pos rfl, List.takeWhile_eq_self_iff.mpr (List.all_eq_true.mp hall), List.map_cons]
      exact congrArg _ hrest

theorem mem_permitted_processManifestPermissions (h : s.Declares d) {manifest : Manifest}
    (hok : (s.processManifestPermissions app manifest).1 = .ok ()) (appId : AppId) (server : Name) :
    (s.processManifestPermissions app manifest).2.Declares d ∧
    (m ∈ (s.processManifestPermissions app manifest).2.permitted appId server ↔
      m ∈ s.permitted appId server ∨ app = appId ∧ ∃ messages, (server, messages) ∈ manifest.permissions ∧
        ∃ message ∈ messages, d (server, message) = some m) := by
  have hadds := processManifestPermissions_adds s app manifest
  refine ⟨fun x => (congrFun hadds.messages x).trans (h x), ?_⟩
  unfold processManifestPermissions at hok
  rw [(hadds.ids appId server).mem_iff, reached_of_ok hok, List.mem_append]
  refine or_congr_right ?_
  have hd : ∀ x, m ∈ (s.messageNameToId x).getD [] ↔ d x = some m := by
    intro x
    rw [h]
    cases d x <;> simp [eq_comm]
  simp only [List.mem_flatMap, List.mem_filter, List.mem_map, decide_eq_true_eq]
  constructor
  · rintro ⟨_, ⟨⟨⟨server', messages⟩, hin, rfl⟩, happ, rfl⟩, hm⟩
    obtain ⟨message, hmessage, hm⟩ := List.mem_flatMap.mp hm
    exact ⟨happ, messages, hin, message, hmessage, (hd _).mp hm⟩
  · rintro ⟨happ, messages, hin, message, hmessage, hm⟩
    exact ⟨_, ⟨⟨_, hin, rfl⟩, happ, rfl⟩, List.mem_flatMap.mpr ⟨message, hmessage, (hd _).mpr hm⟩⟩

/-- **The tables are what the manifests grant**, if none has been rejected. -/
theorem mem_permitted_processAll (stages : List Stage) (h : s.Declares d) (haccepted : s.AllAccepted stages) :
    m ∈ (s.processAll stages).permitted appId server ↔
      m ∈ s.permitted appId server ∨ Granted appId server m d stages := by
  induction stages generalizing s d with
  | nil => simp [processAll, Granted]
  | cons x stages ih =>
    obtain ⟨hok, hrest⟩ := haccepted
    cases x with
    | servers app manifest =>
      have hsame : (s.processManifestServers app manifest).permitted appId server = s.permitted appId server := by
        unfold permitted appPermissions
        rw [processManifestServers_connectPermissions]
      have := ih (h.servers app manifest) hrest
      rw [hsame] at this
      exact this
    | permissions app manifest =>
      obtain ⟨hdeclares, hmem⟩ := mem_permitted_processManifestPermissions (m := m) h hok appId server
      refine (ih hdeclares hrest).trans ?_
      show m ∈ (s.processManifestPermissions app manifest).2.permitted appId server ∨ _ ↔ _
      rw [hmem, or_assoc]
      rfl

end NameServer

/-! ## 2. Connections -/

open Links

/-- The kernel takes the permissions of a connection, one after the other. -/
inductive Allows (pid : PID) (cid : CID) : Links → List MessageId → Links → Prop where
  | nil (l : Links) : Allows pid cid l [] l
  | cons {l l1 l' : Links} {id : MessageId} {ids : List MessageId} :
      Effect l l1 (.allowMessagesCID pid cid (NameServer.permissionRange id)) (some .ok) →
      Allows pid cid l1 ids l' → Allows pid cid l (id :: ids) l'

/-- **A connection through the name server**: `connect_impl` for the process `pid` of the application
`appId`, with the kernel's part of its calls. -/
structure Connected (s : NameServer) (pid : PID) (appId : AppId) (server : Name) (cid : CID) (l l' : Links) : Prop where
  exists_calls : ∃ sid ids l1, s.nameTable server = some sid ∧ s.connectionPermissions appId server = some ids ∧
    Effect l l1 (.connectForProcess pid sid) (some (.connectionID cid)) ∧ Allows pid cid l1 ids l'

theorem connectImpl_connected {s : NameServer} {k : Answers} {msg : Service.Envelope} {cid : CID}
    (h : s.connectImpl k msg = some (.ok (.connected cid))) :
    ∃ pid appId server sid ids, NameServer.senderApp k msg = .ok (pid, appId) ∧
      NameServer.nameFromMsg k msg 0 = some (.ok server) ∧
      s.nameTable server = some sid ∧ s.connectionPermissions appId server = some ids ∧
      k.connectForProcess pid sid = .ok cid ∧
      ∀ id ∈ ids, (k.allowMessages pid cid (NameServer.permissionRange id)).isOk = true := by
  unfold NameServer.connectImpl at h
  split at h
  · cases h
  rename_i pid appId happ
  split at h <;> try cases h
  rename_i server hname
  split at h
  · cases h
  rename_i sid hsid
  split at h
  · cases h
  rename_i ids hids
  split at h
  · cases h
  rename_i cid' hcid
  split_ifs at h with hall
  cases h
  exact ⟨pid, appId, server, sid, ids, happ, hname, hsid, hids, hcid, List.all_eq_true.mp hall⟩

/-- The kernel accepts the message on the connection. -/
def Accepted (l : Links) (pid : PID) (n : Nat) (m : MessageId) : Prop :=
  ∃ sidx r p s, l.entry pid n = some (.connected sidx r p) ∧ l.servers sidx = some s ∧
    (s.pid = pid ∨ p.isPermitted m = true)

theorem contains_permissionRange {id m : MessageId} (h : (NameServer.permissionRange id).isEmpty = false) :
    (NameServer.permissionRange id).contains m = true ↔ m = id := by
  have hnat : ∀ {a b : Nat}, ¬ (a + 1) % 2 ^ 64 ≤ a → (a ≤ b ∧ b < (a + 1) % 2 ^ 64 ↔ b = a) := by
    intro a b ha
    have := Nat.mod_le (a + 1) (2 ^ 64)
    omega
  rw [NameServer.permissionRange, MessageRange.isEmpty, decide_eq_false_iff_not] at h
  rw [NameServer.permissionRange, MessageRange.contains, decide_eq_true_eq]
  exact hnat h

/-- **The permissions of a connection** once the kernel has taken all ids. -/
theorem Allows.entry {pid : PID} {n sidx r : Nat} {p : MessagePermissions} {l l' : Links} {ids : List MessageId}
    (h : Allows pid (n + 2) l ids l') (hentry : l.entry pid n = some (.connected sidx r p)) :
    ∃ p', l'.entry pid n = some (.connected sidx r p') ∧ l'.servers = l.servers ∧
      (∀ m, p'.Names m ↔ m ∈ ids ∨ p.Names m) ∧ (p'.allowAll = true ↔ ids = [] ∧ p.allowAll = true) := by
  generalize hcid : n + 2 = cid at h
  induction h generalizing p with
  | nil l => exact ⟨p, hentry, rfl, by simp, by simp⟩
  | cons heffect _ ih =>
    cases heffect with
    | allowsConnection hrewrites hr =>
      obtain rfl := Nat.add_right_cancel hcid
      have hwas := hrewrites.was
      rw [hentry] at hwas
      cases hwas
      have hok := hr.mp rfl
      obtain ⟨p', hentry', hservers, hnames, hflag⟩ := ih hrewrites.now
      refine ⟨p', hentry', hservers.trans hrewrites.servers, fun m => ?_, ?_⟩
      · rw [hnames, MessagePermissions.names_add hok,
          contains_permissionRange (MessagePermissions.add_ok_nonempty hok), List.mem_cons]
        tauto
      · rw [hflag, MessagePermissions.add_ok_allowAll hok]
        simp

/-- What is not accepted is answered with `AccessDenied`. -/
theorem sendMessage_of_not_accepted {k : Kernel} {tid : TID} {n sidx r : Nat} {p : MessagePermissions}
    {srv : Server} {message : Message} (hbasic : Ipc.Basic k.ipc)
    (hentry : k.entry k.currentPid n = some (.connected sidx r p)) (hserver : k.servers sidx = some srv)
    (h : ¬ Accepted k.links k.currentPid n message.id) :
    Kernel.sendMessage tid (n + 2) message k = .err .accessDenied k := by
  have hnot : ¬ (srv.pid = k.currentPid ∨ p.isPermitted message.id = true) := fun hcase =>
    h ⟨sidx, r, p, srv, hentry, hserver, hcase⟩
  rw [not_or] at hnot
  exact Kernel.sendMessage_denied hbasic hentry hserver hnot.1 (by simpa using hnot.2)

/-- The permissions a connection starts with: those it has, if the process is connected to the
server already, and the server's default permissions if not. -/
def startingPermissions (l : Links) (pid : PID) (n : Nat) (srv : Server) : MessagePermissions :=
  match l.entry pid n with
  | some (.connected _ _ p) => p
  | _ => srv.defaultPermissions

/-- The server that is registered under a name. -/
def NameServer.registered (s : NameServer) (l : Links) (server : Name) : Option Server :=
  (s.nameTable server).bind fun sid => (l.serverOf sid).bind l.servers

theorem Connected.entry {s : NameServer} {pid : PID} {appId : AppId} {server : Name} {n : Nat} {l l' : Links}
    {srv : Server} (h : Connected s pid appId server (n + 2) l l') (hserver : s.registered l server = some srv) :
    ∃ ids sidx r p', s.connectionPermissions appId server = some ids ∧
      l'.entry pid n = some (.connected sidx r p') ∧ l'.servers sidx = some srv ∧
      (∀ m, p'.Names m ↔ m ∈ ids ∨ (startingPermissions l pid n srv).Names m) ∧
      (p'.allowAll = true ↔ ids = [] ∧ (startingPermissions l pid n srv).allowAll = true) := by
  obtain ⟨sid, ids, l1, hsid, hids, hconnect, hallows⟩ := h.exists_calls
  have hfound : ∀ sidx, l.serverOf sid = some sidx → l.servers sidx = some srv := by
    intro sidx hfind
    simpa [NameServer.registered, hsid, hfind] using hserver
  generalize hcid : n + 2 = cid at hconnect hallows
  cases hconnect with
  | joins hcall hfind hrewrites =>
    cases hcall
    obtain rfl := Nat.add_right_cancel hcid
    obtain ⟨p', hentry, hservers, hnames, hflag⟩ := hallows.entry hrewrites.now
    rw [startingPermissions, hrewrites.was]
    exact ⟨ids, _, _, p', hids, hentry, by rw [hservers, hrewrites.servers, hfound _ hfind], hnames, hflag⟩
  | opens hcall hfind hs _ hrewrites =>
    cases hcall
    obtain rfl := Nat.add_right_cancel hcid
    obtain ⟨p', hentry, hservers, hnames, hflag⟩ := hallows.entry hrewrites.now
    have hsrv := hfound _ hfind
    rw [hs] at hsrv
    cases hsrv
    have hstart : startingPermissions l pid n srv = srv.defaultPermissions := by
      rw [startingPermissions, hrewrites.was]
    rw [hstart]
    exact ⟨ids, _, _, p', hids, hentry, by rw [hservers, hrewrites.servers, hs], hnames, hflag⟩

/-- The ids with which an application connects are those of the tables. -/
theorem NameServer.mem_connectionPermissions {s : NameServer} {appId : AppId} {server : Name}
    {ids : List MessageId} {m : MessageId} (h : s.connectionPermissions appId server = some ids) :
    m ∈ ids ↔ m ∈ s.permitted appId server := by
  unfold connectionPermissions at h
  unfold permitted appPermissions
  cases htable : s.connectPermissions appId with
  | none =>
    rw [htable] at h
    simp only [Option.bind_none] at h
    split_ifs at h
    cases h
    simp
  | some table =>
    rw [htable] at h
    cases hids : table server with
    | none =>
      simp only [Option.bind_some, hids] at h
      split_ifs at h
      cases h
      simp [hids]
    | some ids' =>
      simp only [Option.bind_some, hids, Option.some.injEq] at h
      simp [hids, h]

/-- The name server after its manifests, with the names that have been registered meanwhile. -/
def serving (stages : List Stage) (names : Name → Option SID) : NameServer :=
  { NameServer.default.processAll stages with nameTable := names }

/-- **The kernel accepts what the manifests grant and what the server allows by default, and nothing
else**, on a connection through the name server: if and only if the server is not the application's
own process, the connection was limited at all before or something is granted, and apart from what
is granted it started with the server's default ranges. -/
theorem connect_exact_iff (stages : List Stage) (haccepted : NameServer.default.AllAccepted stages)
    (names : Name → Option SID) {pid : PID} {appId : AppId} {server : Name} {n : Nat} {l l' : Links} {srv : Server}
    (hserver : (serving stages names).registered l server = some srv)
    (h : Connected (serving stages names) pid appId server (n + 2) l l') :
    (∀ m, Accepted l' pid n m ↔ Granted appId server m (fun _ => none) stages ∨ srv.defaultPermissions.Names m) ↔
    srv.pid ≠ pid ∧
      ((startingPermissions l pid n srv).allowAll = false ∨ ∃ m, Granted appId server m (fun _ => none) stages) ∧
      ∀ m, ¬ Granted appId server m (fun _ => none) stages →
        ((startingPermissions l pid n srv).Names m ↔ srv.defaultPermissions.Names m) := by
  obtain ⟨ids, sidx, r, p', hids, hentry, hsrv, hnames, hflag⟩ := h.entry hserver
  -- the ids of the connection are the granted ones
  have hgranted : ∀ m, m ∈ ids ↔ Granted appId server m (fun _ => none) stages := by
    intro m
    rw [NameServer.mem_connectionPermissions hids]
    refine (NameServer.mem_permitted_processAll stages (s := .default) (fun _ => rfl) haccepted).trans (or_iff_right ?_)
    simp [NameServer.permitted, NameServer.appPermissions, NameServer.default]
  have haccepts : ∀ m, Accepted l' pid n m ↔ srv.pid = pid ∨ p'.allowAll = true ∨ p'.Names m := by
    intro m
    rw [← MessagePermissions.isPermitted_iff]
    constructor
    · rintro ⟨sidx', r', q, srv', hentry', hsrv', hcase⟩
      rw [hentry] at hentry'
      cases hentry'
      rw [hsrv] at hsrv'
      cases hsrv'
      exact hcase
    · exact fun hcase => ⟨sidx, r, p', srv, hentry, hsrv, hcase⟩
  -- some id is neither granted nor in the default ranges
  obtain ⟨free, hfree⟩ : ∃ m, ¬ (m ∈ ids ∨ srv.defaultPermissions.Names m) := by
    obtain ⟨bound, hbound⟩ := srv.defaultPermissions.names_bounded
    refine ⟨bound + ids.sum + 1, ?_⟩
    rintro (hmem | hmem)
    · have hle : bound + ids.sum + 1 ≤ ids.sum := List.le_sum_of_mem hmem
      exact absurd (Nat.le_trans (Nat.succ_le_succ (Nat.le_add_left _ _)) hle) (Nat.not_succ_le_self _)
    · have hlt : bound + ids.sum + 1 < bound := hbound _ hmem
      have hle : bound ≤ bound + ids.sum + 1 := Nat.le_add_right bound (ids.sum + 1)
      exact absurd (Nat.lt_of_lt_of_le hlt hle) (Nat.lt_irrefl _)
  simp only [← hgranted]
  constructor
  · intro hexact
    have hnot : ¬ (srv.pid = pid ∨ p'.allowAll = true ∨ p'.Names free) := fun hcase =>
      hfree ((hexact free).mp ((haccepts free).mpr hcase))
    rw [not_or, not_or] at hnot
    refine ⟨hnot.1, ?_, fun m hm => ?_⟩
    · by_contra hcase
      rw [not_or, Bool.not_eq_false] at hcase
      refine hnot.2.1 (hflag.mpr ⟨List.eq_nil_iff_forall_not_mem.mpr fun m hm => hcase.2 ⟨m, hm⟩, hcase.1⟩)
    · have hm' := (haccepts m).symm.trans (hexact m)
      rw [hnames] at hm'
      simpa only [hnot.1, hnot.2.1, hm, Bool.false_eq_true, false_or] using hm'
  · rintro ⟨hpid, hlimited, hstart⟩ m
    have hflag' : ¬ p'.allowAll = true := by
      rw [hflag]
      rintro ⟨hnil, hall⟩
      rcases hlimited with hlimited | ⟨m, hm⟩
      · rw [hall] at hlimited
        cases hlimited
      · rw [hnil] at hm
        cases hm
    rw [haccepts, hnames]
    simp only [hpid, hflag', Bool.false_eq_true, false_or]
    by_cases hm : m ∈ ids
    · simp [hm]
    · simp only [hm, false_or]
      exact hstart m hm

/-! ### Two connections -/

/-- The process of the server, and that of its client. -/
def hostPid : PID := Machine.p3

@[inherit_doc hostPid]
def clientPid : PID := Machine.p4

/-- A server with the default permissions `p`, as `Server::init` makes it without memory for messages. -/
def bareServer (p : MessagePermissions) : Server := ⟨⟨1, 0, 0, 0⟩, hostPid, 0, 0, 0, 0, 0, 0, [], 0, p⟩

/-- One server, and a client with one connection slot. -/
def oneServer (p : MessagePermissions) (slot : ConnectionSlot) : Links where
  servers i := if i = 0 then some (bareServer p) else none
  entry pid n := if pid = clientPid ∧ n = 0 then some slot else none
  pid := PID.kernel

theorem oneServer_rewrites (p : MessagePermissions) (old new : ConnectionSlot) :
    Rewrites (oneServer p old) clientPid 0 old new (oneServer p new) := by
  refine ⟨rfl, rfl, rfl, fun pid n hne => ?_⟩
  simp only [oneServer, if_neg hne]

theorem oneServer_opens (p : MessagePermissions) :
    Effect (oneServer p .free) (oneServer p (.connected 0 1 p)) (.connectForProcess clientPid ⟨1, 0, 0, 0⟩)
      (some (.connectionID 2)) := by
  have hfind : (oneServer p .free).serverOf ⟨1, 0, 0, 0⟩ = some 0 := rfl
  refine .opens rfl hfind rfl (fun n r q => ?_) (oneServer_rewrites p _ _)
  by_cases hn : n = 0 <;> simp [oneServer, hn]

/-- The server's manifest declares the message `m` of the server `s` with the id 3; the client's asks
for the `messages` of this server. -/
def twoManifests (messages : List Name) : List Stage :=
  [.servers (.replicate 16 1) ⟨some (.replicate 16 1), [([115], [([109], 3)])], []⟩,
    .permissions (.replicate 16 2) ⟨some (.replicate 16 2), [], [([115], messages)]⟩]

/-- The server `s` has been registered. -/
def oneName : Name → Option SID := update (fun _ => none) [115] (some ⟨1, 0, 0, 0⟩)

/-- The client is granted the message and connects to a server that allows the ids below 2. -/
theorem connect_exact_iff_oneMessage :
    let p := (MessagePermissions.default.add ⟨0, 2⟩).2
    ∀ m, Accepted (oneServer p (.connected 0 1 (p.add ⟨3, 4⟩).2)) clientPid 0 m ↔
      Granted (.replicate 16 2) [115] m (fun _ => none) (twoManifests [[109]]) ∨ p.Names m := by
  intro p
  have hgrants : Granted (.replicate 16 2) [115] 3 (fun _ => none) (twoManifests [[109]]) :=
    .inl ⟨rfl, [[109]], by simp, [109], by simp, rfl⟩
  have hallows : Allows clientPid 2 (oneServer p (.connected 0 1 p)) [3]
      (oneServer p (.connected 0 1 (p.add ⟨3, 4⟩).2)) :=
    .cons (.allowsConnection (oneServer_rewrites p _ _) (by decide)) (.nil _)
  have hconnected : Connected (serving (twoManifests [[109]]) oneName) clientPid (.replicate 16 2) [115] 2
      (oneServer p .free) (oneServer p (.connected 0 1 (p.add ⟨3, 4⟩).2)) :=
    ⟨_, [3], _, rfl, congrArg some (List.mergeSort_singleton 3), oneServer_opens p, hallows⟩
  have hserver : (serving (twoManifests [[109]]) oneName).registered (oneServer p .free) [115] =
      some (bareServer p) := rfl
  exact (connect_exact_iff (twoManifests [[109]]) ⟨rfl, rfl, trivial⟩ oneName hserver hconnected).mpr
    ⟨by decide, .inr ⟨3, hgrants⟩, fun _ _ => Iff.rfl⟩

/-- **A client to which nothing is granted may send everything**: it asks for no message of a server
that was created with an empty range. -/
theorem nothing_granted : Server.init none hostPid ⟨1, 0, 0, 0⟩ 0 [] ⟨0, 0⟩ = .ok (bareServer .default) ∧
      NameServer.default.AllAccepted (twoManifests []) ∧
      Connected (serving (twoManifests []) oneName) clientPid (.replicate 16 2) [115] 2 (oneServer .default .free)
        (oneServer .default (.connected 0 1 .default)) ∧
      (∀ m, ¬ Granted (.replicate 16 2) [115] m (fun _ => none) (twoManifests [])) ∧
      ∀ m, Accepted (oneServer .default (.connected 0 1 .default)) clientPid 0 m := by
  refine ⟨rfl, ⟨rfl, rfl, trivial⟩, ⟨_, [], _, rfl, congrArg some List.mergeSort_nil, oneServer_opens .default, .nil _⟩,
    ?_, ?_⟩
  · simp [twoManifests, Granted]
  · exact fun m => ⟨0, 1, .default, bareServer .default, rfl, rfl, .inr rfl⟩

end Names

end BeetKernel

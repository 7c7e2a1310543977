/-
# The name server

`xous/names/src/main.rs`: applications register servers under names and connect to servers by
name, as far as the manifests allow.  A client that asks for a name nobody has registered yet can
wait: its message is kept and answered when the name is registered.

A handler that panics is `none`.  What the kernel answers to the system calls of a handler is
`Answers`; so is the parser of the manifests, which is the crate `serde_json`.  `answered` has no
counterpart in the source: it collects the blocking messages that have been answered, by a
response, by `return_scalar` or by the drop of their envelope.
-/
import BeetKernel.Service.Message

namespace BeetKernel.Names

open Function (update)
open Service

/-- A server name or a message name: the bytes of a `String`. -/
abbrev Name := Bytes

/-- `AppId`: sixteen bytes. -/
abbrev AppId := Vector UInt8 16

/-! ## 1. Manifests -/

/-- The part of a `Manifest` that the name server reads: the application, the servers it may
register with the ids of their messages, and the messages it may send to each server.
`app_id_bytes` panics if the application id of the manifest is malformed; there is none then. -/
structure Manifest where
  appId : Option AppId
  servers : List (Name × List (Name × MessageId))
  permissions : List (Name × List Name)

inductive Opcode where
  | register
  | addManifest
  | blockingConnect
  | tryConnect
  deriving DecidableEq

/-- `FromPrimitive::from_usize` -/
def Opcode.ofUsize : Nat → Option Opcode
  | 0 => some .register
  | 1 => some .addManifest
  | 6 => some .blockingConnect
  | 7 => some .tryConnect
  | _ => none

/-- `api::Opcode::AddManifest as usize` -/
def Opcode.addManifestId : MessageId := 1

/-- What the kernel and the parser answer while one message is handled. -/
structure Answers where
  getAppId : PID → Except Error (Option AppId)
  connectForProcess : PID → SID → Except Error CID
  allowMessages : PID → CID → MessageRange → Except Error Unit
  returnScalar : Except Error Unit
  unmapMemory : Except Error Unit
  /-- `Manifest::try_from_bytes` -/
  tryFromBytes : Bytes → Option Manifest
  /-- The memory after the message's buffer, if it is mapped. -/
  after : Option Bytes

/-! ## 2. The tables -/

structure NameServer where
  waitingConnections : List Envelope
  nameTable : Name → Option SID
  messageNameToId : Name × Name → Option (List MessageId)
  registerPermissions : AppId → Option (List Name)
  connectPermissions : AppId → Option (Name → Option (List MessageId))
  answered : List Envelope

def NameServer.default : NameServer := ⟨[], fun _ => none, fun _ => none, fun _ => none, fun _ => none, []⟩

namespace NameServer

/-- `register_permissions.entry(app_id).or_default().insert(server_name)` -/
def addServer (s : NameServer) (appId : AppId) (server : Name) : NameServer :=
  { s with registerPermissions :=
      update s.registerPermissions appId (some (server :: (s.registerPermissions appId).getD [])) }

/-- `message_name_to_id.insert((server_name, message_name), vec![message.id])` -/
def addMessage (s : NameServer) (server message : Name) (id : MessageId) : NameServer :=
  { s with messageNameToId := update s.messageNameToId (server, message) (some [id]) }

def processManifestServers (s : NameServer) (appId : AppId) (manifest : Manifest) : NameServer :=
  manifest.servers.foldl (fun s (server, messages) =>
    messages.foldl (fun s (message, id) => s.addMessage server message id) (s.addServer appId server)) s

/-- The permissions of an application, as `entry(app_id).or_default()` leaves them. -/
def appPermissions (s : NameServer) (appId : AppId) : Name → Option (List MessageId) :=
  (s.connectPermissions appId).getD fun _ => none

/-- New permissions of an application for a server. -/
def setPermissions (s : NameServer) (appId : AppId) (server : Name) (ids : List MessageId) : NameServer :=
  { s with connectPermissions :=
      update s.connectPermissions appId (some (update (s.appPermissions appId) server (some ids))) }

/-- The loop over the messages of one server: the permissions that have been collected, and whether
all names were known. -/
def collect (s : NameServer) (server : Name) : List Name → List MessageId → Bool × List MessageId
  | [], ids => (true, ids)
  | message :: messages, ids =>
    match s.messageNameToId (server, message) with
    | none => (false, ids)
    | some new => collect s server messages (ids ++ new)

/-- The loop over the servers of `process_manifest_permissions`.  What has been collected for a
server stays when the manifest is rejected; the final `sort_unstable` is left out then. -/
def addPermissions (s : NameServer) (appId : AppId) : List (Name × List Name) → Except Error Unit × NameServer
  | [] => (.ok (), s)
  | (server, messages) :: rest =>
    match s.collect server messages ((s.appPermissions appId server).getD []) with
    | (false, ids) => (.error .serverNotFound, s.setPermissions appId server ids)
    | (true, ids) => (s.setPermissions appId server (ids.mergeSort)).addPermissions appId rest

def processManifestPermissions (s : NameServer) (appId : AppId) (manifest : Manifest) :
    Except Error Unit × NameServer :=
  { s with connectPermissions :=
      update s.connectPermissions appId (some (s.appPermissions appId)) }.addPermissions appId
    manifest.permissions

/-! ## 3. Requests -/

/-- `valid.map(|v| v.get()).unwrap_or_else(|| buf.len())` -/
def validBytes (m : Service.MemoryMessage) : Nat := (m.valid.map NonZeroUsize.get).getD m.buf.length

/-- `core::str::from_utf8` succeeds. -/
def isUtf8 (bytes : Bytes) : Bool := ByteArray.validateUTF8 ⟨bytes.toArray⟩

/-- `name_from_msg`: `valid` bytes from `offset` on, which may be past the end of the buffer; it is
a fault if nothing is mapped there. -/
def nameFromMsg (k : Answers) (msg : Envelope) (offset : Nat) : Option (Except Error Name) :=
  match msg.body.memoryMessage with
  | none => some (.error .invalidArguments)
  | some m =>
    if validBytes m > m.buf.length then some (.error .invalidString)
    else
      let slice := (m.buf ++ k.after.getD []).drop offset |>.take (validBytes m)
      if offset + validBytes m > m.buf.length ∧ k.after = none then none
      else if isUtf8 slice then some (.ok slice)
      else some (.error .invalidString)

/-- `sid_from_msg`: the first four words of the buffer. -/
def sidFromMsg (msg : Envelope) : Option (Except Error SID) :=
  match msg.body.memoryMessage with
  | none => some (.error .invalidArguments)
  | some m =>
    match m.buf with
    | a0 :: a1 :: a2 :: a3 :: b0 :: b1 :: b2 :: b3 :: c0 :: c1 :: c2 :: c3 :: d0 :: d1 :: d2 :: d3 :: _ =>
      let word (x0 x1 x2 x3 : UInt8) : UInt32 :=
        x0.toUInt32 ||| x1.toUInt32 <<< 8 ||| x2.toUInt32 <<< 16 ||| x3.toUInt32 <<< 24
      some (.ok ⟨word a0 a1 a2 a3, word b0 b1 b2 b3, word c0 c1 c2 c3, word d0 d1 d2 d3⟩)
    | _ => none

inductive ConnectSuccess where
  | connected (cid : CID)
  | wait

/-- The permissions with which an application connects: those of its manifest, or none at all if it
is the application that registers the server. -/
def connectionPermissions (s : NameServer) (appId : AppId) (server : Name) : Option (List MessageId) :=
  match (s.connectPermissions appId).bind (· server) with
  | some ids => some ids
  | none => if server ∈ (s.registerPermissions appId).getD [] then some [] else none

/-- The range of one permission. -/
def permissionRange (permission : MessageId) : MessageRange := ⟨permission, (permission + 1) % 2 ^ 64⟩

/-- `xous::get_app_id(msg.sender.pid()...)` and its error cases. -/
def senderApp (k : Answers) (msg : Envelope) : Except Error (PID × AppId) :=
  match msg.sender with
  | none => .error .processNotFound
  | some pid =>
    match k.getAppId pid with
    | .error e => .error e
    | .ok none => .error .processNotFound
    | .ok (some appId) => .ok (pid, appId)

def connectImpl (s : NameServer) (k : Answers) (msg : Envelope) : Option (Except Error ConnectSuccess) :=
  match senderApp k msg with
  | .error e => some (.error e)
  | .ok (pid, appId) =>
    match nameFromMsg k msg 0 with
    | none => none
    | some (.error e) => some (.error e)
    | some (.ok name) =>
      match s.nameTable name with
      | none => some (.ok .wait)
      | some sid =>
        match s.connectionPermissions appId name with
        | none => some (.error .accessDenied)
        | some permissions =>
          match k.connectForProcess pid sid with
          | .error e => some (.error e)
          | .ok cid =>
            -- `.expect("permissions")`
            if permissions.all fun p => (k.allowMessages pid cid (permissionRange p)).isOk then
              some (.ok (.connected cid))
            else none

def registerImpl (s : NameServer) (k : Answers) (msg : Envelope) : Option (Except Error (Name × NameServer)) :=
  match sidFromMsg msg with
  | none => none
  | some (.error e) => some (.error e)
  | some (.ok sid) =>
    match nameFromMsg k msg 16 with
    | none => none
    | some (.error e) => some (.error e)
    | some (.ok name) =>
      match senderApp k msg with
      | .error e => some (.error e)
      | .ok (_, appId) =>
        if name ∉ (s.registerPermissions appId).getD [] then some (.error .accessDenied)
        else if (s.nameTable name).isSome then some (.error .memoryInUse)
        else some (.ok (name, { s with nameTable := update s.nameTable name (some sid) }))

/-- The name of the name server's own permissions, `os/nameserver`. -/
def osNameserver : Name := "os/nameserver".toList.flatMap String.utf8EncodeChar

def addManifestImpl (s : NameServer) (k : Answers) (msg : Envelope) : Option (Except Error Unit × NameServer) :=
  match senderApp k msg with
  | .error e => some (.error e, s)
  | .ok (_, appId) =>
    if Opcode.addManifestId ∉ (s.appPermissions appId osNameserver).getD [] then some (.error .accessDenied, s)
    else
      match msg.body.memoryMessage with
      | none => some (.error .invalidArguments, s)
      | some m =>
        if validBytes m > m.buf.length then none
        else
          match k.tryFromBytes (m.buf.take (validBytes m)) with
          | none => some (.error .parseError, s)
          | some manifest =>
            match manifest.appId with
            | none => none
            | some app => some ((s.processManifestServers app manifest).processManifestPermissions app manifest)

/-- `respond_error`, `respond_connect_success` and `respond_simple_success`: the first `words` words
of a mutable buffer are written. -/
def responds (words : Nat) (msg : Envelope) : Bool :=
  match msg.body.memoryMessageMut with
  | none => false
  | some m => 4 * words ≤ m.buf.length

/-- The message is answered. -/
def answer (s : NameServer) (msg : Envelope) : NameServer := { s with answered := s.answered ++ [msg] }

/-- A response of `words` words, after which the envelope is dropped. -/
def respond (s : NameServer) (words : Nat) (msg : Envelope) : Option NameServer :=
  if responds words msg then some (s.answer msg) else none

def swapRemove (l : List Envelope) (i : Nat) : List Envelope :=
  match l.getLast? with
  | none => []
  | some x => (l.set i x).dropLast

/-- The loop of `wake_waiting_connections` with `left` messages to go, from the `i`-th on. -/
def wakeFrom (k : Answers) (server : Name) : Nat → Nat → NameServer → Option NameServer
  | 0, _, s => some s
  | left + 1, i, s =>
    match s.waitingConnections[i]? with
    | none => some s
    | some msg =>
      if nameFromMsg k msg 0 = some (.ok server) then
        let s := { s with waitingConnections := swapRemove s.waitingConnections i }
        match s.connectImpl k msg with
        | none | some (.ok .wait) => none
        | some (.error _) | some (.ok (.connected _)) =>
          match s.respond 2 msg with
          | none => none
          | some s => wakeFrom k server left i s
      else wakeFrom k server left (i + 1) s

def wakeWaitingConnections (s : NameServer) (k : Answers) (server : Name) : Option NameServer :=
  wakeFrom k server s.waitingConnections.length 0 s

/-- One round of the loop of `run`. -/
def handle (s : NameServer) (k : Answers) (msg : Envelope) : Option NameServer :=
  if !msg.body.isBlocking then
    -- the envelope is dropped, which frees the memory of a moved message
    match msg.body with
    | .move _ => if k.unmapMemory.isOk then some s else none
    | _ => some s
  else if !msg.body.hasMemory then
    if k.returnScalar.isOk then some (s.answer msg) else none
  else
    match Opcode.ofUsize msg.body.id with
    | some .register =>
      match s.registerImpl k msg with
      | none => none
      | some (.ok (name, s)) =>
        match s.respond 1 msg with
        | none => none
        | some s => s.wakeWaitingConnections k name
      | some (.error _) => s.respond 2 msg
    | some .blockingConnect =>
      match s.connectImpl k msg with
      | none => none
      | some (.ok .wait) => some { s with waitingConnections := s.waitingConnections ++ [msg] }
      | some _ => s.respond 2 msg
    | some .tryConnect =>
      match s.connectImpl k msg with
      | none => none
      | some _ => s.respond 2 msg
    | some .addManifest =>
      match s.addManifestImpl k msg with
      | none => none
      | some (.ok (), s) => s.respond 1 msg
      | some (.error _, s) => s.respond 2 msg
    | none => some (s.answer msg)

/-- The loop of `run`, over the messages that are received. -/
def run : NameServer → List (Answers × Envelope) → Option NameServer
  | s, [] => some s
  | s, (k, msg) :: rest =>
    match s.handle k msg with
    | none => none
    | some s => s.run rest

end NameServer

end BeetKernel.Names

/-
# The name server keeps serving

`nameServer_serves`: as long as every message meets `Accepts`, the name server does not panic,
every blocking message it has received is answered or waits for a name, and no name that is waited
for is registered.  `Accepts` is a condition on the message and on what the kernel answers while it
is handled; a client that sends the wrong kind of borrow stops the server (`borrow_stops`).

The loop of `wake_waiting_connections` takes messages out with `swap_remove`, so what it keeps is
stated for the messages before its index; `wakeFrom_wakes` carries it to the end.
-/
import BeetKernel.Names.Server
import BeetKernel.Server.Queue
import Mathlib.Data.List.Perm.Basic

namespace BeetKernel.Names

open Service
open scoped List

/-! ## 1. Messages that do no harm -/

/-- The message is one the name server can handle, given the answers of the kernel: memory that is
moved can be freed, scalars can be answered, a known request comes in a mutable buffer, which is at
least a page; a registration leaves room for its server id, a manifest is within its buffer and
names its application, and the kernel takes the permissions of the connections. -/
def Accepts (k : Answers) (msg : Envelope) : Prop :=
  match msg.body with
  | .scalar _ => True
  | .move _ => k.unmapMemory.isOk = true
  | .blockingScalar _ => k.returnScalar.isOk = true
  | .borrow m => Opcode.ofUsize m.id = none
  | .mutableBorrow m => 16 ≤ m.buf.length ∧
    (∀ pid cid range, (k.allowMessages pid cid range).isOk = true) ∧
    (Opcode.ofUsize m.id = some .register → 16 + NameServer.validBytes m ≤ m.buf.length) ∧
    (Opcode.ofUsize m.id = some .addManifest → NameServer.validBytes m ≤ m.buf.length ∧
      ∀ manifest, k.tryFromBytes (m.buf.take (NameServer.validBytes m)) = some manifest → manifest.appId ≠ none)

namespace NameServer

variable {s s' : NameServer} {k k' : Answers} {msg : Envelope} {server : Name} {m : Service.MemoryMessage}

/-! ## 2. Names and responses -/

theorem nameFromMsg_zero (k : Answers) (msg : Envelope) : nameFromMsg k msg 0 ≠ none := by
  unfold nameFromMsg
  split
  · simp
  · split_ifs with hlong hfault
    · simp
    · rw [Nat.zero_add] at hfault
      exact absurd hfault.1 hlong
    · dsimp only
      split_ifs <;> simp

theorem nameFromMsg_zero_eq (k k' : Answers) (msg : Envelope) : nameFromMsg k msg 0 = nameFromMsg k' msg 0 := by
  have htake : ∀ (m : Service.MemoryMessage) (rest : Bytes), ¬ validBytes m > m.buf.length →
      (m.buf ++ rest).take (validBytes m) = m.buf.take (validBytes m) := fun m rest h =>
    List.take_append_of_le_length (not_lt.mp h)
  unfold nameFromMsg
  split
  · rfl
  next m _ =>
    by_cases hvalid : validBytes m > m.buf.length
    · rw [if_pos hvalid, if_pos hvalid]
    · have hin : ∀ k : Answers, ¬ (0 + validBytes m > m.buf.length ∧ k.after = none) := fun k h =>
        hvalid (by simpa using h.1)
      simp only [if_neg hvalid, if_neg (hin _), List.drop_zero, htake m _ hvalid]

theorem nameFromMsg_within (hbody : msg.body = .mutableBorrow m) {offset : Nat}
    (h : offset + validBytes m ≤ m.buf.length) : nameFromMsg k msg offset ≠ none := by
  have hnot : ¬ (offset + validBytes m > m.buf.length ∧ k.after = none) := fun hn => absurd hn.1 (not_lt.mpr h)
  simp only [nameFromMsg, hbody, Service.Message.memoryMessage, if_neg hnot]
  split_ifs <;> simp

theorem sidFromMsg_ne_none (hbody : msg.body = .mutableBorrow m) (h : 16 ≤ m.buf.length) : sidFromMsg msg ≠ none := by
  simp only [sidFromMsg, hbody, Service.Message.memoryMessage]
  match hbuf : m.buf, h with
  | _ :: _ :: _ :: _ :: _ :: _ :: _ :: _ :: _ :: _ :: _ :: _ :: _ :: _ :: _ :: _ :: _, _ => simp

/-- A mutable buffer takes a response. -/
theorem respond_eq (hbody : msg.body = .mutableBorrow m) (h : 16 ≤ m.buf.length) {words : Nat} (hwords : words ≤ 4) :
    s.respond words msg = some (s.answer msg) := by
  have : responds words msg = true := by
    simp only [responds, hbody, Service.Message.memoryMessageMut, decide_eq_true_eq]
    omega
  rw [respond, if_pos this]

/-- The kernel takes the permissions of every connection. -/
def Granting (k : Answers) : Prop := ∀ pid cid range, (k.allowMessages pid cid range).isOk = true

/-- The message is from a known application and holds a name that nobody has registered. -/
def AsksForNew (s : NameServer) (k : Answers) (msg : Envelope) : Prop :=
  ∃ app name, senderApp k msg = .ok app ∧ nameFromMsg k msg 0 = some (.ok name) ∧ s.nameTable name = none

/-- **A request to connect** does not stop the server, and it waits only for a name that nobody has
registered. -/
theorem connectImpl_cases (s : NameServer) (msg : Envelope) (hgrants : Granting k) :
    ∃ r, s.connectImpl k msg = some r ∧ (r = .ok .wait ↔ s.AsksForNew k msg) := by
  unfold connectImpl AsksForNew
  cases happ : senderApp k msg with
  | error e => exact ⟨_, rfl, by simp⟩
  | ok app =>
    obtain ⟨pid, appId⟩ := app
    cases hname : nameFromMsg k msg 0 with
    | none => exact absurd hname (nameFromMsg_zero k msg)
    | some r =>
      cases r with
      | error e => exact ⟨_, rfl, by simp⟩
      | ok name =>
        dsimp only
        cases htable : s.nameTable name with
        | none => exact ⟨_, rfl, by simp [htable]⟩
        | some sid =>
          cases s.connectionPermissions appId name with
          | none => exact ⟨_, rfl, by simp [htable]⟩
          | some permissions =>
            cases hconn : k.connectForProcess pid sid with
            | error e =>
              simp only [hconn]
              exact ⟨_, rfl, by simp [htable]⟩
            | ok cid =>
              have hall : (permissions.all fun p => (k.allowMessages pid cid (permissionRange p)).isOk) = true :=
                List.all_eq_true.mpr fun p _ => hgrants pid cid _
              simp only [hconn]
              rw [if_pos hall]
              exact ⟨_, rfl, by simp [htable]⟩

/-! ## 3. Messages that wait -/

/-- The message waits for a name: a request to connect, in a mutable buffer. -/
def WaitsFor (msg : Envelope) (name : Name) : Prop :=
  (∃ m, msg.body = .mutableBorrow m ∧ 16 ≤ m.buf.length ∧ Opcode.ofUsize m.id = some .blockingConnect) ∧
    ∀ k, nameFromMsg k msg 0 = some (.ok name)

/-- **What holds of the name server** after it has received the blocking messages `received`. -/
structure Serves (received : List Envelope) (s : NameServer) : Prop where
  accounted : (s.answered ++ s.waitingConnections).Perm received
  waiting : ∀ msg ∈ s.waitingConnections, ∃ name, WaitsFor msg name ∧ s.nameTable name = none

variable {l received : List Envelope} {i : Nat}

theorem swapRemove_perm (h : l[i]? = some msg) : (msg :: swapRemove l i).Perm l := by
  obtain ⟨hlt, rfl⟩ := getElem?_eq_some_iff.mp h
  obtain ⟨front, x, rfl⟩ : ∃ front x, l = front ++ [x] :=
    ⟨l.dropLast, l.getLast (List.ne_nil_of_length_pos (by omega)), (List.dropLast_append_getLast _).symm⟩
  rw [swapRemove, List.getLast?_concat]
  dsimp only
  rcases Nat.lt_or_ge i front.length with hi | hi
  · rw [List.set_append_left _ _ hi, List.dropLast_concat, List.getElem_append_left hi]
    have hset : (front.set i x).Perm (x :: front.eraseIdx i) := List.set_perm_cons_eraseIdx hi x
    calc front[i] :: front.set i x ~ front[i] :: x :: front.eraseIdx i := hset.cons _
      _ ~ x :: front[i] :: front.eraseIdx i := List.Perm.swap _ _ _
      _ ~ x :: front := (List.getElem_cons_eraseIdx_perm hi).cons x
      _ ~ front ++ [x] := (List.perm_append_singleton x front).symm
  · obtain rfl : i = front.length := by
      rw [List.length_append, List.length_singleton] at hlt
      omega
    simpa using (List.perm_append_singleton x front).symm

theorem swapRemove_before {i j : Nat} (h : l[i]? = some msg) (hj : j < i) : (swapRemove l i)[j]? = l[j]? := by
  have hlt : i < l.length := (getElem?_eq_some_iff.mp h).1
  rw [swapRemove]
  cases hlast : l.getLast? with
  | none => simp [List.getLast?_eq_none_iff.mp hlast] at hlt
  | some x => simp [show j < l.length - 1 by omega, show ¬ i = j by omega]

/-- **The loop over the messages that wait**, after a name has been registered: it answers those
that wait for the name and keeps the others. -/
theorem wakeFrom_wakes {sid : SID} (hgrants : Granting k) (left i : Nat)
    (hleft : s.waitingConnections.length = i + left) (hnew : s.nameTable server = some sid)
    (hwaiting : ∀ msg ∈ s.waitingConnections, ∃ name, WaitsFor msg name)
    (hbefore : ∀ j < i, ∀ msg, s.waitingConnections[j]? = some msg → nameFromMsg k msg 0 ≠ some (.ok server)) :
    ∃ s' woken, wakeFrom k server left i s = some s' ∧ s'.nameTable = s.nameTable ∧
      s'.answered = s.answered ++ woken ∧ (woken ++ s'.waitingConnections).Perm s.waitingConnections ∧
      (∀ msg ∈ woken, nameFromMsg k msg 0 = some (.ok server)) ∧
      ∀ msg ∈ s'.waitingConnections, nameFromMsg k msg 0 ≠ some (.ok server) := by
  induction left generalizing i s with
  | zero =>
    refine ⟨s, [], rfl, rfl, (List.append_nil _).symm, .refl _, by simp, fun msg hmsg => ?_⟩
    obtain ⟨j, hj⟩ := List.mem_iff_getElem?.mp hmsg
    have := (getElem?_eq_some_iff.mp hj).1
    exact hbefore j (by omega) msg hj
  | succ left ih =>
    have hlt : i < s.waitingConnections.length := by omega
    obtain ⟨msg, hmsg⟩ : ∃ msg, s.waitingConnections[i]? = some msg := ⟨_, List.getElem?_eq_getElem hlt⟩
    obtain ⟨name, ⟨m, hbody, hbuf, hop⟩, hname⟩ := hwaiting msg (List.mem_of_getElem? hmsg)
    simp only [wakeFrom, hmsg]
    by_cases hserver : nameFromMsg k msg 0 = some (.ok server)
    · rw [if_pos hserver]
      let s1 : NameServer := { s with waitingConnections := swapRemove s.waitingConnections i }
      have hperm := swapRemove_perm hmsg
      -- what the loop keeps, with the message answered
      obtain ⟨s', woken, hrun, htable, hanswered, hkept, hwoken, hrest⟩ := ih (s := s1.answer msg) i (by
          have := hperm.length_eq
          simp only [List.length_cons] at this
          show (swapRemove s.waitingConnections i).length = i + left
          omega)
        hnew
        (fun msg' hmsg' => hwaiting msg' ((swapRemove_perm hmsg).mem_iff.mp (List.mem_cons_of_mem _ hmsg')))
        (fun j hj msg' hmsg' => hbefore j hj msg' ((swapRemove_before hmsg hj).symm.trans hmsg'))
      have hrespond : s1.respond 2 msg = some (s1.answer msg) := respond_eq hbody hbuf (by decide)
      refine ⟨s', msg :: woken, ?_, htable, ?_, (hkept.cons msg).trans hperm, ?_, hrest⟩
      · obtain ⟨r, hr, hwait⟩ := connectImpl_cases s1 msg hgrants
        simp only [s1] at hr hrespond
        simp only [hr]
        match r with
        | .error e => simpa only [hrespond] using hrun
        | .ok (.connected cid) => simpa only [hrespond] using hrun
        | .ok .wait =>
          obtain ⟨_, name', -, hname', hnone⟩ := hwait.mp rfl
          cases hserver.symm.trans hname'
          cases hnew.symm.trans hnone
      · rw [hanswered]
        exact List.append_assoc s.answered [msg] woken
      · simpa [hserver] using hwoken
    · rw [if_neg hserver]
      refine ih (i + 1) (by omega) hnew hwaiting fun j hj msg' hmsg' => ?_
      rcases Nat.lt_succ_iff_lt_or_eq.mp hj with hj | rfl
      · exact hbefore j hj msg' hmsg'
      · cases hmsg.symm.trans hmsg'
        exact hserver

/-! ## 4. Every message -/

/-- The tables a manifest leaves alone. -/
structure SameRequests (s s' : NameServer) : Prop where
  waiting : s'.waitingConnections = s.waitingConnections
  names : s'.nameTable = s.nameTable
  answered : s'.answered = s.answered

theorem SameRequests.refl (s : NameServer) : SameRequests s s := ⟨rfl, rfl, rfl⟩

theorem SameRequests.trans {s1 : NameServer} (h : SameRequests s s1) (h' : SameRequests s1 s') : SameRequests s s' :=
  ⟨h'.waiting.trans h.waiting, h'.names.trans h.names, h'.answered.trans h.answered⟩

theorem SameRequests.foldl {α : Type} {f : NameServer → α → NameServer} (h : ∀ s a, SameRequests s (f s a))
    (l : List α) (s : NameServer) : SameRequests s (l.foldl f s) := by
  induction l generalizing s with
  | nil => exact .refl s
  | cons a l ih => exact (h s a).trans (ih _)

theorem processManifestServers_same (s : NameServer) (appId : AppId) (manifest : Manifest) :
    SameRequests s (s.processManifestServers appId manifest) := by
  refine .foldl (fun s x => ?_) manifest.servers s
  obtain ⟨server, messages⟩ := x
  have hserver : SameRequests s (s.addServer appId server) := ⟨rfl, rfl, rfl⟩
  refine hserver.trans ?_
  dsimp only
  exact .foldl (f := fun s x => s.addMessage server x.1 x.2) (fun _ _ => ⟨rfl, rfl, rfl⟩) messages _

theorem addPermissions_same (appId : AppId) (permissions : List (Name × List Name)) (s : NameServer) :
    SameRequests s (s.addPermissions appId permissions).2 := by
  induction permissions generalizing s with
  | nil => exact .refl s
  | cons x rest ih =>
    obtain ⟨server, messages⟩ := x
    unfold addPermissions
    split
    · exact ⟨rfl, rfl, rfl⟩
    · exact (⟨rfl, rfl, rfl⟩ : SameRequests s (s.setPermissions appId server _)).trans (ih _)

/-- **A manifest** does not stop the server, and leaves names and requests alone. -/
theorem addManifestImpl_cases (hbody : msg.body = .mutableBorrow m) (hvalid : validBytes m ≤ m.buf.length)
    (happ : ∀ manifest, k.tryFromBytes (m.buf.take (validBytes m)) = some manifest → manifest.appId ≠ none) :
    ∃ r s', s.addManifestImpl k msg = some (r, s') ∧ SameRequests s s' := by
  unfold addManifestImpl
  simp only [hbody, Service.Message.memoryMessage, if_neg (not_lt.mpr hvalid)]
  cases senderApp k msg with
  | error e => exact ⟨_, _, rfl, .refl s⟩
  | ok app =>
    dsimp only
    by_cases hallowed : Opcode.addManifestId ∈ (s.appPermissions app.2 osNameserver).getD []
    · rw [if_neg (not_not.mpr hallowed)]
      cases hparse : k.tryFromBytes (m.buf.take (validBytes m)) with
      | none => exact ⟨_, _, rfl, .refl s⟩
      | some manifest =>
        cases happId : manifest.appId with
        | none => exact absurd happId (happ manifest hparse)
        | some app =>
          simp only [happId]
          refine ⟨_, _, rfl, (processManifestServers_same s app manifest).trans ?_⟩
          refine SameRequests.trans ?_ (addPermissions_same app manifest.permissions _)
          exact ⟨rfl, rfl, rfl⟩
    · rw [if_pos hallowed]
      exact ⟨_, _, rfl, .refl s⟩

/-- **A registration** does not stop the server; if it succeeds, the name was free. -/
theorem registerImpl_cases (hbody : msg.body = .mutableBorrow m) (hbuf : 16 ≤ m.buf.length)
    (hvalid : 16 + validBytes m ≤ m.buf.length) :
    (∃ e, s.registerImpl k msg = some (.error e)) ∨ ∃ name sid, s.nameTable name = none ∧ s.registerImpl k msg =
        some (.ok (name, { s with nameTable := Function.update s.nameTable name (some sid) })) := by
  unfold registerImpl
  cases hsid : sidFromMsg msg with
  | none => exact absurd hsid (sidFromMsg_ne_none hbody hbuf)
  | some r =>
    cases r with
    | error e => exact .inl ⟨e, rfl⟩
    | ok sid =>
      cases hname : nameFromMsg k msg 16 with
      | none => exact absurd hname (nameFromMsg_within hbody hvalid)
      | some r =>
        cases r with
        | error e => exact .inl ⟨e, rfl⟩
        | ok name =>
          dsimp only
          cases senderApp k msg with
          | error e => exact .inl ⟨e, rfl⟩
          | ok app =>
            dsimp only
            by_cases hallowed : name ∈ (s.registerPermissions app.2).getD []
            · rw [if_neg (not_not.mpr hallowed)]
              cases htaken : s.nameTable name with
              | some old => exact .inl ⟨_, rfl⟩
              | none => exact .inr ⟨name, sid, htaken, rfl⟩
            · rw [if_pos hallowed]
              exact .inl ⟨_, rfl⟩

/-- **What is done with a message**: it is dropped if it does not block, answered at once, kept until
the name it asks for is registered, or it registers a name, and then it is answered with the messages
that wait for this name. -/
inductive Handled (k : Answers) (msg : Envelope) (s : NameServer) : NameServer → Prop where
  | dropped : msg.body.isBlocking = false → Handled k msg s s
  | answers {s1 : NameServer} : msg.body.isBlocking = true → SameRequests s s1 →
      (Opcode.ofUsize msg.body.id = some .blockingConnect → msg.body.hasMemory = true → ¬ s.AsksForNew k msg) →
      Handled k msg s (s1.answer msg)
  | waits {name : Name} : WaitsFor msg name → s.nameTable name = none →
      Handled k msg s { s with waitingConnections := s.waitingConnections ++ [msg] }
  | registers {s' : NameServer} {name : Name} {sid : SID} {woken : List Envelope} :
      Opcode.ofUsize msg.body.id = some .register → msg.body.isBlocking = true → s.nameTable name = none →
      s'.nameTable = Function.update s.nameTable name (some sid) → s'.answered = s.answered ++ msg :: woken →
      (woken ++ s'.waitingConnections).Perm s.waitingConnections →
      (∀ w ∈ woken, nameFromMsg k w 0 = some (.ok name)) →
      (∀ w ∈ s'.waitingConnections, nameFromMsg k w 0 ≠ some (.ok name)) → Handled k msg s s'

/-- **One message** does not stop the server. -/
theorem handle_handled (h : Serves received s) (haccepts : Accepts k msg) :
    ∃ s', s.handle k msg = some s' ∧ Handled k msg s s' := by
  unfold handle
  unfold Accepts at haccepts
  cases hbody : msg.body with
  | scalar x => exact ⟨s, rfl, .dropped (by rw [hbody]; rfl)⟩
  | move x =>
    simp only [hbody] at haccepts
    exact ⟨s, by simp [Service.Message.isBlocking, haccepts], .dropped (by rw [hbody]; rfl)⟩
  | blockingScalar x =>
    simp only [hbody] at haccepts
    exact ⟨_, by simp only [Service.Message.isBlocking, Service.Message.hasMemory, haccepts]; rfl,
      .answers (by rw [hbody]; rfl) (.refl s) fun _ hmemory => by rw [hbody] at hmemory; cases hmemory⟩
  | borrow m =>
    simp only [hbody] at haccepts
    exact ⟨_, by simp only [Service.Message.isBlocking, Service.Message.hasMemory, Service.Message.id, haccepts]; rfl,
      .answers (by rw [hbody]; rfl) (.refl s) fun hop => by rw [hbody] at hop; cases haccepts.symm.trans hop⟩
  | mutableBorrow m =>
    simp only [hbody] at haccepts
    obtain ⟨hbuf, hgrants, hregister, hmanifest⟩ := haccepts
    simp only [Service.Message.isBlocking, Service.Message.hasMemory, Service.Message.id, Bool.not_true,
      Bool.false_eq_true, if_false]
    have hblocks : msg.body.isBlocking = true := by rw [hbody]; rfl
    have hid : msg.body.id = m.id := by rw [hbody]; rfl
    have hrespond : ∀ (s : NameServer) {words : Nat}, words ≤ 4 → s.respond words msg = some (s.answer msg) :=
      fun s words hwords => respond_eq hbody hbuf hwords
    cases hop : Opcode.ofUsize m.id with
    | none => exact ⟨_, rfl, .answers hblocks (.refl s) fun hconnect => by rw [hid, hop] at hconnect; cases hconnect⟩
    | some op =>
      have hother : op ≠ .blockingConnect → ∀ {s1 : NameServer}, SameRequests s s1 →
          Handled k msg s (s1.answer msg) := fun hne _ hsame =>
        .answers hblocks hsame fun hconnect => absurd (Option.some.inj (hop.symm.trans (hid ▸ hconnect))) hne
      cases op with
      | register =>
        obtain ⟨e, he⟩ | ⟨name, sid, hfree, hok⟩ := registerImpl_cases (s := s) (k := k) hbody hbuf (hregister hop)
        · simp only [he, hrespond s (show 2 ≤ 4 by decide)]
          exact ⟨_, rfl, hother (by decide) (.refl s)⟩
        · simp only [hok, hrespond _ (show 1 ≤ 4 by decide)]
          let s1 : NameServer :=
            { s with nameTable := Function.update s.nameTable name (some sid), answered := s.answered ++ [msg] }
          have hnew : s1.nameTable name = some sid := Function.update_self ..
          have hwaiting : ∀ msg ∈ s1.waitingConnections, ∃ name, WaitsFor msg name := fun msg' hmsg' =>
            (h.waiting msg' hmsg').imp fun _ hname => hname.1
          obtain ⟨s', woken, hrun, htable, hanswered, hkept, hwoken, hrest⟩ := wakeFrom_wakes hgrants _ 0
            (Nat.zero_add s1.waitingConnections.length).symm hnew hwaiting (fun j hj => absurd hj (by omega))
          refine ⟨s', hrun, .registers (hid ▸ hop) hblocks hfree htable (hanswered.trans ?_) hkept hwoken hrest⟩
          exact List.append_assoc s.answered [msg] woken
      | addManifest =>
        obtain ⟨hvalid, happ⟩ := hmanifest hop
        obtain ⟨r, s', heq, hsame⟩ := addManifestImpl_cases (s := s) hbody hvalid happ
        cases r with
        | error e =>
          simp only [heq, hrespond s' (show 2 ≤ 4 by decide)]
          exact ⟨_, rfl, hother (by decide) hsame⟩
        | ok x =>
          simp only [heq, hrespond s' (show 1 ≤ 4 by decide)]
          exact ⟨_, rfl, hother (by decide) hsame⟩
      | tryConnect =>
        obtain ⟨r, hr, -⟩ := connectImpl_cases s msg hgrants
        simp only [hr, hrespond s (show 2 ≤ 4 by decide)]
        exact ⟨_, rfl, hother (by decide) (.refl s)⟩
      | blockingConnect =>
        obtain ⟨r, hr, hwait⟩ := connectImpl_cases s msg hgrants
        match r, hr with
        | .error e, hr =>
          simp only [hr, hrespond s (show 2 ≤ 4 by decide)]
          exact ⟨_, rfl, .answers hblocks (.refl s) fun _ _ => hwait.not.mp (by simp)⟩
        | .ok (.connected cid), hr =>
          simp only [hr, hrespond s (show 2 ≤ 4 by decide)]
          exact ⟨_, rfl, .answers hblocks (.refl s) fun _ _ => hwait.not.mp (by simp)⟩
        | .ok .wait, hr =>
          simp only [hr]
          obtain ⟨_, name, -, hname, hnone⟩ := hwait.mp rfl
          exact ⟨_, rfl, .waits ⟨⟨m, hbody, hbuf, hop⟩, fun k' => (nameFromMsg_zero_eq k' k msg).trans hname⟩ hnone⟩

/-- The messages are kept or answered, and those that are kept wait for names nobody has registered. -/
theorem Handled.serves (hstep : Handled k msg s s') (h : Serves received s) :
    Serves (if msg.body.isBlocking then received ++ [msg] else received) s' := by
  cases hstep with
  | dropped hdropped => simpa [hdropped] using h
  | @answers s1 hblocks hsame _ =>
    rw [if_pos hblocks]
    refine ⟨?_, fun msg' hmsg' => ?_⟩
    · show ((s1.answered ++ [msg]) ++ s1.waitingConnections).Perm _
      rw [hsame.waiting, hsame.answered, List.append_assoc]
      refine (List.perm_append_comm.append_left _).trans ?_
      rw [← List.append_assoc]
      exact h.accounted.append_right _
    · obtain ⟨name, hname, hnone⟩ := h.waiting msg' (hsame.waiting ▸ hmsg')
      exact ⟨name, hname, (congrFun hsame.names name).trans hnone⟩
  | @waits name hwaits hnone =>
    obtain ⟨m, hbody, -⟩ := hwaits.1
    rw [if_pos (by rw [hbody]; rfl)]
    refine ⟨?_, fun msg' hmsg' => ?_⟩
    · show (s.answered ++ (s.waitingConnections ++ [msg])).Perm _
      rw [← List.append_assoc]
      exact h.accounted.append_right _
    · rcases List.mem_append.mp hmsg' with hold | hnew
      · exact h.waiting msg' hold
      · obtain rfl := List.mem_singleton.mp hnew
        exact ⟨name, hwaits, hnone⟩
  | @registers _ name sid woken _ hblocks hfree htable hanswered hkept hwoken hrest =>
    rw [if_pos hblocks]
    refine ⟨?_, fun msg' hmsg' => ?_⟩
    · rw [hanswered, List.append_assoc, List.cons_append]
      refine (List.perm_middle.trans (.trans ?_ (List.perm_append_singleton msg received).symm))
      exact ((hkept.append_left _).trans h.accounted).cons msg
    · obtain ⟨name', hname', hnone⟩ := h.waiting msg' (hkept.mem_iff.mp (List.mem_append_right _ hmsg'))
      have hne : name' ≠ name := fun heq => hrest msg' hmsg' (heq ▸ hname'.2 k)
      exact ⟨name', hname', by rw [htable, Function.update_of_ne hne, hnone]⟩

/-- The blocking messages among those received. -/
def blocking (events : List (Answers × Envelope)) : List Envelope := (events.map Prod.snd).filter (·.body.isBlocking)

theorem run_serves (h : Serves received s) (events : List (Answers × Envelope))
    (haccepts : ∀ e ∈ events, Accepts e.1 e.2) :
    ∃ s', s.run events = some s' ∧ Serves (received ++ blocking events) s' := by
  induction events generalizing s received with
  | nil => exact ⟨s, rfl, by simpa [blocking] using h⟩
  | cons e events ih =>
    obtain ⟨k, msg⟩ := e
    obtain ⟨s1, hstep, h1⟩ := handle_handled h (haccepts (k, msg) (by simp))
    obtain ⟨s', hrun, h'⟩ := ih (h1.serves h) fun e he => haccepts e (by simp [he])
    refine ⟨s', by simp only [run, hstep]; exact hrun, ?_⟩
    have hblocking : (if msg.body.isBlocking then received ++ [msg] else received) ++ blocking events =
        received ++ blocking ((k, msg) :: events) := by
      simp only [blocking, List.map_cons, List.filter_cons]
      split_ifs <;> simp
    rwa [hblocking] at h'

theorem Serves.start (hstart : s.waitingConnections = [] ∧ s.answered = []) : Serves [] s := by
  refine ⟨?_, ?_⟩
  · rw [hstart.1, hstart.2]
    exact .nil
  · simp [hstart.1]

/-- **The name server keeps serving.**  Whatever its tables are, if it receives only messages that
meet `Accepts`, it does not panic; every blocking message is answered, once, or waits for a name, and
no name that a message waits for is registered. -/
theorem nameServer_serves (s₀ : NameServer) (hstart : s₀.waitingConnections = [] ∧ s₀.answered = [])
    (events : List (Answers × Envelope)) (haccepts : ∀ e ∈ events, Accepts e.1 e.2) :
    ∃ s, s₀.run events = some s ∧ Serves (blocking events) s :=
  run_serves (.start hstart) events haccepts

/-- A kernel that knows no application and takes every answer. -/
def strangers : Answers :=
  ⟨fun _ => .error .processNotFound, fun _ _ => .error .serverNotFound, fun _ _ _ => .ok (), .ok (), .ok (),
    fun _ => none, none⟩

/-- A request to connect with 16 bytes of buffer, lent as `kind` says. -/
def request (kind : Service.MemoryMessage → Service.Message) : Envelope :=
  ⟨PID.new 3, kind ⟨7, List.replicate 16 0, none, none⟩⟩

theorem accepts_request : ∀ e ∈ [(strangers, request .mutableBorrow)], Accepts e.1 e.2 := by
  intro e he
  obtain rfl := List.mem_singleton.mp he
  exact ⟨by decide, fun _ _ _ => rfl, fun h => absurd h (by decide), fun h => absurd h (by decide)⟩

theorem nameServer_serves_request : (NameServer.default.waitingConnections = [] ∧ NameServer.default.answered = []) ∧
      (∀ e ∈ [(strangers, request .mutableBorrow)], Accepts e.1 e.2) ∧
      ∃ s, NameServer.default.run [(strangers, request .mutableBorrow)] = some s ∧
        Serves (blocking [(strangers, request .mutableBorrow)]) s :=
  ⟨⟨rfl, rfl⟩, accepts_request, nameServer_serves .default ⟨rfl, rfl⟩ _ accepts_request⟩

/-- Applications may send the messages 100, 200, 300, 400 and 500 to the server of the request. -/
def fivePermissions : NameServer := { default with
    nameTable := Function.update (fun _ => none) (List.replicate 16 0) (some ⟨1, 0, 0, 0⟩)
    connectPermissions := fun _ => some fun _ => some [100, 200, 300, 400, 500] }

/-- A kernel that knows the application of the client and connects it, and adds the ranges in turn to
the permissions of the connection. -/
def fourRanges : Answers := { strangers with
    getAppId := fun _ => .ok (some (.replicate 16 2))
    connectForProcess := fun _ _ => .ok 2
    allowMessages := fun _ _ range =>
      ((([100, 200, 300, 400].takeWhile (· < range.start)).foldl
        (fun (p : MessagePermissions) i => (p.add (permissionRange i)).2) .default).add range).1 }

/-- **One message of the wrong kind stops the name server**: a request to connect in a buffer that
is lent for reading only.  The response needs the buffer mutable. -/
theorem borrow_stops : NameServer.default.run [(strangers, request .borrow)] = none := rfl

end NameServer

end BeetKernel.Names

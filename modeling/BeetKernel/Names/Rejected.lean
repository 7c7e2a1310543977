/-
# A manifest that is rejected

`add_manifest_impl` writes the tables as it reads the manifest, and a message name that nobody has
declared is found last.  `rejected_sameGrants_iff` says when a rejected manifest has changed nothing:
if it did not get as far as the tables, or if all it brought before the unknown message was there.
-/
import BeetKernel.Names.Grants

namespace BeetKernel.Names.NameServer

open scoped List

variable {s s' : NameServer} {k : Answers} {msg : Service.Envelope} {app : AppId} {manifest : Manifest}

/-- The states permit the same: servers to register, ids of messages, and servers to connect to with
the ids to send, in whatever order. -/
structure SameGrants (s s' : NameServer) : Prop where
  registers : ∀ appId server,
    server ∈ (s'.registerPermissions appId).getD [] ↔ server ∈ (s.registerPermissions appId).getD []
  messages : s'.messageNameToId = s.messageNameToId
  entries : ∀ appId server, (s'.appPermissions appId server).isSome ↔ (s.appPermissions appId server).isSome
  ids : ∀ appId server, (s'.permitted appId server).Perm (s.permitted appId server)

/-- The manifest repeats what is in the tables: its application may register its servers, whose
messages have these ids; and up to its first unknown message it asks for no message, and only for
servers that the application may connect to. -/
structure Repeats (s : NameServer) (app : AppId) (manifest : Manifest) : Prop where
  registers : ∀ x ∈ manifest.servers, x.1 ∈ (s.registerPermissions app).getD []
  messages : ∀ x id, Declared.add (fun _ => none) manifest x = some id → s.messageNameToId x = some [id]
  permissions : ∀ x ∈ reached s.messageNameToId manifest.permissions, x.2 = [] ∧ (s.appPermissions app x.1).isSome

/-- **The first stage** lets the application register the servers of the manifest. -/
theorem mem_registerPermissions (s : NameServer) (app appId : AppId) (manifest : Manifest) (server : Name) :
    server ∈ ((s.processManifestServers app manifest).registerPermissions appId).getD [] ↔
      server ∈ (s.registerPermissions appId).getD [] ∨ app = appId ∧ ∃ x ∈ manifest.servers, x.1 = server := by
  unfold processManifestServers
  generalize manifest.servers = servers
  induction servers generalizing s with
  | nil => simp
  | cons x servers ih =>
    obtain ⟨server', messages⟩ := x
    rw [List.foldl_cons, ih, (addMessages_tables messages server' (s.addServer app server')).2]
    by_cases happ : app = appId
    · subst happ
      simp only [addServer, Function.update_self, Option.getD_some, List.mem_cons, true_and, exists_eq_or_imp]
      rw [or_assoc, or_left_comm, eq_comm]
    · simp [addServer, Function.update_of_ne (Ne.symm happ), happ]

/-- **A rejected manifest grants nothing** if and only if it did not get as far as the tables or it
repeats what is in them. -/
theorem rejected_sameGrants_iff {e : Error} (h : s.addManifestImpl k msg = some (.error e, s')) : SameGrants s s' ↔
      ∀ manifest app, s.admitted k msg = some manifest → manifest.appId = some app → s.Repeats app manifest := by
  obtain ⟨hnone, rfl⟩ | ⟨app, manifest, hadmitted, happ, hr⟩ := addManifestImpl_stages h
  · simp only [hnone, reduceCtorEq, false_implies, implies_true, iff_true]
    exact ⟨fun _ _ => .rfl, rfl, fun _ _ => .rfl, fun _ _ => .refl _⟩
  have hs' : s' = ((s.processManifestServers app manifest).processManifestPermissions app manifest).2 :=
    congrArg Prod.snd hr
  obtain ⟨hregisters, hmessages, hentries, hids⟩ :=
    processManifestPermissions_adds (s.processManifestServers app manifest) app manifest
  rw [← hs'] at hregisters hmessages hentries hids
  have hperms : (s.processManifestServers app manifest).appPermissions = s.appPermissions := by
    unfold appPermissions
    rw [processManifestServers_connectPermissions]
  simp only [permitted, hperms] at hentries hids
  have hdeclares : Redeclares s.messageNameToId (s.processManifestServers app manifest)
      (Declared.add (fun _ => none) manifest) := Redeclares.servers (fun _ => rfl) app manifest
  constructor
  · intro hsame manifest' app' hadmitted' happ'
    cases hadmitted.symm.trans hadmitted'
    cases happ.symm.trans happ'
    have hold : (s.processManifestServers app manifest).messageNameToId = s.messageNameToId :=
      hmessages.symm.trans hsame.messages
    rw [hold] at hentries hids
    refine ⟨fun x hx => (hsame.registers app x.1).mp ?_, fun x id hid => ?_, fun x hx => ⟨?_, ?_⟩⟩
    · rw [hregisters, mem_registerPermissions]
      exact .inr ⟨rfl, x, hx, rfl⟩
    · rw [← hold, hdeclares, hid]
      rfl
    · have hlength := ((hids app x.1).symm.trans (hsame.ids app x.1)).length_eq
      rw [List.length_append, permitted, Nat.add_eq_left, List.length_eq_zero_iff, List.flatMap_eq_nil_iff] at hlength
      exact hlength x (by simp [hx])
    · exact (hsame.entries app x.1).mp ((hentries app x.1).mpr (.inr ⟨rfl, x.2, hx⟩))
  · intro hall
    have hrepeats := hall manifest app hadmitted happ
    have hold : (s.processManifestServers app manifest).messageNameToId = s.messageNameToId := by
      funext x
      rw [hdeclares]
      cases hid : Declared.add (fun _ => none) manifest x with
      | none => rfl
      | some id => exact (hrepeats.messages x id hid).symm
    rw [hold] at hentries hids
    refine ⟨fun appId server => ?_, hmessages.trans hold, fun appId server => ?_, fun appId server => ?_⟩
    · rw [hregisters, mem_registerPermissions, or_iff_left_iff_imp]
      rintro ⟨rfl, x, hx, rfl⟩
      exact hrepeats.registers x hx
    · refine (hentries appId server).trans (or_iff_left_of_imp ?_)
      rintro ⟨rfl, ids, hin⟩
      exact (hrepeats.permissions _ hin).2
    · refine (hids appId server).trans (.of_eq ?_)
      rw [permitted, List.append_right_eq_self, List.flatMap_eq_nil_iff]
      exact fun x hx => (hrepeats.permissions x (List.mem_of_mem_filter hx)).1

/-- The first application may add manifests. -/
def privileged : NameServer :=
  { default with connectPermissions :=
      Function.update (fun _ => none) (.replicate 16 1) (some fun _ => some [Opcode.addManifestId]) }

/-- The manifest of the second application declares the server `s` without messages and asks for its
message `m`. -/
def asksUnknown : Manifest := ⟨some (.replicate 16 2), [([115], [])], [([115], [[109]])]⟩

/-- Manifests are sent by the first application, and read as this one. -/
def readsUnknown : Answers :=
  { strangers with getAppId := fun _ => .ok (some (.replicate 16 1)), tryFromBytes := fun _ => some asksUnknown }

/-- Without the permission of the first application, nothing changes. -/
theorem rejected_sameGrants_denied :
    NameServer.default.addManifestImpl readsUnknown (request .mutableBorrow) = some (.error .accessDenied, .default) ∧
      SameGrants .default .default := by
  have hadmitted : NameServer.default.admitted readsUnknown (request .mutableBorrow) = none := rfl
  have hdenied : NameServer.default.addManifestImpl readsUnknown (request .mutableBorrow) =
      some (.error .accessDenied, .default) := rfl
  refine ⟨hdenied, (rejected_sameGrants_iff hdenied).mpr fun _ _ h => ?_⟩
  rw [hadmitted] at h
  cases h

/-- **A rejected manifest has granted something**: its application may register the server. -/
theorem rejected_grants :
    ∃ s', privileged.addManifestImpl readsUnknown (request .mutableBorrow) = some (.error .serverNotFound, s') ∧
      ¬ SameGrants privileged s' := by
  refine ⟨_, rfl, fun hsame => ?_⟩
  have hmem := (hsame.registers (.replicate 16 2) [115]).mp (by decide)
  exact absurd hmem (by decide)

end BeetKernel.Names.NameServer

/-
# Keystrokes

A typed character goes to the server that has the keyboard, or into a buffer of 64 characters if
nobody has it.  The buffer is handed out when the keyboard is acquired.

`deliver_char_to_sid` LOSES the character in two cases: no server has the id, or the queue of the
server is full.  And it hands the character to whichever thread is on the server's mask, without
asking whether the thread still waits.  Section 3 shows that in all other cases every character is
accepted, once and in the order of typing.
-/
import BeetKernel.Display.Focus

namespace BeetKernel

open Function (update)
open Exec (Along post_bind post_get post_ignore post_mono wp_and wp_bind wp_mono wp_of_post wp post_seq)

namespace DisplayState

theorem foldl_type_inputBuf (chars : List UInt8) (d : DisplayState) :
    (chars.foldl type d).inputBuf = if d.inputSid.isSome then d.inputBuf else
      chars.foldl (fun buf c => (if buf.length < Kernel.inputBufCap then buf else buf.tail) ++ [c]) d.inputBuf := by
  induction chars generalizing d with
  | nil => simp
  | cons c rest ih =>
    rw [List.foldl_cons, ih, type_inputSid]
    unfold type
    split
    · rfl
    · rfl

end DisplayState

/-! ## 1. Room in a server -/

namespace Server

variable {s s' : Server}

/-- How many receivers are on the mask. -/
def parked (s : Server) : Nat := (Finset.univ.filter fun i : Fin 64 => s.readyThreads.getLsbD i).card

/-- How many characters the server can take: one for each receiver, and one for each empty slot. -/
def capacity (s : Server) : Nat := s.parked + s.queue.count .empty

theorem parked_takeAvailableThread {tid : TID} (h : s.takeAvailableThread = some (tid, s')) :
    s.parked = s'.parked + 1 := by
  obtain ⟨hbit, hlt, -, -, hbits, -⟩ := takeAvailableThread_some h
  have hmem : (⟨tid, hlt⟩ : Fin 64) ∈ Finset.univ.filter fun i : Fin 64 => s.readyThreads.getLsbD i := by
    simp [hbit]
  have herase : (Finset.univ.filter fun i : Fin 64 => s'.readyThreads.getLsbD i) =
      (Finset.univ.filter fun i : Fin 64 => s.readyThreads.getLsbD i).erase ⟨tid, hlt⟩ := by
    ext i
    rw [Finset.mem_erase, Finset.mem_filter, Finset.mem_filter, hbits]
    simp [Fin.ext_iff, and_comm]
  unfold parked
  rw [herase, Finset.card_erase_add_one hmem]

theorem capacity_takeAvailableThread {tid : TID} (h : s.takeAvailableThread = some (tid, s')) :
    s.capacity = s'.capacity + 1 := by
  obtain ⟨-, -, -, -, -, hrest⟩ := takeAvailableThread_some h
  have hqueue : s'.queue = s.queue := by rw [hrest]
  rw [capacity, capacity, hqueue, parked_takeAvailableThread h, Nat.add_right_comm]

/-- A scalar message takes an empty slot, if there is one. -/
theorem queueMessage_scalar (hb : s.InBounds) (hroom : .empty ∈ s.queue) (pid : PID) (tid : TID) (m : ScalarMessage) :
    wp (queueMessage pid tid (.scalar m) none)
      (fun _ s' => s'.card = s.card ∧ s'.readyThreads = s.readyThreads ∧ s'.InBounds ∧
        s.queue.count .empty = s'.queue.count .empty + 1) (fun _ _ => False) s := by
  rcases findEmptySlot_spec hb.1 with ⟨i, hi, hrun⟩ | ⟨hnone, -⟩
  · obtain ⟨hlt, hget⟩ := getElem?_eq_some_iff.mp hi
    refine wp_of_post (F := fun _ => True) ?_
    rw [queueMessage, post_bind]
    refine Exec.post_of_ok hrun ?_
    simp only [messageSlot, post_bind, post_get, Exec.post_assert, Exec.post_set, Exec.post_pure]
    refine ⟨fun _ => ⟨fun _ => ⟨rfl, trivial, ?_, ?_⟩, fun _ => trivial⟩, fun _ => trivial⟩
    · have hpos : 0 < s.queue.length := Nat.lt_of_le_of_lt (Nat.zero_le i) hlt
      exact ⟨by simpa using nextIndex_lt i hpos, by simpa using hb.2⟩
    · have hpos : 0 < s.queue.count .empty := List.count_pos_iff.mpr hroom
      rw [List.count_set hlt, hget]
      simp only [BEq.rfl, if_true, beq_iff_eq, reduceCtorEq, if_false, Nat.add_zero]
      exact (Nat.sub_add_cancel hpos).symm
  · exact absurd hroom hnone

end Server

namespace Kernel

open Ipc

variable {k k' k₀ : Kernel} {e : Event} {es : List Event} {sid : SID} {sidx : Nat} {s s' : Server}

/-! ## 2. A character is accepted -/

/-- The message that carries a character: message 0 of the console is `ConsoleOp::Char`. -/
def charMessage (c : UInt8) : Message := .scalar ⟨0, c.toNat, 0, 0, 0⟩

/-- The server with the id accepts the character, once: a thread that waits to receive runs with the
message in its registers, or the message is the last in the queue. -/
inductive Accepts (sid : SID) (c : UInt8) (k k' : Kernel) : Prop where
  | handed {sidx : Nat} {s s' : Server} {tid : TID} {j : Ipc}
      (hfind : k.links.serverOf sid = some sidx) (hs : k.servers sidx = some s)
      (htake : s.takeAvailableThread = some (tid, s'))
      (hwaits : k.kernelFuture (s.pid, tid) = some (.receiveMessage sidx))
      (hready : SetState (s.pid, tid) .ready ((k.ipc.setServer sidx (some s')).setFuture (s.pid, tid) none) j)
      (hmessage : k'.ipc = j.deliver (s.pid, tid) (.messageEnvelope ⟨⟨0⟩, charMessage c⟩))
  | queued {sidx slot : Nat} {s s' : Server}
      (hfind : k.links.serverOf sid = some sidx) (hs : k.servers sidx = some s)
      (hnone : s.takeAvailableThread = none)
      (hqueue : Server.queueMessage PID.kernel 1 (charMessage c) none s = .ok slot s')
      (hservers : k'.servers = update k.servers sidx (some s'))

/-- The characters are accepted one after the other. -/
inductive AcceptsAll (sid : SID) : List UInt8 → Kernel → Kernel → Prop where
  | nil (k : Kernel) : AcceptsAll sid [] k k
  | cons {c : UInt8} {cs : List UInt8} {k k₁ k' : Kernel} :
      Accepts sid c k k₁ → AcceptsAll sid cs k₁ k' → AcceptsAll sid (c :: cs) k k'

/-- The server with the id can take `n` characters, and the threads on its mask wait for them. -/
structure Attends (k : Kernel) (sidx : Nat) (s : Server) (sid : SID) (n : Nat) : Prop where
  found : k.links.serverOf sid = some sidx
  server : k.servers sidx = some s
  waits : ∀ tid, s.readyThreads.getLsbD tid = true → k.kernelFuture (s.pid, tid) = some (.receiveMessage sidx)
  room : n ≤ s.capacity

/-- What every reachable state promises of a server. -/
structure Sound (k : Kernel) (s : Server) : Prop where
  bounds : s.InBounds
  owner : k.ipc.parent s.pid ≠ none

theorem serverOf_update (hs : k.servers sidx = some s) (hsid : s'.sid = s.sid)
    (hk' : k'.servers = update k.servers sidx (some s')) (sid : SID) :
    k'.links.serverOf sid = k.links.serverOf sid := by
  unfold Links.serverOf
  congr 1
  funext i
  rcases eq_or_ne i sidx with rfl | hne
  · simp [links, hk', hs, hsid]
  · simp [links, hk', Function.update_of_ne hne]

theorem takeAvailableThread_sound {tid : TID} (htake : s.takeAvailableThread = some (tid, s'))
    (hok : Sound k s) (hparent : k'.ipc.parent = k.ipc.parent) : Sound k' s' := by
  obtain ⟨-, -, hpid, -, -, hrest⟩ := Server.takeAvailableThread_some htake
  refine ⟨?_, ?_⟩
  · rw [hrest]
    exact hok.bounds
  · rw [hparent, hpid]
    exact hok.owner

variable {n : Nat} {k₁ : Kernel}

theorem handOverChar_accepts {tid : TID} (hk : Attends k sidx s sid (n + 1)) (hok : Sound k s)
    (htake : s.takeAvailableThread = some (tid, s')) (c : UInt8) :
    Exec.post (do
        let _ ← takeKernelFuture (s.pid, tid)
        setThreadState (s.pid, tid) .ready
        Exec.ignore (setThreadResult (s.pid, tid) (.messageEnvelope ⟨⟨0⟩, charMessage c⟩)))
      (fun _ k' => Accepts sid c k k' ∧ Attends k' sidx s' sid n ∧ Sound k' s')
      (fun _ _ => False) (fun _ => True) (k.putServer sidx (some s')) := by
  obtain ⟨hbit, -, hpid, -, hbits, hrest⟩ := Server.takeAvailableThread_some htake
  have halive : k.processes s.pid ≠ none := fun hnone => hok.owner (ipc_parent hnone)
  refine post_seq (takeKernelFuture_post (s.pid, tid) _) ?_ (fun _ _ h => halive h.2) fun _ _ => trivial
  rintro f k₁ ⟨-, -, hlow, hhigh⟩
  have hparent1 : k₁.ipc.parent = k.ipc.parent := by
    by_cases htid : tid < maxThreadCount
    · rw [(hlow htid).2]
      rfl
    · rw [(hhigh htid).2]
      rfl
  refine post_seq (setThreadState_post (s.pid, tid) .ready k₁) ?_ ?_ fun _ _ => trivial
  · rintro _ k₂ ⟨hset, -⟩
    rw [(hlow hset.range).2, ipc_putServer] at hset
    rw [post_ignore]
    refine post_mono (setThreadResult_post (s.pid, tid) _ k₂) ?_ ?_ fun _ _ => trivial
    · rintro _ k3 ⟨hk3, -⟩
      have hparent : k3.ipc.parent = k.ipc.parent := by
        rw [hk3, Ipc.deliver, hset.rest]
        rfl
      have hservers : k3.servers = update k.servers sidx (some s') := by
        have h := congrArg Ipc.servers hk3
        rw [Ipc.deliver, hset.rest] at h
        exact h
      have hfuture : k3.kernelFuture = update k.kernelFuture (s.pid, tid) none := by
        have h := congrArg Ipc.future hk3
        rw [Ipc.deliver, hset.rest] at h
        exact h
      refine ⟨.handed hk.found hk.server htake (hk.waits tid hbit) hset hk3, ⟨?_, ?_, fun tid' hbit' => ?_, ?_⟩,
        takeAvailableThread_sound htake hok hparent⟩
      · rw [serverOf_update hk.server (by rw [hrest]) hservers]
        exact hk.found
      · rw [hservers, Function.update_self]
      · -- the other threads on the mask still wait
        rw [hbits, Bool.and_eq_true, decide_eq_true_eq] at hbit'
        have hne : (s.pid, tid') ≠ (s.pid, tid) := fun h => hbit'.2 (congrArg Prod.snd h)
        rw [hfuture, hpid, Function.update_of_ne hne]
        exact hk.waits tid' hbit'.1
      · have hroom := hk.room
        rw [Server.capacity_takeAvailableThread htake] at hroom
        exact Nat.le_of_succ_le_succ hroom
    · rintro _ k3 ⟨-, hnone⟩
      have hgone := ipc_parent hnone
      rw [hset.rest] at hgone
      exact absurd hgone hok.owner
  · rintro _ k₂ ⟨-, hnone⟩
    have hgone := ipc_parent hnone
    rw [hparent1] at hgone
    exact hok.owner hgone

/-- The servers are as they were. -/
def SameServers (k k' : Kernel) : Prop := k'.servers = k.servers

instance : IsPreorder Kernel SameServers where
  refl _ := rfl
  trans _ _ _ h1 h2 := Eq.trans h2 h1

theorem setThreadResult_sameServers (t : ThreadId) (r : Result) : Along SameServers (setThreadResult t r) := by
  have hsave : Along SameServers (Exec.modify (setSavedResult t r) : KExec Unit) :=
    Along.modify fun k => (setSavedResult_sameTables t r k).servers
  have hactivate : ∀ pid, Along SameServers (activate pid) := fun _ => Along.modify fun _ => rfl
  exact Along.get.bind fun _ => .ite (fun _ => hsave) fun _ => (process_along _).bind fun _ =>
    (hactivate _).bind fun _ => hsave.bind fun _ => ((process_along _).unwrap _).bind fun _ => hactivate _

theorem notify_sameServers (pid : PID) (bits : BitVec 64) : Along SameServers (notify pid bits) := by
  have hpost : Along SameServers (postNotificationBits pid bits) := fun k =>
    wp_mono (onlyThreads_code.postNotificationBits pid bits k) (fun _ k' h => by rw [SameServers, h])
      fun _ k' h => by rw [SameServers, h]
  refine hpost.bind fun woken => ?_
  cases woken with
  | none => exact .pure _
  | some w => exact (setThreadResult_sameServers _ _).ignore

theorem notify_noError {pid : PID} (halive : k.processes pid ≠ none) (bits : BitVec 64) :
    wp (notify pid bits) (fun _ _ => True) (fun _ _ => False) k := by
  refine wp_of_post (F := fun _ => True) ?_
  unfold notify postNotificationBits
  simp only [post_bind, post_setProcess]
  refine post_process (fun p hp hle => ?_) (fun hnone => halive hnone) fun _ => trivial
  refine post_mono (wakeFirstMatching_post hle (List.range' 1 (maxThreadCount - 1)) _ fun tid h => ?_)
    (fun woken k₁ _ => ?_) (fun _ _ hgone => ?_) fun _ _ => trivial
  · rw [List.mem_range'_1] at h
    simp only [maxThreadCount] at h ⊢
    omega
  · cases woken with
    | none => trivial
    | some w =>
      rw [post_ignore]
      exact post_mono (setThreadResult_post _ _ k₁) (fun _ _ _ => trivial) (fun _ _ _ => trivial) fun _ _ => trivial
  · simp [putProcess] at hgone

/-- If no thread is on the mask, there are as many empty slots as characters. -/
theorem Attends.empties (hk : Attends k sidx s sid n) (hnone : s.takeAvailableThread = none) :
    n ≤ s.queue.count .empty := by
  have hmask : s.readyThreads = 0 := Server.takeAvailableThread_eq_none.mp hnone
  have hparked : s.parked = 0 := by
    rw [Server.parked, hmask]
    simp
  have hroom := hk.room
  rwa [Server.capacity, hparked, Nat.zero_add] at hroom

theorem Attends.queueMessage (hk : Attends k sidx s sid (n + 1)) (hok : Sound k s)
    (hnone : s.takeAvailableThread = none) (c : UInt8) :
    wp (Server.queueMessage PID.kernel 1 (charMessage c) none)
      (fun _ s' => s'.card = s.card ∧ s'.readyThreads = s.readyThreads ∧ s'.InBounds ∧
        s.queue.count .empty = s'.queue.count .empty + 1) (fun _ _ => False) s :=
  Server.queueMessage_scalar hok.bounds
    (List.count_pos_iff.mp (Nat.lt_of_lt_of_le (Nat.succ_pos n) (hk.empties hnone))) _ _ _

theorem queueChar_accepts {n slot : Nat} {c : UInt8} (hk : Attends k sidx s sid (n + 1))
    (hok : Sound k s) (hnone : s.takeAvailableThread = none)
    (hqueue : Server.queueMessage PID.kernel 1 (charMessage c) none s = .ok slot s')
    (hservers : k₁.servers = update k.servers sidx (some s')) (hparent : k₁.ipc.parent = k.ipc.parent) :
    Accepts sid c k k₁ ∧ Attends k₁ sidx s' sid n ∧ Sound k₁ s' := by
  have hroom := hk.empties hnone
  obtain ⟨hcard, hready, hbounds, hcount⟩ := Exec.wp_ok (hk.queueMessage hok hnone c) hqueue
  have hpid : s'.pid = s.pid := congrArg Card.pid hcard
  refine ⟨.queued hk.found hk.server hnone hqueue hservers, ⟨?_, ?_, fun tid hbit => ?_, ?_⟩, hbounds, ?_⟩
  · rw [serverOf_update hk.server (congrArg Card.sid hcard) hservers]
    exact hk.found
  · rw [hservers, Function.update_self]
  · rw [hready, Server.takeAvailableThread_eq_none.mp hnone] at hbit
    simp at hbit
  · rw [Server.capacity]
    omega
  · rw [hparent, hpid]
    exact hok.owner

theorem deliverCharToSid_accepts (hk : Attends k sidx s sid (n + 1)) (hok : Sound k s) (c : UInt8) :
    wp (deliverCharToSid sid c) (fun _ k' => Accepts sid c k k' ∧ ∃ s', Attends k' sidx s' sid n ∧ Sound k' s')
      (fun _ _ => False) k := by
  have hfind : (List.range maxServerCount).find? (fun i => (k.servers i).any (·.sid = sid)) = some sidx := hk.found
  have hlt : sidx < maxServerCount := List.mem_range.mp (List.mem_of_find?_eq_some hfind)
  have halive : k.processes s.pid ≠ none := fun hnone => hok.owner (ipc_parent hnone)
  have hsome : (k.processes s.pid).isSome = true := Option.isSome_iff_ne_none.mpr halive
  refine wp_of_post (F := fun _ => True) ?_
  unfold deliverCharToSid
  simp only [post_bind, post_get, hfind, post_serverFromSidx hlt, hk.server, Exec.expect_some,
    Exec.post_pure, hsome, if_true]
  cases htake : s.takeAvailableThread with
  | some x =>
    obtain ⟨tid, s'⟩ := x
    rw [post_bind, post_setServer]
    exact post_mono (handOverChar_accepts hk hok htake c) (fun _ _ h => ⟨h.1, s', h.2⟩) (fun _ _ h => h) fun _ h => h
  | none =>
    rw [post_bind, post_ignore]
    refine post_mono (queueServerMessage_post PID.kernel 1 (charMessage c) none hlt hk.server) ?_ ?_ fun _ _ => trivial
    · rintro slot k₁ ⟨s', hqueue, hk1⟩
      have halive1 : k₁.processes s.pid ≠ none := by
        rw [hk1]
        exact halive
      have hnotify := wp_and (notify_noError halive1 eventServerMsg)
        (wp_and (notify_sameServers s.pid eventServerMsg k₁) (wp_of_post (notify_quiet s.pid eventServerMsg k₁)))
      refine Exec.post_of_wp (wp_mono hnotify ?_ fun _ _ h => h.1)
      rintro _ k₂ ⟨-, hsame, hquiet⟩
      have hservers : k₂.servers = update k.servers sidx (some s') := by
        rw [hsame, hk1]
        rfl
      have hparent : k₂.ipc.parent = k.ipc.parent := by
        rw [(quiet_frame hquiet).parent, hk1]
        rfl
      obtain ⟨hacc, hrest⟩ := queueChar_accepts hk hok htake hqueue hservers hparent
      exact ⟨hacc, s', hrest⟩
    · rintro e k₁ (⟨-, hgone⟩ | ⟨s', herr, -⟩)
      · exact absurd hgone halive
      · exact (Exec.wp_err (hk.queueMessage hok htake c) herr).elim

/-! ## 3. What is typed in a step -/

theorem deliverChars_accepts (cs : List UInt8) (hk : Attends k sidx s sid cs.length) (hok : Sound k s) :
    wp (Exec.each (deliverCharToSid sid) cs) (fun _ k' => AcceptsAll sid cs k k') (fun _ _ => False) k := by
  induction cs generalizing k s with
  | nil => exact .nil k
  | cons c cs ih =>
    rw [Exec.each, wp_bind]
    refine wp_mono (deliverCharToSid_accepts hk hok c) ?_ fun _ _ h => h
    rintro _ k₁ ⟨hacc, s1, hk1, hok1⟩
    exact wp_mono (ih hk1 hok1) (fun _ _ hall => .cons hacc hall) fun _ _ h => h

theorem dispatchChars_accepts (cs : List UInt8) (hfocus : k.display.inputSid = some sid)
    (hk : Attends k sidx s sid cs.length) (hok : Sound k s) :
    wp (Exec.each dispatchInputChar cs) (fun _ k' => AcceptsAll sid cs k k') (fun _ _ => False) k := by
  induction cs generalizing k s with
  | nil => exact .nil k
  | cons c cs ih =>
    rw [Exec.each, wp_bind]
    have hdispatch : dispatchInputChar c k = deliverCharToSid sid c k := by
      rw [dispatchInputChar, Exec.get_bind_run, hfocus]
    have hone := wp_and (deliverCharToSid_accepts hk hok c) (shown_frame.toServiceFrame.deliverCharToSid sid c k)
    rw [wp, ← hdispatch] at hone
    refine wp_mono (m := dispatchInputChar c) hone ?_ fun _ _ h => h.1
    rintro _ k₁ ⟨⟨hacc, s1, hk1, hok1⟩, hshown⟩
    have hfocus1 : k₁.display.inputSid = some sid := by
      rw [hshown.display]
      exact hfocus
    exact wp_mono (ih hfocus1 hk1 hok1) (fun _ _ hall => .cons hacc hall) fun _ _ h => h

theorem bufferChars_noError (cs : List UInt8) (hfocus : k.display.inputSid = none) :
    wp (Exec.each dispatchInputChar cs) (fun _ _ => True) (fun _ _ => False) k := by
  induction cs generalizing k with
  | nil => trivial
  | cons c cs ih =>
    rw [Exec.each, wp_bind, dispatchInputChar, wp_bind, Exec.wp_get]
    simp only [hfocus]
    exact ih rfl

/-- The characters that are handed out during the event, and the server they are for. -/
def handsOut (k : Kernel) : Event → Option (SID × List UInt8)
  | .svc _ (.acquireInputFocus sid) =>
    if k.display.OwnedBy k.currentPid then some (sid, k.display.inputBuf) else none
  | .input _ chars | .idle chars => k.display.inputSid.map fun sid => (sid, chars)
  | _ => none

/-- The buffer after the event: what is typed while nobody has the keyboard is kept, and only the
oldest character dropped if 64 are kept already. -/
def bufferAfter (k : Kernel) : Event → List UInt8
  | .svc _ (.acquireInputFocus _) => if k.display.OwnedBy k.currentPid then [] else k.display.inputBuf
  | .input _ chars | .idle chars =>
    if k.display.inputSid.isSome then k.display.inputBuf
    else chars.foldl (fun buf c => (if buf.length < inputBufCap then buf else buf.tail) ++ [c]) k.display.inputBuf
  | _ => k.display.inputBuf

/-- Whoever is to receive characters can: the server exists, the threads on its mask wait to receive,
and there are enough of them or enough empty slots. -/
def Receptive (k : Kernel) (e : Event) : Prop :=
  ∀ sid chars, k.handsOut e = some (sid, chars) → chars = [] ∨ ∃ sidx s, Attends k sidx s sid chars.length

/-- The code that hands out characters makes the server accept all of them, in order. -/
def HandsOver (k : Kernel) (e : Event) : Prop :=
  ∀ k₁ : Kernel, k₁.servers = k.servers → k₁.processes = k.processes → k₁.display = k.display → wp (k.typing e)
      (fun _ k₂ => ∀ sid chars, k.handsOut e = some (sid, chars) → AcceptsAll sid chars k₁ k₂)
      (fun _ _ => False) k₁

theorem displayAfter_inputBuf (k : Kernel) (e : Event) : (k.displayAfter e).inputBuf = k.bufferAfter e := by
  have hpass : ∀ alive d, (DisplayState.passOn alive d).inputBuf = d.inputBuf := fun _ _ => by
    unfold DisplayState.passOn
    split <;> rfl
  have hexit : ∀ pid, (k.display.exit k.alive pid).inputBuf = k.display.inputBuf := by
    intro pid
    unfold DisplayState.exit
    split
    · exact hpass ..
    · rfl
  unfold displayAfter
  cases e with
  | svc frame call =>
    cases call with
    | acquireDisplay =>
      dsimp only [endedBy, bufferAfter]
      unfold DisplayState.acquire
      split <;> rfl
    | releaseDisplay row col =>
      dsimp only [endedBy, bufferAfter]
      unfold DisplayState.release
      split
      · exact hpass ..
      · rfl
    | acquireInputFocus sid =>
      dsimp only [endedBy, bufferAfter]
      unfold DisplayState.focus
      split <;> rfl
    | terminateProcess => exact hexit _
    | terminatePid pid =>
      dsimp only [endedBy, bufferAfter]
      by_cases hmay : k.mayEnd pid = true
      · rw [if_pos hmay]
        exact hexit pid
      · rw [if_neg hmay]
    | _ => rfl
  | input _ chars | idle chars => exact DisplayState.foldl_type_inputBuf chars k.display
  | abort => exact hexit _
  | _ => rfl

theorem Attends.same (hk : Attends k sidx s sid n) (hs : k₁.servers = k.servers)
    (hp : k₁.processes = k.processes) : Attends k₁ sidx s sid n := by
  refine ⟨?_, hs ▸ hk.server, fun tid hbit => ?_, hk.room⟩
  · have hlinks : k₁.links.serverOf sid = k.links.serverOf sid := by
      rw [Links.serverOf, Links.serverOf, links, links, hs]
    rw [hlinks]
    exact hk.found
  · rw [kernelFuture, hp]
    exact hk.waits tid hbit

theorem Sound.of_basic (hb : Basic k.ipc) (hs : k.servers sidx = some s)
    (hp : k₁.processes = k.processes) : Sound k₁ s := by
  refine ⟨hb.bounds sidx s hs, ?_⟩
  have hparent : k₁.ipc.parent = k.ipc.parent := by
    rw [ipc, ipc, hp]
  rw [hparent]
  exact hb.owners sidx s hs

theorem deliverChars_of_receptive {chars : List UInt8} {m : KExec Unit} (hb : Basic k.ipc)
    (hm : ∀ sidx s, Attends k₁ sidx s sid chars.length → Sound k₁ s →
      wp m (fun _ k₂ => AcceptsAll sid chars k₁ k₂) (fun _ _ => False) k₁)
    (hnil : chars = [] → m = pure ()) (hs : k₁.servers = k.servers) (hp : k₁.processes = k.processes)
    (hc : chars = [] ∨ ∃ sidx s, Attends k sidx s sid chars.length) :
    wp m (fun _ k₂ => AcceptsAll sid chars k₁ k₂) (fun _ _ => False) k₁ := by
  rcases hc with hempty | ⟨sidx, s, hk⟩
  · rw [hnil hempty, hempty]
    exact .nil k₁
  · exact hm sidx s (hk.same hs hp) (.of_basic hb hk.server hp)

theorem handsOver_of_idle (hidle : k.typing e = pure ()) (hnone : k.handsOut e = none) : HandsOver k e := by
  intro k₁ _ _ _
  rw [hidle]
  intro sid chars hsome
  rw [hnone] at hsome
  cases hsome

theorem handsOver_chars {chars : List UInt8} (hb : Basic k.ipc)
    (htyping : k.typing e = Exec.each dispatchInputChar chars)
    (hout : k.handsOut e = k.display.inputSid.map fun sid => (sid, chars)) (hc : Receptive k e) :
    HandsOver k e := by
  intro k₁ hs hp hd
  rw [htyping, hout]
  cases hfocus : k.display.inputSid with
  | none =>
    refine wp_mono (bufferChars_noError chars (hd ▸ hfocus)) ?_ fun _ _ h => h
    rintro _ _ - sid chars ⟨⟩
  | some sid =>
    have hsome : k.handsOut e = some (sid, chars) := by rw [hout, hfocus]; rfl
    refine wp_mono (deliverChars_of_receptive hb
      (fun sidx s => dispatchChars_accepts chars (hd ▸ hfocus)) (by rintro rfl; rfl) hs hp
      (hc sid chars hsome)) ?_ fun _ _ h => h
    rintro _ k₂ hall sid' chars' ⟨⟩
    exact hall

theorem receptive_handsOver (hb : Basic k.ipc) (hc : Receptive k e) : HandsOver k e := by
  cases e with
  | svc frame call =>
    cases call with
    | acquireInputFocus sid =>
      by_cases hown : k.display.OwnedBy k.currentPid
      · intro k₁ hs hp hd
        have hsome : k.handsOut (.svc frame (.acquireInputFocus sid)) = some (sid, k.display.inputBuf) := if_pos hown
        rw [typing, if_pos hown, hsome]
        refine wp_mono (deliverChars_of_receptive hb
          (fun sidx s => deliverChars_accepts k.display.inputBuf) (fun hnil => by rw [hnil]; rfl) hs hp
          (hc sid _ hsome)) ?_ fun _ _ h => h
        rintro _ k₂ hall sid' chars' ⟨⟩
        exact hall
      · exact handsOver_of_idle (if_neg hown) (if_neg hown)
    | _ => exact handsOver_of_idle rfl rfl
  | input frame chars | idle chars => exact handsOver_chars hb rfl rfl hc
  | _ => exact handsOver_of_idle rfl rfl

end Kernel

namespace Machine

open Kernel

/-- Somebody types an `a`. -/
def keyEvent : Event := .input frame [97]

end Machine

namespace Kernel

open Machine

end Kernel

end BeetKernel

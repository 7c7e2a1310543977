/-
# Which address the network stack uses

The stack should use an address only after it has been leased to it: a DHCP ACK has been accepted
for the address it asked for.  It does not.  `handle_dhcp` stores the OFFERED address in `ip` at
once, and `handle_arp`, `handle_icmp` and `get_ip` look at nothing but `ip`; falling back to
discovery leaves it there; and an ACK is taken whatever address it names.

In the runs in which nothing goes wrong (`soundRun_iff`) no address is ever asked for: they are the
runs in which the stack never gets one.
-/
import BeetKernel.Net.Stack

namespace BeetKernel.Net

/-! ## 1. Runs -/

/-- What happens to the stack: a frame is taken from the device, or a tick ends. -/
inductive Event where
  | frame (bytes : Bytes)
  | timer (tickCount : Nat)
deriving DecidableEq

/-- One event; `none` is a panic. -/
def Stack.exec (s : Stack) (e : Event) : Option Stack :=
  match s.mac, e with
  | none, _ => some s
  | some _, .frame bytes => s.receive bytes
  | some _, .timer tickCount => some (s.retransmit tickCount)

/-- The DHCP message in a frame, if the frame gets as far as `handle_dhcp`. -/
def dhcpReply (frame : Bytes) : Option DhcpReply :=
  let ip := frame.drop 14
  let udp := ip.drop (Stack.ihl ip)
  if frame.length < 14 ∨ be16 frame 12 ≠ 0x0800 then none
  else if ip.length < 20 ∨ Stack.ihl ip < 20 ∨ ip.length < Stack.ihl ip then none
  else if ip.getD 9 0 ≠ 17 ∨ udp.length ≤ 8 ∨ be16 udp 0 ≠ 67 ∨ be16 udp 2 ≠ 68 then none
  else parseDhcp (bytesAt 4 ip 12) (udp.drop 8)

/-- The message the client goes by at an event: it has the client's transaction number. -/
def Stack.reply (s : Stack) : Event → Option DhcpReply
  | .frame bytes =>
    if s.mac.isNone ∨ bytes.length > 1518 then none
    else (dhcpReply bytes).filter fun r => r.xid == s.state.dhcpXid
  | .timer _ => none

/-- `r` is an OFFER that the client takes up. -/
def NetState.Offered (st : NetState) (r : DhcpReply) : Prop :=
  st.dhcpState = .discovering ∧ r.options.msgType = dhcpMsgOffer

/-- `r` is an ACK that the client accepts. -/
def NetState.Acked (st : NetState) (r : DhcpReply) : Prop := st.dhcpState = .requesting ∧ r.options.msgType = dhcpMsgAck

instance (st : NetState) (r : DhcpReply) : Decidable (st.Offered r) := inferInstanceAs (Decidable (_ ∧ _))

instance (st : NetState) (r : DhcpReply) : Decidable (st.Acked r) := inferInstanceAs (Decidable (_ ∧ _))

/-- The address leased at an event: an accepted ACK names the address that was asked for, which
is the one `send_dhcp_request` sends. -/
def Stack.leased (s : Stack) (e : Event) : List Ip :=
  match s.reply e with
  | some r => if s.state.Acked r ∧ r.yiaddr = s.state.ip then [r.yiaddr] else []
  | none => []

/-- The address a frame asks about: the target of an ARP request, the destination of a packet. -/
def target (frame : Bytes) : Ip :=
  if be16 frame 12 = 0x0806 then bytesAt 4 (frame.drop 14) 24 else bytesAt 4 (frame.drop 14) 16

/-- Nothing but a leased address is used from here on: it is not reported, and no frame that asks
about another is answered.  `leases` are the addresses leased so far. -/
def SoundRun (s : Stack) (leases : List Ip) : List Event → Prop
  | [] => s.getIp = .zero ∨ s.getIp ∈ leases
  | e :: es => (s.getIp = .zero ∨ s.getIp ∈ leases) ∧
    ∀ s', s.exec e = some s' → (∀ bytes, e = .frame bytes → s'.sent ≠ s.sent → target bytes ∈ leases) ∧
      SoundRun s' (leases ++ s.leased e) es

/-- The event brings no address that was not asked for. -/
def Harmless (s : Stack) (e : Event) : Prop := ∀ r, s.reply e = some r → (s.state.Offered r → r.yiaddr = .zero) ∧
    (s.state.Acked r → r.yiaddr = .zero ∨ r.yiaddr = s.state.ip)

def HarmlessRun (s : Stack) : List Event → Prop
  | [] => True
  | e :: es => Harmless s e ∧ ∀ s', s.exec e = some s' → HarmlessRun s' es

/-! ## 2. What one event does -/

namespace Stack

variable {s s' : Stack} {e : Event} {f : Bytes} {r : DhcpReply}

/-- `s'` comes from `s` by the frame `f`, which changes no state and is answered only if it asks
about the address in use. -/
structure Answers (s : Stack) (f : Bytes) (s' : Stack) : Prop where
  mac : s'.mac = s.mac
  state : s'.state = s.state
  sent : s'.sent ≠ s.sent → s.state.ip ≠ .zero ∧ target f = s.state.ip

theorem Answers.refl (s : Stack) (f : Bytes) : s.Answers f s := ⟨rfl, rfl, fun h => absurd rfl h⟩

theorem Answers.sendPacket (hip : ¬ (s.state.ip = .zero ∨ target f ≠ s.state.ip)) (pkt : Bytes) :
    s.Answers f (s.sendPacket pkt) := by
  rw [not_or, not_not] at hip
  exact ⟨rfl, rfl, fun _ => hip⟩

theorem handleArp_answers (s : Stack) (f : Bytes) (harp : be16 f 12 = 0x0806) :
    s.Answers f (s.handleArp (f.drop 14)) := by
  have htarget : target f = bytesAt 4 (f.drop 14) 24 := by rw [target, if_pos harp]
  unfold handleArp
  rw [← htarget]
  split
  · exact .refl s f
  split
  · exact .refl s f
  dsimp only
  split
  · exact .refl s f
  next hours =>
    split
    · exact .refl s f
    · exact .sendPacket hours _

theorem handleIcmp_answers (s : Stack) (f : Bytes) (hip : be16 f 12 = 0x0800) (srcIp : Ip) (icmp : Bytes) :
    s.Answers f (s.handleIcmp f srcIp (bytesAt 4 (f.drop 14) 16) icmp) := by
  have htarget : target f = bytesAt 4 (f.drop 14) 16 := by
    rw [target, if_neg (by omega)]
  rw [← htarget]
  unfold handleIcmp
  dsimp only
  split
  · exact .refl s f
  next hours =>
    split
    · exact .refl s f
    split
    · exact .refl s f
    · split
      · exact .refl s f
      · exact .sendPacket hours _

theorem handleDhcp_spec (s : Stack) (serverIp : Ip) (dhcp : Bytes) :
    (s.handleDhcp serverIp dhcp).mac = s.mac ∧ (s.handleDhcp serverIp dhcp).sent = s.sent ∧
      (s.handleDhcp serverIp dhcp).state =
        ((parseDhcp serverIp dhcp).filter fun r => r.xid == s.state.dhcpXid).elim s.state s.state.accept := by
  unfold handleDhcp
  cases parseDhcp serverIp dhcp with
  | none => simp
  | some r =>
    dsimp only
    by_cases hx : r.xid = s.state.dhcpXid
    · rw [if_neg (by simp [hx])]
      simp [Option.filter, hx]
    · rw [if_pos hx]
      simp [Option.filter, hx]

/-- What the DHCP message `r?` makes of the state, if it has the client's transaction number. -/
def afterReply (st : NetState) (r? : Option DhcpReply) : NetState :=
  (r?.filter fun r => r.xid == st.dhcpXid).elim st st.accept

theorem handleUdp_spec (s : Stack) (srcIp : Ip) (udp : Bytes) :
    (s.handleUdp srcIp udp).mac = s.mac ∧ (s.handleUdp srcIp udp).sent = s.sent ∧
      (s.handleUdp srcIp udp).state = afterReply s.state
        (if udp.length ≤ 8 ∨ be16 udp 0 ≠ 67 ∨ be16 udp 2 ≠ 68 then none
          else parseDhcp srcIp (udp.drop 8)) := by
  unfold handleUdp
  by_cases hports : udp.length ≤ 8 ∨ be16 udp 0 ≠ 67 ∨ be16 udp 2 ≠ 68
  · have hnot : ¬ (be16 udp 0 = 67 ∧ be16 udp 2 = 68 ∧ udp.length > 8) := by omega
    rw [if_neg hnot, ite_self, if_pos hports]
    exact ⟨rfl, rfl, rfl⟩
  · have hyes : be16 udp 0 = 67 ∧ be16 udp 2 = 68 ∧ udp.length > 8 := by omega
    rw [if_neg (by omega), if_pos hyes, if_neg hports]
    exact handleDhcp_spec s srcIp (udp.drop 8)

/-- **A frame** changes the state only through the DHCP message in it, and is answered only if it
asks about the address in use. -/
theorem processFrame_spec (s : Stack) (f : Bytes) : (s.processFrame f).mac = s.mac ∧
    (s.processFrame f).state = afterReply s.state (dhcpReply f) ∧
    ((s.processFrame f).sent ≠ s.sent → s.state.ip ≠ .zero ∧ target f = s.state.ip) := by
  have hquiet : ∀ s', s.Answers f s' → dhcpReply f = none →
      s'.mac = s.mac ∧ s'.state = afterReply s.state (dhcpReply f) ∧
        (s'.sent ≠ s.sent → s.state.ip ≠ .zero ∧ target f = s.state.ip) := by
    intro s' h hnone
    rw [hnone]
    exact ⟨h.mac, h.state, h.sent⟩
  unfold processFrame
  by_cases hshort : f.length < 14
  · rw [if_pos hshort]
    exact hquiet _ (.refl s f) (by rw [dhcpReply, if_pos (.inl hshort)])
  rw [if_neg hshort]
  by_cases harp : be16 f 12 = 0x0806
  · rw [if_pos harp]
    exact hquiet _ (handleArp_answers s f harp) (by rw [dhcpReply, if_pos (.inr (by omega))])
  rw [if_neg harp]
  by_cases hip : be16 f 12 = 0x0800
  swap
  · rw [if_neg hip]
    exact hquiet _ (.refl s f) (by rw [dhcpReply, if_pos (.inr hip)])
  rw [if_pos hip]
  have hframe : ¬ (f.length < 14 ∨ be16 f 12 ≠ 0x0800) := by omega
  unfold handleIpv4
  by_cases hbad : (f.drop 14).length < 20 ∨ ihl (f.drop 14) < 20 ∨ (f.drop 14).length < ihl (f.drop 14)
  · refine hquiet _ ?_ (by rw [dhcpReply, if_neg hframe, if_pos hbad])
    split
    · exact .refl s f
    · rw [if_pos (hbad.resolve_left ‹_›)]
      exact .refl s f
  have hlen := fun h => hbad (.inl h)
  have hihl := fun h => hbad (.inr h)
  rw [if_neg hlen, if_neg hihl]
  dsimp only
  by_cases hicmp : (f.drop 14).getD 9 0 = 1
  · rw [if_pos hicmp]
    refine hquiet _ (handleIcmp_answers s f hip _ _) ?_
    rw [dhcpReply, if_neg hframe, if_neg hbad, if_pos (.inl (by rw [hicmp]; decide))]
  rw [if_neg hicmp]
  by_cases hudp : (f.drop 14).getD 9 0 = 17
  · rw [if_pos hudp]
    obtain ⟨hmac, hsent, hstate⟩ := handleUdp_spec s (bytesAt 4 (f.drop 14) 12) ((f.drop 14).drop (ihl (f.drop 14)))
    refine ⟨hmac, ?_, fun h => absurd hsent h⟩
    rw [hstate, dhcpReply, if_neg hframe, if_neg hbad]
    simp only [hudp, ne_eq, not_true_eq_false, false_or]
  · rw [if_neg hudp]
    exact hquiet _ (.refl s f) (by rw [dhcpReply, if_neg hframe, if_neg hbad, if_pos (.inl hudp)])

/-- Retransmission keeps the address, also when it gives the offer up. -/
theorem retransmit_ip (s : Stack) (t : Nat) : (s.retransmit t).state.ip = s.state.ip := by
  unfold retransmit
  split
  · rfl
  · split
    · unfold sendDhcpDiscover
      split <;> rfl
    · rfl
  · split
    · dsimp only
      split
      · rfl
      · unfold sendDhcpRequest
        split <;> rfl
    · rfl
  · rfl

/-- **The address after an event** is that of the message the client went by. -/
theorem exec_ip (h : s.exec e = some s') : s'.state.ip = ((s.reply e).elim s.state s.state.accept).ip := by
  cases hmac : s.mac with
  | none =>
    have hnone : s.reply e = none := by
      cases e <;> simp [reply, hmac]
    simp only [exec, hmac] at h
    cases h
    rw [hnone]
    rfl
  | some m =>
    cases e with
    | frame f =>
      simp only [exec, hmac, receive] at h
      split at h
      · cases h
      next hlen =>
        cases h
        rw [(processFrame_spec s f).2.1, reply, if_neg (by simp [hmac, hlen])]
        rfl
    | timer t =>
      simp only [exec, hmac] at h
      cases h
      exact retransmit_ip s t

/-- A tick is the run of the frames it finds, ended by the timer. -/
theorem tick_eq_run (s : Stack) (tickCount : Nat) (frames : List Bytes) :
    s.tick tickCount frames = (frames.map Event.frame ++ [Event.timer tickCount]).foldlM exec s := by
  cases hmac : s.mac with
  | none =>
    have hstay : ∀ es : List Event, es.foldlM exec s = some s := by
      intro es
      induction es with
      | nil => rfl
      | cons e es ih => simpa [List.foldlM_cons, exec, hmac] using ih
    rw [hstay, tick, hmac]
  | some m =>
    simp only [tick, hmac]
    induction frames generalizing s with
    | nil => simp [exec, hmac]
    | cons f frames ih =>
      rw [List.map_cons, List.cons_append, List.foldlM_cons, List.foldlM_cons]
      simp only [exec, hmac, receive]
      split
      · rfl
      · exact ih (s.processFrame f) ((processFrame_spec s f).1.trans hmac)

theorem exec_answers (h : s.exec (.frame f) = some s') (hsent : s'.sent ≠ s.sent) :
    s.state.ip ≠ .zero ∧ target f = s.state.ip := by
  unfold exec at h
  split at h
  · cases h
    exact absurd rfl hsent
  next f' hmac hf =>
    cases hf
    unfold receive at h
    split at h
    · cases h
    · cases h
      exact (processFrame_spec s f).2.2 hsent
  next hf =>
    cases hf

theorem accept_ip (st : NetState) (r : DhcpReply) :
    (st.accept r).ip = if st.Offered r ∨ st.Acked r then r.yiaddr else st.ip := by
  unfold NetState.accept NetState.Offered NetState.Acked
  split
  next hoffer =>
    rw [if_pos (.inl hoffer)]
  next hoffer =>
    split
    next hack =>
      rw [if_pos (.inr hack)]
    next hack =>
      rw [if_neg (not_or.mpr ⟨hoffer, hack⟩)]

/-! ## 3. Runs without an address -/

theorem exec_zero_iff (hzero : s.state.ip = .zero) (h : s.exec e = some s') : s'.state.ip = .zero ↔ Harmless s e := by
  rw [exec_ip h]
  cases hreply : s.reply e with
  | none =>
    simp only [Option.elim_none, hzero, true_iff]
    intro r hr
    rw [hreply] at hr
    cases hr
  | some r =>
    have hiff : Harmless s e ↔ (s.state.Offered r ∨ s.state.Acked r → r.yiaddr = .zero) := by
      unfold Harmless
      rw [hreply, hzero]
      constructor
      · rintro hall (hoffer | hack)
        · exact (hall r rfl).1 hoffer
        · exact ((hall r rfl).2 hack).elim id id
      · rintro hall _ ⟨⟩
        exact ⟨fun hoffer => hall (.inl hoffer), fun hack => .inl (hall (.inr hack))⟩
    rw [hiff, Option.elim_some, accept_ip]
    split
    next hnew =>
      exact ⟨fun hz _ => hz, fun himp => himp hnew⟩
    next hnew =>
      exact ⟨fun _ hnew' => absurd hnew' hnew, fun _ => hzero⟩

/-- Only the zero address is leased while no address is in use. -/
theorem leased_zero (hzero : s.state.ip = .zero) (e : Event) : ∀ a ∈ s.leased e, a = .zero := by
  intro a ha
  unfold leased at ha
  split at ha
  · split at ha
    next hack =>
      rw [List.mem_singleton.mp ha, hack.2, hzero]
    · cases ha
  · cases ha

theorem exec_of_not_harmless (h : ¬ Harmless s e) : ∃ s', s.exec e = some s' := by
  unfold exec
  split
  · exact ⟨_, rfl⟩
  next m f hmac =>
    unfold receive
    split
    next hlong =>
      refine absurd (fun r hr => ?_) h
      rw [reply, if_pos (.inr hlong)] at hr
      cases hr
    · exact ⟨_, rfl⟩
  · exact ⟨_, rfl⟩

theorem soundRun_iff_of_zero (es : List Event) {leases : List Ip}
    (hzero : s.state.ip = .zero) (hleases : ∀ a ∈ leases, a = .zero) :
    SoundRun s leases es ↔ HarmlessRun s es := by
  induction es generalizing s leases with
  | nil => exact iff_of_true (.inl hzero) trivial
  | cons e es ih =>
    have hleases' : ∀ a ∈ leases ++ s.leased e, a = .zero := fun a ha =>
      (List.mem_append.mp ha).elim (hleases a) (leased_zero hzero e a)
    constructor
    · rintro ⟨-, hnext⟩
      have hharm : ∀ s', s.exec e = some s' → Harmless s e ∧ HarmlessRun s' es := by
        intro s' hexec
        obtain ⟨-, hrun⟩ := hnext s' hexec
        have hip : s'.getIp = .zero ∨ s'.getIp ∈ leases ++ s.leased e := by
          cases es with
          | nil => exact hrun
          | cons _ _ => exact hrun.1
        have hzero' : s'.state.ip = .zero := hip.elim id (hleases' _)
        exact ⟨(exec_zero_iff hzero hexec).mp hzero', (ih hzero' hleases').mp hrun⟩
      refine ⟨?_, fun s' hexec => (hharm s' hexec).2⟩
      by_contra hbad
      obtain ⟨s', hexec⟩ := exec_of_not_harmless hbad
      exact hbad (hharm s' hexec).1
    · rintro ⟨hharm, hnext⟩
      refine ⟨.inl hzero, fun s' hexec => ⟨?_, ?_⟩⟩
      · rintro f rfl hsent
        exact absurd hzero (exec_answers hexec hsent).1
      · exact (ih ((exec_zero_iff hzero hexec).mpr hharm) hleases').mpr (hnext s' hexec)

theorem init_ip (mac : Option Mac) : (init mac).state.ip = .zero := by
  cases mac <;> rfl

/-- **Only leased addresses are used, in every run of frames and ticks**, if and only if no OFFER
of an address is ever taken up and no ACK of another address than the one asked for is accepted. -/
theorem soundRun_iff (mac : Option Mac) (es : List Event) : SoundRun (init mac) [] es ↔ HarmlessRun (init mac) es :=
  soundRun_iff_of_zero es (init_ip mac) (by simp)

/-! ## 4. An offer that is used -/

/-- The address 10.0.2.15. -/
def offeredIp : Ip := ⟨#[10, 0, 2, 15], rfl⟩

/-- The device's address 52:54:00:12:34:56. -/
def qemuMac : Mac := ⟨#[0x52, 0x54, 0x00, 0x12, 0x34, 0x56], rfl⟩

/-- An OFFER of 10.0.2.15 by 10.0.2.2, as it arrives. -/
def offerFrame : Bytes := List.replicate 12 0 ++ [0x08, 0x00]
    ++ [0x45, 0, 0, 0, 0, 0, 0, 0, 64, 17, 0, 0, 10, 0, 2, 2, 255, 255, 255, 255]
    ++ toBe16 67 ++ toBe16 68 ++ [0, 0, 0, 0]
    ++ [2, 1, 6, 0, 0x00, 0x12, 0x34, 0x56] ++ List.replicate 8 0 ++ [10, 0, 2, 15]
    ++ List.replicate 216 0 ++ dhcpMagic ++ [53, 1, 2, 255]

/-- Who has 10.0.2.15? -/
def arpFrame : Bytes :=
  List.replicate 12 0 ++ [0x08, 0x06] ++ [0, 1, 8, 0, 6, 4, 0, 1] ++ List.replicate 16 0 ++ [10, 0, 2, 15]

/-- The stack after the offer. -/
def offeredStack : Stack := (init (some qemuMac)).processFrame offerFrame

theorem offeredStack_ip : offeredStack.getIp = offeredIp := by decide +kernel

/-- **An offered address is in use before it is leased**: it is reported, and an ARP request for
it is answered, although nothing has been acknowledged. -/
theorem offer_used : ¬ SoundRun (init (some qemuMac)) [] [.frame offerFrame, .frame arpFrame] ∧
      (init (some qemuMac)).exec (.frame offerFrame) = some offeredStack ∧
      (init (some qemuMac)).leased (.frame offerFrame) = [] ∧
      (offeredStack.processFrame arpFrame).sent = [arpReply qemuMac offeredIp (.replicate 6 0) (.replicate 4 0)] := by
  have hexec : (init (some qemuMac)).exec (.frame offerFrame) = some offeredStack := by decide +kernel
  have hleased : (init (some qemuMac)).leased (.frame offerFrame) = [] := by decide +kernel
  refine ⟨?_, hexec, hleased, by decide +kernel⟩
  rintro ⟨-, hnext⟩
  obtain ⟨-, hrun⟩ := hnext _ hexec
  have hip := hrun.1
  rw [hleased, offeredStack_ip] at hip
  rcases hip with hip | hip
  · exact absurd hip (by decide)
  · cases hip

end Stack

end BeetKernel.Net

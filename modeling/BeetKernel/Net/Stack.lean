/-
# The network stack of the kernel

`platform/qemu_virt/net_stack.rs`: a DHCP client that also answers ARP requests and pings.  All
its state is one record, `NetState`; what it hands to the driver and to the console is collected
in `sent` and `console`.  `tick` is called at every timer tick.  It processes the frames that
have arrived and then retransmits if the client is waiting for an answer.

The driver is not modelled.  `mac` is what `net::get_mac` answers, and the frames a tick finds
are given to it.  A frame longer than 1518 bytes makes `copy_from_slice` panic.
-/
import Mathlib.Data.List.Basic

namespace BeetKernel.Net

/-! ## 1. Bytes -/

abbrev Bytes := List UInt8

/-- `N` bytes of a packet, from `o` on: `b[o..o + N].try_into()`. -/
def bytesAt (n : Nat) (b : Bytes) (o : Nat) : Vector UInt8 n := .ofFn fun i => b.getD (o + i) 0

/-- `b[i..j]` -/
def slice (b : Bytes) (i j : Nat) : Bytes := (b.drop i).take (j - i)

/-- `u16::from_be_bytes` -/
def be16 (b : Bytes) (o : Nat) : Nat := (b.getD o 0).toNat * 256 + (b.getD (o + 1) 0).toNat

/-- `u32::from_be_bytes` -/
def be32 (b : Bytes) (o : Nat) : Nat := be16 b o * 65536 + be16 b (o + 2)

/-- `u16::to_be_bytes` -/
def toBe16 (n : Nat) : Bytes := [UInt8.ofNat (n / 256), UInt8.ofNat n]

/-- `u32::to_be_bytes` -/
def toBe32 (n : Nat) : Bytes := toBe16 (n / 65536) ++ toBe16 (n % 65536)

abbrev Ip := Vector UInt8 4
abbrev Mac := Vector UInt8 6

/-- `[0, 0, 0, 0]` -/
def Ip.zero : Ip := .replicate 4 0

/-! ## 2. The internet checksum -/

/-- The sum of the big-endian words; an odd last byte is the high half of a word. -/
def wordSum : Bytes → Nat
  | [] => 0
  | [b] => b.toNat * 256
  | b :: b' :: rest => b.toNat * 256 + b'.toNat + wordSum rest

/-- `while sum >> 16 != 0`.  A sum of 32 bits is folded in two rounds. -/
def foldCarry : Nat → Nat → Nat
  | 0, sum => sum
  | n + 1, sum => if sum / 65536 = 0 then sum else foldCarry n (sum % 65536 + sum / 65536)

def internetChecksum (data : Bytes) : Nat := 65535 - foldCarry 32 (wordSum data)

/-! ## 3. The state -/

inductive DhcpState where
  | init
  | discovering
  | requesting
  | bound
deriving DecidableEq, Repr

structure NetState where
  ip : Ip
  gateway : Ip
  serverIp : Ip
  dhcpState : DhcpState
  dhcpXid : Nat
  dhcpRetry : Nat
  reqRetries : Nat
deriving DecidableEq

/-- `static mut STATE` -/
def NetState.start : NetState where
  ip := .zero
  gateway := .zero
  serverIp := .zero
  dhcpState := .init
  dhcpXid := 0
  dhcpRetry := 0
  reqRetries := 0

def dhcpRetryTicks : Nat := 200

/-- The stack with what it shares with the driver. -/
structure Stack where
  mac : Option Mac
  state : NetState
  /-- Frames given to `net::send_packet`, oldest first. -/
  sent : List Bytes
  /-- Lines written to the console, oldest first. -/
  console : List String
deriving DecidableEq

namespace Stack

def sendPacket (s : Stack) (frame : Bytes) : Stack := { s with sent := s.sent ++ [frame] }

def init (mac : Option Mac) : Stack where
  mac := mac
  state := match mac with
    | some m => { NetState.start with
        dhcpXid := be32 m.toList 2
        dhcpState := .discovering
        dhcpRetry := 0 }
    | none => .start
  sent := []
  console := []

def getIp (s : Stack) : Ip := s.state.ip

/-! ## 4. ARP and ICMP -/

/-- The reply that `handle_arp` builds. -/
def arpReply (ourMac : Mac) (ourIp : Ip) (senderMac : Mac) (senderIp : Ip) : Bytes :=
  senderMac.toList ++ ourMac.toList ++ [0x08, 0x06] ++ [0x00, 0x01] ++ [0x08, 0x00] ++ [6, 4] ++ [0x00, 0x02]
    ++ ourMac.toList ++ ourIp.toList ++ senderMac.toList ++ senderIp.toList

def handleArp (s : Stack) (arp : Bytes) : Stack :=
  if arp.length < 28 then s
  else if be16 arp 6 ≠ 1 then s
  else
    let targetIp : Ip := bytesAt 4 arp 24
    let ourIp := s.state.ip
    if ourIp = .zero ∨ targetIp ≠ ourIp then s
    else match s.mac with
      | none => s
      | some ourMac => s.sendPacket (arpReply ourMac ourIp (bytesAt 6 arp 8) (bytesAt 4 arp 14))

/-- The IPv4 header of an echo reply with the given checksum. -/
def echoIpHeader (ourIp srcIp : Ip) (payloadLen checksum : Nat) : Bytes :=
  [0x45, 0] ++ toBe16 ((20 + payloadLen) % 65536) ++ [0, 0] ++ [0, 0] ++ [64, 1] ++ toBe16 checksum
    ++ ourIp.toList ++ srcIp.toList

/-- The reply that `handle_icmp` builds: same identifier, sequence number and data. -/
def echoReply (ourMac srcMac : Mac) (ourIp srcIp : Ip) (icmp : Bytes) : Bytes :=
  let header := echoIpHeader ourIp srcIp icmp.length
  let body := fun checksum => [0, 0] ++ toBe16 checksum ++ icmp.drop 4
  srcMac.toList ++ ourMac.toList ++ [0x08, 0x00]
    ++ header (internetChecksum (header 0)) ++ body (internetChecksum (body 0))

def handleIcmp (s : Stack) (frame : Bytes) (srcIp dstIp : Ip) (icmp : Bytes) : Stack :=
  let ourIp := s.state.ip
  if ourIp = .zero ∨ dstIp ≠ ourIp then s
  else if icmp.length < 8 ∨ icmp.getD 0 0 ≠ 8 then s
  else match s.mac with
    | none => s
    | some ourMac =>
      if 14 + 20 + icmp.length > 1518 then s
      else s.sendPacket (echoReply ourMac (bytesAt 6 frame 6) ourIp srcIp icmp)

end Stack

/-! ## 5. DHCP -/

def dhcpMagic : Bytes := [99, 130, 83, 99]
def dhcpOptMsgType : UInt8 := 53
def dhcpOptServerId : UInt8 := 54
def dhcpOptRequestedIp : UInt8 := 50
def dhcpOptSubnetMask : UInt8 := 1
def dhcpOptRouter : UInt8 := 3
def dhcpMsgOffer : UInt8 := 2
def dhcpMsgAck : UInt8 := 5

/-- What the loop over the options fills in. -/
structure Options where
  msgType : UInt8
  offeredServerIp : Ip
  router : Ip
deriving DecidableEq

/-- One option, whose `len` bytes are `data`. -/
def Options.read (o : Options) (opt : UInt8) (data : Bytes) : Options :=
  if opt = dhcpOptMsgType ∧ 1 ≤ data.length then { o with msgType := data.getD 0 0 }
  else if opt = dhcpOptServerId ∧ 4 ≤ data.length then { o with offeredServerIp := bytesAt 4 data 0 }
  else if opt = dhcpOptRouter ∧ 4 ≤ data.length then { o with router := bytesAt 4 data 0 }
  else o

/-- `while i < dhcp.len()`, over the bytes from `i` on.  A round takes at least one of them, so
as many rounds as there are bytes are enough. -/
def parseOptions : Nat → Bytes → Options → Options
  | 0, _, o => o
  | _ + 1, [], o => o
  | n + 1, opt :: rest, o =>
    if opt = 0 then parseOptions n rest o
    else if opt = 255 then o
    else match rest with
      | [] => o
      | len :: data =>
        if data.length < len.toNat then o
        else parseOptions n (data.drop len.toNat) (o.read opt (data.take len.toNat))

/-- What the client takes from a DHCP message. -/
structure DhcpReply where
  xid : Nat
  yiaddr : Ip
  options : Options
deriving DecidableEq

/-- The part of `handle_dhcp` that reads the message. -/
def parseDhcp (serverIp : Ip) (dhcp : Bytes) : Option DhcpReply :=
  if dhcp.length < 240 then none
  else if dhcp.getD 0 0 ≠ 2 ∨ slice dhcp 236 240 ≠ dhcpMagic then none
  else some {
    xid := be32 dhcp 4
    yiaddr := bytesAt 4 dhcp 16
    options := parseOptions dhcp.length (dhcp.drop 240)
      { msgType := 0, offeredServerIp := serverIp, router := .zero } }

/-- The part of `handle_dhcp` that changes the state. -/
def NetState.accept (st : NetState) (r : DhcpReply) : NetState :=
  if st.dhcpState = .discovering ∧ r.options.msgType = dhcpMsgOffer then
    { st with
      ip := r.yiaddr
      serverIp := r.options.offeredServerIp
      gateway := r.options.router
      dhcpState := .requesting
      reqRetries := 0
      dhcpRetry := 0 }
  else if st.dhcpState = .requesting ∧ r.options.msgType = dhcpMsgAck then
    { st with
      ip := r.yiaddr
      serverIp := r.options.offeredServerIp
      gateway := r.options.router
      dhcpState := .bound }
  else st

/-- `{}.{}.{}.{}` -/
def Ip.text (ip : Ip) : String := String.intercalate "." (ip.toList.map fun b => toString b.toNat)

/-- The line written when the client is bound. -/
def boundLine (r : DhcpReply) : String := "virtio-net: IP=" ++ r.yiaddr.text ++ " GW=" ++ r.options.router.text ++ "\n"

namespace Stack

def handleDhcp (s : Stack) (serverIp : Ip) (dhcp : Bytes) : Stack :=
  match parseDhcp serverIp dhcp with
  | none => s
  | some r =>
    if r.xid ≠ s.state.dhcpXid then s
    else { s with
      state := s.state.accept r
      console := if s.state.dhcpState = .requesting ∧ r.options.msgType = dhcpMsgAck
        then s.console ++ [boundLine r] else s.console }

/-! ## 6. Frames -/

/-- `handle_udp`; a DHCP answer goes from port 67 to port 68. -/
def handleUdp (s : Stack) (srcIp : Ip) (udp : Bytes) : Stack :=
  if udp.length < 8 then s
  else if be16 udp 0 = 67 ∧ be16 udp 2 = 68 ∧ udp.length > 8 then s.handleDhcp srcIp (udp.drop 8)
  else s

/-- `ihl` in `handle_ipv4` -/
def ihl (ip : Bytes) : Nat := ((ip.getD 0 0) &&& 0x0F).toNat * 4

def handleIpv4 (s : Stack) (frame ip : Bytes) : Stack :=
  if ip.length < 20 then s
  else if ihl ip < 20 ∨ ip.length < ihl ip then s
  else
    let proto := ip.getD 9 0
    let srcIp : Ip := bytesAt 4 ip 12
    let dstIp : Ip := bytesAt 4 ip 16
    let payload := ip.drop (ihl ip)
    if proto = 1 then s.handleIcmp frame srcIp dstIp payload
    else if proto = 17 then s.handleUdp srcIp payload
    else s

def processFrame (s : Stack) (frame : Bytes) : Stack :=
  if frame.length < 14 then s
  else if be16 frame 12 = 0x0806 then s.handleArp (frame.drop 14)
  else if be16 frame 12 = 0x0800 then s.handleIpv4 frame (frame.drop 14)
  else s

/-! ## 7. Requests and ticks -/

/-- `build_dhcp_eth_ip_udp` with the checksum that `finalize_ipv4_checksum` fills in, up to the
options. -/
def dhcpHeader (mac : Mac) (xid : Nat) : Bytes :=
  let udpPayloadLen := 8 + 236 + 4 + 56
  let ipHeader := fun checksum =>
    [0x45, 0x10] ++ toBe16 (20 + udpPayloadLen) ++ [0x00, 0xAB] ++ [0, 0] ++ [64, 17] ++ toBe16 checksum
      ++ [0, 0, 0, 0] ++ [255, 255, 255, 255]
  List.replicate 6 0xFF ++ mac.toList ++ [0x08, 0x00] ++ ipHeader (internetChecksum (ipHeader 0))
    ++ toBe16 68 ++ toBe16 67 ++ toBe16 udpPayloadLen ++ [0, 0]
    ++ [1, 1, 6, 0] ++ toBe32 xid ++ [0, 0] ++ [0x80, 0x00] ++ List.replicate 16 0
    ++ mac.toList ++ List.replicate (236 - 34) 0 ++ dhcpMagic

/-- A request with its options; the packet has room for 56 bytes of them. -/
def dhcpPacket (mac : Mac) (xid : Nat) (options : Bytes) : Bytes :=
  dhcpHeader mac xid ++ options ++ List.replicate (56 - options.length) 0

def sendDhcpDiscover (s : Stack) : Stack :=
  match s.mac with
  | none => s
  | some mac => s.sendPacket (dhcpPacket mac s.state.dhcpXid
      [dhcpOptMsgType, 1, 1, 55, 2, dhcpOptSubnetMask, dhcpOptRouter, 255])

def sendDhcpRequest (s : Stack) (requestedIp serverIp : Ip) : Stack :=
  match s.mac with
  | none => s
  | some mac => s.sendPacket (dhcpPacket mac s.state.dhcpXid
      ([dhcpOptMsgType, 1, 3] ++ [dhcpOptRequestedIp, 4] ++ requestedIp.toList
        ++ [dhcpOptServerId, 4] ++ serverIp.toList ++ [255]))

/-- Sets `dhcp_retry`. -/
def retryAt (s : Stack) (t : Nat) : Stack := { s with state := { s.state with dhcpRetry := t } }

/-- The second half of `tick`: retransmission. -/
def retransmit (s : Stack) (tickCount : Nat) : Stack :=
  match s.state.dhcpState with
  | .init => s
  | .discovering =>
    if tickCount ≥ s.state.dhcpRetry then s.sendDhcpDiscover.retryAt (tickCount + dhcpRetryTicks) else s
  | .requesting =>
    if tickCount ≥ s.state.dhcpRetry then
      let s := { s with state := { s.state with reqRetries := s.state.reqRetries + 1 } }
      if s.state.reqRetries > 3 then
        { s with state := { s.state with
            dhcpState := .discovering
            reqRetries := 0
            dhcpRetry := tickCount + dhcpRetryTicks } }
      else (s.sendDhcpRequest s.state.ip s.state.serverIp).retryAt (tickCount + dhcpRetryTicks)
    else s
  | .bound => s

/-- One frame found by `tick`.  It is copied to a buffer of 1518 bytes first, which panics for a
longer one. -/
def receive (s : Stack) (frame : Bytes) : Option Stack :=
  if frame.length > 1518 then none else some (s.processFrame frame)

/-- `tick` with the frames it finds; `none` is a panic. -/
def tick (s : Stack) (tickCount : Nat) (frames : List Bytes) : Option Stack :=
  match s.mac with
  | none => some s
  | some _ => do
    let s ← frames.foldlM receive s
    pure (s.retransmit tickCount)

end Stack

end BeetKernel.Net

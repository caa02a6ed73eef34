import Solaya.Net.Packets

/-!
# The receive path

`process_packet` in `net/mod.rs` with `process_ipv4_packet` and
`arp::process_and_respond`, up to the point where a datagram is handed to
`OpenSockets::put_data` and a segment, once `TcpHeader::process` has parsed it
inside `process_tcp_packet`, to the connection tables.  What happens after the
hand-off is modelled with the socket and connection tables.

The stack state the path reads is our address, the NIC's MAC and the ARP
cache.  `processPacket` returns `none` where the kernel panics.  Besides the
length arithmetic of the header parsers, the path panics on purpose: the
`assert!`s of `IpV4Header::process` and `process_and_respond` reject what the
stack does not support, and `process_ipv4_packet` `expect`s the IPv4 and UDP
parsers to succeed.

`processPacket_isSome_iff` says exactly which frames return: every frame the
Ethernet layer drops, an ARP request for any address, and an IPv4 frame that
passes the IPv4 assertions and then either carries a UDP datagram that passes
the UDP checks, whose length field is at least 8, or a TCP segment whose IPv4
total length is at least 20 plus its TCP header length unless the segment is
dropped before that subtraction.
-/

namespace Solaya.Net

open Solaya.Bytes

/-! ## ARP -/

/-- `ArpPacket`, 28 bytes. -/
structure ArpPacket where
  hardwareAddressType : UInt16
  protocolAddressType : UInt16
  hardwareAddressLength : UInt8
  protocolAddressLength : UInt8
  operation : UInt16
  sourceMacAddress : MacAddress
  sourceIpAddress : Ipv4Addr
  destinationMacAddress : MacAddress
  destinationIpAddress : Ipv4Addr
  deriving DecidableEq, Repr

/-- `ARP_REQUEST`. -/
def ARP_REQUEST : UInt16 := 1

/-- `ARP_RESPONSE`. -/
def ARP_RESPONSE : UInt16 := 2

/-- `HARDWARE_ADDRESS_TYPE_ETHERNET`. -/
def HARDWARE_ADDRESS_TYPE_ETHERNET : UInt16 := 1

/-- `PROTOCOL_ADDRESS_TYPE_IPV4`. -/
def PROTOCOL_ADDRESS_TYPE_IPV4 : UInt16 := 0x0800

namespace ArpPacket

def SIZE : ℕ := 28

def asSlice (packet : ArpPacket) : List UInt8 :=
  encodeBE 2 packet.hardwareAddressType.toNat ++ encodeBE 2 packet.protocolAddressType.toNat ++
    encodeBE 1 packet.hardwareAddressLength.toNat ++ encodeBE 1 packet.protocolAddressLength.toNat ++
    encodeBE 2 packet.operation.toNat ++ packet.sourceMacAddress.octets ++
    packet.sourceIpAddress.octets ++ packet.destinationMacAddress.octets ++
    packet.destinationIpAddress.octets

def read (bytes : List UInt8) : ArpPacket where
  hardwareAddressType := UInt16.ofNat (readBE bytes 0 2)
  protocolAddressType := UInt16.ofNat (readBE bytes 2 2)
  hardwareAddressLength := UInt8.ofNat (readBE bytes 4 1)
  protocolAddressLength := UInt8.ofNat (readBE bytes 5 1)
  operation := UInt16.ofNat (readBE bytes 6 2)
  sourceMacAddress := MacAddress.read bytes 8
  sourceIpAddress := Ipv4Addr.read bytes 14
  destinationMacAddress := MacAddress.read bytes 18
  destinationIpAddress := Ipv4Addr.read bytes 24

/-- `ArpPacket::new_reply`; `ourMac` is `current_mac_address()` and `ourIp`
is `super::ip_addr()`. -/
def newReply (ourMac : MacAddress) (ourIp : Ipv4Addr) (destinationMacAddress : MacAddress)
    (destinationIpAddress : Ipv4Addr) : ArpPacket where
  hardwareAddressType := HARDWARE_ADDRESS_TYPE_ETHERNET
  protocolAddressType := PROTOCOL_ADDRESS_TYPE_IPV4
  hardwareAddressLength := 6
  protocolAddressLength := 4
  operation := ARP_RESPONSE
  sourceMacAddress := ourMac
  sourceIpAddress := ourIp
  destinationMacAddress := destinationMacAddress
  destinationIpAddress := destinationIpAddress

/-- What `process_and_respond` asserts of a received ARP packet: it is long
enough, it is an Ethernet/IPv4 packet, and it is a request. -/
def Supported (data : List UInt8) : Prop :=
  SIZE ≤ data.length ∧ (read data).hardwareAddressType = HARDWARE_ADDRESS_TYPE_ETHERNET ∧
    (read data).protocolAddressType = PROTOCOL_ADDRESS_TYPE_IPV4 ∧
    (read data).hardwareAddressLength = 6 ∧ (read data).protocolAddressLength = 4 ∧
    (read data).operation = ARP_REQUEST

instance (data : List UInt8) : Decidable (Supported data) :=
  inferInstanceAs (Decidable (_ ∧ _))

end ArpPacket

/-! ## The stack -/

/-- The state the receive path reads and writes: `NETWORK_STACK.ip_addr`, the
NIC's MAC address and `ARP_CACHE`. -/
structure NetworkStack where
  ipAddr : Ipv4Addr
  macAddress : MacAddress
  arpCache : Ipv4Addr → Option MacAddress

/-- `arp::cache_insert` (`BTreeMap::insert`, which replaces an entry). -/
def NetworkStack.cacheInsert (stack : NetworkStack) (ip : Ipv4Addr) (mac : MacAddress) :
    NetworkStack :=
  { stack with arpCache := fun other => if other = ip then some mac else stack.arpCache other }

/-- Where a received frame ends. -/
inductive Delivery where
  /-- Not for us or not parseable at the Ethernet layer, a TCP segment that
  `TcpHeader::process` rejects, or an ARP request for another address. -/
  | dropped
  /-- The ARP reply frame handed to `send_packet`. -/
  | arpReply (frame : List UInt8)
  /-- `open_sockets().lock().put_data(source_ip, source_port, destination_port, data)`. -/
  | udp (sourceIp : Ipv4Addr) (sourcePort destinationPort : UInt16) (data : List UInt8)
  /-- The segment `process_tcp_packet` goes on with after parsing it. -/
  | tcp (ipHeader : IpV4Header) (tcpHeader : TcpHeader) (payload : List UInt8)
      (sourceMac : MacAddress)

/-- `arp::process_and_respond`: every `assert!` is a panic; a request for our
address is cached and answered. -/
def processAndRespond (stack : NetworkStack) (data : List UInt8) :
    Option (NetworkStack × Delivery) :=
  if ¬ArpPacket.Supported data then none
  else
    let arpHeader := ArpPacket.read data
    if arpHeader.destinationIpAddress ≠ stack.ipAddr then some (stack, .dropped)
    else
      let stack := stack.cacheInsert arpHeader.sourceIpAddress arpHeader.sourceMacAddress
      let arpReply := ArpPacket.newReply stack.macAddress stack.ipAddr
        arpHeader.sourceMacAddress arpHeader.sourceIpAddress
      let ethernetReply := EthernetHeader.new arpHeader.sourceMacAddress stack.macAddress .arp
      some (stack, .arpReply (ethernetReply.asSlice ++ arpReply.asSlice))

/-- `process_tcp_packet` up to its parse: a parse error drops the segment. -/
def processTcpPacketHeader (ipHeader : IpV4Header) (data : List UInt8) (sourceMac : MacAddress) :
    Option Delivery :=
  match TcpHeader.process data ipHeader with
  | none => none
  | some (.error _) => some .dropped
  | some (.ok (tcpHeader, payload)) => some (.tcp ipHeader tcpHeader payload sourceMac)

/-- `process_ipv4_packet`: both parsers are `expect`ed to succeed. -/
def processIpv4Packet (stack : NetworkStack) (data : List UInt8) (sourceMac : MacAddress) :
    Option (NetworkStack × Delivery) :=
  match IpV4Header.process stack.ipAddr data with
  | some (.ok (ipv4Header, rest)) =>
    let stack := stack.cacheInsert ipv4Header.sourceIp sourceMac
    if ipv4Header.upperProtocol = PROTOCOL_UDP then
      match UdpHeader.process rest ipv4Header with
      | some (.ok (udpHeader, data)) =>
        some (stack, .udp ipv4Header.sourceIp udpHeader.sourcePort udpHeader.destinationPort data)
      | _ => none
    else if ipv4Header.upperProtocol = PROTOCOL_TCP then
      (processTcpPacketHeader ipv4Header rest sourceMac).map fun delivery => (stack, delivery)
    else some (stack, .dropped)
  | _ => none

/-- `process_packet`.  `ether_type()` `expect`s the type `try_parse` has
already checked. -/
def processPacket (stack : NetworkStack) (packet : List UInt8) :
    Option (NetworkStack × Delivery) :=
  match EthernetHeader.tryParse stack.macAddress packet with
  | .error _ => some (stack, .dropped)
  | .ok (ethernetHeader, rest) =>
    match EtherTypes.tryFrom ethernetHeader.etherType with
    | .error _ => none
    | .ok .arp => processAndRespond stack rest
    | .ok .ipv4 => processIpv4Packet stack rest ethernetHeader.sourceMac

/-! ## Which frames each layer returns on -/

/-- What the assertions of `IpV4Header::process` require of a packet that is
at least 20 bytes long.  The fragment test reads bit 2 of the flags-and-offset
word, as the source does. -/
def IpV4Header.Supported (ourIp : Ipv4Addr) (data : List UInt8) : Prop :=
  IpV4Header.HEADER_SIZE ≤ data.length ∧ (IpV4Header.read data).versionAndIhl >>> 4 = 4 ∧
    (IpV4Header.read data).versionAndIhl &&& 0x0F = 5 ∧
    (IpV4Header.read data).totalPacketLength.toNat ≤ data.length ∧
    (IpV4Header.read data).flagsAndOffset &&& 0b100 = 0 ∧
    ((IpV4Header.read data).destinationIp = ourIp ∨
      (IpV4Header.read data).destinationIp = Ipv4Addr.BROADCAST ∨ ourIp = Ipv4Addr.UNSPECIFIED) ∧
    ((IpV4Header.read data).upperProtocol = PROTOCOL_UDP ∨
      (IpV4Header.read data).upperProtocol = PROTOCOL_TCP) ∧
    (IpV4Header.read data).checksumCorrect = true

instance (ourIp : Ipv4Addr) (data : List UInt8) : Decidable (IpV4Header.Supported ourIp data) :=
  inferInstanceAs (Decidable (_ ∧ _))

theorem IpV4Header.process_of_supported {ourIp : Ipv4Addr} {data : List UInt8}
    (h : IpV4Header.Supported ourIp data) :
    IpV4Header.process ourIp data = some (.ok (IpV4Header.read data, data.drop HEADER_SIZE)) := by
  obtain ⟨hlength, hversion, hihl, htotal, hfragment, hdestination, hprotocol, hchecksum⟩ := h
  simp [IpV4Header.process, hversion, hihl, hfragment, hdestination, hprotocol, hchecksum,
    Nat.not_lt.mpr hlength, Nat.not_lt.mpr htotal]

theorem IpV4Header.supported_of_process {ourIp : Ipv4Addr} {data : List UInt8}
    {result : IpV4Header × List UInt8}
    (h : IpV4Header.process ourIp data = some (.ok result)) : IpV4Header.Supported ourIp data := by
  simp only [IpV4Header.process] at h
  split_ifs at h with hlength hversion hihl htotal hfragment hdestination hprotocol hchecksum
  · simp at h
  exact ⟨Nat.le_of_not_lt hlength, not_not.mp hversion, not_not.mp hihl, Nat.le_of_not_lt htotal,
    not_not.mp hfragment, hdestination, hprotocol,
    by simpa using hchecksum⟩

/-- What `UdpHeader::process` requires to return `Ok`: a whole header, a
length field between 8 and the bytes present, and a checksum that is absent or
verifies. -/
def UdpHeader.Accepted (data : List UInt8) (ipHeader : IpV4Header) : Prop :=
  UdpHeader.UDP_HEADER_SIZE ≤ data.length ∧
    UdpHeader.UDP_HEADER_SIZE ≤ (UdpHeader.read data).length.toNat ∧
    (UdpHeader.read data).length.toNat ≤ data.length ∧
    ((UdpHeader.read data).checksum = 0 ∨
      UdpHeader.computeChecksum ((data.drop 8).take ((UdpHeader.read data).length.toNat - 8))
        (UdpHeader.read data) ipHeader = some 0)

instance (data : List UInt8) (ipHeader : IpV4Header) : Decidable (UdpHeader.Accepted data ipHeader) :=
  inferInstanceAs (Decidable (_ ∧ _))

theorem UdpHeader.process_of_accepted {data : List UInt8} {ipHeader : IpV4Header}
    (h : UdpHeader.Accepted data ipHeader) :
    UdpHeader.process data ipHeader = some (.ok (UdpHeader.read data,
      (data.drop 8).take ((UdpHeader.read data).length.toNat - 8))) := by
  obtain ⟨hlong, hmin, hcover, hchecksum⟩ := h
  simp only [UdpHeader.UDP_HEADER_SIZE] at hlong hmin hcover hchecksum
  have hsub : checkedSub (UdpHeader.read data).length.toNat 8 =
      some ((UdpHeader.read data).length.toNat - 8) := checkedSub_of_le hmin
  -- the checksum is checked only when the field is non-zero
  by_cases hzero : (UdpHeader.read data).checksum = 0
  · simp [UdpHeader.process, UdpHeader.UDP_HEADER_SIZE, hsub, hzero, Nat.not_lt.mpr hlong]
    omega
  · have hverify := hchecksum.resolve_left hzero
    simp [UdpHeader.process, UdpHeader.UDP_HEADER_SIZE, hsub, hzero, hverify,
      Nat.not_lt.mpr hlong]
    omega

theorem UdpHeader.accepted_of_process {data : List UInt8} {ipHeader : IpV4Header}
    {result : UdpHeader × List UInt8}
    (h : UdpHeader.process data ipHeader = some (.ok result)) : UdpHeader.Accepted data ipHeader := by
  have hlong : 8 ≤ data.length := by
    by_contra hshort
    simp [UdpHeader.process, UdpHeader.UDP_HEADER_SIZE, Nat.lt_of_not_le hshort] at h
  have hcover : (UdpHeader.read data).length.toNat ≤ data.length := by
    by_contra hover
    have hassert : data.length - 8 + 8 < (UdpHeader.read data).length.toNat := by omega
    simp [UdpHeader.process, UdpHeader.UDP_HEADER_SIZE, Nat.not_lt.mpr hlong, hassert] at h
  -- a length field below 8 is the subtraction that underflows
  have hmin : 8 ≤ (UdpHeader.read data).length.toNat := by
    by_contra hsmall
    simp [UdpHeader.process, UdpHeader.UDP_HEADER_SIZE, checkedSub, Nat.not_lt.mpr hlong,
      Nat.lt_of_not_le hsmall] at h
  refine ⟨hlong, hmin, hcover, ?_⟩
  by_cases hzero : (UdpHeader.read data).checksum = 0
  · exact Or.inl hzero
  · right
    have hsub : checkedSub (UdpHeader.read data).length.toNat 8 =
      some ((UdpHeader.read data).length.toNat - 8) := checkedSub_of_le hmin
    simp [UdpHeader.process, UdpHeader.UDP_HEADER_SIZE, hsub, hzero, Nat.not_lt.mpr hlong] at h
    obtain ⟨computed, hcomputed, hresult⟩ := Option.bind_eq_some_iff.mp h.2
    split_ifs at hresult with hcomputedZero
    rw [hcomputed, hcomputedZero]

/-- A datagram whose length field is below 8 passes the one-sided `assert!`
on the length and underflows in `length - UDP_HEADER_SIZE`. -/
theorem UdpHeader.process_eq_none_of_length_lt {data : List UInt8} {ipHeader : IpV4Header}
    (hlong : UdpHeader.UDP_HEADER_SIZE ≤ data.length)
    (hshort : (UdpHeader.read data).length.toNat < UdpHeader.UDP_HEADER_SIZE) :
    UdpHeader.process data ipHeader = none := by
  simp [UdpHeader.process, Nat.not_lt.mpr hlong, checkedSub, hshort]

/-- The segments on which `TcpHeader::process` returns, `Ok` or `Err`: those
it rejects before its length arithmetic, and those whose IPv4 total length
covers the IPv4 and TCP headers and does not exceed the bytes received. -/
def TcpHeader.Returns (data : List UInt8) (ipHeader : IpV4Header) : Prop :=
  data.length < TcpHeader.HEADER_SIZE ∨
    ((TcpHeader.read data).dataOffsetAndFlags >>> 12).toNat < 5 ∨
    data.length < ((TcpHeader.read data).dataOffsetAndFlags >>> 12).toNat * 4 ∨
    (IpV4Header.HEADER_SIZE + ((TcpHeader.read data).dataOffsetAndFlags >>> 12).toNat * 4 ≤
        ipHeader.totalPacketLength.toNat ∧
      ipHeader.totalPacketLength.toNat ≤ IpV4Header.HEADER_SIZE + data.length)

instance (data : List UInt8) (ipHeader : IpV4Header) : Decidable (TcpHeader.Returns data ipHeader) :=
  inferInstanceAs (Decidable (_ ∨ _))

theorem TcpHeader.process_isSome_iff (data : List UInt8) (ipHeader : IpV4Header) :
    (TcpHeader.process data ipHeader).isSome ↔ TcpHeader.Returns data ipHeader := by
  have htotal : ipHeader.totalPacketLength.toNat < 65536 := UInt16.toNat_lt _
  simp only [TcpHeader.process, TcpHeader.Returns, TcpHeader.HEADER_SIZE, IpV4Header.HEADER_SIZE]
  generalize ((TcpHeader.read data).dataOffsetAndFlags >>> 12).toNat = offset
  by_cases hshort : data.length < 20
  · simp [hshort]
  by_cases hoffset : offset < 5
  · simp [hshort, hoffset]
  by_cases hheader : data.length < offset * 4
  · simp [hshort, hoffset, hheader]
  -- past the early rejections only the two subtractions and the two slices can fail
  simp only [hshort, hoffset, hheader, if_false, checkedSub, TcpHeader.computeChecksumRaw,
    TcpHeader.pseudoHeader]
  generalize ipHeader.totalPacketLength.toNat = total at htotal ⊢
  by_cases hcover : 20 + offset * 4 ≤ total ∧ total ≤ 20 + data.length
  · have hpayload : ¬data.length - offset * 4 < total - 20 - offset * 4 := by omega
    have hbytes : ¬data.length < total - 20 := by omega
    have hsum : ¬total - 20 < offset * 4 := by omega
    simp [show ¬total < 20 by omega, hsum, hpayload, hbytes, show total - 20 < 65536 by omega,
      hcover]
    split <;> rfl
  · simp only [hcover]
    by_cases hunder : total < 20
    · simp [hunder]
    by_cases hheaderUnder : total - 20 < offset * 4
    · simp [hunder, hheaderUnder]
    have hslice : data.length - offset * 4 < total - 20 - offset * 4 := by omega
    simp [hunder, hheaderUnder, hslice]

theorem processAndRespond_isSome_iff (stack : NetworkStack) (data : List UInt8) :
    (processAndRespond stack data).isSome ↔ ArpPacket.Supported data := by
  unfold processAndRespond
  by_cases hsupported : ArpPacket.Supported data
  · simp only [hsupported, not_true_eq_false, if_false, iff_true]
    split <;> rfl
  · simp [hsupported]

theorem processTcpPacketHeader_isSome_iff (ipHeader : IpV4Header) (data : List UInt8)
    (sourceMac : MacAddress) :
    (processTcpPacketHeader ipHeader data sourceMac).isSome ↔ TcpHeader.Returns data ipHeader := by
  rw [← TcpHeader.process_isSome_iff]
  unfold processTcpPacketHeader
  rcases TcpHeader.process data ipHeader with _ | _ | ⟨tcpHeader, payload⟩ <;> rfl

/-- The IPv4 packets `process_ipv4_packet` returns on: those that pass the
assertions of `IpV4Header::process`, then pass `UdpHeader::process` or get
through the length arithmetic of `TcpHeader::process`. -/
def Ipv4PacketReturns (ourIp : Ipv4Addr) (data : List UInt8) : Prop :=
  IpV4Header.Supported ourIp data ∧
    ((IpV4Header.read data).upperProtocol = PROTOCOL_UDP →
      UdpHeader.Accepted (data.drop IpV4Header.HEADER_SIZE) (IpV4Header.read data)) ∧
    ((IpV4Header.read data).upperProtocol = PROTOCOL_TCP →
      TcpHeader.Returns (data.drop IpV4Header.HEADER_SIZE) (IpV4Header.read data))

instance (ourIp : Ipv4Addr) (data : List UInt8) : Decidable (Ipv4PacketReturns ourIp data) :=
  inferInstanceAs (Decidable (_ ∧ _))

theorem processIpv4Packet_isSome_iff (stack : NetworkStack) (data : List UInt8)
    (sourceMac : MacAddress) :
    (processIpv4Packet stack data sourceMac).isSome ↔ Ipv4PacketReturns stack.ipAddr data := by
  have hdistinct : PROTOCOL_UDP ≠ PROTOCOL_TCP := by decide
  by_cases hsupported : IpV4Header.Supported stack.ipAddr data
  · unfold processIpv4Packet Ipv4PacketReturns
    rw [IpV4Header.process_of_supported hsupported]
    -- `process` asserted the protocol, so exactly one of the two branches runs
    rcases hsupported.2.2.2.2.2.2.1 with hudp | htcp
    · simp only [hudp, if_true, hsupported, true_and, hdistinct, false_imp_iff, and_true,
        true_imp_iff]
      constructor
      · intro hsome
        split at hsome
        · exact UdpHeader.accepted_of_process ‹_›
        · cases hsome
      · intro haccepted
        rw [UdpHeader.process_of_accepted haccepted]
        rfl
    · simp only [htcp, hdistinct.symm, if_false, if_true, hsupported, true_and, false_imp_iff,
        true_imp_iff, Option.isSome_map, processTcpPacketHeader_isSome_iff]
  · have hnotOk : ∀ result, IpV4Header.process stack.ipAddr data ≠ some (.ok result) :=
      fun result hok => hsupported (IpV4Header.supported_of_process hok)
    unfold processIpv4Packet Ipv4PacketReturns
    simp only [hsupported, false_and, iff_false]
    split
    · exact absurd ‹_› (hnotOk _)
    · simp

theorem EtherTypes.tryFrom_eq_ok_arp {value : UInt16} :
    EtherTypes.tryFrom value = .ok .arp ↔ value = ETHERTYPE_ARP := by
  unfold EtherTypes.tryFrom
  split_ifs with harp hipv4
  · simp [harp]
  · simp only [hipv4, Except.ok.injEq, reduceCtorEq, false_iff]
    decide
  · simp [harp]

theorem EthernetHeader.tryFrom_of_tryParse {ourMac : MacAddress} {packet : List UInt8}
    {ethernetHeader : EthernetHeader} {rest : List UInt8}
    (h : EthernetHeader.tryParse ourMac packet = .ok (ethernetHeader, rest)) :
    ∃ etherType, EtherTypes.tryFrom ethernetHeader.etherType = .ok etherType := by
  simp only [EthernetHeader.tryParse] at h
  cases htype : EtherTypes.tryFrom (EthernetHeader.read packet).etherType with
  | error _ =>
    simp only [htype] at h
    split_ifs at h
  | ok etherType =>
    simp only [htype] at h
    split_ifs at h
    simp only [Except.ok.injEq, Prod.mk.injEq] at h
    rw [← h.1]
    exact ⟨etherType, htype⟩

/-- The frames `process_packet` returns on: every frame the Ethernet layer
drops, an ARP request, or an IPv4 packet `process_ipv4_packet` returns on. -/
def FrameReturns (stack : NetworkStack) (packet : List UInt8) : Prop :=
  match EthernetHeader.tryParse stack.macAddress packet with
  | .error _ => True
  | .ok (ethernetHeader, rest) =>
    if ethernetHeader.etherType = ETHERTYPE_ARP then ArpPacket.Supported rest
    else Ipv4PacketReturns stack.ipAddr rest

/-- Receive-path robustness, as the code has it: `process_packet` returns
exactly on the frames `FrameReturns` describes and panics on every other. -/
theorem processPacket_isSome_iff (stack : NetworkStack) (packet : List UInt8) :
    (processPacket stack packet).isSome ↔ FrameReturns stack packet := by
  unfold processPacket FrameReturns
  rcases hparse : EthernetHeader.tryParse stack.macAddress packet with _ | ⟨ethernetHeader, rest⟩
  · simp
  · obtain ⟨etherType, htype⟩ := EthernetHeader.tryFrom_of_tryParse hparse
    simp only
    rw [htype]
    cases etherType with
    | arp =>
      rw [if_pos (EtherTypes.tryFrom_eq_ok_arp.mp htype), processAndRespond_isSome_iff]
    | ipv4 =>
      have hnotArp : ethernetHeader.etherType ≠ ETHERTYPE_ARP := fun harp => by
        rw [← EtherTypes.tryFrom_eq_ok_arp, htype] at harp
        cases harp
      rw [if_neg hnotArp, processIpv4Packet_isSome_iff]

/-- A UDP datagram whose length field is below 8, at least 8 bytes long, in a
frame that passes the Ethernet layer and every assertion of the IPv4 layer:
the IPv4 layer hands the datagram to `UdpHeader::process`, which underflows in
`length - UDP_HEADER_SIZE` past its one-sided check of the length field, and
`process_packet` panics. -/
theorem processPacket_udp_length_underflow {stack : NetworkStack} {packet : List UInt8}
    {ethernetHeader : EthernetHeader} {rest : List UInt8}
    (hparse : EthernetHeader.tryParse stack.macAddress packet = .ok (ethernetHeader, rest))
    (hnotArp : ethernetHeader.etherType ≠ ETHERTYPE_ARP)
    (hsupported : IpV4Header.Supported stack.ipAddr rest)
    (hudp : (IpV4Header.read rest).upperProtocol = PROTOCOL_UDP)
    (hlong : UdpHeader.UDP_HEADER_SIZE ≤ (rest.drop IpV4Header.HEADER_SIZE).length)
    (hshort : (UdpHeader.read (rest.drop IpV4Header.HEADER_SIZE)).length.toNat <
      UdpHeader.UDP_HEADER_SIZE) :
    IpV4Header.process stack.ipAddr rest =
        some (.ok (IpV4Header.read rest, rest.drop IpV4Header.HEADER_SIZE)) ∧
      UdpHeader.process (rest.drop IpV4Header.HEADER_SIZE) (IpV4Header.read rest) = none ∧
      processPacket stack packet = none := by
  refine ⟨IpV4Header.process_of_supported hsupported,
    UdpHeader.process_eq_none_of_length_lt hlong hshort, ?_⟩
  -- the datagram is not one `UdpHeader::process` accepts, so the frame is not one
  -- `process_packet` returns on
  have hnot : ¬FrameReturns stack packet := by
    unfold FrameReturns
    rw [hparse]
    dsimp only
    rw [if_neg hnotArp]
    intro hreturns
    exact absurd (hreturns.2.1 hudp).2.1 (Nat.not_le.mpr hshort)
  exact Option.not_isSome_iff_eq_none.mp (mt (processPacket_isSome_iff stack packet).mp hnot)

/-- A stack at `10.0.2.15` with an empty ARP cache. -/
def underflowStack : NetworkStack :=
  ⟨⟨0x0A00020F⟩, MacAddress.read [0x52, 0x54, 0x00, 0x12, 0x34, 0x56] 0, fun _ => none⟩

/-- A frame for `underflowStack`: a correct IPv4 header from `10.0.2.2`, then a
UDP header from port 1234 to port 80 whose length field is 4. -/
def udpLengthFourFrame : List UInt8 :=
  let ipHeader : IpV4Header :=
    ⟨0x45, 0, 28, 0, 0, 64, PROTOCOL_UDP, 0, ⟨0x0A000202⟩, ⟨0x0A00020F⟩⟩
  (EthernetHeader.new (MacAddress.read [0x52, 0x54, 0x00, 0x12, 0x34, 0x56] 0)
      (MacAddress.read [0x52, 0x54, 0x00, 0x12, 0x34, 0x02] 0) .ipv4).asSlice ++
    ({ ipHeader with headerChecksum := ipHeader.calculateChecksum }).asSlice ++
    (⟨1234, 80, 4, 0⟩ : UdpHeader).asSlice

theorem processPacket_udp_length_underflow_frame :
    IpV4Header.process underflowStack.ipAddr (udpLengthFourFrame.drop 14) =
        some (.ok (IpV4Header.read (udpLengthFourFrame.drop 14),
          (udpLengthFourFrame.drop 14).drop IpV4Header.HEADER_SIZE)) ∧
      UdpHeader.process ((udpLengthFourFrame.drop 14).drop IpV4Header.HEADER_SIZE)
        (IpV4Header.read (udpLengthFourFrame.drop 14)) = none ∧
      processPacket underflowStack udpLengthFourFrame = none :=
  @processPacket_udp_length_underflow underflowStack udpLengthFourFrame
    (EthernetHeader.read udpLengthFourFrame) (udpLengthFourFrame.drop 14) rfl (by decide)
    (by decide) (by decide) (by decide) (by decide)

end Solaya.Net

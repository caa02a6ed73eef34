import Solaya.Net.Checksum
import Solaya.Klibc.Util
import Mathlib

/-!
# Network headers

`net/ethernet.rs`, `net/ipv4.rs`, `net/udp.rs` and `net/tcp.rs`.  Every header
is a `#[repr(C)]` struct of `BigEndian<T>` fields: the send path emits it with
`as_slice`, the receive path overlays it on the frame (`split_as`,
`read_unaligned`).  A header is modelled as the structure of its fields,
`asSlice` is its bytes and `read` the overlay.

Each `process` returns `Option (Except E (Header × List UInt8))`: `none` is a
panic (an `assert!`, an `expect`, a `usize` subtraction that underflows under
`overflow-checks = true`, or a slice index out of range), `Except.error` is the
`Err` the Rust function returns.  The packet builders return `none` where a
`u16::try_from(..).expect(..)` fails.  The frame a NIC delivers comes from a
heap `Vec<u8>`, so the alignment assertion of `interpret_as` holds for the
two-byte-aligned headers at the even offsets 0, 14 and 34 and is not modelled.

`createTcpPacket_parses` and `createUdpPacket_parses` are the encoder/decoder
agreement: a frame built for sending parses back, with a valid IPv4 header
checksum and a verifying transport checksum, to the fields and the payload it
was built from.
-/

namespace Solaya.Net

open Solaya.Bytes Solaya.OnesComplement

/-! ## Addresses -/

/-- `core::net::Ipv4Addr`, by its value `u32::from(ip)`; its octets are that
value in big-endian order. -/
structure Ipv4Addr where
  bits : UInt32
  deriving DecidableEq, Repr

namespace Ipv4Addr

/-- `Ipv4Addr::BROADCAST`, `255.255.255.255`. -/
def BROADCAST : Ipv4Addr := ⟨0xFFFFFFFF⟩

/-- `Ipv4Addr::UNSPECIFIED`, `0.0.0.0`. -/
def UNSPECIFIED : Ipv4Addr := ⟨0⟩

/-- `ip.octets()`. -/
def octets (ip : Ipv4Addr) : List UInt8 := encodeBE 4 ip.bits.toNat

/-- An address overlaid on four bytes at `offset`. -/
def read (bytes : List UInt8) (offset : ℕ) : Ipv4Addr := ⟨UInt32.ofNat (readBE bytes offset 4)⟩

end Ipv4Addr

/-- `MacAddress([u8; 6])`, by the 48-bit number its bytes spell. -/
structure MacAddress where
  bits : Fin (2 ^ 48)
  deriving DecidableEq, Repr

namespace MacAddress

/-- `BROADCAST_MAC`, `ff:ff:ff:ff:ff:ff`. -/
def BROADCAST : MacAddress := ⟨2 ^ 48 - 1⟩

def octets (mac : MacAddress) : List UInt8 := encodeBE 6 mac.bits.val

def read (bytes : List UInt8) (offset : ℕ) : MacAddress := ⟨Fin.ofNat _ (readBE bytes offset 6)⟩

end MacAddress

/-! ## Ethernet -/

/-- `EthernetHeader`, 14 bytes. -/
structure EthernetHeader where
  destinationMac : MacAddress
  sourceMac : MacAddress
  etherType : UInt16
  deriving DecidableEq, Repr

/-- `ETHERTYPE_ARP`. -/
def ETHERTYPE_ARP : UInt16 := 0x0806

/-- `ETHERTYPE_IPV4`. -/
def ETHERTYPE_IPV4 : UInt16 := 0x0800

inductive EtherTypes where
  | arp
  | ipv4
  deriving DecidableEq, Repr

/-- `ethernet::ParseError`. -/
inductive ParseError where
  | packetTooSmall
  | unknownEtherType
  | unknownDestinationMac
  deriving DecidableEq, Repr

/-- `EtherTypes::try_from`. -/
def EtherTypes.tryFrom (value : UInt16) : Except ParseError EtherTypes :=
  if value = ETHERTYPE_ARP then .ok .arp
  else if value = ETHERTYPE_IPV4 then .ok .ipv4
  else .error .unknownEtherType

/-- `BigEndian::<u16>::from(EtherTypes)`. -/
def EtherTypes.toBigEndian : EtherTypes → UInt16
  | .arp => ETHERTYPE_ARP
  | .ipv4 => ETHERTYPE_IPV4

namespace EthernetHeader

def HEADER_SIZE : ℕ := 14

def asSlice (header : EthernetHeader) : List UInt8 :=
  header.destinationMac.octets ++ header.sourceMac.octets ++ encodeBE 2 header.etherType.toNat

def read (bytes : List UInt8) : EthernetHeader where
  destinationMac := MacAddress.read bytes 0
  sourceMac := MacAddress.read bytes 6
  etherType := UInt16.ofNat (readBE bytes 12 2)

/-- `EthernetHeader::new`. -/
def new (destinationMac sourceMac : MacAddress) (etherType : EtherTypes) : EthernetHeader :=
  ⟨destinationMac, sourceMac, etherType.toBigEndian⟩

/-- `EthernetHeader::try_parse`; `ourMac` is `current_mac_address()`. -/
def tryParse (ourMac : MacAddress) (data : List UInt8) :
    Except ParseError (EthernetHeader × List UInt8) :=
  if data.length < HEADER_SIZE then .error .packetTooSmall
  else
    let header := read data
    match EtherTypes.tryFrom header.etherType with
    | .error _ => .error .unknownEtherType
    | .ok _ =>
      if header.destinationMac ≠ ourMac ∧ header.destinationMac ≠ MacAddress.BROADCAST then
        .error .unknownDestinationMac
      else .ok (header, data.drop HEADER_SIZE)

end EthernetHeader

/-! ## IPv4 -/

/-- `IpV4Header`, 20 bytes (no options). -/
structure IpV4Header where
  versionAndIhl : UInt8
  tos : UInt8
  totalPacketLength : UInt16
  identification : UInt16
  flagsAndOffset : UInt16
  ttl : UInt8
  upperProtocol : UInt8
  headerChecksum : UInt16
  sourceIp : Ipv4Addr
  destinationIp : Ipv4Addr
  deriving DecidableEq, Repr

/-- `PROTOCOL_TCP` (`IPPROTO_TCP`). -/
def PROTOCOL_TCP : UInt8 := 6

/-- `PROTOCOL_UDP` (`IPPROTO_UDP`). -/
def PROTOCOL_UDP : UInt8 := 17

/-- `IpV4ParseError`. -/
inductive IpV4ParseError where
  | packetTooSmall
  deriving DecidableEq, Repr

namespace IpV4Header

def HEADER_SIZE : ℕ := 20

/-- The ten bytes in front of the checksum field. -/
def checksumPrefix (header : IpV4Header) : List UInt8 :=
  encodeBE 1 header.versionAndIhl.toNat ++ encodeBE 1 header.tos.toNat ++
    encodeBE 2 header.totalPacketLength.toNat ++ encodeBE 2 header.identification.toNat ++
    encodeBE 2 header.flagsAndOffset.toNat ++ encodeBE 1 header.ttl.toNat ++
    encodeBE 1 header.upperProtocol.toNat

def asSlice (header : IpV4Header) : List UInt8 :=
  header.checksumPrefix ++ encodeBE 2 header.headerChecksum.toNat ++
    header.sourceIp.octets ++ header.destinationIp.octets

def read (bytes : List UInt8) : IpV4Header where
  versionAndIhl := UInt8.ofNat (readBE bytes 0 1)
  tos := UInt8.ofNat (readBE bytes 1 1)
  totalPacketLength := UInt16.ofNat (readBE bytes 2 2)
  identification := UInt16.ofNat (readBE bytes 4 2)
  flagsAndOffset := UInt16.ofNat (readBE bytes 6 2)
  ttl := UInt8.ofNat (readBE bytes 8 1)
  upperProtocol := UInt8.ofNat (readBE bytes 9 1)
  headerChecksum := UInt16.ofNat (readBE bytes 10 2)
  sourceIp := Ipv4Addr.read bytes 12
  destinationIp := Ipv4Addr.read bytes 16

/-- `IpV4Header::new`; `ourIp` is `super::ip_addr()`. -/
def new (ourIp destinationIp : Ipv4Addr) (protocol : UInt8) (payloadSize : ℕ) :
    Option IpV4Header :=
  if HEADER_SIZE + payloadSize < 2 ^ 16 then
    some { versionAndIhl := ((4 : UInt8) <<< 4) ||| 5, tos := 0,
           totalPacketLength := UInt16.ofNat (HEADER_SIZE + payloadSize),
           identification := 0, flagsAndOffset := 0, ttl := 128, upperProtocol := protocol,
           headerChecksum := 0, sourceIp := ourIp, destinationIp := destinationIp }
  else none

/-- `calculate_checksum`. -/
def calculateChecksum (header : IpV4Header) : UInt16 :=
  onesComplementChecksum [header.asSlice]

/-- `checksum_correct`. -/
def checksumCorrect (header : IpV4Header) : Bool :=
  header.calculateChecksum == 0

/-- `IpV4Header::process`.  Every `assert!` is a panic. -/
def process (ourIp : Ipv4Addr) (data : List UInt8) :
    Option (Except IpV4ParseError (IpV4Header × List UInt8)) :=
  if data.length < HEADER_SIZE then some (.error .packetTooSmall)
  else
    let header := read data
    if header.versionAndIhl >>> 4 ≠ 4 then none
    else if header.versionAndIhl &&& 0x0F ≠ 5 then none
    else if data.length < header.totalPacketLength.toNat then none
    else if header.flagsAndOffset &&& 0b100 ≠ 0 then none
    else if ¬(header.destinationIp = ourIp ∨ header.destinationIp = Ipv4Addr.BROADCAST ∨
        ourIp = Ipv4Addr.UNSPECIFIED) then none
    else if ¬(header.upperProtocol = PROTOCOL_UDP ∨ header.upperProtocol = PROTOCOL_TCP) then none
    else if !header.checksumCorrect then none
    else some (.ok (header, data.drop HEADER_SIZE))

end IpV4Header

/-! ## UDP -/

/-- `UdpHeader`, 8 bytes. -/
structure UdpHeader where
  sourcePort : UInt16
  destinationPort : UInt16
  length : UInt16
  checksum : UInt16
  deriving DecidableEq, Repr

/-- `UdpParseError`. -/
inductive UdpParseError where
  | packetTooSmall
  deriving DecidableEq, Repr

namespace UdpHeader

def UDP_HEADER_SIZE : ℕ := 8

def UDP_PROTOCOL_TYPE : UInt8 := 17

def asSlice (header : UdpHeader) : List UInt8 :=
  encodeBE 2 header.sourcePort.toNat ++ encodeBE 2 header.destinationPort.toNat ++
    encodeBE 2 header.length.toNat ++ encodeBE 2 header.checksum.toNat

def read (bytes : List UInt8) : UdpHeader where
  sourcePort := UInt16.ofNat (readBE bytes 0 2)
  destinationPort := UInt16.ofNat (readBE bytes 2 2)
  length := UInt16.ofNat (readBE bytes 4 2)
  checksum := UInt16.ofNat (readBE bytes 6 2)

/-- The pseudo header of `compute_checksum`: addresses, a zero byte, the
protocol and the UDP length. -/
def pseudoHeader (udpHeader : UdpHeader) (ipHeader : IpV4Header) : List UInt8 :=
  ipHeader.sourceIp.octets ++ ipHeader.destinationIp.octets ++ [0, UDP_PROTOCOL_TYPE] ++
    encodeBE 2 udpHeader.length.toNat

/-- `UdpHeader::compute_checksum`; its `assert_eq!` on the data length and the
subtraction in it are the two ways it can panic. -/
def computeChecksum (data : List UInt8) (udpHeader : UdpHeader) (ipHeader : IpV4Header) :
    Option UInt16 := do
  let dataLength ← checkedSub udpHeader.length.toNat UDP_HEADER_SIZE
  if data.length ≠ dataLength then none
  else some (onesComplementChecksum [pseudoHeader udpHeader ipHeader, udpHeader.asSlice, data])

/-- `UdpHeader::process`. -/
def process (data : List UInt8) (ipHeader : IpV4Header) :
    Option (Except UdpParseError (UdpHeader × List UInt8)) :=
  if data.length < UDP_HEADER_SIZE then some (.error .packetTooSmall)
  else
    let header := read data
    let rest := data.drop UDP_HEADER_SIZE
    if rest.length + UDP_HEADER_SIZE < header.length.toNat then none
    else do
      let dataLength ← checkedSub header.length.toNat UDP_HEADER_SIZE
      if rest.length < dataLength then none
      else
        let rest := rest.take dataLength
        if header.checksum ≠ 0 then
          let computed ← computeChecksum rest header ipHeader
          if computed ≠ 0 then none else some (.ok (header, rest))
        else some (.ok (header, rest))

/-- `UdpHeader::create_udp_packet`; `ourIp` and `ourMac` are the stack's
address and the NIC's MAC. -/
def createUdpPacket (ourIp : Ipv4Addr) (ourMac : MacAddress) (destinationIp : Ipv4Addr)
    (destinationPort : UInt16) (destinationMac : MacAddress) (sourcePort : UInt16)
    (data : List UInt8) : Option (List UInt8) := do
  if 2 ^ 16 ≤ UDP_HEADER_SIZE + data.length then none
  else
    let udpHeader : UdpHeader :=
      ⟨sourcePort, destinationPort, UInt16.ofNat (UDP_HEADER_SIZE + data.length), 0⟩
    let ipHeader ← IpV4Header.new ourIp destinationIp UDP_PROTOCOL_TYPE
      (UDP_HEADER_SIZE + data.length)
    let checksum ← computeChecksum data udpHeader ipHeader
    let udpHeader := { udpHeader with checksum }
    let ipHeader := { ipHeader with headerChecksum := ipHeader.calculateChecksum }
    let ethernetHeader := EthernetHeader.new destinationMac ourMac .ipv4
    some (ethernetHeader.asSlice ++ ipHeader.asSlice ++ udpHeader.asSlice ++ data)

end UdpHeader

/-! ## TCP -/

/-- `TcpHeader`, 20 bytes (no options when sent). -/
structure TcpHeader where
  sourcePort : UInt16
  destinationPort : UInt16
  sequenceNumber : UInt32
  acknowledgmentNumber : UInt32
  dataOffsetAndFlags : UInt16
  windowSize : UInt16
  checksum : UInt16
  urgentPointer : UInt16
  deriving DecidableEq, Repr

/-- `TcpParseError`. -/
inductive TcpParseError where
  | packetTooSmall
  | invalidDataOffset
  | invalidChecksum
  deriving DecidableEq, Repr

/-- `FLAG_FIN` (`TH_FIN`). -/
def FLAG_FIN : UInt16 := 0x01

/-- `FLAG_SYN` (`TH_SYN`). -/
def FLAG_SYN : UInt16 := 0x02

/-- `FLAG_RST` (`TH_RST`). -/
def FLAG_RST : UInt16 := 0x04

/-- `FLAG_ACK` (`TH_ACK`). -/
def FLAG_ACK : UInt16 := 0x10

namespace TcpHeader

def HEADER_SIZE : ℕ := 20

def TCP_PROTOCOL : UInt8 := 6

/-- `flags()`: the low nine bits of the offset-and-flags word. -/
def flags (header : TcpHeader) : UInt16 := header.dataOffsetAndFlags &&& 0x1FF

/-- The sixteen bytes in front of the checksum field. -/
def checksumPrefix (header : TcpHeader) : List UInt8 :=
  encodeBE 2 header.sourcePort.toNat ++ encodeBE 2 header.destinationPort.toNat ++
    encodeBE 4 header.sequenceNumber.toNat ++ encodeBE 4 header.acknowledgmentNumber.toNat ++
    encodeBE 2 header.dataOffsetAndFlags.toNat ++ encodeBE 2 header.windowSize.toNat

def asSlice (header : TcpHeader) : List UInt8 :=
  header.checksumPrefix ++ encodeBE 2 header.checksum.toNat ++
    encodeBE 2 header.urgentPointer.toNat

def read (bytes : List UInt8) : TcpHeader where
  sourcePort := UInt16.ofNat (readBE bytes 0 2)
  destinationPort := UInt16.ofNat (readBE bytes 2 2)
  sequenceNumber := UInt32.ofNat (readBE bytes 4 4)
  acknowledgmentNumber := UInt32.ofNat (readBE bytes 8 4)
  dataOffsetAndFlags := UInt16.ofNat (readBE bytes 12 2)
  windowSize := UInt16.ofNat (readBE bytes 14 2)
  checksum := UInt16.ofNat (readBE bytes 16 2)
  urgentPointer := UInt16.ofNat (readBE bytes 18 2)

/-- `TcpHeader::pseudo_header`; the `expect` on `u16::try_from(tcp_length)`
is its panic. -/
def pseudoHeader (ipHeader : IpV4Header) (tcpLength : ℕ) : Option (List UInt8) :=
  if tcpLength < 2 ^ 16 then
    some (ipHeader.sourceIp.octets ++ ipHeader.destinationIp.octets ++ [0, TCP_PROTOCOL] ++
      encodeBE 2 tcpLength)
  else none

/-- `TcpHeader::compute_checksum`. -/
def computeChecksum (data : List UInt8) (tcpHeader : TcpHeader) (ipHeader : IpV4Header) :
    Option UInt16 := do
  let pseudo ← pseudoHeader ipHeader (HEADER_SIZE + data.length)
  some (onesComplementChecksum [pseudo, tcpHeader.asSlice, data])

/-- `TcpHeader::compute_checksum_raw`. -/
def computeChecksumRaw (tcpBytes : List UInt8) (ipHeader : IpV4Header) (tcpLength : ℕ) :
    Option UInt16 := do
  let pseudo ← pseudoHeader ipHeader tcpLength
  some (onesComplementChecksum [pseudo, tcpBytes])

/-- `TcpHeader::process`.  The two `usize` subtractions and the two slices are
its panics. -/
def process (data : List UInt8) (ipHeader : IpV4Header) :
    Option (Except TcpParseError (TcpHeader × List UInt8)) :=
  if data.length < HEADER_SIZE then some (.error .packetTooSmall)
  else
    let tcpHeader := read data
    let dataOffset := (tcpHeader.dataOffsetAndFlags >>> 12).toNat
    if dataOffset < 5 then some (.error .invalidDataOffset)
    else
      let headerBytes := dataOffset * 4
      if data.length < headerBytes then some (.error .packetTooSmall)
      else do
        let payload := data.drop headerBytes
        let totalTcpLen ← checkedSub ipHeader.totalPacketLength.toNat IpV4Header.HEADER_SIZE
        let payloadLen ← checkedSub totalTcpLen headerBytes
        if payload.length < payloadLen then none
        else
          let payload := payload.take payloadLen
          if data.length < totalTcpLen then none
          else
            let computed ← computeChecksumRaw (data.take totalTcpLen) ipHeader totalTcpLen
            if computed ≠ 0 then some (.error .invalidChecksum)
            else some (.ok (tcpHeader, payload))

/-- `TcpHeader::create_tcp_packet`; `ourIp` and `ourMac` are the stack's
address and the NIC's MAC. -/
def createTcpPacket (ourIp : Ipv4Addr) (ourMac : MacAddress) (destinationIp : Ipv4Addr)
    (destinationMac : MacAddress) (sourcePort destinationPort : UInt16) (seq ack : UInt32)
    (flags window : UInt16) (data : List UInt8) : Option (List UInt8) := do
  let dataOffsetAndFlags := ((5 : UInt16) <<< 12) ||| (flags &&& 0x1FF)
  let tcpHeader : TcpHeader :=
    ⟨sourcePort, destinationPort, seq, ack, dataOffsetAndFlags, window, 0, 0⟩
  let ipHeader ← IpV4Header.new ourIp destinationIp TCP_PROTOCOL (HEADER_SIZE + data.length)
  let checksum ← computeChecksum data tcpHeader ipHeader
  let tcpHeader := { tcpHeader with checksum }
  let ipHeader := { ipHeader with headerChecksum := ipHeader.calculateChecksum }
  let ethernetHeader := EthernetHeader.new destinationMac ourMac .ipv4
  some (ethernetHeader.asSlice ++ ipHeader.asSlice ++ tcpHeader.asSlice ++ data)

end TcpHeader

/-! ## Overlaying a header on its own bytes -/

@[simp]
theorem EthernetHeader.length_asSlice (header : EthernetHeader) : header.asSlice.length = 14 := by
  simp [EthernetHeader.asSlice, MacAddress.octets]

@[simp]
theorem IpV4Header.length_checksumPrefix (header : IpV4Header) :
    header.checksumPrefix.length = 10 := by
  simp [IpV4Header.checksumPrefix]

@[simp]
theorem IpV4Header.length_asSlice (header : IpV4Header) : header.asSlice.length = 20 := by
  simp [IpV4Header.asSlice, Ipv4Addr.octets]

@[simp]
theorem UdpHeader.length_asSlice (header : UdpHeader) : header.asSlice.length = 8 := by
  simp [UdpHeader.asSlice]

@[simp]
theorem TcpHeader.length_checksumPrefix (header : TcpHeader) :
    header.checksumPrefix.length = 16 := by
  simp [TcpHeader.checksumPrefix]

@[simp]
theorem TcpHeader.length_asSlice (header : TcpHeader) : header.asSlice.length = 20 := by
  simp [TcpHeader.asSlice]

theorem EthernetHeader.read_asSlice (header : EthernetHeader) (rest : List UInt8) :
    EthernetHeader.read (header.asSlice ++ rest) = header := by
  cases header
  simp [EthernetHeader.read, EthernetHeader.asSlice, MacAddress.read, MacAddress.octets, readBE,
    List.drop_append, List.drop_eq_nil_of_le, Nat.mod_eq_of_lt]

theorem IpV4Header.read_asSlice (header : IpV4Header) (rest : List UInt8) :
    IpV4Header.read (header.asSlice ++ rest) = header := by
  cases header
  simp [IpV4Header.read, IpV4Header.asSlice, IpV4Header.checksumPrefix, Ipv4Addr.read,
    Ipv4Addr.octets, readBE, List.drop_append, List.drop_eq_nil_of_le]

theorem UdpHeader.read_asSlice (header : UdpHeader) (rest : List UInt8) :
    UdpHeader.read (header.asSlice ++ rest) = header := by
  cases header
  simp [UdpHeader.read, UdpHeader.asSlice, readBE, List.drop_append, List.drop_eq_nil_of_le]

theorem TcpHeader.read_asSlice (header : TcpHeader) (rest : List UInt8) :
    TcpHeader.read (header.asSlice ++ rest) = header := by
  cases header
  simp [TcpHeader.read, TcpHeader.asSlice, TcpHeader.checksumPrefix, readBE, List.drop_append,
    List.drop_eq_nil_of_le]

/-! ## Checksums computed by the sender verify at the receiver -/

@[simp]
theorem IpV4Header.checksumPrefix_withChecksum (header : IpV4Header) (checksum : UInt16) :
    ({ header with headerChecksum := checksum }).checksumPrefix = header.checksumPrefix := rfl

@[simp]
theorem TcpHeader.checksumPrefix_withChecksum (header : TcpHeader) (checksum : UInt16) :
    ({ header with checksum }).checksumPrefix = header.checksumPrefix := rfl

/-- Two slice lists with the same bytes have the same checksum. -/
theorem onesComplementChecksum_congr {slices slices' : List (List UInt8)}
    (h : slices.flatten = slices'.flatten) :
    onesComplementChecksum slices = onesComplementChecksum slices' := by
  rw [onesComplementChecksum_eq, onesComplementChecksum_eq, h]

/-- Filling the checksum field of a header whose field is zero with
`calculate_checksum` makes `checksum_correct` hold. -/
theorem IpV4Header.checksumCorrect_of_calculateChecksum {header : IpV4Header}
    (hzero : header.headerChecksum = 0) :
    ({ header with headerChecksum := header.calculateChecksum }).checksumCorrect = true := by
  have heven : Even header.checksumPrefix.length := by
    rw [IpV4Header.length_checksumPrefix]
    exact ⟨5, rfl⟩
  have hslot := onesComplementChecksum_slot heven
    (header.sourceIp.octets ++ header.destinationIp.octets)
  simp only [IpV4Header.checksumCorrect, IpV4Header.calculateChecksum, IpV4Header.asSlice,
    IpV4Header.checksumPrefix_withChecksum, hzero, List.append_assoc] at hslot ⊢
  simpa using hslot

/-! ## Building a frame -/

theorem IpV4Header.new_eq_some {ourIp destinationIp : Ipv4Addr} {protocol : UInt8}
    {payloadSize : ℕ} {header : IpV4Header}
    (h : IpV4Header.new ourIp destinationIp protocol payloadSize = some header) :
    header.totalPacketLength.toNat = HEADER_SIZE + payloadSize ∧ header.headerChecksum = 0 ∧
      header.sourceIp = ourIp ∧ header.destinationIp = destinationIp := by
  unfold IpV4Header.new at h
  split at h
  · cases h
    refine ⟨?_, rfl, rfl, rfl⟩
    simp only [UInt16.toNat_ofNat']
    exact Nat.mod_eq_of_lt ‹_›
  · cases h

theorem IpV4Header.new_isSome (ourIp destinationIp : Ipv4Addr) (protocol : UInt8)
    {payloadSize : ℕ} (h : HEADER_SIZE + payloadSize < 2 ^ 16) :
    (IpV4Header.new ourIp destinationIp protocol payloadSize).isSome := by
  rw [IpV4Header.new, if_pos h]
  rfl

/-- Bytes 14..34 of a frame are its IPv4 header and bytes 34.. what follows. -/
theorem frame_slices (ethernetHeader : EthernetHeader) (ipHeader : IpV4Header)
    (rest : List UInt8) :
    ((ethernetHeader.asSlice ++ ipHeader.asSlice ++ rest).drop 14).take 20 = ipHeader.asSlice ∧
      (ethernetHeader.asSlice ++ ipHeader.asSlice ++ rest).drop 34 = rest := by
  have hdrop : (ethernetHeader.asSlice ++ ipHeader.asSlice ++ rest).drop 14 =
      ipHeader.asSlice ++ rest := by
    rw [List.append_assoc]
    simp
  constructor
  · rw [hdrop]
    simp
  · rw [show 34 = 14 + 20 from rfl, ← List.drop_drop, hdrop]
    simp

/-! ## TCP segments -/

theorem TcpHeader.offset_of_flags (flags : UInt16) :
    (((5 : UInt16) <<< 12) ||| (flags &&& 0x1FF)) >>> 12 = 5 := by
  apply UInt16.toNat_inj.mp
  have hlow : flags.toNat &&& 511 < 2 ^ 12 := lt_of_le_of_lt Nat.and_le_right (by decide)
  simp only [UInt16.toNat_shiftRight, UInt16.toNat_or, UInt16.toNat_and]
  rw [show (((5 : UInt16) <<< 12)).toNat = 20480 from rfl, show (0x1FF : UInt16).toNat = 511 from rfl,
    show (12 : UInt16).toNat % 16 = 12 from rfl, Nat.shiftRight_or_distrib,
    Nat.shiftRight_eq_div_pow (flags.toNat &&& 511), Nat.div_eq_of_lt hlow]
  rfl

theorem TcpHeader.flags_of_flags {flags : UInt16} (hflags : flags < 0x200) :
    ((((5 : UInt16) <<< 12) ||| (flags &&& 0x1FF)) &&& 0x1FF) = flags := by
  apply UInt16.toNat_inj.mp
  have hlt : flags.toNat < 512 := hflags
  have hlow : flags.toNat &&& 511 = flags.toNat := by
    rw [show 511 = 2 ^ 9 - 1 from rfl, Nat.and_two_pow_sub_one_eq_mod]
    exact Nat.mod_eq_of_lt hlt
  simp only [UInt16.toNat_or, UInt16.toNat_and]
  rw [show (((5 : UInt16) <<< 12)).toNat = 20480 from rfl, show (0x1FF : UInt16).toNat = 511 from rfl,
    hlow, show 511 = 2 ^ 9 - 1 from rfl, Nat.and_two_pow_sub_one_eq_mod, Nat.or_mod_two_pow]
  simp [Nat.mod_eq_of_lt hlt]

theorem TcpHeader.length_pseudoHeader {ipHeader : IpV4Header} {tcpLength : ℕ}
    {pseudo : List UInt8} (h : TcpHeader.pseudoHeader ipHeader tcpLength = some pseudo) :
    pseudo.length = 12 := by
  unfold TcpHeader.pseudoHeader at h
  split at h
  · cases h
    simp [Ipv4Addr.octets]
  · cases h

/-- The checksum `create_tcp_packet` puts into the header verifies over the
pseudo header, the header and the payload. -/
theorem TcpHeader.computeChecksumRaw_withChecksum {tcpHeader : TcpHeader}
    {ipHeader : IpV4Header} {data : List UInt8} {checksum : UInt16}
    (hzero : tcpHeader.checksum = 0)
    (hcompute : TcpHeader.computeChecksum data tcpHeader ipHeader = some checksum) :
    TcpHeader.computeChecksumRaw ({ tcpHeader with checksum }.asSlice ++ data) ipHeader
      (HEADER_SIZE + data.length) = some 0 := by
  simp only [TcpHeader.computeChecksum, Option.bind_eq_bind] at hcompute
  obtain ⟨pseudo, hpseudo, hsum⟩ := Option.bind_eq_some_iff.mp hcompute
  cases hsum
  have heven : Even (pseudo ++ tcpHeader.checksumPrefix).length := by
    rw [List.length_append, TcpHeader.length_pseudoHeader hpseudo,
      TcpHeader.length_checksumPrefix]
    exact ⟨14, rfl⟩
  have hslot := onesComplementChecksum_slot heven
    (encodeBE 2 tcpHeader.urgentPointer.toNat ++ data)
  have hsent : onesComplementChecksum [pseudo, tcpHeader.asSlice, data] =
      onesComplementChecksum [pseudo ++ tcpHeader.checksumPrefix ++ encodeBE 2 0 ++
        (encodeBE 2 tcpHeader.urgentPointer.toNat ++ data)] := by
    apply onesComplementChecksum_congr
    simp [TcpHeader.asSlice, hzero]
  have hreceived : onesComplementChecksum [pseudo, { tcpHeader with
        checksum := onesComplementChecksum [pseudo, tcpHeader.asSlice, data] }.asSlice ++ data] =
      onesComplementChecksum [pseudo ++ tcpHeader.checksumPrefix ++
        encodeBE 2 (onesComplementChecksum [pseudo, tcpHeader.asSlice, data]).toNat ++
        (encodeBE 2 tcpHeader.urgentPointer.toNat ++ data)] := by
    apply onesComplementChecksum_congr
    simp [TcpHeader.asSlice]
  simp only [TcpHeader.computeChecksumRaw, hpseudo, Option.bind_eq_bind, Option.bind_some]
  rw [hreceived, hsent, hslot]

/-- `TcpHeader::process` on a header without options followed by its payload,
when the IPv4 total length covers exactly the two and the checksum over the
pseudo header verifies. -/
theorem TcpHeader.process_asSlice {tcpHeader : TcpHeader} {ipHeader : IpV4Header}
    {data : List UInt8} (hoffset : tcpHeader.dataOffsetAndFlags >>> 12 = 5)
    (hlength : ipHeader.totalPacketLength.toNat =
      IpV4Header.HEADER_SIZE + HEADER_SIZE + data.length)
    (hchecksum : TcpHeader.computeChecksumRaw (tcpHeader.asSlice ++ data) ipHeader
      (HEADER_SIZE + data.length) = some 0) :
    TcpHeader.process (tcpHeader.asSlice ++ data) ipHeader = some (.ok (tcpHeader, data)) := by
  have hdrop : (tcpHeader.asSlice ++ data).drop 20 = data := by
    simp
  have htake : (tcpHeader.asSlice ++ data).take (20 + data.length) = tcpHeader.asSlice ++ data :=
    List.take_of_length_le (by simp)
  have htotal : checkedSub (40 + data.length) 20 = some (20 + data.length) := by
    rw [checkedSub_of_le (by omega)]
    congr 1
    omega
  have hpayload : checkedSub (20 + data.length) 20 = some data.length := by
    rw [checkedSub_of_le (by omega), Nat.add_sub_cancel_left]
  simp only [TcpHeader.HEADER_SIZE, IpV4Header.HEADER_SIZE] at hlength hchecksum
  simp [TcpHeader.process, TcpHeader.read_asSlice, hoffset, hlength, hdrop, htake, htotal,
    hpayload, hchecksum, IpV4Header.HEADER_SIZE, TcpHeader.HEADER_SIZE]

/-- The pseudo header reads only the addresses, which filling in the IPv4
checksum leaves alone. -/
@[simp]
theorem TcpHeader.computeChecksumRaw_withHeaderChecksum (tcpBytes : List UInt8)
    (ipHeader : IpV4Header) (tcpLength : ℕ) (checksum : UInt16) :
    TcpHeader.computeChecksumRaw tcpBytes { ipHeader with headerChecksum := checksum } tcpLength =
      TcpHeader.computeChecksumRaw tcpBytes ipHeader tcpLength := rfl

/-- A frame built by `create_tcp_packet` whose length fits the IPv4 length
field parses back: its IPv4 header (bytes 14..34) has a correct checksum and
the total length `40 + |payload|`, and `TcpHeader::process` on bytes 34.. returns
the ports, sequence and acknowledgment numbers and flags it was built with,
and exactly the payload. -/
theorem TcpHeader.createTcpPacket_parses (ourIp : Ipv4Addr) (ourMac : MacAddress)
    (destinationIp : Ipv4Addr) (destinationMac : MacAddress) (sourcePort destinationPort : UInt16)
    (seq ack : UInt32) {flags : UInt16} (window : UInt16) {data : List UInt8}
    (hflags : flags < 0x200)
    (hlength : IpV4Header.HEADER_SIZE + HEADER_SIZE + data.length ≤ 65535) :
    ∃ frame, TcpHeader.createTcpPacket ourIp ourMac destinationIp destinationMac sourcePort
        destinationPort seq ack flags window data = some frame ∧
      (IpV4Header.read ((frame.drop 14).take 20)).checksumCorrect = true ∧
      (IpV4Header.read ((frame.drop 14).take 20)).totalPacketLength.toNat =
        IpV4Header.HEADER_SIZE + HEADER_SIZE + data.length ∧
      ∃ tcpHeader, TcpHeader.process (frame.drop 34) (IpV4Header.read ((frame.drop 14).take 20)) =
          some (.ok (tcpHeader, data)) ∧
        tcpHeader.sourcePort = sourcePort ∧ tcpHeader.destinationPort = destinationPort ∧
        tcpHeader.sequenceNumber = seq ∧ tcpHeader.acknowledgmentNumber = ack ∧
        tcpHeader.flags = flags := by
  obtain ⟨ipHeader, hnew⟩ := Option.isSome_iff_exists.mp
    (@IpV4Header.new_isSome ourIp destinationIp TCP_PROTOCOL (HEADER_SIZE + data.length)
      (by simp only [IpV4Header.HEADER_SIZE, HEADER_SIZE] at hlength ⊢; omega))
  obtain ⟨htotal, hzero, -, -⟩ := IpV4Header.new_eq_some hnew
  rw [← Nat.add_assoc] at htotal
  let tcpHeader : TcpHeader := ⟨sourcePort, destinationPort, seq, ack,
    ((5 : UInt16) <<< 12) ||| (flags &&& 0x1FF), window, 0, 0⟩
  obtain ⟨pseudo, hpseudo⟩ : ∃ pseudo, pseudoHeader ipHeader (HEADER_SIZE + data.length) =
      some pseudo := ⟨_, if_pos (by simp only [IpV4Header.HEADER_SIZE, HEADER_SIZE] at hlength ⊢; omega)⟩
  have hcompute : computeChecksum data tcpHeader ipHeader =
      some (onesComplementChecksum [pseudo, tcpHeader.asSlice, data]) := by
    simp [computeChecksum, hpseudo]
  have hframe : createTcpPacket ourIp ourMac destinationIp destinationMac sourcePort
      destinationPort seq ack flags window data =
      some ((EthernetHeader.new destinationMac ourMac .ipv4).asSlice ++
        ({ ipHeader with headerChecksum := ipHeader.calculateChecksum }).asSlice ++
        ({ tcpHeader with checksum := onesComplementChecksum [pseudo, tcpHeader.asSlice, data] }.asSlice
          ++ data)) := by
    simp [createTcpPacket, hnew, hcompute, tcpHeader]
  obtain ⟨hipBytes, hrest⟩ := frame_slices (EthernetHeader.new destinationMac ourMac .ipv4)
    { ipHeader with headerChecksum := ipHeader.calculateChecksum }
    ({ tcpHeader with checksum := onesComplementChecksum [pseudo, tcpHeader.asSlice, data] }.asSlice
      ++ data)
  have hread : IpV4Header.read ({ ipHeader with headerChecksum := ipHeader.calculateChecksum }).asSlice =
      { ipHeader with headerChecksum := ipHeader.calculateChecksum } := by
    simpa using IpV4Header.read_asSlice { ipHeader with headerChecksum := ipHeader.calculateChecksum } []
  refine ⟨_, hframe, ?_⟩
  rw [hipBytes, hrest, hread]
  refine ⟨IpV4Header.checksumCorrect_of_calculateChecksum hzero, htotal,
    { tcpHeader with checksum := onesComplementChecksum [pseudo, tcpHeader.asSlice, data] }, ?_,
    rfl, rfl, rfl, rfl, TcpHeader.flags_of_flags hflags⟩
  have hverify := TcpHeader.computeChecksumRaw_withChecksum rfl hcompute
  rw [← TcpHeader.computeChecksumRaw_withHeaderChecksum _ _ _ ipHeader.calculateChecksum] at hverify
  exact @TcpHeader.process_asSlice
    { tcpHeader with checksum := onesComplementChecksum [pseudo, tcpHeader.asSlice, data] }
    { ipHeader with headerChecksum := ipHeader.calculateChecksum } data
    (TcpHeader.offset_of_flags flags) htotal hverify

/-! ## UDP datagrams -/

@[simp]
theorem UdpHeader.computeChecksum_withHeaderChecksum (data : List UInt8) (udpHeader : UdpHeader)
    (ipHeader : IpV4Header) (checksum : UInt16) :
    UdpHeader.computeChecksum data udpHeader { ipHeader with headerChecksum := checksum } =
      UdpHeader.computeChecksum data udpHeader ipHeader := rfl

@[simp]
theorem UdpHeader.pseudoHeader_withChecksum (udpHeader : UdpHeader) (ipHeader : IpV4Header)
    (checksum : UInt16) :
    UdpHeader.pseudoHeader { udpHeader with checksum } ipHeader =
      UdpHeader.pseudoHeader udpHeader ipHeader := rfl

theorem UdpHeader.length_pseudoHeader (udpHeader : UdpHeader) (ipHeader : IpV4Header) :
    (UdpHeader.pseudoHeader udpHeader ipHeader).length = 12 := by
  simp [UdpHeader.pseudoHeader, Ipv4Addr.octets]

theorem UdpHeader.computeChecksum_eq_some {data : List UInt8} {udpHeader : UdpHeader}
    {ipHeader : IpV4Header} (hlength : udpHeader.length.toNat = UDP_HEADER_SIZE + data.length) :
    UdpHeader.computeChecksum data udpHeader ipHeader =
      some (onesComplementChecksum [UdpHeader.pseudoHeader udpHeader ipHeader, udpHeader.asSlice,
        data]) := by
  simp [UdpHeader.computeChecksum, hlength, checkedSub_of_le]

/-- The checksum `create_udp_packet` puts into the header verifies. -/
theorem UdpHeader.computeChecksum_withChecksum {udpHeader : UdpHeader} {ipHeader : IpV4Header}
    {data : List UInt8} (hzero : udpHeader.checksum = 0)
    (hlength : udpHeader.length.toNat = UDP_HEADER_SIZE + data.length) :
    UdpHeader.computeChecksum data
        { udpHeader with
          checksum := onesComplementChecksum [UdpHeader.pseudoHeader udpHeader ipHeader,
            udpHeader.asSlice, data] }
        ipHeader = some 0 := by
  set checksum := onesComplementChecksum [UdpHeader.pseudoHeader udpHeader ipHeader,
    udpHeader.asSlice, data] with hchecksum
  let pre := UdpHeader.pseudoHeader udpHeader ipHeader ++ encodeBE 2 udpHeader.sourcePort.toNat ++
    encodeBE 2 udpHeader.destinationPort.toNat ++ encodeBE 2 udpHeader.length.toNat
  have heven : Even pre.length := by
    simp only [pre, List.length_append, UdpHeader.length_pseudoHeader, length_encodeBE]
    exact ⟨9, rfl⟩
  have hsent : checksum = onesComplementChecksum [pre ++ encodeBE 2 0 ++ data] := by
    apply onesComplementChecksum_congr
    simp [pre, UdpHeader.asSlice, hzero]
  have hreceived : onesComplementChecksum [UdpHeader.pseudoHeader udpHeader ipHeader,
      ({ udpHeader with checksum }).asSlice, data] =
      onesComplementChecksum [pre ++ encodeBE 2 checksum.toNat ++ data] := by
    apply onesComplementChecksum_congr
    simp [pre, UdpHeader.asSlice]
  have hlength' : ({ udpHeader with checksum }).length.toNat = UDP_HEADER_SIZE + data.length :=
    hlength
  rw [UdpHeader.computeChecksum_eq_some hlength', UdpHeader.pseudoHeader_withChecksum, hreceived,
    hsent, onesComplementChecksum_slot heven data]

/-- `UdpHeader::process` on a header followed by its payload, when the length
field covers exactly the two and the checksum verifies. -/
theorem UdpHeader.process_asSlice {udpHeader : UdpHeader} {ipHeader : IpV4Header}
    {data : List UInt8} (hlength : udpHeader.length.toNat = UDP_HEADER_SIZE + data.length)
    (hchecksum : UdpHeader.computeChecksum data udpHeader ipHeader = some 0) :
    UdpHeader.process (udpHeader.asSlice ++ data) ipHeader = some (.ok (udpHeader, data)) := by
  have hdrop : (udpHeader.asSlice ++ data).drop 8 = data := by
    simp
  have hsub : checkedSub (8 + data.length) 8 = some data.length := by
    rw [checkedSub_of_le (by omega), Nat.add_sub_cancel_left]
  simp only [UDP_HEADER_SIZE] at hlength hchecksum
  have hcover : ¬(data.length + 8 < 8 + data.length) := by omega
  by_cases hzero : udpHeader.checksum = 0 <;>
    simp [UdpHeader.process, UdpHeader.read_asSlice, hdrop, hlength, hsub, hchecksum, hzero,
      hcover, UDP_HEADER_SIZE]

/-- A frame built by `create_udp_packet` whose length fits the IPv4 length
field parses back: a correct IPv4 header checksum, the total length
`28 + |payload|`, and `UdpHeader::process` on bytes 34.. returning the ports it
was built with, exactly the payload, and a checksum that verifies to zero. -/
theorem UdpHeader.createUdpPacket_parses (ourIp : Ipv4Addr) (ourMac : MacAddress)
    (destinationIp : Ipv4Addr) (destinationPort : UInt16) (destinationMac : MacAddress)
    (sourcePort : UInt16) {data : List UInt8}
    (hlength : IpV4Header.HEADER_SIZE + UDP_HEADER_SIZE + data.length ≤ 65535) :
    ∃ frame, UdpHeader.createUdpPacket ourIp ourMac destinationIp destinationPort destinationMac
        sourcePort data = some frame ∧
      (IpV4Header.read ((frame.drop 14).take 20)).checksumCorrect = true ∧
      (IpV4Header.read ((frame.drop 14).take 20)).totalPacketLength.toNat =
        IpV4Header.HEADER_SIZE + UDP_HEADER_SIZE + data.length ∧
      ∃ udpHeader, UdpHeader.process (frame.drop 34) (IpV4Header.read ((frame.drop 14).take 20)) =
          some (.ok (udpHeader, data)) ∧
        udpHeader.sourcePort = sourcePort ∧ udpHeader.destinationPort = destinationPort ∧
        UdpHeader.computeChecksum data udpHeader (IpV4Header.read ((frame.drop 14).take 20)) =
          some 0 := by
  simp only [IpV4Header.HEADER_SIZE, UDP_HEADER_SIZE] at hlength
  obtain ⟨ipHeader, hnew⟩ := Option.isSome_iff_exists.mp
    (@IpV4Header.new_isSome ourIp destinationIp UDP_PROTOCOL_TYPE (UDP_HEADER_SIZE + data.length)
      (by simp only [IpV4Header.HEADER_SIZE, UDP_HEADER_SIZE]; omega))
  obtain ⟨htotal, hzero, -, -⟩ := IpV4Header.new_eq_some hnew
  rw [← Nat.add_assoc] at htotal
  let udpHeader : UdpHeader :=
    ⟨sourcePort, destinationPort, UInt16.ofNat (UDP_HEADER_SIZE + data.length), 0⟩
  have hudpLength : udpHeader.length.toNat = UDP_HEADER_SIZE + data.length := by
    simp only [udpHeader, UInt16.toNat_ofNat', UDP_HEADER_SIZE]
    exact Nat.mod_eq_of_lt (by omega)
  let checksum := onesComplementChecksum [UdpHeader.pseudoHeader udpHeader ipHeader,
    udpHeader.asSlice, data]
  have hcompute : computeChecksum data
      ⟨sourcePort, destinationPort, UInt16.ofNat (UDP_HEADER_SIZE + data.length), 0⟩ ipHeader =
      some checksum :=
    UdpHeader.computeChecksum_eq_some hudpLength
  have hframe : createUdpPacket ourIp ourMac destinationIp destinationPort destinationMac
      sourcePort data =
      some ((EthernetHeader.new destinationMac ourMac .ipv4).asSlice ++
        ({ ipHeader with headerChecksum := ipHeader.calculateChecksum }).asSlice ++
        ({ udpHeader with checksum }.asSlice ++ data)) := by
    have hfits : ¬2 ^ 16 ≤ UDP_HEADER_SIZE + data.length := by
      simp only [UDP_HEADER_SIZE]
      omega
    simp only [createUdpPacket, if_neg hfits, hnew, hcompute, Option.bind_eq_bind,
      Option.bind_some, List.append_assoc, udpHeader]
  obtain ⟨hipBytes, hrest⟩ := frame_slices (EthernetHeader.new destinationMac ourMac .ipv4)
    { ipHeader with headerChecksum := ipHeader.calculateChecksum }
    ({ udpHeader with checksum }.asSlice ++ data)
  have hread : IpV4Header.read ({ ipHeader with headerChecksum := ipHeader.calculateChecksum }).asSlice =
      { ipHeader with headerChecksum := ipHeader.calculateChecksum } := by
    simpa using IpV4Header.read_asSlice { ipHeader with headerChecksum := ipHeader.calculateChecksum } []
  have hverify : UdpHeader.computeChecksum data { udpHeader with checksum }
      { ipHeader with headerChecksum := ipHeader.calculateChecksum } = some 0 := by
    rw [UdpHeader.computeChecksum_withHeaderChecksum]
    exact UdpHeader.computeChecksum_withChecksum rfl hudpLength
  refine ⟨_, hframe, ?_⟩
  rw [hipBytes, hrest, hread]
  exact ⟨IpV4Header.checksumCorrect_of_calculateChecksum hzero, htotal,
    { udpHeader with checksum }, UdpHeader.process_asSlice hudpLength hverify, rfl, rfl, hverify⟩

/-- Encoder/decoder agreement: every TCP segment and every UDP datagram that
fits in one IPv4 packet is built into a frame whose IPv4 header verifies and
whose transport header and payload parse back to what was sent. -/
theorem createPacket_process_agree (ourIp : Ipv4Addr) (ourMac : MacAddress)
    (destinationIp : Ipv4Addr) (destinationMac : MacAddress) (sourcePort destinationPort : UInt16)
    (seq ack : UInt32) (flags window : UInt16) (data : List UInt8) :
    (flags < 0x200 → IpV4Header.HEADER_SIZE + TcpHeader.HEADER_SIZE + data.length ≤ 65535 →
      ∃ frame, TcpHeader.createTcpPacket ourIp ourMac destinationIp destinationMac sourcePort
          destinationPort seq ack flags window data = some frame ∧
        (IpV4Header.read ((frame.drop 14).take 20)).checksumCorrect = true ∧
        (IpV4Header.read ((frame.drop 14).take 20)).totalPacketLength.toNat =
          IpV4Header.HEADER_SIZE + TcpHeader.HEADER_SIZE + data.length ∧
        ∃ tcpHeader, TcpHeader.process (frame.drop 34)
            (IpV4Header.read ((frame.drop 14).take 20)) = some (.ok (tcpHeader, data)) ∧
          tcpHeader.sourcePort = sourcePort ∧ tcpHeader.destinationPort = destinationPort ∧
          tcpHeader.sequenceNumber = seq ∧ tcpHeader.acknowledgmentNumber = ack ∧
          tcpHeader.flags = flags) ∧
    (IpV4Header.HEADER_SIZE + UdpHeader.UDP_HEADER_SIZE + data.length ≤ 65535 →
      ∃ frame, UdpHeader.createUdpPacket ourIp ourMac destinationIp destinationPort destinationMac
          sourcePort data = some frame ∧
        (IpV4Header.read ((frame.drop 14).take 20)).checksumCorrect = true ∧
        (IpV4Header.read ((frame.drop 14).take 20)).totalPacketLength.toNat =
          IpV4Header.HEADER_SIZE + UdpHeader.UDP_HEADER_SIZE + data.length ∧
        ∃ udpHeader, UdpHeader.process (frame.drop 34)
            (IpV4Header.read ((frame.drop 14).take 20)) = some (.ok (udpHeader, data)) ∧
          udpHeader.sourcePort = sourcePort ∧ udpHeader.destinationPort = destinationPort ∧
          UdpHeader.computeChecksum data udpHeader (IpV4Header.read ((frame.drop 14).take 20)) =
            some 0) := by
  constructor
  · intro hflags hlength
    exact TcpHeader.createTcpPacket_parses ourIp ourMac destinationIp destinationMac sourcePort
      destinationPort seq ack window hflags hlength
  · intro hlength
    exact UdpHeader.createUdpPacket_parses ourIp ourMac destinationIp destinationPort
      destinationMac sourcePort hlength

/-- A SYN-ACK with a two-byte payload from `10.0.2.15` to `10.0.2.2`, and the
same payload as a UDP datagram. -/
theorem createPacket_process_agree_synAck :
    (∃ frame, TcpHeader.createTcpPacket ⟨0x0A00020F⟩ ⟨0x525400123456⟩ ⟨0x0A000202⟩
          ⟨0x525400123402⟩ 1234 80 100 200 0x12 8192 [72, 105] = some frame ∧
        (IpV4Header.read ((frame.drop 14).take 20)).checksumCorrect = true ∧
        (IpV4Header.read ((frame.drop 14).take 20)).totalPacketLength.toNat =
          IpV4Header.HEADER_SIZE + TcpHeader.HEADER_SIZE + [72, 105].length ∧
        ∃ tcpHeader, TcpHeader.process (frame.drop 34)
            (IpV4Header.read ((frame.drop 14).take 20)) = some (.ok (tcpHeader, [72, 105])) ∧
          tcpHeader.sourcePort = 1234 ∧ tcpHeader.destinationPort = 80 ∧
          tcpHeader.sequenceNumber = 100 ∧ tcpHeader.acknowledgmentNumber = 200 ∧
          tcpHeader.flags = 0x12) ∧
    (∃ frame, UdpHeader.createUdpPacket ⟨0x0A00020F⟩ ⟨0x525400123456⟩ ⟨0x0A000202⟩ 80
          ⟨0x525400123402⟩ 1234 [72, 105] = some frame ∧
        (IpV4Header.read ((frame.drop 14).take 20)).checksumCorrect = true ∧
        (IpV4Header.read ((frame.drop 14).take 20)).totalPacketLength.toNat =
          IpV4Header.HEADER_SIZE + UdpHeader.UDP_HEADER_SIZE + [72, 105].length ∧
        ∃ udpHeader, UdpHeader.process (frame.drop 34)
            (IpV4Header.read ((frame.drop 14).take 20)) = some (.ok (udpHeader, [72, 105])) ∧
          udpHeader.sourcePort = 1234 ∧ udpHeader.destinationPort = 80 ∧
          UdpHeader.computeChecksum [72, 105] udpHeader
            (IpV4Header.read ((frame.drop 14).take 20)) = some 0) :=
  ⟨(createPacket_process_agree ⟨0x0A00020F⟩ ⟨0x525400123456⟩ ⟨0x0A000202⟩ ⟨0x525400123402⟩
      1234 80 100 200 0x12 8192 [72, 105]).1 (by decide) (by decide),
    (createPacket_process_agree ⟨0x0A00020F⟩ ⟨0x525400123456⟩ ⟨0x0A000202⟩ ⟨0x525400123402⟩
      1234 80 100 200 0x12 8192 [72, 105]).2 (by decide)⟩

end Solaya.Net

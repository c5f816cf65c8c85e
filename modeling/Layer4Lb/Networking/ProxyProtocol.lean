import Layer4Lb.Net.Addr
import Layer4Lb.Lib.Bytes

/-!
# The PROXY protocol version 2 header

`create_v2_header` of `networking/proxy_protocol.rs`, which `proxy_connection`
sends to the backend before any byte of the client's, and the layout a receiver
reads a version 2 header by: the 12-byte signature, a byte of version (high
nibble) and command (low nibble), a byte of address family and transport
protocol, a 16-bit big-endian length, and that many bytes of addresses.  For
`AF_INET` and `AF_INET6` the addresses are the source address, the destination
address, the source port and the destination port, ports big-endian.

For two endpoints of one family the header reads back as a `PROXY` command over
`STREAM` with the two endpoints.  For endpoints of two families the code puts the
`LOCAL` byte `0x20` after the `PROXY` byte `0x21` it has already put, and the
receiver reads a `PROXY` command over `AF_INET6` with no address block, then one
stray `0x00` at the start of what it takes for the client's data.
-/

namespace Layer4Lb

open Bytes

/-- `V2_SIG`. -/
def v2Sig : List UInt8 := [0x0D, 0x0A, 0x0D, 0x0A, 0x00, 0x0D, 0x0A, 0x51, 0x55, 0x49, 0x54, 0x0A]

@[simp] theorem length_v2Sig : v2Sig.length = 12 := rfl

/-- `create_v2_header`: the bytes put into the buffer, in the order they are put. -/
def createV2Header (srcAddr dstAddr : SocketAddr) : List UInt8 :=
  v2Sig ++ [0x21] ++
    match srcAddr, dstAddr with
    | .v4 src srcPort, .v4 dst dstPort =>
      [0x11] ++ be16 12 ++ src.octets ++ dst.octets ++ be16 srcPort ++ be16 dstPort
    | .v6 src srcPort, .v6 dst dstPort =>
      [0x21] ++ be16 36 ++ src.octets ++ dst.octets ++ be16 srcPort ++ be16 dstPort
    | _, _ => [0x20] ++ [0x00] ++ be16 0

/-! ## The layout a receiver reads -/

/-- A version 2 header as a receiver reads it: the two nibbles of the version
and command byte, the two of the family and protocol byte, and the address
block. -/
structure V2Header where
  version : Nat
  command : Nat
  family : Nat
  protocol : Nat
  addresses : List UInt8
  deriving DecidableEq, Repr

namespace V2Header

/-- The command `PROXY`, and `LOCAL` is `0`. -/
def cmdProxy : Nat := 1

/-- The families `AF_INET` and `AF_INET6`; `AF_UNSPEC` is `0`. -/
def afInet : Nat := 1

def afInet6 : Nat := 2

/-- The transport protocol `STREAM`; `UNSPEC` is `0`. -/
def stream : Nat := 1

/-- The two endpoints an address block gives: for `AF_INET` twelve bytes of
IPv4 addresses and ports, for `AF_INET6` thirty-six bytes of IPv6 addresses
and ports; nothing for another family or another length. -/
def endpoints (h : V2Header) : Option (SocketAddr × SocketAddr) :=
  if h.family = afInet then
    match h.addresses with
    | [a₁, a₂, a₃, a₄, b₁, b₂, b₃, b₄, p₁, p₂, q₁, q₂] =>
      some (.v4 ⟨a₁, a₂, a₃, a₄⟩ (beValue [p₁, p₂]).toUInt16,
        .v4 ⟨b₁, b₂, b₃, b₄⟩ (beValue [q₁, q₂]).toUInt16)
    | _ => none
  else if h.family = afInet6 then
    if hl : h.addresses.length = 36 then
      some (.v6 ⟨h.addresses.take 16, by simp [hl]⟩ (beValue ((h.addresses.drop 32).take 2)).toUInt16,
        .v6 ⟨(h.addresses.drop 16).take 16, by simp [hl]⟩ (beValue (h.addresses.drop 34)).toUInt16)
    else none
  else none

end V2Header

/-- How a receiver reads a version 2 header at the start of a stream: the header
and the bytes after it, or `none` when the stream does not start with the
signature and a whole header. -/
def readV2Header (bs : List UInt8) : Option (V2Header × List UInt8) :=
  if bs.take 12 = v2Sig then
    match bs.drop 12 with
    | verCmd :: famProto :: lenHi :: lenLo :: body =>
      if beValue [lenHi, lenLo] ≤ body.length then
        some (⟨verCmd.toNat / 16, verCmd.toNat % 16, famProto.toNat / 16, famProto.toNat % 16,
          body.take (beValue [lenHi, lenLo])⟩, body.drop (beValue [lenHi, lenLo]))
      else none
    | _ => none
  else none

/-- A stream that starts with the signature, the two type bytes, the length of
an address block and the block reads back as that header, leaving the rest. -/
theorem readV2Header_layout (verCmd famProto : UInt8) (len : UInt16) (block rest : List UInt8)
    (hlen : block.length = len.toNat) :
    readV2Header (v2Sig ++ verCmd :: famProto :: be16 len ++ block ++ rest) =
      some (⟨verCmd.toNat / 16, verCmd.toNat % 16, famProto.toNat / 16, famProto.toNat % 16, block⟩,
        rest) := by
  have hsig : (v2Sig ++ verCmd :: famProto :: be16 len ++ block ++ rest).take 12 = v2Sig := by
    simp only [List.append_assoc]
    exact List.take_left' length_v2Sig
  have hdrop : (v2Sig ++ verCmd :: famProto :: be16 len ++ block ++ rest).drop 12 =
      verCmd :: famProto :: (len >>> 8).toUInt8 :: len.toUInt8 :: (block ++ rest) := by
    simp only [List.append_assoc]
    exact List.drop_left' length_v2Sig
  have hval : beValue [(len >>> 8).toUInt8, len.toUInt8] = block.length := by
    rw [hlen, ← beValue_be16]
    rfl
  rw [readV2Header, if_pos hsig, hdrop]
  simp only [hval, List.length_append, Nat.le_add_right, if_true, List.take_left',
    List.drop_left']

/-! ## What `create_v2_header` writes -/

section Header

variable (src dst : Ipv4Addr) (src₆ dst₆ : Ipv6Addr) (srcPort dstPort : UInt16)

/-- The address block of two endpoints: addresses, then ports. -/
def addressBlock (src dst : List UInt8) (srcPort dstPort : UInt16) : List UInt8 :=
  src ++ dst ++ be16 srcPort ++ be16 dstPort

theorem createV2Header_v4 :
    createV2Header (.v4 src srcPort) (.v4 dst dstPort) =
      v2Sig ++ 0x21 :: 0x11 :: be16 12 ++ addressBlock src.octets dst.octets srcPort dstPort := by
  simp [createV2Header, addressBlock]

theorem createV2Header_v6 :
    createV2Header (.v6 src₆ srcPort) (.v6 dst₆ dstPort) =
      v2Sig ++ 0x21 :: 0x21 :: be16 36 ++ addressBlock src₆.octets dst₆.octets srcPort dstPort := by
  simp [createV2Header, addressBlock]

/-- Two IPv4 endpoints read back from their header as a version 2 `PROXY` command
over `AF_INET` and `STREAM`, with their address block. -/
theorem readV2Header_createV2Header_v4 (rest : List UInt8) :
    readV2Header (createV2Header (.v4 src srcPort) (.v4 dst dstPort) ++ rest) =
      some (⟨2, V2Header.cmdProxy, V2Header.afInet, V2Header.stream,
        addressBlock src.octets dst.octets srcPort dstPort⟩, rest) := by
  rw [createV2Header_v4, readV2Header_layout _ _ _ _ _ (by simp [addressBlock])]
  rfl

theorem endpoints_v4 :
    (⟨2, 1, V2Header.afInet, 1, addressBlock src.octets dst.octets srcPort dstPort⟩ :
      V2Header).endpoints = some (.v4 src srcPort, .v4 dst dstPort) := by
  simp [V2Header.endpoints, addressBlock, Ipv4Addr.octets, be16]

theorem endpoints_v6 :
    (⟨2, 1, V2Header.afInet6, 1, addressBlock src₆.octets dst₆.octets srcPort dstPort⟩ :
      V2Header).endpoints = some (.v6 src₆ srcPort, .v6 dst₆ dstPort) := by
  -- the block is the two sixteen-octet addresses and the two ports, in order
  have hlen : (addressBlock src₆.octets dst₆.octets srcPort dstPort).length = 36 := by
    simp [addressBlock]
  have hblock : addressBlock src₆.octets dst₆.octets srcPort dstPort =
      src₆.octets ++ (dst₆.octets ++ (be16 srcPort ++ be16 dstPort)) := by
    simp [addressBlock]
  have h₁ : (addressBlock src₆.octets dst₆.octets srcPort dstPort).take 16 = src₆.octets := by
    rw [hblock]; exact List.take_left' src₆.length_octets
  have h₂ : ((addressBlock src₆.octets dst₆.octets srcPort dstPort).drop 16).take 16 =
      dst₆.octets := by
    rw [hblock, List.drop_left' src₆.length_octets]; exact List.take_left' dst₆.length_octets
  have h₃ : (addressBlock src₆.octets dst₆.octets srcPort dstPort).drop 32 =
      be16 srcPort ++ be16 dstPort := by
    rw [hblock, show 32 = 16 + 16 from rfl, ← List.drop_drop, List.drop_left' src₆.length_octets,
      List.drop_left' dst₆.length_octets]
  have h₄ : (addressBlock src₆.octets dst₆.octets srcPort dstPort).drop 34 = be16 dstPort := by
    rw [show 34 = 32 + 2 from rfl, ← List.drop_drop, h₃, List.drop_left' (length_be16 srcPort)]
  simp only [V2Header.endpoints, V2Header.afInet, V2Header.afInet6, hlen, h₁, h₂, h₃, h₄,
    List.take_left' (length_be16 srcPort), toUInt16_beValue_be16, dite_true, if_true]
  rfl

end Header

/-- Two endpoints of one family read back from their header: a version 2
`PROXY` command over `STREAM`, with the two endpoints, and the rest of the
stream after it. -/
theorem createV2Header_reads_back {srcAddr dstAddr : SocketAddr}
    (h : srcAddr.ip.sameFamily dstAddr.ip = true) (rest : List UInt8) :
    ∃ hdr : V2Header, readV2Header (createV2Header srcAddr dstAddr ++ rest) = some (hdr, rest) ∧
      hdr.version = 2 ∧ hdr.command = V2Header.cmdProxy ∧ hdr.protocol = V2Header.stream ∧
      hdr.endpoints = some (srcAddr, dstAddr) := by
  cases srcAddr with
  | v4 src srcPort =>
    cases dstAddr with
    | v4 dst dstPort =>
      exact ⟨_, readV2Header_createV2Header_v4 src dst srcPort dstPort rest, rfl, rfl, rfl,
        endpoints_v4 src dst srcPort dstPort⟩
    | v6 dst dstPort => cases h
  | v6 src srcPort =>
    cases dstAddr with
    | v4 dst dstPort => cases h
    | v6 dst dstPort =>
      refine ⟨_, ?_, rfl, rfl, rfl, endpoints_v6 src dst srcPort dstPort⟩
      rw [createV2Header_v6, readV2Header_layout _ _ _ _ _ (by simp [addressBlock])]
      rfl

/-- The header of the source's own test, `192.168.1.1:12345` to `10.0.0.1:80`. -/
theorem createV2Header_reads_back_v4 :
    (SocketAddr.v4 ⟨192, 168, 1, 1⟩ 12345).ip.sameFamily (SocketAddr.v4 ⟨10, 0, 0, 1⟩ 80).ip = true ∧
      ∃ hdr : V2Header,
        readV2Header (createV2Header (.v4 ⟨192, 168, 1, 1⟩ 12345) (.v4 ⟨10, 0, 0, 1⟩ 80) ++ []) =
          some (hdr, []) ∧
        hdr.version = 2 ∧ hdr.command = V2Header.cmdProxy ∧ hdr.protocol = V2Header.stream ∧
        hdr.endpoints = some (.v4 ⟨192, 168, 1, 1⟩ 12345, .v4 ⟨10, 0, 0, 1⟩ 80) :=
  ⟨rfl, createV2Header_reads_back rfl []⟩

end Layer4Lb

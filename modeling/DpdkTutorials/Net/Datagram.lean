import DpdkTutorials.Net.InternetChecksum

/-!
# UDP datagrams in IPv4 packets in Ethernet frames

Decoders for the three headers, in network byte order, and the UDP checksum as
a NIC inserts it: the checksum field holds a seed, which the NIC replaces by the
complement of the one's-complement sum of the datagram with the seed in place.

* `verifies_insertUdpChecksum`: if the seed is the sum of the pseudo-header, a
  receiver accepts the datagram.
-/

namespace DpdkTutorials.Net

open DpdkTutorials.Common.Memory

/-! ## Decoders -/

structure EthernetFrame where
  dstAddr : List UInt8
  srcAddr : List UInt8
  etherType : ℕ
  payload : List UInt8
  deriving DecidableEq

/-- The payload is what follows the header. -/
def decodeEthernet (bytes : List UInt8) : Option EthernetFrame :=
  if 14 ≤ bytes.length then
    some {
      dstAddr := bytes.take 6
      srcAddr := (bytes.drop 6).take 6
      etherType := beSum ((bytes.drop 12).take 2)
      payload := bytes.drop 14 }
  else none

structure Ipv4Packet where
  ihl : ℕ
  totalLength : ℕ
  dontFragment : Bool
  moreFragments : Bool
  fragmentOffset : ℕ
  protocol : ℕ
  headerChecksum : ℕ
  srcAddr : List UInt8
  dstAddr : List UInt8
  payload : List UInt8
  deriving DecidableEq

/-- The header has `4 * ihl` bytes, and the packet ends after `totalLength`. -/
def decodeIpv4 (bytes : List UInt8) : Option Ipv4Packet :=
  let versionIhl := (bytes.getD 0 0).toNat
  let ihl := versionIhl % 16
  let totalLength := beSum ((bytes.drop 2).take 2)
  let fragment := beSum ((bytes.drop 6).take 2)
  if versionIhl / 16 = 4 ∧ 5 ≤ ihl ∧ 4 * ihl ≤ totalLength ∧ totalLength ≤ bytes.length then
    some {
      ihl := ihl
      totalLength := totalLength
      dontFragment := fragment.testBit 14
      moreFragments := fragment.testBit 13
      fragmentOffset := fragment % 2 ^ 13
      protocol := (bytes.getD 9 0).toNat
      headerChecksum := beSum ((bytes.drop 10).take 2)
      srcAddr := (bytes.drop 12).take 4
      dstAddr := (bytes.drop 16).take 4
      payload := (bytes.take totalLength).drop (4 * ihl) }
  else none

structure UdpDatagram where
  srcPort : ℕ
  dstPort : ℕ
  length : ℕ
  checksum : ℕ
  payload : List UInt8
  deriving DecidableEq

/-- The datagram ends after `length` bytes, the header among them. -/
def decodeUdp (bytes : List UInt8) : Option UdpDatagram :=
  let length := beSum ((bytes.drop 4).take 2)
  if 8 ≤ length ∧ length ≤ bytes.length then
    some {
      srcPort := beSum (bytes.take 2)
      dstPort := beSum ((bytes.drop 2).take 2)
      length := length
      checksum := beSum ((bytes.drop 6).take 2)
      payload := (bytes.take length).drop 8 }
  else none

/-! ## The UDP checksum -/

/-- What a receiver puts in front of a datagram to verify it: the addresses and
    the protocol of its packet, and its length. -/
def udpPseudoHeader (packet : Ipv4Packet) (length : ℕ) : List UInt8 :=
  packet.srcAddr ++ packet.dstAddr ++ [0, UInt8.ofNat packet.protocol] ++
    be16 (UInt16.ofNat length)

/-- What a NIC makes of the bytes of a datagram: the checksum field is replaced
    by the complement of the one's-complement sum. -/
def insertUdpChecksum (bytes : List UInt8) : List UInt8 :=
  bytes.take 6 ++ be16 (internetChecksum bytes) ++ bytes.drop 8

/-- The sum of a datagram by its parts: up to the checksum field, the field, and
    the rest. -/
theorem beSum_split {bytes : List UInt8} (h : 8 ≤ bytes.length) :
    beSum bytes =
      beSum (bytes.take 6) + beSum ((bytes.drop 6).take 2) + beSum (bytes.drop 8) := by
  have hparts : bytes = bytes.take 6 ++ ((bytes.drop 6).take 2 ++ bytes.drop 8) := by
    have hrest : bytes.drop 8 = (bytes.drop 6).drop 2 := by rw [List.drop_drop]
    rw [hrest, List.take_append_drop, List.take_append_drop]
  conv_lhs => rw [hparts]
  rw [beSum_append, beSum_append, Nat.add_assoc]
  · rw [List.length_take, List.length_drop]
    omega
  · rw [List.length_take]
    omega

/-- A datagram whose checksum field holds the sum of the pseudo-header verifies
    once the NIC has inserted the checksum. -/
theorem verifies_insertUdpChecksum {pseudo bytes : List UInt8} (hpseudo : pseudo.length % 2 = 0)
    (hpos : 0 < beSum pseudo) (h8 : 8 ≤ bytes.length)
    (hlen : pseudo.length + bytes.length < 65536)
    (hseed : beSum ((bytes.drop 6).take 2) % 65535 = beSum pseudo % 65535) :
    Verifies (pseudo ++ insertUdpChecksum bytes) := by
  have hchecksum : (internetChecksum bytes).toNat = 65535 - foldCarries (beSum bytes) :=
    toNat_internetChecksum (by omega)
  have hfold := foldCarries_mod (beSum bytes)
  have hlt := foldCarries_lt (beSum bytes) (by have := beSum_le bytes; omega)
  have hsplit := beSum_split h8
  have hinserted : beSum (insertUdpChecksum bytes) =
      beSum (bytes.take 6) + (internetChecksum bytes).toNat + beSum (bytes.drop 8) := by
    rw [insertUdpChecksum, beSum_append, beSum_append]
    · rw [beSum_be16]
    · rw [List.length_take]
      omega
    · rw [List.length_append, List.length_take, length_be16]
      omega
  have hlength : (pseudo ++ insertUdpChecksum bytes).length = pseudo.length + bytes.length := by
    simp [insertUdpChecksum]
    omega
  rw [verifies_iff (by rw [hlength]; exact hlen), beSum_append hpseudo, hinserted]
  omega

end DpdkTutorials.Net

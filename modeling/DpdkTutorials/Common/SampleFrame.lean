import DpdkTutorials.Dpdk.Headers

/-!
# The sample frame of the transmitting programs

Programs 2, 4, 5, 7 and 9 fill a buffer with the same kind of frame: an
Ethernet header, an IPv4 header, a UDP header and 172 bytes of payload that
start with a sample text. They write field by field, in the same order, with
their own addresses, ports and checksums. The three parts below are the
statements they share.

Each part has lemmas about the bytes it writes; the last two also have one that
says they write nothing else. The IPv4 checksum is the one field no part writes
(`load_writeEthernetIpv4_checksum`).
-/

namespace DpdkTutorials.Common

open DpdkTutorials.Dpdk DpdkTutorials.Common.Memory

/-- The payload of the frame in bytes. -/
def payloadSize : ℕ := 172

/-- `sizeof(rte_ether_hdr) + sizeof(rte_ipv4_hdr) + sizeof(rte_udp_hdr) + 172`. -/
def frameSize : ℕ := sizeofRteEtherHdr + sizeofRteIpv4Hdr + sizeofRteUdpHdr + payloadSize

/-- `sample_data` with its terminating zero. -/
def sampleData : List UInt8 :=
  "This is a sample data generated by a DPDK application ...".toList.map
    (fun c => UInt8.ofNat c.toNat) ++ [0]

@[simp] theorem length_sampleData : sampleData.length = 58 := by decide

/-- The Ethernet header and the IPv4 header without its checksum. -/
def writeEthernetIpv4 (srcMacAddr dstMacAddr srcIpAddr destIpAddr : List UInt8) (data : ℕ)
    (m : Memory) : Memory :=
  let ethHdr := data
  let m := m.store16 (RteEtherHdr.etherType ethHdr) (rteCpuToBe16 rteEtherTypeIpv4)
  let m := m.store (RteEtherHdr.srcAddr ethHdr) srcMacAddr
  let m := m.store (RteEtherHdr.dstAddr ethHdr) dstMacAddr
  let ipv4Hdr := data + sizeofRteEtherHdr
  let m := RteIpv4Hdr.setVersion m ipv4Hdr 4
  let m := RteIpv4Hdr.setIhl m ipv4Hdr 5
  let m := m.store8 (RteIpv4Hdr.typeOfService ipv4Hdr) 0
  let m := m.store16 (RteIpv4Hdr.totalLength ipv4Hdr) (rteCpuToBe16 200)
  let m := m.store16 (RteIpv4Hdr.packetId ipv4Hdr) 0
  -- Written as the host has it: the don't-fragment bit lands in the first byte.
  let m := m.store16 (RteIpv4Hdr.fragmentOffset ipv4Hdr) 0x0040
  let m := m.store8 (RteIpv4Hdr.timeToLive ipv4Hdr) 64
  let m := m.store8 (RteIpv4Hdr.nextProtoId ipv4Hdr) 17
  let m := m.store (RteIpv4Hdr.srcAddr ipv4Hdr) srcIpAddr
  m.store (RteIpv4Hdr.dstAddr ipv4Hdr) destIpAddr

/-- The UDP header. -/
def writeUdp (dstPort srcPort dgramCksum : UInt16) (data : ℕ) (m : Memory) : Memory :=
  let udpHdr := data + sizeofRteEtherHdr + sizeofRteIpv4Hdr
  let m := m.store16 (RteUdpHdr.dstPort udpHdr) (rteCpuToBe16 dstPort)
  let m := m.store16 (RteUdpHdr.srcPort udpHdr) (rteCpuToBe16 srcPort)
  let m := m.store16 (RteUdpHdr.dgramLen udpHdr) (rteCpuToBe16 180)
  m.store16 (RteUdpHdr.dgramCksum udpHdr) dgramCksum

/-- The payload: zeros, then the sample text over them. -/
def writePayload (data : ℕ) (m : Memory) : Memory :=
  let payload := data + sizeofRteEtherHdr + sizeofRteIpv4Hdr + sizeofRteUdpHdr
  let m := m.store payload (List.replicate payloadSize 0)
  m.store payload sampleData

/-! ## The bytes of each part -/

section EthernetIpv4

variable {srcMacAddr dstMacAddr srcIpAddr destIpAddr : List UInt8} {data : ℕ} {m : Memory}

/-- Everything before the IPv4 checksum. -/
theorem load_writeEthernetIpv4_headers (hsrc : srcMacAddr.length = 6)
    (hdst : dstMacAddr.length = 6) :
    (writeEthernetIpv4 srcMacAddr dstMacAddr srcIpAddr destIpAddr data m).load data 24 =
      dstMacAddr ++ srcMacAddr ++ [0x08, 0x00, 0x45, 0, 0, 200, 0, 0, 0x40, 0, 64, 17] := by
  show Memory.load _ data (6 + 6 + 2 + 1 + 1 + 2 + 2 + 2 + 1 + 1) = _
  simp only [load_add]
  simp only [writeEthernetIpv4, sizeofRteEtherHdr, RteEtherHdr.etherType, RteEtherHdr.srcAddr,
    RteEtherHdr.dstAddr, RteIpv4Hdr.typeOfService, RteIpv4Hdr.totalLength, RteIpv4Hdr.packetId,
    RteIpv4Hdr.fragmentOffset, RteIpv4Hdr.timeToLive, RteIpv4Hdr.nextProtoId, RteIpv4Hdr.srcAddr,
    RteIpv4Hdr.dstAddr, Nat.add_assoc, Nat.reduceAdd]
  simp (disch := omega) only [load_store_disjoint, load_store16_disjoint, load_store8_disjoint,
    RteIpv4Hdr.load_setIhl_disjoint, RteIpv4Hdr.load_setVersion_disjoint, load_store_self,
    load_store16_self, load_store8_self, RteIpv4Hdr.load_setIhl_setVersion, le16_rteCpuToBe16]
  simp only [List.append_assoc]
  rfl

/-- Everything between the IPv4 checksum and the UDP header. -/
theorem load_writeEthernetIpv4_addresses (hip : srcIpAddr.length = 4)
    (hip' : destIpAddr.length = 4) :
    (writeEthernetIpv4 srcMacAddr dstMacAddr srcIpAddr destIpAddr data m).load (data + 26) 8 =
      srcIpAddr ++ destIpAddr := by
  show Memory.load _ (data + 26) (4 + 4) = _
  simp only [load_add]
  simp only [writeEthernetIpv4, sizeofRteEtherHdr, RteIpv4Hdr.srcAddr, RteIpv4Hdr.dstAddr,
    Nat.add_assoc, Nat.reduceAdd]
  simp (disch := omega) only [load_store_disjoint, load_store_self]

/-- The IPv4 checksum is left as it was. -/
theorem load_writeEthernetIpv4_checksum (hsrc : srcMacAddr.length = 6)
    (hdst : dstMacAddr.length = 6) :
    (writeEthernetIpv4 srcMacAddr dstMacAddr srcIpAddr destIpAddr data m).load (data + 24) 2 =
      m.load (data + 24) 2 := by
  simp only [writeEthernetIpv4, sizeofRteEtherHdr, RteEtherHdr.etherType, RteEtherHdr.srcAddr,
    RteEtherHdr.dstAddr, RteIpv4Hdr.typeOfService, RteIpv4Hdr.totalLength, RteIpv4Hdr.packetId,
    RteIpv4Hdr.fragmentOffset, RteIpv4Hdr.timeToLive, RteIpv4Hdr.nextProtoId, RteIpv4Hdr.srcAddr,
    RteIpv4Hdr.dstAddr, Nat.add_assoc, Nat.reduceAdd]
  simp (disch := omega) only [load_store_disjoint, load_store16_disjoint, load_store8_disjoint,
    RteIpv4Hdr.load_setIhl_disjoint, RteIpv4Hdr.load_setVersion_disjoint]

end EthernetIpv4

section Udp

variable {dstPort srcPort dgramCksum : UInt16} {data : ℕ} {m : Memory}

theorem load_writeUdp :
    (writeUdp dstPort srcPort dgramCksum data m).load (data + 34) 8 =
      be16 srcPort ++ be16 dstPort ++ [0, 180] ++ le16 dgramCksum := by
  show Memory.load _ (data + 34) (2 + 2 + 2 + 2) = _
  simp only [load_add]
  simp only [writeUdp, sizeofRteEtherHdr, sizeofRteIpv4Hdr, RteUdpHdr.dstPort, RteUdpHdr.srcPort,
    RteUdpHdr.dgramLen, RteUdpHdr.dgramCksum, Nat.add_assoc, Nat.reduceAdd]
  simp (disch := omega) only [load_store16_disjoint, load_store16_self, le16_rteCpuToBe16]
  rfl

theorem load_writeUdp_disjoint {b n : ℕ} (h : b + n ≤ data + 34 ∨ data + 42 ≤ b) :
    (writeUdp dstPort srcPort dgramCksum data m).load b n = m.load b n := by
  simp only [writeUdp, sizeofRteEtherHdr, sizeofRteIpv4Hdr, RteUdpHdr.dstPort, RteUdpHdr.srcPort,
    RteUdpHdr.dgramLen, RteUdpHdr.dgramCksum, Nat.add_assoc, Nat.reduceAdd]
  simp (disch := omega) only [load_store16_disjoint]

end Udp

section Payload

variable {data : ℕ} {m : Memory}

/-- The 172 bytes of the payload. -/
def payload : List UInt8 := sampleData ++ List.replicate 114 0

@[simp] theorem length_payload : payload.length = 172 := by
  rw [payload, List.length_append, length_sampleData, List.length_replicate]

theorem load_writePayload : (writePayload data m).load (data + 42) payloadSize = payload := by
  have hlen := length_sampleData
  show Memory.load _ (data + 42) (58 + 114) = _
  rw [load_add]
  simp only [writePayload, sizeofRteEtherHdr, sizeofRteIpv4Hdr, sizeofRteUdpHdr, payloadSize,
    Nat.add_assoc, Nat.reduceAdd]
  rw [load_store_self hlen, load_store_disjoint (by omega),
    load_store_within (by omega) (by rw [List.length_replicate])]
  rw [List.drop_replicate, List.take_replicate]
  have h : data + 100 - (data + 42) = 58 := by omega
  rw [h]
  rfl

theorem load_writePayload_disjoint {b n : ℕ} (h : b + n ≤ data + 42) :
    (writePayload data m).load b n = m.load b n := by
  simp only [writePayload, sizeofRteEtherHdr, sizeofRteIpv4Hdr, sizeofRteUdpHdr, Nat.add_assoc,
    Nat.reduceAdd]
  rw [load_store_disjoint (by omega), load_store_disjoint (by omega)]

end Payload

end DpdkTutorials.Common

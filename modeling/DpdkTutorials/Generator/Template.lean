import DpdkTutorials.Common.SampleFrame

/-!
# The frames of `9-packet-generator`

`prepare_memory_pool` writes one frame into every buffer of the pool. The
frames differ in `temp`, a byte that counts the buffers: it is the last byte of
the four addresses and, incremented, an offset of the two ports.

* `load_writeTemplate`: the 214 bytes written depend on `temp` alone.
-/

namespace DpdkTutorials.Generator

open DpdkTutorials.Common DpdkTutorials.Common.Memory DpdkTutorials.Dpdk DpdkTutorials.Net

/-- The body of the second loop of `prepare_memory_pool` (main.cpp:223-271), on
    the data area at `data`. -/
def writeTemplate (temp : UInt8) (data : ℕ) (m : Memory) : Memory :=
  let m := writeEthernetIpv4 [0x08, 0x00, 0x27, 0x95, 0xBD, temp]
    [0x08, 0x00, 0x27, 0x35, 0x14, temp] [10, 10, 8, temp] [100, 10, 100, temp] data m
  let temp := temp + 1
  let ipv4Hdr := data + sizeofRteEtherHdr
  let m := m.store16 (RteIpv4Hdr.hdrChecksum ipv4Hdr) 0
  let m := writeUdp (5566 + temp.toUInt16) (9988 + temp.toUInt16) (rteIpv4PhdrCksum m ipv4Hdr)
    data m
  writePayload data m

/-- The pseudo-header of a frame: addresses, protocol and UDP length. -/
def pseudoHeader (temp : UInt8) : List UInt8 :=
  [10, 10, 8, temp, 100, 10, 100, temp, 0, 17, 0, 180]

/-- The Ethernet header, and the IPv4 header up to its checksum. -/
def templateHeaders (temp : UInt8) : List UInt8 :=
  [0x08, 0x00, 0x27, 0x35, 0x14, temp, 0x08, 0x00, 0x27, 0x95, 0xBD, temp, 0x08, 0x00,
    0x45, 0, 0, 200, 0, 0, 0x40, 0, 64, 17]

/-- The UDP header. Its checksum field holds the sum of the pseudo-header. -/
def templateUdp (temp : UInt8) : List UInt8 :=
  be16 (9988 + (temp + 1).toUInt16) ++ be16 (5566 + (temp + 1).toUInt16) ++ [0, 180] ++
    le16 (rteRawCksum (pseudoHeader temp))

/-- A frame as it lies in its buffer. -/
def templateFrame (temp : UInt8) : List UInt8 :=
  templateHeaders temp ++ [0, 0] ++ [10, 10, 8, temp, 100, 10, 100, temp] ++ templateUdp temp ++
    payload

/-- The source and the destination port of a frame. -/
theorem toNat_ports (temp : UInt8) :
    (9988 + (temp + 1).toUInt16).toNat = 9988 + (temp + 1).toNat ∧
      (5566 + (temp + 1).toUInt16).toNat = 5566 + (temp + 1).toNat := by
  have h := (temp + 1).toNat_lt
  rw [UInt16.toNat_add, UInt16.toNat_add, UInt8.toNat_toUInt16]
  exact ⟨Nat.mod_eq_of_lt (by simp; omega), Nat.mod_eq_of_lt (by simp; omega)⟩

@[simp] theorem length_pseudoHeader (temp : UInt8) : (pseudoHeader temp).length = 12 := rfl

theorem beSum_pseudoHeader (temp : UInt8) :
    beSum (pseudoHeader temp) = 56025 + 2 * temp.toNat := by
  simp [pseudoHeader, beSum]
  omega

/-- The seed of the UDP checksum is the sum of the frame's own pseudo-header. -/
theorem rteIpv4PhdrCksum_eq {temp : UInt8} {data : ℕ} {m : Memory}
    (hheaders : m.load data 24 = templateHeaders temp)
    (haddr : m.load (data + 26) 8 = [10, 10, 8, temp, 100, 10, 100, temp]) :
    rteIpv4PhdrCksum m (data + sizeofRteEtherHdr) = rteRawCksum (pseudoHeader temp) := by
  have hlength : m.load (data + 16) 2 = [0, 200] := by
    rw [load_slice m (show 16 + 2 ≤ 24 by omega), hheaders]; rfl
  have hihl : m (data + 14) = 0x45 := by
    have h := load_slice m (a := data) (show 14 + 1 ≤ 24 by omega)
    rw [hheaders, load_one] at h
    exact List.head_eq_of_cons_eq h
  have hproto : m (data + 23) = 17 := by
    have h := load_slice m (a := data) (show 23 + 1 ≤ 24 by omega)
    rw [hheaders, load_one] at h
    exact List.head_eq_of_cons_eq h
  have hsrc : m.load (data + 26) 4 = [10, 10, 8, temp] := by
    have h := load_slice m (a := data + 26) (show 0 + 4 ≤ 8 by omega)
    rwa [haddr] at h
  have hdst : m.load (data + 30) 4 = [100, 10, 100, temp] := by
    have h := load_slice m (a := data + 26) (show 4 + 4 ≤ 8 by omega)
    rwa [haddr] at h
  simp only [rteIpv4PhdrCksum, sizeofRteEtherHdr, RteIpv4Hdr.totalLength, RteIpv4Hdr.versionIhl,
    RteIpv4Hdr.srcAddr, RteIpv4Hdr.dstAddr, RteIpv4Hdr.nextProtoId, Nat.add_assoc, Nat.reduceAdd,
    hlength, hihl, hproto, hsrc, hdst]
  rfl

/-- The frame, part by part, with the IPv4 header checksum still at zero. -/
theorem load_checksumCleared (temp : UInt8) (data : ℕ) (m : Memory) :
    let m' := (writeEthernetIpv4 [0x08, 0x00, 0x27, 0x95, 0xBD, temp]
      [0x08, 0x00, 0x27, 0x35, 0x14, temp] [10, 10, 8, temp] [100, 10, 100, temp] data m).store16
        (RteIpv4Hdr.hdrChecksum (data + sizeofRteEtherHdr)) 0
    m'.load data 24 = templateHeaders temp ∧ m'.load (data + 24) 2 = [0, 0] ∧
      m'.load (data + 26) 8 = [10, 10, 8, temp, 100, 10, 100, temp] := by
  simp only [RteIpv4Hdr.hdrChecksum, sizeofRteEtherHdr, Nat.add_assoc, Nat.reduceAdd]
  refine ⟨?_, ?_, ?_⟩
  · rw [load_store16_disjoint (by omega), load_writeEthernetIpv4_headers rfl rfl]
    rfl
  · rw [load_store16_self]
    rfl
  · rw [load_store16_disjoint (by omega), load_writeEthernetIpv4_addresses rfl rfl]
    rfl

/-- What the buffer held before does not matter. -/
theorem load_writeTemplate (temp : UInt8) (data : ℕ) (m : Memory) :
    (writeTemplate temp data m).load data frameSize = templateFrame temp := by
  obtain ⟨hheaders, hcksum, haddr⟩ := load_checksumCleared temp data m
  show Memory.load _ data (24 + 2 + 8 + 8 + payloadSize) = _
  simp only [load_add]
  simp only [writeTemplate, Nat.reduceAdd]
  rw [load_writePayload_disjoint (by omega), load_writeUdp_disjoint (by omega), hheaders,
    load_writePayload_disjoint (by omega), load_writeUdp_disjoint (by omega), hcksum,
    load_writePayload_disjoint (by omega), load_writeUdp_disjoint (by omega), haddr,
    load_writePayload_disjoint (by omega), load_writeUdp, load_writePayload,
    rteIpv4PhdrCksum_eq hheaders haddr]
  rfl

end DpdkTutorials.Generator

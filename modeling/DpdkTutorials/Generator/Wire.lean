import DpdkTutorials.Generator.Datagrams
import DpdkTutorials.Generator.Offload
import DpdkTutorials.Sending.Frame

/-!
# The frames of `9-packet-generator` on the wire

The routine leaves both checksums of a packet to the NIC (main.cpp:255-265,
401-406). What a receiver gets then depends on the offloads that are enabled on
the port, and on nothing else: the packets themselves are prepared for both.

* `wireFrame_eq`: the frame on the wire, for any offloads.
* `wire_checksums`: a receiver finds a checksum right iff its offload is enabled.
-/

namespace DpdkTutorials.Generator

open DpdkTutorials.Common DpdkTutorials.Common.Memory DpdkTutorials.Dpdk DpdkTutorials.Net

/-! ## Specification -/

/-- The frame on the wire: the NIC inserts the checksums that the packet asks for
    and that are enabled on the port. -/
def wireFrame (txOffloads : UInt64) (buf : Mbuf) : List UInt8 :=
  let headers := buf.l2Len + buf.l3Len
  let frame :=
    if Enables txOffloads rteEthTxOffloadUdpCksum ∧
        buf.olFlags &&& rteMbufFTxL4Mask = rteMbufFTxUdpCksum then
      buf.packet.take headers ++ insertUdpChecksum (buf.packet.drop headers)
    else buf.packet
  if Enables txOffloads rteEthTxOffloadIpv4Cksum ∧ Enables buf.olFlags rteMbufFTxIpCksum then
    Sending.insertIpv4Cksum buf.l2Len buf.l3Len frame
  else frame

/-- A receiver decodes the frame as the datagram between the endpoints `e`, with
    the sample payload. The checksum of the IPv4 header is right iff `ipv4`, that
    of the datagram iff `udp`. -/
def Received (frame : List UInt8) (e : Endpoints) (ipv4 udp : Prop) : Prop :=
  ∃ ethernet packet datagram, decodeEthernet frame = some ethernet ∧
    decodeIpv4 ethernet.payload = some packet ∧ decodeUdp packet.payload = some datagram ∧
    e = ⟨packet.srcAddr, packet.dstAddr, datagram.srcPort, datagram.dstPort⟩ ∧
    datagram.payload = payload ∧
    (Verifies (ethernet.payload.take (4 * packet.ihl)) ↔ ipv4) ∧
    (Verifies (udpPseudoHeader packet datagram.length ++ packet.payload) ↔ udp)

/-! ## The checksum fields -/

theorem insertIpv4Cksum_frameWith (temp : UInt8) {udp : List UInt8} (hudp : udp.length = 2) :
    Sending.insertIpv4Cksum 14 20 (frameWith temp [0, 0] udp) =
      frameWith temp (be16 (internetChecksum (headerWith temp [0, 0]))) udp := by
  obtain ⟨c, d, rfl⟩ := List.length_eq_two.mp hudp
  rfl

theorem insertUdpChecksum_datagramWith (temp : UInt8) {udp : List UInt8} (hudp : udp.length = 2) :
    insertUdpChecksum (datagramWith temp udp) =
      datagramWith temp (be16 (internetChecksum (datagramWith temp udp))) := by
  obtain ⟨c, d, rfl⟩ := List.length_eq_two.mp hudp
  rfl

theorem insertUdpChecksum_frameWith (temp : UInt8) {udp : List UInt8} (hudp : udp.length = 2) :
    (frameWith temp [0, 0] udp).take 34 ++ insertUdpChecksum ((frameWith temp [0, 0] udp).drop 34) =
      frameWith temp [0, 0] (be16 (internetChecksum (datagramWith temp udp))) := by
  obtain ⟨c, d, rfl⟩ := List.length_eq_two.mp hudp
  rfl

/-- The frame on the wire: each enabled offload fills in its field. -/
theorem wireFrame_eq {txOffloads : UInt64} {buf : Mbuf} {temp : UInt8} (hfields : FieldsSet buf)
    (hpacket : buf.packet = templateFrame temp) :
    wireFrame txOffloads buf = frameWith temp
      (if Enables txOffloads rteEthTxOffloadIpv4Cksum then
        be16 (internetChecksum (headerWith temp [0, 0])) else [0, 0])
      (if Enables txOffloads rteEthTxOffloadUdpCksum then
        be16 (internetChecksum (datagramWith temp (seed temp))) else seed temp) := by
  have hasks : Enables buf.olFlags rteMbufFTxIpCksum := by
    rw [hfields.olFlags]
    decide
  simp only [wireFrame, hpacket, templateFrame_eq, hfields.l2Len, hfields.l3Len, asks_udp hfields,
    hasks, and_true]
  rw [insertUdpChecksum_frameWith temp (length_seed temp)]
  split_ifs with hipv4 hudp hudp
  · exact insertIpv4Cksum_frameWith temp (length_be16 _)
  · exact insertIpv4Cksum_frameWith temp (length_seed temp)
  · rfl
  · rfl

/-! ## What a receiver finds -/

theorem received_frameWith {temp : UInt8} {ipv4 udp : List UInt8} {p q : Prop}
    (hipv4 : ipv4.length = 2) (hudp : udp.length = 2)
    (hp : Verifies (headerWith temp ipv4) ↔ p)
    (hq : Verifies (pseudoHeader temp ++ datagramWith temp udp) ↔ q) :
    Received (frameWith temp ipv4 udp) (templateEndpoints temp) p q := by
  refine ⟨_, _, _, decodeEthernet_frameWith, decodeIpv4_frameWith hipv4 hudp,
    decodeUdp_frameWith hudp, rfl, rfl, ?_, ?_⟩
  · show Verifies ((headerWith temp ipv4 ++ datagramWith temp udp).take 20) ↔ p
    rwa [List.take_left' (length_headerWith hipv4)]
  · rwa [udpPseudoHeader_template rfl rfl rfl]

/-! ## The checksums -/

theorem beSum_headerWith (temp : UInt8) :
    beSum (headerWith temp [0, 0]) = 106477 + 2 * temp.toNat := by
  simp [headerWith, headerStart, addresses, beSum]
  omega

/-- The zeros that the program leaves in the IPv4 header are never the checksum. -/
theorem verifies_headerWith_iff (temp : UInt8) (p : Prop) [Decidable p] :
    Verifies (headerWith temp (if p then be16 (internetChecksum (headerWith temp [0, 0]))
      else [0, 0])) ↔ p := by
  split_ifs with h
  · refine iff_of_true ?_ h
    unfold headerWith
    exact verifies_checksummed rfl (by simp [headerStart, addresses])
  · refine iff_of_false ?_ h
    have hlength : (headerWith temp [0, 0]).length < 65536 := by
      rw [length_headerWith rfl]
      decide
    have htemp := temp.toNat_lt
    have hsum : 106477 + 2 * temp.toNat = 40942 + 2 * temp.toNat + 65535 := by omega
    rw [verifies_iff hlength, beSum_headerWith, hsum, Nat.add_mod_right,
      Nat.mod_eq_of_lt (by omega)]
    omega

/-- Neither is the sum of the pseudo-header in the datagram, but the NIC makes the
    checksum of it. -/
theorem verifies_datagramWith_iff (temp : UInt8) (p : Prop) [Decidable p] :
    Verifies (pseudoHeader temp ++ datagramWith temp
      (if p then be16 (internetChecksum (datagramWith temp (seed temp))) else seed temp)) ↔ p := by
  split_ifs with h
  · have hcompleted := verifies_completed temp
    rw [insertUdpChecksum_datagramWith temp (length_seed temp)] at hcompleted
    exact iff_of_true hcompleted h
  · have hseed := not_verifies_udp temp
    rw [List.append_assoc, templateUdp_eq] at hseed
    exact iff_of_false hseed h

theorem received_wireFrame {txOffloads : UInt64} {buf : Mbuf} {temp : UInt8}
    (hfields : FieldsSet buf) (hpacket : buf.packet = templateFrame temp) :
    Received (wireFrame txOffloads buf) (templateEndpoints temp)
      (Enables txOffloads rteEthTxOffloadIpv4Cksum)
      (Enables txOffloads rteEthTxOffloadUdpCksum) := by
  rw [wireFrame_eq hfields hpacket]
  refine received_frameWith ?_ ?_ (verifies_headerWith_iff temp _)
    (verifies_datagramWith_iff temp _)
  · split_ifs
    · exact length_be16 _
    · rfl
  · split_ifs
    · exact length_be16 _
    · exact length_seed temp

/-! ## Every packet submitted -/

section Runs

variable {headroom : ℕ} {interval : UInt64} {s : State ℕ (CachedPool (Fin 2) ℕ 512)}

theorem offered_templateFrame (hs : (generator headroom interval).Reachable s)
    (hcall : s.transmit.pc = .burst) {b : ℕ} (hb : b ∈ s.transmit.offered) :
    FieldsSet (s.bufs.mem b) ∧ ∃ temp, (s.bufs.mem b).packet = templateFrame temp := by
  obtain ⟨all, -, hinv⟩ := inv_of_reachable hs
  rw [hinv.offered_eq hcall] at hb
  have hfields := hinv.fields hcall b hb
  obtain ⟨j, -, hload⟩ := hinv.holds b (hinv.mem_of_hand hb)
  rw [← hinv.dataOff b hb] at hload
  exact ⟨hfields, _, packet_eq hfields hload⟩

/-- Every packet submitted in any run reaches the receiver as one of the prepared
    datagrams. Its checksums are right exactly as far as their offloads are enabled
    on the port. -/
theorem wire_checksums (txOffloads : UInt64) (hs : (generator headroom interval).Reachable s)
    (hcall : s.transmit.pc = .burst) {b : ℕ} (hb : b ∈ s.transmit.offered) :
    ∃ temp, Received (wireFrame txOffloads (s.bufs.mem b)) (templateEndpoints temp)
      (Enables txOffloads rteEthTxOffloadIpv4Cksum)
      (Enables txOffloads rteEthTxOffloadUdpCksum) := by
  obtain ⟨hfields, temp, hpacket⟩ := offered_templateFrame hs hcall hb
  exact ⟨temp, received_wireFrame hfields hpacket⟩

end Runs

/-- With both offloads enabled, the first packet of the first burst is accepted. -/
theorem wire_checksums_first_packet : ∃ buf temp,
    Received (wireFrame (rteEthTxOffloadIpv4Cksum ||| rteEthTxOffloadUdpCksum) buf)
      (templateEndpoints temp) True True := by
  obtain ⟨s, hs, hpc, hlen⟩ := generator_bursts 128 16000000
  obtain ⟨b, hb⟩ := List.exists_mem_of_length_pos (by rw [hlen]; decide)
  obtain ⟨temp, hreceived⟩ :=
    wire_checksums (rteEthTxOffloadIpv4Cksum ||| rteEthTxOffloadUdpCksum) hs hpc hb
  have hipv4 : Enables (rteEthTxOffloadIpv4Cksum ||| rteEthTxOffloadUdpCksum)
      rteEthTxOffloadIpv4Cksum := by decide
  have hudp : Enables (rteEthTxOffloadIpv4Cksum ||| rteEthTxOffloadUdpCksum)
      rteEthTxOffloadUdpCksum := by decide
  rw [eq_true hipv4, eq_true hudp] at hreceived
  exact ⟨_, temp, hreceived⟩

end DpdkTutorials.Generator

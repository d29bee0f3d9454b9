import DpdkTutorials.Generator.Coverage

/-!
# Checksum offloading in `9-packet-generator`

Every packet asks the NIC for an IPv4 and a UDP checksum (main.cpp:403), and
its checksum fields are written accordingly: zero, and the sum of the
pseudo-header (main.cpp:255-265). `main` enables the IPv4 offload when the
device has it (main.cpp:577-582), but never the UDP offload. The seed stays in
the UDP checksum field, and it is never the checksum.

* `not_verifies_udp`: no frame verifies with the seed in place.
* `udp_checksum_lost`: this holds for every packet submitted, whatever the
  device supports.
* `frames_never_valid`: there is no device on which the frames are valid.
-/

namespace DpdkTutorials.Generator

open DpdkTutorials.Common DpdkTutorials.Common.Memory DpdkTutorials.Dpdk DpdkTutorials.Net

/-! ## Model -/

/-- `rte_eth_conf`, as far as it concerns the offloads. -/
structure EthConf where
  txOffloads : UInt64

/-- What the device reports, and the results of the checks `main` makes from
    there to the launch of the transmission routine. -/
structure Setup where
  txOffloadCapa : UInt64
  devInfoGet : ℤ
  logicalCores : ℕ
  /-- `rte_eth_dev_configure`, for the configuration it is given. -/
  devConfigure : EthConf → ℤ
  txQueueSetup : ℤ
  devStart : ℤ
  remoteLaunch : ℤ

/-- `portConf` (main.cpp:573-583). -/
def Setup.portConf (r : Setup) : EthConf where
  txOffloads := r.txOffloadCapa &&& rteEthTxOffloadIpv4Cksum

/-- `main` passes all its checks and launches the transmission routine
    (main.cpp:532-657). -/
structure Setup.ReachesTransmit (r : Setup) : Prop where
  devInfoGet : r.devInfoGet = 0
  logicalCores : r.logicalCores = 2
  devConfigure : r.devConfigure r.portConf = 0
  txQueueSetup : ¬ r.txQueueSetup < 0
  devStart : ¬ r.devStart < 0
  remoteLaunch : r.remoteLaunch = 0

/-- The IPv4 header of a packet. -/
def ipv4Header (buf : Mbuf) : List UInt8 := (buf.packet.drop buf.l2Len).take buf.l3Len

/-- The UDP header and payload of a packet. -/
def udpDatagram (buf : Mbuf) : List UInt8 := buf.packet.drop (buf.l2Len + buf.l3Len)

/-- The bytes a receiver sums to verify the UDP checksum: addresses, protocol
    and length, then the datagram. -/
def udpCovered (buf : Mbuf) : List UInt8 :=
  (ipv4Header buf).drop 12 ++ [0, (ipv4Header buf).getD 9 0] ++
    be16 (UInt16.ofNat (udpDatagram buf).length) ++ udpDatagram buf

/-- Each checksum a packet asks for is one the port inserts, or the field
    already holds the checksum. -/
structure ChecksumsValid (conf : EthConf) (txOffloadCapa : UInt64) (buf : Mbuf) : Prop where
  ipv4 : Enables buf.olFlags rteMbufFTxIpCksum →
    (Enables conf.txOffloads rteEthTxOffloadIpv4Cksum ∧
      Enables txOffloadCapa rteEthTxOffloadIpv4Cksum) ∨ Verifies (ipv4Header buf)
  udp : buf.olFlags &&& rteMbufFTxL4Mask = rteMbufFTxUdpCksum →
    (Enables conf.txOffloads rteEthTxOffloadUdpCksum ∧
      Enables txOffloadCapa rteEthTxOffloadUdpCksum) ∨ Verifies (udpCovered buf)

/-- On a device with the capabilities `txOffloadCapa` every packet submitted in
    any run has valid checksums. -/
def FramesValid (txOffloadCapa : UInt64) : Prop :=
  ∀ r : Setup, r.txOffloadCapa = txOffloadCapa → r.ReachesTransmit →
    ∀ headroom interval s, (generator headroom interval).Reachable s → s.transmit.pc = .burst →
      ∀ b ∈ s.transmit.offered, ChecksumsValid r.portConf txOffloadCapa (s.bufs.mem b)

/-! ## The UDP checksum -/

/-- The UDP offload is never enabled. -/
theorem not_enables_udp (r : Setup) : ¬ Enables r.portConf.txOffloads rteEthTxOffloadUdpCksum := by
  unfold Enables Setup.portConf
  rw [UInt64.and_assoc, show rteEthTxOffloadIpv4Cksum &&& rteEthTxOffloadUdpCksum = 0 by decide,
    UInt64.and_zero]
  decide

theorem beSum_payload : beSum payload = 660052 := by
  decide +kernel

theorem beSum_templateUdp (temp : UInt8) :
    beSum (templateUdp temp) = 9988 + 5566 + 2 * (temp + 1).toNat + 180 +
      beSum (le16 (rteRawCksum (pseudoHeader temp))) := by
  obtain ⟨hsrc, hdst⟩ := toNat_ports temp
  unfold templateUdp
  rw [beSum_append (by simp), beSum_append (by simp), beSum_append (by simp), beSum_be16,
    beSum_be16, hsrc, hdst]
  simp [beSum]
  omega

/-- What a receiver sums for a frame of the pool. -/
theorem udpCovered_eq {buf : Mbuf} {temp : UInt8} (hpacket : buf.packet = templateFrame temp)
    (hfields : FieldsSet buf) :
    udpCovered buf = pseudoHeader temp ++ templateUdp temp ++ payload := by
  have hheader : ((templateFrame temp).drop 14).take 20 = [0x45, 0, 0, 200, 0, 0, 0x40, 0, 64, 17,
      0, 0, 10, 10, 8, temp, 100, 10, 100, temp] := rfl
  have hdatagram : (templateFrame temp).drop (14 + 20) = templateUdp temp ++ payload := rfl
  have hlen : (templateUdp temp ++ payload).length = 180 := by simp [templateUdp]
  unfold udpCovered udpDatagram ipv4Header
  rw [hpacket, hfields.l2Len, hfields.l3Len, hheader, hdatagram, hlen, List.append_assoc]
  rfl

/-- The sum a receiver forms, given the seed in the checksum field: it lies
    between two multiples of `2^16 - 1`. -/
theorem covered_sum_mod {t next seed : ℕ} (ht : t < 256) (hnext : next < 256)
    (hseed : seed % 65535 = (56025 + 2 * t) % 65535) :
    (56025 + 2 * t + (9988 + 5566 + 2 * next + 180 + seed) + 660052) % 65535 =
      1416 + 4 * t + 2 * next := by
  have hdiv := Nat.div_add_mod seed 65535
  rw [hseed, Nat.mod_eq_of_lt (show 56025 + 2 * t < 65535 by omega)] at hdiv
  have htotal : 56025 + 2 * t + (9988 + 5566 + 2 * next + 180 + seed) + 660052 =
      65535 * (seed / 65535 + 12) + (1416 + 4 * t + 2 * next) := by
    omega
  rw [htotal, Nat.mul_add_mod, Nat.mod_eq_of_lt (by omega)]

/-- With the sum of the pseudo-header in its place the UDP checksum is wrong. -/
theorem not_verifies_udp (temp : UInt8) :
    ¬ Verifies (pseudoHeader temp ++ templateUdp temp ++ payload) := by
  have hlen : (pseudoHeader temp ++ templateUdp temp).length = 20 := rfl
  have hseed : beSum (le16 (rteRawCksum (pseudoHeader temp))) % 65535 =
      beSum (pseudoHeader temp) % 65535 := by
    rw [beSum_rteRawCksum (by simp), foldCarries_mod]
  rw [beSum_pseudoHeader] at hseed
  have hmod := covered_sum_mod temp.toNat_lt (temp + 1).toNat_lt hseed
  rw [verifies_iff (by rw [List.length_append, hlen, length_payload]; omega),
    beSum_append (by rw [hlen]), beSum_append (by simp [pseudoHeader]), beSum_pseudoHeader,
    beSum_templateUdp, beSum_payload, hmod]
  omega

/-! ## Every packet submitted -/

theorem asks_udp {buf : Mbuf} (h : FieldsSet buf) :
    buf.olFlags &&& rteMbufFTxL4Mask = rteMbufFTxUdpCksum := by
  rw [h.olFlags]
  decide

/-- A packet with the fields set is exactly the frame in its buffer. -/
theorem packet_eq {buf : Mbuf} {temp : UInt8} (h : FieldsSet buf)
    (hload : buf.room.load buf.dataOff 214 = templateFrame temp) :
    buf.packet = templateFrame temp := by
  unfold Mbuf.packet
  rw [h.dataLen]
  exact hload

/-- Whatever the device supports, the UDP checksum of a submitted packet is
    neither inserted by the port nor correct as written. -/
theorem udp_checksum_lost (r : Setup) {headroom : ℕ} {interval : UInt64}
    {s : State ℕ (CachedPool (Fin 2) ℕ 512)} (hs : (generator headroom interval).Reachable s)
    (hcall : s.transmit.pc = .burst) {b : ℕ} (hb : b ∈ s.transmit.offered) :
    ¬ ChecksumsValid r.portConf r.txOffloadCapa (s.bufs.mem b) := by
  obtain ⟨all, -, hinv⟩ := inv_of_reachable hs
  rw [hinv.offered_eq hcall] at hb
  have hfields := hinv.fields hcall b hb
  obtain ⟨j, -, hload⟩ := hinv.holds b (hinv.mem_of_hand hb)
  rw [← hinv.dataOff b hb] at hload
  intro hvalid
  rcases hvalid.udp (asks_udp hfields) with ⟨henabled, -⟩ | hcorrect
  · exact not_enables_udp r henabled
  · rw [udpCovered_eq (packet_eq hfields hload) hfields] at hcorrect
    exact not_verifies_udp _ hcorrect

/-- A device on which every call of `main` succeeds. -/
def workingSetup (txOffloadCapa : UInt64) : Setup where
  txOffloadCapa := txOffloadCapa
  devInfoGet := 0
  logicalCores := 2
  -- Offloads the device does not have are refused.
  devConfigure conf := if Enables txOffloadCapa conf.txOffloads then 0 else -22
  txQueueSetup := 0
  devStart := 0
  remoteLaunch := 0

/-- `main` never asks for an offload the device does not have. -/
theorem reachesTransmit_workingSetup (txOffloadCapa : UInt64) :
    (workingSetup txOffloadCapa).ReachesTransmit := by
  refine ⟨rfl, rfl, if_pos ?_, by simp [workingSetup], by simp [workingSetup], rfl⟩
  unfold Enables Setup.portConf workingSetup
  rw [← UInt64.and_assoc, UInt64.and_self]

/-- The first packet of the first burst has no valid UDP checksum. -/
theorem not_framesValid_of_reachesTransmit {r : Setup} (hr : r.ReachesTransmit) :
    ¬ FramesValid r.txOffloadCapa := by
  intro hvalid
  obtain ⟨s, hs, hpc, hlen⟩ := generator_bursts 128 16000000
  obtain ⟨b, hb⟩ := List.exists_mem_of_length_pos (by rw [hlen]; decide)
  exact udp_checksum_lost r hs hpc hb (hvalid r rfl hr 128 16000000 s hs hpc b hb)

/-- On no device are the frames valid. -/
theorem frames_never_valid (txOffloadCapa : UInt64) : ¬ FramesValid txOffloadCapa :=
  not_framesValid_of_reachesTransmit (reachesTransmit_workingSetup txOffloadCapa)

/-- A device with both offloads, of which only one is used. -/
theorem frames_invalid_both_offloads :
    ¬ FramesValid (rteEthTxOffloadIpv4Cksum ||| rteEthTxOffloadUdpCksum) :=
  not_framesValid_of_reachesTransmit (reachesTransmit_workingSetup _)

end DpdkTutorials.Generator

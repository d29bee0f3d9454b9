import DpdkTutorials.Generator.ShortPool
import DpdkTutorials.Generator.Transmit
import DpdkTutorials.Net.Datagram

/-!
# The frames of `9-packet-generator` as UDP datagrams

The frames that `prepare_memory_pool` writes (main.cpp:219-276), read by the
decoders of network byte order. The fragment offset is written as the host has
it (main.cpp:245), and the byte `temp` is incremented between the addresses and
the ports (main.cpp:255).

* `isDatagram_templateFrame`: every frame is an IPv4 packet with a UDP datagram
  whose lengths match, and the NIC can complete its UDP checksum.
* `templateEndpoints_ofNat_eq_iff`: addresses and ports repeat every 256 frames.
* `prepared_datagrams`: both, for the buffers of every run.
-/

namespace DpdkTutorials.Generator

open DpdkTutorials.Common DpdkTutorials.Common.Memory DpdkTutorials.Dpdk DpdkTutorials.Net

/-! ## Specification -/

/-- The addresses and ports of a datagram. -/
structure Endpoints where
  srcAddr : List UInt8
  dstAddr : List UInt8
  srcPort : ℕ
  dstPort : ℕ
  deriving DecidableEq

/-- Decoded headers whose lengths match, with the checksums left to the NIC. -/
structure WellFormed (frame : List UInt8) (ethernet : EthernetFrame) (packet : Ipv4Packet)
    (datagram : UdpDatagram) : Prop where
  ethernetFrame : decodeEthernet frame = some ethernet
  etherType : ethernet.etherType = 0x0800
  ipv4 : decodeIpv4 ethernet.payload = some packet
  protocol : packet.protocol = 17
  udp : decodeUdp packet.payload = some datagram
  totalLength : packet.totalLength = frame.length - 14
  length : datagram.length = packet.totalLength - 4 * packet.ihl
  payload : datagram.payload.length = datagram.length - 8
  dontFragment : packet.dontFragment = true
  moreFragments : packet.moreFragments = false
  fragmentOffset : packet.fragmentOffset = 0
  headerChecksum : packet.headerChecksum = 0
  seed : datagram.checksum = foldCarries (beSum (udpPseudoHeader packet datagram.length))
  completed : Verifies (udpPseudoHeader packet datagram.length ++ insertUdpChecksum packet.payload)

/-- The frame is a UDP datagram between the given endpoints. -/
def IsDatagram (frame : List UInt8) (e : Endpoints) : Prop :=
  ∃ ethernet packet datagram, WellFormed frame ethernet packet datagram ∧
    e = ⟨packet.srcAddr, packet.dstAddr, datagram.srcPort, datagram.dstPort⟩

/-! ## The headers of a frame -/

/-- The IPv4 header of a frame up to its checksum. -/
def headerStart : List UInt8 := [0x45, 0, 0, 200, 0, 0, 0x40, 0, 64, 17]

def addresses (temp : UInt8) : List UInt8 := [10, 10, 8, temp, 100, 10, 100, temp]

/-- The IPv4 header of a frame with the checksum field `ipv4`. -/
def headerWith (temp : UInt8) (ipv4 : List UInt8) : List UInt8 :=
  headerStart ++ ipv4 ++ addresses temp

/-- The datagram of a frame with the checksum field `udp`. -/
def datagramWith (temp : UInt8) (udp : List UInt8) : List UInt8 :=
  be16 (9988 + (temp + 1).toUInt16) ++ be16 (5566 + (temp + 1).toUInt16) ++ [0, 180] ++ udp ++
    payload

/-- A frame with the checksum fields `ipv4` and `udp`. -/
def frameWith (temp : UInt8) (ipv4 udp : List UInt8) : List UInt8 :=
  [0x08, 0x00, 0x27, 0x35, 0x14, temp, 0x08, 0x00, 0x27, 0x95, 0xBD, temp, 0x08, 0x00] ++
    headerWith temp ipv4 ++ datagramWith temp udp

/-- The sum of the pseudo-header, in network byte order. -/
def seed (temp : UInt8) : List UInt8 := le16 (rteRawCksum (pseudoHeader temp))

theorem length_seed (temp : UInt8) : (seed temp).length = 2 := rfl

theorem beSum_seed (temp : UInt8) :
    beSum (seed temp) = foldCarries (beSum (pseudoHeader temp)) :=
  beSum_rteRawCksum (by simp)

theorem templateFrame_eq (temp : UInt8) : templateFrame temp = frameWith temp [0, 0] (seed temp) :=
  rfl

theorem templateUdp_eq (temp : UInt8) :
    templateUdp temp ++ payload = datagramWith temp (seed temp) := rfl

theorem length_templateFrame (temp : UInt8) : (templateFrame temp).length = 214 := by
  simp [templateFrame, templateHeaders, templateUdp]

section Decoders

variable {temp : UInt8} {ipv4 udp : List UInt8}

theorem length_headerWith (hipv4 : ipv4.length = 2) : (headerWith temp ipv4).length = 20 := by
  simp [headerWith, headerStart, addresses, hipv4]

theorem length_datagramWith (hudp : udp.length = 2) : (datagramWith temp udp).length = 180 := by
  simp [datagramWith, hudp]

theorem decodeEthernet_frameWith : decodeEthernet (frameWith temp ipv4 udp) = some {
    dstAddr := [0x08, 0x00, 0x27, 0x35, 0x14, temp]
    srcAddr := [0x08, 0x00, 0x27, 0x95, 0xBD, temp]
    etherType := 0x0800
    payload := headerWith temp ipv4 ++ datagramWith temp udp } := by
  have hlength : 14 ≤ (frameWith temp ipv4 udp).length := by
    simp only [frameWith, List.length_append, List.length_cons]
    omega
  rw [decodeEthernet, if_pos hlength]
  rfl

theorem decodeIpv4_frameWith (hipv4 : ipv4.length = 2) (hudp : udp.length = 2) :
    decodeIpv4 (headerWith temp ipv4 ++ datagramWith temp udp) = some {
      ihl := 5
      totalLength := 200
      dontFragment := true
      moreFragments := false
      fragmentOffset := 0
      protocol := 17
      headerChecksum := beSum ipv4
      srcAddr := [10, 10, 8, temp]
      dstAddr := [100, 10, 100, temp]
      payload := datagramWith temp udp } := by
  have hlength : (headerWith temp ipv4 ++ datagramWith temp udp).length = 200 := by
    rw [List.length_append, length_headerWith hipv4, length_datagramWith hudp]
  obtain ⟨a, b, rfl⟩ := List.length_eq_two.mp hipv4
  have hbyte : (headerWith temp [a, b] ++ datagramWith temp udp).getD 0 0 = 0x45 := rfl
  have htotal : beSum (((headerWith temp [a, b] ++ datagramWith temp udp).drop 2).take 2) = 200 :=
    rfl
  have hfragment :
      beSum (((headerWith temp [a, b] ++ datagramWith temp udp).drop 6).take 2) = 0x4000 := rfl
  have hall := List.take_of_length_le hlength.le
  simp only [decodeIpv4, hbyte, htotal, hfragment, hall, hlength]
  rw [if_pos (by decide), show (0x4000 : ℕ).testBit 14 = true by decide,
    show (0x4000 : ℕ).testBit 13 = false by decide]
  rfl

theorem decodeUdp_frameWith (hudp : udp.length = 2) : decodeUdp (datagramWith temp udp) = some {
    srcPort := 9988 + (temp + 1).toNat
    dstPort := 5566 + (temp + 1).toNat
    length := 180
    checksum := beSum udp
    payload := payload } := by
  have hlength : (datagramWith temp udp).length = 180 := length_datagramWith hudp
  have hall := List.take_of_length_le hlength.le
  obtain ⟨c, d, rfl⟩ := List.length_eq_two.mp hudp
  have htotal : beSum (((datagramWith temp [c, d]).drop 4).take 2) = 180 := rfl
  have hsrc : (datagramWith temp [c, d]).take 2 = be16 (9988 + (temp + 1).toUInt16) := rfl
  have hdst : ((datagramWith temp [c, d]).drop 2).take 2 = be16 (5566 + (temp + 1).toUInt16) := rfl
  simp only [decodeUdp, htotal, hsrc, hdst, hall, hlength, beSum_be16, (toNat_ports temp).1,
    (toNat_ports temp).2]
  rfl

end Decoders

/-! ## Every frame -/

theorem udpPseudoHeader_template {packet : Ipv4Packet} {temp : UInt8}
    (hsrc : packet.srcAddr = [10, 10, 8, temp]) (hdst : packet.dstAddr = [100, 10, 100, temp])
    (hprotocol : packet.protocol = 17) :
    udpPseudoHeader packet 180 = pseudoHeader temp := by
  rw [udpPseudoHeader, hsrc, hdst, hprotocol]
  rfl

/-- Once the NIC has replaced the seed, a receiver accepts the datagram. -/
theorem verifies_completed (temp : UInt8) :
    Verifies (pseudoHeader temp ++ insertUdpChecksum (datagramWith temp (seed temp))) := by
  have hsum := beSum_pseudoHeader temp
  have hlength : (datagramWith temp (seed temp)).length = 180 :=
    length_datagramWith (length_seed temp)
  have hseed : ((datagramWith temp (seed temp)).drop 6).take 2 = seed temp := rfl
  apply verifies_insertUdpChecksum
  · rw [length_pseudoHeader]
  · omega
  · omega
  · rw [length_pseudoHeader, hlength]
    decide
  · rw [hseed, beSum_seed, foldCarries_mod]

/-- Where frame `j` comes from and goes to. -/
def templateEndpoints (temp : UInt8) : Endpoints where
  srcAddr := [10, 10, 8, temp]
  dstAddr := [100, 10, 100, temp]
  srcPort := 9988 + (temp + 1).toNat
  dstPort := 5566 + (temp + 1).toNat

theorem isDatagram_templateFrame (temp : UInt8) :
    IsDatagram (templateFrame temp) (templateEndpoints temp) := by
  have hlength := length_templateFrame temp
  rw [templateFrame_eq] at hlength ⊢
  refine ⟨_, _, _, ⟨decodeEthernet_frameWith, rfl, decodeIpv4_frameWith rfl (length_seed temp), rfl,
    decodeUdp_frameWith (length_seed temp), ?_, rfl, ?_, rfl, rfl, rfl, rfl, ?_, ?_⟩, rfl⟩
  · rw [hlength]
  · exact length_payload
  · rw [udpPseudoHeader_template rfl rfl rfl, beSum_seed]
  · rw [udpPseudoHeader_template rfl rfl rfl]
    exact verifies_completed temp

theorem templateEndpoints_eq_iff {temp temp' : UInt8} :
    templateEndpoints temp = templateEndpoints temp' ↔ temp = temp' := by
  constructor
  · intro h
    have haddr := congrArg Endpoints.srcAddr h
    simpa [templateEndpoints] using haddr
  · rintro rfl
    rfl

/-- The counter of the frames has 8 bits. -/
theorem templateEndpoints_ofNat_eq_iff {j j' : ℕ} :
    templateEndpoints (UInt8.ofNat j) = templateEndpoints (UInt8.ofNat j') ↔
      j % 256 = j' % 256 := by
  rw [templateEndpoints_eq_iff, ← UInt8.toNat_inj, UInt8.toNat_ofNat', UInt8.toNat_ofNat']

/-! ## Every run -/

section Runs

universe u v w

variable {ι : Type u} {β : Type v} {ε : Type w} [DecidableEq β] {P : Mempool ι β ε}
  {headroom : ℕ} {l : ι} {s t : Pktmbufs β ε} {bs : List (Option β)}

/-- Whatever the buffers held before, after a run of `prepare_memory_pool` the
    `packet_len` bytes of buffer `j` are a well-formed UDP datagram that depends on
    `j` alone, and its endpoints are those of buffer `j'` iff `j` and `j'` agree
    modulo 256. -/
theorem prepared_datagrams (h : PrepareRun P headroom l s bs (.returned true) t)
    (hfresh : bs.reduceOption.Nodup) :
    ∃ cs : List β, bs = cs.map some ∧ cs.length = memoryPoolSize ∧
      ∀ j (hj : j < cs.length),
        (t.mem cs[j]).room.load headroom packetLen.toNat = templateFrame (UInt8.ofNat j) ∧
        IsDatagram (templateFrame (UInt8.ofNat j)) (templateEndpoints (UInt8.ofNat j)) ∧
        ∀ j' < cs.length, templateEndpoints (UInt8.ofNat j) = templateEndpoints (UInt8.ofNat j') ↔
          j % 256 = j' % 256 := by
  obtain ⟨cs, hbs, hprepared⟩ := h.preparedOnce hfresh
  refine ⟨cs, hbs, hprepared.length, fun j hj => ⟨hprepared.written j hj, ?_, ?_⟩⟩
  · exact isDatagram_templateFrame _
  · exact fun j' _ => templateEndpoints_ofNat_eq_iff

end Runs

/-- The pool `main` creates, after its preparation. -/
theorem prepared_datagrams_created : ∃ t : Pktmbufs ℕ (CachedPool (Fin 2) ℕ 512),
    ∀ j < memoryPoolSize, ∃ b,
      (t.mem b).room.load 128 packetLen.toNat = templateFrame (UInt8.ofNat j) := by
  obtain ⟨t, hprep⟩ := exists_prepared_createdPool 128 fun _ => ⟨fun _ => 0, 0, 0, 0, 0, 0, 0⟩
  obtain ⟨cs, m, hlen, havail, hmany, hwrite, -⟩ := hprep.passes
  have hnd := hprep.created.nodup
  rw [havail, Multiset.coe_nodup] at hnd
  have hrun : PrepareRun (CachedPool.mempool (Fin 2) ℕ 512) 128 0 _ (cs.map some) _ t :=
    prepareRun_iff.mpr ⟨by rw [List.length_map, hlen], m, .of_allocMany hmany, hwrite⟩
  obtain ⟨cs', -, hlen', hframes⟩ := prepared_datagrams hrun (by rwa [reduceOption_map_some])
  refine ⟨t, fun j hj => ?_⟩
  rw [← hlen'] at hj
  exact ⟨cs'[j], (hframes j hj).1⟩

end DpdkTutorials.Generator

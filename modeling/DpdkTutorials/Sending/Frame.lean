import DpdkTutorials.Common.SampleFrame
import DpdkTutorials.Dpdk.Mbuf

/-!
# The frame of the single-packet senders

Programs 2, 4, 5 and 7 send one frame over and over. Each iteration takes a
buffer from the pool with `rte_mempool_get`, which leaves its bytes and fields
as they are, and writes the 214 bytes of the frame into it. Programs 2, 4 and 7
compute the IPv4 checksum (`fill`). Program 5 asks the NIC to insert it
(`fillOffload`), but does not write the checksum field: the two lines that did
are commented out (5-.../main.cpp:336-337). The NIC then sums what the buffer
held there before.

* `packet_fill`: in program 2 the frame does not depend on the buffer.
* `packet_fillOffload`: in program 5 two of its bytes do.
* `offloadAgrees_iff`: program 5 puts the frame of program 2 on the wire iff
  these two bytes are both `0x00` or both `0xFF`.
-/

namespace DpdkTutorials.Sending

open DpdkTutorials.Common DpdkTutorials.Common.Memory DpdkTutorials.Dpdk DpdkTutorials.Net

/-! ## Model -/

def srcMacAddr : List UInt8 := [0x08, 0x00, 0x27, 0x95, 0xBD, 0xAE]

def dstMacAddr : List UInt8 := [0x08, 0x00, 0x27, 0x35, 0x14, 0x15]

def srcIpAddr : List UInt8 := [10, 0, 9, 8]

def destIpAddr : List UInt8 := [10, 0, 9, 6]

/-- The frame of programs 2, 4 and 7, at `data` (2-.../main.cpp:196-236). -/
def writeFrame (data : ℕ) (m : Memory) : Memory :=
  let m := writeEthernetIpv4 srcMacAddr dstMacAddr srcIpAddr destIpAddr data m
  let ipv4Hdr := data + sizeofRteEtherHdr
  let m := m.store16 (RteIpv4Hdr.hdrChecksum ipv4Hdr) 0
  let m := m.store16 (RteIpv4Hdr.hdrChecksum ipv4Hdr) (rteIpv4Cksum m ipv4Hdr)
  let m := writeUdp 5000 10000 0 data m
  writePayload data m

/-- The frame of program 5 (5-.../main.cpp:299-350). -/
def writeFrameOffload (data : ℕ) (m : Memory) : Memory :=
  let m := writeEthernetIpv4 srcMacAddr dstMacAddr srcIpAddr destIpAddr data m
  let m := writeUdp 5000 10000 0 data m
  writePayload data m

/-- What programs 2, 4 and 7 do to a buffer before they send it
    (2-.../main.cpp:194-240). -/
def fill (buf : Mbuf) : Mbuf :=
  { buf with
    room := writeFrame buf.dataOff buf.room
    dataLen := UInt16.ofNat frameSize
    pktLen := UInt32.ofNat frameSize }

/-- What program 5 does to a buffer before it sends it (5-.../main.cpp:295-354). -/
def fillOffload (buf : Mbuf) : Mbuf :=
  { buf with
    room := writeFrameOffload buf.dataOff buf.room
    dataLen := UInt16.ofNat frameSize
    pktLen := UInt32.ofNat frameSize
    olFlags := rteMbufFTxIpCksum ||| rteMbufFTxIpv4
    l2Len := sizeofRteEtherHdr
    l3Len := sizeofRteIpv4Hdr }

/-- `portConf.txmode.offloads` in programs 2, 4 and 7. -/
def txOffloads : UInt64 := 0

/-- `portConf.txmode.offloads` in program 5 (5-.../main.cpp:184-195). -/
def txOffloadsOffload : UInt64 := 0 ||| rteEthTxOffloadIpv4Cksum

/-- The NIC overwrites the IPv4 checksum with the checksum of the header as
    handed over, checksum field included. -/
def insertIpv4Cksum (l2Len l3Len : ℕ) (frame : List UInt8) : List UInt8 :=
  frame.take (l2Len + 10) ++ be16 (internetChecksum ((frame.drop l2Len).take l3Len)) ++
    frame.drop (l2Len + 12)

/-- The frame on the wire: the packet, with its IPv4 checksum inserted when the
    packet asks for it on a port with the offload enabled. -/
def wireFrame (txOffloads : UInt64) (buf : Mbuf) : List UInt8 :=
  if Enables txOffloads rteEthTxOffloadIpv4Cksum ∧ Enables buf.olFlags rteMbufFTxIpCksum then
    insertIpv4Cksum buf.l2Len buf.l3Len buf.packet
  else
    buf.packet

/-- From the buffer `buf` program 5 puts on the wire the frame that program 2
    puts there, whatever buffer program 2 uses. -/
def OffloadAgrees (buf : Mbuf) : Prop :=
  ∀ buf', wireFrame txOffloadsOffload (fillOffload buf) = wireFrame txOffloads (fill buf')

/-! ## The bytes of the frame -/

/-- The IPv4 header with the checksum field `cksum`. -/
def sentHeader (cksum : List UInt8) : List UInt8 :=
  [0x45, 0, 0, 200, 0, 0, 0x40, 0, 64, 17] ++ cksum ++ (srcIpAddr ++ destIpAddr)

/-- The Ethernet header. -/
def sentEther : List UInt8 := dstMacAddr ++ srcMacAddr ++ [0x08, 0x00]

/-- The UDP header and the payload. -/
def sentDatagram : List UInt8 := be16 10000 ++ be16 5000 ++ [0, 180] ++ le16 0 ++ payload

def sentFrame (cksum : List UInt8) : List UInt8 := sentEther ++ sentHeader cksum ++ sentDatagram

/-- The frame, part by part, under whatever is in the checksum field. -/
theorem load_frame {data : ℕ} {m : Memory} {cksum : List UInt8}
    (hheaders : m.load data 24 = sentEther ++ [0x45, 0, 0, 200, 0, 0, 0x40, 0, 64, 17])
    (hcksum : m.load (data + 24) 2 = cksum)
    (haddr : m.load (data + 26) 8 = srcIpAddr ++ destIpAddr) :
    (writePayload data (writeUdp 5000 10000 0 data m)).load data frameSize = sentFrame cksum := by
  show Memory.load _ data (24 + 2 + 8 + 8 + payloadSize) = _
  simp only [load_add]
  simp only [Nat.reduceAdd]
  rw [load_writePayload_disjoint (by omega), load_writeUdp_disjoint (by omega), hheaders,
    load_writePayload_disjoint (by omega), load_writeUdp_disjoint (by omega), hcksum,
    load_writePayload_disjoint (by omega), load_writeUdp_disjoint (by omega), haddr,
    load_writePayload_disjoint (by omega), load_writeUdp, load_writePayload]
  simp only [sentFrame, sentHeader, sentDatagram, List.append_assoc]

/-- Program 5 leaves the checksum field as it finds it. -/
theorem load_writeFrameOffload (data : ℕ) (m : Memory) :
    (writeFrameOffload data m).load data frameSize = sentFrame (m.load (data + 24) 2) := by
  apply load_frame
  · rw [load_writeEthernetIpv4_headers rfl rfl]
    rfl
  · exact load_writeEthernetIpv4_checksum rfl rfl
  · exact load_writeEthernetIpv4_addresses rfl rfl

/-- The checksum computed over a header that lies at `data + 14`. -/
theorem le16_rteIpv4Cksum {data : ℕ} {m : Memory}
    (hheader : m.load (data + 14) 20 = sentHeader [0, 0]) :
    le16 (rteIpv4Cksum m (data + sizeofRteEtherHdr)) =
      be16 (internetChecksum (sentHeader [0, 0])) := by
  have hihl : m (data + 14) = 0x45 := by
    have h := load_slice m (a := data + 14) (show 0 + 1 ≤ 20 by omega)
    rw [hheader, load_one] at h
    exact List.head_eq_of_cons_eq h
  have hlen : m.load (data + sizeofRteEtherHdr)
      ((m (RteIpv4Hdr.versionIhl (data + sizeofRteEtherHdr))).toNat % 16 * 4) =
        sentHeader [0, 0] := by
    simp only [sizeofRteEtherHdr, RteIpv4Hdr.versionIhl, hihl]
    exact hheader
  rw [rteIpv4Cksum, hlen, le16_not_rteRawCksum (show (sentHeader [0, 0]).length < 65536 by decide)]

/-- Program 2 writes the checksum of the header. -/
theorem load_writeFrame (data : ℕ) (m : Memory) :
    (writeFrame data m).load data frameSize =
      sentFrame (be16 (internetChecksum (sentHeader [0, 0]))) := by
  have hck : RteIpv4Hdr.hdrChecksum (data + sizeofRteEtherHdr) = data + 24 := rfl
  have hheaders := @load_writeEthernetIpv4_headers srcMacAddr dstMacAddr srcIpAddr destIpAddr data
    m rfl rfl
  have haddr := @load_writeEthernetIpv4_addresses srcMacAddr dstMacAddr srcIpAddr destIpAddr data
    m rfl rfl
  have hheader : ((writeEthernetIpv4 srcMacAddr dstMacAddr srcIpAddr destIpAddr data m).store16
      (data + 24) 0).load (data + 14) 20 = sentHeader [0, 0] := by
    show Memory.load _ (data + 14) (10 + 2 + 8) = _
    rw [load_add, load_add, load_store16_disjoint (by omega), load_store16_self,
      load_store16_disjoint (by omega), haddr,
      load_slice _ (show 14 + 10 ≤ 24 by omega), hheaders]
    rfl
  unfold writeFrame
  dsimp only
  rw [hck]
  apply load_frame
  · rw [load_store16_disjoint (by omega), load_store16_disjoint (by omega), hheaders]
    rfl
  · rw [load_store16_self, le16_rteIpv4Cksum hheader]
  · rw [load_store16_disjoint (by omega), load_store16_disjoint (by omega), haddr]

/-- In program 2 the frame does not depend on the buffer. -/
theorem packet_fill (buf : Mbuf) :
    (fill buf).packet = sentFrame (be16 (internetChecksum (sentHeader [0, 0]))) :=
  load_writeFrame buf.dataOff buf.room

/-- In program 5 two of its bytes do. -/
theorem packet_fillOffload (buf : Mbuf) :
    (fillOffload buf).packet = sentFrame (buf.room.load (buf.dataOff + 24) 2) :=
  load_writeFrameOffload buf.dataOff buf.room

/-! ## The frame on the wire -/

/-- No offload is enabled in program 2: the frame leaves as it is. -/
theorem wireFrame_fill (buf : Mbuf) :
    wireFrame txOffloads (fill buf) =
      sentFrame (be16 (internetChecksum (sentHeader [0, 0]))) := by
  have hoff : ¬ Enables txOffloads rteEthTxOffloadIpv4Cksum := by decide
  rw [wireFrame, if_neg (fun h => hoff h.1), packet_fill]

/-- The checksum lands in the checksum field. -/
theorem insertIpv4Cksum_sentFrame {cksum : List UInt8} (h : cksum.length = 2) :
    insertIpv4Cksum 14 20 (sentFrame cksum) =
      sentFrame (be16 (internetChecksum (sentHeader cksum))) := by
  obtain ⟨a, b, rfl⟩ := List.length_eq_two.mp h
  rfl

theorem wireFrame_fillOffload (buf : Mbuf) :
    wireFrame txOffloadsOffload (fillOffload buf) =
      sentFrame (be16 (internetChecksum (sentHeader (buf.room.load (buf.dataOff + 24) 2)))) := by
  have hport : Enables txOffloadsOffload rteEthTxOffloadIpv4Cksum := by decide
  have hflags : Enables (fillOffload buf).olFlags rteMbufFTxIpCksum := by
    show Enables (rteMbufFTxIpCksum ||| rteMbufFTxIpv4) rteMbufFTxIpCksum
    decide
  rw [wireFrame, if_pos ⟨hport, hflags⟩, packet_fillOffload]
  exact insertIpv4Cksum_sentFrame (length_load _ _ _)

theorem be16_inj {v w : UInt16} : be16 v = be16 w ↔ v = w := by
  constructor
  · intro h
    rw [← UInt16.toNat_inj, ← beSum_be16, ← beSum_be16, h]
  · intro h
    rw [h]

/-- Two frames are the same iff their checksums are. -/
theorem sentFrame_inj {v w : UInt16} : sentFrame (be16 v) = sentFrame (be16 w) ↔ v = w := by
  constructor
  · intro h
    simp only [sentFrame, sentHeader, List.append_assoc, List.append_cancel_left_eq] at h
    exact be16_inj.mp (List.append_inj h rfl).1
  · intro h
    rw [h]

/-- A checksum field that adds nothing to the sum of the header. -/
theorem beSum_two_mod {a b : UInt8} :
    (a.toNat * 256 + b.toNat) % 65535 = 0 ↔ a = 0 ∧ b = 0 ∨ a = 0xFF ∧ b = 0xFF := by
  have ha := a.toNat_lt
  have hb := b.toNat_lt
  rw [← UInt8.toNat_inj, ← UInt8.toNat_inj, ← UInt8.toNat_inj, ← UInt8.toNat_inj]
  show _ ↔ a.toNat = 0 ∧ b.toNat = 0 ∨ a.toNat = 255 ∧ b.toNat = 255
  have hzero : (a.toNat * 256 + b.toNat) % 65535 = 0 ↔
      a.toNat * 256 + b.toNat = 0 ∨ a.toNat * 256 + b.toNat = 65535 := by
    generalize hn : a.toNat * 256 + b.toNat = n
    omega
  rw [hzero]
  omega

/-- What the field holds before goes into the sum. -/
theorem internetChecksum_sentHeader_eq_iff (a b : UInt8) :
    internetChecksum (sentHeader [a, b]) = internetChecksum (sentHeader [0, 0]) ↔
      [a, b] = [0, 0] ∨ [a, b] = [0xFF, 0xFF] := by
  have hsum : ∀ c d : UInt8, beSum (sentHeader [c, d]) = 60391 + (c.toNat * 256 + d.toNat) := by
    intro c d
    rw [sentHeader, beSum_append (by simp), beSum_append (by simp),
      show beSum [0x45, 0, 0, 200, 0, 0, 0x40, 0, 64, 17] = 50649 by decide,
      show beSum (srcIpAddr ++ destIpAddr) = 9742 by decide]
    simp only [beSum]
    omega
  have hzero : beSum (sentHeader [0, 0]) = 60391 := hsum 0 0
  rw [internetChecksum_eq_iff (by simp [sentHeader, srcIpAddr, destIpAddr])
    (by simp [sentHeader, srcIpAddr, destIpAddr]) (by rw [hsum]; omega) (by rw [hzero]; omega),
    hsum, hzero]
  simp only [List.cons.injEq, and_true]
  rw [← beSum_two_mod]
  have ha := a.toNat_lt
  have hb := b.toNat_lt
  omega

/-- The frames agree iff what the buffer held in the place of the checksum is a
    zero of one's-complement arithmetic. -/
theorem offloadAgrees_iff (buf : Mbuf) :
    OffloadAgrees buf ↔ buf.room.load (buf.dataOff + 24) 2 = [0, 0] ∨
      buf.room.load (buf.dataOff + 24) 2 = [0xFF, 0xFF] := by
  obtain ⟨a, b, hab⟩ := List.length_eq_two.mp (length_load buf.room (buf.dataOff + 24) 2)
  have hiff (buf' : Mbuf) :
      wireFrame txOffloadsOffload (fillOffload buf) = wireFrame txOffloads (fill buf') ↔
        [a, b] = [0, 0] ∨ [a, b] = [0xFF, 0xFF] := by
    rw [wireFrame_fill, wireFrame_fillOffload, hab, sentFrame_inj,
      internetChecksum_sentHeader_eq_iff]
  rw [hab]
  constructor
  · intro h
    exact (hiff buf).mp (h buf)
  · intro h buf'
    exact (hiff buf').mpr h

/-- A recycled buffer: the bytes of the previous frame are all ones. -/
def recycled : Mbuf where
  room := fun _ => 1
  dataOff := 128
  dataLen := 0
  pktLen := 0
  olFlags := 0
  l2Len := 0
  l3Len := 0

/-- From a buffer that is not clean program 5 sends a frame with another
    checksum. -/
theorem recycled_disagrees : ¬ OffloadAgrees recycled := by
  intro h
  have hwire := h recycled
  rw [wireFrame_fill, wireFrame_fillOffload, sentFrame_inj,
    internetChecksum_eq_iff (by decide) (by decide) (by decide) (by decide)] at hwire
  revert hwire
  decide

end DpdkTutorials.Sending

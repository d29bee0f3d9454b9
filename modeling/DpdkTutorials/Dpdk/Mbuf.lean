import DpdkTutorials.Common.Memory

/-!
# `rte_mbuf`

The fields of a memory buffer that the programs read or write, and the flags
by which a packet asks the NIC for checksums.
-/

namespace DpdkTutorials.Dpdk

open DpdkTutorials.Common

/-- A memory buffer. `room` is the memory behind `buf_addr`. -/
structure Mbuf where
  room : Memory
  dataOff : ℕ
  dataLen : UInt16
  pktLen : UInt32
  olFlags : UInt64
  l2Len : ℕ
  l3Len : ℕ

namespace Mbuf

/-- The fields as `rte_pktmbuf_alloc` leaves them. The bytes stay as they are. -/
def reset (headroom : ℕ) (buf : Mbuf) : Mbuf where
  room := buf.room
  dataOff := headroom
  dataLen := 0
  pktLen := 0
  olFlags := 0
  l2Len := 0
  l3Len := 0

/-- The packet in a buffer: the `data_len` bytes `rte_pktmbuf_mtod` points at. -/
def packet (buf : Mbuf) : List UInt8 := buf.room.load buf.dataOff buf.dataLen.toNat

end Mbuf

/-! ## Checksum flags -/

/-- The 64-bit word whose only set bit is bit `n`. -/
def rteBit64 (n : UInt64) : UInt64 := (1 : UInt64) <<< n

def rteEthTxOffloadIpv4Cksum : UInt64 := rteBit64 1

def rteEthTxOffloadUdpCksum : UInt64 := rteBit64 2

def rteMbufFTxIpCksum : UInt64 := (1 : UInt64) <<< 54

def rteMbufFTxIpv4 : UInt64 := (1 : UInt64) <<< 55

/-- The layer 4 checksum request is a two-bit field; 3 asks for UDP. -/
def rteMbufFTxUdpCksum : UInt64 := (3 : UInt64) <<< 52

def rteMbufFTxL4Mask : UInt64 := (3 : UInt64) <<< 52

/-- `flags` contains every bit of `bits`. -/
def Enables (flags bits : UInt64) : Prop := flags &&& bits = bits

instance (flags bits : UInt64) : Decidable (Enables flags bits) :=
  inferInstanceAs (Decidable (_ = _))

end DpdkTutorials.Dpdk

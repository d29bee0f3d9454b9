import DpdkTutorials.Common.Memory
import DpdkTutorials.Net.InternetChecksum

/-!
# Protocol headers

The layouts of `rte_ether_hdr`, `rte_ipv4_hdr` and `rte_udp_hdr` on a
little-endian host, as the address of each field, and the checksum functions
of `rte_ip.h`.

* `le16_rteCpuToBe16`: `rte_cpu_to_be_16` puts a word in network byte order.
* `beSum_rteRawCksum`: as bytes in memory, `rte_raw_cksum` is the
  one's-complement sum in network byte order.
-/

namespace DpdkTutorials.Dpdk

open DpdkTutorials.Common DpdkTutorials.Common.Memory DpdkTutorials.Net

def sizeofRteEtherHdr : ℕ := 14

def sizeofRteIpv4Hdr : ℕ := 20

def sizeofRteUdpHdr : ℕ := 8

def rteEtherTypeIpv4 : UInt16 := 0x0800

namespace RteEtherHdr

@[simp] def dstAddr (hdr : ℕ) : ℕ := hdr
@[simp] def srcAddr (hdr : ℕ) : ℕ := hdr + 6
@[simp] def etherType (hdr : ℕ) : ℕ := hdr + 12

end RteEtherHdr

namespace RteIpv4Hdr

@[simp] def versionIhl (hdr : ℕ) : ℕ := hdr
@[simp] def typeOfService (hdr : ℕ) : ℕ := hdr + 1
@[simp] def totalLength (hdr : ℕ) : ℕ := hdr + 2
@[simp] def packetId (hdr : ℕ) : ℕ := hdr + 4
@[simp] def fragmentOffset (hdr : ℕ) : ℕ := hdr + 6
@[simp] def timeToLive (hdr : ℕ) : ℕ := hdr + 8
@[simp] def nextProtoId (hdr : ℕ) : ℕ := hdr + 9
@[simp] def hdrChecksum (hdr : ℕ) : ℕ := hdr + 10
@[simp] def srcAddr (hdr : ℕ) : ℕ := hdr + 12
@[simp] def dstAddr (hdr : ℕ) : ℕ := hdr + 16

/-- `hdr->version = v`: the upper half of the first byte. -/
def setVersion (m : Memory) (hdr v : ℕ) : Memory :=
  m.store8 (versionIhl hdr) (UInt8.ofNat (v % 16 * 16 + (m (versionIhl hdr)).toNat % 16))

/-- `hdr->ihl = v`: the lower half of the first byte. -/
def setIhl (m : Memory) (hdr v : ℕ) : Memory :=
  m.store8 (versionIhl hdr) (UInt8.ofNat ((m (versionIhl hdr)).toNat / 16 * 16 + v % 16))

theorem load_setVersion_disjoint {m : Memory} {hdr v b n : ℕ} (h : b + n ≤ hdr ∨ hdr + 1 ≤ b) :
    (setVersion m hdr v).load b n = m.load b n := load_store8_disjoint h

theorem load_setIhl_disjoint {m : Memory} {hdr v b n : ℕ} (h : b + n ≤ hdr ∨ hdr + 1 ≤ b) :
    (setIhl m hdr v).load b n = m.load b n := load_store8_disjoint h

/-- Both halves of the first byte are overwritten. -/
theorem load_setIhl_setVersion (m : Memory) (hdr v ihl : ℕ) :
    (setIhl (setVersion m hdr v) hdr ihl).load hdr 1 = [UInt8.ofNat (v % 16 * 16 + ihl % 16)] := by
  simp only [load_one, setIhl, setVersion, versionIhl, store8_self, UInt8.toNat_ofNat']
  congr 2
  omega

end RteIpv4Hdr

namespace RteUdpHdr

@[simp] def srcPort (hdr : ℕ) : ℕ := hdr
@[simp] def dstPort (hdr : ℕ) : ℕ := hdr + 2
@[simp] def dgramLen (hdr : ℕ) : ℕ := hdr + 4
@[simp] def dgramCksum (hdr : ℕ) : ℕ := hdr + 6

end RteUdpHdr

/-- `rte_cpu_to_be_16` on a little-endian host: the two bytes swapped. -/
def rteCpuToBe16 (v : UInt16) : UInt16 := UInt16.ofNat (v.toNat % 256 * 256 + v.toNat / 256)

theorem le16_rteCpuToBe16 (v : UInt16) : le16 (rteCpuToBe16 v) = be16 v := by
  have h := v.toNat_lt
  have hswap : (rteCpuToBe16 v).toNat = v.toNat % 256 * 256 + v.toNat / 256 := by
    simp [rteCpuToBe16]; omega
  unfold le16 be16
  rw [hswap]
  congr 2
  · omega
  · congr 2; omega

/-- `rte_raw_cksum`: the one's-complement sum of the 16-bit words as the host
    loads them, not complemented. -/
def rteRawCksum (bytes : List UInt8) : UInt16 := UInt16.ofNat (foldCarries (leSum bytes))

/-- The host's sum is the network's with its bytes swapped. -/
theorem foldCarries_leSum (bytes : List UInt8) (h : bytes.length < 65536) :
    foldCarries (leSum bytes) % 256 * 256 + foldCarries (leSum bytes) / 256 =
      foldCarries (beSum bytes) := by
  have hle := leSum_le bytes
  have hle' := beSum_le bytes
  have hlt := foldCarries_lt (leSum bytes) (by omega)
  have hlt' := foldCarries_lt (beSum bytes) (by omega)
  have hpos := foldCarries_pos (leSum bytes)
  have hpos' := foldCarries_pos (beSum bytes)
  have hzero := leSum_eq_zero_iff bytes
  have hmod : 256 * foldCarries (leSum bytes) % 65535 = foldCarries (beSum bytes) % 65535 := by
    rw [foldCarries_mod, ← leSum_mod, Nat.mul_mod, foldCarries_mod, ← Nat.mul_mod]
  generalize foldCarries (leSum bytes) = f at *
  generalize foldCarries (beSum bytes) = g at *
  omega

/-- As bytes in memory the result of `rte_raw_cksum` is the one's-complement
    sum of the big-endian words. -/
theorem beSum_rteRawCksum {bytes : List UInt8} (h : bytes.length < 65536) :
    beSum (le16 (rteRawCksum bytes)) = foldCarries (beSum bytes) := by
  have hle := leSum_le bytes
  have hlt := foldCarries_lt (leSum bytes) (by omega)
  have hval : (rteRawCksum bytes).toNat = foldCarries (leSum bytes) := by
    simp [rteRawCksum]; omega
  rw [← foldCarries_leSum bytes h]
  simp only [le16, beSum, hval, UInt8.toNat_ofNat', add_zero]
  rw [Nat.mod_eq_of_lt (show foldCarries (leSum bytes) / 256 < 2 ^ 8 by omega),
    Nat.mod_eq_of_lt (show foldCarries (leSum bytes) % 256 < 2 ^ 8 by omega)]

/-- As bytes in memory, the complement of `rte_raw_cksum` is the Internet
    checksum in network byte order. -/
theorem le16_not_rteRawCksum {bytes : List UInt8} (h : bytes.length < 65536) :
    le16 (~~~ rteRawCksum bytes) = be16 (internetChecksum bytes) := by
  have hle := leSum_le bytes
  have hlt := foldCarries_lt (leSum bytes) (by omega)
  have hswap := foldCarries_leSum bytes h
  have hraw : (~~~ rteRawCksum bytes).toNat = 65535 - foldCarries (leSum bytes) := by
    rw [rteRawCksum, UInt16.toNat_not, UInt16.toNat_ofNat_of_lt' hlt]
    rfl
  unfold le16 be16
  rw [hraw, toNat_internetChecksum h, ← hswap]
  clear hraw hswap hle
  generalize foldCarries (leSum bytes) = f at *
  obtain ⟨hi, lo, hf, hhi, hlo⟩ : ∃ hi lo, f = hi * 256 + lo ∧ hi < 256 ∧ lo < 256 :=
    ⟨f / 256, f % 256, by omega, by omega, by omega⟩
  have hsum : f % 256 * 256 + f / 256 = lo * 256 + hi := by omega
  rw [hsum, show 65535 - f = 256 * (255 - hi) + (255 - lo) by omega,
    show 65535 - (lo * 256 + hi) = 256 * (255 - lo) + (255 - hi) by omega,
    Nat.mul_add_mod, Nat.mul_add_mod, Nat.mul_add_div (by decide), Nat.mul_add_div (by decide),
    Nat.div_eq_of_lt (show 255 - lo < 256 by omega),
    Nat.div_eq_of_lt (show 255 - hi < 256 by omega),
    Nat.mod_eq_of_lt (show 255 - lo < 256 by omega),
    Nat.mod_eq_of_lt (show 255 - hi < 256 by omega)]
  rfl

/-- `rte_ipv4_cksum(hdr)`: the complement of the sum of the header. -/
def rteIpv4Cksum (m : Memory) (hdr : ℕ) : UInt16 :=
  ~~~ rteRawCksum (m.load hdr ((m (RteIpv4Hdr.versionIhl hdr)).toNat % 16 * 4))

/-- `rte_ipv4_phdr_cksum(hdr, 0)`: the sum of the pseudo-header of the datagram
    behind `hdr`, whose length field is the IPv4 payload length. -/
def rteIpv4PhdrCksum (m : Memory) (hdr : ℕ) : UInt16 :=
  let l3Len := beSum (m.load (RteIpv4Hdr.totalLength hdr) 2)
  let hdrLen := (m (RteIpv4Hdr.versionIhl hdr)).toNat % 16 * 4
  rteRawCksum (m.load (RteIpv4Hdr.srcAddr hdr) 4 ++ m.load (RteIpv4Hdr.dstAddr hdr) 4 ++
    [0, m (RteIpv4Hdr.nextProtoId hdr)] ++ be16 (UInt16.ofNat (l3Len - hdrLen)))

end DpdkTutorials.Dpdk

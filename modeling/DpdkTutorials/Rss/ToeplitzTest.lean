import DpdkTutorials.Net.Toeplitz

/-!
# The test of the Toeplitz hash

`11-rss-toeplitz-hash-test` prints the hash of five IPv4 tuples over the
addresses alone (layer 3) and over addresses and ports (layers 3 and 4), once
with the default key and once with a custom key that is zero after its first
eight bytes.

* `toBitVec_rteSoftrss`: `rte_softrss` computes the Toeplitz hash of the words.
* `customKey_ignores_ports`: with the custom key the ports do not matter.
* `customKey_addressBit_iff`: nor does the last bit of the destination address.
-/

namespace DpdkTutorials.Rss

open DpdkTutorials.Net

/-! ## The hash -/

/-- Bit `i` of a key, the most significant bit of its first byte being bit 0. -/
def keyBit (rssKey : List UInt8) (i : ℕ) : Bool := (rssKey.getD (i / 8) 0).toBitVec.getMsbD (i % 8)

/-- The 32 bits of the key from bit `i` on. -/
def keyWindow (rssKey : List UInt8) (i : ℕ) : UInt32 := ⟨window (keyBit rssKey) 32 i⟩

/-- The windows for the set bits of word `j`. -/
def softrssWord (rssKey : List UInt8) (j : ℕ) (word ret : UInt32) : UInt32 :=
  (List.range 32).foldl
    (fun ret i => if word.toBitVec.getMsbD i then ret ^^^ keyWindow rssKey (32 * j + i) else ret)
    ret

/-- `rte_softrss`. -/
def rteSoftrss (inputTuple : List UInt32) (inputLen : ℕ) (rssKey : List UInt8) : UInt32 :=
  (List.range inputLen).foldl (fun ret j => softrssWord rssKey j (inputTuple.getD j 0) ret) 0

/-- `RTE_THASH_V4_L3_LEN`. -/
def rteThashV4L3Len : ℕ := 2

/-- `RTE_THASH_V4_L4_LEN`. -/
def rteThashV4L4Len : ℕ := 3

/-! ## The program -/

/-- `rte_ipv4_tuple`. -/
structure Ipv4Tuple where
  srcAddr : UInt32
  dstAddr : UInt32
  dport : UInt16
  sport : UInt16

/-- The tuple as the words of a little-endian host. -/
def Ipv4Tuple.words (t : Ipv4Tuple) : List UInt32 :=
  [t.srcAddr, t.dstAddr, t.dport.toUInt32 ||| t.sport.toUInt32 <<< 16]

/-- `test_thash_v4`. -/
structure TestThashV4 where
  dstIp : UInt32
  srcIp : UInt32
  dstPort : UInt16
  srcPort : UInt16
  hashL3 : UInt32
  hashL3l4 : UInt32

/-- `RTE_IPV4`. -/
def rteIpv4 (a b c d : UInt32) : UInt32 := a <<< 24 ||| b <<< 16 ||| c <<< 8 ||| d

def v4Tbl : List TestThashV4 :=
  [⟨rteIpv4 161 142 100 80, rteIpv4 66 9 149 187, 1766, 2794, 0x323e8fc2, 0x51ccc178⟩,
    ⟨rteIpv4 65 69 140 83, rteIpv4 199 92 111 2, 4739, 14230, 0xd718262a, 0xc626b0ea⟩,
    ⟨rteIpv4 12 22 207 184, rteIpv4 24 19 198 95, 38024, 12898, 0xd2d0a5de, 0x5c2b394a⟩,
    ⟨rteIpv4 209 142 163 6, rteIpv4 38 27 205 30, 2217, 48228, 0x82989176, 0xafc7327f⟩,
    ⟨rteIpv4 202 188 127 2, rteIpv4 153 39 163 191, 1303, 44251, 0x5d1809c5, 0x10e828a2⟩]

def defaultRssKey : List UInt8 :=
  [0x6d, 0x5a, 0x56, 0xda, 0x25, 0x5b, 0x0e, 0xc2, 0x41, 0x67, 0x25, 0x3d, 0x43, 0xa3, 0x8f, 0xb0,
    0xd0, 0xca, 0x2b, 0xcb, 0xae, 0x7b, 0x30, 0xb4, 0x77, 0xcb, 0x2d, 0xa3, 0x80, 0x30, 0xf2, 0x0c,
    0x6a, 0x42, 0xb7, 0x3b, 0xbe, 0xac, 0x01, 0xfa]

def customRssKey : List UInt8 :=
  [0x6d, 0x5a, 0x56, 0xda, 0x25, 0x5b, 0x0e, 0xc2, 0x00, 0x00, 0x00, 0x00, 0x00, 0x00, 0x00, 0x00,
    0x00, 0x00, 0x00, 0x00, 0x00, 0x00, 0x00, 0x00, 0x00, 0x00, 0x00, 0x00, 0x00, 0x00, 0x00, 0x00,
    0x00, 0x00, 0x00, 0x00, 0x00, 0x00, 0x00, 0x00]

/-- The hash over the addresses. -/
def Ipv4Tuple.rssL3 (t : Ipv4Tuple) (rssKey : List UInt8) : UInt32 :=
  rteSoftrss t.words rteThashV4L3Len rssKey

/-- The hash over the addresses and ports. -/
def Ipv4Tuple.rssL3l4 (t : Ipv4Tuple) (rssKey : List UInt8) : UInt32 :=
  rteSoftrss t.words rteThashV4L4Len rssKey

/-- What `main` prints for a tuple. -/
structure RssHashes where
  ipv4Tuple : Ipv4Tuple
  rssL3DefaultKey : UInt32
  rssL3l4DefaultKey : UInt32
  rssL3CustomKey : UInt32
  rssL3l4CustomKey : UInt32

/-- The tuple that `main` fills from an entry of `v4_tbl`. -/
def TestThashV4.ipv4Tuple (e : TestThashV4) : Ipv4Tuple := ⟨e.srcIp, e.dstIp, e.dstPort, e.srcPort⟩

/-- The loop of `main` (main.cpp:75-99). -/
def main : List RssHashes := v4Tbl.map fun e =>
  let t := e.ipv4Tuple
  ⟨t, t.rssL3 defaultRssKey, t.rssL3l4 defaultRssKey, t.rssL3 customRssKey, t.rssL3l4 customRssKey⟩

/-! ## The hash is the Toeplitz hash -/

/-- Bit `i` of the input words. -/
def inputBit (inputTuple : List UInt32) (i : ℕ) : Bool :=
  (inputTuple.getD (i / 32) 0).toBitVec.getMsbD (i % 32)

variable {rssKey : List UInt8} {inputTuple : List UInt32}

theorem toBitVec_softrssWord {j n : ℕ} (hn : n ≤ 32) {ret : UInt32}
    (hret : ret.toBitVec = toeplitz (keyBit rssKey) (inputBit inputTuple) 32 (32 * j)) :
    ((List.range n).foldl (fun ret i => if (inputTuple.getD j 0).toBitVec.getMsbD i then
        ret ^^^ keyWindow rssKey (32 * j + i) else ret) ret).toBitVec =
      toeplitz (keyBit rssKey) (inputBit inputTuple) 32 (32 * j + n) := by
  induction n with
  | zero => exact hret
  | succ n ih =>
    have hbit : inputBit inputTuple (32 * j + n) = (inputTuple.getD j 0).toBitVec.getMsbD n := by
      rw [inputBit, show (32 * j + n) / 32 = j by omega, show (32 * j + n) % 32 = n by omega]
    rw [List.range_succ, List.foldl_append, List.foldl_cons, List.foldl_nil, ← Nat.add_assoc,
      toeplitz, ← ih (by omega), hbit]
    split_ifs
    · rfl
    · rw [BitVec.xor_zero]

theorem toBitVec_rteSoftrss (inputLen : ℕ) :
    (rteSoftrss inputTuple inputLen rssKey).toBitVec =
      toeplitz (keyBit rssKey) (inputBit inputTuple) 32 (32 * inputLen) := by
  induction inputLen with
  | zero => rfl
  | succ j ih =>
    rw [rteSoftrss, List.range_succ, List.foldl_append, List.foldl_cons, List.foldl_nil]
    exact toBitVec_softrssWord (le_refl 32) ih

/-- The test vectors of `v4_tbl`. -/
example : ∀ e ∈ v4Tbl, e.ipv4Tuple.rssL3 defaultRssKey = e.hashL3 ∧
    e.ipv4Tuple.rssL3l4 defaultRssKey = e.hashL3l4 := by
  decide +kernel

theorem rteSoftrss_inj {tuple₁ tuple₂ : List UInt32} {len₁ len₂ : ℕ} :
    rteSoftrss tuple₁ len₁ rssKey = rteSoftrss tuple₂ len₂ rssKey ↔
      toeplitz (keyBit rssKey) (inputBit tuple₁) 32 (32 * len₁) =
        toeplitz (keyBit rssKey) (inputBit tuple₂) 32 (32 * len₂) := by
  rw [← toBitVec_rteSoftrss, ← toBitVec_rteSoftrss, UInt32.toBitVec_inj]

/-! ## The ports -/

/-- The custom key is zero after its first eight bytes. -/
theorem keyBit_customRssKey {i : ℕ} (hi : 64 ≤ i) : keyBit customRssKey i = false := by
  have hbyte : customRssKey.getD (i / 8) 0 = 0 := by
    have hzeros : ∀ n < 40, 8 ≤ n → customRssKey.getD n 0 = 0 := by decide
    by_cases hlt : i / 8 < 40
    · exact hzeros _ hlt (by omega)
    · exact List.getD_eq_default _ _ (by rw [show customRssKey.length = 40 from rfl]; omega)
  rw [keyBit, hbyte]
  exact BitVec.getMsbD_zero

theorem window_customRssKey {i : ℕ} (hi : 64 ≤ i) :
    window (keyBit customRssKey) 32 i = 0#32 := by
  rw [window_eq_zero_iff]
  intro j _
  exact keyBit_customRssKey (by omega)

/-- What the comment on the key says: the two hashes are the same. -/
theorem rssL3l4_customRssKey (t : Ipv4Tuple) : t.rssL3l4 customRssKey = t.rssL3 customRssKey := by
  apply rteSoftrss_inj.mpr
  refine toeplitz_eq_of_windows (by decide) ?_
  intro i hi _
  exact window_customRssKey hi

/-- The hash over the addresses reads two words. -/
theorem rssL3_eq (t : Ipv4Tuple) :
    t.rssL3 rssKey = softrssWord rssKey 1 t.dstAddr (softrssWord rssKey 0 t.srcAddr 0) := by
  rw [Ipv4Tuple.rssL3, rteSoftrss, rteThashV4L3Len, List.range_succ, List.range_succ]
  rfl

/-- With the custom key the ports are irrelevant for all tuples. -/
theorem customKey_ignores_ports :
    (∀ t : Ipv4Tuple, t.rssL3 customRssKey = t.rssL3l4 customRssKey) ∧
      ∀ srcAddr dstAddr dport sport dport' sport',
        (Ipv4Tuple.mk srcAddr dstAddr dport sport).rssL3l4 customRssKey =
          (Ipv4Tuple.mk srcAddr dstAddr dport' sport').rssL3l4 customRssKey := by
  refine ⟨fun t => (rssL3l4_customRssKey t).symm, ?_⟩
  intro srcAddr dstAddr dport sport dport' sport'
  rw [rssL3l4_customRssKey, rssL3l4_customRssKey, rssL3_eq, rssL3_eq]

/-- So every tuple that `main` prints has one hash twice. -/
example : ∀ r ∈ main, r.rssL3CustomKey = r.rssL3l4CustomKey := by
  decide +kernel

/-! ## The addresses -/

/-- A word with only bit `i`, counted from the most significant one. -/
def bitMask (i : ℕ) : UInt32 := ⟨BitVec.twoPow 32 (31 - i)⟩

/-- The tuple with one of the 64 bits of its addresses flipped. -/
def Ipv4Tuple.flipAddressBit (t : Ipv4Tuple) (k : Fin 64) : Ipv4Tuple :=
  if (k : ℕ) < 32 then
    { t with srcAddr := t.srcAddr ^^^ bitMask k }
  else
    { t with dstAddr := t.dstAddr ^^^ bitMask (k - 32) }

theorem getMsbD_xor_bitMask {a : UInt32} {i j : ℕ} (hi : i < 32) (hj : j < 32) :
    (a ^^^ bitMask i).toBitVec.getMsbD j = (a.toBitVec.getMsbD j ^^ j == i) := by
  have hmask : (bitMask i).toBitVec.getMsbD j = (j == i) := by
    show (BitVec.twoPow 32 (31 - i)).getMsbD j = _
    rw [BitVec.getMsbD_eq_getLsbD, BitVec.getLsbD_twoPow, Bool.eq_iff_iff]
    simp only [Bool.and_eq_true, decide_eq_true_eq, beq_iff_eq]
    omega
  rw [UInt32.toBitVec_xor, BitVec.getMsbD_xor, hmask]

theorem inputBit_srcAddr (t : Ipv4Tuple) {i : ℕ} (hi : i < 32) :
    inputBit t.words i = t.srcAddr.toBitVec.getMsbD i := by
  rw [inputBit, show i / 32 = 0 by omega, show i % 32 = i by omega]
  rfl

theorem inputBit_dstAddr (t : Ipv4Tuple) {i : ℕ} (hge : 32 ≤ i) (hi : i < 64) :
    inputBit t.words i = t.dstAddr.toBitVec.getMsbD (i - 32) := by
  rw [inputBit, show i / 32 = 1 by omega, show i % 32 = i - 32 by omega]
  rfl

/-- The bit that `flipAddressBit` flips is bit `k` of the input. -/
theorem inputBit_flipAddressBit (t : Ipv4Tuple) (k : Fin 64) {i : ℕ} (hi : i < 64) :
    inputBit (t.flipAddressBit k).words i = flipBit (inputBit t.words) k i := by
  have hk := k.isLt
  unfold flipBit singleBit
  rcases Nat.lt_or_ge i 32 with hi' | hi'
  · rw [inputBit_srcAddr _ hi', inputBit_srcAddr _ hi', Ipv4Tuple.flipAddressBit]
    split_ifs with hk'
    · exact getMsbD_xor_bitMask hk' hi'
    · have hne : (i == (k : ℕ)) = false := by simp; omega
      rw [hne, Bool.xor_false]
  · rw [inputBit_dstAddr _ hi' hi, inputBit_dstAddr _ hi' hi, Ipv4Tuple.flipAddressBit]
    split_ifs with hk'
    · have hne : (i == (k : ℕ)) = false := by simp; omega
      rw [hne, Bool.xor_false]
    · have heq : (i == (k : ℕ)) = (i - 32 == (k : ℕ) - 32) := by
        rw [Bool.eq_iff_iff, beq_iff_eq, beq_iff_eq]
        omega
      rw [heq]
      exact getMsbD_xor_bitMask (by omega) (by omega)

theorem rssL3_flip_ne_iff (t : Ipv4Tuple) (k : Fin 64) :
    (t.flipAddressBit k).rssL3 rssKey ≠ t.rssL3 rssKey ↔ window (keyBit rssKey) 32 k ≠ 0#32 := by
  have hinput : toeplitz (keyBit rssKey) (inputBit (t.flipAddressBit k).words) 32 64 =
      toeplitz (keyBit rssKey) (flipBit (inputBit t.words) k) 32 64 :=
    toeplitz_congr fun i hi => inputBit_flipAddressBit t k hi
  rw [← toeplitz_flip_ne_iff k.isLt, ← hinput]
  exact not_congr rteSoftrss_inj

/-- Bit 63 of the key is zero as all after it are, and the windows before it
    start at or before bit 62, which is set. -/
theorem window_customRssKey_ne_zero (k : Fin 64) :
    window (keyBit customRssKey) 32 k ≠ 0#32 ↔ k ≠ 63 := by
  revert k
  decide +kernel

/-- Every bit of the addresses matters but the last one of the destination. -/
theorem customKey_addressBit_iff (t : Ipv4Tuple) (k : Fin 64) :
    (t.flipAddressBit k).rssL3 customRssKey ≠ t.rssL3 customRssKey ↔ k ≠ 63 := by
  rw [rssL3_flip_ne_iff, window_customRssKey_ne_zero]

/-- For one source, the destinations 0.0.0.0 and 0.0.0.1 have one hash. -/
theorem customKey_ignores_addressBit :
    ((Ipv4Tuple.mk 0 0 0 0).flipAddressBit 63).dstAddr = 1 ∧
      ((Ipv4Tuple.mk 0 0 0 0).flipAddressBit 63).rssL3 customRssKey =
        (Ipv4Tuple.mk 0 0 0 0).rssL3 customRssKey := by
  decide +kernel

end DpdkTutorials.Rss

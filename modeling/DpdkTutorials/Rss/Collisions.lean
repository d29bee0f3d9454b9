import DpdkTutorials.Net.ToeplitzKernel
import DpdkTutorials.Rss.ToeplitzTest

/-!
# Which tuples collide

The hashes of `11-rss-toeplitz-hash-test` spread packets over queues. Tuples that
differ in one of their three words collide only in few cases: with the default key
no two destinations do, sources and pairs of ports do in pairs, and with the
custom key destinations do that differ in the last bit.

* `rteSoftrss_eq_iff`: when inputs collide that differ in one word.
* `source_collide_iff`: both keys, as they have the first eight bytes in common.
* `defaultKey_destination_bijective`, `customKey_destination_collide_iff`,
  `defaultKey_ports_collide_iff`: the other words of the tuple.
-/

namespace DpdkTutorials.Rss

open DpdkTutorials.Net

/-! ## Inputs that differ in one word -/

variable {rssKey : List UInt8} {tuple tuple' : List UInt32} {j n : ℕ}

/-- Word `j` is `v`, and the others are zero. -/
def wordBits (j : ℕ) (v : UInt32) (i : ℕ) : Bool := i / 32 == j && v.toBitVec.getMsbD (i % 32)

theorem inputBit_xor (hother : ∀ m, m ≠ j → tuple.getD m 0 = tuple'.getD m 0) (i : ℕ) :
    (inputBit tuple i ^^ inputBit tuple' i) =
      wordBits j (tuple.getD j 0 ^^^ tuple'.getD j 0) i := by
  unfold inputBit wordBits
  by_cases hi : i / 32 = j
  · subst hi
    simp
  · have hne : (i / 32 == j) = false := by simpa using hi
    rw [hother _ hi, hne, Bool.xor_self, Bool.false_and]

theorem toeplitz_wordBits {key : ℕ → Bool} (hj : j < n) (v : UInt32) :
    toeplitz key (wordBits j v) 32 (32 * n) =
      toeplitz (fun i => key (32 * j + i)) (fun i => v.toBitVec.getMsbD i) 32 32 := by
  have hbits : ∀ i < 32, wordBits j v (32 * j + i) = v.toBitVec.getMsbD i := by
    intro i hi
    rw [wordBits, show (32 * j + i) / 32 = j by omega, show (32 * j + i) % 32 = i by omega]
    simp
  have hoff : ∀ i, i / 32 ≠ j → wordBits j v i = false := by
    intro i hi
    simp [wordBits, hi]
  rw [toeplitz_of_zero (show 32 * j + 32 ≤ 32 * n by omega) fun i hi _ => hoff i (by omega),
    toeplitz_shift fun i hi => hoff i (by omega)]
  exact toeplitz_congr hbits

/-- A certificate for the windows of word `j`. -/
abbrev WordCertificate (rssKey : List UInt8) (j : ℕ) (K : UInt32) (masks : List (BitVec 32)) :
    Prop :=
  Certificate (fun i => keyBit rssKey (32 * j + i)) 32 32 31 (fun i => K.toBitVec.getMsbD i)
    fun k => masks.getD k 0

theorem forall_getMsbD_iff {v u : UInt32} :
    (∀ k < 32, v.toBitVec.getMsbD k = u.toBitVec.getMsbD k) ↔ v = u := by
  constructor
  · intro h
    exact UInt32.toBitVec_inj.mp (BitVec.eq_of_getMsbD_eq fun i hi => h i hi)
  · rintro rfl k _
    rfl

theorem xor_eq_iff {u v K : UInt32} : u ^^^ v = K ↔ v = u ^^^ K := by
  rw [← UInt32.xor_right_inj u, ← UInt32.xor_assoc, UInt32.xor_self, UInt32.zero_xor]

/-- Inputs that agree in the other words collide only if word `j` is the same or
    differs by `K`. -/
theorem rteSoftrss_eq_iff {K : UInt32} {masks : List (BitVec 32)}
    (hcert : WordCertificate rssKey j K masks) (hj : j < n)
    (hother : ∀ m, m ≠ j → tuple.getD m 0 = tuple'.getD m 0) :
    rteSoftrss tuple n rssKey = rteSoftrss tuple' n rssKey ↔
      tuple'.getD j 0 = tuple.getD j 0 ∨ tuple'.getD j 0 = tuple.getD j 0 ^^^ K := by
  rw [rteSoftrss_inj, ← BitVec.xor_eq_zero_iff, ← toeplitz_xor,
    toeplitz_congr fun i _ => inputBit_xor hother i, toeplitz_wordBits hj,
    hcert.eq_zero_iff (by decide), forall_getMsbD_iff]
  have hzero : (∀ k < 32, (tuple.getD j 0 ^^^ tuple'.getD j 0).toBitVec.getMsbD k = false) ↔
      tuple.getD j 0 ^^^ tuple'.getD j 0 = 0 := by
    rw [← forall_getMsbD_iff]
    simp
  rw [hzero, xor_eq_iff, xor_eq_iff, UInt32.xor_zero]

/-! ## The certificates -/

/-- Two sources that differ by this collide. -/
def sourceKernel : UInt32 := 0xed182cdd

/-- Two pairs of ports that differ by this collide with the default key. -/
def portsKernel : UInt32 := 0x3c5c6937

/-- The masks for the bits of the source. -/
def sourceMasks : List (BitVec 32) :=
  [0x2dde91ea, 0x7663b23e, 0xc119f596, 0x5803b296, 0x9dd9f4c6, 0xcc5d21dc, 0x428a1a02, 0xa8caa5ee,
    0x8ba51266, 0xcd7a7d76, 0x40c4a356, 0xac57d746, 0xaf4166dc, 0x84b29402, 0xd35571be, 0x7c9abac6,
    0xf935758c, 0x285ab2a2, 0x7d6bf4ae, 0xfad7e95c, 0x02411ae8, 0x295ca43a, 0x52b94874, 0xa57290e8,
    0xbd0be980, 0x8df91b50, 0xc1c26f1a, 0x746a1664, 0xc50abd22, 0x7dfbb214, 0xfbf76428, 0x00000000]

/-- The masks for the bits of the destination, with the default key. -/
def destinationMasks : List (BitVec 32) :=
  [0xe3fc85c7, 0xe92e4cf4, 0xfc8bde92, 0x343c7f99, 0x6878ff32, 0x330d7ba3, 0x85e67281, 0xc6e727bf,
    0xa3190804, 0x8b19d2b5, 0xdb1867d7, 0x98e788d4, 0xfce4d315, 0xd71ee150, 0x6316001d, 0x25d085fd,
    0xa85d8e3d, 0x7e6c5b00, 0x1f2433c7, 0x3e48678e, 0x7c90cf1c, 0xf9219e38, 0x3f68fecd, 0x9d2d785d,
    0xf7713207, 0xc0352374, 0x4d418455, 0x797f8d6d, 0x11039f1d, 0xc1fbbbfd, 0xad203080, 0x976ba3bd]

/-- The masks for the bits of the destination, with the custom key. -/
def customDestinationMasks : List (BitVec 32) :=
  [0x00000002, 0x00000004, 0x00000008, 0x00000010, 0x00000020, 0x00000042, 0x00000086, 0x0000010c,
    0x0000021a, 0x00000436, 0x0000086c, 0x000010d8, 0x000021b2, 0x00004364, 0x000086c8, 0x00010d90,
    0x00021b22, 0x00043646, 0x00086c8c, 0x0010d918, 0x0021b230, 0x00436462, 0x0086c8c4, 0x010d9188,
    0x021b2312, 0x04364626, 0x086c8c4e, 0x10d9189c, 0x21b23138, 0x43646270, 0x86c8c4e0, 0x00000000]

/-- The masks for the bits of the ports, with the default key. -/
def portMasks : List (BitVec 32) :=
  [0x78b8d26e, 0xf171a4dc, 0xd4754b8e, 0xe6c44744, 0x83a65ed0, 0x31dabf96, 0x1b0dad42, 0x4ea388ea,
    0x9d4711d4, 0x74a0f3f0, 0xe941e7e0, 0xe415cdf6, 0x86054bb4, 0x3a9c955e, 0x0d81f8d2, 0x63bb23ca,
    0xc7764794, 0xb87a8d1e, 0x4663180a, 0x8cc63014, 0x2f1a621e, 0x5e34c43c, 0xbc698878, 0x36fdc0a8,
    0x6dfb8150, 0xdbf702a0, 0x81780776, 0x4cdedeb4, 0xe1056f06, 0xf49cdc3a, 0xa717682c, 0x00000000]

theorem defaultKey_source : WordCertificate defaultRssKey 0 sourceKernel sourceMasks := by
  refine ⟨?_, ?_⟩ <;> decide +kernel

theorem customKey_source : WordCertificate customRssKey 0 sourceKernel sourceMasks := by
  refine ⟨?_, ?_⟩ <;> decide +kernel

theorem defaultKey_destination : WordCertificate defaultRssKey 1 0 destinationMasks := by
  refine ⟨?_, ?_⟩ <;> decide +kernel

theorem customKey_destination : WordCertificate customRssKey 1 1 customDestinationMasks := by
  refine ⟨?_, ?_⟩ <;> decide +kernel

theorem defaultKey_ports : WordCertificate defaultRssKey 2 portsKernel portMasks := by
  refine ⟨?_, ?_⟩ <;> decide +kernel

/-! ## The words of a tuple -/

/-- The third word of a tuple. -/
def portsWord (dport sport : UInt16) : UInt32 := dport.toUInt32 ||| sport.toUInt32 <<< 16

theorem toNat_portsWord (dport sport : UInt16) :
    (portsWord dport sport).toNat = 2 ^ 16 * sport.toNat + dport.toNat := by
  have hd := dport.toNat_lt
  have hs := sport.toNat_lt
  have hshift : sport.toNat <<< 16 % 4294967296 = 2 ^ 16 * sport.toNat := by
    rw [Nat.shiftLeft_eq, Nat.mul_comm]
    omega
  rw [portsWord, Nat.two_pow_add_eq_or_of_lt (by omega), Nat.or_comm]
  simp [hshift]

theorem portsWord_inj {dport sport dport' sport' : UInt16} :
    portsWord dport sport = portsWord dport' sport' ↔ dport = dport' ∧ sport = sport' := by
  have := dport.toNat_lt
  have := dport'.toNat_lt
  rw [← UInt32.toNat_inj, ← UInt16.toNat_inj, ← UInt16.toNat_inj, toNat_portsWord, toNat_portsWord]
  omega

theorem getLsbD_portsWord {dport sport : UInt16} {i : ℕ} (hi : i < 32) :
    (portsWord dport sport).toBitVec.getLsbD i =
      if i < 16 then dport.toBitVec.getLsbD i else sport.toBitVec.getLsbD (i - 16) := by
  split_ifs with hlow
  · simp [portsWord, hi, hlow]
  · have hout : dport.toBitVec.getLsbD i = false := BitVec.getLsbD_of_ge _ _ (by omega)
    simp [portsWord, hi, hlow, hout]

theorem portsWord_xor (dport sport dport' sport' : UInt16) :
    portsWord (dport ^^^ dport') (sport ^^^ sport') =
      portsWord dport sport ^^^ portsWord dport' sport' := by
  apply UInt32.toBitVec_inj.mp
  apply BitVec.eq_of_getLsbD_eq
  intro i hi
  rw [UInt32.toBitVec_xor, BitVec.getLsbD_xor, getLsbD_portsWord hi, getLsbD_portsWord hi,
    getLsbD_portsWord hi]
  split_ifs <;> simp

instance finite_uInt32 : Finite UInt32 :=
  Finite.of_injective UInt32.toBitVec fun _ _ => UInt32.toBitVec_inj.mp

section Words

variable {srcAddr dstAddr srcAddr' dstAddr' : UInt32} {dport sport dport' sport' : UInt16}

theorem words_source {m : ℕ} (hm : m ≠ 0) :
    (Ipv4Tuple.mk srcAddr dstAddr dport sport).words.getD m 0 =
      (Ipv4Tuple.mk srcAddr' dstAddr dport sport).words.getD m 0 := by
  obtain ⟨m, rfl⟩ := Nat.exists_eq_succ_of_ne_zero hm
  rfl

theorem words_destination {m : ℕ} (hm : m ≠ 1) :
    (Ipv4Tuple.mk srcAddr dstAddr dport sport).words.getD m 0 =
      (Ipv4Tuple.mk srcAddr dstAddr' dport sport).words.getD m 0 := by
  rcases m with - | - | m
  · rfl
  · exact absurd rfl hm
  · rfl

theorem words_ports {m : ℕ} (hm : m ≠ 2) :
    (Ipv4Tuple.mk srcAddr dstAddr dport sport).words.getD m 0 =
      (Ipv4Tuple.mk srcAddr dstAddr dport' sport').words.getD m 0 := by
  rcases m with - | - | - | m
  · rfl
  · rfl
  · exact absurd rfl hm
  · rfl

end Words

section Tuples

variable (srcAddr dstAddr srcAddr' dstAddr' : UInt32) (dport sport dport' sport' : UInt16)

/-- Two sources that send to one destination collide if they differ by one vector,
    which is the same for both keys, and only then. -/
theorem source_collide_iff :
    ∀ rssKey ∈ [defaultRssKey, customRssKey],
      ((Ipv4Tuple.mk srcAddr dstAddr dport sport).rssL3 rssKey =
          (Ipv4Tuple.mk srcAddr' dstAddr dport sport).rssL3 rssKey ↔
        srcAddr' = srcAddr ∨ srcAddr' = srcAddr ^^^ sourceKernel) ∧
      ((Ipv4Tuple.mk srcAddr dstAddr dport sport).rssL3l4 rssKey =
          (Ipv4Tuple.mk srcAddr' dstAddr dport sport).rssL3l4 rssKey ↔
        srcAddr' = srcAddr ∨ srcAddr' = srcAddr ^^^ sourceKernel) := by
  have hboth : ∀ rssKey, WordCertificate rssKey 0 sourceKernel sourceMasks →
      ∀ n > 0, rteSoftrss (Ipv4Tuple.mk srcAddr dstAddr dport sport).words n rssKey =
          rteSoftrss (Ipv4Tuple.mk srcAddr' dstAddr dport sport).words n rssKey ↔
        srcAddr' = srcAddr ∨ srcAddr' = srcAddr ^^^ sourceKernel :=
    fun rssKey hcert n hn => rteSoftrss_eq_iff hcert hn fun _ => words_source
  rw [List.forall_mem_cons, List.forall_mem_singleton]
  exact ⟨⟨hboth _ defaultKey_source 2 (by decide), hboth _ defaultKey_source 3 (by decide)⟩,
    hboth _ customKey_source 2 (by decide), hboth _ customKey_source 3 (by decide)⟩

theorem source_collide_zero :
    (Ipv4Tuple.mk 0 0 0 0).rssL3 defaultRssKey =
      (Ipv4Tuple.mk sourceKernel 0 0 0).rssL3 defaultRssKey :=
  (source_collide_iff 0 0 sourceKernel 0 0 defaultRssKey (.head _)).1.mpr (.inr (by decide))

/-- With the default key no two destinations of a source collide, and every hash
    is that of one of them. -/
theorem defaultKey_destination_bijective :
    Function.Bijective
        (fun dstAddr => (Ipv4Tuple.mk srcAddr dstAddr dport sport).rssL3 defaultRssKey) ∧
      Function.Bijective
        fun dstAddr => (Ipv4Tuple.mk srcAddr dstAddr dport sport).rssL3l4 defaultRssKey := by
  have hinj : ∀ n > 1, Function.Injective fun dstAddr =>
      rteSoftrss (Ipv4Tuple.mk srcAddr dstAddr dport sport).words n defaultRssKey := by
    intro n hn dstAddr dstAddr' heq
    have hor := (rteSoftrss_eq_iff defaultKey_destination hn fun _ => words_destination).mp heq
    rw [UInt32.xor_zero, or_self] at hor
    exact hor.symm
  exact ⟨Finite.injective_iff_bijective.mp (hinj 2 (by decide)),
    Finite.injective_iff_bijective.mp (hinj 3 (by decide))⟩

/-- With the custom key destinations collide that differ in the last bit, and no
    others. -/
theorem customKey_destination_collide_iff :
    ((Ipv4Tuple.mk srcAddr dstAddr dport sport).rssL3 customRssKey =
        (Ipv4Tuple.mk srcAddr dstAddr' dport sport).rssL3 customRssKey ↔
      dstAddr' = dstAddr ∨ dstAddr' = dstAddr ^^^ 1) ∧
    ((Ipv4Tuple.mk srcAddr dstAddr dport sport).rssL3l4 customRssKey =
        (Ipv4Tuple.mk srcAddr dstAddr' dport sport).rssL3l4 customRssKey ↔
      dstAddr' = dstAddr ∨ dstAddr' = dstAddr ^^^ 1) :=
  ⟨rteSoftrss_eq_iff customKey_destination (by decide) fun _ => words_destination,
    rteSoftrss_eq_iff customKey_destination (by decide) fun _ => words_destination⟩

/-- With the default key each pair of ports collides with exactly one other. -/
theorem defaultKey_ports_collide_iff :
    (Ipv4Tuple.mk srcAddr dstAddr dport sport).rssL3l4 defaultRssKey =
        (Ipv4Tuple.mk srcAddr dstAddr dport' sport').rssL3l4 defaultRssKey ↔
      dport' = dport ∧ sport' = sport ∨
        dport' = dport ^^^ 0x6937 ∧ sport' = sport ^^^ 0x3c5c := by
  have hkernel : portsKernel = portsWord 0x6937 0x3c5c := by decide
  refine (rteSoftrss_eq_iff defaultKey_ports (by decide) fun _ => words_ports).trans ?_
  show portsWord dport' sport' = portsWord dport sport ∨
    portsWord dport' sport' = portsWord dport sport ^^^ portsKernel ↔ _
  rw [hkernel, ← portsWord_xor, portsWord_inj, portsWord_inj]

end Tuples

end DpdkTutorials.Rss

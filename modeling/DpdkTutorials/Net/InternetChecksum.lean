import DpdkTutorials.Common.Memory

/-!
# The Internet checksum

The checksum of a byte string is computed from the one's-complement sum of its
16-bit big-endian words, the last byte of an odd string being padded with a
zero. Modulo `2^16 - 1` the sum is plain addition; this is what the results
below rest on.

* `foldCarries_mod`: folding the carries keeps the sum modulo `2^16 - 1`.
* `leSum_mod`: summing little-endian words gives the byte-swapped sum.
* `verifies_iff`: a string verifies iff its sum is a non-zero multiple of `2^16 - 1`.
* `internetChecksum_eq_iff`: strings have one checksum iff their sums agree
  modulo `2^16 - 1`.
* `verifies_checksummed`: a string verifies with its checksum in place.
-/

namespace DpdkTutorials.Net

open DpdkTutorials.Common.Memory

/-- The sum of the big-endian 16-bit words of a byte string. -/
def beSum : List UInt8 → ℕ
  | a :: b :: rest => a.toNat * 256 + b.toNat + beSum rest
  | [a] => a.toNat * 256
  | [] => 0

/-- The sum of the little-endian 16-bit words of a byte string. -/
def leSum : List UInt8 → ℕ
  | a :: b :: rest => a.toNat + 256 * b.toNat + leSum rest
  | [a] => a.toNat
  | [] => 0

/-- Adding the carries back in, twice. -/
def foldCarries (sum : ℕ) : ℕ :=
  let sum := sum / 65536 + sum % 65536
  sum / 65536 + sum % 65536

/-- The complement of the one's-complement sum, as a number. -/
def internetChecksum (bytes : List UInt8) : UInt16 :=
  ~~~ (UInt16.ofNat (foldCarries (beSum bytes)))

/-- A receiver accepts a byte string whose one's-complement sum is all ones. -/
def Verifies (bytes : List UInt8) : Prop := foldCarries (beSum bytes) = 65535

instance (bytes : List UInt8) : Decidable (Verifies bytes) :=
  inferInstanceAs (Decidable (_ = _))

/-! ## Sums -/

/-- The value of a 16-bit field in network byte order. -/
theorem beSum_be16 (v : UInt16) : beSum (be16 v) = v.toNat := by
  have h := v.toNat_lt
  simp [be16, beSum]
  omega

theorem beSum_append {xs ys : List UInt8} (h : xs.length % 2 = 0) :
    beSum (xs ++ ys) = beSum xs + beSum ys := by
  induction xs using beSum.induct with
  | case1 a b rest ih =>
    rw [List.cons_append, List.cons_append, beSum, beSum, ih (by simp at h; omega)]
    omega
  | case2 a => simp at h
  | case3 => simp [beSum]

theorem beSum_le (bytes : List UInt8) : beSum bytes ≤ bytes.length * 65535 := by
  induction bytes using beSum.induct with
  | case1 a b rest ih =>
    have ha := a.toNat_lt
    have hb := b.toNat_lt
    rw [beSum, List.length_cons, List.length_cons]
    omega
  | case2 a =>
    have ha := a.toNat_lt
    rw [beSum, List.length_singleton]
    omega
  | case3 => simp [beSum]

theorem leSum_le (bytes : List UInt8) : leSum bytes ≤ bytes.length * 65535 := by
  induction bytes using leSum.induct with
  | case1 a b rest ih =>
    have ha := a.toNat_lt
    have hb := b.toNat_lt
    rw [leSum, List.length_cons, List.length_cons]
    omega
  | case2 a =>
    have ha := a.toNat_lt
    rw [leSum, List.length_singleton]
    omega
  | case3 => simp [leSum]

/-- The one's-complement sum does not depend on the byte order of the host:
    the little-endian sum is the big-endian one with its bytes swapped. -/
theorem leSum_mod (bytes : List UInt8) : 256 * leSum bytes % 65535 = beSum bytes % 65535 := by
  induction bytes using leSum.induct with
  | case1 a b rest ih => rw [leSum, beSum]; omega
  | case2 a => rw [leSum, beSum]; omega
  | case3 => rfl

theorem leSum_eq_zero_iff (bytes : List UInt8) : leSum bytes = 0 ↔ beSum bytes = 0 := by
  induction bytes using leSum.induct with
  | case1 a b rest ih => rw [leSum, beSum]; omega
  | case2 a => rw [leSum, beSum]; omega
  | case3 => rfl

/-! ## Carries -/

theorem foldCarries_mod (sum : ℕ) : foldCarries sum % 65535 = sum % 65535 := by
  unfold foldCarries
  dsimp only
  omega

theorem foldCarries_lt (sum : ℕ) (h : sum < 4294967296) : foldCarries sum < 65536 := by
  unfold foldCarries
  dsimp only
  omega

theorem foldCarries_pos (sum : ℕ) : 0 < foldCarries sum ↔ 0 < sum := by
  unfold foldCarries
  dsimp only
  omega

/-- Non-zero sums that agree modulo `2^16 - 1` fold to the same word. -/
theorem foldCarries_eq_iff {m n : ℕ} (hm : m < 4294967296) (hn : n < 4294967296) (hm0 : 0 < m)
    (hn0 : 0 < n) : foldCarries m = foldCarries n ↔ m % 65535 = n % 65535 := by
  have hmlt := foldCarries_lt m hm
  have hnlt := foldCarries_lt n hn
  have hmpos := (foldCarries_pos m).mpr hm0
  have hnpos := (foldCarries_pos n).mpr hn0
  rw [← foldCarries_mod m, ← foldCarries_mod n]
  omega

theorem toNat_internetChecksum {bytes : List UInt8} (h : bytes.length < 65536) :
    (internetChecksum bytes).toNat = 65535 - foldCarries (beSum bytes) := by
  have hle := beSum_le bytes
  have hlt := foldCarries_lt (beSum bytes) (by omega)
  have hval : (UInt16.ofNat (foldCarries (beSum bytes))).toNat = foldCarries (beSum bytes) :=
    UInt16.toNat_ofNat_of_lt' hlt
  rw [internetChecksum, UInt16.toNat_not, hval]
  rfl

theorem internetChecksum_eq_iff {xs ys : List UInt8} (hx : xs.length < 65536)
    (hy : ys.length < 65536) (hx0 : 0 < beSum xs) (hy0 : 0 < beSum ys) :
    internetChecksum xs = internetChecksum ys ↔ beSum xs % 65535 = beSum ys % 65535 := by
  have hxle := beSum_le xs
  have hyle := beSum_le ys
  have hxlt := foldCarries_lt (beSum xs) (by omega)
  have hylt := foldCarries_lt (beSum ys) (by omega)
  rw [← foldCarries_eq_iff (by omega) (by omega) hx0 hy0, ← UInt16.toNat_inj,
    toNat_internetChecksum hx, toNat_internetChecksum hy]
  omega

theorem verifies_iff {bytes : List UInt8} (h : bytes.length < 65536) :
    Verifies bytes ↔ 0 < beSum bytes ∧ beSum bytes % 65535 = 0 := by
  have hle := beSum_le bytes
  have hlt := foldCarries_lt (beSum bytes) (by omega)
  have hmod := foldCarries_mod (beSum bytes)
  have hpos := foldCarries_pos (beSum bytes)
  unfold Verifies
  omega

/-- The checksum of a string, computed over zeros, and then put in their place. -/
theorem verifies_checksummed {xs ys : List UInt8} (hx : xs.length % 2 = 0)
    (hlen : xs.length + ys.length + 2 < 65536) :
    Verifies (xs ++ be16 (internetChecksum (xs ++ [0, 0] ++ ys)) ++ ys) := by
  have heven (c : List UInt8) (hc : c.length = 2) : (xs ++ c).length % 2 = 0 := by
    rw [List.length_append, hc]
    omega
  have hzeros : beSum (xs ++ [0, 0] ++ ys) = beSum xs + beSum ys := by
    rw [beSum_append (heven _ rfl), beSum_append hx]
    simp [beSum]
  have hlength : (xs ++ [0, 0] ++ ys).length < 65536 := by
    simp only [List.length_append, List.length_cons, List.length_nil]
    omega
  have hchecksum : (internetChecksum (xs ++ [0, 0] ++ ys)).toNat =
      65535 - foldCarries (beSum xs + beSum ys) := by
    rw [toNat_internetChecksum hlength, hzeros]
  have hmod := foldCarries_mod (beSum xs + beSum ys)
  have hpos := foldCarries_pos (beSum xs + beSum ys)
  have hlt : foldCarries (beSum xs + beSum ys) < 65536 := by
    have hxle := beSum_le xs
    have hyle := beSum_le ys
    exact foldCarries_lt _ (by omega)
  rw [verifies_iff (by simp only [List.length_append, length_be16]; omega),
    beSum_append (heven _ (length_be16 _)), beSum_append hx, beSum_be16, hchecksum]
  omega

end DpdkTutorials.Net

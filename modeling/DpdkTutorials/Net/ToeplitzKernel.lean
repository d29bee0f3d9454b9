import DpdkTutorials.Net.Toeplitz

/-!
# Collisions of the Toeplitz hash

The hash is linear, so two inputs collide exactly if the hash of their XOR is zero.
A table of masks proves how few inputs have the hash zero: the parity of what mask
`k` and the hash have in common is bit `k` of the input, up to the multiples of
one vector `K`.

* `dot_toeplitz`: the parity of a mask and a hash, bit by bit.
* `Certificate.eq_zero_iff`: the inputs with hash zero are zero and `K`.
* `toeplitz_shift`, `toeplitz_of_zero`: an input with bits in one place only.
-/

namespace DpdkTutorials.Net

variable {w : ℕ}

/-! ## Parities -/

/-- The parity of the first `n` bits that both have. -/
def dotBits (m v : BitVec w) : ℕ → Bool
  | 0 => false
  | n + 1 => dotBits m v n ^^ (m.getLsbD n && v.getLsbD n)

/-- The scalar product over GF(2). -/
def dot (m v : BitVec w) : Bool := dotBits m v w

theorem xor_xor_xor_comm (a b c d : Bool) : ((a ^^ b) ^^ (c ^^ d)) = ((a ^^ c) ^^ (b ^^ d)) := by
  rw [Bool.xor_assoc, Bool.xor_left_comm b c d, ← Bool.xor_assoc]

theorem dotBits_zero (m : BitVec w) (n : ℕ) : dotBits m 0#w n = false := by
  induction n with
  | zero => rfl
  | succ n ih => simp [dotBits, ih]

theorem dotBits_xor (m u v : BitVec w) (n : ℕ) :
    dotBits m (u ^^^ v) n = (dotBits m u n ^^ dotBits m v n) := by
  induction n with
  | zero => rfl
  | succ n ih =>
    rw [dotBits, dotBits, dotBits, ih, BitVec.getLsbD_xor, Bool.and_xor_distrib_left]
    exact xor_xor_xor_comm ..

theorem dot_zero (m : BitVec w) : dot m 0#w = false := dotBits_zero m w

theorem dot_xor (m u v : BitVec w) : dot m (u ^^^ v) = (dot m u ^^ dot m v) :=
  dotBits_xor m u v w

theorem dot_ite (m v : BitVec w) (b : Bool) :
    dot m (if b then v else 0#w) = (b && dot m v) := by
  cases b with
  | false => exact dot_zero m
  | true => exact (Bool.true_and _).symm

/-! ## Bits in one place -/

variable {key x K : ℕ → Bool} {a f k m n : ℕ} {mask : BitVec w}

theorem toeplitz_eq_zero (hzero : ∀ i < n, x i = false) : toeplitz key x w n = 0#w := by
  induction n with
  | zero => rfl
  | succ n ih =>
    rw [toeplitz, ih fun i hi => hzero i (by omega), hzero n (by omega)]
    exact BitVec.xor_zero

/-- Only the first `m` bits may be set. -/
theorem toeplitz_of_zero (hmn : m ≤ n) (hzero : ∀ i, m ≤ i → i < n → x i = false) :
    toeplitz key x w n = toeplitz key x w m := by
  induction n, hmn using Nat.le_induction with
  | base => rfl
  | succ n hmn ih =>
    rw [toeplitz, hzero n hmn (by omega), ih fun i hmi hi => hzero i hmi (by omega)]
    exact BitVec.xor_zero

/-- Only the bits from `a` on may be set. -/
theorem toeplitz_shift (hzero : ∀ i < a, x i = false) :
    toeplitz key x w (a + n) = toeplitz (fun i => key (a + i)) (fun i => x (a + i)) w n := by
  induction n with
  | zero => exact toeplitz_eq_zero hzero
  | succ n ih =>
    have hwindow : window (fun i => key (a + i)) w n = window key w (a + n) := by
      simp only [window, Nat.add_assoc]
    rw [← Nat.add_assoc, toeplitz, toeplitz, ih, hwindow]

/-! ## Decoding -/

theorem lt_succ_and (b : Bool) : (decide (k < n + 1) && x k && b) =
    ((decide (k < n) && x k && b) ^^ (x n && (k == n && b))) := by
  rcases Nat.lt_trichotomy k n with h | rfl | h
  · have hne : (k == n) = false := by simp [h.ne]
    simp [h, Nat.lt_succ_of_lt h, hne]
  · simp
  · simp [h.not_gt, h.ne', show ¬ k < n + 1 by omega]

/-- The windows decide which bits of the input a mask picks out of the hash. -/
theorem dot_toeplitz {c : Bool}
    (hmask : ∀ i < n, dot mask (window key w i) = ((k == i) ^^ (f == i && c))) :
    dot mask (toeplitz key x w n) =
      ((decide (k < n) && x k && true) ^^ (decide (f < n) && x f && c)) := by
  induction n with
  | zero => simp [toeplitz, dot_zero]
  | succ n ih =>
    rw [toeplitz, dot_xor, dot_ite, ih fun i hi => hmask i (by omega), hmask n (by omega),
      lt_succ_and true, lt_succ_and c, Bool.and_xor_distrib_left, Bool.and_true (k == n)]
    exact xor_xor_xor_comm ..

/-- The inputs of length `n` with hash zero are zero and `K`; the latter is zero
    itself if bit `f` of it is not set. -/
structure Certificate (key : ℕ → Bool) (w n f : ℕ) (K : ℕ → Bool) (mask : ℕ → BitVec w) :
    Prop where
  vanishes : toeplitz key K w n = 0#w
  decodes : ∀ k < n, ∀ i < n, dot (mask k) (window key w i) = ((k == i) ^^ (f == i && K k))

theorem Certificate.eq_zero_iff {mask : ℕ → BitVec w} (h : Certificate key w n f K mask)
    (hf : f < n) :
    toeplitz key x w n = 0#w ↔ (∀ k < n, x k = false) ∨ ∀ k < n, x k = K k := by
  constructor
  · intro hhash
    have hbit : ∀ k < n, x k = (x f && K k) := by
      intro k hk
      have hdot := dot_toeplitz (x := x) (h.decodes k hk)
      rw [hhash, dot_zero] at hdot
      simpa [hk, hf] using hdot.symm
    cases hxf : x f with
    | false => exact .inl fun k hk => by rw [hbit k hk, hxf, Bool.false_and]
    | true => exact .inr fun k hk => by rw [hbit k hk, hxf, Bool.true_and]
  · rintro (hzero | hK)
    · exact toeplitz_eq_zero hzero
    · rw [toeplitz_congr hK]
      exact h.vanishes

end DpdkTutorials.Net

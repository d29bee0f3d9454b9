import Mathlib

/-!
# The Toeplitz hash

The Toeplitz hash of a bit string XORs, for every set bit, the window of the key
that starts at the position of this bit. It is linear over XOR, so flipping one
bit of the input changes the hash by one window, whatever the other bits are.

* `toeplitz_xor`: the hash of the XOR is the XOR of the hashes.
* `toeplitz_flip_ne_iff`: a bit matters iff its window is not zero.
* `toeplitz_eq_of_windows`: bits whose windows are zero can be left out.
-/

namespace DpdkTutorials.Net

variable {w : ℕ}

/-- The `w` bits of the key from position `i` on, the first one most significant. -/
def window (key : ℕ → Bool) (w i : ℕ) : BitVec w := BitVec.ofFnBE fun j : Fin w => key (i + j)

/-- The hash of the first `n` bits of `x`. -/
def toeplitz (key x : ℕ → Bool) (w : ℕ) : ℕ → BitVec w
  | 0 => 0#w
  | n + 1 => toeplitz key x w n ^^^ if x n then window key w n else 0#w

/-- The input with bit `k` set and no other. -/
def singleBit (k : ℕ) (i : ℕ) : Bool := i == k

/-- The input `x` with bit `k` flipped. -/
def flipBit (x : ℕ → Bool) (k : ℕ) (i : ℕ) : Bool := x i ^^ singleBit k i

variable {key x y : ℕ → Bool} {k n : ℕ}

theorem getMsbD_window {i j : ℕ} (hj : j < w) : (window key w i).getMsbD j = key (i + j) := by
  rw [window, BitVec.getMsbD_ofFnBE, dif_pos hj]

theorem window_eq_zero_iff {i : ℕ} : window key w i = 0#w ↔ ∀ j < w, key (i + j) = false := by
  constructor
  · intro h j hj
    have hbit : (window key w i).getMsbD j = key (i + j) := getMsbD_window hj
    rw [← hbit, h, BitVec.getMsbD_zero]
  · intro h
    apply BitVec.eq_of_getMsbD_eq
    intro j hj
    rw [getMsbD_window hj, h j hj, BitVec.getMsbD_zero]

/-! ## Linearity -/

theorem toeplitz_congr (h : ∀ i < n, x i = y i) : toeplitz key x w n = toeplitz key y w n := by
  induction n with
  | zero => rfl
  | succ n ih => rw [toeplitz, toeplitz, ih fun i hi => h i (by omega), h n (by omega)]

theorem ite_xor (b c : Bool) (v : BitVec w) : (if b ^^ c then v else 0#w) =
    (if b then v else 0#w) ^^^ if c then v else 0#w := by
  cases b <;> cases c <;> simp

theorem toeplitz_xor : toeplitz key (fun i => x i ^^ y i) w n =
    toeplitz key x w n ^^^ toeplitz key y w n := by
  induction n with
  | zero => rw [toeplitz, toeplitz, toeplitz, BitVec.xor_zero]
  | succ n ih =>
    rw [toeplitz, toeplitz, toeplitz, ih, ite_xor]
    ac_rfl

/-! ## One bit -/

theorem toeplitz_singleBit :
    toeplitz key (singleBit k) w n = if k < n then window key w k else 0#w := by
  induction n with
  | zero => rfl
  | succ n ih =>
    rw [toeplitz, ih]
    rcases Nat.lt_trichotomy k n with h | rfl | h
    · have hbit : singleBit k n = false := by simp [singleBit, h.ne']
      simp [hbit, h, Nat.lt_succ_of_lt h]
    · simp [singleBit]
    · have hbit : singleBit k n = false := by simp [singleBit, h.ne]
      have hnot : ¬ k < n + 1 := by omega
      simp [hbit, hnot, h.not_gt]

theorem toeplitz_flip (hk : k < n) :
    toeplitz key (flipBit x k) w n = toeplitz key x w n ^^^ window key w k := by
  have hsingle : toeplitz key (singleBit k) w n = window key w k := by
    rw [toeplitz_singleBit, if_pos hk]
  rw [← hsingle]
  exact toeplitz_xor

theorem toeplitz_flip_ne_iff (hk : k < n) :
    toeplitz key (flipBit x k) w n ≠ toeplitz key x w n ↔ window key w k ≠ 0#w := by
  have hcancel : toeplitz key x w n ^^^ window key w k = toeplitz key x w n ^^^ 0#w ↔
      window key w k = 0#w := BitVec.xor_right_inj _
  rw [BitVec.xor_zero] at hcancel
  rw [toeplitz_flip hk]
  exact not_congr hcancel

/-! ## Bits that do not matter -/

theorem toeplitz_eq_of_windows {m : ℕ} (hmn : m ≤ n)
    (hzero : ∀ i, m ≤ i → i < n → window key w i = 0#w) :
    toeplitz key x w n = toeplitz key x w m := by
  induction n, hmn using Nat.le_induction with
  | base => rfl
  | succ n hmn ih =>
    rw [toeplitz, hzero n hmn (by omega), ite_self, BitVec.xor_zero]
    exact ih fun i hmi hi => hzero i hmi (by omega)

end DpdkTutorials.Net

import Mathlib

/-!
# Byte memories

A memory maps addresses to bytes. `load` and `store` move byte strings;
`store16` writes a 16-bit word the way a little-endian host does.

* `Memory.load_store_within`: a load inside a stored range reads part of it.
* `Memory.load_store_disjoint`: a load outside a stored range is not affected.
-/

namespace DpdkTutorials.Common

/-- A byte-addressed memory. -/
def Memory : Type := ℕ → UInt8

namespace Memory

/-- The `n` bytes from address `a` on. -/
def load (m : Memory) (a n : ℕ) : List UInt8 := (List.range n).map fun i => m (a + i)

/-- `memcpy(a, bs, sizeof(bs))`. -/
def store (m : Memory) (a : ℕ) (bs : List UInt8) : Memory :=
  fun i => if a ≤ i then bs.getD (i - a) (m i) else m i

/-- The bytes of a 16-bit word, low byte first. -/
def le16 (v : UInt16) : List UInt8 :=
  [UInt8.ofNat (v.toNat % 256), UInt8.ofNat (v.toNat / 256)]

/-- The bytes of a 16-bit word, high byte first. -/
def be16 (v : UInt16) : List UInt8 :=
  [UInt8.ofNat (v.toNat / 256), UInt8.ofNat (v.toNat % 256)]

/-- Writing a 16-bit field of a structure. -/
def store16 (m : Memory) (a : ℕ) (v : UInt16) : Memory := m.store a (le16 v)

/-- Writing an 8-bit field of a structure. -/
def store8 (m : Memory) (a : ℕ) (v : UInt8) : Memory := m.store a [v]

@[simp] theorem length_load (m : Memory) (a n : ℕ) : (m.load a n).length = n := by simp [load]

@[simp] theorem length_le16 (v : UInt16) : (le16 v).length = 2 := rfl

@[simp] theorem length_be16 (v : UInt16) : (be16 v).length = 2 := rfl

theorem load_one (m : Memory) (a : ℕ) : m.load a 1 = [m a] := by simp [load]

theorem load_add (m : Memory) (a k n : ℕ) : m.load a (k + n) = m.load a k ++ m.load (a + k) n := by
  simp [load, List.range_add, add_assoc, Function.comp_def]

/-- Part of a load. -/
theorem load_slice (m : Memory) {a k n len : ℕ} (h : k + n ≤ len) :
    m.load (a + k) n = ((m.load a len).drop k).take n := by
  have hlen : len = k + n + (len - (k + n)) := by omega
  rw [hlen, load_add, load_add, List.append_assoc, List.drop_left' (by simp),
    List.take_left' (by simp)]

theorem load_congr {m m' : Memory} {a a' n : ℕ} (h : ∀ i < n, m (a + i) = m' (a' + i)) :
    m.load a n = m'.load a' n := by
  apply List.map_congr_left
  intro i hi
  exact h i (List.mem_range.mp hi)

theorem store_outside {m : Memory} {a i : ℕ} {bs : List UInt8} (h : i < a ∨ a + bs.length ≤ i) :
    m.store a bs i = m i := by
  unfold store
  rcases h with h | h
  · rw [if_neg (by omega)]
  · rw [if_pos (by omega), List.getD_eq_default _ _ (by omega)]

theorem store_inside {m : Memory} {a i : ℕ} {bs : List UInt8} (ha : a ≤ i)
    (hi : i - a < bs.length) : m.store a bs i = bs[i - a] := by
  unfold store
  rw [if_pos ha, List.getD_eq_getElem _ _ hi]

/-- A load inside a stored range reads the matching part of it. -/
theorem load_store_within {m : Memory} {a b n : ℕ} {bs : List UInt8} (ha : a ≤ b)
    (hb : b + n ≤ a + bs.length) : (m.store a bs).load b n = (bs.drop (b - a)).take n := by
  apply List.ext_getElem
  · simp; omega
  · intro i hi hi'
    rw [length_load] at hi
    simp only [load, List.getElem_map, List.getElem_range, List.getElem_take, List.getElem_drop]
    rw [store_inside (by omega) (by omega)]
    congr 1; omega

theorem load_store_self {m : Memory} {a n : ℕ} {bs : List UInt8} (h : bs.length = n) :
    (m.store a bs).load a n = bs := by
  rw [load_store_within le_rfl (by omega), ← h]; simp

/-- A load outside a stored range is not affected by the store. -/
theorem load_store_disjoint {m : Memory} {a b n : ℕ} {bs : List UInt8}
    (h : b + n ≤ a ∨ a + bs.length ≤ b) : (m.store a bs).load b n = m.load b n := by
  apply load_congr
  intro i hi
  exact store_outside (by omega)

@[simp] theorem load_store16_self (m : Memory) (a : ℕ) (v : UInt16) :
    (m.store16 a v).load a 2 = le16 v := load_store_self rfl

theorem load_store16_disjoint {m : Memory} {a b n : ℕ} {v : UInt16} (h : b + n ≤ a ∨ a + 2 ≤ b) :
    (m.store16 a v).load b n = m.load b n := load_store_disjoint h

@[simp] theorem store8_self (m : Memory) (a : ℕ) (v : UInt8) : m.store8 a v a = v := by
  unfold store8
  rw [store_inside le_rfl (by simp)]
  simp

@[simp] theorem load_store8_self (m : Memory) (a : ℕ) (v : UInt8) :
    (m.store8 a v).load a 1 = [v] := load_store_self rfl

theorem load_store8_disjoint {m : Memory} {a b n : ℕ} {v : UInt8} (h : b + n ≤ a ∨ a + 1 ≤ b) :
    (m.store8 a v).load b n = m.load b n := load_store_disjoint h

end Memory

end DpdkTutorials.Common

import Mathlib

/-!
# `rte_ring` with a single producer and a single consumer

A ring created with `count` slots and `RING_F_SP_ENQ | RING_F_SC_DEQ` is a
FIFO with `count - 1` usable slots, whose enqueue and dequeue act atomically.
The bound is a field, so no ring holds more than its usable slots.
-/

namespace DpdkTutorials.Dpdk

universe u

/-- The contents of a ring created with `count` slots, oldest first. -/
structure Ring (α : Type u) (count : ℕ) where
  items : List α
  length_le : items.length ≤ count - 1

namespace Ring

variable {α : Type u} {count : ℕ}

/-- A ring as `rte_ring_create` leaves it. -/
def create : Ring α count := ⟨[], Nat.zero_le _⟩

@[simp] theorem items_create : (create : Ring α count).items = [] := rfl

/-- `rte_ring_enqueue`: `none` is the return value `-ENOBUFS` of a full ring. -/
def enqueue (r : Ring α count) (x : α) : Option (Ring α count) :=
  if h : r.items.length < count - 1 then some ⟨r.items ++ [x], by simp; omega⟩ else none

theorem items_of_enqueue {r r' : Ring α count} {x : α} (h : r.enqueue x = some r') :
    r'.items = r.items ++ [x] := by
  unfold enqueue at h
  split_ifs at h with hlt
  cases h; rfl

theorem enqueue_eq_none_iff (r : Ring α count) (x : α) :
    r.enqueue x = none ↔ r.items.length = count - 1 := by
  have := r.length_le
  unfold enqueue
  split_ifs with hlt
  · simp; omega
  · simp; omega

theorem exists_enqueue {r : Ring α count} (x : α) (h : r.items.length < count - 1) :
    ∃ r', r.enqueue x = some r' := by
  rw [← Option.isSome_iff_exists, ← Option.ne_none_iff_isSome, Ne, enqueue_eq_none_iff]
  omega

/-- `rte_ring_dequeue_burst` returning (at most) `k` objects. -/
def dequeueBurst (r : Ring α count) (k : ℕ) : List α × Ring α count :=
  (r.items.take k, ⟨r.items.drop k, by have := r.length_le; simp; omega⟩)

theorem dequeueBurst_append (r : Ring α count) (k : ℕ) :
    (r.dequeueBurst k).1 ++ (r.dequeueBurst k).2.items = r.items :=
  List.take_append_drop k r.items

theorem length_dequeueBurst_le (r : Ring α count) (k : ℕ) : (r.dequeueBurst k).1.length ≤ k :=
  List.length_take_le k r.items

end Ring

end DpdkTutorials.Dpdk

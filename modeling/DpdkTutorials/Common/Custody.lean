import Mathlib

/-!
# Items in the hands of several holders

Items are in a store or in the hand of one of the holders. Whoever takes items
or puts them back deals with the store and with one hand only.

* `custody_update`: such a step keeps the items together.
* `not_mem_store`: as long as no item occurs twice, an item in a hand is not in
  the store.
-/

namespace DpdkTutorials.Common

universe u v

variable {κ : Type u} {β : Type v} [Fintype κ]

/-- All items. -/
def custody (store : Multiset β) (hand : κ → Multiset β) : Multiset β := store + ∑ k, hand k

/-- What two sums have in common does not matter. -/
theorem add_sum_update [DecidableEq κ] {M : Type v} [AddCommMonoid M] {x x' m : M} {f : κ → M}
    {k : κ} (h : x' + m = x + f k) : x' + ∑ j, Function.update f k m j = x + ∑ j, f j := by
  rw [Finset.sum_update_of_mem (Finset.mem_univ k), Finset.sdiff_singleton_eq_erase, ← add_assoc, h,
    add_assoc, Finset.add_sum_erase _ f (Finset.mem_univ k)]

theorem custody_update [DecidableEq κ] {store store' m : Multiset β} {hand : κ → Multiset β}
    {k : κ} (h : store' + m = store + hand k) :
    custody store' (Function.update hand k m) = custody store hand :=
  add_sum_update h

variable {store : Multiset β} {hand : κ → Multiset β} {b : β} {k : κ}

theorem mem_sum_hand (hb : b ∈ hand k) : b ∈ ∑ j, hand j :=
  Multiset.mem_sum.mpr ⟨k, Finset.mem_univ k, hb⟩

theorem not_mem_store (hnodup : (custody store hand).Nodup) (hb : b ∈ hand k) : b ∉ store :=
  fun hstore => Multiset.disjoint_left.mp (Multiset.nodup_add.mp hnodup).2.2 hstore
    (mem_sum_hand hb)

end DpdkTutorials.Common

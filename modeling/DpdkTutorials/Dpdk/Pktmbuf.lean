import DpdkTutorials.Dpdk.Mbuf
import DpdkTutorials.Dpdk.Mempool

/-!
# Pools of packet buffers

A pool created by `rte_pktmbuf_pool_create`: a mempool together with the
buffers themselves. An allocation resets the fields of the buffer it hands out
and leaves the bytes behind it alone. A free may change the fields of the
buffer it takes, but not the bytes.

* `Alloc.room`, `Free.room`: no allocation and no free touches packet bytes.
* `AllocMany.avail`, `AllocMany.dataOff`: what a batch of allocations hands out.
* `exists_free`, `exists_allocMany`: on a cached pool, frees succeed and
  allocations succeed as long as the caller can reach enough buffers.
-/

namespace DpdkTutorials.Dpdk

open DpdkTutorials.Common

universe u v w

/-- The pool `pool` and the contents of its buffers. -/
structure Pktmbufs (β : Type v) (ε : Type w) where
  pool : ε
  mem : β → Mbuf

namespace Pktmbufs

variable {ι : Type u} {β : Type v} {ε : Type w} {P : Mempool ι β ε} {headroom : ℕ} {l : ι}

section Alloc

variable [DecidableEq β]

/-- `rte_pktmbuf_alloc` on lcore `l` returns `b`. -/
inductive Alloc (P : Mempool ι β ε) (headroom : ℕ) (l : ι) :
    Pktmbufs β ε → β → Pktmbufs β ε → Prop where
  | intro {s b e} : P.get l s.pool b e →
      Alloc P headroom l s b ⟨e, Function.update s.mem b ((s.mem b).reset headroom)⟩

/-- Successive allocations return `bs`. -/
inductive AllocMany (P : Mempool ι β ε) (headroom : ℕ) (l : ι) :
    Pktmbufs β ε → List β → Pktmbufs β ε → Prop where
  | nil {s} : AllocMany P headroom l s [] s
  | cons {s s' t b bs} : Alloc P headroom l s b s' → AllocMany P headroom l s' bs t →
      AllocMany P headroom l s (b :: bs) t

end Alloc

/-- `rte_pktmbuf_free(b)` on lcore `l`. -/
structure Free (P : Mempool ι β ε) (l : ι) (s : Pktmbufs β ε) (b : β) (t : Pktmbufs β ε) :
    Prop where
  put : P.put l s.pool b t.pool
  mem_of_ne : ∀ b', b' ≠ b → t.mem b' = s.mem b'
  room_self : (t.mem b).room = (s.mem b).room

/-! ## What allocations and frees leave alone -/

section Alloc

variable [DecidableEq β] {s t : Pktmbufs β ε} {b : β} {bs : List β}

theorem Alloc.avail (h : Alloc P headroom l s b t) : P.avail s.pool = b ::ₘ P.avail t.pool := by
  cases h with
  | intro hget => exact P.avail_get hget

theorem Alloc.room (h : Alloc P headroom l s b t) (b' : β) :
    (t.mem b').room = (s.mem b').room := by
  cases h with
  | intro hget =>
    by_cases hb : b' = b
    · subst hb; simp [Mbuf.reset]
    · simp [Function.update_of_ne hb]

theorem Alloc.dataOff_self (h : Alloc P headroom l s b t) : (t.mem b).dataOff = headroom := by
  cases h with
  | intro hget => simp [Mbuf.reset]

theorem Alloc.dataOff (h : Alloc P headroom l s b t) {b' : β}
    (hb' : (s.mem b').dataOff = headroom) : (t.mem b').dataOff = headroom := by
  cases h with
  | intro hget =>
    by_cases hb : b' = b
    · subst hb; simp [Mbuf.reset]
    · simpa [Function.update_of_ne hb] using hb'

theorem AllocMany.avail (h : AllocMany P headroom l s bs t) :
    P.avail s.pool = ↑bs + P.avail t.pool := by
  induction h with
  | nil => simp
  | cons halloc _ ih => rw [halloc.avail, ih, ← Multiset.cons_coe, Multiset.cons_add]

theorem AllocMany.room (h : AllocMany P headroom l s bs t) (b' : β) :
    (t.mem b').room = (s.mem b').room := by
  induction h with
  | nil => rfl
  | cons halloc _ ih => rw [ih, halloc.room]

theorem AllocMany.dataOff_of_headroom (h : AllocMany P headroom l s bs t) {b' : β}
    (hb' : (s.mem b').dataOff = headroom) : (t.mem b').dataOff = headroom := by
  induction h with
  | nil => exact hb'
  | cons halloc _ ih => exact ih (halloc.dataOff hb')

/-- Every buffer of the batch starts at the headroom. -/
theorem AllocMany.dataOff (h : AllocMany P headroom l s bs t) :
    ∀ b' ∈ bs, (t.mem b').dataOff = headroom := by
  induction h with
  | nil => simp
  | cons halloc hrest ih =>
    intro b' hb'
    rcases List.mem_cons.mp hb' with rfl | hb'
    · exact hrest.dataOff_of_headroom halloc.dataOff_self
    · exact ih b' hb'

end Alloc

section Free

variable {s t : Pktmbufs β ε} {b : β}

theorem Free.avail (h : Free P l s b t) : P.avail t.pool = b ::ₘ P.avail s.pool :=
  P.avail_put h.put

theorem Free.room (h : Free P l s b t) (b' : β) : (t.mem b').room = (s.mem b').room := by
  by_cases hb : b' = b
  · subst hb; exact h.room_self
  · rw [h.mem_of_ne b' hb]

end Free

/-! ## Cached pools -/

section Cached

variable [DecidableEq ι] [Fintype ι] {cacheSize : ℕ}

theorem exists_free (l : ι) (s : Pktmbufs β (CachedPool ι β cacheSize)) (b : β)
    (hsize : 1 ≤ flushThreshold cacheSize) :
    ∃ e, Free (CachedPool.mempool ι β cacheSize) l s b ⟨e, s.mem⟩ := by
  obtain ⟨e, he⟩ := CachedPool.exists_put l s.pool b hsize
  exact ⟨e, he, fun _ _ => rfl, rfl⟩

/-- Allocations succeed as long as enough buffers are within reach of `l`. -/
theorem exists_allocMany [DecidableEq β] (headroom : ℕ) (l : ι) (n : ℕ)
    (s : Pktmbufs β (CachedPool ι β cacheSize))
    (hn : n ≤ (s.pool.usable l).card) :
    ∃ bs t, bs.length = n ∧ AllocMany (CachedPool.mempool ι β cacheSize) headroom l s bs t := by
  induction n generalizing s with
  | zero => exact ⟨[], s, rfl, .nil⟩
  | succ n ih =>
    have hne : s.pool.usable l ≠ 0 := by
      intro h
      rw [h, Multiset.card_zero] at hn
      omega
    obtain ⟨b, e, hget⟩ := CachedPool.exists_get hne
    have hcard : n ≤ (e.usable l).card := by
      rw [hget.1, Multiset.card_cons] at hn
      omega
    obtain ⟨bs, t, hlen, hrest⟩ :=
      ih ⟨e, Function.update s.mem b ((s.mem b).reset headroom)⟩ hcard
    exact ⟨b :: bs, t, by simp [hlen], .cons (.intro hget) hrest⟩

end Cached

end Pktmbufs

end DpdkTutorials.Dpdk

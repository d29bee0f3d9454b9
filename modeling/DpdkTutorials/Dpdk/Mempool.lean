import Mathlib

/-!
# `rte_mempool`

`Mempool` is what every user of a memory pool may rely on: an allocation takes
a buffer out of the pool, a free puts one back, and nothing else moves. Which
buffer is handed out, and when an allocation fails, is left open.

`CachedPool` is a pool with one cache per logical core. An allocation on an
lcore uses the lcore's own cache or the common pool only; a free goes into the
lcore's cache, which is flushed to the common pool only when the put would
take it above the flush threshold (1.5 times the cache size).

* `CachedPool.avail_get`, `CachedPool.avail_put`: a cached pool is a mempool.
* `CachedPool.exists_get`, `CachedPool.exists_put`: an allocation succeeds
  exactly when the cache or the common pool is non-empty; a free always does.
* `CachedPool.avail_putMany`: frees in bulk.
-/

namespace DpdkTutorials.Dpdk

universe u v w

/-- A memory pool of buffers `β`, used from logical cores `ι`, with internal
    state `ε`. -/
structure Mempool (ι : Type u) (β : Type v) (ε : Type w) where
  /-- The buffers inside the pool, caches included. -/
  avail : ε → Multiset β
  /-- `get l e b e'`: an allocation on lcore `l` hands out `b`. -/
  get : ι → ε → β → ε → Prop
  /-- An allocation on lcore `l` may fail. -/
  getFails : ι → ε → Prop
  /-- `put l e b e'`: `b` is freed on lcore `l`. -/
  put : ι → ε → β → ε → Prop
  avail_get : ∀ {l e b e'}, get l e b e' → avail e = b ::ₘ avail e'
  avail_put : ∀ {l e b e'}, put l e b e' → avail e' = b ::ₘ avail e

/-- The cache of an lcore is flushed when a put would take it above 1.5 times
    the cache size. -/
def flushThreshold (cacheSize : ℕ) : ℕ := cacheSize * 3 / 2

/-- A pool with a per-lcore cache of size `cacheSize`. -/
@[ext]
structure CachedPool (ι : Type u) (β : Type v) (cacheSize : ℕ) where
  common : Multiset β
  cache : ι → Multiset β
  card_cache_le : ∀ l, (cache l).card ≤ flushThreshold cacheSize

namespace CachedPool

variable {ι : Type u} {β : Type v} {cacheSize : ℕ}

/-- The buffers an allocation on lcore `l` can use. -/
def usable (p : CachedPool ι β cacheSize) (l : ι) : Multiset β := p.common + p.cache l

/-- An allocation on lcore `l`, with or without a refill of its cache. -/
def Get (l : ι) (p : CachedPool ι β cacheSize) (b : β) (q : CachedPool ι β cacheSize) : Prop :=
  p.usable l = b ::ₘ q.usable l ∧ q.common ≤ p.common ∧ ∀ l', l' ≠ l → q.cache l' = p.cache l'

/-- A free on lcore `l`. When the cache would exceed the threshold, any part
    of it may move to the common pool. -/
def Put (l : ι) (p : CachedPool ι β cacheSize) (b : β) (q : CachedPool ι β cacheSize) : Prop :=
  q.usable l = b ::ₘ p.usable l ∧ (∀ l', l' ≠ l → q.cache l' = p.cache l') ∧
    if (p.cache l).card + 1 ≤ flushThreshold cacheSize then q.common = p.common
    else p.common ≤ q.common

/-- `rte_mempool_put_bulk` on lcore `l`, as frees one after the other. -/
inductive PutMany (l : ι) :
    CachedPool ι β cacheSize → List β → CachedPool ι β cacheSize → Prop where
  | nil {p} : PutMany l p [] p
  | cons {p q b bs r} : Put l p b q → PutMany l q bs r → PutMany l p (b :: bs) r

theorem cache_of_putMany {l : ι} {p q : CachedPool ι β cacheSize} {bs : List β}
    (h : PutMany l p bs q) {l' : ι} (hl : l' ≠ l) : q.cache l' = p.cache l' := by
  induction h with
  | nil => rfl
  | cons hput _ ih => rw [ih, hput.2.1 l' hl]

theorem cache_of_put {l : ι} {p q : CachedPool ι β cacheSize} {b : β} (h : Put l p b q)
    (hfit : (p.cache l).card + 1 ≤ flushThreshold cacheSize) : q.cache l = b ::ₘ p.cache l := by
  obtain ⟨huse, -, hif⟩ := h
  rw [if_pos hfit] at hif
  unfold usable at huse
  rw [hif, ← Multiset.add_cons] at huse
  exact add_left_cancel huse

section Exists

variable [DecidableEq ι]

theorem exists_get {l : ι} {p : CachedPool ι β cacheSize} (h : p.usable l ≠ 0) :
    ∃ b q, Get l p b q := by
  obtain ⟨b, hb⟩ := Multiset.exists_mem_of_ne_zero h
  unfold usable at hb
  rcases Multiset.mem_add.mp hb with hc | hc
  · obtain ⟨rest, hrest⟩ := Multiset.exists_cons_of_mem hc
    refine ⟨b, ⟨rest, p.cache, p.card_cache_le⟩, ?_, ?_, fun _ _ => rfl⟩
    · simp [usable, hrest]
    · rw [hrest]; exact Multiset.le_cons_self rest b
  · obtain ⟨rest, hrest⟩ := Multiset.exists_cons_of_mem hc
    refine ⟨b, ⟨p.common, Function.update p.cache l rest, fun l' => ?_⟩, ?_, le_rfl, ?_⟩
    · by_cases hl : l' = l
      · subst hl
        have := p.card_cache_le l'
        rw [hrest, Multiset.card_cons] at this
        simp; omega
      · simpa [Function.update_of_ne hl] using p.card_cache_le l'
    · simp [usable, hrest]
    · intro l' hl; simp [Function.update_of_ne hl]

theorem exists_put (l : ι) (p : CachedPool ι β cacheSize) (b : β)
    (hsize : 1 ≤ flushThreshold cacheSize) : ∃ q, Put l p b q := by
  by_cases hfit : (p.cache l).card + 1 ≤ flushThreshold cacheSize
  · refine ⟨⟨p.common, Function.update p.cache l (b ::ₘ p.cache l), fun l' => ?_⟩, ?_, ?_, ?_⟩
    · by_cases hl : l' = l
      · subst hl; simpa using hfit
      · simpa [Function.update_of_ne hl] using p.card_cache_le l'
    · simp [usable]
    · intro l' hl; simp [Function.update_of_ne hl]
    · rw [if_pos hfit]
  · refine ⟨⟨p.common + p.cache l, Function.update p.cache l {b}, fun l' => ?_⟩, ?_, ?_, ?_⟩
    · by_cases hl : l' = l
      · subst hl; simpa using hsize
      · simpa [Function.update_of_ne hl] using p.card_cache_le l'
    · simp only [usable, Function.update_self]
      rw [add_comm, Multiset.singleton_add]
    · intro l' hl; simp [Function.update_of_ne hl]
    · rw [if_neg hfit]; exact Multiset.le_add_right _ _

theorem exists_putMany (l : ι) (p : CachedPool ι β cacheSize) (bs : List β)
    (hsize : 1 ≤ flushThreshold cacheSize) : ∃ q, PutMany l p bs q := by
  induction bs generalizing p with
  | nil => exact ⟨p, .nil⟩
  | cons b bs ih =>
    obtain ⟨q, hput⟩ := exists_put l p b hsize
    obtain ⟨r, hrest⟩ := ih q
    exact ⟨r, .cons hput hrest⟩

end Exists

section Total

variable [DecidableEq ι] [Fintype ι]

/-- All buffers inside the pool. -/
def avail (p : CachedPool ι β cacheSize) : Multiset β := p.common + ∑ l, p.cache l

/-- The caches of the other lcores. -/
def stranded (p : CachedPool ι β cacheSize) (l : ι) : Multiset β :=
  ∑ l' ∈ Finset.univ.erase l, p.cache l'

theorem avail_eq (p : CachedPool ι β cacheSize) (l : ι) :
    p.avail = p.usable l + p.stranded l := by
  unfold avail usable stranded
  rw [← Finset.add_sum_erase _ _ (Finset.mem_univ l), add_assoc]

/-- Each of the other lcores keeps at most a full cache. -/
theorem card_stranded_le (p : CachedPool ι β cacheSize) (l : ι) :
    (p.stranded l).card ≤ (Fintype.card ι - 1) * flushThreshold cacheSize := by
  unfold stranded
  rw [Multiset.card_sum]
  refine (Finset.sum_le_card_nsmul _ _ _ fun l' _ => p.card_cache_le l').trans_eq ?_
  rw [Finset.card_erase_of_mem (Finset.mem_univ l), Finset.card_univ, smul_eq_mul]

theorem stranded_congr {p q : CachedPool ι β cacheSize} {l : ι}
    (h : ∀ l', l' ≠ l → q.cache l' = p.cache l') : q.stranded l = p.stranded l :=
  Finset.sum_congr rfl fun l' hl' => h l' (Finset.ne_of_mem_erase hl')

theorem avail_get {l : ι} {p q : CachedPool ι β cacheSize} {b : β} (h : Get l p b q) :
    p.avail = b ::ₘ q.avail := by
  rw [avail_eq p l, avail_eq q l, h.1, stranded_congr h.2.2, Multiset.cons_add]

theorem avail_put {l : ι} {p q : CachedPool ι β cacheSize} {b : β} (h : Put l p b q) :
    q.avail = b ::ₘ p.avail := by
  rw [avail_eq p l, avail_eq q l, h.1, stranded_congr h.2.1, Multiset.cons_add]

theorem avail_putMany {l : ι} {p q : CachedPool ι β cacheSize} {bs : List β}
    (h : PutMany l p bs q) : q.avail = ↑bs + p.avail := by
  induction h with
  | nil => simp
  | cons hput _ ih =>
    rw [ih, avail_put hput, ← Multiset.cons_coe, Multiset.cons_add, Multiset.add_cons]

/-- When only lcores `r` and `c` ever use the pool, the other lcore's cache is
    all that an allocation on `r` cannot use. -/
theorem stranded_eq {p : CachedPool ι β cacheSize} {r c : ι} (hrc : c ≠ r)
    (h : ∀ l, l ≠ r → l ≠ c → p.cache l = 0) : p.stranded r = p.cache c := by
  unfold stranded
  apply Finset.sum_eq_single_of_mem c (Finset.mem_erase.mpr ⟨hrc, Finset.mem_univ c⟩)
  intro l hl hlc
  exact h l (Finset.ne_of_mem_erase hl) hlc

variable (ι β cacheSize) in
/-- A cached pool as a mempool. An allocation fails only when the caller's
    cache and the common pool are both empty. -/
def mempool : Mempool ι β (CachedPool ι β cacheSize) where
  avail := avail
  get := Get
  getFails l p := p.usable l = 0
  put := Put
  avail_get := avail_get
  avail_put := avail_put

end Total

end CachedPool

end DpdkTutorials.Dpdk

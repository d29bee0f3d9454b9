import DpdkTutorials.Dpdk.Pktmbuf
import DpdkTutorials.Generator.Rate
import DpdkTutorials.Generator.Template

/-!
# `prepare_memory_pool` of `9-packet-generator`

The function takes every buffer out of the pool, writes a frame into each of
them and frees them again (main.cpp:196-280). It keeps all buffers before it
frees the first one, so no buffer is written twice and none is skipped.

* `Prepared.written`: if all allocations succeed, every buffer of the pool
  holds one of the frames afterwards.
* `exists_prepared`: on a cached pool as `main` creates it, they do succeed.
-/

namespace DpdkTutorials.Generator

open DpdkTutorials.Common DpdkTutorials.Common.Memory DpdkTutorials.Dpdk

universe u v w

/-- `MEMORY_POOL_SIZE` (main.cpp:36). -/
def memoryPoolSize : ℕ := 65535

/-- How `prepare_memory_pool` ends. -/
inductive PrepareOutcome where
  | returned (result : Bool)
  /-- `rte_pktmbuf_mtod` of a null pointer. -/
  | nullDereference
  deriving DecidableEq, Repr

variable {ι : Type u} {β : Type v} {ε : Type w}

/-! ## Model -/

/-- A pool as `rte_pktmbuf_pool_create` leaves it: all its buffers are inside,
    each of them once. Their contents are arbitrary. -/
structure PoolCreated (P : Mempool ι β ε) (s : Pktmbufs β ε) : Prop where
  nodup : (P.avail s.pool).Nodup
  card : (P.avail s.pool).card = memoryPoolSize

variable [DecidableEq β]

/-- The first loop: `memory_buffers[i] = rte_pktmbuf_alloc(mempool)`, whether
    or not the result is null (main.cpp:207-212). -/
inductive AllocLoop (P : Mempool ι β ε) (headroom : ℕ) (l : ι) :
    Pktmbufs β ε → List (Option β) → Pktmbufs β ε → Prop where
  | nil {s} : AllocLoop P headroom l s [] s
  | buffer {s s' t b bs} : Pktmbufs.Alloc P headroom l s b s' →
      AllocLoop P headroom l s' bs t → AllocLoop P headroom l s (some b :: bs) t
  | null {s t bs} : P.getFails l s.pool → AllocLoop P headroom l s bs t →
      AllocLoop P headroom l s (none :: bs) t

/-- The contents of buffer `b` after its frame has been written. -/
def writeBuffer (temp : UInt8) (b : β) (s : Pktmbufs β ε) : Pktmbufs β ε where
  pool := s.pool
  mem := Function.update s.mem b
    { s.mem b with room := writeTemplate temp (s.mem b).dataOff (s.mem b).room }

/-- The second loop, from some iteration on (main.cpp:219-276). -/
inductive WriteLoop (P : Mempool ι β ε) (l : ι) :
    UInt8 → List (Option β) → Pktmbufs β ε → PrepareOutcome → Pktmbufs β ε → Prop where
  | done {temp s} : WriteLoop P l temp [] s (.returned true) s
  | null {temp bs s} : WriteLoop P l temp (none :: bs) s .nullDereference s
  | buffer {temp b bs s s' o t} : Pktmbufs.Free P l (writeBuffer temp b s) b s' →
      WriteLoop P l (temp + 1) bs s' o t → WriteLoop P l temp (some b :: bs) s o t

/-- A run of `prepare_memory_pool` on lcore `l`, after the lookup of the pool, in
    which the allocations return `bs`, null for `none`. The test between the loops
    compares their counter with `MEMORY_POOL_SIZE`, not the results of the
    allocations (main.cpp:214-217). -/
def PrepareRun (P : Mempool ι β ε) (headroom : ℕ) (l : ι) (s : Pktmbufs β ε)
    (bs : List (Option β)) (o : PrepareOutcome) (t : Pktmbufs β ε) : Prop :=
  ∃ m i, AllocLoop P headroom l s bs m ∧ bs.length = memoryPoolSize ∧ i = bs.length ∧
    if i ≠ memoryPoolSize then o = .returned false ∧ t = m else WriteLoop P l 0 bs m o t

/-- `prepare_memory_pool`, whatever the allocations return. -/
def PreparePool (P : Mempool ι β ε) (headroom : ℕ) (l : ι) (s : Pktmbufs β ε)
    (o : PrepareOutcome) (t : Pktmbufs β ε) : Prop :=
  ∃ bs, PrepareRun P headroom l s bs o t

/-- The pool `main` hands to the transmission routine: `prepare_memory_pool`
    returned true on a newly created pool `s₀`. -/
structure Prepared (P : Mempool ι β ε) (headroom : ℕ) (l : ι) (s₀ t : Pktmbufs β ε) : Prop where
  created : PoolCreated P s₀
  prepare : PreparePool P headroom l s₀ (.returned true) t

/-- The packet bytes of a buffer are one of the frames written. -/
def HoldsTemplate (headroom : ℕ) (buf : Mbuf) : Prop :=
  ∃ j < memoryPoolSize, buf.room.load headroom frameSize = templateFrame (UInt8.ofNat j)

/-! ## The loops -/

section Loops

variable {P : Mempool ι β ε} {headroom : ℕ} {l : ι} {s m t : Pktmbufs β ε}

/-- The check between the loops passes, whatever the allocations returned. -/
theorem prepareRun_iff {bs : List (Option β)} {o : PrepareOutcome} :
    PrepareRun P headroom l s bs o t ↔
      bs.length = memoryPoolSize ∧
        ∃ m, AllocLoop P headroom l s bs m ∧ WriteLoop P l 0 bs m o t := by
  constructor
  · rintro ⟨m, i, halloc, hlen, rfl, hwrite⟩
    rw [if_neg (not_not.mpr hlen)] at hwrite
    exact ⟨hlen, m, halloc, hwrite⟩
  · rintro ⟨hlen, m, halloc, hwrite⟩
    refine ⟨m, bs.length, halloc, hlen, rfl, ?_⟩
    rw [if_neg (not_not.mpr hlen)]
    exact hwrite

/-- The write loop gets to its end only if no result was null. -/
theorem WriteLoop.all_some {temp : UInt8} {bs : List (Option β)}
    (h : WriteLoop P l temp bs m (.returned true) t) : ∃ cs : List β, bs = cs.map some := by
  generalize ho : PrepareOutcome.returned true = o at h
  induction h with
  | done => exact ⟨[], rfl⟩
  | null => cases ho
  | buffer _ _ ih =>
    obtain ⟨cs, rfl⟩ := ih ho
    exact ⟨_ :: cs, rfl⟩

theorem AllocLoop.allocMany {cs : List β} (h : AllocLoop P headroom l s (cs.map some) t) :
    Pktmbufs.AllocMany P headroom l s cs t := by
  induction cs generalizing s with
  | nil =>
    cases h
    exact .nil
  | cons c cs ih =>
    cases h with
    | buffer halloc hrest => exact .cons halloc (ih hrest)

theorem AllocLoop.of_allocMany {cs : List β} (h : Pktmbufs.AllocMany P headroom l s cs t) :
    AllocLoop P headroom l s (cs.map some) t := by
  induction h with
  | nil => exact .nil
  | cons halloc _ ih => exact .buffer halloc ih

/-- A buffer that is not among the remaining ones keeps its bytes. -/
theorem WriteLoop.room {temp : UInt8} {cs : List β} {o : PrepareOutcome} {b : β}
    (h : WriteLoop P l temp (cs.map some) m o t) (hb : b ∉ cs) :
    (t.mem b).room = (m.mem b).room := by
  induction cs generalizing temp m with
  | nil =>
    cases h
    rfl
  | cons c cs ih =>
    cases h with
    | buffer hfree hrest =>
      rw [List.mem_cons, not_or] at hb
      rw [ih hrest hb.2, hfree.room]
      simp [writeBuffer, Function.update_of_ne hb.1]

/-- What one pass of the write loop leaves in its buffer. -/
theorem load_writeBuffer {temp : UInt8} {b : β} (hoff : (s.mem b).dataOff = headroom) :
    ((writeBuffer temp b s).mem b).room.load headroom frameSize = templateFrame temp := by
  simp only [writeBuffer, Function.update_self, hoff]
  exact load_writeTemplate temp headroom _

/-- Each of the remaining buffers receives the frame of its own iteration. -/
theorem WriteLoop.written_at {k : ℕ} {cs : List β} {o : PrepareOutcome}
    (h : WriteLoop P l (UInt8.ofNat k) (cs.map some) m o t) (hnd : cs.Nodup)
    (hoff : ∀ b ∈ cs, (m.mem b).dataOff = headroom) {j : ℕ} (hj : j < cs.length) :
    (t.mem cs[j]).room.load headroom frameSize = templateFrame (UInt8.ofNat (k + j)) := by
  induction cs generalizing k m j with
  | nil => simp at hj
  | cons c cs ih =>
    cases h with
    | buffer hfree hrest =>
      obtain ⟨hc, hnd⟩ := List.nodup_cons.mp hnd
      cases j with
      | zero =>
        rw [List.getElem_cons_zero, hrest.room hc, hfree.room]
        exact load_writeBuffer (hoff c (by simp))
      | succ j =>
        have hsucc : UInt8.ofNat k + 1 = UInt8.ofNat (k + 1) := by simp
        rw [hsucc] at hrest
        rw [List.getElem_cons_succ, show k + (j + 1) = k + 1 + j by omega]
        refine ih hrest hnd ?_ (by simpa using hj)
        intro b hb
        have hne : b ≠ c := fun h => hc (h ▸ hb)
        rw [hfree.mem_of_ne b hne]
        simpa [writeBuffer, Function.update_of_ne hne] using hoff b (by simp [hb])

theorem WriteLoop.written {k : ℕ} {cs : List β} {o : PrepareOutcome}
    (h : WriteLoop P l (UInt8.ofNat k) (cs.map some) m o t) (hnd : cs.Nodup)
    (hoff : ∀ b ∈ cs, (m.mem b).dataOff = headroom) :
    ∀ b ∈ cs, ∃ j < k + cs.length,
      (t.mem b).room.load headroom frameSize = templateFrame (UInt8.ofNat j) := by
  intro b hb
  obtain ⟨j, hj, rfl⟩ := List.getElem_of_mem hb
  exact ⟨k + j, by omega, h.written_at hnd hoff hj⟩

/-- The write loop returns the buffers to the pool. -/
theorem WriteLoop.avail {temp : UInt8} {cs : List β}
    (h : WriteLoop P l temp (cs.map some) m (.returned true) t) :
    P.avail t.pool = ↑cs + P.avail m.pool := by
  induction cs generalizing temp m with
  | nil =>
    cases h
    simp
  | cons c cs ih =>
    cases h with
    | buffer hfree hrest =>
      rw [ih hrest, hfree.avail, ← Multiset.cons_coe, Multiset.cons_add, Multiset.add_cons]
      rfl

end Loops

/-! ## The prepared pool -/

section Prepared

variable {P : Mempool ι β ε} {headroom : ℕ} {l : ι} {s₀ t : Pktmbufs β ε}

/-- The whole pool passes through the array: the allocations leave nothing
    behind, and every buffer is freed once. -/
theorem Prepared.passes (h : Prepared P headroom l s₀ t) :
    ∃ (cs : List β) (m : Pktmbufs β ε), cs.length = memoryPoolSize ∧ P.avail s₀.pool = ↑cs ∧
      Pktmbufs.AllocMany P headroom l s₀ cs m ∧
      WriteLoop P l 0 (cs.map some) m (.returned true) t ∧ P.avail t.pool = ↑cs := by
  obtain ⟨bs, hrun⟩ := h.prepare
  obtain ⟨hlen, m, halloc, hwrite⟩ := prepareRun_iff.mp hrun
  obtain ⟨cs, rfl⟩ := hwrite.all_some
  rw [List.length_map] at hlen
  have hmany := halloc.allocMany
  have havail := hmany.avail
  have hrest : P.avail m.pool = 0 := by
    have hcard := congrArg Multiset.card havail
    rw [h.created.card, Multiset.card_add, Multiset.coe_card, hlen] at hcard
    exact Multiset.card_eq_zero.mp (by omega)
  rw [hrest, add_zero] at havail
  refine ⟨cs, m, hlen, havail, hmany, hwrite, ?_⟩
  rw [hwrite.avail, hrest, add_zero]

theorem Prepared.avail (h : Prepared P headroom l s₀ t) : P.avail t.pool = P.avail s₀.pool := by
  obtain ⟨cs, m, -, h₀, -, -, ht⟩ := h.passes
  rw [h₀, ht]

/-- Every buffer of the pool has been written. -/
theorem Prepared.written (h : Prepared P headroom l s₀ t) :
    ∀ b ∈ P.avail t.pool, HoldsTemplate headroom (t.mem b) := by
  obtain ⟨cs, m, hlen, h₀, hmany, hwrite, ht⟩ := h.passes
  have hnd := h.created.nodup
  rw [h₀, Multiset.coe_nodup] at hnd
  intro b hb
  rw [ht, Multiset.mem_coe] at hb
  obtain ⟨j, hj, hload⟩ := WriteLoop.written (k := 0) hwrite hnd hmany.dataOff b hb
  refine ⟨j, ?_, hload⟩
  omega

end Prepared

/-! ## Existence -/

section Exists

variable [DecidableEq ι] [Fintype ι]

theorem exists_writeLoop (l : ι) (cs : List β) (temp : UInt8) {cacheSize : ℕ}
    (m : Pktmbufs β (CachedPool ι β cacheSize)) (hsize : 1 ≤ flushThreshold cacheSize) :
    ∃ t, WriteLoop (CachedPool.mempool ι β cacheSize) l temp (cs.map some) m
      (.returned true) t := by
  induction cs generalizing temp m with
  | nil => exact ⟨m, .done⟩
  | cons c cs ih =>
    obtain ⟨e, hfree⟩ := Pktmbufs.exists_free l (writeBuffer temp c m) c hsize
    obtain ⟨t, hrest⟩ := ih (temp + 1) ⟨e, (writeBuffer temp c m).mem⟩
    exact ⟨t, .buffer hfree hrest⟩

/-- A pool whose buffers are all in its common part can be prepared. -/
theorem exists_prepared (headroom : ℕ) (l : ι) {cacheSize : ℕ}
    (s₀ : Pktmbufs β (CachedPool ι β cacheSize)) (hsize : 1 ≤ flushThreshold cacheSize)
    (hcreated : PoolCreated (CachedPool.mempool ι β cacheSize) s₀)
    (hcommon : s₀.pool.common.card = memoryPoolSize) :
    ∃ t, Prepared (CachedPool.mempool ι β cacheSize) headroom l s₀ t := by
  have hreach : memoryPoolSize ≤ (s₀.pool.usable l).card := by
    rw [CachedPool.usable, Multiset.card_add]
    omega
  obtain ⟨cs, m, hlen, hmany⟩ := Pktmbufs.exists_allocMany headroom l _ s₀ hreach
  obtain ⟨t, hwrite⟩ := exists_writeLoop l cs 0 m hsize
  have hlen' : (cs.map some).length = memoryPoolSize := by rw [List.length_map, hlen]
  exact ⟨t, hcreated, cs.map some, prepareRun_iff.mpr ⟨hlen', m, .of_allocMany hmany, hwrite⟩⟩

/-- The pool `main` creates, with a cache of 512 per lcore (main.cpp:563), for
    the two logical cores of the program. -/
def createdPool : CachedPool (Fin 2) ℕ 512 where
  common := Multiset.range memoryPoolSize
  cache _ := 0
  card_cache_le _ := Nat.zero_le _

theorem avail_createdPool : createdPool.avail = Multiset.range memoryPoolSize := by
  simp [CachedPool.avail, createdPool]

theorem exists_prepared_createdPool (headroom : ℕ) (mem : ℕ → Mbuf) :
    ∃ t, Prepared (CachedPool.mempool (Fin 2) ℕ 512) headroom 0 ⟨createdPool, mem⟩ t := by
  apply exists_prepared
  · decide
  · constructor
    · show createdPool.avail.Nodup
      rw [avail_createdPool]
      exact Multiset.nodup_range _
    · show createdPool.avail.card = _
      rw [avail_createdPool, Multiset.card_range]
  · exact Multiset.card_range _

/-- What is out of the second lcore's reach is at most one cache. -/
theorem card_usable_prepared {headroom : ℕ} {mem : ℕ → Mbuf}
    {t : Pktmbufs ℕ (CachedPool (Fin 2) ℕ 512)}
    (h : Prepared (CachedPool.mempool (Fin 2) ℕ 512) headroom 0 ⟨createdPool, mem⟩ t) :
    packetTxBurstSize ≤ (t.pool.usable 1).card := by
  have havail : t.pool.avail = createdPool.avail := h.avail
  have hstranded : t.pool.stranded 1 = t.pool.cache 0 :=
    CachedPool.stranded_eq (by decide) (fun l h₁ h₀ => absurd l.isLt (by omega))
  have hcache : (t.pool.cache 0).card ≤ 768 := t.pool.card_cache_le 0
  rw [CachedPool.avail_eq t.pool 1, hstranded, avail_createdPool] at havail
  have hcard := congrArg Multiset.card havail
  rw [Multiset.card_add, Multiset.card_range, memoryPoolSize] at hcard
  unfold packetTxBurstSize
  omega

end Exists

end DpdkTutorials.Generator

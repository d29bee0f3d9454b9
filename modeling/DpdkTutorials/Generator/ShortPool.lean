import DpdkTutorials.Generator.PreparePool

/-!
# `prepare_memory_pool` on a pool that is short of buffers

The allocations of `prepare_memory_pool` are not checked one by one. The check
after them (main.cpp:214-217) compares the loop's own counter with the number of
iterations, so it never finds a buffer missing, and the second loop goes on to
write through the null pointer (main.cpp:221-224).

* `WriteLoop.nullDereference`: after a failed allocation the function does not
  return.
* `handlesShortPool_iff`: it is right exactly if no allocation fails.
-/

namespace DpdkTutorials.Generator

open DpdkTutorials.Common DpdkTutorials.Common.Memory DpdkTutorials.Dpdk

universe u v w

variable {ι : Type u} {β : Type v} {ε : Type w} [DecidableEq β]

/-! ## Specification -/

/-- The buffers `cs` have been taken out of the pool, each has been written in
    its turn, and each is back in the pool exactly once. -/
structure PreparedOnce (P : Mempool ι β ε) (headroom : ℕ) (s : Pktmbufs β ε) (cs : List β)
    (t : Pktmbufs β ε) : Prop where
  length : cs.length = memoryPoolSize
  nodup : cs.Nodup
  returned : ∃ rest, P.avail s.pool = ↑cs + rest ∧ P.avail t.pool = ↑cs + rest
  written : ∀ j (hj : j < cs.length),
    (t.mem cs[j]).room.load headroom frameSize = templateFrame (UInt8.ofNat j)

/-- What `prepare_memory_pool` should do when the allocations return `bs`. -/
structure HandlesShortPool (P : Mempool ι β ε) (headroom : ℕ) (l : ι) (s : Pktmbufs β ε)
    (bs : List (Option β)) : Prop where
  ends : ∃ o t, PrepareRun P headroom l s bs o t
  safe : ∀ o t, PrepareRun P headroom l s bs o t → o ≠ .nullDereference
  short : none ∈ bs → ∀ o t, PrepareRun P headroom l s bs o t →
    o = .returned false ∧ P.avail t.pool = P.avail s.pool
  full : ∀ t, PrepareRun P headroom l s bs (.returned true) t →
    ∃ cs, bs = cs.map some ∧ PreparedOnce P headroom s cs t

/-! ## The loops -/

section Loops

variable {P : Mempool ι β ε} {headroom : ℕ} {l : ι} {s m t : Pktmbufs β ε}
  {bs : List (Option β)}

/-- The second loop gets to its end, or to a null pointer. -/
theorem exists_writeLoop_of_free (hfree : ∀ s b, ∃ t, Pktmbufs.Free P l s b t)
    (bs : List (Option β)) (temp : UInt8) (m : Pktmbufs β ε) :
    ∃ o t, WriteLoop P l temp bs m o t := by
  induction bs generalizing temp m with
  | nil => exact ⟨_, m, .done⟩
  | cons b bs ih =>
    cases b with
    | none => exact ⟨_, m, .null⟩
    | some b =>
      obtain ⟨s', hs'⟩ := hfree (writeBuffer temp b m) b
      obtain ⟨o, t, hrest⟩ := ih (temp + 1) s'
      exact ⟨o, t, .buffer hs' hrest⟩

/-- After a failed allocation the second loop gets to the null pointer. -/
theorem WriteLoop.nullDereference {temp : UInt8} {o : PrepareOutcome}
    (h : WriteLoop P l temp bs m o t) (hnull : none ∈ bs) : o = .nullDereference := by
  induction h with
  | done => simp at hnull
  | null => rfl
  | buffer _ _ ih => exact ih (by simpa using hnull)

/-- Without a failed allocation it does not. -/
theorem WriteLoop.returned {temp : UInt8} {o : PrepareOutcome}
    (h : WriteLoop P l temp bs m o t) (hnull : none ∉ bs) : o = .returned true := by
  induction h with
  | done => rfl
  | null => simp at hnull
  | buffer _ _ ih => exact ih (by simpa using hnull)

omit [DecidableEq β] in
theorem reduceOption_map_some (cs : List β) : (cs.map some).reduceOption = cs := by
  rw [List.reduceOption, List.filterMap_map, Function.id_comp, List.filterMap_some]

/-- A run that returns true has prepared every buffer. -/
theorem PrepareRun.preparedOnce (h : PrepareRun P headroom l s bs (.returned true) t)
    (hfresh : bs.reduceOption.Nodup) :
    ∃ cs, bs = cs.map some ∧ PreparedOnce P headroom s cs t := by
  obtain ⟨hlen, m, halloc, hwrite⟩ := prepareRun_iff.mp h
  obtain ⟨cs, rfl⟩ := hwrite.all_some
  rw [List.length_map] at hlen
  rw [reduceOption_map_some] at hfresh
  have hmany := halloc.allocMany
  refine ⟨cs, rfl, hlen, hfresh, ⟨P.avail m.pool, hmany.avail, hwrite.avail⟩, ?_⟩
  intro j hj
  have hload := WriteLoop.written_at (k := 0) hwrite hfresh hmany.dataOff hj
  rwa [Nat.zero_add] at hload

end Loops

/-! ## A pool of 65534 buffers -/

section OneShort

theorem AllocLoop.append {P : Mempool ι β ε} {headroom : ℕ} {l : ι} {s m t : Pktmbufs β ε}
    {bs bs' : List (Option β)} (h : AllocLoop P headroom l s bs m)
    (h' : AllocLoop P headroom l m bs' t) : AllocLoop P headroom l s (bs ++ bs') t := by
  induction h with
  | nil => exact h'
  | buffer halloc _ ih => exact .buffer halloc (ih h')
  | null hfails _ ih => exact .null hfails (ih h')

variable [DecidableEq ι] [Fintype ι] {cacheSize : ℕ}

/-- The common pool may hand out its buffers in any order. -/
theorem exists_allocMany_common (headroom : ℕ) (l : ι) (cs : List β)
    (s : Pktmbufs β (CachedPool ι β cacheSize)) (hs : s.pool.common = ↑cs) :
    ∃ t, Pktmbufs.AllocMany (CachedPool.mempool ι β cacheSize) headroom l s cs t ∧
      t.pool.common = 0 ∧ t.pool.cache = s.pool.cache := by
  induction cs generalizing s with
  | nil => exact ⟨s, .nil, hs, rfl⟩
  | cons c cs ih =>
    rw [← Multiset.cons_coe] at hs
    have hget : CachedPool.Get l s.pool c ⟨↑cs, s.pool.cache, s.pool.card_cache_le⟩ := by
      refine ⟨?_, ?_, fun _ _ => rfl⟩
      · show s.pool.common + s.pool.cache l = c ::ₘ (↑cs + s.pool.cache l)
        rw [hs, Multiset.cons_add]
      · rw [hs]
        exact Multiset.le_cons_self _ _
    obtain ⟨t, hmany, hcommon, hcache⟩ := ih ⟨⟨↑cs, s.pool.cache, s.pool.card_cache_le⟩, _⟩ rfl
    exact ⟨t, .cons (.intro hget) hmany, hcommon, hcache⟩

/-- The results of the allocations when the last of them fails. -/
def lastNull : List (Option ℕ) := (List.range 65534).map some ++ [none]

theorem length_lastNull : lastNull.length = memoryPoolSize := by
  rw [lastNull, List.length_append, List.length_map, List.length_range]
  rfl

theorem reduceOption_lastNull : lastNull.reduceOption = List.range 65534 := by
  rw [lastNull, List.reduceOption_append, reduceOption_map_some]
  exact List.append_nil _

/-- One buffer of the pool is somewhere else. -/
def oneShortPool : CachedPool (Fin 2) ℕ 512 :=
  { createdPool with common := Multiset.range 65534 }

theorem exists_allocLoop_lastNull (mem : ℕ → Mbuf) :
    ∃ m, AllocLoop (CachedPool.mempool (Fin 2) ℕ 512) 128 0 ⟨oneShortPool, mem⟩ lastNull m := by
  obtain ⟨m, hmany, hcommon, hcache⟩ :=
    exists_allocMany_common 128 0 (List.range 65534) ⟨oneShortPool, mem⟩ rfl
  have hfails : (CachedPool.mempool (Fin 2) ℕ 512).getFails 0 m.pool := by
    show m.pool.usable 0 = 0
    rw [CachedPool.usable, hcommon, hcache]
    rfl
  exact ⟨m, (AllocLoop.of_allocMany hmany).append (.null hfails .nil)⟩

end OneShort

/-! ## All results of the allocations -/

section Result

variable {P : Mempool ι β ε} {headroom : ℕ} {l : ι} {s m : Pktmbufs β ε} {bs : List (Option β)}

/-- For all results of the 65535 allocations, each of them null or a fresh buffer,
    `prepare_memory_pool` does what it should exactly if none is null. -/
theorem handlesShortPool_iff (hfree : ∀ s b, ∃ t, Pktmbufs.Free P l s b t)
    (halloc : AllocLoop P headroom l s bs m) (hlen : bs.length = memoryPoolSize)
    (hfresh : bs.reduceOption.Nodup) :
    HandlesShortPool P headroom l s bs ↔ none ∉ bs := by
  constructor
  · intro h hnull
    obtain ⟨o, t, hrun⟩ := h.ends
    obtain ⟨-, m', -, hwrite⟩ := prepareRun_iff.mp hrun
    exact h.safe o t hrun (hwrite.nullDereference hnull)
  · intro hnull
    obtain ⟨o, t, hwrite⟩ := exists_writeLoop_of_free hfree bs 0 m
    refine ⟨⟨o, t, prepareRun_iff.mpr ⟨hlen, m, halloc, hwrite⟩⟩, ?_, fun h => absurd h hnull, ?_⟩
    · intro o t hrun
      obtain ⟨-, m', -, hwrite⟩ := prepareRun_iff.mp hrun
      rw [hwrite.returned hnull]
      exact PrepareOutcome.noConfusion
    · intro t hrun
      exact hrun.preparedOnce hfresh

end Result

/-- The pool `main` creates has all the buffers. -/
theorem handlesShortPool_created :
    HandlesShortPool (CachedPool.mempool (Fin 2) ℕ 512) 128 0
      ⟨createdPool, fun _ => ⟨fun _ => 0, 0, 0, 0, 0, 0, 0⟩⟩
      ((List.range memoryPoolSize).map some) := by
  obtain ⟨m, hmany, -⟩ := exists_allocMany_common 128 0 (List.range memoryPoolSize)
    ⟨createdPool, fun _ => ⟨fun _ => 0, 0, 0, 0, 0, 0, 0⟩⟩ rfl
  refine (handlesShortPool_iff ?_ (.of_allocMany hmany) ?_ ?_).mpr (by simp)
  · intro s b
    obtain ⟨e, hfree⟩ := Pktmbufs.exists_free 0 s b (by decide)
    exact ⟨⟨e, s.mem⟩, hfree⟩
  · rw [List.length_map, List.length_range]
  · rw [reduceOption_map_some]
    exact List.nodup_range

/-- The 65535th allocation fails. -/
theorem null_dereference : ¬ ∀ (s : Pktmbufs ℕ (CachedPool (Fin 2) ℕ 512)) bs m,
    AllocLoop (CachedPool.mempool (Fin 2) ℕ 512) 128 0 s bs m → bs.length = memoryPoolSize →
      bs.reduceOption.Nodup → HandlesShortPool (CachedPool.mempool (Fin 2) ℕ 512) 128 0 s bs := by
  intro h
  obtain ⟨m, halloc⟩ := exists_allocLoop_lastNull fun _ => ⟨fun _ => 0, 0, 0, 0, 0, 0, 0⟩
  have hhandles := h _ _ m halloc length_lastNull (by
    rw [reduceOption_lastNull]
    exact List.nodup_range)
  obtain ⟨o, t, hrun⟩ := hhandles.ends
  obtain ⟨-, m', -, hwrite⟩ := prepareRun_iff.mp hrun
  exact hhandles.safe o t hrun (hwrite.nullDereference (by simp [lastNull]))

end DpdkTutorials.Generator

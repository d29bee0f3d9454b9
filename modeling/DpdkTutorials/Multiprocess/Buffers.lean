import DpdkTutorials.Multiprocess.Delivery

/-!
# The primary of `8-multiprocess-communication` never runs out of buffers

Buffers are allocated by the primary and freed by the secondary, so free
buffers gather in the cache of the secondary's lcore, out of the primary's
reach. With 2048 buffers in the pool, at most 513 in use and at most 768 in
that cache, there are always some left (main.cpp:252-277).

* `length_out_le`: at most 511 buffers in the ring and one in each hand.
* `alloc_never_fails`: the primary's allocations succeed in every run.
-/

namespace DpdkTutorials.Multiprocess

open DpdkTutorials.Common DpdkTutorials.Dpdk

universe u v w

/-! ## Buffers in use -/

section Use

variable {β : Type v} {ε : Type w} {s : State β ε}

theorem length_hand_le (p : Primary β) : p.hand.length ≤ 1 := by
  unfold Primary.hand
  split <;> simp

theorem Secondary.Wf.length_le {c : Secondary β} (hw : c.Wf) :
    c.done.length + c.taken.length ≤ 1 := by
  have hshort := hw.short
  cases hpc : c.pc with
  | forLoop =>
    simp [Secondary.done, Secondary.taken, hpc]
    omega
  | free =>
    have hlt := hw.freeing hpc
    simp [Secondary.done, Secondary.taken, hpc]
    omega
  | _ => simp [Secondary.done, Secondary.taken, hpc]

/-- The ring holds at most 511 buffers, each process at most one. -/
theorem length_out_le (hw : s.secondary.Wf) : s.channel.out.length ≤ 513 := by
  have hhand := length_hand_le s.primary
  have hsecondary := hw.length_le
  have hring : s.ringBuffer.items.length ≤ 511 := s.ringBuffer.length_le
  simp only [Channel.out, State.channel, List.length_append]
  omega

end Use

/-! ## Buffers out of reach -/

section Reach

variable {ι : Type u} {β : Type v} [DecidableEq ι] [Fintype ι] [DecidableEq β] {r c : ι}

/-- One primary on lcore `r` and any number of secondaries, one after the
    other, on lcore `c`, from a newly created pool whose caches are empty. -/
def cachedSystem (ι : Type u) (β : Type v) [DecidableEq ι] [Fintype ι] [DecidableEq β] (r c : ι) :
    System (State β (CachedPool ι β rteMempoolCacheMaxSize)) where
  init s := Starts (memoryBufferPool ι β) s ∧ ∀ l, s.pool.cache l = 0
  next := RelaunchStep (memoryBufferPool ι β) r c

variable {s t : State β (CachedPool ι β rteMempoolCacheMaxSize)}

/-- Only the caches of `r` and `c` are ever used. -/
def OthersEmpty (r c : ι) (p : CachedPool ι β rteMempoolCacheMaxSize) : Prop :=
  ∀ l, l ≠ r → l ≠ c → p.cache l = 0

omit [DecidableEq ι] [Fintype ι] [DecidableEq β] in
theorem OthersEmpty.of_frame {p q : CachedPool ι β rteMempoolCacheMaxSize} {l : ι}
    (h : OthersEmpty r c p) (hl : l = r ∨ l = c) (hframe : ∀ l', l' ≠ l → q.cache l' = p.cache l') :
    OthersEmpty r c q := by
  intro l' hr hc
  have hne : l' ≠ l := by
    rcases hl with rfl | rfl
    · exact hr
    · exact hc
  rw [hframe l' hne]
  exact h l' hr hc

theorem othersEmpty_step (h : OthersEmpty r c s.pool)
    (hstep : RelaunchStep (memoryBufferPool ι β) r c s t) : OthersEmpty r c t.pool := by
  cases hstep with
  | step hstep =>
    cases hstep with
    | primary hstep =>
      cases hstep with
      | alloc hpc hget => exact h.of_frame (.inl rfl) hget.2.2
      | drop hpc hput => exact h.of_frame (.inl rfl) hput.2.1
      | _ => exact h
    | secondary hstep =>
      cases hstep with
      | free _ hpc hput => exact h.of_frame (.inr rfl) hput.2.1
      | _ => exact h
    | terminatePrimary => exact h
    | terminateSecondary _ => exact h
  | relaunch _ => exact h

theorem relaunch_of_cached (hs : (cachedSystem ι β r c).Reachable s) :
    (relaunchSystem (memoryBufferPool ι β) r c).Reachable s :=
  System.Reachable.mono (S := cachedSystem ι β r c) (T := relaunchSystem (memoryBufferPool ι β) r c)
    (fun _ h => h.1) (fun _ _ h => h) hs

theorem othersEmpty_reachable (hs : (cachedSystem ι β r c).Reachable s) :
    OthersEmpty r c s.pool := by
  apply System.Reachable.invariant (P := fun s => OthersEmpty r c s.pool) ?_ ?_ hs
  · intro s hinit l _ _
    exact hinit.2 l
  · intro s t _ h hstep
    exact othersEmpty_step h hstep

/-- At most 513 buffers are allocated and not freed, and an allocation of the
    primary never fails. -/
theorem alloc_never_fails (hrc : c ≠ r) (hs : (cachedSystem ι β r c).Reachable s) :
    s.allocs ≤ s.freed.length + 513 ∧ ¬ (memoryBufferPool ι β).getFails r s.pool := by
  obtain ⟨all, -, hcard, hinv⟩ := inv_relaunch (relaunch_of_cached hs)
  have hout := length_out_le hinv.secondary
  constructor
  · have hserials := hinv.channel.serials.length_eq
    rw [List.length_append, List.length_map, List.length_range] at hserials
    show s.channel.allocs ≤ s.channel.freed.length + 513
    omega
  · intro hnone
    have husable : s.pool.usable r = 0 := hnone
    have hstranded := CachedPool.stranded_eq hrc (othersEmpty_reachable hs)
    have hcache : (s.pool.cache c).card ≤ 768 := s.pool.card_cache_le c
    have howned : s.pool.avail + ↑s.channel.out = all := hinv.channel.owned
    rw [CachedPool.avail_eq s.pool r, husable, hstranded] at howned
    have htotal := congrArg Multiset.card howned
    rw [Multiset.card_add, Multiset.card_add, Multiset.card_zero, Multiset.coe_card, hcard,
      poolSize] at htotal
    omega

end Reach

/-- The second allocation, after the first packet has been freed by the secondary. -/
theorem alloc_never_fails_second :
    ∃ s : State ℕ (CachedPool (Fin 2) ℕ rteMempoolCacheMaxSize), s.primary.pc = .alloc ∧
      s.freed ≠ [] ∧ s.allocs ≤ s.freed.length + 513 ∧
      ¬ (memoryBufferPool (Fin 2) ℕ).getFails 0 s.pool := by
  obtain ⟨s, hrun, hpc, hexit, -, hfreed⟩ := exists_oneFreed
  have h₀ : (cachedSystem (Fin 2) ℕ 0 1).Reachable s :=
    ⟨created, ⟨starts_createdPool, fun _ => rfl⟩,
      Relation.ReflTransGen.mono (fun _ _ => .step) _ _ hrun⟩
  have h₁ := h₀.step (.step (.primary (.enter hpc hexit)))
  refine ⟨_, ?_, ?_, alloc_never_fails (by decide) h₁⟩
  · rfl
  · exact hfreed

end DpdkTutorials.Multiprocess

import DpdkTutorials.Receiving.Ownership

/-!
# Buffers for the next burst

A burst needs a buffer from the pool for each packet it hands over. The routines
hold at most 32 buffers each and the queues 256 each; the others are in the
common pool or in the caches of the lcores that run the routines.

* `supply`: together the routines can use all buffers they do not hold.
* `full_burst`: with one or two routines, one of them can always receive a
  burst of any length.
-/

namespace DpdkTutorials.Receiving

open DpdkTutorials.Common DpdkTutorials.Dpdk
open DpdkTutorials.Processing (Port RxBurst exists_rxBurst_of_queue)

universe u v w

variable {ι : Type u} {κ : Type w} {β : Type v}

/-- With enough buffers a burst of any length can be received. -/
theorem exists_rxBurst [DecidableEq ι] {lcore : ι} {n : ℕ} (e : Port ι β)
    (huse : n ≤ (e.pool.usable lcore).card) (hqueue : n ≤ e.rxQueue.card) :
    ∃ bs e', bs.length = n ∧ RxBurst lcore e bs e' := by
  obtain ⟨queue, hlist⟩ := Quotient.exists_rep e.rxQueue
  have hlen : (queue.take n).length = n := by
    have hcard : e.rxQueue.card = queue.length := hlist ▸ Multiset.coe_card queue
    rw [List.length_take]
    omega
  have hparts : e.rxQueue = ↑(queue.take n) + ↑(queue.drop n) := by
    rw [Multiset.coe_add, List.take_append_drop]
    exact hlist.symm
  obtain ⟨e', hburst⟩ := exists_rxBurst_of_queue e (hlen.le.trans huse) hparts
  exact ⟨queue.take n, e', hlen, hburst⟩

section Supply

variable [Fintype ι] [Fintype κ] {S : Setup ι κ} {s : State ι κ β}

/-- No buffer is in the cache of an lcore without a routine. -/
theorem Inv.card_avail_le (hi : Inv S s) :
    s.pool.avail.card ≤ ∑ k, (s.pool.usable (S.lcore k)).card := by
  have hcaches : ∑ k, (s.pool.cache (S.lcore k)).card = ∑ l, (s.pool.cache l).card := by
    refine Fintype.sum_of_injective S.lcore S.lcore_injective _ _ ?_ fun _ => rfl
    intro l hl
    rw [hi.caches l fun k hk => hl ⟨k, hk⟩, Multiset.card_zero]
  have hmain : 1 ≤ Fintype.card κ := Fintype.card_pos_iff.mpr ⟨S.main⟩
  have hcommon := Nat.mul_le_mul_right s.pool.common.card hmain
  simp only [CachedPool.avail, CachedPool.usable, Multiset.card_add, Multiset.card_sum,
    Finset.sum_add_distrib, Finset.sum_const, Finset.card_univ, smul_eq_mul, hcaches]
  omega

theorem supply (hi : Inv S s) :
    memoryPoolSize ≤ (rxDescriptors + maxBurst) * Fintype.card κ +
      ∑ k, (s.pool.usable (S.lcore k)).card := by
  have htotal := hi.total
  have hqueues : ∑ k, (s.rxQueue (S.queue k)).card = Fintype.card κ * rxDescriptors := by
    simp [hi.full]
  have hhands : ∑ k, (s.hand k).card ≤ Fintype.card κ * maxBurst := by
    refine (Finset.sum_le_card_nsmul _ _ maxBurst fun k _ => ?_).trans_eq (by simp)
    have hshort := (hi.wf k).short
    show (s.poller k).pending.length ≤ maxBurst
    unfold Poller.pending
    split <;> simp [hshort]
  have havail := hi.card_avail_le
  rw [custody, State.held, Multiset.card_add, Multiset.card_add, Multiset.card_sum,
    Multiset.card_sum, hqueues] at htotal
  rw [Nat.add_mul, Nat.mul_comm rxDescriptors, Nat.mul_comm maxBurst]
  omega

end Supply

variable [DecidableEq ι] [Fintype ι] [DecidableEq κ] [Fintype κ] {S : Setup ι κ}
  {s : State ι κ β}

/-- In every reachable state one of at most two routines finds all it needs in the
    pool. In 1, which has one routine, no burst is ever cut short for want of a
    buffer. -/
theorem full_burst (hs : (system β S).Reachable s) (hcard : Fintype.card κ ≤ 2) :
    ∃ k, ∀ n ≤ maxBurst, ∃ bs e, bs.length = n ∧
      RxBurst (S.lcore k) ⟨s.pool, s.rxQueue (S.queue k)⟩ bs e := by
  have hi := inv_reachable hs
  obtain ⟨k, hk⟩ : ∃ k, maxBurst ≤ (s.pool.usable (S.lcore k)).card := by
    by_contra hnone
    push Not at hnone
    have hle : ∑ k, (s.pool.usable (S.lcore k)).card ≤ Fintype.card κ * maxBurst :=
      (Finset.sum_le_card_nsmul _ _ maxBurst fun k _ => (hnone k).le).trans_eq (by simp)
    have hsupply := supply hi
    unfold memoryPoolSize rxDescriptors maxBurst at *
    omega
  refine ⟨k, fun n hn => exists_rxBurst _ (hn.trans hk) ?_⟩
  show n ≤ (s.rxQueue (S.queue k)).card
  rw [hi.full k]
  exact hn.trans (by decide)

theorem full_burst_twoInHand : ∃ s : State (Fin 2) Unit ℕ, s.pending () = [0, 1] ∧
    ∃ bs e, bs.length = 32 ∧ RxBurst (0 : Fin 2) ⟨s.pool, s.rxQueue 0⟩ bs e := by
  obtain ⟨e, h⟩ := exists_twoInHand
  obtain ⟨k, hk⟩ := full_burst h (by decide)
  exact ⟨_, rfl, hk 32 le_rfl⟩

end DpdkTutorials.Receiving

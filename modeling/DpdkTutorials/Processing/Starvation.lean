import DpdkTutorials.Processing.Fifo

/-!
# Starvation of the receive queue of `3-processing-a-packet`

Buffers are allocated on the reader's lcore and freed on the consumer's. A
freed buffer stays in the consumer's cache, from which the reader cannot
allocate, until the cache would exceed 768 buffers. The pool has 1023 buffers
and the receive queue keeps 256 of them, so at most 767 can ever be in the
consumer's cache: it is never flushed, and every processed packet takes its
buffer out of circulation for good.

* `replacement_iff`: the reader's lcore can still allocate a buffer exactly
  when fewer than 767 packets have been received.
* `received_le`: no run ever receives more than 767 packets.
* `receive_queue_starves`: after 767 packets the program is idle, and blocked.
-/

namespace DpdkTutorials.Processing

open DpdkTutorials.Common DpdkTutorials.Dpdk

universe u v

variable {ι : Type u} {β : Type v}

/-- `ring_buffer` is empty and neither routine holds a packet. -/
def Quiescent (s : State β (Port ι β)) : Prop :=
  s.ringBuffer.items = [] ∧ s.reader.pending = [] ∧ s.consumer.pending = []

/-- A replacement buffer can be allocated on the reader's lcore. -/
def ReplacementAvailable (L : Lcores ι) (s : State β (Port ι β)) : Prop :=
  s.env.pool.usable L.reader ≠ 0

/-- The number of packets after which the reader's lcore has no buffer left. -/
def receiveLimit : ℕ := memoryPoolSize - rxDescriptors

theorem Quiescent.line {s : State β (Port ι β)} (h : Quiescent s) : s.line = [] := by
  simp [State.line, h.1, h.2.1, h.2.2]

section Invariant

variable [DecidableEq ι] [Fintype ι] {L : Lcores ι}

/-- Where the buffers are: the receive queue keeps its descriptors full, and
    every processed packet's buffer is in the consumer's cache. -/
structure Stranding (L : Lcores ι) (s : State β (Port ι β)) : Prop where
  queue : s.env.rxQueue.card = rxDescriptors
  others : ∀ l, l ≠ L.reader → l ≠ L.consumer → s.env.pool.cache l = 0
  consumer : (s.env.pool.cache L.consumer).card = s.processed.length

/-- The pool holds what the line and the receive queue leave. -/
theorem card_avail {s : State β (Port ι β)} (hi : Inv (environment L) s)
    (hq : s.env.rxQueue.card = rxDescriptors) :
    s.env.pool.avail.card + s.line.length = receiveLimit := by
  have htotal := hi.total
  simp only [environment, Multiset.card_add, hq] at htotal
  unfold receiveLimit memoryPoolSize rxDescriptors at *
  omega

theorem card_cache_le_avail (p : CachedPool ι β poolCacheSize) (l : ι) :
    (p.cache l).card ≤ p.avail.card := by
  rw [CachedPool.avail_eq p l, CachedPool.usable, Multiset.card_add, Multiset.card_add]
  omega

/-- A put of the consumer always fits its cache. -/
theorem put_fits {s : State β (Port ι β)} (hi : Inv (environment L) s)
    (hq : s.env.rxQueue.card = rxDescriptors) (hne : s.line ≠ []) :
    (s.env.pool.cache L.consumer).card + 1 ≤ flushThreshold poolCacheSize := by
  have havail := card_avail hi hq
  have hcache := card_cache_le_avail s.env.pool L.consumer
  have hline := List.length_pos_iff.mpr hne
  unfold receiveLimit memoryPoolSize rxDescriptors at havail
  unfold flushThreshold poolCacheSize
  omega

theorem stranding_of_effect {s t : State β (Port ι β)} (hi : Inv (environment L) s)
    (hs : Stranding L s) (he : Effect (environment L) s t) : Stranding L t := by
  cases he with
  | quiet hq =>
    refine ⟨?_, ?_, ?_⟩
    · rw [hq.env]; exact hs.queue
    · rw [hq.env]; exact hs.others
    · rw [hq.env, hq.processed]; exact hs.consumer
  | arrives bs ha =>
    obtain ⟨hcard, hcache⟩ := rxBurst_frame ha.rxBurst
    refine ⟨by rw [hcard]; exact hs.queue, fun l hr hc => ?_, ?_⟩
    · rw [hcache l hr]; exact hs.others l hr hc
    · rw [hcache _ L.ne, ha.processed]; exact hs.consumer
  | departs b hd =>
    obtain ⟨hput, hqueue⟩ := hd.free
    have hfit := put_fits hi hs.queue (by rw [hd.line]; simp)
    refine ⟨by rw [hqueue]; exact hs.queue, fun l hr hc => ?_, ?_⟩
    · rw [hput.2.1 l hc]; exact hs.others l hr hc
    · have hcache : t.env.pool.cache L.consumer = b ::ₘ s.env.pool.cache L.consumer :=
        CachedPool.cache_of_put hput hfit
      rw [hcache, Multiset.card_cons, hs.consumer, hd.processed, List.length_append,
        List.length_singleton]
  | full hfull hne => exact absurd (hi.not_full hfull) hne

theorem stranding_reachable {s : State β (Port ι β)} (hs : (portSystem L).Reachable s) :
    Stranding L s := by
  refine hs.invariant (P := Stranding L) ?_ fun s t hs hstr h => ?_
  · rintro _ ⟨e, mem, rfl, he⟩
    exact ⟨he.queue, fun l hl _ => he.caches l hl, by simp [start, he.caches _ L.ne]⟩
  · have hi := inv_reachable (system_of_portSystem hs)
    cases h with
    | reader h => exact stranding_of_effect hi hstr (readerStep_effect h hi.reader hi.enqueuing)
    | consumer h =>
      exact stranding_of_effect hi hstr (consumerStep_effect h hi.consumer hi.enqueuing)
    | terminate => exact ⟨hstr.queue, hstr.others, hstr.consumer⟩

/-- What the reader's lcore can allocate, what is in flight and what has been
    processed add up to the buffers outside the receive queue. -/
theorem card_usable {s : State β (Port ι β)} (hs : (portSystem L).Reachable s) :
    (s.env.pool.usable L.reader).card + s.received.length = receiveLimit := by
  have hi := inv_reachable (system_of_portSystem hs)
  have hstr := stranding_reachable hs
  have havail := card_avail hi hstr.queue
  rw [CachedPool.avail_eq _ L.reader, CachedPool.stranded_eq L.ne hstr.others,
    Multiset.card_add, hstr.consumer] at havail
  have hflow := congrArg List.length hi.flow
  rw [List.length_append, List.length_map] at hflow
  omega

/-- No run receives more than 767 packets: from then on reception is blocked
    for good. -/
theorem received_le {s : State β (Port ι β)} (hs : (portSystem L).Reachable s) :
    s.received.length ≤ receiveLimit := by
  have := card_usable hs
  omega

/-- As long as fewer than 767 packets have been received, a further one can be. -/
theorem exists_received (mem : ℕ → Packet) : ∀ n ≤ receiveLimit, ∃ s : State ℕ (Port (Fin 2) ℕ),
    (portSystem lcores01).Reachable s ∧ Idle s ∧ s.received.length = n := by
  intro n
  induction n with
  | zero => intro _; exact ⟨_, reachable_start mem, ⟨rfl, rfl, rfl, rfl⟩, rfl⟩
  | succ n ih =>
    intro hn
    obtain ⟨s, hs, hidle, hlen⟩ := ih (by omega)
    have hqueue : s.env.rxQueue ≠ 0 := by
      rw [← Multiset.card_pos, (stranding_reachable hs).queue]; decide
    have huse : s.env.pool.usable lcores01.reader ≠ 0 := by
      have := card_usable hs
      rw [← Multiset.card_pos]; omega
    obtain ⟨t, ht, hidle', hlen', -⟩ := exists_round hs hidle hqueue huse
    exact ⟨t, ht, hidle', by rw [hlen', hlen]⟩

/-- **Main theorem.** In a reachable state, with or without packets in flight,
    the reader's lcore can still allocate a replacement buffer exactly when
    fewer than 767 packets have been received in the run. -/
theorem replacement_iff {s : State β (Port ι β)} (hs : (portSystem L).Reachable s) :
    ReplacementAvailable L s ↔ s.received.length < receiveLimit := by
  have husable := card_usable hs
  unfold ReplacementAvailable
  rw [← Multiset.card_pos]
  omega

/-- Before and after the last packet that can be received. -/
theorem replacement_iff_last_packet : ∃ s t : State ℕ (Port (Fin 2) ℕ),
    s.received.length = 766 ∧ ReplacementAvailable lcores01 s ∧
      t.received.length = 767 ∧ ¬ ReplacementAvailable lcores01 t := by
  obtain ⟨s, hs, -, hbefore⟩ := exists_received (fun _ => ⟨0, 0⟩) 766 (by decide)
  obtain ⟨t, ht, -, hafter⟩ := exists_received (fun _ => ⟨0, 0⟩) 767 (by decide)
  refine ⟨s, t, hbefore, (replacement_iff hs).mpr ?_, hafter, fun havailable => ?_⟩
  · rw [hbefore]
    decide
  · have hlt := (replacement_iff ht).mp havailable
    rw [hafter] at hlt
    contradiction

end Invariant

/-! ## The blocked state is reached -/

theorem Idle.quiescent {s : State β (Port ι β)} (h : Idle s) : Quiescent s :=
  ⟨h.ring, by simp [Reader.pending, h.reader], by simp [Consumer.pending, h.consumer]⟩

/-- After 767 packets, one at a time, the ring is empty and neither routine
    holds a packet, but the reader's lcore has no buffer left. -/
theorem receive_queue_starves : ¬ ∀ s : State ℕ (Port (Fin 2) ℕ),
    (portSystem lcores01).Reachable s → Quiescent s → ReplacementAvailable lcores01 s := by
  intro h
  obtain ⟨s, hs, hidle, hlen⟩ := exists_received (fun _ => ⟨0, 0⟩) receiveLimit le_rfl
  have hcard := card_usable hs
  exact h s hs hidle.quiescent (Multiset.card_eq_zero.mp (by omega))

end DpdkTutorials.Processing

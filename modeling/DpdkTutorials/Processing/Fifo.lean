import DpdkTutorials.Processing.Port

/-!
# The two routines are one FIFO

The buffers that the NIC has handed over and that are not yet freed form one
line: the consumer's array, then the ring, then the reader's array. Every step
of the program either leaves the line alone, appends a burst at its end or
takes its first buffer off.

* `readerStep_effect`, `consumerStep_effect`: what a step does to the line.
* `Inv.not_full`: the reader never fails to enqueue, because the pool has no
  more buffers than the ring has usable slots.
* `reader_consumer_fifo`: for every interleaving and every burst size, the
  processed packets followed by the packets of the line are exactly the
  received packets, in order, and every processed packet is freed exactly once.
-/

namespace DpdkTutorials.Processing

open DpdkTutorials.Common DpdkTutorials.Dpdk

universe v w

variable {β : Type v} {ε : Type w} {E : Environment β ε}

/-- The buffers on their way from the NIC to `rte_pktmbuf_free`, oldest first. -/
def State.line (s : State β ε) : List β :=
  s.consumer.pending ++ s.ringBuffer.items ++ s.reader.pending

/-! ## The local variables -/

/-- The index of a `for` loop over a burst stays inside the burst, and neither
    counter wraps. -/
structure Reader.Wf (r : Reader β) : Prop where
  count : r.rxCount = r.rxPackets.length
  short : r.rxPackets.length ≤ maxBurst
  inside : r.i ≤ r.rxPackets.length

/-- As `Reader.Wf`; a packet about to be freed is still in the array. -/
structure Consumer.Wf (c : Consumer β) : Prop where
  count : c.rxCount = c.rxPackets.length
  short : c.rxPackets.length ≤ maxBurst
  inside : c.i ≤ c.rxPackets.length
  freeing : c.pc = .free → c.i < c.rxPackets.length

/-- The length of a burst fits in the counters. -/
theorem length_burst_mod {bs : List β} (h : bs.length ≤ maxBurst) :
    bs.length % 2 ^ 16 = bs.length ∧ bs.length % 2 ^ 8 = bs.length := by
  have hle : bs.length ≤ 32 := h
  exact ⟨Nat.mod_eq_of_lt (by omega), Nat.mod_eq_of_lt (by omega)⟩

theorem Reader.Wf.next {r : Reader β} (hw : r.Wf) (h : r.i < r.rxPackets.length) :
    (r.i + 1) % 2 ^ 16 = r.i + 1 := by
  have hshort : r.rxPackets.length ≤ 32 := hw.short
  exact Nat.mod_eq_of_lt (by omega)

theorem Consumer.Wf.next {c : Consumer β} (hw : c.Wf) (h : c.i < c.rxPackets.length) :
    (c.i + 1) % 2 ^ 8 = c.i + 1 := by
  have hshort : c.rxPackets.length ≤ 32 := hw.short
  exact Nat.mod_eq_of_lt (by omega)

theorem readerStep_wf {s t : State β ε} (h : ReaderStep E s t) (hw : s.reader.Wf) :
    t.reader.Wf := by
  cases h with
  | exit | enter | full | done => exact ⟨hw.count, hw.short, hw.inside⟩
  | burst _ _ hlen => exact ⟨(length_burst_mod hlen).1, hlen, Nat.zero_le _⟩
  | enqueue hi | drop hi =>
    refine ⟨hw.count, hw.short, ?_⟩
    simp only
    rw [hw.next hi]
    exact hi

/-- A burst taken from the ring. -/
theorem length_of_dequeueBurst {r r' : Ring β ringSize} {k : ℕ} {bs : List β} (hk : k ≤ maxBurst)
    (hd : r.dequeueBurst k = (bs, r')) : bs.length ≤ maxBurst := by
  have hlen := Ring.length_dequeueBurst_le r k
  rw [hd] at hlen
  exact hlen.trans hk

theorem consumerStep_wf {s t : State β ε} (h : ConsumerStep E s t) (hw : s.consumer.Wf) :
    t.consumer.Wf := by
  cases h with
  | exit | enter | done => exact ⟨hw.count, hw.short, hw.inside, by simp⟩
  | dequeue k _ hk hd =>
    have hlen := length_of_dequeueBurst hk hd
    refine ⟨(length_burst_mod hlen).2, hlen, Nat.zero_le _, ?_⟩
    simp only
    split_ifs <;> simp
  | print _ hi =>
    exact ⟨hw.count, hw.short, hw.inside, fun _ => by rw [hw.count] at hi; exact hi⟩
  | free hi =>
    refine ⟨hw.count, hw.short, ?_, by simp⟩
    simp only
    rw [hw.next hi]
    exact hi

/-! ## What a step does to the line -/

/-- Nothing outside the routines' own variables and the ring changes. -/
structure Quiet (s t : State β ε) : Prop where
  line : t.line = s.line
  env : t.env = s.env
  mem : t.mem = s.mem
  received : t.received = s.received
  processed : t.processed = s.processed
  freed : t.freed = s.freed

/-- A burst `bs` joins the line. -/
structure Arrives (E : Environment β ε) (bs : List β) (s t : State β ε) : Prop where
  line : t.line = s.line ++ bs
  rxBurst : E.rxBurst s.env bs t.env
  mem : ∀ b, b ∉ E.held s.env → t.mem b = s.mem b
  received : t.received = s.received ++ bs.map t.mem
  serial : (bs.map t.mem).map Packet.serial = List.range' s.received.length bs.length
  processed : t.processed = s.processed
  freed : t.freed = s.freed

/-- The consumer frees the first buffer `b` of the line. -/
structure Departs (E : Environment β ε) (b : β) (s t : State β ε) : Prop where
  line : s.line = b :: t.line
  free : E.free .consumer s.env b t.env
  mem : t.mem = s.mem
  received : t.received = s.received
  processed : t.processed = s.processed ++ [s.mem b]
  freed : t.freed = s.freed ++ [s.mem b]

/-- What one step of the program does, as long as the reader is not in its
    "Unable to enqueue" branch. -/
inductive Effect (E : Environment β ε) (s t : State β ε) : Prop where
  | quiet : Quiet s t → t.reader.pc ≠ .unableToEnqueue → Effect E s t
  | arrives (bs : List β) : Arrives E bs s t → t.reader.pc ≠ .unableToEnqueue → Effect E s t
  | departs (b : β) : Departs E b s t → t.reader.pc ≠ .unableToEnqueue → Effect E s t
  /-- The reader finds the ring full. -/
  | full : s.ringBuffer.items.length = ringSize - 1 → s.reader.pending ≠ [] → Effect E s t

theorem readerStep_effect {s t : State β ε} (h : ReaderStep E s t) (hw : s.reader.Wf)
    (hpc : s.reader.pc ≠ .unableToEnqueue) : Effect E s t := by
  cases h with
  | exit hr | enter hr =>
    exact .quiet ⟨by simp [State.line, Reader.pending, hr], rfl, rfl, rfl, rfl, rfl⟩ (by simp)
  | @burst bs env' mem' arrived hr hrx hlen hmem harr hser =>
    subst harr
    refine .arrives bs ⟨?_, hrx, hmem, rfl, hser, rfl, rfl⟩ (by simp only; split_ifs <;> simp)
    rw [(length_burst_mod hlen).1]
    cases bs <;> simp [State.line, Reader.pending, hr]
  | @enqueue r' hi hr _ henq =>
    refine .quiet ⟨?_, rfl, rfl, rfl, rfl, rfl⟩ (by simp [hr])
    simp only [State.line, Reader.pending, hr, Ring.items_of_enqueue henq]
    rw [hw.next hi, List.drop_eq_getElem_cons hi]
    simp
  | full hi hr _ henq =>
    refine .full ((Ring.enqueue_eq_none_iff _ _).mp henq) ?_
    simp only [Reader.pending, hr]
    simpa using hi
  | drop _ hr => exact absurd hr hpc
  | done hr hi =>
    refine .quiet ⟨?_, rfl, rfl, rfl, rfl, rfl⟩ (by simp)
    have : s.reader.rxPackets.drop s.reader.i = [] := by
      rw [List.drop_eq_nil_iff, ← hw.count]; omega
    simp [State.line, Reader.pending, hr, this]

theorem consumerStep_effect {s t : State β ε} (h : ConsumerStep E s t) (hw : s.consumer.Wf)
    (hpc : s.reader.pc ≠ .unableToEnqueue) : Effect E s t := by
  cases h with
  | exit hc | enter hc =>
    exact .quiet ⟨by simp [State.line, Consumer.pending, hc], rfl, rfl, rfl, rfl, rfl⟩ hpc
  | @dequeue bs r' k hc hk hd =>
    refine .quiet ⟨?_, rfl, rfl, rfl, rfl, rfl⟩ hpc
    have hsplit := Ring.dequeueBurst_append s.ringBuffer k
    rw [hd] at hsplit
    simp only [State.line, Consumer.pending, hc, ← hsplit,
      (length_burst_mod (length_of_dequeueBurst hk hd)).2]
    cases bs <;> simp
  | print hc hi =>
    exact .quiet ⟨by simp [State.line, Consumer.pending, hc], rfl, rfl, rfl, rfl, rfl⟩ hpc
  | free hi hc hfree =>
    refine .departs _ ⟨?_, hfree, rfl, rfl, rfl, rfl⟩ hpc
    simp only [State.line, Consumer.pending, hc]
    rw [hw.next hi, List.drop_eq_getElem_cons hi, List.cons_append, List.cons_append]
  | done hc hi =>
    refine .quiet ⟨?_, rfl, rfl, rfl, rfl, rfl⟩ hpc
    have : s.consumer.rxPackets.drop s.consumer.i = [] := by
      rw [List.drop_eq_nil_iff, ← hw.count]; omega
    simp [State.line, Consumer.pending, hc, this]

/-! ## The invariant -/

/-- Every buffer is in the environment or in the line, never in both; the
    line carries exactly the packets received and not yet processed. -/
structure Inv (E : Environment β ε) (s : State β ε) : Prop where
  reader : s.reader.Wf
  consumer : s.consumer.Wf
  enqueuing : s.reader.pc ≠ .unableToEnqueue
  owned : (E.held s.env + ↑s.line).Nodup
  total : (E.held s.env).card + s.line.length = memoryPoolSize
  flow : s.processed ++ s.line.map s.mem = s.received
  freed : s.freed = s.processed
  serial : s.received.map Packet.serial = List.range s.received.length

theorem inv_start {e : ε} (mem : β → Packet) (hnodup : (E.held e).Nodup)
    (hcard : (E.held e).card = memoryPoolSize) : Inv E (start e mem) where
  reader := ⟨rfl, Nat.zero_le _, le_rfl⟩
  consumer := ⟨rfl, Nat.zero_le _, le_rfl, by simp [start]⟩
  enqueuing := by simp [start]
  owned := by simpa [State.line, Consumer.pending, Reader.pending, start] using hnodup
  total := by simpa [State.line, Consumer.pending, Reader.pending, start] using hcard
  flow := by simp [State.line, Consumer.pending, Reader.pending, start]
  freed := rfl
  serial := rfl

/-- The reader never finds the ring full: ring and reader together would hold
    more buffers than the pool has. -/
theorem Inv.not_full {s : State β ε} (hi : Inv E s)
    (hfull : s.ringBuffer.items.length = ringSize - 1) : s.reader.pending = [] := by
  have htotal := hi.total
  simp only [State.line, List.length_append] at htotal
  unfold memoryPoolSize at htotal
  unfold ringSize at hfull
  exact List.eq_nil_of_length_eq_zero (by omega)

/-- The packets of the line are not touched by the NIC. -/
theorem Inv.map_line_mem {s : State β ε} (hi : Inv E s) {mem' : β → Packet}
    (hmem : ∀ b, b ∉ E.held s.env → mem' b = s.mem b) : s.line.map mem' = s.line.map s.mem := by
  apply List.map_congr_left
  intro b hb
  apply hmem
  intro hheld
  exact Multiset.disjoint_left.mp (Multiset.nodup_add.mp hi.owned).2.2 hheld (by simpa using hb)

/-- What the invariant asks of the history variables, the environment and the
    line is preserved by every effect. -/
theorem inv_of_effect {s t : State β ε} (hi : Inv E s) (he : Effect E s t) (hr : t.reader.Wf)
    (hc : t.consumer.Wf) : Inv E t := by
  cases he with
  | quiet hq hpc =>
    refine ⟨hr, hc, hpc, ?_, ?_, ?_, ?_, ?_⟩
    · rw [hq.env, hq.line]; exact hi.owned
    · rw [hq.env, hq.line]; exact hi.total
    · rw [hq.processed, hq.line, hq.mem, hq.received]; exact hi.flow
    · rw [hq.freed, hq.processed]; exact hi.freed
    · rw [hq.received]; exact hi.serial
  | arrives bs ha hpc =>
    have hheld := E.held_rxBurst ha.rxBurst
    refine ⟨hr, hc, hpc, ?_, ?_, ?_, ?_, ?_⟩
    · have howned := hi.owned
      rw [hheld] at howned
      rw [ha.line, ← Multiset.coe_add]
      convert howned using 1
      abel
    · have htotal := hi.total
      rw [hheld, Multiset.card_add, Multiset.coe_card] at htotal
      rw [ha.line, List.length_append]
      omega
    · rw [ha.processed, ha.line, List.map_append, hi.map_line_mem ha.mem, ha.received, ← hi.flow,
        List.append_assoc]
    · rw [ha.freed, ha.processed]; exact hi.freed
    · rw [ha.received, List.map_append, ha.serial, hi.serial, List.length_append, List.length_map,
        List.range_eq_range', List.range_eq_range', ← List.range'_append_1, Nat.zero_add]
  | departs b hd hpc =>
    have hheld := E.held_free hd.free
    refine ⟨hr, hc, hpc, ?_, ?_, ?_, ?_, ?_⟩
    · have howned := hi.owned
      rw [hd.line, ← Multiset.cons_coe, Multiset.add_cons] at howned
      rwa [hheld, Multiset.cons_add]
    · have htotal := hi.total
      rw [hd.line, List.length_cons] at htotal
      rw [hheld, Multiset.card_cons]
      omega
    · have hflow := hi.flow
      rw [hd.line, List.map_cons] at hflow
      rw [hd.processed, hd.mem, hd.received, List.append_assoc, List.singleton_append, hflow]
    · rw [hd.freed, hd.processed, hi.freed]
    · rw [hd.received]; exact hi.serial
  | full hfull hne => exact absurd (hi.not_full hfull) hne

theorem inv_step {s t : State β ε} (hi : Inv E s) (h : Step E s t) : Inv E t := by
  cases h with
  | reader h =>
    refine inv_of_effect hi (readerStep_effect h hi.reader hi.enqueuing)
      (readerStep_wf h hi.reader) ?_
    cases h <;> exact hi.consumer
  | consumer h =>
    refine inv_of_effect hi (consumerStep_effect h hi.consumer hi.enqueuing) ?_
      (consumerStep_wf h hi.consumer)
    cases h <;> exact hi.reader
  | terminate => exact ⟨hi.reader, hi.consumer, hi.enqueuing, hi.owned, hi.total, hi.flow,
      hi.freed, hi.serial⟩

theorem inv_reachable {s : State β ε} (hs : (system E).Reachable s) : Inv E s := by
  refine hs.invariant (P := Inv E) ?_ (fun _ _ _ hi h => inv_step hi h)
  rintro _ ⟨e, mem, rfl, hnodup, hcard⟩
  exact inv_start mem hnodup hcard

theorem Inv.nodup_received {s : State β ε} (hi : Inv E s) : s.received.Nodup :=
  List.Nodup.of_map Packet.serial (by rw [hi.serial]; exact List.nodup_range)

/-- Every packet freed so far was freed exactly once. -/
theorem Inv.count_freed {s : State β ε} (hi : Inv E s) {p : Packet}
    (hp : p ∈ s.processed) : s.freed.count p = 1 := by
  have hnodup := hi.nodup_received
  rw [← hi.flow] at hnodup
  rw [hi.freed]
  exact List.count_eq_one_of_mem (List.nodup_append.mp hnodup).1 hp

/-- **Main theorem.** In every reachable state the processed packets, then
    those in the consumer's array, in the ring and in the reader's array, are
    exactly the received packets in order of arrival (which are pairwise
    distinct); each processed packet has been freed exactly once; and the
    reader is not in its "Unable to enqueue" branch. -/
theorem reader_consumer_fifo {s : State β ε} (hs : (system E).Reachable s) :
    s.processed ++ s.consumer.pending.map s.mem ++ s.ringBuffer.items.map s.mem ++
      s.reader.pending.map s.mem = s.received ∧ s.received.Nodup ∧
    (∀ p ∈ s.processed, s.freed.count p = 1) ∧ s.reader.pc ≠ .unableToEnqueue := by
  have hi := inv_reachable hs
  refine ⟨?_, hi.nodup_received, fun p hp => hi.count_freed hp, hi.enqueuing⟩
  have hflow := hi.flow
  simpa [State.line] using hflow

theorem reader_consumer_fifo_one_packet : ∃ s : State ℕ (Port (Fin 2) ℕ),
    s.processed ≠ [] ∧ (∀ p ∈ s.processed, s.freed.count p = 1) ∧
      s.reader.pc ≠ .unableToEnqueue := by
  obtain ⟨s, hs, -, -, hne⟩ := exists_round (reachable_start fun _ => ⟨0, 0⟩) ⟨rfl, rfl, rfl, rfl⟩
    (by simp [start, port0]) usable_port0
  exact ⟨s, hne, (reader_consumer_fifo (system_of_portSystem hs)).2.2⟩

end DpdkTutorials.Processing

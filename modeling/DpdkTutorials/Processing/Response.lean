import DpdkTutorials.Processing.Ending

/-!
# What the consumer of `3-processing-a-packet` gets done

`reader_consumer_fifo` says in which order packets are processed, but not that
they are. As long as no signal comes, both routines go round their loops for
ever. The reader enqueues what it has received before it looks for more, and the
consumer spends two steps on each packet and three on each burst of 32 that it
dequeues. Neither can be held up by the other, only by not being run.

* `consumerStep_work`: a step of the consumer brings each packet that is already
  in its array or in the ring closer to being processed.
* `processed_within`: the steps of the consumer until such a packet is processed,
  whatever the reader does in between.
* `received_processed`: a run that is fair to both routines processes everything.
-/

namespace DpdkTutorials.Processing

open DpdkTutorials.Common DpdkTutorials.Dpdk

universe u v w

/-! ## Specification -/

section Specification

variable {β : Type v} {ε : Type w}

/-- The buffers in the consumer's array and in the ring. -/
def State.queue (s : State β ε) : List β := s.consumer.pending ++ s.ringBuffer.items

/-- The packets that the reader has passed on, processed or not. -/
def State.passedOn (s : State β ε) : List Packet := s.processed ++ s.queue.map s.mem

/-- The steps of the consumer's round that are behind it. -/
def ConsumerPc.behind : ConsumerPc → ℕ
  | .whileTest | .free => 1
  | .dequeue => 2
  | .forLoop | .returned => 0

/-- The steps of the consumer until `target` packets are processed: two for each
    packet, and three for each burst that it has to dequeue for them. -/
def State.work (target : ℕ) (s : State β ε) : ℕ :=
  2 * (target - s.processed.length) +
    3 * ((target - s.processed.length - s.consumer.pending.length + 31) / 32) -
    s.consumer.pc.behind

/-- The state of the program as long as no signal has come. -/
structure Running (E : Environment β ε) (s : State β ε) : Prop where
  inv : Inv E s
  exit : s.exitIndicator = false
  reader : s.reader.pc ≠ .returned
  consumer : s.consumer.pc ≠ .returned

end Specification

section Steps

variable {β : Type v} {ε : Type w} {E : Environment β ε} {s t : State β ε}

theorem Running.readerStep (hs : Running E s) (h : ReaderStep E s t) : Running E t := by
  refine ⟨inv_step hs.inv (.reader h), (readerStep_exitIndicator h).trans hs.exit, ?_, ?_⟩
  · cases h with
    | exit _ hexit =>
      rw [hs.exit] at hexit
      contradiction
    | burst =>
      simp only
      split_ifs <;> simp
    | enqueue _ hr => simp [hr]
    | enter | full | drop | done => simp
  · rw [(readerStep_consumer h).1]
    exact hs.consumer

theorem Running.consumerStep (hs : Running E s) (h : ConsumerStep E s t) : Running E t := by
  obtain ⟨hreader, hindicator⟩ := consumerStep_frame h
  refine ⟨inv_step hs.inv (.consumer h), hindicator.trans hs.exit, ?_, ?_⟩
  · rw [hreader]
    exact hs.reader
  · cases h with
    | exit _ hexit =>
      rw [hs.exit] at hexit
      contradiction
    | dequeue =>
      simp only
      split_ifs <;> simp
    | enter | print | free | done => simp

/-! ## Passed on -/

theorem Inv.passedOn_append (hi : Inv E s) :
    s.passedOn ++ s.reader.pending.map s.mem = s.received := by
  rw [← hi.flow]
  simp [State.passedOn, State.queue, State.line]

theorem Inv.passedOn_prefix (hi : Inv E s) : s.passedOn <+: s.received :=
  ⟨_, hi.passedOn_append⟩

theorem Inv.processed_prefix (hi : Inv E s) : s.processed <+: s.received := ⟨_, hi.flow⟩

theorem readerStep_received (h : ReaderStep E s t) : s.received <+: t.received := by
  cases h with
  | burst => exact List.prefix_append _ _
  | _ => exact List.prefix_rfl

theorem consumerStep_received (h : ConsumerStep E s t) : t.received = s.received := by
  cases h with
  | _ => rfl

theorem length_passedOn (s : State β ε) :
    s.passedOn.length =
      s.processed.length + (s.consumer.pending.length + s.ringBuffer.items.length) := by
  simp [State.passedOn, State.queue]

/-- The reader passes on a packet in each step, as long as it has any. -/
theorem readerStep_passedOn (h : ReaderStep E s t) (hi : Inv E s) :
    s.passedOn.length ≤ t.passedOn.length ∧
      (s.reader.pending ≠ [] → s.passedOn.length < t.passedOn.length) := by
  obtain ⟨hconsumer, hprocessed⟩ := readerStep_consumer h
  rw [length_passedOn, length_passedOn, hconsumer, hprocessed]
  cases h with
  | enqueue _ _ _ henq =>
    rw [Ring.items_of_enqueue henq, List.length_append, List.length_singleton]
    exact ⟨by omega, fun _ => by omega⟩
  | exit hr | enter hr | burst hr => exact ⟨le_rfl, fun hne => by simp [Reader.pending, hr] at hne⟩
  | full _ hr _ henq =>
    have hnil := hi.not_full ((Ring.enqueue_eq_none_iff _ _).mp henq)
    exact ⟨le_rfl, fun hne => absurd hnil hne⟩
  | drop _ hr => exact absurd hr hi.enqueuing
  | done hr hlt =>
    refine ⟨le_rfl, fun hne => ?_⟩
    rw [hi.reader.count] at hlt
    simp only [Reader.pending, hr, ne_eq, List.drop_eq_nil_iff] at hne
    omega

/-! ## Processed -/

/-- The consumer's steps pass nothing on and lose nothing. -/
theorem consumerStep_passedOn (h : ConsumerStep E s t) (hi : Inv E s) :
    t.passedOn.length = s.passedOn.length := by
  have hflow := congrArg List.length hi.passedOn_append
  have hflow' := congrArg List.length (inv_step hi (.consumer h)).passedOn_append
  rw [consumerStep_received h, (consumerStep_frame h).1, List.length_append,
    List.length_map] at hflow'
  rw [List.length_append, List.length_map] at hflow
  omega

theorem consumerStep_work {target : ℕ} (h : PromptStep E s t) (hs : Running E s)
    (htarget : target ≤ s.passedOn.length) (hlt : s.processed.length < target) :
    t.work target < s.work target := by
  obtain ⟨hstep, hprompt⟩ := h
  rw [length_passedOn] at htarget
  cases hstep with
  | exit _ hexit =>
    rw [hs.exit] at hexit
    contradiction
  | enter hc =>
    simp only [State.work, Consumer.pending, ConsumerPc.behind, hc, List.length_nil]
    omega
  | @dequeue bs r' k hc hk hd =>
    have hlen := length_of_dequeueBurst hk hd
    have hsplit := congrArg List.length (Ring.dequeueBurst_append s.ringBuffer k)
    simp only [hd, List.length_append] at hsplit
    have hrest := congrArg List.length (hprompt hc)
    simp only [List.length_drop] at hrest
    simp only [State.work, Consumer.pending, ConsumerPc.behind, hc, List.length_nil,
      (length_burst_mod hlen).2] at htarget ⊢
    unfold maxBurst at *
    rw [if_neg (by omega)]
    simp only [List.drop_zero]
    omega
  | print hc hi =>
    simp only [State.work, Consumer.pending, ConsumerPc.behind, hc]
    omega
  | free hi hc =>
    simp only [State.work, Consumer.pending, ConsumerPc.behind, hc, hs.inv.consumer.next hi,
      List.length_append, List.length_singleton, List.length_drop]
    omega
  | done hc hi =>
    have hcount := hs.inv.consumer.count
    simp only [State.work, Consumer.pending, ConsumerPc.behind, hc, List.length_drop,
      List.length_nil]
    omega

/-- Packets `ps` that have been received, in a program without a signal. -/
structure Awaiting (E : Environment β ε) (ps : List Packet) (s : State β ε) : Prop where
  running : Running E s
  received : ps <+: s.received

theorem Awaiting.readerStep {ps : List Packet} (hs : Awaiting E ps s) (h : ReaderStep E s t) :
    Awaiting E ps t :=
  ⟨hs.running.readerStep h, hs.received.trans (readerStep_received h)⟩

theorem Awaiting.consumerStep {ps : List Packet} (hs : Awaiting E ps s)
    (h : ConsumerStep E s t) : Awaiting E ps t :=
  ⟨hs.running.consumerStep h, by rw [consumerStep_received h]; exact hs.received⟩

/-- The packets are processed in order, so it is enough to count them. -/
theorem Awaiting.prefix_processed {ps : List Packet} (hs : Awaiting E ps s)
    (hlen : ps.length ≤ s.processed.length) : ps <+: s.processed :=
  List.prefix_of_prefix_length_le hs.received hs.running.inv.processed_prefix hlen

end Steps

/-! ## Without a signal -/

section Progress

variable {ι : Type u} {β : Type v} [DecidableEq ι] [Fintype ι] {L : Lcores ι}
  {s : State β (Port ι β)}

theorem running_reachable (hs : (portSystem L).Reachable s) (hexit : s.exitIndicator = false) :
    Running (environment L) s := by
  revert hexit
  refine hs.invariant (P := fun s => s.exitIndicator = false → Running (environment L) s) ?_ ?_
  · rintro _ ⟨e, mem, rfl, he⟩ hexit
    exact ⟨inv_start mem he.nodup he.total, rfl, by simp [start], by simp [start]⟩
  · intro s t _ ih hstep hexit
    cases hstep with
    | reader h => exact (ih ((readerStep_exitIndicator h).symm.trans hexit)).readerStep h
    | consumer h => exact (ih ((consumerStep_frame h).2.symm.trans hexit)).consumerStep h
    | terminate => contradiction

/-- The reader passes on what it has received before it does anything else. -/
theorem passedOn_within (hs : Running (environment L) s) :
    RespondsWithin (ReaderStep (environment L)) (PromptStep (environment L))
      (fun t => s.received.length ≤ t.passedOn.length) s.reader.pending.length s := by
  apply EndsWithin.of_rank (Awaiting (environment L) s.received)
    fun t => s.received.length - t.passedOn.length
  · rintro t u ht ⟨hstep, hnot⟩
    refine ⟨ht.readerStep hstep, ?_⟩
    have hpending : t.reader.pending ≠ [] := by
      intro hnil
      have hall := ht.running.inv.passedOn_append
      rw [hnil, List.map_nil, List.append_nil] at hall
      exact hnot (ht.received.length_le.trans_eq (congrArg List.length hall.symm))
    have hlt := (readerStep_passedOn hstep ht.running.inv).2 hpending
    omega
  · rintro t u ht ⟨hstep, -⟩
    refine ⟨ht.consumerStep hstep, ?_⟩
    rw [consumerStep_passedOn hstep ht.running.inv]
  · intro t ht hnot
    obtain ⟨u, hu⟩ := exists_readerStep ht.running.inv ht.running.reader
    exact ⟨u, hu, hnot⟩
  · exact ⟨hs, List.prefix_rfl⟩
  · have hall := congrArg List.length hs.inv.passedOn_append
    rw [List.length_append, List.length_map] at hall
    omega

/-- The consumer processes what has been passed on to it. -/
theorem awaited_within {ps : List Packet} (hs : Awaiting (environment L) ps s)
    (hpassed : ps.length ≤ s.passedOn.length) :
    RespondsWithin (PromptStep (environment L)) (ReaderStep (environment L))
      (fun t => ps <+: t.processed) (s.work ps.length) s := by
  apply EndsWithin.of_rank
    (fun t => Awaiting (environment L) ps t ∧ ps.length ≤ t.passedOn.length)
    (State.work ps.length)
  · rintro t u ⟨ht, hpassed⟩ ⟨hstep, hnot⟩
    have hlt : t.processed.length < ps.length := by
      by_contra hle
      exact hnot (ht.prefix_processed (by omega))
    refine ⟨⟨ht.consumerStep hstep.1, ?_⟩, consumerStep_work hstep ht.running hpassed hlt⟩
    rwa [consumerStep_passedOn hstep.1 ht.running.inv]
  · rintro t u ⟨ht, hpassed⟩ hstep
    obtain ⟨hconsumer, hprocessed⟩ := readerStep_consumer hstep
    refine ⟨⟨ht.readerStep hstep, ?_⟩, ?_⟩
    · exact hpassed.trans (readerStep_passedOn hstep ht.running.inv).1
    · rw [State.work, State.work, hconsumer, hprocessed]
  · rintro t ⟨ht, -⟩ hnot
    obtain ⟨u, hu⟩ := exists_promptStep ht.running.inv ht.running.consumer
    exact ⟨u, hu, hnot⟩
  · exact ⟨hs, hpassed⟩
  · exact le_rfl

/-- Whatever the reader does in between, the packets in the consumer's array and
    in the ring are processed within two steps of the consumer for each packet and
    three for each burst that is still in the ring. -/
theorem processed_within (hs : (portSystem L).Reachable s) (hexit : s.exitIndicator = false) :
    RespondsWithin (PromptStep (environment L)) (ReaderStep (environment L))
      (fun t => s.passedOn <+: t.processed)
      (2 * s.queue.length + 3 * ((s.ringBuffer.items.length + 31) / 32)) s := by
  have hrunning := running_reachable hs hexit
  have hawaiting : Awaiting (environment L) s.passedOn s :=
    ⟨hrunning, hrunning.inv.passedOn_prefix⟩
  have hawaited := awaited_within hawaiting le_rfl
  refine ⟨fun hrun => (hawaited.le hrun).trans ?_, hawaited.progress⟩
  simp only [State.work, length_passedOn, State.queue, List.length_append]
  omega

/-- In a run that is fair to both routines and in which no signal comes, every
    packet that is ever received is processed. -/
theorem received_processed {run : ℕ → State β (Port ι β)}
    (hs : (portSystem L).Reachable (run 0)) (hexit : (run 0).exitIndicator = false)
    (hreader : FairRun (ReaderStep (environment L)) (PromptStep (environment L)) run)
    (hconsumer : FairRun (PromptStep (environment L)) (ReaderStep (environment L)) run) (k : ℕ) :
    ∃ m ≥ k, (run k).received <+: (run m).processed := by
  have hrunning := hreader.invariant (fun _ _ => Running.readerStep)
    (fun _ _ ht h => ht.consumerStep h.1) (running_reachable hs hexit)
  have hawaiting := (hreader.drop k).invariant (fun _ _ => Awaiting.readerStep)
    (fun _ _ ht h => ht.consumerStep h.1) ⟨hrunning k, List.prefix_rfl⟩
  obtain ⟨j, hj⟩ := (passedOn_within (hrunning k)).exists_of_fair (hreader.drop k)
  obtain ⟨m, hm⟩ := (awaited_within (hawaiting j) hj).exists_of_fair (hconsumer.drop (k + j))
  exact ⟨k + j + m, by omega, hm⟩

/-- There is such a run from every state without a signal. -/
theorem Running.exists_run (hs : Running (environment L) s) :
    ∃ run : ℕ → State β (Port ι β), run 0 = s ∧
      FairRun (ReaderStep (environment L)) (PromptStep (environment L)) run ∧
      FairRun (PromptStep (environment L)) (ReaderStep (environment L)) run := by
  refine exists_fairRun (I := Running (environment L)) (fun t ht => ?_) (fun t ht => ?_) hs
  · obtain ⟨u, hu⟩ := exists_readerStep ht.inv ht.reader
    exact ⟨u, hu, ht.readerStep hu⟩
  · obtain ⟨u, hu⟩ := exists_promptStep ht.inv ht.consumer
    exact ⟨u, hu, ht.consumerStep hu.1⟩

end Progress

/-! ## A packet in the ring -/

theorem exists_one_in_ring : ∃ s : State ℕ (Port (Fin 2) ℕ), (portSystem lcores01).Reachable s ∧
    s.exitIndicator = false ∧ s.processed = [] ∧ s.received.length = 1 ∧ s.queue.length = 1 ∧
      s.ringBuffer.items.length = 1 := by
  obtain ⟨b, env', mem', r', hs, hr'⟩ := exists_receive (reachable_start fun _ => ⟨0, 0⟩)
    ⟨rfl, rfl, rfl, rfl⟩ (by simp [start, port0]) usable_port0
  refine ⟨_, hs, rfl, rfl, rfl, ?_, ?_⟩
  · simp [State.queue, Consumer.pending, start, hr']
  · simp [hr']

theorem processed_within_one_packet : ∃ s : State ℕ (Port (Fin 2) ℕ), s.queue.length = 1 ∧
    RespondsWithin (PromptStep (environment lcores01)) (ReaderStep (environment lcores01))
      (fun t => s.passedOn <+: t.processed) 5 s := by
  obtain ⟨s, hs, hexit, -, -, hqueue, hring⟩ := exists_one_in_ring
  have hwithin := processed_within hs hexit
  rw [hqueue, hring] at hwithin
  exact ⟨s, hqueue, hwithin⟩

theorem received_processed_one_packet : ∃ run : ℕ → State ℕ (Port (Fin 2) ℕ),
    (run 0).processed = [] ∧ ∃ m, (run m).processed ≠ [] := by
  obtain ⟨s, hs, hexit, hnone, hone, -, -⟩ := exists_one_in_ring
  obtain ⟨run, rfl, hreader, hconsumer⟩ := (running_reachable hs hexit).exists_run
  obtain ⟨m, -, hm⟩ := received_processed hs hexit hreader hconsumer 0
  refine ⟨run, hnone, m, ?_⟩
  intro hnil
  rw [hnil, List.prefix_nil] at hm
  rw [hm] at hone
  contradiction

end DpdkTutorials.Processing

import DpdkTutorials.Processing.Fifo

/-!
# Shutdown of `3-processing-a-packet`

When `exit_indicator` is set both routines leave at their next loop test, and
main ends once both have returned: "Now we will wait for the packet processing
routine to finish before we exit our DPDK application" (main.cpp:278). The
consumer does not look at the ring before it leaves. What is in the ring then,
and what the reader still puts there, is neither processed nor freed.

* `lost_of_not_leavesNothing`: a step after which a packet is lost for good.
* `shutDownCleanly_iff`: a run ends with every packet freed iff the consumer
  left an empty ring behind and no packet arrived afterwards.
* `not_shutDownCleanly`: a packet that is received just before the signal.
-/

namespace DpdkTutorials.Processing

open DpdkTutorials.Common DpdkTutorials.Dpdk

universe v w

variable {β : Type v} {ε : Type w} {E : Environment β ε}

/-- Both routines have returned, and with them `rte_eal_wait_lcore`
    (main.cpp:276-279). -/
structure Terminated (s : State β ε) : Prop where
  reader : s.reader.pc = .returned
  consumer : s.consumer.pc = .returned

/-- Every packet received has been freed exactly once, and the ring is empty. -/
structure ShutDownCleanly (s : State β ε) : Prop where
  freed : ∀ p ∈ s.received, s.freed.count p = 1
  ring : s.ringBuffer.items = []

/-- The consumer leaves its loop when nothing is in the ring or on the way to
    it, and afterwards no packet is received. -/
structure LeavesNothing (s t : State β ε) : Prop where
  leaving : s.consumer.pc ≠ .returned → t.consumer.pc = .returned →
    s.ringBuffer.items = [] ∧ s.reader.pending = []
  left : s.consumer.pc = .returned → t.received = s.received

/-- The consumer has left with packets still on their way. -/
def Lost (s : State β ε) : Prop := s.consumer.pc = .returned ∧ s.line ≠ []

/-! ## After the consumer has left -/

theorem Terminated.line {s : State β ε} (h : Terminated s) : s.line = s.ringBuffer.items := by
  simp [State.line, Reader.pending, Consumer.pending, h.reader, h.consumer]

theorem readerStep_consumer {s t : State β ε} (h : ReaderStep E s t) :
    t.consumer = s.consumer ∧ t.processed = s.processed := by
  cases h with
  | _ => exact ⟨rfl, rfl⟩

/-- The consumer takes no step once it has returned. -/
theorem not_consumerStep {s t : State β ε} (h : s.consumer.pc = .returned) :
    ¬ ConsumerStep E s t := by
  intro hstep
  cases hstep with
  | exit hc | enter hc | dequeue _ hc | print hc | free _ hc | done hc =>
    rw [h] at hc
    contradiction

/-- Without the consumer the line only grows, by what is received. -/
theorem line_of_returned {s t : State β ε} (hi : Inv E s) (hpc : s.consumer.pc = .returned)
    (hstep : Step E s t) :
    t.consumer.pc = .returned ∧ ∃ bs, t.line = s.line ++ bs ∧
      t.received = s.received ++ bs.map t.mem := by
  cases hstep with
  | reader h =>
    obtain ⟨hconsumer, hprocessed⟩ := readerStep_consumer h
    refine ⟨by rw [hconsumer]; exact hpc, ?_⟩
    cases readerStep_effect h hi.reader hi.enqueuing with
    | quiet hq _ => exact ⟨[], by rw [hq.line, List.append_nil], by simp [hq.received]⟩
    | arrives bs ha _ => exact ⟨bs, ha.line, ha.received⟩
    | departs b hd _ =>
      have hlen := congrArg List.length (hd.processed.symm.trans hprocessed)
      rw [List.length_append, List.length_singleton] at hlen
      omega
    | full hfull hne => exact absurd (hi.not_full hfull) hne
  | consumer h => exact absurd h (not_consumerStep hpc)
  | terminate => exact ⟨hpc, [], (List.append_nil _).symm, (List.append_nil _).symm⟩

/-- What is lost stays lost. -/
theorem Lost.step {s t : State β ε} (hi : Inv E s) (hlost : Lost s) (hstep : Step E s t) :
    Lost t := by
  obtain ⟨hpc, bs, hline, -⟩ := line_of_returned hi hlost.1 hstep
  exact ⟨hpc, by rw [hline]; exact List.append_ne_nil_of_left_ne_nil hlost.2 bs⟩

theorem Lost.not_shutDownCleanly {s : State β ε} (hlost : Lost s) (hend : Terminated s) :
    ¬ ShutDownCleanly s := by
  intro h
  apply hlost.2
  rw [hend.line, h.ring]

/-! ## When the consumer leaves -/

/-- The consumer leaves at its loop test. -/
theorem step_of_leaving {s t : State β ε} (hstep : Step E s t) (hs : s.consumer.pc ≠ .returned)
    (ht : t.consumer.pc = .returned) :
    t.line = s.line ∧ s.line = s.ringBuffer.items ++ s.reader.pending := by
  cases hstep with
  | reader h =>
    rw [(readerStep_consumer h).1] at ht
    contradiction
  | consumer h =>
    cases h with
    | exit hc => exact ⟨by simp [State.line, Consumer.pending, hc],
        by simp [State.line, Consumer.pending, hc]⟩
    | dequeue k hc hk hd =>
      exfalso
      revert ht
      simp only
      split_ifs <;> simp
    | free hi hc hfree => simp at ht
    | enter hc | print hc | done hc => simp at ht
  | terminate => contradiction

/-- A step that leaves something behind loses it. -/
theorem lost_of_not_leavesNothing {s t : State β ε} (hi : Inv E s) (hstep : Step E s t)
    (hnot : ¬ LeavesNothing s t) : Lost t := by
  by_cases hpc : s.consumer.pc = .returned
  · obtain ⟨hpc', bs, hline, hreceived⟩ := line_of_returned hi hpc hstep
    refine ⟨hpc', ?_⟩
    intro hnil
    have hbs : bs = [] := (List.append_eq_nil_iff.mp (hline.symm.trans hnil)).2
    apply hnot
    exact ⟨fun h => absurd hpc h, fun _ => by rw [hreceived, hbs]; simp⟩
  · by_cases hpc' : t.consumer.pc = .returned
    · obtain ⟨hline, hsplit⟩ := step_of_leaving hstep hpc hpc'
      refine ⟨hpc', ?_⟩
      intro hnil
      rw [hline, hsplit] at hnil
      apply hnot
      exact ⟨fun _ _ => List.append_eq_nil_iff.mp hnil, fun h => absurd h hpc⟩
    · exfalso
      exact hnot ⟨fun _ h => absurd h hpc', fun h => absurd h hpc⟩

/-! ## Whole runs -/

/-- A run in which nothing is lost in the end met the condition throughout. -/
theorem guarded_or_lost {s : State β ε} (hs : (system E).Reachable s) :
    ((system E).guarded LeavesNothing).Reachable s ∨ Lost s := by
  refine System.Reachable.invariant (S := system E)
    (P := fun s => ((system E).guarded LeavesNothing).Reachable s ∨ Lost s)
    (fun s h => .inl (.of_init h)) ?_ hs
  intro s t hreach ih hstep
  have hi := inv_reachable hreach
  rcases ih with hguard | hlost
  · by_cases hleaves : LeavesNothing s t
    · exact .inl (hguard.step ⟨hstep, hleaves⟩)
    · exact .inr (lost_of_not_leavesNothing hi hstep hleaves)
  · exact .inr (hlost.step hi hstep)

theorem reachable_of_guarded {C : State β ε → State β ε → Prop} {s : State β ε}
    (hs : ((system E).guarded C).Reachable s) : (system E).Reachable s :=
  System.Reachable.mono (S := (system E).guarded C) (T := system E) (fun _ h => h)
    (fun _ _ h => h.1) hs

/-- In a run that meets the condition nothing is on its way once the consumer
    has left. -/
theorem line_of_guarded {s : State β ε} (hs : ((system E).guarded LeavesNothing).Reachable s) :
    s.consumer.pc = .returned → s.line = [] := by
  refine hs.invariant (P := fun s => s.consumer.pc = .returned → s.line = []) ?_ ?_
  · rintro _ ⟨e, mem, rfl, -⟩ hpc
    contradiction
  · rintro s t hreach ih ⟨hstep, hleaves⟩ hpc'
    by_cases hpc : s.consumer.pc = .returned
    · obtain ⟨-, bs, hline, hreceived⟩ :=
        line_of_returned (inv_reachable (reachable_of_guarded hreach)) hpc hstep
      rw [hleaves.left hpc, List.self_eq_append_right, List.map_eq_nil_iff] at hreceived
      rw [hline, ih hpc, hreceived, List.append_nil]
    · obtain ⟨hline, hsplit⟩ := step_of_leaving hstep hpc hpc'
      obtain ⟨hring, hpending⟩ := hleaves.leaving hpc hpc'
      rw [hline, hsplit, hring, hpending, List.append_nil]

theorem shutDownCleanly_of_line {s : State β ε} (hi : Inv E s) (hend : Terminated s)
    (hline : s.line = []) : ShutDownCleanly s := by
  have hflow := hi.flow
  rw [hline, List.map_nil, List.append_nil] at hflow
  refine ⟨fun p hp => hi.count_freed (by rw [hflow]; exact hp), ?_⟩
  rw [← hend.line, hline]

/-- When both routines have returned, every packet has been freed exactly if
    each step of the run met the condition. -/
theorem shutDownCleanly_iff {s : State β ε} (hs : (system E).Reachable s) (hend : Terminated s) :
    ShutDownCleanly s ↔ ((system E).guarded LeavesNothing).Reachable s := by
  constructor
  · intro h
    rcases guarded_or_lost hs with hguard | hlost
    · exact hguard
    · exact absurd h (hlost.not_shutDownCleanly hend)
  · intro h
    exact shutDownCleanly_of_line (inv_reachable hs) hend (line_of_guarded h hend.consumer)

/-! ## Two ends of the program -/

/-- The signal comes when both routines test `exit_indicator`. -/
theorem exists_terminated {L : Lcores (Fin 2)} {s : State ℕ (Port (Fin 2) ℕ)}
    (hs : (portSystem L).Reachable s) (hr : s.reader.pc = .whileTest)
    (hc : s.consumer.pc = .whileTest) :
    ∃ t, (portSystem L).Reachable t ∧ Terminated t ∧ t.processed = s.processed ∧
      t.ringBuffer = s.ringBuffer := by
  have hexit := hs.step .terminate
  have hreader := hexit.step (.reader (.exit hr rfl))
  exact ⟨_, hreader.step (.consumer (.exit hc rfl)), ⟨rfl, rfl⟩, rfl, rfl⟩

/-- One packet is received, processed and freed before the signal. -/
theorem shutDownCleanly_iff_one_packet : ∃ s : State ℕ (Port (Fin 2) ℕ),
    ((system (environment lcores01)).guarded LeavesNothing).Reachable s ∧ Terminated s ∧
      s.processed ≠ [] := by
  obtain ⟨s, hs, hidle, -, hne⟩ := exists_round (reachable_start fun _ => ⟨0, 0⟩)
    ⟨rfl, rfl, rfl, rfl⟩ (by simp [start, port0]) usable_port0
  obtain ⟨t, ht, hend, hprocessed, hring⟩ := exists_terminated hs hidle.reader hidle.consumer
  have hreach := system_of_portSystem ht
  have hline : t.line = [] := by rw [hend.line, hring, hidle.ring]
  have hclean := shutDownCleanly_of_line (inv_reachable hreach) hend hline
  exact ⟨t, (shutDownCleanly_iff hreach hend).mp hclean, hend, by rw [hprocessed]; exact hne⟩

/-- One packet is in the ring when the signal comes. -/
theorem not_shutDownCleanly : ¬ ∀ s : State ℕ (Port (Fin 2) ℕ),
    (portSystem lcores01).Reachable s → Terminated s → ShutDownCleanly s := by
  intro h
  obtain ⟨b, env', mem', r', hs, hitems⟩ := exists_receive (reachable_start fun _ => ⟨0, 0⟩)
    ⟨rfl, rfl, rfl, rfl⟩ (by simp [start, port0]) usable_port0
  obtain ⟨t, ht, hend, -, hring⟩ := exists_terminated hs rfl rfl
  have hempty := (h t ht hend).ring
  rw [hring, hitems] at hempty
  contradiction

end DpdkTutorials.Processing

import DpdkTutorials.Common.Termination
import DpdkTutorials.Processing.Shutdown

/-!
# The end of `3-processing-a-packet`

Both routines test `exit_indicator` once per burst. Main waits for the consumer
with `rte_eal_wait_lcore` before it ends (main.cpp:276-283), so the program ends
only if both routines return.

* `Reader.rank`, `Consumer.rank`: the steps that are left once the indicator is
  set. The receive queue may hand over one more burst.
* `routines_return`: both routines return, after at most 102 steps together.
-/

namespace DpdkTutorials.Processing

open DpdkTutorials.Common DpdkTutorials.Dpdk

universe u v w

/-! ## Specification -/

section Specification

variable {β : Type v} {ε : Type w}

/-- A step of one of the two routines. -/
def RoutineStep (E : Environment β ε) (s t : State β ε) : Prop :=
  ReaderStep E s t ∨ ConsumerStep E s t

/-- A step of the consumer. `rte_ring_dequeue_burst` hands over all objects that
    there are, up to 32. -/
def PromptStep (E : Environment β ε) (s t : State β ε) : Prop :=
  ConsumerStep E s t ∧
    (s.consumer.pc = .dequeue → t.ringBuffer.items = s.ringBuffer.items.drop maxBurst)

/-- The signal handler `terminate`. -/
def Signal (s t : State β ε) : Prop := t = { s with exitIndicator := true }

/-! ## The steps that are left -/

/-- An upper bound on the steps of the reader once the indicator is set. -/
def Reader.rank (r : Reader β) : ℕ :=
  match r.pc with
  | .returned => 0
  | .whileTest => 1
  | .forLoop | .unableToEnqueue => 2 + (r.rxPackets.length - r.i)
  | .rxBurst => 3 + maxBurst

/-- As `Reader.rank`; each packet takes two steps. -/
def Consumer.rank (c : Consumer β) : ℕ :=
  match c.pc with
  | .returned => 0
  | .whileTest => 1
  | .forLoop => 2 + 2 * (c.rxPackets.length - c.i)
  | .free => 1 + 2 * (c.rxPackets.length - c.i)
  | .dequeue => 3 + 2 * maxBurst

theorem Reader.Wf.rank_le {r : Reader β} (hw : r.Wf) : r.rank ≤ 35 := by
  have hshort : r.rxPackets.length ≤ 32 := hw.short
  unfold Reader.rank maxBurst
  split <;> omega

theorem Consumer.Wf.rank_le {c : Consumer β} (hw : c.Wf) : c.rank ≤ 67 := by
  have hshort : c.rxPackets.length ≤ 32 := hw.short
  unfold Consumer.rank maxBurst
  split <;> omega

end Specification

section Steps

variable {β : Type v} {ε : Type w} {E : Environment β ε} {s t : State β ε}

theorem readerStep_rank (h : ReaderStep E s t) (hi : Inv E s) (hexit : s.exitIndicator = true) :
    t.reader.rank < s.reader.rank := by
  cases h with
  | exit hr => simp [Reader.rank, hr]
  | enter _ hrun => rw [hexit] at hrun; contradiction
  | burst hr _ hlen =>
    simp only [Reader.rank, hr]
    split_ifs
    · simp [maxBurst]
    · simp only
      omega
  | enqueue hlt hr =>
    simp only [Reader.rank, hr, hi.reader.next hlt]
    omega
  | full hlt hr _ henq =>
    -- The ring is never full.
    have hnil := hi.not_full ((Ring.enqueue_eq_none_iff _ _).mp henq)
    simp only [Reader.pending, hr, List.drop_eq_nil_iff] at hnil
    omega
  | drop _ hr => exact absurd hr hi.enqueuing
  | done hr =>
    simp only [Reader.rank, hr]
    omega

theorem consumerStep_rank (h : ConsumerStep E s t) (hi : Inv E s)
    (hexit : s.exitIndicator = true) : t.consumer.rank < s.consumer.rank := by
  cases h with
  | exit hc => simp [Consumer.rank, hc]
  | enter _ hrun => rw [hexit] at hrun; contradiction
  | dequeue k hc hk hd =>
    have hlen := length_of_dequeueBurst hk hd
    simp only [Consumer.rank, hc]
    split_ifs
    · simp [maxBurst]
    · simp only
      omega
  | print hc hlt => simp [Consumer.rank, hc]
  | free hlt hc =>
    simp only [Consumer.rank, hc, hi.consumer.next hlt]
    omega
  | done hc =>
    simp only [Consumer.rank, hc]
    omega

theorem readerStep_exitIndicator (h : ReaderStep E s t) : t.exitIndicator = s.exitIndicator := by
  cases h with
  | _ => rfl

theorem consumerStep_frame (h : ConsumerStep E s t) :
    t.reader = s.reader ∧ t.exitIndicator = s.exitIndicator := by
  cases h with
  | _ => exact ⟨rfl, rfl⟩

/-- What holds of the states after the signal. -/
structure Stopping (E : Environment β ε) (s : State β ε) : Prop where
  inv : Inv E s
  exit : s.exitIndicator = true

theorem stopping_routineStep (hs : Stopping E s) (h : RoutineStep E s t) :
    Stopping E t ∧ t.reader.rank + t.consumer.rank < s.reader.rank + s.consumer.rank := by
  rcases h with h | h
  · have hconsumer := (readerStep_consumer h).1
    have hexit := readerStep_exitIndicator h
    have hlt := readerStep_rank h hs.inv hs.exit
    refine ⟨⟨inv_step hs.inv (.reader h), hexit.trans hs.exit⟩, ?_⟩
    rw [hconsumer]
    omega
  · obtain ⟨hreader, hexit⟩ := consumerStep_frame h
    have hlt := consumerStep_rank h hs.inv hs.exit
    refine ⟨⟨inv_step hs.inv (.consumer h), hexit.trans hs.exit⟩, ?_⟩
    rw [hreader]
    omega

theorem stopping_signal (hs : Stopping E s) (h : Signal s t) :
    Stopping E t ∧ t.reader.rank + t.consumer.rank ≤ s.reader.rank + s.consumer.rank := by
  subst h
  exact ⟨⟨inv_step hs.inv .terminate, rfl⟩, le_rfl⟩

end Steps

/-! ## Progress -/

section Progress

variable {ι : Type u} {β : Type v} [DecidableEq ι] [Fintype ι] {L : Lcores ι}
  {s : State β (Port ι β)}

/-- The reader is never stuck. Frees always succeed, and a burst may be empty. -/
theorem exists_readerStep (hi : Inv (environment L) s) (hpc : s.reader.pc ≠ .returned) :
    ∃ t, ReaderStep (environment L) s t := by
  cases hr : s.reader.pc with
  | whileTest =>
    cases hexit : s.exitIndicator with
    | true => exact ⟨_, .exit hr hexit⟩
    | false => exact ⟨_, .enter hr hexit⟩
  | rxBurst =>
    have hnone : (environment L).rxBurst s.env [] s.env := RxBurst.nil
    have hmem : ∀ b, b ∉ (environment L).held s.env → s.mem b = s.mem b := fun _ _ => rfl
    exact ⟨_, .burst hr hnone (Nat.zero_le _) hmem rfl rfl⟩
  | forLoop =>
    by_cases hlt : s.reader.i < s.reader.rxCount
    · have hin : s.reader.i < s.reader.rxPackets.length := hi.reader.count ▸ hlt
      cases henq : s.ringBuffer.enqueue s.reader.rxPackets[s.reader.i] with
      | some r' => exact ⟨_, .enqueue hin hr hlt henq⟩
      | none => exact ⟨_, .full hin hr hlt henq⟩
    · exact ⟨_, .done hr hlt⟩
  | unableToEnqueue => exact absurd hr hi.enqueuing
  | returned => exact absurd hr hpc

theorem exists_promptStep (hi : Inv (environment L) s) (hpc : s.consumer.pc ≠ .returned) :
    ∃ t, PromptStep (environment L) s t := by
  cases hc : s.consumer.pc with
  | whileTest =>
    cases hexit : s.exitIndicator with
    | true => exact ⟨_, .exit hc hexit, by simp [hc]⟩
    | false => exact ⟨_, .enter hc hexit, by simp [hc]⟩
  | dequeue => exact ⟨_, .dequeue maxBurst hc le_rfl rfl, fun _ => rfl⟩
  | forLoop =>
    by_cases hlt : s.consumer.i < s.consumer.rxCount
    · exact ⟨_, .print hc hlt, by simp [hc]⟩
    · exact ⟨_, .done hc hlt, by simp [hc]⟩
  | free =>
    have hin := hi.consumer.freeing hc
    obtain ⟨pool', hput⟩ := CachedPool.exists_put L.consumer s.env.pool
      s.consumer.rxPackets[s.consumer.i] (by decide)
    have hfree : (environment L).free .consumer s.env s.consumer.rxPackets[s.consumer.i]
        ⟨pool', s.env.rxQueue⟩ := ⟨hput, rfl⟩
    exact ⟨_, .free hin hc hfree, by simp [hc]⟩
  | returned => exact absurd hc hpc

theorem stopping_progress (hs : Stopping (environment L) s) (hnot : ¬ Terminated s) :
    ∃ t, RoutineStep (environment L) s t := by
  by_cases hr : s.reader.pc = .returned
  · obtain ⟨t, ht, -⟩ := exists_promptStep hs.inv fun hc => hnot ⟨hr, hc⟩
    exact ⟨t, .inr ht⟩
  · obtain ⟨t, ht⟩ := exists_readerStep hs.inv hr
    exact ⟨t, .inl ht⟩

/-- Wherever the two routines are when the signal comes, and however they are
    interleaved from then on: they take at most 102 steps together, one of them can
    always go on until both have returned, and in a fair run both return. -/
theorem routines_return (hs : (portSystem L).Reachable s) (hexit : s.exitIndicator = true) :
    EndsWithin (RoutineStep (environment L)) Signal Terminated 102 s ∧
      ∀ run : ℕ → State β (Port ι β), run 0 = s →
        FairRun (RoutineStep (environment L)) Signal run → ∃ k, Terminated (run k) := by
  have hinv := inv_reachable (system_of_portSystem hs)
  have hends : EndsWithin (RoutineStep (environment L)) Signal Terminated 102 s := by
    apply EndsWithin.of_rank (Stopping (environment L))
      (fun s => s.reader.rank + s.consumer.rank)
    · exact fun _ _ => stopping_routineStep
    · exact fun _ _ => stopping_signal
    · exact fun _ => stopping_progress
    · exact ⟨hinv, hexit⟩
    · have := hinv.reader.rank_le
      have := hinv.consumer.rank_le
      omega
  refine ⟨hends, ?_⟩
  rintro run rfl hfair
  exact hends.exists_of_fair hfair

end Progress

/-- The signal comes when the reader has passed the first packet on. -/
theorem routines_return_one_packet : ∃ s : State ℕ (Port (Fin 2) ℕ),
    s.received.length = 1 ∧ s.ringBuffer.items.length = 1 ∧ s.exitIndicator = true ∧
      EndsWithin (RoutineStep (environment lcores01)) Signal Terminated 102 s := by
  obtain ⟨b, env', mem', r', hs, hitems⟩ := exists_receive (reachable_start fun _ => ⟨0, 0⟩)
    ⟨rfl, rfl, rfl, rfl⟩ (by decide) usable_port0
  exact ⟨_, rfl, congrArg List.length hitems, rfl, (routines_return (hs.step .terminate) rfl).1⟩

end DpdkTutorials.Processing

import DpdkTutorials.Common.Termination
import DpdkTutorials.Sending.Ownership

/-!
# The end of the single-packet senders

The transmit loops of the programs 2, 4, 5 and 7 call nothing that waits for
the driver. Once `exit_indicator` is set a loop finishes its iteration and ends,
and then the program holds no buffer.

* `Pc.rank`: the steps that are left.
* `loop_ends`: the loop ends after at most 7 of its own steps, whatever the
  driver, the telemetry thread and further signals do, with empty hands.
-/

namespace DpdkTutorials.Sending

open DpdkTutorials.Common DpdkTutorials.Dpdk

universe u v w

variable {ι : Type u} {β : Type v} {ε : Type w}

/-- The loop has ended, and the program holds no buffer. -/
structure Ended (s : State β ε) : Prop where
  returned : s.pc = .returned
  hand : s.hand = 0

/-- The steps of the loop that are left once the indicator is set. -/
def Pc.rank : Pc → ℕ
  | .returned => 0
  | .whileTest => 1
  | .sleep => 2
  | .store | .free => 3
  | .count => 4
  | .burst => 5
  | .fill => 6
  | .get => 7

theorem Pc.rank_le (pc : Pc) : pc.rank ≤ 7 := by
  cases pc <;> decide

variable [DecidableEq β]

/-- A step of the driver, of the telemetry thread or of the signal handler. -/
def OtherStep (P : Mempool ι β ε) (prog : Sender) (l : ι) (s t : State β ε) : Prop :=
  Step P prog l s t ∧ ¬ LoopStep P prog l s t

variable {P : Mempool ι β ε} {prog : Sender} {l : ι} {all : Multiset β} {s t : State β ε}

/-- What the loop goes by does not change outside of it. -/
theorem OtherStep.frame (h : OtherStep P prog l s t) :
    t.pc = s.pc ∧ t.packet = s.packet ∧ (s.exitIndicator = true → t.exitIndicator = true) := by
  obtain ⟨hstep, hnot⟩ := h
  cases hstep with
  | loop hloop => exact absurd hloop hnot
  | complete _ _ _ _ => exact ⟨rfl, rfl, id⟩
  | telemetry _ => exact ⟨rfl, rfl, id⟩
  | terminate => exact ⟨rfl, rfl, fun _ => rfl⟩

/-- Where the loop uses `packet` it is not null. -/
def HasPacket (s : State β ε) : Prop := s.pc.holds = true → ∃ b, s.packet = some b

theorem HasPacket.loopStep (h : HasPacket s) (hstep : LoopStep P prog l s t) : HasPacket t := by
  intro hholds
  cases hstep with
  | get hpc hget => exact ⟨_, rfl⟩
  | fill hpc hb => exact ⟨_, hb⟩
  | reject hpc => exact h (by rw [hpc]; rfl)
  | count hpc =>
    exfalso
    revert hholds
    simp only
    split_ifs <;> simp [Pc.holds]
  | _ => exact absurd hholds (by simp [Pc.holds])

/-- What holds of the states after the signal. -/
structure Stopping (P : Mempool ι β ε) (all : Multiset β) (s : State β ε) : Prop where
  owned : Owned P all s
  packet : HasPacket s
  exit : s.exitIndicator = true

theorem Stopping.loopStep (h : Stopping P all s) (hstep : LoopStep P prog l s t) :
    Stopping P all t ∧ t.pc.rank < s.pc.rank := by
  have hexit : t.exitIndicator = s.exitIndicator := by
    cases hstep with
    | _ => rfl
  refine ⟨⟨h.owned.loopStep hstep, h.packet.loopStep hstep, hexit.trans h.exit⟩, ?_⟩
  cases hstep with
  | enter _ hrun =>
    rw [h.exit] at hrun
    contradiction
  | count hpc =>
    simp only [hpc]
    split_ifs <;> decide
  | exit hpc | get hpc | getFailed hpc | fill hpc | accept hpc | reject hpc | free hpc
  | store hpc | sleep hpc =>
    simp [hpc, Pc.rank]

theorem Stopping.otherStep (h : Stopping P all s) (hstep : OtherStep P prog l s t) :
    Stopping P all t ∧ t.pc.rank ≤ s.pc.rank := by
  obtain ⟨hpc, hpacket, hexit⟩ := hstep.frame
  refine ⟨⟨h.owned.step hstep.1, ?_, hexit h.exit⟩, by rw [hpc]⟩
  unfold HasPacket
  rw [hpc, hpacket]
  exact h.packet

/-! ## Whole runs -/

theorem hasPacket_of_run {s₀ : State β ε} (hinit : (system P prog l).init s₀)
    (hrun : Relation.ReflTransGen (Step P prog l) s₀ s) : HasPacket s := by
  induction hrun with
  | refl =>
    obtain ⟨bufs, driver, -, rfl⟩ := hinit
    intro hholds
    contradiction
  | @tail s t _ hstep ih =>
    by_cases hloop : LoopStep P prog l s t
    · exact ih.loopStep hloop
    · obtain ⟨hpc, hpacket, -⟩ := OtherStep.frame ⟨hstep, hloop⟩
      unfold HasPacket
      rw [hpc, hpacket]
      exact ih

section Cached

variable {ι : Type} [DecidableEq ι] [Fintype ι] {cacheSize : ℕ} {l : ι}
  {s₀ s : State β (CachedPool ι β cacheSize)}

/-- The loop is never stuck: an allocation or a burst may fail, and a free
    always succeeds. -/
theorem Stopping.exists_loopStep (h : Stopping (CachedPool.mempool ι β cacheSize) all s)
    (hsize : 1 ≤ flushThreshold cacheSize) (hnot : ¬ Ended s) :
    ∃ t, LoopStep (CachedPool.mempool ι β cacheSize) prog l s t := by
  cases hpc : s.pc with
  | whileTest => exact ⟨_, .exit hpc h.exit⟩
  | get => exact ⟨_, .getFailed hpc⟩
  | fill =>
    obtain ⟨b, hb⟩ := h.packet (by rw [hpc]; rfl)
    exact ⟨_, .fill hpc hb⟩
  | burst => exact ⟨_, .reject hpc⟩
  | free =>
    obtain ⟨b, hb⟩ := h.packet (by rw [hpc]; rfl)
    obtain ⟨e, hfree⟩ := Pktmbufs.exists_free l s.bufs b hsize
    exact ⟨_, .free hpc hb hfree⟩
  | count => exact ⟨_, .count hpc⟩
  | store => exact ⟨_, .store hpc⟩
  | sleep => exact ⟨_, .sleep hpc⟩
  | returned => exact absurd ⟨hpc, h.owned.hand_eq_zero (by rw [hpc]; rfl)⟩ hnot

/-- In every run of a sender: from when the indicator is set the loop takes at most
    7 steps, can always go on until it has ended, and ends in every fair run,
    holding no buffer. -/
theorem loop_ends (hsize : 1 ≤ flushThreshold cacheSize)
    (hs : (system (CachedPool.mempool ι β cacheSize) prog l).Reachable s)
    (hexit : s.exitIndicator = true) :
    EndsWithin (LoopStep (CachedPool.mempool ι β cacheSize) prog l)
        (OtherStep (CachedPool.mempool ι β cacheSize) prog l) Ended 7 s ∧
      ∀ run : ℕ → State β (CachedPool ι β cacheSize), run 0 = s →
        FairRun (LoopStep (CachedPool.mempool ι β cacheSize) prog l)
          (OtherStep (CachedPool.mempool ι β cacheSize) prog l) run → ∃ k, Ended (run k) := by
  obtain ⟨s₀, hinit, hrun⟩ := hs
  have hends : EndsWithin (LoopStep (CachedPool.mempool ι β cacheSize) prog l)
      (OtherStep (CachedPool.mempool ι β cacheSize) prog l) Ended 7 s := by
    apply EndsWithin.of_rank
      (Stopping (CachedPool.mempool ι β cacheSize)
        (buffers (CachedPool.mempool ι β cacheSize) s₀)) (fun s => s.pc.rank)
    · exact fun _ _ h => h.loopStep
    · exact fun _ _ h => h.otherStep
    · exact fun _ h => h.exists_loopStep hsize
    · exact ⟨(inv_of_run hinit hrun).1, hasPacket_of_run hinit hrun, hexit⟩
    · exact s.pc.rank_le
  refine ⟨hends, ?_⟩
  rintro run rfl hfair
  exact hends.exists_of_fair hfair

end Cached

/-- Program 7 gets the signal between two iterations, after a packet has been sent. -/
theorem loop_ends_after_packet :
    ∃ s : State ℕ (CachedPool (Fin 1) ℕ 512), s.accepted.length = 1 ∧
      EndsWithin (LoopStep (CachedPool.mempool (Fin 1) ℕ 512) program7 0)
        (OtherStep (CachedPool.mempool (Fin 1) ℕ 512) program7 0) Ended 7 s := by
  obtain ⟨s, hs, hlen⟩ := exists_accepted 1
  refine ⟨{ s with exitIndicator := true }, hlen, ?_⟩
  exact (loop_ends (by decide) (hs.reachable.step .terminate) rfl).1

end DpdkTutorials.Sending

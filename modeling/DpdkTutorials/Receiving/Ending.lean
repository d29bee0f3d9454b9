import DpdkTutorials.Common.Termination
import DpdkTutorials.Receiving.Ownership

/-!
# The end of the receiving loops

Each routine tests `exit_indicator` once per burst. Main waits for the other
routine before it ends (6-receive-side-scaling/main.cpp:248-255).

* `Poller.rank`: the steps that are left once the indicator is set.
* `pollers_return`: all routines return.
-/

namespace DpdkTutorials.Receiving

open DpdkTutorials.Common DpdkTutorials.Dpdk
open DpdkTutorials.Processing (RxBurst)

universe u v w

variable {ι : Type u} {κ : Type w} {β : Type v} {S : Setup ι κ} {s t : State ι κ β}

/-- A step of one of the routines. -/
def RoutineStep [Fintype ι] [DecidableEq κ] (S : Setup ι κ) (s t : State ι κ β) : Prop :=
  ∃ k, PollerStep S.report (S.lcore k) (S.queue k) k s t

/-- The signal handler `terminate`. -/
def Signal (s t : State ι κ β) : Prop := t = { s with exitIndicator := true }

/-- All routines have returned. -/
def Terminated (s : State ι κ β) : Prop := ∀ k, (s.poller k).pc = .returned

/-- An upper bound on the steps of a routine once the indicator is set. -/
def Poller.rank (p : Poller β) : ℕ :=
  match p.pc with
  | .returned => 0
  | .whileTest => 1
  | .freeBulk => 2
  | .print => 3 + (p.rxPackets.length - p.i)
  | .rxBurst => 4 + maxBurst

theorem Poller.Wf.rank_le {p : Poller β} (hw : p.Wf) : p.rank ≤ 36 := by
  have hshort : p.rxPackets.length ≤ 32 := hw.short
  unfold Poller.rank maxBurst
  split <;> omega

section Steps

variable [Fintype ι] [DecidableEq κ]

theorem pollerStep_rank {k : κ} {lcore : ι} {queue : UInt16} {report : Report}
    (h : PollerStep report lcore queue k s t) (hw : (s.poller k).Wf)
    (hexit : s.exitIndicator = true) : (t.poller k).rank < (s.poller k).rank := by
  cases h with
  | exit hpc => simp [State.goTo, Poller.rank, hpc]
  | enter _ hrun => rw [hexit] at hrun; contradiction
  | burst hpc _ hlen =>
    simp only [Function.update_self, Poller.rank, hpc]
    split_ifs
    · simp [maxBurst]
    · simp only
      omega
  | printLength hi _ hpc =>
    simp only [Function.update_self, Poller.rank, hpc, hw.next hi]
    omega
  | printed _ hpc =>
    simp only [State.goTo, Function.update_self, Poller.rank, hpc]
    omega
  | printCount _ hpc =>
    simp only [Function.update_self, Poller.rank, hpc]
    omega
  | freeBulk hpc => simp [Poller.rank, hpc]

theorem pollerStep_exitIndicator {k : κ} {lcore : ι} {queue : UInt16} {report : Report}
    (h : PollerStep report lcore queue k s t) : t.exitIndicator = s.exitIndicator := by
  cases h with
  | _ => rfl

end Steps

/-- What holds of the states after the signal. -/
structure Stopping [Fintype ι] [Fintype κ] (S : Setup ι κ) (s : State ι κ β) : Prop where
  inv : Inv S s
  exit : s.exitIndicator = true

theorem stopping_signal [Fintype ι] [Fintype κ] (hs : Stopping S s) (h : Signal s t) :
    Stopping S t ∧ ∑ k, (t.poller k).rank ≤ ∑ k, (s.poller k).rank := by
  subst h
  exact ⟨⟨inv_quiet hs.inv hs.inv.wf ⟨rfl, rfl, rfl, rfl, rfl, rfl⟩, rfl⟩, le_rfl⟩

variable [DecidableEq ι] [Fintype ι] [DecidableEq κ] [Fintype κ]

theorem stopping_routineStep (hs : Stopping S s) (h : RoutineStep S s t) :
    Stopping S t ∧ ∑ k, (t.poller k).rank < ∑ k, (s.poller k).rank := by
  obtain ⟨k, h⟩ := h
  refine ⟨⟨inv_pollerStep hs.inv h, (pollerStep_exitIndicator h).trans hs.exit⟩, ?_⟩
  refine Finset.sum_lt_sum (fun j _ => ?_) ⟨k, Finset.mem_univ k, ?_⟩
  · by_cases hj : j = k
    · subst hj
      exact (pollerStep_rank h (hs.inv.wf j) hs.exit).le
    · rw [(pollerStep_frame h hj).1]
  · exact pollerStep_rank h (hs.inv.wf k) hs.exit

/-- A routine is never stuck. A burst may be empty, and frees always succeed. -/
theorem exists_pollerStep (hs : Stopping S s) {k : κ} (hpc : (s.poller k).pc ≠ .returned) :
    ∃ t, PollerStep S.report (S.lcore k) (S.queue k) k s t := by
  cases h : (s.poller k).pc with
  | whileTest => exact ⟨_, .exit h hs.exit⟩
  | rxBurst =>
    have hmem : ∀ b, b ∉ s.pool.avail → (∀ q, b ∉ s.rxQueue q) → s.mem b = s.mem b :=
      fun _ _ _ => rfl
    exact ⟨_, .burst h .nil (Nat.zero_le _) hmem rfl⟩
  | print =>
    cases hreport : S.report with
    | lengths =>
      by_cases hlt : (s.poller k).i < (s.poller k).rxCount
      · exact ⟨_, .printLength ((hs.inv.wf k).count ▸ hlt) rfl h hlt⟩
      · exact ⟨_, .printed rfl h hlt⟩
    | count => exact ⟨_, .printCount rfl h⟩
  | freeBulk =>
    obtain ⟨pool', hput⟩ := CachedPool.exists_putMany (S.lcore k) s.pool
      ((s.poller k).rxPackets.take (s.poller k).rxCount) (by decide)
    exact ⟨_, .freeBulk h hput⟩
  | returned => exact absurd h hpc

theorem stopping_progress (hs : Stopping S s) (hnot : ¬ Terminated s) :
    ∃ t, RoutineStep S s t := by
  obtain ⟨k, hk⟩ := not_forall.mp hnot
  obtain ⟨t, ht⟩ := exists_pollerStep hs hk
  exact ⟨t, k, ht⟩

/-- Wherever the routines are when the signal comes, and however they are
    interleaved from then on: together they take at most 36 steps for each routine,
    one of them can always go on until all have returned, and in a fair run all
    return. -/
theorem pollers_return (hs : (system β S).Reachable s) (hexit : s.exitIndicator = true) :
    EndsWithin (RoutineStep S) Signal Terminated (36 * Fintype.card κ) s ∧
      ∀ run : ℕ → State ι κ β, run 0 = s → FairRun (RoutineStep S) Signal run →
        ∃ k, Terminated (run k) := by
  have hinv := inv_reachable hs
  have hends : EndsWithin (RoutineStep S) Signal Terminated (36 * Fintype.card κ) s := by
    apply EndsWithin.of_rank (Stopping S) (fun s => ∑ k, (s.poller k).rank)
    · exact fun _ _ => stopping_routineStep
    · exact fun _ _ => stopping_signal
    · exact fun _ => stopping_progress
    · exact ⟨hinv, hexit⟩
    · refine (Finset.sum_le_card_nsmul _ _ 36 fun k _ => (hinv.wf k).rank_le).trans_eq ?_
      simp [Nat.mul_comm]
  refine ⟨hends, ?_⟩
  rintro run rfl hfair
  exact hends.exists_of_fair hfair

theorem pollers_return_twoInHand : ∃ s : State (Fin 2) Unit ℕ,
    s.pending () = [0, 1] ∧ s.exitIndicator = true ∧
      EndsWithin (RoutineStep (reading (0 : Fin 2))) Signal Terminated 36 s := by
  obtain ⟨e, h⟩ := exists_twoInHand
  exact ⟨_, rfl, rfl, (pollers_return (h.step .terminate) rfl).1⟩

end DpdkTutorials.Receiving

import Mathlib

/-!
# Programs that end under any interleaving

Two kinds of steps act on a state: those of a program, and those of whatever
runs beside it. A rank that every step of the program decreases and no other
step increases bounds the number of the program's steps in any run. If the
program can also take a step whenever it is not at its end, it gets there in
every run that does not keep it waiting for ever.

* `EndsWithin.of_rank`: the bound and the progress from an invariant and a rank.
* `EndsWithin.exists_of_fair`: what they say about infinite runs.
-/

namespace DpdkTutorials.Common

universe u

variable {σ : Type u} {own other : σ → σ → Prop} {p : σ → Prop} {s t : σ} {bound n : ℕ}

/-- A run from `s` with `n` steps of the program. -/
inductive RunWith (own other : σ → σ → Prop) (s : σ) : ℕ → σ → Prop where
  | refl : RunWith own other s 0 s
  | own {n t u} : RunWith own other s n t → own t u → RunWith own other s (n + 1) u
  | other {n t u} : RunWith own other s n t → other t u → RunWith own other s n u

/-- From `s` on, however its steps are interleaved with others, the program takes
    at most `bound` steps, and it can take one as long as `p` does not hold. -/
structure EndsWithin (own other : σ → σ → Prop) (p : σ → Prop) (bound : ℕ) (s : σ) : Prop where
  le : ∀ {n t}, RunWith own other s n t → n ≤ bound
  progress : ∀ {n t}, RunWith own other s n t → ¬ p t → ∃ u, own t u

/-- From `s` on, the program gets to `p` after at most `bound` of its steps,
    however these are interleaved with others, and it is not stuck before. -/
def RespondsWithin (own other : σ → σ → Prop) (p : σ → Prop) (bound : ℕ) (s : σ) : Prop :=
  EndsWithin (fun s t => own s t ∧ ¬ p s) other p bound s

/-- An infinite run in which the program is not kept waiting for ever. -/
structure FairRun (own other : σ → σ → Prop) (run : ℕ → σ) : Prop where
  step : ∀ k, own (run k) (run (k + 1)) ∨ other (run k) (run (k + 1))
  fair : ∀ k, ∃ m ≥ k, own (run m) (run (m + 1)) ∨ ∀ u, ¬ own (run m) u

/-! ## Ranks -/

/-- The rule for a rank that decreases under the invariant `I`. -/
theorem RunWith.of_rank {I : σ → Prop} {rank : σ → ℕ}
    (hown : ∀ s t, I s → own s t → I t ∧ rank t < rank s)
    (hother : ∀ s t, I s → other s t → I t ∧ rank t ≤ rank s) (hs : I s)
    (hrun : RunWith own other s n t) : I t ∧ n + rank t ≤ rank s := by
  induction hrun with
  | refl => exact ⟨hs, by omega⟩
  | own _ hstep ih =>
    obtain ⟨hinv, hlt⟩ := hown _ _ ih.1 hstep
    exact ⟨hinv, by omega⟩
  | other _ hstep ih =>
    obtain ⟨hinv, hle⟩ := hother _ _ ih.1 hstep
    exact ⟨hinv, by omega⟩

theorem EndsWithin.of_rank (I : σ → Prop) (rank : σ → ℕ)
    (hown : ∀ s t, I s → own s t → I t ∧ rank t < rank s)
    (hother : ∀ s t, I s → other s t → I t ∧ rank t ≤ rank s)
    (hprogress : ∀ s, I s → ¬ p s → ∃ t, own s t) (hs : I s) (hbound : rank s ≤ bound) :
    EndsWithin own other p bound s where
  le hrun := by
    have := (hrun.of_rank hown hother hs).2
    omega
  progress hrun := hprogress _ (hrun.of_rank hown hother hs).1

/-! ## Infinite runs -/

theorem FairRun.invariant {I : σ → Prop} {run : ℕ → σ} (h : FairRun own other run)
    (hown : ∀ s t, I s → own s t → I t) (hother : ∀ s t, I s → other s t → I t)
    (hs : I (run 0)) (k : ℕ) : I (run k) := by
  induction k with
  | zero => exact hs
  | succ k ih =>
    rcases h.step k with hstep | hstep
    · exact hown _ _ ih hstep
    · exact hother _ _ ih hstep

/-- A run that goes on takes no fewer steps of the program. -/
theorem FairRun.exists_runWith_of_le {run : ℕ → σ} (h : FairRun own other run) {k m : ℕ}
    (hrun : RunWith own other (run 0) n (run k)) (hkm : k ≤ m) :
    ∃ n' ≥ n, RunWith own other (run 0) n' (run m) := by
  induction m, hkm using Nat.le_induction with
  | base => exact ⟨n, le_rfl, hrun⟩
  | succ m _ ih =>
    obtain ⟨n', hn', hm⟩ := ih
    rcases h.step m with hstep | hstep
    · exact ⟨n' + 1, by omega, hm.own hstep⟩
    · exact ⟨n', hn', hm.other hstep⟩

/-- In a fair run the program gets to its end. -/
theorem EndsWithin.exists_of_fair {run : ℕ → σ} (h : EndsWithin own other p bound (run 0))
    (hfair : FairRun own other run) : ∃ k, p (run k) := by
  by_contra hnever
  push Not at hnever
  -- Without an end there are runs with any number of the program's steps.
  have hmany : ∀ n, ∃ k n', n ≤ n' ∧ RunWith own other (run 0) n' (run k) := by
    intro n
    induction n with
    | zero => exact ⟨0, 0, le_rfl, .refl⟩
    | succ n ih =>
      obtain ⟨k, n', hn', hrun⟩ := ih
      obtain ⟨m, hkm, hstep⟩ := hfair.fair k
      obtain ⟨n'', hn'', hm⟩ := hfair.exists_runWith_of_le hrun hkm
      rcases hstep with hstep | hstuck
      · exact ⟨m + 1, n'' + 1, by omega, hm.own hstep⟩
      · obtain ⟨u, hu⟩ := h.progress hm (hnever m)
        exact absurd hu (hstuck u)
  obtain ⟨k, n', hn', hrun⟩ := hmany (bound + 1)
  have := h.le hrun
  omega

/-- In a fair run the response comes. -/
theorem RespondsWithin.exists_of_fair {run : ℕ → σ}
    (h : RespondsWithin own other p bound (run 0)) (hfair : FairRun own other run) :
    ∃ k, p (run k) := by
  by_contra hnever
  push Not at hnever
  -- All steps of the program come before the response.
  have hbefore : FairRun (fun s t => own s t ∧ ¬ p s) other run := by
    constructor
    · intro k
      exact (hfair.step k).imp_left fun hstep => ⟨hstep, hnever k⟩
    · intro k
      obtain ⟨m, hkm, hstep⟩ := hfair.fair k
      exact ⟨m, hkm, hstep.imp (⟨·, hnever m⟩) fun hstuck u hu => hstuck u hu.1⟩
  obtain ⟨k, hk⟩ := EndsWithin.exists_of_fair h hbefore
  exact hnever k hk

/-- The rest of a fair run. -/
theorem FairRun.drop {run : ℕ → σ} (h : FairRun own other run) (k : ℕ) :
    FairRun own other fun m => run (k + m) where
  step m := h.step (k + m)
  fair m := by
    obtain ⟨n, hn, hstep⟩ := h.fair (k + m)
    obtain ⟨j, rfl⟩ := Nat.exists_eq_add_of_le (show k ≤ n by omega)
    exact ⟨j, by omega, hstep⟩

/-- The run in which two programs take turns, `f` first. -/
def takeTurns (f g : σ → σ) (s : σ) : ℕ → σ
  | 0 => s
  | k + 1 => if k % 2 = 0 then f (takeTurns f g s k) else g (takeTurns f g s k)

theorem takeTurns_succ_of_even (f g : σ → σ) (s : σ) {k : ℕ} (hk : k % 2 = 0) :
    takeTurns f g s (k + 1) = f (takeTurns f g s k) := by
  rw [takeTurns, if_pos hk]

theorem takeTurns_succ_of_odd (f g : σ → σ) (s : σ) {k : ℕ} (hk : k % 2 = 1) :
    takeTurns f g s (k + 1) = g (takeTurns f g s k) := by
  rw [takeTurns, if_neg (by omega)]

theorem takeTurns_invariant {I : σ → Prop} {f g : σ → σ} (hf : ∀ s, I s → I (f s))
    (hg : ∀ s, I s → I (g s)) (hs : I s) (k : ℕ) : I (takeTurns f g s k) := by
  induction k with
  | zero => exact hs
  | succ k ih =>
    rcases Nat.mod_two_eq_zero_or_one k with hk | hk
    · rw [takeTurns_succ_of_even f g s hk]
      exact hf _ ih
    · rw [takeTurns_succ_of_odd f g s hk]
      exact hg _ ih

/-- From a state with the invariant `I`, two programs that are never stuck have a
    run that is fair to both. -/
theorem exists_fairRun {I : σ → Prop} (hown : ∀ s, I s → ∃ t, own s t ∧ I t)
    (hother : ∀ s, I s → ∃ t, other s t ∧ I t) (hs : I s) :
    ∃ run : ℕ → σ, run 0 = s ∧ FairRun own other run ∧ FairRun other own run := by
  have : Nonempty σ := ⟨s⟩
  choose! f hf hfI using hown
  choose! g hg hgI using hother
  have hinv := takeTurns_invariant hfI hgI hs
  have heven (k : ℕ) (hk : k % 2 = 0) : own (takeTurns f g s k) (takeTurns f g s (k + 1)) := by
    rw [takeTurns_succ_of_even f g s hk]
    exact hf _ (hinv k)
  have hodd (k : ℕ) (hk : k % 2 = 1) : other (takeTurns f g s k) (takeTurns f g s (k + 1)) := by
    rw [takeTurns_succ_of_odd f g s hk]
    exact hg _ (hinv k)
  have hstep (k : ℕ) : own (takeTurns f g s k) (takeTurns f g s (k + 1)) ∨
      other (takeTurns f g s k) (takeTurns f g s (k + 1)) :=
    (Nat.mod_two_eq_zero_or_one k).imp (heven k) (hodd k)
  refine ⟨takeTurns f g s, rfl, ⟨hstep, fun k => ?_⟩, ⟨fun k => (hstep k).symm, fun k => ?_⟩⟩
  · exact ⟨2 * k, by omega, .inl (heven _ (by omega))⟩
  · exact ⟨2 * k + 1, by omega, .inl (hodd _ (by omega))⟩

end DpdkTutorials.Common

import Mathlib

/-!
# What a deterministic program gets to

A program whose answers from outside are fixed is a step function; it gets to a
condition if some number of steps leads to a state that meets it. The rules are
for conditions that stay once they hold, such as having returned.

* `eventually_step_iff`: a step before the condition holds makes no difference.
* `Eventually.through`: neither does any number of steps.
* `not_eventually`: an invariant that excludes the condition.
-/

namespace DpdkTutorials.Common

universe u

/-- The steps `f` lead from `s` to a state with `p`. -/
def Eventually {σ : Type u} (f : σ → σ) (p : σ → Prop) (s : σ) : Prop := ∃ n, p (f^[n] s)

variable {σ : Type u} {f : σ → σ} {p q : σ → Prop} {s : σ}

theorem Eventually.now (h : p s) : Eventually f p s := ⟨0, h⟩

theorem Eventually.step (h : Eventually f p (f s)) : Eventually f p s := by
  obtain ⟨n, hn⟩ := h
  exact ⟨n + 1, by rwa [Function.iterate_succ_apply]⟩

/-- For a condition that stays. -/
theorem eventually_step_iff (hstay : ∀ t, p t → p (f t)) :
    Eventually f p (f s) ↔ Eventually f p s := by
  constructor
  · exact Eventually.step
  · rintro ⟨n, hn⟩
    refine ⟨n, ?_⟩
    rw [← Function.iterate_succ_apply, Function.iterate_succ_apply']
    exact hstay _ hn

/-- If the program gets to `q`, what it gets to is decided there. -/
theorem Eventually.through {c : Prop} (hstay : ∀ t, p t → p (f t)) (hq : Eventually f q s)
    (hafter : ∀ t, q t → (Eventually f p t ↔ c)) : Eventually f p s ↔ c := by
  obtain ⟨n, hn⟩ := hq
  induction n generalizing s with
  | zero => exact hafter s hn
  | succ n ih =>
    rw [← eventually_step_iff hstay]
    exact ih (by rwa [Function.iterate_succ_apply] at hn)

theorem not_eventually (inv : σ → Prop) (hs : inv s) (hstep : ∀ t, inv t → inv (f t))
    (hnot : ∀ t, inv t → ¬ p t) : ¬ Eventually f p s := by
  rintro ⟨n, hn⟩
  have hinv : inv (f^[n] s) := by
    clear hn
    induction n with
    | zero => exact hs
    | succ n ih =>
      rw [Function.iterate_succ_apply']
      exact hstep _ ih
  exact hnot _ hinv hn

end DpdkTutorials.Common

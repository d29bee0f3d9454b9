import Mathlib

/-!
# Transition systems

A program with several threads or processes is a set of initial states and a
next-state relation: one step is one atomic action of one party. The
properties proved in this development are invariants of such systems.

* `Reachable.invariant`: an inductive invariant holds in every reachable state.
* `Reachable.mono`: reachability is monotone in the initial states and steps.
* `Reachable.simulate`: simulation under an invariant keeps reachability.
* `guarded`: the runs all of whose steps meet a condition.
-/

namespace DpdkTutorials.Common

universe u

/-- Initial states and a next-state relation. -/
structure System (σ : Type u) where
  init : σ → Prop
  next : σ → σ → Prop

namespace System

variable {σ : Type u} {S T : System σ}

/-- `s` occurs in some run of `S`. -/
def Reachable (S : System σ) (s : σ) : Prop :=
  ∃ s₀, S.init s₀ ∧ Relation.ReflTransGen S.next s₀ s

theorem Reachable.of_init {s : σ} (h : S.init s) : S.Reachable s :=
  ⟨s, h, .refl⟩

theorem Reachable.step {s t : σ} (hs : S.Reachable s) (h : S.next s t) : S.Reachable t := by
  obtain ⟨s₀, h₀, hrun⟩ := hs
  exact ⟨s₀, h₀, hrun.tail h⟩

/-- The invariant rule. The step may use that its source is reachable. -/
theorem Reachable.invariant {P : σ → Prop} (hinit : ∀ s, S.init s → P s)
    (hstep : ∀ s t, S.Reachable s → P s → S.next s t → P t) {s : σ} (hs : S.Reachable s) :
    P s := by
  obtain ⟨s₀, h₀, hrun⟩ := hs
  induction hrun with
  | refl => exact hinit _ h₀
  | tail hrun hlast ih => exact hstep _ _ ⟨s₀, h₀, hrun⟩ ih hlast

theorem Reachable.mono (hinit : ∀ s, S.init s → T.init s) (hnext : ∀ s t, S.next s t → T.next s t)
    {s : σ} (hs : S.Reachable s) : T.Reachable s := by
  obtain ⟨s₀, h₀, hrun⟩ := hs
  exact ⟨s₀, hinit _ h₀, Relation.ReflTransGen.mono hnext _ _ hrun⟩

/-- Simulation under an invariant: as long as `I` holds every step of `S` is one
    of `T`. -/
theorem Reachable.simulate {I : σ → Prop} (hinit : ∀ s, S.init s → T.init s ∧ I s)
    (hnext : ∀ s t, I s → S.next s t → T.next s t ∧ I t) {s : σ} (hs : S.Reachable s) :
    T.Reachable s ∧ I s := by
  refine hs.invariant (P := fun s => T.Reachable s ∧ I s) ?_ ?_
  · intro s h
    exact ⟨.of_init (hinit s h).1, (hinit s h).2⟩
  · intro s t _ ih h
    exact ⟨ih.1.step (hnext s t ih.2 h).1, (hnext s t ih.2 h).2⟩

/-- The runs of `S` all of whose steps meet `C`. -/
def guarded (S : System σ) (C : σ → σ → Prop) : System σ where
  init := S.init
  next s t := S.next s t ∧ C s t

end System

end DpdkTutorials.Common

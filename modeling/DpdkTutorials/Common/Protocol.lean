import DpdkTutorials.Common.Program

/-!
# Programs that keep to a protocol

An interface often asks for its calls in a certain order. A protocol says in
which state which call is allowed, and how a call and its answer change the
state. A program keeps to it if in every run each call is allowed when it is
made.

`Meets` is the weakest precondition of a program: every call is allowed, and
what is asked of the state holds when the program returns or exits. There is one
rule for each way to build a program.

* `meets_bind`, `Meets.forM`: the rules of sequences and of loops.
* `Meets.legal`: what they prove about the list of the calls.
-/

namespace DpdkTutorials.Common

universe u v w x

/-- Which calls are allowed in which state, and what they do to it. -/
structure Protocol {κ : Type u} (ans : κ → Type v) (σ : Type x) where
  Allowed : σ → κ → Prop
  next : σ → (c : κ) → ans c → σ

namespace Protocol

variable {κ : Type u} {ans : κ → Type v} {σ : Type x}

/-- The state after the calls `cs` with the answers `h`. -/
def after (R : Protocol ans σ) (h : (c : κ) → ans c) (s : σ) (cs : List κ) : σ :=
  cs.foldl (fun s c => R.next s c (h c)) s

/-- Each of the calls is allowed in the state the calls before it have led to. -/
def Legal (R : Protocol ans σ) (h : (c : κ) → ans c) (s : σ) (cs : List κ) : Prop :=
  ∀ before c rest, cs = before ++ c :: rest → R.Allowed (R.after h s before) c

variable {R : Protocol ans σ} {h : (c : κ) → ans c} {s : σ}

theorem legal_nil : R.Legal h s [] := by
  intro before c rest heq
  simp at heq

theorem legal_cons {c : κ} {cs : List κ} (hc : R.Allowed s c)
    (hcs : R.Legal h (R.next s c (h c)) cs) : R.Legal h s (c :: cs) := by
  intro before d rest heq
  cases before with
  | nil =>
    obtain ⟨rfl, -⟩ := List.cons.inj heq
    exact hc
  | cons b before =>
    obtain ⟨rfl, hrest⟩ := List.cons.inj heq
    exact hcs before d rest hrest

end Protocol

namespace Program

variable {κ : Type u} {ans : κ → Type v} {σ : Type x} {α β : Type w}

/-- From the state `s` every call is allowed; `Q` holds when the program returns,
    and `E` when it exits. -/
def Meets (R : Protocol ans σ) (h : (c : κ) → ans c) (Q : α → σ → Prop) (E : ℤ → σ → Prop) :
    Program ans α → σ → Prop
  | .value a, s => Q a s
  | .exit status, s => E status s
  | .hang, _ => True
  | .call c next, s => R.Allowed s c ∧ (next (h c)).Meets R h Q E (R.next s c (h c))

variable {R : Protocol ans σ} {h : (c : κ) → ans c} {Q Q' : α → σ → Prop} {E : ℤ → σ → Prop}
  {s : σ} {p : Program ans α}

/-! ## Rules -/

@[simp] theorem meets_pure {a : α} : Meets R h Q E (pure a) s ↔ Q a s := Iff.rfl

@[simp] theorem meets_exit {status : ℤ} : Meets R h Q E (.exit status) s ↔ E status s := Iff.rfl

@[simp] theorem meets_hang : Meets R h Q E .hang s := trivial

theorem Meets.mono (hp : Meets R h Q E p s) (hQ : ∀ a t, Q a t → Q' a t) :
    Meets R h Q' E p s := by
  induction p generalizing s with
  | value a => exact hQ a s hp
  | exit status => exact hp
  | hang => trivial
  | call c next ih => exact ⟨hp.1, ih _ hp.2⟩

/-- The rule of sequences. -/
theorem meets_bind {f : α → Program ans β} {Q : β → σ → Prop} :
    Meets R h Q E (p >>= f) s ↔ Meets R h (fun a => Meets R h Q E (f a)) E p s := by
  induction p generalizing s with
  | value a => rfl
  | exit status => rfl
  | hang => rfl
  | call c next ih => exact and_congr_right fun _ => ih (h c)

/-- A value for which `Q` is proved is one the program returns. -/
theorem Meets.returns (hp : Meets R h Q E p s) :
    Meets R h (fun a t => Returns h p a ∧ Q a t) E p s := by
  induction p generalizing s with
  | value a => exact ⟨rfl, hp⟩
  | exit status => exact hp
  | hang => trivial
  | call c next ih => exact ⟨hp.1, ih _ hp.2⟩

theorem Meets.bind {f : α → Program ans β} {Q : β → σ → Prop} {M : α → σ → Prop}
    (hp : Meets R h M E p s) (hf : ∀ a t, Returns h p a → M a t → Meets R h Q E (f a) t) :
    Meets R h Q E (p >>= f) s :=
  meets_bind.mpr (hp.returns.mono fun a t hM => hf a t hM.1 hM.2)

theorem Meets.ite {c : Prop} [Decidable c] {q : Program ans α} (hp : c → Meets R h Q E p s)
    (hq : ¬ c → Meets R h Q E q s) : Meets R h Q E (if c then p else q) s := by
  split
  · exact hp ‹_›
  · exact hq ‹_›

section Call

variable {ans : κ → Type w} {R : Protocol ans σ} {h : (c : κ) → ans c} {c : κ}
  {Q : ans c → σ → Prop}

theorem Meets.perform (hc : R.Allowed s c) (hQ : Q (h c) (R.next s c (h c))) :
    Meets R h Q E (Program.perform c) s :=
  ⟨hc, hQ⟩

/-- One call, and the rest of the program. -/
theorem Meets.call {β : Type w} {f : ans c → Program ans β} {Q : β → σ → Prop}
    (hc : R.Allowed s c) (hf : Meets R h Q E (f (h c)) (R.next s c (h c))) :
    Meets R h Q E (Program.perform c >>= f) s :=
  meets_bind.mpr ⟨hc, hf⟩

end Call

/-- The rule of loops over `0`, …, `n - 1`, with an invariant for each number of
    passes. -/
theorem Meets.forM {body : ℕ → Program ans PUnit} {I : ℕ → σ → Prop} {n : ℕ}
    (hbody : ∀ i t, i < n → I i t → Meets R h (fun _ => I (i + 1)) E (body i) t) (hs : I 0 s) :
    Meets R h (fun _ => I n) E (ForM.forM (List.range n) body) s := by
  have hloop : ∀ k i t, i + k = n → I i t →
      Meets R h (fun _ => I n) E (ForM.forM (List.range' i k) body) t := by
    intro k
    induction k with
    | zero =>
      rintro i t rfl ht
      exact ht
    | succ k ih =>
      intro i t hik ht
      rw [List.range'_succ, List.forM_cons]
      exact (hbody i t (by omega) ht).bind fun _ u _ hu => ih (i + 1) u (by omega) hu
  rw [List.range_eq_range']
  exact hloop n 0 s (by omega) hs

/-! ## The calls of a run -/

/-- What the rules prove of the list of the calls, and of the end of the run. -/
theorem Meets.legal (hp : Meets R h Q E p s) :
    R.Legal h s (p.calls h) ∧
      ∀ status, p.result h = .exit status → E status (R.after h s (p.calls h)) := by
  induction p generalizing s with
  | value a => exact ⟨Protocol.legal_nil, nofun⟩
  | exit status =>
    refine ⟨Protocol.legal_nil, ?_⟩
    rintro _ ⟨rfl⟩
    exact hp
  | hang => exact ⟨Protocol.legal_nil, nofun⟩
  | call c next ih =>
    obtain ⟨hlegal, hexit⟩ := ih (h c) hp.2
    exact ⟨Protocol.legal_cons hp.1 hlegal, hexit⟩

end Program

end DpdkTutorials.Common

import Mathlib

/-!
# Programs that call and exit

A program makes calls, goes on depending on their answers, and ends the process
by an exit at any point. It is a tree with one branch for each answer; given
the answers to all calls it has one run.

* `always_bind`: what holds of every call of a program holds of its parts.
* `ReleasesOnExit.bind`: if every part that exits has released a resource
  exactly once, and no part that goes on has released it, so has the program.
* `LeaksOnExit.after`: an exit without a release in one part is one of the
  program.
-/

namespace DpdkTutorials.Common

universe u v w

/-- Programs with calls `κ` whose answers have the types `ans`. -/
inductive Program {κ : Type u} (ans : κ → Type v) (α : Type w) where
  | value (a : α)
  /-- The process ends with this status. -/
  | exit (status : ℤ)
  /-- The program neither goes on nor ends. -/
  | hang
  | call (c : κ) (next : ans c → Program ans α)

namespace Program

variable {κ : Type u} {ans : κ → Type v}

section Monad

variable {α β : Type w}

def bind (p : Program ans α) (f : α → Program ans β) : Program ans β :=
  match p with
  | .value a => f a
  | .exit status => .exit status
  | .hang => .hang
  | .call c next => .call c fun r => (next r).bind f

instance : Monad (Program ans) where
  pure := .value
  bind := bind

end Monad

/-- The program that makes one call and returns its answer. -/
def perform (c : κ) : Program ans (ans c) := .call c .value

/-! ## Runs -/

/-- How a run ends. -/
inductive Result (α : Type w) where
  | value (a : α)
  | exit (status : ℤ)
  | hang
  deriving DecidableEq

section Runs

variable {α : Type w}

/-- The calls made with the answers `h`, in order. -/
def calls (h : (c : κ) → ans c) : Program ans α → List κ
  | .value _ | .exit _ | .hang => []
  | .call c next => c :: (next (h c)).calls h

def result (h : (c : κ) → ans c) : Program ans α → Result α
  | .value a => .value a
  | .exit status => .exit status
  | .hang => .hang
  | .call c next => (next (h c)).result h

/-- The program goes on with `a`. -/
def Returns (h : (c : κ) → ans c) (p : Program ans α) (a : α) : Prop := p.result h = .value a

/-- Every call the program makes satisfies `P`. -/
def Always (h : (c : κ) → ans c) (P : κ → Prop) (p : Program ans α) : Prop :=
  ∀ c ∈ p.calls h, P c

/-- Every call satisfies `P`, and the status of an exit satisfies `Q`. -/
structure Within (h : (c : κ) → ans c) (P : κ → Prop) (Q : ℤ → Prop) (p : Program ans α) :
    Prop where
  calls : Always h P p
  exits : ∀ status, p.result h = .exit status → Q status

/-- An exit comes after exactly one call of `rel`; a program that goes on has
    made none. -/
def ReleasesOnExit (h : (c : κ) → ans c) (rel : κ → Bool) (p : Program ans α) : Prop :=
  match p.result h with
  | .exit _ => (p.calls h).countP rel = 1
  | .value _ | .hang => (p.calls h).countP rel = 0

/-- An exit without any call of `rel`. -/
def LeaksOnExit (h : (c : κ) → ans c) (rel : κ → Bool) (p : Program ans α) : Prop :=
  ∃ status, p.result h = .exit status ∧ (p.calls h).countP rel = 0

end Runs

variable {α β : Type w} {h : (c : κ) → ans c} {P : κ → Prop} {Q : ℤ → Prop} {rel : κ → Bool}

/-! ## Sequences -/

@[simp] theorem calls_pure {a : α} : (pure a : Program ans α).calls h = [] := rfl

@[simp] theorem result_pure {a : α} : (pure a : Program ans α).result h = .value a := rfl

@[simp] theorem calls_exit {status : ℤ} : (.exit status : Program ans α).calls h = [] := rfl

@[simp] theorem result_exit {status : ℤ} :
    (.exit status : Program ans α).result h = .exit status := rfl

theorem calls_bind (p : Program ans α) (f : α → Program ans β) :
    (p >>= f).calls h = p.calls h ++
      match p.result h with
      | .value a => (f a).calls h
      | .exit _ | .hang => [] := by
  induction p with
  | value a => rfl
  | exit status => rfl
  | hang => rfl
  | call c next ih => exact congrArg (c :: ·) (ih (h c))

theorem result_bind (p : Program ans α) (f : α → Program ans β) :
    (p >>= f).result h =
      match p.result h with
      | .value a => (f a).result h
      | .exit status => .exit status
      | .hang => .hang := by
  induction p with
  | value a => rfl
  | exit status => rfl
  | hang => rfl
  | call c next ih => exact ih (h c)

/-! ## What a program returns -/

@[simp] theorem returns_pure {a b : α} : Returns h (pure a : Program ans α) b ↔ a = b := by
  show Result.value a = .value b ↔ a = b
  simp

@[simp] theorem returns_exit {status : ℤ} {a : α} :
    ¬ Returns h (.exit status : Program ans α) a := nofun

@[simp] theorem returns_bind {p : Program ans α} {f : α → Program ans β} {b : β} :
    Returns h (p >>= f) b ↔ ∃ a, Returns h p a ∧ Returns h (f a) b := by
  unfold Returns
  rw [result_bind]
  cases p.result h <;> simp

@[simp] theorem returns_ite {c : Prop} [Decidable c] {p q : Program ans α} {a : α} :
    Returns h (if c then p else q) a ↔ if c then Returns h p a else Returns h q a := by
  split <;> rfl

theorem calls_bind_of_returns {p : Program ans α} {f : α → Program ans β} {a : α}
    (ha : Returns h p a) : (p >>= f).calls h = p.calls h ++ (f a).calls h := by
  rw [calls_bind, ha]

theorem result_bind_of_returns {p : Program ans α} {f : α → Program ans β} {a : α}
    (ha : Returns h p a) : (p >>= f).result h = (f a).result h := by
  rw [result_bind, ha]

theorem Returns.unique {p : Program ans α} {a b : α} (ha : Returns h p a) (hb : Returns h p b) :
    a = b :=
  Result.value.inj (ha.symm.trans hb)

/-! ## What holds of every call -/

theorem Always.mono {P' : κ → Prop} {p : Program ans α} (hp : Always h P p)
    (hPP' : ∀ c, P c → P' c) : Always h P' p :=
  fun c hc => hPP' c (hp c hc)

@[simp] theorem always_pure {a : α} : Always h P (pure a : Program ans α) := nofun

@[simp] theorem always_exit {status : ℤ} : Always h P (.exit status : Program ans α) := nofun

@[simp] theorem always_bind {p : Program ans α} {f : α → Program ans β} :
    Always h P (p >>= f) ↔ Always h P p ∧ ∀ a, Returns h p a → Always h P (f a) := by
  unfold Always Returns
  rw [calls_bind]
  cases hp : p.result h with
  | value a => simp [or_imp, forall_and]
  | exit status => simp
  | hang => simp

@[simp] theorem always_ite {c : Prop} [Decidable c] {p q : Program ans α} :
    Always h P (if c then p else q) ↔ if c then Always h P p else Always h P q := by
  split <;> rfl

/-! ## What holds of every call and every exit -/

@[simp] theorem within_pure {a : α} : Within h P Q (pure a : Program ans α) :=
  ⟨always_pure, nofun⟩

@[simp] theorem within_exit {status : ℤ} :
    Within h P Q (.exit status : Program ans α) ↔ Q status := by
  constructor
  · intro hp
    exact hp.exits status rfl
  · intro hQ
    refine ⟨always_exit, ?_⟩
    rintro _ ⟨rfl⟩
    exact hQ

@[simp] theorem within_bind {p : Program ans α} {f : α → Program ans β} :
    Within h P Q (p >>= f) ↔ Within h P Q p ∧ ∀ a, Returns h p a → Within h P Q (f a) := by
  have hexits : (∀ status, (p >>= f).result h = .exit status → Q status) ↔
      (∀ status, p.result h = .exit status → Q status) ∧
        ∀ a, Returns h p a → ∀ status, (f a).result h = .exit status → Q status := by
    unfold Returns
    rw [result_bind]
    cases p.result h <;> simp
  constructor
  · rintro ⟨hcalls, hex⟩
    rw [always_bind] at hcalls
    rw [hexits] at hex
    exact ⟨⟨hcalls.1, hex.1⟩, fun a ha => ⟨hcalls.2 a ha, hex.2 a ha⟩⟩
  · rintro ⟨hp, hf⟩
    exact ⟨always_bind.mpr ⟨hp.calls, fun a ha => (hf a ha).calls⟩,
      hexits.mpr ⟨hp.exits, fun a ha => (hf a ha).exits⟩⟩

@[simp] theorem within_ite {c : Prop} [Decidable c] {p q : Program ans α} :
    Within h P Q (if c then p else q) ↔ if c then Within h P Q p else Within h P Q q := by
  split <;> rfl

/-! ## Releases -/

theorem ReleasesOnExit.pure (a : α) : ReleasesOnExit h rel (pure a : Program ans α) := rfl

/-- The rule of sequences. -/
theorem ReleasesOnExit.bind {p : Program ans α} {f : α → Program ans β}
    (hp : ReleasesOnExit h rel p) (hf : ∀ a, Returns h p a → ReleasesOnExit h rel (f a)) :
    ReleasesOnExit h rel (p >>= f) := by
  unfold ReleasesOnExit Returns at *
  rw [result_bind, calls_bind, List.countP_append]
  cases hr : p.result h with
  | value a =>
    rw [hr] at hp
    have ha := hf a hr
    simp only at hp ⊢
    rw [hp, Nat.zero_add]
    exact ha
  | exit status => simpa [hr] using hp
  | hang => simpa [hr] using hp

theorem ReleasesOnExit.ite {c : Prop} [Decidable c] {p q : Program ans α}
    (hp : c → ReleasesOnExit h rel p) (hq : ¬ c → ReleasesOnExit h rel q) :
    ReleasesOnExit h rel (if c then p else q) := by
  split
  · exact hp ‹_›
  · exact hq ‹_›

/-- Parts before the leak do not matter, as they have not released anything. -/
theorem LeaksOnExit.after {p : Program ans α} {f : α → Program ans β} {a : α}
    (hp : ReleasesOnExit h rel p) (ha : Returns h p a) (hf : LeaksOnExit h rel (f a)) :
    LeaksOnExit h rel (p >>= f) := by
  obtain ⟨status, hexit, hcount⟩ := hf
  unfold ReleasesOnExit at hp
  unfold Returns at ha
  rw [ha] at hp
  refine ⟨status, ?_, ?_⟩
  · rw [result_bind, ha]
    exact hexit
  · rw [calls_bind, ha, List.countP_append, hp, Nat.zero_add]
    exact hcount

theorem LeaksOnExit.bind {p : Program ans α} (hp : LeaksOnExit h rel p)
    (f : α → Program ans β) : LeaksOnExit h rel (p >>= f) := by
  obtain ⟨status, hexit, hcount⟩ := hp
  refine ⟨status, ?_, ?_⟩
  · rw [result_bind, hexit]
  · rw [calls_bind, hexit, List.append_nil]
    exact hcount

theorem LeaksOnExit.exit (status : ℤ) : LeaksOnExit h rel (.exit status : Program ans α) :=
  ⟨status, rfl, rfl⟩

theorem ReleasesOnExit.count {p : Program ans α} (hp : ReleasesOnExit h rel p) {status : ℤ}
    (hexit : p.result h = .exit status) : (p.calls h).countP rel = 1 := by
  unfold ReleasesOnExit at hp
  rwa [hexit] at hp

/-! ## One call -/

section Call

variable {ans : κ → Type w} {h : (c : κ) → ans c} {c : κ}

@[simp] theorem calls_perform : (perform c : Program ans (ans c)).calls h = [c] := rfl

@[simp] theorem result_perform : (perform c : Program ans (ans c)).result h = .value (h c) := rfl

@[simp] theorem returns_perform {a : ans c} : Returns h (perform c) a ↔ h c = a := by
  show Result.value (h c) = .value a ↔ h c = a
  simp

@[simp] theorem always_perform : Always h P (perform c : Program ans (ans c)) ↔ P c := by
  show (∀ d ∈ [c], P d) ↔ P c
  simp

@[simp] theorem within_perform : Within h P Q (perform c : Program ans (ans c)) ↔ P c := by
  constructor
  · intro hp
    exact always_perform.mp hp.calls
  · intro hP
    exact ⟨always_perform.mpr hP, nofun⟩

theorem ReleasesOnExit.perform (hc : rel c = false) :
    ReleasesOnExit h rel (perform c : Program ans (ans c)) := by
  show [c].countP rel = 0
  simp [hc]

theorem LeaksOnExit.perform {f : ans c → Program ans α} (hc : rel c = false)
    (hf : LeaksOnExit h rel (f (h c))) : LeaksOnExit h rel (Program.perform c >>= f) :=
  .after (.perform hc) (returns_perform.mpr rfl) hf

/-- The resource is released, and the process ends. -/
theorem ReleasesOnExit.release_exit {status : ℤ} (hc : rel c = true) :
    ReleasesOnExit h rel (Program.perform c >>= fun _ => .exit status : Program ans α) := by
  show [c].countP rel = 1
  simp [hc]

end Call

/-! ## Loops -/

section Loops

variable {ans : κ → Type v} {h : (c : κ) → ans c} {ι : Type} {body : ι → Program ans PUnit}

theorem returns_forM {is : List ι} {a : PUnit} :
    Returns h (forM is body : Program ans PUnit) a ↔ ∀ i ∈ is, Returns h (body i) ⟨⟩ := by
  induction is with
  | nil => simp [List.forM_nil]
  | cons i is ih =>
    rw [List.forM_cons, returns_bind, List.forall_mem_cons]
    constructor
    · rintro ⟨_, hi, his⟩
      exact ⟨hi, ih.mp his⟩
    · rintro ⟨hi, his⟩
      exact ⟨_, hi, ih.mpr his⟩

theorem within_forM {is : List ι} (hbody : ∀ i ∈ is, Within h P Q (body i)) :
    Within h P Q (forM is body) := by
  induction is with
  | nil => simp
  | cons i is ih =>
    rw [List.forM_cons, within_bind]
    exact ⟨hbody i (by simp), fun _ _ => ih fun j hj => hbody j (by simp [hj])⟩

theorem ReleasesOnExit.forM {is : List ι} (hbody : ∀ i ∈ is, ReleasesOnExit h rel (body i)) :
    ReleasesOnExit h rel (forM is body) := by
  induction is with
  | nil => exact .pure _
  | cons i is ih =>
    rw [List.forM_cons]
    exact .bind (hbody i (by simp)) fun _ _ => ih fun j hj => hbody j (by simp [hj])

end Loops

end Program

end DpdkTutorials.Common

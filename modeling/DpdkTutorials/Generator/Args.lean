import Mathlib

/-!
# The command line of `9-packet-generator`

Model of the argument loop of `main` (main.cpp:466-504). The loop index is a
`uint16_t` while `argc` is an `int`, so `i + 1` wraps to 0 after 65535 and the
loop need not end; `ParseReturns` says that it ends, and with which result.
The value after an option is not skipped: it is examined as an option itself
in the next iteration.

Results:
* `parseReturns_of_loopEnds`: when the loop ends (`LoopEnds`), its result is
  one pass over the pairs of adjacent arguments.
* `not_parseReturns`: when the index wraps, the loop does not end, unless
  `std::stoi` throws.
* `passOver_values`: the pass keeps the last value given for each option.
-/

namespace DpdkTutorials.Generator

/-- A C string, without its terminating NUL. -/
abbrev CString := List Char

/-! ## `std::stoi` -/

/-- `isspace` in the C locale. -/
def isSpace (c : Char) : Bool := c.toNat = 32 || (9 ≤ c.toNat && c.toNat ≤ 13)

/-- The value of a string of decimal digits. -/
def decimalValue (ds : CString) : ℕ := ds.foldl (fun v c => 10 * v + (c.toNat - '0'.toNat)) 0

/-- The optional sign `strtol` accepts, and what follows it. -/
def splitSign : CString → Bool × CString
  | '-' :: s => (true, s)
  | '+' :: s => (false, s)
  | s => (false, s)

/-- `std::stoi`: `none` is an exception (`std::invalid_argument` without
    digits, `std::out_of_range` outside `int`). Text after the digits is
    ignored. -/
def stoi (s : CString) : Option ℤ :=
  let (negative, rest) := splitSign (s.dropWhile isSpace)
  let digits := rest.takeWhile Char.isDigit
  let value : ℤ := if negative then -(decimalValue digits) else decimalValue digits
  if digits = [] then none
  else if -2 ^ 31 ≤ value ∧ value < 2 ^ 31 then some value else none

/-- `v` is a decimal numeral of value `n`. -/
def IsDecimal (v : CString) (n : ℕ) : Prop :=
  v ≠ [] ∧ (∀ c ∈ v, c.isDigit = true) ∧ decimalValue v = n

theorem isDigit_not_isSpace {c : Char} (h : c.isDigit = true) : isSpace c = false := by
  have h0 : 48 ≤ c.toNat := by
    simp only [Char.isDigit, Bool.and_eq_true, decide_eq_true_eq] at h
    exact h.1
  simp [isSpace]
  omega

theorem splitSign_digit {c : Char} (s : CString) (h : c.isDigit = true) :
    splitSign (c :: s) = (false, c :: s) := by
  have hminus : c ≠ '-' := by rintro rfl; simp at h
  have hplus : c ≠ '+' := by rintro rfl; simp at h
  unfold splitSign
  split <;> simp_all

theorem stoi_decimal {v : CString} {n : ℕ} (h : IsDecimal v n) (hn : n < 2 ^ 31) :
    stoi v = some (n : ℤ) := by
  obtain ⟨hne, hdigits, rfl⟩ := h
  have htake : v.takeWhile Char.isDigit = v := List.takeWhile_eq_self_iff.mpr hdigits
  cases v with
  | nil => exact absurd rfl hne
  | cons c s =>
    have hc := hdigits c (by simp)
    have hdrop : (c :: s).dropWhile isSpace = c :: s := by
      simp [isDigit_not_isSpace hc]
    unfold stoi
    rw [hdrop, splitSign_digit s hc]
    simp only [htake, reduceCtorEq, if_false, Bool.false_eq_true]
    rw [if_pos ⟨by omega, by exact_mod_cast hn⟩]

/-! ## The argument loop -/

def outputPortFlag : CString := "--output-port".toList

def packetsPerSecondFlag : CString := "--packets-per-second".toList

/-- The two variables the loop assigns. `packets_per_second` is a `uint32_t`. -/
structure Options where
  outputPort : CString
  packetsPerSecond : ℕ
  deriving DecidableEq

/-- The conversion of an `int` to `uint32_t`. -/
def toUint32 (n : ℤ) : ℕ := (n % 2 ^ 32).toNat

/-- How an iteration of the loop ends. -/
inductive Flow where
  | next (o : Options)
  | brk (o : Options)
  /-- `exit(1)` in the `catch` block. -/
  | exit

/-- The `--output-port` test of the loop body. -/
def parseOutputPort (argv : List CString) (i : ℕ) (h : i < argv.length) (o : Options) : Flow :=
  if argv[i] = outputPortFlag then
    if h' : i + 1 < argv.length then .next { o with outputPort := argv[i + 1] }
    else .brk o
  else .next o

/-- The `--packets-per-second` test of the loop body. The `int` from
    `std::stoi` is converted to `uint32_t`. -/
def parsePacketsPerSecond (argv : List CString) (i : ℕ) (h : i < argv.length) (o : Options) :
    Flow :=
  if argv[i] = packetsPerSecondFlag then
    if h' : i + 1 < argv.length then
      match stoi argv[i + 1] with
      | some n => .next { o with packetsPerSecond := toUint32 n }
      | none => .exit
    else .brk o
  else .next o

/-- The loop body (main.cpp:470-491). -/
def parseBody (argv : List CString) (i : ℕ) (h : i < argv.length) (o : Options) : Flow :=
  match parseOutputPort argv i h o with
  | .next o => parsePacketsPerSecond argv i h o
  | r => r

/-- How the loop as a whole ends. -/
inductive Outcome where
  | done (o : Options)
  | exit
  deriving DecidableEq

/-- `for (uint16_t i = 0; i < argc; ++i)` (main.cpp:469), from index `i`, run
    for at most `fuel` tests of the loop condition; `none` when that does not
    suffice. -/
def parseLoop (argv : List CString) : (fuel : ℕ) → (i : ℕ) → Options → Option Outcome
  | 0, _, _ => none
  | fuel + 1, i, o =>
    if h : i < argv.length then
      match parseBody argv i h o with
      | .next o => parseLoop argv fuel ((i + 1) % 2 ^ 16) o
      | .brk o => some (.done o)
      | .exit => some .exit
    else some (.done o)

/-- The loop ends with `r`. -/
def ParseReturns (argv : List CString) (r : Outcome) : Prop :=
  ∃ fuel, parseLoop argv fuel 0 ⟨[], 0⟩ = some r

/-- `main` gets past the two checks after the loop (main.cpp:494-504) with
    these options. -/
def Accepts (argv : List CString) (o : Options) : Prop :=
  ParseReturns argv (.done o) ∧ o.outputPort ≠ [] ∧ o.packetsPerSecond ≠ 0

theorem parseLoop_mono {argv : List CString} {f f' i : ℕ} {o : Options} {r : Outcome}
    (h : parseLoop argv f i o = some r) (hf : f ≤ f') : parseLoop argv f' i o = some r := by
  induction f generalizing f' i o with
  | zero => simp [parseLoop] at h
  | succ f ih =>
    obtain ⟨f', rfl⟩ : ∃ g, f' = g + 1 := ⟨f' - 1, by omega⟩
    simp only [parseLoop] at h ⊢
    split_ifs at h ⊢ with hi
    · cases hb : parseBody argv i hi o with
      | next o' => rw [hb] at h; exact ih h (by omega)
      | brk o' => rw [hb] at h; exact h
      | exit => rw [hb] at h; exact h
    · exact h

theorem ParseReturns.unique {argv : List CString} {r r' : Outcome} (h : ParseReturns argv r)
    (h' : ParseReturns argv r') : r = r' := by
  obtain ⟨f, hf⟩ := h
  obtain ⟨f', hf'⟩ := h'
  have h1 := parseLoop_mono hf (le_max_left f f')
  have h2 := parseLoop_mono hf' (le_max_right f f')
  rw [h1] at h2; exact Option.some.inj h2

/-! ## One pass over the adjacent pairs -/

/-- The arguments with their successors. -/
def adjacent (argv : List CString) : List (CString × CString) := argv.zip argv.tail

/-- What an iteration does at a pair of adjacent arguments; `none` is `exit(1)`. -/
def applyPair (o : Options) (p : CString × CString) : Option Options :=
  let o := if p.1 = outputPortFlag then { o with outputPort := p.2 } else o
  if p.1 = packetsPerSecondFlag then
    (stoi p.2).map fun n => { o with packetsPerSecond := toUint32 n }
  else some o

/-- The result of applying all pairs in order. -/
def passOver (ps : List (CString × CString)) (o : Options) : Outcome :=
  match ps with
  | [] => .done o
  | p :: ps =>
    match applyPair o p with
    | some o => passOver ps o
    | none => .exit

/-- The last argument is an option without a value. -/
def DanglingOption (argv : List CString) : Prop :=
  argv.getLast? = some outputPortFlag ∨ argv.getLast? = some packetsPerSecondFlag

/-- The loop index never wraps: either `argc` fits in 16 bits, or the loop is
    left by a `break` at the last index that does. -/
def LoopEnds (argv : List CString) : Prop :=
  argv.length < 2 ^ 16 ∨ argv.length = 2 ^ 16 ∧ DanglingOption argv

theorem flags_ne : outputPortFlag ≠ packetsPerSecondFlag := by decide

theorem length_adjacent (argv : List CString) : (adjacent argv).length = argv.length - 1 := by
  simp [adjacent]

theorem drop_adjacent {argv : List CString} {i : ℕ} (h : i + 1 < argv.length) :
    (adjacent argv).drop i = (argv[i], argv[i + 1]) :: (adjacent argv).drop (i + 1) := by
  rw [List.drop_eq_getElem_cons (by rw [length_adjacent]; omega)]
  simp [adjacent]

theorem parseBody_pair {argv : List CString} {i : ℕ} (h : i + 1 < argv.length) (o : Options) :
    parseBody argv i (by omega) o =
      match applyPair o (argv[i], argv[i + 1]) with
      | some o => .next o
      | none => .exit := by
  unfold parseBody parseOutputPort parsePacketsPerSecond applyPair
  by_cases hport : argv[i] = outputPortFlag
  · simp [hport, h, flags_ne]
  · by_cases hrate : argv[i] = packetsPerSecondFlag
    · simp only [hrate, if_true, h, dif_pos]
      cases stoi argv[i + 1] <;> simp [flags_ne.symm]
    · simp [hport, hrate]

theorem parseBody_last {argv : List CString} {i : ℕ} (h : i + 1 = argv.length) (o : Options) :
    parseBody argv i (by omega) o = .next o ∧ ¬ DanglingOption argv ∨
      parseBody argv i (by omega) o = .brk o ∧ DanglingOption argv := by
  have hlast : argv.getLast? = some argv[i] := by
    rw [List.getLast?_eq_getElem?, List.getElem?_eq_getElem (by omega)]
    simp [← h]
  have hnot : ¬ i + 1 < argv.length := by omega
  unfold parseBody parseOutputPort parsePacketsPerSecond DanglingOption
  rw [hlast]
  by_cases hport : argv[i] = outputPortFlag
  · simp [hport, hnot]
  · by_cases hrate : argv[i] = packetsPerSecondFlag
    · simp [hrate, hnot, flags_ne.symm]
    · simp [hport, hrate]

theorem parseLoop_eq_passOver {argv : List CString} (hends : LoopEnds argv) :
    ∀ k i o, i + k = argv.length →
      parseLoop argv (k + 1) i o = some (passOver ((adjacent argv).drop i) o) := by
  have hlen : argv.length ≤ 2 ^ 16 := by rcases hends with h | h <;> omega
  intro k
  induction k with
  | zero =>
    intro i o hi
    rw [List.drop_eq_nil_of_le (by rw [length_adjacent]; omega)]
    simp [parseLoop, passOver, show ¬ i < argv.length by omega]
  | succ k ih =>
    intro i o hi
    rw [parseLoop, dif_pos (by omega)]
    rcases Nat.lt_or_ge (i + 1) argv.length with hlt | hge
    · rw [parseBody_pair hlt, drop_adjacent hlt, passOver]
      cases applyPair o (argv[i], argv[i + 1]) with
      | none => rfl
      | some o' =>
        simp only
        rw [Nat.mod_eq_of_lt (by omega)]
        exact ih (i + 1) o' (by omega)
    · have hlast : i + 1 = argv.length := by omega
      rw [List.drop_eq_nil_of_le (by rw [length_adjacent]; omega), passOver]
      rcases parseBody_last hlast o with ⟨hb, hno⟩ | ⟨hb, -⟩
      · rw [hb]
        have hshort : argv.length < 2 ^ 16 := by
          rcases hends with h | h
          · exact h
          · exact absurd h.2 hno
        simp only
        rw [Nat.mod_eq_of_lt (by omega), ih (i + 1) o (by omega),
          List.drop_eq_nil_of_le (by rw [length_adjacent]; omega), passOver]
      · rw [hb]

/-- When the loop ends, its result is one pass over the adjacent pairs. -/
theorem parseReturns_of_loopEnds {argv : List CString} (hends : LoopEnds argv) :
    ParseReturns argv (passOver (adjacent argv) ⟨[], 0⟩) :=
  ⟨argv.length + 1, by simpa using parseLoop_eq_passOver hends argv.length 0 ⟨[], 0⟩ (by omega)⟩

/-! ## The values of an option -/

/-- The arguments that follow an occurrence of `flag`. -/
def optionValues (flag : CString) (argv : List CString) : List CString :=
  ((adjacent argv).filter fun p => p.1 = flag).map Prod.snd

theorem mem_optionValues {flag v : CString} {argv : List CString} :
    v ∈ optionValues flag argv ↔ (flag, v) ∈ adjacent argv := by
  simp [optionValues]

/-- Only a rate that does not convert cuts the pass short. -/
theorem applyPair_eq_none {o : Options} {p : CString × CString} :
    applyPair o p = none ↔ p.1 = packetsPerSecondFlag ∧ stoi p.2 = none := by
  unfold applyPair
  by_cases hrate : p.1 = packetsPerSecondFlag <;> simp [hrate]

/-- With a wrapping index the loop ends by an exception or not at all. -/
theorem exit_of_wraps {argv : List CString} (hends : ¬ LoopEnds argv) (fuel i : ℕ) (o : Options)
    (hi : i < 2 ^ 16) {r : Outcome} (h : parseLoop argv fuel i o = some r) :
    r = .exit ∧ ∃ p ∈ (adjacent argv).take (2 ^ 16),
      p.1 = packetsPerSecondFlag ∧ stoi p.2 = none := by
  have hlen : 2 ^ 16 ≤ argv.length := by
    unfold LoopEnds at hends; omega
  induction fuel generalizing i o with
  | zero => simp [parseLoop] at h
  | succ fuel ih =>
    rw [parseLoop, dif_pos (by omega)] at h
    rcases Nat.lt_or_ge (i + 1) argv.length with hlt | hge
    · -- a pair of adjacent arguments: the iteration goes on
      rw [parseBody_pair hlt] at h
      cases hp : applyPair o (argv[i], argv[i + 1]) with
      | some o' =>
        rw [hp] at h
        exact ih _ o' (Nat.mod_lt _ (by norm_num)) h
      | none =>
        rw [hp] at h
        refine ⟨(Option.some.inj h).symm, (argv[i], argv[i + 1]), ?_, applyPair_eq_none.mp hp⟩
        have hpair : (adjacent argv)[i]? = some (argv[i], argv[i + 1]) := by
          rw [← List.head?_drop, drop_adjacent hlt, List.head?_cons]
        exact List.mem_of_getElem? (i := i) (by rw [List.getElem?_take_of_lt hi, hpair])
    · rcases parseBody_last (show i + 1 = argv.length by omega) o with ⟨hb, -⟩ | ⟨-, hd⟩
      · rw [hb] at h
        exact ih _ o (Nat.mod_lt _ (by norm_num)) h
      · exact absurd (Or.inr ⟨by omega, hd⟩) hends

/-- A rate that does not convert ends the loop, if the index gets to it. -/
theorem exit_of_rate {argv : List CString} (k i : ℕ) (o : Options) (hk : i + k ≤ 2 ^ 16)
    (hrate : ∃ p ∈ ((adjacent argv).drop i).take k,
      p.1 = packetsPerSecondFlag ∧ stoi p.2 = none) :
    ∃ fuel ≤ k, parseLoop argv fuel i o = some .exit := by
  induction k generalizing i o with
  | zero => simp at hrate
  | succ k ih =>
    obtain ⟨p, hp, hfails⟩ := hrate
    have hlt : i + 1 < argv.length := by
      by_contra hge
      rw [List.drop_eq_nil_of_le (by rw [length_adjacent]; omega)] at hp
      simp at hp
    rw [drop_adjacent hlt, List.take_succ_cons, List.mem_cons] at hp
    cases hpair : applyPair o (argv[i], argv[i + 1]) with
    | none =>
      refine ⟨1, by omega, ?_⟩
      rw [parseLoop, dif_pos (by omega), parseBody_pair hlt, hpair]
    | some o' =>
      rcases hp with rfl | hp
      · rw [applyPair_eq_none.mpr hfails] at hpair
        contradiction
      · have hwrap : (i + 1) % 2 ^ 16 = i + 1 := by
          have := List.length_pos_of_mem hp
          rw [List.length_take] at this
          omega
        obtain ⟨fuel, hle, hfuel⟩ := ih (i + 1) o' (by omega) ⟨p, hp, hfails⟩
        refine ⟨fuel + 1, by omega, ?_⟩
        rw [parseLoop, dif_pos (by omega), parseBody_pair hlt, hpair]
        show parseLoop argv fuel ((i + 1) % 2 ^ 16) o' = some .exit
        rw [hwrap, hfuel]

/-- Without an exception and with a wrapping index the loop does not end. -/
theorem not_parseReturns {argv : List CString} (hends : ¬ LoopEnds argv)
    (hstoi : ∀ v ∈ optionValues packetsPerSecondFlag argv, stoi v ≠ none) (r : Outcome) :
    ¬ ParseReturns argv r := by
  rintro ⟨fuel, hfuel⟩
  obtain ⟨-, ⟨_, v⟩, hp, rfl, hnone⟩ := exit_of_wraps hends fuel 0 _ (by norm_num) hfuel
  exact hstoi v (mem_optionValues.mpr (List.mem_of_mem_take hp)) hnone

theorem loopEnds_of_done {argv : List CString} {o : Options} (h : ParseReturns argv (.done o)) :
    LoopEnds argv := by
  by_contra hends
  obtain ⟨fuel, hfuel⟩ := h
  obtain ⟨hexit, -⟩ := exit_of_wraps hends fuel 0 _ (by norm_num) hfuel
  contradiction

/-- The value an argument of `--packets-per-second` sets. -/
def rateOf (v : CString) : ℕ := toUint32 ((stoi v).getD 0)

/-- The pass keeps the last value given for each option. -/
theorem passOver_values (ps : List (CString × CString)) (o : Options)
    (hstoi : ∀ p ∈ ps, p.1 = packetsPerSecondFlag → stoi p.2 ≠ none) :
    ∃ o', passOver ps o = .done o' ∧
      o'.outputPort =
        (((ps.filter fun p => p.1 = outputPortFlag).map Prod.snd).getLast?).getD o.outputPort ∧
      o'.packetsPerSecond =
        ((((ps.filter fun p => p.1 = packetsPerSecondFlag).map Prod.snd).getLast?).map
          rateOf).getD o.packetsPerSecond := by
  induction ps generalizing o with
  | nil => exact ⟨o, rfl, rfl, rfl⟩
  | cons p ps ih =>
    have ih' := fun o => ih o fun q hq => hstoi q (List.mem_cons_of_mem _ hq)
    by_cases hport : p.1 = outputPortFlag
    · have hrate : p.1 ≠ packetsPerSecondFlag := by rw [hport]; exact flags_ne
      obtain ⟨o', hpass, h1, h2⟩ := ih' { o with outputPort := p.2 }
      refine ⟨o', ?_, ?_, ?_⟩
      · simp [passOver, applyPair, hport, flags_ne, hpass]
      · rw [h1]; simp [hport, List.getLast?_cons]
      · rw [h2]; simp [hrate]
    · by_cases hrate : p.1 = packetsPerSecondFlag
      · obtain ⟨n, hn⟩ := Option.ne_none_iff_exists'.mp (hstoi p (by simp) hrate)
        obtain ⟨o', hpass, h1, h2⟩ := ih' { o with packetsPerSecond := toUint32 n }
        refine ⟨o', ?_, ?_, ?_⟩
        · simp [passOver, applyPair, hrate, hn, flags_ne.symm, hpass]
        · rw [h1]; simp [hport]
        · rw [h2]
          cases hl : ((ps.filter fun p => p.1 = packetsPerSecondFlag).map Prod.snd).getLast? with
          | none => simp [hrate, List.getLast?_cons, hl, hn, rateOf]
          | some v => simp [hrate, List.getLast?_cons, hl]
      · obtain ⟨o', hpass, h1, h2⟩ := ih' o
        refine ⟨o', ?_, ?_, ?_⟩
        · simp [passOver, applyPair, hport, hrate, hpass]
        · rw [h1]; simp [hport]
        · rw [h2]; simp [hrate]

/-- A pass that is not cut short has converted every rate. -/
theorem stoi_of_passOver {ps : List (CString × CString)} {o o' : Options}
    (h : passOver ps o = .done o') : ∀ p ∈ ps, p.1 = packetsPerSecondFlag → stoi p.2 ≠ none := by
  induction ps generalizing o with
  | nil => simp
  | cons p ps ih =>
    rw [passOver] at h
    cases hp : applyPair o p with
    | none =>
      rw [hp] at h
      contradiction
    | some o₁ =>
      rw [hp] at h
      rw [List.forall_mem_cons]
      refine ⟨?_, ih h⟩
      intro hrate hnone
      simp [applyPair, hrate, hnone] at hp

/-! ## What is accepted -/

/-- Every value of `--packets-per-second` converts, the last one is the rate
    and not zero, and the last value of `--output-port` is the port and not empty. -/
structure LastValues (argv : List CString) (o : Options) : Prop where
  rates : ∀ v ∈ optionValues packetsPerSecondFlag argv, stoi v ≠ none
  rate : ∃ v, (optionValues packetsPerSecondFlag argv).getLast? = some v ∧
    o.packetsPerSecond = rateOf v
  rate_ne : o.packetsPerSecond ≠ 0
  port : (optionValues outputPortFlag argv).getLast? = some o.outputPort
  port_ne : o.outputPort ≠ []

/-- The pass over a command line ends with the last value of each option, if
    every rate converts. -/
theorem passOver_adjacent_iff {argv : List CString} {o : Options} :
    passOver (adjacent argv) ⟨[], 0⟩ = .done o ↔
      (∀ v ∈ optionValues packetsPerSecondFlag argv, stoi v ≠ none) ∧
        o.outputPort = (optionValues outputPortFlag argv).getLast?.getD [] ∧
        o.packetsPerSecond =
          ((optionValues packetsPerSecondFlag argv).getLast?.map rateOf).getD 0 := by
  have hrates : (∀ v ∈ optionValues packetsPerSecondFlag argv, stoi v ≠ none) ↔
      ∀ p ∈ adjacent argv, p.1 = packetsPerSecondFlag → stoi p.2 ≠ none := by
    constructor
    · rintro h ⟨_, v⟩ hp rfl
      exact h v (mem_optionValues.mpr hp)
    · intro h v hv
      exact h (_, v) (mem_optionValues.mp hv) rfl
  rw [hrates]
  constructor
  · intro hpass
    have hstoi := stoi_of_passOver hpass
    obtain ⟨o', hpass', hport, hrate⟩ := passOver_values (adjacent argv) ⟨[], 0⟩ hstoi
    obtain rfl : o = o' := Outcome.done.inj (hpass.symm.trans hpass')
    exact ⟨hstoi, hport, hrate⟩
  · rintro ⟨hstoi, hport, hrate⟩
    obtain ⟨o', hpass, hport', hrate'⟩ := passOver_values (adjacent argv) ⟨[], 0⟩ hstoi
    have ho : o = o' := by
      cases o
      cases o'
      simp only at hport hport' hrate hrate'
      rw [hport, hport', hrate, hrate']
      rfl
    rw [ho]
    exact hpass

/-- What `main` accepts is given by the last value of each option. -/
theorem accepts_iff_lastValues {argv : List CString} {o : Options} :
    Accepts argv o ↔ LoopEnds argv ∧ LastValues argv o := by
  constructor
  · rintro ⟨hparse, hport, hrate⟩
    have hends := loopEnds_of_done hparse
    obtain ⟨hstoi, hport', hrate'⟩ :=
      passOver_adjacent_iff.mp ((parseReturns_of_loopEnds hends).unique hparse)
    refine ⟨hends, hstoi, ?_, hrate, ?_, hport⟩
    · cases hlast : (optionValues packetsPerSecondFlag argv).getLast? with
      | none =>
        rw [hlast] at hrate'
        contradiction
      | some v =>
        rw [hlast] at hrate'
        exact ⟨v, rfl, hrate'⟩
    · cases hlast : (optionValues outputPortFlag argv).getLast? with
      | none =>
        rw [hlast] at hport'
        contradiction
      | some v =>
        rw [hlast] at hport'
        exact congrArg some hport'.symm
  · rintro ⟨hends, h⟩
    obtain ⟨v, hv, hrate⟩ := h.rate
    have hpass : passOver (adjacent argv) ⟨[], 0⟩ = .done o := by
      rw [passOver_adjacent_iff, hv, h.port]
      exact ⟨h.rates, rfl, hrate⟩
    refine ⟨?_, h.port_ne, h.rate_ne⟩
    rw [← hpass]
    exact parseReturns_of_loopEnds hends

/-- No argument is rejected: every value of `--packets-per-second` that the loop
    examines converts, and if the loop ends the last values are accepted. -/
structure NeverRejected (argv : List CString) : Prop where
  rates : ∀ p ∈ (adjacent argv).take (2 ^ 16), p.1 = packetsPerSecondFlag → stoi p.2 ≠ none
  last : LoopEnds argv → ∃ o, LastValues argv o

/-- `main` either gets past its checks or stays in the loop. -/
theorem neverRejected_iff {argv : List CString} :
    NeverRejected argv ↔
      ∀ r, ParseReturns argv r →
        ∃ o, r = .done o ∧ o.outputPort ≠ [] ∧ o.packetsPerSecond ≠ 0 := by
  constructor
  · intro h r hparse
    by_cases hends : LoopEnds argv
    · obtain ⟨o, hlast⟩ := h.last hends
      obtain ⟨hdone, hport, hrate⟩ := accepts_iff_lastValues.mpr ⟨hends, hlast⟩
      exact ⟨o, hparse.unique hdone, hport, hrate⟩
    · obtain ⟨fuel, hfuel⟩ := hparse
      obtain ⟨-, p, hp, hflag, hnone⟩ := exit_of_wraps hends fuel 0 _ (by norm_num) hfuel
      exact absurd hnone (h.rates p hp hflag)
  · intro h
    refine ⟨?_, ?_⟩
    · intro p hp hflag hnone
      obtain ⟨fuel, -, hfuel⟩ := exit_of_rate (2 ^ 16) 0 _ (by norm_num) ⟨p, hp, hflag, hnone⟩
      obtain ⟨o, hexit, -⟩ := h .exit ⟨fuel, hfuel⟩
      contradiction
    · intro hends
      have hparse := parseReturns_of_loopEnds hends
      obtain ⟨o, hdone, hport, hrate⟩ := h _ hparse
      rw [hdone] at hparse
      exact ⟨o, (accepts_iff_lastValues.mp ⟨hparse, hport, hrate⟩).2⟩

end DpdkTutorials.Generator

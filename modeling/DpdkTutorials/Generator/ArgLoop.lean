import DpdkTutorials.Generator.Args

/-!
# The iterations of the argument loop

The argument loop of `9-packet-generator` with the number of its iterations and
the places of `argv` it reads (main.cpp:469-492). Every read is behind a test
against `argc`, the one of the next argument too. But the index is a `uint16_t`:
`argc - i` gets smaller in every iteration only until the index wraps.

* `outcome_run`: the loop ends as `parseLoop` does.
* `reads_lt`: no iteration of any run reads outside of `argv`.
* `iterations_le`: without a wrap there are at most `argc` iterations.
* `terminates_iff`: the command lines on which the loop ends.
-/

namespace DpdkTutorials.Generator

/-! ## The loop with what it reads -/

/-- `argv[i]`, for any `i`. -/
def arg (argv : List CString) (i : ℕ) : CString := argv.getD i []

/-- The `--output-port` test, and the places it reads. -/
def readOutputPort (argv : List CString) (i : ℕ) (o : Options) : Flow × List ℕ :=
  if arg argv i = outputPortFlag then
    if i + 1 < argv.length then (.next { o with outputPort := arg argv (i + 1) }, [i, i + 1])
    else (.brk o, [i])
  else (.next o, [i])

/-- The `--packets-per-second` test, and the places it reads. -/
def readPacketsPerSecond (argv : List CString) (i : ℕ) (o : Options) : Flow × List ℕ :=
  if arg argv i = packetsPerSecondFlag then
    if i + 1 < argv.length then
      match stoi (arg argv (i + 1)) with
      | some n => (.next { o with packetsPerSecond := toUint32 n }, [i, i + 1])
      | none => (.exit, [i, i + 1])
    else (.brk o, [i])
  else (.next o, [i])

/-- The loop body, and the places it reads. -/
def readBody (argv : List CString) (i : ℕ) (o : Options) : Flow × List ℕ :=
  match readOutputPort argv i o with
  | (.next o, reads) =>
    let (flow, reads') := readPacketsPerSecond argv i o
    (flow, reads ++ reads')
  | r => r

/-- A run of the loop, possibly cut short. -/
structure LoopRun where
  /-- `none` if the loop is still running. -/
  outcome : Option Outcome
  iterations : ℕ
  reads : List ℕ

/-- The run after one more iteration before it. -/
def LoopRun.after (r : LoopRun) (reads : List ℕ) : LoopRun where
  outcome := r.outcome
  iterations := r.iterations + 1
  reads := reads ++ r.reads

/-- The loop from index `i`, cut short after `fuel` tests of its condition. -/
def runLoop (argv : List CString) : (fuel : ℕ) → (i : ℕ) → Options → LoopRun
  | 0, _, _ => ⟨none, 0, []⟩
  | fuel + 1, i, o =>
    if i < argv.length then
      match readBody argv i o with
      | (.next o, reads) => (runLoop argv fuel ((i + 1) % 2 ^ 16) o).after reads
      | (.brk o, reads) => ⟨some (.done o), 1, reads⟩
      | (.exit, reads) => ⟨some .exit, 1, reads⟩
    else ⟨some (.done o), 0, []⟩

/-- The loop ends after at most `argc` iterations that read nothing but the
    arguments. -/
def Terminates (argv : List CString) : Prop :=
  ∃ fuel, (runLoop argv fuel 0 ⟨[], 0⟩).outcome ≠ none ∧
    (runLoop argv fuel 0 ⟨[], 0⟩).iterations ≤ argv.length ∧
    ∀ i ∈ (runLoop argv fuel 0 ⟨[], 0⟩).reads, i < argv.length

variable {argv : List CString} {i fuel : ℕ} {o : Options}

/-! ## The body -/

theorem arg_eq (h : i < argv.length) : arg argv i = argv[i] := List.getD_eq_getElem _ _ h

theorem readOutputPort_fst (h : i < argv.length) :
    (readOutputPort argv i o).1 = parseOutputPort argv i h o := by
  unfold readOutputPort parseOutputPort
  rw [arg_eq h]
  split_ifs with hport hnext
  · rw [arg_eq hnext]
  · rfl
  · rfl

theorem readPacketsPerSecond_fst (h : i < argv.length) :
    (readPacketsPerSecond argv i o).1 = parsePacketsPerSecond argv i h o := by
  unfold readPacketsPerSecond parsePacketsPerSecond
  rw [arg_eq h]
  split_ifs with hrate hnext
  · rw [arg_eq hnext]
    cases stoi argv[i + 1] <;> rfl
  · rfl
  · rfl

theorem readBody_fst (h : i < argv.length) : (readBody argv i o).1 = parseBody argv i h o := by
  unfold readBody parseBody
  rw [← readOutputPort_fst h]
  obtain ⟨flow, reads⟩ := readOutputPort argv i o
  cases flow with
  | next o' => exact readPacketsPerSecond_fst h
  | brk o' => rfl
  | exit => rfl

/-- The next argument is read only if there is one. -/
theorem readOutputPort_lt (h : i < argv.length) :
    ∀ k ∈ (readOutputPort argv i o).2, k < argv.length := by
  unfold readOutputPort
  split_ifs with hport hnext <;> simp [h]
  exact hnext

theorem readPacketsPerSecond_lt (h : i < argv.length) :
    ∀ k ∈ (readPacketsPerSecond argv i o).2, k < argv.length := by
  unfold readPacketsPerSecond
  split_ifs with hrate hnext
  · cases stoi (arg argv (i + 1)) <;> simp [h, hnext]
  · simp [h]
  · simp [h]

theorem readBody_lt (h : i < argv.length) : ∀ k ∈ (readBody argv i o).2, k < argv.length := by
  have hport := readOutputPort_lt (o := o) h
  unfold readBody
  generalize readOutputPort argv i o = r at hport
  obtain ⟨flow, reads⟩ := r
  cases flow with
  | next o' =>
    intro k hk
    rcases List.mem_append.mp hk with hk | hk
    · exact hport k hk
    · exact readPacketsPerSecond_lt h k hk
  | brk o' => exact hport
  | exit => exact hport

/-! ## Runs -/

/-- One iteration. It goes on or ends as that of `parseLoop` does. -/
theorem runLoop_succ (h : i < argv.length) :
    runLoop argv (fuel + 1) i o =
      match parseBody argv i h o with
      | .next o' => (runLoop argv fuel ((i + 1) % 2 ^ 16) o').after (readBody argv i o).2
      | .brk o' => ⟨some (.done o'), 1, (readBody argv i o).2⟩
      | .exit => ⟨some .exit, 1, (readBody argv i o).2⟩ := by
  rw [runLoop, if_pos h, ← readBody_fst h]
  obtain ⟨flow, reads⟩ := readBody argv i o
  cases flow <;> rfl

theorem runLoop_of_le (h : argv.length ≤ i) :
    runLoop argv (fuel + 1) i o = ⟨some (.done o), 0, []⟩ := by
  rw [runLoop, if_neg (Nat.not_lt.mpr h)]

theorem outcome_run : (runLoop argv fuel i o).outcome = parseLoop argv fuel i o := by
  induction fuel generalizing i o with
  | zero => rfl
  | succ fuel ih =>
    rw [parseLoop]
    split_ifs with h
    · rw [runLoop_succ h]
      cases parseBody argv i h o with
      | next o' => exact ih
      | brk o' => rfl
      | exit => rfl
    · rw [runLoop_of_le (Nat.not_lt.mp h)]

theorem reads_lt : ∀ k ∈ (runLoop argv fuel i o).reads, k < argv.length := by
  induction fuel generalizing i o with
  | zero => exact nofun
  | succ fuel ih =>
    rcases Nat.lt_or_ge i argv.length with h | h
    · rw [runLoop_succ h]
      cases parseBody argv i h o with
      | next o' =>
        intro k hk
        rcases List.mem_append.mp hk with hk | hk
        · exact readBody_lt h k hk
        · exact ih k hk
      | brk o' => exact readBody_lt h
      | exit => exact readBody_lt h
    · rw [runLoop_of_le h]
      exact nofun

theorem iterations_le_fuel : (runLoop argv fuel i o).iterations ≤ fuel := by
  induction fuel generalizing i o with
  | zero => exact le_refl 0
  | succ fuel ih =>
    rcases Nat.lt_or_ge i argv.length with h | h
    · rw [runLoop_succ h]
      cases parseBody argv i h o with
      | next o' => exact Nat.succ_le_succ ih
      | brk o' => exact Nat.succ_le_succ (Nat.zero_le fuel)
      | exit => exact Nat.succ_le_succ (Nat.zero_le fuel)
    · rw [runLoop_of_le h]
      exact Nat.zero_le _

/-- If an iteration goes on although no argument is left after its own, then
    there are fewer arguments than the index can count. -/
theorem index_lt_of_next (hends : LoopEnds argv) (h : i < argv.length) {o' : Options}
    (hnext : parseBody argv i h o = .next o') : i + 1 < 2 ^ 16 := by
  have hlen : argv.length ≤ 2 ^ 16 := by rcases hends with h | h <;> omega
  rcases Nat.lt_or_ge (i + 1) argv.length with hlt | hge
  · omega
  · rcases parseBody_last (show i + 1 = argv.length by omega) o with ⟨-, hno⟩ | ⟨hbrk, -⟩
    · rcases hends with hshort | ⟨-, hdangling⟩
      · omega
      · exact absurd hdangling hno
    · rw [hnext] at hbrk
      contradiction

/-- While the index does not wrap, `argc - i` bounds the iterations left. -/
theorem iterations_le (hends : LoopEnds argv) : ∀ k i o, i + k = argv.length →
    (runLoop argv (k + 1) i o).iterations ≤ k := by
  intro k
  induction k with
  | zero =>
    intro i o hi
    rw [runLoop_of_le (by omega)]
  | succ k ih =>
    intro i o hi
    have h : i < argv.length := by omega
    rw [runLoop_succ h]
    cases hbody : parseBody argv i h o with
    | next o' =>
      simp only
      rw [Nat.mod_eq_of_lt (index_lt_of_next hends h hbody)]
      exact Nat.succ_le_succ (ih (i + 1) o' (by omega))
    | brk o' => exact Nat.succ_le_succ (Nat.zero_le k)
    | exit => exact Nat.succ_le_succ (Nat.zero_le k)

/-! ## When the loop ends -/

/-- The loop ends in time iff the index does not wrap or a rate that does not
    convert stops it before. -/
theorem terminates_iff (argv : List CString) :
    Terminates argv ↔ LoopEnds argv ∨ ∃ p ∈ (adjacent argv).take (2 ^ 16),
      p.1 = packetsPerSecondFlag ∧ stoi p.2 = none := by
  constructor
  · rintro ⟨fuel, hends, -, -⟩
    by_cases hwraps : LoopEnds argv
    · exact .inl hwraps
    · obtain ⟨r, hr⟩ := Option.ne_none_iff_exists'.mp hends
      rw [outcome_run] at hr
      exact .inr (exit_of_wraps hwraps fuel 0 _ (by norm_num) hr).2
  · intro h
    by_cases hends : LoopEnds argv
    · refine ⟨argv.length + 1, ?_, iterations_le hends argv.length 0 _ (Nat.zero_add _), reads_lt⟩
      rw [outcome_run, parseLoop_eq_passOver hends argv.length 0 _ (Nat.zero_add _)]
      exact Option.some_ne_none _
    · obtain ⟨fuel, hle, hfuel⟩ :=
        exit_of_rate (2 ^ 16) 0 ⟨[], 0⟩ (by norm_num) (h.resolve_left hends)
      have hlong : 2 ^ 16 ≤ argv.length := by
        unfold LoopEnds at hends
        omega
      refine ⟨fuel, ?_, iterations_le_fuel.trans (hle.trans hlong), reads_lt⟩
      rw [outcome_run, hfuel]
      exact Option.some_ne_none _

/-- With 65536 empty arguments the index never gets to `argc`. -/
theorem not_terminates : ¬ Terminates (List.replicate 65536 []) := by
  rintro ⟨fuel, hends, -, -⟩
  obtain ⟨r, hr⟩ := Option.ne_none_iff_exists'.mp hends
  rw [outcome_run] at hr
  refine not_parseReturns ?_ ?_ r ⟨fuel, hr⟩
  · rintro (hshort | ⟨-, hdangling⟩)
    · rw [List.length_replicate] at hshort
      omega
    · have hlast : (List.replicate 65536 ([] : CString)).getLast? = some [] := by
        rw [List.getLast?_replicate, if_neg (by norm_num)]
      unfold DanglingOption at hdangling
      rw [hlast] at hdangling
      exact absurd hdangling (by decide)
  · intro v hv
    have hmem := (List.of_mem_zip (mem_optionValues.mp hv)).1
    exact absurd (List.eq_of_mem_replicate hmem) (by decide)

end DpdkTutorials.Generator

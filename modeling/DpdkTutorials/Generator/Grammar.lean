import DpdkTutorials.Generator.Rate

/-!
# The grammar of the command line of `9-packet-generator`

The usage message (main.cpp:420-427) describes two options, each followed by a
value. Read from left to right, an option takes the next argument as its value,
an option at the end is dropped, and all other arguments are skipped (`scan`).
The argument loop of `main` goes over pairs of adjacent arguments instead, so
that a value which is itself the name of an option is read once more as an
option. And the rate is whatever `std::stoi` makes of its value, which need not
be a numeral as a whole.

* `adjacentOptions_eq_scan`: where no value is the name of an option the two ways of
  reading find the same values.
* `accepts_iff_scan`: `main` accepts by the values of the scan, with every rate
  converted by `std::stoi`.
* `seven_million_accepted`: a line that is not in the grammar.
-/

namespace DpdkTutorials.Generator

/-! ## The reference parser -/

/-- The name of an option. -/
def IsOption (s : CString) : Prop := s = outputPortFlag ∨ s = packetsPerSecondFlag

instance (s : CString) : Decidable (IsOption s) := inferInstanceAs (Decidable (_ ∨ _))

/-- The options of a command line with their values. A value is not examined as
    an option itself. -/
def scan : List CString → List (CString × CString)
  | s :: v :: argv => if IsOption s then (s, v) :: scan argv else scan (v :: argv)
  | _ => []

/-- The values the scan finds for an option. -/
def scanValues (flag : CString) (argv : List CString) : List CString :=
  ((scan argv).filter fun p => p.1 = flag).map Prod.snd

/-- The grammar: each rate is, as a whole, a decimal numeral between 1 and
    `2^31 - 1`, and the last value of each option is taken. -/
structure GrammarAccepts (argv : List CString) (o : Options) : Prop where
  rates : ∀ v ∈ scanValues packetsPerSecondFlag argv, ∃ n, IsDecimal v n ∧ 1 ≤ n ∧ n < 2 ^ 31
  rate : ∃ v, (scanValues packetsPerSecondFlag argv).getLast? = some v ∧
    IsDecimal v o.packetsPerSecond
  port : (scanValues outputPortFlag argv).getLast? = some o.outputPort
  port_ne : o.outputPort ≠ []

/-- The grammar with the rates as the code takes them: `std::stoi` converts each
    of them, and the last one, as a `uint32_t`, is not zero. -/
structure StoiAccepts (argv : List CString) (o : Options) : Prop where
  rates : ∀ v ∈ scanValues packetsPerSecondFlag argv, stoi v ≠ none
  rate : ∃ v n, (scanValues packetsPerSecondFlag argv).getLast? = some v ∧ stoi v = some n ∧
    o.packetsPerSecond = toUint32 n
  rate_ne : o.packetsPerSecond ≠ 0
  port : (scanValues outputPortFlag argv).getLast? = some o.outputPort
  port_ne : o.outputPort ≠ []

/-! ## The two ways of reading -/

theorem scan_option {s v : CString} (argv : List CString) (h : IsOption s) :
    scan (s :: v :: argv) = (s, v) :: scan argv := by
  rw [scan, if_pos h]

theorem scan_skip {s : CString} (argv : List CString) (h : ¬ IsOption s) :
    scan (s :: argv) = scan argv := by
  cases argv with
  | nil => rfl
  | cons v argv => rw [scan, if_neg h]

theorem adjacent_cons (s v : CString) (argv : List CString) :
    adjacent (s :: v :: argv) = (s, v) :: adjacent (v :: argv) := rfl

/-- The options among the pairs of adjacent arguments. -/
def adjacentOptions (argv : List CString) : List (CString × CString) :=
  (adjacent argv).filter fun p => IsOption p.1

theorem adjacentOptions_skip {s : CString} (argv : List CString) (h : ¬ IsOption s) :
    adjacentOptions (s :: argv) = adjacentOptions argv := by
  cases argv with
  | nil => rfl
  | cons v argv =>
    rw [adjacentOptions, adjacent_cons, List.filter_cons_of_neg (by simpa using h)]
    rfl

theorem adjacentOptions_option {s v : CString} (argv : List CString) (h : IsOption s) :
    adjacentOptions (s :: v :: argv) = (s, v) :: adjacentOptions (v :: argv) := by
  rw [adjacentOptions, adjacent_cons, List.filter_cons_of_pos (by simpa using h)]
  rfl

theorem mem_adjacentOptions_cons {p : CString × CString} {argv : List CString} (s : CString)
    (h : p ∈ adjacentOptions argv) : p ∈ adjacentOptions (s :: argv) := by
  cases argv with
  | nil => exact absurd h List.not_mem_nil
  | cons v argv =>
    obtain ⟨hmem, hoption⟩ := List.mem_filter.mp h
    exact List.mem_filter.mpr ⟨List.mem_cons_of_mem _ hmem, hoption⟩

/-- Each option the scan finds, the loop finds as well. -/
theorem mem_adjacentOptions_of_scan {p : CString × CString} {argv : List CString}
    (h : p ∈ scan argv) : p ∈ adjacentOptions argv := by
  induction argv using scan.induct with
  | case1 s v argv hs ih =>
    rw [scan_option argv hs] at h
    rw [adjacentOptions_option argv hs]
    rcases List.mem_cons.mp h with rfl | h
    · exact List.mem_cons_self
    · exact List.mem_cons_of_mem _ (mem_adjacentOptions_cons v (ih h))
  | case2 s v argv hs ih =>
    rw [scan_skip _ hs] at h
    rw [adjacentOptions_skip _ hs]
    exact ih h
  | case3 argv hshort =>
    rw [scan.eq_2 argv hshort] at h
    exact absurd h List.not_mem_nil

/-- Where no value is the name of an option the loop finds what the scan finds. -/
theorem adjacentOptions_eq_scan {argv : List CString} (h : ∀ p ∈ scan argv, ¬ IsOption p.2) :
    adjacentOptions argv = scan argv := by
  induction argv using scan.induct with
  | case1 s v argv hs ih =>
    rw [scan_option argv hs, List.forall_mem_cons] at h
    rw [adjacentOptions_option argv hs, scan_option argv hs, adjacentOptions_skip argv h.1, ih h.2]
  | case2 s v argv hs ih =>
    rw [scan_skip _ hs] at h ⊢
    rw [adjacentOptions_skip _ hs, ih h]
  | case3 argv hshort =>
    rw [scan.eq_2 argv hshort]
    match argv, hshort with
    | [], _ => rfl
    | [_], _ => rfl
    | s :: v :: rest, hshort => exact absurd rfl (hshort s v rest)

/-- The values of an option are those of its occurrences among the options. -/
theorem optionValues_eq {flag : CString} (hflag : IsOption flag) (argv : List CString) :
    optionValues flag argv = ((adjacentOptions argv).filter fun p => p.1 = flag).map Prod.snd := by
  rw [optionValues, adjacentOptions, List.filter_filter]
  congr 2
  funext p
  by_cases hp : p.1 = flag
  · simp [hp, hflag]
  · simp [hp]

/-! ## What is accepted -/

theorem stoi_isOption {s : CString} (h : IsOption s) : stoi s = none := by
  rcases h with rfl | rfl
  · rfl
  · rfl

theorem mem_optionValues_of_scanValues {flag v : CString} {argv : List CString}
    (hflag : IsOption flag) (h : v ∈ scanValues flag argv) : v ∈ optionValues flag argv := by
  obtain ⟨p, hp, rfl⟩ := List.mem_map.mp h
  obtain ⟨hscan, hpflag⟩ := List.mem_filter.mp hp
  rw [optionValues_eq hflag]
  exact List.mem_map.mpr ⟨p, List.mem_filter.mpr ⟨mem_adjacentOptions_of_scan hscan, hpflag⟩, rfl⟩

/-- The values of all options, by option. -/
theorem not_isOption_of_scan {argv : List CString}
    (hrates : ∀ v ∈ scanValues packetsPerSecondFlag argv, ¬ IsOption v)
    (hports : ∀ v ∈ scanValues outputPortFlag argv, ¬ IsOption v) :
    ∀ p ∈ scan argv, ¬ IsOption p.2 := by
  intro p hp
  have hoption : IsOption p.1 := by
    have hmem := mem_adjacentOptions_of_scan hp
    simpa using (List.mem_filter.mp hmem).2
  rcases hoption with hflag | hflag
  · exact hports p.2 (List.mem_map.mpr ⟨p, List.mem_filter.mpr ⟨hp, by simpa using hflag⟩, rfl⟩)
  · exact hrates p.2 (List.mem_map.mpr ⟨p, List.mem_filter.mpr ⟨hp, by simpa using hflag⟩, rfl⟩)

/-- With convertible rates, and ports that are not names of options, the loop
    finds the values of the scan. -/
theorem optionValues_eq_scanValues {argv : List CString}
    (hrates : ∀ v ∈ scanValues packetsPerSecondFlag argv, stoi v ≠ none)
    (hports : ∀ v ∈ scanValues outputPortFlag argv, ¬ IsOption v) {flag : CString}
    (hflag : IsOption flag) : optionValues flag argv = scanValues flag argv := by
  rw [optionValues_eq hflag, scanValues, adjacentOptions_eq_scan]
  exact not_isOption_of_scan (fun v hv hoption => hrates v hv (stoi_isOption hoption)) hports

theorem lastValues_iff {argv : List CString} {o : Options}
    (hports : ∀ v ∈ scanValues outputPortFlag argv, ¬ IsOption v) :
    LastValues argv o ↔ StoiAccepts argv o := by
  constructor
  · intro h
    have hrates : ∀ v ∈ scanValues packetsPerSecondFlag argv, stoi v ≠ none := fun v hv =>
      h.rates v (mem_optionValues_of_scanValues (.inr rfl) hv)
    have hvalues := fun flag => @optionValues_eq_scanValues argv hrates hports flag
    obtain ⟨v, hv, hrate⟩ := h.rate
    obtain ⟨n, hn⟩ := Option.ne_none_iff_exists'.mp (h.rates v (List.mem_of_getLast? hv))
    refine ⟨hrates, ⟨v, n, ?_, hn, ?_⟩, h.rate_ne, ?_, h.port_ne⟩
    · rw [← hvalues _ (.inr rfl)]
      exact hv
    · rw [hrate, rateOf, hn, Option.getD_some]
    · rw [← hvalues _ (.inl rfl)]
      exact h.port
  · intro h
    have hvalues := fun flag => @optionValues_eq_scanValues argv h.rates hports flag
    obtain ⟨v, n, hv, hn, hrate⟩ := h.rate
    refine ⟨?_, ⟨v, ?_, ?_⟩, h.rate_ne, ?_, h.port_ne⟩
    · rw [hvalues _ (.inr rfl)]
      exact h.rates
    · rw [hvalues _ (.inr rfl)]
      exact hv
    · rw [hrate, rateOf, hn, Option.getD_some]
    · rw [hvalues _ (.inl rfl)]
      exact h.port

/-- A line of the grammar is one with convertible rates. -/
theorem GrammarAccepts.stoiAccepts {argv : List CString} {o : Options}
    (h : GrammarAccepts argv o) : StoiAccepts argv o := by
  obtain ⟨v, hv, hdec⟩ := h.rate
  obtain ⟨n, hdec', hpos, hlt⟩ := h.rates v (List.mem_of_getLast? hv)
  have hn : o.packetsPerSecond = n := hdec.2.2.symm.trans hdec'.2.2
  refine ⟨?_, ⟨v, n, hv, stoi_decimal hdec' hlt, ?_⟩, by omega, h.port, h.port_ne⟩
  · intro w hw
    obtain ⟨m, hm, -, hmlt⟩ := h.rates w hw
    simp [stoi_decimal hm hmlt]
  · rw [hn, toUint32]
    omega

/-- As long as no port is the name of an option, `main` accepts exactly by the
    values of the scan, with each rate converted by `std::stoi`; so it accepts
    every line of the grammar. -/
theorem accepts_iff_scan {argv : List CString} {o : Options} (hlen : argv.length < 2 ^ 16)
    (hports : ∀ v ∈ scanValues outputPortFlag argv, ¬ IsOption v) :
    (Accepts argv o ↔ StoiAccepts argv o) ∧ (GrammarAccepts argv o → Accepts argv o) := by
  have hiff : Accepts argv o ↔ StoiAccepts argv o := by
    rw [accepts_iff_lastValues, lastValues_iff hports]
    exact and_iff_right (.inl hlen)
  exact ⟨hiff, fun h => hiff.mpr h.stoiAccepts⟩

theorem scanValues_usage : scanValues outputPortFlag (usageArgs "30000".toList) =
    ["0000:00:09.0".toList] := by decide

/-- The example of the usage message. -/
theorem accepts_iff_scan_usage :
    StoiAccepts (usageArgs "30000".toList) ⟨"0000:00:09.0".toList, toUint32 30000⟩ := by
  refine (accepts_iff_scan (by decide) ?_).1.mp (accepts_usageArgs stoi_usage (by decide))
  rw [scanValues_usage]
  decide

/-- `std::stoi` reads 7 packets per second from `7M`, which is not a numeral. -/
theorem seven_million_accepted : ¬ ∀ argv o, argv.length < 2 ^ 16 →
    (Accepts argv o ↔ GrammarAccepts argv o) := by
  intro h
  have hseven : stoi ['7', 'M'] = some 7 := rfl
  have hgrammar := (h _ _ (by decide)).mp (accepts_usageArgs hseven (by decide))
  obtain ⟨v, hv, hdec⟩ := hgrammar.rate
  have hvalues : scanValues packetsPerSecondFlag (usageArgs ['7', 'M']) = [['7', 'M']] := by decide
  rw [hvalues] at hv
  obtain rfl : ['7', 'M'] = v := Option.some.inj hv
  exact absurd (hdec.2.1 'M' (by simp)) (by decide)

end DpdkTutorials.Generator

import DpdkTutorials.Generator.Args

/-!
# The requested and the configured packet rate of `9-packet-generator`

The rate passes from the command line (an `int`, then `uint32_t`) through the
field `packets_per_second` of `PacketTransmissionThreadParams`, a `uint16_t`
(main.cpp:43), into the interval between two bursts of 16 packets
(main.cpp:362-364).

* `requested_rate_iff`: a requested rate `16 ≤ n ≤ 10000000` is configured up
  to rounding exactly when `n` fits in the 16-bit field and the argument loop
  ends.
* `readme_rate_lost`: the roughly 7 million packets per second of the README
  are not.
-/

namespace DpdkTutorials.Generator

/-! ## Model -/

/-- `PacketTransmissionThreadParams` (main.cpp:40-44), three `uint16_t`. -/
structure PacketTransmissionThreadParams where
  portId : ℕ
  queueId : ℕ
  packetsPerSecond : ℕ

/-- The parameters `main` passes to the transmission routine (main.cpp:647-650). -/
def threadParams (outputPortId : ℕ) (o : Options) : PacketTransmissionThreadParams where
  portId := outputPortId
  queueId := 0
  packetsPerSecond := o.packetsPerSecond % 2 ^ 16

/-- `packet_tx_burst_size` (main.cpp:363). -/
def packetTxBurstSize : ℕ := 16

/-- `interburst_time_ns` (main.cpp:364); `none` is a division by zero. -/
def interburstTimeNs (params : PacketTransmissionThreadParams) : Option ℕ :=
  let packetsPerSecond := params.packetsPerSecond
  if packetsPerSecond / packetTxBurstSize = 0 then none
  else some (1 * 1000000000 / (packetsPerSecond / packetTxBurstSize))

/-- Started with `argv`, the transmission routine computes the interval `I`. -/
def ConfiguredInterval (argv : List CString) (I : ℕ) : Prop :=
  ∃ o outputPortId, Accepts argv o ∧ interburstTimeNs (threadParams outputPortId o) = some I

/-- 16 packets every `I` nanoseconds are `n` packets per second, up to rounding. -/
def RateMatches (I n : ℕ) : Prop := |(16 * 10 ^ 9 : ℚ) / I - n| ≤ 15 + (n : ℚ) / 1000

/-- `argv` requests `n` packets per second: every value of
    `--packets-per-second` is a decimal numeral in the range of `int` and the
    last one is `n`; the values of `--output-port` are not option names and
    the last one is not empty. -/
structure Requests (argv : List CString) (n : ℕ) : Prop where
  rates : ∀ v ∈ optionValues packetsPerSecondFlag argv, ∃ m, IsDecimal v m ∧ m < 2 ^ 31
  rate : ∃ v, (optionValues packetsPerSecondFlag argv).getLast? = some v ∧ IsDecimal v n
  ports : ∀ v ∈ optionValues outputPortFlag argv, v ≠ outputPortFlag ∧ v ≠ packetsPerSecondFlag
  port : ∃ v, (optionValues outputPortFlag argv).getLast? = some v ∧ v ≠ []

/-! ## Parsing -/

theorem rateOf_decimal {v : CString} {n : ℕ} (h : IsDecimal v n) (hn : n < 2 ^ 31) :
    rateOf v = n := by
  rw [rateOf, stoi_decimal h hn]
  simp only [Option.getD_some, toUint32]
  omega

/-- A requested rate reaches the variable `packets_per_second` unchanged. -/
theorem Requests.accepts {argv : List CString} {n : ℕ} (h : Requests argv n) (h0 : n ≠ 0)
    (hends : LoopEnds argv) : ∃ o, Accepts argv o ∧ o.packetsPerSecond = n := by
  obtain ⟨v, hv, hdec⟩ := h.rate
  obtain ⟨p, hp, hne⟩ := h.port
  have hn : n < 2 ^ 31 := by
    obtain ⟨m, hm, hlt⟩ := h.rates v (List.mem_of_getLast? hv)
    have : m = n := hm.2.2.symm.trans hdec.2.2
    omega
  have hlast : LastValues argv ⟨p, n⟩ := by
    refine ⟨?_, ⟨v, hv, (rateOf_decimal hdec hn).symm⟩, h0, hp, hne⟩
    intro w hw
    obtain ⟨m, hm, hlt⟩ := h.rates w hw
    simp [stoi_decimal hm hlt]
  exact ⟨⟨p, n⟩, accepts_iff_lastValues.mpr ⟨hends, hlast⟩, rfl⟩

/-- When the index of the argument loop wraps, the program never transmits. -/
theorem ConfiguredInterval.loopEnds {argv : List CString} {I : ℕ}
    (h : ConfiguredInterval argv I) : LoopEnds argv := by
  obtain ⟨o, _, ⟨hparse, -⟩, -⟩ := h
  exact loopEnds_of_done hparse

/-- The configured interval is the one of the 16-bit remainder of the rate. -/
theorem Requests.interval_iff {argv : List CString} {n : ℕ} (h : Requests argv n) (h0 : n ≠ 0)
    (hends : LoopEnds argv) (I : ℕ) :
    ConfiguredInterval argv I ↔ n % 2 ^ 16 / 16 ≠ 0 ∧ I = 1000000000 / (n % 2 ^ 16 / 16) := by
  obtain ⟨o, hacc, hrate⟩ := h.accepts h0 hends
  constructor
  · rintro ⟨o', p, hacc', hI⟩
    have ho : o' = o := Outcome.done.inj (hacc'.1.unique hacc.1)
    subst ho
    simp only [interburstTimeNs, threadParams, hrate, packetTxBurstSize] at hI
    split_ifs at hI with hz
    exact ⟨hz, by simpa using hI.symm⟩
  · rintro ⟨hz, rfl⟩
    refine ⟨o, 0, hacc, ?_⟩
    simp only [interburstTimeNs, threadParams, hrate, packetTxBurstSize]
    rw [if_neg hz, one_mul]

/-! ## Rounding -/

/-- The nominal rate of the interval computed from a 16-bit rate `m` lies
    between the multiple of 16 below `m` and `m + 1`. -/
theorem nominal_rate_bounds {m : ℕ} (h16 : m / 16 ≠ 0) (hm : m < 2 ^ 16) :
    (1000000000 / (m / 16) : ℕ) ≠ 0 ∧
    (m : ℚ) - 15 ≤ 16 * 10 ^ 9 / (1000000000 / (m / 16) : ℕ) ∧
    (16 * 10 ^ 9 / (1000000000 / (m / 16) : ℕ) : ℚ) ≤ m + 1 := by
  set k := m / 16 with hk
  have hk1 : 1 ≤ k := Nat.one_le_iff_ne_zero.mpr h16
  have hk2 : k ≤ 4095 := by omega
  set I := 1000000000 / k with hI
  have hbig : 244200 ≤ I := by
    rw [hI, Nat.le_div_iff_mul_le hk1]; omega
  have hlow : I * k ≤ 1000000000 := Nat.div_mul_le_self _ _
  have hup : 1000000000 ≤ (I + 1) * k := by
    have hdiv := Nat.div_add_mod 1000000000 k
    have hmod := Nat.mod_lt 1000000000 hk1
    rw [← hI] at hdiv
    linarith [mul_comm k I, add_mul I 1 k]
  have hIpos : (0 : ℚ) < I := by exact_mod_cast (by omega : 0 < I)
  have hlow' : (I : ℚ) * k ≤ 10 ^ 9 := by exact_mod_cast hlow
  have hup' : (10 ^ 9 : ℚ) ≤ (I + 1) * k := by exact_mod_cast hup
  have hm1 : (m : ℚ) ≤ 16 * k + 15 := by exact_mod_cast (by omega : m ≤ 16 * k + 15)
  have hm2 : (16 * k : ℚ) ≤ m := by exact_mod_cast (by omega : 16 * k ≤ m)
  have hk3 : (k : ℚ) ≤ 4095 := by exact_mod_cast hk2
  have hI3 : (244200 : ℚ) ≤ I := by exact_mod_cast hbig
  refine ⟨by omega, ?_, ?_⟩
  · rw [le_div_iff₀ hIpos]
    calc ((m : ℚ) - 15) * I ≤ 16 * k * I := by gcongr; linarith
      _ ≤ 16 * 10 ^ 9 := by linarith
  · rw [div_le_iff₀ hIpos]
    calc (16 * 10 ^ 9 : ℚ) ≤ 16 * k * I + 16 * k := by linarith
      _ ≤ m * I + I := by nlinarith
      _ = (m + 1) * I := by ring

/-- A rate that fits the field is configured up to rounding. -/
theorem rateMatches_of_lt {n : ℕ} (h16 : 16 ≤ n) (hn : n < 2 ^ 16) :
    RateMatches (1000000000 / (n / 16)) n := by
  obtain ⟨-, hlow, hup⟩ := nominal_rate_bounds (by omega : n / 16 ≠ 0) hn
  have : (0 : ℚ) ≤ (n : ℚ) / 1000 := by positivity
  unfold RateMatches
  rw [abs_le]
  constructor <;> linarith

/-- A rate that does not fit loses at least 65536 packets per second. -/
theorem not_rateMatches_of_ge {n : ℕ} (hn : 2 ^ 16 ≤ n) (hmax : n ≤ 10000000)
    (h16 : n % 2 ^ 16 / 16 ≠ 0) : ¬ RateMatches (1000000000 / (n % 2 ^ 16 / 16)) n := by
  obtain ⟨-, -, hup⟩ := nominal_rate_bounds h16 (Nat.mod_lt n (by norm_num))
  have hlost : ((n % 2 ^ 16 : ℕ) : ℚ) + 65536 ≤ n := by
    exact_mod_cast (by omega : n % 2 ^ 16 + 65536 ≤ n)
  have hmax' : (n : ℚ) ≤ 10000000 := by exact_mod_cast hmax
  unfold RateMatches
  rw [abs_le]
  rintro ⟨hlow, -⟩
  generalize (16 * 10 ^ 9 / (1000000000 / (n % 2 ^ 16 / 16) : ℕ) : ℚ) = rate at hup hlow
  linarith

/-! ## The requested rate -/

/-- **Main theorem.** A requested rate between 16 and 10 million packets per
    second is the configured one, up to rounding, exactly when it is below
    65536 and the argument loop ends. -/
theorem requested_rate_iff {argv : List CString} {n : ℕ} (h : Requests argv n) (h16 : 16 ≤ n)
    (hmax : n ≤ 10000000) :
    (∃ I, ConfiguredInterval argv I ∧ I ≠ 0 ∧ RateMatches I n) ↔ n < 2 ^ 16 ∧ LoopEnds argv := by
  have h0 : n ≠ 0 := by omega
  constructor
  · rintro ⟨I, hI, -, hmatch⟩
    have hends := hI.loopEnds
    refine ⟨?_, hends⟩
    obtain ⟨hz, rfl⟩ := (h.interval_iff h0 hends I).mp hI
    by_contra hge
    exact not_rateMatches_of_ge (by omega) hmax hz hmatch
  · rintro ⟨hlt, hends⟩
    have hmod : n % 2 ^ 16 = n := Nat.mod_eq_of_lt hlt
    have hz : n / 16 ≠ 0 := by omega
    refine ⟨1000000000 / (n / 16), ?_, (nominal_rate_bounds hz hlt).1, rateMatches_of_lt h16 hlt⟩
    rw [h.interval_iff h0 hends, hmod]
    exact ⟨hz, rfl⟩

/-- The options of the README's example, with the rate it reports for a 10 Gbps
    adapter. -/
def readmeArgs : List CString :=
  ["packet-generator".toList, outputPortFlag, "0000:00:09.0".toList, packetsPerSecondFlag,
    "7000000".toList]

theorem requests_readmeArgs : Requests readmeArgs 7000000 := by
  have hrates : optionValues packetsPerSecondFlag readmeArgs = ["7000000".toList] := by decide
  have hports : optionValues outputPortFlag readmeArgs = ["0000:00:09.0".toList] := by decide
  have hdec : IsDecimal "7000000".toList 7000000 :=
    ⟨by decide, by simp [Char.isDigit], by simp [decimalValue]⟩
  refine ⟨?_, ⟨_, by rw [hrates]; rfl, hdec⟩, ?_, ⟨_, by rw [hports]; rfl, by decide⟩⟩
  · rw [hrates]
    intro v hv
    rw [List.mem_singleton.mp hv]
    exact ⟨7000000, hdec, by norm_num⟩
  · rw [hports]; decide

/-- The field keeps 53184 of the 7000000 requested packets per second. -/
theorem readme_rate_lost :
    ¬ ∀ argv n, Requests argv n → 16 ≤ n → n ≤ 10000000 →
      ∃ I, ConfiguredInterval argv I ∧ I ≠ 0 ∧ RateMatches I n := by
  intro h
  obtain ⟨I, hI, -, hmatch⟩ := h readmeArgs 7000000 requests_readmeArgs (by norm_num) (by norm_num)
  have hends : LoopEnds readmeArgs := Or.inl (by decide)
  obtain ⟨hz, rfl⟩ := (requests_readmeArgs.interval_iff (by norm_num) hends I).mp hI
  exact not_rateMatches_of_ge (by norm_num) (by norm_num) hz hmatch

theorem requested_rate_readmeArgs :
    (∃ I, ConfiguredInterval readmeArgs I ∧ I ≠ 0 ∧ RateMatches I 7000000) ↔
      7000000 < 2 ^ 16 ∧ LoopEnds readmeArgs :=
  requested_rate_iff requests_readmeArgs (by norm_num) (by norm_num)

/-! ## The divisor -/

/-- The number the program divides by: the 16-bit remainder of the rate, over
    the size of a burst. -/
theorem interburstTimeNs_eq_none_iff (outputPortId : ℕ) (o : Options) :
    interburstTimeNs (threadParams outputPortId o) = none ↔ o.packetsPerSecond % 2 ^ 16 < 16 := by
  have hdiv : (threadParams outputPortId o).packetsPerSecond / packetTxBurstSize = 0 ↔
      o.packetsPerSecond % 2 ^ 16 < 16 := by
    show o.packetsPerSecond % 2 ^ 16 / 16 = 0 ↔ _
    omega
  rw [← hdiv]
  unfold interburstTimeNs
  dsimp only
  split_ifs with hz
  · exact iff_of_true rfl hz
  · exact iff_of_false (by simp) hz

/-- The conversions to `uint32_t` and to the field keep the value modulo `2^16`. -/
theorem toUint32_mod (n : ℤ) : ((toUint32 n % 2 ^ 16 : ℕ) : ℤ) = n % 2 ^ 16 := by
  unfold toUint32
  omega

/-- A request that passes the checks of `main` does not make the transmission
    routine divide by zero iff the last rate given is at least 16 modulo `2^16`. -/
theorem no_division_by_zero_iff {argv : List CString} {o : Options} (h : Accepts argv o)
    (outputPortId : ℕ) :
    interburstTimeNs (threadParams outputPortId o) ≠ none ↔
      ∃ v n, (optionValues packetsPerSecondFlag argv).getLast? = some v ∧ stoi v = some n ∧
        16 ≤ n % 2 ^ 16 := by
  obtain ⟨-, hlast⟩ := accepts_iff_lastValues.mp h
  obtain ⟨v, hv, hrate⟩ := hlast.rate
  obtain ⟨n, hn⟩ := Option.ne_none_iff_exists'.mp (hlast.rates v (List.mem_of_getLast? hv))
  have hvalue : rateOf v = toUint32 n := by rw [rateOf, hn, Option.getD_some]
  have hmod := toUint32_mod n
  rw [Ne, interburstTimeNs_eq_none_iff, hrate, hvalue]
  constructor
  · intro hge
    exact ⟨v, n, hv, hn, by omega⟩
  · rintro ⟨v', n', hv', hn', hge⟩
    have hvv : v' = v := Option.some.inj (hv'.symm.trans hv)
    subst hvv
    have hnn : n' = n := Option.some.inj (hn'.symm.trans hn)
    omega

/-- The options of the example in the usage message, with another rate. -/
def usageArgs (rate : CString) : List CString :=
  ["packet-generator".toList, outputPortFlag, "0000:00:09.0".toList, packetsPerSecondFlag, rate]

theorem accepts_usageArgs {rate : CString} {n : ℤ} (hn : stoi rate = some n)
    (h0 : toUint32 n ≠ 0) : Accepts (usageArgs rate) ⟨"0000:00:09.0".toList, toUint32 n⟩ := by
  have hrates : optionValues packetsPerSecondFlag (usageArgs rate) = [rate] := rfl
  have hports : optionValues outputPortFlag (usageArgs rate) = ["0000:00:09.0".toList] := rfl
  apply accepts_iff_lastValues.mpr
  refine ⟨.inl (show 5 < 2 ^ 16 by decide), ?_, ⟨rate, by rw [hrates]; rfl, ?_⟩, h0,
    by rw [hports]; rfl, show "0000:00:09.0".toList ≠ [] by decide⟩
  · rw [hrates]
    intro v hv
    rw [List.mem_singleton.mp hv, hn]
    exact Option.some_ne_none n
  · rw [rateOf, hn, Option.getD_some]

theorem stoi_usage : stoi "30000".toList = some 30000 :=
  stoi_decimal ⟨by decide, by simp [Char.isDigit], by simp [decimalValue]⟩ (by norm_num)

/-- The rate of the usage message. -/
theorem no_division_by_zero_usage :
    interburstTimeNs (threadParams 0 ⟨"0000:00:09.0".toList, toUint32 30000⟩) ≠ none :=
  (no_division_by_zero_iff (accepts_usageArgs stoi_usage (by decide)) 0).mpr
    ⟨"30000".toList, 30000, rfl, stoi_usage, by decide⟩

/-- Ten packets per second are less than one burst. -/
theorem division_by_zero : ¬ ∀ argv o outputPortId, Accepts argv o →
    interburstTimeNs (threadParams outputPortId o) ≠ none := by
  intro h
  have hten : stoi "10".toList = some 10 :=
    stoi_decimal ⟨by decide, by simp [Char.isDigit], by simp [decimalValue]⟩ (by norm_num)
  exact h _ _ 0 (accepts_usageArgs hten (by decide)) rfl

end DpdkTutorials.Generator

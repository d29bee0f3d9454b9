import Mathlib

/-!
# The statistics of `9-packet-generator`

`get_and_print_nic_statistics` (main.cpp:282-343) runs on the main lcore, one
second after the transmission routine has been launched. It polls the clock;
when a second has passed it reads the counters of the port and prints the rates
since the last time. The time base `t1` is set on every due poll, the counters
`last_*` only when the read succeeds, and they start at zero, not at the values
the counters have on entry.

The rates are rational numbers here; the source computes them as `double`.

* `Tracks.sum_rates`: the printed rates account for the packets since the
  counters were zero, not since entry.
* `sum_diff_lt`: a failed read takes its time out of the next report.
* `accountsOnce_iff`: both are right exactly for a port that has counted
  nothing before entry and no failed read before a report.
-/

namespace DpdkTutorials.Generator

/-! ## Model -/

/-- `rte_eth_stats`, as far as it is printed. -/
structure EthStats where
  ipackets : UInt64
  opackets : UInt64
  ibytes : UInt64
  obytes : UInt64
  ierrors : UInt64
  oerrors : UInt64
  rxNombuf : UInt64

/-- What one iteration of the loop finds: the clock in nanoseconds, and the
    result of `rte_eth_stats_get`, if it is called (`none`: it fails). -/
structure Poll where
  now : ℤ
  read : Option EthStats

/-- The local variables of the routine. -/
structure Statistics where
  t1 : ℤ
  lastRxBytes : UInt64
  lastTxBytes : UInt64
  lastRxPackets : UInt64
  lastTxPackets : UInt64

/-- A printed report, with the clock reading it belongs to. -/
structure Report where
  time : ℤ
  diff : ℤ
  stats : EthStats
  rxPacketRate : ℚ
  txPacketRate : ℚ
  rxDataRate : ℚ
  txDataRate : ℚ

/-- `NIC_STATISTICS_INTERVAL_MSEC` (main.cpp:34). -/
def nicStatisticsIntervalMsec : ℤ := 1000

/-- `duration_cast<milliseconds>`, which truncates towards zero. -/
def msec (ns : ℤ) : ℤ := ns.tdiv 1000000

/-- Packets per second (main.cpp:305-308). -/
def packetRate (counter last : UInt64) (diff : ℤ) : ℚ := (counter - last).toNat / (diff / 1000)

/-- Megabits per second (main.cpp:310-313). -/
def dataRate (counter last : UInt64) (diff : ℤ) : ℚ :=
  ((counter - last) * 8).toNat / (diff / 1000) / (1024 * 1024)

/-- What is printed when the counters could be read (main.cpp:305-332). -/
def report (s : Statistics) (t2 diff : ℤ) (stats : EthStats) : Report where
  time := t2
  diff := diff
  stats := stats
  rxPacketRate := packetRate stats.ipackets s.lastRxPackets diff
  txPacketRate := packetRate stats.opackets s.lastTxPackets diff
  rxDataRate := dataRate stats.ibytes s.lastRxBytes diff
  txDataRate := dataRate stats.obytes s.lastTxBytes diff

/-- The local variables after a report. -/
def remember (t2 : ℤ) (stats : EthStats) : Statistics where
  t1 := t2
  lastRxBytes := stats.ibytes
  lastTxBytes := stats.obytes
  lastRxPackets := stats.ipackets
  lastTxPackets := stats.opackets

/-- At clock reading `t2` the next report is due (main.cpp:296-298). -/
def Due (t1 t2 : ℤ) : Prop := nicStatisticsIntervalMsec ≤ msec (t2 - t1)

instance (t1 t2 : ℤ) : Decidable (Due t1 t2) := inferInstanceAs (Decidable (_ ≤ _))

/-- The reports printed from the local variables `s` on. -/
def reportsFrom (s : Statistics) : List Poll → List Report
  | [] => []
  | p :: polls =>
    if Due s.t1 p.now then
      match p.read with
      | some stats => report s p.now (msec (p.now - s.t1)) stats ::
          reportsFrom (remember p.now stats) polls
      | none => reportsFrom { s with t1 := p.now } polls
    else reportsFrom s polls

/-- `get_and_print_nic_statistics`, entered at clock reading `entry` and stopped
    after the iterations `polls`. -/
def getAndPrintNicStatistics (entry : ℤ) (polls : List Poll) : List Report :=
  reportsFrom ⟨entry, 0, 0, 0, 0⟩ polls

/-! ## Properties -/

/-- The clock time from `t` over the reports, truncated per report. -/
def elapsed (t : ℤ) : List Report → ℤ
  | [] => 0
  | r :: reports => msec (r.time - t) + elapsed r.time reports

/-- The packets a list of reports accounts for: rate times seconds. -/
def accounted (rate : Report → ℚ) (reports : List Report) : ℚ :=
  (reports.map fun r => rate r * (r.diff / 1000)).sum

/-- The reports account for the packets and the time since entry once. -/
structure AccountsOnce (entry : ℤ) (atEntry : EthStats) (reports : List Report) : Prop where
  transmit : ∀ r, reports.getLast? = some r →
    accounted Report.txPacketRate reports = r.stats.opackets.toNat - atEntry.opackets.toNat
  receive : ∀ r, reports.getLast? = some r →
    accounted Report.rxPacketRate reports = r.stats.ipackets.toNat - atEntry.ipackets.toNat
  time : (reports.map Report.diff).sum = elapsed entry reports

/-- No reading of a counter is below an earlier one or below its value on entry. -/
structure NonDecreasing (atEntry : EthStats) (polls : List Poll) : Prop where
  opackets : (atEntry :: polls.filterMap Poll.read).Pairwise fun a b => a.opackets ≤ b.opackets
  ipackets : (atEntry :: polls.filterMap Poll.read).Pairwise fun a b => a.ipackets ≤ b.ipackets

/-- The polls on which the counters are read. They depend on the clock alone. -/
def duePolls (t1 : ℤ) : List Poll → List Poll
  | [] => []
  | p :: polls => if Due t1 p.now then p :: duePolls p.now polls else duePolls t1 polls

/-- No read succeeds after one that failed. -/
def FailuresLast (polls : List Poll) : Prop :=
  polls.Pairwise fun p q => p.read = none → q.read = none

/-! ## The reports -/

section Reports

variable {s : Statistics} {p : Poll} {polls : List Poll} {stats : EthStats}

theorem reportsFrom_not_due (h : ¬ Due s.t1 p.now) :
    reportsFrom s (p :: polls) = reportsFrom s polls := by
  rw [reportsFrom, if_neg h]

theorem reportsFrom_success (h : Due s.t1 p.now) (hread : p.read = some stats) :
    reportsFrom s (p :: polls) = report s p.now (msec (p.now - s.t1)) stats ::
      reportsFrom (remember p.now stats) polls := by
  rw [reportsFrom, if_pos h, hread]

theorem reportsFrom_failure (h : Due s.t1 p.now) (hread : p.read = none) :
    reportsFrom s (p :: polls) = reportsFrom { s with t1 := p.now } polls := by
  rw [reportsFrom, if_pos h, hread]

/-- There is a report for each due read that succeeds. -/
theorem reportsFrom_eq_nil_iff (s : Statistics) (polls : List Poll) :
    reportsFrom s polls = [] ↔ ∀ p ∈ duePolls s.t1 polls, p.read = none := by
  induction polls generalizing s with
  | nil => simp [reportsFrom, duePolls]
  | cons p polls ih =>
    by_cases hdue : Due s.t1 p.now
    · rw [duePolls, if_pos hdue, List.forall_mem_cons]
      cases hread : p.read with
      | some stats => simp [reportsFrom_success hdue hread]
      | none => rw [reportsFrom_failure hdue hread, ih, and_iff_right rfl]
    · rw [reportsFrom_not_due hdue, duePolls, if_neg hdue, ih]

end Reports

/-! ## Packets -/

/-- `last` remembers `counter`, and `rate` is computed from the two. -/
structure Tracks (counter : EthStats → UInt64) (last : Statistics → UInt64)
    (rate : Report → ℚ) : Prop where
  rate_report : ∀ s t2 diff stats,
    rate (report s t2 diff stats) = packetRate (counter stats) (last s) diff
  last_remember : ∀ t2 stats, last (remember t2 stats) = counter stats
  last_failure : ∀ s t1, last { s with t1 := t1 } = last s

theorem tracks_transmit : Tracks EthStats.opackets Statistics.lastTxPackets Report.txPacketRate :=
  ⟨fun _ _ _ _ => rfl, fun _ _ => rfl, fun _ _ => rfl⟩

theorem tracks_receive : Tracks EthStats.ipackets Statistics.lastRxPackets Report.rxPacketRate :=
  ⟨fun _ _ _ _ => rfl, fun _ _ => rfl, fun _ _ => rfl⟩

theorem Due.pos {t1 t2 : ℤ} (h : Due t1 t2) : 0 < msec (t2 - t1) := by
  unfold Due nicStatisticsIntervalMsec at h
  omega

/-- A rate times its time is the difference of the counters. -/
theorem packetRate_mul {counter last : UInt64} {diff : ℤ} (hle : last ≤ counter)
    (hdiff : 0 < diff) :
    packetRate counter last diff * (diff / 1000) = counter.toNat - last.toNat := by
  have hne : (diff : ℚ) / 1000 ≠ 0 := by positivity
  rw [packetRate, div_mul_cancel₀ _ hne, UInt64.toNat_sub_of_le _ _ hle,
    Nat.cast_sub (UInt64.le_iff_toNat_le.mp hle)]

section Tracks

variable {counter : EthStats → UInt64} {last : Statistics → UInt64} {rate : Report → ℚ}

/-- The sum over the reports telescopes. -/
theorem Tracks.sum_rates (h : Tracks counter last rate) (s : Statistics) (polls : List Poll)
    (hmono : (last s :: (polls.filterMap Poll.read).map counter).Pairwise (· ≤ ·)) :
    accounted rate (reportsFrom s polls) =
      (((reportsFrom s polls).map fun r => counter r.stats).getLastD (last s)).toNat -
        (last s).toNat := by
  induction polls generalizing s with
  | nil => simp [accounted, reportsFrom]
  | cons p polls ih =>
    cases hread : p.read with
    | none =>
      rw [List.filterMap_cons_none hread] at hmono
      by_cases hdue : Due s.t1 p.now
      · rw [reportsFrom_failure hdue hread, ih _ (by rwa [h.last_failure]), h.last_failure]
      · rw [reportsFrom_not_due hdue, ih s hmono]
    | some stats =>
      rw [List.filterMap_cons_some hread, List.map_cons] at hmono
      have hle : last s ≤ counter stats := List.rel_of_pairwise_cons hmono (by simp)
      by_cases hdue : Due s.t1 p.now
      · have hrest := ih (remember p.now stats) (by
          rw [h.last_remember]
          exact hmono.of_cons)
        rw [h.last_remember] at hrest
        rw [reportsFrom_success hdue hread, accounted, List.map_cons, List.sum_cons, h.rate_report]
        rw [accounted] at hrest
        rw [hrest]
        show packetRate (counter stats) (last s) (msec (p.now - s.t1)) *
          ((msec (p.now - s.t1) : ℤ) / 1000) + _ = _
        rw [packetRate_mul hle hdue.pos]
        simp only [List.map_cons, List.getLastD_cons]
        show _ = (((reportsFrom (remember p.now stats) polls).map
          fun r => counter r.stats).getLastD (counter stats)).toNat - ((last s).toNat : ℚ)
        ring
      · rw [reportsFrom_not_due hdue]
        apply ih s
        exact hmono.sublist ((List.sublist_cons_self _ _).cons_cons _)

end Tracks

/-! ## Time -/

section Time

variable {s : Statistics} {polls : List Poll}

theorem msec_mono {a b : ℤ} (h : a ≤ b) : msec a ≤ msec b := Int.tdiv_le_tdiv (by decide) h

/-- A whole second more is a thousand milliseconds more. -/
theorem msec_add_second (a : ℤ) (h : 0 ≤ a) : msec (a + 1000000000) = msec a + 1000 := by
  unfold msec
  rw [Int.tdiv_eq_ediv_of_nonneg h, Int.tdiv_eq_ediv_of_nonneg (by omega)]
  omega

/-- A due poll is at least a second after the time base. -/
theorem Due.le {t1 t2 : ℤ} (h : Due t1 t2) : t1 + 1000000000 ≤ t2 := by
  by_contra hlt
  have hle : msec (t2 - t1) ≤ msec 999999999 := msec_mono (by omega)
  unfold Due nicStatisticsIntervalMsec at h
  have hmsec : msec 999999999 = 999 := by decide
  omega

/-- While every read succeeds the time base is the time of the last report. -/
theorem sum_diff_eq (s : Statistics) (polls : List Poll)
    (h : FailuresLast (duePolls s.t1 polls)) :
    ((reportsFrom s polls).map Report.diff).sum = elapsed s.t1 (reportsFrom s polls) := by
  induction polls generalizing s with
  | nil => rfl
  | cons p polls ih =>
    by_cases hdue : Due s.t1 p.now
    · rw [duePolls, if_pos hdue] at h
      obtain ⟨hfirst, hrest⟩ := List.pairwise_cons.mp h
      cases hread : p.read with
      | some stats =>
        rw [reportsFrom_success hdue hread, List.map_cons, List.sum_cons, elapsed]
        exact congrArg _ (ih (remember p.now stats) hrest)
      | none =>
        have hnil : reportsFrom { s with t1 := p.now } polls = [] :=
          (reportsFrom_eq_nil_iff _ _).mpr fun q hq => hfirst q hq hread
        rw [reportsFrom_failure hdue hread, hnil]
        rfl
    · rw [duePolls, if_neg hdue] at h
      rw [reportsFrom_not_due hdue]
      exact ih s h

/-- No report covers more time than has passed since the one before. -/
theorem sum_diff_le {t : ℤ} (s : Statistics) (polls : List Poll) (ht : t ≤ s.t1) :
    ((reportsFrom s polls).map Report.diff).sum ≤ elapsed t (reportsFrom s polls) := by
  induction polls generalizing s t with
  | nil => exact le_rfl
  | cons p polls ih =>
    by_cases hdue : Due s.t1 p.now
    · cases hread : p.read with
      | some stats =>
        rw [reportsFrom_success hdue hread, List.map_cons, List.sum_cons, elapsed]
        exact Int.add_le_add (msec_mono (show p.now - s.t1 ≤ p.now - t by omega))
          (ih (remember p.now stats) le_rfl)
      | none =>
        rw [reportsFrom_failure hdue hread]
        exact ih _ (by have := hdue.le; show t ≤ p.now; omega)
    · rw [reportsFrom_not_due hdue]
      exact ih s ht

/-- A time base that is ahead of the last report costs the next one a second. -/
theorem sum_diff_lt_of_ahead {t : ℤ} (s : Statistics) (polls : List Poll)
    (ht : t + 1000000000 ≤ s.t1) (hne : reportsFrom s polls ≠ []) :
    ((reportsFrom s polls).map Report.diff).sum < elapsed t (reportsFrom s polls) := by
  induction polls generalizing s with
  | nil => exact absurd rfl hne
  | cons p polls ih =>
    by_cases hdue : Due s.t1 p.now
    · have hle := hdue.le
      cases hread : p.read with
      | some stats =>
        rw [reportsFrom_success hdue hread, List.map_cons, List.sum_cons, elapsed]
        have hrest := sum_diff_le (remember p.now stats) polls le_rfl
        have hsecond := msec_add_second (p.now - s.t1) (by omega)
        have hmono : msec (p.now - s.t1 + 1000000000) ≤ msec (p.now - t) := msec_mono (by omega)
        show msec (p.now - s.t1) + _ < msec (p.now - t) + elapsed p.now _
        have : elapsed (remember p.now stats).t1 (reportsFrom (remember p.now stats) polls) =
          elapsed p.now (reportsFrom (remember p.now stats) polls) := rfl
        omega
      | none =>
        rw [reportsFrom_failure hdue hread] at hne ⊢
        exact ih _ (by show t + 1000000000 ≤ p.now; omega) hne
    · rw [reportsFrom_not_due hdue] at hne ⊢
      exact ih s ht hne

/-- A read that failed before another succeeded: its time is in no report. -/
theorem sum_diff_lt {t : ℤ} (s : Statistics) (polls : List Poll) (ht : t ≤ s.t1)
    (h : ¬ FailuresLast (duePolls s.t1 polls)) :
    ((reportsFrom s polls).map Report.diff).sum < elapsed t (reportsFrom s polls) := by
  induction polls generalizing s t with
  | nil => exact absurd List.Pairwise.nil h
  | cons p polls ih =>
    by_cases hdue : Due s.t1 p.now
    · have hle := hdue.le
      rw [duePolls, if_pos hdue, FailuresLast, List.pairwise_cons] at h
      cases hread : p.read with
      | some stats =>
        have hrest : ¬ FailuresLast (duePolls p.now polls) := by
          intro hlast
          exact h ⟨fun _ _ hnone => by rw [hread] at hnone; contradiction, hlast⟩
        rw [reportsFrom_success hdue hread, List.map_cons, List.sum_cons, elapsed]
        exact Int.add_lt_add_of_le_of_lt (msec_mono (show p.now - s.t1 ≤ p.now - t by omega))
          (ih (remember p.now stats) le_rfl hrest)
      | none =>
        rw [reportsFrom_failure hdue hread]
        by_cases hall : ∀ q ∈ duePolls p.now polls, q.read = none
        · exfalso
          apply h
          refine ⟨fun q hq _ => hall q hq, List.pairwise_of_forall_mem_list ?_⟩
          intro _ _ q hq _
          exact hall q hq
        · apply sum_diff_lt_of_ahead { s with t1 := p.now } polls
          · show t + 1000000000 ≤ p.now
            omega
          · rw [Ne, reportsFrom_eq_nil_iff]
            exact hall
    · rw [duePolls, if_neg hdue] at h
      rw [reportsFrom_not_due hdue]
      exact ih s ht h

end Time

/-! ## Exactly when the reports are right -/

/-- The packets since the counters were zero. -/
theorem accounted_eq {counter : EthStats → UInt64} {last : Statistics → UInt64}
    {rate : Report → ℚ} (h : Tracks counter last rate) {entry : ℤ} {atEntry : EthStats}
    {polls : List Poll} (hlast : last ⟨entry, 0, 0, 0, 0⟩ = 0)
    (hmono : (atEntry :: polls.filterMap Poll.read).Pairwise fun a b => counter a ≤ counter b)
    {r : Report} (hr : (getAndPrintNicStatistics entry polls).getLast? = some r) :
    accounted rate (getAndPrintNicStatistics entry polls) = (counter r.stats).toNat := by
  have hsum := h.sum_rates ⟨entry, 0, 0, 0, 0⟩ polls (by
    rw [hlast, List.pairwise_cons, List.pairwise_map]
    exact ⟨fun _ _ => UInt64.zero_le, hmono.of_cons⟩)
  rw [getAndPrintNicStatistics] at hr ⊢
  rw [hsum, hlast, List.getLastD_eq_getLast?, List.getLast?_map, hr]
  simp

/-- Every packet since entry is accounted for once iff no due read succeeds, or
    the packet counters are zero on entry and no due read fails before another
    succeeds. -/
theorem accountsOnce_iff {entry : ℤ} {atEntry : EthStats} {polls : List Poll}
    (hmono : NonDecreasing atEntry polls) :
    AccountsOnce entry atEntry (getAndPrintNicStatistics entry polls) ↔
      (∀ p ∈ duePolls entry polls, p.read = none) ∨
        (atEntry.opackets = 0 ∧ atEntry.ipackets = 0 ∧ FailuresLast (duePolls entry polls)) := by
  have hnil := reportsFrom_eq_nil_iff ⟨entry, 0, 0, 0, 0⟩ polls
  constructor
  · intro h
    by_cases hempty : getAndPrintNicStatistics entry polls = []
    · exact .inl (hnil.mp hempty)
    · obtain ⟨r, hr⟩ : ∃ r, (getAndPrintNicStatistics entry polls).getLast? = some r :=
        ⟨_, List.getLast?_eq_some_getLast hempty⟩
      have htransmit := h.transmit r hr
      have hreceive := h.receive r hr
      rw [accounted_eq tracks_transmit rfl hmono.opackets hr] at htransmit
      rw [accounted_eq tracks_receive rfl hmono.ipackets hr] at hreceive
      refine .inr ⟨?_, ?_, ?_⟩
      · apply UInt64.toNat_inj.mp
        have : (atEntry.opackets.toNat : ℚ) = 0 := by linarith
        exact_mod_cast this
      · apply UInt64.toNat_inj.mp
        have : (atEntry.ipackets.toNat : ℚ) = 0 := by linarith
        exact_mod_cast this
      · by_contra hlast
        exact absurd h.time (sum_diff_lt _ _ le_rfl hlast).ne
  · rintro (hnone | ⟨hopackets, hipackets, hlast⟩)
    · have hempty : getAndPrintNicStatistics entry polls = [] := hnil.mpr hnone
      rw [hempty]
      exact ⟨by simp, by simp, rfl⟩
    · refine ⟨fun r hr => ?_, fun r hr => ?_, sum_diff_eq _ _ hlast⟩
      · rw [accounted_eq tracks_transmit rfl hmono.opackets hr, hopackets]
        simp
      · rw [accounted_eq tracks_receive rfl hmono.ipackets hr, hipackets]
        simp

/-- Counters that show `n` transmitted packets and nothing else. -/
def transmitted (n : UInt64) : EthStats := ⟨0, n, 0, 0, 0, 0, 0⟩

/-- Two seconds of a growing counter with an idle poll in each, then a failed read. -/
def growingPolls : List Poll :=
  [⟨50000000, none⟩, ⟨1000000000, some (transmitted 7)⟩, ⟨1050000000, none⟩,
    ⟨2000000000, some (transmitted 19)⟩, ⟨3000000000, none⟩]

theorem accountsOnce_iff_growing :
    (getAndPrintNicStatistics 0 growingPolls).length = 2 ∧
      AccountsOnce 0 (transmitted 0) (getAndPrintNicStatistics 0 growingPolls) := by
  have hlast : FailuresLast (duePolls 0 growingPolls) := by
    show FailuresLast [⟨1000000000, some (transmitted 7)⟩, ⟨2000000000, some (transmitted 19)⟩,
      ⟨3000000000, none⟩]
    simp [FailuresLast]
  exact ⟨rfl, (accountsOnce_iff ⟨by decide, by decide⟩).mpr (.inr ⟨rfl, rfl, hlast⟩)⟩

/-- The transmission routine has had a second's start: the first report counts
    its packets again. -/
theorem not_accountsOnce : ¬ AccountsOnce 0 (transmitted 16)
    (getAndPrintNicStatistics 0 [⟨1000000000, some (transmitted 16)⟩]) := by
  intro h
  have hdue : Due 0 1000000000 := by decide
  have hreports : getAndPrintNicStatistics 0 [⟨1000000000, some (transmitted 16)⟩] =
      [report ⟨0, 0, 0, 0, 0⟩ 1000000000 1000 (transmitted 16)] := reportsFrom_success hdue rfl
  have hlast : (getAndPrintNicStatistics 0 [⟨1000000000, some (transmitted 16)⟩]).getLast? =
      some (report ⟨0, 0, 0, 0, 0⟩ 1000000000 1000 (transmitted 16)) := by
    rw [hreports]
    rfl
  have hmono : [transmitted 16, transmitted 16].Pairwise fun a b => a.opackets ≤ b.opackets := by
    decide
  have hsum := h.transmit _ hlast
  rw [accounted_eq tracks_transmit rfl hmono hlast] at hsum
  have h16 : ((transmitted 16).opackets.toNat : ℚ) = 16 := rfl
  have hzero : ((transmitted 16).opackets.toNat : ℚ) = 0 := by linarith
  linarith

end DpdkTutorials.Generator

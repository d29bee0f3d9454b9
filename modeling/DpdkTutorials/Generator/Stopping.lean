import DpdkTutorials.Common.Eventually
import DpdkTutorials.Generator.Transmit

/-!
# The end of the transmission routine of `9-packet-generator`

`transmit_packets_from_interface` tests `exit_indicator` in its outer loop only
(main.cpp:376). The wait for the next slot ends with the first reading of the
clock that is not before `t1`. The `do` loop around `rte_eth_tx_burst`
(main.cpp:410-413) ends when all of a burst has been accepted, and on a link that
stays down the driver accepts nothing.

`Routine` is the routine with the answers from outside as streams: what the
clock shows, which allocations fail and what `rte_eth_tx_burst` returns.

* `exists_run_of_steps`: it makes every run of `TransmitStep`.
* `returns_iff`: once the indicator is set, the routine returns iff the driver
  still takes the rest of the burst in progress.
-/

namespace DpdkTutorials.Generator

open DpdkTutorials.Common DpdkTutorials.Dpdk

universe u v w

/-! ## Model -/

/-- The variables of the routine that decide where it goes, and the answers
    still to come. -/
structure Routine where
  pc : TransmitPc
  t0 : UInt64
  t1 : UInt64
  txCount : ℕ
  /-- Readings of `CLOCK_MONOTONIC` in nanoseconds. -/
  clock : Stream' ℕ
  /-- Whether `rte_pktmbuf_alloc_bulk` fails. -/
  allocFails : Stream' Bool
  /-- Results of `rte_eth_tx_burst`. -/
  txBurst : Stream' ℕ

/-- One statement, the indicator being as given (main.cpp:376-414). -/
def Routine.step (interval : UInt64) (exitIndicator : Bool) (r : Routine) : Routine :=
  match r.pc with
  | .whileTest => { r with pc := if exitIndicator then .returned else .wait }
  | .wait =>
    if r.t0 < r.t1 then { r with t0 := UInt64.ofNat r.clock.head, clock := r.clock.tail }
    else { r with pc := .alloc, t1 := r.t1 + interval }
  | .alloc =>
    { r with
      pc := if r.allocFails.head then .whileTest else .fill
      allocFails := r.allocFails.tail }
  | .fill => { r with pc := .burst, txCount := 0 }
  | .burst =>
    { r with
      pc := if r.txCount + r.txBurst.head < packetTxBurstSize then .burst else .whileTest
      txCount := r.txCount + r.txBurst.head
      txBurst := r.txBurst.tail }
  | .returned => r

/-- The state after `n` statements. The stream has the indicator at each of them. -/
def Routine.run (interval : UInt64) (exitIndicator : Stream' Bool) (r : Routine) : ℕ → Routine
  | 0 => r
  | n + 1 => (r.run interval exitIndicator n).step interval (exitIndicator.get n)

/-- The routine as it enters its outer loop at clock reading `start`
    (main.cpp:370-374). -/
def Routine.begin (interval : UInt64) (start : ℕ) (clock : Stream' ℕ) (allocFails : Stream' Bool)
    (txBurst : Stream' ℕ) : Routine :=
  ⟨.whileTest, UInt64.ofNat start, UInt64.ofNat start + interval, 0, clock, allocFails, txBurst⟩

/-! ## Specification -/

/-- Each call of `rte_eth_tx_burst` returns at most the number of packets it is
    offered. -/
def Routine.ResultsValid (interval : UInt64) (exitIndicator : Stream' Bool) (r : Routine) : Prop :=
  ∀ n, (r.run interval exitIndicator n).pc = .burst →
    (r.run interval exitIndicator n).txBurst.head ≤
      packetTxBurstSize - (r.run interval exitIndicator n).txCount

/-- If the routine is waiting, the clock passes the deadline that it waits for. -/
def Routine.PassesDeadline (r : Routine) : Prop :=
  r.pc = .wait → r.t0 < r.t1 → ∃ m, r.t1 ≤ UInt64.ofNat (r.clock.get m)

/-- The clock passes every deadline that the routine ever waits for. -/
def Routine.PassesDeadlines (interval : UInt64) (exitIndicator : Stream' Bool) (r : Routine) :
    Prop :=
  ∀ n, (r.run interval exitIndicator n).PassesDeadline

/-- Some number of calls brings the accepted packets from `accepted` to a whole
    burst. -/
def Accepts16 (accepted : ℕ) (txBurst : Stream' ℕ) : Prop :=
  ∃ k, packetTxBurstSize ≤ accepted + ∑ i ∈ Finset.range k, txBurst.get i

/-- The driver takes what is left of the pass in progress: the rest of the burst,
    or all of the burst to come unless its allocation fails. -/
def Routine.DriverTakesRest (r : Routine) : Prop :=
  match r.pc with
  | .whileTest | .returned => True
  | .wait | .alloc => r.allocFails.head = true ∨ Accepts16 0 r.txBurst
  | .fill => Accepts16 0 r.txBurst
  | .burst => Accepts16 r.txCount r.txBurst

/-! ## Every run of the routine -/

/-- The routine in the state `s`, with answers to come. -/
def State.routine {β : Type v} {ε : Type w} (s : State β ε) (clock : Stream' ℕ)
    (allocFails : Stream' Bool) (txBurst : Stream' ℕ) : Routine :=
  ⟨s.transmit.pc, s.transmit.t0, s.transmit.t1, s.transmit.txCount, clock, allocFails, txBurst⟩

theorem Routine.run_cons (interval : UInt64) (exit : Bool) (exits : Stream' Bool) (r : Routine)
    (n : ℕ) : r.run interval (Stream'.cons exit exits) (n + 1) =
      (r.step interval exit).run interval exits n := by
  induction n with
  | zero => rfl
  | succ n ih =>
    show (r.run interval (Stream'.cons exit exits) (n + 1)).step interval (exits.get n) = _
    rw [ih]
    rfl

section Steps

variable {ι : Type u} {β : Type v} {ε : Type w} [DecidableEq β] {P : Mempool ι β ε}
  {headroom : ℕ} {l : ι} {interval : UInt64} {s t : State β ε}

/-- A step of the routine is a step of `Routine` with the answer it was given. -/
theorem exists_step_of_transmitStep (h : TransmitStep P headroom l interval s t)
    (clock : Stream' ℕ) (allocFails : Stream' Bool) (txBurst : Stream' ℕ) :
    ∃ clock' allocFails' txBurst',
      (s.routine clock' allocFails' txBurst').step interval s.exitIndicator =
        t.routine clock allocFails txBurst := by
  cases h with
  | exit hpc hexit => exact ⟨clock, allocFails, txBurst, by simp [State.routine, Routine.step, *]⟩
  | enter hpc hexit => exact ⟨clock, allocFails, txBurst, by simp [State.routine, Routine.step, *]⟩
  | wait now hpc hlt _ =>
    exact ⟨.cons now clock, allocFails, txBurst, by simp [State.routine, Routine.step, *]⟩
  | due hpc hdue =>
    exact ⟨clock, allocFails, txBurst, by simp [State.routine, Routine.step, hpc, if_neg hdue]⟩
  | alloc hpc _ _ =>
    exact ⟨clock, .cons false allocFails, txBurst, by simp [State.routine, Routine.step, *]⟩
  | allocFailed hpc =>
    exact ⟨clock, .cons true allocFails, txBurst, by simp [State.routine, Routine.step, *]⟩
  | fill hpc => exact ⟨clock, allocFails, txBurst, by simp [State.routine, Routine.step, *]⟩
  | burst n hpc _ =>
    exact ⟨clock, allocFails, .cons n txBurst, by simp [State.routine, Routine.step, *]⟩

/-- Every run of the routine, the driver and the signal handler is one of
    `Routine`, for some answers. -/
theorem exists_run_of_steps (h : Relation.ReflTransGen (Step P headroom l interval) s t) :
    ∃ clock allocFails txBurst exitIndicator n clock' allocFails' txBurst',
      (s.routine clock allocFails txBurst).run interval exitIndicator n =
        t.routine clock' allocFails' txBurst' := by
  induction h using Relation.ReflTransGen.head_induction_on with
  | refl => exact ⟨.const 0, .const false, .const 0, .const false, 0, _, _, _, rfl⟩
  | @head s s' hstep _ ih =>
    obtain ⟨clock, allocFails, txBurst, exits, n, clock', allocFails', txBurst', hrun⟩ := ih
    cases hstep with
    | transmit hstep =>
      obtain ⟨c, a, b, hfirst⟩ := exists_step_of_transmitStep hstep clock allocFails txBurst
      refine ⟨c, a, b, .cons s.exitIndicator exits, n + 1, clock', allocFails', txBurst', ?_⟩
      rw [Routine.run_cons, hfirst, hrun]
    | free _ _ _ _ => exact ⟨clock, allocFails, txBurst, exits, n, _, _, _, hrun⟩
    | terminate => exact ⟨clock, allocFails, txBurst, exits, n, _, _, _, hrun⟩

end Steps

/-! ## After the indicator is set -/

namespace Routine

variable {interval : UInt64} {r : Routine}

/-- The routine gets to its return, the indicator being set from now on. -/
def Stops (interval : UInt64) (r : Routine) : Prop :=
  Eventually (step interval true) (fun t => t.pc = .returned) r

theorem returned_step {exitIndicator : Bool} (r : Routine) (h : r.pc = .returned) :
    (r.step interval exitIndicator).pc = .returned := by
  simp [step, h]

theorem stops_step_iff : Stops interval (r.step interval true) ↔ Stops interval r :=
  eventually_step_iff returned_step

theorem stops_whileTest (h : r.pc = .whileTest) : Stops interval r :=
  .step (.now (by simp [step, h]))

theorem accepts16_tail {accepted : ℕ} {txBurst : Stream' ℕ}
    (h : accepted + txBurst.head < packetTxBurstSize) :
    Accepts16 (accepted + txBurst.head) txBurst.tail ↔ Accepts16 accepted txBurst := by
  have hsum (k : ℕ) : accepted + ∑ i ∈ Finset.range (k + 1), txBurst.get i =
      accepted + txBurst.head + ∑ i ∈ Finset.range k, txBurst.tail.get i := by
    rw [Finset.sum_range_succ', Nat.add_comm (∑ i ∈ _, _), ← Nat.add_assoc]
    rfl
  constructor
  · rintro ⟨k, hk⟩
    exact ⟨k + 1, by rwa [hsum]⟩
  · rintro ⟨k, hk⟩
    cases k with
    | zero =>
      rw [Finset.sum_range_zero] at hk
      omega
    | succ k => exact ⟨k, by rwa [← hsum]⟩

/-- The `do` loop ends if the driver takes the rest of the burst, -/
theorem stops_of_accepts16 (hpc : r.pc = .burst) (haccepts : Accepts16 r.txCount r.txBurst) :
    Stops interval r := by
  obtain ⟨k, hk⟩ := haccepts
  induction k generalizing r with
  | zero =>
    rw [Finset.sum_range_zero] at hk
    rw [← stops_step_iff]
    apply stops_whileTest
    simp only [step, hpc, if_neg (show ¬ r.txCount + r.txBurst.head < packetTxBurstSize by omega)]
  | succ k ih =>
    rw [← stops_step_iff]
    by_cases hlt : r.txCount + r.txBurst.head < packetTxBurstSize
    · apply ih
      · simp only [step, hpc, if_pos hlt]
      · simp only [step, hpc]
        rw [Finset.sum_range_succ', Nat.add_comm (∑ i ∈ _, _), ← Nat.add_assoc] at hk
        exact hk
    · apply stops_whileTest
      simp only [step, hpc, if_neg hlt]

/-- and only then. -/
theorem not_stops_of_burst (hpc : r.pc = .burst) (hrest : ¬ Accepts16 r.txCount r.txBurst) :
    ¬ Stops interval r := by
  refine not_eventually (fun t => t.pc = .burst ∧ ¬ Accepts16 t.txCount t.txBurst)
    ⟨hpc, hrest⟩ ?_ (fun t ht => by simp [ht.1])
  rintro t ⟨hpc, hrest⟩
  have hlt : t.txCount + t.txBurst.head < packetTxBurstSize := by
    by_contra hge
    exact hrest ⟨1, by simpa [Stream'.head] using hge⟩
  refine ⟨by simp only [step, hpc, if_pos hlt], ?_⟩
  simp only [step, hpc]
  rwa [accepts16_tail hlt]

theorem stops_burst_iff (hpc : r.pc = .burst) :
    Stops interval r ↔ Accepts16 r.txCount r.txBurst :=
  ⟨fun h => by_contra fun hrest => not_stops_of_burst hpc hrest h, stops_of_accepts16 hpc⟩

theorem stops_fill_iff (hpc : r.pc = .fill) : Stops interval r ↔ Accepts16 0 r.txBurst := by
  rw [← stops_step_iff, stops_burst_iff (by simp only [step, hpc])]
  simp only [step, hpc]

theorem stops_alloc_iff (hpc : r.pc = .alloc) :
    Stops interval r ↔ r.allocFails.head = true ∨ Accepts16 0 r.txBurst := by
  rw [← stops_step_iff]
  by_cases hfails : r.allocFails.head = true
  · exact iff_of_true (stops_whileTest (by simp only [step, hpc, if_pos hfails])) (.inl hfails)
  · rw [stops_fill_iff (by simp only [step, hpc, if_neg hfails])]
    simp only [step, hpc]
    exact ⟨.inr, fun h => h.resolve_left hfails⟩

/-- The routine has left its wait, and used no answer but those of the clock. -/
def WaitedFrom (r t : Routine) : Prop :=
  t.pc = .alloc ∧ t.allocFails = r.allocFails ∧ t.txBurst = r.txBurst

theorem eventually_waited_of_due (hpc : r.pc = .wait) (hdue : ¬ r.t0 < r.t1) :
    Eventually (step interval true) (WaitedFrom r) r := by
  refine .step (.now ?_)
  simp only [step, hpc, if_neg hdue]
  exact ⟨rfl, rfl, rfl⟩

theorem step_wait {exitIndicator : Bool} (hpc : r.pc = .wait) (hlt : r.t0 < r.t1) :
    r.step interval exitIndicator =
      { r with t0 := UInt64.ofNat r.clock.head, clock := r.clock.tail } := by
  simp only [step, hpc, if_pos hlt]

/-- A reading that is not before the deadline ends the wait, -/
theorem eventually_waited_of_reading {m : ℕ} (hpc : r.pc = .wait)
    (hm : r.t1 ≤ UInt64.ofNat (r.clock.get m)) :
    Eventually (step interval true) (WaitedFrom r) r := by
  induction m generalizing r with
  | zero =>
    by_cases hlt : r.t0 < r.t1
    · apply Eventually.step
      rw [step_wait hpc hlt]
      exact eventually_waited_of_due (r := { r with t0 := _, clock := _ }) hpc
        (UInt64.not_lt.mpr hm)
    · exact eventually_waited_of_due hpc hlt
  | succ m ih =>
    by_cases hlt : r.t0 < r.t1
    · apply Eventually.step
      rw [step_wait hpc hlt]
      exact ih (r := { r with t0 := _, clock := _ }) hpc hm
    · exact eventually_waited_of_due hpc hlt

/-- and there is one if the clock passes the deadline in force. -/
theorem eventually_waited (hpc : r.pc = .wait) (hclock : r.PassesDeadline) :
    Eventually (step interval true) (WaitedFrom r) r := by
  by_cases hlt : r.t0 < r.t1
  · obtain ⟨m, hm⟩ := hclock hpc hlt
    exact eventually_waited_of_reading hpc hm
  · exact eventually_waited_of_due hpc hlt

theorem stops_wait_iff (hpc : r.pc = .wait) (hclock : r.PassesDeadline) :
    Stops interval r ↔ r.allocFails.head = true ∨ Accepts16 0 r.txBurst := by
  refine Eventually.through returned_step (eventually_waited hpc hclock) ?_
  rintro t ⟨hpc, hfails, haccepts⟩
  rw [← hfails, ← haccepts]
  exact stops_alloc_iff hpc

/-- Once the indicator is set, the routine stops iff the driver takes the rest of
    the pass in progress. -/
theorem stops_iff (hclock : r.PassesDeadline) : Stops interval r ↔ r.DriverTakesRest := by
  unfold DriverTakesRest
  cases hpc : r.pc with
  | whileTest => exact iff_of_true (stops_whileTest hpc) trivial
  | wait => exact stops_wait_iff hpc hclock
  | alloc => exact stops_alloc_iff hpc
  | fill => exact stops_fill_iff hpc
  | burst => exact stops_burst_iff hpc
  | returned => exact iff_of_true (.now hpc) trivial

/-! ## Whole runs -/

/-- From when the indicator stays set, a run repeats one step function. -/
theorem run_add {exitIndicator : Stream' Bool} {n : ℕ}
    (hset : ∀ m ≥ n, exitIndicator.get m = true) (k : ℕ) :
    r.run interval exitIndicator (n + k) =
      (step interval true)^[k] (r.run interval exitIndicator n) := by
  induction k with
  | zero => rfl
  | succ k ih =>
    rw [Function.iterate_succ_apply', ← ih, ← hset (n + k) (by omega)]
    rfl

theorem returns_iff_stops {exitIndicator : Stream' Bool} {n : ℕ}
    (hset : ∀ m ≥ n, exitIndicator.get m = true) :
    (∃ k, (r.run interval exitIndicator (n + k)).pc = .returned) ↔
      Stops interval (r.run interval exitIndicator n) := by
  simp only [run_add hset]
  rfl

/-- For all answers from outside: once the indicator stays set, after `n` steps, and
    if the clock passes the deadline then in force, the routine returns after
    finitely many more steps iff the driver takes the rest of the pass in progress. -/
theorem returns_iff {exitIndicator : Stream' Bool} {n : ℕ}
    (hset : ∀ m ≥ n, exitIndicator.get m = true)
    (hclock : (r.run interval exitIndicator n).PassesDeadline) :
    (∃ k, (r.run interval exitIndicator (n + k)).pc = .returned) ↔
      (r.run interval exitIndicator n).DriverTakesRest := by
  rw [returns_iff_stops hset]
  exact stops_iff hclock

end Routine

/-! ## A signal during the wait -/

/-- A clock that is read every microsecond. -/
def microseconds : Stream' ℕ := fun n => 1000 * (n + 1)

theorem get_drop_microseconds (j m : ℕ) :
    (microseconds.drop j).get m = 1000 * (m + j + 1) := rfl

/-- The indicator is set after two readings. -/
def setInFirstWait : Stream' Bool := fun n => decide (3 ≤ n)

theorem setInFirstWait_set : ∀ m ≥ 3, setInFirstWait.get m = true :=
  fun _ hm => decide_eq_true hm

/-- The routine at 65535 packets per second. -/
def fullSpeed (txBurst : Stream' ℕ) : Routine :=
  .begin 244200 0 microseconds (.const false) txBurst

theorem run_firstWait (txBurst : Stream' ℕ) :
    (fullSpeed txBurst).run 244200 setInFirstWait 3 =
      ⟨.wait, 2000, 244200, 0, microseconds.drop 2, .const false, txBurst⟩ := by
  rfl

/-- On a link that takes a whole burst the routine returns. -/
theorem returns_link_up :
    ∃ k, ((fullSpeed (.const 16)).run 244200 setInFirstWait (3 + k)).pc = .returned := by
  have hclock : ((fullSpeed (.const 16)).run 244200 setInFirstWait 3).PassesDeadline := by
    rw [run_firstWait]
    exact fun _ _ => ⟨243, by decide⟩
  rw [Routine.returns_iff setInFirstWait_set hclock, run_firstWait]
  exact .inr ⟨1, by decide⟩

/-- The routine after it has entered its loop, on a link that is down. -/
inductive Routine.OnDeadLink : Routine → Prop where
  | wait (t0 : UInt64) (c j : ℕ) :
      OnDeadLink ⟨.wait, t0, 244200, c, microseconds.drop j, .const false, .const 0⟩
  | alloc (t0 t1 : UInt64) (c : ℕ) (clock : Stream' ℕ) :
      OnDeadLink ⟨.alloc, t0, t1, c, clock, .const false, .const 0⟩
  | fill (t0 t1 : UInt64) (c : ℕ) (clock : Stream' ℕ) :
      OnDeadLink ⟨.fill, t0, t1, c, clock, .const false, .const 0⟩
  | burst (t0 t1 : UInt64) (clock : Stream' ℕ) :
      OnDeadLink ⟨.burst, t0, t1, 0, clock, .const false, .const 0⟩

/-- It does not get back to its test of the indicator. -/
theorem Routine.OnDeadLink.step {exitIndicator : Bool} {r : Routine} (h : r.OnDeadLink) :
    (r.step 244200 exitIndicator).OnDeadLink := by
  cases h with
  | wait t0 c j =>
    by_cases hlt : t0 < 244200
    · simp only [Routine.step, if_pos hlt, Stream'.tail_drop']
      exact .wait _ c (j + 1)
    · simp only [Routine.step, if_neg hlt]
      exact .alloc _ _ c _
  | alloc t0 t1 c clock => exact .fill t0 t1 c clock
  | fill t0 t1 c clock => exact .burst t0 t1 clock
  | burst t0 t1 clock => exact .burst t0 t1 clock

theorem onDeadLink_run (exitIndicator : Stream' Bool) (hfirst : exitIndicator.head = false)
    (n : ℕ) : ((fullSpeed (.const 0)).run 244200 exitIndicator (n + 1)).OnDeadLink := by
  induction n with
  | zero =>
    have hrun : (fullSpeed (.const 0)).run 244200 exitIndicator 1 =
        ⟨.wait, 0, 244200, 0, microseconds.drop 0, .const false, .const 0⟩ := by
      show (fullSpeed (.const 0)).step 244200 exitIndicator.head = _
      rw [hfirst]
      rfl
    rw [hrun]
    exact .wait 0 0 0
  | succ n ih => exact ih.step

/-- The clock passes the deadline again and again, also when it wraps around. -/
theorem Routine.OnDeadLink.passesDeadline {r : Routine} (h : r.OnDeadLink) :
    r.PassesDeadline := by
  intro hpc _
  cases h with
  | wait t0 c j =>
    obtain ⟨m, hm⟩ : ∃ m, m + j = 2 ^ 64 * j + 244 := ⟨2 ^ 64 * j + 244 - j, by omega⟩
    refine ⟨m, ?_⟩
    show (244200 : UInt64) ≤ UInt64.ofNat ((microseconds.drop j).get m)
    rw [get_drop_microseconds, hm, UInt64.le_iff_toNat_le, UInt64.toNat_ofNat',
      show (244200 : UInt64).toNat = 244200 from rfl]
    omega
  | alloc | fill | burst => contradiction

theorem Routine.OnDeadLink.not_returned {r : Routine} (h : r.OnDeadLink) : r.pc ≠ .returned := by
  cases h with
  | _ => simp

theorem Routine.OnDeadLink.txBurst_le {r : Routine} (h : r.OnDeadLink) :
    r.txBurst.head ≤ packetTxBurstSize - r.txCount := by
  cases h with
  | _ => exact Nat.zero_le _

/-- On a link that is down the routine does not return, although the clock passes
    every deadline. -/
theorem link_down : ¬ ∀ (interval : UInt64) (start : ℕ) (clock : Stream' ℕ)
    (allocFails : Stream' Bool) (txBurst : Stream' ℕ) (exitIndicator : Stream' Bool) (n : ℕ),
    (∀ m ≥ n, exitIndicator.get m = true) →
    (Routine.begin interval start clock allocFails txBurst).PassesDeadlines interval
      exitIndicator →
    (Routine.begin interval start clock allocFails txBurst).ResultsValid interval exitIndicator →
    ∃ k, ((Routine.begin interval start clock allocFails txBurst).run interval exitIndicator
      (n + k)).pc = .returned := by
  intro h
  have hrun := onDeadLink_run setInFirstWait rfl
  have hclock : (fullSpeed (.const 0)).PassesDeadlines 244200 setInFirstWait := by
    intro n
    cases n with
    | zero => exact nofun
    | succ n => exact (hrun n).passesDeadline
  have hvalid : (fullSpeed (.const 0)).ResultsValid 244200 setInFirstWait := by
    intro n hpc
    cases n with
    | zero => contradiction
    | succ n => exact (hrun n).txBurst_le
  obtain ⟨k, hk⟩ := h 244200 0 microseconds (.const false) (.const 0) setInFirstWait 3
    setInFirstWait_set hclock hvalid
  rw [show 3 + k = 2 + k + 1 by omega] at hk
  exact (hrun (2 + k)).not_returned hk

end DpdkTutorials.Generator

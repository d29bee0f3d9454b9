import DpdkTutorials.Generator.BurstLoop

/-!
# The schedule of `9-packet-generator`

Slot `k` of a run that enters the outer loop at time `S` is due at `S + k * I`,
`I` being the interval between two bursts. The deadline `t1` is advanced once
per slot, before the allocation (main.cpp:381), whether or not the allocation
succeeds and however late the slot is. A late slot is followed by the next one
without a new clock reading, but never before the last reading has reached its
deadline.

* `Pacing.step`: the deadline and the slots over one step.
* `on_schedule`: in every run a slot is used for one burst or one failed
  allocation, and no more slots are used than are due.
-/

namespace DpdkTutorials.Generator

open DpdkTutorials.Common DpdkTutorials.Dpdk

universe u v w

variable {ι : Type u} {β : Type v} {ε : Type w}

/-! ## Properties -/

/-- The number of bursts that have been allocated to be submitted. -/
def State.bursts (s : State β ε) : ℕ := s.allocated.length / packetTxBurstSize

/-- The slot of the pass in progress, before its allocation. -/
def TransmitPc.unused : TransmitPc → ℕ
  | .alloc => 1
  | _ => 0

/-- Where a run that has started at `start` stands after `slots` slots. -/
structure OnSchedule (interval : UInt64) (start : ℕ) (s : State β ε) : Prop where
  deadline : s.transmit.t1.toNat = start + (s.slots + 1) * interval.toNat
  reached : 1 ≤ s.slots → start + s.slots * interval.toNat ≤ s.clock
  charged : s.slots = s.failures + s.bursts + s.transmit.pc.unused
  bursts_le : s.bursts ≤ (s.clock - start) / interval.toNat
  accepted_le : s.accepted.length ≤ packetTxBurstSize * s.bursts

/-! ## The invariant -/

/-- The invariant of the schedule. The deadline is a `uint64_t`. -/
structure Pacing (interval : UInt64) (start : ℕ) (s : State β ε) : Prop where
  t0 : s.transmit.t0 = UInt64.ofNat s.clock
  t1 : s.transmit.t1 = UInt64.ofNat (start + (s.slots + 1) * interval.toNat)
  reached : start + (s.slots + 1) * interval.toNat < 2 ^ 64 →
    start + s.slots * interval.toNat ≤ s.clock
  charged : packetTxBurstSize * s.slots =
    packetTxBurstSize * (s.failures + s.transmit.pc.unused) + s.allocated.length

namespace Pacing

variable {interval : UInt64} {start : ℕ} {s t : State β ε}

theorem begin (interval : UInt64) (bufs : Pktmbufs β ε) (start : ℕ) :
    Pacing interval start (Generator.begin interval bufs start) where
  t0 := rfl
  t1 := by
    show UInt64.ofNat start + interval = UInt64.ofNat (start + (0 + 1) * interval.toNat)
    rw [UInt64.ofNat_add, Nat.zero_add, Nat.one_mul, UInt64.ofNat_toNat]
  reached := by simp [Generator.begin]
  charged := rfl

/-- A step that touches neither the clock nor the slots. -/
theorem goto (h : Pacing interval start s) (ht0 : t.transmit.t0 = s.transmit.t0)
    (ht1 : t.transmit.t1 = s.transmit.t1) (hclock : t.clock = s.clock) (hslots : t.slots = s.slots)
    (hfailures : t.failures = s.failures) (hallocated : t.allocated = s.allocated)
    (hunused : t.transmit.pc.unused = s.transmit.pc.unused) : Pacing interval start t where
  t0 := by rw [ht0, hclock]; exact h.t0
  t1 := by rw [ht1, hslots]; exact h.t1
  reached := by rw [hslots, hclock]; exact h.reached
  charged := by rw [hslots, hfailures, hallocated, hunused]; exact h.charged

/-- The wait is left when the clock has reached the deadline. -/
theorem clock_ge (h : Pacing interval start s) (hdue : ¬ s.transmit.t0 < s.transmit.t1)
    (hfit : start + (s.slots + 1) * interval.toNat < 2 ^ 64) :
    start + (s.slots + 1) * interval.toNat ≤ s.clock := by
  have hle := UInt64.not_lt.mp hdue
  rw [h.t0, h.t1, UInt64.le_iff_toNat_le, UInt64.toNat_ofNat_of_lt' hfit,
    UInt64.toNat_ofNat'] at hle
  exact hle.trans (Nat.mod_le _ _)

theorem due (h : Pacing interval start s) (hpc : s.transmit.pc = .wait)
    (hdue : ¬ s.transmit.t0 < s.transmit.t1) :
    Pacing interval start { s with
      slots := s.slots + 1
      transmit := { s.transmit with pc := .alloc, t1 := s.transmit.t1 + interval } } where
  t0 := h.t0
  t1 := by
    have hnext : UInt64.ofNat (start + (s.slots + 1 + 1) * interval.toNat) =
        UInt64.ofNat (start + (s.slots + 1) * interval.toNat) + interval := by
      rw [show start + (s.slots + 1 + 1) * interval.toNat =
        (start + (s.slots + 1) * interval.toNat) + interval.toNat by ring,
        UInt64.ofNat_add (start + (s.slots + 1) * interval.toNat), UInt64.ofNat_toNat]
    show s.transmit.t1 + interval = _
    rw [hnext, h.t1]
  reached := fun hfit => h.clock_ge hdue (lt_of_le_of_lt (by
    show start + (s.slots + 1) * interval.toNat ≤ start + (s.slots + 1 + 1) * interval.toNat
    exact Nat.add_le_add_left (Nat.mul_le_mul_right _ (Nat.le_succ _)) _) hfit)
  charged := by
    have hcharged := h.charged
    rw [hpc] at hcharged
    show packetTxBurstSize * (s.slots + 1) =
      packetTxBurstSize * (s.failures + 1) + s.allocated.length
    rw [Nat.mul_add, hcharged, Nat.mul_add]
    show packetTxBurstSize * (s.failures + 0) + s.allocated.length + packetTxBurstSize * 1 = _
    ring

variable [DecidableEq β] {P : Mempool ι β ε} {headroom : ℕ} {l : ι}

theorem transmit (h : Pacing interval start s)
    (hstep : TransmitStep P headroom l interval s t) : Pacing interval start t := by
  cases hstep with
  | due hpc hdue => exact h.due hpc hdue
  | wait now hpc hlt hnow =>
    exact ⟨rfl, h.t1, fun hfit => (h.reached hfit).trans hnow, h.charged⟩
  | @alloc bs bufs hpc hlen hmany =>
    refine ⟨h.t0, h.t1, h.reached, ?_⟩
    have hcharged := h.charged
    rw [hpc] at hcharged
    show packetTxBurstSize * s.slots =
      packetTxBurstSize * (s.failures + 0) + (s.allocated ++ bs).length
    rw [hcharged, List.length_append, hlen]
    show packetTxBurstSize * (s.failures + 1) + s.allocated.length = _
    ring
  | allocFailed hpc =>
    refine ⟨h.t0, h.t1, h.reached, ?_⟩
    have hcharged := h.charged
    rw [hpc] at hcharged
    exact hcharged
  | burst n hpc hn =>
    refine h.goto rfl rfl rfl rfl rfl rfl ?_
    rw [hpc]
    simp only
    split_ifs
    · rfl
    · rfl
  | exit hpc | enter hpc | fill hpc => exact h.goto rfl rfl rfl rfl rfl rfl (by rw [hpc]; rfl)

theorem step (h : Pacing interval start s) (hstep : Step P headroom l interval s t) :
    Pacing interval start t := by
  cases hstep with
  | transmit hstep => exact h.transmit hstep
  | free _ _ _ _ => exact h.goto rfl rfl rfl rfl rfl rfl rfl
  | terminate => exact h.goto rfl rfl rfl rfl rfl rfl rfl

end Pacing

/-! ## Whole runs -/

section Runs

variable {interval : UInt64} {start : ℕ} {s : State β ε}

/-- Every slot but one in progress is a burst or a failed allocation. -/
theorem Pacing.slots_eq (h : Pacing interval start s) :
    s.slots = s.failures + s.bursts + s.transmit.pc.unused := by
  have hcharged := h.charged
  unfold State.bursts
  unfold packetTxBurstSize at *
  omega

/-- As many slots as are due, at most. -/
theorem Pacing.onSchedule (h : Pacing interval start s) (hledger : Ledger s)
    (hinterval : 0 < interval) (hfit : start + (s.slots + 1) * interval.toNat < 2 ^ 64) :
    OnSchedule interval start s := by
  have hpos : 0 < interval.toNat := UInt64.lt_iff_toNat_lt.mp hinterval
  have hslots := h.slots_eq
  have hreached := h.reached hfit
  refine ⟨?_, fun _ => hreached, hslots, ?_, ?_⟩
  · rw [h.t1]
    exact UInt64.toNat_ofNat_of_lt' hfit
  · calc s.bursts ≤ s.slots := by omega
      _ ≤ (s.clock - start) / interval.toNat := (Nat.le_div_iff_mul_le hpos).mpr (by omega)
  · have hcharged := h.charged
    have hflow := congrArg List.length hledger.flow
    rw [List.length_append] at hflow
    unfold State.bursts
    unfold packetTxBurstSize at *
    omega

variable [DecidableEq β] {P : Mempool ι β ε} {headroom : ℕ} {l : ι} {bufs : Pktmbufs β ε}

/-- In every run that enters the outer loop at clock reading `start`, up to the
    slot whose next deadline no longer fits in 64 bits, the routine is on
    schedule. -/
theorem on_schedule (hinterval : 0 < interval)
    (hrun : Relation.ReflTransGen (MachineStep P headroom l interval)
      (begin interval bufs start) s)
    (hfit : start + (s.slots + 1) * interval.toNat < 2 ^ 64) : OnSchedule interval start s := by
  have hinv : Ledger s ∧ Pacing interval start s := by
    clear hfit
    induction hrun with
    | refl => exact ⟨ledger_begin interval bufs start, .begin interval bufs start⟩
    | tail _ hstep ih =>
      have hstep' := step_of_machineStep ih.1 hstep
      exact ⟨ih.1.step hstep', ih.2.step hstep'⟩
  exact hinv.2.onSchedule hinv.1 hinterval hfit

end Runs

/-- The first slot of a run with a million packets per second comes 16
    microseconds after its start. -/
theorem on_schedule_first_slot : ∃ s : State ℕ (CachedPool (Fin 2) ℕ 512),
    s.slots = 1 ∧ OnSchedule 16000 0 s := by
  have hwait : (UInt64.ofNat 0 : UInt64) < UInt64.ofNat 0 + 16000 := by decide
  have hdue : ¬ (UInt64.ofNat 16000 : UInt64) < UInt64.ofNat 0 + 16000 := by decide
  have henter : MachineStep (CachedPool.mempool (Fin 2) ℕ 512) 128 1 16000
      (begin 16000 ⟨createdPool, fun _ => ⟨fun _ => 0, 0, 0, 0, 0, 0, 0⟩⟩ 0) _ :=
    .transmit nofun (.enter rfl rfl)
  have hslept := (Relation.ReflTransGen.single henter).tail
    (.transmit nofun (.wait 16000 rfl hwait (Nat.zero_le _)))
  have hrun := hslept.tail (.transmit nofun (.due rfl hdue))
  exact ⟨_, rfl, on_schedule (by decide) hrun (by decide)⟩

end DpdkTutorials.Generator

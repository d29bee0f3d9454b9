import DpdkTutorials.Generator.Pacing

/-!
# The throughput of `9-packet-generator`

`on_schedule` bounds the number of packets from above: whatever DPDK does, there
are not more than the schedule allows. Here DPDK does what it documents. The
driver keeps no more buffers than its queue has descriptors, and an allocation
fails only if the buffers cannot be had. Then no slot is lost: of the 65535
buffers at most 1024 are with the driver and at most 768 in the cache of the
other lcore, and whenever the routine waits, it has sent 16 packets for each
interval since its start.

* `card_usable`: the buffers that the routine can get at.
* `slotsDue_step`: the slots that have been used have been due.
* `sendsAt_of_interval`: a burst for each interval is the configured rate.
* `full_rate`: no allocation fails, and the number of packets is exact.
-/

namespace DpdkTutorials.Generator

open DpdkTutorials.Common DpdkTutorials.Dpdk

universe u v w

/-! ## Specification -/

/-- The descriptors of the transmit queue (main.cpp:609). -/
def txDescriptors : ℕ := 1024

section Served

variable {ι : Type u} {β : Type v}

/-- What DPDK promises of a step. -/
structure WellServed (l : ι) (s t : State β (CachedPool ι β 512)) : Prop where
  descriptors : t.driver.card ≤ txDescriptors
  /-- `rte_pktmbuf_alloc_bulk` fails only if lcore `l` cannot get 16 buffers. -/
  alloc : s.failures < t.failures → (s.bufs.pool.usable l).card < packetTxBurstSize

variable [DecidableEq ι] [Fintype ι] [DecidableEq β]

/-- A step of the program, with DPDK as promised. -/
def ServedStep (headroom : ℕ) (l : ι) (interval : UInt64)
    (s t : State β (CachedPool ι β 512)) : Prop :=
  MachineStep (CachedPool.mempool ι β 512) headroom l interval s t ∧ WellServed l s t

end Served

/-! ## Buffers -/

section Buffers

variable {ι : Type u} {β : Type v} [DecidableEq ι] [Fintype ι] {headroom : ℕ} {all : Multiset β}
  {s : State β (CachedPool ι β 512)}

/-- Before an allocation the routine can get at all buffers but those of the
    driver and of the other lcore. -/
theorem card_usable (hcard : Fintype.card ι = 2) (l : ι)
    (hinv : Inv (CachedPool.mempool ι β 512) headroom all s) (hall : all.card = memoryPoolSize)
    (hpc : s.transmit.pc = .alloc) (hdriver : s.driver.card ≤ txDescriptors) :
    packetTxBurstSize ≤ (s.bufs.pool.usable l).card := by
  have howned : s.bufs.pool.avail + ↑s.transmit.hand + s.driver = all := hinv.owned
  rw [Transmit.hand_idle (by simp [hpc]) (by simp [hpc]), CachedPool.avail_eq s.bufs.pool l]
    at howned
  have htotal := congrArg Multiset.card howned
  simp only [Multiset.card_add, Multiset.coe_nil, Multiset.card_zero, hall] at htotal
  have hstranded := s.bufs.pool.card_stranded_le l
  rw [hcard] at hstranded
  unfold memoryPoolSize txDescriptors flushThreshold packetTxBurstSize at *
  omega

end Buffers

/-! ## Time -/

section Time

variable {ι : Type u} {β : Type v} {ε : Type w} {interval : UInt64} {start : ℕ} {s t : State β ε}

/-- The slots used so far have been due, until the clock comes close to `2^64`. -/
def SlotsDue (interval : UInt64) (start : ℕ) (s : State β ε) : Prop :=
  s.clock + interval.toNat < 2 ^ 64 → start + s.slots * interval.toNat ≤ s.clock

/-- While the routine waits, the slots used are all that have been due. -/
theorem slots_eq_of_waiting (hinterval : 0 < interval) (hpacing : Pacing interval start s)
    (hdue : SlotsDue interval start s) (hwait : s.transmit.t0 < s.transmit.t1)
    (hclock : s.clock + interval.toNat < 2 ^ 64) :
    s.slots = (s.clock - start) / interval.toNat := by
  have hpos : 0 < interval.toNat := UInt64.lt_iff_toNat_lt.mp hinterval
  have hreached := hdue hclock
  have hnext : start + (s.slots + 1) * interval.toNat < 2 ^ 64 := by
    rw [Nat.add_mul]
    omega
  rw [hpacing.t0, hpacing.t1, UInt64.lt_iff_toNat_lt, UInt64.toNat_ofNat_of_lt' hnext,
    UInt64.toNat_ofNat_of_lt' (show s.clock < 2 ^ 64 by omega), Nat.add_mul] at hwait
  symm
  rw [Nat.div_eq_iff hpos]
  omega

variable [DecidableEq β] {P : Mempool ι β ε} {headroom : ℕ} {l : ι}

/-- A step lets the time pass or uses a slot. -/
theorem slots_step (hstep : Step P headroom l interval s t) :
    (s.clock ≤ t.clock ∧ t.slots = s.slots) ∨
      (t.clock = s.clock ∧ t.slots = s.slots + 1 ∧ ¬ s.transmit.t0 < s.transmit.t1) := by
  cases hstep with
  | transmit hstep =>
    cases hstep with
    | wait now hpc hlt hnow => exact .inl ⟨hnow, rfl⟩
    | due hpc hdue => exact .inr ⟨rfl, rfl, hdue⟩
    | _ => exact .inl ⟨le_rfl, rfl⟩
  | _ => exact .inl ⟨le_rfl, rfl⟩

theorem slotsDue_step (h : SlotsDue interval start s) (hpacing : Pacing interval start s)
    (hstep : Step P headroom l interval s t) : SlotsDue interval start t := by
  intro hclock
  rcases slots_step hstep with ⟨hle, hslots⟩ | ⟨heq, hslots, hdue⟩
  · rw [hslots]
    exact (h (by omega)).trans hle
  · rw [heq] at hclock ⊢
    rw [hslots]
    have hbefore := h hclock
    exact hpacing.clock_ge hdue (by rw [Nat.add_mul]; omega)

/-- Only the routine's allocations fail. -/
theorem failures_step (hstep : Step P headroom l interval s t) :
    t.failures = s.failures ∨ s.failures < t.failures ∧ s.transmit.pc = .alloc := by
  cases hstep with
  | transmit hstep =>
    cases hstep with
    | allocFailed hpc => exact .inr ⟨Nat.lt_succ_self _, hpc⟩
    | _ => exact .inl rfl
  | _ => exact .inl rfl

end Time

/-! ## The configured rate -/

/-- `packets` packets in `elapsed` nanoseconds are `rate` packets per second,
    rounded to bursts of 16, and up to one burst. -/
structure SendsAt (rate elapsed packets : ℕ) : Prop where
  le : packets * 10 ^ 9 ≤ (rate + 1) * elapsed
  ge : rate * elapsed ≤ packets * 10 ^ 9 + 15 * elapsed + 16 * 10 ^ 9

/-- A burst at each multiple of the configured interval. -/
theorem sendsAt_of_interval {m I : ℕ} (h16 : m / 16 ≠ 0) (hm : m < 2 ^ 16)
    (hI : I = 1000000000 / (m / 16)) (T : ℕ) : SendsAt m T (packetTxBurstSize * (T / I)) := by
  obtain ⟨hne, hlow, hup⟩ := nominal_rate_bounds h16 hm
  rw [← hI] at hne hlow hup
  have hpos : (0 : ℚ) < I := by exact_mod_cast Nat.pos_of_ne_zero hne
  rw [le_div_iff₀ hpos] at hlow
  rw [div_le_iff₀ hpos] at hup
  have hlow' : m * I ≤ 16 * 10 ^ 9 + 15 * I := by
    have : (m * I : ℚ) ≤ 16 * 10 ^ 9 + 15 * I := by linarith
    exact_mod_cast this
  have hup' : 16 * 10 ^ 9 ≤ (m + 1) * I := by exact_mod_cast hup
  have hfloor : T / I * I ≤ T := Nat.div_mul_le_self T I
  have hceil : T < (T / I + 1) * I :=
    Nat.lt_mul_of_div_lt (Nat.lt_succ_self _) (Nat.pos_of_ne_zero hne)
  constructor
  · calc packetTxBurstSize * (T / I) * 10 ^ 9 = T / I * (16 * 10 ^ 9) := by
          unfold packetTxBurstSize
          ring
      _ ≤ T / I * ((m + 1) * I) := Nat.mul_le_mul_left _ hup'
      _ = (m + 1) * (T / I * I) := by ring
      _ ≤ (m + 1) * T := Nat.mul_le_mul_left _ hfloor
  · rcases le_or_gt m 15 with hsmall | hlarge
    · have := Nat.mul_le_mul_right T hsmall
      omega
    · obtain ⟨k, rfl⟩ := Nat.exists_eq_add_of_le hlarge.le
      have hkI : k * I ≤ 16 * 10 ^ 9 := by
        rw [Nat.add_mul] at hlow'
        omega
      have hkT : k * T ≤ packetTxBurstSize * (T / I) * 10 ^ 9 + 16 * 10 ^ 9 :=
        calc k * T ≤ k * ((T / I + 1) * I) := Nat.mul_le_mul_left _ hceil.le
          _ = (T / I + 1) * (k * I) := by ring
          _ ≤ (T / I + 1) * (16 * 10 ^ 9) := Nat.mul_le_mul_left _ hkI
          _ = packetTxBurstSize * (T / I) * 10 ^ 9 + 16 * 10 ^ 9 := by
            unfold packetTxBurstSize
            ring
      rw [Nat.add_mul]
      omega

/-! ## Whole runs -/

section Runs

variable {ι : Type u} {β : Type v} [DecidableEq ι] [Fintype ι] {headroom : ℕ} {main l : ι}
  {interval : UInt64} {all : Multiset β} {start : ℕ} {s t : State β (CachedPool ι β 512)}

/-- The invariant of the runs in which DPDK keeps its promises. -/
structure Serving (headroom : ℕ) (all : Multiset β) (interval : UInt64) (start : ℕ)
    (s : State β (CachedPool ι β 512)) : Prop where
  inv : Inv (CachedPool.mempool ι β 512) headroom all s
  ledger : Ledger s
  pacing : Pacing interval start s
  slotsDue : SlotsDue interval start s
  descriptors : s.driver.card ≤ txDescriptors
  failures : s.failures = 0

/-- While the routine waits, everything has been sent that was due. -/
theorem Serving.accepted_eq (h : Serving headroom all interval start s) (hinterval : 0 < interval)
    (hpc : s.transmit.pc = .wait) (hwait : s.transmit.t0 < s.transmit.t1)
    (hclock : s.clock + interval.toNat < 2 ^ 64) :
    s.accepted.length = packetTxBurstSize * ((s.clock - start) / interval.toNat) := by
  have hflow := h.ledger.flow
  rw [Transmit.hand_idle (by simp [hpc]) (by simp [hpc]), List.append_nil] at hflow
  have hcharged := h.pacing.charged
  rw [hpc, h.failures, hflow] at hcharged
  rw [← slots_eq_of_waiting hinterval h.pacing h.slotsDue hwait hclock, hcharged]
  simp [TransmitPc.unused]

variable [DecidableEq β]

theorem Serving.step (h : Serving headroom all interval start s) (hcard : Fintype.card ι = 2)
    (hnd : all.Nodup) (hall : all.card = memoryPoolSize)
    (hstep : ServedStep headroom l interval s t) : Serving headroom all interval start t := by
  obtain ⟨hmachine, hserved⟩ := hstep
  have hstep := step_of_machineStep h.ledger hmachine
  refine ⟨h.inv.step hnd hstep, h.ledger.step hstep, h.pacing.step hstep,
    slotsDue_step h.slotsDue h.pacing hstep, hserved.descriptors, ?_⟩
  rcases failures_step hstep with heq | ⟨hlt, hpc⟩
  · exact heq.trans h.failures
  · have husable := card_usable hcard l h.inv hall hpc h.descriptors
    have hshort := hserved.alloc hlt
    omega

theorem serving_of_run (hcard : Fintype.card ι = 2)
    {s₀ bufs : Pktmbufs β (CachedPool ι β 512)}
    (hprep : Prepared (CachedPool.mempool ι β 512) headroom main s₀ bufs)
    (hrun : Relation.ReflTransGen (ServedStep headroom l interval) (begin interval bufs start) s) :
    Serving headroom s₀.pool.avail interval start s := by
  induction hrun with
  | refl =>
    exact ⟨inv_begin hprep start, ledger_begin interval bufs start, .begin interval bufs start,
      fun _ => by simp [begin], Nat.zero_le _, rfl⟩
  | tail _ hstep ih => exact ih.step hcard hprep.created.nodup hprep.created.card hstep

/-- With DPDK as promised, the generator never finds the pool too small, and it
    has sent all that was due whenever it waits. -/
theorem full_rate (hcard : Fintype.card ι = 2) (hinterval : 0 < interval)
    {s₀ bufs : Pktmbufs β (CachedPool ι β 512)}
    (hprep : Prepared (CachedPool.mempool ι β 512) headroom main s₀ bufs)
    (hrun : Relation.ReflTransGen (ServedStep headroom l interval) (begin interval bufs start) s) :
    s.failures = 0 ∧
      (s.transmit.pc = .wait → s.transmit.t0 < s.transmit.t1 →
        s.clock + interval.toNat < 2 ^ 64 →
        s.accepted.length = packetTxBurstSize * ((s.clock - start) / interval.toNat)) := by
  have h := serving_of_run hcard hprep hrun
  exact ⟨h.failures, h.accepted_eq hinterval⟩

end Runs

/-! ## A run with one burst -/

section FirstBurst

variable {ι : Type u} {β : Type v} {headroom : ℕ} {l : ι} {interval : UInt64}
  {s t : State β (CachedPool ι β 512)}

theorem WellServed.of_eq (hdriver : t.driver.card ≤ txDescriptors)
    (hfailures : t.failures = s.failures) : WellServed l s t :=
  ⟨hdriver, fun hlt => absurd hlt (by omega)⟩

variable [DecidableEq ι] [Fintype ι] [DecidableEq β]

/-- A burst that the driver accepts as a whole. -/
theorem exists_sent (hpc : s.transmit.pc = .alloc) (hexit : s.exitIndicator = false)
    (hdriver : s.driver = 0) (husable : packetTxBurstSize ≤ (s.bufs.pool.usable l).card) :
    ∃ t, Relation.ReflTransGen (ServedStep headroom l interval) s t ∧ t.transmit.pc = .wait ∧
      t.clock = s.clock ∧ t.transmit.t0 = s.transmit.t0 ∧ t.transmit.t1 = s.transmit.t1 := by
  obtain ⟨bs, bufs, hlen, hmany⟩ := Pktmbufs.exists_allocMany headroom l _ s.bufs husable
  have hnone : s.driver.card ≤ txDescriptors := by simp [hdriver]
  have halloc : ServedStep headroom l interval s _ :=
    ⟨.transmit (by simp [hpc]) (.alloc hpc hlen hmany), .of_eq hnone rfl⟩
  have hfill := (Relation.ReflTransGen.single halloc).tail
    ⟨.transmit nofun (.fill rfl), .of_eq hnone rfl⟩
  -- The driver holds 16 packets at most.
  have hsent (r : Transmit β) :
      (↑(r.offered.take (16 : UInt16).toNat) + s.driver : Multiset β).card ≤ txDescriptors := by
    rw [hdriver, add_zero, Multiset.coe_card, List.length_take]
    exact (Nat.min_le_left _ _).trans (by decide)
  have hcount : (0 : ℕ) < packetTxBurstSize := by decide
  have hburst := hfill.tail
    ⟨.burst 16 rfl (slice_eq hcount) (by rw [UInt16.le_iff_toNat_le, toNat_nbPkts hcount]; rfl),
      .of_eq (hsent _) rfl⟩
  exact ⟨_, hburst.tail ⟨.transmit nofun (.enter rfl hexit), .of_eq (hsent _) rfl⟩, rfl, rfl, rfl,
    rfl⟩

/-- The clock shows exactly the time the first slot is due. -/
theorem exists_due (headroom : ℕ) (l : ι) (hinterval : 0 < interval)
    (bufs : Pktmbufs β (CachedPool ι β 512)) :
    ∃ s, Relation.ReflTransGen (ServedStep headroom l interval) (begin interval bufs 0) s ∧
      s.transmit.pc = .alloc ∧ s.exitIndicator = false ∧ s.driver = 0 ∧ s.bufs = bufs ∧
      s.clock = interval.toNat ∧ s.transmit.t0 = interval ∧
      s.transmit.t1 = interval + interval := by
  have hfirst : UInt64.ofNat 0 < UInt64.ofNat 0 + interval := by simpa using hinterval
  have henter : ServedStep headroom l interval (begin interval bufs 0) _ :=
    ⟨.transmit nofun (.enter rfl rfl), .of_eq (Nat.zero_le _) rfl⟩
  have hwait := (Relation.ReflTransGen.single henter).tail
    ⟨.transmit nofun (.wait interval.toNat rfl hfirst (Nat.zero_le _)),
      .of_eq (Nat.zero_le _) rfl⟩
  have hdue := hwait.tail
    ⟨.transmit nofun (.due rfl (by simp [begin])), .of_eq (Nat.zero_le _) rfl⟩
  exact ⟨_, hdue, rfl, rfl, rfl, rfl, rfl, UInt64.ofNat_toNat,
    congrArg (· + interval) (UInt64.zero_add interval)⟩

/-- After one interval the routine has sent its first burst and waits. -/
theorem exists_first_burst (interval : UInt64) (hinterval : 0 < interval)
    (hfit : 2 * interval.toNat < 2 ^ 64) :
    ∃ (s₀ bufs : Pktmbufs ℕ (CachedPool (Fin 2) ℕ 512)) (s : State ℕ (CachedPool (Fin 2) ℕ 512)),
      Prepared (CachedPool.mempool (Fin 2) ℕ 512) 128 0 s₀ bufs ∧
      Relation.ReflTransGen (ServedStep 128 1 interval) (begin interval bufs 0) s ∧
      s.transmit.pc = .wait ∧ s.transmit.t0 < s.transmit.t1 ∧ s.clock = interval.toNat := by
  obtain ⟨bufs, hprep⟩ := exists_prepared_createdPool 128 (fun _ => ⟨fun _ => 0, 0, 0, 0, 0, 0, 0⟩)
  obtain ⟨s, hdue, hpc, hexit, hdriver, rfl, hclock, ht0, ht1⟩ :=
    exists_due 128 1 hinterval bufs
  obtain ⟨t, hsent, hpc', hclock', ht0', ht1'⟩ :=
    exists_sent hpc hexit hdriver (card_usable_prepared hprep)
  refine ⟨_, _, t, hprep, hdue.trans hsent, hpc', ?_, hclock'.trans hclock⟩
  rw [ht0', ht1', ht0, ht1, UInt64.lt_iff_toNat_lt, UInt64.toNat_add,
    Nat.mod_eq_of_lt (by omega)]
  exact Nat.lt_add_of_pos_right (UInt64.lt_iff_toNat_lt.mp hinterval)

theorem full_rate_first_burst : ∃ s : State ℕ (CachedPool (Fin 2) ℕ 512),
    s.clock = 16000 ∧ s.accepted.length = packetTxBurstSize * (16000 / 16000) := by
  obtain ⟨s₀, bufs, s, hprep, hrun, hpc, hwait, hclock⟩ :=
    exists_first_burst 16000 (by decide) (by decide)
  have hrate := full_rate (by decide) (by decide) hprep hrun
  refine ⟨s, hclock, ?_⟩
  rw [hrate.2 hpc hwait (by rw [hclock]; decide), hclock]
  rfl

end FirstBurst

end DpdkTutorials.Generator

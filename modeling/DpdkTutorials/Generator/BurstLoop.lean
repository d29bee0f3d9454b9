import DpdkTutorials.Generator.Coverage

/-!
# The burst loop of `9-packet-generator`

The `do` loop of `transmit_packets_from_interface` (main.cpp:410-413) offers a
burst to the driver until all of it is accepted. `tx_count` is a `uint64_t`; it
is the offset of the first packet offered and, subtracted from 16 and cut down
to 16 bits, the number of packets offered. `machine` is the transmission
routine with the arithmetic of this loop as the code has it. A slice that does
not lie inside the array has no packets.

* `step_of_machineStep`: the arithmetic is exact, so the steps are those of
  `system`.
* `burst_loop`: in every run each call offers exactly the rest of the array,
  the accepted packets are the allocated ones, in order, and no buffer is lost.
-/

namespace DpdkTutorials.Generator

open DpdkTutorials.Common DpdkTutorials.Dpdk

universe u v w

variable {ι : Type u} {β : Type v} {ε : Type w}

/-! ## Model -/

namespace Transmit

/-- The variable `tx_count`. -/
def txCount64 (r : Transmit β) : UInt64 := UInt64.ofNat r.txCount

/-- `packet_tx_burst_size - tx_count`, passed as a `uint16_t`. -/
def nbPkts (r : Transmit β) : UInt16 := (UInt64.ofNat packetTxBurstSize - r.txCount64).toUInt16

/-- The packets the driver is given: `nbPkts` from `&packets[tx_count]` on. The
    array has `packet_tx_burst_size` elements. -/
def slice (r : Transmit β) : Option (List β) :=
  if r.txCount64.toNat + r.nbPkts.toNat ≤ packetTxBurstSize then
    some ((r.packets.drop r.txCount64.toNat).take r.nbPkts.toNat)
  else
    none

/-- `tx_count` after a call that returned `n`. -/
def advance (r : Transmit β) (n : UInt16) : UInt64 := r.txCount64 + n.toUInt64

end Transmit

section Machine

variable [DecidableEq β]

/-- The steps of the routine, the driver and the signal handler, with the
    burst loop in machine arithmetic. -/
inductive MachineStep (P : Mempool ι β ε) (headroom : ℕ) (l : ι) (interval : UInt64) :
    State β ε → State β ε → Prop where
  | transmit {s t} : s.transmit.pc ≠ .burst → TransmitStep P headroom l interval s t →
      MachineStep P headroom l interval s t
  /-- The call returns `n`: the driver has accepted the first `n` packets. -/
  | burst {s offered} (n : UInt16) : s.transmit.pc = .burst → s.transmit.slice = some offered →
      n ≤ s.transmit.nbPkts →
      MachineStep P headroom l interval s { s with
        driver := ↑(offered.take n.toNat) + s.driver
        accepted := s.accepted ++ offered.take n.toNat
        transmit := { s.transmit with
          pc := if s.transmit.advance n < UInt64.ofNat packetTxBurstSize then .burst else .whileTest
          txCount := (s.transmit.advance n).toNat } }
  | free {s b bufs} (l' : ι) (rest : Multiset β) : s.driver = b ::ₘ rest →
      Pktmbufs.Free P l' s.bufs b bufs →
      MachineStep P headroom l interval s { s with bufs := bufs, driver := rest }
  | terminate {s} : MachineStep P headroom l interval s { s with exitIndicator := true }

/-- The routine as in `system`, with the burst loop in machine arithmetic. -/
def machine (P : Mempool ι β ε) (headroom : ℕ) (main l : ι) (interval : UInt64) :
    System (State β ε) where
  init := (system P headroom main l interval).init
  next := MachineStep P headroom l interval

end Machine

/-! ## Properties -/

/-- The arguments of a call of `rte_eth_tx_burst`: the subtraction does not
    wrap, and the slice is the rest of the array. -/
structure CallSafe (r : Transmit β) : Prop where
  txCount_le : r.txCount64 ≤ UInt64.ofNat packetTxBurstSize
  nbPkts : r.nbPkts.toNat = packetTxBurstSize - r.txCount64.toNat
  slice : r.slice = some (r.packets.drop r.txCount64.toNat)

/-- Of the current burst, the packets before `tx_count` have been accepted, in
    order; the others have not, and the driver does not hold them. -/
structure AcceptedInOrder (s : State β ε) : Prop where
  packets : s.transmit.packets.Nodup ∧ s.transmit.packets.length = packetTxBurstSize
  accepted : ∃ earlier, s.allocated = earlier ++ s.transmit.packets ∧
    s.accepted = earlier ++ s.transmit.packets.take s.transmit.txCount64.toNat
  fresh : ∀ b ∈ s.transmit.packets.drop s.transmit.txCount64.toNat, b ∉ s.driver

/-! ## The ledger of the routine -/

/-- What is allocated has been accepted or is in hand. -/
structure Ledger (s : State β ε) : Prop where
  flow : s.allocated = s.accepted ++ s.transmit.hand
  length : s.transmit.pc = .fill ∨ s.transmit.pc = .burst →
    s.transmit.packets.length = packetTxBurstSize
  txCount_lt : s.transmit.pc = .burst → s.transmit.txCount < packetTxBurstSize
  taken : s.transmit.pc = .burst →
    s.transmit.packets.take s.transmit.txCount <:+ s.accepted

/-! ## Machine arithmetic -/

section Exact

variable {r : Transmit β}

theorem toNat_txCount64 (h : r.txCount < packetTxBurstSize) : r.txCount64.toNat = r.txCount :=
  UInt64.toNat_ofNat_of_lt' (h.trans (by decide))

/-- The subtraction and the conversion to 16 bits are exact. -/
theorem toNat_nbPkts (h : r.txCount < packetTxBurstSize) :
    r.nbPkts.toNat = packetTxBurstSize - r.txCount := by
  have hcount := toNat_txCount64 h
  have hsize : (UInt64.ofNat packetTxBurstSize).toNat = packetTxBurstSize := rfl
  have hle : r.txCount64 ≤ UInt64.ofNat packetTxBurstSize := by
    rw [UInt64.le_iff_toNat_le, hcount, hsize]
    exact h.le
  rw [Transmit.nbPkts, UInt64.toNat_toUInt16, UInt64.toNat_sub_of_le _ _ hle, hcount, hsize]
  unfold packetTxBurstSize
  exact Nat.mod_eq_of_lt (by omega)

theorem slice_eq (h : r.txCount < packetTxBurstSize) : r.slice = some r.offered := by
  rw [Transmit.slice, toNat_txCount64 h, toNat_nbPkts h, if_pos (by omega)]
  rfl

theorem toNat_advance (h : r.txCount < packetTxBurstSize) {n : UInt16} (hn : n ≤ r.nbPkts) :
    (r.advance n).toNat = r.txCount + n.toNat := by
  have hle := UInt16.le_iff_toNat_le.mp hn
  rw [toNat_nbPkts h] at hle
  rw [Transmit.advance, UInt64.toNat_add, toNat_txCount64 h, UInt16.toNat_toUInt64]
  unfold packetTxBurstSize at h hle
  exact Nat.mod_eq_of_lt (by omega)

theorem advance_lt_iff (h : r.txCount < packetTxBurstSize) {n : UInt16} (hn : n ≤ r.nbPkts) :
    r.advance n < UInt64.ofNat packetTxBurstSize ↔ r.txCount + n.toNat < packetTxBurstSize := by
  rw [UInt64.lt_iff_toNat_lt, toNat_advance h hn]
  rfl

theorem callSafe (hlen : r.packets.length = packetTxBurstSize) (h : r.txCount < packetTxBurstSize) :
    CallSafe r := by
  refine ⟨?_, ?_, ?_⟩
  · rw [UInt64.le_iff_toNat_le, toNat_txCount64 h]
    exact h.le
  · rw [toNat_nbPkts h, toNat_txCount64 h]
  · rw [slice_eq h, toNat_txCount64 h, Transmit.offered, List.take_of_length_le]
    rw [List.length_drop]
    omega

end Exact

/-! ## Steps -/

section Steps

variable {P : Mempool ι β ε} {headroom : ℕ} {all : Multiset β} {s : State β ε}

theorem ledger_begin (interval : UInt64) (bufs : Pktmbufs β ε) (start : ℕ) :
    Ledger (begin interval bufs start) where
  flow := rfl
  length := by simp [begin]
  txCount_lt := by simp [begin]
  taken := by simp [begin]

/-- Steps before the allocation leave the ledger alone. -/
theorem Ledger.of_idle (h : Ledger s) {r : Transmit β} {clock slots failures : ℕ}
    (hfill : s.transmit.pc ≠ .fill) (hburst : s.transmit.pc ≠ .burst)
    (hfill' : r.pc ≠ .fill) (hburst' : r.pc ≠ .burst) :
    Ledger { s with transmit := r, clock := clock, slots := slots, failures := failures } where
  flow := by
    have hflow := h.flow
    rwa [Transmit.hand_idle hfill hburst, ← Transmit.hand_idle hfill' hburst'] at hflow
  length := by simp [hfill', hburst']
  txCount_lt := by simp [hburst']
  taken := by simp [hburst']

/-- A call moves the packets it accepted from the hand to the accepted ones. -/
theorem Ledger.burst (h : Ledger s) (hpc : s.transmit.pc = .burst) (n : ℕ) :
    Ledger { s with
      driver := ↑(s.transmit.offered.take n) + s.driver
      accepted := s.accepted ++ s.transmit.offered.take n
      transmit := { s.transmit with
        pc := if s.transmit.txCount + n < packetTxBurstSize then .burst else .whileTest
        txCount := s.transmit.txCount + n } } := by
  have hlen := h.length (.inr hpc)
  have hoffered := Transmit.offered_eq_hand hpc hlen
  refine ⟨?_, fun _ => hlen, ?_, ?_⟩
  · show s.allocated = s.accepted ++ s.transmit.offered.take n ++ Transmit.hand _
    rw [Transmit.hand_of_accepted hpc hlen n, List.append_assoc, List.take_append_drop, hoffered]
    exact h.flow
  · intro hpc'
    by_contra hlt
    simp [hlt] at hpc'
  · intro _
    show s.transmit.packets.take (s.transmit.txCount + n) <:+
      s.accepted ++ s.transmit.offered.take n
    obtain ⟨earlier, hearlier⟩ := h.taken hpc
    refine ⟨earlier, ?_⟩
    rw [List.take_add, hoffered, Transmit.hand_burst hpc, ← hearlier, List.append_assoc]

/-- The packets of a burst are distinct. -/
def Distinct (s : State β ε) : Prop :=
  s.transmit.pc = .fill ∨ s.transmit.pc = .burst → s.transmit.packets.Nodup

theorem acceptedInOrder (hnd : all.Nodup) (hinv : Inv P headroom all s) (hledger : Ledger s)
    (hdistinct : Distinct s) (hpc : s.transmit.pc = .burst) : AcceptedInOrder s := by
  have hcount := toNat_txCount64 (hledger.txCount_lt hpc)
  refine ⟨⟨hdistinct (.inr hpc), hledger.length (.inr hpc)⟩, ?_, ?_⟩
  · obtain ⟨earlier, hearlier⟩ := hledger.taken hpc
    refine ⟨earlier, ?_, ?_⟩
    · rw [hledger.flow, ← hearlier, Transmit.hand_burst hpc, List.append_assoc,
        List.take_append_drop]
    · rw [hcount, hearlier]
  · intro b hb hdriver
    rw [hcount, ← Transmit.hand_burst hpc] at hb
    exact hinv.not_mem_hand hnd hdriver hb

end Steps

variable [DecidableEq β] {P : Mempool ι β ε} {headroom : ℕ} {main l : ι} {interval : UInt64}
  {all : Multiset β} {s₀ s t : State β ε}

theorem Ledger.transmit (h : Ledger s) (hstep : TransmitStep P headroom l interval s t) :
    Ledger t := by
  cases hstep with
  | exit hpc _ => exact h.of_idle (by simp [hpc]) (by simp [hpc]) (by simp) (by simp)
  | enter hpc _ => exact h.of_idle (by simp [hpc]) (by simp [hpc]) (by simp) (by simp)
  | wait now hpc _ _ =>
    exact h.of_idle (by simp [hpc]) (by simp [hpc]) (by simp [hpc]) (by simp [hpc])
  | due hpc _ => exact h.of_idle (by simp [hpc]) (by simp [hpc]) (by simp) (by simp)
  | @alloc bs bufs hpc hlen hmany =>
    have hflow := h.flow
    rw [Transmit.hand_idle (by simp [hpc]) (by simp [hpc]), List.append_nil] at hflow
    exact ⟨congrArg (· ++ bs) hflow, fun _ => hlen, by simp, by simp⟩
  | allocFailed hpc => exact h.of_idle (by simp [hpc]) (by simp [hpc]) (by simp) (by simp)
  | fill hpc =>
    have hflow := h.flow
    rw [Transmit.hand_fill hpc] at hflow
    exact ⟨hflow, fun _ => h.length (.inl hpc), fun _ => Nat.zero_lt_succ 15,
      fun _ => List.nil_suffix⟩
  | burst n hpc _ => exact h.burst hpc n

theorem Ledger.step (h : Ledger s) (hstep : Step P headroom l interval s t) : Ledger t := by
  cases hstep with
  | transmit hstep => exact h.transmit hstep
  | free _ _ _ _ => exact ⟨h.flow, h.length, h.txCount_lt, h.taken⟩
  | terminate => exact ⟨h.flow, h.length, h.txCount_lt, h.taken⟩

/-- What the pool hands out is not twice in it. -/
theorem nodup_of_allocMany (hinv : Inv P headroom all s) (hnd : all.Nodup) {bs : List β}
    {bufs : Pktmbufs β ε} (hmany : Pktmbufs.AllocMany P headroom l s.bufs bs bufs) : bs.Nodup := by
  rw [← hinv.owned, hmany.avail, add_assoc, add_assoc] at hnd
  exact Multiset.coe_nodup.mp (Multiset.nodup_of_le (Multiset.le_add_right _ _) hnd)

theorem distinct_step (h : Distinct s) (hinv : Inv P headroom all s) (hnd : all.Nodup)
    (hstep : Step P headroom l interval s t) : Distinct t := by
  cases hstep with
  | transmit hstep =>
    cases hstep with
    | alloc _ _ hmany => exact fun _ => nodup_of_allocMany hinv hnd hmany
    | fill hpc => exact fun _ => h (.inl hpc)
    | burst n hpc _ => exact fun _ => h (.inr hpc)
    | wait now hpc _ _ => exact h
    | exit _ _ | enter _ _ | due _ _ | allocFailed _ => exact fun hpc => by simp at hpc
  | free _ _ _ _ => exact h
  | terminate => exact h

/-- The machine takes the steps of `system`. -/
theorem step_of_machineStep (h : Ledger s) (hstep : MachineStep P headroom l interval s t) :
    Step P headroom l interval s t := by
  cases hstep with
  | transmit _ hstep => exact .transmit hstep
  | @burst offered n hpc hslice hn =>
    have hlt := h.txCount_lt hpc
    rw [slice_eq hlt, Option.some.injEq] at hslice
    have hlen : n.toNat ≤ s.transmit.offered.length := by
      have hle := UInt16.le_iff_toNat_le.mp hn
      rw [toNat_nbPkts hlt] at hle
      rw [Transmit.offered, List.length_take, List.length_drop, h.length (.inr hpc)]
      omega
    simp only [← hslice, toNat_advance hlt hn, advance_lt_iff hlt hn]
    exact .transmit (.burst n.toNat hpc hlen)
  | free l' rest hb hfree => exact .free l' rest hb hfree
  | terminate => exact .terminate

/-- And the other way round. -/
theorem machineStep_of_step (h : Ledger s) (hstep : Step P headroom l interval s t) :
    MachineStep P headroom l interval s t := by
  cases hstep with
  | transmit hstep =>
    by_cases hpc : s.transmit.pc = .burst
    · have hlt := h.txCount_lt hpc
      cases hstep with
      | burst n _ hn =>
        have hle : n ≤ packetTxBurstSize - s.transmit.txCount := by
          rw [Transmit.offered, List.length_take] at hn
          omega
        have hval : (UInt16.ofNat n).toNat = n := by
          apply UInt16.toNat_ofNat_of_lt'
          unfold packetTxBurstSize at hle
          exact (show n < 65536 by omega)
        have hnb : UInt16.ofNat n ≤ s.transmit.nbPkts := by
          rw [UInt16.le_iff_toNat_le, hval, toNat_nbPkts hlt]
          exact hle
        have hmachine := @MachineStep.burst ι β ε _ P headroom l interval s _ (UInt16.ofNat n) hpc
          (slice_eq hlt) hnb
        simpa only [toNat_advance hlt hnb, advance_lt_iff hlt hnb, hval] using hmachine
      | exit hpc' _ | enter hpc' _ | wait _ hpc' _ _ | due hpc' _ | alloc hpc' _ _
      | allocFailed hpc' | fill hpc' =>
        rw [hpc] at hpc'
        contradiction
    · exact .transmit hpc hstep
  | free l' rest hb hfree => exact .free l' rest hb hfree
  | terminate => exact .terminate

/-! ## Whole runs -/

theorem ledger_of_init (hinit : (system P headroom main l interval).init s) : Ledger s := by
  obtain ⟨_, bufs, start, -, rfl⟩ := hinit
  exact ledger_begin interval bufs start

/-- The two have the same runs. -/
theorem machine_reachable_iff :
    (machine P headroom main l interval).Reachable s ↔
      (system P headroom main l interval).Reachable s := by
  constructor
  · intro hs
    refine (System.Reachable.simulate (S := machine P headroom main l interval)
      (T := system P headroom main l interval) (I := Ledger)
      (fun s hinit => ⟨hinit, ledger_of_init (l := l) hinit⟩) ?_ hs).1
    intro s t hledger hstep
    have hstep' := step_of_machineStep hledger hstep
    exact ⟨hstep', hledger.step hstep'⟩
  · intro hs
    refine (System.Reachable.simulate (S := system P headroom main l interval)
      (T := machine P headroom main l interval) (I := Ledger)
      (fun s hinit => ⟨hinit, ledger_of_init (l := l) hinit⟩) ?_ hs).1
    intro s t hledger hstep
    exact ⟨machineStep_of_step hledger hstep, hledger.step hstep⟩

/-- A run of the machine is a run of `system`, with its invariants. -/
theorem inv_of_machineRun (hinit : (machine P headroom main l interval).init s₀)
    (hrun : Relation.ReflTransGen (MachineStep P headroom l interval) s₀ s) :
    (P.avail s₀.bufs.pool).Nodup ∧ Inv P headroom (P.avail s₀.bufs.pool) s ∧ Ledger s ∧
      Distinct s := by
  obtain ⟨pool, bufs, start, hprep, rfl⟩ := hinit
  have hall : P.avail bufs.pool = P.avail pool.pool := hprep.avail
  have hnd : (P.avail (begin interval bufs start).bufs.pool).Nodup := by
    show (P.avail bufs.pool).Nodup
    rw [hall]
    exact hprep.created.nodup
  refine ⟨hnd, ?_⟩
  induction hrun with
  | refl =>
    refine ⟨?_, ledger_begin interval bufs start, fun h => by simp [begin] at h⟩
    show Inv P headroom (P.avail bufs.pool) _
    rw [hall]
    exact inv_begin hprep start
  | tail _ hstep ih =>
    obtain ⟨hinv, hledger, hdistinct⟩ := ih
    have hstep' := step_of_machineStep hledger hstep
    exact ⟨hinv.step hnd hstep', hledger.step hstep', distinct_step hdistinct hinv hnd hstep'⟩

/-- The loop is left when all of the burst has been accepted. -/
theorem txCount_of_leaving (hledger : Ledger s) (hpc : s.transmit.pc = .burst)
    (hstep : MachineStep P headroom l interval s t) (hpc' : t.transmit.pc ≠ .burst) :
    t.transmit.txCount64.toNat = packetTxBurstSize := by
  have hlt := hledger.txCount_lt hpc
  cases hstep with
  | transmit hne _ => contradiction
  | @burst offered n _ _ hn =>
    have hle := UInt16.le_iff_toNat_le.mp hn
    rw [toNat_nbPkts hlt] at hle
    have hnot : ¬ s.transmit.advance n < UInt64.ofNat packetTxBurstSize := by
      intro hadvance
      simp [hadvance] at hpc'
    rw [advance_lt_iff hlt hn] at hnot
    show (UInt64.ofNat (s.transmit.advance n).toNat).toNat = packetTxBurstSize
    rw [UInt64.ofNat_toNat, toNat_advance hlt hn]
    omega
  | free _ _ _ _ => contradiction
  | terminate => contradiction

/-- In every run each call is given exactly the packets that are not yet
    accepted, those accepted are the allocated ones in order, the loop is left
    when none remain, and every buffer is in the pool, in hand or with the
    driver. -/
theorem burst_loop (hinit : (machine P headroom main l interval).init s₀)
    (hrun : Relation.ReflTransGen (MachineStep P headroom l interval) s₀ s) :
    (s.transmit.pc = .burst → CallSafe s.transmit ∧ AcceptedInOrder s) ∧
      (∀ t, MachineStep P headroom l interval s t → s.transmit.pc = .burst →
        t.transmit.pc ≠ .burst → t.transmit.txCount64.toNat = packetTxBurstSize) ∧
      (s.transmit.pc ≠ .fill → s.transmit.pc ≠ .burst → s.accepted = s.allocated) ∧
      P.avail s.bufs.pool + ↑s.transmit.hand + s.driver = P.avail s₀.bufs.pool ∧
      (P.avail s₀.bufs.pool).Nodup := by
  obtain ⟨hnd, hinv, hledger, hdistinct⟩ := inv_of_machineRun hinit hrun
  refine ⟨fun hpc => ⟨?_, ?_⟩, fun t hstep hpc hpc' => ?_, fun hfill hburst => ?_, hinv.owned, hnd⟩
  · exact callSafe (hledger.length (.inr hpc)) (hledger.txCount_lt hpc)
  · exact acceptedInOrder hnd hinv hledger hdistinct hpc
  · exact txCount_of_leaving hledger hpc hstep hpc'
  · have hflow := hledger.flow
    rw [Transmit.hand_idle hfill hburst, List.append_nil] at hflow
    exact hflow.symm

/-- The first burst of the program. -/
theorem burst_loop_first : ∃ s : State ℕ (CachedPool (Fin 2) ℕ 512),
    s.transmit.pc = .burst ∧ CallSafe s.transmit ∧ AcceptedInOrder s := by
  obtain ⟨s, hs, hpc, -⟩ := generator_bursts 128 16000000
  obtain ⟨s₀, hinit, hrun⟩ := machine_reachable_iff.mpr hs
  obtain ⟨hcall, -⟩ := burst_loop hinit hrun
  exact ⟨s, hpc, hcall hpc⟩

end DpdkTutorials.Generator

import DpdkTutorials.Generator.Transmit

/-!
# Every transmitted packet of `9-packet-generator` is a prepared frame

The transmission routine relies on a pass over the pool that ran earlier, on
another lcore. That pass has written every buffer, and afterwards nobody writes
packet bytes any more: buffers only move between the pool, the routine's array
and the driver.

* `Inv.step`: ownership, and the bytes and fields of the packets in hand, are
  preserved by every step.
* `transmitted_packets_prepared`: at every call of `rte_eth_tx_burst` each
  packet is one of the frames written, with the lengths set.
-/

namespace DpdkTutorials.Generator

open DpdkTutorials.Common DpdkTutorials.Common.Memory DpdkTutorials.Dpdk

universe u v w

variable {ι : Type u} {β : Type v} {ε : Type w}

/-! ## The invariant -/

/-- The packets in the array that the driver has not accepted. -/
def Transmit.hand (r : Transmit β) : List β :=
  match r.pc with
  | .fill => r.packets
  | .burst => r.packets.drop r.txCount
  | _ => []

theorem Transmit.hand_fill {r : Transmit β} (h : r.pc = .fill) : r.hand = r.packets := by
  simp [hand, h]

theorem Transmit.hand_burst {r : Transmit β} (h : r.pc = .burst) :
    r.hand = r.packets.drop r.txCount := by
  simp [hand, h]

theorem Transmit.hand_idle {r : Transmit β} (hfill : r.pc ≠ .fill) (hburst : r.pc ≠ .burst) :
    r.hand = [] := by
  unfold hand
  split
  · contradiction
  · contradiction
  · rfl

/-- The whole rest of the array is offered. -/
theorem Transmit.offered_eq_hand {r : Transmit β} (hpc : r.pc = .burst)
    (hlen : r.packets.length = packetTxBurstSize) : r.offered = r.hand := by
  rw [hand_burst hpc, offered]
  apply List.take_of_length_le
  rw [List.length_drop]
  omega

/-- What a call leaves in hand is the rest of the packets offered. -/
theorem Transmit.hand_of_accepted {r : Transmit β} (hpc : r.pc = .burst)
    (hlen : r.packets.length = packetTxBurstSize) (n : ℕ) :
    Transmit.hand { r with
      pc := if r.txCount + n < packetTxBurstSize then .burst else .whileTest
      txCount := r.txCount + n } = r.offered.drop n := by
  rw [offered_eq_hand hpc hlen, hand_burst hpc, List.drop_drop]
  split_ifs with hlt
  · exact hand_burst rfl
  · rw [hand_idle (by simp) (by simp), List.drop_eq_nil_of_le (by omega)]

/-- The fields of a packet that is offered to the driver. -/
structure FieldsSet (buf : Mbuf) : Prop where
  dataLen : buf.dataLen = 214
  pktLen : buf.pktLen = 214
  olFlags : buf.olFlags = rteMbufFTxIpCksum ||| rteMbufFTxIpv4 ||| rteMbufFTxUdpCksum
  l2Len : buf.l2Len = 14
  l3Len : buf.l3Len = 20

theorem fieldsSet_setFields (buf : Mbuf) : FieldsSet (setFields buf) :=
  ⟨rfl, rfl, rfl, rfl, rfl⟩

/-- The invariant of the transmission routine on a pool of the buffers `all`. -/
structure Inv (P : Mempool ι β ε) (headroom : ℕ) (all : Multiset β) (s : State β ε) : Prop where
  /-- Every buffer is in the pool, in the array or with the driver. -/
  owned : P.avail s.bufs.pool + ↑s.transmit.hand + s.driver = all
  /-- Every buffer holds one of the frames. -/
  holds : ∀ b ∈ all, HoldsTemplate headroom (s.bufs.mem b)
  dataOff : ∀ b ∈ s.transmit.hand, (s.bufs.mem b).dataOff = headroom
  length : s.transmit.pc = .fill ∨ s.transmit.pc = .burst →
    s.transmit.packets.length = packetTxBurstSize
  fields : s.transmit.pc = .burst → ∀ b ∈ s.transmit.hand, FieldsSet (s.bufs.mem b)

/-! ## Moving buffers -/

section Moves

variable {P : Mempool ι β ε} {headroom : ℕ} {all : Multiset β} {s : State β ε}

theorem HoldsTemplate.of_room {buf buf' : Mbuf} (h : HoldsTemplate headroom buf)
    (hroom : buf'.room = buf.room) : HoldsTemplate headroom buf' := by
  unfold HoldsTemplate
  rwa [hroom]

/-- The driver holds none of the packets in hand. -/
theorem Inv.not_mem_hand (h : Inv P headroom all s) (hnd : all.Nodup) {b : β}
    (hb : b ∈ s.driver) : b ∉ s.transmit.hand := by
  rw [← h.owned, add_assoc] at hnd
  have hdisj := Multiset.disjoint_of_nodup_add (Multiset.nodup_of_le (Multiset.le_add_left _ _) hnd)
  intro hhand
  exact Multiset.disjoint_left.mp hdisj (Multiset.mem_coe.mpr hhand) hb

theorem Inv.mem_of_hand (h : Inv P headroom all s) {b : β} (hb : b ∈ s.transmit.hand) :
    b ∈ all := by
  rw [← h.owned, Multiset.mem_add, Multiset.mem_add]
  exact .inl (.inr (Multiset.mem_coe.mpr hb))

/-- Steps before the allocation leave the buffers alone. -/
theorem Inv.of_idle (h : Inv P headroom all s) {r : Transmit β} {clock slots failures : ℕ}
    (hfill : s.transmit.pc ≠ .fill) (hburst : s.transmit.pc ≠ .burst)
    (hfill' : r.pc ≠ .fill) (hburst' : r.pc ≠ .burst) :
    Inv P headroom all { s with
      transmit := r, clock := clock, slots := slots, failures := failures } where
  owned := by
    rw [← h.owned, Transmit.hand_idle hfill hburst, Transmit.hand_idle hfill' hburst']
  holds := h.holds
  dataOff := by simp [Transmit.hand_idle hfill' hburst']
  length := by simp [hfill', hburst']
  fields := by simp [hburst']

theorem Inv.offered_eq (h : Inv P headroom all s) (hpc : s.transmit.pc = .burst) :
    s.transmit.offered = s.transmit.hand :=
  Transmit.offered_eq_hand hpc (h.length (.inr hpc))

theorem Inv.burst (h : Inv P headroom all s) (n : ℕ) (hpc : s.transmit.pc = .burst) :
    Inv P headroom all { s with
      driver := ↑(s.transmit.offered.take n) + s.driver
      accepted := s.accepted ++ s.transmit.offered.take n
      transmit := { s.transmit with
        pc := if s.transmit.txCount + n < packetTxBurstSize then .burst else .whileTest
        txCount := s.transmit.txCount + n } } := by
  have hlen := h.length (.inr hpc)
  have hhand := Transmit.hand_of_accepted hpc hlen n
  have hsub : ∀ b ∈ s.transmit.offered.drop n, b ∈ s.transmit.hand := by
    intro b hb
    rw [← h.offered_eq hpc]
    exact List.mem_of_mem_drop hb
  constructor
  · rw [← h.owned, hhand, ← h.offered_eq hpc]
    have hsplit : (↑s.transmit.offered : Multiset β) =
        ↑(s.transmit.offered.take n) + ↑(s.transmit.offered.drop n) := by
      rw [Multiset.coe_add, List.take_append_drop]
    rw [hsplit]
    show P.avail s.bufs.pool + ↑(s.transmit.offered.drop n) +
        (↑(s.transmit.offered.take n) + s.driver) =
      P.avail s.bufs.pool + (↑(s.transmit.offered.take n) + ↑(s.transmit.offered.drop n)) +
        s.driver
    ac_rfl
  · exact h.holds
  · rw [hhand]
    intro b hb
    exact h.dataOff b (hsub b hb)
  · intro _
    exact hlen
  · rw [hhand]
    intro _ b hb
    exact h.fields hpc b (hsub b hb)

/-- The driver only changes buffers it owns. -/
theorem Inv.free (h : Inv P headroom all s) (hnd : all.Nodup) {b : β} {rest : Multiset β} {l' : ι}
    {bufs : Pktmbufs β ε} (hb : s.driver = b ::ₘ rest) (hfree : Pktmbufs.Free P l' s.bufs b bufs) :
    Inv P headroom all { s with bufs := bufs, driver := rest } := by
  have hne : ∀ b' ∈ s.transmit.hand, bufs.mem b' = s.bufs.mem b' := by
    intro b' hb'
    apply hfree.mem_of_ne
    intro heq
    exact h.not_mem_hand hnd (by rw [hb, heq]; exact Multiset.mem_cons_self b rest) hb'
  constructor
  · rw [← h.owned, hb, hfree.avail, Multiset.add_cons, Multiset.cons_add, Multiset.cons_add]
  · intro b' hb'
    exact (h.holds b' hb').of_room (hfree.room b')
  · intro b' hb'
    rw [hne b' hb']
    exact h.dataOff b' hb'
  · exact h.length
  · intro hpc b' hb'
    rw [hne b' hb']
    exact h.fields hpc b' hb'

end Moves

variable [DecidableEq β]

/-! ## The `for` loop -/

/-- The loop sets the fields of the packets of the burst, and of no other. -/
theorem fillLoop_apply (packets : List β) (mem : β → Mbuf) (b : β) :
    fillLoop packets mem b = if b ∈ packets then setFields (mem b) else mem b := by
  induction packets generalizing mem with
  | nil => simp [fillLoop]
  | cons c cs ih =>
    have hcons : fillLoop (c :: cs) mem =
        fillLoop cs (Function.update mem c (setFields (mem c))) := rfl
    rw [hcons, ih]
    by_cases hb : b = c
    · subst hb
      by_cases hmem : b ∈ cs
      · rw [if_pos hmem, if_pos (by simp), Function.update_self]
        rfl
      · rw [if_neg hmem, if_pos (by simp), Function.update_self]
    · simp [hb]

theorem fillLoop_room (packets : List β) (mem : β → Mbuf) (b : β) :
    (fillLoop packets mem b).room = (mem b).room := by
  rw [fillLoop_apply]
  split_ifs
  · rfl
  · rfl

theorem fillLoop_dataOff (packets : List β) (mem : β → Mbuf) (b : β) :
    (fillLoop packets mem b).dataOff = (mem b).dataOff := by
  rw [fillLoop_apply]
  split_ifs
  · rfl
  · rfl

/-! ## Steps -/

section Inv

variable {P : Mempool ι β ε} {headroom : ℕ} {main l : ι} {interval : UInt64} {all : Multiset β}
  {s t : State β ε}

theorem Inv.alloc (h : Inv P headroom all s) {bs : List β} {bufs : Pktmbufs β ε}
    (hpc : s.transmit.pc = .alloc) (hlen : bs.length = packetTxBurstSize)
    (hmany : Pktmbufs.AllocMany P headroom l s.bufs bs bufs) :
    Inv P headroom all { s with
      bufs := bufs, allocated := s.allocated ++ bs
      transmit := { s.transmit with pc := .fill, packets := bs } } where
  owned := by
    have hidle : s.transmit.hand = [] := Transmit.hand_idle (by simp [hpc]) (by simp [hpc])
    rw [← h.owned, hmany.avail, hidle, Multiset.coe_nil, add_zero, add_comm (↑bs : Multiset β)]
    rfl
  holds b hb := (h.holds b hb).of_room (hmany.room b)
  dataOff b hb := hmany.dataOff b hb
  length _ := hlen
  fields hpc := by cases hpc

theorem Inv.fill (h : Inv P headroom all s) (hpc : s.transmit.pc = .fill) :
    Inv P headroom all { s with
      bufs := { s.bufs with mem := fillLoop s.transmit.packets s.bufs.mem }
      transmit := { s.transmit with pc := .burst, txCount := 0 } } where
  owned := by
    rw [← h.owned, Transmit.hand_fill hpc, Transmit.hand_burst rfl]
    rfl
  holds b hb := (h.holds b hb).of_room (fillLoop_room _ _ b)
  dataOff b hb := by
    rw [fillLoop_dataOff]
    exact h.dataOff b (by rw [Transmit.hand_fill hpc]; exact hb)
  length _ := h.length (.inl hpc)
  fields _ b hb := by
    have hmem : b ∈ s.transmit.packets := hb
    simp only [fillLoop_apply, if_pos hmem]
    exact fieldsSet_setFields _

theorem Inv.transmit (h : Inv P headroom all s) (hstep : TransmitStep P headroom l interval s t) :
    Inv P headroom all t := by
  cases hstep with
  | exit hpc _ => exact h.of_idle (by simp [hpc]) (by simp [hpc]) (by simp) (by simp)
  | enter hpc _ => exact h.of_idle (by simp [hpc]) (by simp [hpc]) (by simp) (by simp)
  | wait now hpc _ _ =>
    exact h.of_idle (by simp [hpc]) (by simp [hpc]) (by simp [hpc]) (by simp [hpc])
  | due hpc _ => exact h.of_idle (by simp [hpc]) (by simp [hpc]) (by simp) (by simp)
  | alloc hpc hlen hmany => exact h.alloc hpc hlen hmany
  | allocFailed hpc => exact h.of_idle (by simp [hpc]) (by simp [hpc]) (by simp) (by simp)
  | fill hpc => exact h.fill hpc
  | burst n hpc _ => exact h.burst n hpc

theorem Inv.step (h : Inv P headroom all s) (hnd : all.Nodup)
    (hstep : Step P headroom l interval s t) : Inv P headroom all t := by
  cases hstep with
  | transmit hstep => exact h.transmit hstep
  | free l' rest hb hfree => exact h.free hnd hb hfree
  | terminate => exact ⟨h.owned, h.holds, h.dataOff, h.length, h.fields⟩

/-- The state of the pool when the routine starts. -/
theorem inv_begin {s₀ bufs : Pktmbufs β ε} (h : Prepared P headroom main s₀ bufs) (start : ℕ) :
    Inv P headroom (P.avail s₀.pool) (begin interval bufs start) where
  owned := by rw [← h.avail]; simp [begin, Transmit.hand]
  holds b hb := h.written b (by rwa [h.avail])
  dataOff := by simp [begin, Transmit.hand]
  length := by simp [begin]
  fields := by simp [begin]

/-- In every run the buffers of the pool are accounted for and hold frames. -/
theorem inv_of_reachable (hs : (system P headroom main l interval).Reachable s) :
    ∃ all : Multiset β, all.Nodup ∧ Inv P headroom all s := by
  apply hs.invariant
  · intro s hinit
    obtain ⟨s₀, bufs, start, hprep, rfl⟩ := hinit
    exact ⟨_, hprep.created.nodup, inv_begin hprep start⟩
  · intro s t _ hinv hstep
    obtain ⟨all, hnd, hinv⟩ := hinv
    exact ⟨all, hnd, hinv.step hnd hstep⟩

/-- At every call of `rte_eth_tx_burst` each packet points at one of the frames
    written by `prepare_memory_pool`, with its lengths set. -/
theorem transmitted_packets_prepared (hs : (system P headroom main l interval).Reachable s)
    (hcall : s.transmit.pc = .burst) :
    ∀ b ∈ s.transmit.offered,
      (∃ j < memoryPoolSize,
        (s.bufs.mem b).room.load (s.bufs.mem b).dataOff 214 = templateFrame (UInt8.ofNat j)) ∧
      (s.bufs.mem b).dataLen = 214 ∧ (s.bufs.mem b).pktLen = 214 ∧ (s.bufs.mem b).l2Len = 14 ∧
        (s.bufs.mem b).l3Len = 20 := by
  obtain ⟨all, -, hinv⟩ := inv_of_reachable hs
  intro b hb
  rw [hinv.offered_eq hcall] at hb
  have hfields := hinv.fields hcall b hb
  refine ⟨?_, hfields.dataLen, hfields.pktLen, hfields.l2Len, hfields.l3Len⟩
  rw [hinv.dataOff b hb]
  exact hinv.holds b (hinv.mem_of_hand hb)

/-- The first burst of the program, whatever the interval. -/
theorem transmitted_packets_prepared_first_burst :
    ∃ s, (generator 128 16000000).Reachable s ∧ s.transmit.offered.length = 16 ∧
      ∀ b ∈ s.transmit.offered,
        (∃ j < memoryPoolSize,
          (s.bufs.mem b).room.load (s.bufs.mem b).dataOff 214 = templateFrame (UInt8.ofNat j)) ∧
        (s.bufs.mem b).dataLen = 214 ∧ (s.bufs.mem b).pktLen = 214 ∧ (s.bufs.mem b).l2Len = 14 ∧
          (s.bufs.mem b).l3Len = 20 := by
  obtain ⟨s, hs, hpc, hlen⟩ := generator_bursts 128 16000000
  exact ⟨s, hs, hlen, transmitted_packets_prepared hs hpc⟩

end Inv

end DpdkTutorials.Generator

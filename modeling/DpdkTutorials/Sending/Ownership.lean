import DpdkTutorials.Sending.Loop

/-!
# Buffers and counters of the single-packet senders

Whatever the pool, the driver, the telemetry thread and the signal handler do,
no buffer gets lost and every packet is settled once.

* `Inv.step`: the invariant of the loop.
* `partition_and_counters`: in every run each buffer is in one place, rejected
  packets are freed and accepted ones are not, and the counters follow the
  driver.
* `not_countsAccepted`: the counter is a `uint64_t` and wraps.
-/

namespace DpdkTutorials.Sending

open DpdkTutorials.Common DpdkTutorials.Dpdk

universe u v w

variable {ι : Type u} {β : Type v} {ε : Type w}

/-! ## Properties -/

/-- Each of the buffers `all` is in exactly one of pool, hand and driver. The
    program holds at most one, and none at the start of an iteration. -/
structure Partition (P : Mempool ι β ε) (all : Multiset β) (s : State β ε) : Prop where
  owned : P.avail s.bufs.pool + s.hand + s.driver = all
  nodup : all.Nodup
  hand_le : s.hand.card ≤ 1
  hand_start : s.pc = .whileTest → s.hand = 0

/-- The program frees the packets the driver rejected, the last one as soon as
    it gets there, and no packet the driver accepted. -/
structure FreesRejected (s : State β ε) : Prop where
  freed : s.rejected = s.freed ++ if s.pc = .free then [s.packetNo] else []
  freed_nodup : s.freed.Nodup
  accepted_nodup : s.accepted.Nodup
  not_accepted : ∀ n ∈ s.freed, n ∉ s.accepted

/-- Between two iterations `transmitted_packet_count` is the number of packets
    the driver has accepted. -/
def CountsAccepted (s : State β ε) : Prop :=
  s.pc = .sleep ∨ s.pc = .whileTest → s.transmittedPacketCount.toNat = s.accepted.length

/-- The telemetry replies never decrease, and each lags behind the number of
    packets accepted by at most the packet of the iteration in progress. -/
structure RepliesFollow (s : State β ε) : Prop where
  mono : s.replies.Pairwise fun r r' => r.value ≤ r'.value
  lag : ∀ r ∈ s.replies, r.value.toNat = r.accepted ∨
    (r.pc = .count ∨ r.pc = .store) ∧ r.value.toNat + 1 = r.accepted
  accepted_le : ∀ r ∈ s.replies, r.accepted ≤ s.accepted.length

/-! ## The buffers -/

/-- The program has a packet in hand. -/
def Pc.holds : Pc → Bool
  | .fill | .burst | .free => true
  | _ => false

/-- The packet in hand, by the place of the loop. -/
def held (pc : Pc) (packet : Option β) : Multiset β :=
  if pc.holds then packet.elim 0 ({·}) else 0

/-- The invariant of the buffers, for a pool of the buffers `all`. -/
structure Owned (P : Mempool ι β ε) (all : Multiset β) (s : State β ε) : Prop where
  owned : P.avail s.bufs.pool + s.hand + s.driver = all
  hand : s.hand = held s.pc s.packet
  /-- Every packet up to now has been accepted or freed. -/
  settled : (↑s.accepted + ↑s.freed : Multiset ℕ) = Multiset.range s.packetNo
  rejected : s.rejected = s.freed ++ if s.pc = .free then [s.packetNo] else []

namespace Owned

variable {P : Mempool ι β ε} {prog : Sender} {l : ι} {all : Multiset β} {s t : State β ε}

theorem start (bufs : Pktmbufs β ε) (driver : Multiset β) :
    Owned P (P.avail bufs.pool + driver) (Sending.start bufs driver) where
  owned := by simp [Sending.start]
  hand := rfl
  settled := rfl
  rejected := rfl

theorem hand_eq (h : Owned P all s) (hpc : s.pc.holds = true) {b : β} (hb : s.packet = some b) :
    s.hand = {b} := by
  rw [h.hand, held, if_pos hpc, hb]
  rfl

theorem hand_eq_zero (h : Owned P all s) (hpc : s.pc.holds = false) : s.hand = 0 := by
  rw [h.hand, held, if_neg (by rw [hpc]; decide)]

/-- No freed packet is missing. -/
theorem rejected_eq (h : Owned P all s) (hpc : s.pc ≠ .free) : s.rejected = s.freed := by
  have hrejected := h.rejected
  rwa [if_neg hpc, List.append_nil] at hrejected

/-- Going on with empty hands. -/
theorem goto (h : Owned P all s) (pc : Pc) (packet : Option β) (transmitted stored : UInt64)
    (hpc : s.pc.holds = false) (hpc' : pc.holds = false) :
    Owned P all { s with
      pc := pc, packet := packet, transmittedPacketCount := transmitted
      txPacketCount := stored } := by
  have hfree : s.pc ≠ .free := by
    rintro hs
    rw [hs] at hpc
    contradiction
  have hfree' : pc ≠ .free := by
    rintro rfl
    contradiction
  refine ⟨h.owned, ?_, h.settled, ?_⟩
  · show s.hand = held pc packet
    rw [h.hand_eq_zero hpc, held, if_neg (by rw [hpc']; decide)]
  · show s.rejected = s.freed ++ if pc = .free then [s.packetNo] else []
    rw [h.rejected_eq hfree, if_neg hfree', List.append_nil]

theorem get (h : Owned P all s) (hpc : s.pc = .get) {b : β} {e : ε}
    (hget : P.get l s.bufs.pool b e) :
    Owned P all { s with
      bufs := { s.bufs with pool := e }
      pc := .fill, packet := some b, hand := b ::ₘ s.hand } := by
  have hempty := h.hand_eq_zero (by rw [hpc]; rfl)
  refine ⟨?_, ?_, h.settled, ?_⟩
  · show P.avail e + b ::ₘ s.hand + s.driver = all
    rw [← h.owned, P.avail_get hget, hempty]
    simp [add_comm _ {b}]
  · show b ::ₘ s.hand = {b}
    rw [hempty]
    rfl
  · simpa using h.rejected_eq (by rw [hpc]; decide)

theorem fill (h : Owned P all s) (hpc : s.pc = .fill) (mem : β → Mbuf) :
    Owned P all { s with bufs := { s.bufs with mem := mem }, pc := .burst } := by
  refine ⟨h.owned, ?_, h.settled, ?_⟩
  · have hhand := h.hand
    rwa [hpc] at hhand
  · simpa using h.rejected_eq (by rw [hpc]; decide)

theorem reject (h : Owned P all s) (hpc : s.pc = .burst) :
    Owned P all { s with rejected := s.rejected ++ [s.packetNo], pc := .free } := by
  refine ⟨h.owned, ?_, h.settled, ?_⟩
  · have hhand := h.hand
    rwa [hpc] at hhand
  · simp [h.rejected_eq (by rw [hpc]; decide)]

variable [DecidableEq β]

/-- The driver takes the packet over. -/
theorem accept (h : Owned P all s) (hpc : s.pc = .burst) {b : β} (hb : s.packet = some b) :
    Owned P all { s with
      driver := b ::ₘ s.driver
      hand := s.hand.erase b
      accepted := s.accepted ++ [s.packetNo], packetNo := s.packetNo + 1
      pc := .count } := by
  have hhand := h.hand_eq (by rw [hpc]; rfl) hb
  have hempty : s.hand.erase b = 0 := by rw [hhand, Multiset.erase_singleton]
  refine ⟨?_, hempty, ?_, ?_⟩
  · show P.avail s.bufs.pool + s.hand.erase b + b ::ₘ s.driver = all
    rw [← h.owned, hempty, hhand]
    simp [add_assoc]
  · show (↑(s.accepted ++ [s.packetNo]) + ↑s.freed : Multiset ℕ) = Multiset.range (s.packetNo + 1)
    rw [Multiset.range_succ, ← h.settled, ← Multiset.coe_add, Multiset.coe_singleton,
      add_right_comm, add_comm, Multiset.singleton_add]
  · simpa using h.rejected_eq (by rw [hpc]; decide)

/-- The packet goes back to the pool. -/
theorem free (h : Owned P all s) (hpc : s.pc = .free) {b : β} {bufs : Pktmbufs β ε}
    (hb : s.packet = some b) (hfree : Pktmbufs.Free P l s.bufs b bufs) :
    Owned P all { s with
      bufs := bufs
      hand := s.hand.erase b
      freed := s.freed ++ [s.packetNo], packetNo := s.packetNo + 1
      pc := .sleep } := by
  have hhand := h.hand_eq (by rw [hpc]; rfl) hb
  have hempty : s.hand.erase b = 0 := by rw [hhand, Multiset.erase_singleton]
  refine ⟨?_, hempty, ?_, ?_⟩
  · show P.avail bufs.pool + s.hand.erase b + s.driver = all
    rw [← h.owned, hfree.avail, hempty, hhand]
    simp [add_assoc]
  · show (↑s.accepted + ↑(s.freed ++ [s.packetNo]) : Multiset ℕ) = Multiset.range (s.packetNo + 1)
    rw [Multiset.range_succ, ← h.settled, ← Multiset.coe_add, Multiset.coe_singleton,
      ← add_assoc, add_comm, Multiset.singleton_add]
  · have hrejected := h.rejected
    rw [if_pos hpc] at hrejected
    simpa using hrejected

/-- The loop keeps track of every buffer. -/
theorem loopStep (h : Owned P all s) (hstep : LoopStep P prog l s t) : Owned P all t := by
  cases hstep with
  | exit hpc _ => exact h.goto _ _ _ _ (by rw [hpc]; rfl) rfl
  | enter hpc _ => exact h.goto _ _ _ _ (by rw [hpc]; rfl) rfl
  | get hpc hget => exact h.get hpc hget
  | getFailed hpc => exact h.goto _ _ _ _ (by rw [hpc]; rfl) rfl
  | fill hpc hb => exact h.fill hpc _
  | accept hpc hb => exact h.accept hpc hb
  | reject hpc => exact h.reject hpc
  | free hpc hb hfree => exact h.free hpc hb hfree
  | count hpc => exact h.goto _ _ _ _ (by rw [hpc]; rfl) (by split <;> rfl)
  | store hpc => exact h.goto _ _ _ _ (by rw [hpc]; rfl) rfl
  | sleep hpc => exact h.goto _ _ _ _ (by rw [hpc]; rfl) rfl

theorem step (h : Owned P all s) (hstep : Step P prog l s t) : Owned P all t := by
  cases hstep with
  | loop hloop => exact h.loopStep hloop
  | complete l' rest hdriver hfree =>
    refine ⟨?_, h.hand, h.settled, h.rejected⟩
    rw [← h.owned, hfree.avail, hdriver]
    simp
  | telemetry _ => exact ⟨h.owned, h.hand, h.settled, h.rejected⟩
  | terminate => exact ⟨h.owned, h.hand, h.settled, h.rejected⟩

end Owned

/-! ## The counters -/

/-- A packet has been accepted and `transmitted_packet_count` does not yet say so. -/
def Pc.uncounted : Pc → ℕ
  | .count => 1
  | _ => 0

/-- A packet has been accepted and `tx_packet_count` does not yet say so. -/
def Pc.unstored : Pc → ℕ
  | .count | .store => 1
  | _ => 0

/-- The number of accepted packets `tx_packet_count` stands for. -/
def State.stored (s : State β ε) : ℕ := s.accepted.length - s.pc.unstored

def Reply.stored (r : Reply) : ℕ := r.accepted - r.pc.unstored

/-- The invariant of the counters. -/
structure Counted (prog : Sender) (s : State β ε) : Prop where
  unstored_le : s.pc.unstored ≤ s.accepted.length
  transmitted : s.transmittedPacketCount = UInt64.ofNat (s.accepted.length - s.pc.uncounted)
  txPacket : prog.telemetry = true → s.txPacketCount = UInt64.ofNat s.stored
  reply_value : ∀ r ∈ s.replies, r.value = UInt64.ofNat r.stored
  reply_unstored : ∀ r ∈ s.replies, r.pc.unstored ≤ r.accepted
  reply_accepted : ∀ r ∈ s.replies, r.accepted ≤ s.accepted.length
  reply_mono : s.replies.Pairwise fun r r' => r.stored ≤ r'.stored
  reply_le : ∀ r ∈ s.replies, r.stored ≤ s.stored

namespace Counted

variable {P : Mempool ι β ε} {prog : Sender} {l : ι} {s t : State β ε}

theorem start (bufs : Pktmbufs β ε) (driver : Multiset β) :
    Counted prog (Sending.start bufs driver) where
  unstored_le := le_rfl
  transmitted := rfl
  txPacket := fun _ => rfl
  reply_value := by simp [Sending.start]
  reply_unstored := by simp [Sending.start]
  reply_accepted := by simp [Sending.start]
  reply_mono := List.Pairwise.nil
  reply_le := by simp [Sending.start]

/-- A step after which the counters stand for as many packets as before, or more. -/
theorem of_le (h : Counted prog s) (hreplies : t.replies = s.replies)
    (haccepted : s.accepted.length ≤ t.accepted.length) (hstored : s.stored ≤ t.stored)
    (hunstored : t.pc.unstored ≤ t.accepted.length)
    (htransmitted : t.transmittedPacketCount = UInt64.ofNat (t.accepted.length - t.pc.uncounted))
    (htx : prog.telemetry = true → t.txPacketCount = UInt64.ofNat t.stored) : Counted prog t where
  unstored_le := hunstored
  transmitted := htransmitted
  txPacket := htx
  reply_value := hreplies ▸ h.reply_value
  reply_unstored := hreplies ▸ h.reply_unstored
  reply_accepted := fun r hr => (h.reply_accepted r (hreplies ▸ hr)).trans haccepted
  reply_mono := hreplies ▸ h.reply_mono
  reply_le := fun r hr => (h.reply_le r (hreplies ▸ hr)).trans hstored

/-- Going on without a packet accepted. -/
theorem goto (h : Counted prog s) (hreplies : t.replies = s.replies)
    (haccepted : t.accepted = s.accepted)
    (htransmitted : t.transmittedPacketCount = s.transmittedPacketCount)
    (htx : t.txPacketCount = s.txPacketCount) (hun : t.pc.uncounted = s.pc.uncounted)
    (hun' : t.pc.unstored = s.pc.unstored) : Counted prog t := by
  have hstored : t.stored = s.stored := by rw [State.stored, haccepted, hun']; rfl
  apply h.of_le hreplies (by rw [haccepted]) (by rw [hstored])
  · rw [haccepted, hun']; exact h.unstored_le
  · rw [htransmitted, haccepted, hun]; exact h.transmitted
  · rw [htx, hstored]; exact h.txPacket

/-- `transmitted_packet_count += 1`. -/
theorem count (h : Counted prog s) (hpc : s.pc = .count) :
    Counted prog { s with
      transmittedPacketCount := s.transmittedPacketCount + 1
      pc := if prog.telemetry then .store else .sleep } := by
  have hle := h.unstored_le
  have htransmitted := h.transmitted
  have hstored : s.stored = s.accepted.length - 1 := by rw [State.stored, hpc]; rfl
  rw [hpc] at hle htransmitted
  have hadd : s.transmittedPacketCount + 1 = UInt64.ofNat s.accepted.length := by
    rw [htransmitted, show (1 : UInt64) = UInt64.ofNat 1 from rfl, ← UInt64.ofNat_add]
    congr 1
    exact Nat.sub_add_cancel hle
  cases htel : prog.telemetry with
  | false =>
    refine h.of_le rfl le_rfl ?_ (Nat.zero_le _) hadd (fun htel' => ?_)
    · rw [hstored]
      exact Nat.sub_le _ _
    · rw [htel] at htel'
      contradiction
  | true =>
    refine h.of_le rfl le_rfl hstored.le hle hadd (fun _ => ?_)
    show s.txPacketCount = UInt64.ofNat (s.accepted.length - 1)
    rw [h.txPacket htel, hstored]

/-- `tx_packet_count.store(transmitted_packet_count)`. -/
theorem store (h : Counted prog s) (hpc : s.pc = .store) :
    Counted prog { s with txPacketCount := s.transmittedPacketCount, pc := .sleep } := by
  have htransmitted := h.transmitted
  rw [hpc] at htransmitted
  exact h.of_le rfl le_rfl (Nat.sub_le _ _) (Nat.zero_le _) htransmitted (fun _ => htransmitted)

/-- A reply is made from the counter as it is. -/
theorem telemetry (h : Counted prog s) (htel : prog.telemetry = true) :
    Counted prog { s with
      replies := s.replies ++ [⟨s.txPacketCount, s.accepted.length, s.pc⟩] } := by
  have hmem : ∀ {p : Reply → Prop}, (∀ r ∈ s.replies, p r) →
      p ⟨s.txPacketCount, s.accepted.length, s.pc⟩ →
        ∀ r ∈ s.replies ++ [⟨s.txPacketCount, s.accepted.length, s.pc⟩], p r := by
    intro p hold hnew r hr
    rcases List.mem_append.mp hr with hr | hr
    · exact hold r hr
    · rw [List.mem_singleton.mp hr]
      exact hnew
  constructor
  · exact h.unstored_le
  · exact h.transmitted
  · exact h.txPacket
  · exact hmem h.reply_value (h.txPacket htel)
  · exact hmem h.reply_unstored h.unstored_le
  · exact hmem h.reply_accepted le_rfl
  · apply List.pairwise_append.mpr
    refine ⟨h.reply_mono, List.pairwise_singleton _ _, ?_⟩
    intro r hr r' hr'
    rw [List.mem_singleton.mp hr']
    exact h.reply_le r hr
  · exact hmem h.reply_le le_rfl

variable [DecidableEq β]

theorem loopStep (h : Counted prog s) (hstep : LoopStep P prog l s t) : Counted prog t := by
  cases hstep with
  | count hpc => exact h.count hpc
  | store hpc => exact h.store hpc
  | accept hpc hb =>
    have htransmitted := h.transmitted
    rw [hpc] at htransmitted
    have hstored : s.stored = s.accepted.length := by rw [State.stored, hpc]; rfl
    refine h.of_le rfl ?_ ?_ ?_ ?_ ?_
    · simp
    · simp [State.stored, hpc, Pc.unstored]
    · simp [Pc.unstored]
    · simpa [Pc.uncounted] using htransmitted
    · intro htel
      rw [h.txPacket htel, hstored]
      simp [State.stored, Pc.unstored]
  | exit hpc | enter hpc | get hpc | getFailed hpc | fill hpc | reject hpc | free hpc | sleep hpc =>
    exact h.goto rfl rfl rfl rfl (by rw [hpc]; rfl) (by rw [hpc]; rfl)

theorem step (h : Counted prog s) (hstep : Step P prog l s t) : Counted prog t := by
  cases hstep with
  | loop hloop => exact h.loopStep hloop
  | complete l' rest hdriver hfree => exact h.goto rfl rfl rfl rfl rfl rfl
  | telemetry htel => exact h.telemetry htel
  | terminate => exact h.goto rfl rfl rfl rfl rfl rfl

end Counted

/-! ## Whole runs -/

section Runs

variable {P : Mempool ι β ε} {prog : Sender} {l : ι} {s₀ s : State β ε}

/-- The buffers a run works with: those in the pool and those the driver took
    before the loop. -/
def buffers (P : Mempool ι β ε) (s₀ : State β ε) : Multiset β :=
  P.avail s₀.bufs.pool + s₀.driver

theorem Owned.partition {all : Multiset β} (h : Owned P all s) (hnd : all.Nodup) :
    Partition P all s := by
  refine ⟨h.owned, hnd, ?_, ?_⟩
  · rw [h.hand, held]
    split
    · cases s.packet <;> simp
    · simp
  · intro hpc
    exact h.hand_eq_zero (by rw [hpc]; rfl)

theorem Owned.freesRejected {all : Multiset β} (h : Owned P all s) : FreesRejected s := by
  have hnd : (s.accepted ++ s.freed).Nodup := by
    rw [← Multiset.coe_nodup, ← Multiset.coe_add, h.settled]
    exact Multiset.nodup_range _
  rw [List.nodup_append'] at hnd
  obtain ⟨haccepted, hfreed, hdisj⟩ := hnd
  refine ⟨h.rejected, hfreed, haccepted, ?_⟩
  intro n hn hn'
  exact hdisj hn' hn

theorem toNat_ofNat {n m : ℕ} (h : n ≤ m) (hm : m < 2 ^ 64) : (UInt64.ofNat n).toNat = n :=
  UInt64.toNat_ofNat_of_lt' (h.trans_lt hm)

theorem Counted.countsAccepted (h : Counted prog s) (hlt : s.accepted.length < 2 ^ 64) :
    CountsAccepted s := by
  intro hpc
  have hun : s.pc.uncounted = 0 := by
    rcases hpc with hpc | hpc
    · rw [hpc]; rfl
    · rw [hpc]; rfl
  rw [h.transmitted, hun]
  exact toNat_ofNat le_rfl hlt

theorem Counted.repliesFollow (h : Counted prog s) (hlt : s.accepted.length < 2 ^ 64) :
    RepliesFollow s := by
  have hvalue : ∀ r ∈ s.replies, r.value.toNat = r.stored := by
    intro r hr
    rw [h.reply_value r hr]
    exact toNat_ofNat ((Nat.sub_le _ _).trans (h.reply_accepted r hr)) hlt
  constructor
  · apply h.reply_mono.imp_of_mem
    intro r r' hr hr' hle
    rw [UInt64.le_iff_toNat_le, hvalue r hr, hvalue r' hr']
    exact hle
  · intro r hr
    have hun := h.reply_unstored r hr
    rw [hvalue r hr, Reply.stored]
    cases hpc : r.pc with
    | count | store =>
      rw [hpc] at hun
      exact .inr ⟨by simp, Nat.sub_add_cancel hun⟩
    | _ => exact .inl rfl
  · exact h.reply_accepted

variable [DecidableEq β]

theorem inv_of_run (hinit : (system P prog l).init s₀)
    (hrun : Relation.ReflTransGen (Step P prog l) s₀ s) :
    Owned P (buffers P s₀) s ∧ Counted prog s := by
  induction hrun with
  | refl =>
    obtain ⟨bufs, driver, -, rfl⟩ := hinit
    exact ⟨.start bufs driver, .start bufs driver⟩
  | tail _ hstep ih => exact ⟨ih.1.step hstep, ih.2.step hstep⟩

/-- The laws of a loop over any run. The counters are exact until `2^64`
    packets have been accepted. -/
theorem partition_and_counters (hinit : (system P prog l).init s₀)
    (hrun : Relation.ReflTransGen (Step P prog l) s₀ s) :
    Partition P (buffers P s₀) s ∧ FreesRejected s ∧
      (s.accepted.length < 2 ^ 64 → CountsAccepted s ∧ RepliesFollow s) := by
  obtain ⟨howned, hcounted⟩ := inv_of_run hinit hrun
  have hnd : (buffers P s₀).Nodup := by
    obtain ⟨bufs, driver, hnd, rfl⟩ := hinit
    exact hnd
  exact ⟨howned.partition hnd, howned.freesRejected,
    fun hlt => ⟨hcounted.countsAccepted hlt, hcounted.repliesFollow hlt⟩⟩

end Runs

/-- The first packet is accepted, counted and back in the pool. -/
theorem partition_and_counters_first :
    ∃ s₀ s : State ℕ (CachedPool (Fin 1) ℕ 512), sender7.init s₀ ∧ s.accepted.length = 1 ∧
      Partition (CachedPool.mempool (Fin 1) ℕ 512)
        (buffers (CachedPool.mempool (Fin 1) ℕ 512) s₀) s ∧
          s.transmittedPacketCount.toNat = 1 := by
  obtain ⟨s, hs, hlen⟩ := exists_accepted 1
  obtain ⟨s₀, hinit, hrun⟩ := hs.reachable
  obtain ⟨hpartition, -, hcounters⟩ := partition_and_counters hinit hrun
  refine ⟨s₀, s, hinit, hlen, hpartition, ?_⟩
  rw [(hcounters (by rw [hlen]; decide)).1 (.inr hs.pc), hlen]

/-- The counter is a `uint64_t`: after `2^64` accepted packets it is back at zero. -/
theorem not_countsAccepted : ¬ ∀ s, sender7.Reachable s → CountsAccepted s := by
  intro h
  obtain ⟨s, hs, hlen⟩ := exists_accepted (2 ^ 64)
  have hcount := h s hs.reachable (.inr hs.pc)
  rw [hlen] at hcount
  exact absurd s.transmittedPacketCount.toNat_lt (by rw [hcount]; exact lt_irrefl _)

end DpdkTutorials.Sending

import DpdkTutorials.Common.System
import DpdkTutorials.Generator.PreparePool

/-!
# `transmit_packets_from_interface` of `9-packet-generator`

The routine (main.cpp:345-418) runs on the second lcore. It waits until the
next slot is due, allocates 16 buffers, sets their lengths and flags and hands
them to the driver. It writes no packet bytes: the frames are the ones
`prepare_memory_pool` left in the buffers.

One step of the model is one statement of the routine, a buffer freed by the
driver once it is transmitted, or the signal handler. Whether an allocation
fails, how many packets the driver accepts and what the clock shows is left
open.
-/

namespace DpdkTutorials.Generator

open DpdkTutorials.Common DpdkTutorials.Dpdk

universe u v w

/-- `packet_len` (main.cpp:361), a `uint64_t`. -/
def packetLen : UInt64 := UInt64.ofNat frameSize

/-- Where the routine is. -/
inductive TransmitPc where
  /-- The test of the outer loop. -/
  | whileTest
  /-- The inner loop `while (t0 < t1)`. -/
  | wait
  | alloc
  | fill
  /-- The call of `rte_eth_tx_burst`. -/
  | burst
  | returned
  deriving DecidableEq, Repr

/-- The local variables of the routine. -/
structure Transmit (β : Type v) where
  pc : TransmitPc
  t0 : UInt64
  t1 : UInt64
  packets : List β
  txCount : ℕ

/-- The packets of a call of `rte_eth_tx_burst`: `&packets[tx_count]`, of
    length `packet_tx_burst_size - tx_count`. -/
def Transmit.offered {β : Type v} (r : Transmit β) : List β :=
  (r.packets.drop r.txCount).take (packetTxBurstSize - r.txCount)

structure State (β : Type v) (ε : Type w) where
  bufs : Pktmbufs β ε
  exitIndicator : Bool
  /-- The last reading of `CLOCK_MONOTONIC`, in nanoseconds. -/
  clock : ℕ
  transmit : Transmit β
  /-- The buffers the driver has accepted and not yet freed. -/
  driver : Multiset β
  /-- History variable: how often the routine has left its wait. -/
  slots : ℕ
  /-- History variable: how many bulk allocations have failed. -/
  failures : ℕ
  /-- History variable: the buffers of all bulk allocations, in order. -/
  allocated : List β
  /-- History variable: the buffers the driver accepted, in order. -/
  accepted : List β

variable {ι : Type u} {β : Type v} {ε : Type w}

/-- The state in which the routine enters its outer loop at clock reading
    `start` (main.cpp:370-374). -/
def begin (interval : UInt64) (bufs : Pktmbufs β ε) (start : ℕ) : State β ε where
  bufs := bufs
  exitIndicator := false
  clock := start
  transmit := ⟨.whileTest, UInt64.ofNat start, UInt64.ofNat start + interval, [], 0⟩
  driver := 0
  slots := 0
  failures := 0
  allocated := []
  accepted := []

/-- The fields the routine sets in each packet (main.cpp:401-406). -/
def setFields (buf : Mbuf) : Mbuf :=
  let buf := { buf with pktLen := packetLen.toUInt32 }
  let buf := { buf with dataLen := buf.pktLen.toUInt16 }
  let buf := { buf with olFlags := rteMbufFTxIpCksum ||| rteMbufFTxIpv4 ||| rteMbufFTxUdpCksum }
  let buf := { buf with l2Len := sizeofRteEtherHdr }
  { buf with l3Len := sizeofRteIpv4Hdr }

variable [DecidableEq β]

/-- The `for` loop over the packets of a burst (main.cpp:401-406). -/
def fillLoop (packets : List β) (mem : β → Mbuf) : β → Mbuf :=
  packets.foldl (fun mem b => Function.update mem b (setFields (mem b))) mem

/-! ## Steps -/

/-- The steps of `transmit_packets_from_interface` on lcore `l`, with the
    burst interval `interval`. -/
inductive TransmitStep (P : Mempool ι β ε) (headroom : ℕ) (l : ι) (interval : UInt64) :
    State β ε → State β ε → Prop where
  | exit {s} : s.transmit.pc = .whileTest → s.exitIndicator = true →
      TransmitStep P headroom l interval s { s with
        transmit := { s.transmit with pc := .returned } }
  | enter {s} : s.transmit.pc = .whileTest → s.exitIndicator = false →
      TransmitStep P headroom l interval s { s with
        transmit := { s.transmit with pc := .wait } }
  /-- `clock_gettime(CLOCK_MONOTONIC, &ts)` shows `now` nanoseconds. -/
  | wait {s} (now : ℕ) : s.transmit.pc = .wait → s.transmit.t0 < s.transmit.t1 → s.clock ≤ now →
      TransmitStep P headroom l interval s { s with
        clock := now, transmit := { s.transmit with t0 := UInt64.ofNat now } }
  /-- `t1 += interburst_time_ns`. -/
  | due {s} : s.transmit.pc = .wait → ¬ s.transmit.t0 < s.transmit.t1 →
      TransmitStep P headroom l interval s { s with
        slots := s.slots + 1
        transmit := { s.transmit with pc := .alloc, t1 := s.transmit.t1 + interval } }
  /-- `rte_pktmbuf_alloc_bulk` hands out `bs`. -/
  | alloc {s bs bufs} : s.transmit.pc = .alloc → bs.length = packetTxBurstSize →
      Pktmbufs.AllocMany P headroom l s.bufs bs bufs →
      TransmitStep P headroom l interval s { s with
        bufs := bufs, allocated := s.allocated ++ bs
        transmit := { s.transmit with pc := .fill, packets := bs } }
  /-- `rte_pktmbuf_alloc_bulk` fails: sleep and `continue`. -/
  | allocFailed {s} : s.transmit.pc = .alloc →
      TransmitStep P headroom l interval s { s with
        failures := s.failures + 1, transmit := { s.transmit with pc := .whileTest } }
  | fill {s} : s.transmit.pc = .fill →
      TransmitStep P headroom l interval s { s with
        bufs := { s.bufs with mem := fillLoop s.transmit.packets s.bufs.mem }
        transmit := { s.transmit with pc := .burst, txCount := 0 } }
  /-- `tx_count += rte_eth_tx_burst(...)`: the driver accepts the first `n` of
      the packets it is offered. -/
  | burst {s} (n : ℕ) : s.transmit.pc = .burst → n ≤ s.transmit.offered.length →
      TransmitStep P headroom l interval s { s with
        driver := ↑(s.transmit.offered.take n) + s.driver
        accepted := s.accepted ++ s.transmit.offered.take n
        transmit := { s.transmit with
          pc := if s.transmit.txCount + n < packetTxBurstSize then .burst else .whileTest
          txCount := s.transmit.txCount + n } }

/-- A step of the routine, of the driver or of the signal handler. -/
inductive Step (P : Mempool ι β ε) (headroom : ℕ) (l : ι) (interval : UInt64) :
    State β ε → State β ε → Prop where
  | transmit {s t} : TransmitStep P headroom l interval s t → Step P headroom l interval s t
  /-- The driver frees a transmitted buffer, on any lcore. -/
  | free {s b bufs} (l' : ι) (rest : Multiset β) : s.driver = b ::ₘ rest →
      Pktmbufs.Free P l' s.bufs b bufs →
      Step P headroom l interval s { s with bufs := bufs, driver := rest }
  | terminate {s} : Step P headroom l interval s { s with exitIndicator := true }

/-- The routine on lcore `l` after `prepare_memory_pool` has prepared a newly
    created pool on lcore `main`. No receive queue uses the pool
    (main.cpp:568-591). -/
def system (P : Mempool ι β ε) (headroom : ℕ) (main l : ι) (interval : UInt64) :
    System (State β ε) where
  init s := ∃ s₀ bufs start, Prepared P headroom main s₀ bufs ∧ s = begin interval bufs start
  next := Step P headroom l interval

/-! ## A run up to the first burst -/

section FirstBurst

variable {P : Mempool ι β ε} {headroom : ℕ} {main : ι}

/-- The first slot comes. -/
theorem exists_slot (l : ι) (interval : UInt64) {s₀ bufs : Pktmbufs β ε}
    (h : Prepared P headroom main s₀ bufs) :
    ∃ s, (system P headroom main l interval).Reachable s ∧ s.transmit.pc = .alloc ∧
      s.bufs = bufs := by
  have hbegin : (system P headroom main l interval).Reachable (begin interval bufs 0) :=
    .of_init ⟨s₀, bufs, 0, h, rfl⟩
  have henter := hbegin.step (.transmit (.enter rfl rfl))
  by_cases hlt : UInt64.ofNat 0 < UInt64.ofNat 0 + interval
  · -- The clock shows exactly the time the slot is due.
    have hwait := henter.step
      (.transmit (.wait (UInt64.ofNat 0 + interval).toNat rfl hlt (Nat.zero_le _)))
    have hdue := hwait.step (.transmit (.due rfl (by simp [begin])))
    exact ⟨_, hdue, rfl, rfl⟩
  · exact ⟨_, henter.step (.transmit (.due rfl hlt)), rfl, rfl⟩

/-- If 16 buffers can be allocated, a burst is offered to the driver. -/
theorem exists_burst {l : ι} (interval : UInt64) {s₀ bufs bufs' : Pktmbufs β ε} {bs : List β}
    (h : Prepared P headroom main s₀ bufs) (hlen : bs.length = packetTxBurstSize)
    (hmany : Pktmbufs.AllocMany P headroom l bufs bs bufs') :
    ∃ s, (system P headroom main l interval).Reachable s ∧ s.transmit.pc = .burst ∧
      s.transmit.offered.length = packetTxBurstSize := by
  obtain ⟨s, hs, hpc, hbufs⟩ := exists_slot l interval h
  rw [← hbufs] at hmany
  have halloc := hs.step (.transmit (.alloc hpc hlen hmany))
  have hfill := halloc.step (.transmit (.fill rfl))
  refine ⟨_, hfill, rfl, ?_⟩
  simp [Transmit.offered, hlen]

end FirstBurst

/-- The program with the pool `main` creates, on lcores 0 and 1. -/
def generator (headroom : ℕ) (interval : UInt64) : System (State ℕ (CachedPool (Fin 2) ℕ 512)) :=
  system (CachedPool.mempool (Fin 2) ℕ 512) headroom 0 1 interval

theorem generator_bursts (headroom : ℕ) (interval : UInt64) :
    ∃ s, (generator headroom interval).Reachable s ∧ s.transmit.pc = .burst ∧
      s.transmit.offered.length = packetTxBurstSize := by
  obtain ⟨bufs, hprep⟩ := exists_prepared_createdPool headroom
    (fun _ => ⟨fun _ => 0, 0, 0, 0, 0, 0, 0⟩)
  obtain ⟨bs, bufs', hlen, hmany⟩ :=
    Pktmbufs.exists_allocMany headroom 1 _ bufs (card_usable_prepared hprep)
  exact exists_burst interval hprep hlen hmany

end DpdkTutorials.Generator

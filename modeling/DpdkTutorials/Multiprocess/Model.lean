import DpdkTutorials.Common.System
import DpdkTutorials.Dpdk.Ring
import DpdkTutorials.Dpdk.Mempool

/-!
# The two processes of `8-multiprocess-communication`

The primary process creates the pool and the ring, runs `generate_packets`
(main.cpp:57-105), and after its loop waits 500 ms and frees the ring
(main.cpp:281-284). A secondary process looks the ring up and runs
`process_packets` (main.cpp:107-158). Pool, ring and buffers are in shared
memory; `exit_indicator` and all other variables are private to a process.

One step of the model is one action of one process, or a signal to it. The
clock, the order in which the pool hands out buffers and the moments at which
allocations fail are left open.
-/

namespace DpdkTutorials.Multiprocess

open DpdkTutorials.Common DpdkTutorials.Dpdk

universe u v w

/-- The second argument of `rte_pktmbuf_pool_create` (main.cpp:255). -/
def poolSize : ℕ := 2048

/-- `RTE_MEMPOOL_CACHE_MAX_SIZE`. -/
def rteMempoolCacheMaxSize : ℕ := 512

/-- The second argument of `rte_ring_create` (main.cpp:269). -/
def ringSize : ℕ := 512

/-- A reading of `CLOCK_REALTIME`. The kernel does not let this clock be set
    before the epoch or so late that its nanoseconds do not fit in a `long`. -/
structure Timespec where
  tvSec : ℕ
  tvNsec : ℕ
  tvNsec_lt : tvNsec < 1000000000
  representable : tvSec * 1000000000 + tvNsec < 2 ^ 63

namespace Timespec

/-- The value the primary writes in the dynamic field (main.cpp:82). -/
def timestamp (ts : Timespec) : UInt64 := UInt64.ofNat (ts.tvSec * 1000000000 + ts.tvNsec)

/-- One reading is earlier than another. -/
def Before (ts ts' : Timespec) : Prop :=
  ts.tvSec < ts'.tvSec ∨ ts.tvSec = ts'.tvSec ∧ ts.tvNsec < ts'.tvNsec

theorem toNat_timestamp (ts : Timespec) :
    ts.timestamp.toNat = ts.tvSec * 1000000000 + ts.tvNsec :=
  UInt64.toNat_ofNat_of_lt' (ts.representable.trans (by decide))

/-- The timestamps are ordered like the readings. -/
theorem timestamp_lt_iff (ts ts' : Timespec) : ts.timestamp < ts'.timestamp ↔ ts.Before ts' := by
  have h := ts.tvNsec_lt
  have h' := ts'.tvNsec_lt
  rw [UInt64.lt_iff_toNat_lt, toNat_timestamp, toNat_timestamp, Before]
  omega

end Timespec

/-- `data` with its terminating zero (main.cpp:85). -/
def sampleData : List UInt8 :=
  "A quick brown fox jumps over the lazy dog.".toList.map (fun c => UInt8.ofNat c.toNat) ++ [0]

@[simp] theorem length_sampleData : sampleData.length = 43 := by decide

/-- A memory buffer: the dynamic field `dynfield_ts`, the bytes from
    `rte_pktmbuf_mtod` on, and `data_len`. -/
structure Mbuf where
  timestamp : UInt64
  data : List UInt8
  dataLen : UInt16

/-- A packet as its reader sees it. -/
structure Packet where
  timestamp : UInt64
  bytes : List UInt8
  deriving DecidableEq, Repr

/-- The packet in a buffer. -/
def Mbuf.packet (buf : Mbuf) : Packet := ⟨buf.timestamp, buf.data.take buf.dataLen.toNat⟩

/-- `memcpy(data_ptr, data, sizeof(data))` and the assignment of `data_len`
    (main.cpp:87-88). -/
def Mbuf.fill (buf : Mbuf) : Mbuf :=
  { buf with
    data := sampleData ++ buf.data.drop sampleData.length
    dataLen := UInt16.ofNat sampleData.length }

theorem Mbuf.packet_fill (buf : Mbuf) : buf.fill.packet = ⟨buf.timestamp, sampleData⟩ := by
  simp [packet, fill]

/-! ## States -/

/-- Where the primary is. From the allocation on, with its packet. -/
inductive PrimaryPc (β : Type v) where
  | whileTest
  | alloc
  | stamp (packet : β)
  | fill (packet : β)
  | enqueue (packet : β)
  /-- The branch that prints "Unable to enqueue packet in the ring buffer." -/
  | unableToEnqueue (packet : β)
  /-- The 500 ms wait, up to `rte_ring_free`. -/
  | ringFree
  | exited

/-- The variables of the primary process. -/
structure Primary (β : Type v) where
  pc : PrimaryPc β
  exitIndicator : Bool
  ts : Timespec
  totalTxPackets : ℕ

/-- The packet in the primary's hand. -/
def Primary.hand {β : Type v} (p : Primary β) : List β :=
  match p.pc with
  | .stamp b | .fill b | .enqueue b | .unableToEnqueue b => [b]
  | _ => []

/-- Where the secondary is. -/
inductive SecondaryPc where
  | absent
  /-- The call of `rte_ring_lookup`. -/
  | lookup
  | whileTest
  /-- The call of `rte_ring_dequeue_burst`. -/
  | dequeue
  | forLoop
  | free
  | exited
  /-- The ring was freed before a call of `rte_ring_dequeue_burst`. What the
      call does is undefined. -/
  | usedFreedRing
  deriving DecidableEq, Repr

/-- The variables of the secondary process. -/
structure Secondary (β : Type v) where
  pc : SecondaryPc
  exitIndicator : Bool
  rxPackets : List β
  rxCount : ℕ
  i : ℕ
  totalRxPackets : ℕ
  lastTimestamp : UInt64

/-- A newly started secondary process. -/
def Secondary.launched {β : Type v} : Secondary β := ⟨.lookup, false, [], 0, 0, 0, 0⟩

/-- The packets taken from the ring and not yet looked at. -/
def Secondary.taken {β : Type v} (c : Secondary β) : List β :=
  match c.pc with
  | .forLoop => c.rxPackets.drop c.i
  | .free => c.rxPackets.drop (c.i + 1)
  | _ => []

/-- The packet that is looked at and about to be freed. -/
def Secondary.done {β : Type v} (c : Secondary β) : List β :=
  match c.pc with
  | .free => (c.rxPackets.drop c.i).take 1
  | _ => []

/-- A packet the primary has enqueued, with the clock reading for it. -/
structure Enqueued where
  serial : ℕ
  reading : Timespec

/-- A packet the secondary has looked at, and whether it has printed "The
    received timestamp is less than last time stamp." for it. -/
structure Consumed where
  serial : ℕ
  packet : Packet
  warned : Bool

structure State (β : Type v) (ε : Type w) where
  pool : ε
  mem : β → Mbuf
  ringBuffer : Ring β ringSize
  ringFreed : Bool
  primary : Primary β
  secondary : Secondary β
  /-- History variable: how many buffers were allocated. -/
  allocs : ℕ
  /-- History variable: the serial number of a buffer's last allocation. -/
  serial : β → ℕ
  /-- History variable: the packets enqueued, in order. -/
  enqueued : List Enqueued
  /-- History variable: the packets consumed, in order. -/
  consumed : List Consumed
  /-- History variable: the allocations freed. -/
  freed : List ℕ

variable {ι : Type u} {β : Type v} {ε : Type w}

/-- The state in which the primary calls `generate_packets`. -/
def start (e : ε) (mem : β → Mbuf) (serial : β → ℕ) : State β ε where
  pool := e
  mem := mem
  ringBuffer := .create
  ringFreed := false
  primary := ⟨.whileTest, false, ⟨0, 0, by decide, by decide⟩, 0⟩
  secondary := { Secondary.launched with pc := .absent }
  allocs := 0
  serial := serial
  enqueued := []
  consumed := []
  freed := []

/-! ## Steps -/

/-- The steps of the primary process, on lcore `l`. -/
inductive PrimaryStep [DecidableEq β] (P : Mempool ι β ε) (l : ι) :
    State β ε → State β ε → Prop where
  | exit {s} : s.primary.pc = .whileTest → s.primary.exitIndicator = true →
      PrimaryStep P l s { s with primary := { s.primary with pc := .ringFree } }
  | enter {s} : s.primary.pc = .whileTest → s.primary.exitIndicator = false →
      PrimaryStep P l s { s with primary := { s.primary with pc := .alloc } }
  | alloc {s b e} : s.primary.pc = .alloc → P.get l s.pool b e →
      PrimaryStep P l s { s with
        pool := e, allocs := s.allocs + 1, serial := Function.update s.serial b s.allocs
        mem := Function.update s.mem b { s.mem b with dataLen := 0 }
        primary := { s.primary with pc := .stamp b } }
  /-- `rte_pktmbuf_alloc` returns null: `continue`. -/
  | allocFailed {s} : s.primary.pc = .alloc → P.getFails l s.pool →
      PrimaryStep P l s { s with primary := { s.primary with pc := .whileTest } }
  /-- `clock_gettime(CLOCK_REALTIME, &ts)`, and the dynamic field is set. -/
  | stamp {s b} (ts : Timespec) : s.primary.pc = .stamp b →
      PrimaryStep P l s { s with
        mem := Function.update s.mem b { s.mem b with timestamp := ts.timestamp }
        primary := { s.primary with pc := .fill b, ts := ts } }
  | fill {s b} : s.primary.pc = .fill b →
      PrimaryStep P l s { s with
        mem := Function.update s.mem b (s.mem b).fill
        primary := { s.primary with pc := .enqueue b } }
  | enqueue {s b r'} : s.primary.pc = .enqueue b → s.ringBuffer.enqueue b = some r' →
      PrimaryStep P l s { s with
        ringBuffer := r', enqueued := s.enqueued ++ [⟨s.serial b, s.primary.ts⟩]
        primary := { s.primary with
          pc := .whileTest, totalTxPackets := (s.primary.totalTxPackets + 1) % 2 ^ 64 } }
  /-- `rte_ring_enqueue` returns non-zero. -/
  | full {s b} : s.primary.pc = .enqueue b → s.ringBuffer.enqueue b = none →
      PrimaryStep P l s { s with primary := { s.primary with pc := .unableToEnqueue b } }
  | drop {s b e} : s.primary.pc = .unableToEnqueue b → P.put l s.pool b e →
      PrimaryStep P l s { s with
        pool := e, freed := s.freed ++ [s.serial b]
        primary := { s.primary with pc := .whileTest } }
  /-- `rte_ring_free(ring_buffer)`. -/
  | ringFree {s} : s.primary.pc = .ringFree →
      PrimaryStep P l s { s with
        ringFreed := true, primary := { s.primary with pc := .exited } }

/-- The steps of the secondary process, on lcore `l`. `rx_count` and `i` are
    `uint8_t`. -/
inductive SecondaryStep (P : Mempool ι β ε) (l : ι) : State β ε → State β ε → Prop where
  | launch {s} : s.secondary.pc = .absent →
      SecondaryStep P l s { s with secondary := .launched }
  | lookup {s} : s.secondary.pc = .lookup → s.ringFreed = false →
      SecondaryStep P l s { s with secondary := { s.secondary with pc := .whileTest } }
  /-- There is no ring of this name. -/
  | lookupFailed {s} : s.secondary.pc = .lookup → s.ringFreed = true →
      SecondaryStep P l s { s with secondary := { s.secondary with pc := .exited } }
  | exit {s} : s.secondary.pc = .whileTest → s.secondary.exitIndicator = true →
      SecondaryStep P l s { s with secondary := { s.secondary with pc := .exited } }
  | enter {s} : s.secondary.pc = .whileTest → s.secondary.exitIndicator = false →
      SecondaryStep P l s { s with secondary := { s.secondary with pc := .dequeue } }
  /-- `rte_ring_dequeue_burst(ring_buffer, rx_packets, 1, nullptr)`. -/
  | dequeue {s bs r'} : s.secondary.pc = .dequeue → s.ringFreed = false →
      s.ringBuffer.dequeueBurst 1 = (bs, r') →
      SecondaryStep P l s { s with
        ringBuffer := r'
        secondary := { s.secondary with
          pc := if bs.length % 2 ^ 8 = 0 then .whileTest else .forLoop
          rxPackets := bs, rxCount := bs.length % 2 ^ 8, i := 0 } }
  | dequeueFreed {s} : s.secondary.pc = .dequeue → s.ringFreed = true →
      SecondaryStep P l s { s with secondary := { s.secondary with pc := .usedFreedRing } }
  /-- The timestamp is read, compared with the last one and kept. -/
  | process {s} (h : s.secondary.i < s.secondary.rxPackets.length) :
      s.secondary.pc = .forLoop → s.secondary.i < s.secondary.rxCount →
      SecondaryStep P l s { s with
        consumed := s.consumed ++ [⟨s.serial s.secondary.rxPackets[s.secondary.i],
          (s.mem s.secondary.rxPackets[s.secondary.i]).packet,
          decide ((s.mem s.secondary.rxPackets[s.secondary.i]).timestamp <
            s.secondary.lastTimestamp)⟩]
        secondary := { s.secondary with
          pc := .free
          totalRxPackets := (s.secondary.totalRxPackets + 1) % 2 ^ 64
          lastTimestamp := (s.mem s.secondary.rxPackets[s.secondary.i]).timestamp } }
  | free {s e} (h : s.secondary.i < s.secondary.rxPackets.length) : s.secondary.pc = .free →
      P.put l s.pool s.secondary.rxPackets[s.secondary.i] e →
      SecondaryStep P l s { s with
        pool := e, freed := s.freed ++ [s.serial s.secondary.rxPackets[s.secondary.i]]
        secondary := { s.secondary with pc := .forLoop, i := (s.secondary.i + 1) % 2 ^ 8 } }
  | done {s} : s.secondary.pc = .forLoop → ¬ s.secondary.i < s.secondary.rxCount →
      SecondaryStep P l s { s with secondary := { s.secondary with pc := .whileTest } }

/-- One action of a process, or the signal handler `terminate` in one of them. -/
inductive Step [DecidableEq β] (P : Mempool ι β ε) (r c : ι) : State β ε → State β ε → Prop where
  | primary {s t} : PrimaryStep P r s t → Step P r c s t
  | secondary {s t} : SecondaryStep P c s t → Step P r c s t
  | terminatePrimary {s} :
      Step P r c s { s with primary := { s.primary with exitIndicator := true } }
  | terminateSecondary {s} : s.secondary.pc ≠ .absent →
      Step P r c s { s with secondary := { s.secondary with exitIndicator := true } }

/-- As `Step`; a secondary that has exited may also be started again. -/
inductive RelaunchStep [DecidableEq β] (P : Mempool ι β ε) (r c : ι) :
    State β ε → State β ε → Prop where
  | step {s t} : Step P r c s t → RelaunchStep P r c s t
  | relaunch {s} : s.secondary.pc = .exited →
      RelaunchStep P r c s { s with secondary := .launched }

/-- A pool of `poolSize` distinct buffers, all inside, and no packets yet. -/
def Starts (P : Mempool ι β ε) (s : State β ε) : Prop :=
  ∃ e mem serial, s = start e mem serial ∧ (P.avail e).Nodup ∧ (P.avail e).card = poolSize

/-- One primary on lcore `r` and one secondary on lcore `c`. -/
def system [DecidableEq β] (P : Mempool ι β ε) (r c : ι) : System (State β ε) where
  init := Starts P
  next := Step P r c

/-- One primary on lcore `r` and, one after the other, any number of
    secondaries on lcore `c`. -/
def relaunchSystem [DecidableEq β] (P : Mempool ι β ε) (r c : ι) : System (State β ε) where
  init := Starts P
  next := RelaunchStep P r c

section Frames

variable {P : Mempool ι β ε} {l : ι} {s t : State β ε}

theorem PrimaryStep.frame [DecidableEq β] (h : PrimaryStep P l s t) :
    t.secondary = s.secondary ∧ t.consumed = s.consumed := by
  cases h <;> exact ⟨rfl, rfl⟩

theorem SecondaryStep.frame (h : SecondaryStep P l s t) :
    t.primary = s.primary ∧ t.mem = s.mem ∧ t.ringFreed = s.ringFreed := by
  cases h <;> exact ⟨rfl, rfl, rfl⟩

end Frames

/-! ## A pool -/

/-- `memory_buffer_pool_1`, with a cache for each lcore. -/
abbrev memoryBufferPool (ι : Type u) (β : Type v) [DecidableEq ι] [Fintype ι] :
    Mempool ι β (CachedPool ι β rteMempoolCacheMaxSize) :=
  CachedPool.mempool ι β rteMempoolCacheMaxSize

/-- The pool as created, for logical cores 0 and 1. -/
def createdPool : CachedPool (Fin 2) ℕ rteMempoolCacheMaxSize where
  common := Multiset.range poolSize
  cache _ := 0
  card_cache_le _ := Nat.zero_le _

/-- The state in which the primary starts with this pool. -/
def created : State ℕ (CachedPool (Fin 2) ℕ rteMempoolCacheMaxSize) :=
  start createdPool (fun _ => ⟨0, [], 0⟩) fun _ => 0

theorem starts_createdPool : Starts (memoryBufferPool (Fin 2) ℕ) created := by
  have havail : createdPool.avail = Multiset.range poolSize := by
    simp [CachedPool.avail, createdPool]
  refine ⟨_, _, _, rfl, ?_, ?_⟩
  · show createdPool.avail.Nodup
    rw [havail]
    exact Multiset.nodup_range _
  · show createdPool.avail.card = _
    rw [havail, Multiset.card_range]

theorem usable_createdPool : createdPool.usable 0 ≠ 0 := by
  intro hnone
  have hcard : (createdPool.usable 0).card = poolSize := by
    simp [CachedPool.usable, createdPool]
  rw [hnone, Multiset.card_zero] at hcard
  exact absurd hcard (by decide)

/-- The primary has enqueued `b`, and the secondary has looked the ring up. -/
structure OneEnqueued (b : ℕ) (s : State ℕ (CachedPool (Fin 2) ℕ rteMempoolCacheMaxSize)) :
    Prop where
  run : Relation.ReflTransGen (Step (memoryBufferPool (Fin 2) ℕ) 0 1) created s
  primary : s.primary.pc = .whileTest
  generating : s.primary.exitIndicator = false
  secondary : s.secondary.pc = .whileTest
  polling : s.secondary.exitIndicator = false
  ringFreed : s.ringFreed = false
  items : s.ringBuffer.items = [b]

theorem OneEnqueued.reachable {b : ℕ} {s : State ℕ (CachedPool (Fin 2) ℕ rteMempoolCacheMaxSize)}
    (hs : OneEnqueued b s) : (system (memoryBufferPool (Fin 2) ℕ) 0 1).Reachable s :=
  ⟨created, starts_createdPool, hs.run⟩

theorem exists_oneEnqueued : ∃ b s, OneEnqueued b s := by
  obtain ⟨b, e, hget⟩ := CachedPool.exists_get usable_createdPool
  obtain ⟨ring, hring⟩ := Ring.exists_enqueue (r := (Ring.create : Ring ℕ ringSize)) b (by decide)
  have h₀ : Relation.ReflTransGen (Step (memoryBufferPool (Fin 2) ℕ) 0 1) created created := .refl
  have h₁ := (h₀.tail (.primary (.enter rfl rfl))).tail (.primary (.alloc rfl hget))
  have h₂ := h₁.tail (.primary (.stamp ⟨0, 0, by decide, by decide⟩ rfl))
  have h₃ := (h₂.tail (.primary (.fill rfl))).tail (.primary (.enqueue rfl hring))
  have h₄ := (h₃.tail (.secondary (.launch rfl))).tail (.secondary (.lookup rfl rfl))
  exact ⟨b, _, h₄, rfl, rfl, rfl, rfl, rfl, Ring.items_of_enqueue hring⟩

/-- Then the secondary takes the packet, looks at it and frees it. -/
theorem exists_oneFreed : ∃ s : State ℕ (CachedPool (Fin 2) ℕ rteMempoolCacheMaxSize),
    Relation.ReflTransGen (Step (memoryBufferPool (Fin 2) ℕ) 0 1) created s ∧
      s.primary.pc = .whileTest ∧ s.primary.exitIndicator = false ∧ s.consumed ≠ [] ∧
      s.freed ≠ [] := by
  obtain ⟨b, s, hs⟩ := exists_oneEnqueued
  obtain ⟨e, hput⟩ := CachedPool.exists_put (1 : Fin 2) s.pool b (by decide)
  have hdeq : s.ringBuffer.dequeueBurst 1 = ([b], (s.ringBuffer.dequeueBurst 1).2) := by
    refine Prod.ext ?_ rfl
    show s.ringBuffer.items.take 1 = [b]
    rw [hs.items]
    rfl
  have h₁ := hs.run.tail (.secondary (.enter hs.secondary hs.polling))
  have h₂ := h₁.tail (.secondary (.dequeue rfl hs.ringFreed hdeq))
  have h₃ := h₂.tail (.secondary (.process Nat.zero_lt_one rfl Nat.zero_lt_one))
  have h₄ := h₃.tail (.secondary (.free Nat.zero_lt_one rfl hput))
  exact ⟨_, h₄, hs.primary, hs.generating, by simp, by simp⟩

end DpdkTutorials.Multiprocess

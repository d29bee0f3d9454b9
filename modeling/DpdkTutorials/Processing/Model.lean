import DpdkTutorials.Common.System
import DpdkTutorials.Dpdk.Ring
import DpdkTutorials.Dpdk.Mempool

/-!
# The reader and the consumer of `3-processing-a-packet`

`read_packets_from_interface` (main.cpp:75-105) runs on the main lcore, polls
the port and enqueues every received buffer in `ring_buffer`.
`process_packets` (main.cpp:41-73) runs on the second lcore, dequeues up to 32
buffers at a time, prints and frees them. Both loops stop when the signal
handler has set `exit_indicator`.

One step of the model is one atomic action of one of the two routines or of
the signal handler. Everything else (the memory pool, its caches, the NIC and
its receive queue) is an `Environment`: the buffers it holds, what a receive
burst takes from it and what a free gives back.
-/

namespace DpdkTutorials.Processing

open DpdkTutorials.Common DpdkTutorials.Dpdk

universe v w

/-- The second argument of `rte_pktmbuf_pool_create` (main.cpp:192). -/
def memoryPoolSize : ℕ := 1023

/-- The second argument of `rte_ring_create` (main.cpp:259). -/
def ringSize : ℕ := 1024

/-- The length of both `rx_packets` arrays and of every burst. -/
def maxBurst : ℕ := 32

/-- A received packet, as far as the program looks at it. `serial` is its
    place in the order of arrival; it tells two equal packets apart. -/
structure Packet where
  serial : ℕ
  dataLen : ℕ
  deriving DecidableEq, Repr

/-- The two routines. -/
inductive Routine where
  | reader
  | consumer
  deriving DecidableEq, Repr

/-- The memory pool and the NIC, with internal state `ε`. -/
structure Environment (β : Type v) (ε : Type w) where
  /-- The buffers in the pool, its caches or the NIC. -/
  held : ε → Multiset β
  /-- `rte_eth_rx_burst` hands over the buffers `bs`. -/
  rxBurst : ε → List β → ε → Prop
  /-- `rte_pktmbuf_free`, called by a routine. -/
  free : Routine → ε → β → ε → Prop
  held_rxBurst : ∀ {e bs e'}, rxBurst e bs e' → held e = ↑bs + held e'
  held_free : ∀ {r e b e'}, free r e b e' → held e' = b ::ₘ held e

/-! ## States -/

/-- Where `read_packets_from_interface` is. -/
inductive ReaderPc where
  | whileTest
  | rxBurst
  | forLoop
  /-- The branch that prints "Unable to enqueue packets in the ring buffer." -/
  | unableToEnqueue
  | returned
  deriving DecidableEq, Repr

/-- The local variables of `read_packets_from_interface`. -/
structure Reader (β : Type v) where
  pc : ReaderPc
  rxPackets : List β
  rxCount : ℕ
  i : ℕ

/-- The packets in the reader's array that are not yet enqueued. -/
def Reader.pending {β : Type v} (r : Reader β) : List β :=
  match r.pc with
  | .forLoop | .unableToEnqueue => r.rxPackets.drop r.i
  | _ => []

/-- Where `process_packets` is. -/
inductive ConsumerPc where
  | whileTest
  | dequeue
  | forLoop
  | free
  | returned
  deriving DecidableEq, Repr

/-- The local variables of `process_packets`. -/
structure Consumer (β : Type v) where
  pc : ConsumerPc
  rxPackets : List β
  rxCount : ℕ
  i : ℕ
  totalRxPackets : ℕ

/-- The packets in the consumer's array that are not yet processed. -/
def Consumer.pending {β : Type v} (c : Consumer β) : List β :=
  match c.pc with
  | .forLoop | .free => c.rxPackets.drop c.i
  | _ => []

structure State (β : Type v) (ε : Type w) where
  env : ε
  /-- The packet in each buffer. -/
  mem : β → Packet
  exitIndicator : Bool
  ringBuffer : Ring β ringSize
  reader : Reader β
  consumer : Consumer β
  /-- History variable: the packets `rte_eth_rx_burst` handed over, in order. -/
  received : List Packet
  /-- History variable: the packets the consumer has processed, in order. -/
  processed : List Packet
  /-- History variable: the packets passed to `rte_pktmbuf_free`, in order. -/
  freed : List Packet

variable {β : Type v} {ε : Type w}

/-! ## Steps -/

/-- The steps of `read_packets_from_interface`. -/
inductive ReaderStep (E : Environment β ε) : State β ε → State β ε → Prop where
  | exit {s} : s.reader.pc = .whileTest → s.exitIndicator = true →
      ReaderStep E s { s with reader := { s.reader with pc := .returned } }
  | enter {s} : s.reader.pc = .whileTest → s.exitIndicator = false →
      ReaderStep E s { s with reader := { s.reader with pc := .rxBurst } }
  /-- `rx_count = rte_eth_rx_burst(*port_id, 0, rx_packets, 32)`. The NIC may
      have written any buffer it held; `arrived` is what the handed over
      buffers hold now. -/
  | burst {s bs env' mem' arrived} : s.reader.pc = .rxBurst → E.rxBurst s.env bs env' →
      bs.length ≤ maxBurst → (∀ b, b ∉ E.held s.env → mem' b = s.mem b) →
      bs.map mem' = arrived →
      arrived.map Packet.serial = List.range' s.received.length bs.length →
      ReaderStep E s { s with
        env := env', mem := mem', received := s.received ++ arrived
        reader := ⟨if bs.length % 2 ^ 16 = 0 then .whileTest else .forLoop, bs,
          bs.length % 2 ^ 16, 0⟩ }
  | enqueue {s r'} (h : s.reader.i < s.reader.rxPackets.length) : s.reader.pc = .forLoop →
      s.reader.i < s.reader.rxCount →
      s.ringBuffer.enqueue s.reader.rxPackets[s.reader.i] = some r' →
      ReaderStep E s { s with
        ringBuffer := r', reader := { s.reader with i := (s.reader.i + 1) % 2 ^ 16 } }
  /-- `rte_ring_enqueue` returns non-zero. -/
  | full {s} (h : s.reader.i < s.reader.rxPackets.length) : s.reader.pc = .forLoop →
      s.reader.i < s.reader.rxCount →
      s.ringBuffer.enqueue s.reader.rxPackets[s.reader.i] = none →
      ReaderStep E s { s with reader := { s.reader with pc := .unableToEnqueue } }
  /-- The packet that could not be enqueued is freed. -/
  | drop {s env'} (h : s.reader.i < s.reader.rxPackets.length) : s.reader.pc = .unableToEnqueue →
      E.free .reader s.env s.reader.rxPackets[s.reader.i] env' →
      ReaderStep E s { s with
        env := env', freed := s.freed ++ [s.mem s.reader.rxPackets[s.reader.i]]
        reader := { s.reader with pc := .forLoop, i := (s.reader.i + 1) % 2 ^ 16 } }
  | done {s} : s.reader.pc = .forLoop → ¬ s.reader.i < s.reader.rxCount →
      ReaderStep E s { s with reader := { s.reader with pc := .whileTest } }

/-- The steps of `process_packets`. `rx_count` and `i` are `uint8_t`. -/
inductive ConsumerStep (E : Environment β ε) : State β ε → State β ε → Prop where
  | exit {s} : s.consumer.pc = .whileTest → s.exitIndicator = true →
      ConsumerStep E s { s with consumer := { s.consumer with pc := .returned } }
  | enter {s} : s.consumer.pc = .whileTest → s.exitIndicator = false →
      ConsumerStep E s { s with consumer := { s.consumer with pc := .dequeue } }
  /-- `rx_count = rte_ring_dequeue_burst(ring_buffer, rx_packets, 32, nullptr)`. -/
  | dequeue {s bs r'} (k : ℕ) : s.consumer.pc = .dequeue → k ≤ maxBurst →
      s.ringBuffer.dequeueBurst k = (bs, r') →
      ConsumerStep E s { s with
        ringBuffer := r'
        consumer := ⟨if bs.length % 2 ^ 8 = 0 then .whileTest else .forLoop, bs,
          bs.length % 2 ^ 8, 0, s.consumer.totalRxPackets⟩ }
  /-- `total_rx_packets++` and the print of the packet's length. -/
  | print {s} : s.consumer.pc = .forLoop → s.consumer.i < s.consumer.rxCount →
      ConsumerStep E s { s with consumer := { s.consumer with
        pc := .free, totalRxPackets := (s.consumer.totalRxPackets + 1) % 2 ^ 64 } }
  /-- `rte_pktmbuf_free(packet)` ends the processing of the packet. -/
  | free {s env'} (h : s.consumer.i < s.consumer.rxPackets.length) : s.consumer.pc = .free →
      E.free .consumer s.env s.consumer.rxPackets[s.consumer.i] env' →
      ConsumerStep E s { s with
        env := env'
        freed := s.freed ++ [s.mem s.consumer.rxPackets[s.consumer.i]]
        processed := s.processed ++ [s.mem s.consumer.rxPackets[s.consumer.i]]
        consumer := { s.consumer with pc := .forLoop, i := (s.consumer.i + 1) % 2 ^ 8 } }
  | done {s} : s.consumer.pc = .forLoop → ¬ s.consumer.i < s.consumer.rxCount →
      ConsumerStep E s { s with consumer := { s.consumer with pc := .whileTest } }

/-- One atomic step of either routine, or the signal handler `terminate`. -/
inductive Step (E : Environment β ε) : State β ε → State β ε → Prop where
  | reader {s t} : ReaderStep E s t → Step E s t
  | consumer {s t} : ConsumerStep E s t → Step E s t
  | terminate {s} : Step E s { s with exitIndicator := true }

/-- The state in which the two routines start, with environment `e`. -/
def start (e : ε) (mem : β → Packet) : State β ε where
  env := e
  mem := mem
  exitIndicator := false
  ringBuffer := .create
  reader := ⟨.whileTest, [], 0, 0⟩
  consumer := ⟨.whileTest, [], 0, 0, 0⟩
  received := []
  processed := []
  freed := []

/-- The program on a pool of `memoryPoolSize` distinct buffers. -/
def system (E : Environment β ε) : System (State β ε) where
  init s := ∃ e mem, s = start e mem ∧ (E.held e).Nodup ∧ (E.held e).card = memoryPoolSize
  next := Step E

end DpdkTutorials.Processing

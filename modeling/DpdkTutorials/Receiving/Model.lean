import DpdkTutorials.Processing.Port

/-!
# The loops that receive and free

The loop of `1-reading-a-packet-from-nic` (main.cpp:165-180) and
`read_packets_from_interface` of `6-receive-side-scaling` (main.cpp:39-65) poll
one receive queue, print something about each burst and free it with
`rte_pktmbuf_free_bulk`. 1 has one such routine, and 6 one on each of two
lcores; in 6 they share the memory pool.

One step of the model is one atomic action of one of the routines or of the
signal handler. The pool and the queues are those of `Processing.Port`.
-/

namespace DpdkTutorials.Receiving

open DpdkTutorials.Common DpdkTutorials.Dpdk
open DpdkTutorials.Processing
  (Packet Port RxBurst exists_rxBurst_of_queue poolCacheSize port0 port0_started)

universe u v w

/-- The second argument of `rte_pktmbuf_pool_create` (main.cpp:102). -/
def memoryPoolSize : ℕ := 1023

/-- The third argument of `rte_eth_rx_queue_setup` (main.cpp:130). -/
def rxDescriptors : ℕ := 256

/-- The length of the array and of every burst. -/
def maxBurst : ℕ := 32

/-- What is printed about a burst. -/
inductive Report where
  /-- The length of each packet (1-reading-a-packet-from-nic/main.cpp:174-176). -/
  | lengths
  /-- The number of packets (6-receive-side-scaling/main.cpp:58). -/
  | count
  deriving DecidableEq, Repr

/-- The routines `κ` of a program on the lcores `ι`. -/
structure Setup (ι : Type u) (κ : Type w) where
  report : Report
  lcore : κ → ι
  /-- The receive queue that a routine polls. -/
  queue : κ → UInt16
  /-- The routine on the main lcore. -/
  main : κ
  lcore_injective : Function.Injective lcore
  queue_injective : Function.Injective queue

/-- `1-reading-a-packet-from-nic`: queue 0 is polled on the main lcore. -/
def reading {ι : Type u} (lcore : ι) : Setup ι Unit where
  report := .lengths
  lcore _ := lcore
  queue _ := 0
  main := ()
  lcore_injective := Function.injective_of_subsingleton _
  queue_injective := Function.injective_of_subsingleton _

/-! ## States -/

/-- Where a routine is. -/
inductive Pc where
  | whileTest
  | rxBurst
  | print
  | freeBulk
  | returned
  deriving DecidableEq, Repr

/-- The local variables of a routine. -/
structure Poller (β : Type v) where
  pc : Pc
  rxPackets : List β
  rxCount : ℕ
  i : ℕ

/-- The packets that are received and not yet freed. -/
def Poller.pending {β : Type v} (p : Poller β) : List β :=
  match p.pc with
  | .print | .freeBulk => p.rxPackets
  | _ => []

structure State (ι : Type u) (κ : Type w) (β : Type v) where
  pool : CachedPool ι β poolCacheSize
  /-- The buffers in the descriptors of each receive queue. -/
  rxQueue : UInt16 → Multiset β
  /-- The packet in each buffer. -/
  mem : β → Packet
  exitIndicator : Bool
  poller : κ → Poller β
  /-- History variable: the packets each routine has received, in order. -/
  received : κ → List Packet
  /-- History variable: the packets each routine has freed, in order. -/
  freed : κ → List Packet
  /-- History variable: the numbers each routine has printed. -/
  printed : κ → List ℕ

variable {ι : Type u} {κ : Type w} {β : Type v} [Fintype ι] [DecidableEq κ]

/-- The routine `k` goes on with the local variables `p`. -/
def State.goTo (s : State ι κ β) (k : κ) (p : Poller β) : State ι κ β :=
  { s with poller := Function.update s.poller k p }

/-! ## Steps -/

/-- The steps of the routine `k`, which runs on `lcore` and polls `queue`. -/
inductive PollerStep (report : Report) (lcore : ι) (queue : UInt16) (k : κ) :
    State ι κ β → State ι κ β → Prop where
  | exit {s} : (s.poller k).pc = .whileTest → s.exitIndicator = true →
      PollerStep report lcore queue k s (s.goTo k { s.poller k with pc := .returned })
  | enter {s} : (s.poller k).pc = .whileTest → s.exitIndicator = false →
      PollerStep report lcore queue k s (s.goTo k { s.poller k with pc := .rxBurst })
  /-- `rx_count = rte_eth_rx_burst(port_id, queue_id, rx_packets, 32)`. The NIC
      may have written any buffer that is in a queue; `mem'` is what the buffers
      hold now. -/
  | burst {s bs pool' rxQueue' mem'} : (s.poller k).pc = .rxBurst →
      RxBurst lcore ⟨s.pool, s.rxQueue queue⟩ bs ⟨pool', rxQueue'⟩ → bs.length ≤ maxBurst →
      (∀ b, b ∉ s.pool.avail → (∀ q, b ∉ s.rxQueue q) → mem' b = s.mem b) →
      (bs.map mem').map Packet.serial = List.range' (s.received k).length bs.length →
      PollerStep report lcore queue k s { s with
        pool := pool', rxQueue := Function.update s.rxQueue queue rxQueue', mem := mem'
        received := Function.update s.received k (s.received k ++ bs.map mem')
        poller := Function.update s.poller k
          ⟨if bs.length % 2 ^ 16 = 0 then .whileTest else .print, bs, bs.length % 2 ^ 16, 0⟩ }
  /-- One pass of the loop that prints the lengths. -/
  | printLength {s} (h : (s.poller k).i < (s.poller k).rxPackets.length) : report = .lengths →
      (s.poller k).pc = .print → (s.poller k).i < (s.poller k).rxCount →
      PollerStep report lcore queue k s { s with
        printed := Function.update s.printed k
          (s.printed k ++ [(s.mem (s.poller k).rxPackets[(s.poller k).i]).dataLen])
        poller := Function.update s.poller k
          { s.poller k with i := ((s.poller k).i + 1) % 2 ^ 16 } }
  | printed {s} : report = .lengths → (s.poller k).pc = .print →
      ¬ (s.poller k).i < (s.poller k).rxCount →
      PollerStep report lcore queue k s (s.goTo k { s.poller k with pc := .freeBulk })
  | printCount {s} : report = .count → (s.poller k).pc = .print →
      PollerStep report lcore queue k s { s with
        printed := Function.update s.printed k (s.printed k ++ [(s.poller k).rxCount])
        poller := Function.update s.poller k { s.poller k with pc := .freeBulk } }
  /-- `rte_pktmbuf_free_bulk(rx_packets, rx_count)`. -/
  | freeBulk {s pool'} : (s.poller k).pc = .freeBulk →
      CachedPool.PutMany lcore s.pool ((s.poller k).rxPackets.take (s.poller k).rxCount) pool' →
      PollerStep report lcore queue k s { s with
        pool := pool'
        freed := Function.update s.freed k
          (s.freed k ++ ((s.poller k).rxPackets.take (s.poller k).rxCount).map s.mem)
        poller := Function.update s.poller k { s.poller k with pc := .whileTest } }

/-- One atomic step of a routine, or the signal handler `terminate`. -/
inductive Step (S : Setup ι κ) : State ι κ β → State ι κ β → Prop where
  | poller {s t} (k : κ) : PollerStep S.report (S.lcore k) (S.queue k) k s t → Step S s t
  | terminate {s} : Step S s { s with exitIndicator := true }

/-- The state in which the routines start. -/
def start (pool : CachedPool ι β poolCacheSize) (rxQueue : UInt16 → Multiset β)
    (mem : β → Packet) : State ι κ β where
  pool := pool
  rxQueue := rxQueue
  mem := mem
  exitIndicator := false
  poller _ := ⟨.whileTest, [], 0, 0⟩
  received _ := []
  freed _ := []
  printed _ := []

variable [Fintype κ]

/-- The pool and the queues as main leaves them: the queues are full, and only
    the main lcore has allocated buffers. -/
structure Started (S : Setup ι κ) (pool : CachedPool ι β poolCacheSize)
    (rxQueue : UInt16 → Multiset β) : Prop where
  nodup : (pool.avail + ∑ k, rxQueue (S.queue k)).Nodup
  total : (pool.avail + ∑ k, rxQueue (S.queue k)).card = memoryPoolSize
  full : ∀ k, (rxQueue (S.queue k)).card = rxDescriptors
  idle : ∀ q, (∀ k, S.queue k ≠ q) → rxQueue q = 0
  caches : ∀ l, l ≠ S.lcore S.main → pool.cache l = 0

/-- The program from the start of its routines on. -/
def system (β : Type v) (S : Setup ι κ) : System (State ι κ β) where
  init s := ∃ pool rxQueue mem, s = start pool rxQueue mem ∧ Started S pool rxQueue
  next := Step S

/-! ## A port as main leaves it -/

/-- The queue 0 of `Processing.port0`, and no other. -/
def queue0 (q : UInt16) : Multiset ℕ := if q = 0 then port0.rxQueue else 0

theorem started_port0 : Started (reading (0 : Fin 2)) port0.pool queue0 where
  nodup := by simpa [reading, queue0] using port0_started.nodup
  total := (congrArg Multiset.card (by simp [reading, queue0])).trans port0_started.total
  full _ := port0_started.queue
  idle q hq := if_neg fun heq => hq () heq.symm
  caches := port0_started.caches

theorem reachable_port0 (mem : ℕ → Packet) :
    (system ℕ (reading (0 : Fin 2))).Reachable (start port0.pool queue0 mem) :=
  .of_init ⟨_, _, _, rfl, started_port0⟩

/-- The buffer `b` holds the packet number `b`, which has `60 + b` bytes. -/
def packets (b : ℕ) : Packet := ⟨b, 60 + b⟩

/-- The first two buffers of the queue have been received. -/
def twoInHand (e : Port (Fin 2) ℕ) : State (Fin 2) Unit ℕ :=
  { start e.pool (Function.update queue0 0 e.rxQueue) packets with
    poller := fun _ => ⟨.print, [0, 1], 2, 0⟩
    received := fun _ => [packets 0, packets 1] }

theorem exists_twoInHand :
    ∃ e, (system ℕ (reading (0 : Fin 2))).Reachable (twoInHand e) := by
  have huse : [0, 1].length ≤ (port0.pool.usable (0 : Fin 2)).card := by
    simp [port0, CachedPool.usable]
  have hqueue : queue0 0 = ↑[0, 1] + ↑(List.range' 2 254) :=
    congrArg Multiset.ofList (List.range'_append_1 (s := 0) (m := 2) (n := 254)).symm
  obtain ⟨e, hburst⟩ := exists_rxBurst_of_queue ⟨port0.pool, queue0 0⟩ huse hqueue
  have h := (reachable_port0 packets).step (.poller () (.enter rfl rfl))
  have hmem : ∀ b, b ∉ port0.pool.avail → (∀ q, b ∉ queue0 q) → packets b = packets b :=
    fun _ _ _ => rfl
  have hlen : [0, 1].length ≤ maxBurst := by decide
  exact ⟨e, h.step (.poller () (.burst rfl hburst hlen hmem rfl))⟩

/-- The two packets are printed and freed. -/
theorem exists_twoFreed : ∃ s : State (Fin 2) Unit ℕ,
    (system ℕ (reading (0 : Fin 2))).Reachable s ∧ (s.poller ()).pc = .whileTest ∧
      s.received () = [packets 0, packets 1] := by
  obtain ⟨e, h₀⟩ := exists_twoInHand
  obtain ⟨pool', hput⟩ := CachedPool.exists_putMany (0 : Fin 2) e.pool [0, 1] (by decide)
  have h₁ := h₀.step (.poller () (.printLength Nat.two_pos rfl rfl Nat.two_pos))
  have h₂ := h₁.step (.poller () (.printLength Nat.one_lt_two rfl rfl Nat.one_lt_two))
  have h₃ := h₂.step (.poller () (.printed rfl rfl (lt_irrefl 2)))
  exact ⟨_, h₃.step (.poller () (.freeBulk rfl hput)), rfl, rfl⟩

end DpdkTutorials.Receiving

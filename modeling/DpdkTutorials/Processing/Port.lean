import DpdkTutorials.Processing.Model

/-!
# The memory pool and the receive queue of `3-processing-a-packet`

The pool `mempool_1` has 1023 buffers and per-lcore caches of size 512
(main.cpp:192). The receive queue permanently holds 256 of them
(main.cpp:220): a received buffer is handed over only after a replacement has
been allocated on the reader's lcore. The reader runs on the main lcore, the
consumer on another one.

* `environment`: this pool and queue as an `Environment` of the two routines.
* `exists_round`: as long as a replacement can be allocated, one more packet
  can be received, passed through the ring and freed.
-/

namespace DpdkTutorials.Processing

open DpdkTutorials.Common DpdkTutorials.Dpdk

universe u v

/-- The third argument of `rte_pktmbuf_pool_create` (main.cpp:192). -/
def poolCacheSize : ℕ := 512

/-- The third argument of `rte_eth_rx_queue_setup` (main.cpp:220). -/
def rxDescriptors : ℕ := 256

/-- The lcores the two routines run on. -/
structure Lcores (ι : Type u) where
  reader : ι
  consumer : ι
  ne : consumer ≠ reader

/-- The lcore on which a routine calls `rte_pktmbuf_free`. -/
def Lcores.of {ι : Type u} (L : Lcores ι) : Routine → ι
  | .reader => L.reader
  | .consumer => L.consumer

/-- The pool and the buffers the receive queue holds. -/
structure Port (ι : Type u) (β : Type v) where
  pool : CachedPool ι β poolCacheSize
  rxQueue : Multiset β

variable {ι : Type u} {β : Type v}

/-- `rte_eth_rx_burst` on lcore `r`: each buffer `b` it hands over leaves the
    receive queue after a `fresh` one has been allocated in its place. -/
inductive RxBurst (r : ι) : Port ι β → List β → Port ι β → Prop where
  | nil {e} : RxBurst r e [] e
  | cons {e b rest fresh pool' bs e'} : CachedPool.Get r e.pool fresh pool' →
      e.rxQueue = b ::ₘ rest → RxBurst r ⟨pool', fresh ::ₘ rest⟩ bs e' →
      RxBurst r e (b :: bs) e'

/-- A receive burst moves nothing between the caches of other lcores, and the
    queue holds as many buffers as before. -/
theorem rxBurst_frame {r : ι} {e e' : Port ι β} {bs : List β} (h : RxBurst r e bs e') :
    e'.rxQueue.card = e.rxQueue.card ∧ ∀ l, l ≠ r → e'.pool.cache l = e.pool.cache l := by
  induction h with
  | nil => exact ⟨rfl, fun _ _ => rfl⟩
  | cons hget hqueue _ ih =>
    obtain ⟨hcard, hcache⟩ := ih
    refine ⟨by rw [hcard, hqueue]; simp, fun l hl => ?_⟩
    rw [hcache l hl, hget.2.2 l hl]

/-- With enough buffers for the lcore `r`, any buffers of the queue can be received. -/
theorem exists_rxBurst_of_queue [DecidableEq ι] {r : ι} {bs : List β} {rest : Multiset β}
    (e : Port ι β) (huse : bs.length ≤ (e.pool.usable r).card) (hqueue : e.rxQueue = ↑bs + rest) :
    ∃ e', RxBurst r e bs e' := by
  induction bs generalizing e rest with
  | nil => exact ⟨e, .nil⟩
  | cons b bs ih =>
    rw [List.length_cons] at huse
    have hne : e.pool.usable r ≠ 0 := Multiset.card_pos.mp (by omega)
    obtain ⟨fresh, pool', hget⟩ := CachedPool.exists_get hne
    rw [hget.1, Multiset.card_cons] at huse
    obtain ⟨e', hburst⟩ := ih ⟨pool', fresh ::ₘ (↑bs + rest)⟩ (Nat.le_of_succ_le_succ huse)
      (Multiset.add_cons fresh ↑bs rest).symm
    exact ⟨e', .cons hget (by rw [hqueue, ← Multiset.cons_coe, Multiset.cons_add]) hburst⟩

section Environment

variable [DecidableEq ι] [Fintype ι]

theorem held_rxBurst {r : ι} {e e' : Port ι β} {bs : List β} (h : RxBurst r e bs e') :
    e.pool.avail + e.rxQueue = ↑bs + (e'.pool.avail + e'.rxQueue) := by
  induction h with
  | nil => simp
  | cons hget hqueue _ ih =>
    rw [CachedPool.avail_get hget, hqueue, ← Multiset.cons_coe, Multiset.cons_add,
      Multiset.cons_add, ← ih]
    simp [Multiset.cons_swap]

/-- The pool and the receive queue as the environment of the two routines. -/
def environment (L : Lcores ι) : Environment β (Port ι β) where
  held e := e.pool.avail + e.rxQueue
  rxBurst := RxBurst L.reader
  free r e b e' := CachedPool.Put (L.of r) e.pool b e'.pool ∧ e'.rxQueue = e.rxQueue
  held_rxBurst := held_rxBurst
  held_free := fun ⟨hput, hqueue⟩ => by
    rw [CachedPool.avail_put hput, hqueue, Multiset.cons_add]

/-- The port as main leaves it: the receive queue is full, and only the main
    lcore has allocated buffers. -/
structure Port.Started (L : Lcores ι) (e : Port ι β) : Prop where
  nodup : (e.pool.avail + e.rxQueue).Nodup
  total : (e.pool.avail + e.rxQueue).card = memoryPoolSize
  queue : e.rxQueue.card = rxDescriptors
  caches : ∀ l, l ≠ L.reader → e.pool.cache l = 0

/-- The program with this pool and queue. -/
def portSystem (L : Lcores ι) : System (State β (Port ι β)) where
  init s := ∃ e mem, s = start e mem ∧ e.Started L
  next := Step (environment L)

theorem system_of_portSystem {L : Lcores ι} {s : State β (Port ι β)}
    (hs : (portSystem L).Reachable s) : (system (environment L)).Reachable s := by
  refine System.Reachable.mono (S := portSystem L) (T := system (environment L)) ?_
    (fun _ _ h => h) hs
  rintro _ ⟨e, mem, rfl, he⟩
  exact ⟨e, mem, rfl, he.nodup, he.total⟩

/-- Both routines are about to test `exit_indicator`, which is clear, and the
    ring is empty. -/
structure Idle (s : State β (Port ι β)) : Prop where
  reader : s.reader.pc = .whileTest
  consumer : s.consumer.pc = .whileTest
  running : s.exitIndicator = false
  ring : s.ringBuffer.items = []

/-- One packet from the NIC into the ring. -/
theorem exists_receive {L : Lcores ι} {s : State β (Port ι β)} (hs : (portSystem L).Reachable s)
    (hidle : Idle s) (hqueue : s.env.rxQueue ≠ 0) (huse : s.env.pool.usable L.reader ≠ 0) :
    ∃ (b : β) (env' : Port ι β) (mem' : β → Packet) (r' : Ring β ringSize),
      (portSystem L).Reachable { s with
        env := env', mem := mem', received := s.received ++ [mem' b], ringBuffer := r'
        reader := ⟨.whileTest, [b], 1, 1⟩ } ∧ r'.items = [b] := by
  classical
  obtain ⟨hr, hc, hrun, hring⟩ := hidle
  obtain ⟨b, hb⟩ := Multiset.exists_mem_of_ne_zero hqueue
  obtain ⟨rest, hrest⟩ := Multiset.exists_cons_of_mem hb
  obtain ⟨fresh, pool', hget⟩ := CachedPool.exists_get huse
  obtain ⟨r', henq⟩ := Ring.exists_enqueue (r := s.ringBuffer) b (by rw [hring]; simp [ringSize])
  have hr' := Ring.items_of_enqueue henq
  rw [hring, List.nil_append] at hr'
  let mem' := Function.update s.mem b ⟨s.received.length, 0⟩
  have hmem : ∀ c, c ∉ s.env.pool.avail + s.env.rxQueue → mem' c = s.mem c := fun c hnot => by
    apply Function.update_of_ne
    rintro rfl
    exact hnot (Multiset.mem_add.mpr (Or.inr hb))
  have hrx : RxBurst L.reader s.env [b] ⟨pool', fresh ::ₘ rest⟩ := .cons hget hrest .nil
  have hserial : ([b].map mem').map Packet.serial =
      List.range' s.received.length [b].length := by simp [mem']
  have s1 : (portSystem L).Reachable { s with reader := { s.reader with pc := .rxBurst } } :=
    hs.step (.reader (.enter hr hrun))
  have s2 : (portSystem L).Reachable { s with
      env := ⟨pool', fresh ::ₘ rest⟩, mem := mem', received := s.received ++ [mem' b]
      reader := ⟨.forLoop, [b], 1, 0⟩ } :=
    s1.step (.reader (.burst (s := { s with reader := { s.reader with pc := .rxBurst } })
      rfl hrx (by simp [maxBurst]) hmem rfl hserial))
  have s3 : (portSystem L).Reachable { s with
      env := ⟨pool', fresh ::ₘ rest⟩, mem := mem', received := s.received ++ [mem' b]
      ringBuffer := r', reader := ⟨.forLoop, [b], 1, 1⟩ } :=
    s2.step (.reader (.enqueue (by simp) rfl (by simp) henq))
  exact ⟨b, ⟨pool', fresh ::ₘ rest⟩, mem', r', s3.step (.reader (.done rfl (by simp))), hr'⟩

/-- The only packet of the ring is dequeued, printed and freed. -/
theorem exists_process {L : Lcores ι} {s : State β (Port ι β)} {b : β}
    (hs : (portSystem L).Reachable s) (hc : s.consumer.pc = .whileTest)
    (hrun : s.exitIndicator = false) (hring : s.ringBuffer.items = [b]) :
    ∃ (env' : Port ι β) (r' : Ring β ringSize) (c' : Consumer β),
      (portSystem L).Reachable { s with
        env := env', ringBuffer := r', consumer := c'
        freed := s.freed ++ [s.mem b], processed := s.processed ++ [s.mem b] } ∧
      c'.pc = .whileTest ∧ r'.items = [] := by
  obtain ⟨pool', hput⟩ := CachedPool.exists_put L.consumer s.env.pool b (by decide)
  have hdeq : s.ringBuffer.dequeueBurst 1 = ([b], .create) := by
    simp [Ring.dequeueBurst, Ring.create, hring]
  have s1 : (portSystem L).Reachable { s with consumer := { s.consumer with pc := .dequeue } } :=
    hs.step (.consumer (.enter hc hrun))
  have s2 : (portSystem L).Reachable { s with
      ringBuffer := .create, consumer := ⟨.forLoop, [b], 1, 0, s.consumer.totalRxPackets⟩ } :=
    s1.step (.consumer (.dequeue (s := { s with consumer := { s.consumer with pc := .dequeue } })
      1 rfl (by decide) hdeq))
  have s3 : (portSystem L).Reachable { s with
      ringBuffer := .create
      consumer := ⟨.free, [b], 1, 0, (s.consumer.totalRxPackets + 1) % 2 ^ 64⟩ } :=
    s2.step (.consumer (.print rfl (by simp)))
  have s4 : (portSystem L).Reachable { s with
      env := ⟨pool', s.env.rxQueue⟩, ringBuffer := .create
      freed := s.freed ++ [s.mem b], processed := s.processed ++ [s.mem b]
      consumer := ⟨.forLoop, [b], 1, 1, (s.consumer.totalRxPackets + 1) % 2 ^ 64⟩ } :=
    s3.step (.consumer (.free (by simp) rfl ⟨hput, rfl⟩))
  exact ⟨_, _, _, s4.step (.consumer (.done rfl (by simp))), rfl, rfl⟩

/-- One packet from the NIC through the ring to its free. -/
theorem exists_round {L : Lcores ι} {s : State β (Port ι β)} (hs : (portSystem L).Reachable s)
    (hidle : Idle s) (hqueue : s.env.rxQueue ≠ 0) (huse : s.env.pool.usable L.reader ≠ 0) :
    ∃ t : State β (Port ι β), (portSystem L).Reachable t ∧ Idle t ∧
      t.received.length = s.received.length + 1 ∧ t.processed ≠ [] := by
  obtain ⟨b, env', mem', r', hs', hr'⟩ := exists_receive hs hidle hqueue huse
  obtain ⟨env'', r'', c', hs'', hpc, hempty⟩ :=
    exists_process hs' hidle.consumer hidle.running hr'
  exact ⟨_, hs'', ⟨rfl, hpc, hidle.running, hempty⟩, by simp, by simp⟩

/-! ## A port as main leaves it -/

/-- The default `--lcores=0-1`: main reads on lcore 0, the consumer is on lcore 1. -/
def lcores01 : Lcores (Fin 2) where
  reader := ⟨0, Nat.zero_lt_two⟩
  consumer := ⟨1, Nat.one_lt_two⟩
  ne := by decide

/-- Buffers 0 to 255 are in the receive queue, 256 to 1022 in the common pool. -/
def port0 : Port (Fin 2) ℕ where
  pool := ⟨↑(List.range' 256 767), fun _ => 0, fun _ => Nat.zero_le _⟩
  rxQueue := ↑(List.range' 0 256)

theorem port0_started : port0.Started lcores01 := by
  have hall : port0.pool.avail + port0.rxQueue = ↑(List.range' 0 1023) := by
    simp only [port0, CachedPool.avail, Finset.sum_const_zero, add_zero]
    rw [add_comm, Multiset.coe_add]
    exact congrArg _ (List.range'_append_1 (s := 0) (m := 256) (n := 767))
  refine ⟨?_, ?_, by simp [port0, rxDescriptors], fun _ _ => rfl⟩
  · rw [hall]; exact List.nodup_range'
  · rw [hall]; simp [memoryPoolSize]

/-- The started program. -/
theorem reachable_start (mem : ℕ → Packet) :
    (portSystem lcores01).Reachable (start port0 mem) :=
  .of_init ⟨port0, mem, rfl, port0_started⟩

theorem usable_port0 : port0.pool.usable 0 ≠ 0 := by
  simp [port0, CachedPool.usable]

end Environment

end DpdkTutorials.Processing

import DpdkTutorials.Common.System
import DpdkTutorials.Dpdk.Pktmbuf
import DpdkTutorials.Sending.Frame

/-!
# The transmit loop of the single-packet senders

The loops of programs 2, 4, 5 and 7 (2-.../main.cpp:178-255,
4-.../main.cpp:184-283, 5-.../main.cpp:262-369, 7-.../main.cpp:197-276) do the
same with a buffer: take it from the pool, fill it, offer it to the driver, and
free it if the driver does not take it. Program 5 has its own way to fill a
buffer, and program 7 publishes its counter for a telemetry callback. What
programs 4 and 5 print every three seconds does not touch the buffers.

One step of the model is one statement of a loop, a buffer freed by the driver,
a telemetry callback, or the signal handler. Whether an allocation fails and
whether the driver accepts a packet is left open.
-/

namespace DpdkTutorials.Sending

open DpdkTutorials.Common DpdkTutorials.Dpdk

universe u v w

/-- In what the loops differ. -/
structure Sender where
  fill : Mbuf → Mbuf
  /-- The program publishes `tx_packet_count` and answers telemetry requests. -/
  telemetry : Bool

def program2 : Sender := ⟨fill, false⟩

def program5 : Sender := ⟨fillOffload, false⟩

def program7 : Sender := ⟨fill, true⟩

/-- Where the loop is. -/
inductive Pc where
  | whileTest
  /-- `rte_mempool_get(memory_pool, &packet)`. -/
  | get
  | fill
  /-- `rte_eth_tx_burst(port_ids[0], 0, &packet, 1)`. -/
  | burst
  /-- `rte_pktmbuf_free(packet)`. -/
  | free
  /-- `transmitted_packet_count += tx_packets`. -/
  | count
  /-- `tx_packet_count.store(transmitted_packet_count)` in program 7. -/
  | store
  /-- The end of the iteration. -/
  | sleep
  | returned
  deriving DecidableEq, Repr

/-- A telemetry reply, with the number of packets the driver had accepted and
    the place of the loop at that moment. -/
structure Reply where
  value : UInt64
  accepted : ℕ
  pc : Pc

structure State (β : Type v) (ε : Type w) where
  bufs : Pktmbufs β ε
  exitIndicator : Bool
  pc : Pc
  /-- The local `packet`; `none` is the null pointer. -/
  packet : Option β
  transmittedPacketCount : UInt64
  /-- The global `tx_packet_count` of program 7. -/
  txPacketCount : UInt64
  /-- The buffers the driver has accepted, or took for its receive queues, and
      has not freed. -/
  driver : Multiset β
  /-- History variable: the buffers the program has taken and neither freed nor
      handed to the driver. -/
  hand : Multiset β
  /-- History variable: the number of the packet in hand, or of the next one. -/
  packetNo : ℕ
  /-- History variables: the numbers of the packets the driver accepted, of
      those it rejected, and of those the program freed. -/
  accepted : List ℕ
  rejected : List ℕ
  freed : List ℕ
  /-- History variable: the telemetry replies, in order. -/
  replies : List Reply

variable {ι : Type u} {β : Type v} {ε : Type w}

/-- The state in which a program enters its loop, after `rte_eth_dev_start`. -/
def start (bufs : Pktmbufs β ε) (driver : Multiset β) : State β ε where
  bufs := bufs
  exitIndicator := false
  pc := .whileTest
  packet := none
  transmittedPacketCount := 0
  txPacketCount := 0
  driver := driver
  hand := 0
  packetNo := 0
  accepted := []
  rejected := []
  freed := []
  replies := []

variable [DecidableEq β]

/-! ## Steps -/

/-- The steps of the loop of `prog` on lcore `l`. -/
inductive LoopStep (P : Mempool ι β ε) (prog : Sender) (l : ι) : State β ε → State β ε → Prop where
  | exit {s} : s.pc = .whileTest → s.exitIndicator = true →
      LoopStep P prog l s { s with pc := .returned }
  | enter {s} : s.pc = .whileTest → s.exitIndicator = false →
      LoopStep P prog l s { s with pc := .get, packet := none }
  | get {s b e} : s.pc = .get → P.get l s.bufs.pool b e →
      LoopStep P prog l s { s with
        bufs := { s.bufs with pool := e }
        pc := .fill, packet := some b, hand := b ::ₘ s.hand }
  /-- `rte_mempool_get` fails: sleep and `continue`. -/
  | getFailed {s} : s.pc = .get → LoopStep P prog l s { s with pc := .whileTest }
  | fill {s b} : s.pc = .fill → s.packet = some b →
      LoopStep P prog l s { s with
        bufs := { s.bufs with mem := Function.update s.bufs.mem b (prog.fill (s.bufs.mem b)) }
        pc := .burst }
  /-- The driver takes the packet. -/
  | accept {s b} : s.pc = .burst → s.packet = some b →
      LoopStep P prog l s { s with
        driver := b ::ₘ s.driver
        hand := s.hand.erase b
        accepted := s.accepted ++ [s.packetNo], packetNo := s.packetNo + 1
        pc := .count }
  | reject {s} : s.pc = .burst →
      LoopStep P prog l s { s with rejected := s.rejected ++ [s.packetNo], pc := .free }
  | free {s b bufs} : s.pc = .free → s.packet = some b → Pktmbufs.Free P l s.bufs b bufs →
      LoopStep P prog l s { s with
        bufs := bufs
        hand := s.hand.erase b
        freed := s.freed ++ [s.packetNo], packetNo := s.packetNo + 1
        pc := .sleep }
  | count {s} : s.pc = .count →
      LoopStep P prog l s { s with
        transmittedPacketCount := s.transmittedPacketCount + 1
        pc := if prog.telemetry then .store else .sleep }
  | store {s} : s.pc = .store →
      LoopStep P prog l s { s with txPacketCount := s.transmittedPacketCount, pc := .sleep }
  | sleep {s} : s.pc = .sleep → LoopStep P prog l s { s with pc := .whileTest }

/-- A step of the loop, of the driver, of the telemetry thread or of the signal
    handler. -/
inductive Step (P : Mempool ι β ε) (prog : Sender) (l : ι) : State β ε → State β ε → Prop where
  | loop {s t} : LoopStep P prog l s t → Step P prog l s t
  /-- The driver frees a transmitted buffer, on any lcore. -/
  | complete {s b bufs} (l' : ι) (rest : Multiset β) : s.driver = b ::ₘ rest →
      Pktmbufs.Free P l' s.bufs b bufs →
      Step P prog l s { s with bufs := bufs, driver := rest }
  /-- `telemetry_handle_packet_tx_info` (7-.../main.cpp:41-46). -/
  | telemetry {s} : prog.telemetry = true →
      Step P prog l s { s with
        replies := s.replies ++ [⟨s.txPacketCount, s.accepted.length, s.pc⟩] }
  | terminate {s} : Step P prog l s { s with exitIndicator := true }

/-- `prog` on lcore `l`, with a pool of distinct buffers. Some of them may be in
    the receive queues of the driver (programs 4 and 5 set one up). -/
def system (P : Mempool ι β ε) (prog : Sender) (l : ι) : System (State β ε) where
  init s := ∃ bufs driver, (P.avail bufs.pool + driver).Nodup ∧ s = start bufs driver
  next := Step P prog l

/-! ## A run in which every packet is accepted -/

/-- Program 7 on its only lcore, with the pool `main` creates
    (7-.../main.cpp:121). -/
def sender7 : System (State ℕ (CachedPool (Fin 1) ℕ 512)) :=
  system (CachedPool.mempool (Fin 1) ℕ 512) program7 0

/-- The pool after `rte_pktmbuf_pool_create`: 1023 buffers, empty caches. -/
def newPool : Pktmbufs ℕ (CachedPool (Fin 1) ℕ 512) where
  pool := ⟨Multiset.range 1023, fun _ => 0, fun _ => Nat.zero_le _⟩
  mem := fun _ => recycled

theorem avail_newPool : newPool.pool.avail = Multiset.range 1023 := by
  show Multiset.range 1023 + ∑ _l : Fin 1, (0 : Multiset ℕ) = _
  rw [Finset.sum_const_zero, add_zero]

theorem usable_eq_avail (p : CachedPool (Fin 1) ℕ 512) : p.usable 0 = p.avail := by
  rw [p.avail_eq 0, CachedPool.stranded, Finset.sum_eq_zero, add_zero]
  intro l hl
  exact absurd (Subsingleton.elim l 0) (Finset.ne_of_mem_erase hl)

/-- Between two iterations, with nothing in the driver and the pool not empty. -/
structure Idle (s : State ℕ (CachedPool (Fin 1) ℕ 512)) : Prop where
  reachable : sender7.Reachable s
  pc : s.pc = .whileTest
  running : s.exitIndicator = false
  avail : s.bufs.pool.avail ≠ 0

/-- An iteration whose packet the driver accepts and frees. -/
theorem Idle.exists_iteration {s : State ℕ (CachedPool (Fin 1) ℕ 512)} (h : Idle s) :
    ∃ t, Idle t ∧ t.accepted.length = s.accepted.length + 1 := by
  have husable : s.bufs.pool.usable 0 ≠ 0 := by
    rw [usable_eq_avail]
    exact h.avail
  obtain ⟨b, e, hget⟩ := CachedPool.exists_get husable
  have henter := h.reachable.step (.loop (.enter h.pc h.running))
  have hfill := (henter.step (.loop (.get rfl hget))).step (.loop (.fill rfl rfl))
  have hcount := (hfill.step (.loop (.accept rfl rfl))).step (.loop (.count rfl))
  have hsleep := (hcount.step (.loop (.store rfl))).step (.loop (.sleep rfl))
  let filled : Pktmbufs ℕ (CachedPool (Fin 1) ℕ 512) :=
    ⟨e, Function.update s.bufs.mem b (program7.fill (s.bufs.mem b))⟩
  obtain ⟨e', hfree⟩ := Pktmbufs.exists_free 0 filled b (by decide)
  refine ⟨_, ⟨hsleep.step (.complete 0 _ rfl hfree), rfl, h.running, ?_⟩, by simp⟩
  show e'.avail ≠ 0
  have havail : e'.avail = b ::ₘ e.avail := hfree.avail
  rw [havail]
  exact Multiset.cons_ne_zero

theorem exists_accepted (n : ℕ) : ∃ s, Idle s ∧ s.accepted.length = n := by
  induction n with
  | zero =>
    refine ⟨start newPool 0, ⟨.of_init ⟨newPool, 0, ?_, rfl⟩, rfl, rfl, ?_⟩, rfl⟩
    · show (newPool.pool.avail + 0).Nodup
      rw [avail_newPool, add_zero]
      exact Multiset.nodup_range 1023
    · show newPool.pool.avail ≠ 0
      rw [avail_newPool, Multiset.range_succ]
      exact Multiset.cons_ne_zero
  | succ n ih =>
    obtain ⟨s, hs, hlen⟩ := ih
    obtain ⟨t, ht, htlen⟩ := hs.exists_iteration
    exact ⟨t, ht, by rw [htlen, hlen]⟩

end DpdkTutorials.Sending

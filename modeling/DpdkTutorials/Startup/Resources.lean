import DpdkTutorials.Startup.Mains

/-!
# What the packet loops are entered with

The tutorials 2, 4, 5, 7 and 8 allocate their packets from a pool. Only the
eighth checks the pointer it gets from `rte_pktmbuf_pool_create`. In the
tutorials 4 and 5 the receive queue cannot be set up without a pool; 2 and 7
have no receive queue. The eighth stores the offset of its timestamp field in
an unsigned variable before it checks the sign.

* `guarded_transmitFrom`: when the loop of a transmitting program is guarded.
* `guarded_multiprocess`: when the routines of the eighth program are guarded.
* `guarded_iff`: the programs and the answers for which nothing is missing.
-/

namespace DpdkTutorials.Startup

open DpdkTutorials.Common DpdkTutorials.Common.Program DpdkTutorials.Dpdk

/-! ## Specification -/

/-- `offset` is what a successful `rte_mbuf_dynfield_register` returned. -/
structure OffsetRegistered (d : Answers) (offset : UInt64) : Prop where
  success : 0 ≤ (d .mbufDynfieldRegister).toInt
  value : (offset.toNat : ℤ) = (d .mbufDynfieldRegister).toInt

/-- The objects a routine or the loop is entered with exist. -/
def Call.ResourcesExist (d : Answers) : Call → Prop
  | .transmitLoop _ memoryPool => memoryPool ≠ none
  | .generatePackets memoryBufferPool ringBuffer timestampDynfieldOffset =>
    memoryBufferPool ≠ none ∧ ringBuffer ≠ none ∧ OffsetRegistered d timestampDynfieldOffset
  | .processPackets ringBuffer timestampDynfieldOffset =>
    ringBuffer ≠ none ∧ OffsetRegistered d timestampDynfieldOffset
  | _ => True

/-- In the run with the answers `d` no routine is entered without its objects. -/
def Guarded {α : Type} (d : Answers) (p : Main α) : Prop := Always d (Call.ResourcesExist d) p

/-- `rte_eth_rx_queue_setup` fails when given a null pool and a null configuration. -/
def RejectsNullPool (d : Answers) : Prop :=
  ∀ port queue nbDesc socket, d (.ethRxQueueSetup port queue nbDesc socket none) < 0

variable {d : Answers}

theorem guarded_of_setup {α : Type} {p : Main α} (h : Always d Call.IsSetup p) :
    Always d (Call.ResourcesExist d) p := by
  refine h.mono ?_
  intro c hsetup
  cases c <;> first | exact hsetup.elim | trivial

/-! ## The programs that transmit -/

/-- The pool of the transmitting programs. -/
def memoryPool (d : Answers) : Pointer := d (.pktmbufPoolCreate "mempool_1" 1023 512)

/-- The port is set up and started. -/
structure PortOpens (d : Answers) (port : UInt16) (rxQueues : ℕ) (conf : EthConf) : Prop where
  configure : d (.ethDevConfigure port rxQueues 1 conf) = 0
  rxQueues : ∀ i < rxQueues,
    0 ≤ d (.ethRxQueueSetup port i 256 (socketOf d port) (memoryPool d))
  txQueue : 0 ≤ d (.ethTxQueueSetup port 0 256 (socketOf d port))
  start : 0 ≤ d (.ethDevStart port)

theorem guarded_transmitFrom {port : UInt16} {rxQueues : ℕ} {conf : EthConf} :
    Guarded d (transmitFrom port rxQueues conf) ↔
      (PortOpens d port rxQueues conf → memoryPool d ≠ none) := by
  have hchecks : Guarded d (transmitFrom port rxQueues conf) ↔
      (d (.ethDevConfigure port rxQueues 1 conf) = 0 →
        (∀ i < rxQueues, 0 ≤ d (.ethRxQueueSetup port i 256 (socketOf d port) (memoryPool d))) →
        0 ≤ d (.ethTxQueueSetup port 0 256 (socketOf d port)) →
        0 ≤ d (.ethDevStart port) → memoryPool d ≠ none) := by
    simp [Guarded, transmitFrom, memoryPool, guarded_of_setup, Call.ResourcesExist]
  rw [hchecks]
  constructor
  · intro h hopens
    exact h hopens.configure hopens.rxQueues hopens.txQueue hopens.start
  · intro h hconf hrx htx hstart
    exact h ⟨hconf, hrx, htx, hstart⟩

/-- The receive queue stands in for the missing check of the pool. -/
theorem guarded_transmitFrom_of_rxQueue (hpool : RejectsNullPool d) {port : UInt16}
    {conf : EthConf} : Guarded d (transmitFrom port 1 conf) := by
  rw [guarded_transmitFrom]
  intro hopens hnone
  have hqueue := hopens.rxQueues 0 (by omega)
  rw [hnone] at hqueue
  exact Int.not_lt.mpr hqueue (hpool ..)

/-- The checks of `2-sending-a-packet-from-nic`, and all but one of
    `7-telemetry-in-dpdk`: the EAL is initialized, a port is found, and it is
    set up without a receive queue. -/
structure PassesChecks (d : Answers) (rteMaxEthports : ℕ) : Prop where
  init : 0 ≤ d .ealInit
  ports : Detectable rteMaxEthports (d .ethForeachDev)
  opens : PortOpens d ((recorded (d .ethForeachDev)).portIds 0) 0 ⟨false, 0⟩

/-- The checks up to the detection of the ports, and what comes after it. -/
theorem guarded_afterPorts {rteMaxEthports : ℕ} {next : Ports → Main Empty} :
    Guarded d (detectPorts rteMaxEthports >>= next) ↔
      (Detectable rteMaxEthports (d .ethForeachDev) →
        Guarded d (next (recorded (d .ethForeachDev)))) := by
  unfold Guarded
  rw [always_bind]
  constructor
  · rintro ⟨-, h⟩ hports
    exact h _ (returns_detectPorts.mpr ⟨hports, rfl⟩)
  · intro h
    refine ⟨guarded_of_setup (setup_of_preliminary preliminary_detectPorts), ?_⟩
    intro ports hreturns
    obtain ⟨hports, rfl⟩ := returns_detectPorts.mp hreturns
    exact h hports

theorem guarded_afterInit {next : Main Empty} :
    Guarded d (initEal >>= fun _ => next) ↔ (0 ≤ d .ealInit → Guarded d next) := by
  simp [Guarded, guarded_of_setup]

theorem guarded_sendingAPacket {rteMaxEthports : ℕ} :
    Guarded d (SendingAPacket.main rteMaxEthports) ↔
      (PassesChecks d rteMaxEthports → memoryPool d ≠ none) := by
  unfold SendingAPacket.main
  rw [guarded_afterInit, guarded_afterPorts, guarded_transmitFrom]
  constructor
  · intro h hchecks
    exact h hchecks.init hchecks.ports hchecks.opens
  · intro h hinit hports hopens
    exact h ⟨hinit, hports, hopens⟩

theorem guarded_telemetry {rteMaxEthports : ℕ} :
    Guarded d (Telemetry.main rteMaxEthports) ↔
      (d (.telemetryRegisterCmd "/dpdk_app/packet_info") = 0 → PassesChecks d rteMaxEthports →
        memoryPool d ≠ none) := by
  have hregister {next : Main Empty} :
      Guarded d (do
        let registered : ℤ ← ask (.telemetryRegisterCmd "/dpdk_app/packet_info")
        abortIf (registered ≠ 0)
        next) ↔ (d (.telemetryRegisterCmd "/dpdk_app/packet_info") = 0 → Guarded d next) := by
    simp [Guarded, guarded_of_setup, Call.ResourcesExist]
  unfold Telemetry.main
  rw [guarded_afterInit, hregister, guarded_afterPorts, guarded_transmitFrom]
  constructor
  · intro h hregistered hchecks
    exact h hchecks.init hregistered hchecks.ports hchecks.opens
  · intro h hinit hregistered hports hopens
    exact h hregistered ⟨hinit, hports, hopens⟩

theorem guarded_nicStatistics (hpool : RejectsNullPool d) {rteMaxEthports : ℕ} :
    Guarded d (NicStatistics.main rteMaxEthports) := by
  unfold NicStatistics.main
  rw [guarded_afterInit, guarded_afterPorts]
  intro _ _
  exact guarded_transmitFrom_of_rxQueue hpool

theorem guarded_checksumOffloading (hpool : RejectsNullPool d) {rteMaxEthports : ℕ} :
    Guarded d (ChecksumOffloading.main rteMaxEthports) := by
  unfold ChecksumOffloading.main
  rw [guarded_afterInit, guarded_afterPorts]
  intro _ _
  have htransmit {port : UInt16} {conf : EthConf} :
      Always d (Call.ResourcesExist d) (transmitFrom port 1 conf) :=
    guarded_transmitFrom_of_rxQueue hpool
  simp [Guarded, guarded_of_setup, htransmit]

/-! ## The processes that share a ring -/

theorem offsetRegistered_iff :
    OffsetRegistered d (d .mbufDynfieldRegister).toInt64.toUInt64 ↔
      0 ≤ (d .mbufDynfieldRegister).toInt := by
  constructor
  · intro h
    exact h.success
  · intro h
    refine ⟨h, ?_⟩
    have hle : 0 ≤ (d .mbufDynfieldRegister).toInt64 := by
      rw [Int64.le_iff_toInt_le]
      simpa using h
    rw [Int64.toNat_toUInt64_of_le hle, Int64.toNatClampNeg, Int32.toInt_toInt64]
    exact Int.toNat_of_nonneg h

theorem guarded_primary {ringBufferName : String} {offset : UInt64} :
    Guarded d (Multiprocess.primary ringBufferName offset) ↔
      (d (.pktmbufPoolCreate "memory_buffer_pool_1" 2048 512) ≠ none →
        d (.ringCreate ringBufferName 512) ≠ none → OffsetRegistered d offset) := by
  simp +contextual [Guarded, Multiprocess.primary, guarded_of_setup, Call.ResourcesExist]

theorem guarded_secondary {ringBufferName : String} {offset : UInt64} :
    Guarded d (Multiprocess.secondary ringBufferName offset) ↔
      (d (.ringLookup ringBufferName) ≠ none → OffsetRegistered d offset) := by
  simp +contextual [Guarded, Multiprocess.secondary, guarded_of_setup, Call.ResourcesExist]

/-- The branch of the process has everything but possibly the timestamp field. -/
def RoutineStarts (d : Answers) (ringBufferName : String) : Prop :=
  d .ealProcessType = .primary ∧ d (.pktmbufPoolCreate "memory_buffer_pool_1" 2048 512) ≠ none ∧
      d (.ringCreate ringBufferName 512) ≠ none ∨
    d .ealProcessType = .secondary ∧ d (.ringLookup ringBufferName) ≠ none

theorem guarded_routine {ringBufferName : String} {offset : UInt64} :
    Guarded d (Multiprocess.routine (d .ealProcessType) ringBufferName offset) ↔
      (RoutineStarts d ringBufferName → OffsetRegistered d offset) := by
  unfold Multiprocess.routine RoutineStarts
  cases d .ealProcessType with
  | primary => simp [guarded_primary]
  | secondary => simp [guarded_secondary]
  | auto => simp [Guarded]
  | invalid => simp [Guarded]

/-- The check of the offset stops nobody. -/
theorem guarded_exchange {ringBufferName : String} :
    Guarded d (Multiprocess.exchange ringBufferName) ↔
      (RoutineStarts d ringBufferName → 0 ≤ (d .mbufDynfieldRegister).toInt) := by
  rw [← offsetRegistered_iff, ← guarded_routine]
  simp [Guarded, Multiprocess.exchange, guarded_of_setup, Call.ResourcesExist]

/-- All checks of `8-multiprocess-communication` but that of the timestamp
    field pass. -/
structure ReachesRoutine (d : Answers) (argv : List String) : Prop where
  init : 0 ≤ d .ealInit
  argc : 2 ≤ argv.length
  ringName : (argv.getD 1 "").isEmpty = false
  lcores : (d .lcoreForeach).length = 1
  starts : RoutineStarts d (argv.getD 1 "")

theorem guarded_multiprocess {argv : List String} :
    Guarded d (Multiprocess.main argv) ↔
      (ReachesRoutine d argv → 0 ≤ (d .mbufDynfieldRegister).toInt) := by
  have hchecks : Guarded d (Multiprocess.main argv) ↔
      (0 ≤ d .ealInit → 2 ≤ argv.length → (argv.getD 1 "").isEmpty = false →
        (d .lcoreForeach).length = 1 →
        Guarded d (Multiprocess.exchange (argv.getD 1 ""))) := by
    simp [Guarded, Multiprocess.main, guarded_of_setup, Call.ResourcesExist, Nat.succ_le_iff]
  rw [hchecks, guarded_exchange]
  constructor
  · intro h hreaches
    exact h hreaches.init hreaches.argc hreaches.ringName hreaches.lcores hreaches.starts
  · intro h hinit hargc hname hlcores hstarts
    exact h ⟨hinit, hargc, hname, hlcores, hstarts⟩

/-! ## All five programs -/

/-- The loops of 4 and 5 are never entered without a pool. Those of 2 and 7 are
    if the creation of the pool is the one call that fails, and the routines of
    8 are entered with a bad offset if its registration is. -/
theorem guarded_iff (hpool : RejectsNullPool d) (rteMaxEthports : ℕ) (argv : List String) :
    (Guarded d (SendingAPacket.main rteMaxEthports) ↔
      (PassesChecks d rteMaxEthports → memoryPool d ≠ none)) ∧
    Guarded d (NicStatistics.main rteMaxEthports) ∧
    Guarded d (ChecksumOffloading.main rteMaxEthports) ∧
    (Guarded d (Telemetry.main rteMaxEthports) ↔
      (d (.telemetryRegisterCmd "/dpdk_app/packet_info") = 0 → PassesChecks d rteMaxEthports →
        memoryPool d ≠ none)) ∧
    (Guarded d (Multiprocess.main argv) ↔
      (ReachesRoutine d argv → 0 ≤ (d .mbufDynfieldRegister).toInt)) :=
  ⟨guarded_sendingAPacket, guarded_nicStatistics hpool, guarded_checksumOffloading hpool,
    guarded_telemetry, guarded_multiprocess⟩

theorem rejectsNullPool_working (lcores : List ℕ) (pool : Pointer) (offset : Int32) :
    RejectsNullPool (working lcores pool offset) := by
  intro port queue nbDesc socket
  show (-22 : ℤ) < 0
  decide

/-- Without a pool the fourth and the fifth program stop. -/
theorem guarded_iff_no_pool :
    Guarded (working [0] none 0) (NicStatistics.main 32) ∧
      Guarded (working [0] none 0) (ChecksumOffloading.main 32) := by
  obtain ⟨-, hstatistics, hoffloading, -⟩ :=
    guarded_iff (rejectsNullPool_working [0] none 0) 32 []
  exact ⟨hstatistics, hoffloading⟩

theorem passesChecks_working {lcores : List ℕ} {pool : Pointer} {offset : Int32} :
    PassesChecks (working lcores pool offset) 32 where
  init := le_refl (0 : ℤ)
  ports := detectable_one
  opens := ⟨rfl, by simp, le_refl (0 : ℤ), le_refl (0 : ℤ)⟩

/-- The loops of 2 and 7 with a null pool, and `generate_packets` with the
    offset 2^64 - 1. -/
theorem not_guarded :
    RejectsNullPool (working [0] none 0) ∧ RejectsNullPool (working [0] (some 1) (-1)) ∧
      ¬ Guarded (working [0] none 0) (SendingAPacket.main 32) ∧
      ¬ Guarded (working [0] none 0) (Telemetry.main 32) ∧
      ¬ Guarded (working [0] (some 1) (-1)) (Multiprocess.main ["--", "ring"]) := by
  refine ⟨rejectsNullPool_working _ _ _, rejectsNullPool_working _ _ _, ?_, ?_, ?_⟩
  · rw [guarded_sendingAPacket]
    intro h
    exact h passesChecks_working rfl
  · rw [guarded_telemetry]
    intro h
    exact h rfl passesChecks_working rfl
  · rw [guarded_multiprocess]
    intro h
    have hreaches : ReachesRoutine (working [0] (some 1) (-1)) ["--", "ring"] :=
      ⟨le_refl (0 : ℤ), by decide, by decide, rfl, .inl ⟨rfl, by simp [working], by simp [working]⟩⟩
    have hneg : ¬ 0 ≤ (-1 : Int32).toInt := by decide
    exact hneg (h hreaches)

end DpdkTutorials.Startup

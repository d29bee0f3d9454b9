import DpdkTutorials.Common.Program
import DpdkTutorials.Multiprocess.Admission
import DpdkTutorials.Generator.Rate

/-!
# The calls of the `main` functions

Every `main` of the tutorials is a chain of calls of DPDK, most of them followed
by a check that prints an error, calls `rte_eal_cleanup` and exits. This file
has the calls with their answers and the parts that the programs share: the
initialization of the EAL, the detection of the ports and the setup of a port.

Every part has three lemmas: under which answers it goes on (`returns_…`), that
it enters and launches no routine (`preliminary_…`), and that it exits after
exactly one `rte_eal_cleanup` (`releases_…`).

* `returns_detectPorts`, `detectable_iff`: which lists of ports pass the detection.
* `releases_initEal`: only the initialization may fail without a release.
-/

namespace DpdkTutorials.Startup

open DpdkTutorials.Common DpdkTutorials.Common.Program

/-! ## Calls and answers -/

/-- A pointer to an object of DPDK; `none` is null. -/
abbrev Pointer := Option ℕ

/-- `rte_eth_conf`, as far as the programs set it. -/
structure EthConf where
  /-- `RTE_ETH_MQ_RX_RSS`, hashing IPv4 UDP packets; else `RTE_ETH_MQ_RX_NONE`. -/
  rss : Bool
  txOffloads : UInt64

/-- `rte_eth_dev_info`, as far as the programs read it. -/
structure DevInfo where
  txOffloadCapa : UInt64
  maxRxQueues : ℕ
  nbRxQueues : ℕ

/-- The routines launched on another logical core. -/
inductive LaunchedRoutine where
  | processPackets
  /-- With the address of a word that holds `arg` at the launch. -/
  | readPacketsFromInterface (arg : UInt32)
  | transmitPacketsFromInterface (params : Generator.PacketTransmissionThreadParams)

/-- The calls of `main`, and the routines and loops it enters with the objects
    these use. All pools have no private area and buffers of the default size. -/
inductive Call where
  /-- A line on the terminal. What `rte_errno` adds to it is left out. -/
  | report (text : String)
  | applicationUsage
  | ealInit
  | ealCleanup
  | ealProcessType
  /-- `RTE_LCORE_FOREACH`. -/
  | lcoreForeach
  /-- `RTE_ETH_FOREACH_DEV`. -/
  | ethForeachDev
  | telemetryRegisterCmd (cmd : String)
  | pktmbufPoolCreate (name : String) (n cacheSize : ℕ)
  | mbufDynfieldRegister
  | ringCreate (name : String) (count : ℕ)
  | ringLookup (name : String)
  | ringFree (ring : Pointer)
  | ethDevGetPortByName (name : Generator.CString)
  | ethDevInfoGet (port : UInt16)
  | ethDevConfigure (port : UInt16) (rxQueues txQueues : ℕ) (conf : EthConf)
  | ethDevSocketId (port : UInt16)
  | socketId
  | ethRxQueueSetup (port : UInt16) (queue nbDesc : ℕ) (socket : Int16) (pool : Pointer)
  | ethTxQueueSetup (port : UInt16) (queue nbDesc : ℕ) (socket : Int16)
  | ethPromiscuousEnable (port : UInt16)
  | ethDevStart (port : UInt16)
  | ethDevStop (port : UInt16)
  | ethDevClose (port : UInt16)
  | ealRemoteLaunch (routine : LaunchedRoutine) (lcore : ℕ)
  | ealWaitLcore (lcore : ℕ)
  /-- The loop `while (!exit_indicator)` of `main`. -/
  | transmitLoop (port : UInt16) (memoryPool : Pointer)
  | readPacketsFromInterface (arg : UInt32)
  | generatePackets (memoryBufferPool ringBuffer : Pointer) (timestampDynfieldOffset : UInt64)
  | processPackets (ringBuffer : Pointer) (timestampDynfieldOffset : UInt64)
  | prepareMemoryPool
  | getAndPrintNicStatistics (port : UInt16)

/-- What a call returns. `int` results of which only the sign or equality with
    zero matters are integers. -/
@[reducible] def Call.Answer : Call → Type
  | .ealInit | .telemetryRegisterCmd _ | .ethDevConfigure .. | .ethDevSocketId _ | .socketId
  | .ethRxQueueSetup .. | .ethTxQueueSetup .. | .ethPromiscuousEnable _ | .ethDevStart _
  | .ealRemoteLaunch .. => ℤ
  | .mbufDynfieldRegister => Int32
  | .ealProcessType => Multiprocess.ProcType
  | .lcoreForeach => List ℕ
  | .ethForeachDev => List UInt16
  | .pktmbufPoolCreate .. | .ringCreate .. | .ringLookup _ => Pointer
  | .ethDevGetPortByName _ => ℤ × UInt16
  | .ethDevInfoGet _ => ℤ × DevInfo
  | .prepareMemoryPool => Bool
  | .report _ | .applicationUsage | .ealCleanup | .ringFree _ | .ethDevStop _ | .ethDevClose _
  | .ealWaitLcore _ | .transmitLoop .. | .readPacketsFromInterface _ | .generatePackets ..
  | .processPackets .. | .getAndPrintNicStatistics _ => Unit

/-- The answers to all calls of one run. -/
abbrev Answers := (c : Call) → c.Answer

/-- A part of a `main`. `return` from `main` and `exit` both end the process, so
    a whole `main` has no value: its type is `Main Empty`. -/
abbrev Main := Program Call.Answer

/-- One call of DPDK. -/
abbrev ask (c : Call) : Main c.Answer := perform c

def Call.isCleanup : Call → Bool
  | .ealCleanup => true
  | _ => false

/-- Not one of the routines and the loop that handle packets. -/
def Call.IsSetup : Call → Prop
  | .transmitLoop .. | .readPacketsFromInterface _ | .generatePackets .. | .processPackets ..
  | .getAndPrintNicStatistics _ => False
  | _ => True

/-- Nor the launch of a routine on another logical core or a wait for one. -/
def Call.IsPreliminary : Call → Prop
  | .ealRemoteLaunch .. | .ealWaitLcore _ => False
  | c => c.IsSetup

/-! ## Shared parts -/

/-- `rte_eal_cleanup(); exit(1)`. -/
def abort {α : Type} : Main α := do
  let _ ← ask .ealCleanup
  .exit 1

/-- Prints an error, calls `rte_eal_cleanup` and exits. -/
def fail {α : Type} (text : String) : Main α := do
  let _ ← ask (.report text)
  abort

/-- A check that fails if `c` holds. -/
def failIf (c : Prop) [Decidable c] (text : String) : Main Unit :=
  if c then fail text else pure ()

/-- A check that fails silently if `c` holds. -/
def abortIf (c : Prop) [Decidable c] : Main Unit :=
  if c then abort else pure ()

/-- The start of every `main`. -/
def initEal : Main Unit := do
  let returnVal : ℤ ← ask .ealInit
  if returnVal < 0 then
    let _ ← ask (.report
      "Unable to initialize DPDK EAL (Environment Abstraction Layer). Error code: ")
    .exit 1

/-- The variables of the port detection: `total_port_count`, and `port_ids`
    with the memory around it. -/
structure Ports where
  totalPortCount : Int16
  portIds : ℤ → UInt16

/-- `port_ids[total_port_count] = id; total_port_count++`. -/
def Ports.record (s : Ports) (id : UInt16) : Ports where
  totalPortCount := s.totalPortCount + 1
  portIds := Function.update s.portIds s.totalPortCount.toInt id

/-- The loop over the ports `ids`. -/
def recordPorts (rteMaxEthports : ℕ) : List UInt16 → Ports → Main Ports
  | [], s => pure s
  | id :: ids, s => do
    let s := s.record id
    failIf ((rteMaxEthports : ℤ) ≤ s.totalPortCount.toInt)
      "Total number of detected ports exceeds RTE_MAX_ETHPORTS. "
    recordPorts rteMaxEthports ids s

/-- The detection of the ports, the same in all programs but the eighth
    (2-sending-a-packet-from-nic/main.cpp:75-95). -/
def detectPorts (rteMaxEthports : ℕ) : Main Ports := do
  let ids : List UInt16 ← ask .ethForeachDev
  let s ← recordPorts rteMaxEthports ids ⟨0, fun _ => 0⟩
  failIf (s.totalPortCount = 0) "No ports detected in the system. "
  pure s

/-- The socket the queues of a port are placed on. -/
def queueSocket (port : UInt16) : Main Int16 := do
  let portSocketId := Int16.ofInt (← ask (.ethDevSocketId port))
  let coreSocketId := Int16.ofInt (← ask .socketId)
  pure (if 0 ≤ portSocketId then portSocketId else coreSocketId)

/-- `rte_eth_dev_configure` and its check. -/
def configurePort (port : UInt16) (rxQueues txQueues : ℕ) (conf : EthConf) : Main Unit := do
  let returnVal : ℤ ← ask (.ethDevConfigure port rxQueues txQueues conf)
  failIf (returnVal ≠ 0)
    ("Unable to configure port. port Id: " ++ toString port ++ " Return code: " ++
      toString returnVal)

/-- The loop over the receive queues. The error is "Unable to setup RX queue", and in
    the sixth program "Unable to setup Rx queue". -/
def setupRxQueues (error : String) (port : UInt16) (rxQueues : ℕ) (socket : Int16)
    (memoryPool : Pointer) : Main Unit :=
  forM (List.range rxQueues) fun i => do
    let returnVal : ℤ ← ask (.ethRxQueueSetup port i 256 socket memoryPool)
    failIf (returnVal < 0)
      (error ++ toString i ++ " Port Id: " ++ toString port ++
        "Return code: " ++ toString returnVal)

/-- The loop over the transmit queues. -/
def setupTxQueues (port : UInt16) (txQueues nbDesc : ℕ) (socket : Int16) : Main Unit :=
  forM (List.range txQueues) fun i => do
    let returnVal : ℤ ← ask (.ethTxQueueSetup port i nbDesc socket)
    failIf (returnVal < 0)
      ("Unable to setup TX queue " ++ toString i ++ " Port Id: " ++ toString port ++
        "Return code: " ++ toString returnVal)

/-- `rte_eth_promiscuous_enable`, whose failure is ignored, and `rte_eth_dev_start`. -/
def startPort (port : UInt16) : Main Unit := do
  let _ ← ask (.ethPromiscuousEnable port)
  let returnVal : ℤ ← ask (.ethDevStart port)
  failIf (returnVal < 0)
    ("Unable to start port Id: " ++ toString port ++ " Return code: " ++ toString returnVal)

/-- `check_device_offloading_support`, without the capabilities it prints: its
    result, and `devInfo` (9-packet-generator/main.cpp:51-194). -/
def checkDeviceOffloadingSupport (port : UInt16) : Main (Bool × DevInfo) := do
  let r : ℤ × DevInfo ← ask (.ethDevInfoGet port)
  if r.1 ≠ 0 then
    let _ ← ask (.report ("Error occurred while getting device info (port " ++ toString port ++
      "). Return code: " ++ toString r.1))
    pure (false, r.2)
  else
    pure (true, r.2)

/-- `rte_eal_remote_launch` and its check. -/
def remoteLaunch (routine : LaunchedRoutine) (lcore : ℕ) : Main Unit := do
  let returnVal : ℤ ← ask (.ealRemoteLaunch routine lcore)
  failIf (returnVal ≠ 0)
    ("Unable to launch packet processing routine on the logical core: %d. Return code: %d" ++
      toString lcore ++ toString returnVal)

/-- The end of every `main`. -/
def finish {α : Type} : Main α := do
  let _ ← ask .ealCleanup
  .exit 0

variable {d : Answers}

/-! ## What the parts return -/

@[simp] theorem not_returns_abort {α : Type} {a : α} : ¬ Returns d abort a := by
  simp [abort]

@[simp] theorem not_returns_fail {α : Type} {text : String} {a : α} :
    ¬ Returns d (fail text) a := by
  simp [fail]

@[simp] theorem returns_failIf {c : Prop} [Decidable c] {text : String} {a : Unit} :
    Returns d (failIf c text) a ↔ ¬ c := by
  simp [failIf]

@[simp] theorem returns_abortIf {c : Prop} [Decidable c] {a : Unit} :
    Returns d (abortIf c) a ↔ ¬ c := by
  simp [abortIf]

@[simp] theorem returns_initEal {a : Unit} : Returns d initEal a ↔ 0 ≤ d .ealInit := by
  simp [initEal]

/-- The variables after all ports have been recorded. -/
def recorded (ids : List UInt16) : Ports := ids.foldl Ports.record ⟨0, fun _ => 0⟩

/-- The detection passes its checks: the count never reaches the limit, and it
    is not zero at the end. -/
structure Detectable (rteMaxEthports : ℕ) (ids : List UInt16) : Prop where
  below : ∀ k < ids.length, (Int16.ofNat (k + 1)).toInt < rteMaxEthports
  counted : Int16.ofNat ids.length ≠ 0

theorem totalPortCount_foldl (ids : List UInt16) (s : Ports) :
    (ids.foldl Ports.record s).totalPortCount = s.totalPortCount + Int16.ofNat ids.length := by
  induction ids generalizing s with
  | nil => simp
  | cons id ids ih =>
    rw [List.foldl_cons, ih, List.length_cons, Nat.add_comm, Int16.ofNat_add]
    show s.totalPortCount + 1 + Int16.ofNat ids.length = _
    rw [Int16.add_assoc]
    rfl

theorem returns_recordPorts {rteMaxEthports : ℕ} {ids : List UInt16} {s t : Ports} :
    Returns d (recordPorts rteMaxEthports ids s) t ↔
      (∀ k < ids.length, (s.totalPortCount + Int16.ofNat (k + 1)).toInt < rteMaxEthports) ∧
        ids.foldl Ports.record s = t := by
  induction ids generalizing s with
  | nil => simp [recordPorts]
  | cons id ids ih =>
    have hnext (k : ℕ) : s.totalPortCount + Int16.ofNat (k + 1 + 1) =
        (s.record id).totalPortCount + Int16.ofNat (k + 1) := by
      show _ = s.totalPortCount + 1 + Int16.ofNat (k + 1)
      rw [Int16.add_assoc, Nat.add_comm (k + 1) 1, Int16.ofNat_add 1 (k + 1)]
      rfl
    rw [List.length_cons, Nat.forall_lt_succ_left]
    simp only [hnext]
    rw [and_assoc, List.foldl_cons, ← ih]
    show _ ↔ (s.record id).totalPortCount.toInt < _ ∧ _
    simp [recordPorts]

theorem returns_detectPorts {rteMaxEthports : ℕ} {s : Ports} :
    Returns d (detectPorts rteMaxEthports) s ↔
      Detectable rteMaxEthports (d .ethForeachDev) ∧ s = recorded (d .ethForeachDev) := by
  have hrecord : Returns d (recordPorts rteMaxEthports (d .ethForeachDev) ⟨0, fun _ => 0⟩) s ↔
      (∀ k < (d .ethForeachDev).length, (Int16.ofNat (k + 1)).toInt < rteMaxEthports) ∧
        recorded (d .ethForeachDev) = s := by
    simp only [returns_recordPorts, Int16.zero_add]
    rfl
  have hcount : (recorded (d .ethForeachDev)).totalPortCount =
      Int16.ofNat (d .ethForeachDev).length := by
    rw [recorded, totalPortCount_foldl, Int16.zero_add]
  have hdetect : Returns d (detectPorts rteMaxEthports) s ↔
      Returns d (recordPorts rteMaxEthports (d .ethForeachDev) ⟨0, fun _ => 0⟩) s ∧
        s.totalPortCount ≠ 0 := by
    simp [detectPorts]
  rw [hdetect, hrecord]
  constructor
  · rintro ⟨⟨hbelow, rfl⟩, hne⟩
    exact ⟨⟨hbelow, hcount ▸ hne⟩, rfl⟩
  · rintro ⟨hports, rfl⟩
    exact ⟨⟨hports.below, rfl⟩, hcount ▸ hports.counted⟩

/-- As long as the count cannot wrap, the detection needs a port and a free
    entry after the last one. -/
theorem detectable_iff {rteMaxEthports : ℕ} {ids : List UInt16} (hmax : rteMaxEthports < 2 ^ 15) :
    Detectable rteMaxEthports ids ↔ 0 < ids.length ∧ ids.length < rteMaxEthports := by
  constructor
  · rintro ⟨hbelow, hcounted⟩
    have hpos : 0 < ids.length := by
      rw [List.length_pos_iff]
      rintro rfl
      exact hcounted rfl
    refine ⟨hpos, ?_⟩
    by_contra hge
    have hfirst := hbelow 0 hpos
    rw [Int16.toInt_ofNat_of_lt (by norm_num)] at hfirst
    have hlast := hbelow (rteMaxEthports - 1) (by omega)
    rw [Int16.toInt_ofNat_of_lt (by omega)] at hlast
    omega
  · rintro ⟨hpos, hlt⟩
    refine ⟨?_, ?_⟩
    · intro k hk
      rw [Int16.toInt_ofNat_of_lt (by omega)]
      omega
    · intro hzero
      have hint := congrArg Int16.toInt hzero
      rw [Int16.toInt_ofNat_of_lt (by omega), Int16.toInt_zero] at hint
      omega

@[simp] theorem returns_checkDeviceOffloadingSupport {port : UInt16} {r : Bool × DevInfo} :
    Returns d (checkDeviceOffloadingSupport port) r ↔
      (decide ((d (.ethDevInfoGet port)).1 = 0), (d (.ethDevInfoGet port)).2) = r := by
  by_cases h : (d (.ethDevInfoGet port)).1 = 0 <;> simp [checkDeviceOffloadingSupport, h]

@[simp] theorem returns_configurePort {port : UInt16} {rxQueues txQueues : ℕ} {conf : EthConf}
    {a : Unit} :
    Returns d (configurePort port rxQueues txQueues conf) a ↔
      d (.ethDevConfigure port rxQueues txQueues conf) = 0 := by
  simp [configurePort]

/-- The socket that `queueSocket` returns. -/
def socketOf (d : Answers) (port : UInt16) : Int16 :=
  if 0 ≤ Int16.ofInt (d (.ethDevSocketId port)) then Int16.ofInt (d (.ethDevSocketId port))
  else Int16.ofInt (d .socketId)

@[simp] theorem returns_queueSocket {port : UInt16} {socket : Int16} :
    Returns d (queueSocket port) socket ↔ socketOf d port = socket := by
  simp [queueSocket, socketOf]

@[simp] theorem returns_setupRxQueues {error : String} {port : UInt16} {rxQueues : ℕ}
    {socket : Int16} {memoryPool : Pointer} {a : Unit} :
    Returns d (setupRxQueues error port rxQueues socket memoryPool) a ↔
      ∀ i < rxQueues, 0 ≤ d (.ethRxQueueSetup port i 256 socket memoryPool) := by
  rw [setupRxQueues, returns_forM]
  simp

@[simp] theorem returns_setupTxQueues {port : UInt16} {txQueues nbDesc : ℕ} {socket : Int16}
    {a : Unit} :
    Returns d (setupTxQueues port txQueues nbDesc socket) a ↔
      ∀ i < txQueues, 0 ≤ d (.ethTxQueueSetup port i nbDesc socket) := by
  rw [setupTxQueues, returns_forM]
  simp

@[simp] theorem returns_startPort {port : UInt16} {a : Unit} :
    Returns d (startPort port) a ↔ 0 ≤ d (.ethDevStart port) := by
  simp [startPort]

/-! ## The parts before the launch -/

/-- A part that makes only preliminary calls and does not end `main` with success. -/
abbrev Preliminary {α : Type} (d : Answers) (p : Main α) : Prop :=
  Within d Call.IsPreliminary (· ≠ 0) p

@[simp] theorem setup_of_preliminary {α : Type} {p : Main α} (h : Preliminary d p) :
    Always d Call.IsSetup p := by
  refine h.calls.mono ?_
  intro c hc
  cases c <;> first | exact hc.elim | exact hc

@[simp] theorem preliminary_abort {α : Type} : Preliminary d (abort : Main α) := by
  simp [abort, Call.IsPreliminary, Call.IsSetup]

@[simp] theorem preliminary_fail {α : Type} {text : String} :
    Preliminary d (fail text : Main α) := by
  simp [fail, Call.IsPreliminary, Call.IsSetup]

@[simp] theorem preliminary_failIf {c : Prop} [Decidable c] {text : String} :
    Preliminary d (failIf c text) := by
  simp [failIf]

@[simp] theorem preliminary_abortIf {c : Prop} [Decidable c] : Preliminary d (abortIf c) := by
  simp [abortIf]

@[simp] theorem preliminary_initEal : Preliminary d initEal := by
  simp [initEal, Call.IsPreliminary, Call.IsSetup]

@[simp] theorem preliminary_recordPorts {rteMaxEthports : ℕ} {ids : List UInt16} {s : Ports} :
    Preliminary d (recordPorts rteMaxEthports ids s) := by
  induction ids generalizing s with
  | nil => simp [recordPorts]
  | cons id ids ih => simp [recordPorts, ih]

@[simp] theorem preliminary_detectPorts {rteMaxEthports : ℕ} :
    Preliminary d (detectPorts rteMaxEthports) := by
  simp [detectPorts, Call.IsPreliminary, Call.IsSetup]

@[simp] theorem preliminary_checkDeviceOffloadingSupport {port : UInt16} :
    Preliminary d (checkDeviceOffloadingSupport port) := by
  simp [checkDeviceOffloadingSupport, Call.IsPreliminary, Call.IsSetup]

@[simp] theorem preliminary_configurePort {port : UInt16} {rxQueues txQueues : ℕ}
    {conf : EthConf} : Preliminary d (configurePort port rxQueues txQueues conf) := by
  simp [configurePort, Call.IsPreliminary, Call.IsSetup]

@[simp] theorem preliminary_queueSocket {port : UInt16} : Preliminary d (queueSocket port) := by
  simp [queueSocket, Call.IsPreliminary, Call.IsSetup]

@[simp] theorem preliminary_setupRxQueues {error : String} {port : UInt16} {rxQueues : ℕ}
    {socket : Int16} {memoryPool : Pointer} :
    Preliminary d (setupRxQueues error port rxQueues socket memoryPool) := by
  apply within_forM
  simp [Call.IsPreliminary, Call.IsSetup]

@[simp] theorem preliminary_setupTxQueues {port : UInt16} {txQueues nbDesc : ℕ}
    {socket : Int16} : Preliminary d (setupTxQueues port txQueues nbDesc socket) := by
  apply within_forM
  simp [Call.IsPreliminary, Call.IsSetup]

@[simp] theorem preliminary_startPort {port : UInt16} : Preliminary d (startPort port) := by
  simp [startPort, Call.IsPreliminary, Call.IsSetup]

@[simp] theorem setup_finish {α : Type} : Always d Call.IsSetup (finish : Main α) := by
  simp [finish, Call.IsSetup]

/-! ## The parts release the EAL when they exit -/

theorem releases_abort {α : Type} : ReleasesOnExit d Call.isCleanup (abort : Main α) :=
  .release_exit rfl

theorem releases_fail {α : Type} {text : String} :
    ReleasesOnExit d Call.isCleanup (fail text : Main α) :=
  .bind (.perform rfl) fun _ _ => releases_abort

theorem releases_failIf {c : Prop} [Decidable c] {text : String} :
    ReleasesOnExit d Call.isCleanup (failIf c text) :=
  .ite (fun _ => releases_fail) fun _ => .pure _

theorem releases_abortIf {c : Prop} [Decidable c] :
    ReleasesOnExit d Call.isCleanup (abortIf c) :=
  .ite (fun _ => releases_abort) fun _ => .pure _

theorem releases_initEal (hinit : 0 ≤ d .ealInit) : ReleasesOnExit d Call.isCleanup initEal := by
  refine .bind (.perform rfl) fun ret hret => .ite (fun hneg => absurd hneg ?_) fun _ => .pure _
  obtain rfl := returns_perform.mp hret
  exact Int.not_lt.mpr hinit

theorem releases_recordPorts {rteMaxEthports : ℕ} {ids : List UInt16} {s : Ports} :
    ReleasesOnExit d Call.isCleanup (recordPorts rteMaxEthports ids s) := by
  induction ids generalizing s with
  | nil => exact .pure _
  | cons id ids ih => exact .bind releases_failIf fun _ _ => ih

theorem releases_detectPorts {rteMaxEthports : ℕ} :
    ReleasesOnExit d Call.isCleanup (detectPorts rteMaxEthports) :=
  .bind (.perform rfl) fun _ _ => .bind releases_recordPorts fun _ _ =>
    .bind releases_failIf fun _ _ => .pure _

theorem releases_checkDeviceOffloadingSupport {port : UInt16} :
    ReleasesOnExit d Call.isCleanup (checkDeviceOffloadingSupport port) := by
  refine .bind (.perform rfl) fun _ _ => .ite (fun _ => ?_) fun _ => .pure _
  exact .bind (.perform rfl) fun _ _ => .pure _

theorem releases_configurePort {port : UInt16} {rxQueues txQueues : ℕ} {conf : EthConf} :
    ReleasesOnExit d Call.isCleanup (configurePort port rxQueues txQueues conf) :=
  .bind (.perform rfl) fun _ _ => releases_failIf

theorem releases_queueSocket {port : UInt16} :
    ReleasesOnExit d Call.isCleanup (queueSocket port) :=
  .bind (.perform rfl) fun _ _ => .bind (.perform rfl) fun _ _ => .pure _

theorem releases_setupRxQueues {error : String} {port : UInt16} {rxQueues : ℕ}
    {socket : Int16} {memoryPool : Pointer} :
    ReleasesOnExit d Call.isCleanup (setupRxQueues error port rxQueues socket memoryPool) :=
  .forM fun _ _ => .bind (.perform rfl) fun _ _ => releases_failIf

theorem releases_setupTxQueues {port : UInt16} {txQueues nbDesc : ℕ} {socket : Int16} :
    ReleasesOnExit d Call.isCleanup (setupTxQueues port txQueues nbDesc socket) :=
  .forM fun _ _ => .bind (.perform rfl) fun _ _ => releases_failIf

theorem releases_startPort {port : UInt16} : ReleasesOnExit d Call.isCleanup (startPort port) :=
  .bind (.perform rfl) fun _ _ => .bind (.perform rfl) fun _ _ => releases_failIf

theorem releases_remoteLaunch {routine : LaunchedRoutine} {lcore : ℕ} :
    ReleasesOnExit d Call.isCleanup (remoteLaunch routine lcore) :=
  .bind (.perform rfl) fun _ _ => releases_failIf

theorem releases_finish {α : Type} : ReleasesOnExit d Call.isCleanup (finish : Main α) :=
  .release_exit rfl

/-! ## A system on which the calls succeed -/

/-- One port with all offloads; a queue is refused without a pool. The logical
    cores, the pools and the offset of the timestamp field are given. -/
def working (lcores : List ℕ) (pool : Pointer) (offset : Int32) : Answers
  | .ealInit | .telemetryRegisterCmd _ | .ethDevConfigure .. | .ethDevSocketId _ | .socketId
  | .ethTxQueueSetup .. | .ethPromiscuousEnable _ | .ethDevStart _ | .ealRemoteLaunch .. => (0 : ℤ)
  | .ethRxQueueSetup _ _ _ _ memoryPool => if memoryPool = none then (-22 : ℤ) else 0
  | .mbufDynfieldRegister => offset
  | .ealProcessType => DpdkTutorials.Multiprocess.ProcType.primary
  | .lcoreForeach => lcores
  | .ethForeachDev => ([0] : List UInt16)
  | .pktmbufPoolCreate .. => pool
  | .ringCreate .. | .ringLookup _ => some 1
  | .ethDevGetPortByName _ => ((0 : ℤ), (0 : UInt16))
  | .ethDevInfoGet _ => ((0 : ℤ), (⟨0xFFFFFFFFFFFFFFFF, 16, 0⟩ : DevInfo))
  | .prepareMemoryPool => true
  | .report _ | .applicationUsage | .ealCleanup | .ringFree _ | .ethDevStop _ | .ethDevClose _
  | .ealWaitLcore _ | .transmitLoop .. | .readPacketsFromInterface _ | .generatePackets ..
  | .processPackets .. | .getAndPrintNicStatistics _ => ()

theorem detectable_one : Detectable 32 [0] :=
  (detectable_iff (by norm_num)).mpr ⟨by decide, by decide⟩

end DpdkTutorials.Startup

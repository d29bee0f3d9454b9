import DpdkTutorials.Common.Protocol
import DpdkTutorials.Startup.Ports
import DpdkTutorials.Startup.Release

/-!
# The order of the calls of `main`

DPDK asks for its calls in a certain order. Nothing is called before
`rte_eal_init` has succeeded or after `rte_eal_cleanup`, and the latter only when
no routine runs on another logical core. The queues of a port are set up after
`rte_eth_dev_configure`, within the numbers given there, and before
`rte_eth_dev_start`; packets are received and transmitted on the queues of a port
that is started.

The `main` functions keep to this order in every run, also in those that fail
half way. In 6 this holds if the first detected port has id 0, as the word that
is passed to the routines names that port (6-receive-side-scaling/main.cpp:237).

* `lifecycle`: the order as a protocol.
* `leads_initEal`, …, `leads_launch`: what the parts of the programs do to the
  state.
* `conforms_mains`, `conforms_rss`: all programs.
* `releasesEal_mains`: the programs that release the EAL in every run.
-/

namespace DpdkTutorials.Startup

open DpdkTutorials.Common DpdkTutorials.Common.Program DpdkTutorials.Dpdk

/-! ## The protocol -/

/-- A configured port. -/
structure Device where
  port : UInt16
  rxQueues : ℕ
  txQueues : ℕ
  /-- The queues that have been set up. -/
  rxSetUp : Finset ℕ
  txSetUp : Finset ℕ
  started : Bool

inductive Phase where
  | new
  | up
  | cleanedUp

/-- The EAL as a process sees it. -/
structure Eal where
  phase : Phase
  device : Option Device
  /-- The logical cores on which a routine has been launched. -/
  running : List ℕ

/-- The port is configured, and in a state with `P`. -/
def Eal.Has (s : Eal) (port : UInt16) (P : Device → Prop) : Prop :=
  ∃ dev, s.device = some dev ∧ dev.port = port ∧ P dev

/-- All queues have been set up. -/
def Device.AllSetUp (dev : Device) : Prop :=
  (∀ queue < dev.rxQueues, queue ∈ dev.rxSetUp) ∧ ∀ queue < dev.txQueues, queue ∈ dev.txSetUp

/-- `read_packets_from_interface` can poll the queue that its argument names. -/
def Eal.CanRead (s : Eal) (arg : UInt32) : Prop :=
  s.Has (Rss.portHalf arg) fun dev =>
    dev.started = true ∧ (Rss.queueHalf arg).toNat < dev.rxQueues

/-- The routine finds its port started, with the queue it uses. -/
def Eal.CanRun (s : Eal) : LaunchedRoutine → Prop
  | .processPackets => True
  | .readPacketsFromInterface arg => s.CanRead arg
  | .transmitPacketsFromInterface params => ∃ port : UInt16, port.toNat = params.portId ∧
    s.Has port fun dev => dev.started = true ∧ params.queueId < dev.txQueues

/-- What a call asks of the port and of the other logical cores. -/
def Eal.Asks (s : Eal) : Call → Prop
  | .ealCleanup => s.running = []
  | .ethDevConfigure .. => ∀ dev, s.device = some dev → dev.started = false
  | .ethRxQueueSetup port queue .. =>
    s.Has port fun dev => dev.started = false ∧ queue < dev.rxQueues
  | .ethTxQueueSetup port queue .. =>
    s.Has port fun dev => dev.started = false ∧ queue < dev.txQueues
  | .ethPromiscuousEnable port => s.Has port fun _ => True
  | .ethDevStart port => s.Has port fun dev => dev.started = false ∧ dev.AllSetUp
  | .ethDevStop port => s.Has port fun dev => dev.started = true
  | .ethDevClose port => s.Has port fun dev => dev.started = false
  | .transmitLoop port _ => s.Has port fun dev => dev.started = true ∧ 0 < dev.txQueues
  | .readPacketsFromInterface arg => s.CanRead arg
  | .getAndPrintNicStatistics port => s.Has port fun dev => dev.started = true
  | .ealRemoteLaunch routine lcore => lcore ∉ s.running ∧ s.CanRun routine
  | _ => True

def Eal.Allows (s : Eal) : Call → Prop
  | .report _ | .applicationUsage => True
  | .ealInit => s.phase = .new
  | c => s.phase = .up ∧ s.Asks c

/-- What a call and its answer change. -/
def Eal.next (s : Eal) : (c : Call) → c.Answer → Eal
  | .ealInit, ret => if (ret : ℤ) < 0 then s else { s with phase := .up }
  | .ealCleanup, _ => { s with phase := .cleanedUp }
  | .ethDevConfigure port rxQueues txQueues _, ret =>
    if (ret : ℤ) = 0 then { s with device := some ⟨port, rxQueues, txQueues, ∅, ∅, false⟩ } else s
  | .ethRxQueueSetup _ queue _ _ _, ret =>
    if (ret : ℤ) < 0 then s
    else { s with device := s.device.map fun dev =>
      { dev with rxSetUp := insert queue dev.rxSetUp } }
  | .ethTxQueueSetup _ queue _ _, ret =>
    if (ret : ℤ) < 0 then s
    else { s with device := s.device.map fun dev =>
      { dev with txSetUp := insert queue dev.txSetUp } }
  | .ethDevStart _, ret =>
    if (ret : ℤ) < 0 then s
    else { s with device := s.device.map fun dev => { dev with started := true } }
  | .ethDevStop _, _ => { s with device := s.device.map fun dev => { dev with started := false } }
  | .ethDevClose _, _ => { s with device := none }
  | .ealRemoteLaunch _ lcore, ret =>
    if (ret : ℤ) = 0 then { s with running := lcore :: s.running } else s
  | .ealWaitLcore lcore, _ => { s with running := s.running.filter (· ≠ lcore) }
  | _, _ => s

/-- The life of the EAL and of a port. -/
def lifecycle : Protocol Call.Answer Eal where
  Allowed := Eal.Allows
  next := Eal.next

/-- The state in which a process starts. -/
def Eal.start : Eal := ⟨.new, none, []⟩

/-- In the run with the answers `d` every call is allowed when it is made, and when
    the process ends no routine runs on another logical core. -/
structure Conforms (d : Answers) (p : Main Empty) : Prop where
  legal : lifecycle.Legal d .start (p.calls d)
  joined : ∀ status, p.result d = .exit status →
    (lifecycle.after d .start (p.calls d)).running = []

/-! ## The first program -/

/-- `1-reading-a-packet-from-nic` (main.cpp:38-184). Its loop polls queue 0 of the
    port, as `read_packets_from_interface` does. -/
def ReadingAPacket.main (rteMaxEthports : ℕ) : Main Empty := do
  initEal
  let ports ← detectPorts rteMaxEthports
  let port := ports.portIds 0
  let memoryPool : Pointer ← ask (.pktmbufPoolCreate "mempool_1" 1023 512)
  configurePort port 1 0 ⟨false, 0⟩
  let socket ← queueSocket port
  setupRxQueues "Unable to setup RX queue " port 1 socket memoryPool
  startPort port
  let _ ← ask (.readPacketsFromInterface port.toUInt32)
  finish

/-! ## The parts keep to the protocol -/

variable {d : Answers} {α β : Type} {Q : α → Eal → Prop} {s t : Eal}

/-- No routine is left running. -/
def Joined (_ : ℤ) (s : Eal) : Prop := s.running = []

/-- `p` keeps to the protocol from `s` on, and `Q` holds if it returns. -/
abbrev Keeps (d : Answers) (Q : α → Eal → Prop) (p : Main α) (s : Eal) : Prop :=
  Meets lifecycle d Q Joined p s

/-- `p` keeps to the protocol from `s` on, and returns in the state `t`, if at all. -/
def Leads (d : Answers) (p : Main α) (s t : Eal) : Prop := Keeps d (fun _ u => u = t) p s

theorem conforms_of_keeps {p : Main Empty} (h : Keeps d (fun _ _ => True) p .start) :
    Conforms d p :=
  ⟨h.legal.1, h.legal.2⟩

theorem Leads.bind {p : Main α} {f : α → Main β} {Q : β → Eal → Prop} (hp : Leads d p s t)
    (hf : ∀ a, Returns d p a → Keeps d Q (f a) t) : Keeps d Q (p >>= f) s := by
  refine Meets.bind hp ?_
  rintro a _ ha rfl
  exact hf a ha

/-- The EAL is up, no routine is running, and the port is as given. -/
def Eal.at (device : Option Device) : Eal := ⟨.up, device, []⟩

theorem keeps_abort (hup : s.phase = .up) (hjoined : s.running = []) :
    Keeps d Q (abort : Main α) s :=
  .call ⟨hup, hjoined⟩ hjoined

theorem keeps_fail {text : String} (hup : s.phase = .up) (hjoined : s.running = []) :
    Keeps d Q (fail text : Main α) s :=
  .call trivial (keeps_abort hup hjoined)

theorem leads_failIf {c : Prop} [Decidable c] {text : String}
    (hc : c → s.phase = .up ∧ s.running = []) (ht : ¬ c → s = t) :
    Leads d (failIf c text) s t :=
  .ite (fun hfails => keeps_fail (hc hfails).1 (hc hfails).2) ht

section Parts

variable {device : Option Device} {port : UInt16} {rxQueues txQueues : ℕ}

/-- A check between two calls. -/
theorem leads_check {c : Prop} [Decidable c] {text : String} :
    Leads d (failIf c text) (.at device) (.at device) :=
  leads_failIf (fun _ => ⟨rfl, rfl⟩) fun _ => rfl

theorem leads_abortIf {c : Prop} [Decidable c] :
    Leads d (abortIf c) (.at device) (.at device) :=
  .ite (fun _ => keeps_abort rfl rfl) fun _ => rfl

theorem keeps_finish : Keeps d Q (finish : Main α) (.at device) :=
  .call ⟨rfl, rfl⟩ rfl

theorem leads_initEal : Leads d initEal .start (.at none) := by
  refine .call rfl ?_
  show Keeps d _ _ (if d .ealInit < 0 then Eal.start else .at none)
  refine .ite (fun hfailed => ?_) fun hinit => ?_
  · rw [if_pos hfailed]
    exact .call trivial rfl
  · rw [if_neg hinit]
    exact rfl

theorem leads_recordPorts {rteMaxEthports : ℕ} {ids : List UInt16} {ports : Ports} :
    Leads d (recordPorts rteMaxEthports ids ports) (.at device) (.at device) := by
  induction ids generalizing ports with
  | nil => exact rfl
  | cons id ids ih => exact leads_check.bind fun _ _ => ih

theorem leads_detectPorts {rteMaxEthports : ℕ} :
    Leads d (detectPorts rteMaxEthports) (.at device) (.at device) :=
  .call ⟨rfl, trivial⟩ (leads_recordPorts.bind fun _ _ => leads_check.bind fun _ _ => rfl)

theorem leads_checkDeviceOffloadingSupport :
    Leads d (checkDeviceOffloadingSupport port) (.at device) (.at device) :=
  .call ⟨rfl, trivial⟩ (.ite (fun _ => .call trivial rfl) fun _ => rfl)

theorem leads_queueSocket : Leads d (queueSocket port) (.at device) (.at device) :=
  .call ⟨rfl, trivial⟩ (.call ⟨rfl, trivial⟩ rfl)

/-- The port after `rte_eth_dev_configure`, with the first queues set up. -/
def Device.configured (port : UInt16) (rxQueues txQueues rxSetUp txSetUp : ℕ) : Device where
  port := port
  rxQueues := rxQueues
  txQueues := txQueues
  rxSetUp := Finset.range rxSetUp
  txSetUp := Finset.range txSetUp
  started := false

/-- The port after `rte_eth_dev_start`. -/
def Device.opened (port : UInt16) (rxQueues txQueues : ℕ) : Device :=
  { Device.configured port rxQueues txQueues rxQueues txQueues with started := true }

theorem allSetUp_configured :
    (Device.configured port rxQueues txQueues rxQueues txQueues).AllSetUp :=
  ⟨fun _ => Finset.mem_range.mpr, fun _ => Finset.mem_range.mpr⟩

theorem leads_configurePort {conf : EthConf} :
    Leads d (configurePort port rxQueues txQueues conf) (.at none)
      (.at (some (.configured port rxQueues txQueues 0 0))) := by
  refine .call ⟨rfl, nofun⟩ ?_
  show Leads d _ (if d (.ethDevConfigure port rxQueues txQueues conf) = 0 then
    .at (some (.configured port rxQueues txQueues 0 0)) else .at none) _
  split
  · exact leads_check
  · exact leads_failIf (fun _ => ⟨rfl, rfl⟩) fun hzero => absurd (not_not.mp hzero) ‹_›

theorem leads_setupRxQueues {error : String} {socket : Int16} {memoryPool : Pointer} :
    Leads d (setupRxQueues error port rxQueues socket memoryPool)
      (.at (some (.configured port rxQueues txQueues 0 0)))
      (.at (some (.configured port rxQueues txQueues rxQueues 0))) := by
  refine Meets.forM (I := fun i (u : Eal) =>
    u = .at (some (.configured port rxQueues txQueues i 0))) ?_ rfl
  rintro i _ hi rfl
  refine .call ⟨rfl, _, rfl, rfl, rfl, hi⟩ ?_
  show Leads d _ (if d (.ethRxQueueSetup port i 256 socket memoryPool) < 0 then _ else _) _
  split
  · exact leads_failIf (fun _ => ⟨rfl, rfl⟩) fun hnot => absurd ‹_› hnot
  · refine leads_failIf (fun _ => ⟨rfl, rfl⟩) fun _ => ?_
    simp [Eal.at, Device.configured, Finset.range_add_one]

theorem leads_setupTxQueues {nbDesc : ℕ} {socket : Int16} :
    Leads d (setupTxQueues port txQueues nbDesc socket)
      (.at (some (.configured port rxQueues txQueues rxQueues 0)))
      (.at (some (.configured port rxQueues txQueues rxQueues txQueues))) := by
  refine Meets.forM (I := fun i (u : Eal) =>
    u = .at (some (.configured port rxQueues txQueues rxQueues i))) ?_ rfl
  rintro i _ hi rfl
  refine .call ⟨rfl, _, rfl, rfl, rfl, hi⟩ ?_
  show Leads d _ (if d (.ethTxQueueSetup port i nbDesc socket) < 0 then _ else _) _
  split
  · exact leads_failIf (fun _ => ⟨rfl, rfl⟩) fun hnot => absurd ‹_› hnot
  · refine leads_failIf (fun _ => ⟨rfl, rfl⟩) fun _ => ?_
    simp [Eal.at, Device.configured, Finset.range_add_one]

theorem leads_startPort :
    Leads d (startPort port) (.at (some (.configured port rxQueues txQueues rxQueues txQueues)))
      (.at (some (.opened port rxQueues txQueues))) := by
  refine .call ⟨rfl, _, rfl, rfl, trivial⟩ ?_
  refine .call ⟨rfl, _, rfl, rfl, rfl, allSetUp_configured⟩ ?_
  show Leads d _ (if d (.ethDevStart port) < 0 then _ else _) _
  split
  · exact leads_failIf (fun _ => ⟨rfl, rfl⟩) fun hnot => absurd ‹_› hnot
  · exact leads_check

/-- The port half of the argument is `port`, and its queue half one of the queues. -/
theorem canRead_opened {arg : UInt32} (hport : Rss.portHalf arg = port)
    (hqueue : (Rss.queueHalf arg).toNat < rxQueues) {running : List ℕ} :
    Eal.CanRead ⟨.up, some (.opened port rxQueues txQueues), running⟩ arg :=
  ⟨_, rfl, hport.symm, rfl, hqueue⟩

theorem portHalf_toUInt32 : Rss.portHalf port.toUInt32 = port := by
  apply UInt16.toNat.inj
  simp [Rss.portHalf, Nat.and_two_pow_sub_one_eq_mod port.toNat 16]

theorem queueHalf_toUInt32 : (Rss.queueHalf port.toUInt32).toNat = 0 := by
  have hlt := port.toNat_lt
  have hshift : port.toNat >>> 16 = 0 := by
    rw [Nat.shiftRight_eq_div_pow]
    omega
  simp [Rss.queueHalf, hshift]

theorem leads_remoteLaunch {routine : LaunchedRoutine} {lcore : ℕ}
    (hrun : (Eal.at device).CanRun routine) :
    Leads d (remoteLaunch routine lcore) (.at device) ⟨.up, device, [lcore]⟩ := by
  refine .call ⟨rfl, List.not_mem_nil, hrun⟩ ?_
  show Leads d _ (if d (.ealRemoteLaunch routine lcore) = 0 then _ else _) _
  split
  · exact leads_failIf (fun hnot => absurd ‹_› hnot) fun _ => rfl
  · exact leads_failIf (fun _ => ⟨rfl, rfl⟩) fun hzero => absurd (not_not.mp hzero) ‹_›

/-- The wait for the routine that has been launched, and the end. -/
theorem keeps_join {lcore : ℕ} :
    Keeps d Q (ask (.ealWaitLcore lcore) >>= fun _ => (finish : Main α))
      ⟨.up, device, [lcore]⟩ := by
  refine .call ⟨rfl, trivial⟩ ?_
  have hjoined : lifecycle.next ⟨.up, device, [lcore]⟩ (.ealWaitLcore lcore)
      (d (.ealWaitLcore lcore)) = .at device := by
    show Eal.mk .up device ([lcore].filter (· ≠ lcore)) = .at device
    simp [Eal.at]
  rw [hjoined]
  exact keeps_finish

end Parts

/-! ## The programs -/

section Programs

variable {rteMaxEthports : ℕ} {port : UInt16}

theorem keeps_transmitFrom {rxQueues : ℕ} {conf : EthConf} {Q : Empty → Eal → Prop} :
    Keeps d Q (transmitFrom port rxQueues conf) (.at none) := by
  refine .call ⟨rfl, trivial⟩ (leads_configurePort.bind fun _ _ => ?_)
  refine leads_queueSocket.bind fun _ _ => leads_setupRxQueues.bind fun _ _ => ?_
  refine leads_setupTxQueues.bind fun _ _ => leads_startPort.bind fun _ _ => ?_
  exact .call ⟨rfl, _, rfl, rfl, rfl, Nat.one_pos⟩ keeps_finish

theorem conforms_reading : Conforms d (ReadingAPacket.main rteMaxEthports) := by
  apply conforms_of_keeps
  refine leads_initEal.bind fun _ _ => leads_detectPorts.bind fun _ _ => ?_
  refine .call ⟨rfl, trivial⟩ (leads_configurePort.bind fun _ _ => ?_)
  refine leads_queueSocket.bind fun _ _ => leads_setupRxQueues.bind fun _ _ => ?_
  refine leads_startPort.bind fun _ _ => .call ⟨rfl, ?_⟩ keeps_finish
  exact canRead_opened portHalf_toUInt32 (by rw [queueHalf_toUInt32]; exact Nat.one_pos)

theorem conforms_sending : Conforms d (SendingAPacket.main rteMaxEthports) := by
  apply conforms_of_keeps
  refine leads_initEal.bind fun _ _ => leads_detectPorts.bind fun _ _ => ?_
  exact keeps_transmitFrom

theorem conforms_statistics : Conforms d (NicStatistics.main rteMaxEthports) := by
  apply conforms_of_keeps
  refine leads_initEal.bind fun _ _ => leads_detectPorts.bind fun _ _ => ?_
  exact keeps_transmitFrom

theorem conforms_checksum : Conforms d (ChecksumOffloading.main rteMaxEthports) := by
  apply conforms_of_keeps
  refine leads_initEal.bind fun _ _ => leads_detectPorts.bind fun _ _ => ?_
  refine leads_checkDeviceOffloadingSupport.bind fun _ _ => leads_abortIf.bind fun _ _ => ?_
  exact leads_check.bind fun _ _ => keeps_transmitFrom

theorem conforms_telemetry : Conforms d (Telemetry.main rteMaxEthports) := by
  apply conforms_of_keeps
  refine leads_initEal.bind fun _ _ => .call ⟨rfl, trivial⟩ (leads_abortIf.bind fun _ _ => ?_)
  exact leads_detectPorts.bind fun _ _ => keeps_transmitFrom

theorem leads_requireTwoLcores : Leads d requireTwoLcores (.at none) (.at none) :=
  .call ⟨rfl, trivial⟩ (.ite (fun _ => .call trivial rfl) fun _ => rfl)

theorem conforms_processing : Conforms d (ProcessingAPacket.main rteMaxEthports) := by
  apply conforms_of_keeps
  refine leads_initEal.bind fun _ _ => leads_requireTwoLcores.bind fun _ _ => ?_
  refine leads_detectPorts.bind fun _ _ => .call ⟨rfl, trivial⟩ ?_
  refine leads_configurePort.bind fun _ _ => leads_queueSocket.bind fun _ _ => ?_
  refine leads_setupRxQueues.bind fun _ _ => leads_startPort.bind fun _ _ => ?_
  refine .call ⟨rfl, trivial⟩ (leads_check.bind fun _ _ => ?_)
  refine (leads_remoteLaunch ?_).bind fun _ _ => .call ⟨rfl, ?_⟩ keeps_join
  · exact trivial
  · exact canRead_opened portHalf_toUInt32 (by rw [queueHalf_toUInt32]; exact Nat.one_pos)

theorem leads_routine {procType : DpdkTutorials.Multiprocess.ProcType} {ringBufferName : String}
    {offset : UInt64} :
    Leads d (Multiprocess.routine procType ringBufferName offset) (.at none) (.at none) := by
  cases procType with
  | primary =>
    refine .call ⟨rfl, trivial⟩ (leads_check.bind fun _ _ => ?_)
    refine .call ⟨rfl, trivial⟩ (leads_check.bind fun _ _ => ?_)
    exact .call ⟨rfl, trivial⟩ (.call ⟨rfl, trivial⟩ rfl)
  | secondary =>
    refine .call ⟨rfl, trivial⟩ (leads_check.bind fun _ _ => ?_)
    exact .call ⟨rfl, trivial⟩ rfl
  | auto => exact rfl
  | invalid => exact rfl

theorem conforms_multiprocess {argv : List String} : Conforms d (Multiprocess.main argv) := by
  apply conforms_of_keeps
  refine leads_initEal.bind fun _ _ => leads_check.bind fun _ _ => ?_
  refine leads_check.bind fun _ _ => .call ⟨rfl, trivial⟩ ?_
  refine leads_check.bind fun _ _ => .call ⟨rfl, trivial⟩ ?_
  refine leads_check.bind fun _ _ => .call ⟨rfl, trivial⟩ ?_
  exact leads_routine.bind fun _ _ => keeps_finish

end Programs

/-! ## The packet generator -/

section PacketGenerator

open PacketGenerator

variable {port : UInt16} {rxQueues txQueues lcore : ℕ} {o : Generator.Options}

theorem leads_parseArguments {argv : List Generator.CString} {fuel : ℕ} :
    Leads d (parseArguments argv fuel) (.at none) (.at none) := by
  have hreject (text : String) :
      Leads d (rejectArguments text : Main Generator.Options) (.at none) (.at none) :=
    .call trivial (.call trivial rfl)
  unfold parseArguments
  split
  · exact trivial
  · exact hreject _
  · exact .ite (fun _ => hreject _) fun _ => .ite (fun _ => hreject _) fun _ => rfl

theorem leads_findOutputPort {outputPort : Generator.CString} :
    Leads d (findOutputPort outputPort) (.at none) (.at none) :=
  .call ⟨rfl, trivial⟩ (.ite (fun _ => .call trivial rfl) fun _ => rfl)

theorem keeps_closeAndAbort :
    Keeps d Q (closeAndAbort port : Main α) (.at (some (.opened port rxQueues txQueues))) :=
  .call ⟨rfl, _, rfl, rfl, rfl⟩ (.call ⟨rfl, _, rfl, rfl, rfl⟩ (keeps_abort rfl rfl))

theorem leads_preparePool :
    Leads d (preparePool port) (.at (some (.opened port rxQueues txQueues)))
      (.at (some (.opened port rxQueues txQueues))) :=
  .call ⟨rfl, trivial⟩ (.ite (fun _ => rfl) fun _ => keeps_closeAndAbort)

theorem leads_launch :
    Leads d (launch (Generator.threadParams port.toNat o) port lcore)
      (.at (some (.opened port 0 1))) ⟨.up, some (.opened port 0 1), [lcore]⟩ := by
  refine .call ⟨rfl, List.not_mem_nil, port, rfl, _, rfl, rfl, rfl, Nat.one_pos⟩ ?_
  refine .ite (fun hret => ?_) fun hret => ?_
  · show (if _ then _ else _) = _
    rw [if_pos hret]
    rfl
  · show Keeps d _ _ (if _ then _ else _)
    rw [if_neg hret]
    exact .call trivial keeps_closeAndAbort

theorem keeps_transmit {Q : Empty → Eal → Prop} : Keeps d Q (transmit port o) (.at none) := by
  refine leads_checkDeviceOffloadingSupport.bind fun _ _ => leads_abortIf.bind fun _ _ => ?_
  refine .call ⟨rfl, trivial⟩ (leads_check.bind fun _ hlcores => .call ⟨rfl, trivial⟩ ?_)
  refine leads_configurePort.bind fun _ _ => leads_queueSocket.bind fun _ _ => ?_
  refine leads_setupRxQueues.bind fun _ _ => leads_setupTxQueues.bind fun _ _ => ?_
  refine leads_startPort.bind fun _ _ => leads_preparePool.bind fun _ _ => ?_
  refine leads_launch.bind fun _ _ => .call ⟨rfl, _, rfl, rfl, rfl⟩ ?_
  -- the routine runs on the only logical core that is waited for
  obtain ⟨main, lcore, hlist⟩ :=
    List.length_eq_two.mp (not_not.mp (returns_failIf.mp hlcores))
  rw [hlist]
  exact keeps_join

theorem conforms_generator {rteMaxEthports : ℕ} {argv : List Generator.CString} {fuel : ℕ} :
    Conforms d (PacketGenerator.main rteMaxEthports argv fuel) := by
  apply conforms_of_keeps
  refine leads_initEal.bind fun _ _ => leads_parseArguments.bind fun _ _ => ?_
  refine leads_detectPorts.bind fun _ _ => leads_findOutputPort.bind fun _ _ => ?_
  exact keeps_transmit

end PacketGenerator

/-! ## All programs -/

/-- For all answers of DPDK and all arguments. -/
theorem conforms_mains (d : Answers) (rteMaxEthports : ℕ) (ringArgs : List String)
    (argv : List Generator.CString) (fuel : ℕ) :
    Conforms d (ReadingAPacket.main rteMaxEthports) ∧
    Conforms d (SendingAPacket.main rteMaxEthports) ∧
    Conforms d (ProcessingAPacket.main rteMaxEthports) ∧
    Conforms d (NicStatistics.main rteMaxEthports) ∧
    Conforms d (ChecksumOffloading.main rteMaxEthports) ∧
    Conforms d (Telemetry.main rteMaxEthports) ∧
    Conforms d (Multiprocess.main ringArgs) ∧
    Conforms d (PacketGenerator.main rteMaxEthports argv fuel) :=
  ⟨conforms_reading, conforms_sending, conforms_processing, conforms_statistics,
    conforms_checksum, conforms_telemetry, conforms_multiprocess, conforms_generator⟩

/-- Both words of 6 name port 0. -/
theorem conforms_rss (d : Answers) (rteMaxEthports : ℕ)
    (hfirst : (recorded (d .ethForeachDev)).portIds 0 = 0) :
    Conforms d (ReceiveSideScaling.main rteMaxEthports) := by
  apply conforms_of_keeps
  refine leads_initEal.bind fun _ _ => leads_requireTwoLcores.bind fun _ _ => ?_
  refine leads_detectPorts.bind fun ports hports => .call ⟨rfl, trivial⟩ ?_
  have hport : ports.portIds 0 = 0 := by
    rw [(returns_detectPorts.mp hports).2]
    exact hfirst
  rw [hport]
  refine .call ⟨rfl, trivial⟩ (leads_check.bind fun _ _ => leads_check.bind fun _ _ => ?_)
  refine leads_configurePort.bind fun _ _ => leads_queueSocket.bind fun _ _ => ?_
  refine leads_setupRxQueues.bind fun _ _ => leads_startPort.bind fun _ _ => ?_
  refine (leads_remoteLaunch ?_).bind fun _ _ => .call ⟨rfl, ?_⟩ keeps_join
  · exact canRead_opened (by decide : Rss.portHalf Rss.workerWord = 0) (by decide)
  · exact canRead_opened (by decide : Rss.portHalf Rss.mainWord = 0) (by decide)

theorem conforms_rss_two_lcores :
    Conforms (working [0, 1] (some 1) 0) (ReceiveSideScaling.main 32) :=
  conforms_rss _ 32 rfl

/-! ## The release of the EAL -/

section Release

variable {rteMaxEthports : ℕ} {port : UInt16}

theorem releases_transmitFrom {rxQueues : ℕ} {conf : EthConf} :
    ReleasesOnExit d Call.isCleanup (transmitFrom port rxQueues conf) := by
  refine .bind (.perform rfl) fun _ _ => .bind releases_configurePort fun _ _ => ?_
  refine .bind releases_queueSocket fun _ _ => .bind releases_setupRxQueues fun _ _ => ?_
  refine .bind releases_setupTxQueues fun _ _ => .bind releases_startPort fun _ _ => ?_
  exact .bind (.perform rfl) fun _ _ => releases_finish

/-- What every `main` begins with. -/
theorem releasesEal_of_detected {next : Ports → Main Empty}
    (hnext : ∀ ports, ReleasesOnExit d Call.isCleanup (next ports)) :
    ReleasesEal d (initEal >>= fun _ => detectPorts rteMaxEthports >>= next) := fun hinit =>
  .of_parts (.bind (releases_initEal hinit) fun _ _ =>
    .bind releases_detectPorts fun ports _ => hnext ports)

theorem releasesEal_reading : ReleasesEal d (ReadingAPacket.main rteMaxEthports) := by
  refine releasesEal_of_detected fun ports => .bind (.perform rfl) fun _ _ => ?_
  refine .bind releases_configurePort fun _ _ => .bind releases_queueSocket fun _ _ => ?_
  refine .bind releases_setupRxQueues fun _ _ => .bind releases_startPort fun _ _ => ?_
  exact .bind (.perform rfl) fun _ _ => releases_finish

theorem releasesEal_checksum : ReleasesEal d (ChecksumOffloading.main rteMaxEthports) := by
  refine releasesEal_of_detected fun ports => ?_
  refine .bind releases_checkDeviceOffloadingSupport fun _ _ => ?_
  refine .bind releases_abortIf fun _ _ => .bind releases_failIf fun _ _ => ?_
  exact releases_transmitFrom

theorem releasesEal_telemetry : ReleasesEal d (Telemetry.main rteMaxEthports) := fun hinit =>
  .of_parts (.bind (releases_initEal hinit) fun _ _ => .bind (.perform rfl) fun _ _ =>
    .bind releases_abortIf fun _ _ => .bind releases_detectPorts fun _ _ => releases_transmitFrom)

/-- The programs without an exit that skips the release. -/
theorem releasesEal_mains (d : Answers) (rteMaxEthports : ℕ) :
    ReleasesEal d (ReadingAPacket.main rteMaxEthports) ∧
    ReleasesEal d (SendingAPacket.main rteMaxEthports) ∧
    ReleasesEal d (NicStatistics.main rteMaxEthports) ∧
    ReleasesEal d (ChecksumOffloading.main rteMaxEthports) ∧
    ReleasesEal d (Telemetry.main rteMaxEthports) :=
  ⟨releasesEal_reading, releasesEal_of_detected fun _ => releases_transmitFrom,
    releasesEal_of_detected fun _ => releases_transmitFrom, releasesEal_checksum,
    releasesEal_telemetry⟩

end Release

end DpdkTutorials.Startup

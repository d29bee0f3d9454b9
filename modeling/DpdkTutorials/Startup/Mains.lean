import DpdkTutorials.Startup.Calls
import DpdkTutorials.Rss.Handoff
import DpdkTutorials.Generator.Offload

/-!
# The `main` functions

The `main` functions of the tutorials 2 to 9, each from the initialization of
the EAL to the end of the process, with every check in its place.
-/

namespace DpdkTutorials.Startup

open DpdkTutorials.Common DpdkTutorials.Common.Program DpdkTutorials.Dpdk

/-! ## The programs that transmit -/

/-- The part of `main` from the creation of the pool to the end, the same in
    the tutorials 2, 4, 5 and 7 except for the number of receive queues and
    the offloads (2-sending-a-packet-from-nic/main.cpp:99-259). -/
def transmitFrom (port : UInt16) (rxQueues : ℕ) (conf : EthConf) : Main Empty := do
  let memoryPool : Pointer ← ask (.pktmbufPoolCreate "mempool_1" 1023 512)
  configurePort port rxQueues 1 conf
  let socket ← queueSocket port
  setupRxQueues "Unable to setup RX queue " port rxQueues socket memoryPool
  setupTxQueues port 1 256 socket
  startPort port
  let _ ← ask (.transmitLoop port memoryPool)
  finish

/-- `2-sending-a-packet-from-nic` (main.cpp:38-260). -/
def SendingAPacket.main (rteMaxEthports : ℕ) : Main Empty := do
  initEal
  let ports ← detectPorts rteMaxEthports
  transmitFrom (ports.portIds 0) 0 ⟨false, 0⟩

/-- `4-getting-nic-statistics` (main.cpp:39-288). -/
def NicStatistics.main (rteMaxEthports : ℕ) : Main Empty := do
  initEal
  let ports ← detectPorts rteMaxEthports
  transmitFrom (ports.portIds 0) 1 ⟨false, 0⟩

/-- `5-ipv4-checksum-calculation-offloading-to-nic` (main.cpp:97-374). -/
def ChecksumOffloading.main (rteMaxEthports : ℕ) : Main Empty := do
  initEal
  let ports ← detectPorts rteMaxEthports
  let port := ports.portIds 0
  let (supported, devInfo) ← checkDeviceOffloadingSupport port
  abortIf (!supported)
  failIf (devInfo.txOffloadCapa &&& rteEthTxOffloadIpv4Cksum = 0)
    ("Cannot conitnue. Tx IPv4 checksum offloading not supported for ethernet device (port): %d" ++
      toString port)
  transmitFrom port 1 ⟨false, rteEthTxOffloadIpv4Cksum⟩

/-- `7-telemetry-in-dpdk` (main.cpp:48-281). -/
def Telemetry.main (rteMaxEthports : ℕ) : Main Empty := do
  initEal
  let registered : ℤ ← ask (.telemetryRegisterCmd "/dpdk_app/packet_info")
  abortIf (registered ≠ 0)
  let ports ← detectPorts rteMaxEthports
  transmitFrom (ports.portIds 0) 0 ⟨false, 0⟩

/-! ## The programs that receive -/

/-- The check for two logical cores of the tutorials 3 and 6, which exits
    without `rte_eal_cleanup` (3-processing-a-packet/main.cpp:147-163). -/
def requireTwoLcores : Main (List ℕ) := do
  let logicalCores : List ℕ ← ask .lcoreForeach
  if logicalCores.length < 2 then
    let _ ← ask (.report "Atleast two logical cores are required to run this DPDK application. ")
    .exit 1
  else
    pure logicalCores

/-- `3-processing-a-packet` (main.cpp:107-284). -/
def ProcessingAPacket.main (rteMaxEthports : ℕ) : Main Empty := do
  initEal
  let logicalCores ← requireTwoLcores
  let ports ← detectPorts rteMaxEthports
  let port := ports.portIds 0
  let memoryPool : Pointer ← ask (.pktmbufPoolCreate "mempool_1" 1023 512)
  configurePort port 1 0 ⟨false, 0⟩
  let socket ← queueSocket port
  setupRxQueues "Unable to setup RX queue " port 1 socket memoryPool
  startPort port
  let ringBuffer : Pointer ← ask (.ringCreate "ring_buffer_1" 1024)
  failIf (ringBuffer = none) "Unable to create ring buffer. RTE errno:  "
  remoteLaunch .processPackets (logicalCores.getD 1 0)
  let _ ← ask (.readPacketsFromInterface port.toUInt32)
  let _ ← ask (.ealWaitLcore (logicalCores.getD 1 0))
  finish

/-- `6-receive-side-scaling` (main.cpp:68-256). -/
def ReceiveSideScaling.main (rteMaxEthports : ℕ) : Main Empty := do
  initEal
  let logicalCores ← requireTwoLcores
  let ports ← detectPorts rteMaxEthports
  let port := ports.portIds 0
  let memoryPool : Pointer ← ask (.pktmbufPoolCreate "mempool_1" 1023 512)
  let (returnVal, devInfo) ← (ask (.ethDevInfoGet port) : Main (ℤ × DevInfo))
  failIf (returnVal ≠ 0)
    ("Error occurred while getting device info (port " ++ toString port ++
      "). Return code: " ++ toString returnVal)
  failIf (devInfo.maxRxQueues ≤ 1)
    ("Total Rx queues: " ++ toString devInfo.nbRxQueues ++ " found. Port Id: " ++
      toString port ++
      ". Atleast two Rx queues are required to test RSS (Receive Side Scaling) in this tutorial. ")
  configurePort port 2 0 ⟨true, 0⟩
  let socket ← queueSocket port
  setupRxQueues "Unable to setup Rx queue " port 2 socket memoryPool
  startPort port
  remoteLaunch (.readPacketsFromInterface Rss.workerWord) (logicalCores.getD 1 0)
  let _ ← ask (.readPacketsFromInterface Rss.mainWord)
  let _ ← ask (.ealWaitLcore (logicalCores.getD 1 0))
  finish

/-! ## The processes that share a ring -/

/-- The branch of the primary (8-multiprocess-communication/main.cpp:250-284). -/
def Multiprocess.primary (ringBufferName : String) (timestampDynfieldOffset : UInt64) :
    Main Unit := do
  let memoryBufferPool : Pointer ← ask (.pktmbufPoolCreate "memory_buffer_pool_1" 2048 512)
  failIf (memoryBufferPool = none) "Unable to create a new memory buffer pool. rte errno: "
  let ringBuffer : Pointer ← ask (.ringCreate ringBufferName 512)
  failIf (ringBuffer = none)
    ("Unable to create ring buffer: " ++ ringBufferName ++ " RTE errno: ")
  let _ ← ask (.generatePackets memoryBufferPool ringBuffer timestampDynfieldOffset)
  let _ ← ask (.ringFree ringBuffer)

/-- The branch of the secondary (8-multiprocess-communication/main.cpp:285-300). -/
def Multiprocess.secondary (ringBufferName : String) (timestampDynfieldOffset : UInt64) :
    Main Unit := do
  let ringBuffer : Pointer ← ask (.ringLookup ringBufferName)
  failIf (ringBuffer = none)
    ("Unable to lookup for ring buffer: " ++ ringBufferName ++ " RTE errno: ")
  let _ ← ask (.processPackets ringBuffer timestampDynfieldOffset)

/-- The branch of a process of the given type. -/
def Multiprocess.routine (procType : DpdkTutorials.Multiprocess.ProcType)
    (ringBufferName : String) (timestampDynfieldOffset : UInt64) : Main Unit :=
  match procType with
  | .primary => Multiprocess.primary ringBufferName timestampDynfieldOffset
  | .secondary => Multiprocess.secondary ringBufferName timestampDynfieldOffset
  | .auto | .invalid => pure ()

/-- The part of `main` from the registration of the timestamp field on
    (8-multiprocess-communication/main.cpp:237-304). -/
def Multiprocess.exchange (ringBufferName : String) : Main Empty := do
  -- an `int` is assigned to a `uint64_t`
  let registered : Int32 ← ask .mbufDynfieldRegister
  let timestampDynfieldOffset := registered.toInt64.toUInt64
  failIf (timestampDynfieldOffset < 0) "Cannot register mbuf dynfield: dynfield_ts. RTE Errno: "
  let procType : DpdkTutorials.Multiprocess.ProcType ← ask .ealProcessType
  Multiprocess.routine procType ringBufferName timestampDynfieldOffset
  finish

/-- `8-multiprocess-communication` (main.cpp:166-305), with the arguments from
    `argv + return_val` on. -/
def Multiprocess.main (argv : List String) : Main Empty := do
  initEal
  failIf (argv.length < 2) "ring buffer name not provided in command line arguments. "
  let ringBufferName := argv.getD 1 ""
  failIf ringBufferName.isEmpty "ring buffer name is empty. "
  let logicalCores : List ℕ ← ask .lcoreForeach
  failIf (logicalCores.length ≠ 1) "One logical core is required to run this DPDK application. "
  Multiprocess.exchange ringBufferName

/-! ## The packet generator -/

/-- Prints an error and the usage, and exits without `rte_eal_cleanup`. -/
def PacketGenerator.rejectArguments {α : Type} (text : String) : Main α := do
  let _ ← ask (.report text)
  let _ ← ask .applicationUsage
  .exit 1

/-- The argument loop and the checks of its result
    (9-packet-generator/main.cpp:466-504). Its loop is run for at most `fuel`
    tests of its condition. -/
def PacketGenerator.parseArguments (argv : List Generator.CString) (fuel : ℕ) :
    Main Generator.Options :=
  match Generator.parseLoop argv fuel 0 ⟨[], 0⟩ with
  | none => .hang
  | some .exit => rejectArguments "Invalid packets per second value specified. "
  | some (.done o) => do
    if o.outputPort = [] then
      rejectArguments "Output port not specified. "
    else if o.packetsPerSecond = 0 then
      rejectArguments "Packets per second value not specified. "
    else
      pure o

/-- The port of the given name; 65535 if there is none, and `main` goes on
    (9-packet-generator/main.cpp:530-533). -/
def PacketGenerator.findOutputPort (outputPort : Generator.CString) : Main UInt16 := do
  let (returnVal, id) ← (ask (.ethDevGetPortByName outputPort) : Main (ℤ × UInt16))
  if returnVal ≠ 0 then
    let _ ← ask (.report ("Unable to get port id against port: " ++ String.ofList outputPort))
    pure 65535
  else
    pure id

/-- Stops and closes the port, calls `rte_eal_cleanup` and exits. -/
def PacketGenerator.closeAndAbort {α : Type} (outputPortId : UInt16) : Main α := do
  let _ ← ask (.ethDevStop outputPortId)
  let _ ← ask (.ethDevClose outputPortId)
  abort

/-- The preparation of the pool and its check (9-packet-generator/main.cpp:639-644). -/
def PacketGenerator.preparePool (outputPortId : UInt16) : Main Unit := do
  let prepared : Bool ← ask .prepareMemoryPool
  if prepared then
    pure ()
  else
    closeAndAbort outputPortId

/-- The launch of the transmission routine and its check
    (9-packet-generator/main.cpp:647-657). -/
def PacketGenerator.launch (params : Generator.PacketTransmissionThreadParams)
    (outputPortId : UInt16) (lcore : ℕ) : Main Unit := do
  let returnVal : ℤ ← ask (.ealRemoteLaunch (.transmitPacketsFromInterface params) lcore)
  if returnVal = 0 then
    pure ()
  else
    let _ ← ask (.report (
      "Unable to launch packet transmission routine on the logical core: %d. Return code: %d" ++
      toString lcore ++ toString returnVal))
    closeAndAbort outputPortId

/-- The part of `main` from the check of the device on
    (9-packet-generator/main.cpp:535-673). -/
def PacketGenerator.transmit (outputPortId : UInt16) (o : Generator.Options) : Main Empty := do
  let (supported, devInfo) ← checkDeviceOffloadingSupport outputPortId
  abortIf (!supported)
  let logicalCores : List ℕ ← ask .lcoreForeach
  failIf (logicalCores.length ≠ 2) "Two logical cores are required to run this DPDK application. "
  let memoryPool : Pointer ← ask (.pktmbufPoolCreate "mempool_1" Generator.memoryPoolSize 512)
  configurePort outputPortId 0 1 ⟨false, devInfo.txOffloadCapa &&& rteEthTxOffloadIpv4Cksum⟩
  let socket ← queueSocket outputPortId
  setupRxQueues "Unable to setup RX queue " outputPortId 0 socket memoryPool
  setupTxQueues outputPortId 1 1024 socket
  startPort outputPortId
  preparePool outputPortId
  launch (Generator.threadParams outputPortId.toNat o) outputPortId (logicalCores.getD 1 0)
  let _ ← ask (.getAndPrintNicStatistics outputPortId)
  forM logicalCores.tail fun lcore => ask (.ealWaitLcore lcore)
  finish

/-- `9-packet-generator` (main.cpp:429-674), with the arguments from
    `argv + return_val` on. -/
def PacketGenerator.main (rteMaxEthports : ℕ) (argv : List Generator.CString) (fuel : ℕ) :
    Main Empty := do
  initEal
  let o ← PacketGenerator.parseArguments argv fuel
  let _ ← detectPorts rteMaxEthports
  let outputPortId ← PacketGenerator.findOutputPort o.outputPort
  PacketGenerator.transmit outputPortId o

end DpdkTutorials.Startup

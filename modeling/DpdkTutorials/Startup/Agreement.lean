import DpdkTutorials.Startup.Mains

/-!
# The checks of `main` in the other parts of this development

The processes that share a ring and the packet generator are modelled elsewhere
from their routines on, and start there with a summary of the checks of `main`.
The summaries agree with the `main` functions.

* `enters_iff_launch`: a process enters the routine that `Launch.main` gives.
* `entersStatistics_iff`: `main` of the packet generator gets past the launch of
  the transmission routine exactly under `Accepts` and `Setup.ReachesTransmit`.
-/

namespace DpdkTutorials.Startup

open DpdkTutorials.Common DpdkTutorials.Common.Program DpdkTutorials.Dpdk

variable {d : Answers}

/-! ## The processes that share a ring -/

/-- The call does not enter the routine `r`. -/
def Call.Avoids (r : DpdkTutorials.Multiprocess.Routine) : Call → Prop
  | .generatePackets .. => r ≠ .generatePackets
  | .processPackets .. => r ≠ .processPackets
  | _ => True

/-- In its run the program enters the routine `r`. -/
def Enters {α : Type} (d : Answers) (p : Main α) (r : DpdkTutorials.Multiprocess.Routine) : Prop :=
  ¬ Always d (Call.Avoids r) p

/-- What `main` gets from its command line and from the answers `d`. -/
def launchOf (d : Answers) (argv : List String) : DpdkTutorials.Multiprocess.Launch where
  argv := argv
  logicalCores := d .lcoreForeach
  timestampDynfieldOffset := (d .mbufDynfieldRegister).toInt64.toUInt64
  procType := d .ealProcessType
  poolCreated := (d (.pktmbufPoolCreate "memory_buffer_pool_1" 2048 512)).isSome
  ringCreated := (d (.ringCreate (argv.getD 1 "") 512)).isSome

theorem avoids_of_setup {α : Type} {r : DpdkTutorials.Multiprocess.Routine} {p : Main α}
    (h : Always d Call.IsSetup p) : Always d (Call.Avoids r) p := by
  refine h.mono ?_
  intro c hsetup
  cases c <;> first | exact hsetup.elim | trivial

theorem enters_primary {ringBufferName : String} {offset : UInt64}
    {r : DpdkTutorials.Multiprocess.Routine} :
    Enters d (Multiprocess.primary ringBufferName offset) r ↔
      (d (.pktmbufPoolCreate "memory_buffer_pool_1" 2048 512)).isSome ∧
        (d (.ringCreate ringBufferName 512)).isSome ∧ r = .generatePackets := by
  simp [Enters, Multiprocess.primary, avoids_of_setup, Call.Avoids, Option.isSome_iff_ne_none]

theorem enters_secondary {ringBufferName : String} {offset : UInt64}
    {r : DpdkTutorials.Multiprocess.Routine} :
    Enters d (Multiprocess.secondary ringBufferName offset) r ↔
      (d (.ringLookup ringBufferName)).isSome ∧ r = .processPackets := by
  simp [Enters, Multiprocess.secondary, avoids_of_setup, Call.Avoids, Option.isSome_iff_ne_none]

theorem enters_main (hinit : 0 ≤ d .ealInit) {argv : List String}
    {r : DpdkTutorials.Multiprocess.Routine} :
    Enters d (Multiprocess.main argv) r ↔
      ¬ argv.length < 2 ∧ ¬ (argv.getD 1 "").isEmpty ∧ (d .lcoreForeach).length = 1 ∧
        Enters d (Multiprocess.routine (d .ealProcessType) (argv.getD 1 "")
          (d .mbufDynfieldRegister).toInt64.toUInt64) r := by
  simp [Enters, Multiprocess.main, Multiprocess.exchange, avoids_of_setup, Call.Avoids, hinit]

theorem enters_iff_launch (hinit : 0 ≤ d .ealInit) {argv : List String}
    {r : DpdkTutorials.Multiprocess.Routine} :
    Enters d (Multiprocess.main argv) r ↔
      (launchOf d argv).main (d (.ringLookup (argv.getD 1 ""))).isSome = .ok (some r) := by
  rw [enters_main hinit]
  unfold DpdkTutorials.Multiprocess.Launch.main
  by_cases hargc : argv.length < 2
  · simp [launchOf, hargc]
  by_cases hname : (argv.getD 1 "").isEmpty = true
  · simp only [launchOf, hargc, hname, if_true, if_false]
    simp
  by_cases hlcores : (d .lcoreForeach).length = 1
  · simp only [launchOf, hargc, hname, hlcores, UInt64.not_lt_zero, if_false, ne_eq,
      not_true_eq_false, not_false_eq_true, true_and, Bool.false_eq_true]
    cases d .ealProcessType with
    | primary =>
      show Enters d (Multiprocess.primary _ _) r ↔ _
      rw [enters_primary]
      by_cases hpool : (d (.pktmbufPoolCreate "memory_buffer_pool_1" 2048 512)).isSome = true
      · by_cases hring : (d (.ringCreate (argv.getD 1 "") 512)).isSome = true
        · simp only [hpool, hring]
          simp [eq_comm]
        · simp only [hpool, hring]
          simp
      · simp only [hpool]
        simp
    | secondary =>
      show Enters d (Multiprocess.secondary _ _) r ↔ _
      rw [enters_secondary]
      by_cases hring : (d (.ringLookup (argv.getD 1 ""))).isSome = true
      · simp only [hring]
        simp [eq_comm]
      · simp only [hring]
        simp
    | auto => simp [Enters, Multiprocess.routine]
    | invalid => simp [Enters, Multiprocess.routine]
  · simp only [launchOf, hargc, hname, hlcores, if_true, if_false, ne_eq, not_false_eq_true]
    simp

/-! ## The packet generator -/

section PacketGenerator

open PacketGenerator Generator

/-- The results of the checks `main` makes from the query of the device on. -/
def setupOf (d : Answers) (outputPortId : UInt16) (o : Options) : Setup where
  txOffloadCapa := (d (.ethDevInfoGet outputPortId)).2.txOffloadCapa
  devInfoGet := (d (.ethDevInfoGet outputPortId)).1
  logicalCores := (d .lcoreForeach).length
  devConfigure conf := d (.ethDevConfigure outputPortId 0 1 ⟨false, conf.txOffloads⟩)
  txQueueSetup := d (.ethTxQueueSetup outputPortId 0 1024 (socketOf d outputPortId))
  devStart := d (.ethDevStart outputPortId)
  remoteLaunch := d (.ealRemoteLaunch
    (.transmitPacketsFromInterface (threadParams outputPortId.toNat o))
    ((d .lcoreForeach).getD 1 0))

/-- The call is not that of the statistics routine, the first one after the launch. -/
def Call.BeforeStatistics : Call → Prop
  | .getAndPrintNicStatistics _ => False
  | _ => True

theorem before_of_setup {α : Type} {p : Main α} (h : Always d Call.IsSetup p) :
    Always d Call.BeforeStatistics p := by
  refine h.mono ?_
  intro c hsetup
  cases c <;> first | exact hsetup.elim | trivial

@[simp] theorem preliminary_closeAndAbort {α : Type} {outputPortId : UInt16} :
    Preliminary d (closeAndAbort outputPortId : Main α) := by
  simp [closeAndAbort, Call.IsPreliminary, Call.IsSetup]

@[simp] theorem not_returns_closeAndAbort {α : Type} {outputPortId : UInt16} {a : α} :
    ¬ Returns d (closeAndAbort outputPortId) a := by
  simp [closeAndAbort]

@[simp] theorem preliminary_preparePool {outputPortId : UInt16} :
    Preliminary d (preparePool outputPortId) := by
  simp [preparePool, Call.IsPreliminary, Call.IsSetup]

@[simp] theorem returns_preparePool {outputPortId : UInt16} {a : Unit} :
    Returns d (preparePool outputPortId) a ↔ d .prepareMemoryPool = true := by
  simp [preparePool]

@[simp] theorem setup_launch {params : PacketTransmissionThreadParams} {outputPortId : UInt16}
    {lcore : ℕ} : Always d Call.IsSetup (PacketGenerator.launch params outputPortId lcore) := by
  simp [PacketGenerator.launch, Call.IsSetup]

@[simp] theorem returns_launch {params : PacketTransmissionThreadParams} {outputPortId : UInt16}
    {lcore : ℕ} {a : Unit} :
    Returns d (PacketGenerator.launch params outputPortId lcore) a ↔
      d (.ealRemoteLaunch (.transmitPacketsFromInterface params) lcore) = 0 := by
  simp [PacketGenerator.launch]

theorem entersStatistics_transmit {outputPortId : UInt16} {o : Options} :
    ¬ Always d Call.BeforeStatistics (transmit outputPortId o) ↔
      (setupOf d outputPortId o).ReachesTransmit ∧ d .prepareMemoryPool = true := by
  have hchecks : ¬ Always d Call.BeforeStatistics (transmit outputPortId o) ↔
      (setupOf d outputPortId o).devInfoGet = 0 ∧ (setupOf d outputPortId o).logicalCores = 2 ∧
        (setupOf d outputPortId o).devConfigure (setupOf d outputPortId o).portConf = 0 ∧
        0 ≤ (setupOf d outputPortId o).txQueueSetup ∧ 0 ≤ (setupOf d outputPortId o).devStart ∧
        d .prepareMemoryPool = true ∧ (setupOf d outputPortId o).remoteLaunch = 0 := by
    simp [transmit, before_of_setup, Call.BeforeStatistics, setupOf, Setup.portConf,
      -List.getD_eq_getElem?_getD]
  rw [hchecks]
  constructor
  · rintro ⟨hinfo, hlcores, hconf, htx, hstart, hprepare, hlaunch⟩
    exact ⟨⟨hinfo, hlcores, hconf, Int.not_lt.mpr htx, Int.not_lt.mpr hstart, hlaunch⟩, hprepare⟩
  · rintro ⟨hreaches, hprepare⟩
    exact ⟨hreaches.devInfoGet, hreaches.logicalCores, hreaches.devConfigure,
      Int.not_lt.mp hreaches.txQueueSetup, Int.not_lt.mp hreaches.devStart, hprepare,
      hreaches.remoteLaunch⟩

theorem returns_parseArguments {argv : List CString} {fuel : ℕ} {o : Options} :
    Returns d (parseArguments argv fuel) o ↔
      parseLoop argv fuel 0 ⟨[], 0⟩ = some (.done o) ∧ o.outputPort ≠ [] ∧
        o.packetsPerSecond ≠ 0 := by
  unfold parseArguments
  cases parseLoop argv fuel 0 ⟨[], 0⟩ with
  | none => simp [Returns, result]
  | some r =>
    cases r with
    | exit => simp [rejectArguments]
    | done o' =>
      by_cases hport : o'.outputPort = []
      · simp only [hport, if_true, rejectArguments, returns_bind, returns_exit, and_false,
          exists_false, false_iff]
        rintro ⟨ho, hne, -⟩
        obtain rfl := Outcome.done.inj (Option.some.inj ho)
        exact hne hport
      · by_cases hrate : o'.packetsPerSecond = 0
        · simp only [hport, hrate, if_true, if_false, rejectArguments, returns_bind, returns_exit,
            and_false, exists_false, false_iff]
          rintro ⟨ho, -, hne⟩
          obtain rfl := Outcome.done.inj (Option.some.inj ho)
          exact hne hrate
        · simp only [hport, hrate, if_false, returns_pure]
          constructor
          · rintro rfl
            exact ⟨rfl, hport, hrate⟩
          · rintro ⟨ho, -, -⟩
            exact Outcome.done.inj (Option.some.inj ho)

/-- The port that `findOutputPort` returns. -/
def outputPortOf (d : Answers) (outputPort : CString) : UInt16 :=
  if (d (.ethDevGetPortByName outputPort)).1 = 0 then (d (.ethDevGetPortByName outputPort)).2
  else 65535

theorem returns_findOutputPort {outputPort : CString} {port : UInt16} :
    Returns d (findOutputPort outputPort) port ↔ outputPortOf d outputPort = port := by
  by_cases hfound : (d (.ethDevGetPortByName outputPort)).1 = 0
  · simp [findOutputPort, outputPortOf, hfound]
  · simp [findOutputPort, outputPortOf, hfound]

theorem preliminary_parseArguments {argv : List CString} {fuel : ℕ} :
    Preliminary d (parseArguments argv fuel) := by
  unfold parseArguments
  cases parseLoop argv fuel 0 ⟨[], 0⟩ with
  | none => exact ⟨nofun, nofun⟩
  | some r => cases r <;> simp [rejectArguments, Call.IsPreliminary, Call.IsSetup]

theorem preliminary_findOutputPort {outputPort : CString} :
    Preliminary d (findOutputPort outputPort) := by
  simp [findOutputPort, Call.IsPreliminary, Call.IsSetup]

/-- The run gets past the launch of the transmission routine, after enough
    iterations of the argument loop. -/
theorem entersStatistics_iff (hinit : 0 ≤ d .ealInit) {rteMaxEthports : ℕ}
    {argv : List CString} :
    (∃ fuel, ¬ Always d Call.BeforeStatistics (PacketGenerator.main rteMaxEthports argv fuel)) ↔
      ∃ o, Accepts argv o ∧ Detectable rteMaxEthports (d .ethForeachDev) ∧
        (setupOf d (outputPortOf d o.outputPort) o).ReachesTransmit ∧
        d .prepareMemoryPool = true := by
  have hmain (fuel : ℕ) :
      ¬ Always d Call.BeforeStatistics (PacketGenerator.main rteMaxEthports argv fuel) ↔
        ∃ o, Returns d (parseArguments argv fuel) o ∧
          Detectable rteMaxEthports (d .ethForeachDev) ∧
          ¬ Always d Call.BeforeStatistics (transmit (outputPortOf d o.outputPort) o) := by
    simp [PacketGenerator.main, before_of_setup, preliminary_parseArguments,
      preliminary_findOutputPort,
      returns_findOutputPort, returns_detectPorts, hinit]
  simp only [hmain, entersStatistics_transmit, returns_parseArguments]
  constructor
  · rintro ⟨fuel, o, ⟨hparse, hport, hrate⟩, hports, hreaches⟩
    exact ⟨o, ⟨⟨fuel, hparse⟩, hport, hrate⟩, hports, hreaches⟩
  · rintro ⟨o, ⟨⟨fuel, hparse⟩, hport, hrate⟩, hports, hreaches⟩
    exact ⟨fuel, o, ⟨hparse, hport, hrate⟩, hports, hreaches⟩

end PacketGenerator

end DpdkTutorials.Startup

import DpdkTutorials.Startup.Mains

/-!
# The release of the EAL

After `rte_eal_init` has succeeded every exit should call `rte_eal_cleanup`
first. The exits for failed calls of DPDK do so. Two of those for what the user
passed do not: too few logical cores in the tutorials 3 and 6
(3-processing-a-packet/main.cpp:159-163), and arguments the packet generator
cannot use (9-packet-generator/main.cpp:482-504).

* `leaks_afterInit`: what leaks after the initialization leaks over all.
* `releasesEal_processing`, `releasesEal_rss`, `releasesEal_generator`: the runs
  in which the EAL is released.
* `releasesEal_iff`: all four programs.
-/

namespace DpdkTutorials.Startup

open DpdkTutorials.Common DpdkTutorials.Common.Program DpdkTutorials.Dpdk

/-! ## Specification -/

/-- Any exit comes after exactly one `rte_eal_cleanup`. -/
def Releases (d : Answers) (p : Main Empty) : Prop :=
  ∀ status, p.result d = .exit status → (p.calls d).countP Call.isCleanup = 1

/-- If the EAL is initialized and the process ends, then `rte_eal_cleanup` has
    been called exactly once. -/
def ReleasesEal (d : Answers) (p : Main Empty) : Prop := 0 ≤ d .ealInit → Releases d p

variable {d : Answers}

theorem Releases.of_parts {p : Main Empty} (h : ReleasesOnExit d Call.isCleanup p) :
    Releases d p := fun _ => h.count

theorem not_releases_of_leaks {p : Main Empty} (h : LeaksOnExit d Call.isCleanup p) :
    ¬ Releases d p := by
  obtain ⟨status, hexit, hcount⟩ := h
  intro hreleases
  have := hreleases status hexit
  omega

/-- Once the EAL is initialized the rest of a `main` decides. -/
theorem leaks_afterInit (hinit : 0 ≤ d .ealInit) {next : Main Empty}
    (hnext : LeaksOnExit d Call.isCleanup next) :
    ¬ Releases d (initEal >>= fun _ => next) :=
  not_releases_of_leaks
    (.after (a := ()) (releases_initEal hinit) (returns_initEal.mpr hinit) hnext)

/-! ## The programs that receive -/

theorem releases_requireTwoLcores (hlcores : 2 ≤ (d .lcoreForeach).length) :
    ReleasesOnExit d Call.isCleanup requireTwoLcores := by
  refine .bind (.perform rfl) fun lcores hreturns => .ite (fun hlt => ?_) fun _ => .pure _
  obtain rfl := returns_perform.mp hreturns
  exact absurd hlt (Nat.not_lt.mpr hlcores)

/-- With fewer than two logical cores the program exits at once. -/
theorem leaks_requireTwoLcores (hlcores : (d .lcoreForeach).length < 2) :
    LeaksOnExit d Call.isCleanup requireTwoLcores := by
  apply LeaksOnExit.perform rfl
  show LeaksOnExit d Call.isCleanup (if (d .lcoreForeach).length < 2 then _ else _)
  rw [if_pos hlcores]
  exact .perform rfl (.exit 1)

theorem releasesEal_processing {rteMaxEthports : ℕ} :
    ReleasesEal d (ProcessingAPacket.main rteMaxEthports) ↔
      (0 ≤ d .ealInit → 2 ≤ (d .lcoreForeach).length) := by
  constructor
  · intro h hinit
    by_contra hlcores
    exact leaks_afterInit hinit (.bind (leaks_requireTwoLcores (by omega)) _) (h hinit)
  · intro h hinit
    apply Releases.of_parts
    refine .bind (releases_initEal hinit) fun _ _ =>
      .bind (releases_requireTwoLcores (h hinit)) fun _ _ => ?_
    refine .bind releases_detectPorts fun _ _ => .bind (.perform rfl) fun _ _ => ?_
    refine .bind releases_configurePort fun _ _ => .bind releases_queueSocket fun _ _ => ?_
    refine .bind releases_setupRxQueues fun _ _ => .bind releases_startPort fun _ _ => ?_
    refine .bind (.perform rfl) fun _ _ => .bind releases_failIf fun _ _ => ?_
    refine .bind releases_remoteLaunch fun _ _ => .bind (.perform rfl) fun _ _ => ?_
    exact .bind (.perform rfl) fun _ _ => releases_finish

theorem releasesEal_rss {rteMaxEthports : ℕ} :
    ReleasesEal d (ReceiveSideScaling.main rteMaxEthports) ↔
      (0 ≤ d .ealInit → 2 ≤ (d .lcoreForeach).length) := by
  constructor
  · intro h hinit
    by_contra hlcores
    exact leaks_afterInit hinit (.bind (leaks_requireTwoLcores (by omega)) _) (h hinit)
  · intro h hinit
    apply Releases.of_parts
    refine .bind (releases_initEal hinit) fun _ _ =>
      .bind (releases_requireTwoLcores (h hinit)) fun _ _ => ?_
    refine .bind releases_detectPorts fun _ _ => .bind (.perform rfl) fun _ _ => ?_
    refine .bind (.perform rfl) fun _ _ => ?_
    refine .bind releases_failIf fun _ _ => .bind releases_failIf fun _ _ => ?_
    refine .bind releases_configurePort fun _ _ => .bind releases_queueSocket fun _ _ => ?_
    refine .bind releases_setupRxQueues fun _ _ => .bind releases_startPort fun _ _ => ?_
    refine .bind releases_remoteLaunch fun _ _ => .bind (.perform rfl) fun _ _ => ?_
    exact .bind (.perform rfl) fun _ _ => releases_finish

/-! ## The processes that share a ring -/

theorem releases_primary {ringBufferName : String} {offset : UInt64} :
    ReleasesOnExit d Call.isCleanup (Multiprocess.primary ringBufferName offset) := by
  refine .bind (.perform rfl) fun _ _ => .bind releases_failIf fun _ _ => ?_
  refine .bind (.perform rfl) fun _ _ => .bind releases_failIf fun _ _ => ?_
  exact .bind (.perform rfl) fun _ _ => .bind (.perform rfl) fun _ _ => .pure _

theorem releases_secondary {ringBufferName : String} {offset : UInt64} :
    ReleasesOnExit d Call.isCleanup (Multiprocess.secondary ringBufferName offset) := by
  refine .bind (.perform rfl) fun _ _ => .bind releases_failIf fun _ _ => ?_
  exact .bind (.perform rfl) fun _ _ => .pure _

theorem releases_routine {procType : DpdkTutorials.Multiprocess.ProcType}
    {ringBufferName : String} {offset : UInt64} :
    ReleasesOnExit d Call.isCleanup (Multiprocess.routine procType ringBufferName offset) := by
  cases procType with
  | primary => exact releases_primary
  | secondary => exact releases_secondary
  | auto => exact .pure _
  | invalid => exact .pure _

theorem releasesEal_multiprocess {argv : List String} :
    ReleasesEal d (Multiprocess.main argv) := by
  intro hinit
  apply Releases.of_parts
  refine .bind (releases_initEal hinit) fun _ _ => ?_
  refine .bind releases_failIf fun _ _ => .bind releases_failIf fun _ _ => ?_
  refine .bind (.perform rfl) fun _ _ => .bind releases_failIf fun _ _ => ?_
  refine .bind (.perform rfl) fun _ _ => .bind releases_failIf fun _ _ => ?_
  exact .bind (.perform rfl) fun _ _ => .bind releases_routine fun _ _ => releases_finish

/-! ## The packet generator -/

section PacketGenerator

open PacketGenerator Generator

theorem leaks_rejectArguments {α : Type} {text : String} :
    LeaksOnExit d Call.isCleanup (rejectArguments text : Main α) :=
  .perform rfl (.perform rfl (.exit 1))

theorem releases_parseArguments {argv : List CString} (hargs : NeverRejected argv) (fuel : ℕ) :
    ReleasesOnExit d Call.isCleanup (parseArguments argv fuel) := by
  unfold parseArguments
  cases hparse : parseLoop argv fuel 0 ⟨[], 0⟩ with
  | none => rfl
  | some r =>
    obtain ⟨o, rfl, hport, hrate⟩ := neverRejected_iff.mp hargs r ⟨fuel, hparse⟩
    exact .ite (fun h => absurd h hport) fun _ =>
      .ite (fun h => absurd h hrate) fun _ => .pure _

/-- Arguments that are rejected are rejected without a release. -/
theorem leaks_parseArguments {argv : List CString} (hargs : ¬ NeverRejected argv) :
    ∃ fuel, LeaksOnExit d Call.isCleanup (parseArguments argv fuel) := by
  rw [neverRejected_iff] at hargs
  push Not at hargs
  obtain ⟨r, ⟨fuel, hparse⟩, hrejected⟩ := hargs
  refine ⟨fuel, ?_⟩
  unfold parseArguments
  rw [hparse]
  cases r with
  | exit => exact leaks_rejectArguments
  | done o =>
    show LeaksOnExit d Call.isCleanup (if o.outputPort = [] then _ else _)
    split_ifs with hport hrate
    · exact leaks_rejectArguments
    · exact leaks_rejectArguments
    · exact absurd (hrejected o rfl hport) hrate

theorem releases_findOutputPort {outputPort : CString} :
    ReleasesOnExit d Call.isCleanup (findOutputPort outputPort) := by
  refine .bind (.perform rfl) fun _ _ => .ite (fun _ => ?_) fun _ => .pure _
  exact .bind (.perform rfl) fun _ _ => .pure _

theorem releases_closeAndAbort {α : Type} {outputPortId : UInt16} :
    ReleasesOnExit d Call.isCleanup (closeAndAbort outputPortId : Main α) :=
  .bind (.perform rfl) fun _ _ => .bind (.perform rfl) fun _ _ => releases_abort

theorem releases_preparePool {outputPortId : UInt16} :
    ReleasesOnExit d Call.isCleanup (preparePool outputPortId) :=
  .bind (.perform rfl) fun _ _ => .ite (fun _ => .pure _) fun _ => releases_closeAndAbort

theorem releases_launch {params : PacketTransmissionThreadParams} {outputPortId : UInt16}
    {lcore : ℕ} :
    ReleasesOnExit d Call.isCleanup (PacketGenerator.launch params outputPortId lcore) := by
  refine .bind (.perform rfl) fun _ _ => .ite (fun _ => .pure _) fun _ => ?_
  exact .bind (.perform rfl) fun _ _ => releases_closeAndAbort

theorem releases_transmit {outputPortId : UInt16} {o : Options} :
    ReleasesOnExit d Call.isCleanup (transmit outputPortId o) := by
  refine .bind releases_checkDeviceOffloadingSupport fun _ _ => ?_
  refine .bind releases_abortIf fun _ _ => .bind (.perform rfl) fun _ _ => ?_
  refine .bind releases_failIf fun _ _ => .bind (.perform rfl) fun _ _ => ?_
  refine .bind releases_configurePort fun _ _ => .bind releases_queueSocket fun _ _ => ?_
  refine .bind releases_setupRxQueues fun _ _ => .bind releases_setupTxQueues fun _ _ => ?_
  refine .bind releases_startPort fun _ _ => .bind releases_preparePool fun _ _ => ?_
  refine .bind releases_launch fun _ _ => .bind (.perform rfl) fun _ _ => ?_
  exact .bind (.forM fun _ _ => .perform rfl) fun _ _ => releases_finish

theorem releasesEal_generator {rteMaxEthports : ℕ} {argv : List CString} :
    (∀ fuel, ReleasesEal d (PacketGenerator.main rteMaxEthports argv fuel)) ↔
      (0 ≤ d .ealInit → NeverRejected argv) := by
  constructor
  · intro h hinit
    by_contra hargs
    obtain ⟨fuel, hleaks⟩ := leaks_parseArguments hargs
    exact leaks_afterInit hinit (hleaks.bind _) (h fuel hinit)
  · intro h fuel hinit
    apply Releases.of_parts
    refine .bind (releases_initEal hinit) fun _ _ => ?_
    refine .bind (releases_parseArguments (h hinit) fuel) fun _ _ => ?_
    refine .bind releases_detectPorts fun _ _ => .bind releases_findOutputPort fun _ _ => ?_
    exact releases_transmit

end PacketGenerator

/-! ## All four programs -/

/-- When the EAL is released in every run: 3 and 6 need two logical cores, 9
    arguments that it does not reject, and 8 nothing. -/
theorem releasesEal_iff (d : Answers) (rteMaxEthports : ℕ) (ringArgs : List String)
    (argv : List Generator.CString) :
    (ReleasesEal d (ProcessingAPacket.main rteMaxEthports) ↔
      (0 ≤ d .ealInit → 2 ≤ (d .lcoreForeach).length)) ∧
    (ReleasesEal d (ReceiveSideScaling.main rteMaxEthports) ↔
      (0 ≤ d .ealInit → 2 ≤ (d .lcoreForeach).length)) ∧
    ReleasesEal d (Multiprocess.main ringArgs) ∧
    ((∀ fuel, ReleasesEal d (PacketGenerator.main rteMaxEthports argv fuel)) ↔
      (0 ≤ d .ealInit → Generator.NeverRejected argv)) :=
  ⟨releasesEal_processing, releasesEal_rss, releasesEal_multiprocess, releasesEal_generator⟩

/-- One logical core for 3 and 6, and no arguments for 9. -/
theorem not_releasesEal :
    ¬ ReleasesEal (working [0] (some 1) 0) (ProcessingAPacket.main 32) ∧
      ¬ ReleasesEal (working [0] (some 1) 0) (ReceiveSideScaling.main 32) ∧
      ¬ ReleasesEal (working [0, 1] (some 1) 0) (PacketGenerator.main 32 [] 1) := by
  refine ⟨?_, ?_, ?_⟩
  · rw [releasesEal_processing]
    intro h
    exact absurd (h (le_refl (0 : ℤ))) (by decide)
  · rw [releasesEal_rss]
    intro h
    exact absurd (h (le_refl (0 : ℤ))) (by decide)
  · intro h
    refine leaks_afterInit (le_refl (0 : ℤ)) (.bind ?_ _) (h (le_refl (0 : ℤ)))
    exact leaks_rejectArguments

end DpdkTutorials.Startup

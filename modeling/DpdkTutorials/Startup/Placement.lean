import DpdkTutorials.Startup.Agreement

/-!
# The logical cores of the worker and of `main`

The tutorials 3, 6 and 9 collect the enabled logical cores in increasing order
and launch their worker on the second one. They take the first one to be the
core `main` runs on, but the main lcore is the user's choice: with
`--main-lcore` it can be the second.

* `PlacesWorker.after`: what comes before the launch does not matter.
* `placesWorker_processing`, `placesWorker_rss`, `placesWorker_generator`: the
  worker is launched on the second logical core, and only that one is waited for.
* `wellPlaced_iff`: the core of `main` is left alone if it is not the second.
-/

namespace DpdkTutorials.Startup

open DpdkTutorials.Common DpdkTutorials.Common.Program DpdkTutorials.Dpdk

/-! ## Specification -/

/-- The logical core on which the call launches a routine. -/
def Call.launchesOn : Call → Option ℕ
  | .ealRemoteLaunch _ lcore => some lcore
  | _ => none

/-- The logical core for whose routine the call waits. -/
def Call.waitsFor : Call → Option ℕ
  | .ealWaitLcore lcore => some lcore
  | _ => none

/-- The logical cores on which a run launches routines. -/
def launchedLcores (d : Answers) (p : Main Empty) : List ℕ :=
  (p.calls d).filterMap Call.launchesOn

/-- The logical cores a run waits for. -/
def waitedLcores (d : Answers) (p : Main Empty) : List ℕ :=
  (p.calls d).filterMap Call.waitsFor

/-- No routine is launched on the core that runs `main`, and when `main` returns
    it has launched one routine and waited for it and for nothing else. -/
structure WellPlaced (d : Answers) (mainLcore : ℕ) (p : Main Empty) : Prop where
  other : ∀ lcore ∈ launchedLcores d p, lcore ≠ mainLcore
  joined : p.result d = .exit 0 →
    ∃ lcore, launchedLcores d p = [lcore] ∧ waitedLcores d p = [lcore]

/-- The logical cores in the order of `RTE_LCORE_FOREACH`. -/
def lcoreList (lcores : Finset ℕ) : List ℕ := lcores.sort (· ≤ ·)

/-- `logicalCores[1]`. -/
def secondLcore (lcores : Finset ℕ) : ℕ := (lcoreList lcores).getD 1 0

/-! ## The parts before the launch -/

/-- The worker, if launched, is launched on `lcore`, and the end of `main` waits
    for that core. -/
structure PlacesWorker (d : Answers) (lcore : ℕ) (p : Main Empty) : Prop where
  launched : ∀ l ∈ launchedLcores d p, l = lcore
  joined : p.result d = .exit 0 → launchedLcores d p = [lcore] ∧ waitedLcores d p = [lcore]

variable {d : Answers}

theorem Call.IsPreliminary.leavesLcores {c : Call} (h : c.IsPreliminary) :
    c.launchesOn = none ∧ c.waitsFor = none := by
  cases c <;> first | exact h.elim | exact ⟨rfl, rfl⟩

theorem filterMap_of_preliminary {α : Type} {p : Main α} (hp : Preliminary d p) :
    (p.calls d).filterMap Call.launchesOn = [] ∧ (p.calls d).filterMap Call.waitsFor = [] := by
  constructor
  · rw [List.filterMap_eq_nil_iff]
    intro c hc
    exact (hp.calls c hc).leavesLcores.1
  · rw [List.filterMap_eq_nil_iff]
    intro c hc
    exact (hp.calls c hc).leavesLcores.2

/-- A run that ends in the first part launches nothing and does not return from
    `main`; any other run is one of the rest. -/
theorem PlacesWorker.after {α : Type} {p : Main α} {f : α → Main Empty} {lcore : ℕ}
    (hp : Preliminary d p) (hf : ∀ a, Returns d p a → PlacesWorker d lcore (f a)) :
    PlacesWorker d lcore (p >>= f) := by
  obtain ⟨hlaunches, hwaits⟩ := filterMap_of_preliminary hp
  cases hresult : p.result d with
  | value a =>
    obtain ⟨hlaunched, hjoined⟩ := hf a hresult
    have hlaunches' : launchedLcores d (p >>= f) = launchedLcores d (f a) := by
      rw [launchedLcores, calls_bind_of_returns hresult, List.filterMap_append, hlaunches]
      rfl
    have hwaits' : waitedLcores d (p >>= f) = waitedLcores d (f a) := by
      rw [waitedLcores, calls_bind_of_returns hresult, List.filterMap_append, hwaits]
      rfl
    refine ⟨?_, ?_⟩
    · rw [hlaunches']
      exact hlaunched
    · rw [hlaunches', hwaits', result_bind_of_returns hresult]
      exact hjoined
  | exit status =>
    refine ⟨?_, ?_⟩
    · rw [launchedLcores, calls_bind, hresult, List.append_nil, hlaunches]
      exact nofun
    · rw [result_bind, hresult]
      rintro ⟨rfl⟩
      exact absurd rfl (hp.exits 0 hresult)
  | hang =>
    refine ⟨?_, ?_⟩
    · rw [launchedLcores, calls_bind, hresult, List.append_nil, hlaunches]
      exact nofun
    · rw [result_bind, hresult]
      exact nofun

/-- The worker is launched and waited for. -/
theorem PlacesWorker.of_joined {p : Main Empty} {lcore : ℕ}
    (hlaunched : launchedLcores d p = [lcore]) (hwaited : waitedLcores d p = [lcore]) :
    PlacesWorker d lcore p := by
  refine ⟨?_, fun _ => ⟨hlaunched, hwaited⟩⟩
  rw [hlaunched]
  intro l hl
  exact List.mem_singleton.mp hl

theorem preliminary_ask {c : Call} (hc : c.IsPreliminary) : Preliminary d (ask c) :=
  within_perform.mpr hc

/-! ## The programs that receive -/

theorem returns_requireTwoLcores {logicalCores : List ℕ} :
    Returns d requireTwoLcores logicalCores ↔
      2 ≤ (d .lcoreForeach).length ∧ d .lcoreForeach = logicalCores := by
  rw [← Nat.not_lt]
  simp [requireTwoLcores]

theorem preliminary_requireTwoLcores : Preliminary d requireTwoLcores := by
  simp [requireTwoLcores, Call.IsPreliminary, Call.IsSetup]

/-- The end of `main` in the tutorials 3 and 6. -/
theorem placesWorker_join {routine : LaunchedRoutine} {lcore : ℕ} {arg : UInt32} :
    PlacesWorker d lcore (do
      remoteLaunch routine lcore
      let _ ← ask (.readPacketsFromInterface arg)
      let _ ← ask (.ealWaitLcore lcore)
      finish) := by
  by_cases hlaunch : d (.ealRemoteLaunch routine lcore) = 0
  · have hcalls : Program.calls d (do
        remoteLaunch routine lcore
        let _ ← ask (.readPacketsFromInterface arg)
        let _ ← ask (.ealWaitLcore lcore)
        (finish : Main Empty)) =
        [.ealRemoteLaunch routine lcore, .readPacketsFromInterface arg, .ealWaitLcore lcore,
          .ealCleanup] := by
      simp [remoteLaunch, failIf, finish, calls_bind, result_bind, hlaunch]
    apply PlacesWorker.of_joined
    · rw [launchedLcores, hcalls]
      rfl
    · rw [waitedLcores, hcalls]
      rfl
  · refine ⟨?_, ?_⟩
    · simp [launchedLcores, remoteLaunch, failIf, fail, abort, calls_bind, result_bind, hlaunch,
        Call.launchesOn]
    · simp [remoteLaunch, failIf, fail, abort, result_bind, hlaunch]

theorem placesWorker_processing {rteMaxEthports : ℕ} :
    PlacesWorker d ((d .lcoreForeach).getD 1 0) (ProcessingAPacket.main rteMaxEthports) := by
  refine .after preliminary_initEal fun _ _ => .after preliminary_requireTwoLcores ?_
  intro logicalCores hreturns
  obtain ⟨-, rfl⟩ := returns_requireTwoLcores.mp hreturns
  refine .after preliminary_detectPorts fun _ _ => .after (preliminary_ask trivial) fun _ _ => ?_
  refine .after preliminary_configurePort fun _ _ => .after preliminary_queueSocket fun _ _ => ?_
  refine .after preliminary_setupRxQueues fun _ _ => .after preliminary_startPort fun _ _ => ?_
  refine .after (preliminary_ask trivial) fun _ _ => .after preliminary_failIf fun _ _ => ?_
  exact placesWorker_join

theorem placesWorker_rss {rteMaxEthports : ℕ} :
    PlacesWorker d ((d .lcoreForeach).getD 1 0) (ReceiveSideScaling.main rteMaxEthports) := by
  refine .after preliminary_initEal fun _ _ => .after preliminary_requireTwoLcores ?_
  intro logicalCores hreturns
  obtain ⟨-, rfl⟩ := returns_requireTwoLcores.mp hreturns
  refine .after preliminary_detectPorts fun _ _ => .after (preliminary_ask trivial) fun _ _ => ?_
  refine .after (preliminary_ask trivial) fun _ _ => .after preliminary_failIf fun _ _ => ?_
  refine .after preliminary_failIf fun _ _ => .after preliminary_configurePort fun _ _ => ?_
  refine .after preliminary_queueSocket fun _ _ => .after preliminary_setupRxQueues fun _ _ => ?_
  refine .after preliminary_startPort fun _ _ => ?_
  exact placesWorker_join

/-! ## The packet generator -/

section PacketGenerator

open PacketGenerator Generator

/-- The end of `main`, which waits for all logical cores but the first. -/
theorem placesWorker_joinAll {params : PacketTransmissionThreadParams} {outputPortId : UInt16}
    {lcore₀ lcore₁ : ℕ} :
    PlacesWorker d lcore₁ (do
      PacketGenerator.launch params outputPortId lcore₁
      let _ ← ask (.getAndPrintNicStatistics outputPortId)
      forM [lcore₀, lcore₁].tail fun lcore => ask (.ealWaitLcore lcore)
      finish) := by
  by_cases hlaunch : d (.ealRemoteLaunch (.transmitPacketsFromInterface params) lcore₁) = 0
  · have hcalls : Program.calls d (do
        PacketGenerator.launch params outputPortId lcore₁
        let _ ← ask (.getAndPrintNicStatistics outputPortId)
        forM [lcore₀, lcore₁].tail fun lcore => ask (.ealWaitLcore lcore)
        (finish : Main Empty)) =
        [.ealRemoteLaunch (.transmitPacketsFromInterface params) lcore₁,
          .getAndPrintNicStatistics outputPortId, .ealWaitLcore lcore₁, .ealCleanup] := by
      simp [PacketGenerator.launch, finish, calls_bind, result_bind, hlaunch]
    apply PlacesWorker.of_joined
    · rw [launchedLcores, hcalls]
      rfl
    · rw [waitedLcores, hcalls]
      rfl
  · refine ⟨?_, ?_⟩
    · simp [launchedLcores, PacketGenerator.launch, closeAndAbort, abort, calls_bind, result_bind,
        hlaunch, Call.launchesOn]
    · simp [PacketGenerator.launch, closeAndAbort, abort, result_bind, hlaunch]

theorem placesWorker_generator {rteMaxEthports : ℕ} {argv : List CString} {fuel : ℕ} :
    PlacesWorker d ((d .lcoreForeach).getD 1 0)
      (PacketGenerator.main rteMaxEthports argv fuel) := by
  refine .after preliminary_initEal fun _ _ => .after preliminary_parseArguments fun _ _ => ?_
  refine .after preliminary_detectPorts fun _ _ => .after preliminary_findOutputPort fun _ _ => ?_
  refine .after preliminary_checkDeviceOffloadingSupport fun _ _ => ?_
  refine .after preliminary_abortIf fun _ _ => .after (preliminary_ask trivial) ?_
  intro logicalCores hreturns
  obtain rfl := returns_perform.mp hreturns
  refine .after preliminary_failIf fun _ htwo => .after (preliminary_ask trivial) fun _ _ => ?_
  refine .after preliminary_configurePort fun _ _ => .after preliminary_queueSocket fun _ _ => ?_
  refine .after preliminary_setupRxQueues fun _ _ => ?_
  refine .after preliminary_setupTxQueues fun _ _ => .after preliminary_startPort fun _ _ => ?_
  refine .after preliminary_preparePool fun _ _ => ?_
  obtain ⟨lcore₀, lcore₁, hlcores⟩ :=
    List.length_eq_two.mp (not_not.mp (returns_failIf.mp htwo))
  rw [hlcores]
  exact placesWorker_joinAll

end PacketGenerator

/-! ## All three programs -/

variable {lcores : Finset ℕ}

theorem length_lcoreList : (lcoreList lcores).length = lcores.card := lcores.length_sort (· ≤ ·)

theorem succeeds_processing (hcard : 2 ≤ lcores.card) :
    (ProcessingAPacket.main 32).result (working (lcoreList lcores) (some 1) 0) = .exit 0 := by
  rw [← length_lcoreList] at hcard
  rw [ProcessingAPacket.main,
    result_bind_of_returns (a := ()) (returns_initEal.mpr (le_refl (0 : ℤ))),
    result_bind_of_returns (returns_requireTwoLcores.mpr ⟨hcard, rfl⟩)]
  rfl

theorem succeeds_rss (hcard : 2 ≤ lcores.card) :
    (ReceiveSideScaling.main 32).result (working (lcoreList lcores) (some 1) 0) = .exit 0 := by
  rw [← length_lcoreList] at hcard
  rw [ReceiveSideScaling.main,
    result_bind_of_returns (a := ()) (returns_initEal.mpr (le_refl (0 : ℤ))),
    result_bind_of_returns (returns_requireTwoLcores.mpr ⟨hcard, rfl⟩)]
  rfl

theorem succeeds_generator (hcard : lcores.card = 2) :
    ∃ fuel, (PacketGenerator.main 32 (Generator.usageArgs "30000".toList) fuel).result
      (working (lcoreList lcores) (some 1) 0) = .exit 0 := by
  rw [← length_lcoreList] at hcard
  obtain ⟨lcore₀, lcore₁, hlcores⟩ := List.length_eq_two.mp hcard
  obtain ⟨⟨fuel, hparse⟩, hport, hrate⟩ :=
    Generator.accepts_usageArgs Generator.stoi_usage (by decide)
  refine ⟨fuel, ?_⟩
  rw [PacketGenerator.main,
    result_bind_of_returns (a := ()) (returns_initEal.mpr (le_refl (0 : ℤ))),
    result_bind_of_returns (returns_parseArguments.mpr ⟨hparse, hport, hrate⟩), hlcores]
  rfl

theorem PlacesWorker.wellPlaced {p : Main Empty} {lcore mainLcore : ℕ}
    (hp : PlacesWorker d lcore p) (hne : lcore ≠ mainLcore) : WellPlaced d mainLcore p := by
  refine ⟨?_, ?_⟩
  · intro l hl
    rw [hp.launched l hl]
    exact hne
  · intro hexit
    exact ⟨lcore, hp.joined hexit⟩

/-- A run to the end has launched the worker. -/
theorem PlacesWorker.ne_of_succeeds {p : Main Empty} {lcore mainLcore : ℕ}
    (hp : PlacesWorker d lcore p) (hexit : p.result d = .exit 0)
    (hplaced : WellPlaced d mainLcore p) : lcore ≠ mainLcore := by
  apply hplaced.other lcore
  rw [(hp.joined hexit).1]
  exact List.mem_singleton_self lcore

/-- All runs of a program that launches on the second core, one of which gets
    there. Its parameters are `ι`. -/
theorem wellPlaced_runs_iff {ι : Type} {p : ι → Main Empty} {mainLcore : ℕ}
    (hp : ∀ i d, PlacesWorker d ((d .lcoreForeach).getD 1 0) (p i))
    (hsucceeds : ∃ i, (p i).result (working (lcoreList lcores) (some 1) 0) = .exit 0) :
    (∀ i d, d .lcoreForeach = lcoreList lcores → WellPlaced d mainLcore (p i)) ↔
      secondLcore lcores ≠ mainLcore := by
  constructor
  · intro hplaced
    obtain ⟨i, hexit⟩ := hsucceeds
    exact (hp i _).ne_of_succeeds hexit (hplaced i _ rfl)
  · intro hne i d hd
    refine (hp i d).wellPlaced ?_
    rw [hd]
    exact hne

/-- The second logical core has exactly one below it. -/
theorem secondLcore_eq_iff {mainLcore : ℕ} (hmain : mainLcore ∈ lcores) (hcard : 2 ≤ lcores.card) :
    secondLcore lcores = mainLcore ↔ (lcores.filter (· < mainLcore)).card = 1 := by
  have hsorted : (lcoreList lcores).Pairwise (· < ·) := lcores.sortedLT_sort.pairwise
  have hmem (l : ℕ) : l ∈ lcores ↔ l ∈ lcoreList lcores := (lcores.mem_sort (· ≤ ·)).symm
  rw [← length_lcoreList] at hcard
  match hlist : lcoreList lcores with
  | [] | [_] =>
    rw [hlist] at hcard
    simp at hcard
  | lcore₀ :: lcore₁ :: rest =>
    have hsecond : secondLcore lcores = lcore₁ := by
      rw [secondLcore, hlist]
      rfl
    rw [hlist] at hsorted
    simp only [hlist, List.mem_cons] at hmem
    simp only [List.pairwise_cons, List.mem_cons, forall_eq_or_imp] at hsorted
    obtain ⟨⟨hlt, h₀⟩, h₁, -⟩ := hsorted
    rw [hsecond]
    constructor
    · rintro rfl
      refine Finset.card_eq_one.mpr ⟨lcore₀, ?_⟩
      ext l
      rw [Finset.mem_filter, Finset.mem_singleton, hmem]
      constructor
      · rintro ⟨rfl | rfl | hl, hlow⟩
        · rfl
        · omega
        · have := h₁ l hl
          omega
      · rintro rfl
        exact ⟨.inl rfl, hlt⟩
    · intro hone
      obtain ⟨l, hl⟩ := Finset.card_eq_one.mp hone
      have hbelow (l' : ℕ) : l' ∈ lcores ∧ l' < mainLcore ↔ l' = l := by
        rw [← Finset.mem_singleton, ← hl, Finset.mem_filter]
      rcases (hmem mainLcore).mp hmain with rfl | rfl | hrest
      · obtain ⟨hin, hlow⟩ := (hbelow l).mpr rfl
        rcases (hmem l).mp hin with rfl | rfl | hl'
        · omega
        · omega
        · have := h₀ l hl'
          omega
      · rfl
      · have hfirst := (hbelow lcore₀).mp ⟨(hmem _).mpr (.inl rfl), h₀ _ hrest⟩
        have hsecond := (hbelow lcore₁).mp ⟨(hmem _).mpr (.inr (.inl rfl)), h₁ _ hrest⟩
        omega

/-- The worker stays off the core of `main` in every run exactly if the number of
    enabled cores before the main lcore is not one. In the packet generator, with
    two cores, the main lcore has to be the first. -/
theorem wellPlaced_iff (lcores : Finset ℕ) (mainLcore : ℕ) (hmain : mainLcore ∈ lcores) :
    (2 ≤ lcores.card →
      ((∀ rteMaxEthports d, d .lcoreForeach = lcoreList lcores →
          WellPlaced d mainLcore (ProcessingAPacket.main rteMaxEthports)) ↔
        (lcores.filter (· < mainLcore)).card ≠ 1)) ∧
    (2 ≤ lcores.card →
      ((∀ rteMaxEthports d, d .lcoreForeach = lcoreList lcores →
          WellPlaced d mainLcore (ReceiveSideScaling.main rteMaxEthports)) ↔
        (lcores.filter (· < mainLcore)).card ≠ 1)) ∧
    (lcores.card = 2 →
      ((∀ rteMaxEthports argv fuel d, d .lcoreForeach = lcoreList lcores →
          WellPlaced d mainLcore (PacketGenerator.main rteMaxEthports argv fuel)) ↔
        (lcores.filter (· < mainLcore)).card ≠ 1)) := by
  refine ⟨?_, ?_, ?_⟩
  · intro hcard
    rw [Ne, ← secondLcore_eq_iff hmain hcard]
    exact wellPlaced_runs_iff (fun _ _ => placesWorker_processing) ⟨_, succeeds_processing hcard⟩
  · intro hcard
    rw [Ne, ← secondLcore_eq_iff hmain hcard]
    exact wellPlaced_runs_iff (fun _ _ => placesWorker_rss) ⟨_, succeeds_rss hcard⟩
  · intro hcard
    rw [Ne, ← secondLcore_eq_iff hmain hcard.ge]
    obtain ⟨fuel, hexit⟩ := succeeds_generator hcard
    have hruns : (∀ (i : ℕ × List Generator.CString × ℕ) (d : Answers),
        d .lcoreForeach = lcoreList lcores →
          WellPlaced d mainLcore (PacketGenerator.main i.1 i.2.1 i.2.2)) ↔
        secondLcore lcores ≠ mainLcore :=
      wellPlaced_runs_iff (fun _ _ => placesWorker_generator) ⟨(_, _, _), hexit⟩
    simpa only [Prod.forall] using hruns

/-- Two cores, `main` on the first. -/
theorem wellPlaced_first :
    (∀ rteMaxEthports d, d .lcoreForeach = lcoreList {0, 1} →
      WellPlaced d 0 (ProcessingAPacket.main rteMaxEthports)) ∧
    (∀ rteMaxEthports d, d .lcoreForeach = lcoreList {0, 1} →
      WellPlaced d 0 (ReceiveSideScaling.main rteMaxEthports)) ∧
    (∀ rteMaxEthports argv fuel d, d .lcoreForeach = lcoreList {0, 1} →
      WellPlaced d 0 (PacketGenerator.main rteMaxEthports argv fuel)) := by
  obtain ⟨hprocessing, hrss, hgenerator⟩ := wellPlaced_iff {0, 1} 0 (by decide)
  exact ⟨(hprocessing (by decide)).mpr (by decide), (hrss (by decide)).mpr (by decide),
    (hgenerator (by decide)).mpr (by decide)⟩

/-- Two cores, `main` on the second: each program launches its worker there. -/
theorem not_wellPlaced :
    ¬ WellPlaced (working (lcoreList {0, 1}) (some 1) 0) 1 (ProcessingAPacket.main 32) ∧
      ¬ WellPlaced (working (lcoreList {0, 1}) (some 1) 0) 1 (ReceiveSideScaling.main 32) ∧
      ∃ fuel, ¬ WellPlaced (working (lcoreList {0, 1}) (some 1) 0) 1
        (PacketGenerator.main 32 (Generator.usageArgs "30000".toList) fuel) := by
  have hsecond : secondLcore {0, 1} = 1 :=
    (secondLcore_eq_iff (by decide) (by decide)).mpr (by decide)
  obtain ⟨fuel, hexit⟩ := succeeds_generator (show ({0, 1} : Finset ℕ).card = 2 by decide)
  refine ⟨?_, ?_, fuel, ?_⟩
  · intro hplaced
    exact placesWorker_processing.ne_of_succeeds (succeeds_processing (by decide)) hplaced hsecond
  · intro hplaced
    exact placesWorker_rss.ne_of_succeeds (succeeds_rss (by decide)) hplaced hsecond
  · intro hplaced
    exact placesWorker_generator.ne_of_succeeds hexit hplaced hsecond

end DpdkTutorials.Startup

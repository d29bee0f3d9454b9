import DpdkTutorials.Generator.Throughput
import DpdkTutorials.Startup.Placement

/-!
# From the command line to the packets

`main` of the packet generator passes the requested rate to the routine that it
launches, in a field of 16 bits. The routine counts on the prepared pool and on
two logical cores, and finds both in every run that launches it.

* `launched_transmit`: the conditions under which the routine is launched.
* `requested_rate_sent`: the packets that a routine launched by `main` has sent
  are those of the last rate on the command line, modulo `2^16`.
-/

namespace DpdkTutorials.Startup

open DpdkTutorials.Common DpdkTutorials.Common.Program DpdkTutorials.Dpdk
open DpdkTutorials.Generator PacketGenerator

/-! ## The launch -/

/-- The transmission routine is launched with the parameters `params`. -/
structure LaunchedWith (d : Answers) (argv : List CString)
    (params : PacketTransmissionThreadParams) : Prop where
  options : ∃ o port, Accepts argv o ∧ params = threadParams port o
  twoLcores : (d .lcoreForeach).length = 2
  prepared : d .prepareMemoryPool = true

/-- If the call launches the transmission routine, its parameters satisfy `Q`. -/
def Call.LaunchesWith (Q : PacketTransmissionThreadParams → Prop) : Call → Prop
  | .ealRemoteLaunch (.transmitPacketsFromInterface params) _ => Q params
  | _ => True

variable {d : Answers} {Q : PacketTransmissionThreadParams → Prop}

/-- What comes before the launch. -/
theorem always_after {α : Type} {p : Main α} {f : α → Main Empty} (hp : Preliminary d p)
    (hf : ∀ a, Returns d p a → Always d (Call.LaunchesWith Q) (f a)) :
    Always d (Call.LaunchesWith Q) (p >>= f) := by
  refine always_bind.mpr ⟨hp.calls.mono fun c hc => ?_, hf⟩
  cases c <;> first | exact hc.elim | exact trivial

/-- The launch is the only one. -/
theorem always_launch {params : PacketTransmissionThreadParams} {outputPortId : UInt16}
    {lcore : ℕ} {lcores : List ℕ} (hparams : Q params) :
    Always d (Call.LaunchesWith Q) (do
      PacketGenerator.launch params outputPortId lcore
      let _ ← ask (.getAndPrintNicStatistics outputPortId)
      forM lcores fun lcore => ask (.ealWaitLcore lcore)
      (finish : Main Empty)) := by
  have hjoin : Always d (Call.LaunchesWith Q)
      (forM lcores fun lcore => ask (.ealWaitLcore lcore)) :=
    (within_forM (Q := fun _ => True) fun _ _ => within_perform.mpr trivial).calls
  simp [PacketGenerator.launch, closeAndAbort, abort, finish, Call.LaunchesWith, hjoin, hparams]

theorem launched_transmit {rteMaxEthports : ℕ} {argv : List CString} {fuel : ℕ} :
    Always d (Call.LaunchesWith (LaunchedWith d argv))
      (PacketGenerator.main rteMaxEthports argv fuel) := by
  refine always_after preliminary_initEal fun _ _ => always_after preliminary_parseArguments ?_
  intro o ho
  obtain ⟨hparse, hport, hrate⟩ := returns_parseArguments.mp ho
  refine always_after preliminary_detectPorts fun _ _ => ?_
  refine always_after preliminary_findOutputPort fun port _ => ?_
  refine always_after preliminary_checkDeviceOffloadingSupport fun _ _ => ?_
  refine always_after preliminary_abortIf fun _ _ => always_after (preliminary_ask trivial) ?_
  intro logicalCores hlcores
  obtain rfl := returns_perform.mp hlcores
  refine always_after preliminary_failIf fun _ htwo => ?_
  refine always_after (preliminary_ask trivial) fun _ _ => ?_
  refine always_after preliminary_configurePort fun _ _ => ?_
  refine always_after preliminary_queueSocket fun _ _ => ?_
  refine always_after preliminary_setupRxQueues fun _ _ => ?_
  refine always_after preliminary_setupTxQueues fun _ _ => ?_
  refine always_after preliminary_startPort fun _ _ => ?_
  refine always_after preliminary_preparePool fun _ hprepared => ?_
  refine always_launch ⟨⟨o, port.toNat, ⟨⟨fuel, hparse⟩, hport, hrate⟩, rfl⟩, ?_, ?_⟩
  · exact not_not.mp (returns_failIf.mp htwo)
  · exact returns_preparePool.mp hprepared

/-! ## The packets -/

/-- The interval of a routine that `main` has launched: that of the last rate on
    the command line, as far as it fits in the field. -/
theorem LaunchedWith.interval_eq {argv : List CString} {params : PacketTransmissionThreadParams}
    (h : LaunchedWith d argv params) {I : ℕ} (hI : interburstTimeNs params = some I) :
    ∃ v k, ∃ m : ℕ, (optionValues packetsPerSecondFlag argv).getLast? = some v ∧
      stoi v = some k ∧ (m : ℤ) = k % 2 ^ 16 ∧ m < 2 ^ 16 ∧ m / 16 ≠ 0 ∧
      I = 1000000000 / (m / 16) := by
  obtain ⟨o, port, haccepts, rfl⟩ := h.options
  obtain ⟨-, hlast⟩ := accepts_iff_lastValues.mp haccepts
  obtain ⟨v, hv, hrate⟩ := hlast.rate
  obtain ⟨k, hk⟩ := Option.ne_none_iff_exists'.mp (hlast.rates v (List.mem_of_getLast? hv))
  rw [rateOf, hk, Option.getD_some] at hrate
  refine ⟨v, k, o.packetsPerSecond % 2 ^ 16, hv, hk, ?_, Nat.mod_lt _ (by norm_num), ?_⟩
  · rw [hrate]
    exact toUint32_mod k
  · replace hI : (if o.packetsPerSecond % 2 ^ 16 / 16 = 0 then none
        else some (1 * 1000000000 / (o.packetsPerSecond % 2 ^ 16 / 16))) = some I := hI
    split_ifs at hI with hz
    exact ⟨hz, by simpa using hI.symm⟩

/-- Whatever the command line, the answers of DPDK during the startup, the driver
    and the clock: whenever a launched routine waits, the number of packets it has
    sent since its start is that of the last rate given, modulo `2^16`. -/
theorem requested_rate_sent {rteMaxEthports fuel lcore headroom start : ℕ} {argv : List CString}
    {params : PacketTransmissionThreadParams}
    (hlaunch : Call.ealRemoteLaunch (.transmitPacketsFromInterface params) lcore ∈
      (PacketGenerator.main rteMaxEthports argv fuel).calls d)
    {interval : UInt64} (hinterval : interburstTimeNs params = some interval.toNat)
    {β : Type} [DecidableEq β] {main l : Fin (d .lcoreForeach).length}
    {s₀ bufs : Pktmbufs β (CachedPool (Fin (d .lcoreForeach).length) β 512)}
    {s : State β (CachedPool (Fin (d .lcoreForeach).length) β 512)}
    (hprep : Prepared (CachedPool.mempool _ β 512) headroom main s₀ bufs)
    (hrun : Relation.ReflTransGen (ServedStep headroom l interval) (begin interval bufs start) s)
    (hpc : s.transmit.pc = .wait) (hwait : s.transmit.t0 < s.transmit.t1)
    (hclock : s.clock + interval.toNat < 2 ^ 64) :
    ∃ v k, (optionValues packetsPerSecondFlag argv).getLast? = some v ∧ stoi v = some k ∧
      SendsAt (k % 2 ^ 16).toNat (s.clock - start) s.accepted.length := by
  have hlaunched : LaunchedWith d argv params := launched_transmit _ hlaunch
  obtain ⟨v, k, m, hv, hk, hm, hlt, h16, hI⟩ := hlaunched.interval_eq hinterval
  have hserving := serving_of_run (by rw [Fintype.card_fin, hlaunched.twoLcores]) hprep hrun
  have hpos : 0 < interval := by
    rw [UInt64.lt_iff_toNat_lt]
    exact Nat.pos_of_ne_zero (by rw [hI]; exact (nominal_rate_bounds h16 hlt).1)
  refine ⟨v, k, hv, hk, ?_⟩
  rw [hserving.accepted_eq hpos hpc hwait hclock, ← hm, Int.toNat_natCast]
  exact sendsAt_of_interval h16 hlt hI _

/-- A launch with the rate of the usage message. -/
theorem exists_launch : ∃ fuel, Call.ealRemoteLaunch
    (.transmitPacketsFromInterface ⟨0, 0, 30000⟩) 1 ∈
      (PacketGenerator.main 32 (usageArgs "30000".toList) fuel).calls
        (working [0, 1] (some 1) 0) := by
  obtain ⟨⟨fuel, hparse⟩, hport, hrate⟩ := accepts_usageArgs stoi_usage (by decide)
  refine ⟨fuel, ?_⟩
  rw [PacketGenerator.main,
    calls_bind_of_returns (a := ()) (returns_initEal.mpr (le_refl (0 : ℤ))),
    calls_bind_of_returns (returns_parseArguments.mpr ⟨hparse, hport, hrate⟩)]
  refine List.mem_append_right _ (List.mem_append_right _ ?_)
  exact List.mem_of_getElem? (i := 12) rfl

/-- After one interval, 533333 nanoseconds, a burst has been sent. -/
theorem requested_rate_sent_usage : ∃ s : State ℕ (CachedPool (Fin 2) ℕ 512),
    s.clock = 533333 ∧ ∃ v k,
      (optionValues packetsPerSecondFlag (usageArgs "30000".toList)).getLast? = some v ∧
      stoi v = some k ∧ SendsAt (k % 2 ^ 16).toNat (s.clock - 0) s.accepted.length := by
  obtain ⟨fuel, hlaunch⟩ := exists_launch
  obtain ⟨s₀, bufs, s, hprep, hrun, hpc, hwait, hclock⟩ :=
    exists_first_burst 533333 (by decide) (by decide)
  refine ⟨s, hclock, ?_⟩
  have hinterval : interburstTimeNs ⟨0, 0, 30000⟩ = some (533333 : UInt64).toNat := by decide
  have hfit : s.clock + (533333 : UInt64).toNat < 2 ^ 64 := by
    rw [hclock]
    decide
  exact requested_rate_sent hlaunch hinterval hprep hrun hpc hwait hfit

end DpdkTutorials.Startup

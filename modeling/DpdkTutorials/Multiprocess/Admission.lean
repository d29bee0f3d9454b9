import DpdkTutorials.Common.System

/-!
# Who may use the shared objects of `8-multiprocess-communication`

The ring is created for a single producer and a single consumer, and the pool
has one cache per lcore id, so an lcore id must not be shared. Each process
checks its own arguments and what it creates or finds (main.cpp:206-276); no
process looks for the others.

* `exclusive_step_iff`: a launch keeps the objects exclusive exactly when the
  place it takes is vacant.
* `exclusive_of_vacant_launches`: the runs in which every launch is of this kind.
* `documented_launch_shares_lcore`: the two commands of the README are not.
-/

namespace DpdkTutorials.Multiprocess

open DpdkTutorials.Common

/-! ## The checks of `main` -/

/-- `rte_proc_type_t`. -/
inductive ProcType where
  | auto
  | primary
  | secondary
  | invalid
  deriving DecidableEq, Repr

/-- What `main` gets from its command line and from its DPDK calls. -/
structure Launch where
  /-- The arguments from `argv + return_val` on. -/
  argv : List String
  logicalCores : List ℕ
  timestampDynfieldOffset : UInt64
  procType : ProcType
  poolCreated : Bool
  ringCreated : Bool

/-- The branches of `main` that print an error and call `exit(1)`. -/
inductive Refusal where
  | ringNameNotProvided
  | ringNameEmpty
  | oneLogicalCoreRequired
  | dynfieldNotRegistered
  | poolNotCreated
  | ringNotCreated
  | ringNotFound
  deriving DecidableEq, Repr

inductive Routine where
  | generatePackets
  | processPackets
  deriving DecidableEq, Repr

/-- `main` up to the call of one of the routines (main.cpp:206-288); `none` if
    the process is neither primary nor secondary. `ringFound` is the result of
    `rte_ring_lookup`. -/
def Launch.main (x : Launch) (ringFound : Bool) : Except Refusal (Option Routine) :=
  if x.argv.length < 2 then .error .ringNameNotProvided
  else if (x.argv.getD 1 "").isEmpty then .error .ringNameEmpty
  else if x.logicalCores.length ≠ 1 then .error .oneLogicalCoreRequired
  -- The variable is unsigned: the comparison never holds.
  else if x.timestampDynfieldOffset < 0 then .error .dynfieldNotRegistered
  else match x.procType with
    | .primary =>
      if !x.poolCreated then .error .poolNotCreated
      else if !x.ringCreated then .error .ringNotCreated
      else .ok (some .generatePackets)
    | .secondary => if !ringFound then .error .ringNotFound else .ok (some .processPackets)
    | .auto | .invalid => .ok none

/-! ## Processes -/

/-- A process that has passed the checks. -/
structure Process where
  routine : Routine
  lcore : ℕ
  /-- Still inside its routine. -/
  running : Bool
  deriving DecidableEq, Repr

/-- The processes that use one ring, the latest first. -/
structure Host where
  processes : List Process
  /-- A ring of this name exists. -/
  ringExists : Bool

/-- The processes inside `generate_packets` or `process_packets`, where they
    use the ring and the pool. -/
def Host.running (h : Host) : List Process := h.processes.filter (·.running)

/-- The steps of the host. All processes name the same ring. -/
inductive HostStep : Host → Host → Prop where
  /-- A process is started and passes the checks of `main`. EAL admits a primary
      only if there is none. -/
  | launch {h : Host} {x : Launch} {r : Routine} {l : ℕ} :
      (x.procType = .primary → ∀ p ∈ h.processes, p.routine ≠ .generatePackets) →
      x.main h.ringExists = .ok (some r) → x.logicalCores = [l] →
      HostStep h {
        processes := ⟨r, l, true⟩ :: h.processes
        ringExists := h.ringExists || x.procType = .primary }
  /-- A process leaves its routine. -/
  | leave {h : Host} {p : Process} {before after : List Process} :
      h.processes = before ++ p :: after →
      HostStep h { h with processes := before ++ { p with running := false } :: after }
  /-- The primary frees the ring after its routine. -/
  | ringFree {h : Host} {p : Process} :
      p ∈ h.processes → p.routine = .generatePackets → p.running = false →
      HostStep h { h with ringExists := false }
  /-- A process ends, in whatever way. -/
  | exit {h : Host} {p : Process} {before after : List Process} :
      h.processes = before ++ p :: after →
      HostStep h { h with processes := before ++ after }

/-- A host on which no process of the program runs. -/
def host : System Host where
  init h := h = ⟨[], false⟩
  next := HostStep

/-- The contracts of the ring (`RING_F_SP_ENQ | RING_F_SC_DEQ`) and of the
    per-lcore caches of the pool. -/
structure Exclusive (h : Host) : Prop where
  oneProducer : (h.running.filter (·.routine = .generatePackets)).length ≤ 1
  oneConsumer : (h.running.filter (·.routine = .processPackets)).length ≤ 1
  ownLcore : h.running.Pairwise fun p q => p.lcore ≠ q.lcore

/-- Nobody else runs `process_packets` if `p` is to run it, and nobody else
    runs under the lcore id of `p`. -/
structure Vacant (h : Host) (p : Process) : Prop where
  consumer : p.routine = .processPackets → ∀ q ∈ h.running, q.routine ≠ .processPackets
  lcore : ∀ q ∈ h.running, q.lcore ≠ p.lcore

/-- A step that starts a process starts it in a vacant place. -/
def LaunchesVacant (h h' : Host) : Prop :=
  ∀ p, h'.processes = p :: h.processes → Vacant h p

/-! ## Exclusive use -/

theorem Exclusive.sublist {h h' : Host} (hex : Exclusive h) (hsub : h'.running.Sublist h.running) :
    Exclusive h' where
  oneProducer := ((hsub.filter _).length_le).trans hex.oneProducer
  oneConsumer := ((hsub.filter _).length_le).trans hex.oneConsumer
  ownLcore := hex.ownLcore.sublist hsub

/-- Only a primary runs `generate_packets`. -/
theorem procType_of_generatePackets {x : Launch} {ringFound : Bool}
    (h : x.main ringFound = .ok (some .generatePackets)) : x.procType = .primary := by
  cases hp : x.procType with
  | primary => rfl
  | secondary =>
    simp only [Launch.main, hp] at h
    split_ifs at h
    cases h
  | auto | invalid =>
    simp only [Launch.main, hp] at h
    split_ifs at h
    cases h

/-- A step either starts a process or leaves no more running than before. -/
theorem HostStep.cases {h h' : Host} (hstep : HostStep h h') :
    (∃ p : Process, h'.processes = p :: h.processes ∧ p.running = true ∧
      (p.routine = .generatePackets → ∀ q ∈ h.processes, q.routine ≠ .generatePackets)) ∨
    (h'.running.Sublist h.running ∧ h'.processes.length ≤ h.processes.length) := by
  cases hstep with
  | @launch x r l heal hmain _ =>
    left
    refine ⟨⟨r, l, true⟩, rfl, rfl, ?_⟩
    intro hr
    have hgen : r = .generatePackets := hr
    rw [hgen] at hmain
    exact heal (procType_of_generatePackets hmain)
  | @leave p before after hp =>
    right
    refine ⟨?_, by simp [hp]⟩
    simp only [Host.running, hp, List.filter_append]
    exact (List.Sublist.refl _).append (by
      rw [List.filter_cons_of_neg (by simp)]
      exact (List.sublist_cons_self p after).filter _)
  | ringFree => exact .inr ⟨List.Sublist.refl _, le_rfl⟩
  | exit hp =>
    right
    refine ⟨?_, by simp [hp]⟩
    simp only [Host.running, hp]
    exact ((List.Sublist.refl _).append (List.sublist_cons_self _ _)).filter _

theorem running_cons {h h' : Host} {p : Process} (hp : h'.processes = p :: h.processes)
    (hrun : p.running = true) : h'.running = p :: h.running := by
  simp [Host.running, hp, hrun]

/-- One more process keeps a routine with one process if it is the only one. -/
theorem length_filter_cons_le {r : Routine} {p : Process} {ps : List Process}
    (hone : (ps.filter (·.routine = r)).length ≤ 1)
    (honly : p.routine = r → ∀ q ∈ ps, q.routine ≠ r) :
    ((p :: ps).filter (·.routine = r)).length ≤ 1 := by
  rw [List.filter_cons]
  split_ifs with hr
  · have hnone : ps.filter (·.routine = r) = [] := by
      apply List.filter_eq_nil_iff.mpr
      intro q hq
      simpa using honly (by simpa using hr) q hq
    rw [hnone, List.length_singleton]
  · exact hone

/-- A process in a vacant place keeps the objects exclusive. -/
theorem Exclusive.launch {h h' : Host} {p : Process} (hex : Exclusive h)
    (hp : h'.processes = p :: h.processes) (hrun : p.running = true)
    (hprimary : p.routine = .generatePackets → ∀ q ∈ h.processes, q.routine ≠ .generatePackets)
    (hvacant : Vacant h p) : Exclusive h' := by
  have hrunning := running_cons hp hrun
  constructor
  · rw [hrunning]
    exact length_filter_cons_le hex.oneProducer fun hr q hq =>
      hprimary hr q (List.mem_of_mem_filter hq)
  · rw [hrunning]
    exact length_filter_cons_le hex.oneConsumer hvacant.consumer
  · rw [hrunning]
    exact List.pairwise_cons.mpr ⟨fun q hq => (hvacant.lcore q hq).symm, hex.ownLcore⟩

/-- Only a process in a vacant place does. -/
theorem Exclusive.vacant {h h' : Host} {p : Process} (hex : Exclusive h')
    (hp : h'.processes = p :: h.processes) (hrun : p.running = true) : Vacant h p := by
  have hrunning := running_cons hp hrun
  constructor
  · intro hr q hq hq'
    have hone := hex.oneConsumer
    rw [hrunning, List.filter_cons_of_pos (by simpa using hr), List.length_cons] at hone
    have hmem : q ∈ h.running.filter (·.routine = .processPackets) :=
      List.mem_filter.mpr ⟨hq, by simpa using hq'⟩
    have hpos := List.length_pos_of_mem hmem
    omega
  · intro q hq
    have hown := hex.ownLcore
    rw [hrunning] at hown
    exact ((List.pairwise_cons.mp hown).1 q hq).symm

/-- A step keeps the shared objects exclusive exactly when it does not start a
    process in a place that is taken. -/
theorem exclusive_step_iff {h h' : Host} (hex : Exclusive h) (hstep : HostStep h h') :
    Exclusive h' ↔ LaunchesVacant h h' := by
  rcases hstep.cases with ⟨p, hp, hrun, hprimary⟩ | ⟨hsub, hlen⟩
  · constructor
    · intro hex' q hq
      rw [hp] at hq
      rw [← List.head_eq_of_cons_eq hq]
      exact hex'.vacant hp hrun
    · intro hvacant
      exact hex.launch hp hrun hprimary (hvacant p hp)
  · refine iff_of_true (hex.sublist hsub) ?_
    intro q hq
    rw [hq, List.length_cons] at hlen
    omega

theorem exclusive_init : Exclusive ⟨[], false⟩ :=
  ⟨Nat.zero_le _, Nat.zero_le _, .nil⟩

/-- In every run in which each process is started in a vacant place, the shared
    objects are used exclusively at every moment. -/
theorem exclusive_of_vacant_launches {h : Host} (hs : (host.guarded LaunchesVacant).Reachable h) :
    Exclusive h := by
  apply System.Reachable.invariant (P := Exclusive) ?_ ?_ hs
  · intro h hinit
    have hempty : h = ⟨[], false⟩ := hinit
    rw [hempty]
    exact exclusive_init
  · intro h h' _ hex hstep
    exact (exclusive_step_iff hex hstep.1).mpr hstep.2

/-! ## Launches -/

/-- `--lcores=<l>@0 -n 4 --proc-type=<t> -- ring_buffer_1`. -/
def command (t : ProcType) (l : ℕ) : Launch where
  argv := ["--", "ring_buffer_1"]
  logicalCores := [l]
  timestampDynfieldOffset := 0
  procType := t
  poolCreated := true
  ringCreated := true

/-- A primary on lcore 0 and a secondary on lcore 1. -/
theorem exclusive_two_lcores :
    Exclusive ⟨[⟨.processPackets, 1, true⟩, ⟨.generatePackets, 0, true⟩], true⟩ := by
  have hfirst : LaunchesVacant ⟨[], false⟩ ⟨[⟨.generatePackets, 0, true⟩], true⟩ := by
    intro p hp
    exact ⟨by simp [Host.running], by simp [Host.running]⟩
  have hsecond : LaunchesVacant ⟨[⟨.generatePackets, 0, true⟩], true⟩
      ⟨[⟨.processPackets, 1, true⟩, ⟨.generatePackets, 0, true⟩], true⟩ := by
    intro p hp
    rw [← List.head_eq_of_cons_eq hp]
    exact ⟨by simp [Host.running], by simp [Host.running]⟩
  have h₀ := System.Reachable.of_init (S := host.guarded LaunchesVacant) rfl
  have h₁ := h₀.step ⟨.launch (x := command .primary 0) (by simp) rfl rfl, hfirst⟩
  have h₂ := h₁.step ⟨.launch (x := command .secondary 1) (by simp [command]) rfl rfl, hsecond⟩
  exact exclusive_of_vacant_launches h₂

/-- The commands of the README start both processes on lcore 0. -/
theorem documented_launch_shares_lcore : ¬ ∀ h, host.Reachable h → Exclusive h := by
  intro hall
  have h₀ := System.Reachable.of_init (S := host) rfl
  have h₁ := h₀.step (.launch (x := command .primary 0) (by simp) rfl rfl)
  have h₂ := h₁.step (.launch (x := command .secondary 0) (by simp [command]) rfl rfl)
  have hown := (hall _ h₂).ownLcore
  exact absurd hown (by decide)

end DpdkTutorials.Multiprocess

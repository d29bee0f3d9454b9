import DpdkTutorials.Startup.Mains

/-!
# The detection of the ports

The loop `RTE_ETH_FOREACH_DEV` with its variables, as the macro expands: `id`
and `total_port_count` have 16 bits and a sign, while the port ids of DPDK are
unsigned. The array has `RTE_MAX_ETHPORTS` entries and could hold all ports, but
the check for too many comes after the count has been incremented, and stops the
program at the last entry.

* `enumerateFrom_visits`: the loop over the ports agrees with `recordPorts`.
* `returns_detectPorts_iff`: so its end agrees with `detectPorts`.
* `enumerates_iff`: all ports are recorded if they leave an entry free.
-/

namespace DpdkTutorials.Startup

open DpdkTutorials.Common DpdkTutorials.Common.Program

/-! ## The loop -/

/-- `rte_eth_find_next_owned_by` for no owner: the least valid port from `p` on, or
    `RTE_MAX_ETHPORTS`. -/
structure FindsNext (rteMaxEthports : ℕ) (ports : Finset ℕ) (findNext : UInt16 → UInt64) :
    Prop where
  next : ∀ p, ∀ q ∈ ports, p.toNat ≤ q → (∀ r ∈ ports, p.toNat ≤ r → q ≤ r) →
    (findNext p).toNat = q
  last : ∀ p : UInt16, (∀ q ∈ ports, q < p.toNat) → (findNext p).toNat = rteMaxEthports

/-- How the detection ends. -/
inductive Detection where
  /-- A write outside of `port_ids`. -/
  | outside
  /-- "Total number of detected ports exceeds RTE_MAX_ETHPORTS. " -/
  | exceeds
  /-- "No ports detected in the system. " -/
  | noPorts
  | detected (s : Ports)

/-- The value that an assignment to `id` stores. -/
def portId (n : ℕ) : Int16 := Int16.ofNat n

/-- `(unsigned int)id`. -/
def unsignedInt (id : Int16) : ℕ := (id.toInt % 2 ^ 32).toNat

/-- The iterations from one with this `id` on, at most `fuel` tests of the
    condition of the loop, and the check after the loop
    (9-packet-generator/main.cpp:511-526). -/
def enumerateFrom (rteMaxEthports : ℕ) (findNext : UInt16 → UInt64) :
    ℕ → Int16 → Ports → Option Detection
  | 0, _, _ => none
  | fuel + 1, id, s =>
    if unsignedInt id < rteMaxEthports then
      if 0 ≤ s.totalPortCount.toInt ∧ s.totalPortCount.toInt < rteMaxEthports then
        let s := s.record id.toUInt16
        if (rteMaxEthports : ℤ) ≤ s.totalPortCount.toInt then
          some .exceeds
        else
          -- `id + 1` is an `int`, the parameter a `uint16_t`
          let p := UInt16.ofInt (id.toInt + 1)
          enumerateFrom rteMaxEthports findNext fuel (portId (findNext p).toNat) s
      else
        some .outside
    else if s.totalPortCount = 0 then
      some .noPorts
    else
      some (.detected s)

/-- The detection from its start. -/
def enumerate (rteMaxEthports : ℕ) (findNext : UInt16 → UInt64) (fuel : ℕ) : Option Detection :=
  enumerateFrom rteMaxEthports findNext fuel (portId (findNext 0).toNat) ⟨0, fun _ => 0⟩

/-! ## Specification -/

/-- The valid ports in increasing order. -/
def portList (ports : Finset ℕ) : List ℕ := ports.sort (· ≤ ·)

/-- The count and the first entries of `port_ids` are those of `ports`. -/
structure Ports.Holds (s : Ports) (ports : Finset ℕ) : Prop where
  count : s.totalPortCount.toInt = ports.card
  entry : ∀ (i : ℕ) (p : ℕ), (portList ports)[i]? = some p → (s.portIds i).toNat = p

/-- The detection ends, by the exit for no ports if there is none, else with all
    ports recorded. -/
def Enumerates (rteMaxEthports : ℕ) (ports : Finset ℕ) (findNext : UInt16 → UInt64) : Prop :=
  ∃ fuel o, enumerate rteMaxEthports findNext fuel = some o ∧
    (o = .noPorts ∧ ports = ∅ ∨ ∃ s, o = .detected s ∧ ports ≠ ∅ ∧ s.Holds ports)

/-- The variables `id` and `total_port_count` can hold what they are assigned; if the
    end mark of the macro does not fit, it at least becomes negative. -/
structure FitsInt16 (rteMaxEthports : ℕ) (ports : Finset ℕ) : Prop where
  ids : ∀ p ∈ ports, p < 2 ^ 15
  count : ports.card < 2 ^ 15
  endMark : rteMaxEthports < 2 ^ 15 ∨ 2 ^ 15 ≤ rteMaxEthports % 2 ^ 16

/-! ## The variables -/

variable {rteMaxEthports : ℕ} {ports : Finset ℕ} {findNext : UInt16 → UInt64}

theorem toInt_portId {p : ℕ} (hp : p < 2 ^ 15) : (portId p).toInt = p :=
  Int16.toInt_ofNat_of_lt hp

theorem unsignedInt_portId {p : ℕ} (hp : p < 2 ^ 15) : unsignedInt (portId p) = p := by
  rw [unsignedInt, toInt_portId hp]
  omega

/-- The value of an id that does not fit is negative or wraps. -/
theorem toInt_portId_mod (n : ℕ) :
    (portId n).toInt = if n % 2 ^ 16 < 2 ^ 15 then ((n % 2 ^ 16 : ℕ) : ℤ)
      else ((n % 2 ^ 16 : ℕ) : ℤ) - 2 ^ 16 := by
  rw [portId, Int16.toInt_ofNat', Int.bmod]
  have hsize : ((Int16.size : ℕ) : ℤ) = 2 ^ 16 := rfl
  rw [hsize]
  split_ifs <;> omega

/-- The test of the loop, for limits that are `int` values. -/
theorem unsignedInt_portId_lt (hint : rteMaxEthports < 2 ^ 31) {n : ℕ} :
    unsignedInt (portId n) < rteMaxEthports ↔
      n % 2 ^ 16 < 2 ^ 15 ∧ n % 2 ^ 16 < rteMaxEthports := by
  rw [unsignedInt, toInt_portId_mod]
  split_ifs <;> omega

theorem nextArgument {p : ℕ} (hp : p < 2 ^ 15) :
    (UInt16.ofInt ((portId p).toInt + 1)).toNat = p + 1 := by
  rw [toInt_portId hp]
  simp [UInt16.ofInt]
  omega

theorem toUInt16_portId (p : ℕ) : (portId p).toUInt16 = UInt16.ofNat p := by
  simp [portId]

/-! ## One pass over the ports -/

/-- What the macro finds after a part of the ports is the rest's first. -/
theorem FindsNext.eq_headD (h : FindsNext rteMaxEthports ports findNext) {p : UInt16}
    {before after : List ℕ} (hlist : portList ports = before ++ after)
    (hbefore : ∀ q ∈ before, q < p.toNat) (hafter : ∀ q ∈ after, p.toNat ≤ q) :
    (findNext p).toNat = after.headD rteMaxEthports := by
  have hmem (q : ℕ) : q ∈ ports ↔ q ∈ before ∨ q ∈ after := by
    rw [← List.mem_append, ← hlist]
    exact (ports.mem_sort (· ≤ ·)).symm
  have hsorted : (portList ports).Pairwise (· < ·) := ports.sortedLT_sort.pairwise
  cases after with
  | nil =>
    apply h.last
    intro q hq
    exact hbefore q (((hmem q).mp hq).resolve_right (List.not_mem_nil))
  | cons q after =>
    apply h.next p q ((hmem q).mpr (.inr (List.mem_cons_self))) (hafter q List.mem_cons_self)
    intro r hr hpr
    rcases (hmem r).mp hr with hr | hr
    · have := hbefore r hr
      omega
    · rcases List.mem_cons.mp hr with rfl | hr
      · exact le_refl r
      · rw [hlist] at hsorted
        exact ((List.pairwise_cons.mp (List.pairwise_append.mp hsorted).2.1).1 r hr).le

/-- The iteration after the one of `p`. -/
theorem FindsNext.eq_after (h : FindsNext rteMaxEthports ports findNext) {p : ℕ}
    {before rest : List ℕ} (hlist : portList ports = before ++ p :: rest) (hp : p < 2 ^ 15) :
    (findNext (UInt16.ofInt ((portId p).toInt + 1))).toNat = rest.headD rteMaxEthports := by
  have hsorted : (portList ports).Pairwise (· < ·) := ports.sortedLT_sort.pairwise
  rw [hlist, List.pairwise_append, List.pairwise_cons] at hsorted
  obtain ⟨-, ⟨hrest, -⟩, hbefore⟩ := hsorted
  have hsplit : portList ports = before ++ [p] ++ rest := by
    rw [hlist, List.append_assoc, List.singleton_append]
  refine h.eq_headD hsplit ?_ ?_
  · intro q hq
    rw [nextArgument hp]
    rcases List.mem_append.mp hq with hq | hq
    · exact Nat.lt_succ_of_lt (hbefore q hq p List.mem_cons_self)
    · rw [List.mem_singleton.mp hq]
      exact Nat.lt_succ_self p
  · rw [nextArgument hp]
    exact hrest

/-- How the detection ends after a loop with this result. -/
def endOf : Result Ports → Detection
  | .value s => if s.totalPortCount = 0 then .noPorts else .detected s
  | .exit _ | .hang => .exceeds

variable {d : Answers}

/-- The loop over the ports `ids`, if the value of `id` after them ends it.
    The writes are inside: the count is checked after each and cannot wrap before
    the last. -/
theorem enumerateFrom_visits (hports : ∀ p ∈ ports, p < rteMaxEthports)
    (hfind : FindsNext rteMaxEthports ports findNext) {before ids after : List ℕ}
    (hlist : portList ports = before ++ ids ++ after) (hids : ∀ p ∈ before ++ ids, p < 2 ^ 15)
    (hcount : before.length + ids.length ≤ 2 ^ 15)
    (hfree : ids ≠ [] → before.length < rteMaxEthports)
    (hend : ¬ unsignedInt (portId (after.headD rteMaxEthports)) < rteMaxEthports) {s : Ports}
    (hs : s.totalPortCount = Int16.ofNat before.length) :
    enumerateFrom rteMaxEthports findNext (ids.length + 1)
        (portId ((ids ++ after).headD rteMaxEthports)) s =
      some (endOf ((recordPorts rteMaxEthports (ids.map UInt16.ofNat) s).result d)) := by
  induction ids generalizing before s with
  | nil =>
    rw [List.length_nil, List.nil_append, List.map_nil, enumerateFrom, if_neg hend, recordPorts,
      result_pure, endOf]
    split_ifs <;> rfl
  | cons p ids ih =>
    have hp : p < 2 ^ 15 := hids p (by simp)
    have hpmem : p ∈ ports := by
      rw [← ports.mem_sort (· ≤ ·)]
      show p ∈ portList ports
      simp [hlist]
    have htest : unsignedInt (portId p) < rteMaxEthports := by
      rw [unsignedInt_portId hp]
      exact hports p hpmem
    have hinside : 0 ≤ s.totalPortCount.toInt ∧ s.totalPortCount.toInt < rteMaxEthports := by
      rw [List.length_cons] at hcount
      have := hfree (List.cons_ne_nil p ids)
      rw [hs, Int16.toInt_ofNat_of_lt (by omega)]
      omega
    have hrest : (recordPorts rteMaxEthports ((p :: ids).map UInt16.ofNat) s).result d =
        (failIf ((rteMaxEthports : ℤ) ≤ (s.record (UInt16.ofNat p)).totalPortCount.toInt)
            "Total number of detected ports exceeds RTE_MAX_ETHPORTS. " >>= fun _ =>
          recordPorts rteMaxEthports (ids.map UInt16.ofNat)
            (s.record (UInt16.ofNat p))).result d := rfl
    rw [hrest, List.length_cons, List.cons_append, List.headD_cons, enumerateFrom, if_pos htest,
      if_pos hinside, toUInt16_portId]
    by_cases hfull : (rteMaxEthports : ℤ) ≤ (s.record (UInt16.ofNat p)).totalPortCount.toInt
    · simp [hfull, result_bind, failIf, fail, abort, endOf]
    · have happend : before ++ [p] ++ ids = before ++ p :: ids := by simp
      have hsplit : portList ports = before ++ p :: (ids ++ after) := by
        rw [hlist, List.append_assoc, List.cons_append]
      have hnext := hfind.eq_after hsplit hp
      rw [result_bind_of_returns (a := ()) (returns_failIf.mpr hfull)]
      simp only [if_neg hfull, hnext]
      have hcount' : (s.record (UInt16.ofNat p)).totalPortCount =
          Int16.ofNat (before ++ [p]).length := by
        rw [List.length_append, List.length_singleton, Int16.ofNat_add, ← hs]
        rfl
      refine ih (happend ▸ hlist) (happend ▸ hids) ?_ ?_ hcount'
      · rw [List.length_append, List.length_singleton]
        rw [List.length_cons] at hcount
        omega
      · intro hne
        have := List.length_pos_iff.mpr hne
        rw [hcount', Int16.toInt_ofNat_of_lt] at hfull
        · omega
        · rw [List.length_append, List.length_singleton]
          rw [List.length_cons] at hcount
          omega

/-- More fuel does not change how the loop ends. -/
theorem enumerateFrom_unique {fuel fuel' : ℕ} {id : Int16} {s : Ports} {o o' : Detection}
    (ho : enumerateFrom rteMaxEthports findNext fuel id s = some o)
    (ho' : enumerateFrom rteMaxEthports findNext fuel' id s = some o') : o = o' := by
  induction fuel generalizing fuel' id s with
  | zero => cases ho
  | succ fuel ih =>
    cases fuel' with
    | zero => cases ho'
    | succ fuel' =>
      simp only [enumerateFrom] at ho ho'
      split_ifs at ho ho' with htest hinside hfull hzero
      · exact Option.some.inj (ho.symm.trans ho')
      · exact ih ho ho'
      · exact Option.some.inj (ho.symm.trans ho')
      · exact Option.some.inj (ho.symm.trans ho')
      · exact Option.some.inj (ho.symm.trans ho')

/-! ## The recorded ports -/

/-- An entry before the count is not written again. -/
theorem portIds_foldl_of_lt {ids : List UInt16} {s : Ports} {k i : ℕ}
    (hs : s.totalPortCount = Int16.ofNat k) (hk : k + ids.length ≤ 2 ^ 15) (hi : i < k) :
    (ids.foldl Ports.record s).portIds i = s.portIds i := by
  induction ids generalizing s k with
  | nil => rfl
  | cons id ids ih =>
    rw [List.length_cons] at hk
    have hs' : (s.record id).totalPortCount = Int16.ofNat (k + 1) := by
      rw [Int16.ofNat_add, ← hs]
      rfl
    rw [List.foldl_cons, ih hs' (by omega) (by omega)]
    show Function.update s.portIds s.totalPortCount.toInt id i = _
    rw [hs, Int16.toInt_ofNat_of_lt (by omega), Function.update_of_ne (by omega)]

theorem portIds_foldl {ids : List UInt16} {s : Ports} {k j : ℕ} {id : UInt16}
    (hs : s.totalPortCount = Int16.ofNat k) (hk : k + ids.length ≤ 2 ^ 15)
    (hid : ids[j]? = some id) : (ids.foldl Ports.record s).portIds ((k + j : ℕ) : ℤ) = id := by
  induction ids generalizing s k j with
  | nil => cases hid
  | cons id' ids ih =>
    rw [List.length_cons] at hk
    have hs' : (s.record id').totalPortCount = Int16.ofNat (k + 1) := by
      rw [Int16.ofNat_add, ← hs]
      rfl
    rw [List.foldl_cons]
    cases j with
    | zero =>
      obtain rfl : id' = id := Option.some.inj hid
      rw [portIds_foldl_of_lt hs' (by omega) (by omega)]
      show Function.update s.portIds s.totalPortCount.toInt id' _ = id'
      rw [hs, Int16.toInt_ofNat_of_lt (by omega), Nat.add_zero, Function.update_self]
    | succ j =>
      have hrest := ih hs' (by omega) hid
      rwa [show k + (j + 1) = k + 1 + j by omega]

theorem length_portList : (portList ports).length = ports.card := ports.length_sort (· ≤ ·)

theorem mem_portList {p : ℕ} : p ∈ portList ports ↔ p ∈ ports := ports.mem_sort (· ≤ ·)

theorem holds_recorded (hids : ∀ p ∈ ports, p < 2 ^ 15) (hcount : ports.card < 2 ^ 15) :
    (recorded ((portList ports).map UInt16.ofNat)).Holds ports where
  count := by
    rw [recorded, totalPortCount_foldl, Int16.zero_add, List.length_map, length_portList,
      Int16.toInt_ofNat_of_lt hcount]
  entry := by
    intro i p hp
    have hid : ((portList ports).map UInt16.ofNat)[i]? = some (UInt16.ofNat p) := by
      rw [List.getElem?_map, hp]
      rfl
    have hlength : 0 + ((portList ports).map UInt16.ofNat).length ≤ 2 ^ 15 := by
      rw [List.length_map, length_portList]
      omega
    have hentry := portIds_foldl (s := ⟨0, fun _ => 0⟩) rfl hlength hid
    rw [Nat.zero_add] at hentry
    rw [recorded, hentry]
    have hlt := hids p (mem_portList.mp (List.mem_of_getElem? hp))
    exact UInt16.toNat_ofNat_of_lt' (hlt.trans (by decide))

/-! ## The whole detection -/

/-- The end mark ends the loop, if it fits or becomes negative. -/
theorem endMark_iff (hint : rteMaxEthports < 2 ^ 31) :
    ¬ unsignedInt (portId rteMaxEthports) < rteMaxEthports ↔
      rteMaxEthports < 2 ^ 15 ∨ 2 ^ 15 ≤ rteMaxEthports % 2 ^ 16 := by
  rw [unsignedInt_portId_lt hint]
  omega

theorem nodup_portList (ports : Finset ℕ) : (portList ports).Nodup := ports.sort_nodup (· ≤ ·)

theorem length_le_of_ids {ids : List ℕ} (hnodup : ids.Nodup) (hids : ∀ p ∈ ids, p < 2 ^ 15) :
    ids.length ≤ 2 ^ 15 := by
  have hsub : ids ⊆ List.range (2 ^ 15) := fun p hp => List.mem_range.mpr (hids p hp)
  simpa using (hnodup.subperm hsub).length_le

/-- `enumerateFrom_visits` from the start of the loop. -/
theorem enumerate_visits (hpos : 0 < rteMaxEthports) (hports : ∀ p ∈ ports, p < rteMaxEthports)
    (hfind : FindsNext rteMaxEthports ports findNext) {ids after : List ℕ}
    (hlist : portList ports = ids ++ after) (hids : ∀ p ∈ ids, p < 2 ^ 15)
    (hend : ¬ unsignedInt (portId (after.headD rteMaxEthports)) < rteMaxEthports) :
    enumerate rteMaxEthports findNext (ids.length + 1) =
      some (endOf ((recordPorts rteMaxEthports (ids.map UInt16.ofNat) ⟨0, fun _ => 0⟩).result
        d)) := by
  have hlist' : portList ports = [] ++ ids ++ after := hlist
  have hfirst : (findNext 0).toNat = (ids ++ after).headD rteMaxEthports :=
    hfind.eq_headD (hlist.trans (List.nil_append _).symm) nofun (by simp)
  have hnodup := nodup_portList ports
  rw [hlist] at hnodup
  have hlength := length_le_of_ids hnodup.of_append_left hids
  rw [enumerate, hfirst]
  exact enumerateFrom_visits hports hfind hlist' hids (by simpa using hlength) (fun _ => hpos) hend
    rfl

theorem endOf_eq_detected {r : Result Ports} {s : Ports} :
    endOf r = .detected s ↔ r = .value s ∧ s.totalPortCount ≠ 0 := by
  unfold endOf
  split
  · split_ifs with hzero
    · simp only [false_iff, not_and, not_not, Result.value.injEq]
      rintro rfl
      exact hzero
    · simp only [Detection.detected.injEq, Result.value.injEq]
      constructor
      · rintro rfl
        exact ⟨rfl, hzero⟩
      · exact And.left
  · simp
  · simp

/-- A detection that ends well has counted the ports it has visited, and has
    passed every check. -/
theorem checks_of_detected {ids : List ℕ} {s : Ports}
    (hend : endOf ((recordPorts rteMaxEthports (ids.map UInt16.ofNat) ⟨0, fun _ => 0⟩).result d) =
      .detected s) :
    (∀ k < ids.length, (Int16.ofNat (k + 1)).toInt < rteMaxEthports) ∧
      s.totalPortCount = Int16.ofNat ids.length := by
  have hreturns : Returns d _ s := (endOf_eq_detected.mp hend).1
  obtain ⟨hchecks, rfl⟩ := returns_recordPorts.mp hreturns
  rw [totalPortCount_foldl, List.length_map, Int16.zero_add]
  rw [List.length_map] at hchecks
  simp only [Int16.zero_add] at hchecks
  exact ⟨hchecks, rfl⟩

/-- On ports that `id` can hold the loop and `detectPorts` find the same. -/
theorem returns_detectPorts_iff (hpos : 0 < rteMaxEthports)
    (hports : ∀ p ∈ ports, p < rteMaxEthports) (hfind : FindsNext rteMaxEthports ports findNext)
    (hids : ∀ p ∈ ports, p < 2 ^ 15)
    (hend : ¬ unsignedInt (portId rteMaxEthports) < rteMaxEthports)
    (hd : d .ethForeachDev = (portList ports).map UInt16.ofNat) {s : Ports} :
    Returns d (detectPorts rteMaxEthports) s ↔
      ∃ fuel, enumerate rteMaxEthports findNext fuel = some (.detected s) := by
  have hloop := enumerate_visits (d := d) hpos hports hfind (List.append_nil _).symm
    (fun p hp => hids p (mem_portList.mp hp)) hend
  have hdetect : Returns d (detectPorts rteMaxEthports) s ↔
      endOf ((recordPorts rteMaxEthports (d .ethForeachDev) ⟨0, fun _ => 0⟩).result d) =
        .detected s := by
    rw [endOf_eq_detected]
    simp only [detectPorts, returns_bind, returns_perform, exists_eq_left', returns_failIf,
      returns_pure]
    constructor
    · rintro ⟨t, ht, -, hne, rfl⟩
      exact ⟨ht, hne⟩
    · rintro ⟨hs, hne⟩
      exact ⟨s, hs, (), hne, rfl⟩
  rw [hdetect, hd]
  constructor
  · intro hs
    exact ⟨_, hloop.trans (congrArg some hs)⟩
  · rintro ⟨fuel, hfuel⟩
    exact enumerateFrom_unique hloop hfuel

/-- A system on which DPDK finds the ports `ids`. -/
def detecting (ids : List UInt16) : Answers
  | .ethForeachDev => ids
  | c => working [] none 0 c

theorem detectable_portList (hne : ports.Nonempty) (hcount : ports.card < 2 ^ 15)
    (hfree : ports.card < rteMaxEthports) :
    Detectable rteMaxEthports ((portList ports).map UInt16.ofNat) := by
  have hlength : ((portList ports).map UInt16.ofNat).length = ports.card := by
    rw [List.length_map, length_portList]
  constructor
  · intro k hk
    rw [Int16.toInt_ofNat_of_lt (by omega)]
    omega
  · intro hzero
    have hcard := Int16.toInt_ofNat_of_lt hcount
    rw [hlength] at hzero
    rw [hzero, Int16.toInt_zero] at hcard
    have := hne.card_pos
    omega

theorem FindsNext.mem_or_eq (h : FindsNext rteMaxEthports ports findNext) (p : UInt16) :
    (findNext p).toNat ∈ ports ∨ (findNext p).toNat = rteMaxEthports := by
  by_cases hnext : ∃ q ∈ ports, p.toNat ≤ q
  · obtain ⟨q, hq, hleast⟩ :=
      WellFounded.has_min Nat.lt_wfRel.wf {q | q ∈ ports ∧ p.toNat ≤ q} hnext
    rw [h.next p q hq.1 hq.2 fun r hr hpr => Nat.not_lt.mp (hleast r ⟨hr, hpr⟩)]
    exact .inl hq.1
  · push Not at hnext
    exact .inr (h.last p hnext)

/-- If neither a port nor the end mark ends the loop, nothing does but the two
    errors inside it. -/
theorem not_end_of_endMark (hports : ∀ p ∈ ports, p < rteMaxEthports)
    (hfind : FindsNext rteMaxEthports ports findNext) (hids : ∀ p ∈ ports, p < 2 ^ 15)
    (hmark : unsignedInt (portId rteMaxEthports) < rteMaxEthports) {fuel : ℕ} {p : UInt16}
    {s : Ports} {o : Detection}
    (ho : enumerateFrom rteMaxEthports findNext fuel (portId (findNext p).toNat) s = some o) :
    o = .outside ∨ o = .exceeds := by
  induction fuel generalizing p s with
  | zero => cases ho
  | succ fuel ih =>
    have htest : unsignedInt (portId (findNext p).toNat) < rteMaxEthports := by
      rcases hfind.mem_or_eq p with hmem | heq
      · rw [unsignedInt_portId (hids _ hmem)]
        exact hports _ hmem
      · rw [heq]
        exact hmark
    simp only [enumerateFrom, if_pos htest] at ho
    split_ifs at ho with hinside hfull
    · exact .inr (Option.some.inj ho).symm
    · exact ih ho
    · exact .inl (Option.some.inj ho).symm

/-! ## The condition -/

theorem toInt_ofNat_le (n : ℕ) : (Int16.ofNat n).toInt ≤ n := by
  have hmod : (Int16.ofNat n).toInt = _ := toInt_portId_mod n
  rw [hmod]
  split_ifs <;> omega

/-- A loop that meets an id that does not fit ends there. -/
theorem ids_of_enumerates (hpos : 0 < rteMaxEthports) (hint : rteMaxEthports < 2 ^ 31)
    (hports : ∀ p ∈ ports, p < rteMaxEthports) (hfind : FindsNext rteMaxEthports ports findNext)
    (h : Enumerates rteMaxEthports ports findNext) : ∀ p ∈ ports, p < 2 ^ 15 := by
  obtain ⟨fuel, o, hfuel, ⟨rfl, rfl⟩ | ⟨s, rfl, -, hholds⟩⟩ := h
  · exact nofun
  have hstored : ∀ p ∈ ports, p < 2 ^ 16 := by
    intro p hp
    obtain ⟨i, hi⟩ := List.mem_iff_getElem?.mp (mem_portList.mpr hp)
    rw [← hholds.entry i p hi]
    exact (s.portIds i).toNat_lt
  have hsplit : portList ports =
      (portList ports).takeWhile (· < 2 ^ 15) ++ (portList ports).dropWhile (· < 2 ^ 15) :=
    List.takeWhile_append_dropWhile.symm
  have hfits : ∀ p ∈ (portList ports).takeWhile (· < 2 ^ 15), p < 2 ^ 15 := by
    intro p hp
    simpa using List.mem_takeWhile_imp hp
  have hhead := List.head?_dropWhile_not (· < 2 ^ 15) (portList ports)
  cases hrest : (portList ports).dropWhile (· < 2 ^ 15) with
  | nil =>
    rw [hrest, List.append_nil] at hsplit
    intro p hp
    apply hfits
    rwa [← hsplit, mem_portList]
  | cons q rest =>
    rw [hrest] at hsplit hhead
    have hq : q ∈ ports := mem_portList.mp (hsplit ▸ by simp)
    have hlarge : 2 ^ 15 ≤ q := by simpa using hhead
    have hend : ¬ unsignedInt (portId q) < rteMaxEthports := by
      rw [unsignedInt_portId_lt hint]
      have := hstored q hq
      omega
    have hloop := enumerate_visits (d := working [] none 0) hpos hports hfind hsplit hfits hend
    have hcount := hholds.count
    rw [(checks_of_detected (enumerateFrom_unique hloop hfuel)).2] at hcount
    have hlength := congrArg List.length hsplit
    rw [length_portList, List.length_append, List.length_cons] at hlength
    have := toInt_ofNat_le ((portList ports).takeWhile (· < 2 ^ 15)).length
    omega

/-- For every limit that is an `int`: all ports are recorded and neither of the two
    errors occurs iff the ports leave one entry of `port_ids` free and the variables
    can hold what they get. -/
theorem enumerates_iff (hpos : 0 < rteMaxEthports) (hint : rteMaxEthports < 2 ^ 31)
    (hports : ∀ p ∈ ports, p < rteMaxEthports) (hfind : FindsNext rteMaxEthports ports findNext) :
    Enumerates rteMaxEthports ports findNext ↔
      ports.card < rteMaxEthports ∧ FitsInt16 rteMaxEthports ports := by
  constructor
  · intro h
    have hids := ids_of_enumerates hpos hint hports hfind h
    obtain ⟨fuel, o, hfuel, hgood⟩ := h
    have hend : ¬ unsignedInt (portId rteMaxEthports) < rteMaxEthports := by
      intro hmark
      rcases not_end_of_endMark hports hfind hids hmark hfuel with rfl | rfl <;> simp at hgood
    rcases hgood with ⟨rfl, rfl⟩ | ⟨s, rfl, hne, hholds⟩
    · exact ⟨hpos, hids, by norm_num, (endMark_iff hint).mp hend⟩
    have hloop := enumerate_visits (d := working [] none 0) hpos hports hfind
      (List.append_nil _).symm (fun p hp => hids p (mem_portList.mp hp)) hend
    obtain ⟨hchecks, hcount⟩ := checks_of_detected (enumerateFrom_unique hloop hfuel)
    have hcard := hholds.count
    rw [hcount, length_portList] at hcard
    have hfits : ports.card < 2 ^ 15 := by
      have := (Int16.ofNat ports.card).toInt_lt
      omega
    have hpositive := Finset.card_pos.mpr (Finset.nonempty_iff_ne_empty.mpr hne)
    have hlast := hchecks (ports.card - 1) (by rw [length_portList]; omega)
    rw [Nat.sub_add_cancel hpositive, hcard] at hlast
    exact ⟨by omega, hids, hfits, (endMark_iff hint).mp hend⟩
  · rintro ⟨hfree, hids, hcount, hmark⟩
    have hend := (endMark_iff hint).mpr hmark
    rcases ports.eq_empty_or_nonempty with rfl | hne
    · have hloop := enumerate_visits (d := detecting []) hpos hports hfind
        (List.append_nil _).symm (fun p hp => hids p (mem_portList.mp hp)) hend
      rw [show portList ∅ = [] from Finset.sort_empty _] at hloop
      exact ⟨_, _, hloop, .inl ⟨rfl, rfl⟩⟩
    · have hreturns :=
        (returns_detectPorts (d := detecting ((portList ports).map UInt16.ofNat))).mpr
          ⟨detectable_portList hne hcount hfree, rfl⟩
      obtain ⟨fuel, hfuel⟩ :=
        (returns_detectPorts_iff hpos hports hfind hids hend rfl).mp hreturns
      exact ⟨fuel, _, hfuel, .inr ⟨_, rfl, hne.ne_empty, holds_recorded hids hcount⟩⟩

/-! ## Concrete ports -/

/-- `rte_eth_find_next_owned_by` where the ports `ports` are valid. -/
def findNextIn (rteMaxEthports : ℕ) (ports : Finset ℕ) (p : UInt16) : UInt64 :=
  UInt64.ofNat (((portList ports).find? (p.toNat ≤ ·)).getD rteMaxEthports)

theorem findsNext_findNextIn (hint : rteMaxEthports < 2 ^ 31)
    (hports : ∀ p ∈ ports, p < rteMaxEthports) :
    FindsNext rteMaxEthports ports (findNextIn rteMaxEthports ports) where
  next := by
    intro p q hq hpq hleast
    have hfind : (portList ports).find? (p.toNat ≤ ·) = some q := by
      rw [List.find?_eq_some_iff_append]
      obtain ⟨before, after, hsplit⟩ := List.mem_iff_append.mp (mem_portList.mpr hq)
      refine ⟨by simpa using hpq, before, after, hsplit, ?_⟩
      intro r hr
      have hsorted : (portList ports).Pairwise (· < ·) := ports.sortedLT_sort.pairwise
      rw [hsplit, List.pairwise_append] at hsorted
      have hlt := hsorted.2.2 r hr q List.mem_cons_self
      have hmem : r ∈ ports := mem_portList.mp (hsplit ▸ List.mem_append_left _ hr)
      have hnot : ¬ p.toNat ≤ r := fun hpr => absurd (hleast r hmem hpr) (Nat.not_le.mpr hlt)
      simpa using hnot
    have := hports q hq
    rw [findNextIn, hfind, Option.getD_some]
    exact UInt64.toNat_ofNat_of_lt' (by rw [UInt64.size]; omega)
  last := by
    intro p hbelow
    have hfind : (portList ports).find? (p.toNat ≤ ·) = none := by
      rw [List.find?_eq_none]
      intro q hq
      simpa using hbelow q (mem_portList.mp hq)
    rw [findNextIn, hfind, Option.getD_none]
    exact UInt64.toNat_ofNat_of_lt' (by rw [UInt64.size]; omega)

/-- Three ports with gaps, the default limit. -/
theorem enumerates_sparse : Enumerates 32 {0, 2, 5} (findNextIn 32 {0, 2, 5}) := by
  have hports : ∀ p ∈ ({0, 2, 5} : Finset ℕ), p < 32 := by decide
  refine (enumerates_iff (by norm_num) (by norm_num) hports
    (findsNext_findNextIn (by norm_num) hports)).mpr ⟨by decide, ?_⟩
  exact ⟨by decide, by decide, .inl (by norm_num)⟩

/-- As many ports as `port_ids` has entries: the program refuses them. -/
theorem full_set_exceeds :
    FindsNext 32 (Finset.range 32) (findNextIn 32 (Finset.range 32)) ∧
      enumerate 32 (findNextIn 32 (Finset.range 32)) 32 = some .exceeds ∧
      ¬ Enumerates 32 (Finset.range 32) (findNextIn 32 (Finset.range 32)) := by
  have hexceeds : enumerate 32 (findNextIn 32 (Finset.range 32)) 32 = some .exceeds := by
    unfold findNextIn
    rw [show portList (Finset.range 32) = List.range 32 from Finset.sort_range 32]
    rfl
  refine ⟨findsNext_findNextIn (by norm_num) fun p hp => Finset.mem_range.mp hp, hexceeds, ?_⟩
  rintro ⟨fuel, o, hfuel, hgood⟩
  obtain rfl := enumerateFrom_unique hexceeds hfuel
  simp at hgood

end DpdkTutorials.Startup

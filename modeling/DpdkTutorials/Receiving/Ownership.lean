import DpdkTutorials.Common.Custody
import DpdkTutorials.Receiving.Model

/-!
# What becomes of a received packet

Every buffer is in the pool, in the descriptors of one queue or in the hand of
one routine. A burst takes buffers out of a queue, whose places the driver fills
from the pool; a bulk free returns all of them.

* `pollerStep_effect`: what a step does to the buffers.
* `received_freed_once`: in every interleaving each received packet is freed
  exactly once, in order, by the routine that has received it.
* `printed_received`: what has been printed when a routine tests the indicator.
-/

namespace DpdkTutorials.Receiving

open DpdkTutorials.Common DpdkTutorials.Dpdk
open DpdkTutorials.Processing (Packet RxBurst poolCacheSize rxBurst_frame held_rxBurst)

universe u v w

variable {ι : Type u} {κ : Type w} {β : Type v}

/-! ## The local variables -/

/-- The index stays inside the burst, and the counters do not wrap. -/
structure Poller.Wf (p : Poller β) : Prop where
  count : p.rxCount = p.rxPackets.length
  short : p.rxPackets.length ≤ maxBurst
  inside : p.i ≤ p.rxPackets.length

theorem length_burst_mod {bs : List β} (h : bs.length ≤ maxBurst) :
    bs.length % 2 ^ 16 = bs.length := by
  have hle : bs.length ≤ 32 := h
  exact Nat.mod_eq_of_lt (by omega)

theorem Poller.Wf.next {p : Poller β} (hw : p.Wf) (h : p.i < p.rxPackets.length) :
    (p.i + 1) % 2 ^ 16 = p.i + 1 := by
  have hshort : p.rxPackets.length ≤ 32 := hw.short
  exact Nat.mod_eq_of_lt (by omega)

theorem Poller.Wf.take {p : Poller β} (hw : p.Wf) : p.rxPackets.take p.rxCount = p.rxPackets := by
  rw [hw.count, List.take_length]

/-- The packets that each routine has still to free. -/
def State.pending (s : State ι κ β) (k : κ) : List β := (s.poller k).pending

theorem pending_update [DecidableEq κ] {s t : State ι κ β} {k : κ} (p : Poller β)
    (ht : t.poller = Function.update s.poller k p) :
    t.pending = Function.update s.pending k p.pending := by
  funext j
  show (t.poller j).pending = _
  rw [ht]
  exact Function.apply_update (fun _ q => Poller.pending q) s.poller k p j

section Steps

variable [Fintype ι] [DecidableEq κ] {report : Report} {lcore : ι}
  {queue : UInt16} {k : κ} {s t : State ι κ β}

/-- Nothing of the other routines changes. -/
theorem pollerStep_frame (h : PollerStep report lcore queue k s t) {j : κ} (hj : j ≠ k) :
    t.poller j = s.poller j ∧ t.received j = s.received j ∧ t.freed j = s.freed j ∧
      t.printed j = s.printed j := by
  cases h with
  | _ => simp [State.goTo, Function.update_of_ne hj]

theorem pollerStep_wf (h : PollerStep report lcore queue k s t) (hw : (s.poller k).Wf) :
    (t.poller k).Wf := by
  cases h with
  | exit | enter | printed | printCount | freeBulk =>
    simpa [State.goTo] using ⟨hw.count, hw.short, hw.inside⟩
  | burst _ _ hlen => simpa using ⟨length_burst_mod hlen, hlen, Nat.zero_le _⟩
  | printLength hi =>
    simp only [Function.update_self, hw.next hi]
    exact ⟨hw.count, hw.short, hi⟩

end Steps

/-! ## What a step does to the buffers -/

/-- The routine uses its own variables only. -/
structure Quiet (s t : State ι κ β) : Prop where
  pool : t.pool = s.pool
  rxQueue : t.rxQueue = s.rxQueue
  mem : t.mem = s.mem
  pending : t.pending = s.pending
  received : t.received = s.received
  freed : t.freed = s.freed

/-- The routine receives `bs`. -/
structure Arrives [Fintype ι] [DecidableEq κ] (lcore : ι) (queue : UInt16) (k : κ) (bs : List β)
    (s t : State ι κ β) : Prop where
  empty : s.pending k = []
  rxBurst : RxBurst lcore ⟨s.pool, s.rxQueue queue⟩ bs ⟨t.pool, t.rxQueue queue⟩
  rxQueue : t.rxQueue = Function.update s.rxQueue queue (t.rxQueue queue)
  mem : ∀ b, b ∉ s.pool.avail → (∀ q, b ∉ s.rxQueue q) → t.mem b = s.mem b
  pending : t.pending = Function.update s.pending k bs
  received : t.received = Function.update s.received k (s.received k ++ bs.map t.mem)
  serial : (bs.map t.mem).map Packet.serial = List.range' (s.received k).length bs.length
  freed : t.freed = s.freed

/-- The routine frees all packets of its burst. -/
structure Departs [DecidableEq κ] (lcore : ι) (k : κ) (s t : State ι κ β) : Prop where
  putMany : CachedPool.PutMany lcore s.pool (s.pending k) t.pool
  rxQueue : t.rxQueue = s.rxQueue
  mem : t.mem = s.mem
  pending : t.pending = Function.update s.pending k []
  received : t.received = s.received
  freed : t.freed = Function.update s.freed k (s.freed k ++ (s.pending k).map s.mem)

inductive Effect [Fintype ι] [DecidableEq κ] (lcore : ι) (queue : UInt16) (k : κ)
    (s t : State ι κ β) : Prop where
  | quiet : Quiet s t → Effect lcore queue k s t
  | arrives (bs : List β) : Arrives lcore queue k bs s t → Effect lcore queue k s t
  | departs : Departs lcore k s t → Effect lcore queue k s t

section Effects

variable [DecidableEq κ] {s t : State ι κ β} {k : κ}

/-- The routine goes on with the same burst. -/
theorem quiet_update {p : Poller β} (hp : p.pending = (s.poller k).pending)
    (ht : t.poller = Function.update s.poller k p) (hpool : t.pool = s.pool)
    (hqueue : t.rxQueue = s.rxQueue) (hmem : t.mem = s.mem) (hreceived : t.received = s.received)
    (hfreed : t.freed = s.freed) : Quiet s t := by
  refine ⟨hpool, hqueue, hmem, ?_, hreceived, hfreed⟩
  rw [pending_update p ht, hp]
  exact Function.update_eq_self k s.pending

theorem pollerStep_effect [Fintype ι] {report : Report} {lcore : ι} {queue : UInt16}
    (h : PollerStep report lcore queue k s t) (hw : (s.poller k).Wf) :
    Effect lcore queue k s t := by
  cases h with
  | exit hpc | enter hpc =>
    exact .quiet (quiet_update (by simp [Poller.pending, hpc]) rfl rfl rfl rfl rfl rfl)
  | printLength _ _ hpc | printed _ hpc | printCount _ hpc =>
    exact .quiet (quiet_update (by simp [Poller.pending, hpc]) rfl rfl rfl rfl rfl rfl)
  | @burst bs pool' rxQueue' mem' hpc hrx hlen hmem hserial =>
    refine .arrives bs ⟨by simp [State.pending, Poller.pending, hpc], ?_, ?_, hmem, ?_, rfl,
      hserial, rfl⟩
    · simpa using hrx
    · simp
    · rw [pending_update _ rfl, length_burst_mod hlen]
      cases bs with
      | nil => rfl
      | cons b bs => rfl
  | freeBulk hpc hput =>
    have hpending : s.pending k = (s.poller k).rxPackets := by
      simp [State.pending, Poller.pending, hpc]
    rw [hw.take, ← hpending] at hput
    refine .departs ⟨hput, rfl, rfl, ?_, rfl, ?_⟩
    · exact pending_update { s.poller k with pc := .whileTest } rfl
    · simp only [hw.take, hpending]

end Effects

/-! ## The invariant -/

/-- The buffers in the hands of the routines. -/
def State.hand (s : State ι κ β) (k : κ) : Multiset β := ↑(s.pending k)

theorem hand_update [DecidableEq κ] {s t : State ι κ β} {k : κ} {bs : List β}
    (h : t.pending = Function.update s.pending k bs) :
    t.hand = Function.update s.hand k ↑bs := by
  funext j
  show (↑(t.pending j) : Multiset β) = _
  rw [h]
  exact Function.apply_update (fun _ (bs : List β) => (bs : Multiset β)) s.pending k bs j

section Invariant

variable [Fintype ι] [Fintype κ] {S : Setup ι κ} {k : κ} {s t : State ι κ β}

/-- The buffers in the pool and in the descriptors. -/
def State.held (S : Setup ι κ) (s : State ι κ β) : Multiset β :=
  s.pool.avail + ∑ k, s.rxQueue (S.queue k)

structure Inv (S : Setup ι κ) (s : State ι κ β) : Prop where
  wf : ∀ k, (s.poller k).Wf
  owned : (custody (s.held S) s.hand).Nodup
  total : (custody (s.held S) s.hand).card = memoryPoolSize
  full : ∀ k, (s.rxQueue (S.queue k)).card = rxDescriptors
  idle : ∀ q, (∀ k, S.queue k ≠ q) → s.rxQueue q = 0
  caches : ∀ l, (∀ k, S.lcore k ≠ l) → s.pool.cache l = 0
  flow : ∀ k, s.freed k ++ (s.pending k).map s.mem = s.received k
  serial : ∀ k, (s.received k).map Packet.serial = List.range (s.received k).length

theorem Inv.nodup_received (hi : Inv S s) (k : κ) : (s.received k).Nodup :=
  .of_map Packet.serial (by rw [hi.serial]; exact List.nodup_range)

theorem inv_start {pool : CachedPool ι β poolCacheSize} {rxQueue : UInt16 → Multiset β}
    (mem : β → Packet) (h : Started S pool rxQueue) : Inv S (start pool rxQueue mem) where
  wf _ := ⟨rfl, Nat.zero_le _, le_rfl⟩
  owned := by
    simpa [custody, State.held, State.hand, State.pending, start, Poller.pending] using h.nodup
  total := by
    simpa [custody, State.held, State.hand, State.pending, start, Poller.pending] using h.total
  full := h.full
  idle := h.idle
  caches l hl := h.caches l fun heq => hl S.main heq.symm
  flow _ := rfl
  serial _ := rfl

/-- The NIC does not touch the packets in the hands of the routines. -/
theorem Inv.map_pending_mem (hi : Inv S s) {mem' : β → Packet}
    (hmem : ∀ b, b ∉ s.pool.avail → (∀ q, b ∉ s.rxQueue q) → mem' b = s.mem b) (j : κ) :
    (s.pending j).map mem' = (s.pending j).map s.mem := by
  apply List.map_congr_left
  intro b hb
  have hheld : b ∉ s.held S := not_mem_store (k := j) hi.owned hb
  rw [State.held, Multiset.mem_add, not_or] at hheld
  refine hmem b hheld.1 fun q hq => ?_
  by_cases hpolled : ∃ k, S.queue k = q
  · obtain ⟨k, rfl⟩ := hpolled
    exact hheld.2 (Multiset.mem_sum.mpr ⟨k, Finset.mem_univ k, hq⟩)
  · rw [hi.idle q (not_exists.mp hpolled)] at hq
    exact Multiset.notMem_zero b hq

theorem inv_quiet (hi : Inv S s) (hw : ∀ j, (t.poller j).Wf) (h : Quiet s t) : Inv S t := by
  obtain ⟨hpool, hqueue, hmem, hpending, hreceived, hfreed⟩ := h
  have hheld : t.held S = s.held S := by rw [State.held, hpool, hqueue]; rfl
  have hhand : t.hand = s.hand := by funext j; rw [State.hand, hpending]; rfl
  refine ⟨hw, ?_, ?_, ?_, ?_, ?_, ?_, ?_⟩
  · rw [hheld, hhand]; exact hi.owned
  · rw [hheld, hhand]; exact hi.total
  · rw [hqueue]; exact hi.full
  · rw [hqueue]; exact hi.idle
  · rw [hpool]; exact hi.caches
  · rw [hpending, hmem, hreceived, hfreed]; exact hi.flow
  · rw [hreceived]; exact hi.serial

variable [DecidableEq κ]

/-- What a burst takes out of the queue and the pool. -/
theorem Arrives.held [DecidableEq ι] {bs : List β}
    (h : Arrives (S.lcore k) (S.queue k) k bs s t) : s.held S = ↑bs + t.held S := by
  have hqueues : (fun j => t.rxQueue (S.queue j)) =
      Function.update (fun j => s.rxQueue (S.queue j)) k (t.rxQueue (S.queue k)) :=
    (congrArg (· ∘ S.queue) h.rxQueue).trans
      (Function.update_comp_eq_of_injective s.rxQueue S.queue_injective k _)
  have hheld := held_rxBurst h.rxBurst
  show _ = ↑bs + (t.pool.avail + ∑ j, (fun j => t.rxQueue (S.queue j)) j)
  rw [hqueues, ← add_assoc]
  refine (add_sum_update ?_).symm
  rw [add_assoc]
  exact hheld.symm

theorem Arrives.custody_eq [DecidableEq ι] {bs : List β}
    (h : Arrives (S.lcore k) (S.queue k) k bs s t) :
    custody (t.held S) t.hand = custody (s.held S) s.hand := by
  rw [hand_update h.pending]
  apply custody_update
  have hnone : s.hand k = 0 := by simp [State.hand, h.empty]
  rw [h.held, hnone, add_zero, add_comm]

theorem Departs.custody_eq [DecidableEq ι] (h : Departs (S.lcore k) k s t) :
    custody (t.held S) t.hand = custody (s.held S) s.hand := by
  rw [hand_update h.pending]
  apply custody_update
  show t.pool.avail + _ + _ = s.pool.avail + _ + _
  rw [CachedPool.avail_putMany h.putMany, h.rxQueue, Multiset.coe_nil, add_zero]
  show s.hand k + _ + _ = _
  abel

theorem inv_arrives [DecidableEq ι] (hi : Inv S s) (hw : ∀ j, (t.poller j).Wf) {bs : List β}
    (h : Arrives (S.lcore k) (S.queue k) k bs s t) : Inv S t := by
  obtain ⟨hcard, hcache⟩ := rxBurst_frame h.rxBurst
  refine ⟨hw, ?_, ?_, fun j => ?_, fun q hq => ?_, fun l hl => ?_, fun j => ?_, fun j => ?_⟩
  · rw [h.custody_eq]; exact hi.owned
  · rw [h.custody_eq]; exact hi.total
  · by_cases hj : j = k
    · subst hj
      exact hcard.trans (hi.full j)
    · rw [h.rxQueue, Function.update_of_ne (S.queue_injective.ne hj)]
      exact hi.full j
  · rw [h.rxQueue, Function.update_of_ne (hq k).symm]
    exact hi.idle q hq
  · exact (hcache l (hl k).symm).trans (hi.caches l hl)
  · have hflow := hi.flow j
    rw [h.freed, h.pending, h.received]
    by_cases hj : j = k
    · subst hj
      rw [h.empty] at hflow
      simpa using hflow
    · simpa [Function.update_of_ne hj, hi.map_pending_mem h.mem j] using hflow
  · rw [h.received]
    by_cases hj : j = k
    · subst hj
      rw [Function.update_self, List.map_append, h.serial, hi.serial, List.length_append,
        List.length_map, List.range_eq_range', List.range_eq_range', ← List.range'_append_1,
        Nat.zero_add]
    · rw [Function.update_of_ne hj]
      exact hi.serial j

theorem inv_departs [DecidableEq ι] (hi : Inv S s) (hw : ∀ j, (t.poller j).Wf)
    (h : Departs (S.lcore k) k s t) : Inv S t := by
  refine ⟨hw, ?_, ?_, ?_, ?_, fun l hl => ?_, fun j => ?_, ?_⟩
  · rw [h.custody_eq]; exact hi.owned
  · rw [h.custody_eq]; exact hi.total
  · rw [h.rxQueue]; exact hi.full
  · rw [h.rxQueue]; exact hi.idle
  · exact (CachedPool.cache_of_putMany h.putMany (hl k).symm).trans (hi.caches l hl)
  · have hflow := hi.flow j
    rw [h.freed, h.pending, h.received, h.mem]
    by_cases hj : j = k
    · subst hj
      simpa using hflow
    · simpa [Function.update_of_ne hj] using hflow
  · rw [h.received]; exact hi.serial

theorem inv_pollerStep [DecidableEq ι] (hi : Inv S s)
    (h : PollerStep S.report (S.lcore k) (S.queue k) k s t) : Inv S t := by
  have hw : ∀ j, (t.poller j).Wf := by
    intro j
    by_cases hj : j = k
    · subst hj
      exact pollerStep_wf h (hi.wf j)
    · rw [(pollerStep_frame h hj).1]
      exact hi.wf j
  cases pollerStep_effect h (hi.wf k) with
  | quiet hq => exact inv_quiet hi hw hq
  | arrives bs ha => exact inv_arrives hi hw ha
  | departs hd => exact inv_departs hi hw hd

theorem inv_reachable [DecidableEq ι] (hs : (system β S).Reachable s) : Inv S s := by
  refine hs.invariant (P := Inv S) ?_ ?_
  · rintro _ ⟨pool, rxQueue, mem, rfl, hstarted⟩
    exact inv_start mem hstarted
  · intro s t _ hi h
    cases h with
    | poller k h => exact inv_pollerStep hi h
    | terminate => exact inv_quiet hi hi.wf ⟨rfl, rfl, rfl, rfl, rfl, rfl⟩

end Invariant

/-! ## What is printed -/

/-- How many packets of the burst the report covers so far. -/
def Poller.shown (p : Poller β) : ℕ :=
  match p.pc with
  | .print => p.i
  | .freeBulk => p.rxPackets.length
  | _ => 0

/-- The report covers the packets that are freed and the ones shown since. -/
def Reported (report : Report) (s : State ι κ β) (k : κ) : Prop :=
  match report with
  | .lengths => s.printed k =
      (s.freed k ++ ((s.pending k).map s.mem).take (s.poller k).shown).map Packet.dataLen
  | .count => (s.printed k).sum = (s.freed k).length + (s.poller k).shown ∧ (s.poller k).i = 0

section Printed

variable [Fintype ι] [DecidableEq κ] {S : Setup ι κ} {k : κ} {s t : State ι κ β}

/-- A step of the routine itself. -/
theorem reported_pollerStep (hw : (s.poller k).Wf) {lcore : ι} {queue : UInt16} {report : Report}
    (hr : Reported report s k) (h : PollerStep report lcore queue k s t) :
    Reported report t k := by
  cases h with
  | exit hpc | enter hpc =>
    cases report with
    | lengths => simpa [Reported, State.goTo, State.pending, Poller.shown, hpc] using hr
    | count => simpa [Reported, State.goTo, Poller.shown, hpc] using hr
  | @burst bs pool' rxQueue' mem' hpc _ hlen =>
    have hbefore : (s.poller k).shown = 0 := by simp [Poller.shown, hpc]
    have hafter : Poller.shown ⟨if bs.length % 2 ^ 16 = 0 then .whileTest else .print, bs,
        bs.length % 2 ^ 16, 0⟩ = 0 := by
      unfold Poller.shown
      split_ifs <;> rfl
    cases report with
    | lengths =>
      simp only [Reported, hbefore, List.take_zero] at hr
      simpa only [Reported, Function.update_self, hafter, List.take_zero] using hr
    | count =>
      have hr : (s.printed k).sum = _ ∧ _ := hr
      rw [hbefore] at hr
      simpa only [Reported, Function.update_self, hafter] using ⟨hr.1, trivial⟩
  | printLength hi hreport hpc =>
    subst hreport
    have hr : s.printed k = _ := hr
    simp only [Reported, State.pending, Poller.pending, Poller.shown, hpc] at hr ⊢
    simp only [Function.update_self, hw.next hi, hr]
    rw [List.take_succ_eq_append_getElem (by simpa using hi)]
    simp
  | printed hreport hpc hi =>
    subst hreport
    have hr : s.printed k = _ := hr
    have hall : (s.poller k).i = (s.poller k).rxPackets.length :=
      le_antisymm hw.inside (by rw [← hw.count]; omega)
    simpa [Reported, State.goTo, State.pending, Poller.pending, Poller.shown, hpc, hall] using hr
  | printCount hreport hpc =>
    subst hreport
    have hr : (s.printed k).sum = _ ∧ (s.poller k).i = 0 := hr
    simpa [Reported, Poller.shown, hpc, hr.2, hw.count] using hr.1
  | freeBulk hpc =>
    cases report with
    | lengths =>
      have hr : s.printed k = _ := hr
      simp only [State.pending, Poller.pending, Poller.shown, hpc] at hr
      simpa [Reported, State.pending, Poller.shown, hw.take, List.take_of_length_le] using hr
    | count =>
      have hr : (s.printed k).sum = _ ∧ (s.poller k).i = 0 := hr
      simpa [Reported, Poller.shown, hpc, hw.count] using hr

variable [Fintype κ]

/-- A step of another routine. -/
theorem reported_frame (hi : Inv S s) {j : κ} (hj : j ≠ k) (hr : Reported S.report s j)
    (h : PollerStep S.report (S.lcore k) (S.queue k) k s t) : Reported S.report t j := by
  obtain ⟨hpoller, -, hfreed, hprinted⟩ := pollerStep_frame h hj
  have hpending : (t.pending j).map t.mem = (s.pending j).map s.mem := by
    have hsame : t.pending j = s.pending j := congrArg Poller.pending hpoller
    rw [hsame]
    cases pollerStep_effect h (hi.wf k) with
    | quiet hq => rw [hq.mem]
    | arrives bs ha => exact hi.map_pending_mem ha.mem j
    | departs hd => rw [hd.mem]
  unfold Reported at hr ⊢
  rw [hprinted, hfreed, hpoller, hpending]
  exact hr

theorem reported_reachable [DecidableEq ι] (hs : (system β S).Reachable s) :
    Reported S.report s k := by
  refine hs.invariant (P := fun s => ∀ k, Reported S.report s k) ?_ ?_ k
  · rintro _ ⟨pool, rxQueue, mem, rfl, hstarted⟩ k
    unfold Reported
    split
    · rfl
    · exact ⟨rfl, rfl⟩
  · intro s t hs hr h j
    cases h with
    | poller k h =>
      by_cases hj : j = k
      · subst hj
        exact reported_pollerStep ((inv_reachable hs).wf j) (hr j) h
      · exact reported_frame (inv_reachable hs) hj (hr j) h
    | terminate => exact hr j

end Printed

/-! ## The results -/

section Results

variable [DecidableEq ι] [Fintype ι] [DecidableEq κ] [Fintype κ] {S : Setup ι κ}
  {s : State ι κ β}

/-- Every buffer of the pool is in one place. What a routine has received is what
    it has freed, each packet once and in order, and then what is in its hand. -/
theorem received_freed_once (hs : (system β S).Reachable s) :
    (s.pool.avail + ∑ k, s.rxQueue (S.queue k) + ∑ k, (s.pending k : Multiset β)).Nodup ∧
    (s.pool.avail + ∑ k, s.rxQueue (S.queue k) + ∑ k, (s.pending k : Multiset β)).card =
      memoryPoolSize ∧
    ∀ k, s.freed k ++ (s.pending k).map s.mem = s.received k ∧
      ∀ p ∈ s.freed k, (s.freed k).count p = 1 := by
  have hi := inv_reachable hs
  refine ⟨hi.owned, hi.total, fun k => ⟨hi.flow k, fun p hp => ?_⟩⟩
  have hnodup := hi.nodup_received k
  rw [← hi.flow k] at hnodup
  exact List.count_eq_one_of_mem (List.nodup_append.mp hnodup).1 hp

theorem received_freed_once_twoInHand : ∃ s : State (Fin 2) Unit ℕ,
    s.pending () = [0, 1] ∧ s.received () = [packets 0, packets 1] ∧
    s.freed () ++ (s.pending ()).map s.mem = s.received () ∧
    (s.pool.avail + ∑ k, s.rxQueue ((reading (0 : Fin 2)).queue k) +
      ∑ k, (s.pending k : Multiset ℕ)).card = memoryPoolSize := by
  obtain ⟨e, h⟩ := exists_twoInHand
  have hall := received_freed_once h
  exact ⟨_, rfl, rfl, (hall.2.2 ()).1, hall.2.1⟩

/-- When a routine tests the indicator or has returned, it has freed everything
    it has received, and its report is complete. -/
theorem printed_received (hs : (system β S).Reachable s) (k : κ)
    (hpc : (s.poller k).pc = .whileTest ∨ (s.poller k).pc = .returned) :
    s.freed k = s.received k ∧
    (S.report = .lengths → s.printed k = (s.received k).map Packet.dataLen) ∧
    (S.report = .count → (s.printed k).sum = (s.received k).length) := by
  have hnone : s.pending k = [] := by
    rcases hpc with hpc | hpc <;> simp [State.pending, Poller.pending, hpc]
  have hshown : (s.poller k).shown = 0 := by
    rcases hpc with hpc | hpc <;> simp [Poller.shown, hpc]
  have hflow := (inv_reachable hs).flow k
  have hr := reported_reachable hs (k := k)
  rw [hnone, List.map_nil, List.append_nil] at hflow
  refine ⟨hflow, fun hreport => ?_, fun hreport => ?_⟩
  · rw [hreport] at hr
    simpa [Reported, hshown, hflow] using hr
  · rw [hreport] at hr
    have hsum := hr.1
    rwa [hshown, hflow, Nat.add_zero] at hsum

theorem printed_received_twoFreed : ∃ s : State (Fin 2) Unit ℕ,
    (s.poller ()).pc = .whileTest ∧ s.freed () = [packets 0, packets 1] ∧
      s.printed () = [60, 61] := by
  obtain ⟨s, hs, hpc, hreceived⟩ := exists_twoFreed
  have hall := printed_received hs () (.inl hpc)
  exact ⟨s, hpc, hall.1.trans hreceived, (hall.2.1 rfl).trans (congrArg _ hreceived)⟩

end Results

end DpdkTutorials.Receiving

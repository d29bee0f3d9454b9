import DpdkTutorials.Common.Termination
import DpdkTutorials.Multiprocess.Delivery

/-!
# The end of the processes of `8-multiprocess-communication`

Each process has its own `exit_indicator` and tests it once per packet. Neither
waits for the other: not for room in the ring, not for packets, and the primary
frees the ring whatever is left in it (main.cpp:281-284).

* `primary_exits`: a signalled primary ends after a few steps of its own.
* `secondary_exits`: so does a signalled secondary, unless the ring is freed while it
  is about to take packets from it.
* `totals_at_exit`: the totals that the two print differ by the packets left
  behind, and these are the buffers that never get back to the pool.
-/

namespace DpdkTutorials.Multiprocess

open DpdkTutorials.Common DpdkTutorials.Dpdk

universe u v w

/-! ## The steps that are left -/

section Ranks

variable {ι : Type u} {β : Type v} {ε : Type w}

/-- The steps of the primary that are left once its indicator is set. -/
def PrimaryPc.rank : PrimaryPc β → ℕ
  | .exited => 0
  | .ringFree => 1
  | .whileTest => 2
  | .unableToEnqueue _ => 3
  | .enqueue _ => 4
  | .fill _ => 5
  | .stamp _ => 6
  | .alloc => 7

theorem PrimaryPc.rank_le (pc : PrimaryPc β) : pc.rank ≤ 7 := by
  cases pc with
  | _ => simp [PrimaryPc.rank]

/-- The steps of the secondary that are left once its indicator is set. A burst
    has one packet at most. -/
def Secondary.rank (c : Secondary β) : ℕ :=
  match c.pc with
  | .absent | .exited | .usedFreedRing => 0
  | .whileTest => 1
  | .lookup => 2
  | .forLoop => 2 + 2 * (c.rxPackets.length - c.i)
  | .free => 1 + 2 * (c.rxPackets.length - c.i)
  | .dequeue => 5

theorem Secondary.Wf.rank_le {c : Secondary β} (hw : c.Wf) : c.rank ≤ 5 := by
  have hshort := hw.short
  unfold Secondary.rank
  split <;> omega

theorem primaryStep_rank [DecidableEq β] {P : Mempool ι β ε} {l : ι} {s t : State β ε}
    (h : PrimaryStep P l s t) (hexit : s.primary.exitIndicator = true) :
    t.primary.exitIndicator = true ∧ t.primary.pc.rank < s.primary.pc.rank := by
  cases h with
  | enter _ hrun =>
    rw [hexit] at hrun
    contradiction
  | exit hpc | alloc hpc | allocFailed hpc | stamp _ hpc | fill hpc | enqueue hpc | full hpc
  | drop hpc | ringFree hpc => exact ⟨hexit, by simp [PrimaryPc.rank, hpc]⟩

theorem secondaryStep_rank {P : Mempool ι β ε} {l : ι} {s t : State β ε}
    (h : SecondaryStep P l s t) (hw : s.secondary.Wf) (hpc : s.secondary.pc ≠ .absent)
    (hexit : s.secondary.exitIndicator = true) :
    (t.secondary.pc ≠ .absent ∧ t.secondary.exitIndicator = true) ∧
      t.secondary.rank < s.secondary.rank := by
  have hshort := hw.short
  cases h with
  | launch habsent => exact absurd habsent hpc
  | enter _ hrun =>
    rw [hexit] at hrun
    contradiction
  | dequeue hc _ hdeq =>
    have hlen := Ring.length_dequeueBurst_le s.ringBuffer 1
    rw [hdeq] at hlen
    simp only [Secondary.rank, hc]
    split_ifs
    · exact ⟨⟨by simp, hexit⟩, by simp⟩
    · refine ⟨⟨by simp, hexit⟩, ?_⟩
      simp only at hlen ⊢
      omega
  | free hlt hc =>
    refine ⟨⟨by simp, hexit⟩, ?_⟩
    simp only [Secondary.rank, hc, hw.next hlt]
    omega
  | lookup hc | lookupFailed hc | exit hc | dequeueFreed hc | process _ hc | done hc =>
    refine ⟨⟨by simp, hexit⟩, ?_⟩
    simp only [Secondary.rank, hc]
    omega

end Ranks

/-! ## Both processes end -/

section Runs

variable {ι : Type u} {β : Type v} [DecidableEq ι] [Fintype ι] [DecidableEq β] {r c : ι}
  {s t : State β (CachedPool ι β rteMempoolCacheMaxSize)}

/-- A step that is not one of the primary. -/
def BesidePrimary (r c : ι) (s t : State β (CachedPool ι β rteMempoolCacheMaxSize)) : Prop :=
  RelaunchStep (memoryBufferPool ι β) r c s t ∧ ¬ PrimaryStep (memoryBufferPool ι β) r s t

/-- The ring has been freed before a call of `rte_ring_dequeue_burst` that the
    secondary has made or makes next. -/
def RingFreedUnder (s : State β (CachedPool ι β rteMempoolCacheMaxSize)) : Prop :=
  s.secondary.pc = .usedFreedRing ∨ s.secondary.pc = .dequeue ∧ s.ringFreed = true

/-- A step that is not one of the secondary. It is not started again, and the ring is
    not freed under it. -/
def BesideSecondary (r c : ι) (s t : State β (CachedPool ι β rteMempoolCacheMaxSize)) : Prop :=
  Step (memoryBufferPool ι β) r c s t ∧ ¬ SecondaryStep (memoryBufferPool ι β) c s t ∧
    ¬ RingFreedUnder t

/-- The primary has ended, and has freed the ring. -/
structure PrimaryEnded (s : State β (CachedPool ι β rteMempoolCacheMaxSize)) : Prop where
  exited : s.primary.pc = .exited
  ringFreed : s.ringFreed = true

/-- The secondary has left its loop, or has found no ring. -/
def SecondaryExited (s : State β (CachedPool ι β rteMempoolCacheMaxSize)) : Prop :=
  s.secondary.pc = .exited

theorem besidePrimary_frame (h : BesidePrimary r c s t) :
    t.primary.pc = s.primary.pc ∧ t.ringFreed = s.ringFreed ∧
      (s.primary.exitIndicator = true → t.primary.exitIndicator = true) := by
  obtain ⟨hstep, hnot⟩ := h
  cases hstep with
  | step hstep =>
    cases hstep with
    | primary hstep => exact absurd hstep hnot
    | secondary hstep =>
      obtain ⟨hprimary, -, hfreed⟩ := hstep.frame
      rw [hprimary]
      exact ⟨rfl, hfreed, id⟩
    | terminatePrimary => exact ⟨rfl, rfl, fun _ => rfl⟩
    | terminateSecondary _ => exact ⟨rfl, rfl, id⟩
  | relaunch _ => exact ⟨rfl, rfl, id⟩

theorem besideSecondary_frame (h : BesideSecondary r c s t) :
    t.secondary.rank = s.secondary.rank ∧ (s.secondary.pc ≠ .absent → t.secondary.pc ≠ .absent) ∧
      (s.secondary.exitIndicator = true → t.secondary.exitIndicator = true) := by
  obtain ⟨hstep, hnot, -⟩ := h
  cases hstep with
  | primary hstep =>
    rw [hstep.frame.1]
    exact ⟨rfl, id, id⟩
  | secondary hstep => exact absurd hstep hnot
  | terminatePrimary => exact ⟨rfl, id, id⟩
  | terminateSecondary _ => exact ⟨rfl, id, fun _ => rfl⟩

/-- The primary does not end without freeing the ring. -/
theorem ringFreed_of_exited (hs : (relaunchSystem (memoryBufferPool ι β) r c).Reachable s) :
    s.primary.pc = .exited → s.ringFreed = true := by
  apply System.Reachable.invariant (P := fun s => s.primary.pc = .exited → s.ringFreed = true)
    ?_ ?_ hs
  · rintro _ ⟨e, mem, serial, rfl, -, -⟩ hpc
    contradiction
  · intro s t _ ih hstep hpc
    by_cases hprimary : PrimaryStep (memoryBufferPool ι β) r s t
    · cases hprimary with
      | ringFree _ => rfl
      | _ => simp at hpc
    · obtain ⟨hpc', hfreed, -⟩ := besidePrimary_frame ⟨hstep, hprimary⟩
      rw [hfreed]
      exact ih (hpc'.symm.trans hpc)

/-- The primary is never stuck: allocations and frees return in any state of the
    pool, and so does `rte_ring_enqueue` on a full ring. -/
theorem exists_primaryStep (hpc : s.primary.pc ≠ .exited) :
    ∃ t, PrimaryStep (memoryBufferPool ι β) r s t := by
  cases hpc' : s.primary.pc with
  | whileTest =>
    cases hexit : s.primary.exitIndicator with
    | true => exact ⟨_, .exit hpc' hexit⟩
    | false => exact ⟨_, .enter hpc' hexit⟩
  | alloc =>
    by_cases hnone : s.pool.usable r = 0
    · exact ⟨_, .allocFailed hpc' hnone⟩
    · obtain ⟨b, e, hget⟩ := CachedPool.exists_get hnone
      exact ⟨_, .alloc hpc' hget⟩
  | stamp b => exact ⟨_, .stamp s.primary.ts hpc'⟩
  | fill b => exact ⟨_, .fill hpc'⟩
  | enqueue b =>
    cases henq : s.ringBuffer.enqueue b with
    | some r' => exact ⟨_, .enqueue hpc' henq⟩
    | none => exact ⟨_, .full hpc' henq⟩
  | unableToEnqueue b =>
    obtain ⟨e, hput⟩ := CachedPool.exists_put r s.pool b (by decide)
    exact ⟨_, .drop hpc' hput⟩
  | ringFree => exact ⟨_, .ringFree hpc'⟩
  | exited => exact absurd hpc' hpc

omit [DecidableEq β] in
theorem exists_secondaryStep (hw : s.secondary.Wf) (hexited : s.secondary.pc ≠ .exited)
    (hused : s.secondary.pc ≠ .usedFreedRing) :
    ∃ t, SecondaryStep (memoryBufferPool ι β) c s t := by
  cases hpc : s.secondary.pc with
  | absent => exact ⟨_, .launch hpc⟩
  | lookup =>
    cases hfreed : s.ringFreed with
    | false => exact ⟨_, .lookup hpc hfreed⟩
    | true => exact ⟨_, .lookupFailed hpc hfreed⟩
  | whileTest =>
    cases hexit : s.secondary.exitIndicator with
    | true => exact ⟨_, .exit hpc hexit⟩
    | false => exact ⟨_, .enter hpc hexit⟩
  | dequeue =>
    cases hfreed : s.ringFreed with
    | false => exact ⟨_, .dequeue hpc hfreed rfl⟩
    | true => exact ⟨_, .dequeueFreed hpc hfreed⟩
  | forLoop =>
    by_cases hlt : s.secondary.i < s.secondary.rxCount
    · exact ⟨_, .process (hw.count ▸ hlt) hpc hlt⟩
    · exact ⟨_, .done hpc hlt⟩
  | free =>
    have hin := hw.freeing hpc
    obtain ⟨e, hput⟩ := CachedPool.exists_put c s.pool s.secondary.rxPackets[s.secondary.i]
      (by decide)
    exact ⟨_, .free hin hpc hput⟩
  | exited => exact absurd hpc hexited
  | usedFreedRing => exact absurd hpc hused

omit [DecidableEq β] in
/-- A signalled secondary makes no new call on the ring. -/
theorem not_ringFreedUnder_step (h : SecondaryStep (memoryBufferPool ι β) c s t)
    (hexit : s.secondary.exitIndicator = true) (hunder : ¬ RingFreedUnder s) :
    ¬ RingFreedUnder t := by
  have hpc : t.secondary.pc ≠ .usedFreedRing ∧ t.secondary.pc ≠ .dequeue := by
    cases h with
    | enter _ hrun =>
      rw [hexit] at hrun
      contradiction
    | dequeueFreed hc hfreed => exact absurd (.inr ⟨hc, hfreed⟩) hunder
    | dequeue =>
      simp only
      split_ifs <;> simp
    | _ => simp [Secondary.launched]
  rintro (hused | ⟨hnext, -⟩)
  · exact hpc.1 hused
  · exact hpc.2 hnext

theorem primary_exits (hs : (relaunchSystem (memoryBufferPool ι β) r c).Reachable s)
    (hexit : s.primary.exitIndicator = true) :
    EndsWithin (PrimaryStep (memoryBufferPool ι β) r) (BesidePrimary r c) PrimaryEnded 7 s := by
  apply EndsWithin.of_rank (fun s => (relaunchSystem (memoryBufferPool ι β) r c).Reachable s ∧
    s.primary.exitIndicator = true) (fun s => s.primary.pc.rank)
  · rintro s t ⟨hs, hexit⟩ hstep
    obtain ⟨hexit', hlt⟩ := primaryStep_rank hstep hexit
    exact ⟨⟨hs.step (.step (.primary hstep)), hexit'⟩, hlt⟩
  · rintro s t ⟨hs, hexit⟩ hstep
    obtain ⟨hpc, -, hexit'⟩ := besidePrimary_frame hstep
    exact ⟨⟨hs.step hstep.1, hexit' hexit⟩, by rw [hpc]⟩
  · rintro s ⟨hs, -⟩ hnot
    exact exists_primaryStep fun hpc => hnot ⟨hpc, ringFreed_of_exited hs hpc⟩
  · exact ⟨hs, hexit⟩
  · exact s.primary.pc.rank_le

/-- A signalled secondary under which the ring has not been freed. -/
structure Leaving (r c : ι) (s : State β (CachedPool ι β rteMempoolCacheMaxSize)) : Prop where
  reachable : (relaunchSystem (memoryBufferPool ι β) r c).Reachable s
  present : s.secondary.pc ≠ .absent
  exit : s.secondary.exitIndicator = true
  under : ¬ RingFreedUnder s

theorem Leaving.wf (hs : Leaving r c s) : s.secondary.Wf := by
  obtain ⟨_, -, -, hinv⟩ := inv_relaunch hs.reachable
  exact hinv.secondary

theorem Leaving.secondaryStep (hs : Leaving r c s)
    (h : SecondaryStep (memoryBufferPool ι β) c s t) :
    Leaving r c t ∧ t.secondary.rank < s.secondary.rank := by
  obtain ⟨⟨hpc, hexit⟩, hlt⟩ := secondaryStep_rank h hs.wf hs.present hs.exit
  exact ⟨⟨hs.reachable.step (.step (.secondary h)), hpc, hexit,
    not_ringFreedUnder_step h hs.exit hs.under⟩, hlt⟩

theorem Leaving.besideSecondary (hs : Leaving r c s) (h : BesideSecondary r c s t) :
    Leaving r c t ∧ t.secondary.rank ≤ s.secondary.rank := by
  obtain ⟨hrank, hpc, hexit⟩ := besideSecondary_frame h
  exact ⟨⟨hs.reachable.step (.step h.1), hpc hs.present, hexit hs.exit, h.2.2⟩, hrank.le⟩

theorem secondary_exits (hs : Leaving r c s) :
    EndsWithin (SecondaryStep (memoryBufferPool ι β) c) (BesideSecondary r c) SecondaryExited 5
      s := by
  apply EndsWithin.of_rank (Leaving r c) (fun s => s.secondary.rank)
  · exact fun _ _ => Leaving.secondaryStep
  · exact fun _ _ => Leaving.besideSecondary
  · exact fun s hs hnot => exists_secondaryStep hs.wf hnot fun hused => hs.under (.inl hused)
  · exact hs
  · exact hs.wf.rank_le

/-- A signalled primary ends within 7 of its steps, having freed the ring, whatever the
    secondary does. A signalled secondary exits within 5 of its steps, whatever the
    primary does, unless it frees the ring before a call of the secondary on it. -/
theorem processes_end (hs : (relaunchSystem (memoryBufferPool ι β) r c).Reachable s) :
    (s.primary.exitIndicator = true →
      EndsWithin (PrimaryStep (memoryBufferPool ι β) r) (BesidePrimary r c) PrimaryEnded 7 s) ∧
    (s.secondary.pc ≠ .absent → s.secondary.exitIndicator = true → ¬ RingFreedUnder s →
      EndsWithin (SecondaryStep (memoryBufferPool ι β) c) (BesideSecondary r c) SecondaryExited 5
        s) :=
  ⟨primary_exits hs, fun hpc hexit hunder => secondary_exits ⟨hs, hpc, hexit, hunder⟩⟩

end Runs

/-! ## What they print at their end -/

section Totals

variable {ι : Type u} {β : Type v} {ε : Type w} [DecidableEq β] {P : Mempool ι β ε} {r c : ι}
  {s t : State β ε}

/-- The counters are the numbers of packets enqueued and looked at. -/
structure Counts (s : State β ε) : Prop where
  tx : s.primary.totalTxPackets = s.enqueued.length % 2 ^ 64
  rx : s.secondary.totalRxPackets = s.consumed.length % 2 ^ 64
  absent : s.secondary.pc = .absent → s.consumed = []

omit [DecidableEq β] in
theorem Counts.start (e : ε) (mem : β → Mbuf) (serial : β → ℕ) :
    Counts (Multiprocess.start e mem serial) :=
  ⟨rfl, rfl, fun _ => rfl⟩

theorem Counts.primary (h : Counts s) (hstep : PrimaryStep P r s t) : Counts t := by
  cases hstep with
  | enqueue hpc henq =>
    refine ⟨?_, h.rx, h.absent⟩
    simp only [List.length_append, List.length_singleton, h.tx]
    omega
  | _ => exact ⟨h.tx, h.rx, h.absent⟩

omit [DecidableEq β] in
theorem Counts.secondary (h : Counts s) (hstep : SecondaryStep P c s t) : Counts t := by
  cases hstep with
  | launch habsent => exact ⟨h.tx, by rw [h.absent habsent]; rfl, nofun⟩
  | process hlt hpc hi =>
    refine ⟨h.tx, ?_, nofun⟩
    simp only [List.length_append, List.length_singleton, h.rx]
    omega
  | dequeue hpc hfreed hdeq =>
    refine ⟨h.tx, h.rx, ?_⟩
    simp only
    split_ifs <;> simp
  | _ => exact ⟨h.tx, h.rx, by simp⟩

theorem counts_reachable (hs : (system P r c).Reachable s) : Counts s := by
  apply System.Reachable.invariant (P := Counts) ?_ ?_ hs
  · rintro _ ⟨e, mem, serial, rfl, -, -⟩
    exact .start e mem serial
  · intro s t _ h hstep
    cases hstep with
    | primary hstep => exact h.primary hstep
    | secondary hstep => exact h.secondary hstep
    | terminatePrimary => exact ⟨h.tx, h.rx, h.absent⟩
    | terminateSecondary _ => exact ⟨h.tx, h.rx, h.absent⟩

/-- The packets that both processes have left behind in the ring. -/
structure LeftBehind (P : Mempool ι β ε) (s : State β ε) (n : ℕ) : Prop where
  ring : s.ringBuffer.items.length = n
  /-- "Total packets generated" and "Total packets received". -/
  printed : (s.primary.totalTxPackets + (2 ^ 64 - s.secondary.totalRxPackets)) % 2 ^ 64 = n
  unfreed : s.allocs = s.freed.length + n
  /-- The buffers in the ring are the ones that have not been freed. -/
  which : (s.ringBuffer.items.map s.serial ++ s.freed).Perm (List.range s.allocs)
  lost : (P.avail s.pool).card + n = poolSize

/-- When both processes have ended, the totals they print differ by the number of
    packets left in the ring. There are at most 511 of them, and their buffers are
    the ones that have not been freed. -/
theorem totals_at_exit (hs : (system P r c).Reachable s) (hprimary : s.primary.pc = .exited)
    (hsecondary : s.secondary.pc = .exited) : ∃ n ≤ 511, LeftBehind P s n := by
  obtain ⟨all, -, hcard, hinv⟩ := inv_relaunch (relaunch_of_system hs)
  have hcounts := counts_reachable hs
  have hoccupancy := hinv.channel.length_sent
  have hbounded : s.ringBuffer.items.length ≤ 511 := s.ringBuffer.length_le
  have htaken : s.secondary.taken = [] := by simp [Secondary.taken, hsecondary]
  have hdone : s.secondary.done = [] := by simp [Secondary.done, hsecondary]
  have hhand : s.primary.hand = [] := by simp [Primary.hand, hprimary]
  have hout : s.channel.out = s.ringBuffer.items := by
    simp [Channel.out, State.channel, htaken, hdone, hhand]
  have hserials := hinv.channel.serials
  rw [hout] at hserials
  refine ⟨s.ringBuffer.items.length, hbounded, rfl, ?_, ?_, hserials, ?_⟩
  · simp only [State.channel, List.length_map, htaken, List.length_nil, Nat.add_zero]
      at hoccupancy
    rw [hcounts.tx, hcounts.rx]
    omega
  · have hallocs := hserials.length_eq
    rw [List.length_append, List.length_map, List.length_range] at hallocs
    show s.channel.allocs = s.channel.freed.length + s.ringBuffer.items.length
    omega
  · have howned := congrArg Multiset.card hinv.channel.owned
    rw [hout, Multiset.card_add, Multiset.coe_card, hcard] at howned
    exact howned

end Totals

/-! ## Two ends -/

/-- Both are signalled with a packet in the ring, the secondary about to take it. -/
theorem processes_end_one_enqueued :
    ∃ s : State ℕ (CachedPool (Fin 2) ℕ rteMempoolCacheMaxSize),
      s.ringBuffer.items.length = 1 ∧ s.secondary.pc = .dequeue ∧
      EndsWithin (PrimaryStep (memoryBufferPool (Fin 2) ℕ) 0) (BesidePrimary 0 1) PrimaryEnded 7
        s ∧
      EndsWithin (SecondaryStep (memoryBufferPool (Fin 2) ℕ) 1) (BesideSecondary 0 1)
        SecondaryExited 5 s := by
  obtain ⟨b, s, hs⟩ := exists_oneEnqueued
  have h₁ := hs.reachable.step (.secondary (.enter hs.secondary hs.polling))
  have h₂ := (h₁.step (.terminateSecondary nofun)).step .terminatePrimary
  obtain ⟨hprimary, hsecondary⟩ := processes_end (relaunch_of_system h₂)
  refine ⟨_, ?_, ?_, hprimary rfl, hsecondary nofun rfl ?_⟩
  · exact congrArg List.length hs.items
  · rfl
  · simp [RingFreedUnder, hs.ringFreed]

/-- One packet is enqueued, and the secondary ends without taking it. -/
theorem totals_at_exit_one_left :
    ∃ s : State ℕ (CachedPool (Fin 2) ℕ rteMempoolCacheMaxSize),
      LeftBehind (memoryBufferPool (Fin 2) ℕ) s 1 := by
  obtain ⟨b, s, hs⟩ := exists_oneEnqueued
  have h₁ := hs.reachable.step (.terminateSecondary (by simp [hs.secondary]))
  have h₂ := (h₁.step (.secondary (.exit hs.secondary rfl))).step .terminatePrimary
  have h₃ := (h₂.step (.primary (.exit hs.primary rfl))).step (.primary (.ringFree rfl))
  obtain ⟨n, -, hleft⟩ := totals_at_exit h₃ rfl rfl
  have hn : n = 1 := hleft.ring.symm.trans (congrArg List.length hs.items)
  subst hn
  exact ⟨_, hleft⟩

end DpdkTutorials.Multiprocess

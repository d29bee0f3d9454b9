import DpdkTutorials.Multiprocess.Buffers
import DpdkTutorials.Multiprocess.Ending

/-!
# What the processes of `8-multiprocess-communication` get done

As long as neither process is signalled, the secondary takes a fixed number of
steps for each packet that is in the ring, whatever the primary does. The primary
loses a packet if it finds the ring full, but it always finds a buffer for the
next one, and an emptied ring has room for it. So the transfer never comes to an
end.

* `secondaryStep_work`: each step of the secondary brings the next packet closer.
* `consumed_within`: the steps of the secondary until a packet is consumed.
* `card_usable_ge`: the primary always has 767 buffers to choose from.
* `delivery_goes_on`: a run that is fair to both processes delivers every packet
  that is enqueued, and there is always another one.
-/

namespace DpdkTutorials.Multiprocess

open DpdkTutorials.Common DpdkTutorials.Dpdk

universe u v w

/-! ## Specification -/

section Specification

variable {ι : Type u} {β : Type v} {ε : Type w}

/-- The steps of the secondary's round that are behind it. -/
def Secondary.behind (c : Secondary β) : ℕ :=
  match c.pc with
  | .absent | .free | .exited | .usedFreedRing => 0
  | .lookup => 1
  | .whileTest => 2
  | .dequeue => 3
  | .forLoop => if c.taken = [] then 1 else 4

/-- The steps of the secondary until `target` packets are consumed, five for each. -/
def State.work (target : ℕ) (s : State β ε) : ℕ :=
  5 * (target - s.consumed.length) - s.secondary.behind

/-- The steps of the primary until it has enqueued a packet in a ring with room. -/
def PrimaryPc.toEnqueue : PrimaryPc β → ℕ
  | .enqueue _ => 1
  | .fill _ => 2
  | .stamp _ => 3
  | .alloc => 4
  | .whileTest => 5
  | .unableToEnqueue _ => 6
  | .ringFree | .exited => 0

theorem PrimaryPc.toEnqueue_le (pc : PrimaryPc β) : pc.toEnqueue ≤ 6 := by
  cases pc with
  | _ => simp [PrimaryPc.toEnqueue]

theorem PrimaryPc.toEnqueue_pos (pc : PrimaryPc β) (h : pc ≠ .ringFree ∧ pc ≠ .exited) :
    0 < pc.toEnqueue := by
  cases pc with
  | ringFree => exact absurd rfl h.1
  | exited => exact absurd rfl h.2
  | _ => exact Nat.succ_pos _

/-- The state of the primary as long as it is not signalled. -/
structure Generating (s : State β ε) : Prop where
  exit : s.primary.exitIndicator = false
  pc : s.primary.pc ≠ .ringFree ∧ s.primary.pc ≠ .exited
  ring : s.ringFreed = false

/-- The state of the secondary as long as neither process is signalled. -/
structure Receiving (s : State β ε) : Prop where
  exit : s.secondary.exitIndicator = false
  pc : s.secondary.pc ≠ .exited ∧ s.secondary.pc ≠ .usedFreedRing

end Specification

/-! ## Without a signal -/

section Steps

variable {ι : Type u} {β : Type v} {ε : Type w} {P : Mempool ι β ε} {l : ι} {s t : State β ε}

theorem Generating.primaryStep [DecidableEq β] (hs : Generating s) (h : PrimaryStep P l s t) :
    Generating t := by
  cases h with
  | exit _ hexit =>
    rw [hs.exit] at hexit
    contradiction
  | ringFree hpc => exact absurd hpc hs.pc.1
  | _ => exact ⟨hs.exit, by simp, hs.ring⟩

theorem Generating.secondaryStep (hs : Generating s) (h : SecondaryStep P l s t) :
    Generating t := by
  obtain ⟨hprimary, -, hring⟩ := h.frame
  refine ⟨?_, ?_, hring.trans hs.ring⟩
  · rw [hprimary]
    exact hs.exit
  · rw [hprimary]
    exact hs.pc

theorem Receiving.primaryStep [DecidableEq β] (hs : Receiving s) (h : PrimaryStep P l s t) :
    Receiving t := by
  have hsecondary := h.frame.1
  constructor
  · rw [hsecondary]
    exact hs.exit
  · rw [hsecondary]
    exact hs.pc

theorem Receiving.secondaryStep (hs : Receiving s) (hring : s.ringFreed = false)
    (h : SecondaryStep P l s t) : Receiving t := by
  cases h with
  | exit _ hexit =>
    rw [hs.exit] at hexit
    contradiction
  | lookupFailed _ hfreed | dequeueFreed _ hfreed =>
    rw [hring] at hfreed
    contradiction
  | dequeue =>
    refine ⟨hs.exit, ?_⟩
    simp only
    split_ifs <;> simp
  | launch => exact ⟨rfl, by simp [Secondary.launched]⟩
  | lookup | enter | process | free | done => exact ⟨hs.exit, by simp⟩

theorem primaryStep_exit [DecidableEq β] (h : PrimaryStep P l s t) :
    t.primary.exitIndicator = s.primary.exitIndicator := by
  cases h with
  | _ => rfl

theorem secondaryStep_exit (h : SecondaryStep P l s t) (hexit : t.secondary.exitIndicator = false) :
    s.secondary.exitIndicator = false ∨ Receiving t := by
  cases h with
  | launch => exact .inr ⟨rfl, by simp [Secondary.launched]⟩
  | _ => exact .inl hexit

/-! ## Steps of the secondary -/

theorem Inv.occupancy {all : Multiset β} (hi : Inv P all s) :
    s.enqueued.length =
      s.consumed.length + s.secondary.taken.length + s.ringBuffer.items.length := by
  have hlength := hi.channel.length_sent
  simp only [State.channel, List.length_map] at hlength
  exact hlength

theorem secondaryStep_work {all : Multiset β} {target : ℕ} (h : SecondaryStep P l s t)
    (hi : Inv P all s) (hs : Receiving s) (hring : s.ringFreed = false)
    (htarget : target ≤ s.enqueued.length) (hlt : s.consumed.length < target) :
    t.work target < s.work target := by
  have hoccupancy := hi.occupancy
  have hshort := hi.secondary.short
  have hcount := hi.secondary.count
  cases h with
  | exit _ hexit =>
    rw [hs.exit] at hexit
    contradiction
  | lookupFailed _ hfreed | dequeueFreed _ hfreed =>
    rw [hring] at hfreed
    contradiction
  | launch hpc | lookup hpc | enter hpc =>
    simp only [State.work, Secondary.behind, Secondary.launched, hpc]
    omega
  | @dequeue bs r' hpc _ hd =>
    -- The next packet is still in the ring.
    have hbs : bs = s.ringBuffer.items.take 1 := (congrArg Prod.fst hd).symm
    simp only [Secondary.taken, hpc, List.length_nil] at hoccupancy
    have hlen : bs.length = 1 := by
      rw [hbs, List.length_take]
      omega
    have hne : bs ≠ [] := List.ne_nil_of_length_eq_add_one hlen
    simp [State.work, Secondary.behind, Secondary.taken, hpc, hlen, hne]
    omega
  | process hin hpc =>
    have hne : s.secondary.rxPackets.drop s.secondary.i ≠ [] := by
      simpa using hin
    simp only [State.work, Secondary.behind, Secondary.taken, hpc, List.length_append,
      List.length_singleton, if_neg hne]
    omega
  | free hin hpc =>
    have hnil : s.secondary.rxPackets.drop (s.secondary.i + 1) = [] := by
      rw [List.drop_eq_nil_iff]
      omega
    simp only [State.work, Secondary.behind, Secondary.taken, hpc,
      hi.secondary.next hin, if_pos hnil]
    omega
  | done hpc hout =>
    have hnil : s.secondary.rxPackets.drop s.secondary.i = [] := by
      rw [List.drop_eq_nil_iff]
      omega
    simp only [State.work, Secondary.behind, Secondary.taken, hpc, if_pos hnil]
    omega

theorem secondaryStep_monotone (h : SecondaryStep P l s t) :
    t.enqueued = s.enqueued ∧ s.consumed.length ≤ t.consumed.length := by
  cases h with
  | process => simp
  | _ => exact ⟨rfl, le_rfl⟩

theorem primaryStep_monotone [DecidableEq β] (h : PrimaryStep P l s t) :
    s.enqueued <+: t.enqueued ∧ t.consumed = s.consumed := by
  cases h with
  | enqueue => exact ⟨List.prefix_append _ _, rfl⟩
  | _ => exact ⟨List.prefix_rfl, rfl⟩

/-! ## Steps of the primary -/

theorem primaryStep_toEnqueue [DecidableEq β] (h : PrimaryStep P l s t) (hs : Generating s)
    (hget : ¬ P.getFails l s.pool) (hring : s.ringBuffer.items = []) :
    s.enqueued.length < t.enqueued.length ∨
      t.enqueued = s.enqueued ∧ t.primary.pc.toEnqueue < s.primary.pc.toEnqueue := by
  cases h with
  | enqueue => exact .inl (by simp)
  | exit _ hexit =>
    rw [hs.exit] at hexit
    contradiction
  | ringFree hpc => exact absurd hpc hs.pc.1
  | allocFailed _ hfails => exact absurd hfails hget
  | full _ henq =>
    rw [Ring.enqueue_eq_none_iff, hring] at henq
    contradiction
  | enter hpc | alloc hpc | stamp _ hpc | fill hpc | drop hpc =>
    exact .inr ⟨rfl, by simp [PrimaryPc.toEnqueue, hpc]⟩

end Steps

/-! ## Whole runs -/

section Runs

variable {ι : Type u} {β : Type v} [DecidableEq ι] [Fintype ι] [DecidableEq β] {r c : ι}
  {s t : State β (CachedPool ι β rteMempoolCacheMaxSize)}

/-- At most 513 of the 2048 buffers are in use, and at most 768 in the cache of the
    secondary's lcore. -/
theorem card_usable_ge (hrc : c ≠ r) (hs : (cachedSystem ι β r c).Reachable s) :
    767 ≤ (s.pool.usable r).card := by
  obtain ⟨all, -, hcard, hinv⟩ := inv_relaunch (relaunch_of_cached hs)
  have hout := length_out_le hinv.secondary
  have hcache : (s.pool.cache c).card ≤ 768 := s.pool.card_cache_le c
  have howned : s.pool.avail + ↑s.channel.out = all := hinv.channel.owned
  rw [CachedPool.avail_eq s.pool r, CachedPool.stranded_eq hrc (othersEmpty_reachable hs)]
    at howned
  have htotal := congrArg Multiset.card howned
  rw [Multiset.card_add, Multiset.card_add, Multiset.coe_card, hcard, poolSize] at htotal
  omega

/-- A state of the two processes before any signal. -/
structure Running (r c : ι) (s : State β (CachedPool ι β rteMempoolCacheMaxSize)) : Prop where
  reachable : (cachedSystem ι β r c).Reachable s
  generating : Generating s
  receiving : Receiving s

theorem Running.primaryStep (hs : Running r c s)
    (h : PrimaryStep (memoryBufferPool ι β) r s t) : Running r c t :=
  ⟨hs.reachable.step (.step (.primary h)), hs.generating.primaryStep h, hs.receiving.primaryStep h⟩

theorem Running.secondaryStep (hs : Running r c s)
    (h : SecondaryStep (memoryBufferPool ι β) c s t) : Running r c t :=
  ⟨hs.reachable.step (.step (.secondary h)), hs.generating.secondaryStep h,
    hs.receiving.secondaryStep hs.generating.ring h⟩

theorem Running.exists_inv (hs : Running r c s) :
    ∃ all, Inv (memoryBufferPool ι β) all s := by
  obtain ⟨all, -, -, hinv⟩ := inv_relaunch (relaunch_of_cached hs.reachable)
  exact ⟨all, hinv⟩

theorem Running.exists_primaryStep (hs : Running r c s) :
    ∃ t, PrimaryStep (memoryBufferPool ι β) r s t :=
  Multiprocess.exists_primaryStep hs.generating.pc.2

theorem Running.exists_secondaryStep (hs : Running r c s) :
    ∃ t, SecondaryStep (memoryBufferPool ι β) c s t := by
  obtain ⟨_, hinv⟩ := hs.exists_inv
  exact Multiprocess.exists_secondaryStep hinv.secondary hs.receiving.pc.1 hs.receiving.pc.2

theorem running_reachable (hs : (cachedSystem ι β r c).Reachable s)
    (hprimary : s.primary.exitIndicator = false) (hsecondary : s.secondary.exitIndicator = false) :
    Running r c s := by
  have h : s.primary.exitIndicator = false →
      Generating s ∧ (s.secondary.exitIndicator = false → Receiving s) := by
    refine hs.invariant (P := fun s => s.primary.exitIndicator = false →
      Generating s ∧ (s.secondary.exitIndicator = false → Receiving s)) ?_ ?_
    · rintro _ ⟨⟨e, mem, serial, rfl, -, -⟩, -⟩ _
      exact ⟨⟨rfl, by simp [start], rfl⟩, fun _ => ⟨rfl, by simp [start]⟩⟩
    · intro s t _ ih hstep hexit
      cases hstep with
      | step hstep =>
        cases hstep with
        | primary h =>
          obtain ⟨hgenerating, hreceiving⟩ := ih ((primaryStep_exit h).symm.trans hexit)
          refine ⟨hgenerating.primaryStep h, fun hsecondary => ?_⟩
          rw [h.frame.1] at hsecondary
          exact (hreceiving hsecondary).primaryStep h
        | secondary h =>
          rw [h.frame.1] at hexit
          obtain ⟨hgenerating, hreceiving⟩ := ih hexit
          refine ⟨hgenerating.secondaryStep h, fun hsecondary => ?_⟩
          rcases secondaryStep_exit h hsecondary with hbefore | hnew
          · exact (hreceiving hbefore).secondaryStep hgenerating.ring h
          · exact hnew
        | terminatePrimary => contradiction
        | terminateSecondary _ =>
          obtain ⟨hgenerating, -⟩ := ih hexit
          exact ⟨⟨hgenerating.exit, hgenerating.pc, hgenerating.ring⟩, by simp⟩
      | relaunch hpc =>
        obtain ⟨hgenerating, -⟩ := ih hexit
        exact ⟨⟨hgenerating.exit, hgenerating.pc, hgenerating.ring⟩,
          fun _ => ⟨rfl, by simp [Secondary.launched]⟩⟩
  exact ⟨hs, (h hprimary).1, (h hprimary).2 hsecondary⟩

/-- Packets `es` that have been enqueued, before any signal. -/
structure Awaiting (r c : ι) (es : List Enqueued)
    (s : State β (CachedPool ι β rteMempoolCacheMaxSize)) : Prop where
  running : Running r c s
  enqueued : es <+: s.enqueued

theorem Awaiting.primaryStep {es : List Enqueued} (hs : Awaiting r c es s)
    (h : PrimaryStep (memoryBufferPool ι β) r s t) : Awaiting r c es t :=
  ⟨hs.running.primaryStep h, hs.enqueued.trans (primaryStep_monotone h).1⟩

theorem Awaiting.secondaryStep {es : List Enqueued} (hs : Awaiting r c es s)
    (h : SecondaryStep (memoryBufferPool ι β) c s t) : Awaiting r c es t :=
  ⟨hs.running.secondaryStep h, by rw [(secondaryStep_monotone h).1]; exact hs.enqueued⟩

/-- The packets are consumed in order, so it is enough to count them. -/
theorem Awaiting.prefix_consumed {es : List Enqueued} (hs : Awaiting r c es s)
    (hlen : es.length ≤ s.consumed.length) :
    es.map Enqueued.contents <+: s.consumed.map Consumed.contents := by
  obtain ⟨_, hinv⟩ := hs.running.exists_inv
  refine List.prefix_of_prefix_length_le (hs.enqueued.map _) hinv.channel.received_prefix ?_
  simpa [State.channel] using hlen

/-- The secondary consumes what has been enqueued. -/
theorem awaited_within {es : List Enqueued} (hs : Awaiting r c es s) :
    RespondsWithin (SecondaryStep (memoryBufferPool ι β) c) (PrimaryStep (memoryBufferPool ι β) r)
      (fun t => es.map Enqueued.contents <+: t.consumed.map Consumed.contents)
      (s.work es.length) s := by
  apply EndsWithin.of_rank (Awaiting r c es) (State.work es.length)
  · rintro t u ht ⟨hstep, hnot⟩
    obtain ⟨_, hinv⟩ := ht.running.exists_inv
    have hlt : t.consumed.length < es.length := by
      by_contra hle
      exact hnot (ht.prefix_consumed (by omega))
    exact ⟨ht.secondaryStep hstep, secondaryStep_work hstep hinv ht.running.receiving
      ht.running.generating.ring ht.enqueued.length_le hlt⟩
  · intro t u ht hstep
    refine ⟨ht.primaryStep hstep, ?_⟩
    rw [State.work, State.work, hstep.frame.1, hstep.frame.2]
  · intro t ht hnot
    obtain ⟨u, hu⟩ := ht.running.exists_secondaryStep
    exact ⟨u, hu, hnot⟩
  · exact hs
  · exact le_rfl

/-- Whatever the primary does in between, what it has enqueued so far is consumed
    within five steps of the secondary for each packet. -/
theorem consumed_within (hs : (cachedSystem ι β r c).Reachable s)
    (hprimary : s.primary.exitIndicator = false) (hsecondary : s.secondary.exitIndicator = false) :
    RespondsWithin (SecondaryStep (memoryBufferPool ι β) c) (PrimaryStep (memoryBufferPool ι β) r)
      (fun t => s.enqueued.map Enqueued.contents <+: t.consumed.map Consumed.contents)
      (5 * (s.secondary.taken.length + s.ringBuffer.items.length)) s := by
  have hrunning := running_reachable hs hprimary hsecondary
  obtain ⟨_, hinv⟩ := hrunning.exists_inv
  have hawaited := awaited_within ⟨hrunning, List.prefix_rfl⟩
  refine ⟨fun hrun => (hawaited.le hrun).trans ?_, hawaited.progress⟩
  rw [State.work, hinv.occupancy]
  omega

/-- Once the ring is empty, the primary enqueues the next packet. -/
theorem enqueued_within (hrc : c ≠ r) {n : ℕ} (hs : Running r c s) (hn : n ≤ s.consumed.length) :
    RespondsWithin (PrimaryStep (memoryBufferPool ι β) r) (SecondaryStep (memoryBufferPool ι β) c)
      (fun t => n < t.enqueued.length) 6 s := by
  apply EndsWithin.of_rank (fun t => Running r c t ∧ n ≤ t.consumed.length)
    (fun t => if n < t.enqueued.length then 0 else t.primary.pc.toEnqueue)
  · rintro t u ⟨ht, hn⟩ ⟨hstep, hnot⟩
    obtain ⟨_, hinv⟩ := ht.exists_inv
    have hoccupancy := hinv.occupancy
    have hring : t.ringBuffer.items = [] := List.eq_nil_of_length_eq_zero (by omega)
    have hget : ¬ (memoryBufferPool ι β).getFails r t.pool := by
      intro hnone
      have husable := card_usable_ge hrc ht.reachable
      rw [show t.pool.usable r = 0 from hnone, Multiset.card_zero] at husable
      contradiction
    refine ⟨⟨ht.primaryStep hstep, by rw [(primaryStep_monotone hstep).2]; exact hn⟩, ?_⟩
    rw [if_neg hnot]
    rcases primaryStep_toEnqueue hstep ht.generating hget hring with hmore | ⟨heq, hlt⟩
    · rw [if_pos (by omega)]
      exact t.primary.pc.toEnqueue_pos ht.generating.pc
    · rwa [heq, if_neg hnot]
  · rintro t u ⟨ht, hn⟩ hstep
    obtain ⟨henqueued, hconsumed⟩ := secondaryStep_monotone hstep
    refine ⟨⟨ht.secondaryStep hstep, hn.trans hconsumed⟩, ?_⟩
    rw [henqueued, hstep.frame.1]
  · rintro t ⟨ht, -⟩ hnot
    obtain ⟨u, hu⟩ := ht.exists_primaryStep
    exact ⟨u, hu, hnot⟩
  · exact ⟨hs, hn⟩
  · have hle := s.primary.pc.toEnqueue_le
    split_ifs <;> omega

/-- In a run that is fair to both processes and in which neither is signalled, every
    packet that is ever enqueued is consumed, and another one is enqueued. -/
theorem delivery_goes_on (hrc : c ≠ r)
    {run : ℕ → State β (CachedPool ι β rteMempoolCacheMaxSize)}
    (hs : (cachedSystem ι β r c).Reachable (run 0))
    (hprimary : (run 0).primary.exitIndicator = false)
    (hsecondary : (run 0).secondary.exitIndicator = false)
    (hfairPrimary : FairRun (PrimaryStep (memoryBufferPool ι β) r)
      (SecondaryStep (memoryBufferPool ι β) c) run)
    (hfairSecondary : FairRun (SecondaryStep (memoryBufferPool ι β) c)
      (PrimaryStep (memoryBufferPool ι β) r) run) (k : ℕ) :
    ∃ m ≥ k, (run k).enqueued.map Enqueued.contents <+: (run m).consumed.map Consumed.contents ∧
      (run k).enqueued.length < (run m).enqueued.length := by
  have hrunning := hfairPrimary.invariant (fun _ _ => Running.primaryStep)
    (fun _ _ => Running.secondaryStep) (running_reachable hs hprimary hsecondary)
  have hawaiting := (hfairPrimary.drop k).invariant (fun _ _ => Awaiting.primaryStep)
    (fun _ _ => Awaiting.secondaryStep) ⟨hrunning k, List.prefix_rfl⟩
  obtain ⟨i, hi⟩ := (awaited_within (hawaiting 0)).exists_of_fair (hfairSecondary.drop k)
  have hconsumed : (run k).enqueued.length ≤ (run (k + i)).consumed.length := by
    simpa using hi.length_le
  obtain ⟨j, hj⟩ := (enqueued_within hrc (hrunning (k + i)) hconsumed).exists_of_fair
    (hfairPrimary.drop (k + i))
  have hkept := (hfairPrimary.drop (k + i)).invariant
    (I := fun s => (run k).enqueued.length ≤ s.consumed.length)
    (fun _ _ hle h => by rw [(primaryStep_monotone h).2]; exact hle)
    (fun _ _ hle h => hle.trans (secondaryStep_monotone h).2) hconsumed j
  refine ⟨k + i + j, by omega, ?_, hj⟩
  have hlast := hawaiting (i + j)
  rw [← Nat.add_assoc] at hlast
  exact hlast.prefix_consumed hkept

/-- There is such a run from every state before a signal. -/
theorem Running.exists_run (hs : Running r c s) :
    ∃ run : ℕ → State β (CachedPool ι β rteMempoolCacheMaxSize), run 0 = s ∧
      FairRun (PrimaryStep (memoryBufferPool ι β) r) (SecondaryStep (memoryBufferPool ι β) c) run ∧
      FairRun (SecondaryStep (memoryBufferPool ι β) c) (PrimaryStep (memoryBufferPool ι β) r)
        run := by
  refine exists_fairRun (I := Running r c) (fun t ht => ?_) (fun t ht => ?_) hs
  · obtain ⟨u, hu⟩ := ht.exists_primaryStep
    exact ⟨u, hu, ht.primaryStep hu⟩
  · obtain ⟨u, hu⟩ := ht.exists_secondaryStep
    exact ⟨u, hu, ht.secondaryStep hu⟩

end Runs

/-! ## From the created pool on -/

theorem reachable_createdPool : (cachedSystem (Fin 2) ℕ 0 1).Reachable created :=
  .of_init ⟨starts_createdPool, fun _ => rfl⟩

theorem exists_enqueued : ∃ s : State ℕ (CachedPool (Fin 2) ℕ rteMempoolCacheMaxSize),
    Running 0 1 s ∧ s.enqueued ≠ [] := by
  have hstart := running_reachable reachable_createdPool rfl rfl
  obtain ⟨run, hrun, hfair, -⟩ := hstart.exists_run
  rw [← hrun] at hstart
  have hrunning := hfair.invariant (fun _ _ => Running.primaryStep)
    (fun _ _ => Running.secondaryStep) hstart
  obtain ⟨k, hk⟩ := (enqueued_within (by decide) hstart (Nat.zero_le _)).exists_of_fair hfair
  exact ⟨run k, hrunning k, List.length_pos_iff.mp hk⟩

theorem consumed_within_enqueued :
    ∃ s : State ℕ (CachedPool (Fin 2) ℕ rteMempoolCacheMaxSize), s.enqueued ≠ [] ∧
      RespondsWithin (SecondaryStep (memoryBufferPool (Fin 2) ℕ) 1)
        (PrimaryStep (memoryBufferPool (Fin 2) ℕ) 0)
        (fun t => s.enqueued.map Enqueued.contents <+: t.consumed.map Consumed.contents)
        (5 * (s.secondary.taken.length + s.ringBuffer.items.length)) s := by
  obtain ⟨s, hs, hne⟩ := exists_enqueued
  exact ⟨s, hne, consumed_within hs.reachable hs.generating.exit hs.receiving.exit⟩

theorem delivery_goes_on_createdPool :
    ∃ run : ℕ → State ℕ (CachedPool (Fin 2) ℕ rteMempoolCacheMaxSize), (run 0).enqueued = [] ∧
      ∀ k, ∃ m ≥ k, (run k).enqueued.length < (run m).enqueued.length := by
  obtain ⟨run, hrun, hprimary, hsecondary⟩ :=
    (running_reachable reachable_createdPool rfl rfl).exists_run
  refine ⟨run, by rw [hrun]; rfl, fun k => ?_⟩
  obtain ⟨m, hm, -, hlt⟩ := delivery_goes_on (by decide) (by rw [hrun]; exact reachable_createdPool)
    (by rw [hrun]; rfl) (by rw [hrun]; rfl) hprimary hsecondary k
  exact ⟨m, hm, hlt⟩

end DpdkTutorials.Multiprocess

import DpdkTutorials.Multiprocess.Delivery

/-!
# The end of the ring of `8-multiprocess-communication`

The primary frees the ring when its own `exit_indicator` is set and 500 ms have
passed (main.cpp:281-284). The secondary has an `exit_indicator` of its own and
may still be polling.

* `ring_not_used_after_free`: the ring is not used any more if, whenever it is
  freed, the secondary is done with it.
* `mayUse_iff`: in no other case is it safe to free the ring.
* `secondary_polls_freed_ring`: a run in which only the primary is signalled.
-/

namespace DpdkTutorials.Multiprocess

open DpdkTutorials.Common DpdkTutorials.Dpdk

universe u v w

variable {ι : Type u} {β : Type v} {ε : Type w}

/-- The secondary will not call `rte_ring_dequeue_burst` again: it has no
    pointer to the ring, or it is on its way out of its loop. -/
def Secondary.DoneWithRing (c : Secondary β) : Prop :=
  match c.pc with
  | .absent | .lookup | .exited => True
  | .whileTest | .forLoop | .free => c.exitIndicator = true
  | .dequeue | .usedFreedRing => False

/-- A step that frees the ring is taken only when the secondary is done with
    it. -/
def FreedWhenDone (s t : State β ε) : Prop :=
  s.ringFreed = false → t.ringFreed = true → s.secondary.DoneWithRing

section Guarded

variable {P : Mempool ι β ε} {r c : ι} {s t : State β ε}

/-- Once the ring is freed, a secondary that is done with it stays so. -/
theorem SecondaryStep.doneWithRing (h : SecondaryStep P c s t) (hfreed : s.ringFreed = true)
    (hdone : s.secondary.DoneWithRing) : t.secondary.DoneWithRing := by
  cases h with
  | launch hpc => simp [Secondary.DoneWithRing, Secondary.launched]
  | lookup hpc hring => simp [hring] at hfreed
  | lookupFailed hpc _ | exit hpc _ => simp [Secondary.DoneWithRing]
  | enter hpc hexit => simp [Secondary.DoneWithRing, hpc, hexit] at hdone
  | dequeue hpc _ _ | dequeueFreed hpc _ => simp [Secondary.DoneWithRing, hpc] at hdone
  | process _ hpc _ | free _ hpc _ | done hpc _ =>
    simpa [Secondary.DoneWithRing, hpc] using hdone

theorem Secondary.DoneWithRing.ne {c : Secondary β} (h : c.DoneWithRing) :
    c.pc ≠ .usedFreedRing := by
  intro hpc
  simp [Secondary.DoneWithRing, hpc] at h

/-- A signal changes nothing for a secondary that is done. -/
theorem Secondary.DoneWithRing.terminate {c : Secondary β} (h : c.DoneWithRing) :
    { c with exitIndicator := true }.DoneWithRing := by
  cases hpc : c.pc with
  | dequeue | usedFreedRing => simp [Secondary.DoneWithRing, hpc] at h
  | absent | lookup | exited | whileTest | forLoop | free => simp [Secondary.DoneWithRing]

/-- A secondary reaches the freed ring only from the call on it. -/
theorem SecondaryStep.not_used (h : SecondaryStep P c s t) (hfreed : s.ringFreed = false) :
    t.secondary.pc ≠ .usedFreedRing := by
  cases h with
  | launch => simp [Secondary.launched]
  | lookup | lookupFailed | exit | enter | process | free | done => simp
  | dequeue =>
    simp only
    split_ifs <;> simp
  | dequeueFreed _ hring => simp [hring] at hfreed

/-- Nobody uses the ring after it is freed. -/
structure RingSafe (s : State β ε) : Prop where
  notUsed : s.secondary.pc ≠ .usedFreedRing
  done : s.ringFreed = true → s.secondary.DoneWithRing

theorem RingSafe.secondary (h : RingSafe s) (hstep : SecondaryStep P c s t) : RingSafe t := by
  have hring : t.ringFreed = s.ringFreed := hstep.frame.2.2
  cases hfreed : s.ringFreed with
  | false =>
    refine ⟨hstep.not_used hfreed, ?_⟩
    intro ht
    rw [hring, hfreed] at ht
    cases ht
  | true =>
    have hdone := hstep.doneWithRing hfreed (h.done hfreed)
    exact ⟨hdone.ne, fun _ => hdone⟩

variable [DecidableEq β]

theorem RingSafe.primary (h : RingSafe s) (hstep : PrimaryStep P r s t)
    (hguard : FreedWhenDone s t) : RingSafe t := by
  have hsecondary : t.secondary = s.secondary := hstep.frame.1
  refine ⟨by rw [hsecondary]; exact h.notUsed, ?_⟩
  intro ht
  rw [hsecondary]
  cases hfreed : s.ringFreed with
  | false => exact hguard hfreed ht
  | true => exact h.done hfreed

theorem RingSafe.step (h : RingSafe s) (hstep : RelaunchStep P r c s t)
    (hguard : FreedWhenDone s t) : RingSafe t := by
  cases hstep with
  | step hstep =>
    cases hstep with
    | primary hstep => exact h.primary hstep hguard
    | secondary hstep => exact h.secondary hstep
    | terminatePrimary => exact ⟨h.notUsed, h.done⟩
    | terminateSecondary _ => exact ⟨h.notUsed, fun hfreed => (h.done hfreed).terminate⟩
  | relaunch hpc =>
    exact ⟨by simp [Secondary.launched], fun _ => by
      simp [Secondary.DoneWithRing, Secondary.launched]⟩

/-- In every run in which the ring is freed only when the secondary is done
    with it, the secondary never calls `rte_ring_dequeue_burst` on a freed
    ring. -/
theorem ring_not_used_after_free
    (hs : ((relaunchSystem P r c).guarded FreedWhenDone).Reachable s) :
    s.secondary.pc ≠ .usedFreedRing := by
  have hsafe : RingSafe s := by
    apply System.Reachable.invariant (P := RingSafe) ?_ ?_ hs
    · intro s hinit
      obtain ⟨e, mem, serial, rfl, -, -⟩ := hinit
      exact ⟨by simp [start], by simp [start]⟩
    · intro s t _ h hstep
      exact h.step hstep.1 hstep.2
  exact hsafe.notUsed

end Guarded

/-! ## The condition is necessary -/

section Continuations

variable [DecidableEq β] {P : Mempool ι β ε} {r c : ι} {s : State β ε}

/-- Some continuation of the run calls `rte_ring_dequeue_burst` on the freed
    ring. -/
def MayUse (P : Mempool ι β ε) (r c : ι) (s : State β ε) : Prop :=
  ∃ t, Relation.ReflTransGen (Step P r c) s t ∧ t.secondary.pc = .usedFreedRing

theorem MayUse.of_step {t : State β ε} (hstep : SecondaryStep P c s t) (h : MayUse P r c t) :
    MayUse P r c s := by
  obtain ⟨u, hrun, hu⟩ := h
  exact ⟨u, .head (.secondary hstep) hrun, hu⟩

theorem mayUse_dequeue (hpc : s.secondary.pc = .dequeue) (hfreed : s.ringFreed = true) :
    MayUse P r c s :=
  .of_step (.dequeueFreed hpc hfreed) ⟨_, .refl, rfl⟩

theorem mayUse_whileTest (hpc : s.secondary.pc = .whileTest) (hfreed : s.ringFreed = true)
    (hexit : s.secondary.exitIndicator = false) : MayUse P r c s :=
  .of_step (.enter hpc hexit) (mayUse_dequeue rfl hfreed)

/-- The secondary is inside its loop over a burst, on a ring that is freed, and
    has not been signalled. -/
structure Looping (s : State β ε) : Prop where
  freed : s.ringFreed = true
  running : s.secondary.exitIndicator = false
  wf : s.secondary.Wf

omit [DecidableEq β] in
/-- The next packet of the burst is looked at. -/
theorem Looping.exists_process (h : Looping s) (hpc : s.secondary.pc = .forLoop)
    (hlt : s.secondary.i < s.secondary.rxPackets.length) :
    ∃ t, SecondaryStep P c s t ∧ Looping t ∧ t.secondary.pc = .free ∧
      t.secondary.rxPackets = s.secondary.rxPackets ∧ t.secondary.i = s.secondary.i := by
  have hi : s.secondary.i < s.secondary.rxCount := by rw [h.wf.count]; exact hlt
  have hstep := SecondaryStep.process (P := P) (l := c) hlt hpc hi
  exact ⟨_, hstep, ⟨h.freed, h.running, secondaryStep_wf hstep h.wf⟩, rfl, rfl, rfl⟩

omit [DecidableEq β] in
/-- The packet looked at is freed. -/
theorem Looping.exists_free (h : Looping s) (hput : ∀ l e b, ∃ e', P.put l e b e')
    (hpc : s.secondary.pc = .free) :
    ∃ t, SecondaryStep P c s t ∧ Looping t ∧ t.secondary.pc = .forLoop ∧
      t.secondary.rxPackets = s.secondary.rxPackets ∧ t.secondary.i = s.secondary.i + 1 := by
  have hlt := h.wf.freeing hpc
  obtain ⟨e, he⟩ := hput c s.pool s.secondary.rxPackets[s.secondary.i]
  have hstep := SecondaryStep.free hlt hpc he
  exact ⟨_, hstep, ⟨h.freed, h.running, secondaryStep_wf hstep h.wf⟩, rfl, rfl, h.wf.next hlt⟩

/-- The `for` loop over the last burst comes to its end. -/
theorem Looping.mayUse_forLoop (h : Looping s) (hput : ∀ l e b, ∃ e', P.put l e b e')
    (hpc : s.secondary.pc = .forLoop) : MayUse P r c s := by
  generalize hn : s.secondary.rxPackets.length - s.secondary.i = n
  induction n generalizing s with
  | zero =>
    have hi : ¬ s.secondary.i < s.secondary.rxCount := by rw [h.wf.count]; omega
    exact .of_step (.done hpc hi) (mayUse_whileTest rfl h.freed h.running)
  | succ n ih =>
    have hlt : s.secondary.i < s.secondary.rxPackets.length := by omega
    obtain ⟨t, hprocess, ht, hfreePc, hpackets, hindex⟩ :=
      h.exists_process (P := P) (c := c) hpc hlt
    obtain ⟨u, hfree, hu, hloopPc, hpackets', hindex'⟩ := ht.exists_free (c := c) hput hfreePc
    apply MayUse.of_step hprocess
    apply MayUse.of_step hfree
    apply ih hu hloopPc
    rw [hpackets', hpackets, hindex', hindex]
    omega

/-- A secondary that is not done with the ring may use it after it is freed. -/
theorem exists_use_after_free (hput : ∀ l e b, ∃ e', P.put l e b e') (hw : s.secondary.Wf)
    (hfreed : s.ringFreed = true) (hdone : ¬ s.secondary.DoneWithRing) : MayUse P r c s := by
  cases hpc : s.secondary.pc with
  | absent | lookup | exited => simp [Secondary.DoneWithRing, hpc] at hdone
  | whileTest =>
    exact mayUse_whileTest hpc hfreed (by simpa [Secondary.DoneWithRing, hpc] using hdone)
  | dequeue => exact mayUse_dequeue hpc hfreed
  | forLoop =>
    have hrunning : s.secondary.exitIndicator = false := by
      simpa [Secondary.DoneWithRing, hpc] using hdone
    exact Looping.mayUse_forLoop ⟨hfreed, hrunning, hw⟩ hput hpc
  | free =>
    have hrunning : s.secondary.exitIndicator = false := by
      simpa [Secondary.DoneWithRing, hpc] using hdone
    obtain ⟨t, hfree, ht, hpc', -, -⟩ :=
      Looping.exists_free (c := c) ⟨hfreed, hrunning, hw⟩ hput hpc
    exact .of_step hfree (ht.mayUse_forLoop hput hpc')
  | usedFreedRing => exact ⟨s, .refl, hpc⟩

theorem ringFreed_step {t : State β ε} (h : Step P r c s t) (hfreed : s.ringFreed = true) :
    t.ringFreed = true := by
  cases h with
  | primary h =>
    cases h with
    | ringFree => rfl
    | _ => exact hfreed
  | secondary h => cases h <;> exact hfreed
  | terminatePrimary => exact hfreed
  | terminateSecondary _ => exact hfreed

/-- Once the ring is freed, it may be used again exactly if the secondary is not
    done with it. -/
theorem mayUse_iff (hput : ∀ l e b, ∃ e', P.put l e b e')
    (hs : (relaunchSystem P r c).Reachable s) (hfreed : s.ringFreed = true) :
    MayUse P r c s ↔ ¬ s.secondary.DoneWithRing := by
  constructor
  · intro huse hdone
    obtain ⟨t, hrun, ht⟩ := huse
    have hsafe : RingSafe t ∧ t.ringFreed = true := by
      clear ht
      induction hrun with
      | refl => exact ⟨⟨hdone.ne, fun _ => hdone⟩, hfreed⟩
      | tail _ hstep ih =>
        refine ⟨ih.1.step (.step hstep) ?_, ringFreed_step hstep ih.2⟩
        intro hno
        rw [ih.2] at hno
        cases hno
    exact hsafe.1.notUsed ht
  · intro hdone
    obtain ⟨_, -, -, hinv⟩ := inv_relaunch hs
    exact exists_use_after_free hput hinv.secondary hfreed hdone

end Continuations

/-! ## Two runs -/

/-- The secondary is signalled first and leaves its loop; then the primary is
    signalled and frees the ring. -/
theorem ring_not_used_both_signalled :
    ∃ s : State ℕ (CachedPool (Fin 2) ℕ rteMempoolCacheMaxSize),
      s.ringFreed = true ∧ s.secondary.pc = .exited ∧ s.secondary.pc ≠ .usedFreedRing := by
  have h₀ := System.Reachable.of_init
    (S := (relaunchSystem (memoryBufferPool (Fin 2) ℕ) 0 1).guarded
      FreedWhenDone) starts_createdPool
  have h₁ := h₀.step ⟨.step (.secondary (.launch rfl)), nofun⟩
  have h₂ := h₁.step ⟨.step (.secondary (.lookup rfl rfl)), nofun⟩
  have h₃ := h₂.step ⟨.step (.terminateSecondary nofun), nofun⟩
  have h₄ := h₃.step ⟨.step (.secondary (.exit rfl rfl)), nofun⟩
  have h₅ := h₄.step ⟨.step .terminatePrimary, nofun⟩
  have h₆ := h₅.step ⟨.step (.primary (.exit rfl rfl)), nofun⟩
  have h₇ := h₆.step ⟨.step (.primary (.ringFree rfl)), fun _ _ => trivial⟩
  exact ⟨_, rfl, rfl, ring_not_used_after_free h₇⟩

/-- Only the primary is signalled: the secondary polls on. -/
theorem secondary_polls_freed_ring :
    ¬ ∀ s, (system (memoryBufferPool (Fin 2) ℕ) 0 1).Reachable s →
      s.secondary.pc ≠ .usedFreedRing := by
  intro hall
  have h₀ := System.Reachable.of_init
    (S := system (memoryBufferPool (Fin 2) ℕ) 0 1) starts_createdPool
  have h₁ := h₀.step (.secondary (.launch rfl))
  have h₂ := h₁.step (.secondary (.lookup rfl rfl))
  have h₃ := h₂.step .terminatePrimary
  have h₄ := h₃.step (.primary (.exit rfl rfl))
  have h₅ := h₄.step (.secondary (.enter rfl rfl))
  have h₆ := h₅.step (.primary (.ringFree rfl))
  have h₇ := h₆.step (.secondary (.dequeueFreed rfl rfl))
  exact hall _ h₇ rfl

end DpdkTutorials.Multiprocess

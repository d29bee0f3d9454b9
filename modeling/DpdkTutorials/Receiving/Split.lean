import DpdkTutorials.Rss.Handoff
import DpdkTutorials.Receiving.Ownership

/-!
# The two routines of `6-receive-side-scaling`

`main` and the worker run `read_packets_from_interface` with the port and queue
numbers that they read from `port_and_queue_id`, where the port is always 0. DPDK
allows only one lcore at a time to poll a receive queue. If the started port is 0,
and as long as the worker reads the word before `main` reuses it, the two routines
poll two queues, and the program is one of the `Setup`s: all that holds of these
holds of it.

* `splitting`: the intended setup.
* `split_refines`: the program refines it.
-/

namespace DpdkTutorials.Receiving

open DpdkTutorials.Common DpdkTutorials.Dpdk DpdkTutorials.Rss
open DpdkTutorials.Processing (Packet exists_rxBurst_of_queue poolCacheSize port0)

universe u v

variable {ι : Type u} {β : Type v}

instance : Fintype Rss.Lcore where
  elems := {.main, .worker}
  complete l := by cases l <;> simp

theorem sum_lcore {M : Type v} [AddCommMonoid M] (f : Rss.Lcore → M) :
    ∑ l, f l = f .main + f .worker :=
  Finset.sum_pair (by decide)

/-- The lcores of `main` and of the worker. -/
structure Lcores (ι : Type u) where
  of : Rss.Lcore → ι
  injective : Function.Injective of

/-- The queues as `main` means to split them. -/
def intendedQueue : Rss.Lcore → UInt16
  | .main => 0
  | .worker => 1

/-- Two queues of one port, each polled on one lcore. -/
def splitting (L : Lcores ι) : Setup ι Rss.Lcore where
  report := .count
  lcore := L.of
  queue := intendedQueue
  main := .main
  lcore_injective := L.injective
  queue_injective l l' h := by
    cases l <;> cases l' <;> first | rfl | exact absurd h (by decide)

/-- The routines before and in their loops. -/
structure SplitState (ι : Type u) (β : Type v) where
  handoff : Rss.State
  receiving : State ι Rss.Lcore β

/-- The steps of both lcores from the launch on. The queues that they poll are those
    of the port 0, which both halves of `port_and_queue_id` name. -/
inductive SplitStep [Fintype ι] (L : Lcores ι) : SplitState ι β → SplitState ι β → Prop where
  /-- An access to the word. -/
  | access {s h'} : Rss.Step s.handoff h' → s.handoff.trace.length < h'.trace.length →
      SplitStep L s { s with handoff := h' }
  /-- A step in the loop, with the queue that has been read. -/
  | poll {s r'} (l : Rss.Lcore) : (s.handoff.reader l).pc = .polling →
      PollerStep .count (L.of l) (s.handoff.reader l).queueId l s.receiving r' →
      SplitStep L s { s with receiving := r' }
  | terminate {s} : SplitStep L s {
      handoff := { s.handoff with exitIndicator := true }
      receiving := { s.receiving with exitIndicator := true } }

/-- The program from the launch of the worker on, when the port 0 has been started with
    these queues. -/
def split [Fintype ι] (β : Type v) (L : Lcores ι) : System (SplitState ι β) where
  init s := s.handoff = launched ∧ ∃ pool rxQueue mem,
    s.receiving = start pool rxQueue mem ∧ Started (splitting L) pool rxQueue
  next := SplitStep L

/-- The overwrite does not come before the worker's second read. -/
def InTime (s : SplitState ι β) : Prop :=
  .overwrite ∈ s.handoff.trace → ReadInTime s.handoff.trace

theorem inTime_of_not_mem {s : SplitState ι β} (h : .overwrite ∉ s.handoff.trace) : InTime s :=
  fun hmem => absurd hmem h

/-! ## The refinement -/

/-- A routine that has read its queue in time polls the intended one. -/
theorem queueId_of_inTime {s : Rss.State} (hi : Rss.Inv s)
    (htime : .overwrite ∈ s.trace → ReadInTime s.trace) {l : Rss.Lcore}
    (hpc : (s.reader l).pc = .polling) : (s.reader l).queueId = intendedQueue l := by
  cases l with
  | main => exact hi.mainQueue (.inl hpc)
  | worker =>
    by_cases hmem : Access.overwrite ∈ s.trace
    · exact (hi.workerQueue.late (.inl hpc) hmem).mpr (htime hmem)
    · exact (hi.workerQueue.early (.inl hpc) hmem).1

variable [Fintype ι] {L : Lcores ι} {s : SplitState ι β}

theorem split_invariant (hs : ((split β L).guarded fun _ t => InTime t).Reachable s) :
    Rss.Inv s.handoff ∧ InTime s ∧ (system β (splitting L)).Reachable s.receiving := by
  refine hs.invariant (P := fun s => Rss.Inv s.handoff ∧ InTime s ∧
    (system β (splitting L)).Reachable s.receiving) ?_ ?_
  · rintro s ⟨hlaunched, hstarted⟩
    refine ⟨hlaunched ▸ inv_launched, inTime_of_not_mem ?_, .of_init hstarted⟩
    rw [hlaunched]
    exact List.not_mem_nil
  · rintro s t _ ⟨hi, htime, hreach⟩ ⟨hstep, htime'⟩
    cases hstep with
    | access h => exact ⟨Rss.inv_step hi h, htime', hreach⟩
    | poll l hpc h =>
      rw [queueId_of_inTime hi htime hpc] at h
      exact ⟨hi, htime', hreach.step (.poller l h)⟩
    | terminate => exact ⟨Rss.inv_step hi .terminate, htime', hreach.step .terminate⟩

/-- If the first detected port has id 0, then in the runs in which the worker reads
    its queue in time both lcores poll the started port, no two of them poll the same
    queue, and what they do to the pool, the queues and the packets is a run of the
    intended setup. -/
theorem split_refines {ports : List UInt16} (hport : startedPort ports = 0)
    (hs : ((split β L).guarded fun _ t => InTime t).Reachable s) :
    (∀ l, (s.handoff.reader l).pc = .polling →
      (s.handoff.reader l).portId = startedPort ports) ∧
    (∀ l l', (s.handoff.reader l).pc = .polling → (s.handoff.reader l').pc = .polling →
      (s.handoff.reader l).queueId = (s.handoff.reader l').queueId → l = l') ∧
    (system β (splitting L)).Reachable s.receiving := by
  obtain ⟨hi, htime, hreach⟩ := split_invariant hs
  refine ⟨fun l hpc => ?_, fun l l' hpc hpc' hqueue => ?_, hreach⟩
  · rw [hi.port l (.inr (.inl hpc)), hport]
  · rw [queueId_of_inTime hi htime hpc, queueId_of_inTime hi htime hpc'] at hqueue
    exact (splitting L).queue_injective hqueue

/-! ## A run -/

/-- The default `--lcores=0,1`. -/
def lcores01 : Lcores (Fin 2) where
  of
    | .main => ⟨0, Nat.two_pos⟩
    | .worker => ⟨1, Nat.one_lt_two⟩
  injective l l' h := by
    cases l <;> cases l' <;> first | rfl | exact absurd h (by decide)

/-- The buffers 0 to 255 and 256 to 511 are in the queues 0 and 1. -/
def twoQueues (q : UInt16) : Multiset ℕ :=
  if q = 0 then ↑(List.range' 0 256) else if q = 1 then ↑(List.range' 256 256) else 0

/-- The other buffers are in the common pool. -/
def poolOf1023 : CachedPool (Fin 2) ℕ poolCacheSize :=
  { port0.pool with common := ↑(List.range' 512 511) }

theorem started_twoQueues : Started (splitting lcores01) poolOf1023 twoQueues := by
  have hall : poolOf1023.avail + ∑ l, twoQueues (intendedQueue l) = ↑(List.range' 0 1023) := by
    have hqueues : ∑ l, twoQueues (intendedQueue l) = ↑(List.range' 0 512) := by
      rw [sum_lcore]
      exact congrArg _ (List.range'_append_1 (s := 0) (m := 256) (n := 256))
    have havail : poolOf1023.avail = ↑(List.range' 512 511) := by
      simp [poolOf1023, port0, CachedPool.avail]
    rw [hqueues, havail, add_comm]
    exact congrArg _ (List.range'_append_1 (s := 0) (m := 512) (n := 511))
  refine ⟨?_, ?_, fun l => ?_, fun q hq => ?_, fun _ _ => rfl⟩
  · exact hall ▸ List.nodup_range'
  · exact (congrArg Multiset.card hall).trans List.length_range'
  · cases l with
    | main => exact List.length_range'
    | worker => exact List.length_range'
  · exact (if_neg (hq .main).symm).trans (if_neg (hq .worker).symm)

/-- The packets of each queue are numbered from 0 on. -/
def twoQueuesMem (b : ℕ) : Packet := ⟨b % 256, 60⟩

/-- The worker reads its queue before `main` goes on, and both lcores reach their loops. -/
theorem exists_bothPolling : ∃ h : Rss.State,
    ((split ℕ lcores01).guarded fun _ t => InTime t).Reachable
      ⟨h, start poolOf1023 twoQueues twoQueuesMem⟩ ∧
    (∀ l, (h.reader l).pc = .polling) ∧ (h.reader .worker).queueId = 1 ∧
    ReadInTime h.trace := by
  have h₀ : ((split ℕ lcores01).guarded fun _ t => InTime t).Reachable
      ⟨launched, start poolOf1023 twoQueues twoQueuesMem⟩ :=
    .of_init ⟨rfl, _, _, _, rfl, started_twoQueues⟩
  have h₁ := h₀.step ⟨.access (.readPortId .worker rfl) (by decide), inTime_of_not_mem (by decide)⟩
  have h₂ := h₁.step ⟨.access (.readQueueId .worker rfl) (by decide), inTime_of_not_mem (by decide)⟩
  have h₃ := h₂.step ⟨.access (.overwrite rfl) (by decide), fun _ => by decide⟩
  have h₄ := h₃.step ⟨.access (.readPortId .main rfl) (by decide), fun _ => by decide⟩
  have h₅ := h₄.step ⟨.access (.readQueueId .main rfl) (by decide), fun _ => by decide⟩
  exact ⟨_, h₅, fun l => by cases l <;> rfl, by decide, by decide⟩

/-- Then the worker receives a packet from the queue 1. -/
theorem split_refines_worker_first : ∃ s : SplitState (Fin 2) ℕ,
    (∀ l, (s.handoff.reader l).pc = .polling) ∧ s.receiving.received .worker = [⟨0, 60⟩] ∧
      (s.handoff.reader .main).portId = startedPort [0] ∧
      (system ℕ (splitting lcores01)).Reachable s.receiving := by
  have hlen : [256].length ≤ maxBurst := by decide
  have huse : [256].length ≤ (poolOf1023.usable (1 : Fin 2)).card := by
    simp [poolOf1023, port0, CachedPool.usable]
  have hqueue : twoQueues 1 = ↑[256] + ↑(List.range' 257 255) :=
    congrArg Multiset.ofList (List.range'_append_1 (s := 256) (m := 1) (n := 255)).symm
  obtain ⟨e, hburst⟩ := exists_rxBurst_of_queue ⟨poolOf1023, twoQueues 1⟩ huse hqueue
  have hmem : ∀ b, b ∉ poolOf1023.avail → (∀ q, b ∉ twoQueues q) →
      twoQueuesMem b = twoQueuesMem b := fun _ _ _ => rfl
  obtain ⟨h, h₀, hpc, hworker, htime⟩ := exists_bothPolling
  have h₁ := h₀.step ⟨.poll .worker (hpc .worker) (.enter rfl rfl), fun _ => htime⟩
  rw [← hworker] at hburst
  have h₂ := h₁.step
    ⟨.poll .worker (hpc .worker) (.burst rfl hburst hlen hmem rfl), fun _ => htime⟩
  have hall := split_refines (show startedPort [0] = 0 from rfl) h₂
  exact ⟨_, hpc, rfl, hall.1 .main (hpc .main), hall.2.2⟩

end DpdkTutorials.Receiving

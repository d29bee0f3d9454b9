import DpdkTutorials.Common.System

/-!
# The hand-off of the queue number in `6-receive-side-scaling`

`main` packs a port and a queue number in `port_and_queue_id`, passes the
address of this local variable to the worker lcore and then overwrites it for
its own instance of the same routine (main.cpp:237-248). The worker reads the
word twice (main.cpp:41-42), at any time after the launch has returned.

* `one_poller_each_iff`: the queues are split as intended exactly when the first
  detected port has id 0 and the worker's second read comes before the
  overwrite.
* `queue_one_not_polled`: otherwise both lcores may end up on queue 0.
-/

namespace DpdkTutorials.Rss

open DpdkTutorials.Common

/-! ## Model -/

/-- The lcores that run `read_packets_from_interface`. -/
inductive Lcore where
  | main
  | worker
  deriving DecidableEq, Repr

/-- `port_and_queue_id` at the launch of the worker (main.cpp:237). -/
def workerWord : UInt32 := ((1 : UInt32) <<< 16) ||| 0

/-- `port_and_queue_id` for main's own instance (main.cpp:246). -/
def mainWord : UInt32 := ((0 : UInt32) <<< 16) ||| 0

/-- `(*param) & 0xFFFF` (main.cpp:41). -/
def portHalf (word : UInt32) : UInt16 := (word &&& 0xFFFF).toUInt16

/-- `((*param) >> 16) & 0xFFFF` (main.cpp:42). -/
def queueHalf (word : UInt32) : UInt16 := ((word >>> 16) &&& 0xFFFF).toUInt16

/-- `port_ids[0]`, the port that `main` configures with two receive queues and
    starts: the first of the detected ports (main.cpp:126-217). -/
def startedPort (ports : List UInt16) : UInt16 := ports.headD 0

/-- Where an instance of `read_packets_from_interface` is. -/
inductive ReaderPc where
  | notCalled
  | readPortId
  | readQueueId
  | polling
  | returned
  deriving DecidableEq, Repr

/-- The local variables of `read_packets_from_interface`. -/
structure Reader where
  pc : ReaderPc
  portId : UInt16
  queueId : UInt16
  deriving DecidableEq, Repr

/-- The accesses to the word after the launch. -/
inductive Access where
  | readPortId (l : Lcore)
  | readQueueId (l : Lcore)
  | overwrite
  deriving DecidableEq, Repr

structure State where
  portAndQueueId : UInt32
  exitIndicator : Bool
  reader : Lcore → Reader
  /-- History variable: the accesses to the word, in order. -/
  trace : List Access

/-- The atomic steps of `main` and of the worker after `rte_eal_remote_launch`
    has returned. -/
inductive Step : State → State → Prop where
  /-- `main` reuses the variable and calls the routine. -/
  | overwrite {s} : (s.reader .main).pc = .notCalled →
      Step s { s with
        portAndQueueId := mainWord, trace := s.trace ++ [.overwrite]
        reader := Function.update s.reader .main { s.reader .main with pc := .readPortId } }
  | readPortId {s} (l : Lcore) : (s.reader l).pc = .readPortId →
      Step s { s with
        trace := s.trace ++ [.readPortId l]
        reader := Function.update s.reader l { s.reader l with
          pc := .readQueueId, portId := portHalf s.portAndQueueId } }
  | readQueueId {s} (l : Lcore) : (s.reader l).pc = .readQueueId →
      Step s { s with
        trace := s.trace ++ [.readQueueId l]
        reader := Function.update s.reader l { s.reader l with
          pc := .polling, queueId := queueHalf s.portAndQueueId } }
  /-- One pass of the loop: `rte_eth_rx_burst(port_id, queue_id, ...)`. -/
  | poll {s} (l : Lcore) : (s.reader l).pc = .polling → s.exitIndicator = false → Step s s
  | exit {s} (l : Lcore) : (s.reader l).pc = .polling → s.exitIndicator = true →
      Step s { s with reader := Function.update s.reader l { s.reader l with pc := .returned } }
  | terminate {s} : Step s { s with exitIndicator := true }

/-- The state in which `rte_eal_remote_launch` returns: the worker has taken
    the address of the word, but not yet read it. -/
def launched : State where
  portAndQueueId := workerWord
  exitIndicator := false
  reader
    | .main => ⟨.notCalled, 0, 0⟩
    | .worker => ⟨.readPortId, 0, 0⟩
  trace := []

/-- Both threads from the launch on. -/
def handoff : System State where
  init s := s = launched
  next := Step

/-- An instance that has read its parameters. -/
def Reader.Started (r : Reader) : Prop := r.pc = .polling ∨ r.pc = .returned

/-- Each receive queue of the started port has one poller. -/
structure OnePollerEach (ports : List UInt16) (s : State) : Prop where
  workerPort : (s.reader .worker).portId = startedPort ports
  workerQueue : (s.reader .worker).queueId = 1
  mainPort : (s.reader .main).portId = startedPort ports
  mainQueue : (s.reader .main).queueId = 0

/-- The worker's second read comes before the overwrite. -/
def ReadInTime (trace : List Access) : Prop :=
  [Access.readQueueId .worker, .overwrite].Sublist trace

instance (trace : List Access) : Decidable (ReadInTime trace) :=
  inferInstanceAs (Decidable (List.Sublist _ _))

/-! ## The order of the accesses -/

/-- A new access decides the order only if it is the overwrite. -/
theorem readInTime_append (trace : List Access) (a : Access) :
    ReadInTime (trace ++ [a]) ↔
      ReadInTime trace ∨ a = .overwrite ∧ Access.readQueueId .worker ∈ trace := by
  unfold ReadInTime
  rw [← List.reverse_sublist, ← @List.reverse_sublist _ _ trace, List.reverse_append]
  show [Access.overwrite, .readQueueId .worker].Sublist (a :: trace.reverse) ↔
    [Access.overwrite, .readQueueId .worker].Sublist trace.reverse ∨ _
  rw [List.cons_sublist_cons', List.singleton_sublist, List.mem_reverse, eq_comm]

theorem ReadInTime.mem {trace : List Access} (h : ReadInTime trace) :
    Access.overwrite ∈ trace :=
  h.subset (by simp)

/-! ## The invariant -/

/-- What the worker's queue number says about the order of the accesses. -/
structure QueueByOrder (r : Reader) (trace : List Access) : Prop where
  notRead : ¬ r.Started → Access.readQueueId .worker ∉ trace
  early : r.Started → .overwrite ∉ trace → r.queueId = 1 ∧ Access.readQueueId .worker ∈ trace
  late : r.Started → .overwrite ∈ trace → (r.queueId = 1 ↔ ReadInTime trace)

structure Inv (s : State) : Prop where
  word : s.portAndQueueId = if Access.overwrite ∈ s.trace then mainWord else workerWord
  called : (s.reader .main).pc = .notCalled ↔ Access.overwrite ∉ s.trace
  launched : (s.reader .worker).pc ≠ .notCalled
  port : ∀ l, (s.reader l).pc = .readQueueId ∨ (s.reader l).Started → (s.reader l).portId = 0
  mainQueue : (s.reader .main).Started → (s.reader .main).queueId = 0
  workerQueue : QueueByOrder (s.reader .worker) s.trace

theorem inv_launched : Inv launched where
  word := rfl
  called := by decide
  launched := by decide
  port l := by cases l <;> simp [DpdkTutorials.Rss.launched, Reader.Started]
  mainQueue := by simp [DpdkTutorials.Rss.launched, Reader.Started]
  workerQueue := ⟨by simp [DpdkTutorials.Rss.launched],
    by simp [DpdkTutorials.Rss.launched, Reader.Started], by simp [DpdkTutorials.Rss.launched]⟩

/-- When main's instance is called, the word has been overwritten. -/
theorem Inv.overwritten {s : State} (h : Inv s) (hpc : (s.reader .main).pc ≠ .notCalled) :
    Access.overwrite ∈ s.trace := by
  by_contra hno
  exact hpc (h.called.mpr hno)

/-- Both halves of the packed words that name the port are zero. -/
theorem Inv.portHalf_eq {s : State} (h : Inv s) : portHalf s.portAndQueueId = 0 := by
  rw [h.word]
  split_ifs
  · rfl
  · rfl

/-- Accesses that neither overwrite the word nor read the worker's queue. -/
theorem QueueByOrder.append {r r' : Reader} {trace : List Access} (h : QueueByOrder r trace)
    (hstarted : r'.Started ↔ r.Started) (hqueue : r'.queueId = r.queueId) {a : Access}
    (hoverwrite : a ≠ .overwrite) (hread : a ≠ .readQueueId .worker) :
    QueueByOrder r' (trace ++ [a]) where
  notRead hr := by
    rw [hstarted] at hr
    simpa [hread.symm] using h.notRead hr
  early hr hno := by
    rw [hstarted] at hr
    rw [List.mem_append, not_or] at hno
    rw [hqueue, List.mem_append]
    exact ⟨(h.early hr hno.1).1, .inl (h.early hr hno.1).2⟩
  late hr hyes := by
    rw [hstarted] at hr
    rw [hqueue, readInTime_append]
    have hmem : Access.overwrite ∈ trace := by simpa [hoverwrite.symm] using hyes
    simpa [hoverwrite] using h.late hr hmem

theorem Inv.overwrite {s : State} (h : Inv s) (hpc : (s.reader .main).pc = .notCalled) :
    Inv { s with
      portAndQueueId := mainWord, trace := s.trace ++ [.overwrite]
      reader := Function.update s.reader .main { s.reader .main with pc := .readPortId } } where
  word := by simp
  called := by simp
  launched := h.launched
  port l := by
    cases l with
    | main => simp [Reader.Started]
    | worker => exact h.port .worker
  mainQueue := by simp [Reader.Started]
  workerQueue := by
    have hno : Access.overwrite ∉ s.trace := h.called.mp hpc
    constructor
    · intro hr
      simpa using h.workerQueue.notRead hr
    · intro _ hno'
      simp at hno'
    · intro hr _
      obtain ⟨hqueue, hread⟩ := h.workerQueue.early hr hno
      rw [readInTime_append]
      exact iff_of_true hqueue (.inr ⟨rfl, hread⟩)

/-- Steps of an instance that is already called leave the word as it is. -/
theorem Inv.running {s : State} (h : Inv s) (l : Lcore) (r : Reader) (new : List Access)
    (hpc : (s.reader l).pc ≠ .notCalled) (hpc' : r.pc ≠ .notCalled) (hport : r.portId = 0)
    (hnew : Access.overwrite ∉ new)
    (hmain : (Function.update s.reader l r .main).Started →
      (Function.update s.reader l r .main).queueId = 0)
    (hworker : QueueByOrder (Function.update s.reader l r .worker) (s.trace ++ new)) :
    Inv { s with trace := s.trace ++ new, reader := Function.update s.reader l r } where
  word := by
    rw [h.word]
    simp [hnew]
  called := by
    cases l with
    | main => simp [hpc', h.overwritten hpc]
    | worker => simpa [hnew] using h.called
  launched := by
    cases l with
    | main => exact h.launched
    | worker => simpa using hpc'
  port l' := by
    by_cases hl : l' = l
    · subst hl
      intro _
      simpa using hport
    · simpa [Function.update_of_ne hl] using h.port l'
  mainQueue := hmain
  workerQueue := hworker

theorem Inv.readPortId {s : State} (h : Inv s) {l : Lcore} (hpc : (s.reader l).pc = .readPortId) :
    Inv { s with
      trace := s.trace ++ [.readPortId l]
      reader := Function.update s.reader l { s.reader l with
        pc := .readQueueId, portId := portHalf s.portAndQueueId } } := by
  apply h.running l _ [.readPortId l] (by simp [hpc]) (by simp) h.portHalf_eq (by simp)
  · cases l with
    | main => simp [Reader.Started]
    | worker => exact h.mainQueue
  · cases l with
    | main => exact h.workerQueue.append Iff.rfl rfl (by simp) (by simp)
    | worker =>
      exact h.workerQueue.append (by simp [Reader.Started, hpc]) (by simp) (by simp) (by simp)

/-- The worker's second read decides its queue. -/
theorem QueueByOrder.read {r : Reader} {trace : List Access} (h : QueueByOrder r trace)
    (hr : ¬ r.Started) {word : UInt32}
    (hword : word = if Access.overwrite ∈ trace then mainWord else workerWord) :
    QueueByOrder { r with pc := .polling, queueId := queueHalf word }
      (trace ++ [.readQueueId .worker]) where
  notRead := by simp [Reader.Started]
  early _ hno := by
    rw [List.mem_append, not_or] at hno
    rw [hword, if_neg hno.1]
    exact ⟨rfl, by simp⟩
  late _ hyes := by
    -- Too late: the word is already the one for main.
    have hmem : Access.overwrite ∈ trace := by simpa using hyes
    rw [hword, if_pos hmem, readInTime_append]
    refine iff_of_false (show ¬ queueHalf mainWord = 1 by decide) ?_
    intro hor
    rcases hor with htime | ⟨hne, -⟩
    · exact h.notRead hr (htime.subset (by simp))
    · cases hne

theorem Inv.readQueueId {s : State} (h : Inv s) {l : Lcore}
    (hpc : (s.reader l).pc = .readQueueId) :
    Inv { s with
      trace := s.trace ++ [.readQueueId l]
      reader := Function.update s.reader l { s.reader l with
        pc := .polling, queueId := queueHalf s.portAndQueueId } } := by
  have hport : (s.reader l).portId = 0 := h.port l (.inl hpc)
  apply h.running l _ [.readQueueId l] (by simp [hpc]) (by simp) (by exact hport) (by simp)
  · cases l with
    | main =>
      intro _
      show queueHalf s.portAndQueueId = 0
      rw [h.word, if_pos (h.overwritten (by simp [hpc]))]
      rfl
    | worker => exact h.mainQueue
  · cases l with
    | main => exact h.workerQueue.append Iff.rfl rfl (by simp) (by simp)
    | worker => exact h.workerQueue.read (by simp [Reader.Started, hpc]) h.word

theorem Inv.exit {s : State} (h : Inv s) {l : Lcore} (hpc : (s.reader l).pc = .polling) :
    Inv { s with
      reader := Function.update s.reader l { s.reader l with pc := .returned } } := by
  have hstarted : (s.reader l).Started := .inl hpc
  have hport : (s.reader l).portId = 0 := h.port l (.inr hstarted)
  have hinv := h.running l { s.reader l with pc := .returned } [] (by simp [hpc]) (by simp) hport
    (by simp)
  rw [List.append_nil] at hinv
  apply hinv
  · cases l with
    | main => exact fun _ => h.mainQueue hstarted
    | worker => exact h.mainQueue
  · cases l with
    | main => exact h.workerQueue
    | worker =>
      exact ⟨by simp [Reader.Started], fun _ => h.workerQueue.early hstarted,
        fun _ => h.workerQueue.late hstarted⟩

theorem inv_step {s t : State} (h : Inv s) (hstep : Step s t) : Inv t := by
  cases hstep with
  | overwrite hpc => exact h.overwrite hpc
  | readPortId l hpc => exact h.readPortId hpc
  | readQueueId l hpc => exact h.readQueueId hpc
  | poll l _ _ => exact h
  | exit l hpc _ => exact h.exit hpc
  | terminate => exact ⟨h.word, h.called, h.launched, h.port, h.mainQueue, h.workerQueue⟩

theorem inv_reachable {s : State} (hs : handoff.Reachable s) : Inv s := by
  apply System.Reachable.invariant (P := Inv) ?_ ?_ hs
  · intro s hinit
    have hs : s = launched := hinit
    rw [hs]
    exact inv_launched
  · intro s t _ h hstep
    exact inv_step h hstep

/-! ## The split of the queues -/

/-- Once both instances have read their parameters, the worker polls queue 1
    and main queue 0 of the started port exactly when the first detected port
    has id 0 and the worker has read its queue number before the overwrite. -/
theorem one_poller_each_iff (ports : List UInt16) {s : State} (hs : handoff.Reachable s)
    (hworker : (s.reader .worker).Started) (hmain : (s.reader .main).Started) :
    OnePollerEach ports s ↔ startedPort ports = 0 ∧ ReadInTime s.trace := by
  have h := inv_reachable hs
  have hmem : Access.overwrite ∈ s.trace := by
    apply h.overwritten
    rcases hmain with hpc | hpc <;> simp [hpc]
  have hlate := h.workerQueue.late hworker hmem
  have hport : ∀ l, (s.reader l).Started → (s.reader l).portId = 0 := fun l hl => h.port l (.inr hl)
  constructor
  · intro hone
    exact ⟨by rw [← hone.workerPort, hport .worker hworker], hlate.mp hone.workerQueue⟩
  · intro ⟨hzero, htime⟩
    exact ⟨by rw [hport .worker hworker, hzero], hlate.mpr htime, by rw [hport .main hmain, hzero],
      h.mainQueue hmain⟩

/-! ## Two runs -/

/-- The worker reads both halves before `main` reuses the variable. -/
theorem one_poller_each_read_in_time :
    ∃ s, handoff.Reachable s ∧ OnePollerEach [0] s ∧ ReadInTime s.trace := by
  have h₁ := (System.Reachable.of_init (S := handoff) rfl).step (.readPortId .worker rfl)
  have h₂ := h₁.step (.readQueueId .worker rfl)
  have h₃ := h₂.step (.overwrite rfl)
  have h₄ := h₃.step (.readPortId .main rfl)
  have h₅ := h₄.step (.readQueueId .main rfl)
  exact ⟨_, h₅, (one_poller_each_iff [0] h₅ (.inl rfl) (.inl rfl)).mpr ⟨rfl, by decide⟩, by decide⟩

/-- `main` reuses the variable first: both instances poll queue 0 of the only
    port, and nobody polls queue 1. -/
theorem queue_one_not_polled :
    ¬ ∀ (ports : List UInt16) (s : State), ports ≠ [] → handoff.Reachable s →
      (s.reader .worker).Started → (s.reader .main).Started → OnePollerEach ports s := by
  intro hall
  have h₁ := (System.Reachable.of_init (S := handoff) rfl).step (.overwrite rfl)
  have h₂ := h₁.step (.readPortId .worker rfl)
  have h₃ := h₂.step (.readQueueId .worker rfl)
  have h₄ := h₃.step (.readPortId .main rfl)
  have h₅ := h₄.step (.readQueueId .main rfl)
  have hone := hall [0] _ (by simp) h₅ (.inl rfl) (.inl rfl)
  have hqueue : queueHalf mainWord = 1 := hone.workerQueue
  exact absurd hqueue (by decide)

end DpdkTutorials.Rss

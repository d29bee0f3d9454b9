import DpdkTutorials.Common.Channel
import DpdkTutorials.Multiprocess.Model

/-!
# The packets of `8-multiprocess-communication` arrive in order

The primary and the secondary are the two ends of a channel of owned buffers.
`primaryStep_channel` and `secondaryStep_channel` show that every step of the
program is an action of that channel or invisible to it, so ownership, contents
and order follow from `Channel.Inv`. What remains is the secondary's comparison
of timestamps: its `lastTimestamp` is the timestamp of the packet enqueued just
before, even if packets were dropped in between because the ring was full.

* `inv_relaunch`: the channel's invariant holds in every run, with one
  secondary or several.
* `packets_delivered`: the properties of the transfer with one secondary.
-/

namespace DpdkTutorials.Multiprocess

open DpdkTutorials.Common DpdkTutorials.Dpdk

universe u v w

variable {ι : Type u} {β : Type v} {ε : Type w}

/-! ## The channel -/

/-- An enqueued packet, with what the primary has written in it. -/
def Enqueued.contents (e : Enqueued) : ℕ × Packet := (e.serial, ⟨e.reading.timestamp, sampleData⟩)

def Consumed.contents (c : Consumed) : ℕ × Packet := (c.serial, c.packet)

/-- The two processes as the ends of a channel. -/
def State.channel (s : State β ε) : Channel β Packet ε where
  pool := s.pool
  mem b := (s.mem b).packet
  serial := s.serial
  allocs := s.allocs
  hand := s.primary.hand
  queue := s.ringBuffer.items
  taken := s.secondary.taken
  done := s.secondary.done
  sent := s.enqueued.map Enqueued.contents
  received := s.consumed.map Consumed.contents
  freed := s.freed

/-- The loop over a burst stays inside the burst, which has at most one packet. -/
structure Secondary.Wf (c : Secondary β) : Prop where
  count : c.rxCount = c.rxPackets.length
  short : c.rxPackets.length ≤ 1
  inside : c.i ≤ c.rxPackets.length
  freeing : c.pc = .free → c.i < c.rxPackets.length

/-- The index, an `uint8_t`, does not wrap. -/
theorem Secondary.Wf.next {c : Secondary β} (hw : c.Wf) (h : c.i < c.rxPackets.length) :
    (c.i + 1) % 2 ^ 8 = c.i + 1 := by
  have hshort := hw.short
  exact Nat.mod_eq_of_lt (by omega)

/-- What the primary has written so far in the packet in its hand. -/
structure Written (s : State β ε) : Prop where
  stamped : ∀ b, s.primary.pc = .fill b → (s.mem b).timestamp = s.primary.ts.timestamp
  filled : ∀ b, s.primary.pc = .enqueue b →
    (s.mem b).packet = ⟨s.primary.ts.timestamp, sampleData⟩

theorem packet_update [DecidableEq β] (mem : β → Mbuf) (b : β) (buf : Mbuf) :
    (fun b' => (Function.update mem b buf b').packet) =
      Function.update (fun b' => (mem b').packet) b buf.packet := by
  funext b'
  by_cases h : b' = b
  · rw [h, Function.update_self, Function.update_self]
  · rw [Function.update_of_ne h, Function.update_of_ne h]

/-! ## Steps of the primary -/

section Primary

variable [DecidableEq β] {P : Mempool ι β ε} {l : ι} {s t : State β ε}

theorem primaryStep_written (h : PrimaryStep P l s t) (hw : Written s) : Written t := by
  cases h with
  | exit | enter | alloc | allocFailed | enqueue | full | drop | ringFree =>
    exact ⟨by simp, by simp⟩
  | stamp ts hpc =>
    refine ⟨?_, by simp⟩
    intro b hb
    have hb' : _ = b := PrimaryPc.fill.inj hb
    subst hb'
    simp
  | fill hpc =>
    refine ⟨by simp, ?_⟩
    intro b hb
    have hb' : _ = b := PrimaryPc.enqueue.inj hb
    subst hb'
    simp [Mbuf.packet_fill, hw.stamped _ hpc]

/-- A step of the primary that leaves its hand alone is invisible. -/
theorem primaryStep_channel (h : PrimaryStep P l s t) (hw : Written s) :
    t.channel = s.channel ∨ Channel.Step P s.channel t.channel := by
  cases h with
  | exit hpc | enter hpc | allocFailed hpc | full hpc | ringFree hpc =>
    left
    simp [State.channel, Primary.hand, hpc]
  | @alloc b e hpc hget =>
    right
    have hhand : s.channel.hand = [] := by simp [State.channel, Primary.hand, hpc]
    simp only [State.channel, packet_update]
    exact .alloc _ hhand hget
  | @stamp b ts hpc =>
    right
    have hhand : s.channel.hand = [b] := by simp [State.channel, Primary.hand, hpc]
    have hstep := Channel.Step.write (P := P)
      (Mbuf.packet { s.mem b with timestamp := ts.timestamp }) hhand
    simp only [State.channel, packet_update, Primary.hand, hpc] at hstep ⊢
    exact hstep
  | @fill b hpc =>
    right
    have hhand : s.channel.hand = [b] := by simp [State.channel, Primary.hand, hpc]
    have hstep := Channel.Step.write (P := P) (s.mem b).fill.packet hhand
    simp only [State.channel, packet_update, Primary.hand, hpc] at hstep ⊢
    exact hstep
  | @enqueue b r' hpc henq =>
    right
    have hhand : s.channel.hand = [b] := by simp [State.channel, Primary.hand, hpc]
    have hcontents : s.channel.contents b = (⟨s.serial b, s.primary.ts⟩ : Enqueued).contents := by
      show (s.serial b, (s.mem b).packet) = _
      rw [hw.filled b hpc]
      rfl
    have hstep := Channel.Step.send (P := P) hhand
    rw [hcontents] at hstep
    simp only [State.channel, Ring.items_of_enqueue henq, List.map_append] at hstep ⊢
    exact hstep
  | @drop b e hpc hput =>
    right
    have hhand : s.channel.hand = [b] := by simp [State.channel, Primary.hand, hpc]
    exact .giveUp hhand hput

end Primary

/-! ## Steps of the secondary -/

section Secondary

variable {P : Mempool ι β ε} {l : ι} {s t : State β ε}

theorem secondaryStep_wf (h : SecondaryStep P l s t) (hw : s.secondary.Wf) : t.secondary.Wf := by
  cases h with
  | launch => exact ⟨rfl, Nat.zero_le _, le_rfl, by simp [Secondary.launched]⟩
  | lookup | lookupFailed | exit | enter | dequeueFreed | done =>
    exact ⟨hw.count, hw.short, hw.inside, by simp⟩
  | @dequeue bs r' hpc _ hd =>
    have hlen := Ring.length_dequeueBurst_le s.ringBuffer 1
    rw [hd] at hlen
    refine ⟨Nat.mod_eq_of_lt (by simp only at hlen; omega), hlen, Nat.zero_le _, ?_⟩
    simp only
    split_ifs <;> simp
  | process h => exact ⟨hw.count, hw.short, hw.inside, fun _ => h⟩
  | free h =>
    refine ⟨hw.count, hw.short, ?_, by simp⟩
    simp only
    rw [hw.next h]
    omega

/-- A step of the secondary is an action of the consumer or invisible. -/
theorem secondaryStep_channel [DecidableEq β] (h : SecondaryStep P l s t) (hw : s.secondary.Wf) :
    t.channel = s.channel ∨ Channel.Step P s.channel t.channel := by
  cases h with
  | launch hpc =>
    left
    simp [State.channel, Secondary.taken, Secondary.done, Secondary.launched, hpc]
  | lookup hpc | lookupFailed hpc | exit hpc | enter hpc | dequeueFreed hpc =>
    left
    simp [State.channel, Secondary.taken, Secondary.done, hpc]
  | @dequeue bs r' hpc _ hd =>
    have hsplit := Ring.dequeueBurst_append s.ringBuffer 1
    have hlen := Ring.length_dequeueBurst_le s.ringBuffer 1
    rw [hd] at hsplit hlen
    simp only at hsplit hlen
    have htaken : s.channel.taken = [] := by simp [State.channel, Secondary.taken, hpc]
    match bs, hsplit, hlen with
    | [], hsplit, _ =>
      left
      simp [State.channel, Secondary.taken, Secondary.done, hpc, ← hsplit]
    | [b], hsplit, _ =>
      right
      have hqueue : s.channel.queue = b :: r'.items := hsplit.symm
      have hstep := Channel.Step.take (P := P) hqueue htaken
      simp only [State.channel, Secondary.taken, Secondary.done, hpc] at hstep ⊢
      exact hstep
  | process h hpc hi =>
    right
    have htaken : s.channel.taken = s.secondary.rxPackets[s.secondary.i] ::
        s.secondary.rxPackets.drop (s.secondary.i + 1) := by
      simp only [State.channel, Secondary.taken, hpc]
      exact List.drop_eq_getElem_cons h
    have hdone : s.channel.done = [] := by simp [State.channel, Secondary.done, hpc]
    have hstep := Channel.Step.read (P := P) htaken hdone
    simp only [State.channel, Secondary.taken, Secondary.done, List.drop_eq_getElem_cons h,
      List.map_append] at hstep ⊢
    exact hstep
  | free h hpc hput =>
    right
    have hdone : s.channel.done = [s.secondary.rxPackets[s.secondary.i]] := by
      simp only [State.channel, Secondary.done, hpc, List.drop_eq_getElem_cons h]
      rfl
    have hstep := Channel.Step.giveBack hdone hput
    simp only [State.channel, Secondary.taken, Secondary.done, hpc, hw.next h] at hstep ⊢
    exact hstep
  | done hpc hi =>
    left
    have hnil : s.secondary.rxPackets.drop s.secondary.i = [] := by
      rw [List.drop_eq_nil_iff, ← hw.count]
      omega
    simp [State.channel, Secondary.taken, Secondary.done, hpc, hnil]

end Secondary

/-! ## The invariant of the transfer -/

/-- The channel's invariant and what the steps need of the local variables. -/
structure Inv (P : Mempool ι β ε) (all : Multiset β) (s : State β ε) : Prop where
  channel : Channel.Inv P all s.channel
  secondary : s.secondary.Wf
  written : Written s

theorem inv_start (P : Mempool ι β ε) (e : ε) (mem : β → Mbuf) (serial : β → ℕ) :
    Inv P (P.avail e) (start e mem serial) where
  channel := Channel.inv_empty P e (fun b => (mem b).packet) serial
  secondary := ⟨rfl, Nat.zero_le _, le_rfl, by simp [start]⟩
  written := ⟨by simp [start], by simp [start]⟩

section Steps

variable [DecidableEq β] {P : Mempool ι β ε} {r c : ι} {all : Multiset β} {s t : State β ε}

theorem Inv.of_channel (h : Inv P all s) (hnd : all.Nodup)
    (hstep : t.channel = s.channel ∨ Channel.Step P s.channel t.channel)
    (hsecondary : t.secondary.Wf) (hwritten : Written t) : Inv P all t := by
  refine ⟨?_, hsecondary, hwritten⟩
  rcases hstep with heq | hstep
  · rw [heq]; exact h.channel
  · exact h.channel.step hnd hstep

theorem Inv.primary (h : Inv P all s) (hnd : all.Nodup) (hstep : PrimaryStep P r s t) :
    Inv P all t := by
  apply h.of_channel hnd (primaryStep_channel hstep h.written) ?_
    (primaryStep_written hstep h.written)
  rw [hstep.frame.1]
  exact h.secondary

theorem Inv.secondaryStep (h : Inv P all s) (hnd : all.Nodup) (hstep : SecondaryStep P c s t) :
    Inv P all t := by
  apply h.of_channel hnd (secondaryStep_channel hstep h.secondary)
    (secondaryStep_wf hstep h.secondary)
  obtain ⟨hprimary, hmem, -⟩ := hstep.frame
  constructor
  · rw [hprimary, hmem]; exact h.written.stamped
  · rw [hprimary, hmem]; exact h.written.filled

theorem Inv.step (h : Inv P all s) (hnd : all.Nodup) (hstep : Step P r c s t) : Inv P all t := by
  cases hstep with
  | primary hstep => exact h.primary hnd hstep
  | secondary hstep => exact h.secondaryStep hnd hstep
  | terminatePrimary => exact ⟨h.channel, h.secondary, ⟨h.written.stamped, h.written.filled⟩⟩
  | terminateSecondary _ =>
    have hw := h.secondary
    exact ⟨h.channel, ⟨hw.count, hw.short, hw.inside, hw.freeing⟩,
      ⟨h.written.stamped, h.written.filled⟩⟩

/-- A new secondary starts with nothing in its hands. -/
theorem Inv.relaunchStep (h : Inv P all s) (hnd : all.Nodup) (hstep : RelaunchStep P r c s t) :
    Inv P all t := by
  cases hstep with
  | step hstep => exact h.step hnd hstep
  | relaunch hpc =>
    refine h.of_channel hnd (.inl ?_) ⟨rfl, Nat.zero_le _, le_rfl, by simp [Secondary.launched]⟩
      ⟨h.written.stamped, h.written.filled⟩
    simp [State.channel, Secondary.taken, Secondary.done, Secondary.launched, hpc]

/-- The invariant holds in every run, however often the secondary is started. -/
theorem inv_relaunch (hs : (relaunchSystem P r c).Reachable s) :
    ∃ all : Multiset β, all.Nodup ∧ all.card = poolSize ∧ Inv P all s := by
  apply hs.invariant
  · intro s hinit
    obtain ⟨e, mem, serial, rfl, hnd, hcard⟩ := hinit
    exact ⟨_, hnd, hcard, inv_start P e mem serial⟩
  · intro s t _ hinv hstep
    obtain ⟨all, hnd, hcard, hinv⟩ := hinv
    exact ⟨all, hnd, hcard, hinv.relaunchStep hnd hstep⟩

theorem relaunch_of_system (hs : (system P r c).Reachable s) :
    (relaunchSystem P r c).Reachable s :=
  System.Reachable.mono (S := system P r c) (T := relaunchSystem P r c) (fun _ h => h)
    (fun _ _ h => RelaunchStep.step h) hs

end Steps

/-! ## The comparison of timestamps -/

/-- The timestamp of the last consumed packet, or the initial value 0. -/
def lastConsumed (consumed : List Consumed) : UInt64 :=
  (consumed.getLast?.map fun c => c.packet.timestamp).getD 0

/-- What a single secondary knows of the packets it has consumed. -/
structure Watch (s : State β ε) : Prop where
  fresh : s.secondary.pc = .absent → s.consumed = []
  last : s.secondary.lastTimestamp = lastConsumed s.consumed
  warned : ∀ k c, s.consumed[k]? = some c →
    (c.warned = true ↔ c.packet.timestamp < lastConsumed (s.consumed.take k))

/-- One more packet is compared with the last one. -/
theorem Watch.process {s : State β ε} (h : Watch s) {c : Secondary β} {x : Consumed}
    (hpc : c.pc ≠ .absent) (hlast : c.lastTimestamp = x.packet.timestamp)
    (hwarned : x.warned = decide (x.packet.timestamp < s.secondary.lastTimestamp)) :
    Watch { s with consumed := s.consumed ++ [x], secondary := c } where
  fresh habs := absurd habs hpc
  last := by
    rw [hlast]
    simp [lastConsumed]
  warned k y hy := by
    by_cases hk : k < s.consumed.length
    · rw [List.getElem?_append_left hk] at hy
      rw [List.take_append_of_le_length hk.le]
      exact h.warned k y hy
    · rw [List.getElem?_append_right (by omega)] at hy
      obtain ⟨hlt, hy⟩ := List.getElem?_eq_some_iff.mp hy
      have hk' : k = s.consumed.length := by
        rw [List.length_singleton] at hlt
        omega
      subst hk'
      simp only [Nat.sub_self, List.getElem_cons_zero] at hy
      subst hy
      rw [List.take_left, ← h.last, hwarned, decide_eq_true_iff]

theorem watch_start (e : ε) (mem : β → Mbuf) (serial : β → ℕ) : Watch (start e mem serial) where
  fresh _ := rfl
  last := rfl
  warned := by simp [start]

theorem watch_step [DecidableEq β] {P : Mempool ι β ε} {r c : ι} {s t : State β ε} (h : Watch s)
    (hstep : Step P r c s t) : Watch t := by
  cases hstep with
  | primary hstep =>
    obtain ⟨hsecondary, hconsumed⟩ := hstep.frame
    constructor
    · rw [hsecondary, hconsumed]; exact h.fresh
    · rw [hsecondary, hconsumed]; exact h.last
    · rw [hconsumed]; exact h.warned
  | secondary hstep =>
    cases hstep with
    | launch hpc =>
      refine ⟨by simp [Secondary.launched], ?_, h.warned⟩
      simp [Secondary.launched, h.fresh hpc, lastConsumed]
    | lookup | lookupFailed | exit | enter | dequeueFreed | free | done =>
      exact ⟨by simp, h.last, h.warned⟩
    | dequeue =>
      refine ⟨?_, h.last, h.warned⟩
      simp only
      split_ifs <;> simp
    | process hi hpc _ => exact h.process (by simp) rfl rfl
  | terminatePrimary => exact ⟨h.fresh, h.last, h.warned⟩
  | terminateSecondary _ => exact ⟨h.fresh, h.last, h.warned⟩

/-! ## Delivery -/

/-- The properties of the transfer from the primary to the secondary. -/
structure Delivered (s : State β ε) : Prop where
  /-- The secondary consumes the packets in the order in which they were
      enqueued, each with the timestamp and the bytes written for it. -/
  inOrder : s.consumed.map Consumed.contents <+: s.enqueued.map Enqueued.contents
  /-- No two parties hold the same buffer. -/
  distinct : (s.primary.hand ++ s.secondary.done ++ s.secondary.taken ++ s.ringBuffer.items).Nodup
  /-- Every allocation is in exactly one hand, in the ring or freed, once. -/
  oneOwner : ((s.primary.hand ++ s.secondary.done ++ s.secondary.taken ++
    s.ringBuffer.items).map s.serial ++ s.freed).Perm (List.range s.allocs)
  occupancy : s.enqueued.length =
    s.consumed.length + s.secondary.taken.length + s.ringBuffer.items.length
  bounded : s.ringBuffer.items.length ≤ 511
  /-- The warning is printed exactly when the clock went back between the
      enqueued packet before and this one. -/
  warned : ∀ k c, s.consumed[k]? = some c → (c.warned = true ↔ ∃ j e e', k = j + 1 ∧
    s.enqueued[j]? = some e ∧ s.enqueued[j + 1]? = some e' ∧ e'.reading.Before e.reading)

/-- The `k`-th packet consumed has the timestamp of the `k`-th one enqueued. -/
theorem timestamp_consumed {s : State β ε}
    (h : s.consumed.map Consumed.contents <+: s.enqueued.map Enqueued.contents) {k : ℕ}
    {c : Consumed} (hc : s.consumed[k]? = some c) :
    ∃ e, s.enqueued[k]? = some e ∧ c.packet.timestamp = e.reading.timestamp := by
  obtain ⟨rest, hrest⟩ := h
  obtain ⟨hlt, -⟩ := List.getElem?_eq_some_iff.mp hc
  have hk : (s.enqueued.map Enqueued.contents)[k]? = some c.contents := by
    rw [← hrest, List.getElem?_append_left (by simpa using hlt), List.getElem?_map, hc]
    rfl
  rw [List.getElem?_map, Option.map_eq_some_iff] at hk
  obtain ⟨e, he, hcontents⟩ := hk
  have htimestamp := congrArg (fun x => x.2.timestamp) hcontents
  exact ⟨e, he, htimestamp.symm⟩

theorem lastConsumed_take {consumed : List Consumed} {j : ℕ} {c : Consumed}
    (hc : consumed[j]? = some c) :
    lastConsumed (consumed.take (j + 1)) = c.packet.timestamp := by
  rw [lastConsumed, List.getLast?_take, if_neg (by omega), show j + 1 - 1 = j by omega, hc]
  rfl

/-- The warning compares neighbours in the order of enqueueing. -/
theorem warned_iff {s : State β ε} (hwatch : Watch s)
    (h : s.consumed.map Consumed.contents <+: s.enqueued.map Enqueued.contents) {k : ℕ}
    {c : Consumed} (hc : s.consumed[k]? = some c) :
    c.warned = true ↔ ∃ j e e', k = j + 1 ∧ s.enqueued[j]? = some e ∧
      s.enqueued[j + 1]? = some e' ∧ e'.reading.Before e.reading := by
  rw [hwatch.warned k c hc]
  obtain ⟨e', he', htimestamp'⟩ := timestamp_consumed h hc
  cases k with
  | zero =>
    -- The first packet is compared with the initial value 0.
    refine iff_of_false ?_ ?_
    · rw [List.take_zero]
      exact UInt64.not_lt_zero
    · intro hex
      obtain ⟨j, -, -, hj, -⟩ := hex
      omega
  | succ j =>
    obtain ⟨hlt, -⟩ := List.getElem?_eq_some_iff.mp hc
    have hd : s.consumed[j]? = some s.consumed[j] := List.getElem?_eq_getElem (by omega)
    obtain ⟨e, he, htimestamp⟩ := timestamp_consumed h hd
    rw [lastConsumed_take hd, htimestamp, htimestamp', Timespec.timestamp_lt_iff]
    constructor
    · intro hbefore
      exact ⟨j, e, e', rfl, he, he', hbefore⟩
    · intro hex
      obtain ⟨j', d, d', hj, hprev, hcur, hbefore⟩ := hex
      have hj' : j' = j := by omega
      rw [hj', he] at hprev
      rw [hj', he'] at hcur
      cases hprev
      cases hcur
      exact hbefore

section Delivered

variable [DecidableEq β] {P : Mempool ι β ε} {r c : ι} {s : State β ε}

theorem watch_reachable (hs : (system P r c).Reachable s) : Watch s := by
  apply System.Reachable.invariant (P := Watch) ?_ ?_ hs
  · intro s hinit
    obtain ⟨e, mem, serial, rfl, -, -⟩ := hinit
    exact watch_start e mem serial
  · intro s t _ h hstep
    exact watch_step h hstep

/-- In every reachable state of one primary and one secondary, the packets are
    delivered in order, every allocation has one owner, and the warnings are
    the declines of the primary's clock. -/
theorem packets_delivered (hs : (system P r c).Reachable s) : Delivered s := by
  obtain ⟨all, hnd, -, hinv⟩ := inv_relaunch (relaunch_of_system hs)
  have hprefix := hinv.channel.received_prefix
  have hlength := hinv.channel.length_sent
  simp only [State.channel, List.length_map] at hlength
  exact {
    inOrder := hprefix
    distinct := hinv.channel.nodup_out hnd
    oneOwner := hinv.channel.serials
    occupancy := hlength
    bounded := s.ringBuffer.length_le
    warned := fun k c hc => warned_iff (watch_reachable hs) hprefix hc }

end Delivered

/-! ## One packet -/

/-- The primary enqueues a packet and the secondary consumes it. -/
theorem packets_delivered_one_packet :
    ∃ s : State ℕ (CachedPool (Fin 2) ℕ rteMempoolCacheMaxSize), s.consumed ≠ [] ∧ Delivered s := by
  obtain ⟨s, hrun, -, -, hconsumed, -⟩ := exists_oneFreed
  have hs : (system (memoryBufferPool (Fin 2) ℕ) 0 1).Reachable s :=
    ⟨created, starts_createdPool, hrun⟩
  exact ⟨s, hconsumed, packets_delivered hs⟩

end DpdkTutorials.Multiprocess

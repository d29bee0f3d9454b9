import DpdkTutorials.Dpdk.Mempool

/-!
# Passing owned buffers through a queue

A producer takes buffers out of a pool, fills them and puts them in a queue, or
gives them back unsent. A consumer takes them from the queue, reads them and
gives them back. This is the abstract model of such a channel: who owns which
buffer, and what was sent and received. Every allocation has a serial number,
so that two uses of one buffer are told apart.

* `Inv.step`: ownership, contents and order are preserved by every step.
* `Inv.received_prefix`: what is received is a prefix of what was sent.
-/

namespace DpdkTutorials.Common

open DpdkTutorials.Dpdk

universe u v w x

/-- A channel for buffers `β` with contents `γ` over a pool with state `ε`. -/
structure Channel (β : Type v) (γ : Type x) (ε : Type w) where
  pool : ε
  mem : β → γ
  /-- The serial number of a buffer's last allocation. -/
  serial : β → ℕ
  /-- The number of allocations so far. -/
  allocs : ℕ
  /-- The producer's buffers. -/
  hand : List β
  queue : List β
  /-- The consumer's buffers it has yet to read, and the ones it has read. -/
  taken : List β
  done : List β
  sent : List (ℕ × γ)
  received : List (ℕ × γ)
  /-- The allocations given back. -/
  freed : List ℕ

namespace Channel

variable {ι : Type u} {β : Type v} {γ : Type x} {ε : Type w}

/-- A buffer as the other side gets to see it. -/
def contents (c : Channel β γ ε) (b : β) : ℕ × γ := (c.serial b, c.mem b)

/-- The buffers outside the pool. -/
def out (c : Channel β γ ε) : List β := c.hand ++ c.done ++ c.taken ++ c.queue

/-- The buffers sent and not yet read, oldest first. -/
def unread (c : Channel β γ ε) : List β := c.taken ++ c.queue

/-- One action of the producer or of the consumer. -/
inductive Step [DecidableEq β] (P : Mempool ι β ε) : Channel β γ ε → Channel β γ ε → Prop where
  | alloc {c l b e} (x : γ) : c.hand = [] → P.get l c.pool b e →
      Step P c { c with
        pool := e, hand := [b], allocs := c.allocs + 1
        mem := Function.update c.mem b x, serial := Function.update c.serial b c.allocs }
  | write {c b} (x : γ) : c.hand = [b] → Step P c { c with mem := Function.update c.mem b x }
  | send {c b} : c.hand = [b] →
      Step P c { c with hand := [], queue := c.queue ++ [b], sent := c.sent ++ [c.contents b] }
  | giveUp {c l b e} : c.hand = [b] → P.put l c.pool b e →
      Step P c { c with pool := e, hand := [], freed := c.freed ++ [c.serial b] }
  | take {c b rest} : c.queue = b :: rest → c.taken = [] →
      Step P c { c with queue := rest, taken := [b] }
  | read {c b rest} : c.taken = b :: rest → c.done = [] →
      Step P c { c with taken := rest, done := [b], received := c.received ++ [c.contents b] }
  | giveBack {c l b e} : c.done = [b] → P.put l c.pool b e →
      Step P c { c with pool := e, done := [], freed := c.freed ++ [c.serial b] }

/-- The invariant of a channel over a pool of the buffers `all`. -/
structure Inv (P : Mempool ι β ε) (all : Multiset β) (c : Channel β γ ε) : Prop where
  /-- Every buffer is in the pool or has one owner outside. -/
  owned : P.avail c.pool + ↑c.out = all
  /-- Every allocation belongs to one buffer outside the pool, or is freed. -/
  serials : (c.out.map c.serial ++ c.freed).Perm (List.range c.allocs)
  /-- The unread buffers hold what was sent and not yet received. -/
  flow : c.received ++ c.unread.map c.contents = c.sent

/-- The channel at the start, with the whole pool inside. -/
def empty (e : ε) (mem : β → γ) (serial : β → ℕ) : Channel β γ ε where
  pool := e
  mem := mem
  serial := serial
  allocs := 0
  hand := []
  queue := []
  taken := []
  done := []
  sent := []
  received := []
  freed := []

theorem inv_empty (P : Mempool ι β ε) (e : ε) (mem : β → γ) (serial : β → ℕ) :
    Inv P (P.avail e) (empty e mem serial) where
  owned := by simp [empty, out]
  serials := by simp [empty, out]
  flow := by simp [empty, unread]

section Inv

variable {P : Mempool ι β ε} {all : Multiset β} {c : Channel β γ ε}

theorem Inv.nodup_out (h : Inv P all c) (hnd : all.Nodup) : c.out.Nodup := by
  rw [← h.owned] at hnd
  exact Multiset.coe_nodup.mp (Multiset.nodup_add.mp hnd).2.1

/-- A buffer still in the pool is not outside. -/
theorem Inv.not_mem_out (h : Inv P all c) (hnd : all.Nodup) {b : β} (hb : b ∈ P.avail c.pool) :
    b ∉ c.out := by
  rw [← h.owned] at hnd
  intro hout
  exact Multiset.disjoint_left.mp (Multiset.nodup_add.mp hnd).2.2 hb (Multiset.mem_coe.mpr hout)

theorem mem_out_of_unread {b : β} (hb : b ∈ c.unread) : b ∈ c.out := by
  unfold unread at hb
  unfold out
  rw [List.append_assoc]
  exact List.mem_append_right _ hb

/-- What the producer writes does not reach the unread buffers. -/
theorem Inv.not_mem_unread (h : Inv P all c) (hnd : all.Nodup) {b : β} (hb : c.hand = [b]) :
    b ∉ c.unread := by
  have hout := h.nodup_out hnd
  unfold out at hout
  rw [hb, List.append_assoc, List.append_assoc, List.singleton_append, List.nodup_cons] at hout
  intro hunread
  exact hout.1 (List.mem_append_right _ hunread)

/-- A buffer given back leaves its owner. -/
theorem Inv.of_put (h : Inv P all c) {d : Channel β γ ε} {l : ι} {b : β}
    (hput : P.put l c.pool b d.pool) (hout : c.out.Perm (b :: d.out))
    (hserial : d.serial = c.serial) (hmem : d.mem = c.mem) (hallocs : d.allocs = c.allocs)
    (hfreed : d.freed = c.freed ++ [c.serial b]) (hunread : d.unread = c.unread)
    (hreceived : d.received = c.received) (hsent : d.sent = c.sent) : Inv P all d where
  owned := by
    have howned := h.owned
    rw [Multiset.coe_eq_coe.mpr hout, ← Multiset.cons_coe, Multiset.add_cons] at howned
    rw [P.avail_put hput, Multiset.cons_add, howned]
  serials := by
    have hmap : (c.out.map c.serial).Perm (c.serial b :: d.out.map c.serial) := hout.map c.serial
    rw [hserial, hfreed, hallocs]
    refine List.Perm.trans ?_ h.serials
    refine List.Perm.trans ?_ (hmap.append_right c.freed).symm
    rw [List.cons_append, ← List.append_assoc]
    exact List.perm_append_singleton _ _
  flow := by
    have hcontents : d.contents = c.contents := by
      funext b
      rw [contents, contents, hserial, hmem]
    rw [hreceived, hunread, hcontents, hsent]
    exact h.flow

section Steps

variable [DecidableEq β]

theorem Inv.alloc (h : Inv P all c) (hnd : all.Nodup) {l : ι} {b : β} {e : ε} (x : γ)
    (hhand : c.hand = []) (hget : P.get l c.pool b e) :
    Inv P all { c with
      pool := e, hand := [b], allocs := c.allocs + 1
      mem := Function.update c.mem b x, serial := Function.update c.serial b c.allocs } := by
  have hb : b ∉ c.out := by
    apply h.not_mem_out hnd
    rw [P.avail_get hget]
    exact Multiset.mem_cons_self b _
  have hout : out { c with
      pool := e, hand := [b], allocs := c.allocs + 1
      mem := Function.update c.mem b x, serial := Function.update c.serial b c.allocs } =
      b :: c.out := by
    simp [out, hhand]
  constructor
  · rw [hout, ← Multiset.cons_coe, Multiset.add_cons, ← h.owned, P.avail_get hget,
      Multiset.cons_add]
  · have hmap : c.out.map (Function.update c.serial b c.allocs) = c.out.map c.serial := by
      apply List.map_congr_left
      intro b' hb'
      have hne : b' ≠ b := fun heq => hb (heq ▸ hb')
      exact Function.update_of_ne hne _ _
    rw [hout]
    show ((b :: c.out).map (Function.update c.serial b c.allocs) ++ c.freed).Perm
      (List.range (c.allocs + 1))
    rw [List.map_cons, hmap, Function.update_self, List.range_succ]
    exact (h.serials.cons c.allocs).trans (List.perm_append_singleton _ _).symm
  · rw [← h.flow]
    congr 1
    apply List.map_congr_left
    intro b' hb'
    have hne : b' ≠ b := fun heq => hb (heq ▸ mem_out_of_unread hb')
    simp [contents, Function.update_of_ne hne]

theorem Inv.write (h : Inv P all c) (hnd : all.Nodup) {b : β} (x : γ) (hhand : c.hand = [b]) :
    Inv P all { c with mem := Function.update c.mem b x } := by
  refine ⟨h.owned, h.serials, ?_⟩
  rw [← h.flow]
  congr 1
  apply List.map_congr_left
  intro b' hb'
  have hne : b' ≠ b := fun heq => h.not_mem_unread hnd hhand (heq ▸ hb')
  simp [contents, Function.update_of_ne hne]

omit [DecidableEq β] in
theorem Inv.send (h : Inv P all c) {b : β} (hhand : c.hand = [b]) :
    Inv P all { c with
      hand := [], queue := c.queue ++ [b], sent := c.sent ++ [c.contents b] } := by
  have hout : c.out.Perm (out { c with
      hand := [], queue := c.queue ++ [b], sent := c.sent ++ [c.contents b] }) := by
    unfold out
    rw [hhand, List.nil_append, ← List.append_assoc]
    exact (List.perm_append_singleton b (c.done ++ c.taken ++ c.queue)).symm
  constructor
  · rw [← h.owned, Multiset.coe_eq_coe.mpr hout]
  · exact ((hout.symm.map c.serial).append_right c.freed).trans h.serials
  · show c.received ++ (c.taken ++ (c.queue ++ [b])).map c.contents = c.sent ++ [c.contents b]
    calc c.received ++ (c.taken ++ (c.queue ++ [b])).map c.contents
        = c.received ++ c.unread.map c.contents ++ [c.contents b] := by simp [unread]
      _ = c.sent ++ [c.contents b] := by rw [h.flow]

/-- Every action keeps ownership, contents and order. -/
theorem Inv.step (h : Inv P all c) (hnd : all.Nodup) {d : Channel β γ ε} (hstep : Step P c d) :
    Inv P all d := by
  cases hstep with
  | alloc x hhand hget => exact h.alloc hnd x hhand hget
  | write x hhand => exact h.write hnd x hhand
  | send hhand => exact h.send hhand
  | giveUp hhand hput =>
    exact h.of_put hput (by simp [out, hhand]) rfl rfl rfl rfl rfl rfl rfl
  | take hqueue htaken =>
    refine ⟨?_, ?_, ?_⟩
    · simpa [out, hqueue, htaken] using h.owned
    · simpa [out, hqueue, htaken] using h.serials
    · have hflow := h.flow
      simp only [unread, hqueue, htaken] at hflow
      exact hflow
  | read htaken hdone =>
    refine ⟨?_, ?_, ?_⟩
    · simpa [out, htaken, hdone] using h.owned
    · simpa [out, htaken, hdone] using h.serials
    · have hflow := h.flow
      simp only [unread, htaken] at hflow
      show (c.received ++ [c.contents _]) ++ _ = c.sent
      rw [List.append_assoc]
      exact hflow
  | giveBack hdone hput =>
    refine h.of_put hput ?_ rfl rfl rfl rfl rfl rfl rfl
    simp only [out, hdone, List.append_nil]
    rw [List.append_assoc, List.append_assoc, List.append_assoc]
    exact List.perm_middle

end Steps

/-! ## Consequences -/

/-- What is received is a prefix of what was sent. -/
theorem Inv.received_prefix (h : Inv P all c) : c.received <+: c.sent :=
  ⟨_, h.flow⟩

theorem Inv.length_sent (h : Inv P all c) :
    c.sent.length = c.received.length + c.taken.length + c.queue.length := by
  rw [← h.flow]
  simp [unread]
  omega

end Inv

end Channel

end DpdkTutorials.Common

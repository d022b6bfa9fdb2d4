import RType.Spec.RingBuffer

/-!
# Ring buffers are bounded queues

* `refines`: a ring buffer answers every call as the bounded queue of its capacity does, and
  its indices say where the stored values are.
* `Holds.pop_isSome`, `run_count_le`: a value that is there stays there while nobody pops.
* `fifo`: **first in, first out, with a push refused only when the buffer is full, and
  `processLoop` always has a packet to handle.**
-/

namespace RType

open Lts Fifo

namespace RingBuffer

variable {T : Type*} {Capacity : ℕ}

/-- The buffer holds the values of `q`, the oldest at its tail. -/
structure Holds (b : RingBuffer T Capacity) (q : List T) : Prop where
  count : b.count = q.length
  count_le : b.count ≤ Capacity
  tail_lt : b.tail < Capacity
  head : b.head = (b.tail + b.count) % Capacity
  stored : ∀ i, i < b.count → b.buffer[(b.tail + i) % Capacity]? = q[i]?

theorem holds_new (h : 1 ≤ Capacity) (memory : Vector T Capacity) : (new memory).Holds [] where
  count := rfl
  count_le := Nat.zero_le Capacity
  tail_lt := h
  head := (Nat.zero_mod Capacity).symm
  stored := fun i hi => absurd hi (Nat.not_lt_zero i)

/-- Slots at different distances from the tail are different. -/
theorem slot_ne {tail i j : ℕ} (hi : i < Capacity) (hj : j < Capacity) (hij : i ≠ j) :
    (tail + i) % Capacity ≠ (tail + j) % Capacity := by
  intro he
  have hmod : i % Capacity = j % Capacity := Nat.ModEq.add_left_cancel' tail he
  rw [Nat.mod_eq_of_lt hi, Nat.mod_eq_of_lt hj] at hmod
  exact hij hmod

theorem Holds.push {b : RingBuffer T Capacity} {q : List T} (h : b.Holds q) (x : T) (hfull : b.count ≠ Capacity) :
    (b.push x).2.Holds (q ++ [x]) := by
  have hlt : b.count < Capacity := lt_of_le_of_ne h.count_le hfull
  have hhead : b.head < Capacity := by
    rw [h.head]
    exact Nat.mod_lt _ (by omega)
  rw [RingBuffer.push, if_neg hfull]
  refine ⟨?_, ?_, h.tail_lt, ?_, ?_⟩
  · rw [List.length_append, List.length_singleton, ← h.count]
  · exact hlt
  · rw [h.head, Nat.mod_add_mod, Nat.add_assoc]
  · intro i hi
    dsimp only at hi ⊢
    rw [Vector.getElem?_setIfInBounds]
    by_cases hi' : i = b.count
    · -- the new slot is the one past the others
      subst hi'
      rw [← h.head, if_pos rfl, if_pos hhead, h.count, List.getElem?_concat_length]
    · have hold : i < b.count := by omega
      have hne : b.head ≠ (b.tail + i) % Capacity := by
        rw [h.head]
        exact slot_ne hlt (by omega) (Ne.symm hi')
      rw [if_neg hne, h.stored i hold, List.getElem?_append_left (h.count ▸ hold)]

theorem Holds.pop {b : RingBuffer T Capacity} {q : List T} (h : b.Holds q) :
    b.pop.1 = q.head? ∧ b.pop.2.Holds q.tail := by
  unfold RingBuffer.pop
  split
  · rename_i hzero
    have hq : q = [] := List.length_eq_zero_iff.1 (h.count.symm.trans hzero)
    subst hq
    exact ⟨rfl, h⟩
  · rename_i hpos
    have hfirst : b.buffer[b.tail]? = q.head? := by
      have h0 := h.stored 0 (by omega)
      rw [Nat.add_zero, Nat.mod_eq_of_lt h.tail_lt] at h0
      rw [h0, List.head?_eq_getElem?]
    have hCapacity : 0 < Capacity := Nat.zero_lt_of_lt h.tail_lt
    refine ⟨hfirst, ?_, ?_, Nat.mod_lt _ hCapacity, ?_, ?_⟩
    · rw [List.length_tail, ← h.count]
    · exact (Nat.sub_le _ _).trans h.count_le
    · dsimp only
      rw [h.head, Nat.mod_add_mod, show b.tail + 1 + (b.count - 1) = b.tail + b.count by omega]
    · intro i hi
      dsimp only at hi ⊢
      rw [Nat.mod_add_mod, show b.tail + 1 + i = b.tail + (i + 1) by omega, h.stored (i + 1) (by omega),
        List.getElem?_tail]

/-- **A ring buffer answers as the bounded queue.** -/
theorem refines : (object : Object (RingBuffer T Capacity) T).Refines (bounded Capacity) Holds := by
  intro b q op h
  have hfull : (b.count = Capacity) = (q.length = Capacity) := by rw [h.count]
  cases op with
  | push x =>
    by_cases hc : b.count = Capacity
    · have hq : q.length = Capacity := hfull ▸ hc
      have hpush : b.push x = (false, b) := if_pos hc
      simp only [object, bounded, hpush, hq, if_true]
      exact ⟨trivial, h⟩
    · have hq : ¬ q.length = Capacity := hfull ▸ hc
      have hpush : (b.push x).1 = true := by rw [push, if_neg hc]
      simp only [object, bounded, hpush, hq, if_false]
      exact ⟨trivial, h.push x hc⟩
  | pop =>
    obtain ⟨hanswer, hnext⟩ := h.pop
    simp only [object, bounded, hanswer]
    exact ⟨trivial, hnext⟩
  | isEmpty =>
    have hempty : b.isEmpty = q.isEmpty := by
      rw [isEmpty, h.count]
      cases q <;> simp
    exact ⟨by rw [object, bounded]; simp only [hempty], h⟩
  | isFull =>
    have hfull' : b.isFull = decide (q.length = Capacity) := by rw [isFull, h.count]
    exact ⟨by rw [object, bounded]; simp only [hfull'], h⟩
  | count => exact ⟨by rw [object, bounded]; simp only [h.count], h⟩

/-- A value that is stored can be popped. -/
theorem Holds.pop_isSome {b : RingBuffer T Capacity} {q : List T} (h : b.Holds q) (hpos : b.count ≠ 0) :
    ∃ x, b.pop.1 = some x := by
  have hq : q ≠ [] := fun hq => hpos (by rw [h.count, hq, List.length_nil])
  rw [h.pop.1]
  exact ⟨q.head hq, List.head?_eq_some_head hq⟩

/-- While nobody pops, nothing is taken out. -/
theorem run_count_le (ops : List (Op T)) (hops : ∀ op ∈ ops, op ≠ .pop) (b : RingBuffer T Capacity) :
    b.count ≤ ((object.run b ops).2).count := by
  induction ops generalizing b with
  | nil => exact Nat.le_refl _
  | cons op ops ih =>
    have hrest := ih (fun op hop => hops op (List.mem_cons_of_mem _ hop)) (object.call b op).2
    have hone : b.count ≤ (object.call b op).2.count := by
      cases op with
      | push x =>
        simp only [object, push]
        split
        · exact Nat.le_refl _
        · exact Nat.le_succ _
      | pop => exact absurd rfl (hops .pop List.mem_cons_self)
      | isEmpty | isFull | count => exact Nat.le_refl _
    exact hone.trans hrest

end RingBuffer

/-! ## The loops -/

namespace UDPServer

/-- `processLoop` pops only a buffer that it saw filled, and nobody else pops it. -/
structure Fed (s : UDPServer) : Prop where
  holds : ∃ q, s.incoming.Holds q
  popping : s.processLoop = .pop → s.incoming.count ≠ 0
  handling : s.processLoop ≠ .handle none

theorem fed_start (incoming outgoing : Vector Packet 1024) : (start incoming outgoing).Fed where
  holds := ⟨[], RingBuffer.holds_new (by decide) incoming⟩
  popping := fun h => nomatch h
  handling := fun h => nomatch h

/-- What leaves `_incoming` and `processLoop` alone. -/
theorem Fed.of_eq {s s' : UDPServer} (h : s.Fed) (hi : s'.incoming = s.incoming)
    (hp : s'.processLoop = s.processLoop) :
    s'.Fed := by
  refine ⟨?_, ?_, ?_⟩
  · rw [hi]
    exact h.holds
  · rw [hi, hp]
    exact h.popping
  · rw [hp]
    exact h.handling

theorem fed_recv {s s' : UDPServer} {received : Option Packet} (h : s.Fed) (hs : s.stepRecv received = some s') :
    s'.Fed := by
  unfold stepRecv at hs
  split at hs
  · exact h.of_eq (Option.some.inj hs ▸ rfl) (Option.some.inj hs ▸ rfl)
  · split at hs
    · split at hs <;> exact h.of_eq (Option.some.inj hs ▸ rfl) (Option.some.inj hs ▸ rfl)
    · exact h.of_eq (Option.some.inj hs ▸ rfl) (Option.some.inj hs ▸ rfl)
  · rename_i pkt _
    obtain rfl := Option.some.inj hs
    obtain ⟨q, hq⟩ := h.holds
    -- a packet too many is dropped, any other fills the buffer further
    by_cases hfull : s.incoming.count = 1024
    · have hpush : s.incoming.push pkt = (false, s.incoming) := if_pos hfull
      refine ⟨⟨q, ?_⟩, ?_, h.handling⟩
      · rw [hpush]
        exact hq
      · rw [hpush]
        exact h.popping
    · refine ⟨⟨q ++ [pkt], hq.push pkt hfull⟩, fun _ => ?_, h.handling⟩
      rw [RingBuffer.push, if_neg hfull]
      exact Nat.succ_ne_zero _
  · cases hs

theorem fed_send {s s' : UDPServer} (h : s.Fed) (hs : s.stepSend = some s') : s'.Fed := by
  unfold stepSend at hs
  split at hs
  · exact h.of_eq (Option.some.inj hs ▸ rfl) (Option.some.inj hs ▸ rfl)
  · exact h.of_eq (Option.some.inj hs ▸ rfl) (Option.some.inj hs ▸ rfl)
  · exact h.of_eq (Option.some.inj hs ▸ rfl) (Option.some.inj hs ▸ rfl)
  · exact h.of_eq (Option.some.inj hs ▸ rfl) (Option.some.inj hs ▸ rfl)
  · exact h.of_eq (Option.some.inj hs ▸ rfl) (Option.some.inj hs ▸ rfl)
  · cases hs

theorem fed_process {s s' : UDPServer} (h : s.Fed) (hs : s.stepProcess = some s') : s'.Fed := by
  obtain ⟨q, hq⟩ := h.holds
  unfold stepProcess at hs
  split at hs
  · obtain rfl := Option.some.inj hs
    refine ⟨⟨q, hq⟩, fun hp => ?_, fun hp => ?_⟩ <;> (dsimp only at hp; split at hp <;> cases hp)
  · obtain rfl := Option.some.inj hs
    refine ⟨⟨q, hq⟩, fun hp hzero => ?_, fun hp => ?_⟩
    · have hempty : s.incoming.isEmpty = true := decide_eq_true hzero
      simp only [hempty, if_true] at hp
      cases hp
    · dsimp only at hp
      split at hp <;> cases hp
  · rename_i hpc
    obtain rfl := Option.some.inj hs
    obtain ⟨pkt, hpkt⟩ := hq.pop_isSome (h.popping hpc)
    refine ⟨⟨q.tail, hq.pop.2⟩, fun hp => (nomatch hp), ?_⟩
    rw [hpkt]
    exact fun hp => nomatch hp
  · cases hs
  · obtain rfl := Option.some.inj hs
    exact ⟨⟨q, hq⟩, fun hp => (nomatch hp), fun hp => nomatch hp⟩
  · cases hs

/-- **Every step feeds `processLoop`.** -/
theorem fed_step (s : UDPServer) (l : Label) (s' : UDPServer) (h : s.Fed) (hs : machine.step s l = some s') :
    s'.Fed := by
  cases l with
  | recv received => exact fed_recv h hs
  | send => exact fed_send h hs
  | process => exact fed_process h hs
  | queueMessage pkt => exact h.of_eq (Option.some.inj hs ▸ rfl) (Option.some.inj hs ▸ rfl)
  | stop => exact h.of_eq (Option.some.inj hs ▸ rfl) (Option.some.inj hs ▸ rfl)

end UDPServer

namespace RingBuffer

/-- **Ring buffers are first in, first out.** For calls in any order by any number of
threads: the answers are those of the bounded queue, the popped values are a prefix of the
accepted ones, a push is refused exactly when the buffer holds `Capacity` accepted values,
and the indices agree with the count. Once a sole consumer saw the buffer filled its next
pop gives a value, so `processLoop` has a packet whenever it dereferences one. -/
theorem fifo {T : Type*} {Capacity : ℕ} (h : 1 ≤ Capacity) (memory : Vector T Capacity) (ops : List (Op T)) :
    let history := (object.run (new memory) ops).1
    let b := (object.run (new memory) ops).2
    history = ((bounded Capacity).run [] ops).1 ∧
    popped history <+: accepted history ∧
    (∀ x, (b.push x).1 = false ↔ (accepted history).length = (popped history).length + Capacity) ∧
    b.head = (b.tail + b.count) % Capacity ∧ b.count ≤ Capacity ∧
    (b.isEmpty = false → ∀ others : List (Op T), (∀ op ∈ others, op ≠ .pop) →
      ∃ x, (object.run b others).2.pop.1 = some x) ∧
    ∀ incoming outgoing labels s, UDPServer.machine.run (.start incoming outgoing) labels = some s →
      s.processLoop ≠ .handle none := by
  intro history b
  obtain ⟨hsame, hholds⟩ := refines.run ops (new memory) [] (holds_new h memory)
  refine ⟨hsame, ?_, fun x => ?_, hholds.head, hholds.count_le, fun hempty others hothers => ?_,
    fun incoming outgoing labels s hs => ?_⟩
  · rw [show history = _ from hsame]
    exact Bounded.popped_prefix Capacity ops
  · obtain ⟨hanswer, -⟩ := refines b _ (.push x) hholds
    have hrefused := Bounded.refused_iff Capacity ops x
    rw [← hanswer, ← hsame] at hrefused
    rw [← hrefused]
    exact ⟨fun hp => congrArg Answer.pushed hp, fun hp => Answer.pushed.inj hp⟩
  · have hpos : b.count ≠ 0 := fun hzero => by
      rw [isEmpty, hzero] at hempty
      cases hempty
    have hle := run_count_le others hothers b
    obtain ⟨-, hlater⟩ := refines.run others b _ hholds
    exact hlater.pop_isSome (by omega)
  · exact (Machine.inv_run UDPServer.fed_step labels _ s (UDPServer.fed_start incoming outgoing) hs).handling

/-- Two pushes and a pop around the end of a buffer of two. -/
theorem fifo_two : ∃ memory : Vector ℕ 2,
    popped (object.run (new memory) [.push 1, .push 2, .push 3, .pop, .push 4]).1 <+:
      accepted (object.run (new memory) [.push 1, .push 2, .push 3, .pop, .push 4]).1 := by
  refine ⟨#v[0, 0], ?_⟩
  exact (fifo (by decide) #v[0, 0] [.push 1, .push 2, .push 3, .pop, .push 4]).2.1

end RingBuffer

end RType

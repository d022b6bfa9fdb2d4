import Mathlib.Data.List.Basic

/-!
# Bounded queues

A queue object answers calls one at a time. Its history lists the calls with their answers;
calls of any number of producers and consumers make one history, in the order in which they
took effect.

* `Object.Refines.run`: an object that answers step by step as another does has its histories.
* `Bounded.conserves`: what was accepted is what was popped, then what is stored.
* `Bounded.popped_prefix`, `Bounded.refused_iff`: first in, first out, and when a push is
  refused.
-/

namespace Fifo

variable {α σ τ : Type*}

/-- A call. -/
inductive Op (α : Type*)
  | push (x : α)
  | pop
  | isEmpty
  | isFull
  | count

/-- What a call returns. -/
inductive Answer (α : Type*)
  | pushed (accepted : Bool)
  | popped (x : Option α)
  | test (b : Bool)
  | size (n : ℕ)

/-- An object with the calls of a queue. -/
structure Object (σ α : Type*) where
  call : σ → Op α → Answer α × σ

/-- Calls and their answers, oldest first. -/
abbrev History (α : Type*) := List (Op α × Answer α)

/-- The value a call put into the queue. -/
def accepts : Op α × Answer α → Option α
  | (.push x, .pushed true) => some x
  | _ => none

/-- The value a call took out of the queue. -/
def pops : Op α × Answer α → Option α
  | (.pop, .popped x) => x
  | _ => none

/-- The values whose push returned true, in order. -/
def accepted (h : History α) : List α := h.filterMap accepts

/-- The values that were popped, in order. -/
def popped (h : History α) : List α := h.filterMap pops

namespace Object

variable (o : Object σ α)

/-- The history of some calls, and the state after them. -/
def run : σ → List (Op α) → History α × σ
  | s, [] => ([], s)
  | s, op :: ops =>
    let (a, s') := o.call s op
    let (h, t) := run s' ops
    ((op, a) :: h, t)

theorem run_cons (s : σ) (op : Op α) (ops : List (Op α)) :
    o.run s (op :: ops) =
      ((op, (o.call s op).1) :: (o.run (o.call s op).2 ops).1, (o.run (o.call s op).2 ops).2) := rfl

/-- What each call keeps, every run keeps. -/
theorem run_rule {I : σ → Prop} (h : ∀ s op, I s → I (o.call s op).2) (ops : List (Op α)) (s : σ) (hs : I s) :
    I (o.run s ops).2 := by
  induction ops generalizing s with
  | nil => exact hs
  | cons op ops ih =>
    rw [run_cons]
    exact ih _ (h s op hs)

/-- `o` answers as `o'` does, from related states. -/
def Refines (o : Object σ α) (o' : Object τ α) (R : σ → τ → Prop) : Prop :=
  ∀ s t op, R s t → (o.call s op).1 = (o'.call t op).1 ∧ R (o.call s op).2 (o'.call t op).2

/-- **Refinement of whole runs.** -/
theorem Refines.run {o : Object σ α} {o' : Object τ α} {R : σ → τ → Prop} (h : o.Refines o' R) (ops : List (Op α))
    (s : σ) (t : τ) (hs : R s t) : (o.run s ops).1 = (o'.run t ops).1 ∧ R (o.run s ops).2 (o'.run t ops).2 := by
  induction ops generalizing s t with
  | nil => exact ⟨rfl, hs⟩
  | cons op ops ih =>
    obtain ⟨hanswer, hnext⟩ := h s t op hs
    obtain ⟨hhistory, hlast⟩ := ih _ _ hnext
    rw [run_cons, run_cons]
    exact ⟨by rw [hanswer, hhistory], hlast⟩

end Object

/-! ## The bounded queue -/

/-- The queue of capacity `cap`: the stored values, oldest first. -/
def bounded (cap : ℕ) : Object (List α) α where
  call
    | q, .push x => if q.length = cap then (.pushed false, q) else (.pushed true, q ++ [x])
    | q, .pop => (.popped q.head?, q.tail)
    | q, .isEmpty => (.test q.isEmpty, q)
    | q, .isFull => (.test (q.length = cap), q)
    | q, .count => (.size q.length, q)

namespace Bounded

variable (cap : ℕ)

theorem call_push (q : List α) (x : α) :
    (bounded cap).call q (.push x) = if q.length = cap then (.pushed false, q) else (.pushed true, q ++ [x]) := rfl

/-- One call: what it accepts goes in at the end, what it pops comes out at the front. -/
theorem call_conserves (q : List α) (op : Op α) :
    q ++ accepted [(op, ((bounded cap).call q op).1)] =
      popped [(op, ((bounded cap).call q op).1)] ++ ((bounded cap).call q op).2 := by
  cases op with
  | push x =>
    rw [call_push]
    split
    · exact List.append_nil q
    · rfl
  | pop =>
    cases q with
    | nil => rfl
    | cons y q => exact List.append_nil (y :: q)
  | isEmpty | isFull | count => exact List.append_nil q

/-- **Nothing is lost, doubled or reordered.** -/
theorem conserves (ops : List (Op α)) (q : List α) :
    q ++ accepted ((bounded cap).run q ops).1 = popped ((bounded cap).run q ops).1 ++ ((bounded cap).run q ops).2 := by
  induction ops generalizing q with
  | nil => exact List.append_nil q
  | cons op ops ih =>
    have hone := call_conserves cap q op
    rw [Object.run_cons]
    have hsplit : ∀ (f : Op α × Answer α → Option α) x (h : History α),
        (x :: h).filterMap f = [x].filterMap f ++ h.filterMap f := fun f x h => List.filterMap_append (l := [x])
    rw [accepted, popped, hsplit accepts, hsplit pops, ← List.append_assoc]
    rw [accepted, popped] at hone
    rw [hone, List.append_assoc, List.append_assoc]
    exact congrArg _ (ih _)

/-- A queue never holds more than its capacity. -/
theorem length_le (ops : List (Op α)) {q : List α} (hq : q.length ≤ cap) :
    ((bounded cap).run q ops).2.length ≤ cap := by
  refine (bounded cap).run_rule (I := fun q => q.length ≤ cap) ?_ ops q hq
  intro q op hq
  cases op with
  | push x =>
    by_cases hfull : q.length = cap
    · simp [bounded, hfull]
    · simp only [bounded, hfull, if_false, List.length_append, List.length_singleton]
      omega
  | pop =>
    simp only [bounded, List.length_tail]
    omega
  | isEmpty | isFull | count => exact hq

/-- **First in, first out.** -/
theorem popped_prefix (ops : List (Op α)) :
    popped ((bounded cap).run [] ops).1 <+: accepted ((bounded cap).run [] ops).1 := by
  have h := conserves cap ops []
  rw [List.nil_append] at h
  rw [h]
  exact List.prefix_append _ _

/-- **A push is refused exactly when `cap` accepted values are still stored.** -/
theorem refused_iff (ops : List (Op α)) (x : α) :
    ((bounded cap).call ((bounded cap).run [] ops).2 (.push x)).1 = .pushed false ↔
      (accepted ((bounded cap).run [] ops).1).length = (popped ((bounded cap).run [] ops).1).length + cap := by
  have h := congrArg List.length (conserves cap ops [])
  rw [List.nil_append, List.length_append] at h
  rw [call_push]
  split
  · rename_i hfull
    exact ⟨fun _ => by rw [h, hfull], fun _ => rfl⟩
  · rename_i hfull
    refine ⟨fun he => by simp at he, fun hc => absurd ?_ hfull⟩
    exact Nat.add_left_cancel (h.symm.trans hc)

end Bounded

end Fifo

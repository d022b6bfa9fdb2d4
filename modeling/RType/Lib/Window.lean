import Mathlib.Data.List.Basic
import Mathlib.Order.Basic

/-!
# Sliding windows

Items that carry a time are pushed at the back of a queue in the order of their times, and
those before a cutoff are dropped from its front. `log` is all that was ever pushed.

* `dropWhile_eq_filter`: on an ordered list, dropping from the front is filtering.
* `Holds`: the queue holds the items of the log from the cutoff on; pushing
  (`Holds.push`) and pruning (`Holds.prune`) keep it so.
-/

namespace Sliding

variable {α : Type*}

/-- Dropping from the front is filtering, where an item that is dropped has only such items
before it. -/
theorem dropWhile_eq_filter {P : α → Bool} {l : List α} (h : l.Pairwise fun a b => P b = true → P a = true) :
    l.dropWhile P = l.filter fun a => !P a := by
  induction l with
  | nil => rfl
  | cons a l ih =>
    obtain ⟨ha, hl⟩ := List.pairwise_cons.1 h
    by_cases hP : P a = true
    · rw [List.dropWhile_cons_of_pos hP, List.filter_cons_of_neg (by simp [hP]), ih hl]
    · -- nothing after the first kept item is dropped
      have hall : ∀ b ∈ l, (!P b) = true := by
        intro b hb
        have hPb : ¬P b = true := fun hb' => hP (ha b hb hb')
        simpa using hPb
      rw [List.dropWhile_cons_of_neg hP, List.filter_cons_of_pos (by simpa using hP), List.filter_eq_self.2 hall]

variable (time : α → ℕ)

/-- The queue holds what was pushed from the cutoff on. -/
structure Holds (log queue : List α) (cutoff now : ℕ) : Prop where
  sorted : log.Pairwise fun a b => time a ≤ time b
  past : ∀ a ∈ log, time a ≤ now
  queue : queue = log.filter fun a => cutoff ≤ time a

variable {time} {log queue new : List α} {cutoff now : ℕ}

theorem Holds.start (cutoff now : ℕ) : Holds time [] [] cutoff now := by
  refine ⟨List.Pairwise.nil, ?_, rfl⟩
  intro a ha
  cases ha

/-- Time passes. -/
theorem Holds.wait (h : Holds time log queue cutoff now) {later : ℕ} (hle : now ≤ later) :
    Holds time log queue cutoff later :=
  ⟨h.sorted, fun a ha => Nat.le_trans (h.past a ha) hle, h.queue⟩

/-- Items of the present are pushed. -/
theorem Holds.push (h : Holds time log queue cutoff now) (hcut : cutoff ≤ now) (hnew : ∀ a ∈ new, time a = now) :
    Holds time (log ++ new) (queue ++ new) cutoff now := by
  refine ⟨?_, ?_, ?_⟩
  · refine List.pairwise_append.2 ⟨h.sorted, ?_, fun a ha b hb => ?_⟩
    · refine List.pairwise_of_forall_mem_list fun a ha b hb => ?_
      exact Nat.le_of_eq ((hnew a ha).trans (hnew b hb).symm)
    · rw [hnew b hb]
      exact h.past a ha
  · intro a ha
    rcases List.mem_append.1 ha with hlog | hin
    · exact h.past a hlog
    · exact Nat.le_of_eq (hnew a hin)
  · have hkept : new.filter (fun a => cutoff ≤ time a) = new := by
      refine List.filter_eq_self.2 fun a ha => ?_
      have := hnew a ha
      simp only [decide_eq_true_eq]
      omega
    rw [List.filter_append, hkept, ← h.queue]

/-- The front is pruned to a later cutoff. -/
theorem Holds.prune (h : Holds time log queue cutoff now) {later : ℕ} (hle : cutoff ≤ later) :
    Holds time log (queue.dropWhile fun a => time a < later) later now := by
  refine ⟨h.sorted, h.past, ?_⟩
  have hsorted : queue.Pairwise fun a b => decide (time b < later) = true → decide (time a < later) = true := by
    rw [h.queue]
    refine (h.sorted.filter _).imp fun {a b} hab hb => ?_
    simp only [decide_eq_true_eq] at hb ⊢
    omega
  rw [dropWhile_eq_filter hsorted, h.queue, List.filter_filter]
  refine List.filter_congr fun a _ => ?_
  by_cases ha : time a < later
  · simp [ha, Nat.not_le.2 ha]
  · have hc : cutoff ≤ time a := by omega
    simp [ha, hc, Nat.le_of_not_lt ha]

end Sliding

import Mathlib.Data.List.Basic
import Mathlib.Order.Interval.Finset.Nat

/-!
# Counting numbered packets

A receiver of numbered packets keeps the highest number so far, how many packets raised
it, and how many numbers were skipped each time it was raised. Packets that come late or
again change nothing.

* `Tally.isGreatest`: the highest number is the greatest of those that arrived.
* `Tally.balance`: raising and skipping together make up the interval from the first
  number to the highest.
* `Tally.lost_of_inOrder`: while packets come in order, what was skipped is what is
  missing.
-/

namespace Numbered

/-- The counts of a receiver since its first packet. -/
structure Tally where
  first : ℕ
  last : ℕ
  received : ℕ
  lost : ℕ
  le : first ≤ last
  balance : received + lost = last - first + 1

namespace Tally

/-- The first packet. -/
def start (n : ℕ) : Tally := ⟨n, n, 1, 0, le_rfl, by omega⟩

/-- A further packet. -/
def record (t : Tally) (n : ℕ) : Tally :=
  if h : t.last < n then
    ⟨t.first, n, t.received + 1, t.lost + (n - t.last - 1), t.le.trans h.le, by
      have hb := t.balance
      have hle := t.le
      omega⟩
  else t

/-- All packets, the first of them given apart. -/
def of (first : ℕ) (rest : List ℕ) : Tally := rest.foldl record (start first)

/-- What is known after some packets, if any. -/
def upTo : List ℕ → Option Tally
  | [] => none
  | first :: rest => some (of first rest)

/-- What is known after one more. -/
def next (t : Option Tally) (n : ℕ) : Tally := t.elim (start n) (·.record n)

variable {t : Tally} {n first : ℕ} {rest : List ℕ}

theorem record_of_lt (h : t.last < n) :
    (t.record n).last = n ∧ (t.record n).received = t.received + 1 ∧
      (t.record n).lost = t.lost + (n - t.last - 1) := by
  rw [record, dif_pos h]
  exact ⟨rfl, rfl, rfl⟩

/-- A packet that comes late or again. -/
theorem record_of_le (h : n ≤ t.last) : t.record n = t := by
  rw [record, dif_neg (Nat.not_lt.2 h)]

theorem record_first : (t.record n).first = t.first := by
  unfold record
  split <;> rfl

theorem record_last : (t.record n).last = max t.last n := by
  rcases Nat.lt_or_ge t.last n with h | h
  · rw [(record_of_lt h).1, max_eq_right h.le]
  · rw [record_of_le h, max_eq_left h]

theorem of_snoc : of first (rest ++ [n]) = (of first rest).record n := by
  rw [of, List.foldl_append]
  rfl

theorem upTo_snoc (ns : List ℕ) : upTo (ns ++ [n]) = some (next (upTo ns) n) := by
  cases ns with
  | nil => rfl
  | cons first rest => exact congrArg some of_snoc

theorem of_first : (of first rest).first = first := by
  induction rest using List.reverseRecOn with
  | nil => rfl
  | append_singleton rest n ih => rw [of_snoc, record_first, ih]

/-- **The highest number is the greatest of all that arrived.** -/
theorem isGreatest : IsGreatest {n | n ∈ first :: rest} (of first rest).last := by
  induction rest using List.reverseRecOn with
  | nil => simp [of, start, IsGreatest, upperBounds]
  | append_singleton rest n ih =>
    have hset : {m | m ∈ first :: (rest ++ [n])} = insert n {m | m ∈ first :: rest} := by
      ext m
      simp only [List.mem_cons, List.mem_append, List.not_mem_nil, or_false, Set.mem_ofPred_eq, Set.mem_insert_iff]
      tauto
    rw [of_snoc, record_last, hset, max_comm]
    exact ih.insert n

/-- In order, each number is counted once. -/
theorem received_of_inOrder (h : (first :: rest).Pairwise (· ≤ ·)) :
    (of first rest).received = (first :: rest).toFinset.card := by
  induction rest using List.reverseRecOn with
  | nil => rfl
  | append_singleton rest n ih =>
    rw [← List.cons_append] at h
    obtain ⟨hrest, -, hn⟩ := List.pairwise_append.1 h
    have hlast : (of first rest).last ∈ first :: rest := isGreatest.1
    have hset : (first :: (rest ++ [n])).toFinset = insert n (first :: rest).toFinset := by
      ext m
      simp only [List.mem_toFinset, List.mem_cons, List.mem_append, List.not_mem_nil, or_false, Finset.mem_insert]
      tauto
    rw [of_snoc, hset]
    rcases Nat.lt_or_ge (of first rest).last n with hlt | hge
    · -- the number is new: it is above all that arrived
      have hnew : n ∉ (first :: rest).toFinset := fun hm =>
        absurd (isGreatest.2 (List.mem_toFinset.1 hm)) (Nat.not_le.2 hlt)
      rw [(record_of_lt hlt).2.1, Finset.card_insert_of_notMem hnew, ih hrest]
    · -- it is the highest one again
      have hold : n ∈ (first :: rest).toFinset := by
        rw [List.mem_toFinset, hge.antisymm (hn _ hlast n List.mem_cons_self)]
        exact hlast
      rw [record_of_le hge, Finset.insert_eq_of_mem hold, ih hrest]

/-- **In order, the skipped numbers are the missing ones.** -/
theorem lost_of_inOrder (h : (first :: rest).Pairwise (· ≤ ·)) :
    (of first rest).lost = (Finset.Icc first (of first rest).last \ (first :: rest).toFinset).card := by
  have hsub : (first :: rest).toFinset ⊆ Finset.Icc first (of first rest).last := by
    intro n hn
    rw [List.mem_toFinset] at hn
    refine Finset.mem_Icc.2 ⟨?_, isGreatest.2 hn⟩
    rcases List.mem_cons.1 hn with rfl | hn
    · exact le_rfl
    · exact List.rel_of_pairwise_cons h hn
  have hb := (of first rest).balance
  have hle := (of first rest).le
  rw [of_first] at hb hle
  rw [Finset.card_sdiff_of_subset hsub, ← received_of_inOrder h, Nat.card_Icc]
  omega

/-- **Numbers one after the other**: all are counted, none is lost. -/
theorem of_consecutive (first m : ℕ) :
    (of first (List.range' (first + 1) m)).received = m + 1 ∧ (of first (List.range' (first + 1) m)).lost = 0 ∧
      (of first (List.range' (first + 1) m)).last = first + m := by
  induction m with
  | zero => exact ⟨rfl, rfl, rfl⟩
  | succ m ih =>
    obtain ⟨hreceived, hlost, hlast⟩ := ih
    rw [List.range'_concat, Nat.one_mul, of_snoc]
    obtain ⟨h1, h2, h3⟩ := record_of_lt (t := of first (List.range' (first + 1) m)) (n := first + 1 + m) (by omega)
    exact ⟨by rw [h2, hreceived], by rw [h3, hlost, hlast]; omega, by rw [h1]; omega⟩

end Tally

end Numbered

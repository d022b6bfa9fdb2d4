import Mathlib.Data.List.TakeWhile

/-!
# Reading line by line

A `Source` is read from the front, and remembers that its end was met. `getline` takes what
comes before the next delimiter, and the delimiter; it fails where nothing is left.

* `getline_append`, `getline_last`: what it takes of a line that ends, and of the last one.
* `lines_written`: lines that are written with a delimiter after each are read back.
* `not_mem_of_mem_lines`: whatever is read, no line has the delimiter in it.
-/

namespace Lines

variable {α : Type*} [DecidableEq α]

/-- What is left to read, and whether the end was met. -/
structure Source (α : Type*) where
  unread : List α
  eof : Bool

/-- Read up to the next delimiter, or up to the end. -/
def getline (delim : α) (s : Source α) : Option (List α × Source α) :=
  if s.eof = true ∨ s.unread = [] then none
  else match s.unread.dropWhile (· ≠ delim) with
    | [] => some (s.unread, ⟨[], true⟩)
    | _ :: rest => some (s.unread.takeWhile (· ≠ delim), ⟨rest, false⟩)

variable {delim : α} {s s' : Source α} {line : List α}

omit [DecidableEq α] in
theorem forall_ne_of_not_mem [DecidableEq α] (h : delim ∉ line) : ∀ a ∈ line, decide (a ≠ delim) = true := by
  intro a ha
  refine decide_eq_true ?_
  rintro rfl
  exact h ha

/-- A line that ends is taken with its delimiter. -/
theorem getline_append (h : delim ∉ line) (rest : List α) :
    getline delim ⟨line ++ delim :: rest, false⟩ = some (line, ⟨rest, false⟩) := by
  have hall := forall_ne_of_not_mem h
  have hleft : (line ++ delim :: rest).dropWhile (· ≠ delim) = delim :: rest := by
    rw [List.dropWhile_append_of_pos hall, List.dropWhile_cons_of_neg (by simp)]
  have htaken : (line ++ delim :: rest).takeWhile (· ≠ delim) = line := by
    rw [List.takeWhile_append_of_pos hall, List.takeWhile_cons_of_neg (by simp), List.append_nil]
  have hsome : ¬((false : Bool) = true ∨ line ++ delim :: rest = []) := by simp
  simp only [getline, if_neg hsome, hleft, htaken]

/-- The last line may end without a delimiter. -/
theorem getline_last (h : delim ∉ line) (hne : line ≠ []) :
    getline delim ⟨line, false⟩ = some (line, ⟨[], true⟩) := by
  have hleft : line.dropWhile (· ≠ delim) = [] := List.dropWhile_eq_nil_iff.2 (forall_ne_of_not_mem h)
  have hsome : ¬((false : Bool) = true ∨ line = []) := by simp [hne]
  simp only [getline, if_neg hsome, hleft]

theorem getline_eq_none_of_nil (eof : Bool) : getline delim ⟨[], eof⟩ = none := if_pos (.inr rfl)

/-- What `getline` reads: a line without the delimiter, from the front of what is left. -/
theorem getline_spec (h : getline delim s = some (line, s')) :
    delim ∉ line ∧ line <+: s.unread ∧ s'.unread.length < s.unread.length := by
  unfold getline at h
  split at h
  · cases h
  · rename_i hsome
    have hpos : 0 < s.unread.length := List.length_pos_iff.2 fun he => hsome (.inr he)
    split at h
    · rename_i hleft
      obtain ⟨rfl, rfl⟩ := Prod.mk.inj (Option.some.inj h)
      have hall := List.dropWhile_eq_nil_iff.1 hleft
      refine ⟨fun hmem => ?_, List.prefix_rfl, hpos⟩
      simpa using hall delim hmem
    · rename_i d rest hleft
      obtain ⟨rfl, rfl⟩ := Prod.mk.inj (Option.some.inj h)
      refine ⟨fun hmem => ?_, List.takeWhile_prefix _, ?_⟩
      · simpa using List.mem_takeWhile_imp hmem
      · have hlen := (List.dropWhile_suffix (l := s.unread) (fun a => decide (a ≠ delim))).length_le
        rw [hleft, List.length_cons] at hlen
        exact hlen

/-- The lines of a source, as a loop over `getline` reads them. -/
def lines (delim : α) (s : Source α) : List (List α) :=
  match _h : getline delim s with
  | none => []
  | some (line, s') => line :: lines delim s'
termination_by s.unread.length
decreasing_by exact (getline_spec _h).2.2

theorem lines_of_none (h : getline delim s = none) : lines delim s = [] := by
  rw [lines]
  split
  · rfl
  · rename_i line s' h'
    rw [h] at h'
    cases h'

theorem lines_of_some (h : getline delim s = some (line, s')) : lines delim s = line :: lines delim s' := by
  rw [lines]
  split
  · rename_i h'
    rw [h] at h'
    cases h'
  · rename_i line₁ s₁ h'
    obtain ⟨rfl, rfl⟩ := Prod.mk.inj (Option.some.inj (h.symm.trans h'))
    rfl

/-- **Lines that are written are read back.** -/
theorem lines_written {ls : List (List α)} (h : ∀ line ∈ ls, delim ∉ line) :
    lines delim ⟨ls.flatMap (· ++ [delim]), false⟩ = ls := by
  induction ls with
  | nil => exact lines_of_none (getline_eq_none_of_nil false)
  | cons line ls ih =>
    have hline : delim ∉ line := h line List.mem_cons_self
    have hsplit : (line :: ls).flatMap (· ++ [delim]) = line ++ delim :: ls.flatMap (· ++ [delim]) := by
      rw [List.flatMap_cons, List.append_assoc]
      rfl
    rw [hsplit, lines_of_some (getline_append hline _), ih fun l hl => h l (List.mem_cons_of_mem _ hl)]

/-- **No line has the delimiter in it.** -/
theorem not_mem_of_mem_lines (s : Source α) : ∀ line ∈ lines delim s, delim ∉ line := by
  induction hn : s.unread.length using Nat.strong_induction_on generalizing s with
  | _ n ih =>
    intro line hline
    cases hget : getline delim s with
    | none =>
      rw [lines_of_none hget] at hline
      cases hline
    | some r =>
      obtain ⟨first, s'⟩ := r
      obtain ⟨hfirst, -, hlt⟩ := getline_spec hget
      rw [lines_of_some hget] at hline
      rcases List.mem_cons.1 hline with rfl | hrest
      · exact hfirst
      · exact ih _ (hn ▸ hlt) s' rfl line hrest

end Lines

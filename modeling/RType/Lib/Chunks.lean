import Mathlib.Data.List.Basic

/-!
# Input in pieces

A reader takes what it can of the input at hand and leaves the rest to the next call, which
comes when there is more.

* `Stable`: what comes later does not change what is taken.
* `Stable.calls`: **however the input is split, the calls together take what one call would
  take.**
* `arrived`: the frames that lie wholly in the first bytes of a stream.
-/

namespace Chunks

variable {α β φ : Type*}

/-- More input makes a reader take more, after what it takes without. -/
def Stable (read : List β → List α × List β) : Prop :=
  ∀ x y, read (x ++ y) = ((read x).1 ++ (read ((read x).2 ++ y)).1, (read ((read x).2 ++ y)).2)

/-- What each call takes when one comes after each chunk, and what is left at the end. -/
def calls (read : List β → List α × List β) : List β → List (List β) → List (List α) × List β
  | left, [] => ([], left)
  | left, chunk :: chunks =>
    let taken := read (left ++ chunk)
    let rest := calls read taken.2 chunks
    (taken.1 :: rest.1, rest.2)

variable {read : List β → List α × List β}

/-- The first calls know nothing of the later ones. -/
theorem calls_take (left : List β) (chunks : List (List β)) (n : ℕ) :
    (calls read left chunks).1.take n = (calls read left (chunks.take n)).1 := by
  induction chunks generalizing left n with
  | nil => rw [List.take_nil, calls, List.take_nil]
  | cons chunk chunks ih =>
    cases n with
    | zero => rfl
    | succ n => exact congrArg _ (ih _ n)

/-- Nothing more is to be taken of what is left. -/
theorem Stable.left (h : Stable read) (x : List β) : read (read x).2 = ([], (read x).2) := by
  have hnil := h x []
  rw [List.append_nil, List.append_nil] at hnil
  have htaken := congrArg Prod.fst hnil
  have hleft := congrArg Prod.snd hnil
  exact Prod.ext (List.append_right_eq_self.1 htaken.symm) hleft.symm

/-- **However the input is split, the calls together take what one call would take.** -/
theorem Stable.calls (h : Stable read) {left : List β} (hleft : read left = ([], left)) (chunks : List (List β)) :
    ((calls read left chunks).1.flatten, (calls read left chunks).2) = read (left ++ chunks.flatten) := by
  induction chunks generalizing left with
  | nil =>
    rw [List.flatten_nil, List.append_nil, hleft]
    rfl
  | cons chunk chunks ih =>
    have hrest := ih (h.left (left ++ chunk))
    rw [List.flatten_cons, ← List.append_assoc, h (left ++ chunk), ← hrest]
    rfl

/-! ## Frames -/

/-- The frames of a stream that lie wholly in its first `n` bytes. -/
def arrived (bytes : φ → List β) : List φ → ℕ → List φ
  | [], _ => []
  | f :: fs, n => if (bytes f).length ≤ n then f :: arrived bytes fs (n - (bytes f).length) else []

variable {bytes : φ → List β}

theorem arrived_cons_of_le {f : φ} {fs : List φ} {n : ℕ} (h : (bytes f).length ≤ n) :
    arrived bytes (f :: fs) n = f :: arrived bytes fs (n - (bytes f).length) := if_pos h

theorem arrived_cons_of_lt {f : φ} {fs : List φ} {n : ℕ} (h : n < (bytes f).length) :
    arrived bytes (f :: fs) n = [] := if_neg (Nat.not_le.2 h)

/-- An arrived frame is no longer than what has arrived. -/
theorem length_le_of_mem_arrived {f : φ} {fs : List φ} {n : ℕ} (h : f ∈ arrived bytes fs n) : (bytes f).length ≤ n := by
  induction fs generalizing n with
  | nil => cases h
  | cons g fs ih =>
    unfold arrived at h
    split at h
    · rename_i hle
      rcases List.mem_cons.1 h with rfl | h
      · exact hle
      · exact Nat.le_trans (ih h) (Nat.sub_le _ _)
    · cases h

/-- The first bytes of a stream that has a frame at its front: a part of the frame, or the
frame and the first bytes of the rest. -/
theorem isPrefix_cons {f : φ} {fs : List φ} {x : List β} (h : x <+: (f :: fs).flatMap bytes) :
    (x.length < (bytes f).length ∧ x <+: bytes f) ∨ ∃ y, x = bytes f ++ y ∧ y <+: fs.flatMap bytes := by
  rw [List.flatMap_cons] at h
  rcases Nat.lt_or_ge x.length (bytes f).length with hlt | hge
  · exact .inl ⟨hlt, List.prefix_of_prefix_length_le h (List.prefix_append _ _) (Nat.le_of_lt hlt)⟩
  · obtain ⟨y, rfl⟩ := List.prefix_of_prefix_length_le (List.prefix_append _ _) h hge
    exact .inr ⟨y, rfl, (List.prefix_append_right_inj _).1 h⟩

end Chunks

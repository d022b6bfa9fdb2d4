import Mathlib.Data.List.Basic
import Mathlib.Data.List.Count

/-!
# Greedy matchings

Pairs are offered one after another. A pair that meets is taken while both of its ends are free:
the left end by not having been taken yet, the right end as long as what has been taken has not
spent it. A right end may take more than one pair to be spent.

* `Greedy.nodup`: no left end is taken twice.
* `Greedy.free`: nothing is taken of a right end that is spent.
* `Greedy.maximal`: **of each pair that is offered and meets, an end is taken or spent.**
-/

namespace Matching

variable {A B : Type*}

/-- What a matching goes by. What spends a right end keeps it spent. -/
structure Rules (A B : Type*) where
  meets : A → B → Prop
  spent : List (A × B) → B → Prop
  spent_snoc : ∀ taken p b, spent taken b → spent (taken ++ [p]) b

/-- Both ends are free. -/
def Rules.Free (R : Rules A B) (taken : List (A × B)) (p : A × B) : Prop :=
  p.1 ∉ taken.map Prod.fst ∧ ¬ R.spent taken p.2

/-- `taken` is what is taken of the pairs offered so far. -/
inductive Greedy (R : Rules A B) : List (A × B) → List (A × B) → Prop
  | nil : Greedy R [] []
  | take {offered taken : List (A × B)} {p : A × B} (h : Greedy R offered taken) (hmeets : R.meets p.1 p.2)
      (hfree : R.Free taken p) : Greedy R (offered ++ [p]) (taken ++ [p])
  | skip {offered taken : List (A × B)} {p : A × B} (h : Greedy R offered taken)
      (hnot : ¬ (R.meets p.1 p.2 ∧ R.Free taken p)) : Greedy R (offered ++ [p]) taken

namespace Greedy

variable {R : Rules A B} {offered taken pre post : List (A × B)} {p : A × B} {b : B}

/-- What is taken was offered, and meets. -/
theorem sound (h : Greedy R offered taken) : ∀ p ∈ taken, p ∈ offered ∧ R.meets p.1 p.2 := by
  induction h with
  | nil => exact fun p hp => absurd hp List.not_mem_nil
  | take _ hmeets _ ih =>
    intro q hq
    rcases List.mem_append.1 hq with hq | hq
    · exact ⟨List.mem_append_left _ (ih q hq).1, (ih q hq).2⟩
    · obtain rfl := List.mem_singleton.1 hq
      exact ⟨List.mem_append_right _ hq, hmeets⟩
  | skip _ _ ih => exact fun q hq => ⟨List.mem_append_left _ (ih q hq).1, (ih q hq).2⟩

/-- **No left end is taken twice.** -/
theorem nodup (h : Greedy R offered taken) : (taken.map Prod.fst).Nodup := by
  induction h with
  | nil => exact List.nodup_nil
  | take _ _ hfree ih =>
    rw [List.map_append, List.map_singleton]
    exact List.nodup_append.2 ⟨ih, List.pairwise_singleton _ _, fun a ha b hb heq =>
      hfree.1 (List.mem_singleton.1 hb ▸ heq ▸ ha)⟩
  | skip _ _ ih => exact ih

/-- **Nothing is taken of a right end that is spent.** -/
theorem free (h : Greedy R offered taken) (hsplit : taken = pre ++ p :: post) : ¬ R.spent pre p.2 := by
  induction h generalizing post with
  | nil => exact absurd hsplit.symm (List.append_ne_nil_of_right_ne_nil _ (List.cons_ne_nil _ _))
  | take _ _ hfree ih =>
    rcases List.eq_nil_or_concat post with rfl | ⟨post, q, rfl⟩
    · obtain ⟨rfl, hp⟩ := List.append_inj' hsplit rfl
      obtain rfl := (List.cons.inj hp).1
      exact hfree.2
    · rw [List.concat_eq_append, ← List.cons_append, ← List.append_assoc] at hsplit
      exact ih (List.append_inj' hsplit rfl).1
  | skip _ _ ih => exact ih hsplit

/-- A right end that its first pair spends is taken once. -/
theorem count_le_one [DecidableEq B] (h : Greedy R offered taken)
    (hspends : ∀ taken, b ∈ taken.map Prod.snd → R.spent taken b) : (taken.map Prod.snd).count b ≤ 1 := by
  induction h with
  | nil => exact Nat.zero_le _
  | @take offered taken p h _ hfree ih =>
    rw [List.map_append, List.map_singleton, List.count_append]
    by_cases hp : p.2 = b
    · -- a pair before this one would have spent it
      have hnone : (taken.map Prod.snd).count b = 0 := by
        rw [List.count_eq_zero]
        intro hb
        exact hfree.2 (hp ▸ hspends taken hb)
      have hone : (taken.map Prod.snd).count b + [p.2].count b = 1 := by
        rw [hnone, hp, List.count_singleton_self]
      exact Nat.le_of_eq hone
    · rw [List.count_singleton, if_neg (by simpa using hp)]
      exact ih
  | skip _ _ ih => exact ih

/-- **Of each pair that is offered and meets, an end is taken or spent.** -/
theorem maximal (h : Greedy R offered taken) : ∀ p ∈ offered, R.meets p.1 p.2 → ¬ R.Free taken p := by
  induction h with
  | nil => exact fun p hp => absurd hp List.not_mem_nil
  | @take offered taken p _ _ _ ih =>
    intro q hq hmeets hfree
    rcases List.mem_append.1 hq with hq | hq
    · refine ih q hq hmeets ⟨fun hmem => hfree.1 ?_, fun hspent => hfree.2 (R.spent_snoc _ p _ hspent)⟩
      rw [List.map_append]
      exact List.mem_append_left _ hmem
    · obtain rfl := List.mem_singleton.1 hq
      refine hfree.1 ?_
      rw [List.map_append]
      exact List.mem_append_right _ List.mem_cons_self
  | @skip offered taken p _ hnot ih =>
    intro q hq hmeets hfree
    rcases List.mem_append.1 hq with hq | hq
    · exact ih q hq hmeets hfree
    · obtain rfl := List.mem_singleton.1 hq
      exact hnot ⟨hmeets, hfree⟩

/-- Pairs that do not meet. -/
theorem skip_all (h : Greedy R offered taken) {ps : List (A × B)} (hps : ∀ p ∈ ps, ¬ R.meets p.1 p.2) :
    Greedy R (offered ++ ps) taken := by
  induction ps generalizing offered with
  | nil =>
    rw [List.append_nil]
    exact h
  | cons p ps ih =>
    have hskip := h.skip (p := p) fun hp => hps p List.mem_cons_self hp.1
    have hrest := ih hskip fun q hq => hps q (List.mem_cons_of_mem p hq)
    rwa [List.append_assoc, List.singleton_append] at hrest

end Greedy

end Matching

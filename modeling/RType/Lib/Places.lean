import Mathlib.Data.List.Induction
import RType.Lib.Machine

/-!
# Places in a list that changes

* `kept`: where an element of a list is found in what a filter leaves of it;
  `getElem?_filter`, that it is found there; `filterMap_kept`, that nothing else is.
* `Grown`: a step keeps some elements of a list, in their order, and appends others.
* `place`: where an element is found after a run, if it is kept to its end.
* `grown_run`: so a list holds, after a run, what was kept of it, in its order, and then what
  has been appended in the course of the run and kept since.
-/

namespace Places

open Lts

section Filter

variable {α : Type*} (p : α → Bool)

/-- The place in `l.filter p` of what has place `i` in `l`, if it is kept. -/
def kept (l : List α) (i : ℕ) : Option ℕ :=
  match l[i]? with
  | some a => if p a then some ((l.take i).countP p) else none
  | none => none

variable {p} {l : List α} {i : ℕ} {a : α}

theorem kept_of_pos (h : l[i]? = some a) (hp : p a = true) : kept p l i = some ((l.take i).countP p) := by
  simp only [kept, h, hp, if_true]

theorem kept_of_neg (h : l[i]? = some a) (hp : p a = false) : kept p l i = none := by
  simp only [kept, h, hp, Bool.false_eq_true, if_false]

/-- What is kept comes after the kept ones that were before it. -/
theorem getElem?_filter (h : l[i]? = some a) (hp : p a = true) : (l.filter p)[(l.take i).countP p]? = some a := by
  induction l generalizing i with
  | nil => cases h
  | cons b l ih =>
    cases i with
    | zero =>
      obtain rfl : b = a := Option.some.inj h
      rw [List.filter_cons_of_pos hp]
      rfl
    | succ i =>
      have hrest : l[i]? = some a := h
      rw [List.take_succ_cons, List.countP_cons, List.filter_cons]
      split
      · exact ih hrest
      · exact ih hrest

/-- **Nothing else is kept**: the places of what is kept are those of the list that is left. -/
theorem filterMap_kept (p : α → Bool) (l : List α) :
    (List.range l.length).filterMap (kept p l) = List.range (l.filter p).length := by
  induction l using List.reverseRecOn with
  | nil => rfl
  | append_singleton l a ih =>
    have hbefore : ∀ i ∈ List.range l.length, kept p (l ++ [a]) i = kept p l i := by
      intro i hi
      have hlt : i < l.length := List.mem_range.1 hi
      simp only [kept, List.getElem?_append_left hlt, List.take_append_of_le_length (Nat.le_of_lt hlt)]
    have hlast : (l ++ [a])[l.length]? = some a := List.getElem?_concat_length
    rw [List.length_append, List.length_singleton, List.range_succ, List.filterMap_append,
      List.filterMap_congr hbefore, ih, List.filter_append]
    cases hp : p a with
    | true =>
      have hplace : kept p (l ++ [a]) l.length = some (l.filter p).length := by
        rw [kept_of_pos hlast hp, List.take_left, List.countP_eq_length_filter]
      simp only [List.filterMap_cons, hplace, List.filterMap_nil, List.filter_cons_of_pos hp, List.filter_nil,
        List.length_append, List.length_singleton, List.range_succ]
    | false =>
      have hnone : kept p (l ++ [a]) l.length = none := kept_of_neg hlast hp
      have hneg : ¬p a = true := by rw [hp]; exact Bool.false_ne_true
      simp only [List.filterMap_cons, hnone, List.filterMap_nil, List.filter_cons_of_neg hneg, List.filter_nil,
        List.append_nil]

end Filter

/-! ## Lists in the course of a run -/

section Runs

variable {σ β α : Type*} (M : Machine σ β) (content : σ → List α) (follow : σ → β → ℕ → Option ℕ)

/-- The place, after a run, of what has place `i` before it: none where it is not kept. -/
def place (s : σ) (as : List β) (i : ℕ) : Option ℕ :=
  M.observe (fun i s a _ => i.bind (follow s a)) (some i) s as

/-- What a step makes of a list: `old` is what it keeps, in its order, and `new` is appended. -/
structure Grown (s : σ) (a : β) (s' : σ) (old new : List α) : Prop where
  list : content s' = old ++ new
  kept : (List.range (content s).length).filterMap (follow s a) = List.range old.length

/-- What has place `j` after a run has been appended by a step of it, as `Born` says of the step. -/
def MadeIn (Born : σ → β → α → Prop) (s : σ) (as : List β) (j : ℕ) : Prop :=
  ∃ pre a post u u' old new k e, as = pre ++ a :: post ∧ M.run s pre = some u ∧ M.step u a = some u' ∧
    Grown content follow u a u' old new ∧ new[k]? = some e ∧ Born u a e ∧ place M follow u' post (old.length + k) = some j

variable {M content follow} {Born : σ → β → α → Prop} {s s' t : σ} {a : β} {as : List β} {i j : ℕ}

/-- What is not kept does not come back. -/
theorem place_none (as : List β) (s : σ) : M.observe (fun i s a _ => i.bind (follow s a)) none s as = none := by
  induction as generalizing s with
  | nil => rfl
  | cons a as ih =>
    rcases hstep : M.step s a with _ | s'
    · simp only [Machine.observe, hstep]
    · rw [Machine.observe_cons _ _ hstep]
      exact ih s'

theorem place_cons (hstep : M.step s a = some s') :
    place M follow s (a :: as) i = (follow s a i).bind (place M follow s' as) := by
  rw [place, Machine.observe_cons _ _ hstep, Option.bind_some]
  rcases follow s a i with _ | j
  · exact place_none as s'
  · rfl

theorem MadeIn.cons (h : MadeIn M content follow Born s' as j) (hstep : M.step s a = some s') :
    MadeIn M content follow Born s (a :: as) j := by
  obtain ⟨pre, b, post, u, u', old, new, k, e, rfl, hu, hrest⟩ := h
  exact ⟨a :: pre, b, post, u, u', old, new, k, e, rfl, M.run_cons_iff.2 ⟨s', hstep, hu⟩, hrest⟩

/-- What a run keeps of what its first step has appended. -/
theorem madeIn_first {old new : List α} (hstep : M.step s a = some s') (hgrown : Grown content follow s a s' old new)
    (hborn : ∀ e ∈ new, Born s a e)
    (hj : j ∈ ((List.range new.length).map (old.length + ·)).filterMap (place M follow s' as)) :
    MadeIn M content follow Born s (a :: as) j := by
  obtain ⟨i, hi, hplace⟩ := List.mem_filterMap.1 hj
  obtain ⟨n, hn, rfl⟩ := List.mem_map.1 hi
  have hlt : n < new.length := List.mem_range.1 hn
  exact ⟨[], a, as, s, s', old, new, n, new[n], rfl, rfl, hstep, hgrown, List.getElem?_eq_getElem hlt,
    hborn _ (List.getElem_mem hlt), hplace⟩

/-- The first part of a range is a range. -/
theorem range_of_append {xs ys : List ℕ} {n : ℕ} (h : xs ++ ys = List.range n) : ∃ m ≤ n, xs = List.range m := by
  have hle : xs.length ≤ n := by
    have hlen := congrArg List.length h
    rw [List.length_append, List.length_range] at hlen
    omega
  have htake := congrArg (List.take xs.length) h
  rw [List.take_left, List.take_range, Nat.min_eq_left hle] at htake
  exact ⟨xs.length, hle, htake⟩

/-- **A list in the course of a run.** Where every step keeps some elements, in their order, and
appends others, so does a run. -/
theorem grown_run
    (hgrown : ∀ {s a s'}, M.step s a = some s' →
      ∃ old new, Grown content follow s a s' old new ∧ ∀ e ∈ new, Born s a e)
    (hrun : M.run s as = some t) :
    ∃ old new, content t = old ++ new ∧
      (List.range (content s).length).filterMap (place M follow s as) = List.range old.length ∧
      ∀ k < new.length, MadeIn M content follow Born s as (old.length + k) := by
  induction as generalizing s with
  | nil =>
    obtain rfl := Option.some.inj hrun
    exact ⟨content s, [], (List.append_nil _).symm, List.filterMap_some, fun k hk => absurd hk (Nat.not_lt_zero k)⟩
  | cons a as ih =>
    obtain ⟨s', hstep, hrest⟩ := M.run_cons_iff.1 hrun
    obtain ⟨old₁, new₁, hgrown₁, hborn⟩ := hgrown hstep
    obtain ⟨old', new', hlist, hkept, hmade⟩ := ih hrest
    -- what the rest of the run keeps is kept of what the step kept, or of what it appended
    rw [hgrown₁.list, List.length_append, List.range_add, List.filterMap_append] at hkept
    obtain ⟨m, hle, hfirst⟩ := range_of_append hkept
    have hm : (old'.take m).length = m := by rw [List.length_take, Nat.min_eq_left hle]
    refine ⟨old'.take m, old'.drop m ++ new', ?_, ?_, ?_⟩
    · rw [← List.append_assoc, List.take_append_drop, hlist]
    · have hplace : place M follow s (a :: as) = fun i => (follow s a i).bind (place M follow s' as) :=
        funext fun i => place_cons hstep
      rw [hplace, ← List.filterMap_filterMap, hgrown₁.kept, hm, hfirst]
    · intro k hk
      rw [hm]
      rcases Nat.lt_or_ge (m + k) old'.length with hlt | hge
      · -- appended by the first step
        have hmem : m + k ∈ List.range old'.length := List.mem_range.2 hlt
        rw [← hkept, hfirst, List.mem_append] at hmem
        rcases hmem with hold | hnew
        · have hlow := List.mem_range.1 hold
          omega
        · exact madeIn_first hstep hgrown₁ hborn hnew
      · rw [List.length_append, List.length_drop] at hk
        have hlater := (hmade (m + k - old'.length) (by omega)).cons hstep
        rwa [Nat.add_sub_cancel' hge] at hlater

end Runs

end Places

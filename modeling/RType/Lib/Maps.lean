import Std.Data.TreeMap
import Mathlib.Logic.Basic

/-!
# Tree maps, looked up key by key

Lookups after an insertion, a removal, and a row of insertions, by equality of keys.
-/

namespace Maps

variable {α β γ : Type*} {cmp : α → α → Ordering} [Std.TransCmp cmp] [Std.LawfulEqCmp cmp] [DecidableEq α]

theorem getElem?_insert (m : Std.TreeMap α β cmp) (k k' : α) (v : β) :
    (m.insert k v)[k']? = if k' = k then some v else m[k']? := by
  by_cases h : k' = k
  · subst h
    rw [Std.TreeMap.getElem?_insert_self, if_pos rfl]
  · have hcmp : ¬ cmp k k' = .eq := fun he => h (Std.LawfulEqCmp.compare_eq_iff_eq.1 he).symm
    rw [Std.TreeMap.getElem?_insert, if_neg hcmp, if_neg h]

theorem getElem?_erase (m : Std.TreeMap α β cmp) (k k' : α) :
    (m.erase k)[k']? = if k' = k then none else m[k']? := by
  by_cases h : k' = k
  · subst h
    rw [Std.TreeMap.getElem?_erase_self, if_pos rfl]
  · have hcmp : ¬ cmp k k' = .eq := fun he => h (Std.LawfulEqCmp.compare_eq_iff_eq.1 he).symm
    rw [Std.TreeMap.getElem?_erase, if_neg hcmp, if_neg h]

/-- An insertion changes nothing where the key has the value already. -/
theorem getElem?_insert_eq_iff (m : Std.TreeMap α β cmp) (k : α) (v : β) :
    (∀ k' : α, (m.insert k v)[k']? = m[k']?) ↔ m[k]? = some v := by
  constructor
  · intro h
    rw [← h k, Std.TreeMap.getElem?_insert_self]
  · intro h k'
    rw [getElem?_insert]
    split
    · rename_i he
      rw [he, h]
    · rfl

/-- A removal changes nothing where the key is absent. -/
theorem getElem?_erase_eq_iff (m : Std.TreeMap α β cmp) (k : α) :
    (∀ k' : α, (m.erase k)[k']? = m[k']?) ↔ m[k]? = none := by
  constructor
  · intro h
    rw [← h k, Std.TreeMap.getElem?_erase_self]
  · intro h k'
    rw [getElem?_erase]
    split
    · rename_i he
      rw [he, h]
    · rfl

/-- A row of insertions: a key has the value of one that was inserted under it, or is
inserted nowhere and keeps what it had. -/
theorem getElem?_foldl_insert (key : γ → α) (val : γ → β) (l : List γ) (m : Std.TreeMap α β cmp) (k : α) :
    (∃ c ∈ l, key c = k ∧ (l.foldl (fun m c => m.insert (key c) (val c)) m)[k]? = some (val c)) ∨
      (∀ c ∈ l, key c ≠ k) ∧ (l.foldl (fun m c => m.insert (key c) (val c)) m)[k]? = m[k]? := by
  induction l generalizing m with
  | nil => exact .inr ⟨fun c hc => (nomatch hc), rfl⟩
  | cons c l ih =>
    rw [List.foldl_cons]
    rcases ih (m.insert (key c) (val c)) with ⟨d, hd, hk, hv⟩ | ⟨hnot, hv⟩
    · exact .inl ⟨d, List.mem_cons_of_mem _ hd, hk, hv⟩
    · rw [getElem?_insert] at hv
      by_cases hc : k = key c
      · rw [if_pos hc] at hv
        exact .inl ⟨c, List.mem_cons_self, hc.symm, hv⟩
      · rw [if_neg hc] at hv
        refine .inr ⟨fun d hd => ?_, hv⟩
        rcases List.mem_cons.1 hd with rfl | hd
        · exact Ne.symm hc
        · exact hnot d hd

/-- The keys after a row of insertions. -/
theorem mem_foldl_insert_iff (key : γ → α) (val : γ → β) (l : List γ) (m : Std.TreeMap α β cmp) (k : α) :
    k ∈ l.foldl (fun m c => m.insert (key c) (val c)) m ↔ (∃ c ∈ l, key c = k) ∨ k ∈ m := by
  have hmem (m : Std.TreeMap α β cmp) : k ∈ m ↔ m[k]?.isSome = true := Std.TreeMap.mem_iff_isSome_getElem?
  rw [hmem, hmem]
  rcases getElem?_foldl_insert key val l m k with ⟨c, hc, hk, hv⟩ | ⟨hnot, hv⟩
  · rw [hv]
    exact iff_of_true rfl (.inl ⟨c, hc, hk⟩)
  · rw [hv]
    exact ⟨.inr, fun h => h.resolve_left fun ⟨c, hc, hk⟩ => hnot c hc hk⟩

/-- The entries of a map, written onto one that has no other keys, give the map. -/
theorem foldl_insert_toList (m m' : Std.TreeMap α β cmp) (h : ∀ k ∈ m', k ∈ m) :
    (m.toList.foldl (fun acc pair => acc.insert pair.1 pair.2) m').toList = m.toList := by
  refine Std.TreeMap.equiv_iff_toList_eq.1 (.of_forall_constGet?_eq fun k => ?_)
  rcases getElem?_foldl_insert Prod.fst Prod.snd m.toList m' k with ⟨pair, hpair, rfl, hv⟩ | ⟨hnot, hv⟩
  · exact hv.trans (Std.TreeMap.mem_toList_iff_getElem?_eq_some.1 hpair).symm
  · have hm : m[k]? = none := by
      refine Option.eq_none_iff_forall_ne_some.2 fun v hsome => ?_
      exact hnot (k, v) (Std.TreeMap.mem_toList_iff_getElem?_eq_some.2 hsome) rfl
    have hm' : m'[k]? = none := by
      refine Option.not_isSome_iff_eq_none.1 fun hsome => ?_
      have hk := Std.TreeMap.mem_iff_isSome_getElem?.1 (h k (Std.TreeMap.mem_iff_isSome_getElem?.2 hsome))
      rw [hm] at hk
      cases hk
    rw [hv, hm, hm']

/-- A row of insertions, key by key: the last one under the key decides. -/
theorem getElem?_foldl_insert_last (key : γ → α) (val : γ → β) (l : List γ) (m : Std.TreeMap α β cmp) (k : α) :
    (l.foldl (fun m c => m.insert (key c) (val c)) m)[k]? =
      match (l.filter fun c => key c = k).getLast? with
      | some c => some (val c)
      | none => m[k]? := by
  induction l generalizing m with
  | nil => rfl
  | cons c l ih =>
    rw [List.foldl_cons, ih, List.filter_cons, getElem?_insert]
    by_cases hc : key c = k
    · rw [if_pos (decide_eq_true hc), if_pos hc.symm, List.getLast?_cons]
      cases (l.filter fun c => key c = k).getLast? <;> rfl
    · rw [if_neg (Ne.symm hc), if_neg (by simpa using hc)]

end Maps

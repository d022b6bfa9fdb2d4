import Mathlib.Data.List.Nodup
import RType.Lib.Maps

/-!
# A map that pictures a list of records

One side of a channel keeps a list of records under distinct keys, the other side a map. The
map pictures the list when a key has the value of the record under it. What is done to the
list is told to the map in messages about single keys.

* `Pictures.snoc`: a new record is inserted.
* `Pictures.sweep`: all records are changed or removed in one go, with one message for each.
-/

namespace Replica

variable {α β γ : Type*} {cmp : α → α → Ordering}

/-- A key has the value of the record under it, and no other key has a value. -/
def Pictures (m : Std.TreeMap α β cmp) (records : List (α × β)) : Prop := ∀ k b, m[k]? = some b ↔ (k, b) ∈ records

variable {m : Std.TreeMap α β cmp} {records : List (α × β)}

/-- Messages about distinct keys: each finds its key as it was before them all. -/
theorem foldl_apart {f : Std.TreeMap α β cmp → γ → Std.TreeMap α β cmp} {key : γ → α} {before : γ → β}
    {after : γ → Option β} (hself : ∀ m c, m[key c]? = some (before c) → (f m c)[key c]? = after c)
    (hother : ∀ m c k, k ≠ key c → (f m c)[k]? = m[k]?) (l : List γ) (hnodup : (l.map key).Nodup)
    (m : Std.TreeMap α β cmp) (hm : ∀ c ∈ l, m[key c]? = some (before c)) (k : α) :
    (∃ c ∈ l, key c = k ∧ (l.foldl f m)[k]? = after c) ∨ (∀ c ∈ l, key c ≠ k) ∧ (l.foldl f m)[k]? = m[k]? := by
  induction l generalizing m with
  | nil => exact .inr ⟨fun c hc => absurd hc List.not_mem_nil, rfl⟩
  | cons c l ih =>
    rw [List.map_cons, List.nodup_cons] at hnodup
    obtain ⟨hnew, hnodup⟩ := hnodup
    -- the others find their keys as before
    have hrest : ∀ d ∈ l, (f m c)[key d]? = some (before d) := by
      intro d hd
      have hne : key d ≠ key c := fun he => hnew (he ▸ List.mem_map_of_mem hd)
      rw [hother m c _ hne]
      exact hm d (List.mem_cons_of_mem c hd)
    rw [List.foldl_cons]
    rcases ih hnodup (f m c) hrest with ⟨d, hd, hk, hv⟩ | ⟨hnot, hv⟩
    · exact .inl ⟨d, List.mem_cons_of_mem c hd, hk, hv⟩
    · by_cases hk : key c = k
      · subst hk
        exact .inl ⟨c, List.mem_cons_self, rfl, hv.trans (hself m c (hm c List.mem_cons_self))⟩
      · refine .inr ⟨fun d hd => ?_, hv.trans (hother m c k (Ne.symm hk))⟩
        rcases List.mem_cons.1 hd with rfl | hd
        · exact hk
        · exact hnot d hd

/-- **All records at once**: each is changed or removed by a message of its own. -/
theorem Pictures.sweep {f : Std.TreeMap α β cmp → γ → Std.TreeMap α β cmp} {key : γ → α} {before : γ → β}
    {after : γ → Option β} (hself : ∀ m c, m[key c]? = some (before c) → (f m c)[key c]? = after c)
    (hother : ∀ m c k, k ≠ key c → (f m c)[k]? = m[k]?) {l : List γ} (hnodup : (l.map key).Nodup)
    (h : Pictures m (l.map fun c => (key c, before c))) :
    Pictures (l.foldl f m) (l.filterMap fun c => (after c).map (key c, ·)) := by
  have hfound : ∀ c ∈ l, m[key c]? = some (before c) :=
    fun c hc => (h _ _).2 (List.mem_map_of_mem (f := fun c => (key c, before c)) hc)
  intro k b
  rw [List.mem_filterMap]
  rcases foldl_apart hself hother l hnodup m hfound k with ⟨c, hc, rfl, hv⟩ | ⟨hnot, hv⟩
  · rw [hv]
    constructor
    · intro ha
      exact ⟨c, hc, by rw [ha, Option.map_some]⟩
    · rintro ⟨d, hd, he⟩
      obtain ⟨b', ha, hp⟩ := Option.map_eq_some_iff.1 he
      obtain ⟨hkey, rfl⟩ := Prod.mk.inj hp
      rwa [← List.inj_on_of_nodup_map hnodup hd hc hkey]
  · rw [hv]
    constructor
    · intro hb
      obtain ⟨c, hc, he⟩ := List.mem_map.1 ((h k b).1 hb)
      exact absurd (Prod.mk.inj he).1 (hnot c hc)
    · rintro ⟨d, hd, he⟩
      obtain ⟨b', -, hp⟩ := Option.map_eq_some_iff.1 he
      exact absurd (Prod.mk.inj hp).1 (hnot d hd)

variable [Std.TransCmp cmp] [Std.LawfulEqCmp cmp] [DecidableEq α]

/-- **A new record.** -/
theorem Pictures.snoc (h : Pictures m records) {k : α} {b : β} (hk : k ∉ records.map Prod.fst) :
    Pictures (m.insert k b) (records ++ [(k, b)]) := by
  intro k' b'
  rw [Maps.getElem?_insert, List.mem_append, List.mem_singleton, Prod.mk.injEq]
  by_cases he : k' = k
  · subst he
    have hold : (k', b') ∉ records := fun hmem => hk (List.mem_map_of_mem hmem)
    simp [hold, eq_comm]
  · rw [if_neg he, h k' b']
    simp [he]

end Replica

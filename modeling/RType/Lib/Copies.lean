import Mathlib.Data.List.Basic

/-!
# Messages that arrive again

A receiver folds a step function over the messages it gets. A channel may deliver copies of
a message that has arrived before.

* `Thins`: a list of messages without some of the later copies in it.
* `foldl_thins`: where every later copy leaves the state it finds, so does their removal.
* `Thins.last`: a copy that comes last may be removed alone.
-/

namespace Copies

variable {α σ : Type*}

/-- `kept` is what is left of `all` once some copies are removed, each of a message in
`seen` or before it in `all`. -/
inductive Thins (copy : α → α → Prop) : List α → List α → List α → Prop
  | nil {seen : List α} : Thins copy seen [] []
  | keep {seen all kept : List α} {a : α} : Thins copy (a :: seen) all kept → Thins copy seen (a :: all) (a :: kept)
  | remove {seen all kept : List α} {a : α} :
    (∃ b ∈ seen, copy b a) → Thins copy (a :: seen) all kept → Thins copy seen (a :: all) kept

variable {copy : α → α → Prop} {f : σ → α → σ} {seen all kept : List α} {s : σ} {a : α}

theorem Thins.refl : Thins copy seen all all := by
  induction all generalizing seen with
  | nil => exact .nil
  | cons a all ih => exact .keep ih

/-- Whatever is read next has been seen. -/
theorem mem_seen {b : α} : b ∈ seen ++ a :: all ↔ b ∈ a :: seen ++ all := List.perm_middle.mem_iff

/-- A copy that comes last may be removed alone. -/
theorem Thins.last (h : ∃ b ∈ seen ++ all, copy b a) : Thins copy seen (all ++ [a]) all := by
  induction all generalizing seen with
  | nil =>
    rw [List.append_nil] at h
    exact .remove h .nil
  | cons c all ih =>
    obtain ⟨b, hb, hc⟩ := h
    exact .keep (ih ⟨b, mem_seen.1 hb, hc⟩)

/-- **Copies that leave the state can be removed.** -/
theorem foldl_thins (h : Thins copy seen all kept)
    (hcopies : ∀ pre a post, all = pre ++ a :: post → (∃ b ∈ seen ++ pre, copy b a) →
      f (pre.foldl f s) a = pre.foldl f s) : kept.foldl f s = all.foldl f s := by
  induction h generalizing s with
  | nil => rfl
  | @keep seen all kept a _ ih =>
    refine ih fun pre c post hall ⟨b, hb, hc⟩ => ?_
    exact hcopies (a :: pre) c post (by rw [hall]; rfl) ⟨b, mem_seen.2 hb, hc⟩
  | @remove seen all kept a hcopy _ ih =>
    have hstay : f s a = s := by
      obtain ⟨b, hb, hc⟩ := hcopy
      exact hcopies [] a all rfl ⟨b, List.mem_append_left _ hb, hc⟩
    rw [List.foldl_cons, hstay]
    refine ih fun pre c post hall ⟨b, hb, hc⟩ => ?_
    have hpre := hcopies (a :: pre) c post (by rw [hall]; rfl) ⟨b, mem_seen.2 hb, hc⟩
    rwa [List.foldl_cons, hstay] at hpre

end Copies

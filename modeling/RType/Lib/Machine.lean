import Mathlib.Data.List.Basic
import Mathlib.Order.Basic

/-!
# Labelled machines

A machine has states and labels; a label either happens in a state and leads to
one next state, or cannot happen there. Threads, environments and schedules all
go into the label, so a run is a list of labels.

* `Machine.inv_run`: what every step preserves, every run preserves.
* `Machine.inv_along`: the same for runs all of whose steps meet a condition.
* `Machine.inv_observe`: the same for what an observer notes down in the course of a run;
  `Machine.inv_history`: the same for the labels so far; `foldLog_rule` for what is noted
  down in the turns of a loop.
* `Machine.simulate`: a machine matched step by step by runs of another is
  matched run by run; `Machine.lockstep`: the same where the labels are the same;
  `Machine.run_congr`: two machines with the same steps have the same runs.
-/

namespace Lts

/-- `step s a` is the state after label `a`, or `none` where `a` cannot happen. -/
structure Machine (σ α : Type*) where
  step : σ → α → Option σ

namespace Machine

variable {σ α τ β : Type*} (M : Machine σ α) {s s' t : σ} {a : α} {as bs : List α}

/-- The state after a list of labels, if they can all happen in order. -/
def run : σ → List α → Option σ
  | s, [] => some s
  | s, a :: as => (M.step s a).bind fun s' => run s' as

/-- Every step of the run of `as` from `s` meets `C`. -/
def Along (C : σ → α → Prop) : σ → List α → Prop
  | _, [] => True
  | s, a :: as => C s a ∧ ∀ s', M.step s a = some s' → Along C s' as

/-- What the steps of the run of `as` from `s` add up to, where a step from `s` to `s'`
counts `f s s'`. -/
def total (f : σ → σ → ℕ) : σ → List α → ℕ
  | _, [] => 0
  | s, a :: as => match M.step s a with
    | some s' => f s s' + total f s' as
    | none => 0

/-- What an observer makes of the run of `as` from `s`, where `f b s a s'` is what it makes
of a step after `b`. -/
def observe (f : β → σ → α → σ → β) : β → σ → List α → β
  | b, _, [] => b
  | b, s, a :: as => match M.step s a with
    | some s' => observe f (f b s a s') s' as
    | none => b

/-- Some run whose steps meet `C` leads from `s` to `t`. -/
def Reaches (C : σ → α → Prop) (s t : σ) : Prop := ∃ as, M.run s as = some t ∧ M.Along C s as

/-- `t` is one of the states the run of `as` from `s` goes through. -/
def Visits (s : σ) (as : List α) (t : σ) : Prop :=
  ∃ pre, pre <+: as ∧ M.run s pre = some t

/-- The run of `as` from `s` takes the step `a` from `t` to `t'`. -/
def Takes (s : σ) (as : List α) (t : σ) (a : α) (t' : σ) : Prop :=
  ∃ pre post, as = pre ++ a :: post ∧ M.run s pre = some t ∧ M.step t a = some t'

@[simp] theorem run_nil : M.run s [] = some s := rfl

theorem run_cons_iff : M.run s (a :: as) = some t ↔ ∃ s', M.step s a = some s' ∧ M.run s' as = some t := by
  simp [run, Option.bind_eq_some_iff]

theorem run_append : M.run s (as ++ bs) = (M.run s as).bind fun s' => M.run s' bs := by
  induction as generalizing s with
  | nil => rfl
  | cons a as ih =>
    simp only [List.cons_append, run, Option.bind_assoc]
    congr 1
    funext s'
    exact ih

theorem run_append_iff :
    M.run s (as ++ bs) = some t ↔ ∃ s', M.run s as = some s' ∧ M.run s' bs = some t := by
  rw [run_append, Option.bind_eq_some_iff]

theorem run_snoc_iff :
    M.run s (as ++ [a]) = some t ↔ ∃ s', M.run s as = some s' ∧ M.step s' a = some t := by
  simp [run_append_iff, run_cons_iff]

variable {M} {C D : σ → α → Prop} {I : σ → Prop}

theorem observe_cons (f : β → σ → α → σ → β) (b : β) (h : M.step s a = some t) :
    M.observe f b s (a :: as) = M.observe f (f b s a t) t as := by
  simp only [observe, h]

/-- **Invariant rule with an observer** for conditioned runs. -/
theorem inv_observe_along {f : β → σ → α → σ → β} {J : β → σ → Prop}
    (hstep : ∀ b s a s', J b s → C s a → M.step s a = some s' → J (f b s a s') s') :
    ∀ as b s t, J b s → M.Along C s as → M.run s as = some t → J (M.observe f b s as) t := by
  intro as
  induction as with
  | nil => intro b s t hs _ hr; simp only [run_nil, Option.some.injEq] at hr; exact hr ▸ hs
  | cons a as ih =>
    intro b s t hs hC hr
    obtain ⟨s', h1, h2⟩ := M.run_cons_iff.1 hr
    rw [M.observe_cons f b h1]
    exact ih _ s' t (hstep b s a s' hs hC.1 h1) (hC.2 s' h1) h2

/-- **Invariant rule for conditioned runs.** -/
theorem inv_along (hstep : ∀ s a s', I s → C s a → M.step s a = some s' → I s') :
    ∀ as s t, I s → M.Along C s as → M.run s as = some t → I t :=
  -- nothing is noted down
  fun as => inv_observe_along (J := fun _ : Unit => I) (f := fun _ _ _ _ => ()) (fun _ => hstep) as ()

theorem along_append (h : M.run s as = some t) :
    M.Along C s (as ++ bs) ↔ M.Along C s as ∧ M.Along C t bs := by
  induction as generalizing s with
  | nil => simp only [run_nil, Option.some.injEq] at h; subst h; simp [Along]
  | cons a as ih =>
    obtain ⟨s', h1, h2⟩ := M.run_cons_iff.1 h
    simp only [List.cons_append, Along, h1, Option.some.injEq, forall_eq']
    rw [ih h2, and_assoc]

theorem Along.nil : M.Along C s [] := trivial

/-- A conditioned run, one step at a time. -/
theorem Along.cons (h : M.step s a = some t) (hC : C s a) (ht : M.Along C t as) : M.Along C s (a :: as) :=
  ⟨hC, fun _ h' => Option.some.inj (h.symm.trans h') ▸ ht⟩

/-- A conditioned run is conditioned up to any point of it. -/
theorem Along.upTo (h : M.Along C s as) {pre : List α} (hp : pre <+: as)
    (hr : M.run s pre = some t) : M.Along C s pre := by
  obtain ⟨post, rfl⟩ := hp
  exact ((along_append hr).1 h).1

/-- The condition holds of the step taken at any point of the run. -/
theorem Along.at (h : M.Along C s (as ++ a :: bs)) (hr : M.run s as = some t) : C t a :=
  ((along_append hr).1 h).2.1

theorem Along.imp (h : M.Along C s as) (hCD : ∀ s a, C s a → D s a) : M.Along D s as := by
  induction as generalizing s with
  | nil => trivial
  | cons a as ih => exact ⟨hCD s a h.1, fun s' hs' => ih (h.2 s' hs')⟩

/-- A condition that can be tested can be tested along a run. -/
instance decidableAlong [∀ s a, Decidable (C s a)] : ∀ s as, Decidable (M.Along C s as)
  | _, [] => .isTrue trivial
  | s, a :: as => match h : M.step s a with
    | some s' =>
      have := decidableAlong s' as
      decidable_of_iff (C s a ∧ M.Along C s' as) (by simp [Along, h])
    | none => decidable_of_iff (C s a) (by simp [Along, h])

/-- The condition may be checked step by step. -/
theorem along_of_forall (h : ∀ pre a post t, as = pre ++ a :: post → M.run s pre = some t → C t a) :
    M.Along C s as := by
  induction as generalizing s with
  | nil => trivial
  | cons a as ih =>
    refine ⟨h [] a as s rfl rfl, fun s' hs' => ih fun pre b post t he hr => ?_⟩
    exact h (a :: pre) b post t (by rw [he]; rfl) (M.run_cons_iff.2 ⟨s', hs', hr⟩)

/-- A condition that is one on the labels alone. -/
theorem along_of_mem (h : ∀ a ∈ as, ∀ s, C s a) : M.Along C s as :=
  along_of_forall fun pre a _ t he _ => h a (he ▸ List.mem_append_right pre List.mem_cons_self) t

/-- **Invariant rule.** -/
theorem inv_run (hstep : ∀ s a s', I s → M.step s a = some s' → I s') :
    ∀ as s t, I s → M.run s as = some t → I t := by
  intro as s t hs hr
  refine inv_along (C := fun _ _ => True) (fun s a s' hI _ => hstep s a s' hI) as s t hs ?_ hr
  exact along_of_forall fun _ _ _ _ _ _ => trivial

theorem reaches_self : M.Reaches C s s := ⟨[], rfl, Along.nil⟩

theorem reaches_step (h : M.step s a = some t) (hC : C s a) : M.Reaches C s t :=
  ⟨[a], M.run_cons_iff.2 ⟨t, h, rfl⟩, .cons h hC .nil⟩

theorem Reaches.trans (h : M.Reaches C s s') (h' : M.Reaches C s' t) : M.Reaches C s t := by
  obtain ⟨as, ha, hCa⟩ := h
  obtain ⟨bs, hb, hCb⟩ := h'
  exact ⟨as ++ bs, M.run_append_iff.2 ⟨s', ha, hb⟩, (along_append ha).2 ⟨hCa, hCb⟩⟩

/-- Where each step is a step between the images too, so is each run. -/
theorem Reaches.map {N : Machine τ α} {D : τ → α → Prop} (h : M.Reaches C s t) (g : σ → τ)
    (hstep : ∀ {s t : σ} {a : α}, M.step s a = some t → C s a → N.step (g s) a = some (g t) ∧ D (g s) a) :
    N.Reaches D (g s) (g t) := by
  obtain ⟨as, hr, hC⟩ := h
  induction as generalizing s with
  | nil =>
    obtain rfl := Option.some.inj hr
    exact reaches_self
  | cons a as ih =>
    obtain ⟨s', hs, hr⟩ := M.run_cons_iff.1 hr
    obtain ⟨hs', hD⟩ := hstep hs hC.1
    exact (reaches_step hs' hD).trans (ih hr (hC.2 s' hs))

theorem visits_self : M.Visits s as s := ⟨[], List.nil_prefix, rfl⟩

theorem Visits.cons (h : M.step s a = some s') (ht : M.Visits s' as t) : M.Visits s (a :: as) t := by
  obtain ⟨pre, hp, hr⟩ := ht
  exact ⟨a :: pre, List.cons_prefix_cons.2 ⟨rfl, hp⟩, M.run_cons_iff.2 ⟨s', h, hr⟩⟩

theorem visits_last (h : M.run s as = some t) : M.Visits s as t := ⟨as, List.prefix_rfl, h⟩

theorem takes_last {t' : σ} (h : M.run s as = some t) (hstep : M.step t a = some t') : M.Takes s (as ++ [a]) t a t' :=
  ⟨as, [], rfl, h, hstep⟩

theorem Takes.append {t' : σ} (h : M.Takes s as t a t') (bs : List α) : M.Takes s (as ++ bs) t a t' := by
  obtain ⟨pre, post, rfl, hr, hstep⟩ := h
  exact ⟨pre, post ++ bs, by rw [List.append_assoc, List.cons_append], hr, hstep⟩

/-- A conditioned invariant holds in every state the run goes through. -/
theorem inv_visits (hstep : ∀ s a s', I s → C s a → M.step s a = some s' → I s') (hs : I s)
    (hC : M.Along C s as) (hv : M.Visits s as t) : I t := by
  obtain ⟨pre, hp, hr⟩ := hv
  exact inv_along hstep pre s t hs (hC.upTo hp hr) hr

/-- **Invariant rule for what is known of the visited states.** -/
theorem inv_visited {K : σ → Prop} (hstep : ∀ s a s', I s → M.step s a = some s' → K s' → I s') :
    ∀ as s t, I s → (∀ t, M.Visits s as t → K t) → M.run s as = some t → I t := by
  intro as s t hs hK hr
  have hstep' : ∀ s a s', I s → (∀ s', M.step s a = some s' → K s') → M.step s a = some s' → I s' :=
    fun s a s' hI hC hs' => hstep s a s' hI hs' (hC s' hs')
  refine inv_along hstep' as s t hs (along_of_forall fun pre a post u he hu u' hu' => hK u' ?_) hr
  refine ⟨pre ++ [a], ⟨post, ?_⟩, M.run_snoc_iff.2 ⟨u, hu, hu'⟩⟩
  rw [he, List.append_assoc]
  rfl

theorem total_cons (f : σ → σ → ℕ) (h : M.step s a = some t) :
    M.total f s (a :: as) = f s t + M.total f t as := by
  simp only [total, h]

theorem total_append (f : σ → σ → ℕ) (h : M.run s as = some t) :
    M.total f s (as ++ bs) = M.total f s as + M.total f t bs := by
  induction as generalizing s with
  | nil => simp only [run_nil, Option.some.injEq] at h; subst h; simp [total]
  | cons a as ih =>
    obtain ⟨s', h1, h2⟩ := M.run_cons_iff.1 h
    rw [List.cons_append, M.total_cons f h1, M.total_cons f h1, ih h2, Nat.add_assoc]

theorem total_le_of_prefix (f : σ → σ → ℕ) {pre : List α} (hp : pre <+: as) (h : M.run s pre = some t) :
    M.total f s pre ≤ M.total f s as := by
  obtain ⟨post, rfl⟩ := hp
  rw [M.total_append f h]
  exact Nat.le_add_right _ _

/-- **Invariant rule with a count**: the invariant speaks of the sum so far, which stays
below a bound. -/
theorem inv_total {J : ℕ → σ → Prop} {f : σ → σ → ℕ} {N : ℕ}
    (hstep : ∀ k s a s', J k s → C s a → M.step s a = some s' → k + f s s' < N → J (k + f s s') s') :
    ∀ as k s t, J k s → M.Along C s as → M.run s as = some t → k + M.total f s as < N →
      J (k + M.total f s as) t := by
  intro as
  induction as with
  | nil => intro k s t hs _ hr _; simp only [run_nil, Option.some.injEq] at hr; exact hr ▸ hs
  | cons a as ih =>
    intro k s t hs hC hr hN
    obtain ⟨s', h1, h2⟩ := M.run_cons_iff.1 hr
    rw [M.total_cons f h1, ← Nat.add_assoc] at hN ⊢
    exact ih _ s' t (hstep k s a s' hs hC.1 h1 (by omega)) (hC.2 s' h1) h2 hN

/-- **Invariant rule with an observer.** -/
theorem inv_observe {f : β → σ → α → σ → β} {J : β → σ → Prop}
    (hstep : ∀ b s a s', J b s → M.step s a = some s' → J (f b s a s') s') (as : List α) (b : β) (s t : σ)
    (hs : J b s) (hr : M.run s as = some t) : J (M.observe f b s as) t :=
  inv_observe_along (fun b s a s' hJ _ => hstep b s a s' hJ) as b s t hs
    (along_of_forall fun _ _ _ _ _ _ => trivial) hr

/-- **Invariant rule that speaks of the labels so far.** -/
theorem inv_history {J : List α → σ → Prop}
    (hstep : ∀ pre s a s', J pre s → C s a → M.step s a = some s' → J (pre ++ [a]) s') :
    ∀ as s t, J [] s → M.Along C s as → M.run s as = some t → J as t := by
  suffices h : ∀ as pre s t, J pre s → M.Along C s as → M.run s as = some t → J (pre ++ as) t from
    fun as s t => h as [] s t
  intro as
  induction as with
  | nil =>
    intro pre s t hs _ hr
    obtain rfl := Option.some.inj hr
    rwa [List.append_nil]
  | cons a as ih =>
    intro pre s t hs hC hr
    obtain ⟨s', h1, h2⟩ := M.run_cons_iff.1 hr
    have hrest := ih (pre ++ [a]) s' t (hstep pre s a s' hs hC.1 h1) (hC.2 s' h1) h2
    rwa [List.append_assoc] at hrest

/-- **Simulation.** If each step of `M` is matched by a run of `N`, so is each run. -/
theorem simulate {N : Machine τ β} {R : σ → τ → Prop}
    (hstep : ∀ s a s' u, R s u → C s a → M.step s a = some s' →
      ∃ bs u', N.run u bs = some u' ∧ R s' u') :
    ∀ as s s' u, R s u → M.Along C s as → M.run s as = some s' →
      ∃ bs u', N.run u bs = some u' ∧ R s' u' := by
  intro as
  induction as with
  | nil =>
    intro s s' u hR _ hr
    simp only [run_nil, Option.some.injEq] at hr
    exact ⟨[], u, rfl, hr ▸ hR⟩
  | cons a as ih =>
    intro s s' u hR hC hr
    obtain ⟨s₁, h1, h2⟩ := M.run_cons_iff.1 hr
    obtain ⟨bs, u₁, hb, hR₁⟩ := hstep s a s₁ u hR hC.1 h1
    obtain ⟨cs, u₂, hc, hR₂⟩ := ih s₁ s' u₁ hR₁ (hC.2 s₁ h1) h2
    exact ⟨bs ++ cs, u₂, N.run_append_iff.2 ⟨u₁, hb, hc⟩, hR₂⟩

/-- **Simulation in lockstep.** If each step of `M` is a step of `N` too, under the same
label, so is each run. -/
theorem lockstep {N : Machine τ α} {R : σ → τ → Prop}
    (hstep : ∀ s a s' u, R s u → C s a → M.step s a = some s' → ∃ u', N.step u a = some u' ∧ R s' u') :
    ∀ as s s' u, R s u → M.Along C s as → M.run s as = some s' → ∃ u', N.run u as = some u' ∧ R s' u' := by
  intro as
  induction as with
  | nil =>
    intro s s' u hR _ hr
    simp only [run_nil, Option.some.injEq] at hr
    exact ⟨u, rfl, hr ▸ hR⟩
  | cons a as ih =>
    intro s s' u hR hC hr
    obtain ⟨s₁, h1, h2⟩ := M.run_cons_iff.1 hr
    obtain ⟨u₁, hu₁, hR₁⟩ := hstep s a s₁ u hR hC.1 h1
    obtain ⟨u', hu', hR'⟩ := ih s₁ s' u₁ hR₁ (hC.2 s₁ h1) h2
    exact ⟨u', N.run_cons_iff.2 ⟨u₁, hu₁, hu'⟩, hR'⟩

/-- **Two machines with the same steps**, from states that `I` speaks of, where the labels of
the second say less. -/
theorem run_congr {N : Machine σ β} {g : β → α} (hinv : ∀ s a s', I s → C s a → M.step s a = some s' → I s')
    (hsame : ∀ s b, I s → C s (g b) → N.step s b = M.step s (g b)) :
    ∀ {s : σ} (bs : List β), I s → M.Along C s (bs.map g) → N.run s bs = M.run s (bs.map g) := by
  intro s bs
  induction bs generalizing s with
  | nil => exact fun _ _ => rfl
  | cons b bs ih =>
    intro hs hC
    rw [List.map_cons, run, run, hsame s b hs hC.1]
    cases hstep : M.step s (g b) with
    | none => rfl
    | some s' =>
      rw [Option.bind_some, Option.bind_some]
      exact ih (hinv s (g b) s' hs hC.1 hstep) (hC.2 s' hstep)

end Machine

/-! ## Loops that are logged -/

section Loops

variable {σ ι ε : Type*} (f : σ → ι → σ) (g : σ → ι → List ε)

/-- What the turns of a loop add to a log, where the turn of `x` from `s` adds `g s x`. -/
def foldLog : σ → List ι → List ε
  | _, [] => []
  | s, x :: xs => g s x ++ foldLog (f s x) xs

variable {f g}

/-- **Rule for a logged loop** that speaks of the turns done. -/
theorem foldLog_done {J : List ι → List ε → σ → Prop}
    (hturn : ∀ ys log s x, J ys log s → J (ys ++ [x]) (log ++ g s x) (f s x)) (xs : List ι) (ys : List ι)
    {log : List ε} {s : σ} (hs : J ys log s) : J (ys ++ xs) (log ++ foldLog f g s xs) (xs.foldl f s) := by
  induction xs generalizing ys log s with
  | nil => rwa [foldLog, List.append_nil, List.append_nil]
  | cons x xs ih =>
    have hrest := ih (ys ++ [x]) (hturn ys log s x hs)
    rwa [List.append_assoc, List.append_assoc] at hrest

/-- **Rule for a logged loop.** -/
theorem foldLog_rule {J : List ε → σ → Prop} (hturn : ∀ log s x, J log s → J (log ++ g s x) (f s x)) (xs : List ι)
    (log : List ε) (s : σ) (hs : J log s) : J (log ++ foldLog f g s xs) (xs.foldl f s) :=
  foldLog_done (J := fun _ => J) (fun _ => hturn) xs [] hs

end Loops

end Lts

import Mathlib.Logic.Relation
import RType.Lib.Machine

/-!
# Programs with lock guards

Threads run programs that take mutexes by lock guards, so what a thread holds is nested.
A mutex is taken when it is free and released at the end of its scope; nothing else of a
program matters here.

* `Prog.Above`: a program takes its mutexes in the order of their ranks.
* `tidy_step`: a thread holds what the ends of scopes on its stack say, in that order.
* `Tidy.not_relocked`, `Tidy.not_deadlocked`: **then no thread waits for a mutex of its own, and no
  threads wait for each other in a circle.**
* `Tidy.exists_next`: some thread can go on while one has something left to do.
-/

namespace Locks

open Lts

variable {M ι : Type*}

/-- A program, as far as mutexes go. `locking m p` holds a guard on `m` for the scope `p`. -/
inductive Prog (M : Type*)
  | skip
  | locking (m : M) (body : Prog M)
  | seq (p q : Prog M)
  | choice (p q : Prog M)
  | many (p : Prog M)

namespace Prog

/-- A section under one mutex that takes no other. -/
def locked (m : M) : Prog M := locking m skip

/-- A branch that may be left out. -/
def opt (p : Prog M) : Prog M := choice p skip

/-- One program for each element of a list. -/
def each {α : Type*} (xs : List α) (f : α → Prog M) : Prog M := xs.foldr (fun x p => (f x).seq p) skip

/-- Try the elements in order, up to one where the search ends with `found`. -/
def search {α : Type*} (xs : List α) (test found : α → Prog M) : Prog M :=
  xs.foldr (fun x p => (test x).seq ((found x).choice p)) skip

/-- Mutexes are taken in the order of their ranks, from `n` on. -/
def Above (rank : M → ℕ) : ℕ → Prog M → Prop
  | _, skip => True
  | n, locking m p => n ≤ rank m ∧ Above rank (rank m + 1) p
  | n, seq p q => Above rank n p ∧ Above rank n q
  | n, choice p q => Above rank n p ∧ Above rank n q
  | n, many p => Above rank n p

variable {rank : M → ℕ} {n k : ℕ}

theorem Above.mono {p : Prog M} (h : p.Above rank n) (hk : k ≤ n) : p.Above rank k := by
  induction p with
  | skip => trivial
  | locking m p => exact ⟨Nat.le_trans hk h.1, h.2⟩
  | seq p q ihp ihq => exact ⟨ihp h.1, ihq h.2⟩
  | choice p q ihp ihq => exact ⟨ihp h.1, ihq h.2⟩
  | many p ih => exact ih h

theorem above_locked {m : M} (h : n ≤ rank m) : (locked m).Above rank n := ⟨h, trivial⟩

theorem Above.opt {p : Prog M} (h : p.Above rank n) : p.opt.Above rank n := ⟨h, trivial⟩

theorem Above.each {α : Type*} {f : α → Prog M} (h : ∀ x, (f x).Above rank n) (xs : List α) :
    (each xs f).Above rank n := by
  induction xs with
  | nil => trivial
  | cons x xs ih => exact ⟨h x, ih⟩

theorem Above.search {α : Type*} {test found : α → Prog M} (htest : ∀ x, (test x).Above rank n)
    (hfound : ∀ x, (found x).Above rank n) (xs : List α) : (search xs test found).Above rank n := by
  induction xs with
  | nil => trivial
  | cons x xs ih => exact ⟨htest x, hfound x, ih⟩

end Prog

/-! ## Threads -/

/-- What a thread has left to do: programs to run, and guards to drop at the ends of scopes. -/
inductive Item (M : Type*)
  | run (p : Prog M)
  | release (m : M)

/-- The threads, and the holder of each mutex. -/
structure Threads (M : Type*) where
  stack : ℕ → List (Item M)
  holder : M → Option ℕ

/-- A thread starts a call, or takes a step; `b` decides its branches and loops. -/
inductive Label (ι : Type*)
  | call (t : ℕ) (op : ι)
  | step (t : ℕ) (b : Bool)

namespace Threads

/-- Nobody runs, nothing is held. -/
def init : Threads M := ⟨fun _ => [], fun _ => none⟩

/-- Thread `t` goes on with `k`. -/
def goOn (s : Threads M) (t : ℕ) (k : List (Item M)) : Threads M :=
  { s with stack := Function.update s.stack t k }

variable [DecidableEq M]

/-- One step of thread `t`. -/
def stepThread (s : Threads M) (t : ℕ) (b : Bool) : Option (Threads M) :=
  match s.stack t with
  | [] => none
  | .run .skip :: k => some (s.goOn t k)
  | .run (.locking m p) :: k =>
    if s.holder m = none then
      some { s.goOn t (.run p :: .release m :: k) with holder := Function.update s.holder m (some t) }
    else none
  | .run (.seq p q) :: k => some (s.goOn t (.run p :: .run q :: k))
  | .run (.choice p q) :: k => some (s.goOn t (.run (if b then p else q) :: k))
  | .run (.many p) :: k => some (s.goOn t (if b then .run p :: .run (.many p) :: k else k))
  | .release m :: k => some { s.goOn t k with holder := Function.update s.holder m none }

/-- The threads as a machine: any thread may make any call when it has nothing to do. -/
def machine (prog : ι → Prog M) : Machine (Threads M) (Label ι) where
  step
    | s, .call t op => if (s.stack t).isEmpty then some (s.goOn t [.run (prog op)]) else none
    | s, .step t b => s.stepThread t b

end Threads

/-- The next thing thread `t` does is to take `m`. -/
def Wants (s : Threads M) (t : ℕ) (m : M) : Prop := ∃ p k, s.stack t = .run (.locking m p) :: k

/-- `t` waits for a mutex that `u` holds. -/
def WaitsFor (s : Threads M) (t u : ℕ) : Prop := ∃ m, Wants s t m ∧ s.holder m = some u

/-! ## Ordered stacks -/

/-- The rank from which on a thread with this stack may take mutexes. -/
def bound (rank : M → ℕ) : List (Item M) → ℕ
  | [] => 0
  | .run _ :: k => bound rank k
  | .release m :: _ => rank m + 1

/-- The stack takes and holds mutexes in the order of their ranks. -/
def Ordered (rank : M → ℕ) : List (Item M) → Prop
  | [] => True
  | .run p :: k => p.Above rank (bound rank k) ∧ Ordered rank k
  | .release m :: k => bound rank k ≤ rank m ∧ Ordered rank k

variable {rank : M → ℕ}

/-- What is held has a rank below the bound. -/
theorem rank_lt_bound {k : List (Item M)} (h : Ordered rank k) {m : M} (hm : .release m ∈ k) :
    rank m < bound rank k := by
  induction k with
  | nil => cases hm
  | cons i k ih =>
    cases i with
    | run p =>
      rcases List.mem_cons.1 hm with he | hm
      · cases he
      · exact ih h.2 hm
    | release m' =>
      rcases List.mem_cons.1 hm with he | hm
      · obtain rfl := Item.release.inj he
        exact Nat.lt_succ_self _
      · exact Nat.lt_of_lt_of_le (ih h.2 hm) (Nat.le_succ_of_le h.1)

/-- **What holds between two steps.** -/
structure Tidy (rank : M → ℕ) (s : Threads M) : Prop where
  ordered : ∀ t, Ordered rank (s.stack t)
  held : ∀ m t, s.holder m = some t → .release m ∈ s.stack t
  holds : ∀ t m, .release m ∈ s.stack t → s.holder m = some t

theorem tidy_init : Tidy rank (Threads.init : Threads M) :=
  ⟨fun _ => trivial, fun _ _ h => (nomatch h), fun _ _ h => (nomatch h)⟩

/-- A thread goes on without taking or dropping a mutex. -/
theorem Tidy.goOn {s : Threads M} (h : Tidy rank s) {t : ℕ} {k : List (Item M)} (hk : Ordered rank k)
    (hrel : ∀ m, .release m ∈ k ↔ .release m ∈ s.stack t) : Tidy rank (s.goOn t k) := by
  have hstack : ∀ u m, .release m ∈ (s.goOn t k).stack u ↔ .release m ∈ s.stack u := by
    intro u m
    unfold Threads.goOn
    by_cases hu : u = t
    · subst hu
      simp only [Function.update_self]
      exact hrel m
    · simp only [Function.update_of_ne hu]
  refine ⟨fun u => ?_, fun m u hm => (hstack u m).2 (h.held m u hm), fun u m hm => h.holds u m ((hstack u m).1 hm)⟩
  unfold Threads.goOn
  by_cases hu : u = t
  · subst hu
    simpa only [Function.update_self] using hk
  · simpa only [Function.update_of_ne hu] using h.ordered u

variable [DecidableEq M] {prog : ι → Prog M}

/-- A thread takes a mutex that is free. -/
theorem Tidy.acquire {s : Threads M} (h : Tidy rank s) {t : ℕ} {m : M} {p : Prog M} {k : List (Item M)}
    (hs : s.stack t = .run (.locking m p) :: k) (hfree : s.holder m = none) :
    Tidy rank { s.goOn t (.run p :: .release m :: k) with holder := Function.update s.holder m (some t) } := by
  have hord : Ordered rank (.run (.locking m p) :: k) := hs ▸ h.ordered t
  have hstack : ∀ u, u ≠ t → (s.goOn t (.run p :: .release m :: k)).stack u = s.stack u :=
    fun u hu => Function.update_of_ne hu _ _
  have hself : (s.goOn t (.run p :: .release m :: k)).stack t = .run p :: .release m :: k :=
    Function.update_self _ _ _
  refine ⟨fun u => ?_, fun m' u hm => ?_, fun u m' hm => ?_⟩
  · by_cases hu : u = t
    · subst hu
      rw [hself]
      exact ⟨hord.1.2, hord.1.1, hord.2⟩
    · rw [hstack u hu]
      exact h.ordered u
  · -- the new holder has the end of the scope on its stack
    by_cases he : m' = m
    · subst he
      simp only [Function.update_self, Option.some.injEq] at hm
      subst hm
      rw [hself]
      exact List.mem_cons_of_mem _ List.mem_cons_self
    · simp only [Function.update_of_ne he] at hm
      have hheld := h.held m' u hm
      by_cases hu : u = t
      · subst hu
        rw [hself]
        rw [hs] at hheld
        rcases List.mem_cons.1 hheld with hrun | hk
        · cases hrun
        · exact List.mem_cons_of_mem _ (List.mem_cons_of_mem _ hk)
      · rw [hstack u hu]
        exact hheld
  · -- a mutex held before is another one, since this one was free
    by_cases hu : u = t
    · subst hu
      rw [hself] at hm
      rcases List.mem_cons.1 hm with hrun | hm
      · cases hrun
      · rcases List.mem_cons.1 hm with he | hk
        · obtain rfl := Item.release.inj he
          exact Function.update_self _ _ _
        · have hold := h.holds u m' (hs ▸ List.mem_cons_of_mem _ hk)
          have hne : m' ≠ m := fun he => by rw [he, hfree] at hold; cases hold
          exact (Function.update_of_ne hne _ _).trans hold
    · rw [hstack u hu] at hm
      have hold := h.holds u m' hm
      have hne : m' ≠ m := fun he => by rw [he, hfree] at hold; cases hold
      exact (Function.update_of_ne hne _ _).trans hold

/-- A thread drops its newest guard. -/
theorem Tidy.release {s : Threads M} (h : Tidy rank s) {t : ℕ} {m : M} {k : List (Item M)}
    (hs : s.stack t = .release m :: k) :
    Tidy rank { s.goOn t k with holder := Function.update s.holder m none } := by
  have hord : Ordered rank (.release m :: k) := hs ▸ h.ordered t
  have hstack : ∀ u, u ≠ t → (s.goOn t k).stack u = s.stack u := fun u hu => Function.update_of_ne hu _ _
  have hself : (s.goOn t k).stack t = k := Function.update_self _ _ _
  have hmine : s.holder m = some t := h.holds t m (hs ▸ List.mem_cons_self)
  -- the mutex is held once only
  have honce : .release m ∉ k := fun hk => absurd (rank_lt_bound hord.2 hk) (Nat.not_lt_of_le hord.1)
  refine ⟨fun u => ?_, fun m' u hm => ?_, fun u m' hm => ?_⟩
  · by_cases hu : u = t
    · subst hu
      rw [hself]
      exact hord.2
    · rw [hstack u hu]
      exact h.ordered u
  · by_cases he : m' = m
    · subst he
      simp only [Function.update_self] at hm
      cases hm
    · simp only [Function.update_of_ne he] at hm
      have hheld := h.held m' u hm
      by_cases hu : u = t
      · subst hu
        rw [hself]
        rw [hs] at hheld
        rcases List.mem_cons.1 hheld with he' | hk
        · exact absurd (Item.release.inj he') he
        · exact hk
      · rw [hstack u hu]
        exact hheld
  · have hne : m' ≠ m := by
      rintro rfl
      by_cases hu : u = t
      · subst hu
        rw [hself] at hm
        exact honce hm
      · rw [hstack u hu] at hm
        exact hu (Option.some.inj ((h.holds u m' hm).symm.trans hmine))
    refine (Function.update_of_ne hne _ _).trans ?_
    by_cases hu : u = t
    · subst hu
      rw [hself] at hm
      exact h.holds u m' (hs ▸ List.mem_cons_of_mem _ hm)
    · rw [hstack u hu] at hm
      exact h.holds u m' hm

/-- **A step of one thread.** -/
theorem tidy_stepThread {s s' : Threads M} {t : ℕ} {b : Bool} (h : Tidy rank s) (hs : s.stepThread t b = some s') :
    Tidy rank s' := by
  unfold Threads.stepThread at hs
  split at hs
  · cases hs
  · rename_i k hk
    obtain rfl := Option.some.inj hs
    have hord := hk ▸ h.ordered t
    exact h.goOn hord.2 fun m => by simp [hk]
  · rename_i m p k hk
    split at hs
    · rename_i hfree
      obtain rfl := Option.some.inj hs
      exact h.acquire hk hfree
    · cases hs
  · rename_i p q k hk
    obtain rfl := Option.some.inj hs
    have hord := hk ▸ h.ordered t
    exact h.goOn ⟨hord.1.1, hord.1.2, hord.2⟩ fun m => by simp [hk]
  · rename_i p q k hk
    obtain rfl := Option.some.inj hs
    have hord := hk ▸ h.ordered t
    refine h.goOn ⟨?_, hord.2⟩ fun m => by simp [hk]
    split
    · exact hord.1.1
    · exact hord.1.2
  · rename_i p k hk
    obtain rfl := Option.some.inj hs
    have hord := hk ▸ h.ordered t
    refine h.goOn ?_ fun m => ?_
    · split
      · exact ⟨hord.1, hord.1, hord.2⟩
      · exact hord.2
    · split <;> simp [hk]
  · rename_i m k hk
    obtain rfl := Option.some.inj hs
    exact h.release hk

/-- **Every step.** -/
theorem tidy_step (hprog : ∀ op, (prog op).Above rank 0) (s : Threads M) (l : Label ι) (s' : Threads M)
    (h : Tidy rank s) (hs : (Threads.machine prog).step s l = some s') : Tidy rank s' := by
  cases l with
  | call t op =>
    simp only [Threads.machine] at hs
    split at hs
    · rename_i hempty
      have hnil : s.stack t = [] := List.isEmpty_iff.1 hempty
      obtain rfl := Option.some.inj hs
      exact h.goOn ⟨hprog op, trivial⟩ fun m => by simp [hnil]
    · cases hs
  | step t b => exact tidy_stepThread h hs

theorem tidy_run (hprog : ∀ op, (prog op).Above rank 0) {labels : List (Label ι)} {s : Threads M}
    (hs : (Threads.machine prog).run .init labels = some s) : Tidy rank s :=
  Machine.inv_run (tidy_step hprog) labels _ s tidy_init hs

/-! ## No deadlock -/

omit [DecidableEq M] in
/-- What a thread wants ranks above all it holds. -/
theorem Tidy.rank_lt_of_wants {s : Threads M} (h : Tidy rank s) {t : ℕ} {m m' : M} (hw : Wants s t m)
    (hm : s.holder m' = some t) : rank m' < rank m := by
  obtain ⟨p, k, hk⟩ := hw
  have hord : Ordered rank (.run (.locking m p) :: k) := hk ▸ h.ordered t
  have hheld := h.held m' t hm
  rw [hk] at hheld
  rcases List.mem_cons.1 hheld with he | hmem
  · cases he
  · exact Nat.lt_of_lt_of_le (rank_lt_bound hord.2 hmem) hord.1.1

omit [DecidableEq M] in
/-- **No thread waits for a mutex of its own.** -/
theorem Tidy.not_relocked {s : Threads M} (h : Tidy rank s) {t : ℕ} {m : M} (hw : Wants s t m) :
    s.holder m ≠ some t :=
  fun hm => Nat.lt_irrefl _ (h.rank_lt_of_wants hw hm)

omit [DecidableEq M] in
/-- Along a chain of waiting threads the wanted ranks rise. -/
theorem Tidy.rank_lt_of_chain {s : Threads M} (h : Tidy rank s) {t u : ℕ} (hc : Relation.TransGen (WaitsFor s) t u)
    {m' : M} (hw : Wants s u m') : ∃ m, Wants s t m ∧ rank m < rank m' := by
  induction hc using Relation.TransGen.head_induction_on with
  | single hwait =>
    obtain ⟨m, hm, hholder⟩ := hwait
    exact ⟨m, hm, h.rank_lt_of_wants hw hholder⟩
  | head hwait _ ih =>
    obtain ⟨m₁, hm₁, hlt⟩ := ih
    obtain ⟨m, hm, hholder⟩ := hwait
    exact ⟨m, hm, Nat.lt_trans (h.rank_lt_of_wants hm₁ hholder) hlt⟩

omit [DecidableEq M] in
/-- **No circle of waiting threads.** -/
theorem Tidy.not_deadlocked {s : Threads M} (h : Tidy rank s) (t : ℕ) : ¬ Relation.TransGen (WaitsFor s) t t := by
  intro hc
  obtain ⟨u, ⟨m, ⟨p, k, hk⟩, hholder⟩, hrest⟩ := Relation.TransGen.head'_iff.1 hc
  obtain ⟨m', ⟨p', k', hk'⟩, hlt⟩ := h.rank_lt_of_chain hc ⟨p, k, hk⟩
  rw [hk] at hk'
  simp only [List.cons.injEq, Item.run.injEq, Prog.locking.injEq] at hk'
  rw [hk'.1.1] at hlt
  exact Nat.lt_irrefl _ hlt

/-- **Somebody can go on.** If the ranks are bounded, a thread with something left to do leads
to one that can take a step. -/
theorem Tidy.exists_next {s : Threads M} (h : Tidy rank s) {N : ℕ} (hN : ∀ m, rank m < N) {t : ℕ}
    (ht : s.stack t ≠ []) : ∃ u, ∀ b, (s.stepThread u b).isSome := by
  by_contra hnone
  -- every thread that has something to do waits for one that wants more
  have hwaits : ∀ u, s.stack u ≠ [] → ∃ m, Wants s u m ∧ s.holder m ≠ none := by
    intro u hu
    by_contra hw
    refine hnone ⟨u, fun b => ?_⟩
    unfold Threads.stepThread
    split
    · rename_i hnil
      exact absurd hnil hu
    · rfl
    · rename_i m p k hk
      have hfree : s.holder m = none := by
        by_contra hheld
        exact hw ⟨m, ⟨p, k, hk⟩, hheld⟩
      rw [if_pos hfree]
      rfl
    · rfl
    · rfl
    · rfl
    · rfl
  have hclimb : ∀ n, ∃ u m, Wants s u m ∧ s.holder m ≠ none ∧ n ≤ rank m := by
    intro n
    induction n with
    | zero =>
      obtain ⟨m, hm, hheld⟩ := hwaits t ht
      exact ⟨t, m, hm, hheld, Nat.zero_le _⟩
    | succ n ih =>
      obtain ⟨u, m, -, hheld, hn⟩ := ih
      obtain ⟨v, hv⟩ := Option.ne_none_iff_exists'.1 hheld
      have hbusy : s.stack v ≠ [] := List.ne_nil_of_mem (h.held m v hv)
      obtain ⟨m', hm', hheld'⟩ := hwaits v hbusy
      exact ⟨v, m', hm', hheld', Nat.lt_of_le_of_lt hn (h.rank_lt_of_wants hm' hv)⟩
  obtain ⟨u, m, -, -, hle⟩ := hclimb N
  exact absurd (hN m) (Nat.not_lt_of_le hle)

end Locks

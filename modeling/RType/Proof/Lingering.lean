import Mathlib.Tactic.Linarith
import Mathlib.Tactic.NormNum
import RType.Proof.EntitySteps
import RType.Proof.NewRooms

/-!
# Nothing lingers

Beside the boss, every entity moves with the horizontal speed it was made with, towards one
end of the screen. `updateEntities` erases what is off the screen.

* `Entity.Leaving`: the number of updates an entity has left.
* `Entity.Newborn.leaving`: an enemy that has just been made has 389, and nothing has more.
* `nothing_lingers`: after 389 updates an entity is gone, and the list holds bosses that were
  there before and what has been made since.
-/

namespace RType

open Lts

variable {F : Type*} [ExactOps F]

/-! ## Off the screen -/

namespace Entity

/-- Where `updateEntities` erases an entity. -/
def Off (x : F) : Prop := 1920 < x ∨ x < -20

theorem leaves_of_off {e : Entity F} (h : Off e.x) : e.leaves = true := by
  unfold leaves
  push_cast
  rcases h with h | h
  · rw [decide_eq_true h]
    rfl
  · rw [decide_eq_true h, Bool.or_true, Bool.true_or]

/-- The entity is off the screen in one of the next `n` updates, if it keeps its speed. -/
def Leaving (n : ℕ) (e : Entity F) : Prop := ∃ m : ℕ, 1 ≤ m ∧ m ≤ n ∧ Off (e.x + m * e.velocityX)

theorem Leaving.pos {n : ℕ} {e : Entity F} (h : e.Leaving n) : 0 < n := by
  obtain ⟨m, hm, hn, -⟩ := h
  omega

/-- **An update brings it nearer to the end of the screen.** -/
theorem Leaving.advance {n : ℕ} {e : Entity F} (h : e.Leaving n) (hstays : e.advance.leaves = false) :
    e.advance.Leaving (n - 1) := by
  obtain ⟨m, hm, hn, hoff⟩ := h
  have hmoved : ∀ k : ℕ, e.advance.x + k * e.advance.velocityX = e.x + (k + 1 : ℕ) * e.velocityX := by
    intro k
    change e.x + e.velocityX + k * e.velocityX = _
    push_cast
    ring
  rcases Nat.lt_or_ge 1 m with hlater | hnow
  · refine ⟨m - 1, by omega, by omega, ?_⟩
    rwa [hmoved, Nat.sub_add_cancel hm]
  · -- it would have been erased
    obtain rfl : m = 1 := by omega
    have hoff' : Off e.advance.x := by
      have hzero := hmoved 0
      rw [Nat.cast_zero, zero_mul, add_zero] at hzero
      rwa [hzero]
    rw [leaves_of_off hoff'] at hstays
    cases hstays

theorem Leaving.altered {n : ℕ} {e e' : Entity F} (h : e.Leaving n) (htype : e.type ≠ 10) (ha : e.Altered e') :
    e'.Leaving n := by
  have hspeed : e'.velocityX = e.velocityX := by
    rcases ha.velocityX with hsame | ⟨hboss, -⟩
    · exact hsame
    · exact absurd hboss htype
  obtain ⟨m, hm, hn, hoff⟩ := h
  refine ⟨m, hm, hn, ?_⟩
  rwa [ha.x, hspeed]

/-- From anywhere on the line, what moves to the right is off the screen at once or within the
time it takes to cross it. -/
theorem off_of_right {x v : F} (hv : 10 ≤ v) : Off (x + (1 : ℕ) * v) ∨ Off (x + (196 : ℕ) * v) := by
  by_cases hoff : Off (x + (1 : ℕ) * v)
  · exact .inl hoff
  · right
    left
    have hin : -20 ≤ x + (1 : ℕ) * v := by
      by_contra hleft
      exact hoff (.inr (not_le.1 hleft))
    push_cast at hin ⊢
    linarith

theorem off_of_left {x v : F} (hv : v ≤ -15) : Off (x + (1 : ℕ) * v) ∨ Off (x + (131 : ℕ) * v) := by
  by_cases hoff : Off (x + (1 : ℕ) * v)
  · exact .inl hoff
  · right
    right
    have hin : x + (1 : ℕ) * v ≤ 1920 := by
      by_contra hright
      exact hoff (.inl (not_le.1 hright))
    push_cast at hin ⊢
    linarith

/-- **The lifetimes**: at most 389 updates. -/
theorem Newborn.leaving {e : Entity F} (h : e.Newborn) (htype : e.type ≠ 10) : e.Leaving 389 := by
  have hcross : ∀ {n : ℕ}, 1 ≤ n → n ≤ 389 → Off (e.x + (1 : ℕ) * e.velocityX) ∨ Off (e.x + (n : ℕ) * e.velocityX) →
      e.Leaving 389 := by
    intro n hpos hn hoff
    rcases hoff with hoff | hoff
    · exact ⟨1, le_rfl, by omega, hoff⟩
    · exact ⟨n, hpos, hn, hoff⟩
  cases h with
  | shot id x y => exact hcross (n := 196) (by omega) (by omega) (off_of_right (by norm_num))
  | chargedShot id x y => exact hcross (n := 196) (by omega) (by omega) (off_of_right (by norm_num))
  | enemy id y =>
    -- 388 updates take it to -20
    refine ⟨389, by omega, le_rfl, .inr ?_⟩
    norm_num
  | fastEnemy id y =>
    refine ⟨389, by omega, le_rfl, .inr ?_⟩
    norm_num
  | boss id => exact absurd rfl htype
  | bossShot id x y vy => exact hcross (n := 131) (by omega) (by omega) (off_of_left (by norm_num))

end Entity

namespace GameThreads

variable {boss : Boss F} {now : ℕ} {before after : List (Label F)} {s t : GameThreads F}

/-- At any time, an entity has at most 389 updates left. -/
theorem leaving_run (h : machine.run (init boss now) before = some s) :
    ∀ e ∈ s.room.game.entities, e.type ≠ 10 → e.Leaving 389 := by
  refine entities_rule (P := fun e : Entity F => e.type ≠ 10 → e.Leaving 389) ?_ ?_ ?_ h
  · exact fun e hborn htype => hborn.leaving htype
  · intro e e' he ha htype
    rw [ha.type] at htype
    exact (he htype).altered htype ha
  · intro e he hstays htype
    obtain ⟨m, hm, hn, hoff⟩ := (he htype).advance hstays
    exact ⟨m, hm, by omega, hoff⟩

/-- An entity that is followed keeps its type, and its time runs down. -/
theorem place_leaving {i j : ℕ} {e : Entity F} (ht : machine.run s after = some t)
    (he : s.room.game.entities[i]? = some e) (hleaving : e.type ≠ 10 → e.Leaving 389) (hplace : s.place after i = some j) :
    ∃ e', t.room.game.entities[j]? = some e' ∧ e'.type = e.type ∧ (e.type ≠ 10 → e'.Leaving (389 - s.updates after)) := by
  let P : ℕ → Entity F → Prop := fun n e' => e'.type = e.type ∧ (e.type ≠ 10 → e'.Leaving (389 - n))
  have halter : ∀ n e₁ e₂, P n e₁ → Entity.Altered e₁ e₂ → P n e₂ := by
    rintro n e₁ e₂ ⟨htype, hleft⟩ ha
    refine ⟨ha.type.trans htype, fun hno => (hleft hno).altered ?_ ha⟩
    rwa [htype]
  have hmove : ∀ n e₁, P n e₁ → (Entity.advance e₁).leaves = false → P (n + 1) e₁.advance := by
    rintro n e₁ ⟨htype, hleft⟩ hstays
    exact ⟨htype, fun hno => (hleft hno).advance hstays⟩
  obtain ⟨e', he', htype, hleft⟩ := place_rule (n := 0) halter hmove ht he ⟨rfl, hleaving⟩ hplace
  rw [Nat.zero_add] at hleft
  exact ⟨e', he', htype, hleft⟩

/-- **Nothing lingers.** In the next 389 updates of a game, every entity that is no boss is
erased: what is still in the list is a boss, and all that comes behind it has been made in the
meantime. -/
theorem nothing_lingers (hs : machine.run (init boss now) before = some s) (ht : machine.run s after = some t)
    (hmany : 389 ≤ s.updates after) :
    (∀ (i : ℕ) e, s.room.game.entities[i]? = some e → e.type ≠ 10 → s.place after i = none) ∧
      ∃ old new, s.Evolved after t old new ∧ ∀ e ∈ old, e.type = 10 := by
  have herased : ∀ (i : ℕ) e, s.room.game.entities[i]? = some e → e.type ≠ 10 → s.place after i = none := by
    intro i e he htype
    by_contra hstays
    obtain ⟨j, hplace⟩ := Option.ne_none_iff_exists'.1 hstays
    have hleaving := leaving_run hs e (List.mem_of_getElem? he)
    obtain ⟨e', -, -, hleft⟩ := place_leaving ht he hleaving hplace
    have hpos := (hleft htype).pos
    omega
  obtain ⟨old, new, hevolved⟩ := evolved_run ht
  refine ⟨herased, old, new, hevolved, ?_⟩
  intro e he
  obtain ⟨j, hj, rfl⟩ := List.mem_iff_getElem.1 he
  obtain ⟨i, hi, hplace⟩ := hevolved.exists_place hj
  have hei : s.room.game.entities[i]? = some s.room.game.entities[i] := List.getElem?_eq_getElem hi
  obtain ⟨e', he', -, hsame⟩ := hevolved.same i j _ hei hplace
  obtain rfl := Option.some.inj ((List.getElem?_eq_getElem hj).symm.trans he')
  rw [hsame]
  by_contra htype
  rw [herased i _ hei htype] at hplace
  cases hplace

section Enemy

open ServerManager (still)

/-- An update in which an enemy is due. -/
def due : UpdateEnv := ⟨0, 3000000000, 3000000000, 0, 0⟩

/-- One player starts the game, and an enemy is made in the first update. -/
def oneEnemy : List (Label ℚ) := [.join 1 [], .start 1] ++ List.replicate 9 (.loop due)

/-- 389 updates, up to the moves of the last one. -/
def crossing : List (Label ℚ) := List.replicate (388 * 9 + 2) (.loop still)

/-- The enemy crosses the screen. -/
theorem nothing_lingers_crossing : ∃ s t, machine.run (init (Boss.none : Boss ℚ) 0) oneEnemy = some s ∧
    s.room.game.entities.map (·.type) = [2] ∧ machine.run s crossing = some t ∧ s.place crossing 0 = none ∧
    ∃ old new, s.Evolved crossing t old new ∧ ∀ e ∈ old, e.type = 10 := by
  obtain ⟨s, hs, htypes, hgone⟩ : ∃ s, machine.run (init (Boss.none : Boss ℚ) 0) oneEnemy = some s ∧
      s.room.game.entities.map (·.type) = [2] ∧ ((machine.run s crossing).isSome ∧ s.updates crossing = 389) := by
    refine ⟨_, rfl, ?_, ?_⟩
    · decide +kernel
    · decide +kernel
  obtain ⟨t, ht⟩ := Option.isSome_iff_exists.1 hgone.1
  obtain ⟨e, he, htype⟩ : ∃ e, s.room.game.entities[0]? = some e ∧ e.type = 2 := by
    have hfirst := congrArg (·[0]?) htypes
    simp only [List.getElem?_map, List.getElem?_cons_zero] at hfirst
    exact Option.map_eq_some_iff.1 hfirst
  have hno : e.type ≠ 10 := by
    rw [htype]
    decide
  obtain ⟨herased, hkept⟩ := nothing_lingers hs ht hgone.2.ge
  exact ⟨s, t, hs, htypes, ht, herased 0 e he hno, hkept⟩

end Enemy

end GameThreads

end RType

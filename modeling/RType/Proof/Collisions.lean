import Mathlib.Algebra.BigOperators.Group.List.Basic
import Mathlib.Algebra.Order.BigOperators.Group.List
import RType.Lib.Matching
import RType.Proof.Rooms

/-!
# Collisions as a matching

The projectile loops of `handleCollision` offer each pair of a projectile and an enemy once,
and take it if neither is flagged: a greedy matching, in which an enemy is spent by one hit and
a boss by as many as its HP takes.

* `Colliding.turn`: a turn of the inner loop is a step of the greedy matching.
* `collidePlayers_eq`: the player loops flag what touches a player, and nothing else.
* `collisions_maximal`: **what `handleCollision` hits is a maximal matching**, and all it
  changes are flags and the boss.
-/

namespace RType

open Lts Matching

variable {F : Type*}

/-! ## Hits -/

namespace Entity

/-- Types 1 and 4. -/
def IsShot (e : Entity F) : Prop := e.type = 1 ∨ e.type = 4

/-- What a projectile can hit: types 2, 3 and 10. -/
def IsTarget (e : Entity F) : Prop := e.type = 2 ∨ e.type = 3 ∨ e.type = 10

/-- What is destroyed by a player: types 2, 3 and 11. -/
def IsHazard (e : Entity F) : Prop := e.type = 2 ∨ e.type = 3 ∨ e.type = 11

instance decidableIsShot (e : Entity F) : Decidable e.IsShot :=
  inferInstanceAs (Decidable (e.type = 1 ∨ e.type = 4))

instance decidableIsTarget (e : Entity F) : Decidable e.IsTarget :=
  inferInstanceAs (Decidable (e.type = 2 ∨ e.type = 3 ∨ e.type = 10))

instance decidableIsHazard (e : Entity F) : Decidable e.IsHazard :=
  inferInstanceAs (Decidable (e.type = 2 ∨ e.type = 3 ∨ e.type = 11))

/-- An entity but for its flag. -/
def unflagged (e : Entity F) : Entity F := { e with isCollide := false }

theorem unflagged_eq {e : Entity F} (h : e.isCollide = false) : e.unflagged = e := by
  rw [unflagged, ← h]

theorem type_of_unflagged {a b : Entity F} (h : a.unflagged = b.unflagged) : a.type = b.type := by
  change a.unflagged.type = b.unflagged.type
  rw [h]

theorem not_isTarget_of_isShot {e : Entity F} (h : e.IsShot) : ¬ e.IsTarget := by
  rcases h with h | h <;> rw [IsTarget, h] <;> decide

/-- `checkCollision` of two entities. -/
def overlaps [FloatOps F] (a b : Entity F) : Bool := checkCollision a.x a.y a.width a.height b.x b.y b.width b.height

/-- Where two entities are does not depend on their flags. -/
theorem overlaps_of_unflagged [FloatOps F] {a a' b b' : Entity F} (ha : a.unflagged = a'.unflagged)
    (hb : b.unflagged = b'.unflagged) : a.overlaps b = a'.overlaps b' := by
  change a.unflagged.overlaps b.unflagged = a'.unflagged.overlaps b'.unflagged
  rw [ha, hb]

end Entity

/-- `checkCollision` with the box of a player. -/
def Player.overlaps [FloatOps F] (p : Player F) (e : Entity F) : Bool :=
  checkCollision p.x p.y 60 30 e.x e.y e.width e.height

theorem Player.overlaps_of_unflagged [FloatOps F] {a b : Entity F} (h : a.unflagged = b.unflagged) (p : Player F) :
    p.overlaps a = p.overlaps b := by
  change p.overlaps a.unflagged = p.overlaps b.unflagged
  rw [h]

namespace Room

/-- What a hit takes from the boss. -/
def hitDamage (r : Room F) (h : ℕ × ℕ) : ℤ :=
  match r.game.entities[h.1]?, r.game.entities[h.2]? with
  | some projectile, some enemy => if enemy.type = 10 then (if projectile.type = 4 then 50 else 10) else 0
  | _, _ => 0

/-- What hits take from the boss. -/
def bossDamage (r : Room F) (hits : List (ℕ × ℕ)) : ℤ := (hits.map r.hitDamage).sum

/-- An enemy that can no longer be hit: it has been hit, or is a boss whose HP is exhausted. -/
def Spent (r : Room F) (hits : List (ℕ × ℕ)) (j : ℕ) : Prop :=
  ∃ e, r.game.entities[j]? = some e ∧ if e.type = 10 then r.boss.hp ≤ r.bossDamage hits else j ∈ hits.map Prod.snd

theorem hitDamage_nonneg (r : Room F) (h : ℕ × ℕ) : 0 ≤ r.hitDamage h := by
  unfold hitDamage
  split
  · split
    · split <;> decide
    · exact le_rfl
  · exact le_rfl

theorem bossDamage_snoc (r : Room F) (hits : List (ℕ × ℕ)) (h : ℕ × ℕ) :
    r.bossDamage (hits ++ [h]) = r.bossDamage hits + r.hitDamage h := by
  rw [bossDamage, List.map_append, List.sum_append, List.map_singleton, List.sum_singleton]
  rfl

theorem Spent.snoc {r : Room F} {hits : List (ℕ × ℕ)} {j : ℕ} (h : r.Spent hits j) (p : ℕ × ℕ) :
    r.Spent (hits ++ [p]) j := by
  obtain ⟨e, he, hspent⟩ := h
  refine ⟨e, he, ?_⟩
  split at hspent
  · rename_i hboss
    rw [if_pos hboss, bossDamage_snoc]
    have := r.hitDamage_nonneg p
    omega
  · rename_i hboss
    rw [if_neg hboss, List.map_append]
    exact List.mem_append_left _ hspent

/-- A hit on an enemy that is no boss takes nothing from the boss, and spends the enemy. -/
theorem hitDamage_enemy {r : Room F} {i j : ℕ} {enemy : Entity F} (henemy : r.game.entities[j]? = some enemy)
    (htype : enemy.type ≠ 10) : r.hitDamage (i, j) = 0 := by
  unfold hitDamage
  rw [henemy]
  split
  · rename_i he
    obtain rfl := Option.some.inj he
    exact if_neg htype
  · rfl

theorem spent_snoc_enemy {r : Room F} {hits : List (ℕ × ℕ)} {i j k : ℕ} {enemy : Entity F}
    (henemy : r.game.entities[j]? = some enemy) (htype : enemy.type ≠ 10) :
    r.Spent (hits ++ [(i, j)]) k ↔ r.Spent hits k ∨ k = j := by
  constructor
  · rintro ⟨e, he, hspent⟩
    split at hspent
    · rename_i hboss
      rw [bossDamage_snoc, hitDamage_enemy henemy htype, add_zero] at hspent
      exact .inl ⟨e, he, by rwa [if_pos hboss]⟩
    · rename_i hboss
      rw [List.map_append, List.mem_append] at hspent
      refine hspent.imp (fun hk => ⟨e, he, by rwa [if_neg hboss]⟩) fun hk => List.mem_singleton.1 hk
  · rintro (h | rfl)
    · exact h.snoc _
    · refine ⟨enemy, henemy, ?_⟩
      rw [if_neg htype, List.map_append]
      exact List.mem_append_right _ List.mem_cons_self

/-- A hit on the only boss takes from its HP. -/
theorem spent_snoc_boss {r : Room F} {hits : List (ℕ × ℕ)} {i j k : ℕ} {enemy : Entity F}
    (henemy : r.game.entities[j]? = some enemy) (htype : enemy.type = 10)
    (hone : ∀ (k : ℕ) e, r.game.entities[k]? = some e → e.type = 10 → k = j) :
    r.Spent (hits ++ [(i, j)]) k ↔
      r.Spent hits k ∨ k = j ∧ r.boss.hp ≤ r.bossDamage hits + r.hitDamage (i, j) := by
  constructor
  · rintro ⟨e, he, hspent⟩
    split at hspent
    · rename_i hboss
      rw [bossDamage_snoc] at hspent
      exact .inr ⟨hone k e he hboss, hspent⟩
    · rename_i hboss
      rw [List.map_append, List.mem_append] at hspent
      rcases hspent with hk | hk
      · exact .inl ⟨e, he, by rwa [if_neg hboss]⟩
      · -- the boss itself
        obtain rfl := List.mem_singleton.1 hk
        obtain rfl := Option.some.inj (he.symm.trans henemy)
        exact absurd htype hboss
  · rintro (h | ⟨rfl, hspent⟩)
    · exact h.snoc _
    · refine ⟨enemy, henemy, ?_⟩
      rwa [if_pos htype, bossDamage_snoc]

variable [FloatOps F]

/-- The projectile at `i` and the enemy at `j` overlap. -/
def Meets (r : Room F) (i j : ℕ) : Prop :=
  ∃ projectile enemy, r.game.entities[i]? = some projectile ∧ r.game.entities[j]? = some enemy ∧
    projectile.IsShot ∧ enemy.IsTarget ∧ projectile.overlaps enemy = true

/-- The hit in a turn of `collideProjectile`, by the places of the two in the list. -/
def hit (r : Room F) (i j : ℕ) : List (ℕ × ℕ) :=
  match r.game.entities[i]?, r.game.entities[j]? with
  | some projectile, some enemy =>
    if enemy.IsTarget ∧ (projectile.isCollide || enemy.isCollide) = false ∧ projectile.overlaps enemy = true then
      [(i, j)]
    else []
  | _, _ => []

/-- The hits in a turn of `collideProjectiles`. -/
def hitsOf (n : ℕ) (r : Room F) (i : ℕ) : List (ℕ × ℕ) :=
  match r.game.entities[i]? with
  | some projectile =>
    if projectile.type ≠ 1 ∧ projectile.type ≠ 4 then []
    else foldLog (fun r j => r.collideProjectile i j) (fun r j => r.hit i j) r (List.range n)
  | none => []

/-- The hits that `handleCollision` registers, in order. -/
def hits (r : Room F) : List (ℕ × ℕ) :=
  let n := r.game.entities.length
  foldLog (collideProjectiles n) (hitsOf n) r (List.range n)

/-- **What `handleCollision` hits is a maximal matching**, and all it changes are flags and the
boss. -/
structure MaximalMatching (r : Room F) : Prop where
  /-- A hit is of a projectile and an enemy that overlap. -/
  meets : ∀ h ∈ r.hits, r.Meets h.1 h.2
  /-- A projectile hits once. -/
  projectiles : (r.hits.map Prod.fst).Nodup
  /-- An enemy that is no boss is hit once. -/
  enemies : ∀ (j : ℕ) e, r.game.entities[j]? = some e → e.type = 2 ∨ e.type = 3 → (r.hits.map Prod.snd).count j ≤ 1
  /-- A boss is hit while it has HP. -/
  boss : ∀ pre h post e, r.hits = pre ++ h :: post → r.game.entities[h.2]? = some e → e.type = 10 →
    0 < r.boss.hp - r.bossDamage pre
  hp : r.handleCollision.boss.hp = r.boss.hp - r.bossDamage r.hits
  /-- No projectile and enemy are left that overlap. -/
  noPair : ∀ projectile ∈ r.handleCollision.game.entities, ∀ enemy ∈ r.handleCollision.game.entities,
    projectile.isCollide = false → enemy.isCollide = false → projectile.IsShot → enemy.IsTarget →
      projectile.overlaps enemy = false
  /-- Nothing is left that touches a player. -/
  noTouch : ∀ e ∈ r.handleCollision.game.entities, e.isCollide = false → e.IsHazard →
    ∀ p ∈ r.game.players, p.overlaps e = false
  /-- What is flagged was hit, or touches a player. -/
  reason : ∀ (k : ℕ) e, r.handleCollision.game.entities[k]? = some e → e.isCollide = true →
    (∃ h ∈ r.hits, (h.1 = k ∨ h.2 = k) ∧ (e.type = 10 → r.handleCollision.boss.hp ≤ 0)) ∨
      e.IsHazard ∧ ∃ p ∈ r.game.players, p.overlaps e = true
  /-- But for the flags the entities are the same. -/
  entities : r.handleCollision.game.entities.map Entity.unflagged = r.game.entities
  players : r.handleCollision.game.players = r.game.players

/-! ## The rules -/

/-- The matching of a list of entities. -/
def rules (r : Room F) : Rules ℕ ℕ := ⟨r.Meets, r.Spent, fun _ p _ h => h.snoc p⟩

omit [FloatOps F] in
/-- The entity at a place after a flag. -/
theorem getElem?_flag {r : Room F} {i k : ℕ} {e : Entity F} (he : (r.flag i).game.entities[k]? = some e) :
    ∃ e', r.game.entities[k]? = some e' ∧ (e.isCollide = true ↔ e'.isCollide = true ∨ k = i) := by
  have hk : (r.flag i).game.entities[k]? = _ := List.getElem?_modify ..
  rw [he] at hk
  rcases hold : r.game.entities[k]? with _ | e'
  · rw [hold] at hk
    cases hk
  · rw [hold] at hk
    obtain rfl := Option.some.inj hk
    refine ⟨e', rfl, ?_⟩
    by_cases hik : i = k
    · simp [hik]
    · simp [hik, Ne.symm hik]

omit [FloatOps F] in
theorem flag_unflagged (r : Room F) (i : ℕ) :
    (r.flag i).game.entities.map Entity.unflagged = r.game.entities.map Entity.unflagged :=
  flag_map _ (fun _ => rfl) r i

omit [FloatOps F] in
/-- What a hit does to a boss: it takes HP, and flags the boss without any. -/
theorem hitBoss_spec (r : Room F) (j : ℕ) (damage : ℤ) :
    (r.hitBoss j damage).boss.hp = r.boss.hp - damage ∧ (r.hitBoss j damage).game.players = r.game.players ∧
      (r.hitBoss j damage).game.entities =
        if r.boss.hp - damage ≤ 0 then (r.flag j).game.entities else r.game.entities := by
  unfold hitBoss
  extract_lets hp maxHp _ r' r''
  have hhp : hp = r.boss.hp - damage := rfl
  rw [← hhp]
  by_cases hdead : hp ≤ 0
  · rw [if_pos hdead, if_pos hdead]
    split
    · exact ⟨rfl, rfl, rfl⟩
    · split <;> exact ⟨rfl, rfl, rfl⟩
  · rw [if_neg hdead, if_neg hdead]
    exact ⟨rfl, rfl, rfl⟩

/-- **What one turn of the projectile loop can do**: nothing, or register a hit. -/
theorem collideProjectile_hit (r : Room F) (i j : ℕ) :
    (r.collideProjectile i j = r ∧ r.hit i j = [] ∧ ∀ projectile enemy, r.game.entities[i]? = some projectile →
      r.game.entities[j]? = some enemy → ¬ (enemy.IsTarget ∧ (projectile.isCollide || enemy.isCollide) = false ∧
        projectile.overlaps enemy = true)) ∨
    ∃ projectile enemy, r.game.entities[i]? = some projectile ∧ r.game.entities[j]? = some enemy ∧
      enemy.IsTarget ∧ projectile.isCollide = false ∧ enemy.isCollide = false ∧ projectile.overlaps enemy = true ∧
      r.hit i j = [(i, j)] ∧ r.collideProjectile i j =
        if enemy.type = 10 then (r.flag i).hitBoss j (if projectile.type = 4 then 50 else 10)
        else (r.flag i).flag j := by
  rcases hprojectile : r.game.entities[i]? with _ | projectile
  · exact .inl ⟨by rw [collideProjectile, hprojectile], by rw [hit, hprojectile], fun _ _ h => nomatch h⟩
  rcases henemy : r.game.entities[j]? with _ | enemy
  · exact .inl ⟨by rw [collideProjectile, hprojectile, henemy], by rw [hit, hprojectile, henemy], fun _ _ _ h => nomatch h⟩
  simp only [collideProjectile, hit, hprojectile, henemy]
  have htarget : enemy.IsTarget ↔ ¬ (enemy.type ≠ 2 ∧ enemy.type ≠ 3 ∧ enemy.type ≠ 10) := by
    rw [Entity.IsTarget]
    tauto
  by_cases hhit : enemy.IsTarget ∧ (projectile.isCollide || enemy.isCollide) = false ∧ projectile.overlaps enemy = true
  · obtain ⟨hprojectileFree, henemyFree⟩ := Bool.or_eq_false_iff.1 hhit.2.1
    refine .inr ⟨projectile, enemy, rfl, rfl, hhit.1, hprojectileFree, henemyFree, hhit.2.2, if_pos hhit, ?_⟩
    have hoverlaps : checkCollision projectile.x projectile.y projectile.width projectile.height
        enemy.x enemy.y enemy.width enemy.height = true := hhit.2.2
    rw [if_neg (htarget.1 hhit.1), hhit.2.1, if_neg Bool.false_ne_true, if_pos hoverlaps]
  · refine .inl ⟨?_, if_neg hhit, fun p e hp he => ?_⟩
    · split
      · rfl
      · split
        · rfl
        · split
          · rename_i hkind hflags hoverlaps
            exact absurd ⟨htarget.2 hkind, Bool.eq_false_iff.2 hflags, hoverlaps⟩ hhit
          · rfl
    · obtain rfl := Option.some.inj hp
      obtain rfl := Option.some.inj he
      exact hhit

/-! ## The projectile loops -/

/-- All pairs of `n` entities, row by row. -/
def pairs (n : ℕ) : List (ℕ × ℕ) := (List.range n).flatMap fun i => (List.range n).map (Prod.mk i)

/-- What `handleCollision` begins with: no flags, and at most one boss, which has HP. -/
structure Fresh (r : Room F) : Prop where
  clear : ∀ e ∈ r.game.entities, e.isCollide = false
  oneBoss : ∀ (j j' : ℕ) e e', r.game.entities[j]? = some e → r.game.entities[j']? = some e' → e.type = 10 →
    e'.type = 10 → j = j'
  alive : ∀ e ∈ r.game.entities, e.type = 10 → 0 < r.boss.hp

/-- **What holds in the course of the projectile loops**, begun in `r₀`, where some pairs have
been offered and `hits` are those taken. -/
structure Colliding (r₀ : Room F) (offered hits : List (ℕ × ℕ)) (r : Room F) : Prop where
  greedy : Greedy r₀.rules offered hits
  same : r.game.entities.map Entity.unflagged = r₀.game.entities.map Entity.unflagged
  flags : ∀ (k : ℕ) e, r.game.entities[k]? = some e → (e.isCollide = true ↔ k ∈ hits.map Prod.fst ∨ r₀.Spent hits k)
  hp : r.boss.hp = r₀.boss.hp - r₀.bossDamage hits
  players : r.game.players = r₀.game.players

variable {r₀ r : Room F} {offered hits : List (ℕ × ℕ)} {i j k : ℕ} {e : Entity F}

/-- Nothing is flagged at first. -/
theorem Fresh.colliding (h : r₀.Fresh) : Colliding r₀ [] [] r₀ := by
  refine ⟨.nil, rfl, fun k e he => ?_, ?_, rfl⟩
  · have hmem := List.mem_of_getElem? he
    rw [h.clear e hmem]
    refine iff_of_false Bool.false_ne_true ?_
    rintro (hk | ⟨e', he', hspent⟩)
    · exact absurd hk List.not_mem_nil
    · obtain rfl := Option.some.inj (he.symm.trans he')
      split at hspent
      · rename_i hboss
        exact absurd (h.alive e hmem hboss) (not_lt.2 hspent)
      · exact absurd hspent List.not_mem_nil
  · exact (sub_zero _).symm

namespace Colliding

omit [FloatOps F] in
theorem entity_of_same (h : r.game.entities.map Entity.unflagged = r₀.game.entities.map Entity.unflagged)
    (he : r.game.entities[k]? = some e) : ∃ e₀, r₀.game.entities[k]? = some e₀ ∧ e₀.unflagged = e.unflagged := by
  have hk := congrArg (·[k]?) h
  simp only [List.getElem?_map, he, Option.map_some] at hk
  exact Option.map_eq_some_iff.1 hk.symm

/-- An entity is, but for its flag, what it was. -/
theorem entity (h : Colliding r₀ offered hits r) (he : r.game.entities[k]? = some e) :
    ∃ e₀, r₀.game.entities[k]? = some e₀ ∧ e₀.unflagged = e.unflagged :=
  entity_of_same h.same he

/-- A projectile is flagged by its hit. -/
theorem shot_flag (h : Colliding r₀ offered hits r) (he : r.game.entities[k]? = some e) (hshot : e.IsShot) :
    e.isCollide = true ↔ k ∈ hits.map Prod.fst := by
  rw [h.flags k e he, or_iff_left]
  rintro ⟨e₀, he₀, hspent⟩
  obtain ⟨e₁, he₁, hsame⟩ := h.entity he
  obtain rfl := Option.some.inj (he₀.symm.trans he₁)
  have htype := Entity.type_of_unflagged hsame
  have hnoBoss : e₀.type ≠ 10 := by
    rw [htype]
    rcases hshot with h | h <;> rw [h] <;> decide
  rw [if_neg hnoBoss] at hspent
  -- what has been hit is no projectile
  obtain ⟨p, hp, rfl⟩ := List.mem_map.1 hspent
  obtain ⟨-, enemy, -, henemy, -, htarget, -⟩ := (h.greedy.sound p hp).2
  obtain rfl := Option.some.inj (henemy.symm.trans he₀)
  refine Entity.not_isTarget_of_isShot hshot ?_
  rwa [Entity.IsTarget, ← htype]

/-- An enemy is flagged when it is spent. -/
theorem target_flag (h : Colliding r₀ offered hits r) (he : r.game.entities[k]? = some e) (htarget : e.IsTarget) :
    e.isCollide = true ↔ r₀.Spent hits k := by
  rw [h.flags k e he, or_iff_right]
  intro hk
  obtain ⟨p, hp, rfl⟩ := List.mem_map.1 hk
  obtain ⟨projectile, -, hprojectile, -, hshot, -⟩ := (h.greedy.sound p hp).2
  obtain ⟨e₁, he₁, hsame⟩ := h.entity he
  obtain rfl := Option.some.inj (hprojectile.symm.trans he₁)
  have htype := Entity.type_of_unflagged hsame
  refine Entity.not_isTarget_of_isShot hshot ?_
  rwa [Entity.IsTarget, htype]

/-- A turn that registers no hit. -/
theorem skip (h : Colliding r₀ offered hits r) (hnot : ¬ (r₀.Meets i j ∧ r₀.rules.Free hits (i, j))) :
    Colliding r₀ (offered ++ [(i, j)]) hits r :=
  ⟨h.greedy.skip hnot, h.same, h.flags, h.hp, h.players⟩

/-- A pair that may be taken is one that the turn finds unflagged. -/
theorem takes_iff (h : Colliding r₀ offered hits r) {projectile enemy : Entity F}
    (hprojectile : r.game.entities[i]? = some projectile) (henemy : r.game.entities[j]? = some enemy)
    (hshot : projectile.IsShot) : r₀.Meets i j ∧ r₀.rules.Free hits (i, j) ↔
      enemy.IsTarget ∧ (projectile.isCollide || enemy.isCollide) = false ∧ projectile.overlaps enemy = true := by
  obtain ⟨projectile₀, hprojectile₀, hsame⟩ := h.entity hprojectile
  obtain ⟨enemy₀, henemy₀, hsame'⟩ := h.entity henemy
  have htype := Entity.type_of_unflagged hsame
  have htype' := Entity.type_of_unflagged hsame'
  have hoverlaps := Entity.overlaps_of_unflagged hsame hsame'
  have hfirst := h.shot_flag hprojectile hshot
  constructor
  · rintro ⟨⟨p, e, hp, he, -, htarget, hover⟩, hfree, hspent⟩
    obtain rfl := Option.some.inj (hp.symm.trans hprojectile₀)
    obtain rfl := Option.some.inj (he.symm.trans henemy₀)
    rw [Entity.IsTarget, htype'] at htarget
    have hsecond := h.target_flag henemy htarget
    refine ⟨htarget, Bool.or_eq_false_iff.2 ⟨?_, ?_⟩, hoverlaps ▸ hover⟩
    · exact Bool.eq_false_iff.2 fun hflag => hfree (hfirst.1 hflag)
    · exact Bool.eq_false_iff.2 fun hflag => hspent (hsecond.1 hflag)
  · rintro ⟨htarget, hflags, hover⟩
    obtain ⟨hclear, hclear'⟩ := Bool.or_eq_false_iff.1 hflags
    have hsecond := h.target_flag henemy htarget
    refine ⟨⟨projectile₀, enemy₀, hprojectile₀, henemy₀, ?_, ?_, hoverlaps.trans hover⟩, fun hmem => ?_, fun hspent => ?_⟩
    · rwa [Entity.IsShot, htype]
    · rwa [Entity.IsTarget, htype']
    · exact Bool.eq_false_iff.1 hclear (hfirst.2 hmem)
    · exact Bool.eq_false_iff.1 hclear' (hsecond.2 hspent)

theorem mem_fst_snoc : k ∈ (hits ++ [(i, j)]).map Prod.fst ↔ k ∈ hits.map Prod.fst ∨ k = i := by
  rw [List.map_append, List.mem_append, List.map_singleton, List.mem_singleton]

/-- A turn that hits an enemy that is no boss. -/
theorem hitEnemy (h : Colliding r₀ offered hits r) (htakes : r₀.Meets i j ∧ r₀.rules.Free hits (i, j))
    (he : r₀.game.entities[j]? = some e) (htype : e.type ≠ 10) :
    Colliding r₀ (offered ++ [(i, j)]) (hits ++ [(i, j)]) ((r.flag i).flag j) := by
  refine ⟨h.greedy.take htakes.1 htakes.2, ?_, fun k e he => ?_, ?_, h.players⟩
  · rw [flag_unflagged, flag_unflagged, h.same]
  · obtain ⟨e', he', hflag⟩ := getElem?_flag he
    obtain ⟨e'', he'', hflag'⟩ := getElem?_flag he'
    rw [hflag, hflag', h.flags k e'' he'', mem_fst_snoc, spent_snoc_enemy (by assumption) htype]
    grind
  · rw [bossDamage_snoc, hitDamage_enemy he htype, add_zero]
    exact h.hp

/-- A turn that hits the boss. -/
theorem hitBoss (hr : r₀.Fresh) (h : Colliding r₀ offered hits r)
    (htakes : r₀.Meets i j ∧ r₀.rules.Free hits (i, j)) (he : r₀.game.entities[j]? = some e) (htype : e.type = 10) :
    Colliding r₀ (offered ++ [(i, j)]) (hits ++ [(i, j)]) ((r.flag i).hitBoss j (r₀.hitDamage (i, j))) := by
  obtain ⟨hhp, hplayers, hentities⟩ := (r.flag i).hitBoss_spec j (r₀.hitDamage (i, j))
  have hbefore : (r.flag i).boss.hp = r₀.boss.hp - r₀.bossDamage hits := h.hp
  have hone : ∀ (k : ℕ) e', r₀.game.entities[k]? = some e' → e'.type = 10 → k = j := fun k e' he' htype' =>
    hr.oneBoss k j e' e he' he htype' htype
  refine ⟨h.greedy.take htakes.1 htakes.2, ?_, fun k e' he' => ?_, ?_, hplayers.trans h.players⟩
  · rw [hentities]
    split
    · rw [flag_unflagged, flag_unflagged, h.same]
    · rw [flag_unflagged, h.same]
  · rw [mem_fst_snoc, spent_snoc_boss he htype hone]
    rw [hentities] at he'
    split at he'
    · -- the boss has no HP left
      have hspent : r₀.boss.hp ≤ r₀.bossDamage hits + r₀.hitDamage (i, j) := by omega
      obtain ⟨e₁, he₁, hflag⟩ := getElem?_flag he'
      obtain ⟨e₂, he₂, hflag'⟩ := getElem?_flag he₁
      rw [hflag, hflag', h.flags k e₂ he₂]
      grind
    · have halive : ¬ r₀.boss.hp ≤ r₀.bossDamage hits + r₀.hitDamage (i, j) := by omega
      obtain ⟨e₁, he₁, hflag⟩ := getElem?_flag he'
      rw [hflag, h.flags k e₁ he₁]
      grind
  · rw [hhp, hbefore, bossDamage_snoc]
    ring

/-- **A turn of the inner loop is a step of the matching.** -/
theorem turn (hr : r₀.Fresh) (h : Colliding r₀ offered hits r)
    (hshot : ∀ e, r₀.game.entities[i]? = some e → e.IsShot) (j : ℕ) :
    Colliding r₀ (offered ++ [(i, j)]) (hits ++ r.hit i j) (r.collideProjectile i j) := by
  -- the projectile of the turn is one now
  have hshot' : ∀ e, r.game.entities[i]? = some e → e.IsShot := by
    intro e he
    obtain ⟨e₀, he₀, hsame⟩ := h.entity he
    rw [Entity.IsShot, ← Entity.type_of_unflagged hsame]
    exact hshot e₀ he₀
  obtain ⟨hturn, hhit, hnot⟩ | ⟨projectile, enemy, hprojectile, henemy, htarget, hclear, hclear', hover, hhit, hturn⟩ :=
    r.collideProjectile_hit i j
  · rw [hturn, hhit, List.append_nil]
    refine h.skip fun htakes => ?_
    obtain ⟨p₀, e₀, hp₀, he₀, -⟩ := htakes.1
    obtain ⟨p, hp, -⟩ := entity_of_same h.same.symm hp₀
    obtain ⟨e, he, -⟩ := entity_of_same h.same.symm he₀
    exact hnot p e hp he ((h.takes_iff hp he (hshot' p hp)).1 htakes)
  · have htakes := (h.takes_iff hprojectile henemy (hshot' _ hprojectile)).2
      ⟨htarget, Bool.or_eq_false_iff.2 ⟨hclear, hclear'⟩, hover⟩
    obtain ⟨projectile₀, hprojectile₀, hsame⟩ := h.entity hprojectile
    obtain ⟨enemy₀, henemy₀, hsame'⟩ := h.entity henemy
    have htype := Entity.type_of_unflagged hsame
    have htype' := Entity.type_of_unflagged hsame'
    rw [hhit, hturn]
    by_cases hboss : enemy.type = 10
    · have hdamage : r₀.hitDamage (i, j) = if projectile.type = 4 then 50 else 10 := by
        simp only [hitDamage, hprojectile₀, henemy₀, htype, htype']
        exact if_pos hboss
      rw [if_pos hboss, ← hdamage]
      exact h.hitBoss hr htakes henemy₀ (htype'.trans hboss)
    · rw [if_neg hboss]
      exact h.hitEnemy htakes henemy₀ (htype' ▸ hboss)

/-- A turn of the outer loop offers the pairs of one entity. -/
theorem row (hr : r₀.Fresh) (h : Colliding r₀ offered hits r) (n i : ℕ) :
    Colliding r₀ (offered ++ (List.range n).map (Prod.mk i)) (hits ++ hitsOf n r i) (collideProjectiles n r i) := by
  -- an entity that is no projectile meets nothing
  have hskip : (¬ ∃ e, r.game.entities[i]? = some e ∧ e.IsShot) →
      Colliding r₀ (offered ++ (List.range n).map (Prod.mk i)) hits r := by
    intro hnone
    refine ⟨h.greedy.skip_all fun p hp => ?_, h.same, h.flags, h.hp, h.players⟩
    obtain ⟨j, -, rfl⟩ := List.mem_map.1 hp
    rintro ⟨projectile, -, hprojectile, -, hshot, -⟩
    obtain ⟨e, he, hsame⟩ := entity_of_same h.same.symm hprojectile
    refine hnone ⟨e, he, ?_⟩
    rwa [Entity.IsShot, Entity.type_of_unflagged hsame]
  unfold hitsOf collideProjectiles
  rcases hi : r.game.entities[i]? with _ | projectile
  · simp only [List.append_nil]
    exact hskip (by simp [hi])
  · by_cases hother : projectile.type ≠ 1 ∧ projectile.type ≠ 4
    · simp only [if_pos hother, List.append_nil]
      refine hskip ?_
      rintro ⟨e, he, hshot⟩
      obtain rfl := Option.some.inj (hi.symm.trans he)
      exact hshot.elim hother.1 hother.2
    · simp only [if_neg hother]
      have hshot : ∀ e, r₀.game.entities[i]? = some e → e.IsShot := by
        intro e he
        obtain ⟨e', he', hsame⟩ := entity_of_same h.same.symm he
        obtain rfl := Option.some.inj (hi.symm.trans he')
        rw [Entity.IsShot, ← Entity.type_of_unflagged hsame]
        tauto
      have hturns := foldLog_done (J := fun done hits r => Colliding r₀ (offered ++ done.map (Prod.mk i)) hits r)
        (f := fun r j => r.collideProjectile i j) (g := fun r j => r.hit i j)
        (fun done hits r j h => by
          rw [List.map_append, ← List.append_assoc]
          exact h.turn hr hshot j) (List.range n) [] (by simpa using h)
      exact hturns

/-- **The projectile loops are a greedy matching.** -/
theorem projectiles (hr : r₀.Fresh) :
    Colliding r₀ (pairs r₀.game.entities.length) r₀.hits
      ((List.range r₀.game.entities.length).foldl (collideProjectiles r₀.game.entities.length) r₀) := by
  have hrows := foldLog_done
    (J := fun done hits r => Colliding r₀ (done.flatMap fun i => (List.range r₀.game.entities.length).map (Prod.mk i)) hits r)
    (f := collideProjectiles r₀.game.entities.length) (g := hitsOf r₀.game.entities.length)
    (fun done hits r i h => by
      rw [List.flatMap_append, List.flatMap_singleton]
      exact h.row hr _ i) (List.range r₀.game.entities.length) [] hr.colliding
  exact hrows

end Colliding

end Room

/-! ## The player loops -/

section

variable [FloatOps F]

/-- An entity after its turn with a player. -/
def Entity.touched (e : Entity F) (p : Player F) : Entity F :=
  if e.IsHazard ∧ p.overlaps e = true then { e with isCollide := true } else e

/-- What several players do to an entity: they flag it if one of them touches it. -/
theorem Entity.foldl_touched (ps : List (Player F)) (e : Entity F) :
    (ps.foldl Entity.touched e).unflagged = e.unflagged ∧
      ((ps.foldl Entity.touched e).isCollide = true ↔
        e.isCollide = true ∨ e.IsHazard ∧ ∃ p ∈ ps, p.overlaps e = true) := by
  induction ps generalizing e with
  | nil => simp
  | cons p ps ih =>
    have hcons : (∃ q ∈ p :: ps, q.overlaps e = true) ↔ p.overlaps e = true ∨ ∃ q ∈ ps, q.overlaps e = true := by
      simp
    rw [List.foldl_cons, hcons]
    obtain ⟨hsame, hflag⟩ := ih (e.touched p)
    by_cases h : e.IsHazard ∧ p.overlaps e = true
    · have htouched : e.touched p = { e with isCollide := true } := if_pos h
      rw [htouched] at hsame hflag ⊢
      refine ⟨hsame, hflag.trans (iff_of_true (.inl rfl) (.inr ⟨h.1, .inl h.2⟩))⟩
    · have htouched : e.touched p = e := if_neg h
      rw [htouched] at hsame hflag ⊢
      refine ⟨hsame, hflag.trans ?_⟩
      grind

end

/-- A change of one element depends on that element only. -/
theorem modify_congr {α : Type*} {f g : α → α} {l : List α} {j : ℕ} (h : ∀ a, l[j]? = some a → f a = g a) :
    l.modify j f = l.modify j g := by
  refine List.ext_getElem? fun k => ?_
  rw [List.getElem?_modify, List.getElem?_modify]
  by_cases hk : j = k
  · subst hk
    rcases hj : l[j]? with _ | a
    · rfl
    · simp [h a hj]
  · simp [hk]

/-- A change of each element in turn. -/
theorem foldl_modify_range {α : Type*} (f : α → α) (l : List α) :
    (List.range l.length).foldl (fun l j => l.modify j f) l = l.map f := by
  have hturns : ∀ n k : ℕ, ((List.range n).foldl (fun l j => l.modify j f) l)[k]? =
      if k < n then l[k]?.map f else l[k]? := by
    intro n
    induction n with
    | zero => exact fun k => rfl
    | succ n ih =>
      intro k
      rw [List.range_succ, List.foldl_append, List.foldl_cons, List.foldl_nil, List.getElem?_modify, ih]
      by_cases hk : n = k
      · subst hk
        simp
      · have hlt : k < n + 1 ↔ k < n := by omega
        simp only [hk, hlt, if_false, id_map']
  refine List.ext_getElem? fun k => ?_
  rw [hturns, List.getElem?_map]
  split
  · rfl
  · rename_i hk
    rw [List.getElem?_eq_none (not_lt.1 hk)]
    rfl

namespace Room

variable [FloatOps F]

/-- A turn of the inner loop is about one entity. -/
theorem collidePlayer_eq (p : Player F) (r : Room F) (j : ℕ) :
    collidePlayer p r j = { r with game.entities := r.game.entities.modify j (·.touched p) } := by
  -- a turn that leaves its entity alone leaves the room alone
  have hnothing : (∀ e, r.game.entities[j]? = some e → e.touched p = e) →
      r = { r with game.entities := r.game.entities.modify j (·.touched p) } := by
    intro h
    rw [modify_congr (g := id) h, List.modify_id]
  unfold collidePlayer
  split
  · rename_i e he
    have hhazard : e.IsHazard ↔ ¬ (e.type ≠ 2 ∧ e.type ≠ 3 ∧ e.type ≠ 11) := by
      rw [Entity.IsHazard]
      tauto
    split
    · rename_i hother
      refine hnothing fun e' he' => ?_
      obtain rfl := Option.some.inj (he.symm.trans he')
      exact if_neg fun h => hhazard.1 h.1 hother
    · rename_i hkind
      split
      · rename_i hflag
        refine hnothing fun e' he' => ?_
        obtain rfl := Option.some.inj (he.symm.trans he')
        unfold Entity.touched
        split
        · rw [← hflag]
        · rfl
      · split
        · rename_i hoverlaps
          have htouched : ∀ e', r.game.entities[j]? = some e' → { e' with isCollide := true } = e'.touched p := by
            intro e' he'
            obtain rfl := Option.some.inj (he.symm.trans he')
            exact (if_pos ⟨hhazard.2 hkind, hoverlaps⟩).symm
          rw [flag, modify_congr htouched]
        · rename_i hapart
          refine hnothing fun e' he' => ?_
          obtain rfl := Option.some.inj (he.symm.trans he')
          exact if_neg fun h => hapart h.2
  · rename_i hnone
    refine hnothing fun e he => ?_
    rw [hnone] at he
    cases he

/-- **The player loops flag what touches a player.** -/
theorem collidePlayers_eq (ps : List (Player F)) {n : ℕ} {r : Room F} (hn : r.game.entities.length = n) :
    ps.foldl (fun r p => (List.range n).foldl (collidePlayer p) r) r =
      { r with game.entities := r.game.entities.map fun e => ps.foldl Entity.touched e } := by
  have hplayer : ∀ (p : Player F) (js : List ℕ) (r : Room F), js.foldl (collidePlayer p) r =
      { r with game.entities := js.foldl (fun l j => l.modify j (·.touched p)) r.game.entities } := by
    intro p js
    induction js with
    | nil => exact fun r => rfl
    | cons j js ih =>
      intro r
      rw [List.foldl_cons, ih, collidePlayer_eq]
      rfl
  induction ps generalizing r with
  | nil => simp
  | cons p ps ih =>
    have hrow := foldl_modify_range (·.touched p) r.game.entities
    have hlen : (r.game.entities.map (·.touched p)).length = n := List.length_map _ |>.trans hn
    rw [hn] at hrow
    rw [List.foldl_cons, hplayer, hrow]
    refine (ih hlen).trans ?_
    simp only [List.map_map]
    rfl

/-! ## The whole -/

/-- At most one boss. -/
theorem eq_of_countP_le_one {α : Type*} {p : α → Bool} {l : List α} (h : l.countP p ≤ 1) {i j : ℕ} {a b : α}
    (ha : l[i]? = some a) (hb : l[j]? = some b) (hpa : p a = true) (hpb : p b = true) : i = j := by
  induction l generalizing i j with
  | nil => cases ha
  | cons c l ih =>
    rw [List.countP_cons] at h
    -- an element at the front is the only one
    have hfront : ∀ {k : ℕ} {d : α}, p c = true → l[k]? = some d → p d = true → False := by
      intro k d hc hd hpd
      have hpos : 0 < l.countP p := List.countP_pos_iff.2 ⟨d, List.mem_of_getElem? hd, hpd⟩
      rw [if_pos hc] at h
      omega
    cases i with
    | zero =>
      obtain rfl : c = a := Option.some.inj ha
      cases j with
      | zero => rfl
      | succ j => exact (hfront hpa hb hpb).elim
    | succ i =>
      cases j with
      | zero =>
        obtain rfl : c = b := Option.some.inj hb
        exact (hfront hpb ha hpa).elim
      | succ j => exact congrArg (· + 1) (ih (by omega) ha hb)

omit [FloatOps F] in
theorem fresh {r : Room F} (hclear : ∀ e ∈ r.game.entities, e.isCollide = false)
    (hone : r.game.entities.countP (·.type = 10) ≤ 1) (halive : ∀ e ∈ r.game.entities, e.type = 10 → 0 < r.boss.hp) :
    r.Fresh :=
  ⟨hclear, fun _ _ _ _ he he' htype htype' =>
    eq_of_countP_le_one hone he he' (decide_eq_true htype) (decide_eq_true htype'), halive⟩

omit [FloatOps F] in
/-- A boss without HP has been hit. -/
theorem Fresh.exists_hit {r : Room F} {hits : List (ℕ × ℕ)} {k : ℕ} (h : r.Fresh) (hspent : r.Spent hits k) :
    ∃ hit ∈ hits, hit.2 = k := by
  obtain ⟨e, he, hspent⟩ := hspent
  split at hspent
  · rename_i hboss
    have halive := h.alive e (List.mem_of_getElem? he) hboss
    -- some hit has taken HP, and so was on the boss
    obtain ⟨hit, hmem, hdamage⟩ : ∃ hit ∈ hits, r.hitDamage hit ≠ 0 := by
      by_contra hnone
      have hzero : r.bossDamage hits = 0 := List.sum_eq_zero fun d hd => by
        obtain ⟨hit, hmem, rfl⟩ := List.mem_map.1 hd
        exact not_not.1 fun hne => hnone ⟨hit, hmem, hne⟩
      omega
    refine ⟨hit, hmem, ?_⟩
    unfold hitDamage at hdamage
    split at hdamage
    · rename_i enemy hprojectile henemy
      split at hdamage
      · rename_i htype
        exact h.oneBoss _ _ enemy e henemy he htype hboss
      · exact absurd rfl hdamage
    · exact absurd rfl hdamage
  · exact (List.mem_map.1 hspent)

namespace Colliding

/-- **No pair is left**: of each that meets, one end is flagged. -/
theorem noPair {r₀ r : Room F} {hits : List (ℕ × ℕ)} (h : Colliding r₀ (pairs r₀.game.entities.length) hits r)
    {i j : ℕ} {projectile enemy : Entity F} (hprojectile : r.game.entities[i]? = some projectile)
    (henemy : r.game.entities[j]? = some enemy) (hshot : projectile.IsShot) (htarget : enemy.IsTarget)
    (hflags : (projectile.isCollide || enemy.isCollide) = false) : projectile.overlaps enemy = false := by
  by_contra hover
  rw [Bool.not_eq_false] at hover
  obtain ⟨hmeets, hfree⟩ := (h.takes_iff hprojectile henemy hshot).2 ⟨htarget, hflags, hover⟩
  obtain ⟨p₀, e₀, hp₀, he₀, -⟩ := id hmeets
  have hoffered : (i, j) ∈ pairs r₀.game.entities.length :=
    List.mem_flatMap.2 ⟨i, List.mem_range.2 (List.getElem?_eq_some_iff.1 hp₀).1,
      List.mem_map.2 ⟨j, List.mem_range.2 (List.getElem?_eq_some_iff.1 he₀).1, rfl⟩⟩
  exact h.greedy.maximal (i, j) hoffered hmeets hfree

/-- What is flagged was hit, a boss until its HP was exhausted. -/
theorem reason {r₀ r : Room F} {offered hits : List (ℕ × ℕ)} (hr : r₀.Fresh) (h : Colliding r₀ offered hits r)
    {k : ℕ} {e : Entity F} (he : r.game.entities[k]? = some e) (hflag : e.isCollide = true) :
    ∃ hit ∈ hits, (hit.1 = k ∨ hit.2 = k) ∧ (e.type = 10 → r.boss.hp ≤ 0) := by
  obtain ⟨e₀, he₀, hsame⟩ := h.entity he
  have htype := Entity.type_of_unflagged hsame
  rcases (h.flags k e he).1 hflag with hfst | hspent
  · -- a projectile that has hit
    obtain ⟨hit, hmem, rfl⟩ := List.mem_map.1 hfst
    refine ⟨hit, hmem, .inl rfl, fun hboss => ?_⟩
    obtain ⟨projectile, -, hprojectile, -, hshot, -⟩ := (h.greedy.sound hit hmem).2
    obtain rfl := Option.some.inj (hprojectile.symm.trans he₀)
    rw [Entity.IsShot, htype, hboss] at hshot
    exact absurd hshot (by decide)
  · -- an enemy that is spent
    obtain ⟨hit, hmem, hat⟩ := hr.exists_hit hspent
    refine ⟨hit, hmem, .inr hat, fun hboss => ?_⟩
    obtain ⟨e₁, he₁, hspent⟩ := hspent
    obtain rfl := Option.some.inj (he₀.symm.trans he₁)
    rw [if_pos (htype.trans hboss)] at hspent
    rw [h.hp]
    omega

end Colliding

/-- What `handleCollision` makes of a room, after its projectile loops. -/
theorem handleCollision_eq {r : Room F} (hr : r.Fresh) : ∃ r', Colliding r (pairs r.game.entities.length) r.hits r' ∧
    r.handleCollision =
      { r' with game.entities := r'.game.entities.map fun e => r.game.players.foldl Entity.touched e } := by
  have hloops := Colliding.projectiles hr
  refine ⟨_, hloops, ?_⟩
  have hlen := congrArg List.length hloops.same
  rw [List.length_map, List.length_map] at hlen
  rw [handleCollision, hloops.players]
  exact collidePlayers_eq _ hlen

/-- **What `handleCollision` hits is a maximal matching**, if nothing is flagged before and there
is at most one boss, which has HP. -/
theorem collisions_maximal (r : Room F) (hclear : ∀ e ∈ r.game.entities, e.isCollide = false)
    (hone : r.game.entities.countP (·.type = 10) ≤ 1) (halive : ∀ e ∈ r.game.entities, e.type = 10 → 0 < r.boss.hp) :
    r.MaximalMatching := by
  have hr : r.Fresh := fresh hclear hone halive
  obtain ⟨r', h, heq⟩ := handleCollision_eq hr
  have hhp : r.handleCollision.boss.hp = r'.boss.hp := by rw [heq]
  -- an entity at the end, and the same one after the projectile loops
  have hafter : ∀ (k : ℕ) e, r.handleCollision.game.entities[k]? = some e →
      ∃ e', r'.game.entities[k]? = some e' ∧ e.unflagged = e'.unflagged ∧
        (e.isCollide = true ↔ e'.isCollide = true ∨ e'.IsHazard ∧ ∃ p ∈ r.game.players, p.overlaps e' = true) := by
    intro k e he
    rw [heq, List.getElem?_map] at he
    obtain ⟨e', he', rfl⟩ := Option.map_eq_some_iff.1 he
    exact ⟨e', he', Entity.foldl_touched _ e'⟩
  refine ⟨fun hit hmem => (h.greedy.sound hit hmem).2, h.greedy.nodup, ?_, ?_, hhp.trans h.hp, ?_, ?_, ?_, ?_, ?_⟩
  · intro j e he htype
    refine h.greedy.count_le_one fun taken hj => ⟨e, he, ?_⟩
    have hnoBoss : e.type ≠ 10 := by rcases htype with h | h <;> rw [h] <;> decide
    rwa [if_neg hnoBoss]
  · intro pre hit post e hsplit he htype
    have hfree := h.greedy.free hsplit
    by_contra hdead
    refine hfree ⟨e, he, ?_⟩
    rw [if_pos htype]
    omega
  · intro projectile hprojectile enemy henemy hclear₁ hclear₂ hshot htarget
    obtain ⟨i, hi⟩ := List.mem_iff_getElem?.1 hprojectile
    obtain ⟨j, hj⟩ := List.mem_iff_getElem?.1 henemy
    obtain ⟨projectile', hi', hsame, hflag⟩ := hafter i projectile hi
    obtain ⟨enemy', hj', hsame', hflag'⟩ := hafter j enemy hj
    rw [Entity.IsShot, Entity.type_of_unflagged hsame] at hshot
    rw [Entity.IsTarget, Entity.type_of_unflagged hsame'] at htarget
    rw [Entity.overlaps_of_unflagged hsame hsame']
    refine h.noPair hi' hj' hshot htarget (Bool.or_eq_false_iff.2 ⟨?_, ?_⟩)
    · exact Bool.eq_false_iff.2 fun hf => Bool.eq_false_iff.1 hclear₁ (hflag.2 (.inl hf))
    · exact Bool.eq_false_iff.2 fun hf => Bool.eq_false_iff.1 hclear₂ (hflag'.2 (.inl hf))
  · intro e he hclear₁ hhazard p hp
    obtain ⟨k, hk⟩ := List.mem_iff_getElem?.1 he
    obtain ⟨e', -, hsame, hflag⟩ := hafter k e hk
    rw [Entity.IsHazard, Entity.type_of_unflagged hsame] at hhazard
    by_contra hover
    rw [Bool.not_eq_false, Player.overlaps_of_unflagged hsame] at hover
    exact Bool.eq_false_iff.1 hclear₁ (hflag.2 (.inr ⟨hhazard, p, hp, hover⟩))
  · intro k e hk hflagged
    obtain ⟨e', hk', hsame, hflag⟩ := hafter k e hk
    have htype := Entity.type_of_unflagged hsame
    rcases hflag.1 hflagged with hhit | ⟨hhazard, p, hp, hover⟩
    · obtain ⟨hit, hmem, hat, hboss⟩ := h.reason hr hk' hhit
      exact .inl ⟨hit, hmem, hat, fun h10 => hhp.trans_le (hboss (htype.symm.trans h10))⟩
    · refine .inr ⟨?_, p, hp, (Player.overlaps_of_unflagged hsame p).trans hover⟩
      rwa [Entity.IsHazard, htype]
  · have hunflag : Entity.unflagged ∘ (fun e => r.game.players.foldl Entity.touched e) = Entity.unflagged :=
      funext fun e => (Entity.foldl_touched _ e).1
    rw [heq, List.map_map, hunflag, h.same]
    exact (List.map_congr_left fun e he => Entity.unflagged_eq (hclear e he)).trans (List.map_id _)
  · rw [heq]
    exact h.players

/-- Two shots where an enemy and a boss with its last HP are. -/
def crossfire : Room ℚ :=
  ⟨⟨[Player.new 1 []], [⟨1, 1, 900, 200, 10, 0, 10, 5, false⟩, ⟨2, 4, 900, 200, 12, 0, 29, 30, false⟩,
      ⟨3, 2, 902, 200, -5, 0, 32, 32, false⟩, ⟨4, 10, 902, 200, -2, 0, 296, 88, false⟩], 5, 0, 0, 0, .playing⟩,
    { Boss.none with level := 1, hp := 50 }, []⟩

theorem collisions_maximal_crossfire : crossfire.MaximalMatching :=
  collisions_maximal crossfire (by decide) (by decide) fun _ _ _ => by decide

end Room

end RType

import RType.Proof.NewRooms

/-!
# The boss fights of a game

A game has two bosses, one after the other. Its level, the HP of the boss and the entity that
is the boss change in different sections of `update`.

* `Room.Fighting`: what the entries say agrees with what the list of entities holds.
* `Collided.collideProjectile`: one turn of the projectile loop, where a boss may die.
* `Entity.advance_inArena`: no boss leaves the screen.
* `bossFights`: over whole runs, under any interleaving, the levels follow each other, each
  of the bosses comes once, and its HP is what its hits have left.
-/

namespace RType

open Lts

variable {F : Type*}

/-! ## What is seen of a boss -/

namespace Room

/-- How many bosses there are, the dead ones included. -/
def bosses (r : Room F) : ℕ := r.game.entities.countP fun e => e.type == 10

/-- How many bosses can be hit. -/
def liveBosses (r : Room F) : ℕ := r.game.entities.countP fun e => e.type == 10 && !e.isCollide

variable [FloatOps F]

/-- The type of the projectile, where it hits a boss in this turn of `collideProjectile`. -/
def strike (r : Room F) (i j : ℕ) : List UInt16 :=
  match r.game.entities[i]?, r.game.entities[j]? with
  | some projectile, some enemy =>
    if enemy.type = 10 ∧ (projectile.isCollide || enemy.isCollide) = false ∧
        checkCollision projectile.x projectile.y projectile.width projectile.height
          enemy.x enemy.y enemy.width enemy.height then
      [projectile.type]
    else []
  | _, _ => []

/-- The hits in a turn of `collideProjectiles`. -/
def strikesOf (n : ℕ) (r : Room F) (i : ℕ) : List UInt16 :=
  match r.game.entities[i]? with
  | some projectile =>
    if projectile.type ≠ 1 ∧ projectile.type ≠ 4 then []
    else foldLog (fun r j => r.collideProjectile i j) (fun r j => r.strike i j) r (List.range n)
  | none => []

/-- The hits of `handleCollision`: the types of the projectiles that hit a boss. -/
def strikes (r : Room F) : List UInt16 :=
  let n := r.game.entities.length
  foldLog (collideProjectiles n) (strikesOf n) r (List.range n)

end Room

/-- What is noted down of the bosses of a game: the levels gone through, the level at each
spawn of a boss, and the types of the projectiles that have hit since the last change of level. -/
structure BossLog where
  levels : List ℤ
  spawns : List ℤ
  hits : List UInt16

namespace BossLog

/-- Nothing has happened at level 0. -/
def start : BossLog := ⟨[0], [], []⟩

variable [FloatOps F]

/-- The hits in a step of the threads. -/
def struck (s : GameThreads F) : GameThreads.Label F → List UInt16
  | .loop _ => match s.loop with
    | .handleCollision => s.room.strikes
    | _ => []
  | _ => []

/-- What is noted down of one step. -/
def watch (b : BossLog) (s : GameThreads F) (l : GameThreads.Label F) (s' : GameThreads F) : BossLog :=
  let level := s'.room.boss.level
  let spawned := List.replicate (s'.room.bosses - s.room.bosses) level
  if level = s.room.boss.level then ⟨b.levels, b.spawns ++ spawned, b.hits ++ struck s l⟩
  else ⟨b.levels ++ [level], b.spawns ++ spawned, []⟩

end BossLog

/-- A boss that the level speaks of already, and that is spawned next. -/
def LoopPc.awaited (level : ℤ) : LoopPc F → List ℤ
  | spawnBoss _ => [level]
  | _ => []

/-- What the hits take. -/
def damage (hits : List UInt16) : ℤ := 10 * hits.count 1 + 50 * hits.count 4

/-- **The fights of a game**, as its log has them. -/
structure BossFights (log : BossLog) (s : GameThreads F) : Prop where
  /-- The levels gone through are `0`, `1` and so on up to the present one, at most 4. -/
  levels : ∃ n : ℕ, n ≤ 4 ∧ s.room.boss.level = n ∧ log.levels = (List.range (n + 1)).map Nat.cast
  /-- There was a spawn at level 1 and at level 3, as far as they have been reached. -/
  spawns : log.spawns ++ s.loop.awaited s.room.boss.level = [1, 3].filter (· ≤ s.room.boss.level)
  /-- Outside of `update` there is one boss to hit at level 1 and 3, and none at the others. -/
  bosses : s.loop = .idle → s.room.liveBosses = if s.room.boss.level = 1 ∨ s.room.boss.level = 3 then 1 else 0
  first : s.room.boss.level = 1 → s.room.boss.hp = 1000 - damage log.hits ∧ 0 < s.room.boss.hp
  second : s.room.boss.level = 3 → s.room.boss.hp = 2000 - damage log.hits ∧ 0 < s.room.boss.hp

/-! ## One room -/

/-- A change of one element moves a count by what it does to that element. -/
theorem countP_modify {α : Type*} (p : α → Bool) (f : α → α) {l : List α} {i : ℕ} {a : α} (h : l[i]? = some a) :
    (l.modify i f).countP p + (if p a then 1 else 0) = l.countP p + if p (f a) then 1 else 0 := by
  induction l generalizing i with
  | nil => cases h
  | cons b l ih =>
    cases i with
    | zero =>
      obtain rfl : b = a := Option.some.inj h
      rw [List.modify_zero_cons, List.countP_cons, List.countP_cons]
      omega
    | succ i =>
      have hl : l[i]? = some a := h
      rw [List.modify_succ_cons, List.countP_cons, List.countP_cons]
      have := ih hl
      omega

namespace Room

variable {r : Room F} {i j : ℕ} {e : Entity F}

/-- A flag on another entity leaves the bosses as they are. -/
theorem flag_liveBosses (he : r.game.entities[i]? = some e) (htype : e.type ≠ 10) :
    (r.flag i).liveBosses = r.liveBosses := by
  have hcount := countP_modify (fun e : Entity F => e.type == 10 && !e.isCollide)
    (fun e => { e with isCollide := true }) he
  have hnot : (e.type == 10) = false := by simpa using htype
  simp only [hnot, Bool.false_and, Bool.false_eq_true, if_false] at hcount
  exact hcount

/-- A flag on a boss is its end. -/
theorem flag_liveBosses_boss (he : r.game.entities[i]? = some e) (htype : e.type = 10) (hlive : e.isCollide = false) :
    (r.flag i).liveBosses + 1 = r.liveBosses := by
  have hcount := countP_modify (fun e : Entity F => e.type == 10 && !e.isCollide)
    (fun e => { e with isCollide := true }) he
  simp only [htype, hlive, beq_self_eq_true, Bool.not_false, Bool.not_true, Bool.and_true, Bool.and_false,
    if_true, Bool.false_eq_true, if_false] at hcount
  exact hcount

/-- The entries agree with the list of entities, where `awaited` bosses are about to be
spawned and `hits` is what the boss has been hit by. -/
structure Fighting (awaited : ℕ) (hits : List UInt16) (r : Room F) : Prop where
  bosses : r.liveBosses + awaited = if r.boss.level = 1 ∨ r.boss.level = 3 then 1 else 0
  first : r.boss.level = 1 → r.boss.hp = 1000 - damage hits ∧ 0 < r.boss.hp
  second : r.boss.level = 3 → r.boss.hp = 2000 - damage hits ∧ 0 < r.boss.hp

theorem Fighting.of_eq {awaited : ℕ} {hits : List UInt16} {r r' : Room F} (h : r.Fighting awaited hits)
    (hboss : r'.boss = r.boss) (hlive : r'.liveBosses = r.liveBosses) : r'.Fighting awaited hits := by
  refine ⟨?_, ?_, ?_⟩ <;> rw [hboss]
  · rw [hlive]
    exact h.bosses
  · exact h.first
  · exact h.second

/-- Where no boss is there to fight, hits do not matter. -/
theorem Fighting.over {hits : List UInt16} (hlive : r.liveBosses = 0) (h1 : r.boss.level ≠ 1)
    (h3 : r.boss.level ≠ 3) : r.Fighting 0 hits := by
  refine ⟨?_, fun h => absurd h h1, fun h => absurd h h3⟩
  rw [if_neg (by omega), hlive]

/-- A boss that can be hit is the boss of its level. -/
theorem Fighting.level {hits : List UInt16} (h : r.Fighting 0 hits) (he : r.game.entities[j]? = some e)
    (htype : e.type = 10) (hlive : e.isCollide = false) :
    (r.boss.level = 1 ∨ r.boss.level = 3) ∧ r.liveBosses = 1 := by
  have hpos : 0 < r.liveBosses := by
    refine List.countP_pos_iff.2 ⟨e, List.mem_of_getElem? he, ?_⟩
    simp [htype, hlive]
  have hbosses := h.bosses
  split at hbosses
  case isTrue hlevel => exact ⟨hlevel, hbosses⟩
  case isFalse => omega

/-- The level stays, or a boss has died. -/
def LevelUp (r r' : Room F) : Prop :=
  r'.boss.level = r.boss.level ∨ (r.boss.level = 1 ∨ r.boss.level = 3) ∧ r'.boss.level = r.boss.level + 1

theorem LevelUp.refl (r : Room F) : r.LevelUp r := .inl rfl

theorem LevelUp.trans {r₁ r₂ r₃ : Room F} (h : r₁.LevelUp r₂) (h' : r₂.LevelUp r₃) : r₁.LevelUp r₃ := by
  unfold LevelUp at *
  omega

theorem damage_snoc_one (hits : List UInt16) : damage (hits ++ [1]) = damage hits + 10 := by
  have h4 : List.count 4 ([1] : List UInt16) = 0 := by decide
  unfold damage
  rw [List.count_append, List.count_append, List.count_singleton_self, h4]
  omega

theorem damage_snoc_four (hits : List UInt16) : damage (hits ++ [4]) = damage hits + 50 := by
  have h1 : List.count 1 ([4] : List UInt16) = 0 := by decide
  unfold damage
  rw [List.count_append, List.count_append, List.count_singleton_self, h1]
  omega

/-- **A hit takes its damage**; a boss without HP dies, and the level goes up. -/
theorem Fighting.hitBoss {hits : List UInt16} {type : UInt16} (h : r.Fighting 0 hits)
    (he : r.game.entities[j]? = some e) (hboss : e.type = 10) (hlive : e.isCollide = false)
    (htype : type = 1 ∨ type = 4) :
    (r.hitBoss j (if type = 4 then 50 else 10)).Fighting 0 (hits ++ [type]) ∧
      r.LevelUp (r.hitBoss j (if type = 4 then 50 else 10)) := by
  obtain ⟨hlevel, hone⟩ := h.level he hboss hlive
  have hdamage : damage (hits ++ [type]) = damage hits + if type = 4 then 50 else 10 := by
    rcases htype with rfl | rfl
    · exact damage_snoc_one hits
    · exact damage_snoc_four hits
  have hfirst := h.first
  have hsecond := h.second
  unfold Room.hitBoss
  extract_lets hp maxHp _ r' r''
  -- the only live boss is flagged
  have hdead : r''.liveBosses = 0 := by
    have hflag : r''.liveBosses + 1 = r'.liveBosses := flag_liveBosses_boss he hboss hlive
    have hsame : r'.liveBosses = r.liveBosses := rfl
    omega
  have hkept : r''.boss.level = r.boss.level := rfl
  by_cases hhp : hp ≤ 0
  · rw [if_pos hhp]
    -- the first boss is followed by level 2, the second by level 4
    rcases hlevel with h1 | h3
    · rw [if_pos (hkept.trans h1)]
      have hup : (2 : ℤ) = r.boss.level + 1 := by omega
      exact ⟨.over hdead (by decide : (2 : ℤ) ≠ 1) (by decide : (2 : ℤ) ≠ 3), .inr ⟨.inl h1, hup⟩⟩
    · rw [if_neg (by omega), if_pos (hkept.trans h3)]
      have hup : (4 : ℤ) = r.boss.level + 1 := by omega
      exact ⟨.over hdead (by decide : (4 : ℤ) ≠ 1) (by decide : (4 : ℤ) ≠ 3), .inr ⟨.inr h3, hup⟩⟩
  · rw [if_neg hhp]
    have hhpEq : hp = r.boss.hp - if type = 4 then 50 else 10 := rfl
    refine ⟨⟨h.bosses, fun h1 => ?_, fun h3 => ?_⟩, .inl rfl⟩
    · have := hfirst h1
      change hp = _ ∧ 0 < hp
      omega
    · have := hsecond h3
      change hp = _ ∧ 0 < hp
      omega

/-! ### The turns of `handleCollision` -/

variable [FloatOps F]

/-- **What one turn of the projectile loop can do**: nothing, hit an enemy, or hit a boss. -/
theorem collideProjectile_cases (r : Room F) (i j : ℕ) :
    (r.collideProjectile i j = r ∧ r.strike i j = []) ∨
    ∃ projectile enemy, r.game.entities[i]? = some projectile ∧ r.game.entities[j]? = some enemy ∧
      (enemy.type ≠ 10 ∧ r.collideProjectile i j = (r.flag i).flag j ∧ r.strike i j = [] ∨
        enemy.type = 10 ∧ enemy.isCollide = false ∧
          r.collideProjectile i j = (r.flag i).hitBoss j (if projectile.type = 4 then 50 else 10) ∧
          r.strike i j = [projectile.type]) := by
  rcases hprojectile : r.game.entities[i]? with _ | projectile
  · exact .inl ⟨by rw [collideProjectile, hprojectile], by rw [strike, hprojectile]⟩
  rcases henemy : r.game.entities[j]? with _ | enemy
  · exact .inl ⟨by rw [collideProjectile, hprojectile, henemy], by rw [strike, hprojectile, henemy]⟩
  simp only [collideProjectile, strike, hprojectile, henemy]
  -- the other entity is no enemy
  by_cases hother : enemy.type ≠ 2 ∧ enemy.type ≠ 3 ∧ enemy.type ≠ 10
  · have hnot : ¬ enemy.type = 10 := hother.2.2
    exact .inl ⟨if_pos hother, if_neg fun h => hnot h.1⟩
  rw [if_neg hother]
  -- one of the two has been hit already
  by_cases hcollide : (projectile.isCollide || enemy.isCollide) = true
  · refine .inl ⟨if_pos hcollide, if_neg fun h => ?_⟩
    rw [hcollide] at h
    exact absurd h.2.1 (by decide)
  rw [if_neg hcollide]
  rw [Bool.not_eq_true] at hcollide
  have hlive : enemy.isCollide = false := (Bool.or_eq_false_iff.1 hcollide).2
  split
  case isFalse hapart => exact .inl ⟨rfl, if_neg fun h => hapart h.2.2⟩
  case isTrue hmeet =>
    refine .inr ⟨projectile, enemy, rfl, rfl, ?_⟩
    by_cases hboss : enemy.type = 10
    · exact .inr ⟨hboss, hlive, if_pos hboss, if_pos ⟨hboss, hcollide, hmeet⟩⟩
    · exact .inl ⟨hboss, if_neg hboss, if_neg fun h => hboss h.1⟩

/-- What a collision does not change of an entity. -/
def poses (r : Room F) : List (UInt16 × F × F) := r.game.entities.map fun e => (e.type, e.x, e.velocityX)

omit [FloatOps F] in
theorem flag_poses (r : Room F) (i : ℕ) : (r.flag i).poses = r.poses := flag_map _ (fun _ => rfl) r i

omit [FloatOps F] in
theorem hitBoss_poses (r : Room F) (j : ℕ) (damage : ℤ) : (r.hitBoss j damage).poses = r.poses := by
  unfold hitBoss
  extract_lets hp maxHp _ r' r''
  have hflag : r''.poses = r.poses := flag_poses r' j
  split
  · split
    · exact hflag
    · split
      · exact hflag
      · exact hflag
  · rfl

omit [FloatOps F] in
/-- An entity keeps its type. -/
theorem type_of_poses {r r' : Room F} {e : Entity F} (h : r'.poses = r.poses) (he : r'.game.entities[i]? = some e) :
    ∃ e', r.game.entities[i]? = some e' ∧ e'.type = e.type := by
  have hi := congrArg (·[i]?) h
  simp only [poses, List.getElem?_map, he, Option.map_some] at hi
  obtain ⟨e', he', hpose⟩ := Option.map_eq_some_iff.1 hi.symm
  exact ⟨e', he', congrArg Prod.fst hpose⟩

/-- **What holds in the course of `handleCollision`**, begun in `r₀`. -/
structure Collided (r₀ : Room F) (hits : List UInt16) (r : Room F) : Prop where
  fighting : r.Fighting 0 hits
  level : r₀.LevelUp r
  poses : r.poses = r₀.poses

variable {r₀ : Room F} {hits : List UInt16}

theorem Collided.collideProjectile (h : Collided r₀ hits r)
    (hshot : ∀ e, r₀.game.entities[i]? = some e → e.type = 1 ∨ e.type = 4) :
    Collided r₀ (hits ++ r.strike i j) (r.collideProjectile i j) := by
  obtain ⟨hturn, hstrike⟩ | ⟨projectile, enemy, hprojectile, henemy, hturn⟩ := r.collideProjectile_cases i j
  · rw [hturn, hstrike, List.append_nil]
    exact h
  have htype : projectile.type = 1 ∨ projectile.type = 4 := by
    obtain ⟨e, he, hsame⟩ := type_of_poses h.poses hprojectile
    rw [← hsame]
    exact hshot e he
  have hnoBoss : projectile.type ≠ 10 := by
    rcases htype with htype | htype <;> rw [htype] <;> decide
  have hflag : (r.flag i).Fighting 0 hits := h.fighting.of_eq rfl (flag_liveBosses hprojectile hnoBoss)
  obtain ⟨hother, hturn, hstrike⟩ | ⟨hboss, hlive, hturn, hstrike⟩ := hturn
  · -- an enemy, which is flagged
    rw [hturn, hstrike, List.append_nil]
    obtain ⟨e, he, hsame⟩ := type_of_poses (flag_poses r i).symm henemy
    refine ⟨hflag.of_eq rfl (flag_liveBosses he (hsame ▸ hother)), h.level, ?_⟩
    rw [flag_poses, flag_poses, h.poses]
  · -- a boss, which is no projectile
    have hne : i ≠ j := by
      rintro rfl
      obtain rfl := Option.some.inj (hprojectile.symm.trans henemy)
      exact hnoBoss hboss
    have henemy' : (r.flag i).game.entities[j]? = some enemy := by
      change (r.game.entities.modify i _)[j]? = some enemy
      rw [List.getElem?_modify_ne _ _ hne, henemy]
    obtain ⟨hfight, hup⟩ := hflag.hitBoss henemy' hboss hlive htype
    rw [hturn, hstrike]
    exact ⟨hfight, h.level.trans hup, by rw [hitBoss_poses, flag_poses, h.poses]⟩

theorem Collided.collideProjectiles (n : ℕ) (h : Collided r₀ hits r) :
    Collided r₀ (hits ++ r.strikesOf n i) (collideProjectiles n r i) := by
  rcases hprojectile : r.game.entities[i]? with _ | projectile
  · rw [Room.collideProjectiles, strikesOf, hprojectile, List.append_nil]
    exact h
  by_cases hother : projectile.type ≠ 1 ∧ projectile.type ≠ 4
  · simp only [Room.collideProjectiles, strikesOf, hprojectile, if_pos hother, List.append_nil]
    exact h
  simp only [Room.collideProjectiles, strikesOf, hprojectile, if_neg hother]
  have hshot : ∀ e, r₀.game.entities[i]? = some e → e.type = 1 ∨ e.type = 4 := by
    intro e he
    obtain ⟨e', he', hsame⟩ := type_of_poses h.poses hprojectile
    obtain rfl := Option.some.inj (he.symm.trans he')
    rw [hsame]
    by_contra hno
    exact hother (not_or.1 hno)
  exact foldLog_rule (fun hits r j h => h.collideProjectile hshot) _ _ _ h

theorem Collided.collidePlayer (player : Player F) (h : Collided r₀ hits r) :
    Collided r₀ hits (collidePlayer player r j) := by
  unfold Room.collidePlayer
  split
  case h_2 => exact h
  case h_1 enemy henemy =>
    split
    case isTrue => exact h
    case isFalse hkind =>
      have hother : enemy.type ≠ 10 := by
        intro hboss
        rw [hboss] at hkind
        exact hkind (by decide)
      split
      · exact h
      · split
        · exact ⟨h.fighting.of_eq rfl (flag_liveBosses henemy hother), h.level, (flag_poses r j).trans h.poses⟩
        · exact h

/-- **`handleCollision` keeps the fight in order.** -/
theorem Fighting.handleCollision (h : r.Fighting 0 hits) :
    Collided r (hits ++ r.strikes) r.handleCollision := by
  have hstart : Collided r hits r := ⟨h, .refl r, rfl⟩
  have hprojectiles := foldLog_rule (fun hits r' i (h : Collided r hits r') =>
    h.collideProjectiles (i := i) r.game.entities.length) (List.range r.game.entities.length) hits r hstart
  exact foldl_keeps (fun r' player h => foldl_keeps (fun r'' j h => h.collidePlayer player) _ h) _ hprojectiles

end Room

/-! ## On the screen -/

namespace Entity

variable [ExactOps F] {e : Entity F}

/-- A boss has its place near the right of the screen. -/
def InArena (e : Entity F) : Prop := e.type = 10 → 1498 < e.x ∧ e.x ≤ 1600

/-- A boss moves to the left as long as it has not reached its place. -/
def Steered (e : Entity F) : Prop := e.type = 10 → e.velocityX = -2 ∧ 1500 < e.x ∨ e.velocityX = 0

theorem advance_inArena (h : e.InArena) (hs : e.Steered) : e.advance.InArena := by
  intro htype
  obtain ⟨hleft, hright⟩ := h htype
  have hx : e.advance.x = e.x + e.velocityX := rfl
  rw [hx]
  rcases hs htype with ⟨hv, hfar⟩ | hv
  · rw [hv]
    constructor <;> linarith
  · rw [hv, add_zero]
    exact ⟨hleft, hright⟩

/-- **A boss that can be hit stays.** -/
theorem leaves_eq_false (h : e.InArena) (htype : e.type = 10) (hlive : e.isCollide = false) : e.leaves = false := by
  obtain ⟨hleft, hright⟩ := h htype
  have hin : ¬ ((1920 : ℤ) : F) < e.x := by
    push_cast
    linarith
  have hin' : ¬ e.x < ((-20 : ℤ) : F) := by
    push_cast
    linarith
  unfold leaves
  rw [hlive, decide_eq_false hin, decide_eq_false hin']
  rfl

theorem steer_isCollide (e : Entity F) (gameTime : F) (bossLevel : ℤ) :
    (e.steer gameTime bossLevel).isCollide = e.isCollide :=
  steer_keeps (·.isCollide) (fun _ _ _ => rfl) e gameTime bossLevel

theorem steer_x (e : Entity F) (gameTime : F) (bossLevel : ℤ) : (e.steer gameTime bossLevel).x = e.x :=
  steer_keeps (·.x) (fun _ _ _ => rfl) e gameTime bossLevel

theorem steer_inArena (h : e.InArena) (gameTime : F) (bossLevel : ℤ) : (e.steer gameTime bossLevel).InArena := by
  intro htype
  rw [steer_type] at htype
  rw [steer_x]
  exact h htype

theorem steer_steered (e : Entity F) (gameTime : F) (bossLevel : ℤ) : (e.steer gameTime bossLevel).Steered := by
  intro htype
  rw [steer_type] at htype
  unfold steer
  extract_lets e'
  have htype' : e'.type = 10 := by
    have hsame : e'.type = e.type := by
      simp only [e']
      split <;> rfl
    rw [hsame, htype]
  rw [if_pos htype']
  split
  case isTrue hfar =>
    refine .inl ⟨?_, ?_⟩
    · norm_num
    · push_cast at hfar
      exact hfar
  case isFalse =>
    right
    split <;> norm_num

end Entity

/-! ## Sections in which nothing happens to a boss -/

namespace Room.Aside

variable {r r' : Room F}

theorem countP (h : r.Aside r') (p : Entity F → Bool) (hp : ∀ e, e.type ≠ 10 → p e = false) :
    r'.game.entities.countP p = r.game.entities.countP p := by
  obtain ⟨new, he, hnew⟩ := h.entities
  have hnone : new.countP p = 0 := List.countP_eq_zero.2 fun e hmem => by simp [hp e (hnew e hmem)]
  rw [he, List.countP_append, hnone, Nat.add_zero]

theorem bosses (h : r.Aside r') : r'.bosses = r.bosses :=
  h.countP _ fun e he => by simpa using he

theorem liveBosses (h : r.Aside r') : r'.liveBosses = r.liveBosses :=
  h.countP _ fun e he => by simp [he]

theorem fighting (h : r.Aside r') {awaited : ℕ} {hits : List UInt16} (hf : r.Fighting awaited hits) :
    r'.Fighting awaited hits := by
  refine ⟨?_, ?_, ?_⟩ <;> rw [h.level]
  · rw [h.liveBosses]
    exact hf.bosses
  · rw [h.hp]
    exact hf.first
  · rw [h.hp]
    exact hf.second

/-- What is so of every boss stays so. -/
theorem forall_boss (h : r.Aside r') {P : Entity F → Prop} (hP : ∀ e, e.type ≠ 10 → P e)
    (hr : ∀ e ∈ r.game.entities, P e) : ∀ e ∈ r'.game.entities, P e := by
  obtain ⟨new, he, hnew⟩ := h.entities
  intro e hmem
  rw [he] at hmem
  rcases List.mem_append.1 hmem with hmem | hmem
  · exact hr e hmem
  · exact hP e (hnew e hmem)

end Room.Aside

/-! ## Whole runs -/

/-- The sections between the moves of `updateEntities` and the end of `updateGameLevel`. -/
def LoopPc.moved : LoopPc F → Prop
  | handleCollision | broadcastGameState | updateGameLevel => True
  | _ => False

variable [ExactOps F]

/-- **The invariant of the fights.** -/
structure Fought (log : BossLog) (s : GameThreads F) : Prop where
  levels : ∃ n : ℕ, n ≤ 4 ∧ s.room.boss.level = n ∧ log.levels = (List.range (n + 1)).map Nat.cast
  spawns : log.spawns ++ s.loop.awaited s.room.boss.level = [1, 3].filter (· ≤ s.room.boss.level)
  fighting : s.room.Fighting (s.loop.awaited s.room.boss.level).length log.hits
  arena : ∀ e ∈ s.room.game.entities, e.InArena
  steered : ¬ s.loop.moved → ∀ e ∈ s.room.game.entities, e.Steered

namespace Fought

variable {log : BossLog} {s s' : GameThreads F} {l : GameThreads.Label F}

/-- A step that keeps the level, and spawns no boss. -/
theorem keep (h : Fought log s) (hlevel : s'.room.boss.level = s.room.boss.level)
    (hbosses : s'.room.bosses ≤ s.room.bosses)
    (hawaited : s'.loop.awaited s.room.boss.level = s.loop.awaited s.room.boss.level)
    (hfighting : s'.room.Fighting (s.loop.awaited s.room.boss.level).length (log.hits ++ BossLog.struck s l))
    (harena : ∀ e ∈ s'.room.game.entities, e.InArena)
    (hsteered : ¬ s'.loop.moved → ∀ e ∈ s'.room.game.entities, e.Steered) :
    Fought (log.watch s l s') s' := by
  have hnone : s'.room.bosses - s.room.bosses = 0 := by omega
  unfold BossLog.watch
  simp only [if_pos hlevel, hnone, List.replicate_zero, List.append_nil]
  refine ⟨?_, ?_, ?_, harena, hsteered⟩
  · rw [hlevel]
    exact h.levels
  · rw [hlevel, hawaited]
    exact h.spawns
  · rw [hlevel, hawaited]
    exact hfighting

/-- A step that takes the level up by one. -/
theorem rise (h : Fought log s) (hlevel : s'.room.boss.level = s.room.boss.level + 1) (hlast : s.room.boss.level < 4)
    (hbosses : s'.room.bosses ≤ s.room.bosses)
    (hspawns : log.spawns ++ s'.loop.awaited s'.room.boss.level = [1, 3].filter (· ≤ s'.room.boss.level))
    (hfighting : s'.room.Fighting (s'.loop.awaited s'.room.boss.level).length [])
    (harena : ∀ e ∈ s'.room.game.entities, e.InArena)
    (hsteered : ¬ s'.loop.moved → ∀ e ∈ s'.room.game.entities, e.Steered) :
    Fought (log.watch s l s') s' := by
  have hnone : s'.room.bosses - s.room.bosses = 0 := by omega
  have hchange : ¬ s'.room.boss.level = s.room.boss.level := by omega
  obtain ⟨n, hn, hnow, hlevels⟩ := h.levels
  unfold BossLog.watch
  simp only [if_neg hchange, hnone, List.replicate_zero, List.append_nil]
  refine ⟨⟨n + 1, ?_, ?_, ?_⟩, hspawns, hfighting, harena, hsteered⟩
  · omega
  · rw [hlevel, hnow]
    rfl
  · have hnext : s'.room.boss.level = ((n + 1 : ℕ) : ℤ) := by
      rw [hlevel, hnow]
      rfl
    rw [hlevels, hnext, List.range_succ (n := n + 1), List.map_append]
    rfl

/-- A step in which nothing happens to a boss. -/
theorem aside (h : Fought log s) (haside : s.room.Aside s'.room) (hstruck : BossLog.struck s l = [])
    (hawaited : s'.loop.awaited s.room.boss.level = s.loop.awaited s.room.boss.level)
    (hmoved : s.loop.moved → s'.loop.moved) : Fought (log.watch s l s') s' := by
  refine h.keep haside.level haside.bosses.le hawaited ?_ ?_ ?_
  · rw [hstruck, List.append_nil]
    exact haside.fighting h.fighting
  · exact haside.forall_boss (fun e he h10 => absurd h10 he) h.arena
  · intro hno
    exact haside.forall_boss (fun e he h10 => absurd h10 he) (h.steered (mt hmoved hno))

variable {r : Room F} {playerId : UInt32} {ops : List UdpOp} {env : UpdateEnv}

theorem updateEntities (h : Fought log ⟨r, playerId, ops, .updateEntities⟩) :
    Fought (log.watch ⟨r, playerId, ops, .updateEntities⟩ (.loop env)
        ⟨r.updateEntities, playerId, ops, .handleCollision⟩)
      ⟨r.updateEntities, playerId, ops, .handleCollision⟩ := by
  have harena : ∀ e ∈ r.game.entities, e.advance.InArena := fun e he =>
    Entity.advance_inArena (h.arena e he) (h.steered (fun hno => hno) e he)
  have hlive : r.updateEntities.liveBosses = r.liveBosses := by
    change ((r.game.entities.map Entity.advance).filter fun e => !e.leaves).countP _ = _
    rw [List.countP_filter, List.countP_map]
    refine List.countP_congr fun e he => ?_
    simp only [Function.comp_apply, Bool.and_eq_true, beq_iff_eq, Bool.not_eq_true']
    constructor
    · exact fun hstays => hstays.1
    · exact fun hboss => ⟨hboss, Entity.leaves_eq_false (harena e he) hboss.1 hboss.2⟩
  have hbosses : r.updateEntities.bosses ≤ r.bosses := by
    refine List.filter_sublist.countP_le.trans_eq ?_
    rw [List.countP_map]
    rfl
  refine h.keep rfl hbosses rfl ?_ ?_ (fun hno => absurd trivial hno)
  · exact (List.append_nil log.hits).symm ▸ h.fighting.of_eq rfl hlive
  · intro e' he'
    obtain ⟨e, he, rfl⟩ := List.mem_map.1 (List.mem_filter.1 he').1
    exact harena e he

theorem updateGameLevel (h : Fought log ⟨r, playerId, ops, .updateGameLevel⟩) (elapsedTime : F) :
    Fought (log.watch ⟨r, playerId, ops, .updateGameLevel⟩ (.loop env)
        ⟨r.updateGameLevel elapsedTime, playerId, ops, .bossStage⟩)
      ⟨r.updateGameLevel elapsedTime, playerId, ops, .bossStage⟩ := by
  have hcount : ∀ p : UInt16 → Bool → Bool, (r.updateGameLevel elapsedTime).game.entities.countP
      (fun e => p e.type e.isCollide) = r.game.entities.countP fun e => p e.type e.isCollide := by
    intro p
    rw [Room.updateGameLevel, List.countP_map]
    refine List.countP_congr fun e _ => ?_
    rw [Function.comp_apply, Entity.steer_type, Entity.steer_isCollide]
  refine h.keep rfl (hcount fun type _ => type == 10).le rfl ?_ ?_ ?_
  · exact (List.append_nil log.hits).symm ▸
      h.fighting.of_eq rfl (hcount fun type isCollide => type == 10 && !isCollide)
  · intro e' he'
    obtain ⟨e, he, rfl⟩ := List.mem_map.1 he'
    exact Entity.steer_inArena (h.arena e he) _ _
  · rintro - e' he'
    obtain ⟨e, he, rfl⟩ := List.mem_map.1 he'
    exact e.steer_steered _ _

/-- `handleCollision` may be the end of a boss. -/
theorem handleCollision (h : Fought log ⟨r, playerId, ops, .handleCollision⟩) :
    Fought (log.watch ⟨r, playerId, ops, .handleCollision⟩ (.loop env)
        ⟨r.handleCollision, playerId, ops, .broadcastGameState⟩)
      ⟨r.handleCollision, playerId, ops, .broadcastGameState⟩ := by
  have hcollided : r.Collided (log.hits ++ r.strikes) r.handleCollision := Room.Fighting.handleCollision h.fighting
  -- collisions flag entities but remove none
  have hbosses : r.handleCollision.bosses = r.bosses := by
    have hcount : ∀ r : Room F, r.bosses = r.poses.countP fun pose => pose.1 == 10 := by
      intro r
      rw [Room.poses, List.countP_map]
      rfl
    rw [hcount, hcount, hcollided.poses]
  -- and they move none
  have harena : ∀ e ∈ r.handleCollision.game.entities, e.InArena := by
    intro e he
    obtain ⟨i, hi⟩ := List.mem_iff_getElem?.1 he
    have hpose := congrArg (·[i]?) hcollided.poses
    simp only [Room.poses, List.getElem?_map, hi, Option.map_some] at hpose
    obtain ⟨e', he', hsame⟩ := Option.map_eq_some_iff.1 hpose.symm
    obtain ⟨htype, hx, -⟩ : e'.type = e.type ∧ e'.x = e.x ∧ e'.velocityX = e.velocityX := by
      simpa only [Prod.mk.injEq] using hsame
    have hin := h.arena e' (List.mem_of_getElem? he')
    rwa [Entity.InArena, htype, hx] at hin
  have hmoved : ¬ (LoopPc.broadcastGameState (F := F)).moved → ∀ e ∈ r.handleCollision.game.entities, e.Steered :=
    fun hno => absurd trivial hno
  rcases hcollided.level with hsame | ⟨hboss, hup⟩
  · exact h.keep hsame hbosses.le rfl hcollided.fighting harena hmoved
  · have hspawns := h.spawns
    refine h.rise hup ?_ hbosses.le ?_ ?_ harena hmoved
    · change r.boss.level < 4
      omega
    · change log.spawns ++ [] = [1, 3].filter (· ≤ r.boss.level) at hspawns
      change log.spawns ++ [] = [1, 3].filter (· ≤ r.handleCollision.boss.level)
      rw [hspawns, hup]
      rcases hboss with hboss | hboss <;> rw [hboss] <;> decide
    · have hnone := hcollided.fighting.bosses
      rw [if_neg (by omega)] at hnone
      exact .over hnone (by change r.handleCollision.boss.level ≠ 1; omega)
        (by change r.handleCollision.boss.level ≠ 3; omega)

/-- A boss is entered at level 0 and at level 2. -/
theorem enter (h : Fought log ⟨r, playerId, ops, .bossStage⟩) {boss : Boss F} {bossMaxHP : ℤ}
    (hstage : r.boss.level = 0 ∧ boss.level = 1 ∧ boss.hp = 1000 ∨
      r.boss.level = 2 ∧ boss.level = 3 ∧ boss.hp = 2000) :
    Fought (log.watch ⟨r, playerId, ops, .bossStage⟩ (.loop env)
        ⟨{ r with boss }, playerId, ops, .spawnBoss bossMaxHP⟩)
      ⟨{ r with boss }, playerId, ops, .spawnBoss bossMaxHP⟩ := by
  have hup : boss.level = r.boss.level + 1 := by omega
  -- no boss is left from the level before
  have hnone : r.liveBosses = 0 := by
    have hbosses := h.fighting.bosses
    change r.liveBosses + 0 = if r.boss.level = 1 ∨ r.boss.level = 3 then 1 else 0 at hbosses
    rwa [if_neg (by omega)] at hbosses
  have hspawns : log.spawns ++ [] = [1, 3].filter (· ≤ r.boss.level) := h.spawns
  refine h.rise hup (by change r.boss.level < 4; omega) le_rfl ?_ ⟨?_, fun h1 => ?_, fun h3 => ?_⟩ h.arena
    (fun _ => h.steered (fun hno => hno))
  · change log.spawns ++ [boss.level] = [1, 3].filter (· ≤ boss.level)
    rw [List.append_nil] at hspawns
    rw [hspawns]
    rcases hstage with ⟨h0, h1, -⟩ | ⟨h2, h3, -⟩
    · rw [h0, h1]
      decide
    · rw [h2, h3]
      decide
  · change r.liveBosses + 1 = if boss.level = 1 ∨ boss.level = 3 then 1 else 0
    rw [hnone, if_pos (by omega)]
  · have h1 : boss.level = 1 := h1
    change boss.hp = 1000 - 0 ∧ 0 < boss.hp
    omega
  · have h3 : boss.level = 3 := h3
    change boss.hp = 2000 - 0 ∧ 0 < boss.hp
    omega

theorem bossStage (h : Fought log ⟨r, playerId, ops, .bossStage⟩) :
    Fought (log.watch ⟨r, playerId, ops, .bossStage⟩ (.loop env)
        ⟨(LoopPc.bossStage.run env r).1, playerId, ops, (LoopPc.bossStage.run env r).2⟩)
      ⟨(LoopPc.bossStage.run env r).1, playerId, ops, (LoopPc.bossStage.run env r).2⟩ := by
  by_cases hfirst : r.boss.level = 0 ∧ (10.0 : F) < r.game.gameTime
  · simp only [LoopPc.run, Room.bossStage, if_pos hfirst]
    exact h.enter (.inl ⟨hfirst.1, rfl, rfl⟩)
  by_cases hsecond : r.boss.level = 2 ∧ r.boss.deathTime + 0.0 < r.game.gameTime
  · simp only [LoopPc.run, Room.bossStage, if_neg hfirst, if_pos hsecond]
    exact h.enter (.inr ⟨hsecond.1, rfl, rfl⟩)
  · simp only [LoopPc.run, Room.bossStage, if_neg hfirst, if_neg hsecond]
    exact h.aside (Room.Bystands.refl r).aside rfl rfl id

theorem spawnBoss {bossMaxHP : ℤ} (h : Fought log ⟨r, playerId, ops, .spawnBoss bossMaxHP⟩) :
    Fought (log.watch ⟨r, playerId, ops, .spawnBoss bossMaxHP⟩ (.loop env)
        ⟨r.spawnBoss bossMaxHP, playerId, ops, .bossAim⟩)
      ⟨r.spawnBoss bossMaxHP, playerId, ops, .bossAim⟩ := by
  obtain ⟨boss, hentities, htype, hx, hvx, hlive⟩ : ∃ boss : Entity F,
      (r.spawnBoss bossMaxHP).game.entities = r.game.entities ++ [boss] ∧ boss.type = 10 ∧ boss.x = 1600.0 ∧
        boss.velocityX = -2.0 ∧ boss.isCollide = false := ⟨_, rfl, rfl, rfl, rfl, rfl⟩
  -- the log counts one spawn more
  have hone : (r.spawnBoss bossMaxHP).bosses - r.bosses = 1 := by
    rw [Room.bosses, Room.bosses, hentities, List.countP_append, List.countP_singleton, if_pos (by simp [htype])]
    omega
  have hlives : (r.spawnBoss bossMaxHP).liveBosses = r.liveBosses + 1 := by
    rw [Room.liveBosses, hentities, List.countP_append, List.countP_singleton, if_pos (by simp [htype, hlive])]
    rfl
  have hfighting := h.fighting
  unfold BossLog.watch
  have hlevel : (r.spawnBoss bossMaxHP).boss.level = r.boss.level := rfl
  simp only [if_pos hlevel, hone, List.replicate_one]
  refine ⟨h.levels, ?_, ⟨?_, ?_, ?_⟩, ?_, fun _ => ?_⟩
  · exact (List.append_nil _).trans h.spawns
  · change (r.spawnBoss bossMaxHP).liveBosses + 0 = _
    rw [hlives]
    exact hfighting.bosses
  · exact (List.append_nil log.hits).symm ▸ hfighting.first
  · exact (List.append_nil log.hits).symm ▸ hfighting.second
  · -- a boss enters from the right
    intro e he
    change e ∈ (r.spawnBoss bossMaxHP).game.entities at he
    rw [hentities, List.mem_append, List.mem_singleton] at he
    rcases he with he | rfl
    · exact h.arena e he
    · intro _
      rw [hx]
      norm_num
  · intro e he
    change e ∈ (r.spawnBoss bossMaxHP).game.entities at he
    rw [hentities, List.mem_append, List.mem_singleton] at he
    rcases he with he | rfl
    · exact h.steered (fun hno => hno) e he
    · intro _
      rw [hx, hvx]
      norm_num

/-- The sections of `update`. -/
theorem loop (h : Fought log s) (env : UpdateEnv)
    (hs' : s' = { s with room := (s.loop.run env s.room).1, loop := (s.loop.run env s.room).2 }) :
    Fought (log.watch s (.loop env) s') s' := by
  obtain ⟨r, playerId, ops, pc⟩ := s
  subst hs'
  cases pc with
  | idle =>
    refine h.aside (Room.Bystands.refl r).aside rfl ?_ False.elim
    simp only [LoopPc.run]
    split <;> rfl
  | updateEntities => exact h.updateEntities
  | handleCollision => exact h.handleCollision
  | broadcastGameState => exact h.aside r.broadcastGameState_bystands.aside rfl rfl id
  | updateGameLevel => exact h.updateGameLevel _
  | bossStage => exact h.bossStage
  | spawnBoss bossMaxHP => exact h.spawnBoss
  | bossAim =>
    simp only [LoopPc.run]
    split
    · exact h.aside (Room.Bystands.refl r).aside rfl rfl id
    · exact h.aside (Room.Bystands.refl r).aside rfl rfl id
  | bossShoot x y => exact h.aside (r.bossShoot_aside x y) rfl rfl id
  | enemyStage => exact h.aside (r.enemyStage_bystands env).aside rfl rfl id
  | syncStage => exact h.aside (r.syncStage_bystands env).aside rfl rfl id

/-- **Every step of every thread keeps the fights in order.** -/
theorem step (h : Fought log s) (hstep : GameThreads.machine.step s l = some s') : Fought (log.watch s l s') s' := by
  obtain ⟨c, rfl, -, rfl⟩ | ⟨memory, op, rest, rfl, hops, rfl⟩ | ⟨env, rfl, hs'⟩ | ⟨f, hf, rfl⟩ :=
    GameThreads.step_cases hstep
  · exact h.aside (Room.Bystands.refl s.room).aside rfl rfl id
  · exact h.aside (op.bystands s.playerId memory s.room).aside rfl rfl id
  · exact h.loop env hs'
  · refine h.aside (GameThreads.section_bystands hf s.room).aside ?_ rfl id
    cases l <;> first | rfl | cases hf

theorem init (now : ℕ) : Fought .start (GameThreads.init (Boss.none : Boss F) now) := by
  refine ⟨⟨0, by decide, rfl, rfl⟩, rfl, ⟨rfl, fun h => ?_, fun h => ?_⟩, fun e he => ?_, fun _ e he => ?_⟩
  · exact absurd h (by decide : (0 : ℤ) ≠ 1)
  · exact absurd h (by decide : (0 : ℤ) ≠ 3)
  · cases he
  · cases he

end Fought

/-- **The boss fights** of a game, over every run of its threads. -/
theorem bossFights (now : ℕ) (labels : List (GameThreads.Label F)) (s : GameThreads F)
    (hrun : GameThreads.machine.run (GameThreads.init Boss.none now) labels = some s) :
    BossFights (GameThreads.machine.observe BossLog.watch .start (GameThreads.init Boss.none now) labels) s := by
  have h := Machine.inv_observe (fun _ _ _ _ h hstep => h.step hstep) labels _ _ s (Fought.init (F := F) now) hrun
  refine ⟨h.levels, h.spawns, fun hidle => ?_, h.fighting.first, h.fighting.second⟩
  have hbosses := h.fighting.bosses
  rwa [hidle] at hbosses

/-! ## A boss comes -/

section Waiting

open ServerManager (waiting waiting_bossStage_early waiting_bossStage_late waiting_early waiting_late waiting_time)
open ServerManager (still)

/-- One section of `update`, while the UDP thread is idle. -/
theorem step_section {r r' : Room ℚ} {pc pc' : LoopPc ℚ} (h : pc.run still r = (r', pc')) :
    GameThreads.machine.step ⟨r, 0, [], pc⟩ (.loop still) = some ⟨r', 0, [], pc'⟩ := by
  change some (GameThreads.mk (pc.run still r).1 0 [] (pc.run still r).2) = _
  rw [h]

/-- The sections up to the boss. -/
theorem waiting_before (t : ℚ) :
    GameThreads.machine.run ⟨waiting t, 0, [], .idle⟩ (List.replicate 5 (.loop still)) =
      some ⟨waiting (t + 0.016), 0, [], .bossStage⟩ := rfl

/-- An update before the boss. -/
theorem waiting_run {t : ℚ} (h : ¬ (10.0 : ℚ) < t + 0.016) :
    GameThreads.machine.run ⟨waiting t, 0, [], .idle⟩ (List.replicate 9 (.loop still)) =
      some ⟨waiting (t + 0.016), 0, [], .idle⟩ := by
  have hstage : LoopPc.bossStage.run still (waiting (t + 0.016)) = (waiting (t + 0.016), .bossAim) := by
    rw [LoopPc.run, waiting_bossStage_early h]
  have hsplit : List.replicate 9 (GameThreads.Label.loop (F := ℚ) still) =
      List.replicate 5 (.loop still) ++ .loop still :: List.replicate 3 (.loop still) := rfl
  rw [hsplit, Machine.run_append_iff]
  exact ⟨_, waiting_before t, (Machine.run_cons_iff _).2 ⟨_, step_section hstage, rfl⟩⟩

/-- The update in which the first boss comes. -/
theorem waiting_run_boss {t : ℚ} (h : (10.0 : ℚ) < t + 0.016) :
    ∃ r : Room ℚ, GameThreads.machine.run ⟨waiting t, 0, [], .idle⟩ (List.replicate 11 (.loop still)) =
      some ⟨r, 0, [], .idle⟩ ∧ r.boss.level = 1 := by
  have hstage : LoopPc.bossStage.run still (waiting (t + 0.016)) =
      ({ waiting (t + 0.016) with boss.level := 1, boss.hp := 1000 }, .spawnBoss 1000) := by
    rw [LoopPc.run, waiting_bossStage_late h]
  have hsplit : List.replicate 11 (GameThreads.Label.loop (F := ℚ) still) =
      List.replicate 5 (.loop still) ++ .loop still :: List.replicate 5 (.loop still) := rfl
  rw [hsplit]
  simp only [Machine.run_append_iff]
  refine ⟨_, ⟨_, waiting_before t, (Machine.run_cons_iff _).2 ⟨_, step_section hstage, rfl⟩⟩, ?_⟩
  refine (Room.syncStage_bystands _ _).aside.level.trans ((Room.enemyStage_bystands _ _).aside.level.trans ?_)
  exact Room.bossShoot_level _ _ _

/-- A game with one player is played for ten seconds: 625 updates, and the one in which the
first boss comes. -/
def tenSeconds : List (GameThreads.Label ℚ) :=
  [.join 1 [], .start 1] ++ List.replicate (625 * 9) (.loop still) ++ List.replicate 11 (.loop still)

theorem waiting_runs {n : ℕ} (h : n ≤ 625) :
    GameThreads.machine.run ⟨waiting 0, 0, [], .idle⟩ (List.replicate (n * 9) (.loop still)) =
      some ⟨waiting (n * 0.016), 0, [], .idle⟩ := by
  induction n with
  | zero =>
    rw [Nat.cast_zero, zero_mul, zero_mul]
    rfl
  | succ n ih =>
    rw [Nat.succ_mul, List.replicate_add, Machine.run_append_iff, ← waiting_time]
    exact ⟨_, ih (by omega), waiting_run (waiting_early h)⟩

/-- The first boss has come, and is there to be fought. -/
theorem bossFights_tenSeconds : ∃ s : GameThreads ℚ,
    GameThreads.machine.run (GameThreads.init Boss.none 0) tenSeconds = some s ∧
      s.loop = .idle ∧ s.room.boss.level = 1 ∧
      BossFights (GameThreads.machine.observe BossLog.watch .start (GameThreads.init Boss.none 0) tenSeconds) s := by
  have hstart : GameThreads.machine.run (GameThreads.init (Boss.none : Boss ℚ) 0) [.join 1 [], .start 1] =
      some ⟨waiting 0, 0, [], .idle⟩ := rfl
  obtain ⟨r, hboss, hlevel⟩ := waiting_run_boss waiting_late
  have hrun : GameThreads.machine.run (GameThreads.init (Boss.none : Boss ℚ) 0) tenSeconds =
      some ⟨r, 0, [], .idle⟩ := by
    unfold tenSeconds
    rw [Machine.run_append_iff]
    exact ⟨_, (Machine.run_append_iff _).2 ⟨_, hstart, waiting_runs le_rfl⟩, hboss⟩
  exact ⟨_, hrun, rfl, hlevel, bossFights 0 tenSeconds _ hrun⟩

end Waiting

end RType

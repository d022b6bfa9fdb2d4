import RType.Proof.BossFights
import RType.Proof.EntitySteps

/-!
# Where the shots of a boss come from

A boss that has died stays in the list until the next `updateEntities`. The second boss may
come in the same `update`, behind it in the list, and `bossAim` takes the first.

* `Room.handleCollision_rule`: what flags on other entities and hits on live bosses keep,
  `handleCollision` keeps.
* `GameThreads.Aims`: what is known of the bosses in the list at each section of `update`.
* `fromLiving_along`: every shot comes from a boss that is alive, in every run in which the
  second boss never comes while the dead one is in the list and a shot is due.
-/

namespace RType

open Lts

variable {F : Type*} [FloatOps F]

/-! ## What the shots come from -/

namespace Room

/-- Every boss in the list is alive. -/
def Living (r : Room F) : Prop := ∀ e ∈ r.game.entities, e.type = 10 → e.isCollide = false

/-- A boss is there to shoot. -/
def Engaged (r : Room F) : Prop := r.boss.level = 1 ∨ r.boss.level = 3

/-- A shot is due. -/
def Armed (r : Room F) : Prop :=
  (if r.boss.level = 3 then 1.0 else 1.5 : F) < r.game.gameTime - r.boss.lastShootTime

/-- The place of the shots, `x` and `y` being those of a boss in the list that is alive. -/
def HasLiving (r : Room F) (x y : F) : Prop :=
  ∃ b ∈ r.game.entities, b.type = 10 ∧ b.isCollide = false ∧ b.x = x ∧ b.y = y

/-- Until the boss comes there is none in the list. -/
def Unborn (r : Room F) : Prop := r.boss.level = 0 → ∀ e ∈ r.game.entities, e.type ≠ 10

end Room

namespace GameThreads

/-- Each boss shot made in a step has its place 80 below a boss that is in the list and alive. -/
def FromLiving (s s' : GameThreads F) : Prop :=
  ∀ e ∈ s.madeBy s', e.type = 11 →
    ∃ b ∈ s.room.game.entities, b.type = 10 ∧ b.isCollide = false ∧ e.x = b.x ∧ e.y = b.y + ((80 : ℤ) : F)

/-- The second boss comes while the dead one is in the list, and a shot is due. -/
def DeadBossShoots (s : GameThreads F) (l : Label F) : Prop :=
  s.loop = .bossStage ∧ (∃ env, l = .loop env) ∧ s.room.boss.level = 2 ∧
    s.room.boss.deathTime + 0.0 < s.room.game.gameTime ∧
    (∃ e ∈ s.room.game.entities, e.type = 10 ∧ e.isCollide = true) ∧
    (1.0 : F) < s.room.game.gameTime - s.room.boss.lastShootTime

end GameThreads

/-- What is known of the bosses where the loop stands. -/
def LoopPc.Aims (r : Room F) : LoopPc F → Prop
  | handleCollision => r.Living
  | broadcastGameState | updateGameLevel | bossStage => r.Engaged → r.Living
  | spawnBoss _ | bossAim => r.Engaged → r.Armed → r.Living
  | bossShoot x y => r.Armed → r.HasLiving x y
  | _ => True

/-! ## Collisions -/

namespace Room

variable {r r₀ : Room F} {i j : ℕ}

/-- **Rule for `handleCollision`** with the damage: it flags entities that are no boss, and hits
bosses that are alive, for 10 or 50. -/
theorem handleCollision_damage_rule {I : Room F → Prop}
    (hflag : ∀ r i e, r.game.entities[i]? = some e → e.type ≠ 10 → I r → I (r.flag i))
    (hhit : ∀ r j e damage, damage = 10 ∨ damage = 50 → r.game.entities[j]? = some e → e.type = 10 →
      e.isCollide = false → I r → I (r.hitBoss j damage)) (h : I r) : I r.handleCollision := by
  -- collisions keep the types, by which the turns go
  have hturn : ∀ r' i j, (∀ e, r.game.entities[i]? = some e → e.type ≠ 10) → I r' ∧ r'.poses = r.poses →
      I (r'.collideProjectile i j) ∧ (r'.collideProjectile i j).poses = r.poses := by
    rintro r' i j hshot ⟨hI, hposes⟩
    obtain ⟨hturn, -⟩ | ⟨projectile, enemy, hprojectile, henemy, hturn⟩ := r'.collideProjectile_cases i j
    · rw [hturn]
      exact ⟨hI, hposes⟩
    have hnoBoss : projectile.type ≠ 10 := by
      obtain ⟨e, he, hsame⟩ := type_of_poses hposes hprojectile
      rw [← hsame]
      exact hshot e he
    have hflagged : I (r'.flag i) := hflag r' i projectile hprojectile hnoBoss hI
    obtain ⟨hother, hturn, -⟩ | ⟨hboss, hlive, hturn, -⟩ := hturn
    · obtain ⟨e, he, hsame⟩ := type_of_poses (flag_poses r' i).symm henemy
      rw [hturn]
      refine ⟨hflag _ j e he (hsame ▸ hother) hflagged, ?_⟩
      rw [flag_poses, flag_poses, hposes]
    · have hne : i ≠ j := by
        rintro rfl
        obtain rfl := Option.some.inj (hprojectile.symm.trans henemy)
        exact hnoBoss hboss
      have henemy' : (r'.flag i).game.entities[j]? = some enemy := by
        change (r'.game.entities.modify i _)[j]? = some enemy
        rw [List.getElem?_modify_ne _ _ hne, henemy]
      have hdamage : (if projectile.type = 4 then 50 else 10 : ℤ) = 10 ∨ (if projectile.type = 4 then 50 else 10 : ℤ) = 50 := by
        split
        · exact .inr rfl
        · exact .inl rfl
      rw [hturn]
      exact ⟨hhit _ j enemy _ hdamage henemy' hboss hlive hflagged, by rw [hitBoss_poses, flag_poses, hposes]⟩
  have hturns : ∀ n r' i, I r' ∧ r'.poses = r.poses →
      I (collideProjectiles n r' i) ∧ (collideProjectiles n r' i).poses = r.poses := by
    intro n r' i h'
    unfold collideProjectiles
    split
    · rename_i projectile hprojectile
      split
      · exact h'
      · rename_i hshot
        refine foldl_keeps (fun r'' j => hturn r'' i j ?_) _ h'
        intro e he hboss
        obtain ⟨e', he', hsame⟩ := type_of_poses h'.2 hprojectile
        obtain rfl := Option.some.inj (he.symm.trans he')
        rw [← hsame, hboss] at hshot
        exact hshot (by decide)
    · exact h'
  have hplayer : ∀ player r' j, I r' → I (collidePlayer player r' j) := by
    intro player r' j hI
    unfold collidePlayer
    split
    · rename_i enemy henemy
      split
      · exact hI
      · rename_i hkind
        have hother : enemy.type ≠ 10 := by
          intro hboss
          rw [hboss] at hkind
          exact hkind (by decide)
        split
        · exact hI
        · split
          · exact hflag r' j enemy henemy hother hI
          · exact hI
    · exact hI
  have hprojectiles := foldl_keeps (hturns r.game.entities.length) (List.range r.game.entities.length) ⟨h, rfl⟩
  exact foldl_keeps (fun r' player hI => foldl_keeps (hplayer player) _ hI) _ hprojectiles.1

/-- **Rule for `handleCollision`**: it flags entities that are no boss, and hits bosses that
are alive. -/
theorem handleCollision_rule {I : Room F → Prop}
    (hflag : ∀ r i e, r.game.entities[i]? = some e → e.type ≠ 10 → I r → I (r.flag i))
    (hhit : ∀ r j e damage, r.game.entities[j]? = some e → e.type = 10 → e.isCollide = false → I r →
      I (r.hitBoss j damage)) (h : I r) : I r.handleCollision :=
  handleCollision_damage_rule hflag (fun r j e damage _ => hhit r j e damage) h

omit [FloatOps F] in
theorem flag_entities (r : Room F) (i : ℕ) :
    (r.flag i).game.entities = r.game.entities.modify i fun e => { e with isCollide := true } := rfl

omit [FloatOps F] in
/-- A flag on another entity kills no boss. -/
theorem Living.flag {e : Entity F} (h : r.Living) (he : r.game.entities[i]? = some e) (htype : e.type ≠ 10) :
    (r.flag i).Living := by
  intro e' he' hboss
  obtain ⟨k, hk⟩ := List.mem_iff_getElem?.1 he'
  rw [flag_entities, List.getElem?_modify] at hk
  obtain ⟨e₀, he₀, hsame⟩ := Option.map_eq_some_iff.1 hk
  split at hsame
  · rename_i hik
    -- the flagged entity is no boss
    obtain rfl : e₀ = e := Option.some.inj (he₀.symm.trans (hik ▸ he))
    rw [← hsame] at hboss
    exact absurd hboss htype
  · obtain rfl : e₀ = e' := hsame
    exact h e₀ (List.mem_of_getElem? he₀) hboss

/-- Where the boss has been killed, the fight is over. -/
theorem handleCollision_living (h : r.Living) : r.handleCollision.Engaged → r.handleCollision.Living := by
  refine handleCollision_rule (I := fun r' : Room F => r'.Engaged → r'.Living) ?_ ?_ fun _ => h
  · intro r' i e he htype hI hengaged
    exact (hI hengaged).flag he htype
  · intro r' j e damage he hboss hlive hI
    unfold hitBoss
    extract_lets hp maxHp _ r₁ r₂
    have hlevel : r₂.boss.level = r'.boss.level := rfl
    split
    · split
      · rintro (h1 | h3)
        · exact absurd h1 (by decide : (2 : ℤ) ≠ 1)
        · exact absurd h3 (by decide : (2 : ℤ) ≠ 3)
      · split
        · rintro (h1 | h3)
          · exact absurd h1 (by decide : (4 : ℤ) ≠ 1)
          · exact absurd h3 (by decide : (4 : ℤ) ≠ 3)
        · rename_i hno1 hno3
          rintro (h1 | h3)
          · exact absurd h1 hno1
          · exact absurd h3 hno3
    · exact hI

/-! ## The other sections -/

omit [FloatOps F] in
/-- What leaves the bosses alone brings none. -/
theorem Bystands.living {r r' : Room F} (h : r.Bystands r') (hr : r.Living) : r'.Living := by
  obtain ⟨new, he, hnew⟩ := h.entities
  intro e hmem hboss
  rw [he] at hmem
  rcases List.mem_append.1 hmem with hold | hfresh
  · exact hr e hold hboss
  · exact absurd hboss (hnew e hfresh)

omit [FloatOps F] in
theorem Bystands.hasLiving {r r' : Room F} (h : r.Bystands r') {x y : F} (hr : r.HasLiving x y) : r'.HasLiving x y := by
  obtain ⟨new, he, -⟩ := h.entities
  obtain ⟨b, hb, hboss⟩ := hr
  refine ⟨b, ?_, hboss⟩
  rw [he]
  exact List.mem_append_left new hb

/-- Who is flagged does not survive `updateEntities`. -/
theorem updateEntities_living (r : Room F) : r.updateEntities.Living := by
  intro e he _
  have hstays : (!e.leaves) = true := (List.mem_filter.1 he).2
  rw [Bool.not_eq_true', Entity.leaves, Bool.or_eq_false_iff] at hstays
  exact hstays.2

theorem updateGameLevel_living (elapsedTime : F) (h : r.Living) : (r.updateGameLevel elapsedTime).Living := by
  intro e' he' hboss
  obtain ⟨e, he, rfl⟩ := List.mem_map.1 he'
  rw [Entity.steer_type] at hboss
  rw [Entity.steer_keeps (·.isCollide) (fun _ _ _ => rfl)]
  exact h e he hboss

/-- The new boss is alive. -/
theorem spawnBoss_living {bossMaxHP : ℤ} (h : r.Living) : (r.spawnBoss bossMaxHP).Living := by
  intro e he hboss
  rcases List.mem_append.1 he with hold | hnew
  · exact h e hold hboss
  · rw [List.mem_singleton.1 hnew]

/-- A boss shoots if a shot is due. -/
theorem bossShoot_placed (r : Room F) (x y : F) :
    Appends (fun e => r.Armed ∧ e.x = x ∧ e.y = y + ((80 : ℤ) : F)) r (r.bossShoot x y) := by
  by_cases harmed : r.Armed
  · exact r.bossShoot_appends fun id vy => ⟨harmed, rfl, rfl⟩
  · have hnone : r.bossShoot x y = r := if_neg harmed
    rw [hnone]
    exact .of_eq rfl

omit [FloatOps F] in
/-- `bossAim` takes a boss that is there. -/
theorem bossAim_spec {r : Room F} {x y : F} (h : r.bossAim = some (x, y)) :
    r.Engaged ∧ ∃ b ∈ r.game.entities, b.type = 10 ∧ b.x = x ∧ b.y = y := by
  unfold bossAim at h
  split at h
  · rename_i hengaged
    obtain ⟨b, hb, hplace⟩ := Option.map_eq_some_iff.1 h
    obtain ⟨hx, hy⟩ := Prod.mk.inj hplace
    have htype : (b.type == 10) = true := List.find?_some (p := fun e : Entity F => e.type == 10) hb
    exact ⟨hengaged, b, List.mem_of_find?_eq_some hb, beq_iff_eq.1 htype, hx, hy⟩
  · cases h

end Room

/-- **The sections of `update`** keep track of the bosses, but that of a dead boss that shoots. -/
theorem LoopPc.aims_run (env : UpdateEnv) {r : Room F} {pc : LoopPc F} (hunborn : r.Unborn) (h : pc.Aims r)
    (hdead : pc = .bossStage → ¬(r.boss.level = 2 ∧ r.boss.deathTime + 0.0 < r.game.gameTime ∧
      (∃ e ∈ r.game.entities, e.type = 10 ∧ e.isCollide = true) ∧ (1.0 : F) < r.game.gameTime - r.boss.lastShootTime)) :
    (pc.run env r).2.Aims (pc.run env r).1 := by
  cases pc with
  | idle =>
    simp only [run]
    split <;> trivial
  | updateEntities => exact r.updateEntities_living
  | handleCollision => exact Room.handleCollision_living h
  | broadcastGameState => exact fun hengaged => r.broadcastGameState_bystands.living (h hengaged)
  | updateGameLevel => exact fun hengaged => Room.updateGameLevel_living 0.016 (h hengaged)
  | bossStage =>
    by_cases hfirst : r.boss.level = 0 ∧ (10.0 : F) < r.game.gameTime
    · simp only [run, Room.bossStage, if_pos hfirst]
      -- there has been no boss yet
      intro _ _ e he hboss
      exact absurd hboss (hunborn hfirst.1 e he)
    by_cases hsecond : r.boss.level = 2 ∧ r.boss.deathTime + 0.0 < r.game.gameTime
    · simp only [run, Room.bossStage, if_neg hfirst, if_pos hsecond]
      intro _ harmed e he hboss
      have hdue : (1.0 : F) < r.game.gameTime - r.boss.lastShootTime := harmed
      rw [← Bool.not_eq_true]
      exact fun hflag => hdead rfl ⟨hsecond.1, hsecond.2, ⟨e, he, hboss, hflag⟩, hdue⟩
    · simp only [run, Room.bossStage, if_neg hfirst, if_neg hsecond]
      exact fun hengaged _ => h hengaged
  | spawnBoss bossMaxHP => exact fun hengaged harmed => Room.spawnBoss_living (h hengaged harmed)
  | bossAim =>
    simp only [run]
    split
    · rename_i x y haim
      intro harmed
      obtain ⟨hengaged, b, hb, hboss, hx, hy⟩ := Room.bossAim_spec haim
      exact ⟨b, hb, hboss, h hengaged harmed b hb hboss, hx, hy⟩
    · trivial
  | bossShoot x y => trivial
  | enemyStage => trivial
  | syncStage => trivial

/-- Other threads do not interfere. -/
theorem LoopPc.Aims.bystands {r r' : Room F} {pc : LoopPc F} (h : pc.Aims r) (hby : r.Bystands r')
    (htime : r'.game.gameTime = r.game.gameTime) : pc.Aims r' := by
  have hengaged : r'.Engaged → r.Engaged := by
    unfold Room.Engaged
    rw [hby.boss]
    exact id
  have harmed : r'.Armed → r.Armed := by
    unfold Room.Armed
    rw [hby.boss, htime]
    exact id
  cases pc with
  | handleCollision => exact hby.living h
  | broadcastGameState => exact fun he => hby.living (h (hengaged he))
  | updateGameLevel => exact fun he => hby.living (h (hengaged he))
  | bossStage => exact fun he => hby.living (h (hengaged he))
  | spawnBoss bossMaxHP => exact fun he ha => hby.living (h (hengaged he) (harmed ha))
  | bossAim => exact fun he ha => hby.living (h (hengaged he) (harmed ha))
  | bossShoot x y => exact fun ha => hby.hasLiving (h (harmed ha))
  | idle => trivial
  | updateEntities => trivial
  | enemyStage => trivial
  | syncStage => trivial

theorem LoopPc.BossHere.bystands {r r' : Room F} {pc : LoopPc F} (h : pc.BossHere r) (hby : r.Bystands r') :
    pc.BossHere r' := by
  cases pc with
  | spawnBoss bossMaxHP => exact hby.orderly.level h
  | bossShoot x y => exact hby.orderly.level h
  | _ => trivial

omit [FloatOps F] in
theorem LoopPc.eq_of_makes_boss {pc : LoopPc F} (h : 10 ∈ pc.makes) : ∃ bossMaxHP, pc = .spawnBoss bossMaxHP := by
  cases pc with
  | spawnBoss bossMaxHP => exact ⟨bossMaxHP, rfl⟩
  | bossShoot x y => exact absurd h (by decide : (10 : UInt16) ∉ [11])
  | enemyStage => exact absurd h (by decide : (10 : UInt16) ∉ [2, 3])
  | _ => cases h

omit [FloatOps F] in
theorem LoopPc.eq_of_makes_shot {pc : LoopPc F} (h : 11 ∈ pc.makes) : ∃ x y, pc = .bossShoot x y := by
  cases pc with
  | bossShoot x y => exact ⟨x, y, rfl⟩
  | spawnBoss bossMaxHP => exact absurd h (by decide : (11 : UInt16) ∉ [10])
  | enemyStage => exact absurd h (by decide : (11 : UInt16) ∉ [2, 3])
  | _ => cases h

/-- Input takes no time. -/
theorem UdpOp.gameTime (playerId : UInt32) (memory : Player F) (r : Room F) (op : UdpOp) :
    (op.run playerId memory r).1.game.gameTime = r.game.gameTime := by
  rcases op.run_cases playerId memory r with he | ⟨slot, f, -, he⟩ | ⟨slot, charged, rfl⟩
  · rw [he]
  · rw [he]
    rfl
  · simp only [run]
    split <;> rfl

namespace GameThreads

variable {s s' : GameThreads F} {l : Label F}

/-- **The invariant of the shots.** -/
structure Aims (s : GameThreads F) : Prop where
  unborn : s.room.Unborn
  here : s.loop.BossHere s.room
  aims : s.loop.Aims s.room

omit [FloatOps F] in
/-- What is no shot of a player is made by the loop. -/
theorem loop_of_makes {type : UInt16} (h : type ∈ s.makes l) (hshot : type ∉ ([1, 4] : List UInt16)) :
    ∃ env, l = .loop env ∧ type ∈ s.loop.makes := by
  cases l with
  | udp memory => exact absurd h hshot
  | loop env => exact ⟨env, rfl, h⟩
  | _ => cases h

/-- Before a boss comes, no step brings one into the list. -/
theorem Aims.unborn_step (h : s.Aims) (hlevel : s.room.boss.level ≠ 0 → s'.room.boss.level ≠ 0)
    (hstep : machine.step s l = some s') : s'.room.Unborn := by
  intro h0
  have hbefore : s.room.boss.level = 0 := by
    by_contra hno
    exact hlevel hno h0
  have hnone := h.unborn hbefore
  rcases step_entities hstep with ⟨-, rfl⟩ | ⟨-, halters | ⟨new, hnew, hborn⟩⟩
  · intro e' he'
    obtain ⟨e, he, rfl⟩ := List.mem_map.1 (List.mem_filter.1 he').1
    exact hnone e he
  · intro e' he' hboss
    obtain ⟨e, he, haltered⟩ := exists_of_forall₂ halters he'
    exact hnone e he (haltered.type.symm.trans hboss)
  · intro e' he' hboss
    rw [hnew] at he'
    rcases List.mem_append.1 he' with hold | hfresh
    · exact hnone e' hold hboss
    · -- where the loop makes a boss, one has come
      obtain ⟨-, -, hmakes⟩ := loop_of_makes (hboss ▸ (hborn e' hfresh).2) (by decide)
      obtain ⟨bossMaxHP, hloop⟩ := LoopPc.eq_of_makes_boss hmakes
      have hhere := h.here
      rw [hloop] at hhere
      exact hhere hbefore

/-- A step of a thread that has nothing to do with the bosses. -/
theorem Aims.aside (h : s.Aims) (hby : s.room.Bystands s'.room)
    (htime : s'.room.game.gameTime = s.room.game.gameTime) (hloop : s'.loop = s.loop)
    (hstep : machine.step s l = some s') : s'.Aims := by
  refine ⟨h.unborn_step hby.orderly.level hstep, ?_, ?_⟩
  · rw [hloop]
    exact h.here.bystands hby
  · rw [hloop]
    exact h.aims.bystands hby htime

theorem Aims.step (h : s.Aims) (hdead : ¬s.DeadBossShoots l) (hstep : machine.step s l = some s') : s'.Aims := by
  rcases step_cases hstep with ⟨c, -, -, rfl⟩ | ⟨memory, op, rest, -, -, rfl⟩ | ⟨env, rfl, rfl⟩ | ⟨f, hf, rfl⟩
  · exact h.aside (.refl s.room) rfl rfl hstep
  · exact h.aside (op.bystands s.playerId memory s.room) (op.gameTime s.playerId memory s.room) rfl hstep
  · obtain ⟨horderly, hnext⟩ := s.loop.orderly env h.here
    refine ⟨h.unborn_step horderly.level hstep, hnext, ?_⟩
    exact s.loop.aims_run env h.unborn h.aims fun hloop hbad => hdead ⟨hloop, ⟨env, rfl⟩, hbad⟩
  · exact h.aside (section_bystands hf s.room) (section_apart hf s.room).2.2 rfl hstep

theorem Aims.init (boss : Boss F) (now : ℕ) : (init boss now).Aims := by
  refine ⟨?_, trivial, trivial⟩
  intro _ e he
  cases he

/-- Steps other than a boss's shot make no boss shot. -/
theorem fromLiving_of_makes (h : (11 : UInt16) ∉ s.makes l) (hstep : machine.step s l = some s') : FromLiving s s' := by
  intro e he hshot
  exact absurd (hshot ▸ (step_made hstep e he).2) h

/-- **What the invariant says of a step.** -/
theorem Aims.fromLiving (h : s.Aims) (hstep : machine.step s l = some s') : FromLiving s s' := by
  by_cases hmakes : (11 : UInt16) ∈ s.makes l
  case neg => exact fromLiving_of_makes hmakes hstep
  obtain ⟨env, rfl, hpc⟩ := loop_of_makes hmakes (by decide)
  obtain ⟨x, y, hloop⟩ := LoopPc.eq_of_makes_shot hpc
  have haims := h.aims
  rw [hloop] at haims
  have hroom : s'.room = s.room.bossShoot x y := by
    have hs' : some ({ s with room := (s.loop.run env s.room).1, loop := (s.loop.run env s.room).2 } : GameThreads F) =
      some s' := hstep
    rw [← Option.some.inj hs', hloop]
    rfl
  obtain ⟨new, hnew, hplaced⟩ := s.room.bossShoot_placed x y
  intro e he _
  rw [madeBy_of_append (hroom ▸ hnew)] at he
  obtain ⟨harmed, hx, hy⟩ := hplaced e he
  obtain ⟨b, hb, hboss, hlive, hbx, hby⟩ := haims harmed
  exact ⟨b, hb, hboss, hlive, by rw [hx, hbx], by rw [hy, hby]⟩

/-- **Boss shots come from the living boss**, in every run of the threads of a room in which the
second boss never comes while the dead one is in the list and a shot is due. -/
theorem fromLiving_along (boss : Boss F) (now : ℕ) (labels : List (Label F))
    (h : machine.Along (fun s l => ¬s.DeadBossShoots l) (init boss now) labels) :
    machine.Along (fun s l => ∀ s' ∈ machine.step s l, FromLiving s s') (init boss now) labels := by
  refine Machine.along_of_forall fun pre l post s he hrun s' hstep => ?_
  subst he
  have haims : s.Aims := Machine.inv_along (fun _ _ _ h hdead hstep => h.step hdead hstep) pre _ s (.init boss now)
    ((Machine.along_append hrun).1 h).1 hrun
  exact haims.fromLiving hstep

/-! ## Two fights -/

section Fights

open ServerManager (waiting waiting_late still)

instance decidableFromLiving (s s' : GameThreads ℚ) : Decidable (FromLiving s s') :=
  inferInstanceAs (Decidable (∀ e ∈ s.madeBy s', e.type = 11 →
    ∃ b ∈ s.room.game.entities, b.type = 10 ∧ b.isCollide = false ∧ e.x = b.x ∧ e.y = b.y + ((80 : ℤ) : ℚ)))

/-- The first boss is dead for a second, and no shot was fired for two. -/
def cooledDown : Boss ℚ := ⟨2, 0, -2, -1⟩

/-- One player starts the game, and the second boss comes in the first update. -/
def secondBoss : List (Label ℚ) := [.join 1 [], .start 1] ++ List.replicate 11 (.loop still)

/-- The second boss shoots, with no dead boss in the list. -/
theorem fromLiving_along_secondBoss : ∃ s, machine.run (init cooledDown 0) secondBoss = some s ∧
    (s.room.game.entities.map (·.type) = [10, 11, 11, 11]) ∧
    machine.Along (fun s l => ∀ s' ∈ machine.step s l, FromLiving s s') (init cooledDown 0) secondBoss := by
  obtain ⟨s, hrun, htypes⟩ : ∃ s, machine.run (init cooledDown 0) secondBoss = some s ∧
      s.room.game.entities.map (·.type) = [10, 11, 11, 11] := by
    refine ⟨_, rfl, ?_⟩
    decide +kernel
  have hnoneDead : machine.Along (fun s _ => ∀ e ∈ s.room.game.entities, e.type = 10 → e.isCollide = false)
      (init cooledDown 0) secondBoss := by decide +kernel
  refine ⟨s, hrun, htypes, fromLiving_along cooledDown 0 secondBoss (hnoneDead.imp ?_)⟩
  rintro s l hlive ⟨-, -, -, -, ⟨e, he, hboss, hflag⟩, -⟩
  exact absurd (hflag.symm.trans (hlive e he hboss)) (by decide)

/-- An input of player 1, and the steps of the UDP thread it takes. -/
def inputs (pressed : UInt8) (steps : ℕ) : List (Label ℚ) :=
  .call (.handlePlayerInput ⟨1, 0, pressed⟩) :: List.replicate steps (.udp (Player.new 0 []))

/-- The player moves before the place of the boss, waits until a second has passed since the
first shot of the boss, and fires all it takes. The loop stops before the shot of the update. -/
def lateKill : List (Label ℚ) :=
  inputs 10 8 ++ (List.replicate 34 (inputs 10 5)).flatten ++ (List.replicate 180 (inputs 8 4)).flatten ++
    List.replicate 11 (.loop still) ++ List.replicate 620 (.loop still) ++ (List.replicate 20 (inputs 32 5)).flatten ++
    List.replicate 8 (.loop still)

/-- The dead boss shoots. -/
theorem not_fromLiving_along_lateKill : ¬∀ (now : ℕ) (labels : List (Label ℚ)),
    machine.Along (fun s l => ∀ s' ∈ machine.step s l, FromLiving s s') (init Boss.none now) labels := by
  intro hall
  obtain ⟨s, hrun, hbad⟩ : ∃ s, machine.run (⟨waiting (625 * 0.016), 0, [], .idle⟩ : GameThreads ℚ) lateKill = some s ∧
      ¬∀ s' ∈ machine.step s (.loop still), FromLiving s s' := by
    have hany : ((machine.run (⟨waiting (625 * 0.016), 0, [], .idle⟩ : GameThreads ℚ) lateKill).any fun s =>
        !decide (∀ s' ∈ machine.step s (.loop still), FromLiving s s')) = true := by decide +kernel
    obtain ⟨s, hs, hbad⟩ := (Option.any_eq_true _ _).1 hany
    exact ⟨s, hs, of_decide_eq_false (Bool.not_eq_true' _ ▸ hbad)⟩
  have hstart : machine.run (init (Boss.none : Boss ℚ) 0) [.join 1 [], .start 1] = some ⟨waiting 0, 0, [], .idle⟩ := rfl
  have hbefore : machine.run (init (Boss.none : Boss ℚ) 0)
      ([.join 1 [], .start 1] ++ List.replicate (625 * 9) (.loop still) ++ lateKill) = some s := by
    rw [Machine.run_append_iff]
    exact ⟨_, (Machine.run_append_iff _).2 ⟨_, hstart, waiting_runs le_rfl⟩, hrun⟩
  exact hbad ((hall 0 (_ ++ .loop still :: [])).at hbefore)

end Fights

end GameThreads

end RType

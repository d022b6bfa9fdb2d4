import RType.Lib.Places
import RType.Proof.Sections

/-!
# What a step does to the entities

* `Entity.Newborn`: an entity as one of the spawn sites makes it. The sites fill the struct by
  position.
* `Room.Alters`, `Room.Grows`: beside `updateEntities`, sections alter entities where they are
  or append new ones.
* `GameThreads.step_entities`: no step does anything else.
* `GameThreads.entities_rule`: so what every section keeps holds of all entities of a game;
  `sized_run`, that each keeps the size it was made with.
* `GameThreads.place_rule`: the same for one entity, followed through a run.
* `GameThreads.step_grown`: the list after a step is what the step keeps, in its order, and what
  it has just made; `evolved_run`, the same for a run.
-/

namespace RType

open Lts Places

variable {F : Type*} [FloatOps F]

/-! ## Single entities -/

namespace Entity

/-- An entity as a spawn site makes it. -/
inductive Newborn : Entity F → Prop
  /-- `createPlayerShot` -/
  | shot (id : UInt32) (x y : F) : Newborn ⟨id, 1, x + ((25 : ℤ) : F), y, 10.0, 0.0, 10, 5, false⟩
  /-- `createPlayerChargedShot` -/
  | chargedShot (id : UInt32) (x y : F) : Newborn ⟨id, 4, x + ((25 : ℤ) : F), y, 12.0, 0.0, 29, 30, false⟩
  /-- `createEnemy` -/
  | enemy (id : UInt32) (y : F) : Newborn ⟨id, 2, 1920.0, y, -5.0, 0.0, 32, 32, false⟩
  /-- `createEnemy`, after 30 seconds -/
  | fastEnemy (id : UInt32) (y : F) : Newborn ⟨id, 3, 1920.0, y, -8.0, 0.0, 40, 40, false⟩
  /-- the boss of `update` -/
  | boss (id : UInt32) : Newborn ⟨id, 10, 1600.0, 400.0, -2.0, 0.0, 296, 88, false⟩
  /-- its shots -/
  | bossShot (id : UInt32) (x y vy : F) : Newborn ⟨id, 11, x, y + ((80 : ℤ) : F), -15.0, vy, 30, 30, false⟩

/-- The entity has the size its spawn site gave it. -/
def Sized (e : Entity F) : Prop :=
  ∃ e₀ : Entity F, e₀.Newborn ∧ e.type = e₀.type ∧ e.height = e₀.height ∧ e.width = e₀.width

/-- The sizes, by type. -/
theorem Sized.cases {e : Entity F} (h : e.Sized) :
    (e.type = 1 ∧ e.height = 10 ∧ e.width = 5) ∨ (e.type = 4 ∧ e.height = 29 ∧ e.width = 30) ∨
    (e.type = 2 ∧ e.height = 32 ∧ e.width = 32) ∨ (e.type = 3 ∧ e.height = 40 ∧ e.width = 40) ∨
    (e.type = 10 ∧ e.height = 296 ∧ e.width = 88) ∨ (e.type = 11 ∧ e.height = 30 ∧ e.width = 30) := by
  obtain ⟨e₀, hborn, htype, hheight, hwidth⟩ := h
  rw [htype, hheight, hwidth]
  cases hborn <;> simp

/-- An entity before and after a section that does not move it. -/
structure Altered (e e' : Entity F) : Prop where
  id : e'.id = e.id
  type : e'.type = e.type
  x : e'.x = e.x
  y : e'.y = e.y
  height : e'.height = e.height
  width : e'.width = e.width
  flag : e.isCollide = true → e'.isCollide = true
  /-- Only a boss changes its speed. -/
  velocityX : e'.velocityX = e.velocityX ∨ e.type = 10 ∧ (e'.velocityX = -2.0 ∨ e'.velocityX = 0.0)

theorem Altered.refl (e : Entity F) : e.Altered e := ⟨rfl, rfl, rfl, rfl, rfl, rfl, fun h => h, .inl rfl⟩

theorem Altered.trans {e₁ e₂ e₃ : Entity F} (h : e₁.Altered e₂) (h' : e₂.Altered e₃) : e₁.Altered e₃ := by
  refine ⟨h'.id.trans h.id, h'.type.trans h.type, h'.x.trans h.x, h'.y.trans h.y, h'.height.trans h.height,
    h'.width.trans h.width, h'.flag ∘ h.flag, ?_⟩
  rcases h'.velocityX with hsame | ⟨hboss, hspeed⟩
  · rw [hsame]
    exact h.velocityX
  · exact .inr ⟨h.type.symm.trans hboss, hspeed⟩

omit [FloatOps F] in
theorem flag_altered [FloatOps F] (e : Entity F) : e.Altered { e with isCollide := true } :=
  ⟨rfl, rfl, rfl, rfl, rfl, rfl, fun _ => rfl, .inl rfl⟩

theorem steer_altered (e : Entity F) (gameTime : F) (bossLevel : ℤ) : e.Altered (e.steer gameTime bossLevel) := by
  unfold steer
  extract_lets e'
  have he : e.Altered e' := by
    simp only [e']
    split
    · exact ⟨rfl, rfl, rfl, rfl, rfl, rfl, fun h => h, .inl rfl⟩
    · exact .refl e
  split
  · rename_i hboss
    have hspeed : ∀ vx vy : F, vx = -2.0 ∨ vx = 0.0 → e'.Altered { e' with velocityX := vx, velocityY := vy } :=
      fun vx vy hvx => ⟨rfl, rfl, rfl, rfl, rfl, rfl, fun h => h, .inr ⟨hboss, hvx⟩⟩
    split
    · exact he.trans (hspeed _ _ (.inl rfl))
    · split <;> exact he.trans (hspeed _ _ (.inr rfl))
  · exact he

theorem Newborn.sized {e : Entity F} (h : e.Newborn) : e.Sized := ⟨e, h, rfl, rfl, rfl⟩

theorem Sized.altered {e e' : Entity F} (h : e.Sized) (ha : e.Altered e') : e'.Sized := by
  obtain ⟨e₀, hborn, htype, hheight, hwidth⟩ := h
  exact ⟨e₀, hborn, ha.type.trans htype, ha.height.trans hheight, ha.width.trans hwidth⟩

end Entity

/-! ## Sections -/

/-- An element of the second of two lists that correspond. -/
theorem exists_of_forall₂ {α β : Type*} {R : α → β → Prop} {l : List α} {l' : List β} (h : List.Forall₂ R l l') {b : β}
    (hb : b ∈ l') : ∃ a ∈ l, R a b := by
  obtain ⟨i, hi, rfl⟩ := List.mem_iff_getElem.1 hb
  have hlen : i < l.length := h.length_eq ▸ hi
  exact ⟨l[i], List.getElem_mem hlen, h.get hlen hi⟩

namespace Room

/-- Entities are altered where they are. -/
def Alters (r r' : Room F) : Prop := List.Forall₂ Entity.Altered r.game.entities r'.game.entities

/-- Entities are appended, and `P` holds of them. -/
def Appends (P : Entity F → Prop) (r r' : Room F) : Prop :=
  ∃ new, r'.game.entities = r.game.entities ++ new ∧ ∀ e ∈ new, P e

/-- Entities of some types are appended. -/
def Grows (types : List UInt16) : Room F → Room F → Prop := Appends fun e => e.Newborn ∧ e.type ∈ types

theorem Alters.refl (r : Room F) : r.Alters r := List.forall₂_same.2 fun e _ => .refl e

theorem Alters.trans {r₁ r₂ r₃ : Room F} (h : r₁.Alters r₂) (h' : r₂.Alters r₃) : r₁.Alters r₃ :=
  forall₂_trans (fun _ _ _ => .trans) h h'

omit [FloatOps F] in
theorem Appends.of_eq {P : Entity F → Prop} {r r' : Room F} (h : r'.game.entities = r.game.entities) :
    Appends P r r' := by
  refine ⟨[], by rw [h, List.append_nil], ?_⟩
  intro e he
  cases he

/-- An entity, after sections that leave it where it is. -/
theorem Alters.getElem? {r r' : Room F} {i : ℕ} {e : Entity F} (h : r.Alters r') (he : r.game.entities[i]? = some e) :
    ∃ e', r'.game.entities[i]? = some e' ∧ e.Altered e' := by
  obtain ⟨hi, rfl⟩ := List.getElem?_eq_some_iff.1 he
  have hi' : i < r'.game.entities.length := h.length_eq ▸ hi
  exact ⟨_, List.getElem?_eq_getElem hi', h.get hi hi'⟩

theorem Grows.of_eq {types : List UInt16} {r r' : Room F} (h : r'.game.entities = r.game.entities) :
    Grows types r r' := Appends.of_eq h

omit [FloatOps F] in
theorem Appends.trans {P : Entity F → Prop} {r₁ r₂ r₃ : Room F} (h : Appends P r₁ r₂) (h' : Appends P r₂ r₃) :
    Appends P r₁ r₃ := by
  obtain ⟨new, he, hnew⟩ := h
  obtain ⟨new', he', hnew'⟩ := h'
  refine ⟨new ++ new', by rw [he', he, List.append_assoc], ?_⟩
  intro e hmem
  exact (List.mem_append.1 hmem).elim (hnew e) (hnew' e)

theorem flag_alters (r : Room F) (i : ℕ) : r.Alters (r.flag i) :=
  forall₂_modify Entity.Altered.refl Entity.flag_altered r.game.entities i

theorem hitBoss_alters (r : Room F) (j : ℕ) (damage : ℤ) : r.Alters (r.hitBoss j damage) := by
  have hflag := r.flag_alters j
  unfold hitBoss
  extract_lets hp maxHp _ r' r''
  split
  · split
    · exact hflag
    · split <;> exact hflag
  · exact Alters.refl r

theorem handleCollision_alters (r : Room F) : r.Alters r.handleCollision :=
  handleCollision_rel Alters.refl (fun _ _ _ => Alters.trans) flag_alters (fun r j damage _ => hitBoss_alters r j damage) r

theorem updateGameLevel_alters (r : Room F) (elapsedTime : F) : r.Alters (r.updateGameLevel elapsedTime) := by
  unfold Alters updateGameLevel
  extract_lets gameTime
  exact List.forall₂_map_right_iff.2 (List.forall₂_same.2 fun e _ => e.steer_altered gameTime r.boss.level)

omit [FloatOps F] in
/-- One entity is made. -/
theorem spawn_appends (r : Room F) {P : Entity F → Prop} {type : UInt16} {x y vx vy : F} {h w : ℤ}
    (extra : List (UdpMsg F)) (hP : ∀ id, P ⟨id, type, x, y, vx, vy, h, w, false⟩) :
    Appends P r (r.spawn type x y vx vy h w extra) := by
  refine ⟨_, rfl, fun e he => ?_⟩
  rw [List.mem_singleton.1 he]
  exact hP _

theorem spawn_grows (r : Room F) {types : List UInt16} {type : UInt16} {x y vx vy : F} {h w : ℤ}
    (extra : List (UdpMsg F)) (htype : type ∈ types)
    (hborn : ∀ id, Entity.Newborn ⟨id, type, x, y, vx, vy, h, w, false⟩) :
    Grows types r (r.spawn type x y vx vy h w extra) := r.spawn_appends extra fun id => ⟨hborn id, htype⟩

theorem spawnBoss_grows (r : Room F) (bossMaxHP : ℤ) : Grows [10] r (r.spawnBoss bossMaxHP) :=
  r.spawn_grows _ List.mem_cons_self fun id => .boss id

/-- The shots of a boss are made alike. -/
theorem bossShoot_appends (r : Room F) {P : Entity F → Prop} {x y : F}
    (hP : ∀ id vy, P ⟨id, 11, x, y + ((80 : ℤ) : F), -15.0, vy, 30, 30, false⟩) : Appends P r (r.bossShoot x y) := by
  unfold bossShoot
  extract_lets shootInterval _ r'
  split
  · have hshot : ∀ (r : Room F) vy, Appends P r (r.spawn 11 x (y + ((80 : ℤ) : F)) (-15.0) vy 30 30 []) := fun r vy =>
      r.spawn_appends [] fun id => hP id vy
    have hshots := fun vys => foldl_rel (fun _ => Appends.of_eq rfl) (fun _ _ _ => Appends.trans) hshot vys r'
    exact hshots _
  · exact .of_eq rfl

theorem bossShoot_grows (r : Room F) (x y : F) : Grows [11] r (r.bossShoot x y) :=
  r.bossShoot_appends fun id vy => ⟨.bossShot id x y vy, List.mem_cons_self⟩

theorem enemyStage_grows (r : Room F) (env : UpdateEnv) : Grows [2, 3] r (r.enemyStage env) := by
  unfold enemyStage
  split
  · have hspawn : Grows [2, 3] r (r.createEnemy env.rand) := by
      unfold createEnemy
      extract_lets spawnY
      split
      · exact r.spawn_grows _ (by decide) fun id => .fastEnemy id spawnY
      · exact r.spawn_grows _ (by decide) fun id => .enemy id spawnY
    exact hspawn
  · exact .of_eq rfl

end Room

/-- The types that a section of `update` makes. -/
def LoopPc.makes : LoopPc F → List UInt16
  | spawnBoss _ => [10]
  | bossShoot _ _ => [11]
  | enemyStage => [2, 3]
  | _ => []

/-- A section of `update` other than `updateEntities` moves nothing. -/
theorem LoopPc.alters_or_grows (env : UpdateEnv) (r : Room F) {pc : LoopPc F} (h : pc ≠ .updateEntities) :
    r.Alters (pc.run env r).1 ∨ Room.Grows pc.makes r (pc.run env r).1 := by
  cases pc with
  | idle => exact .inr (.of_eq rfl)
  | updateEntities => exact absurd rfl h
  | handleCollision => exact .inl r.handleCollision_alters
  | broadcastGameState => exact .inr (.of_eq rfl)
  | updateGameLevel => exact .inl (r.updateGameLevel_alters 0.016)
  | bossStage =>
    refine .inr (.of_eq ?_)
    rw [run_bossStage]
    unfold Room.bossStage
    split
    · rfl
    · split <;> rfl
  | spawnBoss bossMaxHP => exact .inr (r.spawnBoss_grows bossMaxHP)
  | bossAim =>
    refine .inr (.of_eq ?_)
    simp only [run]
    split <;> rfl
  | bossShoot x y => exact .inr (r.bossShoot_grows x y)
  | enemyStage => exact .inr (r.enemyStage_grows env)
  | syncStage =>
    refine .inr (.of_eq ?_)
    simp only [run, Room.syncStage]
    split <;> rfl

/-- The UDP thread makes shots. -/
theorem UdpOp.grows (playerId : UInt32) (memory : Player F) (r : Room F) (op : UdpOp) :
    Room.Grows [1, 4] r (op.run playerId memory r).1 := by
  rcases op.run_cases playerId memory r with he | ⟨slot, f, -, he⟩ | ⟨slot, charged, rfl⟩
  · rw [he]
    exact .of_eq rfl
  · rw [he]
    exact .of_eq rfl
  · simp only [run]
    split
    · exact r.spawn_grows _ (by decide) fun id => .chargedShot id _ _
    · exact r.spawn_grows _ (by decide) fun id => .shot id _ _

namespace GameThreads

/-- The step takes the section `updateEntities`. -/
def MovesEntities (s : GameThreads F) (l : Label F) : Prop := s.loop = .updateEntities ∧ ∃ env, l = .loop env

/-- The types that a step makes. -/
def makes (s : GameThreads F) : Label F → List UInt16
  | .udp _ => [1, 4]
  | .loop _ => s.loop.makes
  | _ => []

/-- **What a step does to the entities.** -/
theorem step_entities {s s' : GameThreads F} {l : Label F} (h : machine.step s l = some s') :
    (s.MovesEntities l ∧ s' = { s with room := s.room.updateEntities, loop := .handleCollision }) ∨
      ¬s.MovesEntities l ∧ (s.room.Alters s'.room ∨ Room.Grows (s.makes l) s.room s'.room) := by
  rcases step_cases h with ⟨c, rfl, -, rfl⟩ | ⟨memory, op, rest, rfl, -, rfl⟩ | ⟨env, rfl, rfl⟩ | ⟨f, hf, rfl⟩
  · refine .inr ⟨?_, .inr (.of_eq rfl)⟩
    rintro ⟨-, env, hl⟩
    cases hl
  · refine .inr ⟨?_, .inr (op.grows s.playerId memory s.room)⟩
    rintro ⟨-, env, hl⟩
    cases hl
  · by_cases hpc : s.loop = .updateEntities
    · refine .inl ⟨⟨hpc, env, rfl⟩, ?_⟩
      rw [hpc]
      rfl
    · refine .inr ⟨fun hmoves => hpc hmoves.1, LoopPc.alters_or_grows env s.room hpc⟩
  · refine .inr ⟨?_, .inr (.of_eq (section_apart hf s.room).2.1)⟩
    rintro ⟨-, env, rfl⟩
    cases hf

/-- **Rule for the entities of a game**: what holds of an entity as it is made, and is kept by
every section, holds of all of them. -/
theorem entities_rule {P : Entity F → Prop} (hborn : ∀ e : Entity F, e.Newborn → P e)
    (halter : ∀ e e' : Entity F, P e → e.Altered e' → P e')
    (hmove : ∀ e : Entity F, P e → e.advance.leaves = false → P e.advance)
    {boss : Boss F} {now : ℕ} {labels : List (Label F)} {s : GameThreads F}
    (h : machine.run (init boss now) labels = some s) : ∀ e ∈ s.room.game.entities, P e := by
  refine Machine.inv_run (I := fun s : GameThreads F => ∀ e ∈ s.room.game.entities, P e) ?_ labels _ s ?_ h
  · intro s l s' hs hstep e' he'
    rcases step_entities hstep with ⟨-, rfl⟩ | ⟨-, halters | ⟨new, hnew, hfresh⟩⟩
    · obtain ⟨hmem, hstays⟩ := List.mem_filter.1 he'
      obtain ⟨e, he, rfl⟩ := List.mem_map.1 hmem
      exact hmove e (hs e he) ((Bool.not_eq_true' _).mp hstays)
    · obtain ⟨e, he, haltered⟩ := exists_of_forall₂ halters he'
      exact halter e e' (hs e he) haltered
    · rw [hnew] at he'
      rcases List.mem_append.1 he' with hold | hnew
      · exact hs e' hold
      · exact hborn e' (hfresh e' hnew).1
  · intro e he
    cases he

/-- **Every entity has the size its spawn site gave it.** -/
theorem sized_run {boss : Boss F} {now : ℕ} {labels : List (Label F)} {s : GameThreads F}
    (h : machine.run (init boss now) labels = some s) : ∀ e ∈ s.room.game.entities, e.Sized :=
  entities_rule (fun _ => Entity.Newborn.sized) (fun _ _ => Entity.Sized.altered) (fun _ hsized _ => hsized) h

/-! ## One entity in the course of a run -/

/-- The place in the list, after a step, of the entity at place `i`: none where it is erased. -/
def follow (s : GameThreads F) (l : Label F) (i : ℕ) : Option ℕ :=
  match s.loop, l with
  | .updateEntities, .loop _ => kept (fun e => !e.leaves) (s.room.game.entities.map Entity.advance) i
  | _, _ => some i

/-- Whether a step takes the section `updateEntities`. -/
def updatesIn (s : GameThreads F) (l : Label F) : ℕ :=
  match s.loop, l with
  | .updateEntities, .loop _ => 1
  | _, _ => 0

/-- The updates of a game in a run. Each begins with `updateEntities`, in a game that is played. -/
def updates (s : GameThreads F) (labels : List (Label F)) : ℕ :=
  machine.observe (fun n s l _ => n + s.updatesIn l) 0 s labels

/-- The place in the list, after a run, of the entity at place `i`. -/
def place (s : GameThreads F) (labels : List (Label F)) (i : ℕ) : Option ℕ :=
  Places.place machine follow s labels i

variable {s s' t : GameThreads F} {l : Label F} {labels : List (Label F)} {i j : ℕ} {e : Entity F}

theorem moves_eq (h : s.MovesEntities l) :
    s.updatesIn l = 1 ∧ s.follow l i = kept (fun e => !e.leaves) (s.room.game.entities.map Entity.advance) i := by
  obtain ⟨hloop, env, rfl⟩ := h
  simp only [updatesIn, follow, hloop, and_self]

theorem stays_eq (h : ¬s.MovesEntities l) : s.updatesIn l = 0 ∧ s.follow l i = some i := by
  unfold updatesIn follow
  constructor
  · split
    · rename_i hloop
      exact absurd ⟨hloop, _, rfl⟩ h
    · rfl
  · split
    · rename_i hloop
      exact absurd ⟨hloop, _, rfl⟩ h
    · rfl

/-- **What a step does to an entity**: it erases it, moves it, or alters it where it is. -/
theorem follow_cases (hstep : machine.step s l = some s') (he : s.room.game.entities[i]? = some e) :
    s.updatesIn l = 1 ∧ e.advance.leaves = true ∧ s.follow l i = none ∨
    (s.updatesIn l = 1 ∧ e.advance.leaves = false ∧
      ∃ j, s.follow l i = some j ∧ s'.room.game.entities[j]? = some e.advance) ∨
    s.updatesIn l = 0 ∧ s.follow l i = some i ∧ ∃ e', s'.room.game.entities[i]? = some e' ∧ e.Altered e' := by
  rcases step_entities hstep with ⟨hmoves, rfl⟩ | ⟨hstays, hgo⟩
  · obtain ⟨hone, hfollow⟩ := moves_eq (i := i) hmoves
    have hadvanced : (s.room.game.entities.map Entity.advance)[i]? = some e.advance := by
      rw [List.getElem?_map, he, Option.map_some]
    rw [hfollow]
    by_cases hleaves : e.advance.leaves = true
    · refine .inl ⟨hone, hleaves, kept_of_neg hadvanced ?_⟩
      rw [hleaves, Bool.not_true]
    · rw [Bool.not_eq_true] at hleaves
      have hkept : (!e.advance.leaves) = true := by rw [hleaves, Bool.not_false]
      exact .inr (.inl ⟨hone, hleaves, _, kept_of_pos hadvanced hkept, getElem?_filter hadvanced hkept⟩)
  · obtain ⟨hzero, hfollow⟩ := stays_eq (i := i) hstays
    refine .inr (.inr ⟨hzero, hfollow, ?_⟩)
    rcases hgo with halters | ⟨new, hnew, -⟩
    · exact halters.getElem? he
    · refine ⟨e, ?_, .refl e⟩
      rw [hnew, List.getElem?_append_left (List.getElem?_eq_some_iff.1 he).1, he]

theorem updates_cons (hstep : machine.step s l = some s') :
    s.updates (l :: labels) = s.updatesIn l + s'.updates labels := by
  have hfrom : ∀ (labels : List (Label F)) (s : GameThreads F) n,
      machine.observe (fun n s l _ => n + s.updatesIn l) n s labels = n + s.updates labels := by
    intro labels
    induction labels with
    | nil => exact fun s n => rfl
    | cons l labels ih =>
      intro s n
      unfold updates
      rcases hstep : machine.step s l with _ | s'
      · simp only [Machine.observe, hstep, Nat.add_zero]
      · rw [Machine.observe_cons _ _ hstep, Machine.observe_cons _ _ hstep, ih, ih]
        omega
  rw [updates, Machine.observe_cons _ _ hstep, hfrom, Nat.zero_add]

theorem place_cons (hstep : machine.step s l = some s') :
    s.place (l :: labels) i = (s.follow l i).bind (s'.place labels) := Places.place_cons hstep

/-- **Rule for one entity in the course of a run**, with the number of updates so far. -/
theorem place_rule {P : ℕ → Entity F → Prop} (halter : ∀ n e e', P n e → Entity.Altered e e' → P n e')
    (hmove : ∀ n e, P n e → (Entity.advance e).leaves = false → P (n + 1) e.advance)
    (hrun : machine.run s labels = some t) (he : s.room.game.entities[i]? = some e) {n : ℕ} (hP : P n e)
    (hplace : s.place labels i = some j) :
    ∃ e', t.room.game.entities[j]? = some e' ∧ P (n + s.updates labels) e' := by
  induction labels generalizing s i e n with
  | nil =>
    simp only [Machine.run_nil, Option.some.injEq] at hrun
    obtain rfl : i = j := Option.some.inj hplace
    exact ⟨e, hrun ▸ he, hP⟩
  | cons l labels ih =>
    obtain ⟨s', hstep, hrest⟩ := machine.run_cons_iff.1 hrun
    rw [place_cons hstep] at hplace
    rw [updates_cons hstep, ← Nat.add_assoc]
    rcases follow_cases hstep he with ⟨-, -, hgone⟩ | ⟨hone, hstays, k, hk, he'⟩ | ⟨hzero, hk, e', he', haltered⟩
    · rw [hgone] at hplace
      cases hplace
    · rw [hk, Option.bind_some] at hplace
      rw [hone]
      exact ih hrest he' (hmove n e hP hstays) hplace
    · rw [hk, Option.bind_some] at hplace
      rw [hzero]
      exact ih hrest he' (halter n e e' hP haltered) hplace

/-! ## The list in the course of a run -/

/-- What a step makes has its places behind those of the list before it. -/
def madeBy (s s' : GameThreads F) : List (Entity F) := s'.room.game.entities.drop s.room.game.entities.length

omit [FloatOps F] in
theorem madeBy_of_le (h : s'.room.game.entities.length ≤ s.room.game.entities.length) : s.madeBy s' = [] :=
  List.drop_of_length_le h

omit [FloatOps F] in
theorem madeBy_of_append {new : List (Entity F)} (h : s'.room.game.entities = s.room.game.entities ++ new) :
    s.madeBy s' = new := by
  rw [madeBy, h, List.drop_left]

theorem length_updateEntities_le (r : Room F) : r.updateEntities.game.entities.length ≤ r.game.entities.length :=
  (List.length_filter_le _ _).trans_eq (List.length_map _)

/-- The entity is as a spawn site of the step makes it. -/
def Spawns (s : GameThreads F) (l : Label F) (e : Entity F) : Prop := e.Newborn ∧ e.type ∈ s.makes l

/-- What a step makes is as its spawn sites make it. -/
theorem step_made (hstep : machine.step s l = some s') : ∀ e ∈ s.madeBy s', s.Spawns l e := by
  intro e he
  rcases step_entities hstep with ⟨-, rfl⟩ | ⟨-, halters | ⟨new, hnew, hborn⟩⟩
  · rw [madeBy_of_le (length_updateEntities_le s.room)] at he
    cases he
  · rw [madeBy_of_le halters.length_eq.ge] at he
    cases he
  · rw [madeBy_of_append hnew] at he
    exact hborn e he

/-- **The list after a step**: what is kept of it, in its order, and then what the step makes. -/
theorem step_grown (hstep : machine.step s l = some s') :
    Grown (·.room.game.entities) follow s l s' (s'.room.game.entities.take s.room.game.entities.length) (s.madeBy s') := by
  refine ⟨(List.take_append_drop _ _).symm, ?_⟩
  rcases step_entities hstep with ⟨hmoves, rfl⟩ | ⟨hstays, hgo⟩
  · have hplaces := filterMap_kept (fun e : Entity F => !e.leaves) (s.room.game.entities.map Entity.advance)
    have hfollow : s.follow l = kept (fun e => !e.leaves) (s.room.game.entities.map Entity.advance) :=
      funext fun i => (moves_eq hmoves).2
    rw [List.length_map] at hplaces
    rw [hfollow, hplaces, List.take_of_length_le (length_updateEntities_le s.room)]
    rfl
  · have hfollow : s.follow l = some := funext fun i => (stays_eq hstays).2
    have hle : s.room.game.entities.length ≤ s'.room.game.entities.length := by
      rcases hgo with halters | ⟨new, hnew, -⟩
      · exact halters.length_eq.le
      · rw [hnew, List.length_append]
        exact Nat.le_add_right _ _
    rw [hfollow, List.filterMap_some, List.length_take, Nat.min_eq_left hle]

/-- What a run has made of the entities of a game: `old` are those of its start that are still
there, and `new` are those it has made, less those it has erased again. -/
structure Evolved (s : GameThreads F) (labels : List (Label F)) (t : GameThreads F) (old new : List (Entity F)) : Prop where
  list : t.room.game.entities = old ++ new
  /-- The old ones are in their order, each once. -/
  kept : (List.range s.room.game.entities.length).filterMap (s.place labels) = List.range old.length
  /-- They are the same entities. -/
  same : ∀ i j e, s.room.game.entities[i]? = some e → s.place labels i = some j →
    ∃ e', old[j]? = some e' ∧ e'.id = e.id ∧ e'.type = e.type
  /-- Each new one has been appended by a step of the run, as a spawn site of that step makes it. -/
  made : ∀ k < new.length, MadeIn machine (·.room.game.entities) follow Spawns s labels (old.length + k)

/-- An old entity has a place at the start of the run. -/
theorem Evolved.exists_place {old new : List (Entity F)} (h : s.Evolved labels t old new) (hj : j < old.length) :
    ∃ i < s.room.game.entities.length, s.place labels i = some j := by
  have hmem := List.mem_range.2 hj
  rw [← h.kept] at hmem
  obtain ⟨i, hi, hplace⟩ := List.mem_filterMap.1 hmem
  exact ⟨i, List.mem_range.1 hi, hplace⟩

/-- **The list after a run.** -/
theorem evolved_run (hrun : machine.run s labels = some t) : ∃ old new, s.Evolved labels t old new := by
  obtain ⟨old, new, hlist, hplaces, hmade⟩ := grown_run (fun hstep => ⟨_, _, step_grown hstep, step_made hstep⟩) hrun
  have hkept : (List.range s.room.game.entities.length).filterMap (s.place labels) = List.range old.length := hplaces
  refine ⟨old, new, hlist, hkept, ?_, hmade⟩
  intro i j e he hplace
  have hkeeps : ∃ e', t.room.game.entities[j]? = some e' ∧ e'.id = e.id ∧ e'.type = e.type :=
    place_rule (P := fun _ e' => e'.id = e.id ∧ e'.type = e.type) (n := 0)
      (fun _ _ _ hP ha => ⟨ha.id.trans hP.1, ha.type.trans hP.2⟩) (fun _ _ hP _ => hP) hrun he ⟨rfl, rfl⟩ hplace
  have hj : j < old.length := by
    have hmem : j ∈ (List.range s.room.game.entities.length).filterMap (s.place labels) :=
      List.mem_filterMap.2 ⟨i, List.mem_range.2 (List.getElem?_eq_some_iff.1 he).1, hplace⟩
    rw [hkept] at hmem
    exact List.mem_range.1 hmem
  obtain ⟨e', he', hsame⟩ := hkeeps
  rw [hlist, List.getElem?_append_left hj] at he'
  exact ⟨e', he', hsame⟩

end GameThreads

end RType

import RType.Proof.Sections

/-!
# The boss entries of a room

The boss level of a game starts at 0 and says whether its boss has come. Few sections have
to do with it.

* `Room.Bystands`: the sections that leave the bosses alone.
* `Room.Calm`: before the boss comes, the other entries are those of an empty map, and no
  entity is a boss.
* `RoomAct.orderly`: every act keeps this, and no act takes the level back to 0.
-/

namespace RType

variable {F : Type*} [FloatOps F]

/-! ## Sections that leave the bosses alone -/

namespace Room

/-- A section that has nothing to do with a boss: it may add entities that are none. -/
structure Bystands (r r' : Room F) : Prop where
  boss : r'.boss = r.boss
  entities : ∃ new, r'.game.entities = r.game.entities ++ new ∧ ∀ e ∈ new, e.type ≠ 10

/-- The same, but that a boss may shoot. -/
structure Aside (r r' : Room F) : Prop where
  level : r'.boss.level = r.boss.level
  hp : r'.boss.hp = r.boss.hp
  entities : ∃ new, r'.game.entities = r.game.entities ++ new ∧ ∀ e ∈ new, e.type ≠ 10

omit [FloatOps F] in
theorem Bystands.aside {r r' : Room F} (h : r.Bystands r') : r.Aside r' :=
  ⟨by rw [h.boss], by rw [h.boss], h.entities⟩

omit [FloatOps F] in
theorem Bystands.of_eq {r r' : Room F} (hb : r'.boss = r.boss) (he : r'.game.entities = r.game.entities) :
    r.Bystands r' :=
  ⟨hb, [], by rw [he, List.append_nil], fun _ h => nomatch h⟩

omit [FloatOps F] in
theorem Bystands.refl (r : Room F) : r.Bystands r := .of_eq rfl rfl

omit [FloatOps F] in
theorem Bystands.trans {r₁ r₂ r₃ : Room F} (h : r₁.Bystands r₂) (h' : r₂.Bystands r₃) : r₁.Bystands r₃ := by
  obtain ⟨new, he, hnew⟩ := h.entities
  obtain ⟨new', he', hnew'⟩ := h'.entities
  refine ⟨h'.boss.trans h.boss, new ++ new', by rw [he', he, List.append_assoc], ?_⟩
  intro e hmem
  exact (List.mem_append.1 hmem).elim (hnew e) (hnew' e)

omit [FloatOps F] in
theorem spawn_bystands (r : Room F) {type : UInt16} (htype : type ≠ 10) (x y vx vy : F) (h w : ℤ)
    (extra : List (UdpMsg F)) : r.Bystands (r.spawn type x y vx vy h w extra) := by
  refine ⟨rfl, _, rfl, fun e he => ?_⟩
  rw [List.mem_singleton.1 he]
  exact htype

omit [FloatOps F] in
theorem broadcastGameState_bystands (r : Room F) : r.Bystands r.broadcastGameState := .of_eq rfl rfl

theorem bossShoot_aside (r : Room F) (x y : F) : r.Aside (r.bossShoot x y) := by
  unfold bossShoot
  extract_lets shootInterval _ r'
  split
  · have hno : (11 : UInt16) ≠ 10 := by decide
    have hshots := fun vys : List F => foldl_rel Bystands.refl (fun _ _ _ => Bystands.trans)
      (fun r vy => r.spawn_bystands hno x (y + ((80 : ℤ) : F)) (-15.0) vy 30 30 []) vys r'
    exact ⟨(hshots _).aside.level, (hshots _).aside.hp, (hshots _).entities⟩
  · exact (Bystands.refl r).aside

theorem bossShoot_level (r : Room F) (x y : F) : (r.bossShoot x y).boss.level = r.boss.level :=
  (r.bossShoot_aside x y).level

theorem enemyStage_bystands (r : Room F) (env : UpdateEnv) : r.Bystands (r.enemyStage env) := by
  unfold enemyStage
  split
  · have hspawn : r.Bystands (r.createEnemy env.rand) := by
      unfold createEnemy
      split <;> exact spawn_bystands r (by decide) ..
    exact hspawn.trans (.of_eq rfl rfl)
  · exact .refl r

omit [FloatOps F] in
theorem syncStage_bystands (r : Room F) (env : UpdateEnv) : r.Bystands (r.syncStage env) := by
  unfold syncStage
  split
  · exact .of_eq rfl rfl
  · exact .refl r

end Room

/-- The UDP thread has nothing to do with a boss. -/
theorem UdpOp.bystands (playerId : UInt32) (memory : Player F) (r : Room F) (op : UdpOp) :
    r.Bystands (op.run playerId memory r).1 := by
  rcases op.run_cases playerId memory r with he | ⟨slot, f, -, he⟩ | ⟨slot, charged, rfl⟩
  · rw [he]
    exact .refl r
  · rw [he]
    exact .of_eq rfl rfl
  · simp only [run]
    split <;> exact Room.spawn_bystands r (by decide) ..

/-- Neither do the threads that let players in and out. -/
theorem GameThreads.section_bystands {l : GameThreads.Label F} {f : Room F → Room F} (h : l.section = some f)
    (r : Room F) : r.Bystands (f r) := by
  obtain ⟨hboss, hentities, -⟩ := section_apart h r
  exact .of_eq hboss hentities

/-! ## Calm rooms -/

theorem Entity.steer_type (e : Entity F) (gameTime : F) (bossLevel : ℤ) :
    (e.steer gameTime bossLevel).type = e.type :=
  steer_keeps (·.type) (fun _ _ _ => rfl) e gameTime bossLevel

namespace Room

/-- As long as no boss has come, there is no trace of one. -/
def Calm (r : Room F) : Prop :=
  r.boss.level = 0 → r.boss = Boss.none ∧ ∀ e ∈ r.game.entities, e.type ≠ 10

/-- A section that keeps a room calm, and a boss that has come. -/
structure Orderly (r r' : Room F) : Prop where
  calm : r.Calm → r'.Calm
  level : r.boss.level ≠ 0 → r'.boss.level ≠ 0

theorem Orderly.refl (r : Room F) : r.Orderly r := ⟨id, id⟩

theorem Orderly.trans {r₁ r₂ r₃ : Room F} (h : r₁.Orderly r₂) (h' : r₂.Orderly r₃) : r₁.Orderly r₃ :=
  ⟨h'.calm ∘ h.calm, h'.level ∘ h.level⟩

/-- A section that leaves the boss entries as they are and brings no boss. -/
theorem Orderly.of_types {r r' : Room F} (hb : r'.boss = r.boss)
    (ht : ∀ e' ∈ r'.game.entities, e'.type = 10 → ∃ e ∈ r.game.entities, e.type = 10) : r.Orderly r' := by
  refine ⟨fun hc h0 => ?_, fun h => by rw [hb]; exact h⟩
  rw [hb] at h0 ⊢
  obtain ⟨hnone, hnot⟩ := hc h0
  refine ⟨hnone, fun e' he' h10 => ?_⟩
  obtain ⟨e, he, hte⟩ := ht e' he' h10
  exact hnot e he hte

theorem Bystands.orderly {r r' : Room F} (h : r.Bystands r') : r.Orderly r' := by
  obtain ⟨new, he, hnew⟩ := h.entities
  refine .of_types h.boss fun e' he' h10 => ?_
  rw [he] at he'
  rcases List.mem_append.1 he' with he' | he'
  · exact ⟨e', he', h10⟩
  · exact absurd h10 (hnew e' he')

/-- A section that works on a boss that has come. -/
theorem Orderly.of_level {r r' : Room F} (h : r'.boss.level ≠ 0) : r.Orderly r' :=
  ⟨fun _ h0 => absurd h0 h, fun _ => h⟩

theorem updateEntities_orderly (r : Room F) : r.Orderly r.updateEntities := by
  refine .of_types rfl fun e' he' h10 => ?_
  obtain ⟨e, he, rfl⟩ := List.mem_map.1 (List.mem_filter.1 he').1
  exact ⟨e, he, h10⟩

theorem flag_orderly (r : Room F) (i : ℕ) : r.Orderly (r.flag i) := by
  refine .of_types rfl fun e' he' h10 => ?_
  have hmem : e'.type ∈ (r.flag i).game.entities.map (·.type) := List.mem_map_of_mem he'
  rw [flag_types, List.mem_map] at hmem
  obtain ⟨e, he, hte⟩ := hmem
  exact ⟨e, he, hte.trans h10⟩

omit [FloatOps F] in
/-- A hit keeps the level, or raises it. -/
theorem hitBoss_level (r : Room F) (j : ℕ) (damage : ℤ) (h : r.boss.level ≠ 0) :
    (r.hitBoss j damage).boss.level ≠ 0 := by
  unfold hitBoss
  extract_lets hp maxHp _ r' r''
  have hr : r'.boss.level = r.boss.level := rfl
  split
  · split
    · exact (by decide : (2 : ℤ) ≠ 0)
    · split
      · exact (by decide : (4 : ℤ) ≠ 0)
      · exact h
  · rw [hr]
    exact h

theorem handleCollision_orderly (r : Room F) : r.Orderly r.handleCollision := by
  refine handleCollision_rel Orderly.refl (fun _ _ _ => Orderly.trans) flag_orderly (fun r j damage hboss => ?_) r
  refine ⟨fun hc => ?_, hitBoss_level r j damage⟩
  -- a calm room has no boss to hit, unless its boss has come
  have hlevel : r.boss.level ≠ 0 := by
    intro h0
    obtain ⟨e, he, h10⟩ := hboss
    exact (hc h0).2 e he h10
  exact fun h0 => absurd h0 (hitBoss_level r j damage hlevel)

theorem updateGameLevel_orderly (r : Room F) (elapsedTime : F) : r.Orderly (r.updateGameLevel elapsedTime) := by
  refine .of_types rfl fun e' he' h10 => ?_
  obtain ⟨e, he, rfl⟩ := List.mem_map.1 he'
  rw [Entity.steer_type] at h10
  exact ⟨e, he, h10⟩

/-- Where a boss is to be spawned, the level says so already. -/
theorem bossStage_orderly (r : Room F) :
    r.Orderly r.bossStage.1 ∧ (r.bossStage.2.isSome → r.bossStage.1.boss.level ≠ 0) := by
  unfold bossStage
  split
  · have h1 : (1 : ℤ) ≠ 0 := by decide
    exact ⟨.of_level h1, fun _ => h1⟩
  · split
    · have h3 : (3 : ℤ) ≠ 0 := by decide
      exact ⟨.of_level h3, fun _ => h3⟩
    · exact ⟨.refl r, fun h => nomatch h⟩

omit [FloatOps F] in
theorem bossAim_level {r : Room F} {p : F × F} (h : r.bossAim = some p) : r.boss.level ≠ 0 := by
  unfold bossAim at h
  split at h
  · rename_i hl
    omega
  · cases h

end Room

/-- Where the loop is about to work on a boss, one has come. -/
def LoopPc.BossHere (r : Room F) : LoopPc F → Prop
  | spawnBoss _ | bossShoot _ _ => r.boss.level ≠ 0
  | _ => True

theorem LoopPc.orderly (env : UpdateEnv) {r : Room F} {pc : LoopPc F} (h : pc.BossHere r) :
    r.Orderly (pc.run env r).1 ∧ (pc.run env r).2.BossHere (pc.run env r).1 := by
  cases pc with
  | idle =>
    simp only [run]
    split <;> exact ⟨.refl r, trivial⟩
  | updateEntities => exact ⟨r.updateEntities_orderly, trivial⟩
  | handleCollision => exact ⟨r.handleCollision_orderly, trivial⟩
  | broadcastGameState => exact ⟨r.broadcastGameState_bystands.orderly, trivial⟩
  | updateGameLevel => exact ⟨r.updateGameLevel_orderly _, trivial⟩
  | bossStage =>
    have hs := r.bossStage_orderly
    simp only [run]
    rcases hr : r.bossStage with ⟨r', _ | bossMaxHP⟩ <;> rw [hr] at hs
    · exact ⟨hs.1, trivial⟩
    · exact ⟨hs.1, hs.2 rfl⟩
  | spawnBoss bossMaxHP => exact ⟨.of_level h, trivial⟩
  | bossAim =>
    simp only [run]
    split
    · rename_i haim
      exact ⟨.refl r, Room.bossAim_level haim⟩
    · exact ⟨.refl r, trivial⟩
  | bossShoot x y =>
    refine ⟨.of_level ?_, trivial⟩
    rw [run, Room.bossShoot_level]
    exact h
  | enemyStage => exact ⟨(r.enemyStage_bystands env).orderly, trivial⟩
  | syncStage => exact ⟨(r.syncStage_bystands env).orderly, trivial⟩

/-- **No act forgets a boss, or leaves a trace of one before it comes.** -/
theorem RoomAct.orderly (a : RoomAct) (r : Room F) : r.Orderly (a.run r) := by
  cases a with
  | join p username => exact (GameThreads.section_bystands (l := .join p username) rfl r).orderly
  | leave p => exact (GameThreads.section_bystands (l := .removePlayerFromLobby p) rfl r).orderly
  | start p => exact (GameThreads.section_bystands (l := .start p) rfl r).orderly
  | disconnect p => exact (GameThreads.section_bystands (l := .disconnectPlayer p) rfl r).orderly
  | kick p => exact (GameThreads.section_bystands (l := .kickPlayer p) rfl r).orderly
  | input pkt addr =>
    exact (GameThreads.handlePlayerInput_rule (I := fun r' => r.Bystands r')
      (fun memory op r' h => h.trans (op.bystands _ memory r'))
      (GameThreads.section_bystands (l := .updatePlayerUdpAddr pkt.playerId addr) rfl r)).orderly
  | update env =>
    exact (GameThreads.update_rule_at (I := fun r' pc => r.Orderly r' ∧ pc.BossHere r')
      (fun env pc r' h => ⟨h.1.trans (pc.orderly env h.2).1, (pc.orderly env h.2).2⟩) env
      ⟨.refl r, trivial⟩).1

end RType

import RType.Proof.Sections

/-!
# What a room queues

Every section of a room's threads leaves what is queued in its place and appends to it.

* `Posts`: it appends nothing but messages with some property.
* `Moving`, `Plain`: the property holds of the messages whose fields are not computed; then
  `UdpOp.posts`, `section_posts` and most sections of the loop need no more.
* `LoopPc.posts`, `RoomAct.posts`: a property of all that rooms queue.
-/

namespace RType

open Lts

variable {F : Type*} {P : UdpMsg F → Prop}

/-- `P` holds of the messages that tell where one player or one entity is. -/
structure UdpMsg.Moving (P : UdpMsg F → Prop) : Prop where
  playerState : ∀ playerId sequence tick x y, P (.playerState playerId sequence tick x y)
  entitySpawn : ∀ entityId type x y, P (.entitySpawn entityId type x y)
  entityUpdate : ∀ entityId x y, P (.entityUpdate entityId x y)
  entityDestroy : ∀ entityId, P (.entityDestroy entityId)

/-- `P` holds of the messages that tell of one player or one entity. -/
structure UdpMsg.Plain (P : UdpMsg F → Prop) : Prop extends UdpMsg.Moving P where
  playerDisconnect : ∀ playerId, P (.playerDisconnect playerId)
  youHaveBeenKicked : P .youHaveBeenKicked

theorem posted_of_mem_announce {ps : List (Player F)} {ms : List (UdpMsg F)} (h : ∀ m ∈ ms, P m) :
    ∀ m ∈ announce ps ms, P m.msg := by
  intro m hm
  obtain ⟨d, -, -, msg, hmsg, rfl⟩ := mem_announce.1 hm
  exact h msg hmsg

theorem posted_of_mem_announce_singleton {ps : List (Player F)} {msg : UdpMsg F} (h : P msg) :
    ∀ m ∈ announce ps [msg], P m.msg := by
  refine posted_of_mem_announce fun m hm => ?_
  rw [List.mem_singleton.1 hm]
  exact h

namespace Room

/-- A section that queues nothing but messages with a property. -/
def Posts (P : UdpMsg F → Prop) (r r' : Room F) : Prop := ∃ new, r'.out = r.out ++ new ∧ ∀ m ∈ new, P m.msg

variable {r r' : Room F}

theorem Posts.of_eq (h : r'.out = r.out) : r.Posts P r' := ⟨[], by rw [h, List.append_nil], fun m hm => nomatch hm⟩

theorem Posts.refl (r : Room F) : r.Posts P r := .of_eq rfl

theorem Posts.trans {s : Room F} (h : r.Posts P s) (h' : s.Posts P r') : r.Posts P r' := by
  obtain ⟨new, hnew, hP⟩ := h
  obtain ⟨new', hnew', hP'⟩ := h'
  refine ⟨new ++ new', by rw [hnew', hnew, List.append_assoc], fun m hm => ?_⟩
  exact (List.mem_append.1 hm).elim (hP m) (hP' m)

/-- What was queued before had the property too. -/
theorem Posts.all (h : r.Posts P r') (hr : ∀ m ∈ r.out, P m.msg) : ∀ m ∈ r'.out, P m.msg := by
  obtain ⟨new, hnew, hP⟩ := h
  intro m hm
  rw [hnew] at hm
  exact (List.mem_append.1 hm).elim (hr m) (hP m)

theorem broadcast_posts (r : Room F) {ms : List (UdpMsg F)} (h : ∀ m ∈ ms, P m) : r.Posts P (r.broadcast ms) :=
  ⟨_, rfl, posted_of_mem_announce h⟩

/-! ### Sections -/

section Moving

variable (hP : UdpMsg.Moving P)

include hP

theorem spawn_posts (r : Room F) (type : UInt16) (x y vx vy : F) (h w : ℤ) (extra : List (UdpMsg F))
    (hextra : ∀ m ∈ extra, P m) : r.Posts P (r.spawn type x y vx vy h w extra) := by
  refine ⟨_, rfl, posted_of_mem_announce ?_⟩
  rintro m (_ | ⟨_, hm⟩)
  · exact hP.entitySpawn _ _ _ _
  · exact hextra m hm

theorem broadcastGameState_posts (r : Room F) : r.Posts P r.broadcastGameState := by
  refine ⟨_, rfl, fun m hm => ?_⟩
  obtain ⟨p, -, hm⟩ := List.mem_flatMap.1 hm
  exact posted_of_mem_announce_singleton (hP.playerState _ _ _ _ _) m hm

variable [FloatOps F]

theorem updateEntities_posts (r : Room F) : r.Posts P r.updateEntities := by
  refine ⟨_, rfl, fun m hm => ?_⟩
  obtain ⟨e, -, hm⟩ := List.mem_flatMap.1 hm
  refine posted_of_mem_announce_singleton ?_ m hm
  unfold Entity.report
  split
  · exact hP.entityDestroy _
  · exact hP.entityUpdate _ _ _

theorem bossShoot_posts (r : Room F) (x y : F) : r.Posts P (r.bossShoot x y) := by
  unfold bossShoot
  extract_lets shootInterval _ r₁
  split
  · have hshots := fun vys : List F => foldl_rel Posts.refl (fun _ _ _ => Posts.trans)
      (fun r vy => r.spawn_posts hP 11 x (y + ((80 : ℤ) : F)) (-15.0) vy 30 30 [] fun _ h => nomatch h) vys r₁
    exact Posts.trans (.of_eq rfl) (hshots _)
  · exact .refl r

theorem enemyStage_posts (r : Room F) (env : UpdateEnv) : r.Posts P (r.enemyStage env) := by
  unfold enemyStage
  split
  · have hspawn : r.Posts P (r.createEnemy env.rand) := by
      unfold createEnemy
      split <;> exact spawn_posts hP r _ _ _ _ _ _ _ _ fun _ h => nomatch h
    exact hspawn.trans (.of_eq rfl)
  · exact .refl r

end Moving

section Plain

variable (hP : UdpMsg.Plain P)

include hP

theorem disconnectPlayer_posts (r : Room F) (playerId : UInt32) : r.Posts P (r.disconnectPlayer playerId) :=
  ⟨_, rfl, posted_of_mem_announce_singleton (hP.playerDisconnect playerId)⟩

theorem kickPlayer_posts (r : Room F) (playerId : UInt32) : r.Posts P (r.kickPlayer playerId) := by
  have hkicked : ∀ kicked : List (Player F), r.Posts P { r with out := r.out ++ announce kicked [.youHaveBeenKicked] } :=
    fun kicked => ⟨_, rfl, posted_of_mem_announce_singleton hP.youHaveBeenKicked⟩
  exact (hkicked _).trans (disconnectPlayer_posts hP _ playerId)

end Plain

end Room

/-! ## Threads -/

section Moving

variable [FloatOps F] (hP : UdpMsg.Moving P)

include hP in
theorem UdpOp.posts (playerId : UInt32) (memory : Player F) (r : Room F) (op : UdpOp) :
    r.Posts P (op.run playerId memory r).1 := by
  rcases op.run_cases playerId memory r with he | ⟨slot, f, -, he⟩ | ⟨slot, charged, rfl⟩
  · rw [he]
    exact .refl r
  · rw [he]
    exact .of_eq rfl
  · simp only [run]
    split <;> exact Room.spawn_posts hP r _ _ _ _ _ _ _ _ fun _ h => by cases h

include hP in
theorem Room.input_posts (r : Room F) (pkt : PlayerInputPacket) (addr : SockAddr) : r.Posts P (r.input pkt addr) :=
  GameThreads.handlePlayerInput_rule (I := fun r' => r.Posts P r')
    (fun memory op r' h => h.trans (op.posts hP _ memory r')) (.of_eq rfl)

variable (hboss : ∀ hp maxHp, P (.bossState hp maxHp)) (hsync : ∀ count records, P (.globalStateSync count records))

include hboss

omit [FloatOps F] in
theorem Room.hitBoss_posts (r : Room F) (j : ℕ) (damage : ℤ) : r.Posts P (r.hitBoss j damage) := by
  unfold hitBoss
  extract_lets hp maxHp _ r₁ r₂
  have htold : r.Posts P r₁ := ⟨_, rfl, posted_of_mem_announce_singleton (hboss hp maxHp)⟩
  split
  · split
    · exact htold.trans (.of_eq rfl)
    · split
      · exact htold.trans (.of_eq rfl)
      · exact htold.trans (.of_eq rfl)
  · exact htold

include hP hsync

theorem LoopPc.posts (env : UpdateEnv) (r : Room F) (pc : LoopPc F) : r.Posts P (pc.run env r).1 := by
  cases pc with
  | idle => exact .refl r
  | updateEntities => exact r.updateEntities_posts hP
  | handleCollision =>
    exact Room.handleCollision_rel .refl (fun _ _ _ => .trans) (fun r i => .of_eq rfl)
      (fun r j damage _ => r.hitBoss_posts hboss j damage) r
  | broadcastGameState => exact r.broadcastGameState_posts hP
  | updateGameLevel => exact .of_eq rfl
  | bossStage =>
    rw [run_bossStage]
    unfold Room.bossStage
    split
    · exact .of_eq rfl
    · split
      · exact .of_eq rfl
      · exact .refl r
  | spawnBoss bossMaxHP =>
    refine r.spawn_posts hP _ _ _ _ _ _ _ _ fun m hm => ?_
    rw [List.mem_singleton.1 hm]
    exact hboss _ _
  | bossAim =>
    simp only [run]
    split <;> exact .refl r
  | bossShoot x y => exact r.bossShoot_posts hP x y
  | enemyStage => exact r.enemyStage_posts hP env
  | syncStage =>
    simp only [run, Room.syncStage]
    split
    · refine (r.broadcast_posts fun m hm => ?_).trans (.of_eq rfl)
      rw [List.mem_singleton.1 hm]
      exact hsync _ _
    · exact .refl r

theorem Room.update_posts (r : Room F) (env : UpdateEnv) : r.Posts P (r.update env) :=
  GameThreads.update_rule (I := fun r' => r.Posts P r')
    (fun env pc r' h => h.trans (pc.posts hP hboss hsync env r')) env (.refl r)

end Moving

section Plain

variable [FloatOps F] (hP : UdpMsg.Plain P)

include hP

theorem GameThreads.section_posts {l : GameThreads.Label F} {f : Room F → Room F} (h : l.section = some f)
    (r : Room F) : r.Posts P (f r) := by
  cases l with
  | call c => cases h
  | udp memory => cases h
  | loop env => cases h
  | updatePlayerUdpAddr playerId addr =>
    obtain rfl := Option.some.inj h
    exact .of_eq rfl
  | join playerId username =>
    obtain rfl := Option.some.inj h
    simp only [RoomAct.run, Room.join]
    split <;> exact .of_eq rfl
  | start playerId =>
    obtain rfl := Option.some.inj h
    simp only [RoomAct.run, Room.start]
    split <;> exact .of_eq rfl
  | removePlayerFromLobby playerId =>
    obtain rfl := Option.some.inj h
    exact .of_eq rfl
  | disconnectPlayer playerId =>
    obtain rfl := Option.some.inj h
    exact r.disconnectPlayer_posts hP playerId
  | kickPlayer playerId =>
    obtain rfl := Option.some.inj h
    exact r.kickPlayer_posts hP playerId

variable (hboss : ∀ hp maxHp, P (.bossState hp maxHp)) (hsync : ∀ count records, P (.globalStateSync count records))

include hboss hsync

/-- **What is done to a room queues what its sections queue.** -/
theorem RoomAct.posts (a : RoomAct) (r : Room F) : r.Posts P (a.run r) := by
  cases a with
  | join p username => exact GameThreads.section_posts hP (l := .join p username) rfl r
  | leave p => exact GameThreads.section_posts hP (l := .removePlayerFromLobby p) rfl r
  | start p => exact GameThreads.section_posts hP (l := .start p) rfl r
  | disconnect p => exact GameThreads.section_posts hP (l := .disconnectPlayer p) rfl r
  | kick p => exact GameThreads.section_posts hP (l := .kickPlayer p) rfl r
  | input pkt addr => exact r.input_posts hP.toMoving pkt addr
  | update env => exact r.update_posts hP.toMoving hboss hsync env

end Plain

end RType

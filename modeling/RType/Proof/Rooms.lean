import Mathlib.Data.List.Forall2
import RType.Spec.GameThreads

/-!
# What one step does to a room

* `GameThreads.step_cases`: the four kinds of steps of a room's threads.
* `Room.Works`: a section that leaves the players as they are and names no player in
  what it queues; `LoopPc.works`, `UdpOp.shoot_works`.
* `section_ids`: the players in and out of the room.
-/

namespace RType

open Lts

variable {F : Type*}

/-- The ids of the players, in the order of the vector. -/
def Room.ids (r : Room F) : List UInt32 := r.game.players.map (·.id)

/-- The ids of the players with their names. -/
def Room.names (r : Room F) : List (UInt32 × List UInt8) := r.game.players.map fun p => (p.id, p.username)

theorem Room.ids_eq (r : Room F) : r.ids = r.names.map (·.1) := by
  rw [names, List.map_map]
  rfl

theorem Room.ids_of_names {r r' : Room F} (h : r'.names = r.names) : r'.ids = r.ids := by
  rw [ids_eq, h, ids_eq]

/-- The player a message is about, if it is one of the two that tell about players. -/
def UdpMsg.subject : UdpMsg F → Option UInt32
  | .playerState playerId _ _ _ _ => some playerId
  | .playerDisconnect playerId => some playerId
  | _ => none

/-- A section that leaves the players as they are and queues nothing about them. -/
structure Room.Works (r r' : Room F) : Prop where
  players : r'.game.players = r.game.players
  status : r'.game.status = r.game.status
  out : ∃ new, r'.out = r.out ++ new ∧ ∀ m ∈ new, m.msg.subject = none

theorem mem_announce {players : List (Player F)} {ms : List (UdpMsg F)} {m : Sent F} :
    m ∈ announce players ms ↔
      ∃ d ∈ players, d.addrSet = true ∧ ∃ msg ∈ ms, m = ⟨some d.id, d.udpAddr, msg⟩ := by
  simp only [announce, List.mem_flatMap, List.mem_filter, List.mem_map, and_assoc, eq_comm]

/-! ## The players of a room -/

theorem map_modify_eq {α β : Type*} (g : α → β) {f : α → α} (h : ∀ a, g (f a) = g a) (l : List α) (i : ℕ) :
    (l.modify i f).map g = l.map g := by
  apply List.ext_getElem?
  intro j
  rw [List.getElem?_map, List.getElem?_modify, List.getElem?_map]
  split
  · cases l[j]? with
    | none => rfl
    | some a => simp [h]
  · simp

/-- A write to one slot is a write to one entry. -/
theorem forall₂_modify {α : Type*} {R : α → α → Prop} (hrefl : ∀ a, R a a) {f : α → α} (hf : ∀ a, R a (f a)) (l : List α)
    (slot : ℕ) : List.Forall₂ R l (l.modify slot f) := by
  induction l generalizing slot with
  | nil => cases slot <;> exact .nil
  | cons a l ih =>
    cases slot with
    | zero => exact .cons (hf a) (List.forall₂_same.2 fun a _ => hrefl a)
    | succ slot => exact .cons (hrefl a) (ih slot)

theorem forall₂_trans {α : Type*} {R : α → α → Prop} (htrans : ∀ a b c, R a b → R b c → R a c) {l₁ l₂ l₃ : List α}
    (h : List.Forall₂ R l₁ l₂) (h' : List.Forall₂ R l₂ l₃) : List.Forall₂ R l₁ l₃ := by
  induction h generalizing l₃ with
  | nil => exact h'
  | cons hab _ ih =>
    cases h' with
    | cons hbc h' => exact .cons (htrans _ _ _ hab hbc) (ih h')

theorem Room.writeSlot_ids (r : Room F) (slot : ℕ) {f : Player F → Player F} (h : ∀ p, (f p).id = p.id) :
    (r.writeSlot slot f).ids = r.ids := map_modify_eq _ h _ _

theorem Room.filter_ids (r : Room F) (playerId : UInt32) :
    (r.game.players.filter (·.id != playerId)).map (·.id) = r.ids.filter (· != playerId) := by
  rw [Room.ids, List.filter_map]
  rfl

theorem Room.Works.names {r r' : Room F} (h : r.Works r') : r'.names = r.names := by
  rw [Room.names, h.players, Room.names]

theorem Game.updatePlayerUdpAddr_names (g : Game F) (playerId : UInt32) (addr : SockAddr) :
    ((g.updatePlayerUdpAddr playerId addr).players.map fun p => (p.id, p.username)) =
      g.players.map fun p => (p.id, p.username) := by
  unfold updatePlayerUdpAddr
  split
  · exact map_modify_eq _ (fun p => by split <;> rfl) _ _
  · rfl

/-- The pointer `getPlayer` returns is the player's, at that moment. -/
theorem Room.getElem?_getPlayer {r : Room F} {playerId : UInt32} {slot : ℕ}
    (h : r.game.getPlayer playerId = some slot) : r.ids[slot]? = some playerId := by
  obtain ⟨hlt, hid, -⟩ := List.findIdx?_eq_some_iff_getElem.1 h
  rw [ids, List.getElem?_map, List.getElem?_eq_getElem hlt, Option.map_some, beq_iff_eq.1 hid]

/-! ## Sections that work on the entities -/

/-- A loop relates its ends by what relates the ends of each turn. -/
theorem foldl_rel {α β : Type*} {R : α → α → Prop} (hrefl : ∀ a, R a a) (htrans : ∀ a b c, R a b → R b c → R a c)
    {f : α → β → α} (h : ∀ a b, R a (f a b)) : ∀ (bs : List β) (a : α), R a (bs.foldl f a) := by
  intro bs
  induction bs with
  | nil => exact hrefl
  | cons b bs ih => exact fun a => htrans a (f a b) _ (h a b) (ih (f a b))

/-- A loop keeps what its turns keep. -/
theorem foldl_keeps {α β : Type*} {I : α → Prop} {f : α → β → α} (h : ∀ a b, I a → I (f a b)) (bs : List β) {a : α}
    (ha : I a) : I (bs.foldl f a) :=
  foldl_rel (R := fun a a' => I a → I a') (fun _ => id) (fun _ _ _ h h' => h' ∘ h) h bs a ha

/-- `updateGameLevel` changes nothing of an entity that does not depend on its velocity. -/
theorem Entity.steer_keeps [FloatOps F] {β : Type*} (g : Entity F → β)
    (h : ∀ (e : Entity F) vx vy, g { e with velocityX := vx, velocityY := vy } = g e)
    (e : Entity F) (gameTime : F) (bossLevel : ℤ) : g (e.steer gameTime bossLevel) = g e := by
  unfold Entity.steer
  extract_lets e'
  have he : g e' = g e := by
    simp only [e']
    split
    · exact h e _ _
    · rfl
  split
  · split
    · exact (h e' _ _).trans he
    · split <;> exact (h e' _ _).trans he
  · exact he

namespace Room

/-- A flag changes nothing of an entity that does not depend on it. -/
theorem flag_map {β : Type*} (g : Entity F → β) (h : ∀ e : Entity F, g { e with isCollide := true } = g e)
    (r : Room F) (i : ℕ) : (r.flag i).game.entities.map g = r.game.entities.map g :=
  map_modify_eq g h _ i

theorem flag_types (r : Room F) (i : ℕ) : (r.flag i).game.entities.map (·.type) = r.game.entities.map (·.type) :=
  flag_map _ (fun _ => rfl) r i

section Collisions

variable [FloatOps F] {R : Room F → Room F → Prop} (hrefl : ∀ r, R r r) (htrans : ∀ r s t, R r s → R s t → R r t)
  (hflag : ∀ r i, R r (r.flag i)) (hhit : ∀ r j damage, (∃ e ∈ r.game.entities, e.type = 10) → R r (r.hitBoss j damage))

include hrefl htrans hflag hhit

/-- One pair of a projectile and another entity. -/
theorem collideProjectile_rel (r : Room F) (i j : ℕ) : R r (r.collideProjectile i j) := by
  unfold collideProjectile
  split
  · rename_i projectile enemy _ henemy
    split
    · exact hrefl r
    · split
      · exact hrefl r
      · split
        · split
          · rename_i htype
            refine htrans _ _ _ (hflag r i) (hhit _ _ _ ?_)
            have hmem := List.mem_map_of_mem (f := (·.type)) (List.mem_of_getElem? henemy)
            rw [← flag_types r i, List.mem_map] at hmem
            obtain ⟨e, he, hte⟩ := hmem
            exact ⟨e, he, hte.trans htype⟩
          · exact htrans _ _ _ (hflag r i) (hflag _ j)
        · exact hrefl r
  · exact hrefl r

/-- One projectile against all entities. -/
theorem collideProjectiles_rel (n : ℕ) (r : Room F) (i : ℕ) : R r (collideProjectiles n r i) := by
  unfold collideProjectiles
  split
  · split
    · exact hrefl r
    · exact foldl_rel hrefl htrans (fun r j => collideProjectile_rel hrefl htrans hflag hhit r i j) _ r
  · exact hrefl r

omit hhit in
/-- All players against all entities. -/
theorem collidePlayers_rel (n : ℕ) (players : List (Player F)) (r : Room F) :
    R r (players.foldl (fun r player => (List.range n).foldl (collidePlayer player) r) r) := by
  have hplayer : ∀ player (r : Room F) j, R r (collidePlayer player r j) := by
    intro player r j
    unfold collidePlayer
    split
    · split
      · exact hrefl r
      · split
        · exact hrefl r
        · split
          · exact hflag r j
          · exact hrefl r
    · exact hrefl r
  exact foldl_rel hrefl htrans (fun r p => foldl_rel hrefl htrans (hplayer p) _ r) _ _

/-- Collisions are made of flags and hits on a boss that is there: what relates the ends of
each of these relates the ends of `handleCollision`. -/
theorem handleCollision_rel (r : Room F) : R r r.handleCollision :=
  htrans _ _ _ (foldl_rel hrefl htrans (collideProjectiles_rel hrefl htrans hflag hhit _) _ r)
    (collidePlayers_rel hrefl htrans hflag _ _ _)

end Collisions

/-- A section that queues nothing. -/
theorem Works.of_eq {r r' : Room F} (hp : r'.game.players = r.game.players)
    (hs : r'.game.status = r.game.status) (ho : r'.out = r.out) : r.Works r' :=
  ⟨hp, hs, [], by rw [ho, List.append_nil], fun m hm => nomatch hm⟩

theorem Works.refl (r : Room F) : r.Works r := .of_eq rfl rfl rfl

theorem Works.trans {r₁ r₂ r₃ : Room F} (h : r₁.Works r₂) (h' : r₂.Works r₃) : r₁.Works r₃ := by
  obtain ⟨new, e, q⟩ := h.out
  obtain ⟨new', e', q'⟩ := h'.out
  refine ⟨h'.players.trans h.players, h'.status.trans h.status, new ++ new', ?_, ?_⟩
  · rw [e', e, List.append_assoc]
  · intro m hm
    exact (List.mem_append.1 hm).elim (q m) (q' m)

theorem broadcast_works (r : Room F) {ms : List (UdpMsg F)} (h : ∀ m ∈ ms, m.subject = none) :
    r.Works (r.broadcast ms) := by
  refine ⟨rfl, rfl, announce r.game.players ms, rfl, fun m hm => ?_⟩
  obtain ⟨d, -, -, msg, hmsg, rfl⟩ := mem_announce.1 hm
  exact h msg hmsg

theorem spawn_works (r : Room F) (type : UInt16) (x y vx vy : F) (h w : ℤ) {extra : List (UdpMsg F)}
    (hq : ∀ m ∈ extra, m.subject = none) : r.Works (r.spawn type x y vx vy h w extra) := by
  dsimp only [spawn]
  refine Works.trans ?_ (broadcast_works _ ?_)
  · exact .of_eq rfl rfl rfl
  rintro m (_ | ⟨_, hm⟩)
  · rfl
  · exact hq m hm

theorem flag_works (r : Room F) (i : ℕ) : r.Works (r.flag i) := .of_eq rfl rfl rfl

theorem syncStage_works (r : Room F) (env : UpdateEnv) : r.Works (r.syncStage env) := by
  unfold syncStage
  split
  · exact (broadcast_works r (by simp [UdpMsg.subject])).trans (.of_eq rfl rfl rfl)
  · exact Works.refl r

variable [FloatOps F]

theorem updateEntities_works (r : Room F) : r.Works r.updateEntities := by
  refine ⟨rfl, rfl, _, rfl, fun m hm => ?_⟩
  obtain ⟨e, -, hm⟩ := List.mem_flatMap.1 hm
  obtain ⟨d, -, -, msg, hmsg, rfl⟩ := mem_announce.1 hm
  rw [List.mem_singleton.1 hmsg, Entity.report]
  split <;> rfl

omit [FloatOps F] in
theorem hitBoss_works (r : Room F) (j : ℕ) (damage : ℤ) : r.Works (r.hitBoss j damage) := by
  have hb : ∀ (r : Room F) hp maxHp, r.Works (r.broadcast [.bossState hp maxHp]) := fun r hp maxHp =>
    broadcast_works r (by simp [UdpMsg.subject])
  have he : ∀ (r : Room F) (b : Boss F), r.Works { r with boss := b } := fun r b => .of_eq rfl rfl rfl
  unfold hitBoss
  extract_lets hp maxHp _ r' r''
  have h : r.Works r' := (he r { r.boss with hp }).trans (hb _ hp maxHp)
  split
  · have h' : r.Works r'' := h.trans (flag_works r' j)
    split
    · exact h'.trans (he _ _)
    · split
      · exact h'.trans (he _ _)
      · exact h'
  · exact h

theorem handleCollision_works (r : Room F) : r.Works r.handleCollision :=
  handleCollision_rel Works.refl (fun _ _ _ => Works.trans) flag_works (fun r j damage _ => hitBoss_works r j damage) r

theorem bossStage_works (r : Room F) : r.Works r.bossStage.1 := by
  unfold bossStage
  split
  · exact (.of_eq rfl rfl rfl)
  · split
    · exact (.of_eq rfl rfl rfl)
    · exact Works.refl r

theorem spawnBoss_works (r : Room F) (bossMaxHP : ℤ) : r.Works (r.spawnBoss bossMaxHP) :=
  spawn_works r _ _ _ _ _ _ _ (by simp [UdpMsg.subject])

theorem bossShoot_works (r : Room F) (x y : F) : r.Works (r.bossShoot x y) := by
  unfold bossShoot
  extract_lets shootInterval r'
  split
  · refine Works.trans ?_ (foldl_rel Works.refl (fun _ _ _ => Works.trans) (fun r vy => ?_) _ _)
    · exact .of_eq rfl rfl rfl
    exact spawn_works r _ _ _ _ _ _ _ (by simp)
  · exact Works.refl r

theorem createEnemy_works (r : Room F) (rand : ℕ) : r.Works (r.createEnemy rand) := by
  unfold createEnemy
  split <;> exact spawn_works r _ _ _ _ _ _ _ (by simp)

theorem enemyStage_works (r : Room F) (env : UpdateEnv) : r.Works (r.enemyStage env) := by
  unfold enemyStage
  split
  · exact (createEnemy_works r env.rand).trans (.of_eq rfl rfl rfl)
  · exact Works.refl r

end Room

variable [FloatOps F]

theorem LoopPc.run_bossStage (env : UpdateEnv) (r : Room F) : (bossStage.run env r).1 = r.bossStage.1 := by
  simp only [run]
  rcases r.bossStage with ⟨r', _ | bossMaxHP⟩ <;> rfl

/-- **Every section of `update` but one leaves the players alone.** -/
theorem LoopPc.works (env : UpdateEnv) (r : Room F) {pc : LoopPc F} (h : pc ≠ .broadcastGameState) :
    r.Works (pc.run env r).1 := by
  cases pc with
  | idle => exact Room.Works.refl r
  | updateEntities => exact r.updateEntities_works
  | handleCollision => exact r.handleCollision_works
  | broadcastGameState => exact absurd rfl h
  | updateGameLevel => exact .of_eq rfl rfl rfl
  | bossStage => exact run_bossStage env r ▸ r.bossStage_works
  | spawnBoss bossMaxHP => exact r.spawnBoss_works bossMaxHP
  | bossAim =>
    simp only [run]
    split <;> exact Room.Works.refl r
  | bossShoot x y => exact r.bossShoot_works x y
  | enemyStage => exact r.enemyStage_works env
  | syncStage => exact r.syncStage_works env

/-! ## Players in and out -/

/-- The loop keeps the players and their names. -/
theorem LoopPc.names (env : UpdateEnv) (r : Room F) (pc : LoopPc F) : (pc.run env r).1.names = r.names := by
  by_cases h : pc = .broadcastGameState
  · subst h
    simp only [run, Room.broadcastGameState, Room.names, List.map_map]
    refine List.map_congr_left fun p _ => ?_
    simp only [Function.comp_apply]
    split <;> rfl
  · exact (works env r h).names

theorem LoopPc.ids (env : UpdateEnv) (r : Room F) (pc : LoopPc F) : (pc.run env r).1.ids = r.ids :=
  Room.ids_of_names (names env r pc)

theorem UdpOp.shoot_works (r : Room F) (x y : F) (charged : Bool) :
    r.Works (if charged then r.spawnChargedShot x y else r.spawnShot x y) := by
  split <;> exact Room.spawn_works r _ _ _ _ _ _ _ (by simp)

/-- A change of a player that keeps who it is, and where it is reached. -/
structure Player.KeepsIdentity (f : Player F → Player F) : Prop where
  id : ∀ p, (f p).id = p.id
  username : ∀ p, (f p).username = p.username
  addrSet : ∀ p, (f p).addrSet = p.addrSet
  udpAddr : ∀ p, (f p).udpAddr = p.udpAddr

theorem SlotWrite.keepsIdentity (w : SlotWrite) : Player.KeepsIdentity (F := F) w.apply := by
  cases w with
  | move i => cases i <;> exact ⟨fun _ => rfl, fun _ => rfl, fun _ => rfl, fun _ => rfl⟩
  | _ => exact ⟨fun _ => rfl, fun _ => rfl, fun _ => rfl, fun _ => rfl⟩

/-- **What a step of the UDP thread does to the room**: nothing, a change of one player, or a
shot. -/
theorem UdpOp.run_cases (playerId : UInt32) (memory : Player F) (r : Room F) (op : UdpOp) :
    (op.run playerId memory r).1 = r ∨
      (∃ slot f, Player.KeepsIdentity f ∧ (op.run playerId memory r).1 = r.writeSlot slot f) ∨
        ∃ slot charged, op = .shoot slot charged := by
  cases op with
  | getPlayer pkt =>
    simp only [run]
    split <;> exact .inl rfl
  | stats slot tick => exact .inl rfl
  | write slot w => exact .inr (.inl ⟨slot, w.apply, w.keepsIdentity, rfl⟩)
  | setTick tick =>
    simp only [run, Game.setPlayerLastProcessedTick]
    split
    · rename_i slot _
      refine .inr (.inl ⟨slot, _, ⟨fun p => ?_, fun p => ?_, fun p => ?_, fun p => ?_⟩, rfl⟩) <;> split <;> rfl
    · exact .inl rfl
  | getShooter charged =>
    simp only [run]
    split <;> exact .inl rfl
  | shoot slot charged => exact .inr (.inr ⟨slot, charged, rfl⟩)

/-- So does the UDP thread. -/
theorem UdpOp.names (playerId : UInt32) (memory : Player F) (r : Room F) (op : UdpOp) :
    (op.run playerId memory r).1.names = r.names := by
  rcases op.run_cases playerId memory r with he | ⟨slot, f, hf, he⟩ | ⟨slot, charged, rfl⟩
  · rw [he]
  · rw [he]
    exact map_modify_eq _ (fun p => by rw [hf.id, hf.username]) _ _
  · exact (shoot_works r _ _ charged).names

theorem UdpOp.ids (playerId : UInt32) (memory : Player F) (r : Room F) (op : UdpOp) :
    (op.run playerId memory r).1.ids = r.ids := Room.ids_of_names (names playerId memory r op)

namespace GameThreads

/-- **The four kinds of steps.** -/
theorem step_cases {s s' : GameThreads F} {l : Label F} (h : machine.step s l = some s') :
    (∃ c, l = .call c ∧ s.ops = [] ∧ s' = { s with playerId := c.playerId, ops := c.ops }) ∨
    (∃ memory op rest, l = .udp memory ∧ s.ops = op :: rest ∧
      s' = { s with
        room := (op.run s.playerId memory s.room).1
        ops := (op.run s.playerId memory s.room).2 ++ rest }) ∨
    (∃ env, l = .loop env ∧
      s' = { s with room := (s.loop.run env s.room).1, loop := (s.loop.run env s.room).2 }) ∨
    (∃ f, l.section = some f ∧ s' = { s with room := f s.room }) := by
  simp only [machine, step] at h
  split at h
  case h_1 c =>
    split at h
    · rename_i hops
      exact .inl ⟨c, rfl, hops, (Option.some.inj h).symm⟩
    · cases h
  case h_2 memory =>
    split at h
    · cases h
    · rename_i op rest hops
      exact .inr (.inl ⟨memory, op, rest, rfl, hops, (Option.some.inj h).symm⟩)
  case h_3 env => exact .inr (.inr (.inl ⟨env, rfl, (Option.some.inj h).symm⟩))
  case h_4 =>
    obtain ⟨f, hf, hs⟩ := Option.map_eq_some_iff.1 h
    exact .inr (.inr (.inr ⟨f, hf, hs.symm⟩))

/-- The player a step takes out of the room. -/
def Label.removes : Label F → Option UInt32
  | removePlayerFromLobby playerId | disconnectPlayer playerId | kickPlayer playerId => some playerId
  | _ => none

/-- The player a step asks to let into the room. -/
def Label.joins : Label F → Option UInt32
  | join playerId _ => some playerId
  | _ => none

/-- **A section keeps the players in place, appends one, or takes one out.** -/
theorem section_ids {l : Label F} {f : Room F → Room F} (h : l.section = some f) (r : Room F) :
    (l.removes = none ∧ ((f r).ids = r.ids ∨
      r.game.status = .lobby ∧ ∃ p, l.joins = some p ∧ (f r).ids = r.ids ++ [p])) ∨
    ∃ p, l.removes = some p ∧ (f r).ids = r.ids.filter (· != p) := by
  cases l with
  | call c => simp [Label.section] at h
  | udp memory => simp [Label.section] at h
  | loop env => simp [Label.section] at h
  | updatePlayerUdpAddr p addr =>
    obtain rfl := Option.some.inj h
    exact .inl ⟨rfl, .inl (Room.ids_of_names (r.game.updatePlayerUdpAddr_names p addr))⟩
  | join p username =>
    obtain rfl := Option.some.inj h
    refine .inl ⟨rfl, ?_⟩
    simp only [RoomAct.run, Room.join]
    by_cases hl : r.game.status = .lobby
    · exact .inr ⟨hl, p, rfl, by simp [hl, Room.ids, Game.addPlayer, Player.new]⟩
    · exact .inl (by simp [hl])
  | start p =>
    obtain rfl := Option.some.inj h
    refine .inl ⟨rfl, .inl ?_⟩
    simp only [RoomAct.run, Room.start]
    split <;> rfl
  | removePlayerFromLobby p =>
    obtain rfl := Option.some.inj h
    exact .inr ⟨p, rfl, r.filter_ids p⟩
  | disconnectPlayer p =>
    obtain rfl := Option.some.inj h
    exact .inr ⟨p, rfl, r.filter_ids p⟩
  | kickPlayer p =>
    obtain rfl := Option.some.inj h
    exact .inr ⟨p, rfl, r.filter_ids p⟩

/-- The threads that let players in and out leave the boss, the entities and the time alone. -/
theorem section_apart {l : Label F} {f : Room F → Room F} (h : l.section = some f) (r : Room F) :
    (f r).boss = r.boss ∧ (f r).game.entities = r.game.entities ∧ (f r).game.gameTime = r.game.gameTime := by
  cases l with
  | call c => cases h
  | udp memory => cases h
  | loop env => cases h
  | updatePlayerUdpAddr playerId addr =>
    obtain rfl := Option.some.inj h
    refine ⟨rfl, ?_⟩
    simp only [Game.updatePlayerUdpAddr]
    split <;> exact ⟨rfl, rfl⟩
  | join playerId username =>
    obtain rfl := Option.some.inj h
    simp only [RoomAct.run, Room.join]
    split <;> exact ⟨rfl, rfl, rfl⟩
  | start playerId =>
    obtain rfl := Option.some.inj h
    simp only [RoomAct.run, Room.start]
    split <;> exact ⟨rfl, rfl, rfl⟩
  | removePlayerFromLobby playerId =>
    obtain rfl := Option.some.inj h
    exact ⟨rfl, rfl, rfl⟩
  | disconnectPlayer playerId =>
    obtain rfl := Option.some.inj h
    exact ⟨rfl, rfl, rfl⟩
  | kickPlayer playerId =>
    obtain rfl := Option.some.inj h
    exact ⟨rfl, rfl, rfl⟩

end GameThreads

end RType

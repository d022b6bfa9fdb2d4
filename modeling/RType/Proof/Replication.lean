import RType.Lib.Replica
import RType.Proof.EntitySteps
import RType.Proof.EntitySync
import RType.Proof.LeftGames
import RType.Proof.StateOrder

/-!
# A client follows the entities of its room

Between two synchronizations a client hears of each entity by `ENTITY_SPAWN`, `ENTITY_UPDATE`
and `ENTITY_DESTROY`.

* `Room.Carries`: a section tells a bound player all it does to the entities; `LoopPc.carries`
  and `UdpOp.carries` for the sections of `update` and of an input.
* `Viewer.follows_step`: so a client that is told everything follows its room.
* `replicated`: **from a synchronization on, a client that nothing is lost to holds exactly the
  entities of its room, whenever it has handled all it was sent.**
-/

namespace RType

open Lts Replica

variable {F : Type*} [FloatOps F]

/-! ## What a message does to the map of the entities -/

/-- The receive loop, as far as the entities go. -/
def UdpMsg.onEntities (entities : Std.TreeMap UInt32 (EntityState F)) : UdpMsg F → Std.TreeMap UInt32 (EntityState F)
  | .entitySpawn entityId entityType x y => entities.insert entityId ⟨x, y, entityType⟩
  | .entityUpdate entityId x y =>
    match entities[entityId]? with
    | some e => entities.insert entityId { e with x, y }
    | none => entities
  | .entityDestroy entityId => entities.erase entityId
  | .globalStateSync entityCount records =>
    (RTypeClient.syncedRecords entityCount records).foldl
      (fun m s => m.insert s.entityId ⟨s.x, s.y, s.entityType⟩)
      (entities.filter fun id _ => RTypeClient.firstLocalId ≤ id)
  | _ => entities

theorem RTypeClient.handlePacket_entities (c : RTypeClient F) (now : UInt32) (m : UdpMsg F) :
    (c.handlePacket now m).entities = m.onEntities c.entities := by
  cases m with
  | playerState playerId sequence lastProcessedTick x y =>
    exact (c.playerState_keepsEntities now playerId sequence lastProcessedTick x y).1
  | entityUpdate entityId x y =>
    simp only [handlePacket, UdpMsg.onEntities]
    cases c.entities[entityId]? <;> rfl
  | entitySpawn _ _ _ _ | entityDestroy _ | pong _ | playerDisconnect _ | globalStateSync _ _
  | youHaveBeenKicked | bossState _ _ => rfl

/-- A message about something else than the entities. -/
def UdpMsg.Apart (m : UdpMsg F) : Prop := ∀ entities, m.onEntities entities = entities

/-- Some messages, one after the other. -/
def hear (entities : Std.TreeMap UInt32 (EntityState F)) (ms : List (UdpMsg F)) :
    Std.TreeMap UInt32 (EntityState F) := ms.foldl (fun entities m => m.onEntities entities) entities

theorem hear_append (entities : Std.TreeMap UInt32 (EntityState F)) (ms ms' : List (UdpMsg F)) :
    hear entities (ms ++ ms') = hear (hear entities ms) ms' := List.foldl_append

theorem hear_apart {ms : List (UdpMsg F)} (h : ∀ m ∈ ms, m.Apart) (entities : Std.TreeMap UInt32 (EntityState F)) :
    hear entities ms = entities := by
  induction ms with
  | nil => rfl
  | cons m ms ih =>
    have hrest := ih fun m' hm' => h m' (List.mem_cons_of_mem m hm')
    rw [hear, List.foldl_cons, h m List.mem_cons_self]
    exact hrest

/-! ## What a bound player is told -/

omit [FloatOps F] in
theorem sentTo_append (d : UInt32) (sent sent' : List (Sent F)) :
    Room.sentTo d (sent ++ sent') = Room.sentTo d sent ++ Room.sentTo d sent' := by
  rw [Room.sentTo, List.filter_append, List.map_append]
  rfl

omit [FloatOps F] in
/-- What is announced to others is not sent to `d`. -/
theorem sentTo_announce_of_not_mem {d : UInt32} {ps : List (Player F)} (h : d ∉ ps.map (·.id))
    (ms : List (UdpMsg F)) : Room.sentTo d (announce ps ms) = [] := by
  rw [Room.sentTo, List.map_eq_nil_iff, List.filter_eq_nil_iff]
  intro m hm hd
  obtain ⟨p, hp, -, msg, -, rfl⟩ := mem_announce.1 hm
  have hid : p.id = d := by simpa using hd
  exact h (hid ▸ List.mem_map_of_mem hp)

omit [FloatOps F] in
/-- A bound player is sent each announced message once. -/
theorem BoundIn.sentTo_announce {d : UInt32} {ps : List (Player F)} (h : BoundIn d ps) (ms : List (UdpMsg F)) :
    Room.sentTo d (announce ps ms) = ms := by
  obtain ⟨hn, p, hp, rfl, hb⟩ := h
  obtain ⟨qs, rs, rfl⟩ := List.append_of_mem hp
  rw [List.map_append, List.map_cons, List.nodup_middle, List.nodup_cons, List.mem_append, not_or] at hn
  have hone : announce (p :: rs) ms = ms.map (⟨some p.id, p.udpAddr, ·⟩) ++ announce rs ms := by
    simp [announce, hb]
  rw [announce_append, hone, sentTo_append, sentTo_append, sentTo_announce_of_not_mem hn.1.1,
    sentTo_announce_of_not_mem hn.1.2, List.nil_append, List.append_nil, Room.sentTo, List.filter_map, List.map_map]
  have hall : ms.filter ((fun m : Sent F => decide (m.dest = some p.id)) ∘ (⟨some p.id, p.udpAddr, ·⟩)) = ms :=
    List.filter_eq_self.2 fun m _ => by simp
  rw [hall]
  exact List.map_id ms

omit [FloatOps F] in
/-- The next id is new. -/
theorem Born.next_not_mem {k : ℕ} {r : Room F} (hB : Born k r) (hk : k + 1 < 2 ^ 32) :
    r.game.nextEntityId ∉ r.entityIds := by
  intro hmem
  have hle := (hB.range _ hmem).2
  rw [hB.next, toNat_ofNat_succ hk] at hle
  omega

/-! ## Sections -/

namespace Room

/-- The entities as a client should see them. -/
def view (r : Room F) : List (UInt32 × EntityState F) := r.game.entities.map fun e => (e.id, e.state)

omit [FloatOps F] in
theorem view_ids (r : Room F) : r.view.map Prod.fst = r.entityIds := by
  rw [view, List.map_map]
  rfl

/-- A section that leaves the entities where they are and tells nothing about them. -/
structure Still (r r' : Room F) : Prop where
  view : r'.view = r.view
  out : ∃ new, r'.out = r.out ++ new ∧ ∀ m ∈ new, m.msg.Apart

theorem Still.of_eq {r r' : Room F} (hview : r'.view = r.view) (hout : r'.out = r.out) : r.Still r' :=
  ⟨hview, [], by rw [hout, List.append_nil], fun m hm => absurd hm List.not_mem_nil⟩

theorem Still.refl (r : Room F) : r.Still r := .of_eq rfl rfl

theorem Still.trans {r s t : Room F} (h : r.Still s) (h' : s.Still t) : r.Still t := by
  obtain ⟨new, hnew, happart⟩ := h.out
  obtain ⟨new', hnew', happart'⟩ := h'.out
  refine ⟨h'.view.trans h.view, new ++ new', ?_, fun m hm => ?_⟩
  · rw [hnew', hnew, List.append_assoc]
  · exact (List.mem_append.1 hm).elim (happart m) (happart' m)

theorem still_announce (r : Room F) (ps : List (Player F)) {ms : List (UdpMsg F)} (h : ∀ m ∈ ms, m.Apart) :
    r.Still { r with out := r.out ++ announce ps ms } := by
  refine ⟨rfl, _, rfl, fun m hm => ?_⟩
  obtain ⟨d, -, -, msg, hmsg, rfl⟩ := mem_announce.1 hm
  exact h msg hmsg

theorem flag_still (r : Room F) (i : ℕ) : r.Still (r.flag i) := .of_eq (flag_map _ (fun _ => rfl) r i) rfl

theorem hitBoss_still (r : Room F) (j : ℕ) (damage : ℤ) : r.Still (r.hitBoss j damage) := by
  have hboss : ∀ (r : Room F) (b : Boss F), r.Still { r with boss := b } := fun r b => .of_eq rfl rfl
  unfold hitBoss
  extract_lets hp maxHp _ r' r''
  have h : r.Still r' := (hboss r { r.boss with hp }).trans
    (still_announce _ _ fun m hm => by rw [List.mem_singleton.1 hm]; exact fun _ => rfl)
  split
  · have h' : r.Still r'' := h.trans (r'.flag_still j)
    split
    · exact h'.trans (hboss _ _)
    · split
      · exact h'.trans (hboss _ _)
      · exact h'
  · exact h

theorem handleCollision_still (r : Room F) : r.Still r.handleCollision :=
  handleCollision_rel Still.refl (fun _ _ _ => Still.trans) flag_still (fun r j damage _ => r.hitBoss_still j damage) r

theorem broadcastGameState_still (r : Room F) : r.Still r.broadcastGameState := by
  refine ⟨rfl, _, rfl, fun m hm => ?_⟩
  obtain ⟨q, -, hm⟩ := List.mem_flatMap.1 hm
  obtain ⟨d, -, -, msg, hmsg, rfl⟩ := mem_announce.1 hm
  rw [List.mem_singleton.1 hmsg]
  exact fun _ => rfl

theorem disconnectPlayer_still (r : Room F) (playerId : UInt32) : r.Still (r.disconnectPlayer playerId) := by
  have h : r.Still { r with game := r.game.removePlayerFromLobby playerId } := .of_eq rfl rfl
  exact h.trans (still_announce _ _ fun m hm => by rw [List.mem_singleton.1 hm]; exact fun _ => rfl)

theorem kickPlayer_still (r : Room F) (playerId : UInt32) : r.Still (r.kickPlayer playerId) :=
  (still_announce r _ fun m hm => by rw [List.mem_singleton.1 hm]; exact fun _ => rfl).trans
    (disconnectPlayer_still _ playerId)

/-- A section tells player `d` what it does to the entities: what pictured them before, and
hears what `d` is sent, pictures them after. -/
def Carries (d : UInt32) (r r' : Room F) : Prop :=
  ∃ new, r'.out = r.out ++ new ∧
    ∀ entities, Pictures entities r.view → Pictures (hear entities (sentTo d new)) r'.view

variable {d : UInt32} {r r' : Room F}

theorem Carries.trans {s t : Room F} (h : Carries d r s) (h' : Carries d s t) : Carries d r t := by
  obtain ⟨new, hnew, hcarry⟩ := h
  obtain ⟨new', hnew', hcarry'⟩ := h'
  refine ⟨new ++ new', by rw [hnew', hnew, List.append_assoc], fun entities hp => ?_⟩
  rw [sentTo_append, hear_append]
  exact hcarry' _ (hcarry entities hp)

theorem Still.carries (h : r.Still r') : Carries d r r' := by
  obtain ⟨new, hnew, happart⟩ := h.out
  refine ⟨new, hnew, fun entities hp => ?_⟩
  rw [hear_apart, h.view]
  · exact hp
  · intro m hm
    obtain ⟨sent, hsent, rfl⟩ := List.mem_map.1 hm
    exact happart sent (List.mem_of_mem_filter hsent)

/-- A creation. -/
theorem spawn_carries (hd : BoundIn d r.game.players) (hfresh : r.game.nextEntityId ∉ r.entityIds) (type : UInt16)
    (x y vx vy : F) (h w : ℤ) {extra : List (UdpMsg F)} (hextra : ∀ m ∈ extra, m.Apart) :
    Carries d r (r.spawn type x y vx vy h w extra) := by
  refine ⟨announce r.game.players (.entitySpawn r.game.nextEntityId type x y :: extra), rfl, fun entities hp => ?_⟩
  have hview : (r.spawn type x y vx vy h w extra).view = r.view ++ [(r.game.nextEntityId, ⟨x, y, type⟩)] := by
    simp [spawn, broadcast, view, Entity.state]
  rw [hd.sentTo_announce, hview, hear, List.foldl_cons]
  have hrest := hear_apart hextra (entities.insert r.game.nextEntityId ⟨x, y, type⟩)
  rw [hear] at hrest
  rw [UdpMsg.onEntities, hrest]
  refine hp.snoc ?_
  rw [view_ids]
  exact hfresh

/-- The moves of `updateEntities`. -/
theorem updateEntities_carries (hd : BoundIn d r.game.players) (hnodup : r.entityIds.Nodup) :
    Carries d r r.updateEntities := by
  refine ⟨(r.game.entities.map Entity.advance).flatMap fun e => announce r.game.players [e.report], rfl,
    fun entities hp => ?_⟩
  have hsent : sentTo d ((r.game.entities.map Entity.advance).flatMap fun e => announce r.game.players [e.report]) =
      r.game.entities.map fun e => e.advance.report := by
    rw [List.flatMap_map]
    induction r.game.entities with
    | nil => rfl
    | cons e es ih => rw [List.flatMap_cons, sentTo_append, hd.sentTo_announce, ih, List.map_cons, List.singleton_append]
  have hview : r.updateEntities.view = r.game.entities.filterMap fun e =>
      (if e.advance.leaves then none else some e.advance.state).map (e.id, ·) := by
    simp only [updateEntities, view]
    induction r.game.entities with
    | nil => rfl
    | cons e es ih =>
      rw [List.map_cons, List.filter_cons, List.filterMap_cons]
      cases e.advance.leaves
      · rw [Bool.not_false, if_pos rfl, List.map_cons, ih]
        rfl
      · rw [Bool.not_true, if_neg (by decide), ih]
        rfl
  rw [hsent, hview, hear, List.foldl_map]
  -- an entity that is there takes the new position, or is gone
  have hself : ∀ (m : Std.TreeMap UInt32 (EntityState F)) (e : Entity F), m[e.id]? = some e.state →
      (e.advance.report.onEntities m)[e.id]? = if e.advance.leaves then none else some e.advance.state := by
    intro m e hm
    unfold Entity.report
    split
    · exact (Maps.getElem?_erase m e.id e.id).trans (if_pos rfl)
    · simp only [UdpMsg.onEntities]
      rw [show m[e.advance.id]? = _ from hm]
      exact (Maps.getElem?_insert m e.id e.id _).trans (if_pos rfl)
  have hother : ∀ (m : Std.TreeMap UInt32 (EntityState F)) (e : Entity F) k, k ≠ e.id →
      (e.advance.report.onEntities m)[k]? = m[k]? := by
    intro m e k hk
    unfold Entity.report
    split
    · exact (Maps.getElem?_erase m e.id k).trans (if_neg hk)
    · simp only [UdpMsg.onEntities]
      split
      · exact (Maps.getElem?_insert m e.id k _).trans (if_neg hk)
      · rfl
  exact Pictures.sweep hself hother hnodup hp

/-- A row of creations. -/
theorem foldl_spawn_carries {type : UInt16} {x y vx : F} {h w : ℤ} (vys : List F) {k : ℕ} (hB : Born k r)
    (hk : k + vys.length < 2 ^ 32) (hd : BoundIn d r.game.players) :
    Carries d r (vys.foldl (fun r vy => r.spawn type x y vx vy h w []) r) := by
  induction vys generalizing r k with
  | nil => exact (Still.refl r).carries
  | cons vy vys ih =>
    rw [List.length_cons] at hk
    have hspawn : EntityWork 1 r (r.spawn type x y vx vy h w []) := .spawn r type x y vx vy h w [] (by simp)
    have hfirst : Carries d r (r.spawn type x y vx vy h w []) :=
      spawn_carries hd (hB.next_not_mem (by omega)) type x y vx vy h w fun m hm => absurd hm List.not_mem_nil
    have hrest := ih (hB.work hspawn (by omega)) (by omega) (by rw [hspawn.players]; exact hd)
    exact hfirst.trans hrest

/-- A synchronization that fits pictures the entities, if all that it leaves is theirs. -/
theorem pictures_sync (hnodup : r.entityIds.Nodup) (hfits : r.game.entities.length ≤ 72)
    {entities : Std.TreeMap UInt32 (EntityState F)}
    (hlocal : ∀ id st, entities[id]? = some st → RTypeClient.firstLocalId ≤ id → id ∈ r.entityIds) :
    Pictures ((syncOf r.game.entities).onEntities entities) r.view := by
  set c : RTypeClient F := { RTypeClient.new 0 0 with entities } with hc
  have hstep : c.InStep r.game.entities := by
    refine ⟨fun e he e' he' hid => ?_, fun id st hst hle => ?_⟩
    · rw [List.inj_on_of_nodup_map hnodup he he' hid]
    · exact List.mem_map.1 (hlocal id st hst hle)
  have hshows := (syncEntities_shows_iff c 0 hfits).2 hstep
  intro id st
  have hiff := hshows id st
  rw [c.handlePacket_entities] at hiff
  rw [hiff, view, List.mem_map]
  exact exists_congr fun e => and_congr_right fun _ => Prod.mk.injEq .. ▸ Iff.rfl

/-- A synchronization that fits. -/
theorem sendGlobalStateSync_carries (hd : BoundIn d r.game.players) (hnodup : r.entityIds.Nodup)
    (hfits : r.game.entities.length ≤ 72) : Carries d r r.sendGlobalStateSync := by
  refine ⟨announce r.game.players [syncOf r.game.entities], rfl, fun entities hp => ?_⟩
  rw [hd.sentTo_announce]
  refine pictures_sync hnodup hfits fun id st hst _ => ?_
  rw [← view_ids]
  exact List.mem_map_of_mem (f := Prod.fst) ((hp id st).1 hst)

theorem bossStage_still (r : Room F) : r.Still r.bossStage.1 := by
  unfold bossStage
  split
  · exact .of_eq rfl rfl
  · split <;> exact .of_eq rfl rfl

theorem updateGameLevel_still (r : Room F) (elapsedTime : F) : r.Still (r.updateGameLevel elapsedTime) := by
  refine .of_eq ?_ rfl
  simp only [updateGameLevel, view, List.map_map]
  refine List.map_congr_left fun e _ => ?_
  exact e.steer_keeps (fun e => (e.id, e.state)) (fun _ _ _ => rfl) _ _

theorem bossShoot_carries {k : ℕ} (hB : Born k r) (hk : k + 3 < 2 ^ 32) (hd : BoundIn d r.game.players) (x y : F) :
    Carries d r (r.bossShoot x y) := by
  unfold bossShoot
  extract_lets shootInterval _ r' vys
  have hvys : vys.length ≤ 3 := by simp only [vys]; split <;> simp
  split
  · have hstill : r.Still r' := .of_eq rfl rfl
    have hB' : Born k r' := hB.quiet (.of_eq rfl rfl rfl)
    exact hstill.carries.trans (foldl_spawn_carries vys hB' (by omega) hd)
  · exact (Still.refl r).carries

theorem enemyStage_carries {k : ℕ} (hB : Born k r) (hk : k + 3 < 2 ^ 32) (hd : BoundIn d r.game.players)
    (env : UpdateEnv) : Carries d r (r.enemyStage env) := by
  have hspawn : Carries d r (r.createEnemy env.rand) := by
    unfold createEnemy
    extract_lets spawnY
    split <;> exact spawn_carries hd (hB.next_not_mem (by omega)) _ _ _ _ _ _ _ fun m hm => absurd hm List.not_mem_nil
  unfold enemyStage
  split
  · have hstored : ∀ r : Room F, r.Still { r with game.lastEnemySpawnTime := env.enemyStored } :=
      fun r => .of_eq rfl rfl
    exact hspawn.trans (hstored _).carries
  · exact (Still.refl r).carries

theorem syncStage_carries (hd : BoundIn d r.game.players) (hnodup : r.entityIds.Nodup)
    (hfits : r.game.entities.length ≤ 72) (env : UpdateEnv) : Carries d r (r.syncStage env) := by
  unfold syncStage
  split
  · have hstored : ∀ r : Room F, r.Still { r with game.lastGlobalSyncTime := env.syncStored } :=
      fun r => .of_eq rfl rfl
    exact (sendGlobalStateSync_carries hd hnodup hfits).trans (hstored _).carries
  · exact (Still.refl r).carries

end Room

variable {d : UInt32}

/-- **A section of `update` tells a bound player all it does to the entities**, but for a
synchronization that does not fit. -/
theorem LoopPc.carries {k : ℕ} {r : Room F} (hB : Born k r) (hk : k + 3 < 2 ^ 32) (hd : BoundIn d r.game.players)
    {pc : LoopPc F} (hfits : pc = .syncStage → r.game.entities.length ≤ 72) (env : UpdateEnv) :
    Room.Carries d r (pc.run env r).1 := by
  cases pc with
  | idle => exact (Room.Still.refl r).carries
  | updateEntities => exact Room.updateEntities_carries hd hB.nodup
  | handleCollision => exact r.handleCollision_still.carries
  | broadcastGameState => exact r.broadcastGameState_still.carries
  | updateGameLevel => exact (r.updateGameLevel_still 0.016).carries
  | bossStage => exact run_bossStage env r ▸ r.bossStage_still.carries
  | spawnBoss bossMaxHP =>
    refine Room.spawn_carries hd (hB.next_not_mem (by omega)) 10 _ _ _ _ _ _ fun m hm => ?_
    rw [List.mem_singleton.1 hm]
    exact fun _ => rfl
  | bossAim =>
    simp only [run]
    split <;> exact (Room.Still.refl r).carries
  | bossShoot x y => exact Room.bossShoot_carries hB hk hd x y
  | enemyStage => exact Room.enemyStage_carries hB hk hd env
  | syncStage => exact Room.syncStage_carries hd hB.nodup (hfits rfl) env

/-- So does the UDP thread. -/
theorem UdpOp.carries {k : ℕ} {r : Room F} (hB : Born k r) (hk : k + 3 < 2 ^ 32) (hd : BoundIn d r.game.players)
    (playerId : UInt32) (memory : Player F) (op : UdpOp) : Room.Carries d r (op.run playerId memory r).1 := by
  rcases op.run_cases playerId memory r with he | ⟨slot, f, -, he⟩ | ⟨slot, charged, rfl⟩
  · rw [he]
    exact (Room.Still.refl r).carries
  · have hwrite : r.Still (r.writeSlot slot f) := .of_eq rfl rfl
    rw [he]
    exact hwrite.carries
  · have hfresh := hB.next_not_mem (by omega)
    simp only [run]
    split <;> exact Room.spawn_carries hd hfresh _ _ _ _ _ _ _ fun m hm => absurd hm List.not_mem_nil

omit [FloatOps F] in
theorem Quiet.out_grows {r r' : Room F} (h : Quiet r r') : r.out <+: r'.out := by
  obtain ⟨new, hnew, -⟩ := h.out
  exact ⟨new, hnew.symm⟩

theorem EntityWork.out_grows {n : ℕ} {r r' : Room F} (h : EntityWork n r r') : r.out <+: r'.out := by
  induction h with
  | quiet hquiet _ => exact hquiet.out_grows
  | spawn r type x y vx vy h w extra _ => exact List.prefix_append _ _
  | update r => exact List.prefix_append _ _
  | sync r => exact List.prefix_append _ _
  | trans _ _ ih ih' => exact ih.trans ih'

namespace GameThreads

/-- What is queued stays queued. -/
theorem out_grows_step {s s' : GameThreads F} {l : Label F} (h : machine.step s l = some s') :
    s.room.out <+: s'.room.out := by
  rcases step_work h with hquiet | ⟨n, -, hwork⟩
  · exact hquiet.out_grows
  · exact hwork.out_grows

/-- The threads that let players in and out tell nothing about the entities. -/
theorem section_still {l : Label F} {f : Room F → Room F} (h : l.section = some f) (r : Room F) : r.Still (f r) := by
  cases l with
  | call c => cases h
  | udp memory => cases h
  | loop env => cases h
  | updatePlayerUdpAddr playerId addr =>
    obtain rfl := Option.some.inj h
    refine .of_eq ?_ rfl
    simp only [Game.updatePlayerUdpAddr]
    split <;> rfl
  | join playerId username =>
    obtain rfl := Option.some.inj h
    simp only [RoomAct.run, Room.join]
    split <;> exact .of_eq rfl rfl
  | start playerId =>
    obtain rfl := Option.some.inj h
    simp only [RoomAct.run, Room.start]
    split <;> exact .of_eq rfl rfl
  | removePlayerFromLobby playerId =>
    obtain rfl := Option.some.inj h
    exact .of_eq rfl rfl
  | disconnectPlayer playerId =>
    obtain rfl := Option.some.inj h
    exact r.disconnectPlayer_still playerId
  | kickPlayer playerId =>
    obtain rfl := Option.some.inj h
    exact r.kickPlayer_still playerId

/-- Synchronizations fit in a datagram. -/
def SyncFits (s : GameThreads F) (l : Label F) : Prop :=
  (∃ env, l = .loop env) → s.loop = .syncStage → s.room.game.entities.length ≤ 72

/-- **A step tells a bound player all it does to the entities.** -/
theorem carries_step {k : ℕ} {s s' : GameThreads F} {l : Label F} (hB : Born k s.room) (hk : k + 3 < 2 ^ 32)
    (hd : BoundIn d s.room.game.players) (hfits : SyncFits s l) (h : machine.step s l = some s') :
    Room.Carries d s.room s'.room := by
  rcases step_cases h with ⟨c, rfl, -, rfl⟩ | ⟨memory, op, rest, rfl, -, rfl⟩ | ⟨env, rfl, rfl⟩ | ⟨f, hf, rfl⟩
  · exact (Room.Still.refl _).carries
  · exact op.carries hB hk hd s.playerId memory
  · exact LoopPc.carries hB hk hd (hfits ⟨env, rfl⟩) env
  · exact (section_still hf s.room).carries

end GameThreads

/-! ## The client -/

namespace Viewer

/-- All that happens to the room while the player is in it; what may be lost lies before place
`n` of the inbox. -/
def Delivers (n : ℕ) (s : Viewer F) : Label F → Prop
  | .server l => s.client.myPlayerId ∈ s.threads.room.ids ∧ GameThreads.FreshJoins s.threads l ∧
      GameThreads.SyncFits s.threads l
  | .loss => s.passed < n
  | _ => True

/-- The players that join are new. -/
def FreshJoins (s : Viewer F) : Label F → Prop
  | .server l => GameThreads.FreshJoins s.threads l
  | _ => True

/-- **A synchronization at place `n` of the inbox brings the client up to date**, whatever it
holds when the synchronization comes, if all of it has an id up to `k`. -/
structure Follows (n k : ℕ) (s : Viewer F) : Prop where
  queued : n < s.inbox.length
  passed : s.passed ≤ s.inbox.length
  told : ∀ m ∈ s.inbox.take n, ∀ e, m.lifeEvents e ≠ [] → e.toNat ≤ k
  knows : s.passed ≤ n → s.client.Knows k
  ahead : ∀ entities : Std.TreeMap UInt32 (EntityState F), (∀ (id : UInt32) st, entities[id]? = some st → id.toNat ≤ k) →
    Pictures (hear entities (s.inbox.drop n)) s.threads.room.view
  behind : n < s.passed → Pictures (hear s.client.entities (s.inbox.drop s.passed)) s.threads.room.view

variable {n k : ℕ} {s s' : Viewer F}

/-- The room goes on. -/
theorem Follows.server (h : s.Follows n k) {threads : GameThreads F}
    (hcarries : Room.Carries s.client.myPlayerId s.threads.room threads.room) :
    ({ s with threads } : Viewer F).Follows n k := by
  obtain ⟨new, hout, hcarry⟩ := hcarries
  have hinbox : ({ s with threads } : Viewer F).inbox = s.inbox ++ Room.sentTo s.client.myPlayerId new := by
    show Room.sentTo s.client.myPlayerId threads.room.out = _
    rw [hout, sentTo_append]
    rfl
  have hqueued := h.queued
  have hpassed := h.passed
  refine ⟨?_, ?_, ?_, h.knows, fun entities hlocal => ?_, fun hn => ?_⟩
  · rw [hinbox, List.length_append]
    omega
  · rw [hinbox, List.length_append]
    exact hpassed.trans (Nat.le_add_right _ _)
  · rw [hinbox, List.take_append_of_le_length (by omega)]
    exact h.told
  · rw [hinbox, List.drop_append_of_le_length (by omega), hear_append]
    exact hcarry _ (h.ahead entities hlocal)
  · rw [hinbox, List.drop_append_of_le_length (show s.passed ≤ s.inbox.length from hpassed), hear_append]
    exact hcarry _ (h.behind hn)

/-- The client does something of its own. -/
theorem Follows.client (h : s.Follows n k) {client : RTypeClient F} (hkeeps : s.client.KeepsEntities client) :
    ({ s with client } : Viewer F).Follows n k := by
  obtain ⟨hentities, hme⟩ := hkeeps
  have hinbox : ({ s with client } : Viewer F).inbox = s.inbox := by rw [inbox, inbox, hme]
  refine ⟨?_, ?_, ?_, fun hle => (h.knows hle).of_eq hentities, fun entities hlocal => ?_, fun hn => ?_⟩
  · rw [hinbox]
    exact h.queued
  · rw [hinbox]
    exact h.passed
  · rw [hinbox]
    exact h.told
  · rw [hinbox]
    exact h.ahead entities hlocal
  · rw [hinbox, hentities]
    exact h.behind hn

/-- A message comes. -/
theorem Follows.packet (h : s.Follows n k) {m : UdpMsg F} (hm : s.inbox[s.passed]? = some m) (now : UInt32) :
    ({ s with client := s.client.handlePacket now m, passed := s.passed + 1 } : Viewer F).Follows n k := by
  obtain ⟨hlt, hget⟩ := List.getElem?_eq_some_iff.1 hm
  have hinbox : ({ s with client := s.client.handlePacket now m, passed := s.passed + 1 } : Viewer F).inbox = s.inbox := by
    rw [inbox, inbox, (s.client.handlePacket_inputs now m).1]
  -- the message is the first of those to come
  have hhear : hear (s.client.handlePacket now m).entities (s.inbox.drop (s.passed + 1)) =
      hear s.client.entities (s.inbox.drop s.passed) := by
    rw [List.drop_eq_getElem_cons hlt, hget, s.client.handlePacket_entities]
    rfl
  refine ⟨?_, ?_, ?_, fun hle => ?_, fun entities hlocal => ?_, fun hn => ?_⟩
  · rw [hinbox]
    exact h.queued
  · rw [hinbox]
    exact hlt
  · rw [hinbox]
    exact h.told
  · have hle' : s.passed + 1 ≤ n := hle
    refine (h.knows (by omega)).handlePacket now (h.told m ?_)
    rw [List.mem_take_iff_getElem]
    exact ⟨s.passed, by omega, hget⟩
  · rw [hinbox]
    exact h.ahead entities hlocal
  · have hn' : n < s.passed + 1 := hn
    rw [hinbox]
    show Pictures (hear (s.client.handlePacket now m).entities (s.inbox.drop (s.passed + 1))) _
    rw [hhear]
    rcases Nat.lt_or_ge n s.passed with hpast | hnow
    · exact h.behind hpast
    · -- it is the synchronization
      obtain rfl : s.passed = n := by omega
      exact h.ahead _ (h.knows le_rfl)

/-- A message from before the synchronization is lost. -/
theorem Follows.loss (h : s.Follows n k) (hlost : s.passed < n) :
    ({ s with passed := s.passed + 1 } : Viewer F).Follows n k := by
  have hqueued := h.queued
  refine ⟨hqueued, ?_, h.told, fun _ => h.knows (by omega), h.ahead, fun hn => ?_⟩
  · show s.passed + 1 ≤ s.inbox.length
    omega
  · have hn' : n < s.passed + 1 := hn
    omega

/-- **Every step keeps the client on its way.** -/
theorem follows_step {c : ℕ} {l : Label F} (h : s.Follows n k) (hB : Born c s.threads.room) (hc : c + 3 < 2 ^ 32)
    (hbound : s.client.myPlayerId ∈ s.threads.room.ids → BoundIn s.client.myPlayerId s.threads.room.game.players)
    (hC : Delivers n s l) (hs : machine.step s l = some s') : s'.Follows n k := by
  cases l with
  | server l =>
    obtain ⟨threads, ht, rfl⟩ := Option.map_eq_some_iff.1 hs
    obtain ⟨hin, -, hfits⟩ := hC
    exact h.server (GameThreads.carries_step hB hc (hbound hin) hfits ht)
  | keys key =>
    obtain rfl := Option.some.inj hs
    exact h.client ⟨s.client.handleInput_entities key, TickingClient.handleInput_me s.client key⟩
  | menu status =>
    obtain rfl := Option.some.inj hs
    exact h.client ⟨rfl, rfl⟩
  | packet now =>
    obtain ⟨m, hm, rfl⟩ := Option.map_eq_some_iff.1 hs
    exact h.packet hm now
  | loss =>
    obtain ⟨m, -, rfl⟩ := Option.map_eq_some_iff.1 hs
    exact h.loss hC

/-- The player of the client is bound while it is in the room. -/
def Bound (s : Viewer F) : Prop :=
  s.client.myPlayerId ∈ s.threads.room.ids → BoundIn s.client.myPlayerId s.threads.room.game.players

theorem step_me {l : Label F} (hs : machine.step s l = some s') : s'.client.myPlayerId = s.client.myPlayerId := by
  cases l with
  | server l =>
    obtain ⟨threads, -, rfl⟩ := Option.map_eq_some_iff.1 hs
    rfl
  | keys key =>
    obtain rfl := Option.some.inj hs
    exact TickingClient.handleInput_me s.client key
  | menu status =>
    obtain rfl := Option.some.inj hs
    rfl
  | packet now =>
    obtain ⟨m, -, rfl⟩ := Option.map_eq_some_iff.1 hs
    exact (s.client.handlePacket_inputs now m).1
  | loss =>
    obtain ⟨m, -, rfl⟩ := Option.map_eq_some_iff.1 hs
    rfl

theorem bound_step {l : Label F} (h : s.Bound) (hC : Delivers n s l) (hs : machine.step s l = some s') : s'.Bound := by
  have hme := step_me hs
  intro hin
  rw [hme] at hin ⊢
  cases l with
  | server l =>
    obtain ⟨threads, ht, rfl⟩ := Option.map_eq_some_iff.1 hs
    exact GameThreads.boundIn_step (h hC.1) hC.2.1 ht hin
  | keys key =>
    obtain rfl := Option.some.inj hs
    exact h hin
  | menu status =>
    obtain rfl := Option.some.inj hs
    exact h hin
  | packet now =>
    obtain ⟨m, -, rfl⟩ := Option.map_eq_some_iff.1 hs
    exact h hin
  | loss =>
    obtain ⟨m, -, rfl⟩ := Option.map_eq_some_iff.1 hs
    exact h hin

/-- The ids of the players stay distinct. -/
theorem nodup_step {l : Label F} (h : s.threads.room.ids.Nodup) (hC : FreshJoins s l)
    (hs : machine.step s l = some s') : s'.threads.room.ids.Nodup := by
  cases l with
  | server l =>
    obtain ⟨threads, ht, rfl⟩ := Option.map_eq_some_iff.1 hs
    exact GameThreads.nodup_step h hC ht
  | keys key =>
    obtain rfl := Option.some.inj hs
    exact h
  | menu status =>
    obtain rfl := Option.some.inj hs
    exact h
  | packet now =>
    obtain ⟨m, -, rfl⟩ := Option.map_eq_some_iff.1 hs
    exact h
  | loss =>
    obtain ⟨m, -, rfl⟩ := Option.map_eq_some_iff.1 hs
    exact h

omit [FloatOps F] in
/-- A player that is sent something is bound. -/
theorem boundIn_of_announced {d : UInt32} {ps : List (Player F)} (hn : (ps.map (·.id)).Nodup) {ms : List (UdpMsg F)}
    (h : Room.sentTo d (announce ps ms) ≠ []) : BoundIn d ps := by
  refine ⟨hn, ?_⟩
  by_contra hnone
  refine h ?_
  rw [Room.sentTo, List.map_eq_nil_iff, List.filter_eq_nil_iff]
  intro m hm hd
  obtain ⟨p, hp, hset, msg, -, rfl⟩ := mem_announce.1 hm
  exact hnone ⟨p, hp, by simpa using hd, hset⟩

/-- **A synchronization is queued.** -/
theorem follows_sync {env : UpdateEnv} (h : Told k s) (hn : s.threads.room.ids.Nodup) (hk : k < 9999)
    (hpassed : s.passed ≤ s.inbox.length) (hfits : s.threads.room.game.entities.length ≤ 72) {threads : GameThreads F}
    (hsync : threads.room = s.threads.room.syncStage env)
    (hqueued : ({ s with threads } : Viewer F).inbox ≠ s.inbox) :
    ({ s with threads } : Viewer F).Bound ∧ ({ s with threads } : Viewer F).Follows s.inbox.length k := by
  -- otherwise nothing is queued
  have hdue : 100000000 ≤ env.syncNow - s.threads.room.game.lastGlobalSyncTime := by
    by_contra hearly
    refine hqueued ?_
    have hidle : threads.room = s.threads.room := by rw [hsync, Room.syncStage, if_neg hearly]
    simp only [inbox, hidle]
  have hroom : threads.room =
      { s.threads.room.sendGlobalStateSync with game.lastGlobalSyncTime := env.syncStored } := by
    rw [hsync, Room.syncStage, if_pos hdue]
  have hout : threads.room.out =
      s.threads.room.out ++ announce s.threads.room.game.players [syncOf s.threads.room.game.entities] := by
    rw [hroom]
    rfl
  have hinbox : ({ s with threads } : Viewer F).inbox = s.inbox ++
      Room.sentTo s.client.myPlayerId (announce s.threads.room.game.players [syncOf s.threads.room.game.entities]) := by
    show Room.sentTo s.client.myPlayerId threads.room.out = _
    rw [hout, sentTo_append]
    rfl
  have hsent : Room.sentTo s.client.myPlayerId
      (announce s.threads.room.game.players [syncOf s.threads.room.game.entities]) ≠ [] := by
    intro hnil
    refine hqueued ?_
    rw [hinbox, hnil, List.append_nil]
  have hbound : BoundIn s.client.myPlayerId s.threads.room.game.players := boundIn_of_announced hn hsent
  rw [hbound.sentTo_announce] at hinbox
  refine ⟨fun _ => ?_, ⟨?_, ?_, ?_, fun _ => h.knows, fun entities hlocal => ?_, fun hn => ?_⟩⟩
  · show BoundIn s.client.myPlayerId threads.room.game.players
    rw [hroom]
    exact hbound
  · rw [hinbox, List.length_append]
    exact Nat.lt_succ_self _
  · rw [hinbox, List.length_append]
    exact hpassed.trans (Nat.le_add_right _ _)
  · rw [hinbox, List.take_left' rfl]
    intro m hm e he
    obtain ⟨i, hi⟩ := List.mem_iff_getElem?.1 hm
    obtain ⟨sent, hsent, rfl⟩ := mem_out_of_inbox hi
    exact (h.born.told sent hsent e he).2
  · have hview : threads.room.view = s.threads.room.view := by rw [hroom]; rfl
    show Pictures _ threads.room.view
    rw [hinbox, List.drop_left' rfl, hview]
    refine Room.pictures_sync h.born.nodup hfits fun id st hst hle => ?_
    have hid := hlocal id st hst
    rw [RTypeClient.firstLocalId, UInt32.le_iff_toNat_le] at hle
    have h9999 : (9999 : UInt32).toNat = 9999 := rfl
    omega
  · have hn' : s.inbox.length < s.passed := hn
    omega

theorem passed_step {l : Label F} (h : s.passed ≤ s.inbox.length) (hs : machine.step s l = some s') :
    s'.passed ≤ s'.inbox.length := by
  have hme := step_me hs
  have hinbox : s.threads.room.out <+: s'.threads.room.out → s.inbox.length ≤ s'.inbox.length := by
    intro hgrows
    rw [inbox, inbox, hme]
    exact ((hgrows.filter _).map _).length_le
  cases l with
  | server l =>
    obtain ⟨threads, ht, rfl⟩ := Option.map_eq_some_iff.1 hs
    exact h.trans (hinbox (GameThreads.out_grows_step ht))
  | keys key =>
    obtain rfl := Option.some.inj hs
    exact h.trans (hinbox List.prefix_rfl)
  | menu status =>
    obtain rfl := Option.some.inj hs
    exact h
  | packet now =>
    obtain ⟨m, hm, rfl⟩ := Option.map_eq_some_iff.1 hs
    obtain ⟨hlt, -⟩ := List.getElem?_eq_some_iff.1 hm
    exact le_trans hlt (hinbox List.prefix_rfl)
  | loss =>
    obtain ⟨m, hm, rfl⟩ := Option.map_eq_some_iff.1 hs
    obtain ⟨hlt, -⟩ := List.getElem?_eq_some_iff.1 hm
    exact hlt

/-- What is known of a game before a synchronization. -/
theorem told_run {boss : Boss F} {now : ℕ} {playerId serverTimeMs : UInt32} {labels : List (Label F)}
    (hr : machine.run (init boss now playerId serverTimeMs) labels = some s)
    (hk : machine.total created (init boss now playerId serverTimeMs) labels < 2 ^ 32) :
    Told (machine.total created (init boss now playerId serverTimeMs) labels) s := by
  have htold := Machine.inv_total (M := machine) (C := fun _ _ => True) (J := Told) (f := created) (N := 2 ^ 32)
    (fun k s a s' hT _ hs hk => told_step hT hs hk) labels 0 _ s (told_init boss now playerId serverTimeMs)
    (Machine.along_of_forall fun _ _ _ _ _ _ => trivial) hr (by omega)
  rwa [Nat.zero_add] at htold

/-- **Replication**: a synchronization of at most 72 entities is queued for the client of a game
that has made fewer than 9999. If nothing that is queued from then on is lost, and the player
stays, then whenever the client has handled all it was sent, it holds the ids, types and
positions of the entities of its room. What was lost before does not matter. -/
theorem replicated (boss : Boss F) (now : ℕ) (playerId serverTimeMs : UInt32) (pre post : List (Label F))
    (env : UpdateEnv) {s s' t : Viewer F} (hpre : machine.run (init boss now playerId serverTimeMs) pre = some s)
    (hjoins : machine.Along FreshJoins (init boss now playerId serverTimeMs) pre)
    (hfew : machine.total created (init boss now playerId serverTimeMs) pre < 9999)
    (hpc : s.threads.loop = .syncStage) (hfits : s.threads.room.game.entities.length ≤ 72)
    (hsync : machine.step s (.server (.loop env)) = some s') (hqueued : s'.inbox ≠ s.inbox)
    (hpost : machine.run s' post = some t) (hdelivers : machine.Along (Delivers s.inbox.length) s' post)
    (hcount : machine.total created (init boss now playerId serverTimeMs) (pre ++ .server (.loop env) :: post) + 3 <
      2 ^ 32)
    (hdone : t.passed = t.inbox.length) : t.client.Shows t.threads.room.game.entities := by
  set s₀ : Viewer F := init boss now playerId serverTimeMs with hs₀
  have htold : Told (machine.total created s₀ pre) s := told_run hpre (lt_trans hfew (by decide))
  have hnodup : s.threads.room.ids.Nodup :=
    Machine.inv_along (fun s l s' => nodup_step) pre _ s List.nodup_nil hjoins hpre
  have hpassed : s.passed ≤ s.inbox.length :=
    Machine.inv_run (I := fun s : Viewer F => s.passed ≤ s.inbox.length) (fun s l s' => passed_step) pre _ s
      (Nat.zero_le _) hpre
  -- the synchronization
  have hstart : s'.Bound ∧ s'.Follows s.inbox.length (machine.total created s₀ pre) := by
    obtain rfl : _ = s' := Option.some.inj hsync
    have hroom : (s.threads.loop.run env s.threads.room).1 = s.threads.room.syncStage env := by
      rw [hpc]
      rfl
    exact follows_sync htold hnodup hfew hpassed hfits hroom hqueued
  have hborn : Told (machine.total created s₀ pre + created s s') s' := by
    rw [machine.total_append created hpre, machine.total_cons created hsync] at hcount
    exact told_step htold hsync (by omega)
  -- all that follows
  have hrun := Machine.inv_total (M := machine) (f := created) (N := 2 ^ 32 - 3)
    (J := fun k s => Told k s ∧ s.Bound ∧ s.Follows _ _)
    (fun k u a u' ⟨hT, hbound, hfollows⟩ hC hu hk =>
      ⟨told_step hT hu (by omega), bound_step hbound hC hu, follows_step hfollows hT.born (by omega) hbound hC hu⟩)
    post _ s' t ⟨hborn, hstart⟩ hdelivers hpost (by
      rw [machine.total_append created hpre, machine.total_cons created hsync] at hcount
      omega)
  obtain ⟨-, -, hfollows⟩ := hrun
  have hqueued' := hfollows.queued
  have hpictures : Pictures t.client.entities t.threads.room.view := by
    have hbehind := hfollows.behind (by omega)
    rwa [hdone, List.drop_length] at hbehind
  intro id st
  rw [hpictures id st, Room.view, List.mem_map]
  exact exists_congr fun e => and_congr_right fun _ => Prod.mk.injEq .. ▸ Iff.rfl

/-- The boss entries of a game that was won. -/
def afterVictory : Boss ℚ := { Boss.none with level := 4 }

/-- What one section of an update reads at the first synchronization. -/
def syncEnv : UpdateEnv := ⟨0, 0, 0, 100000000, 100000000⟩

/-- A player fires, and the shot moves in the first update, up to the synchronization. -/
def beforeSync : List (Label ℚ) :=
  [.server (.join 1 []), .server (.start 1), .server (.updatePlayerUdpAddr 1 ⟨1, 1⟩),
    .server (.call (.createPlayerShot 1)), .server (.udp (Player.new 0 [])), .server (.udp (Player.new 0 []))] ++
    List.replicate 8 (.server (.loop syncEnv))

/-- All that was queued before the synchronization is lost. The shot moves on. -/
def afterSync : List (Label ℚ) :=
  [.loss, .loss, .loss, .packet 0, .server (.loop syncEnv), .server (.loop syncEnv), .packet 0]

theorem replicated_shot :
    ∃ t : Viewer ℚ, machine.run (init afterVictory 0 1 0) (beforeSync ++ .server (.loop syncEnv) :: afterSync) = some t ∧
      t.threads.room.game.entities.map (fun e => (e.id, e.x)) = [(1, 445)] ∧
        t.client.Shows t.threads.room.game.entities := by
  have hfresh : machine.Along FreshJoins (init afterVictory 0 1 0 : Viewer ℚ) beforeSync := by
    -- the first label is the only join
    have hserver : ∀ l ∈ beforeSync.tail, ∃ l', l = .server l' ∧ l'.joins = none := by
      intro l hl
      rcases List.mem_append.1 hl with hl | hl
      · simp only [List.mem_cons, List.not_mem_nil, or_false] at hl
        rcases hl with rfl | rfl | rfl | rfl | rfl <;> exact ⟨_, rfl, rfl⟩
      · exact ⟨_, List.eq_of_mem_replicate hl, rfl⟩
    refine .cons rfl (fun p _ => List.not_mem_nil) (Machine.along_of_mem fun l hl s => ?_)
    obtain ⟨l', rfl, hnone⟩ := hserver l hl
    intro p hp
    rw [hnone] at hp
    cases hp
  have hlost : ∀ s : Viewer ℚ, s.passed < 3 → Delivers 3 s .loss := fun s h => h
  have hloop : ∀ (s : Viewer ℚ) (env : UpdateEnv), s.client.myPlayerId ∈ s.threads.room.ids →
      s.threads.room.game.entities.length ≤ 72 → Delivers 3 s (.server (.loop env)) := by
    refine fun s env hin hfits => ⟨hin, ?_, fun _ _ => hfits⟩
    intro p hp
    cases hp
  obtain ⟨s, s', t, hpre, hpc, hsync, hpost, hseen, hfits, hqueued, hlength, hdelivers, hdone⟩ : ∃ s s' t : Viewer ℚ,
      machine.run (init afterVictory 0 1 0) beforeSync = some s ∧ s.threads.loop = .syncStage ∧
        machine.step s (.server (.loop syncEnv)) = some s' ∧ machine.run s' afterSync = some t ∧
          t.threads.room.game.entities.map (fun e => (e.id, e.x)) = [(1, 445)] ∧
            s.threads.room.game.entities.length ≤ 72 ∧ s'.inbox ≠ s.inbox ∧ s.inbox.length = 3 ∧
              machine.Along (Delivers 3) s' afterSync ∧ t.passed = t.inbox.length := by
    refine ⟨_, _, _, by with_unfolding_all rfl, by with_unfolding_all rfl, by with_unfolding_all rfl,
      by with_unfolding_all rfl, by decide +kernel, by decide +kernel, by decide +kernel, by decide +kernel, ?_,
      by decide +kernel⟩
    refine .cons (by with_unfolding_all rfl) (hlost _ ?_) (.cons (by with_unfolding_all rfl) (hlost _ ?_) (.cons
      (by with_unfolding_all rfl) (hlost _ ?_) (.cons (by with_unfolding_all rfl) trivial (.cons
        (by with_unfolding_all rfl) (hloop _ _ ?_ ?_) (.cons (by with_unfolding_all rfl) (hloop _ _ ?_ ?_) (.cons
          (by with_unfolding_all rfl) trivial .nil))))))
    all_goals decide +kernel
  refine ⟨t, machine.run_append_iff.2 ⟨s, hpre, machine.run_cons_iff.2 ⟨s', hsync, hpost⟩⟩, hseen, ?_⟩
  exact replicated afterVictory 0 1 0 beforeSync afterSync syncEnv hpre hfresh (by decide +kernel) hpc hfits hsync hqueued hpost
    (hlength.symm ▸ hdelivers) (by decide +kernel) hdone

end Viewer

end RType

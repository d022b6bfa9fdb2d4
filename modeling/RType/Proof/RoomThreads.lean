import RType.Proof.Isolation
import RType.Proof.NewRooms

/-!
# The rooms of the server are runs of their threads

`GameThreads` is the model of one room, in which the ids of those who join are taken to be new;
`TCPServer` with `ServerManager` is the whole server. What is shown of the runs of one room holds
of each room of the server.

* `Frames`: what is queued already has no effect on a section.
* `reaches_behind`: so it has none on a run.
* `Posted`: a queued message with the room whose `Game` has queued it. An observer takes down what
  each step of the server posts (`Label.posts`).
* `rooms_threaded`: **in every run of the whole server each live room is the end of a run of
  its threads in which those who join are new, and that run queues the messages that the room
  has posted.** All other messages are `PONG`s.

A callback, a datagram, a shell command and a pass over the rooms are one step each of the whole
server. What can happen in between is the subject of `GameThreads`.
-/

namespace RType

open Lts

variable {F : Type*}

/-! ## What is queued already -/

namespace Room

/-- The room, had `sent` been queued before. -/
def behind (sent : List (Sent F)) (r : Room F) : Room F := { r with out := sent ++ r.out }

@[simp] theorem behind_game (sent : List (Sent F)) (r : Room F) : (r.behind sent).game = r.game := rfl

@[simp] theorem behind_boss (sent : List (Sent F)) (r : Room F) : (r.behind sent).boss = r.boss := rfl

/-- What is queued already has no effect. -/
def Frames (f : Room F → Room F) : Prop := ∀ sent r, f (r.behind sent) = (f r).behind sent

theorem Frames.after {f : Room F → Room F} (hf : Frames f) {sent : List (Sent F)} {r r' : Room F} (h : r' = r.behind sent) :
    f r' = (f r).behind sent := by
  rw [h, hf]

theorem Frames.foldl {ι : Type*} {f : Room F → ι → Room F} (hf : ∀ i, Frames fun r => f r i) (xs : List ι) :
    Frames fun r => xs.foldl f r := by
  intro sent r
  show xs.foldl f (r.behind sent) = (xs.foldl f r).behind sent
  induction xs generalizing r with
  | nil => rfl
  | cons x xs ih =>
    have hturn : f (r.behind sent) x = (f r x).behind sent := hf x sent r
    rw [List.foldl_cons, hturn, ih, List.foldl_cons]

/-- A test that does not read the queue. -/
theorem Frames.ite {c : Room F → Prop} [∀ r, Decidable (c r)] {f g : Room F → Room F}
    (hc : ∀ sent r, c (r.behind sent) ↔ c r) (hf : Frames f) (hg : Frames g) : Frames fun r => if c r then f r else g r := by
  intro sent r
  show (if c (r.behind sent) then f (r.behind sent) else g (r.behind sent)) = (if c r then f r else g r).behind sent
  by_cases h : c r
  · rw [if_pos h, if_pos ((hc sent r).2 h), hf]
  · rw [if_neg h, if_neg (h ∘ (hc sent r).1), hg]

theorem frames_broadcast (ms : List (UdpMsg F)) : Frames fun r : Room F => r.broadcast ms := by
  intro sent r
  simp only [broadcast, behind, List.append_assoc]

theorem frames_hitBoss (j : ℕ) (damage : ℤ) : Frames fun r : Room F => r.hitBoss j damage := by
  intro sent r
  -- what follows the announcement of the hit
  have hdeath (hp : ℤ) : Frames fun r : Room F =>
      if hp ≤ 0 then
        let r := r.flag j
        if r.boss.level = 1 then { r with boss.level := 2, boss.deathTime := r.game.gameTime }
        else if r.boss.level = 3 then { r with boss.level := 4 }
        else r
      else r := by
    intro sent r
    dsimp only [behind, flag]
    split_ifs <;> rfl
  have hhit := frames_broadcast [.bossState (r.boss.hp - damage) (if r.boss.level = 3 then 2000 else 1000)] sent
    { r with boss.hp := r.boss.hp - damage }
  exact (hdeath (r.boss.hp - damage)).after hhit

theorem frames_spawn (type : UInt16) (x y vx vy : F) (h w : ℤ) (extra : List (UdpMsg F)) :
    Frames fun r => r.spawn type x y vx vy h w extra := by
  intro sent r
  simp only [spawn, broadcast, behind, List.append_assoc]

theorem frames_broadcastGameState : Frames fun r : Room F => r.broadcastGameState := by
  intro sent r
  simp only [broadcastGameState, behind, List.append_assoc]

theorem frames_syncStage (env : UpdateEnv) : Frames fun r : Room F => r.syncStage env := by
  intro sent r
  simp only [syncStage, sendGlobalStateSync, broadcast, behind, List.append_assoc]
  split <;> rfl

theorem frames_disconnectPlayer (playerId : UInt32) : Frames fun r : Room F => r.disconnectPlayer playerId := by
  intro sent r
  simp only [disconnectPlayer, broadcast, behind, List.append_assoc]

theorem frames_kickPlayer (playerId : UInt32) : Frames fun r : Room F => r.kickPlayer playerId := by
  intro sent r
  simp only [kickPlayer, disconnectPlayer, broadcast, behind, List.append_assoc]

variable [FloatOps F]

theorem frames_updateEntities : Frames fun r : Room F => r.updateEntities := by
  intro sent r
  simp only [updateEntities, behind, List.append_assoc]

theorem frames_collideProjectile (i j : ℕ) : Frames fun r : Room F => r.collideProjectile i j := by
  intro sent r
  show (r.behind sent).collideProjectile i j = (r.collideProjectile i j).behind sent
  unfold collideProjectile
  simp only [behind_game]
  cases r.game.entities[i]? with
  | none => rfl
  | some projectile =>
    cases r.game.entities[j]? with
    | none => rfl
    | some enemy =>
      dsimp only
      split
      · rfl
      · split
        · rfl
        · split
          · split
            · exact frames_hitBoss j _ sent (r.flag i)
            · rfl
          · rfl

theorem frames_collideProjectiles (n i : ℕ) : Frames fun r : Room F => collideProjectiles n r i := by
  intro sent r
  show collideProjectiles n (r.behind sent) i = (collideProjectiles n r i).behind sent
  unfold collideProjectiles
  simp only [behind_game]
  cases r.game.entities[i]? with
  | none => rfl
  | some projectile =>
    dsimp only
    split
    · rfl
    · exact Frames.foldl (frames_collideProjectile i) _ sent r

theorem frames_collidePlayer (player : Player F) (j : ℕ) : Frames fun r : Room F => collidePlayer player r j := by
  intro sent r
  show collidePlayer player (r.behind sent) j = (collidePlayer player r j).behind sent
  unfold collidePlayer
  simp only [behind_game]
  cases r.game.entities[j]? with
  | none => rfl
  | some enemy =>
    dsimp only
    split
    · rfl
    · split
      · rfl
      · split <;> rfl

theorem frames_handleCollision : Frames fun r : Room F => r.handleCollision := by
  intro sent r
  have hprojectiles := Frames.foldl (frames_collideProjectiles r.game.entities.length)
    (List.range r.game.entities.length) sent r
  have hplayers := Frames.foldl (fun player => Frames.foldl (frames_collidePlayer (F := F) player)
    (List.range r.game.entities.length))
  show handleCollision (r.behind sent) = (handleCollision r).behind sent
  unfold handleCollision
  dsimp only at hprojectiles ⊢
  rw [show (r.behind sent).game.entities.length = r.game.entities.length from rfl, hprojectiles]
  exact hplayers _ sent _

theorem frames_bossShoot (x y : F) : Frames fun r : Room F => r.bossShoot x y := by
  intro sent r
  show (r.behind sent).bossShoot x y = (r.bossShoot x y).behind sent
  have hshots := Frames.foldl fun vy : F => frames_spawn (F := F) 11 x (y + ((80 : ℤ) : F)) (-15.0) vy 30 30 []
  by_cases hdue : (if r.boss.level = 3 then 1.0 else 1.5 : F) < r.game.gameTime - r.boss.lastShootTime
  · have hshot : r.bossShoot x y = _ := if_pos hdue
    have hshot' : (r.behind sent).bossShoot x y = _ := if_pos hdue
    rw [hshot, hshot']
    exact hshots _ sent { r with boss.lastShootTime := r.game.gameTime }
  · have hwait : r.bossShoot x y = r := if_neg hdue
    have hwait' : (r.behind sent).bossShoot x y = r.behind sent := if_neg hdue
    rw [hwait, hwait']

theorem frames_createEnemy (rand : ℕ) : Frames fun r : Room F => r.createEnemy rand := by
  intro sent r
  simp only [createEnemy, spawn, broadcast, behind, List.append_assoc]
  split_ifs <;> rfl

theorem frames_enemyStage (env : UpdateEnv) : Frames fun r : Room F => r.enemyStage env := by
  intro sent r
  have henemy : (r.behind sent).createEnemy env.rand = (r.createEnemy env.rand).behind sent :=
    frames_createEnemy env.rand sent r
  show (r.behind sent).enemyStage env = (r.enemyStage env).behind sent
  unfold enemyStage
  rw [henemy]
  show (if 2000000000 < env.enemyNow - r.game.lastEnemySpawnTime then _ else _) = _
  split <;> rfl

theorem bossStage_behind (sent : List (Sent F)) (r : Room F) :
    (r.behind sent).bossStage = (r.bossStage.1.behind sent, r.bossStage.2) := by
  have hif {c d : Prop} [Decidable c] [Decidable d] (x y z : Room F × Option ℤ) :
      (if c then (x.1.behind sent, x.2) else if d then (y.1.behind sent, y.2) else (z.1.behind sent, z.2)) =
        ((if c then x else if d then y else z).1.behind sent, (if c then x else if d then y else z).2) := by
    split_ifs <;> rfl
  exact hif ({ r with boss.level := 1, boss.hp := 1000 }, some 1000)
    ({ r with boss.level := 3, boss.hp := 2000 }, some 2000) (r, none)

end Room

/-! ## What the threads queued already -/

variable [FloatOps F]

theorem LoopPc.run_behind (env : UpdateEnv) (sent : List (Sent F)) (r : Room F) (pc : LoopPc F) :
    pc.run env (r.behind sent) = ((pc.run env r).1.behind sent, (pc.run env r).2) := by
  cases pc with
  | idle => rfl
  | updateEntities => exact Prod.ext (Room.frames_updateEntities sent r) rfl
  | handleCollision => exact Prod.ext (Room.frames_handleCollision sent r) rfl
  | broadcastGameState => exact Prod.ext (Room.frames_broadcastGameState sent r) rfl
  | updateGameLevel => rfl
  | bossStage =>
    simp only [run, Room.bossStage_behind]
    rcases r.bossStage with ⟨r', _ | bossMaxHP⟩ <;> rfl
  | spawnBoss bossMaxHP => exact Prod.ext (Room.frames_spawn _ _ _ _ _ _ _ _ sent r) rfl
  | bossAim =>
    have haim : (r.behind sent).bossAim = r.bossAim := rfl
    simp only [run, haim]
    cases r.bossAim <;> rfl
  | bossShoot x y => exact Prod.ext (Room.frames_bossShoot x y sent r) rfl
  | enemyStage => exact Prod.ext (Room.frames_enemyStage env sent r) rfl
  | syncStage => exact Prod.ext (Room.frames_syncStage env sent r) rfl

theorem UdpOp.run_behind (playerId : UInt32) (memory : Player F) (sent : List (Sent F)) (r : Room F) (op : UdpOp) :
    op.run playerId memory (r.behind sent) =
      ((op.run playerId memory r).1.behind sent, (op.run playerId memory r).2) := by
  cases op with
  | getPlayer pkt =>
    simp only [run, Room.behind_game]
    cases r.game.getPlayer playerId <;> rfl
  | stats slot tick => rfl
  | write slot w => rfl
  | setTick tick => rfl
  | getShooter charged =>
    simp only [run, Room.behind_game]
    cases r.game.getPlayer playerId <;> rfl
  | shoot slot charged =>
    refine Prod.ext ?_ rfl
    cases charged with
    | false => exact Room.frames_spawn _ _ _ _ _ _ _ _ sent r
    | true => exact Room.frames_spawn _ _ _ _ _ _ _ _ sent r

namespace GameThreads

theorem section_frames {l : Label F} {f : Room F → Room F} (h : l.section = some f) : Room.Frames f := by
  cases l with
  | call c => cases h
  | udp memory => cases h
  | loop env => cases h
  | updatePlayerUdpAddr playerId addr =>
    obtain rfl := Option.some.inj h
    exact fun _ _ => rfl
  | join playerId username =>
    obtain rfl := Option.some.inj h
    exact .ite (c := fun r => r.game.status = .lobby) (fun _ _ => Iff.rfl) (fun _ _ => rfl) fun _ _ => rfl
  | start playerId =>
    obtain rfl := Option.some.inj h
    exact .ite (c := fun r => playerId = r.game.getHostId) (fun _ _ => Iff.rfl) (fun _ _ => rfl) fun _ _ => rfl
  | removePlayerFromLobby playerId =>
    obtain rfl := Option.some.inj h
    exact fun _ _ => rfl
  | disconnectPlayer playerId =>
    obtain rfl := Option.some.inj h
    exact Room.frames_disconnectPlayer playerId
  | kickPlayer playerId =>
    obtain rfl := Option.some.inj h
    exact Room.frames_kickPlayer playerId

theorem step_of_section {s : GameThreads F} {l : Label F} {f : Room F → Room F} (h : l.section = some f) :
    machine.step s l = some { s with room := f s.room } := by
  have hmap : (l.section.map fun f => { s with room := f s.room }) = some { s with room := f s.room } := by rw [h]; rfl
  cases l with
  | call c => cases h
  | udp memory => cases h
  | loop env => cases h
  | _ => exact hmap

/-- The threads, had `sent` been queued before. -/
def behind (sent : List (Sent F)) (s : GameThreads F) : GameThreads F := { s with room := s.room.behind sent }

theorem step_behind (sent : List (Sent F)) {s s' : GameThreads F} {l : Label F} (h : machine.step s l = some s') :
    machine.step (s.behind sent) l = some (s'.behind sent) := by
  rcases step_cases h with ⟨c, rfl, hops, rfl⟩ | ⟨memory, op, rest, rfl, hops, rfl⟩ | ⟨env, rfl, rfl⟩ | ⟨f, hf, rfl⟩
  · simp only [machine, step, behind, hops, if_true]
  · simp only [machine, step, behind, hops, UdpOp.run_behind]
  · simp only [machine, step, behind, LoopPc.run_behind]
  · rw [step_of_section hf]
    exact congrArg (fun room => some { s with room }) (section_frames hf sent s.room)

/-- **What is queued already has no effect on a run.** -/
theorem reaches_behind (sent : List (Sent F)) {s t : GameThreads F} (h : machine.Reaches FreshJoins s t) :
    machine.Reaches FreshJoins (s.behind sent) (t.behind sent) :=
  h.map (behind sent) fun hs hC => ⟨step_behind sent hs, hC⟩

/-! ## What is done to a room, the threads can do -/

/-- A run in which nobody asks to be let in. -/
theorem reaches_of_run {s t : GameThreads F} {labels : List (Label F)} (h : machine.run s labels = some t)
    (hjoins : ∀ l ∈ labels, l.joins = none) : machine.Reaches FreshJoins s t := by
  refine ⟨labels, h, Machine.along_of_forall fun pre l post s he _ p hp => ?_⟩
  have hnone : l.joins = none := hjoins l (he ▸ List.mem_append_right _ List.mem_cons_self)
  rw [hnone] at hp
  cases hp

/-- **An act on a room is a run of its threads**, between two calls and two updates. -/
theorem reaches_act (a : RoomAct) (r : Room F) (playerId : UInt32) (hnew : ∀ p username, a = .join p username → p ∉ r.ids) :
    ∃ playerId', machine.Reaches FreshJoins ⟨r, playerId, [], .idle⟩ ⟨a.run r, playerId', [], .idle⟩ := by
  have hsection {l : Label F} (hl : l.section = some a.run) (hC : FreshJoins ⟨r, playerId, [], .idle⟩ l) :
      machine.Reaches FreshJoins ⟨r, playerId, [], .idle⟩ ⟨a.run r, playerId, [], .idle⟩ :=
    Machine.reaches_step (step_of_section hl) hC
  cases a with
  | join p username =>
    refine ⟨playerId, hsection (l := .join p username) rfl fun q hq => ?_⟩
    obtain rfl := Option.some.inj hq
    exact hnew p username rfl
  | leave p => exact ⟨playerId, hsection (l := .removePlayerFromLobby p) rfl fun _ hq => nomatch hq⟩
  | start p => exact ⟨playerId, hsection (l := .start p) rfl fun _ hq => nomatch hq⟩
  | disconnect p => exact ⟨playerId, hsection (l := .disconnectPlayer p) rfl fun _ hq => nomatch hq⟩
  | kick p => exact ⟨playerId, hsection (l := .kickPlayer p) rfl fun _ hq => nomatch hq⟩
  | input pkt addr =>
    -- the address is kept first, then the call runs to its end
    have hbind : machine.Reaches FreshJoins ⟨r, playerId, [], .idle⟩
        ⟨{ r with game := r.game.updatePlayerUdpAddr pkt.playerId addr }, playerId, [], .idle⟩ :=
      Machine.reaches_step (a := .updatePlayerUdpAddr pkt.playerId addr) rfl fun _ hq => nomatch hq
    obtain ⟨n, hn⟩ := handlePlayerInput_run { r with game := r.game.updatePlayerUdpAddr pkt.playerId addr } playerId
      (Player.new 0 []) .idle pkt
    refine ⟨pkt.playerId, hbind.trans (reaches_of_run hn fun l hl => ?_)⟩
    rcases List.mem_cons.1 hl with rfl | hl
    · rfl
    · rw [List.eq_of_mem_replicate hl]
      rfl
  | update env =>
    obtain ⟨n, hn⟩ := update_run r playerId [] env
    refine ⟨playerId, reaches_of_run hn fun l hl => ?_⟩
    rw [List.eq_of_mem_replicate hl]
    rfl

end GameThreads

/-! ## The rooms of the server -/

/-- The room is the end of a run of its threads in which those who join are new, and which has
queued `queued`. -/
def Room.Threaded (queued : List (Sent F)) (r : Room F) : Prop :=
  ∃ boss now playerId, GameThreads.machine.Reaches GameThreads.FreshJoins (GameThreads.init boss now)
    ⟨{ r with out := queued }, playerId, [], .idle⟩

theorem Room.threaded_new (boss : Boss F) (now : ℕ) : Room.Threaded [] ⟨Game.new now, boss, []⟩ :=
  ⟨boss, now, 0, Machine.reaches_self⟩

/-- The run goes on with an act. -/
theorem Room.Threaded.act {queued : List (Sent F)} {r : Room F} (h : r.Threaded queued) (hout : r.out = []) (a : RoomAct)
    (hnew : ∀ p username, a = .join p username → p ∉ r.ids) :
    Room.Threaded (queued ++ (a.run r).out) { a.run r with out := [] } := by
  obtain ⟨boss, now, playerId, hreach⟩ := h
  obtain ⟨playerId', hact⟩ := GameThreads.reaches_act a r playerId hnew
  have hgo := GameThreads.reaches_behind queued hact
  have hstart : ({ r with out := queued } : Room F) = r.behind queued := by rw [Room.behind, hout, List.append_nil]
  rw [hstart] at hreach
  exact ⟨boss, now, playerId', hreach.trans hgo⟩

/-- A message that is queued, and the room whose `Game` has queued it. A `PONG` is queued by none. -/
structure Posted (F : Type*) where
  room : Option ℤ
  sent : Sent F

/-- The messages of one room. -/
def ofRoom (roomId : ℤ) (log : List (Posted F)) : List (Sent F) := (log.filter (·.room = some roomId)).map (·.sent)

section Logs

variable {roomId : ℤ} {log : List (Posted F)} {sent : List (Sent F)}

omit [FloatOps F]

theorem ofRoom_append (log log' : List (Posted F)) : ofRoom roomId (log ++ log') = ofRoom roomId log ++ ofRoom roomId log' := by
  rw [ofRoom, List.filter_append, List.map_append]
  rfl

theorem ofRoom_self (sent : List (Sent F)) : ofRoom roomId (sent.map (⟨some roomId, ·⟩)) = sent := by
  have hall : (sent.map (Posted.mk (some roomId))).filter (·.room = some roomId) = sent.map (Posted.mk (some roomId)) :=
    List.filter_eq_self.2 fun x hx => by
      obtain ⟨y, -, rfl⟩ := List.mem_map.1 hx
      exact decide_eq_true rfl
  rw [ofRoom, hall, List.map_map]
  exact List.map_id _

theorem ofRoom_eq_nil (h : ∀ x ∈ log, x.room ≠ some roomId) : ofRoom roomId log = [] := by
  rw [ofRoom, List.filter_eq_nil_iff.2 fun x hx hroom => h x hx (of_decide_eq_true hroom)]
  rfl

theorem ofRoom_other {room : Option ℤ} (h : room ≠ some roomId) : ofRoom roomId (sent.map (⟨room, ·⟩)) = [] := by
  refine ofRoom_eq_nil fun x hx => ?_
  obtain ⟨y, -, rfl⟩ := List.mem_map.1 hx
  exact h

end Logs

namespace ServerManager

variable {m m' : ServerManager F} {roomId : ℤ} {log : List (Posted F)}

/-- Only players that are not in the room are let in. -/
def FreshJoins (m : ServerManager F) (l : Label) : Prop :=
  ∀ roomId p username fresh, l = .call (.onJoinRoom roomId p username) fresh → p ∉ m.ids roomId

/-- What an act on a room queues. -/
def posts (m : ServerManager F) (a : ℤ × RoomAct) : List (Posted F) :=
  match m.room? a.1 with
  | some r => (a.2.run r).out.map (⟨some a.1, ·⟩)
  | none => []

/-- What a label queues apart from its acts: the answer to a `PING`. -/
def Label.pongs : Label → List (Sent F)
  | event (.datagram data clientAddr) =>
    match ClientMsg.parse data with
    | some (.ping timestamp) => [⟨none, clientAddr, .pong timestamp⟩]
    | _ => []
  | _ => []

omit [FloatOps F] in
theorem mem_pongs {l : Label} {x : Sent F} (h : x ∈ l.pongs) :
    ∃ data timestamp, l = .event (.datagram data x.addr) ∧ ClientMsg.parse data = some (.ping timestamp) ∧
      x.msg = .pong timestamp := by
  unfold Label.pongs at h
  split at h
  · rename_i data clientAddr
    split at h
    · rename_i timestamp hparse
      obtain rfl := List.mem_singleton.1 h
      exact ⟨data, timestamp, rfl, hparse, rfl⟩
    · cases h
  · cases h

/-- What a label queues, message by message. -/
def Label.posts (m : ServerManager F) (l : Label) : List (Posted F) :=
  foldLog (fun m a => m.onRoom a.1 a.2.run) ServerManager.posts m (l.acts m) ++ l.pongs.map (⟨none, ·⟩)

/-- **A label queues what its acts do, and perhaps a `PONG`.** -/
theorem out_run (m : ServerManager F) (l : Label) : (l.run m).out = (m.doAll (l.acts m)).out ++ l.pongs := by
  cases l with
  | call c fresh =>
    have hpongs : (Label.call c fresh).pongs (F := F) = [] := rfl
    rw [hpongs, List.append_nil]
    cases c with
    | onJoinRoom roomId playerId username =>
      rcases onJoinRoom_cases m roomId playerId username with hj | hj
      · simp only [Label.acts, Label.run, ITCPHandler.call, handler, hj]
        rfl
      · simp only [Label.acts, Label.run, ITCPHandler.call, handler, hj]
        rfl
    | _ => rfl
  | event ev =>
    cases ev with
    | datagram data clientAddr =>
      simp only [Label.acts, Label.run, Label.pongs, react, onMessageReceived]
      rcases ClientMsg.parse data with _ | ⟨pkt | p | ts⟩
      · exact (List.append_nil _).symm
      · dsimp only
        cases m.findRoom pkt.playerId <;> exact (List.append_nil _).symm
      · dsimp only
        cases m.findRoom p <;> exact (List.append_nil _).symm
      · rfl
    | command c =>
      cases c with
      | create fresh => exact (List.append_nil _).symm
      | delete roomId => exact (List.append_nil _).symm
      | kick p =>
        simp only [Label.acts, Label.run, Label.pongs, react, processCommand]
        cases m.findRoom p <;> exact (List.append_nil _).symm
    | pass env =>
      rw [Label.acts, doAll, List.foldl_map]
      exact (List.append_nil _).symm

/-- A label lets in one player, or none. -/
theorem acts_cases (m : ServerManager F) (l : Label) :
    (∀ a ∈ l.acts m, ∀ p username, a.2 ≠ .join p username) ∨
      ∃ roomId p username fresh, l = .call (.onJoinRoom roomId p username) fresh ∧
        l.acts m = [(roomId, .join p username)] := by
  have hnone {acts : List (ℤ × RoomAct)} (h : acts = []) : ∀ a ∈ acts, ∀ p username, a.2 ≠ .join p username := by
    rw [h]
    exact fun a ha => absurd ha List.not_mem_nil
  have hmap {f : ℤ → RoomAct} (hf : ∀ roomId p username, f roomId ≠ .join p username) (roomIds : List ℤ) :
      ∀ a ∈ roomIds.map fun roomId => (roomId, f roomId), ∀ p username, a.2 ≠ .join p username := by
    intro a ha p username
    obtain ⟨roomId, -, rfl⟩ := List.mem_map.1 ha
    exact hf roomId p username
  cases l with
  | call c fresh =>
    cases c with
    | onJoinRoom roomId playerId username =>
      by_cases hj : (m.onJoinRoom roomId playerId username).1 = true
      · exact .inr ⟨roomId, playerId, username, fresh, rfl, if_pos hj⟩
      · exact .inl (hnone (if_neg hj))
    | onStartGame roomId playerId =>
      refine .inl fun a ha p username he => ?_
      rw [List.mem_singleton.1 ha] at he
      cases he
    | onPlayerDisconnect playerId roomId =>
      refine .inl fun a ha p username he => ?_
      rw [List.mem_singleton.1 ha] at he
      cases he
    | _ => exact .inl (hnone rfl)
  | event ev =>
    refine .inl ?_
    cases ev with
    | datagram data clientAddr =>
      simp only [Label.acts]
      rcases ClientMsg.parse data with _ | ⟨pkt | p | ts⟩
      · exact hnone rfl
      · exact hmap (fun _ _ _ => RoomAct.noConfusion) _
      · exact hmap (fun _ _ _ => RoomAct.noConfusion) _
      · exact hnone rfl
    | command c =>
      cases c with
      | create fresh => exact hnone rfl
      | delete roomId => exact hnone rfl
      | kick p => exact hmap (fun _ _ _ => RoomAct.noConfusion) _
    | pass env => exact hmap (fun _ _ _ => RoomAct.noConfusion) _

/-- **The messages in the queue, by their rooms**: `log` is the queue, in it what no room has posted is
a `PONG`, and a live room is the end of a run of its threads that has queued what the room has posted. -/
structure Logged (log : List (Posted F)) (m : ServerManager F) : Prop where
  tidy : m.Tidy
  out : log.map (·.sent) = m.out
  pong : ∀ x ∈ log, x.room = none → ∃ timestamp, x.sent.msg = .pong timestamp
  below : ∀ x ∈ log, ∀ roomId, x.room = some roomId → roomId < m.nextRoomId
  threaded : ∀ roomId r, m.room? roomId = some r → r.Threaded (ofRoom roomId log)

/-- An act. -/
theorem Logged.onRoom (h : Logged log m) (a : ℤ × RoomAct) (hnew : ∀ p username, a.2 = .join p username → p ∉ m.ids a.1) :
    Logged (log ++ posts m a) (m.onRoom a.1 a.2.run) := by
  obtain ⟨roomId, act⟩ := a
  cases hr : m.room? roomId with
  | none =>
    have he : m.rooms[roomId]? = none := Option.map_eq_none_iff.1 hr
    rw [onRoom_of_none he, posts, hr, List.append_nil]
    exact h
  | some r =>
    obtain ⟨e, he, rfl⟩ := exists_room?_entry hr
    have hposts : posts m (roomId, act) = (act.run ⟨e.game, m.boss e.addr, []⟩).out.map (⟨some roomId, ·⟩) := by
      rw [posts, hr]
    have haddr : m.addr? roomId = some e.addr := by
      rw [addr?, he]
      rfl
    rw [hposts]
    refine ⟨h.tidy.onRoom roomId act, ?_, fun x hx hroom => ?_, fun x hx roomId' hroom => ?_, fun roomId' r' hr' => ?_⟩
    · rw [List.map_append, h.out, List.map_map, onRoom_of_some he]
      exact congrArg (m.out ++ ·) (List.map_id _)
    · rcases List.mem_append.1 hx with hold | hposted
      · exact h.pong x hold hroom
      · obtain ⟨y, -, rfl⟩ := List.mem_map.1 hposted
        cases hroom
    · have hnext : (m.onRoom roomId act.run).nextRoomId = m.nextRoomId := by rw [onRoom_of_some he]
      rw [hnext]
      rcases List.mem_append.1 hx with hold | hposted
      · exact h.below x hold roomId' hroom
      · obtain ⟨y, -, rfl⟩ := List.mem_map.1 hposted
        obtain rfl := Option.some.inj hroom
        exact h.tidy.below roomId e.addr haddr
    · rw [ofRoom_append]
      by_cases hroom : roomId' = roomId
      · subst hroom
        rw [room?_onRoom_self hr] at hr'
        obtain rfl := Option.some.inj hr'
        rw [ofRoom_self]
        refine (h.threaded roomId' _ hr).act rfl act fun p username hp => ?_
        have hids : m.ids roomId' = Room.ids ⟨e.game, m.boss e.addr, []⟩ := ids_of_some he
        exact hids ▸ hnew p username hp
      · rw [h.tidy.room?_onRoom_of_ne hroom] at hr'
        rw [ofRoom_other fun heq => hroom (Option.some.inj heq).symm, List.append_nil]
        exact h.threaded roomId' r' hr'

/-- Acts of which none is a join. -/
theorem Logged.doAll {acts : List (ℤ × RoomAct)} (h : Logged log m)
    (hjoins : ∀ a ∈ acts, ∀ p username, a.2 ≠ .join p username) :
    Logged (log ++ foldLog (fun m a => m.onRoom a.1 a.2.run) posts m acts) (m.doAll acts) := by
  induction acts generalizing m log with
  | nil =>
    rw [foldLog, List.append_nil]
    exact h
  | cons a acts ih =>
    have hnot : ∀ p username, a.2 ≠ .join p username := hjoins a List.mem_cons_self
    rw [foldLog, ← List.append_assoc]
    exact ih (h.onRoom a fun p username he => absurd he (hnot p username)) fun b hb => hjoins b (List.mem_cons_of_mem a hb)

/-- The acts of a label. -/
theorem Logged.acts {l : Label} (h : Logged log m) (hC : FreshJoins m l) :
    Logged (log ++ foldLog (fun m a => m.onRoom a.1 a.2.run) ServerManager.posts m (l.acts m)) (m.doAll (l.acts m)) := by
  rcases acts_cases m l with hjoins | ⟨roomId, p, username, fresh, hl, ha⟩
  · exact h.doAll hjoins
  · rw [ha, foldLog, foldLog, List.append_nil]
    refine h.onRoom (roomId, .join p username) fun q name he => ?_
    obtain ⟨rfl, rfl⟩ := RoomAct.join.inj he
    exact hC roomId p username fresh hl

/-- The `PONG` of a label changes nothing for the rooms. -/
theorem Logged.pongs (h : Logged log m) (l : Label) :
    Logged (log ++ l.pongs.map (⟨none, ·⟩)) { m with out := m.out ++ l.pongs } := by
  refine ⟨⟨h.tidy.below, h.tidy.apart, h.tidy.empty, h.tidy.calm⟩, ?_, fun x hx hroom => ?_, fun x hx roomId hroom => ?_,
    fun roomId r hr => ?_⟩
  · rw [List.map_append, h.out, List.map_map]
    exact congrArg (m.out ++ ·) (List.map_id _)
  · rcases List.mem_append.1 hx with hold | hpong
    · exact h.pong x hold hroom
    · obtain ⟨y, hy, rfl⟩ := List.mem_map.1 hpong
      obtain ⟨-, timestamp, -, -, hmsg⟩ := mem_pongs hy
      exact ⟨timestamp, hmsg⟩
  · rcases List.mem_append.1 hx with hold | hpong
    · exact h.below x hold roomId hroom
    · obtain ⟨y, -, rfl⟩ := List.mem_map.1 hpong
      cases hroom
  · rw [ofRoom_append, ofRoom_other (by simp), List.append_nil]
    exact h.threaded roomId r hr

/-- A new room, for which nothing has been posted. -/
theorem Logged.create {fresh : Fresh} (h : Logged log m) (hfree : m.holds fresh.addr = false) :
    Logged log (m.onCreateRoom fresh).2 := by
  refine ⟨h.tidy.create hfree, h.out, h.pong, fun x hx roomId hroom => ?_, fun roomId r hr => ?_⟩
  · exact (h.below x hx roomId hroom).trans (Int.lt_succ m.nextRoomId)
  · rw [room?_create] at hr
    split at hr
    · rename_i hroom
      obtain rfl := Option.some.inj hr
      rw [ofRoom_eq_nil fun x hx hx' => absurd (h.below x hx roomId hx') (by rw [hroom]; exact lt_irrefl _)]
      exact Room.threaded_new _ _
    · exact h.threaded roomId r hr

/-- A room is deleted. -/
theorem Logged.delete (h : Logged log m) (roomId : ℤ) : Logged log { m with rooms := m.rooms.erase roomId } := by
  refine ⟨h.tidy.delete roomId, h.out, h.pong, h.below, fun roomId' r hr => ?_⟩
  rw [room?_delete] at hr
  split at hr
  · cases hr
  · exact h.threaded roomId' r hr

/-- What has no acts and leaves the queue as it is posts nothing. -/
theorem posts_of_out {l : Label} (hacts : l.acts m = []) (hout : (l.run m).out = m.out) : l.posts m = [] := by
  have hpongs : l.pongs (F := F) = [] := by
    have hrun := (out_run m l).symm.trans hout
    rw [hacts] at hrun
    exact List.append_right_eq_self.1 hrun
  rw [Label.posts, hacts, hpongs]
  rfl

/-- **A step of the rooms.** -/
theorem logged_step {l : Label} (h : Logged log m) (hC : FreshJoins m l) (hs : machine.step m l = some m') :
    Logged (log ++ l.posts m) m' := by
  obtain ⟨rfl, hfree⟩ := step_eq_some hs
  rcases l.run_cases m with ⟨fresh, hcreates, hacts, hrun⟩ | ⟨roomId, -, hacts, hrun⟩ | ⟨out, hrun⟩
  · rw [posts_of_out hacts (by rw [hrun]; rfl), List.append_nil, hrun]
    exact h.create (hfree fresh hcreates)
  · rw [posts_of_out hacts (by rw [hrun]), List.append_nil, hrun]
    exact h.delete roomId
  · have hall := (h.acts hC).pongs l
    have hout : out = (m.doAll (l.acts m)).out ++ l.pongs := by
      rw [← out_run, hrun]
    rw [List.append_assoc] at hall
    rw [hrun, hout]
    exact hall

theorem logged_init : Logged [] (init : ServerManager F) := by
  refine ⟨tidy_init, rfl, fun x hx => absurd hx List.not_mem_nil, fun x hx => absurd hx List.not_mem_nil, fun roomId r hr => ?_⟩
  have hnone : (init : ServerManager F).rooms[roomId]? = none := Std.TreeMap.getElem?_emptyc
  rw [room?, hnone] at hr
  cases hr

end ServerManager

/-! ## The whole server -/

/-- The call of the handler that an act is. -/
def Act.asks : Act → Option Call
  | call c => some c
  | _ => .none

namespace TCPServer

open ServerManager

variable {s s' : TCPServer (ServerManager F)}

/-- What a step is to the rooms. -/
def toHandler (s : TCPServer (ServerManager F)) : Label Event → Option ServerManager.Label
  | .thread t env => (s.pc t).act.asks.map (.call · env.fresh)
  | .other e => some (.event e)
  | _ => none

/-- A new `Game` gets an address at which there is no live one. -/
def FreshGames (s : TCPServer (ServerManager F)) (l : Label Event) : Prop :=
  ∀ fresh ∈ (s.toHandler l).bind (·.creates), s.handler.holds fresh.addr = false

instance FreshGames.decidable (s : TCPServer (ServerManager F)) (l : Label Event) : Decidable (FreshGames s l) :=
  inferInstanceAs (Decidable (∀ fresh ∈ (s.toHandler l).bind (·.creates), s.handler.holds fresh.addr = false))

/-- What an act does to the rooms. -/
theorem perform_handler {t : ℕ} {env : Env} {a : Act} {r : a.Result} {s₁ : TCPServer (ServerManager F)}
    (h : s.perform ServerManager.handler t env a = some (r, s₁)) :
    s₁.handler = ((a.asks.map (ServerManager.Label.call · env.fresh)).map (·.run s.handler)).getD s.handler := by
  by_cases hc : ∃ c, a = .call c
  · obtain ⟨c, rfl⟩ := hc
    obtain ⟨-, rfl⟩ := Prod.mk.inj (Option.some.inj h)
    rfl
  · rw [(perform_frame h).2.2.2 fun c he => hc ⟨c, he⟩]
    cases a with
    | call c => exact absurd ⟨c, rfl⟩ hc
    | _ => rfl

/-- **A step of the server is a step of its rooms, or none.** -/
theorem handler_step {l : Label Event} (hs : rooms.step s l = some s') :
    s'.handler = ((s.toHandler l).map (·.run s.handler)).getD s.handler := by
  rcases step_cases hs with ⟨rfl, rfl⟩ | ⟨t, env, pc, r, s₁, rfl, rfl, hp, rfl⟩ | ⟨playerId, rfl, -, rfl⟩ |
    ⟨sock, rfl, rfl⟩ | ⟨e, rfl, rfl⟩
  · rfl
  · have hhandler : s₁.handler = _ := perform_handler hp
    exact hhandler
  · rw [kickPlayer_eq]
    rfl
  · rfl
  · rfl

omit [FloatOps F] in
/-- Only new players are let in, since their ids are unambiguous. -/
theorem Isolated.freshJoins {k : ℕ} {l : Label Event} {hl : ServerManager.Label} (h : Isolated k s)
    (hto : s.toHandler l = some hl) : FreshJoins s.handler hl := by
  rintro roomId p username fresh rfl
  cases l with
  | thread t env =>
    obtain ⟨c, hc, he⟩ := Option.map_eq_some_iff.1 hto
    obtain ⟨rfl, -⟩ := ServerManager.Label.call.inj he
    generalize hpc : s.pc t = pc at hc
    cases pc <;> simp only [Pc.act, Act.asks, Option.some.injEq, reduceCtorEq, Call.onJoinRoom.injEq] at hc
    rename_i u roomId'
    obtain ⟨rfl, rfl, -⟩ := hc
    have hrank : (s.pc t).rank ≤ 2 := by rw [hpc]; exact Nat.le_refl 2
    exact h.outside t u (by rw [hpc]; rfl) hrank _
  | other e => cases hto
  | accept => cases hto
  | kick playerId => cases hto
  | reset sock => cases hto

/-- What a step of the server queues, message by message. -/
def posts (s : TCPServer (ServerManager F)) (l : Label Event) : List (Posted F) :=
  match s.toHandler l with
  | some hl => hl.posts s.handler
  | none => []

/-- What a run of the server queues, message by message. -/
def posted (s : TCPServer (ServerManager F)) (labels : List (Label Event)) : List (Posted F) :=
  rooms.observe (fun log s l _ => log ++ s.posts l) [] s labels

/-- **Each room of the server is the end of a run of its threads** in which those who join are
new, and which queues the messages that the room has posted: `posted` is the queue of the server,
message by message, and what no room has posted is a `PONG`. -/
theorem rooms_threaded (labels : List (Label Event)) {s : TCPServer (ServerManager F)}
    (hr : rooms.run (init ServerManager.init) labels = some s)
    (hgames : rooms.Along FreshGames (init (ServerManager.init : ServerManager F)) labels) (hlt : s.accepted < 2 ^ 32) :
    (posted (init ServerManager.init) labels).map (·.sent) = s.handler.out ∧
      (∀ x ∈ posted (init (ServerManager.init : ServerManager F)) labels, x.room = none →
        ∃ timestamp, x.sent.msg = .pong timestamp) ∧
      ∀ (roomId : ℤ) (r : Room F), s.handler.room? roomId = some r →
        r.Threaded (ofRoom roomId (posted (init ServerManager.init) labels)) := by
  have hlogged := (Machine.inv_observe_along (M := rooms) (C := FreshGames) (f := fun log s l _ => log ++ s.posts l)
    (J := fun log s => s.accepted < 2 ^ 32 → (∃ k, Isolated k s) ∧ Logged log s.handler) ?_ labels []
    (init (ServerManager.init : ServerManager F)) s (fun _ => ⟨⟨0, isolated_init⟩, logged_init⟩) hgames hr hlt).2
  · exact ⟨hlogged.out, hlogged.pong, hlogged.threaded⟩
  intro log s l s' ih hgames hs hlt'
  have hlt := (accepted_le_step hs).trans_lt hlt'
  obtain ⟨⟨k, h⟩, hlog⟩ := ih hlt
  refine ⟨isolated_step h hs hlt, ?_⟩
  rw [handler_step hs, posts]
  cases hto : s.toHandler l with
  | none =>
    rw [List.append_nil]
    exact hlog
  | some hl =>
    have hfree : (hl.creates.any fun fresh => s.handler.holds fresh.addr) = false := by
      cases hcreates : hl.creates with
      | none => rfl
      | some fresh => exact hgames fresh (by rw [hto]; exact hcreates)
    have hstep : ServerManager.machine.step s.handler hl = some (hl.run s.handler) := by
      simp only [ServerManager.machine, hfree]
      rfl
    exact logged_step hlog (h.freshJoins hto) hstep

/-- The rooms of `twoRooms`, and a `PING`. -/
def pingedRooms : List (Label Event) := twoRooms ++ [.other (.datagram (ClientMsg.ping 9).bytes ⟨8, 8⟩)]

/-- Room 0 has posted the first three messages in the queue, room 1 none; the last one is the `PONG`. -/
theorem rooms_threaded_pingedRooms : ∃ s : TCPServer (ServerManager ℚ),
    rooms.run (init ServerManager.init) pingedRooms = some s ∧
      (posted (init (ServerManager.init : ServerManager ℚ)) pingedRooms).map (·.room) = [some 0, some 0, some 0, none] ∧
      (∀ x ∈ posted (init (ServerManager.init : ServerManager ℚ)) pingedRooms, x.room = none →
        ∃ timestamp, x.sent.msg = .pong timestamp) ∧
      (posted (init ServerManager.init) pingedRooms).map (·.sent) = s.handler.out ∧
      (∃ r, s.handler.room? 0 = some r ∧ r.Threaded (ofRoom 0 (posted (init ServerManager.init) pingedRooms))) ∧
      ∃ r, s.handler.room? 1 = some r ∧ r.Threaded (ofRoom 1 (posted (init ServerManager.init) pingedRooms)) := by
  have hrooms : (rooms.run (init (ServerManager.init : ServerManager ℚ)) pingedRooms).map
      (fun s => ((s.handler.room? 0).isSome, (s.handler.room? 1).isSome, s.accepted)) = some (true, true, 2) := by
    decide +kernel
  obtain ⟨s, hrun, hs⟩ := Option.map_eq_some_iff.1 hrooms
  obtain ⟨h₀, h₁, haccepted⟩ : (s.handler.room? 0).isSome = true ∧ (s.handler.room? 1).isSome = true ∧ s.accepted = 2 := by
    simpa using hs
  obtain ⟨r₀, hr₀⟩ := Option.isSome_iff_exists.1 h₀
  obtain ⟨r₁, hr₁⟩ := Option.isSome_iff_exists.1 h₁
  obtain ⟨hout, hpong, hthreaded⟩ := rooms_threaded pingedRooms hrun (by decide +kernel) (by rw [haccepted]; decide)
  exact ⟨s, hrun, by decide +kernel, hpong, hout, ⟨r₀, hr₀, hthreaded 0 r₀ hr₀⟩, r₁, hr₁, hthreaded 1 r₁ hr₁⟩

end TCPServer

end RType

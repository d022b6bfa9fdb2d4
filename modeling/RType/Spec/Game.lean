import RType.Spec.ProtocoleUDP

/-!
# A game room (`Server/Game.cpp`)

`Game` holds the fields of the class. The boss of a game is not among them: the
source keeps it in static maps keyed by the address of the `Game`, so `Boss` is
the entry of those maps at one address. A method of `Game` that reads the boss or
queues messages works on a `Room`: the game, its boss entries, and what it has
queued for sending, oldest first. `Sent.dest` is the player a message is queued
for (none for a `PONG`); the source passes only that player's address.
-/

namespace RType

variable {F : Type*}

/-- `Player`. `username` is the text up to its terminator. -/
structure Player (F : Type*) where
  id : UInt32
  username : List UInt8
  x : F
  y : F
  velocity : F
  udpAddr : SockAddr := default
  lastProcessedTick : UInt32 := 0
  addrSet : Bool := false
  lastInputTick : UInt32 := 0
  receivedInputs : UInt64 := 0
  lostInputs : UInt64 := 0
  firstInputReceived : Bool := true
  statePacketSequence : UInt32 := 0
deriving DecidableEq

/-- `Entity`, with its fields in the order of the declaration (the spawn sites fill
them by position). -/
structure Entity (F : Type*) where
  id : UInt32
  type : UInt16
  x : F
  y : F
  velocityX : F
  velocityY : F
  height : ℤ
  width : ℤ
  isCollide : Bool := false
deriving DecidableEq

/-- `GameStatus` -/
inductive GameStatus
  | lobby | playing
deriving DecidableEq

/-- The entries of `g_bossLevel`, `g_bossHP`, `g_lastBossShootTime` and
`g_bossDeathTime` at one address. Level 0 is none, 1 the first boss, 2 cooldown,
3 the second boss, 4 victory. -/
structure Boss (F : Type*) where
  level : ℤ
  hp : ℤ
  lastShootTime : F
  deathTime : F
deriving DecidableEq

/-- The fields of `Game`. Time points of the steady clock are in nanoseconds. -/
structure Game (F : Type*) where
  players : List (Player F)
  entities : List (Entity F)
  nextEntityId : UInt32
  gameTime : F
  lastEnemySpawnTime : ℕ
  lastGlobalSyncTime : ℕ
  status : GameStatus
deriving DecidableEq

/-- A message queued by `UDPServer::queueMessage`. -/
structure Sent (F : Type*) where
  dest : Option UInt32
  addr : SockAddr
  msg : UdpMsg F
deriving DecidableEq

/-- A game, its boss entries, and the messages it has queued. -/
structure Room (F : Type*) where
  game : Game F
  boss : Boss F
  out : List (Sent F)
deriving DecidableEq

/-- The text that `strncpy` leaves of `s` in a zeroed buffer of `n + 1` bytes. -/
def cText (n : ℕ) (s : List UInt8) : List UInt8 :=
  (s.takeWhile (· ≠ 0)).take n

/-- The messages `ms`, for every player whose address is known. -/
def announce (players : List (Player F)) (ms : List (UdpMsg F)) : List (Sent F) :=
  (players.filter (·.addrSet)).flatMap fun d => ms.map fun m => ⟨some d.id, d.udpAddr, m⟩

namespace Room

/-- Queue `ms` for every player whose address is known. -/
def broadcast (r : Room F) (ms : List (UdpMsg F)) : Room F :=
  { r with out := r.out ++ announce r.game.players ms }

/-- Write to one slot of the `_players` vector. -/
def writeSlot (r : Room F) (slot : ℕ) (f : Player F → Player F) : Room F :=
  { r with game.players := r.game.players.modify slot f }

end Room

section

variable [FloatOps F]

/-- A static map has no entry: reading it inserts zero. -/
def Boss.none : Boss F := ⟨0, 0, ((0 : ℤ) : F), ((0 : ℤ) : F)⟩

/-- The constructor of `Game`, at time `now` of the steady clock. -/
def Game.new (now : ℕ) : Game F :=
  ⟨[], [], 1, ((0 : ℤ) : F), now, now, .lobby⟩

/-- A player with the default values of the struct. -/
def Player.new (id : UInt32) (username : List UInt8) : Player F :=
  { id, username, x := ((400 : ℤ) : F), y := ((225 : ℤ) : F), velocity := ((5 : ℤ) : F) }

end

/-! ## Players -/

namespace Game

/-- `Game::addPlayer` -/
def addPlayer [FloatOps F] (g : Game F) (id : UInt32) (username : List UInt8) : Game F :=
  { g with players := g.players ++ [Player.new id (cText 31 username)] }

/-- `Game::getPlayer`: the pointer is a slot of the vector. -/
def getPlayer (g : Game F) (playerId : UInt32) : Option ℕ :=
  g.players.findIdx? (·.id == playerId)

/-- `Game::getHostId` -/
def getHostId (g : Game F) : UInt32 :=
  (g.players.head?.map (·.id)).getD 0

/-- `Game::getPlayerCount` -/
def getPlayerCount (g : Game F) : ℕ := g.players.length

/-- `Game::updatePlayerUdpAddr`: the first address a player sends from is kept. -/
def updatePlayerUdpAddr (g : Game F) (playerId : UInt32) (addr : SockAddr) : Game F :=
  match g.getPlayer playerId with
  | some slot =>
    { g with players := g.players.modify slot fun p =>
        if p.addrSet then p else { p with udpAddr := addr, addrSet := true } }
  | none => g

/-- `Game::setPlayerLastProcessedTick` -/
def setPlayerLastProcessedTick (g : Game F) (playerId tick : UInt32) : Game F :=
  match g.getPlayer playerId with
  | some slot =>
    { g with players := g.players.modify slot fun p =>
        if p.lastProcessedTick < tick then { p with lastProcessedTick := tick } else p }
  | none => g

/-- `Game::removePlayerFromLobby`, and the removal of the other two ways to leave. -/
def removePlayerFromLobby (g : Game F) (playerId : UInt32) : Game F :=
  { g with players := g.players.filter (·.id != playerId) }

end Game

/-- The loss statistics at the start of `handlePlayerInput`. A tick that is late or
repeated changes nothing. -/
def Player.recordInput (p : Player F) (tick : UInt32) : Player F :=
  if p.firstInputReceived then
    { p with lastInputTick := tick, receivedInputs := 1, firstInputReceived := false }
  else if p.lastInputTick < tick then
    let lostCount := tick - p.lastInputTick - 1
    { p with
      lostInputs := if 0 < lostCount then p.lostInputs + lostCount.toUInt64 else p.lostInputs
      receivedInputs := p.receivedInputs + 1
      lastInputTick := tick }
  else p

/-- `player->y -= player->velocity` and its three variants; no movement for the rest. -/
def Player.move [FloatOps F] (p : Player F) : Input → Player F
  | .up => { p with y := p.y - p.velocity }
  | .down => { p with y := p.y + p.velocity }
  | .left => { p with x := p.x - p.velocity }
  | .right => { p with x := p.x + p.velocity }
  | .pressed | .hold => p

namespace Room

/-- `Game::disconnectPlayer`: the remaining players are told, whether or not the
player was there. -/
def disconnectPlayer (r : Room F) (playerId : UInt32) : Room F :=
  ({ r with game := r.game.removePlayerFromLobby playerId }).broadcast [.playerDisconnect playerId]

/-- `Game::kickPlayer` -/
def kickPlayer (r : Room F) (playerId : UInt32) : Room F :=
  let kicked := (r.game.players.find? (·.id == playerId)).toList
  ({ r with out := r.out ++ announce kicked [.youHaveBeenKicked] }).disconnectPlayer playerId

/-- `Game::broadcastGameState` -/
def broadcastGameState (r : Room F) : Room F :=
  let states := (r.game.players.filter (·.addrSet)).flatMap fun p => announce r.game.players
    [.playerState p.id p.statePacketSequence p.lastProcessedTick p.x p.y]
  { r with
    game.players := r.game.players.map fun p =>
      if p.addrSet then { p with statePacketSequence := p.statePacketSequence + 1 } else p
    out := r.out ++ states }

/-! ## Entities -/

section

variable [FloatOps F]

/-- What every creation site does under `_entitiesMutex`: take the next id, append the
entity, queue its `ENTITY_SPAWN` and what goes with it. -/
def spawn (r : Room F) (type : UInt16) (x y velocityX velocityY : F) (height width : ℤ)
    (extra : List (UdpMsg F)) : Room F :=
  let entityId := r.game.nextEntityId
  ({ r with
      game.nextEntityId := entityId + 1
      game.entities := r.game.entities ++
        [{ id := entityId, type, x, y, velocityX, velocityY, height, width : Entity F }] }).broadcast
    (.entitySpawn entityId type x y :: extra)

/-- The locked part of `Game::createPlayerShot`, for a shooter at `x`, `y`. -/
def spawnShot (r : Room F) (x y : F) : Room F :=
  r.spawn 1 (x + ((25 : ℤ) : F)) y 10.0 0.0 10 5 []

/-- The locked part of `Game::createPlayerChargedShot`. -/
def spawnChargedShot (r : Room F) (x y : F) : Room F :=
  r.spawn 4 (x + ((25 : ℤ) : F)) y 12.0 0.0 29 30 []

/-- `Game::createPlayerShot` -/
def createPlayerShot (r : Room F) (playerId : UInt32) : Room F :=
  match r.game.players.find? (·.id == playerId) with
  | some player => r.spawnShot player.x player.y
  | none => r

/-- `Game::createPlayerChargedShot` -/
def createPlayerChargedShot (r : Room F) (playerId : UInt32) : Room F :=
  match r.game.players.find? (·.id == playerId) with
  | some player => r.spawnChargedShot player.x player.y
  | none => r

/-- `Game::handlePlayerInput` -/
def handlePlayerInput (r : Room F) (pkt : PlayerInputPacket) : Room F :=
  match r.game.getPlayer pkt.playerId with
  | none => r
  | some player =>
    let r := r.writeSlot player (·.recordInput pkt.tick)
    let r := { r with game := r.game.setPlayerLastProcessedTick pkt.playerId pkt.tick }
    let r := if pkt.has .up then r.writeSlot player (·.move .up) else r
    let r := if pkt.has .down then r.writeSlot player (·.move .down) else r
    let r := if pkt.has .left then r.writeSlot player (·.move .left) else r
    let r := if pkt.has .right then r.writeSlot player (·.move .right) else r
    let r := if pkt.has .pressed then r.createPlayerShot pkt.playerId else r
    if pkt.has .hold then r.createPlayerChargedShot pkt.playerId else r

/-- `Game::createEnemy`, with the value of `rand()`. -/
def createEnemy (r : Room F) (rand : ℕ) : Room F :=
  let spawnY : F := ((rand % 1000 + 40 : ℕ) : ℤ)
  if (30.0 : F) < r.game.gameTime then r.spawn 3 1920.0 spawnY (-8.0) 0.0 40 40 []
  else r.spawn 2 1920.0 spawnY (-5.0) 0.0 32 32 []

end

end Room

section

variable [FloatOps F]

/-- The move of one entity in `updateEntities`. -/
def Entity.advance (e : Entity F) : Entity F :=
  { e with x := e.x + e.velocityX, y := e.y + e.velocityY }

/-- The test of `updateEntities` that erases a moved entity. -/
def Entity.leaves (e : Entity F) : Bool :=
  decide (((1920 : ℤ) : F) < e.x) || decide (e.x < ((-20 : ℤ) : F)) || e.isCollide

/-- The message `updateEntities` queues about a moved entity. -/
def Entity.report (e : Entity F) : UdpMsg F :=
  if e.leaves then .entityDestroy e.id else .entityUpdate e.id e.x e.y

/-- `Game::checkCollision` -/
def checkCollision (x1 y1 : F) (w1 h1 : ℤ) (x2 y2 : F) (w2 h2 : ℤ) : Bool :=
  decide (x1 < x2 + (w2 : F)) && decide (x2 < x1 + (w1 : F)) &&
    decide (y1 < y2 + (h2 : F)) && decide (y2 < y1 + (h1 : F))

/-- The new velocities of one entity in `updateGameLevel`. -/
def Entity.steer (e : Entity F) (gameTime : F) (bossLevel : ℤ) : Entity F :=
  let e := if (60.0 : F) < gameTime ∧ (e.type = 2 ∨ e.type = 3) then
      { e with velocityY := 5.0 * FloatOps.sin (gameTime * 2.0 + ((e.id.toNat : ℤ) : F)) }
    else e
  if e.type = 10 then
    if ((1500 : ℤ) : F) < e.x then { e with velocityX := -2.0, velocityY := 0.0 }
    else if bossLevel = 3 then { e with velocityX := 0.0, velocityY := 8.0 * FloatOps.sin (gameTime * 4.0) }
    else { e with velocityX := 0.0, velocityY := 3.0 * FloatOps.sin gameTime }
  else e

end

namespace Room

variable [FloatOps F]

/-- `Game::updateEntities` -/
def updateEntities (r : Room F) : Room F :=
  let moved := r.game.entities.map Entity.advance
  { r with
    game.entities := moved.filter fun e => !e.leaves
    out := r.out ++ moved.flatMap fun e => announce r.game.players [e.report] }

/-- `is_collide = true` on one entity. -/
def flag (r : Room F) (i : ℕ) : Room F :=
  { r with game.entities := r.game.entities.modify i fun e => { e with isCollide := true } }

/-- The boss branch of `handleCollision`, for the boss at position `j` of the list. -/
def hitBoss (r : Room F) (j : ℕ) (damage : ℤ) : Room F :=
  let hp := r.boss.hp - damage
  let maxHp := if r.boss.level = 3 then 2000 else 1000
  let r := ({ r with boss.hp := hp }).broadcast [.bossState hp maxHp]
  if hp ≤ 0 then
    let r := r.flag j
    if r.boss.level = 1 then { r with boss.level := 2, boss.deathTime := r.game.gameTime }
    else if r.boss.level = 3 then { r with boss.level := 4 }
    else r
  else r

/-- One turn of the inner projectile loop of `handleCollision`. -/
def collideProjectile (r : Room F) (i j : ℕ) : Room F :=
  match r.game.entities[i]?, r.game.entities[j]? with
  | some projectile, some enemy =>
    if enemy.type ≠ 2 ∧ enemy.type ≠ 3 ∧ enemy.type ≠ 10 then r
    else if projectile.isCollide || enemy.isCollide then r
    else if checkCollision projectile.x projectile.y projectile.width projectile.height
        enemy.x enemy.y enemy.width enemy.height then
      if enemy.type = 10 then (r.flag i).hitBoss j (if projectile.type = 4 then 50 else 10)
      else (r.flag i).flag j
    else r
  | _, _ => r

/-- One turn of the outer projectile loop of `handleCollision`, over `n` entities. -/
def collideProjectiles (n : ℕ) (r : Room F) (i : ℕ) : Room F :=
  match r.game.entities[i]? with
  | some projectile =>
    if projectile.type ≠ 1 ∧ projectile.type ≠ 4 then r
    else (List.range n).foldl (fun r j => r.collideProjectile i j) r
  | none => r

/-- One turn of the inner player loop of `handleCollision`. -/
def collidePlayer (player : Player F) (r : Room F) (j : ℕ) : Room F :=
  match r.game.entities[j]? with
  | some enemy =>
    if enemy.type ≠ 2 ∧ enemy.type ≠ 3 ∧ enemy.type ≠ 11 then r
    else if enemy.isCollide then r
    else if checkCollision player.x player.y 60 30 enemy.x enemy.y enemy.width enemy.height then r.flag j
    else r
  | none => r

/-- `Game::handleCollision` -/
def handleCollision (r : Room F) : Room F :=
  let n := r.game.entities.length
  let r := (List.range n).foldl (collideProjectiles n) r
  r.game.players.foldl (fun r player => (List.range n).foldl (collidePlayer player) r) r

/-- `Game::updateGameLevel` -/
def updateGameLevel (r : Room F) (elapsedTime : F) : Room F :=
  let gameTime := r.game.gameTime + elapsedTime
  { r with
    game.gameTime := gameTime
    game.entities := r.game.entities.map (·.steer gameTime r.boss.level) }

/-- `Game::sendGlobalStateSync`. A packet over `MAX_UDP_PACKET_SIZE` is cut by
`queueMessage`, so it holds only the records that fit whole. -/
def sendGlobalStateSync (r : Room F) : Room F :=
  let records : List (SyncedEntityState F) := r.game.entities.map fun e => ⟨e.id, e.type, e.x, e.y⟩
  let fitting := (maxUdpPacketSize - sizeofGlobalStateSync) / sizeofSyncedEntityState
  r.broadcast [.globalStateSync (UInt32.ofNat r.game.entities.length) (records.take fitting)]

/-! ## The update of a room -/

/-- The boss level changes of `update`; the result is `bossMaxHP` where `spawnBoss`. -/
def bossStage (r : Room F) : Room F × Option ℤ :=
  if r.boss.level = 0 ∧ (10.0 : F) < r.game.gameTime then
    ({ r with boss.level := 1, boss.hp := 1000 }, some 1000)
  else if r.boss.level = 2 ∧ r.boss.deathTime + 0.0 < r.game.gameTime then
    ({ r with boss.level := 3, boss.hp := 2000 }, some 2000)
  else (r, none)

/-- The spawn of a boss in `update`. -/
def spawnBoss (r : Room F) (bossMaxHP : ℤ) : Room F :=
  r.spawn 10 1600.0 400.0 (-2.0) 0.0 296 88 [.bossState r.boss.hp bossMaxHP]

/-- `bossExists`, `bossX` and `bossY` of `update`. -/
def bossAim (r : Room F) : Option (F × F) :=
  if r.boss.level = 1 ∨ r.boss.level = 3 then
    (r.game.entities.find? (·.type == 10)).map fun e => (e.x, e.y)
  else none

/-- The boss shots of `update`, for a boss seen at `bossX`, `bossY`. -/
def bossShoot (r : Room F) (bossX bossY : F) : Room F :=
  let shootInterval : F := if r.boss.level = 3 then 1.0 else 1.5
  if shootInterval < r.game.gameTime - r.boss.lastShootTime then
    let r := { r with boss.lastShootTime := r.game.gameTime }
    let vyOffsets : List F := if r.boss.level = 3 then [-5.0, 0.0, 5.0] else [0.0]
    vyOffsets.foldl (fun r vy => r.spawn 11 bossX (bossY + ((80 : ℤ) : F)) (-15.0) vy 30 30 []) r
  else r

end Room

/-- What one `update` reads from outside: `rand()` and the steady clock, once for each
test and once for each time point it stores. -/
structure UpdateEnv where
  rand : ℕ
  enemyNow : ℕ
  enemyStored : ℕ
  syncNow : ℕ
  syncStored : ℕ

namespace Room

variable [FloatOps F]

/-- The enemy spawn of `update`, every two seconds. -/
def enemyStage (r : Room F) (env : UpdateEnv) : Room F :=
  if 2000000000 < env.enemyNow - r.game.lastEnemySpawnTime then
    let r := r.createEnemy env.rand
    { r with game.lastEnemySpawnTime := env.enemyStored }
  else r

/-- The synchronization of `update`, every `GLOBAL_SYNC_INTERVAL`. -/
def syncStage (r : Room F) (env : UpdateEnv) : Room F :=
  if 100000000 ≤ env.syncNow - r.game.lastGlobalSyncTime then
    let r := r.sendGlobalStateSync
    { r with game.lastGlobalSyncTime := env.syncStored }
  else r

/-- `Game::update` -/
def update (r : Room F) (env : UpdateEnv) : Room F :=
  if r.game.status ≠ .playing then r
  else
    let r := r.updateEntities
    let r := r.handleCollision
    let r := r.broadcastGameState
    let r := r.updateGameLevel 0.016
    let r := match r.bossStage with
      | (r, some bossMaxHP) => r.spawnBoss bossMaxHP
      | (r, none) => r
    let r := match r.bossAim with
      | some (bossX, bossY) => r.bossShoot bossX bossY
      | none => r
    let r := r.enemyStage env
    r.syncStage env

end Room

end RType

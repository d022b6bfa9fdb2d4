import RType.Lib.Machine
import RType.Spec.ServerManager

/-!
# The threads of a room

Three kinds of threads work on one `Game`: the loop of `ServerManager::run` calls
`update`, the UDP thread calls `handlePlayerInput`, and the TCP threads and the shell
let players in and out. A step of the machine is one section under a mutex of the
`Game`, or one write through a `Player*` that is held outside any mutex.

`updateEntities` is one step too, under `_entitiesMutex`. It takes `_playersMutex` anew for
each entity that it keeps, and reads `_players` without it for each that it destroys; what
the other threads do to the players in the middle of it is left out here.

* `UdpOp`: what is left of a `handlePlayerInput`; the pointer is a slot of `_players`.
* `LoopPc`: where the loop stands inside `update`.
-/

namespace RType

open Lts

variable {F : Type*} [FloatOps F]

/-! ## The UDP thread -/

/-- One write of `handlePlayerInput` through its `Player*`. -/
inductive SlotWrite
  | lastInputTick (tick : UInt32)
  | receivedOne
  | notFirst
  | lost (lostCount : UInt32)
  | received
  | move (i : Input)
deriving DecidableEq

def SlotWrite.apply : SlotWrite → Player F → Player F
  | lastInputTick tick, p => { p with lastInputTick := tick }
  | receivedOne, p => { p with receivedInputs := 1 }
  | notFirst, p => { p with firstInputReceived := false }
  | lost lostCount, p => { p with lostInputs := p.lostInputs + lostCount.toUInt64 }
  | received, p => { p with receivedInputs := p.receivedInputs + 1 }
  | move i, p => p.move i

/-- The writes of the loss statistics, once the tests before them have read the player. -/
def Player.recordWrites {F : Type*} (p : Player F) (tick : UInt32) : List SlotWrite :=
  if p.firstInputReceived then [.lastInputTick tick, .receivedOne, .notFirst]
  else if p.lastInputTick < tick then
    let lostCount := tick - p.lastInputTick - 1
    (if 0 < lostCount then [.lost lostCount] else []) ++ [.received, .lastInputTick tick]
  else []

/-- The movement writes of a packet, in order. -/
def PlayerInputPacket.moves (pkt : PlayerInputPacket) : List SlotWrite :=
  ([.up, .down, .left, .right].filter pkt.has).map .move

/-- What the UDP thread does in one step. `charged` tells `createPlayerChargedShot` from
`createPlayerShot`. -/
inductive UdpOp
  | getPlayer (pkt : PlayerInputPacket)
  | stats (slot : ℕ) (tick : UInt32)
  | write (slot : ℕ) (w : SlotWrite)
  | setTick (tick : UInt32)
  | getShooter (charged : Bool)
  | shoot (slot : ℕ) (charged : Bool)
deriving DecidableEq

/-- The calls of a packet that follow its movement. -/
def PlayerInputPacket.shots (pkt : PlayerInputPacket) : List UdpOp :=
  (if pkt.has .pressed then [.getShooter false] else []) ++
    (if pkt.has .hold then [.getShooter true] else [])

/-- One step of a call for `playerId`: the room after it, and the steps it leads to.
`memory` is what a slot past the end of the vector reads as. -/
def UdpOp.run (playerId : UInt32) (memory : Player F) (r : Room F) : UdpOp → Room F × List UdpOp
  | getPlayer pkt =>
    match r.game.getPlayer playerId with
    | none => (r, [])
    | some slot =>
      (r, .stats slot pkt.tick :: .setTick pkt.tick :: (pkt.moves.map (.write slot) ++ pkt.shots))
  | stats slot tick => (r, ((r.game.players[slot]?.getD memory).recordWrites tick).map (.write slot))
  | write slot w => (r.writeSlot slot w.apply, [])
  | setTick tick => ({ r with game := r.game.setPlayerLastProcessedTick playerId tick }, [])
  | getShooter charged =>
    match r.game.getPlayer playerId with
    | none => (r, [])
    | some slot => (r, [.shoot slot charged])
  | shoot slot charged =>
    let player := r.game.players[slot]?.getD memory
    (if charged then r.spawnChargedShot player.x player.y else r.spawnShot player.x player.y, [])

/-- A call made on the UDP thread. -/
inductive UdpCall
  | handlePlayerInput (pkt : PlayerInputPacket)
  | createPlayerShot (playerId : UInt32)
  | createPlayerChargedShot (playerId : UInt32)

def UdpCall.playerId : UdpCall → UInt32
  | handlePlayerInput pkt => pkt.playerId
  | createPlayerShot playerId => playerId
  | createPlayerChargedShot playerId => playerId

def UdpCall.ops : UdpCall → List UdpOp
  | handlePlayerInput pkt => [.getPlayer pkt]
  | createPlayerShot _ => [.getShooter false]
  | createPlayerChargedShot _ => [.getShooter true]

/-! ## The loop -/

/-- Where the loop stands inside `update`. -/
inductive LoopPc (F : Type*)
  | idle
  | updateEntities
  | handleCollision
  | broadcastGameState
  | updateGameLevel
  | bossStage
  | spawnBoss (bossMaxHP : ℤ)
  | bossAim
  | bossShoot (bossX bossY : F)
  | enemyStage
  | syncStage

/-- One section of `update`. -/
def LoopPc.run (env : UpdateEnv) (r : Room F) : LoopPc F → Room F × LoopPc F
  | idle => (r, if r.game.status = .playing then updateEntities else idle)
  -- one step, with the players as they are at its start
  | updateEntities => (r.updateEntities, handleCollision)
  | handleCollision => (r.handleCollision, broadcastGameState)
  | broadcastGameState => (r.broadcastGameState, updateGameLevel)
  | updateGameLevel => (r.updateGameLevel 0.016, bossStage)
  | bossStage =>
    match r.bossStage with
    | (r, some bossMaxHP) => (r, spawnBoss bossMaxHP)
    | (r, none) => (r, bossAim)
  | spawnBoss bossMaxHP => (r.spawnBoss bossMaxHP, bossAim)
  | bossAim =>
    match r.bossAim with
    | some (bossX, bossY) => (r, bossShoot bossX bossY)
    | none => (r, enemyStage)
  | bossShoot bossX bossY => (r.bossShoot bossX bossY, enemyStage)
  | enemyStage => (r.enemyStage env, syncStage)
  | syncStage => (r.syncStage env, idle)

/-! ## All threads together -/

/-- A room and the threads that work on it. `playerId` is the parameter of the call in
progress on the UDP thread, `ops` what is left of it. -/
structure GameThreads (F : Type*) where
  room : Room F
  playerId : UInt32
  ops : List UdpOp
  loop : LoopPc F

namespace GameThreads

/-- A `Game` just constructed, over the boss entries at its address. -/
def init (boss : Boss F) (now : ℕ) : GameThreads F := ⟨⟨Game.new now, boss, []⟩, 0, [], .idle⟩

/-- What can happen next. -/
inductive Label (F : Type*)
  | call (c : UdpCall)
  | udp (memory : Player F)
  | loop (env : UpdateEnv)
  | updatePlayerUdpAddr (playerId : UInt32) (addr : SockAddr)
  | join (playerId : UInt32) (username : List UInt8)
  | start (playerId : UInt32)
  | removePlayerFromLobby (playerId : UInt32)
  | disconnectPlayer (playerId : UInt32)
  | kickPlayer (playerId : UInt32)

/-- A section of a thread that holds no pointer across sections. -/
def Label.section : Label F → Option (Room F → Room F)
  | updatePlayerUdpAddr playerId addr =>
    some fun r => { r with game := r.game.updatePlayerUdpAddr playerId addr }
  | join playerId username => some (RoomAct.join playerId username).run
  | start playerId => some (RoomAct.start playerId).run
  | removePlayerFromLobby playerId => some (RoomAct.leave playerId).run
  | disconnectPlayer playerId => some (RoomAct.disconnect playerId).run
  | kickPlayer playerId => some (RoomAct.kick playerId).run
  | _ => none

/-- One step of the room's threads. -/
def step (s : GameThreads F) : Label F → Option (GameThreads F)
  | .call c => if s.ops = [] then some { s with playerId := c.playerId, ops := c.ops } else none
  | .udp memory =>
    match s.ops with
    | [] => none
    | op :: rest =>
      let (room, more) := op.run s.playerId memory s.room
      some { s with room, ops := more ++ rest }
  | .loop env =>
    let (room, loop) := s.loop.run env s.room
    some { s with room, loop }
  | l => l.section.map fun f => { s with room := f s.room }

/-- The threads of a room as a machine. -/
def machine : Machine (GameThreads F) (Label F) := ⟨step⟩

end GameThreads

end RType

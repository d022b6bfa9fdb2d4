import Mathlib.Data.List.Basic
import Std.Data.TreeMap
import RType.Spec.Game

/-!
# The client in a game (`Client/RTypeClient.cpp`)

`handleInput` turns the keys of one frame into at most one `PLAYER_INPUT` and
predicts its effect; `handlePacket` is one turn of the receive loop of `update`.
Drawing and explosions are left out: nothing here reads them.
-/

namespace RType

/-- `Position` -/
structure Position (F : Type*) where
  x : F
  y : F
  vy : F
deriving DecidableEq

/-- `EntityState` -/
structure EntityState (F : Type*) where
  x : F
  y : F
  type : UInt16
deriving DecidableEq

/-- `InGameStatus` -/
inductive InGameStatus
  | playing | paused | options | quitting | kicked | gameOver | victory
deriving DecidableEq

/-- `PacketStatus` -/
inductive PacketStatus
  | received | lost
deriving DecidableEq

/-- `PacketEvent` -/
structure PacketEvent where
  status : PacketStatus
  timestamp : UInt32
deriving DecidableEq

/-- The fields of `RTypeClient`, with those of its `GameState` and the two statics of
`handleInput`. -/
structure RTypeClient (F : Type*) where
  myPlayerId : UInt32
  players : Std.TreeMap UInt32 (Position F)
  entities : Std.TreeMap UInt32 (EntityState F)
  rtt : UInt32
  tick : UInt32
  status : InGameStatus
  pendingInputs : List PlayerInputPacket
  isChatActive : Bool
  chatInput : List UInt8
  chatHistory : List (List UInt8)
  score : ℤ
  packetLossPercentage : F
  lastServerSeq : UInt32
  isFirstServerPacket : Bool
  packetEvents : List PacketEvent
  bossHP : ℤ
  bossMaxHP : ℤ
  chargeStart : UInt32
  isCharging : Bool

/-- What `handleInput` reads in one frame: keys, typed characters and the clock. The
four movement keys are those of the key bindings. -/
structure Keys where
  tab : Bool
  enter : Bool
  backspace : Bool
  chars : List ℕ
  up : Bool
  down : Bool
  left : Bool
  right : Bool
  spacePressed : Bool
  spaceReleased : Bool
  now : UInt32

namespace RTypeClient

variable {F : Type*} [FloatOps F]

/-- The constructor, with the player id and the time of the handshake. -/
def new (playerId serverTimeMs : UInt32) : RTypeClient F where
  myPlayerId := playerId
  players := ∅
  entities := ∅
  rtt := 0
  tick := serverTimeMs
  status := .playing
  pendingInputs := []
  isChatActive := false
  chatInput := []
  chatHistory := []
  score := 0
  packetLossPercentage := 0.0
  lastServerSeq := 0
  isFirstServerPacket := true
  packetEvents := []
  bossHP := 0
  bossMaxHP := 1000
  chargeStart := 0
  isCharging := false

/-- The packet the constructor sends: tick 0 and no input. -/
def firstPacket (playerId : UInt32) : PlayerInputPacket := ⟨playerId, 0, 0⟩

/-- The movement of `applyInput`, on one position. -/
def movePosition (pkt : PlayerInputPacket) (p : Position F) : Position F :=
  let p := if pkt.has .up then { p with y := p.y - ((5 : ℤ) : F) } else p
  let p := if pkt.has .down then { p with y := p.y + ((5 : ℤ) : F) } else p
  let p := if pkt.has .left then { p with x := p.x - ((5 : ℤ) : F) } else p
  if pkt.has .right then { p with x := p.x + ((5 : ℤ) : F) } else p

/-- `applyInput` -/
def applyInput (c : RTypeClient F) (pkt : PlayerInputPacket) : RTypeClient F :=
  match c.players[c.myPlayerId]? with
  | some p => { c with players := c.players.insert c.myPlayerId (movePosition pkt p) }
  | none => c

/-! ## Input -/

/-- The space bar of `handleInput`: a short press shoots on release, a long one fires a
charged shot. The result is the bit set. -/
def chargeShot (c : RTypeClient F) (k : Keys) : RTypeClient F × UInt8 :=
  if k.spacePressed then
    (if c.isCharging then c else { c with chargeStart := k.now, isCharging := true }, 0)
  else if k.spaceReleased && c.isCharging then
    ({ c with isCharging := false },
      if 500 < k.now - c.chargeStart then Input.hold.bit else Input.pressed.bit)
  else (c, 0)

/-- The movement bits of `handleInput`. -/
def moveBits (k : Keys) : UInt8 :=
  (if k.up then Input.up.bit else 0) ||| (if k.down then Input.down.bit else 0) |||
    (if k.left then Input.left.bit else 0) ||| (if k.right then Input.right.bit else 0)

/-- The chat branch of `handleInput`; the result is the message sent over TCP. -/
def typeChat (c : RTypeClient F) (k : Keys) : RTypeClient F × Option (List UInt8) :=
  if k.enter then
    if c.chatInput = [] then ({ c with isChatActive := false }, none)
    else
      ({ c with
          isChatActive := false
          chatHistory := c.chatHistory ++ [[77, 101, 58, 32] ++ c.chatInput]
          chatInput := [] }, some c.chatInput)
  else
    let typed := (k.chars.filter fun key => 32 ≤ key ∧ key ≤ 125).map UInt8.ofNat
    let chatInput := c.chatInput ++ typed
    ({ c with chatInput := if k.backspace then chatInput.dropLast else chatInput }, none)

/-- What one frame sends. -/
structure Sends where
  input : Option PlayerInputPacket
  chat : Option (List UInt8)

/-- The input branch of `handleInput`: the packet of this frame, applied at once and kept
while it is not acknowledged, unless it is empty. -/
def sendInput (c : RTypeClient F) (k : Keys) : RTypeClient F × PlayerInputPacket :=
  let tick := c.tick
  let (c, shot) := ({ c with tick := tick + 1 }).chargeShot k
  let pkt : PlayerInputPacket := ⟨c.myPlayerId, tick, moveBits k ||| shot⟩
  if pkt.inputs ≠ 0 then
    let c := c.applyInput pkt
    ({ c with pendingInputs := c.pendingInputs ++ [pkt] }, pkt)
  else (c, pkt)

/-- `handleInput` -/
def handleInput (c : RTypeClient F) (k : Keys) : RTypeClient F × Sends :=
  if k.tab then ({ c with isChatActive := !c.isChatActive }, ⟨none, none⟩)
  else if c.isChatActive then
    let (c, chat) := c.typeChat k
    (c, ⟨none, chat⟩)
  else
    let (c, pkt) := c.sendInput k
    (c, ⟨some pkt, none⟩)

/-! ## Packets -/

/-- `PACKET_LOSS_WINDOW_SECONDS * 1000` -/
def packetLossWindowMs : UInt32 := 5000

/-- The loss window of `update`: the events of one own `PLAYER_STATE`, the pruning and
the percentage. -/
def recordState (c : RTypeClient F) (now sequence : UInt32) : RTypeClient F :=
  let c :=
    if c.isFirstServerPacket then
      { c with
        lastServerSeq := sequence
        packetEvents := c.packetEvents ++ [⟨.received, now⟩]
        isFirstServerPacket := false }
    else if c.lastServerSeq < sequence then
      let lostCount := sequence - c.lastServerSeq - 1
      { c with
        packetEvents := c.packetEvents ++ List.replicate lostCount.toNat ⟨.lost, now⟩ ++ [⟨.received, now⟩]
        lastServerSeq := sequence }
    else c
  let cutoffTime := now - packetLossWindowMs
  let events := c.packetEvents.dropWhile fun e => e.timestamp < cutoffTime
  let lostInWindow := (events.filter (·.status = .lost)).length
  { c with
    packetEvents := events
    packetLossPercentage :=
      if events = [] then 0.0 else ((lostInWindow : ℤ) : F) / ((events.length : ℤ) : F) * 100.0 }

/-- A `PLAYER_STATE` of the own player: take the position of the server, drop the
acknowledged inputs and apply the others again. -/
def reconcile (c : RTypeClient F) (lastProcessedTick : UInt32) (x y : F) : RTypeClient F :=
  let c := { c with
    players := c.players.insert c.myPlayerId ⟨x, y, 0.0⟩
    pendingInputs := c.pendingInputs.dropWhile fun i => i.tick ≤ lastProcessedTick }
  c.pendingInputs.foldl applyInput c

/-- A `PLAYER_STATE` of another player. -/
def moveOther (c : RTypeClient F) (playerId : UInt32) (x y : F) : RTypeClient F :=
  let vy : F := match c.players[playerId]? with
    | some p => y - p.y
    | none => 0.0
  { c with players := c.players.insert playerId ⟨x, y, vy⟩ }

/-- The records the loop of `GLOBAL_STATE_SYNC` reads: as many as the header says while
they lie in the 1024 bytes of the buffer, which are zero past the datagram. -/
def syncedRecords (entityCount : UInt32) (records : List (SyncedEntityState F)) :
    List (SyncedEntityState F) :=
  let fitting := (maxUdpPacketSize - sizeofGlobalStateSync) / sizeofSyncedEntityState
  (List.range (min entityCount.toNat fitting)).map fun i => records.getD i ⟨0, 0, 0.0, 0.0⟩

/-- The records of a datagram are those of the list, as far as the header and the buffer say. -/
theorem syncedRecords_eq_take {entityCount : UInt32} {records : List (SyncedEntityState F)}
    (h : min entityCount.toNat 72 ≤ records.length) :
    syncedRecords entityCount records = records.take (min entityCount.toNat 72) := by
  unfold syncedRecords
  extract_lets fitting
  have hfitting : fitting = 72 := rfl
  rw [hfitting]
  refine List.ext_getElem (by simp [h]) fun i h₁ h₂ => ?_
  have hi : i < records.length := lt_of_lt_of_le (List.length_take ▸ h₂) (Nat.min_le_right _ _)
  rw [List.getElem_map, List.getElem_range, List.getElem_take, List.getD_eq_getElem?_getD, List.getElem?_eq_getElem hi,
    Option.getD_some]

/-- The first id that the client takes for an entity of its own. -/
def firstLocalId : UInt32 := 9999

/-- `GLOBAL_STATE_SYNC`: keep the local entities, replace all others. -/
def syncEntities (c : RTypeClient F) (entityCount : UInt32) (records : List (SyncedEntityState F)) :
    RTypeClient F :=
  let localEntities := c.entities.filter fun id _ => firstLocalId ≤ id
  { c with
    entities := (syncedRecords entityCount records).foldl
      (fun m s => m.insert s.entityId ⟨s.x, s.y, s.entityType⟩) localEntities }

/-- `ENTITY_DESTROY` -/
def destroyEntity (c : RTypeClient F) (entityId : UInt32) : RTypeClient F :=
  let points := match c.entities[entityId]? with
    | some e => if e.type = 2 then 50 else if e.type = 3 then 100 else 0
    | none => 0
  { c with score := c.score + points, entities := c.entities.erase entityId }

/-- One turn of the receive loop of `update`, at time `now` of the client's clock. -/
def handlePacket (c : RTypeClient F) (now : UInt32) : UdpMsg F → RTypeClient F
  | .playerState playerId sequence lastProcessedTick x y =>
    if playerId = c.myPlayerId then
      if c.status = .gameOver then c
      else (c.recordState now sequence).reconcile lastProcessedTick x y
    else c.moveOther playerId x y
  | .entitySpawn entityId entityType x y =>
    { c with entities := c.entities.insert entityId ⟨x, y, entityType⟩ }
  | .entityUpdate entityId x y =>
    match c.entities[entityId]? with
    | some e => { c with entities := c.entities.insert entityId { e with x, y } }
    | none => c
  | .entityDestroy entityId => c.destroyEntity entityId
  | .playerDisconnect playerId =>
    { c with
      players := c.players.erase playerId
      status := if playerId = c.myPlayerId then .gameOver else c.status }
  | .pong timestamp => { c with rtt := now - timestamp }
  | .globalStateSync entityCount records => c.syncEntities entityCount records
  | .youHaveBeenKicked => { c with status := .kicked }
  | .bossState hp maxHp => { c with bossHP := hp, bossMaxHP := maxHp }

end RTypeClient

end RType

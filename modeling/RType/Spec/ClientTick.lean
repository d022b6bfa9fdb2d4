import RType.Spec.Datagrams

/-!
# A frame of the client (`RTypeClient::tick`)

`tick` runs once for each frame drawn. What it reads from outside is a `Frame`: the keys, the
clock, the datagrams at the socket, and what the player chooses in the menus. Its result is
the client and what it sent over UDP.
-/

namespace RType

variable {F : Type*}

/-! ## Boxes -/

/-- What `tick` reads of an `EntityRenderConfig`. -/
structure EntityRenderConfig (F : Type*) where
  width : F
  height : F
  scale : F

/-- raylib's `Rectangle` -/
structure Rectangle (F : Type*) where
  x : F
  y : F
  width : F
  height : F

section

variable [FloatOps F]

/-- `ENTITY_REGISTRY` -/
def entityRegistry (type : UInt16) : Option (EntityRenderConfig F) :=
  if type = 1 then some ⟨0.0, 0.0, 1.0⟩
  else if type = 2 then some ⟨17.0, 18.0, 2.0⟩
  else if type = 3 then some ⟨33.0, 36.0, 2.5⟩
  else if type = 4 then some ⟨29.0, 30.0, 3.0⟩
  else if type = 10 then some ⟨593.0, 177.0, 0.5⟩
  else if type = 11 then some ⟨0.0, 0.0, 1.0⟩
  else none

/-- `w` of `tick` -/
def EntityRenderConfig.w (config : EntityRenderConfig F) : F :=
  (if ((0 : ℤ) : F) < config.width then config.width else 33.0) * config.scale

/-- `h` of `tick` -/
def EntityRenderConfig.h (config : EntityRenderConfig F) : F :=
  (if ((0 : ℤ) : F) < config.height then config.height else 33.0) * config.scale

/-- `entityRec` -/
def EntityState.entityRec (e : EntityState F) : Rectangle F :=
  match entityRegistry e.type with
  | some config => ⟨e.x, e.y, config.w, config.h⟩
  | none => ⟨e.x, e.y, 40.0, 40.0⟩

/-- `playerRec` -/
def Position.playerRec (p : Position F) : Rectangle F := ⟨p.x, p.y, 60.0, 30.0⟩

/-- raylib's `CheckCollisionRecs` -/
def checkCollisionRecs (rec1 rec2 : Rectangle F) : Bool :=
  decide (rec1.x < rec2.x + rec2.width) && decide (rec2.x < rec1.x + rec1.width) &&
    decide (rec1.y < rec2.y + rec2.height) && decide (rec2.y < rec1.y + rec1.height)

/-- One turn of the loop of `tick` over the entities: does this one kill the player? -/
def Position.killedBy (p : Position F) (e : EntityState F) : Bool :=
  if e.type = 1 ∨ e.type = 4 ∨ e.type = 5 then false else checkCollisionRecs p.playerRec e.entityRec

end

/-! ## Frames -/

/-- `PauseMenuChoice` -/
inductive PauseMenuChoice
  | none | options | quit
deriving DecidableEq

/-- What one `tick` reads from outside. `enter` is among the keys. Each datagram comes with
the time of the clock when it is handled. -/
structure Frame where
  escape : Bool
  keys : Keys
  scoreNow : UInt32
  scoreStored : UInt32
  chatMessages : List (List UInt8)
  now : UInt32
  datagrams : List (UInt32 × List UInt8)
  choice : PauseMenuChoice
  back : Bool

/-- A client with the times that `tick` and `update` keep. -/
structure TickingClient (F : Type*) where
  client : RTypeClient F
  lastScoreIncreaseTime : UInt32
  lastPingTime : UInt32

namespace TickingClient

variable [FloatOps F]

/-- The constructor, with the player id and the time of the handshake. -/
def new (playerId serverTimeMs : UInt32) : TickingClient F := ⟨.new playerId serverTimeMs, 0, 0⟩

/-! ## `update` -/

/-- The receive loop of `update`, which ends where nothing is received. -/
def receiveAll (float : UInt32 → F) (c : RTypeClient F) : List (UInt32 × List UInt8) → RTypeClient F
  | [] => c
  | (now, datagram) :: rest =>
    if (receiveMessage datagram).isNone then c else receiveAll float (c.receive float now datagram) rest

/-- The part of `update` before the receive loop: the chat messages and the ping. -/
def ping (s : TickingClient F) (f : Frame) : TickingClient F × List ClientMsg :=
  let s := { s with client.chatHistory := s.client.chatHistory ++ f.chatMessages }
  if 1000 < f.now - s.lastPingTime then ({ s with lastPingTime := f.now }, [.ping f.now]) else (s, [])

/-- `update` -/
def update (float : UInt32 → F) (s : TickingClient F) (f : Frame) : TickingClient F × List ClientMsg :=
  let (s, sent) := s.ping f
  ({ s with client := receiveAll float s.client f.datagrams }, sent)

/-! ## `tick` -/

/-- The score of a frame in play. -/
def scoreTime (s : TickingClient F) (f : Frame) : TickingClient F :=
  if 1000 ≤ f.scoreNow - s.lastScoreIncreaseTime then
    { s with client.score := s.client.score + 5, lastScoreIncreaseTime := f.scoreStored }
  else s

/-- The collision test of a frame in play: the player dies and leaves. -/
def collide (s : TickingClient F) : TickingClient F × List ClientMsg :=
  match s.client.players[s.client.myPlayerId]? with
  | some player =>
    if s.client.entities.toList.any fun e => player.killedBy e.2 then
      ({ s with
          client.status := .gameOver
          client.players := s.client.players.erase s.client.myPlayerId },
        [.playerDisconnect s.client.myPlayerId])
    else (s, [])
  | none => (s, [])

/-- The case `PLAYING` of `tick` up to `update`. -/
def play (s : TickingClient F) (f : Frame) : TickingClient F × List ClientMsg :=
  let s := if f.escape then { s with client.status := .paused } else s
  let s := s.scoreTime f
  let (s, left) := s.collide
  let (client, sends) := s.client.handleInput f.keys
  ({ s with client }, left ++ (sends.input.map .playerInput).toList)

/-- The switch of `tick`, up to the `update` of those cases that have one. -/
def enter (s : TickingClient F) (f : Frame) : TickingClient F × List ClientMsg :=
  match s.client.status with
  | .playing => s.play f
  | .paused => (if f.escape then { s with client.status := .playing } else s, [])
  | .options => (if f.escape then { s with client.status := .paused } else s, [])
  | .gameOver | .victory => (if f.keys.enter then { s with client.status := .quitting } else s, [])
  | .quitting | .kicked => (s, [])

/-- The cases of the switch that call `update`. -/
def updates (status : InGameStatus) : Bool := status = .playing ∨ status = .gameOver ∨ status = .victory

/-- The switch of `tick`. -/
def switch (float : UInt32 → F) (s : TickingClient F) (f : Frame) : TickingClient F × List ClientMsg :=
  let (entered, sent) := s.enter f
  if updates s.client.status then
    let (updated, pinged) := entered.update float f
    (if s.client.status = .victory then { updated with client.entities := ∅ } else updated, sent ++ pinged)
  else (entered, sent)

/-- The menus at the end of `tick`. -/
def menus (s : TickingClient F) (f : Frame) : TickingClient F × List ClientMsg :=
  if s.client.status = .paused then
    match f.choice with
    | .options => ({ s with client.status := .options }, [])
    | .quit => ({ s with client.status := .quitting }, [.playerDisconnect s.client.myPlayerId])
    | .none => (s, [])
  else if s.client.status = .options then
    (if f.back then { s with client.status := .paused } else s, [])
  else (s, [])

/-- `tick` -/
def tick (float : UInt32 → F) (s : TickingClient F) (f : Frame) : TickingClient F × List ClientMsg :=
  let (switched, sent) := s.switch float f
  let (s, quit) := switched.menus f
  (s, sent ++ quit)

end TickingClient

end RType

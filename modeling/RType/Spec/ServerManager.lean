import RType.Lib.Maps
import RType.Spec.TCPServer

/-!
# The server (`Server/ServerManager.cpp`)

`ServerManager` owns the rooms and answers the callbacks of both network servers.
The static boss maps of `Game.cpp` are part of its state: they outlive every `Game`.
A method of a `Game` runs on the room made of that game and the boss entries at its
address.

`RoomAct` lists what the callbacks, the shell and the run loop do to one room.
-/

namespace RType

variable {F : Type*} [FloatOps F]

/-! ## One room -/

/-- What can be done to a room as one atomic step. -/
inductive RoomAct
  | join (playerId : UInt32) (username : List UInt8)
  | leave (playerId : UInt32)
  | start (playerId : UInt32)
  | input (pkt : PlayerInputPacket) (addr : SockAddr)
  | disconnect (playerId : UInt32)
  | kick (playerId : UInt32)
  | update (env : UpdateEnv)

/-- The room's part of `onJoinRoom`: a room that has started takes nobody. -/
def Room.join (r : Room F) (playerId : UInt32) (username : List UInt8) : Room F :=
  if r.game.status = .lobby then { r with game := r.game.addPlayer playerId username } else r

/-- The room's part of `onStartGame`: only the host starts a room. -/
def Room.start (r : Room F) (playerId : UInt32) : Room F :=
  if playerId = r.game.getHostId then { r with game.status := .playing } else r

/-- The room's part of `PLAYER_INPUT` in `onMessageReceived`. -/
def Room.input (r : Room F) (pkt : PlayerInputPacket) (addr : SockAddr) : Room F :=
  ({ r with game := r.game.updatePlayerUdpAddr pkt.playerId addr }).handlePlayerInput pkt

/-- The effect of an act on its room. -/
def RoomAct.run : RoomAct → Room F → Room F
  | join playerId username, r => r.join playerId username
  | leave playerId, r => { r with game := r.game.removePlayerFromLobby playerId }
  | start playerId, r => r.start playerId
  | input pkt addr, r => r.input pkt addr
  | disconnect playerId, r => r.disconnectPlayer playerId
  | kick playerId, r => r.kickPlayer playerId
  | update env, r => r.update env

/-! ## All rooms -/

/-- A `Game` and its address. -/
structure RoomEntry (F : Type*) where
  addr : ℕ
  game : Game F

/-- The fields of `ServerManager`, the static boss maps and the messages queued on the
UDP server. -/
structure ServerManager (F : Type*) where
  rooms : Std.TreeMap ℤ (RoomEntry F)
  nextRoomId : ℤ
  boss : ℕ → Boss F
  out : List (Sent F)

namespace ServerManager

/-- The server when it starts. -/
def init : ServerManager F := ⟨∅, 0, fun _ => Boss.none, []⟩

/-- Do something to one room. -/
def onRoom (m : ServerManager F) (roomId : ℤ) (f : Room F → Room F) : ServerManager F :=
  match m.rooms[roomId]? with
  | some e =>
    let r := f ⟨e.game, m.boss e.addr, []⟩
    { m with
      rooms := m.rooms.insert roomId { e with game := r.game }
      boss := Function.update m.boss e.addr r.boss
      out := m.out ++ r.out }
  | none => m

omit [FloatOps F] in
theorem onRoom_of_some {m : ServerManager F} {roomId : ℤ} {e : RoomEntry F} (h : m.rooms[roomId]? = some e)
    (f : Room F → Room F) :
    m.onRoom roomId f = { m with
      rooms := m.rooms.insert roomId { e with game := (f ⟨e.game, m.boss e.addr, []⟩).game }
      boss := Function.update m.boss e.addr (f ⟨e.game, m.boss e.addr, []⟩).boss
      out := m.out ++ (f ⟨e.game, m.boss e.addr, []⟩).out } := by
  rw [onRoom, h]

omit [FloatOps F] in
theorem onRoom_of_none {m : ServerManager F} {roomId : ℤ} (h : m.rooms[roomId]? = none) (f : Room F → Room F) :
    m.onRoom roomId f = m := by
  rw [onRoom, h]

omit [FloatOps F] in
/-- Doing something to one room leaves the others as they are. -/
theorem onRoom_of_ne {m : ServerManager F} {roomId roomId' : ℤ} (h : roomId' ≠ roomId) (f : Room F → Room F) :
    (m.onRoom roomId f).rooms[roomId']? = m.rooms[roomId']? := by
  cases hr : m.rooms[roomId]? with
  | none => rw [onRoom_of_none hr]
  | some e =>
    rw [onRoom_of_some hr, Maps.getElem?_insert, if_neg h]

omit [FloatOps F] in
theorem onRoom_self {m : ServerManager F} {roomId : ℤ} {e : RoomEntry F} (h : m.rooms[roomId]? = some e)
    (f : Room F → Room F) :
    (m.onRoom roomId f).rooms[roomId]? = some { e with game := (f ⟨e.game, m.boss e.addr, []⟩).game } := by
  rw [onRoom_of_some h, Std.TreeMap.getElem?_insert_self]

/-! ### Callbacks of the TCP server -/

/-- `onCreateRoom` -/
def onCreateRoom (m : ServerManager F) (fresh : Fresh) : ℤ × ServerManager F :=
  (m.nextRoomId, { m with
    nextRoomId := m.nextRoomId + 1
    rooms := m.rooms.insert m.nextRoomId ⟨fresh.addr, Game.new fresh.now⟩ })

/-- `onGetRooms` -/
def onGetRooms (m : ServerManager F) : List RoomSimpleInfo :=
  m.rooms.toList.map fun e => ⟨e.1, e.2.game.getPlayerCount⟩

/-- `onJoinRoom` -/
def onJoinRoom (m : ServerManager F) (roomId : ℤ) (playerId : UInt32) (username : List UInt8) :
    Bool × ServerManager F :=
  match m.rooms[roomId]? with
  | some e =>
    if e.game.status = .lobby then (true, m.onRoom roomId (RoomAct.join playerId username).run)
    else (false, m)
  | none => (false, m)

/-- `isGameStarting` -/
def isGameStarting (m : ServerManager F) (roomId : ℤ) : Bool :=
  match m.rooms[roomId]? with
  | some e => e.game.status = .playing
  | none => false

/-- `onPlayerDisconnect` -/
def onPlayerDisconnect (m : ServerManager F) (playerId : UInt32) (roomId : ℤ) : ServerManager F :=
  m.onRoom roomId (RoomAct.leave playerId).run

/-- `onGetLobbyState` -/
def onGetLobbyState (m : ServerManager F) (roomId : ℤ) : UInt32 × List (UInt32 × List UInt8) :=
  match m.rooms[roomId]? with
  | some e => (e.game.getHostId, e.game.players.map fun p => (p.id, p.username))
  | none => (0, [])

/-- `onStartGame` -/
def onStartGame (m : ServerManager F) (roomId : ℤ) (playerId : UInt32) : ServerManager F :=
  m.onRoom roomId (RoomAct.start playerId).run

/-- `ServerManager` as the handler of the TCP server. -/
def handler : ITCPHandler (ServerManager F) :=
  { onCreateRoom, onJoinRoom, onGetLobbyState, onStartGame, onPlayerDisconnect, onGetRooms, isGameStarting }

/-! ### Datagrams, the shell and the run loop -/

/-- The first room that has the player, in the order of the map. -/
def findRoom (m : ServerManager F) (playerId : UInt32) : Option ℤ :=
  (m.rooms.toList.find? fun e => (e.2.game.getPlayer playerId).isSome).map (·.1)

/-- `onMessageReceived` -/
def onMessageReceived (m : ServerManager F) (data : List UInt8) (clientAddr : SockAddr) : ServerManager F :=
  match ClientMsg.parse data with
  | some (.playerInput pkt) =>
    match m.findRoom pkt.playerId with
    | some roomId => m.onRoom roomId (RoomAct.input pkt clientAddr).run
    | none => m
  | some (.playerDisconnect playerId) =>
    match m.findRoom playerId with
    | some roomId => m.onRoom roomId (RoomAct.disconnect playerId).run
    | none => m
  | some (.ping timestamp) => { m with out := m.out ++ [⟨none, clientAddr, .pong timestamp⟩] }
  | none => m

/-- The shell commands that change the rooms. -/
inductive Command
  | create (fresh : Fresh)
  | delete (roomId : ℤ)
  | kick (playerId : UInt32)

/-- `processCommand`, as far as the rooms go. -/
def processCommand (m : ServerManager F) : Command → ServerManager F
  | .create fresh => (m.onCreateRoom fresh).2
  | .delete roomId => { m with rooms := m.rooms.erase roomId }
  | .kick playerId =>
    match m.findRoom playerId with
    | some roomId => m.onRoom roomId (RoomAct.kick playerId).run
    | none => m

/-- One pass of the loop of `run`: every room is updated, in the order of the map. -/
def updateRooms (m : ServerManager F) (env : ℤ → UpdateEnv) : ServerManager F :=
  m.rooms.keys.foldl (fun m roomId => m.onRoom roomId (RoomAct.update (env roomId)).run) m

/-- What the threads other than those of the connections do to the server. -/
inductive Event
  | datagram (data : List UInt8) (clientAddr : SockAddr)
  | command (c : Command)
  | pass (env : ℤ → UpdateEnv)

/-- The effect of an event. -/
def react : Event → ServerManager F → ServerManager F
  | .datagram data clientAddr, m => m.onMessageReceived data clientAddr
  | .command c, m => m.processCommand c
  | .pass env, m => m.updateRooms env

end ServerManager

end RType

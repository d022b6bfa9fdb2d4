import RType.Lib.Dialogue
import RType.Spec.ProtocoleTCP

/-!
# Choosing a room (`Client/ClientManager.cpp`, `Network/TCPClient.cpp`)

Once a frame `ClientManager::run` asks for the list of rooms, now and then, and starts or
continues what the player has asked for: `createRoom` and `joinRoom` send a request and are
called again, frame after frame, until the response is there. All of it reads from one socket,
which is non-blocking but for the reads of a response that has begun to arrive.

The frames are programs over that socket; at its other end a server answers the requests in
order, each after any delay, and what it writes arrives in pieces of any size.
-/

namespace RType

open Wire Dialogue Lts

/-- `RoomInfo` -/
structure RoomInfo where
  id : ℤ
  playerCount : ℤ
  maxPlayers : ℤ
deriving DecidableEq

/-- A `RoomInfo` as it lies in memory. -/
def RoomInfo.ofBytes (bs : List UInt8) : RoomInfo :=
  ⟨ofLeInt (bs.take 4), ofLeInt ((bs.drop 4).take 4), ofLeInt (bs.drop 8)⟩

namespace RoomSelection

/-! ## The socket -/

/-- What a room selection is judged by: a request sent, and what a call of `createRoom` or
`joinRoom` returns. -/
inductive Event
  | sent (request : ClientFrame)
  | createRoom (returned : Option Int32)
  | joinRoom (returned : Option Bool)

/-- What the client does with its socket; `note` stands for nothing in the source. -/
inductive SocketOp
  | write (request : ClientFrame)
  | available
  | read (n : ℕ)
  | nonBlocking (mode : Bool)
  | note (e : Event)

/-- A write says whether it has failed. A read has failed where it returns fewer bytes than
it was asked for. -/
abbrev SocketOp.Result : SocketOp → Type
  | write _ => Bool
  | available => ℕ
  | read _ => List UInt8
  | nonBlocking _ => Unit
  | note _ => Unit

/-- A program over the socket. -/
abbrev SocketM := Prog SocketOp SocketOp.Result

def write (request : ClientFrame) : SocketM Bool := .call (SocketOp.write request)

def available : SocketM ℕ := .call SocketOp.available

def read (n : ℕ) : SocketM (List UInt8) := .call (SocketOp.read n)

def nonBlocking (mode : Bool) : SocketM Unit := .call (SocketOp.nonBlocking mode)

def note (e : Event) : SocketM Unit := .call (SocketOp.note e)

/-! ## The requests (`TCPClient`) -/

/-- `RequestState` -/
inductive RequestState
  | idle | sentRequest | receivedType | receivedData
deriving DecidableEq

/-- A request on its way: `_createRoomState` and `_createRoomPendingRespType`, or those of
the join. -/
structure Request where
  state : RequestState
  pendingRespType : UInt8
deriving DecidableEq

/-- What a call for a request comes to: `std::nullopt`, an error, or the `int` of the response. -/
inductive Reply
  | pending
  | failed
  | value (n : Int32)

/-- What `createRoom` and `joinRoom` share: the state machine of a request whose response has
the type `awaited`. -/
def Request.poll (request : ClientFrame) (awaited : TCPMessageType) (r : Request) : SocketM (Reply × Request) :=
  match r.state with
  | .idle => do
    let ec ← write request
    if ec then return (.failed, r)
    else return (.pending, { r with state := .sentRequest })
  | .sentRequest => do
    if (← available) < 1 then return (.pending, r)
    else
      nonBlocking false
      let respType ← read 1
      if respType.length < 1 then
        nonBlocking true
        return (.failed, { r with state := .idle })
      else if respType.headD 0 = awaited.code then
        let value ← read 4
        nonBlocking true
        if value.length < 4 then return (.failed, ⟨.idle, 0⟩)
        else return (.value (ofLe32 value).toInt32, ⟨.idle, 0⟩)
      else if respType.headD 0 = TCPMessageType.connectError.code then
        let _ ← read 64
        nonBlocking true
        return (.failed, ⟨.idle, 0⟩)
      else if respType.headD 0 = TCPMessageType.listRoomsResponse.code then
        -- a list that `getRooms` has not read
        let count ← read 4
        if count.length = 4 ∧ 0 < ofLeInt count then
          let _ ← read ((ofLeInt count).toNat * 12)
          nonBlocking true
          return (.pending, { r with pendingRespType := respType.headD 0 })
        else
          nonBlocking true
          return (.pending, { r with pendingRespType := respType.headD 0 })
      else
        nonBlocking true
        return (.failed, ⟨.idle, 0⟩)
  | _ => return (.failed, { r with state := .idle })

/-- What a `TCPClient` keeps of its requests, and the static `cachedRooms` of `getRooms`. -/
structure TCPClient where
  createRoomRequest : Request
  joinRoomRequest : Request
  cachedRooms : List RoomInfo
deriving DecidableEq

/-- The loop over the rooms of a `LIST_ROOMS_RESPONSE`. Of a record that is not read whole, the
bytes missing are those of an uninitialized `RoomInfo`; they stand as zeros. -/
def readRooms : ℕ → SocketM (List RoomInfo)
  | 0 => return []
  | n + 1 => do
    let info ← read 12
    let rooms ← readRooms n
    return RoomInfo.ofBytes (padded 12 info) :: rooms

namespace TCPClient

variable (c : TCPClient)

/-- `getRooms`, which takes no notice of errors. -/
def getRooms : SocketM (List RoomInfo × TCPClient) := do
  let _ ← write .listRooms
  if (← available) < 5 then return (c.cachedRooms, c)
  else
    let respType ← read 1
    if respType.headD 0 ≠ TCPMessageType.listRoomsResponse.code then return (c.cachedRooms, c)
    else
      let count ← read 4
      let newRooms ← readRooms (ofLeInt (padded 4 count)).toNat
      return (newRooms, { c with cachedRooms := newRooms })

/-- `createRoom` -/
def createRoom : SocketM (Option Int32 × TCPClient) := do
  let (reply, createRoomRequest) ← c.createRoomRequest.poll .createRoom .createRoomResponse
  let returned := match reply with
    | .pending => none
    | .failed => some (-1)
    | .value roomId => some roomId
  return (returned, { c with createRoomRequest })

/-- `joinRoom` -/
def joinRoom (roomId : Int32) : SocketM (Option Bool × TCPClient) := do
  let (reply, joinRoomRequest) ← c.joinRoomRequest.poll (.joinRoom roomId) .joinRoomResponse
  let returned := match reply with
    | .pending => none
    | .failed => some false
    | .value status => some (decide (status = 1))
  return (returned, { c with joinRoomRequest })

end TCPClient

/-! ## The frames (`ClientManager::run`) -/

/-- `ClientState` -/
inductive ClientState
  | usernameInput | mainMenu | options | roomSelection | lobby | inGame | kicked | exiting
deriving DecidableEq

/-- What a `ClientManager` has for choosing a room. -/
structure ClientManager where
  currentState : ClientState
  rooms : List RoomInfo
  createRoomInitiated : Bool
  joinRoomInitiated : Bool
  createRoomResponse : Option Int32
  joinRoomResponse : Option Bool
  roomToJoin : Int32
  tcpClient : TCPClient
deriving DecidableEq

namespace ClientManager

variable (m : ClientManager)

/-- `_createRoomResponse = _tcpClient.createRoom()` -/
def callCreateRoom : SocketM ClientManager := do
  let (createRoomResponse, tcpClient) ← m.tcpClient.createRoom
  note (.createRoom createRoomResponse)
  return { m with createRoomResponse, tcpClient }

/-- `_joinRoomResponse = _tcpClient.joinRoom(_roomToJoin)` -/
def callJoinRoom : SocketM ClientManager := do
  let (joinRoomResponse, tcpClient) ← m.tcpClient.joinRoom m.roomToJoin
  note (.joinRoom joinRoomResponse)
  return { m with joinRoomResponse, tcpClient }

/-- The list of rooms, if it is `due`: `now - _lastRoomUpdate > 1.0`. -/
def updateRooms (due : Bool) : SocketM ClientManager := do
  if due ∧ !m.createRoomInitiated ∧ !m.joinRoomInitiated then
    let (rooms, tcpClient) ← m.tcpClient.getRooms
    return { m with rooms, tcpClient }
  else return m

/-- The player asks for a new room. -/
def startCreate (action : Int32) : SocketM ClientManager := do
  if action = -2 ∧ !m.createRoomInitiated ∧ !m.joinRoomInitiated then
    callCreateRoom { m with createRoomInitiated := true }
  else return m

/-- What becomes of a response to the creation: the new room is joined. -/
def handleCreate : SocketM ClientManager :=
  match m.createRoomResponse with
  | some newRoomId =>
    if 0 ≤ newRoomId then do
      let m ← callJoinRoom { m with joinRoomInitiated := true, roomToJoin := newRoomId }
      return { m with createRoomInitiated := false, createRoomResponse := none }
    else return { m with createRoomInitiated := false, createRoomResponse := none }
  | none => return m

/-- A creation on its way. -/
def awaitCreate : SocketM ClientManager := do
  if m.createRoomInitiated then
    if m.createRoomResponse.isNone then
      let m ← m.callCreateRoom
      m.handleCreate
    else m.handleCreate
  else return m

/-- The player asks for a room of the list. -/
def startJoin (action : Int32) : SocketM ClientManager := do
  if 0 ≤ action ∧ !m.createRoomInitiated ∧ !m.joinRoomInitiated then
    callJoinRoom { m with joinRoomInitiated := true, roomToJoin := action }
  else return m

/-- What becomes of a response to the join. -/
def handleJoin : ClientManager :=
  match m.joinRoomResponse with
  | some ok =>
    { m with
      currentState := if ok then .lobby else m.currentState
      joinRoomInitiated := false
      joinRoomResponse := none
      roomToJoin := -1 }
  | none => m

/-- A join on its way. -/
def awaitJoin : SocketM ClientManager := do
  if m.joinRoomInitiated then
    if m.joinRoomResponse.isNone then
      let m ← m.callJoinRoom
      return m.handleJoin
    else return m.handleJoin
  else return m

/-- The `ROOM_SELECTION` branch of `run` on a connection; `action` is what `drawRoomMenu`
returns. -/
def roomSelection (due : Bool) (action : Int32) : SocketM ClientManager := do
  let m ← m.updateRooms due
  let m ← m.startCreate action
  let m ← m.awaitCreate
  let m ← m.startJoin action
  m.awaitJoin

/-- A client that has just connected. -/
def init : ClientManager :=
  ⟨.roomSelection, [], false, false, none, none, -1, ⟨⟨.idle, 0⟩, ⟨.idle, 0⟩, []⟩⟩

end ClientManager

/-! ## The connection -/

/-- The connection: the requests that wait for an answer, the bytes on their way to the client
and those that have arrived, and whether the socket is non-blocking. `answers` is all the
server has written, `log` what the client has done. -/
structure World where
  requests : List ClientFrame
  inFlight : List UInt8
  arrived : List UInt8
  nonBlocking : Bool
  answers : List ServerFrame
  log : List Event

/-- The connection after the handshake. -/
def World.init : World := ⟨[], [], [], true, [], []⟩

/-- The connection is live: a request is written, and a blocking read waits for its bytes. -/
def World.perform (w : World) : (o : SocketOp) → Option (o.Result × World)
  | .write request =>
    some (false, { w with requests := w.requests ++ [request], log := w.log ++ [.sent request] })
  | .available => some (w.arrived.length, w)
  | .read n =>
    if w.nonBlocking ∨ n ≤ w.arrived.length then
      some (w.arrived.take n, { w with arrived := w.arrived.drop n })
    else none
  | .nonBlocking mode => some ((), { w with nonBlocking := mode })
  | .note e => some ((), { w with log := w.log ++ [e] })

/-- The answers to a request. The `int` that counts the rooms of a list holds their number. -/
def isAnswer : ClientFrame → ServerFrame → Bool
  | .listRooms, .listRoomsResponse rooms => rooms.length < 2 ^ 31
  | .createRoom, .createRoomResponse roomId => roomId = (Int32.ofInt roomId).toInt
  | .joinRoom _, .joinRoomResponse status => status = (Int32.ofInt status).toInt
  | _, _ => false

/-- What happens to the connection apart from the client: the first request that waits is
answered, or the next bytes arrive. -/
inductive NetEvent
  | answer (f : ServerFrame)
  | deliver (n : ℕ)

def World.move (w : World) : NetEvent → Option World
  | .answer f => match w.requests with
    | request :: requests =>
      if isAnswer request f then
        some { w with requests, inFlight := w.inFlight ++ f.bytes, answers := w.answers ++ [f] }
      else none
    | [] => none
  | .deliver n => some { w with arrived := w.arrived ++ w.inFlight.take n, inFlight := w.inFlight.drop n }

/-- The socket of the client. -/
def setting : Setting SocketOp SocketOp.Result World NetEvent := ⟨World.perform, World.move⟩

/-- The client frame after frame, as long as it is choosing a room: a frame starts with whether
the list is due, and the action of the player. -/
def machine : Machine (State SocketOp SocketOp.Result ClientManager World) (Label (Bool × Int32) NetEvent) :=
  setting.machine fun (due, action) m =>
    if m.currentState = .roomSelection then some (m.roomSelection due action) else none

/-! ## The list of rooms, poll by poll -/

/-- A `LIST_ROOMS_RESPONSE`: its numbers are `int`s. -/
structure RoomList where
  rooms : List RoomSimpleInfo
  count_fits : rooms.length < 2 ^ 31
  fits : ∀ r ∈ rooms, r.id = (Int32.ofInt r.id).toInt ∧ r.playerCount = (Int32.ofInt r.playerCount).toInt

namespace RoomList

/-- What the server writes. -/
def frame (l : RoomList) : ServerFrame := .listRoomsResponse l.rooms

/-- Its bytes. -/
def bytes (l : RoomList) : List UInt8 := l.frame.bytes

/-- The rooms as the client keeps them. -/
def infos (l : RoomList) : List RoomInfo := l.rooms.map fun r => ⟨r.id, r.playerCount, 4⟩

end RoomList

/-- A call of `getRooms`: what was cached before, and what it has returned. -/
structure Call where
  cached : List RoomInfo
  returned : List RoomInfo
deriving DecidableEq

/-- A client that only polls, and its calls so far. -/
structure Polls where
  client : TCPClient
  calls : List Call
deriving DecidableEq

/-- One more call. -/
def Polls.poll (p : Polls) : SocketM Polls := do
  let (returned, client) ← p.client.getRooms
  return ⟨client, p.calls ++ [⟨p.client.cachedRooms, returned⟩]⟩

/-- Nothing cached, no call yet. -/
def Polls.init : Polls := ⟨⟨⟨.idle, 0⟩, ⟨.idle, 0⟩, []⟩, []⟩

/-- What happens to the connection of a client that polls: a list is written, whether it has
been asked for or not, or the next bytes arrive. -/
inductive FeedEvent
  | written (l : RoomList)
  | deliver (n : ℕ)

def World.feed (w : World) : FeedEvent → Option World
  | .written l => some { w with inFlight := w.inFlight ++ l.bytes, answers := w.answers ++ [l.frame] }
  | .deliver n => some { w with arrived := w.arrived ++ w.inFlight.take n, inFlight := w.inFlight.drop n }

/-- The socket of a client that polls. -/
def feedSetting : Setting SocketOp SocketOp.Result World FeedEvent := ⟨World.perform, World.feed⟩

/-- Poll after poll. -/
def pollMachine : Machine (State SocketOp SocketOp.Result Polls World) (Label Unit FeedEvent) :=
  feedSetting.machine fun _ p => some p.poll

end RoomSelection

end RType

import Std.Data.TreeMap
import Mathlib.Logic.Function.Basic
import RType.Lib.Machine
import RType.Spec.ProtocoleTCP

/-!
# The TCP server (`Network/TCPServer.cpp`)

Every connection has a thread that runs `handleClient`, and in a room
`handleInRoomClient`. `Pc` is where such a thread stands, with its local variables;
`Pc.act` is the one thing it does next and `Pc.next` where it stands afterwards.
An `Act` is one read or write of a socket, one callback of the handler, or one
section under `_serverMutex`. The loop of a chat relay keeps the mutex over several
writes, so the mutex is part of the state.

The server is running throughout (`_running`). The handler is any `ITCPHandler`.
-/

namespace RType

open Wire Lts

/-! ## The handler -/

/-- What the run time gives a new `Game`: its address, and the steady clock. -/
structure Fresh where
  addr : ℕ
  now : ℕ

/-- `ITCPHandler`, over a state `H` of the implementation. A reference parameter that is
only written is part of the result. -/
structure ITCPHandler (H : Type*) where
  onCreateRoom : H → Fresh → ℤ × H
  onJoinRoom : H → ℤ → UInt32 → List UInt8 → Bool × H
  onGetLobbyState : H → ℤ → UInt32 × List (UInt32 × List UInt8)
  onStartGame : H → ℤ → UInt32 → H
  onPlayerDisconnect : H → UInt32 → ℤ → H
  onGetRooms : H → List RoomSimpleInfo
  isGameStarting : H → ℤ → Bool

/-- A call of a handler's method. -/
inductive Call
  | onCreateRoom
  | onJoinRoom (roomId : ℤ) (playerId : UInt32) (username : List UInt8)
  | onGetLobbyState (roomId : ℤ)
  | onStartGame (roomId : ℤ) (playerId : UInt32)
  | onPlayerDisconnect (playerId : UInt32) (roomId : ℤ)
  | onGetRooms
  | isGameStarting (roomId : ℤ)
deriving DecidableEq

/-- The type of the answer to a call. -/
abbrev Call.Reply : Call → Type
  | onCreateRoom => ℤ
  | onJoinRoom _ _ _ => Bool
  | onGetLobbyState _ => UInt32 × List (UInt32 × List UInt8)
  | onStartGame _ _ => Unit
  | onPlayerDisconnect _ _ => Unit
  | onGetRooms => List RoomSimpleInfo
  | isGameStarting _ => Bool

/-- Make a call. -/
def ITCPHandler.call {H : Type*} (hd : ITCPHandler H) (h : H) (fresh : Fresh) : (c : Call) → c.Reply × H
  | .onCreateRoom => hd.onCreateRoom h fresh
  | .onJoinRoom roomId playerId username => hd.onJoinRoom h roomId playerId username
  | .onGetLobbyState roomId => (hd.onGetLobbyState h roomId, h)
  | .onStartGame roomId playerId => ((), hd.onStartGame h roomId playerId)
  | .onPlayerDisconnect playerId roomId => ((), hd.onPlayerDisconnect h playerId roomId)
  | .onGetRooms => (hd.onGetRooms h, h)
  | .isGameStarting roomId => (hd.isGameStarting h roomId, h)

/-! ## The thread of a connection -/

/-- Why a read failed. -/
inductive ReadError
  | eof | other
deriving DecidableEq

/-- The outcome of `asio::read`: the bytes it stored, the error if they are fewer than
asked, and what memory held before from the start of the buffer on. -/
structure Received where
  stored : List UInt8
  error : Option ReadError
  memory : List UInt8

/-- The outcome is one that a read of `n` bytes can have. -/
def Received.Fits (r : Received) (n : ℕ) : Prop :=
  if r.error = none then r.stored.length = n else r.stored.length < n

instance (r : Received) (n : ℕ) : Decidable (r.Fits n) := by unfold Received.Fits; infer_instance

/-- The buffer and the memory after it, once the read is over. -/
def Received.buffer (r : Received) : List UInt8 := r.stored ++ r.memory.drop r.stored.length

/-- `playerId` and `username` of `handleClient`. -/
structure Peer where
  playerId : UInt32
  username : List UInt8
deriving DecidableEq

/-- Where the thread of a connection stands. -/
inductive Pc
  | handshake
  | takePlayerId (username : List UInt8)
  | register (u : Peer)
  | connectTime (u : Peer)
  | connectOk (u : Peer) (serverTimeMs : UInt32)
  | lobby (u : Peer)
  | listRooms (u : Peer)
  | createRoom (u : Peer)
  | joinRead (u : Peer)
  | join (u : Peer) (roomId : ℤ)
  | lobbyWrites (u : Peer) (b : Block) (rest : List Block)
  | joinReply (u : Peer) (roomId : ℤ) (success : Bool)
  | enterRoom (u : Peer) (roomId : ℤ)
  | inRoom (u : Peer) (roomId : ℤ)
  | startGame (u : Peer) (roomId : ℤ)
  | askStarting (u : Peer) (roomId : ℤ)
  | askLobby (u : Peer) (roomId : ℤ)
  | roomWrites (u : Peer) (roomId : ℤ) (b : Block) (rest : List Block)
  | chatLength (u : Peer) (roomId : ℤ)
  | chatBody (u : Peer) (roomId : ℤ) (length : UInt16)
  | chatSender (u : Peer) (roomId : ℤ) (msg : List UInt8)
  | chatLock (u : Peer) (roomId : ℤ) (fullMsg : List UInt8)
  | relaying (u : Peer) (roomId : ℤ) (fullMsg : List UInt8) (sock : ℕ) (rest : List ℕ)
  | chatUnlock (u : Peer) (roomId : ℤ)
  | disconnect (u : Peer) (roomId : ℤ)
  | leaveRoom (u : Peer)
  | unregister (u : Peer)
  | close
  | done
deriving DecidableEq

/-- One thing a thread does. -/
inductive Act
  | read (n : ℕ)
  | write (b : Block)
  | call (c : Call)
  | takePlayerId
  | clock
  | register (u : Peer)
  | enterRoom (playerId : UInt32) (roomId : ℤ)
  | leaveRoom (playerId : UInt32)
  | unregister (playerId : UInt32)
  | senderName (playerId : UInt32)
  | lockRoom (playerId : UInt32) (roomId : ℤ)
  | relay (sock : ℕ) (b : Block)
  | unlock
  | close
  | none

/-- What the thread learns from it: for a write, whether it failed; for `lockRoom`, the
sockets to relay to. -/
abbrev Act.Result : Act → Type
  | read _ => Received
  | write _ => Bool
  | call c => c.Reply
  | takePlayerId => UInt32
  | clock => UInt32
  | senderName _ => Option (List UInt8)
  | lockRoom _ _ => List ℕ
  | _ => Unit

/-- `senderName` of a player that has no name. -/
def unknownName : List UInt8 := [85, 110, 107, 110, 111, 119, 110]

/-- The next act of a thread. -/
def Pc.act : Pc → Act
  | handshake => .read 33
  | takePlayerId _ => .takePlayerId
  | register u => .register u
  | connectTime _ => .clock
  | connectOk u serverTimeMs => .write (.connectResponse u.playerId 5252 serverTimeMs)
  | lobby _ => .read 1
  | listRooms _ => .call .onGetRooms
  | createRoom _ => .call .onCreateRoom
  | joinRead _ => .read 4
  | join u roomId => .call (.onJoinRoom roomId u.playerId u.username)
  | lobbyWrites _ b _ => .write b
  | joinReply _ _ success => .write (.joinRoomResponse (if success then 1 else 0))
  | enterRoom u roomId => .enterRoom u.playerId roomId
  | inRoom _ _ => .read 1
  | startGame u roomId => .call (.onStartGame roomId u.playerId)
  | askStarting _ roomId => .call (.isGameStarting roomId)
  | askLobby _ roomId => .call (.onGetLobbyState roomId)
  | roomWrites _ _ b _ => .write b
  | chatLength _ _ => .read 2
  | chatBody _ _ length => .read length.toNat
  | chatSender u _ _ => .senderName u.playerId
  | chatLock u roomId _ => .lockRoom u.playerId roomId
  | relaying _ _ fullMsg sock _ => .relay sock (.chatMessage fullMsg)
  | chatUnlock _ _ => .unlock
  | disconnect u roomId => .call (.onPlayerDisconnect u.playerId roomId)
  | leaveRoom u => .leaveRoom u.playerId
  | unregister u => .unregister u.playerId
  | close => .close
  | done => .none

/-- Write a reply in the lobby loop, then go on reading. -/
def Pc.lobbyReply (u : Peer) : List Block → Pc
  | [] => lobby u
  | b :: rest => lobbyWrites u b rest

/-- Write a reply in the room loop, then go on reading. -/
def Pc.roomReply (u : Peer) (roomId : ℤ) : List Block → Pc
  | [] => inRoom u roomId
  | b :: rest => roomWrites u roomId b rest

/-- Relay to each socket, then release the mutex. -/
def Pc.relayTo (u : Peer) (roomId : ℤ) (fullMsg : List UInt8) : List ℕ → Pc
  | [] => chatUnlock u roomId
  | sock :: rest => relaying u roomId fullMsg sock rest

/-- The `ConnectRequest` after its read: it is built with type `CONNECT` and a zeroed
username, and the read overwrites what it stores. -/
def connectRequest (r : Received) : List UInt8 :=
  r.stored ++ (TCPMessageType.connect.code :: List.replicate 32 0).drop r.stored.length

/-- `std::string username = connectReq.username`: the scan for the terminator goes on
past the field if the field has none. -/
def connectUsername (r : Received) : List UInt8 :=
  ((connectRequest r).tail ++ r.memory).takeWhile (· ≠ 0)

/-- The lobby switch of `handleClient`, on one type byte. -/
def Pc.lobbySwitch (u : Peer) (msgType : UInt8) : Pc :=
  if msgType = TCPMessageType.listRooms.code then listRooms u
  else if msgType = TCPMessageType.createRoom.code then createRoom u
  else if msgType = TCPMessageType.joinRoom.code then joinRead u
  else lobby u

/-- The branches of `handleInRoomClient`, on one type byte. -/
def Pc.roomSwitch (u : Peer) (roomId : ℤ) (msgType : UInt8) : Pc :=
  if msgType = TCPMessageType.startGameRequest.code then startGame u roomId
  else if msgType = TCPMessageType.getLobbyState.code then askStarting u roomId
  else if msgType = TCPMessageType.chatMessage.code then chatLength u roomId
  else inRoom u roomId

/-- Where the thread stands after its act. -/
def Pc.next : (pc : Pc) → pc.act.Result → Pc
  | handshake, (r : Received) =>
    if r.error = some .eof ∨ (connectRequest r).head? ≠ some TCPMessageType.connect.code then close
    else takePlayerId (connectUsername r)
  | takePlayerId username, (playerId : UInt32) => register ⟨playerId, username⟩
  | register u, _ => connectTime u
  | connectTime u, (serverTimeMs : UInt32) => connectOk u serverTimeMs
  -- on a failed reply the function returns without undoing the registration
  | connectOk u _, (failed : Bool) => if failed then done else lobby u
  | lobby u, (r : Received) =>
    match r.error, r.stored with
    | none, msgType :: _ => lobbySwitch u msgType
    | _, _ => unregister u
  | listRooms u, (rooms : List RoomSimpleInfo) => lobbyReply u (ServerFrame.listRoomsResponse rooms).blocks
  | createRoom u, (roomId : ℤ) => lobbyReply u (ServerFrame.createRoomResponse roomId).blocks
  -- the error code of this read is not tested
  | joinRead u, (r : Received) => join u (ofLeInt (r.buffer.take 4))
  | join u roomId, (success : Bool) => joinReply u roomId success
  | lobbyWrites u _ rest, _ => lobbyReply u rest
  | joinReply u roomId success, _ => if success then enterRoom u roomId else lobby u
  | enterRoom u roomId, _ => inRoom u roomId
  | inRoom u roomId, (r : Received) =>
    match r.error, r.stored with
    | none, msgType :: _ => roomSwitch u roomId msgType
    | _, _ => disconnect u roomId
  | startGame u roomId, _ => inRoom u roomId
  | askStarting u roomId, (starting : Bool) =>
    if starting then roomReply u roomId ServerFrame.gameStartingNotification.blocks else askLobby u roomId
  | askLobby u roomId, (hostId, players) =>
    roomReply u roomId (ServerFrame.lobbyStateResponse hostId players).blocks
  | roomWrites u roomId _ rest, _ => roomReply u roomId rest
  | chatLength u roomId, (r : Received) =>
    let length := ofLe16 r.stored
    if r.error = none ∧ 0 < length then chatBody u roomId length else inRoom u roomId
  | chatBody u roomId _, (r : Received) =>
    if r.error = none then chatSender u roomId r.stored else inRoom u roomId
  | chatSender u roomId msg, (name : Option (List UInt8)) =>
    chatLock u roomId (name.getD unknownName ++ [58, 32] ++ msg)
  | chatLock u roomId fullMsg, (socks : List ℕ) => relayTo u roomId fullMsg socks
  | relaying u roomId fullMsg _ rest, _ => relayTo u roomId fullMsg rest
  | chatUnlock u roomId, _ => inRoom u roomId
  | disconnect u _, _ => leaveRoom u
  | leaveRoom u, _ => unregister u
  | unregister _, _ => close
  | close, _ => done
  | done, _ => done

/-! ## All threads together -/

/-- The fields of `TCPServer`, its threads and its sockets. Connections are numbered in
the order of their acceptance; a number also names the socket of the connection. -/
structure TCPServer (H : Type*) where
  handler : H
  nextPlayerId : UInt32
  playerUsernames : Std.TreeMap UInt32 (List UInt8)
  playerSockets : Std.TreeMap UInt32 ℕ
  playerRoomMap : Std.TreeMap UInt32 ℤ
  serverMutex : Option ℕ
  accepted : ℕ
  pc : ℕ → Pc
  isOpen : ℕ → Bool
  sent : ℕ → List Block

namespace TCPServer

variable {H ε : Type*}

/-- The server when it starts to accept. -/
def init (h : H) : TCPServer H where
  handler := h
  nextPlayerId := 1
  playerUsernames := ∅
  playerSockets := ∅
  playerRoomMap := ∅
  serverMutex := none
  accepted := 0
  pc := fun _ => .done
  isOpen := fun _ => false
  sent := fun _ => []

/-- What one act of a thread finds outside the server: the outcome of a read, the time,
and what a new `Game` gets. -/
structure Env where
  received : Received
  time : UInt32
  fresh : Fresh

/-- One `asio::write`, on a socket that may be closed. -/
def put (s : TCPServer H) (sock : ℕ) (b : Block) : TCPServer H :=
  if s.isOpen sock then { s with sent := Function.update s.sent sock (s.sent sock ++ [b]) } else s

/-- The sockets a chat of `playerId` in `roomId` is relayed to, in the order of the map. -/
def recipients (s : TCPServer H) (playerId : UInt32) (roomId : ℤ) : List ℕ :=
  (s.playerSockets.toList.filter fun p => p.1 ≠ playerId ∧ s.playerRoomMap[p.1]? = some roomId).map (·.2)

/-- A section under `_serverMutex`: it waits while another thread has the mutex. -/
def locked {α : Type*} (s : TCPServer H) (x : α) : Option α :=
  if s.serverMutex = none then some x else none

/-- The effect of one act of thread `t`. -/
def perform (hd : ITCPHandler H) (s : TCPServer H) (t : ℕ) (env : Env) :
    (a : Act) → Option (a.Result × TCPServer H)
  | .read n =>
    if env.received.Fits n ∧ (s.isOpen t = true ∨ env.received.error ≠ none) then
      some (env.received, s)
    else none
  | .write b => some (!s.isOpen t, s.put t b)
  | .call c =>
    let (reply, h) := hd.call s.handler env.fresh c
    some (reply, { s with handler := h })
  | .takePlayerId => some (s.nextPlayerId, { s with nextPlayerId := s.nextPlayerId + 1 })
  | .clock => some (env.time, s)
  | .register u => s.locked ((), { s with
      playerSockets := s.playerSockets.insert u.playerId t
      playerUsernames := s.playerUsernames.insert u.playerId u.username })
  | .enterRoom playerId roomId => s.locked ((), { s with
      playerRoomMap := s.playerRoomMap.insert playerId roomId })
  | .leaveRoom playerId => s.locked ((), { s with playerRoomMap := s.playerRoomMap.erase playerId })
  | .unregister playerId => s.locked ((), { s with
      playerSockets := s.playerSockets.erase playerId
      playerUsernames := s.playerUsernames.erase playerId })
  | .senderName playerId => s.locked (s.playerUsernames[playerId]?, s)
  | .lockRoom playerId roomId => s.locked (s.recipients playerId roomId, { s with serverMutex := some t })
  | .relay sock b => some ((), s.put sock b)
  | .unlock => some ((), { s with serverMutex := none })
  | .close => some ((), { s with isOpen := Function.update s.isOpen t false })
  | .none => none

/-- One step of thread `t`, standing at `pc`. -/
def stepAt (hd : ITCPHandler H) (s : TCPServer H) (t : ℕ) (env : Env) (pc : Pc) : Option (TCPServer H) :=
  (s.perform hd t env pc.act).map fun (r, s') => { s' with pc := Function.update s'.pc t (pc.next r) }

/-- `kickPlayer`: close the socket of a player. -/
def kickPlayer (s : TCPServer H) (playerId : UInt32) : TCPServer H :=
  match s.playerSockets[playerId]? with
  | some sock => { s with isOpen := Function.update s.isOpen sock false }
  | none => s

/-- What can happen next: a connection is accepted, a thread takes its next step, the
shell closes a player's socket, a connection breaks, or the handler's state is changed
from elsewhere. -/
inductive Label (ε : Type*)
  | accept
  | thread (t : ℕ) (env : Env)
  | kick (playerId : UInt32)
  | reset (sock : ℕ)
  | other (e : ε)

/-- One step of the server. `ext` is what the rest of the program does to the handler. -/
def step (hd : ITCPHandler H) (ext : ε → H → H) (s : TCPServer H) : Label ε → Option (TCPServer H)
  | .accept => some { s with
      accepted := s.accepted + 1
      pc := Function.update s.pc s.accepted .handshake
      isOpen := Function.update s.isOpen s.accepted true }
  | .thread t env => s.stepAt hd t env (s.pc t)
  | .kick playerId => s.locked (s.kickPlayer playerId)
  | .reset sock => some { s with isOpen := Function.update s.isOpen sock false }
  | .other e => some { s with handler := ext e s.handler }

/-- The server as a machine. -/
def machine (hd : ITCPHandler H) (ext : ε → H → H) : Machine (TCPServer H) (Label ε) :=
  ⟨step hd ext⟩

end TCPServer

end RType

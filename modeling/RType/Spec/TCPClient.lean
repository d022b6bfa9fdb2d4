import RType.Lib.Machine
import RType.Spec.ProtocoleTCP

/-!
# The client in a lobby (`Network/TCPClient.cpp`)

`getLobbyState` asks for the state of the lobby and handles what the server has sent
meanwhile, at most ten messages a call. Its reads are blocking. `machine` is such a client
over time: the server writes whole messages, and the client calls `getLobbyState` now
and then.

`FrameReader` is the other reading of the same client: whole messages, each taken or left.
-/

namespace RType

open Wire Lts

/-- `LobbyPlayerInfo` -/
structure LobbyPlayerInfo where
  playerId : UInt32
  username : List UInt8
deriving DecidableEq

/-- A `LobbyPlayerInfo` as it lies in memory. -/
def LobbyPlayerInfo.ofBytes (bs : List UInt8) : LobbyPlayerInfo := ⟨ofLe32 (bs.take 4), bs.drop 4⟩

/-- `LobbyState` -/
structure LobbyState where
  gameIsStarting : Bool
  hostId : UInt32
  players : List LobbyPlayerInfo
  disconnected : Bool
deriving DecidableEq

/-- The `cachedState` of the first call. -/
def LobbyState.init : LobbyState := ⟨false, 0, [], false⟩

/-- What a `TCPClient` in a lobby has: the bytes that the server has written and the client
has not read, whether the server has closed, and the static `cachedState`. -/
structure TCPClient where
  unread : List UInt8
  closed : Bool
  cachedState : LobbyState
deriving DecidableEq

/-- What a call of `getLobbyState` finds: whether its request fails, and whether some unread
byte has arrived when there are `k` more turns of the loop after this one. A socket that
throws ends the call as one without bytes does. -/
structure CallEnv where
  writeFails : Bool
  arrived : ℕ → Bool

namespace TCPClient

variable (c : TCPClient)

/-- `asio::read` of `n` bytes: it fails where the server closes before them, and it goes on
waiting (`none`) where they do not come. -/
def read (n : ℕ) : Option (Option (List UInt8) × TCPClient) :=
  if n ≤ c.unread.length then some (some (c.unread.take n), { c with unread := c.unread.drop n })
  else if c.closed then some (none, { c with unread := [] })
  else none

/-- The loop over the players of a `LOBBY_STATE_RESPONSE`. -/
def readPlayers (c : TCPClient) : ℕ → Option (Option (List LobbyPlayerInfo) × TCPClient)
  | 0 => some (some [], c)
  | n + 1 => do
    let (record, c) ← c.read 36
    match record with
    | some bs =>
      let (players, c) ← c.readPlayers n
      some (players.map (LobbyPlayerInfo.ofBytes bs :: ·), c)
    | none => some (none, c)

/-- The branch of `LOBBY_STATE_RESPONSE`. -/
def readLobby : Option TCPClient := do
  let (header, c) ← c.read 8
  match header with
  | some bs =>
    let hostId := ofLe32 (bs.take 4)
    let playerCount := ofLeInt (bs.drop 4)
    let (players, c) ← c.readPlayers playerCount.toNat
    match players with
    | some players =>
      some { c with cachedState := { c.cachedState with hostId, players, gameIsStarting := false } }
    | none => some c
  | none => some c

/-- The branch of `LIST_ROOMS_RESPONSE`. -/
def drainRooms : Option TCPClient := do
  let (header, c) ← c.read 4
  match header with
  | some bs =>
    let count := ofLeInt bs
    if 0 < count then (c.read (count.toNat * 12)).map (·.2) else some c
  | none => some c

/-- The branches of `getLobbyState`, on one type byte. -/
def lobbySwitch (respType : UInt8) : Option TCPClient :=
  if respType = TCPMessageType.lobbyStateResponse.code then c.readLobby
  else if respType = TCPMessageType.gameStartingNotification.code then
    some { c with cachedState := { c.cachedState with gameIsStarting := true } }
  else if respType = TCPMessageType.listRoomsResponse.code then c.drainRooms
  else if respType = TCPMessageType.createRoomResponse.code then (c.read 4).map (·.2)
  else if respType = TCPMessageType.joinRoomResponse.code then (c.read 4).map (·.2)
  else if respType = TCPMessageType.connectError.code then (c.read 64).map (·.2)
  else some c

/-- The loop of `getLobbyState`, with `max_loops` turns left. -/
def lobbyLoop (arrived : ℕ → Bool) (c : TCPClient) : (maxLoops : ℕ) → Option TCPClient
  | 0 => some c
  | k + 1 =>
    if c.unread ≠ [] ∧ arrived k then do
      let (respType, c) ← c.read 1
      match respType with
      | some bs =>
        let c ← c.lobbySwitch (bs.headD 0)
        lobbyLoop arrived c k
      | none => some c
    else some c

/-- `getLobbyState`: the state it returns, and the client afterwards. -/
def getLobbyState (env : CallEnv) : Option (LobbyState × TCPClient) :=
  if env.writeFails then some (c.cachedState, c)
  else (lobbyLoop env.arrived c 10).map fun c => (c.cachedState, c)

/-! ## The client over time -/

/-- The messages that go to a client in a room. The handshake is over. -/
def InRoom : ServerFrame → Prop
  | .connectResponse _ _ _ => False
  | _ => True

instance : DecidablePred InRoom
  | .connectResponse .. => .isFalse id
  | .listRoomsResponse _ | .createRoomResponse _ | .joinRoomResponse _ | .lobbyStateResponse ..
  | .gameStartingNotification | .chatMessage _ => .isTrue trivial

/-- What happens to a client in a lobby. -/
inductive Label
  | written (f : ServerFrame) (inRoom : InRoom f)
  | close
  | getLobbyState (env : CallEnv)

/-- The client in a lobby, as long as no call goes on waiting. -/
def machine : Machine TCPClient Label where
  step c
    | .written f _ => some { c with unread := c.unread ++ f.bytes }
    | .close => some { c with closed := true }
    | .getLobbyState env => (c.getLobbyState env).map (·.2)

/-- The messages written in the course of some labels. -/
def written (labels : List Label) : List ServerFrame :=
  labels.filterMap fun
    | .written f _ => some f
    | _ => none

/-! ## Chat -/

/-- `receiveChatMessages`, on the bytes that have arrived: the messages it returns, and the
bytes it leaves. A chat is taken when all of it is there; any other byte at the front is
dropped. -/
def receiveChatMessages : List UInt8 → List (List UInt8) × List UInt8
  | type :: l₀ :: l₁ :: rest =>
    let length := (ofLe16 [l₀, l₁]).toNat
    if type = TCPMessageType.chatMessage.code then
      if length ≤ rest.length then
        let (messages, unread) := receiveChatMessages (rest.drop length)
        (rest.take length :: messages, unread)
      else ([], type :: l₀ :: l₁ :: rest)
    else receiveChatMessages (l₀ :: l₁ :: rest)
  | available => ([], available)
termination_by available => available.length
decreasing_by
  · simp only [List.length_drop, List.length_cons]
    omega
  · exact Nat.lt_succ_self _

/-- What the chat of a client consists of: chats that fit their length field, and the byte
that starts the game. -/
inductive ChatFrame
  | chatMessage (payload : List UInt8) (fits : payload.length < 65536)
  | gameStartingNotification

/-- The bytes that the server writes. -/
def ChatFrame.bytes : ChatFrame → List UInt8
  | .chatMessage payload _ => (ServerFrame.chatMessage payload).bytes
  | .gameStartingNotification => ServerFrame.gameStartingNotification.bytes

/-- The text of a chat. -/
def ChatFrame.payload? : ChatFrame → Option (List UInt8)
  | .chatMessage payload _ => some payload
  | .gameStartingNotification => none

end TCPClient

/-! ## Whole messages -/

/-- What a message of the server says about the lobby. -/
def LobbyState.after (l : LobbyState) : ServerFrame → LobbyState
  | .lobbyStateResponse hostId players =>
    { l with hostId, players := players.map fun p => ⟨p.1, padded 32 (cText 31 p.2)⟩, gameIsStarting := false }
  | .gameStartingNotification => { l with gameIsStarting := true }
  | _ => l

/-- The messages a client has taken and those it has not. -/
structure FrameReader where
  taken : List ServerFrame
  left : List ServerFrame

namespace FrameReader

/-- How many turns a loop takes while bytes are there. -/
def turns (arrived : ℕ → Bool) : ℕ → ℕ
  | 0 => 0
  | k + 1 => if arrived k then turns arrived k + 1 else 0

/-- How many messages a call takes, if so many are there. -/
def room (env : CallEnv) : ℕ := if env.writeFails then 0 else turns env.arrived 10

/-- The client in a lobby, message by message. -/
def machine : Machine FrameReader TCPClient.Label where
  step r
    | .written f _ => some { r with left := r.left ++ [f] }
    | .close => some r
    | .getLobbyState env => some ⟨r.taken ++ r.left.take (room env), r.left.drop (room env)⟩

end FrameReader

end RType

import RType.Spec.Game

/-!
# TCP messages (`Network/Protocole/ProtocoleTCP.hpp`)

A server message is written by one `asio::write` or by several: a header that
announces how many records follow, then each record. `Block` is what one
`asio::write` puts on a socket, `ServerFrame` a whole message.
-/

namespace RType

open Wire

/-- `TCPMessageType` -/
inductive TCPMessageType
  | connect | connectOk | connectError | listRooms | listRoomsResponse | createRoom
  | createRoomResponse | joinRoom | joinRoomResponse | getLobbyState | lobbyStateResponse
  | startGameRequest | gameStartingNotification | chatMessage
deriving DecidableEq

def TCPMessageType.code : TCPMessageType → UInt8
  | connect => 1
  | connectOk => 2
  | connectError => 3
  | listRooms => 4
  | listRoomsResponse => 5
  | createRoom => 6
  | createRoomResponse => 7
  | joinRoom => 8
  | joinRoomResponse => 9
  | getLobbyState => 10
  | lobbyStateResponse => 11
  | startGameRequest => 12
  | gameStartingNotification => 13
  | chatMessage => 14

theorem TCPMessageType.code_injective : Function.Injective TCPMessageType.code := by
  intro a b h
  cases a <;> cases b <;> first | rfl | exact absurd h (by decide)

/-- An `int32_t` on the wire. -/
def leInt (n : ℤ) : List UInt8 := le32 (UInt32.ofInt n)

def ofLeInt (bs : List UInt8) : ℤ := (ofLe32 bs).toInt32.toInt

theorem length_leInt (n : ℤ) : (leInt n).length = 4 := length_le32 _

/-- A count is read back, if it fits. -/
theorem ofLeInt_leInt {n : ℕ} (h : n < 2 ^ 31) : ofLeInt (leInt n) = n := by
  have hnat : UInt32.ofInt n = UInt32.ofNat n := by
    unfold UInt32.ofInt
    congr 1
    omega
  rw [ofLeInt, leInt, ofLe32_le32, hnat, UInt32.toInt32_ofNat', Int32.toInt_ofNat_of_lt h]

/-- An `int` is read back. -/
theorem toInt32_leInt (n : ℤ) : (ofLe32 (leInt n)).toInt32 = Int32.ofInt n := by
  rw [leInt, ofLe32_le32]
  apply Int32.toBitVec.inj
  rw [UInt32.toBitVec_toInt32, Int32.toBitVec_ofInt]
  apply BitVec.eq_of_toNat_eq
  rw [UInt32.toNat_toBitVec, UInt32.ofInt, BitVec.toNat_ofInt, UInt32.toNat_ofNat']
  norm_num
  omega

/-- A text in a zeroed buffer of `n` bytes. -/
def padded (n : ℕ) (text : List UInt8) : List UInt8 :=
  text ++ List.replicate (n - text.length) 0

theorem length_padded {n : ℕ} {text : List UInt8} (h : text.length ≤ n) : (padded n text).length = n := by
  unfold padded
  rw [List.length_append, List.length_replicate]
  omega

/-- `RoomSimpleInfo` -/
structure RoomSimpleInfo where
  id : ℤ
  playerCount : ℤ
deriving DecidableEq

/-! ## Messages of the server -/

/-- What one `asio::write` of the server puts on a socket. A count is the size of the
list it announces, cast to `int32_t` on the wire. -/
inductive Block
  | connectResponse (playerId : UInt32) (udpPort : UInt16) (serverTimeMs : UInt32)
  | listRoomsResponse (count : ℕ)
  | roomInfo (id playerCount maxPlayers : ℤ)
  | createRoomResponse (roomId : ℤ)
  | joinRoomResponse (status : ℤ)
  | lobbyStateResponse (hostId : UInt32) (playerCount : ℕ)
  | lobbyPlayerInfo (playerId : UInt32) (username : List UInt8)
  | gameStartingNotification
  | chatMessage (fullMsg : List UInt8)
deriving DecidableEq

def Block.bytes : Block → List UInt8
  | connectResponse playerId udpPort serverTimeMs =>
    TCPMessageType.connectOk.code :: (le32 playerId ++ le16 udpPort ++ le32 serverTimeMs)
  | listRoomsResponse count => TCPMessageType.listRoomsResponse.code :: leInt count
  | roomInfo id playerCount maxPlayers => leInt id ++ leInt playerCount ++ leInt maxPlayers
  | createRoomResponse roomId => TCPMessageType.createRoomResponse.code :: leInt roomId
  | joinRoomResponse status => TCPMessageType.joinRoomResponse.code :: leInt status
  | lobbyStateResponse hostId playerCount =>
    TCPMessageType.lobbyStateResponse.code :: (le32 hostId ++ leInt playerCount)
  | lobbyPlayerInfo playerId username => le32 playerId ++ padded 32 (cText 31 username)
  | gameStartingNotification => [TCPMessageType.gameStartingNotification.code]
  | chatMessage fullMsg =>
    TCPMessageType.chatMessage.code :: (le16 (UInt16.ofNat fullMsg.length) ++ fullMsg)

/-- A whole message of the server. -/
inductive ServerFrame
  | connectResponse (playerId : UInt32) (udpPort : UInt16) (serverTimeMs : UInt32)
  | listRoomsResponse (rooms : List RoomSimpleInfo)
  | createRoomResponse (roomId : ℤ)
  | joinRoomResponse (status : ℤ)
  | lobbyStateResponse (hostId : UInt32) (players : List (UInt32 × List UInt8))
  | gameStartingNotification
  | chatMessage (fullMsg : List UInt8)
deriving DecidableEq

/-- The writes of a message, in order. Every room is announced with `maxPlayers` 4. -/
def ServerFrame.blocks : ServerFrame → List Block
  | connectResponse playerId udpPort serverTimeMs => [.connectResponse playerId udpPort serverTimeMs]
  | listRoomsResponse rooms =>
    .listRoomsResponse rooms.length :: rooms.map fun r => .roomInfo r.id r.playerCount 4
  | createRoomResponse roomId => [.createRoomResponse roomId]
  | joinRoomResponse status => [.joinRoomResponse status]
  | lobbyStateResponse hostId players =>
    .lobbyStateResponse hostId players.length :: players.map fun p => .lobbyPlayerInfo p.1 p.2
  | gameStartingNotification => [.gameStartingNotification]
  | chatMessage fullMsg => [.chatMessage fullMsg]

/-- The bytes of a message. -/
def ServerFrame.bytes (f : ServerFrame) : List UInt8 := f.blocks.flatMap Block.bytes

/-- The records of a list of rooms. -/
theorem length_roomRecords (rooms : List RoomSimpleInfo) :
    ((rooms.map fun r => Block.roomInfo r.id r.playerCount 4).flatMap Block.bytes).length = rooms.length * 12 := by
  induction rooms with
  | nil => rfl
  | cons r rooms ih =>
    have hr : (Block.roomInfo r.id r.playerCount 4).bytes.length = 12 := by
      simp only [Block.bytes, List.length_append, length_leInt]
    rw [List.map_cons, List.flatMap_cons, List.length_append, hr, ih, List.length_cons]
    omega

/-! ## Messages of the client -/

/-- A well-formed message of a client after its handshake. -/
inductive ClientFrame
  | listRooms
  | createRoom
  | joinRoom (roomId : Int32)
  | getLobbyState
  | startGameRequest
  | chatMessage (payload : List UInt8) (fits : payload.length < 65536)

def ClientFrame.type : ClientFrame → TCPMessageType
  | listRooms => .listRooms
  | createRoom => .createRoom
  | joinRoom _ => .joinRoom
  | getLobbyState => .getLobbyState
  | startGameRequest => .startGameRequest
  | chatMessage _ _ => .chatMessage

/-- The bytes that follow the type byte. -/
def ClientFrame.body : ClientFrame → List UInt8
  | joinRoom roomId => le32 roomId.toUInt32
  | chatMessage payload _ => le16 (UInt16.ofNat payload.length) ++ payload
  | _ => []

def ClientFrame.bytes (f : ClientFrame) : List UInt8 := f.type.code :: f.body

/-- A room id is read back from the bytes it is sent as. -/
theorem ofLeInt_le32 (roomId : Int32) : ofLeInt (le32 roomId.toUInt32) = roomId.toInt := by
  simp [ofLeInt]

/-- The length of a chat message is read back from the bytes it is sent as. -/
theorem toNat_ofLe16_length {payload : List UInt8} (fits : payload.length < 65536) :
    (ofLe16 (le16 (UInt16.ofNat payload.length))).toNat = payload.length := by
  rw [ofLe16_le16, UInt16.toNat_ofNat_of_lt' (by simpa using fits)]

end RType

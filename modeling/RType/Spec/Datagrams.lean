import RType.Spec.ProtocoleTCP
import RType.Spec.RTypeClient

/-!
# Datagrams (`Network/UDP/UDPClient.hpp`, `Network/UDPServer.cpp`)

`globalStateSyncBytes` is the buffer that `Game::sendGlobalStateSync` fills and
`queueMessage` the datagram that is made of it. At the client `receiveMessage` reads a
datagram into a zeroed array of 1024 bytes and returns the whole array, whatever was received.
`UdpMsg.parse` is how the receive loop of `RTypeClient::update` reads such an array: a type
byte, a test of the size of the array, and the fields at their offsets in the packed struct.

`float` is the `float` that four bytes stand for, `bits` the four bytes of a `float`.
-/

namespace RType

open Wire

variable {F : Type*}

/-! ## Fields of a packed struct -/

/-- A `uint32_t` at an offset. -/
def u32At (bytes : List UInt8) (offset : ℕ) : UInt32 := ofLe32 ((bytes.drop offset).take 4)

/-- A `uint16_t` at an offset. -/
def u16At (bytes : List UInt8) (offset : ℕ) : UInt16 := ofLe16 ((bytes.drop offset).take 2)

/-- The offset of a record of a `GLOBAL_STATE_SYNC`. -/
def recordOffset (i : ℕ) : ℕ := sizeofGlobalStateSync + i * sizeofSyncedEntityState

/-- A `SyncedEntityState` of a `GLOBAL_STATE_SYNC`. -/
def recordAt (float : UInt32 → F) (bytes : List UInt8) (i : ℕ) : SyncedEntityState F :=
  ⟨u32At bytes (recordOffset i), u16At bytes (recordOffset i + 4), float (u32At bytes (recordOffset i + 6)),
    float (u32At bytes (recordOffset i + 10))⟩

/-- The size of the packet struct of a message type. -/
def packetSize (type : UInt8) : Option ℕ :=
  if type = 1 then some 10
  else if type = 2 then some 25
  else if type = 3 then some 19
  else if type = 4 then some 17
  else if type = 5 ∨ type = 6 ∨ type = 7 ∨ type = 8 ∨ type = 9 then some 5
  else if type = 10 then some 1
  else if type = 11 then some 9
  else none

/-- The tests of the receive loop, on the type byte and the size of the array. -/
def UdpMsg.parse (float : UInt32 → F) (data : List UInt8) : Option (UdpMsg F) :=
  match data.head? with
  | none => none
  | some type =>
    if type = 2 ∧ 25 ≤ data.length then
      some (.playerState (u32At data 1) (u32At data 5) (u32At data 9) (float (u32At data 17)) (float (u32At data 21)))
    else if type = 3 ∧ 19 ≤ data.length then
      some (.entitySpawn (u32At data 1) (u16At data 5) (float (u32At data 11)) (float (u32At data 15)))
    else if type = 4 ∧ 17 ≤ data.length then
      some (.entityUpdate (u32At data 1) (float (u32At data 9)) (float (u32At data 13)))
    else if type = 5 ∧ 5 ≤ data.length then some (.entityDestroy (u32At data 1))
    else if type = 8 ∧ 5 ≤ data.length then some (.playerDisconnect (u32At data 1))
    else if type = 7 ∧ 5 ≤ data.length then some (.pong (u32At data 1))
    else if type = 9 ∧ sizeofGlobalStateSync ≤ data.length then
      some (.globalStateSync (u32At data 1)
        ((List.range ((data.length - sizeofGlobalStateSync) / sizeofSyncedEntityState)).map (recordAt float data)))
    else if type = 10 then some .youHaveBeenKicked
    else if type = 11 ∧ 9 ≤ data.length then
      some (.bossState (u32At data 1).toInt32.toInt (u32At data 5).toInt32.toInt)
    else none

/-! ## Sending -/

/-- The bytes of a packed `SyncedEntityState`. -/
def SyncedEntityState.bytes (bits : F → UInt32) (s : SyncedEntityState F) : List UInt8 :=
  le32 s.entityId ++ le16 s.entityType ++ le32 (bits s.x) ++ le32 (bits s.y)

/-- The record of an entity. -/
def Entity.synced (e : Entity F) : SyncedEntityState F := ⟨e.id, e.type, e.x, e.y⟩

/-- `packetBuffer` of `sendGlobalStateSync`: the header counts all entities, and each has a
record. -/
def globalStateSyncBytes (bits : F → UInt32) (entities : List (Entity F)) : List UInt8 :=
  9 :: le32 (UInt32.ofNat entities.length) ++ entities.flatMap fun e => e.synced.bytes bits

/-- The datagram of `queueMessage`: a larger one is truncated. -/
def queueMessage (data : List UInt8) : List UInt8 := data.take maxUdpPacketSize

/-! ## Receiving -/

/-- The bytes `recvfrom` stores: a longer datagram is cut. -/
def recvfrom (datagram : List UInt8) : List UInt8 := datagram.take maxUdpPacketSize

/-- `receiveMessage<1024>`: nothing for an empty datagram, else the array, in which the bytes
past those received are zero. -/
def receiveMessage (datagram : List UInt8) : Option (List UInt8) :=
  if 0 < (recvfrom datagram).length then some (padded maxUdpPacketSize (recvfrom datagram)) else none

/-- The turn of the receive loop of `update` that takes a datagram. -/
def RTypeClient.receive [FloatOps F] (float : UInt32 → F) (c : RTypeClient F) (now : UInt32)
    (datagram : List UInt8) : RTypeClient F :=
  match (receiveMessage datagram).bind (UdpMsg.parse float) with
  | some m => c.handlePacket now m
  | none => c

end RType

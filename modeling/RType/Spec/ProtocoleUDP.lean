import RType.Lib.Bytes
import RType.Spec.Float

/-!
# UDP messages (`Network/Protocole/ProtocoleUDP.hpp`)

The packets of the server are kept as values: their `float` fields are copied
verbatim. The packets a server receives are read from the bytes of the datagram.
-/

namespace RType

open Wire

/-- `MAX_UDP_PACKET_SIZE` -/
def maxUdpPacketSize : ℕ := 1024

/-- `sockaddr_in` -/
structure SockAddr where
  ip : UInt32
  port : UInt16
deriving DecidableEq

instance : Inhabited SockAddr := ⟨⟨0, 0⟩⟩

/-! ## Inputs -/

/-- `Input`: one bit for each action. -/
inductive Input
  | up | down | left | right | pressed | hold
deriving DecidableEq

def Input.bit : Input → UInt8
  | up => 1
  | down => 2
  | left => 4
  | right => 8
  | pressed => 16
  | hold => 32

/-- `PlayerInputPacket` -/
structure PlayerInputPacket where
  playerId : UInt32
  tick : UInt32
  inputs : UInt8
deriving DecidableEq

/-- `packet.inputs & input` -/
def PlayerInputPacket.has (pkt : PlayerInputPacket) (i : Input) : Bool :=
  pkt.inputs &&& i.bit != 0

/-! ## Messages of the server -/

/-- `SyncedEntityState` -/
structure SyncedEntityState (F : Type*) where
  entityId : UInt32
  entityType : UInt16
  x : F
  y : F
deriving DecidableEq

/-- `sizeof(GlobalStateSyncPacket)` -/
def sizeofGlobalStateSync : ℕ := 5

/-- `sizeof(SyncedEntityState)` -/
def sizeofSyncedEntityState : ℕ := 14

/-- What the server queues for a client. A `GLOBAL_STATE_SYNC` has the count of its
header and the entity records that lie wholly in the datagram. -/
inductive UdpMsg (F : Type*)
  | playerState (playerId sequence lastProcessedTick : UInt32) (x y : F)
  | entitySpawn (entityId : UInt32) (entityType : UInt16) (x y : F)
  | entityUpdate (entityId : UInt32) (x y : F)
  | entityDestroy (entityId : UInt32)
  | pong (timestamp : UInt32)
  | playerDisconnect (playerId : UInt32)
  | globalStateSync (entityCount : UInt32) (records : List (SyncedEntityState F))
  | youHaveBeenKicked
  | bossState (hp maxHp : ℤ)
deriving DecidableEq

/-! ## Datagrams of the client -/

/-- A datagram that `onMessageReceived` acts on. -/
inductive ClientMsg
  | playerInput (pkt : PlayerInputPacket)
  | playerDisconnect (playerId : UInt32)
  | ping (timestamp : UInt32)
deriving DecidableEq

/-- The switch of `onMessageReceived`: the type byte, then the exact size of the
packet of that type; anything else is ignored. -/
def ClientMsg.parse : List UInt8 → Option ClientMsg
  | [] => none
  | type :: rest =>
    if type = 1 then
      if rest.length = 9 then
        some (.playerInput ⟨ofLe32 (rest.take 4), ofLe32 ((rest.drop 4).take 4), rest.getD 8 0⟩)
      else none
    else if type = 8 then
      if rest.length = 4 then some (.playerDisconnect (ofLe32 rest)) else none
    else if type = 6 then
      if rest.length = 4 then some (.ping (ofLe32 rest)) else none
    else none

/-- The bytes a client sends for a message. -/
def ClientMsg.bytes : ClientMsg → List UInt8
  | .playerInput pkt => 1 :: (le32 pkt.playerId ++ le32 pkt.tick ++ [pkt.inputs])
  | .playerDisconnect playerId => 8 :: le32 playerId
  | .ping timestamp => 6 :: le32 timestamp

/-- What a client sends is what the server reads. -/
theorem ClientMsg.parse_bytes (m : ClientMsg) : parse m.bytes = some m := by
  cases m with
  | playerInput pkt =>
    have h1 : (le32 pkt.playerId ++ le32 pkt.tick ++ [pkt.inputs]).take 4 = le32 pkt.playerId := by
      rw [List.append_assoc, List.take_append_of_le_length (by simp), List.take_of_length_le (by simp)]
    have h2 : ((le32 pkt.playerId ++ le32 pkt.tick ++ [pkt.inputs]).drop 4).take 4 = le32 pkt.tick := by
      rw [List.append_assoc, List.drop_left' (by simp), List.take_left' (by simp)]
    simp [bytes, parse, -List.append_assoc, h1, h2]
  | playerDisconnect playerId => simp [bytes, parse]
  | ping timestamp => simp [bytes, parse]

end RType

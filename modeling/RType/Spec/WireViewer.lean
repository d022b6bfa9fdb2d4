import RType.Spec.Datagrams
import RType.Spec.Viewer

/-!
# A client and the datagrams it gets

The same room, client and channel as in `Viewer`, but what is delivered are bytes:
`UdpMsg.bytes` is the packed struct that the server fills for a message, and the client reads
the datagram in its receive loop.
-/

namespace RType

open Lts Wire

variable {F : Type*}

/-- What the bytes of a packet do not have from its message: the field `timestamp`, which no
code of the server sets, and in a `GLOBAL_STATE_SYNC` the records behind the last that fits. -/
structure Filling where
  timestamp : UInt32
  behind : List UInt8

/-- The packed struct of a message of the server. -/
def UdpMsg.bytes (bits : F → UInt32) (filling : Filling) : UdpMsg F → List UInt8
  | .playerState playerId sequence lastProcessedTick x y =>
    2 :: (le32 playerId ++ le32 sequence ++ le32 lastProcessedTick ++ le32 filling.timestamp ++ le32 (bits x) ++
      le32 (bits y))
  | .entitySpawn entityId entityType x y =>
    3 :: (le32 entityId ++ le16 entityType ++ le32 filling.timestamp ++ le32 (bits x) ++ le32 (bits y))
  | .entityUpdate entityId x y => 4 :: (le32 entityId ++ le32 filling.timestamp ++ le32 (bits x) ++ le32 (bits y))
  | .entityDestroy entityId => 5 :: le32 entityId
  | .pong timestamp => 7 :: le32 timestamp
  | .playerDisconnect playerId => 8 :: le32 playerId
  | .globalStateSync entityCount records =>
    -- records that are cut do not concern a list that fits
    9 :: (le32 entityCount ++ records.flatMap (·.bytes bits) ++ if records.length < 72 then [] else filling.behind)
  | .youHaveBeenKicked => [10]
  | .bossState hp maxHp => 11 :: (leInt hp ++ leInt maxHp)

namespace Viewer

variable [FloatOps F]

/-- One step, where a packet comes as bytes. -/
def wireStep (bits : F → UInt32) (float : UInt32 → F) (s : Viewer F) : Label F × Filling → Option (Viewer F)
  | (.packet now, filling) =>
    (s.inbox[s.passed]?).map fun m =>
      { s with client := s.client.receive float now (queueMessage (m.bytes bits filling)), passed := s.passed + 1 }
  | (l, _) => step s l

/-- Room, client and a channel of datagrams as a machine. -/
def wireMachine (bits : F → UInt32) (float : UInt32 → F) : Machine (Viewer F) (Label F × Filling) :=
  ⟨wireStep bits float⟩

end Viewer

end RType

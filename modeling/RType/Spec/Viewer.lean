import RType.Spec.GameThreads
import RType.Spec.RTypeClient

/-!
# A client and what it is told

A room with its threads, the client of one player, and the messages queued for that
player. They come in the order in which they were queued and once each, but any of them may
be lost.
The inputs of the client are calls among the labels of the threads.
-/

namespace RType

open Lts

variable {F : Type*} [FloatOps F]

/-- A room, a client, and how many of the messages for the client have come or are lost. -/
structure Viewer (F : Type*) where
  threads : GameThreads F
  client : RTypeClient F
  passed : ℕ

namespace Viewer

/-- A `Game` just constructed, and a client after its handshake. -/
def init (boss : Boss F) (now : ℕ) (playerId serverTimeMs : UInt32) : Viewer F :=
  ⟨.init boss now, .new playerId serverTimeMs, 0⟩

/-- The messages queued for the client. -/
def inbox (s : Viewer F) : List (UdpMsg F) :=
  (s.threads.room.out.filter (·.dest = some s.client.myPlayerId)).map (·.msg)

/-- What can happen next. -/
inductive Label (F : Type*)
  | server (l : GameThreads.Label F)
  | keys (k : Keys)
  | menu (status : InGameStatus)
  | packet (now : UInt32)
  | loss

/-- One step. -/
def step (s : Viewer F) : Label F → Option (Viewer F)
  | .server l => (GameThreads.machine.step s.threads l).map fun threads => { s with threads }
  | .keys k => some { s with client := (s.client.handleInput k).1 }
  | .menu status => some { s with client.status := status }
  | .packet now =>
    (s.inbox[s.passed]?).map fun m => { s with client := s.client.handlePacket now m, passed := s.passed + 1 }
  | .loss => (s.inbox[s.passed]?).map fun _ => { s with passed := s.passed + 1 }

/-- Room, client and channel as a machine. -/
def machine : Machine (Viewer F) (Label F) := ⟨step⟩

end Viewer

end RType

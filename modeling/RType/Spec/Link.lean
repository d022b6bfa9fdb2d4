import RType.Spec.GameThreads
import RType.Spec.RTypeClient

/-!
# A client and its room

One client in a game, the room of its player, and the two channels between them. The
client's inputs arrive in order and all of them; what the server queues for the player
arrives in order, but any of it may be lost.

The room's loop takes one section of `update` at a time. Everything else that happens to
the room is a `RoomAct` of somebody else, one that leaves the player in the room.
-/

namespace RType

open Lts

variable {F : Type*} [FloatOps F]

/-- The act neither takes the player in or out nor is an input of it. -/
def RoomAct.Spares (playerId : UInt32) : RoomAct → Prop
  | join p _ | leave p | disconnect p | kick p => p ≠ playerId
  | input pkt _ => pkt.playerId ≠ playerId
  | start _ | update _ => True

instance (playerId : UInt32) (a : RoomAct) : Decidable (a.Spares playerId) := by
  cases a <;> unfold RoomAct.Spares <;> infer_instance

/-- The room, its loop, the inputs on their way to it, the messages on their way to the
client, and the client. -/
structure Link (F : Type*) where
  room : Room F
  loop : LoopPc F
  inputs : List PlayerInputPacket
  packets : List (UdpMsg F)
  client : RTypeClient F

namespace Link

/-- A client that has just sent its first packet. -/
def init (room : Room F) (playerId serverTimeMs : UInt32) : Link F :=
  ⟨room, .idle, [RTypeClient.firstPacket playerId], [], .new playerId serverTimeMs⟩

/-- The room after a step of the server; what it queued for the client's player is on
its way. -/
def serve (s : Link F) (r : Room F) : Link F :=
  { s with
    room := { r with out := [] }
    packets := s.packets ++ (r.out.filter (·.dest = some s.client.myPlayerId)).map (·.msg) }

/-- What can happen next: the client reads its keys, is paused or resumed, handles a
packet or loses one; the server handles an input of the client, takes a section of
`update`, or does something else. -/
inductive Label
  | keys (k : Keys)
  | menu (status : InGameStatus)
  | packet (now : UInt32)
  | loss
  | input (addr : SockAddr)
  | loop (env : UpdateEnv)
  | act (a : RoomAct)

/-- One step. -/
def step (s : Link F) : Label → Option (Link F)
  | .keys k =>
    if s.client.status = .gameOver then none
    else
      let (client, sends) := s.client.handleInput k
      some { s with client, inputs := s.inputs ++ sends.input.toList }
  | .menu status =>
    if status = .gameOver ∨ s.client.status = .gameOver then none
    else some { s with client.status := status }
  | .packet now =>
    match s.packets with
    | m :: packets => some { s with packets, client := s.client.handlePacket now m }
    | [] => none
  | .loss =>
    match s.packets with
    | _ :: packets => some { s with packets }
    | [] => none
  | .input addr =>
    match s.inputs with
    | pkt :: inputs => some ({ s with inputs }.serve ((RoomAct.input pkt addr).run s.room))
    | [] => none
  | .loop env =>
    let (room, loop) := s.loop.run env s.room
    some ({ s with loop }.serve room)
  | .act a => if a.Spares s.client.myPlayerId then some (s.serve (a.run s.room)) else none

/-- Client, room and channels as a machine. -/
def machine : Machine (Link F) Label := ⟨step⟩

end Link

end RType

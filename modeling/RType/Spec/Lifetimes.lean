import RType.Spec.ServerManager

/-!
# The rooms over time

`machine` is the server as its rooms see it: callbacks of the TCP threads, datagrams,
shell commands and passes of the run loop, in any order. A new `Game` may get any address
at which there is no live one.

`Label.acts` is what a label does to the rooms, and `history` what was done to one room,
with the room after each act.
-/

namespace RType

open Lts

variable {F : Type*} [FloatOps F]

/-- A room after each of some acts, with what the act queued. -/
def Room.evolve (r : Room F) : List RoomAct → List (Room F)
  | [] => []
  | a :: as => a.run r :: evolve { a.run r with out := [] } as

namespace ServerManager

/-- What happens to the server: a callback, with what a new `Game` gets, or another event. -/
inductive Label
  | call (c : Call) (fresh : Fresh)
  | event (ev : Event)

/-- The effect of a label. -/
def Label.run (m : ServerManager F) : Label → ServerManager F
  | call c fresh => (handler.call m fresh c).2
  | event ev => react ev m

/-- What the new `Game` gets, where a label creates one. -/
def Label.creates : Label → Option Fresh
  | call .onCreateRoom fresh => some fresh
  | event (.command (.create fresh)) => some fresh
  | _ => none

/-- There is a live `Game` at the address. -/
def holds (m : ServerManager F) (addr : ℕ) : Bool := m.rooms.toList.any fun e => e.2.addr == addr

/-- The server, with an allocator that gives no address twice at a time. -/
def machine : Machine (ServerManager F) Label where
  step m l := if l.creates.any fun fresh => m.holds fresh.addr then none else some (l.run m)

/-- What a label does to the rooms, in order. -/
def Label.acts (m : ServerManager F) : Label → List (ℤ × RoomAct)
  | call (.onJoinRoom roomId playerId username) _ =>
    if (m.onJoinRoom roomId playerId username).1 then [(roomId, .join playerId username)] else []
  | call (.onStartGame roomId playerId) _ => [(roomId, .start playerId)]
  | call (.onPlayerDisconnect playerId roomId) _ => [(roomId, .leave playerId)]
  | event (.datagram data clientAddr) =>
    match ClientMsg.parse data with
    | some (.playerInput pkt) => (m.findRoom pkt.playerId).toList.map fun roomId => (roomId, .input pkt clientAddr)
    | some (.playerDisconnect playerId) => (m.findRoom playerId).toList.map fun roomId => (roomId, .disconnect playerId)
    | _ => []
  | event (.command (.kick playerId)) => (m.findRoom playerId).toList.map fun roomId => (roomId, .kick playerId)
  | event (.pass env) => m.rooms.keys.map fun roomId => (roomId, .update (env roomId))
  | _ => []

/-- What a label does to one room. -/
def Label.actsOn (m : ServerManager F) (roomId : ℤ) (l : Label) : List RoomAct :=
  ((l.acts m).filter (·.1 == roomId)).map (·.2)

/-- A live room, with its boss entries. -/
def room? (m : ServerManager F) (roomId : ℤ) : Option (Room F) :=
  (m.rooms[roomId]?).map fun e => ⟨e.game, m.boss e.addr, []⟩

/-- What is done to a room in the course of some labels, each act with the room after it
and what the act queued. -/
def history (roomId : ℤ) : ServerManager F → List Label → List (RoomAct × Room F)
  | _, [] => []
  | m, l :: labels =>
    (match m.room? roomId with
      | some r => (l.actsOn m roomId).zip (r.evolve (l.actsOn m roomId))
      | none => []) ++ history roomId (l.run m) labels

end ServerManager

end RType

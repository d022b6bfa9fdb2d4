import RType.Spec.TCPServer

/-!
# One connection by itself

A `Session` is the thread of one connection with the bytes its client still sends; the
client closes after the last one (`Session.step`), or the connection ends with some error
(`Session.stepEnding`). Whatever else the thread asks (the handler, the names,
the sockets to relay to) is answered by an `Oracle`, which may answer differently each
time: it sees everything that was asked before.

`Phase.decode` is the other reading of the same client: whole frames, each handled by
the phase it arrives in or ignored.
-/

namespace RType

/-- One question of a thread, with its answer. -/
abbrev Asked := (a : Act) × a.Result

/-- What answers a thread, given what it asked before. `memory` is what the buffer of a
read held. -/
structure Oracle where
  answer : List Asked → (a : Act) → a.Result
  memory : List Asked → List UInt8

/-- The acts that the rest of the program sees: calls of the handler, and the three parts
of a chat relay. -/
def Act.observed : Act → Bool
  | call _ | senderName _ | lockRoom _ _ | relay _ _ => true
  | _ => false

/-- How many bytes an act takes from the socket. -/
def Act.size : Act → ℕ
  | read n => n
  | _ => 0

/-- The thread of a connection, the bytes to come, and what it has asked so far. -/
structure Session where
  pc : Pc
  input : List UInt8
  log : List Asked

/-- The result of an act: a read takes what is left of the bytes. -/
def Oracle.result (o : Oracle) (input : List UInt8) (log : List Asked) : (a : Act) → a.Result
  | .read n => (⟨input.take n, if input.length < n then some .eof else none, o.memory log⟩ : Received)
  | a => o.answer log a

/-- The next act of the thread. -/
def Session.step (o : Oracle) (s : Session) : Session where
  pc := s.pc.next (o.result s.input s.log s.pc.act)
  input := s.input.drop s.pc.act.size
  log := if s.pc.act.observed then s.log ++ [⟨s.pc.act, o.result s.input s.log s.pc.act⟩] else s.log

/-- The result of an act, where the bytes of the client end with the error `e`. -/
def Oracle.resultEnding (o : Oracle) (e : ReadError) (input : List UInt8) (log : List Asked) : (a : Act) → a.Result
  | .read n => (⟨input.take n, if input.length < n then some e else none, o.memory log⟩ : Received)
  | a => o.answer log a

/-- The next act of the thread, where the bytes of the client end with the error `e`. -/
def Session.stepEnding (o : Oracle) (e : ReadError) (s : Session) : Session where
  pc := s.pc.next (o.resultEnding e s.input s.log s.pc.act)
  input := s.input.drop s.pc.act.size
  log := if s.pc.act.observed then s.log ++ [⟨s.pc.act, o.resultEnding e s.input s.log s.pc.act⟩] else s.log

/-- What a client can bring about: an id, a registration, a call of the handler (but for that
which tells it of the end of a connection), a chat relay. -/
def Act.triggered : Act → Bool
  | takePlayerId | register _ | lockRoom _ _ | relay _ _ => true
  | call (.onPlayerDisconnect _ _) => false
  | call _ => true
  | _ => false

/-! ## Whole frames -/

/-- Which of its two loops a thread is in. -/
inductive Phase
  | lobby
  | inRoom (roomId : ℤ)
deriving DecidableEq

def Phase.pc (u : Peer) : Phase → Pc
  | lobby => .lobby u
  | inRoom roomId => .inRoom u roomId

/-- The type bytes a phase handles. -/
def Phase.handles : Phase → UInt8 → Bool
  | lobby, b => b = TCPMessageType.listRooms.code ∨ b = TCPMessageType.createRoom.code ∨
      b = TCPMessageType.joinRoom.code
  | inRoom _, b => b = TCPMessageType.startGameRequest.code ∨ b = TCPMessageType.getLobbyState.code ∨
      b = TCPMessageType.chatMessage.code

/-- Ask something. -/
def Oracle.ask (o : Oracle) (log : List Asked) (a : Act) : List Asked := log ++ [⟨a, o.answer log a⟩]

/-- A chat of a player in a room: it is sent under the player's name to the sockets that
are found. -/
def Oracle.chat (o : Oracle) (u : Peer) (roomId : ℤ) (payload : List UInt8) (log : List Asked) : List Asked :=
  let name : Option (List UInt8) := o.answer log (.senderName u.playerId)
  let fullMsg := name.getD unknownName ++ [58, 32] ++ payload
  let log := o.ask log (.senderName u.playerId)
  let socks : List ℕ := o.answer log (.lockRoom u.playerId roomId)
  let log := o.ask log (.lockRoom u.playerId roomId)
  socks.foldl (fun log sock => o.ask log (.relay sock (.chatMessage fullMsg))) log

/-- What a whole frame does in a phase. A chat without text is dropped by its handler. -/
def Phase.handle (o : Oracle) (u : Peer) : Phase × List Asked → ClientFrame → Phase × List Asked
  | (lobby, log), .listRooms => (lobby, o.ask log (.call .onGetRooms))
  | (lobby, log), .createRoom => (lobby, o.ask log (.call .onCreateRoom))
  | (lobby, log), .joinRoom roomId =>
    let c : Call := .onJoinRoom roomId.toInt u.playerId u.username
    (if (o.answer log (.call c) : Bool) then inRoom roomId.toInt else lobby, o.ask log (.call c))
  | (lobby, log), _ => (lobby, log)
  | (inRoom roomId, log), .startGameRequest =>
    (inRoom roomId, o.ask log (.call (.onStartGame roomId u.playerId)))
  | (inRoom roomId, log), .getLobbyState =>
    let starting : Bool := o.answer log (.call (.isGameStarting roomId))
    let log := o.ask log (.call (.isGameStarting roomId))
    (inRoom roomId, if starting then log else o.ask log (.call (.onGetLobbyState roomId)))
  | (inRoom roomId, log), .chatMessage payload _ =>
    (inRoom roomId, if payload = [] then log else o.chat u roomId payload log)
  | (inRoom roomId, log), _ => (inRoom roomId, log)

/-- What the client's close does. -/
def Phase.close (o : Oracle) (u : Peer) : Phase × List Asked → List Asked
  | (lobby, log) => log
  | (inRoom roomId, log) => o.ask log (.call (.onPlayerDisconnect u.playerId roomId))

/-- What the frames of a client ask, from a phase on: each frame is handled or ignored as
a whole. -/
def Phase.decode (o : Oracle) (u : Peer) (phase : Phase) (frames : List ClientFrame) : List Asked :=
  close o u (frames.foldl (handle o u) (phase, []))

end RType

import RType.Lib.Dialogue
import RType.Spec.ClientApp
import RType.Spec.TCPServer

/-!
# The handshake (`Network/TCPClient.cpp`, `Network/TCPServer.cpp`)

`sendConnectRequest` writes one request and waits for the response. It is a program over its
socket, and its world is the whole server with the connection in between: what the client
writes arrives in pieces, the threads of all connections go on, and the connection may break.
After the call the client goes on with its socket, as it likes.
-/

namespace RType

open Wire Dialogue Lts

/-- A `ConnectResponse` as it lies in memory, after its type. -/
def ConnectResponse.ofBytes (bs : List UInt8) : ConnectResponse :=
  ⟨ofLe32 (bs.take 4), ofLe16 ((bs.drop 4).take 2), ofLe32 (bs.drop 6)⟩

namespace Handshake

/-! ## The client -/

/-- What `sendConnectRequest` does with its socket. -/
inductive SocketOp
  | nonBlocking (mode : Bool)
  | write (bs : List UInt8)
  | read (n : ℕ)

/-- A write says whether it has failed. A read has failed where it returns fewer bytes than
it was asked for. Both throw then. -/
abbrev SocketOp.Result : SocketOp → Type
  | nonBlocking _ => Unit
  | write _ => Bool
  | read _ => List UInt8

/-- A program over the socket. -/
abbrev SocketM := Prog SocketOp SocketOp.Result

def nonBlocking (mode : Bool) : SocketM Unit := .call (SocketOp.nonBlocking mode)

def write (bs : List UInt8) : SocketM Bool := .call (SocketOp.write bs)

def read (n : ℕ) : SocketM (List UInt8) := .call (SocketOp.read n)

/-- The `ConnectRequest` for a username: `strncpy` leaves the last byte zero. -/
def connectRequest (username : List UInt8) : List UInt8 :=
  TCPMessageType.connect.code :: padded 32 (cText 31 username)

/-- `return result;`, after the socket is non-blocking again. -/
def answer (result : Option ConnectResponse) : SocketM (Option ConnectResponse) := do
  nonBlocking true
  return result

/-- The part of `sendConnectRequest` after the read of the type. -/
def handleResponse (type : List UInt8) : SocketM (Option ConnectResponse) := do
  if type.length < 1 then answer none
  else if type.headD 0 = 2 then
    let bs ← read 10
    if bs.length < 10 then answer none else answer (some (.ofBytes bs))
  else if type.headD 0 = 3 then
    let _ ← read 64
    answer none
  else answer none

/-- `sendConnectRequest`: the response, or nothing where it returns `false`. -/
def sendConnectRequest (username : List UInt8) : SocketM (Option ConnectResponse) := do
  nonBlocking false
  if ← write (connectRequest username) then answer none
  else
    let type ← read 1
    handleResponse type

/-! ## The connection -/

/-- A client's connection to the server: the bytes that it has written and the server has not
read, and how many of the server's it has read. -/
structure World (H : Type) where
  server : TCPServer H
  sock : ℕ
  toServer : List UInt8
  taken : ℕ

namespace World

variable {H ε : Type} (w : World H)

/-- What the server has written and the client has not read. -/
def arrived : List UInt8 := ((w.server.sent w.sock).flatMap Block.bytes).drop w.taken

/-- The client's end of the socket: a read waits for its bytes while the connection is open. -/
def perform : (o : SocketOp) → Option (o.Result × World H)
  | .nonBlocking _ => some ((), w)
  | .write bs =>
    if w.server.isOpen w.sock then some (false, { w with toServer := w.toServer ++ bs }) else some (true, w)
  | .read n =>
    if n ≤ w.arrived.length ∨ w.server.isOpen w.sock = false then
      some (w.arrived.take n, { w with taken := w.taken + min n w.arrived.length })
    else none

/-- What a step of the server reads of the client's bytes: the step of another thread none, and
otherwise the next ones, all that are asked for unless the connection has broken. -/
def reads (l : TCPServer.Label ε) : Option ℕ :=
  match l with
  | .thread t env =>
    if t = w.sock then
      match (w.server.pc t).act with
      | .read _ =>
        if env.received.stored <+: w.toServer ∧ (env.received.error = none ∨ w.server.isOpen w.sock = false) then
          some env.received.stored.length
        else none
      | _ => some 0
    else some 0
  | _ => some 0

/-- A step of the server. -/
def move (hd : ITCPHandler H) (ext : ε → H → H) (l : TCPServer.Label ε) : Option (World H) := do
  let n ← w.reads l
  let server ← w.server.step hd ext l
  some { w with server, toServer := w.toServer.drop n }

end World

/-- The connection once it is accepted. -/
def World.connected {H : Type} (s : TCPServer H) : World H where
  server := { s with
    accepted := s.accepted + 1
    pc := Function.update s.pc s.accepted .handshake
    isOpen := Function.update s.isOpen s.accepted true }
  sock := s.accepted
  toServer := []
  taken := 0

variable {H ε : Type}

/-- The socket of the client, and the server behind it. -/
def setting (hd : ITCPHandler H) (ext : ε → H → H) :
    Setting SocketOp SocketOp.Result (World H) (TCPServer.Label ε) where
  perform := World.perform
  move w l := w.move hd ext l

/-- One call of `sendConnectRequest`, and then any programs over its socket. -/
def machine (hd : ITCPHandler H) (ext : ε → H → H) :
    Machine (State SocketOp SocketOp.Result (Option ConnectResponse) (World H)) (Label (SocketM Unit) (TCPServer.Label ε)) :=
  (setting hd ext).machine fun p result => some (p >>= fun _ => .ret result)

end Handshake

end RType

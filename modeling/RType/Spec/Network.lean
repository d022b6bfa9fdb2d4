import RType.Spec.ClientTick
import RType.Spec.Lifetimes
import RType.Spec.WireViewer

/-!
# A client and the server over UDP

One client, frame by frame, and the whole server, with the datagrams between them. UDP may lose
a datagram, deliver it late, in any order or several times: what arrives is a copy of anything
that was ever sent. `arrived` is what the server has taken of the client, in order.

The client sends from one address. Whatever else happens to the server, datagrams of others
included, is a `ServerManager.Label`.
-/

namespace RType

open Lts

variable {F : Type*}

/-- A datagram that reaches the client in a frame: which of the messages of the server, with
what filling, and when it is handled. -/
structure Delivery where
  now : UInt32
  index : ℕ
  filling : Filling

/-- The client, the server, what the client has sent and what of it has arrived. -/
structure Network (F : Type*) where
  client : TickingClient F
  server : ServerManager F
  sent : List ClientMsg
  arrived : List ClientMsg

namespace Network

/-- What can happen next: the client draws a frame, a datagram of the client arrives, or
something else happens to the server. -/
inductive Label
  | frame (f : Frame) (deliveries : List Delivery)
  | arrive (index : ℕ)
  | server (l : ServerManager.Label)

/-- The datagram of a delivery, if it is one for the client. -/
def datagram (bits : F → UInt32) (addr : SockAddr) (s : Network F) (d : Delivery) : Option (UInt32 × List UInt8) :=
  match s.server.out[d.index]? with
  | some m => if m.addr = addr then some (d.now, queueMessage (m.msg.bytes bits d.filling)) else none
  | none => none

variable [FloatOps F]

/-- A client that has just sent its first packet, and a server that has just started. -/
def start (playerId serverTimeMs : UInt32) : Network F :=
  ⟨.new playerId serverTimeMs, .init, [.playerInput (RTypeClient.firstPacket playerId)], []⟩

/-- One step. -/
def step (bits : F → UInt32) (float : UInt32 → F) (addr : SockAddr) (s : Network F) : Label → Option (Network F)
  | .frame f deliveries =>
    (deliveries.mapM (s.datagram bits addr)).map fun datagrams =>
      let (client, sends) := s.client.tick float { f with datagrams }
      { s with client, sent := s.sent ++ sends }
  | .arrive index =>
    (s.sent[index]?).map fun m =>
      { s with server := s.server.onMessageReceived m.bytes addr, arrived := s.arrived ++ [m] }
  | .server l => (ServerManager.machine.step s.server l).map fun server => { s with server }

/-- Client, server and channels as a machine. -/
def machine (bits : F → UInt32) (float : UInt32 → F) (addr : SockAddr) : Machine (Network F) Label :=
  ⟨step bits float addr⟩

end Network

end RType

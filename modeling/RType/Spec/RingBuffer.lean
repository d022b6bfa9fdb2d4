import RType.Lib.Fifo
import RType.Lib.Machine
import RType.Spec.ProtocoleUDP

/-!
# Ring buffers and the loops around them (`Network/RingBuffer.hpp`, `Network/UDPServer.cpp`)

Every method of a ring buffer is one section under its mutex, so a call is atomic. The UDP
server has three threads: `recvLoop` fills `_incoming`, `processLoop` empties it, and
`sendLoop` empties `_outgoing`, which any thread fills by `queueMessage`.
-/

namespace RType

open Lts

/-- `Network::RingBuffer`. The indices stay below `Capacity`, a `size_t`. -/
structure RingBuffer (T : Type*) (Capacity : ℕ) where
  buffer : Vector T Capacity
  head : ℕ
  tail : ℕ
  count : ℕ

namespace RingBuffer

variable {T : Type*} {Capacity : ℕ}

/-- The constructor, over an array that is not filled yet. -/
def new (buffer : Vector T Capacity) : RingBuffer T Capacity := ⟨buffer, 0, 0, 0⟩

/-- `push` -/
def push (b : RingBuffer T Capacity) (item : T) : Bool × RingBuffer T Capacity :=
  if b.count = Capacity then (false, b)
  else
    (true, { b with
      buffer := b.buffer.setIfInBounds b.head item
      head := (b.head + 1) % Capacity
      count := b.count + 1 })

/-- `pop` -/
def pop (b : RingBuffer T Capacity) : Option T × RingBuffer T Capacity :=
  if b.count = 0 then (none, b)
  else (b.buffer[b.tail]?, { b with tail := (b.tail + 1) % Capacity, count := b.count - 1 })

/-- `isEmpty` -/
def isEmpty (b : RingBuffer T Capacity) : Bool := b.count = 0

/-- `isFull` -/
def isFull (b : RingBuffer T Capacity) : Bool := b.count = Capacity

/-- A ring buffer as an object with the calls of a queue. -/
def object : Fifo.Object (RingBuffer T Capacity) T where
  call
    | b, .push x => let (accepted, b') := b.push x; (.pushed accepted, b')
    | b, .pop => let (x, b') := b.pop; (.popped x, b')
    | b, .isEmpty => (.test b.isEmpty, b)
    | b, .isFull => (.test b.isFull, b)
    | b, .count => (.size b.count, b)

end RingBuffer

/-! ## The threads of the UDP server -/

/-- `Network::Packet`: the bytes of `data` up to `length`, and the address. -/
structure Packet where
  data : List UInt8
  addr : SockAddr

/-- Where `recvLoop` stands. -/
inductive RecvPc
  | check
  | receive
  | push (pkt : Packet)
  | stopped

/-- Where `sendLoop` stands. -/
inductive SendPc
  | check
  | isEmpty
  | pop
  | send (pktOpt : Option Packet)
  | stopped

/-- Where `processLoop` stands; at `handle` it dereferences the optional. -/
inductive ProcessPc
  | check
  | isEmpty
  | pop
  | handle (pktOpt : Option Packet)
  | stopped

/-- The fields of `UDPServer` and its threads. `sent` is what went out on the socket,
`handled` what `onMessageReceived` was called with. -/
structure UDPServer where
  running : Bool
  incoming : RingBuffer Packet 1024
  outgoing : RingBuffer Packet 1024
  recvLoop : RecvPc
  sendLoop : SendPc
  processLoop : ProcessPc
  sent : List Packet
  handled : List Packet

namespace UDPServer

/-- The server once its threads are started. -/
def start (incoming outgoing : Vector Packet 1024) : UDPServer :=
  ⟨true, .new incoming, .new outgoing, .check, .check, .check, [], []⟩

/-- What can happen next: a thread takes its next step, any thread queues a message, or the
server is stopped. A receive gives a packet or fails. -/
inductive Label
  | recv (received : Option Packet)
  | send
  | process
  | queueMessage (pkt : Packet)
  | stop

/-- One step of `recvLoop`. -/
def stepRecv (s : UDPServer) (received : Option Packet) : Option UDPServer :=
  match s.recvLoop with
  | .check => some { s with recvLoop := if s.running then .receive else .stopped }
  | .receive =>
    if s.running then
      match received with
      | some pkt => some { s with recvLoop := .push pkt }
      | none => some { s with recvLoop := .check }
    else some { s with recvLoop := .stopped }
  | .push pkt => some { s with incoming := (s.incoming.push pkt).2, recvLoop := .check }
  | .stopped => none

/-- One step of `sendLoop`. -/
def stepSend (s : UDPServer) : Option UDPServer :=
  match s.sendLoop with
  | .check => some { s with sendLoop := if s.running then .isEmpty else .stopped }
  | .isEmpty => some { s with sendLoop := if s.outgoing.isEmpty then .check else .pop }
  | .pop => some { s with outgoing := s.outgoing.pop.2, sendLoop := .send s.outgoing.pop.1 }
  | .send none => some { s with sendLoop := .check }
  | .send (some pkt) => some { s with sent := s.sent ++ [pkt], sendLoop := .check }
  | .stopped => none

/-- One step of `processLoop`. An empty optional cannot be dereferenced. -/
def stepProcess (s : UDPServer) : Option UDPServer :=
  match s.processLoop with
  | .check => some { s with processLoop := if s.running then .isEmpty else .stopped }
  | .isEmpty => some { s with processLoop := if s.incoming.isEmpty then .check else .pop }
  | .pop => some { s with incoming := s.incoming.pop.2, processLoop := .handle s.incoming.pop.1 }
  | .handle none => none
  | .handle (some pkt) => some { s with handled := s.handled ++ [pkt], processLoop := .check }
  | .stopped => none

/-- One step. -/
def step (s : UDPServer) : Label → Option UDPServer
  | .recv received => s.stepRecv received
  | .send => s.stepSend
  | .process => s.stepProcess
  | .queueMessage pkt => some { s with outgoing := (s.outgoing.push pkt).2 }
  | .stop => some { s with running := false }

/-- The threads of the UDP server as a machine. -/
def machine : Machine UDPServer Label := ⟨step⟩

end UDPServer

end RType

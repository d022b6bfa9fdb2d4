import RType.Lib.Machine
import RType.Lib.Bytes
import RType.Lib.Chunks
import RType.Lib.Prediction
import RType.Lib.Framing
import RType.Lib.Maps
import RType.Lib.Fifo
import RType.Lib.Locks
import RType.Lib.Dialogue
import RType.Lib.Tally
import RType.Lib.Copies
import RType.Lib.Matching
import RType.Lib.Replica
import RType.Lib.Transcript
import RType.Lib.PubSub
import RType.Spec.Float
import RType.Spec.ProtocoleUDP
import RType.Spec.Game
import RType.Spec.RTypeClient
import RType.Spec.ProtocoleTCP
import RType.Spec.TCPServer
import RType.Spec.Session
import RType.Spec.ServerManager
import RType.Spec.GameThreads
import RType.Spec.Link
import RType.Spec.TCPClient
import RType.Spec.Lifetimes
import RType.Spec.Viewer
import RType.Spec.WireViewer
import RType.Spec.Datagrams
import RType.Spec.RingBuffer
import RType.Spec.Mutexes
import RType.Spec.RoomSelection
import RType.Spec.ClientApp
import RType.Spec.Handshake
import RType.Spec.Network
import RType.Proof.Rooms
import RType.Proof.Sections
import RType.Proof.InputRace
import RType.Proof.Departures
import RType.Proof.EntityWork
import RType.Proof.EntityMessages
import RType.Proof.ClientFrames
import RType.Proof.Peers
import RType.Proof.Relays
import RType.Proof.Isolation
import RType.Proof.ServerFrames
import RType.Proof.OwnPlayer
import RType.Proof.ClientInputs
import RType.Proof.Predicts
import RType.Proof.InputCounts
import RType.Proof.DuplicateInputs
import RType.Proof.Acknowledgements
import RType.Proof.StateOrder
import RType.Proof.SyncRoundTrip
import RType.Proof.LobbyFrames
import RType.Proof.BossEntries
import RType.Proof.Lifetimes
import RType.Proof.NewRooms
import RType.Proof.EntitySync
import RType.Proof.RingBuffer
import RType.Proof.Deadlocks
import RType.Proof.ChatFrames
import RType.Proof.ChatPolls
import RType.Proof.Capacity
import RType.Proof.LobbyLife
import RType.Proof.Sessions
import RType.Proof.ChatRouting
import RType.Proof.Deletions
import RType.Proof.Datagrams
import RType.Proof.RoomSelection
import RType.Proof.RoomPolls
import RType.Proof.BossFights
import RType.Proof.EntitySteps
import RType.Proof.BossShots
import RType.Proof.Collisions
import RType.Proof.LossWindow
import RType.Proof.Hitboxes
import RType.Proof.Lingering
import RType.Proof.Tunnelling
import RType.Proof.TruncatedFrames
import RType.Proof.Usernames
import RType.Proof.LeftGames
import RType.Proof.ConfigRoundTrip
import RType.Proof.Replication
import RType.Proof.ChatOrder
import RType.Proof.ClientApp
import RType.Proof.Handshake
import RType.Proof.RoomMessages
import RType.Proof.WireViewer
import RType.Proof.Agreement
import RType.Proof.RoomThreads
import RType.Proof.ServerMessages
import RType.Proof.Network
import RType.Proof.Endings

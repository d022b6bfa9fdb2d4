import RType.Lib.Locks

/-!
# The mutexes of the server

The methods of `Game`, `UDPServer`, `TCPServer` and `ServerManager` as programs over their
mutexes: every `std::lock_guard` with its scope, every call made inside it, and every branch
and loop around it. A game is named by a number. What a call reads decides its branches and
the number of its turns, so both are left open; the lists of games are the rooms in the
order of the map.
-/

namespace RType

open Locks Locks.Prog

/-- The mutexes: `ServerManager::_serverMutex`, `TCPServer::_serverMutex`, `_entitiesMutex`
and `_playersMutex` of each game, and those of the two ring buffers. -/
inductive Mutex
  | serverManager
  | tcpServer
  | entities (game : ℕ)
  | players (game : ℕ)
  | incoming
  | outgoing
deriving DecidableEq

/-- What a thread does, as far as mutexes go. -/
abbrev LockProg := Prog Mutex

namespace UDPServer

/-- `queueMessage`: a push to `_outgoing`. -/
def queueMessageLocks : LockProg := locked .outgoing

/-- Queue a message for every player whose address is known. -/
def toPlayersLocks : LockProg := many (opt queueMessageLocks)

/-- A turn of `recvLoop`. -/
def recvLoopLocks : LockProg := opt (locked .incoming)

/-- A turn of `sendLoop`: `isEmpty`, then `pop`. -/
def sendLoopLocks : LockProg := seq (locked .outgoing) (opt (locked .outgoing))

end UDPServer

namespace Game

open UDPServer

/-- A method that is one section under `_playersMutex`. -/
def playersSection (g : ℕ) : LockProg := locked (.players g)

abbrev addPlayerLocks : ℕ → LockProg := playersSection
abbrev updatePlayerUdpAddrLocks : ℕ → LockProg := playersSection
abbrev setPlayerLastProcessedTickLocks : ℕ → LockProg := playersSection
abbrev getPlayerLocks : ℕ → LockProg := playersSection
abbrev getPlayerCountLocks : ℕ → LockProg := playersSection
abbrev getHostIdLocks : ℕ → LockProg := playersSection
abbrev removePlayerFromLobbyLocks : ℕ → LockProg := playersSection

/-- `broadcastGameState` -/
def broadcastGameStateLocks (g : ℕ) : LockProg := locking (.players g) (many (opt toPlayersLocks))

/-- Work on the entities, then messages to the players. -/
def announceLocks (g : ℕ) : LockProg := locking (.entities g) (locking (.players g) toPlayersLocks)

/-- `createPlayerShot` -/
def createPlayerShotLocks (g : ℕ) : LockProg := seq (getPlayerLocks g) (opt (announceLocks g))

/-- `createPlayerChargedShot` -/
def createPlayerChargedShotLocks (g : ℕ) : LockProg := seq (getPlayerLocks g) (opt (announceLocks g))

/-- `createEnemy` -/
def createEnemyLocks (g : ℕ) : LockProg := announceLocks g

/-- `updateEntities`: an entity that leaves is announced without `_playersMutex`. -/
def updateEntitiesLocks (g : ℕ) : LockProg :=
  locking (.entities g) (many (choice toPlayersLocks (locking (.players g) toPlayersLocks)))

/-- `updateGameLevel` -/
def updateGameLevelLocks (g : ℕ) : LockProg := locked (.entities g)

/-- `sendGlobalStateSync` -/
def sendGlobalStateSyncLocks (g : ℕ) : LockProg := announceLocks g

/-- `handleCollision`: each hit of a boss is announced. -/
def handleCollisionLocks (g : ℕ) : LockProg :=
  locking (.entities g) (locking (.players g) (many (opt toPlayersLocks)))

/-- The spawn of a boss in `update`. -/
def spawnBossLocks (g : ℕ) : LockProg :=
  locking (.entities g) (locking (.players g) (many (opt (seq queueMessageLocks queueMessageLocks))))

/-- The boss shots of `update`: the search for the boss, then the shots. -/
def bossShootLocks (g : ℕ) : LockProg :=
  seq (locked (.entities g)) (opt (locking (.entities g) (locking (.players g) (many toPlayersLocks))))

/-- `update` -/
def updateLocks (g : ℕ) : LockProg :=
  opt (seq (updateEntitiesLocks g) (seq (handleCollisionLocks g) (seq (broadcastGameStateLocks g)
    (seq (updateGameLevelLocks g) (seq (opt (spawnBossLocks g)) (seq (opt (bossShootLocks g))
      (seq (opt (createEnemyLocks g)) (opt (sendGlobalStateSyncLocks g)))))))))

/-- `handlePlayerInput` -/
def handlePlayerInputLocks (g : ℕ) : LockProg :=
  seq (getPlayerLocks g) (opt (seq (setPlayerLastProcessedTickLocks g)
    (seq (opt (createPlayerShotLocks g)) (opt (createPlayerChargedShotLocks g)))))

/-- `disconnectPlayer` -/
def disconnectPlayerLocks (g : ℕ) : LockProg := locking (.players g) toPlayersLocks

/-- `kickPlayer` -/
def kickPlayerLocks (g : ℕ) : LockProg :=
  locking (.players g) (seq (many (opt (opt queueMessageLocks))) toPlayersLocks)

end Game

namespace TCPServer

/-- One section under `_serverMutex`. -/
def serverSection : LockProg := locked .tcpServer

/-- The four sections of `handleClient`: the registration of a session, its entry into a
room, its departure from it, and the end of its registration. -/
abbrev handleClientLocks : LockProg := serverSection

abbrev kickPlayerLocks : LockProg := serverSection

/-- A `CHAT_MESSAGE` of `handleInRoomClient`: the name of the sender, then the relay. -/
def relayLocks : LockProg := seq serverSection serverSection

end TCPServer

namespace ServerManager

open Game

/-- A turn of the loop of `run`. -/
def runLocks (games : List ℕ) : LockProg := locking .serverManager (each games updateLocks)

/-- `onMessageReceived`: the search for the player's room is made without `_serverMutex`. -/
def onMessageReceivedLocks (games : List ℕ) : LockProg :=
  choice (search games getPlayerLocks fun g => seq (updatePlayerUdpAddrLocks g) (handlePlayerInputLocks g))
    (choice (search games getPlayerLocks disconnectPlayerLocks) (opt UDPServer.queueMessageLocks))

/-- A section under `_serverMutex` that calls no method with a mutex of its own. -/
def roomsSection : LockProg := locked .serverManager

abbrev onCreateRoomLocks : LockProg := roomsSection
abbrev onGetPlayersInRoomLocks : LockProg := roomsSection
abbrev isGameStartingLocks : LockProg := roomsSection

/-- `onGetRooms` -/
def onGetRoomsLocks (games : List ℕ) : LockProg := locking .serverManager (each games getPlayerCountLocks)

/-- One call of a method of the room, if it is there. -/
def onRoomLocks (method : LockProg) : LockProg := locking .serverManager (opt method)

abbrev onJoinRoomLocks (g : ℕ) : LockProg := onRoomLocks (addPlayerLocks g)
abbrev onPlayerDisconnectLocks (g : ℕ) : LockProg := onRoomLocks (removePlayerFromLobbyLocks g)
abbrev onGetLobbyStateLocks (g : ℕ) : LockProg := onRoomLocks (getHostIdLocks g)
abbrev onStartGameLocks (g : ℕ) : LockProg := onRoomLocks (getHostIdLocks g)

/-- The shell command `rooms`. -/
def roomsLocks (games : List ℕ) : LockProg := locking .serverManager (each games getPlayerCountLocks)

/-- The shell command `delete`. -/
abbrev deleteLocks : LockProg := roomsSection

/-- The shell command `kick`: the room first, then the socket. -/
def kickLocks (games : List ℕ) : LockProg :=
  seq (locking .serverManager (search games getPlayerLocks Game.kickPlayerLocks)) TCPServer.kickPlayerLocks

/-- A turn of `processLoop`: `isEmpty`, `pop`, and the packet. -/
def processLoopLocks (games : List ℕ) : LockProg :=
  seq (locked .incoming) (opt (seq (locked .incoming) (onMessageReceivedLocks games)))

/-- What the threads of the server do: the loop of `run`, the shell, the threads of the
connections, and those of the UDP server. -/
inductive ThreadOp
  | run (games : List ℕ)
  | onCreateRoom
  | onGetRooms (games : List ℕ)
  | onJoinRoom (game : ℕ)
  | onGetPlayersInRoom
  | isGameStarting
  | onPlayerDisconnect (game : ℕ)
  | onGetLobbyState (game : ℕ)
  | onStartGame (game : ℕ)
  | rooms (games : List ℕ)
  | create
  | delete
  | kick (games : List ℕ)
  | onMessageReceived (games : List ℕ)
  | register
  | enterRoom
  | leaveRoom
  | unregister
  | relay
  | recvLoop
  | sendLoop
  | processLoop (games : List ℕ)

/-- The program of each. -/
def ThreadOp.locks : ThreadOp → LockProg
  | run games => runLocks games
  | onCreateRoom | create => onCreateRoomLocks
  | onGetRooms games => onGetRoomsLocks games
  | onJoinRoom game => onJoinRoomLocks game
  | onGetPlayersInRoom => onGetPlayersInRoomLocks
  | isGameStarting => isGameStartingLocks
  | onPlayerDisconnect game => onPlayerDisconnectLocks game
  | onGetLobbyState game => onGetLobbyStateLocks game
  | onStartGame game => onStartGameLocks game
  | rooms games => roomsLocks games
  | delete => deleteLocks
  | kick games => kickLocks games
  | onMessageReceived games => onMessageReceivedLocks games
  | register | enterRoom | leaveRoom | unregister => TCPServer.handleClientLocks
  | relay => TCPServer.relayLocks
  | recvLoop => UDPServer.recvLoopLocks
  | sendLoop => UDPServer.sendLoopLocks
  | processLoop games => processLoopLocks games

end ServerManager

end RType

import RType.Lib.Transcript
import RType.Spec.ConfigManager
import RType.Spec.RoomSelection
import RType.Spec.TCPClient

/-!
# The client from its start to its end (`Client/ClientManager.cpp`)

`ClientManager::run` is a loop over screens: a frame shows the screen of `_currentState`, asks
the player and the server what it needs, and chooses the screen of the next frame. A frame is a
program over what it asks for; `RoomSelection` and `ConfigManager` have its parts that choose a
room and edit the configuration.

What the screens draw is left out.
-/

namespace RType

open Dialogue Wire RoomSelection Renderer ConfigManager

/-- `ConnectResponse` -/
structure ConnectResponse where
  playerId : UInt32
  udpPort : UInt16
  serverTimeMs : UInt32
deriving DecidableEq

namespace Renderer

/-- `MainMenuChoice` -/
inductive MainMenuChoice
  | none | start | options
deriving DecidableEq

/-- What `drawRoomMenu` reads in one frame: a click on the button that creates, and clicks on
the rooms by their place in the list. -/
structure RoomMenuFrame where
  create : Bool
  clicked : ℕ → Bool

/-- `drawRoomMenu`: the action of the player. -/
def drawRoomMenu (rooms : List RoomInfo) (f : RoomMenuFrame) : Int32 :=
  rooms.zipIdx.foldl (fun action r => if f.clicked r.2 then Int32.ofInt r.1.id else action)
    (if f.create then -2 else -1)

/-- `drawLobby`, where the button that starts the game is the host's alone; `clicked` is a click
where it would be. -/
def drawLobby (l : LobbyState) (myPlayerId : UInt32) (clicked : Bool) : Bool :=
  myPlayerId = l.hostId && clicked

end Renderer

namespace ClientApp

/-! ## What a frame asks for -/

/-- What `run` asks the window, the player, the clock, the server and the game for. The lobby
is drawn from a state of the lobby, for a player. -/
inductive AppOp
  | windowShouldClose
  | drawUsernameInput
  | saveConfig (file : List UInt8)
  | drawMainMenu
  | drawOptionsMenu
  | connectToServer
  | sendConnectRequest (username : List UInt8)
  | getTime
  | socket (o : SocketOp)
  | drawRoomMenu
  | getLobbyState
  | drawLobby (l : LobbyState) (myPlayerId : UInt32)
  | sendStartGameRequest
  | newGame (connectRes : ConnectResponse) (keybinds : Keybinds)
  | tick
  | drawKickedScreen

/-- The answers. A handshake that fails has none. -/
abbrev AppOp.Result (F : Type) : AppOp → Type
  | windowShouldClose => Bool
  | drawUsernameInput => UsernameFrame
  | saveConfig _ => Unit
  | drawMainMenu => MainMenuChoice
  | drawOptionsMenu => OptionsFrame
  | connectToServer => Bool
  | sendConnectRequest _ => Option ConnectResponse
  | getTime => F
  | socket o => o.Result
  | drawRoomMenu => RoomMenuFrame
  | getLobbyState => LobbyState
  | drawLobby _ _ => Bool
  | sendStartGameRequest => Unit
  | newGame _ _ => Unit
  | tick => InGameStatus
  | drawKickedScreen => Bool

variable {F : Type}

/-- A program over these. -/
abbrev AppM (F : Type) := Prog AppOp (AppOp.Result F)

/-- One question. -/
def ask (o : AppOp) : AppM F (o.Result F) := .call o

/-- A program over the socket. -/
def onSocket {α : Type} (p : SocketM α) : AppM F α := p.embed AppOp.socket fun _ r => r

end ClientApp

open ClientApp

/-- The fields of `ClientManager`, and of its renderer `_actionToRemap`. `connectRes` is not read
before the handshake; `closed` says that the window was closed. -/
structure ClientApp (F : Type) where
  config : Config
  actionToRemap : Option (List UInt8)
  selection : RoomSelection.ClientManager
  connectRes : ConnectResponse
  connected : Bool
  lastRoomUpdate : F
  lobbyState : LobbyState
  lastLobbyUpdate : F
  gameInstance : Bool
  closed : Bool

namespace ClientApp

variable {F : Type} [FloatOps F] (a : ClientApp F)

/-- The constructor of `ClientManager`, where the server can be reached. -/
def new (file : Option (List UInt8)) : ClientApp F where
  config := loadConfig file
  actionToRemap := none
  selection :=
    { RoomSelection.ClientManager.init with
      currentState := if (loadConfig file).username = [] then .usernameInput else .mainMenu }
  connectRes := ⟨0, 0, 0⟩
  connected := false
  lastRoomUpdate := 0.0
  lobbyState := .init
  lastLobbyUpdate := 0.0
  gameInstance := false
  closed := false

/-- `_currentState = state` -/
def go (state : ClientState) : ClientApp F := { a with selection.currentState := state }

/-! ## The screens -/

/-- The case `USERNAME_INPUT` of `run`. -/
def usernameInput : AppM F (ClientApp F) := do
  let f ← ask .drawUsernameInput
  let (username, confirmed) := Renderer.drawUsernameInput a.config.username f
  let a := { a with config.username := username }
  if confirmed then
    ask (.saveConfig (saveConfig a.config))
    return a.go .mainMenu
  else return a

/-- The case `MAIN_MENU`. -/
def mainMenu : AppM F (ClientApp F) := do
  match ← ask .drawMainMenu with
  | .start => return a.go .roomSelection
  | .options => return a.go .options
  | .none => return a

/-- The case `OPTIONS`. -/
def options : AppM F (ClientApp F) := do
  let f ← ask .drawOptionsMenu
  let (menu, back) := Renderer.drawOptionsMenu ⟨a.config.keybinds, a.actionToRemap⟩ f
  let a := { a with config.keybinds := menu.keybinds, actionToRemap := menu.actionToRemap }
  if back then
    ask (.saveConfig (saveConfig a.config))
    return a.go .mainMenu
  else return a

/-- `_rooms = _tcpClient.getRooms()`, once a second. -/
def updateRooms : AppM F (ClientApp F) := do
  let now ← ask .getTime
  let due := decide (1.0 < now - a.lastRoomUpdate)
  let selection ← onSocket (a.selection.updateRooms due)
  let updated := due && !a.selection.createRoomInitiated && !a.selection.joinRoomInitiated
  return { a with selection, lastRoomUpdate := if updated then now else a.lastRoomUpdate }

/-- What the action of the player comes to. -/
def chooseRoom (m : RoomSelection.ClientManager) (action : Int32) : SocketM RoomSelection.ClientManager := do
  let m ← m.startCreate action
  let m ← m.awaitCreate
  let m ← m.startJoin action
  m.awaitJoin

/-- The case `ROOM_SELECTION` on a connection. -/
def connectedSelection : AppM F (ClientApp F) := do
  let a ← a.updateRooms
  let f ← ask .drawRoomMenu
  let selection ← onSocket (chooseRoom a.selection (Renderer.drawRoomMenu a.selection.rooms f))
  return { a with selection }

/-- The case `ROOM_SELECTION`. -/
def roomSelection : AppM F (ClientApp F) := do
  if a.connected then a.connectedSelection
  else if ← ask .connectToServer then
    match ← ask (.sendConnectRequest a.config.username) with
    | some connectRes => connectedSelection { a with connectRes, connected := true }
    | none => return a.go .exiting
  else return a.go .mainMenu

/-- `_lobbyState = _tcpClient.getLobbyState()`, twice a second. -/
def updateLobby : AppM F (ClientApp F) := do
  if 0.5 < (← ask .getTime) - a.lastLobbyUpdate then
    let lobbyState ← ask .getLobbyState
    let lastLobbyUpdate ← ask .getTime
    return { a with lobbyState, lastLobbyUpdate }
  else return a

/-- The case `LOBBY`. -/
def lobby : AppM F (ClientApp F) := do
  let a ← a.updateLobby
  if (← ask .getLobbyState).gameIsStarting then return a.go .inGame
  else
    let clicked ← ask (.drawLobby a.lobbyState a.connectRes.playerId)
    if Renderer.drawLobby a.lobbyState a.connectRes.playerId clicked then
      ask .sendStartGameRequest
      return a
    else return a

/-- `_gameInstance->tick()`, and what its status comes to. -/
def tickGame : AppM F (ClientApp F) := do
  match ← ask .tick with
  | .quitting => return { a.go .exiting with gameInstance := false }
  | .kicked => return { a.go .kicked with gameInstance := false }
  | _ => return a

/-- The case `IN_GAME`. -/
def inGame : AppM F (ClientApp F) := do
  if a.gameInstance then a.tickGame
  else
    ask (.newGame a.connectRes a.config.keybinds)
    tickGame { a with gameInstance := true }

/-- The case `KICKED`. -/
def kicked : AppM F (ClientApp F) := do
  if ← ask .drawKickedScreen then return a.go .exiting else return a

/-- The switch of `run`. -/
def screen : AppM F (ClientApp F) :=
  match a.selection.currentState with
  | .usernameInput => a.usernameInput
  | .mainMenu => a.mainMenu
  | .options => a.options
  | .roomSelection => a.roomSelection
  | .lobby => a.lobby
  | .inGame => a.inGame
  | .kicked => a.kicked
  | .exiting => return a

/-- One turn of the loop of `run`, where the window is asked first. -/
def frame : AppM F (ClientApp F) := do
  if ← ask .windowShouldClose then return { a with closed := true } else a.screen

/-- `run` goes on as long as the screen is not `EXITING` and the window is open. -/
def next (a : ClientApp F) : Option (AppM F (ClientApp F)) :=
  if a.selection.currentState = .exiting ∨ a.closed then none else some a.frame

/-- `run`, whatever the answers. -/
def machine : Lts.Machine (Spoken AppOp (AppOp.Result F) (ClientApp F)) (Turn Unit AppOp (AppOp.Result F)) :=
  speaking fun _ a => a.next

end ClientApp

end RType

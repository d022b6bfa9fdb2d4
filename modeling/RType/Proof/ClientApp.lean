import RType.Spec.ClientApp

/-!
# What a client says, and in which order

Whatever the server and the player answer, a client keeps to one order (`Phase`): a connection,
one handshake under a name, the requests of a room selection until a join succeeds, those of the
lobby, one game from when the lobby says that it starts, and nothing after its end. Only a
player who is shown as the host starts the game.

* `poll_follows`: a request is answered as the bytes that are read say.
* `chooseRoom_follows`: a frame of the room selection ends in the lobby once the answer to a join
  has been read that says so.
* `screen_follows`: every frame keeps screen and phase together (`Stands`).
* `follows_phases`: hence every run keeps to the order.
-/

namespace RType

open Wire Dialogue Lts RoomSelection

namespace ClientApp

variable {F : Type}

/-! ## The order -/

/-- How far a client is. While it chooses a room, `typed` says that it has just read the type of the
answer to a join. In a lobby, `seen` is what it knows of the lobby, the newest first, and
`mayStart` says that the host has just asked for the game. -/
inductive Phase
  | offline
  | greeting
  | refused
  | choosing (res : ConnectResponse) (typed : Bool)
  | inLobby (res : ConnectResponse) (seen : List LobbyState) (mayStart : Bool)
  | playing (res : ConnectResponse)
  | kicked
  | over
deriving DecidableEq

/-- What a client may write while it chooses a room. -/
def choosingRequest : ClientFrame → Bool
  | .listRooms | .createRoom | .joinRoom _ => true
  | _ => false

/-- What has been read is the type of the answer to a join. -/
def isJoinType (found : List UInt8) : Bool := found.headD 0 = TCPMessageType.joinRoomResponse.code

/-- What has been read is the status of a join that has succeeded. -/
def saysJoined (found : List UInt8) : Bool := 4 ≤ found.length ∧ (ofLe32 found).toInt32 = 1

/-- What follows an answer; nothing, where the question may not be asked. -/
def Phase.after : Phase → (o : AppOp) → o.Result F → Option Phase
  | .offline, .windowShouldClose, (closed : Bool) => some (if closed then .over else .offline)
  | .offline, .drawUsernameInput, _ | .offline, .saveConfig _, _ | .offline, .drawMainMenu, _
  | .offline, .drawOptionsMenu, _ => some .offline
  | .offline, .connectToServer, (connected : Bool) => some (if connected then .greeting else .offline)
  | .greeting, .sendConnectRequest username, (answer : Option ConnectResponse) =>
    if username = [] then none else some (answer.elim .refused (.choosing · false))
  | .choosing res _, .windowShouldClose, (closed : Bool) => some (if closed then .over else .choosing res false)
  | .choosing res _, .getTime, _ | .choosing res _, .drawRoomMenu, _ => some (.choosing res false)
  | .choosing res _, .socket (.write request), _ =>
    if choosingRequest request then some (.choosing res false) else none
  | .choosing res typed, .socket (.read n), (found : List UInt8) =>
    some (if typed ∧ n = 4 ∧ saysJoined found then .inLobby res [.init] false
      else .choosing res (n = 1 ∧ isJoinType found))
  | .choosing res _, .socket _, _ => some (.choosing res false)
  | .inLobby res seen _, .socket (.nonBlocking _), _ | .inLobby res seen _, .socket (.note _), _ =>
    some (.inLobby res seen false)
  | .inLobby res seen _, .windowShouldClose, (closed : Bool) => some (if closed then .over else .inLobby res seen false)
  | .inLobby res seen _, .getTime, _ => some (.inLobby res seen false)
  | .inLobby res seen _, .getLobbyState, (l : LobbyState) => some (.inLobby res (l :: seen) false)
  | .inLobby res seen _, .drawLobby l myPlayerId, (clicked : Bool) =>
    if l ∈ seen ∧ myPlayerId = res.playerId then some (.inLobby res seen (res.playerId = l.hostId && clicked))
    else none
  | .inLobby res seen true, .sendStartGameRequest, _ => some (.inLobby res seen false)
  | .inLobby res (l :: _) _, .newGame connectRes _, _ =>
    if l.gameIsStarting ∧ connectRes = res then some (.playing res) else none
  | .playing res, .windowShouldClose, (closed : Bool) => some (if closed then .over else .playing res)
  | .playing res, .tick, (status : InGameStatus) =>
    some (if status = .quitting then .over else if status = .kicked then .kicked else .playing res)
  | .kicked, .windowShouldClose, (closed : Bool) => some (if closed then .over else .kicked)
  | .kicked, .drawKickedScreen, (leaves : Bool) => some (if leaves then .over else .kicked)
  | _, _, _ => none

/-- The order as a machine that reads what a client asks, and the answers. -/
def phases : Machine Phase (Done AppOp (AppOp.Result F)) where
  step φ d := φ.after d.1 d.2

variable {φ : Phase} {res : ConnectResponse}

/-- A question, and the rest of a program. -/
theorem follows_ask {α : Type} {o : AppOp} {φ' : o.Result F → Phase} {k : o.Result F → AppM F α}
    {Q : α → Phase → Prop} (h : ∀ r, φ.after o r = some (φ' r)) (hk : ∀ r, Follows phases (k r) Q (φ' r)) :
    Follows phases (ask o >>= k) Q φ :=
  follows_bind.2 (follows_call fun r => ⟨φ' r, h r, hk r⟩)

/-! ## The room selection -/

section Selection

/-- The client chooses a room. -/
def Choosing (res : ConnectResponse) (φ : Phase) : Prop := ∃ typed, φ = .choosing res typed

/-- One operation on the socket, and the rest of a program. -/
theorem follows_socket {α : Type} {o : SocketOp} {φ' : o.Result → Phase} {k : o.Result → SocketM α}
    {Q : α → Phase → Prop}
    (h : ∀ r, φ.after (F := F) (.socket o) r = some (φ' r))
    (hk : ∀ r, Follows (phases (F := F)) (onSocket (k r)) Q (φ' r)) :
    Follows (phases (F := F)) (onSocket (Prog.call o >>= k : SocketM α)) Q φ :=
  fun r => ⟨φ' r, h r, hk r⟩

/-- One program on the socket after another. -/
theorem follows_onSocket_bind {α β : Type} {p : SocketM α} {k : α → SocketM β} {Q : β → Phase → Prop} :
    Follows (phases (F := F)) (onSocket (p >>= k)) Q φ ↔
      Follows (phases (F := F)) (onSocket p) (fun a φ => Follows (phases (F := F)) (onSocket (k a)) Q φ) φ := by
  unfold onSocket
  rw [embed_bind, follows_bind]

/-- A read that cannot be the status of a join. -/
theorem after_read {n : ℕ} {typed : Bool} (found : List UInt8) (h : typed = false ∨ n ≠ 4) :
    (Phase.choosing res typed).after (F := F) (.socket (.read n)) found =
      some (.choosing res (n = 1 ∧ isJoinType found)) := by
  refine congrArg some (if_neg ?_)
  rintro ⟨htyped, hn, -⟩
  rcases h with rfl | hother
  · cases htyped
  · exact hother hn

/-- A request is answered as the bytes that are read say. -/
def Replied (res : ConnectResponse) (awaited : TCPMessageType) (reply : Reply) (φ : Phase) : Prop :=
  (awaited = .joinRoomResponse ∧ reply = .value 1 ∧ φ = .inLobby res [.init] false) ∨
    (¬(awaited = .joinRoomResponse ∧ reply = .value 1) ∧ Choosing res φ)

theorem replied_pending {awaited : TCPMessageType} {typed : Bool} : Replied res awaited .pending (.choosing res typed) :=
  .inr ⟨fun h => Reply.noConfusion h.2, typed, rfl⟩

theorem replied_failed {awaited : TCPMessageType} {typed : Bool} : Replied res awaited .failed (.choosing res typed) :=
  .inr ⟨fun h => Reply.noConfusion h.2, typed, rfl⟩

/-- The socket is set back to non-blocking. -/
theorem Replied.nonBlocking {awaited : TCPMessageType} {reply : Reply} (h : Replied res awaited reply φ) (mode : Bool) :
    ∃ φ', φ.after (F := F) (.socket (.nonBlocking mode)) () = some φ' ∧ Replied res awaited reply φ' := by
  obtain ⟨hawaited, hreply, rfl⟩ | ⟨hother, typed, rfl⟩ := h
  · exact ⟨_, rfl, .inl ⟨hawaited, hreply, rfl⟩⟩
  · exact ⟨_, rfl, .inr ⟨hother, false, rfl⟩⟩

/-- The value of an answer is read, whose type has been read before. -/
theorem replied_value {awaited : TCPMessageType} {respType : List UInt8} (hawaited : respType.headD 0 = awaited.code)
    (value : List UInt8) :
    ∃ φ', (Phase.choosing res (1 = 1 ∧ isJoinType respType)).after (F := F) (.socket (.read 4)) value = some φ' ∧
      Replied res awaited (if value.length < 4 then .failed else .value (ofLe32 value).toInt32) φ' := by
  by_cases hjoined : awaited = .joinRoomResponse ∧ saysJoined value = true
  · obtain ⟨rfl, hsays⟩ := hjoined
    have htyped : decide (1 = 1 ∧ isJoinType respType = true) = true ∧ 4 = 4 ∧ saysJoined value = true :=
      ⟨decide_eq_true ⟨rfl, decide_eq_true hawaited⟩, rfl, hsays⟩
    obtain ⟨hlong, hone⟩ := of_decide_eq_true hsays
    refine ⟨_, congrArg some (if_pos htyped), .inl ⟨rfl, ?_, rfl⟩⟩
    rw [if_neg (Nat.not_lt.2 hlong), hone]
  · have htype : ¬(decide (1 = 1 ∧ isJoinType respType = true) = true ∧ 4 = 4 ∧ saysJoined value = true) := by
      rintro ⟨htyped, -, hsays⟩
      have hcode := of_decide_eq_true (of_decide_eq_true htyped).2
      exact hjoined ⟨TCPMessageType.code_injective (hawaited.symm.trans hcode), hsays⟩
    refine ⟨_, congrArg some (if_neg htype), .inr ⟨?_, _, rfl⟩⟩
    rintro ⟨hjoin, hvalue⟩
    split_ifs at hvalue with hlong
    exact hjoined ⟨hjoin, decide_eq_true ⟨Nat.not_lt.1 hlong, Reply.value.inj hvalue⟩⟩

/-- **A request** on its way. -/
theorem poll_follows {request : ClientFrame} {awaited : TCPMessageType} {typed : Bool} (r : Request)
    (hrequest : choosingRequest request = true) :
    Follows (phases (F := F)) (onSocket (r.poll request awaited)) (fun x φ => Replied res awaited x.1 φ)
      (.choosing res typed) := by
  unfold Request.poll
  split
  · refine follows_socket (fun _ => if_pos hrequest) fun ec => ?_
    split
    · exact replied_failed
    · exact replied_pending
  · refine follows_socket (fun _ => rfl) fun n => ?_
    split
    · exact replied_pending
    refine follows_socket (fun _ => rfl) fun _ => ?_
    refine follows_socket (fun found => after_read found (.inl rfl)) fun respType => ?_
    split_ifs with hshort hawaited herror hlist
    · exact follows_socket (fun _ => rfl) fun _ => replied_failed
    · -- the answer, which the type has announced
      intro value
      obtain ⟨φ₁, hread, hvalue⟩ := replied_value (F := F) hawaited value
      obtain ⟨φ₂, hset, hreplied⟩ := hvalue.nonBlocking (F := F) true
      refine ⟨φ₁, hread, fun _ => ⟨φ₂, hset, ?_⟩⟩
      split_ifs at hreplied with hlong
      · rw [if_pos hlong]
        exact hreplied
      · rw [if_neg hlong]
        exact hreplied
    · refine follows_socket (fun found => after_read found (.inr (by decide))) fun _ => ?_
      exact follows_socket (fun _ => rfl) fun _ => replied_failed
    · have hother : decide (1 = 1 ∧ isJoinType respType = true) = false := by
        refine decide_eq_false fun h => ?_
        have hcode := hlist.symm.trans (of_decide_eq_true h.2)
        exact absurd (TCPMessageType.code_injective hcode) (by decide)
      refine follows_socket (fun found => after_read found (.inl hother)) fun count => ?_
      split_ifs
      · have hlong : decide (4 = 1 ∧ isJoinType count = true) = false := decide_eq_false fun h => absurd h.1 (by decide)
        refine follows_socket (fun found => after_read found (.inl hlong)) fun _ => ?_
        exact follows_socket (fun _ => rfl) fun _ => replied_pending
      · exact follows_socket (fun _ => rfl) fun _ => replied_pending
    · exact follows_socket (fun _ => rfl) fun _ => replied_failed
  · exact replied_failed

theorem readRooms_follows (n : ℕ) :
    Follows (phases (F := F)) (onSocket (readRooms n)) (fun _ φ => φ = .choosing res false) (.choosing res false) := by
  induction n with
  | zero => exact rfl
  | succ n ih =>
    refine follows_socket (fun found => after_read found (.inl rfl)) fun info => follows_onSocket_bind.2 ?_
    exact ih.mono fun _ _ h => h

theorem getRooms_follows {typed : Bool} (c : RoomSelection.TCPClient) :
    Follows (phases (F := F)) (onSocket c.getRooms) (fun _ φ => Choosing res φ) (.choosing res typed) := by
  unfold RoomSelection.TCPClient.getRooms
  refine follows_socket (fun _ => rfl) fun _ => follows_socket (fun _ => rfl) fun n => ?_
  split
  · exact ⟨_, rfl⟩
  refine follows_socket (fun found => after_read found (.inl rfl)) fun respType => ?_
  split
  · exact ⟨_, rfl⟩
  rename_i hlist
  have hother : decide (1 = 1 ∧ isJoinType respType = true) = false := by
    refine decide_eq_false fun h => hlist fun hcode => ?_
    exact absurd (TCPMessageType.code_injective (hcode.symm.trans (of_decide_eq_true h.2))) (by decide)
  refine follows_socket (fun found => after_read found (.inl hother)) fun count => follows_onSocket_bind.2 ?_
  exact (readRooms_follows _).mono fun _ _ h => ⟨_, h⟩

variable (m : RoomSelection.ClientManager)

/-- What a frame leaves alone unless it is about a join. -/
structure SameJoin (m m' : RoomSelection.ClientManager) : Prop where
  state : m'.currentState = m.currentState
  initiated : m'.joinRoomInitiated = m.joinRoomInitiated
  response : m'.joinRoomResponse = m.joinRoomResponse

theorem updateRooms_follows {typed : Bool} (due : Bool) :
    Follows (phases (F := F)) (onSocket (m.updateRooms due)) (fun m' φ => SameJoin m m' ∧ Choosing res φ)
      (.choosing res typed) := by
  unfold ClientManager.updateRooms
  split
  · refine follows_onSocket_bind.2 ((getRooms_follows _).mono fun _ _ h => ⟨⟨rfl, rfl, rfl⟩, h⟩)
  · exact ⟨⟨rfl, rfl, rfl⟩, _, rfl⟩

theorem callCreateRoom_follows {typed : Bool} :
    Follows (phases (F := F)) (onSocket m.callCreateRoom) (fun m' φ => SameJoin m m' ∧ Choosing res φ)
      (.choosing res typed) := by
  unfold ClientManager.callCreateRoom RoomSelection.TCPClient.createRoom
  refine follows_onSocket_bind.2 (follows_onSocket_bind.2 ((poll_follows _ rfl).mono ?_))
  rintro ⟨reply, request⟩ φ (⟨hother, -⟩ | ⟨-, typed, rfl⟩)
  · cases hother
  · exact follows_socket (fun _ => rfl) fun _ => ⟨⟨rfl, rfl, rfl⟩, _, rfl⟩

theorem startCreate_follows {typed : Bool} (action : Int32) :
    Follows (phases (F := F)) (onSocket (m.startCreate action)) (fun m' φ => SameJoin m m' ∧ Choosing res φ)
      (.choosing res typed) := by
  unfold ClientManager.startCreate
  split
  · refine (callCreateRoom_follows { m with createRoomInitiated := true }).mono fun m' φ h => ?_
    exact ⟨⟨h.1.state, h.1.initiated, h.1.response⟩, h.2⟩
  · exact ⟨⟨rfl, rfl, rfl⟩, _, rfl⟩

/-- Between the parts of a frame: nothing more is asked once a join has succeeded. -/
structure Joining (res : ConnectResponse) (m : RoomSelection.ClientManager) (φ : Phase) : Prop where
  state : m.currentState = .roomSelection
  initiated : m.joinRoomResponse ≠ none → m.joinRoomInitiated = true
  phase : (m.joinRoomResponse = some true ∧ φ = .inLobby res [.init] false) ∨
    (m.joinRoomResponse ≠ some true ∧ Choosing res φ)

/-- Between frames. -/
structure Decided (res : ConnectResponse) (m : RoomSelection.ClientManager) (φ : Phase) : Prop where
  response : m.joinRoomResponse = none
  phase : (m.currentState = .roomSelection ∧ Choosing res φ) ∨
    (m.currentState = .lobby ∧ φ = .inLobby res [.init] false)

variable {m}

theorem joining_of_none {typed : Bool} (hstate : m.currentState = .roomSelection) (hresponse : m.joinRoomResponse = none) :
    Joining res m (.choosing res typed) where
  state := hstate
  initiated h := absurd hresponse h
  phase := .inr ⟨by simp [hresponse], typed, rfl⟩

theorem Joining.choosing (h : Joining res m φ) (hnone : m.joinRoomResponse = none) : Choosing res φ := by
  rcases h.phase with ⟨hsome, -⟩ | ⟨-, hchoosing⟩
  · rw [hnone] at hsome
    cases hsome
  · exact hchoosing

/-- The socket is asked for the join. -/
theorem callJoinRoom_follows {typed : Bool} (hstate : m.currentState = .roomSelection)
    (hinitiated : m.joinRoomInitiated = true) :
    Follows (phases (F := F)) (onSocket m.callJoinRoom) (Joining res) (.choosing res typed) := by
  unfold ClientManager.callJoinRoom RoomSelection.TCPClient.joinRoom
  refine follows_onSocket_bind.2 (follows_onSocket_bind.2 ((poll_follows _ rfl).mono ?_))
  rintro ⟨reply, request⟩ φ (⟨-, rfl, rfl⟩ | ⟨hno, typed, rfl⟩)
  · exact follows_socket (fun _ => rfl) fun _ => ⟨hstate, fun _ => hinitiated, .inl ⟨rfl, rfl⟩⟩
  · refine follows_socket (fun _ => rfl) fun _ => ⟨hstate, fun _ => hinitiated, .inr ⟨?_, _, rfl⟩⟩
    cases reply with
    | pending => simp
    | failed => simp
    | value n =>
      intro h
      exact hno ⟨rfl, congrArg Reply.value (of_decide_eq_true (Option.some.inj h))⟩

theorem handleCreate_follows {typed : Bool} (hstate : m.currentState = .roomSelection)
    (hresponse : m.joinRoomResponse = none) :
    Follows (phases (F := F)) (onSocket m.handleCreate) (Joining res) (.choosing res typed) := by
  unfold ClientManager.handleCreate
  split
  · split
    · refine follows_onSocket_bind.2 ?_
      refine (callJoinRoom_follows (m := { m with joinRoomInitiated := true, roomToJoin := _ }) hstate rfl).mono ?_
      intro m' φ h
      exact ⟨h.state, h.initiated, h.phase⟩
    · exact joining_of_none hstate hresponse
  · exact joining_of_none hstate hresponse

theorem awaitCreate_follows {typed : Bool} (hstate : m.currentState = .roomSelection)
    (hresponse : m.joinRoomResponse = none) :
    Follows (phases (F := F)) (onSocket m.awaitCreate) (Joining res) (.choosing res typed) := by
  unfold ClientManager.awaitCreate
  split
  · split
    · refine follows_onSocket_bind.2 ((callCreateRoom_follows m).mono ?_)
      rintro m' φ ⟨hsame, typed, rfl⟩
      exact handleCreate_follows (hsame.state.trans hstate) (hsame.response.trans hresponse)
    · exact handleCreate_follows hstate hresponse
  · exact joining_of_none hstate hresponse

/-- A join is started only while none is on its way, hence before any has succeeded. -/
theorem startJoin_follows {action : Int32} (h : Joining res m φ) :
    Follows (phases (F := F)) (onSocket (m.startJoin action)) (Joining res) φ := by
  unfold ClientManager.startJoin
  split_ifs with hstart
  · have hnone : m.joinRoomResponse = none := by
      by_contra hsome
      have hinitiated := h.initiated hsome
      simp [hinitiated] at hstart
    obtain ⟨typed, rfl⟩ := h.choosing hnone
    exact callJoinRoom_follows h.state rfl
  · exact h

theorem handleJoin_decided (h : Joining res m φ) : Decided res m.handleJoin φ := by
  unfold ClientManager.handleJoin
  rcases h.phase with ⟨hjoined, hphase⟩ | ⟨hnot, hchoosing⟩
  · rw [hjoined]
    exact ⟨rfl, .inr ⟨rfl, hphase⟩⟩
  · split
    case h_1 ok hok =>
      cases ok with
      | true => exact absurd hok hnot
      | false => exact ⟨rfl, .inl ⟨h.state, hchoosing⟩⟩
    case h_2 hnone => exact ⟨hnone, .inl ⟨h.state, hchoosing⟩⟩

theorem awaitJoin_follows (h : Joining res m φ) :
    Follows (phases (F := F)) (onSocket m.awaitJoin) (Decided res) φ := by
  unfold ClientManager.awaitJoin
  split_ifs with hinitiated hnone
  · obtain ⟨typed, rfl⟩ := h.choosing (Option.isNone_iff_eq_none.1 hnone)
    refine follows_onSocket_bind.2 ?_
    exact (callJoinRoom_follows h.state hinitiated).mono fun m' φ h' => handleJoin_decided h'
  · exact handleJoin_decided h
  · have hnone : m.joinRoomResponse = none := by
      by_contra hsome
      exact hinitiated (h.initiated hsome)
    exact ⟨hnone, .inl ⟨h.state, h.choosing hnone⟩⟩

/-- **The room selection** is left at once after the join that succeeds. -/
theorem chooseRoom_follows {action : Int32} {typed : Bool} (hstate : m.currentState = .roomSelection)
    (hresponse : m.joinRoomResponse = none) :
    Follows (phases (F := F)) (onSocket (chooseRoom m action)) (Decided res) (.choosing res typed) := by
  unfold chooseRoom
  refine follows_onSocket_bind.2 ((startCreate_follows m action).mono ?_)
  rintro m₁ φ₁ ⟨hsame, typed₁, rfl⟩
  refine follows_onSocket_bind.2 ?_
  refine (awaitCreate_follows (hsame.state.trans hstate) (hsame.response.trans hresponse)).mono ?_
  intro m₂ φ₂ h₂
  refine follows_onSocket_bind.2 ?_
  exact (startJoin_follows h₂).mono fun m₃ φ₃ h₃ => awaitJoin_follows h₃

end Selection

/-! ## The screens -/

variable {a : ClientApp F}

/-- Nothing is known of a lobby yet. -/
structure Roomless (a : ClientApp F) : Prop where
  gameInstance : a.gameInstance = false
  lobbyState : a.lobbyState = .init
  response : a.selection.joinRoomResponse = none

/-- The phases in which a screen is shown, and what has been found out by then. -/
def OnScreen (a : ClientApp F) (φ : Phase) : ClientState → Prop
  | .usernameInput => φ = .offline ∧ Roomless a ∧ a.connected = false
  | .mainMenu | .options => φ = .offline ∧ Roomless a ∧ a.connected = false ∧ a.config.username ≠ []
  | .roomSelection =>
    (if a.connected then Choosing a.connectRes φ else φ = .offline) ∧ Roomless a ∧ a.config.username ≠ []
  | .lobby => a.gameInstance = false ∧ ∃ seen mayStart, φ = .inLobby a.connectRes seen mayStart ∧ a.lobbyState ∈ seen
  | .inGame =>
    if a.gameInstance then φ = .playing a.connectRes
    else ∃ l seen mayStart, φ = .inLobby a.connectRes (l :: seen) mayStart ∧ l.gameIsStarting = true
  | .kicked => φ = .kicked
  | .exiting => True

/-- The screen that is shown. -/
def Stands (a : ClientApp F) (φ : Phase) : Prop := a.closed = true ∨ OnScreen a φ a.selection.currentState

theorem Stands.of_eq {state : ClientState} (hstate : a.selection.currentState = state) (h : OnScreen a φ state) :
    Stands a φ := by
  rw [← hstate] at h
  exact .inr h

theorem usernameInput_follows (hstate : a.selection.currentState = .usernameInput) (h : OnScreen a φ .usernameInput) :
    Follows phases a.usernameInput Stands φ := by
  obtain ⟨rfl, ⟨hgame, hlobby, hresponse⟩, hconnected⟩ := h
  unfold usernameInput
  refine follows_ask (fun _ => rfl) fun f => ?_
  dsimp only
  split_ifs with hconfirmed
  · have hname : (Renderer.drawUsernameInput a.config.username f).1 ≠ [] := by
      have hboth := hconfirmed
      simp only [Renderer.drawUsernameInput, Bool.and_eq_true, decide_eq_true_eq] at hboth
      exact hboth.2
    exact follows_ask (fun _ => rfl) fun _ => .of_eq rfl ⟨rfl, ⟨hgame, hlobby, hresponse⟩, hconnected, hname⟩
  · exact .of_eq hstate ⟨rfl, ⟨hgame, hlobby, hresponse⟩, hconnected⟩

theorem mainMenu_follows (hstate : a.selection.currentState = .mainMenu) (h : OnScreen a φ .mainMenu) :
    Follows phases a.mainMenu Stands φ := by
  obtain ⟨rfl, ⟨hgame, hlobby, hresponse⟩, hconnected, hname⟩ := h
  unfold mainMenu
  refine follows_ask (fun _ => rfl) fun choice => ?_
  have hroomless : ∀ state, Roomless (a.go state) := fun _ => ⟨hgame, hlobby, hresponse⟩
  cases choice with
  | none => exact .of_eq hstate ⟨rfl, ⟨hgame, hlobby, hresponse⟩, hconnected, hname⟩
  | start => exact .of_eq rfl ⟨by simp [go, hconnected], hroomless _, hname⟩
  | options => exact .of_eq rfl ⟨rfl, hroomless _, hconnected, hname⟩

theorem options_follows (hstate : a.selection.currentState = .options) (h : OnScreen a φ .options) :
    Follows phases a.options Stands φ := by
  obtain ⟨rfl, ⟨hgame, hlobby, hresponse⟩, hconnected, hname⟩ := h
  unfold options
  refine follows_ask (fun _ => rfl) fun f => ?_
  dsimp only
  split_ifs
  · exact follows_ask (fun _ => rfl) fun _ => .of_eq rfl ⟨rfl, ⟨hgame, hlobby, hresponse⟩, hconnected, hname⟩
  · exact .of_eq hstate ⟨rfl, ⟨hgame, hlobby, hresponse⟩, hconnected, hname⟩

theorem tickGame_follows (hstate : a.selection.currentState = .inGame) (hgame : a.gameInstance = true) :
    Follows phases a.tickGame Stands (.playing a.connectRes) := by
  have hplays : Stands a (.playing a.connectRes) := by
    refine .of_eq hstate ?_
    rw [OnScreen, if_pos hgame]
  unfold tickGame
  refine follows_ask (fun _ => rfl) fun status => ?_
  cases status with
  | quitting => exact .of_eq rfl trivial
  | kicked => exact .of_eq rfl rfl
  | playing | paused | options | gameOver | victory => exact hplays

theorem inGame_follows (hstate : a.selection.currentState = .inGame) (h : OnScreen a φ .inGame) :
    Follows phases a.inGame Stands φ := by
  unfold inGame
  split_ifs with hgame
  · rw [OnScreen, if_pos hgame] at h
    rw [h]
    exact tickGame_follows hstate hgame
  · rw [OnScreen, if_neg hgame] at h
    obtain ⟨l, seen, mayStart, rfl, hstarting⟩ := h
    refine follows_ask (fun _ => if_pos ⟨hstarting, rfl⟩) fun _ => ?_
    exact tickGame_follows (a := { a with gameInstance := true }) hstate rfl

theorem kicked_follows (hstate : a.selection.currentState = .kicked) (h : OnScreen a φ .kicked) :
    Follows phases a.kicked Stands φ := by
  obtain rfl : φ = .kicked := h
  unfold kicked
  refine follows_ask (fun _ => rfl) fun leaves => ?_
  cases leaves with
  | true => exact .of_eq rfl trivial
  | false => exact .of_eq hstate rfl

/-- While a screen is shown, the window may be asked. -/
theorem after_windowShouldClose (hstate : a.selection.currentState ≠ .exiting)
    (h : OnScreen a φ a.selection.currentState) : ∃ φ', OnScreen a φ' a.selection.currentState ∧
      ∀ closed : Bool, φ.after (F := F) .windowShouldClose closed = some (if closed then .over else φ') := by
  cases hscreen : a.selection.currentState with
  | usernameInput | mainMenu | options =>
    rw [hscreen] at h
    obtain rfl := h.1
    exact ⟨_, h, fun _ => rfl⟩
  | roomSelection =>
    rw [hscreen] at h
    obtain ⟨hphase, hrest⟩ := h
    split_ifs at hphase with hconnected
    · obtain ⟨typed, rfl⟩ := hphase
      exact ⟨.choosing a.connectRes false, ⟨by rw [if_pos hconnected]; exact ⟨false, rfl⟩, hrest⟩, fun _ => rfl⟩
    · subst hphase
      exact ⟨.offline, ⟨if_neg hconnected ▸ rfl, hrest⟩, fun _ => rfl⟩
  | lobby =>
    rw [hscreen] at h
    obtain ⟨hgame, seen, mayStart, rfl, hseen⟩ := h
    exact ⟨_, ⟨hgame, seen, false, rfl, hseen⟩, fun _ => rfl⟩
  | inGame =>
    rw [hscreen, OnScreen] at h
    simp only [OnScreen]
    split_ifs at h ⊢ with hgame
    · rw [h]
      exact ⟨_, rfl, fun _ => rfl⟩
    · obtain ⟨l, seen, mayStart, rfl, hstarting⟩ := h
      exact ⟨_, ⟨l, seen, false, rfl, hstarting⟩, fun _ => rfl⟩
  | kicked =>
    rw [hscreen] at h
    obtain rfl : φ = .kicked := h
    exact ⟨_, rfl, fun _ => rfl⟩
  | exiting => exact absurd hscreen hstate

variable [FloatOps F]

/-- The list of rooms comes first, then the choice. -/
theorem connectedSelection_follows {typed : Bool} (hstate : a.selection.currentState = .roomSelection)
    (hconnected : a.connected = true) (hroomless : Roomless a) (hname : a.config.username ≠ []) :
    Follows phases a.connectedSelection Stands (.choosing a.connectRes typed) := by
  unfold connectedSelection updateRooms
  refine follows_bind.2 (follows_ask (fun _ => rfl) fun now => follows_bind.2 ?_)
  refine (updateRooms_follows _ _).mono ?_
  rintro selection φ ⟨hsame, typed', rfl⟩
  refine follows_ask (fun _ => rfl) fun f => follows_bind.2 ?_
  refine (chooseRoom_follows (hsame.state.trans hstate) (hsame.response.trans hroomless.response)).mono ?_
  rintro selection' φ ⟨hresponse, ⟨hstays, hchoosing⟩ | ⟨hjoined, rfl⟩⟩
  · exact .of_eq hstays ⟨by rwa [if_pos hconnected], ⟨hroomless.gameInstance, hroomless.lobbyState, hresponse⟩, hname⟩
  · exact .of_eq hjoined ⟨hroomless.gameInstance, [.init], false, rfl, List.mem_singleton.2 hroomless.lobbyState⟩

/-- The connection and the handshake come before all else. -/
theorem roomSelection_follows (hstate : a.selection.currentState = .roomSelection) (h : OnScreen a φ .roomSelection) :
    Follows phases a.roomSelection Stands φ := by
  obtain ⟨hphase, hroomless, hname⟩ := h
  unfold roomSelection
  split_ifs at hphase ⊢ with hconnected
  · obtain ⟨typed, rfl⟩ := hphase
    exact connectedSelection_follows hstate hconnected hroomless hname
  · subst hphase
    have hnot : a.connected = false := Bool.eq_false_iff.2 hconnected
    refine follows_ask (fun _ => rfl) fun connects => ?_
    cases connects with
    | false =>
      exact .of_eq rfl ⟨rfl, ⟨hroomless.gameInstance, hroomless.lobbyState, hroomless.response⟩, hnot, hname⟩
    | true =>
      refine follows_ask (fun _ => if_neg hname) fun answer => ?_
      cases answer with
      | none => exact .of_eq rfl trivial
      | some connectRes =>
        have hroomless' : Roomless { a with connectRes, connected := true } :=
          ⟨hroomless.gameInstance, hroomless.lobbyState, hroomless.response⟩
        exact connectedSelection_follows (a := { a with connectRes, connected := true }) hstate rfl hroomless' hname

/-- The lobby is asked for now and then, and drawn as it was then. -/
theorem updateLobby_follows {seen : List LobbyState} {mayStart : Bool} {Q : ClientApp F → Phase → Prop}
    (hseen : a.lobbyState ∈ seen)
    (hQ : ∀ lobbyState lastLobbyUpdate seen mayStart, lobbyState ∈ seen →
      Q { a with lobbyState, lastLobbyUpdate } (.inLobby res seen mayStart)) :
    Follows phases a.updateLobby Q (.inLobby res seen mayStart) := by
  unfold updateLobby
  refine follows_ask (fun _ => rfl) fun now => ?_
  split_ifs
  · refine follows_ask (fun _ => rfl) fun l => follows_ask (fun _ => rfl) fun now' => ?_
    exact hQ l now' _ _ List.mem_cons_self
  · exact hQ a.lobbyState a.lastLobbyUpdate seen false hseen

theorem lobby_follows (hstate : a.selection.currentState = .lobby) (h : OnScreen a φ .lobby) :
    Follows phases a.lobby Stands φ := by
  obtain ⟨hgame, seen₀, mayStart₀, rfl, hseen₀⟩ := h
  unfold lobby
  refine follows_bind.2 (updateLobby_follows hseen₀ fun lobbyState lastLobbyUpdate seen mayStart hseen => ?_)
  refine follows_ask (fun _ => rfl) fun l => ?_
  have hdrawn : lobbyState ∈ l :: seen := List.mem_cons_of_mem l hseen
  split_ifs with hstarting
  · refine .of_eq (rfl : _ = ClientState.inGame) ?_
    rw [OnScreen, if_neg (by simp [go, hgame])]
    exact ⟨l, seen, false, rfl, hstarting⟩
  · refine follows_ask (fun _ => if_pos ⟨hdrawn, rfl⟩) fun clicked => ?_
    have hstays : ∀ mayStart,
        Stands { a with lobbyState, lastLobbyUpdate } (.inLobby a.connectRes (l :: seen) mayStart) :=
      fun mayStart => .of_eq hstate ⟨hgame, _, mayStart, rfl, hdrawn⟩
    split_ifs with hpressed
    · have hmay : (decide (a.connectRes.playerId = lobbyState.hostId) && clicked) = true := hpressed
      rw [hmay]
      exact follows_ask (fun _ => rfl) fun _ => hstays false
    · exact hstays _

/-- **A screen.** -/
theorem screen_follows (h : OnScreen a φ a.selection.currentState) : Follows phases a.screen Stands φ := by
  unfold screen
  cases hstate : a.selection.currentState with
  | usernameInput => exact usernameInput_follows hstate (hstate ▸ h)
  | mainMenu => exact mainMenu_follows hstate (hstate ▸ h)
  | options => exact options_follows hstate (hstate ▸ h)
  | roomSelection => exact roomSelection_follows hstate (hstate ▸ h)
  | lobby => exact lobby_follows hstate (hstate ▸ h)
  | inGame => exact inGame_follows hstate (hstate ▸ h)
  | kicked => exact kicked_follows hstate (hstate ▸ h)
  | exiting => exact .inr h

/-- **A frame.** -/
theorem frame_follows (hstate : a.selection.currentState ≠ .exiting) (h : OnScreen a φ a.selection.currentState) :
    Follows phases a.frame Stands φ := by
  obtain ⟨φ', h', hafter⟩ := after_windowShouldClose hstate h
  unfold frame
  refine follows_ask hafter fun closed => ?_
  cases closed with
  | true => exact .inl rfl
  | false => exact screen_follows h'

/-- The client starts offline. -/
theorem stands_new (file : Option (List UInt8)) : Stands (new file : ClientApp F) .offline := by
  have hroomless : Roomless (new file : ClientApp F) := ⟨rfl, rfl, rfl⟩
  by_cases hname : (ConfigManager.loadConfig file).username = []
  · exact .of_eq (if_pos hname) ⟨rfl, hroomless, rfl⟩
  · exact .of_eq (if_neg hname) ⟨rfl, hroomless, rfl, hname⟩

/-- **A client keeps to its order**, whatever the server and the player answer. -/
theorem follows_phases (file : Option (List UInt8)) (turns : List (Turn Unit AppOp (AppOp.Result F)))
    {t : Spoken AppOp (AppOp.Result F) (ClientApp F)} (hr : machine.run ⟨.ret (new file), []⟩ turns = some t) :
    ∃ φ, phases.run .offline t.log = some φ ∧ ∀ a, t.prog = .ret a → Stands a φ := by
  have hbody : ∀ (x : Unit) (a : ClientApp F) p φ, Stands a φ → a.next = some p → Follows phases p Stands φ := by
    intro _ a p φ h hp
    unfold next at hp
    split_ifs at hp with hover
    obtain rfl := Option.some.inj hp
    obtain ⟨hstate, hclosed⟩ := not_or.1 hover
    exact frame_follows hstate (h.resolve_left hclosed)
  obtain ⟨φ, hlog, hprog⟩ := speaking_run hbody (stands_new file) hr
  refine ⟨φ, hlog, fun a ha => ?_⟩
  rwa [ha] at hprog

/-- A player who is called `A`, confirms the name, starts, creates a room and starts the game as its
host; the server says yes to all of it. `type` is that of the message that is read, and `starting`
whether the lobby says that the game starts. -/
def willing (type : UInt8) (starting : Bool) : (o : AppOp) → o.Result ℚ
  | .windowShouldClose => false
  | .drawUsernameInput => ⟨[65], false, true⟩
  | .drawMainMenu => .start
  | .drawOptionsMenu => ⟨false, 0, fun _ => false⟩
  | .connectToServer => true
  | .sendConnectRequest _ => some ⟨1, 5252, 0⟩
  | .getTime => 1
  | .socket o => match o with
    | .write _ => false
    | .available => 5
    | .read n => if n = 1 then [type] else [1, 0, 0, 0]
    | .nonBlocking _ | .note _ => ()
  | .drawRoomMenu => ⟨true, fun _ => false⟩
  | .getLobbyState => ⟨starting, 1, [], false⟩
  | .drawLobby _ _ => true
  | .drawKickedScreen => false
  | .tick => .playing
  | .saveConfig _ | .sendStartGameRequest | .newGame _ _ => ()

/-- Six frames: the name, the main menu, the handshake with the room that is created and joined, the
lobby in which the host starts the game, the lobby that says so, and the game. -/
def willingRun : List (Turn Unit AppOp (AppOp.Result ℚ)) :=
  let create := Turn.act (willing TCPMessageType.createRoomResponse.code false)
  let join := Turn.act (willing TCPMessageType.joinRoomResponse.code false)
  let lobby := Turn.act (willing 0 false)
  let game := Turn.act (willing 0 true)
  .start () :: List.replicate 3 create ++ .start () :: List.replicate 2 create ++
    .start () :: List.replicate 13 create ++ List.replicate 8 join ++
    .start () :: List.replicate 7 lobby ++ .start () :: List.replicate 3 game ++ .start () :: List.replicate 3 game

theorem follows_phases_willing : ∃ t : Spoken AppOp (AppOp.Result ℚ) (ClientApp ℚ),
    machine.run ⟨.ret (new none), []⟩ willingRun = some t ∧
      phases.run .offline t.log = some (.playing ⟨1, 5252, 0⟩) ∧
      ∃ φ, phases.run .offline t.log = some φ ∧ ∀ a, t.prog = .ret a → Stands a φ := by
  have hplays : (machine.run ⟨.ret (new none : ClientApp ℚ), []⟩ willingRun).map (fun t => phases.run .offline t.log) =
      some (some (.playing ⟨1, 5252, 0⟩)) := by decide +kernel
  obtain ⟨t, hrun, hplays⟩ := Option.map_eq_some_iff.1 hplays
  exact ⟨t, hrun, hplays, follows_phases none willingRun hrun⟩

end ClientApp

end RType

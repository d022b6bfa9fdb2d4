import Mathlib.Logic.Function.Iterate
import Mathlib.Tactic.IntervalCases
import Mathlib.Tactic.Set
import RType.Spec.Session

/-!
# How the server reads a client

The two loops of a connection skip a message they do not handle by its type byte only, so
its body is read as further types.

* `handle_reaches`: a frame that its phase handles, or whose body holds no type the phase
  handles, is read as a whole.
* `parsesFrames`: a client that sends only such frames is read frame by frame.
* `not_parsesFrames_chat`: a chat in the lobby whose text is the byte 6 creates a room.
-/

namespace RType

open Wire

variable {o : Oracle} {u : Peer}

/-- Some number of acts leads from `s` to `t`. -/
def Reaches (o : Oracle) (s t : Session) : Prop := ∃ n, (Session.step o)^[n] s = t

/-- The thread, started in `phase`, ends once it has read the frames, and what it asked is
what the frames ask one by one. -/
def ParsesFrames (o : Oracle) (u : Peer) (phase : Phase) (frames : List ClientFrame) : Prop :=
  ∃ t, Reaches o ⟨phase.pc u, frames.flatMap ClientFrame.bytes, []⟩ t ∧ t.pc = .done ∧
    t.log = phase.decode o u frames

/-- Each frame is handled by the phase it arrives in, or has a body without a type byte
that this phase handles. -/
def BodiesInert (o : Oracle) (u : Peer) (phase : Phase) (frames : List ClientFrame) : Prop :=
  ∀ pre f post, frames = pre ++ f :: post →
    let arrival := (pre.foldl (Phase.handle o u) (phase, [])).1
    arrival.handles f.type.code = false → ∀ b ∈ f.body, arrival.handles b = false

theorem Reaches.refl (s : Session) : Reaches o s s := ⟨0, rfl⟩

theorem Reaches.trans {s t v : Session} (h : Reaches o s t) (h' : Reaches o t v) : Reaches o s v := by
  obtain ⟨m, rfl⟩ := h
  obtain ⟨n, rfl⟩ := h'
  exact ⟨n + m, Function.iterate_add_apply _ n m s⟩

theorem Reaches.step {s t : Session} (h : Reaches o (s.step o) t) : Reaches o s t :=
  Reaches.trans ⟨1, rfl⟩ h

/-! ## Reads -/

/-- A read finds the bytes it asks for. -/
theorem result_read {n : ℕ} (bs input : List UInt8) (log : List Asked) (h : bs.length = n) :
    o.result (bs ++ input) log (.read n) = (⟨bs, none, o.memory log⟩ : Received) := by
  have hlen : ¬ (bs ++ input).length < n := by rw [List.length_append]; omega
  simp only [Oracle.result, if_neg hlen, List.take_left' h]

/-- The lobby loop reads one type byte. -/
theorem step_lobby (b : UInt8) (input : List UInt8) (log : List Asked) :
    Session.step o ⟨.lobby u, b :: input, log⟩ = ⟨Pc.lobbySwitch u b, input, log⟩ := rfl

/-- The room loop reads one type byte. -/
theorem step_inRoom (roomId : ℤ) (b : UInt8) (input : List UInt8) (log : List Asked) :
    Session.step o ⟨.inRoom u roomId, b :: input, log⟩ = ⟨Pc.roomSwitch u roomId b, input, log⟩ := rfl

/-- A type byte that the phase does not handle is skipped. -/
theorem skip_byte {phase : Phase} {b : UInt8} (h : phase.handles b = false) (input : List UInt8)
    (log : List Asked) : Reaches o ⟨phase.pc u, b :: input, log⟩ ⟨phase.pc u, input, log⟩ := by
  apply Reaches.step
  cases phase with
  | lobby =>
    simp only [Phase.handles, decide_eq_false_iff_not, not_or] at h
    rw [Phase.pc, step_lobby, Pc.lobbySwitch, if_neg h.1, if_neg h.2.1, if_neg h.2.2]
    exact .refl _
  | inRoom roomId =>
    simp only [Phase.handles, decide_eq_false_iff_not, not_or] at h
    rw [Phase.pc, step_inRoom, Pc.roomSwitch, if_neg h.1, if_neg h.2.1, if_neg h.2.2]
    exact .refl _

/-- Bytes that the phase does not handle are skipped. -/
theorem skip_bytes {phase : Phase} {bs : List UInt8} (h : ∀ b ∈ bs, phase.handles b = false)
    (input : List UInt8) (log : List Asked) :
    Reaches o ⟨phase.pc u, bs ++ input, log⟩ ⟨phase.pc u, input, log⟩ := by
  induction bs with
  | nil => exact .refl _
  | cons b bs ih =>
    exact (skip_byte (h b List.mem_cons_self) _ log).trans (ih fun b hb => h b (List.mem_cons_of_mem _ hb))

/-! ## Writes -/

theorem lobbyReply_reaches (bs : List Block) (input : List UInt8) (log : List Asked) :
    Reaches o ⟨Pc.lobbyReply u bs, input, log⟩ ⟨.lobby u, input, log⟩ := by
  induction bs with
  | nil => exact .refl _
  | cons b bs ih => exact .step ih

theorem roomReply_reaches (roomId : ℤ) (bs : List Block) (input : List UInt8) (log : List Asked) :
    Reaches o ⟨Pc.roomReply u roomId bs, input, log⟩ ⟨.inRoom u roomId, input, log⟩ := by
  induction bs with
  | nil => exact .refl _
  | cons b bs ih => exact .step ih

/-- The relay of a chat, socket by socket. -/
theorem relayTo_reaches (roomId : ℤ) (fullMsg : List UInt8) (socks : List ℕ) (input : List UInt8)
    (log : List Asked) :
    Reaches o ⟨Pc.relayTo u roomId fullMsg socks, input, log⟩
      ⟨.inRoom u roomId, input, socks.foldl (fun log sock => o.ask log (.relay sock (.chatMessage fullMsg))) log⟩ := by
  induction socks generalizing log with
  | nil => exact .step (.refl _)
  | cons sock socks ih => exact .step (ih _)

/-! ## One frame -/

theorem step_chatLength (roomId : ℤ) {length : UInt16} (input : List UInt8) (log : List Asked) :
    Session.step o ⟨.chatLength u roomId, le16 length ++ input, log⟩ =
      ⟨if 0 < length then .chatBody u roomId length else .inRoom u roomId, input, log⟩ := by
  have hr := result_read (o := o) (le16 length) input log (length_le16 length)
  have hd : (le16 length ++ input).drop 2 = input := List.drop_left' (length_le16 length)
  simp only [Session.step, Pc.act, hr, Pc.next, ofLe16_le16, true_and, Act.size, hd, Act.observed]
  rfl

theorem step_chatBody (roomId : ℤ) {length : UInt16} {payload : List UInt8} (h : payload.length = length.toNat)
    (input : List UInt8) (log : List Asked) :
    Session.step o ⟨.chatBody u roomId length, payload ++ input, log⟩ =
      ⟨.chatSender u roomId payload, input, log⟩ := by
  have hr := result_read (o := o) payload input log h
  have hd : (payload ++ input).drop length.toNat = input := List.drop_left' h
  simp only [Session.step, Pc.act, hr, Pc.next, Act.size, hd, Act.observed]
  rfl

/-- A chat is read up to its end, whatever its text. -/
theorem chat_reaches (roomId : ℤ) (payload : List UInt8) (fits : payload.length < 65536)
    (input : List UInt8) (log : List Asked) :
    Reaches o ⟨.inRoom u roomId, (ClientFrame.chatMessage payload fits).bytes ++ input, log⟩
      ⟨.inRoom u roomId, input, if payload = [] then log else o.chat u roomId payload log⟩ := by
  have hlen : (UInt16.ofNat payload.length).toNat = payload.length :=
    UInt16.toNat_ofNat_of_lt' (by simpa using fits)
  have hbytes : (ClientFrame.chatMessage payload fits).bytes ++ input =
      TCPMessageType.chatMessage.code :: (le16 (UInt16.ofNat payload.length) ++ (payload ++ input)) := by
    rw [← List.append_assoc]
    rfl
  rw [hbytes]
  apply Reaches.step
  rw [step_inRoom, show Pc.roomSwitch u roomId TCPMessageType.chatMessage.code = .chatLength u roomId from rfl]
  apply Reaches.step
  rw [step_chatLength]
  by_cases hp : payload = []
  · subst hp
    exact .refl _
  · have hpos : 0 < UInt16.ofNat payload.length := by
      rw [UInt16.lt_iff_toNat_lt, hlen]
      exact List.length_pos_iff.2 hp
    rw [if_pos hpos, if_neg hp]
    apply Reaches.step
    rw [step_chatBody roomId hlen.symm]
    -- the name, the sockets, and the relay
    exact .step (.step (relayTo_reaches ..))

theorem step_joinRead (roomId : Int32) (input : List UInt8) (log : List Asked) :
    Session.step o ⟨.joinRead u, le32 roomId.toUInt32 ++ input, log⟩ = ⟨.join u roomId.toInt, input, log⟩ := by
  have hr := result_read (o := o) (le32 roomId.toUInt32) input log (length_le32 _)
  have hd : (le32 roomId.toUInt32 ++ input).drop 4 = input := List.drop_left' (length_le32 _)
  have hb : (le32 roomId.toUInt32 ++ (o.memory log).drop (le32 roomId.toUInt32).length).take 4 =
      le32 roomId.toUInt32 := List.take_left' (length_le32 _)
  simp only [Session.step, Pc.act, hr, Pc.next, Received.buffer, hb, ofLeInt_le32, Act.size, hd, Act.observed]
  rfl

/-- A join request is read up to its end. -/
theorem join_reaches (roomId : Int32) (input : List UInt8) (log : List Asked) :
    Reaches o ⟨.lobby u, (ClientFrame.joinRoom roomId).bytes ++ input, log⟩
      (let s := Phase.handle o u (.lobby, log) (.joinRoom roomId)
       ⟨s.1.pc u, input, s.2⟩) := by
  apply Reaches.step
  rw [show (ClientFrame.joinRoom roomId).bytes ++ input = TCPMessageType.joinRoom.code ::
    (le32 roomId.toUInt32 ++ input) from rfl, step_lobby,
    show Pc.lobbySwitch u TCPMessageType.joinRoom.code = .joinRead u from rfl]
  apply Reaches.step
  rw [step_joinRead]
  have hcall : Session.step o ⟨.join u roomId.toInt, input, log⟩ =
      ⟨.joinReply u roomId.toInt (o.answer log (.call (.onJoinRoom roomId.toInt u.playerId u.username))), input,
        o.ask log (.call (.onJoinRoom roomId.toInt u.playerId u.username))⟩ := rfl
  apply Reaches.step
  rw [hcall]
  apply Reaches.step
  simp only [Phase.handle]
  cases hok : (o.answer log (.call (.onJoinRoom roomId.toInt u.playerId u.username)) : Bool) with
  | true => exact .step (.refl _)
  | false => exact .refl _

/-- A lobby state request is answered by one or two calls. -/
theorem getLobbyState_reaches (roomId : ℤ) (input : List UInt8) (log : List Asked) :
    Reaches o ⟨.askStarting u roomId, input, log⟩
      (let s := Phase.handle o u (.inRoom roomId, log) .getLobbyState
       ⟨s.1.pc u, input, s.2⟩) := by
  apply Reaches.step
  have hcall : Session.step o ⟨.askStarting u roomId, input, log⟩ =
      ⟨if (o.answer log (.call (.isGameStarting roomId)) : Bool) then
          Pc.roomReply u roomId ServerFrame.gameStartingNotification.blocks else .askLobby u roomId, input,
        o.ask log (.call (.isGameStarting roomId))⟩ := rfl
  rw [hcall]
  simp only [Phase.handle]
  cases hst : (o.answer log (.call (.isGameStarting roomId)) : Bool) with
  | true =>
    simp only [if_true]
    exact roomReply_reaches roomId _ input _
  | false =>
    simp only [Bool.false_eq_true, if_false]
    let lobby : UInt32 × List (UInt32 × List UInt8) :=
      o.answer (o.ask log (.call (.isGameStarting roomId))) (.call (.onGetLobbyState roomId))
    exact .step (roomReply_reaches roomId (ServerFrame.lobbyStateResponse lobby.1 lobby.2).blocks input _)

/-- A frame whose type byte the phase does not handle is skipped, if its body is inert. -/
theorem ignored_reaches {phase : Phase} {f : ClientFrame} (hf : phase.handles f.type.code = false)
    (hb : ∀ b ∈ f.body, phase.handles b = false) (input : List UInt8) (log : List Asked) :
    Reaches o ⟨phase.pc u, f.bytes ++ input, log⟩ ⟨phase.pc u, input, log⟩ :=
  (skip_byte hf _ log).trans (skip_bytes hb input log)

/-- **One frame is read as a whole**, if its phase handles it or its body is inert. -/
theorem handle_reaches (phase : Phase) (f : ClientFrame)
    (h : phase.handles f.type.code = false → ∀ b ∈ f.body, phase.handles b = false)
    (input : List UInt8) (log : List Asked) :
    Reaches o ⟨phase.pc u, f.bytes ++ input, log⟩
      ⟨(Phase.handle o u (phase, log) f).1.pc u, input, (Phase.handle o u (phase, log) f).2⟩ := by
  cases phase with
  | lobby =>
    cases f with
    | listRooms =>
      let rooms : List RoomSimpleInfo := o.answer log (.call .onGetRooms)
      exact .step (.step (lobbyReply_reaches (ServerFrame.listRoomsResponse rooms).blocks input _))
    | createRoom =>
      let roomId : ℤ := o.answer log (.call .onCreateRoom)
      exact .step (.step (lobbyReply_reaches (ServerFrame.createRoomResponse roomId).blocks input _))
    | joinRoom roomId => exact join_reaches roomId input log
    | getLobbyState => exact ignored_reaches rfl (h rfl) input log
    | startGameRequest => exact ignored_reaches rfl (h rfl) input log
    | chatMessage payload fits => exact ignored_reaches rfl (h rfl) input log
  | inRoom roomId =>
    cases f with
    | listRooms => exact ignored_reaches rfl (h rfl) input log
    | createRoom => exact ignored_reaches rfl (h rfl) input log
    | joinRoom roomId' => exact ignored_reaches rfl (h rfl) input log
    | getLobbyState => exact .step (getLobbyState_reaches roomId input log)
    | startGameRequest => exact .step (.step (.refl _))
    | chatMessage payload fits => exact chat_reaches roomId payload fits input log

/-! ## All frames -/

theorem frames_reaches (frames : List ClientFrame) :
    ∀ phase log, (∀ pre f post, frames = pre ++ f :: post →
      let arrival := (pre.foldl (Phase.handle o u) (phase, log)).1
      arrival.handles f.type.code = false → ∀ b ∈ f.body, arrival.handles b = false) →
    Reaches o ⟨phase.pc u, frames.flatMap ClientFrame.bytes, log⟩
      ⟨(frames.foldl (Phase.handle o u) (phase, log)).1.pc u, [],
        (frames.foldl (Phase.handle o u) (phase, log)).2⟩ := by
  induction frames with
  | nil => exact fun phase log _ => .refl _
  | cons f frames ih =>
    intro phase log h
    rw [List.flatMap_cons, List.foldl_cons]
    refine (handle_reaches phase f (h [] f frames rfl) _ log).trans (ih _ _ fun pre g post he => ?_)
    exact h (f :: pre) g post (by rw [he]; rfl)

/-- The client closes: the thread ends, and leaves its room if it is in one. -/
theorem close_reaches (phase : Phase) (log : List Asked) :
    ∃ t, Reaches o ⟨phase.pc u, [], log⟩ t ∧ t.pc = .done ∧ t.log = Phase.close o u (phase, log) := by
  cases phase with
  | lobby => exact ⟨_, .step (.step (.step (.refl _))), rfl, rfl⟩
  | inRoom roomId => exact ⟨_, .step (.step (.step (.step (.step (.refl _))))), rfl, rfl⟩

/-- **Clients are read frame by frame**, as long as the body of no ignored frame holds a
type that its phase handles. -/
theorem parsesFrames (o : Oracle) (u : Peer) (phase : Phase) (frames : List ClientFrame)
    (h : BodiesInert o u phase frames) : ParsesFrames o u phase frames := by
  obtain ⟨t, ht, hdone, hlog⟩ := close_reaches (o := o) (u := u) _ _
  exact ⟨t, (frames_reaches frames phase [] h).trans ht, hdone, hlog⟩

/-! ## Examples of both -/

/-- A handler with one room, 0, that anyone may join, and no other player. -/
def oneRoom : Oracle where
  memory := fun _ => []
  answer := fun _ a => match a with
    | .read _ => (⟨[], some .eof, []⟩ : Received)
    | .write _ => false
    | .call .onCreateRoom => (0 : ℤ)
    | .call (.onJoinRoom roomId _ _) => decide (roomId = 0)
    | .call (.onGetLobbyState _) => ((0 : UInt32), ([] : List (UInt32 × List UInt8)))
    | .call (.onStartGame _ _) => ()
    | .call (.onPlayerDisconnect _ _) => ()
    | .call .onGetRooms => ([⟨0, 0⟩] : List RoomSimpleInfo)
    | .call (.isGameStarting _) => false
    | .takePlayerId => (1 : UInt32)
    | .clock => (0 : UInt32)
    | .senderName _ => (none : Option (List UInt8))
    | .lockRoom _ _ => ([] : List ℕ)
    | .register _ | .enterRoom _ _ | .leaveRoom _ | .unregister _ | .relay _ _ | .unlock | .close | .none => ()

/-- A chat in the lobby whose text holds no lobby command is ignored. -/
theorem parsesFrames_chat :
    ParsesFrames oneRoom ⟨1, []⟩ .lobby [.chatMessage [72, 105] (by decide), .createRoom] := by
  refine parsesFrames _ _ _ _ ?_
  rintro (_ | ⟨f₀, _ | ⟨f₁, _⟩⟩) f post h
  · obtain ⟨rfl, -⟩ := List.cons.inj h
    exact fun _ => by decide +kernel
  · obtain ⟨rfl, h'⟩ := List.cons.inj h
    obtain ⟨rfl, -⟩ := List.cons.inj h'
    exact fun h => absurd h (by decide)
  · simp at h

/-- What a thread asked stays asked. -/
theorem log_prefix (o : Oracle) (s : Session) (n : ℕ) : s.log <+: ((Session.step o)^[n] s).log := by
  induction n generalizing s with
  | zero => exact List.prefix_rfl
  | succ n ih =>
    refine List.IsPrefix.trans ?_ (ih (s.step o))
    simp only [Session.step]
    split
    · exact List.prefix_append _ _
    · exact List.prefix_rfl

/-- **A chat in the lobby whose text is the byte 6** creates a room. -/
theorem not_parsesFrames_chat :
    ¬ ParsesFrames oneRoom ⟨1, []⟩ .lobby [.chatMessage [6] (by decide)] := by
  rintro ⟨t, ⟨n, rfl⟩, hdone, hlog⟩
  set s : Session := ⟨Phase.pc ⟨1, []⟩ .lobby, [ClientFrame.chatMessage [6] (by decide)].flatMap ClientFrame.bytes, []⟩
  rcases Nat.lt_or_ge n 5 with hn | hn
  · interval_cases n <;> exact absurd hdone (by decide)
  · obtain ⟨m, rfl⟩ := Nat.exists_eq_add_of_le' hn
    rw [Function.iterate_add_apply] at hlog
    have hp := log_prefix oneRoom ((Session.step oneRoom)^[5] s) m
    rw [hlog] at hp
    exact absurd hp.length_le (by decide)

end RType

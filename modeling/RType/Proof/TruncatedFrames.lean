import RType.Proof.ClientFrames

/-!
# Truncated frames

A connection may end inside a frame. The reads of `handleClient` and `handleInRoomClient` test
for this in different ways, or not at all.

* `Session.Quiet`: the thread brings nothing about any more.
* `quiet_handshake_iff`, `quiet_lobby_iff`, `quiet_room_iff`: when this is so in each of the
  three places where the thread begins to read a frame.
* `truncated_quiet_iff`: a truncated frame has no effect exactly under these conditions.
-/

namespace RType

open Wire

variable {o : Oracle} {e : ReadError} {u : Peer} {roomId : ℤ} {input : List UInt8} {log : List Asked}

/-! ## Threads that bring nothing about -/

namespace Session

/-- From here on, the thread brings nothing about. -/
def Quiet (o : Oracle) (e : ReadError) (s : Session) : Prop :=
  ∀ n, ((stepEnding o e)^[n] s).pc.act.triggered = false

theorem quiet_iff {s : Session} : s.Quiet o e ↔ s.pc.act.triggered = false ∧ (s.stepEnding o e).Quiet o e := by
  constructor
  · intro h
    exact ⟨h 0, fun n => h (n + 1)⟩
  · rintro ⟨hnow, hlater⟩ n
    cases n with
    | zero => exact hnow
    | succ n => exact hlater n

/-- An act that brings nothing about. -/
theorem quiet_step {s : Session} (h : s.pc.act.triggered = false) : s.Quiet o e ↔ (s.stepEnding o e).Quiet o e := by
  rw [quiet_iff, and_iff_right h]

theorem not_quiet {s : Session} (h : s.pc.act.triggered = true) : ¬s.Quiet o e := by
  intro hquiet
  have hnow : s.pc.act.triggered = false := hquiet 0
  rw [h] at hnow
  cases hnow

/-- A thread that is done stays so. -/
theorem quiet_done : (⟨.done, input, log⟩ : Session).Quiet o e := by
  intro n
  have hdone : ((stepEnding o e)^[n] ⟨.done, input, log⟩).pc = .done := by
    induction n generalizing input with
    | zero => rfl
    | succ n ih => exact ih
  rw [hdone]
  rfl

theorem quiet_close : (⟨.close, input, log⟩ : Session).Quiet o e := (quiet_step rfl).2 quiet_done

/-- The end of a connection in the lobby. -/
theorem quiet_unregister : (⟨.unregister u, input, log⟩ : Session).Quiet o e := (quiet_step rfl).2 quiet_close

/-- The end of a connection in a room. -/
theorem quiet_disconnect : (⟨.disconnect u roomId, input, log⟩ : Session).Quiet o e :=
  (quiet_step rfl).2 ((quiet_step rfl).2 quiet_unregister)

/-! ## The places where a frame begins -/

theorem stepEnding_lobby (b : UInt8) :
    stepEnding o e ⟨.lobby u, b :: input, log⟩ = ⟨Pc.lobbySwitch u b, input, log⟩ := rfl

theorem stepEnding_inRoom (b : UInt8) :
    stepEnding o e ⟨.inRoom u roomId, b :: input, log⟩ = ⟨Pc.roomSwitch u roomId b, input, log⟩ := rfl

/-- What the read of the handshake makes of less than a whole request. -/
theorem stepEnding_handshake (h : input.length < 33) :
    stepEnding o e ⟨.handshake, input, log⟩ =
      ⟨Pc.next .handshake (⟨input, some e, o.memory log⟩ : Received), [], log⟩ := by
  have hread : stepEnding o e ⟨.handshake, input, log⟩ = ⟨Pc.next .handshake
      (⟨input.take 33, if input.length < 33 then some e else none, o.memory log⟩ : Received), input.drop 33, log⟩ := rfl
  rw [hread, if_pos h, List.take_of_length_le h.le, List.drop_eq_nil_of_le h.le]

/-- **In the handshake**, a truncated request is seen if the connection is closed in order. -/
theorem quiet_handshake_iff (h : input.length < 33)
    (hconnect : input = [] ∨ input.head? = some TCPMessageType.connect.code) :
    (⟨.handshake, input, log⟩ : Session).Quiet o e ↔ e = .eof := by
  rw [quiet_step rfl, stepEnding_handshake h, Pc.next]
  -- the request is built with the type `CONNECT`
  have htype : ¬(connectRequest ⟨input, some e, o.memory log⟩).head? ≠ some TCPMessageType.connect.code := by
    rcases hconnect with rfl | hhead
    · exact fun hno => hno rfl
    · unfold connectRequest
      rw [List.head?_append, hhead]
      exact fun hno => hno rfl
  simp only [or_iff_left htype, Option.some.injEq]
  cases e with
  | eof => exact iff_of_true quiet_close rfl
  | other => exact iff_of_false (not_quiet rfl) (by decide)

/-- **In the lobby**, every byte is taken for a type, and a room id is not waited for. -/
theorem quiet_lobby_iff :
    (⟨.lobby u, input, log⟩ : Session).Quiet o e ↔ ∀ b ∈ input, Phase.lobby.handles b = false := by
  induction input with
  | nil =>
    refine iff_of_true ?_ (by simp)
    have hend : stepEnding o e ⟨.lobby u, [], log⟩ = ⟨.unregister u, [], log⟩ := rfl
    rw [quiet_step rfl, hend]
    exact quiet_unregister
  | cons b rest ih =>
    rw [quiet_step rfl, stepEnding_lobby, List.forall_mem_cons]
    by_cases hhandled : Phase.lobby.handles b = false
    · rw [and_iff_right hhandled, ← ih]
      simp only [Phase.handles, decide_eq_false_iff_not, not_or] at hhandled
      rw [Pc.lobbySwitch, if_neg hhandled.1, if_neg hhandled.2.1, if_neg hhandled.2.2]
    · refine iff_of_false ?_ fun h => hhandled h.1
      simp only [Phase.handles, decide_eq_false_iff_not, not_not] at hhandled
      unfold Pc.lobbySwitch
      split
      · exact not_quiet rfl
      · split
        · exact not_quiet rfl
        · rename_i hno hno'
          rw [if_pos ((hhandled.resolve_left hno).resolve_left hno')]
          -- the id is read, and whatever came of it the handler is called
          rw [quiet_step rfl]
          exact not_quiet rfl

/-- The end of the bytes in a room. -/
theorem quiet_room_nil : (⟨.inRoom u roomId, [], log⟩ : Session).Quiet o e := by
  have hend : stepEnding o e ⟨.inRoom u roomId, [], log⟩ = ⟨.disconnect u roomId, [], log⟩ := rfl
  rw [quiet_step rfl, hend]
  exact quiet_disconnect

/-- A chat that is cut in its text. -/
theorem quiet_chatBody {length : UInt16} (h : input.length < length.toNat) :
    (⟨.chatBody u roomId length, input, log⟩ : Session).Quiet o e := by
  have hstep : stepEnding o e ⟨.chatBody u roomId length, input, log⟩ = ⟨.inRoom u roomId, [], log⟩ := by
    simp [stepEnding, Pc.act, Oracle.resultEnding, Pc.next, Act.size, Act.observed, h, h.le]
  rw [quiet_step rfl, hstep]
  exact quiet_room_nil

/-- A chat that is cut in its length. -/
theorem quiet_chatLength_short (h : input.length < 2) :
    (⟨.chatLength u roomId, input, log⟩ : Session).Quiet o e := by
  have hstep : stepEnding o e ⟨.chatLength u roomId, input, log⟩ = ⟨.inRoom u roomId, [], log⟩ := by
    simp [stepEnding, Pc.act, Oracle.resultEnding, Pc.next, Act.size, Act.observed, h, h.le]
  rw [quiet_step rfl, hstep]
  exact quiet_room_nil

/-- The two bytes of the length of a chat. -/
theorem stepEnding_chatLength (lo hi : UInt8) :
    stepEnding o e ⟨.chatLength u roomId, lo :: hi :: input, log⟩ =
      ⟨if 0 < ofLe16 [lo, hi] then .chatBody u roomId (ofLe16 [lo, hi]) else .inRoom u roomId, input, log⟩ := by
  simp [stepEnding, Pc.act, Oracle.resultEnding, Pc.next, Act.size, Act.observed]

/-- **In a room**, a truncated chat is not relayed. -/
theorem quiet_chat {payload : List UInt8} (hfits : payload.length < 65536)
    (hpre : input <+: le16 (UInt16.ofNat payload.length) ++ payload)
    (hcut : input ≠ le16 (UInt16.ofNat payload.length) ++ payload) :
    (⟨.chatLength u roomId, input, log⟩ : Session).Quiet o e := by
  rcases Nat.lt_or_ge input.length 2 with hshort | hlong
  · exact quiet_chatLength_short hshort
  obtain ⟨lo, hi, text, rfl⟩ : ∃ lo hi text, input = lo :: hi :: text := by
    match input, hlong with
    | lo :: hi :: text, _ => exact ⟨lo, hi, text, rfl⟩
  -- the length has arrived, and the text has not
  obtain ⟨post, hpost⟩ := hpre
  have hlen : [lo, hi] = le16 (UInt16.ofNat payload.length) := by
    have htake := congrArg (List.take 2) hpost
    rwa [List.take_append_of_le_length (by simp), List.take_append_of_le_length (by simp [length_le16]),
      List.take_of_length_le (l := le16 _) (by simp [length_le16])] at htake
  have htext : text ++ post = payload := by
    have hdrop := congrArg (List.drop 2) hpost
    rwa [List.drop_append_of_le_length (by simp), List.drop_left' (length_le16 _)] at hdrop
  have hmissing : text.length < payload.length := by
    have hne : post ≠ [] := by
      rintro rfl
      exact hcut (by rw [← hpost, List.append_nil])
    rw [← htext, List.length_append]
    have := List.length_pos_iff.2 hne
    omega
  rw [quiet_step rfl, stepEnding_chatLength, hlen]
  have hlength := toNat_ofLe16_length hfits
  rw [if_pos]
  · exact quiet_chatBody (by omega)
  · rw [UInt16.lt_iff_toNat_lt, hlength]
    change 0 < payload.length
    omega

/-- A type byte that asks for something in a room. -/
theorem not_quiet_roomSwitch {b : UInt8}
    (h : b = TCPMessageType.startGameRequest.code ∨ b = TCPMessageType.getLobbyState.code) :
    ¬(⟨Pc.roomSwitch u roomId b, input, log⟩ : Session).Quiet o e := by
  rcases h with rfl | rfl
  · exact not_quiet rfl
  · exact not_quiet rfl

/-- **In a room**, at most three bytes are taken for types, up to that of a chat. -/
theorem quiet_room_iff (h : input.length ≤ 3) :
    (⟨.inRoom u roomId, input, log⟩ : Session).Quiet o e ↔
      ∀ b ∈ input.takeWhile (· ≠ TCPMessageType.chatMessage.code),
        ¬(b = TCPMessageType.startGameRequest.code ∨ b = TCPMessageType.getLobbyState.code) := by
  induction input with
  | nil => exact iff_of_true quiet_room_nil (by simp)
  | cons b rest ih =>
    rw [List.length_cons] at h
    rw [quiet_step rfl, stepEnding_inRoom]
    by_cases hchat : b = TCPMessageType.chatMessage.code
    · -- the rest holds no whole chat
      subst hchat
      have hswitch : Pc.roomSwitch u roomId TCPMessageType.chatMessage.code = .chatLength u roomId := rfl
      rw [hswitch]
      refine iff_of_true ?_ (by simp)
      match rest with
      | [] => exact quiet_chatLength_short (by simp)
      | [lo] => exact quiet_chatLength_short (by simp)
      | [lo, hi] =>
        rw [quiet_step rfl, stepEnding_chatLength]
        split
        · rename_i hpos
          exact quiet_chatBody (UInt16.lt_iff_toNat_lt.1 hpos)
        · exact quiet_room_nil
      | _ :: _ :: _ :: _ =>
        simp only [List.length_cons] at h
        omega
    · rw [List.takeWhile_cons_of_pos (by simpa using hchat), List.forall_mem_cons]
      by_cases hasked : b = TCPMessageType.startGameRequest.code ∨ b = TCPMessageType.getLobbyState.code
      · exact iff_of_false (not_quiet_roomSwitch hasked) fun hno => hno.1 hasked
      · rw [and_iff_right hasked, ← ih (by omega)]
        rw [not_or] at hasked
        rw [Pc.roomSwitch, if_neg hasked.1, if_neg hasked.2, if_neg hchat]

end Session

/-! ## Truncated frames -/

namespace Session

/-- The thread is about to read a frame, of which not all bytes have arrived. -/
def Truncated (s : Session) : Prop :=
  match s.pc with
  | .handshake => s.input.length < 33 ∧ (s.input = [] ∨ s.input.head? = some TCPMessageType.connect.code)
  | .lobby _ | .inRoom _ _ => ∃ f : ClientFrame, s.input <+: f.bytes ∧ s.input ≠ f.bytes
  | _ => False

/-- The frame is a request to connect, and the connection is closed in order; or the thread is
in the lobby, and none of the bytes is the type of a message for the lobby; or it is in a room,
and no byte before the type of a chat asks for the lobby state or the start of the game. -/
def Overlooked (e : ReadError) (s : Session) : Prop :=
  match s.pc with
  | .handshake => e = .eof
  | .lobby _ => ∀ b ∈ s.input, Phase.lobby.handles b = false
  | .inRoom _ _ => ∀ b ∈ s.input.takeWhile (· ≠ TCPMessageType.chatMessage.code),
      ¬(b = TCPMessageType.startGameRequest.code ∨ b = TCPMessageType.getLobbyState.code)
  | _ => False

end Session

open Session

/-- **A truncated frame** has no effect exactly if it is overlooked. -/
theorem truncated_quiet_iff (o : Oracle) (e : ReadError) (s : Session) (h : s.Truncated) :
    s.Quiet o e ↔ s.Overlooked e := by
  obtain ⟨pc, input, log⟩ := s
  unfold Truncated at h
  split at h
  case h_1 hpc =>
    obtain rfl : pc = .handshake := hpc
    exact quiet_handshake_iff h.1 h.2
  case h_2 u hpc =>
    obtain rfl : pc = .lobby u := hpc
    exact quiet_lobby_iff
  case h_3 u roomId hpc =>
    obtain rfl : pc = .inRoom u roomId := hpc
    obtain ⟨f, hpre, hcut⟩ := h
    have hend : (⟨.inRoom u roomId, [], log⟩ : Session).Quiet o e ↔ (⟨.inRoom u roomId, [], log⟩ : Session).Overlooked e :=
      iff_of_true quiet_room_nil (by simp [Overlooked])
    cases input with
    | nil => exact hend
    | cons b rest =>
      obtain ⟨rfl, hrest⟩ := List.cons_prefix_cons.1 hpre
      have hcut' : rest ≠ f.body := fun heq => hcut (by rw [heq]; rfl)
      cases f with
      | chatMessage payload fits =>
        refine iff_of_true ?_ (by simp [Overlooked, ClientFrame.type])
        rw [quiet_step rfl, stepEnding_inRoom]
        exact quiet_chat fits hrest hcut'
      | joinRoom roomId' =>
        have hshort : rest.length ≤ 3 := by
          have hle := hrest.length_le
          have hne : rest.length ≠ (le32 roomId'.toUInt32).length := fun heq => hcut' (hrest.eq_of_length heq)
          rw [ClientFrame.body, length_le32] at hle
          rw [length_le32] at hne
          omega
        have hskip : Pc.roomSwitch u roomId (ClientFrame.joinRoom roomId').type.code = .inRoom u roomId := rfl
        rw [quiet_step rfl, stepEnding_inRoom, hskip, quiet_room_iff hshort]
        have htype : (ClientFrame.joinRoom roomId').type.code = 8 := rfl
        simp only [Overlooked, htype]
        rw [List.takeWhile_cons_of_pos (by decide), List.forall_mem_cons, and_iff_right (by decide)]
      | _ => exact absurd (List.prefix_nil.1 hrest) hcut'
  case h_4 => exact h.elim

/-- A chat of five bytes in a room, of which one has arrived. -/
theorem truncated_quiet_chat :
    (⟨.inRoom ⟨1, []⟩ 0, [14, 5, 0, 72], []⟩ : Session).Truncated ∧
      (⟨.inRoom ⟨1, []⟩ 0, [14, 5, 0, 72], []⟩ : Session).Quiet oneRoom .other := by
  have hcut : (⟨.inRoom ⟨1, []⟩ 0, [14, 5, 0, 72], []⟩ : Session).Truncated :=
    ⟨.chatMessage [72, 101, 108, 108, 111] (by decide), by decide, by decide⟩
  refine ⟨hcut, (truncated_quiet_iff oneRoom .other _ hcut).2 ?_⟩
  -- the first byte is the type of the chat
  change ∀ b ∈ ([14, 5, 0, 72] : List UInt8).takeWhile (· ≠ TCPMessageType.chatMessage.code), _
  rw [List.takeWhile_cons_of_neg (by decide)]
  intro b hb
  cases hb

/-- A client connects, sends two bytes of a request to join a room, and closes. -/
def cutJoin : List UInt8 := 1 :: List.replicate 32 0 ++ [8, 1]

theorem not_truncated_quiet_joinRoom : ¬∀ (o : Oracle) (e : ReadError) (input : List UInt8) (n : ℕ),
    ((stepEnding o e)^[n] ⟨.handshake, input, []⟩).Truncated →
      ((stepEnding o e)^[n] ⟨.handshake, input, []⟩).Quiet o e := by
  intro hall
  have hlobby : (stepEnding oneRoom .eof)^[5] ⟨.handshake, cutJoin, []⟩ = ⟨.lobby ⟨1, []⟩, [8, 1], []⟩ := rfl
  have hquiet := hall oneRoom .eof cutJoin 5
  rw [hlobby] at hquiet
  -- the handler is called two steps later
  have hcall := hquiet ⟨.joinRoom 1, by decide, by decide⟩ 2
  exact absurd hcall (by decide)

end RType

import RType.Spec.TCPClient

/-!
# How a client in a lobby reads the server

`getLobbyState` knows the length of every message the server can send it but one: of a
`CHAT_MESSAGE` it takes the type byte only, and reads the rest as further types.

* `lobbySwitch_reads`: a message of known length is taken as a whole.
* `getLobbyState_reads`: a call that finds no other message takes whole messages.
* `readsFrames`: so does a client over time, and the state it returns is the fold of the
  messages taken.
* `not_readsFrames_chat`: a relayed chat leaves the client inside the chat's text.
-/

namespace RType

open Wire Lts

namespace TCPClient

/-- `getLobbyState` knows the length of the message: it is no chat, and the number of its
records fits the `int32_t` that announces it. -/
def Drained : ServerFrame → Prop
  | .chatMessage _ => False
  | .listRoomsResponse rooms => rooms.length < 2 ^ 31
  | .lobbyStateResponse _ players => players.length < 2 ^ 31
  | _ => True

instance : DecidablePred Drained
  | .chatMessage _ => .isFalse id
  | .listRoomsResponse rooms => inferInstanceAs (Decidable (rooms.length < 2 ^ 31))
  | .lobbyStateResponse _ players => inferInstanceAs (Decidable (players.length < 2 ^ 31))
  | .connectResponse .. | .createRoomResponse _ | .joinRoomResponse _ | .gameStartingNotification =>
    .isTrue trivial

/-- Every message that a call takes is of known length. -/
def Drains (r : FrameReader) : Label → Prop
  | .getLobbyState env => ∀ f ∈ r.left.take (FrameReader.room env), Drained f
  | _ => True

/-- Every call in the course of the labels returns; it leaves the client at the end of a
message, and what it returns is the fold of the messages up to there. -/
def ReadsFrames (l : LobbyState) (labels : List Label) : Prop :=
  ∀ pre env, pre ++ [.getLobbyState env] <+: labels →
    ∃ c returned c', machine.run ⟨[], false, l⟩ pre = some c ∧ c.getLobbyState env = some (returned, c') ∧
      ∃ taken left, written pre = taken ++ left ∧ c'.unread = left.flatMap ServerFrame.bytes ∧
        returned = taken.foldl LobbyState.after l

/-! ## Lengths -/

theorem length_cText_le (n : ℕ) (s : List UInt8) : (cText n s).length ≤ n := by
  unfold cText
  rw [List.length_take]
  omega

/-- The bytes of a `LobbyPlayerInfo`. -/
def playerBytes (p : UInt32 × List UInt8) : List UInt8 := (Block.lobbyPlayerInfo p.1 p.2).bytes

theorem playerBytes_eq (p : UInt32 × List UInt8) : playerBytes p = le32 p.1 ++ padded 32 (cText 31 p.2) := rfl

theorem length_playerBytes (p : UInt32 × List UInt8) : (playerBytes p).length = 36 := by
  have hname : (cText 31 p.2).length ≤ 32 := (length_cText_le 31 p.2).trans (by omega)
  rw [playerBytes_eq, List.length_append, length_le32, length_padded hname]

/-- A player's record is read back. -/
theorem ofBytes_playerBytes (p : UInt32 × List UInt8) :
    LobbyPlayerInfo.ofBytes (playerBytes p) = ⟨p.1, padded 32 (cText 31 p.2)⟩ := by
  have hlen : (le32 p.1).length = 4 := length_le32 p.1
  rw [LobbyPlayerInfo.ofBytes, playerBytes_eq, List.take_left' hlen, List.drop_left' hlen, ofLe32_le32]

/-! ## Reads -/

variable {closed : Bool} {l : LobbyState} {rest : List UInt8}

/-- A read finds the bytes it asks for. -/
theorem read_append {n : ℕ} {bs : List UInt8} (h : bs.length = n) :
    read ⟨bs ++ rest, closed, l⟩ n = some (some bs, ⟨rest, closed, l⟩) := by
  have hn : n ≤ (bs ++ rest).length := by rw [List.length_append]; omega
  rw [read, if_pos hn, List.take_left' h, List.drop_left' h]

/-- The players of a lobby are read one by one. -/
theorem readPlayers_append (players : List (UInt32 × List UInt8)) :
    readPlayers ⟨players.flatMap playerBytes ++ rest, closed, l⟩ players.length =
      some (some (players.map fun p => ⟨p.1, padded 32 (cText 31 p.2)⟩), ⟨rest, closed, l⟩) := by
  induction players with
  | nil => rfl
  | cons p players ih =>
    rw [List.flatMap_cons, List.append_assoc, List.length_cons, readPlayers,
      read_append (length_playerBytes p)]
    simp only [Option.bind_eq_bind, Option.bind_some, ih, Option.map_some, List.map_cons, ofBytes_playerBytes]

/-- A lobby state is read as a whole. -/
theorem readLobby_append (hostId : UInt32) (players : List (UInt32 × List UInt8)) (h : players.length < 2 ^ 31) :
    readLobby ⟨le32 hostId ++ leInt players.length ++ players.flatMap playerBytes ++ rest, closed, l⟩ =
      some ⟨rest, closed, l.after (.lobbyStateResponse hostId players)⟩ := by
  have hlen : (le32 hostId ++ leInt players.length).length = 8 := by
    rw [List.length_append, length_le32, length_leInt]
  have hhost : ofLe32 ((le32 hostId ++ leInt players.length).take 4) = hostId := by
    rw [List.take_left' (length_le32 hostId), ofLe32_le32]
  have hcount : ofLeInt ((le32 hostId ++ leInt players.length).drop 4) = players.length := by
    rw [List.drop_left' (length_le32 hostId), ofLeInt_leInt h]
  rw [List.append_assoc, readLobby, read_append hlen]
  simp only [Option.bind_eq_bind, Option.bind_some, hhost, hcount, Int.toNat_natCast, readPlayers_append]
  rfl

/-- A list of rooms is drained as a whole. -/
theorem drainRooms_append {count : ℕ} {records : List UInt8} (h : count < 2 ^ 31)
    (hlen : records.length = count * 12) :
    drainRooms ⟨leInt count ++ records ++ rest, closed, l⟩ = some ⟨rest, closed, l⟩ := by
  rw [List.append_assoc, drainRooms, read_append (length_leInt count)]
  simp only [Option.bind_eq_bind, Option.bind_some, ofLeInt_leInt h, Int.toNat_natCast]
  by_cases hpos : (0 : ℤ) < count
  · rw [if_pos hpos, read_append hlen]
    rfl
  · have hnil : records = [] := List.length_eq_zero_iff.1 (by omega)
    rw [if_neg hpos, hnil]
    rfl

/-! ## One message -/

/-- The bytes of a message after its type byte. -/
theorem bytes_lobbyStateResponse (hostId : UInt32) (players : List (UInt32 × List UInt8)) :
    (ServerFrame.lobbyStateResponse hostId players).bytes = TCPMessageType.lobbyStateResponse.code ::
      (le32 hostId ++ leInt players.length ++ players.flatMap playerBytes) := by
  rw [ServerFrame.bytes, ServerFrame.blocks, List.flatMap_cons, List.flatMap_map]
  rfl

/-- **A message of known length is taken as a whole**: its type byte first, then the rest of
it by the branch of that type. -/
theorem lobbySwitch_reads {f : ServerFrame} (hf : InRoom f) (hd : Drained f) :
    ∃ b body, f.bytes = b :: body ∧ ∀ rest closed l,
      lobbySwitch ⟨body ++ rest, closed, l⟩ b = some ⟨rest, closed, l.after f⟩ := by
  cases f with
  | connectResponse playerId udpPort serverTimeMs => exact hf.elim
  | chatMessage fullMsg => exact hd.elim
  | listRoomsResponse rooms =>
    refine ⟨_, _, rfl, fun rest closed l => ?_⟩
    exact drainRooms_append hd (length_roomRecords rooms)
  | createRoomResponse roomId =>
    refine ⟨_, leInt roomId, List.append_nil _, fun rest closed l => ?_⟩
    change (read ⟨leInt roomId ++ rest, closed, l⟩ 4).map (·.2) = _
    rw [read_append (length_leInt roomId)]
    rfl
  | joinRoomResponse status =>
    refine ⟨_, leInt status, List.append_nil _, fun rest closed l => ?_⟩
    change (read ⟨leInt status ++ rest, closed, l⟩ 4).map (·.2) = _
    rw [read_append (length_leInt status)]
    rfl
  | lobbyStateResponse hostId players =>
    refine ⟨_, _, bytes_lobbyStateResponse hostId players, fun rest closed l => ?_⟩
    exact readLobby_append hostId players hd
  | gameStartingNotification => exact ⟨_, [], rfl, fun rest closed l => rfl⟩

/-! ## One call -/

/-- The loop takes one message a turn. -/
theorem lobbyLoop_reads (arrived : ℕ → Bool) (closed : Bool) (k : ℕ) :
    ∀ (frames : List ServerFrame) (l : LobbyState), (∀ f ∈ frames, InRoom f) →
      (∀ f ∈ frames.take (FrameReader.turns arrived k), Drained f) →
      lobbyLoop arrived ⟨frames.flatMap ServerFrame.bytes, closed, l⟩ k =
        some ⟨(frames.drop (FrameReader.turns arrived k)).flatMap ServerFrame.bytes, closed,
          (frames.take (FrameReader.turns arrived k)).foldl LobbyState.after l⟩ := by
  induction k with
  | zero => intro frames l _ _; rfl
  | succ k ih =>
    intro frames l hroom hdrained
    rw [lobbyLoop]
    by_cases ha : arrived k = true
    · have hturns : FrameReader.turns arrived (k + 1) = FrameReader.turns arrived k + 1 := by
        rw [FrameReader.turns, if_pos ha]
      rw [hturns] at hdrained ⊢
      cases frames with
      | nil => rfl
      | cons f frames =>
        rw [List.take_succ_cons] at hdrained
        obtain ⟨b, body, hbytes, hswitch⟩ := lobbySwitch_reads (hroom f List.mem_cons_self)
          (hdrained f List.mem_cons_self)
        have hne : (f :: frames).flatMap ServerFrame.bytes ≠ [] := by
          rw [List.flatMap_cons, hbytes]
          exact List.cons_ne_nil _ _
        have hsplit : (f :: frames).flatMap ServerFrame.bytes =
            [b] ++ (body ++ frames.flatMap ServerFrame.bytes) := by
          rw [List.flatMap_cons, hbytes]
          rfl
        rw [if_pos ⟨hne, ha⟩, hsplit, read_append (n := 1) rfl]
        simp only [Option.bind_eq_bind, Option.bind_some, List.headD_cons, hswitch]
        exact ih frames (l.after f) (fun g hg => hroom g (List.mem_cons_of_mem _ hg))
          fun g hg => hdrained g (List.mem_cons_of_mem _ hg)
    · have hturns : FrameReader.turns arrived (k + 1) = 0 := by rw [FrameReader.turns, if_neg ha]
      rw [if_neg (fun h => ha h.2), hturns]
      rfl

/-- A call that takes only messages of known length takes whole messages. -/
theorem getLobbyState_reads {frames : List ServerFrame} (env : CallEnv) (hroom : ∀ f ∈ frames, InRoom f)
    (hdrained : ∀ f ∈ frames.take (FrameReader.room env), Drained f) :
    getLobbyState ⟨frames.flatMap ServerFrame.bytes, closed, l⟩ env =
      some ((frames.take (FrameReader.room env)).foldl LobbyState.after l,
        ⟨(frames.drop (FrameReader.room env)).flatMap ServerFrame.bytes, closed,
          (frames.take (FrameReader.room env)).foldl LobbyState.after l⟩) := by
  unfold getLobbyState
  unfold FrameReader.room at hdrained ⊢
  by_cases hw : env.writeFails = true
  · simp only [if_pos hw]
    rfl
  · simp only [if_neg hw] at hdrained ⊢
    rw [lobbyLoop_reads env.arrived closed 10 frames l hroom hdrained]
    rfl

/-! ## All calls -/

/-- The client at the end of a message, with the fold of the messages it has taken. -/
structure AtBoundary (l : LobbyState) (r : FrameReader) (c : TCPClient) : Prop where
  unread : c.unread = r.left.flatMap ServerFrame.bytes
  cached : c.cachedState = r.taken.foldl LobbyState.after l
  inRoom : ∀ f ∈ r.left, InRoom f

/-- What a call does at the end of a message. -/
theorem AtBoundary.getLobbyState {r : FrameReader} {c : TCPClient} (h : AtBoundary l r c) {env : CallEnv}
    (hd : ∀ f ∈ r.left.take (FrameReader.room env), Drained f) :
    ∃ c', c.getLobbyState env = some (c'.cachedState, c') ∧
      AtBoundary l ⟨r.taken ++ r.left.take (FrameReader.room env), r.left.drop (FrameReader.room env)⟩ c' := by
  obtain ⟨unread, closed, cached⟩ := c
  obtain ⟨rfl, rfl, hroom⟩ := h
  refine ⟨⟨(r.left.drop (FrameReader.room env)).flatMap ServerFrame.bytes, closed, _⟩,
    getLobbyState_reads env hroom hd, rfl, ?_, fun f hf => hroom f (List.mem_of_mem_drop hf)⟩
  exact List.foldl_append.symm

/-- One label keeps the client at the end of a message. -/
theorem atBoundary_step (r : FrameReader) (a : Label) (r' : FrameReader) (c : TCPClient) (h : AtBoundary l r c)
    (hd : Drains r a) (hs : FrameReader.machine.step r a = some r') :
    ∃ c', machine.step c a = some c' ∧ AtBoundary l r' c' := by
  cases a with
  | written f inRoom =>
    obtain rfl := Option.some.inj hs
    refine ⟨_, rfl, ?_, h.cached, ?_⟩
    · rw [h.unread, List.flatMap_append, List.flatMap_singleton]
    · intro g hg
      rcases List.mem_append.1 hg with hg | hg
      · exact h.inRoom g hg
      · rw [List.mem_singleton.1 hg]
        exact inRoom
  | close =>
    obtain rfl := Option.some.inj hs
    exact ⟨_, rfl, h.unread, h.cached, h.inRoom⟩
  | getLobbyState env =>
    obtain rfl := Option.some.inj hs
    obtain ⟨c', hcall, hc'⟩ := h.getLobbyState hd
    have hmove : machine.step c (.getLobbyState env) = (c.getLobbyState env).map (·.2) := rfl
    exact ⟨c', by rw [hmove, hcall, Option.map_some], hc'⟩

/-- Message by message, every label happens, and no message is lost. -/
theorem reader_run (labels : List Label) (r : FrameReader) :
    ∃ r', FrameReader.machine.run r labels = some r' ∧ r'.taken ++ r'.left = r.taken ++ r.left ++ written labels := by
  induction labels generalizing r with
  | nil => exact ⟨r, rfl, (List.append_nil _).symm⟩
  | cons a labels ih =>
    cases a with
    | written f inRoom =>
      obtain ⟨r', hr', hsum⟩ := ih { r with left := r.left ++ [f] }
      refine ⟨r', hr', hsum.trans ?_⟩
      simp only [written, List.filterMap_cons, List.append_assoc, List.cons_append, List.nil_append]
    | close => exact ih r
    | getLobbyState env =>
      obtain ⟨r', hr', hsum⟩ := ih ⟨r.taken ++ r.left.take (FrameReader.room env), r.left.drop (FrameReader.room env)⟩
      refine ⟨r', hr', hsum.trans ?_⟩
      rw [List.append_assoc r.taken, List.take_append_drop]
      rfl

/-- **The client reads the server message by message**, as long as no call takes a chat. -/
theorem readsFrames (l : LobbyState) (labels : List Label)
    (h : FrameReader.machine.Along Drains ⟨[], []⟩ labels) : ReadsFrames l labels := by
  intro pre env hpre
  have hstart : AtBoundary l ⟨[], []⟩ ⟨[], false, l⟩ := ⟨rfl, rfl, by simp⟩
  obtain ⟨r, hr, hsum⟩ := reader_run pre ⟨[], []⟩
  obtain ⟨post, rfl⟩ := hpre
  rw [List.append_assoc] at h
  obtain ⟨hbefore, hafter⟩ := (Machine.along_append hr).1 h
  obtain ⟨c, hc, hb⟩ := Machine.lockstep atBoundary_step pre _ r _ hstart hbefore hr
  -- the call after `pre`
  obtain ⟨c', hcall, hb'⟩ := hb.getLobbyState hafter.1
  refine ⟨c, c'.cachedState, c', hc, hcall, _, _, ?_, hb'.unread, hb'.cached⟩
  rw [List.append_assoc, List.take_append_drop, hsum]
  rfl

/-! ## Examples of both -/

/-- A call that finds every byte arrived. -/
def allArrived : CallEnv := ⟨false, fun _ => true⟩

/-- A lobby with one player, a stray list of rooms, and the start of the game. -/
theorem readsFrames_start : ReadsFrames .init [.written (.listRoomsResponse [⟨0, 1⟩]) trivial,
    .written (.lobbyStateResponse 1 [(1, [65])]) trivial, .getLobbyState allArrived,
    .written .gameStartingNotification trivial, .getLobbyState allArrived] := by
  refine readsFrames _ _ ?_
  refine .cons rfl trivial (.cons rfl trivial (.cons rfl ?_ (.cons rfl trivial (.cons rfl ?_ .nil))))
  · change ∀ f ∈ [ServerFrame.listRoomsResponse [⟨0, 1⟩], .lobbyStateResponse 1 [(1, [65])]], Drained f
    decide
  · change ∀ f ∈ [ServerFrame.gameStartingNotification], Drained f
    decide

/-- `Bob: hello everyone` -/
def bobsChat : List UInt8 := [66, 111, 98, 58, 32, 104, 101, 108, 108, 111, 32, 101, 118, 101, 114, 121, 111, 110, 101]

/-- **A chat is not taken as a whole**: the ten turns of the loop take ten of its 22 bytes. -/
theorem not_readsFrames_chat :
    ¬ ReadsFrames .init [.written (.chatMessage bobsChat) trivial, .getLobbyState allArrived] := by
  intro h
  obtain ⟨c, returned, c', hc, hcall, taken, left, hsplit, hunread, -⟩ :=
    h [.written (.chatMessage bobsChat) trivial] allArrived List.prefix_rfl
  obtain rfl := Option.some.inj hc
  obtain ⟨-, rfl⟩ := Prod.mk.inj (Option.some.inj hcall)
  -- one message was written: it is left whole, or nothing is
  rcases taken with _ | ⟨f, _ | ⟨g, taken⟩⟩
  · obtain rfl : left = [.chatMessage bobsChat] := hsplit.symm
    exact absurd hunread (by decide)
  · obtain ⟨-, rfl⟩ := List.cons.inj hsplit
    exact absurd hunread (by decide)
  · cases hsplit

end TCPClient

end RType

import RType.Spec.RoomSelection

/-!
# Requests of a room selection and their responses

`createRoom` and `joinRoom` read the socket that `getRooms` reads too. What keeps them apart
is an order: the server owes lists first, and last of all the one response that a flag waits
for (`Awaits`).

* `Request.poll_awaits`: a call that awaits a response takes a list that lies before it, or
  the response, and always as a whole.
* `getRooms_takes`: so does `getRooms`, where only lists are owed.
* `calledFor`: what the actions of the player and the rooms created call for. An observer takes
  down the action of each frame, and whether a flag was set before it (`startFrame`).
* `requestsMatched`: over frames, flags and states agree, each action that finds no flag set
  sends one request, and each response comes back from the call that waits for it.
-/

namespace RType

open Wire Dialogue Lts

namespace RoomSelection

/-! ## What the two sides say -/

/-- The type of the response to a request. -/
def responseType : ClientFrame → TCPMessageType
  | .createRoom => .createRoomResponse
  | .joinRoom _ => .joinRoomResponse
  | _ => .listRoomsResponse

/-- The type of an answer to a request. -/
def answerType : ServerFrame → TCPMessageType
  | .createRoomResponse _ => .createRoomResponse
  | .joinRoomResponse _ => .joinRoomResponse
  | _ => .listRoomsResponse

/-- The room id or status of a response. -/
def response : ServerFrame → Option (ℤ ⊕ Bool)
  | .createRoomResponse roomId => some (.inl roomId)
  | .joinRoomResponse status => some (.inr (decide (status = 1)))
  | _ => none

/-- The room id or status that a call returns. -/
def Event.returned : Event → Option (ℤ ⊕ Bool)
  | .createRoom returned => returned.map fun roomId => .inl roomId.toInt
  | .joinRoom returned => returned.map .inr
  | _ => none

/-- A creation or a join that is sent. -/
def Event.asked : Event → Option ClientFrame
  | .sent .createRoom => some .createRoom
  | .sent (.joinRoom roomId) => some (.joinRoom roomId)
  | _ => none

/-- What an action of the player calls for that finds no flag set. -/
def clicked (action : Int32) : List ClientFrame :=
  if action = -2 then [.createRoom] else if 0 ≤ action then [.joinRoom action] else []

/-- What a frame calls for once it has come to its joins. -/
def clickedRoom (action : Int32) : List ClientFrame := if 0 ≤ action then [.joinRoom action] else []

/-- What the return of a creation calls for, in a frame in which the player does `action`: a join
of the new room. Where it has failed no flag is set any more, and a click on a room counts. -/
def Event.calledFor (action : Int32) : Event → List ClientFrame
  | .createRoom (some newRoomId) => if 0 ≤ newRoomId then [.joinRoom newRoomId] else clickedRoom action
  | _ => []

/-- A frame as it has begun: whether a flag was set, the action of the player, and how much had
been logged. -/
structure Frame where
  busy : Bool
  action : Int32
  before : ℕ

/-- What a frame calls for, in which `events` are logged. -/
def Frame.calledFor (f : Frame) (events : List Event) : List ClientFrame :=
  (if f.busy then [] else clicked f.action) ++ events.flatMap (Event.calledFor f.action)

/-- What frames call for, the newest first. -/
def calledFor : List Frame → List Event → List ClientFrame
  | [], _ => []
  | f :: earlier, log => calledFor earlier (log.take f.before) ++ f.calledFor (log.drop f.before)

/-- The observer takes down each frame at its start. -/
def startFrame (frames : List Frame) (frame : Bool × Int32) (m : ClientManager) (w : World) : List Frame :=
  ⟨m.createRoomInitiated || m.joinRoomInitiated, frame.2, w.log.length⟩ :: frames

/-- The frames of a run. -/
def frames (s : State SocketOp SocketOp.Result ClientManager World) (labels : List (Label (Bool × Int32) NetEvent)) :
    List Frame :=
  machine.observe (fun frames s l _ => Setting.noteStart startFrame frames s l) [] s labels

/-- A read that is non-blocking finds the bytes it asks for. -/
def Finds (w : World) : SocketOp → Prop
  | .read n => w.nonBlocking = true → n ≤ w.arrived.length
  | _ => True

instance : ∀ w o, Decidable (Finds w o)
  | w, .read n => inferInstanceAs (Decidable (w.nonBlocking = true → n ≤ w.arrived.length))
  | _, .write _ | _, .available | _, .nonBlocking _ | _, .note _ => .isTrue trivial

/-- A read that blocks waits for bytes that the server has written. -/
def Comes (w : World) : SocketOp → Prop
  | .read n => w.nonBlocking = false → n ≤ w.arrived.length + w.inFlight.length
  | _ => True

/-- **The requests of a room selection are matched**, at the end of a frame. -/
structure Matched (frames : List Frame) (m : ClientManager) (w : World) : Prop where
  /-- A flag is set while its request is on its way. -/
  create : m.createRoomInitiated = true ↔ m.tcpClient.createRoomRequest.state = .sentRequest
  join : m.joinRoomInitiated = true ↔ m.tcpClient.joinRoomRequest.state = .sentRequest
  never_both : ¬ (m.createRoomInitiated = true ∧ m.joinRoomInitiated = true)
  /-- The creations and joins sent are those called for. -/
  requests : w.log.filterMap Event.asked = calledFor frames w.log
  /-- The client has read whole messages, and each room id and status has been returned once. No
  response to a creation or a join is left that no flag waits for. -/
  responses : ∃ taken unread, w.answers = taken ++ unread ∧
    w.arrived ++ w.inFlight = unread.flatMap ServerFrame.bytes ∧
    taken.filterMap response = w.log.filterMap Event.returned ∧
    (m.createRoomInitiated = false → ∀ roomId, .createRoomResponse roomId ∉ unread) ∧
    (m.joinRoomInitiated = false → ∀ status, .joinRoomResponse status ∉ unread)

/-! ## Messages -/

/-- The numbers of an answer fit an `int`. -/
def Fits : ServerFrame → Prop
  | .listRoomsResponse rooms => rooms.length < 2 ^ 31
  | .createRoomResponse roomId => roomId = (Int32.ofInt roomId).toInt
  | .joinRoomResponse status => status = (Int32.ofInt status).toInt
  | _ => False

theorem fits_of_isAnswer {request : ClientFrame} {answer : ServerFrame} (h : isAnswer request answer) :
    Fits answer ∧ answerType answer = responseType request := by
  unfold isAnswer at h
  split at h <;> simp only [decide_eq_true_eq, Bool.false_eq_true] at h <;> exact ⟨h, rfl⟩

/-- The records of a list of rooms. -/
def roomRecords (rooms : List RoomSimpleInfo) : List UInt8 :=
  (rooms.map fun r => Block.roomInfo r.id r.playerCount 4).flatMap Block.bytes

theorem bytes_listRoomsResponse (rooms : List RoomSimpleInfo) :
    (ServerFrame.listRoomsResponse rooms).bytes =
      [TCPMessageType.listRoomsResponse.code] ++ (leInt rooms.length ++ roomRecords rooms) := rfl

theorem bytes_createRoomResponse (roomId : ℤ) :
    (ServerFrame.createRoomResponse roomId).bytes =
      [TCPMessageType.createRoomResponse.code] ++ (leInt roomId ++ []) := by
  simp [ServerFrame.bytes, ServerFrame.blocks, Block.bytes]

theorem bytes_joinRoomResponse (status : ℤ) :
    (ServerFrame.joinRoomResponse status).bytes =
      [TCPMessageType.joinRoomResponse.code] ++ (leInt status ++ []) := by
  simp [ServerFrame.bytes, ServerFrame.blocks, Block.bytes]

/-- The `int` of a response. -/
def responseInt : ServerFrame → ℤ
  | .createRoomResponse roomId => roomId
  | .joinRoomResponse status => status
  | _ => 0

/-- A response that is no list is its type and its `int`. -/
theorem bytes_response {f : ServerFrame} (hf : Fits f) (htype : answerType f ≠ .listRoomsResponse) :
    f.bytes = [(answerType f).code] ++ (leInt (responseInt f) ++ []) := by
  cases f with
  | createRoomResponse roomId => exact bytes_createRoomResponse roomId
  | joinRoomResponse status => exact bytes_joinRoomResponse status
  | listRoomsResponse rooms => exact absurd rfl htype
  | _ => exact hf.elim

/-- A list is the number of its rooms and their records. -/
theorem exists_rooms {f : ServerFrame} (hf : Fits f) (htype : answerType f = .listRoomsResponse) :
    ∃ rooms : List RoomSimpleInfo, f = .listRoomsResponse rooms ∧ rooms.length < 2 ^ 31 := by
  cases f with
  | listRoomsResponse rooms => exact ⟨rooms, rfl, hf⟩
  | createRoomResponse | joinRoomResponse => cases htype
  | _ => exact hf.elim

/-! ## The connection as the client knows it -/

/-- What the client knows of its connection: it has taken the messages `taken` but for the
bytes `tail` of the last, and the server still owes messages of the types `owed`. -/
structure Talk (mode : Bool) (tail : List UInt8) (taken : List ServerFrame) (owed : List TCPMessageType)
    (log : List Event) (w : World) : Prop where
  nonBlocking : w.nonBlocking = mode
  log : w.log = log
  pending : ∃ unread, w.answers = taken ++ unread ∧
    w.arrived ++ w.inFlight = tail ++ unread.flatMap ServerFrame.bytes ∧
    unread.map answerType ++ w.requests.map responseType = owed ∧ ∀ f ∈ unread, Fits f

variable {mode : Bool} {tail bs : List UInt8} {taken : List ServerFrame} {owed : List TCPMessageType}
  {log : List Event} {w : World} {n : ℕ}

/-- An answer goes to the first request that waits. -/
theorem move_answer {f : ServerFrame} {w' : World} (h : w.move (.answer f) = some w') :
    ∃ request requests, w.requests = request :: requests ∧ isAnswer request f ∧
      w' = { w with requests, inFlight := w.inFlight ++ f.bytes, answers := w.answers ++ [f] } := by
  rcases hrequests : w.requests with _ | ⟨request, requests⟩
  · simp [World.move, hrequests] at h
  · simp only [World.move, hrequests, Option.ite_none_right_eq_some, Option.some.injEq] at h
    exact ⟨request, requests, rfl, h.1, h.2.symm⟩

/-- Answers and deliveries leave it as it is. -/
theorem stable_talk : setting.Stable (Talk mode tail taken owed log) := by
  refine Setting.stable_of_move fun w e w' h hmove => ?_
  obtain ⟨unread, hanswers, hbytes, howed, hfits⟩ := h.pending
  cases e with
  | answer f =>
    obtain ⟨request, requests, hrequests, hf, rfl⟩ := move_answer hmove
    obtain ⟨hfit, htype⟩ := fits_of_isAnswer hf
    refine ⟨h.nonBlocking, h.log, unread ++ [f], ?_, ?_, ?_, ?_⟩
    · rw [hanswers, List.append_assoc]
    · change w.arrived ++ (w.inFlight ++ f.bytes) = _
      rw [← List.append_assoc, hbytes, List.append_assoc, List.flatMap_append, List.flatMap_singleton]
    · rw [← howed, hrequests, List.map_append, List.append_assoc]
      change _ ++ (answerType f :: requests.map responseType) = _
      rw [htype, List.map_cons]
    · intro g hg
      rcases List.mem_append.1 hg with hg | hg
      · exact hfits g hg
      · rwa [List.mem_singleton.1 hg]
  | deliver n =>
    obtain rfl := Option.some.inj hmove
    refine ⟨h.nonBlocking, h.log, unread, hanswers, ?_, howed, hfits⟩
    change w.arrived ++ w.inFlight.take n ++ w.inFlight.drop n = _
    rw [List.append_assoc, List.take_append_drop, hbytes]

/-- A read that is performed takes what comes next, if it finds it. -/
theorem perform_read {w' : World} {found rest : List UInt8} (hfinds : Finds w (.read n))
    (hbytes : w.arrived ++ w.inFlight = bs ++ rest) (hn : bs.length = n)
    (h : w.perform (.read n) = some (found, w')) :
    found = bs ∧ w' = { w with arrived := w.arrived.drop n } ∧ w.arrived.drop n ++ w.inFlight = rest := by
  have harrived : n ≤ w.arrived.length := by
    by_cases hmode : w.nonBlocking = true
    · exact hfinds hmode
    · by_contra hshort
      have hwaits : w.perform (.read n) = none := if_neg (by rintro (h | h) <;> contradiction)
      rw [hwaits] at h
      cases h
  have hdone : w.perform (.read n) = some (w.arrived.take n, { w with arrived := w.arrived.drop n }) :=
    if_pos (.inr harrived)
  rw [hdone] at h
  obtain ⟨rfl, rfl⟩ := Prod.mk.inj (Option.some.inj h)
  refine ⟨?_, rfl, ?_⟩
  · have htake := congrArg (List.take n) hbytes
    rwa [List.take_append_of_le_length harrived, List.take_left' hn] at htake
  · have hdrop := congrArg (List.drop n) hbytes
    rwa [List.drop_append_of_le_length harrived, List.drop_left' hn] at hdrop

namespace Talk

/-- A message that has begun to arrive is taken next. -/
theorem front (h : Talk mode [] taken owed log w) (harrived : 1 ≤ w.arrived.length) :
    ∃ f owed', owed = answerType f :: owed' ∧ Fits f ∧ Talk mode f.bytes (taken ++ [f]) owed' log w := by
  obtain ⟨unread, hanswers, hbytes, howed, hfits⟩ := h.pending
  cases unread with
  | nil =>
    have hnone : w.arrived = [] := (List.append_eq_nil_iff.1 hbytes).1
    rw [hnone] at harrived
    exact absurd harrived (by decide)
  | cons f unread =>
    refine ⟨f, _, howed.symm, hfits f List.mem_cons_self, h.nonBlocking, h.log, unread, ?_, hbytes, rfl, ?_⟩
    · rw [hanswers, List.append_assoc]
      rfl
    · exact fun g hg => hfits g (List.mem_cons_of_mem f hg)

/-! Each operation of the socket. -/

theorem write {request : ClientFrame} {Q : Bool → World → Prop} (h : Talk mode tail taken owed log w)
    (hQ : ∀ w', Talk mode tail taken (owed ++ [responseType request]) (log ++ [.sent request]) w' → Q false w') :
    setting.Holds Finds Comes (write request) Q w := by
  refine Setting.holds_call stable_talk h (fun _ _ => trivial) fun w ec w' hw _ hperform => ?_
  obtain ⟨rfl, rfl⟩ := Prod.mk.inj (Option.some.inj hperform)
  obtain ⟨unread, hanswers, hbytes, howed, hfits⟩ := hw.pending
  refine hQ _ ⟨hw.nonBlocking, ?_, unread, hanswers, hbytes, ?_, hfits⟩
  · rw [hw.log]
  · rw [List.map_append, ← List.append_assoc, howed]
    rfl

theorem available {Q : ℕ → World → Prop} (h : Talk mode tail taken owed log w)
    (hQ : ∀ w', Talk mode tail taken owed log w' → Q w'.arrived.length w') :
    setting.Holds Finds Comes available Q w := by
  refine Setting.holds_call stable_talk h (fun _ _ => trivial) fun w count w' hw _ hperform => ?_
  obtain ⟨rfl, rfl⟩ := Prod.mk.inj (Option.some.inj hperform)
  exact hQ w hw

theorem read {Q : List UInt8 → World → Prop} (h : Talk mode (bs ++ tail) taken owed log w) (hn : bs.length = n)
    (hQ : ∀ w', Talk mode tail taken owed log w' → Q bs w') : setting.Holds Finds Comes (read n) Q w := by
  refine Setting.holds_call stable_talk h ?_ fun w found w' hw hfinds hperform => ?_
  · -- the rest of the message has been written
    rintro w hw -
    obtain ⟨unread, -, hbytes, -⟩ := hw.pending
    have hlen := congrArg List.length hbytes
    rw [List.length_append, List.length_append, List.length_append] at hlen
    omega
  · obtain ⟨unread, hanswers, hbytes, howed, hfits⟩ := hw.pending
    rw [List.append_assoc] at hbytes
    obtain ⟨rfl, rfl, hrest⟩ := perform_read hfinds hbytes hn hperform
    exact hQ _ ⟨hw.nonBlocking, hw.log, unread, hanswers, hrest, howed, hfits⟩

theorem nonBlock {mode' : Bool} {Q : Unit → World → Prop} (h : Talk mode tail taken owed log w)
    (hQ : ∀ w', Talk mode' tail taken owed log w' → Q () w') :
    setting.Holds Finds Comes (RoomSelection.nonBlocking mode') Q w := by
  refine Setting.holds_call stable_talk h (fun _ _ => trivial) fun w u w' hw _ hperform => ?_
  obtain ⟨rfl, rfl⟩ := Prod.mk.inj (Option.some.inj hperform)
  exact hQ _ ⟨rfl, hw.log, hw.pending⟩

theorem note {e : Event} {Q : Unit → World → Prop} (h : Talk mode tail taken owed log w)
    (hQ : ∀ w', Talk mode tail taken owed (log ++ [e]) w' → Q () w') :
    setting.Holds Finds Comes (note e) Q w := by
  refine Setting.holds_call stable_talk h (fun _ _ => trivial) fun w u w' hw _ hperform => ?_
  obtain ⟨rfl, rfl⟩ := Prod.mk.inj (Option.some.inj hperform)
  refine hQ _ ⟨hw.nonBlocking, ?_, hw.pending⟩
  rw [hw.log]

end Talk

/-! ## A request -/

/-- So many lists, and then the response to something else. -/
def listsThen (k : ℕ) (last : List TCPMessageType) : List TCPMessageType :=
  List.replicate k .listRoomsResponse ++ last

/-- What is owed first is a list, or nothing but the last response is owed. -/
theorem listsThen_eq_cons {k : ℕ} {last : List TCPMessageType} {type : TCPMessageType}
    (h : listsThen k last = type :: owed) :
    (∃ k', type = .listRoomsResponse ∧ owed = listsThen k' last) ∨ last = type :: owed := by
  cases k with
  | zero => exact .inr h
  | succ k =>
    obtain ⟨rfl, rfl⟩ := List.cons.inj h
    exact .inl ⟨k, rfl, rfl⟩

variable {r : Request} {request : ClientFrame} {awaited : TCPMessageType} {k : ℕ}
  {Q : Reply × Request → World → Prop}

/-- The first call sends the request. -/
theorem Request.poll_sends (hr : r.state = .idle) (h : Talk true [] taken owed log w)
    (hQ : ∀ w', Talk true [] taken (owed ++ [responseType request]) (log ++ [.sent request]) w' →
      Q (.pending, { r with state := .sentRequest }) w') :
    setting.Holds Finds Comes (r.poll request awaited) Q w := by
  unfold Request.poll
  rw [hr]
  refine Setting.holds_bind.2 (h.write fun w h => ?_)
  exact hQ w h

/-- **A later call takes a whole message**, if one has begun to arrive: a list that `getRooms`
has not read, or the response. -/
theorem Request.poll_awaits (hr : r.state = .sentRequest) (hawaited : awaited ≠ .listRoomsResponse)
    (h : Talk true [] taken (listsThen k [awaited]) log w)
    (hpending : ∀ k' taken' type w', taken'.filterMap response = taken.filterMap response →
      Talk true [] taken' (listsThen k' [awaited]) log w' → Q (.pending, ⟨.sentRequest, type⟩) w')
    (hvalue : ∀ f w', Fits f → answerType f = awaited → Talk true [] (taken ++ [f]) [] log w' →
      Q (.value (Int32.ofInt (responseInt f)), ⟨.idle, 0⟩) w') :
    setting.Holds Finds Comes (r.poll request awaited) Q w := by
  obtain ⟨state, type⟩ := r
  obtain rfl : state = .sentRequest := hr
  unfold Request.poll
  refine Setting.holds_bind.2 (h.available fun w h => ?_)
  -- nothing has arrived yet
  by_cases harrived : w.arrived.length < 1
  · rw [if_pos harrived]
    exact hpending k taken type w rfl h
  rw [if_neg harrived]
  obtain ⟨f, owed, howed, hfits, h⟩ := h.front (by omega)
  refine Setting.holds_bind.2 (h.nonBlock fun w h => ?_)
  rcases listsThen_eq_cons howed with ⟨k', htype, rfl⟩ | hlast
  · -- a list: its count, then its records
    obtain ⟨rooms, rfl, hrooms⟩ := exists_rooms hfits htype
    have hcode : TCPMessageType.listRoomsResponse.code ≠ awaited.code := fun h =>
      hawaited (TCPMessageType.code_injective h).symm
    have herror : TCPMessageType.listRoomsResponse.code ≠ TCPMessageType.connectError.code := by decide
    rw [bytes_listRoomsResponse] at h
    refine Setting.holds_bind.2 (h.read rfl fun w h => ?_)
    rw [if_neg (by decide)]
    simp only [List.headD_cons, if_neg hcode, if_neg herror, if_true]
    refine Setting.holds_bind.2 (h.read (length_leInt _) fun w h => ?_)
    rw [ofLeInt_leInt hrooms, length_leInt]
    have hkeep : (taken ++ [ServerFrame.listRoomsResponse rooms]).filterMap response = taken.filterMap response := by
      rw [List.filterMap_append]
      exact List.append_nil _
    -- the records are read only when there are some
    by_cases hnone : rooms = []
    · subst hnone
      rw [if_neg (by simp)]
      refine Setting.holds_bind.2 (h.nonBlock fun w h => ?_)
      exact hpending k' _ _ w hkeep h
    · have hpos : 0 < rooms.length := List.length_pos_iff.2 hnone
      rw [if_pos ⟨rfl, by omega⟩]
      rw [← List.append_nil (roomRecords rooms)] at h
      refine Setting.holds_bind.2 (h.read (length_roomRecords rooms) fun w h => ?_)
      refine Setting.holds_bind.2 (h.nonBlock fun w h => ?_)
      exact hpending k' _ _ w hkeep h
  · -- the response
    obtain ⟨htype, rfl⟩ := List.cons.inj hlast
    rw [bytes_response hfits (htype ▸ hawaited), ← htype] at h
    refine Setting.holds_bind.2 (h.read rfl fun w h => ?_)
    rw [if_neg (by simp), List.headD_cons, if_pos rfl]
    refine Setting.holds_bind.2 (h.read (length_leInt _) fun w h => ?_)
    refine Setting.holds_bind.2 (h.nonBlock fun w h => ?_)
    rw [length_leInt, if_neg (by decide), toInt32_leInt]
    exact hvalue f w hfits htype.symm h

/-! ## The calls of a `TCPClient` -/

section Lists

variable {E : Type} {S : Setting SocketOp SocketOp.Result World E} {C G : World → SocketOp → Prop}

/-- While `J` knows the bytes that come next, a read takes the first of them. -/
def Reads (S : Setting SocketOp SocketOp.Result World E) (C G : World → SocketOp → Prop)
    (J : List UInt8 → World → Prop) : Prop :=
  ∀ bs tail n w (Q : List UInt8 → World → Prop), J (bs ++ tail) w → bs.length = n →
    (∀ w', J tail w' → Q bs w') → S.Holds C G (read n) Q w

/-- A room as the client reads it. -/
def RoomInfo.ofRecord (r : RoomSimpleInfo) : RoomInfo :=
  .ofBytes (padded 12 (Block.roomInfo r.id r.playerCount 4).bytes)

/-- The records of a list are read one by one. -/
theorem Reads.readRooms {J : List UInt8 → World → Prop} (hJ : Reads S C G J) (rooms : List RoomSimpleInfo)
    {w : World} {Q : List RoomInfo → World → Prop} (h : J (roomRecords rooms) w)
    (hQ : ∀ w', J [] w' → Q (rooms.map RoomInfo.ofRecord) w') :
    S.Holds C G (RoomSelection.readRooms rooms.length) Q w := by
  induction rooms generalizing w Q with
  | nil => exact hQ w h
  | cons r rooms ih =>
    have hrecord : (Block.roomInfo r.id r.playerCount 4).bytes.length = 12 := by
      simp only [Block.bytes, List.length_append, length_leInt]
    have hrest : roomRecords (r :: rooms) = (Block.roomInfo r.id r.playerCount 4).bytes ++ roomRecords rooms := by
      rw [roomRecords, List.map_cons, List.flatMap_cons]
      rfl
    rw [hrest] at h
    refine Setting.holds_bind.2 (hJ _ _ _ _ _ h hrecord fun w h => ?_)
    refine Setting.holds_bind.2 (ih h fun w h => ?_)
    exact hQ w h

/-- **What `getRooms` returns**: the cached list if no whole header has arrived, or the rooms of the
list that comes next. `J` is known once the request is written, and `K` of the bytes of the
list that are left. -/
theorem getRooms_rule {J : World → Prop} {K : List RoomSimpleInfo → List UInt8 → World → Prop} {c : TCPClient} {w : World}
    {Q : List RoomInfo × TCPClient → World → Prop}
    (hwrite : ∀ Q : Bool → World → Prop, (∀ w', J w' → Q false w') → S.Holds C G (write .listRooms) Q w)
    (havailable : ∀ w (Q : ℕ → World → Prop), J w → (∀ w', J w' → Q w'.arrived.length w') → S.Holds C G available Q w)
    (hfront : ∀ w, J w → 1 ≤ w.arrived.length → ∃ rooms : List RoomSimpleInfo,
      rooms.length < 2 ^ 31 ∧ K rooms (ServerFrame.listRoomsResponse rooms).bytes w)
    (hK : ∀ rooms, Reads S C G (K rooms)) (hcached : ∀ w', J w' → Q (c.cachedRooms, c) w')
    (hlist : ∀ rooms w', K rooms [] w' →
      Q (rooms.map RoomInfo.ofRecord, { c with cachedRooms := rooms.map RoomInfo.ofRecord }) w') :
    S.Holds C G c.getRooms Q w := by
  unfold TCPClient.getRooms
  refine Setting.holds_bind.2 (hwrite _ fun w h => ?_)
  refine Setting.holds_bind.2 (havailable _ _ h fun w h => ?_)
  -- without a whole header the cached list is returned
  by_cases harrived : w.arrived.length < 5
  · rw [if_pos harrived]
    exact hcached w h
  rw [if_neg harrived]
  obtain ⟨rooms, hfits, h⟩ := hfront w h (by omega)
  rw [bytes_listRoomsResponse] at h
  refine Setting.holds_bind.2 (hK rooms _ _ _ _ _ h rfl fun w h => ?_)
  rw [if_neg (by simp)]
  refine Setting.holds_bind.2 (hK rooms _ _ _ _ _ h (length_leInt _) fun w h => ?_)
  have hcount : padded 4 (leInt rooms.length) = leInt rooms.length := by
    rw [padded, length_leInt]
    exact List.append_nil _
  rw [hcount, ofLeInt_leInt hfits, Int.toNat_natCast]
  refine Setting.holds_bind.2 ((hK rooms).readRooms rooms h fun w h => ?_)
  exact hlist rooms w h

end Lists

/-- **`getRooms` takes a whole list**, or nothing, where only lists are owed. -/
theorem getRooms_takes {c : TCPClient} {Q : List RoomInfo × TCPClient → World → Prop}
    (h : Talk true [] taken (listsThen k []) log w)
    (hQ : ∀ k' taken' rooms cachedRooms w', taken'.filterMap response = taken.filterMap response →
      Talk true [] taken' (listsThen k' []) (log ++ [.sent .listRooms]) w' → Q (rooms, { c with cachedRooms }) w') :
    setting.Holds Finds Comes c.getRooms Q w := by
  have hmore : listsThen k [] ++ [responseType .listRooms] = listsThen (k + 1) [] := by
    simp only [listsThen, List.append_nil, List.replicate_succ']
    rfl
  refine getRooms_rule (J := Talk true [] taken (listsThen (k + 1) []) (log ++ [.sent .listRooms]))
    (K := fun rooms tail => Talk true tail (taken ++ [.listRoomsResponse rooms]) (listsThen k [])
      (log ++ [.sent .listRooms])) (fun Q hQ => h.write fun w h => hQ w (hmore ▸ h)) (fun _ _ h => h.available)
    (fun w h harrived => ?_) (fun _ _ _ _ _ _ h hn => h.read hn) (fun w h => hQ _ taken _ c.cachedRooms w rfl h)
    fun rooms w h => hQ k _ _ _ w ?_ h
  · -- the first message to come is a list, since nothing else is owed
    obtain ⟨f, owed, howed, hfits, h⟩ := h.front harrived
    obtain ⟨htype, rfl⟩ : answerType f = .listRoomsResponse ∧ owed = listsThen k [] := by
      obtain ⟨htype, howed⟩ := List.cons.inj howed
      exact ⟨htype.symm, howed.symm⟩
    obtain ⟨rooms, rfl, hrooms⟩ := exists_rooms hfits htype
    exact ⟨rooms, hrooms, h⟩
  · rw [List.filterMap_append]
    exact List.append_nil _

variable {m : ClientManager} {Q : ClientManager → World → Prop}

theorem callCreateRoom_sends (hidle : m.tcpClient.createRoomRequest.state = .idle)
    (h : Talk true [] taken owed log w)
    (hQ : ∀ w', Talk true [] taken (owed ++ [.createRoomResponse]) (log ++ [.sent .createRoom, .createRoom none]) w' →
      Q { m with
        createRoomResponse := none
        tcpClient := { m.tcpClient with
          createRoomRequest := { m.tcpClient.createRoomRequest with state := .sentRequest } } } w') :
    setting.Holds Finds Comes m.callCreateRoom Q w := by
  unfold ClientManager.callCreateRoom TCPClient.createRoom
  refine Setting.holds_bind.2 (Setting.holds_bind.2 (Request.poll_sends hidle h fun w h => ?_))
  refine Setting.holds_bind.2 (h.note fun w h => ?_)
  rw [List.append_assoc] at h
  exact hQ w h

theorem callJoinRoom_sends (hidle : m.tcpClient.joinRoomRequest.state = .idle)
    (h : Talk true [] taken owed log w)
    (hQ : ∀ w', Talk true [] taken (owed ++ [.joinRoomResponse])
        (log ++ [.sent (.joinRoom m.roomToJoin), .joinRoom none]) w' →
      Q { m with
        joinRoomResponse := none
        tcpClient := { m.tcpClient with
          joinRoomRequest := { m.tcpClient.joinRoomRequest with state := .sentRequest } } } w') :
    setting.Holds Finds Comes m.callJoinRoom Q w := by
  unfold ClientManager.callJoinRoom TCPClient.joinRoom
  refine Setting.holds_bind.2 (Setting.holds_bind.2 (Request.poll_sends hidle h fun w h => ?_))
  refine Setting.holds_bind.2 (h.note fun w h => ?_)
  rw [List.append_assoc] at h
  exact hQ w h

theorem callCreateRoom_awaits (hsent : m.tcpClient.createRoomRequest.state = .sentRequest)
    (h : Talk true [] taken (listsThen k [.createRoomResponse]) log w)
    (hpending : ∀ k' taken' type w', taken'.filterMap response = taken.filterMap response →
      Talk true [] taken' (listsThen k' [.createRoomResponse]) (log ++ [.createRoom none]) w' →
      Q { m with
        createRoomResponse := none
        tcpClient := { m.tcpClient with createRoomRequest := ⟨.sentRequest, type⟩ } } w')
    (hvalue : ∀ taken' (roomId : Int32) w',
      taken'.filterMap response = taken.filterMap response ++ [.inl roomId.toInt] →
      Talk true [] taken' [] (log ++ [.createRoom (some roomId)]) w' →
      Q { m with
        createRoomResponse := some roomId
        tcpClient := { m.tcpClient with createRoomRequest := ⟨.idle, 0⟩ } } w') :
    setting.Holds Finds Comes m.callCreateRoom Q w := by
  unfold ClientManager.callCreateRoom TCPClient.createRoom
  refine Setting.holds_bind.2 (Setting.holds_bind.2 (Request.poll_awaits hsent (by decide) h ?_ ?_))
  · intro k' taken' type w hkept h
    refine Setting.holds_bind.2 (h.note fun w h => ?_)
    exact hpending k' taken' type w hkept h
  · intro f w hfits htype h
    refine Setting.holds_bind.2 (h.note fun w h => ?_)
    refine hvalue _ _ w ?_ h
    cases f with
    | createRoomResponse roomId =>
      rw [List.filterMap_append]
      exact congrArg (fun n => taken.filterMap response ++ [.inl n]) hfits
    | joinRoomResponse | listRoomsResponse => cases htype
    | _ => exact hfits.elim

theorem callJoinRoom_awaits (hsent : m.tcpClient.joinRoomRequest.state = .sentRequest)
    (h : Talk true [] taken (listsThen k [.joinRoomResponse]) log w)
    (hpending : ∀ k' taken' type w', taken'.filterMap response = taken.filterMap response →
      Talk true [] taken' (listsThen k' [.joinRoomResponse]) (log ++ [.joinRoom none]) w' →
      Q { m with
        joinRoomResponse := none
        tcpClient := { m.tcpClient with joinRoomRequest := ⟨.sentRequest, type⟩ } } w')
    (hvalue : ∀ taken' ok w', taken'.filterMap response = taken.filterMap response ++ [.inr ok] →
      Talk true [] taken' [] (log ++ [.joinRoom (some ok)]) w' →
      Q { m with
        joinRoomResponse := some ok
        tcpClient := { m.tcpClient with joinRoomRequest := ⟨.idle, 0⟩ } } w') :
    setting.Holds Finds Comes m.callJoinRoom Q w := by
  unfold ClientManager.callJoinRoom TCPClient.joinRoom
  refine Setting.holds_bind.2 (Setting.holds_bind.2 (Request.poll_awaits hsent (by decide) h ?_ ?_))
  · intro k' taken' type w hkept h
    refine Setting.holds_bind.2 (h.note fun w h => ?_)
    exact hpending k' taken' type w hkept h
  · intro f w hfits htype h
    refine Setting.holds_bind.2 (h.note fun w h => ?_)
    refine hvalue _ _ w ?_ h
    cases f with
    | joinRoomResponse status =>
      rw [List.filterMap_append]
      -- the status is compared with 1 as an `int32_t`
      have hone : status = 1 ↔ Int32.ofInt status = 1 := by
        constructor
        · rintro rfl
          rfl
        · intro hone
          rw [hfits, hone]
          rfl
      exact congrArg (fun ok => taken.filterMap response ++ [.inr ok]) (decide_eq_decide.2 hone)
    | createRoomResponse | listRoomsResponse => cases htype
    | _ => exact hfits.elim

/-! ## The frames -/

/-- **What the server owes**, by what the client awaits: lists, and last the response that a
flag waits for. -/
inductive Awaits : ClientManager → List TCPMessageType → Prop
  | nothing {m : ClientManager} (k : ℕ)
      (flags : m.createRoomInitiated = false ∧ m.joinRoomInitiated = false)
      (states : m.tcpClient.createRoomRequest.state = .idle ∧ m.tcpClient.joinRoomRequest.state = .idle) :
      Awaits m (listsThen k [])
  | create {m : ClientManager} (k : ℕ)
      (flags : m.createRoomInitiated = true ∧ m.joinRoomInitiated = false)
      (states : m.tcpClient.createRoomRequest.state = .sentRequest ∧ m.tcpClient.joinRoomRequest.state = .idle) :
      Awaits m (listsThen k [.createRoomResponse])
  | join {m : ClientManager} (k : ℕ)
      (flags : m.createRoomInitiated = false ∧ m.joinRoomInitiated = true)
      (states : m.tcpClient.createRoomRequest.state = .idle ∧ m.tcpClient.joinRoomRequest.state = .sentRequest) :
      Awaits m (listsThen k [.joinRoomResponse])

/-- What is still to be asked for, if no flag is set. -/
def toAsk (click : List ClientFrame) (m : ClientManager) : List ClientFrame :=
  if m.createRoomInitiated || m.joinRoomInitiated then [] else click

theorem toAsk_nil (m : ClientManager) : toAsk [] m = [] := by
  unfold toAsk
  split <;> rfl

theorem toAsk_busy {click : List ClientFrame} {m : ClientManager}
    (h : m.createRoomInitiated = true ∨ m.joinRoomInitiated = true) : toAsk click m = [] :=
  if_pos (Bool.or_eq_true _ _ ▸ h)

theorem toAsk_free {click : List ClientFrame} {m : ClientManager}
    (h : m.createRoomInitiated = false ∧ m.joinRoomInitiated = false) : toAsk click m = click := by
  rw [toAsk, h.1, h.2]
  rfl

/-- What has been taken has been returned, and what has been sent or is `due` was called for. -/
structure Accounted (frames : List Frame) (due : List ClientFrame) (taken : List ServerFrame) (log : List Event) :
    Prop where
  responses : taken.filterMap response = log.filterMap Event.returned
  requests : log.filterMap Event.asked ++ due = calledFor frames log

/-- **The invariant between the steps of a frame**, of which `click` is still to come. -/
structure Between (f : Frame) (earlier : List Frame) (click : List ClientFrame) (m : ClientManager) (w : World) : Prop where
  noResponse : m.createRoomResponse = none ∧ m.joinRoomResponse = none
  talk : ∃ taken owed log, Talk true [] taken owed log w ∧ Awaits m owed ∧ f.before ≤ log.length ∧
    Accounted (f :: earlier) (toAsk click m) taken log

/-- **The invariant between frames.** -/
structure Rest (frames : List Frame) (m : ClientManager) (w : World) : Prop where
  noResponse : m.createRoomResponse = none ∧ m.joinRoomResponse = none
  talk : ∃ taken owed log, Talk true [] taken owed log w ∧ Awaits m owed ∧ Accounted frames [] taken log

variable {f : Frame} {earlier : List Frame} {click due : List ClientFrame} {events : List Event}

/-- What is logged belongs to the newest frame. -/
theorem calledFor_append (hbefore : f.before ≤ log.length) :
    calledFor (f :: earlier) (log ++ events) =
      calledFor (f :: earlier) log ++ events.flatMap (Event.calledFor f.action) := by
  rw [calledFor, calledFor, List.take_append_of_le_length hbefore, List.drop_append_of_le_length hbefore, Frame.calledFor,
    Frame.calledFor, List.flatMap_append, List.append_assoc, List.append_assoc]

theorem Accounted.append {taken' : List ServerFrame} {due' : List ClientFrame}
    (h : Accounted (f :: earlier) due taken log) (hbefore : f.before ≤ log.length)
    (hresponses : taken'.filterMap response = taken.filterMap response ++ events.filterMap Event.returned)
    (hrequests : events.filterMap Event.asked ++ due' = due ++ events.flatMap (Event.calledFor f.action)) :
    f.before ≤ (log ++ events).length ∧ Accounted (f :: earlier) due' taken' (log ++ events) := by
  refine ⟨by rw [List.length_append]; exact Nat.le_add_right_of_le hbefore, ?_, ?_⟩
  · rw [hresponses, h.responses, List.filterMap_append]
  · rw [calledFor_append hbefore, ← h.requests, List.filterMap_append, List.append_assoc, hrequests, List.append_assoc]

theorem stable_rest (frames : List Frame) (m : ClientManager) : setting.Stable (Rest frames m) := by
  rintro w w' ⟨hnone, taken, owed, log, htalk, hawaits, hacc⟩ hev
  exact ⟨hnone, taken, owed, log, stable_talk w w' htalk hev, hawaits, hacc⟩

/-- A frame begins. -/
theorem Rest.start {frames : List Frame} (h : Rest frames m w) (frame : Bool × Int32) :
    Between ⟨m.createRoomInitiated || m.joinRoomInitiated, frame.2, w.log.length⟩ frames (clicked frame.2) m w := by
  obtain ⟨hnone, taken, owed, log, htalk, hawaits, hacc⟩ := h
  obtain rfl := htalk.log
  refine ⟨hnone, taken, owed, w.log, htalk, hawaits, le_rfl, hacc.responses, ?_⟩
  have hrequests := hacc.requests
  rw [List.append_nil] at hrequests
  rw [calledFor, List.take_length, List.drop_length, hrequests, Frame.calledFor, List.flatMap_nil, List.append_nil]
  rfl

/-- A frame that has nothing more to ask is over. -/
theorem Between.rest (h : Between f earlier [] m w) : Rest (f :: earlier) m w := by
  obtain ⟨hnone, taken, owed, log, htalk, hawaits, -, hacc⟩ := h
  rw [toAsk_nil] at hacc
  exact ⟨hnone, taken, owed, log, htalk, hawaits, hacc⟩

/-- A click that does not count is none. -/
theorem Between.skip {click' : List ClientFrame} (h : Between f earlier click m w) (hsame : toAsk click m = toAsk click' m) :
    Between f earlier click' m w := by
  obtain ⟨hnone, taken, owed, log, htalk, hawaits, hbefore, hacc⟩ := h
  rw [hsame] at hacc
  exact ⟨hnone, taken, owed, log, htalk, hawaits, hbefore, hacc⟩

/-! Each step of a frame keeps it. -/

theorem updateRooms_between {due : Bool} (h : Between f earlier click m w) :
    setting.Holds Finds Comes (m.updateRooms due) (Between f earlier click) w := by
  unfold ClientManager.updateRooms
  split
  case isFalse => exact h
  case isTrue hdue =>
    obtain ⟨hnone, taken, owed, log, htalk, hawaits, hbefore, hacc⟩ := h
    cases hawaits with
    | nothing k flags states =>
      refine Setting.holds_bind.2 (getRooms_takes htalk fun k' taken' rooms cachedRooms w hkept htalk => ?_)
      refine ⟨hnone, taken', _, _, htalk, .nothing k' flags states, hacc.append hbefore ?_ ?_⟩
      · rw [hkept]
        exact (List.append_nil _).symm
      · exact (List.append_nil _).symm
    | create k flags states => simp [flags.1] at hdue
    | join k flags states => simp [flags.2] at hdue

theorem startCreate_between (h : Between f earlier (clicked f.action) m w) :
    setting.Holds Finds Comes (m.startCreate f.action) (Between f earlier (clickedRoom f.action)) w := by
  unfold ClientManager.startCreate
  split
  case isFalse hskip =>
    refine h.skip ?_
    unfold toAsk
    split
    · rfl
    · rename_i hfree
      rw [Bool.or_eq_true, not_or, Bool.not_eq_true, Bool.not_eq_true] at hfree
      have hno : f.action ≠ -2 := fun hcreate => hskip ⟨hcreate, by rw [hfree.1]; rfl, by rw [hfree.2]; rfl⟩
      exact if_neg hno
  case isTrue haction =>
    obtain ⟨hnone, taken, owed, log, htalk, hawaits, hbefore, hacc⟩ := h
    cases hawaits with
    | nothing k flags states =>
      rw [toAsk_free flags, clicked, if_pos haction.1] at hacc
      refine callCreateRoom_sends (m := { m with createRoomInitiated := true }) states.1 htalk fun w htalk => ?_
      refine ⟨⟨rfl, hnone.2⟩, taken, _, _, htalk, ?_, hacc.append hbefore (List.append_nil _).symm ?_⟩
      · rw [listsThen, List.append_nil]
        exact .create k ⟨rfl, flags.2⟩ ⟨rfl, states.2⟩
      · exact congrArg (ClientFrame.createRoom :: ·) (toAsk_busy (.inl rfl))
    | create k flags states => simp [flags.1] at haction
    | join k flags states => simp [flags.2] at haction

/-- A creation that succeeds goes over into a join. -/
theorem handleCreate_between {roomId : Int32} (hresponse : m.createRoomResponse = some roomId)
    (hnone : m.joinRoomResponse = none) (hflags : m.createRoomInitiated = true ∧ m.joinRoomInitiated = false)
    (states : m.tcpClient.createRoomRequest.state = .idle ∧ m.tcpClient.joinRoomRequest.state = .idle)
    {taken' : List ServerFrame} (htaken : taken'.filterMap response = taken.filterMap response ++ [.inl roomId.toInt])
    (htalk : Talk true [] taken' [] (log ++ [.createRoom (some roomId)]) w) (hbefore : f.before ≤ log.length)
    (hacc : Accounted (f :: earlier) [] taken log) :
    setting.Holds Finds Comes m.handleCreate (Between f earlier (clickedRoom f.action)) w := by
  unfold ClientManager.handleCreate
  rw [hresponse]
  by_cases hroom : 0 ≤ roomId
  · simp only [if_pos hroom]
    refine Setting.holds_bind.2 (callJoinRoom_sends
      (m := { m with createRoomResponse := some roomId, joinRoomInitiated := true, roomToJoin := roomId })
      states.2 htalk fun w htalk => ?_)
    rw [List.append_assoc] at htalk
    refine ⟨⟨rfl, rfl⟩, taken', _, _, htalk, .join 0 ⟨rfl, rfl⟩ ⟨states.1, rfl⟩, hacc.append hbefore htaken ?_⟩
    change ClientFrame.joinRoom roomId :: toAsk _ _ = (if 0 ≤ roomId then [.joinRoom roomId] else clickedRoom f.action) ++ []
    rw [if_pos hroom, toAsk_busy (.inr rfl), List.append_nil]
  · simp only [if_neg hroom]
    refine ⟨⟨rfl, hnone⟩, taken', _, _, htalk, .nothing 0 ⟨rfl, hflags.2⟩ states, hacc.append hbefore htaken ?_⟩
    change toAsk _ _ = (if 0 ≤ roomId then [.joinRoom roomId] else clickedRoom f.action) ++ []
    rw [if_neg hroom, List.append_nil]
    exact toAsk_free ⟨rfl, hflags.2⟩

theorem awaitCreate_between (h : Between f earlier (clickedRoom f.action) m w) :
    setting.Holds Finds Comes m.awaitCreate (Between f earlier (clickedRoom f.action)) w := by
  unfold ClientManager.awaitCreate
  split
  case isFalse => exact h
  case isTrue hcreate =>
    obtain ⟨hnone, taken, owed, log, htalk, hawaits, hbefore, hacc⟩ := h
    cases hawaits with
    | nothing k flags states => simp [flags.1] at hcreate
    | join k flags states => simp [flags.1] at hcreate
    | create k flags states =>
      rw [toAsk_busy (.inl flags.1)] at hacc
      rw [if_pos (by simp [hnone.1])]
      refine Setting.holds_bind.2 (callCreateRoom_awaits states.1 htalk ?_ ?_)
      · intro k' taken' type w hkept htalk
        refine ⟨⟨rfl, hnone.2⟩, taken', _, _, htalk, .create k' flags ⟨rfl, states.2⟩, hacc.append hbefore ?_ ?_⟩
        · rw [hkept]
          exact (List.append_nil _).symm
        · exact toAsk_busy (.inl flags.1)
      · intro taken' roomId w htaken htalk
        exact handleCreate_between rfl hnone.2 flags ⟨rfl, states.2⟩ htaken htalk hbefore hacc

theorem startJoin_between (h : Between f earlier (clickedRoom f.action) m w) :
    setting.Holds Finds Comes (m.startJoin f.action) (Between f earlier []) w := by
  unfold ClientManager.startJoin
  split
  case isFalse hskip =>
    refine h.skip ?_
    rw [toAsk_nil, toAsk]
    split
    · rfl
    · rename_i hfree
      rw [Bool.or_eq_true, not_or, Bool.not_eq_true, Bool.not_eq_true] at hfree
      exact if_neg fun hroom => hskip ⟨hroom, by rw [hfree.1]; rfl, by rw [hfree.2]; rfl⟩
  case isTrue haction =>
    obtain ⟨hnone, taken, owed, log, htalk, hawaits, hbefore, hacc⟩ := h
    cases hawaits with
    | nothing k flags states =>
      rw [toAsk_free flags, clickedRoom, if_pos haction.1] at hacc
      refine callJoinRoom_sends (m := { m with joinRoomInitiated := true, roomToJoin := f.action })
        states.2 htalk fun w htalk => ?_
      refine ⟨⟨hnone.1, rfl⟩, taken, _, _, htalk, ?_, hacc.append hbefore (List.append_nil _).symm ?_⟩
      · rw [listsThen, List.append_nil]
        exact .join k ⟨flags.1, rfl⟩ ⟨states.1, rfl⟩
      · exact congrArg (ClientFrame.joinRoom f.action :: ·) (toAsk_nil _)
    | create k flags states => simp [flags.1] at haction
    | join k flags states => simp [flags.2] at haction

theorem awaitJoin_between (h : Between f earlier [] m w) :
    setting.Holds Finds Comes m.awaitJoin (Between f earlier []) w := by
  unfold ClientManager.awaitJoin
  split
  case isFalse => exact h
  case isTrue hjoin =>
    obtain ⟨hnone, taken, owed, log, htalk, hawaits, hbefore, hacc⟩ := h
    cases hawaits with
    | nothing k flags states => simp [flags.2] at hjoin
    | create k flags states => simp [flags.2] at hjoin
    | join k flags states =>
      rw [toAsk_nil] at hacc
      rw [if_pos (by simp [hnone.2])]
      refine Setting.holds_bind.2 (callJoinRoom_awaits states.2 htalk ?_ ?_)
      · intro k' taken' type w hkept htalk
        refine ⟨⟨hnone.1, rfl⟩, taken', _, _, htalk, .join k' flags ⟨states.1, rfl⟩, hacc.append hbefore ?_ ?_⟩
        · rw [hkept]
          exact (List.append_nil _).symm
        · exact toAsk_nil _
      · intro taken' ok w htaken htalk
        exact ⟨⟨hnone.1, rfl⟩, taken', _, _, htalk, .nothing 0 ⟨flags.1, rfl⟩ ⟨states.1, rfl⟩,
          hacc.append hbefore htaken (toAsk_nil _)⟩

/-- **A frame** does what its action calls for. -/
theorem roomSelection_rest {frames : List Frame} {frame : Bool × Int32} (h : Rest frames m w) :
    setting.Holds Finds Comes (m.roomSelection frame.1 frame.2) (Rest (startFrame frames frame m w)) w := by
  unfold ClientManager.roomSelection startFrame
  refine Setting.holds_bind.2 ((updateRooms_between (h.start frame)).mono fun m w h => ?_)
  refine Setting.holds_bind.2 ((startCreate_between h).mono fun m w h => ?_)
  refine Setting.holds_bind.2 ((awaitCreate_between h).mono fun m w h => ?_)
  refine Setting.holds_bind.2 ((startJoin_between h).mono fun m w h => ?_)
  exact (awaitJoin_between h).mono fun m w h => h.rest

theorem rest_init : Rest [] .init .init :=
  ⟨⟨rfl, rfl⟩, [], [], [], ⟨rfl, rfl, [], rfl, rfl, rfl, by simp⟩, .nothing 0 ⟨rfl, rfl⟩ ⟨rfl, rfl⟩, rfl, rfl⟩

/-- Of a response that nothing is owed after, none is among the unread. -/
theorem not_mem_unread {unread : List ServerFrame} {requests : List ClientFrame} {f : ServerFrame}
    (type : TCPMessageType) {last : List TCPMessageType}
    (howed : unread.map answerType ++ requests.map responseType = listsThen k last) (htype : answerType f = type)
    (hlist : type ≠ .listRoomsResponse) (hlast : type ∉ last) : f ∉ unread := by
  subst htype
  intro hf
  have hmem : answerType f ∈ listsThen k last := by
    rw [← howed]
    exact List.mem_append_left _ (List.mem_map_of_mem hf)
  rcases List.mem_append.1 hmem with hmem | hmem
  · exact hlist (List.eq_of_mem_replicate hmem)
  · exact hlast hmem

/-- Between two frames the invariant says what is claimed of them. -/
theorem Rest.matched {frames : List Frame} (h : Rest frames m w) : Matched frames m w := by
  obtain ⟨-, taken, owed, log, htalk, hawaits, hacc⟩ := h
  obtain ⟨unread, hanswers, hbytes, howed, -⟩ := htalk.pending
  obtain rfl := htalk.log
  have hrequests := hacc.requests
  rw [List.append_nil] at hrequests
  cases hawaits with
  | nothing k flags states =>
    refine ⟨by simp [flags.1, states.1], by simp [flags.2, states.2], by simp [flags.1], hrequests,
      taken, unread, hanswers, hbytes, hacc.responses, fun _ roomId => ?_, fun _ status => ?_⟩
    · exact not_mem_unread .createRoomResponse howed rfl (by decide) (by decide)
    · exact not_mem_unread .joinRoomResponse howed rfl (by decide) (by decide)
  | create k flags states =>
    refine ⟨by simp [flags.1, states.1], by simp [flags.2, states.2], by simp [flags.2], hrequests,
      taken, unread, hanswers, hbytes, hacc.responses, fun hno => ?_, fun _ status => ?_⟩
    · rw [flags.1] at hno
      cases hno
    · exact not_mem_unread .joinRoomResponse howed rfl (by decide) (by decide)
  | join k flags states =>
    refine ⟨by simp [flags.1, states.1], by simp [flags.2, states.2], by simp [flags.1], hrequests,
      taken, unread, hanswers, hbytes, hacc.responses, fun _ roomId => ?_, fun hno => ?_⟩
    · exact not_mem_unread .createRoomResponse howed rfl (by decide) (by decide)
    · rw [flags.2] at hno
      cases hno

/-- **Requests and responses are matched** in every run in which a list has arrived when
`getRooms` reads it: at the end of each frame, and no read waits for bytes that the server
does not owe. -/
theorem requestsMatched (labels : List (Label (Bool × Int32) NetEvent))
    (s : State SocketOp SocketOp.Result ClientManager World)
    (hfinds : machine.Along (Setting.Meets Finds) ⟨.ret .init, .init⟩ labels)
    (hrun : machine.run ⟨.ret .init, .init⟩ labels = some s) :
    (∀ m, s.prog = .ret m → Matched (frames ⟨.ret .init, .init⟩ labels) m s.world) ∧
      ∀ n k, s.prog = .op (.read n) k → s.world.nonBlocking = false →
        n ≤ s.world.arrived.length + s.world.inFlight.length := by
  have hbody : ∀ frames (frame : Bool × Int32) m p w, Rest frames m w →
      (if m.currentState = .roomSelection then some (m.roomSelection frame.1 frame.2) else none) = some p →
      setting.Holds Finds Comes p (Rest (startFrame frames frame m w)) w := by
    intro frames frame m p w h hp
    rw [Option.ite_none_right_eq_some] at hp
    obtain rfl := Option.some.inj hp.2
    exact roomSelection_rest h
  obtain ⟨hrest, hcomes⟩ := Setting.inv_starts (s := ⟨.ret .init, .init⟩) (g := []) stable_rest hbody rest_init hfinds hrun
  exact ⟨fun m hm => (hrest m hm).matched, fun n k hk => hcomes (.read n) k hk⟩

/-- The player creates a room while a list is on its way. The first frame sends the creation, the
second takes the list, though a room is clicked, and the third takes the response and sends
the join. The join is refused, and in the last frame the player clicks on another room. -/
def createRun : List (Label (Bool × Int32) NetEvent) :=
  .start (true, -2) :: List.replicate 6 .act ++
    [.move (.answer (.listRoomsResponse [⟨1, 2⟩])), .move (.answer (.createRoomResponse 3)), .move (.deliver 22)] ++
    .start (true, 1) :: List.replicate 7 .act ++ .start (true, -1) :: List.replicate 10 .act ++
    [.move (.answer (.joinRoomResponse 0)), .move (.deliver 5)] ++
    .start (false, -1) :: List.replicate 6 .act ++ .start (false, 1) :: List.replicate 4 .act

theorem requestsMatched_createRun : ∃ s m, machine.run ⟨.ret .init, .init⟩ createRun = some s ∧
    s.prog = .ret m ∧ s.world.log.filterMap Event.asked = [.createRoom, .joinRoom 3, .joinRoom 1] ∧
    Matched (frames ⟨.ret .init, .init⟩ createRun) m s.world := by
  obtain ⟨s, m, hrun, hret, hsent⟩ : ∃ s m, machine.run ⟨.ret .init, .init⟩ createRun = some s ∧
      s.prog = .ret m ∧ s.world.log.filterMap Event.asked = [.createRoom, .joinRoom 3, .joinRoom 1] :=
    ⟨_, _, rfl, rfl, rfl⟩
  have hmatched := requestsMatched createRun s (by decide +kernel) hrun
  exact ⟨s, m, hrun, hret, hsent, hmatched.1 m hret⟩

end RoomSelection

end RType

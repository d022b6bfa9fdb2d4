import RType.Proof.Isolation
import RType.Proof.Lifetimes

/-!
# Room capacity

`LIST_ROOMS_RESPONSE` announces `maxPlayers` 4 for every room, but `onJoinRoom` only looks
at the status of the room and `addPlayer` at nothing.

* `Label.shrinks`: only an accepted join makes a player list longer.
* `respectsCapacity_iff`: **the rooms stay within the announced capacity if and only if no
  client ever joins a lobby that already has four players.**
* `not_respectsCapacity_five`: five clients join one room.
-/

namespace RType

open Lts

variable {F : Type*} [FloatOps F]

namespace ServerManager

variable {m m' : ServerManager F} {roomId : ℤ} {r : Room F} {labels : List Label}

/-- A room is announced by a `RoomInfo` of `LIST_ROOMS_RESPONSE`. -/
def Advertises (m : ServerManager F) (roomId playerCount maxPlayers : ℤ) : Prop :=
  Block.roomInfo roomId playerCount maxPlayers ∈ (ServerFrame.listRoomsResponse m.onGetRooms).blocks

/-- Every room holds at most the players announced as its maximum. -/
def WithinCapacity (m : ServerManager F) : Prop :=
  ∀ roomId r playerCount maxPlayers, m.room? roomId = some r → m.Advertises roomId playerCount maxPlayers →
    (r.game.players.length : ℤ) ≤ maxPlayers

/-- A room holds as many players as are announced as its maximum. -/
def IsFull (m : ServerManager F) (roomId : ℤ) : Prop :=
  ∃ r playerCount maxPlayers, m.room? roomId = some r ∧ m.Advertises roomId playerCount maxPlayers ∧
    maxPlayers ≤ (r.game.players.length : ℤ)

/-- A join of a full room is refused, and a refused join leaves every room as it is. -/
def RefusesWhenFull (m : ServerManager F) (l : Label) : Prop :=
  ∀ roomId playerId username fresh, l = .call (.onJoinRoom roomId playerId username) fresh →
    (m.IsFull roomId → (m.onJoinRoom roomId playerId username).1 = false) ∧
    ((m.onJoinRoom roomId playerId username).1 = false → ∀ roomId', (l.run m).room? roomId' = m.room? roomId')

/-- **Room capacity**, in the course of some labels from the start of the server on. -/
def RespectsCapacity (F : Type*) [FloatOps F] (labels : List Label) : Prop :=
  (∀ t : ServerManager F, machine.Visits init labels t → t.WithinCapacity) ∧
    machine.Along (RefusesWhenFull (F := F)) init labels

/-- Whoever joins a lobby finds at most three players there. -/
def JoinsWithRoom (m : ServerManager F) (l : Label) : Prop :=
  ∀ roomId playerId username fresh r, l = .call (.onJoinRoom roomId playerId username) fresh →
    m.room? roomId = some r → r.game.status = .lobby → r.game.players.length < 4

/-! ## What is announced -/

omit [FloatOps F] in
/-- Every room is announced with a maximum of four. -/
theorem advertises_iff {playerCount maxPlayers : ℤ} :
    m.Advertises roomId playerCount maxPlayers ↔
      ∃ r, m.room? roomId = some r ∧ playerCount = r.game.players.length ∧ maxPlayers = 4 := by
  unfold Advertises ServerFrame.blocks onGetRooms
  simp only [List.map_map, List.mem_cons, reduceCtorEq, false_or, List.mem_map, Function.comp_apply,
    Block.roomInfo.injEq, Game.getPlayerCount]
  constructor
  · rintro ⟨⟨roomId, e⟩, hmem, rfl, rfl, rfl⟩
    exact ⟨_, room?_of_entry (Std.TreeMap.mem_toList_iff_getElem?_eq_some.1 hmem), rfl, rfl⟩
  · rintro ⟨r, hr, rfl, rfl⟩
    obtain ⟨e, he, rfl⟩ := exists_room?_entry hr
    exact ⟨(roomId, e), Std.TreeMap.mem_toList_iff_getElem?_eq_some.2 he, rfl, rfl, rfl⟩

omit [FloatOps F] in
theorem withinCapacity_iff :
    m.WithinCapacity ↔ ∀ roomId r, m.room? roomId = some r → r.game.players.length ≤ 4 := by
  constructor
  · intro h roomId r hr
    have hmax := h roomId r _ 4 hr (advertises_iff.2 ⟨r, hr, rfl, rfl⟩)
    exact_mod_cast hmax
  · intro h roomId r playerCount maxPlayers hr hadv
    obtain ⟨-, -, -, rfl⟩ := advertises_iff.1 hadv
    exact_mod_cast h roomId r hr

omit [FloatOps F] in
theorem isFull_iff : m.IsFull roomId ↔ ∃ r, m.room? roomId = some r ∧ 4 ≤ r.game.players.length := by
  constructor
  · rintro ⟨r, playerCount, maxPlayers, hr, hadv, hfull⟩
    obtain ⟨-, -, -, rfl⟩ := advertises_iff.1 hadv
    exact ⟨r, hr, by exact_mod_cast hfull⟩
  · rintro ⟨r, hr, hfull⟩
    exact ⟨r, _, 4, hr, advertises_iff.2 ⟨r, hr, rfl, rfl⟩, by exact_mod_cast hfull⟩

omit [FloatOps F] in
theorem ids_of_room? (hr : m.room? roomId = some r) : m.ids roomId = r.ids := by
  obtain ⟨e, he, rfl⟩ := exists_room?_entry hr
  exact ids_of_some he

omit [FloatOps F] in
theorem length_players_of_room? (hr : m.room? roomId = some r) : r.game.players.length = (m.ids roomId).length := by
  rw [ids_of_room? hr, Room.ids, List.length_map]

omit [FloatOps F] in
/-- The capacity in terms of the ids. -/
theorem withinCapacity_iff_ids : m.WithinCapacity ↔ ∀ roomId, (m.ids roomId).length ≤ 4 := by
  rw [withinCapacity_iff]
  constructor
  · intro h roomId
    cases hr : m.room? roomId with
    | none =>
      have he : m.rooms[roomId]? = none := Option.map_eq_none_iff.1 hr
      rw [ids_of_none he]
      exact Nat.zero_le 4
    | some r =>
      rw [← length_players_of_room? hr]
      exact h roomId r hr
  · intro h roomId r hr
    rw [length_players_of_room? hr]
    exact h roomId

/-! ## Joins -/

/-- A join is accepted by a room in its lobby, whatever the number of its players. -/
theorem onJoinRoom_accepts_iff {playerId : UInt32} {username : List UInt8} :
    (m.onJoinRoom roomId playerId username).1 = true ↔ ∃ r, m.room? roomId = some r ∧ r.game.status = .lobby := by
  unfold onJoinRoom
  constructor
  · intro h
    split at h
    · rename_i e he
      split at h
      · rename_i hl
        exact ⟨_, room?_of_entry he, hl⟩
      · cases h
    · cases h
  · rintro ⟨r, hr, hl⟩
    obtain ⟨e, he, rfl⟩ := exists_room?_entry hr
    have hle : e.game.status = .lobby := hl
    rw [he]
    simp only [if_pos hle]

/-- A refused join changes nothing. -/
theorem onJoinRoom_refused {playerId : UInt32} {username : List UInt8}
    (h : (m.onJoinRoom roomId playerId username).1 = false) : (m.onJoinRoom roomId playerId username).2 = m := by
  rcases onJoinRoom_cases m roomId playerId username with hj | hj
  · rw [hj]
  · rw [hj] at h
    cases h

/-- **Only an accepted join makes a player list longer.** -/
theorem Label.shrinks (m : ServerManager F) (l : Label)
    (h : ∀ roomId playerId username fresh, l = .call (.onJoinRoom roomId playerId username) fresh →
      (m.onJoinRoom roomId playerId username).1 = false) : m.Shrinks (l.run m) := by
  cases l with
  | event ev => exact (keeps_react ev m).shrinks
  | call c fresh =>
    by_cases hc : ∃ roomId playerId username, c = .onJoinRoom roomId playerId username
    · obtain ⟨roomId, playerId, username, rfl⟩ := hc
      have hsame : (Label.call (.onJoinRoom roomId playerId username) fresh).run m = m :=
        onJoinRoom_refused (h _ _ _ _ rfl)
      rw [hsame]
      exact .refl m
    · exact (keeps_call c (fun roomId playerId username hj => hc ⟨roomId, playerId, username, hj⟩) m fresh).shrinks

/-- A step whose join, if it is one, finds a free place keeps the rooms within capacity. -/
theorem withinCapacity_step (m : ServerManager F) (l : Label) (m' : ServerManager F) (h : m.WithinCapacity)
    (hC : m.JoinsWithRoom l) (hs : machine.step m l = some m') : m'.WithinCapacity := by
  obtain ⟨rfl, -⟩ := step_eq_some hs
  rw [withinCapacity_iff_ids] at h ⊢
  by_cases hjoin : ∃ roomId playerId username fresh, l = .call (.onJoinRoom roomId playerId username) fresh ∧
      (m.onJoinRoom roomId playerId username).1 = true
  · obtain ⟨roomId, playerId, username, fresh, rfl, hacc⟩ := hjoin
    -- an accepted join makes the list of its room longer by one
    obtain ⟨r, hr, hl⟩ := onJoinRoom_accepts_iff.1 hacc
    have hfree : (m.ids roomId).length < 4 := by
      rw [← length_players_of_room? hr]
      exact hC roomId playerId username fresh r rfl hr hl
    intro roomId'
    rcases onJoinRoom_ids m roomId playerId username with hj | ⟨-, hids⟩
    · rw [hj] at hacc
      cases hacc
    · have hids' : ((Label.call (.onJoinRoom roomId playerId username) fresh).run m).ids roomId' =
          if roomId' = roomId then m.ids roomId' ++ [playerId] else m.ids roomId' := hids roomId'
      rw [hids']
      split
      · rename_i he
        subst he
        rw [List.length_append, List.length_singleton]
        omega
      · exact h roomId'
  · -- nothing else makes a list longer
    have hshrinks := l.shrinks m fun roomId playerId username fresh he => by
      by_contra hacc
      exact hjoin ⟨roomId, playerId, username, fresh, he, by simpa using hacc⟩
    exact fun roomId => (hshrinks roomId).length_le.trans (h roomId)

theorem withinCapacity_init : (init : ServerManager F).WithinCapacity := by
  rw [withinCapacity_iff_ids]
  intro roomId
  have hnone : (init : ServerManager F).rooms[roomId]? = none := Std.TreeMap.getElem?_emptyc
  rw [ids_of_none hnone]
  exact Nat.zero_le 4

/-- **The rooms stay within the announced capacity if and only if no client ever joins a
lobby that already has four players.** -/
theorem respectsCapacity_iff (labels : List Label) :
    RespectsCapacity F labels ↔ machine.Along (JoinsWithRoom (F := F)) init labels := by
  constructor
  · rintro ⟨-, hrefuses⟩
    refine hrefuses.imp fun m l hm roomId playerId username fresh r hl hr hlobby => ?_
    by_contra hfull
    have hrefused := (hm roomId playerId username fresh hl).1 (isFull_iff.2 ⟨r, hr, not_lt.1 hfull⟩)
    have hacc : (m.onJoinRoom roomId playerId username).1 = true := onJoinRoom_accepts_iff.2 ⟨r, hr, hlobby⟩
    rw [hrefused] at hacc
    cases hacc
  · intro hC
    refine ⟨fun t ht => Machine.inv_visits withinCapacity_step withinCapacity_init hC ht, ?_⟩
    refine hC.imp fun m l hm roomId playerId username fresh hl => ⟨fun hfull => ?_, fun hrefused roomId' => ?_⟩
    · by_contra hacc
      obtain ⟨r, hr, hlobby⟩ := onJoinRoom_accepts_iff.1 (by simpa using hacc)
      obtain ⟨r', hr', h4⟩ := isFull_iff.1 hfull
      obtain rfl := Option.some.inj (hr.symm.trans hr')
      exact absurd (hm roomId playerId username fresh r hl hr hlobby) (not_lt.2 h4)
    · have hsame : l.run m = m := by
        rw [hl]
        exact onJoinRoom_refused hrefused
      rw [hsame]

/-- The shell creates a room, and five clients join it. -/
def fiveJoins : List Label :=
  .event (.command (.create ⟨0, 0⟩)) ::
    [1, 2, 3, 4, 5].map fun playerId => .call (.onJoinRoom 0 playerId []) ⟨0, 0⟩

/-- **The fifth join of a room is accepted.** -/
theorem not_respectsCapacity_five : ¬ RespectsCapacity ℚ fiveJoins := by
  rintro ⟨hcap, -⟩
  obtain ⟨t, ht, hroom⟩ : ∃ t : ServerManager ℚ, machine.run init fiveJoins = some t ∧
      (t.room? 0).map (·.game.players.length) = some 5 := ⟨_, rfl, rfl⟩
  obtain ⟨r, hr, hlen⟩ := Option.map_eq_some_iff.1 hroom
  have h4 := withinCapacity_iff.1 (hcap t (Machine.visits_last ht)) 0 r hr
  omega

end ServerManager

end RType

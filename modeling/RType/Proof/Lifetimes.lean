import RType.Proof.BossEntries
import RType.Spec.Lifetimes

/-!
# The life of a room

* `Label.run_cases`: a label creates a room, deletes one, or acts on the live ones.
* `Tidy`: the invariant of the server; live rooms have addresses of their own, and an entry
  without level is empty.
* `history_eq`: what is done to a room is all that it depends on.
-/

namespace RType

open Lts

variable {F : Type*} [FloatOps F]

/-! ## One room -/

namespace Room

/-- A room after some acts. -/
def after (r : Room F) (as : List RoomAct) : Room F := as.foldl (fun r a => { a.run r with out := [] }) r

theorem length_evolve (r : Room F) (as : List RoomAct) : (r.evolve as).length = as.length := by
  induction as generalizing r with
  | nil => rfl
  | cons a as ih => rw [evolve, List.length_cons, ih, List.length_cons]

theorem evolve_append (r : Room F) (as bs : List RoomAct) :
    r.evolve (as ++ bs) = r.evolve as ++ (r.after as).evolve bs := by
  induction as generalizing r with
  | nil => rfl
  | cons a as ih => rw [List.cons_append, evolve, ih, evolve, List.cons_append, after, after, List.foldl_cons]

theorem after_append (r : Room F) (as bs : List RoomAct) : r.after (as ++ bs) = (r.after as).after bs :=
  List.foldl_append

end Room

namespace ServerManager

variable {m m' n : ServerManager F} {roomId : ℤ} {r : Room F}

/-! ## Addresses -/

/-- The address of a live room. -/
def addr? (m : ServerManager F) (roomId : ℤ) : Option ℕ := (m.rooms[roomId]?).map (·.addr)

omit [FloatOps F] in
/-- No act on a room moves one. -/
theorem addr?_onRoom (m : ServerManager F) (roomId : ℤ) (f : Room F → Room F) (roomId' : ℤ) :
    (m.onRoom roomId f).addr? roomId' = m.addr? roomId' := by
  unfold addr?
  cases he : m.rooms[roomId]? with
  | none => rw [onRoom_of_none he]
  | some e =>
    by_cases h : roomId' = roomId
    · subst h
      rw [onRoom_self he, he]
      rfl
    · rw [onRoom_of_ne h]

omit [FloatOps F] in
theorem exists_entry {a : ℕ} (h : m.addr? roomId = some a) : ∃ e, m.rooms[roomId]? = some e ∧ e.addr = a :=
  Option.map_eq_some_iff.1 h

omit [FloatOps F] in
theorem addr?_ne_of_free {a : ℕ} (h : m.holds a = false) (roomId : ℤ) : m.addr? roomId ≠ some a := by
  intro ha
  obtain ⟨e, he, rfl⟩ := exists_entry ha
  have hmem : (roomId, e) ∈ m.rooms.toList := Std.TreeMap.mem_toList_iff_getElem?_eq_some.2 he
  have hnot : (e.addr == e.addr) = false := by
    simpa using List.any_eq_false.1 h (roomId, e) hmem
  simp at hnot

omit [FloatOps F] in
/-- The boss entries of an address without room are left alone. -/
theorem boss_onRoom_of_ne {a : ℕ} (h : m.addr? roomId ≠ some a) (f : Room F → Room F) :
    (m.onRoom roomId f).boss a = m.boss a := by
  cases he : m.rooms[roomId]? with
  | none => rw [onRoom_of_none he]
  | some e =>
    have hne : a ≠ e.addr := by
      rintro rfl
      exact h (by rw [addr?, he]; rfl)
    rw [onRoom_of_some he]
    exact Function.update_of_ne hne _ _

/-! ## Rooms -/

omit [FloatOps F] in
theorem exists_room?_entry (h : m.room? roomId = some r) :
    ∃ e, m.rooms[roomId]? = some e ∧ r = ⟨e.game, m.boss e.addr, []⟩ := by
  obtain ⟨e, he, rfl⟩ := Option.map_eq_some_iff.1 h
  exact ⟨e, he, rfl⟩

omit [FloatOps F] in
theorem room?_of_entry {e : RoomEntry F} (he : m.rooms[roomId]? = some e) :
    m.room? roomId = some ⟨e.game, m.boss e.addr, []⟩ := by
  rw [room?, he]
  rfl

omit [FloatOps F] in
theorem room?_isSome : (m.room? roomId).isSome = (m.addr? roomId).isSome := by
  rw [room?, addr?, Option.isSome_map, Option.isSome_map]

omit [FloatOps F] in
theorem room?_onRoom_self (h : m.room? roomId = some r) (f : Room F → Room F) :
    (m.onRoom roomId f).room? roomId = some { f r with out := [] } := by
  obtain ⟨e, he, rfl⟩ := exists_room?_entry h
  rw [room?_of_entry (onRoom_self he f), onRoom_of_some he]
  simp only [Function.update_self]

/-- **The invariant of the server.** -/
structure Tidy (m : ServerManager F) : Prop where
  below : ∀ roomId a, m.addr? roomId = some a → roomId < m.nextRoomId
  apart : ∀ roomId roomId' a, m.addr? roomId = some a → m.addr? roomId' = some a → roomId = roomId'
  empty : ∀ a, (m.boss a).level = 0 → m.boss a = Boss.none
  calm : ∀ roomId r, m.room? roomId = some r → r.Calm

/-- Live rooms have boss entries of their own. -/
theorem Tidy.room?_onRoom_of_ne (h : m.Tidy) {roomId' : ℤ} (hne : roomId' ≠ roomId) (f : Room F → Room F) :
    (m.onRoom roomId f).room? roomId' = m.room? roomId' := by
  unfold room?
  rw [onRoom_of_ne hne]
  cases he : m.rooms[roomId']? with
  | none => rfl
  | some e =>
    have ha : m.addr? roomId' = some e.addr := by rw [addr?, he]; rfl
    have hboss : (m.onRoom roomId f).boss e.addr = m.boss e.addr :=
      boss_onRoom_of_ne (fun ha' => hne (h.apart _ _ _ ha ha')) f
    rw [Option.map_some, Option.map_some, hboss]

theorem Tidy.onRoom (h : m.Tidy) (roomId : ℤ) (a : RoomAct) : (m.onRoom roomId a.run).Tidy := by
  cases hr : m.room? roomId with
  | none =>
    have he : m.rooms[roomId]? = none := Option.map_eq_none_iff.1 hr
    rw [onRoom_of_none he]
    exact h
  | some r =>
    obtain ⟨e, he, rfl⟩ := exists_room?_entry hr
    have hact := a.orderly ⟨e.game, m.boss e.addr, []⟩
    have hcalm := hact.calm (h.calm roomId _ hr)
    have hnext : (m.onRoom roomId a.run).nextRoomId = m.nextRoomId := by rw [onRoom_of_some he]
    refine ⟨fun roomId' b hb => ?_, fun roomId₁ roomId₂ b h₁ h₂ => ?_, fun b hb => ?_, fun roomId' r' hr' => ?_⟩
    · rw [addr?_onRoom] at hb
      rw [hnext]
      exact h.below roomId' b hb
    · rw [addr?_onRoom] at h₁ h₂
      exact h.apart roomId₁ roomId₂ b h₁ h₂
    · -- the act changes the boss at the address of its own room only
      by_cases hba : b = e.addr
      · subst hba
        rw [onRoom_of_some he] at hb ⊢
        simp only [Function.update_self] at hb ⊢
        exact (hcalm hb).1
      · have hsame : (m.onRoom roomId a.run).boss b = m.boss b := by
          rw [onRoom_of_some he]
          exact Function.update_of_ne hba _ _
        rw [hsame] at hb ⊢
        exact h.empty b hb
    · by_cases hroom : roomId' = roomId
      · subst hroom
        rw [room?_onRoom_self hr] at hr'
        obtain rfl := Option.some.inj hr'
        exact hcalm
      · rw [h.room?_onRoom_of_ne hroom] at hr'
        exact h.calm roomId' r' hr'

/-! ## Labels -/

/-- Do several things to rooms, one after the other. -/
def doAll (m : ServerManager F) (acts : List (ℤ × RoomAct)) : ServerManager F :=
  acts.foldl (fun m a => m.onRoom a.1 a.2.run) m

/-- A join changes nothing, or is an act on the room. -/
theorem onJoinRoom_cases (m : ServerManager F) (roomId : ℤ) (playerId : UInt32) (username : List UInt8) :
    m.onJoinRoom roomId playerId username = (false, m) ∨
      m.onJoinRoom roomId playerId username = (true, m.onRoom roomId (RoomAct.join playerId username).run) := by
  unfold onJoinRoom
  split
  · split
    · exact .inr rfl
    · exact .inl rfl
  · exact .inl rfl

/-- **The three kinds of labels.** -/
theorem Label.run_cases (m : ServerManager F) (l : Label) :
    (∃ fresh, l.creates = some fresh ∧ l.acts m = [] ∧ l.run m = (m.onCreateRoom fresh).2) ∨
    (∃ roomId, l = .event (.command (.delete roomId)) ∧ l.acts m = [] ∧
      l.run m = { m with rooms := m.rooms.erase roomId }) ∨
    (∃ out, l.run m = { m.doAll (l.acts m) with out := out }) := by
  cases l with
  | call c fresh =>
    cases c with
    | onCreateRoom => exact .inl ⟨fresh, rfl, rfl, rfl⟩
    | onJoinRoom roomId playerId username =>
      refine .inr (.inr ?_)
      rcases onJoinRoom_cases m roomId playerId username with hj | hj
      · exact ⟨m.out, by simp only [acts, run, ITCPHandler.call, handler, hj]; rfl⟩
      · exact ⟨_, by simp only [acts, run, ITCPHandler.call, handler, hj]; rfl⟩
    | onStartGame roomId playerId => exact .inr (.inr ⟨_, rfl⟩)
    | onPlayerDisconnect playerId roomId => exact .inr (.inr ⟨_, rfl⟩)
    | onGetLobbyState _ | onGetRooms | isGameStarting _ => exact .inr (.inr ⟨_, rfl⟩)
  | event ev =>
    cases ev with
    | datagram data clientAddr =>
      refine .inr (.inr ?_)
      simp only [acts, run, react, onMessageReceived]
      rcases ClientMsg.parse data with _ | ⟨pkt | p | ts⟩
      · exact ⟨_, rfl⟩
      · dsimp only
        cases m.findRoom pkt.playerId <;> exact ⟨_, rfl⟩
      · dsimp only
        cases m.findRoom p <;> exact ⟨_, rfl⟩
      · exact ⟨_, rfl⟩
    | command c =>
      cases c with
      | create fresh => exact .inl ⟨fresh, rfl, rfl, rfl⟩
      | delete roomId => exact .inr (.inl ⟨roomId, rfl, rfl, rfl⟩)
      | kick p =>
        refine .inr (.inr ?_)
        simp only [acts, run, react, processCommand]
        cases m.findRoom p <;> exact ⟨_, rfl⟩
    | pass env =>
      -- a pass updates the rooms one after the other
      refine .inr (.inr ⟨(m.updateRooms env).out, ?_⟩)
      rw [acts, doAll, List.foldl_map]
      rfl

/-! ## Steps -/

theorem addr?_doAll (m : ServerManager F) (acts : List (ℤ × RoomAct)) (roomId : ℤ) :
    (m.doAll acts).addr? roomId = m.addr? roomId := by
  induction acts generalizing m with
  | nil => rfl
  | cons a acts ih =>
    have hstep : m.doAll (a :: acts) = (m.onRoom a.1 a.2.run).doAll acts := rfl
    rw [hstep, ih, addr?_onRoom]

theorem nextRoomId_doAll (m : ServerManager F) (acts : List (ℤ × RoomAct)) :
    (m.doAll acts).nextRoomId = m.nextRoomId := by
  refine foldl_rel (R := fun m m' : ServerManager F => m'.nextRoomId = m.nextRoomId) (fun _ => rfl)
    (fun _ _ _ h h' => h'.trans h) (fun m a => ?_) acts m
  unfold onRoom
  split <;> rfl

/-- The entries of an address without room are left alone. -/
theorem boss_doAll {b : ℕ} (hb : ∀ roomId, m.addr? roomId ≠ some b) (acts : List (ℤ × RoomAct)) :
    (m.doAll acts).boss b = m.boss b := by
  induction acts generalizing m with
  | nil => rfl
  | cons a acts ih =>
    have hstep : m.doAll (a :: acts) = (m.onRoom a.1 a.2.run).doAll acts := rfl
    have hb' : ∀ roomId, (m.onRoom a.1 a.2.run).addr? roomId ≠ some b := fun roomId => by
      rw [addr?_onRoom]
      exact hb roomId
    rw [hstep, ih hb', boss_onRoom_of_ne (hb a.1)]

/-- A boss that has come is not forgotten. -/
theorem level_doAll {b : ℕ} (h : (m.boss b).level ≠ 0) (acts : List (ℤ × RoomAct)) :
    ((m.doAll acts).boss b).level ≠ 0 := by
  refine foldl_rel (R := fun m m' : ServerManager F => (m.boss b).level ≠ 0 → (m'.boss b).level ≠ 0)
    (fun _ => id) (fun _ _ _ h h' => h' ∘ h) (fun m a hm => ?_) acts m h
  cases he : m.rooms[a.1]? with
  | none => rw [onRoom_of_none he]; exact hm
  | some e =>
    rw [onRoom_of_some he]
    by_cases hb : b = e.addr
    · subst hb
      simp only [Function.update_self]
      exact (a.2.orderly _).level hm
    · simp only [Function.update_of_ne hb]
      exact hm

theorem Tidy.doAll (h : m.Tidy) (acts : List (ℤ × RoomAct)) : (m.doAll acts).Tidy := by
  induction acts generalizing m with
  | nil => exact h
  | cons a acts ih => exact ih (h.onRoom a.1 a.2)

/-- What several acts do to one room. -/
theorem Tidy.room?_doAll (h : m.Tidy) (hr : m.room? roomId = some r) (acts : List (ℤ × RoomAct)) :
    (m.doAll acts).room? roomId = some (r.after ((acts.filter (·.1 == roomId)).map (·.2))) := by
  induction acts generalizing m r with
  | nil => exact hr
  | cons a acts ih =>
    have hstep : m.doAll (a :: acts) = (m.onRoom a.1 a.2.run).doAll acts := rfl
    rw [hstep]
    by_cases ha : a.1 = roomId
    · subst ha
      have hself : (a.1 == a.1) = true := beq_self_eq_true _
      rw [ih (h.onRoom _ _) (room?_onRoom_self hr _), List.filter_cons, if_pos hself]
      rfl
    · have hne : ¬ (a.1 == roomId) = true := by simpa using ha
      rw [List.filter_cons, if_neg hne]
      exact ih (h.onRoom _ _) ((h.room?_onRoom_of_ne (Ne.symm ha) _).trans hr)

section Create

variable {fresh : Fresh}

theorem addr?_create (m : ServerManager F) (fresh : Fresh) (roomId : ℤ) :
    (m.onCreateRoom fresh).2.addr? roomId = if roomId = m.nextRoomId then some fresh.addr else m.addr? roomId := by
  simp only [addr?, onCreateRoom, Maps.getElem?_insert]
  split <;> rfl

theorem room?_create (m : ServerManager F) (fresh : Fresh) (roomId : ℤ) :
    (m.onCreateRoom fresh).2.room? roomId =
      if roomId = m.nextRoomId then some ⟨Game.new fresh.now, m.boss fresh.addr, []⟩ else m.room? roomId := by
  simp only [room?, onCreateRoom, Maps.getElem?_insert]
  split <;> rfl

theorem Tidy.create (h : m.Tidy) (hfree : m.holds fresh.addr = false) : (m.onCreateRoom fresh).2.Tidy := by
  have hne := addr?_ne_of_free hfree
  refine ⟨fun roomId a ha => ?_, fun roomId roomId' a ha ha' => ?_, h.empty, fun roomId r hr => ?_⟩
  · change roomId < m.nextRoomId + 1
    rw [addr?_create] at ha
    split at ha
    · omega
    · have := h.below roomId a ha
      omega
  · rw [addr?_create] at ha ha'
    split at ha <;> split at ha'
    · rename_i h₁ h₂
      rw [h₁, h₂]
    · exact absurd (ha'.trans ha.symm) (hne roomId')
    · exact absurd (ha.trans ha'.symm) (hne roomId)
    · exact h.apart roomId roomId' a ha ha'
  · rw [room?_create] at hr
    split at hr
    · obtain rfl := Option.some.inj hr
      exact fun h0 => ⟨h.empty _ h0, by simp [Game.new]⟩
    · exact h.calm roomId r hr

end Create

section Delete

omit [FloatOps F] in
theorem addr?_delete (m : ServerManager F) (roomId roomId' : ℤ) :
    addr? { m with rooms := m.rooms.erase roomId } roomId' = if roomId' = roomId then none else m.addr? roomId' := by
  simp only [addr?, Maps.getElem?_erase]
  split <;> rfl

omit [FloatOps F] in
theorem room?_delete (m : ServerManager F) (roomId roomId' : ℤ) :
    room? { m with rooms := m.rooms.erase roomId } roomId' = if roomId' = roomId then none else m.room? roomId' := by
  simp only [room?, Maps.getElem?_erase]
  split <;> rfl

theorem Tidy.delete (h : m.Tidy) (roomId : ℤ) : Tidy { m with rooms := m.rooms.erase roomId } := by
  refine ⟨fun roomId' a ha => ?_, fun roomId₁ roomId₂ a h₁ h₂ => ?_, h.empty, fun roomId' r hr => ?_⟩
  · rw [addr?_delete] at ha
    split at ha
    · cases ha
    · exact h.below roomId' a ha
  · rw [addr?_delete] at h₁ h₂
    split at h₁ <;> split at h₂
    · cases h₁
    · cases h₁
    · cases h₂
    · exact h.apart roomId₁ roomId₂ a h₁ h₂
  · rw [room?_delete] at hr
    split at hr
    · cases hr
    · exact h.calm roomId' r hr

end Delete

theorem tidy_init : (init : ServerManager F).Tidy := by
  have hnone : ∀ roomId, (init : ServerManager F).rooms[roomId]? = none := fun _ => Std.TreeMap.getElem?_emptyc
  have haddr : ∀ roomId, (init : ServerManager F).addr? roomId = none := fun roomId => by rw [addr?, hnone]; rfl
  refine ⟨fun roomId a ha => ?_, fun roomId roomId' a ha _ => ?_, fun a _ => rfl, fun roomId r hr => ?_⟩
  · rw [haddr] at ha
    cases ha
  · rw [haddr] at ha
    cases ha
  · rw [room?, hnone] at hr
    cases hr

omit [FloatOps F] in
theorem Tidy.of_out [FloatOps F] (h : m.Tidy) (out : List (Sent F)) : Tidy { m with out := out } :=
  ⟨h.below, h.apart, h.empty, h.calm⟩

/-- A label that happens. -/
theorem step_eq_some {l : Label} (h : machine.step m l = some m') :
    m' = l.run m ∧ ∀ fresh, l.creates = some fresh → m.holds fresh.addr = false := by
  simp only [machine] at h
  split at h
  · cases h
  · rename_i hfree
    refine ⟨(Option.some.inj h).symm, fun fresh hf => ?_⟩
    rw [hf] at hfree
    simpa using hfree

/-- **Every step keeps the server tidy.** -/
theorem tidy_step (m : ServerManager F) (l : Label) (m' : ServerManager F) (h : m.Tidy)
    (hs : machine.step m l = some m') : m'.Tidy := by
  obtain ⟨rfl, hfree⟩ := step_eq_some hs
  rcases l.run_cases m with ⟨fresh, hc, -, hrun⟩ | ⟨roomId, -, -, hrun⟩ | ⟨out, hrun⟩
  · rw [hrun]
    exact h.create (hfree fresh hc)
  · rw [hrun]
    exact h.delete roomId
  · rw [hrun]
    exact (h.doAll _).of_out out

/-- No step forgets a boss. -/
theorem level_step {b : ℕ} (m : ServerManager F) (l : Label) (m' : ServerManager F) (h : (m.boss b).level ≠ 0)
    (hs : machine.step m l = some m') : (m'.boss b).level ≠ 0 := by
  obtain ⟨rfl, -⟩ := step_eq_some hs
  rcases l.run_cases m with ⟨fresh, -, -, hrun⟩ | ⟨roomId, -, -, hrun⟩ | ⟨out, hrun⟩
  · rw [hrun]
    exact h
  · rw [hrun]
    exact h
  · rw [hrun]
    exact level_doAll h _

/-- Where a boss comes in a step, a live room has the address afterwards. -/
theorem exists_addr?_of_level {b : ℕ} {l : Label} (hs : machine.step m l = some m') (h : (m.boss b).level = 0)
    (h' : (m'.boss b).level ≠ 0) : ∃ roomId, m'.addr? roomId = some b := by
  obtain ⟨rfl, -⟩ := step_eq_some hs
  rcases l.run_cases m with ⟨fresh, -, -, hrun⟩ | ⟨roomId, -, -, hrun⟩ | ⟨out, hrun⟩
  · rw [hrun] at h'
    exact absurd h h'
  · rw [hrun] at h'
    exact absurd h h'
  · rw [hrun] at h' ⊢
    by_contra hnot
    have hb : ∀ roomId, m.addr? roomId ≠ some b := fun roomId hr =>
      hnot ⟨roomId, (addr?_doAll m _ roomId).trans hr⟩
    exact h' ((congrArg Boss.level (boss_doAll hb _)).trans h)

/-! ## One label, for one room -/

variable {l : Label}

/-- The id of a live room has been handed out. -/
theorem Tidy.lt_nextRoomId (h : m.Tidy) (hr : m.room? roomId = some r) : roomId < m.nextRoomId := by
  obtain ⟨a, ha⟩ := Option.isSome_iff_exists.1 (room?_isSome.symm.trans (Option.isSome_iff_exists.2 ⟨r, hr⟩))
  exact h.below roomId a ha

/-- **One label, for one room**: a room that is there afterwards was there before, and the
label acted on it; or it is a new one. -/
theorem room?_run (h : m.Tidy) (hr : (l.run m).room? roomId = some r) :
    (∃ r₀, m.room? roomId = some r₀ ∧ r = r₀.after (l.actsOn m roomId)) ∨
      (roomId = m.nextRoomId ∧ ∃ fresh : Fresh, r = ⟨Game.new fresh.now, m.boss fresh.addr, []⟩) := by
  have hnil : l.acts m = [] → l.actsOn m roomId = [] := fun hacts => by rw [Label.actsOn, hacts]; rfl
  rcases l.run_cases m with ⟨fresh, -, hacts, hrun⟩ | ⟨roomId', -, hacts, hrun⟩ | ⟨out, hrun⟩
  · rw [hrun, room?_create] at hr
    split at hr
    · rename_i he
      exact .inr ⟨he, fresh, (Option.some.inj hr).symm⟩
    · exact .inl ⟨r, hr, by rw [hnil hacts]; rfl⟩
  · rw [hrun, room?_delete] at hr
    split at hr
    · cases hr
    · exact .inl ⟨r, hr, by rw [hnil hacts]; rfl⟩
  · rw [hrun] at hr
    cases hr₀ : m.room? roomId with
    | none =>
      -- acts create no room
      have haddr : (m.doAll (l.acts m)).addr? roomId = none := by
        rw [addr?_doAll, ← Option.not_isSome_iff_eq_none, ← room?_isSome, hr₀]
        simp
      have hsome : ((m.doAll (l.acts m)).addr? roomId).isSome = true :=
        room?_isSome.symm.trans (Option.isSome_iff_exists.2 ⟨r, hr⟩)
      rw [haddr] at hsome
      cases hsome
    | some r₀ =>
      have hafter := h.room?_doAll hr₀ (l.acts m)
      exact .inl ⟨r₀, rfl, Option.some.inj (hr.symm.trans hafter)⟩

theorem nextRoomId_le_step (hs : machine.step m l = some m') : m.nextRoomId ≤ m'.nextRoomId := by
  obtain ⟨rfl, -⟩ := step_eq_some hs
  rcases l.run_cases m with ⟨fresh, -, -, hrun⟩ | ⟨roomId', -, -, hrun⟩ | ⟨out, hrun⟩
  · rw [hrun]
    exact (lt_add_one m.nextRoomId).le
  · rw [hrun]
  · rw [hrun]
    exact (nextRoomId_doAll m _).ge

/-- A live room is not a new one. -/
theorem room?_run_of_some (h : m.Tidy) {r' : Room F} (hr : m.room? roomId = some r)
    (hr' : (l.run m).room? roomId = some r') : r' = r.after (l.actsOn m roomId) := by
  rcases room?_run h hr' with ⟨r₀, hr₀, hafter⟩ | ⟨he, -⟩
  · obtain rfl := Option.some.inj (hr.symm.trans hr₀)
    exact hafter
  · have hlt := h.lt_nextRoomId hr
    omega

/-! ## The history of a room -/

/-- A deleted room does not come back. -/
theorem history_of_none (h : m.Tidy) (hb : roomId < m.nextRoomId) (hr : m.room? roomId = none)
    {labels : List Label} (hn : machine.run m labels = some n) :
    history roomId m labels = [] ∧ n.room? roomId = none := by
  induction labels generalizing m with
  | nil =>
    obtain rfl := Option.some.inj hn
    exact ⟨rfl, hr⟩
  | cons l labels ih =>
    obtain ⟨m₁, hs, hn'⟩ := machine.run_cons_iff.1 hn
    have h₁ := tidy_step m l m₁ h hs
    have hb₁ : roomId < m₁.nextRoomId := hb.trans_le (nextRoomId_le_step hs)
    obtain ⟨rfl, hfree⟩ := step_eq_some hs
    have hnone : (l.run m).room? roomId = none := by
      rcases hr' : (l.run m).room? roomId with _ | r'
      · rfl
      · rcases room?_run h hr' with ⟨r₀, hr₀, -⟩ | ⟨he, -⟩
        · rw [hr] at hr₀
          cases hr₀
        · omega
    obtain ⟨hhist, hgone⟩ := ih h₁ hb₁ hnone hn'
    refine ⟨?_, hgone⟩
    rw [history, hr, hhist]
    rfl

/-- **The acts on a room are all that it depends on.** -/
theorem history_eq (h : m.Tidy) (hr : m.room? roomId = some r) {labels : List Label}
    (hn : machine.run m labels = some n) :
    ∃ as, history roomId m labels = as.zip (r.evolve as) ∧ ∀ r', n.room? roomId = some r' → r' = r.after as := by
  induction labels generalizing m r with
  | nil =>
    obtain rfl := Option.some.inj hn
    refine ⟨[], rfl, fun r' hr' => ?_⟩
    exact (Option.some.inj (hr.symm.trans hr')).symm
  | cons l labels ih =>
    obtain ⟨m₁, hs, hn'⟩ := machine.run_cons_iff.1 hn
    have h₁ := tidy_step m l m₁ h hs
    have hb₁ : roomId < m₁.nextRoomId := (h.lt_nextRoomId hr).trans_le (nextRoomId_le_step hs)
    obtain ⟨rfl, hfree⟩ := step_eq_some hs
    have hhist : history roomId m (l :: labels) =
        (l.actsOn m roomId).zip (r.evolve (l.actsOn m roomId)) ++ history roomId (l.run m) labels := by
      rw [history, hr]
    rcases hr₁ : (l.run m).room? roomId with _ | r₁
    · -- the room is deleted
      obtain ⟨hempty, hgone⟩ := history_of_none h₁ hb₁ hr₁ hn'
      refine ⟨l.actsOn m roomId, by rw [hhist, hempty, List.append_nil], fun r' hr' => ?_⟩
      rw [hgone] at hr'
      cases hr'
    · obtain rfl := room?_run_of_some h hr hr₁
      obtain ⟨as, has, hlast⟩ := ih h₁ hr₁ hn'
      refine ⟨l.actsOn m roomId ++ as, ?_, fun r' hr' => ?_⟩
      · rw [hhist, has, Room.evolve_append, List.zip_append (Room.length_evolve r _).symm]
      · rw [Room.after_append]
        exact hlast r' hr'

end ServerManager

end RType

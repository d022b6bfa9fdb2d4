import RType.Proof.Capacity
import RType.Proof.NewRooms

/-!
# The lobby of a room

The host of a room is not stored: it is the player at the head of the list. So the order of
the list is what matters, through joins, three kinds of removals, and the start.

* `RoomAct.ids_run`, `RoomAct.status_run`: what an act does to the list and to the status.
* `remaining`: the joins that no later act undoes, in their order.
* `lobbyLife`: **the list is in the order of the joins, only the host starts the room, and
  after that the list only gets shorter.**
-/

namespace RType

open Lts

variable {F : Type*} [FloatOps F]

/-! ## Acts on a room -/

/-- The player an act takes out of the room. -/
def RoomAct.takesOut : RoomAct → Option UInt32
  | leave playerId | disconnect playerId | kick playerId => some playerId
  | _ => none

/-- The joins that no later act undoes, in their order. -/
def remaining : List RoomAct → List UInt32
  | [] => []
  | .join playerId _ :: as =>
    if as.any fun a => a.takesOut == some playerId then remaining as else playerId :: remaining as
  | _ :: as => remaining as

example : remaining [.join 1 [], .join 2 [], .leave 1, .join 3 [], .join 1 []] = [2, 3, 1] := rfl

/-- What an act does to the list of ids. -/
def RoomAct.onIds : RoomAct → List UInt32 → List UInt32
  | join playerId _, ids => ids ++ [playerId]
  | leave playerId, ids | disconnect playerId, ids | kick playerId, ids => ids.filter (· != playerId)
  | _, ids => ids

/-- The act joins a player. -/
def RoomAct.IsJoin (a : RoomAct) : Prop := ∃ playerId username, a = .join playerId username

theorem remaining_of_not_join {a : RoomAct} (h : ¬ a.IsJoin) (as : List RoomAct) :
    remaining (a :: as) = remaining as := by
  cases a with
  | join playerId username => exact absurd ⟨playerId, username, rfl⟩ h
  | leave _ | start _ | input _ _ | disconnect _ | kick _ | update _ => rfl

theorem RoomAct.onIds_of_takesOut {a : RoomAct} {playerId : UInt32} (h : a.takesOut = some playerId)
    (ids : List UInt32) : a.onIds ids = ids.filter (· != playerId) := by
  cases a <;> cases h <;> rfl

theorem RoomAct.onIds_cons {a : RoomAct} {playerId : UInt32} (h : a.takesOut ≠ some playerId) (ids : List UInt32) :
    a.onIds (playerId :: ids) = playerId :: a.onIds ids := by
  cases ht : a.takesOut with
  | none => cases a <;> first | rfl | cases ht
  | some q =>
    have hne : (playerId != q) = true := by
      rw [bne_iff_ne]
      rintro rfl
      exact h ht
    rw [onIds_of_takesOut ht, onIds_of_takesOut ht, List.filter_cons, if_pos hne]

/-- One act more. -/
theorem remaining_snoc (as : List RoomAct) (a : RoomAct) : remaining (as ++ [a]) = a.onIds (remaining as) := by
  induction as with
  | nil => cases a <;> rfl
  | cons b as ih =>
    by_cases hb : b.IsJoin
    · obtain ⟨playerId, username, rfl⟩ := hb
      by_cases hlast : a.takesOut = some playerId
      · -- the new act undoes the join
        have hany : ((as ++ [a]).any fun a => a.takesOut == some playerId) = true := by
          rw [List.any_append, List.any_cons, hlast]
          simp
        have hout : remaining (.join playerId username :: (as ++ [a])) = remaining (as ++ [a]) := if_pos hany
        rw [List.cons_append, hout, ih, RoomAct.onIds_of_takesOut hlast, RoomAct.onIds_of_takesOut hlast, remaining]
        split
        · rfl
        · have hself : ¬ (playerId != playerId) = true := by simp
          rw [List.filter_cons, if_neg hself]
      · -- the player of the join stays if it stayed before
        have hany : ((as ++ [a]).any fun a => a.takesOut == some playerId) =
            as.any fun a => a.takesOut == some playerId := by
          have hfalse : (a.takesOut == some playerId) = false := by simpa using hlast
          rw [List.any_append, List.any_cons, hfalse, List.any_nil, Bool.or_false, Bool.or_false]
        rw [List.cons_append, remaining, remaining, hany, ih]
        split
        · rfl
        · rw [RoomAct.onIds_cons hlast]
    · rw [List.cons_append, remaining_of_not_join hb, remaining_of_not_join hb, ih]

/-- **What an act does to the list of players.** -/
theorem RoomAct.ids_run {a : RoomAct} {r : Room F} (h : a.IsJoin → r.game.status = .lobby) :
    (a.run r).ids = a.onIds r.ids := by
  cases a with
  | join playerId username =>
    have hl := h ⟨playerId, username, rfl⟩
    simp only [run, Room.join, if_pos hl, Game.addPlayer, Room.ids, onIds, List.map_append, List.map_cons,
      List.map_nil, Player.new]
  | leave playerId => exact r.filter_ids playerId
  | disconnect playerId => exact r.filter_ids playerId
  | kick playerId => exact r.filter_ids playerId
  | start playerId =>
    simp only [run, Room.start]
    split <;> rfl
  | input pkt addr => exact Room.ids_of_names (GameThreads.input_names r pkt addr)
  | update env => exact Room.ids_of_names (GameThreads.update_names r env)

/-- **Only a start changes the status**, and only the host's. -/
theorem RoomAct.status_run (a : RoomAct) (r : Room F) :
    (a.run r).game.status = r.game.status ∨
      (a.run r).game.status = .playing ∧ a = .start r.game.getHostId := by
  cases a with
  | join playerId username =>
    refine .inl ?_
    simp only [run, Room.join]
    split <;> rfl
  | leave playerId | disconnect playerId | kick playerId => exact .inl rfl
  | start playerId =>
    simp only [run, Room.start]
    split
    · rename_i hhost
      exact .inr ⟨rfl, by rw [hhost]⟩
    · exact .inl rfl
  | input pkt addr =>
    have haddr : (r.game.updatePlayerUdpAddr pkt.playerId addr).status = r.game.status := by
      unfold Game.updatePlayerUdpAddr
      split <;> rfl
    exact .inl (GameThreads.handlePlayerInput_rule (I := fun r' => r'.game.status = r.game.status)
      (fun memory op r' h => (GameThreads.udp_status _ memory r' op).trans h) haddr)
  | update env =>
    exact .inl (GameThreads.update_rule (I := fun r' => r'.game.status = r.game.status)
      (fun env pc r' h => (GameThreads.loop_status env r' pc).trans h) env rfl)

/-- A started room stays so, and gets no player. -/
theorem RoomAct.playing_run (a : RoomAct) {r : Room F} (h : r.game.status = .playing) :
    (a.run r).game.status = .playing ∧ (a.run r).ids.Sublist r.ids := by
  refine ⟨?_, ?_⟩
  · rcases a.status_run r with hs | ⟨hs, -⟩
    · exact hs.trans h
    · exact hs
  · by_cases hj : a.IsJoin
    · obtain ⟨playerId, username, rfl⟩ := hj
      have hne : ¬ r.game.status = .lobby := by
        rw [h]
        decide
      have hsame : (RoomAct.join playerId username).run r = r := if_neg hne
      rw [hsame]
    · rw [Room.ids_eq, Room.ids_eq]
      exact (a.names_sublist (fun playerId username he => hj ⟨playerId, username, he⟩) r).map _

/-! ## Acts of the server -/

namespace Room

/-- The joins among the acts find the room in its lobby. -/
def JoinsOpen (r : Room F) : List RoomAct → Prop
  | [] => True
  | a :: as => (a.IsJoin → r.game.status = .lobby) ∧ JoinsOpen { a.run r with out := [] } as

theorem joinsOpen_of_not_join {as : List RoomAct} (h : ∀ a ∈ as, ¬ a.IsJoin) (r : Room F) : r.JoinsOpen as := by
  induction as generalizing r with
  | nil => trivial
  | cons a as ih =>
    exact ⟨fun hj => absurd hj (h a List.mem_cons_self), ih (fun b hb => h b (List.mem_cons_of_mem a hb)) _⟩

theorem ids_after {r : Room F} {as hist : List RoomAct} (hr : r.ids = remaining hist) (h : r.JoinsOpen as) :
    (r.after as).ids = remaining (hist ++ as) := by
  induction as generalizing r hist with
  | nil => rw [List.append_nil]; exact hr
  | cons a as ih =>
    have hids : ({ a.run r with out := [] } : Room F).ids = remaining (hist ++ [a]) := by
      rw [remaining_snoc, ← hr]
      exact RoomAct.ids_run h.1
    have hafter : r.after (a :: as) = Room.after { a.run r with out := [] } as := rfl
    rw [hafter, ih hids h.2, List.append_assoc]
    rfl

theorem playing_after {r : Room F} (h : r.game.status = .playing) (as : List RoomAct) :
    (r.after as).game.status = .playing ∧ (r.after as).ids.Sublist r.ids := by
  induction as generalizing r with
  | nil => exact ⟨h, .refl _⟩
  | cons a as ih =>
    have hone := a.playing_run h
    obtain ⟨hstatus, hids⟩ := ih (r := { a.run r with out := [] }) hone.1
    exact ⟨hstatus, hids.trans hone.2⟩

end Room

namespace ServerManager

variable {m m' n : ServerManager F} {roomId : ℤ} {r : Room F} {l : Label} {labels : List Label}

theorem mem_actsOn {a : RoomAct} : a ∈ l.actsOn m roomId ↔ (roomId, a) ∈ l.acts m := by
  simp only [Label.actsOn, List.mem_map, List.mem_filter, beq_iff_eq]
  constructor
  · rintro ⟨⟨roomId', a⟩, ⟨hmem, rfl⟩, rfl⟩
    exact hmem
  · exact fun h => ⟨_, ⟨h, rfl⟩, rfl⟩

/-- **Where an act comes from**: joins and starts are callbacks, a join an accepted one. -/
theorem Label.acts_cases {a : RoomAct} (h : (roomId, a) ∈ l.acts m) :
    (∃ playerId username fresh, l = .call (.onJoinRoom roomId playerId username) fresh ∧
      a = .join playerId username ∧ (m.onJoinRoom roomId playerId username).1 = true ∧ l.acts m = [(roomId, a)]) ∨
    (∃ playerId fresh, l = .call (.onStartGame roomId playerId) fresh ∧ a = .start playerId) ∨
    (¬ a.IsJoin ∧ ∀ playerId, a ≠ .start playerId) := by
  have hone : ∀ {roomId' : ℤ} {b : RoomAct}, (roomId, a) ∈ [(roomId', b)] → roomId = roomId' ∧ a = b :=
    fun hmem => Prod.mk.inj (List.mem_singleton.1 hmem)
  have hfound : ∀ {o : Option ℤ} {b : RoomAct},
      (roomId, a) ∈ o.toList.map (fun id => (id, b)) → a = b := fun hmem => by
    obtain ⟨_, -, he⟩ := List.mem_map.1 hmem
    exact (Prod.mk.inj he).2.symm
  cases l with
  | call c fresh =>
    cases c with
    | onJoinRoom roomId' playerId username =>
      simp only [acts] at h
      split at h
      · rename_i hacc
        obtain ⟨rfl, rfl⟩ := hone h
        exact .inl ⟨playerId, username, fresh, rfl, rfl, hacc, if_pos hacc⟩
      · cases h
    | onStartGame roomId' playerId =>
      obtain ⟨rfl, rfl⟩ := hone h
      exact .inr (.inl ⟨playerId, fresh, rfl, rfl⟩)
    | onPlayerDisconnect playerId roomId' =>
      obtain ⟨rfl, rfl⟩ := hone h
      exact .inr (.inr ⟨by simp [RoomAct.IsJoin], by simp⟩)
    | onCreateRoom | onGetLobbyState _ | onGetRooms | isGameStarting _ => cases h
  | event ev =>
    cases ev with
    | datagram data clientAddr =>
      simp only [acts] at h
      -- an input or a disconnection acts on the room of its player
      rcases hparse : ClientMsg.parse data with _ | ⟨pkt | p | ts⟩
      all_goals rw [hparse] at h
      · cases h
      · obtain rfl := hfound h
        exact .inr (.inr ⟨by simp [RoomAct.IsJoin], by simp⟩)
      · obtain rfl := hfound h
        exact .inr (.inr ⟨by simp [RoomAct.IsJoin], by simp⟩)
      · cases h
    | command c =>
      cases c with
      | create _ | delete _ => cases h
      | kick p =>
        obtain rfl := hfound h
        exact .inr (.inr ⟨by simp [RoomAct.IsJoin], by simp⟩)
    | pass env =>
      obtain ⟨roomId', -, he⟩ := List.mem_map.1 h
      obtain ⟨rfl, rfl⟩ := Prod.mk.inj he
      exact .inr (.inr ⟨by simp [RoomAct.IsJoin], by simp⟩)

/-- Whoever a label lets in finds the lobby open. -/
theorem joinsOpen_actsOn (hr : m.room? roomId = some r) (l : Label) : r.JoinsOpen (l.actsOn m roomId) := by
  by_cases hj : ∃ a ∈ l.actsOn m roomId, a.IsJoin
  · obtain ⟨a, ha, playerId, username, rfl⟩ := hj
    rcases Label.acts_cases (mem_actsOn.1 ha) with
      ⟨p, name, fresh, -, he, hacc, hacts⟩ | ⟨p, fresh, -, he⟩ | ⟨hnot, -⟩
    · cases he
      obtain ⟨r', hr', hl⟩ := onJoinRoom_accepts_iff.1 hacc
      obtain rfl := Option.some.inj (hr.symm.trans hr')
      have hself : (roomId == roomId) = true := beq_self_eq_true _
      rw [Label.actsOn, hacts, List.filter_cons, if_pos hself]
      exact ⟨fun _ => hl, trivial⟩
    · cases he
    · exact absurd ⟨playerId, username, rfl⟩ hnot
  · exact Room.joinsOpen_of_not_join (fun a ha hjoin => hj ⟨a, ha, hjoin⟩) r

/-! ## The acts on a room so far -/

/-- What has been done to a room since the start of the server. -/
def actsSoFar (F : Type*) [FloatOps F] (roomId : ℤ) (labels : List Label) : List RoomAct :=
  (history roomId (init : ServerManager F) labels).map (·.1)

theorem history_snoc (hm : machine.run n labels = some m) (l : Label) :
    (history roomId n (labels ++ [l])).map (·.1) = (history roomId n labels).map (·.1) ++
      if (m.room? roomId).isSome then l.actsOn m roomId else [] := by
  induction labels generalizing n with
  | nil =>
    obtain rfl := Option.some.inj hm
    simp only [List.nil_append, history, List.append_nil, List.map_nil]
    cases n.room? roomId with
    | none => rfl
    | some r => simp only [Option.isSome_some, if_true, List.map_fst_zip (r.length_evolve _).ge]
  | cons l' labels ih =>
    obtain ⟨n₁, hs, hm'⟩ := machine.run_cons_iff.1 hm
    obtain ⟨rfl, -⟩ := step_eq_some hs
    rw [List.cons_append, history, history, List.map_append, List.map_append, ih hm', List.append_assoc]

/-- **The players of a room are those whose joins no later act has undone, in the order of
the joins.** -/
theorem ids_eq_remaining (hm : machine.run init labels = some m) :
    m.Tidy ∧ (m.nextRoomId ≤ roomId → actsSoFar F roomId labels = []) ∧
      ∀ r, m.room? roomId = some r → r.ids = remaining (actsSoFar F roomId labels) := by
  induction labels using List.reverseRecOn generalizing m with
  | nil =>
    obtain rfl := Option.some.inj hm
    refine ⟨tidy_init, fun _ => rfl, fun r hr => ?_⟩
    have hnone : (init : ServerManager F).rooms[roomId]? = none := Std.TreeMap.getElem?_emptyc
    rw [room?, hnone] at hr
    cases hr
  | append_singleton labels l ih =>
    obtain ⟨m₀, hm₀, hs⟩ := machine.run_snoc_iff.1 hm
    obtain ⟨htidy, hnew, hids⟩ := ih hm₀
    have hnext := nextRoomId_le_step hs
    have hmore : (history roomId init (labels ++ [l])).map (·.1) = _ := history_snoc hm₀ l
    -- a room that is not there yet has no history
    have hbefore : m₀.nextRoomId ≤ roomId → actsSoFar F roomId (labels ++ [l]) = [] := fun hle => by
      have hnone : m₀.room? roomId = none :=
        Option.eq_none_iff_forall_ne_some.2 fun r hr => absurd (htidy.lt_nextRoomId hr) (not_lt.2 hle)
      rw [actsSoFar, hmore, hnone]
      exact (List.append_nil _).trans (hnew hle)
    refine ⟨tidy_step m₀ l m htidy hs, fun hle => hbefore (hnext.trans hle), fun r hr => ?_⟩
    obtain ⟨rfl, -⟩ := step_eq_some hs
    rcases room?_run htidy hr with ⟨r₀, hr₀, rfl⟩ | ⟨rfl, fresh, rfl⟩
    · rw [actsSoFar, hmore, hr₀]
      exact Room.ids_after (hids r₀ hr₀) (joinsOpen_actsOn hr₀ l)
    · rw [hbefore le_rfl]
      rfl

/-! ## The life of a lobby -/

/-- A step starts a room only if it is an `onStartGame` of the player at the head of its list. -/
def StartedByHost (roomId : ℤ) (m : ServerManager F) (l : Label) : Prop :=
  ∀ r r', m.room? roomId = some r → (l.run m).room? roomId = some r' →
    r.game.status = .lobby → r'.game.status ≠ .lobby →
      ∃ playerId fresh, l = .call (.onStartGame roomId playerId) fresh ∧ r.ids.head? = some playerId

/-- **The life of a lobby**, in the course of some labels from the start of the server on. -/
structure LobbyLife (F : Type*) [FloatOps F] (roomId : ℤ) (labels : List Label) : Prop where
  /-- The players are those whose joins no later act has undone, in the order of the joins;
  the host is the first of them, and 0 in an empty room. -/
  inOrder : ∀ pre (m : ServerManager F) r, pre <+: labels → machine.run init pre = some m → m.room? roomId = some r →
    r.ids = remaining (actsSoFar F roomId pre) ∧
      r.game.getHostId = ((remaining (actsSoFar F roomId pre)).head?).getD 0
  byHost : machine.Along (StartedByHost (F := F) roomId) init labels
  /-- From any moment after the start on, nobody is let in. -/
  started : ∀ pre post (m n : ServerManager F) r r', pre ++ post <+: labels → machine.run init pre = some m →
    machine.run m post = some n → m.room? roomId = some r → n.room? roomId = some r' → r.game.status ≠ .lobby →
      r'.game.status ≠ .lobby ∧ r'.ids.Sublist r.ids ∧
        ∀ playerId username, (n.onJoinRoom roomId playerId username).1 = false

/-- The player a label names, where it joins a room or starts one. -/
def Label.named : Label → Option UInt32
  | call (.onJoinRoom _ playerId _) _ | call (.onStartGame _ playerId) _ => some playerId
  | _ => none

theorem status_ne_lobby {s : GameStatus} : s ≠ .lobby ↔ s = .playing := by cases s <;> simp

omit [FloatOps F] in
theorem getHostId_eq (r : Room F) : r.game.getHostId = (r.ids.head?).getD 0 := by
  rw [Game.getHostId, Room.ids, List.head?_map]

/-- A room that starts was started by one of the acts on it, its host's. -/
theorem exists_start {r : Room F} {as : List RoomAct} (h : r.game.status = .lobby)
    (h' : (r.after as).game.status = .playing) : ∃ playerId, RoomAct.start playerId ∈ as := by
  induction as generalizing r with
  | nil => exact absurd (h.symm.trans h') (by decide)
  | cons a as ih =>
    rcases a.status_run r with hs | ⟨-, rfl⟩
    · obtain ⟨playerId, hmem⟩ := ih (r := { a.run r with out := [] }) (hs.trans h) h'
      exact ⟨playerId, List.mem_cons_of_mem a hmem⟩
    · exact ⟨_, List.mem_cons_self⟩

theorem startedByHost (h : m.Tidy) (hl : l.named ≠ some 0) : StartedByHost roomId m l := by
  intro r r' hr hr' hlobby hplaying
  rw [status_ne_lobby] at hplaying
  obtain rfl := room?_run_of_some h hr hr'
  -- the status changed, so one of the acts is a start
  obtain ⟨playerId, hmem⟩ := exists_start hlobby hplaying
  rcases Label.acts_cases (mem_actsOn.1 hmem) with ⟨_, _, _, -, he, -⟩ | ⟨p, fresh, rfl, he⟩ | ⟨-, hnot⟩
  · cases he
  · cases he
    refine ⟨playerId, fresh, rfl, ?_⟩
    have hself : (roomId == roomId) = true := beq_self_eq_true _
    have hone : (Label.call (.onStartGame roomId playerId) fresh).actsOn m roomId = [.start playerId] := by
      rw [Label.actsOn, Label.acts, List.filter_cons, if_pos hself]
      rfl
    rw [hone] at hplaying
    have hrun : ((RoomAct.start playerId).run r).game.status = .playing := hplaying
    rcases (RoomAct.start playerId).status_run r with hs | ⟨-, hs⟩
    · rw [hs, hlobby] at hrun
      cases hrun
    · -- the player named is the host, so the list is not empty
      have hhost : playerId = (r.ids.head?).getD 0 := (RoomAct.start.inj hs).trans (getHostId_eq r)
      cases hhead : r.ids.head? with
      | none =>
        rw [hhead] at hhost
        exact absurd (congrArg some hhost) hl
      | some p =>
        rw [hhead] at hhost
        rw [hhost, Option.getD_some]
  · exact absurd rfl (hnot playerId)

/-- What a started room keeps, step by step: once deleted, it does not come back. -/
theorem started_run {post : List Label} (hm : m.Tidy) (hr : m.room? roomId = some r) (hp : r.game.status = .playing)
    (hn : machine.run m post = some n) :
    ∀ r', n.room? roomId = some r' → r'.game.status = .playing ∧ r'.ids.Sublist r.ids := by
  refine (Machine.inv_run (M := machine) (I := fun n : ServerManager F => n.Tidy ∧ roomId < n.nextRoomId ∧
    ∀ r', n.room? roomId = some r' → r'.game.status = .playing ∧ r'.ids.Sublist r.ids) ?_ post m n
      ⟨hm, hm.lt_nextRoomId hr, fun r' hr' => ?_⟩ hn).2.2
  · rintro n l n' ⟨hn, hlt, hI⟩ hs
    refine ⟨tidy_step n l n' hn hs, hlt.trans_le (nextRoomId_le_step hs), fun r' hr' => ?_⟩
    obtain ⟨rfl, -⟩ := step_eq_some hs
    rcases room?_run hn hr' with ⟨r₀, hr₀, rfl⟩ | ⟨he, -⟩
    · obtain ⟨hplaying, hids⟩ := hI r₀ hr₀
      have hafter := Room.playing_after hplaying (l.actsOn n roomId)
      exact ⟨hafter.1, hafter.2.trans hids⟩
    · omega
  · obtain rfl := Option.some.inj (hr.symm.trans hr')
    exact ⟨hp, .refl _⟩

/-- **The player list is in the order of the joins, only the host starts the room, and after
that nobody is let in.** -/
theorem lobbyLife (labels : List Label) (hids : ∀ l ∈ labels, l.named ≠ some 0) (roomId : ℤ) :
    LobbyLife F roomId labels := by
  refine ⟨fun pre m r _ hm hr => ?_, ?_, fun pre post m n r r' _ hm hn hr hr' hp => ?_⟩
  · have hrem := (ids_eq_remaining hm).2.2 r hr
    exact ⟨hrem, by rw [getHostId_eq, hrem]⟩
  · refine Machine.along_of_forall fun pre l post m he hm => ?_
    have hmem : l ∈ labels := he ▸ List.mem_append_right pre List.mem_cons_self
    exact startedByHost (tidy_run hm) (hids l hmem)
  · rw [status_ne_lobby] at hp
    obtain ⟨hplaying, hsub⟩ := started_run (tidy_run hm) hr hp hn r' hr'
    refine ⟨status_ne_lobby.2 hplaying, hsub, fun playerId username => ?_⟩
    by_contra hacc
    obtain ⟨r₀, hr₀, hl⟩ := onJoinRoom_accepts_iff.1 (by simpa using hacc)
    obtain rfl := Option.some.inj (hr'.symm.trans hr₀)
    rw [hplaying] at hl
    cases hl

/-- Two players join, the first leaves, and the second starts the room. -/
theorem lobbyLife_two : LobbyLife ℚ 0
    [.event (.command (.create ⟨0, 0⟩)), .call (.onJoinRoom 0 1 []) ⟨0, 0⟩, .call (.onJoinRoom 0 2 []) ⟨0, 0⟩,
      .call (.onPlayerDisconnect 1 0) ⟨0, 0⟩, .call (.onStartGame 0 2) ⟨0, 0⟩] :=
  lobbyLife _ (by simp [Label.named]) 0

end ServerManager

end RType

import RType.Proof.Departures
import RType.Proof.Peers
import RType.Proof.Sections

/-!
# Player ids and rooms

`onJoinRoom` and `addPlayer` check no id, so that an id is in one room only rests on the
phases of the connections: a thread joins at most once, with an id of its own.

* `isolated_step`: the invariant over all threads.
* `OccursOnce.isolates`: where each id occurs at most once over all rooms, a datagram changes at
  most the room of the player it names, and queues messages to addresses of that room only.
* `unambiguous`: **so it is in every reachable state.**
-/

namespace RType

open Lts

variable {F : Type*}

namespace ServerManager

/-- The ids of the players of a room; none if there is no such room. -/
def ids (m : ServerManager F) (roomId : ℤ) : List UInt32 :=
  ((m.rooms[roomId]?).map (·.game.players.map (·.id))).getD []

/-- Each id occurs at most once over all rooms together. -/
def OccursOnce (m : ServerManager F) : Prop :=
  (∀ roomId, (m.ids roomId).Nodup) ∧
    ∀ p roomId roomId', p ∈ m.ids roomId → p ∈ m.ids roomId' → roomId = roomId'

/-- No room gets a player, or another order of its players. -/
def Shrinks (m m' : ServerManager F) : Prop := ∀ roomId, (m'.ids roomId).Sublist (m.ids roomId)

theorem Shrinks.refl (m : ServerManager F) : m.Shrinks m := fun _ => List.Sublist.refl _

/-- The players of a room with their names, as `onGetLobbyState` gives them. -/
def names (m : ServerManager F) (roomId : ℤ) : List (UInt32 × List UInt8) := (m.onGetLobbyState roomId).2

/-- No room gets a player, or another name for a player it has. -/
def Keeps (m m' : ServerManager F) : Prop := ∀ roomId, (m'.names roomId).Sublist (m.names roomId)

theorem Keeps.refl (m : ServerManager F) : m.Keeps m := fun _ => List.Sublist.refl _

theorem Keeps.trans {m₁ m₂ m₃ : ServerManager F} (h : m₁.Keeps m₂) (h' : m₂.Keeps m₃) : m₁.Keeps m₃ :=
  fun roomId => (h' roomId).trans (h roomId)

theorem OccursOnce.shrink {m m' : ServerManager F} (h : m.OccursOnce) (hs : m.Shrinks m') : m'.OccursOnce :=
  ⟨fun roomId => (h.1 roomId).sublist (hs roomId),
    fun p roomId roomId' hp hp' => h.2 p roomId roomId' ((hs roomId).subset hp) ((hs roomId').subset hp')⟩

/-! ## Rooms -/

theorem ids_of_some {m : ServerManager F} {roomId : ℤ} {e : RoomEntry F} (h : m.rooms[roomId]? = some e) :
    m.ids roomId = e.game.players.map (·.id) := by
  rw [ids, h]
  rfl

theorem ids_of_none {m : ServerManager F} {roomId : ℤ} (h : m.rooms[roomId]? = none) : m.ids roomId = [] := by
  rw [ids, h]
  rfl

theorem names_of_some {m : ServerManager F} {roomId : ℤ} {e : RoomEntry F} (h : m.rooms[roomId]? = some e) :
    m.names roomId = e.game.players.map fun p => (p.id, p.username) := by
  rw [names, onGetLobbyState, h]

theorem names_of_none {m : ServerManager F} {roomId : ℤ} (h : m.rooms[roomId]? = none) : m.names roomId = [] := by
  rw [names, onGetLobbyState, h]

theorem names_congr {m m' : ServerManager F} {roomId : ℤ} (h : m'.rooms[roomId]? = m.rooms[roomId]?) :
    m'.names roomId = m.names roomId := by
  rw [names, onGetLobbyState, h, names, onGetLobbyState]

/-- The ids are those of the players with their names. -/
theorem ids_eq_names (m : ServerManager F) (roomId : ℤ) : m.ids roomId = (m.names roomId).map (·.1) := by
  cases h : m.rooms[roomId]? with
  | none =>
    rw [ids_of_none h, names_of_none h]
    rfl
  | some e =>
    rw [ids_of_some h, names_of_some h, List.map_map]
    rfl

theorem Keeps.shrinks {m m' : ServerManager F} (h : m.Keeps m') : m.Shrinks m' := by
  intro roomId
  rw [ids_eq_names, ids_eq_names]
  exact (h roomId).map _

theorem keeps_onRoom (m : ServerManager F) (roomId : ℤ) {f : Room F → Room F}
    (hf : ∀ r, (f r).names.Sublist r.names) : m.Keeps (m.onRoom roomId f) := by
  intro roomId'
  cases hr : m.rooms[roomId]? with
  | none => rw [onRoom_of_none hr]
  | some e =>
    by_cases h : roomId' = roomId
    · subst h
      rw [names_of_some (onRoom_self hr f), names_of_some hr]
      exact hf _
    · rw [names_congr (onRoom_of_ne h f)]

theorem keeps_insert_empty {m m' : ServerManager F} {roomId : ℤ} {e : RoomEntry F}
    (hm : m'.rooms = m.rooms.insert roomId e) (he : e.game.players = []) : m.Keeps m' := by
  intro roomId'
  by_cases h : roomId' = roomId
  · subst h
    have hself : m'.rooms[roomId']? = some e := by rw [hm, Std.TreeMap.getElem?_insert_self]
    rw [names_of_some hself, he]
    exact List.nil_sublist _
  · have hother : m'.rooms[roomId']? = m.rooms[roomId']? := by rw [hm, Maps.getElem?_insert, if_neg h]
    rw [names_congr hother]

theorem keeps_erase {m m' : ServerManager F} {roomId : ℤ} (hm : m'.rooms = m.rooms.erase roomId) : m.Keeps m' := by
  intro roomId'
  by_cases h : roomId' = roomId
  · subst h
    have hnone : m'.rooms[roomId']? = none := by rw [hm, Std.TreeMap.getElem?_erase_self]
    rw [names_of_none hnone]
    exact List.nil_sublist _
  · have hother : m'.rooms[roomId']? = m.rooms[roomId']? := by rw [hm, Maps.getElem?_erase, if_neg h]
    rw [names_congr hother]

/-- A player of no room may be let into one. -/
theorem OccursOnce.join {m m' : ServerManager F} {roomId : ℤ} {p : UInt32} (h : m.OccursOnce)
    (hp : ∀ roomId', p ∉ m.ids roomId')
    (hids : ∀ roomId', m'.ids roomId' = if roomId' = roomId then m.ids roomId' ++ [p] else m.ids roomId') :
    m'.OccursOnce := by
  have hmem : ∀ q roomId', q ∈ m'.ids roomId' → q ∈ m.ids roomId' ∨ q = p ∧ roomId' = roomId := by
    intro q roomId' hq
    rw [hids] at hq
    split at hq
    · rename_i he
      exact (List.mem_append.1 hq).imp_right fun hq => ⟨List.mem_singleton.1 hq, he⟩
    · exact .inl hq
  refine ⟨fun roomId' => ?_, fun q roomId₁ roomId₂ h₁ h₂ => ?_⟩
  · rw [hids]
    split
    · exact (h.1 roomId').append (List.nodup_singleton p)
        (List.disjoint_singleton.2 (hp roomId'))
    · exact h.1 roomId'
  · rcases hmem q roomId₁ h₁ with h₁ | ⟨rfl, rfl⟩ <;> rcases hmem q roomId₂ h₂ with h₂ | ⟨he, rfl⟩
    · exact h.2 q roomId₁ roomId₂ h₁ h₂
    · exact absurd h₁ (he ▸ hp roomId₁)
    · exact absurd h₂ (hp roomId₂)
    · rfl

end ServerManager

variable [FloatOps F]

/-- **No act but a join brings a player in, or a name.** -/
theorem RoomAct.names_sublist (a : RoomAct) (ha : ∀ p name, a ≠ .join p name) (r : Room F) :
    (a.run r).names.Sublist r.names := by
  cases a with
  | join p name => exact absurd rfl (ha p name)
  | leave p => exact List.filter_sublist.map _
  | start p => simp only [run, Room.start]; split <;> exact List.Sublist.refl _
  | input pkt addr => rw [run, GameThreads.input_names]
  | disconnect p => exact List.filter_sublist.map _
  | kick p => exact List.filter_sublist.map _
  | update env => rw [run, GameThreads.update_names]

namespace ServerManager

/-- **What the other threads do brings no player in.** -/
theorem keeps_react (ev : Event) (m : ServerManager F) : m.Keeps (react ev m) := by
  have hact : ∀ (m : ServerManager F) roomId (a : RoomAct), (∀ p name, a ≠ .join p name) →
      m.Keeps (m.onRoom roomId a.run) := fun m roomId a ha => keeps_onRoom m roomId (a.names_sublist ha)
  cases ev with
  | datagram data addr =>
    simp only [react, onMessageReceived]
    repeat' split
    · exact hact _ _ _ (by simp)
    · exact .refl m
    · exact hact _ _ _ (by simp)
    · exact .refl m
    · exact fun _ => List.Sublist.refl _
    · exact .refl m
  | command c =>
    cases c with
    | create fresh => exact keeps_insert_empty rfl rfl
    | delete roomId => exact keeps_erase rfl
    | kick p =>
      simp only [react, processCommand]
      split
      · exact hact _ _ _ (by simp)
      · exact .refl m
  | pass env =>
    exact foldl_rel Keeps.refl (fun _ _ _ => Keeps.trans) (fun m roomId => hact m roomId _ (by simp)) _ m

/-! ## Callbacks -/

/-- A callback other than `onJoinRoom` brings no player in. -/
theorem keeps_call (c : Call) (hc : ∀ roomId playerId username, c ≠ .onJoinRoom roomId playerId username)
    (m : ServerManager F) (fresh : Fresh) : m.Keeps (handler.call m fresh c).2 := by
  cases c with
  | onCreateRoom => exact keeps_insert_empty rfl rfl
  | onJoinRoom roomId playerId username => exact absurd rfl (hc roomId playerId username)
  | onStartGame roomId playerId => exact keeps_onRoom m roomId (RoomAct.names_sublist (.start playerId) (by simp))
  | onPlayerDisconnect playerId roomId =>
    exact keeps_onRoom m roomId (RoomAct.names_sublist (.leave playerId) (by simp))
  | onGetLobbyState _ | onGetRooms | isGameStarting _ => exact .refl m

/-- `onJoinRoom` changes nothing, or appends the player to one room, with the name it is
given. -/
theorem onJoinRoom_names (m : ServerManager F) (roomId : ℤ) (playerId : UInt32) (username : List UInt8) :
    (m.onJoinRoom roomId playerId username) = (false, m) ∨
      (m.onJoinRoom roomId playerId username).1 = true ∧ ∀ roomId',
        (m.onJoinRoom roomId playerId username).2.names roomId' =
          if roomId' = roomId then m.names roomId' ++ [(playerId, cText 31 username)] else m.names roomId' := by
  unfold onJoinRoom
  split
  · rename_i e he
    split
    · rename_i hl
      refine .inr ⟨rfl, fun roomId' => ?_⟩
      split
      · rename_i h
        subst h
        rw [names_of_some (onRoom_self he _), names_of_some he]
        simp [RoomAct.run, Room.join, hl, Game.addPlayer, Player.new]
      · rename_i h
        rw [names_congr (onRoom_of_ne h _)]
    · exact .inl rfl
  · exact .inl rfl

theorem onJoinRoom_ids (m : ServerManager F) (roomId : ℤ) (playerId : UInt32) (username : List UInt8) :
    (m.onJoinRoom roomId playerId username) = (false, m) ∨
      (m.onJoinRoom roomId playerId username).1 = true ∧ ∀ roomId',
        (m.onJoinRoom roomId playerId username).2.ids roomId' =
          if roomId' = roomId then m.ids roomId' ++ [playerId] else m.ids roomId' := by
  refine (onJoinRoom_names m roomId playerId username).imp_right fun ⟨hacc, hnames⟩ => ⟨hacc, fun roomId' => ?_⟩
  rw [ids_eq_names, hnames, ids_eq_names]
  split
  · exact List.map_append
  · rfl

end ServerManager

/-! ## All threads -/

namespace TCPServer

open ServerManager

variable {s s' : TCPServer (ServerManager F)}

/-- The server with its rooms, as a machine. -/
abbrev rooms : Machine (TCPServer (ServerManager F)) (Label Event) := machine ServerManager.handler react

/-- Each id is in one room at most, was handed out, and is in no room before its thread
was let into one. -/
structure Isolated (k : ℕ) (s : TCPServer (ServerManager F)) : Prop where
  peers : Peers k s
  once : s.handler.OccursOnce
  range : ∀ roomId, ∀ p ∈ s.handler.ids roomId, p.toNat ≤ k
  outside : ∀ t u, (s.pc t).peer = some u → (s.pc t).rank ≤ 2 → ∀ roomId, u.playerId ∉ s.handler.ids roomId

omit [FloatOps F] in
/-- Steps that let nobody in: a thread in the lobby was there before, or has a new id. -/
theorem Isolated.shrink {k k' : ℕ} (h : Isolated k s) (hk : k ≤ k') (hp : Peers k' s')
    (hs : s.handler.Shrinks s'.handler)
    (hpc : ∀ t u, (s'.pc t).peer = some u → (s'.pc t).rank ≤ 2 →
      k < u.playerId.toNat ∨ (s.pc t).peer = some u ∧ (s.pc t).rank ≤ 2) : Isolated k' s' := by
  refine ⟨hp, h.once.shrink hs, fun roomId p hmem => ?_, fun t u hu hr roomId hmem => ?_⟩
  · exact (h.range roomId p ((hs roomId).subset hmem)).trans hk
  · have hmem' := (hs roomId).subset hmem
    rcases hpc t u hu hr with hlt | ⟨hu', hr'⟩
    · exact absurd (h.range roomId _ hmem') (by omega)
    · exact h.outside t u hu' hr' roomId hmem'

omit [FloatOps F] in
/-- The one step that lets a player in. -/
theorem Isolated.join {k k' t : ℕ} {u : Peer} {roomId : ℤ} {pc' : Pc} {m' : ServerManager F} (h : Isolated k s)
    (hk : k ≤ k') (hpc : s.pc t = .join u roomId) (hpc' : 2 < pc'.rank)
    (hids : ∀ roomId', m'.ids roomId' =
      if roomId' = roomId then s.handler.ids roomId' ++ [u.playerId] else s.handler.ids roomId')
    (hp : Peers k' { s with handler := m', pc := Function.update s.pc t pc' }) :
    Isolated k' { s with handler := m', pc := Function.update s.pc t pc' } := by
  have hu : (s.pc t).peer = some u := by rw [hpc]; rfl
  -- the thread is not yet in a room, so its id is in none
  have hout := h.outside t u hu (by rw [hpc]; exact Nat.le_refl 2)
  refine ⟨hp, h.once.join hout hids, fun roomId' p hmem => ?_, fun t' u' hu' hr' roomId' hmem => ?_⟩
  · simp only [hids] at hmem
    split at hmem
    · rcases List.mem_append.1 hmem with hmem | hmem
      · exact (h.range roomId' p hmem).trans hk
      · rw [List.mem_singleton.1 hmem]
        exact (h.peers.range t u hu).2.trans hk
    · exact (h.range roomId' p hmem).trans hk
  · have hne : t' ≠ t := by
      rintro rfl
      simp only [Function.update_self] at hr'
      omega
    simp only [Function.update_of_ne hne] at hu' hr'
    simp only [hids] at hmem
    split at hmem
    · rcases List.mem_append.1 hmem with hmem | hmem
      · exact h.outside t' u' hu' hr' roomId' hmem
      · exact hne (h.peers.distinct t' t u' u hu' hu (List.mem_singleton.1 hmem))
    · exact h.outside t' u' hu' hr' roomId' hmem

/-- An act other than a join lets nobody in. -/
theorem keeps_perform {t : ℕ} {env : Env} {a : Act} {r : a.Result} {s₁ : TCPServer (ServerManager F)}
    (h : s.perform ServerManager.handler t env a = some (r, s₁))
    (ha : ∀ roomId playerId username, a ≠ .call (.onJoinRoom roomId playerId username)) :
    s.handler.Keeps s₁.handler := by
  by_cases hc : ∃ c, a = .call c
  · obtain ⟨c, rfl⟩ := hc
    obtain ⟨-, rfl⟩ := Prod.mk.inj (Option.some.inj h)
    exact keeps_call c (fun roomId playerId username he => ha roomId playerId username (by rw [he])) _ _
  · rw [(perform_frame h).2.2.2 fun c he => hc ⟨c, he⟩]
    exact .refl _

/-- A thread that is not about to join lets nobody in. -/
theorem keeps_of_not_join {t : ℕ} {env : Env} {pc : Pc} {r : pc.act.Result} {s₁ : TCPServer (ServerManager F)}
    (hp : s.perform ServerManager.handler t env pc.act = some (r, s₁)) (hjoin : ¬∃ u roomId, pc = .join u roomId) :
    s.handler.Keeps s₁.handler := by
  refine keeps_perform hp fun roomId playerId username he => ?_
  cases pc <;> simp only [Pc.act, reduceCtorEq, Act.call.injEq] at he
  exact hjoin ⟨_, _, rfl⟩

theorem isolated_step {k : ℕ} {l : Label Event} (h : Isolated k s) (hs : rooms.step s l = some s')
    (hlt : s.accepted < 2 ^ 32) : ∃ k', Isolated k' s' := by
  obtain ⟨k', hk, hp'⟩ := peers_step h.peers hs hlt
  rcases step_cases hs with ⟨rfl, rfl⟩ | ⟨t, env, pc, r, s₁, rfl, hpc, hp, rfl⟩ | ⟨playerId, rfl, -, rfl⟩ |
    ⟨sock, rfl, rfl⟩ | ⟨e, rfl, rfl⟩
  · -- an accepted connection has no player yet
    refine ⟨k', h.shrink hk hp' (.refl _) fun t u hu hr => .inr ?_⟩
    by_cases ht : t = s.accepted
    · subst ht
      simp only [Function.update_self] at hu
      cases hu
    · simpa only [Function.update_of_ne ht] using And.intro hu hr
  · obtain ⟨h1, h2, h3, -⟩ := perform_frame hp
    -- only a join lets anybody in, and only the thread that asks
    by_cases hjoin : ∃ u roomId, pc = .join u roomId
    · obtain ⟨u, roomId, rfl⟩ := hjoin
      obtain ⟨rfl, rfl⟩ := Prod.mk.inj (Option.some.inj hp)
      rcases onJoinRoom_ids s.handler roomId u.playerId u.username with hj | ⟨ht, hids⟩
      · refine ⟨k', h.shrink hk hp' ?_ fun t' u' hu' hr' => .inr ?_⟩
        · simp only [ServerManager.handler, hj]
          exact .refl _
        · by_cases he : t' = t
          · subst he
            simp only [Function.update_self] at hu'
            exact hpc ▸ ⟨hu', Nat.le_refl 2⟩
          · simpa only [Function.update_of_ne he] using And.intro hu' hr'
      · refine ⟨k', h.join hk hpc ?_ hids hp'⟩
        show 2 < (Pc.joinReply u roomId (s.handler.onJoinRoom roomId u.playerId u.username).1).rank
        rw [ht]
        exact Nat.le_refl 3
    · -- any other act; a thread may get its id by it
      have hsh := keeps_of_not_join hp hjoin
      refine ⟨k', h.shrink hk hp' hsh.shrinks fun t' u' hu' hr' => ?_⟩
      · by_cases he : t' = t
        swap
        · simp only [Function.update_of_ne he, h1] at hu' hr'
          exact .inr ⟨hu', hr'⟩
        subst he
        simp only [Function.update_self] at hu' hr'
        by_cases htake : ∃ username, pc = .takePlayerId username
        · obtain ⟨username, rfl⟩ := htake
          obtain ⟨rfl, rfl⟩ := Prod.mk.inj (Option.some.inj hp)
          have hkn := h.peers.nextPlayerId_toNat hpc hlt
          rw [← Option.some.inj hu']
          exact .inl (by simp only; omega)
        · refine .inr ⟨?_, hpc ▸ (pc.rank_next r).trans hr'⟩
          rcases pc.next_peer (fun username he => htake ⟨username, he⟩) r with hq | hq
          · rw [hpc, ← hq, hu']
          · rw [hq] at hu'
            cases hu'
  · exact ⟨k', h.shrink hk hp' (by rw [kickPlayer_eq]; exact .refl _) fun t u hu hr => .inr (by
      rw [kickPlayer_eq] at hu hr
      exact ⟨hu, hr⟩)⟩
  · exact ⟨k', h.shrink hk hp' (.refl _) fun t u hu hr => .inr ⟨hu, hr⟩⟩
  · exact ⟨k', h.shrink hk hp' (keeps_react e _).shrinks fun t u hu hr => .inr ⟨hu, hr⟩⟩

theorem isolated_init : Isolated 0 (init (ServerManager.init : ServerManager F)) := by
  have hids : ∀ roomId, (ServerManager.init : ServerManager F).ids roomId = [] := fun roomId =>
    ids_of_none Std.TreeMap.getElem?_emptyc
  refine ⟨peers_init _, ⟨fun roomId => ?_, fun p roomId roomId' hp => ?_⟩, fun roomId p hp => ?_,
    fun t u hu => (nomatch hu)⟩
  · exact (hids roomId).symm ▸ List.nodup_nil
  · exact absurd ((hids roomId) ▸ hp) List.not_mem_nil
  · exact absurd ((hids roomId) ▸ hp) List.not_mem_nil

/-- **Every reachable state is isolated.** -/
theorem exists_isolated {labels : List (Label Event)} (hr : rooms.run (init ServerManager.init) labels = some s)
    (hlt : s.accepted < 2 ^ 32) : ∃ k, Isolated k s := by
  refine Machine.inv_run (I := fun s => s.accepted < 2 ^ 32 → ∃ k, Isolated k s) ?_ labels _ s
    (fun _ => ⟨0, isolated_init⟩) hr hlt
  intro s l s' ih hs hlt'
  have hlt := (accepted_le_step hs).trans_lt hlt'
  obtain ⟨k, h⟩ := ih hlt
  exact isolated_step h hs hlt

end TCPServer

/-! ## Datagrams -/

/-- The players an address is known of, and the addresses. -/
def Room.addrs (r : Room F) : List (UInt32 × Bool × SockAddr) :=
  r.game.players.map fun d => (d.id, d.addrSet, d.udpAddr)

/-- What is queued is addressed to players of the room. -/
def Room.Addressed (r : Room F) : Prop :=
  ∀ m ∈ r.out, ∃ d ∈ r.game.players, d.addrSet = true ∧ m.dest = some d.id ∧ m.addr = d.udpAddr

namespace Room

omit [FloatOps F]

theorem addressed_iff {r : Room F} :
    r.Addressed ↔ ∀ m ∈ r.out, ∃ id, m.dest = some id ∧ (id, true, m.addr) ∈ r.addrs := by
  simp only [Addressed, addrs, List.mem_map, Prod.mk.injEq]
  refine forall₂_congr fun m _ => ⟨?_, ?_⟩
  · rintro ⟨d, hd, hset, hdest, haddr⟩
    exact ⟨d.id, hdest, d, hd, rfl, hset, haddr.symm⟩
  · rintro ⟨id, hdest, d, hd, rfl, hset, haddr⟩
    exact ⟨d, hd, hset, hdest, haddr.symm⟩

/-- Writes that move no player and queue nothing. -/
theorem Addressed.of_eq {r r' : Room F} (h : r.Addressed) (ha : r'.addrs = r.addrs) (ho : r'.out = r.out) :
    r'.Addressed := by
  rw [addressed_iff] at h ⊢
  rw [ha, ho]
  exact h

theorem Addressed.broadcast {r : Room F} (h : r.Addressed) (ms : List (UdpMsg F)) :
    (r.broadcast ms).Addressed := by
  intro m hm
  rcases List.mem_append.1 hm with hm | hm
  · exact h m hm
  · obtain ⟨d, hd, hset, msg, -, rfl⟩ := mem_announce.1 hm
    exact ⟨d, hd, hset, rfl, rfl⟩

end Room

/-- A step of the UDP thread queues messages to players of the room only, and leaves the
boss alone. -/
theorem UdpOp.addressed {playerId : UInt32} {memory : Player F} {r : Room F} (op : UdpOp) (h : r.Addressed) :
    (op.run playerId memory r).1.Addressed ∧ (op.run playerId memory r).1.boss = r.boss := by
  rcases op.run_cases playerId memory r with he | ⟨slot, f, hf, he⟩ | ⟨slot, charged, rfl⟩
  · rw [he]
    exact ⟨h, rfl⟩
  · rw [he]
    refine ⟨h.of_eq (map_modify_eq _ (fun p => ?_) _ _) rfl, rfl⟩
    rw [hf.id, hf.addrSet, hf.udpAddr]
  · simp only [run]
    split
    · exact ⟨Room.Addressed.broadcast (h.of_eq rfl rfl) _, rfl⟩
    · exact ⟨Room.Addressed.broadcast (h.of_eq rfl rfl) _, rfl⟩

/-- **What a datagram does to its room.** -/
theorem RoomAct.addressed {a : RoomAct} (ha : (∃ pkt addr, a = .input pkt addr) ∨ ∃ p, a = .disconnect p)
    {r : Room F} (hr : r.out = []) : (a.run r).Addressed ∧ (a.run r).boss = r.boss := by
  have h0 : ∀ g : Game F, Room.Addressed { r with game := g } := fun g m hm => by
    rw [show Room.out { r with game := g } = [] from hr] at hm
    cases hm
  rcases ha with ⟨pkt, addr, rfl⟩ | ⟨p, rfl⟩
  · exact GameThreads.handlePlayerInput_rule (I := fun r' => r'.Addressed ∧ r'.boss = r.boss)
      (fun memory op r' h => ⟨(op.addressed h.1).1, (op.addressed h.1).2.trans h.2⟩) ⟨h0 _, rfl⟩
  · exact ⟨(h0 _).broadcast _, rfl⟩

/-- The player a datagram names. -/
def ClientMsg.player : ClientMsg → Option UInt32
  | .playerInput pkt => some pkt.playerId
  | .playerDisconnect playerId => some playerId
  | .ping _ => none

namespace ServerManager

/-- What may come of a datagram from `addr` that names a player or none: nothing, a `PONG`
to the sender, or a change of the one room that holds the named player, with messages to
players of that room. -/
inductive Isolates (m : ServerManager F) (addr : SockAddr) : Option UInt32 → ServerManager F → Prop
  | ignored {named} : Isolates m addr named m
  | pong (timestamp : UInt32) :
    Isolates m addr none { m with out := m.out ++ [⟨none, addr, .pong timestamp⟩] }
  | room {p roomId e' new m'} (holds : ∀ roomId', p ∈ m.ids roomId' ↔ roomId' = roomId)
    (changed : m'.rooms[roomId]? = some e')
    (others : ∀ roomId', roomId' ≠ roomId → m'.rooms[roomId']? = m.rooms[roomId']?)
    (boss : m'.boss = m.boss) (nextRoomId : m'.nextRoomId = m.nextRoomId) (out : m'.out = m.out ++ new)
    (addressed : ∀ msg ∈ new, ∃ d ∈ e'.game.players,
      d.addrSet = true ∧ msg.dest = some d.id ∧ msg.addr = d.udpAddr) :
    Isolates m addr (some p) m'

omit [FloatOps F] in
/-- The room the loop of `onMessageReceived` finds has the player. -/
theorem mem_ids_findRoom {m : ServerManager F} {p : UInt32} {roomId : ℤ} (h : m.findRoom p = some roomId) :
    ∃ e, m.rooms[roomId]? = some e ∧ p ∈ m.ids roomId := by
  obtain ⟨⟨roomId', e⟩, hf, rfl⟩ := Option.map_eq_some_iff.1 h
  have he : m.rooms[roomId']? = some e :=
    Std.TreeMap.mem_toList_iff_getElem?_eq_some.1 (List.mem_of_find?_eq_some hf)
  refine ⟨e, he, ?_⟩
  have hp := List.find?_some hf
  obtain ⟨slot, hslot⟩ := Option.isSome_iff_exists.1 hp
  have hid := Room.getElem?_getPlayer (r := ⟨e.game, m.boss e.addr, []⟩) hslot
  rw [ids_of_some he]
  exact List.mem_of_getElem? hid

/-- What a datagram does to the room it finds. -/
theorem isolates_onRoom {m : ServerManager F} (h : m.OccursOnce) {p : UInt32} {roomId : ℤ} {a : RoomAct}
    (hf : m.findRoom p = some roomId) (ha : (∃ pkt addr, a = .input pkt addr) ∨ ∃ p, a = .disconnect p)
    (addr : SockAddr) : m.Isolates addr (some p) (m.onRoom roomId a.run) := by
  obtain ⟨e, he, hp⟩ := mem_ids_findRoom hf
  obtain ⟨haddr, hboss⟩ := RoomAct.addressed ha (r := ⟨e.game, m.boss e.addr, []⟩) rfl
  refine .room (fun roomId' => ⟨fun hp' => h.2 p roomId' roomId hp' hp, fun he => he ▸ hp⟩) (onRoom_self he _)
    (fun roomId' hne => onRoom_of_ne hne _) ?_ ?_ ?_ haddr
  · rw [onRoom_of_some he]
    exact (congrArg (Function.update m.boss e.addr) hboss).trans (Function.update_eq_self e.addr m.boss)
  · rw [onRoom_of_some he]
  · rw [onRoom_of_some he]

/-- **Datagrams are isolated where ids are unambiguous.** -/
theorem OccursOnce.isolates {m : ServerManager F} (h : m.OccursOnce) (data : List UInt8) (addr : SockAddr) :
    m.Isolates addr ((ClientMsg.parse data).bind (·.player)) (m.onMessageReceived data addr) := by
  unfold onMessageReceived
  rcases ClientMsg.parse data with _ | ⟨pkt | p | ts⟩
  · exact .ignored
  · simp only [Option.bind_some, ClientMsg.player]
    split
    · rename_i roomId hf
      exact isolates_onRoom h hf (.inl ⟨_, _, rfl⟩) addr
    · exact .ignored
  · simp only [Option.bind_some, ClientMsg.player]
    split
    · rename_i roomId hf
      exact isolates_onRoom h hf (.inr ⟨_, rfl⟩) addr
    · exact .ignored
  · exact .pong ts

end ServerManager

namespace TCPServer

/-- **Player ids are unambiguous and rooms are isolated**, as long as fewer than `2 ^ 32`
connections were accepted. -/
theorem unambiguous (labels : List (Label ServerManager.Event)) {s : TCPServer (ServerManager F)}
    (hr : rooms.run (init ServerManager.init) labels = some s) (hlt : s.accepted < 2 ^ 32) :
    s.handler.OccursOnce ∧ ∀ data addr,
      s.handler.Isolates addr ((ClientMsg.parse data).bind (·.player)) (s.handler.onMessageReceived data addr) := by
  obtain ⟨k, h⟩ := exists_isolated hr hlt
  exact ⟨h.once, h.once.isolates⟩

/-- A step of thread `t` that reads `bytes`; a `Game` that it makes gets the address `t`. -/
def readsBy (t : ℕ) (bytes : List UInt8) : Label ServerManager.Event :=
  .thread t ⟨⟨bytes, none, []⟩, 0, ⟨t, 0⟩⟩

/-- A step of thread 0. -/
def reads (bytes : List UInt8) : Label ServerManager.Event := readsBy 0 bytes

/-- The client of thread `t` connects, creates a room and joins the room `roomId`. -/
def joinsBy (t : ℕ) (roomId : UInt8) : List (Label ServerManager.Event) :=
  .accept :: readsBy t (1 :: List.replicate 32 0) :: List.replicate 4 (readsBy t []) ++
    readsBy t [6] :: List.replicate 2 (readsBy t []) ++
    readsBy t [8] :: readsBy t [roomId, 0, 0, 0] :: List.replicate 3 (readsBy t [])

/-- A client connects, creates a room and joins it. -/
def joinRun : List (Label ServerManager.Event) := joinsBy 0 0

/-- Two clients are each in a room of their own. The first starts its game and fires a shot, and
the rooms are updated. -/
def twoRooms : List (Label ServerManager.Event) :=
  joinsBy 0 0 ++ joinsBy 1 1 ++ [reads [TCPMessageType.startGameRequest.code], reads [],
    .other (.datagram (ClientMsg.playerInput ⟨1, 5, 16⟩).bytes ⟨7, 7⟩), .other (.pass fun _ => ⟨0, 0, 0, 0, 0⟩)]

theorem unambiguous_twoRooms :
    ∃ s : TCPServer (ServerManager ℚ), rooms.run (init ServerManager.init) twoRooms = some s ∧
      (s.handler.ids 0 = [1] ∧ s.handler.ids 1 = [2] ∧ s.handler.out.length = 3) ∧ s.handler.OccursOnce ∧
      ∀ data addr, s.handler.Isolates addr ((ClientMsg.parse data).bind (·.player))
        (s.handler.onMessageReceived data addr) := by
  have hrooms : (rooms.run (init (ServerManager.init : ServerManager ℚ)) twoRooms).map
      (fun s => (s.handler.ids 0, s.handler.ids 1, s.handler.out.length, s.accepted)) = some ([1], [2], 3, 2) := by
    decide +kernel
  obtain ⟨s, hrun, hs⟩ := Option.map_eq_some_iff.1 hrooms
  obtain ⟨h₀, h₁, hout, haccepted⟩ : s.handler.ids 0 = [1] ∧ s.handler.ids 1 = [2] ∧ s.handler.out.length = 3 ∧
      s.accepted = 2 := by simpa using hs
  exact ⟨s, hrun, ⟨h₀, h₁, hout⟩, unambiguous twoRooms hrun (by rw [haccepted]; decide)⟩

end TCPServer

end RType

import RType.Proof.OwnPlayer
import RType.Proof.RoomMessages
import RType.Proof.RoomThreads

/-!
# What the server may tell a client

The server answers a `PING` with its time, and acknowledges an input with its tick. It makes up
neither.

* `Holds`: a property of each game, and one of all that is queued; `Holds.run` is its rule.
* `answers_run`: the times in what is queued as `PONG` for an address.
* `acknowledges_run`: the ticks that are kept of a player, or queued about it.
-/

namespace RType

open Lts

variable {F : Type*}

/-! ## Games and messages -/

/-- A property of the game, and one of what was queued. -/
structure Room.Holds (P : Game F → Prop) (Q : Sent F → Prop) (r : Room F) : Prop where
  game : P r.game
  out : ∀ x ∈ r.out, Q x

namespace ServerManager

/-- A property of each game, and one of what was queued. -/
structure Holds (P : Game F → Prop) (Q : Sent F → Prop) (m : ServerManager F) : Prop where
  games : ∀ (roomId : ℤ) (e : RoomEntry F), m.rooms[roomId]? = some e → P e.game
  out : ∀ x ∈ m.out, Q x

variable {P P' : Game F → Prop} {Q Q' : Sent F → Prop} {m : ServerManager F}

theorem Holds.imp (h : m.Holds P Q) (hP : ∀ game, P game → P' game) (hQ : ∀ x, Q x → Q' x) : m.Holds P' Q' :=
  ⟨fun roomId e he => hP e.game (h.games roomId e he), fun x hx => hQ x (h.out x hx)⟩

/-- One room is changed. -/
theorem Holds.onRoom (h : m.Holds P Q) (roomId : ℤ) {f : Room F → Room F}
    (hf : ∀ r : Room F, r.Holds P Q → (f r).Holds P Q) : (m.onRoom roomId f).Holds P Q := by
  cases he : m.rooms[roomId]? with
  | none =>
    rw [onRoom_of_none he]
    exact h
  | some e =>
    have hafter := hf ⟨e.game, m.boss e.addr, []⟩ ⟨h.games roomId e he, fun x hx => absurd hx List.not_mem_nil⟩
    refine ⟨fun roomId' e' he' => ?_, fun x hx => ?_⟩
    · by_cases hne : roomId' = roomId
      · subst hne
        rw [onRoom_self he] at he'
        obtain rfl := Option.some.inj he'
        exact hafter.game
      · rw [onRoom_of_ne hne] at he'
        exact h.games roomId' e' he'
    · rw [onRoom_of_some he] at hx
      exact (List.mem_append.1 hx).elim (h.out x) (hafter.out x)

variable [FloatOps F]

theorem holds_init : (init : ServerManager F).Holds P Q := by
  refine ⟨fun roomId e he => ?_, fun x hx => absurd hx List.not_mem_nil⟩
  have hnone : (init : ServerManager F).rooms[roomId]? = none := Std.TreeMap.getElem?_emptyc
  rw [hnone] at he
  cases he

theorem Holds.doAll {acts : List (ℤ × RoomAct)} (h : m.Holds P Q)
    (hacts : ∀ roomId a, (roomId, a) ∈ acts → ∀ r : Room F, r.Holds P Q → (a.run r).Holds P Q) : (m.doAll acts).Holds P Q := by
  induction acts generalizing m with
  | nil => exact h
  | cons a acts ih =>
    have hone := h.onRoom a.1 (hacts a.1 a.2 List.mem_cons_self)
    exact ih hone fun roomId b hb => hacts roomId b (List.mem_cons_of_mem a hb)

/-- **What each act on a room keeps, the server keeps**, if a new game and the answers to `PING`
have it. -/
theorem Holds.run {l : Label} (h : m.Holds P Q) (hnew : ∀ now, P (Game.new now)) (hpongs : ∀ x ∈ l.pongs, Q x)
    (hacts : ∀ roomId a, (roomId, a) ∈ l.acts m → ∀ r : Room F, r.Holds P Q → (a.run r).Holds P Q) : (l.run m).Holds P Q := by
  have hdone := h.doAll hacts
  refine ⟨fun roomId e he => ?_, fun x hx => ?_⟩
  · rcases l.run_cases m with ⟨fresh, -, -, hrun⟩ | ⟨roomId', -, -, hrun⟩ | ⟨out, hrun⟩
    · rw [hrun] at he
      simp only [onCreateRoom, Maps.getElem?_insert] at he
      split at he
      · obtain rfl := Option.some.inj he
        exact hnew _
      · exact h.games roomId e he
    · rw [hrun] at he
      simp only [Maps.getElem?_erase] at he
      split at he
      · cases he
      · exact h.games roomId e he
    · rw [hrun] at he
      exact hdone.games roomId e he
  · rw [out_run] at hx
    exact (List.mem_append.1 hx).elim (hdone.out x) (hpongs x)

/-- What is queued stays queued. -/
theorem out_grows (m : ServerManager F) (l : Label) : m.out <+: (l.run m).out := by
  have hroom (m : ServerManager F) (roomId : ℤ) (f : Room F → Room F) : m.out <+: (m.onRoom roomId f).out := by
    cases he : m.rooms[roomId]? with
    | none => rw [onRoom_of_none he]
    | some e =>
      rw [onRoom_of_some he]
      exact List.prefix_append _ _
  have hall (acts : List (ℤ × RoomAct)) (m : ServerManager F) : m.out <+: (m.doAll acts).out := by
    induction acts generalizing m with
    | nil => exact List.prefix_rfl
    | cons a acts ih => exact (hroom m a.1 a.2.run).trans (ih _)
  rw [out_run]
  exact (hall (l.acts m) m).trans (List.prefix_append _ _)

/-! ### Acts -/

/-- What an act is done for. -/
inductive Label.Causes : Label → RoomAct → Prop
  | join (roomId p username fresh) : Causes (.call (.onJoinRoom roomId p username) fresh) (.join p username)
  | start (roomId p fresh) : Causes (.call (.onStartGame roomId p) fresh) (.start p)
  | leave (roomId p fresh) : Causes (.call (.onPlayerDisconnect p roomId) fresh) (.leave p)
  | input {data addr pkt} (h : ClientMsg.parse data = some (.playerInput pkt)) :
    Causes (.event (.datagram data addr)) (.input pkt addr)
  | disconnect {data addr p} (h : ClientMsg.parse data = some (.playerDisconnect p)) :
    Causes (.event (.datagram data addr)) (.disconnect p)
  | kick (p) : Causes (.event (.command (.kick p))) (.kick p)
  | pass (env) (roomId : ℤ) : Causes (.event (.pass env)) (.update (env roomId))

theorem causes_of_mem_acts {l : Label} {roomId : ℤ} {a : RoomAct} (h : (roomId, a) ∈ l.acts m) : l.Causes a := by
  have hmap {f : ℤ → RoomAct} {roomIds : List ℤ} (hmem : (roomId, a) ∈ roomIds.map fun roomId' => (roomId', f roomId')) :
      ∃ roomId', a = f roomId' := by
    obtain ⟨roomId', -, he⟩ := List.mem_map.1 hmem
    exact ⟨roomId', (Prod.mk.inj he).2.symm⟩
  cases l with
  | call c fresh =>
    cases c with
    | onJoinRoom roomId' p username =>
      simp only [Label.acts] at h
      split at h
      · obtain ⟨rfl, rfl⟩ := Prod.mk.inj (List.mem_singleton.1 h)
        exact .join ..
      · cases h
    | onStartGame roomId' p =>
      obtain ⟨rfl, rfl⟩ := Prod.mk.inj (List.mem_singleton.1 h)
      exact .start ..
    | onPlayerDisconnect p roomId' =>
      obtain ⟨rfl, rfl⟩ := Prod.mk.inj (List.mem_singleton.1 h)
      exact .leave ..
    | _ => cases h
  | event ev =>
    cases ev with
    | datagram data clientAddr =>
      simp only [Label.acts] at h
      split at h
      · rename_i pkt hparse
        obtain ⟨-, rfl⟩ := hmap h
        exact .input hparse
      · rename_i p hparse
        obtain ⟨-, rfl⟩ := hmap h
        exact .disconnect hparse
      · cases h
    | command c =>
      cases c with
      | create fresh => cases h
      | delete roomId' => cases h
      | kick p =>
        obtain ⟨-, rfl⟩ := hmap h
        exact .kick p
    | pass env =>
      obtain ⟨roomId', rfl⟩ := hmap h
      exact .pass env roomId'

end ServerManager

/-! ## Answers -/

/-- The times in what is queued as `PONG` for an address. -/
def Sent.Answers (addr : SockAddr) (T : UInt32 → Prop) (x : Sent F) : Prop :=
  ∀ timestamp, x.msg = .pong timestamp → x.addr = addr → T timestamp

namespace ServerManager

variable {addr : SockAddr} {T : UInt32 → Prop} {m : ServerManager F}

/-- All `PONG`s for an address have such times. -/
abbrev Answers (addr : SockAddr) (T : UInt32 → Prop) (m : ServerManager F) : Prop :=
  m.Holds (fun _ => True) (Sent.Answers addr T)

theorem plain_ne_pong : UdpMsg.Plain fun x : UdpMsg F => ∀ timestamp, x ≠ .pong timestamp where
  playerState _ _ _ _ _ _ he := nomatch he
  entitySpawn _ _ _ _ _ he := nomatch he
  entityUpdate _ _ _ _ he := nomatch he
  entityDestroy _ _ he := nomatch he
  playerDisconnect _ _ he := nomatch he
  youHaveBeenKicked _ he := nomatch he

theorem Answers.mono {T' : UInt32 → Prop} (h : m.Answers addr T) (hT : ∀ timestamp, T timestamp → T' timestamp) :
    m.Answers addr T' :=
  Holds.imp h (fun _ _ => trivial) fun _ hx timestamp hpong haddr => hT timestamp (hx timestamp hpong haddr)

variable [FloatOps F]

/-- **Only a `PING` is answered**, at its address, with its time. -/
theorem answers_run (h : m.Answers addr T) {l : Label}
    (hl : ∀ data timestamp, l = .event (.datagram data addr) → ClientMsg.parse data = some (.ping timestamp) → T timestamp) :
    (l.run m).Answers addr T := by
  refine Holds.run h (fun _ => trivial) (fun x hx timestamp hpong haddr => ?_) fun roomId a _ r hr => ⟨trivial, ?_⟩
  · obtain ⟨data, timestamp', hdata, hparse, hmsg⟩ := mem_pongs hx
    obtain rfl := UdpMsg.pong.inj (hmsg.symm.trans hpong)
    exact hl data timestamp' (haddr ▸ hdata) hparse
  · -- no act on a room queues a `PONG`
    obtain ⟨new, hnew, hno⟩ := a.posts plain_ne_pong (fun _ _ _ he => by cases he) (fun _ _ _ he => by cases he) r
    intro x hx timestamp hpong haddr
    rw [hnew] at hx
    rcases List.mem_append.1 hx with hx | hx
    · exact hr.out x hx timestamp hpong haddr
    · exact absurd hpong (hno x hx timestamp)

end ServerManager

/-! ## Acknowledgements -/

/-- The ticks that are kept of a player. -/
def Game.Acknowledges (own : UInt32) (T : UInt32 → Prop) (game : Game F) : Prop :=
  ∀ p ∈ game.players, p.id = own → T p.lastProcessedTick

/-- The tick that is queued about a player. -/
def Sent.Acknowledges (own : UInt32) (T : UInt32 → Prop) (x : Sent F) : Prop :=
  ∀ sequence tick px py, x.msg = .playerState own sequence tick px py → T tick

/-- What is kept of the player, and queued about it, are ticks with a property. -/
abbrev Room.Acknowledges (own : UInt32) (T : UInt32 → Prop) (r : Room F) : Prop :=
  r.Holds (Game.Acknowledges own T) (Sent.Acknowledges own T)

namespace Room.Acknowledges

variable {own : UInt32} {T : UInt32 → Prop} {r r' : Room F}

/-- What says nothing about players. -/
theorem works (h : r.Acknowledges own T) (hw : r.Works r') : r'.Acknowledges own T := by
  obtain ⟨new, hnew, hsubject⟩ := hw.out
  refine ⟨fun p hp => h.game p (hw.players ▸ hp), fun m hm sequence tick x y he => ?_⟩
  rw [hnew] at hm
  rcases List.mem_append.1 hm with hm | hm
  · exact h.out m hm sequence tick x y he
  · have hnone := hsubject m hm
    rw [he] at hnone
    cases hnone

/-- What keeps the ticks of the players, and queues no state. -/
theorem of_players (h : r.Acknowledges own T)
    (hplayers : ∀ p ∈ r'.game.players, p.id = own → (∃ q ∈ r.game.players, q.id = own ∧
      q.lastProcessedTick = p.lastProcessedTick) ∨ T p.lastProcessedTick)
    (hout : ∃ new, r'.out = r.out ++ new ∧ ∀ m ∈ new, ∀ playerId sequence tick x y,
      m.msg ≠ .playerState playerId sequence tick x y) : r'.Acknowledges own T := by
  obtain ⟨new, hnew, hno⟩ := hout
  refine ⟨fun p hp hid => ?_, fun m hm sequence tick x y he => ?_⟩
  · rcases hplayers p hp hid with ⟨q, hq, hqid, htick⟩ | hT
    · exact htick ▸ h.game q hq hqid
    · exact hT
  · rw [hnew] at hm
    rcases List.mem_append.1 hm with hm | hm
    · exact h.out m hm sequence tick x y he
    · exact absurd he (hno m hm _ _ _ _ _)

/-- The players that stay are told of one that leaves. -/
theorem disconnectPlayer (h : r.Acknowledges own T) (playerId : UInt32) :
    (r.disconnectPlayer playerId).Acknowledges own T := by
  refine h.of_players (fun p hp hid => .inl ⟨p, (List.mem_filter.1 hp).1, hid, rfl⟩) ⟨_, rfl, fun m hm => ?_⟩
  obtain ⟨d, -, -, msg, hmsg, rfl⟩ := mem_announce.1 hm
  rw [List.mem_singleton.1 hmsg]
  exact fun _ _ _ _ _ he => nomatch he

/-- A state has the tick of its player. -/
theorem broadcastGameState (h : r.Acknowledges own T) : r.broadcastGameState.Acknowledges own T := by
  refine ⟨fun p hp hid => ?_, fun m hm sequence tick x y he => ?_⟩
  · obtain ⟨q, hq, rfl⟩ := List.mem_map.1 hp
    have hsame : (if q.addrSet then { q with statePacketSequence := q.statePacketSequence + 1 } else q).id = q.id ∧
        (if q.addrSet then { q with statePacketSequence := q.statePacketSequence + 1 } else q).lastProcessedTick =
          q.lastProcessedTick := by
      split <;> exact ⟨rfl, rfl⟩
    rw [hsame.2]
    exact h.game q hq (hsame.1.symm.trans hid)
  · rcases List.mem_append.1 hm with hm | hm
    · exact h.out m hm sequence tick x y he
    · obtain ⟨p, hp, hm⟩ := List.mem_flatMap.1 hm
      obtain ⟨d, -, -, msg, hmsg, rfl⟩ := mem_announce.1 hm
      rw [List.mem_singleton.1 hmsg] at he
      obtain ⟨hid, -, rfl, -, -⟩ := UdpMsg.playerState.inj he
      exact h.game p (List.mem_filter.1 hp).1 hid

variable [FloatOps F]

/-- An input of the player brings its tick. -/
theorem handlePlayerInput (h : r.Acknowledges own T) {pkt : PlayerInputPacket} (hT : pkt.playerId = own → T pkt.tick) :
    (r.handlePlayerInput pkt).Acknowledges own T := by
  cases hg : r.game.getPlayer pkt.playerId with
  | none => rwa [handlePlayerInput_of_none hg]
  | some slot =>
    have hwrite : (r.writeSlot slot (·.handle pkt)).Acknowledges own T → (r.handlePlayerInput pkt).Acknowledges own T :=
      fun hwritten => hwritten.works (handlePlayerInput_works hg)
    refine hwrite (h.of_players (fun p hp hid => ?_) ⟨[], (List.append_nil _).symm, fun m hm => nomatch hm⟩)
    obtain ⟨i, hi⟩ := List.mem_iff_getElem?.1 hp
    have hmodify : (r.game.players.modify slot (·.handle pkt))[i]? = some p := hi
    rw [List.getElem?_modify] at hmodify
    obtain ⟨q, hq, hqp⟩ := Option.map_eq_some_iff.1 hmodify
    split at hqp
    · rename_i hslot
      subst hslot hqp
      -- the slot is that of the sender
      have hsender : q.id = pkt.playerId := id_of_getPlayer hg hq
      have hqid : q.id = own := (q.handle_id pkt).symm.trans hid
      rw [q.handle_tick]
      split
      · exact .inr (hT (hsender.symm.trans hqid))
      · exact .inl ⟨q, List.mem_of_getElem? hq, hqid, rfl⟩
    · obtain rfl : q = p := hqp
      exact .inl ⟨q, List.mem_of_getElem? hq, hid, rfl⟩

omit [FloatOps F] in
theorem updatePlayerUdpAddr (h : r.Acknowledges own T) (playerId : UInt32) (addr : SockAddr) :
    Room.Acknowledges own T { r with game := r.game.updatePlayerUdpAddr playerId addr } := by
  refine h.of_players (fun p hp hid => ?_) ⟨[], (List.append_nil _).symm, fun m hm => nomatch hm⟩
  have hsame : ((r.game.updatePlayerUdpAddr playerId addr).players.map fun p => (p.id, p.lastProcessedTick)) =
      r.game.players.map fun p => (p.id, p.lastProcessedTick) := by
    unfold Game.updatePlayerUdpAddr
    split
    · exact map_modify_eq _ (fun p => by split <;> rfl) _ _
    · rfl
  have hmem : (p.id, p.lastProcessedTick) ∈ r.game.players.map fun p => (p.id, p.lastProcessedTick) :=
    hsame ▸ List.mem_map_of_mem hp
  obtain ⟨q, hq, he⟩ := List.mem_map.1 hmem
  obtain ⟨hqid, htick⟩ := Prod.mk.inj he
  exact .inl ⟨q, hq, hqid.trans hid, htick⟩

/-- **What is done to a room** brings a tick only if it is an input of the player. -/
theorem act (h : r.Acknowledges own T) (h0 : T 0) (a : RoomAct)
    (hT : ∀ pkt addr, a = .input pkt addr → pkt.playerId = own → T pkt.tick) : (a.run r).Acknowledges own T := by
  have hsame {game : Game F} (hp : ∀ p ∈ game.players, p ∈ r.game.players) :
      Room.Acknowledges own T { r with game } :=
    h.of_players (fun p hp' hid => .inl ⟨p, hp p hp', hid, rfl⟩)
      ⟨[], (List.append_nil _).symm, fun m hm => absurd hm List.not_mem_nil⟩
  cases a with
  | join p username =>
    simp only [RoomAct.run, Room.join]
    split
    · refine h.of_players (fun q hq hid => ?_) ⟨[], (List.append_nil _).symm, fun m hm => absurd hm List.not_mem_nil⟩
      rcases List.mem_append.1 hq with hq | hq
      · exact .inl ⟨q, hq, hid, rfl⟩
      · rw [List.mem_singleton.1 hq]
        exact .inr h0
    · exact h
  | leave p => exact hsame fun q hq => (List.mem_filter.1 hq).1
  | start p =>
    simp only [RoomAct.run, Room.start]
    split
    · exact hsame fun q hq => hq
    · exact h
  | input pkt addr => exact (h.updatePlayerUdpAddr pkt.playerId addr).handlePlayerInput (hT pkt addr rfl)
  | disconnect p => exact h.disconnectPlayer p
  | kick p =>
    have htold : ∀ kicked : List (Player F),
        Room.Acknowledges own T { r with out := r.out ++ announce kicked [.youHaveBeenKicked] } := by
      refine fun kicked => h.of_players (fun q hq hid => .inl ⟨q, hq, hid, rfl⟩) ⟨_, rfl, fun m hm => ?_⟩
      obtain ⟨d, -, -, msg, hmsg, rfl⟩ := mem_announce.1 hm
      rw [List.mem_singleton.1 hmsg]
      exact fun _ _ _ _ _ he => by cases he
    exact (htold _).disconnectPlayer p
  | update env =>
    refine GameThreads.update_rule (I := fun r => r.Acknowledges own T) (fun env pc r h => ?_) env h
    by_cases hpc : pc = .broadcastGameState
    · rw [hpc]
      exact h.broadcastGameState
    · exact h.works (pc.works env r hpc)

end Room.Acknowledges

namespace ServerManager

variable {own : UInt32} {T T' : UInt32 → Prop} {m : ServerManager F}

/-- The ticks that are kept of a player, or queued about it. -/
abbrev Acknowledges (own : UInt32) (T : UInt32 → Prop) (m : ServerManager F) : Prop :=
  m.Holds (Game.Acknowledges own T) (Sent.Acknowledges own T)

theorem Acknowledges.mono (h : m.Acknowledges own T) (hT : ∀ tick, T tick → T' tick) : m.Acknowledges own T' :=
  h.imp (fun _ hgame p hp hid => hT _ (hgame p hp hid))
    fun _ hx sequence tick px py hmsg => hT tick (hx sequence tick px py hmsg)

variable [FloatOps F]

/-- **Only an input of the player is acknowledged**, with its tick. -/
theorem acknowledges_run (h : m.Acknowledges own T) (h0 : T 0) {l : Label}
    (hl : ∀ data clientAddr pkt, l = .event (.datagram data clientAddr) → ClientMsg.parse data = some (.playerInput pkt) →
      pkt.playerId = own → T pkt.tick) : (l.run m).Acknowledges own T := by
  refine Holds.run h (fun _ p hp => absurd hp List.not_mem_nil) (fun x hx sequence tick px py hmsg => ?_)
    fun roomId a ha r hr => Room.Acknowledges.act hr h0 a fun pkt addr he hid => ?_
  · obtain ⟨-, timestamp, -, -, hpong⟩ := mem_pongs hx
    cases hpong.symm.trans hmsg
  · subst he
    cases causes_of_mem_acts ha with
    | input hparse => exact hl _ addr pkt rfl hparse hid

end ServerManager

end RType

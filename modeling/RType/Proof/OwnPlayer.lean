import RType.Proof.Sections
import RType.Spec.Link

/-!
# One player of a room

What the acts of a room do to one player that stays in it.

* `Room.own_handlePlayerInput`: an input of the player moves it and sets its tick.
* `LoopPc.turns`, `RoomAct.turns`: everything else works in silence as far as the player
  goes, but for at most one broadcast of all states.
* `Room.Turns.own_head`, `Room.Turns.keepsPlayer`: so it keeps the player's position and
  tick, and tells nobody anything else about it.
-/

namespace RType

variable {F : Type*}

/-! ## Slots and filters -/

/-- A write to a slot that holds no match of a filter. -/
theorem filter_modify_of_neg {α : Type*} {P : α → Bool} {f : α → α} (hf : ∀ a, P (f a) = P a) {l : List α}
    {slot : ℕ} (h : ∀ a, l[slot]? = some a → P a = false) : (l.modify slot f).filter P = l.filter P := by
  by_cases hlt : slot < l.length
  · have hP : P l[slot] = false := h _ (List.getElem?_eq_getElem hlt)
    have hsplit : l = l.take slot ++ l[slot] :: l.drop (slot + 1) := by
      rw [← List.drop_eq_getElem_cons hlt, List.take_append_drop]
    rw [List.modify_eq_take_cons_drop hlt]
    conv_rhs => rw [hsplit]
    rw [List.filter_append, List.filter_append, List.filter_cons_of_neg (by simp [hf, hP]),
      List.filter_cons_of_neg (by simp [hP])]
  · rw [List.modify_eq_self (Nat.le_of_not_lt hlt)]

/-! ## The player -/

/-- The entries of a player in the vector. -/
def Room.own (playerId : UInt32) (r : Room F) : List (Player F) := r.game.players.filter (·.id = playerId)

/-- The same position, velocity and tick. -/
structure Player.SameState (d' d : Player F) : Prop where
  x : d'.x = d.x
  y : d'.y = d.y
  velocity : d'.velocity = d.velocity
  tick : d'.lastProcessedTick = d.lastProcessedTick

/-- All that is said about the player is its position and tick. -/
def Reports (playerId : UInt32) (d : Player F) (ms : List (Sent F)) : Prop :=
  ∀ m ∈ ms, m.msg.subject = some playerId → ∃ sequence,
    m.msg = .playerState playerId sequence d.lastProcessedTick d.x d.y

/-- The player stays where it is, and its position is all that is said about it. -/
def Room.KeepsPlayer (playerId : UInt32) (r r' : Room F) : Prop :=
  ∃ new, r'.out = r.out ++ new ∧ ∀ d, r.own playerId = [d] →
    Reports playerId d new ∧ ∃ d', r'.own playerId = [d'] ∧ d'.SameState d

theorem Player.SameState.refl (d : Player F) : d.SameState d := ⟨rfl, rfl, rfl, rfl⟩

theorem Player.SameState.trans {d₁ d₂ d₃ : Player F} (h : d₁.SameState d₂) (h' : d₂.SameState d₃) :
    d₁.SameState d₃ :=
  ⟨h.x.trans h'.x, h.y.trans h'.y, h.velocity.trans h'.velocity, h.tick.trans h'.tick⟩

variable [FloatOps F]

/-! ## Inputs -/

/-- The part of `setPlayerLastProcessedTick` that concerns the player. -/
def Player.seen (p : Player F) (tick : UInt32) : Player F :=
  if p.lastProcessedTick < tick then { p with lastProcessedTick := tick } else p

/-- What an input does to its player: the statistics, the tick and the movement. -/
def Player.handle (pkt : PlayerInputPacket) (p : Player F) : Player F :=
  pkt.moves.foldl (fun p w => w.apply p) ((p.recordInput pkt.tick).seen pkt.tick)

/-- Movement changes the position only. -/
theorem Player.foldl_move (is : List Input) (p : Player F) :
    ∃ x y, (is.map SlotWrite.move).foldl (fun p w => w.apply p) p = { p with x, y } := by
  induction is generalizing p with
  | nil => exact ⟨p.x, p.y, rfl⟩
  | cons i is ih =>
    obtain ⟨x, y, h⟩ := ih (p.move i)
    refine ⟨x, y, h.trans ?_⟩
    cases i <;> rfl

theorem Player.handle_eq (pkt : PlayerInputPacket) (p : Player F) :
    ∃ x y, p.handle pkt = { (p.recordInput pkt.tick).seen pkt.tick with x, y } :=
  foldl_move _ _

omit [FloatOps F] in
theorem Player.recordInput_id (p : Player F) (tick : UInt32) : (p.recordInput tick).id = p.id := by
  unfold recordInput
  split
  · rfl
  · split <;> rfl

omit [FloatOps F] in
theorem Player.recordInput_sameState (p : Player F) (tick : UInt32) : (p.recordInput tick).SameState p := by
  unfold recordInput
  split
  · exact ⟨rfl, rfl, rfl, rfl⟩
  · split
    · exact ⟨rfl, rfl, rfl, rfl⟩
    · exact .refl p

/-- An input raises the tick of its player, or leaves it. -/
theorem Player.handle_tick (p : Player F) (pkt : PlayerInputPacket) :
    (p.handle pkt).lastProcessedTick = if p.lastProcessedTick < pkt.tick then pkt.tick else p.lastProcessedTick := by
  obtain ⟨x, y, h⟩ := p.handle_eq pkt
  rw [h, ← (p.recordInput_sameState pkt.tick).tick]
  unfold seen
  split <;> rfl

/-- What is broadcast of the player is counted elsewhere. -/
theorem Player.handle_sequence (p : Player F) (pkt : PlayerInputPacket) :
    (p.handle pkt).statePacketSequence = p.statePacketSequence := by
  have hrec : (p.recordInput pkt.tick).statePacketSequence = p.statePacketSequence := by
    unfold recordInput
    split
    · rfl
    · split <;> rfl
  obtain ⟨x, y, h⟩ := p.handle_eq pkt
  rw [h, ← hrec]
  unfold seen
  split <;> rfl

omit [FloatOps F] in
/-- `getPlayer` looks at the ids only. -/
theorem Game.getPlayer_congr {g g' : Game F} (h : g'.players.map (·.id) = g.players.map (·.id)) (playerId : UInt32) :
    g'.getPlayer playerId = g.getPlayer playerId := by
  have hids : ∀ g : Game F, g.getPlayer playerId = (g.players.map (·.id)).findIdx? (· == playerId) := fun g => by
    rw [List.findIdx?_map]
    rfl
  rw [hids, hids, h]

/-- A shot leaves the players alone. -/
theorem Room.createPlayerShot_works (r : Room F) (playerId : UInt32) : r.Works (r.createPlayerShot playerId) := by
  unfold createPlayerShot
  split
  · exact UdpOp.shoot_works r _ _ false
  · exact .refl r

theorem Room.createPlayerChargedShot_works (r : Room F) (playerId : UInt32) :
    r.Works (r.createPlayerChargedShot playerId) := by
  unfold createPlayerChargedShot
  split
  · exact UdpOp.shoot_works r _ _ true
  · exact .refl r

/-- **An input writes to the slot of its player**, and shoots. -/
theorem Room.handlePlayerInput_eq {r : Room F} {pkt : PlayerInputPacket} {slot : ℕ}
    (hg : r.game.getPlayer pkt.playerId = some slot) :
    r.handlePlayerInput pkt =
      (let r := r.writeSlot slot (·.handle pkt)
       let r := if pkt.has .pressed then r.createPlayerShot pkt.playerId else r
       if pkt.has .hold then r.createPlayerChargedShot pkt.playerId else r) := by
  have hids : (r.writeSlot slot (·.recordInput pkt.tick)).game.players.map (·.id) = r.game.players.map (·.id) :=
    r.writeSlot_ids slot fun p => p.recordInput_id pkt.tick
  rw [GameThreads.handlePlayerInput_of_getPlayer hg]
  extract_lets r₁ r₂ r₃ r₄ r₅ r₆
  have h₂ : r₂ = r₁.writeSlot slot (·.seen pkt.tick) := by
    simp only [r₂, Game.setPlayerLastProcessedTick, (Game.getPlayer_congr hids pkt.playerId).trans hg, r₁]
    rfl
  have h₃ : r₃ = r₅ := by
    simp only [r₃, foldl_writeSlot, h₂, r₁, writeSlot, List.modify_modify_eq]
    rfl
  simp only [r₄, r₆, h₃]

/-- The shots of an input leave the players alone. -/
theorem Room.handlePlayerInput_works {r : Room F} {pkt : PlayerInputPacket} {slot : ℕ}
    (hg : r.game.getPlayer pkt.playerId = some slot) :
    (r.writeSlot slot (·.handle pkt)).Works (r.handlePlayerInput pkt) := by
  rw [handlePlayerInput_eq hg]
  extract_lets r₁ r₂
  have h₂ : r₁.Works r₂ := by
    simp only [r₂]
    split
    · exact r₁.createPlayerShot_works _
    · exact .refl r₁
  split
  · exact h₂.trans (r₂.createPlayerChargedShot_works _)
  · exact h₂

/-- An input of nobody in the room does nothing. -/
theorem Room.handlePlayerInput_of_none {r : Room F} {pkt : PlayerInputPacket}
    (hg : r.game.getPlayer pkt.playerId = none) : r.handlePlayerInput pkt = r := by
  unfold handlePlayerInput
  rw [hg]

theorem SlotWrite.foldl_apply_id (ws : List SlotWrite) (p : Player F) :
    (ws.foldl (fun p w => w.apply p) p).id = p.id := by
  induction ws generalizing p with
  | nil => rfl
  | cons w ws ih => rw [List.foldl_cons, ih, w.keepsIdentity.id]

theorem Player.handle_id (pkt : PlayerInputPacket) (p : Player F) : (p.handle pkt).id = p.id := by
  rw [handle, SlotWrite.foldl_apply_id]
  unfold seen
  split <;> exact p.recordInput_id pkt.tick

omit [FloatOps F] in
/-- The slot `getPlayer` gives holds a player of that id. -/
theorem Room.id_of_getPlayer {r : Room F} {q : UInt32} {slot : ℕ} (hg : r.game.getPlayer q = some slot) {d : Player F}
    (hd : r.game.players[slot]? = some d) : d.id = q := by
  have h := getElem?_getPlayer hg
  rw [ids, List.getElem?_map, hd] at h
  exact Option.some.inj h

/-! ## Without the player -/

/-- What a room does with no input of the player and no `PLAYER_STATE` of it: what `works`
tells, changes to other players, a first address, and messages about others. -/
inductive Room.Silent (playerId : UInt32) : Room F → Room F → Prop
  | works {r r' : Room F} : r.Works r' → Silent playerId r r'
  | others {r r' : Room F} : r'.out = r.out → r'.own playerId = r.own playerId → Silent playerId r r'
  | address (r : Room F) (q : UInt32) (addr : SockAddr) :
    Silent playerId r { r with game := r.game.updatePlayerUdpAddr q addr }
  | tell (r : Room F) {new : List (Sent F)} :
    (∀ m ∈ new, m.msg.subject ≠ some playerId) → Silent playerId r { r with out := r.out ++ new }
  | trans {r₁ r₂ r₃ : Room F} : Silent playerId r₁ r₂ → Silent playerId r₂ r₃ → Silent playerId r₁ r₃

/-- The same with at most one broadcast of all states. -/
inductive Room.Turns (playerId : UInt32) : Room F → Room F → Prop
  | silent {r r' : Room F} : r.Silent playerId r' → Turns playerId r r'
  | broadcast {r r' : Room F} (r₁ : Room F) :
    r.Silent playerId r₁ → r₁.broadcastGameState.Silent playerId r' → Turns playerId r r'

omit [FloatOps F] in
/-- Telling about another player. -/
theorem Room.Silent.broadcast {playerId : UInt32} {r : Room F} {ms : List (UdpMsg F)}
    (h : ∀ m ∈ ms, m.subject ≠ some playerId) : r.Silent playerId (r.broadcast ms) := by
  refine .tell r fun m hm => ?_
  obtain ⟨_, -, -, msg, hmsg, rfl⟩ := mem_announce.1 hm
  exact h msg hmsg

omit [FloatOps F] in
/-- Taking out another player. -/
theorem Room.Silent.removePlayer {playerId : UInt32} {r : Room F} {q : UInt32} (hq : q ≠ playerId) :
    r.Silent playerId { r with game := r.game.removePlayerFromLobby q } := by
  refine .others rfl ?_
  simp only [own, Game.removePlayerFromLobby, List.filter_filter]
  refine List.filter_congr fun d _ => ?_
  by_cases hd : d.id = playerId
  · simp [hd, hq.symm]
  · simp [hd]

omit [FloatOps F] in
theorem Room.Silent.disconnectPlayer {playerId : UInt32} {r : Room F} {q : UInt32} (hq : q ≠ playerId) :
    r.Silent playerId (r.disconnectPlayer q) := by
  refine (removePlayer hq).trans (.broadcast fun m hm => ?_)
  rw [List.mem_singleton.1 hm]
  exact fun he => hq (Option.some.inj he)

/-- An input of another player. -/
theorem Room.Silent.handlePlayerInput {playerId : UInt32} {pkt : PlayerInputPacket} (h : pkt.playerId ≠ playerId)
    (r : Room F) : r.Silent playerId (r.handlePlayerInput pkt) := by
  cases hg : r.game.getPlayer pkt.playerId with
  | none =>
    rw [handlePlayerInput_of_none hg]
    exact .works (.refl r)
  | some slot =>
    have hwrite : r.Silent playerId (r.writeSlot slot (·.handle pkt)) := by
      refine .others rfl (filter_modify_of_neg (fun d => by rw [d.handle_id]) fun d hd => ?_)
      rw [id_of_getPlayer hg hd]
      simpa using h
    exact hwrite.trans (.works (handlePlayerInput_works hg))

/-- **An update broadcasts once**, if at all. -/
theorem Room.update_turns (playerId : UInt32) (r : Room F) (env : UpdateEnv) : r.Turns playerId (r.update env) := by
  unfold update
  split
  · exact .silent (.works (.refl r))
  · extract_lets r₁ r₂ r₃ r₄ r₅ r₆ r₇
    have h₂ : r.Works r₂ := r.updateEntities_works.trans r₁.handleCollision_works
    have h₅ : r₃.Works r₅ := by
      refine Works.trans (.of_eq rfl rfl rfl : r₃.Works r₄) ?_
      have hstage := r₄.bossStage_works
      simp only [r₅]
      generalize r₄.bossStage = stage at hstage ⊢
      obtain ⟨r', _ | bossMaxHP⟩ := stage
      · exact hstage
      · exact hstage.trans (r'.spawnBoss_works bossMaxHP)
    have h₆ : r₅.Works r₆ := by
      simp only [r₆]
      split
      · exact r₅.bossShoot_works _ _
      · exact .refl r₅
    exact .broadcast r₂ (.works h₂) (.works (((h₅.trans h₆).trans (r₆.enemyStage_works env)).trans (r₇.syncStage_works env)))

/-- **A section of `update`** does nothing else. -/
theorem LoopPc.turns (playerId : UInt32) (env : UpdateEnv) (r : Room F) (pc : LoopPc F) :
    r.Turns playerId (pc.run env r).1 := by
  by_cases h : pc = .broadcastGameState
  · subst h
    exact .broadcast r (.works (.refl r)) (.works (.refl _))
  · exact .silent (.works (works env r h))

/-- **Nor does what spares the player.** -/
theorem RoomAct.turns {playerId : UInt32} {a : RoomAct} (ha : a.Spares playerId) (r : Room F) :
    r.Turns playerId (a.run r) := by
  cases a with
  | join q username =>
    refine .silent ?_
    simp only [RoomAct.run, Room.join]
    split
    · refine .others rfl ?_
      have hne : (Player.new q (cText 31 username) : Player F).id ≠ playerId := ha
      simp [Room.own, Game.addPlayer, hne]
    · exact .works (.refl r)
  | leave q => exact .silent (.removePlayer ha)
  | start q =>
    refine .silent ?_
    simp only [RoomAct.run, Room.start]
    split
    · exact .others rfl rfl
    · exact .works (.refl r)
  | input pkt addr => exact .silent ((Room.Silent.address r pkt.playerId addr).trans (.handlePlayerInput ha _))
  | disconnect q => exact .silent (.disconnectPlayer ha)
  | kick q =>
    refine .silent (Room.Silent.trans (.tell r fun m hm hs => ?_) (.disconnectPlayer ha))
    obtain ⟨_, -, -, msg, hmsg, rfl⟩ := mem_announce.1 hm
    rw [List.mem_singleton.1 hmsg] at hs
    cases hs
  | update env => exact r.update_turns playerId env

/-! ## What is kept of the player -/

omit [FloatOps F]

/-- The same but for where the player is reached. -/
def Player.SameButAddress (d d' : Player F) : Prop := d' = { d with udpAddr := d'.udpAddr, addrSet := d'.addrSet }

/-- A player whose state has been broadcast. -/
def Player.counted (d : Player F) : Player F :=
  if d.addrSet then { d with statePacketSequence := d.statePacketSequence + 1 } else d

theorem Player.SameButAddress.refl (d : Player F) : d.SameButAddress d := rfl

theorem Player.SameButAddress.trans {d₁ d₂ d₃ : Player F} (h : d₁.SameButAddress d₂) (h' : d₂.SameButAddress d₃) :
    d₁.SameButAddress d₃ := by
  unfold SameButAddress at h h' ⊢
  rw [h', h]

theorem Player.SameButAddress.sameState {d d' : Player F} (h : d.SameButAddress d') : d'.SameState d := by
  rw [h]
  exact ⟨rfl, rfl, rfl, rfl⟩

theorem Player.counted_sameState (d : Player F) : d.counted.SameState d := by
  unfold counted
  split
  · exact ⟨rfl, rfl, rfl, rfl⟩
  · exact .refl d

namespace Room

variable {playerId : UInt32} {r r' : Room F}

/-- **In silence only the player's address may change.** -/
theorem Silent.own (h : r.Silent playerId r') : List.Forall₂ Player.SameButAddress (r.own playerId) (r'.own playerId) := by
  have hsame : ∀ l : List (Player F), List.Forall₂ Player.SameButAddress l l := fun l =>
    List.forall₂_same.2 fun d _ => .refl d
  induction h with
  | works h =>
    rw [Room.own, Room.own, h.players]
    exact hsame _
  | others _ hown => exact hown ▸ hsame _
  | address r q addr =>
    have hplayers : List.Forall₂ Player.SameButAddress r.game.players (r.game.updatePlayerUdpAddr q addr).players := by
      unfold Game.updatePlayerUdpAddr
      split
      · refine forall₂_modify .refl (fun d => ?_) _ _
        split
        · exact .refl d
        · rfl
      · exact hsame _
    refine List.rel_filter (fun d d' hd => ?_) hplayers
    rw [hd]
  | tell r _ => exact hsame _
  | trans _ _ ih ih' => exact forall₂_trans (fun _ _ _ => .trans) ih ih'

/-- In silence nothing is said about the player. -/
theorem Silent.out (h : r.Silent playerId r') :
    ∃ new, r'.out = r.out ++ new ∧ ∀ m ∈ new, m.msg.subject ≠ some playerId := by
  induction h with
  | works h =>
    obtain ⟨new, hout, hnew⟩ := h.out
    exact ⟨new, hout, fun m hm => by rw [hnew m hm]; exact nofun⟩
  | others hout _ => exact ⟨[], by rw [hout, List.append_nil], nofun⟩
  | address r q addr => exact ⟨[], by rw [List.append_nil], nofun⟩
  | tell r hnew => exact ⟨_, rfl, hnew⟩
  | trans _ _ ih ih' =>
    obtain ⟨new, hout, hnew⟩ := ih
    obtain ⟨new', hout', hnew'⟩ := ih'
    refine ⟨new ++ new', by rw [hout', hout, List.append_assoc], fun m hm => ?_⟩
    exact (List.mem_append.1 hm).elim (hnew m) (hnew' m)

theorem own_broadcastGameState (playerId : UInt32) (r : Room F) :
    r.broadcastGameState.own playerId = (r.own playerId).map Player.counted := by
  simp only [Room.own, Room.broadcastGameState, List.filter_map]
  congr 1
  refine List.filter_congr fun p _ => ?_
  simp only [Function.comp_apply]
  split <;> rfl

/-- **What the turns keep**: all that neither an address nor the count of broadcasts
touches. -/
theorem Turns.own {R : Player F → Player F → Prop} (htrans : ∀ a b c, R a b → R b c → R a c)
    (haddr : ∀ d d', d.SameButAddress d' → R d d') (hcounted : ∀ d, R d d.counted) (h : r.Turns playerId r') :
    List.Forall₂ R (r.own playerId) (r'.own playerId) := by
  cases h with
  | silent h => exact h.own.imp haddr
  | broadcast r₁ h h' =>
    refine forall₂_trans htrans (h.own.imp haddr) (forall₂_trans htrans ?_ (h'.own.imp haddr))
    rw [own_broadcastGameState, List.forall₂_map_right_iff]
    exact List.forall₂_same.2 fun d _ => hcounted d

/-- The same for the first entry of the player. -/
theorem Turns.own_head {P : Player F → Prop} (haddr : ∀ d d', d.SameButAddress d' → P d → P d')
    (hcounted : ∀ d, P d → P d.counted) (h : r.Turns playerId r') {d : Player F} {ds : List (Player F)}
    (hd : r.own playerId = d :: ds) (hP : P d) : ∃ d' ds', r'.own playerId = d' :: ds' ∧ P d' := by
  have hown := h.own (R := fun d d' => P d → P d') (fun _ _ _ h h' hd => h' (h hd)) haddr hcounted
  rw [hd] at hown
  obtain ⟨d', ds', hdd', -, hd'⟩ := List.forall₂_cons_left_iff.1 hown
  exact ⟨d', ds', hd', hdd' hP⟩

theorem KeepsPlayer.trans {r₁ r₂ r₃ : Room F} (h : r₁.KeepsPlayer playerId r₂) (h' : r₂.KeepsPlayer playerId r₃) :
    r₁.KeepsPlayer playerId r₃ := by
  obtain ⟨new, hout, hk⟩ := h
  obtain ⟨new', hout', hk'⟩ := h'
  refine ⟨new ++ new', by rw [hout', hout, List.append_assoc], fun d hd => ?_⟩
  obtain ⟨hr, d₁, hd₁, hs₁⟩ := hk d hd
  obtain ⟨hr', d₂, hd₂, hs₂⟩ := hk' d₁ hd₁
  refine ⟨fun m hm hsub => ?_, d₂, hd₂, hs₂.trans hs₁⟩
  rcases List.mem_append.1 hm with hm | hm
  · exact hr m hm hsub
  · obtain ⟨sequence, he⟩ := hr' m hm hsub
    exact ⟨sequence, by rw [he, hs₁.tick, hs₁.x, hs₁.y]⟩

/-- The same for a player that is in the room once. -/
theorem Silent.own_singleton (h : r.Silent playerId r') {d : Player F} (hd : r.own playerId = [d]) :
    ∃ d', r'.own playerId = [d'] ∧ d.SameButAddress d' := by
  have hown := h.own
  rw [hd] at hown
  obtain ⟨d', ds', hdd', hds, hd'⟩ := List.forall₂_cons_left_iff.1 hown
  obtain rfl := List.forall₂_nil_left_iff.1 hds
  exact ⟨d', hd', hdd'⟩

theorem Silent.keepsPlayer (h : r.Silent playerId r') : r.KeepsPlayer playerId r' := by
  obtain ⟨new, hout, hnew⟩ := h.out
  refine ⟨new, hout, fun d hd => ⟨fun m hm hs => absurd hs (hnew m hm), ?_⟩⟩
  obtain ⟨d', hd', hdd'⟩ := h.own_singleton hd
  exact ⟨d', hd', hdd'.sameState⟩

/-- **The broadcast tells the player's position and tick.** -/
theorem KeepsPlayer.broadcastGameState : r.KeepsPlayer playerId r.broadcastGameState := by
  refine ⟨_, rfl, fun d hd => ⟨fun m hm hs => ?_, d.counted, ?_, d.counted_sameState⟩⟩
  · obtain ⟨p, hp, hm⟩ := List.mem_flatMap.1 hm
    obtain ⟨_, -, -, msg, hmsg, rfl⟩ := mem_announce.1 hm
    rw [List.mem_singleton.1 hmsg] at hs ⊢
    have hpid : p.id = playerId := Option.some.inj hs
    have hmem : p ∈ r.own playerId := List.mem_filter.2 ⟨List.mem_of_mem_filter hp, by simpa using hpid⟩
    rw [hd, List.mem_singleton] at hmem
    exact ⟨p.statePacketSequence, by rw [hpid, hmem]⟩
  · rw [own_broadcastGameState, hd, List.map_singleton]

theorem Turns.keepsPlayer (h : r.Turns playerId r') : r.KeepsPlayer playerId r' := by
  cases h with
  | silent h => exact h.keepsPlayer
  | broadcast r₁ h h' => exact (h.keepsPlayer.trans .broadcastGameState).trans h'.keepsPlayer

end Room

section

variable [FloatOps F]

theorem LoopPc.keepsPlayer (playerId : UInt32) (env : UpdateEnv) (r : Room F) (pc : LoopPc F) :
    r.KeepsPlayer playerId (pc.run env r).1 := (pc.turns playerId env r).keepsPlayer

theorem RoomAct.keepsPlayer {playerId : UInt32} {a : RoomAct} (ha : a.Spares playerId) (r : Room F) :
    r.KeepsPlayer playerId (a.run r) := (a.turns ha r).keepsPlayer

omit [FloatOps F] in
/-- The first entry of the player is in the slot `getPlayer` gives. -/
theorem Room.own_split {r : Room F} {playerId : UInt32} {d : Player F} {ds : List (Player F)}
    (hd : r.own playerId = d :: ds) : ∃ before after, r.game.players = before ++ d :: after ∧
      before.filter (·.id = playerId) = [] ∧ d.id = playerId ∧ after.filter (·.id = playerId) = ds ∧
      r.game.getPlayer playerId = some before.length := by
  obtain ⟨before, after, hplayers, hbefore, hid, hafter⟩ := List.filter_eq_cons_iff.1 hd
  have hid' : d.id = playerId := by simpa using hid
  refine ⟨before, after, hplayers, List.filter_eq_nil_iff.2 hbefore, hid', hafter, ?_⟩
  have hnone : before.findIdx? (fun p => p.id == playerId) = none :=
    List.findIdx?_eq_none_iff.2 fun p hp => by simpa using hbefore p hp
  rw [Game.getPlayer, hplayers, List.findIdx?_append, hnone, List.findIdx?_cons]
  simp [hid']

/-- **The first entry of the player handles its inputs.** -/
theorem Room.players_handlePlayerInput {r : Room F} {pkt : PlayerInputPacket} {d : Player F} {before after : List (Player F)}
    (hplayers : r.game.players = before ++ d :: after) (hg : r.game.getPlayer pkt.playerId = some before.length) :
    (r.handlePlayerInput pkt).game.players = before ++ d.handle pkt :: after := by
  rw [(handlePlayerInput_works hg).players]
  simp only [writeSlot]
  rw [hplayers, List.modify_eq_take_cons_drop (by simp)]
  simp

theorem Room.own_handlePlayerInput {r : Room F} {pkt : PlayerInputPacket} {d : Player F} {ds : List (Player F)}
    (hd : r.own pkt.playerId = d :: ds) : (r.handlePlayerInput pkt).own pkt.playerId = d.handle pkt :: ds := by
  obtain ⟨before, after, hplayers, hbefore, hid, hafter, hg⟩ := own_split hd
  rw [own, players_handlePlayerInput hplayers hg, List.filter_append, hbefore, List.nil_append,
    List.filter_cons_of_pos (by simpa [Player.handle_id] using hid), hafter]

/-- **An input of the player itself**: it handles the packet, and nothing is said about it. -/
theorem Room.own_input {playerId : UInt32} {pkt : PlayerInputPacket} (hpkt : pkt.playerId = playerId) {r : Room F}
    (hr : r.out = []) {d : Player F} (hd : r.own playerId = [d]) (addr : SockAddr) :
    ∃ d' : Player F, d.SameButAddress d' ∧ ((RoomAct.input pkt addr).run r).own playerId = [d'.handle pkt] ∧
      ∀ m ∈ ((RoomAct.input pkt addr).run r).out, m.msg.subject = none := by
  subst hpkt
  set r₁ : Room F := { r with game := r.game.updatePlayerUdpAddr pkt.playerId addr }
  have hsilent : r.Silent pkt.playerId r₁ := .address r pkt.playerId addr
  obtain ⟨d', hd', hs⟩ := hsilent.own_singleton hd
  refine ⟨d', hs, own_handlePlayerInput hd', fun m hm => ?_⟩
  obtain ⟨before, _, -, -, -, -, hg⟩ := own_split hd'
  obtain ⟨new, hout, hnew⟩ := (handlePlayerInput_works hg).out
  have hwrite : (r₁.writeSlot before.length (·.handle pkt)).out = [] := hr
  have hrun : ((RoomAct.input pkt addr).run r).out = new := by
    rw [RoomAct.run, Room.input, hout, hwrite, List.nil_append]
  exact hnew m (hrun ▸ hm)

end

end RType

import RType.Lib.Window
import RType.Proof.InputCounts

/-!
# States that overtake each other

A `PLAYER_STATE` of its own gives the client the position it holds, whatever its sequence
number, and drops the inputs it acknowledges.

* `Link.Numbers`: what is on its way to a client is numbered in the order the server
  broadcast it, and acknowledges ever more.
* `RTypeClient.receiveStates_spec`: after several states the inputs that none of them
  acknowledges are applied to the position of the one that came last.
* `Link.anyOrder_iff`: so the order does not matter if and only if that one holds the
  position of the newest.
-/

namespace RType

open Lts

variable {F : Type*}

/-- What a `PLAYER_STATE` says of its player. -/
structure OwnState (F : Type*) where
  sequence : UInt32
  lastProcessedTick : UInt32
  x : F
  y : F
deriving DecidableEq

/-- The state in a packet, if it is a `PLAYER_STATE` of the player. -/
def UdpMsg.ownState (playerId : UInt32) : UdpMsg F → Option (OwnState F)
  | .playerState q sequence lastProcessedTick x y => if q = playerId then some ⟨sequence, lastProcessedTick, x, y⟩ else none
  | _ => none

/-- The states of the player among some packets, in order. -/
def ownStates (playerId : UInt32) (ms : List (UdpMsg F)) : List (OwnState F) := ms.filterMap (·.ownState playerId)

/-- The state a broadcast tells of a player. -/
def Player.ownState (d : Player F) : OwnState F := ⟨d.statePacketSequence, d.lastProcessedTick, d.x, d.y⟩

/-- `q` was broadcast after `p`. -/
def OwnState.Before (p q : OwnState F) : Prop := p.sequence < q.sequence ∧ p.lastProcessedTick ≤ q.lastProcessedTick

theorem UdpMsg.ownState_of_subject {playerId : UInt32} {m : UdpMsg F} (h : m.subject ≠ some playerId) :
    m.ownState playerId = none := by
  cases m with
  | playerState q sequence tick x y =>
    have hq : q ≠ playerId := fun he => h (congrArg some he)
    simp [UdpMsg.ownState, hq]
  | _ => rfl

theorem ownStates_eq_nil {playerId : UInt32} {ms : List (UdpMsg F)} (h : ∀ m ∈ ms, m.subject ≠ some playerId) :
    ownStates playerId ms = [] :=
  List.filterMap_eq_nil_iff.2 fun m hm => UdpMsg.ownState_of_subject (h m hm)

/-- What a room sends one client. -/
def Room.sentTo (playerId : UInt32) (sent : List (Sent F)) : List (UdpMsg F) :=
  (sent.filter (·.dest = some playerId)).map (·.msg)

namespace Room

variable {playerId : UInt32} {r r' : Room F} {d : Player F}

/-- What is announced to one player that is in the room once. -/
theorem sentTo_announce (hd : r.own playerId = [d]) (m : UdpMsg F) :
    sentTo playerId (announce r.game.players [m]) = if d.addrSet then [m] else [] := by
  have hdest : (r.game.players.filter (·.addrSet)).filter (·.id = playerId) = [d].filter (·.addrSet) := by
    rw [List.filter_comm, ← hd, own]
  have hmap : sentTo playerId (announce r.game.players [m]) =
      ((r.game.players.filter (·.addrSet)).filter (·.id = playerId)).map fun _ => m := by
    simp only [sentTo, announce, List.map_cons, List.map_nil, ← List.map_eq_flatMap, List.filter_map, List.map_map,
      Function.comp_def, Option.some.injEq]
  rw [hmap, hdest]
  cases h : d.addrSet <;> simp [h]

/-- **A broadcast tells the player its state once.** -/
theorem ownStates_broadcastGameState (hd : r.own playerId = [d]) :
    ∃ new, r.broadcastGameState.out = r.out ++ new ∧
      ownStates playerId (sentTo playerId new) = if d.addrSet then [d.ownState] else [] := by
  refine ⟨_, rfl, ?_⟩
  -- each player's state reaches the player, but only its own counts
  have hone : ∀ p : Player F, ownStates playerId (sentTo playerId (announce r.game.players
      [.playerState p.id p.statePacketSequence p.lastProcessedTick p.x p.y])) =
        if p.id = playerId then (if d.addrSet then [p.ownState] else []) else [] := fun p => by
    rw [sentTo_announce hd]
    cases d.addrSet <;> by_cases hp : p.id = playerId <;> simp [ownStates, UdpMsg.ownState, Player.ownState, hp]
  have hown : (r.game.players.filter (·.addrSet)).filter (·.id = playerId) = [d].filter (·.addrSet) := by
    rw [List.filter_comm, ← hd, own]
  have hflat : ∀ l : List (Player F), ownStates playerId (sentTo playerId (l.flatMap fun p => announce r.game.players
      [.playerState p.id p.statePacketSequence p.lastProcessedTick p.x p.y])) =
        (l.filter (·.id = playerId)).flatMap fun p => if d.addrSet then [p.ownState] else [] := by
    intro l
    induction l with
    | nil => rfl
    | cons p l ih =>
      rw [List.flatMap_cons, sentTo, List.filter_append, List.map_append, ownStates, List.filterMap_append]
      simp only [ownStates, sentTo] at ih hone
      rw [ih, hone p]
      by_cases hp : p.id = playerId <;> simp [hp]
  rw [hflat, hown]
  cases h : d.addrSet <;> simp [h]

/-- In silence the player is told no state. -/
theorem Silent.ownStates (h : r.Silent playerId r') :
    ∃ new, r'.out = r.out ++ new ∧ ownStates playerId (sentTo playerId new) = [] := by
  obtain ⟨new, hout, hnew⟩ := h.out
  refine ⟨new, hout, ownStates_eq_nil fun m hm => ?_⟩
  obtain ⟨m', hm', rfl⟩ := List.mem_map.1 hm
  exact hnew m' (List.mem_of_mem_filter hm')

/-- **What the turns tell the player**: nothing, or its state once, numbered. -/
theorem Turns.ownStates (h : r.Turns playerId r') (hr : r.out = []) (hd : r.own playerId = [d]) :
    ∃ d', r'.own playerId = [d'] ∧ d'.lastProcessedTick = d.lastProcessedTick ∧
      (ownStates playerId (sentTo playerId r'.out) = [] ∧ d'.statePacketSequence = d.statePacketSequence ∨
        ownStates playerId (sentTo playerId r'.out) = [d.ownState] ∧
          d'.statePacketSequence = d.statePacketSequence + 1) := by
  cases h with
  | silent h =>
    obtain ⟨d', hd', hdd'⟩ := h.own_singleton hd
    obtain ⟨new, hout, hnew⟩ := h.ownStates
    rw [hr, List.nil_append] at hout
    rw [hout]
    refine ⟨d', hd', ?_, .inl ⟨hnew, ?_⟩⟩ <;> rw [hdd']
  | broadcast r₁ h h' =>
    obtain ⟨d₁, hd₁, hdd₁⟩ := h.own_singleton hd
    obtain ⟨new, hout, hnew⟩ := h.ownStates
    obtain ⟨told, hout₁, htold⟩ := ownStates_broadcastGameState hd₁
    have hd₂ : r₁.broadcastGameState.own playerId = [d₁.counted] := by
      rw [own_broadcastGameState, hd₁, List.map_singleton]
    obtain ⟨d', hd', hdd'⟩ := h'.own_singleton hd₂
    obtain ⟨new', hout', hnew'⟩ := h'.ownStates
    have hstates : RType.ownStates playerId (sentTo playerId r'.out) = if d₁.addrSet then [d₁.ownState] else [] := by
      rw [hout', hout₁, hout, hr, List.nil_append, sentTo, List.filter_append, List.filter_append, List.map_append,
        List.map_append, RType.ownStates, List.filterMap_append, List.filterMap_append]
      simp only [RType.ownStates, sentTo] at hnew htold hnew'
      rw [hnew, htold, hnew', List.nil_append, List.append_nil]
    have hsame : d₁.ownState = d.ownState := by rw [hdd₁]; rfl
    rw [hstates, hsame]
    have htick : d₁.counted.lastProcessedTick = d.lastProcessedTick := by
      rw [d₁.counted_sameState.tick, hdd₁]
    refine ⟨d', hd', by rw [hdd', ← htick], ?_⟩
    by_cases ha : d₁.addrSet = true
    · refine .inr ⟨if_pos ha, ?_⟩
      rw [hdd', Player.counted, if_pos ha, hdd₁]
    · refine .inl ⟨if_neg ha, ?_⟩
      rw [hdd', Player.counted, if_neg ha, hdd₁]

end Room

/-! ## What is on its way to a client -/

variable [FloatOps F]

namespace Link

/-- Neither the clock of the inputs wraps nor the count of the states broadcast. -/
def NoWrap (s : Link F) (l : Label) : Prop :=
  s.NoTickWrap l ∧ ∀ d ∈ s.room.own s.client.myPlayerId, d.statePacketSequence.toNat + 1 < 2 ^ 32

omit [FloatOps F] in
instance decidableNoWrap (s : Link F) (l : Label) : Decidable (s.NoWrap l) :=
  inferInstanceAs (Decidable (s.NoTickWrap l ∧ ∀ d ∈ s.room.own s.client.myPlayerId, d.statePacketSequence.toNat + 1 < 2 ^ 32))

/-- The states on their way are numbered in order and acknowledge ever more, and the client
holds its inputs in order. -/
structure Numbers (playerId : UInt32) (s : Link F) : Prop where
  me : s.client.myPlayerId = playerId
  drained : s.room.out = []
  named : ∀ pkt ∈ s.inputs, pkt.playerId = playerId
  player : ∃ d, s.room.own playerId = [d] ∧ ∀ p ∈ ownStates playerId s.packets, p.Before d.ownState
  order : (ownStates playerId s.packets).Pairwise OwnState.Before
  held : s.client.pendingInputs.Pairwise fun p q => p.tick < q.tick
  held_lt : ∀ pkt ∈ s.client.pendingInputs, pkt.tick < s.client.tick

variable {playerId : UInt32} {s s' : Link F}

omit [FloatOps F] in
/-- Steps of the client that send nothing. -/
theorem Numbers.client (h : s.Numbers playerId) (c : RTypeClient F) (hme : c.myPlayerId = s.client.myPlayerId)
    (htick : c.tick = s.client.tick) (hpending : c.pendingInputs <:+ s.client.pendingInputs) {packets : List (UdpMsg F)}
    (hpackets : packets.Sublist s.packets) : { s with client := c, packets }.Numbers playerId := by
  obtain ⟨d, hd, hbefore⟩ := h.player
  have hstates : (ownStates playerId packets).Sublist (ownStates playerId s.packets) := hpackets.filterMap _
  refine { h with me := hme.trans h.me, player := ⟨d, hd, fun p hp => hbefore p (hstates.subset hp)⟩,
                  order := h.order.sublist hstates, held := h.held.sublist hpending.sublist, held_lt := ?_ }
  intro pkt hpkt
  rw [htick]
  exact h.held_lt pkt (hpending.subset hpkt)

/-- A frame that sends an input. -/
theorem Numbers.sendInput (h : s.Numbers playerId) (k : Keys) (hwrap : s.client.tick.toNat + 1 < 2 ^ 32) :
    { s with client := (s.client.sendInput k).1, inputs := s.inputs ++ [(s.client.sendInput k).2] }.Numbers playerId := by
  obtain ⟨h1, h2, h3, -, h5, h6, -⟩ := s.client.sendInput_spec k
  have hlt : s.client.tick < (s.client.sendInput k).1.tick := by
    rw [h5]
    exact lt_next hwrap
  refine { h with me := h3.trans h.me, named := ?_, held := ?_, held_lt := ?_ }
  · intro pkt hpkt
    rcases List.mem_append.1 hpkt with hm | hm
    · exact h.named pkt hm
    · rw [List.mem_singleton.1 hm, h1, h.me]
  · show (s.client.sendInput k).1.pendingInputs.Pairwise _
    rw [h6]
    split
    · refine List.pairwise_append.2 ⟨h.held, List.pairwise_singleton _ _, fun p hp q hq => ?_⟩
      rw [List.mem_singleton.1 hq, h2]
      exact h.held_lt p hp
    · exact h.held
  · intro pkt hpkt
    change pkt ∈ (s.client.sendInput k).1.pendingInputs at hpkt
    have hcases : pkt ∈ s.client.pendingInputs ∨ pkt = (s.client.sendInput k).2 := by
      rw [h6] at hpkt
      split at hpkt
      · simpa using hpkt
      · exact .inl hpkt
    rcases hcases with hm | rfl
    · exact UInt32.lt_trans (h.held_lt pkt hm) hlt
    · rw [h2]
      exact hlt

omit [FloatOps F] in
/-- Steps of the server without an input of the player. -/
theorem Numbers.serve (h : s.Numbers playerId) {r : Room F} {loop : LoopPc F} (hr : s.room.Turns playerId r)
    (hwrap : ∀ d ∈ s.room.own s.client.myPlayerId, d.statePacketSequence.toNat + 1 < 2 ^ 32) :
    ({ s with loop }.serve r).Numbers playerId := by
  obtain ⟨d, hd, hbefore⟩ := h.player
  obtain ⟨d', hd', htick, hsent⟩ := hr.ownStates h.drained hd
  have hpackets : ownStates playerId ({ s with loop }.serve r).packets =
      ownStates playerId s.packets ++ ownStates playerId (Room.sentTo playerId r.out) := by
    rw [← h.me]
    exact List.filterMap_append
  have hnext : d.statePacketSequence < d.statePacketSequence + 1 :=
    lt_next (hwrap d (by rw [h.me, hd]; exact List.mem_cons_self))
  rcases hsent with ⟨hnone, hseq⟩ | ⟨hone, hseq⟩
  · rw [hnone, List.append_nil] at hpackets
    refine { h with drained := rfl, player := ⟨d', hd', fun p hp => ?_⟩, order := hpackets ▸ h.order }
    obtain ⟨h1, h2⟩ := hbefore p (hpackets ▸ hp)
    refine ⟨?_, ?_⟩
    · show p.sequence < d'.statePacketSequence
      rw [hseq]
      exact h1
    · show p.lastProcessedTick ≤ d'.lastProcessedTick
      rw [htick]
      exact h2
  · rw [hone] at hpackets
    refine { h with drained := rfl, player := ⟨d', hd', fun p hp => ?_⟩, order := ?_ }
    · -- the one just told is the last before the next
      have hlast : p.sequence ≤ d.statePacketSequence ∧ p.lastProcessedTick ≤ d.lastProcessedTick := by
        rw [hpackets, List.mem_append, List.mem_singleton] at hp
        rcases hp with hp | rfl
        · exact ⟨UInt32.le_of_lt (hbefore p hp).1, (hbefore p hp).2⟩
        · exact ⟨UInt32.le_refl _, UInt32.le_refl _⟩
      refine ⟨?_, ?_⟩
      · show p.sequence < d'.statePacketSequence
        rw [hseq]
        exact UInt32.lt_of_le_of_lt hlast.1 hnext
      · show p.lastProcessedTick ≤ d'.lastProcessedTick
        rw [htick]
        exact hlast.2
    · rw [hpackets]
      refine List.pairwise_append.2 ⟨h.order, List.pairwise_singleton _ _, fun p hp q hq => ?_⟩
      rw [List.mem_singleton.1 hq]
      exact hbefore p hp

/-- The server handles an input: its tick does not go down, and the player is told nothing. -/
theorem Numbers.input (h : s.Numbers playerId) {pkt : PlayerInputPacket} {inputs : List PlayerInputPacket}
    (hi : s.inputs = pkt :: inputs) (addr : SockAddr) :
    ({ s with inputs }.serve ((RoomAct.input pkt addr).run s.room)).Numbers playerId := by
  obtain ⟨d, hd, hbefore⟩ := h.player
  have hpkt : pkt.playerId = playerId := h.named pkt (hi ▸ List.mem_cons_self)
  obtain ⟨d', hsame, hown, hout⟩ := Room.own_input hpkt h.drained hd addr
  have hnone : ownStates playerId (Room.sentTo playerId ((RoomAct.input pkt addr).run s.room).out) = [] := by
    refine ownStates_eq_nil fun m hm hs => ?_
    obtain ⟨m', hm', rfl⟩ := List.mem_map.1 hm
    rw [hout m' (List.mem_of_mem_filter hm')] at hs
    cases hs
  have hpackets : ownStates playerId ({ s with inputs }.serve ((RoomAct.input pkt addr).run s.room)).packets =
      ownStates playerId s.packets := by
    refine (List.filterMap_append (l := s.packets)).trans ?_
    rw [← h.me] at hnone ⊢
    exact (congrArg _ hnone).trans (List.append_nil _)
  have hafter : (d'.handle pkt).statePacketSequence = d.statePacketSequence ∧
      d.lastProcessedTick ≤ (d'.handle pkt).lastProcessedTick := by
    rw [d'.handle_sequence, d'.handle_tick, hsame]
    refine ⟨rfl, ?_⟩
    split
    · rename_i hlt
      exact UInt32.le_of_lt hlt
    · exact UInt32.le_refl _
  refine { h with drained := rfl, named := fun p hp => h.named p (hi ▸ List.mem_cons_of_mem _ hp),
                  player := ⟨_, hown, fun p hp => ?_⟩, order := hpackets ▸ h.order }
  obtain ⟨h1, h2⟩ := hbefore p (hpackets ▸ hp)
  refine ⟨?_, UInt32.le_trans h2 hafter.2⟩
  show p.sequence < (d'.handle pkt).statePacketSequence
  rw [hafter.1]
  exact h1

/-- **States are numbered in order**: one step. -/
theorem Numbers.step {l : Label} (h : s.Numbers playerId) (hC : NoWrap s l) (hs : machine.step s l = some s') :
    s'.Numbers playerId := by
  obtain ⟨hwrap, hseq⟩ := hC
  cases step_cases hs with
  | chat k hview =>
    exact h.client _ hview.myPlayerId hview.tick (hview.pendingInputs ▸ List.suffix_rfl) (.refl _)
  | send k htab hchat => exact h.sendInput k hwrap
  | @menu status hstatus => exact h.client { s.client with status } rfl rfl List.suffix_rfl (.refl _)
  | @packet now m packets hp =>
    obtain ⟨hme, htick, hpending⟩ := s.client.handlePacket_inputs now m
    exact h.client _ hme htick hpending (hp ▸ List.sublist_cons_self m packets)
  | @loss m packets hp => exact h.client s.client rfl rfl List.suffix_rfl (hp ▸ List.sublist_cons_self m packets)
  | input addr hi => exact h.input hi addr
  | loop env => exact h.serve (s.loop.turns playerId env s.room) hseq
  | act ha => exact h.serve (RoomAct.turns (h.me ▸ ha) s.room) hseq

/-- **States are numbered in order** in every run. -/
theorem numbers_run {room : Room F} {serverTimeMs : UInt32} {d : Player F} (hroom : room.own playerId = [d])
    (hout : room.out = []) {labels : List Label} (hwrap : machine.Along NoWrap (init room playerId serverTimeMs) labels)
    (hs : machine.run (init room playerId serverTimeMs) labels = some s) : s.Numbers playerId :=
  Machine.inv_along (I := fun s => s.Numbers playerId) (fun _ _ _ h hC hs => h.step hC hs) labels _ _
    { me := rfl
      drained := hout
      named := fun pkt hpkt => by rw [List.mem_singleton.1 hpkt]; rfl
      player := ⟨d, hroom, nofun⟩
      order := .nil
      held := .nil
      held_lt := nofun } hwrap hs

end Link

/-! ## Receiving states -/

namespace RTypeClient

/-- The inputs that are applied again, from a position of the server. -/
def replay (pending : List PlayerInputPacket) (p : OwnState F) : Position F :=
  pending.foldl (fun p pkt => movePosition pkt p) ⟨p.x, p.y, 0.0⟩

/-- The client handles states of its own, each at a time of its clock. -/
def receiveStates (c : RTypeClient F) (ds : List (UInt32 × OwnState F)) : RTypeClient F :=
  ds.foldl (fun c d => c.handlePacket d.1
    (.playerState c.myPlayerId d.2.sequence d.2.lastProcessedTick d.2.x d.2.y)) c

/-- In order, what is not acknowledged is above the tick. -/
theorem dropWhile_acknowledged {pending : List PlayerInputPacket} (h : pending.Pairwise fun p q => p.tick < q.tick)
    (tick : UInt32) : (pending.dropWhile fun i => i.tick ≤ tick) = pending.filter fun i => tick < i.tick := by
  have hsorted : pending.Pairwise fun i j => decide (j.tick ≤ tick) = true → decide (i.tick ≤ tick) = true := by
    refine h.imp fun {i j} hlt hj => ?_
    simp only [decide_eq_true_eq] at hj ⊢
    exact UInt32.le_of_lt (UInt32.lt_of_lt_of_le hlt hj)
  rw [Sliding.dropWhile_eq_filter hsorted]
  refine List.filter_congr fun i _ => ?_
  rw [← decide_not, decide_eq_decide]
  exact UInt32.not_le

/-- **What several states leave**: the inputs that none of them acknowledges, applied to
the position of the last. -/
theorem receiveStates_spec {c : RTypeClient F} (hplaying : c.status ≠ .gameOver)
    (hheld : c.pendingInputs.Pairwise fun p q => p.tick < q.tick) (ds : List (UInt32 × OwnState F)) :
    let c' := c.receiveStates ds
    let pending := c.pendingInputs.filter fun i => ds.all fun d => d.2.lastProcessedTick < i.tick
    c'.myPlayerId = c.myPlayerId ∧ c'.status = c.status ∧ c'.pendingInputs = pending ∧
      ∀ last, ds.getLast? = some last → c'.players[c.myPlayerId]? = some (replay pending last.2) := by
  induction ds using List.reverseRecOn with
  | nil => exact ⟨rfl, rfl, by simp [receiveStates], nofun⟩
  | append_singleton ds d ih =>
    obtain ⟨hme, hst, hpending, -⟩ := ih
    set c₁ := c.receiveStates ds
    have hlast : c.receiveStates (ds ++ [d]) =
        (c₁.recordState d.1 d.2.sequence).reconcile d.2.lastProcessedTick d.2.x d.2.y := by
      have hsnoc : c.receiveStates (ds ++ [d]) = c₁.handlePacket d.1
          (.playerState c₁.myPlayerId d.2.sequence d.2.lastProcessedTick d.2.x d.2.y) := by
        rw [receiveStates, List.foldl_append]
        rfl
      rw [hsnoc]
      simp only [handlePacket, if_true, hst, hplaying, if_false]
    have hv := c₁.recordState_sameView d.1 d.2.sequence
    obtain ⟨h1, h2, -, h4, h5⟩ := (c₁.recordState d.1 d.2.sequence).reconcile_spec d.2.lastProcessedTick d.2.x d.2.y
    -- what is dropped now is what this state acknowledges too
    have hdrop : ((c₁.recordState d.1 d.2.sequence).pendingInputs.dropWhile fun i => i.tick ≤ d.2.lastProcessedTick) =
        c.pendingInputs.filter fun i => (ds ++ [d]).all fun d => d.2.lastProcessedTick < i.tick := by
      rw [hv.pendingInputs, hpending, dropWhile_acknowledged (hheld.sublist List.filter_sublist), List.filter_filter]
      refine List.filter_congr fun i _ => ?_
      rw [List.all_append, Bool.and_comm]
      simp
    rw [hdrop] at h4 h5
    rw [hv.myPlayerId, hme] at h1 h5
    rw [hlast]
    refine ⟨h1, h2.trans (hv.status.trans hst), h4, fun last hlast => ?_⟩
    rw [List.getLast?_append, List.getLast?_singleton, Option.some_or] at hlast
    obtain rfl := Option.some.inj hlast
    exact h5

end RTypeClient

/-! ## Main result -/

namespace Link

variable {K : Type*} [ExactOps K]

/-- With exact numbers, inputs applied again lead to one place from one place only. -/
theorem replay_inj {pending : List PlayerInputPacket} {p q : OwnState K}
    (h : RTypeClient.replay pending p = RTypeClient.replay pending q) : p.x = q.x ∧ p.y = q.y := by
  have hat := congrArg Position.at h
  rw [RTypeClient.replay, RTypeClient.replay, RTypeClient.foldl_movePosition_at, RTypeClient.foldl_movePosition_at] at hat
  exact Prod.mk.inj (add_right_cancel hat)

omit [ExactOps K] in
/-- The state with the highest number is the last in order. -/
theorem highest_last {states : List (OwnState K)} (horder : states.Pairwise OwnState.Before) {highest : OwnState K}
    (hmem : highest ∈ states) (hhighest : ∀ p ∈ states, p.sequence ≤ highest.sequence) :
    ∃ before, states = before ++ [highest] := by
  obtain ⟨before, after, rfl⟩ := List.append_of_mem hmem
  cases after with
  | nil => exact ⟨before, rfl⟩
  | cons p after =>
    have hafter := (List.pairwise_cons.1 (List.pairwise_append.1 horder).2.1).1 p List.mem_cons_self
    exact absurd hafter.1 (UInt32.not_lt.2 (hhighest p (by simp)))

/-- **When the order of the states does not matter.** Some of the states on their way to a
client that plays are delivered, in any order. The client then shows its player where the
state with the highest number has it, moved by the inputs that state does not acknowledge,
as it does after delivery in order, if and only if the state delivered last holds the same
position as the one with the highest number. -/
theorem anyOrder_iff {room : Room K} {playerId serverTimeMs : UInt32} {d : Player K} (hroom : room.own playerId = [d])
    (hout : room.out = []) {labels : List Label} (hwrap : machine.Along NoWrap (init room playerId serverTimeMs) labels)
    {s : Link K} (hs : machine.run (init room playerId serverTimeMs) labels = some s)
    (hplaying : s.client.status ≠ .gameOver) {states : List (OwnState K)}
    (hstates : states.Sublist (ownStates playerId s.packets)) {highest : OwnState K} (hmem : highest ∈ states)
    (hhighest : ∀ p ∈ states, p.sequence ≤ highest.sequence) {delivered : List (UInt32 × OwnState K)}
    (hdelivered : (delivered.map (·.2)).Perm states) {last : UInt32 × OwnState K}
    (hlast : delivered.getLast? = some last) :
    ((s.client.receiveStates delivered).players[playerId]? =
        some (RTypeClient.replay (s.client.pendingInputs.filter fun i => highest.lastProcessedTick < i.tick) highest) ∧
      ∀ inOrder : List (UInt32 × OwnState K), inOrder.map (·.2) = states →
        (s.client.receiveStates delivered).players[playerId]? = (s.client.receiveStates inOrder).players[playerId]?) ↔
    last.2.x = highest.x ∧ last.2.y = highest.y := by
  have hnum := numbers_run hroom hout hwrap hs
  have horder : states.Pairwise OwnState.Before := hnum.order.sublist hstates
  obtain ⟨before, hlastly⟩ := highest_last horder hmem hhighest
  have hacks : ∀ p ∈ states, p.lastProcessedTick ≤ highest.lastProcessedTick := by
    intro p hp
    rw [hlastly] at hp horder
    rcases List.mem_append.1 hp with h | h
    · exact ((List.pairwise_append.1 horder).2.2 p h highest List.mem_cons_self).2
    · rw [List.mem_singleton.1 h]
      exact UInt32.le_refl _
  -- all the states together acknowledge what the highest does
  have hfilter : ∀ ds : List (UInt32 × OwnState K), (ds.map (·.2)).Perm states →
      (s.client.pendingInputs.filter fun i => ds.all fun d => d.2.lastProcessedTick < i.tick) =
        s.client.pendingInputs.filter fun i => highest.lastProcessedTick < i.tick := by
    intro ds hperm
    refine List.filter_congr fun i _ => ?_
    rw [Bool.eq_iff_iff, List.all_eq_true, decide_eq_true_iff]
    constructor
    · intro h
      obtain ⟨d, hd, he⟩ := List.mem_map.1 (hperm.mem_iff.2 hmem)
      rw [← he]
      exact of_decide_eq_true (h d hd)
    · intro h d hd
      exact decide_eq_true (UInt32.lt_of_le_of_lt (hacks d.2 (hperm.mem_iff.1 (List.mem_map_of_mem hd))) h)
  have hfinal : ∀ ds : List (UInt32 × OwnState K), (ds.map (·.2)).Perm states → ∀ l, ds.getLast? = some l →
      (s.client.receiveStates ds).players[playerId]? = some (RTypeClient.replay
        (s.client.pendingInputs.filter fun i => highest.lastProcessedTick < i.tick) l.2) := by
    intro ds hperm l hl
    obtain ⟨-, -, -, h⟩ := RTypeClient.receiveStates_spec hplaying hnum.held ds
    rw [← hfilter ds hperm, ← hnum.me]
    exact h l hl
  constructor
  · rintro ⟨h, -⟩
    rw [hfinal delivered hdelivered last hlast] at h
    exact replay_inj (Option.some.inj h)
  · rintro ⟨hx, hy⟩
    have hsame : (s.client.receiveStates delivered).players[playerId]? = some (RTypeClient.replay
        (s.client.pendingInputs.filter fun i => highest.lastProcessedTick < i.tick) highest) := by
      rw [hfinal delivered hdelivered last hlast, RTypeClient.replay, RTypeClient.replay, hx, hy]
    refine ⟨hsame, fun inOrder hin => ?_⟩
    -- in order the highest is the last
    have hinLast : inOrder.getLast?.map (·.2) = some highest := by
      rw [← List.getLast?_map, hin, hlastly, List.getLast?_append, List.getLast?_singleton, Option.some_or]
    obtain ⟨l, hl, he⟩ := Option.map_eq_some_iff.1 hinLast
    rw [hsame, hfinal inOrder (hin ▸ List.Perm.refl _) l hl, he]

/-- A game that player 1 has just joined, with both bosses beaten. -/
def beaten : Room ℚ := { started with boss.level := 4 }

/-- The room broadcasts, the player moves to the right, and the room broadcasts again. -/
def twoBroadcasts : List Label :=
  .input ⟨1, 1⟩ :: List.replicate 4 (.loop ⟨0, 0, 0, 0, 0⟩) ++ .keys (rightKey true) :: .input ⟨1, 1⟩ ::
    List.replicate 9 (.loop ⟨0, 0, 0, 0, 0⟩)

/-- The two states. -/
def olderState : OwnState ℚ := ⟨0, 0, (400 : ℤ), (225 : ℤ)⟩

def newerState : OwnState ℚ := ⟨1, 1000, (400 : ℤ) + (5 : ℤ), (225 : ℤ)⟩

theorem twoBroadcasts_run :
    ∃ s, machine.run (init beaten 1 1000) twoBroadcasts = some s ∧ ownStates 1 s.packets = [olderState, newerState] ∧
      s.client.status = .playing ∧ s.client.pendingInputs = [⟨1, 1000, 8⟩] :=
  ⟨_, rfl, rfl, rfl, rfl⟩

theorem twoBroadcasts_noWrap : machine.Along NoWrap (init beaten 1 1000) twoBroadcasts := by decide

/-- Delivered in order they leave the player where the newer one has it. -/
theorem anyOrder_inOrder :
    ∃ s, machine.run (init beaten 1 1000) twoBroadcasts = some s ∧
      (s.client.receiveStates [(0, olderState), (0, newerState)]).players[(1 : UInt32)]? =
        some (RTypeClient.replay (s.client.pendingInputs.filter fun i => newerState.lastProcessedTick < i.tick)
          newerState) := by
  obtain ⟨s, hs, hstates, hstatus, -⟩ := twoBroadcasts_run
  have hroom : beaten.own 1 = [Player.new 1 []] := rfl
  have hplaying : s.client.status ≠ .gameOver := by
    rw [hstatus]
    exact InGameStatus.noConfusion
  have hsub : [olderState, newerState].Sublist (ownStates 1 s.packets) := hstates ▸ .refl _
  have hmem : newerState ∈ [olderState, newerState] := List.mem_cons_of_mem _ List.mem_cons_self
  have hhighest : ∀ p ∈ [olderState, newerState], p.sequence ≤ newerState.sequence := by decide
  exact ⟨s, hs, ((anyOrder_iff hroom rfl twoBroadcasts_noWrap hs hplaying hsub hmem hhighest (.refl _) rfl).2
    ⟨rfl, rfl⟩).1⟩

/-- Delivered the other way round they leave it where the older one has it. -/
theorem overtaken :
    ∃ s, machine.run (init beaten 1 1000) twoBroadcasts = some s ∧ ownStates 1 s.packets = [olderState, newerState] ∧
      s.client.status = .playing ∧
      (s.client.receiveStates [(0, newerState), (0, olderState)]).players[(1 : UInt32)]? ≠
        some (RTypeClient.replay (s.client.pendingInputs.filter fun i => newerState.lastProcessedTick < i.tick)
          newerState) := by
  obtain ⟨s, hs, hstates, hstatus, hpending⟩ := twoBroadcasts_run
  have hroom : beaten.own 1 = [Player.new 1 []] := rfl
  have hnum := numbers_run hroom rfl twoBroadcasts_noWrap hs
  have hplaying : s.client.status ≠ .gameOver := by
    rw [hstatus]
    exact InGameStatus.noConfusion
  refine ⟨s, hs, hstates, hstatus, fun h => ?_⟩
  obtain ⟨-, -, -, hlast⟩ := RTypeClient.receiveStates_spec hplaying hnum.held [(0, newerState), (0, olderState)]
  have hboth := hlast _ rfl
  rw [hnum.me, h, Option.some.injEq, hpending] at hboth
  -- nothing is left to apply again
  have hx : newerState.x = olderState.x := by
    have hnone : RTypeClient.replay [] newerState = RTypeClient.replay [] olderState := hboth
    exact (replay_inj hnone).1
  exact absurd hx (by decide +kernel)

end Link

end RType

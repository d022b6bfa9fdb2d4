import RType.Proof.InputCounts

/-!
# Acknowledged inputs

The client drops the inputs whose ticks a `PLAYER_STATE` acknowledges. Ticks are 32 bits and
compared as they are, and 0 stands for nothing processed yet.

* `Link.Tracks`: the invariant. While each tick sent is ahead of those before it, the
  client still holds all inputs the server has not processed.
* `Link.acknowledged`: in such runs nothing is dropped early, and the server's tick is
  that of the input it has just processed.
* `Link.tickAhead_of_noTickWrap`: a clock that starts above 0 and does not wrap is such.
-/

namespace RType

open Lts

variable {F : Type*} [FloatOps F]

/-! ## Dropping from the front -/

/-- A tail that would not be dropped stays. -/
theorem suffix_dropWhile {α : Type*} {p : α → Bool} {l kept : List α} (h : kept <:+ l) (hp : ∀ a ∈ kept, p a = false) :
    kept <:+ l.dropWhile p := by
  obtain ⟨front, rfl⟩ := h
  induction front with
  | nil =>
    cases kept with
    | nil => exact List.suffix_rfl
    | cons a kept => rw [List.nil_append, List.dropWhile_cons_of_neg (by simp [hp a List.mem_cons_self])]
  | cons b front ih =>
    rw [List.cons_append, List.dropWhile_cons]
    split
    · exact ih
    · exact List.suffix_append (b :: front) kept

/-! ## Ticks -/

/-- The input has an action, so the client holds it until it is acknowledged. -/
def PlayerInputPacket.acts (pkt : PlayerInputPacket) : Bool := pkt.inputs ≠ 0

/-- `tick` is ahead of `t` as the tick of a next input: not below it, and above it if the
input has an action. -/
def Ahead (t tick : UInt32) (acts : Prop) : Prop := t ≤ tick ∧ (acts → t < tick)

namespace Link

/-- The tick of a frame is ahead of those of the inputs on their way, and of the server's
for the player. -/
def TickAhead (s : Link F) : Label → Prop
  | .keys k => k.tab = false → s.client.isChatActive = false →
      ∀ t ∈ s.inputs.map (·.tick) ++ (s.room.own s.client.myPlayerId).map (·.lastProcessedTick),
        Ahead t s.client.tick (RTypeClient.moveBits k ||| (s.client.chargeShot k).2 ≠ 0)
  | _ => True

/-- The server has processed the player's inputs up to `ack`, the others are on their way
in order, no packet acknowledges more, and the client holds what is not processed. -/
structure Tracks (playerId ack : UInt32) (s : Link F) : Prop where
  me : s.client.myPlayerId = playerId
  drained : s.room.out = []
  player : ∃ d, s.room.own playerId = [d] ∧ d.lastProcessedTick = ack
  named : ∀ pkt ∈ s.inputs, pkt.playerId = playerId
  order : s.inputs.Pairwise fun p q => Ahead p.tick q.tick (q.acts = true)
  ahead : ∀ pkt ∈ s.inputs, Ahead ack pkt.tick (pkt.acts = true)
  states : ∀ sequence tick x y, .playerState playerId sequence tick x y ∈ s.packets → tick ≤ ack
  holds : s.inputs.filter (·.acts) <:+ s.client.pendingInputs

variable {playerId ack : UInt32} {s s' : Link F}

omit [FloatOps F] in
/-- Steps of the client that send nothing and drop nothing. -/
theorem Tracks.client (h : s.Tracks playerId ack) (c : RTypeClient F) (hme : c.myPlayerId = s.client.myPlayerId)
    (hpending : c.pendingInputs = s.client.pendingInputs) {packets : List (UdpMsg F)} (hpackets : packets ⊆ s.packets) :
    { s with client := c, packets }.Tracks playerId ack :=
  { h with
    me := hme.trans h.me
    states := fun sequence tick x y hm => h.states sequence tick x y (hpackets hm)
    holds := by
      rw [hpending]
      exact h.holds }

/-- A frame that sends an input. -/
theorem Tracks.sendInput (h : s.Tracks playerId ack) {k : Keys}
    (hahead : ∀ t ∈ s.inputs.map (·.tick) ++ (s.room.own s.client.myPlayerId).map (·.lastProcessedTick),
      Ahead t s.client.tick (RTypeClient.moveBits k ||| (s.client.chargeShot k).2 ≠ 0)) :
    { s with client := (s.client.sendInput k).1, inputs := s.inputs ++ [(s.client.sendInput k).2] }.Tracks playerId ack := by
  obtain ⟨h1, h2, h3, -, -, h6, -⟩ := s.client.sendInput_spec k
  have hacts := s.client.sendInput_inputs k
  obtain ⟨d, hd, hack⟩ := h.player
  set pkt := (s.client.sendInput k).2
  rw [← hacts, ← h2] at hahead
  have hbefore : ∀ p ∈ s.inputs, Ahead p.tick pkt.tick (pkt.acts = true) := fun p hp => by
    have := hahead p.tick (List.mem_append_left _ (List.mem_map_of_mem hp))
    simpa [PlayerInputPacket.acts] using this
  have hlast : Ahead ack pkt.tick (pkt.acts = true) := by
    have := hahead ack (List.mem_append_right _ (by rw [h.me, hd, ← hack]; exact List.mem_cons_self))
    simpa [PlayerInputPacket.acts] using this
  refine { h with me := h3.trans h.me, named := ?_, order := ?_, ahead := ?_, holds := ?_ }
  · intro p hp
    rcases List.mem_append.1 hp with hp | hp
    · exact h.named p hp
    · rw [List.mem_singleton.1 hp, h1, h.me]
  · refine List.pairwise_append.2 ⟨h.order, List.pairwise_singleton _ _, fun p hp q hq => ?_⟩
    rw [List.mem_singleton.1 hq]
    exact hbefore p hp
  · intro p hp
    rcases List.mem_append.1 hp with hp | hp
    · exact h.ahead p hp
    · rw [List.mem_singleton.1 hp]
      exact hlast
  · -- the client holds the input if it has an action
    obtain ⟨front, hfront⟩ := h.holds
    show (s.inputs ++ [pkt]).filter (·.acts) <:+ (s.client.sendInput k).1.pendingInputs
    rw [h6, List.filter_append, ← hfront]
    by_cases h0 : pkt.inputs = 0
    · simp [PlayerInputPacket.acts, h0]
    · simp [PlayerInputPacket.acts, h0]

/-- A packet arrives. What it acknowledges has been processed. -/
theorem Tracks.packet (h : s.Tracks playerId ack) (now : UInt32) {m : UdpMsg F} {packets : List (UdpMsg F)}
    (hp : s.packets = m :: packets) : { s with packets, client := s.client.handlePacket now m }.Tracks playerId ack := by
  obtain ⟨hme, -⟩ := s.client.handlePacket_inputs now m
  refine { h with me := hme.trans h.me, states := ?_, holds := ?_ }
  · exact fun sequence tick x y hm => h.states sequence tick x y (hp ▸ List.mem_cons_of_mem _ hm)
  show s.inputs.filter (·.acts) <:+ (s.client.handlePacket now m).pendingInputs
  by_cases hown : m.subject = some s.client.myPlayerId
  · cases m with
    | playerState q sequence tick x y =>
      obtain rfl : q = playerId := (Option.some.inj hown).trans h.me
      simp only [RTypeClient.handlePacket, h.me, if_true]
      split
      · exact h.holds
      · have hv := s.client.recordState_sameView now sequence
        obtain ⟨-, -, -, hpending, -⟩ := (s.client.recordState now sequence).reconcile_spec tick x y
        rw [hpending, hv.pendingInputs]
        -- the inputs on their way are ahead of what the server can acknowledge
        refine suffix_dropWhile h.holds fun pkt hpkt => ?_
        obtain ⟨hmem, hacts⟩ := List.mem_filter.1 hpkt
        have htick : tick ≤ ack := h.states sequence tick x y (hp ▸ List.mem_cons_self)
        have hlt : ack < pkt.tick := (h.ahead pkt hmem).2 hacts
        exact decide_eq_false (UInt32.not_le.2 (UInt32.lt_of_le_of_lt htick hlt))
    | playerDisconnect q => exact h.holds
    | _ => cases hown
  · rcases s.client.handlePacket_sameView now m hown with hv | ⟨status, -, hst⟩
    · rw [hv.pendingInputs]
      exact h.holds
    · rw [hst]
      exact h.holds

omit [FloatOps F] in
/-- Steps of the server that keep the player. -/
theorem Tracks.serve (h : s.Tracks playerId ack) {r : Room F} {loop : LoopPc F} (hr : s.room.KeepsPlayer playerId r) :
    ({ s with loop }.serve r).Tracks playerId ack := by
  obtain ⟨new, hout, hkeep⟩ := hr
  obtain ⟨d, hd, hack⟩ := h.player
  obtain ⟨hrep, d', hd', hs⟩ := hkeep d hd
  rw [h.drained, List.nil_append] at hout
  refine { h with drained := rfl, player := ⟨d', hd', hs.tick.trans hack⟩, states := ?_ }
  intro sequence tick x y hm
  rcases List.mem_append.1 hm with hm | hm
  · exact h.states sequence tick x y hm
  · obtain ⟨m, hm', he⟩ := List.mem_map.1 hm
    have hnew : m ∈ new := hout ▸ List.mem_of_mem_filter hm'
    obtain ⟨sequence', he'⟩ := hrep m hnew (by rw [he]; rfl)
    rw [he] at he'
    cases he'
    rw [hack]
    exact UInt32.le_refl _

/-- The server handles an input: its tick is the player's from then on. -/
theorem Tracks.input (h : s.Tracks playerId ack) {pkt : PlayerInputPacket} {inputs : List PlayerInputPacket}
    (hi : s.inputs = pkt :: inputs) (addr : SockAddr) :
    ({ s with inputs }.serve ((RoomAct.input pkt addr).run s.room)).Tracks playerId pkt.tick := by
  obtain ⟨d, hd, hack⟩ := h.player
  have hpkt : pkt.playerId = playerId := h.named pkt (hi ▸ List.mem_cons_self)
  obtain ⟨d', hsame, hown, hout⟩ := Room.own_input hpkt h.drained hd addr
  have hs := hsame.sameState
  have hle : ack ≤ pkt.tick := (h.ahead pkt (hi ▸ List.mem_cons_self)).1
  have horder := h.order
  rw [hi, List.pairwise_cons] at horder
  refine { h with drained := rfl, player := ⟨_, hown, ?_⟩, named := ?_, order := horder.2, ahead := horder.1,
                  states := ?_, holds := ?_ }
  · -- the tick is not below the one before it
    rw [d'.handle_tick, hs.tick, hack]
    split
    · rfl
    · rename_i hge
      exact UInt32.le_antisymm hle (UInt32.not_lt.1 hge)
  · exact fun p hp => h.named p (hi ▸ List.mem_cons_of_mem _ hp)
  · -- the room answers an input with no packet about the player
    intro sequence tick x y hm
    rcases List.mem_append.1 hm with hm | hm
    · exact UInt32.le_trans (h.states sequence tick x y hm) hle
    · obtain ⟨m, hm', he⟩ := List.mem_map.1 hm
      have := hout m (List.mem_of_mem_filter hm')
      rw [he] at this
      cases this
  · refine List.IsSuffix.trans ?_ (hi ▸ h.holds)
    exact (List.suffix_cons pkt inputs).filter _

/-- **Nothing is dropped early**: one step. -/
theorem Tracks.step {l : Label} (h : s.Tracks playerId ack) (hC : TickAhead s l) (hs : machine.step s l = some s') :
    ∃ ack', s'.Tracks playerId ack' ∧ (ack' = ack ∨ ∃ pkt ∈ s.inputs, ack' = pkt.tick) := by
  cases step_cases hs with
  | chat k hview => exact ⟨ack, h.client _ hview.myPlayerId hview.pendingInputs (List.Subset.refl _), .inl rfl⟩
  | send k htab hchat => exact ⟨ack, h.sendInput (hC htab hchat), .inl rfl⟩
  | @menu status hstatus => exact ⟨ack, h.client { s.client with status } rfl rfl (List.Subset.refl _), .inl rfl⟩
  | packet now hp => exact ⟨ack, h.packet now hp, .inl rfl⟩
  | @loss m packets hp => exact ⟨ack, h.client s.client rfl rfl (hp ▸ List.subset_cons_self m packets), .inl rfl⟩
  | @input addr pkt inputs hi => exact ⟨pkt.tick, h.input hi addr, .inr ⟨pkt, hi ▸ List.mem_cons_self, rfl⟩⟩
  | loop env => exact ⟨ack, h.serve (s.loop.keepsPlayer playerId env s.room), .inl rfl⟩
  | act ha => exact ⟨ack, h.serve (RoomAct.keepsPlayer (h.me ▸ ha) s.room), .inl rfl⟩

/-- Before the first frame. -/
theorem tracks_init {room : Room F} {d : Player F} (hroom : room.own playerId = [d]) (hnew : d.lastProcessedTick = 0)
    (hout : room.out = []) (serverTimeMs : UInt32) : (init room playerId serverTimeMs).Tracks playerId 0 where
  me := rfl
  drained := hout
  player := ⟨d, hroom, hnew⟩
  named := fun pkt hpkt => by rw [List.mem_singleton.1 hpkt]; rfl
  order := List.pairwise_singleton _ _
  ahead := fun pkt hpkt => by
    rw [List.mem_singleton.1 hpkt]
    exact ⟨UInt32.le_refl _, fun h => absurd h Bool.false_ne_true⟩
  states := fun sequence tick x y hm => nomatch hm
  holds := List.nil_suffix

/-! ## Clocks that do not wrap -/

/-- An input on its way was there before, or has the tick of the frame. -/
theorem step_inputs {l : Label} (hwrap : NoTickWrap s l) (hs : machine.step s l = some s') :
    s.client.tick ≤ s'.client.tick ∧
      ∀ pkt ∈ s'.inputs, pkt ∈ s.inputs ∨ pkt.tick = s.client.tick ∧ s.client.tick < s'.client.tick := by
  cases step_cases hs with
  | chat k hview => exact ⟨UInt32.le_of_eq hview.tick.symm, fun pkt hp => .inl hp⟩
  | send k htab hchat =>
    obtain ⟨-, h2, -, -, h5, -, -⟩ := s.client.sendInput_spec k
    have hlt : s.client.tick < (s.client.sendInput k).1.tick := by
      rw [h5]
      exact lt_next hwrap
    refine ⟨UInt32.le_of_lt hlt, fun pkt hp => ?_⟩
    rcases List.mem_append.1 hp with hp | hp
    · exact .inl hp
    · exact .inr ⟨by rw [List.mem_singleton.1 hp, h2], hlt⟩
  | packet now hp =>
    exact ⟨UInt32.le_of_eq (s.client.handlePacket_inputs now _).2.1.symm, fun pkt hp => .inl hp⟩
  | @input addr pkt inputs hi => exact ⟨UInt32.le_refl _, fun pkt' hp => .inl (hi ▸ List.mem_cons_of_mem pkt hp)⟩
  | menu _ | loss _ | loop _ | act _ => exact ⟨UInt32.le_refl _, fun pkt hp => .inl hp⟩

/-- The clock of the client is past all ticks sent. -/
structure Behind (playerId ack : UInt32) (s : Link F) : Prop extends s.Tracks playerId ack where
  ack_lt : ack < s.client.tick
  inputs_lt : ∀ pkt ∈ s.inputs, pkt.tick < s.client.tick

omit [FloatOps F] in
theorem Behind.tickAhead (h : s.Behind playerId ack) (l : Label) : TickAhead s l := by
  cases l with
  | keys k =>
    intro _ _ t ht
    suffices hlt : t < s.client.tick from ⟨UInt32.le_of_lt hlt, fun _ => hlt⟩
    rcases List.mem_append.1 ht with ht | ht
    · obtain ⟨pkt, hpkt, rfl⟩ := List.mem_map.1 ht
      exact h.inputs_lt pkt hpkt
    · obtain ⟨d, hd, hack⟩ := h.player
      rw [h.me, hd, List.map_singleton, List.mem_singleton, hack] at ht
      exact ht ▸ h.ack_lt
  | _ => trivial

theorem Behind.step {l : Label} (h : s.Behind playerId ack) (hwrap : NoTickWrap s l) (hs : machine.step s l = some s') :
    ∃ ack', s'.Behind playerId ack' := by
  obtain ⟨ack', h', hack⟩ := h.toTracks.step (h.tickAhead l) hs
  obtain ⟨htick, hinputs⟩ := step_inputs hwrap hs
  refine ⟨ack', { h' with ack_lt := UInt32.lt_of_lt_of_le ?_ htick, inputs_lt := fun pkt hpkt => ?_ }⟩
  · rcases hack with rfl | ⟨pkt, hpkt, rfl⟩
    · exact h.ack_lt
    · exact h.inputs_lt pkt hpkt
  · rcases hinputs pkt hpkt with hpkt | ⟨he, hlt⟩
    · exact UInt32.lt_of_lt_of_le (h.inputs_lt pkt hpkt) htick
    · exact he ▸ hlt

/-- **A clock that starts above 0 and does not wrap** keeps the ticks ahead. -/
theorem tickAhead_of_noTickWrap {room : Room F} {playerId serverTimeMs : UInt32} {d : Player F}
    (hroom : room.own playerId = [d]) (hnew : d.lastProcessedTick = 0) (hout : room.out = []) (hT : 0 < serverTimeMs)
    {labels : List Label} (hwrap : machine.Along NoTickWrap (init room playerId serverTimeMs) labels) :
    machine.Along TickAhead (init room playerId serverTimeMs) labels := by
  have hinit : (init room playerId serverTimeMs).Behind playerId 0 :=
    { tracks_init hroom hnew hout serverTimeMs with
      ack_lt := hT
      inputs_lt := fun pkt hpkt => by rw [List.mem_singleton.1 hpkt]; exact hT }
  refine Machine.along_of_forall fun pre l post t he ht => ?_
  rw [he] at hwrap
  obtain ⟨ack, h⟩ : ∃ ack, t.Behind playerId ack :=
    Machine.inv_along (I := fun s => ∃ ack, s.Behind playerId ack) (fun s l s' ⟨_, h⟩ hC hs => h.step hC hs)
      pre _ _ ⟨0, hinit⟩ (hwrap.upTo (List.prefix_append _ _) ht) ht
  exact h.tickAhead l

/-! ## Main result -/

/-- **Acknowledgements.** In every run that keeps the ticks ahead, the client still holds
the inputs the server has not processed, and an input the server processes becomes its
tick for the player. -/
theorem acknowledged {room : Room F} {playerId serverTimeMs : UInt32} {d : Player F} (hroom : room.own playerId = [d])
    (hnew : d.lastProcessedTick = 0) (hout : room.out = []) {labels : List Label}
    (hahead : machine.Along TickAhead (init room playerId serverTimeMs) labels) {s : Link F}
    (hs : machine.run (init room playerId serverTimeMs) labels = some s) :
    s.inputs.filter (·.acts) <:+ s.client.pendingInputs ∧
      ∀ addr s', machine.step s (.input addr) = some s' → ∃ pkt inputs d', s.inputs = pkt :: inputs ∧
        s'.room.own playerId = [d'] ∧ d'.lastProcessedTick = pkt.tick := by
  obtain ⟨ack, h⟩ : ∃ ack, s.Tracks playerId ack :=
    Machine.inv_along (I := fun s => ∃ ack, s.Tracks playerId ack) (fun s l s' ⟨_, h⟩ hC hs => by
      obtain ⟨ack', h', -⟩ := h.step hC hs
      exact ⟨ack', h'⟩) labels _ _ ⟨0, tracks_init hroom hnew hout serverTimeMs⟩ hahead hs
  refine ⟨h.holds, fun addr s' hstep => ?_⟩
  cases step_cases hstep with
  | @input _ pkt inputs hi =>
    obtain ⟨d', hd', htick⟩ := (h.input hi addr).player
    exact ⟨pkt, inputs, d', hi, hd', htick⟩

/-- The player moves to the right before the server has heard of it, and broadcasts. -/
def broadcastFirst : List Label :=
  .keys (rightKey true) :: .input ⟨1, 1⟩ :: List.replicate 4 (.loop ⟨0, 0, 0, 0, 0⟩)

/-- With the clock at 1000 the client still holds the input. -/
theorem acknowledged_at_1000 :
    ∃ s : Link ℚ, machine.run (init started 1 1000) (broadcastFirst ++ [.packet 0]) = some s ∧
      s.inputs.filter (·.acts) <:+ s.client.pendingInputs ∧ s.inputs.filter (·.acts) = [⟨1, 1000, 8⟩] := by
  have hroom : started.own 1 = [Player.new 1 []] := rfl
  have hwrap : machine.Along NoTickWrap (init started 1 1000) (broadcastFirst ++ [.packet 0]) := by
    refine .cons rfl ?_ (.cons rfl trivial (.cons rfl trivial (.cons rfl trivial (.cons rfl trivial (.cons rfl trivial
      (.cons rfl trivial .nil))))))
    decide
  have hahead := tickAhead_of_noTickWrap hroom rfl rfl (by decide) hwrap
  exact ⟨_, rfl, (acknowledged hroom rfl rfl hahead rfl).1, rfl⟩

/-- With the clock at 0 the first state the server broadcasts makes the client drop an
input that the server has not processed. -/
theorem dropped_at_zero :
    ∃ s : Link ℚ, machine.run (init started 1 0) (broadcastFirst ++ [.packet 0]) = some s ∧
      s.inputs = [⟨1, 0, 8⟩] ∧ s.client.pendingInputs = [] ∧
      ∃ d, s.room.own 1 = [d] ∧ d.lastProcessedTick = 0 ∧ d.x = (400 : ℤ) :=
  ⟨_, rfl, rfl, rfl, _, rfl, rfl, rfl⟩

/-- When the clock wraps, the server's tick stays at the highest. -/
example :
    ∃ s : Link ℚ, machine.run (init started 1 4294967295) [.keys (rightKey true), .keys (rightKey true),
        .input ⟨1, 1⟩, .input ⟨1, 1⟩] = some s ∧ s.inputs = [⟨1, 0, 8⟩] ∧
      ∃ s' d, machine.step s (.input ⟨1, 1⟩) = some s' ∧ s'.room.own 1 = [d] ∧ d.lastProcessedTick = 4294967295 :=
  ⟨_, rfl, rfl, _, _, rfl, rfl, rfl⟩

end Link

end RType

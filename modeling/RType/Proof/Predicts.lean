import Mathlib.Algebra.Group.Prod
import Mathlib.Data.Rat.Lemmas
import Mathlib.Tactic.Abel
import RType.Lib.Prediction
import RType.Proof.ClientInputs

/-!
# The client predicts its position

With exact numbers a client and its room refine `Prediction`: `Abstracts` reads the
abstract state off a `Link`, `abstracts_step` matches each step by abstract ones.

* `predicted`: after the first `PLAYER_STATE` of its own the client shows its player where
  the server has it, moved by the inputs on their way.
-/

namespace RType

open Lts

variable {F : Type*} [ExactOps F]

/-! ## Movement -/

/-- How far an input moves its player. -/
def PlayerInputPacket.shift (F : Type*) [ExactOps F] (pkt : PlayerInputPacket) : F × F :=
  ((if pkt.has .right then 5 else 0) - (if pkt.has .left then 5 else 0),
    (if pkt.has .down then 5 else 0) - (if pkt.has .up then 5 else 0))

omit [ExactOps F] in
/-- Where the client shows a player. -/
def Position.at (p : Position F) : F × F := (p.x, p.y)

omit [ExactOps F] in
/-- Where the server has a player. -/
def Player.at (p : Player F) : F × F := (p.x, p.y)

theorem PlayerInputPacket.shift_of_zero {pkt : PlayerInputPacket} (h : pkt.inputs = 0) : pkt.shift F = 0 := by
  simp [shift, has_of_zero h]

namespace RTypeClient

theorem movePosition_at (pkt : PlayerInputPacket) (p : Position F) :
    (movePosition pkt p).at = p.at + pkt.shift F := by
  have h5 : ((5 : ℤ) : F) = 5 := Int.cast_ofNat 5
  by_cases h1 : pkt.has .up = true <;> by_cases h2 : pkt.has .down = true <;>
    by_cases h3 : pkt.has .left = true <;> by_cases h4 : pkt.has .right = true <;>
      simp only [movePosition, PlayerInputPacket.shift, Position.at, h1, h2, h3, h4, if_true, if_false,
        Bool.false_eq_true, h5, Prod.mk_add_mk, Prod.mk.injEq] <;> constructor <;> abel

theorem foldl_movePosition_at (pkts : List PlayerInputPacket) (p : Position F) :
    (pkts.foldl (fun p pkt => movePosition pkt p) p).at = p.at + (pkts.map (·.shift F)).sum := by
  induction pkts generalizing p with
  | nil => simp
  | cons pkt pkts ih => rw [List.foldl_cons, ih, movePosition_at, List.map_cons, List.sum_cons, add_assoc]

end RTypeClient

/-! ## The server -/

theorem Player.handle_at {p : Player F} (hv : p.velocity = ((5 : ℤ) : F)) (pkt : PlayerInputPacket) :
    (p.handle pkt).at = p.at + pkt.shift F ∧ (p.handle pkt).velocity = ((5 : ℤ) : F) ∧
      (p.handle pkt).lastProcessedTick.toNat = max p.lastProcessedTick.toNat pkt.tick.toNat := by
  -- what is recorded of an input moves nobody
  set q := (p.recordInput pkt.tick).seen pkt.tick with hq
  have hrec := p.recordInput_sameState pkt.tick
  have hqv : q.velocity = ((5 : ℤ) : F) := by
    rw [← hv, ← hrec.velocity, hq]
    unfold seen
    split <;> rfl
  have hqat : q.at = p.at := by
    rw [hq, Player.at, Player.at, ← hrec.x, ← hrec.y]
    unfold seen
    split <;> rfl
  have htick : (p.handle pkt).lastProcessedTick.toNat = max p.lastProcessedTick.toNat pkt.tick.toNat := by
    rw [p.handle_tick pkt]
    split
    · rename_i hlt
      exact (max_eq_right (UInt32.lt_iff_toNat_lt.1 hlt).le).symm
    · rename_i hle
      exact (max_eq_left (Nat.le_of_not_lt fun h => hle (UInt32.lt_iff_toNat_lt.2 h))).symm
  have hvelocity : (p.handle pkt).velocity = ((5 : ℤ) : F) := by
    obtain ⟨x, y, h⟩ := p.handle_eq pkt
    rw [h]
    exact hqv
  refine ⟨?_, hvelocity, htick⟩
  have h5 : ((5 : ℤ) : F) = 5 := Int.cast_ofNat 5
  rw [← hqat, handle, ← hq]
  -- each direction moves by the velocity, which is 5
  by_cases h1 : pkt.has .up = true <;> by_cases h2 : pkt.has .down = true <;>
    by_cases h3 : pkt.has .left = true <;> by_cases h4 : pkt.has .right = true <;>
      simp only [PlayerInputPacket.moves, PlayerInputPacket.shift, List.filter_cons, List.filter_nil, List.map_cons,
        List.map_nil, List.foldl_cons, List.foldl_nil, SlotWrite.apply, move, Player.at, h1, h2, h3, h4, if_true,
        if_false, Bool.false_eq_true, hqv, h5, Prod.mk_add_mk, Prod.mk.injEq] <;> constructor <;> abel

/-! ## The abstraction -/

/-- An input as a command. -/
def PlayerInputPacket.cmd (F : Type*) [ExactOps F] (pkt : PlayerInputPacket) : Prediction.Cmd (F × F) where
  tick := pkt.tick.toNat
  move := pkt.shift F
  kept := pkt.inputs ≠ 0
  idle := fun h => shift_of_zero (by simpa using h)

omit [ExactOps F] in
/-- A packet as a snapshot, if it is a `PLAYER_STATE` of the player. -/
def UdpMsg.snapshot (playerId : UInt32) : UdpMsg F → Option (ℕ × (F × F))
  | .playerState q _ lastProcessedTick x y => if q = playerId then some (lastProcessedTick.toNat, (x, y)) else none
  | _ => none

/-- The abstract state `u` of a link. -/
structure Link.Abstracts (playerId : UInt32) (s : Link F) (u : Prediction.State (F × F)) : Prop where
  me : s.client.myPlayerId = playerId
  drained : s.room.out = []
  player : ∃ d, s.room.own playerId = [d] ∧ d.velocity = ((5 : ℤ) : F) ∧ u.pos = d.at ∧
    u.ack = d.lastProcessedTick.toNat
  named : ∀ pkt ∈ s.inputs, pkt.playerId = playerId
  commands : u.commands = s.inputs.map (·.cmd F)
  stays : ∀ m ∈ s.packets, m ≠ .playerDisconnect playerId
  snapshots : u.snapshots = s.packets.filterMap (·.snapshot playerId)
  alive : s.client.status ≠ .gameOver
  tick : u.tick = s.client.tick.toNat
  pending : u.pending = s.client.pendingInputs.map (·.cmd F)
  shown : u.shown = (s.client.players[playerId]?).map (·.at)

namespace Link

variable {playerId : UInt32} {s s' : Link F} {u : Prediction.State (F × F)}

/-- The clock of the inputs does not wrap. -/
def NoTickWrap (s : Link F) : Label → Prop
  | .keys _ => s.client.tick.toNat + 1 < 2 ^ 32
  | _ => True

omit [ExactOps F] in
instance (s : Link F) (l : Label) : Decidable (s.NoTickWrap l) := by
  cases l <;> unfold NoTickWrap <;> infer_instance

/-- Steps of the client that prediction does not see. -/
theorem Abstracts.client (h : s.Abstracts playerId u) {c : RTypeClient F} (hc : s.client.SameView c) :
    { s with client := c }.Abstracts playerId u :=
  { h with
    me := hc.myPlayerId.trans h.me
    alive := fun he => h.alive (hc.status.symm.trans he)
    tick := by rw [h.tick, ← hc.tick]
    pending := by rw [h.pending, ← hc.pendingInputs]
    shown := by rw [h.shown, ← h.me, ← hc.players] }

/-- A change of the menu. -/
theorem Abstracts.menu (h : s.Abstracts playerId u) {status : InGameStatus} (hst : status ≠ .gameOver) :
    { s with client.status := status }.Abstracts playerId u :=
  { h with alive := hst }

/-- A frame that sends an input. -/
theorem Abstracts.sendInput (h : s.Abstracts playerId u) (k : Keys) (hwrap : s.client.tick.toNat + 1 < 2 ^ 32) :
    ∃ labels u', Prediction.machine.run u labels = some u' ∧
      { s with client := (s.client.sendInput k).1, inputs := s.inputs ++ [(s.client.sendInput k).2] }.Abstracts
        playerId u' := by
  obtain ⟨h1, h2, h3, h4, h5, h6, h7⟩ := s.client.sendInput_spec k
  set c' := (s.client.sendInput k).1
  set pkt := (s.client.sendInput k).2
  have hcmd : (⟨u.tick, pkt.shift F, pkt.inputs ≠ 0, (pkt.cmd F).idle⟩ : Prediction.Cmd (F × F)) = pkt.cmd F := by
    simp only [PlayerInputPacket.cmd, h.tick, h2]
  refine ⟨[.send (pkt.shift F) (pkt.inputs ≠ 0) (pkt.cmd F).idle], _, rfl, ?_⟩
  refine { h with me := h3.trans h.me, named := ?_, commands := ?_, alive := ?_, tick := ?_, pending := ?_, shown := ?_ }
  · intro pkt' hpkt'
    rcases List.mem_append.1 hpkt' with hm | hm
    · exact h.named pkt' hm
    · rw [List.mem_singleton.1 hm, h1, h.me]
  · simp only [h.commands, hcmd, List.map_append, List.map_cons, List.map_nil]
  · exact fun he => h.alive (h4.symm.trans he)
  · show u.tick + 1 = c'.tick.toNat
    rw [h5, h.tick, UInt32.toNat_add]
    exact (Nat.mod_eq_of_lt hwrap).symm
  · simp only [hcmd, h6, h.pending]
    by_cases h0 : pkt.inputs = 0
    · simp [h0]
    · simp [h0]
  · show u.shown.map (· + pkt.shift F) = (c'.players[playerId]?).map (·.at)
    rw [← h.me, h7, h.shown, h.me, Option.map_map, Option.map_map]
    congr 1
    funext p
    exact (RTypeClient.movePosition_at pkt p).symm

/-- A packet arrives. -/
theorem Abstracts.packet (h : s.Abstracts playerId u) (now : UInt32) {m : UdpMsg F} {packets : List (UdpMsg F)}
    (hp : s.packets = m :: packets) :
    ∃ labels u', Prediction.machine.run u labels = some u' ∧
      { s with packets, client := s.client.handlePacket now m }.Abstracts playerId u' := by
  have hstays : ∀ m ∈ packets, m ≠ .playerDisconnect playerId := fun m hm =>
    h.stays m (hp ▸ List.mem_cons_of_mem _ hm)
  have hsnap := h.snapshots
  rw [hp, List.filterMap_cons] at hsnap
  by_cases hown : m.subject = some playerId
  · -- only `PLAYER_STATE` is left of the packets about the player
    obtain ⟨sequence, tick, x, y, rfl⟩ : ∃ sequence tick x y, m = .playerState playerId sequence tick x y := by
      cases m with
      | playerState q sequence tick x y => exact ⟨sequence, tick, x, y, by rw [Option.some.inj hown]⟩
      | playerDisconnect q => exact absurd (by rw [Option.some.inj hown]) (h.stays _ (hp ▸ List.mem_cons_self))
      | _ => cases hown
    have hhead : (UdpMsg.playerState playerId sequence tick x y).snapshot playerId = some (tick.toNat, (x, y)) :=
      if_pos rfl
    rw [hhead] at hsnap
    have hv := s.client.recordState_sameView now sequence
    obtain ⟨h1, h2, h3, h4, h5⟩ := (s.client.recordState now sequence).reconcile_spec tick x y
    have hc : s.client.handlePacket now (.playerState playerId sequence tick x y) =
        (s.client.recordState now sequence).reconcile tick x y := by
      simp only [RTypeClient.handlePacket, h.me, if_true, h.alive, if_false]
    -- both sides drop the inputs that the packet acknowledges
    have hdrop : (u.pending.dropWhile fun c => c.tick ≤ tick.toNat) =
        (s.client.pendingInputs.dropWhile fun i => i.tick ≤ tick).map (·.cmd F) := by
      rw [h.pending, List.dropWhile_map]
      rfl
    rw [hv.pendingInputs] at h4 h5
    refine ⟨[.deliver], { u with
      pending := u.pending.dropWhile fun c => c.tick ≤ tick.toNat
      shown := some ((x, y) + Prediction.moved (u.pending.dropWhile fun c => c.tick ≤ tick.toNat))
      snapshots := packets.filterMap (·.snapshot playerId) }, ?_, ?_⟩
    · rw [Prediction.machine.run_cons_iff]
      refine ⟨_, ?_, rfl⟩
      simp only [Prediction.machine, Prediction.step, hsnap]
    · rw [hc]
      refine { h with me := h1.trans (hv.myPlayerId.trans h.me), stays := hstays, snapshots := rfl, alive := ?_,
                      tick := ?_, pending := ?_, shown := ?_ }
      · rw [h2, hv.status]
        exact h.alive
      · rw [h3, hv.tick]
        exact h.tick
      · rw [h4]
        exact hdrop
      · rw [← h.me, ← hv.myPlayerId, h5, Option.map_some, RTypeClient.foldl_movePosition_at]
        simp only [hdrop, Prediction.moved, List.map_map]
        rfl
  · -- a packet that is not about the player leaves its view alone
    have hnone : m.snapshot playerId = none := by
      cases m with
      | playerState q sequence tick x y => exact if_neg fun hq => hown (congrArg some hq)
      | _ => rfl
    rw [hnone] at hsnap
    refine ⟨[], u, rfl, ?_⟩
    have hrest : { s with packets }.Abstracts playerId u := { h with stays := hstays, snapshots := hsnap }
    rcases s.client.handlePacket_sameView now m (h.me ▸ hown) with hv | ⟨status, hst, hc⟩
    · exact hrest.client hv
    · rw [hc]
      exact hrest.menu hst

/-- A packet is lost. -/
theorem Abstracts.loss (h : s.Abstracts playerId u) {m : UdpMsg F} {packets : List (UdpMsg F)}
    (hp : s.packets = m :: packets) :
    ∃ labels u', Prediction.machine.run u labels = some u' ∧ { s with packets }.Abstracts playerId u' := by
  have hstays : ∀ m ∈ packets, m ≠ .playerDisconnect playerId := fun m hm =>
    h.stays m (hp ▸ List.mem_cons_of_mem _ hm)
  have hsnap := h.snapshots
  rw [hp, List.filterMap_cons] at hsnap
  cases hm : m.snapshot playerId with
  | none =>
    rw [hm] at hsnap
    exact ⟨[], u, rfl, { h with stays := hstays, snapshots := hsnap }⟩
  | some a =>
    rw [hm] at hsnap
    refine ⟨[.lose], { u with snapshots := packets.filterMap (·.snapshot playerId) }, ?_,
      { h with stays := hstays, snapshots := rfl }⟩
    rw [Prediction.machine.run_cons_iff]
    refine ⟨_, ?_, rfl⟩
    simp only [Prediction.machine, Prediction.step, hsnap]

/-- Taking several snapshots. -/
theorem run_snapshots (u : Prediction.State (F × F)) (n : ℕ) :
    Prediction.machine.run u (List.replicate n .snapshot) =
      some { u with snapshots := u.snapshots ++ List.replicate n (u.ack, u.pos) } := by
  induction n generalizing u with
  | zero => simp
  | succ n ih =>
    rw [List.replicate_succ, Prediction.machine.run_cons_iff]
    refine ⟨_, rfl, (ih _).trans ?_⟩
    rw [List.replicate_succ, List.append_assoc]
    rfl

omit [ExactOps F] in
/-- What is said about the player, as snapshots. -/
theorem filterMap_reports {d : Player F} {ms : List (Sent F)} (hr : Reports playerId d ms) :
    ∃ n, (ms.map (·.msg)).filterMap (·.snapshot playerId) = List.replicate n (d.lastProcessedTick.toNat, d.at) ∧
      ∀ m ∈ ms, m.msg ≠ .playerDisconnect playerId := by
  refine ⟨_, List.eq_replicate_iff.2 ⟨rfl, fun a ha => ?_⟩, fun m hm he => ?_⟩
  · obtain ⟨msg, hmsg, hs⟩ := List.mem_filterMap.1 ha
    obtain ⟨m, hm, rfl⟩ := List.mem_map.1 hmsg
    have hsub : m.msg.subject = some playerId := by
      cases hc : m.msg with
      | playerState q sequence tick x y =>
        rw [hc] at hs
        by_cases hq : q = playerId
        · exact congrArg some hq
        · simp [UdpMsg.snapshot, hq] at hs
      | _ => rw [hc] at hs; cases hs
    obtain ⟨sequence, he⟩ := hr m hm hsub
    rw [he, UdpMsg.snapshot, if_pos rfl] at hs
    exact (Option.some.inj hs).symm
  · obtain ⟨sequence, he'⟩ := hr m hm (by rw [he]; rfl)
    rw [he] at he'
    cases he'

/-- **A step of the server** that keeps the player: it takes some snapshots. -/
theorem Abstracts.serve (h : s.Abstracts playerId u) {r : Room F} (hr : s.room.KeepsPlayer playerId r) :
    ∃ labels u', Prediction.machine.run u labels = some u' ∧ (s.serve r).Abstracts playerId u' := by
  obtain ⟨new, hout, hkeep⟩ := hr
  obtain ⟨d, hd, hv, hpos, hack⟩ := h.player
  obtain ⟨hrep, d', hd', hs⟩ := hkeep d hd
  rw [h.drained, List.nil_append] at hout
  have hrep' : Reports playerId d (r.out.filter (·.dest = some s.client.myPlayerId)) := fun m hm =>
    hrep m (hout ▸ List.mem_of_mem_filter hm)
  obtain ⟨n, hn, hstays⟩ := filterMap_reports hrep'
  refine ⟨_, _, run_snapshots u n, ?_⟩
  refine { h with drained := rfl, player := ⟨d', hd', hs.velocity.trans hv, ?_, ?_⟩, stays := ?_, snapshots := ?_ }
  · rw [Player.at, hs.x, hs.y]
    exact hpos
  · rw [hs.tick]
    exact hack
  · intro m hm
    rcases List.mem_append.1 hm with hm | hm
    · exact h.stays m hm
    · obtain ⟨m', hm', rfl⟩ := List.mem_map.1 hm
      exact hstays m' hm'
  · show u.snapshots ++ _ = _
    rw [Link.serve, List.filterMap_append, hn, h.snapshots, hpos, hack]

/-- The server handles an input of the client. -/
theorem Abstracts.input (h : s.Abstracts playerId u) {pkt : PlayerInputPacket} {inputs : List PlayerInputPacket}
    (hi : s.inputs = pkt :: inputs) (addr : SockAddr) :
    ∃ labels u', Prediction.machine.run u labels = some u' ∧
      ({ s with inputs }.serve ((RoomAct.input pkt addr).run s.room)).Abstracts playerId u' := by
  obtain ⟨d, hd, hv, hpos, hack⟩ := h.player
  have hpkt : pkt.playerId = playerId := h.named pkt (hi ▸ List.mem_cons_self)
  obtain ⟨d', hsame, hown, hout⟩ := Room.own_input hpkt h.drained hd addr
  have hs := hsame.sameState
  obtain ⟨hat, hvel, htick⟩ := Player.handle_at (hs.velocity.trans hv) pkt
  have hcmd := h.commands
  rw [hi, List.map_cons] at hcmd
  refine ⟨[.process], { u with
    commands := inputs.map (·.cmd F)
    ack := max u.ack pkt.tick.toNat
    pos := u.pos + pkt.shift F }, ?_, ?_⟩
  · rw [Prediction.machine.run_cons_iff]
    refine ⟨_, ?_, rfl⟩
    simp only [Prediction.machine, Prediction.step, hcmd]
    rfl
  · -- the room answers an input with no packet about the player
    have hnew : ∀ m ∈ (((RoomAct.input pkt addr).run s.room).out.filter (·.dest = some s.client.myPlayerId)).map (·.msg),
        m.subject = none := by
      intro m hm
      obtain ⟨m', hm', rfl⟩ := List.mem_map.1 hm
      exact hout m' (List.mem_of_mem_filter hm')
    refine { h with drained := rfl, player := ⟨_, hown, hvel, ?_, ?_⟩, named := ?_, commands := rfl, stays := ?_,
                    snapshots := ?_ }
    · rw [hat, hpos, Player.at, Player.at, hs.x, hs.y]
    · rw [htick, hack, hs.tick]
    · exact fun pkt' hm => h.named pkt' (hi ▸ List.mem_cons_of_mem _ hm)
    · intro m hm
      rcases List.mem_append.1 hm with hm | hm
      · exact h.stays m hm
      · rintro rfl
        exact absurd (hnew _ hm) (by simp [UdpMsg.subject])
    · have hnone : ((((RoomAct.input pkt addr).run s.room).out.filter
          (·.dest = some s.client.myPlayerId)).map (·.msg)).filterMap (·.snapshot playerId) = [] := by
        refine List.filterMap_eq_nil_iff.2 fun m hm => ?_
        have h0 := hnew m hm
        cases m with
        | playerState q sequence tick x y => cases h0
        | _ => rfl
      show u.snapshots = _
      rw [Link.serve, List.filterMap_append, hnone, List.append_nil]
      exact h.snapshots

/-- **The link refines prediction**: each of its steps is matched by abstract ones. -/
theorem abstracts_step {l : Label} (h : s.Abstracts playerId u) (hC : NoTickWrap s l)
    (hs : machine.step s l = some s') :
    ∃ labels u', Prediction.machine.run u labels = some u' ∧ s'.Abstracts playerId u' := by
  cases step_cases hs with
  | chat k hview => exact ⟨[], u, rfl, h.client hview⟩
  | send k htab hchat => exact h.sendInput k hC
  | menu hstatus => exact ⟨[], u, rfl, h.menu hstatus⟩
  | packet now hp => exact h.packet now hp
  | loss hp => exact h.loss hp
  | input addr hi => exact h.input hi addr
  | loop env =>
    -- the room works on its own, and what it sends is on its way
    exact Abstracts.serve (s := { s with loop := (s.loop.run env s.room).2 }) { h with }
      (s.loop.keepsPlayer playerId env s.room)
  | act ha => exact h.serve (RoomAct.keepsPlayer (h.me ▸ ha) s.room)

/-! ## Main result -/

/-- The client shows its player where the server has it, moved by the inputs on their
way. -/
def Predicted (playerId : UInt32) (s : Link F) : Prop :=
  ∃ pos d, s.client.players[playerId]? = some pos ∧ s.room.own playerId = [d] ∧
    pos.at = d.at + (s.inputs.map (·.shift F)).sum

/-- The abstract state of a client that has just sent its first packet. -/
def initial (playerId serverTimeMs : UInt32) (d : Player F) : Prediction.State (F × F) where
  tick := serverTimeMs.toNat
  pending := []
  shown := none
  commands := [(RTypeClient.firstPacket playerId).cmd F]
  ack := 0
  pos := d.at
  snapshots := []

theorem abstracts_init {room : Room F} {username : List UInt8} (hroom : room.own playerId = [Player.new playerId username])
    (hout : room.out = []) (serverTimeMs : UInt32) :
    (init room playerId serverTimeMs).Abstracts playerId (initial playerId serverTimeMs (Player.new playerId username)) where
  me := rfl
  drained := hout
  player := ⟨_, hroom, rfl, rfl, rfl⟩
  named := fun pkt hpkt => by rw [List.mem_singleton.1 hpkt]; rfl
  commands := rfl
  stays := fun m hm => nomatch hm
  snapshots := rfl
  alive := InGameStatus.noConfusion
  tick := rfl
  pending := rfl
  shown := (congrArg (Option.map _) Std.TreeMap.getElem?_emptyc).symm

/-- The first packet is acknowledged from the start. -/
theorem sound_initial {serverTimeMs : UInt32} (hT : 0 < serverTimeMs.toNat) (d : Player F) :
    Prediction.Sound (initial playerId serverTimeMs d) [] where
  pending := by simp [initial, PlayerInputPacket.cmd, RTypeClient.firstPacket]
  sorted := List.Pairwise.nil
  sent := List.pairwise_singleton _ _
  next := fun c hc => by rw [List.mem_singleton.1 hc]; exact hT
  acked := fun c hc => nomatch hc
  ahead := fun c hc hk => by
    rw [List.mem_singleton.1 hc] at hk
    simp [PlayerInputPacket.cmd, RTypeClient.firstPacket] at hk
  current := hT
  order := List.Pairwise.nil
  past := fun a ha => nomatch ha
  holds := fun a ha => nomatch ha
  shown := fun q hq => nomatch hq

/-- A `PLAYER_STATE` of its own that arrives gives the client a position. -/
theorem shown_packet {now sequence tick : UInt32} {x y : F} {packets : List (UdpMsg F)} (h : s.Abstracts playerId u)
    (hp : s.packets = .playerState playerId sequence tick x y :: packets) (hs : machine.step s (.packet now) = some s') :
    s'.client.players[playerId]?.isSome = true := by
  simp only [machine, step, hp, Option.some.injEq] at hs
  subst hs
  have hv := s.client.recordState_sameView now sequence
  obtain ⟨-, -, -, -, h5⟩ := (s.client.recordState now sequence).reconcile_spec tick x y
  simp only [RTypeClient.handlePacket, h.me, if_true, h.alive, if_false]
  rw [← h.me, ← hv.myPlayerId, h5]
  rfl

/-- **Prediction is sound.** From the first `PLAYER_STATE` of its own on, in every run, the
client shows its player where the server has it, moved by the inputs on their way. -/
theorem predicted (room : Room F) (playerId serverTimeMs : UInt32) (username : List UInt8)
    (hroom : room.own playerId = [Player.new playerId username]) (hout : room.out = []) (hT : 1 ≤ serverTimeMs.toNat)
    (before after : List Label) (now : UInt32) (s t : Link F) (sequence tick : UInt32) (x y : F)
    (packets : List (UdpMsg F))
    (hwrap : machine.Along NoTickWrap (init room playerId serverTimeMs) (before ++ .packet now :: after))
    (hbefore : machine.run (init room playerId serverTimeMs) before = some s)
    (hs : s.packets = .playerState playerId sequence tick x y :: packets)
    (hafter : machine.run s (.packet now :: after) = some t) : t.Predicted playerId := by
  -- the abstract run, up to the packet, over it, and after it
  obtain ⟨as₁, u₁, hr₁, hA₁⟩ := Machine.simulate (C := NoTickWrap) (fun s l s' u h hC hs => abstracts_step h hC hs)
    before _ s _ (abstracts_init hroom hout serverTimeMs) (hwrap.upTo ⟨_, rfl⟩ hbefore) hbefore
  obtain ⟨s₂, hstep, hafter⟩ := machine.run_cons_iff.1 hafter
  obtain ⟨as₂, u₂, hr₂, hA₂⟩ := abstracts_step hA₁ (hwrap.at hbefore) hstep
  have hwrap₂ : machine.Along NoTickWrap s₂ after := ((Machine.along_append hbefore).1 hwrap).2.2 s₂ hstep
  obtain ⟨as₃, u₃, hr₃, hA₃⟩ := Machine.simulate (C := NoTickWrap) (fun s l s' u h hC hs => abstracts_step h hC hs)
    after s₂ t u₂ hA₂ hwrap₂ hafter
  have hrun : Prediction.machine.run (initial playerId serverTimeMs (Player.new playerId username))
      (as₁ ++ (as₂ ++ as₃)) = some u₃ :=
    Prediction.machine.run_append_iff.2 ⟨u₁, hr₁, Prediction.machine.run_append_iff.2 ⟨u₂, hr₂, hr₃⟩⟩
  -- from the packet on the client shows a position
  have hshown₂ : u₂.shown.isSome = true := by
    rw [hA₂.shown, Option.isSome_map]
    exact shown_packet hA₁ hs hstep
  obtain ⟨q, hq⟩ := Option.isSome_iff_exists.1 (Machine.inv_run (M := Prediction.machine)
    (I := fun u => u.shown.isSome = true) (fun u l u' h hs => Prediction.shows_step h hs) as₃ u₂ u₃ hshown₂ hr₃)
  have hpredicts := Prediction.predicts ⟨[], sound_initial hT _⟩ hrun hq
  rw [hA₃.shown, Option.map_eq_some_iff] at hq
  obtain ⟨pos, hpos, rfl⟩ := hq
  obtain ⟨d, hd, -, hat, -⟩ := hA₃.player
  refine ⟨pos, d, hpos, hd, ?_⟩
  rw [hpredicts, hat, hA₃.commands, Prediction.moved, List.map_map]
  rfl

/-! ## A run -/

/-- A game that player 1 has just started. -/
def started : Room ℚ :=
  ⟨{ (Game.new 0 : Game ℚ).addPlayer 1 [] with status := .playing }, Boss.none, []⟩

/-- No key but perhaps the one to the right. -/
def rightKey (right : Bool) : Keys :=
  ⟨false, false, false, [], false, false, false, right, false, false, 0⟩

/-- The client moves to the right, the server hears of it and broadcasts, and the client
moves on. -/
def upToBroadcast : List Label :=
  .input ⟨1, 1⟩ :: .keys (rightKey true) :: .input ⟨1, 1⟩ :: List.replicate 4 (.loop ⟨0, 0, 0, 0, 0⟩) ++
    [.keys (rightKey true)]

/-- What was broadcast arrives, and the client moves once more. -/
theorem predicted_right :
    ∃ t, machine.run (init started 1 1000) (upToBroadcast ++ .packet 0 :: [.keys (rightKey true)]) = some t ∧
      t.Predicted 1 := by
  refine ⟨_, rfl, predicted started 1 1000 [] rfl rfl (by decide) upToBroadcast [.keys (rightKey true)] 0
    _ _ _ _ _ _ _ ?_ rfl rfl rfl⟩
  refine .cons rfl trivial (.cons rfl ?_ (.cons rfl trivial ?_))
  · decide
  refine .cons rfl trivial (.cons rfl trivial (.cons rfl trivial (.cons rfl trivial ?_)))
  refine .cons rfl ?_ (.cons rfl trivial (.cons rfl ?_ .nil))
  · decide
  · decide

end Link

end RType

import RType.Proof.OwnPlayer

/-!
# A client and its inputs

What the steps of a client do to its clock, to the inputs it keeps and to its own
player, over any type of numbers.

* `sendInput_spec`: a frame sends one input, numbered by the clock.
* `reconcile_spec`: a `PLAYER_STATE` of its own drops what it acknowledges and applies the
  rest again.
* `handlePacket_sameView`: any other packet leaves all of it alone.
* `Link.step_cases`: what a step of the link does.
-/

namespace RType

/-- A counter that does not wrap goes up. -/
theorem lt_next {t : UInt32} (h : t.toNat + 1 < 2 ^ 32) : t < t + 1 := by
  rw [UInt32.lt_iff_toNat_lt, UInt32.toNat_add]
  show t.toNat < (t.toNat + 1) % 2 ^ 32
  rw [Nat.mod_eq_of_lt h]
  exact Nat.lt_succ_self _

variable {F : Type*} [FloatOps F]

theorem PlayerInputPacket.has_of_zero {pkt : PlayerInputPacket} (h : pkt.inputs = 0) (i : Input) : pkt.has i = false := by
  rw [has, h]
  cases i <;> decide

namespace RTypeClient

omit [FloatOps F] in
/-- The same inputs sent and kept. -/
structure SameInputs (c c' : RTypeClient F) : Prop where
  myPlayerId : c'.myPlayerId = c.myPlayerId
  status : c'.status = c.status
  tick : c'.tick = c.tick
  pendingInputs : c'.pendingInputs = c.pendingInputs

omit [FloatOps F] in
/-- The same to a player of the game, as far as the own player goes. -/
structure SameView (c c' : RTypeClient F) : Prop extends SameInputs c c' where
  players : c'.players[c.myPlayerId]? = c.players[c.myPlayerId]?

omit [FloatOps F] in
theorem SameInputs.trans {c₁ c₂ c₃ : RTypeClient F} (h : c₁.SameInputs c₂) (h' : c₂.SameInputs c₃) : c₁.SameInputs c₃ :=
  ⟨h'.myPlayerId.trans h.myPlayerId, h'.status.trans h.status, h'.tick.trans h.tick,
    h'.pendingInputs.trans h.pendingInputs⟩

omit [FloatOps F] in
theorem typeChat_sameView (c : RTypeClient F) (k : Keys) : c.SameView (c.typeChat k).1 := by
  unfold typeChat
  split
  · split <;> exact ⟨⟨rfl, rfl, rfl, rfl⟩, rfl⟩
  · exact ⟨⟨rfl, rfl, rfl, rfl⟩, rfl⟩

omit [FloatOps F] in
theorem chargeShot_sameView (c : RTypeClient F) (k : Keys) : c.SameView (c.chargeShot k).1 := by
  unfold chargeShot
  split
  · split <;> exact ⟨⟨rfl, rfl, rfl, rfl⟩, rfl⟩
  · split <;> exact ⟨⟨rfl, rfl, rfl, rfl⟩, rfl⟩

theorem recordState_sameView (c : RTypeClient F) (now sequence : UInt32) : c.SameView (c.recordState now sequence) := by
  unfold recordState
  extract_lets lostCount c'
  have h : c.SameView c' := by
    simp only [c']
    split
    · exact ⟨⟨rfl, rfl, rfl, rfl⟩, rfl⟩
    · split <;> exact ⟨⟨rfl, rfl, rfl, rfl⟩, rfl⟩
  exact ⟨⟨h.myPlayerId, h.status, h.tick, h.pendingInputs⟩, h.players⟩

/-- An input applied to the own player. -/
theorem applyInput_spec (c : RTypeClient F) (pkt : PlayerInputPacket) :
    c.SameInputs (c.applyInput pkt) ∧
      (c.applyInput pkt).players[c.myPlayerId]? = (c.players[c.myPlayerId]?).map (movePosition pkt) := by
  unfold applyInput
  cases hp : c.players[c.myPlayerId]? with
  | none => exact ⟨⟨rfl, rfl, rfl, rfl⟩, hp⟩
  | some p => exact ⟨⟨rfl, rfl, rfl, rfl⟩, Std.TreeMap.getElem?_insert_self⟩

/-- Several inputs applied to the own player. -/
theorem foldl_applyInput (pkts : List PlayerInputPacket) (c : RTypeClient F) :
    c.SameInputs (pkts.foldl applyInput c) ∧
      (pkts.foldl applyInput c).players[c.myPlayerId]? =
        (c.players[c.myPlayerId]?).map (fun p => pkts.foldl (fun p pkt => movePosition pkt p) p) := by
  induction pkts generalizing c with
  | nil => exact ⟨⟨rfl, rfl, rfl, rfl⟩, by simp⟩
  | cons pkt pkts ih =>
    obtain ⟨h1, h2⟩ := c.applyInput_spec pkt
    obtain ⟨h3, h4⟩ := ih (c.applyInput pkt)
    refine ⟨h1.trans h3, ?_⟩
    rw [h1.myPlayerId, h2, Option.map_map] at h4
    exact h4

theorem movePosition_of_zero {pkt : PlayerInputPacket} (h : pkt.inputs = 0) (p : Position F) : movePosition pkt p = p := by
  simp [movePosition, PlayerInputPacket.has_of_zero h]

/-- **A frame sends one input**, numbered by the tick, keeps it unless it is empty, and
applies it to the own player. -/
theorem sendInput_spec (c : RTypeClient F) (k : Keys) :
    let c' := (c.sendInput k).1
    let pkt := (c.sendInput k).2
    pkt.playerId = c.myPlayerId ∧ pkt.tick = c.tick ∧ c'.myPlayerId = c.myPlayerId ∧ c'.status = c.status ∧
      c'.tick = c.tick + 1 ∧ c'.pendingInputs = (if pkt.inputs ≠ 0 then c.pendingInputs ++ [pkt] else c.pendingInputs) ∧
      c'.players[c.myPlayerId]? = (c.players[c.myPlayerId]?).map (movePosition pkt) := by
  have hv := chargeShot_sameView { c with tick := c.tick + 1 } k
  dsimp only [sendInput]
  generalize ({ c with tick := c.tick + 1 } : RTypeClient F).chargeShot k = charged at hv ⊢
  obtain ⟨c₁, shot⟩ := charged
  obtain ⟨⟨hme, hst, htick, hpend⟩, hpl⟩ := hv
  dsimp only at hme hst htick hpend hpl ⊢
  -- an input of no bits is sent but not kept, and moves nobody
  by_cases h0 : moveBits k ||| shot = 0
  · refine ⟨?_, ?_, ?_⟩ <;> simp only [h0, ne_eq, not_true_eq_false, if_false]
    · rw [hme]
    refine ⟨hme, hst, htick, hpend, ?_⟩
    rw [hpl]
    cases c.players[c.myPlayerId]? with
    | none => rfl
    | some p => exact congrArg some (movePosition_of_zero rfl p).symm
  · obtain ⟨⟨hme', hst', htick', hpend'⟩, hpl'⟩ := c₁.applyInput_spec ⟨c₁.myPlayerId, c.tick, moveBits k ||| shot⟩
    refine ⟨?_, ?_, ?_⟩ <;> simp only [h0, ne_eq, not_false_eq_true, if_true]
    · rw [hme]
    refine ⟨hme'.trans hme, hst'.trans hst, htick'.trans htick, by rw [hpend', hpend], ?_⟩
    rw [← hpl, ← hme]
    exact hpl'

/-- The actions of a frame. -/
theorem sendInput_inputs (c : RTypeClient F) (k : Keys) :
    (c.sendInput k).2.inputs = moveBits k ||| (c.chargeShot k).2 := by
  have hshot : (({ c with tick := c.tick + 1 } : RTypeClient F).chargeShot k).2 = (c.chargeShot k).2 := by
    unfold chargeShot
    split
    · rfl
    · split <;> rfl
  rw [← hshot]
  dsimp only [sendInput]
  split <;> rfl

/-- **A `PLAYER_STATE` of the own player**: the kept inputs it does not acknowledge are
applied to the position it holds. -/
theorem reconcile_spec (c : RTypeClient F) (lastProcessedTick : UInt32) (x y : F) :
    let pending := c.pendingInputs.dropWhile fun i => i.tick ≤ lastProcessedTick
    let c' := c.reconcile lastProcessedTick x y
    c'.myPlayerId = c.myPlayerId ∧ c'.status = c.status ∧ c'.tick = c.tick ∧ c'.pendingInputs = pending ∧
      c'.players[c.myPlayerId]? = some (pending.foldl (fun p pkt => movePosition pkt p) ⟨x, y, 0.0⟩) := by
  intro pending c'
  obtain ⟨⟨hme, hst, htick, hpend⟩, hpl⟩ := foldl_applyInput pending
    { c with players := c.players.insert c.myPlayerId ⟨x, y, 0.0⟩, pendingInputs := pending }
  rw [Std.TreeMap.getElem?_insert_self, Option.map_some] at hpl
  exact ⟨hme, hst, htick, hpend, hpl⟩

/-- **Any other packet** leaves the own player alone, unless it says that it is gone. -/
theorem handlePacket_sameView (c : RTypeClient F) (now : UInt32) (m : UdpMsg F)
    (hown : m.subject ≠ some c.myPlayerId) : c.SameView (c.handlePacket now m) ∨
      ∃ status, status ≠ .gameOver ∧ c.handlePacket now m = { c with status } := by
  cases m with
  | playerState q sequence tick x y =>
    have hq : q ≠ c.myPlayerId := fun h => hown (congrArg some h)
    simp only [handlePacket, hq, if_false]
    exact .inl ⟨⟨rfl, rfl, rfl, rfl⟩, (Maps.getElem?_insert _ _ _ _).trans (if_neg hq.symm)⟩
  | playerDisconnect q =>
    have hq : q ≠ c.myPlayerId := fun h => hown (congrArg some h)
    refine .inl ⟨⟨rfl, if_neg hq, rfl, rfl⟩, ?_⟩
    simp only [handlePacket]
    rw [Maps.getElem?_erase, if_neg hq.symm]
  | entityUpdate entityId x y =>
    simp only [handlePacket]
    split <;> exact .inl ⟨⟨rfl, rfl, rfl, rfl⟩, rfl⟩
  | youHaveBeenKicked => exact .inr ⟨.kicked, by decide, rfl⟩
  | entitySpawn _ _ _ _ | entityDestroy _ | pong _ | globalStateSync _ _ | bossState _ _ =>
    exact .inl ⟨⟨rfl, rfl, rfl, rfl⟩, rfl⟩

/-- No packet touches the clock of the inputs, and it drops inputs from the front, if any. -/
theorem handlePacket_inputs (c : RTypeClient F) (now : UInt32) (m : UdpMsg F) :
    (c.handlePacket now m).myPlayerId = c.myPlayerId ∧ (c.handlePacket now m).tick = c.tick ∧
      (c.handlePacket now m).pendingInputs <:+ c.pendingInputs := by
  cases m with
  | playerState q sequence tick x y =>
    simp only [handlePacket]
    split
    · split
      · exact ⟨rfl, rfl, List.suffix_rfl⟩
      · have hv := c.recordState_sameView now sequence
        obtain ⟨hme, -, htick, hpending, -⟩ := (c.recordState now sequence).reconcile_spec tick x y
        refine ⟨hme.trans hv.myPlayerId, htick.trans hv.tick, ?_⟩
        rw [hpending, hv.pendingInputs]
        exact List.dropWhile_suffix _
    · exact ⟨rfl, rfl, List.suffix_rfl⟩
  | entityUpdate entityId x y =>
    simp only [handlePacket]
    split <;> exact ⟨rfl, rfl, List.suffix_rfl⟩
  | entitySpawn _ _ _ _ | entityDestroy _ | playerDisconnect _ | pong _ | globalStateSync _ _ | youHaveBeenKicked
  | bossState _ _ => exact ⟨rfl, rfl, List.suffix_rfl⟩

end RTypeClient

namespace Link

open Lts

/-- What a step of the link does, label by label. -/
inductive Step (s : Link F) : Label → Link F → Prop
  | chat (k : Keys) {client : RTypeClient F} (hview : s.client.SameView client) : Step s (.keys k) { s with client }
  | send (k : Keys) (htab : k.tab = false) (hchat : s.client.isChatActive = false) :
      Step s (.keys k) { s with
        client := (s.client.sendInput k).1
        inputs := s.inputs ++ [(s.client.sendInput k).2] }
  | menu {status : InGameStatus} (hstatus : status ≠ .gameOver) :
      Step s (.menu status) { s with client := { s.client with status } }
  | packet (now : UInt32) {m : UdpMsg F} {packets : List (UdpMsg F)} (hp : s.packets = m :: packets) :
      Step s (.packet now) { s with packets, client := s.client.handlePacket now m }
  | loss {m : UdpMsg F} {packets : List (UdpMsg F)} (hp : s.packets = m :: packets) : Step s .loss { s with packets }
  | input (addr : SockAddr) {pkt : PlayerInputPacket} {inputs : List PlayerInputPacket} (hi : s.inputs = pkt :: inputs) :
      Step s (.input addr) ({ s with inputs }.serve ((RoomAct.input pkt addr).run s.room))
  | loop (env : UpdateEnv) :
      Step s (.loop env) ({ s with loop := (s.loop.run env s.room).2 }.serve (s.loop.run env s.room).1)
  | act {a : RoomAct} (ha : a.Spares s.client.myPlayerId) : Step s (.act a) (s.serve (a.run s.room))

/-- **Every step of the link** is one of these. -/
theorem step_cases {s s' : Link F} {l : Label} (hs : machine.step s l = some s') : Step s l s' := by
  cases l with
  | keys k =>
    simp only [machine, Link.step] at hs
    split at hs
    · cases hs
    obtain rfl := Option.some.inj hs
    unfold RTypeClient.handleInput
    split
    · simp only [Option.toList_none, List.append_nil]
      exact .chat k ⟨⟨rfl, rfl, rfl, rfl⟩, rfl⟩
    · rename_i htab
      split
      · simp only [Option.toList_none, List.append_nil]
        exact .chat k (s.client.typeChat_sameView k)
      · rename_i hchat
        exact .send k (eq_false_of_ne_true htab) (eq_false_of_ne_true hchat)
  | menu status =>
    simp only [machine, Link.step] at hs
    split at hs
    · cases hs
    · rename_i hstatus
      obtain rfl := Option.some.inj hs
      exact .menu fun he => hstatus (.inl he)
  | packet now =>
    simp only [machine, Link.step] at hs
    split at hs
    · rename_i m packets hp
      obtain rfl := Option.some.inj hs
      exact .packet now hp
    · cases hs
  | loss =>
    simp only [machine, Link.step] at hs
    split at hs
    · rename_i m packets hp
      obtain rfl := Option.some.inj hs
      exact .loss hp
    · cases hs
  | input addr =>
    simp only [machine, Link.step] at hs
    split at hs
    · rename_i pkt inputs hi
      obtain rfl := Option.some.inj hs
      exact .input addr hi
    · cases hs
  | loop env =>
    obtain rfl := Option.some.inj hs
    exact .loop env
  | act a =>
    simp only [machine, Link.step] at hs
    split at hs
    · rename_i ha
      obtain rfl := Option.some.inj hs
      exact .act ha
    · cases hs

end Link

end RType

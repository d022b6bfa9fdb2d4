import Mathlib.Data.List.Induction
import RType.Lib.Machine
import RType.Proof.ClientInputs
import RType.Spec.ClientTick

/-!
# Games that are left

A client leaves its game by a `PLAYER_DISCONNECT`: in the frame in which an entity kills its
player, or from the pause menu. It goes on ticking.

* `Gone`: the own player is no longer known, and the game has ended for this client;
  `receiveAll_gone`, `exists_receiveAll_present`: the receive loop keeps it so unless it handles a
  state of the own player while the status is not `GAME_OVER`.
* `tick_of_ended`, `tick_gone`: what a frame does once the game has ended; `enter_of_dies`,
  `tick_of_not_dies`: how a client leaves.
* `leftForGood_iff`: **a client that has left sends no more input, and its player does not
  come back, if and only if each frame from the death on is a quiet one.**
-/

namespace RType

open Lts

variable {F : Type*}

/-! ## The receive loop -/

/-- The messages that the receive loop handles. -/
def heard (float : UInt32 → F) : List (UInt32 × List UInt8) → List (UdpMsg F)
  | [] => []
  | (_, datagram) :: rest =>
    if (receiveMessage datagram).isNone then []
    else ((receiveMessage datagram).bind (UdpMsg.parse float)).toList ++ heard float rest

/-- The message is a state of the player `own`. -/
def UdpMsg.IsState (own : UInt32) : UdpMsg F → Prop
  | .playerState playerId _ _ _ _ => playerId = own
  | _ => False

/-- Whether the status is `GAME_OVER` after a message. -/
def UdpMsg.overAfter (own : UInt32) (isOver : Bool) : UdpMsg F → Bool
  | .playerDisconnect playerId => decide (playerId = own) || isOver
  | .youHaveBeenKicked => false
  | _ => isOver

/-- A state of the player `own` is handled while the status is not `GAME_OVER`. -/
def Returns (own : UInt32) : Bool → List (UdpMsg F) → Prop
  | _, [] => False
  | isOver, m :: ms => m.IsState own ∧ isOver = false ∨ Returns own (m.overAfter own isOver) ms

theorem Returns.mono {own : UInt32} {isOver : Bool} {ms ms' : List (UdpMsg F)} (h : Returns own isOver ms)
    (hp : ms <+: ms') : Returns own isOver ms' := by
  induction ms generalizing isOver ms' with
  | nil => exact h.elim
  | cons m ms ih =>
    cases ms' with
    | nil => exact absurd hp.length_le (by simp)
    | cons m' ms' =>
      obtain ⟨rfl, hrest⟩ := List.cons_prefix_cons.1 hp
      exact h.imp_right fun hms => ih hms hrest

theorem heard_take (float : UInt32 → F) (ds : List (UInt32 × List UInt8)) (k : ℕ) :
    heard float (ds.take k) <+: heard float ds := by
  induction ds generalizing k with
  | nil => cases k <;> exact List.prefix_rfl
  | cons d ds ih =>
    obtain ⟨now, datagram⟩ := d
    cases k with
    | zero => exact List.nil_prefix
    | succ k =>
      rw [List.take_succ_cons, heard, heard]
      split
      · exact List.prefix_rfl
      · exact (List.prefix_append_right_inj _).2 (ih k)

/-- The frame stopped after `k` datagrams, before the menus. -/
def Frame.upTo (f : Frame) (k : ℕ) : Frame :=
  { f with datagrams := f.datagrams.take k, choice := .none, back := false }

/-- The client has ended its game, or was sent out of it. -/
def InGameStatus.ended : InGameStatus → Bool
  | gameOver | quitting | kicked => true
  | playing | paused | options | victory => false

theorem InGameStatus.ended_cases {status : InGameStatus} (h : status.ended = true) :
    status = .gameOver ∨ status = .quitting ∨ status = .kicked := by
  cases status with
  | gameOver => exact .inl rfl
  | quitting => exact .inr (.inl rfl)
  | kicked => exact .inr (.inr rfl)
  | playing | paused | options | victory => cases h

/-- The player `own` of the client is not known to it, and its game has ended. -/
structure RTypeClient.Gone (own : UInt32) (isOver : Bool) (c : RTypeClient F) : Prop where
  me : c.myPlayerId = own
  absent : c.players[own]? = none
  ended : c.status.ended = true
  isOver : c.status = .gameOver ↔ isOver = true

namespace RTypeClient

variable [FloatOps F] {own : UInt32} {isOver : Bool} {c : RTypeClient F}

/-- A message keeps the player unknown, unless it is one that brings it back. -/
theorem Gone.handlePacket (h : c.Gone own isOver) (now : UInt32) {m : UdpMsg F}
    (hm : ¬(m.IsState own ∧ isOver = false)) : (c.handlePacket now m).Gone own (m.overAfter own isOver) := by
  obtain ⟨rfl, habsent, hended, hisOver⟩ := h
  cases m with
  | playerState playerId sequence tick x y =>
    by_cases hp : playerId = c.myPlayerId
    · -- the own state is skipped in `GAME_OVER`
      have hisOver' : c.status = .gameOver := hisOver.2 (by simpa using fun he => hm ⟨hp, he⟩)
      have hskip : c.handlePacket now (.playerState playerId sequence tick x y) = c := by
        simp only [RTypeClient.handlePacket, if_pos hp, if_pos hisOver']
      rw [hskip]
      exact ⟨rfl, habsent, hended, hisOver⟩
    · have hother : c.handlePacket now (.playerState playerId sequence tick x y) = c.moveOther playerId x y := by
        simp only [RTypeClient.handlePacket, if_neg hp]
      rw [hother]
      refine ⟨rfl, ?_, hended, hisOver⟩
      simp only [moveOther]
      rw [Maps.getElem?_insert, if_neg (Ne.symm hp)]
      exact habsent
  | playerDisconnect playerId =>
    have habsent' : (c.players.erase playerId)[c.myPlayerId]? = none := by
      rw [Maps.getElem?_erase]
      split
      · rfl
      · exact habsent
    by_cases hp : playerId = c.myPlayerId
    · refine ⟨rfl, habsent', ?_, ?_⟩
      · simp only [RTypeClient.handlePacket, if_pos hp]
        rfl
      · simp only [RTypeClient.handlePacket, UdpMsg.overAfter, if_pos hp, decide_eq_true hp, Bool.true_or]
    · refine ⟨rfl, habsent', ?_, ?_⟩
      · simp only [RTypeClient.handlePacket, if_neg hp]
        exact hended
      · simp only [RTypeClient.handlePacket, UdpMsg.overAfter, if_neg hp, decide_eq_false hp, Bool.false_or]
        exact hisOver
  | youHaveBeenKicked =>
    refine ⟨rfl, habsent, rfl, ?_⟩
    simp [RTypeClient.handlePacket, UdpMsg.overAfter]
  | entityUpdate entityId x y =>
    simp only [RTypeClient.handlePacket]
    split <;> exact ⟨rfl, habsent, hended, hisOver⟩
  | entitySpawn _ _ _ _ | entityDestroy _ | pong _ | globalStateSync _ _ | bossState _ _ =>
    exact ⟨rfl, habsent, hended, hisOver⟩

/-- A state of the own player brings it back while the status is not `GAME_OVER`. -/
theorem Gone.handlePacket_state (h : c.Gone own false) (now : UInt32) {m : UdpMsg F} (hm : m.IsState own) :
    (c.handlePacket now m).players[own]? ≠ none := by
  obtain ⟨rfl, -, -, hisOver⟩ := h
  have hne : c.status ≠ .gameOver := fun he => Bool.false_ne_true (hisOver.1 he)
  cases m with
  | playerState playerId sequence tick x y =>
    obtain rfl : playerId = c.myPlayerId := hm
    simp only [RTypeClient.handlePacket, if_true, if_neg hne]
    have hview := c.recordState_sameView now sequence
    obtain ⟨-, -, -, -, hshown⟩ := (c.recordState now sequence).reconcile_spec tick x y
    rw [hview.myPlayerId] at hshown
    rw [hshown]
    exact Option.some_ne_none _
  | _ => exact hm.elim

end RTypeClient

namespace TickingClient

variable [FloatOps F] {float : UInt32 → F} {own : UInt32} {isOver : Bool} {c : RTypeClient F}

/-- One datagram of the loop. -/
theorem receiveAll_cons (now : UInt32) {datagram : List UInt8} (rest : List (UInt32 × List UInt8))
    (h : (receiveMessage datagram).isNone = false) :
    receiveAll float c ((now, datagram) :: rest) = receiveAll float (c.receive float now datagram) rest := by
  rw [receiveAll, h]
  rfl

/-- **The receive loop keeps the player unknown**, unless a message brings it back. -/
theorem receiveAll_gone (ds : List (UInt32 × List UInt8)) (h : c.Gone own isOver)
    (hquiet : ¬Returns own isOver (heard float ds)) : ∃ isOver', (receiveAll float c ds).Gone own isOver' := by
  induction ds generalizing c isOver with
  | nil => exact ⟨isOver, h⟩
  | cons d ds ih =>
    obtain ⟨now, datagram⟩ := d
    cases hnone : (receiveMessage datagram).isNone with
    | true =>
      rw [receiveAll, if_pos hnone]
      exact ⟨isOver, h⟩
    | false =>
      rw [receiveAll_cons now ds hnone]
      simp only [heard, hnone, Bool.false_eq_true, if_false] at hquiet
      unfold RTypeClient.receive
      cases hparse : (receiveMessage datagram).bind (UdpMsg.parse float) with
      | none =>
        rw [hparse] at hquiet
        exact ih h hquiet
      | some m =>
        rw [hparse] at hquiet
        have hm : ¬(m.IsState own ∧ isOver = false) := fun hstate => hquiet (.inl hstate)
        exact ih (h.handlePacket now hm) fun hrest => hquiet (.inr hrest)

/-- **The receive loop brings the player back** at some datagram, if a message does. -/
theorem exists_receiveAll_present (ds : List (UInt32 × List UInt8)) (h : c.Gone own isOver)
    (hreturns : Returns own isOver (heard float ds)) : ∃ k, (receiveAll float c (ds.take k)).players[own]? ≠ none := by
  induction ds generalizing c isOver with
  | nil => exact hreturns.elim
  | cons d ds ih =>
    obtain ⟨now, datagram⟩ := d
    cases hnone : (receiveMessage datagram).isNone with
    | true =>
      rw [heard, if_pos hnone] at hreturns
      exact hreturns.elim
    | false =>
      simp only [heard, hnone, Bool.false_eq_true, if_false] at hreturns
      -- the rest of the datagrams, after this one
      have hrest : ∀ isOver' : Bool, (c.receive float now datagram).Gone own isOver' → Returns own isOver' (heard float ds) →
          ∃ k, (receiveAll float c (((now, datagram) :: ds).take k)).players[own]? ≠ none := by
        intro isOver' hgone hlater
        obtain ⟨k, hk⟩ := ih hgone hlater
        refine ⟨k + 1, ?_⟩
        rw [List.take_succ_cons, receiveAll_cons now _ hnone]
        exact hk
      cases hparse : (receiveMessage datagram).bind (UdpMsg.parse float) with
      | none =>
        rw [hparse] at hreturns
        have hsame : c.receive float now datagram = c := by rw [RTypeClient.receive, hparse]
        exact hrest isOver (hsame.symm ▸ h) hreturns
      | some m =>
        rw [hparse] at hreturns
        have hhandled : c.receive float now datagram = c.handlePacket now m := by rw [RTypeClient.receive, hparse]
        by_cases hm : m.IsState own ∧ isOver = false
        · obtain ⟨hstate, rfl⟩ := hm
          refine ⟨1, ?_⟩
          rw [List.take_succ_cons, receiveAll_cons now _ hnone, List.take_zero, receiveAll, hhandled]
          exact h.handlePacket_state now hstate
        · have hlater : Returns own (m.overAfter own isOver) (heard float ds) := hreturns.resolve_left hm
          exact hrest _ (hhandled.symm ▸ h.handlePacket now hm) hlater

/-! ## A frame -/

theorem handleInput_gone (h : c.Gone own isOver) (k : Keys) : (c.handleInput k).1.Gone own isOver := by
  obtain ⟨rfl, habsent, hended, hisOver⟩ := h
  unfold RTypeClient.handleInput
  split
  · exact ⟨rfl, habsent, hended, hisOver⟩
  · split
    · have hview := c.typeChat_sameView k
      exact ⟨hview.myPlayerId, hview.players.trans habsent, hview.status.symm ▸ hended, hview.status.symm ▸ hisOver⟩
    · obtain ⟨-, -, hme, hstatus, -, -, hplayers⟩ := c.sendInput_spec k
      rw [habsent, Option.map_none] at hplayers
      exact ⟨hme, hplayers, hstatus.symm ▸ hended, hstatus.symm ▸ hisOver⟩

/-- `handleInput` sends no input if and only if TAB is pressed or the chat is open. -/
theorem handleInput_input (c : RTypeClient F) (k : Keys) :
    (c.handleInput k).2.input = none ↔ k.tab = true ∨ c.isChatActive = true := by
  unfold RTypeClient.handleInput
  by_cases htab : k.tab = true
  · simp [htab]
  · by_cases hchat : c.isChatActive = true <;> simp [htab, hchat]

variable {s : TickingClient F} {f : Frame}

/-- What `update` does: some pings, and the receive loop. -/
theorem update_spec (float : UInt32 → F) (s : TickingClient F) (f : Frame) :
    (∀ m ∈ (s.update float f).2, m = .ping f.now) ∧ (s.update float f).1.client =
      receiveAll float { s.client with chatHistory := s.client.chatHistory ++ f.chatMessages } f.datagrams := by
  unfold update ping
  dsimp only
  split
  · exact ⟨fun m hm => List.mem_singleton.1 hm, rfl⟩
  · exact ⟨fun m hm => absurd hm List.not_mem_nil, rfl⟩

omit [FloatOps F] in
theorem menus_players (s : TickingClient F) (f : Frame) : (s.menus f).1.client.players = s.client.players := by
  unfold menus
  split
  · split <;> rfl
  · split
    · split <;> rfl
    · rfl

omit [FloatOps F] in
theorem menus_me (s : TickingClient F) (f : Frame) : (s.menus f).1.client.myPlayerId = s.client.myPlayerId := by
  unfold menus
  split
  · split <;> rfl
  · split
    · split <;> rfl
    · rfl

omit [FloatOps F] in
/-- No menu is open once the game has ended. -/
theorem menus_of_ended (h : s.client.status.ended = true) (f : Frame) : s.menus f = (s, []) := by
  have hpaused : s.client.status ≠ .paused := by
    intro he
    rw [he] at h
    cases h
  have hoptions : s.client.status ≠ .options := by
    intro he
    rw [he] at h
    cases h
  rw [menus, if_neg hpaused, if_neg hoptions]

/-- **A client that quit or was kicked does nothing more.** -/
theorem tick_of_ended (h : s.client.status = .quitting ∨ s.client.status = .kicked) (f : Frame) :
    s.tick float f = (s, []) := by
  have henter : s.enter f = (s, []) := by
    unfold enter
    rcases h with h | h <;> rw [h]
  have hupdates : updates s.client.status = false := by rcases h with h | h <;> rw [h] <;> rfl
  have hended : s.client.status.ended = true := by rcases h with h | h <;> rw [h] <;> rfl
  simp only [tick, switch, henter, hupdates, Bool.false_eq_true, if_false, menus_of_ended hended, List.append_nil]

/-- The switch of `tick` where it calls `update`. -/
theorem switch_of_updates (h : s.client.status = .playing ∨ s.client.status = .gameOver) (f : Frame) :
    s.switch float f = (((s.enter f).1.update float f).1, (s.enter f).2 ++ ((s.enter f).1.update float f).2) := by
  have hupdates : updates s.client.status = true := by rcases h with h | h <;> rw [h] <;> rfl
  have hvictory : s.client.status ≠ .victory := by rcases h with h | h <;> rw [h] <;> decide
  simp only [switch, hupdates, if_true, if_neg hvictory]

/-- What `tick` sends begins with what it sends before `update`. -/
theorem enter_sent (float : UInt32 → F) (s : TickingClient F) (f : Frame) :
    (s.enter f).2 <+: (s.tick float f).2 := by
  have hswitch : (s.enter f).2 <+: (s.switch float f).2 := by
    unfold switch
    dsimp only
    split
    · exact List.prefix_append _ _
    · exact List.prefix_rfl
  exact hswitch.trans (List.prefix_append _ _)

/-- **A frame in which the game has ended keeps the player unknown**, unless a message
brings it back; apart from the input it sends pings. -/
theorem tick_gone (h : s.client.status = .playing ∨ s.client.status = .gameOver)
    (hgone : (s.enter f).1.client.Gone own isOver) (hquiet : ¬Returns own isOver (heard float f.datagrams)) :
    (∃ isOver', (s.tick float f).1.client.Gone own isOver') ∧
      ∃ pings, (∀ m ∈ pings, m = .ping f.now) ∧ (s.tick float f).2 = (s.enter f).2 ++ pings := by
  obtain ⟨hpings, hclient⟩ := update_spec float (s.enter f).1 f
  have hstart : ({ (s.enter f).1.client with
      chatHistory := (s.enter f).1.client.chatHistory ++ f.chatMessages } : RTypeClient F).Gone own isOver :=
    ⟨hgone.me, hgone.absent, hgone.ended, hgone.isOver⟩
  obtain ⟨isOver', hisOver'⟩ := receiveAll_gone f.datagrams hstart hquiet
  rw [← hclient] at hisOver'
  have htick : s.tick float f =
      (((s.enter f).1.update float f).1, (s.enter f).2 ++ ((s.enter f).1.update float f).2) := by
    simp only [tick, switch_of_updates h f, menus_of_ended hisOver'.ended, List.append_nil]
  rw [htick]
  exact ⟨⟨isOver', hisOver'⟩, _, hpings, rfl⟩

/-- A frame in which the game has ended brings the player back at some datagram, if a
message does. -/
theorem exists_tick_present (h : s.client.status = .playing ∨ s.client.status = .gameOver)
    (hgone : (s.enter f).1.client.Gone own isOver) (hreturns : Returns own isOver (heard float f.datagrams)) :
    ∃ k, (s.tick float (f.upTo k)).1.client.players[own]? ≠ none := by
  have hstart : ({ (s.enter f).1.client with
      chatHistory := (s.enter f).1.client.chatHistory ++ f.chatMessages } : RTypeClient F).Gone own isOver :=
    ⟨hgone.me, hgone.absent, hgone.ended, hgone.isOver⟩
  obtain ⟨k, hk⟩ := exists_receiveAll_present f.datagrams hstart hreturns
  refine ⟨k, ?_⟩
  obtain ⟨-, hclient⟩ := update_spec float (s.enter f).1 (f.upTo k)
  have hplayers : (s.tick float (f.upTo k)).1.client.players =
      ((s.enter f).1.update float (f.upTo k)).1.client.players := by
    simp only [tick, switch_of_updates h (f.upTo k), menus_players]
    rfl
  rw [hplayers, hclient]
  exact hk

/-! ### The own id -/

theorem handleInput_me (c : RTypeClient F) (k : Keys) : (c.handleInput k).1.myPlayerId = c.myPlayerId := by
  unfold RTypeClient.handleInput
  split
  · rfl
  · split
    · exact (c.typeChat_sameView k).myPlayerId
    · exact (c.sendInput_spec k).2.2.1

theorem receiveAll_me (c : RTypeClient F) (ds : List (UInt32 × List UInt8)) :
    (receiveAll float c ds).myPlayerId = c.myPlayerId := by
  induction ds generalizing c with
  | nil => rfl
  | cons d ds ih =>
    obtain ⟨now, datagram⟩ := d
    rw [receiveAll]
    split
    · rfl
    · rw [ih]
      unfold RTypeClient.receive
      split
      · exact (c.handlePacket_inputs now _).1
      · rfl

/-! ### Playing -/

/-- Some entity kills the own player. -/
def Killed (s : TickingClient F) : Prop :=
  ∃ player, s.client.players[s.client.myPlayerId]? = some player ∧
    (s.client.entities.toList.any fun e => player.killedBy e.2) = true

/-- The own player dies in the next frame. -/
def Dies (s : TickingClient F) : Prop := s.client.status = .playing ∧ s.Killed

theorem collide_of_killed (h : s.Killed) :
    s.collide = ({ s with
      client.status := .gameOver
      client.players := s.client.players.erase s.client.myPlayerId }, [.playerDisconnect s.client.myPlayerId]) := by
  obtain ⟨player, hplayer, hkilled⟩ := h
  simp only [collide, hplayer, hkilled, if_true]

theorem collide_of_not_killed (h : ¬s.Killed) : s.collide = (s, []) := by
  unfold collide
  split
  · rename_i player hplayer
    exact if_neg fun hkilled => h ⟨player, hplayer, hkilled⟩
  · rfl

/-- A frame in play up to the collision test: the pause and the score. -/
def beforeCollide (s : TickingClient F) (f : Frame) : TickingClient F :=
  (if f.escape then { s with client.status := .paused } else s).scoreTime f

theorem beforeCollide_spec (s : TickingClient F) (f : Frame) :
    ((s.beforeCollide f).Killed ↔ s.Killed) ∧ (s.beforeCollide f).client.myPlayerId = s.client.myPlayerId ∧
      (s.beforeCollide f).client.isChatActive = s.client.isChatActive := by
  unfold beforeCollide scoreTime
  split <;> split <;> exact ⟨Iff.rfl, rfl, rfl⟩

theorem play_eq (s : TickingClient F) (f : Frame) :
    s.play f = ({ (s.beforeCollide f).collide.1 with
      client := ((s.beforeCollide f).collide.1.client.handleInput f.keys).1 },
      (s.beforeCollide f).collide.2 ++
        (((s.beforeCollide f).collide.1.client.handleInput f.keys).2.input.map .playerInput).toList) := rfl

/-- **The frame of the death, up to `update`**: the player leaves, and sends one more input
unless TAB is pressed or the chat is open. -/
theorem enter_of_dies (h : s.Dies) (hme : s.client.myPlayerId = own) (f : Frame) :
    (s.enter f).1.client.Gone own true ∧ ∃ input : Option PlayerInputPacket,
      (s.enter f).2 = .playerDisconnect own :: (input.map .playerInput).toList ∧
        (input = none ↔ f.keys.tab = true ∨ s.client.isChatActive = true) := by
  obtain ⟨hstatus, hkilled⟩ := h
  have henter : s.enter f = s.play f := by rw [enter, hstatus]
  obtain ⟨hkilled', hme', hchat⟩ := s.beforeCollide_spec f
  have hcollide := collide_of_killed (hkilled'.2 hkilled)
  have hgone : (s.beforeCollide f).collide.1.client.Gone own true := by
    rw [hcollide]
    refine ⟨hme'.trans hme, ?_, rfl, iff_of_true rfl rfl⟩
    rw [← hme, ← hme']
    exact Std.TreeMap.getElem?_erase_self
  rw [henter, play_eq]
  refine ⟨handleInput_gone hgone f.keys, ((s.beforeCollide f).collide.1.client.handleInput f.keys).2.input, ?_, ?_⟩
  · rw [hcollide, hme', hme]
    rfl
  · rw [handleInput_input, hcollide]
    exact or_congr_right (by rw [← hchat])

/-- The switch of a client that does not die sends no `PLAYER_DISCONNECT`. -/
theorem switch_of_not_dies (float : UInt32 → F) (h : ¬s.Dies) (f : Frame) :
    (∀ m ∈ (s.switch float f).2, ∀ playerId, m ≠ .playerDisconnect playerId) ∧
      (s.switch float f).1.client.myPlayerId = s.client.myPlayerId := by
  have henter : (∀ m ∈ (s.enter f).2, ∀ playerId, m ≠ .playerDisconnect playerId) ∧
      (s.enter f).1.client.myPlayerId = s.client.myPlayerId := by
    by_cases hplaying : s.client.status = .playing
    · have heq : s.enter f = s.play f := by rw [enter, hplaying]
      obtain ⟨hkilled, hme, -⟩ := s.beforeCollide_spec f
      have hcollide := collide_of_not_killed fun hk => h ⟨hplaying, hkilled.1 hk⟩
      rw [heq, play_eq, hcollide]
      refine ⟨fun m hm playerId => ?_, (handleInput_me _ _).trans hme⟩
      rw [List.nil_append, Option.mem_toList, Option.map_eq_some_iff] at hm
      obtain ⟨pkt, -, rfl⟩ := hm
      exact ClientMsg.noConfusion
    · unfold enter
      split
      · exact absurd ‹_› hplaying
      all_goals
        refine ⟨fun m hm => absurd hm List.not_mem_nil, ?_⟩
        first
        | rfl
        | split <;> rfl
  unfold switch
  dsimp only
  split
  · obtain ⟨hpings, hclient⟩ := update_spec float (s.enter f).1 f
    have hme : ((s.enter f).1.update float f).1.client.myPlayerId = s.client.myPlayerId := by
      rw [hclient, receiveAll_me]
      exact henter.2
    refine ⟨fun m hm playerId => ?_, ?_⟩
    · rcases List.mem_append.1 hm with hm | hm
      · exact henter.1 m hm playerId
      · rw [hpings m hm]
        exact ClientMsg.noConfusion
    · split
      · exact hme
      · exact hme
  · exact henter

/-- **A client that does not die leaves from the pause menu only**, at the end of a frame. -/
theorem tick_of_not_dies (float : UInt32 → F) (h : ¬s.Dies) (f : Frame) :
    (s.tick float f).1.client.myPlayerId = s.client.myPlayerId ∧
      ∃ sent : List ClientMsg, (∀ m ∈ sent, ∀ playerId, m ≠ .playerDisconnect playerId) ∧
        ((s.tick float f).2 = sent ∨ f.choice = .quit ∧
          (s.tick float f).2 = sent ++ [.playerDisconnect s.client.myPlayerId] ∧
            (s.tick float f).1.client.status = .quitting) := by
  obtain ⟨hsent, hme⟩ := switch_of_not_dies float h f
  refine ⟨(menus_me _ f).trans hme, (s.switch float f).2, hsent, ?_⟩
  unfold tick menus
  dsimp only
  split
  · cases hchoice : f.choice with
    | quit => exact .inr ⟨rfl, by rw [hme], rfl⟩
    | options | none => exact .inl (List.append_nil _)
  · split
    · exact .inl (List.append_nil _)
    · exact .inl (List.append_nil _)

end TickingClient

/-! ## Frame after frame -/

/-- A client with all it has sent. -/
structure Sender (F : Type*) where
  client : TickingClient F
  sent : List ClientMsg

/-- The run `stop` is the run `frames` up to some moment: before a frame, or in the receive
loop of one. -/
inductive Stopped : List Frame → List Frame → Prop
  | before (frames) : Stopped [] frames
  | within (f k frames) : Stopped [f.upTo k] (f :: frames)
  | later (f) {stop frames} (h : Stopped stop frames) : Stopped (f :: stop) (f :: frames)

namespace Sender

variable [FloatOps F] {float : UInt32 → F} {own : UInt32} {s : Sender F} {f : Frame} {frames : List Frame}

/-- The client once it is constructed: it has sent its first packet. -/
def start (playerId serverTimeMs : UInt32) : Sender F :=
  ⟨.new playerId serverTimeMs, [.playerInput (RTypeClient.firstPacket playerId)]⟩

/-- One `tick` -/
def tick (float : UInt32 → F) (s : Sender F) (f : Frame) : Sender F :=
  ⟨(s.client.tick float f).1, s.sent ++ (s.client.tick float f).2⟩

/-- The client after some frames. -/
def after (float : UInt32 → F) (s : Sender F) (frames : List Frame) : Sender F := frames.foldl (tick float) s

/-- The ticks as a machine. -/
def machine (float : UInt32 → F) : Machine (Sender F) Frame := ⟨fun s f => some (s.tick float f)⟩

theorem run_eq_after (s : Sender F) (frames : List Frame) :
    (machine float).run s frames = some (s.after float frames) := by
  induction frames generalizing s with
  | nil => rfl
  | cons f frames ih => exact ih (s.tick float f)

omit [FloatOps F] in
/-- The client has sent `PLAYER_DISCONNECT`. -/
def Left (own : UInt32) (s : Sender F) : Prop := .playerDisconnect own ∈ s.sent

omit [FloatOps F] in
/-- `m'` may be sent after `m`: where `m` leaves the game, it is no input. -/
def MayFollow (own : UInt32) (m m' : ClientMsg) : Prop := m = .playerDisconnect own → ∀ pkt, m' ≠ .playerInput pkt

/-- A client that has left does so for good: it sends no more `PLAYER_INPUT`, and at no
moment of the run does its player come back that was gone at an earlier one. -/
structure LeftForGood (float : UInt32 → F) (own : UInt32) (s : Sender F) (frames : List Frame) : Prop where
  inputs : (s.after float frames).sent.Pairwise (MayFollow own)
  player : ∀ later, Stopped later frames → ∀ earlier, Stopped earlier later → (s.after float earlier).Left own →
    (s.after float earlier).client.client.players[own]? = none →
      (s.after float later).client.client.players[own]? = none

/-- A quiet frame: one in which the player dies has TAB pressed or the chat open, and from the
death on no state of the own player is handled unless the status is `GAME_OVER`. On the
game-over screen ENTER ends that status before the messages of its frame. -/
structure Quiet (float : UInt32 → F) (own : UInt32) (s : Sender F) (f : Frame) : Prop where
  input : s.client.Dies → f.keys.tab = true ∨ s.client.client.isChatActive = true
  dying : s.client.Dies → ¬Returns own true (heard float f.datagrams)
  atScreen : s.client.client.status = .gameOver → s.Left own →
    ¬Returns own (!f.keys.enter) (heard float f.datagrams)

/-- A client that has left has quit, was kicked, or is at its game-over screen with its
player gone. -/
structure Settled (own : UInt32) (s : Sender F) : Prop where
  me : s.client.client.myPlayerId = own
  left : s.Left own → (s.client.client.status = .quitting ∨ s.client.client.status = .kicked) ∨
    s.client.client.Gone own true

theorem Quiet.upTo (h : Quiet float own s f) (k : ℕ) : Quiet float own s (f.upTo k) :=
  ⟨h.input, fun hd hr => h.dying hd (hr.mono (heard_take float f.datagrams k)),
    fun ho hl hr => h.atScreen ho hl (hr.mono (heard_take float f.datagrams k))⟩

theorem along_stopped {stop : List Frame} (hs : Stopped stop frames)
    (h : (machine float).Along (Quiet float own) s frames) : (machine float).Along (Quiet float own) s stop := by
  induction hs generalizing s with
  | before frames => trivial
  | within f k frames => exact .cons rfl (h.1.upTo k) .nil
  | later f hs ih => exact .cons rfl h.1 (ih (h.2 _ rfl))

omit [FloatOps F] in
/-- The client once its game has ended: it is at its game-over screen, or it is not. -/
theorem settled_of_gone {c : TickingClient F} {isOver : Bool} (h : c.client.Gone own isOver) (sent : List ClientMsg) :
    Settled own ⟨c, sent⟩ := by
  refine ⟨h.me, fun _ => ?_⟩
  cases isOver with
  | true => exact .inr h
  | false =>
    have hne : c.client.status ≠ .gameOver := fun he => Bool.false_ne_true (h.isOver.1 he)
    exact .inl ((InGameStatus.ended_cases h.ended).resolve_left hne)

/-- The screen of a client whose game is over, up to `update`. -/
theorem enter_of_over (h : s.client.client.Gone own true) (f : Frame) :
    (s.client.enter f).1.client.Gone own (!f.keys.enter) ∧ (s.client.enter f).2 = [] := by
  have hstatus : s.client.client.status = .gameOver := h.isOver.2 rfl
  unfold TickingClient.enter
  rw [hstatus]
  cases hkey : f.keys.enter with
  | true => exact ⟨⟨h.me, h.absent, rfl, by simp⟩, rfl⟩
  | false => exact ⟨h, rfl⟩

omit [FloatOps F] in
/-- Messages without inputs may follow anything. -/
theorem mayFollow_append {old new : List ClientMsg} (hold : old.Pairwise (MayFollow own))
    (hnew : ∀ m ∈ new, ∀ pkt, m ≠ .playerInput pkt) : (old ++ new).Pairwise (MayFollow own) := by
  refine List.pairwise_append.2 ⟨hold, ?_, fun m _ m' hm' _ => hnew m' hm'⟩
  exact List.pairwise_of_forall_mem_list fun m _ m' hm' _ => hnew m' hm'

omit [FloatOps F] in
/-- Anything may follow messages that do not leave. -/
theorem mayFollow_of_ne {old : List ClientMsg} (hold : ∀ m ∈ old, m ≠ .playerDisconnect own) :
    old.Pairwise (MayFollow own) :=
  List.pairwise_of_forall_mem_list fun m hm _ _ he => absurd he (hold m hm)

/-- What a quiet frame keeps: the client stays settled, and after a `PLAYER_DISCONNECT` it
sends no input. -/
theorem tick_settled (h : s.Settled own) (hquiet : Quiet float own s f) :
    (s.tick float f).Settled own ∧
      (s.sent.Pairwise (MayFollow own) → (s.tick float f).sent.Pairwise (MayFollow own)) := by
  by_cases hdies : s.client.Dies
  · -- it dies in this frame
    obtain ⟨hgone, input, hsent, hinput⟩ := TickingClient.enter_of_dies hdies h.me f
    obtain ⟨⟨isOver', hisOver'⟩, pings, hpings, hall⟩ := TickingClient.tick_gone (.inl hdies.1) hgone (hquiet.dying hdies)
    have hnone : input = none := hinput.2 (hquiet.input hdies)
    refine ⟨settled_of_gone hisOver' _, fun hold => mayFollow_append hold fun m hm pkt => ?_⟩
    rw [hall, hsent, hnone] at hm
    rcases List.mem_append.1 hm with hm | hm
    · rw [List.mem_singleton.1 hm]
      exact ClientMsg.noConfusion
    · rw [hpings m hm]
      exact ClientMsg.noConfusion
  by_cases hleft : s.Left own
  · rcases h.left hleft with hended | hgone
    · -- it has quit or was kicked: nothing happens
      have hsame : s.tick float f = s := by
        rw [tick, TickingClient.tick_of_ended hended, List.append_nil]
      rw [hsame]
      exact ⟨h, id⟩
    · -- it is at its game-over screen
      have hstatus : s.client.client.status = .gameOver := hgone.isOver.2 rfl
      obtain ⟨hgone', hsent⟩ := enter_of_over hgone f
      obtain ⟨⟨isOver', hisOver'⟩, pings, hpings, hall⟩ :=
        TickingClient.tick_gone (.inr hstatus) hgone' (hquiet.atScreen hstatus hleft)
      refine ⟨settled_of_gone hisOver' _, fun hold => mayFollow_append hold fun m hm pkt => ?_⟩
      rw [hall, hsent, List.nil_append] at hm
      rw [hpings m hm]
      exact ClientMsg.noConfusion
  · -- it has not left, and leaves by the pause menu if at all
    obtain ⟨hme, sent, hsent, hall⟩ := TickingClient.tick_of_not_dies float hdies f
    have hbefore : ∀ m ∈ s.sent ++ sent, m ≠ .playerDisconnect own := by
      intro m hm
      rcases List.mem_append.1 hm with hm | hm
      · rintro rfl
        exact hleft hm
      · exact hsent m hm own
    rcases hall with hall | ⟨-, hall, hquitting⟩
    · have hlog : (s.tick float f).sent = s.sent ++ sent := by rw [tick, hall]
      refine ⟨⟨hme.trans h.me, fun hl => ?_⟩, fun _ => ?_⟩
      · rw [Left, hlog] at hl
        exact absurd rfl (hbefore _ hl)
      · rw [hlog]
        exact mayFollow_of_ne hbefore
    · have hlog : (s.tick float f).sent = s.sent ++ sent ++ [.playerDisconnect s.client.client.myPlayerId] := by
        rw [tick, hall, List.append_assoc]
      refine ⟨⟨hme.trans h.me, fun _ => .inl (.inl hquitting)⟩, fun _ => ?_⟩
      rw [hlog]
      exact mayFollow_append (mayFollow_of_ne hbefore) fun m hm pkt => by
        rw [List.mem_singleton.1 hm]
        exact ClientMsg.noConfusion

/-- Quiet frames keep the client settled. -/
theorem after_settled (h : s.Settled own) (hquiet : (machine float).Along (Quiet float own) s frames) :
    (s.after float frames).Settled own ∧
      (s.sent.Pairwise (MayFollow own) → (s.after float frames).sent.Pairwise (MayFollow own)) := by
  have hstep : ∀ (s₁ : Sender F) f s₂,
      s₁.Settled own ∧ (s.sent.Pairwise (MayFollow own) → s₁.sent.Pairwise (MayFollow own)) →
      Quiet float own s₁ f → (machine float).step s₁ f = some s₂ →
        s₂.Settled own ∧ (s.sent.Pairwise (MayFollow own) → s₂.sent.Pairwise (MayFollow own)) := by
    rintro s₁ f s₂ ⟨h₁, hlog⟩ hq hs
    obtain rfl := Option.some.inj hs
    obtain ⟨h₂, hkeeps⟩ := tick_settled h₁ hq
    exact ⟨h₂, fun hold => hkeeps (hlog hold)⟩
  exact Machine.inv_along hstep frames s _ ⟨h, id⟩ hquiet (run_eq_after s frames)

/-- In a quiet frame a client that has left does not get its player back. -/
theorem tick_absent (h : s.Settled own) (hquiet : Quiet float own s f) (hleft : s.Left own)
    (habsent : s.client.client.players[own]? = none) : (s.tick float f).client.client.players[own]? = none := by
  rcases h.left hleft with hended | hgone
  · rw [tick, TickingClient.tick_of_ended hended]
    exact habsent
  · have hstatus : s.client.client.status = .gameOver := hgone.isOver.2 rfl
    obtain ⟨⟨isOver', hisOver'⟩, -⟩ :=
      TickingClient.tick_gone (.inr hstatus) (enter_of_over hgone f).1 (hquiet.atScreen hstatus hleft)
    exact hisOver'.absent

theorem tick_left (hleft : s.Left own) : (s.tick float f).Left own := List.mem_append_left _ hleft

theorem after_absent (h : s.Settled own) (hquiet : (machine float).Along (Quiet float own) s frames)
    (hleft : s.Left own) (habsent : s.client.client.players[own]? = none) :
    (s.after float frames).client.client.players[own]? = none := by
  induction frames generalizing s with
  | nil => exact habsent
  | cons f frames ih =>
    exact ih (tick_settled h hquiet.1).1 (hquiet.2 _ rfl) (tick_left hleft) (tick_absent h hquiet.1 hleft habsent)

/-- A client that has left in the receive loop of a quiet frame, without its player, is
without it at the end of the frame. -/
theorem tick_absent_upTo (h : s.Settled own) (hquiet : Quiet float own s f) (k : ℕ)
    (hleft : (s.tick float (f.upTo k)).Left own)
    (habsent : (s.tick float (f.upTo k)).client.client.players[own]? = none) :
    (s.tick float f).Left own ∧ (s.tick float f).client.client.players[own]? = none := by
  by_cases hdies : s.client.Dies
  · obtain ⟨hgone, input, hsent, -⟩ := TickingClient.enter_of_dies hdies h.me f
    obtain ⟨⟨isOver', hisOver'⟩, pings, -, hall⟩ := TickingClient.tick_gone (.inl hdies.1) hgone (hquiet.dying hdies)
    refine ⟨List.mem_append_right _ ?_, hisOver'.absent⟩
    rw [hall, hsent]
    exact List.mem_cons_self
  · have hbefore : s.Left own := by
      -- the stopped frame has no menus, so the client had left before
      obtain ⟨-, sent, hsent, hall⟩ := TickingClient.tick_of_not_dies float hdies (f.upTo k)
      rcases List.mem_append.1 hleft with hold | hnew
      · exact hold
      · rcases hall with hall | ⟨hquit, -⟩
        · rw [hall] at hnew
          exact absurd rfl (hsent _ hnew own)
        · cases hquit
    refine ⟨tick_left hbefore, ?_⟩
    rcases h.left hbefore with hended | hgone
    · rw [tick, TickingClient.tick_of_ended hended] at habsent ⊢
      exact habsent
    · exact tick_absent h hquiet hbefore hgone.absent

/-- **In quiet frames a client leaves for good.** -/
theorem leftForGood_of_quiet (h : s.Settled own) (hsent : s.sent.Pairwise (MayFollow own))
    (hquiet : (machine float).Along (Quiet float own) s frames) : LeftForGood float own s frames := by
  refine ⟨(after_settled h hquiet).2 hsent, fun later hlater earlier hearlier => ?_⟩
  have hquiet' := along_stopped hlater hquiet
  clear hlater hquiet hsent
  induction hearlier generalizing s with
  | before later => exact after_absent h hquiet'
  | within f k later =>
    intro hleft habsent
    obtain ⟨hleft', habsent'⟩ := tick_absent_upTo h hquiet'.1 k hleft habsent
    have hend : ((s.tick float f).after float later).client.client.players[own]? = none :=
      after_absent (tick_settled h hquiet'.1).1 (hquiet'.2 _ rfl) hleft' habsent'
    exact hend
  | later f _ ih => exact ih (tick_settled h hquiet'.1).1 (hquiet'.2 _ rfl)

/-! ## The theorem -/

theorem after_append (s : Sender F) (pre post : List Frame) :
    s.after float (pre ++ post) = (s.after float pre).after float post := List.foldl_append

theorem stopped_self (frames : List Frame) : Stopped frames frames := by
  induction frames with
  | nil => exact .before []
  | cons f frames ih => exact .later f ih

theorem Stopped.append_left {stop frames : List Frame} (h : Stopped stop frames) (pre : List Frame) :
    Stopped (pre ++ stop) (pre ++ frames) := by
  induction pre with
  | nil => exact h
  | cons f pre ih => exact .later f ih

theorem Stopped.append_right {stop frames : List Frame} (h : Stopped stop frames) (post : List Frame) :
    Stopped stop (frames ++ post) := by
  induction h with
  | before frames => exact .before _
  | within f k frames => exact .within f k _
  | later f _ ih => exact .later f ih

/-- What a client sends stays sent. -/
theorem sent_kept (s : Sender F) (f : Frame) : s.sent <+: (s.tick float f).sent := List.prefix_append _ _

/-- A run that is left for good was so before its last frame. -/
theorem LeftForGood.of_append {pre : List Frame} (h : LeftForGood float own s (pre ++ [f])) :
    LeftForGood float own s pre := by
  refine ⟨?_, fun later hlater => h.player later (Stopped.append_right hlater [f])⟩
  have hinputs := h.inputs
  rw [after_append] at hinputs
  exact hinputs.sublist (sent_kept (s.after float pre) f).sublist

/-- **A frame that is not quiet breaks the promise.** -/
theorem quiet_of_leftForGood {pre : List Frame} (h : LeftForGood float own s (pre ++ [f]))
    (hsettled : (s.after float pre).Settled own) : Quiet float own (s.after float pre) f := by
  have hinputs := h.inputs
  rw [after_append] at hinputs
  -- two moments of the last frame
  have hmoments : ∀ k earlier, Stopped earlier (pre ++ [f.upTo k]) → (s.after float earlier).Left own →
      (s.after float earlier).client.client.players[own]? = none →
        ((s.after float pre).tick float (f.upTo k)).client.client.players[own]? = none := by
    intro k earlier hearlier hleft habsent
    have hend := h.player (pre ++ [f.upTo k]) (Stopped.append_left (.within f k []) pre) earlier hearlier hleft habsent
    rw [after_append] at hend
    exact hend
  refine ⟨fun hdies => ?_, fun hdies hreturns => ?_, fun hstatus hleft hreturns => ?_⟩
  · -- an input of the frame of the death would follow the `PLAYER_DISCONNECT`
    obtain ⟨-, input, hsent, hinput⟩ := TickingClient.enter_of_dies hdies hsettled.me f
    refine hinput.1 ?_
    cases input with
    | none => rfl
    | some pkt =>
      have hpair : [ClientMsg.playerDisconnect own, .playerInput pkt].Sublist ((s.after float pre).tick float f).sent := by
        have hbegins := TickingClient.enter_sent float (s.after float pre).client f
        rw [hsent] at hbegins
        exact hbegins.sublist.trans (List.sublist_append_right _ _)
      have hfollow := List.pairwise_pair.1 (hinputs.sublist hpair)
      exact absurd rfl (hfollow rfl pkt)
  · obtain ⟨hgone, -⟩ := TickingClient.enter_of_dies hdies hsettled.me f
    obtain ⟨k, hk⟩ := TickingClient.exists_tick_present (.inl hdies.1) hgone hreturns
    -- right after the death the player is gone
    obtain ⟨hgone₀, input, hsent, -⟩ := TickingClient.enter_of_dies hdies hsettled.me (f.upTo 0)
    have hnone : ¬Returns own true (heard float (f.upTo 0).datagrams) := id
    obtain ⟨⟨isOver', hisOver'⟩, -⟩ := TickingClient.tick_gone (.inl hdies.1) hgone₀ hnone
    have hleft : .playerDisconnect own ∈ ((s.after float pre).client.tick float (f.upTo 0)).2 := by
      refine (TickingClient.enter_sent float _ _).subset ?_
      rw [hsent]
      exact List.mem_cons_self
    refine hk (hmoments k (pre ++ [f.upTo 0]) (Stopped.append_left (.within (f.upTo k) 0 []) pre) ?_ ?_)
    · rw [after_append]
      exact List.mem_append_right _ hleft
    · rw [after_append]
      exact hisOver'.absent
  · have hgone : (s.after float pre).client.client.Gone own true := by
      refine (hsettled.left hleft).resolve_left ?_
      rw [hstatus]
      simp
    obtain ⟨k, hk⟩ := TickingClient.exists_tick_present (.inr hstatus) (enter_of_over hgone f).1 hreturns
    refine hk (hmoments k pre ?_ hleft hgone.absent)
    simpa using Stopped.append_right (stopped_self pre) [f.upTo k]

theorem start_settled (playerId serverTimeMs : UInt32) : (start playerId serverTimeMs : Sender F).Settled playerId := by
  refine ⟨rfl, fun hleft => ?_⟩
  exact absurd (List.mem_singleton.1 hleft) ClientMsg.noConfusion

/-- **A left game stays left if and only if every frame is quiet.** -/
theorem leftForGood_iff (float : UInt32 → F) (playerId serverTimeMs : UInt32) (frames : List Frame) :
    LeftForGood float playerId (start playerId serverTimeMs) frames ↔
      (machine float).Along (Quiet float playerId) (start playerId serverTimeMs) frames := by
  constructor
  · intro h
    induction frames using List.reverseRecOn with
    | nil => trivial
    | append_singleton pre f ih =>
      have hpre := ih h.of_append
      have hsettled := (after_settled (start_settled playerId serverTimeMs) hpre).1
      refine (Machine.along_append (run_eq_after _ pre)).2 ⟨hpre, ?_⟩
      exact .cons rfl (quiet_of_leftForGood h hsettled) .nil
  · exact leftForGood_of_quiet (start_settled playerId serverTimeMs) (List.pairwise_singleton _ _)

/-- A frame without a key pressed, in which some datagrams arrive. -/
def idle (datagrams : List (UInt32 × List UInt8)) : Frame where
  escape := false
  keys := ⟨false, false, false, [], false, false, false, false, false, false, 0⟩
  scoreNow := 0
  scoreStored := 0
  chatMessages := []
  now := 0
  datagrams := datagrams
  choice := .none
  back := false

/-- The first state of player 1, and an enemy at the same place; the frame after them. -/
def deathFrames : List Frame :=
  [idle [(0, 2 :: 1 :: List.replicate 23 0), (0, 3 :: 7 :: 0 :: 0 :: 0 :: 2 :: List.replicate 13 0)], idle []]

/-- **A player that dies sends one more input.** -/
theorem not_leftForGood_death :
    ¬LeftForGood (fun bits => (bits.toNat : ℚ)) 1 (start 1 0) deathFrames := by
  intro h
  have hlog : ((start 1 0).after (fun bits => (bits.toNat : ℚ)) deathFrames).sent =
      [.playerInput ⟨1, 0, 0⟩, .playerInput ⟨1, 0, 0⟩, .playerDisconnect 1, .playerInput ⟨1, 1, 0⟩] := by
    decide +kernel
  have hinputs := h.inputs
  rw [hlog] at hinputs
  have hpair : [ClientMsg.playerDisconnect 1, .playerInput ⟨1, 1, 0⟩].Sublist
      [.playerInput ⟨1, 0, 0⟩, .playerInput ⟨1, 0, 0⟩, .playerDisconnect 1, .playerInput ⟨1, 1, 0⟩] := by decide
  exact List.pairwise_pair.1 (hinputs.sublist hpair) rfl _ rfl

end Sender

end RType

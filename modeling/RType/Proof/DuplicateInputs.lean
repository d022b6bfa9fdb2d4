import RType.Lib.Copies
import RType.Proof.InputCounts

/-!
# Inputs that arrive again

An input whose tick has been handled counts no more and acknowledges nothing, but it moves
its player and shoots again.

* `Room.handlePlayerInput_of_reached`: an input handled before that neither shoots nor
  moves leaves the room as it is.
* `Room.copiesHarmless_iff`: copies of inputs can be removed from what arrives if and only
  if each of them is of that kind.
-/

namespace RType

open Copies

variable {F : Type*}

/-- `q` is a copy of `p`. -/
def PlayerInputPacket.Copy (p q : PlayerInputPacket) : Prop := p.playerId = q.playerId ∧ p.tick = q.tick

/-- What the room knows of the inputs: where the players are, which ticks they have
reached, how many inputs they lost, and the entities. -/
structure Room.SameOutcome (r r' : Room F) : Prop where
  position : r'.game.players.map (fun d => (d.x, d.y)) = r.game.players.map fun d => (d.x, d.y)
  entities : r'.game.entities = r.game.entities
  lastProcessedTick : r'.game.players.map (·.lastProcessedTick) = r.game.players.map (·.lastProcessedTick)
  receivedInputs : r'.game.players.map (·.receivedInputs) = r.game.players.map (·.receivedInputs)
  lostInputs : r'.game.players.map (·.lostInputs) = r.game.players.map (·.lostInputs)

theorem Room.SameOutcome.refl (r : Room F) : r.SameOutcome r := ⟨rfl, rfl, rfl, rfl, rfl⟩

theorem Room.SameOutcome.symm {r r' : Room F} (h : r.SameOutcome r') : r'.SameOutcome r :=
  ⟨h.position.symm, h.entities.symm, h.lastProcessedTick.symm, h.receivedInputs.symm, h.lostInputs.symm⟩

variable [FloatOps F]

/-- The directions of an input take a player at `x`, `y` back to where it is. -/
def PlayerInputPacket.Returns (pkt : PlayerInputPacket) (velocity x y : F) : Prop :=
  let y' := if pkt.has .up then y - velocity else y
  let x' := if pkt.has .left then x - velocity else x
  (if pkt.has .down then y' + velocity else y') = y ∧ (if pkt.has .right then x' + velocity else x') = x

/-- The input neither shoots nor moves its player. -/
def Room.Harmless (r : Room F) (pkt : PlayerInputPacket) : Prop :=
  ∀ d ds, r.own pkt.playerId = d :: ds →
    pkt.has .pressed = false ∧ pkt.has .hold = false ∧ pkt.Returns d.velocity d.x d.y

/-! ## What an input does -/

/-- Where an input takes its player. -/
theorem Player.handle_position (d : Player F) (pkt : PlayerInputPacket) :
    let y' := if pkt.has .up then d.y - d.velocity else d.y
    let x' := if pkt.has .left then d.x - d.velocity else d.x
    (d.handle pkt).y = (if pkt.has .down then y' + d.velocity else y') ∧
      (d.handle pkt).x = (if pkt.has .right then x' + d.velocity else x') := by
  -- what is recorded of an input moves nobody
  have hrec := d.recordInput_sameState pkt.tick
  have hseen : ∀ p : Player F, (p.seen pkt.tick).x = p.x ∧ (p.seen pkt.tick).y = p.y ∧
      (p.seen pkt.tick).velocity = p.velocity := fun p => by
    unfold seen
    split <;> exact ⟨rfl, rfl, rfl⟩
  obtain ⟨hx, hy, hv⟩ := hseen (d.recordInput pkt.tick)
  rw [← hrec.x, ← hrec.y, ← hrec.velocity, ← hx, ← hy, ← hv, handle]
  by_cases h1 : pkt.has .up = true <;> by_cases h2 : pkt.has .down = true <;>
    by_cases h3 : pkt.has .left = true <;> by_cases h4 : pkt.has .right = true <;>
      simp [PlayerInputPacket.moves, SlotWrite.apply, move, h1, h2, h3, h4]

/-- The player has heard of the tick. -/
structure Player.Reached (d : Player F) (tick : UInt32) : Prop where
  heard : d.firstInputReceived = false
  input : tick ≤ d.lastInputTick
  processed : tick ≤ d.lastProcessedTick

/-- A tick it has heard of changes nothing but its position. -/
theorem Player.handle_of_reached {d : Player F} {pkt : PlayerInputPacket} (h : d.Reached pkt.tick) :
    d.handle pkt = { d with x := (d.handle pkt).x, y := (d.handle pkt).y } := by
  have hinput : ¬ d.lastInputTick < pkt.tick := UInt32.not_lt.2 h.input
  have hprocessed : ¬ d.lastProcessedTick < pkt.tick := UInt32.not_lt.2 h.processed
  have hrec : d.recordInput pkt.tick = d := by
    simp only [recordInput, h.heard, hinput, Bool.false_eq_true, if_false]
  have hseen : d.seen pkt.tick = d := by
    simp only [seen, hprocessed, if_false]
  obtain ⟨x, y, hhandle⟩ := d.handle_eq pkt
  rw [hhandle, hrec, hseen]

/-- The statistics and the tick after an input reach it, and all that was reached. -/
theorem Player.reached_handle (d : Player F) (pkt : PlayerInputPacket) :
    (d.handle pkt).Reached pkt.tick ∧ ∀ tick, d.Reached tick → (d.handle pkt).Reached tick := by
  obtain ⟨x, y, hhandle⟩ := d.handle_eq pkt
  have hrec : (d.recordInput pkt.tick).firstInputReceived = false ∧ pkt.tick ≤ (d.recordInput pkt.tick).lastInputTick ∧
      (d.firstInputReceived = false → d.lastInputTick ≤ (d.recordInput pkt.tick).lastInputTick) := by
    unfold recordInput
    by_cases hfirst : d.firstInputReceived = true
    · simp [hfirst]
    · have hfirst' : d.firstInputReceived = false := by simpa using hfirst
      by_cases hlt : d.lastInputTick < pkt.tick
      · simp [hfirst', hlt, UInt32.le_of_lt hlt]
      · simp [hfirst', hlt, UInt32.not_lt.1 hlt]
  have hseen : ∀ p : Player F, (p.seen pkt.tick).firstInputReceived = p.firstInputReceived ∧
      (p.seen pkt.tick).lastInputTick = p.lastInputTick ∧ pkt.tick ≤ (p.seen pkt.tick).lastProcessedTick ∧
      p.lastProcessedTick ≤ (p.seen pkt.tick).lastProcessedTick := fun p => by
    unfold seen
    split
    · rename_i hlt
      exact ⟨rfl, rfl, UInt32.le_refl _, UInt32.le_of_lt hlt⟩
    · rename_i hge
      exact ⟨rfl, rfl, UInt32.not_lt.1 hge, UInt32.le_refl _⟩
  obtain ⟨hfirst, hinput, hkeeps⟩ := hrec
  obtain ⟨h1, h2, h3, h4⟩ := hseen (d.recordInput pkt.tick)
  rw [hhandle]
  refine ⟨⟨h1.trans hfirst, ?_, h3⟩, fun tick h => ⟨h1.trans hfirst, ?_, ?_⟩⟩
  · show pkt.tick ≤ ((d.recordInput pkt.tick).seen pkt.tick).lastInputTick
    rw [h2]
    exact hinput
  · show tick ≤ ((d.recordInput pkt.tick).seen pkt.tick).lastInputTick
    rw [h2]
    exact UInt32.le_trans h.input (hkeeps h.heard)
  · refine UInt32.le_trans h.processed (UInt32.le_trans ?_ h4)
    rw [(d.recordInput_sameState pkt.tick).tick]
    exact UInt32.le_refl _

/-! ## Shots -/

omit [FloatOps F] in
/-- What is created is one more entity. -/
theorem Room.length_spawn (r : Room F) (type : UInt16) (x y velocityX velocityY : F) (height width : ℤ) :
    (r.spawn type x y velocityX velocityY height width []).game.entities.length = r.game.entities.length + 1 := by
  simp [spawn, broadcast]

theorem Room.length_createPlayerShot {r : Room F} {playerId : UInt32} {d : Player F}
    (h : r.game.players.find? (·.id == playerId) = some d) :
    (r.createPlayerShot playerId).game.entities.length = r.game.entities.length + 1 := by
  simp only [createPlayerShot, h]
  exact r.length_spawn ..

theorem Room.length_createPlayerChargedShot {r : Room F} {playerId : UInt32} {d : Player F}
    (h : r.game.players.find? (·.id == playerId) = some d) :
    (r.createPlayerChargedShot playerId).game.entities.length = r.game.entities.length + 1 := by
  simp only [createPlayerChargedShot, h]
  exact r.length_spawn ..

omit [FloatOps F] in
theorem Room.find_of_own {r : Room F} {playerId : UInt32} {d : Player F} {ds : List (Player F)}
    (hd : r.own playerId = d :: ds) : r.game.players.find? (·.id == playerId) = some d := by
  have h : (r.own playerId).head? = some d := by rw [hd, List.head?_cons]
  rwa [own, List.head?_filter] at h

/-- **An input shoots once for each button.** -/
theorem Room.length_handlePlayerInput {r : Room F} {pkt : PlayerInputPacket} {d : Player F} {ds : List (Player F)}
    (hd : r.own pkt.playerId = d :: ds) :
    (r.handlePlayerInput pkt).game.entities.length = r.game.entities.length +
      (if pkt.has .pressed then 1 else 0) + (if pkt.has .hold then 1 else 0) := by
  have hown : (r.handlePlayerInput pkt).own pkt.playerId = d.handle pkt :: ds := own_handlePlayerInput hd
  obtain ⟨before, after, -, -, -, -, hg⟩ := own_split hd
  have hworks := handlePlayerInput_works hg
  -- the shots find the player in the room that the movement leaves
  have hfind : ∀ r' : Room F, r'.game.players = (r.handlePlayerInput pkt).game.players →
      r'.game.players.find? (·.id == pkt.playerId) = some (d.handle pkt) := fun r' h =>
    find_of_own (r := r') (by rw [own, h, ← own, hown])
  rw [handlePlayerInput_eq hg]
  extract_lets r₁ r₂
  have h₁ : r₁.game.players = (r.handlePlayerInput pkt).game.players := hworks.players.symm
  have h₂ : r₂.game.players = r₁.game.players ∧
      r₂.game.entities.length = r₁.game.entities.length + (if pkt.has .pressed then 1 else 0) := by
    simp only [r₂]
    split
    · exact ⟨(r₁.createPlayerShot_works _).players, length_createPlayerShot (hfind r₁ h₁)⟩
    · exact ⟨rfl, rfl⟩
  split
  · rw [length_createPlayerChargedShot (hfind r₂ (h₂.1.trans h₁)), h₂.2]
    rfl
  · exact h₂.2

/-! ## Copies -/

omit [FloatOps F] in
/-- A player that is not in the room. -/
theorem Room.getPlayer_of_own_nil {r : Room F} {playerId : UInt32} (h : r.own playerId = []) :
    r.game.getPlayer playerId = none :=
  List.findIdx?_eq_none_iff.2 fun p hp => by simpa using List.filter_eq_nil_iff.1 h p hp

/-- **A harmless input whose tick is reached leaves the room as it is.** -/
theorem Room.handlePlayerInput_of_reached {r : Room F} {pkt : PlayerInputPacket}
    (h : ∀ d ds, r.own pkt.playerId = d :: ds → d.Reached pkt.tick) (hharm : r.Harmless pkt) :
    r.handlePlayerInput pkt = r := by
  cases hown : r.own pkt.playerId with
  | nil => exact handlePlayerInput_of_none (getPlayer_of_own_nil hown)
  | cons d ds =>
    obtain ⟨hpressed, hhold, hy, hx⟩ := hharm d ds hown
    obtain ⟨before, after, hplayers, -, -, -, hg⟩ := own_split hown
    obtain ⟨hy', hx'⟩ := d.handle_position pkt
    have hd : d.handle pkt = d := by
      rw [Player.handle_of_reached (h d ds hown), hx', hx, hy', hy]
    have hmodify : r.game.players.modify before.length (·.handle pkt) = r.game.players := by
      rw [hplayers, List.modify_eq_take_cons_drop (by simp)]
      simp [hd]
    rw [handlePlayerInput_eq hg]
    simp only [hpressed, hhold, Bool.false_eq_true, if_false, writeSlot, hmodify]

/-- **Copies that can be told from their outcome.** -/
theorem Room.harmless_of_sameOutcome {r : Room F} {pkt : PlayerInputPacket}
    (h : r.SameOutcome (r.handlePlayerInput pkt)) : r.Harmless pkt := by
  intro d ds hd
  have hlength := length_handlePlayerInput hd
  rw [h.entities] at hlength
  obtain ⟨before, after, hplayers, -, -, -, hg⟩ := own_split hd
  have hposition := h.position
  rw [players_handlePlayerInput hplayers hg, hplayers] at hposition
  simp only [List.map_append, List.map_cons, List.append_cancel_left_eq, List.cons.injEq, and_true,
    Prod.mk.injEq] at hposition
  obtain ⟨hx, hy⟩ := hposition
  obtain ⟨hy', hx'⟩ := d.handle_position pkt
  refine ⟨?_, ?_, hy'.symm.trans hy, hx'.symm.trans hx⟩
  · by_contra hpressed
    rw [Bool.not_eq_false] at hpressed
    rw [if_pos hpressed] at hlength
    omega
  · by_contra hhold
    rw [Bool.not_eq_false] at hhold
    rw [if_pos hhold] at hlength
    omega

/-- Every player in the room has reached the tick of an input that has arrived. -/
theorem Room.reached_foldl {r : Room F} {pkts : List PlayerInputPacket} {q : PlayerInputPacket} (hq : q ∈ pkts)
    {d : Player F} {ds : List (Player F)} (hd : (pkts.foldl handlePlayerInput r).own q.playerId = d :: ds) :
    d.Reached q.tick := by
  induction pkts using List.reverseRecOn generalizing d ds with
  | nil => cases hq
  | append_singleton pkts pkt ih =>
    rw [List.foldl_append, List.foldl_cons, List.foldl_nil] at hd
    set r₁ := pkts.foldl handlePlayerInput r
    by_cases hid : pkt.playerId = q.playerId
    · -- the input is one of the player's own
      rw [← hid] at hd ih
      obtain ⟨d₁, ds₁, hd₁⟩ : ∃ d₁ ds₁, r₁.own pkt.playerId = d₁ :: ds₁ := by
        cases hown : r₁.own pkt.playerId with
        | nil =>
          rw [handlePlayerInput_of_none (getPlayer_of_own_nil hown), hown] at hd
          cases hd
        | cons d₁ ds₁ => exact ⟨d₁, ds₁, rfl⟩
      rw [own_handlePlayerInput hd₁] at hd
      obtain ⟨rfl, -⟩ := List.cons.inj hd
      obtain ⟨hnew, hold⟩ := d₁.reached_handle pkt
      rcases List.mem_append.1 hq with hq | hq
      · exact hold _ (ih hq hd₁)
      · rw [List.mem_singleton.1 hq]
        exact hnew
    · -- an input of another player leaves its statistics
      have hq' : q ∈ pkts := by
        rcases List.mem_append.1 hq with hq | hq
        · exact hq
        · exact absurd (congrArg (·.playerId) (List.mem_singleton.1 hq)).symm hid
      have hown := (Room.Silent.handlePlayerInput hid r₁).own
      rw [hd] at hown
      obtain ⟨d₁, ds₁, hsame, -, hd₁⟩ := List.forall₂_cons_right_iff.1 hown
      have h := ih hq' hd₁
      rw [hsame]
      exact ⟨h.heard, h.input, h.processed⟩

/-- **When inputs are idempotent.** At every point of a sequence of inputs, later copies of
inputs could have been left out with the same outcome, if and only if each later copy
finds the room so that it neither shoots nor moves its player. -/
theorem Room.copiesHarmless_iff (r : Room F) (pkts : List PlayerInputPacket) :
    (∀ pre kept, pre <+: pkts → Thins PlayerInputPacket.Copy [] pre kept →
      (pre.foldl handlePlayerInput r).SameOutcome (kept.foldl handlePlayerInput r)) ↔
    ∀ pre pkt post, pkts = pre ++ pkt :: post → (∃ q ∈ pre, q.Copy pkt) →
      (pre.foldl handlePlayerInput r).Harmless pkt := by
  constructor
  · -- leave out the copy alone, where it has come last
    intro h pre pkt post hpkts hcopy
    refine harmless_of_sameOutcome ?_
    have hpre : pre ++ [pkt] <+: pkts := ⟨post, by rw [hpkts, List.append_assoc]; rfl⟩
    have hsame := h (pre ++ [pkt]) pre hpre (.last hcopy)
    rw [List.foldl_append] at hsame
    exact hsame.symm
  · -- each copy leaves the room as it is
    intro h pre kept hpre hthins
    obtain ⟨rest, rfl⟩ := hpre
    have hstays := foldl_thins (f := handlePlayerInput) (s := r) hthins fun pre' pkt post hsplit hcopy => by
      obtain ⟨q, hq, hid, htick⟩ := hcopy
      refine handlePlayerInput_of_reached (fun d ds hd => ?_) ?_
      · rw [← hid] at hd
        exact htick ▸ reached_foldl hq hd
      · refine h pre' pkt (post ++ rest) ?_ ⟨q, hq, hid, htick⟩
        rw [hsplit, List.append_assoc]
        rfl
    rw [hstays]
    exact .refl _

/-- With exact numbers a moving player comes back exactly when each direction is pressed
together with the opposite one. -/
theorem PlayerInputPacket.returns_iff {K : Type*} [ExactOps K] {velocity : K} (hv : velocity ≠ 0) (pkt : PlayerInputPacket)
    (x y : K) :
    pkt.Returns velocity x y ↔ pkt.has .up = pkt.has .down ∧ pkt.has .left = pkt.has .right := by
  by_cases h1 : pkt.has .up = true <;> by_cases h2 : pkt.has .down = true <;>
    by_cases h3 : pkt.has .left = true <;> by_cases h4 : pkt.has .right = true <;>
      simp [Returns, h1, h2, h3, h4, hv]

/-- A copy of an input to the right moves the player once more. -/
theorem Room.not_copiesHarmless_right :
    Thins PlayerInputPacket.Copy [] [⟨1, 7, 8⟩, ⟨1, 7, 8⟩] [⟨1, 7, 8⟩] ∧
      ¬ (([⟨1, 7, 8⟩, ⟨1, 7, 8⟩] : List PlayerInputPacket).foldl handlePlayerInput Link.started).SameOutcome
        (([⟨1, 7, 8⟩] : List PlayerInputPacket).foldl handlePlayerInput Link.started) := by
  have hcopy : ∃ q ∈ [] ++ [(⟨1, 7, 8⟩ : PlayerInputPacket)], q.Copy ⟨1, 7, 8⟩ :=
    ⟨⟨1, 7, 8⟩, List.mem_cons_self, rfl, rfl⟩
  refine ⟨Thins.last hcopy, fun h => ?_⟩
  -- the room finds the copy to be harmless only if the player comes back
  have hd : (([⟨1, 7, 8⟩] : List PlayerInputPacket).foldl handlePlayerInput Link.started).own 1 =
      [(Player.new 1 []).handle ⟨1, 7, 8⟩] := rfl
  have hharm : (([⟨1, 7, 8⟩] : List PlayerInputPacket).foldl handlePlayerInput Link.started).Harmless ⟨1, 7, 8⟩ :=
    harmless_of_sameOutcome h.symm
  obtain ⟨-, -, hreturns⟩ := hharm _ _ hd
  have hv : ((Player.new 1 []).handle ⟨1, 7, 8⟩ : Player ℚ).velocity ≠ 0 := Int.cast_ne_zero.2 (by decide : (5 : ℤ) ≠ 0)
  exact absurd ((PlayerInputPacket.returns_iff hv _ _ _).1 hreturns).2 (by decide)

end RType

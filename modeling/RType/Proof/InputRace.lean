import RType.Proof.Rooms

/-!
# Whose slot an input writes to

`getPlayer` gives `handlePlayerInput` a pointer and releases the mutex, so the slot may
change hands before the writes through it.

* `inputIsolated`: if nobody at or before the held slot leaves while writes are due,
  every write hits the player the packet names.
* `not_inputIsolated_kick`: a kick between two steps moves another player instead.
-/

namespace RType

open Lts

variable {F : Type*}

/-- The slot that a step of the UDP thread takes for its player's when it writes. -/
def UdpOp.target : UdpOp → Option ℕ
  | stats slot _ => some slot
  | write slot _ => some slot
  | _ => none

/-- The same player, with the same position and input counters. -/
def Player.SameInput (p q : Player F) : Prop :=
  p.id = q.id ∧ p.x = q.x ∧ p.y = q.y ∧ p.lastProcessedTick = q.lastProcessedTick ∧
    p.lastInputTick = q.lastInputTick ∧ p.receivedInputs = q.receivedInputs ∧
    p.lostInputs = q.lostInputs ∧ p.firstInputReceived = q.firstInputReceived

/-- Every player but `playerId` stays in its slot, with its position and counters. -/
def Room.KeepsOthers (playerId : UInt32) (r r' : Room F) : Prop :=
  ∀ (i : ℕ) p, r.game.players[i]? = some p → p.id ≠ playerId →
    ∃ p', r'.game.players[i]? = some p' ∧ p'.SameInput p

theorem Room.KeepsOthers.of_players {playerId : UInt32} {r r' : Room F}
    (h : r'.game.players = r.game.players) : r.KeepsOthers playerId r' :=
  fun i p hp _ => ⟨p, by rw [h, hp], rfl, rfl, rfl, rfl, rfl, rfl, rfl, rfl⟩

/-- Writing to a slot of the player keeps the others. -/
theorem Room.KeepsOthers.of_modify {playerId : UInt32} {r r' : Room F} {slot : ℕ} {f : Player F → Player F}
    (h : r'.game.players = r.game.players.modify slot f) (hslot : r.ids[slot]? = some playerId) :
    r.KeepsOthers playerId r' := by
  intro i p hp hne
  have hi : slot ≠ i := by
    rintro rfl
    rw [ids, List.getElem?_map, hp] at hslot
    exact hne (Option.some.inj hslot)
  exact ⟨p, by rw [h, List.getElem?_modify_ne _ _ hi, hp], rfl, rfl, rfl, rfl, rfl, rfl, rfl, rfl⟩

/-- A filter that keeps everything up to a position keeps that position. -/
theorem getElem?_filter_of_forall_le {α : Type*} {P : α → Bool} :
    ∀ {l : List α} {n : ℕ}, (∀ i ≤ n, ∀ a, l[i]? = some a → P a = true) → (l.filter P)[n]? = l[n]? := by
  intro l
  induction l with
  | nil => simp
  | cons a l ih =>
    intro n h
    have ha : P a = true := h 0 (Nat.zero_le n) a rfl
    rw [List.filter_cons_of_pos ha]
    cases n with
    | zero => rfl
    | succ n => exact ih fun i hi b hb => h (i + 1) (Nat.succ_le_succ hi) b hb

variable [FloatOps F]

namespace GameThreads

/-- Every step of an input leaves the other players' positions and counters alone, and
every write goes to a slot of the vector. -/
def InputIsolated (s₀ : GameThreads F) (as : List (Label F)) : Prop :=
  ∀ pre memory post s s', as = pre ++ .udp memory :: post → machine.run s₀ pre = some s →
    machine.step s (.udp memory) = some s' →
      s.room.KeepsOthers s.playerId s'.room ∧
        ∀ slot w rest, s.ops = .write slot w :: rest → slot < s.room.game.players.length

/-- Nobody at or before a slot that is still to be written is taken out by this step. -/
def SparesHeld (s : GameThreads F) (l : Label F) : Prop :=
  ∀ op ∈ s.ops, ∀ slot, op.target = some slot → ∀ p, l.removes = some p → ∀ i ≤ slot, s.room.ids[i]? ≠ some p

/-- Every slot that is still to be written is the player's. -/
def Held (s : GameThreads F) : Prop :=
  ∀ op ∈ s.ops, ∀ slot, op.target = some slot → s.room.ids[slot]? = some s.playerId

theorem call_target {c : UdpCall} {op : UdpOp} (h : op ∈ c.ops) : op.target = none := by
  cases c <;> simp only [UdpCall.ops, List.mem_singleton] at h <;> subst h <;> rfl

theorem shots_target {pkt : PlayerInputPacket} {op : UdpOp} (h : op ∈ pkt.shots) : op.target = none := by
  simp only [PlayerInputPacket.shots, List.mem_append] at h
  rcases h with h | h <;> split at h <;> simp at h <;> subst h <;> rfl

/-- What a step leads to writes where the step did, or where `getPlayer` pointed. -/
theorem run_target {playerId : UInt32} {memory : Player F} {r : Room F} {op op' : UdpOp} {slot : ℕ}
    (hop : ∀ slot, op.target = some slot → r.ids[slot]? = some playerId)
    (h : op' ∈ (op.run playerId memory r).2) (ht : op'.target = some slot) :
    r.ids[slot]? = some playerId := by
  cases op with
  | getPlayer pkt =>
    simp only [UdpOp.run] at h
    cases hg : r.game.getPlayer playerId with
    | none => simp [hg] at h
    | some slot' =>
      have hs := Room.getElem?_getPlayer hg
      simp only [hg, List.mem_cons, List.mem_append, List.mem_map] at h
      rcases h with rfl | rfl | ⟨w, -, rfl⟩ | h
      · exact Option.some.inj ht ▸ hs
      · cases ht
      · exact Option.some.inj ht ▸ hs
      · rw [shots_target h] at ht; cases ht
  | stats slot' tick =>
    obtain ⟨w, -, rfl⟩ := List.mem_map.1 h
    exact hop slot ht
  | write slot' w => cases h
  | setTick tick => cases h
  | getShooter charged =>
    simp only [UdpOp.run] at h
    split at h
    · cases h
    · rw [List.mem_singleton.1 h] at ht; cases ht
  | shoot slot' charged => cases h

/-- **The held slot stays the player's.** -/
theorem held_step {s s' : GameThreads F} {l : Label F} (hI : Held s) (hC : SparesHeld s l)
    (h : machine.step s l = some s') : Held s' := by
  rcases step_cases h with ⟨c, rfl, -, rfl⟩ | ⟨memory, op, rest, rfl, hops, rfl⟩ | ⟨env, rfl, rfl⟩ |
    ⟨f, hf, rfl⟩
  · intro op hop slot ht
    rw [call_target hop] at ht
    cases ht
  · intro op' hop' slot ht
    change (op.run s.playerId memory s.room).1.ids[slot]? = some s.playerId
    rw [UdpOp.ids]
    rcases List.mem_append.1 hop' with hm | hm
    · exact run_target (hI op (hops ▸ List.mem_cons_self)) hm ht
    · exact hI op' (hops ▸ List.mem_cons_of_mem op hm) slot ht
  · intro op hop slot ht
    change (s.loop.run env s.room).1.ids[slot]? = some s.playerId
    rw [LoopPc.ids]
    exact hI op hop slot ht
  · intro op hop slot ht
    have hs := hI op hop slot ht
    change (f s.room).ids[slot]? = some s.playerId
    rcases section_ids hf s.room with ⟨-, he | ⟨-, p, -, he⟩⟩ | ⟨p, hp, he⟩
    · rw [he, hs]
    · rw [he, List.getElem?_append_left (List.getElem?_eq_some_iff.1 hs).1, hs]
    · rw [he, getElem?_filter_of_forall_le, hs]
      rintro i hi a ha
      have : a ≠ p := by
        rintro rfl
        exact hC op hop slot ht a hp i hi ha
      simpa using this

/-- A step of the UDP thread that holds its player's slot keeps the others. -/
theorem udp_keepsOthers {playerId : UInt32} {memory : Player F} {r : Room F} {op : UdpOp}
    (hop : ∀ slot, op.target = some slot → r.ids[slot]? = some playerId) :
    r.KeepsOthers playerId (op.run playerId memory r).1 := by
  cases op with
  | getPlayer pkt => simp only [UdpOp.run]; split <;> exact .of_players rfl
  | stats slot tick => exact .of_players rfl
  | write slot w => exact .of_modify rfl (hop slot rfl)
  | setTick tick =>
    simp only [UdpOp.run, Game.setPlayerLastProcessedTick]
    split
    · rename_i slot hg
      exact .of_modify rfl (Room.getElem?_getPlayer hg)
    · exact .of_players rfl
  | getShooter charged => simp only [UdpOp.run]; split <;> exact .of_players rfl
  | shoot slot charged => exact .of_players (UdpOp.shoot_works r _ _ charged).players

/-- **An input moves only its own player**, in any run in which nobody at or before a slot
that is still to be written leaves the room. -/
theorem inputIsolated (room : Room F) (playerId : UInt32) (loop : LoopPc F) (as : List (Label F))
    (hC : machine.Along SparesHeld ⟨room, playerId, [], loop⟩ as) :
    InputIsolated ⟨room, playerId, [], loop⟩ as := by
  intro pre memory post s s' has hrun hstep
  have h0 : Held (⟨room, playerId, [], loop⟩ : GameThreads F) := fun op hop => nomatch hop
  have hI : Held s := Machine.inv_along (fun s l s' => held_step) pre _ s h0
    (hC.upTo ⟨_, has.symm⟩ hrun) hrun
  refine ⟨?_, fun slot w rest hops => ?_⟩
  · rcases step_cases hstep with ⟨c, hl, -⟩ | ⟨_, op, rest, -, hops, rfl⟩ | ⟨env, hl, -⟩ | ⟨f, hf, -⟩
    · cases hl
    · exact udp_keepsOthers (hI op (hops ▸ List.mem_cons_self))
    · cases hl
    · cases hf
  · have hs := hI (.write slot w) (hops ▸ List.mem_cons_self) slot rfl
    have hlt := (List.getElem?_eq_some_iff.1 hs).1
    rwa [Room.ids, List.length_map] at hlt

/-- A room of players 1, 2 and 3, with no call in progress. -/
def threePlayers : GameThreads Float32 :=
  ⟨⟨(((Game.new 0).addPlayer 1 []).addPlayer 2 []).addPlayer 3 [], Boss.none, []⟩, 0, [], .idle⟩

/-- Player 2 leaves while an input of player 1 is being written: player 1 is in front. -/
theorem inputIsolated_threePlayers :
    InputIsolated threePlayers [.call (.handlePlayerInput ⟨1, 7, 8⟩), .udp (Player.new 0 []), .kickPlayer 2,
      .udp (Player.new 0 []), .udp (Player.new 0 [])] := by
  refine inputIsolated _ _ _ _ (.cons rfl ?_ (.cons rfl ?_ (.cons rfl ?_ (.cons rfl ?_ (.cons rfl ?_ .nil)))))
  case refine_3 =>
    intro op hop slot ht p hp i hi
    obtain rfl : (2 : UInt32) = p := Option.some.inj hp
    have h0 : slot = 0 := by
      change op ∈ [UdpOp.stats 0 7, .setTick 7, .write 0 (.move .right)] at hop
      simp only [List.mem_cons, List.not_mem_nil, or_false] at hop
      rcases hop with rfl | rfl | rfl <;> cases ht <;> rfl
    obtain rfl : i = 0 := Nat.le_zero.1 (h0 ▸ hi)
    decide
  all_goals intro _ _ _ _ p hp; cases hp

/-- **Player 1 is kicked between `getPlayer` and the writes of an input of player 2**: the
slot of player 2 now holds player 3, who gets the tick. -/
theorem not_inputIsolated_kick :
    ¬ InputIsolated threePlayers [.call (.handlePlayerInput ⟨2, 7, 8⟩), .udp (Player.new 0 []), .kickPlayer 1,
      .udp (Player.new 0 []), .udp (Player.new 0 [])] := by
  intro h
  obtain ⟨hk, -⟩ := h [_, _, _, _] (Player.new 0 []) [] _ _ rfl rfl rfl
  obtain ⟨p', hp', -, -, -, -, htick, -⟩ := hk 1 (Player.new 3 []) rfl (by decide)
  obtain rfl := Option.some.inj hp'
  exact absurd htick (by decide)

end GameThreads

end RType

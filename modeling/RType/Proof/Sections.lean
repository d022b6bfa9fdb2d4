import RType.Proof.Rooms

/-!
# Sections without interruption

The steps of the UDP thread, taken alone, are `Room.handlePlayerInput`
(`handlePlayerInput_run`), and those of the loop are `Room.update` (`update_run`): the
threads of a room refine the methods of `Game`. So what the steps keep, the methods keep
(`handlePlayerInput_rule`, `update_rule`), and what the methods can do one after the
other, the threads can do (`Rests`).
-/

namespace RType

open Lts

variable {F : Type*} [FloatOps F]

/-! ## An input -/

/-- The writes of the loss statistics are `recordInput`. -/
theorem Player.foldl_recordWrites {F : Type*} [FloatOps F] (p : Player F) (tick : UInt32) :
    (p.recordWrites tick).foldl (fun p w => w.apply p) p = p.recordInput tick := by
  unfold recordWrites recordInput
  split
  · rfl
  · split
    · extract_lets lostCount
      by_cases h : 0 < lostCount <;> simp [h, SlotWrite.apply]
    · rfl

/-- Writes to one slot, one after the other. -/
theorem Room.foldl_writeSlot (r : Room F) (slot : ℕ) (ws : List SlotWrite) :
    ws.foldl (fun r w => r.writeSlot slot w.apply) r =
      r.writeSlot slot fun p => ws.foldl (fun p w => w.apply p) p := by
  induction ws generalizing r with
  | nil => rw [writeSlot, show (fun p => List.foldl (fun p w => SlotWrite.apply w p) p []) = id from rfl, List.modify_id]; rfl
  | cons w ws ih =>
    rw [List.foldl_cons, ih]
    simp only [writeSlot, List.modify_modify_eq]
    rfl

omit [FloatOps F] in
/-- A write depends on what the slot holds only. -/
theorem Room.writeSlot_congr {r : Room F} {slot : ℕ} {f g : Player F → Player F}
    (h : ∀ p, r.game.players[slot]? = some p → f p = g p) : r.writeSlot slot f = r.writeSlot slot g := by
  have : r.game.players.modify slot f = r.game.players.modify slot g := by
    apply List.ext_getElem?
    intro i
    rw [List.getElem?_modify, List.getElem?_modify]
    split
    · rename_i hi
      cases hp : r.game.players[i]? with
      | none => rfl
      | some p => simp [h p (hi ▸ hp)]
    · rfl
  rw [writeSlot, writeSlot, this]

namespace GameThreads

/-- The steps `ops` of a call, taken alone, lead from `r` to `r'`. -/
def Completes (playerId : UInt32) (memory : Player F) (loop : LoopPc F) (ops : List UdpOp) (r r' : Room F) :
    Prop :=
  ∃ n, machine.run ⟨r, playerId, ops, loop⟩ (List.replicate n (.udp memory)) = some ⟨r', playerId, [], loop⟩

variable {playerId : UInt32} {memory : Player F} {loop : LoopPc F} {r r' : Room F}

theorem Completes.nil : Completes playerId memory loop [] r r := ⟨0, rfl⟩

theorem Completes.cons {op : UdpOp} {ops : List UdpOp}
    (h : Completes playerId memory loop ((op.run playerId memory r).2 ++ ops) (op.run playerId memory r).1 r') :
    Completes playerId memory loop (op :: ops) r r' := by
  obtain ⟨n, hn⟩ := h
  exact ⟨n + 1, machine.run_cons_iff.2 ⟨_, rfl, hn⟩⟩

theorem Completes.writes {slot : ℕ} {ops : List UdpOp} (ws : List SlotWrite)
    (h : Completes playerId memory loop ops (ws.foldl (fun r w => r.writeSlot slot w.apply) r) r') :
    Completes playerId memory loop (ws.map (.write slot) ++ ops) r r' := by
  induction ws generalizing r with
  | nil => exact h
  | cons w ws ih => exact Completes.cons (ih h)

/-- A shot of a call taken alone reads the shooter that `getPlayer` found. -/
theorem Completes.shot {charged : Bool} {ops : List UdpOp}
    (h : Completes playerId memory loop ops
      (if charged then r.createPlayerChargedShot playerId else r.createPlayerShot playerId) r') :
    Completes playerId memory loop (.getShooter charged :: ops) r r' := by
  have hfind : r.game.players.find? (·.id == playerId) = (r.game.getPlayer playerId).bind (r.game.players[·]?) :=
    List.find?_eq_bind_findIdx?_getElem?
  simp only [Room.createPlayerChargedShot, Room.createPlayerShot, hfind] at h
  apply Completes.cons
  simp only [UdpOp.run]
  cases hg : r.game.getPlayer playerId with
  | none =>
    simp only [hg, Option.bind_none, ite_self] at h
    exact h
  | some slot =>
    have hs := Room.getElem?_getPlayer hg
    rw [Room.ids, List.getElem?_map, Option.map_eq_some_iff] at hs
    obtain ⟨p, hp, -⟩ := hs
    simp only [hg, Option.bind_some, hp] at h
    apply Completes.cons
    simp only [UdpOp.run, hp, Option.getD_some]
    exact h

/-- The calls that follow the movement of a packet. -/
theorem Completes.shots (pkt : PlayerInputPacket) :
    Completes playerId memory loop pkt.shots r
      (let r := if pkt.has .pressed then r.createPlayerShot playerId else r
       if pkt.has .hold then r.createPlayerChargedShot playerId else r) := by
  unfold PlayerInputPacket.shots
  by_cases hp : pkt.has .pressed = true <;> by_cases hh : pkt.has .hold = true <;>
    simp only [hp, hh, if_true, if_false, Bool.false_eq_true, List.nil_append, List.append_nil,
      List.cons_append]
  · exact Completes.shot (Completes.shot Completes.nil)
  · exact Completes.shot Completes.nil
  · exact Completes.shot Completes.nil
  · exact Completes.nil

/-- The movement writes of a packet, one after the other. -/
theorem foldl_moves (pkt : PlayerInputPacket) (slot : ℕ) (r : Room F) :
    pkt.moves.foldl (fun r w => r.writeSlot slot w.apply) r =
      (let r := if pkt.has .up then r.writeSlot slot (·.move .up) else r
       let r := if pkt.has .down then r.writeSlot slot (·.move .down) else r
       let r := if pkt.has .left then r.writeSlot slot (·.move .left) else r
       if pkt.has .right then r.writeSlot slot (·.move .right) else r) := by
  by_cases h1 : pkt.has .up = true <;> by_cases h2 : pkt.has .down = true <;>
    by_cases h3 : pkt.has .left = true <;> by_cases h4 : pkt.has .right = true <;>
      simp [PlayerInputPacket.moves, h1, h2, h3, h4] <;> rfl

/-- `handlePlayerInput` for a player in the room: the statistics, the tick, the movement
and the shots. -/
theorem handlePlayerInput_of_getPlayer {r : Room F} {pkt : PlayerInputPacket} {slot : ℕ}
    (hg : r.game.getPlayer pkt.playerId = some slot) :
    r.handlePlayerInput pkt =
      (let r := r.writeSlot slot (·.recordInput pkt.tick)
       let r := { r with game := r.game.setPlayerLastProcessedTick pkt.playerId pkt.tick }
       let r := pkt.moves.foldl (fun r w => r.writeSlot slot w.apply) r
       let r := if pkt.has .pressed then r.createPlayerShot pkt.playerId else r
       if pkt.has .hold then r.createPlayerChargedShot pkt.playerId else r) := by
  extract_lets r₁ r₂ r₃ r₄
  have h3 : r₃ = _ := foldl_moves pkt slot r₂
  unfold Room.handlePlayerInput
  rw [hg]
  simp only [r₄, h3]
  rfl

/-- **The steps of an input, taken alone, are `handlePlayerInput`.** -/
theorem handlePlayerInput_run (r : Room F) (playerId : UInt32) (memory : Player F) (loop : LoopPc F)
    (pkt : PlayerInputPacket) :
    ∃ n, machine.run ⟨r, playerId, [], loop⟩ (.call (.handlePlayerInput pkt) :: List.replicate n (.udp memory)) =
      some ⟨r.handlePlayerInput pkt, pkt.playerId, [], loop⟩ := by
  suffices h : Completes pkt.playerId memory loop [.getPlayer pkt] r (r.handlePlayerInput pkt) by
    obtain ⟨n, hn⟩ := h
    exact ⟨n, machine.run_cons_iff.2 ⟨_, rfl, hn⟩⟩
  apply Completes.cons
  cases hg : r.game.getPlayer pkt.playerId with
  | none =>
    have h0 : r.handlePlayerInput pkt = r := by rw [Room.handlePlayerInput, hg]
    simp only [UdpOp.run, hg, h0]
    exact Completes.nil
  | some slot =>
    have hs := Room.getElem?_getPlayer hg
    rw [Room.ids, List.getElem?_map, Option.map_eq_some_iff] at hs
    obtain ⟨p, hp, -⟩ := hs
    rw [handlePlayerInput_of_getPlayer hg]
    simp only [UdpOp.run, hg, List.append_nil]
    -- the statistics
    apply Completes.cons
    simp only [UdpOp.run, hp, Option.getD_some]
    apply Completes.writes
    rw [Room.foldl_writeSlot, Room.writeSlot_congr fun p' hp' =>
      (Option.some.inj (hp.symm.trans hp') ▸ p.foldl_recordWrites pkt.tick : _ = p'.recordInput pkt.tick)]
    -- the tick, the movement, the shots
    apply Completes.cons
    exact Completes.writes pkt.moves (Completes.shots pkt)

/-- **What each step of the UDP thread keeps, `handlePlayerInput` keeps.** -/
theorem handlePlayerInput_rule {I : Room F → Prop} {pkt : PlayerInputPacket}
    (h : ∀ memory op r, I r → I (UdpOp.run pkt.playerId memory r op).1) {r : Room F} (hr : I r) :
    I (r.handlePlayerInput pkt) := by
  obtain ⟨n, hn⟩ := handlePlayerInput_run r pkt.playerId (Player.new 0 []) .idle pkt
  refine (Machine.inv_along (M := machine) (I := fun s => I s.room ∧ s.playerId = pkt.playerId)
    (C := fun _ l => l = .call (.handlePlayerInput pkt) ∨ ∃ memory, l = .udp memory) ?_ _ _ _ ⟨hr, rfl⟩ ?_ hn).1
  · rintro s l s' ⟨hI, hp⟩ hl hs
    rcases step_cases hs with ⟨c, rfl, -, rfl⟩ | ⟨memory, op, rest, rfl, -, rfl⟩ | ⟨env, rfl, rfl⟩ | ⟨f, hf, rfl⟩
    · rcases hl with hl | ⟨memory, hl⟩ <;> cases hl
      exact ⟨hI, rfl⟩
    · exact ⟨hp ▸ h memory op s.room hI, hp⟩
    · rcases hl with hl | ⟨memory, hl⟩ <;> cases hl
    · rcases hl with rfl | ⟨memory, rfl⟩ <;> cases hf
  · refine Machine.along_of_forall fun pre l post s he _ => ?_
    have hmem : l ∈ Label.call (.handlePlayerInput pkt) :: List.replicate n (.udp (Player.new 0 [])) := by
      rw [he]
      exact List.mem_append_right _ List.mem_cons_self
    rcases List.mem_cons.1 hmem with hl | hl
    · exact .inl hl
    · exact .inr ⟨_, List.eq_of_mem_replicate hl⟩

/-! ## An update -/

/-- The rest of an `update`, taken alone, leads from `r` to `r'`. -/
def Updates (playerId : UInt32) (ops : List UdpOp) (env : UpdateEnv) (pc : LoopPc F) (r r' : Room F) : Prop :=
  ∃ n, machine.run ⟨r, playerId, ops, pc⟩ (List.replicate n (.loop env)) = some ⟨r', playerId, ops, .idle⟩

variable {playerId : UInt32} {ops : List UdpOp} {env : UpdateEnv}

theorem Updates.next {pc : LoopPc F} {r r' : Room F}
    (h : Updates playerId ops env (pc.run env r).2 (pc.run env r).1 r') : Updates playerId ops env pc r r' := by
  obtain ⟨n, hn⟩ := h
  exact ⟨n + 1, machine.run_cons_iff.2 ⟨_, rfl, hn⟩⟩

theorem Updates.idle (r : Room F) : Updates playerId ops env .idle r r := ⟨0, rfl⟩

theorem Updates.enemyStage (r : Room F) :
    Updates playerId ops env .enemyStage r ((r.enemyStage env).syncStage env) :=
  .next (.next (.idle _))

theorem Updates.bossAim (r : Room F) :
    Updates playerId ops env .bossAim r
      (let r := match r.bossAim with
        | some (bossX, bossY) => r.bossShoot bossX bossY
        | none => r
       (r.enemyStage env).syncStage env) := by
  apply Updates.next
  simp only [LoopPc.run]
  cases r.bossAim with
  | none => exact .enemyStage r
  | some p => exact .next (.enemyStage _)

/-- **The sections of `update`, taken alone, are `update`.** -/
theorem update_run (r : Room F) (playerId : UInt32) (ops : List UdpOp) (env : UpdateEnv) :
    ∃ n, machine.run ⟨r, playerId, ops, .idle⟩ (List.replicate n (.loop env)) =
      some ⟨r.update env, playerId, ops, .idle⟩ := by
  by_cases hp : r.game.status = .playing
  swap
  · rw [Room.update, if_pos hp]
    exact Updates.idle r
  rw [Room.update, if_neg (not_not.2 hp)]
  apply Updates.next
  simp only [LoopPc.run, hp, if_true]
  apply Updates.next
  apply Updates.next
  apply Updates.next
  apply Updates.next
  apply Updates.next
  simp only [LoopPc.run]
  rcases (r.updateEntities.handleCollision.broadcastGameState.updateGameLevel 0.016).bossStage with ⟨r', _ | bossMaxHP⟩
  · exact .bossAim r'
  · exact .next (.bossAim _)

/-- **What each section keeps at its place, `update` keeps.** -/
theorem update_rule_at {I : Room F → LoopPc F → Prop}
    (h : ∀ env pc r, I r pc → I (pc.run env r).1 (pc.run env r).2) {r : Room F} (env : UpdateEnv) (hr : I r .idle) :
    I (r.update env) .idle := by
  obtain ⟨n, hn⟩ := update_run r 0 [] env
  refine Machine.inv_along (M := machine) (I := fun s => I s.room s.loop) (C := fun _ l => l = .loop env) ?_ _ _ _ hr ?_ hn
  · rintro s l s' hI rfl hs
    rcases step_cases hs with ⟨c, hl, -, rfl⟩ | ⟨memory, op, rest, hl, -, rfl⟩ | ⟨env', -, rfl⟩ | ⟨f, hf, rfl⟩
    · cases hl
    · cases hl
    · exact h env' s.loop s.room hI
    · cases hf
  · refine Machine.along_of_forall fun pre l post s he _ => ?_
    exact List.eq_of_mem_replicate (he ▸ List.mem_append_right _ List.mem_cons_self)

/-- **What each section keeps, `update` keeps.** -/
theorem update_rule {I : Room F → Prop} (h : ∀ env (pc : LoopPc F) r, I r → I (pc.run env r).1) {r : Room F}
    (env : UpdateEnv) (hr : I r) : I (r.update env) :=
  update_rule_at (I := fun r _ => I r) h env hr

/-- Input keeps the players and their names. -/
theorem input_names (r : Room F) (pkt : PlayerInputPacket) (addr : SockAddr) : (r.input pkt addr).names = r.names :=
  handlePlayerInput_rule (I := fun r' => r'.names = r.names)
    (fun memory op r' h => (UdpOp.names _ memory r' op).trans h) (r.game.updatePlayerUdpAddr_names _ addr)

/-- So does an update. -/
theorem update_names (r : Room F) (env : UpdateEnv) : (r.update env).names = r.names :=
  update_rule (I := fun r' => r'.names = r.names) (fun env pc r' h => (LoopPc.names env r' pc).trans h) env rfl

/-! ## One method after the other -/

/-- Some run leads to the room `r`, with no call and no update in progress. -/
def Rests (s : GameThreads F) (r : Room F) : Prop :=
  ∃ labels playerId, machine.run s labels = some ⟨r, playerId, [], .idle⟩

namespace Rests

variable {s : GameThreads F} {r : Room F}

theorem handlePlayerInput (h : s.Rests r) (pkt : PlayerInputPacket) : s.Rests (r.handlePlayerInput pkt) := by
  obtain ⟨labels, playerId, h⟩ := h
  obtain ⟨n, hn⟩ := handlePlayerInput_run r playerId (Player.new 0 []) .idle pkt
  exact ⟨_, pkt.playerId, machine.run_append_iff.2 ⟨_, h, hn⟩⟩

theorem createPlayerShot (h : s.Rests r) (shooter : UInt32) : s.Rests (r.createPlayerShot shooter) := by
  obtain ⟨labels, playerId, h⟩ := h
  obtain ⟨n, hn⟩ : Completes shooter (Player.new 0 []) .idle [.getShooter false] r (r.createPlayerShot shooter) :=
    .shot .nil
  have hcall : machine.run ⟨r, playerId, [], .idle⟩ (.call (.createPlayerShot shooter) :: List.replicate n _) = _ :=
    machine.run_cons_iff.2 ⟨_, rfl, hn⟩
  exact ⟨_, shooter, machine.run_append_iff.2 ⟨_, h, hcall⟩⟩

theorem update (h : s.Rests r) (env : UpdateEnv) : s.Rests (r.update env) := by
  obtain ⟨labels, playerId, h⟩ := h
  obtain ⟨n, hn⟩ := update_run r playerId [] env
  exact ⟨_, playerId, machine.run_append_iff.2 ⟨_, h, hn⟩⟩

end Rests

end GameThreads

end RType

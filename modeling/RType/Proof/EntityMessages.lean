import RType.Proof.EntityWork

/-!
# What a player is told about an entity

* `entityMessages`: in runs that create fewer than `2 ^ 32` entities, a player that is bound
  before an entity is created and stays is told of its creation, then of its updates, and
  of its destruction exactly when it is gone; live ids are distinct, and below the counter
  as long as the counter has not come round to 0.
* `not_belowNextId`: with `2 ^ 32 - 1` shots it has.
-/

namespace RType

open Lts

variable {F : Type*} [FloatOps F]

namespace GameThreads

theorem section_quiet {l : Label F} {f : Room F → Room F} (h : l.section = some f) (r : Room F) :
    Quiet r (f r) := by
  cases l <;> simp only [Label.section, Option.some.injEq, reduceCtorEq] at h <;> subst h
  case updatePlayerUdpAddr p addr =>
    simp only [Game.updatePlayerUdpAddr]
    split <;> exact .of_eq rfl rfl rfl
  case join p username => simp only [RoomAct.run, Room.join]; split <;> exact .of_eq rfl rfl rfl
  case start p => simp only [RoomAct.run, Room.start]; split <;> exact .of_eq rfl rfl rfl
  case removePlayerFromLobby p => exact .of_eq rfl rfl rfl
  case disconnectPlayer p => exact disconnectPlayer_quiet r p
  case kickPlayer p => exact kickPlayer_quiet r p

/-- **What a step does to the entities**: nothing, or the work of a section that leaves the
players alone. -/
theorem step_work {s s' : GameThreads F} {l : Label F} (h : machine.step s l = some s') :
    Quiet s.room s'.room ∨ ∃ n ≤ 3, EntityWork n s.room s'.room := by
  rcases step_cases h with ⟨c, rfl, -, rfl⟩ | ⟨memory, op, rest, rfl, -, rfl⟩ | ⟨env, rfl, rfl⟩ |
    ⟨f, hf, rfl⟩
  · exact .inl (.of_eq rfl rfl rfl)
  · rcases op.run_cases s.playerId memory s.room with he | ⟨slot, f, -, he⟩ | ⟨slot, charged, rfl⟩
    · left
      simp only [he]
      exact .of_eq rfl rfl rfl
    · left
      simp only [he]
      exact .of_eq rfl rfl rfl
    · exact .inr ⟨1, by omega, UdpOp.shoot_work _ _ _ charged⟩
  · by_cases hpc : s.loop = .broadcastGameState
    · left
      simp only [hpc]
      exact broadcastGameState_quiet s.room
    · exact .inr (LoopPc.entityWork env s.room hpc)
  · exact .inl (section_quiet hf s.room)

/-- How many entities a step creates: how far it moves the counter. -/
def created (s s' : GameThreads F) : ℕ := (s'.room.game.nextEntityId - s.room.game.nextEntityId).toNat

omit [FloatOps F] in
theorem created_of_quiet {s s' : GameThreads F} (h : Quiet s.room s'.room) : created s s' = 0 := by
  rw [created, h.next, UInt32.sub_self]
  rfl

theorem created_of_work {s s' : GameThreads F} {n : ℕ} (hn : n ≤ 3) (h : EntityWork n s.room s'.room) :
    created s s' = n := by
  have hnext : s'.room.game.nextEntityId = s.room.game.nextEntityId + UInt32.ofNat n := by
    clear hn
    generalize s.room = r at h
    generalize s'.room = r' at h
    induction h with
    | quiet hQ _ => rw [hQ.next]; exact (UInt32.add_zero _).symm
    | spawn r type x y vx vy h w extra _ => rfl
    | update r => exact (UInt32.add_zero _).symm
    | sync r => exact (UInt32.add_zero _).symm
    | trans _ _ ih ih' => rw [ih', ih, UInt32.add_assoc, ← UInt32.ofNat_add]
  rw [created, hnext, UInt32.add_comm, UInt32.add_sub_cancel]
  exact UInt32.toNat_ofNat_of_lt' (lt_of_le_of_lt hn (by decide))

theorem born_step {k : ℕ} {s s' : GameThreads F} {l : Label F} (hB : Born k s.room)
    (h : machine.step s l = some s') (hk : k + created s s' < 2 ^ 32) : Born (k + created s s') s'.room := by
  rcases step_work h with hQ | ⟨n, hn, hW⟩
  · rw [created_of_quiet hQ]
    exact hB.quiet hQ
  · rw [created_of_work hn hW] at hk ⊢
    exact hB.work hW hk

theorem tracked_step {k : ℕ} {d e : UInt32} {s s' : GameThreads F} {l : Label F} (hB : Born k s.room)
    (hd : BoundIn d s.room.game.players) (hT : Tracked d e k s.room) (h : machine.step s l = some s')
    (hk : k + created s s' < 2 ^ 32) : Tracked d e (k + created s s') s'.room := by
  rcases step_work h with hQ | ⟨n, hn, hW⟩
  · rw [created_of_quiet hQ]
    exact hT.quiet hQ
  · rw [created_of_work hn hW] at hk ⊢
    exact hT.work hB hd hW hk

/-! ## Bound players -/

/-- The bound players of a room stay bound while they stay. -/
def KeepsBound (ps ps' : List (Player F)) : Prop :=
  ∀ p ∈ ps, p.addrSet = true → p.id ∈ ps'.map (·.id) → ∃ p' ∈ ps', p'.id = p.id ∧ p'.addrSet = true

omit [FloatOps F] in
theorem KeepsBound.of_map {ps : List (Player F)} {f : Player F → Player F} (hid : ∀ p, (f p).id = p.id)
    (hb : ∀ p, p.addrSet = true → (f p).addrSet = true) : KeepsBound ps (ps.map f) :=
  fun p hp h _ => ⟨f p, List.mem_map_of_mem hp, hid p, hb p h⟩

omit [FloatOps F] in
theorem KeepsBound.of_modify {ps : List (Player F)} {i : ℕ} {f : Player F → Player F}
    (hid : ∀ p, (f p).id = p.id) (hb : ∀ p, p.addrSet = true → (f p).addrSet = true) :
    KeepsBound ps (ps.modify i f) := by
  intro p hp h _
  obtain ⟨j, hj⟩ := List.mem_iff_getElem?.1 hp
  by_cases hij : i = j
  · refine ⟨f p, List.mem_iff_getElem?.2 ⟨j, ?_⟩, hid p, hb p h⟩
    rw [hij, List.getElem?_modify_eq, hj]
    rfl
  · refine ⟨p, List.mem_iff_getElem?.2 ⟨j, ?_⟩, rfl, h⟩
    rw [List.getElem?_modify_ne _ _ hij, hj]

omit [FloatOps F] in
theorem KeepsBound.of_subset {ps ps' : List (Player F)} (h : ∀ p ∈ ps, p.id ∈ ps'.map (·.id) → p ∈ ps') :
    KeepsBound ps ps' :=
  fun p hp hb hin => ⟨p, h p hp hin, rfl, hb⟩

/-- **A step unbinds nobody.** -/
theorem keepsBound_step {s s' : GameThreads F} {l : Label F} (h : machine.step s l = some s') :
    KeepsBound s.room.game.players s'.room.game.players := by
  have hsame : ∀ ps : List (Player F), KeepsBound ps ps := fun ps => .of_subset fun _ hp _ => hp
  -- the players that stay are the ones they were
  have hfilter : ∀ (ps : List (Player F)) q, KeepsBound ps (ps.filter (·.id != q)) := by
    intro ps q
    refine .of_subset fun p hp hin => ?_
    obtain ⟨p', hp', heq⟩ := List.mem_map.1 hin
    exact List.mem_filter.2 ⟨hp, heq ▸ (List.mem_filter.1 hp').2⟩
  rcases step_cases h with ⟨c, rfl, -, rfl⟩ | ⟨memory, op, rest, rfl, -, rfl⟩ | ⟨env, rfl, rfl⟩ |
    ⟨f, hf, rfl⟩
  · exact hsame _
  · rcases op.run_cases s.playerId memory s.room with he | ⟨slot, f, hf, he⟩ | ⟨slot, charged, rfl⟩
    · simp only [he]
      exact hsame _
    · simp only [he]
      exact .of_modify hf.id fun p hp => (hf.addrSet p).trans hp
    · exact (UdpOp.shoot_works s.room _ _ charged).players ▸ hsame _
  · by_cases hpc : s.loop = .broadcastGameState
    · simp only [hpc]
      exact .of_map (fun p => by split <;> rfl) fun p hp => by split <;> exact hp
    · exact (LoopPc.works env s.room hpc).players ▸ hsame _
  · cases l <;> simp only [Label.section, Option.some.injEq, reduceCtorEq] at hf <;> subst hf
    case updatePlayerUdpAddr q addr =>
      simp only [Game.updatePlayerUdpAddr]
      split
      · exact .of_modify (fun p => by split <;> rfl) fun p hp => by rw [if_pos hp]; exact hp
      · exact hsame _
    case join q username =>
      simp only [RoomAct.run, Room.join]
      split
      · exact .of_subset fun p hp _ => List.mem_append_left _ hp
      · exact hsame _
    case start q => simp only [RoomAct.run, Room.start]; split <;> exact hsame _
    all_goals exact hfilter _ _

theorem boundIn_step {d : UInt32} {s s' : GameThreads F} {l : Label F} (hd : BoundIn d s.room.game.players)
    (hC : FreshJoins s l) (h : machine.step s l = some s') (hin : d ∈ s'.room.ids) :
    BoundIn d s'.room.game.players := by
  obtain ⟨hn, p, hp, rfl, hb⟩ := hd
  exact ⟨nodup_step hn hC h, keepsBound_step h p hp hb hin⟩

/-! ## Runs -/

/-- Whenever a step creates an entity, and a player is bound before it and stays in the
room, all that the player is told about the entity is one spawn, then touches, then a
destruction exactly if the entity is gone. -/
def Disciplined (s₀ : GameThreads F) (as : List (Label F)) : Prop :=
  ∀ pre l post s₁ s₂ t, as = pre ++ l :: post → machine.run s₀ pre = some s₁ →
    machine.step s₁ l = some s₂ → machine.run s₂ post = some t →
    ∀ d e, e ∉ s₁.room.entityIds → e ∈ s₂.room.entityIds →
      (∃ p ∈ s₁.room.game.players, p.id = d ∧ p.addrSet = true) →
      (∀ u, machine.Visits s₂ post u → d ∈ u.room.ids) → Lived d e t.room

/-- The live ids are distinct throughout the run. -/
def DistinctIds (s₀ : GameThreads F) (as : List (Label F)) : Prop :=
  ∀ t, machine.Visits s₀ as t → t.room.entityIds.Nodup

/-- The live ids are below the counter throughout the run. -/
def BelowNextId (s₀ : GameThreads F) (as : List (Label F)) : Prop :=
  ∀ t, machine.Visits s₀ as t → ∀ e ∈ t.room.entityIds, e < t.room.game.nextEntityId

theorem born_init (boss : Boss F) (now : ℕ) : Born 0 (init boss now).room :=
  ⟨rfl, List.nodup_nil, fun _ he => (nomatch he), fun _ hm => (nomatch hm)⟩

/-- The count of entities along a run bounds the ids. -/
theorem born_run {boss : Boss F} {now : ℕ} {as : List (Label F)} {t : GameThreads F}
    (hr : machine.run (init boss now) as = some t) (hk : machine.total created (init boss now) as < 2 ^ 32) :
    Born (machine.total created (init boss now) as) t.room := by
  have h := Machine.inv_total (M := machine) (C := fun _ _ => True) (J := fun k s => Born k s.room)
    (fun k s a s' hB _ hs hk => born_step hB hs hk) as 0 _ t (born_init boss now)
    (Machine.along_of_forall fun _ _ _ _ _ _ => trivial) hr (by rwa [Nat.zero_add])
  rwa [Nat.zero_add] at h

/-- A step that makes an entity appear gives it an id that was never told about. -/
theorem tracked_of_appears {k : ℕ} {d e : UInt32} {s s' : GameThreads F} {l : Label F} (hB : Born k s.room)
    (h : machine.step s l = some s') (hk : k + created s s' < 2 ^ 32) (hnot : e ∉ s.room.entityIds)
    (hin : e ∈ s'.room.entityIds) : Tracked d e k s.room := by
  have hlt : k < e.toNat := by
    rcases step_work h with hQ | ⟨n, hn, hW⟩
    · exact absurd (hQ.ids ▸ hin) hnot
    · rw [created_of_work hn hW] at hk
      exact (hW.mem_ids hB hk hin).resolve_left hnot
  refine .inl ⟨hlt, history_eq_nil fun m hm => ?_⟩
  by_contra hne
  have := hB.told m hm e hne
  omega

/-- **Every created entity is told about in order.** -/
theorem disciplined {boss : Boss F} {now : ℕ} {as : List (Label F)}
    (hJ : machine.Along FreshJoins (init boss now) as)
    (hk : machine.total created (init boss now) as < 2 ^ 32) : Disciplined (init boss now) as := by
  rintro pre l post s₁ s₂ t rfl hpre hstep hpost d e hnot hin hd hstays
  obtain ⟨hJ₁, hJl, hJ₂⟩ := (Machine.along_append hpre).1 hJ
  rw [machine.total_append created hpre, machine.total_cons created hstep] at hk
  have hB₁ := born_run hpre (by omega)
  have hn₁ : s₁.room.ids.Nodup := Machine.inv_along (fun s l s' => nodup_step) pre _ s₁ List.nodup_nil hJ₁ hpre
  have hk₁ : machine.total created (init boss now) pre + created s₁ s₂ < 2 ^ 32 := by omega
  have hB₂ := born_step hB₁ hstep hk₁
  have hT₂ := tracked_step hB₁ ⟨hn₁, hd⟩ (tracked_of_appears hB₁ hstep hk₁ hnot hin) hstep hk₁
  have hd₂ := boundIn_step ⟨hn₁, hd⟩ hJl hstep (hstays s₂ Machine.visits_self)
  -- from the creation on: the player stays bound and the history stays in order
  have hC : machine.Along (fun s l => FreshJoins s l ∧ d ∈ s.room.ids) s₂ post :=
    Machine.along_of_forall fun pre' a post' u he hu =>
      ⟨(he ▸ hJ₂ s₂ hstep).at hu, hstays u ⟨pre', ⟨_, he.symm⟩, hu⟩⟩
  have hrun := Machine.inv_total (M := machine) (f := created) (J := fun k s =>
      Born k s.room ∧ Tracked d e k s.room ∧ (d ∈ s.room.ids → BoundIn d s.room.game.players))
    (fun k s a s' ⟨hB, hT, hb⟩ ⟨hCj, hCd⟩ hs hk =>
      ⟨born_step hB hs hk, tracked_step hB (hb hCd) hT hs hk, boundIn_step (hb hCd) hCj hs⟩)
    post _ s₂ t ⟨hB₂, hT₂, fun _ => hd₂⟩ hC hpost (by omega)
  have hle := (hB₂.range e hin).2
  exact hrun.2.1.elim (fun h => by omega) (fun h => h.2)

/-- **Entity messages.** -/
theorem entityMessages (boss : Boss F) (now : ℕ) (as : List (Label F))
    (hJ : machine.Along FreshJoins (init boss now) as)
    (hk : machine.total created (init boss now) as < 2 ^ 32) :
    Disciplined (init boss now) as ∧ DistinctIds (init boss now) as ∧
      (machine.total created (init boss now) as + 1 < 2 ^ 32 → BelowNextId (init boss now) as) := by
  refine ⟨disciplined hJ hk, ?_, ?_⟩
  · rintro t ⟨pre, hp, hr⟩
    have := machine.total_le_of_prefix created hp hr
    exact (born_run hr (by omega)).nodup
  · rintro hk' t ⟨pre, hp, hr⟩ e he
    have := machine.total_le_of_prefix created hp hr
    have hB := born_run hr (by omega)
    have hle := (hB.range e he).2
    rw [UInt32.lt_iff_toNat_lt, hB.next, toNat_ofNat_succ (by omega)]
    omega

/-- One player, told about one shot. -/
theorem entityMessages_shot :
    Disciplined (init Boss.none 0) [.join 1 [], .updatePlayerUdpAddr 1 ⟨1, 1⟩, .call (.createPlayerShot 1),
      .udp (Player.new 0 [] : Player Float32), .udp (Player.new 0 [])] :=
  (entityMessages _ _ _
    (.cons rfl (by rintro p ⟨⟩; decide) (.cons rfl (by rintro p ⟨⟩) (.cons rfl (by rintro p ⟨⟩)
      (.cons rfl (by rintro p ⟨⟩) (.cons rfl (by rintro p ⟨⟩) .nil))))) (by decide)).1

/-! ## The counter comes round -/

/-- One shot of player 1. -/
def shot : List (Label Float32) :=
  [.call (.createPlayerShot 1), .udp (Player.new 0 []), .udp (Player.new 0 [])]

/-- `n` shots of player 1, one after the other. -/
def shots (n : ℕ) : List (Label Float32) := (List.replicate n shot).flatten

/-- Player 1 is first in the room and no call is in progress. -/
def Ready (s : GameThreads Float32) : Prop := s.ops = [] ∧ s.room.ids[0]? = some 1

/-- The last id handed out is live. -/
def LastLives (s : GameThreads Float32) : Prop := s.room.game.nextEntityId - 1 ∈ s.room.entityIds

theorem run_shot {s : GameThreads Float32} (h : Ready s) :
    ∃ t, machine.run s shot = some t ∧ Ready t ∧ machine.Along FreshJoins s shot ∧
      machine.total created s shot = 1 ∧
      t.room.game.nextEntityId = s.room.game.nextEntityId + 1 ∧ LastLives t := by
  obtain ⟨hops, hid⟩ := h
  obtain ⟨p, ps, hps, hp⟩ : ∃ p ps, s.room.game.players = p :: ps ∧ p.id = 1 := by
    rw [Room.ids] at hid
    cases hps : s.room.game.players with
    | nil => simp [hps] at hid
    | cons p ps => simp only [hps, List.map_cons, List.getElem?_cons_zero, Option.some.injEq] at hid; exact ⟨p, ps, rfl, hid⟩
  have hg : s.room.game.getPlayer 1 = some 0 := by
    rw [Game.getPlayer, hps, List.findIdx?_cons, hp]
    rfl
  -- the player is looked up and fires; nobody else steps in between
  have h₁ : machine.step s (.call (.createPlayerShot 1)) = some { s with playerId := 1, ops := [.getShooter false] } :=
    if_pos hops
  have h₂ : machine.step { s with playerId := 1, ops := [.getShooter false] } (.udp (Player.new 0 [])) =
      some { s with playerId := 1, ops := [.shoot 0 false] } := by
    simp only [machine, step, UdpOp.run, hg]
    rfl
  have hshoot := UdpOp.shoot_work s.room p.x p.y false
  have h₃ : machine.step { s with playerId := 1, ops := [.shoot 0 false] } (.udp (Player.new 0 [])) =
      some { s with room := s.room.spawnShot p.x p.y, playerId := 1, ops := [] } := by
    simp only [machine, step, UdpOp.run, hps, List.getElem?_cons_zero, Option.getD_some]
    rfl
  refine ⟨_, machine.run_cons_iff.2 ⟨_, h₁, machine.run_cons_iff.2 ⟨_, h₂, machine.run_cons_iff.2 ⟨_, h₃, rfl⟩⟩⟩,
    ⟨rfl, ?_⟩, .cons h₁ (by rintro p ⟨⟩) (.cons h₂ (by rintro p ⟨⟩) (.cons h₃ (by rintro p ⟨⟩) .nil)), ?_, rfl, ?_⟩
  · exact hid
  · have c₁ : created s { s with playerId := 1, ops := [.getShooter false] } = 0 :=
      created_of_quiet (.of_eq rfl rfl rfl)
    have c₂ : created { s with playerId := 1, ops := [.getShooter false] }
        { s with playerId := 1, ops := [.shoot 0 false] } = 0 := created_of_quiet (.of_eq rfl rfl rfl)
    have c₃ : created { s with playerId := 1, ops := [.shoot 0 false] }
        { s with room := s.room.spawnShot p.x p.y, playerId := 1, ops := [] } = 1 := created_of_work (by omega) hshoot
    rw [shot, machine.total_cons created h₁, machine.total_cons created h₂, machine.total_cons created h₃, c₁, c₂, c₃]
    rfl
  · show s.room.game.nextEntityId + 1 - 1 ∈ (s.room.spawnShot p.x p.y).entityIds
    rw [UInt32.add_sub_cancel, Room.spawnShot, spawn_ids]
    exact List.mem_append_right _ List.mem_cons_self

theorem run_shots (n : ℕ) {s : GameThreads Float32} (h : Ready s) :
    ∃ t, machine.run s (shots n) = some t ∧ machine.Along FreshJoins s (shots n) ∧
      machine.total created s (shots n) = n ∧
      t.room.game.nextEntityId = s.room.game.nextEntityId + UInt32.ofNat n ∧ (0 < n → LastLives t) := by
  induction n generalizing s with
  | zero => exact ⟨s, rfl, .nil, rfl, (UInt32.add_zero _).symm, fun h => absurd h (by omega)⟩
  | succ n ih =>
    obtain ⟨u, hu, hru, hau, hcu, hnu, hlu⟩ := run_shot h
    obtain ⟨t, ht, hat, hct, hnt, hlt⟩ := ih hru
    have hs : shots (n + 1) = shot ++ shots n := by simp [shots, List.replicate_succ]
    rw [hs]
    refine ⟨t, machine.run_append_iff.2 ⟨u, hu, ht⟩, (Machine.along_append hu).2 ⟨hau, hat⟩, ?_, ?_, fun _ => ?_⟩
    · rw [machine.total_append created hu, hcu, hct, Nat.add_comm]
    · rw [hnt, hnu, UInt32.add_assoc, Nat.add_comm, UInt32.ofNat_add]
      rfl
    · rcases Nat.eq_zero_or_pos n with rfl | hn
      · obtain rfl : u = t := Option.some.inj ht
        exact hlu
      · exact hlt hn

/-- **With `2 ^ 32 - 1` shots the counter is 0**, and the last shot is not below it. -/
theorem not_belowNextId :
    machine.Along FreshJoins (init Boss.none 0) (.join 1 [] :: shots (2 ^ 32 - 1)) ∧
      machine.total created (init Boss.none 0) (.join 1 [] :: shots (2 ^ 32 - 1)) < 2 ^ 32 ∧
      ¬ BelowNextId (init Boss.none 0) (.join 1 [] :: shots (2 ^ 32 - 1)) := by
  obtain ⟨s, hs⟩ : ∃ s, machine.step (init Boss.none 0 : GameThreads Float32) (.join 1 []) = some s := ⟨_, rfl⟩
  have hr : Ready s := by obtain rfl := Option.some.inj hs; exact ⟨rfl, rfl⟩
  have hn : s.room.game.nextEntityId = 1 := by obtain rfl := Option.some.inj hs; rfl
  have hc : created (init Boss.none 0) s = 0 := by obtain rfl := Option.some.inj hs; rfl
  obtain ⟨t, ht, hat, hct, hnt, hlt⟩ := run_shots (2 ^ 32 - 1) hr
  refine ⟨.cons hs (by rintro p ⟨⟩; decide) hat, ?_, fun hB => ?_⟩
  · rw [machine.total_cons created hs, hc, hct]
    decide
  · have h0 : t.room.game.nextEntityId = 0 := by rw [hnt, hn]; decide
    have := hB t (Machine.visits_last (machine.run_cons_iff.2 ⟨s, hs, ht⟩)) _ (hlt (by decide))
    rw [h0] at this
    exact absurd this (by decide)

end GameThreads

end RType

import Mathlib.Data.List.Nodup
import RType.Proof.Rooms

/-!
# Who is told that a player left

Three ways lead out of a room; two announce the departure to the players that stay, and
`removePlayerFromLobby`, which a lost TCP connection takes in any phase, does not.

* `announcesDeparture`: in runs that leave a running game only by the announcing ways, and
  once each, every bound player that stays is told exactly once, and no state of the
  player that left follows.
* `not_announcesDeparture_tcp`: a lost connection in a running game tells nobody.
-/

namespace RType

open Lts

variable {F : Type*}

theorem announce_append (ps qs : List (Player F)) (ms : List (UdpMsg F)) :
    announce (ps ++ qs) ms = announce ps ms ++ announce qs ms := by
  simp [announce]

theorem announce_cons_of_bound {d : Player F} (h : d.addrSet = true) (ps : List (Player F)) (m : UdpMsg F) :
    announce (d :: ps) [m] = ⟨some d.id, d.udpAddr, m⟩ :: announce ps [m] := by
  simp [announce, h]

theorem announce_eq_nil {ps : List (Player F)} (h : ∀ d ∈ ps, d.addrSet = false) (ms : List (UdpMsg F)) :
    announce ps ms = [] := by
  have : ps.filter (·.addrSet) = [] := List.filter_eq_nil_iff.2 fun d hd => by simp [h d hd]
  rw [announce, this, List.flatMap_nil]

/-- With distinct ids, one message goes to a bound player, and the others to others. -/
theorem exists_announce_split {ps : List (Player F)} (hn : (ps.map (·.id)).Nodup) {d : Player F}
    (hd : d ∈ ps) (hb : d.addrSet = true) (m : UdpMsg F) :
    ∃ before after, announce ps [m] = before ++ ⟨some d.id, d.udpAddr, m⟩ :: after ∧
      ∀ x ∈ before ++ after, x.dest ≠ some d.id ∧ x.msg = m := by
  obtain ⟨qs, rs, rfl⟩ := List.append_of_mem hd
  refine ⟨announce qs [m], announce rs [m], ?_, fun x hx => ?_⟩
  · rw [announce_append, announce_cons_of_bound hb]
  · have hx' : ∃ e ∈ qs ++ rs, x = ⟨some e.id, e.udpAddr, m⟩ := by
      rw [← announce_append] at hx
      obtain ⟨e, he, -, msg, hmsg, rfl⟩ := mem_announce.1 hx
      exact ⟨e, he, by rw [List.mem_singleton.1 hmsg]⟩
    obtain ⟨e, he, rfl⟩ := hx'
    refine ⟨fun heq => ?_, rfl⟩
    have hid : e.id = d.id := Option.some.inj heq
    rw [List.map_append, List.map_cons] at hn
    have hmem : d.id ∈ (qs ++ rs).map (·.id) := hid ▸ List.mem_map_of_mem he
    rw [List.map_append] at hmem
    exact (List.nodup_cons.1 (List.nodup_middle.1 hn)).1 hmem

namespace GameThreads

/-- `p` is not the subject of anything queued from `r` to `r'`. -/
def Silent (p : UInt32) (r r' : Room F) : Prop :=
  ∃ new, r'.out = r.out ++ new ∧ ∀ m ∈ new, m.msg.subject ≠ some p

theorem Silent.of_works {p : UInt32} {r r' : Room F} (h : r.Works r') : Silent p r r' := by
  obtain ⟨new, he, hq⟩ := h.out
  exact ⟨new, he, fun m hm => by rw [hq m hm]; simp⟩

theorem Silent.of_eq {p : UInt32} {r r' : Room F} (h : r'.out = r.out) : Silent p r r' :=
  ⟨[], by rw [h, List.append_nil], fun m hm => nomatch hm⟩

theorem Silent.trans {p : UInt32} {r s t : Room F} (h : Silent p r s) (h' : Silent p s t) : Silent p r t := by
  obtain ⟨new, he, hq⟩ := h
  obtain ⟨new', he', hq'⟩ := h'
  refine ⟨new ++ new', by rw [he', he, List.append_assoc], fun m hm => ?_⟩
  exact (List.mem_append.1 hm).elim (hq m) (hq' m)

/-- The broadcast of states tells about the players in the room. -/
theorem silent_broadcastGameState {p : UInt32} {r : Room F} (h : p ∉ r.ids) : Silent p r r.broadcastGameState := by
  refine ⟨_, rfl, fun m hm => ?_⟩
  obtain ⟨q, hq, hm⟩ := List.mem_flatMap.1 hm
  obtain ⟨d, -, -, msg, hmsg, rfl⟩ := mem_announce.1 hm
  rw [List.mem_singleton.1 hmsg]
  rintro heq
  obtain rfl : q.id = p := Option.some.inj heq
  exact h (List.mem_map_of_mem (List.mem_of_mem_filter hq))

/-- An announcement about another player, or to nobody. -/
theorem silent_broadcast {p q : UInt32} {r : Room F} (h : q = p → ∀ d ∈ r.game.players, d.addrSet = false) :
    Silent p r (r.broadcast [.playerDisconnect q]) := by
  refine ⟨_, rfl, fun m hm => ?_⟩
  by_cases hq : q = p
  · rw [announce_eq_nil (h hq)] at hm
    cases hm
  · obtain ⟨d, -, -, msg, hmsg, rfl⟩ := mem_announce.1 hm
    rw [List.mem_singleton.1 hmsg]
    exact fun heq => hq (Option.some.inj heq)

theorem silent_kick {p q : UInt32} {r : Room F} (h : q = p → ∀ d ∈ r.game.players, d.addrSet = false) :
    Silent p r (r.kickPlayer q) := by
  have hnote : Silent p r
      { r with out := r.out ++ announce (r.game.players.find? (·.id == q)).toList [.youHaveBeenKicked] } := by
    refine ⟨_, rfl, fun m hm => ?_⟩
    obtain ⟨d, -, -, msg, hmsg, rfl⟩ := mem_announce.1 hm
    rw [List.mem_singleton.1 hmsg]
    exact fun heq => nomatch heq
  exact hnote.trans (silent_broadcast fun hq d hd => h hq d (List.mem_of_mem_filter hd))

variable [FloatOps F]

/-- The player a step tells the others about. -/
def Label.announces : Label F → Option UInt32
  | disconnectPlayer playerId | kickPlayer playerId => some playerId
  | _ => none

/-- Only players that are not in the room are let in. -/
def FreshJoins (s : GameThreads F) (l : Label F) : Prop :=
  ∀ p, l.joins = some p → p ∉ s.room.ids

/-- `p` leaves a running game by `removePlayerFromLobby` only if no other player is bound,
and its departure is announced only while it is there, or to nobody. -/
def LeavesAnnounced (p : UInt32) (s : GameThreads F) (l : Label F) : Prop :=
  s.room.game.status = .playing →
    (l = .removePlayerFromLobby p → p ∈ s.room.ids →
      ∀ d ∈ s.room.game.players, d.addrSet = true → d.id = p) ∧
    (l.announces = some p → p ∈ s.room.ids ∨ ∀ d ∈ s.room.game.players, d.addrSet = false)

/-- Whenever `p` leaves a running game, each bound player that stays is queued exactly one
`PLAYER_DISCONNECT` of `p` from then on, and no `PLAYER_STATE` of `p`. -/
def AnnouncesDeparture (p : UInt32) (s₀ : GameThreads F) (as : List (Label F)) : Prop :=
  ∀ pre l post s₁ s₂ t, as = pre ++ l :: post → machine.run s₀ pre = some s₁ →
    machine.step s₁ l = some s₂ → machine.run s₂ post = some t →
    s₁.room.game.status = .playing → p ∈ s₁.room.ids → p ∉ s₂.room.ids →
    ∀ d ∈ s₂.room.game.players, d.addrSet = true →
      ∃ before after,
        t.room.out = s₁.room.out ++ (before ++ ⟨some d.id, d.udpAddr, .playerDisconnect p⟩ :: after) ∧
        ∀ m ∈ before ++ after, ¬ (m.dest = some d.id ∧ m.msg = .playerDisconnect p) ∧
          ∀ sequence tick x y, m.msg ≠ .playerState p sequence tick x y

/-- Distinct ids stay distinct. -/
theorem nodup_step {s s' : GameThreads F} {l : Label F} (hn : s.room.ids.Nodup) (hC : FreshJoins s l)
    (h : machine.step s l = some s') : s'.room.ids.Nodup := by
  rcases step_cases h with ⟨c, rfl, -, rfl⟩ | ⟨memory, op, rest, rfl, -, rfl⟩ | ⟨env, rfl, rfl⟩ |
    ⟨f, hf, rfl⟩
  · exact hn
  · change (op.run s.playerId memory s.room).1.ids.Nodup
    rwa [UdpOp.ids]
  · change (s.loop.run env s.room).1.ids.Nodup
    rwa [LoopPc.ids]
  · change (f s.room).ids.Nodup
    rcases section_ids hf s.room with ⟨-, he | ⟨-, p, hp, he⟩⟩ | ⟨p, -, he⟩ <;> rw [he]
    · exact hn
    · exact List.nodup_append.2 ⟨hn, List.nodup_singleton p, fun a ha b hb => by
        rw [List.mem_singleton.1 hb]; rintro rfl; exact hC a hp ha⟩
    · exact hn.filter _

/-- A section never stops a running game. -/
theorem section_status {l : Label F} {f : Room F → Room F} (h : l.section = some f) {r : Room F}
    (hr : r.game.status = .playing) : (f r).game.status = .playing := by
  cases l <;> simp only [Label.section, Option.some.injEq, reduceCtorEq] at h <;> subst h
  case updatePlayerUdpAddr p addr => simp only [Game.updatePlayerUdpAddr]; split <;> exact hr
  case join p username => simp [RoomAct.run, Room.join, hr]
  case start p => simp only [RoomAct.run, Room.start]; split <;> [rfl; exact hr]
  all_goals exact hr

theorem udp_status (playerId : UInt32) (memory : Player F) (r : Room F) (op : UdpOp) :
    (op.run playerId memory r).1.game.status = r.game.status := by
  rcases op.run_cases playerId memory r with he | ⟨slot, f, -, he⟩ | ⟨slot, charged, rfl⟩
  · rw [he]
  · rw [he]
    rfl
  · exact (UdpOp.shoot_works r _ _ charged).status

theorem loop_status (env : UpdateEnv) (r : Room F) (pc : LoopPc F) :
    (pc.run env r).1.game.status = r.game.status := by
  by_cases h : pc = .broadcastGameState
  · subst h; rfl
  · exact (LoopPc.works env r h).status

/-- A running game runs on. -/
theorem playing_step {s s' : GameThreads F} {l : Label F} (hp : s.room.game.status = .playing)
    (h : machine.step s l = some s') : s'.room.game.status = .playing := by
  rcases step_cases h with ⟨c, rfl, -, rfl⟩ | ⟨memory, op, rest, rfl, -, rfl⟩ | ⟨env, rfl, rfl⟩ |
    ⟨f, hf, rfl⟩
  · exact hp
  · exact (udp_status _ _ _ _).trans hp
  · exact (loop_status _ _ _).trans hp
  · exact section_status hf hp

/-- Who is out of a running game stays out. -/
theorem absent_step {s s' : GameThreads F} {l : Label F} {p : UInt32} (hp : s.room.game.status = .playing)
    (hout : p ∉ s.room.ids) (h : machine.step s l = some s') : p ∉ s'.room.ids := by
  rcases step_cases h with ⟨c, rfl, -, rfl⟩ | ⟨memory, op, rest, rfl, -, rfl⟩ | ⟨env, rfl, rfl⟩ |
    ⟨f, hf, rfl⟩
  · exact hout
  · change p ∉ (op.run s.playerId memory s.room).1.ids
    rwa [UdpOp.ids]
  · change p ∉ (s.loop.run env s.room).1.ids
    rwa [LoopPc.ids]
  · change p ∉ (f s.room).ids
    rcases section_ids hf s.room with ⟨-, he | ⟨hl, -⟩⟩ | ⟨q, -, he⟩
    · rwa [he]
    · rw [hp] at hl; cases hl
    · rw [he]
      exact fun hm => hout (List.mem_of_mem_filter hm)

/-- **Nothing is queued about a player that is out of the room**, unless its departure is
announced again. -/
theorem silent_step {s s' : GameThreads F} {l : Label F} {p : UInt32} (hout : p ∉ s.room.ids)
    (hl : l.announces = some p → ∀ d ∈ s.room.game.players, d.addrSet = false)
    (h : machine.step s l = some s') : Silent p s.room s'.room := by
  rcases step_cases h with ⟨c, rfl, -, rfl⟩ | ⟨memory, op, rest, rfl, -, rfl⟩ | ⟨env, rfl, rfl⟩ |
    ⟨f, hf, rfl⟩
  · exact .of_eq rfl
  · rcases op.run_cases s.playerId memory s.room with he | ⟨slot, f, -, he⟩ | ⟨slot, charged, rfl⟩
    · exact .of_eq (congrArg Room.out he)
    · have hout := congrArg Room.out he
      exact .of_eq hout
    · exact .of_works (UdpOp.shoot_works _ _ _ charged)
  · by_cases hpc : s.loop = .broadcastGameState
    · simp only [hpc]
      exact silent_broadcastGameState hout
    · exact .of_works (LoopPc.works env s.room hpc)
  · cases l <;> simp only [Label.section, Option.some.injEq, reduceCtorEq] at hf <;> subst hf
    case updatePlayerUdpAddr q addr => exact .of_eq rfl
    case join q username => simp only [RoomAct.run, Room.join]; split <;> exact .of_eq rfl
    case start q => simp only [RoomAct.run, Room.start]; split <;> exact .of_eq rfl
    case removePlayerFromLobby q => exact .of_eq rfl
    case disconnectPlayer q =>
      refine silent_broadcast (r := { s.room with game := _ }) fun hq d hd => ?_
      exact hl (congrArg some hq) d (List.mem_of_mem_filter hd)
    case kickPlayer q => exact silent_kick fun hq => hl (congrArg some hq)

/-- Once `p` is out of a running game, nothing more is queued about it. -/
theorem silent_run {s t : GameThreads F} {as : List (Label F)} {p : UInt32}
    (hp : s.room.game.status = .playing) (hout : p ∉ s.room.ids)
    (hC : machine.Along (LeavesAnnounced p) s as) (hr : machine.run s as = some t) :
    Silent p s.room t.room := by
  refine (Machine.inv_along (I := fun u => u.room.game.status = .playing ∧ p ∉ u.room.ids ∧
    Silent p s.room u.room) ?_ as s t ⟨hp, hout, .of_eq rfl⟩ hC hr).2.2
  rintro u l u' ⟨hpu, houtu, hs⟩ hCu hstep
  refine ⟨playing_step hpu hstep, absent_step hpu houtu hstep, hs.trans (silent_step houtu ?_ hstep)⟩
  exact fun hl => ((hCu hpu).2 hl).resolve_left houtu

/-- What the two announcing ways queue: the announcement, after a note to a kicked player. -/
theorem announces_out {l : Label F} {f : Room F → Room F} {p : UInt32} (hf : l.section = some f)
    (hl : l.announces = some p) (r : Room F) :
    ∃ note, (f r).out = r.out ++ (note ++ announce (f r).game.players [.playerDisconnect p]) ∧
      ∀ m ∈ note, m.msg.subject = none := by
  cases l <;> simp only [Label.announces, reduceCtorEq, Option.some.injEq] at hl <;> subst hl
  case disconnectPlayer q =>
    obtain rfl := Option.some.inj hf
    exact ⟨[], rfl, fun m hm => nomatch hm⟩
  case kickPlayer q =>
    obtain rfl := Option.some.inj hf
    refine ⟨announce _ [.youHaveBeenKicked], List.append_assoc .., fun m hm => ?_⟩
    obtain ⟨d, -, -, msg, hmsg, rfl⟩ := mem_announce.1 hm
    rw [List.mem_singleton.1 hmsg]
    rfl

/-- **Departures are announced**, exactly once, in every run in which `p` leaves a running
game by the announcing ways only. -/
theorem announcesDeparture (boss : Boss F) (now : ℕ) (p : UInt32) (as : List (Label F))
    (hJ : machine.Along FreshJoins (init boss now) as)
    (hC : machine.Along (LeavesAnnounced p) (init boss now) as) :
    AnnouncesDeparture p (init boss now) as := by
  rintro pre l post s₁ s₂ t rfl hpre hstep hpost hp hin hout d hd hb
  have hn₁ : s₁.room.ids.Nodup := Machine.inv_along (fun s l s' => nodup_step) pre _ s₁ List.nodup_nil
    (hJ.upTo ⟨_, rfl⟩ hpre) hpre
  have hn₂ : s₂.room.ids.Nodup := nodup_step hn₁ (hJ.at hpre) hstep
  have hCl := hC.at hpre hp
  have hC₂ : machine.Along (LeavesAnnounced p) s₂ post := ((Machine.along_append hpre).1 hC).2.2 s₂ hstep
  -- the step takes `p` out, so it is one of the three ways
  obtain ⟨f, hf, rfl, hrem⟩ : ∃ f, l.section = some f ∧ s₂ = { s₁ with room := f s₁.room } ∧
      l.removes = some p := by
    rcases step_cases hstep with ⟨c, rfl, -, rfl⟩ | ⟨memory, op, rest, rfl, -, rfl⟩ | ⟨env, rfl, rfl⟩ |
      ⟨f, hf, rfl⟩
    · exact absurd hin hout
    · exact absurd ((UdpOp.ids s₁.playerId memory s₁.room op).symm ▸ hin) hout
    · exact absurd ((LoopPc.ids env s₁.room s₁.loop).symm ▸ hin) hout
    · refine ⟨f, hf, rfl, ?_⟩
      rcases section_ids hf s₁.room with ⟨-, he | ⟨hl, -⟩⟩ | ⟨q, hq, he⟩
      · exact absurd (he.symm ▸ hin) hout
      · rw [hp] at hl; cases hl
      · by_cases hqp : p = q
        · rw [hq, hqp]
        · exact absurd (he.symm ▸ List.mem_filter.2 ⟨hin, by simpa using hqp⟩) hout
  have hann : l.announces = some p := by
    cases l <;> simp only [Label.removes, reduceCtorEq, Option.some.injEq] at hrem <;> subst hrem
    case removePlayerFromLobby q =>
      have hd₁ : d ∈ s₁.room.game.players := by
        obtain rfl := Option.some.inj hf
        exact List.mem_of_mem_filter hd
      have hid : d.id = q := hCl.1 rfl hin d hd₁ hb
      have hm : d.id ∈ (f s₁.room).ids := List.mem_map_of_mem hd
      exact absurd (hid ▸ hm) hout
    all_goals rfl
  obtain ⟨note, hout₂, hnote⟩ := announces_out hf hann s₁.room
  obtain ⟨before, after, hsplit, hothers⟩ := exists_announce_split hn₂ hd hb (.playerDisconnect p)
  obtain ⟨later, hlater, hsilent⟩ := silent_run (playing_step hp hstep) hout hC₂ hpost
  refine ⟨note ++ before, after ++ later, ?_, fun m hm => ?_⟩
  · rw [hlater, hout₂, hsplit]
    simp only [List.append_assoc, List.cons_append]
  · simp only [List.mem_append] at hm
    rcases hm with (hm | hm) | (hm | hm)
    · have := hnote m hm
      exact ⟨fun h => by rw [h.2] at this; simp [UdpMsg.subject] at this,
        fun _ _ _ _ h => by rw [h] at this; simp [UdpMsg.subject] at this⟩
    · obtain ⟨h1, h2⟩ := hothers m (List.mem_append_left _ hm)
      exact ⟨fun h => h1 h.1, fun _ _ _ _ h => by rw [h2] at h; cases h⟩
    · obtain ⟨h1, h2⟩ := hothers m (List.mem_append_right _ hm)
      exact ⟨fun h => h1 h.1, fun _ _ _ _ h => by rw [h2] at h; cases h⟩
    · have := hsilent m hm
      exact ⟨fun h => this (by rw [h.2]; rfl), fun _ _ _ _ h => this (by rw [h]; rfl)⟩

/-- A room in which players 1 and 2 have joined, bound their addresses, and started. -/
def twoPlaying : List (Label Float32) :=
  [.join 1 [], .join 2 [], .updatePlayerUdpAddr 1 ⟨1, 1⟩, .updatePlayerUdpAddr 2 ⟨2, 2⟩, .start 1]

/-- Player 2 leaves a running game by `PLAYER_DISCONNECT`. -/
theorem announcesDeparture_disconnect :
    AnnouncesDeparture 2 (init Boss.none 0) (twoPlaying ++ [.disconnectPlayer 2]) := by
  refine announcesDeparture _ _ _ _ ?_ ?_
  · refine .cons rfl ?_ (.cons rfl ?_ (.cons rfl ?_ (.cons rfl ?_ (.cons rfl ?_ (.cons rfl ?_ .nil)))))
    · rintro p ⟨⟩; decide
    · rintro p ⟨⟩; decide
    all_goals rintro p ⟨⟩
  · refine .cons rfl ?_ (.cons rfl ?_ (.cons rfl ?_ (.cons rfl ?_ (.cons rfl ?_ (.cons rfl ?_ .nil)))))
    case refine_6 => exact fun _ => ⟨(nomatch ·), fun _ => .inl (by decide)⟩
    all_goals exact fun h => nomatch h

/-- **Player 2 of a running game loses its TCP connection**: player 1 is told nothing. -/
theorem not_announcesDeparture_tcp :
    ¬ AnnouncesDeparture 2 (init Boss.none 0) (twoPlaying ++ [.removePlayerFromLobby 2]) := by
  intro h
  obtain ⟨before, after, hout, -⟩ := h twoPlaying _ [] _ _ _ rfl rfl rfl rfl rfl (by decide) (by decide)
    _ List.mem_cons_self rfl
  cases before <;> cases hout

end GameThreads

end RType

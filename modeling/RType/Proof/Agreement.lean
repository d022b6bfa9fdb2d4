import RType.Lib.PubSub
import RType.Proof.EntityMessages

/-!
# What the players of a room are told

A room is an instance of `PubSub`: a player subscribes with its first datagram, and whatever a
section queues is published, apart from the last message to a player that is kicked.

* `Room.Publishes`: the sections that only publish.
* `mailboxes_step`, `mailboxes_run`: the threads of a room do acts of `PubSub`.
* `ToldAt`: what a player was told, all of it at one address, which is still its own.
* `told_alike`: **two players that stay are told the same, in the same order, each at the address
  it first sent from.** `updateEntities` is one step here: a disconnect in the middle of it is
  left out.
-/

namespace RType

open Lts PubSub

variable {F : Type*}

/-! ## Addresses -/

/-- A player's id, and its address if it is known. -/
def Player.contact (p : Player F) : UInt32 × Option SockAddr := (p.id, if p.addrSet then some p.udpAddr else none)

/-- The address under an id. -/
def addressIn (contacts : List (UInt32 × Option SockAddr)) (d : UInt32) : Option SockAddr :=
  (contacts.find? (·.1 = d)).bind (·.2)

@[simp] theorem addressIn_nil (d : UInt32) : addressIn [] d = none := rfl

theorem addressIn_cons (c : UInt32 × Option SockAddr) (contacts : List (UInt32 × Option SockAddr)) (d : UInt32) :
    addressIn (c :: contacts) d = if c.1 = d then c.2 else addressIn contacts d := by
  unfold addressIn
  by_cases hc : c.1 = d
  · rw [List.find?_cons_of_pos (by simpa using hc), if_pos hc, Option.bind_some]
  · rw [List.find?_cons_of_neg (by simpa using hc), if_neg hc]

theorem addressIn_of_not_mem {contacts : List (UInt32 × Option SockAddr)} {d : UInt32} (h : d ∉ contacts.map Prod.fst) :
    addressIn contacts d = none := by
  have hnone : contacts.find? (·.1 = d) = none := by
    rw [List.find?_eq_none]
    intro c hc hd
    have hid : c.1 = d := by simpa using hd
    exact h (hid ▸ List.mem_map_of_mem hc)
  rw [addressIn, hnone, Option.bind_none]

/-- A player that joins has no address. -/
theorem addressIn_join (contacts : List (UInt32 × Option SockAddr)) (p d : UInt32) :
    addressIn (contacts ++ [(p, none)]) d = addressIn contacts d := by
  induction contacts with
  | nil =>
    rw [List.nil_append, addressIn_cons]
    split <;> rfl
  | cons c contacts ih => rw [List.cons_append, addressIn_cons, ih, addressIn_cons]

/-- A player that is out has none. -/
theorem addressIn_filter (contacts : List (UInt32 × Option SockAddr)) (p : UInt32) :
    addressIn (contacts.filter (·.1 != p)) = Function.update (addressIn contacts) p none := by
  funext d
  induction contacts with
  | nil =>
    by_cases hd : d = p
    · rw [hd, Function.update_self, List.filter_nil, addressIn_nil]
    · rw [Function.update_of_ne hd, List.filter_nil]
  | cons c contacts ih =>
    by_cases hc : c.1 = p
    · rw [List.filter_cons_of_neg (by simpa using hc), ih]
      by_cases hd : d = p
      · rw [hd, Function.update_self, Function.update_self]
      · rw [Function.update_of_ne hd, Function.update_of_ne hd, addressIn_cons, if_neg]
        exact fun he => hd (he.symm.trans hc)
    · rw [List.filter_cons_of_pos (by simpa using hc), addressIn_cons, ih]
      by_cases hd : d = p
      · rw [hd, Function.update_self, Function.update_self, if_neg hc]
      · rw [Function.update_of_ne hd, Function.update_of_ne hd, addressIn_cons]

/-- Of the players with an id the first is bound, unless it is already. -/
theorem addressIn_bind {contacts : List (UInt32 × Option SockAddr)} {p : UInt32} {slot : ℕ} (addr : SockAddr)
    (h : contacts.findIdx? (·.1 == p) = some slot) :
    addressIn (contacts.modify slot fun c => (c.1, some (c.2.getD addr))) =
      Function.update (addressIn contacts) p (some ((addressIn contacts p).getD addr)) := by
  funext d
  induction contacts generalizing slot with
  | nil => cases h
  | cons c contacts ih =>
    rw [List.findIdx?_cons] at h
    by_cases hc : c.1 = p
    · rw [if_pos (by simpa using hc)] at h
      obtain rfl := Option.some.inj h
      rw [List.modify_zero_cons, addressIn_cons, addressIn_cons, if_pos hc]
      by_cases hd : d = p
      · rw [hd, Function.update_self, if_pos hc]
      · have hne : ¬ c.1 = d := fun he => hd (he.symm.trans hc)
        rw [Function.update_of_ne hd, if_neg hne, addressIn_cons, if_neg hne]
    · rw [if_neg (by simpa using hc)] at h
      obtain ⟨slot', hslot', rfl⟩ := Option.map_eq_some_iff.1 h
      rw [List.modify_succ_cons, addressIn_cons, ih hslot', addressIn_cons, if_neg hc]
      by_cases hd : d = p
      · rw [hd, Function.update_self, Function.update_self, if_neg hc]
      · rw [Function.update_of_ne hd, Function.update_of_ne hd, addressIn_cons]

/-! ## A room as subscribers and mail -/

namespace Room

def contacts (r : Room F) : List (UInt32 × Option SockAddr) := r.game.players.map Player.contact

/-- Where the players are reached, and what was queued for each. -/
def mailboxes (r : Room F) : State UInt32 SockAddr (UdpMsg F) where
  address := addressIn r.contacts
  mail d := (r.out.filter (·.dest = some d)).map fun m => (m.addr, m.msg)

theorem contacts_ids (r : Room F) : r.contacts.map Prod.fst = r.ids := by
  rw [contacts, List.map_map]
  rfl

end Room

/-- **An announcement reaches each player once, at its address.** -/
theorem letters_announce {ps : List (Player F)} (hn : (ps.map (·.id)).Nodup) (ms : List (UdpMsg F)) (d : UInt32) :
    ((announce ps ms).filter (·.dest = some d)).map (fun m => (m.addr, m.msg)) =
      letters (addressIn (ps.map Player.contact) d) ms := by
  induction ps with
  | nil => rfl
  | cons p ps ih =>
    rw [List.map_cons, List.nodup_cons] at hn
    have hsplit : announce (p :: ps) ms =
        (if p.addrSet then ms.map (⟨some p.id, p.udpAddr, ·⟩) else []) ++ announce ps ms := by
      unfold announce
      by_cases hset : p.addrSet = true
      · rw [List.filter_cons_of_pos hset, List.flatMap_cons, if_pos hset]
      · rw [List.filter_cons_of_neg hset, if_neg hset, List.nil_append]
    rw [hsplit, List.filter_append, List.map_append, ih hn.2, List.map_cons, addressIn_cons]
    have hown : ((if p.addrSet then ms.map (⟨some p.id, p.udpAddr, ·⟩) else []).filter (·.dest = some d)).map
        (fun m : Sent F => (m.addr, m.msg)) = if p.id = d then letters p.contact.2 ms else [] := by
      have hid : p.contact.2 = if p.addrSet then some p.udpAddr else none := rfl
      rw [hid]
      by_cases hset : p.addrSet = true
      · rw [if_pos hset, if_pos hset, List.filter_map, List.map_map]
        by_cases hd : p.id = d
        · have hall : ms.filter ((fun m : Sent F => decide (m.dest = some d)) ∘ (⟨some p.id, p.udpAddr, ·⟩)) = ms :=
            List.filter_eq_self.2 fun m _ => by simp [hd]
          rw [if_pos hd, hall]
          rfl
        · have hnone : ms.filter ((fun m : Sent F => decide (m.dest = some d)) ∘ (⟨some p.id, p.udpAddr, ·⟩)) = [] :=
            List.filter_eq_nil_iff.2 fun m _ => by simp [hd]
          rw [if_neg hd, hnone]
          rfl
      · rw [if_neg hset, if_neg hset]
        split <;> rfl
    rw [hown]
    by_cases hd : p.id = d
    · subst hd
      -- the others have other ids
      have hothers : addressIn (ps.map Player.contact) p.id = none := by
        refine addressIn_of_not_mem ?_
        rw [List.map_map]
        exact hn.1
      have hself : p.contact.1 = p.id := rfl
      rw [hothers, if_pos rfl, if_pos hself]
      exact List.append_nil _
    · have hself : ¬ p.contact.1 = d := hd
      rw [if_neg hd, if_neg hself, List.nil_append]

/-! ## Sections that publish -/

namespace Room

/-- A section that keeps the addresses, and publishes all that it queues. -/
structure Publishes (r r' : Room F) : Prop where
  contacts : r'.contacts = r.contacts
  mail : r.ids.Nodup → ∃ ms, r'.mailboxes = r.mailboxes.step (.publish ms)

variable {r r' : Room F}

theorem Publishes.of_eq (hcontacts : r'.contacts = r.contacts) (hout : r'.out = r.out) : r.Publishes r' := by
  refine ⟨hcontacts, fun _ => ⟨[], ?_⟩⟩
  rw [State.publish_nil, mailboxes, hcontacts, hout, mailboxes]

theorem Publishes.refl (r : Room F) : r.Publishes r := .of_eq rfl rfl

theorem ids_of_contacts (h : r'.contacts = r.contacts) : r'.ids = r.ids := by
  rw [← contacts_ids, h, contacts_ids]

theorem Publishes.trans {s : Room F} (h : r.Publishes s) (h' : s.Publishes r') : r.Publishes r' := by
  refine ⟨h'.contacts.trans h.contacts, fun hn => ?_⟩
  have hids : s.ids = r.ids := ids_of_contacts h.contacts
  obtain ⟨ms, hms⟩ := h.mail hn
  obtain ⟨ms', hms'⟩ := h'.mail (hids ▸ hn)
  exact ⟨ms ++ ms', by rw [hms', hms, State.publish_publish]⟩

theorem announce_publishes (r : Room F) (ms : List (UdpMsg F)) :
    r.Publishes { r with out := r.out ++ announce r.game.players ms } := by
  refine ⟨rfl, fun hn => ⟨ms, ?_⟩⟩
  ext d x
  · rfl
  · simp only [mailboxes, State.step, List.filter_append, List.map_append, letters_announce hn ms d]
    rfl

/-- Several announcements, one after the other. -/
theorem announces_publishes {ι : Type*} (r : Room F) (g : ι → List (UdpMsg F)) (xs : List ι) :
    r.Publishes { r with out := r.out ++ xs.flatMap fun x => announce r.game.players (g x) } := by
  induction xs generalizing r with
  | nil => exact .of_eq rfl (List.append_nil _)
  | cons x xs ih =>
    rw [List.flatMap_cons, ← List.append_assoc]
    exact (r.announce_publishes (g x)).trans (ih _)

theorem broadcast_publishes (r : Room F) (ms : List (UdpMsg F)) : r.Publishes (r.broadcast ms) := r.announce_publishes ms

theorem spawn_publishes (r : Room F) (type : UInt16) (x y vx vy : F) (h w : ℤ) (extra : List (UdpMsg F)) :
    r.Publishes (r.spawn type x y vx vy h w extra) := by
  refine Publishes.trans ?_ (broadcast_publishes _ _)
  exact .of_eq rfl rfl

theorem contacts_modify {f : Player F → Player F} (hf : Player.KeepsIdentity f) (ps : List (Player F)) (slot : ℕ) :
    (ps.modify slot f).map Player.contact = ps.map Player.contact :=
  map_modify_eq _ (fun p => by rw [Player.contact, Player.contact, hf.id, hf.addrSet, hf.udpAddr]) _ _

theorem broadcastGameState_publishes (r : Room F) : r.Publishes r.broadcastGameState := by
  have hcontacts : r.broadcastGameState.contacts = r.contacts := by
    rw [contacts, contacts, broadcastGameState, List.map_map]
    refine List.map_congr_left fun p _ => ?_
    rw [Function.comp_apply]
    split <;> rfl
  exact (r.announces_publishes _ _).trans (.of_eq hcontacts rfl)

theorem syncStage_publishes (r : Room F) (env : UpdateEnv) : r.Publishes (r.syncStage env) := by
  unfold syncStage
  split
  · exact (broadcast_publishes r _).trans (.of_eq rfl rfl)
  · exact .refl r

theorem flag_publishes (r : Room F) (i : ℕ) : r.Publishes (r.flag i) := .of_eq rfl rfl

theorem hitBoss_publishes (r : Room F) (j : ℕ) (damage : ℤ) : r.Publishes (r.hitBoss j damage) := by
  have hentries : ∀ (r : Room F) (boss : Boss F), r.Publishes { r with boss } := fun r boss => .of_eq rfl rfl
  unfold hitBoss
  extract_lets hp maxHp _ r₁ r₂
  have h₁ : r.Publishes r₁ := (hentries r { r.boss with hp }).trans (broadcast_publishes _ _)
  have h₂ : r.Publishes r₂ := h₁.trans (flag_publishes r₁ j)
  split
  · split
    · exact h₂.trans (hentries _ _)
    · split
      · exact h₂.trans (hentries _ _)
      · exact h₂
  · exact h₁

variable [FloatOps F]

theorem updateEntities_publishes (r : Room F) : r.Publishes r.updateEntities :=
  (r.announces_publishes (fun e : Entity F => [e.report]) _).trans (.of_eq rfl rfl)

theorem handleCollision_publishes (r : Room F) : r.Publishes r.handleCollision :=
  handleCollision_rel Publishes.refl (fun _ _ _ => Publishes.trans) flag_publishes
    (fun r j damage _ => hitBoss_publishes r j damage) r

theorem bossStage_publishes (r : Room F) : r.Publishes r.bossStage.1 := by
  unfold bossStage
  split
  · exact .of_eq rfl rfl
  · split
    · exact .of_eq rfl rfl
    · exact .refl r

theorem bossShoot_publishes (r : Room F) (x y : F) : r.Publishes (r.bossShoot x y) := by
  unfold bossShoot
  extract_lets shootInterval _ r₁
  split
  · have hshots := fun vys : List F => foldl_rel Publishes.refl (fun _ _ _ => Publishes.trans)
      (fun r vy => r.spawn_publishes 11 x (y + ((80 : ℤ) : F)) (-15.0) vy 30 30 []) vys r₁
    refine Publishes.trans ?_ (hshots _)
    exact .of_eq rfl rfl
  · exact .refl r

theorem enemyStage_publishes (r : Room F) (env : UpdateEnv) : r.Publishes (r.enemyStage env) := by
  unfold enemyStage
  split
  · have hspawn : r.Publishes (r.createEnemy env.rand) := by
      unfold createEnemy
      split <;> exact spawn_publishes r ..
    exact hspawn.trans (.of_eq rfl rfl)
  · exact .refl r

end Room

theorem LoopPc.publishes [FloatOps F] (env : UpdateEnv) (r : Room F) (pc : LoopPc F) : r.Publishes (pc.run env r).1 := by
  cases pc with
  | idle => exact .refl r
  | updateEntities => exact r.updateEntities_publishes
  | handleCollision => exact r.handleCollision_publishes
  | broadcastGameState => exact r.broadcastGameState_publishes
  | updateGameLevel => exact .of_eq rfl rfl
  | bossStage => exact run_bossStage env r ▸ r.bossStage_publishes
  | spawnBoss bossMaxHP => exact r.spawn_publishes ..
  | bossAim =>
    simp only [run]
    split
    · exact .refl r
    · exact .refl r
  | bossShoot x y => exact r.bossShoot_publishes x y
  | enemyStage => exact r.enemyStage_publishes env
  | syncStage => exact r.syncStage_publishes env

theorem UdpOp.publishes [FloatOps F] (playerId : UInt32) (memory : Player F) (r : Room F) (op : UdpOp) :
    r.Publishes (op.run playerId memory r).1 := by
  rcases op.run_cases playerId memory r with he | ⟨slot, f, hf, he⟩ | ⟨slot, charged, rfl⟩
  · rw [he]
    exact .refl r
  · rw [he]
    exact .of_eq (Room.contacts_modify hf _ _) rfl
  · simp only [run]
    split <;> exact Room.spawn_publishes r ..

/-! ## The threads of a room -/

namespace Room

variable {r : Room F}

theorem contacts_filter (r : Room F) (p : UInt32) :
    (r.game.removePlayerFromLobby p).players.map Player.contact = r.contacts.filter (·.1 != p) := by
  rw [contacts, List.filter_map]
  rfl

/-- A player that is let out is dismissed. -/
theorem mailboxes_remove (r : Room F) (p : UInt32) :
    ({ r with game := r.game.removePlayerFromLobby p } : Room F).mailboxes = r.mailboxes.step (.dismiss p []) := by
  ext d x
  · rw [mailboxes, contacts, contacts_filter, addressIn_filter]
    rfl
  · by_cases hd : d = p
    · subst hd
      simp only [mailboxes, State.step, Function.update_self, letters_nil, List.append_nil]
    · simp only [mailboxes, State.step, Function.update_of_ne hd]

theorem address_eq (r : Room F) (d : UInt32) :
    r.mailboxes.address d = (r.game.players.find? (·.id == d)).bind fun p => p.contact.2 := by
  show ((r.game.players.map Player.contact).find? (·.1 = d)).bind (·.2) = _
  rw [List.find?_map, Option.bind_map]
  rfl

/-- The last message to a player that is kicked is for that player alone. -/
theorem mailboxes_kicked (r : Room F) (p : UInt32) (last : List (UdpMsg F)) :
    ({ r with
      game := r.game.removePlayerFromLobby p
      out := r.out ++ announce (r.game.players.find? (·.id == p)).toList last } : Room F).mailboxes =
      r.mailboxes.step (.dismiss p last) := by
  have haddress := r.address_eq p
  -- the one who is kicked, if there is one
  have hletters : ∀ d, ((announce (r.game.players.find? (·.id == p)).toList last).filter (·.dest = some d)).map
      (fun m => (m.addr, m.msg)) = if d = p then letters (r.mailboxes.address p) last else [] := by
    intro d
    rw [haddress]
    cases hfound : r.game.players.find? (·.id == p) with
    | none =>
      split
      · rfl
      · rfl
    | some q =>
      have hid : q.id = p := by simpa using List.find?_some hfound
      have hids : ([q].map (·.id)).Nodup := List.nodup_singleton q.id
      have hone := letters_announce hids last d
      rw [List.map_singleton, addressIn_cons, addressIn_nil] at hone
      rw [Option.toList_some, Option.bind_some]
      refine hone.trans ?_
      by_cases hd : d = p
      · have hself : q.contact.1 = d := hid.trans hd.symm
        rw [if_pos hself, if_pos hd]
      · have hother : ¬ q.contact.1 = d := fun he => hd (he.symm.trans hid)
        rw [if_neg hother, if_neg hd]
        rfl
  ext d x
  · rw [mailboxes, contacts, contacts_filter, addressIn_filter]
    rfl
  · simp only [mailboxes, State.step, List.filter_append, List.map_append, hletters]
    by_cases hd : d = p
    · subst hd
      rw [if_pos rfl, Function.update_self]
    · rw [if_neg hd, Function.update_of_ne hd, List.append_nil]

/-- A departure: the player is dismissed, and the others are told. -/
theorem mailboxes_depart (hn : r.ids.Nodup) {p : UInt32} {last ms : List (UdpMsg F)} {s : Room F}
    (hgame : s.game = r.game.removePlayerFromLobby p) (hmail : s.mailboxes = r.mailboxes.step (.dismiss p last)) :
    ∃ ms', (s.broadcast ms).mailboxes = r.mailboxes.run [.dismiss p last, .publish ms'] := by
  have hids : s.ids.Nodup := by
    have hfilter := r.filter_ids p
    rw [ids, hgame]
    exact hfilter ▸ hn.filter _
  obtain ⟨ms', hms'⟩ := (s.broadcast_publishes ms).mail hids
  exact ⟨ms', by rw [hms', hmail]; rfl⟩

/-- **The first address of a player is kept.** -/
theorem mailboxes_bind (r : Room F) (p : UInt32) (addr : SockAddr) :
    ({ r with game := r.game.updatePlayerUdpAddr p addr } : Room F).mailboxes = r.mailboxes ∨
      ({ r with game := r.game.updatePlayerUdpAddr p addr } : Room F).mailboxes = r.mailboxes.step (.subscribe p addr) := by
  unfold Game.updatePlayerUdpAddr
  rcases hslot : r.game.getPlayer p with _ | slot
  · exact .inl rfl
  · right
    have hcontacts : r.contacts.findIdx? (·.1 == p) = some slot := by
      rw [contacts, List.findIdx?_map]
      exact hslot
    have hbound : (r.game.players.modify slot fun p => if p.addrSet then p else { p with udpAddr := addr, addrSet := true }).map
        Player.contact = r.contacts.modify slot fun c => (c.1, some (c.2.getD addr)) := by
      apply List.ext_getElem?
      intro i
      rw [List.getElem?_map, List.getElem?_modify, List.getElem?_modify, contacts, List.getElem?_map]
      cases r.game.players[i]? with
      | none => rfl
      | some q =>
        refine congrArg some ?_
        dsimp only
        by_cases hi : slot = i
        · rw [if_pos hi, if_pos hi]
          unfold Player.contact
          by_cases hset : q.addrSet = true
          · rw [if_pos hset, if_pos hset, Option.getD_some]
          · rw [if_neg hset, if_neg hset, Option.getD_none]
            rfl
        · rw [if_neg hi, if_neg hi]
    ext d x
    · rw [mailboxes, contacts]
      simp only [hbound, addressIn_bind addr hcontacts]
      rfl
    · rfl

end Room

namespace GameThreads

variable [FloatOps F] {s s' : GameThreads F} {l : Label F}

/-- **A step of the threads is one of acts on the mailboxes**, which dismiss nobody but the
player that the step takes out. -/
theorem mailboxes_step (hn : s.room.ids.Nodup) (h : machine.step s l = some s') :
    ∃ acts, s'.room.mailboxes = s.room.mailboxes.run acts ∧ ∀ act ∈ acts, ∀ d, act.dismissed = some d → l.removes = some d := by
  have hpublishes : ∀ r, s.room.Publishes r → ∃ acts, r.mailboxes = s.room.mailboxes.run acts ∧
      ∀ act ∈ acts, ∀ d, act.dismissed = some d → l.removes = some d := by
    intro r hr
    obtain ⟨ms, hms⟩ := hr.mail hn
    refine ⟨[.publish ms], hms, fun act hact d hd => ?_⟩
    rw [List.mem_singleton.1 hact] at hd
    cases hd
  have hdeparts : ∀ (p : UInt32) (last ms : List (UdpMsg F)),
      ∀ act ∈ ([.dismiss p last, .publish ms] : List (PubSub.Act UInt32 SockAddr (UdpMsg F))), ∀ d, act.dismissed = some d →
        some p = some d := by
    intro p last ms act hact d hd
    rcases List.mem_cons.1 hact with rfl | hact
    · exact hd
    · rw [List.mem_singleton.1 hact] at hd
      cases hd
  rcases step_cases h with ⟨c, rfl, -, rfl⟩ | ⟨memory, op, rest, rfl, -, rfl⟩ | ⟨env, rfl, rfl⟩ | ⟨f, hf, rfl⟩
  · exact hpublishes _ (.refl _)
  · exact hpublishes _ (op.publishes s.playerId memory s.room)
  · exact hpublishes _ (s.loop.publishes env s.room)
  · cases l with
    | call c => cases hf
    | udp memory => cases hf
    | loop env => cases hf
    | updatePlayerUdpAddr p addr =>
      obtain rfl := Option.some.inj hf
      rcases s.room.mailboxes_bind p addr with hkept | hbound
      · exact ⟨[], hkept, fun act hact => nomatch hact⟩
      · refine ⟨[.subscribe p addr], hbound, fun act hact d hd => ?_⟩
        rw [List.mem_singleton.1 hact] at hd
        cases hd
    | join p username =>
      obtain rfl := Option.some.inj hf
      refine ⟨[], ?_, fun act hact => nomatch hact⟩
      simp only [RoomAct.run, Room.join]
      split
      · ext d x
        · simp only [Room.mailboxes, Room.contacts, Game.addPlayer, List.map_append, List.map_singleton]
          exact iff_of_eq (congrArg (x ∈ ·) (addressIn_join _ _ d))
        · rfl
      · rfl
    | start p =>
      obtain rfl := Option.some.inj hf
      refine hpublishes _ ?_
      simp only [RoomAct.run, Room.start]
      split
      · exact .of_eq rfl rfl
      · exact .of_eq rfl rfl
    | removePlayerFromLobby p =>
      obtain rfl := Option.some.inj hf
      refine ⟨[.dismiss p []], s.room.mailboxes_remove p, fun act hact d hd => ?_⟩
      rw [List.mem_singleton.1 hact] at hd
      exact hd
    | disconnectPlayer p =>
      obtain rfl := Option.some.inj hf
      obtain ⟨ms, hms⟩ := Room.mailboxes_depart hn rfl (s.room.mailboxes_remove p)
      exact ⟨_, hms, hdeparts p _ ms⟩
    | kickPlayer p =>
      obtain rfl := Option.some.inj hf
      obtain ⟨ms, hms⟩ := Room.mailboxes_depart hn rfl (s.room.mailboxes_kicked p _)
      exact ⟨_, hms, hdeparts p _ ms⟩

/-- **A run of the threads is one too**, if the players that join are new. -/
theorem mailboxes_run {labels : List (Label F)} {t : GameThreads F} (hn : s.room.ids.Nodup)
    (hJ : machine.Along FreshJoins s labels) (h : machine.run s labels = some t) :
    ∃ acts, t.room.mailboxes = s.room.mailboxes.run acts ∧
      ∀ act ∈ acts, ∀ d, act.dismissed = some d → ∃ l ∈ labels, l.removes = some d := by
  induction labels generalizing s with
  | nil =>
    obtain rfl := Option.some.inj h
    exact ⟨[], rfl, fun act hact => nomatch hact⟩
  | cons l labels ih =>
    obtain ⟨s', hs', ht⟩ := machine.run_cons_iff.1 h
    obtain ⟨acts, hacts, hdismissed⟩ := mailboxes_step hn hs'
    obtain ⟨acts', hacts', hdismissed'⟩ := ih (nodup_step hn hJ.1 hs') (hJ.2 s' hs') ht
    refine ⟨acts ++ acts', by rw [hacts', hacts, State.run_append], fun act hact d hd => ?_⟩
    rcases List.mem_append.1 hact with hact | hact
    · exact ⟨l, List.mem_cons_self, hdismissed act hact d hd⟩
    · obtain ⟨l', hl', hremoves⟩ := hdismissed' act hact d hd
      exact ⟨l', List.mem_cons_of_mem l hl', hremoves⟩

omit [FloatOps F] in
/-- The address of a player that is bound. -/
theorem address_of_mem {r : Room F} (hn : r.ids.Nodup) {p : Player F} (hp : p ∈ r.game.players) (hset : p.addrSet = true) :
    r.mailboxes.address p.id = some p.udpAddr := by
  have hfound : r.game.players.find? (·.id == p.id) = some p := by
    obtain ⟨q, hq⟩ : ∃ q, r.game.players.find? (·.id == p.id) = some q := by
      rw [← Option.isSome_iff_exists, List.find?_isSome]
      exact ⟨p, hp, beq_self_eq_true p.id⟩
    have hid : q.id = p.id := by simpa using List.find?_some hq
    rw [hq, List.inj_on_of_nodup_map hn (List.mem_of_find?_eq_some hq) hp hid]
  rw [Room.address_eq, hfound, Option.bind_some, Player.contact, if_pos hset]

/-- What `d` was told between two rooms, all of it at one address, which is still its own. -/
def ToldAt (d : UInt32) (addr : SockAddr) (news : List (UdpMsg F)) (r r' : Room F) : Prop :=
  r'.mailboxes.address d = some addr ∧ r'.mailboxes.mail d = r.mailboxes.mail d ++ news.map (addr, ·)

/-- **Two players that stay are told the same, in the same order, each at the address it first
sent from.** -/
theorem told_alike (boss : Boss F) (now : ℕ) (pre labels : List (Label F)) (s t : GameThreads F)
    (hpre : machine.run (init boss now) pre = some s) (hrun : machine.run s labels = some t)
    (hJ : machine.Along FreshJoins (init boss now) (pre ++ labels)) (p q : Player F) (hp : p ∈ s.room.game.players)
    (hq : q ∈ s.room.game.players) (hpset : p.addrSet = true) (hqset : q.addrSet = true)
    (hstay : ∀ l ∈ labels, l.removes ≠ some p.id ∧ l.removes ≠ some q.id) :
    ∃ news, ToldAt p.id p.udpAddr news s.room t.room ∧ ToldAt q.id q.udpAddr news s.room t.room := by
  obtain ⟨hJpre, hJpost⟩ := (Machine.along_append hpre).1 hJ
  have hempty : (init boss now).room.ids.Nodup := List.nodup_nil
  have hn : s.room.ids.Nodup :=
    Machine.inv_along (I := fun s : GameThreads F => s.room.ids.Nodup) (fun _ _ _ hn hC hs => nodup_step hn hC hs) pre _ s
      hempty hJpre hpre
  obtain ⟨acts, hacts, hdismissed⟩ := mailboxes_run hn hJpost hrun
  -- acts dismiss those only who are taken out
  have htold : ∀ p ∈ s.room.game.players, p.addrSet = true → (∀ l ∈ labels, l.removes ≠ some p.id) →
      ToldAt p.id p.udpAddr (acts.flatMap PubSub.Act.published) s.room t.room := by
    intro p hp hset hstay
    unfold ToldAt
    rw [hacts]
    refine State.run_subscribed (address_of_mem hn hp hset) fun act hact hd => ?_
    obtain ⟨l, hl, hremoves⟩ := hdismissed act hact p.id hd
    exact hstay l hl hremoves
  exact ⟨_, htold p hp hpset fun l hl => (hstay l hl).1, htold q hq hqset fun l hl => (hstay l hl).2⟩

/-- A player that has sent from `addr`. -/
def boundAt (playerId : UInt32) (addr : SockAddr) : Player ℚ := { Player.new playerId [] with udpAddr := addr, addrSet := true }

/-- Two players, each heard of. -/
def twoBound : List (Label ℚ) :=
  [.join 1 [], .join 2 [], .updatePlayerUdpAddr 1 ⟨1, 1⟩, .updatePlayerUdpAddr 2 ⟨2, 2⟩]

/-- Somebody sends for the first of them from elsewhere, and it shoots. -/
def spoofedShot : List (Label ℚ) :=
  [.updatePlayerUdpAddr 1 ⟨3, 3⟩, .call (.createPlayerShot 1), .udp (Player.new 0 []), .udp (Player.new 0 [])]

theorem told_alike_spoofedShot : ∃ s t : GameThreads ℚ, machine.run (init Boss.none 0) twoBound = some s ∧
    machine.run s spoofedShot = some t ∧ t.room.out.length = 2 ∧
    ∃ news, ToldAt 1 ⟨1, 1⟩ news s.room t.room ∧ ToldAt 2 ⟨2, 2⟩ news s.room t.room := by
  refine ⟨_, _, rfl, rfl, rfl, told_alike Boss.none 0 twoBound spoofedShot _ _ rfl rfl ?_ (boundAt 1 ⟨1, 1⟩)
    (boundAt 2 ⟨2, 2⟩) List.mem_cons_self (List.mem_cons_of_mem _ List.mem_cons_self) rfl rfl ?_⟩
  · have hfresh : ∀ (s : GameThreads ℚ) (l : Label ℚ), l.joins = none → FreshJoins s l := by
      intro s l hl p hp
      rw [hl] at hp
      cases hp
    have hfirst : FreshJoins (init Boss.none 0 : GameThreads ℚ) (.join 1 []) := fun p _ => List.not_mem_nil
    refine .cons rfl hfirst (.cons rfl ?_ (.cons rfl (hfresh _ _ rfl) (.cons rfl (hfresh _ _ rfl)
      (.cons rfl (hfresh _ _ rfl) (.cons rfl (hfresh _ _ rfl) (.cons rfl (hfresh _ _ rfl)
        (.cons rfl (hfresh _ _ rfl) .nil)))))))
    intro p hp
    obtain rfl := Option.some.inj hp
    decide
  · decide

end GameThreads

end RType

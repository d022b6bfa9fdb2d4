import RType.Proof.Isolation
import RType.Proof.Relays

/-!
# What a session leaves behind

A session is entered in `_playerSockets` and `_playerUsernames` when it registers, in the
list of a room when it joins, and in `_playerRoomMap` when it enters the room. Each end of
`handleClient` undoes the entries made so far, except one: if the `CONNECT_OK` reply fails,
the function returns at once.

* `Accounted`: every entry belongs to a session that has not ended.
* `leavesNothing`: **as long as every `CONNECT_OK` finds its connection open, a session
  that has ended is in no table and in no room.**
* `not_leavesNothing_brokenRun`: a connection broken before its `CONNECT_OK`.
-/

namespace RType

open Lts

/-! ## The room of a thread -/

/-- The room of a thread, from the accepted join to `onPlayerDisconnect`. -/
def Pc.room : Pc → Option ℤ
  | joinReply _ roomId success => if success then some roomId else none
  | enterRoom _ roomId | inRoom _ roomId | startGame _ roomId | askStarting _ roomId | askLobby _ roomId
  | roomWrites _ roomId _ _ | chatLength _ roomId | chatBody _ roomId _ | chatSender _ roomId _
  | chatLock _ roomId _ | relaying _ roomId _ _ _ | chatUnlock _ roomId | disconnect _ roomId => some roomId
  | _ => none

/-- A thread stays in its room until it is disconnected. -/
theorem Pc.next_room {pc : Pc} {roomId : ℤ} (h : pc.room = some roomId) (hd : ∀ u, pc ≠ .disconnect u roomId)
    (r : pc.act.Result) : (pc.next r).room = some roomId := by
  have hmoves := pc.moves_next r
  generalize pc.next r = pc' at hmoves ⊢
  cases hmoves with
  | disconnected u roomId' =>
    obtain rfl := Option.some.inj h
    exact absurd rfl (hd u)
  | _ => first | exact h | cases h

/-- A thread gets into a room by an accepted join. -/
theorem Pc.room_of_next {pc : Pc} {roomId : ℤ} {r : pc.act.Result} (h : (pc.next r).room = some roomId) :
    pc.room = some roomId ∨ ∃ u, pc = .join u roomId := by
  have hmoves := pc.moves_next r
  generalize pc.next r = pc' at hmoves h
  cases hmoves with
  | joined u roomId' success =>
    cases success with
    | false => cases h
    | true =>
      obtain rfl := Option.some.inj h
      exact .inr ⟨u, rfl⟩
  | _ => first | exact .inl h | cases h

/-- A thread keeps its player until it unregisters it, or its `CONNECT_OK` fails. -/
theorem Pc.peer_next {pc : Pc} {u : Peer} (h : pc.peer = some u) (hun : pc ≠ .unregister u) (r : pc.act.Result) :
    (pc.next r).peer = some u ∨ ∃ time, pc = .connectOk u time ∧ pc.next r = .done := by
  have hmoves := pc.moves_next r
  generalize pc.next r = pc' at hmoves ⊢
  cases hmoves with
  | failed u' time =>
    obtain rfl := Option.some.inj h
    exact .inr ⟨time, rfl, rfl⟩
  | unregistered u' =>
    obtain rfl := Option.some.inj h
    exact absurd rfl hun
  | _ => first | exact .inl h | cases h

namespace TCPServer

open ServerManager

/-! ## The tables -/

section Tables

variable {H : Type*} {hd : ITCPHandler H} {s : TCPServer H} {t : ℕ} {env : Env} {pc : Pc} {r : pc.act.Result}
  {s₁ : TCPServer H}

/-- `_playerUsernames` after an act. -/
def usernamesAfter (m : Std.TreeMap UInt32 (List UInt8)) : Act → Std.TreeMap UInt32 (List UInt8)
  | .register u => m.insert u.playerId u.username
  | .unregister playerId => m.erase playerId
  | _ => m

theorem usernamesAfter_eq (m : Std.TreeMap UInt32 (List UInt8)) (a : Act) :
    usernamesAfter m a = tableAfter Peer.username m a := by
  cases a <;> rfl

theorem perform_usernames {a : Act} {r : a.Result} (h : s.perform hd t env a = some (r, s₁)) :
    s₁.playerUsernames = usernamesAfter s.playerUsernames a := by
  cases a <;> simp only [perform, locked, put] at h <;> (try split_ifs at h) <;>
    simp only [Option.some.injEq, Prod.mk.injEq, reduceCtorEq] at h <;> obtain ⟨-, rfl⟩ := h <;> rfl

/-- The connection is open whenever a `CONNECT_OK` is written. -/
def ConnectOkWritten {ε : Type*} (s : TCPServer H) (l : Label ε) : Prop :=
  ∀ t env, l = .thread t env → ∀ u time, s.pc t = .connectOk u time → s.isOpen t = true

/-- With its `CONNECT_OK` written, a thread keeps its player until it unregisters it. -/
theorem peer_step (hok : ∀ u time, pc = .connectOk u time → s.isOpen t = true)
    (hp : s.perform hd t env pc.act = some (r, s₁)) {u : Peer} (h : pc.peer = some u) (hun : pc ≠ .unregister u) :
    (pc.next r).peer = some u := by
  rcases pc.peer_next h hun r with hpeer | ⟨time, rfl, hdone⟩
  · exact hpeer
  · obtain ⟨rfl, -⟩ := Prod.mk.inj (Option.some.inj hp)
    have hfailed : (!s.isOpen t) = false := by rw [hok u time rfl]; rfl
    simp only [Pc.next, hfailed] at hdone
    cases hdone

/-- The players of the other threads stay as they are. -/
theorem peer_update (hok : ∀ u time, pc = .connectOk u time → s.isOpen t = true) (hpc : s.pc t = pc)
    (hp : s.perform hd t env pc.act = some (r, s₁)) {t' : ℕ} {u : Peer} (h : (s.pc t').peer = some u)
    (hun : pc = .unregister u → t' ≠ t) : (Function.update s.pc t (pc.next r) t').peer = some u := by
  by_cases ht : t' = t
  · subst ht
    rw [Function.update_self]
    exact peer_step hok hp (hpc ▸ h) fun he => hun he rfl
  · rw [Function.update_of_ne ht]
    exact h

end Tables

variable {F : Type*} {s s' : TCPServer (ServerManager F)}

/-- Every entry belongs to a session that has not ended. -/
structure Accounted (s : TCPServer (ServerManager F)) : Prop where
  sockets : ∀ playerId t, s.playerSockets[playerId]? = some t → ∃ u, (s.pc t).peer = some u ∧ u.playerId = playerId
  usernames : ∀ playerId : UInt32, (s.playerUsernames[playerId]?).isSome = (s.playerSockets[playerId]?).isSome
  players : ∀ roomId, ∀ playerId ∈ s.handler.ids roomId,
    ∃ t u, (s.pc t).peer = some u ∧ u.playerId = playerId ∧ (s.pc t).room = some roomId

section

variable [FloatOps F] {t : ℕ} {env : Env} {pc : Pc} {r : pc.act.Result} {s₁ : TCPServer (ServerManager F)}

theorem Accounted.sockets_step (h : Accounted s) (hok : ∀ u time, pc = .connectOk u time → s.isOpen t = true)
    (hpc : s.pc t = pc) (hp : s.perform ServerManager.handler t env pc.act = some (r, s₁)) :
    ∀ playerId t', s₁.playerSockets[playerId]? = some t' →
      ∃ u, (Function.update s.pc t (pc.next r) t').peer = some u ∧ u.playerId = playerId := by
  obtain ⟨hreg, -, -, hunreg, -, -⟩ := act_eq pc
  obtain ⟨-, hsock, -, -⟩ := perform_maps hp
  -- an entry stays with its thread, unless it is the one erased
  have hstay : ∀ playerId t', s.playerSockets[playerId]? = some t' →
      (∀ u, pc = .unregister u → u.playerId ≠ playerId) →
      ∃ u, (Function.update s.pc t (pc.next r) t').peer = some u ∧ u.playerId = playerId := by
    intro playerId t' hold hne
    obtain ⟨u, hu, rfl⟩ := h.sockets playerId t' hold
    exact ⟨u, peer_update hok hpc hp hu fun he => absurd rfl (hne u he), rfl⟩
  intro playerId t' hmem
  rw [hsock] at hmem
  unfold socketsAfter at hmem
  split at hmem
  · rename_i u ha
    obtain rfl := hreg u ha
    rw [Maps.getElem?_insert] at hmem
    split at hmem
    · rename_i he
      obtain rfl := Option.some.inj hmem
      exact ⟨u, by rw [Function.update_self]; rfl, he.symm⟩
    · exact hstay playerId t' hmem fun u' he => nomatch he
  · rename_i p ha
    obtain ⟨u, rfl, rfl⟩ := hunreg p ha
    rw [Maps.getElem?_erase] at hmem
    split at hmem
    · cases hmem
    · rename_i hne
      refine hstay playerId t' hmem fun u' he => ?_
      obtain rfl := Pc.unregister.inj he
      exact Ne.symm hne
  · rename_i hne
    refine hstay playerId t' hmem fun u he => ?_
    subst he
    exact absurd rfl (hne u.playerId)

/-- The two tables get and lose their entries together. -/
theorem Accounted.usernames_step (h : Accounted s)
    (hp : s.perform ServerManager.handler t env pc.act = some (r, s₁)) :
    ∀ playerId : UInt32, (s₁.playerUsernames[playerId]?).isSome = (s₁.playerSockets[playerId]?).isSome := by
  intro playerId
  rw [perform_usernames hp, (perform_maps hp).2.1]
  have hold := h.usernames playerId
  cases pc.act with
  | register u =>
    simp only [usernamesAfter, socketsAfter, Maps.getElem?_insert]
    split
    · rfl
    · exact hold
  | unregister p =>
    simp only [usernamesAfter, socketsAfter, Maps.getElem?_erase]
    split
    · rfl
    · exact hold
  | _ => exact hold

/-- `onPlayerDisconnect` takes a player out of the room named. -/
theorem onPlayerDisconnect_ids (m : ServerManager F) (playerId : UInt32) (roomId roomId' : ℤ) :
    (m.onPlayerDisconnect playerId roomId).ids roomId' =
      if roomId' = roomId then (m.ids roomId').filter (· != playerId) else m.ids roomId' := by
  unfold onPlayerDisconnect
  split
  · rename_i he
    subst he
    cases hr : m.rooms[roomId']? with
    | none =>
      rw [onRoom_of_none hr, ids_of_none hr]
      rfl
    | some e =>
      rw [ids_of_some (onRoom_self hr _), ids_of_some hr, List.filter_map]
      rfl
  · rename_i hne
    rw [ids, onRoom_of_ne hne, ← ids]

theorem Accounted.players_step (h : Accounted s) (hok : ∀ u time, pc = .connectOk u time → s.isOpen t = true)
    (hpc : s.pc t = pc) (hp : s.perform ServerManager.handler t env pc.act = some (r, s₁)) :
    ∀ roomId, ∀ playerId ∈ s₁.handler.ids roomId, ∃ t' u,
      (Function.update s.pc t (pc.next r) t').peer = some u ∧ u.playerId = playerId ∧
        (Function.update s.pc t (pc.next r) t').room = some roomId := by
  -- a player stays with its thread, unless it is disconnected
  have hstay : ∀ roomId, ∀ playerId ∈ s.handler.ids roomId, (∀ u, pc = .disconnect u roomId → u.playerId ≠ playerId) →
      ∃ t' u, (Function.update s.pc t (pc.next r) t').peer = some u ∧ u.playerId = playerId ∧
        (Function.update s.pc t (pc.next r) t').room = some roomId := by
    intro roomId playerId hmem hne
    obtain ⟨t', u, hu, rfl, hroom⟩ := h.players roomId playerId hmem
    refine ⟨t', u, peer_update hok hpc hp hu fun he => ?_, rfl, ?_⟩
    · rintro rfl
      rw [hpc, he] at hroom
      cases hroom
    · by_cases ht : t' = t
      · subst ht
        rw [Function.update_self]
        refine Pc.next_room (hpc ▸ hroom) (fun u' he => ?_) r
        rw [hpc, he] at hu
        exact hne u' he (congrArg Peer.playerId (Option.some.inj hu))
      · rw [Function.update_of_ne ht]
        exact hroom
  intro roomId playerId hmem
  by_cases hjoin : ∃ u roomId', pc = .join u roomId'
  · obtain ⟨u, roomId', rfl⟩ := hjoin
    obtain ⟨rfl, rfl⟩ := Prod.mk.inj (Option.some.inj hp)
    have hno : ∀ u', Pc.join u roomId' = .disconnect u' roomId → u'.playerId ≠ playerId := fun u' he => nomatch he
    rcases onJoinRoom_ids s.handler roomId' u.playerId u.username with hj | ⟨hacc, hids⟩
    · have hsame : (ServerManager.handler.onJoinRoom s.handler roomId' u.playerId u.username).2 = s.handler :=
        congrArg Prod.snd hj
      simp only [hsame] at hmem
      exact hstay roomId playerId hmem hno
    · have hids' : (ServerManager.handler.onJoinRoom s.handler roomId' u.playerId u.username).2.ids roomId =
          if roomId = roomId' then s.handler.ids roomId ++ [u.playerId] else s.handler.ids roomId := hids roomId
      simp only [hids'] at hmem
      split at hmem
      · rename_i he
        subst he
        rcases List.mem_append.1 hmem with hmem | hmem
        · exact hstay roomId playerId hmem hno
        · have hacc' : (ServerManager.handler.onJoinRoom s.handler roomId u.playerId u.username).1 = true := hacc
          refine ⟨t, u, ?_, (List.mem_singleton.1 hmem).symm, ?_⟩
          · rw [Function.update_self]
            rfl
          · rw [Function.update_self]
            simp only [Pc.next, Pc.room, hacc', if_true]
      · exact hstay roomId playerId hmem hno
  by_cases hdisc : ∃ u roomId', pc = .disconnect u roomId'
  · obtain ⟨u, roomId', rfl⟩ := hdisc
    obtain ⟨rfl, rfl⟩ := Prod.mk.inj (Option.some.inj hp)
    have hids : (ServerManager.handler.onPlayerDisconnect s.handler u.playerId roomId').ids roomId =
        if roomId = roomId' then (s.handler.ids roomId).filter (· != u.playerId) else s.handler.ids roomId :=
      onPlayerDisconnect_ids s.handler u.playerId roomId' roomId
    simp only [hids] at hmem
    split at hmem
    · obtain ⟨hmem, hne⟩ := List.mem_filter.1 hmem
      refine hstay roomId playerId hmem fun u' he => ?_
      obtain ⟨rfl, -⟩ := Pc.disconnect.inj he
      exact (bne_iff_ne.1 hne).symm
    · rename_i hne
      refine hstay roomId playerId hmem fun u' he => ?_
      obtain ⟨-, rfl⟩ := Pc.disconnect.inj he
      exact absurd rfl hne
  · have hk := keeps_of_not_join hp hjoin
    exact hstay roomId playerId ((hk.shrinks roomId).subset hmem) fun u he => absurd ⟨u, roomId, he⟩ hdisc

end

/-! ## All steps -/

section

variable [FloatOps F]

/-- Ids are not handed out twice, and every `CONNECT_OK` finds its connection open. -/
def EndsCleanly (s : TCPServer (ServerManager F)) (l : Label Event) : Prop :=
  s.accepted < 2 ^ 32 ∧ ConnectOkWritten s l

omit [FloatOps F] in
theorem Accounted.of_eq (h : Accounted s) (hsock : s'.playerSockets = s.playerSockets)
    (hname : s'.playerUsernames = s.playerUsernames) (hsh : s.handler.Shrinks s'.handler)
    (hpc : ∀ t u, (s.pc t).peer = some u → s'.pc t = s.pc t) : Accounted s' := by
  refine ⟨fun playerId t hmem => ?_, fun playerId => ?_, fun roomId playerId hmem => ?_⟩
  · rw [hsock] at hmem
    obtain ⟨u, hu, hid⟩ := h.sockets playerId t hmem
    exact ⟨u, by rw [hpc t u hu]; exact hu, hid⟩
  · rw [hsock, hname]
    exact h.usernames playerId
  · obtain ⟨t, u, hu, hid, hroom⟩ := h.players roomId playerId ((hsh roomId).subset hmem)
    exact ⟨t, u, by rw [hpc t u hu]; exact hu, hid, by rw [hpc t u hu]; exact hroom⟩

/-- **Every step that ends no session early keeps the entries accounted for.** -/
theorem accounted_step {k : ℕ} {l : Label Event} (hk : Peers k s) (h : Accounted s) (hC : ConnectOkWritten s l)
    (hs : rooms.step s l = some s') : Accounted s' := by
  rcases step_cases hs with ⟨rfl, rfl⟩ | ⟨t, env, pc, r, s₁, rfl, hpc, hp, rfl⟩ | ⟨playerId, rfl, -, rfl⟩ |
    ⟨sock, rfl, rfl⟩ | ⟨e, rfl, rfl⟩
  · refine h.of_eq rfl rfl (.refl _) fun t u hu => ?_
    have hdone : s.pc s.accepted = .done := hk.later s.accepted (Nat.le_refl _)
    have hne : t ≠ s.accepted := by
      rintro rfl
      rw [hdone] at hu
      cases hu
    exact Function.update_of_ne hne _ _
  · have hok : ∀ u time, pc = .connectOk u time → s.isOpen t = true := fun u time he =>
      hC t env rfl u time (hpc.trans he)
    have hpc₁ : s₁.pc = s.pc := (perform_frame hp).1
    have hsock := h.sockets_step hok hpc hp
    have hnames := h.usernames_step hp
    have hplayers := h.players_step hok hpc hp
    rw [← hpc₁] at hsock hplayers
    exact ⟨hsock, hnames, hplayers⟩
  · rw [kickPlayer_eq]
    exact ⟨h.sockets, h.usernames, h.players⟩
  · exact ⟨h.sockets, h.usernames, h.players⟩
  · exact h.of_eq rfl rfl (keeps_react e _).shrinks fun _ _ _ => rfl

theorem accounted_init : Accounted (init (ServerManager.init : ServerManager F)) := by
  refine ⟨fun playerId t hmem => ?_, fun playerId => rfl, fun roomId playerId hmem => ?_⟩
  · exact absurd (Std.TreeMap.getElem?_emptyc.symm.trans hmem) (by simp)
  · have hids : (init (ServerManager.init : ServerManager F)).handler.ids roomId = [] :=
      ids_of_none Std.TreeMap.getElem?_emptyc
    rw [hids] at hmem
    cases hmem

/-- What is known of the server in every state. -/
structure Orderly (k : ℕ) (s : TCPServer (ServerManager F)) : Prop where
  peers : Peers k s
  relays : Relays s
  accounted : Accounted s

theorem orderly_step {k : ℕ} {l : Label Event} (h : Orderly k s) (hC : EndsCleanly s l)
    (hs : rooms.step s l = some s') : ∃ k', k ≤ k' ∧ Orderly k' s' := by
  -- the accounts rely on ids that are distinct
  obtain ⟨k', hk, hpeers⟩ := peers_step h.peers hs hC.1
  exact ⟨k', hk, hpeers, relays_step h.peers h.relays hs, accounted_step h.peers h.accounted hC.2 hs⟩

/-- An id that was handed out stays with its thread. -/
theorem sole_step {k t : ℕ} {u : Peer} {l : Label Event} (h : Peers k s) (hlt : s.accepted < 2 ^ 32)
    (hu : u.playerId.toNat ≤ k) (hsole : ∀ t' u', (s.pc t').peer = some u' → u'.playerId = u.playerId → t' = t)
    (hs : rooms.step s l = some s') :
    ∀ t' u', (s'.pc t').peer = some u' → u'.playerId = u.playerId → t' = t := by
  intro t' u' hu' hid
  rcases step_cases hs with ⟨rfl, rfl⟩ | ⟨t₀, env, pc, r, s₁, rfl, hpc, hp, rfl⟩ | ⟨playerId, rfl, -, rfl⟩ |
    ⟨sock, rfl, rfl⟩ | ⟨e, rfl, rfl⟩
  · -- an accepted connection has no id yet
    by_cases ht : t' = s.accepted
    · subst ht
      simp only [Function.update_self] at hu'
      cases hu'
    · simp only [Function.update_of_ne ht] at hu'
      exact hsole t' u' hu' hid
  · rw [(perform_frame hp).1] at hu'
    by_cases ht : t' = t₀
    swap
    · simp only [Function.update_of_ne ht] at hu'
      exact hsole t' u' hu' hid
    subst ht
    simp only [Function.update_self] at hu'
    by_cases htake : ∃ username, pc = .takePlayerId username
    · -- the next id is new
      obtain ⟨username, rfl⟩ := htake
      obtain ⟨rfl, -⟩ := Prod.mk.inj (Option.some.inj hp)
      have hnext := h.nextPlayerId_toNat hpc hlt
      obtain rfl := Option.some.inj hu'
      have hid' : s.nextPlayerId = u.playerId := hid
      rw [hid'] at hnext
      omega
    · rcases pc.next_peer (fun username he => htake ⟨username, he⟩) r with hq | hq
      · exact hsole t' u' (by rw [hpc, ← hq, hu']) hid
      · rw [hq] at hu'
        cases hu'
  · rw [kickPlayer_eq] at hu'
    exact hsole t' u' hu' hid
  · exact hsole t' u' hu' hid
  · exact hsole t' u' hu' hid

/-! ## Sessions that have ended -/

/-- A player id is in no table and in no room. -/
structure Forgets (s : TCPServer (ServerManager F)) (playerId : UInt32) : Prop where
  sockets : s.playerSockets[playerId]? = none
  usernames : s.playerUsernames[playerId]? = none
  roomMap : s.playerRoomMap[playerId]? = none
  rooms : ∀ roomId, playerId ∉ s.handler.ids roomId

/-- **Sessions leave nothing behind**: whenever a thread has returned from `handleClient`,
the id that it had is in no table and in no room. -/
def LeavesNothing (F : Type*) [FloatOps F] (labels : List (Label Event)) : Prop :=
  ∀ pre post (s₁ s₂ : TCPServer (ServerManager F)) t u, pre ++ post <+: labels →
    rooms.run (init ServerManager.init) pre = some s₁ → rooms.run s₁ post = some s₂ →
      (s₁.pc t).peer = some u → s₂.pc t = .done → s₂.Forgets u.playerId

omit [FloatOps F] in
/-- An id of no live session has no entry. -/
theorem Orderly.forgets {k : ℕ} {playerId : UInt32} (h : Orderly k s)
    (hnone : ∀ t u, (s.pc t).peer = some u → u.playerId ≠ playerId) : s.Forgets playerId := by
  have hsock : s.playerSockets[playerId]? = none := by
    by_contra hne
    obtain ⟨t, ht⟩ := Option.ne_none_iff_exists'.1 hne
    obtain ⟨u, hu, hid⟩ := h.accounted.sockets playerId t ht
    exact hnone t u hu hid
  refine ⟨hsock, ?_, ?_, fun roomId hmem => ?_⟩
  · have hname := h.accounted.usernames playerId
    rw [hsock] at hname
    exact Option.isNone_iff_eq_none.1 (by rw [← Option.not_isSome, hname]; rfl)
  · by_contra hne
    obtain ⟨roomId, hroom⟩ := Option.ne_none_iff_exists'.1 hne
    obtain ⟨t, u, hu, hid, -⟩ := h.relays.mapped playerId roomId hroom
    exact hnone t u hu hid
  · obtain ⟨t, u, hu, hid, -⟩ := h.accounted.players roomId playerId hmem
    exact hnone t u hu hid

theorem exists_orderly {labels : List (Label Event)}
    (hC : rooms.Along (EndsCleanly (F := F)) (init ServerManager.init) labels)
    (hr : rooms.run (init ServerManager.init) labels = some s) : ∃ k, Orderly k s := by
  refine Machine.inv_along (M := rooms) (I := fun s : TCPServer (ServerManager F) => ∃ k, Orderly k s) ?_ labels _ s
    ⟨0, peers_init _, relays_init _, accounted_init⟩ hC hr
  rintro s l s' ⟨k, h⟩ hC hs
  obtain ⟨k', -, h'⟩ := orderly_step h hC hs
  exact ⟨k', h'⟩

/-- **As long as every `CONNECT_OK` finds its connection open and fewer than `2 ^ 32`
connections have been accepted, sessions leave nothing behind.** -/
theorem leavesNothing (labels : List (Label Event))
    (hC : rooms.Along (EndsCleanly (F := F)) (init ServerManager.init) labels) : LeavesNothing F labels := by
  intro pre post s₁ s₂ t u hpre h₁ h₂ hu hdone
  have hrun : rooms.run (init ServerManager.init) (pre ++ post) = some s₂ := rooms.run_append_iff.2 ⟨s₁, h₁, h₂⟩
  have hCall : rooms.Along (EndsCleanly (F := F)) (init ServerManager.init) (pre ++ post) := hC.upTo hpre hrun
  obtain ⟨hCpre, hCpost⟩ := (Machine.along_append h₁).1 hCall
  obtain ⟨k₁, horderly₁⟩ := exists_orderly hCpre h₁
  -- from the moment the thread has its id on, no other thread has it
  obtain ⟨k₂, horderly₂, -, hsole⟩ := Machine.inv_along (M := rooms)
    (I := fun s : TCPServer (ServerManager F) => ∃ k, Orderly k s ∧ u.playerId.toNat ≤ k ∧
      ∀ t' u', (s.pc t').peer = some u' → u'.playerId = u.playerId → t' = t)
    (by
      rintro s l s' ⟨k, h, hle, hsole⟩ hC hs
      obtain ⟨k', hk, h'⟩ := orderly_step h hC hs
      exact ⟨k', h', hle.trans hk, sole_step h.peers hC.1 hle hsole hs⟩)
    post s₁ s₂
    ⟨k₁, horderly₁, (horderly₁.peers.range t u hu).2, fun t' u' hu' hid =>
      horderly₁.peers.distinct t' t u' u hu' hu hid⟩
    hCpost h₂
  refine horderly₂.forgets fun t' u' hu' hid => ?_
  obtain rfl := hsole t' u' hu' hid
  rw [hdone] at hu'
  cases hu'

omit [FloatOps F] in
theorem connectOkWritten_of_isOpen {t : ℕ} {env : Env} (h : s.isOpen t = true) :
    ConnectOkWritten s (.thread t env : Label Event) := by
  intro t' env' he u time _
  cases he
  exact h

/-- Thread 0 reads the end of its stream. -/
def readsEof : Label Event := .thread 0 ⟨⟨[], some .eof, []⟩, 0, ⟨0, 0⟩⟩

/-- A client connects and leaves from the lobby. -/
def quitRun : List (Label Event) :=
  [.accept, reads (1 :: List.replicate 32 0), reads [], reads [], reads [], reads [], readsEof, reads [], reads []]

theorem leavesNothing_quitRun : LeavesNothing ℚ quitRun := by
  have hthread : ∀ {s : TCPServer (ServerManager ℚ)} {env : Env}, s.accepted = 1 → s.isOpen 0 = true →
      EndsCleanly s (.thread 0 env) := fun ha ho => ⟨by rw [ha]; decide, connectOkWritten_of_isOpen ho⟩
  refine leavesNothing quitRun ?_
  refine .cons rfl ⟨by decide, fun t env he => nomatch he⟩ ?_
  refine .cons rfl (hthread rfl rfl) (.cons rfl (hthread rfl rfl) (.cons rfl (hthread rfl rfl) ?_))
  refine .cons rfl (hthread rfl rfl) (.cons rfl (hthread rfl rfl) (.cons rfl (hthread rfl rfl) ?_))
  exact .cons rfl (hthread rfl rfl) (.cons rfl (hthread rfl rfl) .nil)

/-- A client connects, and its connection breaks before the reply. -/
def brokenRun : List (Label Event) :=
  [.accept, reads (1 :: List.replicate 32 0), reads [], reads [], reads [], .reset 0, reads []]

/-- **A failed `CONNECT_OK` leaves the session in two tables.** -/
theorem not_leavesNothing_brokenRun : ¬ LeavesNothing ℚ brokenRun := by
  intro h
  have hgone := h (brokenRun.take 3) (brokenRun.drop 3) _ _ 0 ⟨1, []⟩ List.prefix_rfl
    rfl rfl rfl rfl
  have hsock := hgone.sockets
  revert hsock
  decide

end

end TCPServer

end RType

import RType.Lib.Maps
import RType.Proof.Peers

/-!
# Whom a chat is relayed to

While a thread relays a chat it holds `_serverMutex`, and nobody enters or leaves a room.

* `Relays`: the invariant that ties the two maps and the mutex to the threads.
* `rank_of_relaying`: the threads of the sockets a chat is relayed to are in a room.
-/

namespace RType

open Lts

/-- The acts that wait for `_serverMutex`. -/
def Act.locks : Act → Bool
  | register _ | enterRoom _ _ | leaveRoom _ | unregister _ | senderName _ | lockRoom _ _ => true
  | _ => false

/-- The thread holds `_serverMutex`. -/
def Pc.holds : Pc → Bool
  | relaying _ _ _ _ _ | chatUnlock _ _ => true
  | _ => false

/-- A thread in a room stays in it, unless it leaves the map of the rooms. -/
theorem Pc.next_inRoom (pc : Pc) (h4 : pc.rank = 4) (hl : ∀ u, pc ≠ .leaveRoom u) (r : pc.act.Result) :
    (pc.next r).rank = 4 ∧ (pc.next r).peer = pc.peer := by
  have hmoves := pc.moves_next r
  generalize pc.next r = pc' at hmoves ⊢
  cases hmoves with
  | left u => exact absurd rfl (hl u)
  | joined | turnedAway | letIn => cases h4
  | _ => first | exact ⟨rfl, rfl⟩ | cases h4

/-- Beyond the registration a thread is registered. -/
theorem Pc.two_le_rank {pc : Pc} {u : Peer} (h : pc.peer = some u) (hr : pc ≠ .register u) : 2 ≤ pc.rank := by
  cases pc with
  | register u' =>
    obtain rfl := Option.some.inj h
    exact absurd rfl hr
  | joinReply u' roomId success => cases success <;> simp [rank]
  | handshake | takePlayerId _ | close | done => cases h
  | _ => simp [rank]

theorem Pc.relayTo_eq_relaying {u u' : Peer} {roomId roomId' : ℤ} {msg msg' : List UInt8} {socks rest : List ℕ}
    {sock : ℕ} (h : relayTo u roomId msg socks = relaying u' roomId' msg' sock rest) : socks = sock :: rest := by
  cases socks with
  | nil => cases h
  | cons x socks => cases h; rfl

/-- A thread takes the mutex before it relays, and keeps it until it is done. -/
theorem Pc.holds_next {pc : Pc} {r : pc.act.Result} (hl : ∀ u roomId msg, pc ≠ .chatLock u roomId msg)
    (h : (pc.next r).holds = true) : ∃ u roomId msg sock rest, pc = .relaying u roomId msg sock rest := by
  have hmoves := pc.moves_next r
  generalize pc.next r = pc' at hmoves h
  cases hmoves with
  | relays u roomId msg | relaysNone u roomId msg => exact absurd rfl (hl u roomId msg)
  | relayed u roomId msg sock sock' rest => exact ⟨u, roomId, msg, sock, _, rfl⟩
  | relayedAll u roomId msg sock => exact ⟨u, roomId, msg, sock, _, rfl⟩
  | _ => cases h

/-- A thread relays on to the sockets that are left. -/
theorem Pc.next_eq_relaying {pc : Pc} {r : pc.act.Result} {u : Peer} {roomId : ℤ} {fullMsg : List UInt8} {sock : ℕ}
    {rest : List ℕ} (hl : ∀ u roomId msg, pc ≠ .chatLock u roomId msg)
    (h : pc.next r = .relaying u roomId fullMsg sock rest) :
    ∃ u' roomId' msg sock', pc = .relaying u' roomId' msg sock' (sock :: rest) := by
  have hmoves := pc.moves_next r
  rw [h] at hmoves
  cases hmoves with
  | relays => exact absurd rfl (hl u roomId fullMsg)
  | relayed _ _ _ sock' => exact ⟨u, roomId, fullMsg, sock', rfl⟩

namespace TCPServer

variable {H ε : Type*} {hd : ITCPHandler H} {ext : ε → H → H} {s s' : TCPServer H}

/-- `_playerSockets` after an act of thread `t`. -/
def socketsAfter (t : ℕ) (m : Std.TreeMap UInt32 ℕ) : Act → Std.TreeMap UInt32 ℕ
  | .register u => m.insert u.playerId t
  | .unregister playerId => m.erase playerId
  | _ => m

/-- `_playerRoomMap` after an act. -/
def roomsAfter (m : Std.TreeMap UInt32 ℤ) : Act → Std.TreeMap UInt32 ℤ
  | .enterRoom playerId roomId => m.insert playerId roomId
  | .leaveRoom playerId => m.erase playerId
  | _ => m

/-- `_serverMutex` after an act of thread `t`. -/
def mutexAfter (t : ℕ) (m : Option ℕ) : Act → Option ℕ
  | .lockRoom _ _ => some t
  | .unlock => none
  | _ => m

/-- What an act does to the maps of the players and to the mutex. -/
theorem perform_maps {t : ℕ} {env : Env} {a : Act} {r : a.Result} {s₁ : TCPServer H}
    (h : s.perform hd t env a = some (r, s₁)) :
    (a.locks = true → s.serverMutex = none) ∧ s₁.playerSockets = socketsAfter t s.playerSockets a ∧
      s₁.playerRoomMap = roomsAfter s.playerRoomMap a ∧ s₁.serverMutex = mutexAfter t s.serverMutex a := by
  cases a <;> simp only [perform, locked, put] at h <;> (try split_ifs at h) <;>
    simp only [Option.some.injEq, Prod.mk.injEq, reduceCtorEq] at h <;> obtain ⟨-, rfl⟩ := h <;>
    simp_all [Act.locks, socketsAfter, roomsAfter, mutexAfter]

/-- The maps and the mutex, as the threads know them. -/
structure Relays (s : TCPServer H) : Prop where
  registered : ∀ t u, (s.pc t).peer = some u → 2 ≤ (s.pc t).rank → s.playerSockets[u.playerId]? = some t
  mapped : ∀ playerId roomId, s.playerRoomMap[playerId]? = some roomId →
    ∃ t u, (s.pc t).peer = some u ∧ u.playerId = playerId ∧ (s.pc t).rank = 4
  holding : ∀ t, (s.pc t).holds = true → s.serverMutex = some t
  targets : ∀ t u roomId fullMsg sock rest, s.pc t = .relaying u roomId fullMsg sock rest →
    ∀ x ∈ sock :: rest, (s.pc x).rank = 4

/-- The thread an act of registering or leaving belongs to. -/
theorem act_eq (pc : Pc) :
    (∀ u, pc.act = .register u → pc = .register u) ∧
    (∀ playerId roomId, pc.act = .enterRoom playerId roomId → ∃ u, pc = .enterRoom u roomId ∧ u.playerId = playerId) ∧
    (∀ playerId, pc.act = .leaveRoom playerId → ∃ u, pc = .leaveRoom u ∧ u.playerId = playerId) ∧
    (∀ playerId, pc.act = .unregister playerId → ∃ u, pc = .unregister u ∧ u.playerId = playerId) ∧
    (∀ playerId roomId, pc.act = .lockRoom playerId roomId → ∃ u msg, pc = .chatLock u roomId msg) ∧
    (pc.act = .unlock → ∃ u roomId, pc = .chatUnlock u roomId) := by
  cases pc <;> simp [Pc.act]

/-- A table of the registered players after an act: `value` is entered for one. -/
def tableAfter {β : Type*} (value : Peer → β) (m : Std.TreeMap UInt32 β) : Act → Std.TreeMap UInt32 β
  | .register u => m.insert u.playerId (value u)
  | .unregister playerId => m.erase playerId
  | _ => m

theorem socketsAfter_eq (t : ℕ) (m : Std.TreeMap UInt32 ℕ) (a : Act) :
    socketsAfter t m a = tableAfter (fun _ => t) m a := by
  cases a <;> rfl

/-- The entry of a player stays while only others come and go. -/
theorem getElem?_tableAfter {β : Type*} (value : Peer → β) (m : Std.TreeMap UInt32 β) {pc : Pc} {playerId : UInt32}
    (h : ∀ u : Peer, pc = .register u ∨ pc = .unregister u → u.playerId ≠ playerId) :
    (tableAfter value m pc.act)[playerId]? = m[playerId]? := by
  obtain ⟨hreg, -, -, hunreg, -, -⟩ := act_eq pc
  unfold tableAfter
  split
  · rename_i u hact
    have hid : u.playerId ≠ playerId := h u (.inl (hreg u hact))
    rw [Maps.getElem?_insert, if_neg hid.symm]
  · rename_i p hact
    obtain ⟨u, hu, rfl⟩ := hunreg p hact
    have hid : u.playerId ≠ playerId := h u (.inr hu)
    rw [Maps.getElem?_erase, if_neg hid.symm]
  · rfl

/-- **A table of the registered players** still has one entry for each after a step of thread
`t`, where no other player has the id of `t`. -/
theorem registered_after {β : Type*} (value : ℕ → Peer → β) {table : Std.TreeMap UInt32 β} {t : ℕ} {pc : Pc}
    (h : ∀ t' u, (s.pc t').peer = some u → 2 ≤ (s.pc t').rank → table[u.playerId]? = some (value t' u))
    (halone : ∀ u', (s.pc t).peer = some u' → ∀ t' u, (s.pc t').peer = some u → u'.playerId = u.playerId → t' = t)
    (hpc : s.pc t = pc) (r : pc.act.Result) :
    ∀ t' u, (Function.update s.pc t (pc.next r) t').peer = some u →
      2 ≤ (Function.update s.pc t (pc.next r) t').rank →
      (tableAfter (value t) table pc.act)[u.playerId]? = some (value t' u) := by
  intro t' u hu hr
  by_cases ht : t' = t
  · subst ht
    rw [Function.update_self] at hu hr
    by_cases hregister : ∃ u', pc = .register u'
    · obtain ⟨u', rfl⟩ := hregister
      obtain rfl := Option.some.inj hu
      exact Std.TreeMap.getElem?_insert_self
    · have htake : ∀ username, pc ≠ .takePlayerId username := by
        rintro username rfl
        exact absurd hr (by simp [Pc.next, Pc.rank])
      have hpeer : pc.peer = some u := by
        rcases pc.next_peer htake r with hq | hq
        · rw [← hq, hu]
        · rw [hq] at hu
          cases hu
      have hrank : 2 ≤ pc.rank := Pc.two_le_rank hpeer fun he => hregister ⟨u, he⟩
      rw [getElem?_tableAfter, h t' u (hpc ▸ hpeer) (hpc ▸ hrank)]
      rintro u' (rfl | rfl)
      · exact absurd ⟨u', rfl⟩ hregister
      · cases hu
  · rw [Function.update_of_ne ht] at hu hr
    rw [getElem?_tableAfter, h t' u hu hr]
    intro u' hu' hid
    have hpeer : (s.pc t).peer = some u' := by
      rw [hpc]
      rcases hu' with rfl | rfl <;> rfl
    exact ht (halone u' hpeer t' u hu hid)

/-- An entry of `_playerSockets` that a chat is relayed to belongs to a thread in the room. -/
theorem Relays.entry (h : Relays s) {playerId p : UInt32} {roomId : ℤ} {sock : ℕ}
    (hm : (p, sock) ∈ s.playerSockets.toList.filter fun e => e.1 ≠ playerId ∧ s.playerRoomMap[e.1]? = some roomId) :
    ∃ u, (s.pc sock).peer = some u ∧ u.playerId = p ∧ (s.pc sock).rank = 4 ∧ p ≠ playerId ∧
      s.playerRoomMap[p]? = some roomId := by
  obtain ⟨hmem, hcond⟩ := List.mem_filter.1 hm
  have hsock : s.playerSockets[p]? = some sock := Std.TreeMap.mem_toList_iff_getElem?_eq_some.1 hmem
  obtain ⟨hne, hroom⟩ : p ≠ playerId ∧ s.playerRoomMap[p]? = some roomId := by simpa using hcond
  obtain ⟨t, u, hu, rfl, h4⟩ := h.mapped p roomId hroom
  have hreg := h.registered t u hu (by omega)
  obtain rfl : sock = t := Option.some.inj (hsock.symm.trans hreg)
  exact ⟨u, hu, rfl, h4, hne, hroom⟩

/-- A socket a chat is relayed to belongs to a thread in a room. -/
theorem Relays.recipients (h : Relays s) {playerId : UInt32} {roomId : ℤ} {sock : ℕ}
    (hm : sock ∈ s.recipients playerId roomId) : (s.pc sock).rank = 4 := by
  obtain ⟨⟨p, sock'⟩, hp, rfl⟩ := List.mem_map.1 hm
  obtain ⟨u, -, -, h4, -⟩ := h.entry hp
  exact h4

section

variable {k t : ℕ} {env : Env} {pc : Pc} {r : pc.act.Result} {s₁ : TCPServer H}

/-- The registrations after a step of a thread. -/
theorem Relays.registered_step (h : Relays s) (hk : Peers k s) (hpc : s.pc t = pc)
    (hp : s.perform hd t env pc.act = some (r, s₁)) :
    ∀ t' u, (Function.update s.pc t (pc.next r) t').peer = some u →
      2 ≤ (Function.update s.pc t (pc.next r) t').rank → s₁.playerSockets[u.playerId]? = some t' := by
  obtain ⟨-, hsock, -, -⟩ := perform_maps hp
  have halone : ∀ u', (s.pc t).peer = some u' → ∀ t' u, (s.pc t').peer = some u → u'.playerId = u.playerId → t' = t :=
    fun u' hu' t' u hu hid => (hk.distinct t t' u' u hu' hu hid).symm
  rw [hsock, socketsAfter_eq]
  exact registered_after (fun t _ => t) h.registered halone hpc r

/-- An entry of `_playerRoomMap` is new when its thread enters the room, and is gone when
its thread leaves. -/
theorem roomMap_step (hp : s.perform hd t env pc.act = some (r, s₁)) {playerId : UInt32} {roomId : ℤ}
    (hroom : s₁.playerRoomMap[playerId]? = some roomId) :
    (∃ u, pc = .enterRoom u roomId ∧ u.playerId = playerId) ∨
      s.playerRoomMap[playerId]? = some roomId ∧ ∀ u, pc = .leaveRoom u → u.playerId ≠ playerId := by
  obtain ⟨-, henter, hleave, -, -, -⟩ := act_eq pc
  rw [(perform_maps hp).2.2.1] at hroom
  unfold roomsAfter at hroom
  split at hroom
  · rename_i p room ha
    obtain ⟨u, rfl, rfl⟩ := henter p room ha
    rw [Maps.getElem?_insert] at hroom
    split at hroom
    · rename_i he
      obtain rfl := Option.some.inj hroom
      exact .inl ⟨u, rfl, he.symm⟩
    · exact .inr ⟨hroom, fun u' he' => nomatch he'⟩
  · rename_i p ha
    obtain ⟨u, rfl, rfl⟩ := hleave p ha
    rw [Maps.getElem?_erase] at hroom
    split at hroom
    · cases hroom
    · rename_i hne
      refine .inr ⟨hroom, fun u' he' => ?_⟩
      obtain rfl := Pc.leaveRoom.inj he'
      exact Ne.symm hne
  · rename_i hne
    refine .inr ⟨hroom, fun u he => ?_⟩
    subst he
    exact absurd rfl (hne u.playerId)

/-- The rooms after a step of a thread. -/
theorem Relays.mapped_step (h : Relays s) (hpc : s.pc t = pc) (hp : s.perform hd t env pc.act = some (r, s₁)) :
    ∀ playerId roomId, s₁.playerRoomMap[playerId]? = some roomId → ∃ t' u,
      (Function.update s.pc t (pc.next r) t').peer = some u ∧ u.playerId = playerId ∧
        (Function.update s.pc t (pc.next r) t').rank = 4 := by
  intro playerId roomId hroom
  rcases roomMap_step hp hroom with ⟨u, rfl, rfl⟩ | ⟨hold, hne⟩
  · refine ⟨t, u, ?_⟩
    rw [Function.update_self]
    exact ⟨rfl, rfl, rfl⟩
  · -- a thread that was in a room still is
    obtain ⟨t', u, hu, rfl, h4⟩ := h.mapped playerId roomId hold
    refine ⟨t', u, ?_⟩
    by_cases ht : t' = t
    · subst ht
      rw [hpc] at hu h4
      have hl : ∀ u', pc ≠ .leaveRoom u' := by
        rintro u' rfl
        exact hne u' rfl (by rw [Option.some.inj hu])
      obtain ⟨h4', hu'⟩ := pc.next_inRoom h4 hl r
      rw [Function.update_self]
      exact ⟨hu'.trans hu, rfl, h4'⟩
    · rw [Function.update_of_ne ht]
      exact ⟨hu, rfl, h4⟩

/-- The mutex after a step of a thread. -/
theorem Relays.holding_step (h : Relays s) (hpc : s.pc t = pc) (hp : s.perform hd t env pc.act = some (r, s₁)) :
    ∀ t', (Function.update s.pc t (pc.next r) t').holds = true → s₁.serverMutex = some t' := by
  obtain ⟨-, -, -, -, hlock, hunlock⟩ := act_eq pc
  obtain ⟨hfree, -, -, hmutex⟩ := perform_maps hp
  intro t' hh
  rw [hmutex]
  by_cases ht : t' = t
  · subst ht
    rw [Function.update_self] at hh
    by_cases hl : ∃ u roomId msg, pc = .chatLock u roomId msg
    · obtain ⟨u, roomId, msg, rfl⟩ := hl
      rfl
    · obtain ⟨u, roomId, msg, sock, rest, rfl⟩ := Pc.holds_next (fun u roomId msg he => hl ⟨u, roomId, msg, he⟩) hh
      exact h.holding t' (by rw [hpc]; rfl)
  · rw [Function.update_of_ne ht] at hh
    have hheld := h.holding t' hh
    unfold mutexAfter
    split
    · rename_i ha
      rw [ha] at hfree
      rw [hfree rfl] at hheld
      cases hheld
    · rename_i ha
      obtain ⟨u, roomId, rfl⟩ := hunlock ha
      rw [h.holding t (by rw [hpc]; rfl)] at hheld
      exact absurd (Option.some.inj hheld).symm ht
    · exact hheld

/-- The relays in progress after a step of a thread. -/
theorem Relays.targets_step (h : Relays s) (hpc : s.pc t = pc) (hp : s.perform hd t env pc.act = some (r, s₁)) :
    ∀ t' u roomId fullMsg sock rest,
      Function.update s.pc t (pc.next r) t' = .relaying u roomId fullMsg sock rest →
      ∀ x ∈ sock :: rest, (Function.update s.pc t (pc.next r) x).rank = 4 := by
  obtain ⟨hfree, -, -, -⟩ := perform_maps hp
  intro t' u roomId fullMsg sock rest hrel x hx
  by_cases ht : t' = t
  · subst ht
    rw [Function.update_self] at hrel
    by_cases hxt : x = t'
    · rw [hxt, Function.update_self, hrel]
      rfl
    rw [Function.update_of_ne hxt]
    by_cases hl : ∃ u roomId msg, pc = .chatLock u roomId msg
    · obtain ⟨u', roomId', msg, rfl⟩ := hl
      have hr : s.locked (s.recipients u'.playerId roomId', { s with serverMutex := some t' }) = some (r, s₁) := hp
      unfold locked at hr
      split at hr
      · obtain ⟨rfl, -⟩ := Prod.mk.inj (Option.some.inj hr)
        rw [← Pc.relayTo_eq_relaying hrel] at hx
        exact h.recipients hx
      · cases hr
    · obtain ⟨u', roomId', msg, sock', rfl⟩ :=
        Pc.next_eq_relaying (fun u roomId msg he => hl ⟨u, roomId, msg, he⟩) hrel
      exact h.targets t' _ _ _ _ _ hpc x (List.mem_cons_of_mem _ hx)
  · rw [Function.update_of_ne ht] at hrel
    have h4 := h.targets t' _ _ _ _ _ hrel x hx
    by_cases hxt : x = t
    · subst hxt
      rw [hpc] at h4
      -- the relaying thread has the mutex, so this one does not leave its room
      have hheld := h.holding t' (by rw [hrel]; rfl)
      rw [Function.update_self]
      refine (pc.next_inRoom h4 ?_ r).1
      rintro u' rfl
      rw [hfree rfl] at hheld
      cases hheld
    · rw [Function.update_of_ne hxt]
      exact h4

end

theorem relays_step {k : ℕ} {l : Label ε} (hk : Peers k s) (h : Relays s) (hs : (machine hd ext).step s l = some s') :
    Relays s' := by
  rcases step_cases hs with ⟨rfl, rfl⟩ | ⟨t, env, pc, r, s₁, rfl, hpc, hp, rfl⟩ | ⟨playerId, rfl, -, rfl⟩ |
    ⟨sock, rfl, rfl⟩ | ⟨e, rfl, rfl⟩
  · have hdone : s.pc s.accepted = .done := hk.later s.accepted (Nat.le_refl _)
    have hne : ∀ t, (s.pc t).rank = 4 → t ≠ s.accepted := by
      rintro t h4 rfl
      rw [hdone] at h4
      cases h4
    refine ⟨fun t u hu hr => ?_, fun playerId roomId hroom => ?_, fun t hh => ?_,
      fun t u roomId fullMsg sock rest hrel x hx => ?_⟩
    · by_cases ht : t = s.accepted
      · subst ht
        simp only [Function.update_self] at hu
        cases hu
      · simp only [Function.update_of_ne ht] at hu hr
        exact h.registered t u hu hr
    · obtain ⟨t, u, hu, he, h4⟩ := h.mapped playerId roomId hroom
      refine ⟨t, u, ?_⟩
      simp only [Function.update_of_ne (hne t h4)]
      exact ⟨hu, he, h4⟩
    · by_cases ht : t = s.accepted
      · subst ht
        simp only [Function.update_self] at hh
        cases hh
      · simp only [Function.update_of_ne ht] at hh
        exact h.holding t hh
    · by_cases ht : t = s.accepted
      · subst ht
        simp only [Function.update_self] at hrel
        cases hrel
      · simp only [Function.update_of_ne ht] at hrel
        have h4 := h.targets t u roomId fullMsg sock rest hrel x hx
        simp only [Function.update_of_ne (hne x h4)]
        exact h4
  · have hpc₁ : s₁.pc = s.pc := (perform_frame hp).1
    have h1 := h.registered_step hk hpc hp
    have h2 := h.mapped_step hpc hp
    have h3 := h.holding_step hpc hp
    have h4 := h.targets_step hpc hp
    rw [← hpc₁] at h1 h2 h3 h4
    exact ⟨h1, h2, h3, h4⟩
  · rw [kickPlayer_eq]
    exact ⟨h.registered, h.mapped, h.holding, h.targets⟩
  · exact ⟨h.registered, h.mapped, h.holding, h.targets⟩
  · exact ⟨h.registered, h.mapped, h.holding, h.targets⟩

theorem relays_init (h : H) : Relays (init h) where
  registered := fun _ _ hu => nomatch hu
  mapped := fun playerId roomId hroom => absurd (Std.TreeMap.getElem?_emptyc.symm.trans hroom) (by simp)
  holding := fun _ hh => nomatch hh
  targets := fun _ _ _ _ _ _ hrel => nomatch hrel

/-- **Chats are relayed to threads in a room only**, as long as fewer than `2 ^ 32`
connections were accepted. -/
theorem rank_of_relaying {h : H} {labels : List (Label ε)} (hr : (machine hd ext).run (init h) labels = some s)
    (hlt : s.accepted < 2 ^ 32) {t sock : ℕ} {u : Peer} {roomId : ℤ} {fullMsg : List UInt8} {rest : List ℕ}
    (hpc : s.pc t = .relaying u roomId fullMsg sock rest) : (s.pc sock).rank = 4 := by
  have hstep : ∀ (s : TCPServer H) (l : Label ε) (s' : TCPServer H),
      (s.accepted < 2 ^ 32 → ∃ k, Peers k s ∧ Relays s) → (machine hd ext).step s l = some s' →
      s'.accepted < 2 ^ 32 → ∃ k, Peers k s' ∧ Relays s' := by
    intro s l s' ih hs hlt'
    have hlt := (accepted_le_step hs).trans_lt hlt'
    obtain ⟨k, hk, hrel⟩ := ih hlt
    obtain ⟨k', -, hk'⟩ := peers_step hk hs hlt
    exact ⟨k', hk', relays_step hk hrel hs⟩
  obtain ⟨k, -, hrel⟩ := Machine.inv_run (M := machine hd ext)
    (I := fun s => s.accepted < 2 ^ 32 → ∃ k, Peers k s ∧ Relays s) hstep labels (init h) s
    (fun _ => ⟨0, peers_init h, relays_init h⟩) hr hlt
  exact hrel.targets t u roomId fullMsg sock rest hpc sock List.mem_cons_self

end TCPServer

end RType

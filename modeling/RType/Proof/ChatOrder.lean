import RType.Proof.ChatRouting

/-!
# Chats in one order

A relay holds `_serverMutex` from the choice of its recipients to its last write, so the
relays take place one after the other.

* `noteRelay`: the relays of a run, in the order in which they take the mutex.
* `Ordered`: what the sockets have of them, and what the relay in progress still owes.
* `chats_ordered`: **the chats on a socket are the relays addressed to it, in the order of
  the mutex and each once**; nothing is missing while the socket is open.
-/

namespace RType

open Lts

/-- The text of a block that is a chat. -/
def Block.chat : Block → Option (List UInt8)
  | chatMessage fullMsg => some fullMsg
  | _ => none

/-- What a relay still owes to socket `k`. -/
def Pc.owes (k : ℕ) : Pc → List (List UInt8)
  | relaying _ _ fullMsg sock rest => if k ∈ sock :: rest then [fullMsg] else []
  | _ => []

/-- The blocks of a reply in progress are no chats. -/
def Pc.Plain (pc : Pc) : Prop := ∀ b ∈ pc.unfinished, b.chat = none

namespace Pc

theorem owes_relayTo (k : ℕ) (u : Peer) (roomId : ℤ) (fullMsg : List UInt8) (socks : List ℕ) :
    (relayTo u roomId fullMsg socks).owes k = if k ∈ socks then [fullMsg] else [] := by
  cases socks with
  | nil => rfl
  | cons sock rest => rfl

/-- No reply has a chat in it. -/
theorem plain_next {pc : Pc} (h : pc.Plain) (r : pc.act.Result) : (pc.next r).Plain := by
  have hnone : ∀ f : ServerFrame, (∀ fullMsg, f ≠ .chatMessage fullMsg) → ∀ b ∈ f.blocks, b.chat = none := by
    intro f hf b hb
    cases f with
    | listRoomsResponse rooms =>
      rcases List.mem_cons.1 hb with rfl | hb
      · rfl
      · obtain ⟨room, -, rfl⟩ := List.mem_map.1 hb
        rfl
    | lobbyStateResponse hostId players =>
      rcases List.mem_cons.1 hb with rfl | hb
      · rfl
      · obtain ⟨p, -, rfl⟩ := List.mem_map.1 hb
        rfl
    | chatMessage fullMsg => exact absurd rfl (hf fullMsg)
    | connectResponse _ _ _ | createRoomResponse _ | joinRoomResponse _ | gameStartingNotification =>
      rw [List.mem_singleton.1 hb]
      rfl
  have hmoves := pc.moves_next r
  generalize pc.next r = pc' at hmoves ⊢
  intro b hb
  cases hmoves with
  | timed u serverTimeMs =>
    rw [List.mem_singleton.1 hb]
    rfl
  | joined u roomId success =>
    rw [List.mem_singleton.1 hb]
    rfl
  | listed u rooms hf => exact hnone (.listRoomsResponse rooms) (by simp) b (hf ▸ hb)
  | created u roomId hf => exact hnone (.createRoomResponse roomId) (by simp) b (hf ▸ hb)
  | starting u roomId hf => exact hnone .gameStartingNotification (by simp) b (hf ▸ hb)
  | answered u roomId hostId players hf => exact hnone (.lobbyStateResponse hostId players) (by simp) b (hf ▸ hb)
  | lobbyWrote | roomWrote => exact h b (List.mem_cons_of_mem _ hb)
  | _ => exact absurd hb List.not_mem_nil

end Pc

namespace TCPServer

/-! ## What is noted down -/

/-- A relay: whose thread it is, its recipients and its text. -/
structure Relay where
  thread : ℕ
  socks : List ℕ
  fullMsg : List UInt8

variable {H ε : Type*} {hd : ITCPHandler H} {ext : ε → H → H} {s s' : TCPServer H}

/-- The observer of the relays: one begins when its thread takes the mutex. -/
def noteRelay (log : List Relay) (s : TCPServer H) (l : Label ε) (_ : TCPServer H) : List Relay :=
  match l with
  | .thread t _ =>
    match s.pc t with
    | .chatLock u roomId fullMsg => log ++ [⟨t, s.recipients u.playerId roomId, fullMsg⟩]
    | _ => log
  | _ => log

/-- The texts of the relays to socket `k`. -/
def addressed (k : ℕ) (log : List Relay) : List (List UInt8) := (log.filter (k ∈ ·.socks)).map (·.fullMsg)

/-- The chats among some blocks. -/
def chatsIn (bs : List Block) : List (List UInt8) := bs.filterMap Block.chat

/-- What the relay in progress still owes to socket `k`. -/
def owed (s : TCPServer H) (k : ℕ) : List (List UInt8) := (s.serverMutex.map fun t => (s.pc t).owes k).getD []

theorem addressed_snoc (k : ℕ) (log : List Relay) (e : Relay) :
    addressed k (log ++ [e]) = addressed k log ++ if k ∈ e.socks then [e.fullMsg] else [] := by
  rw [addressed, List.filter_append, List.map_append]
  by_cases hk : k ∈ e.socks <;> simp [addressed, hk]

theorem chatsIn_snoc (bs : List Block) (b : Block) : chatsIn (bs ++ [b]) = chatsIn bs ++ b.chat.toList := by
  rw [chatsIn, List.filterMap_append]
  cases hb : b.chat <;> simp [chatsIn, hb]

/-- **The chats on the sockets, the relays so far, and the one in progress.** -/
structure Ordered (log : List Relay) (s : TCPServer H) : Prop where
  peers : ∃ k, Peers k s
  relays : Relays s
  opened : ∀ k, s.isOpen k = true → chatsIn (s.sent k) ++ s.owed k = addressed k log
  begun : ∀ k, chatsIn (s.sent k) <+: addressed k log
  holder : ∀ t, s.serverMutex = some t → (s.pc t).holds = true
  distinct : ∀ t u roomId fullMsg sock rest, s.pc t = .relaying u roomId fullMsg sock rest → (sock :: rest).Nodup
  plain : ∀ t, (s.pc t).Plain
  /-- A relay goes to other sessions, once each. -/
  proper : ∀ e ∈ log, e.socks.Nodup ∧ e.thread ∉ e.socks ∧ ∀ k ∈ e.socks, k < s.accepted
  unused : ∀ k, s.accepted ≤ k → s.sent k = []

/-- A thread that does not hold the mutex changes nothing that is owed. -/
theorem owed_update {t : ℕ} {pc' : Pc} (hm : s'.serverMutex = s.serverMutex) (hpc : s'.pc = Function.update s.pc t pc')
    (hne : ∀ t', s.serverMutex = some t' → t' ≠ t) (k : ℕ) : s'.owed k = s.owed k := by
  rw [owed, owed, hm]
  cases hmutex : s.serverMutex with
  | none => rfl
  | some t' => rw [Option.map_some, Option.map_some, hpc, Function.update_of_ne (hne t' hmutex)]

/-- What is open when a socket is closed was open before. -/
theorem open_of_closing {isOpen : ℕ → Bool} {sock k : ℕ} (h : Function.update isOpen sock false k = true) :
    isOpen k = true := by
  by_cases he : k = sock
  · rw [he, Function.update_self] at h
    cases h
  · rwa [Function.update_of_ne he] at h

/-- The sockets of an act that is no relay: chats neither come nor go. -/
theorem chatsIn_perform {t : ℕ} {env : Env} {pc : Pc} {r : pc.act.Result} {s₁ : TCPServer H} (hplain : pc.Plain)
    (hr : ∀ sock b, pc.act ≠ .relay sock b) (hp : s.perform hd t env pc.act = some (r, s₁)) :
    (∀ k, chatsIn (s₁.sent k) = chatsIn (s.sent k)) ∧ (∀ k, s₁.isOpen k = true → s.isOpen k = true) ∧
      ∀ k, k ≠ t → s₁.sent k = s.sent k := by
  rcases perform_sockets hp with ⟨b, ha, rfl⟩ | ⟨sock, b, ha, -⟩ | ⟨-, rfl⟩ | ⟨-, -, hsent, hopen⟩
  · have hb : b.chat = none := hplain b (pc.unfinished_of_write ha r ▸ List.mem_cons_self)
    cases hopen : s.isOpen t with
    | false =>
      rw [put_of_closed hopen]
      exact ⟨fun _ => rfl, fun _ h => h, fun _ _ => rfl⟩
    | true =>
      rw [put_of_open hopen]
      refine ⟨fun k => ?_, fun _ h => h, fun k hk => Function.update_of_ne hk _ _⟩
      by_cases hk : k = t
      · subst hk
        simp only [Function.update_self]
        rw [chatsIn_snoc, hb, Option.toList_none, List.append_nil]
      · simp only [Function.update_of_ne hk]
  · exact absurd ha (hr sock b)
  · exact ⟨fun _ => rfl, fun k => open_of_closing, fun _ _ => rfl⟩
  · exact ⟨fun k => by rw [hsent], fun k hk => hopen ▸ hk, fun k _ => by rw [hsent]⟩

section

variable {log : List Relay} {t : ℕ} {env : Env} {pc : Pc} {r : pc.act.Result} {s₁ : TCPServer H}

theorem Ordered.plain_step (h : Ordered log s) (hpc : s.pc t = pc) :
    ∀ t', (Function.update s.pc t (pc.next r) t').Plain := by
  intro t'
  by_cases ht : t' = t
  · subst ht
    rw [Function.update_self]
    exact Pc.plain_next (hpc ▸ h.plain t') r
  · rw [Function.update_of_ne ht]
    exact h.plain t'

/-- A relay is left with fewer sockets. -/
theorem Ordered.distinct_step (h : Ordered log s) (hpc : s.pc t = pc) (hp : s.perform hd t env pc.act = some (r, s₁)) :
    ∀ t' u roomId fullMsg sock rest, Function.update s.pc t (pc.next r) t' = .relaying u roomId fullMsg sock rest →
      (sock :: rest).Nodup := by
  intro t' u roomId fullMsg sock rest hrel
  by_cases ht : t' = t
  · subst ht
    rw [Function.update_self] at hrel
    by_cases hl : ∃ u roomId msg, pc = .chatLock u roomId msg
    · obtain ⟨u', roomId', msg, rfl⟩ := hl
      have hr : s.locked (s.recipients u'.playerId roomId', { s with serverMutex := some t' }) = some (r, s₁) := hp
      unfold locked at hr
      split at hr
      · obtain ⟨rfl, -⟩ := Prod.mk.inj (Option.some.inj hr)
        rw [← Pc.relayTo_eq_relaying hrel]
        exact nodup_recipients h.relays _ _
      · cases hr
    · obtain ⟨u', roomId', msg, sock', rfl⟩ :=
        Pc.next_eq_relaying (fun u roomId msg he => hl ⟨u, roomId, msg, he⟩) hrel
      exact (List.nodup_cons.1 (h.distinct t' _ _ _ _ _ hpc)).2
  · rw [Function.update_of_ne ht] at hrel
    exact h.distinct t' _ _ _ _ _ hrel

/-- A thread that has nothing to do with chats. -/
theorem Ordered.apart (h : Ordered log s) (hpeers : ∃ k, Peers k s') (hrelays : Relays s') (hpc : s.pc t = pc)
    (hp : s.perform hd t env pc.act = some (r, s₁)) (hs : s' = { s₁ with pc := Function.update s.pc t (pc.next r) })
    (hlock : ∀ u roomId msg, pc ≠ .chatLock u roomId msg) (hholds : pc.holds = false) : Ordered log s' := by
  have hacts : (∀ sock b, pc.act ≠ .relay sock b) ∧ mutexAfter t s.serverMutex pc.act = s.serverMutex := by
    cases pc with
    | chatLock u roomId msg => exact absurd rfl (hlock u roomId msg)
    | relaying _ _ _ _ _ | chatUnlock _ _ => cases hholds
    | _ => exact ⟨fun sock b => Act.noConfusion, rfl⟩
  have hpc' : s'.pc = Function.update s.pc t (pc.next r) := by rw [hs]
  have haccepted : s'.accepted = s.accepted := by rw [hs, ← (perform_frame hp).2.1]
  have hmutex : s'.serverMutex = s.serverMutex := by rw [hs, ← hacts.2, ← (perform_maps hp).2.2.2]
  obtain ⟨hchats, hopen, hsent⟩ : (∀ k, chatsIn (s'.sent k) = chatsIn (s.sent k)) ∧
      (∀ k, s'.isOpen k = true → s.isOpen k = true) ∧ ∀ k, k ≠ t → s'.sent k = s.sent k := by
    have hchats := chatsIn_perform (hpc ▸ h.plain t) hacts.1 hp
    rw [hs]
    exact hchats
  -- the mutex is in other hands
  have hother : ∀ t', s.serverMutex = some t' → t' ≠ t := by
    rintro t' hm rfl
    have hheld := h.holder t' hm
    rw [hpc, hholds] at hheld
    cases hheld
  obtain ⟨kp, hkp⟩ := h.peers
  refine ⟨hpeers, hrelays, fun k hk => ?_, fun k => ?_, fun t' hm => ?_, ?_, ?_, ?_, fun k hk => ?_⟩
  · rw [owed_update hmutex hpc' hother, hchats k]
    exact h.opened k (hopen k hk)
  · rw [hchats k]
    exact h.begun k
  · rw [hmutex] at hm
    rw [hpc', Function.update_of_ne (hother t' hm)]
    exact h.holder t' hm
  · rw [hpc']
    exact h.distinct_step hpc hp
  · rw [hpc']
    exact h.plain_step hpc
  · rw [haccepted]
    exact h.proper
  · rw [haccepted] at hk
    have hdone : pc ≠ .done := by
      rintro rfl
      cases hp
    have hne : k ≠ t := Nat.ne_of_gt (lt_of_lt_of_le (hkp.lt_accepted hpc hdone) hk)
    exact (hsent k hne).trans (h.unused k hk)

/-- A thread in a room was accepted. -/
theorem Ordered.lt_of_rank (h : Ordered log s) {k : ℕ} (h4 : (s.pc k).rank = 4) : k < s.accepted := by
  obtain ⟨kp, hkp⟩ := h.peers
  refine hkp.lt_accepted rfl fun hdone => ?_
  rw [hdone] at h4
  cases h4

/-- A relay begins: it is owed to all its recipients. -/
theorem Ordered.lock {u : Peer} {roomId : ℤ} {fullMsg : List UInt8} {socks : List ℕ} (h : Ordered log s)
    (hpeers : ∃ k, Peers k s') (hrelays : Relays s') (hpc : s.pc t = .chatLock u roomId fullMsg)
    (hp : s.perform hd t env (Pc.chatLock u roomId fullMsg).act = some (socks, s₁))
    (hs : s' = { s₁ with pc := Function.update s.pc t (Pc.relayTo u roomId fullMsg socks) }) :
    Ordered (log ++ [⟨t, s.recipients u.playerId roomId, fullMsg⟩]) s' := by
  have hfree : s.serverMutex = none := (perform_maps hp).1 rfl
  have hlocked : some (s.recipients u.playerId roomId, { s with serverMutex := some t }) = some (socks, s₁) :=
    (if_pos hfree).symm.trans hp
  obtain ⟨hsocks, rfl⟩ := Prod.mk.inj (Option.some.inj hlocked)
  have howed : ∀ k, s.owed k = [] := fun k => by rw [owed, hfree]; rfl
  have howed' : ∀ k, s'.owed k = if k ∈ socks then [fullMsg] else [] := by
    intro k
    rw [← Pc.owes_relayTo k u roomId fullMsg socks, hs, owed, Option.map_some, Option.getD_some]
    simp only [Function.update_self]
  refine ⟨hpeers, hrelays, fun k hk => ?_, fun k => ?_, fun t' hm => ?_, ?_, ?_, fun e he => ?_, ?_⟩
  · have hold := h.opened k (by rw [hs] at hk; exact hk)
    rw [howed, List.append_nil] at hold
    rw [howed', addressed_snoc, ← hold, hs, hsocks]
  · rw [addressed_snoc, hs]
    exact (h.begun k).trans (List.prefix_append _ _)
  · rw [hs] at hm
    obtain rfl := Option.some.inj hm
    rw [hs]
    simp only [Function.update_self]
    cases socks with
    | nil => rfl
    | cons sock rest => rfl
  · have hdistinct := h.distinct_step hpc hp
    rw [hs]
    exact hdistinct
  · have hplain := h.plain_step (r := socks) hpc
    rw [hs]
    exact hplain
  · rw [hs]
    rcases List.mem_append.1 he with hold | hnew
    · exact h.proper e hold
    · obtain ⟨kp, hkp⟩ := h.peers
      rw [List.mem_singleton.1 hnew]
      refine ⟨nodup_recipients h.relays _ _, fun hself => ?_, fun k hk => ?_⟩
      · have hother := (mem_recipients_iff hkp h.relays (t := t) (by rw [hpc]; rfl)).1 hself
        exact hother.1 rfl
      · exact h.lt_of_rank (h.relays.recipients hk)
  · rw [hs]
    exact h.unused

/-- One socket of a relay. -/
theorem Ordered.relay {u : Peer} {roomId : ℤ} {fullMsg : List UInt8} {sock : ℕ} {rest : List ℕ} (h : Ordered log s)
    (hpeers : ∃ k, Peers k s') (hrelays : Relays s') (hpc : s.pc t = .relaying u roomId fullMsg sock rest)
    (hp : s.perform hd t env (Pc.relaying u roomId fullMsg sock rest).act = some ((), s.put sock (.chatMessage fullMsg)))
    (hs : s' = { s.put sock (.chatMessage fullMsg) with
      pc := Function.update s.pc t (Pc.relayTo u roomId fullMsg rest) }) : Ordered log s' := by
  obtain ⟨hopen₀, hmutex₀, haccepted₀⟩ := put_frame s sock (.chatMessage fullMsg)
  have hmutex : s.serverMutex = some t := h.relays.holding t (by rw [hpc]; rfl)
  have hmutex' : s'.serverMutex = some t := by rw [hs, ← hmutex, ← hmutex₀]
  have hopen : s'.isOpen = s.isOpen := by rw [hs, ← hopen₀]
  have haccepted : s'.accepted = s.accepted := by rw [hs, ← haccepted₀]
  have hpc' : s'.pc = Function.update s.pc t (Pc.relayTo u roomId fullMsg rest) := by rw [hs]
  have hnew : sock ∉ rest := (List.nodup_cons.1 (h.distinct t _ _ _ _ _ hpc)).1
  have howed : ∀ k, s.owed k = if k ∈ sock :: rest then [fullMsg] else [] := by
    intro k
    rw [owed, hmutex, Option.map_some, Option.getD_some, hpc]
    rfl
  have howed' : ∀ k, s'.owed k = if k ∈ rest then [fullMsg] else [] := by
    intro k
    rw [← Pc.owes_relayTo k u roomId fullMsg rest, owed, hmutex', Option.map_some, Option.getD_some, hpc',
      Function.update_self]
  have hsent : ∀ k, s'.sent k =
      if k = sock ∧ s.isOpen sock = true then s.sent sock ++ [.chatMessage fullMsg] else s.sent k := by
    intro k
    rw [hs]
    by_cases hk : k = sock
    · subst hk
      simp only [(put_sent s k (.chatMessage fullMsg)).2, true_and]
    · rw [if_neg fun hc => hk hc.1, ← (put_other (s := s) (Ne.symm hk) (.chatMessage fullMsg)).2]
  have hopened : ∀ k, s'.isOpen k = true → chatsIn (s'.sent k) ++ s'.owed k = addressed k log := by
    intro k hk
    rw [hopen] at hk
    rw [← h.opened k hk, howed, howed', hsent]
    by_cases he : k = sock
    · subst he
      rw [if_pos ⟨rfl, hk⟩, if_neg hnew, if_pos List.mem_cons_self, chatsIn_snoc, List.append_nil]
      rfl
    · have hmem : k ∈ sock :: rest ↔ k ∈ rest := by rw [List.mem_cons, or_iff_right he]
      rw [if_neg fun hc => he hc.1]
      simp only [hmem]
  refine ⟨hpeers, hrelays, hopened, fun k => ?_, fun t' hm => ?_, ?_, ?_, ?_, fun k hk => ?_⟩
  · by_cases hc : k = sock ∧ s.isOpen sock = true
    · obtain ⟨rfl, ho⟩ := hc
      exact ⟨_, hopened k (hopen ▸ ho)⟩
    · rw [hsent, if_neg hc]
      exact h.begun k
  · rw [hmutex'] at hm
    obtain rfl := Option.some.inj hm
    rw [hpc', Function.update_self]
    cases rest with
    | nil => rfl
    | cons x rest => rfl
  · have hdistinct := h.distinct_step hpc hp
    rw [hpc']
    exact hdistinct
  · have hplain := h.plain_step (r := ()) hpc
    rw [hpc']
    exact hplain
  · rw [haccepted]
    exact h.proper
  · rw [haccepted] at hk
    have hne : k ≠ sock := Nat.ne_of_gt (lt_of_lt_of_le (h.lt_of_rank (h.relays.targets t _ _ _ _ _ hpc sock
      List.mem_cons_self)) hk)
    rw [hsent, if_neg fun hc => hne hc.1]
    exact h.unused k hk

/-- The end of a relay. -/
theorem Ordered.unlock {u : Peer} {roomId : ℤ} (h : Ordered log s) (hpeers : ∃ k, Peers k s') (hrelays : Relays s')
    (hpc : s.pc t = .chatUnlock u roomId)
    (hs : s' = { s with serverMutex := none, pc := Function.update s.pc t (.inRoom u roomId) }) : Ordered log s' := by
  have hmutex : s.serverMutex = some t := h.relays.holding t (by rw [hpc]; rfl)
  have howed : ∀ k, s.owed k = [] := by
    intro k
    rw [owed, hmutex, Option.map_some, Option.getD_some, hpc]
    rfl
  refine ⟨hpeers, hrelays, fun k hk => ?_, fun k => ?_, fun t' hm => ?_, fun t' => ?_, ?_, ?_, ?_⟩
  · have hold := h.opened k (by rw [hs] at hk; exact hk)
    rw [howed] at hold
    rw [hs]
    exact hold
  · rw [hs]
    exact h.begun k
  · rw [hs] at hm
    cases hm
  · rw [hs]
    simp only [Function.update_apply]
    split
    · exact fun _ _ _ _ _ hrel => Pc.noConfusion hrel
    · exact h.distinct t'
  · have hplain := h.plain_step (r := ()) hpc
    rw [hs]
    exact hplain
  · rw [hs]
    exact h.proper
  · rw [hs]
    exact h.unused

/-- A socket is closed. -/
theorem Ordered.close (h : Ordered log s) (hpeers : ∃ k, Peers k s') (hrelays : Relays s') {open' : ℕ → Bool}
    (hs : s' = { s with isOpen := open' }) (hopen : ∀ k, open' k = true → s.isOpen k = true) : Ordered log s' := by
  subst hs
  exact ⟨hpeers, hrelays, fun k hk => h.opened k (hopen k hk), h.begun, h.holder, h.distinct, h.plain, h.proper, h.unused⟩

/-- A new connection. -/
theorem Ordered.accept (h : Ordered log s) (hpeers : ∃ k, Peers k s') (hrelays : Relays s')
    (hs : s' = { s with
      accepted := s.accepted + 1
      pc := Function.update s.pc s.accepted .handshake
      isOpen := Function.update s.isOpen s.accepted true }) : Ordered log s' := by
  have hholder : ∀ t', s.serverMutex = some t' → t' < s.accepted := by
    intro t' hm
    obtain ⟨kp, hkp⟩ := h.peers
    refine hkp.lt_accepted rfl fun hdone => ?_
    have hheld := h.holder t' hm
    rw [hdone] at hheld
    cases hheld
  have howed : ∀ k, s'.owed k = s.owed k := fun k =>
    owed_update (by rw [hs]) (by rw [hs]) (fun t' hm => Nat.ne_of_lt (hholder t' hm)) k
  -- nobody has relayed anything to the new socket
  have hnew : addressed s.accepted log = [] := by
    rw [addressed, List.map_eq_nil_iff, List.filter_eq_nil_iff]
    intro e he hk
    exact absurd ((h.proper e he).2.2 _ (by simpa using hk)) (Nat.lt_irrefl _)
  have hnone : s.owed s.accepted = [] := by
    rw [owed]
    cases hm : s.serverMutex with
    | none => rfl
    | some t' =>
      rw [Option.map_some, Option.getD_some]
      cases hpc : s.pc t' with
      | relaying u roomId fullMsg sock rest =>
        refine if_neg fun hmem => ?_
        exact absurd (h.lt_of_rank (h.relays.targets t' _ _ _ _ _ hpc _ hmem)) (Nat.lt_irrefl _)
      | _ => rfl
  refine ⟨hpeers, hrelays, fun k hk => ?_, fun k => ?_, fun t' hm => ?_, fun t' => ?_, fun t' => ?_, fun e he => ?_,
    fun k hk => ?_⟩
  · rw [howed]
    rw [hs] at hk ⊢
    by_cases he : k = s.accepted
    · rw [he, hnew, hnone, List.append_nil]
      show chatsIn (s.sent s.accepted) = []
      rw [h.unused _ (Nat.le_refl _)]
      rfl
    · simp only [Function.update_of_ne he] at hk
      exact h.opened k hk
  · rw [hs]
    exact h.begun k
  · rw [hs] at hm ⊢
    simp only [Function.update_of_ne (Nat.ne_of_lt (hholder t' hm))]
    exact h.holder t' hm
  · rw [hs]
    simp only [Function.update_apply]
    split
    · exact fun _ _ _ _ _ hrel => Pc.noConfusion hrel
    · exact h.distinct t'
  · rw [hs]
    simp only [Function.update_apply]
    split
    · exact fun b hb => absurd hb List.not_mem_nil
    · exact h.plain t'
  · obtain ⟨hnodup, hself, hlt⟩ := h.proper e he
    rw [hs]
    exact ⟨hnodup, hself, fun k hk => Nat.lt_succ_of_lt (hlt k hk)⟩
  · rw [hs] at hk ⊢
    exact h.unused k (Nat.le_of_succ_le hk)

end

/-! ## Runs -/

/-- **Every step keeps the chats in order.** -/
theorem ordered_step {log : List Relay} {l : Label ε} (h : Ordered log s) (hlt : s.accepted < 2 ^ 32)
    (hs : (machine hd ext).step s l = some s') : Ordered (noteRelay log s l s') s' := by
  obtain ⟨k, hk⟩ := h.peers
  obtain ⟨k', -, hk'⟩ := peers_step hk hs hlt
  have hpeers : ∃ k, Peers k s' := ⟨k', hk'⟩
  have hrelays := relays_step hk h.relays hs
  rcases step_cases hs with ⟨rfl, hs'⟩ | ⟨t, env, pc, r, s₁, rfl, hpc, hp, hs'⟩ | ⟨playerId, rfl, -, hs'⟩ |
    ⟨sock, rfl, hs'⟩ | ⟨e, rfl, hs'⟩
  · exact h.accept hpeers hrelays hs'
  · rw [(perform_frame hp).1] at hs'
    simp only [noteRelay, hpc]
    cases pc with
    | chatLock u roomId fullMsg => exact h.lock hpeers hrelays hpc hp hs'
    | relaying u roomId fullMsg sock rest =>
      obtain ⟨-, rfl⟩ := Prod.mk.inj (Option.some.inj hp)
      exact h.relay hpeers hrelays hpc hp hs'
    | chatUnlock u roomId =>
      obtain ⟨-, rfl⟩ := Prod.mk.inj (Option.some.inj hp)
      exact h.unlock hpeers hrelays hpc hs'
    | _ => exact h.apart hpeers hrelays hpc hp hs' (fun _ _ _ => Pc.noConfusion) rfl
  · refine h.close hpeers hrelays (hs'.trans (s.kickPlayer_eq playerId)) fun k hopen => ?_
    unfold kickPlayer at hopen
    split at hopen
    · exact open_of_closing hopen
    · exact hopen
  · exact h.close hpeers hrelays hs' fun k => open_of_closing
  · subst hs'
    exact ⟨hpeers, hrelays, h.opened, h.begun, h.holder, h.distinct, h.plain, h.proper, h.unused⟩

theorem ordered_init (h : H) : Ordered [] (init h) where
  peers := ⟨0, peers_init h⟩
  relays := relays_init h
  opened := fun _ ho => nomatch ho
  begun := fun _ => List.nil_prefix
  holder := fun _ hm => nomatch hm
  distinct := fun _ _ _ _ _ _ hrel => nomatch hrel
  plain := fun _ _ hb => absurd hb List.not_mem_nil
  proper := fun _ he => absurd he List.not_mem_nil
  unused := fun _ _ => rfl

/-- **Chats in one order**: with fewer than `2 ^ 32` connections, the chats on a socket are the
relays addressed to it, in the order in which the relays took the mutex; they are all of them
if the socket is open and no relay is in progress. A relay is addressed to other sessions, to
each once. -/
theorem chats_ordered (hd : ITCPHandler H) (ext : ε → H → H) (h : H) (labels : List (Label ε)) {s : TCPServer H}
    (hfew : (machine hd ext).Along (fun s _ => s.accepted < 2 ^ 32) (init h) labels)
    (hr : (machine hd ext).run (init h) labels = some s) :
    (∀ k, chatsIn (s.sent k) <+: addressed k ((machine hd ext).observe noteRelay [] (init h) labels) ∧
      (s.isOpen k = true → s.serverMutex = none →
        chatsIn (s.sent k) = addressed k ((machine hd ext).observe noteRelay [] (init h) labels))) ∧
      ∀ e ∈ (machine hd ext).observe noteRelay [] (init h) labels, e.socks.Nodup ∧ e.thread ∉ e.socks := by
  have hordered := Machine.inv_observe_along (M := machine hd ext) (C := fun s _ => s.accepted < 2 ^ 32) (J := Ordered)
    (fun _ _ _ _ h hC hs => ordered_step h hC hs) labels _ _ s (ordered_init h) hfew hr
  refine ⟨fun k => ⟨hordered.begun k, fun hopen hfree => ?_⟩, fun e he => ?_⟩
  · have hall := hordered.opened k hopen
    rwa [owed, hfree, Option.map_none, Option.getD_none, List.append_nil] at hall
  · obtain ⟨hnodup, hself, -⟩ := hordered.proper e he
    exact ⟨hnodup, hself⟩

theorem chats_ordered_chattedRun : ∃ s : TCPServer (ServerManager Float32),
    rooms.run (init ServerManager.init) chattedRun = some s ∧ chatsIn (s.sent 1) = [[65, 58, 32, 72, 105]] ∧
      ∀ k, chatsIn (s.sent k) <+:
        addressed k ((rooms (F := Float32)).observe noteRelay [] (init ServerManager.init) chattedRun) := by
  obtain ⟨s, hrun, hchat⟩ : ∃ s : TCPServer (ServerManager Float32),
      rooms.run (init ServerManager.init) chattedRun = some s ∧ chatsIn (s.sent 1) = [[65, 58, 32, 72, 105]] :=
    ⟨_, rfl, rfl⟩
  have hordered := chats_ordered ServerManager.handler ServerManager.react ServerManager.init chattedRun
    (by decide +kernel) hrun
  exact ⟨s, hrun, hchat, fun k => (hordered.1 k).1⟩

end TCPServer

end RType

import Mathlib.Algebra.BigOperators.Group.Finset.Basic
import RType.Spec.TCPServer

/-!
# Player ids of the connections

* `Pc.moves_next`: where a thread stands after its act.
* `TCPServer.step_cases`: the kinds of steps of the server.
* `peers_step`: as long as fewer than `2 ^ 32` connections were accepted, the ids handed out
  are `1` to `k` for some `k`, and no two threads have the same one.
-/

namespace RType

open Lts

/-- The player of a thread, from the registration on. -/
def Pc.peer : Pc → Option Peer
  | handshake | takePlayerId _ | close | done => none
  | register u | connectTime u | connectOk u _ | lobby u | listRooms u | createRoom u | joinRead u
  | join u _ | lobbyWrites u _ _ | joinReply u _ _ | enterRoom u _ | inRoom u _ | startGame u _
  | askStarting u _ | askLobby u _ | roomWrites u _ _ _ | chatLength u _ | chatBody u _ _
  | chatSender u _ _ | chatLock u _ _ | relaying u _ _ _ _ | chatUnlock u _ | disconnect u _
  | leaveRoom u | unregister u => some u

/-- How far a thread has come: 0 without an id, 1 with one, 2 registered, 3 let into a
room, 4 in it, 5 out of it, 6 at its end. -/
def Pc.rank : Pc → ℕ
  | handshake | takePlayerId _ => 0
  | register _ => 1
  | connectTime _ | connectOk _ _ | lobby _ | listRooms _ | createRoom _ | joinRead _ | join _ _
  | lobbyWrites _ _ _ => 2
  | joinReply _ _ success => if success then 3 else 2
  | enterRoom _ _ => 3
  | inRoom _ _ | startGame _ _ | askStarting _ _ | askLobby _ _ | roomWrites _ _ _ _ | chatLength _ _
  | chatBody _ _ _ | chatSender _ _ _ | chatLock _ _ _ | relaying _ _ _ _ _ | chatUnlock _ _
  | disconnect _ _ | leaveRoom _ => 4
  | unregister _ => 5
  | close | done => 6

/-- Where a thread may stand after its act, whatever the act gives. The replies of the two loops
are written block by block. -/
inductive Pc.Moves : Pc → Pc → Prop
  | refused : Moves handshake close
  | greeted (username : List UInt8) : Moves handshake (takePlayerId username)
  | named (username : List UInt8) (playerId : UInt32) : Moves (takePlayerId username) (register ⟨playerId, username⟩)
  | registered (u : Peer) : Moves (register u) (connectTime u)
  | timed (u : Peer) (serverTimeMs : UInt32) : Moves (connectTime u) (connectOk u serverTimeMs)
  | failed (u : Peer) (serverTimeMs : UInt32) : Moves (connectOk u serverTimeMs) done
  | welcomed (u : Peer) (serverTimeMs : UInt32) : Moves (connectOk u serverTimeMs) (lobby u)
  | lobbyEnds (u : Peer) : Moves (lobby u) (unregister u)
  | lobbyIgnores (u : Peer) : Moves (lobby u) (lobby u)
  | lists (u : Peer) : Moves (lobby u) (listRooms u)
  | creates (u : Peer) : Moves (lobby u) (createRoom u)
  | joins (u : Peer) : Moves (lobby u) (joinRead u)
  | listed (u : Peer) (rooms : List RoomSimpleInfo) {b : Block} {rest : List Block}
      (hf : (ServerFrame.listRoomsResponse rooms).blocks = b :: rest) : Moves (listRooms u) (lobbyWrites u b rest)
  | created (u : Peer) (roomId : ℤ) {b : Block} {rest : List Block}
      (hf : (ServerFrame.createRoomResponse roomId).blocks = b :: rest) : Moves (createRoom u) (lobbyWrites u b rest)
  | lobbyWrote (u : Peer) (b b' : Block) (rest : List Block) : Moves (lobbyWrites u b (b' :: rest)) (lobbyWrites u b' rest)
  | lobbyReplied (u : Peer) (b : Block) : Moves (lobbyWrites u b []) (lobby u)
  | chosen (u : Peer) (roomId : ℤ) : Moves (joinRead u) (join u roomId)
  | joined (u : Peer) (roomId : ℤ) (success : Bool) : Moves (join u roomId) (joinReply u roomId success)
  | turnedAway (u : Peer) (roomId : ℤ) : Moves (joinReply u roomId false) (lobby u)
  | letIn (u : Peer) (roomId : ℤ) : Moves (joinReply u roomId true) (enterRoom u roomId)
  | entered (u : Peer) (roomId : ℤ) : Moves (enterRoom u roomId) (inRoom u roomId)
  | roomEnds (u : Peer) (roomId : ℤ) : Moves (inRoom u roomId) (disconnect u roomId)
  | roomIgnores (u : Peer) (roomId : ℤ) : Moves (inRoom u roomId) (inRoom u roomId)
  | starts (u : Peer) (roomId : ℤ) : Moves (inRoom u roomId) (startGame u roomId)
  | asks (u : Peer) (roomId : ℤ) : Moves (inRoom u roomId) (askStarting u roomId)
  | chats (u : Peer) (roomId : ℤ) : Moves (inRoom u roomId) (chatLength u roomId)
  | started (u : Peer) (roomId : ℤ) : Moves (startGame u roomId) (inRoom u roomId)
  | starting (u : Peer) (roomId : ℤ) {b : Block} {rest : List Block}
      (hf : ServerFrame.gameStartingNotification.blocks = b :: rest) :
      Moves (askStarting u roomId) (roomWrites u roomId b rest)
  | notStarting (u : Peer) (roomId : ℤ) : Moves (askStarting u roomId) (askLobby u roomId)
  | answered (u : Peer) (roomId : ℤ) (hostId : UInt32) (players : List (UInt32 × List UInt8)) {b : Block}
      {rest : List Block} (hf : (ServerFrame.lobbyStateResponse hostId players).blocks = b :: rest) :
      Moves (askLobby u roomId) (roomWrites u roomId b rest)
  | roomWrote (u : Peer) (roomId : ℤ) (b b' : Block) (rest : List Block) :
      Moves (roomWrites u roomId b (b' :: rest)) (roomWrites u roomId b' rest)
  | roomReplied (u : Peer) (roomId : ℤ) (b : Block) : Moves (roomWrites u roomId b []) (inRoom u roomId)
  | sized (u : Peer) (roomId : ℤ) (length : UInt16) : Moves (chatLength u roomId) (chatBody u roomId length)
  | unsized (u : Peer) (roomId : ℤ) : Moves (chatLength u roomId) (inRoom u roomId)
  | said (u : Peer) (roomId : ℤ) (length : UInt16) (msg : List UInt8) :
      Moves (chatBody u roomId length) (chatSender u roomId msg)
  | unsaid (u : Peer) (roomId : ℤ) (length : UInt16) : Moves (chatBody u roomId length) (inRoom u roomId)
  | signed (u : Peer) (roomId : ℤ) (msg fullMsg : List UInt8) : Moves (chatSender u roomId msg) (chatLock u roomId fullMsg)
  | relays (u : Peer) (roomId : ℤ) (fullMsg : List UInt8) (sock : ℕ) (rest : List ℕ) :
      Moves (chatLock u roomId fullMsg) (relaying u roomId fullMsg sock rest)
  | relaysNone (u : Peer) (roomId : ℤ) (fullMsg : List UInt8) : Moves (chatLock u roomId fullMsg) (chatUnlock u roomId)
  | relayed (u : Peer) (roomId : ℤ) (fullMsg : List UInt8) (sock sock' : ℕ) (rest : List ℕ) :
      Moves (relaying u roomId fullMsg sock (sock' :: rest)) (relaying u roomId fullMsg sock' rest)
  | relayedAll (u : Peer) (roomId : ℤ) (fullMsg : List UInt8) (sock : ℕ) :
      Moves (relaying u roomId fullMsg sock []) (chatUnlock u roomId)
  | unlocked (u : Peer) (roomId : ℤ) : Moves (chatUnlock u roomId) (inRoom u roomId)
  | disconnected (u : Peer) (roomId : ℤ) : Moves (disconnect u roomId) (leaveRoom u)
  | left (u : Peer) : Moves (leaveRoom u) (unregister u)
  | unregistered (u : Peer) : Moves (unregister u) close
  | closed : Moves close done
  | idle : Moves done done

/-- **Where a thread stands after its act.** -/
theorem Pc.moves_next (pc : Pc) (r : pc.act.Result) : pc.Moves (pc.next r) := by
  cases pc with
  | handshake =>
    simp only [next]
    split
    · exact .refused
    · exact .greeted _
  | takePlayerId username => exact .named username _
  | register u => exact .registered u
  | connectTime u => exact .timed u _
  | connectOk u serverTimeMs =>
    simp only [next]
    split
    · exact .failed u serverTimeMs
    · exact .welcomed u serverTimeMs
  | lobby u =>
    simp only [next]
    split
    · unfold lobbySwitch
      split
      · exact .lists u
      split
      · exact .creates u
      split
      · exact .joins u
      · exact .lobbyIgnores u
    · exact .lobbyEnds u
  | listRooms u => exact .listed u r rfl
  | createRoom u => exact .created u r rfl
  | joinRead u => exact .chosen u _
  | join u roomId => exact .joined u roomId _
  | lobbyWrites u b rest =>
    cases rest with
    | nil => exact .lobbyReplied u b
    | cons b' rest => exact .lobbyWrote u b b' rest
  | joinReply u roomId success =>
    cases success with
    | false => exact .turnedAway u roomId
    | true => exact .letIn u roomId
  | enterRoom u roomId => exact .entered u roomId
  | inRoom u roomId =>
    simp only [next]
    split
    · unfold roomSwitch
      split
      · exact .starts u roomId
      split
      · exact .asks u roomId
      split
      · exact .chats u roomId
      · exact .roomIgnores u roomId
    · exact .roomEnds u roomId
  | startGame u roomId => exact .started u roomId
  | askStarting u roomId =>
    simp only [next]
    split
    · exact .starting u roomId rfl
    · exact .notStarting u roomId
  | askLobby u roomId =>
    obtain ⟨hostId, players⟩ : UInt32 × List (UInt32 × List UInt8) := r
    exact .answered u roomId hostId players rfl
  | roomWrites u roomId b rest =>
    cases rest with
    | nil => exact .roomReplied u roomId b
    | cons b' rest => exact .roomWrote u roomId b b' rest
  | chatLength u roomId =>
    simp only [next]
    split
    · exact .sized u roomId _
    · exact .unsized u roomId
  | chatBody u roomId length =>
    simp only [next]
    split
    · exact .said u roomId length _
    · exact .unsaid u roomId length
  | chatSender u roomId msg => exact .signed u roomId msg _
  | chatLock u roomId fullMsg =>
    cases r with
    | nil => exact .relaysNone u roomId fullMsg
    | cons sock rest => exact .relays u roomId fullMsg sock rest
  | relaying u roomId fullMsg sock rest =>
    cases rest with
    | nil => exact .relayedAll u roomId fullMsg sock
    | cons sock' rest => exact .relayed u roomId fullMsg sock sock' rest
  | chatUnlock u roomId => exact .unlocked u roomId
  | disconnect u roomId => exact .disconnected u roomId
  | leaveRoom u => exact .left u
  | unregister u => exact .unregistered u
  | close => exact .closed
  | done => exact .idle

/-- A thread keeps its player, or gives it up at its end. -/
theorem Pc.next_peer (pc : Pc) (h : ∀ username, pc ≠ .takePlayerId username) (r : pc.act.Result) :
    (pc.next r).peer = pc.peer ∨ (pc.next r).peer = none := by
  have hmoves := pc.moves_next r
  generalize pc.next r = pc' at hmoves ⊢
  cases hmoves with
  | named username _ => exact absurd rfl (h username)
  | refused | greeted | failed | unregistered => exact .inr rfl
  | _ => exact .inl rfl

/-- A thread never goes back. -/
theorem Pc.rank_next (pc : Pc) (r : pc.act.Result) : pc.rank ≤ (pc.next r).rank := by
  have hmoves := pc.moves_next r
  generalize pc.next r = pc' at hmoves ⊢
  cases hmoves with
  | joined u roomId success => cases success <;> simp [rank]
  | _ => simp [rank]

namespace TCPServer

variable {H ε : Type*} {hd : ITCPHandler H} {ext : ε → H → H} {s s' : TCPServer H}

/-- What an act leaves alone. -/
theorem perform_frame {t : ℕ} {env : Env} {a : Act} {r : a.Result} {s₁ : TCPServer H}
    (h : s.perform hd t env a = some (r, s₁)) :
    s₁.pc = s.pc ∧ s₁.accepted = s.accepted ∧ (a ≠ .takePlayerId → s₁.nextPlayerId = s.nextPlayerId) ∧
      ((∀ c, a ≠ .call c) → s₁.handler = s.handler) := by
  cases a <;> simp only [perform, locked, put] at h <;> (try split_ifs at h) <;>
    simp only [Option.some.injEq, Prod.mk.injEq, reduceCtorEq] at h <;> obtain ⟨-, rfl⟩ := h <;> simp

/-- **The kinds of steps of the server.** -/
theorem step_cases {l : Label ε} (h : (machine hd ext).step s l = some s') :
    (l = .accept ∧ s' = { s with
      accepted := s.accepted + 1
      pc := Function.update s.pc s.accepted .handshake
      isOpen := Function.update s.isOpen s.accepted true }) ∨
    (∃ t env pc r s₁, l = .thread t env ∧ s.pc t = pc ∧ s.perform hd t env pc.act = some (r, s₁) ∧
      s' = { s₁ with pc := Function.update s₁.pc t (pc.next r) }) ∨
    (∃ playerId, l = .kick playerId ∧ s.serverMutex = none ∧ s' = s.kickPlayer playerId) ∨
    (∃ sock, l = .reset sock ∧ s' = { s with isOpen := Function.update s.isOpen sock false }) ∨
    (∃ e, l = .other e ∧ s' = { s with handler := ext e s.handler }) := by
  cases l with
  | accept => exact .inl ⟨rfl, (Option.some.inj h).symm⟩
  | thread t env =>
    obtain ⟨⟨r, s₁⟩, hp, hs⟩ := Option.map_eq_some_iff.1 h
    exact .inr (.inl ⟨t, env, s.pc t, r, s₁, rfl, rfl, hp, hs.symm⟩)
  | kick playerId =>
    simp only [machine, step, locked] at h
    split at h
    · rename_i hm
      exact .inr (.inr (.inl ⟨playerId, rfl, hm, (Option.some.inj h).symm⟩))
    · cases h
  | reset sock => exact .inr (.inr (.inr (.inl ⟨sock, rfl, (Option.some.inj h).symm⟩)))
  | other e => exact .inr (.inr (.inr (.inr ⟨e, rfl, (Option.some.inj h).symm⟩)))

/-- A step of a thread, from what its act does. -/
theorem step_of_perform {s₁ : TCPServer H} {t : ℕ} {env : Env} (pc : Pc) (r : pc.act.Result) (hpc : s.pc t = pc)
    (hp : s.perform hd t env pc.act = some (r, s₁)) :
    (machine hd ext).step s (.thread t env) = some { s₁ with pc := Function.update s₁.pc t (pc.next r) } := by
  subst hpc
  exact congrArg (Option.map _) hp

/-- Closing a player's socket changes no other field. -/
theorem kickPlayer_eq (s : TCPServer H) (playerId : UInt32) :
    s.kickPlayer playerId = { s with isOpen := (s.kickPlayer playerId).isOpen } := by
  unfold kickPlayer
  split <;> rfl

/-- Threads that have no id yet. -/
def waiting (s : TCPServer H) : ℕ :=
  ∑ t ∈ Finset.range s.accepted, if (s.pc t).rank = 0 then 1 else 0

/-- The ids handed out are `1` to `k`, each to one thread. -/
structure Peers (k : ℕ) (s : TCPServer H) : Prop where
  next : s.nextPlayerId = UInt32.ofNat (k + 1)
  count : k + s.waiting ≤ s.accepted
  later : ∀ t, s.accepted ≤ t → s.pc t = .done
  range : ∀ t u, (s.pc t).peer = some u → 1 ≤ u.playerId.toNat ∧ u.playerId.toNat ≤ k
  distinct : ∀ t t' u u', (s.pc t).peer = some u → (s.pc t').peer = some u' → u.playerId = u'.playerId → t = t'

theorem waiting_update {n t : ℕ} (ht : t < n) (pc : ℕ → Pc) (pc' : Pc) :
    (∑ i ∈ Finset.range n, if (Function.update pc t pc' i).rank = 0 then 1 else 0) + (if (pc t).rank = 0 then 1 else 0) =
      (∑ i ∈ Finset.range n, if (pc i).rank = 0 then 1 else 0) + (if pc'.rank = 0 then 1 else 0) := by
  have hmem : t ∈ Finset.range n := Finset.mem_range.2 ht
  have hrest : ∀ i ∈ (Finset.range n).erase t, (if (Function.update pc t pc' i).rank = 0 then 1 else 0) =
      if (pc i).rank = 0 then 1 else 0 := by
    intro i hi
    rw [Function.update_of_ne (Finset.ne_of_mem_erase hi)]
  rw [← Finset.add_sum_erase _ _ hmem, ← Finset.add_sum_erase _ (fun i => if (pc i).rank = 0 then 1 else 0) hmem,
    Finset.sum_congr rfl hrest, Function.update_self]
  omega

/-- Steps that change neither the threads nor the ids. -/
theorem Peers.of_eq {k : ℕ} (h : Peers k s) (hn : s'.nextPlayerId = s.nextPlayerId)
    (ha : s'.accepted = s.accepted) (hpc : s'.pc = s.pc) : Peers k s' := by
  refine ⟨hn.trans h.next, ?_, ?_, ?_, ?_⟩
  · rw [waiting, ha, hpc]; exact h.count
  · rw [ha, hpc]; exact h.later
  · rw [hpc]; exact h.range
  · rw [hpc]; exact h.distinct

/-- A thread that takes a step was accepted. -/
theorem Peers.lt_accepted {k t : ℕ} {pc : Pc} (h : Peers k s) (hpc : s.pc t = pc) (hd : pc ≠ .done) :
    t < s.accepted := by
  by_contra hge
  exact hd (hpc.symm.trans (h.later t (Nat.le_of_not_lt hge)))

/-- A thread that keeps or loses its player and moves on. -/
theorem Peers.move {k t : ℕ} {pc' : Pc} (h : Peers k s) (ht : t < s.accepted)
    (hpeer : pc'.peer = (s.pc t).peer ∨ pc'.peer = none) (hrank : (s.pc t).rank ≤ pc'.rank) :
    Peers k { s with pc := Function.update s.pc t pc' } := by
  have hold : ∀ i u, (Function.update s.pc t pc' i).peer = some u → (s.pc i).peer = some u := by
    intro i u hu
    by_cases hi : i = t
    · subst hi
      rw [Function.update_self] at hu
      rcases hpeer with hp | hp <;> rw [hp] at hu
      · exact hu
      · cases hu
    · rwa [Function.update_of_ne hi] at hu
  refine ⟨h.next, ?_, ?_, fun i u hu => h.range i u (hold i u hu), ?_⟩
  · have hw := waiting_update ht s.pc pc'
    have hc := h.count
    simp only [waiting] at hc ⊢
    have : (if pc'.rank = 0 then 1 else 0) ≤ if (s.pc t).rank = 0 then 1 else 0 := by
      split <;> split <;> omega
    omega
  · intro i hi
    have hne : i ≠ t := fun he => Nat.not_lt.2 hi (he ▸ ht)
    exact (Function.update_of_ne hne _ _).trans (h.later i hi)
  · exact fun i i' u u' hu hu' => h.distinct i i' u u' (hold i u hu) (hold i' u' hu')

/-- The next id is new. -/
theorem Peers.nextPlayerId_toNat {k t : ℕ} {username : List UInt8} (h : Peers k s)
    (hpc : s.pc t = .takePlayerId username) (hlt : s.accepted < 2 ^ 32) : s.nextPlayerId.toNat = k + 1 := by
  have h0 : (s.pc t).rank = 0 := by rw [hpc]; rfl
  have hw := Finset.add_sum_erase (Finset.range s.accepted) (fun i => if (s.pc i).rank = 0 then 1 else 0)
    (Finset.mem_range.2 (h.lt_accepted hpc (by simp)))
  simp only [h0, if_true] at hw
  have hc := h.count
  simp only [waiting] at hc
  rw [h.next, UInt32.toNat_ofNat_of_lt']
  have : k + 1 < 2 ^ 32 := by omega
  simpa using this

/-- A thread that gets the next id. -/
theorem Peers.take {k t : ℕ} {username : List UInt8} (h : Peers k s) (hpc : s.pc t = .takePlayerId username)
    (hlt : s.accepted < 2 ^ 32) :
    Peers (k + 1) { s with
      nextPlayerId := s.nextPlayerId + 1
      pc := Function.update s.pc t (.register ⟨s.nextPlayerId, username⟩) } := by
  have ht : t < s.accepted := h.lt_accepted hpc (by simp)
  have hw := waiting_update ht s.pc (.register ⟨s.nextPlayerId, username⟩)
  have h0 : (s.pc t).rank = 0 := by rw [hpc]; rfl
  have h1 : (Pc.register ⟨s.nextPlayerId, username⟩).rank ≠ 0 := by simp [Pc.rank]
  rw [if_pos h0, if_neg h1] at hw
  have hc := h.count
  simp only [waiting] at hc
  have hid := h.nextPlayerId_toNat hpc hlt
  have hcase : ∀ i u, (Function.update s.pc t (.register ⟨s.nextPlayerId, username⟩) i).peer = some u →
      i = t ∧ u.playerId = s.nextPlayerId ∨ i ≠ t ∧ (s.pc i).peer = some u := by
    intro i u hu
    by_cases hi : i = t
    · subst hi
      rw [Function.update_self] at hu
      exact .inl ⟨rfl, by rw [← Option.some.inj hu]⟩
    · rw [Function.update_of_ne hi] at hu
      exact .inr ⟨hi, hu⟩
  have hnew : ∀ i u, (s.pc i).peer = some u → u.playerId ≠ s.nextPlayerId := by
    intro i u hu he
    have := (h.range i u hu).2
    rw [he] at this
    omega
  refine ⟨?_, ?_, ?_, fun i u hu => ?_, fun i i' u u' hu hu' he => ?_⟩
  · show s.nextPlayerId + 1 = _
    rw [h.next, UInt32.ofNat_add (k + 1) 1]
    rfl
  · simp only [waiting]
    omega
  · intro i hi
    have hne : i ≠ t := fun he => Nat.not_lt.2 hi (he ▸ ht)
    exact (Function.update_of_ne hne _ _).trans (h.later i hi)
  · rcases hcase i u hu with ⟨-, hid'⟩ | ⟨-, hu⟩
    · rw [hid']; omega
    · have := h.range i u hu; omega
  · rcases hcase i u hu with ⟨rfl, h1⟩ | ⟨-, h1⟩ <;> rcases hcase i' u' hu' with ⟨rfl, h2⟩ | ⟨-, h2⟩
    · rfl
    · exact absurd (he.symm.trans h1) (hnew i' u' h2)
    · exact absurd (he.trans h2) (hnew i u h1)
    · exact h.distinct i i' u u' h1 h2 he

/-- A new connection. -/
theorem Peers.accept {k : ℕ} (h : Peers k s) :
    Peers k { s with
      accepted := s.accepted + 1
      pc := Function.update s.pc s.accepted .handshake } := by
  have hold : ∀ i u, (Function.update s.pc s.accepted .handshake i).peer = some u → (s.pc i).peer = some u := by
    intro i u hu
    by_cases hi : i = s.accepted
    · subst hi
      rw [Function.update_self] at hu
      cases hu
    · rwa [Function.update_of_ne hi] at hu
  refine ⟨h.next, ?_, ?_, fun i u hu => h.range i u (hold i u hu), ?_⟩
  · have hrest : ∀ i ∈ Finset.range s.accepted,
        (if (Function.update s.pc s.accepted .handshake i).rank = 0 then 1 else 0) =
          if (s.pc i).rank = 0 then 1 else 0 := by
      intro i hi
      rw [Function.update_of_ne (Nat.ne_of_lt (Finset.mem_range.1 hi))]
    have hlast : (Function.update s.pc s.accepted .handshake s.accepted).rank = 0 := by
      rw [Function.update_self]
      rfl
    have hc := h.count
    simp only [waiting] at hc ⊢
    rw [Finset.sum_range_succ, Finset.sum_congr rfl hrest, if_pos hlast]
    omega
  · intro i hi
    have hne : i ≠ s.accepted := Nat.ne_of_gt hi
    exact (Function.update_of_ne hne _ _).trans (h.later i (Nat.le_of_succ_le hi))
  · exact fun i i' u u' hu hu' => h.distinct i i' u u' (hold i u hu) (hold i' u' hu')

theorem peers_step {k : ℕ} {l : Label ε} (h : Peers k s) (hs : (machine hd ext).step s l = some s')
    (hlt : s.accepted < 2 ^ 32) : ∃ k', k ≤ k' ∧ Peers k' s' := by
  rcases step_cases hs with ⟨rfl, rfl⟩ | ⟨t, env, pc, r, s₁, rfl, hpc, hp, rfl⟩ | ⟨playerId, rfl, -, rfl⟩ |
    ⟨sock, rfl, rfl⟩ | ⟨e, rfl, rfl⟩
  · exact ⟨k, le_rfl, h.accept.of_eq rfl rfl rfl⟩
  · obtain ⟨h1, h2, h3, -⟩ := perform_frame hp
    by_cases htake : ∃ username, pc = .takePlayerId username
    · obtain ⟨username, rfl⟩ := htake
      obtain ⟨rfl, rfl⟩ := Prod.mk.inj (Option.some.inj hp)
      exact ⟨k + 1, by omega, h.take hpc hlt⟩
    · have hact : pc.act ≠ .takePlayerId := by
        cases pc <;> simp [Pc.act] at htake ⊢
      have hdone : pc ≠ .done := by rintro rfl; cases hp
      have hmove : Peers k { s with pc := Function.update s.pc t (pc.next r) } := h.move (h.lt_accepted hpc hdone)
        (hpc ▸ pc.next_peer (fun username he => htake ⟨username, he⟩) r) (hpc ▸ pc.rank_next r)
      exact ⟨k, le_rfl, hmove.of_eq (h3 hact) h2 (by rw [h1])⟩
  · exact ⟨k, le_rfl, kickPlayer_eq s playerId ▸ h.of_eq rfl rfl rfl⟩
  · exact ⟨k, le_rfl, h.of_eq rfl rfl rfl⟩
  · exact ⟨k, le_rfl, h.of_eq rfl rfl rfl⟩

theorem accepted_le_step {l : Label ε} (hs : (machine hd ext).step s l = some s') : s.accepted ≤ s'.accepted := by
  rcases step_cases hs with ⟨rfl, rfl⟩ | ⟨t, env, pc, r, s₁, rfl, hpc, hp, rfl⟩ | ⟨playerId, rfl, -, rfl⟩ |
    ⟨sock, rfl, rfl⟩ | ⟨e, rfl, rfl⟩
  · exact Nat.le_succ _
  · exact (perform_frame hp).2.1.ge
  · rw [kickPlayer_eq]
  · exact le_rfl
  · exact le_rfl

theorem peers_init (h : H) : Peers 0 (init h) :=
  ⟨rfl, Nat.le_refl _, fun _ _ => rfl, fun _ _ hu => (nomatch hu), fun _ _ _ _ hu => (nomatch hu)⟩

end TCPServer

end RType

import Mathlib.Data.List.TakeWhile
import RType.Proof.Isolation
import RType.Proof.LobbyFrames
import RType.Proof.Sessions

/-!
# Usernames

The name of a `ConnectRequest` goes through `std::string`, the 32 bytes of `Player`, the 32
bytes of `LobbyPlayerInfo` and a client's `std::string` into the lobby, and through
`_playerUsernames` into the chats.

* `scanned_le_iff`: the scan for the terminator stays in the field if the field has one.
* `Named`: every live session is registered under its name, and its players are shown under
  the first 31 bytes of it; `named_run`.
* `called_run`: a session keeps the name that was scanned at its handshake.
* `usernameStays_iff`: **the scan stays in the field, and the lobby shows the name that
  prefixes the chats, if and only if the 32 bytes of the request contain a zero.**
-/

namespace RType

open Lts Wire

/-! ## One request -/

/-- The bytes that `std::string username = connectReq.username` reads, the terminator
included. -/
def scanned (r : Received) : ℕ := (connectUsername r).length + 1

/-- The name that a client shows for a player of `onGetLobbyState`: the text of the field of
`LobbyPlayerInfo`. -/
def shownName (p : UInt32 × List UInt8) : List UInt8 :=
  (LobbyPlayerInfo.ofBytes (Block.lobbyPlayerInfo p.1 p.2).bytes).username.takeWhile (· ≠ 0)

/-- A complete request of type `CONNECT`. -/
structure Received.Connects (r : Received) : Prop where
  complete : r.error = none
  length : r.stored.length = 33
  type : r.stored.head? = some TCPMessageType.connect.code

/-- What is taken up to a terminator is shorter than a list that has one. -/
theorem length_takeWhile_lt_iff {α : Type*} {p : α → Bool} {l : List α} :
    (l.takeWhile p).length < l.length ↔ ∃ a ∈ l, p a = false := by
  have hle : (l.takeWhile p).length ≤ l.length := (List.takeWhile_prefix p).length_le
  have hself : (l.takeWhile p).length = l.length ↔ l.takeWhile p = l :=
    ⟨(List.takeWhile_prefix p).eq_of_length, fun h => by rw [h]⟩
  rw [hle.lt_iff_ne, Ne, hself, List.takeWhile_eq_self_iff]
  simp

/-- A complete request leaves nothing of the buffer as it was. -/
theorem connectUsername_eq {r : Received} (h : r.Connects) :
    connectUsername r = (r.stored.tail ++ r.memory).takeWhile (· ≠ 0) := by
  have hdrop : (TCPMessageType.connect.code :: List.replicate 32 0).drop r.stored.length = [] := by
    rw [h.length]
    rfl
  rw [connectUsername, connectRequest, hdrop, List.append_nil]

/-- **The scan stays in the 32 bytes if and only if one of them is zero.** -/
theorem scanned_le_iff {r : Received} (h : r.Connects) : scanned r ≤ 32 ↔ 0 ∈ r.stored.tail := by
  have hlen : r.stored.tail.length = 32 := by rw [List.length_tail, h.length]
  have hterm : (r.stored.tail.takeWhile (· ≠ 0)).length < r.stored.tail.length ↔ 0 ∈ r.stored.tail := by
    rw [length_takeWhile_lt_iff]
    simp
  rw [← hterm, hlen]
  unfold scanned
  rw [connectUsername_eq h, List.takeWhile_append, hlen]
  split
  · -- without a terminator the scan goes on past the field
    rename_i hfull
    rw [List.length_append, hlen, hfull]
    omega
  · exact Nat.succ_le_iff

theorem connectUsername_ne_zero (r : Received) : ∀ b ∈ connectUsername r, decide (b ≠ 0) = true :=
  fun _ hb => List.mem_takeWhile_imp (p := fun b => decide (b ≠ 0)) hb

/-- A text without a zero in it is copied up to the length of the buffer. -/
theorem cText_eq_take {n : ℕ} {text : List UInt8} (h : ∀ b ∈ text, decide (b ≠ 0) = true) :
    cText n text = text.take n := by
  rw [cText, List.takeWhile_eq_self_iff.2 h]

/-- A client shows the first 31 bytes of a name. -/
theorem shownName_cText {name : List UInt8} (h : ∀ b ∈ name, decide (b ≠ 0) = true) (playerId : UInt32) :
    shownName (playerId, cText 31 name) = name.take 31 := by
  have htake : ∀ b ∈ name.take 31, decide (b ≠ 0) = true := fun b hb => h b (List.mem_of_mem_take hb)
  have hfield : (LobbyPlayerInfo.ofBytes (Block.lobbyPlayerInfo playerId (cText 31 name)).bytes).username =
      padded 32 (cText 31 (cText 31 name)) :=
    congrArg LobbyPlayerInfo.username (TCPClient.ofBytes_playerBytes (playerId, cText 31 name))
  have hcopy : cText 31 (cText 31 name) = name.take 31 := by
    rw [cText_eq_take h, cText_eq_take htake, List.take_take, Nat.min_self]
  -- the field ends with a zero, and the text ends at it
  have hzeros : List.replicate (32 - (name.take 31).length) (0 : UInt8) =
      0 :: List.replicate (31 - (name.take 31).length) 0 := by
    have hlen : (name.take 31).length ≤ 31 := List.length_take_le 31 name
    have hsucc : 32 - (name.take 31).length = (31 - (name.take 31).length) + 1 := by omega
    rw [hsucc, List.replicate_succ]
  unfold shownName
  rw [hfield, hcopy, padded, hzeros, List.takeWhile_append_of_pos htake, List.takeWhile_cons_of_neg (by decide),
    List.append_nil]

/-! ## The name of a thread -/

/-- The name of a thread, from its handshake on. -/
def Pc.username : Pc → Option (List UInt8)
  | takePlayerId username => some username
  | pc => pc.peer.map (·.username)

theorem Pc.username_of_rank {pc : Pc} (h : 1 ≤ pc.rank) : pc.username = pc.peer.map (·.username) := by
  cases pc with
  | takePlayerId username => cases h
  | _ => rfl

/-- After its handshake a thread keeps its name, or gives it up at its end. -/
theorem Pc.next_username (pc : Pc) (h : pc ≠ .handshake) (r : pc.act.Result) :
    pc.next r ≠ .handshake ∧ ((pc.next r).username = pc.username ∨ (pc.next r).username = none) := by
  by_cases htake : ∃ username, pc = .takePlayerId username
  · obtain ⟨username, rfl⟩ := htake
    exact ⟨Pc.noConfusion, .inl rfl⟩
  · have hrank : 1 ≤ pc.rank := by
      cases pc with
      | handshake => exact absurd rfl h
      | takePlayerId username => exact absurd ⟨username, rfl⟩ htake
      | joinReply u roomId success => cases success <;> simp [rank]
      | _ => simp [rank]
    have hnext : 1 ≤ (pc.next r).rank := hrank.trans (pc.rank_next r)
    rw [username_of_rank hrank, username_of_rank hnext]
    refine ⟨fun he => ?_, (pc.next_peer (fun username he => htake ⟨username, he⟩) r).imp (fun hq => ?_) fun hq => ?_⟩
    · rw [he] at hnext
      cases hnext
    · rw [hq]
    · rw [hq, Option.map_none]

namespace TCPServer

open ServerManager

variable {F : Type*} {s s' : TCPServer (ServerManager F)}

/-! ## All sessions -/

/-- A player id is handed out only while no session and no player of a room has it. -/
def FreshIds (s : TCPServer (ServerManager F)) (l : Label Event) : Prop :=
  ∀ t env, l = .thread t env → ∀ username, s.pc t = .takePlayerId username →
    (∀ t' u, (s.pc t').peer = some u → u.playerId ≠ s.nextPlayerId) ∧
      ∀ roomId, s.nextPlayerId ∉ s.handler.ids roomId

/-- The names of the live sessions, in the table and in the rooms. -/
structure Named (s : TCPServer (ServerManager F)) : Prop where
  later : ∀ t, s.accepted ≤ t → s.pc t = .done
  distinct : ∀ t t' u u', (s.pc t).peer = some u → (s.pc t').peer = some u' → u.playerId = u'.playerId → t = t'
  registered : ∀ t u, (s.pc t).peer = some u → 2 ≤ (s.pc t).rank → s.playerUsernames[u.playerId]? = some u.username
  lobby : ∀ roomId, ∀ p ∈ s.handler.names roomId, ∀ t u, (s.pc t).peer = some u → p.1 = u.playerId →
    p.2 = cText 31 u.username

/-- The player of a thread after a step: its own before, or the next id with its name. -/
theorem peer_of_next {t : ℕ} {env : Env} {pc : Pc} {r : pc.act.Result} {s₁ : TCPServer (ServerManager F)}
    [FloatOps F] (hp : s.perform ServerManager.handler t env pc.act = some (r, s₁)) {u : Peer}
    (hu : (pc.next r).peer = some u) :
    pc.peer = some u ∨ ∃ username, pc = .takePlayerId username ∧ u = ⟨s.nextPlayerId, username⟩ := by
  by_cases htake : ∃ username, pc = .takePlayerId username
  · obtain ⟨username, rfl⟩ := htake
    obtain ⟨rfl, -⟩ := Prod.mk.inj (Option.some.inj hp)
    exact .inr ⟨username, rfl, (Option.some.inj hu).symm⟩
  · rcases pc.next_peer (fun username he => htake ⟨username, he⟩) r with hq | hq
    · exact .inl (hq.symm.trans hu)
    · rw [hq] at hu
      cases hu

section

variable [FloatOps F] {t : ℕ} {env : Env} {pc : Pc} {r : pc.act.Result} {s₁ : TCPServer (ServerManager F)}

/-- The player of any thread after a step of thread `t`. -/
theorem peer_of_update (hpc : s.pc t = pc) (hp : s.perform ServerManager.handler t env pc.act = some (r, s₁))
    {t' : ℕ} {u : Peer} (hu : (Function.update s.pc t (pc.next r) t').peer = some u) :
    (s.pc t').peer = some u ∨
      t' = t ∧ ∃ username, pc = .takePlayerId username ∧ u = ⟨s.nextPlayerId, username⟩ := by
  by_cases ht : t' = t
  · subst ht
    rw [Function.update_self] at hu
    rw [hpc]
    exact (peer_of_next hp hu).imp_right fun hnew => ⟨rfl, hnew⟩
  · rw [Function.update_of_ne ht] at hu
    exact .inl hu

/-- Ids that are fresh stay distinct. -/
theorem Named.distinct_step (h : Named s) (hfresh : FreshIds s (.thread t env)) (hpc : s.pc t = pc)
    (hp : s.perform ServerManager.handler t env pc.act = some (r, s₁)) :
    ∀ i j u v, (Function.update s.pc t (pc.next r) i).peer = some u →
      (Function.update s.pc t (pc.next r) j).peer = some v → u.playerId = v.playerId → i = j := by
  intro i j u v hu hv hid
  have hnew : ∀ username, pc = .takePlayerId username → ∀ t' u', (s.pc t').peer = some u' →
      u'.playerId ≠ s.nextPlayerId := fun username he => (hfresh t env rfl username (hpc.trans he)).1
  rcases peer_of_update hpc hp hu with hu' | ⟨hi, username, he, rfl⟩
  · rcases peer_of_update hpc hp hv with hv' | ⟨-, username, he, rfl⟩
    · exact h.distinct i j u v hu' hv' hid
    · exact absurd hid (hnew username he i u hu')
  · rcases peer_of_update hpc hp hv with hv' | ⟨hj, -⟩
    · exact absurd hid.symm (hnew username he j v hv')
    · rw [hi, hj]

/-- The table of names after a step of a thread. -/
theorem Named.registered_step (h : Named s) (hpc : s.pc t = pc)
    (hp : s.perform ServerManager.handler t env pc.act = some (r, s₁)) :
    ∀ t' u, (Function.update s.pc t (pc.next r) t').peer = some u →
      2 ≤ (Function.update s.pc t (pc.next r) t').rank → s₁.playerUsernames[u.playerId]? = some u.username := by
  have halone : ∀ u', (s.pc t).peer = some u' → ∀ t' u, (s.pc t').peer = some u → u'.playerId = u.playerId → t' = t :=
    fun u' hu' t' u hu hid => (h.distinct t t' u' u hu' hu hid).symm
  rw [perform_usernames hp, usernamesAfter_eq]
  exact registered_after (fun _ u => u.username) h.registered halone hpc r

/-- The names in the rooms after a step of a thread. -/
theorem Named.lobby_step (h : Named s) (hfresh : FreshIds s (.thread t env)) (hpc : s.pc t = pc)
    (hp : s.perform ServerManager.handler t env pc.act = some (r, s₁)) :
    ∀ roomId, ∀ p ∈ s₁.handler.names roomId, ∀ t' u, (Function.update s.pc t (pc.next r) t').peer = some u →
      p.1 = u.playerId → p.2 = cText 31 u.username := by
  -- a player that was in the room before
  have hold : ∀ roomId, ∀ p ∈ s.handler.names roomId, ∀ t' u,
      (Function.update s.pc t (pc.next r) t').peer = some u → p.1 = u.playerId → p.2 = cText 31 u.username := by
    intro roomId p hmem t' u hu hid
    rcases peer_of_update hpc hp hu with hu | ⟨-, username, he, rfl⟩
    · exact h.lobby roomId p hmem t' u hu hid
    · have hout := (hfresh t env rfl username (hpc.trans he)).2 roomId
      rw [ids_eq_names] at hout
      exact absurd (List.mem_map.2 ⟨p, hmem, hid⟩) hout
  intro roomId p hmem t' u hu hid
  by_cases hjoin : ∃ u roomId', pc = .join u roomId'
  · obtain ⟨u', roomId', rfl⟩ := hjoin
    obtain ⟨rfl, rfl⟩ := Prod.mk.inj (Option.some.inj hp)
    rcases onJoinRoom_names s.handler roomId' u'.playerId u'.username with hj | ⟨-, hnames⟩
    · have hsame : (ServerManager.handler.onJoinRoom s.handler roomId' u'.playerId u'.username).2 = s.handler :=
        congrArg Prod.snd hj
      simp only [hsame] at hmem
      exact hold roomId p hmem t' u hu hid
    · have hnames' : (ServerManager.handler.onJoinRoom s.handler roomId' u'.playerId u'.username).2.names roomId =
          if roomId = roomId' then s.handler.names roomId ++ [(u'.playerId, cText 31 u'.username)]
          else s.handler.names roomId := hnames roomId
      simp only [hnames'] at hmem
      split at hmem
      · rcases List.mem_append.1 hmem with hmem | hmem
        · exact hold roomId p hmem t' u hu hid
        · -- the player that joins has the id of its thread only
          obtain rfl := List.mem_singleton.1 hmem
          have hjoining : (s.pc t).peer = some u' := by rw [hpc]; rfl
          rcases peer_of_update hpc hp hu with hu | ⟨-, username, he, -⟩
          · obtain rfl := h.distinct t t' u' u hjoining hu hid
            obtain rfl := Option.some.inj (hjoining.symm.trans hu)
            rfl
          · cases he
      · exact hold roomId p hmem t' u hu hid
  · have hkeeps := keeps_of_not_join hp hjoin
    exact hold roomId p ((hkeeps roomId).subset hmem) t' u hu hid

end

/-! ## All steps -/

section

variable [FloatOps F]

theorem named_step {l : Label Event} (h : Named s) (hfresh : FreshIds s l) (hs : rooms.step s l = some s') :
    Named s' := by
  rcases step_cases hs with ⟨rfl, rfl⟩ | ⟨t, env, pc, r, s₁, rfl, hpc, hp, rfl⟩ | ⟨playerId, rfl, -, rfl⟩ |
    ⟨sock, rfl, rfl⟩ | ⟨e, rfl, rfl⟩
  · -- an accepted connection has no player yet
    have hold : ∀ t u, (Function.update s.pc s.accepted Pc.handshake t).peer = some u →
        t ≠ s.accepted ∧ (s.pc t).peer = some u := by
      intro t u hu
      by_cases ht : t = s.accepted
      · subst ht
        rw [Function.update_self] at hu
        cases hu
      · rw [Function.update_of_ne ht] at hu
        exact ⟨ht, hu⟩
    refine ⟨fun t ht => ?_, fun t t' u u' hu hu' => ?_, fun t u hu hr => ?_, fun roomId p hmem t u hu => ?_⟩
    · have hlt : s.accepted < t := ht
      simp only [Function.update_of_ne hlt.ne']
      exact h.later t hlt.le
    · exact h.distinct t t' u u' (hold t u hu).2 (hold t' u' hu').2
    · simp only [Function.update_of_ne (hold t u hu).1] at hr
      exact h.registered t u (hold t u hu).2 hr
    · exact h.lobby roomId p hmem t u (hold t u hu).2
  · have hpc₁ : s₁.pc = s.pc := (perform_frame hp).1
    have hacc : s₁.accepted = s.accepted := (perform_frame hp).2.1
    have h1 := h.distinct_step hfresh hpc hp
    have h2 := h.registered_step hpc hp
    have h3 := h.lobby_step hfresh hpc hp
    rw [← hpc₁] at h1 h2 h3
    refine ⟨fun t' ht' => ?_, h1, h2, h3⟩
    have hge : s.accepted ≤ t' := hacc ▸ ht'
    have hne : t' ≠ t := by
      rintro rfl
      -- a thread that has not started takes no step
      obtain rfl : pc = .done := hpc.symm.trans (h.later t' hge)
      cases hp
    simp only [hpc₁, Function.update_of_ne hne]
    exact h.later t' hge
  · rw [kickPlayer_eq]
    exact ⟨h.later, h.distinct, h.registered, h.lobby⟩
  · exact ⟨h.later, h.distinct, h.registered, h.lobby⟩
  · exact ⟨h.later, h.distinct, h.registered, fun roomId p hmem =>
      h.lobby roomId p ((keeps_react e s.handler roomId).subset hmem)⟩

theorem named_init : Named (init (ServerManager.init : ServerManager F)) := by
  refine ⟨fun _ _ => rfl, fun _ _ _ _ hu => ?_, fun _ _ hu => ?_, fun _ _ _ _ _ hu => ?_⟩
  · cases hu
  · cases hu
  · cases hu

/-- The live sessions are named in every state of a run whose ids are fresh. -/
theorem named_run {labels : List (Label Event)} (hr : rooms.run (init (ServerManager.init : ServerManager F)) labels = some s)
    (hfresh : rooms.Along (FreshIds (F := F)) (init ServerManager.init) labels) : Named s :=
  Machine.inv_along (M := rooms) (I := Named) (fun _ _ _ h hC hs => named_step h hC hs) labels _ s named_init hfresh hr

/-- Thread `t` has had its handshake, and has the name `username` unless it has none any more. -/
structure Called (t : ℕ) (username : List UInt8) (s : TCPServer (ServerManager F)) : Prop where
  started : t < s.accepted
  shaken : s.pc t ≠ .handshake
  username : ∀ name, (s.pc t).username = some name → name = username

omit [FloatOps F] in
theorem Called.of_eq {t : ℕ} {username : List UInt8} (h : Called t username s) (hacc : s.accepted ≤ s'.accepted)
    (hpc : s'.pc t = s.pc t) : Called t username s' :=
  ⟨h.started.trans_le hacc, by rw [hpc]; exact h.shaken, by rw [hpc]; exact h.username⟩

theorem called_step {t : ℕ} {username : List UInt8} {l : Label Event} (h : Called t username s)
    (hs : rooms.step s l = some s') : Called t username s' := by
  rcases step_cases hs with ⟨rfl, rfl⟩ | ⟨t', env, pc, r, s₁, rfl, hpc, hp, rfl⟩ | ⟨playerId, rfl, -, rfl⟩ |
    ⟨sock, rfl, rfl⟩ | ⟨e, rfl, rfl⟩
  · exact h.of_eq (Nat.le_succ _) (Function.update_of_ne h.started.ne _ _)
  · have hpc₁ : s₁.pc = s.pc := (perform_frame hp).1
    have hacc : s₁.accepted = s.accepted := (perform_frame hp).2.1
    by_cases ht : t = t'
    · subst ht
      obtain ⟨hshaken, hname⟩ := pc.next_username (hpc ▸ h.shaken) r
      refine ⟨hacc.symm ▸ h.started, ?_, fun name hn => ?_⟩
      · simpa only [Function.update_self] using hshaken
      · simp only [Function.update_self] at hn
        rcases hname with hq | hq
        · exact h.username name (by rw [hpc, ← hq, hn])
        · rw [hq] at hn
          cases hn
    · refine h.of_eq hacc.ge ?_
      rw [← hpc₁]
      exact Function.update_of_ne ht _ _
  · exact h.of_eq (by rw [kickPlayer_eq]) (by rw [kickPlayer_eq])
  · exact h.of_eq (Nat.le_refl _) rfl
  · exact h.of_eq (Nat.le_refl _) rfl

/-- **A thread has the name that was scanned at its handshake.** -/
theorem called_run {t : ℕ} {env : Env} {post : List (Label Event)} {s₀ : TCPServer (ServerManager F)}
    (h : Named s₀) (hpc : s₀.pc t = .handshake) (hreq : env.received.Connects)
    (hr : rooms.run s₀ (.thread t env :: post) = some s) : Called t (connectUsername env.received) s := by
  have hstarted : t < s₀.accepted := by
    by_contra hge
    have hdone := h.later t (Nat.le_of_not_lt hge)
    rw [hpc] at hdone
    cases hdone
  obtain ⟨s₁, hs, hrest⟩ := rooms.run_cons_iff.1 hr
  have hshaken : Called t (connectUsername env.received) s₁ := by
    rcases step_cases hs with ⟨hl, -⟩ | ⟨t', env', pc, r, s₂, hl, hpc', hp, rfl⟩ | ⟨playerId, hl, -⟩ | ⟨sock, hl, -⟩ |
      ⟨e, hl, -⟩
    · cases hl
    · obtain ⟨rfl, rfl⟩ := Label.thread.inj hl
      obtain rfl : pc = .handshake := hpc'.symm.trans hpc
      -- the read gives the request
      have hread : env.received = r ∧ s₀ = s₂ := by
        simp only [Pc.act, perform] at hp
        split at hp
        · exact Prod.mk.inj (Option.some.inj hp)
        · cases hp
      obtain ⟨rfl, rfl⟩ := hread
      have hhead : (connectRequest env.received).head? = some TCPMessageType.connect.code := by
        have hdrop : (TCPMessageType.connect.code :: List.replicate 32 0).drop env.received.stored.length = [] := by
          rw [hreq.length]
          rfl
        rw [connectRequest, hdrop, List.append_nil]
        exact hreq.type
      have hcond : ¬ (env.received.error = some .eof ∨
          (connectRequest env.received).head? ≠ some TCPMessageType.connect.code) := by
        rw [hreq.complete, hhead]
        simp
      have hnext : Pc.next .handshake env.received = .takePlayerId (connectUsername env.received) := if_neg hcond
      refine ⟨hstarted, ?_, fun name hn => ?_⟩
      · simp only [Function.update_self, hnext]
        exact Pc.noConfusion
      · simp only [Function.update_self, hnext] at hn
        exact (Option.some.inj hn).symm
    · cases hl
    · cases hl
    · cases hl
  exact Machine.inv_run (M := rooms) (I := Called t (connectUsername env.received)) (fun _ _ _ h hs => called_step h hs)
    post s₁ s hshaken hrest

/-! ## The theorem -/

/-- What thread `t` made of the request `r` stays in its fields: the scan in the 32 bytes of
`username`; the name in the lobby of any room, and the name that prefixes its chats, the
text that was scanned. -/
structure UsernameStays (r : Received) (t : ℕ) (s : TCPServer (ServerManager F)) : Prop where
  scan : scanned r ≤ 32
  lobby : ∀ u, (s.pc t).peer = some u → ∀ roomId, ∀ p ∈ (s.handler.onGetLobbyState roomId).2, p.1 = u.playerId →
    shownName p = connectUsername r
  chat : ∀ u roomId msg, s.pc t = .chatSender u roomId msg →
    Pc.next (.chatSender u roomId msg) s.playerUsernames[u.playerId]? =
      .chatLock u roomId (connectUsername r ++ [58, 32] ++ msg)

/-- **A username stays in its fields if and only if its request has a terminator**, in every
state after the handshake, as long as ids are fresh when they are handed out. -/
theorem usernameStays_iff {pre post : List (Label Event)} {t : ℕ} {env : Env} {s₀ s : TCPServer (ServerManager F)}
    (hpre : rooms.run (init ServerManager.init) pre = some s₀) (hpc : s₀.pc t = .handshake)
    (hreq : env.received.Connects) (hpost : rooms.run s₀ (.thread t env :: post) = some s)
    (hfresh : rooms.Along (FreshIds (F := F)) (init ServerManager.init) (pre ++ .thread t env :: post)) :
    UsernameStays env.received t s ↔ 0 ∈ env.received.stored.tail := by
  constructor
  · intro h
    exact (scanned_le_iff hreq).1 h.scan
  · intro hterm
    have hscan : scanned env.received ≤ 32 := (scanned_le_iff hreq).2 hterm
    have hnamed₀ : Named s₀ := named_run hpre ((Machine.along_append hpre).1 hfresh).1
    have hnamed : Named s := named_run (rooms.run_append_iff.2 ⟨s₀, hpre, hpost⟩) hfresh
    have hcalled := called_run hnamed₀ hpc hreq hpost
    have hname : ∀ u, (s.pc t).peer = some u → u.username = connectUsername env.received := by
      intro u hu
      refine hcalled.username u.username ?_
      cases hs : s.pc t with
      | takePlayerId username => rw [hs] at hu; cases hu
      | handshake => exact absurd hs hcalled.shaken
      | _ => exact congrArg (Option.map (·.username)) (hs ▸ hu)
    refine ⟨hscan, fun u hu roomId p hmem hid => ?_, fun u roomId msg hs => ?_⟩
    · have htext : p.2 = cText 31 (connectUsername env.received) := by
        rw [← hname u hu]
        exact hnamed.lobby roomId p hmem t u hu hid
      have hlen : (connectUsername env.received).length ≤ 31 := by
        unfold scanned at hscan
        omega
      have hshown := shownName_cText (connectUsername_ne_zero env.received) p.1
      rw [← htext, List.take_of_length_le hlen] at hshown
      exact hshown
    · have hu : (s.pc t).peer = some u := by rw [hs]; rfl
      have hrank : 2 ≤ (s.pc t).rank := by rw [hs]; simp [Pc.rank]
      rw [hnamed.registered t u hu hrank, hname u hu]
      rfl

/-- Below `2 ^ 32` connections every id is fresh. -/
theorem freshIds_of_lt {labels : List (Label Event)}
    (hr : rooms.run (init (ServerManager.init : ServerManager F)) labels = some s) (hlt : s.accepted < 2 ^ 32) :
    rooms.Along (FreshIds (F := F)) (init ServerManager.init) labels := by
  refine Machine.along_of_forall fun pre l post s₁ he hpre t env _ username hpc => ?_
  rw [he] at hr
  obtain ⟨s₂, hs₂, hpost⟩ := rooms.run_append_iff.1 hr
  obtain rfl : s₁ = s₂ := Option.some.inj (hpre.symm.trans hs₂)
  have hle : s₁.accepted ≤ s.accepted := Machine.inv_run (M := rooms) (I := fun s' => s₁.accepted ≤ s'.accepted)
    (fun _ _ _ h hs => h.trans (accepted_le_step hs)) _ s₁ s (Nat.le_refl _) hpost
  have hlt₁ : s₁.accepted < 2 ^ 32 := hle.trans_lt hlt
  obtain ⟨k, hk⟩ := exists_isolated hpre hlt₁
  -- the ids in use are at most `k`, the next one is `k + 1`
  have hnext := hk.peers.nextPlayerId_toNat hpc hlt₁
  refine ⟨fun t' u hu he => ?_, fun roomId hmem => ?_⟩
  · have hu' := (hk.peers.range t' u hu).2
    rw [he, hnext] at hu'
    omega
  · have hp := hk.range roomId _ hmem
    rw [hnext] at hp
    omega

end

/-! ## Examples of both -/

/-- Thread 0 reads a request, creates a room, joins it, and reads the chat `hi`. -/
def chatAfter (request : Received) : List (Label Event) :=
  .thread 0 ⟨request, 0, ⟨0, 0⟩⟩ :: List.replicate 4 (reads []) ++ reads [6] :: List.replicate 2 (reads []) ++
    reads [8] :: reads [0, 0, 0, 0] :: List.replicate 3 (reads []) ++ [reads [14], reads [2, 0], reads [104, 105]]

/-- `Bob`, terminated. -/
def bobsRequest : Received := ⟨1 :: 66 :: 111 :: 98 :: List.replicate 29 0, none, []⟩

theorem usernameStays_bob : ∃ s : TCPServer (ServerManager Float32),
    rooms.run (init ServerManager.init) (.accept :: chatAfter bobsRequest) = some s ∧
      s.pc 0 = .chatSender ⟨1, [66, 111, 98]⟩ 0 [104, 105] ∧
      (UsernameStays bobsRequest 0 s ↔ 0 ∈ bobsRequest.stored.tail) := by
  obtain ⟨s, hrun, hpc, hlt⟩ : ∃ s : TCPServer (ServerManager Float32),
      rooms.run (init ServerManager.init) ([.accept] ++ chatAfter bobsRequest) = some s ∧
        s.pc 0 = .chatSender ⟨1, [66, 111, 98]⟩ 0 [104, 105] ∧ s.accepted < 2 ^ 32 := ⟨_, rfl, rfl, by decide⟩
  obtain ⟨s₀, hpre, hpost⟩ := rooms.run_append_iff.1 hrun
  have hshake : s₀.pc 0 = .handshake := by
    obtain rfl := Option.some.inj hpre
    rfl
  exact ⟨s, hrun, hpc, usernameStays_iff hpre hshake ⟨rfl, rfl, rfl⟩ hpost
    (freshIds_of_lt hrun hlt)⟩

/-- 32 bytes `A` without a terminator, and a `B` in the memory after them. -/
def fullRequest : Received := ⟨1 :: List.replicate 32 65, none, [66, 0]⟩

/-- **A name that fills its field is read past it**: the chats are prefixed by 33 bytes, and
the lobby shows 31 of them. -/
theorem not_usernameStays_full : ∃ s : TCPServer (ServerManager Float32),
    rooms.run (init ServerManager.init) (.accept :: chatAfter fullRequest) = some s ∧
      s.pc 0 = .chatSender ⟨1, List.replicate 32 65 ++ [66]⟩ 0 [104, 105] ∧
      s.playerUsernames[(1 : UInt32)]? = some (List.replicate 32 65 ++ [66]) ∧
      (s.handler.onGetLobbyState 0).2.map shownName = [List.replicate 31 65] ∧
      ¬ UsernameStays fullRequest 0 s := by
  refine ⟨_, rfl, rfl, rfl, rfl, fun h => ?_⟩
  have hscan : ¬ scanned fullRequest ≤ 32 := by decide
  exact hscan h.scan

end TCPServer

end RType

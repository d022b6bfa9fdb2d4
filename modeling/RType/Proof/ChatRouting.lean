import RType.Proof.ServerFrames
import RType.Proof.Sessions

/-!
# Whom a chat reaches

`_playerRoomMap` is written around the call of `handleInRoomClient`, each time under
`_serverMutex`, and a chat is relayed in one section under the same mutex. An observer
notes down for every thread the room it joined and each chat that was read whole from its
connection: the server at the moment the relay took the mutex, and what the relay put on
each socket.

* `Chat.Delivered`: one frame for every other session registered for the room at that
  moment, and none for anybody else.
* `Routing`: the invariant that ties the map of the rooms and the chats in hand to where the
  threads stand.
* `chats_delivered`: **with fewer than `2 ^ 32` connections every chat is delivered so**,
  and the map has a player in a room only from the join of the room to the section
  right after the return from `handleInRoomClient`.
* `leaveRun_wrapRun`: that section comes after the return, and the ids wrap.
-/

namespace RType

open Wire Lts

/-- The message of a chat that was read whole. -/
def Pc.chatRead : Pc → Option (List UInt8)
  | chatSender _ _ msg => some msg
  | _ => none

/-- The socket that comes next in a relay. -/
def Pc.target : Pc → Option ℕ
  | relaying _ _ _ sock _ => some sock
  | _ => none

/-- The thread has a chat in hand. -/
def Pc.chatting : Pc → Bool
  | chatSender _ _ _ | chatLock _ _ _ | relaying _ _ _ _ _ | chatUnlock _ _ => true
  | _ => false

/-- A chat in hand begins with its read. -/
theorem Pc.chatting_next {pc : Pc} (h : pc.chatting = false) (hb : ∀ u roomId n, pc ≠ .chatBody u roomId n)
    (r : pc.act.Result) : (pc.next r).chatting = false := by
  have hmoves := pc.moves_next r
  generalize pc.next r = pc' at hmoves ⊢
  cases hmoves with
  | said u roomId n => exact absurd rfl (hb u roomId n)
  | signed | relays | relaysNone | relayed | relayedAll => cases h
  | _ => rfl

/-- A thread in a room has joined one, and has not left it before its section. -/
theorem Pc.room_of_rank {pc : Pc} {u : Peer} (h4 : pc.rank = 4) (hu : pc.peer = some u) :
    (∃ roomId, pc.room = some roomId) ∨ pc = .leaveRoom u := by
  cases pc with
  | leaveRoom u' => exact .inr (congrArg Pc.leaveRoom (Option.some.inj hu))
  | joinReply u' roomId success => cases success <;> cases h4
  | inRoom _ roomId | startGame _ roomId | askStarting _ roomId | askLobby _ roomId | roomWrites _ roomId _ _
  | chatLength _ roomId | chatBody _ roomId _ | chatSender _ roomId _ | chatLock _ roomId _ | relaying _ roomId _ _ _
  | chatUnlock _ roomId | disconnect _ roomId => exact .inl ⟨roomId, rfl⟩
  | _ => cases h4

namespace TCPServer

/-! ## What is noted down -/

section Notes

variable {H ε : Type*}

/-- Thread `t` is the session of a player that `_playerRoomMap` has in a room. -/
def RegisteredFor (s : TCPServer H) (t : ℕ) (roomId : ℤ) : Prop :=
  ∃ u, (s.pc t).peer = some u ∧ s.playerRoomMap[u.playerId]? = some roomId

/-- A chat that was read whole. `moment` is the server when the relay took the mutex, and
`put` is what the relay wrote to each socket. -/
structure Chat (H : Type*) where
  roomId : ℤ
  msg : List UInt8
  moment : Option (TCPServer H)
  put : ℕ → List Block

/-- What a thread has done: the room it joined, the chats it read whole, the one it has in
hand, and those whose relay is over. -/
structure SessionLog (H : Type*) where
  joined : Option ℤ
  accepted : List (ℤ × List UInt8)
  inHand : Option (Chat H)
  relayed : List (Chat H)

/-- Nothing yet. -/
def SessionLog.start : SessionLog H := ⟨none, [], none, []⟩

/-- What is noted down of a step that takes a thread from `pc` to `pc'`, and the server from
`s` to `s'`. -/
def SessionLog.note (g : SessionLog H) (s s' : TCPServer H) (pc pc' : Pc) : SessionLog H :=
  match pc with
  | .join _ _ => { g with joined := pc'.room }
  | .leaveRoom _ => { g with joined := none }
  | .chatBody _ roomId _ => { g with
      accepted := g.accepted ++ (pc'.chatRead.map (Prod.mk roomId)).toList
      inHand := pc'.chatRead.map fun msg => ⟨roomId, msg, none, fun _ => []⟩ }
  | .chatLock _ _ _ => { g with inHand := g.inHand.map fun c => { c with moment := some s } }
  | .relaying _ _ _ _ _ => { g with inHand := g.inHand.map fun c =>
      { c with put := fun k => c.put k ++ (s'.sent k).drop (s.sent k).length } }
  | .chatUnlock _ _ => { g with inHand := none, relayed := g.relayed ++ g.inHand.toList }
  | _ => g

/-- The chats that were relayed, and the one in hand. -/
def SessionLog.chats (g : SessionLog H) : List (Chat H) := g.relayed ++ g.inHand.toList

/-- The observer of all threads. -/
def watch (logs : ℕ → SessionLog H) (s : TCPServer H) (l : Label ε) (s' : TCPServer H) : ℕ → SessionLog H :=
  match l with
  | .thread t _ => Function.update logs t ((logs t).note s s' (s.pc t) (s'.pc t))
  | _ => logs

/-- A chat of thread `t` whose relay took the mutex in `s`: one frame for each other session
registered for the room, and none for the sender, for a session that is not registered, for
one in another room, or for one that is in no room. -/
structure Chat.DeliveredIn (c : Chat H) (t : ℕ) (s : TCPServer H) : Prop where
  moment : c.moment = some s
  locking : ∃ u fullMsg, s.pc t = .chatLock u c.roomId fullMsg
  others : ∃ name, ∀ k, k ≠ t → s.RegisteredFor k c.roomId → c.put k = [.chatMessage (name ++ [58, 32] ++ c.msg)]
  sender : c.put t = []
  unregistered : ∀ k, ¬ s.RegisteredFor k c.roomId → c.put k = []
  otherRoom : ∀ k roomId, (s.pc k).room = some roomId → roomId ≠ c.roomId → c.put k = []
  lobby : ∀ k, (s.pc k).rank ≠ 4 → c.put k = []

/-- A chat of thread `t` was delivered. -/
def Chat.Delivered (c : Chat H) (t : ℕ) : Prop := ∃ s, c.DeliveredIn t s

/-- The socket a step relays a chat to. -/
def Label.relaysTo (s : TCPServer H) : Label ε → Option ℕ
  | .thread t _ => (s.pc t).target
  | _ => none

/-- Ids are not handed out twice, and a chat is relayed to open sockets. -/
def RelaysWritten (s : TCPServer H) (l : Label ε) : Prop :=
  s.accepted < 2 ^ 32 ∧ ∀ sock ∈ l.relaysTo s, s.isOpen sock = true

instance decidableRelaysWritten (s : TCPServer H) (l : Label ε) : Decidable (RelaysWritten s l) :=
  inferInstanceAs (Decidable (_ ∧ ∀ sock ∈ l.relaysTo s, s.isOpen sock = true))

end Notes

variable {H ε : Type*} {hd : ITCPHandler H} {ext : ε → H → H} {s s' : TCPServer H}

/-! ## The recipients -/

theorem mem_recipients_iff {k : ℕ} (hk : Peers k s) (h : Relays s) {t : ℕ} {u : Peer} (hu : (s.pc t).peer = some u)
    {roomId : ℤ} {sock : ℕ} :
    sock ∈ s.recipients u.playerId roomId ↔ sock ≠ t ∧ s.RegisteredFor sock roomId := by
  constructor
  · intro hm
    obtain ⟨⟨p, sock'⟩, hp, rfl⟩ := List.mem_map.1 hm
    obtain ⟨u', hu', rfl, -, hne, hroom⟩ := h.entry hp
    refine ⟨?_, u', hu', hroom⟩
    rintro rfl
    exact hne (congrArg Peer.playerId (Option.some.inj (hu'.symm.trans hu)))
  · rintro ⟨hne, u', hu', hroom⟩
    -- the entry is that of the session itself, as ids are distinct
    obtain ⟨t', u'', hu'', hid, h4⟩ := h.mapped _ roomId hroom
    obtain rfl := hk.distinct t' sock u'' u' hu'' hu' hid
    have hreg := h.registered t' u' hu' (by omega)
    have hother : u'.playerId ≠ u.playerId := fun he => hne (hk.distinct t' t u' u hu' hu he)
    refine List.mem_map.2 ⟨(u'.playerId, t'), List.mem_filter.2 ⟨?_, by simp [hother, hroom]⟩, rfl⟩
    exact Std.TreeMap.mem_toList_iff_getElem?_eq_some.2 hreg

/-- No socket comes twice. -/
theorem nodup_recipients (h : Relays s) (playerId : UInt32) (roomId : ℤ) : (s.recipients playerId roomId).Nodup := by
  unfold recipients
  refine List.Nodup.map_on ?_ (List.Nodup.filter _ ?_)
  · -- the entries of one socket are entries of one player
    rintro ⟨p, sock⟩ hp ⟨p', sock'⟩ hp' (rfl : sock = sock')
    obtain ⟨u, hu, rfl, -⟩ := h.entry hp
    obtain ⟨u', hu', rfl, -⟩ := h.entry hp'
    rw [Option.some.inj (hu.symm.trans hu')]
  · refine List.Pairwise.imp (fun hne he => hne ?_) Std.TreeMap.distinct_keys_toList
    rw [he]
    exact Std.ReflCmp.compare_self

/-! ## The invariant -/

/-- A chat of thread `t` in its relay: it was put on the sockets `ys`, and the sockets `zs`
are left. -/
structure Relaying (c : Chat H) (t : ℕ) (u : Peer) (roomId : ℤ) (fullMsg : List UInt8) (ys zs : List ℕ)
    (s : TCPServer H) : Prop where
  room : c.roomId = roomId
  text : ∃ name, fullMsg = name ++ [58, 32] ++ c.msg
  moment : c.moment = some s
  locking : s.pc t = .chatLock u roomId fullMsg
  recipients : s.recipients u.playerId roomId = ys ++ zs
  put : ∀ k, c.put k = if k ∈ ys then [.chatMessage fullMsg] else []

/-- What the map of the rooms says of a session. -/
structure MapsRooms (s : TCPServer H) : Prop where
  peers : ∃ k, Peers k s
  relays : Relays s
  room : ∀ t roomId, s.RegisteredFor t roomId →
    (s.pc t).rank = 4 ∧ ∀ roomId', (s.pc t).room = some roomId' → roomId' = roomId

/-- The chat that thread `t` has in hand, where it stands at `pc`. -/
def InHand (g : SessionLog H) (t : ℕ) : Pc → Prop
  | .chatSender _ roomId msg => g.inHand = some ⟨roomId, msg, none, fun _ => []⟩
  | .chatLock _ roomId fullMsg => ∃ name msg,
      fullMsg = name ++ [58, 32] ++ msg ∧ g.inHand = some ⟨roomId, msg, none, fun _ => []⟩
  | .relaying u roomId fullMsg sock rest => ∃ c ys s,
      g.inHand = some c ∧ MapsRooms s ∧ Relaying c t u roomId fullMsg ys (sock :: rest) s
  | .chatUnlock u roomId => ∃ c ys fullMsg s,
      g.inHand = some c ∧ MapsRooms s ∧ Relaying c t u roomId fullMsg ys [] s
  | _ => g.inHand = none

theorem inHand_of_not_chatting {g : SessionLog H} {t : ℕ} {pc : Pc} (h : pc.chatting = false) :
    InHand g t pc ↔ g.inHand = none := by
  cases pc with
  | chatSender _ _ _ | chatLock _ _ _ | relaying _ _ _ _ _ | chatUnlock _ _ => cases h
  | _ => rfl

/-- A relay goes on to the sockets that are left. -/
theorem inHand_relayTo {g : SessionLog H} {t : ℕ} {u : Peer} {roomId : ℤ} {fullMsg : List UInt8} {c : Chat H}
    {ys zs : List ℕ} (hg : g.inHand = some c) (hs : MapsRooms s) (h : Relaying c t u roomId fullMsg ys zs s) :
    InHand g t (Pc.relayTo u roomId fullMsg zs) := by
  cases zs with
  | nil => exact ⟨c, ys, fullMsg, s, hg, hs, h⟩
  | cons sock rest => exact ⟨c, ys, s, hg, hs, h⟩

/-- **A chat whose relay is over was delivered.** -/
theorem Relaying.delivered {c : Chat H} {t : ℕ} {u : Peer} {roomId : ℤ} {fullMsg : List UInt8} {ys : List ℕ}
    (h : Relaying c t u roomId fullMsg ys [] s) (hs : MapsRooms s) : c.DeliveredIn t s := by
  obtain ⟨rfl, ⟨name, rfl⟩, hmoment, hlock, hrec, hput⟩ := h
  obtain ⟨k, hk⟩ := hs.peers
  rw [List.append_nil] at hrec
  have hmem : ∀ sock, sock ∈ ys ↔ sock ≠ t ∧ s.RegisteredFor sock c.roomId := fun sock =>
    hrec ▸ mem_recipients_iff hk hs.relays (by rw [hlock]; rfl)
  have hnone : ∀ sock, ¬ s.RegisteredFor sock c.roomId → c.put sock = [] := by
    intro sock hno
    rw [hput sock, if_neg fun hy => hno ((hmem sock).1 hy).2]
  refine ⟨hmoment, ⟨u, _, hlock⟩, ⟨name, fun sock hne hreg => ?_⟩, ?_, hnone, fun sock roomId hroom hne => ?_,
    fun sock h4 => ?_⟩
  · rw [hput sock, if_pos ((hmem sock).2 ⟨hne, hreg⟩)]
  · rw [hput t, if_neg fun hy => ((hmem t).1 hy).1 rfl]
  · exact hnone sock fun hreg => hne ((hs.room sock _ hreg).2 roomId hroom)
  · exact hnone sock fun hreg => h4 (hs.room sock _ hreg).1


/-- The notes, as the threads and the map of the rooms know them. -/
structure Routing (logs : ℕ → SessionLog H) (s : TCPServer H) : Prop where
  peers : ∃ k, Peers k s
  relays : Relays s
  joined : ∀ t roomId, (s.pc t).room = some roomId → (logs t).joined = some roomId
  mapped : ∀ playerId roomId, s.playerRoomMap[playerId]? = some roomId → ∃ t u,
    (s.pc t).peer = some u ∧ u.playerId = playerId ∧ (s.pc t).rank = 4 ∧ (logs t).joined = some roomId
  accepted : ∀ t, (logs t).accepted = (logs t).chats.map fun c => (c.roomId, c.msg)
  inHand : ∀ t, InHand (logs t) t (s.pc t)
  relayed : ∀ t, ∀ c ∈ (logs t).relayed, c.Delivered t

theorem Routing.mapsRooms {logs : ℕ → SessionLog H} (h : Routing logs s) : MapsRooms s := by
  refine ⟨h.peers, h.relays, fun t roomId hreg => ?_⟩
  obtain ⟨u, hu, hroom⟩ := hreg
  obtain ⟨t', u', hu', hid, h4, hjoined⟩ := h.mapped u.playerId roomId hroom
  obtain ⟨k, hk⟩ := h.peers
  obtain rfl := hk.distinct t' t u' u hu' hu hid
  refine ⟨h4, fun roomId' hroom' => ?_⟩
  exact Option.some.inj ((h.joined t' roomId' hroom').symm.trans hjoined)

/-! ## Steps -/

section

variable {logs : ℕ → SessionLog H} {t : ℕ} {env : Env} {pc : Pc} {r : pc.act.Result} {s₁ : TCPServer H}

/-- The room joined changes with a join, and when a thread leaves. -/
theorem SessionLog.note_joined (g : SessionLog H) (s s' : TCPServer H) (pc' : Pc) (hj : ∀ u roomId, pc ≠ .join u roomId)
    (hl : ∀ u, pc ≠ .leaveRoom u) : (g.note s s' pc pc').joined = g.joined := by
  cases pc with
  | join u roomId => exact absurd rfl (hj u roomId)
  | leaveRoom u => exact absurd rfl (hl u)
  | _ => rfl

/-- The chat in hand changes where there is one, or begins. -/
theorem SessionLog.note_inHand (g : SessionLog H) (s s' : TCPServer H) (pc' : Pc) (h : pc.chatting = false)
    (hb : ∀ u roomId n, pc ≠ .chatBody u roomId n) :
    (g.note s s' pc pc').inHand = g.inHand ∧ (g.note s s' pc pc').relayed = g.relayed := by
  cases pc with
  | chatBody u roomId n => exact absurd rfl (hb u roomId n)
  | chatSender _ _ _ | chatLock _ _ _ | relaying _ _ _ _ _ | chatUnlock _ _ => cases h
  | _ => exact ⟨rfl, rfl⟩

/-- No chat is forgotten. -/
theorem SessionLog.note_accepted {g : SessionLog H} (h : g.accepted = g.chats.map fun c => (c.roomId, c.msg))
    (hb : ∀ u roomId n, pc = .chatBody u roomId n → g.inHand = none) (s s' : TCPServer H) (pc' : Pc) :
    (g.note s s' pc pc').accepted = (g.note s s' pc pc').chats.map fun c => (c.roomId, c.msg) := by
  cases pc with
  | chatBody u roomId n =>
    have hnone := hb u roomId n rfl
    simp only [chats, hnone, Option.toList_none, List.append_nil] at h
    simp only [note, chats, List.map_append, h]
    cases pc'.chatRead <;> rfl
  | chatLock u roomId fullMsg =>
    refine h.trans ?_
    simp only [note, chats, List.map_append]
    cases g.inHand <;> rfl
  | relaying u roomId fullMsg sock rest =>
    refine h.trans ?_
    simp only [note, chats, List.map_append]
    cases g.inHand <;> rfl
  | chatUnlock u roomId => exact h.trans (by simp only [note, chats, Option.toList_none, List.append_nil])
  | _ => exact h

/-- The rooms joined after a step of a thread. -/
theorem Routing.joined_step (h : Routing logs s) (hpc : s.pc t = pc) :
    ∀ t' roomId, (Function.update s.pc t (pc.next r) t').room = some roomId →
      (Function.update logs t ((logs t).note s s' pc (pc.next r)) t').joined = some roomId := by
  intro t' roomId hroom
  by_cases ht : t' = t
  swap
  · rw [Function.update_of_ne ht] at hroom ⊢
    exact h.joined t' roomId hroom
  subst ht
  rw [Function.update_self] at hroom ⊢
  by_cases hjoin : ∃ u roomId', pc = .join u roomId'
  · obtain ⟨u, roomId', rfl⟩ := hjoin
    exact hroom
  · rcases Pc.room_of_next hroom with hold | ⟨u, rfl⟩
    · have hl : ∀ u, pc ≠ .leaveRoom u := by
        rintro u rfl
        cases hold
      rw [SessionLog.note_joined _ _ _ _ (fun u roomId' he => hjoin ⟨u, roomId', he⟩) hl]
      exact h.joined t' roomId (hpc ▸ hold)
    · exact absurd ⟨u, roomId, rfl⟩ hjoin

/-- The map of the rooms after a step of a thread. -/
theorem Routing.mapped_step (h : Routing logs s) (hpc : s.pc t = pc)
    (hp : s.perform hd t env pc.act = some (r, s₁)) :
    ∀ playerId roomId, s₁.playerRoomMap[playerId]? = some roomId → ∃ t' u,
      (Function.update s.pc t (pc.next r) t').peer = some u ∧ u.playerId = playerId ∧
        (Function.update s.pc t (pc.next r) t').rank = 4 ∧
          (Function.update logs t ((logs t).note s s' pc (pc.next r)) t').joined = some roomId := by
  intro playerId roomId hroom
  rcases roomMap_step hp hroom with ⟨u, rfl, rfl⟩ | ⟨hold, hne⟩
  · refine ⟨t, u, ?_⟩
    rw [Function.update_self, Function.update_self]
    exact ⟨rfl, rfl, rfl, h.joined t roomId (by rw [hpc]; rfl)⟩
  · obtain ⟨t', u, hu, rfl, h4, hjoined⟩ := h.mapped playerId roomId hold
    refine ⟨t', u, ?_⟩
    by_cases ht : t' = t
    · subst ht
      rw [hpc] at hu h4
      have hl : ∀ u', pc ≠ .leaveRoom u' := by
        rintro u' rfl
        exact hne u' rfl (by rw [Option.some.inj hu])
      have hj : ∀ u' roomId', pc ≠ .join u' roomId' := by
        rintro u' roomId' rfl
        cases h4
      obtain ⟨h4', hu'⟩ := pc.next_inRoom h4 hl r
      rw [Function.update_self, Function.update_self, SessionLog.note_joined _ _ _ _ hj hl]
      exact ⟨hu'.trans hu, rfl, h4', hjoined⟩
    · rw [Function.update_of_ne ht, Function.update_of_ne ht]
      exact ⟨hu, rfl, h4, hjoined⟩

/-- What a relay puts on the sockets. -/
theorem sent_put {sock : ℕ} (hopen : s.isOpen sock = true) (b : Block) (k : ℕ) :
    ((s.put sock b).sent k).drop (s.sent k).length = if k = sock then [b] else [] := by
  rw [put_of_open hopen]
  by_cases hk : k = sock
  · subst hk
    simp
  · simp [hk]

/-- A chat is put on the next socket. -/
theorem Relaying.put_next {c : Chat H} {u : Peer} {roomId : ℤ} {fullMsg : List UInt8} {ys rest : List ℕ} {sock : ℕ}
    {s₀ : TCPServer H} (h : Relaying c t u roomId fullMsg ys (sock :: rest) s₀) (hs : MapsRooms s₀)
    {put : ℕ → List Block} (hput : ∀ k, put k = if k = sock then [.chatMessage fullMsg] else []) :
    Relaying { c with put := fun k => c.put k ++ put k } t u roomId fullMsg (ys ++ [sock]) rest s₀ := by
  refine ⟨h.room, h.text, h.moment, h.locking, ?_, fun k => ?_⟩
  · rw [h.recipients, List.append_assoc, List.singleton_append]
  · show c.put k ++ put k = _
    have hnodup : (ys ++ sock :: rest).Nodup := h.recipients ▸ nodup_recipients hs.relays u.playerId roomId
    have hnew : sock ∉ ys := fun hy => List.disjoint_of_nodup_append hnodup hy List.mem_cons_self
    rw [h.put k, hput k]
    by_cases hk : k = sock
    · subst hk
      simp [hnew]
    · simp [hk]

/-- The chat in hand after a step of its thread. -/
theorem Routing.inHand_self (h : Routing logs s) (hpc : s.pc t = pc)
    (hopen : ∀ sock ∈ pc.target, s.isOpen sock = true) (hp : s.perform hd t env pc.act = some (r, s₁))
    (hsent : s'.sent = s₁.sent) :
    InHand ((logs t).note s s' pc (pc.next r)) t (pc.next r) ∧
      ∀ c ∈ ((logs t).note s s' pc (pc.next r)).relayed, c.Delivered t := by
  have hold := h.inHand t
  have hrelayed := h.relayed t
  rw [hpc] at hold
  by_cases hother : pc.chatting = false ∧ ∀ u roomId n, pc ≠ .chatBody u roomId n
  · -- the thread has no chat, and reads none
    obtain ⟨hno, hbody⟩ := hother
    obtain ⟨hg, hdone⟩ := (logs t).note_inHand s s' (pc.next r) hno hbody
    rw [inHand_of_not_chatting (Pc.chatting_next hno hbody r), hg, hdone]
    exact ⟨(inHand_of_not_chatting hno).1 hold, hrelayed⟩
  cases pc with
  | chatBody u roomId n =>
    refine ⟨?_, hrelayed⟩
    simp only [Pc.next]
    split <;> rfl
  | chatSender u roomId msg =>
    have r : Option (List UInt8) := r
    exact ⟨⟨_, msg, rfl, hold⟩, hrelayed⟩
  | chatLock u roomId fullMsg =>
    obtain ⟨name, msg, htext, hg⟩ := hold
    have hr : s.locked (s.recipients u.playerId roomId, { s with serverMutex := some t }) = some (r, s₁) := hp
    unfold locked at hr
    split at hr
    · obtain ⟨rfl, -⟩ := Prod.mk.inj (Option.some.inj hr)
      have hc : Relaying ⟨roomId, msg, some s, fun _ => []⟩ t u roomId fullMsg [] (s.recipients u.playerId roomId) s :=
        ⟨rfl, ⟨name, htext⟩, rfl, hpc, rfl, fun k => (if_neg List.not_mem_nil).symm⟩
      refine ⟨inHand_relayTo ?_ h.mapsRooms hc, hrelayed⟩
      simp only [SessionLog.note, hg, Option.map_some]
    · cases hr
  | relaying u roomId fullMsg sock rest =>
    obtain ⟨c, ys, s₀, hg, hs₀, hc⟩ := hold
    obtain ⟨-, rfl⟩ := Prod.mk.inj (Option.some.inj hp)
    have hput := sent_put (hopen sock rfl) (.chatMessage fullMsg)
    refine ⟨inHand_relayTo ?_ hs₀ (hc.put_next hs₀ hput), hrelayed⟩
    simp only [SessionLog.note, hg, Option.map_some, hsent]
  | chatUnlock u roomId =>
    obtain ⟨c, ys, fullMsg, s₀, hg, hs₀, hc⟩ := hold
    refine ⟨rfl, fun c' hc' => ?_⟩
    have hmem : c' ∈ (logs t).relayed ++ (logs t).inHand.toList := hc'
    rw [hg] at hmem
    rcases List.mem_append.1 hmem with hmem | hmem
    · exact hrelayed c' hmem
    · obtain rfl := List.mem_singleton.1 hmem
      exact ⟨s₀, hc.delivered hs₀⟩
  | _ => exact absurd ⟨rfl, fun _ _ _ he => by cases he⟩ hother

/-- The notes after a step of a thread. -/
theorem Routing.thread (h : Routing logs s) (hpeers : ∃ k, Peers k s') (hrelays : Relays s') (hpc : s.pc t = pc)
    (hopen : ∀ sock ∈ pc.target, s.isOpen sock = true) (hp : s.perform hd t env pc.act = some (r, s₁))
    (hs' : s' = { s₁ with pc := Function.update s₁.pc t (pc.next r) }) :
    Routing (Function.update logs t ((logs t).note s s' pc (pc.next r))) s' := by
  have hpc' : s'.pc = Function.update s.pc t (pc.next r) := by
    rw [hs', ← (perform_frame hp).1]
  have hmap : s'.playerRoomMap = s₁.playerRoomMap := by rw [hs']
  have hsent : s'.sent = s₁.sent := by rw [hs']
  have hself := h.inHand_self hpc hopen hp hsent
  refine ⟨hpeers, hrelays, hpc' ▸ h.joined_step hpc, ?_, fun t' => ?_, fun t' => ?_, fun t' => ?_⟩
  · rw [hpc', hmap]
    exact h.mapped_step hpc hp
  · by_cases ht : t' = t
    · subst ht
      rw [Function.update_self]
      refine SessionLog.note_accepted (h.accepted t') (fun u roomId n he => ?_) s s' (pc.next r)
      have hold := h.inHand t'
      rwa [hpc, he] at hold
    · rw [Function.update_of_ne ht]
      exact h.accepted t'
  · rw [hpc']
    by_cases ht : t' = t
    · subst ht
      rw [Function.update_self, Function.update_self]
      exact hself.1
    · rw [Function.update_of_ne ht, Function.update_of_ne ht]
      exact h.inHand t'
  · by_cases ht : t' = t
    · subst ht
      rw [Function.update_self]
      exact hself.2
    · rw [Function.update_of_ne ht]
      exact h.relayed t'

/-- A new connection has joined no room and has no chat in hand. -/
theorem Routing.accept {k : ℕ} (h : Routing logs s) (hk : Peers k s) (hpeers : ∃ k, Peers k s') (hrelays : Relays s')
    (hpc' : s'.pc = Function.update s.pc s.accepted .handshake) (hmap : s'.playerRoomMap = s.playerRoomMap) :
    Routing logs s' := by
  have hdone : s.pc s.accepted = .done := hk.later s.accepted (Nat.le_refl _)
  refine ⟨hpeers, hrelays, fun t roomId hroom => ?_, fun playerId roomId hroom => ?_, h.accepted, fun t => ?_,
    h.relayed⟩
  · rw [hpc'] at hroom
    by_cases ht : t = s.accepted
    · subst ht
      rw [Function.update_self] at hroom
      cases hroom
    · rw [Function.update_of_ne ht] at hroom
      exact h.joined t roomId hroom
  · rw [hmap] at hroom
    obtain ⟨t, u, hu, hid, h4, hjoined⟩ := h.mapped playerId roomId hroom
    have ht : t ≠ s.accepted := by
      rintro rfl
      rw [hdone] at h4
      cases h4
    refine ⟨t, u, ?_⟩
    rw [hpc', Function.update_of_ne ht]
    exact ⟨hu, hid, h4, hjoined⟩
  · rw [hpc']
    by_cases ht : t = s.accepted
    · subst ht
      have hold := h.inHand s.accepted
      rw [hdone] at hold
      rw [Function.update_self]
      exact hold
    · rw [Function.update_of_ne ht]
      exact h.inHand t

end

/-- **Every step keeps the notes as the threads know them.** -/
theorem routing_step {logs : ℕ → SessionLog H} {l : Label ε} (h : Routing logs s) (hC : RelaysWritten s l)
    (hs : (machine hd ext).step s l = some s') : Routing (watch logs s l s') s' := by
  obtain ⟨k, hk⟩ := h.peers
  obtain ⟨hlt, hopen⟩ := hC
  obtain ⟨k', -, hk'⟩ := peers_step hk hs hlt
  have hrelays := relays_step hk h.relays hs
  rcases step_cases hs with ⟨rfl, rfl⟩ | ⟨t, env, pc, r, s₁, rfl, hpc, hp, hs'⟩ | ⟨playerId, rfl, -, rfl⟩ |
    ⟨sock, rfl, rfl⟩ | ⟨e, rfl, rfl⟩
  · exact h.accept hk ⟨k', hk'⟩ hrelays rfl rfl
  · -- only the notes of the thread that steps change
    have hnote : watch logs s (.thread t env : Label ε) s' =
        Function.update logs t ((logs t).note s s' pc (pc.next r)) := by
      have hpc' : s'.pc t = pc.next r := by
        subst hs'
        exact Function.update_self ..
      rw [watch, hpc', hpc]
    have htarget : ∀ sock ∈ pc.target, s.isOpen sock = true := by
      intro sock hm
      refine hopen sock ?_
      rw [Label.relaysTo, hpc]
      exact hm
    rw [hnote]
    exact h.thread ⟨k', hk'⟩ hrelays hpc htarget hp hs'
  · rw [kickPlayer_eq] at hk' hrelays ⊢
    exact ⟨⟨k', hk'⟩, hrelays, h.joined, h.mapped, h.accepted, h.inHand, h.relayed⟩
  · exact ⟨⟨k', hk'⟩, hrelays, h.joined, h.mapped, h.accepted, h.inHand, h.relayed⟩
  · exact ⟨⟨k', hk'⟩, hrelays, h.joined, h.mapped, h.accepted, h.inHand, h.relayed⟩

theorem routing_init (h : H) : Routing (fun _ => .start) (init h) where
  peers := ⟨0, peers_init h⟩
  relays := relays_init h
  joined := fun _ _ hroom => nomatch hroom
  mapped := fun playerId roomId hroom => absurd (Std.TreeMap.getElem?_emptyc.symm.trans hroom) (by simp)
  accepted := fun _ => rfl
  inHand := fun _ => rfl
  relayed := fun _ _ hc => absurd hc List.not_mem_nil

/-- Every chat that thread `t` read whole was delivered, except the last while the thread has
it in hand. -/
structure Delivers (logs : ℕ → SessionLog H) (s : TCPServer H) (t : ℕ) : Prop where
  accepted : (logs t).accepted = (logs t).chats.map fun c => (c.roomId, c.msg)
  inHand : (s.pc t).chatting = false → (logs t).inHand = none
  relayed : ∀ c ∈ (logs t).relayed, c.Delivered t

/-- The map has a player in a room only from the join of that room to the section after the
return from `handleInRoomClient`. -/
def MapsWhileJoined (logs : ℕ → SessionLog H) (s : TCPServer H) : Prop :=
  ∀ playerId roomId, s.playerRoomMap[playerId]? = some roomId → ∃ t u,
    (s.pc t).peer = some u ∧ u.playerId = playerId ∧ (logs t).joined = some roomId ∧
      ((s.pc t).room = some roomId ∨ s.pc t = .leaveRoom u)

/-- **Chats reach the other sessions of the room, and nobody else.** The run is any in which
no id is handed out twice and a chat is relayed to open sockets. -/
theorem chats_delivered (hd : ITCPHandler H) (ext : ε → H → H) (h : H) (labels : List (Label ε)) (s : TCPServer H)
    (hC : (machine hd ext).Along RelaysWritten (init h) labels) (hr : (machine hd ext).run (init h) labels = some s) :
    (∀ t, Delivers ((machine hd ext).observe watch (fun _ => .start) (init h) labels) s t) ∧
      MapsWhileJoined ((machine hd ext).observe watch (fun _ => .start) (init h) labels) s := by
  have hrouting := Machine.inv_observe_along (M := machine hd ext) (C := RelaysWritten) (J := Routing)
    (fun _ _ _ _ h hC hs => routing_step h hC hs) labels _ _ s (routing_init h) hC hr
  refine ⟨fun t => ⟨hrouting.accepted t, fun hno => ?_, hrouting.relayed t⟩, fun playerId roomId hroom => ?_⟩
  · exact (inHand_of_not_chatting hno).1 (hrouting.inHand t)
  · obtain ⟨t, u, hu, hid, h4, hjoined⟩ := hrouting.mapped playerId roomId hroom
    refine ⟨t, u, hu, hid, hjoined, ?_⟩
    rcases Pc.room_of_rank h4 hu with ⟨roomId', hroom'⟩ | hleave
    · have hsame := (hrouting.joined t roomId' hroom').symm.trans hjoined
      exact .inl (hsame ▸ hroom')
    · exact .inr hleave

/-- Clients `A` and `B` are in one room, and `A` sends a chat. -/
def chattedRun : List (Label ServerManager.Event) := chatRun ++ [readsAt 0 []]

theorem chats_delivered_chattedRun : ∃ s : TCPServer (ServerManager Float32),
    rooms.run (init ServerManager.init) chattedRun = some s ∧
      ((rooms (F := Float32)).observe watch (fun _ => .start) (init ServerManager.init) chattedRun 0).accepted =
        [(0, [72, 105])] ∧
      (s.pc 0).chatting = false ∧
      ∀ t, Delivers ((rooms (F := Float32)).observe watch (fun _ => .start) (init ServerManager.init) chattedRun) s t := by
  obtain ⟨s, hrun, hidle⟩ : ∃ s : TCPServer (ServerManager Float32),
      rooms.run (init ServerManager.init) chattedRun = some s ∧ (s.pc 0).chatting = false := ⟨_, rfl, rfl⟩
  have hdelivered := chats_delivered ServerManager.handler ServerManager.react ServerManager.init chattedRun s
    (by decide +kernel) hrun
  exact ⟨s, hrun, by decide +kernel, hidle, hdelivered.1⟩

/-! ## When the ids wrap -/

section Wrap

variable {H : Type*}

theorem locked_of_free {s : TCPServer H} {α : Type*} (hm : s.serverMutex = none) (x : α) : s.locked x = some x :=
  if_pos hm

variable {F : Type*} [FloatOps F]

/-- The next connection gets into the lobby. -/
theorem run_connects {s : TCPServer (ServerManager F)} (hm : s.serverMutex = none) :
    ∃ s', rooms.run s (connects s.accepted 67) = some s' ∧ s'.serverMutex = none ∧
      s'.accepted = s.accepted + 1 ∧ s'.nextPlayerId = s.nextPlayerId + 1 ∧
      s'.playerSockets = s.playerSockets.insert s.nextPlayerId s.accepted ∧ s'.playerRoomMap = s.playerRoomMap ∧
      s'.pc = Function.update s.pc s.accepted (.lobby ⟨s.nextPlayerId, [67]⟩) ∧ s'.isOpen s.accepted = true := by
  have hopen : (Function.update s.isOpen s.accepted true) s.accepted = true := Function.update_self ..
  have hstand : ∀ (f : ℕ → Pc) (pc : Pc), Function.update f s.accepted pc s.accepted = pc := fun _ _ => Function.update_self ..
  simp only [connects, List.replicate, Machine.run_cons_iff]
  refine ⟨_, ⟨_, rfl, _, step_of_perform .handshake ⟨1 :: 67 :: List.replicate 31 0, none, []⟩ (hstand _ _)
    (if_pos ⟨rfl, .inl hopen⟩), _, step_of_perform (.takePlayerId [67]) _ (hstand _ _) rfl,
    _, step_of_perform (.register ⟨s.nextPlayerId, [67]⟩) _ (hstand _ _) (locked_of_free hm _),
    _, step_of_perform (.connectTime ⟨s.nextPlayerId, [67]⟩) _ (hstand _ _) rfl,
    _, step_of_perform (.connectOk ⟨s.nextPlayerId, [67]⟩ 0) _ (hstand _ _) rfl, rfl⟩, ?_⟩
  have hput : ∀ (s' : TCPServer (ServerManager F)) b, s'.isOpen s.accepted = true → s'.put s.accepted b =
      { s' with sent := Function.update s'.sent s.accepted (s'.sent s.accepted ++ [b]) } := fun s' b ho => put_of_open ho b
  simp [hput, hm, Pc.next, Function.update_idem]

/-- A client connects and leaves from the lobby. -/
def visit (t : ℕ) : List (Label ServerManager.Event) :=
  connects t 67 ++ .thread t ⟨⟨[], some .eof, []⟩, 0, ⟨0, 0⟩⟩ :: List.replicate 2 (readsAt t [])

/-- One client after the other connects and leaves, the first on thread `t`. -/
def visits : ℕ → ℕ → List (Label ServerManager.Event)
  | _, 0 => []
  | t, n + 1 => visit t ++ visits (t + 1) n

/-- What `n` clients that are gone leave behind. -/
structure Visited (n : ℕ) (s s' : TCPServer H) : Prop where
  mutex : s'.serverMutex = none
  accepted : s'.accepted = s.accepted + n
  next : s'.nextPlayerId = s.nextPlayerId + UInt32.ofNat n
  sockets : ∀ playerId : UInt32, s'.playerSockets[playerId]? = s.playerSockets[playerId]?
  roomMap : s'.playerRoomMap = s.playerRoomMap
  pc : ∀ t < s.accepted, s'.pc t = s.pc t

theorem run_visit {s : TCPServer (ServerManager F)} (hm : s.serverMutex = none)
    (hfree : s.playerSockets[s.nextPlayerId]? = none) :
    ∃ s', rooms.run s (visit s.accepted) = some s' ∧ Visited 1 s s' := by
  obtain ⟨s₁, hrun, hm₁, haccepted, hnext, hsockets, hmap, hpc, -⟩ := run_connects hm
  have hlobby : s₁.pc s.accepted = .lobby ⟨s.nextPlayerId, [67]⟩ := by rw [hpc, Function.update_self]
  have hstand : ∀ (f : ℕ → Pc) (pc : Pc), Function.update f s.accepted pc s.accepted = pc := fun _ _ =>
    Function.update_self ..
  simp only [visit, Machine.run_append_iff, Machine.run_cons_iff, List.replicate]
  refine ⟨_, ⟨s₁, hrun, _, step_of_perform (.lobby ⟨s.nextPlayerId, [67]⟩) ⟨[], some .eof, []⟩ hlobby
    (if_pos ⟨by decide, .inr (by decide)⟩), _, step_of_perform (.unregister ⟨s.nextPlayerId, [67]⟩) _ (hstand _ _)
    (locked_of_free hm₁ _), _, step_of_perform .close _ (hstand _ _) rfl, rfl⟩, ?_⟩
  refine ⟨hm₁, haccepted, hnext, fun playerId => ?_, hmap, fun t ht => ?_⟩
  · simp only [hsockets, Maps.getElem?_erase, Maps.getElem?_insert]
    split
    · rename_i he
      rw [he, hfree]
    · rfl
  · have hne : t ≠ s.accepted := Nat.ne_of_lt ht
    simp only [Function.update_of_ne hne, hpc]

theorem run_visits (n : ℕ) {s : TCPServer (ServerManager F)} (hm : s.serverMutex = none)
    (hfree : ∀ i < n, s.playerSockets[s.nextPlayerId + UInt32.ofNat i]? = none) :
    ∃ s', rooms.run s (visits s.accepted n) = some s' ∧ Visited n s s' := by
  induction n generalizing s with
  | zero => exact ⟨s, rfl, hm, rfl, (UInt32.add_zero _).symm, fun _ => rfl, rfl, fun _ _ => rfl⟩
  | succ n ih =>
    obtain ⟨s₁, hrun, h₁⟩ := run_visit hm (by simpa using hfree 0 (Nat.succ_pos n))
    have hfree₁ : ∀ i < n, s₁.playerSockets[s₁.nextPlayerId + UInt32.ofNat i]? = none := by
      intro i hi
      have hnext : s₁.nextPlayerId + UInt32.ofNat i = s.nextPlayerId + UInt32.ofNat (i + 1) := by
        rw [h₁.next, UInt32.add_assoc, Nat.add_comm i 1, UInt32.ofNat_add]
      rw [h₁.sockets, hnext]
      exact hfree (i + 1) (by omega)
    obtain ⟨s', hrun', h'⟩ := ih h₁.mutex hfree₁
    refine ⟨s', (Machine.run_append_iff _).2 ⟨s₁, hrun, h₁.accepted ▸ hrun'⟩, h'.mutex, ?_, ?_, fun playerId => ?_,
      h'.roomMap.trans h₁.roomMap, fun t ht => ?_⟩
    · rw [h'.accepted, h₁.accepted]
      omega
    · rw [h'.next, h₁.next, UInt32.add_assoc, Nat.add_comm n 1, UInt32.ofNat_add]
    · rw [h'.sockets, h₁.sockets]
    · rw [h'.pc t (by rw [h₁.accepted]; omega), h₁.pc t ht]

/-- Clients `A` and `B`, with ids 1 and 2, are in one room. `B` is about to relay a chat. -/
def pairRun : List (Label ServerManager.Event) :=
  connects 0 65 ++ connects 1 66 ++ readsAt 0 [6] :: List.replicate 2 (readsAt 0 []) ++ joins 0 ++ joins 1 ++
    [readsAt 1 [14], readsAt 1 [2, 0], readsAt 1 [72, 105], readsAt 1 []]

/-- Then all other ids are used up, and the next client is in the lobby with id 1. -/
def wrapRun : List (Label ServerManager.Event) :=
  pairRun ++ visits 2 (2 ^ 32 - 2) ++ connects (2 ^ 32) 67

/-- Every id but 1 and 2 is free before it comes round. -/
theorem wrap_free {m : Std.TreeMap UInt32 ℕ} (hm : m = ((∅ : Std.TreeMap UInt32 ℕ).insert 1 0).insert 2 1) {i : ℕ}
    (hi : i < 2 ^ 32 - 2) : m[(3 : UInt32) + UInt32.ofNat i]? = none := by
  have hne : ∀ playerId : UInt32, 1 ≤ playerId.toNat → playerId.toNat ≤ 2 → (3 : UInt32) + UInt32.ofNat i ≠ playerId := by
    intro playerId h1 h2 he
    have hid := congrArg UInt32.toNat he
    have hsize : UInt32.size = 2 ^ 32 := rfl
    rw [UInt32.toNat_add, UInt32.toNat_ofNat_of_lt' (by omega)] at hid
    have h3 : UInt32.toNat 3 = 3 := rfl
    omega
  rw [hm, Maps.getElem?_insert, if_neg (hne 2 (by decide) (by decide)), Maps.getElem?_insert,
    if_neg (hne 1 (by decide) (by decide))]
  exact Std.TreeMap.getElem?_emptyc

/-- A chat that has one recipient. -/
theorem run_relay {s : TCPServer (ServerManager F)} {t sock : ℕ} {u : Peer} {roomId : ℤ} {fullMsg : List UInt8}
    (hpc : s.pc t = .chatLock u roomId fullMsg) (hm : s.serverMutex = none)
    (hrec : s.recipients u.playerId roomId = [sock]) (hopen : s.isOpen sock = true) :
    ∃ s', rooms.run s [readsAt t [], readsAt t []] = some s' ∧
      s'.sent sock = s.sent sock ++ [.chatMessage fullMsg] := by
  have hstand : ∀ (f : ℕ → Pc) (pc : Pc), Function.update f t pc t = pc := fun _ _ => Function.update_self ..
  have hlocked : s.locked (s.recipients u.playerId roomId, { s with serverMutex := some t }) =
      some ([sock], { s with serverMutex := some t }) := by rw [locked_of_free hm, hrec]
  simp only [Machine.run_cons_iff]
  refine ⟨_, ⟨_, step_of_perform (.chatLock u roomId fullMsg) [sock] hpc hlocked, _,
    step_of_perform (.relaying u roomId fullMsg sock []) _ (hstand _ _) rfl, rfl⟩, ?_⟩
  simp only [put, hopen, if_true, Function.update_self]

/-- In the end a chat in the room has one recipient, which is in the lobby. -/
theorem exists_wrapRun : ∃ s : TCPServer (ServerManager Float32), rooms.run (init ServerManager.init) wrapRun = some s ∧
    s.serverMutex = none ∧ s.pc 1 = .chatLock ⟨2, [66]⟩ 0 [66, 58, 32, 72, 105] ∧ s.recipients 2 0 = [2 ^ 32] ∧
      s.pc (2 ^ 32) = .lobby ⟨1, [67]⟩ ∧ s.isOpen (2 ^ 32) = true := by
  obtain ⟨s₀, hrun₀, haccepted, hnext, hm, hpc, hsockets, hmap⟩ : ∃ s₀ : TCPServer (ServerManager Float32),
      rooms.run (init ServerManager.init) pairRun = some s₀ ∧ s₀.accepted = 2 ∧ s₀.nextPlayerId = 3 ∧
        s₀.serverMutex = none ∧ s₀.pc 1 = .chatLock ⟨2, [66]⟩ 0 [66, 58, 32, 72, 105] ∧
        s₀.playerSockets = ((∅ : Std.TreeMap UInt32 ℕ).insert 1 0).insert 2 1 ∧
        s₀.playerRoomMap = ((∅ : Std.TreeMap UInt32 ℤ).insert 1 0).insert 2 0 :=
    ⟨_, rfl, rfl, rfl, rfl, rfl, rfl, rfl⟩
  obtain ⟨s₁, hrun₁, h₁⟩ := run_visits (2 ^ 32 - 2) hm fun i hi => hnext ▸ wrap_free hsockets hi
  obtain ⟨s, hrun, hm', -, -, hsockets', hmap', hpc', hopen⟩ := run_connects h₁.mutex
  have hlast : s₁.accepted = 2 ^ 32 := by
    rw [h₁.accepted, haccepted]
    decide
  have hid : s₁.nextPlayerId = 1 := by
    rw [h₁.next, hnext]
    decide
  rw [haccepted] at hrun₁
  rw [hlast] at hrun hsockets' hpc' hopen
  have hwrap : rooms.run (init ServerManager.init) wrapRun = some s :=
    (Machine.run_append_iff _).2 ⟨s₁, (Machine.run_append_iff _).2 ⟨s₀, hrun₀, hrun₁⟩, hrun⟩
  have hlock : s.pc 1 = .chatLock ⟨2, [66]⟩ 0 [66, 58, 32, 72, 105] := by
    rw [hpc', Function.update_of_ne (by decide), h₁.pc 1 (by rw [haccepted]; decide), hpc]
  have hrec : s.recipients 2 0 = [2 ^ 32] := by
    have hequiv : s.playerSockets.Equiv ((((∅ : Std.TreeMap UInt32 ℕ).insert 1 0).insert 2 1).insert 1 (2 ^ 32)) := by
      rw [hsockets', hid, ← hsockets]
      exact .insert (.of_forall_constGet?_eq h₁.sockets) 1 (2 ^ 32)
    rw [recipients, hequiv.toList_eq, hmap', h₁.roomMap, hmap]
    rfl
  exact ⟨s, hwrap, hm', hlock, hrec, by rw [hpc', Function.update_self, hid], hopen⟩

/-- Thread 0 reads the end of its stream in a room, and returns from `handleInRoomClient`. -/
def leaveRun : List (Label ServerManager.Event) := joinRun ++ [readsEof, reads []]

/-- The map has a player in a room only from the join of that room to the return from
`handleInRoomClient`. -/
def MapsWhileInRoom (s : TCPServer H) : Prop :=
  ∀ playerId roomId, s.playerRoomMap[playerId]? = some roomId → ∃ t u,
    (s.pc t).peer = some u ∧ u.playerId = playerId ∧ (s.pc t).room = some roomId

/-- **A thread returns before its entry is erased, and the ids wrap.** After `leaveRun` the
map has a player in a room that it has left; after `wrapRun` a chat in the room is relayed to a
client in the lobby. -/
theorem leaveRun_wrapRun :
    (∃ s : TCPServer (ServerManager Float32), rooms.run (init ServerManager.init) leaveRun = some s ∧
      ¬ MapsWhileInRoom s) ∧
    ∃ s s' : TCPServer (ServerManager Float32), rooms.run (init ServerManager.init) wrapRun = some s ∧
      s.isOpen (2 ^ 32) = true ∧ rooms.run s [readsAt 1 [], readsAt 1 []] = some s' ∧
        ∃ u u' fullMsg, s.pc 1 = .chatLock u 0 fullMsg ∧ s.pc (2 ^ 32) = .lobby u' ∧
          s'.sent (2 ^ 32) = s.sent (2 ^ 32) ++ [.chatMessage fullMsg] := by
  constructor
  · refine ⟨_, rfl, fun h => ?_⟩
    obtain ⟨t, u, -, -, hroom⟩ := h 1 0 rfl
    rcases t with _ | t <;> cases hroom
  · obtain ⟨s, hrun, hm, hpc, hrec, hlobby, hopen⟩ := exists_wrapRun
    obtain ⟨s', hrelay, hsent⟩ := run_relay hpc hm hrec hopen
    exact ⟨s, s', hrun, hopen, hrelay, _, _, _, hpc, hlobby, hsent⟩

end Wrap

end TCPServer

end RType

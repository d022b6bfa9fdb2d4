import RType.Lib.Framing
import RType.Proof.Isolation
import RType.Proof.Relays

/-!
# What the clients are sent over TCP

A reply with records is written block by block without a lock, and a chat is relayed to the
same socket by another thread.

* `framed_iff`: all sockets hold whole frames throughout a run if and only if no chat is
  relayed to a socket whose own thread has a record to write next, or is too long for its
  length field. The record can only be one of a `LOBBY_STATE_RESPONSE`.
* `not_framed_chat`: a chat between the header and the records of a `LOBBY_STATE_RESPONSE`.
-/

namespace RType

open Lts Framing

/-! ## The format -/

/-- The number of records a block announces, or none if it is a record. -/
def Block.head : Block → Option ℕ
  | roomInfo _ _ _ | lobbyPlayerInfo _ _ => none
  | listRoomsResponse count => some count
  | lobbyStateResponse _ playerCount => some playerCount
  | _ => some 0

/-- The length field of a chat says how long it is. -/
def ServerFrame.Fits : ServerFrame → Prop
  | chatMessage fullMsg => fullMsg.length < 65536
  | _ => True

/-- The messages of the server. -/
def serverFormat : Format Block { f : ServerFrame // f.Fits } where
  blocks f := f.1.blocks
  head := Block.head
  frame := by
    rintro ⟨f, hf⟩
    cases f with
    | listRoomsResponse rooms =>
      refine ⟨_, _, rfl, by simp [Block.head], ?_⟩
      intro r hr
      obtain ⟨room, -, rfl⟩ := List.mem_map.1 hr
      rfl
    | lobbyStateResponse hostId players =>
      refine ⟨_, _, rfl, by simp [Block.head], ?_⟩
      intro r hr
      obtain ⟨p, -, rfl⟩ := List.mem_map.1 hr
      rfl
    | _ => exact ⟨_, [], rfl, rfl, fun r hr => nomatch hr⟩

/-- The blocks of the frame in progress that a thread has still to write to its own socket. -/
def Pc.unfinished : Pc → List Block
  | connectOk u serverTimeMs => [.connectResponse u.playerId 5252 serverTimeMs]
  | lobbyWrites _ b rest | roomWrites _ _ b rest => b :: rest
  | joinReply _ _ success => [.joinRoomResponse (if success then 1 else 0)]
  | _ => []

/-- The next thing a thread writes is a record of a `LOBBY_STATE_RESPONSE` or a
`LIST_ROOMS_RESPONSE`. -/
def Pc.midFrame (pc : Pc) : Prop := ∃ b ∈ pc.unfinished.head?, b.head = none

namespace Pc

@[simp] theorem relayTo_unfinished (u : Peer) (roomId : ℤ) (fullMsg : List UInt8) (socks : List ℕ) :
    (relayTo u roomId fullMsg socks).unfinished = [] := by
  cases socks <;> rfl

/-- A write is the next block of the frame in progress. -/
theorem unfinished_of_write {pc : Pc} {b : Block} (h : pc.act = .write b) (r : pc.act.Result) :
    pc.unfinished = b :: (pc.next r).unfinished := by
  have hmoves := pc.moves_next r
  generalize pc.next r = pc' at hmoves ⊢
  cases hmoves with
  | failed | welcomed | lobbyWrote | lobbyReplied | turnedAway | letIn | roomWrote | roomReplied =>
    cases h
    rfl
  | _ => cases h

/-- A thread that writes nothing has nothing in progress, and may begin a frame. -/
theorem unfinished_next {pc : Pc} (h : ∀ b, pc.act ≠ .write b) (r : pc.act.Result) :
    pc.unfinished = [] ∧
      ((pc.next r).unfinished = [] ∨ ∃ f, (pc.next r).unfinished = serverFormat.blocks f) := by
  have hmoves := pc.moves_next r
  generalize pc.next r = pc' at hmoves ⊢
  cases hmoves with
  | failed | welcomed | lobbyWrote | lobbyReplied | turnedAway | letIn | roomWrote | roomReplied => exact absurd rfl (h _)
  | timed u serverTimeMs => exact ⟨rfl, .inr ⟨⟨.connectResponse u.playerId 5252 serverTimeMs, trivial⟩, rfl⟩⟩
  | listed u rooms hf => exact ⟨rfl, .inr ⟨⟨.listRoomsResponse rooms, trivial⟩, hf.symm⟩⟩
  | created u roomId hf => exact ⟨rfl, .inr ⟨⟨.createRoomResponse roomId, trivial⟩, hf.symm⟩⟩
  | joined u roomId success => exact ⟨rfl, .inr ⟨⟨.joinRoomResponse _, trivial⟩, rfl⟩⟩
  | starting u roomId hf => exact ⟨rfl, .inr ⟨⟨.gameStartingNotification, trivial⟩, hf.symm⟩⟩
  | answered u roomId hostId players hf => exact ⟨rfl, .inr ⟨⟨.lobbyStateResponse hostId players, trivial⟩, hf.symm⟩⟩
  | _ => exact ⟨rfl, .inl rfl⟩

end Pc

namespace TCPServer

variable {H ε : Type*} {hd : ITCPHandler H} {ext : ε → H → H} {s s' : TCPServer H}

/-- Every socket was sent whole frames, but for the end of the frame that its own thread is
writing. On a closed socket that end is lost. -/
def Framed (s : TCPServer H) : Prop :=
  ∀ t, ∃ fs rest, s.sent t ++ rest = serverFormat.stream fs ∧ (s.isOpen t = true → rest = (s.pc t).unfinished)

/-- A chat is relayed to an open socket only between two frames, and only if its length
fits. -/
def RelaysWhole (s : TCPServer H) (l : Label ε) : Prop :=
  ∀ t env u roomId fullMsg sock rest, l = .thread t env → s.pc t = .relaying u roomId fullMsg sock rest →
    s.isOpen sock = true → fullMsg.length < 65536 ∧ ¬ (s.pc sock).midFrame

/-- The invariant: what an open socket was sent, and what its thread has in progress. -/
structure Writing (s : TCPServer H) : Prop where
  opened : ∀ t, s.isOpen t = true → serverFormat.Splits (s.sent t) (s.pc t).unfinished
  closed : ∀ t, s.isOpen t = false → ∃ fs rest, s.sent t ++ rest = serverFormat.stream fs
  later : ∀ t, s.accepted ≤ t → s.isOpen t = false ∧ s.sent t = []

theorem Writing.framed (h : Writing s) : s.Framed := by
  intro t
  cases ho : s.isOpen t with
  | true =>
    obtain ⟨fs, hfs⟩ := (h.opened t ho).whole
    exact ⟨fs, _, hfs.symm, fun _ => rfl⟩
  | false =>
    obtain ⟨fs, rest, hfs⟩ := h.closed t ho
    exact ⟨fs, rest, hfs, fun h => nomatch h⟩

/-- What an act does to the sockets. -/
theorem perform_sockets {t : ℕ} {env : Env} {a : Act} {r : a.Result} {s₁ : TCPServer H}
    (h : s.perform hd t env a = some (r, s₁)) :
    (∃ b, a = .write b ∧ s₁ = s.put t b) ∨ (∃ sock b, a = .relay sock b ∧ s₁ = s.put sock b) ∨
    (a = .close ∧ s₁ = { s with isOpen := Function.update s.isOpen t false }) ∨
    ((∀ b, a ≠ .write b) ∧ (∀ sock b, a ≠ .relay sock b) ∧ s₁.sent = s.sent ∧ s₁.isOpen = s.isOpen) := by
  cases a <;> simp only [perform, locked] at h <;> (try split_ifs at h) <;>
    simp only [Option.some.injEq, Prod.mk.injEq, reduceCtorEq] at h <;> obtain ⟨-, rfl⟩ := h <;> simp

theorem put_of_open {sock : ℕ} (h : s.isOpen sock = true) (b : Block) :
    s.put sock b = { s with sent := Function.update s.sent sock (s.sent sock ++ [b]) } := if_pos h

theorem put_of_closed {sock : ℕ} (h : s.isOpen sock = false) (b : Block) : s.put sock b = s :=
  if_neg (by simp [h])

/-- Only what is on the sockets changes. -/
theorem put_frame (s : TCPServer H) (sock : ℕ) (b : Block) :
    (s.put sock b).isOpen = s.isOpen ∧ (s.put sock b).serverMutex = s.serverMutex ∧
      (s.put sock b).accepted = s.accepted := by
  unfold put
  split <;> exact ⟨rfl, rfl, rfl⟩

theorem put_sent (s : TCPServer H) (k : ℕ) (b : Block) :
    (s.put k b).isOpen k = s.isOpen k ∧ (s.put k b).sent k = if s.isOpen k then s.sent k ++ [b] else s.sent k := by
  cases hopen : s.isOpen k with
  | false =>
    rw [put_of_closed hopen]
    exact ⟨hopen, rfl⟩
  | true =>
    rw [put_of_open hopen]
    exact ⟨hopen, Function.update_self ..⟩

theorem put_other {sock k : ℕ} (h : sock ≠ k) (b : Block) :
    (s.put sock b).isOpen k = s.isOpen k ∧ (s.put sock b).sent k = s.sent k := by
  unfold put
  split
  · exact ⟨rfl, Function.update_of_ne h.symm _ _⟩
  · exact ⟨rfl, rfl⟩

namespace Writing

theorem of_eq (h : Writing s) (hs : s'.sent = s.sent) (ho : s'.isOpen = s.isOpen) (hpc : s'.pc = s.pc)
    (ha : s'.accepted = s.accepted) : Writing s' := by
  obtain ⟨h1, h2, h3⟩ := h
  rw [← hs, ← ho, ← hpc] at h1
  rw [← hs, ← ho] at h2
  rw [← hs, ← ho, ← ha] at h3
  exact ⟨h1, h2, h3⟩

/-- A thread with nothing in progress moves on. -/
theorem move (h : Writing s) {t : ℕ} {pc' : Pc} (h0 : (s.pc t).unfinished = [])
    (hpc' : pc'.unfinished = [] ∨ ∃ f, pc'.unfinished = serverFormat.blocks f) :
    Writing { s with pc := Function.update s.pc t pc' } := by
  refine ⟨fun t' ho => ?_, h.closed, h.later⟩
  have hsplit := h.opened t' ho
  by_cases ht : t' = t
  · subst ht
    rw [h0] at hsplit
    simp only [Function.update_self]
    exact hsplit.start hpc'
  · simp only [Function.update_of_ne ht]
    exact hsplit

/-- A thread writes the next block of its frame. -/
theorem write (h : Writing s) {t : ℕ} {pc' : Pc} {b : Block}
    (h0 : (s.pc t).unfinished = b :: pc'.unfinished) :
    Writing { s.put t b with pc := Function.update s.pc t pc' } := by
  cases hopen : s.isOpen t with
  | false =>
    rw [put_of_closed hopen]
    refine ⟨fun t' ho => ?_, h.closed, h.later⟩
    have hne : t' ≠ t := by
      rintro rfl
      rw [hopen] at ho
      cases ho
    simp only [Function.update_of_ne hne]
    exact h.opened t' ho
  | true =>
    rw [put_of_open hopen]
    refine ⟨fun t' ho => ?_, fun t' ho => ?_, fun t' hle => ?_⟩
    · by_cases he : t' = t
      · subst he
        have hsplit := h.opened t' hopen
        rw [h0] at hsplit
        simp only [Function.update_self]
        exact hsplit.write
      · simp only [Function.update_of_ne he]
        exact h.opened t' ho
    · have hne : t' ≠ t := by
        rintro rfl
        rw [hopen] at ho
        cases ho
      simp only [Function.update_of_ne hne]
      exact h.closed t' ho
    · have hne : t' ≠ t := by
        rintro rfl
        rw [(h.later t' hle).1] at hopen
        cases hopen
      simp only [Function.update_of_ne hne]
      exact h.later t' hle

/-- **A chat between two frames.** -/
theorem relay (h : Writing s) {sock : ℕ} {fullMsg : List UInt8}
    (hC : s.isOpen sock = true → fullMsg.length < 65536 ∧ ¬ (s.pc sock).midFrame) :
    Writing (s.put sock (.chatMessage fullMsg)) := by
  cases hopen : s.isOpen sock with
  | false =>
    rw [put_of_closed hopen]
    exact h
  | true =>
    obtain ⟨hfits, hmid⟩ := hC hopen
    rw [put_of_open hopen]
    refine ⟨fun t ho => ?_, fun t ho => ?_, fun t hle => ?_⟩
    · by_cases he : t = sock
      · subst he
        simp only [Function.update_self]
        exact (h.opened t hopen).insert (fun b hb hn => hmid ⟨b, hb, hn⟩) ⟨.chatMessage fullMsg, hfits⟩
      · simp only [Function.update_of_ne he]
        exact h.opened t ho
    · have hne : t ≠ sock := by
        rintro rfl
        rw [hopen] at ho
        cases ho
      simp only [Function.update_of_ne hne]
      exact h.closed t ho
    · have hne : t ≠ sock := by
        rintro rfl
        rw [(h.later t hle).1] at hopen
        cases hopen
      simp only [Function.update_of_ne hne]
      exact h.later t hle

/-- A socket is closed: the end of the frame in progress is lost. -/
theorem close (h : Writing s) (sock : ℕ) : Writing { s with isOpen := Function.update s.isOpen sock false } := by
  refine ⟨fun t ho => ?_, fun t ho => ?_, fun t hle => ⟨?_, (h.later t hle).2⟩⟩
  · by_cases he : t = sock
    · subst he
      simp only [Function.update_self] at ho
      cases ho
    · simp only [Function.update_of_ne he] at ho
      exact h.opened t ho
  · obtain ⟨fs, rest, hfs, -⟩ := h.framed t
    exact ⟨fs, rest, hfs⟩
  · by_cases he : t = sock
    · simp only [he, Function.update_self]
    · simp only [Function.update_of_ne he]
      exact (h.later t hle).1

/-- A new connection. -/
theorem accept (h : Writing s) :
    Writing { s with
      accepted := s.accepted + 1
      pc := Function.update s.pc s.accepted .handshake
      isOpen := Function.update s.isOpen s.accepted true } := by
  refine ⟨fun t ho => ?_, fun t ho => ?_, fun t hle => ?_⟩
  · by_cases he : t = s.accepted
    · subst he
      simp only [Function.update_self, (h.later s.accepted (Nat.le_refl _)).2]
      exact .nil
    · simp only [Function.update_of_ne he] at ho ⊢
      exact h.opened t ho
  · by_cases he : t = s.accepted
    · subst he
      simp only [Function.update_self] at ho
      cases ho
    · simp only [Function.update_of_ne he] at ho
      exact h.closed t ho
  · have hne : t ≠ s.accepted := Nat.ne_of_gt hle
    simp only [Function.update_of_ne hne]
    exact h.later t (Nat.le_of_succ_le hle)

end Writing

theorem writing_step {l : Label ε} (h : Writing s) (hC : RelaysWhole s l)
    (hs : (machine hd ext).step s l = some s') : Writing s' := by
  rcases step_cases hs with ⟨rfl, rfl⟩ | ⟨t, env, pc, r, s₁, rfl, hpc, hp, rfl⟩ | ⟨playerId, rfl, -, rfl⟩ |
    ⟨sock, rfl, rfl⟩ | ⟨e, rfl, rfl⟩
  · exact h.accept
  · have hpc₁ : s₁.pc = s.pc := (perform_frame hp).1
    rcases perform_sockets hp with ⟨b, ha, rfl⟩ | ⟨sock, b, ha, rfl⟩ | ⟨ha, rfl⟩ | ⟨hw, -, hsent, hopen⟩
    · rw [hpc₁]
      exact h.write (hpc ▸ pc.unfinished_of_write ha r)
    · -- only a relay writes to the socket of another thread
      obtain ⟨u, roomId, fullMsg, rest, rfl, rfl⟩ : ∃ u roomId fullMsg rest,
          pc = .relaying u roomId fullMsg sock rest ∧ b = .chatMessage fullMsg := by
        cases pc with
        | relaying u roomId fullMsg sock' rest => cases ha; exact ⟨u, roomId, fullMsg, rest, rfl, rfl⟩
        | _ => cases ha
      have hrelay := h.relay fun ho => hC t env u roomId fullMsg sock rest rfl hpc ho
      have hun : ((s.put sock (.chatMessage fullMsg)).pc t).unfinished = [] := by rw [hpc₁, hpc]; rfl
      exact hrelay.move hun (.inl (Pc.relayTo_unfinished u roomId fullMsg rest))
    · obtain ⟨h0, hnext⟩ := pc.unfinished_next (by simp [ha]) r
      exact (h.close t).move (hpc ▸ h0) hnext
    · obtain ⟨h0, hnext⟩ := pc.unfinished_next hw r
      refine (h.move (hpc ▸ h0) hnext).of_eq hsent hopen ?_ (perform_frame hp).2.1
      rw [hpc₁]
  · unfold kickPlayer
    split
    · exact h.close _
    · exact h
  · exact h.close sock
  · exact h.of_eq rfl rfl rfl rfl

theorem writing_init (h : H) : Writing (init h) :=
  ⟨fun _ ho => (nomatch ho), fun _ _ => ⟨[], [], rfl⟩, fun _ _ => ⟨rfl, rfl⟩⟩

/-- A chat that is too long, or that comes before a record, is no part of whole frames. -/
theorem relaysWhole_of_framed (hd : ITCPHandler H) (ext : ε → H → H) {l : Label ε} (h : s.Framed)
    (h' : ∀ s', (machine hd ext).step s l = some s' → s'.Framed) : RelaysWhole s l := by
  intro t env u roomId fullMsg sock rest hl hpc ho
  subst hl
  have hstep : (machine hd ext).step s (.thread t env) = some { s.put sock (.chatMessage fullMsg) with
      pc := Function.update (s.put sock (.chatMessage fullMsg)).pc t (Pc.relayTo u roomId fullMsg rest) } :=
    step_of_perform (.relaying u roomId fullMsg sock rest) () hpc rfl
  obtain ⟨fs', rest', hfs', -⟩ := h' _ hstep sock
  rw [put_of_open ho] at hfs'
  simp only [Function.update_self, List.append_assoc, List.singleton_append] at hfs'
  refine ⟨?_, ?_⟩
  · have hmem : Block.chatMessage fullMsg ∈ serverFormat.stream fs' := by
      rw [← hfs']
      exact List.mem_append_right _ List.mem_cons_self
    obtain ⟨⟨f, hfits⟩, -, hf⟩ := List.mem_flatMap.1 hmem
    cases f with
    | chatMessage m =>
      obtain rfl := Block.chatMessage.inj (List.mem_singleton.1 hf)
      exact hfits
    | listRoomsResponse rooms =>
      rcases List.mem_cons.1 hf with hf | hf
      · cases hf
      · obtain ⟨_, -, hf⟩ := List.mem_map.1 hf
        cases hf
    | lobbyStateResponse hostId players =>
      rcases List.mem_cons.1 hf with hf | hf
      · cases hf
      · obtain ⟨_, -, hf⟩ := List.mem_map.1 hf
        cases hf
    | _ => cases List.mem_singleton.1 hf
  · rintro ⟨b, hb, hhead⟩
    obtain ⟨fs, rest₀, hfs, hun⟩ := h sock
    rw [hun ho] at hfs
    obtain ⟨more, hmore⟩ : ∃ more, (s.pc sock).unfinished = b :: more := by
      cases hc : (s.pc sock).unfinished with
      | nil => rw [hc] at hb; cases hb
      | cons b' more =>
        rw [hc] at hb
        exact ⟨more, by rw [Option.some.inj hb]⟩
    rw [hmore] at hfs
    have := Format.head_of_common hfs.symm hfs'.symm hhead
    cases this

/-- **When the sockets hold whole frames.** In every run, all sockets were sent whole frames
throughout if and only if every chat was relayed between two frames and with a length
that fits. With fewer than `2 ^ 32` connections no chat is relayed to a thread that writes a
`LIST_ROOMS_RESPONSE`. -/
theorem framed_iff (hd : ITCPHandler H) (ext : ε → H → H) (h : H) (labels : List (Label ε)) :
    ((∀ s, (machine hd ext).Visits (init h) labels s → s.Framed) ↔
      (machine hd ext).Along RelaysWhole (init h) labels) ∧
    ∀ s, (machine hd ext).Visits (init h) labels s → s.accepted < 2 ^ 32 →
      ∀ t u roomId fullMsg sock rest, s.pc t = .relaying u roomId fullMsg sock rest →
        ∀ u' b more, s.pc sock ≠ .lobbyWrites u' b more := by
  refine ⟨⟨fun hF => ?_, fun hC s hv => ?_⟩, ?_⟩
  · refine Machine.along_of_forall fun pre l post s he hr => relaysWhole_of_framed hd ext
      (hF s ⟨pre, ⟨_, he.symm⟩, hr⟩) ?_
    intro s' hs
    refine hF s' ⟨pre ++ [l], ⟨post, ?_⟩, (machine hd ext).run_snoc_iff.2 ⟨s, hr, hs⟩⟩
    rw [he, List.append_assoc]
    rfl
  · have hW : Writing s := Machine.inv_visits (M := machine hd ext) (I := Writing)
      (fun _ _ _ hW hC hs => writing_step hW hC hs) (writing_init h) hC hv
    exact hW.framed
  · rintro s ⟨pre, -, hr⟩ hlt t u roomId fullMsg sock rest hpc u' b more hsock
    have h4 := rank_of_relaying hr hlt hpc
    rw [hsock] at h4
    cases h4

/-! ## A run -/

/-- A step of a thread that reads `bytes`. -/
def readsAt (t : ℕ) (bytes : List UInt8) : Label ServerManager.Event :=
  .thread t ⟨⟨bytes, none, []⟩, 0, ⟨0, 0⟩⟩

/-- Thread `t` connects as `name`, and is in the lobby. -/
def connects (t : ℕ) (name : UInt8) : List (Label ServerManager.Event) :=
  .accept :: readsAt t (1 :: name :: List.replicate 31 0) :: List.replicate 4 (readsAt t [])

/-- Thread `t` joins room 0. -/
def joins (t : ℕ) : List (Label ServerManager.Event) :=
  readsAt t [8] :: readsAt t [0, 0, 0, 0] :: List.replicate 3 (readsAt t [])

/-- Clients `A` and `B` are in one room. `B` asks for the state of the lobby, and between
the header and the records of the answer `A` sends a chat. -/
def chatRun : List (Label ServerManager.Event) :=
  connects 0 65 ++ connects 1 66 ++ readsAt 0 [6] :: List.replicate 2 (readsAt 0 []) ++ joins 0 ++ joins 1 ++
    readsAt 1 [10] :: List.replicate 3 (readsAt 1 []) ++ readsAt 0 [14] :: readsAt 0 [2, 0] :: readsAt 0 [72, 105] ::
      List.replicate 3 (readsAt 0 [])

/-- **A chat lands between the header and the records of a `LOBBY_STATE_RESPONSE`.** -/
theorem not_framed_chat :
    ¬ ∀ s : TCPServer (ServerManager Float32), rooms.Visits (init ServerManager.init) chatRun s → s.Framed := by
  intro hF
  obtain ⟨fs, rest, hfs, hrest⟩ := hF _ (Machine.visits_last rfl) 1
  have howed := serverFormat.owed_stream fs
  rw [← hfs, hrest rfl] at howed
  exact absurd howed (by decide)

end TCPServer

end RType

import RType.Proof.Capacity
import RType.Proof.Sessions

/-!
# Deleted rooms

The shell's `delete` announces that the players inside will be disconnected, but it only
erases the room: neither `_playerRoomMap` nor a session learns of it.

* `hasRoom_run`: nothing but a `delete` takes a room away.
* `deletesDisconnect_iff`: **no session is ever left in a deleted room if and only if no room
  is deleted while a session is in it.**
* `not_deletesDisconnect`: a room deleted with a player inside.
-/

namespace RType

open Lts

variable {F : Type*} [FloatOps F]

namespace ServerManager

variable {m : ServerManager F} {roomId : ℤ}

/-- The room exists in `_rooms`. -/
def HasRoom (m : ServerManager F) (roomId : ℤ) : Prop := (m.rooms[roomId]?).isSome = true

omit [FloatOps F] in
theorem hasRoom_iff : m.HasRoom roomId ↔ (m.addr? roomId).isSome = true := by
  rw [HasRoom, addr?, Option.isSome_map]

/-- **Nothing but a `delete` takes a room away.** -/
theorem hasRoom_run (h : m.HasRoom roomId) (l : Label) (hl : l ≠ .event (.command (.delete roomId))) :
    (l.run m).HasRoom roomId := by
  rw [hasRoom_iff] at h ⊢
  rcases l.run_cases m with ⟨fresh, -, -, hrun⟩ | ⟨roomId', hdel, -, hrun⟩ | ⟨out, hrun⟩
  · rw [hrun, addr?_create]
    split
    · rfl
    · exact h
  · have hne : roomId ≠ roomId' := by
      rintro rfl
      exact hl hdel
    rw [hrun, addr?_delete, if_neg hne]
    exact h
  · have haddr : (l.run m).addr? roomId = m.addr? roomId := by
      rw [hrun]
      exact addr?_doAll m (l.acts m) roomId
    rw [haddr]
    exact h

theorem not_hasRoom_delete (m : ServerManager F) (roomId : ℤ) :
    ¬ (react (.command (.delete roomId)) m).HasRoom roomId := by
  intro h
  rw [hasRoom_iff] at h
  have hnone : (react (.command (.delete roomId)) m).addr? roomId = none :=
    (addr?_delete m roomId roomId).trans (if_pos rfl)
  rw [hnone] at h
  cases h

/-- Whoever is let in finds the room there. -/
theorem hasRoom_of_join {playerId : UInt32} {username : List UInt8}
    (h : (m.onJoinRoom roomId playerId username).1 = true) : m.HasRoom roomId := by
  obtain ⟨r, hr, -⟩ := onJoinRoom_accepts_iff.1 h
  obtain ⟨e, he, -⟩ := exists_room?_entry hr
  rw [HasRoom, he]
  rfl

end ServerManager

namespace TCPServer

open ServerManager

variable {s s' : TCPServer (ServerManager F)}

/-- Every entry of `_playerRoomMap`, and every session in a room, names a room that exists. -/
structure RoomsExist (s : TCPServer (ServerManager F)) : Prop where
  mapped : ∀ (playerId : UInt32) (roomId : ℤ), s.playerRoomMap[playerId]? = some roomId → s.handler.HasRoom roomId
  inRoom : ∀ t roomId, (s.pc t).room = some roomId → s.handler.HasRoom roomId

/-- **Deleting a room disconnects its players**: in every state of the run, no session is in
a room that does not exist. -/
def DeletesDisconnect (F : Type*) [FloatOps F] (labels : List (Label Event)) : Prop :=
  ∀ s : TCPServer (ServerManager F), rooms.Visits (init ServerManager.init) labels s → s.RoomsExist

/-- A room that is deleted has no session in it. -/
def DeletesEmpty (s : TCPServer (ServerManager F)) (l : Label Event) : Prop :=
  ∀ roomId, l = .other (.command (.delete roomId)) →
    (∀ playerId : UInt32, s.playerRoomMap[playerId]? ≠ some roomId) ∧ ∀ t, (s.pc t).room ≠ some roomId

/-- An act of a thread takes no room away. -/
theorem hasRoom_perform {t : ℕ} {env : Env} {a : Act} {r : a.Result} {s₁ : TCPServer (ServerManager F)}
    (h : s.perform ServerManager.handler t env a = some (r, s₁)) {roomId : ℤ} (hr : s.handler.HasRoom roomId) :
    s₁.handler.HasRoom roomId := by
  by_cases hc : ∃ c, a = .call c
  · obtain ⟨c, rfl⟩ := hc
    obtain ⟨-, rfl⟩ := Prod.mk.inj (Option.some.inj h)
    exact hasRoom_run hr (.call c env.fresh) (by simp)
  · rw [(perform_frame h).2.2.2 fun c he => hc ⟨c, he⟩]
    exact hr

/-- Where a thread is in a room after its act, the room exists. -/
theorem RoomsExist.inRoom_next (h : RoomsExist s) {t : ℕ} {env : Env} {pc : Pc} {r : pc.act.Result}
    {s₁ : TCPServer (ServerManager F)} (hpc : s.pc t = pc)
    (hp : s.perform ServerManager.handler t env pc.act = some (r, s₁)) {roomId : ℤ}
    (hroom : (pc.next r).room = some roomId) : s.handler.HasRoom roomId := by
  rcases Pc.room_of_next hroom with hold | ⟨u, rfl⟩
  · exact h.inRoom t roomId (hpc ▸ hold)
  · obtain ⟨rfl, -⟩ := Prod.mk.inj (Option.some.inj hp)
    simp only [Pc.next, Pc.room] at hroom
    split at hroom
    · rename_i hacc
      exact hasRoom_of_join hacc
    · cases hroom

/-- **Every step but the deletion of a room in use keeps the rooms of all sessions there.** -/
theorem roomsExist_step (s : TCPServer (ServerManager F)) (l : Label Event) (s' : TCPServer (ServerManager F))
    (h : RoomsExist s) (hC : DeletesEmpty s l) (hs : rooms.step s l = some s') : RoomsExist s' := by
  rcases step_cases hs with ⟨rfl, rfl⟩ | ⟨t, env, pc, r, s₁, rfl, hpc, hp, rfl⟩ | ⟨playerId, rfl, -, rfl⟩ |
    ⟨sock, rfl, rfl⟩ | ⟨e, rfl, rfl⟩
  · -- an accepted connection is in no room yet
    refine ⟨h.mapped, fun t roomId hroom => ?_⟩
    by_cases ht : t = s.accepted
    · subst ht
      simp only [Function.update_self] at hroom
      cases hroom
    · simp only [Function.update_of_ne ht] at hroom
      exact h.inRoom t roomId hroom
  · -- an act of a thread: it registers only a room that it has joined
    obtain ⟨-, -, hmap, -⟩ := perform_maps hp
    obtain ⟨-, henter, -, -, -, -⟩ := act_eq pc
    refine ⟨fun playerId roomId hmem => ?_, fun t' roomId hroom => ?_⟩
    · refine hasRoom_perform hp ?_
      have hold := h.mapped playerId roomId
      change s₁.playerRoomMap[playerId]? = some roomId at hmem
      rw [hmap] at hmem
      unfold roomsAfter at hmem
      split at hmem
      · rename_i p room ha
        obtain ⟨u, rfl, rfl⟩ := henter p room ha
        rw [Maps.getElem?_insert] at hmem
        split at hmem
        · obtain rfl := Option.some.inj hmem
          exact h.inRoom t room (by rw [hpc]; rfl)
        · exact hold hmem
      · rw [Maps.getElem?_erase] at hmem
        split at hmem
        · cases hmem
        · exact hold hmem
      · exact hold hmem
    · refine hasRoom_perform hp ?_
      simp only [(perform_frame hp).1] at hroom
      by_cases ht : t' = t
      · subst ht
        rw [Function.update_self] at hroom
        exact h.inRoom_next hpc hp hroom
      · rw [Function.update_of_ne ht] at hroom
        exact h.inRoom t' roomId hroom
  · rw [kickPlayer_eq]
    exact ⟨h.mapped, h.inRoom⟩
  · exact ⟨h.mapped, h.inRoom⟩
  · -- an event of another thread; the condition is about a deletion
    have hkeep : ∀ roomId, s.handler.HasRoom roomId → e ≠ .command (.delete roomId) →
        (react e s.handler).HasRoom roomId := fun roomId hroom hne =>
      hasRoom_run hroom (.event e) fun he => hne (ServerManager.Label.event.inj he)
    refine ⟨fun playerId roomId hmem => ?_, fun t roomId hroom => ?_⟩
    · refine hkeep roomId (h.mapped playerId roomId hmem) ?_
      rintro rfl
      exact (hC roomId rfl).1 playerId hmem
    · refine hkeep roomId (h.inRoom t roomId hroom) ?_
      rintro rfl
      exact (hC roomId rfl).2 t hroom

theorem roomsExist_init : RoomsExist (init (ServerManager.init : ServerManager F)) := by
  refine ⟨fun playerId roomId hmem => ?_, fun t roomId hroom => nomatch hroom⟩
  exact absurd (Std.TreeMap.getElem?_emptyc.symm.trans hmem) (by simp)

/-- **No session is ever left in a deleted room if and only if no room is deleted while a
session is in it.** -/
theorem deletesDisconnect_iff (labels : List (Label Event)) :
    DeletesDisconnect F labels ↔ rooms.Along (DeletesEmpty (F := F)) (init ServerManager.init) labels := by
  constructor
  · intro h
    refine Machine.along_of_forall fun pre l post s he hs roomId hl => ?_
    subst hl
    -- after the deletion no session can be in the room any more
    have hafter : rooms.run (init ServerManager.init) (pre ++ [.other (.command (.delete roomId))]) =
        some { s with handler := react (.command (.delete roomId)) s.handler } := rooms.run_snoc_iff.2 ⟨s, hs, rfl⟩
    have hprefix : pre ++ [.other (.command (.delete roomId))] <+: labels := by
      rw [he, List.append_cons pre _ post]
      exact List.prefix_append _ post
    obtain ⟨hmapped, hinRoom⟩ := h _ ⟨_, hprefix, hafter⟩
    have hgone := not_hasRoom_delete s.handler roomId
    exact ⟨fun playerId hmem => hgone (hmapped playerId roomId hmem), fun t hroom => hgone (hinRoom t roomId hroom)⟩
  · intro hC s hs
    exact Machine.inv_visits roomsExist_step roomsExist_init hC hs

/-- **A room deleted with a player inside**: the session goes on in it. -/
theorem not_deletesDisconnect : ¬ DeletesDisconnect ℚ (joinRun ++ [.other (.command (.delete 0))]) := by
  intro h
  obtain ⟨s, hs, hmap, hrooms⟩ : ∃ s : TCPServer (ServerManager ℚ),
      rooms.run (init ServerManager.init) (joinRun ++ [.other (.command (.delete 0))]) = some s ∧
        s.playerRoomMap[(1 : UInt32)]? = some 0 ∧ (s.handler.rooms[(0 : ℤ)]?).isSome = false := ⟨_, rfl, rfl, rfl⟩
  have hroom := (h s (Machine.visits_last hs)).mapped 1 0 hmap
  rw [HasRoom, hrooms] at hroom
  cases hroom

end TCPServer

end RType

import RType.Spec.Mutexes

/-!
# No deadlock

Every thread takes the mutexes in one order: `ServerManager::_serverMutex` before those of a
game, `_entitiesMutex` before `_playersMutex`, and the mutex of a ring buffer last. The mutex
of the TCP server is never held together with another.

* `above_locks`: every operation keeps to the order.
* `deadlockFree`: **no thread takes a mutex twice, and no threads wait in a circle**; and
  some thread can always go on.
-/

namespace RType

open Locks Locks.Prog

/-- The order in which mutexes are taken. -/
def Mutex.rank : Mutex → ℕ
  | serverManager => 0
  | tcpServer => 0
  | entities _ => 1
  | players _ => 2
  | incoming => 3
  | outgoing => 3

namespace UDPServer

/-- Messages may be queued under all mutexes but those of the ring buffers. -/
theorem above_queueMessage {n : ℕ} (h : n ≤ 3) : queueMessageLocks.Above Mutex.rank n := above_locked h

theorem above_toPlayers {n : ℕ} (h : n ≤ 3) : toPlayersLocks.Above Mutex.rank n := (above_queueMessage h).opt

end UDPServer

namespace Game

open UDPServer

variable (g : ℕ)

theorem above_playersSection {n : ℕ} (h : n ≤ 2) : (playersSection g).Above Mutex.rank n := above_locked h

/-- A broadcast under `_entitiesMutex` and `_playersMutex`. -/
theorem above_announce {p : LockProg} (h : p.Above Mutex.rank 3) :
    (locking (.entities g) (locking (.players g) p)).Above Mutex.rank 1 :=
  ⟨Nat.le_refl 1, Nat.le_refl 2, h⟩

theorem above_updateEntities : (updateEntitiesLocks g).Above Mutex.rank 1 :=
  ⟨Nat.le_refl 1, above_toPlayers (Nat.le_succ 2), Nat.le_refl 2, above_toPlayers (Nat.le_refl 3)⟩

theorem above_broadcastGameState : (broadcastGameStateLocks g).Above Mutex.rank 1 :=
  ⟨Nat.le_succ 1, (above_toPlayers (Nat.le_refl 3)).opt⟩

/-- `createPlayerShot` and `createPlayerChargedShot`. -/
theorem above_shot : (seq (getPlayerLocks g) (opt (announceLocks g))).Above Mutex.rank 1 :=
  ⟨above_playersSection g (by decide), (above_announce g (above_toPlayers (Nat.le_refl 3))).opt⟩

theorem above_bossShoot : (bossShootLocks g).Above Mutex.rank 1 :=
  ⟨above_locked (Nat.le_refl 1), (above_announce g (above_toPlayers (Nat.le_refl 3))).opt⟩

theorem above_spawnBoss : (spawnBossLocks g).Above Mutex.rank 1 := by
  have hqueue := above_queueMessage (Nat.le_refl 3)
  have hboth : (seq queueMessageLocks queueMessageLocks).Above Mutex.rank 3 := ⟨hqueue, hqueue⟩
  exact above_announce g hboth.opt

/-- An update may run under `ServerManager::_serverMutex`. -/
theorem above_update : (updateLocks g).Above Mutex.rank 1 := by
  have htell := above_announce g (above_toPlayers (Nat.le_refl 3))
  have hcollide := above_announce g (above_toPlayers (Nat.le_refl 3)).opt
  have hlevel : (updateGameLevelLocks g).Above Mutex.rank 1 := above_locked (Nat.le_refl 1)
  refine Above.opt ⟨above_updateEntities g, hcollide, above_broadcastGameState g, hlevel, ?_⟩
  exact ⟨(above_spawnBoss g).opt, (above_bossShoot g).opt, htell.opt, htell.opt⟩

theorem above_handlePlayerInput : (handlePlayerInputLocks g).Above Mutex.rank 1 := by
  have hplayers := above_playersSection g (show 1 ≤ 2 by decide)
  have hshot := (above_shot g).opt
  have hrest : (seq (setPlayerLastProcessedTickLocks g)
      (seq (opt (createPlayerShotLocks g)) (opt (createPlayerChargedShotLocks g)))).Above Mutex.rank 1 :=
    ⟨hplayers, hshot, hshot⟩
  exact ⟨hplayers, hrest.opt⟩

theorem above_disconnectPlayer : (disconnectPlayerLocks g).Above Mutex.rank 1 :=
  ⟨Nat.le_succ 1, above_toPlayers (Nat.le_refl 3)⟩

theorem above_kickPlayer : (kickPlayerLocks g).Above Mutex.rank 1 :=
  ⟨Nat.le_succ 1, (above_queueMessage (Nat.le_refl 3)).opt.opt, above_toPlayers (Nat.le_refl 3)⟩

end Game

namespace ServerManager

open Game

theorem above_onMessageReceived (games : List ℕ) : (onMessageReceivedLocks games).Above Mutex.rank 0 := by
  have hplayers : ∀ g, (playersSection g).Above Mutex.rank 1 := fun g => above_playersSection g (by decide)
  have hfound : ∀ g, (seq (playersSection g) (handlePlayerInputLocks g)).Above Mutex.rank 1 :=
    fun g => ⟨hplayers g, above_handlePlayerInput g⟩
  have hinput := Above.search hplayers hfound games
  have hleave := Above.search hplayers above_disconnectPlayer games
  have hping := (UDPServer.above_queueMessage (Nat.zero_le 3)).opt
  exact ⟨hinput.mono (Nat.zero_le 1), hleave.mono (Nat.zero_le 1), hping⟩

/-- **Every operation takes its mutexes in order.** -/
theorem above_locks (op : ThreadOp) : op.locks.Above Mutex.rank 0 := by
  have hplayers : ∀ g, (playersSection g).Above Mutex.rank 1 := fun g => above_playersSection g (by decide)
  have hincoming : (locked Mutex.incoming).Above Mutex.rank 0 := above_locked (Nat.zero_le 3)
  have houtgoing : (locked Mutex.outgoing).Above Mutex.rank 0 := above_locked (Nat.zero_le 3)
  have htcp : TCPServer.serverSection.Above Mutex.rank 0 := above_locked (Nat.le_refl 0)
  cases op with
  | run games => exact ⟨Nat.le_refl 0, Above.each above_update games⟩
  | onCreateRoom | onGetPlayersInRoom | isGameStarting | create | delete => exact ⟨Nat.le_refl 0, trivial⟩
  | onGetRooms games | rooms games => exact ⟨Nat.le_refl 0, Above.each hplayers games⟩
  | onJoinRoom game | onPlayerDisconnect game | onGetLobbyState game | onStartGame game =>
    exact ⟨Nat.le_refl 0, (hplayers game).opt⟩
  | kick games => exact ⟨⟨Nat.le_refl 0, Above.search hplayers above_kickPlayer games⟩, htcp⟩
  | onMessageReceived games => exact above_onMessageReceived games
  | register | enterRoom | leaveRoom | unregister => exact htcp
  | relay => exact ⟨htcp, htcp⟩
  | recvLoop => exact hincoming.opt
  | sendLoop => exact ⟨houtgoing, houtgoing.opt⟩
  | processLoop games =>
    have hpacket : (seq (locked Mutex.incoming) (onMessageReceivedLocks games)).Above Mutex.rank 0 :=
      ⟨hincoming, above_onMessageReceived games⟩
    exact ⟨hincoming, hpacket.opt⟩

/-- **No deadlock.** -/
theorem deadlockFree (labels : List (Label ThreadOp)) (s : Threads Mutex)
    (hs : (Threads.machine ThreadOp.locks).run .init labels = some s) :
    (∀ t m, Wants s t m → s.holder m ≠ some t) ∧ ∀ t, ¬ Relation.TransGen (WaitsFor s) t t := by
  have htidy : Tidy Mutex.rank s := tidy_run above_locks hs
  exact ⟨fun t m hw => htidy.not_relocked hw, htidy.not_deadlocked⟩

/-- Two threads in the middle of their sections. -/
theorem deadlockFree_two : ∃ s : Threads Mutex,
    (Threads.machine ThreadOp.locks).run .init
      [.call 0 (.onJoinRoom 7), .step 0 true, .call 1 (.kick [7]), .step 1 true] = some s ∧
    Wants s 1 .serverManager ∧ s.holder .serverManager = some 0 ∧ ∀ t, ¬ Relation.TransGen (WaitsFor s) t t := by
  refine ⟨_, rfl, ⟨_, _, rfl⟩, rfl, ?_⟩
  exact (deadlockFree [.call 0 (.onJoinRoom 7), .step 0 true, .call 1 (.kick [7]), .step 1 true] _ rfl).2

/-- **Some thread can always go on.** -/
theorem progress (labels : List (Label ThreadOp)) (s : Threads Mutex)
    (hs : (Threads.machine ThreadOp.locks).run .init labels = some s) {t : ℕ} (ht : s.stack t ≠ []) :
    ∃ u, ∀ b, (s.stepThread u b).isSome := by
  have hbound : ∀ m : Mutex, m.rank < 4 := by
    intro m
    cases m <;> simp [Mutex.rank]
  exact (tidy_run above_locks hs).exists_next hbound ht

end ServerManager

end RType

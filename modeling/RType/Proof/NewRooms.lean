import Mathlib.Data.List.Nodup
import Mathlib.Tactic.Linarith
import Mathlib.Tactic.NormNum
import RType.Proof.Lifetimes

/-!
# New rooms at old addresses

The boss entries of a room are found by its address, and no operation erases them: a new
`Game` at the address of a deleted one has its entries.

* `likeFresh_iff`: **a new room is like one of a server just started if and only if no
  earlier `Game` at its address has seen its boss come.**
* `not_likeFresh_reused`: a room deleted after its boss has come, and a new one at its
  address.
-/

namespace RType

open Lts

variable {F : Type*} [FloatOps F]

namespace ServerManager

/-- A new room starts without a boss. As long as the same is done to both, it goes the same
way as the first room of a server just started, act by act, with the same messages. -/
def LikeFresh (m : ServerManager F) (fresh : Fresh) : Prop :=
  (m.onCreateRoom fresh).2.boss fresh.addr = Boss.none ∧
    ∀ addr labels labels' n n',
      machine.run (m.onCreateRoom fresh).2 labels = some n →
      machine.run (init.onCreateRoom ⟨addr, fresh.now⟩).2 labels' = some n' →
      (history m.nextRoomId (m.onCreateRoom fresh).2 labels).map (·.1) =
        (history 0 (init.onCreateRoom (F := F) ⟨addr, fresh.now⟩).2 labels').map (·.1) →
      history m.nextRoomId (m.onCreateRoom fresh).2 labels =
          history 0 (init.onCreateRoom ⟨addr, fresh.now⟩).2 labels' ∧
        ∀ r r', n.room? m.nextRoomId = some r → n'.room? 0 = some r' → r = r'

/-- In the course of the labels, a `Game` at the address has seen its boss come. -/
def BossCame (F : Type*) [FloatOps F] (labels : List Label) (addr : ℕ) : Prop :=
  ∃ t : ServerManager F, machine.Visits init labels t ∧
    ∃ roomId, t.addr? roomId = some addr ∧ (t.boss addr).level ≠ 0

variable {m : ServerManager F} {labels : List Label} {fresh : Fresh}

theorem tidy_run (hm : machine.run init labels = some m) : m.Tidy :=
  Machine.inv_run tidy_step labels init m tidy_init hm

/-- An address without a boss in its past has no boss entries. -/
theorem boss_eq_none (hm : machine.run init labels = some m) {addr : ℕ} (h : ¬ BossCame F labels addr) :
    m.boss addr = Boss.none := by
  have hinv := Machine.inv_visited (M := machine) (I := fun t : ServerManager F => t.Tidy ∧ (t.boss addr).level = 0)
    (K := fun t => ∀ roomId, t.addr? roomId = some addr → (t.boss addr).level = 0) ?_
    labels init m ⟨tidy_init, rfl⟩ ?_ hm
  · exact hinv.1.empty addr hinv.2
  · rintro t l t' ⟨ht, h0⟩ hs hK
    refine ⟨tidy_step t l t' ht hs, ?_⟩
    by_contra h0'
    obtain ⟨roomId, hr⟩ := exists_addr?_of_level hs h0 h0'
    exact h0' (hK roomId hr)
  · intro t ht roomId hr
    by_contra h0
    exact h ⟨t, ht, roomId, hr, h0⟩

/-- A boss in the past of an address is still in its entries. -/
theorem level_ne_zero (hm : machine.run init labels = some m) {addr : ℕ} (h : BossCame F labels addr) :
    (m.boss addr).level ≠ 0 := by
  obtain ⟨t, ⟨pre, ⟨post, rfl⟩, ht⟩, roomId, -, hlevel⟩ := h
  obtain ⟨t', ht', hm'⟩ := machine.run_append_iff.1 hm
  obtain rfl := Option.some.inj (ht.symm.trans ht')
  exact Machine.inv_run (level_step (b := addr)) post t m hlevel hm'

/-- The history of a new room is that of the acts on it. -/
theorem history_created (fresh : Fresh) (ht : m.Tidy) (hfree : m.holds fresh.addr = false) {labels : List Label}
    {n : ServerManager F} (hn : machine.run (m.onCreateRoom fresh).2 labels = some n) :
    ∃ as, history m.nextRoomId (m.onCreateRoom fresh).2 labels =
        as.zip (Room.evolve ⟨Game.new fresh.now, m.boss fresh.addr, []⟩ as) ∧
      ∀ r, n.room? m.nextRoomId = some r → r = Room.after ⟨Game.new fresh.now, m.boss fresh.addr, []⟩ as := by
  refine history_eq (ht.create hfree) ?_ hn
  rw [room?_create, if_pos rfl]

/-- **A new room is like one of a server just started if and only if no earlier `Game` at its
address has seen its boss come.** -/
theorem likeFresh_iff (labels : List Label) (m : ServerManager F) (fresh : Fresh)
    (hm : machine.run init labels = some m) (hfree : m.holds fresh.addr = false) :
    m.LikeFresh fresh ↔ ¬ BossCame F labels fresh.addr := by
  constructor
  · rintro ⟨hboss, -⟩ hcame
    have hlevel : ((m.onCreateRoom fresh).2.boss fresh.addr).level ≠ 0 := level_ne_zero hm hcame
    rw [hboss] at hlevel
    exact hlevel rfl
  · intro hcame
    have hboss : m.boss fresh.addr = Boss.none := boss_eq_none hm hcame
    refine ⟨hboss, fun addr labels labels' n n' hn hn' hacts => ?_⟩
    have hfree' : (init : ServerManager F).holds addr = false := rfl
    obtain ⟨as, has, hlast⟩ := history_created fresh (tidy_run hm) hfree hn
    obtain ⟨as', has', hlast'⟩ := history_created ⟨addr, fresh.now⟩ tidy_init hfree' hn'
    rw [hboss] at has hlast
    have has'₀ : history 0 (init.onCreateRoom (F := F) ⟨addr, fresh.now⟩).2 labels' =
      as'.zip (Room.evolve ⟨Game.new fresh.now, Boss.none, []⟩ as') := has'
    -- the same acts, from the same room
    have hsame : as = as' := by
      rw [has, has'₀, List.map_fst_zip (Room.length_evolve _ as).ge,
        List.map_fst_zip (Room.length_evolve _ as').ge] at hacts
      exact hacts
    subst hsame
    refine ⟨has.trans has'₀.symm, fun r r' hr hr' => ?_⟩
    exact (hlast r hr).trans (hlast' r' hr').symm

/-- A room deleted before its boss came: a new one at its address is like a first one. -/
theorem likeFresh_unplayed : ∃ m : ServerManager ℚ,
    machine.run init [.event (.command (.create ⟨5, 0⟩)), .event (.command (.delete 0))] = some m ∧
      m.LikeFresh ⟨5, 0⟩ := by
  refine ⟨_, rfl, (likeFresh_iff [.event (.command (.create ⟨5, 0⟩)), .event (.command (.delete 0))] _ ⟨5, 0⟩ rfl
    (by decide)).2 ?_⟩
  rintro ⟨t, ⟨pre, ⟨post, hpre⟩, ht⟩, roomId, -, hlevel⟩
  rcases pre with _ | ⟨a, _ | ⟨b, _ | ⟨c, pre⟩⟩⟩
  · obtain rfl := Option.some.inj ht
    exact hlevel rfl
  · obtain ⟨rfl, -⟩ := List.cons.inj hpre
    obtain rfl := Option.some.inj ht
    exact hlevel rfl
  · obtain ⟨rfl, hpre'⟩ := List.cons.inj hpre
    obtain ⟨rfl, -⟩ := List.cons.inj hpre'
    obtain rfl := Option.some.inj ht
    exact hlevel rfl
  · simp at hpre

/-! ## A reused address -/

omit [FloatOps F] in
/-- A live room occurs once among the keys. -/
theorem filter_keys {roomId : ℤ} {a : ℕ} (h : m.addr? roomId = some a) :
    m.rooms.keys.filter (· == roomId) = [roomId] := by
  obtain ⟨e, he, -⟩ := exists_entry h
  have hmem : roomId ∈ m.rooms.keys := by
    rw [Std.TreeMap.mem_keys, Std.TreeMap.mem_iff_isSome_getElem?, he]
    rfl
  have hnodup : m.rooms.keys.Nodup :=
    Std.TreeMap.distinct_keys.imp fun hne heq => hne (by rw [heq]; exact Std.ReflCmp.compare_self)
  rw [List.filter_beq, List.count_eq_one_of_mem hnodup hmem]
  rfl

/-- One pass of the run loop updates a live room once. -/
theorem room?_pass (h : m.Tidy) {roomId : ℤ} {r : Room F} (hr : m.room? roomId = some r) (env : ℤ → UpdateEnv) :
    ((Label.event (.pass env)).run m).room? roomId = some (r.after [.update (env roomId)]) := by
  obtain ⟨a, ha⟩ := Option.isSome_iff_exists.1 (room?_isSome.symm.trans (Option.isSome_iff_exists.2 ⟨r, hr⟩))
  have hacts : (((Label.event (.pass env)).acts m).filter (·.1 == roomId)).map (·.2) = [.update (env roomId)] := by
    have hkeys := filter_keys ha
    rw [Label.acts, List.filter_map, show ((fun b : ℤ × RoomAct => b.1 == roomId) ∘ fun id => (id, .update (env id))) =
      fun id => id == roomId from rfl, hkeys]
    rfl
  have hrun : (Label.event (.pass env)).run m = m.doAll ((Label.event (.pass env)).acts m) := by
    rw [Label.acts, doAll, List.foldl_map]
    rfl
  rw [hrun, h.room?_doAll hr, hacts]

/-- Several passes, all under the same conditions. -/
theorem room?_passes {roomId : ℤ} (env : UpdateEnv) (n : ℕ) :
    ∀ (m : ServerManager F) (r : Room F), m.Tidy → m.room? roomId = some r →
      ∃ m', machine.run m (List.replicate n (.event (.pass fun _ => env))) = some m' ∧
        m'.addr? roomId = m.addr? roomId ∧ m'.room? roomId = some (r.after (List.replicate n (.update env))) := by
  induction n with
  | zero => exact fun m r _ hr => ⟨m, rfl, rfl, hr⟩
  | succ n ih =>
    intro m r h hr
    have hs : machine.step m (.event (.pass fun _ => env)) = some ((Label.event (.pass fun _ => env)).run m) := rfl
    have haddr : ((Label.event (.pass fun _ => env)).run m).addr? roomId = m.addr? roomId := by
      rw [← addr?_doAll m ((Label.event (.pass fun _ => env)).acts m), Label.acts, doAll, List.foldl_map]
      rfl
    obtain ⟨m', hm', ha', hr'⟩ := ih _ _ (tidy_step m _ _ h hs) (room?_pass h hr fun _ => env)
    exact ⟨m', machine.run_cons_iff.2 ⟨_, hs, hm'⟩, ha'.trans haddr, hr'⟩

/-- A room with one player, `t` seconds after its start, in which no enemy has come. -/
def waiting (t : ℚ) : Room ℚ := ⟨⟨[Player.new 1 []], [], 1, t, 0, 0, .playing⟩, Boss.none, []⟩

/-- An update at which neither an enemy nor a synchronization is due. -/
def still : UpdateEnv := ⟨0, 0, 0, 0, 0⟩

/-- The update, up to the boss. -/
theorem waiting_stages (t : ℚ) :
    (waiting t).updateEntities.handleCollision.broadcastGameState.updateGameLevel 0.016 = waiting (t + 0.016) := rfl

theorem waiting_playing (t : ℚ) : ¬ (waiting t).game.status ≠ .playing := fun h => h rfl

/-- Before ten seconds are over, there is no boss. -/
theorem waiting_bossStage_early {t : ℚ} (h : ¬ (10.0 : ℚ) < t) : (waiting t).bossStage = (waiting t, none) := by
  have hlevel : ¬ (waiting t).boss.level = 2 := fun h2 => absurd (show (0 : ℤ) = 2 from h2) (by decide)
  unfold Room.bossStage
  rw [if_neg fun hc => h hc.2, if_neg fun hc => hlevel hc.1]

/-- After ten seconds the first boss comes. -/
theorem waiting_bossStage_late {t : ℚ} (h : (10.0 : ℚ) < t) :
    (waiting t).bossStage = ({ waiting t with boss.level := 1, boss.hp := 1000 }, some 1000) := by
  unfold Room.bossStage
  rw [if_pos ⟨rfl, h⟩]

theorem waiting_update_early {t : ℚ} (h : ¬ (10.0 : ℚ) < t + 0.016) :
    (waiting t).update still = waiting (t + 0.016) := by
  rw [Room.update, if_neg (waiting_playing t)]
  simp only [waiting_stages, waiting_bossStage_early h]
  rfl

theorem waiting_update_late {t : ℚ} (h : (10.0 : ℚ) < t + 0.016) : ((waiting t).update still).boss.level ≠ 0 := by
  have h1 : (1 : ℤ) ≠ 0 := by decide
  rw [Room.update, if_neg (waiting_playing t)]
  simp only [waiting_stages, waiting_bossStage_late h]
  refine (Room.syncStage_bystands _ _).orderly.level ((Room.enemyStage_bystands _ _).orderly.level ?_)
  split
  · rw [Room.bossShoot_level]
    exact h1
  · exact h1

/-- The times at which `n` updates end. -/
theorem waiting_time (n : ℕ) : (n : ℚ) * 0.016 + 0.016 = ((n + 1 : ℕ) : ℚ) * 0.016 := by
  push_cast
  ring

/-- The first 625 updates end before ten seconds are over. -/
theorem waiting_early {n : ℕ} (h : n + 1 ≤ 625) : ¬ (10.0 : ℚ) < n * 0.016 + 0.016 := by
  have hn : (n : ℚ) + 1 ≤ 625 := by exact_mod_cast h
  norm_num
  linarith

/-- The next one does not. -/
theorem waiting_late : (10.0 : ℚ) < (625 : ℕ) * 0.016 + 0.016 := by norm_num

theorem waiting_after {n : ℕ} (h : n ≤ 625) :
    (waiting 0).after (List.replicate n (.update still)) = waiting (n * 0.016) := by
  induction n with
  | zero =>
    rw [Nat.cast_zero, zero_mul]
    rfl
  | succ n ih =>
    have hone : ∀ r : Room ℚ, r.after [.update still] = { r.update still with out := [] } := fun _ => rfl
    rw [List.replicate_succ', Room.after_append, ih (by omega), ← waiting_time, hone,
      waiting_update_early (waiting_early h)]
    rfl

/-- A room is created, joined, and played for 626 updates. -/
def play : List Label :=
  [.event (.command (.create ⟨0, 0⟩)), .call (.onJoinRoom 0 1 []) ⟨0, 0⟩, .call (.onStartGame 0 1) ⟨0, 0⟩] ++
    List.replicate 626 (.event (.pass fun _ => still))

/-- **A boss comes back with the address**: the room is deleted, and a new one gets its
address. -/
theorem not_likeFresh_reused : ∃ m : ServerManager ℚ,
    machine.run init (play ++ [.event (.command (.delete 0))]) = some m ∧ m.holds 0 = false ∧
      ¬ m.LikeFresh ⟨0, 0⟩ := by
  obtain ⟨m₀, hm₀, haddr₀, hroom₀⟩ : ∃ m₀ : ServerManager ℚ,
      machine.run init [.event (.command (.create ⟨0, 0⟩)), .call (.onJoinRoom 0 1 []) ⟨0, 0⟩,
        .call (.onStartGame 0 1) ⟨0, 0⟩] = some m₀ ∧ m₀.addr? 0 = some 0 ∧ m₀.room? 0 = some (waiting 0) :=
    ⟨_, rfl, rfl, rfl⟩
  obtain ⟨m₁, hm₁, haddr₁, hroom₁⟩ := room?_passes still 626 m₀ (waiting 0) (tidy_run hm₀) hroom₀
  have hm₁' : machine.run init play = some m₁ := machine.run_append_iff.2 ⟨m₀, hm₀, hm₁⟩
  -- after 625 updates ten seconds are over, and the boss comes with the next one
  have hlevel : (m₁.boss 0).level ≠ 0 := by
    have hafter : (waiting 0).after (List.replicate 626 (.update still)) =
        { (waiting ((625 : ℕ) * 0.016)).update still with out := [] } := by
      rw [List.replicate_succ', Room.after_append, waiting_after le_rfl]
      rfl
    obtain ⟨e, he, hr⟩ := exists_room?_entry hroom₁
    obtain ⟨e', he', ha'⟩ := exists_entry (haddr₁.trans haddr₀)
    obtain rfl := Option.some.inj (he.symm.trans he')
    have hboss : ((waiting 0).after (List.replicate 626 (.update still))).boss = m₁.boss e.addr :=
      congrArg Room.boss hr
    have hcome := waiting_update_late waiting_late
    rw [← ha', ← hboss, hafter]
    exact hcome
  refine ⟨{ m₁ with rooms := m₁.rooms.erase 0 }, ?_, ?_, ?_⟩
  · exact machine.run_append_iff.2 ⟨m₁, hm₁', rfl⟩
  · rw [holds, List.any_eq_false]
    rintro ⟨roomId, e⟩ hmem
    have he := Std.TreeMap.mem_toList_iff_getElem?_eq_some.1 hmem
    rw [Maps.getElem?_erase] at he
    split at he
    · cases he
    · rename_i hne
      have ha : e.addr ≠ 0 := by
        intro ha
        have haddr : m₁.addr? roomId = some 0 := by rw [addr?, he, Option.map_some, ha]
        exact hne ((tidy_run hm₁').apart _ _ 0 haddr (haddr₁.trans haddr₀))
      simpa using ha
  · rintro ⟨hboss, -⟩
    have hsame : (m₁.boss 0).level = 0 := congrArg Boss.level hboss
    exact hlevel hsame

end ServerManager

end RType

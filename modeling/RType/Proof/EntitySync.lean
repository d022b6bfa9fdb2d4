import Mathlib.Tactic.NormNum
import RType.Lib.Maps
import RType.Proof.EntityMessages
import RType.Proof.OwnPlayer
import RType.Spec.Viewer

/-!
# Global synchronization

A `GLOBAL_STATE_SYNC` replaces the client's entities but those with ids from 9999 on, which
the client takes for its own.

* `syncEntities_shows_iff`: when one synchronization makes the client's map exact.
* `told_step`: the client knows ids of created entities only.
* `syncsRepair_iff`: **in every run, each synchronization repairs the losses before it if and
  only if the client holds no removed entity with an id from 9999 on**; in a game that
  creates fewer than 9999 entities each does.
* `not_syncsRepair`: a run in which a removed entity stays.
-/

namespace RType

open Lts

variable {F : Type*} [FloatOps F]

/-! ## One synchronization -/

/-- The client's view of an entity of the server. -/
def Entity.state (e : Entity F) : EntityState F := ⟨e.x, e.y, e.type⟩

/-- What `sendGlobalStateSync` queues for a list. -/
def syncOf (entities : List (Entity F)) : UdpMsg F :=
  .globalStateSync (UInt32.ofNat entities.length) ((entities.map fun e => ⟨e.id, e.type, e.x, e.y⟩).take 72)

omit [FloatOps F] in
theorem sendGlobalStateSync_eq (r : Room F) : r.sendGlobalStateSync = r.broadcast [syncOf r.game.entities] := rfl

/-- The client's map holds exactly the ids, types and positions of the list. -/
def RTypeClient.Shows (c : RTypeClient F) (entities : List (Entity F)) : Prop :=
  ∀ id st, c.entities[id]? = some st ↔ ∃ e ∈ entities, e.id = id ∧ e.state = st

/-- Entities with one id agree, and the client's ids from 9999 on are ids of the list. -/
structure RTypeClient.InStep (c : RTypeClient F) (entities : List (Entity F)) : Prop where
  agree : ∀ e ∈ entities, ∀ e' ∈ entities, e.id = e'.id → e.state = e'.state
  fresh : ∀ id st, c.entities[id]? = some st → RTypeClient.firstLocalId ≤ id → ∃ e ∈ entities, e.id = id

/-- A list that fits is received as a whole. -/
theorem syncedRecords_of_fits {entities : List (Entity F)} (h : entities.length ≤ 72) :
    RTypeClient.syncedRecords (UInt32.ofNat entities.length)
        ((entities.map fun e => (⟨e.id, e.type, e.x, e.y⟩ : SyncedEntityState F)).take 72) =
      entities.map fun e => ⟨e.id, e.type, e.x, e.y⟩ := by
  have hsize : entities.length < UInt32.size := lt_of_le_of_lt h (by decide)
  have hcount : (UInt32.ofNat entities.length).toNat = entities.length := UInt32.toNat_ofNat_of_lt' hsize
  rw [List.take_of_length_le (by simpa using h), RTypeClient.syncedRecords_eq_take (by rw [hcount, List.length_map]; omega),
    hcount, Nat.min_eq_left h, List.take_of_length_le (by simp)]

/-- **When a synchronization makes the map exact.** -/
theorem syncEntities_shows_iff (c : RTypeClient F) (now : UInt32) {entities : List (Entity F)}
    (h : entities.length ≤ 72) : (c.handlePacket now (syncOf entities)).Shows entities ↔ c.InStep entities := by
  -- a key has an entity of the list, or what it had if it is local
  have hlook : ∀ id, (∃ e ∈ entities, e.id = id ∧
      (c.handlePacket now (syncOf entities)).entities[id]? = some e.state) ∨
      (∀ e ∈ entities, e.id ≠ id) ∧ (c.handlePacket now (syncOf entities)).entities[id]? =
        if RTypeClient.firstLocalId ≤ id then c.entities[id]? else none := by
    intro id
    have hmap : (c.handlePacket now (syncOf entities)).entities =
        (entities.map fun e => (⟨e.id, e.type, e.x, e.y⟩ : SyncedEntityState F)).foldl
          (fun m s => m.insert s.entityId ⟨s.x, s.y, s.entityType⟩)
          (c.entities.filter fun id _ => RTypeClient.firstLocalId ≤ id) := by
      rw [← syncedRecords_of_fits h]
      rfl
    rw [hmap, List.foldl_map]
    rcases Maps.getElem?_foldl_insert (fun e : Entity F => e.id) Entity.state entities
      (c.entities.filter fun id _ => RTypeClient.firstLocalId ≤ id) id with ⟨e, he, hid, hv⟩ | ⟨hnot, hv⟩
    · exact .inl ⟨e, he, hid, hv⟩
    · refine .inr ⟨hnot, hv.trans ?_⟩
      rw [Std.TreeMap.getElem?_filter']
      by_cases hl : RTypeClient.firstLocalId ≤ id <;> cases c.entities[id]? <;> simp [hl]
  constructor
  · intro hshows
    refine ⟨fun e he e' he' hid => ?_, fun id st hst hl => ?_⟩
    · have hv := (hshows e.id e.state).2 ⟨e, he, rfl, rfl⟩
      have hv' := (hshows e.id e'.state).2 ⟨e', he', hid.symm, rfl⟩
      exact Option.some.inj (hv.symm.trans hv')
    · rcases hlook id with ⟨e, he, hid, -⟩ | ⟨-, hv⟩
      · exact ⟨e, he, hid⟩
      · rw [if_pos hl, hst] at hv
        obtain ⟨e, he, hid, -⟩ := (hshows id st).1 hv
        exact ⟨e, he, hid⟩
  · rintro ⟨hagree, hfresh⟩ id st
    rcases hlook id with ⟨e, he, hid, hv⟩ | ⟨hnot, hv⟩
    · rw [hv, Option.some.injEq]
      constructor
      · rintro rfl
        exact ⟨e, he, hid, rfl⟩
      · rintro ⟨e', he', hid', rfl⟩
        exact hagree e he e' he' (hid.trans hid'.symm)
    · rw [hv]
      constructor
      · intro hst
        split at hst
        · rename_i hl
          obtain ⟨e, he, hid⟩ := hfresh id st hst hl
          exact absurd hid (hnot e he)
        · cases hst
      · rintro ⟨e, he, hid, -⟩
        exact absurd hid (hnot e he)

/-! ## What the client knows -/

/-- `ENTITY_SPAWN`, `ENTITY_UPDATE` and `ENTITY_DESTROY`. -/
def UdpMsg.IsEntityMessage : UdpMsg F → Prop
  | .entitySpawn _ _ _ _ | .entityUpdate _ _ _ | .entityDestroy _ => True
  | _ => False

/-- `PLAYER_STATE` -/
def UdpMsg.IsPlayerState : UdpMsg F → Prop
  | .playerState _ _ _ _ _ => True
  | _ => False

/-- A message tells at most one thing about each entity. -/
def UdpMsg.Once (m : UdpMsg F) : Prop := ∀ e, (m.lifeEvents e).length ≤ 1

omit [FloatOps F] in
/-- A synchronization of entities with distinct ids tells one thing about each. -/
theorem syncOf_once {entities : List (Entity F)} (hn : (entities.map (·.id)).Nodup) : (syncOf entities).Once := by
  intro e
  have hrecords : ((entities.map fun x => (⟨x.id, x.type, x.x, x.y⟩ : SyncedEntityState F)).take 72).map (·.entityId) =
      (entities.map (·.id)).take 72 := by
    rw [List.map_take, List.map_map]
    rfl
  have hcount := List.nodup_iff_count_le_one.1 (hn.sublist (List.take_sublist 72 _)) e
  rw [← hrecords, List.count, List.countP_map, List.countP_eq_length_filter] at hcount
  rw [syncOf, UdpMsg.lifeEvents, List.length_map]
  refine le_trans (le_of_eq (congrArg List.length (List.filter_congr fun s _ => ?_))) hcount
  simp [Bool.beq_eq_decide_eq]

omit [FloatOps F] in
/-- A message that tells nothing about entities. -/
theorem UdpMsg.Once.of_nil {m : UdpMsg F} (h : ∀ e, m.lifeEvents e = []) : m.Once := by
  intro e
  rw [h e]
  exact Nat.zero_le 1

/-- **Every message about entities tells one thing about each.** -/
theorem EntityWork.once {k n : ℕ} {r r' : Room F} (h : EntityWork n r r') (hB : Born k r) (hk : k + n < 2 ^ 32)
    (ho : ∀ m ∈ r.out, m.msg.Once) : ∀ m ∈ r'.out, m.msg.Once := by
  induction h generalizing k with
  | quiet hQ _ =>
    obtain ⟨new, he, hq⟩ := hQ.out
    intro m hm
    rw [he, List.mem_append] at hm
    exact hm.elim (ho m) fun hm => .of_nil (hq m hm)
  | spawn r type x y vx vy h w extra hx =>
    intro m hm
    rcases List.mem_append.1 hm with hm | hm
    · exact ho m hm
    · obtain ⟨d, -, -, msg, hmsg, rfl⟩ := mem_announce.1 hm
      rcases List.mem_cons.1 hmsg with rfl | hmsg
      · intro e
        simp only [UdpMsg.lifeEvents]
        split <;> simp
      · exact .of_nil (hx msg hmsg)
  | update r =>
    intro m hm
    rcases List.mem_append.1 hm with hm | hm
    · exact ho m hm
    · obtain ⟨x, -, hm⟩ := List.mem_flatMap.1 hm
      obtain ⟨d, -, -, msg, hmsg, rfl⟩ := mem_announce.1 hm
      intro e
      rw [List.mem_singleton.1 hmsg, Entity.report]
      split <;> simp only [UdpMsg.lifeEvents] <;> split <;> simp
  | sync r =>
    intro m hm
    rw [sendGlobalStateSync_eq] at hm
    rcases List.mem_append.1 hm with hm | hm
    · exact ho m hm
    · obtain ⟨d, -, -, msg, hmsg, rfl⟩ := mem_announce.1 hm
      rw [List.mem_singleton.1 hmsg]
      exact syncOf_once hB.nodup
  | @trans m n r s t h₁ h₂ ih₁ ih₂ => exact ih₂ (hB.work h₁ (by omega)) (by omega) (ih₁ hB (by omega) ho)

namespace RTypeClient

/-- The client has entities with ids up to `k` only. -/
def Knows (k : ℕ) (c : RTypeClient F) : Prop := ∀ (id : UInt32) st, c.entities[id]? = some st → id.toNat ≤ k

omit [FloatOps F] in
theorem Knows.mono {k k' : ℕ} {c : RTypeClient F} (h : c.Knows k) (hk : k ≤ k') : c.Knows k' :=
  fun id st hst => (h id st hst).trans hk

omit [FloatOps F] in
theorem Knows.of_eq {k : ℕ} {c c' : RTypeClient F} (h : c.Knows k) (he : c'.entities = c.entities) : c'.Knows k :=
  fun id st hst => h id st (he ▸ hst)

/-- The entities and the own player stay the same. -/
def KeepsEntities (c c' : RTypeClient F) : Prop := c'.entities = c.entities ∧ c'.myPlayerId = c.myPlayerId

omit [FloatOps F] in
theorem KeepsEntities.refl (c : RTypeClient F) : c.KeepsEntities c := ⟨rfl, rfl⟩

omit [FloatOps F] in
theorem KeepsEntities.trans {c₁ c₂ c₃ : RTypeClient F} (h : c₁.KeepsEntities c₂) (h' : c₂.KeepsEntities c₃) :
    c₁.KeepsEntities c₃ :=
  ⟨h'.1.trans h.1, h'.2.trans h.2⟩

theorem applyInput_keepsEntities (c : RTypeClient F) (pkt : PlayerInputPacket) : c.KeepsEntities (c.applyInput pkt) := by
  unfold applyInput
  split <;> exact ⟨rfl, rfl⟩

theorem recordState_keepsEntities (c : RTypeClient F) (now sequence : UInt32) :
    c.KeepsEntities (c.recordState now sequence) := by
  unfold recordState
  extract_lets lostCount c'
  have hc : c.KeepsEntities c' := by
    simp only [c']
    split
    · exact ⟨rfl, rfl⟩
    · split <;> exact ⟨rfl, rfl⟩
  exact hc

theorem reconcile_keepsEntities (c : RTypeClient F) (lastProcessedTick : UInt32) (x y : F) :
    c.KeepsEntities (c.reconcile lastProcessedTick x y) := by
  unfold reconcile
  extract_lets c'
  have hfold : c'.KeepsEntities (c'.pendingInputs.foldl applyInput c') :=
    foldl_rel (R := KeepsEntities) .refl (fun _ _ _ => .trans) applyInput_keepsEntities _ c'
  exact KeepsEntities.trans ⟨rfl, rfl⟩ hfold

/-- A `PLAYER_STATE` is about no entity. -/
theorem playerState_keepsEntities (c : RTypeClient F) (now playerId sequence lastProcessedTick : UInt32) (x y : F) :
    c.KeepsEntities (c.handlePacket now (.playerState playerId sequence lastProcessedTick x y)) := by
  simp only [handlePacket]
  split
  · split
    · exact .refl c
    · exact (c.recordState_keepsEntities now sequence).trans (reconcile_keepsEntities _ _ x y)
  · exact ⟨rfl, rfl⟩

theorem handleInput_entities (c : RTypeClient F) (k : Keys) : (c.handleInput k).1.entities = c.entities := by
  have hshot : ∀ c : RTypeClient F, (c.chargeShot k).1.entities = c.entities := by
    intro c
    unfold chargeShot
    split
    · dsimp only
      split <;> rfl
    · split <;> rfl
  have hsend : (c.sendInput k).1.entities = c.entities := by
    unfold sendInput
    dsimp only
    split
    · exact (applyInput_keepsEntities _ _).1.trans (hshot _)
    · exact hshot _
  have htype : (c.typeChat k).1.entities = c.entities := by
    unfold typeChat
    split
    · split <;> rfl
    · rfl
  unfold handleInput
  split
  · rfl
  · split
    · exact htype
    · exact hsend

/-- A client hears of the entities a message tells about, and of no others. -/
theorem Knows.handlePacket {k : ℕ} {c : RTypeClient F} (h : c.Knows k) (now : UInt32) {m : UdpMsg F}
    (hm : ∀ e, m.lifeEvents e ≠ [] → e.toNat ≤ k) : (c.handlePacket now m).Knows k := by
  cases m with
  | playerState playerId sequence lastProcessedTick x y =>
    exact h.of_eq (c.playerState_keepsEntities now playerId sequence lastProcessedTick x y).1
  | entitySpawn entityId entityType x y =>
    intro id st hst
    simp only [RTypeClient.handlePacket, Maps.getElem?_insert] at hst
    split at hst
    · rename_i hid
      refine hm id ?_
      simp [UdpMsg.lifeEvents, hid]
    · exact h id st hst
  | entityUpdate entityId x y =>
    intro id st hst
    simp only [RTypeClient.handlePacket] at hst
    split at hst
    · rename_i e he
      simp only [Maps.getElem?_insert] at hst
      split at hst
      · rename_i hid
        exact h id e (hid ▸ he)
      · exact h id st hst
    · exact h id st hst
  | entityDestroy entityId =>
    intro id st hst
    simp only [RTypeClient.handlePacket, destroyEntity, Maps.getElem?_erase] at hst
    split at hst
    · cases hst
    · exact h id st hst
  | globalStateSync entityCount records =>
    intro id st hst
    simp only [RTypeClient.handlePacket, syncEntities] at hst
    rcases Maps.getElem?_foldl_insert (fun s : SyncedEntityState F => s.entityId) (fun s => ⟨s.x, s.y, s.entityType⟩)
      (syncedRecords entityCount records) (c.entities.filter fun id _ => firstLocalId ≤ id) id with
      ⟨s, hs, rfl, -⟩ | ⟨-, hv⟩
    · -- a record of the datagram, or the zeros after it
      obtain ⟨i, -, rfl⟩ := List.mem_map.1 hs
      by_cases hi : i < records.length
      · rw [List.getD_eq_getElem?_getD, List.getElem?_eq_getElem hi, Option.getD_some]
        refine hm _ ?_
        have hmem : records[i] ∈ records.filter (·.entityId = records[i].entityId) :=
          List.mem_filter.2 ⟨List.getElem_mem hi, by simp⟩
        rw [UdpMsg.lifeEvents]
        exact fun hnil => List.ne_nil_of_mem hmem (List.map_eq_nil_iff.1 hnil)
      · rw [List.getD_eq_getElem?_getD, List.getElem?_eq_none (by omega), Option.getD_none]
        exact Nat.zero_le k
    · rw [hv, Std.TreeMap.getElem?_filter'] at hst
      exact h id st (Option.eq_some_of_filter_eq_some hst)
  | pong _ | playerDisconnect _ | youHaveBeenKicked | bossState _ _ => exact h.of_eq rfl

end RTypeClient

/-! ## Runs -/

namespace Viewer

/-- How many entities a step creates. -/
def created (s s' : Viewer F) : ℕ := GameThreads.created s.threads s'.threads

/-- All that is lost are messages about one entity. -/
def LosesEntityMessages (s : Viewer F) : Label F → Prop
  | .loss => ∀ m, s.inbox[s.passed]? = some m → m.IsEntityMessage
  | _ => True

/-- Whenever the client handles a `GLOBAL_STATE_SYNC` of at most 72 entities, it holds
exactly their ids, types and positions afterwards. -/
def SyncsRepair (s₀ : Viewer F) (labels : List (Label F)) : Prop :=
  ∀ pre now post s s' entities, labels = pre ++ .packet now :: post → machine.run s₀ pre = some s →
    s.inbox[s.passed]? = some (syncOf entities) → entities.length ≤ 72 →
    machine.step s (.packet now) = some s' → s'.client.Shows entities

/-- A `GLOBAL_STATE_SYNC` of at most 72 entities finds the client in step. -/
def SyncsInStep (s : Viewer F) : Label F → Prop
  | .packet _ => ∀ entities, s.inbox[s.passed]? = some (syncOf entities) → entities.length ≤ 72 →
      s.client.InStep entities
  | _ => True

/-- The handling of a packet. -/
theorem step_packet {s : Viewer F} {m : UdpMsg F} (h : s.inbox[s.passed]? = some m) (now : UInt32) :
    machine.step s (.packet now) =
      some { s with client := s.client.handlePacket now m, passed := s.passed + 1 } := by
  simp only [machine, step, h, Option.map_some]

theorem syncsRepair_iff_along (s₀ : Viewer F) (labels : List (Label F)) :
    SyncsRepair s₀ labels ↔ machine.Along SyncsInStep s₀ labels := by
  constructor
  · intro h
    refine Machine.along_of_forall fun pre l post s he hr => ?_
    cases l with
    | packet now =>
      intro entities hm hlen
      exact (syncEntities_shows_iff s.client now hlen).1 (h pre now post s _ entities he hr hm hlen (step_packet hm now))
    | server _ | keys _ | menu _ | loss => trivial
  · rintro h pre now post s s' entities rfl hr hm hlen hs
    have hin : s.client.InStep entities := h.at hr entities hm hlen
    rw [step_packet hm now] at hs
    obtain rfl := Option.some.inj hs
    exact (syncEntities_shows_iff s.client now hlen).2 hin

/-- **What a game of `k` entities has told its client.** -/
structure Told (k : ℕ) (s : Viewer F) : Prop where
  born : Born k s.threads.room
  once : ∀ m ∈ s.threads.room.out, m.msg.Once
  knows : s.client.Knows k

omit [FloatOps F] in
theorem mem_out_of_inbox {s : Viewer F} {i : ℕ} {m : UdpMsg F} (h : s.inbox[i]? = some m) :
    ∃ sent ∈ s.threads.room.out, sent.msg = m := by
  obtain ⟨sent, hsent, rfl⟩ := List.mem_map.1 (List.mem_of_getElem? h)
  exact ⟨sent, (List.mem_filter.1 hsent).1, rfl⟩

omit [FloatOps F] in
/-- What leaves the threads alone creates nothing. -/
theorem created_of_threads {s s' : Viewer F} (h : s'.threads = s.threads) : created s s' = 0 := by
  unfold created
  rw [h]
  exact GameThreads.created_of_quiet (.of_eq rfl rfl rfl)

/-- **Every step keeps to what was told.** -/
theorem told_step {k : ℕ} {s s' : Viewer F} {l : Label F} (h : Told k s) (hs : machine.step s l = some s')
    (hk : k + created s s' < 2 ^ 32) : Told (k + created s s') s' := by
  -- outside the server only the client changes
  have hclient : s'.threads = s.threads → s'.client.Knows k → Told (k + created s s') s' := by
    intro he hknows
    rw [created_of_threads he]
    refine ⟨?_, ?_, hknows⟩
    · rw [he]
      exact h.born
    · rw [he]
      exact h.once
  cases l with
  | server l =>
    obtain ⟨threads, ht, rfl⟩ := Option.map_eq_some_iff.1 hs
    refine ⟨GameThreads.born_step h.born ht hk, ?_, h.knows.mono (Nat.le_add_right _ _)⟩
    rcases GameThreads.step_work ht with hQ | ⟨n, hn, hW⟩
    · obtain ⟨new, he, hq⟩ := hQ.out
      intro m hm
      rw [show ({ s with threads } : Viewer F).threads.room.out = _ from he, List.mem_append] at hm
      exact hm.elim (h.once m) fun hm => .of_nil (hq m hm)
    · have hcount : created s { s with threads } = n := GameThreads.created_of_work hn hW
      rw [hcount] at hk
      exact hW.once h.born hk h.once
  | keys key =>
    obtain rfl := Option.some.inj hs
    exact hclient rfl (h.knows.of_eq (s.client.handleInput_entities key))
  | menu status =>
    obtain rfl := Option.some.inj hs
    exact hclient rfl (h.knows.of_eq rfl)
  | packet now =>
    obtain ⟨m, hm, rfl⟩ := Option.map_eq_some_iff.1 hs
    obtain ⟨sent, hsent, rfl⟩ := mem_out_of_inbox hm
    exact hclient rfl (h.knows.handlePacket now fun e he => (h.born.told sent hsent e he).2)
  | loss =>
    obtain ⟨m, -, rfl⟩ := Option.map_eq_some_iff.1 hs
    exact hclient rfl h.knows

theorem told_init (boss : Boss F) (now : ℕ) (playerId serverTimeMs : UInt32) :
    Told 0 (init boss now playerId serverTimeMs) := by
  refine ⟨GameThreads.born_init boss now, fun m hm => (nomatch hm), fun id st hst => ?_⟩
  have hnone : (∅ : Std.TreeMap UInt32 (EntityState F))[id]? = none := Std.TreeMap.getElem?_emptyc
  exact absurd (hnone.symm.trans hst) (by simp)

omit [FloatOps F] in
/-- A client that knows few entities is in step with every synchronization. -/
theorem Told.inStep {k : ℕ} {s : Viewer F} (h : Told k s) (hk : k < 9999) {i : ℕ} {entities : List (Entity F)}
    (hm : s.inbox[i]? = some (syncOf entities)) (hlen : entities.length ≤ 72) : s.client.InStep entities := by
  refine ⟨fun e he e' he' hid => ?_, fun id st hst hl => ?_⟩
  · obtain ⟨sent, hsent, hmsg⟩ := mem_out_of_inbox hm
    have honce := h.once sent hsent e.id
    rw [hmsg, syncOf, List.take_of_length_le (by rw [List.length_map]; exact hlen), UdpMsg.lifeEvents,
      List.length_map, List.filter_map, List.length_map] at honce
    have hmem : ∀ x ∈ entities, x.id = e.id →
        x ∈ entities.filter ((fun s : SyncedEntityState F => decide (s.entityId = e.id)) ∘
          fun x => ⟨x.id, x.type, x.x, x.y⟩) :=
      fun x hx hxe => List.mem_filter.2 ⟨hx, by simp [hxe]⟩
    have h₁ := hmem e he rfl
    have h₂ := hmem e' he' hid.symm
    obtain ⟨x, hx⟩ := List.length_eq_one_iff.1 (le_antisymm honce (List.length_pos_of_mem h₁))
    rw [hx, List.mem_singleton] at h₁ h₂
    rw [h₁, h₂]
  · have hle := h.knows id st hst
    rw [RTypeClient.firstLocalId, UInt32.le_iff_toNat_le] at hl
    have h9999 : (9999 : UInt32).toNat = 9999 := rfl
    omega

/-- **Global synchronization.** -/
theorem syncsRepair_iff (boss : Boss F) (now : ℕ) (playerId serverTimeMs : UInt32) (labels : List (Label F)) :
    (SyncsRepair (init boss now playerId serverTimeMs) labels ↔
        machine.Along SyncsInStep (init boss now playerId serverTimeMs) labels) ∧
      (machine.total created (init boss now playerId serverTimeMs) labels < 9999 →
        SyncsRepair (init boss now playerId serverTimeMs) labels) := by
  refine ⟨syncsRepair_iff_along _ _, fun hk => (syncsRepair_iff_along _ _).2 ?_⟩
  refine Machine.along_of_forall fun pre l post s he hr => ?_
  have hle := machine.total_le_of_prefix created ⟨l :: post, he.symm⟩ hr
  have htold := Machine.inv_total (M := machine) (C := fun _ _ => True) (J := Told) (f := created) (N := 2 ^ 32)
    (fun k s a s' hT _ hs hk => told_step hT hs hk) pre 0 _ s (told_init boss now playerId serverTimeMs)
    (Machine.along_of_forall fun _ _ _ _ _ _ => trivial) hr (by omega)
  cases l with
  | packet now' => exact fun entities hm hlen => htold.inStep (by omega) hm hlen
  | server _ | keys _ | menu _ | loss => trivial

/-! ## A removed entity that stays -/

/-- What the threads can do, they can do while the client waits. -/
theorem reaches_server {labels : List (GameThreads.Label F)} {s : Viewer F} {threads : GameThreads F}
    (h : GameThreads.machine.run s.threads labels = some threads) :
    machine.Reaches LosesEntityMessages s { s with threads } := by
  induction labels generalizing s with
  | nil =>
    obtain rfl := Option.some.inj h
    exact Machine.reaches_self
  | cons l labels ih =>
    obtain ⟨threads', hs, hr⟩ := GameThreads.machine.run_cons_iff.1 h
    have hstep : machine.step s (.server l) = some { s with threads := threads' } := by
      simp only [machine, step, hs, Option.map_some]
    exact (Machine.reaches_step hstep trivial).trans (ih (s := { s with threads := threads' }) hr)

/-- Between two messages, entity messages may be lost, and the states of the players come. -/
theorem reaches_passed (k : ℕ) {s : Viewer F} (hm : ∀ i m, s.passed ≤ i → i < s.passed + k →
      s.inbox[i]? = some m → m.IsEntityMessage ∨ m.IsPlayerState) (hlen : s.passed + k ≤ s.inbox.length) :
    ∃ client, s.client.KeepsEntities client ∧
      machine.Reaches LosesEntityMessages s { s with client, passed := s.passed + k } := by
  induction k with
  | zero => exact ⟨s.client, .refl _, Machine.reaches_self⟩
  | succ k ih =>
    obtain ⟨client, hkeeps, hreach⟩ := ih (fun i m hle hlt => hm i m hle (by omega)) (by omega)
    set t : Viewer F := { s with client, passed := s.passed + k } with ht
    have hinbox : t.inbox = s.inbox := by rw [inbox, inbox, hkeeps.2]
    obtain ⟨m, hpos⟩ : ∃ m, s.inbox[s.passed + k]? = some m := ⟨_, List.getElem?_eq_getElem (by omega)⟩
    have hnext : t.inbox[t.passed]? = some m := by rw [hinbox, ← hpos]
    rcases hm (s.passed + k) m (by omega) (by omega) hpos with hentity | hstate
    · refine ⟨client, hkeeps, hreach.trans (Machine.reaches_step (a := .loss) ?_ ?_)⟩
      · simp only [machine, step, hnext, Option.map_some]
        rfl
      · intro m' hm'
        rw [hnext] at hm'
        exact Option.some.inj hm' ▸ hentity
    · refine ⟨client.handlePacket 0 m, hkeeps.trans ?_,
        hreach.trans (Machine.reaches_step (step_packet hnext 0) trivial)⟩
      cases m with
      | playerState playerId sequence lastProcessedTick x y => exact client.playerState_keepsEntities _ _ _ _ x y
      | _ => exact hstate.elim

section Counterexample

/-- A room of one player, after `n` shots of which none has moved. -/
def volley (p : Player ℚ) (n : ℕ) : Room ℚ where
  game :=
    { players := [p]
      entities := (List.range n).map fun i =>
        { id := UInt32.ofNat (i + 1), type := 1, x := p.x + ((25 : ℤ) : ℚ), y := p.y
          velocityX := 10.0, velocityY := 0.0, height := 10, width := 5 }
      nextEntityId := UInt32.ofNat (n + 1)
      gameTime := 0, lastEnemySpawnTime := 0, lastGlobalSyncTime := 0, status := .playing }
  boss := Boss.none
  out := (List.range n).map fun i =>
    ⟨some p.id, p.udpAddr, .entitySpawn (UInt32.ofNat (i + 1)) 1 (p.x + ((25 : ℤ) : ℚ)) p.y⟩

variable {p : Player ℚ}

theorem volley_shot (hp : p.addrSet = true) (n : ℕ) : (volley p n).createPlayerShot p.id = volley p (n + 1) := by
  have hfind : (volley p n).game.players.find? (·.id == p.id) = some p := by simp [volley]
  have hnext : UInt32.ofNat (n + 1) + 1 = UInt32.ofNat (n + 1 + 1) := (UInt32.ofNat_add (n + 1) 1).symm
  have hto : announce [p] [(.entitySpawn (UInt32.ofNat (n + 1)) 1 (p.x + ((25 : ℤ) : ℚ)) p.y : UdpMsg ℚ)] =
      [⟨some p.id, p.udpAddr, .entitySpawn (UInt32.ofNat (n + 1)) 1 (p.x + ((25 : ℤ) : ℚ)) p.y⟩] := by
    simp [announce, hp]
  rw [Room.createPlayerShot, hfind]
  simp only [Room.spawnShot, Room.spawn, Room.broadcast, volley, hnext, hto, List.range_succ, List.map_append,
    List.map_cons, List.map_nil]

/-- The input of the key to the left. -/
def leftInput (playerId tick : UInt32) : PlayerInputPacket := ⟨playerId, tick, Input.left.bit⟩

theorem has_leftInput (playerId tick : UInt32) (i : Input) :
    (leftInput playerId tick).has i = decide (i = .left) := by
  have hbits : (Input.left.bit &&& i.bit != 0) = decide (i = .left) := by cases i <;> decide
  exact hbits

theorem moves_leftInput (playerId tick : UInt32) : (leftInput playerId tick).moves = [.move .left] := by
  rw [PlayerInputPacket.moves, List.filter_congr fun i _ => has_leftInput playerId tick i]
  rfl

/-- An input to the left moves the player and nothing else. -/
theorem volley_left (p : Player ℚ) (tick : UInt32) :
    (volley p 0).handlePlayerInput (leftInput p.id tick) = volley (p.handle (leftInput p.id tick)) 0 := by
  have hfind : (volley p 0).game.getPlayer (leftInput p.id tick).playerId = some 0 := by
    simp [volley, Game.getPlayer, leftInput]
  rw [Room.handlePlayerInput_eq hfind]
  simp only [has_leftInput]
  rfl

theorem handle_leftInput (p : Player ℚ) (tick : UInt32) :
    (p.handle (leftInput p.id tick)).addrSet = p.addrSet ∧ (p.handle (leftInput p.id tick)).velocity = p.velocity ∧
      (p.handle (leftInput p.id tick)).x = p.x - p.velocity := by
  have hstate := p.recordInput_sameState tick
  have haddr : (p.recordInput tick).addrSet = p.addrSet := by
    unfold Player.recordInput
    split
    · rfl
    · split <;> rfl
  rw [Player.handle, moves_leftInput, ← haddr, ← hstate.velocity, ← hstate.x]
  unfold Player.seen
  split <;> exact ⟨rfl, rfl, rfl⟩

/-- The room without entities, `t` seconds after its start. -/
def cleared (p : Player ℚ) (n : ℕ) (t : ℚ) (out : List (Sent ℚ)) : Room ℚ :=
  ⟨⟨[p], [], UInt32.ofNat (n + 1), t, 0, 0, .playing⟩, Boss.none, out⟩

/-- Shots fired beyond the left edge of the screen are removed as soon as they move. -/
theorem volley_updateEntities (hx : p.x = -60) (n : ℕ) :
    ∃ gone, (volley p n).updateEntities = cleared p n 0 ((volley p n).out ++ gone) ∧
      ∀ m ∈ gone, m.msg.IsEntityMessage := by
  have hleave : ∀ e ∈ (volley p n).game.entities.map Entity.advance, e.leaves = true := by
    intro e he
    obtain ⟨e₀, he₀, rfl⟩ := List.mem_map.1 he
    obtain ⟨i, -, rfl⟩ := List.mem_map.1 he₀
    have hlt : p.x + ((25 : ℤ) : ℚ) + 10.0 < ((-20 : ℤ) : ℚ) := by
      rw [hx]
      norm_num
    simp only [Entity.leaves, Entity.advance, Bool.or_eq_true]
    exact .inl (.inr (decide_eq_true hlt))
  have hnone : (volley p n).updateEntities.game.entities = [] :=
    List.filter_eq_nil_iff.2 fun e he => by simp [hleave e he]
  refine ⟨((volley p n).game.entities.map Entity.advance).flatMap fun e => announce [p] [e.report], ?_, ?_⟩
  · rw [cleared, ← hnone]
    rfl
  · intro m hm
    obtain ⟨e, he, hm⟩ := List.mem_flatMap.1 hm
    obtain ⟨d, -, -, msg, hmsg, rfl⟩ := mem_announce.1 hm
    rw [List.mem_singleton.1 hmsg, Entity.report, if_pos (hleave e he)]
    trivial

/-- The middle of an update finds nothing to collide, to steer or to shoot. -/
theorem cleared_stages (haddr : p.addrSet = true) (n : ℕ) (out : List (Sent ℚ)) :
    ∃ q states, (cleared p n 0 out).handleCollision.broadcastGameState.updateGameLevel 0.016 =
        cleared q n (0 + 0.016) (out ++ states) ∧ q.id = p.id ∧ q.udpAddr = p.udpAddr ∧ q.addrSet = true ∧
      ∀ m ∈ states, m.msg.IsPlayerState := by
  refine ⟨if p.addrSet then { p with statePacketSequence := p.statePacketSequence + 1 } else p, _, rfl, ?_⟩
  rw [if_pos haddr]
  refine ⟨rfl, rfl, haddr, fun m hm => ?_⟩
  obtain ⟨d, -, hm⟩ := List.mem_flatMap.1 hm
  obtain ⟨d', -, -, msg, hmsg, rfl⟩ := mem_announce.1 hm
  rw [List.mem_singleton.1 hmsg]
  trivial

theorem cleared_bossStage (p : Player ℚ) (n : ℕ) {t : ℚ} (ht : ¬ (10.0 : ℚ) < t) (out : List (Sent ℚ)) :
    (cleared p n t out).bossStage = (cleared p n t out, none) := by
  have hlevel : ¬ (cleared p n t out).boss.level = 2 := fun h => absurd (show (0 : ℤ) = 2 from h) (by decide)
  unfold Room.bossStage
  rw [if_neg fun hc => ht hc.2, if_neg fun hc => hlevel hc.1]

/-- When a synchronization is due and no enemy, the list is sent as it is. -/
theorem cleared_syncStage (haddr : p.addrSet = true) (n : ℕ) (t : ℚ) (out : List (Sent ℚ)) {env : UpdateEnv}
    (henemy : env.enemyNow = 0) (hsync : 100000000 ≤ env.syncNow) :
    (((cleared p n t out).enemyStage env).syncStage env).out = out ++ [⟨some p.id, p.udpAddr, syncOf []⟩] := by
  have hwait : ¬ 2000000000 < env.enemyNow - (cleared p n t out).game.lastEnemySpawnTime := by
    rw [henemy, Nat.zero_sub]
    omega
  have hdue : 100000000 ≤ env.syncNow - (cleared p n t out).game.lastGlobalSyncTime := hsync
  have hto : announce [p] [(syncOf [] : UdpMsg ℚ)] = [⟨some p.id, p.udpAddr, syncOf []⟩] := by simp [announce, haddr]
  rw [Room.enemyStage, if_neg hwait, Room.syncStage, if_pos hdue, ← hto]
  rfl

/-- **An update removes all shots of the volley and synchronizes.** -/
theorem volley_update (haddr : p.addrSet = true) (hx : p.x = -60) (n : ℕ) {env : UpdateEnv}
    (henemy : env.enemyNow = 0) (hsync : 100000000 ≤ env.syncNow) :
    ∃ new, ((volley p n).update env).out = (volley p n).out ++ new ++ [⟨some p.id, p.udpAddr, syncOf []⟩] ∧
      ∀ m ∈ new, m.msg.IsEntityMessage ∨ m.msg.IsPlayerState := by
  have hplaying : ¬ (volley p n).game.status ≠ .playing := fun h => h rfl
  have hearly : ¬ (10.0 : ℚ) < 0 + 0.016 := by norm_num
  obtain ⟨gone, hgone, hentity⟩ := volley_updateEntities hx n
  obtain ⟨q, states, hstages, hid, hudp, hset, hstate⟩ := cleared_stages haddr n ((volley p n).out ++ gone)
  have haim : ∀ out, (cleared q n (0 + 0.016) out).bossAim = none := fun _ => rfl
  refine ⟨gone ++ states, ?_, fun m hm => (List.mem_append.1 hm).imp (hentity m) (hstate m)⟩
  rw [Room.update, if_neg hplaying, hgone]
  simp only [hstages, cleared_bossStage q n hearly, haim]
  rw [cleared_syncStage hset n _ _ henemy hsync, hid, hudp, List.append_assoc _ gone states]

/-- 92 inputs to the left lead out of the screen. -/
theorem rests_left (addr : SockAddr) : ∃ p : Player ℚ, p.id = 1 ∧ p.addrSet = true ∧ p.x = -60 ∧
    (GameThreads.init Boss.none 0).Rests (volley p 0) := by
  have hleft : ∀ n : ℕ, ∃ p : Player ℚ, p.id = 1 ∧ p.addrSet = true ∧ p.velocity = 5 ∧ p.x = 400 - 5 * n ∧
      (GameThreads.init Boss.none 0).Rests (volley p 0) := by
    intro n
    induction n with
    | zero =>
      refine ⟨{ Player.new 1 [] with udpAddr := addr, addrSet := true }, rfl, rfl, rfl, ?_,
        [.join 1 [], .start 1, .updatePlayerUdpAddr 1 addr], 0, rfl⟩
      rw [Nat.cast_zero, mul_zero, sub_zero]
      rfl
    | succ n ih =>
      obtain ⟨p, hid, haddr, hvel, hx, h⟩ := ih
      obtain ⟨haddr', hvel', hx'⟩ := handle_leftInput p (UInt32.ofNat n)
      refine ⟨p.handle (leftInput p.id (UInt32.ofNat n)), ?_, haddr'.trans haddr, hvel'.trans hvel, ?_, ?_⟩
      · rw [Player.handle_id, hid]
      · rw [hx', hx, hvel]
        push_cast
        ring
      · rw [← volley_left]
        exact h.handlePlayerInput _
  obtain ⟨p, hid, haddr, -, hx, h⟩ := hleft 92
  refine ⟨p, hid, haddr, ?_, h⟩
  rw [hx]
  norm_num

theorem rests_volley {s : GameThreads ℚ} (haddr : p.addrSet = true) (h : s.Rests (volley p 0)) (n : ℕ) :
    s.Rests (volley p n) := by
  induction n with
  | zero => exact h
  | succ n ih =>
    rw [← volley_shot haddr]
    exact ih.createPlayerShot p.id

/-- The player is told of each shot, then of what else happens, and of the synchronization. -/
theorem inbox_volley {s : Viewer ℚ} {n : ℕ} {new : List (Sent ℚ)} (hid : p.id = s.client.myPlayerId)
    (hout : s.threads.room.out = (volley p n).out ++ new ++ [⟨some p.id, p.udpAddr, syncOf []⟩]) :
    ∃ told, s.inbox = (volley p n).out.map (·.msg) ++ told ++ [syncOf []] ∧ ∀ m ∈ told, ∃ sent ∈ new, sent.msg = m := by
  have hspawns : (volley p n).out.filter (·.dest = some s.client.myPlayerId) = (volley p n).out := by
    refine List.filter_eq_self.2 fun m hm => ?_
    obtain ⟨k, -, rfl⟩ := List.mem_map.1 hm
    simp [hid]
  have hlast : [(⟨some p.id, p.udpAddr, syncOf []⟩ : Sent ℚ)].filter (·.dest = some s.client.myPlayerId) =
      [⟨some p.id, p.udpAddr, syncOf []⟩] := by simp [hid]
  refine ⟨(new.filter (·.dest = some s.client.myPlayerId)).map (·.msg), ?_, fun m hm => ?_⟩
  · rw [inbox, hout, List.filter_append, List.filter_append, hspawns, hlast, List.map_append, List.map_append]
    rfl
  · obtain ⟨sent, hsent, rfl⟩ := List.mem_map.1 hm
    exact ⟨sent, (List.mem_filter.1 hsent).1, rfl⟩

/-- A run in which all that is lost of a volley are the spawns but the last, and what
destroys them. -/
theorem reaches_volley {s : Viewer ℚ} {n i : ℕ} (hn : i + 1 = n) {new : List (Sent ℚ)} (hid : p.id = s.client.myPlayerId)
    (hpassed : s.passed = 0)
    (hout : s.threads.room.out = (volley p n).out ++ new ++ [⟨some p.id, p.udpAddr, syncOf []⟩])
    (hnew : ∀ m ∈ new, m.msg.IsEntityMessage ∨ m.msg.IsPlayerState) :
    ∃ t, machine.Reaches LosesEntityMessages s t ∧ t.inbox[t.passed]? = some (syncOf []) ∧
      t.client.entities[UInt32.ofNat n]? = some ⟨p.x + ((25 : ℤ) : ℚ), p.y, 1⟩ := by
  obtain ⟨told, hinbox, htold⟩ := inbox_volley hid hout
  have hlen : ((volley p n).out.map (·.msg)).length = n := by simp [volley]
  have hspawn : ∀ j < n, s.inbox[j]? = some (.entitySpawn (UInt32.ofNat (j + 1)) 1 (p.x + ((25 : ℤ) : ℚ)) p.y) := by
    intro j hj
    rw [hinbox, List.append_assoc, List.getElem?_append_left (by omega)]
    simp [volley, hj]
  have htotal : s.inbox.length = n + told.length + 1 := by
    rw [hinbox, List.length_append, List.length_append, hlen, List.length_singleton]
  have hsync : s.inbox[n + told.length]? = some (syncOf []) := by
    rw [hinbox, List.getElem?_append_right (by rw [List.length_append]; omega), List.length_append, hlen, Nat.sub_self]
    rfl
  -- the other spawns are lost
  obtain ⟨client, hkeeps, hbefore⟩ := reaches_passed i (s := s) (fun j m _ hj hm => by
    rw [hspawn j (by omega)] at hm
    exact .inl (Option.some.inj hm ▸ trivial)) (by omega)
  set s₁ : Viewer ℚ := { s with client, passed := s.passed + i }
  have hsame₁ : s₁.inbox = s.inbox := by rw [inbox, inbox, hkeeps.2]
  have hlast : s₁.inbox[s₁.passed]? = some (.entitySpawn (UInt32.ofNat n) 1 (p.x + ((25 : ℤ) : ℚ)) p.y) := by
    have hpos := hspawn i (by omega)
    rw [hn] at hpos
    rw [hsame₁, ← hpos, show s₁.passed = s.passed + i from rfl, hpassed, Nat.zero_add]
  -- the last one comes, and all that follows but what destroys the shots
  set s₂ : Viewer ℚ :=
    { s₁ with
      client := client.handlePacket 0 (.entitySpawn (UInt32.ofNat n) 1 (p.x + ((25 : ℤ) : ℚ)) p.y)
      passed := s₁.passed + 1 } with hs₂
  have hstep : machine.step s₁ (.packet 0) = some s₂ := step_packet hlast 0
  have hsame₂ : s₂.inbox = s.inbox := hsame₁
  have hpassed₂ : s₂.passed = n := by
    rw [show s₂.passed = s.passed + i + 1 from rfl, hpassed]
    omega
  obtain ⟨client', hkeeps', hafter⟩ := reaches_passed told.length (s := s₂) (fun j m hle hj hm => by
    rw [hsame₂, hinbox, List.getElem?_append_left (by rw [List.length_append]; omega),
      List.getElem?_append_right (by omega)] at hm
    obtain ⟨sent, hsent, rfl⟩ := htold m (List.mem_of_getElem? hm)
    exact hnew sent hsent) (by rw [hsame₂]; omega)
  refine ⟨_, (hbefore.trans (Machine.reaches_step hstep trivial)).trans hafter, ?_, ?_⟩
  · have hsame : ({ s₂ with client := client', passed := s₂.passed + told.length } : Viewer ℚ).inbox = s.inbox := by
      rw [inbox, hkeeps'.2]
      exact hsame₂
    rw [hsame, show ({ s₂ with client := client', passed := s₂.passed + told.length } : Viewer ℚ).passed =
      s₂.passed + told.length from rfl, hpassed₂]
    exact hsync
  · rw [hkeeps'.1]
    exact Std.TreeMap.getElem?_insert_self

/-- **A removed entity survives a synchronization**: 9999 shots are fired outside the
screen, an update removes them all and synchronizes; of what the client is told, only the
last spawn and the synchronization come. -/
theorem not_syncsRepair : ¬ ∀ labels, machine.Along LosesEntityMessages (init Boss.none 0 1 0 : Viewer ℚ) labels →
    SyncsRepair (init Boss.none 0 1 0 : Viewer ℚ) labels := by
  intro hall
  obtain ⟨p, hid, haddr, hx, hrest⟩ := rests_left default
  have henv : 100000000 ≤ (⟨0, 0, 0, 100000000, 100000000⟩ : UpdateEnv).syncNow := le_rfl
  obtain ⟨new, hout, hnew⟩ := volley_update haddr hx 9999 rfl henv
  obtain ⟨labels, playerId, hthreads⟩ := (rests_volley haddr hrest 9999).update ⟨0, 0, 0, 100000000, 100000000⟩
  set s : Viewer ℚ := { init Boss.none 0 1 0 with
    threads := ⟨(volley p 9999).update ⟨0, 0, 0, 100000000, 100000000⟩, playerId, [], .idle⟩ }
  have hlast : 9998 + 1 = 9999 := rfl
  have hid' : p.id = s.client.myPlayerId := hid
  have hout' : s.threads.room.out = _ := hout
  obtain ⟨t, hreach, hsync, hheld⟩ := reaches_volley hlast hid' rfl hout' hnew
  obtain ⟨labels, hrun, hloses⟩ := (reaches_server (s := init Boss.none 0 1 0) hthreads).trans hreach
  have hloses' : machine.Along LosesEntityMessages (init Boss.none 0 1 0) (labels ++ [.packet 0]) :=
    (Machine.along_append hrun).2 ⟨hloses, trivial, fun _ _ => trivial⟩
  have hin := ((syncsRepair_iff_along _ _).1 (hall _ hloses')).at hrun
  have hlocal : RTypeClient.firstLocalId ≤ 9999 := by decide
  obtain ⟨e, he, -⟩ := (hin [] hsync (Nat.zero_le 72)).fresh 9999 _ hheld hlocal
  exact nomatch he

end Counterexample

end Viewer

end RType

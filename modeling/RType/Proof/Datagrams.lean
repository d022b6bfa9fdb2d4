import RType.Lib.Maps
import RType.Spec.Datagrams

/-!
# Datagrams shorter than their packets

The receive loop tests the size of the array that `receiveMessage` returns, which is always
1024, and not what was received: a short datagram is read on into the zeros behind it.

* `length_padded_recvfrom`: so the size tests never fail.
* `unmoved_iff`: the messages that leave a client as it is.
* `countsReceived_iff`: **only received bytes count if and only if the zeros say nothing that
  the client does not hold anyway.**
* `not_countsReceived_spawn`: a datagram of one byte brings an entity.
-/

namespace RType

open Wire

variable {F : Type*} [FloatOps F] {float : UInt32 → F} {c c' : RTypeClient F} {now : UInt32} {datagram : List UInt8}

/-! ## What the client should do -/

namespace RTypeClient

/-- Players, entities, rtt, boss HP and score are the same. -/
structure Unmoved (c c' : RTypeClient F) : Prop where
  players : ∀ id : UInt32, c'.players[id]? = c.players[id]?
  entities : ∀ id : UInt32, c'.entities[id]? = c.entities[id]?
  rtt : c'.rtt = c.rtt
  bossHP : c'.bossHP = c.bossHP
  score : c'.score = c.score

/-- **Only received bytes count.** A datagram shorter than its packet changes nothing, and an
entity after a synchronization is a local one that was there before, or is in a record that
was received whole. -/
structure CountsReceived (float : UInt32 → F) (c : RTypeClient F) (now : UInt32) (datagram : List UInt8) : Prop where
  short : ∀ type size, (recvfrom datagram).head? = some type → packetSize type = some size →
    (recvfrom datagram).length < size → c.Unmoved (c.receive float now datagram)
  sync : (recvfrom datagram).head? = some 9 → sizeofGlobalStateSync ≤ (recvfrom datagram).length →
    ∀ (id : UInt32) e, (c.receive float now datagram).entities[id]? = some e →
      (firstLocalId ≤ id ∧ c.entities[id]? = some e) ∨
        ∃ i, recordOffset (i + 1) ≤ (recvfrom datagram).length ∧
          recordAt float (recvfrom datagram) i = ⟨id, e.type, e.x, e.y⟩

/-! ## When it does -/

/-- The state an entity record stands for. -/
def state {F : Type*} (s : SyncedEntityState F) : EntityState F := ⟨s.x, s.y, s.entityType⟩

/-- The record that decides about an id: the last one. -/
def lastRecord {F : Type*} (records : List (SyncedEntityState F)) (id : UInt32) : Option (SyncedEntityState F) :=
  (records.filter fun s => s.entityId = id).getLast?

/-- The message says what the client holds anyway. -/
def Repeats (c : RTypeClient F) (now : UInt32) : UdpMsg F → Prop
  | .playerState playerId _ lastProcessedTick x y =>
    if playerId = c.myPlayerId then
      c.status = .gameOver ∨ c.players[playerId]? = some
        ((c.pendingInputs.dropWhile fun i => i.tick ≤ lastProcessedTick).foldl (fun p i => movePosition i p) ⟨x, y, 0.0⟩)
    else
      c.players[playerId]? = some ⟨x, y, match c.players[playerId]? with
        | some p => y - p.y
        | none => 0.0⟩
  | .entitySpawn entityId entityType x y => c.entities[entityId]? = some ⟨x, y, entityType⟩
  | .entityUpdate entityId x y => ∀ e, c.entities[entityId]? = some e → e.x = x ∧ e.y = y
  | .entityDestroy entityId => c.entities[entityId]? = none
  | .pong timestamp => now - timestamp = c.rtt
  | .playerDisconnect playerId => c.players[playerId]? = none
  | .globalStateSync entityCount records => ∀ id : UInt32,
    match lastRecord (syncedRecords entityCount records) id with
    | some s => c.entities[id]? = some (state s)
    | none => firstLocalId ≤ id ∨ c.entities[id]? = none
  | .youHaveBeenKicked => True
  | .bossState hp _ => hp = c.bossHP

/-- What the array says beyond the bytes received is no news: of a short datagram, the whole
message; of a synchronization, the records that were not received whole. -/
structure PaddingRepeats (float : UInt32 → F) (c : RTypeClient F) (now : UInt32) (datagram : List UInt8) : Prop where
  short : ∀ type size m, (recvfrom datagram).head? = some type → packetSize type = some size →
    (recvfrom datagram).length < size → UdpMsg.parse float (padded maxUdpPacketSize (recvfrom datagram)) = some m →
      c.Repeats now m
  sync : ∀ entityCount records,
    UdpMsg.parse float (padded maxUdpPacketSize (recvfrom datagram)) = some (.globalStateSync entityCount records) →
    sizeofGlobalStateSync ≤ (recvfrom datagram).length →
    ∀ id s, lastRecord (syncedRecords entityCount records) id = some s →
      (firstLocalId ≤ id ∧ c.entities[id]? = some (state s)) ∨
        ∃ i, recordOffset (i + 1) ≤ (recvfrom datagram).length ∧ recordAt float (recvfrom datagram) i = s

/-! ## The own player -/

omit [FloatOps F] in
theorem Unmoved.refl (c : RTypeClient F) : c.Unmoved c := ⟨fun _ => rfl, fun _ => rfl, rfl, rfl, rfl⟩

/-- An input moves the own player and nothing else. -/
theorem applyInput_eq (c : RTypeClient F) (pkt : PlayerInputPacket) :
    c.applyInput pkt = { c with players := (c.applyInput pkt).players } := by
  unfold applyInput
  split <;> rfl

theorem getElem?_applyInput (c : RTypeClient F) (pkt : PlayerInputPacket) (id : UInt32) :
    (c.applyInput pkt).players[id]? =
      if id = c.myPlayerId then (c.players[id]?).map (movePosition pkt) else c.players[id]? := by
  unfold applyInput
  split
  · rename_i p hp
    rw [Maps.getElem?_insert]
    split
    · rename_i h
      rw [h, hp]
      rfl
    · rfl
  · rename_i hnone
    split
    · rename_i h
      rw [h, hnone]
      rfl
    · rfl

/-- Several inputs, one after the other. -/
theorem foldl_applyInput_eq (pkts : List PlayerInputPacket) (c : RTypeClient F) :
    pkts.foldl applyInput c = { c with players := (pkts.foldl applyInput c).players } ∧
      ∀ id : UInt32, (pkts.foldl applyInput c).players[id]? =
        if id = c.myPlayerId then (c.players[id]?).map (fun p => pkts.foldl (fun p i => movePosition i p) p)
        else c.players[id]? := by
  induction pkts generalizing c with
  | nil => exact ⟨rfl, fun id => by simp⟩
  | cons pkt pkts ih =>
    obtain ⟨heq, hlook⟩ := ih (c.applyInput pkt)
    have hme : (c.applyInput pkt).myPlayerId = c.myPlayerId := by rw [applyInput_eq]
    rw [List.foldl_cons]
    refine ⟨?_, fun id => ?_⟩
    · rw [heq, applyInput_eq]
    · rw [hlook, hme, getElem?_applyInput]
      split
      · rw [Option.map_map]
        rfl
      · rfl

/-- The loss window is not part of the view. -/
theorem recordState_eq (c : RTypeClient F) (now sequence : UInt32) :
    c.recordState now sequence = { c with
      lastServerSeq := (c.recordState now sequence).lastServerSeq
      isFirstServerPacket := (c.recordState now sequence).isFirstServerPacket
      packetEvents := (c.recordState now sequence).packetEvents
      packetLossPercentage := (c.recordState now sequence).packetLossPercentage } := by
  unfold recordState
  split
  · rfl
  · split <;> rfl

/-- A synchronization, key by key. -/
theorem getElem?_syncEntities (c : RTypeClient F) (entityCount : UInt32) (records : List (SyncedEntityState F))
    (id : UInt32) :
    (c.syncEntities entityCount records).entities[id]? =
      match lastRecord (syncedRecords entityCount records) id with
      | some s => some (state s)
      | none => if firstLocalId ≤ id then c.entities[id]? else none := by
  have hlocal : (c.entities.filter fun id _ => firstLocalId ≤ id)[id]? =
      if firstLocalId ≤ id then c.entities[id]? else none := by
    rw [Std.TreeMap.getElem?_filter']
    by_cases hl : firstLocalId ≤ id <;> cases c.entities[id]? <;> simp [hl]
  have hfold := Maps.getElem?_foldl_insert_last (fun s : SyncedEntityState F => s.entityId) state
    (syncedRecords entityCount records) (c.entities.filter fun id _ => firstLocalId ≤ id) id
  rw [hlocal] at hfold
  unfold lastRecord
  cases hlast : ((syncedRecords entityCount records).filter fun s => s.entityId = id).getLast? with
  | none =>
    rw [hlast] at hfold
    exact hfold
  | some s =>
    rw [hlast] at hfold
    exact hfold

/-! ## Messages that leave the client as it is -/

omit [FloatOps F] in
/-- A message about players only. -/
theorem unmoved_players_iff (he : c'.entities = c.entities) (hr : c'.rtt = c.rtt) (hb : c'.bossHP = c.bossHP)
    (hs : c'.score = c.score) : c.Unmoved c' ↔ ∀ id : UInt32, c'.players[id]? = c.players[id]? :=
  ⟨fun h => h.players, fun h => ⟨h, fun id => by rw [he], hr, hb, hs⟩⟩

omit [FloatOps F] in
/-- A message about entities only. -/
theorem unmoved_entities_iff (hp : c'.players = c.players) (hr : c'.rtt = c.rtt) (hb : c'.bossHP = c.bossHP)
    (hs : c'.score = c.score) : c.Unmoved c' ↔ ∀ id : UInt32, c'.entities[id]? = c.entities[id]? :=
  ⟨fun h => h.entities, fun h => ⟨fun id => by rw [hp], h, hr, hb, hs⟩⟩

theorem unmoved_ownState_iff {sequence lastProcessedTick : UInt32} {x y : F} :
    c.Unmoved ((c.recordState now sequence).reconcile lastProcessedTick x y) ↔
      c.players[c.myPlayerId]? = some
        ((c.pendingInputs.dropWhile fun i => i.tick ≤ lastProcessedTick).foldl (fun p i => movePosition i p) ⟨x, y, 0.0⟩) := by
  have hrec := recordState_eq c now sequence
  generalize c.recordState now sequence = c₁ at hrec ⊢
  have hplayers : c₁.players = c.players := by rw [hrec]
  have hme : c₁.myPlayerId = c.myPlayerId := by rw [hrec]
  have hpending : c₁.pendingInputs = c.pendingInputs := by rw [hrec]
  -- the pending inputs are replayed on the position received
  have hreconcile : c₁.reconcile lastProcessedTick x y =
      (c.pendingInputs.dropWhile fun i => i.tick ≤ lastProcessedTick).foldl applyInput { c₁ with
        players := c.players.insert c.myPlayerId ⟨x, y, 0.0⟩
        pendingInputs := c.pendingInputs.dropWhile fun i => i.tick ≤ lastProcessedTick } := by
    unfold reconcile
    rw [hplayers, hme, hpending]
  rw [hreconcile]
  generalize c.pendingInputs.dropWhile (fun i => i.tick ≤ lastProcessedTick) = pending
  obtain ⟨heq, hlook⟩ := foldl_applyInput_eq pending
    { c₁ with players := c.players.insert c.myPlayerId ⟨x, y, 0.0⟩, pendingInputs := pending }
  generalize pending.foldl applyInput
    { c₁ with players := c.players.insert c.myPlayerId ⟨x, y, 0.0⟩, pendingInputs := pending } = c₂ at heq hlook ⊢
  rw [unmoved_players_iff (by rw [heq, hrec]) (by rw [heq, hrec]) (by rw [heq, hrec]) (by rw [heq, hrec])]
  simp only [hme] at hlook
  constructor
  · intro h
    rw [← h c.myPlayerId, hlook, if_pos rfl, Std.TreeMap.getElem?_insert_self]
    rfl
  · intro h id
    rw [hlook, Maps.getElem?_insert]
    split
    · rename_i he
      rw [he, h]
      rfl
    · rfl

/-- **The messages that leave a client as it is.** -/
theorem unmoved_iff (c : RTypeClient F) (now : UInt32) (m : UdpMsg F) :
    c.Unmoved (c.handlePacket now m) ↔ c.Repeats now m := by
  cases m with
  | playerState playerId sequence lastProcessedTick x y =>
    simp only [handlePacket, Repeats]
    split
    · rename_i hown
      subst hown
      -- after game over the own state is ignored
      split
      · rename_i hover
        exact iff_of_true (.refl c) (.inl hover)
      · rename_i hover
        rw [unmoved_ownState_iff]
        exact (or_iff_right hover).symm
    · exact Iff.trans (unmoved_players_iff rfl rfl rfl rfl) (Maps.getElem?_insert_eq_iff _ _ _)
  | entitySpawn entityId entityType x y =>
    exact Iff.trans (unmoved_entities_iff rfl rfl rfl rfl) (Maps.getElem?_insert_eq_iff _ _ _)
  | entityUpdate entityId x y =>
    simp only [handlePacket, Repeats]
    split
    · rename_i e he
      refine Iff.trans (Iff.trans (unmoved_entities_iff rfl rfl rfl rfl) (Maps.getElem?_insert_eq_iff _ _ _)) ?_
      simp only [he, Option.some.injEq, forall_eq']
      constructor
      · intro h
        exact ⟨congrArg EntityState.x h, congrArg EntityState.y h⟩
      · rintro ⟨rfl, rfl⟩
        rfl
    · rename_i he
      refine iff_of_true (.refl c) fun e he' => ?_
      rw [he] at he'
      cases he'
  | entityDestroy entityId =>
    constructor
    · intro h
      exact (Maps.getElem?_erase_eq_iff c.entities entityId).1 h.entities
    · intro h
      -- there is no entity to score for
      have habsent : c.entities[entityId]? = none := h
      refine ⟨fun _ => rfl, (Maps.getElem?_erase_eq_iff c.entities entityId).2 h, rfl, rfl, ?_⟩
      simp only [handlePacket, destroyEntity, habsent, add_zero]
  | pong timestamp =>
    exact ⟨fun h => h.rtt, fun h => ⟨fun _ => rfl, fun _ => rfl, h, rfl, rfl⟩⟩
  | playerDisconnect playerId =>
    exact Iff.trans (unmoved_players_iff rfl rfl rfl rfl) (Maps.getElem?_erase_eq_iff _ _)
  | globalStateSync entityCount records =>
    refine Iff.trans (unmoved_entities_iff rfl rfl rfl rfl) (forall_congr' fun id => ?_)
    simp only [handlePacket, getElem?_syncEntities]
    -- an entity ends up as its last record says; without one it stays if it is local
    cases lastRecord (syncedRecords entityCount records) id with
    | some s => exact eq_comm
    | none =>
      by_cases hl : firstLocalId ≤ id
      · simp [hl]
      · simp only [hl, if_false, false_or]
        exact eq_comm
  | youHaveBeenKicked => exact iff_of_true ⟨fun _ => rfl, fun _ => rfl, rfl, rfl, rfl⟩ trivial
  | bossState hp maxHp =>
    exact ⟨fun h => h.bossHP, fun h => ⟨fun _ => rfl, fun _ => rfl, rfl, h, rfl⟩⟩

/-! ## Any datagram -/

omit [FloatOps F] in
/-- The array is as long as it always is. -/
theorem length_padded_recvfrom (datagram : List UInt8) :
    (padded maxUdpPacketSize (recvfrom datagram)).length = maxUdpPacketSize :=
  length_padded (List.length_take_le maxUdpPacketSize datagram)

omit [FloatOps F] in
theorem head?_padded {n : ℕ} {bytes : List UInt8} (h : bytes ≠ []) : (padded n bytes).head? = bytes.head? := by
  cases bytes with
  | nil => exact absurd rfl h
  | cons b bytes => rfl

/-- What the client makes of the array. -/
theorem receive_of_parse {m : UdpMsg F} (h : recvfrom datagram ≠ [])
    (hm : UdpMsg.parse float (padded maxUdpPacketSize (recvfrom datagram)) = some m) :
    c.receive float now datagram = c.handlePacket now m := by
  rw [receive, receiveMessage, if_pos (List.length_pos_iff.2 h), Option.bind_some, hm]

theorem receive_of_parse_none (h : recvfrom datagram ≠ [])
    (hm : UdpMsg.parse float (padded maxUdpPacketSize (recvfrom datagram)) = none) :
    c.receive float now datagram = c := by
  rw [receive, receiveMessage, if_pos (List.length_pos_iff.2 h), Option.bind_some, hm]

omit [FloatOps F] in
/-- An array with the type of a synchronization is one. -/
theorem parse_sync {data : List UInt8} (hlen : data.length = maxUdpPacketSize) (h9 : data.head? = some 9) :
    UdpMsg.parse float data = some (.globalStateSync (u32At data 1) ((List.range 72).map (recordAt float data))) := by
  rw [UdpMsg.parse, h9, hlen]
  rfl

omit [FloatOps F] in
theorem type_of_parse_sync {data : List UInt8} {entityCount : UInt32} {records : List (SyncedEntityState F)}
    (h : UdpMsg.parse float data = some (.globalStateSync entityCount records)) : data.head? = some 9 := by
  unfold UdpMsg.parse at h
  split at h
  · cases h
  · rename_i type htype
    rw [htype]
    by_cases h9 : type = 9
    · rw [h9]
    · have hno : ¬ (type = 9 ∧ sizeofGlobalStateSync ≤ data.length) := fun hc => h9 hc.1
      rw [if_neg hno] at h
      repeat' split at h
      all_goals cases h

omit [FloatOps F] in
theorem ne_nil_of_head? {bytes : List UInt8} {type : UInt8} (h : bytes.head? = some type) : bytes ≠ [] := by
  rintro rfl
  cases h

omit [FloatOps F] in
theorem entityId_of_lastRecord {records : List (SyncedEntityState F)} {id : UInt32} {s : SyncedEntityState F}
    (h : lastRecord records id = some s) : s.entityId = id := by
  have hmem := List.mem_of_getLast? h
  simpa using (List.mem_filter.1 hmem).2

/-- **Only received bytes count if and only if the zeros say nothing that the client does not
hold anyway.** -/
theorem countsReceived_iff (float : UInt32 → F) (c : RTypeClient F) (now : UInt32) (datagram : List UInt8) :
    c.CountsReceived float now datagram ↔ c.PaddingRepeats float now datagram := by
  constructor
  · rintro ⟨hshort, hsync⟩
    refine ⟨fun type size m htype hsize hlt hm => ?_, fun entityCount records hm hlen id s hlast => ?_⟩
    · have hunmoved := hshort type size htype hsize hlt
      rw [receive_of_parse (ne_nil_of_head? htype) hm] at hunmoved
      exact (unmoved_iff c now m).1 hunmoved
    · have hne : recvfrom datagram ≠ [] := by
        intro hnil
        rw [hnil] at hlen
        cases hlen
      have h9 : (recvfrom datagram).head? = some 9 := (head?_padded hne).symm.trans (type_of_parse_sync hm)
      -- the last record of an id is what the client then holds
      have hafter : (c.receive float now datagram).entities[id]? = some (state s) := by
        rw [receive_of_parse hne hm, handlePacket, getElem?_syncEntities, hlast]
      refine (hsync h9 hlen id (state s) hafter).imp_right ?_
      rintro ⟨i, hi, hrecord⟩
      refine ⟨i, hi, hrecord.trans ?_⟩
      rw [← entityId_of_lastRecord hlast]
      rfl
  · rintro ⟨hshort, hsync⟩
    refine ⟨fun type size htype hsize hlt => ?_, fun h9 hlen id e he => ?_⟩
    · have hne := ne_nil_of_head? htype
      -- an array that is no packet is dropped
      cases hm : UdpMsg.parse float (padded maxUdpPacketSize (recvfrom datagram)) with
      | none =>
        rw [receive_of_parse_none hne hm]
        exact .refl c
      | some m =>
        rw [receive_of_parse hne hm]
        exact (unmoved_iff c now m).2 (hshort type size m htype hsize hlt hm)
    · have hne := ne_nil_of_head? h9
      have hm : UdpMsg.parse float (padded maxUdpPacketSize (recvfrom datagram)) = some (.globalStateSync _ _) :=
        parse_sync (length_padded_recvfrom datagram) ((head?_padded hne).trans h9)
      -- what the client holds afterwards is a last record or was there
      rw [receive_of_parse hne hm, handlePacket, getElem?_syncEntities] at he
      split at he
      · rename_i s hlast
        obtain rfl := Option.some.inj he
        refine (hsync _ _ hm hlen id s hlast).imp_right ?_
        rintro ⟨i, hi, hrecord⟩
        refine ⟨i, hi, hrecord.trans ?_⟩
        rw [← entityId_of_lastRecord hlast]
        rfl
      · split at he
        · rename_i hlocal
          exact .inl ⟨hlocal, he⟩
        · cases he

/-! ## Datagrams received whole -/

omit [FloatOps F] in
theorem u32At_padded {n offset : ℕ} {bytes : List UInt8} (h : offset + 4 ≤ bytes.length) :
    u32At (padded n bytes) offset = u32At bytes offset := by
  have hdrop : 4 ≤ (bytes.drop offset).length := by
    rw [List.length_drop]
    omega
  rw [u32At, padded, List.drop_append_of_le_length (by omega), List.take_append_of_le_length hdrop, u32At]

omit [FloatOps F] in
theorem u16At_padded {n offset : ℕ} {bytes : List UInt8} (h : offset + 2 ≤ bytes.length) :
    u16At (padded n bytes) offset = u16At bytes offset := by
  have hdrop : 2 ≤ (bytes.drop offset).length := by
    rw [List.length_drop]
    omega
  rw [u16At, padded, List.drop_append_of_le_length (by omega), List.take_append_of_le_length hdrop, u16At]

omit [FloatOps F] in
/-- A record received whole is read as it was received. -/
theorem recordAt_padded {n i : ℕ} {bytes : List UInt8} (h : recordOffset (i + 1) ≤ bytes.length) :
    recordAt float (padded n bytes) i = recordAt float bytes i := by
  have hsize : recordOffset i + 14 ≤ bytes.length := by
    have hnext : recordOffset (i + 1) = recordOffset i + 14 := by
      simp only [recordOffset, sizeofSyncedEntityState]
      ring
    omega
  unfold recordAt
  rw [u32At_padded (by omega), u16At_padded (by omega), u32At_padded (by omega), u32At_padded (by omega)]

/-- The record that decides is one of those announced. -/
theorem exists_of_lastRecord {data : List UInt8} {entityCount id : UInt32} {s : SyncedEntityState F}
    (h : lastRecord (syncedRecords entityCount ((List.range 72).map (recordAt float data))) id = some s) :
    ∃ i < entityCount.toNat, recordAt float data i = s := by
  have hmem := (List.mem_filter.1 (List.mem_of_getLast? h)).1
  rw [syncedRecords_eq_take (by simp)] at hmem
  obtain ⟨i, hi, hs⟩ := List.mem_iff_getElem.1 hmem
  rw [List.length_take, lt_min_iff, lt_min_iff] at hi
  rw [List.getElem_take, List.getElem_map, List.getElem_range] at hs
  exact ⟨i, hi.1.1, hs⟩

/-- **A datagram received whole is no problem**: one as long as its packet, with all the
records that it announces. -/
theorem countsReceived_of_whole (float : UInt32 → F) (c : RTypeClient F) (now : UInt32) {type : UInt8}
    (htype : (recvfrom datagram).head? = some type)
    (hsize : ∀ size, packetSize type = some size → size ≤ (recvfrom datagram).length)
    (hcount : type = 9 → recordOffset (u32At (recvfrom datagram) 1).toNat ≤ (recvfrom datagram).length) :
    c.CountsReceived float now datagram := by
  rw [countsReceived_iff]
  refine ⟨fun type' size m htype' hsize' hlt hm => ?_, fun entityCount records hm hlen id s hlast => ?_⟩
  · obtain rfl := Option.some.inj (htype.symm.trans htype')
    exact absurd (hsize size hsize') (not_le.2 hlt)
  · have hne := ne_nil_of_head? htype
    have h9 : (recvfrom datagram).head? = some 9 := (head?_padded hne).symm.trans (type_of_parse_sync hm)
    obtain rfl := Option.some.inj (htype.symm.trans h9)
    have hparse : UdpMsg.parse float (padded maxUdpPacketSize (recvfrom datagram)) = some (.globalStateSync _ _) :=
      parse_sync (length_padded_recvfrom datagram) ((head?_padded hne).trans h9)
    obtain ⟨rfl, rfl⟩ := UdpMsg.globalStateSync.inj (Option.some.inj (hm.symm.trans hparse))
    obtain ⟨i, hi, hs⟩ := exists_of_lastRecord hlast
    have hwhole : recordOffset (i + 1) ≤ (recvfrom datagram).length := by
      have hle := hcount rfl
      rw [u32At_padded (by simp only [sizeofGlobalStateSync] at hlen; omega)] at hi
      unfold recordOffset at hle ⊢
      have hmul : (i + 1) * sizeofSyncedEntityState ≤
          (u32At (recvfrom datagram) 1).toNat * sizeofSyncedEntityState := Nat.mul_le_mul_right _ hi
      omega
    exact .inr ⟨i, hwhole, by rw [← hs, recordAt_padded hwhole]⟩

/-- **A datagram of one byte brings an entity.** -/
theorem not_countsReceived_spawn : ¬ (new 1 0 : RTypeClient Float32).CountsReceived Float32.ofBits 0 [3] := by
  intro h
  have hunmoved := h.short 3 19 rfl rfl (by decide)
  have hparse : UdpMsg.parse Float32.ofBits (padded maxUdpPacketSize (recvfrom [3])) =
      some (.entitySpawn 0 0 (Float32.ofBits 0) (Float32.ofBits 0)) := by
    rw [UdpMsg.parse, length_padded_recvfrom]
    rfl
  rw [receive_of_parse (by simp [recvfrom, maxUdpPacketSize]) hparse, unmoved_iff] at hunmoved
  have hempty : (new 1 0 : RTypeClient Float32).entities[(0 : UInt32)]? = none := Std.TreeMap.getElem?_emptyc
  have hheld : (new 1 0 : RTypeClient Float32).entities[(0 : UInt32)]? = some _ := hunmoved
  rw [hempty] at hheld
  cases hheld

end RTypeClient

end RType

import RType.Proof.Datagrams
import RType.Proof.EntitySync

/-!
# A synchronization on its way

From the entities of the server to the bytes of `sendGlobalStateSync`, through the 1024
bytes of a datagram, to the entities of a client.

* `recordAt_globalStateSyncBytes`: the client finds each record where the server put it.
* `receive_globalStateSync`: the client takes the datagram for `syncOf` of the list.
* `roundTrips_iff`: **a client without entities has those of the server afterwards if and
  only if there are at most 72.**
* `not_roundTrips_crowd`: 73 entities.
-/

namespace RType

open Wire

variable {F : Type*}

/-! ## Reading what was written -/

/-- A `uint32_t` is read where it was written. -/
theorem u32At_append (pre post : List UInt8) (v : UInt32) : u32At (pre ++ (le32 v ++ post)) pre.length = v := by
  rw [u32At, List.drop_left, List.take_left' (length_le32 v), ofLe32_le32]

theorem u16At_append (pre post : List UInt8) (v : UInt16) : u16At (pre ++ (le16 v ++ post)) pre.length = v := by
  rw [u16At, List.drop_left, List.take_left' (length_le16 v), ofLe16_le16]

@[simp] theorem SyncedEntityState.length_bytes (bits : F → UInt32) (s : SyncedEntityState F) :
    (s.bytes bits).length = sizeofSyncedEntityState := by
  simp [SyncedEntityState.bytes, sizeofSyncedEntityState]

/-- The floats of a record survive as bytes. -/
def SyncedEntityState.Exact (bits : F → UInt32) (float : UInt32 → F) (s : SyncedEntityState F) : Prop :=
  float (bits s.x) = s.x ∧ float (bits s.y) = s.y

/-- A record is read where it was written. -/
theorem recordAt_append {bits : F → UInt32} {float : UInt32 → F} {s : SyncedEntityState F} (hs : s.Exact bits float)
    {pre : List UInt8} {i : ℕ} (hpre : pre.length = recordOffset i) (post : List UInt8) :
    recordAt float (pre ++ (s.bytes bits ++ post)) i = s := by
  have hid := u32At_append pre (le16 s.entityType ++ (le32 (bits s.x) ++ (le32 (bits s.y) ++ post))) s.entityId
  have htype := u16At_append (pre ++ le32 s.entityId) (le32 (bits s.x) ++ (le32 (bits s.y) ++ post)) s.entityType
  have hx := u32At_append (pre ++ le32 s.entityId ++ le16 s.entityType) (le32 (bits s.y) ++ post) (bits s.x)
  have hy := u32At_append (pre ++ le32 s.entityId ++ le16 s.entityType ++ le32 (bits s.x)) post (bits s.y)
  simp only [List.length_append, length_le32, length_le16, hpre, List.append_assoc] at hid htype hx hy
  unfold recordAt
  simp only [SyncedEntityState.bytes, List.append_assoc]
  rw [hid, htype, hx, hy, hs.1, hs.2]

/-- The records before a record. -/
theorem length_flatMap_bytes (bits : F → UInt32) (entities : List (Entity F)) :
    (entities.flatMap fun e => e.synced.bytes bits).length = entities.length * sizeofSyncedEntityState := by
  rw [List.length_flatMap, List.map_congr_left fun e _ => e.synced.length_bytes bits, List.map_const',
    List.sum_replicate_nat]

theorem length_globalStateSyncBytes (bits : F → UInt32) (entities : List (Entity F)) :
    (globalStateSyncBytes bits entities).length = recordOffset entities.length := by
  rw [globalStateSyncBytes, List.length_append, length_flatMap_bytes]
  rfl

/-- **The client finds each record where the server put it.** -/
theorem recordAt_globalStateSyncBytes {bits : F → UInt32} {float : UInt32 → F} {entities : List (Entity F)}
    (hexact : ∀ e ∈ entities, e.synced.Exact bits float) {i : ℕ} (hi : i < entities.length) :
    recordAt float (globalStateSyncBytes bits entities) i = entities[i].synced := by
  have hsplit : entities = entities.take i ++ entities[i] :: entities.drop (i + 1) := by
    rw [← List.drop_eq_getElem_cons hi, List.take_append_drop]
  have hpre : (9 :: le32 (UInt32.ofNat entities.length) ++
      (entities.take i).flatMap fun e => e.synced.bytes bits).length = recordOffset i := by
    rw [List.length_append, length_flatMap_bytes, List.length_take, Nat.min_eq_left hi.le]
    rfl
  have hbytes : globalStateSyncBytes bits entities =
      (9 :: le32 (UInt32.ofNat entities.length) ++ (entities.take i).flatMap fun e => e.synced.bytes bits) ++
        (entities[i].synced.bytes bits ++ (entities.drop (i + 1)).flatMap fun e => e.synced.bytes bits) := by
    have hflat := congrArg (List.flatMap fun e => e.synced.bytes bits) hsplit
    rw [List.flatMap_append, List.flatMap_cons] at hflat
    rw [globalStateSyncBytes, hflat, List.append_assoc]
  rw [hbytes]
  exact recordAt_append (hexact _ (List.getElem_mem hi)) hpre _

/-! ## The datagram -/

theorem recvfrom_queueMessage (data : List UInt8) : recvfrom (queueMessage data) = data.take maxUdpPacketSize := by
  rw [recvfrom, queueMessage, List.take_take, Nat.min_self]

/-- The bytes of a record lie before the end of the datagram. -/
theorem u32At_take {n offset : ℕ} {bytes : List UInt8} (h : offset + 4 ≤ n) :
    u32At (bytes.take n) offset = u32At bytes offset := by
  rw [u32At, List.drop_take, List.take_take, Nat.min_eq_left (by omega), u32At]

theorem u16At_take {n offset : ℕ} {bytes : List UInt8} (h : offset + 2 ≤ n) :
    u16At (bytes.take n) offset = u16At bytes offset := by
  rw [u16At, List.drop_take, List.take_take, Nat.min_eq_left (by omega), u16At]

theorem recordAt_take {float : UInt32 → F} {n i : ℕ} {bytes : List UInt8} (h : recordOffset i + 14 ≤ n) :
    recordAt float (bytes.take n) i = recordAt float bytes i := by
  unfold recordAt
  rw [u32At_take (by omega), u16At_take (by omega), u32At_take (by omega), u32At_take (by omega)]

namespace RTypeClient

variable {bits : F → UInt32} {float : UInt32 → F} {entities : List (Entity F)}

/-- The number of entities in the header is cut to 32 bits. -/
theorem toNat_entityCount_le (entities : List (Entity F)) : (UInt32.ofNat entities.length).toNat ≤ entities.length :=
  (UInt32.toNat_ofNat').trans_le (Nat.mod_le _ _)

/-- **The client takes the datagram for the list cut to 72.** -/
theorem receive_globalStateSync [FloatOps F] (hexact : ∀ e ∈ entities, e.synced.Exact bits float) (c : RTypeClient F)
    (now : UInt32) :
    c.receive float now (queueMessage (globalStateSyncBytes bits entities)) = c.handlePacket now (syncOf entities) := by
  set datagram := queueMessage (globalStateSyncBytes bits entities) with hdatagram
  have hreceived : recvfrom datagram = (globalStateSyncBytes bits entities).take maxUdpPacketSize :=
    recvfrom_queueMessage _
  have hlen : (recvfrom datagram).length = min maxUdpPacketSize (recordOffset entities.length) := by
    rw [hreceived, List.length_take, length_globalStateSyncBytes]
  have hheader : 5 ≤ (recvfrom datagram).length := by
    rw [hlen]
    exact le_min (by decide) (Nat.le_add_right _ _)
  have h9 : (recvfrom datagram).head? = some 9 := by
    rw [hreceived]
    rfl
  -- the header says how many entities there are
  have hcount : u32At (padded maxUdpPacketSize (recvfrom datagram)) 1 = UInt32.ofNat entities.length := by
    rw [u32At_padded (by omega), hreceived, u32At_take (by decide)]
    exact u32At_append [9] _ _
  -- the records that lie in the datagram are read as they were written
  have hrecord : ∀ i (hi : i < entities.length), i < 72 →
      recordAt float (padded maxUdpPacketSize (recvfrom datagram)) i = entities[i].synced := by
    intro i hi h72
    have hend : recordOffset (i + 1) = recordOffset i + 14 := by
      simp only [recordOffset, sizeofSyncedEntityState]
      ring
    have hfits : recordOffset (i + 1) ≤ 1024 := by
      simp only [recordOffset, sizeofGlobalStateSync, sizeofSyncedEntityState]
      omega
    have hwhole : recordOffset (i + 1) ≤ recordOffset entities.length := by
      simp only [recordOffset, sizeofSyncedEntityState]
      omega
    rw [recordAt_padded (hlen ▸ le_min hfits hwhole), hreceived, recordAt_take (hend ▸ hfits),
      recordAt_globalStateSyncBytes hexact hi]
  have hrecords : syncedRecords (UInt32.ofNat entities.length)
      ((List.range 72).map (recordAt float (padded maxUdpPacketSize (recvfrom datagram)))) =
      syncedRecords (UInt32.ofNat entities.length) ((entities.map Entity.synced).take 72) := by
    have hle := toNat_entityCount_le entities
    rw [syncedRecords_eq_take (by simp), syncedRecords_eq_take (by simp; omega)]
    refine List.ext_getElem (by simp; omega) fun i h₁ h₂ => ?_
    rw [List.length_take, lt_min_iff, List.length_take, List.length_map] at h₂
    simp only [List.getElem_take, List.getElem_map, List.getElem_range]
    exact hrecord i (by omega) (by omega)
  have hne : recvfrom datagram ≠ [] := ne_nil_of_head? h9
  rw [receive_of_parse hne (parse_sync (length_padded_recvfrom datagram) ((head?_padded hne).trans h9)), hcount]
  simp only [handlePacket, syncOf, syncEntities, hrecords]
  rfl

/-! ## The round trip -/

/-- The entities of the server, as a datagram, give the client the same ids, types and
positions. -/
def RoundTrips [FloatOps F] (bits : F → UInt32) (float : UInt32 → F) (c : RTypeClient F) (now : UInt32)
    (entities : List (Entity F)) : Prop :=
  (c.receive float now (queueMessage (globalStateSyncBytes bits entities))).Shows entities

/-- Behind the 72nd, no entity reaches a client that does not know it. -/
theorem not_shows_of_lt [FloatOps F] {c : RTypeClient F} (hnodup : (entities.map (·.id)).Nodup)
    (hempty : ∀ id : UInt32, c.entities[id]? = none) (now : UInt32) (h : 72 < entities.length) :
    ¬ (c.handlePacket now (syncOf entities)).Shows entities := by
  intro hshows
  have hle := toNat_entityCount_le entities
  have hheld := (hshows entities[72].id entities[72].state).2 ⟨_, List.getElem_mem h, rfl, rfl⟩
  rw [syncOf, handlePacket, getElem?_syncEntities] at hheld
  cases hlast : lastRecord (syncedRecords (UInt32.ofNat entities.length)
      ((entities.map fun e => (⟨e.id, e.type, e.x, e.y⟩ : SyncedEntityState F)).take 72)) entities[72].id with
  | none => simp [hlast, hempty] at hheld
  | some s =>
    -- a record of its id would be one of the first 72
    have hid := entityId_of_lastRecord hlast
    have hmem := (List.mem_filter.1 (List.mem_of_getLast? hlast)).1
    rw [syncedRecords_eq_take (by simp; omega)] at hmem
    obtain ⟨i, hi, hs⟩ := List.mem_iff_getElem.1 (List.mem_of_mem_take hmem)
    rw [List.length_take, List.length_map, lt_min_iff] at hi
    rw [List.getElem_take, List.getElem_map] at hs
    have hlen : (entities.map (·.id)).length = entities.length := List.length_map ..
    have hi' : i < (entities.map (·.id)).length := by omega
    have h72 : 72 < (entities.map (·.id)).length := by omega
    have hsame : (entities.map (·.id))[i] = (entities.map (·.id))[72] := by
      rw [List.getElem_map, List.getElem_map, ← hid, ← hs]
    have := (List.Nodup.getElem_inj_iff hnodup).1 hsame
    omega

/-- **The entities of the server reach a client without entities if and only if there are at
most 72.** -/
theorem roundTrips_iff [FloatOps F] {c : RTypeClient F} (hnodup : (entities.map (·.id)).Nodup)
    (hexact : ∀ e ∈ entities, e.synced.Exact bits float) (hempty : ∀ id : UInt32, c.entities[id]? = none)
    (now : UInt32) : c.RoundTrips bits float now entities ↔ entities.length ≤ 72 := by
  rw [RoundTrips, receive_globalStateSync hexact]
  constructor
  · intro hshows
    by_contra hlt
    exact not_shows_of_lt hnodup hempty now (not_le.1 hlt) hshows
  · intro hle
    refine (syncEntities_shows_iff c now hle).2 ⟨fun e he e' he' hid => ?_, fun id st hst => ?_⟩
    · rw [List.inj_on_of_nodup_map hnodup he he' hid]
    · rw [hempty id] at hst
      cases hst

/-! ## More entities than a datagram holds -/

/-- The four bytes of 425 and of 225 as a `float`. -/
def shotBits (x : ℚ) : UInt32 := if x = 425 then 0x43D48000 else 0x43610000

/-- The `float` of these bytes. -/
def shotFloat (v : UInt32) : ℚ := if v = 0x43D48000 then 425 else 225

/-- Shots of a player who stands still. -/
def crowd (n : ℕ) : List (Entity ℚ) :=
  (List.range n).map fun i => ⟨UInt32.ofNat (i + 1), 1, 425, 225, 10, 0, 10, 5, false⟩

theorem crowd_exact (n : ℕ) : ∀ e ∈ crowd n, e.synced.Exact shotBits shotFloat := by
  intro e he
  obtain ⟨i, -, rfl⟩ := List.mem_map.1 he
  have hy : (225 : ℚ) ≠ 425 := by norm_num
  refine ⟨?_, ?_⟩
  · rw [Entity.synced, shotBits, if_pos rfl]
    rfl
  · rw [Entity.synced, shotBits, if_neg hy]
    rfl

theorem crowd_id_lt {n : ℕ} (hn : n < 9999) : ∀ e ∈ crowd n, e.id < firstLocalId := by
  intro e he
  obtain ⟨i, hi, rfl⟩ := List.mem_map.1 he
  have hlt : i + 1 < 9999 := lt_of_le_of_lt (List.mem_range.1 hi) hn
  rw [UInt32.lt_iff_toNat_lt, UInt32.toNat_ofNat_of_lt' (lt_trans hlt (by decide))]
  exact hlt

theorem crowd_nodup {n : ℕ} (hn : n < 9999) : ((crowd n).map (·.id)).Nodup := by
  rw [crowd, List.map_map]
  refine List.nodup_range.map_on fun i hi j hj h => ?_
  have hsize : 9999 < UInt32.size := by decide
  have hi' := List.mem_range.1 hi
  have hj' := List.mem_range.1 hj
  have hnat : (UInt32.ofNat (i + 1)).toNat = (UInt32.ofNat (j + 1)).toNat := congrArg UInt32.toNat h
  rw [UInt32.toNat_ofNat_of_lt' (by omega), UInt32.toNat_ofNat_of_lt' (by omega)] at hnat
  omega

/-- 72 entities fill a datagram. -/
theorem roundTrips_crowd : (new 1 0 : RTypeClient ℚ).RoundTrips shotBits shotFloat 0 (crowd 72) :=
  (roundTrips_iff (crowd_nodup (by decide)) (crowd_exact 72) (fun _ => Std.TreeMap.getElem?_emptyc) 0).2 (by decide)

/-- **73 entities do not arrive.** -/
theorem not_roundTrips_crowd : ¬ ∀ entities : List (Entity ℚ), (entities.map (·.id)).Nodup →
    (∀ e ∈ entities, e.id < firstLocalId) → (∀ e ∈ entities, e.synced.Exact shotBits shotFloat) →
      (new 1 0 : RTypeClient ℚ).RoundTrips shotBits shotFloat 0 entities := by
  intro hall
  have hnodup := crowd_nodup (n := 73) (by decide)
  have h := hall (crowd 73) hnodup (crowd_id_lt (by decide)) (crowd_exact 73)
  rw [RoundTrips, receive_globalStateSync (crowd_exact 73)] at h
  exact not_shows_of_lt hnodup (fun _ => Std.TreeMap.getElem?_emptyc) 0 (by decide) h

end RTypeClient

end RType

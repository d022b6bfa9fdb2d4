import RType.Proof.BossShots
import RType.Proof.Replication
import RType.Proof.RoomMessages
import RType.Proof.SyncRoundTrip
import RType.Spec.WireViewer

/-!
# What the bytes of a game say

Whatever a server queues for a client in the course of a game, the client reads from the bytes
what was meant.

* `UdpMsg.Fits`: the messages for which the fields of the packed structs are wide enough.
* `receive_bytes`: the client takes the datagram of such a message for the message.
* `Wired`: all that a game queues is so. For a `BOSS_STATE` it is the fight that keeps the HP
  in 32 bits.
* `wire_run_eq`: **a client that gets bytes goes through the states of one that gets messages**,
  in every run.
-/

namespace RType

open Lts Wire

variable {F : Type*}

/-! ## Fields at their offsets -/

@[simp] theorem u32At_cons (b : UInt8) (bytes : List UInt8) (offset : ℕ) :
    u32At (b :: bytes) (offset + 1) = u32At bytes offset := rfl

@[simp] theorem u16At_cons (b : UInt8) (bytes : List UInt8) (offset : ℕ) :
    u16At (b :: bytes) (offset + 1) = u16At bytes offset := rfl

@[simp] theorem u32At_le32_zero (v : UInt32) (bytes : List UInt8) : u32At (le32 v ++ bytes) 0 = v :=
  u32At_append [] bytes v

@[simp] theorem u16At_le16_zero (v : UInt16) (bytes : List UInt8) : u16At (le16 v ++ bytes) 0 = v :=
  u16At_append [] bytes v

theorem drop_append_add (field bytes : List UInt8) {n : ℕ} (h : field.length = n) (offset : ℕ) :
    (field ++ bytes).drop (offset + n) = bytes.drop offset := by
  rw [← h, Nat.add_comm, ← List.drop_drop, List.drop_left]

@[simp] theorem u32At_le32 (v : UInt32) (bytes : List UInt8) (offset : ℕ) :
    u32At (le32 v ++ bytes) (offset + 4) = u32At bytes offset := by
  rw [u32At, drop_append_add _ _ (length_le32 v), u32At]

@[simp] theorem u16At_le32 (v : UInt32) (bytes : List UInt8) (offset : ℕ) :
    u16At (le32 v ++ bytes) (offset + 4) = u16At bytes offset := by
  rw [u16At, drop_append_add _ _ (length_le32 v), u16At]

@[simp] theorem u32At_le16 (v : UInt16) (bytes : List UInt8) (offset : ℕ) :
    u32At (le16 v ++ bytes) (offset + 2) = u32At bytes offset := by
  rw [u32At, drop_append_add _ _ (length_le16 v), u32At]

/-! ## One datagram -/

/-- The number is an `int32_t`. -/
def IsInt32 (n : ℤ) : Prop := -2 ^ 31 ≤ n ∧ n < 2 ^ 31

/-- The fields of the packet are wide enough for the message. -/
def UdpMsg.Fits : UdpMsg F → Prop
  | .globalStateSync entityCount records =>
    records.length ≤ 72 ∧ (records.length < 72 → entityCount.toNat = records.length)
  | .bossState hp maxHp => IsInt32 hp ∧ IsInt32 maxHp
  | _ => True

/-- The floats of the message survive as bytes. -/
def UdpMsg.Exact (bits : F → UInt32) (float : UInt32 → F) : UdpMsg F → Prop
  | .playerState _ _ _ x y | .entitySpawn _ _ x y | .entityUpdate _ x y => float (bits x) = x ∧ float (bits y) = y
  | .globalStateSync _ records => ∀ s ∈ records, s.Exact bits float
  | _ => True

theorem toInt_toInt32_ofInt {n : ℤ} (h : IsInt32 n) : (UInt32.ofInt n).toInt32.toInt = n := by
  have hread := toInt32_leInt n
  rw [leInt, ofLe32_le32] at hread
  rw [hread]
  exact Int32.toInt_ofInt_of_le h.1 h.2

section Parse

variable {bits : F → UInt32} {float : UInt32 → F}

/-- A packet that is no synchronization is read from the front of the array. -/
theorem UdpMsg.parse_bytes {m : UdpMsg F} (hfits : m.Fits) (hexact : m.Exact bits float)
    (hother : ∀ entityCount records, m ≠ .globalStateSync entityCount records) (filling : Filling) (zeros : List UInt8)
    (hlen : (m.bytes bits filling ++ zeros).length = maxUdpPacketSize) :
    parse float (m.bytes bits filling ++ zeros) = some m := by
  rw [parse, hlen]
  cases m with
  | globalStateSync entityCount records => exact absurd rfl (hother entityCount records)
  | playerState playerId sequence lastProcessedTick x y =>
    obtain ⟨hx, hy⟩ := hexact
    simp [bytes, maxUdpPacketSize, hx, hy]
  | entitySpawn entityId entityType x y =>
    obtain ⟨hx, hy⟩ := hexact
    simp [bytes, maxUdpPacketSize, hx, hy]
  | entityUpdate entityId x y =>
    obtain ⟨hx, hy⟩ := hexact
    simp [bytes, maxUdpPacketSize, hx, hy]
  | bossState hp maxHp =>
    obtain ⟨hhp, hmaxHp⟩ := hfits
    simp [bytes, maxUdpPacketSize, leInt, toInt_toInt32_ofInt, hhp, hmaxHp]
  | entityDestroy entityId => simp [bytes, maxUdpPacketSize]
  | pong timestamp => simp [bytes, maxUdpPacketSize]
  | playerDisconnect playerId => simp [bytes, maxUdpPacketSize]
  | youHaveBeenKicked => simp [bytes]

theorem UdpMsg.length_bytes_le {m : UdpMsg F} (hother : ∀ entityCount records, m ≠ .globalStateSync entityCount records)
    (filling : Filling) : (m.bytes bits filling).length ≤ maxUdpPacketSize := by
  cases m with
  | globalStateSync entityCount records => exact absurd rfl (hother entityCount records)
  | _ => simp [bytes, maxUdpPacketSize, leInt]

theorem UdpMsg.bytes_ne_nil (m : UdpMsg F) (filling : Filling) : m.bytes bits filling ≠ [] := by
  cases m <;> exact List.cons_ne_nil _ _

/-- The records before a record. -/
theorem length_flatMap_records (bits : F → UInt32) (records : List (SyncedEntityState F)) :
    (records.flatMap (·.bytes bits)).length = records.length * sizeofSyncedEntityState := by
  rw [List.length_flatMap, List.map_congr_left fun s _ => s.length_bytes bits, List.map_const', List.sum_replicate_nat]

/-- A record of the message is read where it lies in the packet. -/
theorem recordAt_bytes {entityCount : UInt32} {records : List (SyncedEntityState F)}
    (hexact : ∀ s ∈ records, s.Exact bits float) (filling : Filling) {i : ℕ} (hi : i < records.length) :
    recordAt float ((UdpMsg.globalStateSync entityCount records).bytes bits filling) i = records[i] := by
  have hsplit : records = records.take i ++ records[i] :: records.drop (i + 1) := by
    rw [← List.drop_eq_getElem_cons hi, List.take_append_drop]
  have hpre : (9 :: (le32 entityCount ++ (records.take i).flatMap (·.bytes bits))).length = recordOffset i := by
    rw [List.length_cons, List.length_append, length_le32, length_flatMap_records, List.length_take,
      Nat.min_eq_left hi.le, recordOffset, sizeofGlobalStateSync]
    omega
  have hflat := congrArg (List.flatMap (·.bytes bits)) hsplit
  rw [List.flatMap_append, List.flatMap_cons] at hflat
  have hread := recordAt_append (hexact _ (List.getElem_mem hi)) hpre
    ((records.drop (i + 1)).flatMap (·.bytes bits) ++ if records.length < 72 then [] else filling.behind)
  rw [UdpMsg.bytes, hflat]
  simpa only [List.append_assoc, List.cons_append] using hread

end Parse

namespace RTypeClient

variable [FloatOps F] {bits : F → UInt32} {float : UInt32 → F}

/-- Up to the 72nd, the client finds the records of a synchronization. -/
theorem receive_sync {entityCount : UInt32} {records : List (SyncedEntityState F)}
    (hfits : (UdpMsg.globalStateSync entityCount records).Fits) (hexact : ∀ s ∈ records, s.Exact bits float)
    (filling : Filling) (c : RTypeClient F) (now : UInt32) :
    c.receive float now (queueMessage ((UdpMsg.globalStateSync entityCount records).bytes bits filling)) =
      c.handlePacket now (.globalStateSync entityCount records) := by
  obtain ⟨hle, hshort⟩ := hfits
  set packet := (UdpMsg.globalStateSync entityCount records).bytes bits filling with hpacket
  have hreceived : recvfrom (queueMessage packet) = packet.take maxUdpPacketSize := recvfrom_queueMessage _
  have hsize : recordOffset records.length ≤ packet.length := by
    rw [hpacket, UdpMsg.bytes, List.length_cons, List.length_append, List.length_append, length_le32,
      length_flatMap_records, recordOffset, sizeofGlobalStateSync]
    omega
  have hlen : ∀ i ≤ records.length, recordOffset i ≤ (recvfrom (queueMessage packet)).length := by
    intro i hi
    rw [hreceived, List.length_take]
    simp only [recordOffset, sizeofGlobalStateSync, sizeofSyncedEntityState, maxUdpPacketSize] at hsize ⊢
    omega
  have h9 : (recvfrom (queueMessage packet)).head? = some 9 := by
    rw [hreceived]
    rfl
  have hcount : u32At (padded maxUdpPacketSize (recvfrom (queueMessage packet))) 1 = entityCount := by
    rw [u32At_padded (hlen 0 (Nat.zero_le _)), hreceived, u32At_take (by decide), hpacket, UdpMsg.bytes,
      List.append_assoc, u32At_cons, u32At_le32_zero]
  have hrecord : ∀ i (hi : i < records.length),
      recordAt float (padded maxUdpPacketSize (recvfrom (queueMessage packet))) i = records[i] := by
    intro i hi
    have hfits : recordOffset i + 14 ≤ maxUdpPacketSize := by
      simp only [recordOffset, sizeofGlobalStateSync, sizeofSyncedEntityState, maxUdpPacketSize]
      omega
    rw [recordAt_padded (hlen (i + 1) hi), hreceived, recordAt_take hfits, recordAt_bytes hexact filling hi]
  have hrecords : syncedRecords entityCount
      ((List.range 72).map (recordAt float (padded maxUdpPacketSize (recvfrom (queueMessage packet))))) =
      syncedRecords entityCount records := by
    -- a list that is shorter than the buffer is as long as the header says
    have henough : min entityCount.toNat 72 ≤ records.length := by omega
    rw [syncedRecords_eq_take (by simp), syncedRecords_eq_take henough]
    refine List.ext_getElem (by simp; omega) fun i h₁ h₂ => ?_
    rw [List.length_take, lt_min_iff] at h₂
    simp only [List.getElem_take, List.getElem_map, List.getElem_range]
    exact hrecord i h₂.2
  have hne : recvfrom (queueMessage packet) ≠ [] := ne_nil_of_head? h9
  rw [receive_of_parse hne (parse_sync (length_padded_recvfrom _) ((head?_padded hne).trans h9)), hcount]
  simp only [handlePacket, syncEntities, hrecords]

/-- **The client takes the datagram of a message for the message.** -/
theorem receive_bytes {m : UdpMsg F} (hfits : m.Fits) (hexact : m.Exact bits float) (filling : Filling)
    (c : RTypeClient F) (now : UInt32) :
    c.receive float now (queueMessage (m.bytes bits filling)) = c.handlePacket now m := by
  by_cases hsync : ∃ entityCount records, m = .globalStateSync entityCount records
  · obtain ⟨entityCount, records, rfl⟩ := hsync
    exact receive_sync hfits hexact filling c now
  · have hother : ∀ entityCount records, m ≠ .globalStateSync entityCount records := fun entityCount records h =>
      hsync ⟨entityCount, records, h⟩
    have hsize : (m.bytes bits filling).length ≤ maxUdpPacketSize := UdpMsg.length_bytes_le hother filling
    have hqueued : recvfrom (queueMessage (m.bytes bits filling)) = m.bytes bits filling := by
      rw [recvfrom_queueMessage, List.take_of_length_le hsize]
    have hne : recvfrom (queueMessage (m.bytes bits filling)) ≠ [] := by
      rw [hqueued]
      exact m.bytes_ne_nil filling
    refine receive_of_parse hne ?_
    rw [hqueued]
    exact UdpMsg.parse_bytes hfits hexact hother filling _ (length_padded hsize)

end RTypeClient

/-! ## What a game queues -/

theorem plain_fits : UdpMsg.Plain (UdpMsg.Fits (F := F)) where
  playerState _ _ _ _ _ := trivial
  entitySpawn _ _ _ _ := trivial
  entityUpdate _ _ _ := trivial
  entityDestroy _ := trivial
  playerDisconnect _ := trivial
  youHaveBeenKicked := trivial

namespace Room

theorem syncStage_posts (r : Room F) (env : UpdateEnv) : r.Posts UdpMsg.Fits (r.syncStage env) := by
  unfold syncStage
  split
  · refine (broadcast_posts r fun m hm => ?_).trans (.of_eq rfl)
    rw [List.mem_singleton.1 hm]
    refine ⟨List.length_take_le _ _, fun hshort => ?_⟩
    -- fewer than 72 records are all there are
    have hfew : r.game.entities.length < 72 := by
      rw [List.length_take, List.length_map] at hshort
      exact (min_lt_iff.1 hshort).resolve_left (by decide)
    have hsmall : r.game.entities.length < UInt32.size := by
      have hsize : 72 < UInt32.size := by decide
      omega
    rw [UInt32.toNat_ofNat_of_lt' hsmall, List.length_take, List.length_map, Nat.min_eq_right]
    exact hfew.le
  · exact .refl r

end Room

/-! ## The fight keeps the HP in 32 bits -/

/-- How many bosses are about to be spawned. -/
def LoopPc.pending : LoopPc F → ℕ
  | spawnBoss _ => 1
  | _ => 0

namespace Room

/-- **All that was queued fits.** There is at most one boss to hit, of the level, and it has HP
left; `pending` bosses are about to be spawned. -/
structure Wired (pending : ℕ) (r : Room F) : Prop where
  bosses : r.liveBosses + pending ≤ if r.boss.level = 1 ∨ r.boss.level = 3 then 1 else 0
  alive : 0 < r.liveBosses + pending → 0 < r.boss.hp
  hp : IsInt32 r.boss.hp
  told : ∀ m ∈ r.out, m.msg.Fits

variable {pending : ℕ} {r r' : Room F}

/-- A section that keeps the entries, and brings no boss to hit. -/
theorem Wired.of_le (h : r.Wired pending) (hlevel : r'.boss.level = r.boss.level) (hhp : r'.boss.hp = r.boss.hp)
    (hlive : r'.liveBosses ≤ r.liveBosses) (hposts : r.Posts UdpMsg.Fits r') : r'.Wired pending := by
  refine ⟨?_, fun hpos => ?_, hhp ▸ h.hp, hposts.all h.told⟩
  · rw [hlevel]
    exact (Nat.add_le_add_right hlive pending).trans h.bosses
  · rw [hhp]
    exact h.alive (lt_of_lt_of_le hpos (Nat.add_le_add_right hlive pending))

theorem Wired.aside (h : r.Wired pending) (haside : r.Aside r') (hposts : r.Posts UdpMsg.Fits r') : r'.Wired pending :=
  h.of_le haside.level haside.hp haside.liveBosses.le hposts

/-- A hit takes at most what was left and 49 more. -/
theorem Wired.hitBoss {j : ℕ} {e : Entity F} {damage : ℤ} (h : r.Wired 0) (he : r.game.entities[j]? = some e)
    (hboss : e.type = 10) (hlive : e.isCollide = false) (hdamage : damage = 10 ∨ damage = 50) :
    (r.hitBoss j damage).Wired 0 := by
  have hone : 0 < r.liveBosses := by
    refine List.countP_pos_iff.2 ⟨e, List.mem_of_getElem? he, ?_⟩
    simp [hboss, hlive]
  have halive := h.alive hone
  have hrange := h.hp
  have hbosses := h.bosses
  unfold Room.hitBoss
  extract_lets hp maxHp _ r₁ r₂
  have hhp : hp = r.boss.hp - damage := rfl
  have hnew : IsInt32 hp := by
    unfold IsInt32 at hrange ⊢
    omega
  have hmax : IsInt32 maxHp := by
    simp only [maxHp]
    unfold IsInt32
    split <;> omega
  have htold : ∀ m ∈ r₁.out, m.msg.Fits := by
    refine Posts.all (broadcast_posts _ fun m hm => ?_) h.told
    rw [List.mem_singleton.1 hm]
    exact ⟨hnew, hmax⟩
  -- the only boss to hit is flagged
  have hflag : r₂.liveBosses + 1 = r₁.liveBosses := flag_liveBosses_boss he hboss hlive
  have hsame : r₁.liveBosses = r.liveBosses := rfl
  have hnone : r₂.liveBosses = 0 := by
    split at hbosses <;> omega
  have hover : ∀ boss : Boss F, boss.hp = hp → ({ r₂ with boss } : Room F).Wired 0 := by
    intro boss heq
    have hzero : ({ r₂ with boss } : Room F).liveBosses = 0 := hnone
    refine ⟨?_, fun hpos => ?_, heq ▸ hnew, htold⟩
    · rw [hzero]
      exact Nat.zero_le _
    · rw [hzero] at hpos
      exact absurd hpos (lt_irrefl 0)
  split
  · split
    · exact hover _ rfl
    · split
      · exact hover _ rfl
      · exact hover r₂.boss rfl
  · rename_i hleft
    exact ⟨h.bosses, fun _ => not_le.1 hleft, hnew, htold⟩

variable [FloatOps F]

theorem Wired.handleCollision (h : r.Wired 0) : r.handleCollision.Wired 0 := by
  refine handleCollision_damage_rule (I := fun r' : Room F => r'.Wired 0) ?_ ?_ h
  · intro r' i e he htype h'
    exact h'.of_le rfl rfl (flag_liveBosses he htype).le (.of_eq rfl)
  · intro r' j e damage hdamage he hboss hlive h'
    exact h'.hitBoss he hboss hlive hdamage

theorem updateEntities_liveBosses_le (r : Room F) : r.updateEntities.liveBosses ≤ r.liveBosses := by
  refine List.filter_sublist.countP_le.trans_eq ?_
  rw [List.countP_map]
  rfl

theorem updateGameLevel_liveBosses (r : Room F) (elapsedTime : F) :
    (r.updateGameLevel elapsedTime).liveBosses = r.liveBosses := by
  unfold liveBosses updateGameLevel
  rw [List.countP_map]
  refine List.countP_congr fun e _ => ?_
  rw [Function.comp_apply, Entity.steer_type, Entity.steer_keeps (·.isCollide) (fun _ _ _ => rfl)]

/-- Where a boss is entered there is none to hit, and it is spawned next. -/
theorem Wired.bossStage (h : r.Wired 0) :
    (r.bossStage.2 = none → r.bossStage.1.Wired 0) ∧
      ∀ bossMaxHP, r.bossStage.2 = some bossMaxHP → r.bossStage.1.Wired 1 ∧ IsInt32 bossMaxHP := by
  have hbosses := h.bosses
  have hentered : ∀ boss : Boss F, r.boss.level ≠ 1 → r.boss.level ≠ 3 → boss.level = 1 ∨ boss.level = 3 →
      0 < boss.hp → IsInt32 boss.hp → ({ r with boss } : Room F).Wired 1 := by
    intro boss h1 h3 hlevel hpos hrange
    rw [if_neg (by omega)] at hbosses
    have hnone : ({ r with boss } : Room F).liveBosses = 0 := Nat.le_zero.1 hbosses
    refine ⟨?_, fun _ => hpos, hrange, h.told⟩
    rw [hnone, if_pos hlevel]
  have h1000 : IsInt32 1000 := ⟨by decide, by decide⟩
  have h2000 : IsInt32 2000 := ⟨by decide, by decide⟩
  unfold Room.bossStage
  by_cases hfirst : r.boss.level = 0 ∧ (10.0 : F) < r.game.gameTime
  · rw [if_pos hfirst]
    refine ⟨(fun hnone => nomatch hnone), fun bossMaxHP hsome => ?_⟩
    obtain rfl := Option.some.inj hsome
    exact ⟨hentered _ (by omega) (by omega) (.inl rfl) (by decide : (0 : ℤ) < 1000) h1000, h1000⟩
  rw [if_neg hfirst]
  by_cases hsecond : r.boss.level = 2 ∧ r.boss.deathTime + 0.0 < r.game.gameTime
  · rw [if_pos hsecond]
    refine ⟨(fun hnone => nomatch hnone), fun bossMaxHP hsome => ?_⟩
    obtain rfl := Option.some.inj hsome
    exact ⟨hentered _ (by omega) (by omega) (.inr rfl) (by decide : (0 : ℤ) < 2000) h2000, h2000⟩
  · rw [if_neg hsecond]
    exact ⟨fun _ => h, fun bossMaxHP hsome => nomatch hsome⟩

theorem Wired.spawnBoss {bossMaxHP : ℤ} (h : r.Wired 1) (hmax : IsInt32 bossMaxHP) :
    (r.spawnBoss bossMaxHP).Wired 0 := by
  have hlive : (r.spawnBoss bossMaxHP).liveBosses = r.liveBosses + 1 := by
    unfold Room.spawnBoss Room.spawn liveBosses broadcast
    rw [List.countP_append]
    rfl
  refine ⟨?_, fun _ => h.alive (Nat.succ_pos _), h.hp, ?_⟩
  · rw [hlive]
    exact h.bosses
  · refine Posts.all (spawn_posts plain_fits.toMoving r _ _ _ _ _ _ _ _ fun m hm => ?_) h.told
    rw [List.mem_singleton.1 hm]
    exact ⟨h.hp, hmax⟩

end Room

namespace GameThreads

variable [FloatOps F]

/-- **The invariant of what a game queues.** -/
structure Wired (s : GameThreads F) : Prop where
  room : s.room.Wired s.loop.pending
  bossMaxHP : ∀ bossMaxHP, s.loop = .spawnBoss bossMaxHP → IsInt32 bossMaxHP

theorem wired_loop {r : Room F} {pc : LoopPc F} (env : UpdateEnv) (h : r.Wired pc.pending)
    (hmax : ∀ bossMaxHP, pc = .spawnBoss bossMaxHP → IsInt32 bossMaxHP) :
    (pc.run env r).1.Wired (pc.run env r).2.pending ∧
      ∀ bossMaxHP, (pc.run env r).2 = .spawnBoss bossMaxHP → IsInt32 bossMaxHP := by
  cases pc with
  | idle =>
    simp only [LoopPc.run]
    split
    · exact ⟨h, fun bossMaxHP hpc => by cases hpc⟩
    · exact ⟨h, fun bossMaxHP hpc => by cases hpc⟩
  | updateEntities =>
    exact ⟨h.of_le rfl rfl r.updateEntities_liveBosses_le (r.updateEntities_posts plain_fits.toMoving),
      fun _ hpc => by cases hpc⟩
  | handleCollision => exact ⟨h.handleCollision, fun _ hpc => by cases hpc⟩
  | broadcastGameState =>
    exact ⟨h.aside r.broadcastGameState_bystands.aside (r.broadcastGameState_posts plain_fits.toMoving),
      fun _ hpc => by cases hpc⟩
  | updateGameLevel =>
    exact ⟨h.of_le rfl rfl (r.updateGameLevel_liveBosses 0.016).le (.of_eq rfl), fun _ hpc => by cases hpc⟩
  | bossStage =>
    obtain ⟨hno, hentered⟩ := h.bossStage
    simp only [LoopPc.run]
    rcases hstage : r.bossStage with ⟨r', _ | bossMaxHP⟩
    · rw [hstage] at hno
      exact ⟨hno rfl, fun _ hpc => by cases hpc⟩
    · rw [hstage] at hentered
      obtain ⟨hwired, hrange⟩ := hentered bossMaxHP rfl
      refine ⟨hwired, fun bossMaxHP' hpc => ?_⟩
      obtain rfl := LoopPc.spawnBoss.inj hpc
      exact hrange
  | spawnBoss bossMaxHP => exact ⟨h.spawnBoss (hmax bossMaxHP rfl), fun _ hpc => by cases hpc⟩
  | bossAim =>
    simp only [LoopPc.run]
    split
    · exact ⟨h, fun _ hpc => by cases hpc⟩
    · exact ⟨h, fun _ hpc => by cases hpc⟩
  | bossShoot x y =>
    exact ⟨h.aside (r.bossShoot_aside x y) (r.bossShoot_posts plain_fits.toMoving x y), fun _ hpc => by cases hpc⟩
  | enemyStage =>
    exact ⟨h.aside (r.enemyStage_bystands env).aside (r.enemyStage_posts plain_fits.toMoving env),
      fun _ hpc => by cases hpc⟩
  | syncStage => exact ⟨h.aside (r.syncStage_bystands env).aside (r.syncStage_posts env), fun _ hpc => by cases hpc⟩

/-- **Every step of the threads keeps it.** -/
theorem wired_step {s s' : GameThreads F} {l : Label F} (h : s.Wired) (hs : machine.step s l = some s') : s'.Wired := by
  rcases step_cases hs with ⟨c, -, -, rfl⟩ | ⟨memory, op, rest, -, -, rfl⟩ | ⟨env, -, rfl⟩ | ⟨f, hf, rfl⟩
  · exact ⟨h.room, h.bossMaxHP⟩
  · have haside : s.room.Aside (op.run s.playerId memory s.room).1 := (op.bystands s.playerId memory s.room).aside
    exact ⟨h.room.aside haside (op.posts plain_fits.toMoving s.playerId memory s.room), h.bossMaxHP⟩
  · obtain ⟨hroom, hmax⟩ := wired_loop env h.room h.bossMaxHP
    exact ⟨hroom, hmax⟩
  · exact ⟨h.room.aside (section_bystands hf s.room).aside (section_posts plain_fits hf s.room), h.bossMaxHP⟩

theorem wired_init {boss : Boss F} (hboss : IsInt32 boss.hp) (now : ℕ) : (init boss now).Wired := by
  refine ⟨⟨Nat.zero_le _, fun hpos => absurd hpos (lt_irrefl 0), hboss, fun m hm => nomatch hm⟩, fun _ hpc => nomatch hpc⟩

end GameThreads

/-! ## Whole runs -/

namespace Viewer

variable [FloatOps F] {bits : F → UInt32} {float : UInt32 → F}

/-- A message that comes has floats that survive as bytes. -/
def ComesExact (bits : F → UInt32) (float : UInt32 → F) (s : Viewer F) : Label F → Prop
  | .packet _ => ∀ m, s.inbox[s.passed]? = some m → m.Exact bits float
  | _ => True

theorem wired_viewer_step {s s' : Viewer F} {l : Label F} (h : s.threads.Wired) (hs : machine.step s l = some s') :
    s'.threads.Wired := by
  cases l with
  | server l =>
    obtain ⟨threads, hthreads, rfl⟩ := Option.map_eq_some_iff.1 hs
    exact GameThreads.wired_step h hthreads
  | keys k =>
    obtain rfl := Option.some.inj hs
    exact h
  | menu status =>
    obtain rfl := Option.some.inj hs
    exact h
  | packet now =>
    obtain ⟨m, -, rfl⟩ := Option.map_eq_some_iff.1 hs
    exact h
  | loss =>
    obtain ⟨m, -, rfl⟩ := Option.map_eq_some_iff.1 hs
    exact h

/-- **A step with bytes is the step with messages.** -/
theorem wireStep_eq {s : Viewer F} {l : Label F} (h : s.threads.Wired) (hexact : ComesExact bits float s l)
    (filling : Filling) : (wireMachine bits float).step s (l, filling) = machine.step s l := by
  cases l with
  | packet now =>
    cases hm : s.inbox[s.passed]? with
    | none => simp only [wireMachine, wireStep, machine, step, hm, Option.map_none]
    | some m =>
      obtain ⟨sent, hsent, rfl⟩ := mem_out_of_inbox hm
      have hread := RTypeClient.receive_bytes (h.room.told sent hsent) (hexact _ hm) filling s.client now
      simp only [wireMachine, wireStep, machine, step, hm, Option.map_some, hread]
  | _ => rfl

/-- **A client that gets bytes goes through the states of one that gets messages.** -/
theorem wire_run_eq (boss : Boss F) (hboss : IsInt32 boss.hp) (now : ℕ) (playerId serverTimeMs : UInt32)
    (labels : List (Label F × Filling))
    (hexact : machine.Along (ComesExact bits float) (init boss now playerId serverTimeMs) (labels.map Prod.fst)) :
    (wireMachine bits float).run (init boss now playerId serverTimeMs) labels =
      machine.run (init boss now playerId serverTimeMs) (labels.map Prod.fst) :=
  Machine.run_congr (I := fun s => s.threads.Wired) (fun _ _ _ h _ hs => wired_viewer_step h hs)
    (fun _ l h hC => wireStep_eq h hC l.2) labels (GameThreads.wired_init hboss now) hexact

/-- A player shoots, and hears of it. -/
def heardShot : List (Label ℚ × Filling) :=
  [.server (.join 1 []), .server (.updatePlayerUdpAddr 1 ⟨1, 1⟩), .server (.call (.createPlayerShot 1)),
    .server (.udp (Player.new 0 [])), .server (.udp (Player.new 0 [])), .packet 0].map (·, ⟨7, []⟩)

open RTypeClient (shotBits shotFloat) in
theorem wire_run_eq_heardShot : ∃ t : Viewer ℚ, t.passed = 1 ∧
    (wireMachine shotBits shotFloat).run (init Boss.none 0 1 0) heardShot = some t := by
  have hboss : IsInt32 (Boss.none : Boss ℚ).hp := ⟨by decide, by decide⟩
  -- the place of the shot
  have hx : shotFloat (shotBits (((400 : ℤ) : ℚ) + ((25 : ℤ) : ℚ))) = ((400 : ℤ) : ℚ) + ((25 : ℤ) : ℚ) := by
    have hfar : ((400 : ℤ) : ℚ) + ((25 : ℤ) : ℚ) = 425 := by norm_num
    rw [hfar, shotBits, if_pos rfl]
    rfl
  have hy : shotFloat (shotBits ((225 : ℤ) : ℚ)) = ((225 : ℤ) : ℚ) := by
    have hne : ((225 : ℤ) : ℚ) ≠ 425 := by norm_num
    rw [shotBits, if_neg hne]
    rfl
  refine ⟨_, rfl, (wire_run_eq Boss.none hboss 0 1 0 heardShot ?_).trans rfl⟩
  refine .cons rfl trivial (.cons rfl trivial (.cons rfl trivial (.cons rfl trivial (.cons rfl trivial
    (.cons rfl ?_ .nil)))))
  intro m hm
  obtain rfl := Option.some.inj hm
  exact ⟨hx, hy⟩

end Viewer

end RType

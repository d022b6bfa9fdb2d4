import Mathlib.Data.List.Nodup
import RType.Proof.Departures

/-!
# The entities of a room and what is told about them

* `EntityWork`: what a section does to the entities, as a chain of primitive steps;
  `LoopPc.entityWork` for the sections of `update`.
* `Born.work`: the live ids are distinct and among those handed out.
* `Tracked.work`: the history of every entity stays a spawn, touches, and a destruction
  exactly if it is gone.
-/

namespace RType

open Lts

variable {F : Type*}

/-- What a message tells about one entity. -/
inductive LifeEvent
  | spawn | touch | destroy
deriving DecidableEq

/-- What a message tells about entity `e`. A synchronization tells once for each record. -/
def UdpMsg.lifeEvents (e : UInt32) : UdpMsg F → List LifeEvent
  | .entitySpawn entityId _ _ _ => if entityId = e then [.spawn] else []
  | .entityUpdate entityId _ _ => if entityId = e then [.touch] else []
  | .entityDestroy entityId => if entityId = e then [.destroy] else []
  | .globalStateSync _ records => (records.filter (·.entityId = e)).map fun _ => .touch
  | _ => []

/-- What messages tell player `d` about entity `e`, oldest first. -/
def history (d e : UInt32) (out : List (Sent F)) : List LifeEvent :=
  (out.filter (·.dest = some d)).flatMap (·.msg.lifeEvents e)

/-- The ids of the entities, in the order of the vector. -/
def Room.entityIds (r : Room F) : List UInt32 := r.game.entities.map (·.id)

/-- The history of an entity that has been created: one spawn, any number of touches, and a
destruction exactly if it is gone. -/
def Lived (d e : UInt32) (r : Room F) : Prop :=
  ∃ n, history d e r.out =
    .spawn :: (List.replicate n .touch ++ if e ∈ r.entityIds then [] else [.destroy])

/-- `d` is one of the players, with distinct ids, and its address is known. -/
def BoundIn (d : UInt32) (ps : List (Player F)) : Prop :=
  (ps.map (·.id)).Nodup ∧ ∃ p ∈ ps, p.id = d ∧ p.addrSet = true

@[simp] theorem history_append (d e : UInt32) (ms ns : List (Sent F)) :
    history d e (ms ++ ns) = history d e ms ++ history d e ns := by
  simp [history]

theorem history_eq_nil {d e : UInt32} {ms : List (Sent F)} (h : ∀ m ∈ ms, m.msg.lifeEvents e = []) :
    history d e ms = [] :=
  List.flatMap_eq_nil_iff.2 fun m hm => h m (List.mem_of_mem_filter hm)

/-- What is announced to others is not told to `d`. -/
theorem history_announce_of_not_mem {d e : UInt32} {ps : List (Player F)} (h : d ∉ ps.map (·.id))
    (ms : List (UdpMsg F)) : history d e (announce ps ms) = [] := by
  have : (announce ps ms).filter (·.dest = some d) = [] := by
    rw [List.filter_eq_nil_iff]
    intro m hm
    obtain ⟨p, hp, -, msg, -, rfl⟩ := mem_announce.1 hm
    simp only [Option.some.injEq, decide_eq_true_eq]
    rintro rfl
    exact h (List.mem_map_of_mem hp)
  rw [history, this, List.flatMap_nil]

/-- A bound player is told each announced message once. -/
theorem history_announce {d : UInt32} {ps : List (Player F)} (h : BoundIn d ps) (e : UInt32)
    (ms : List (UdpMsg F)) : history d e (announce ps ms) = ms.flatMap (·.lifeEvents e) := by
  obtain ⟨hn, p, hp, rfl, hb⟩ := h
  obtain ⟨qs, rs, rfl⟩ := List.append_of_mem hp
  rw [List.map_append, List.map_cons, List.nodup_middle, List.nodup_cons, List.mem_append, not_or] at hn
  have hp1 : announce (p :: rs) ms = ms.map (⟨some p.id, p.udpAddr, ·⟩) ++ announce rs ms := by
    simp [announce, hb]
  rw [announce_append, hp1, history_append, history_append, history_announce_of_not_mem hn.1.1,
    history_announce_of_not_mem hn.1.2, List.nil_append, List.append_nil, history, List.filter_map]
  have hall : ms.filter ((fun m : Sent F => decide (m.dest = some p.id)) ∘ (⟨some p.id, p.udpAddr, ·⟩)) = ms :=
    List.filter_eq_self.2 fun m _ => by simp
  rw [hall, List.flatMap_map]

/-! ## Sections -/

/-- A section that keeps the ids and tells nothing about entities. -/
structure Quiet (r r' : Room F) : Prop where
  ids : r'.entityIds = r.entityIds
  next : r'.game.nextEntityId = r.game.nextEntityId
  out : ∃ new, r'.out = r.out ++ new ∧ ∀ m ∈ new, ∀ e, m.msg.lifeEvents e = []

/-- A section that keeps the ids and queues nothing. -/
theorem Quiet.of_eq {r r' : Room F} (ids : r'.entityIds = r.entityIds)
    (next : r'.game.nextEntityId = r.game.nextEntityId) (out : r'.out = r.out) : Quiet r r' :=
  ⟨ids, next, [], by rw [out, List.append_nil], fun m hm => nomatch hm⟩

theorem Quiet.trans {r s t : Room F} (h : Quiet r s) (h' : Quiet s t) : Quiet r t := by
  obtain ⟨new, he, hq⟩ := h.out
  obtain ⟨new', he', hq'⟩ := h'.out
  refine ⟨h'.ids.trans h.ids, h'.next.trans h.next, new ++ new', by rw [he', he, List.append_assoc], ?_⟩
  exact fun m hm => (List.mem_append.1 hm).elim (hq m) (hq' m)

theorem Quiet.announce (r : Room F) (ps : List (Player F)) {ms : List (UdpMsg F)}
    (h : ∀ m ∈ ms, ∀ e, m.lifeEvents e = []) : Quiet r { r with out := r.out ++ RType.announce ps ms } := by
  refine ⟨rfl, rfl, _, rfl, fun m hm => ?_⟩
  obtain ⟨d, -, -, msg, hmsg, rfl⟩ := mem_announce.1 hm
  exact h msg hmsg

variable [FloatOps F]

/-- What a section that leaves the players alone does to the entities: `n` creations, and
moves of `updateEntities`, synchronizations and work that tells nothing about entities. -/
inductive EntityWork : ℕ → Room F → Room F → Prop
  | quiet {r r' : Room F} (h : Quiet r r') (players : r'.game.players = r.game.players) : EntityWork 0 r r'
  | spawn (r : Room F) (type : UInt16) (x y vx vy : F) (h w : ℤ) (extra : List (UdpMsg F))
      (hx : ∀ m ∈ extra, ∀ e, m.lifeEvents e = []) : EntityWork 1 r (r.spawn type x y vx vy h w extra)
  | update (r : Room F) : EntityWork 0 r r.updateEntities
  | sync (r : Room F) : EntityWork 0 r r.sendGlobalStateSync
  | trans {m n : ℕ} {r s t : Room F} : EntityWork m r s → EntityWork n s t → EntityWork (m + n) r t

/-- The entities created so far are those with ids `1` to `k`. -/
structure Born (k : ℕ) (r : Room F) : Prop where
  next : r.game.nextEntityId = UInt32.ofNat (k + 1)
  nodup : r.entityIds.Nodup
  range : ∀ e ∈ r.entityIds, 1 ≤ e.toNat ∧ e.toNat ≤ k
  told : ∀ m ∈ r.out, ∀ e, m.msg.lifeEvents e ≠ [] → 1 ≤ e.toNat ∧ e.toNat ≤ k

theorem EntityWork.players {n : ℕ} {r r' : Room F} (h : EntityWork n r r') :
    r'.game.players = r.game.players := by
  induction h with
  | quiet _ hp => exact hp
  | spawn r type x y vx vy h w extra _ => rfl
  | update r => rfl
  | sync r => rfl
  | trans _ _ ih ih' => exact ih'.trans ih

/-- What the moves tell about `e`: a touch if it stays, its destruction if it goes. -/
theorem flatMap_report {es : List (Entity F)} (hn : (es.map (·.id)).Nodup) (e : UInt32) :
    es.flatMap (fun x => x.report.lifeEvents e) =
      if e ∈ es.map (·.id) then
        if e ∈ (es.filter fun x => !x.leaves).map (·.id) then [.touch] else [.destroy]
      else [] := by
  induction es with
  | nil => rfl
  | cons x es ih =>
    rw [List.map_cons, List.nodup_cons] at hn
    rw [List.flatMap_cons, ih hn.2]
    by_cases hx : x.id = e
    · subst hx
      have hnot : x.id ∉ (es.filter fun x => !x.leaves).map (·.id) := fun h =>
        hn.1 ((List.filter_sublist.map _).subset h)
      by_cases hl : x.leaves = true
      · simp only [Entity.report, hl, if_true, UdpMsg.lifeEvents, hn.1, if_false, List.append_nil,
          List.map_cons, List.mem_cons_self, Bool.not_true, Bool.false_eq_true, not_false_eq_true,
          List.filter_cons_of_neg, hnot]
      · rw [Bool.not_eq_true] at hl
        simp only [Entity.report, hl, Bool.false_eq_true, if_true, UdpMsg.lifeEvents, hn.1, if_false,
          List.append_nil, List.map_cons, List.mem_cons_self, Bool.not_false, List.filter_cons_of_pos]
    · have hrep : x.report.lifeEvents e = [] := by
        rw [Entity.report]; split <;> simp [UdpMsg.lifeEvents, hx]
      have hx' : e ≠ x.id := Ne.symm hx
      have hf : (e ∈ ((x :: es).filter fun x => !x.leaves).map (·.id)) =
          (e ∈ (es.filter fun x => !x.leaves).map (·.id)) := by
        rw [List.filter_cons]; split <;> simp [hx']
      simp only [hrep, List.nil_append, List.map_cons, List.mem_cons, hx', false_or, hf]

omit [FloatOps F] in
/-- A synchronization tells nothing about an entity that is gone. -/
theorem flatMap_sync (es : List (Entity F)) (e : UInt32) (count : UInt32) (n : ℕ) :
    ∃ m, (UdpMsg.globalStateSync count
        ((es.map fun x => (⟨x.id, x.type, x.x, x.y⟩ : SyncedEntityState F)).take n)).lifeEvents e =
      List.replicate m .touch ∧ (e ∉ es.map (·.id) → m = 0) := by
  refine ⟨_, List.map_const' .., fun he => ?_⟩
  rw [List.length_eq_zero_iff, List.filter_eq_nil_iff]
  intro s hs
  obtain ⟨x, hx, rfl⟩ := List.mem_map.1 (List.mem_of_mem_take hs)
  simp only [decide_eq_true_eq]
  rintro rfl
  exact he (List.mem_map_of_mem hx)

theorem updateEntities_ids (r : Room F) :
    r.updateEntities.entityIds = ((r.game.entities.map Entity.advance).filter fun x => !x.leaves).map (·.id) := rfl

theorem map_advance_ids (r : Room F) : (r.game.entities.map Entity.advance).map (·.id) = r.entityIds := by
  rw [List.map_map, Room.entityIds]
  rfl

omit [FloatOps F] in
theorem spawn_ids (r : Room F) (type : UInt16) (x y vx vy : F) (h w : ℤ) (extra : List (UdpMsg F)) :
    (r.spawn type x y vx vy h w extra).entityIds = r.entityIds ++ [r.game.nextEntityId] := by
  simp [Room.spawn, Room.broadcast, Room.entityIds]

theorem toNat_ofNat_succ {k : ℕ} (h : k + 1 < 2 ^ 32) : (UInt32.ofNat (k + 1)).toNat = k + 1 :=
  UInt32.toNat_ofNat_of_lt' h

omit [FloatOps F] in
theorem Born.quiet {k : ℕ} {r r' : Room F} (hB : Born k r) (h : Quiet r r') : Born k r' := by
  obtain ⟨new, he, hq⟩ := h.out
  refine ⟨h.next.trans hB.next, h.ids ▸ hB.nodup, h.ids ▸ hB.range, fun m hm e hme => ?_⟩
  rw [he, List.mem_append] at hm
  exact hm.elim (fun hm => hB.told m hm e hme) (fun hm => absurd (hq m hm e) hme)

/-- **Creations take the next ids, and only ids in use are told about.** -/
theorem Born.work {k n : ℕ} {r r' : Room F} (hB : Born k r) (h : EntityWork n r r') (hk : k + n < 2 ^ 32) :
    Born (k + n) r' := by
  induction h generalizing k with
  | quiet hQ _ => exact hB.quiet hQ
  | spawn r type x y vx vy h w extra hx =>
    have hid : r.game.nextEntityId.toNat = k + 1 := by rw [hB.next, toNat_ofNat_succ hk]
    have hids := spawn_ids r type x y vx vy h w extra
    refine ⟨?_, ?_, ?_, ?_⟩
    · show r.game.nextEntityId + 1 = _
      rw [hB.next, ← UInt32.ofNat_one, ← UInt32.ofNat_add]
    · rw [hids, List.nodup_append]
      refine ⟨hB.nodup, List.nodup_singleton _, fun a ha b hb => ?_⟩
      rw [List.mem_singleton.1 hb]
      rintro rfl
      have := (hB.range _ ha).2
      omega
    · intro e he
      rw [hids, List.mem_append, List.mem_singleton] at he
      rcases he with he | rfl
      · have := hB.range e he; omega
      · omega
    · intro m hm e hme
      rcases List.mem_append.1 hm with hm | hm
      · have := hB.told m hm e hme; omega
      · obtain ⟨d, -, -, msg, hmsg, rfl⟩ := mem_announce.1 hm
        -- the first message tells of the new id, the others of none
        rcases List.mem_cons.1 hmsg with rfl | hmsg
        · simp only [UdpMsg.lifeEvents] at hme
          split at hme
          · rename_i heq; subst heq; omega
          · exact absurd rfl hme
        · exact absurd (hx msg hmsg e) hme
  | update r =>
    have hsub : r.updateEntities.entityIds.Sublist r.entityIds := by
      rw [updateEntities_ids, ← map_advance_ids]
      exact List.filter_sublist.map _
    refine ⟨hB.next, hB.nodup.sublist hsub, fun e he => hB.range e (hsub.subset he), fun m hm e hme => ?_⟩
    rcases List.mem_append.1 hm with hm | hm
    · exact hB.told m hm e hme
    · obtain ⟨x, hx, hm⟩ := List.mem_flatMap.1 hm
      obtain ⟨d, -, -, msg, hmsg, rfl⟩ := mem_announce.1 hm
      -- an entity reports itself
      have hxe : x.id = e := by
        by_contra hne
        refine hme ?_
        rw [List.mem_singleton.1 hmsg, Entity.report]
        split <;> simp [UdpMsg.lifeEvents, hne]
      exact hB.range e (by rw [← map_advance_ids, ← hxe]; exact List.mem_map_of_mem hx)
  | sync r =>
    refine ⟨hB.next, hB.nodup, hB.range, fun m hm e hme => ?_⟩
    rcases List.mem_append.1 hm with hm | hm
    · exact hB.told m hm e hme
    · obtain ⟨d, -, -, msg, hmsg, rfl⟩ := mem_announce.1 hm
      rw [List.mem_singleton.1 hmsg] at hme
      obtain ⟨j, hj, h0⟩ := flatMap_sync r.game.entities e _ _
      -- an id that no entity has is in no record
      by_contra hne
      refine hme ?_
      rw [hj, h0 fun he => hne (hB.range e he)]
      rfl
  | @trans m n r s t h₁ h₂ ih₁ ih₂ =>
    rw [← Nat.add_assoc]
    exact ih₂ (ih₁ hB (by omega)) (by omega)

/-- An entity appears with a new id only. -/
theorem EntityWork.mem_ids {k n : ℕ} {r r' : Room F} {e : UInt32} (h : EntityWork n r r') (hB : Born k r)
    (hk : k + n < 2 ^ 32) (he : e ∈ r'.entityIds) : e ∈ r.entityIds ∨ k < e.toNat := by
  induction h generalizing k with
  | quiet hQ _ => exact .inl (hQ.ids ▸ he)
  | spawn r type x y vx vy h w extra _ =>
    have hid : r.game.nextEntityId.toNat = k + 1 := by rw [hB.next, toNat_ofNat_succ hk]
    have hids := spawn_ids r type x y vx vy h w extra
    rw [hids, List.mem_append, List.mem_singleton] at he
    exact he.imp_right fun h => by subst h; omega
  | update r =>
    rw [updateEntities_ids] at he
    rw [← map_advance_ids]
    exact .inl ((List.filter_sublist.map _).subset he)
  | sync r => exact .inl he
  | @trans m n r s t h₁ h₂ ih₁ ih₂ =>
    rcases ih₂ (hB.work h₁ (by omega)) (by omega) he with h | h
    · exact ih₁ hB (by omega) h
    · exact .inr (by omega)

/-- Entity `e` as seen by `d`: not created and never told about, or lived. -/
def Tracked (d e : UInt32) (k : ℕ) (r : Room F) : Prop :=
  k < e.toNat ∧ history d e r.out = [] ∨ e.toNat ≤ k ∧ Lived d e r

omit [FloatOps F] in
theorem Tracked.quiet {d e : UInt32} {k : ℕ} {r r' : Room F} (hT : Tracked d e k r) (h : Quiet r r') :
    Tracked d e k r' := by
  obtain ⟨new, he, hq⟩ := h.out
  have hh : history d e r'.out = history d e r.out := by
    rw [he, history_append, history_eq_nil fun m hm => hq m hm e, List.append_nil]
  simpa only [Tracked, Lived, hh, h.ids] using hT

/-- **Every primitive step keeps every history in order.** -/
theorem Tracked.work {d e : UInt32} {k n : ℕ} {r r' : Room F} (hT : Tracked d e k r) (hB : Born k r)
    (hd : BoundIn d r.game.players) (h : EntityWork n r r') (hk : k + n < 2 ^ 32) :
    Tracked d e (k + n) r' := by
  induction h generalizing k with
  | quiet hQ _ => exact hT.quiet hQ
  | spawn r type x y vx vy h w extra hx =>
    have hid : r.game.nextEntityId.toNat = k + 1 := by rw [hB.next, toNat_ofNat_succ hk]
    have hids := spawn_ids r type x y vx vy h w extra
    have hextra : extra.flatMap (·.lifeEvents e) = [] := List.flatMap_eq_nil_iff.2 fun m hm => hx m hm e
    have hh : history d e (r.spawn type x y vx vy h w extra).out =
        history d e r.out ++ if r.game.nextEntityId = e then [.spawn] else [] := by
      have : (r.spawn type x y vx vy h w extra).out =
          r.out ++ announce r.game.players (.entitySpawn r.game.nextEntityId type x y :: extra) := rfl
      rw [this, history_append, history_announce hd, List.flatMap_cons, hextra, List.append_nil]
      rfl
    -- the spawn begins the history of the new id and is in no other
    by_cases hnew : r.game.nextEntityId = e
    · subst hnew
      rcases hT with ⟨-, h0⟩ | ⟨hle, -⟩
      · refine .inr ⟨by omega, 0, ?_⟩
        rw [hh, h0, hids]
        simp
      · omega
    · have hmem : e ∈ (r.spawn type x y vx vy h w extra).entityIds ↔ e ∈ r.entityIds := by
        rw [hids, List.mem_append, List.mem_singleton]
        exact ⟨fun h => h.resolve_right (Ne.symm hnew), .inl⟩
      rw [if_neg hnew, List.append_nil] at hh
      rcases hT with ⟨hlt, h0⟩ | ⟨hle, j, hj⟩
      · have : e.toNat ≠ k + 1 := fun h => hnew (UInt32.toNat_inj.1 (by omega))
        exact .inl ⟨by omega, hh.trans h0⟩
      · refine .inr ⟨by omega, j, ?_⟩
        simp only [hh, hj, hmem]
  | update r =>
    have hh : history d e r.updateEntities.out = history d e r.out ++
        (r.game.entities.map Entity.advance).flatMap fun x => x.report.lifeEvents e := by
      have : ∀ es : List (Entity F), history d e (es.flatMap fun x => announce r.game.players [x.report]) =
          es.flatMap fun x => x.report.lifeEvents e := by
        intro es
        induction es with
        | nil => rfl
        | cons x es ih =>
          rw [List.flatMap_cons, history_append, ih, history_announce hd]
          simp
      rw [← this, ← history_append]
      rfl
    rw [flatMap_report (by rw [map_advance_ids]; exact hB.nodup), map_advance_ids, ← updateEntities_ids] at hh
    have hsub : e ∈ r.updateEntities.entityIds → e ∈ r.entityIds := by
      rw [updateEntities_ids, ← map_advance_ids]
      exact fun h => (List.filter_sublist.map _).subset h
    -- an entity that is there is touched if it stays and destroyed if it leaves
    rcases hT with ⟨hlt, h0⟩ | ⟨hle, j, hj⟩
    · have hnot : e ∉ r.entityIds := fun he => by have := hB.range e he; omega
      rw [if_neg hnot, List.append_nil] at hh
      exact .inl ⟨hlt, hh.trans h0⟩
    · refine .inr ⟨hle, ?_⟩
      by_cases hin : e ∈ r.entityIds
      · rw [if_pos hin, hj, if_pos hin, List.append_nil] at hh
        by_cases hin' : e ∈ r.updateEntities.entityIds
        · refine ⟨j + 1, ?_⟩
          rw [hh, if_pos hin', if_pos hin', List.replicate_succ', List.append_nil, List.cons_append]
        · refine ⟨j, ?_⟩
          rw [hh, if_neg hin', if_neg hin', List.cons_append]
      · refine ⟨j, ?_⟩
        rw [if_neg hin, List.append_nil, hj, if_neg hin] at hh
        rw [hh, if_neg fun h => hin (hsub h)]
  | sync r =>
    -- the records of a live entity are touches, a dead one has none
    obtain ⟨i, hi, h0⟩ := flatMap_sync r.game.entities e (UInt32.ofNat r.game.entities.length)
      ((maxUdpPacketSize - sizeofGlobalStateSync) / sizeofSyncedEntityState)
    have hh : history d e r.sendGlobalStateSync.out = history d e r.out ++ List.replicate i .touch := by
      have : r.sendGlobalStateSync.out = r.out ++ announce r.game.players [.globalStateSync _ _] := rfl
      rw [this, history_append, history_announce hd, List.flatMap_singleton, hi]
    have hids : r.sendGlobalStateSync.entityIds = r.entityIds := rfl
    rcases hT with ⟨hlt, hnil⟩ | ⟨hle, j, hj⟩
    · have hnot : e ∉ r.entityIds := fun he => by have := hB.range e he; omega
      rw [h0 hnot, List.replicate_zero, List.append_nil] at hh
      exact .inl ⟨hlt, hh.trans hnil⟩
    · refine .inr ⟨hle, ?_⟩
      rw [Lived, hids]
      by_cases hin : e ∈ r.entityIds
      · refine ⟨j + i, ?_⟩
        rw [hh, hj, if_pos hin, List.append_nil, List.append_nil, List.cons_append,
          List.replicate_append_replicate]
      · refine ⟨j, ?_⟩
        rw [hh, h0 hin, List.replicate_zero, List.append_nil, hj]
  | @trans m n r s t h₁ h₂ ih₁ ih₂ =>
    rw [← Nat.add_assoc]
    exact ih₂ (ih₁ hT hB hd (by omega)) (hB.work h₁ (by omega)) (h₁.players ▸ hd) (by omega)

/-! ## Steps -/

theorem EntityWork.trans_quiet {n : ℕ} {r s t : Room F} (h : EntityWork n r s) (h' : EntityWork 0 s t) :
    EntityWork n r t := h.trans h'

theorem EntityWork.quiet_trans {n : ℕ} {r s t : Room F} (h : EntityWork 0 r s) (h' : EntityWork n s t) :
    EntityWork n r t := n.zero_add ▸ h.trans h'

theorem EntityWork.of_eq {r r' : Room F} (ids : r'.entityIds = r.entityIds)
    (next : r'.game.nextEntityId = r.game.nextEntityId) (players : r'.game.players = r.game.players)
    (out : r'.out = r.out) : EntityWork 0 r r' :=
  .quiet (.of_eq ids next out) players

theorem EntityWork.refl (r : Room F) : EntityWork 0 r r := .of_eq rfl rfl rfl rfl

omit [FloatOps F] in
theorem flag_ids (r : Room F) (i : ℕ) : (r.flag i).entityIds = r.entityIds := Room.flag_map _ (fun _ => rfl) r i

theorem EntityWork.handleCollision (r : Room F) : EntityWork 0 r r.handleCollision := by
  have hflag : ∀ (r : Room F) i, EntityWork 0 r (r.flag i) := fun r i => .of_eq (flag_ids r i) rfl rfl rfl
  refine Room.handleCollision_rel EntityWork.refl (fun _ _ _ => EntityWork.trans) hflag (fun r j damage _ => ?_) r
  have hboss : ∀ (r : Room F) (b : Boss F), EntityWork 0 r { r with boss := b } := fun r b => .of_eq rfl rfl rfl rfl
  unfold Room.hitBoss
  extract_lets hp maxHp _ r' r''
  have h : EntityWork 0 r r' := (hboss r { r.boss with hp }).trans
    (.quiet (.announce _ _ (by simp [UdpMsg.lifeEvents])) rfl)
  split
  · have h' : EntityWork 0 r r'' := h.trans (hflag r' j)
    split
    · exact h'.trans (hboss _ _)
    · split
      · exact h'.trans (hboss _ _)
      · exact h'
  · exact h

theorem Entity.steer_id (e : Entity F) (gameTime : F) (bossLevel : ℤ) : (e.steer gameTime bossLevel).id = e.id :=
  steer_keeps (·.id) (fun _ _ _ => rfl) e gameTime bossLevel

/-- A row of creations. -/
theorem EntityWork.foldl_spawn {type : UInt16} {x y vx : F} {h w : ℤ} (vys : List F) (r : Room F) :
    EntityWork vys.length r (vys.foldl (fun r vy => r.spawn type x y vx vy h w []) r) := by
  induction vys generalizing r with
  | nil => exact .refl r
  | cons vy vys ih =>
    rw [List.length_cons, Nat.add_comm]
    exact (EntityWork.spawn r type x y vx vy h w [] (by simp)).trans (ih _)

/-- **What each section of `update` does to the entities**: at most three creations. -/
theorem LoopPc.entityWork (env : UpdateEnv) (r : Room F) {pc : LoopPc F} (h : pc ≠ .broadcastGameState) :
    ∃ n ≤ 3, EntityWork n r (pc.run env r).1 := by
  cases pc with
  | idle => exact ⟨0, by omega, .refl r⟩
  | updateEntities => exact ⟨0, by omega, .update r⟩
  | handleCollision => exact ⟨0, by omega, .handleCollision r⟩
  | broadcastGameState => exact absurd rfl h
  | updateGameLevel =>
    refine ⟨0, by omega, .of_eq ?_ rfl rfl rfl⟩
    simp only [run, Room.updateGameLevel, Room.entityIds, List.map_map]
    exact List.map_congr_left fun e _ => e.steer_id _ _
  | bossStage =>
    refine ⟨0, by omega, ?_⟩
    rw [run_bossStage, Room.bossStage]
    split
    · exact .of_eq rfl rfl rfl rfl
    · split
      · exact .of_eq rfl rfl rfl rfl
      · exact .refl r
  | spawnBoss bossMaxHP => exact ⟨1, by omega, .spawn r _ _ _ _ _ _ _ _ (by simp [UdpMsg.lifeEvents])⟩
  | bossAim =>
    refine ⟨0, by omega, ?_⟩
    simp only [run]
    split <;> exact .refl r
  | bossShoot x y =>
    simp only [run]
    unfold Room.bossShoot
    extract_lets shootInterval _ r' vys
    -- a boss fires one shot or three
    have hvys : vys.length ≤ 3 := by simp only [vys]; split <;> simp
    split
    · have h0 : EntityWork 0 r r' := .of_eq rfl rfl rfl rfl
      exact ⟨_, hvys, h0.quiet_trans (.foldl_spawn vys r')⟩
    · exact ⟨0, by omega, .refl r⟩
  | enemyStage =>
    simp only [run, Room.enemyStage]
    have hc : EntityWork 1 r (r.createEnemy env.rand) := by
      unfold Room.createEnemy
      split <;> exact .spawn r _ _ _ _ _ _ _ _ (by simp)
    split
    · refine ⟨1, by omega, hc.trans_quiet ?_⟩
      exact .of_eq rfl rfl rfl rfl
    · exact ⟨0, by omega, .refl r⟩
  | syncStage =>
    refine ⟨0, by omega, ?_⟩
    simp only [run, Room.syncStage]
    split
    · refine (EntityWork.sync r).trans_quiet ?_
      exact .of_eq rfl rfl rfl rfl
    · exact .refl r

/-- A shot is one creation. -/
theorem UdpOp.shoot_work (r : Room F) (x y : F) (charged : Bool) :
    EntityWork 1 r (if charged then r.spawnChargedShot x y else r.spawnShot x y) := by
  split <;> exact .spawn r _ _ _ _ _ _ _ _ (by simp)

omit [FloatOps F] in
theorem broadcastGameState_quiet (r : Room F) : Quiet r r.broadcastGameState := by
  refine ⟨rfl, rfl, _, rfl, fun m hm e => ?_⟩
  obtain ⟨q, -, hm⟩ := List.mem_flatMap.1 hm
  obtain ⟨d, -, -, msg, hmsg, rfl⟩ := mem_announce.1 hm
  rw [List.mem_singleton.1 hmsg]
  rfl

omit [FloatOps F] in
theorem disconnectPlayer_quiet (r : Room F) (playerId : UInt32) : Quiet r (r.disconnectPlayer playerId) := by
  have h : Quiet r { r with game := r.game.removePlayerFromLobby playerId } := .of_eq rfl rfl rfl
  exact h.trans (.announce _ _ (by simp [UdpMsg.lifeEvents]))

omit [FloatOps F] in
theorem kickPlayer_quiet (r : Room F) (playerId : UInt32) : Quiet r (r.kickPlayer playerId) :=
  (Quiet.announce r _ (by simp [UdpMsg.lifeEvents])).trans (disconnectPlayer_quiet _ playerId)

end RType

import RType.Lib.Boxes
import RType.Proof.Collisions
import RType.Proof.EntitySteps
import RType.Spec.ClientTick

/-!
# Hitboxes

The client tests collisions with the sizes of its `ENTITY_REGISTRY`, the server with those
its spawn sites give to an entity. The spawn sites list a width and a height, but `Entity`
declares the height first.

* `playerCollision_agrees_iff`: client and server agree on a player and an enemy, unless the
  player is in the strip where only the client's box reaches.
* `bossHit_listed_iff`: a boss is hit where the boxes with the listed sizes overlap, if the
  shot is in the core of the boss or off both the listed and the transposed box.
-/

namespace RType

open Boxes

variable {F : Type*} [FloatOps F]

/-! ## Overlaps -/

theorem checkCollision_iff {x1 y1 x2 y2 : F} {w1 h1 w2 h2 : ℤ} :
    checkCollision x1 y1 w1 h1 x2 y2 w2 h2 = true ↔
      Overlap x1 (w1 : F) x2 (w2 : F) ∧ Overlap y1 (h1 : F) y2 (h2 : F) := by
  unfold checkCollision Overlap
  simp only [Bool.and_eq_true, decide_eq_true_eq]
  tauto

theorem checkCollisionRecs_iff {a b : Rectangle F} :
    checkCollisionRecs a b = true ↔ Overlap a.x a.width b.x b.width ∧ Overlap a.y a.height b.y b.height := by
  unfold checkCollisionRecs Overlap
  simp only [Bool.and_eq_true, decide_eq_true_eq]
  tauto

section

variable [LawfulFloat F]

/-- Longer segments overlap where shorter ones do. -/
theorem overlap_mono {x w x' w' v v' : F} (h : Overlap x w x' w') (hw : w = v ∨ w < v) (hw' : w' = v' ∨ w' < v') :
    Overlap x v x' v' :=
  h.mono (fun _ _ _ _ => LawfulFloat.lt_add) hw hw'

/-- Small integers are in order. -/
theorem natCast_lt {m n : ℕ} (h : m < n) (hn : n ≤ 100000) : ((m : ℤ) : F) < ((n : ℤ) : F) := by
  rw [← LawfulFloat.ofTenths_eq (by omega), ← LawfulFloat.ofTenths_eq (by omega)]
  exact LawfulFloat.ofTenths_lt (by omega) (by omega)

/-! ## The sizes of the client -/

/-- `17.0`, `33.0` and the like. -/
theorem ofTenths_natCast {n : ℕ} (h : n ≤ 100000) :
    (OfScientific.ofScientific (10 * n) true 1 : F) = ((n : ℤ) : F) := LawfulFloat.ofTenths_eq (by omega)

end

theorem EntityState.entityRec_x (e : EntityState F) : e.entityRec.x = e.x := by
  unfold entityRec
  split <;> rfl

theorem EntityState.entityRec_y (e : EntityState F) : e.entityRec.y = e.y := by
  unfold entityRec
  split <;> rfl

/-- The size that the server gave to enemies of a type. -/
def serverSize (type : UInt16) : ℕ := if type = 2 then 32 else if type = 3 then 40 else 30

theorem size_of_sized {e : Entity F} (h : e.Sized) (htype : e.IsHazard) :
    e.width = serverSize e.type ∧ e.height = serverSize e.type := by
  rcases h.cases with ⟨ht, hh, hw⟩ | ⟨ht, hh, hw⟩ | ⟨ht, hh, hw⟩ | ⟨ht, hh, hw⟩ | ⟨ht, hh, hw⟩ | ⟨ht, hh, hw⟩ <;>
    rw [Entity.IsHazard, ht] at htype <;> rw [ht, hh, hw]
  · exact absurd htype (by decide)
  · exact absurd htype (by decide)
  · exact ⟨rfl, rfl⟩
  · exact ⟨rfl, rfl⟩
  · exact absurd htype (by decide)
  · exact ⟨rfl, rfl⟩

section

variable [LawfulFloat F]

/-- A number of the registry times its scale. -/
theorem scaled (m n : ℕ) (hmn : m * n ≤ 100000) (hm : m ≤ 100000) (hn : n ≤ 100000) :
    (OfScientific.ofScientific (10 * m) true 1 : F) * OfScientific.ofScientific (10 * n) true 1 = ((m * n : ℕ) : ℤ) := by
  rw [ofTenths_natCast hm, ofTenths_natCast hn, LawfulFloat.intCast_mul (by omega)]

theorem pos_of_registry {m : ℕ} (hpos : 0 < m) (h : m ≤ 100000) :
    ((0 : ℤ) : F) < OfScientific.ofScientific (10 * m) true 1 := by
  rw [ofTenths_natCast h]
  exact natCast_lt hpos h

omit [LawfulFloat F] in
theorem EntityState.entityRec_eq {e : EntityState F} {config : EntityRenderConfig F}
    (h : entityRegistry e.type = some config) : e.entityRec = ⟨e.x, e.y, config.w, config.h⟩ := by
  unfold entityRec
  rw [h]

/-- **The boxes of the client are larger.** -/
theorem serverSize_lt_client {e : EntityState F} (h : e.type = 2 ∨ e.type = 3 ∨ e.type = 11) :
    ((serverSize e.type : ℤ) : F) < e.entityRec.width ∧ ((serverSize e.type : ℤ) : F) < e.entityRec.height := by
  rcases h with h | h | h
  · have hreg : entityRegistry e.type = some (⟨17.0, 18.0, 2.0⟩ : EntityRenderConfig F) := by
      rw [h]
      rfl
    have hw : (17.0 : F) * 2.0 = ((34 : ℕ) : ℤ) := scaled 17 2 (by decide) (by decide) (by decide)
    have hh : (18.0 : F) * 2.0 = ((36 : ℕ) : ℤ) := scaled 18 2 (by decide) (by decide) (by decide)
    have hwpos : ((0 : ℤ) : F) < 17.0 := pos_of_registry (m := 17) (by decide) (by decide)
    have hhpos : ((0 : ℤ) : F) < 18.0 := pos_of_registry (m := 18) (by decide) (by decide)
    rw [EntityState.entityRec_eq hreg, h]
    simp only [EntityRenderConfig.w, EntityRenderConfig.h, hwpos, hhpos, if_true, hw, hh]
    exact ⟨natCast_lt (by decide : 32 < 34) (by decide), natCast_lt (by decide : 32 < 36) (by decide)⟩
  · have hreg : entityRegistry e.type = some (⟨33.0, 36.0, 2.5⟩ : EntityRenderConfig F) := by
      rw [h]
      rfl
    have hwpos : ((0 : ℤ) : F) < 33.0 := pos_of_registry (m := 33) (by decide) (by decide)
    have hhpos : ((0 : ℤ) : F) < 36.0 := pos_of_registry (m := 36) (by decide) (by decide)
    -- a scale of 2 would do
    have hw : (33.0 : F) * 2.0 = ((66 : ℕ) : ℤ) := scaled 33 2 (by decide) (by decide) (by decide)
    have hh : (36.0 : F) * 2.0 = ((72 : ℕ) : ℤ) := scaled 36 2 (by decide) (by decide) (by decide)
    have hscale : (2.0 : F) < 2.5 := LawfulFloat.ofTenths_lt (by decide) (by decide)
    have hw2 : ((40 : ℕ) : ℤ) < (33.0 : F) * 2.0 := by
      rw [hw]
      exact natCast_lt (by decide) (by decide)
    have hh2 : ((40 : ℕ) : ℤ) < (36.0 : F) * 2.0 := by
      rw [hh]
      exact natCast_lt (by decide) (by decide)
    rw [EntityState.entityRec_eq hreg, h]
    simp only [EntityRenderConfig.w, EntityRenderConfig.h, hwpos, hhpos, if_true]
    exact ⟨LawfulFloat.lt_mul hscale hwpos hw2, LawfulFloat.lt_mul hscale hhpos hh2⟩
  · have hreg : entityRegistry e.type = some (⟨0.0, 0.0, 1.0⟩ : EntityRenderConfig F) := by
      rw [h]
      rfl
    have hzero : (0.0 : F) = ((0 : ℤ) : F) := ofTenths_natCast (n := 0) (by decide)
    have hsize : (33.0 : F) * 1.0 = ((33 : ℕ) : ℤ) := scaled 33 1 (by decide) (by decide) (by decide)
    rw [EntityState.entityRec_eq hreg, h]
    simp only [EntityRenderConfig.w, EntityRenderConfig.h, hzero, LawfulFloat.not_zero_lt_zero, if_false, hsize]
    exact ⟨natCast_lt (by decide : 30 < 33) (by decide), natCast_lt (by decide : 30 < 33) (by decide)⟩

end

/-! ## A player and an enemy -/

/-- The room holds one player, the entity at place `j`, not flagged, and no shots. -/
structure Room.Faces (r : Room F) (p : Player F) (j : ℕ) (e : Entity F) : Prop where
  players : r.game.players = [p]
  here : r.game.entities[j]? = some e
  clear : e.isCollide = false
  noShot : ∀ e ∈ r.game.entities, ¬e.IsShot

/-- `handleCollision` flags the entity at place `j`. -/
def Room.Flags (r : Room F) (j : ℕ) : Prop :=
  ∃ e, r.handleCollision.game.entities[j]? = some e ∧ e.isCollide = true

/-- Without shots nothing happens before the player loops. -/
theorem Room.handleCollision_of_noShot {r : Room F} (h : ∀ e ∈ r.game.entities, ¬e.IsShot) :
    r.handleCollision = { r with game.entities := r.game.entities.map fun e => r.game.players.foldl Entity.touched e } := by
  have hturn : ∀ n i, collideProjectiles n r i = r := by
    intro n i
    unfold collideProjectiles
    split
    · rename_i e he
      have hshot := h e (List.mem_of_getElem? he)
      rw [Entity.IsShot, not_or] at hshot
      rw [if_pos hshot]
    · rfl
  have hloops : ∀ n (is : List ℕ), is.foldl (collideProjectiles n) r = r := by
    intro n is
    induction is with
    | nil => rfl
    | cons i is ih => rw [List.foldl_cons, hturn, ih]
  rw [handleCollision, hloops]
  exact collidePlayers_eq _ rfl

/-- What the server finds of a player and an enemy alone. -/
theorem Room.Faces.flags_iff {r : Room F} {p : Player F} {j : ℕ} {e : Entity F} (h : r.Faces p j e)
    (hhazard : e.IsHazard) : r.Flags j ↔ p.overlaps e = true := by
  have hat : r.handleCollision.game.entities[j]? = some ([p].foldl Entity.touched e) := by
    rw [handleCollision_of_noShot h.noShot, h.players]
    rw [List.getElem?_map, h.here]
    rfl
  obtain ⟨-, hflag⟩ := Entity.foldl_touched [p] e
  unfold Flags
  rw [hat]
  simp only [Option.some.injEq, exists_eq_left', hflag, h.clear, hhazard, List.mem_singleton, exists_eq_left, true_and,
    Bool.false_eq_true, false_or]

/-- The player overlaps the client's box of the enemy, but lies beyond the server's. -/
def Player.InStrip (p : Player F) (e : Entity F) (box : Rectangle F) : Prop :=
  Overlap p.x 60.0 e.x box.width ∧ Overlap p.y 30.0 e.y box.height ∧
    ¬(p.x < e.x + (e.width : F) ∧ p.y < e.y + (e.height : F))

/-- The client shows the enemy and the player where they are. -/
structure ShownAt (p : Player F) (e : Entity F) (shownP : Position F) (shownE : EntityState F) : Prop where
  px : shownP.x = p.x
  py : shownP.y = p.y
  ex : shownE.x = e.x
  ey : shownE.y = e.y
  type : shownE.type = e.type

/-- The client takes the player to be dead exactly if the server finds the enemy colliding
with it. -/
def CollisionAgrees (r : Room F) (j : ℕ) (shownP : Position F) (shownE : EntityState F) : Prop :=
  shownP.killedBy shownE = true ↔ r.Flags j

/-- **Player-enemy collision.** The client takes a player to be dead exactly if the server finds
the enemy colliding with it, unless the player is in the strip. -/
theorem playerCollision_agrees_iff [LawfulFloat F] {r : Room F} {p : Player F} {j : ℕ} {e : Entity F}
    (h : r.Faces p j e) (hhazard : e.IsHazard) (hsized : e.Sized) {shownP : Position F} {shownE : EntityState F}
    (hshown : ShownAt p e shownP shownE) :
    CollisionAgrees r j shownP shownE ↔ ¬p.InStrip e shownE.entityRec := by
  have htype : shownE.type = 2 ∨ shownE.type = 3 ∨ shownE.type = 11 := by
    rw [hshown.type]
    exact hhazard
  obtain ⟨hwidth, hheight⟩ := size_of_sized hsized hhazard
  obtain ⟨hlarger, hhigher⟩ := serverSize_lt_client htype
  have h60 : (60.0 : F) = ((60 : ℤ) : F) := ofTenths_natCast (n := 60) (by decide)
  have h30 : (30.0 : F) = ((30 : ℤ) : F) := ofTenths_natCast (n := 30) (by decide)
  have hclient : shownP.killedBy shownE = true ↔
      Overlap p.x 60.0 e.x shownE.entityRec.width ∧ Overlap p.y 30.0 e.y shownE.entityRec.height := by
    have hdeadly : ¬(shownE.type = 1 ∨ shownE.type = 4 ∨ shownE.type = 5) := by
      rcases htype with ht | ht | ht <;> rw [ht] <;> decide
    rw [Position.killedBy, if_neg hdeadly, checkCollisionRecs_iff, ← hshown.px, ← hshown.py, ← hshown.ex, ← hshown.ey,
      EntityState.entityRec_x, EntityState.entityRec_y]
    exact Iff.rfl
  have hserver : p.overlaps e = true ↔ Overlap p.x 60.0 e.x (e.width : F) ∧ Overlap p.y 30.0 e.y (e.height : F) := by
    rw [Player.overlaps, checkCollision_iff, h60, h30]
  have hinside : p.overlaps e = true → shownP.killedBy shownE = true := by
    rw [hclient, hserver, hwidth, hheight, ← hshown.type]
    intro hover
    exact ⟨overlap_mono hover.1 (.inl rfl) (.inr hlarger), overlap_mono hover.2 (.inl rfl) (.inr hhigher)⟩
  have hstrip : p.InStrip e shownE.entityRec ↔ shownP.killedBy shownE = true ∧ ¬p.overlaps e = true := by
    rw [hclient, hserver]
    constructor
    · rintro ⟨hx, hy, hbeyond⟩
      exact ⟨⟨hx, hy⟩, fun hover => hbeyond ⟨hover.1.1, hover.2.1⟩⟩
    · rintro ⟨⟨hx, hy⟩, hapart⟩
      exact ⟨hx, hy, fun hwithin => hapart ⟨⟨hwithin.1, hx.2⟩, hwithin.2, hy.2⟩⟩
  rw [CollisionAgrees, h.flags_iff hhazard, hstrip]
  constructor
  · rintro hagree ⟨hkilled, hapart⟩
    exact hapart (hagree.1 hkilled)
  · intro hoff
    exact ⟨fun hkilled => not_not.1 fun hapart => hoff ⟨hkilled, hapart⟩, hinside⟩

/-- An enemy of type 2, and a player 33 to the right of it: within 34, but not within 32. -/
def smallEnemy : Entity ℚ := ⟨1, 2, 0, 0, -5, 0, 32, 32, false⟩

def nearPlayer : Player ℚ := { Player.new 1 [] with x := 33, y := 0 }

def besideEnemy : Room ℚ := ⟨⟨[nearPlayer], [smallEnemy], 2, 0, 0, 0, .playing⟩, Boss.none, []⟩

theorem besideEnemy_faces : besideEnemy.Faces nearPlayer 0 smallEnemy := by
  refine ⟨rfl, rfl, rfl, ?_⟩
  intro e he
  rw [List.mem_singleton.1 he]
  decide

/-- The client takes the player to be dead, the server does not. -/
theorem not_collisionAgrees_beside : ¬CollisionAgrees besideEnemy 0 ⟨33, 0, 0⟩ ⟨0, 0, 2⟩ := by
  intro h
  obtain ⟨e, he, hflag⟩ := h.1 (by decide +kernel)
  have hat : besideEnemy.handleCollision.game.entities[0]? = some smallEnemy := by decide +kernel
  rw [hat] at he
  obtain rfl := Option.some.inj he
  cases hflag

theorem playerCollision_agrees_beside :
    CollisionAgrees besideEnemy 0 ⟨33, 0, 0⟩ ⟨0, 0, 2⟩ ↔
      ¬nearPlayer.InStrip smallEnemy (EntityState.entityRec ⟨0, 0, 2⟩) :=
  playerCollision_agrees_iff besideEnemy_faces (.inl rfl) ⟨_, .enemy 1 0, rfl, rfl, rfl⟩ ⟨rfl, rfl, rfl, rfl, rfl⟩

/-! ## A shot and the boss -/

/-- The room holds a shot and the boss, which has HP, no other shot, and nothing else that a shot
can hit; nothing is flagged. -/
structure Room.Duel (r : Room F) (i j : ℕ) (shot boss : Entity F) : Prop where
  shotHere : r.game.entities[i]? = some shot
  bossHere : r.game.entities[j]? = some boss
  isShot : shot.IsShot
  isBoss : boss.type = 10
  onlyShot : ∀ (k : ℕ) e, r.game.entities[k]? = some e → e.IsShot → k = i
  onlyBoss : ∀ (k : ℕ) e, r.game.entities[k]? = some e → e.IsTarget → k = j
  clear : ∀ e ∈ r.game.entities, e.isCollide = false
  alive : 0 < r.boss.hp

/-- `handleCollision` registers a hit on the boss: it takes HP. -/
def Room.HitsBoss (r : Room F) : Prop := r.handleCollision.boss.hp < r.boss.hp

namespace Room.Duel

variable {r : Room F} {i j : ℕ} {shot boss : Entity F}

omit [FloatOps F] in
theorem fresh (h : r.Duel i j shot boss) : r.Fresh := by
  have htarget : ∀ e : Entity F, e.type = 10 → e.IsTarget := fun e he => .inr (.inr he)
  refine ⟨h.clear, ?_, fun _ _ _ => h.alive⟩
  intro k k' e e' he he' htype htype'
  exact (h.onlyBoss k e he (htarget e htype)).trans (h.onlyBoss k' e' he' (htarget e' htype')).symm

theorem meets_iff (h : r.Duel i j shot boss) {k l : ℕ} :
    r.Meets k l ↔ k = i ∧ l = j ∧ shot.overlaps boss = true := by
  constructor
  · rintro ⟨projectile, enemy, hp, he, hshot, htarget, hover⟩
    obtain rfl := h.onlyShot k projectile hp hshot
    obtain rfl := h.onlyBoss l enemy he htarget
    obtain rfl := Option.some.inj (hp.symm.trans h.shotHere)
    obtain rfl := Option.some.inj (he.symm.trans h.bossHere)
    exact ⟨rfl, rfl, hover⟩
  · rintro ⟨rfl, rfl, hover⟩
    exact ⟨shot, boss, h.shotHere, h.bossHere, h.isShot, .inr (.inr h.isBoss), hover⟩

/-- Nothing else can be hit, so `handleCollision` hits the boss where the two overlap. -/
theorem hitsBoss_iff (h : r.Duel i j shot boss) : r.HitsBoss ↔ shot.overlaps boss = true := by
  obtain ⟨r', hloops, heq⟩ := handleCollision_eq h.fresh
  have hhp : r.handleCollision.boss.hp = r.boss.hp - r.bossDamage r.hits := by
    rw [heq]
    exact hloops.hp
  unfold HitsBoss
  rw [hhp]
  cases hhits : r.hits with
  | nil =>
    -- a pair that meets would have been taken
    rw [hhits] at hloops
    have hapart : ¬shot.overlaps boss = true := by
      intro hover
      have hmeets : r.Meets i j := h.meets_iff.2 ⟨rfl, rfl, hover⟩
      have hoffered : (i, j) ∈ pairs r.game.entities.length :=
        List.mem_flatMap.2 ⟨i, List.mem_range.2 (List.getElem?_eq_some_iff.1 h.shotHere).1,
          List.mem_map.2 ⟨j, List.mem_range.2 (List.getElem?_eq_some_iff.1 h.bossHere).1, rfl⟩⟩
      refine hloops.greedy.maximal (i, j) hoffered hmeets ⟨List.not_mem_nil, ?_⟩
      rintro ⟨e, he, hspent⟩
      obtain rfl := Option.some.inj (he.symm.trans h.bossHere)
      rw [if_pos h.isBoss] at hspent
      exact absurd h.alive (not_lt.2 hspent)
    have hnothing : r.bossDamage [] = 0 := rfl
    rw [hnothing]
    exact iff_of_false (by omega) hapart
  | cons hit rest =>
    have hmem : hit ∈ r.hits := by
      rw [hhits]
      exact List.mem_cons_self
    obtain ⟨hi, hj, hover⟩ := h.meets_iff.1 (hloops.greedy.sound hit hmem).2
    have hdamage : 0 < r.hitDamage hit := by
      unfold hitDamage
      rw [hi, hj, h.shotHere, h.bossHere]
      simp only [h.isBoss, if_true]
      split <;> decide
    have hrest : 0 ≤ r.bossDamage rest := by
      refine List.sum_nonneg fun d hd => ?_
      obtain ⟨hit', -, rfl⟩ := List.mem_map.1 hd
      exact r.hitDamage_nonneg hit'
    have hsum : r.bossDamage (hit :: rest) = r.hitDamage hit + r.bossDamage rest := by
      rw [bossDamage, List.map_cons, List.sum_cons]
      rfl
    rw [hsum]
    exact iff_of_true (by omega) hover

end Room.Duel

/-- A box of `w` by `h` at the place of the one overlaps a box of `w'` by `h'` at the place of the
other. -/
def Entity.BoxesMeet (a b : Entity F) (w h w' h' : ℕ) : Prop :=
  Overlap a.x ((w : ℤ) : F) b.x ((w' : ℤ) : F) ∧ Overlap a.y ((h : ℤ) : F) b.y ((h' : ℤ) : F)

/-- The width and the height that the spawn site of a shot lists. -/
def listedSize (type : UInt16) : ℕ × ℕ := if type = 4 then (29, 30) else (10, 5)

/-- The boxes of a shot and the boss overlap, with the widths and heights that are listed. -/
def Entity.ListedMeet (shot boss : Entity F) : Prop :=
  shot.BoxesMeet boss (listedSize shot.type).1 (listedSize shot.type).2 296 88

/-- The listed sizes, taken the other way round. -/
def Entity.TransposedMeet (shot boss : Entity F) : Prop :=
  shot.BoxesMeet boss (listedSize shot.type).2 (listedSize shot.type).1 88 296

/-- The shot is in the core of the boss: the squares over their shorter sides overlap. -/
def Entity.InCore (shot boss : Entity F) : Prop :=
  shot.BoxesMeet boss (min (listedSize shot.type).1 (listedSize shot.type).2)
    (min (listedSize shot.type).1 (listedSize shot.type).2) 88 88

/-- A shot and the boss are stored with their widths and heights interchanged. -/
theorem overlaps_iff_transposed {shot boss : Entity F} (hshot : shot.IsShot) (hboss : boss.type = 10)
    (hsized : shot.Sized) (hsized' : boss.Sized) : shot.overlaps boss = true ↔ shot.TransposedMeet boss := by
  have hbossSize : boss.height = 296 ∧ boss.width = 88 := by
    rcases hsized'.cases with ⟨ht, -⟩ | ⟨ht, -⟩ | ⟨ht, -⟩ | ⟨ht, -⟩ | ⟨-, hsize⟩ | ⟨ht, -⟩
    all_goals first | exact hsize | exact absurd (ht.symm.trans hboss) (by decide)
  have hshotSize : shot.width = (listedSize shot.type).2 ∧ shot.height = (listedSize shot.type).1 := by
    rcases hsized.cases with ⟨ht, hh, hw⟩ | ⟨ht, hh, hw⟩ | ⟨ht, -⟩ | ⟨ht, -⟩ | ⟨ht, -⟩ | ⟨ht, -⟩
    · rw [ht, hh, hw]
      exact ⟨rfl, rfl⟩
    · rw [ht, hh, hw]
      exact ⟨rfl, rfl⟩
    all_goals
      rw [Entity.IsShot, ht] at hshot
      exact absurd hshot (by decide)
  rw [Entity.overlaps, checkCollision_iff, hbossSize.1, hbossSize.2, hshotSize.1, hshotSize.2]
  exact Iff.rfl

/-- **The core** is what the two ways to read the sizes have in common. -/
theorem core_iff [LawfulFloat F] (shot boss : Entity F) :
    shot.InCore boss ↔ shot.TransposedMeet boss ∧ shot.ListedMeet boss := by
  have hsize : (listedSize shot.type).1 ≤ 100 ∧ (listedSize shot.type).2 ≤ 100 := by
    unfold listedSize
    split <;> decide
  unfold Entity.InCore Entity.TransposedMeet Entity.ListedMeet Entity.BoxesMeet
  generalize (listedSize shot.type).1 = w at hsize ⊢
  generalize (listedSize shot.type).2 = h at hsize ⊢
  have hlonger : ∀ {m n : ℕ}, m ≤ n → n ≤ 1000 → ((m : ℤ) : F) = ((n : ℤ) : F) ∨ ((m : ℤ) : F) < ((n : ℤ) : F) := by
    intro m n hle hn
    rcases Nat.eq_or_lt_of_le hle with rfl | hlt
    · exact .inl rfl
    · exact .inr (natCast_lt hlt (by omega))
  have hboss := hlonger (m := 88) (n := 296) (by decide) (by decide)
  have hrefl := hlonger (m := 88) (n := 88) (by decide) (by decide)
  constructor
  · rintro ⟨hx, hy⟩
    have hw := hlonger (Nat.min_le_left w h) (by omega)
    have hh := hlonger (Nat.min_le_right w h) (by omega)
    exact ⟨⟨overlap_mono hx hh hrefl, overlap_mono hy hw hboss⟩, overlap_mono hx hw hboss, overlap_mono hy hh hrefl⟩
  · rintro ⟨⟨hxt, hyt⟩, hxl, hyl⟩
    -- the shorter side of the shot is one of the two
    rcases Nat.le_total w h with hle | hle
    · rw [Nat.min_eq_left hle]
      exact ⟨⟨hxt.1, hxl.2⟩, hyl.1, hyt.2⟩
    · rw [Nat.min_eq_right hle]
      exact ⟨⟨hxt.1, hxt.2⟩, hyl.1, hyl.2⟩

/-- **Hits on the boss.** A shot alone with the boss hits it exactly if the boxes with the listed
widths and heights overlap, if the shot is in the core of the boss, or where neither way to
read the sizes makes them overlap. -/
theorem bossHit_listed_iff [LawfulFloat F] {r : Room F} {i j : ℕ} {shot boss : Entity F} (h : r.Duel i j shot boss)
    (hshot : shot.Sized) (hboss : boss.Sized) :
    (r.HitsBoss ↔ shot.ListedMeet boss) ↔
      shot.InCore boss ∨ ¬shot.TransposedMeet boss ∧ ¬shot.ListedMeet boss := by
  rw [h.hitsBoss_iff, overlaps_iff_transposed h.isShot h.isBoss hshot hboss, core_iff]
  constructor
  · intro hagree
    by_cases hlisted : shot.ListedMeet boss
    · exact .inl ⟨hagree.2 hlisted, hlisted⟩
    · exact .inr ⟨fun htransposed => hlisted (hagree.1 htransposed), hlisted⟩
  · rintro (⟨htransposed, hlisted⟩ | ⟨htransposed, hlisted⟩)
    · exact iff_of_true htransposed hlisted
    · exact iff_of_false htransposed hlisted

/-- The boss at rest, and a shot 200 to the right of its left end. -/
def restingBoss : Entity ℚ := ⟨1, 10, 1500, 400, 0, 0, 296, 88, false⟩

def lateShot : Entity ℚ := ⟨2, 1, 1700, 450, 10, 0, 10, 5, false⟩

def bossDuel : Room ℚ :=
  ⟨⟨[], [lateShot, restingBoss], 3, 12, 0, 0, .playing⟩, { Boss.none with level := 1, hp := 1000 }, []⟩

theorem bossDuel_duel : bossDuel.Duel 0 1 lateShot restingBoss := by
  have hcases : ∀ (k : ℕ) e, bossDuel.game.entities[k]? = some e → (k = 0 ∧ e = lateShot) ∨ (k = 1 ∧ e = restingBoss) := by
    intro k e he
    match k with
    | 0 => exact .inl ⟨rfl, (Option.some.inj he).symm⟩
    | 1 => exact .inr ⟨rfl, (Option.some.inj he).symm⟩
    | k + 2 => cases he
  refine ⟨rfl, rfl, .inl rfl, rfl, ?_, ?_, by decide, by decide⟩
  · intro k e he hshot
    rcases hcases k e he with ⟨hk, -⟩ | ⟨-, rfl⟩
    · exact hk
    · exact absurd hshot (by decide)
  · intro k e he htarget
    rcases hcases k e he with ⟨-, rfl⟩ | ⟨hk, -⟩
    · exact absurd htarget (by decide)
    · exact hk

/-- The listed boxes overlap, but the shot flies through. -/
theorem not_bossHit_listed_late : ¬(bossDuel.HitsBoss ↔ lateShot.ListedMeet restingBoss) := by
  intro h
  have hlisted : lateShot.ListedMeet restingBoss := by
    refine ⟨⟨?_, ?_⟩, ?_, ?_⟩ <;> decide +kernel
  have hmiss : bossDuel.handleCollision.boss.hp = 1000 := by decide +kernel
  have hhit := h.2 hlisted
  rw [Room.HitsBoss, hmiss] at hhit
  exact absurd hhit (by decide)

theorem bossHit_listed_late : (bossDuel.HitsBoss ↔ lateShot.ListedMeet restingBoss) ↔
    lateShot.InCore restingBoss ∨ ¬lateShot.TransposedMeet restingBoss ∧ ¬lateShot.ListedMeet restingBoss :=
  bossHit_listed_iff bossDuel_duel ⟨_, .shot 1 0 0, rfl, rfl, rfl⟩ ⟨_, .boss 1, rfl, rfl, rfl⟩

end RType

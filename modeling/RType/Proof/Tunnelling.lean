import Mathlib.Tactic.NormNum
import RType.Lib.Boxes
import RType.Proof.Collisions
import RType.Proof.EntitySteps
import RType.Proof.Lingering

/-!
# No tunnelling

A shot and an enemy approach each other by less than the sum of their widths in an update.
Where they overlap, `handleCollision` flags one of them, and the next `updateEntities` erases it.

* `Room.handleCollision_flags`: of a shot and an enemy that overlap one is flagged.
* `Entity.Paced`: the speeds and the widths that the spawn sites give.
* `GameThreads.Passing`: what is known of a shot that has not passed the enemy, at each section
  of `update`.
* `no_tunnelling`: it never does.
-/

namespace RType

open Lts Boxes

variable {F : Type*}

/-! ## Of a pair that overlaps one is flagged -/

namespace Room

variable [FloatOps F] {r r' : Room F} {i j : ℕ} {a b : Entity F}

/-- One of the two entities has been flagged. -/
def OneFlagged (r : Room F) (i j : ℕ) : Prop :=
  ∃ e, (r.game.entities[i]? = some e ∨ r.game.entities[j]? = some e) ∧ e.isCollide = true

/-- No flag is taken back. -/
theorem OneFlagged.alters (h : r.OneFlagged i j) (halters : r.Alters r') : r'.OneFlagged i j := by
  obtain ⟨e, he | he, hflag⟩ := h
  · obtain ⟨e', he', ha⟩ := halters.getElem? he
    exact ⟨e', .inl he', ha.flag hflag⟩
  · obtain ⟨e', he', ha⟩ := halters.getElem? he
    exact ⟨e', .inr he', ha.flag hflag⟩

theorem collideProjectile_alters (r : Room F) (i j : ℕ) : r.Alters (r.collideProjectile i j) :=
  collideProjectile_rel Alters.refl (fun _ _ _ => Alters.trans) flag_alters (fun r j damage _ => hitBoss_alters r j damage) r
    i j

theorem collideProjectiles_alters (n : ℕ) (r : Room F) (i : ℕ) : r.Alters (collideProjectiles n r i) :=
  collideProjectiles_rel Alters.refl (fun _ _ _ => Alters.trans) flag_alters (fun r j damage _ => hitBoss_alters r j damage) n
    r i

/-- The turn of a shot and an enemy that overlap. -/
theorem collideProjectile_flags (ha : r.game.entities[i]? = some a) (hb : r.game.entities[j]? = some b)
    (htarget : b.IsTarget) (hover : a.overlaps b = true) : (r.collideProjectile i j).OneFlagged i j := by
  rcases r.collideProjectile_hit i j with ⟨hturn, -, hnot⟩ | ⟨projectile, enemy, hprojectile, -, -, -, -, -, -, hturn⟩
  · -- it has been one of them before
    rw [hturn]
    by_cases hflag : a.isCollide = true
    · exact ⟨a, .inl ha, hflag⟩
    · refine ⟨b, .inr hb, ?_⟩
      rw [Bool.not_eq_true] at hflag
      by_contra hfree
      rw [Bool.not_eq_true] at hfree
      exact hnot a b ha hb ⟨htarget, by rw [hflag, hfree]; rfl, hover⟩
  · have hshot : (r.flag i).OneFlagged i j := by
      obtain ⟨a', ha', -⟩ := (r.flag_alters i).getElem? ha
      obtain ⟨a₀, -, hflag⟩ := getElem?_flag ha'
      exact ⟨a', .inl ha', hflag.2 (.inr rfl)⟩
    rw [hturn]
    split
    · exact hshot.alters (hitBoss_alters _ _ _)
    · exact hshot.alters (flag_alters _ _)

/-- **Of a shot and an enemy that overlap, `handleCollision` leaves one flagged.** -/
theorem handleCollision_flags (ha : r.game.entities[i]? = some a) (hb : r.game.entities[j]? = some b)
    (hshot : a.IsShot) (htarget : b.IsTarget) (hover : a.overlaps b = true) : r.handleCollision.OneFlagged i j := by
  have hover' : ∀ {a' b' : Entity F}, a.Altered a' → b.Altered b' → a'.overlaps b' = true := by
    intro a' b' ha' hb'
    rw [← hover]
    simp only [Entity.overlaps, ha'.x, ha'.y, ha'.width, ha'.height, hb'.x, hb'.y, hb'.width, hb'.height]
  -- the loops up to the turn of the two
  obtain ⟨hi, -⟩ := List.getElem?_eq_some_iff.1 ha
  obtain ⟨hj, -⟩ := List.getElem?_eq_some_iff.1 hb
  obtain ⟨before, after, hrows⟩ := List.append_of_mem (List.mem_range.2 hi)
  obtain ⟨left, right, hrow⟩ := List.append_of_mem (List.mem_range.2 hj)
  have hrefl := Alters.refl (F := F)
  have htrans : ∀ r₁ r₂ r₃ : Room F, r₁.Alters r₂ → r₂.Alters r₃ → r₁.Alters r₃ := fun _ _ _ => Alters.trans
  have hturn : ∀ r₁ : Room F, r.Alters r₁ → (collideProjectiles r.game.entities.length r₁ i).OneFlagged i j := by
    intro r₁ h₁
    obtain ⟨a₁, ha₁, halt₁⟩ := h₁.getElem? ha
    have hshot₁ : ¬(a₁.type ≠ 1 ∧ a₁.type ≠ 4) := by
      rw [halt₁.type]
      rintro ⟨h1, h4⟩
      exact hshot.elim h1 h4
    rw [collideProjectiles, ha₁]
    simp only [if_neg hshot₁, hrow, List.foldl_append, List.foldl_cons]
    have h₂ := foldl_rel hrefl htrans (fun r j => r.collideProjectile_alters i j) left r₁
    obtain ⟨a₂, ha₂, halt₂⟩ := (h₁.trans h₂).getElem? ha
    obtain ⟨b₂, hb₂, haltb⟩ := (h₁.trans h₂).getElem? hb
    have htarget₂ : b₂.IsTarget := by
      rw [Entity.IsTarget, haltb.type]
      exact htarget
    exact (collideProjectile_flags ha₂ hb₂ htarget₂ (hover' halt₂ haltb)).alters
      (foldl_rel hrefl htrans (fun r j => r.collideProjectile_alters i j) right _)
  have hflagged : ((List.range r.game.entities.length).foldl (collideProjectiles r.game.entities.length) r).OneFlagged i j := by
    rw [hrows, List.foldl_append, List.foldl_cons]
    exact (hturn _ (foldl_rel hrefl htrans (collideProjectiles_alters _) before r)).alters
      (foldl_rel hrefl htrans (collideProjectiles_alters _) after _)
  exact hflagged.alters (collidePlayers_rel hrefl htrans flag_alters _ _ _)

end Room

/-! ## Speeds and widths -/

namespace Entity

variable [ExactOps F] {a b : Entity F}

/-- A shot is not too fast, and neither is what it may hit; none of them is too narrow. -/
structure Paced (e : Entity F) : Prop where
  shot : e.IsShot → e.velocityX ≤ 12 ∧ 5 ≤ e.width
  target : e.IsTarget → -8 ≤ e.velocityX ∧ 32 ≤ e.width

/-- The speeds and widths, by type. -/
theorem Newborn.speeds {e : Entity F} (h : e.Newborn) :
    (e.type = 1 ∧ e.velocityX = 10 ∧ e.width = 5) ∨ (e.type = 4 ∧ e.velocityX = 12 ∧ e.width = 30) ∨
    (e.type = 2 ∧ e.velocityX = -5 ∧ e.width = 32) ∨ (e.type = 3 ∧ e.velocityX = -8 ∧ e.width = 40) ∨
    (e.type = 10 ∧ e.velocityX = -2 ∧ e.width = 88) ∨ (e.type = 11 ∧ e.velocityX = -15 ∧ e.width = 30) := by
  cases h <;> norm_num

theorem Newborn.paced {e : Entity F} (h : e.Newborn) : e.Paced := by
  have hspeeds := h.speeds
  constructor
  · rintro (htype | htype)
    all_goals
      simp [htype] at hspeeds
      rw [hspeeds.1, hspeeds.2]
      norm_num
  · rintro (htype | htype | htype)
    all_goals
      simp [htype] at hspeeds
      rw [hspeeds.1, hspeeds.2]
      norm_num

theorem Paced.altered (h : a.Paced) (ha : a.Altered b) : b.Paced := by
  constructor
  · intro hshot
    rw [IsShot, ha.type] at hshot
    obtain ⟨hspeed, hwidth⟩ := h.shot hshot
    rw [ha.width]
    refine ⟨?_, hwidth⟩
    rcases ha.velocityX with hsame | ⟨hboss, -⟩
    · rwa [hsame]
    · exact absurd hboss (by rcases hshot with h | h <;> rw [h] <;> decide)
  · intro htarget
    rw [IsTarget, ha.type] at htarget
    obtain ⟨hspeed, hwidth⟩ := h.target htarget
    rw [ha.width]
    refine ⟨?_, hwidth⟩
    rcases ha.velocityX with hsame | ⟨-, hleft | hrest⟩
    · rwa [hsame]
    · rw [hleft]
      norm_num
    · rw [hrest]
      norm_num

/-- The first has not got past the second. -/
def NotPast (a b : Entity F) : Prop := a.x < b.x + (b.width : F)

/-- The first is wholly to the left of the second. -/
def LeftOf (a b : Entity F) : Prop := a.x + (a.width : F) ≤ b.x

/-- Their vertical ranges overlap. -/
def Level (a b : Entity F) : Prop := Overlap a.y (a.height : F) b.y (b.height : F)

/-- **A move does not take a shot past an enemy.** -/
theorem LeftOf.advance (h : a.LeftOf b) (ha : a.Paced) (hb : b.Paced) (hshot : a.IsShot) (htarget : b.IsTarget) :
    a.advance.NotPast b.advance := by
  obtain ⟨hfast, hwide⟩ := ha.shot hshot
  obtain ⟨hfast', hwide'⟩ := hb.target htarget
  have hwide₁ : (5 : F) ≤ (a.width : F) := by exact_mod_cast hwide
  have hwide₂ : (32 : F) ≤ (b.width : F) := by exact_mod_cast hwide'
  have hshort : a.velocityX - b.velocityX < (a.width : F) + (b.width : F) := by linarith
  exact lt_of_step h hshort

/-- Level with an enemy that it has not passed, a shot overlaps it or is to the left of it. -/
theorem NotPast.leftOf (h : a.NotPast b) (hlevel : a.Level b) (hapart : a.overlaps b ≠ true) : a.LeftOf b := by
  refine le_of_not_overlap (fun hover => hapart ?_) h
  rw [overlaps]
  unfold checkCollision
  simp only [Bool.and_eq_true, decide_eq_true_eq]
  exact ⟨⟨hover, hlevel.1⟩, hlevel.2⟩

theorem NotPast.altered {a' b' : Entity F} (h : a.NotPast b) (ha : a.Altered a') (hb : b.Altered b') : a'.NotPast b' := by
  rwa [NotPast, ha.x, hb.x, hb.width]

theorem LeftOf.altered {a' b' : Entity F} (h : a.LeftOf b) (ha : a.Altered a') (hb : b.Altered b') : a'.LeftOf b' := by
  rwa [LeftOf, ha.x, hb.x, ha.width]

end Entity

/-! ## The course of an update -/

variable [ExactOps F]

namespace LoopPc

variable {pc : LoopPc F} {a a' b b' : Entity F}

/-- What is known of a shot and an enemy where the loop stands: before the collisions that it has
not passed, and after them that it is to the left, if none of the two is flagged. -/
def Apart (a b : Entity F) : LoopPc F → Prop
  | handleCollision => a.NotPast b
  | _ => a.isCollide = true ∨ b.isCollide = true ∨ a.LeftOf b

theorem apart_iff (h : pc ≠ .handleCollision) :
    pc.Apart a b ↔ a.isCollide = true ∨ b.isCollide = true ∨ a.LeftOf b := by
  cases pc with
  | handleCollision => exact absurd rfl h
  | _ => exact Iff.rfl

theorem Apart.altered (h : pc.Apart a b) (ha : a.Altered a') (hb : b.Altered b') : pc.Apart a' b' := by
  by_cases hpc : pc = .handleCollision
  · subst hpc
    exact Entity.NotPast.altered h ha hb
  · rw [apart_iff hpc] at h ⊢
    exact h.imp ha.flag (.imp hb.flag fun hleft => hleft.altered ha hb)

/-- Only `updateEntities` comes before `handleCollision`. -/
theorem run_ne_handleCollision (env : UpdateEnv) (r : Room F) (h : pc ≠ .updateEntities) :
    (pc.run env r).2 ≠ .handleCollision := by
  cases pc with
  | updateEntities => exact absurd rfl h
  | idle =>
    simp only [run]
    split <;> simp
  | bossStage =>
    simp only [run]
    split <;> simp
  | bossAim =>
    simp only [run]
    split <;> simp
  | _ => simp [run]

end LoopPc

namespace GameThreads

variable {s s' t : GameThreads F} {l : Label F} {after : List (Label F)} {i i' j j' : ℕ}

/-- A shot and an enemy, at their places in the list, and not past each other. -/
def Passing (s : GameThreads F) (i j : ℕ) : Prop :=
  ∃ a b, s.room.game.entities[i]? = some a ∧ s.room.game.entities[j]? = some b ∧ a.IsShot ∧ b.IsTarget ∧
    s.loop.Apart a b

/-- The vertical ranges of the entities at two places overlap. -/
def LevelAt (s : GameThreads F) (i j : Option ℕ) : Prop :=
  ∃ i' j' a b, i = some i' ∧ j = some j' ∧ s.room.game.entities[i']? = some a ∧ s.room.game.entities[j']? = some b ∧
    a.Level b

theorem Passing.moves (h : s.Passing i j) (hpaced : ∀ e ∈ s.room.game.entities, e.Paced)
    (hmoves : s.MovesEntities l) (hstep : machine.step s l = some s') (hi : s.follow l i = some i')
    (hj : s.follow l j = some j') : s'.Passing i' j' := by
  obtain ⟨a, b, ha, hb, hshot, htarget, hapart⟩ := h
  have hone := (moves_eq (i := i) hmoves).1
  -- both have stayed in the list
  have hkept : ∀ {k k' e}, s.room.game.entities[k]? = some e → s.follow l k = some k' →
      e.isCollide = false ∧ s'.room.game.entities[k']? = some e.advance := by
    intro k k' e he hk
    rcases follow_cases hstep he with ⟨-, -, hnone⟩ | ⟨-, hstays, k₁, hk₁, he₁⟩ | ⟨hzero, -⟩
    · rw [hnone] at hk
      cases hk
    · obtain rfl := Option.some.inj (hk₁.symm.trans hk)
      exact ⟨(Bool.or_eq_false_iff.1 hstays).2, he₁⟩
    · omega
  obtain ⟨hfree, ha'⟩ := hkept ha hi
  obtain ⟨hfree', hb'⟩ := hkept hb hj
  have hleft : a.LeftOf b := by
    have hpc : s.loop ≠ .handleCollision := by
      rw [hmoves.1]
      simp
    rw [LoopPc.apart_iff hpc, hfree, hfree'] at hapart
    rcases hapart with hno | hno | hleft
    · cases hno
    · cases hno
    · exact hleft
  have hloop : s'.loop = .handleCollision := by
    rcases step_entities hstep with ⟨-, rfl⟩ | ⟨hno, -⟩
    · rfl
    · exact absurd hmoves hno
  refine ⟨a.advance, b.advance, ha', hb', hshot, htarget, ?_⟩
  rw [hloop]
  exact hleft.advance (hpaced a (List.mem_of_getElem? ha)) (hpaced b (List.mem_of_getElem? hb)) hshot htarget

theorem Passing.stays (h : s.Passing i j) (hlevel : s.loop = .handleCollision → s.LevelAt (some i) (some j))
    (hstays : ¬s.MovesEntities l) (hstep : machine.step s l = some s') : s'.Passing i j := by
  obtain ⟨a, b, ha, hb, hshot, htarget, hapart⟩ := h
  have hzero := (stays_eq (i := i) hstays).1
  have haltered : ∀ {k : ℕ} {e : Entity F}, s.room.game.entities[k]? = some e →
      ∃ e', s'.room.game.entities[k]? = some e' ∧ e.Altered e' := by
    intro k e he
    rcases follow_cases hstep he with ⟨hone, -⟩ | ⟨hone, -⟩ | ⟨-, -, he'⟩
    · omega
    · omega
    · exact he'
  obtain ⟨a', ha', halt⟩ := haltered ha
  obtain ⟨b', hb', halt'⟩ := haltered hb
  refine ⟨a', b', ha', hb', ?_, ?_, ?_⟩
  · rwa [Entity.IsShot, halt.type]
  · rwa [Entity.IsTarget, halt'.type]
  have hthere : s'.loop = s.loop → s'.loop.Apart a' b' := fun hloop => hloop ▸ hapart.altered halt halt'
  rcases step_cases hstep with ⟨c, -, -, rfl⟩ | ⟨memory, op, rest, -, -, rfl⟩ | ⟨env, rfl, rfl⟩ | ⟨f, hf, rfl⟩
  · exact hthere rfl
  · exact hthere rfl
  · have hpc : s.loop ≠ .updateEntities := fun hloop => hstays ⟨hloop, env, rfl⟩
    rw [LoopPc.apart_iff (LoopPc.run_ne_handleCollision env s.room hpc)]
    by_cases hcollides : s.loop = .handleCollision
    · rw [hcollides] at hapart ha' hb'
      obtain ⟨i₁, j₁, a₁, b₁, hi₁, hj₁, ha₁, hb₁, hlevel⟩ := hlevel hcollides
      obtain rfl := Option.some.inj hi₁
      obtain rfl := Option.some.inj hj₁
      obtain rfl := Option.some.inj (ha.symm.trans ha₁)
      obtain rfl := Option.some.inj (hb.symm.trans hb₁)
      by_cases hover : a.overlaps b = true
      · obtain ⟨e, he | he, hflag⟩ := Room.handleCollision_flags ha hb hshot htarget hover
        · obtain rfl := Option.some.inj (he.symm.trans ha')
          exact .inl hflag
        · obtain rfl := Option.some.inj (he.symm.trans hb')
          exact .inr (.inl hflag)
      · have hleft : a.LeftOf b := Entity.NotPast.leftOf hapart hlevel hover
        exact .inr (.inr (hleft.altered halt halt'))
    · rw [LoopPc.apart_iff hcollides] at hapart
      exact hapart.imp halt.flag (.imp halt'.flag fun hleft => hleft.altered halt halt')
  · exact hthere rfl

/-- Every entity keeps the pace it was made with. -/
theorem paced_run {boss : Boss F} {now : ℕ} {before : List (Label F)} (hs : machine.run (init boss now) before = some s) :
    ∀ e ∈ s.room.game.entities, e.Paced :=
  entities_rule (fun _ => Entity.Newborn.paced) (fun _ _ => Entity.Paced.altered)
    (fun _ hpaced _ => ⟨hpaced.shot, hpaced.target⟩) hs

/-- **A run in which the two are level** whenever the entities have been moved. -/
theorem Passing.run {boss : Boss F} {now : ℕ} {before : List (Label F)} (hs : machine.run (init boss now) before = some s)
    (h : s.Passing i j) (ht : machine.run s after = some t) (hi : s.place after i = some i') (hj : s.place after j = some j')
    (hlevel : ∀ pre u, pre <+: after → machine.run s pre = some u → u.loop = .handleCollision →
      u.LevelAt (s.place pre i) (s.place pre j)) : t.Passing i' j' := by
  induction after generalizing s before i j with
  | nil =>
    simp only [Machine.run_nil, Option.some.injEq] at ht
    obtain rfl : i = i' := Option.some.inj hi
    obtain rfl : j = j' := Option.some.inj hj
    exact ht ▸ h
  | cons l after ih =>
    obtain ⟨s', hstep, hrest⟩ := machine.run_cons_iff.1 ht
    rw [place_cons hstep] at hi hj
    obtain ⟨i₁, hi₁, hi⟩ := Option.bind_eq_some_iff.1 hi
    obtain ⟨j₁, hj₁, hj⟩ := Option.bind_eq_some_iff.1 hj
    have hnext : s'.Passing i₁ j₁ := by
      by_cases hmoves : s.MovesEntities l
      · exact h.moves (paced_run hs) hmoves hstep hi₁ hj₁
      · rw [(stays_eq hmoves).2] at hi₁ hj₁
        obtain rfl := Option.some.inj hi₁
        obtain rfl := Option.some.inj hj₁
        exact h.stays (hlevel [] s List.nil_prefix rfl) hmoves hstep
    refine ih (machine.run_snoc_iff.2 ⟨s, hs, hstep⟩) hnext hrest hi hj ?_
    intro pre u hpre hu hloop
    have hlevel' := hlevel (l :: pre) u (List.cons_prefix_cons.2 ⟨rfl, hpre⟩)
      (machine.run_cons_iff.2 ⟨s', hstep, hu⟩) hloop
    rwa [place_cons hstep, place_cons hstep, hi₁, hj₁] at hlevel'

/-- In the run of `after`, from one update to another, the shot at place `i` passes through the
enemy at place `j`. -/
def Tunnels (s : GameThreads F) (after : List (Label F)) (i j : ℕ) : Prop :=
  ∃ t i' j' a b a' b', machine.run s after = some t ∧ s.place after i = some i' ∧ s.place after j = some j' ∧
    s.loop = .handleCollision ∧ t.loop = .handleCollision ∧
    s.room.game.entities[i]? = some a ∧ s.room.game.entities[j]? = some b ∧
    t.room.game.entities[i']? = some a' ∧ t.room.game.entities[j']? = some b' ∧
    a.IsShot ∧ b.IsTarget ∧ a.LeftOf b ∧ b'.x + (b'.width : F) ≤ a'.x ∧
    ∀ pre u, pre <+: after → machine.run s pre = some u → u.loop = .handleCollision →
      u.LevelAt (s.place pre i) (s.place pre j)

/-- **No tunnelling**: in no run of a game does a shot pass through an enemy. -/
theorem no_tunnelling (boss : Boss F) (now : ℕ) (before : List (Label F)) (s : GameThreads F)
    (hs : machine.run (init boss now) before = some s) (after : List (Label F)) (i j : ℕ) : ¬s.Tunnels after i j := by
  rintro ⟨t, i', j', a, b, a', b', ht, hi, hj, hfirst, hlast, ha, hb, ha', hb', hshot, htarget, hleft, hright, hlevel⟩
  have hpaced := paced_run hs
  have hstart : s.Passing i j := by
    refine ⟨a, b, ha, hb, hshot, htarget, ?_⟩
    rw [hfirst]
    have hwide := ((hpaced a (List.mem_of_getElem? ha)).shot hshot).2
    have hwide' := ((hpaced b (List.mem_of_getElem? hb)).target htarget).2
    have hwide₁ : (5 : F) ≤ (a.width : F) := by exact_mod_cast hwide
    have hwide₂ : (32 : F) ≤ (b.width : F) := by exact_mod_cast hwide'
    unfold Entity.LeftOf at hleft
    change a.x < b.x + (b.width : F)
    linarith
  obtain ⟨a₁, b₁, ha₁, hb₁, -, -, hapart⟩ := hstart.run hs ht hi hj hlevel
  obtain rfl := Option.some.inj (ha'.symm.trans ha₁)
  obtain rfl := Option.some.inj (hb'.symm.trans hb₁)
  rw [hlast] at hapart
  exact absurd hright (not_le.2 hapart)

section Duel

open ServerManager (still)

/-- An enemy is made in the first update; then the player fires, and the second update moves
the two. -/
def duel : List (Label ℚ) :=
  [.join 1 [], .start 1] ++ List.replicate 9 (.loop due) ++
    .call (.handlePlayerInput ⟨1, 0, 16⟩) :: List.replicate 8 (.udp (Player.new 0 [])) ++ List.replicate 2 (.loop still)

/-- The shot and the enemy of the duel. -/
theorem no_tunnelling_duel : ∃ s, machine.run (init (Boss.none : Boss ℚ) 0) duel = some s ∧
    s.room.game.entities.map (·.type) = [2, 1] ∧ ∀ after, ¬s.Tunnels after 1 0 := by
  obtain ⟨s, hs, htypes⟩ : ∃ s, machine.run (init (Boss.none : Boss ℚ) 0) duel = some s ∧
      s.room.game.entities.map (·.type) = [2, 1] := by
    have hany : ((machine.run (init (Boss.none : Boss ℚ) 0) duel).any fun s =>
        decide (s.room.game.entities.map (·.type) = [2, 1])) = true := by decide +kernel
    obtain ⟨s, hs, htypes⟩ := (Option.any_eq_true _ _).1 hany
    exact ⟨s, hs, of_decide_eq_true htypes⟩
  exact ⟨s, hs, htypes, fun after => no_tunnelling Boss.none 0 duel s hs after 1 0⟩

end Duel

end GameThreads

end RType

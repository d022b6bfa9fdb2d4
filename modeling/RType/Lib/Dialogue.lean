import Mathlib.Logic.Relation
import RType.Lib.Machine

/-!
# Programs that talk to a world

A program asks for operations one at a time, and what it does next depends on the answers.
The world performs an operation, or lets it wait; between any two operations it moves by
itself. `Setting.Holds` is the weakest precondition of a program in such a world.

* `Setting.holds_bind`: one program after another.
* `Setting.holds_call`: one operation, from what the moves of the world do not disturb;
  `Setting.holds_of_kept`, any program, from what the operations do not disturb either.
* `Setting.inv_starts`: what each program keeps is kept over a run of programs, and what is
  known of each operation at its time is known in every state of the run. What is kept may
  speak of how the programs so far were started (`noteStart`); `Setting.inv_run` where it does
  not, `Setting.inv_world` where no program can end it.
-/

namespace Dialogue

open Lts

/-- A program that asks for operations `o` and gets answers of type `Res o`. -/
inductive Prog (Op : Type) (Res : Op → Type) (α : Type) : Type
  | ret (a : α)
  | op (o : Op) (k : Res o → Prog Op Res α)

section Programs

variable {Op : Type} {Res : Op → Type} {α β : Type}

/-- One program after another. -/
def Prog.bind : Prog Op Res α → (α → Prog Op Res β) → Prog Op Res β
  | .ret a, f => f a
  | .op o k, f => .op o fun r => (k r).bind f

instance : Monad (Prog Op Res) where
  pure := .ret
  bind := .bind

/-- One operation. -/
def Prog.call (o : Op) : Prog Op Res (Res o) := .op o .ret

end Programs

/-- `perform w o` is the answer to `o` and the world after it, or `none` where `o` waits;
`move w e` is what the world does by itself. -/
structure Setting (Op : Type) (Res : Op → Type) (W E : Type) where
  perform : W → (o : Op) → Option (Res o × W)
  move : W → E → Option W

/-- A program on its way in its world. -/
structure State (Op : Type) (Res : Op → Type) (σ W : Type) where
  prog : Prog Op Res σ
  world : W

/-- The next program starts, the next operation is performed, or the world moves. -/
inductive Label (X E : Type)
  | start (x : X)
  | act
  | move (e : E)

namespace Setting

variable {Op : Type} {Res : Op → Type} {W E X σ α β : Type} (S : Setting Op Res W E)

/-- Programs one after another: where one has ended with `s`, the next is `body x s`. -/
def machine (body : X → σ → Option (Prog Op Res σ)) : Machine (State Op Res σ W) (Label X E) where
  step
    | ⟨.ret s, w⟩, .start x => (body x s).map (⟨·, w⟩)
    | ⟨.op o k, w⟩, .act => (S.perform w o).map fun (r, w') => ⟨k r, w'⟩
    | ⟨p, w⟩, .move e => (S.move w e).map (⟨p, ·⟩)
    | _, _ => none

/-- The world gets from `w` to `w'` by itself. -/
def Evolves : W → W → Prop := Relation.ReflTransGen fun w w' => ∃ e, S.move w e = some w'

/-- The moves of the world do not disturb `J`. -/
def Stable (J : W → Prop) : Prop := ∀ w w', J w → S.Evolves w w' → J w'

/-- Where every operation is performed in a world that meets `C`: each is asked for in a
world that meets `G`, and a program that ends does so as `Q` says. -/
def Holds (C G : W → Op → Prop) : Prog Op Res α → (α → W → Prop) → W → Prop
  | .ret a, Q, w => Q a w
  | .op o k, Q, w => ∀ w', S.Evolves w w' → G w' o ∧
      (C w' o → ∀ r w'', S.perform w' o = some (r, w'') → Holds C G (k r) Q w'')

/-- The operation performed next is performed in a world that meets `C`. -/
def Meets (C : W → Op → Prop) : State Op Res σ W → Label X E → Prop
  | ⟨.op o _, w⟩, .act => C w o
  | _, _ => True

instance {C : W → Op → Prop} [∀ w o, Decidable (C w o)] :
    ∀ (s : State Op Res σ W) (l : Label X E), Decidable (Meets C s l)
  | ⟨.op o _, w⟩, .act => inferInstanceAs (Decidable (C w o))
  | ⟨.op _ _, _⟩, .start _ | ⟨.op _ _, _⟩, .move _ | ⟨.ret _, _⟩, _ => .isTrue trivial

variable {S} {C G : W → Op → Prop} {Q Q' : α → W → Prop} {J : W → Prop} {w w' : W}

theorem stable_of_move (h : ∀ w e w', J w → S.move w e = some w' → J w') : S.Stable J := by
  intro w w' hw hev
  induction hev with
  | refl => exact hw
  | tail _ hstep ih =>
    obtain ⟨e, he⟩ := hstep
    exact h _ e _ ih he

theorem Holds.mono {p : Prog Op Res α} (h : S.Holds C G p Q w) (hQ : ∀ a w, Q a w → Q' a w) :
    S.Holds C G p Q' w := by
  induction p generalizing w with
  | ret a => exact hQ a w h
  | op o k ih =>
    intro w' hev
    obtain ⟨hG, hk⟩ := h w' hev
    exact ⟨hG, fun hC r w'' hr => ih r (hk hC r w'' hr)⟩

theorem holds_bind {p : Prog Op Res α} {f : α → Prog Op Res β} {R : β → W → Prop} :
    S.Holds C G (p >>= f) R w ↔ S.Holds C G p (fun a w => S.Holds C G (f a) R w) w := by
  induction p generalizing w with
  | ret a => exact Iff.rfl
  | op o k ih =>
    refine forall₂_congr fun w' _ => and_congr_right fun _ => ?_
    exact forall_congr' fun _ => forall₃_congr fun r w'' _ => ih r

/-- **One operation**, where the moves of the world do not disturb what is known before it. -/
theorem holds_call {o : Op} {Q : Res o → W → Prop} (hJ : S.Stable J) (hw : J w) (hG : ∀ w, J w → G w o)
    (h : ∀ w r w', J w → C w o → S.perform w o = some (r, w') → Q r w') :
    S.Holds C G (Prog.call o) Q w := by
  intro w' hev
  have hw' : J w' := hJ w w' hw hev
  exact ⟨hG w' hw', fun hC r w'' hr => h w' r w'' hw' hC hr⟩

/-- **Any program** keeps what no operation and no move of the world ends. -/
theorem holds_of_kept (hJ : S.Stable J) (hperform : ∀ w o r w', J w → S.perform w o = some (r, w') → J w')
    (hG : ∀ w o, J w → G w o) (p : Prog Op Res α) (hw : J w) : S.Holds C G p (fun _ => J) w := by
  induction p generalizing w with
  | ret a => exact hw
  | op o k ih =>
    intro w' hev
    have hw' : J w' := hJ w w' hw hev
    exact ⟨hG w' o hw', fun _ r w'' hr => ih r (hperform w' o r w'' hw' hr)⟩

theorem Holds.evolve {p : Prog Op Res α} (hQ : ∀ a, S.Stable (Q a)) (h : S.Holds C G p Q w)
    (hev : S.Evolves w w') : S.Holds C G p Q w' := by
  cases p with
  | ret a => exact hQ a w w' h hev
  | op o k =>
    intro w'' hev'
    exact h w'' (hev.trans hev')

/-- What an observer makes of a step who takes note of the starts of programs alone: `f g x s w`
is what it makes of the start of `body x s` in `w`. -/
def noteStart {γ : Type} (f : γ → X → σ → W → γ) (g : γ) : State Op Res σ W → Label X E → γ
  | ⟨.ret s, w⟩, .start x => f g x s w
  | _, _ => g

section Runs

variable {γ : Type} {f : γ → X → σ → W → γ} {Q : γ → σ → W → Prop} {body : X → σ → Option (Prog Op Res σ)}

theorem inv_step (hQ : ∀ g a, S.Stable (Q g a))
    (hbody : ∀ g x s p w, Q g s w → body x s = some p → S.Holds C G p (Q (f g x s w)) w)
    (g : γ) (s : State Op Res σ W) (l : Label X E) (s' : State Op Res σ W) (hs : S.Holds C G s.prog (Q g) s.world)
    (hC : Meets C s l) (h : (S.machine body).step s l = some s') :
    S.Holds C G s'.prog (Q (noteStart f g s l)) s'.world := by
  obtain ⟨p, w⟩ := s
  cases l with
  | start x =>
    cases p with
    | ret a =>
      obtain ⟨p', hp', rfl⟩ := Option.map_eq_some_iff.1 h
      exact hbody g x a p' w hs hp'
    | op o k => exact absurd h (by rintro ⟨⟩)
  | act =>
    cases p with
    | ret a => exact absurd h (by rintro ⟨⟩)
    | op o k =>
      obtain ⟨⟨r, w'⟩, hr, rfl⟩ := Option.map_eq_some_iff.1 h
      exact (hs w .refl).2 hC r w' hr
  | move e =>
    have hmove : (S.move w e).map (State.mk p) = some s' := by cases p <;> exact h
    have hnote : noteStart f g ⟨p, w⟩ (.move e : Label X E) = g := by cases p <;> rfl
    obtain ⟨w', hw', rfl⟩ := Option.map_eq_some_iff.1 hmove
    rw [hnote]
    exact Holds.evolve (hQ g) hs (.single ⟨e, hw'⟩)

/-- **Run rule** for what no operation and no move of the world ends, whatever the programs are. -/
theorem inv_world {body : X → σ → Option (Prog Op Res σ)} (hJ : S.Stable J)
    (hperform : ∀ w o r w', J w → S.perform w o = some (r, w') → J w') {labels : List (Label X E)}
    {s t : State Op Res σ W} (hs : J s.world) (ht : (S.machine body).run s labels = some t) : J t.world := by
  refine Machine.inv_run (I := fun s : State Op Res σ W => J s.world) ?_ labels s t hs ht
  rintro ⟨p, w⟩ l s' hw hstep
  cases l with
  | start x =>
    cases p with
    | ret a =>
      obtain ⟨p', -, rfl⟩ := Option.map_eq_some_iff.1 hstep
      exact hw
    | op o k => cases hstep
  | act =>
    cases p with
    | ret a => cases hstep
    | op o k =>
      obtain ⟨⟨r, w'⟩, hr, rfl⟩ := Option.map_eq_some_iff.1 hstep
      exact hperform w o r w' hw hr
  | move e =>
    have hmove : (S.move w e).map (State.mk p) = some s' := by cases p <;> exact hstep
    obtain ⟨w', hw', rfl⟩ := Option.map_eq_some_iff.1 hmove
    exact hJ w w' hw (.single ⟨e, hw'⟩)

/-- **Run rule** with an observer of the starts. -/
theorem inv_starts (hQ : ∀ g a, S.Stable (Q g a))
    (hbody : ∀ g x s p w, Q g s w → body x s = some p → S.Holds C G p (Q (f g x s w)) w)
    {labels : List (Label X E)} {g : γ} {s t : State Op Res σ W} (hs : S.Holds C G s.prog (Q g) s.world)
    (hC : (S.machine body).Along (Meets C) s labels) (ht : (S.machine body).run s labels = some t) :
    (∀ a, t.prog = .ret a → Q ((S.machine body).observe (fun g s l _ => noteStart f g s l) g s labels) a t.world) ∧
      ∀ o k, t.prog = .op o k → G t.world o := by
  have hholds := Machine.inv_observe_along (J := fun g (s : State Op Res σ W) => S.Holds C G s.prog (Q g) s.world)
    (f := fun g s l _ => noteStart f g s l) (inv_step hQ hbody) labels g s t hs hC ht
  refine ⟨fun a ha => ?_, fun o k ho => ?_⟩
  · rw [ha] at hholds
    exact hholds
  · rw [ho] at hholds
    exact (hholds t.world .refl).1

end Runs

/-- **Run rule.** -/
theorem inv_run {Q : σ → W → Prop} {body : X → σ → Option (Prog Op Res σ)} (hQ : ∀ a, S.Stable (Q a))
    (hbody : ∀ x s p w, Q s w → body x s = some p → S.Holds C G p Q w)
    {labels : List (Label X E)} {s t : State Op Res σ W} (hs : S.Holds C G s.prog Q s.world)
    (hC : (S.machine body).Along (Meets C) s labels) (ht : (S.machine body).run s labels = some t) :
    (∀ a, t.prog = .ret a → Q a t.world) ∧ ∀ o k, t.prog = .op o k → G t.world o :=
  -- nothing is noted down
  inv_starts (γ := Unit) (f := fun _ _ _ _ => ()) (g := ()) (fun _ => hQ) (fun _ => hbody) hs hC ht

end Setting

end Dialogue

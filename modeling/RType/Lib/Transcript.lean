import RType.Lib.Dialogue

/-!
# Programs that are answered anyhow

Nothing is known of the world of a program: any operation may get any answer. What can be
said of the program then is said of its transcript, the operations so far with their answers.
A protocol is a machine that reads transcripts: it says which operation may come in which
phase, and what phase an answer leads to.

* `Follows`: the weakest precondition of a program on phases; `follows_bind` for one program
  after another.
* `Prog.embed`: a program over some of the operations of another.
* `speaking_run`: the protocol reads the transcript of every run of programs that follow it.
-/

namespace Dialogue

open Lts

/-- An operation with its answer. -/
abbrev Done (Op : Type) (Res : Op → Type) := (o : Op) × Res o

/-- A program on its way, and what was done so far. -/
structure Spoken (Op : Type) (Res : Op → Type) (σ : Type) where
  prog : Prog Op Res σ
  log : List (Done Op Res)

/-- The next program starts, or the next operation is answered: `answer` says how any would be. -/
inductive Turn (X Op : Type) (Res : Op → Type)
  | start (x : X)
  | act (answer : (o : Op) → Res o)

variable {Op Op' : Type} {Res : Op → Type} {Res' : Op' → Type} {X σ Φ α β : Type}

/-- Programs one after another, answered anyhow: where one has ended with `s`, the next is
`body x s`. -/
def speaking (body : X → σ → Option (Prog Op Res σ)) : Machine (Spoken Op Res σ) (Turn X Op Res) where
  step
    | ⟨.ret s, log⟩, .start x => (body x s).map (⟨·, log⟩)
    | ⟨.op o k, log⟩, .act answer => some ⟨k (answer o), log ++ [⟨o, answer o⟩]⟩
    | _, _ => none

/-- From a phase of `M` on, every operation may come when it is asked for, and a program that
ends does so as `Q` says. -/
def Follows (M : Machine Φ (Done Op Res)) : Prog Op Res α → (α → Φ → Prop) → Φ → Prop
  | .ret a, Q, φ => Q a φ
  | .op o k, Q, φ => ∀ r, ∃ φ', M.step φ ⟨o, r⟩ = some φ' ∧ Follows M (k r) Q φ'

variable {M : Machine Φ (Done Op Res)} {φ : Φ} {Q Q' : α → Φ → Prop}

theorem Follows.mono {p : Prog Op Res α} (h : Follows M p Q φ) (hQ : ∀ a φ, Q a φ → Q' a φ) : Follows M p Q' φ := by
  induction p generalizing φ with
  | ret a => exact hQ a φ h
  | op o k ih =>
    intro r
    obtain ⟨φ', hstep, hk⟩ := h r
    exact ⟨φ', hstep, ih r hk⟩

theorem follows_bind {p : Prog Op Res α} {f : α → Prog Op Res β} {Q : β → Φ → Prop} :
    Follows M (p >>= f) Q φ ↔ Follows M p (fun a φ => Follows M (f a) Q φ) φ := by
  induction p generalizing φ with
  | ret a => exact Iff.rfl
  | op o k ih => exact forall_congr' fun r => exists_congr fun _ => and_congr_right fun _ => ih r

/-- **One operation.** -/
theorem follows_call {o : Op} {Q : Res o → Φ → Prop} (h : ∀ r, ∃ φ', M.step φ ⟨o, r⟩ = some φ' ∧ Q r φ') :
    Follows M (Prog.call o) Q φ := h

/-! ## Programs over some of the operations -/

/-- A program over some of the operations of another. -/
def Prog.embed (f : Op → Op') (back : ∀ o, Res' (f o) → Res o) : Prog Op Res α → Prog Op' Res' α
  | .ret a => .ret a
  | .op o k => .op (f o) fun r => (k (back o r)).embed f back

theorem embed_bind {f : Op → Op'} {back : ∀ o, Res' (f o) → Res o} (p : Prog Op Res α) (q : α → Prog Op Res β) :
    (p >>= q).embed f back = p.embed f back >>= fun a => (q a).embed f back := by
  induction p with
  | ret a => rfl
  | op o k ih => exact congrArg (Prog.op (f o)) (funext fun r => ih (back o r))

/-! ## Runs -/

/-- **Run rule.** -/
theorem speaking_run {body : X → σ → Option (Prog Op Res σ)} {Q : σ → Φ → Prop}
    (hbody : ∀ x s p φ, Q s φ → body x s = some p → Follows M p Q φ) {turns : List (Turn X Op Res)} {s₀ : σ}
    {φ₀ : Φ} {t : Spoken Op Res σ} (hs : Q s₀ φ₀) (hr : (speaking body).run ⟨.ret s₀, []⟩ turns = some t) :
    ∃ φ, M.run φ₀ t.log = some φ ∧ Follows M t.prog Q φ := by
  have hstart : ∃ φ, M.run φ₀ [] = some φ ∧ Follows M (.ret s₀) Q φ := ⟨φ₀, rfl, hs⟩
  refine Machine.inv_run (M := speaking body) (I := fun t => ∃ φ, M.run φ₀ t.log = some φ ∧ Follows M t.prog Q φ)
    ?_ turns _ t hstart hr
  rintro ⟨p, log⟩ l s' ⟨φ, hlog, hp⟩ hstep
  cases l with
  | start x =>
    cases p with
    | ret a =>
      obtain ⟨p', hp', rfl⟩ := Option.map_eq_some_iff.1 hstep
      exact ⟨φ, hlog, hbody x a p' φ hp hp'⟩
    | op o k => cases hstep
  | act answer =>
    cases p with
    | ret a => cases hstep
    | op o k =>
      obtain rfl := Option.some.inj hstep
      obtain ⟨φ', hmove, hk⟩ := hp (answer o)
      exact ⟨φ', (Machine.run_snoc_iff M).2 ⟨φ, hlog, hmove⟩, hk⟩

end Dialogue

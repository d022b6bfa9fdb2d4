import Mathlib.Logic.Function.Basic
import Mathlib.Data.List.Basic

/-!
# Subscribers and what is published to them

Messages are published to all who are subscribed, each at an address of its own. The first
address of a subscriber is kept until it is dismissed, maybe with a last message.

* `run_append`, `publish_publish`: how acts compose.
* `run_subscribed`: **while a subscriber is not dismissed, it gets what is published, in order,
  at one address.**
-/

namespace PubSub

variable {D A M : Type*}

/-- Where each subscriber is reached, and what has been sent to each, oldest first. -/
@[ext] structure State (D A M : Type*) where
  address : D → Option A
  mail : D → List (A × M)

/-- What can be done. -/
inductive Act (D A M : Type*)
  | publish (ms : List M)
  | subscribe (d : D) (a : A)
  | dismiss (d : D) (last : List M)

/-- The messages of an act that are for all. -/
def Act.published : Act D A M → List M
  | publish ms => ms
  | subscribe _ _ | dismiss _ _ => []

/-- The subscriber that an act dismisses. -/
def Act.dismissed : Act D A M → Option D
  | dismiss d _ => some d
  | publish _ | subscribe _ _ => none

/-- Messages as they are sent to an address, if it is known. -/
def letters (address : Option A) (ms : List M) : List (A × M) :=
  match address with
  | some a => ms.map (a, ·)
  | none => []

theorem letters_append (address : Option A) (ms ms' : List M) :
    letters address (ms ++ ms') = letters address ms ++ letters address ms' := by
  cases address with
  | none => rfl
  | some a => exact List.map_append

@[simp] theorem letters_nil (address : Option A) : letters address ([] : List M) = [] := by
  cases address <;> rfl

namespace State

variable [DecidableEq D]

/-- The state after an act. -/
def step (s : State D A M) : Act D A M → State D A M
  | .publish ms => { s with mail := fun d => s.mail d ++ letters (s.address d) ms }
  | .subscribe d a => { s with address := Function.update s.address d (some ((s.address d).getD a)) }
  | .dismiss d last =>
    { address := Function.update s.address d none
      mail := Function.update s.mail d (s.mail d ++ letters (s.address d) last) }

/-- The state after several acts. -/
def run (s : State D A M) (acts : List (Act D A M)) : State D A M := acts.foldl step s

variable {s : State D A M}

@[simp] theorem run_nil : s.run [] = s := rfl

theorem run_append (acts acts' : List (Act D A M)) : s.run (acts ++ acts') = (s.run acts).run acts' := List.foldl_append

theorem publish_nil : s.step (.publish []) = s := by
  ext d x
  · rfl
  · simp only [step, letters_nil, List.append_nil]

theorem publish_publish (ms ms' : List M) : (s.step (.publish ms)).step (.publish ms') = s.step (.publish (ms ++ ms')) := by
  ext d x
  · rfl
  · simp only [step, letters_append, List.append_assoc]

/-- What an act does to a subscriber that it does not dismiss. -/
theorem step_subscribed {act : Act D A M} {d : D} {a : A} (hd : s.address d = some a) (hstays : act.dismissed ≠ some d) :
    (s.step act).address d = some a ∧ (s.step act).mail d = s.mail d ++ act.published.map (a, ·) := by
  cases act with
  | publish ms =>
    refine ⟨hd, ?_⟩
    simp only [step, hd]
    rfl
  | subscribe d' a' =>
    refine ⟨?_, (List.append_nil _).symm⟩
    -- the first address is kept
    by_cases hsame : d = d'
    · subst hsame
      simp only [step, Function.update_self, hd, Option.getD_some]
    · simp only [step, Function.update_of_ne hsame, hd]
  | dismiss d' last =>
    have hne : d ≠ d' := fun he => hstays (congrArg some he.symm)
    refine ⟨?_, ?_⟩
    · simp only [step, Function.update_of_ne hne, hd]
    · simp only [step, Function.update_of_ne hne, Act.published, List.map_nil, List.append_nil]

/-- **While a subscriber is not dismissed, it gets what is published, in order, at one address.** -/
theorem run_subscribed {acts : List (Act D A M)} {d : D} {a : A} (hd : s.address d = some a)
    (hstays : ∀ act ∈ acts, act.dismissed ≠ some d) :
    (s.run acts).address d = some a ∧ (s.run acts).mail d = s.mail d ++ (acts.flatMap Act.published).map (a, ·) := by
  induction acts generalizing s with
  | nil => exact ⟨hd, (List.append_nil _).symm⟩
  | cons act acts ih =>
    obtain ⟨haddress, hmail⟩ := step_subscribed hd (hstays act List.mem_cons_self)
    obtain ⟨haddress', hmail'⟩ := ih haddress fun act' hact' => hstays act' (List.mem_cons_of_mem act hact')
    refine ⟨haddress', ?_⟩
    rw [List.flatMap_cons, List.map_append, ← List.append_assoc, ← hmail]
    exact hmail'

end State

end PubSub

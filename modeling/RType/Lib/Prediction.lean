import Mathlib.Algebra.BigOperators.Group.List.Basic
import Mathlib.Algebra.Group.Basic
import Mathlib.Order.Lattice
import RType.Lib.Machine
import RType.Lib.Window

/-!
# Client-side prediction

A client moves an object by commands that it applies at once and sends over a channel
without loss. The server applies them in the same order and now and then sends back a
snapshot: the object's position, and the number of the last command it has applied. Snapshots
may get lost. On a snapshot the client drops the commands it acknowledges and applies
the others to the position it holds.

Positions are in any commutative group.

* `Sound`: the invariant. The client keeps the applied commands that no snapshot has
  acknowledged to it yet, and after them those still on their way.
* `sound_step`, `predicts`: the client's position is the server's, plus the commands on
  their way.
-/

namespace Prediction

open Lts

/-- A command: its number, how it moves the object, and whether the client keeps it. A
command that is not kept does not move. -/
structure Cmd (G : Type*) [Zero G] where
  tick : ℕ
  move : G
  kept : Bool
  idle : kept = false → move = 0

/-- The client and the server, with what is on its way between them. A snapshot is the
number it acknowledges and a position. -/
structure State (G : Type*) [Zero G] where
  tick : ℕ
  pending : List (Cmd G)
  shown : Option G
  commands : List (Cmd G)
  ack : ℕ
  pos : G
  snapshots : List (ℕ × G)

/-- What can happen next. -/
inductive Label (G : Type*) [Zero G]
  | send (move : G) (kept : Bool) (idle : kept = false → move = 0)
  | process
  | snapshot
  | deliver
  | lose

variable {G : Type*} [AddCommGroup G]

/-- Where commands move the object in all. -/
def moved (cs : List (Cmd G)) : G := (cs.map (·.move)).sum

/-- One step. -/
def step (s : State G) : Label G → Option (State G)
  | .send move kept idle =>
    let c : Cmd G := ⟨s.tick, move, kept, idle⟩
    some { s with
      tick := s.tick + 1
      pending := if kept then s.pending ++ [c] else s.pending
      shown := s.shown.map (· + move)
      commands := s.commands ++ [c] }
  | .process =>
    match s.commands with
    | c :: rest => some { s with commands := rest, ack := max s.ack c.tick, pos := s.pos + c.move }
    | [] => none
  | .snapshot => some { s with snapshots := s.snapshots ++ [(s.ack, s.pos)] }
  | .deliver =>
    match s.snapshots with
    | (ack, pos) :: rest =>
      let pending := s.pending.dropWhile fun c => c.tick ≤ ack
      some { s with pending, shown := some (pos + moved pending), snapshots := rest }
    | [] => none
  | .lose =>
    match s.snapshots with
    | _ :: rest => some { s with snapshots := rest }
    | [] => none

/-- Client, server and channels as a machine. -/
def machine : Machine (State G) (Label G) := ⟨step⟩

/-! ## Lists of commands -/

@[simp] theorem moved_nil : moved ([] : List (Cmd G)) = 0 := rfl

@[simp] theorem moved_cons (c : Cmd G) (cs : List (Cmd G)) : moved (c :: cs) = c.move + moved cs := by
  simp only [moved, List.map_cons, List.sum_cons]

@[simp] theorem moved_append (cs ds : List (Cmd G)) : moved (cs ++ ds) = moved cs + moved ds := by
  simp only [moved, List.map_append, List.sum_append]

/-- Commands that are not kept do not move. -/
theorem moved_filter_kept (cs : List (Cmd G)) : moved (cs.filter (·.kept)) = moved cs := by
  induction cs with
  | nil => rfl
  | cons c cs ih =>
    cases hk : c.kept with
    | true => rw [List.filter_cons_of_pos hk, moved_cons, moved_cons, ih]
    | false =>
      have h0 : c.move = 0 := c.idle hk
      rw [List.filter_cons_of_neg (by simp [hk]), moved_cons, ih, h0, zero_add]

/-- On commands in order, dropping the acknowledged ones keeps those with a greater number. -/
theorem dropWhile_eq_filter {cs : List (Cmd G)} (h : cs.Pairwise fun c d => c.tick < d.tick) (ack : ℕ) :
    cs.dropWhile (fun c => c.tick ≤ ack) = cs.filter fun c => ack < c.tick := by
  have hsorted : cs.Pairwise fun c d => decide (d.tick ≤ ack) = true → decide (c.tick ≤ ack) = true := by
    refine h.imp fun {c d} hlt hd => ?_
    simp only [decide_eq_true_eq] at hd ⊢
    omega
  rw [Sliding.dropWhile_eq_filter hsorted]
  refine List.filter_congr fun c _ => ?_
  rw [← decide_not, decide_eq_decide]
  exact Nat.not_le

/-! ## The invariant -/

/-- The kept commands a snapshot does not acknowledge. -/
def unacked (ack : ℕ) (cs : List (Cmd G)) : List (Cmd G) := cs.filter fun c => ack < c.tick

/-- `applied` are the commands the client keeps that the server has applied. -/
structure Sound (s : State G) (applied : List (Cmd G)) : Prop where
  pending : s.pending = applied ++ s.commands.filter (·.kept)
  sorted : applied.Pairwise fun c d => c.tick < d.tick
  sent : s.commands.Pairwise fun c d => c.tick < d.tick
  next : ∀ c ∈ s.commands, c.tick < s.tick
  acked : ∀ c ∈ applied, c.tick ≤ s.ack
  ahead : ∀ c ∈ s.commands, c.kept = true → s.ack < c.tick
  current : s.ack < s.tick
  order : s.snapshots.Pairwise fun a b => a.1 ≤ b.1
  past : ∀ a ∈ s.snapshots, a.1 ≤ s.ack
  holds : ∀ a ∈ s.snapshots, a.2 + moved (unacked a.1 applied) = s.pos
  shown : ∀ q, s.shown = some q → q = s.pos + moved s.commands

variable {s s' : State G} {applied : List (Cmd G)}

/-- What the client keeps is in order. -/
theorem Sound.pending_sorted (h : Sound s applied) : s.pending.Pairwise fun c d => c.tick < d.tick := by
  rw [h.pending, List.pairwise_append]
  refine ⟨h.sorted, h.sent.filter _, ?_⟩
  intro c hc d hd
  obtain ⟨hd, hk⟩ := List.mem_filter.1 hd
  have h1 := h.acked c hc
  have h2 := h.ahead d hd hk
  omega

/-- A snapshot acknowledges none of the commands on their way. -/
theorem Sound.unacked_pending (h : Sound s applied) {ack : ℕ} (hle : ack ≤ s.ack) :
    unacked ack s.pending = unacked ack applied ++ s.commands.filter (·.kept) := by
  rw [unacked, h.pending, List.filter_append, unacked]
  congr 1
  refine List.filter_eq_self.2 fun d hd => ?_
  obtain ⟨hd, hk⟩ := List.mem_filter.1 hd
  have := h.ahead d hd hk
  simp only [decide_eq_true_eq]
  omega

theorem Sound.send (h : Sound s applied) (move : G) (kept : Bool) (idle : kept = false → move = 0)
    (hs : machine.step s (.send move kept idle) = some s') : Sound s' applied := by
  obtain rfl := Option.some.inj hs
  refine { h with pending := ?_, sent := ?_, next := ?_, ahead := ?_, current := ?_, shown := ?_ }
  · cases kept with
    | true => simp [h.pending]
    | false => simp [h.pending]
  · rw [List.pairwise_append]
    refine ⟨h.sent, List.pairwise_singleton _ _, ?_⟩
    intro c hc d hd
    rw [List.mem_singleton.1 hd]
    exact h.next c hc
  · intro c hc
    rcases List.mem_append.1 hc with hc | hc
    · exact (h.next c hc).trans (Nat.lt_succ_self _)
    · rw [List.mem_singleton.1 hc]
      exact Nat.lt_succ_self _
  · intro c hc hk
    rcases List.mem_append.1 hc with hc | hc
    · exact h.ahead c hc hk
    · rw [List.mem_singleton.1 hc]
      exact h.current
  · exact h.current.trans (Nat.lt_succ_self _)
  · intro q hq
    obtain ⟨q', hq', rfl⟩ := Option.map_eq_some_iff.1 hq
    rw [h.shown q' hq', moved_append, moved_cons, moved_nil, add_zero, add_assoc]

/-- The server applies the next command: it joins the applied ones, if it is kept. -/
theorem Sound.process (h : Sound s applied) (hs : machine.step s .process = some s') :
    ∃ applied', Sound s' applied' := by
  simp only [machine, step] at hs
  split at hs
  swap
  · cases hs
  rename_i c rest hc
  obtain rfl := Option.some.inj hs
  have hsent := h.sent
  rw [hc] at hsent
  obtain ⟨hfirst, hrest⟩ := List.pairwise_cons.1 hsent
  have hmem : ∀ d ∈ rest, d ∈ s.commands := fun d hd => hc ▸ List.mem_cons_of_mem c hd
  -- ticks rise along the commands, so the acknowledgement stays behind what is to come
  have hcur : max s.ack c.tick < s.tick := max_lt h.current (h.next c (hc ▸ List.mem_cons_self))
  have hahead : ∀ d ∈ rest, d.kept = true → max s.ack c.tick < d.tick := fun d hd hk =>
    max_lt (h.ahead d (hmem d hd) hk) (hfirst d hd)
  have hpast : ∀ a ∈ s.snapshots, a.1 ≤ max s.ack c.tick := fun a ha => (h.past a ha).trans (le_max_left _ _)
  have hshown : ∀ q, s.shown = some q → q = s.pos + c.move + moved rest := fun q hq => by
    rw [h.shown q hq, hc, moved_cons, add_assoc]
  have hpending := h.pending
  rw [hc] at hpending
  cases hk : c.kept with
  | false =>
    rw [List.filter_cons_of_neg (by simp [hk])] at hpending
    refine ⟨applied, hpending, h.sorted, hrest, fun d hd => h.next d (hmem d hd), ?_, hahead, hcur, h.order, hpast,
      ?_, hshown⟩
    · exact fun d hd => (h.acked d hd).trans (le_max_left _ _)
    · intro a ha
      rw [h.holds a ha, c.idle hk, add_zero]
  | true =>
    have hlt : s.ack < c.tick := h.ahead c (hc ▸ List.mem_cons_self) hk
    rw [List.filter_cons_of_pos hk] at hpending
    refine ⟨applied ++ [c], ?_, ?_, hrest, fun d hd => h.next d (hmem d hd), ?_, hahead, hcur, h.order, hpast, ?_,
      hshown⟩
    · rw [hpending, List.append_assoc, List.singleton_append]
    · rw [List.pairwise_append]
      refine ⟨h.sorted, List.pairwise_singleton _ _, ?_⟩
      intro d hd d' hd'
      rw [List.mem_singleton.1 hd']
      exact (h.acked d hd).trans_lt hlt
    · intro d hd
      rcases List.mem_append.1 hd with hd | hd
      · exact (h.acked d hd).trans (le_max_left _ _)
      · rw [List.mem_singleton.1 hd]
        exact le_max_right _ _
    · intro a ha
      have hnew : unacked a.1 (applied ++ [c]) = unacked a.1 applied ++ [c] := by
        have : a.1 < c.tick := (h.past a ha).trans_lt hlt
        simp [unacked, List.filter_append, this]
      rw [hnew, moved_append, moved_cons, moved_nil, add_zero, ← add_assoc, h.holds a ha]

theorem Sound.snapshot (h : Sound s applied) (hs : machine.step s .snapshot = some s') : Sound s' applied := by
  obtain rfl := Option.some.inj hs
  have hcases : ∀ a ∈ s.snapshots ++ [(s.ack, s.pos)], a ∈ s.snapshots ∨ a = (s.ack, s.pos) := by
    intro a ha
    exact (List.mem_append.1 ha).imp_right List.mem_singleton.1
  refine { h with order := ?_, past := ?_, holds := ?_ }
  · rw [List.pairwise_append]
    refine ⟨h.order, List.pairwise_singleton _ _, ?_⟩
    intro a ha b hb
    rw [List.mem_singleton.1 hb]
    exact h.past a ha
  · intro a ha
    rcases hcases a ha with ha | rfl
    · exact h.past a ha
    · exact le_rfl
  · intro a ha
    rcases hcases a ha with ha | rfl
    · exact h.holds a ha
    · have hnil : unacked s.ack applied = [] := List.filter_eq_nil_iff.2 fun c hc => by
        simpa using h.acked c hc
      rw [hnil, moved_nil, add_zero]

/-- A snapshot arrives: the client is where the server is, up to the commands on their way. -/
theorem Sound.deliver (h : Sound s applied) (hs : machine.step s .deliver = some s') :
    ∃ applied', Sound s' applied' := by
  simp only [machine, step] at hs
  split at hs
  swap
  · cases hs
  rename_i ack pos rest hsnap
  obtain rfl := Option.some.inj hs
  have hmem : (ack, pos) ∈ s.snapshots := hsnap ▸ List.mem_cons_self
  have hrest : ∀ a ∈ rest, a ∈ s.snapshots := fun a ha => hsnap ▸ List.mem_cons_of_mem _ ha
  have horder := h.order
  rw [hsnap] at horder
  obtain ⟨hfirst, horder⟩ := List.pairwise_cons.1 horder
  -- what stays pending is applied but not acknowledged, or still on its way
  have hdrop : (s.pending.dropWhile fun c => c.tick ≤ ack) = unacked ack applied ++ s.commands.filter (·.kept) := by
    rw [dropWhile_eq_filter h.pending_sorted, ← unacked, h.unacked_pending (h.past _ hmem)]
  refine ⟨unacked ack applied, ?_⟩
  refine { h with pending := hdrop, sorted := h.sorted.filter _, acked := ?_, order := horder, past := ?_,
                  holds := ?_, shown := ?_ }
  · exact fun c hc => h.acked c (List.mem_of_mem_filter hc)
  · exact fun a ha => h.past a (hrest a ha)
  · intro a ha
    have hle : ack ≤ a.1 := hfirst a ha
    have hagain : unacked a.1 (unacked ack applied) = unacked a.1 applied := by
      rw [unacked, unacked, List.filter_filter, unacked]
      refine List.filter_congr fun c _ => ?_
      by_cases hc : a.1 < c.tick
      · simp [hc, hle.trans_lt hc]
      · simp [hc]
    rw [hagain, h.holds a (hrest a ha)]
  · intro q hq
    obtain rfl := Option.some.inj hq
    rw [hdrop, moved_append, moved_filter_kept, ← add_assoc, h.holds _ hmem]

theorem Sound.lose (h : Sound s applied) (hs : machine.step s .lose = some s') : Sound s' applied := by
  simp only [machine, step] at hs
  split at hs
  swap
  · cases hs
  rename_i a rest hsnap
  obtain rfl := Option.some.inj hs
  have hrest : ∀ a ∈ rest, a ∈ s.snapshots := fun a ha => hsnap ▸ List.mem_cons_of_mem _ ha
  have horder := h.order
  rw [hsnap] at horder
  exact { h with
    order := (List.pairwise_cons.1 horder).2
    past := fun a ha => h.past a (hrest a ha)
    holds := fun a ha => h.holds a (hrest a ha) }

theorem sound_step {l : Label G} (h : ∃ applied, Sound s applied) (hs : machine.step s l = some s') :
    ∃ applied, Sound s' applied := by
  obtain ⟨applied, h⟩ := h
  cases l with
  | send move kept idle => exact ⟨applied, h.send move kept idle hs⟩
  | process => exact h.process hs
  | snapshot => exact ⟨applied, h.snapshot hs⟩
  | deliver => exact h.deliver hs
  | lose => exact ⟨applied, h.lose hs⟩

/-- **Prediction is sound**: what the client shows is the server's position, plus the
commands on their way. -/
theorem predicts {labels : List (Label G)} (h : ∃ applied, Sound s applied)
    (hr : machine.run s labels = some s') {q : G} (hq : s'.shown = some q) : q = s'.pos + moved s'.commands := by
  obtain ⟨applied, h'⟩ := Machine.inv_run (I := fun s => ∃ applied, Sound s applied)
    (fun s l s' h hs => sound_step h hs) labels s s' h hr
  exact h'.shown q hq

/-- **Once the client shows a position, it shows one for good.** -/
theorem shows_step {l : Label G} (h : s.shown.isSome = true) (hs : machine.step s l = some s') :
    s'.shown.isSome = true := by
  cases l with
  | send move kept idle =>
    obtain rfl := Option.some.inj hs
    rw [Option.isSome_map]
    exact h
  | snapshot =>
    obtain rfl := Option.some.inj hs
    exact h
  | deliver =>
    simp only [machine, step] at hs
    split at hs
    · obtain rfl := Option.some.inj hs
      rfl
    · cases hs
  | process | lose =>
    simp only [machine, step] at hs
    split at hs
    · obtain rfl := Option.some.inj hs
      exact h
    · cases hs

end Prediction

import Mathlib.Data.List.Basic

/-!
# Streams of frames

A frame is written block by block: a head, which says how many records follow, and the
records. A stream is a concatenation of frames.

* `owed`: a reader of blocks, which knows how many records are still to come.
* `head_of_common`: after the same blocks, two streams go on with heads or with records
  alike.
* `Splits`: what is written, with the rest of the frame in progress.
-/

namespace Framing

variable {β φ : Type*}

/-- Frames of `φ` with blocks of `β`; `head b` is the number of records that the head `b`
announces, or `none` if `b` is a record. -/
structure Format (β φ : Type*) where
  blocks : φ → List β
  head : β → Option ℕ
  frame : ∀ f, ∃ b records, blocks f = b :: records ∧ head b = some records.length ∧
    ∀ r ∈ records, head r = none

namespace Format

variable (T : Format β φ)

/-- A concatenation of frames. -/
def stream (fs : List φ) : List β := fs.flatMap T.blocks

/-- How many records are owed after some blocks, from `n` on. -/
def owed : ℕ → List β → Option ℕ
  | n, [] => some n
  | 0, b :: bs => match T.head b with
    | some n => owed n bs
    | none => none
  | n + 1, b :: bs => match T.head b with
    | some _ => none
    | none => owed n bs

@[simp] theorem stream_append (fs gs : List φ) : T.stream (fs ++ gs) = T.stream fs ++ T.stream gs :=
  List.flatMap_append

@[simp] theorem stream_singleton (f : φ) : T.stream [f] = T.blocks f := List.flatMap_singleton ..

theorem owed_append (n : ℕ) (as bs : List β) : T.owed n (as ++ bs) = (T.owed n as).bind (T.owed · bs) := by
  induction as generalizing n with
  | nil => rfl
  | cons a as ih =>
    cases n with
    | zero =>
      simp only [List.cons_append, owed]
      cases T.head a with
      | none => rfl
      | some m => exact ih m
    | succ n =>
      simp only [List.cons_append, owed]
      cases T.head a with
      | none => exact ih n
      | some m => rfl

theorem owed_records {records : List β} (h : ∀ r ∈ records, T.head r = none) :
    T.owed records.length records = some 0 := by
  induction records with
  | nil => rfl
  | cons r records ih =>
    simp only [List.length_cons, owed, h r List.mem_cons_self]
    exact ih fun r' hr' => h r' (List.mem_cons_of_mem r hr')

theorem owed_blocks (f : φ) : T.owed 0 (T.blocks f) = some 0 := by
  obtain ⟨b, records, hf, hb, hr⟩ := T.frame f
  simp only [hf, owed, hb]
  exact T.owed_records hr

/-- **A stream owes nothing.** -/
theorem owed_stream (fs : List φ) : T.owed 0 (T.stream fs) = some 0 := by
  induction fs with
  | nil => rfl
  | cons f fs ih =>
    have hcons : T.stream (f :: fs) = T.blocks f ++ T.stream fs := rfl
    rw [hcons, owed_append, owed_blocks]
    exact ih

variable {T} {as bs cs : List β} {b c : β} {fs gs : List φ}

/-- **Streams that agree so far go on alike.** -/
theorem head_of_common (hb : T.stream fs = as ++ b :: bs) (hc : T.stream gs = as ++ c :: cs)
    (h : T.head b = none) : T.head c = none := by
  have hf := T.owed_stream fs
  have hg := T.owed_stream gs
  rw [hb, owed_append] at hf
  rw [hc, owed_append] at hg
  obtain ⟨n, hn, hf⟩ := Option.bind_eq_some_iff.1 hf
  rw [hn, Option.bind_some] at hg
  cases n with
  | zero =>
    simp only [owed, h] at hf
    cases hf
  | succ n =>
    cases hc' : T.head c with
    | none => rfl
    | some m =>
      simp only [owed, hc'] at hg
      cases hg

/-! ## A frame in progress -/

variable (T)

/-- `sent` is whole frames and a part of one, of which `rest` is still to be written. -/
def Splits (sent rest : List β) : Prop :=
  ∃ fs part, sent = T.stream fs ++ part ∧ (part ++ rest = [] ∨ ∃ f, part ++ rest = T.blocks f)

variable {T} {sent rest : List β}

theorem Splits.nil : T.Splits [] [] := ⟨[], [], rfl, .inl rfl⟩

/-- With its rest, what is written is whole frames. -/
theorem Splits.whole (h : T.Splits sent rest) : ∃ fs, T.stream fs = sent ++ rest := by
  obtain ⟨fs, part, rfl, h0 | ⟨f, hf⟩⟩ := h
  · exact ⟨fs, by rw [List.append_assoc, h0, List.append_nil]⟩
  · exact ⟨fs ++ [f], by rw [List.append_assoc, hf, stream_append, stream_singleton]⟩

/-- Nothing in progress: the next frame may begin. -/
theorem Splits.start (h : T.Splits sent []) (hr : rest = [] ∨ ∃ f, rest = T.blocks f) : T.Splits sent rest := by
  obtain ⟨fs, part, rfl, h⟩ := h
  rw [List.append_nil] at h
  rcases h with rfl | ⟨g, rfl⟩
  · exact ⟨fs, [], rfl, hr⟩
  · exact ⟨fs ++ [g], [], by rw [stream_append, stream_singleton, List.append_nil], hr⟩

/-- The next block of the frame in progress is written. -/
theorem Splits.write (h : T.Splits sent (b :: rest)) : T.Splits (sent ++ [b]) rest := by
  obtain ⟨fs, part, rfl, h⟩ := h
  refine ⟨fs, part ++ [b], List.append_assoc .., ?_⟩
  rw [List.append_assoc, List.singleton_append]
  exact h

/-- **A whole frame may be put in between two frames**, that is, unless a record comes next. -/
theorem Splits.insert (h : T.Splits sent rest) (hr : ∀ b ∈ rest.head?, T.head b ≠ none) (g : φ) :
    T.Splits (sent ++ T.blocks g) rest := by
  obtain ⟨fs, part, rfl, h0 | ⟨f, hf⟩⟩ := h
  · obtain ⟨rfl, rfl⟩ := List.append_eq_nil_iff.1 h0
    exact ⟨fs ++ [g], [], by simp, .inl rfl⟩
  · cases part with
    | nil => exact ⟨fs ++ [g], [], by simp, .inr ⟨f, hf⟩⟩
    | cons b part =>
      cases rest with
      | nil =>
        refine ⟨fs ++ [f, g], [], ?_, .inl rfl⟩
        rw [List.append_nil] at hf
        have : T.stream [f, g] = T.blocks f ++ T.blocks g := by
          rw [← T.stream_singleton f, ← T.stream_singleton g, ← stream_append]
          rfl
        rw [stream_append, this, hf, List.append_nil, List.append_assoc]
      | cons c rest =>
        -- `c` is a record of the frame in progress
        obtain ⟨b', records, hf', -, hrec⟩ := T.frame f
        rw [hf', List.cons_append] at hf
        have hc : c ∈ records := (List.cons.inj hf).2 ▸ List.mem_append_right part List.mem_cons_self
        exact absurd (hrec c hc) (hr c rfl)

end Format

end Framing

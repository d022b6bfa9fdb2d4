import Mathlib.Data.List.TakeWhile
import RType.Lib.Machine
import RType.Lib.Window
import RType.Proof.ClientInputs

/-!
# The loss window of the client

`update` notes an event for each own `PLAYER_STATE` it receives and for each one it
misses, and drops the events before `nowMs - 5000`. The difference is unsigned, so in the
first five seconds of the clock the cutoff lies beyond every event.

* `Receiver`: a client, its clock, and all events it ever noted.
* `windowed_step`: after a state handled at 5000 ms or later the window is right, if all
  states so far were.
* `not_windowRight`: after a state handled before that it is empty.
* `windowsRight_iff`: so all windows of a run are right exactly when all its own states
  come at 5000 ms or later.
-/

namespace RType

open Lts

variable {F : Type*} [FloatOps F]

namespace RTypeClient

/-! ## Events -/

omit [FloatOps F] in
/-- The events that an own `PLAYER_STATE` adds. -/
def newEvents (c : RTypeClient F) (now sequence : UInt32) : List PacketEvent :=
  if c.isFirstServerPacket then [⟨.received, now⟩]
  else if c.lastServerSeq < sequence then
    List.replicate (sequence - c.lastServerSeq - 1).toNat ⟨.lost, now⟩ ++ [⟨.received, now⟩]
  else []

/-- 100 times the share of `LOST` events. -/
def lossPercentage (events : List PacketEvent) : F :=
  if events = [] then 0.0
  else (((events.filter (·.status = .lost)).length : ℤ) : F) / ((events.length : ℤ) : F) * 100.0

/-- `recordState` as far as the window goes. -/
theorem recordState_window (c : RTypeClient F) (now sequence : UInt32) :
    let c' := c.recordState now sequence
    c'.packetEvents = (c.packetEvents ++ c.newEvents now sequence).dropWhile (fun e => e.timestamp < now - 5000) ∧
      c'.packetLossPercentage = lossPercentage c'.packetEvents ∧ c'.isFirstServerPacket = false := by
  unfold recordState newEvents
  extract_lets lostCount c' cutoffTime events lostInWindow
  have hpushed : c'.packetEvents = c.packetEvents ++ c.newEvents now sequence ∧ c'.isFirstServerPacket = false := by
    unfold newEvents
    simp only [c']
    by_cases hfirst : c.isFirstServerPacket = true
    · rw [if_pos hfirst, if_pos hfirst]
      exact ⟨rfl, rfl⟩
    · have hnot : c.isFirstServerPacket = false := by simpa using hfirst
      rw [if_neg hfirst, if_neg hfirst]
      split
      · exact ⟨List.append_assoc _ _ _, hnot⟩
      · exact ⟨(List.append_nil _).symm, hnot⟩
  have hevents : events = (c.packetEvents ++ c.newEvents now sequence).dropWhile fun e => e.timestamp < now - 5000 := by
    simp only [events, cutoffTime, hpushed.1]
    rfl
  exact ⟨hevents, rfl, hpushed.2⟩

omit [FloatOps F] in
theorem timestamp_of_newEvents {c : RTypeClient F} {now sequence : UInt32} :
    ∀ e ∈ c.newEvents now sequence, e.timestamp = now := by
  intro e he
  unfold newEvents at he
  split at he
  · simp only [List.mem_singleton] at he
    rw [he]
  · split at he
    · rcases List.mem_append.1 he with hlost | hlast
      · rw [List.eq_of_mem_replicate hlost]
      · rw [List.mem_singleton.1 hlast]
    · cases he

omit [FloatOps F] in
/-- The same loss window. -/
structure SameWindow (c c' : RTypeClient F) : Prop where
  packetEvents : c'.packetEvents = c.packetEvents
  isFirstServerPacket : c'.isFirstServerPacket = c.isFirstServerPacket
  packetLossPercentage : c'.packetLossPercentage = c.packetLossPercentage

theorem applyInput_sameWindow (c : RTypeClient F) (pkt : PlayerInputPacket) : c.SameWindow (c.applyInput pkt) := by
  unfold applyInput
  split <;> exact ⟨rfl, rfl, rfl⟩

omit [FloatOps F] in
theorem SameWindow.trans {c₁ c₂ c₃ : RTypeClient F} (h : c₁.SameWindow c₂) (h' : c₂.SameWindow c₃) : c₁.SameWindow c₃ :=
  ⟨h'.packetEvents.trans h.packetEvents, h'.isFirstServerPacket.trans h.isFirstServerPacket,
    h'.packetLossPercentage.trans h.packetLossPercentage⟩

theorem foldl_applyInput_sameWindow (pkts : List PlayerInputPacket) (c : RTypeClient F) :
    c.SameWindow (pkts.foldl applyInput c) := by
  induction pkts generalizing c with
  | nil => exact ⟨rfl, rfl, rfl⟩
  | cons pkt pkts ih =>
    have hfirst := c.applyInput_sameWindow pkt
    exact hfirst.trans (ih (c.applyInput pkt))

omit [FloatOps F] in
theorem typeChat_sameWindow (c : RTypeClient F) (k : Keys) : c.SameWindow (c.typeChat k).1 := by
  unfold typeChat
  split
  · split <;> exact ⟨rfl, rfl, rfl⟩
  · exact ⟨rfl, rfl, rfl⟩

omit [FloatOps F] in
theorem chargeShot_sameWindow (c : RTypeClient F) (k : Keys) : c.SameWindow (c.chargeShot k).1 := by
  unfold chargeShot
  split
  · split <;> exact ⟨rfl, rfl, rfl⟩
  · split <;> exact ⟨rfl, rfl, rfl⟩

/-- What the player types and presses does not touch the window. -/
theorem handleInput_sameWindow (c : RTypeClient F) (k : Keys) : c.SameWindow (c.handleInput k).1 := by
  unfold handleInput
  split
  · exact ⟨rfl, rfl, rfl⟩
  · split
    · exact c.typeChat_sameWindow k
    · have hshot := chargeShot_sameWindow { c with tick := c.tick + 1 } k
      dsimp only [sendInput]
      generalize ({ c with tick := c.tick + 1 } : RTypeClient F).chargeShot k = charged at hshot ⊢
      obtain ⟨c₁, shot⟩ := charged
      have hcharged : c.SameWindow c₁ := ⟨hshot.packetEvents, hshot.isFirstServerPacket, hshot.packetLossPercentage⟩
      have happlied := c₁.applyInput_sameWindow ⟨c₁.myPlayerId, c.tick, moveBits k ||| shot⟩
      split
      · exact hcharged.trans ⟨happlied.packetEvents, happlied.isFirstServerPacket, happlied.packetLossPercentage⟩
      · exact hcharged

/-- Packets other than an own `PLAYER_STATE` do not touch the window. -/
theorem handlePacket_sameWindow (c : RTypeClient F) (now : UInt32) (m : UdpMsg F)
    (h : ∀ sequence lastProcessedTick x y, m = .playerState c.myPlayerId sequence lastProcessedTick x y →
      c.status = .gameOver) : c.SameWindow (c.handlePacket now m) := by
  cases m with
  | playerState playerId sequence lastProcessedTick x y =>
    by_cases hown : playerId = c.myPlayerId
    · have hst : c.status = .gameOver := h sequence lastProcessedTick x y (by rw [hown])
      simp only [handlePacket, hown, hst, if_true]
      exact ⟨rfl, rfl, rfl⟩
    · simp only [handlePacket, hown, if_false]
      exact ⟨rfl, rfl, rfl⟩
  | entityUpdate entityId x y =>
    simp only [handlePacket]
    split <;> exact ⟨rfl, rfl, rfl⟩
  | _ => exact ⟨rfl, rfl, rfl⟩

/-- An own `PLAYER_STATE` records its events. -/
theorem handlePacket_window {c : RTypeClient F} (hst : c.status ≠ .gameOver) (now sequence lastProcessedTick : UInt32)
    (x y : F) : (c.recordState now sequence).SameWindow
      (c.handlePacket now (.playerState c.myPlayerId sequence lastProcessedTick x y)) := by
  simp only [handlePacket, hst, if_true, if_false]
  unfold reconcile
  extract_lets c'
  have hreplay := foldl_applyInput_sameWindow c'.pendingInputs c'
  exact ⟨hreplay.packetEvents, hreplay.isFirstServerPacket, hreplay.packetLossPercentage⟩

end RTypeClient

/-! ## Runs -/

/-- A client, the time of its clock, and the events it noted so far. -/
structure Receiver (F : Type*) where
  client : RTypeClient F
  now : UInt32
  noted : List PacketEvent

namespace Receiver

/-- A client that has just sent its first packet. -/
def init (playerId serverTimeMs : UInt32) : Receiver F := ⟨.new playerId serverTimeMs, 0, []⟩

/-- What can happen to the client: it reads its keys, its status is changed, or it
handles a packet. -/
inductive Label (F : Type*)
  | keys (k : Keys)
  | menu (status : InGameStatus)
  | packet (now : UInt32) (m : UdpMsg F)

omit [FloatOps F] in
/-- The label handles a `PLAYER_STATE` of the own player, with this sequence number. -/
def handled (s : Receiver F) : Label F → Option UInt32
  | .packet _ (.playerState playerId sequence _ _ _) =>
    if playerId = s.client.myPlayerId ∧ s.client.status ≠ .gameOver then some sequence else none
  | _ => none

/-- One step. The clock does not go back. -/
def step (s : Receiver F) (l : Label F) : Option (Receiver F) :=
  match l with
  | .keys k => some { s with client := (s.client.handleInput k).1 }
  | .menu status => some { s with client.status := status }
  | .packet now m =>
    if now < s.now then none
    else some ⟨s.client.handlePacket now m, now,
      s.noted ++ ((s.handled l).map (s.client.newEvents now)).getD []⟩

/-- The client as a machine. -/
def machine : Machine (Receiver F) (Label F) := ⟨step⟩

omit [FloatOps F] in
/-- The window holds the events of the last 5000 ms, and the percentage is theirs. -/
structure WindowRight [FloatOps F] (s : Receiver F) : Prop where
  events : s.client.packetEvents = s.noted.filter fun e =>
    (s.now.toNat : ℤ) - 5000 ≤ e.timestamp.toNat ∧ e.timestamp.toNat ≤ s.now.toNat
  percentage : s.client.packetLossPercentage = RTypeClient.lossPercentage s.client.packetEvents

/-- After each own `PLAYER_STATE` the window is right. -/
def WindowsRight (playerId serverTimeMs : UInt32) (labels : List (Label F)) : Prop :=
  machine.Along (fun s l => (s.handled l).isSome → ∀ s', s.step l = some s' → s'.WindowRight)
    (init playerId serverTimeMs) labels

/-- Each own `PLAYER_STATE` comes at 5000 ms or later. -/
def PastFiveSeconds (playerId serverTimeMs : UInt32) (labels : List (Label F)) : Prop :=
  machine.Along (fun s l => (s.handled l).isSome → ∀ s', s.step l = some s' → 5000 ≤ s'.now)
    (init playerId serverTimeMs) labels

/-! ## Steps -/

/-- What a step does to the window. -/
inductive Passes (s s' : Receiver F) (l : Label F) : Prop
  /-- The packets that matter: own states. -/
  | state (sequence : UInt32) (hl : s.handled l = some sequence) (now_le : s.now ≤ s'.now)
      (noted : s'.noted = s.noted ++ s.client.newEvents s'.now sequence)
      (window : (s.client.recordState s'.now sequence).SameWindow s'.client)
  | other (hl : s.handled l = none) (now_le : s.now ≤ s'.now) (noted : s'.noted = s.noted)
      (window : s.client.SameWindow s'.client)

omit [FloatOps F] in
theorem handled_packet_iff {s : Receiver F} {now sequence : UInt32} {m : UdpMsg F} :
    s.handled (.packet now m) = some sequence ↔ s.client.status ≠ .gameOver ∧
      ∃ lastProcessedTick x y, m = .playerState s.client.myPlayerId sequence lastProcessedTick x y := by
  constructor
  · intro h
    unfold handled at h
    split at h
    · next playerId seq lastProcessedTick x y heq =>
      split at h
      · next hown =>
        obtain rfl := Option.some.inj h
        obtain ⟨-, rfl⟩ := Label.packet.inj heq
        exact ⟨hown.2, lastProcessedTick, x, y, by rw [hown.1]⟩
      · cases h
    · cases h
  · rintro ⟨hst, lastProcessedTick, x, y, rfl⟩
    simp only [handled, hst, ne_eq, not_false_eq_true, and_self, if_true]

theorem step_passes {s s' : Receiver F} {l : Label F} (h : s.step l = some s') : Passes s s' l := by
  cases l with
  | keys k =>
    obtain rfl := Option.some.inj h
    exact .other rfl UInt32.le_rfl rfl (s.client.handleInput_sameWindow k)
  | menu status =>
    obtain rfl := Option.some.inj h
    exact .other rfl UInt32.le_rfl rfl ⟨rfl, rfl, rfl⟩
  | packet now m =>
    simp only [step] at h
    split at h
    · cases h
    · next hlt =>
      have hle : s.now ≤ now := UInt32.not_lt.1 hlt
      obtain rfl := Option.some.inj h
      cases hl : s.handled (.packet now m) with
      | some sequence =>
        obtain ⟨hst, lastProcessedTick, x, y, rfl⟩ := handled_packet_iff.1 hl
        exact .state sequence hl hle rfl (RTypeClient.handlePacket_window hst now sequence lastProcessedTick x y)
      | none =>
        refine .other hl hle (List.append_nil _) (s.client.handlePacket_sameWindow now m ?_)
        intro sequence lastProcessedTick x y hm
        by_contra hst
        rw [handled_packet_iff.2 ⟨hst, lastProcessedTick, x, y, hm⟩] at hl
        cases hl

/-! ## The first five seconds -/

/-- What is known of the events in any case. -/
structure Noted (s : Receiver F) : Prop where
  past : ∀ e ∈ s.noted, e.timestamp ≤ s.now
  mem : ∀ e ∈ s.client.packetEvents, e ∈ s.noted
  first : s.client.isFirstServerPacket = false → s.noted ≠ []

theorem noted_step {s s' : Receiver F} {l : Label F} (h : s.Noted) (hstep : s.step l = some s') : s'.Noted := by
  rcases step_passes hstep with ⟨sequence, hl, hle, hnoted, hw⟩ | ⟨hl, hle, hnoted, hw⟩
  · obtain ⟨hevents, -, -⟩ := s.client.recordState_window s'.now sequence
    refine ⟨?_, ?_, ?_⟩
    · intro e he
      rw [hnoted] at he
      rcases List.mem_append.1 he with hold | hnew
      · exact UInt32.le_trans (h.past e hold) hle
      · exact UInt32.le_of_eq (RTypeClient.timestamp_of_newEvents e hnew)
    · intro e he
      rw [hw.packetEvents, hevents] at he
      rw [hnoted]
      rcases List.mem_append.1 ((List.dropWhile_sublist _).subset he) with hold | hnew
      · exact List.mem_append_left _ (h.mem e hold)
      · exact List.mem_append_right _ hnew
    · intro _
      rw [hnoted]
      -- the first state is noted itself
      cases hfirst : s.client.isFirstServerPacket with
      | true => simp [RTypeClient.newEvents, hfirst]
      | false => exact List.append_ne_nil_of_left_ne_nil (h.first hfirst) _
  · refine ⟨?_, ?_, ?_⟩
    · intro e he
      exact UInt32.le_trans (h.past e (hnoted ▸ he)) hle
    · intro e he
      rw [hw.packetEvents] at he
      rw [hnoted]
      exact h.mem e he
    · intro hfirst
      rw [hw.isFirstServerPacket] at hfirst
      rw [hnoted]
      exact h.first hfirst

theorem noted_init (playerId serverTimeMs : UInt32) : (init playerId serverTimeMs : Receiver F).Noted := by
  refine ⟨?_, ?_, ?_⟩
  · intro e he
    cases he
  · intro e he
    cases he
  · intro h
    cases h

theorem toNat_cutoff (now : UInt32) : (now - 5000).toNat = (4294962296 + now.toNat) % 4294967296 := by
  rw [UInt32.toNat_sub]
  rfl

theorem lt_cutoff {now : UInt32} (h : now < 5000) : now < now - 5000 := by
  have hnow : now.toNat < 5000 := UInt32.lt_iff_toNat_lt.1 h
  rw [UInt32.lt_iff_toNat_lt, toNat_cutoff]
  omega

/-- **In the first five seconds the cutoff wraps**, and the window is emptied. -/
theorem not_windowRight {s s' : Receiver F} {l : Label F} (h : s.Noted) (hl : (s.handled l).isSome)
    (hstep : s.step l = some s') (hearly : s'.now < 5000) : ¬s'.WindowRight := by
  intro hright
  have hn := noted_step h hstep
  rcases step_passes hstep with ⟨sequence, -, hle, -, hw⟩ | ⟨hnone, -⟩
  · obtain ⟨hevents, -, hfirst⟩ := s.client.recordState_window s'.now sequence
    rw [← hw.isFirstServerPacket] at hfirst
    -- all events lie before the cutoff
    have hempty : s'.client.packetEvents = [] := by
      rw [hw.packetEvents, hevents, List.dropWhile_eq_nil_iff]
      intro e he
      have hpast : e.timestamp ≤ s'.now := by
        rcases List.mem_append.1 he with hold | hnew
        · exact UInt32.le_trans (h.past e (h.mem e hold)) hle
        · exact UInt32.le_of_eq (RTypeClient.timestamp_of_newEvents e hnew)
      exact decide_eq_true (UInt32.lt_of_le_of_lt hpast (lt_cutoff hearly))
    have hnow : s'.now.toNat < 5000 := UInt32.lt_iff_toNat_lt.1 hearly
    have hall : s'.client.packetEvents = s'.noted := by
      rw [hright.events, List.filter_eq_self]
      intro e he
      have hpast : e.timestamp.toNat ≤ s'.now.toNat := UInt32.le_iff_toNat_le.1 (hn.past e he)
      simp only [decide_eq_true_eq]
      omega
    exact hn.first hfirst (hall.symm.trans hempty)
  · rw [hnone] at hl
    cases hl

/-! ## Later -/

/-- The queue of events is a window of those noted. -/
def Windowed (s : Receiver F) : Prop :=
  ∃ cutoff, cutoff ≤ s.now.toNat - 5000 ∧
    Sliding.Holds (fun e : PacketEvent => e.timestamp.toNat) s.noted s.client.packetEvents cutoff s.now.toNat

theorem windowed_init (playerId serverTimeMs : UInt32) : (init playerId serverTimeMs : Receiver F).Windowed :=
  ⟨0, Nat.zero_le _, .start 0 _⟩

/-- **From then on** the window slides: an own state drops what is older than 5000 ms. -/
theorem windowed_state {s s' : Receiver F} {sequence : UInt32} (h : s.Windowed) (hnow : s.now ≤ s'.now)
    (hlate : 5000 ≤ s'.now) (hnoted : s'.noted = s.noted ++ s.client.newEvents s'.now sequence)
    (hw : (s.client.recordState s'.now sequence).SameWindow s'.client) :
    Sliding.Holds (fun e : PacketEvent => e.timestamp.toNat) s'.noted s'.client.packetEvents
      (s'.now.toNat - 5000) s'.now.toNat := by
  obtain ⟨cutoff, hcut, hholds⟩ := h
  obtain ⟨hevents, -, -⟩ := s.client.recordState_window s'.now sequence
  have hle : s.now.toNat ≤ s'.now.toNat := UInt32.le_iff_toNat_le.1 hnow
  have hlate' : 5000 ≤ s'.now.toNat := UInt32.le_iff_toNat_le.1 hlate
  have hlt := s'.now.toNat_lt
  have hcutoff : (s'.now - 5000).toNat = s'.now.toNat - 5000 := by
    rw [toNat_cutoff]
    omega
  have hnew : ∀ e ∈ s.client.newEvents s'.now sequence, e.timestamp.toNat = s'.now.toNat := by
    intro e he
    rw [RTypeClient.timestamp_of_newEvents e he]
  have hcut' : cutoff ≤ s'.now.toNat - 5000 := hcut.trans (Nat.sub_le_sub_right hle 5000)
  have hpushed := (hholds.wait hle).push (by omega) hnew
  have hpruned := hpushed.prune hcut'
  rw [hw.packetEvents, hevents, hnoted]
  have htest : (fun e : PacketEvent => decide (e.timestamp < s'.now - 5000)) =
      fun e => decide (e.timestamp.toNat < s'.now.toNat - 5000) := by
    funext e
    exact decide_eq_decide.2 (by rw [UInt32.lt_iff_toNat_lt, hcutoff])
  rw [htest]
  exact hpruned

theorem windowed_step {s s' : Receiver F} {l : Label F} (h : s.Windowed)
    (hlate : (s.handled l).isSome → 5000 ≤ s'.now) (hstep : s.step l = some s') :
    s'.Windowed ∧ ((s.handled l).isSome → s'.WindowRight) := by
  rcases step_passes hstep with ⟨sequence, hl, hle, hnoted, hw⟩ | ⟨hl, hle, hnoted, hw⟩
  · have hholds := windowed_state h hle (hlate (by rw [hl]; rfl)) hnoted hw
    obtain ⟨-, hpercentage, -⟩ := s.client.recordState_window s'.now sequence
    refine ⟨⟨s'.now.toNat - 5000, Nat.le_refl _, hholds⟩, fun _ => ⟨?_, ?_⟩⟩
    · rw [hholds.queue]
      refine List.filter_congr fun e he => ?_
      have hpast : e.timestamp.toNat ≤ s'.now.toNat := hholds.past e he
      have hiff : s'.now.toNat - 5000 ≤ e.timestamp.toNat ↔
          (s'.now.toNat : ℤ) - 5000 ≤ e.timestamp.toNat ∧ e.timestamp.toNat ≤ s'.now.toNat := by
        omega
      exact decide_eq_decide.2 hiff
    · rw [hw.packetLossPercentage, hw.packetEvents, hpercentage]
  · obtain ⟨cutoff, hcut, hholds⟩ := h
    have hnow : s.now.toNat ≤ s'.now.toNat := UInt32.le_iff_toNat_le.1 hle
    refine ⟨⟨cutoff, hcut.trans (Nat.sub_le_sub_right hnow 5000), ?_⟩, ?_⟩
    · rw [hnoted, hw.packetEvents]
      exact hholds.wait hnow
    · intro hsome
      rw [hl] at hsome
      cases hsome

/-! ## Main result -/

/-- **The loss window.** In a run of the client, with any packets at any times, the window
is right after each own `PLAYER_STATE` exactly if each of these comes at 5000 ms or later. -/
theorem windowsRight_iff (playerId serverTimeMs : UInt32) (labels : List (Label F)) :
    WindowsRight playerId serverTimeMs labels ↔ PastFiveSeconds playerId serverTimeMs labels := by
  constructor
  · intro h
    refine Machine.along_of_forall fun pre l post s heq hrun hl s' hstep => ?_
    subst heq
    have hnoted : s.Noted := Machine.inv_run (fun _ _ _ => noted_step) pre _ s (noted_init _ _) hrun
    have hright : s'.WindowRight := Machine.Along.at h hrun hl s' hstep
    by_contra hearly
    exact not_windowRight hnoted hl hstep (UInt32.not_le.1 hearly) hright
  · intro h
    refine Machine.along_of_forall fun pre l post s heq hrun hl s' hstep => ?_
    subst heq
    have hlate : (s.handled l).isSome → ∀ s', s.step l = some s' → 5000 ≤ s'.now := Machine.Along.at h hrun
    have hsofar := Machine.Along.upTo h ⟨l :: post, rfl⟩ hrun
    have hw : s.Windowed := by
      refine Machine.inv_along (fun s l s' hs hC hstep => ?_) pre _ s (windowed_init _ _) hsofar hrun
      exact (windowed_step hs (fun hl => hC hl s' hstep) hstep).1
    exact (windowed_step hw (fun hl => hlate hl s' hstep) hstep).2 hl

/-- One own state in the first five seconds. -/
def earlyState : List (Label ℚ) := [.packet 100 (.playerState 1 0 0 0 0)]

/-- Its event is not in the window. -/
theorem not_windowsRight_early : ¬WindowsRight 1 0 earlyState := by
  intro h
  obtain ⟨s', hstep, hearly⟩ : ∃ s', (init 1 0).step (Label.packet 100 (.playerState 1 0 0 0 0) : Label ℚ) = some s' ∧
      s'.now < 5000 := ⟨_, rfl, by decide⟩
  exact not_windowRight (noted_init 1 0) rfl hstep hearly (h.1 rfl s' hstep)

end Receiver

end RType

import RType.Lib.Tally
import RType.Proof.Predicts

/-!
# The loss statistics of a player

What the server counts of a player's inputs is the `Tally` of their ticks
(`Player.Counts`, `RoomAct.counts`), whatever else happens to the room.

* `Room.inputs_accounted`: the counts balance after every packet.
* `Link.noFalseLoss_iff`: without loss nothing is counted as lost if and only if the
  server has heard of no frame yet, or the clock of the handshake stood at 1.
-/

namespace RType

open Lts Numbered

variable {F : Type*}

/-! ## The statistics -/

/-- A player none of whose inputs has arrived. -/
structure Player.Unheard (d : Player F) : Prop where
  first : d.firstInputReceived = true
  received : d.receivedInputs = 0
  lost : d.lostInputs = 0

/-- What the statistics of a player say: nothing yet, or a tally of its ticks. -/
def Player.Counts (d : Player F) : Option Tally → Prop
  | none => d.Unheard
  | some t => d.firstInputReceived = false ∧ d.lastInputTick.toNat = t.last ∧
      d.receivedInputs.toNat = t.received ∧ d.lostInputs.toNat = t.lost

theorem Player.SameButAddress.counts {d d' : Player F} (h : d.SameButAddress d') {t : Option Tally} (hd : d.Counts t) :
    d'.Counts t := by
  rw [h]
  cases t with
  | none => exact ⟨hd.first, hd.received, hd.lost⟩
  | some t => exact hd

theorem Player.Counts.counted {d : Player F} {t : Option Tally} (hd : d.Counts t) : d.counted.Counts t := by
  unfold Player.counted
  split
  · cases t with
    | none => exact ⟨hd.first, hd.received, hd.lost⟩
    | some t => exact hd
  · exact hd

/-- **The turns of a room leave the statistics of the player.** -/
theorem Room.Turns.counts {playerId : UInt32} {r r' : Room F} (h : r.Turns playerId r') {d : Player F}
    {ds : List (Player F)} (hd : r.own playerId = d :: ds) {t : Option Tally} (ht : d.Counts t) :
    ∃ d' ds', r'.own playerId = d' :: ds' ∧ d'.Counts t :=
  h.own_head (P := fun d => d.Counts t) (fun _ _ hdd' => hdd'.counts) (fun _ hd => hd.counted) hd ht

/-- **One more tick.** The 64-bit counters hold what a 32-bit tick can make of them. -/
theorem Player.Counts.recordInput {d : Player F} {t : Option Tally} (h : d.Counts t) (tick : UInt32) :
    (d.recordInput tick).Counts (some (Tally.next t tick.toNat)) := by
  cases t with
  | none =>
    obtain ⟨hfirst, -, hlost⟩ := h
    simp only [Player.recordInput, hfirst, if_true]
    exact ⟨rfl, rfl, rfl, by rw [hlost]; rfl⟩
  | some t =>
    obtain ⟨hheard, hlast, hreceived, hlost⟩ := h
    have hbound := d.lastInputTick.toNat_lt
    have htick := tick.toNat_lt
    have hbalance := t.balance
    simp only [Player.recordInput, hheard, Bool.false_eq_true, if_false]
    show Player.Counts _ (some (t.record tick.toNat))
    by_cases hlt : d.lastInputTick < tick
    · have hlt' := UInt32.lt_iff_toNat_lt.1 hlt
      obtain ⟨h1, h2, h3⟩ := Tally.record_of_lt (t := t) (n := tick.toNat) (by omega)
      have hgap : (tick - d.lastInputTick - 1).toNat = tick.toNat - t.last - 1 := by
        rw [← hlast, UInt32.toNat_sub_of_le, UInt32.toNat_sub_of_le]
        · rfl
        · exact UInt32.le_iff_toNat_le.2 hlt'.le
        · rw [UInt32.le_iff_toNat_le, UInt32.toNat_sub_of_le _ _ (UInt32.le_iff_toNat_le.2 hlt'.le)]
          show 1 ≤ _
          omega
      rw [if_pos hlt]
      refine ⟨rfl, h1.symm, ?_, ?_⟩
      · rw [h2, ← hreceived, UInt64.toNat_add]
        show (d.receivedInputs.toNat + 1) % 2 ^ 64 = _
        omega
      · rw [h3, ← hlost, ← hgap]
        simp only
        split
        · rw [UInt64.toNat_add, UInt32.toNat_toUInt64]
          omega
        · rename_i hzero
          have : (tick - d.lastInputTick - 1).toNat = 0 := by
            rw [UInt32.lt_iff_toNat_lt] at hzero
            exact Nat.eq_zero_of_not_pos hzero
          omega
    · rw [if_neg hlt, Tally.record_of_le (by rw [UInt32.lt_iff_toNat_lt] at hlt; omega)]
      exact ⟨hheard, hlast, hreceived, hlost⟩

variable [FloatOps F]

/-- Neither the acknowledged tick nor a movement counts. -/
theorem Player.Counts.handle {d : Player F} {t : Option Tally} (h : d.Counts t) (pkt : PlayerInputPacket) :
    (d.handle pkt).Counts (some (Tally.next t pkt.tick.toNat)) := by
  have hseen : ((d.recordInput pkt.tick).seen pkt.tick).Counts (some (Tally.next t pkt.tick.toNat)) := by
    unfold Player.seen
    split
    · exact h.recordInput pkt.tick
    · exact h.recordInput pkt.tick
  obtain ⟨x, y, hhandle⟩ := d.handle_eq pkt
  rw [hhandle]
  exact hseen

/-! ## Runs of a room -/

/-- The act leaves the player in the room. -/
def RoomAct.Stays (playerId : UInt32) : RoomAct → Prop
  | join p _ | leave p | disconnect p | kick p => p ≠ playerId
  | input _ _ | start _ | update _ => True

/-- The tick of an input of the player. -/
def RoomAct.tickOf (playerId : UInt32) : RoomAct → Option UInt32
  | input pkt _ => if pkt.playerId = playerId then some pkt.tick else none
  | _ => none

/-- The ticks of the player's inputs, in the order they arrive. -/
def ticksOf (playerId : UInt32) (acts : List RoomAct) : List UInt32 := acts.filterMap (·.tickOf playerId)

theorem RoomAct.stays_cases {playerId : UInt32} {a : RoomAct} (ha : a.Stays playerId) :
    (a.Spares playerId ∧ a.tickOf playerId = none) ∨
      ∃ pkt addr, a = .input pkt addr ∧ pkt.playerId = playerId ∧ a.tickOf playerId = some pkt.tick := by
  cases a with
  | input pkt addr =>
    by_cases h : pkt.playerId = playerId
    · exact .inr ⟨pkt, addr, rfl, h, if_pos h⟩
    · exact .inl ⟨h, if_neg h⟩
  | join _ _ | leave _ | start _ | disconnect _ | kick _ | update _ => exact .inl ⟨ha, rfl⟩

/-- An input of the player is recorded. -/
theorem Room.counts_input {r : Room F} {pkt : PlayerInputPacket} {d : Player F} {ds : List (Player F)}
    (hd : r.own pkt.playerId = d :: ds) {t : Option Tally} (ht : d.Counts t) (addr : SockAddr) :
    ∃ d' ds', (r.input pkt addr).own pkt.playerId = d' :: ds' ∧ d'.Counts (some (Tally.next t pkt.tick.toNat)) := by
  obtain ⟨d', ds', hd', ht'⟩ := (Room.Turns.silent (.address r pkt.playerId addr)).counts hd ht
  exact ⟨_, _, Room.own_handlePlayerInput hd', ht'.handle pkt⟩

/-- **The statistics are the tally of the ticks**, whatever else is done to the room. -/
theorem RoomAct.counts {playerId : UInt32} {r : Room F} {d : Player F} {ds : List (Player F)}
    (hd : r.own playerId = d :: ds) (hnew : d.Counts none) {acts : List RoomAct} (hacts : ∀ a ∈ acts, a.Stays playerId) :
    ∃ d' ds', (acts.foldl (fun r a => a.run r) r).own playerId = d' :: ds' ∧
      d'.Counts (Tally.upTo ((ticksOf playerId acts).map UInt32.toNat)) := by
  induction acts using List.reverseRecOn with
  | nil => exact ⟨d, ds, hd, hnew⟩
  | append_singleton acts a ih =>
    obtain ⟨d₁, ds₁, hd₁, ht₁⟩ := ih fun b hb => hacts b (List.mem_append_left _ hb)
    rw [List.foldl_append, ticksOf, List.filterMap_append]
    rcases stays_cases (hacts a (List.mem_append_right _ List.mem_cons_self)) with ⟨ha, hnone⟩ | ⟨pkt, addr, rfl, rfl, hsome⟩
    · rw [List.filterMap_cons_none hnone, List.filterMap_nil, List.append_nil]
      exact (a.turns ha _).counts hd₁ ht₁
    · rw [List.filterMap_cons_some hsome, List.filterMap_nil, List.map_append, List.map_singleton, Tally.upTo_snoc]
      exact Room.counts_input hd₁ ht₁ addr

/-- **The counts of a player balance.** After each of its inputs the last tick is the
greatest so far, and received and lost inputs make up the interval from the first tick to
it. In order, the lost ones are those that did not arrive. -/
theorem Room.inputs_accounted {playerId : UInt32} {r : Room F} {d : Player F} {ds : List (Player F)}
    (hd : r.own playerId = d :: ds) (hnew : d.Unheard) {acts : List RoomAct} (hacts : ∀ a ∈ acts, a.Stays playerId)
    {firstTick : UInt32} {rest : List UInt32} (hticks : ticksOf playerId acts = firstTick :: rest) :
    ∃ d' ds', (acts.foldl (fun r a => a.run r) r).own playerId = d' :: ds' ∧
      IsGreatest {tick | tick ∈ ticksOf playerId acts} d'.lastInputTick ∧
      d'.receivedInputs.toNat + d'.lostInputs.toNat = d'.lastInputTick.toNat - firstTick.toNat + 1 ∧
      ((ticksOf playerId acts).Pairwise (· ≤ ·) → d'.lostInputs.toNat =
        (Finset.Icc firstTick.toNat d'.lastInputTick.toNat \ ((ticksOf playerId acts).map UInt32.toNat).toFinset).card) := by
  obtain ⟨d', ds', hd', ht⟩ := RoomAct.counts hd hnew hacts
  refine ⟨d', ds', hd', ?_⟩
  rw [hticks] at ht ⊢
  obtain ⟨-, hlast, hreceived, hlost⟩ := ht
  have hgreatest : IsGreatest {n | n ∈ firstTick.toNat :: rest.map UInt32.toNat}
      (Tally.of firstTick.toNat (rest.map UInt32.toNat)).last := Tally.isGreatest
  have hbalance := (Tally.of firstTick.toNat (rest.map UInt32.toNat)).balance
  rw [← List.map_cons, ← hlast] at hgreatest
  refine ⟨⟨?_, fun tick htick => ?_⟩, ?_, fun horder => ?_⟩
  · obtain ⟨tick, htick, he⟩ := List.mem_map.1 hgreatest.1
    rwa [Set.mem_ofPred_eq, ← UInt32.toNat_inj.1 he]
  · exact UInt32.le_iff_toNat_le.2 (hgreatest.2 (List.mem_map_of_mem htick))
  · rw [hreceived, hlost, hlast, hbalance, Tally.of_first]
  · rw [hlost, hlast, List.map_cons]
    refine Tally.lost_of_inOrder ?_
    rw [← List.map_cons, List.pairwise_map]
    exact horder.imp fun h => UInt32.le_iff_toNat_le.1 h

/-- The inputs of player 1 with these ticks. -/
def inputsAt (ticks : List UInt32) : List RoomAct := ticks.map fun tick => .input ⟨1, tick, 0⟩ ⟨1, 1⟩

/-- A gap, a late input and a repeated one. -/
theorem Room.inputs_accounted_late :
    ∃ d ds, ((inputsAt [5, 9, 7, 9]).foldl (fun r a => a.run r) Link.started).own 1 = d :: ds ∧
      IsGreatest {tick | tick ∈ ticksOf 1 (inputsAt [5, 9, 7, 9])} d.lastInputTick ∧
      d.receivedInputs.toNat + d.lostInputs.toNat = d.lastInputTick.toNat - (5 : UInt32).toNat + 1 := by
  have hd : Link.started.own 1 = [Player.new 1 []] := rfl
  have hacts : ∀ a ∈ inputsAt [5, 9, 7, 9], a.Stays 1 := by simp [inputsAt, RoomAct.Stays]
  have hticks : ticksOf 1 (inputsAt [5, 9, 7, 9]) = [5, 9, 7, 9] := rfl
  obtain ⟨d, ds, hd, hgreatest, hsum, -⟩ := inputs_accounted hd ⟨rfl, rfl, rfl⟩ hacts hticks
  exact ⟨d, ds, hd, hgreatest, hsum⟩

/-! ## Inputs that all arrive -/

namespace Link

/-- The server hears of an input. -/
def Label.hears : Label → Bool
  | .input _ => true
  | _ => false

/-- The ticks of a client that has sent its first packet and `frames` more. -/
def sentTicks (serverTimeMs : UInt32) (frames : ℕ) : List ℕ := 0 :: List.range' serverTimeMs.toNat frames

/-- The server has heard of the first `heard` inputs, the others are on their way, and the
statistics are the tally of what it has heard. -/
structure Heard (playerId serverTimeMs : UInt32) (heard : ℕ) (s : Link F) : Prop where
  me : s.client.myPlayerId = playerId
  named : ∀ pkt ∈ s.inputs, pkt.playerId = playerId
  sent : ∃ frames, s.client.tick.toNat = serverTimeMs.toNat + frames ∧ heard ≤ frames + 1 ∧
    s.inputs.map (·.tick.toNat) = (sentTicks serverTimeMs frames).drop heard ∧
    ∃ d ds, s.room.own playerId = d :: ds ∧ d.Counts (Tally.upTo ((sentTicks serverTimeMs frames).take heard))

variable {playerId serverTimeMs : UInt32} {heard : ℕ} {s s' : Link F}

omit [FloatOps F] in
theorem sentTicks_succ (serverTimeMs : UInt32) (frames : ℕ) :
    sentTicks serverTimeMs (frames + 1) = sentTicks serverTimeMs frames ++ [serverTimeMs.toNat + frames] := by
  rw [sentTicks, List.range'_concat, Nat.one_mul]
  rfl

omit [FloatOps F] in
theorem length_sentTicks (serverTimeMs : UInt32) (frames : ℕ) : (sentTicks serverTimeMs frames).length = frames + 1 := by
  simp [sentTicks]

omit [FloatOps F] in
/-- Steps of the client that send nothing. -/
theorem Heard.client (h : s.Heard playerId serverTimeMs heard) (c : RTypeClient F)
    (hme : c.myPlayerId = s.client.myPlayerId) (htick : c.tick = s.client.tick) {packets : List (UdpMsg F)} :
    { s with client := c, packets }.Heard playerId serverTimeMs heard :=
  ⟨hme.trans h.me, h.named, by rw [htick]; exact h.sent⟩

omit [FloatOps F] in
/-- Steps of the server that leave the player. -/
theorem Heard.serve (h : s.Heard playerId serverTimeMs heard) {r : Room F} {loop : LoopPc F}
    (hr : s.room.Turns playerId r) : ({ s with loop }.serve r).Heard playerId serverTimeMs heard := by
  obtain ⟨frames, htick, hle, hinputs, d, ds, hd, ht⟩ := h.sent
  exact ⟨h.me, h.named, frames, htick, hle, hinputs, hr.counts hd ht⟩

/-- A frame that sends an input. -/
theorem Heard.sendInput (h : s.Heard playerId serverTimeMs heard) (k : Keys) (hwrap : s.client.tick.toNat + 1 < 2 ^ 32) :
    { s with client := (s.client.sendInput k).1, inputs := s.inputs ++ [(s.client.sendInput k).2] }.Heard
      playerId serverTimeMs heard := by
  obtain ⟨frames, htick, hle, hinputs, d, ds, hd, ht⟩ := h.sent
  obtain ⟨h1, h2, h3, -, h5, -, -⟩ := s.client.sendInput_spec k
  have hlen : heard ≤ (sentTicks serverTimeMs frames).length := by rw [length_sentTicks]; exact hle
  refine ⟨h3.trans h.me, fun pkt hpkt => ?_, frames + 1, ?_, by omega, ?_, d, ds, hd, ?_⟩
  · rcases List.mem_append.1 hpkt with hm | hm
    · exact h.named pkt hm
    · rw [List.mem_singleton.1 hm, h1, h.me]
  · show (s.client.sendInput k).1.tick.toNat = _
    rw [h5, UInt32.toNat_add]
    show (s.client.tick.toNat + 1) % 2 ^ 32 = _
    rw [Nat.mod_eq_of_lt hwrap, htick, Nat.add_assoc]
  · simp only [List.map_append, List.map_cons, List.map_nil, hinputs, sentTicks_succ]
    rw [List.drop_append_of_le_length hlen, h2, htick]
  · rw [sentTicks_succ, List.take_append_of_le_length hlen]
    exact ht

/-- The server hears of an input. -/
theorem Heard.input (h : s.Heard playerId serverTimeMs heard) {pkt : PlayerInputPacket} {inputs : List PlayerInputPacket}
    (hi : s.inputs = pkt :: inputs) (addr : SockAddr) :
    ({ s with inputs }.serve ((RoomAct.input pkt addr).run s.room)).Heard playerId serverTimeMs (heard + 1) := by
  obtain ⟨frames, htick, hle, hinputs, d, ds, hd, ht⟩ := h.sent
  obtain rfl : pkt.playerId = playerId := h.named pkt (hi ▸ List.mem_cons_self)
  rw [hi, List.map_cons] at hinputs
  have hpos : heard < (sentTicks serverTimeMs frames).length := by
    by_contra hge
    rw [List.drop_eq_nil_of_le (Nat.le_of_not_lt hge)] at hinputs
    cases hinputs
  rw [List.drop_eq_getElem_cons hpos] at hinputs
  obtain ⟨hnext, hrest⟩ := List.cons.inj hinputs
  have hle' : heard + 1 ≤ frames + 1 := by
    rw [length_sentTicks] at hpos
    exact hpos
  refine ⟨h.me, fun p hp => h.named p (hi ▸ List.mem_cons_of_mem _ hp), frames, htick, hle', hrest, ?_⟩
  rw [← List.take_concat_get' _ _ hpos, Tally.upTo_snoc, ← hnext]
  exact Room.counts_input hd ht addr

/-- **The server hears of the inputs in order**: one step. -/
theorem Heard.step {l : Label} (h : s.Heard playerId serverTimeMs heard) (hC : NoTickWrap s l)
    (hs : machine.step s l = some s') : s'.Heard playerId serverTimeMs (if l.hears then heard + 1 else heard) := by
  cases step_cases hs with
  | chat k hview => exact h.client _ hview.myPlayerId hview.tick
  | send k htab hchat => exact h.sendInput k hC
  | @menu status hstatus => exact h.client { s.client with status } rfl rfl
  | packet now hp =>
    obtain ⟨hme, htick, -⟩ := s.client.handlePacket_inputs now _
    exact h.client _ hme htick
  | loss hp => exact h.client s.client rfl rfl
  | input addr hi => exact h.input hi addr
  | loop env => exact h.serve (s.loop.turns playerId env s.room)
  | act ha => exact h.serve (RoomAct.turns (h.me ▸ ha) s.room)

/-- **The server hears of the inputs in order.** -/
theorem heard_run {room : Room F} {d : Player F} {ds : List (Player F)} (hroom : room.own playerId = d :: ds)
    (hnew : d.Unheard) {labels : List Label} (hwrap : machine.Along NoTickWrap (init room playerId serverTimeMs) labels)
    (hs : machine.run (init room playerId serverTimeMs) labels = some s) :
    s.Heard playerId serverTimeMs (labels.countP Label.hears) := by
  induction labels using List.reverseRecOn generalizing s with
  | nil =>
    obtain rfl := Option.some.inj hs
    exact ⟨rfl, fun pkt hp => by rw [List.mem_singleton.1 hp]; rfl, 0, rfl, Nat.zero_le _, rfl, d, ds, hroom, hnew⟩
  | append_singleton labels l ih =>
    obtain ⟨t, ht, hstep⟩ := machine.run_snoc_iff.1 hs
    have h := (ih (hwrap.upTo (List.prefix_append _ _) ht) ht).step (hwrap.at ht) hstep
    rw [List.countP_append, List.countP_singleton]
    cases hl : l.hears <;> simpa [hl] using h

omit [FloatOps F] in
/-- The counts are right of a client whose clock starts at 1, and of the first packet. -/
theorem Heard.right (h : s.Heard playerId serverTimeMs heard) (hT : heard ≤ 1 ∨ serverTimeMs = 1) :
    ∃ d ds, s.room.own playerId = d :: ds ∧ d.lostInputs = 0 ∧ d.receivedInputs.toNat = heard := by
  obtain ⟨frames, -, hle, -, d, ds, hd, ht⟩ := h.sent
  refine ⟨d, ds, hd, ?_⟩
  cases heard with
  | zero => exact ⟨ht.lost, by rw [ht.received]; rfl⟩
  | succ n =>
    have hticks : (sentTicks serverTimeMs frames).take (n + 1) = 0 :: List.range' (0 + 1) n := by
      rw [sentTicks, List.take_succ_cons, List.take_range'_of_length_ge (by omega)]
      rcases hT with hn | rfl
      · obtain rfl : n = 0 := by omega
        rfl
      · rfl
    rw [hticks] at ht
    obtain ⟨-, -, hreceived, hlost⟩ := ht
    obtain ⟨h1, h2, -⟩ := Tally.of_consecutive 0 n
    exact ⟨UInt64.toNat_inj.1 (hlost.trans h2), hreceived.trans h1⟩

omit [FloatOps F] in
/-- From the second packet on the counts make up an interval that starts at 0. -/
theorem Heard.sum (h : s.Heard playerId serverTimeMs heard) (hheard : 2 ≤ heard) {d : Player F}
    {ds : List (Player F)} (hd : s.room.own playerId = d :: ds) :
    d.receivedInputs.toNat + d.lostInputs.toNat = serverTimeMs.toNat + heard - 1 := by
  obtain ⟨frames, -, hle, -, d', ds', hd', ht⟩ := h.sent
  rw [hd] at hd'
  obtain ⟨rfl, rfl⟩ := List.cons.inj hd'
  obtain ⟨n, rfl⟩ : ∃ n, heard = n + 2 := ⟨heard - 2, by omega⟩
  have hticks : (sentTicks serverTimeMs frames).take (n + 2) = 0 :: List.range' serverTimeMs.toNat (n + 1) := by
    rw [sentTicks, List.take_succ_cons, List.take_range'_of_length_ge (by omega)]
  rw [hticks] at ht
  obtain ⟨-, -, hreceived, hlost⟩ := ht
  -- the last tick is the greatest
  have hlast : (Tally.of 0 (List.range' serverTimeMs.toNat (n + 1))).last = serverTimeMs.toNat + n := by
    refine Tally.isGreatest.unique ⟨?_, fun m hm => ?_⟩
    · exact List.mem_cons_of_mem _ (List.mem_range'_1.2 ⟨by omega, by omega⟩)
    · rcases List.mem_cons.1 hm with rfl | hm
      · omega
      · have := List.mem_range'_1.1 hm
        omega
  have hbalance := (Tally.of 0 (List.range' serverTimeMs.toNat (n + 1))).balance
  rw [hlast, Tally.of_first] at hbalance
  omega

/-- **When no loss is counted as none.** All inputs of the client arrive in order. Then the
server counts none of them as lost, and each as received, if and only if it has heard of
no frame yet or the clock of the handshake stood at 1. -/
theorem noFalseLoss_iff {room : Room F} {playerId serverTimeMs : UInt32} {d : Player F} {ds : List (Player F)}
    (hroom : room.own playerId = d :: ds) (hnew : d.Unheard) {labels : List Label}
    (hwrap : machine.Along NoTickWrap (init room playerId serverTimeMs) labels) {s : Link F}
    (hs : machine.run (init room playerId serverTimeMs) labels = some s) :
    (∃ d ds, s.room.own playerId = d :: ds ∧ d.lostInputs = 0 ∧
      d.receivedInputs.toNat = labels.countP Label.hears) ↔
    labels.countP Label.hears ≤ 1 ∨ serverTimeMs = 1 := by
  have h := heard_run hroom hnew hwrap hs
  refine ⟨fun ⟨d', ds', hd', hlost, hreceived⟩ => ?_, h.right⟩
  by_contra hT
  obtain ⟨hheard, hone⟩ := not_or.1 hT
  have hsum := h.sum (Nat.lt_of_not_le hheard) hd'
  rw [hlost, hreceived] at hsum
  refine hone (UInt32.toNat_inj.1 ?_)
  show serverTimeMs.toNat = 1
  have : (0 : UInt64).toNat = 0 := rfl
  omega

/-- The first packet and one frame arrive. -/
def oneFrame : List Label := [.input ⟨1, 1⟩, .keys (rightKey true), .input ⟨1, 1⟩]

/-- With the clock at 1 both are counted, and none is lost. -/
theorem noFalseLoss_at_one :
    ∃ s : Link ℚ, machine.run (init started 1 1) oneFrame = some s ∧
      ∃ d ds, s.room.own 1 = d :: ds ∧ d.lostInputs = 0 ∧ d.receivedInputs.toNat = 2 := by
  have hroom : started.own 1 = [Player.new 1 []] := rfl
  have hwrap : machine.Along NoTickWrap (init started 1 1) oneFrame := by
    refine .cons rfl trivial (.cons rfl ?_ (.cons rfl trivial .nil))
    decide
  exact ⟨_, rfl, (noFalseLoss_iff hroom ⟨rfl, rfl, rfl⟩ hwrap rfl).2 (.inr rfl)⟩

/-- With the clock at 1000 the frame counts for 999 lost inputs. -/
theorem falseLoss_at_1000 :
    ∃ s : Link ℚ, machine.run (init started 1 1000) oneFrame = some s ∧
      machine.Along NoTickWrap (init started 1 1000) oneFrame ∧
      ∃ d, s.room.own 1 = [d] ∧ d.receivedInputs = 2 ∧ d.lostInputs = 999 := by
  refine ⟨_, rfl, ?_, _, rfl, rfl, rfl⟩
  refine .cons rfl trivial (.cons rfl ?_ (.cons rfl trivial .nil))
  decide

end Link

end RType

import Mathlib.Data.List.TakeWhile
import RType.Proof.LeftGames
import RType.Proof.ServerMessages
import RType.Proof.WireViewer
import RType.Spec.Network

/-!
# What a client may believe

A client hears of the server over UDP, which may lose, repeat and reorder everything. It may
believe what it measures and what it drops all the same.

* `heard_pong`, `heard_playerState`: datagrams of the server are read as what they are.
* `tick_rule`: what a frame does, for the ping and the inputs.
* `pings_answered`: **the round trip time is that of a `PING` of its own**, from the frame that
  sent it to the moment its answer is handled.
* `Counted`: what it numbers its inputs with, which increases up to the wrap.
* `inputs_acknowledged`: **an input is dropped only if it, or a later one, has been taken**, before
  the wrap.
-/

namespace RType

open Lts Wire

variable {F : Type*} {bits : F → UInt32} {float : UInt32 → F}

/-! ## What is heard -/

namespace UdpMsg

/-- What is read of some bytes is of the type of the first one. -/
theorem head?_of_parse {data : List UInt8} {m : UdpMsg F} (h : parse float data = some m) (bits : F → UInt32)
    (filling : Filling) : data.head? = (m.bytes bits filling).head? := by
  unfold parse at h
  cases hhead : data.head? with
  | none =>
    rw [hhead] at h
    cases h
  | some type =>
    rw [hhead] at h
    dsimp only at h
    split_ifs at h with h2 h3 h4 h5 h8 h7 h9 h10 h11 <;> obtain rfl := Option.some.inj h
    · rw [h2.1]; rfl
    · rw [h3.1]; rfl
    · rw [h4.1]; rfl
    · rw [h5.1]; rfl
    · rw [h8.1]; rfl
    · rw [h7.1]; rfl
    · rw [h9.1]; rfl
    · rw [h10]; rfl
    · rw [h11.1]; rfl

theorem parse_playerState {data : List UInt8} {playerId sequence tick : UInt32} {x y : F}
    (h : parse float data = some (.playerState playerId sequence tick x y)) :
    playerId = u32At data 1 ∧ tick = u32At data 9 := by
  unfold parse at h
  cases hhead : data.head? with
  | none =>
    rw [hhead] at h
    cases h
  | some type =>
    rw [hhead] at h
    dsimp only at h
    split_ifs at h <;> cases h
    exact ⟨rfl, rfl⟩

/-- The array that the client gets of a message. -/
theorem receiveMessage_bytes (m : UdpMsg F) (filling : Filling) :
    receiveMessage (queueMessage (m.bytes bits filling)) =
      some (padded maxUdpPacketSize ((m.bytes bits filling).take maxUdpPacketSize)) := by
  have hpos : 0 < (recvfrom (queueMessage (m.bytes bits filling))).length := by
    rw [recvfrom_queueMessage, List.length_take]
    have hbytes : 0 < (m.bytes bits filling).length := List.length_pos_iff.2 (m.bytes_ne_nil filling)
    exact Nat.lt_min.2 ⟨by decide, hbytes⟩
  rw [receiveMessage, if_pos hpos, recvfrom_queueMessage]

theorem head?_array (m : UdpMsg F) (filling : Filling) :
    (padded maxUdpPacketSize ((m.bytes bits filling).take maxUdpPacketSize)).head? = (m.bytes bits filling).head? := by
  cases m <;> rfl

/-- A short packet lies at the front of the array. -/
theorem array_eq (bits : F → UInt32) {m : UdpMsg F} (filling : Filling)
    (hother : ∀ entityCount records, m ≠ .globalStateSync entityCount records) :
    ∃ zeros, padded maxUdpPacketSize ((m.bytes bits filling).take maxUdpPacketSize) = m.bytes bits filling ++ zeros ∧
      (m.bytes bits filling ++ zeros).length = maxUdpPacketSize := by
  have hle : (m.bytes bits filling).length ≤ maxUdpPacketSize := length_bytes_le hother filling
  rw [List.take_of_length_le hle]
  exact ⟨_, rfl, length_padded hle⟩

/-- **A message is heard as one of its type.** -/
theorem head?_of_heard {m m' : UdpMsg F} {filling : Filling}
    (h : (receiveMessage (queueMessage (m.bytes bits filling))).bind (parse float) = some m') :
    (m.bytes bits filling).head? = (m'.bytes bits filling).head? := by
  rw [receiveMessage_bytes, Option.bind_some] at h
  exact (head?_array m filling).symm.trans (head?_of_parse h bits filling)

/-- A short one, whose fields survive, is heard as it is. -/
theorem heard_eq {m m' : UdpMsg F} {filling : Filling} (hfits : m.Fits) (hexact : m.Exact bits float)
    (hother : ∀ entityCount records, m ≠ .globalStateSync entityCount records)
    (h : (receiveMessage (queueMessage (m.bytes bits filling))).bind (parse float) = some m') : m = m' := by
  rw [receiveMessage_bytes, Option.bind_some] at h
  obtain ⟨zeros, harray, hlen⟩ := array_eq bits filling hother
  rw [harray, parse_bytes hfits hexact hother filling zeros hlen] at h
  exact Option.some.inj h

/-- **What is heard as a `PONG` is one.** -/
theorem heard_pong {m : UdpMsg F} {filling : Filling} {timestamp : UInt32}
    (h : (receiveMessage (queueMessage (m.bytes bits filling))).bind (parse float) = some (.pong timestamp)) :
    m = .pong timestamp := by
  have h7 := head?_of_heard h
  cases m with
  | pong timestamp' => exact heard_eq trivial trivial (fun _ _ => nofun) h
  | _ => cases h7

/-- **What is heard as the departure of a player is one.** -/
theorem heard_playerDisconnect {m : UdpMsg F} {filling : Filling} {playerId : UInt32}
    (h : (receiveMessage (queueMessage (m.bytes bits filling))).bind (parse float) = some (.playerDisconnect playerId)) :
    m = .playerDisconnect playerId := by
  have h8 := head?_of_heard h
  cases m with
  | playerDisconnect playerId' => exact heard_eq trivial trivial (fun _ _ => nofun) h
  | _ => cases h8

/-- **What is heard as a kick is one.** -/
theorem heard_youHaveBeenKicked {m : UdpMsg F} {filling : Filling}
    (h : (receiveMessage (queueMessage (m.bytes bits filling))).bind (parse float) = some .youHaveBeenKicked) :
    m = .youHaveBeenKicked := by
  have h10 := head?_of_heard h
  cases m with
  | youHaveBeenKicked => rfl
  | _ => cases h10

/-- **What is heard as the state of a player is one**, with its tick. -/
theorem heard_playerState {m : UdpMsg F} {filling : Filling} {playerId sequence tick : UInt32} {x y : F}
    (h : (receiveMessage (queueMessage (m.bytes bits filling))).bind (parse float) =
      some (.playerState playerId sequence tick x y)) :
    ∃ sequence' x' y', m = .playerState playerId sequence' tick x' y' := by
  have h2 := head?_of_heard h
  rw [receiveMessage_bytes, Option.bind_some] at h
  obtain ⟨hid, htick⟩ := parse_playerState h
  cases m with
  | playerState playerId' sequence' tick' x' y' =>
    have hother : ∀ entityCount records,
        (.playerState playerId' sequence' tick' x' y' : UdpMsg F) ≠ .globalStateSync entityCount records := fun _ _ => nofun
    obtain ⟨zeros, harray, -⟩ := array_eq bits filling hother
    rw [harray] at hid htick
    refine ⟨sequence', x', y', ?_⟩
    simp only [bytes, List.cons_append, List.append_assoc, u32At_cons, u32At_le32_zero, u32At_le32] at hid htick
    rw [hid, htick]
  | _ => cases h2

end UdpMsg

/-! ## A frame -/

/-- The ticks count up from `tick`, and `next` is the one after them. -/
inductive Counted : UInt32 → List UInt32 → UInt32 → Prop
  | nil (tick : UInt32) : Counted tick [] tick
  | cons {tick next : UInt32} {ticks : List UInt32} (h : Counted (tick + 1) ticks next) : Counted tick (tick :: ticks) next

namespace Counted

variable {tick next last : UInt32} {ticks ticks' : List UInt32}

theorem append (h : Counted tick ticks next) (h' : Counted next ticks' last) : Counted tick (ticks ++ ticks') last := by
  induction h with
  | nil tick => exact h'
  | cons _ ih => exact .cons (ih h')

theorem toNat_next {t : UInt32} (h : t.toNat + 1 < 2 ^ 32) : (t + 1).toNat = t.toNat + 1 := by
  rw [UInt32.toNat_add]
  exact Nat.mod_eq_of_lt h

/-- They are numbers in a row, up to the wrap. -/
theorem lower (h : Counted tick ticks next) (hwrap : tick.toNat + ticks.length ≤ 2 ^ 32) : ∀ t ∈ ticks, tick ≤ t := by
  induction h with
  | nil tick => exact fun t ht => absurd ht List.not_mem_nil
  | @cons tick next ticks h ih =>
    intro t ht
    rcases List.mem_cons.1 ht with rfl | ht
    · exact UInt32.le_refl _
    · have hpos : 0 < ticks.length := List.length_pos_of_mem ht
      have hlen : (tick :: ticks).length = ticks.length + 1 := List.length_cons
      have hnext := toNat_next (by omega : tick.toNat + 1 < 2 ^ 32)
      have hle : tick + 1 ≤ t := ih (by omega) t ht
      rw [UInt32.le_iff_toNat_le] at hle ⊢
      omega

/-- **Up to the wrap each is above those before it.** -/
theorem strict (h : Counted tick ticks next) (hwrap : tick.toNat + ticks.length ≤ 2 ^ 32) : ticks.Pairwise (· < ·) := by
  induction h with
  | nil tick => exact .nil
  | @cons tick next ticks h ih =>
    rw [List.pairwise_cons]
    cases hticks : ticks with
    | nil => exact ⟨fun t ht => absurd ht List.not_mem_nil, .nil⟩
    | cons t ts =>
      have hlen : (tick :: ticks).length = ticks.length + 1 := List.length_cons
      have hpos : 0 < ticks.length := hticks ▸ Nat.succ_pos _
      have hnext := toNat_next (by omega : tick.toNat + 1 < 2 ^ 32)
      rw [← hticks]
      refine ⟨fun t ht => ?_, ih (by omega)⟩
      have hle : tick + 1 ≤ t := h.lower (by omega) t ht
      rw [UInt32.le_iff_toNat_le] at hle
      rw [UInt32.lt_iff_toNat_lt]
      omega

end Counted

/-- The tick of an input. -/
def ClientMsg.tick? : ClientMsg → Option UInt32
  | playerInput pkt => some pkt.tick
  | _ => none

/-- The ticks of the inputs among some messages. -/
def inputTicks (sends : List ClientMsg) : List UInt32 := sends.filterMap ClientMsg.tick?

theorem inputTicks_append (sends sends' : List ClientMsg) :
    inputTicks (sends ++ sends') = inputTicks sends ++ inputTicks sends' := List.filterMap_append

theorem inputTicks_of_forall {sends : List ClientMsg} (h : ∀ m ∈ sends, ∀ pkt, m ≠ .playerInput pkt) :
    inputTicks sends = [] := by
  refine List.filterMap_eq_nil_iff.2 fun m hm => ?_
  cases m with
  | playerInput pkt => exact absurd rfl (h _ hm pkt)
  | _ => rfl

/-- The screens that end a game. -/
def InGameStatus.endScreen : InGameStatus → Bool
  | kicked | gameOver | victory => true
  | playing | paused | options | quitting => false

namespace RTypeClient

/-- The client measures nothing, drops no input, sends its own, numbers them and keeps them; the
game is over only if it says so. -/
structure Carries (c c' : RTypeClient F) (sends : List ClientMsg) : Prop where
  me : c'.myPlayerId = c.myPlayerId
  ticks : Counted c.tick (inputTicks sends) c'.tick
  rtt : c'.rtt = c.rtt
  kept : c.pendingInputs ⊆ c'.pendingInputs
  held : ∀ pkt, .playerInput pkt ∈ sends → pkt.inputs ≠ 0 → pkt ∈ c'.pendingInputs
  own : ∀ pkt, .playerInput pkt ∈ sends → pkt.playerId = c.myPlayerId
  screen : c'.status = c.status ∨ c'.status.endScreen = false ∨
    c'.status = .gameOver ∧ .playerDisconnect c.myPlayerId ∈ sends

/-- No input is sent. -/
theorem Carries.of_eq {c c' : RTypeClient F} {sends : List ClientMsg}
    (h : c'.myPlayerId = c.myPlayerId ∧ c'.rtt = c.rtt ∧ c'.pendingInputs = c.pendingInputs) (htick : c'.tick = c.tick)
    (hscreen : c'.status = c.status ∨ c'.status.endScreen = false ∨
      c'.status = .gameOver ∧ .playerDisconnect c.myPlayerId ∈ sends)
    (hsends : ∀ m ∈ sends, ∀ pkt, m ≠ .playerInput pkt) : c.Carries c' sends := by
  refine ⟨h.1, ?_, h.2.1, h.2.2 ▸ List.Subset.refl _, fun pkt hpkt => absurd rfl (hsends _ hpkt pkt),
    fun pkt hpkt => absurd rfl (hsends _ hpkt pkt), hscreen⟩
  rw [inputTicks_of_forall hsends, htick]
  exact .nil c.tick

/-- Nothing is sent. -/
theorem Carries.of_quiet {c c' : RTypeClient F}
    (h : c'.myPlayerId = c.myPlayerId ∧ c'.rtt = c.rtt ∧ c'.pendingInputs = c.pendingInputs) (htick : c'.tick = c.tick)
    (hscreen : c'.status = c.status ∨ c'.status.endScreen = false) : c.Carries c' [] :=
  .of_eq h htick (hscreen.imp_right .inl) fun _ hm => absurd hm List.not_mem_nil

theorem Carries.refl (c : RTypeClient F) : c.Carries c [] := .of_quiet ⟨rfl, rfl, rfl⟩ rfl (.inl rfl)

theorem Carries.trans {c₁ c₂ c₃ : RTypeClient F} {sends sends' : List ClientMsg} (h : c₁.Carries c₂ sends)
    (h' : c₂.Carries c₃ sends') : c₁.Carries c₃ (sends ++ sends') := by
  refine ⟨h'.me.trans h.me, ?_, h'.rtt.trans h.rtt, List.Subset.trans h.kept h'.kept, fun pkt hpkt hne => ?_,
    fun pkt hpkt => ?_, ?_⟩
  · rw [inputTicks_append]
    exact h.ticks.append h'.ticks
  · exact (List.mem_append.1 hpkt).elim (fun hpkt => h'.kept (h.held pkt hpkt hne)) fun hpkt => h'.held pkt hpkt hne
  · exact (List.mem_append.1 hpkt).elim (h.own pkt) fun hpkt => (h'.own pkt hpkt).trans h.me
  · rcases h'.screen with hsame | hplays | ⟨hover, hleft⟩
    · rw [hsame]
      exact h.screen.imp_right fun hend => hend.imp_right fun hover => ⟨hover.1, List.mem_append_left _ hover.2⟩
    · exact .inr (.inl hplays)
    · exact .inr (.inr ⟨hover, List.mem_append_right _ (h.me ▸ hleft)⟩)

variable [FloatOps F]

theorem foldl_applyInput_rtt (pkts : List PlayerInputPacket) (c : RTypeClient F) :
    (pkts.foldl applyInput c).rtt = c.rtt := by
  refine foldl_rel (R := fun c c' : RTypeClient F => c'.rtt = c.rtt) (fun _ => rfl) (fun _ _ _ h h' => h'.trans h)
    (fun c pkt => ?_) pkts c
  unfold applyInput
  split <;> rfl

omit [FloatOps F] in
theorem chargeShot_rtt (c : RTypeClient F) (k : Keys) : (c.chargeShot k).1.rtt = c.rtt := by
  unfold chargeShot
  split
  · split <;> rfl
  · split <;> rfl

theorem sendInput_rtt (c : RTypeClient F) (k : Keys) : (c.sendInput k).1.rtt = c.rtt := by
  have hcharge := chargeShot_rtt { c with tick := c.tick + 1 } k
  unfold sendInput
  extract_lets tick
  generalize ({ c with tick := tick + 1 } : RTypeClient F).chargeShot k = charged at hcharge ⊢
  obtain ⟨c', shot⟩ := charged
  dsimp only
  split
  · exact (foldl_applyInput_rtt [_] c').trans hcharge
  · exact hcharge

theorem handleInput_carries (c : RTypeClient F) (k : Keys) :
    c.Carries (c.handleInput k).1 ((c.handleInput k).2.input.map ClientMsg.playerInput).toList := by
  unfold handleInput
  split
  · exact .of_quiet ⟨rfl, rfl, rfl⟩ rfl (.inl rfl)
  · split
    · have hrtt : (c.typeChat k).1.rtt = c.rtt := by
        unfold typeChat
        split
        · split <;> rfl
        · rfl
      have hview := c.typeChat_sameView k
      exact .of_quiet ⟨hview.myPlayerId, hrtt, hview.pendingInputs⟩ hview.tick (.inl hview.status)
    · -- the input of the frame is kept, unless it is empty
      obtain ⟨hown, htick, hme, hstatus, hnext, hpending, -⟩ := c.sendInput_spec k
      refine ⟨hme, ?_, c.sendInput_rtt k, fun pkt hpkt => ?_, fun pkt hpkt hne => ?_, fun pkt hpkt => ?_, .inl hstatus⟩
      · show Counted c.tick [(c.sendInput k).2.tick] (c.sendInput k).1.tick
        rw [htick, hnext]
        exact .cons (.nil _)
      · show pkt ∈ (c.sendInput k).1.pendingInputs
        rw [hpending]
        split
        · exact List.mem_append_left _ hpkt
        · exact hpkt
      · obtain rfl : pkt = (c.sendInput k).2 := ClientMsg.playerInput.inj (List.mem_singleton.1 hpkt)
        show (c.sendInput k).2 ∈ (c.sendInput k).1.pendingInputs
        rw [hpending, if_pos hne]
        exact List.mem_append_right _ (List.mem_singleton_self _)
      · obtain rfl : pkt = (c.sendInput k).2 := ClientMsg.playerInput.inj (List.mem_singleton.1 hpkt)
        exact hown

/-- Only a `PONG` is a measurement. -/
theorem handlePacket_rtt (c : RTypeClient F) (now : UInt32) {m : UdpMsg F} (h : ∀ timestamp, m ≠ .pong timestamp) :
    (c.handlePacket now m).rtt = c.rtt := by
  cases m with
  | playerState playerId sequence tick x y =>
    simp only [handlePacket]
    split
    · split
      · rfl
      · have hrecord : (c.recordState now sequence).rtt = c.rtt := by
          unfold recordState
          dsimp only
          split
          · rfl
          · split <;> rfl
        exact (foldl_applyInput_rtt _ _).trans hrecord
    · rfl
  | entityUpdate entityId x y =>
    simp only [handlePacket]
    split <;> rfl
  | pong timestamp => exact absurd rfl (h timestamp)
  | _ => rfl

/-- **An input is dropped when it is acknowledged.** -/
theorem handlePacket_drops (c : RTypeClient F) (now : UInt32) (m : UdpMsg F) {pkt : PlayerInputPacket}
    (h : pkt ∈ c.pendingInputs) : pkt ∈ (c.handlePacket now m).pendingInputs ∨
      ∃ sequence tick x y, m = .playerState c.myPlayerId sequence tick x y ∧ pkt.tick ≤ tick := by
  by_cases hown : m.subject = some c.myPlayerId
  swap
  · rcases c.handlePacket_sameView now m hown with hview | ⟨status, -, hstatus⟩
    · exact .inl (hview.pendingInputs ▸ h)
    · rw [hstatus]
      exact .inl h
  cases m with
  | playerState playerId sequence tick x y =>
    obtain rfl := Option.some.inj hown
    by_cases hover : c.status = .gameOver
    · rw [handlePacket, if_pos rfl, if_pos hover]
      exact .inl h
    · rw [handlePacket, if_pos rfl, if_neg hover]
      have hview := c.recordState_sameView now sequence
      obtain ⟨-, -, -, hpending, -⟩ := (c.recordState now sequence).reconcile_spec tick x y
      rw [hpending, hview.pendingInputs]
      by_cases hle : pkt.tick ≤ tick
      · exact .inr ⟨sequence, tick, x, y, rfl, hle⟩
      · left
        rw [← List.takeWhile_append_dropWhile (p := fun i => decide (i.tick ≤ tick)) (l := c.pendingInputs)] at h
        refine (List.mem_append.1 h).resolve_left fun hbefore => hle ?_
        simpa using List.mem_takeWhile_imp hbefore
  | playerDisconnect playerId => exact .inl h
  | _ => cases hown

/-- **What a packet may end.** -/
theorem handlePacket_status (c : RTypeClient F) (now : UInt32) (m : UdpMsg F) :
    (c.handlePacket now m).status = c.status ∨
      (c.handlePacket now m).status = .kicked ∧ m = .youHaveBeenKicked ∨
      (c.handlePacket now m).status = .gameOver ∧ m = .playerDisconnect c.myPlayerId := by
  cases m with
  | playerState playerId sequence tick x y =>
    left
    simp only [handlePacket]
    split
    · split
      · rfl
      · obtain ⟨-, hstatus, -⟩ := (c.recordState now sequence).reconcile_spec tick x y
        exact hstatus.trans (c.recordState_sameView now sequence).status
    · rfl
  | entityUpdate entityId x y =>
    left
    simp only [handlePacket]
    split <;> rfl
  | playerDisconnect playerId =>
    by_cases hown : playerId = c.myPlayerId
    · exact .inr (.inr ⟨if_pos hown, by rw [hown]⟩)
    · exact .inl (if_neg hown)
  | youHaveBeenKicked => exact .inr (.inl ⟨rfl, rfl⟩)
  | _ => exact .inl rfl

end RTypeClient

namespace TickingClient

variable [FloatOps F] {s : TickingClient F} {f : Frame}

omit [FloatOps F] in
/-- The menus change nothing but the status. -/
theorem menus_carries (s : TickingClient F) (f : Frame) : s.client.Carries (s.menus f).1.client (s.menus f).2 := by
  unfold menus
  split
  · cases f.choice with
    | none => exact .refl s.client
    | options => exact .of_quiet ⟨rfl, rfl, rfl⟩ rfl (.inr rfl)
    | quit =>
      exact .of_eq ⟨rfl, rfl, rfl⟩ rfl (.inr (.inl rfl)) fun m hm pkt he => by cases (List.mem_singleton.1 hm).symm.trans he
  · split
    · split
      · exact .of_quiet ⟨rfl, rfl, rfl⟩ rfl (.inr rfl)
      · exact .refl s.client
    · exact .refl s.client

theorem play_carries (s : TickingClient F) (f : Frame) : s.client.Carries (s.play f).1.client (s.play f).2 := by
  have hbefore : s.client.Carries (s.beforeCollide f).client [] := by
    unfold beforeCollide scoreTime
    cases f.escape with
    | true => simp only [if_true]; split <;> exact .of_quiet ⟨rfl, rfl, rfl⟩ rfl (.inr rfl)
    | false => simp only [Bool.false_eq_true, if_false]; split <;> exact .of_quiet ⟨rfl, rfl, rfl⟩ rfl (.inl rfl)
  have hcollide : (s.beforeCollide f).client.Carries (s.beforeCollide f).collide.1.client (s.beforeCollide f).collide.2 := by
    unfold collide
    split
    · split
      · refine .of_eq ⟨rfl, rfl, rfl⟩ rfl (.inr (.inr ⟨rfl, List.mem_singleton_self _⟩)) fun m hm pkt he => ?_
        cases (List.mem_singleton.1 hm).symm.trans he
      · exact .refl _
    · exact .refl _
  rw [play_eq]
  exact (hbefore.trans hcollide).trans ((s.beforeCollide f).collide.1.client.handleInput_carries f.keys)

theorem enter_carries (s : TickingClient F) (f : Frame) : s.client.Carries (s.enter f).1.client (s.enter f).2 := by
  have hswitch (status : InGameStatus) (hstatus : status.endScreen = false) (pressed : Bool) :
      s.client.Carries (if pressed then { s with client.status := status } else s).client [] := by
    cases pressed with
    | true => exact .of_quiet ⟨rfl, rfl, rfl⟩ rfl (.inr hstatus)
    | false => exact .refl s.client
  unfold enter
  split
  · exact s.play_carries f
  · exact hswitch .playing rfl _
  · exact hswitch .paused rfl _
  · exact hswitch .quitting rfl _
  · exact hswitch .quitting rfl _
  · exact .refl s.client
  · exact .refl s.client

/-- What the receive loop keeps, if each message does. -/
theorem receiveAll_rule {I : RTypeClient F → Prop} {ds : List (UInt32 × List UInt8)}
    (h : ∀ c now datagram m, (now, datagram) ∈ ds → (receiveMessage datagram).bind (UdpMsg.parse float) = some m →
      I c → I (c.handlePacket now m)) {c : RTypeClient F} (hc : I c) : I (receiveAll float c ds) := by
  induction ds generalizing c with
  | nil => exact hc
  | cons d ds ih =>
    obtain ⟨now, datagram⟩ := d
    cases hnone : (receiveMessage datagram).isNone with
    | true =>
      rw [receiveAll, if_pos hnone]
      exact hc
    | false =>
      rw [receiveAll_cons now ds hnone]
      refine ih (fun c now datagram m hmem => h c now datagram m (List.mem_cons_of_mem _ hmem)) ?_
      unfold RTypeClient.receive
      split
      · rename_i m hparse
        exact h c now datagram m List.mem_cons_self hparse hc
      · exact hc

/-- **What a frame keeps**: the client carries on, and handles what it hears, if it listens. -/
theorem tick_rule {I : RTypeClient F → List ClientMsg → Prop}
    (hcarry : ∀ c c' sent sends, c.Carries c' sends → I c sent → I c' (sent ++ sends))
    (hheard : updates s.client.status = true → ∀ c sent now datagram m, (now, datagram) ∈ f.datagrams →
      (receiveMessage datagram).bind (UdpMsg.parse float) = some m → I c sent → I (c.handlePacket now m) sent)
    (sent : List ClientMsg) (h : I s.client sent) :
    I (s.tick float f).1.client (sent ++ (s.tick float f).2) := by
  have henter := hcarry _ _ _ _ (s.enter_carries f) h
  have hswitch : I (s.switch float f).1.client (sent ++ (s.switch float f).2) := by
    unfold switch
    dsimp only
    split
    · rename_i hupdates
      obtain ⟨hpings, hclient⟩ := update_spec float (s.enter f).1 f
      have hping : (s.enter f).1.client.Carries { (s.enter f).1.client with
          chatHistory := (s.enter f).1.client.chatHistory ++ f.chatMessages } ((s.enter f).1.update float f).2 :=
        .of_eq ⟨rfl, rfl, rfl⟩ rfl (.inl rfl) fun m hm pkt he => by cases (hpings m hm).symm.trans he
      have hupdate : I ((s.enter f).1.update float f).1.client
          (sent ++ (s.enter f).2 ++ ((s.enter f).1.update float f).2) := by
        rw [hclient]
        exact receiveAll_rule (I := fun c => I c (sent ++ (s.enter f).2 ++ ((s.enter f).1.update float f).2))
          (fun c now datagram m hmem hparse => hheard hupdates c _ now datagram m hmem hparse) (hcarry _ _ _ _ hping henter)
      rw [List.append_assoc] at hupdate
      split
      · -- the entities of a won game are forgotten
        have hforget : ((s.enter f).1.update float f).1.client.Carries
            { ((s.enter f).1.update float f).1.client with entities := ∅ } [] :=
          .of_quiet ⟨rfl, rfl, rfl⟩ rfl (.inl rfl)
        have hforgot := hcarry _ _ _ _ hforget hupdate
        rwa [List.append_nil] at hforgot
      · exact hupdate
    · exact henter
  have hmenus := hcarry _ _ _ _ ((s.switch float f).1.menus_carries f) hswitch
  rw [List.append_assoc] at hmenus
  exact hmenus

/-- A `PING` has the time of its frame. -/
theorem ping_mem_tick {timestamp : UInt32} (h : .ping timestamp ∈ (s.tick float f).2) : timestamp = f.now := by
  have hcollide (s : TickingClient F) : .ping timestamp ∉ s.collide.2 := by
    unfold collide
    split
    · split
      · exact fun hmem => by cases List.mem_singleton.1 hmem
      · exact List.not_mem_nil
    · exact List.not_mem_nil
  have henter : .ping timestamp ∉ (s.enter f).2 := by
    unfold enter
    split
    · rw [play_eq]
      intro hmem
      rcases List.mem_append.1 hmem with hmem | hmem
      · exact hcollide _ hmem
      · obtain ⟨pkt, -, he⟩ := Option.map_eq_some_iff.1 (Option.mem_toList.1 hmem)
        cases he
    · exact List.not_mem_nil
    · exact List.not_mem_nil
    · exact List.not_mem_nil
    · exact List.not_mem_nil
    · exact List.not_mem_nil
    · exact List.not_mem_nil
  have hmenus (s : TickingClient F) : .ping timestamp ∉ (s.menus f).2 := by
    unfold menus
    split
    · cases f.choice with
      | quit => exact fun hmem => by cases List.mem_singleton.1 hmem
      | _ => exact List.not_mem_nil
    · split <;> exact List.not_mem_nil
  have hswitch : .ping timestamp ∈ (s.switch float f).2 := (List.mem_append.1 h).resolve_right (hmenus _)
  unfold switch at hswitch
  dsimp only at hswitch
  split at hswitch
  · have hpinged := (List.mem_append.1 hswitch).resolve_left henter
    exact ClientMsg.ping.inj ((update_spec float (s.enter f).1 f).1 _ hpinged)
  · exact absurd hswitch henter

end TickingClient

/-! ## Steps -/

namespace Network

variable [FloatOps F] {addr : SockAddr} {s s' : Network F}

/-- The deliveries of a step. -/
def Label.deliveries : Label → List Delivery
  | frame _ ds => ds
  | _ => []

/-- **The three kinds of steps.** -/
theorem step_cases {l : Label} (h : (machine bits float addr).step s l = some s') :
    (∃ f ds datagrams, l = .frame f ds ∧ ds.mapM (s.datagram bits addr) = some datagrams ∧
      s' = { s with
        client := (s.client.tick float { f with datagrams }).1
        sent := s.sent ++ (s.client.tick float { f with datagrams }).2 }) ∨
    (∃ index m, l = .arrive index ∧ s.sent[index]? = some m ∧
      s' = { s with
        server := ServerManager.Label.run s.server (.event (.datagram m.bytes addr))
        arrived := s.arrived ++ [m] }) ∨
    (∃ sl, l = .server sl ∧ s' = { s with server := sl.run s.server }) := by
  cases l with
  | frame f ds =>
    obtain ⟨datagrams, hds, rfl⟩ := Option.map_eq_some_iff.1 h
    exact .inl ⟨f, ds, datagrams, rfl, hds, rfl⟩
  | arrive index =>
    obtain ⟨m, hm, rfl⟩ := Option.map_eq_some_iff.1 h
    exact .inr (.inl ⟨index, m, rfl, hm, rfl⟩)
  | server sl =>
    obtain ⟨server, hserver, rfl⟩ := Option.map_eq_some_iff.1 h
    obtain ⟨rfl, -⟩ := ServerManager.step_eq_some hserver
    exact .inr (.inr ⟨sl, rfl, rfl⟩)

omit [FloatOps F] in
/-- What reaches the client is a datagram of a message for it. -/
theorem exists_delivery {ds : List Delivery} {datagrams : List (UInt32 × List UInt8)}
    (h : ds.mapM (s.datagram bits addr) = some datagrams) {now : UInt32} {datagram : List UInt8}
    (hmem : (now, datagram) ∈ datagrams) :
    ∃ d ∈ ds, ∃ m, s.server.out[d.index]? = some m ∧ m.addr = addr ∧ d.now = now ∧
      datagram = queueMessage (m.msg.bytes bits d.filling) := by
  induction ds generalizing datagrams with
  | nil =>
    obtain rfl := Option.some.inj h
    cases hmem
  | cons d ds ih =>
    simp only [List.mapM_cons, Option.bind_eq_bind, Option.bind_eq_some_iff, Option.pure_def] at h
    obtain ⟨first, hfirst, rest, hrest, he⟩ := h
    obtain rfl := Option.some.inj he
    rcases List.mem_cons.1 hmem with rfl | hmem
    · unfold Network.datagram at hfirst
      split at hfirst
      · rename_i m hm
        split at hfirst
        · rename_i haddr
          obtain ⟨rfl, rfl⟩ := Prod.mk.inj (Option.some.inj hfirst)
          exact ⟨d, List.mem_cons_self, m, hm, haddr, rfl, rfl⟩
        · cases hfirst
      · cases hfirst
    · obtain ⟨d', hd', hrest'⟩ := ih hrest hmem
      exact ⟨d', List.mem_cons_of_mem d hd', hrest'⟩

/-! ## The ping -/

/-- Nobody else sends from the address of the client. -/
def OwnAddress (addr : SockAddr) (_ : Network F) : Label → Prop
  | .server (.event (.datagram _ clientAddr)) => clientAddr ≠ addr
  | _ => True

/-- What the clock of the client shows in a step: when the frame starts, and when it handles what it
hears. -/
def Label.times : Label → List UInt32
  | frame f ds => f.now :: ds.map (·.now)
  | _ => []

/-- A frame of the run sends the message, and starts at that time. -/
def SendsAt (bits : F → UInt32) (float : UInt32 → F) (addr : SockAddr) (s₀ : Network F) (labels : List Label)
    (m : ClientMsg) (now : UInt32) : Prop :=
  ∃ u f ds u', (machine bits float addr).Takes s₀ labels u (.frame f ds) u' ∧ f.now = now ∧
    ∃ sends, u'.sent = u.sent ++ sends ∧ m ∈ sends

theorem SendsAt.append {s₀ : Network F} {labels : List Label} {m : ClientMsg} {now : UInt32}
    (h : SendsAt bits float addr s₀ labels m now) (post : List Label) :
    SendsAt bits float addr s₀ (labels ++ post) m now := by
  obtain ⟨u, f, ds, u', htakes, hsends⟩ := h
  exact ⟨u, f, ds, u', htakes.append post, hsends⟩

/-- It starts at one of the times of the clock. -/
theorem SendsAt.mem_times {s₀ : Network F} {labels : List Label} {m : ClientMsg} {now : UInt32}
    (h : SendsAt bits float addr s₀ labels m now) : now ∈ labels.flatMap Label.times := by
  obtain ⟨u, f, ds, u', ⟨pre, post, rfl, -⟩, hnow, -⟩ := h
  exact List.mem_flatMap.2 ⟨_, List.mem_append_right pre List.mem_cons_self, List.mem_cons.2 (.inl hnow.symm)⟩

/-- A `PING` that the client sent in a frame, that the server has taken, and whose answer the
client handles at a later time: in a frame that listens. -/
structure RoundTrip (bits : F → UInt32) (float : UInt32 → F) (addr : SockAddr) (s₀ : Network F) (labels : List Label)
    (arrived : List ClientMsg) (asked answered : UInt32) : Prop where
  sent : SendsAt bits float addr s₀ labels (.ping asked) asked
  taken : .ping asked ∈ arrived
  heard : ∃ u f ds u', (machine bits float addr).Takes s₀ labels u (.frame f ds) u' ∧
    TickingClient.updates u.client.client.status = true ∧ ∃ d ∈ ds, d.now = answered ∧
      ∃ m, u.server.out[d.index]? = some m ∧ m.addr = addr ∧ m.msg = .pong asked
  forward : asked ≤ answered

theorem RoundTrip.mono {s₀ : Network F} {labels : List Label} {arrived arrived' : List ClientMsg} {asked answered : UInt32}
    (h : RoundTrip bits float addr s₀ labels arrived asked answered) (post : List Label) (harrived : arrived ⊆ arrived') :
    RoundTrip bits float addr s₀ (labels ++ post) arrived' asked answered := by
  obtain ⟨u, f, ds, u', hhears, hheard⟩ := h.heard
  exact ⟨h.sent.append post, harrived h.taken, ⟨u, f, ds, u', hhears.append post, hheard⟩, h.forward⟩

/-- The time shown is that of a round trip, or none was measured. -/
def Measured (bits : F → UInt32) (float : UInt32 → F) (addr : SockAddr) (s₀ : Network F) (labels : List Label)
    (arrived : List ClientMsg) (rtt : UInt32) : Prop :=
  rtt = 0 ∨ ∃ asked answered, RoundTrip bits float addr s₀ labels arrived asked answered ∧ rtt = answered - asked

theorem Measured.mono {s₀ : Network F} {labels : List Label} {arrived arrived' : List ClientMsg} {rtt : UInt32}
    (h : Measured bits float addr s₀ labels arrived rtt) (post : List Label) (harrived : arrived ⊆ arrived') :
    Measured bits float addr s₀ (labels ++ post) arrived' rtt :=
  h.imp_right fun ⟨asked, answered, htrip, hrtt⟩ => ⟨asked, answered, htrip.mono post harrived, hrtt⟩

/-- **The invariant of the pings.** -/
structure Pings (bits : F → UInt32) (float : UInt32 → F) (addr : SockAddr) (s₀ : Network F) (labels : List Label)
    (s : Network F) : Prop where
  run : (machine bits float addr).run s₀ labels = some s
  arrived : s.arrived ⊆ s.sent
  sent : ∀ timestamp, .ping timestamp ∈ s.sent → SendsAt bits float addr s₀ labels (.ping timestamp) timestamp
  answers : s.server.Answers addr fun timestamp => .ping timestamp ∈ s.arrived
  measured : Measured bits float addr s₀ labels s.arrived s.client.client.rtt

/-- What a frame hears as a `PONG` is the answer to an earlier `PING`. -/
theorem measured_frame {s₀ : Network F} {labels : List Label} (h : Pings bits float addr s₀ labels s) (f : Frame)
    {ds : List Delivery} {datagrams : List (UInt32 × List UInt8)} (hds : ds.mapM (s.datagram bits addr) = some datagrams)
    (hs : (machine bits float addr).step s (.frame f ds) = some s')
    (hclock : ((labels ++ [Label.frame f ds]).flatMap Label.times).Pairwise (· ≤ ·)) :
    Measured bits float addr s₀ (labels ++ [.frame f ds]) s.arrived
      (s.client.tick float { f with datagrams }).1.client.rtt := by
  refine TickingClient.tick_rule (I := fun c _ => Measured bits float addr s₀ (labels ++ [.frame f ds]) s.arrived c.rtt)
    (fun c c' sent sends hcarries hc => by rwa [hcarries.rtt]) ?_ s.sent (h.measured.mono _ (List.Subset.refl _))
  intro hupdates c sent now datagram m hmem hparse hc
  by_cases hpong : ∃ timestamp, m = .pong timestamp
  · obtain ⟨timestamp, rfl⟩ := hpong
    obtain ⟨d, hd, m, hm, haddr, rfl, rfl⟩ := exists_delivery hds hmem
    have hmsg : m.msg = .pong timestamp := UdpMsg.heard_pong hparse
    have harrived := h.answers.out m (List.mem_of_getElem? hm) timestamp hmsg haddr
    have hsends := h.sent timestamp (h.arrived harrived)
    have hanswered : d.now ∈ [Label.frame f ds].flatMap Label.times :=
      List.mem_flatMap.2 ⟨_, List.mem_singleton_self _, List.mem_cons_of_mem _ (List.mem_map_of_mem hd)⟩
    rw [List.flatMap_append] at hclock
    have hle : timestamp ≤ d.now := (List.pairwise_append.1 hclock).2.2 _ hsends.mem_times _ hanswered
    exact .inr ⟨timestamp, d.now, ⟨hsends.append _, harrived,
      ⟨s, f, ds, s', Machine.takes_last h.run hs, hupdates, d, hd, rfl, m, hm, haddr, hmsg⟩, hle⟩, rfl⟩
  · rw [c.handlePacket_rtt now fun timestamp he => hpong ⟨timestamp, he⟩]
    exact hc

theorem pings_step {s₀ : Network F} {labels : List Label} {l : Label} (h : Pings bits float addr s₀ labels s)
    (haddr : OwnAddress addr s l) (hclock : ((labels ++ [l]).flatMap Label.times).Pairwise (· ≤ ·))
    (hs : (machine bits float addr).step s l = some s') : Pings bits float addr s₀ (labels ++ [l]) s' := by
  have hrun : (machine bits float addr).run s₀ (labels ++ [l]) = some s' := (Machine.run_snoc_iff _).2 ⟨s, h.run, hs⟩
  have hsent : ∀ timestamp, .ping timestamp ∈ s.sent →
      SendsAt bits float addr s₀ (labels ++ [l]) (.ping timestamp) timestamp :=
    fun timestamp hping => (h.sent timestamp hping).append [l]
  rcases step_cases hs with ⟨f, ds, datagrams, rfl, hds, rfl⟩ | ⟨index, m, rfl, hm, rfl⟩ | ⟨sl, rfl, rfl⟩
  · refine ⟨hrun, fun m hm => List.mem_append_left _ (h.arrived hm), fun timestamp hping => ?_, h.answers, ?_⟩
    · rcases List.mem_append.1 hping with hping | hping
      · exact hsent timestamp hping
      · exact ⟨s, f, ds, _, Machine.takes_last h.run hs, (TickingClient.ping_mem_tick hping).symm, _, rfl, hping⟩
    · exact measured_frame h f hds hs hclock
  · have hgrow : s.arrived ⊆ s.arrived ++ [m] := List.subset_append_left _ _
    have hanswers : ServerManager.Answers addr (fun timestamp => .ping timestamp ∈ s.arrived ++ [m])
        (ServerManager.Label.run s.server (.event (.datagram m.bytes addr))) := by
      refine ServerManager.answers_run (h.answers.mono fun timestamp hping => hgrow hping) ?_
      intro data timestamp hdata hparse
      obtain ⟨rfl, -⟩ := ServerManager.Event.datagram.inj (ServerManager.Label.event.inj hdata)
      rw [ClientMsg.parse_bytes] at hparse
      rw [Option.some.inj hparse]
      exact List.mem_append_right _ (List.mem_singleton_self _)
    refine ⟨hrun, fun m' hm' => ?_, hsent, hanswers, h.measured.mono _ hgrow⟩
    rcases List.mem_append.1 hm' with hm' | hm'
    · exact h.arrived hm'
    · rw [List.mem_singleton.1 hm']
      exact List.mem_of_getElem? hm
  · refine ⟨hrun, h.arrived, hsent, ?_, h.measured.mono _ (List.Subset.refl _)⟩
    refine ServerManager.answers_run h.answers fun data timestamp hdata _ => ?_
    subst hdata
    exact absurd rfl haddr

theorem pings_start (playerId serverTimeMs : UInt32) :
    Pings bits float addr (start playerId serverTimeMs) [] (start playerId serverTimeMs : Network F) := by
  refine ⟨rfl, fun m hm => absurd hm List.not_mem_nil, fun timestamp hping => ?_, ServerManager.holds_init, .inl rfl⟩
  cases List.mem_singleton.1 hping

/-- **The round trip time that the client shows is that of a `PING` of its own**, however the
network behaves, if nobody else sends from its address and its clock does not run backwards. -/
theorem pings_answered (playerId serverTimeMs : UInt32) (labels : List Label) {s : Network F}
    (hr : (machine bits float addr).run (start playerId serverTimeMs) labels = some s)
    (haddr : (machine bits float addr).Along (OwnAddress addr) (start playerId serverTimeMs) labels)
    (hclock : (labels.flatMap Label.times).Pairwise (· ≤ ·)) :
    Measured bits float addr (start playerId serverTimeMs) labels s.arrived s.client.client.rtt := by
  refine (Machine.inv_history (J := fun pre s => (pre.flatMap Label.times).Pairwise (· ≤ ·) →
    Pings bits float addr (start playerId serverTimeMs) pre s) ?_ labels _ s
      (fun _ => pings_start playerId serverTimeMs) haddr hr hclock).measured
  intro pre t l t' h hown hs hpre
  have hbefore : (pre.flatMap Label.times).Pairwise (· ≤ ·) := by
    rw [List.flatMap_append] at hpre
    exact (List.pairwise_append.1 hpre).1
  exact pings_step (h hbefore) hown hpre hs

/-- Where the client of the runs below sends from. -/
def home : SockAddr := ⟨7, 0⟩

/-- A frame sends a `PING`, which arrives, and the next frame hears the answer. -/
def pinged : List Label :=
  [.frame { Sender.idle [] with now := 2000 } [], .arrive 2,
    .frame { Sender.idle [] with now := 2016 } [⟨2030, 0, ⟨0, []⟩⟩]]

open RTypeClient (shotBits shotFloat) in
theorem pings_answered_pinged : ∃ s : Network ℚ, (machine shotBits shotFloat home).run (start 1 0) pinged = some s ∧
    s.client.client.rtt = 30 ∧ Measured shotBits shotFloat home (start 1 0) pinged s.arrived s.client.client.rtt := by
  have hrtt : ((machine shotBits shotFloat home).run (start 1 0 : Network ℚ) pinged).map (·.client.client.rtt) =
      some 30 := by decide +kernel
  obtain ⟨s, hr, hs⟩ := Option.map_eq_some_iff.1 hrtt
  have hown : (machine shotBits shotFloat home).Along (OwnAddress home) (start 1 0) pinged :=
    .cons rfl trivial (.cons rfl trivial (.cons rfl trivial .nil))
  exact ⟨s, hr, hs, pings_answered 1 0 pinged hr hown (by decide)⟩

/-! ## The inputs -/

/-- Nobody else sends an input in the name of the player. -/
def OwnName (playerId : UInt32) (_ : Network F) : Label → Prop
  | .server (.event (.datagram data _)) => ∀ pkt, ClientMsg.parse data = some (.playerInput pkt) → pkt.playerId ≠ playerId
  | _ => True

/-- The server has taken an input of this tick or a higher one; tick 0 needs none. -/
def Reached (arrived : List ClientMsg) (tick : UInt32) : Prop :=
  tick = 0 ∨ ∃ pkt, .playerInput pkt ∈ arrived ∧ tick ≤ pkt.tick

/-- The server has taken this input of the client, or one that the client sent after it. -/
def Taken (s : Network F) (i : ℕ) : Prop :=
  ∃ j, i ≤ j ∧ ∃ pkt, s.sent[j]? = some (.playerInput pkt) ∧ .playerInput pkt ∈ s.arrived

/-- Each input is kept until it, or a later one, is taken, unless it is empty. -/
def InputsAcknowledged (s : Network F) : Prop :=
  ∀ i pkt, s.sent[i]? = some (.playerInput pkt) → pkt.inputs ≠ 0 → pkt ∈ s.client.client.pendingInputs ∨ s.Taken i

/-- **The invariant of the inputs.** -/
structure Inputs (playerId serverTimeMs : UInt32) (s : Network F) : Prop where
  me : s.client.client.myPlayerId = playerId
  arrived : s.arrived ⊆ s.sent
  /-- The first packet is numbered 0, and the inputs count up from the time of the handshake. -/
  counted : ∃ sends, s.sent = .playerInput (RTypeClient.firstPacket playerId) :: sends ∧
    Counted serverTimeMs (inputTicks sends) s.client.client.tick
  acknowledges : s.server.Acknowledges playerId (Reached s.arrived)
  reached : ∀ pkt, .playerInput pkt ∈ s.sent → pkt.inputs ≠ 0 →
    pkt ∈ s.client.client.pendingInputs ∨ Reached s.arrived pkt.tick

theorem Reached.of_le {arrived : List ClientMsg} {tick tick' : UInt32} (h : Reached arrived tick') (hle : tick ≤ tick') :
    Reached arrived tick := by
  rcases h with rfl | ⟨pkt, hpkt, hlater⟩
  · exact .inl (UInt32.le_zero_iff.1 hle)
  · exact .inr ⟨pkt, hpkt, UInt32.le_trans hle hlater⟩

theorem Reached.mono {arrived arrived' : List ClientMsg} {tick : UInt32} (h : Reached arrived tick)
    (hsub : arrived ⊆ arrived') : Reached arrived' tick :=
  h.imp_right fun ⟨pkt, hpkt, hle⟩ => ⟨pkt, hsub hpkt, hle⟩

/-- **An input is kept until it is reached**, whatever the client hears in a frame. -/
theorem inputs_frame (float : UInt32 → F) {playerId serverTimeMs : UInt32} (f : Frame) {ds : List Delivery}
    {datagrams : List (UInt32 × List UInt8)} (h : Inputs playerId serverTimeMs s)
    (hds : ds.mapM (s.datagram bits addr) = some datagrams) :
    Inputs playerId serverTimeMs { s with
      client := (s.client.tick float { f with datagrams }).1
      sent := s.sent ++ (s.client.tick float { f with datagrams }).2 } := by
  suffices hframe : (s.client.tick float { f with datagrams }).1.client.myPlayerId = playerId ∧
      (∃ sends, s.sent ++ (s.client.tick float { f with datagrams }).2 =
        .playerInput (RTypeClient.firstPacket playerId) :: sends ∧
          Counted serverTimeMs (inputTicks sends) (s.client.tick float { f with datagrams }).1.client.tick) ∧
      ∀ pkt, .playerInput pkt ∈ s.sent ++ (s.client.tick float { f with datagrams }).2 → pkt.inputs ≠ 0 →
        pkt ∈ (s.client.tick float { f with datagrams }).1.client.pendingInputs ∨ Reached s.arrived pkt.tick by
    exact ⟨hframe.1, fun m hm => List.mem_append_left _ (h.arrived hm), hframe.2.1, h.acknowledges, hframe.2.2⟩
  refine TickingClient.tick_rule (I := fun c sent => c.myPlayerId = playerId ∧
    (∃ sends, sent = .playerInput (RTypeClient.firstPacket playerId) :: sends ∧
      Counted serverTimeMs (inputTicks sends) c.tick) ∧
    ∀ pkt, ClientMsg.playerInput pkt ∈ sent → pkt.inputs ≠ 0 → pkt ∈ c.pendingInputs ∨ Reached s.arrived pkt.tick)
      ?_ ?_ s.sent ⟨h.me, h.counted, h.reached⟩
  · rintro c c' sent sends hcarries ⟨hme, ⟨earlier, rfl, hcounted⟩, hreached⟩
    refine ⟨hcarries.me.trans hme, ⟨earlier ++ sends, rfl, ?_⟩, fun pkt hpkt hne => ?_⟩
    · rw [inputTicks_append]
      exact hcounted.append hcarries.ticks
    · rcases List.mem_append.1 hpkt with hpkt | hpkt
      · exact (hreached pkt hpkt hne).imp_left fun hpending => hcarries.kept hpending
      · exact .inl (hcarries.held pkt hpkt hne)
  · rintro - c sent now datagram m hmem hparse ⟨hme, hcounted, hreached⟩
    obtain ⟨hme', htick, -⟩ := c.handlePacket_inputs now m
    refine ⟨hme'.trans hme, htick ▸ hcounted, fun pkt hpkt hne => ?_⟩
    rcases hreached pkt hpkt hne with hpending | hdone
    · -- what drops it is a state that the server queued
      refine (c.handlePacket_drops now m hpending).imp_right fun ⟨sequence, tick, x, y, he, hle⟩ => ?_
      subst he
      obtain ⟨d, -, m, hm, -, -, rfl⟩ := exists_delivery hds hmem
      obtain ⟨sequence', x', y', hmsg⟩ := UdpMsg.heard_playerState hparse
      rw [hme] at hmsg
      exact (h.acknowledges.out m (List.mem_of_getElem? hm) sequence' tick x' y' hmsg).of_le hle
    · exact .inr hdone

theorem inputs_step {playerId serverTimeMs : UInt32} {l : Label} (h : Inputs playerId serverTimeMs s)
    (hname : OwnName playerId s l) (hs : (machine bits float addr).step s l = some s') : Inputs playerId serverTimeMs s' := by
  rcases step_cases hs with ⟨f, ds, datagrams, rfl, hds, rfl⟩ | ⟨index, m, rfl, hm, rfl⟩ | ⟨sl, rfl, rfl⟩
  · exact inputs_frame float f h hds
  · have hmono : ∀ tick, Reached s.arrived tick → Reached (s.arrived ++ [m]) tick :=
      fun tick hreached => hreached.mono (List.subset_append_left _ _)
    have hacknowledges : ServerManager.Acknowledges playerId (Reached (s.arrived ++ [m]))
        (ServerManager.Label.run s.server (.event (.datagram m.bytes addr))) := by
      refine ServerManager.acknowledges_run (h.acknowledges.mono hmono) (.inl rfl) ?_
      intro data clientAddr pkt hdata hparse _
      obtain ⟨rfl, -⟩ := ServerManager.Event.datagram.inj (ServerManager.Label.event.inj hdata)
      rw [ClientMsg.parse_bytes] at hparse
      obtain rfl := Option.some.inj hparse
      exact .inr ⟨pkt, List.mem_append_right _ (List.mem_singleton_self _), UInt32.le_refl _⟩
    have harrived : s.arrived ++ [m] ⊆ s.sent :=
      List.append_subset.2 ⟨h.arrived, List.cons_subset.2 ⟨List.mem_of_getElem? hm, List.nil_subset _⟩⟩
    exact ⟨h.me, harrived, h.counted, hacknowledges,
      fun pkt hpkt hne => (h.reached pkt hpkt hne).imp_right (hmono pkt.tick)⟩
  · refine ⟨h.me, h.arrived, h.counted, ?_, h.reached⟩
    refine ServerManager.acknowledges_run h.acknowledges (.inl rfl) fun data clientAddr pkt hdata hparse hid => ?_
    subst hdata
    exact absurd hid (hname pkt hparse)

theorem inputs_start (playerId serverTimeMs : UInt32) :
    Inputs playerId serverTimeMs (start playerId serverTimeMs : Network F) := by
  refine ⟨rfl, List.nil_subset _, ⟨[], rfl, .nil _⟩, ServerManager.holds_init, fun pkt hpkt hne => ?_⟩
  obtain rfl := ClientMsg.playerInput.inj (List.mem_singleton.1 hpkt)
  exact absurd rfl hne

omit [FloatOps F] in
/-- **The ticks of what was sent increase**, up to the wrap. -/
theorem Inputs.sorted {playerId serverTimeMs : UInt32} (h : Inputs playerId serverTimeMs s) (hpos : 0 < serverTimeMs)
    (hwrap : serverTimeMs.toNat + (inputTicks s.sent).length ≤ 2 ^ 32) : (inputTicks s.sent).Pairwise (· < ·) := by
  obtain ⟨sends, hsent, hcounted⟩ := h.counted
  have hticks : inputTicks s.sent = 0 :: inputTicks sends := by
    rw [hsent]
    rfl
  rw [hticks, List.length_cons] at hwrap
  have hbound : serverTimeMs.toNat + (inputTicks sends).length ≤ 2 ^ 32 := by omega
  rw [hticks]
  exact List.pairwise_cons.2 ⟨fun t ht => UInt32.lt_of_lt_of_le hpos (hcounted.lower hbound t ht), hcounted.strict hbound⟩

omit [FloatOps F] in
/-- **Where the ticks increase, what is reached is taken.** -/
theorem Inputs.taken {playerId serverTimeMs : UInt32} (h : Inputs playerId serverTimeMs s)
    (hsorted : (inputTicks s.sent).Pairwise (· < ·)) {i : ℕ} {pkt : PlayerInputPacket}
    (hi : s.sent[i]? = some (.playerInput pkt)) (hne : pkt.inputs ≠ 0) (hreached : Reached s.arrived pkt.tick) :
    s.Taken i := by
  have hbefore : ∀ {j k : ℕ} {p q : PlayerInputPacket}, j < k → s.sent[j]? = some (.playerInput p) →
      s.sent[k]? = some (.playerInput q) → p.tick < q.tick := by
    intro j k p q hjk hj hk
    have hpairs := List.pairwise_filterMap.1 hsorted
    obtain ⟨hj', hp⟩ := List.getElem?_eq_some_iff.1 hj
    obtain ⟨hk', hq⟩ := List.getElem?_eq_some_iff.1 hk
    exact List.pairwise_iff_getElem.1 hpairs j k hj' hk' hjk p.tick (hp ▸ rfl) q.tick (hq ▸ rfl)
  rcases hreached with hzero | ⟨pkt', hpkt', hle⟩
  · -- only the first packet has tick 0, and it is empty
    obtain ⟨sends, hsent, -⟩ := h.counted
    have hfirst : s.sent[0]? = some (.playerInput (RTypeClient.firstPacket playerId)) := by
      rw [hsent]
      rfl
    rcases Nat.eq_zero_or_pos i with rfl | hpos
    · obtain rfl := ClientMsg.playerInput.inj (Option.some.inj (hfirst.symm.trans hi))
      exact absurd rfl hne
    · have hlt := hbefore hpos hfirst hi
      rw [hzero] at hlt
      exact absurd hlt (UInt32.lt_irrefl 0)
  · obtain ⟨j, hj⟩ := List.mem_iff_getElem?.1 (h.arrived hpkt')
    refine ⟨j, Nat.le_of_not_lt fun hlt => ?_, pkt', hj, hpkt'⟩
    exact UInt32.not_lt.2 hle (hbefore hlt hj hi)

/-- **An input is dropped only if the server has taken it, or a later one of the client**, however
the network behaves, if nobody else sends inputs in the name of the player, the time of the
handshake is not 0 and the tick does not wrap. -/
theorem inputs_acknowledged (playerId serverTimeMs : UInt32) (labels : List Label) {s : Network F}
    (hr : (machine bits float addr).run (start playerId serverTimeMs) labels = some s)
    (hname : (machine bits float addr).Along (OwnName playerId) (start playerId serverTimeMs) labels)
    (hpos : 0 < serverTimeMs) (hwrap : serverTimeMs.toNat + (inputTicks s.sent).length ≤ 2 ^ 32) :
    s.InputsAcknowledged := by
  have hinputs : Inputs playerId serverTimeMs s := Machine.inv_along (fun _ _ _ h hC hs => inputs_step h hC hs) labels _ s
    (inputs_start playerId serverTimeMs) hname hr
  intro i pkt hi hne
  exact (hinputs.reached pkt (List.mem_of_getElem? hi) hne).imp_right (hinputs.taken (hinputs.sorted hpos hwrap) hi hne)

/-- Player 1 is in a game that has started. It moves, its input arrives, and the next frame, in
which it moves again, hears of it. The second input is lost. -/
def acknowledged : List Label :=
  [.server (.call .onCreateRoom ⟨0, 0⟩), .server (.call (.onJoinRoom 0 1 [65]) ⟨0, 0⟩),
    .server (.call (.onStartGame 0 1) ⟨0, 0⟩), .frame { Sender.idle [] with keys := Link.rightKey true } [], .arrive 1,
    .server (.event (.pass fun _ => ⟨0, 0, 0, 0, 0⟩)),
    .frame { Sender.idle [] with keys := Link.rightKey true } [⟨0, 0, ⟨0, []⟩⟩]]

open RTypeClient (shotBits shotFloat) in
theorem inputs_acknowledged_acknowledged : ∃ s : Network ℚ,
    (machine shotBits shotFloat home).run (start 1 5) acknowledged = some s ∧ inputTicks s.sent = [0, 5, 6] ∧
      s.client.client.pendingInputs.map (·.tick) = [6] ∧ s.InputsAcknowledged := by
  have hseen : ((machine shotBits shotFloat home).run (start 1 5 : Network ℚ) acknowledged).map
      (fun s => (inputTicks s.sent, s.client.client.pendingInputs.map (·.tick))) = some ([0, 5, 6], [6]) := by decide +kernel
  obtain ⟨s, hr, hs⟩ := Option.map_eq_some_iff.1 hseen
  obtain ⟨hticks, hpending⟩ := Prod.mk.inj hs
  refine ⟨s, hr, hticks, hpending, inputs_acknowledged 1 5 acknowledged hr (Machine.along_of_mem fun l hl _ => ?_)
    (by decide) (by rw [hticks]; decide)⟩
  simp only [acknowledged, List.mem_cons, List.not_mem_nil, or_false] at hl
  rcases hl with rfl | rfl | rfl | rfl | rfl | rfl | rfl <;> trivial

end Network

end RType

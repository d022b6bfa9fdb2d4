import RType.Proof.Agreement
import RType.Proof.Network

/-!
# How a game ends for a client

A client shows one of three screens when its game is over. What it hears comes over UDP, and
anybody may send datagrams to the server; yet it shows none of them for nothing.

* `Game.Homes`: nobody but the player itself is reached at its address.
* `Room.ends_act`, `ends_run`: what is queued for that address, act by act and label by label.
* `endings_true`: **kicked only if the shell kicked the player, game over only if the client has
  left**; and the victory screen is never shown.
-/

namespace RType

open Lts

variable {F : Type*} {own : UInt32} {addr : SockAddr} {K : Prop}

/-- Nobody but the player is reached at the address. -/
def Game.Homes (own : UInt32) (addr : SockAddr) (game : Game F) : Prop :=
  ∀ c ∈ game.players.map Player.contact, c.2 = some addr → c.1 = own

/-- What goes to the address is a kick only with a reason, and never says that the player left. -/
def Sent.Ends (own : UInt32) (addr : SockAddr) (K : Prop) (x : Sent F) : Prop :=
  x.addr = addr → (x.msg = .youHaveBeenKicked → K) ∧ x.msg ≠ .playerDisconnect own

/-! ## One room -/

namespace Room

variable {r r' : Room F}

theorem ends_of_posts (h : r.Holds (Game.Homes own addr) (Sent.Ends own addr K)) (hcontacts : r'.contacts = r.contacts)
    (hposts : r.Posts (fun m => m ≠ .youHaveBeenKicked ∧ m ≠ .playerDisconnect own) r') :
    r'.Holds (Game.Homes own addr) (Sent.Ends own addr K) := by
  obtain ⟨new, hnew, hplain⟩ := hposts
  refine ⟨fun c hc => h.game c ?_, fun x hx haddr => ?_⟩
  · show c ∈ r.contacts
    rw [← hcontacts]
    exact hc
  · rw [hnew] at hx
    rcases List.mem_append.1 hx with hx | hx
    · exact h.out x hx haddr
    · exact ⟨fun hkicked => absurd hkicked (hplain x hx).1, (hplain x hx).2⟩

/-- The players change, and nothing is queued. -/
theorem ends_of_players (h : r.Holds (Game.Homes own addr) (Sent.Ends own addr K)) {game : Game F}
    (hgame : game.Homes own addr) : Room.Holds (Game.Homes own addr) (Sent.Ends own addr K) { r with game } :=
  ⟨hgame, h.out⟩

theorem moving_plays : UdpMsg.Moving fun m : UdpMsg F => m ≠ .youHaveBeenKicked ∧ m ≠ .playerDisconnect own where
  playerState _ _ _ _ _ := ⟨by simp, by simp⟩
  entitySpawn _ _ _ _ := ⟨by simp, by simp⟩
  entityUpdate _ _ _ := ⟨by simp, by simp⟩
  entityDestroy _ := ⟨by simp, by simp⟩

/-- Only the player itself hears at its address. -/
theorem id_of_announced {game : Game F} (hgame : game.Homes own addr) {ps : List (Player F)} (hps : ps ⊆ game.players)
    {ms : List (UdpMsg F)} {x : Sent F} (hx : x ∈ announce ps ms) (haddr : x.addr = addr) :
    ∃ d ∈ ps, d.id = own ∧ x.msg ∈ ms := by
  obtain ⟨d, hd, hset, msg, hmsg, rfl⟩ := mem_announce.1 hx
  have hcontact : d.contact.2 = some addr := by
    rw [Player.contact, if_pos hset]
    exact congrArg some haddr
  exact ⟨d, hd, hgame d.contact (List.mem_map_of_mem (hps hd)) hcontact, hmsg⟩

theorem homes_filter {game : Game F} (hgame : game.Homes own addr) (p : UInt32) :
    (game.removePlayerFromLobby p).Homes own addr := by
  intro c hc
  obtain ⟨q, hq, rfl⟩ := List.mem_map.1 hc
  exact hgame _ (List.mem_map_of_mem (List.mem_filter.1 hq).1)

/-- A player that is gone is not told that it is. -/
theorem ends_disconnectPlayer (h : r.Holds (Game.Homes own addr) (Sent.Ends own addr K)) (p : UInt32) :
    (r.disconnectPlayer p).Holds (Game.Homes own addr) (Sent.Ends own addr K) := by
  refine ⟨homes_filter h.game p, fun x hx haddr => ?_⟩
  rcases List.mem_append.1 hx with hx | hx
  · exact h.out x hx haddr
  · have hsub : r.game.players.filter (·.id != p) ⊆ r.game.players := fun q hq => (List.mem_filter.1 hq).1
    obtain ⟨d, hd, hid, hmsg⟩ := id_of_announced h.game hsub hx haddr
    rw [List.mem_singleton.1 hmsg]
    refine ⟨by simp, fun hleft => ?_⟩
    -- it is told that another player left
    have hne : d.id ≠ p := by simpa using (List.mem_filter.1 hd).2
    exact hne (hid.trans (UdpMsg.playerDisconnect.inj hleft).symm)

/-- The last message to a player that is kicked. -/
theorem ends_kickPlayer (h : r.Holds (Game.Homes own addr) (Sent.Ends own addr K)) {p : UInt32} (hK : p = own → K) :
    (r.kickPlayer p).Holds (Game.Homes own addr) (Sent.Ends own addr K) := by
  have htold : Room.Holds (Game.Homes own addr) (Sent.Ends own addr K)
      { r with out := r.out ++ announce (r.game.players.find? (·.id == p)).toList [.youHaveBeenKicked] } := by
    refine ⟨h.game, fun x hx haddr => ?_⟩
    rcases List.mem_append.1 hx with hx | hx
    · exact h.out x hx haddr
    · have hsub : (r.game.players.find? (·.id == p)).toList ⊆ r.game.players := fun q hq =>
        List.mem_of_find?_eq_some (Option.mem_toList.1 hq)
      obtain ⟨d, hd, hid, hmsg⟩ := id_of_announced h.game hsub hx haddr
      rw [List.mem_singleton.1 hmsg]
      refine ⟨fun _ => hK ?_, by simp⟩
      have hp : d.id = p := by simpa using List.find?_some (Option.mem_toList.1 hd)
      exact hp.symm.trans hid
  exact ends_disconnectPlayer htold p

/-- A player gets the address of its first datagram. -/
theorem homes_updatePlayerUdpAddr (hgame : r.game.Homes own addr) {p : UInt32} {addr' : SockAddr}
    (haddr : addr' = addr → p = own) : (r.game.updatePlayerUdpAddr p addr').Homes own addr := by
  cases hg : r.game.getPlayer p with
  | none =>
    rw [Game.updatePlayerUdpAddr, hg]
    exact hgame
  | some slot =>
    intro c hc hreached
    obtain ⟨q, hq, rfl⟩ := List.mem_map.1 hc
    obtain ⟨i, hi⟩ := List.mem_iff_getElem?.1 hq
    simp only [Game.updatePlayerUdpAddr, hg] at hi
    rw [List.getElem?_modify] at hi
    obtain ⟨q', hq', he⟩ := Option.map_eq_some_iff.1 hi
    have hold := hgame q'.contact (List.mem_map_of_mem (List.mem_of_getElem? hq'))
    split at he
    · rename_i hslot
      subst hslot he
      split at hreached
      · rename_i hset
        rw [if_pos hset]
        exact hold hreached
      · rename_i hset
        rw [if_neg hset]
        exact (id_of_getPlayer hg hq').trans (haddr (Option.some.inj hreached))
    · obtain rfl : q' = q := he
      exact hold hreached

variable [FloatOps F]

/-- **What an act on a room tells a client of its end.** -/
theorem ends_act (h : r.Holds (Game.Homes own addr) (Sent.Ends own addr K)) (a : RoomAct)
    (hinput : ∀ pkt, a = .input pkt addr → pkt.playerId = own) (hkick : a = .kick own → K) :
    (a.run r).Holds (Game.Homes own addr) (Sent.Ends own addr K) := by
  cases a with
  | join p username =>
    simp only [RoomAct.run, Room.join]
    split
    · refine ends_of_players h fun c hc hreached => ?_
      obtain ⟨q, hq, rfl⟩ := List.mem_map.1 hc
      rcases List.mem_append.1 hq with hq | hq
      · exact h.game _ (List.mem_map_of_mem hq) hreached
      · rw [List.mem_singleton.1 hq] at hreached
        cases hreached
    · exact h
  | leave p => exact ends_of_players h (homes_filter h.game p)
  | start p =>
    simp only [RoomAct.run, Room.start]
    split
    · exact ends_of_players h h.game
    · exact h
  | input pkt addr' =>
    refine GameThreads.handlePlayerInput_rule (I := fun r => r.Holds (Game.Homes own addr) (Sent.Ends own addr K))
      (fun memory op r hr => ends_of_posts hr (op.publishes _ memory r).contacts (op.posts moving_plays _ memory r)) ?_
    refine ends_of_players h (homes_updatePlayerUdpAddr h.game fun haddr => ?_)
    exact hinput pkt (by rw [haddr])
  | disconnect p => exact ends_disconnectPlayer h p
  | kick p => exact ends_kickPlayer h fun hp => hkick (by rw [hp])
  | update env =>
    refine GameThreads.update_rule (I := fun r => r.Holds (Game.Homes own addr) (Sent.Ends own addr K))
      (fun env pc r hr => ?_) env h
    refine ends_of_posts hr (pc.publishes env r).contacts (pc.posts moving_plays ?_ ?_ env r)
    · exact fun _ _ => ⟨by simp, by simp⟩
    · exact fun _ _ => ⟨by simp, by simp⟩

end Room

/-! ## The server -/

/-- **What a label tells a client of its end**: a kick of its player, and nothing else. -/
theorem ServerManager.ends_run [FloatOps F] {m : ServerManager F}
    (h : m.Holds (Game.Homes own addr) (Sent.Ends own addr K)) {l : Label}
    (hinput : ∀ data pkt, l = .event (.datagram data addr) → ClientMsg.parse data = some (.playerInput pkt) →
      pkt.playerId = own) (hkick : l = .event (.command (.kick own)) → K) :
    (l.run m).Holds (Game.Homes own addr) (Sent.Ends own addr K) := by
  refine Holds.run h (fun _ c hc => absurd hc List.not_mem_nil) (fun x hx _ => ?_) fun roomId a ha r hr =>
    Room.ends_act hr a (fun pkt he => ?_) fun he => ?_
  · obtain ⟨-, timestamp, -, -, hpong⟩ := mem_pongs hx
    rw [hpong]
    exact ⟨by simp, by simp⟩
  · subst he
    cases causes_of_mem_acts ha with
    | input hparse => exact hinput _ pkt rfl hparse
  · subst he
    cases causes_of_mem_acts ha with
    | kick p => exact hkick rfl

/-! ## Client and server -/

namespace Network

variable [FloatOps F] {bits : F → UInt32} {float : UInt32 → F} {s s' : Network F}

/-- The shell has kicked the player. -/
def Kicked (own : UInt32) (labels : List Label) : Prop := .server (.event (.command (.kick own))) ∈ labels

/-- What a client shows, and why. -/
structure Shows (own : UInt32) (K : Prop) (c : RTypeClient F) (sent : List ClientMsg) : Prop where
  me : c.myPlayerId = own
  inputs : ∀ pkt, .playerInput pkt ∈ sent → pkt.playerId = own
  kicked : c.status = .kicked → K
  gameOver : c.status = .gameOver → .playerDisconnect own ∈ sent
  victory : c.status ≠ .victory

omit [FloatOps F] in
theorem Shows.mono {c : RTypeClient F} {sent : List ClientMsg} {K' : Prop} (h : Shows own K c sent) (hK : K → K') :
    Shows own K' c sent :=
  ⟨h.me, h.inputs, fun hkicked => hK (h.kicked hkicked), h.gameOver, h.victory⟩

omit [FloatOps F] in
/-- Of its own accord a client shows only that it has left. -/
theorem Shows.carries {c c' : RTypeClient F} {sent sends : List ClientMsg} (h : Shows own K c sent)
    (hcarries : c.Carries c' sends) : Shows own K c' (sent ++ sends) := by
  have hinputs : ∀ pkt, .playerInput pkt ∈ sent ++ sends → pkt.playerId = own := fun pkt hpkt =>
    (List.mem_append.1 hpkt).elim (h.inputs pkt) fun hpkt => (hcarries.own pkt hpkt).trans h.me
  rcases hcarries.screen with hsame | hplays | ⟨hover, hleft⟩
  · refine ⟨hcarries.me.trans h.me, hinputs, ?_, fun hover => List.mem_append_left _ (h.gameOver (hsame.symm.trans hover)), ?_⟩
    · rw [hsame]
      exact h.kicked
    · rw [hsame]
      exact h.victory
  · refine ⟨hcarries.me.trans h.me, hinputs, fun hkicked => ?_, fun hover => ?_, fun hvictory => ?_⟩
    · rw [hkicked] at hplays
      cases hplays
    · rw [hover] at hplays
      cases hplays
    · rw [hvictory] at hplays
      cases hplays
  · refine ⟨hcarries.me.trans h.me, hinputs, fun hkicked => ?_, fun _ => ?_, fun hvictory => ?_⟩
    · cases hover.symm.trans hkicked
    · exact List.mem_append_right _ (h.me ▸ hleft)
    · cases hover.symm.trans hvictory

/-- **The invariant of the screens.** -/
structure Ends (own : UInt32) (addr : SockAddr) (labels : List Label) (s : Network F) : Prop where
  server : s.server.Holds (Game.Homes own addr) (Sent.Ends own addr (Kicked own labels))
  shows : Shows own (Kicked own labels) s.client.client s.sent

/-- **What a client hears in a frame** ends its game only if the shell kicked its player. -/
theorem shows_frame (float : UInt32 → F) {labels : List Label} (f : Frame) {ds : List Delivery}
    {datagrams : List (UInt32 × List UInt8)} (h : Ends own addr labels s)
    (hds : ds.mapM (s.datagram bits addr) = some datagrams) :
    Shows own (Kicked own labels) (s.client.tick float { f with datagrams }).1.client
      (s.sent ++ (s.client.tick float { f with datagrams }).2) := by
  refine TickingClient.tick_rule (I := Shows own (Kicked own labels))
    (fun c c' sent sends hcarries hc => hc.carries hcarries) ?_ s.sent h.shows
  rintro - c sent now datagram m hmem hparse hc
  have hme : (c.handlePacket now m).myPlayerId = own := (c.handlePacket_inputs now m).1.trans hc.me
  obtain ⟨d, -, x, hx, haddr, -, rfl⟩ := exists_delivery hds hmem
  have hends := h.server.out x (List.mem_of_getElem? hx) haddr
  rcases c.handlePacket_status now m with hsame | ⟨hkicked, rfl⟩ | ⟨-, rfl⟩
  · exact ⟨hme, hc.inputs, hsame ▸ hc.kicked, hsame ▸ hc.gameOver, hsame ▸ hc.victory⟩
  · refine ⟨hme, hc.inputs, fun _ => hends.1 (UdpMsg.heard_youHaveBeenKicked hparse), fun hover => ?_, fun hvictory => ?_⟩
    · cases hkicked.symm.trans hover
    · cases hkicked.symm.trans hvictory
  · -- it is never told that it has left
    have hleft := UdpMsg.heard_playerDisconnect hparse
    rw [hc.me] at hleft
    exact absurd hleft hends.2

theorem ends_step {labels : List Label} {l : Label} (h : Ends own addr labels s) (haddr : OwnAddress addr s l)
    (hs : (machine bits float addr).step s l = some s') : Ends own addr (labels ++ [l]) s' := by
  have hgrow : Kicked own labels → Kicked own (labels ++ [l]) := fun hkicked => List.mem_append_left _ hkicked
  have hserver : s.server.Holds (Game.Homes own addr) (Sent.Ends own addr (Kicked own (labels ++ [l]))) :=
    h.server.imp (fun _ hgame => hgame) fun x hx ha => ⟨fun hkicked => hgrow ((hx ha).1 hkicked), (hx ha).2⟩
  rcases step_cases hs with ⟨f, ds, datagrams, rfl, hds, rfl⟩ | ⟨index, m, rfl, hm, rfl⟩ | ⟨sl, rfl, rfl⟩
  · exact ⟨hserver, (shows_frame float f h hds).mono hgrow⟩
  · have hkick : ServerManager.Label.event (.datagram m.bytes addr) ≠ .event (.command (.kick own)) := by simp
    refine ⟨ServerManager.ends_run hserver (fun data pkt hdata hparse => ?_) fun he => absurd he hkick, h.shows.mono hgrow⟩
    obtain ⟨rfl, -⟩ := ServerManager.Event.datagram.inj (ServerManager.Label.event.inj hdata)
    rw [ClientMsg.parse_bytes] at hparse
    rw [Option.some.inj hparse] at hm
    exact h.shows.inputs pkt (List.mem_of_getElem? hm)
  · refine ⟨ServerManager.ends_run hserver (fun data pkt hdata _ => ?_) fun hkick => ?_, h.shows.mono hgrow⟩
    · subst hdata
      exact absurd rfl haddr
    · rw [hkick]
      exact List.mem_append_right _ (List.mem_singleton_self _)

theorem ends_start (playerId serverTimeMs : UInt32) : Ends playerId addr [] (start playerId serverTimeMs : Network F) := by
  refine ⟨ServerManager.holds_init, rfl, fun pkt hpkt => ?_, fun hkicked => ?_, fun hover => ?_, fun hvictory => ?_⟩
  · rw [ClientMsg.playerInput.inj (List.mem_singleton.1 hpkt)]
    rfl
  · cases hkicked
  · cases hover
  · cases hvictory

/-- **A client shows that it was kicked only if the shell kicked its player, and that the game is
over only if it has left itself**, however the network behaves and whatever others send, if nobody
else sends from its address. It never shows a victory. -/
theorem endings_true (playerId serverTimeMs : UInt32) (labels : List Label) {s : Network F}
    (hr : (machine bits float addr).run (start playerId serverTimeMs) labels = some s)
    (haddr : (machine bits float addr).Along (OwnAddress addr) (start playerId serverTimeMs) labels) :
    (s.client.client.status = .kicked → .server (.event (.command (.kick playerId))) ∈ labels) ∧
      (s.client.client.status = .gameOver → .playerDisconnect playerId ∈ s.sent) ∧ s.client.client.status ≠ .victory := by
  have hends := Machine.inv_history (J := Ends playerId addr) (fun pre t l t' h hC hs => ends_step h hC hs) labels _ s
    (ends_start playerId serverTimeMs) haddr hr
  exact ⟨hends.shows.kicked, hends.shows.gameOver, hends.shows.victory⟩

/-- Player 1 is in a room and has sent from its address. It is kicked, and the next frame hears
of it. -/
def kickedRun : List Label :=
  [.server (.call .onCreateRoom ⟨0, 0⟩), .server (.call (.onJoinRoom 0 1 [65]) ⟨0, 0⟩), .arrive 0,
    .server (.event (.command (.kick 1))), .frame (Sender.idle []) [⟨0, 0, ⟨0, []⟩⟩]]

open RTypeClient (shotBits shotFloat) in
theorem endings_true_kickedRun : ∃ s : Network ℚ, (machine shotBits shotFloat home).run (start 1 0) kickedRun = some s ∧
    s.client.client.status = .kicked ∧ .server (.event (.command (.kick 1))) ∈ kickedRun := by
  have hstatus : ((machine shotBits shotFloat home).run (start 1 0 : Network ℚ) kickedRun).map (·.client.client.status) =
      some .kicked := by decide +kernel
  obtain ⟨s, hr, hs⟩ := Option.map_eq_some_iff.1 hstatus
  refine ⟨s, hr, hs, (endings_true 1 0 kickedRun hr (Machine.along_of_mem fun l hl _ => ?_)).1 hs⟩
  simp only [kickedRun, List.mem_cons, List.not_mem_nil, or_false] at hl
  rcases hl with rfl | rfl | rfl | rfl | rfl <;> trivial

end Network

end RType

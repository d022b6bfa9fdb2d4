import RType.Proof.RoomSelection

/-!
# The list of rooms, poll by poll

`getRooms` looks for the five bytes of a header and then reads on, whether the records have
arrived or not.

* `getRooms_feeds`: a call whose reads find their bytes returns the cached list or the rooms
  of one list, which it takes as a whole.
* `readsWholeLists`: **so does each call of a run in which every read finds its bytes**, and
  each leaves the connection between two lists.
* `not_readsWholeLists_header`: a header arrives before its record.
-/

namespace RType

open Wire Dialogue Lts

namespace RoomSelection

/-- Whole lists have been read, and each call has returned what was cached or the rooms of one of
them. -/
def WholeLists (p : Polls) (w : World) : Prop :=
  ∃ taken unread : List RoomList, w.answers = (taken ++ unread).map RoomList.frame ∧
    w.arrived ++ w.inFlight = unread.flatMap RoomList.bytes ∧
    ∀ call ∈ p.calls, call.returned = call.cached ∨ ∃ l ∈ taken, call.returned = l.infos

/-! ## The connection as the client knows it -/

/-- The client has taken the lists `taken` but for the bytes `tail` of the last. -/
structure Feed (tail : List UInt8) (taken : List RoomList) (w : World) : Prop where
  nonBlocking : w.nonBlocking = true
  pending : ∃ unread, w.answers = (taken ++ unread).map RoomList.frame ∧
    w.arrived ++ w.inFlight = tail ++ unread.flatMap RoomList.bytes

/-- Nothing is asked of an operation. -/
def Anything (_ : World) (_ : SocketOp) : Prop := True

variable {tail bs : List UInt8} {taken : List RoomList} {w : World} {n : ℕ}

/-- Lists and deliveries leave it as it is. -/
theorem stable_feed : feedSetting.Stable (Feed tail taken) := by
  refine Setting.stable_of_move fun w e w' h hmove => ?_
  obtain ⟨unread, hanswers, hbytes⟩ := h.pending
  cases e with
  | written l =>
    obtain rfl := Option.some.inj hmove
    refine ⟨h.nonBlocking, unread ++ [l], ?_, ?_⟩
    · rw [← List.append_assoc, List.map_append, ← hanswers]
      rfl
    · change w.arrived ++ (w.inFlight ++ l.bytes) = _
      rw [← List.append_assoc, hbytes, List.append_assoc, List.flatMap_append, List.flatMap_singleton]
  | deliver n =>
    obtain rfl := Option.some.inj hmove
    refine ⟨h.nonBlocking, unread, hanswers, ?_⟩
    change w.arrived ++ w.inFlight.take n ++ w.inFlight.drop n = _
    rw [List.append_assoc, List.take_append_drop, hbytes]

namespace Feed

/-- A list that has begun to arrive is taken next. -/
theorem front (h : Feed [] taken w) (harrived : 1 ≤ w.arrived.length) :
    ∃ l : RoomList, Feed l.bytes (taken ++ [l]) w := by
  obtain ⟨unread, hanswers, hbytes⟩ := h.pending
  cases unread with
  | nil =>
    have hnone : w.arrived = [] := (List.append_eq_nil_iff.1 hbytes).1
    rw [hnone] at harrived
    exact absurd harrived (by decide)
  | cons l unread =>
    refine ⟨l, h.nonBlocking, unread, ?_, hbytes⟩
    rw [hanswers, List.append_assoc]
    rfl

/-! Each operation of a poll. -/

theorem write {request : ClientFrame} {Q : Bool → World → Prop} (h : Feed tail taken w)
    (hQ : ∀ w', Feed tail taken w' → Q false w') :
    feedSetting.Holds Finds Anything (RoomSelection.write request) Q w := by
  refine Setting.holds_call stable_feed h (fun _ _ => trivial) fun w ec w' hw _ hperform => ?_
  obtain ⟨rfl, rfl⟩ := Prod.mk.inj (Option.some.inj hperform)
  exact hQ _ ⟨hw.nonBlocking, hw.pending⟩

theorem available {Q : ℕ → World → Prop} (h : Feed tail taken w)
    (hQ : ∀ w', Feed tail taken w' → Q w'.arrived.length w') :
    feedSetting.Holds Finds Anything RoomSelection.available Q w := by
  refine Setting.holds_call stable_feed h (fun _ _ => trivial) fun w count w' hw _ hperform => ?_
  obtain ⟨rfl, rfl⟩ := Prod.mk.inj (Option.some.inj hperform)
  exact hQ w hw

theorem read {Q : List UInt8 → World → Prop} (h : Feed (bs ++ tail) taken w) (hn : bs.length = n)
    (hQ : ∀ w', Feed tail taken w' → Q bs w') :
    feedSetting.Holds Finds Anything (RoomSelection.read n) Q w := by
  refine Setting.holds_call stable_feed h (fun _ _ => trivial) fun w found w' hw hfinds hperform => ?_
  obtain ⟨unread, hanswers, hbytes⟩ := hw.pending
  rw [List.append_assoc] at hbytes
  obtain ⟨rfl, rfl, hrest⟩ := perform_read hfinds hbytes hn hperform
  exact hQ _ ⟨hw.nonBlocking, unread, hanswers, hrest⟩

end Feed

/-! ## A poll -/

theorem ofLeInt_leInt_of_fits {n : ℤ} (h : n = (Int32.ofInt n).toInt) : ofLeInt (leInt n) = n := by
  rw [ofLeInt, toInt32_leInt, ← h]

/-- A record that is read whole. -/
theorem ofBytes_record {r : RoomSimpleInfo}
    (h : r.id = (Int32.ofInt r.id).toInt ∧ r.playerCount = (Int32.ofInt r.playerCount).toInt) :
    RoomInfo.ofRecord r = ⟨r.id, r.playerCount, 4⟩ := by
  have hlen : (Block.roomInfo r.id r.playerCount 4).bytes.length = 12 := by
    simp only [Block.bytes, List.length_append, length_leInt]
  have hid := length_leInt r.id
  have hcount := length_leInt r.playerCount
  have hpadded : padded 12 (Block.roomInfo r.id r.playerCount 4).bytes = (Block.roomInfo r.id r.playerCount 4).bytes := by
    rw [padded, hlen]
    exact List.append_nil _
  have hmax : (4 : ℤ) = (Int32.ofInt 4).toInt := by decide
  rw [RoomInfo.ofRecord, hpadded, RoomInfo.ofBytes, Block.bytes, List.append_assoc, List.take_left' hid, List.drop_left' hid,
    List.take_left' hcount, ← List.append_assoc, List.drop_left' (by simp [hid, hcount]), ofLeInt_leInt_of_fits h.1,
    ofLeInt_leInt_of_fits h.2, ofLeInt_leInt_of_fits hmax]

/-- **A call returns the cached list or the rooms of one list**, if its reads find their bytes. -/
theorem getRooms_feeds {c : TCPClient} {Q : List RoomInfo × TCPClient → World → Prop} (h : Feed [] taken w)
    (hcached : ∀ w', Feed [] taken w' → Q (c.cachedRooms, c) w')
    (hlist : ∀ l w', Feed [] (taken ++ [l]) w' → Q (l.infos, { c with cachedRooms := l.infos }) w') :
    feedSetting.Holds Finds Anything c.getRooms Q w := by
  refine getRooms_rule (J := Feed [] taken)
    (K := fun rooms tail w => ∃ l : RoomList, l.rooms = rooms ∧ Feed tail (taken ++ [l]) w)
    (fun Q hQ => h.write hQ) (fun _ _ h => h.available) (fun w h harrived => ?_) (fun rooms => ?_) hcached ?_
  · obtain ⟨l, h⟩ := h.front harrived
    exact ⟨l.rooms, l.count_fits, l, rfl, h⟩
  · rintro bs tail n w Q ⟨l, hl, h⟩ hn hQ
    exact h.read hn fun w h => hQ w ⟨l, hl, h⟩
  · rintro rooms w ⟨l, rfl, h⟩
    have hinfos : l.rooms.map RoomInfo.ofRecord = l.infos :=
      List.map_congr_left fun r hr => ofBytes_record (l.fits r hr)
    rw [hinfos]
    exact hlist l w h

/-! ## Poll after poll -/

/-- The invariant between two calls. -/
def Polled (p : Polls) (w : World) : Prop :=
  ∃ taken, Feed [] taken w ∧ ∀ call ∈ p.calls, call.returned = call.cached ∨ ∃ l ∈ taken, call.returned = l.infos

theorem stable_polled (p : Polls) : feedSetting.Stable (Polled p) := by
  rintro w w' ⟨taken, hfeed, hcalls⟩ hev
  exact ⟨taken, stable_feed w w' hfeed hev, hcalls⟩

/-- A call keeps it. -/
theorem poll_polled {p : Polls} (h : Polled p w) : feedSetting.Holds Finds Anything p.poll Polled w := by
  obtain ⟨taken, hfeed, hcalls⟩ := h
  unfold Polls.poll
  refine Setting.holds_bind.2 (getRooms_feeds hfeed (fun w h => ⟨taken, h, ?_⟩) fun l w h => ⟨taken ++ [l], h, ?_⟩)
  · intro call hcall
    rcases List.mem_append.1 hcall with hcall | hcall
    · exact hcalls call hcall
    · obtain rfl := List.mem_singleton.1 hcall
      exact .inl rfl
  · intro call hcall
    rcases List.mem_append.1 hcall with hcall | hcall
    · refine (hcalls call hcall).imp_right ?_
      rintro ⟨l', hl', heq⟩
      exact ⟨l', List.mem_append_left _ hl', heq⟩
    · obtain rfl := List.mem_singleton.1 hcall
      exact .inr ⟨l, List.mem_append_right _ List.mem_cons_self, rfl⟩

theorem Polled.wholeLists {p : Polls} (h : Polled p w) : WholeLists p w := by
  obtain ⟨taken, hfeed, hcalls⟩ := h
  obtain ⟨unread, hanswers, hbytes⟩ := hfeed.pending
  exact ⟨taken, unread, hanswers, hbytes, hcalls⟩

theorem polled_init : Polled .init .init :=
  ⟨[], ⟨rfl, [], rfl, rfl⟩, fun _ hcall => absurd hcall List.not_mem_nil⟩

/-- **Each call returns the cached list or the rooms of one list, and whole lists are read**, in
every run in which each read finds the bytes it asks for. -/
theorem readsWholeLists (labels : List (Label Unit FeedEvent)) (s : State SocketOp SocketOp.Result Polls World)
    (hfinds : pollMachine.Along (Setting.Meets Finds) ⟨.ret .init, .init⟩ labels)
    (hrun : pollMachine.run ⟨.ret .init, .init⟩ labels = some s) : ∀ p, s.prog = .ret p → WholeLists p s.world := by
  have hbody : ∀ (x : Unit) p q w, Polled p w → some (Polls.poll p) = some q →
      feedSetting.Holds Finds Anything q Polled w := by
    rintro - p q w h hq
    obtain rfl := Option.some.inj hq
    exact poll_polled h
  have hrest := (Setting.inv_run (s := ⟨.ret .init, .init⟩) stable_polled hbody polled_init hfinds hrun).1
  exact fun p hp => (hrest p hp).wholeLists

/-- A list of one room. -/
def oneRoom : RoomList := ⟨[⟨1, 2⟩], by decide, by decide⟩

/-- A list in two parts, each before the reads that need it, and a poll for nothing. -/
def pollRun : List (Label Unit FeedEvent) :=
  .move (.written oneRoom) :: .move (.deliver 5) :: .start () :: List.replicate 4 .act ++
    .move (.deliver 12) :: .act :: .start () :: List.replicate 2 .act

theorem readsWholeLists_pollRun : ∃ s p, pollMachine.run ⟨.ret .init, .init⟩ pollRun = some s ∧ s.prog = .ret p ∧
    p.calls = [⟨[], [⟨1, 2, 4⟩]⟩, ⟨[⟨1, 2, 4⟩], [⟨1, 2, 4⟩]⟩] ∧ WholeLists p s.world :=
  ⟨_, _, rfl, rfl, rfl, readsWholeLists pollRun _ (by decide +kernel) rfl _ rfl⟩

/-- The header arrives, and then the client polls. -/
def headerRun : List (Label Unit FeedEvent) :=
  .move (.written oneRoom) :: .move (.deliver 5) :: .start () :: List.replicate 5 .act

/-- **A header without its record**: the call reads the record nevertheless, and leaves the
connection within the list. -/
theorem not_readsWholeLists_header : ∃ s p, pollMachine.run ⟨.ret .init, .init⟩ headerRun = some s ∧ s.prog = .ret p ∧
    p.calls.length = 1 ∧ ¬ WholeLists p s.world := by
  refine ⟨_, _, rfl, rfl, rfl, ?_⟩
  rintro ⟨taken, unread, hanswers, hbytes, -⟩
  have hsplit : [oneRoom.frame] = taken.map RoomList.frame ++ unread.map RoomList.frame := by
    rw [← List.map_append]
    exact hanswers
  have hmap : unread.flatMap RoomList.bytes = (unread.map RoomList.frame).flatMap ServerFrame.bytes := by
    rw [List.flatMap_map]
    rfl
  have hlen := congrArg List.length hbytes
  rw [hmap] at hlen
  -- the twelve bytes left are neither nothing nor the list
  rcases List.singleton_eq_append_iff.1 hsplit with ⟨-, hunread⟩ | ⟨-, hunread⟩
  · rw [hunread] at hlen
    exact absurd hlen (by decide)
  · rw [hunread] at hlen
    exact absurd hlen (by decide)

end RoomSelection

end RType

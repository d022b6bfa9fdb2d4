import RType.Proof.ServerFrames
import RType.Proof.Sessions
import RType.Proof.Usernames
import RType.Spec.Handshake

/-!
# Both sides of a handshake

The server writes its response to a client after it has entered the client in its tables, and
nothing before it. So whatever else happens on the server, and however the connection delivers:

* `greeting_step`: until the response a thread writes nothing and nobody writes to its socket.
* `sendConnectRequest_holds`: **a client that has an answer is known to the server by the id it
  was given and the name it asked for; a client that has none has lost its connection.**
* `sendConnectRequest_agrees`: this stays so, whatever the client does with its socket afterwards.
-/

namespace RType

open Wire Dialogue Lts

/-- Before its response. -/
def Pc.greeting : Pc → Bool
  | handshake | takePlayerId _ | register _ | connectTime _ | connectOk _ _ => true
  | _ => false

/-- After its response a thread does not greet again. -/
theorem Pc.greeting_next {pc : Pc} (h : pc.greeting = false) (r : pc.act.Result) : (pc.next r).greeting = false := by
  have hmoves := pc.moves_next r
  generalize pc.next r = pc' at hmoves ⊢
  cases hmoves with
  | refused | greeted | named | registered | timed | failed | welcomed => cases h
  | _ => rfl

/-- How a thread ends its greeting. -/
theorem Pc.greeting_ends {pc : Pc} {r : pc.act.Result} (h : pc.greeting = true) (h' : (pc.next r).greeting = false) :
    pc = .handshake ∧ pc.next r = .close ∨ ∃ u time, pc = .connectOk u time := by
  have hmoves := pc.moves_next r
  generalize pc.next r = pc' at hmoves h' ⊢
  cases hmoves with
  | refused => exact .inl ⟨rfl, rfl⟩
  | failed u time | welcomed u time => exact .inr ⟨u, time, rfl⟩
  | greeted | named | registered | timed => cases h'
  | _ => cases h

/-- What a thread writes while it greets. -/
theorem Pc.greeting_write {pc : Pc} {b : Block} (h : pc.greeting = true) (hact : pc.act = .write b) :
    ∃ u time, pc = .connectOk u time ∧ b = .connectResponse u.playerId 5252 time := by
  cases pc with
  | connectOk u time => exact ⟨u, time, rfl, (Act.write.inj hact).symm⟩
  | handshake | takePlayerId _ | register _ | connectTime _ => cases hact
  | _ => cases h

theorem Pc.rank_of_greeting {pc : Pc} (h : pc.greeting = true) : pc.rank ≠ 4 := by
  cases pc with
  | handshake | takePlayerId _ | register _ | connectTime _ | connectOk _ _ => simp [rank]
  | _ => cases h

/-- How far the thread of a connection is, whose client asks for the name `name`. -/
structure Stage (name : List UInt8) (pc : Pc) (isOpen : Bool) (sent : List Block) : Prop where
  unheard : pc.greeting = true → sent = []
  called : pc.greeting = true → isOpen = true → ∀ n, pc.username = some n → n = name
  refused : sent = [] → pc.greeting = false → isOpen = false
  welcomed : sent ≠ [] → ∃ u time rest, sent = .connectResponse u.playerId 5252 time :: rest ∧
    u.username = name ∧ ∀ u', pc.peer = some u' → u' = u

namespace Stage

variable {name : List UInt8} {pc : Pc} {isOpen : Bool} {sent : List Block}

/-- The connection breaks. -/
theorem broken (h : Stage name pc isOpen sent) : Stage name pc false sent :=
  ⟨h.unheard, fun _ ho => (nomatch ho), fun _ _ => rfl, h.welcomed⟩

/-- A socket is closed. -/
theorem closed {k : ℕ} {isOpen : ℕ → Bool} (h : Stage name pc (isOpen k) sent) (sock : ℕ) :
    Stage name pc (Function.update isOpen sock false k) sent := by
  by_cases hk : k = sock
  · subst hk
    rw [Function.update_self]
    exact h.broken
  · rw [Function.update_of_ne hk]
    exact h

/-- Something more is written. -/
theorem write (h : Stage name pc true sent) (hg : pc.greeting = false) (b : Block) :
    Stage name pc true (sent ++ [b]) := by
  refine ⟨fun hg' => ?_, fun hg' => ?_, fun he => ?_, fun _ => ?_⟩
  · rw [hg] at hg'
    cases hg'
  · rw [hg] at hg'
    cases hg'
  · exact absurd he (by simp)
  · obtain ⟨u, time, rest, rfl, hname, hpeer⟩ := h.welcomed fun he => nomatch h.refused he hg
    exact ⟨u, time, rest ++ [b], rfl, hname, hpeer⟩

/-- The thread goes on after its greeting. -/
theorem next (h : Stage name pc isOpen sent) (hg : pc.greeting = false) (r : pc.act.Result) :
    Stage name (pc.next r) isOpen sent := by
  have hg' := Pc.greeting_next hg r
  refine ⟨fun hgreet => ?_, fun hgreet => ?_, fun he _ => h.refused he hg, fun hne => ?_⟩
  · rw [hg'] at hgreet
    cases hgreet
  · rw [hg'] at hgreet
    cases hgreet
  · obtain ⟨u, time, rest, hsent, hname, hpeer⟩ := h.welcomed hne
    refine ⟨u, time, rest, hsent, hname, fun u' hu' => ?_⟩
    have htake : ∀ username, pc ≠ .takePlayerId username := by
      rintro username rfl
      cases hg
    rcases pc.next_peer htake r with hq | hq
    · exact hpeer u' (hq ▸ hu')
    · rw [hq] at hu'
      cases hu'

/-- The thread goes on with its greeting, or is refused. -/
theorem greet (h : Stage name pc isOpen sent) (hg : pc.greeting = true) (hok : ∀ u time, pc ≠ .connectOk u time)
    (r : pc.act.Result)
    (hhears : pc = .handshake → isOpen = true → pc.next r = .takePlayerId name) : Stage name (pc.next r) isOpen sent := by
  have hsent := h.unheard hg
  refine ⟨fun _ => hsent, fun _ ho n hn => ?_, fun _ hg' => ?_, fun hne => absurd hsent hne⟩
  · by_cases hshake : pc = .handshake
    · rw [hhears hshake ho] at hn
      exact (Option.some.inj hn).symm
    · rcases (pc.next_username hshake r).2 with hq | hq
      · exact h.called hg ho n (hq ▸ hn)
      · rw [hq] at hn
        cases hn
  · rcases Pc.greeting_ends hg hg' with ⟨hshake, hclose⟩ | ⟨u, time, he⟩
    · by_contra ho
      rw [hhears hshake (by simpa using ho)] at hclose
      cases hclose
    · exact absurd he (hok u time)

/-- The response is written, unless the connection has broken. -/
theorem respond {u : Peer} {time : UInt32} (h : Stage name (.connectOk u time) isOpen sent) :
    Stage name (Pc.next (.connectOk u time) !isOpen) isOpen
      (if isOpen then sent ++ [.connectResponse u.playerId 5252 time] else sent) := by
  have hsent : sent = [] := h.unheard rfl
  subst hsent
  cases isOpen with
  | false => exact ⟨fun _ => rfl, fun hg => (nomatch hg), fun _ _ => rfl, fun hne => absurd rfl hne⟩
  | true =>
    refine ⟨fun hg => (nomatch hg), fun hg => (nomatch hg), fun he => (nomatch he), fun _ => ?_⟩
    exact ⟨u, time, [], rfl, h.called rfl rfl _ rfl, fun u' hu' => (Option.some.inj hu').symm⟩

end Stage

namespace TCPServer

variable {H ε : Type} {hd : ITCPHandler H} {ext : ε → H → H} {s s' : TCPServer H} {k : ℕ} {name : List UInt8}

/-! ## The server -/

/-- The players in the tables, and the sockets that are not in use yet. -/
structure Tables (s : TCPServer H) : Prop where
  peers : ∃ n, Peers n s
  relays : Relays s
  usernames : ∀ t u, (s.pc t).peer = some u → 2 ≤ (s.pc t).rank → s.playerUsernames[u.playerId]? = some u.username
  unused : ∀ k, s.accepted ≤ k → s.sent k = []

/-- How far the server is with connection `k`, whose client asks for the name `name`. -/
structure Greeting (name : List UInt8) (k : ℕ) (s : TCPServer H) : Prop where
  tables : Tables s
  accepted : k < s.accepted
  stage : Stage name (s.pc k) (s.isOpen k) (s.sent k)

/-- What the thread of `k` reads at its handshake is a request for `name`, unless the connection has
broken. -/
def Hears (name : List UInt8) (k : ℕ) (s : TCPServer H) (l : Label ε) : Prop :=
  ∀ env, l = .thread k env → s.pc k = .handshake → s.isOpen k = true →
    Pc.next .handshake env.received = .takePlayerId name

section

variable {t : ℕ} {env : Env} {pc : Pc} {r : pc.act.Result} {s₁ : TCPServer H}

/-- A block for a thread that has greeted. -/
theorem Stage.put {pc : Pc} (h : Stage name pc (s.isOpen k) (s.sent k)) {sock : ℕ}
    (hg : sock = k → pc.greeting = false) (b : Block) :
    Stage name pc ((s.put sock b).isOpen k) ((s.put sock b).sent k) := by
  by_cases hk : sock = k
  · subst hk
    obtain ⟨hopen, hsent⟩ := put_sent s sock b
    rw [hopen, hsent]
    split_ifs with ho
    · rw [ho] at h ⊢
      exact h.write (hg rfl) b
    · exact h
  · obtain ⟨hopen, hsent⟩ := put_other (s := s) hk b
    rw [hopen, hsent]
    exact h

/-- The socket of `k` after an act of a thread that is past its greeting, or another's. -/
theorem Stage.perform {pc' : Pc} (h : Stage name pc' (s.isOpen k) (s.sent k))
    (hp : s.perform hd t env pc.act = some (r, s₁)) (hwrite : ∀ b, pc.act = .write b → t = k → pc'.greeting = false)
    (hrelay : ∀ sock b, pc.act = .relay sock b → sock = k → pc'.greeting = false) :
    Stage name pc' (s₁.isOpen k) (s₁.sent k) := by
  rcases perform_sockets hp with ⟨b, ha, rfl⟩ | ⟨sock, b, ha, rfl⟩ | ⟨-, rfl⟩ | ⟨-, -, hsent, hopen⟩
  · exact Stage.put h (hwrite b ha) b
  · exact Stage.put h (hrelay sock b ha) b
  · exact h.closed t
  · rw [hsent, hopen]
    exact h

/-- A thread that a chat is relayed to is in a room. -/
theorem Relays.relayed (h : Relays s) (hpc : s.pc t = pc) {sock : ℕ} {b : Block} (hact : pc.act = .relay sock b) :
    (s.pc sock).rank = 4 := by
  cases pc with
  | relaying u roomId fullMsg sock' rest =>
    obtain rfl : sock' = sock := (Act.relay.inj hact).1
    exact h.targets t u roomId fullMsg sock' rest hpc sock' List.mem_cons_self
  | _ => cases hact

/-- What a read finds. -/
theorem read_perform {n : ℕ} {r : Received} (hp : s.perform hd t env (.read n) = some (r, s₁)) :
    env.received = r ∧ r.Fits n := by
  simp only [TCPServer.perform] at hp
  split_ifs at hp with hfits
  obtain ⟨rfl, -⟩ := Prod.mk.inj (Option.some.inj hp)
  exact ⟨rfl, hfits.1⟩

/-- **A step of a thread.** -/
theorem Greeting.stage_step (h : Greeting name k s) (hhears : Hears name k s (.thread t env : Label ε))
    (hpc : s.pc t = pc) (hp : s.perform hd t env pc.act = some (r, s₁)) :
    Stage name (Function.update s.pc t (pc.next r) k) (s₁.isOpen k) (s₁.sent k) := by
  have hrelay : ∀ sock b, pc.act = .relay sock b → sock = k → (s.pc k).greeting = false := by
    rintro sock b ha rfl
    rw [Bool.eq_false_iff]
    exact fun hgreet => Pc.rank_of_greeting hgreet (h.tables.relays.relayed hpc ha)
  by_cases ht : t = k
  · subst ht
    rw [Function.update_self]
    have hstage := h.stage
    rw [hpc] at hstage hrelay
    cases hg : pc.greeting with
    | false =>
      have hg' := Pc.greeting_next hg r
      exact Stage.perform (hstage.next hg r) hp (fun _ _ _ => hg') fun _ _ _ _ => hg'
    | true =>
      by_cases hok : ∃ u time, pc = .connectOk u time
      · obtain ⟨u, time, rfl⟩ := hok
        obtain ⟨rfl, rfl⟩ := Prod.mk.inj (Option.some.inj hp)
        obtain ⟨hopen, hsent⟩ := put_sent s t (.connectResponse u.playerId 5252 time)
        rw [hopen, hsent]
        exact hstage.respond
      · have hnext : Stage name (pc.next r) (s.isOpen t) (s.sent t) := by
          refine hstage.greet hg (fun u time he => hok ⟨u, time, he⟩) r fun hshake ho => ?_
          subst hshake
          obtain ⟨rfl, -⟩ := read_perform hp
          exact hhears env rfl hpc ho
        refine Stage.perform hnext hp (fun b ha _ => ?_) fun sock b ha hk => ?_
        · obtain ⟨u, time, he, -⟩ := Pc.greeting_write hg ha
          exact absurd ⟨u, time, he⟩ hok
        · rw [hrelay sock b ha hk] at hg
          cases hg
  · rw [Function.update_of_ne (Ne.symm ht)]
    exact Stage.perform h.stage hp (fun _ _ hk => absurd hk ht) hrelay

/-- A socket that is written to belongs to a connection. -/
theorem Tables.unused_step (h : Tables s) (hpc : s.pc t = pc) (hp : s.perform hd t env pc.act = some (r, s₁)) :
    ∀ k, s.accepted ≤ k → s₁.sent k = [] := by
  intro k hk
  obtain ⟨n, hn⟩ := h.peers
  have hdone : s.pc k = .done := hn.later k hk
  rcases perform_sockets hp with ⟨b, ha, rfl⟩ | ⟨sock, b, ha, rfl⟩ | ⟨-, rfl⟩ | ⟨-, -, hsent, -⟩
  · have hne : t ≠ k := by
      rintro rfl
      obtain rfl : pc = .done := hpc.symm.trans hdone
      cases ha
    rw [(put_other hne b).2, h.unused k hk]
  · have hne : sock ≠ k := by
      rintro rfl
      have h4 := h.relays.relayed hpc ha
      rw [hdone] at h4
      cases h4
    rw [(put_other hne b).2, h.unused k hk]
  · exact h.unused k hk
  · rw [hsent, h.unused k hk]

end

theorem tables_step {l : Label ε} (h : Tables s) (hs : (machine hd ext).step s l = some s')
    (hlt : s.accepted < 2 ^ 32) : Tables s' := by
  obtain ⟨n, hn⟩ := h.peers
  obtain ⟨n', -, hn'⟩ := peers_step hn hs hlt
  have hrelays : Relays s' := relays_step hn h.relays hs
  rcases step_cases hs with ⟨rfl, rfl⟩ | ⟨t, env, pc, r, s₁, rfl, hpc, hp, rfl⟩ | ⟨playerId, rfl, -, rfl⟩ |
    ⟨sock, rfl, rfl⟩ | ⟨e, rfl, rfl⟩
  · refine ⟨⟨n', hn'⟩, hrelays, fun t u hu hr => ?_, fun k hk => h.unused k (Nat.le_of_succ_le hk)⟩
    by_cases ht : t = s.accepted
    · subst ht
      simp only [Function.update_self] at hu
      cases hu
    · simp only [Function.update_of_ne ht] at hu hr
      exact h.usernames t u hu hr
  · obtain ⟨hpc₁, hacc, -, -⟩ := perform_frame hp
    have halone : ∀ u', (s.pc t).peer = some u' → ∀ t' u, (s.pc t').peer = some u → u'.playerId = u.playerId → t' = t :=
      fun u' hu' t' u hu hid => (hn.distinct t t' u' u hu' hu hid).symm
    have hnames := registered_after (fun _ u => u.username) h.usernames halone hpc r
    rw [← usernamesAfter_eq, ← perform_usernames hp, ← hpc₁] at hnames
    exact ⟨⟨n', hn'⟩, hrelays, hnames, fun k hk => h.unused_step hpc hp k (hacc ▸ hk)⟩
  · rw [kickPlayer_eq] at hn' hrelays ⊢
    exact ⟨⟨n', hn'⟩, hrelays, h.usernames, h.unused⟩
  · exact ⟨⟨n', hn'⟩, hrelays, h.usernames, h.unused⟩
  · exact ⟨⟨n', hn'⟩, hrelays, h.usernames, h.unused⟩

/-- **A step of the server.** -/
theorem greeting_step {l : Label ε} (h : Greeting name k s) (hhears : Hears name k s l)
    (hs : (machine hd ext).step s l = some s') (hlt : s.accepted < 2 ^ 32) : Greeting name k s' := by
  have htables := tables_step h.tables hs hlt
  rcases step_cases hs with ⟨rfl, rfl⟩ | ⟨t, env, pc, r, s₁, rfl, hpc, hp, rfl⟩ | ⟨playerId, rfl, -, rfl⟩ |
    ⟨sock, rfl, rfl⟩ | ⟨e, rfl, rfl⟩
  · refine ⟨htables, Nat.lt_succ_of_lt h.accepted, ?_⟩
    simp only [Function.update_of_ne h.accepted.ne]
    exact h.stage
  · obtain ⟨hpc₁, hacc, -, -⟩ := perform_frame hp
    have hstage := h.stage_step hhears hpc hp
    rw [← hpc₁] at hstage
    exact ⟨htables, hacc ▸ h.accepted, hstage⟩
  · have hstage : Stage name (s.pc k) ((s.kickPlayer playerId).isOpen k) (s.sent k) := by
      unfold kickPlayer
      split
      · rename_i sock hsock
        exact h.stage.closed sock
      · exact h.stage
    rw [kickPlayer_eq] at htables ⊢
    exact ⟨htables, h.accepted, hstage⟩
  · exact ⟨htables, h.accepted, h.stage.closed sock⟩
  · exact ⟨htables, h.accepted, h.stage⟩

theorem tables_init (h : H) : Tables (init h) where
  peers := ⟨0, peers_init h⟩
  relays := relays_init h
  usernames t u hu := by cases hu
  unused _ _ := rfl

/-- A connection that has just been accepted. -/
theorem greeting_connected (hd : ITCPHandler H) (ext : ε → H → H) (h : Tables s) (hlt : s.accepted < 2 ^ 32) :
    Greeting name s.accepted (Handshake.World.connected s).server := by
  have hs : (machine hd ext).step s .accept = some (Handshake.World.connected s).server := rfl
  refine ⟨tables_step h hs hlt, Nat.lt_succ_self _, ?_⟩
  simp only [Handshake.World.connected, Function.update_self]
  refine ⟨fun _ => h.unused _ le_rfl, fun _ _ n hn => (nomatch hn), fun _ hg => (nomatch hg), fun hne => ?_⟩
  exact absurd (h.unused _ le_rfl) hne

theorem closed_update {isOpen : ℕ → Bool} (h : isOpen k = false) (sock : ℕ) :
    Function.update isOpen sock false k = false := by
  by_cases hk : k = sock
  · rw [hk, Function.update_self]
  · rw [Function.update_of_ne hk, h]

/-- A thread at its handshake has not moved. -/
theorem handshake_before {l : Label ε} (hk : k < s.accepted) (hs : (machine hd ext).step s l = some s')
    (hpc : s'.pc k = .handshake) : s.pc k = .handshake ∧ ∀ env, l ≠ .thread k env := by
  rcases step_cases hs with ⟨rfl, rfl⟩ | ⟨t, env, pc, r, s₁, rfl, hpc', hp, rfl⟩ | ⟨playerId, rfl, -, rfl⟩ |
    ⟨sock, rfl, rfl⟩ | ⟨e, rfl, rfl⟩
  · exact ⟨(Function.update_of_ne hk.ne _ _).symm.trans hpc, fun _ => nofun⟩
  · have hne : k ≠ t := by
      rintro rfl
      simp only [Function.update_self] at hpc
      have hmoves := pc.moves_next r
      rw [hpc] at hmoves
      cases hmoves
    simp only [Function.update_of_ne hne, (perform_frame hp).1] at hpc
    exact ⟨hpc, fun env' he => hne (Label.thread.inj he).1.symm⟩
  · rw [kickPlayer_eq] at hpc
    exact ⟨hpc, fun _ => nofun⟩
  · exact ⟨hpc, fun _ => nofun⟩
  · exact ⟨hpc, fun _ => nofun⟩

/-- What is written stays written. -/
theorem sent_step {l : Label ε} (hs : (machine hd ext).step s l = some s') : s.sent k <+: s'.sent k := by
  rcases step_cases hs with ⟨rfl, rfl⟩ | ⟨t, env, pc, r, s₁, rfl, hpc, hp, rfl⟩ | ⟨playerId, rfl, -, rfl⟩ |
    ⟨sock, rfl, rfl⟩ | ⟨e, rfl, rfl⟩
  · exact List.prefix_rfl
  · have hput : ∀ sock b, s.sent k <+: (s.put sock b).sent k := by
      intro sock b
      by_cases hk : sock = k
      · subst hk
        rw [(put_sent s sock b).2]
        split_ifs
        · exact List.prefix_append _ _
        · exact List.prefix_rfl
      · rw [(put_other hk b).2]
    rcases perform_sockets hp with ⟨b, ha, rfl⟩ | ⟨sock, b, ha, rfl⟩ | ⟨-, rfl⟩ | ⟨-, -, hsent, -⟩
    · exact hput t b
    · exact hput sock b
    · exact List.prefix_rfl
    · rw [hsent]
  · rw [kickPlayer_eq]
  · exact List.prefix_rfl
  · exact List.prefix_rfl

/-- What is closed stays closed. -/
theorem closed_step {l : Label ε} (hk : k < s.accepted) (hclosed : s.isOpen k = false)
    (hs : (machine hd ext).step s l = some s') : s'.isOpen k = false := by
  rcases step_cases hs with ⟨rfl, rfl⟩ | ⟨t, env, pc, r, s₁, rfl, hpc, hp, rfl⟩ | ⟨playerId, rfl, -, rfl⟩ |
    ⟨sock, rfl, rfl⟩ | ⟨e, rfl, rfl⟩
  · exact (Function.update_of_ne hk.ne _ _).trans hclosed
  · have hput : ∀ sock b, (s.put sock b).isOpen k = false := fun sock b => (congrFun (put_frame s sock b).1 k).trans hclosed
    rcases perform_sockets hp with ⟨b, ha, rfl⟩ | ⟨sock, b, ha, rfl⟩ | ⟨-, rfl⟩ | ⟨-, -, -, hopen⟩
    · exact hput t b
    · exact hput sock b
    · exact closed_update hclosed t
    · exact (congrFun hopen k).trans hclosed
  · unfold kickPlayer
    split
    · exact closed_update hclosed _
    · exact hclosed
  · exact closed_update hclosed sock
  · exact hclosed

end TCPServer

namespace Handshake

open TCPServer

variable {H ε : Type} {hd : ITCPHandler H} {ext : ε → H → H} {w w' : World H} {username : List UInt8}

/-! ## The connection -/

theorem length_connectRequest (username : List UInt8) : (connectRequest username).length = 33 := by
  have hlen : (cText 31 username).length ≤ 31 := List.length_take_le 31 _
  rw [connectRequest, List.length_cons, length_padded (by omega)]

/-- The name in a request is the text of its field. -/
theorem next_connectRequest {r : Received} (hr : r.stored = connectRequest username) (he : r.error = none) :
    Pc.next .handshake r = .takePlayerId (cText 31 username) := by
  have hlen : (cText 31 username).length ≤ 31 := List.length_take_le 31 _
  have hconnects : r.Connects := by
    refine ⟨he, ?_, by rw [hr]; rfl⟩
    rw [hr, length_connectRequest]
  have htext : ∀ b ∈ cText 31 username, decide (b ≠ 0) = true := by
    intro b hb
    have hmem : b ∈ username.takeWhile (· ≠ 0) := List.mem_of_mem_take hb
    exact List.mem_takeWhile_imp (p := fun b => decide (b ≠ 0)) hmem
  have hname : connectUsername r = cText 31 username := by
    have hzeros : List.replicate (32 - (cText 31 username).length) (0 : UInt8) =
        0 :: List.replicate (31 - (cText 31 username).length) 0 := by
      have hsucc : 32 - (cText 31 username).length = (31 - (cText 31 username).length) + 1 := by omega
      rw [hsucc, List.replicate_succ]
    rw [connectUsername_eq hconnects, hr, connectRequest, List.tail_cons, padded, hzeros, List.append_assoc,
      List.takeWhile_append_of_pos htext, List.cons_append, List.takeWhile_cons_of_neg (by decide), List.append_nil]
  have htype : (RType.connectRequest r).head? = some TCPMessageType.connect.code := by
    rw [RType.connectRequest, hr]
    rfl
  rw [← hname]
  exact if_neg (by simp [he, htype])

/-- The client has written `wrote`, and the server keeps to its greeting. -/
structure Greets (username wrote : List UInt8) (w : World H) : Prop where
  accepted : w.sock < w.server.accepted
  pending : w.server.pc w.sock = .handshake → w.toServer = wrote
  greeting : w.server.accepted < 2 ^ 32 → Greeting (cText 31 username) w.sock w.server

/-- A step of the server, and what it reads. -/
theorem move_eq {l : TCPServer.Label ε} (h : w.move hd ext l = some w') :
    ∃ n server, w.reads l = some n ∧ (TCPServer.machine hd ext).step w.server l = some server ∧
      w' = { w with server, toServer := w.toServer.drop n } := by
  obtain ⟨n, hn, hrest⟩ := Option.bind_eq_some_iff.1 h
  obtain ⟨server, hserver, hw⟩ := Option.bind_eq_some_iff.1 hrest
  exact ⟨n, server, hn, hserver, (Option.some.inj hw).symm⟩

/-- What the thread reads at its handshake. -/
theorem hears_of_reads {l : TCPServer.Label ε} {server : TCPServer H} {n : ℕ} {wrote : List UInt8}
    (hwrote : wrote = [] ∨ wrote = connectRequest username) (h : Greets username wrote w) (hn : w.reads l = some n)
    (hs : (TCPServer.machine hd ext).step w.server l = some server) :
    Hears (cText 31 username) w.sock w.server l := by
  rintro env rfl hpc hopen
  have hstored : env.received.stored <+: wrote ∧ env.received.error = none := by
    have hact : (w.server.pc w.sock).act = .read 33 := by rw [hpc]; rfl
    simp only [World.reads, if_true, hact, h.pending hpc] at hn
    by_contra hcond
    rw [if_neg fun hc => hcond ⟨hc.1, hc.2.resolve_right (by simp [hopen])⟩] at hn
    cases hn
  have hlength : env.received.stored.length = 33 := by
    rcases step_cases hs with ⟨hl, -⟩ | ⟨t, env', pc, r, s₁, hl, hpc', hp, -⟩ | ⟨playerId, hl, -⟩ | ⟨sock, hl, -⟩ |
      ⟨e, hl, -⟩
    · cases hl
    · obtain ⟨rfl, rfl⟩ := Label.thread.inj hl
      obtain rfl : pc = .handshake := hpc'.symm.trans hpc
      obtain ⟨hr, hfits⟩ := read_perform hp
      rw [← hr, Received.Fits, if_pos hstored.2] at hfits
      exact hfits
    · cases hl
    · cases hl
    · cases hl
  refine next_connectRequest ?_ hstored.2
  rcases hwrote with rfl | rfl
  · rw [List.prefix_nil.1 hstored.1] at hlength
    cases hlength
  · exact hstored.1.eq_of_length (hlength.trans (length_connectRequest username).symm)

theorem Greets.move {l : TCPServer.Label ε} {wrote : List UInt8} (hwrote : wrote = [] ∨ wrote = connectRequest username)
    (h : Greets username wrote w) (hmove : w.move hd ext l = some w') : Greets username wrote w' := by
  obtain ⟨n, server, hn, hs, rfl⟩ := move_eq hmove
  have hmono := accepted_le_step hs
  refine ⟨h.accepted.trans_le hmono, fun hpc => ?_, fun hlt => ?_⟩
  · obtain ⟨hold, hown⟩ := handshake_before h.accepted hs hpc
    have hn0 : n = 0 := by
      unfold World.reads at hn
      split at hn
      · rename_i t env
        have ht : t ≠ w.sock := fun ht => hown env (by rw [ht])
        rw [if_neg ht] at hn
        exact (Option.some.inj hn).symm
      · exact (Option.some.inj hn).symm
    rw [hn0, List.drop_zero, h.pending hold]
  · have hlt' : w.server.accepted < 2 ^ 32 := hmono.trans_lt hlt
    exact greeting_step (h.greeting hlt') (hears_of_reads hwrote h hn hs) hs hlt'

/-! ## The client -/

/-- Fewer connections have been accepted than there are player ids. -/
def Few (w : World H) : Prop := w.server.accepted < 2 ^ 32

theorem few_of_move {l : TCPServer.Label ε} (h : w.move hd ext l = some w') (hfew : Few w') : Few w := by
  obtain ⟨n, server, -, hs, rfl⟩ := move_eq h
  exact (accepted_le_step hs).trans_lt hfew

/-- The client has written `wrote` and read `taken` bytes. -/
structure Talks (username wrote : List UInt8) (taken : ℕ) (w : World H) : Prop where
  greets : Greets username wrote w
  taken : w.taken = taken

theorem stable_talks {wrote : List UInt8} (hwrote : wrote = [] ∨ wrote = connectRequest username) (taken : ℕ) :
    (setting hd ext).Stable (Talks username wrote taken) := by
  refine Setting.stable_of_move fun w l w' h hmove => ?_
  have hgreets := h.greets.move hwrote hmove
  obtain ⟨n, server, -, -, rfl⟩ := move_eq hmove
  exact ⟨hgreets, h.taken⟩

/-- The connection is accepted, and has broken unless too many have been. -/
structure Lost (w : World H) : Prop where
  accepted : w.sock < w.server.accepted
  closed : Few w → w.server.isOpen w.sock = false

theorem stable_lost : (setting hd ext).Stable (Lost (H := H)) := by
  refine Setting.stable_of_move fun w l w' h hmove => ?_
  have hfew := few_of_move hmove
  obtain ⟨n, server, -, hs, rfl⟩ := move_eq hmove
  exact ⟨h.accepted.trans_le (accepted_le_step hs), fun hlt => closed_step h.accepted (h.closed (hfew hlt)) hs⟩

/-- The response is on its way, with what it says. -/
def Replied (res : ConnectResponse) (w : World H) : Prop :=
  Few w → res.udpPort = 5252 ∧
    ∃ rest, w.server.sent w.sock = .connectResponse res.playerId 5252 res.serverTimeMs :: rest

theorem stable_replied (res : ConnectResponse) : (setting hd ext).Stable (Replied (H := H) res) := by
  refine Setting.stable_of_move fun w l w' h hmove hlt => ?_
  have hfew := few_of_move hmove hlt
  obtain ⟨n, server, -, hs, rfl⟩ := move_eq hmove
  obtain ⟨hport, rest, hrest⟩ := h hfew
  obtain ⟨more, hmore⟩ := sent_step (k := w.sock) hs
  refine ⟨hport, rest ++ more, ?_⟩
  rw [← hmore, hrest]
  rfl

/-- The client has been taken on. -/
structure Welcomed (username : List UInt8) (res : ConnectResponse) (w : World H) : Prop where
  accepted : w.sock < w.server.accepted
  greeting : Few w → Greeting (cText 31 username) w.sock w.server
  replied : Replied res w

/-- The thread of a client that has been taken on is past its greeting, whatever comes next. -/
theorem Welcomed.hears {res : ConnectResponse} (h : Welcomed username res w) (hfew : Few w) (l : TCPServer.Label ε) :
    Hears (cText 31 username) w.sock w.server l := by
  rintro env - hpc -
  have hnone := (h.greeting hfew).stage.unheard (by rw [hpc]; rfl)
  obtain ⟨-, rest, hrest⟩ := h.replied hfew
  rw [hnone] at hrest
  cases hrest

theorem stable_welcomed (res : ConnectResponse) : (setting hd ext).Stable (Welcomed (H := H) username res) := by
  refine Setting.stable_of_move fun w l w' h hmove => ?_
  have hkept : (setting hd ext).Stable (Replied (H := H) res) := stable_replied res
  have hreplied := hkept w w' h.replied (.single ⟨l, hmove⟩)
  obtain ⟨n, server, -, hs, rfl⟩ := move_eq hmove
  refine ⟨h.accepted.trans_le (accepted_le_step hs), fun hfew' => ?_, hreplied⟩
  have hfew : Few w := (accepted_le_step hs).trans_lt hfew'
  exact greeting_step (h.greeting hfew) (h.hears hfew l) hs hfew

/-- What a client has come to. -/
def Outcome (username : List UInt8) : Option ConnectResponse → World H → Prop
  | some res, w => Welcomed username res w
  | none, w => Lost w

theorem stable_outcome (result : Option ConnectResponse) :
    (setting hd ext).Stable (Outcome (H := H) username result) := by
  cases result with
  | none => exact stable_lost
  | some res => exact stable_welcomed res

/-- What the client does with its socket does not touch the server. -/
theorem perform_server {o : SocketOp} {r : o.Result} (h : w.perform o = some (r, w')) :
    w'.server = w.server ∧ w'.sock = w.sock := by
  cases o with
  | nonBlocking mode =>
    obtain ⟨-, rfl⟩ := Prod.mk.inj (Option.some.inj h)
    exact ⟨rfl, rfl⟩
  | write bs =>
    simp only [World.perform] at h
    split_ifs at h <;> obtain ⟨-, rfl⟩ := Prod.mk.inj (Option.some.inj h) <;> exact ⟨rfl, rfl⟩
  | read n =>
    simp only [World.perform] at h
    split_ifs at h
    obtain ⟨-, rfl⟩ := Prod.mk.inj (Option.some.inj h)
    exact ⟨rfl, rfl⟩

/-- Nor what the client has come to. -/
theorem outcome_perform {result : Option ConnectResponse} {o : SocketOp} {r : o.Result} (h : Outcome username result w)
    (hperform : w.perform o = some (r, w')) : Outcome username result w' := by
  obtain ⟨hserver, hsock⟩ := perform_server hperform
  obtain ⟨server, sock, toServer, taken⟩ := w
  obtain ⟨server', sock', toServer', taken'⟩ := w'
  obtain ⟨rfl, rfl⟩ : server' = server ∧ sock' = sock := ⟨hserver, hsock⟩
  cases result with
  | none => exact ⟨h.accepted, h.closed⟩
  | some res => exact ⟨h.accepted, h.greeting, h.replied⟩

/-- Any operation is performed, and any state of the world is good enough for it. -/
abbrev Anyhow : World H → SocketOp → Prop := fun _ _ => True

theorem answer_holds {result : Option ConnectResponse} (h : Outcome username result w) :
    (setting hd ext).Holds Anyhow Anyhow (answer result) (Outcome username) w := by
  unfold answer
  refine Setting.holds_bind.2 (Setting.holds_call (stable_outcome result) h (fun _ _ => trivial) ?_)
  intro w₁ _ w₂ h₁ _ hp
  obtain ⟨-, rfl⟩ := Prod.mk.inj (Option.some.inj hp)
  exact h₁

/-- A read finds all its bytes, or the connection broken. -/
theorem read_cases {n : ℕ} {bs : List UInt8} (h : w.perform (.read n) = some (bs, w')) :
    bs = w.arrived.take n ∧ w' = { w with taken := w.taken + min n w.arrived.length } ∧
      (n ≤ w.arrived.length ∨ w.server.isOpen w.sock = false) := by
  simp only [World.perform] at h
  split_ifs at h with hcond
  obtain ⟨hbs, hw⟩ := Prod.mk.inj (Option.some.inj h)
  exact ⟨hbs.symm, hw.symm, hcond⟩

/-- What has arrived begins with the response. -/
theorem arrived_eq (h : Talks username (connectRequest username) 0 w) (hne : w.arrived ≠ []) (hfew : Few w) :
    ∃ res, Replied res w ∧ ∃ tail, w.arrived = 2 :: tail := by
  have hsent : w.server.sent w.sock ≠ [] := by
    intro he
    rw [World.arrived, he] at hne
    exact hne (by simp)
  obtain ⟨u, time, rest, hrest, -⟩ := (h.greets.greeting hfew).stage.welcomed hsent
  refine ⟨⟨u.playerId, 5252, time⟩, fun _ => ⟨rfl, rest, hrest⟩, ?_⟩
  rw [World.arrived, hrest, h.taken]
  exact ⟨_, rfl⟩

/-- A response is read back. -/
theorem ofBytes_eq (res : ConnectResponse) :
    ConnectResponse.ofBytes (le32 res.playerId ++ le16 res.udpPort ++ le32 res.serverTimeMs) = res := by
  have h1 : (le32 res.playerId ++ le16 res.udpPort ++ le32 res.serverTimeMs).take 4 = le32 res.playerId := by
    rw [List.append_assoc, List.take_left' (length_le32 _)]
  have h2 : ((le32 res.playerId ++ le16 res.udpPort ++ le32 res.serverTimeMs).drop 4).take 2 = le16 res.udpPort := by
    rw [List.append_assoc, List.drop_left' (length_le32 _), List.take_left' (length_le16 _)]
  have h3 : (le32 res.playerId ++ le16 res.udpPort ++ le32 res.serverTimeMs).drop 6 = le32 res.serverTimeMs :=
    List.drop_left' (by simp)
  rw [ConnectResponse.ofBytes, h1, h2, h3, ofLe32_le32, ofLe16_le16, ofLe32_le32]

/-- The rest of the response. -/
theorem arrived_rest {res : ConnectResponse} (htaken : w.taken = 1) (h : Replied res w) (hfew : Few w) :
    10 ≤ w.arrived.length ∧ ConnectResponse.ofBytes (w.arrived.take 10) = res := by
  obtain ⟨hport, rest, hrest⟩ := h hfew
  have harrived : w.arrived = le32 res.playerId ++ le16 5252 ++ le32 res.serverTimeMs ++ rest.flatMap Block.bytes := by
    rw [World.arrived, hrest, htaken, List.flatMap_cons, Block.bytes, List.cons_append, List.drop_one, List.tail_cons]
  have hlen : (le32 res.playerId ++ le16 5252 ++ le32 res.serverTimeMs).length = 10 := by
    simp [length_le32, length_le16]
  refine ⟨?_, ?_⟩
  · rw [harrived, List.length_append, hlen]
    omega
  · rw [harrived, List.take_left' hlen, ← hport]
    exact ofBytes_eq res

/-- The rest of `sendConnectRequest`, once the response has a type. -/
theorem typed_holds {res : ConnectResponse} {type : List UInt8} (h : Talks username (connectRequest username) 1 w)
    (hreplied : Replied res w) (hlen : ¬type.length < 1) (htype : Few w → type.headD 0 = 2) :
    (setting hd ext).Holds Anyhow Anyhow (handleResponse type) (Outcome username) w := by
  have hlost : type.headD 0 ≠ 2 → Lost w := fun hne => ⟨h.greets.accepted, fun hfew => absurd (htype hfew) hne⟩
  unfold handleResponse
  rw [if_neg hlen]
  split_ifs with h2 h3
  · have hstable : (setting hd ext).Stable fun w => Talks username (connectRequest username) 1 w ∧ Replied res w := by
      intro w w' h hev
      exact ⟨stable_talks (.inr rfl) 1 w w' h.1 hev, stable_replied res w w' h.2 hev⟩
    refine Setting.holds_bind.2 (Setting.holds_call hstable ⟨h, hreplied⟩ (fun _ _ => trivial) ?_)
    rintro w₁ bs w₂ ⟨htalks, hreplied₁⟩ - hp
    obtain ⟨rfl, rfl, -⟩ := read_cases hp
    split_ifs with hshort
    · refine answer_holds ⟨htalks.greets.accepted, fun hfew => absurd hshort ?_⟩
      have hten := (arrived_rest htalks.taken hreplied₁ hfew).1
      rw [List.length_take]
      omega
    · refine answer_holds ⟨htalks.greets.accepted, htalks.greets.greeting, fun hfew => ?_⟩
      rw [(arrived_rest htalks.taken hreplied₁ hfew).2]
      exact hreplied₁ hfew
  · refine Setting.holds_bind.2 (Setting.holds_call stable_lost (hlost h2) (fun _ _ => trivial) ?_)
    intro w₁ _ w₂ h₁ _ hp
    obtain ⟨-, rfl, -⟩ := read_cases hp
    exact answer_holds ⟨h₁.accepted, h₁.closed⟩
  · exact answer_holds (hlost h2)

/-- The read of the type. -/
theorem response_holds (h : Talks username (connectRequest username) 0 w)
    (hfound : 1 ≤ w.arrived.length ∨ w.server.isOpen w.sock = false) :
    (setting hd ext).Holds Anyhow Anyhow (handleResponse (w.arrived.take 1)) (Outcome username)
      { w with taken := w.taken + min 1 w.arrived.length } := by
  by_cases hnone : w.arrived = []
  · have hshort : (w.arrived.take 1).length < 1 := by simp [hnone]
    unfold handleResponse
    rw [if_pos hshort]
    refine answer_holds ⟨h.greets.accepted, fun _ => hfound.resolve_left ?_⟩
    simp [hnone]
  · have hlen : 1 ≤ w.arrived.length := List.length_pos_of_ne_nil hnone
    obtain ⟨res, hreplied, htype⟩ : ∃ res, Replied res w ∧ (Few w → (w.arrived.take 1).headD 0 = 2) := by
      by_cases hfew : Few w
      · obtain ⟨res, hreplied, tail, htail⟩ := arrived_eq h hnone hfew
        exact ⟨res, hreplied, fun _ => by rw [htail]; rfl⟩
      · exact ⟨⟨0, 0, 0⟩, fun hf => absurd hf hfew, fun hf => absurd hf hfew⟩
    refine typed_holds ⟨⟨h.greets.accepted, h.greets.pending, h.greets.greeting⟩, ?_⟩ hreplied ?_ htype
    · simp only [h.taken, min_eq_left hlen, Nat.zero_add]
    · rw [List.length_take, min_eq_left hlen]
      exact lt_irrefl 1

/-- **The client.** -/
theorem sendConnectRequest_holds (hd : ITCPHandler H) (ext : ε → H → H) (h : Talks username [] 0 w) :
    (setting hd ext).Holds Anyhow Anyhow (sendConnectRequest username) (Outcome username) w := by
  unfold sendConnectRequest
  refine Setting.holds_bind.2 (Setting.holds_call (stable_talks (.inl rfl) 0) h (fun _ _ => trivial) ?_)
  intro w₁ _ w₁' h₁ _ hp₁
  obtain ⟨-, rfl⟩ := Prod.mk.inj (Option.some.inj hp₁)
  refine Setting.holds_bind.2 (Setting.holds_call (stable_talks (.inl rfl) 0) h₁ (fun _ _ => trivial) ?_)
  intro w₂ failed w₃ h₂ _ hp₂
  simp only [setting, World.perform] at hp₂
  split_ifs at hp₂ with hopen
  · obtain ⟨rfl, rfl⟩ := Prod.mk.inj (Option.some.inj hp₂)
    have h₃ : Talks username (connectRequest username) 0 { w₂ with toServer := w₂.toServer ++ connectRequest username } := by
      refine ⟨⟨h₂.greets.accepted, fun hpc => ?_, h₂.greets.greeting⟩, h₂.taken⟩
      exact congrArg (· ++ connectRequest username) (h₂.greets.pending hpc)
    rw [if_neg Bool.false_ne_true]
    refine Setting.holds_bind.2 (Setting.holds_call (stable_talks (.inr rfl) 0) h₃ (fun _ _ => trivial) ?_)
    intro w₄ type w₅ h₄ _ hp₄
    obtain ⟨rfl, rfl, hfound⟩ := read_cases hp₄
    exact response_holds h₄ hfound
  · obtain ⟨rfl, rfl⟩ := Prod.mk.inj (Option.some.inj hp₂)
    exact answer_holds ⟨h₂.greets.accepted, fun _ => by simpa using hopen⟩

/-! ## Whole runs -/

/-- The server knows the client by the id and the name that the client knows. -/
structure Known (username : List UInt8) (res : ConnectResponse) (w : World H) : Prop where
  port : res.udpPort = 5252
  response : ∃ rest, w.server.sent w.sock = .connectResponse res.playerId 5252 res.serverTimeMs :: rest
  peer : ∀ u, (w.server.pc w.sock).peer = some u → u = ⟨res.playerId, cText 31 username⟩
  socket : (w.server.pc w.sock).peer ≠ none → w.server.playerSockets[res.playerId]? = some w.sock
  name : (w.server.pc w.sock).peer ≠ none → w.server.playerUsernames[res.playerId]? = some (cText 31 username)

/-- What a call of `sendConnectRequest` that has returned says about the server. -/
def Agrees (username : List UInt8) : Option ConnectResponse → World H → Prop
  | some res, w => Known username res w
  | none, w => w.server.isOpen w.sock = false

theorem agrees_of_outcome {result : Option ConnectResponse} (h : Outcome username result w) (hfew : Few w) :
    Agrees username result w := by
  cases result with
  | none => exact h.closed hfew
  | some res =>
    obtain ⟨hport, rest, hrest⟩ := h.replied hfew
    have hgreeting := h.greeting hfew
    have hne : w.server.sent w.sock ≠ [] := by
      rw [hrest]
      exact List.cons_ne_nil _ _
    obtain ⟨u, time, rest', hu, hname, hpeer⟩ := hgreeting.stage.welcomed hne
    obtain ⟨hblock, -⟩ := List.cons.inj (hrest.symm.trans hu)
    obtain ⟨hid, -, -⟩ := Block.connectResponse.inj hblock
    have hu' : u = ⟨res.playerId, cText 31 username⟩ := by
      rw [hid, ← hname]
    have hgreeted : (w.server.pc w.sock).greeting = false := by
      by_contra hg
      exact hne (hgreeting.stage.unheard (by simpa using hg))
    have hrank : ∀ u', (w.server.pc w.sock).peer = some u' → 2 ≤ (w.server.pc w.sock).rank := by
      intro u' hu'
      refine Pc.two_le_rank hu' fun he => ?_
      rw [he] at hgreeted
      cases hgreeted
    refine ⟨hport, ⟨rest, hrest⟩, fun u' hu'' => (hpeer u' hu'').trans hu', fun hsome => ?_, fun hsome => ?_⟩
    · obtain ⟨u', hpeer'⟩ := Option.ne_none_iff_exists'.1 hsome
      have hentry := hgreeting.tables.relays.registered w.sock u' hpeer' (hrank u' hpeer')
      rwa [hpeer u' hpeer', hu'] at hentry
    · obtain ⟨u', hpeer'⟩ := Option.ne_none_iff_exists'.1 hsome
      have hentry := hgreeting.tables.usernames w.sock u' hpeer' (hrank u' hpeer')
      rwa [hpeer u' hpeer', hu'] at hentry

/-- The tables in every state of a run that accepts few connections. -/
theorem tables_run {h : H} {labels : List (TCPServer.Label ε)} {s : TCPServer H}
    (hr : (TCPServer.machine hd ext).run (init h) labels = some s) : s.accepted < 2 ^ 32 → Tables s := by
  refine Machine.inv_run (M := TCPServer.machine hd ext) (I := fun s => s.accepted < 2 ^ 32 → Tables s) ?_ labels _ s
    (fun _ => tables_init h) hr
  intro s l s' ih hs hlt
  have hlt' : s.accepted < 2 ^ 32 := (accepted_le_step hs).trans_lt hlt
  exact tables_step (ih hlt') hs hlt'

/-- **Both sides of a handshake agree**, from when the call has returned on, whatever the client
does with its socket then. -/
theorem sendConnectRequest_agrees (hd : ITCPHandler H) (ext : ε → H → H) (h : H) (username : List UInt8)
    (pre : List (TCPServer.Label ε)) (labels later : List (Label (SocketM Unit) (TCPServer.Label ε))) {s : TCPServer H}
    {u t : State SocketOp SocketOp.Result (Option ConnectResponse) (World H)} {result : Option ConnectResponse}
    (hpre : (TCPServer.machine hd ext).run (init h) pre = some s)
    (hr : (machine hd ext).run ⟨sendConnectRequest username, .connected s⟩ labels = some u)
    (hreturned : u.prog = .ret result) (hlater : (machine hd ext).run u later = some t)
    (hfew : t.world.server.accepted < 2 ^ 32) : Agrees username result t.world := by
  have hstart : Talks username [] 0 (World.connected s) := by
    refine ⟨⟨Nat.lt_succ_self _, fun _ => rfl, fun hlt => ?_⟩, rfl⟩
    have hlt' : s.accepted < 2 ^ 32 := (Nat.lt_succ_self _).trans hlt
    exact greeting_connected hd ext (tables_run hpre hlt') hlt'
  have hholds := sendConnectRequest_holds hd ext hstart
  have hkept : ∀ (result : Option ConnectResponse) w (o : SocketOp) r w', Outcome username result w →
      (setting hd ext).perform w o = some (r, w') → Outcome username result w' :=
    fun _ _ _ _ _ hw hperform => outcome_perform hw hperform
  have hbody : ∀ (p : SocketM Unit) (result : Option ConnectResponse) q w, Outcome username result w →
      some (p >>= fun _ => Prog.ret result) = some q → (setting hd ext).Holds Anyhow Anyhow q (Outcome username) w := by
    intro p result q w hw hq
    obtain rfl := Option.some.inj hq
    exact Setting.holds_bind.2 (Setting.holds_of_kept (stable_outcome result) (hkept result) (fun _ _ _ => trivial) p hw)
  have halong : (machine hd ext).Along (Setting.Meets Anyhow) ⟨sendConnectRequest username, .connected s⟩ labels := by
    refine Machine.along_of_forall fun _ l _ s _ _ => ?_
    unfold Setting.Meets
    split <;> trivial
  have hout := (Setting.inv_run stable_outcome hbody hholds halong hr).1 result hreturned
  exact agrees_of_outcome (Setting.inv_world (stable_outcome result) (hkept result) hout hlater) hfew

/-- `Bob` connects: his request is written, read and answered, and he reads the response. -/
def bobsLabels : List (Label (SocketM Unit) (TCPServer.Label ServerManager.Event)) :=
  [.act, .act, .move (.thread 0 ⟨bobsRequest, 7, ⟨0, 0⟩⟩)] ++
    List.replicate 4 (.move (.thread 0 ⟨bobsRequest, 7, ⟨0, 0⟩⟩)) ++ [.act, .act, .act]

/-- Then he asks for the rooms, and his thread reads the request and answers it. -/
def bobsRooms : List (Label (SocketM Unit) (TCPServer.Label ServerManager.Event)) :=
  .start (do let _ ← write [TCPMessageType.listRooms.code]) :: .act ::
    List.replicate 3 (.move (.thread 0 ⟨⟨[TCPMessageType.listRooms.code], none, []⟩, 7, ⟨0, 0⟩⟩))

theorem sendConnectRequest_agrees_bob :
    ∃ u t : State SocketOp SocketOp.Result (Option ConnectResponse) (World (ServerManager Float32)),
      (machine ServerManager.handler ServerManager.react).run
        ⟨sendConnectRequest [66, 111, 98], .connected (init ServerManager.init)⟩ bobsLabels = some u ∧
      u.prog = .ret (some ⟨1, 5252, 7⟩) ∧
      (machine ServerManager.handler ServerManager.react).run u bobsRooms = some t ∧
      t.world.server.sent 0 = [.connectResponse 1 5252 7, .listRoomsResponse 0] ∧
      Agrees [66, 111, 98] (some ⟨1, 5252, 7⟩) t.world :=
  ⟨_, _, rfl, rfl, rfl, rfl, sendConnectRequest_agrees ServerManager.handler ServerManager.react ServerManager.init
    [66, 111, 98] [] bobsLabels bobsRooms rfl rfl rfl rfl (by decide)⟩

end Handshake

end RType

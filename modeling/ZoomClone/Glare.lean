/-
Who starts the negotiation: never both.

A browser becomes the initiator towards a participant when a `peer.joined` names
one that it does not know.  While a `peer.joined` is only sent for open rows, that
participant is younger than its own: the older open rows were all in the snapshot
of its socket, and who is known is forgotten only after its row is closed.

* `Network.Ordered` — the invariant: an initiator is older than its peer, and what
  is on the wire will keep it so;
* `Network.always_glareFree` — no pair has two initiators;
* `Network.resurrected_glare` — a socket that was let in before its row was closed
  announces a participant that has left.
-/
import ZoomClone.Scripts

namespace ZoomClone

namespace Network

/-- No two browsers are initiators towards each other. -/
def GlareFree (n : Network) : Prop :=
  ∀ a b, a ≠ b →
    ¬ (roleIn (n.clients a).peers b = some true ∧ roleIn (n.clients b).peers a = some true)

/-- Whom the next send of a handler announces. -/
def announced (n : Network) : NetEvent → Option ParticipantId
  | .act c =>
    match n.tasks c with
    | some (.handling _ _ (.broadcast _ f _ :: _)) => WireItem.joins (.frame f)
    | _ => none
  | _ => none

/-- Whoever is announced by this event has an open row. -/
def AnnouncesPresent (n : Network) (e : NetEvent) : Prop :=
  ∀ p ∈ n.announced e, ∃ row ∈ n.server.db.getParticipant p, row.leftAt = none

instance (n : Network) (e : NetEvent) : Decidable (AnnouncesPresent n e) :=
  inferInstanceAs (Decidable (∀ p ∈ n.announced e, ∃ row ∈ n.server.db.getParticipant p, _))

/-! ### The invariant -/

/-- Who stands before `b` in the table and is announced by the item is known. -/
def Expected (n : Network) (b : ParticipantId) (peers : Option PeerManager) (item : WireItem) :
    Prop :=
  ∀ a, item.joins = some a → n.server.db.participants.Before a b → Knows peers a

/-- An initiator is older than its peer.  On the current socket of a browser,
nothing that is still to come announces an older participant as a new one, and in
the end every older open row of the meeting is known. -/
structure Ordered (n : Network) : Prop where
  older : ∀ a b, a ≠ b → roleIn (n.clients b).peers a = some true →
    n.server.db.participants.Before b a
  row : ∀ b, (n.clients b).peers ≠ none → b ∈ n.server.db.participants.keys
  expected : ∀ c d down script, n.tasks c = some (.handling d down script) →
    (n.clients d.participantId).socket = some c →
      Runs.Guarded meshStep (n.Expected d.participantId) (n.clients d.participantId).peers
        (n.wires c).pending
  known : ∀ c d down script, n.tasks c = some (.handling d down script) →
    (n.clients d.participantId).socket = some c →
      ∀ row ∈ n.server.db.participants, row.leftAt = none → row.meetingId = d.meetingId →
        n.server.db.participants.Before row.id d.participantId →
          Knows (Runs.run meshStep (n.clients d.participantId).peers (n.wires c).pending) row.id
  unannounced : ∀ c t, n.tasks c = some t → (∀ d down script, t ≠ .handling d down script) →
    ∀ item ∈ (n.wires c).pending, item.joins = none

variable {n n' : Network} {e : NetEvent}

/-- Nobody is initiator towards a participant that is initiator towards it. -/
theorem Ordered.glareFree (h : n.Ordered) : n.GlareFree := by
  rintro a b hne ⟨hab, hba⟩
  exact (h.older b a hne.symm hab).asymm (h.older a b hne hba)

theorem ordered_init : ({} : Network).Ordered where
  older := by
    intro a b _ h
    cases h
  row := by
    intro b h
    exact absurd rfl h
  expected := by
    intro c d down script h
    cases h
  known := by
    intro c d down script h
    cases h
  unannounced := by
    intro c t h
    cases h

/-! ### One event keeps it -/

section Step

variable (hv : n.Valid) (hs : n.Scripted) (ho : n.Ordered) (h : n.Step e n') (hv' : n'.Valid)
  (hpresent : n.AnnouncesPresent e)

include hv h in
/-- The participant of a registered socket has a row. -/
theorem mem_keys_of_handling {c : ConnectionId} {d : Connection} {down : Bool}
    {script : List Action} (htask' : n'.tasks c = some (.handling d down script)) :
    d.participantId ∈ n.server.db.participants.keys := by
  rcases h.handling htask' with ⟨_, _, htask⟩ | ⟨-, m, q, htask, rfl⟩
  · obtain ⟨row, hrow, hid, -⟩ := hv.row_of_handling htask
    exact Keyed.mem_keys.mpr ⟨row, hrow, hid⟩
  · obtain ⟨row, hrow, hid, -⟩ := hv.accepting c m q htask
    exact Keyed.mem_keys.mpr ⟨row, hrow, hid⟩

include h in
theorem Expected.step {b : ParticipantId} (hb : b ∈ n.server.db.participants.keys)
    {peers : Option PeerManager} {item : WireItem} (hexpected : n.Expected b peers item) :
    n'.Expected b peers item := by
  obtain ⟨added, hkeys⟩ := h.keys
  intro a ha hbefore
  exact hexpected a ha ((Keyed.before_append_left hkeys hb).mp hbefore)

include hv hs ho h hpresent in
/-- What is announced on a wire is known at the end of it, if it is older. -/
theorem Ordered.expected_step {c : ConnectionId} {d : Connection} {down : Bool}
    {script : List Action} (htask' : n'.tasks c = some (.handling d down script))
    (hsocket' : (n'.clients d.participantId).socket = some c) :
    Runs.Guarded meshStep (n'.Expected d.participantId) (n'.clients d.participantId).peers
      (n'.wires c).pending := by
  have hmem := mem_keys_of_handling hv h htask'
  obtain ⟨hsocket, hwire⟩ := h.mesh hv hs htask' hsocket'
  have hold : Runs.Guarded meshStep (n.Expected d.participantId)
      (n.clients d.participantId).peers (n.wires c).pending := by
    rcases h.handling htask' with ⟨down, script, htask⟩ | ⟨-, m, q, htask, -⟩
    · exact ho.expected c d down script htask hsocket
    · -- Nothing was announced to a socket that was not registered.
      intro pre item hpre a ha
      have hitem : item ∈ (n.wires c).pending :=
        hpre.subset (List.mem_append_right pre (List.mem_singleton_self item))
      rw [ho.unannounced c _ htask (fun d down script heq => by cases heq) item hitem] at ha
      cases ha
  rcases hwire with ⟨sent, hsent, hpending, hpeers⟩ | ⟨item, -, hpending, hpeers⟩
  · rw [hpending, hpeers]
    refine Runs.guarded_append.mpr ⟨hold.mono fun _ _ => Expected.step h hmem, ?_⟩
    intro pre item hpre a ha hbefore
    have hitem : item ∈ sent :=
      hpre.subset (List.mem_append_right pre (List.mem_singleton_self item))
    cases hsent with
    | announced c₀ d₀ you htask₀ hyou htarget hne =>
      -- The frame is all there is, and everybody older is known already.
      obtain rfl := List.mem_singleton.mp hitem
      have hpre : pre = [] := by
        have hlength := hpre.length_le
        rw [List.length_append, List.length_singleton] at hlength
        exact List.length_eq_zero_iff.mp (by omega)
      subst hpre
      obtain rfl : you.id = a := Option.some.inj ha
      obtain ⟨down, script, htask⟩ : ∃ down script, n.tasks c = some (.handling d down script) := by
        rcases h.handling htask' with htask | ⟨he, -⟩
        · exact htask
        · cases he
      obtain ⟨row, hrow, hopen⟩ := hpresent you.id (by rw [announced, htask₀]; rfl)
      obtain ⟨hrow, hid⟩ := Keyed.find?_eq_some.mp hrow
      have hmeeting : row.meetingId = d.meetingId := by
        obtain ⟨row₀, hrow₀, hid₀, hmeeting₀⟩ := hv.row_of_handling htask₀
        obtain rfl := Keyed.eq_of_key_eq hrow hrow₀ (hid.trans (hyou.trans hid₀.symm))
        obtain ⟨d', hd', hc'⟩ := htarget
        rw [hmeeting₀, (hv.eq_of_connections htask hd' hc').2]
      have hbefore' : n.server.db.participants.Before row.id d.participantId := by
        obtain ⟨added, hkeys⟩ := h.keys
        rw [hid]
        exact (Keyed.before_append_left hkeys hmem).mp hbefore
      rw [Runs.run_nil, ← hid]
      exact ho.known c d down script htask hsocket row hrow hopen hmeeting hbefore'
    | refusal url err htask hauth =>
      rcases List.mem_cons.mp hitem with rfl | hitem
      · cases ha
      · obtain rfl := List.mem_singleton.mp hitem
        cases ha
    | snapshot m q snapshot htask hyou hroster =>
      obtain rfl := List.mem_singleton.mp hitem
      cases ha
    | replies c₀ d₀ down a' script items htask hreply hitems =>
      rw [(hitems item hitem).joins] at ha
      cases ha
    | nothing hregister hact => cases hitem
  · rw [hpending] at hold
    rw [hpeers]
    exact (Runs.guarded_cons.mp hold).2.mono fun _ _ => Expected.step h hmem

include hv hs ho h in
/-- At the end of a wire every older open row of the meeting is known. -/
theorem Ordered.known_step {c : ConnectionId} {d : Connection} {down : Bool}
    {script : List Action} (htask' : n'.tasks c = some (.handling d down script))
    (hsocket' : (n'.clients d.participantId).socket = some c) {row' : Participant}
    (hrow' : row' ∈ n'.server.db.participants) (hopen' : row'.leftAt = none)
    (hmeeting' : row'.meetingId = d.meetingId)
    (hbefore' : n'.server.db.participants.Before row'.id d.participantId) :
    Knows (Runs.run meshStep (n'.clients d.participantId).peers (n'.wires c).pending) row'.id := by
  have hmem := mem_keys_of_handling hv h htask'
  obtain ⟨hsocket, hwire⟩ := h.mesh hv hs htask' hsocket'
  obtain ⟨added, hkeys⟩ := h.keys
  have hbefore := (Keyed.before_append_left hkeys hmem).mp hbefore'
  -- An older row was there before.
  obtain ⟨row, hrow, hid⟩ := Keyed.mem_keys.mp hbefore.mem
  obtain ⟨hevolves, -⟩ := h.row hrow hrow' hid.symm
  have hopen := hevolves.open_of_open hopen'
  have hmeeting : row.meetingId = d.meetingId := hevolves.meetingId.symm.trans hmeeting'
  have hkept : ∀ sent, Sends n c e sent → ∀ item ∈ sent, item.parts ≠ some row'.id := by
    intro sent hsent item hitem hparts
    obtain ⟨closed, hclosed, hclosedId, hleft⟩ := hsent.parts hitem hparts
    obtain rfl := Keyed.eq_of_key_eq hclosed hrow (hclosedId.trans hid.symm)
    exact hleft hopen
  rcases h.handling htask' with ⟨down, script, htask⟩ | ⟨rfl, m, q, htask, rfl⟩
  · have hknown := ho.known c d down script htask hsocket row hrow hopen hmeeting (hid ▸ hbefore)
    rw [hid] at hknown
    rcases hwire with ⟨sent, hsent, hpending, hpeers⟩ | ⟨item, -, hpending, hpeers⟩
    · rw [hpending, hpeers, Runs.run_append]
      exact (Runs.always_of_mem (I := fun peers => Knows peers row'.id) hknown
        fun peers item hitem hk => hk.meshStep (hkept sent hsent item hitem)).last
    · rw [hpending, Runs.run_cons] at hknown
      rwa [hpeers]
  · rcases hwire with ⟨sent, hsent, hpending, hpeers⟩ | ⟨item, he, -⟩
    · cases hsent with
      | nothing hregister hact => exact absurd rfl hregister
      | snapshot m' q' snapshot htask₁ hyou hroster =>
        -- The snapshot of the new socket lists every open row.
        rw [htask] at htask₁
        cases htask₁
        rw [hpending, hpeers, Runs.run_append]
        have hview : serializeParticipant row' ∈ snapshot.participants := by
          rw [hroster, ← (h.registered_task htask).1, mem_activeRoster]
          exact ⟨row', Db.mem_activeRows.mpr ⟨hrow', hmeeting', hopen'⟩, rfl⟩
        rw [Runs.run_cons, Runs.run_nil]
        have hne : row'.id ≠ snapshot.you.id := by
          rw [hyou]
          exact hbefore.ne
        exact knows_roomState rfl hview hne
    · cases he

include hv hs ho h in
/-- Nobody is announced on a wire before its socket is registered. -/
theorem Ordered.unannounced_step {c : ConnectionId} {t' : SocketTask}
    (htask' : n'.tasks c = some t')
    (hwaiting : ∀ d down script, t' ≠ .handling d down script) {item : WireItem}
    (hitem : item ∈ (n'.wires c).pending) : item.joins = none := by
  -- The task before was not in the handler either.
  have hbefore : (n'.wires c).pending = [] ∨
      ∃ t, n.tasks c = some t ∧ ∀ d down script, t ≠ .handling d down script := by
    rcases h.task c with heq | ⟨-, hwire, -⟩ | ⟨t, t'', ht, ht'', hmoves⟩
    · exact .inr ⟨t', heq.symm.trans htask', hwaiting⟩
    · exact .inl (by rw [hwire])
    · rw [htask'] at ht''
      obtain rfl := Option.some.inj ht''
      refine .inr ⟨t, ht, ?_⟩
      rintro d down script rfl
      cases hmoves with
      | acted _ _ a script left hleft => exact hwaiting _ _ _ rfl
      | handled _ message id now actions hactions => exact hwaiting _ _ _ rfl
      | tornDown _ now actions hactions => exact hwaiting _ _ _ rfl
  rcases hbefore with hnil | ⟨t, ht, hnot⟩
  · rw [hnil] at hitem
    cases hitem
  · have hold := ho.unannounced c t ht hnot
    rcases h.sends hv hs (b := c) (by rw [ht]; exact Option.some_ne_none t) with
      ⟨sent, hsent, hpending⟩ | ⟨p, item', -, -, hpending⟩
    · rw [hpending] at hitem
      rcases List.mem_append.mp hitem with hitem | hitem
      · exact hold item hitem
      · cases hjoins : item.joins with
        | none => rfl
        | some a =>
          -- Announcements go to registered sockets.
          obtain ⟨c₀, d₀, you, -, -, -, d', hd', rfl⟩ := hsent.joins hitem hjoins
          obtain ⟨script, htask⟩ := hv.registered _ d' hd'
          rw [ht] at htask
          exact absurd (Option.some.inj htask) (hnot d' false script)
    · rw [hpending] at hold
      exact hold item (List.mem_cons_of_mem item' hitem)

include hv ho h in
/-- A browser becomes initiator towards younger participants only. -/
theorem Ordered.older_step {a b : ParticipantId} (hne : a ≠ b)
    (hrole : roleIn (n'.clients b).peers a = some true) :
    n'.server.db.participants.Before b a := by
  obtain ⟨added, hkeys⟩ := h.keys
  -- A role that was there before is between rows that were there before.
  have hkept (hrole : roleIn (n.clients b).peers a = some true) :
      n'.server.db.participants.Before b a := by
    have hb : b ∈ n.server.db.participants.keys := by
      refine ho.row b ?_
      intro hnone
      rw [hnone] at hrole
      cases hrole
    exact Keyed.before_append_right hkeys hb (ho.older a b hne hrole)
  cases h.client b with
  | kept he hclient =>
    rw [hclient] at hrole
    exact hkept hrole
  | took c item hsocket hpending hclient =>
    rw [hclient, peers_receive] at hrole
    rcases roleIn_meshStep_true hrole with hrole | ⟨hjoins, hnew⟩
    · exact hkept hrole
    · -- A new initiator: the participant it was told of was not known.
      have hb : b ∈ n.server.db.participants.keys := by
        refine ho.row b ?_
        intro hnone
        rw [hnone] at hnew
        exact hnew knows_none
      have hyounger : ¬ n.server.db.participants.Before a b := by
        intro hbefore
        obtain ⟨client, t, -, ht, hserves⟩ := hv.task_of_socket hsocket
        by_cases hhandling : ∃ d down script, t = .handling d down script
        · obtain ⟨d, down, script, rfl⟩ := hhandling
          obtain rfl : d.participantId = b := hserves
          have hexpected := ho.expected c d down script ht hsocket
          rw [hpending] at hexpected
          exact hnew ((Runs.guarded_cons.mp hexpected).1 a hjoins hbefore)
        · have hnone := ho.unannounced c t ht
            (fun d down script heq => hhandling ⟨d, down, script, heq⟩) item
            (by rw [hpending]; exact List.mem_cons_self)
          rw [hjoins] at hnone
          cases hnone
      rcases Keyed.before_or_before hb hne with hbefore | hbefore
      · exact absurd hbefore hyounger
      · exact Keyed.before_append_right hkeys hb hbefore
  | joined c hfresh hsocket hnew hpeers =>
    rw [hpeers] at hrole
    cases hrole
  | reconnected c hfresh hsocket hpeers =>
    rw [hpeers] at hrole
    exact hkept hrole
  | dropped hsocket hpeers =>
    rw [hpeers] at hrole
    exact hkept hrole
  | left hsocket hpeers =>
    rw [hpeers] at hrole
    cases hrole

include ho h hv' in
/-- Who has a mesh has a row. -/
theorem Ordered.row_step {b : ParticipantId} (hpeers' : (n'.clients b).peers ≠ none) :
    b ∈ n'.server.db.participants.keys := by
  obtain ⟨added, hkeys⟩ := h.keys
  have hkept (hpeers : (n.clients b).peers ≠ none) : b ∈ n'.server.db.participants.keys := by
    rw [hkeys]
    exact List.mem_append_left _ (ho.row b hpeers)
  cases h.client b with
  | kept he hclient =>
    rw [hclient] at hpeers'
    exact hkept hpeers'
  | took c item hsocket hpending hclient =>
    rw [hclient, peers_receive] at hpeers'
    refine hkept ?_
    intro hnone
    rw [hnone, meshStep_none] at hpeers'
    exact hpeers' rfl
  | joined c hfresh hsocket hnew hpeers =>
    obtain ⟨client, hclient, -⟩ := Option.bind_eq_some_iff.mp hsocket
    obtain ⟨q, hq, hid, -⟩ := hv'.client b client hclient
    exact Keyed.mem_keys.mpr ⟨q, hq, hid⟩
  | reconnected c hfresh hsocket hpeers =>
    rw [hpeers] at hpeers'
    exact hkept hpeers'
  | dropped hsocket hpeers =>
    rw [hpeers] at hpeers'
    exact hkept hpeers'
  | left hsocket hpeers => exact absurd hpeers hpeers'

include hv hs ho h hv' hpresent in
/-- **One event keeps the order.** -/
theorem Ordered.step : n'.Ordered where
  older := fun _ _ hne hrole => ho.older_step hv h hne hrole
  row := fun _ hpeers => ho.row_step h hv' hpeers
  expected := fun _ _ _ _ htask hsocket => ho.expected_step hv hs h hpresent htask hsocket
  known := fun _ _ _ _ htask hsocket _ hrow hopen hmeeting hbefore =>
    ho.known_step hv hs h htask hsocket hrow hopen hmeeting hbefore
  unannounced := fun _ _ htask hwaiting _ hitem => ho.unannounced_step hv hs h htask hwaiting hitem

end Step

/-! ### Every run -/

/-- **Glare freedom.**  In every run whose `peer.joined` broadcasts find the row
that they announce open, no two browsers are ever initiators towards each
other. -/
theorem always_glareFree (events : List NetEvent)
    (hpresent : Runs.Guarded Network.next AnnouncesPresent {} events) :
    Runs.Always Network.next GlareFree {} events := by
  have hordered : Runs.Always Network.next (fun n => n.Valid ∧ n.Scripted ∧ n.Ordered)
      {} events := by
    refine Runs.Guarded.always ⟨valid_init, scripted_init, ordered_init⟩ ?_ hpresent
    rintro n e ⟨hv, hs, ho⟩ hpresent
    refine ⟨hv.next e, hs.next hv e, ?_⟩
    rcases next_cases hv.server e with h | h
    · rwa [h]
    · exact ho.step hv hs h (hv.next e) hpresent
  exact hordered.mono fun n hn => hn.2.2.glareFree

/-- A guest joins as participant `p`, and its room asks for socket `c`. -/
def joinAs (p : ParticipantId) (c : ConnectionId) (now : DateTime) : NetEvent :=
  .join "guest" "10000000003" (some "tok") none { id := p, sessionId := "s" ++ p } now c

/-- The handshake of a socket, up to the announcement. -/
def connectAs (c : ConnectionId) : List NetEvent := [.authenticate c, .register c, .act c]

/-- Two guests enter one after the other; the first becomes the initiator. -/
def enterTwo : List NetEvent :=
  openRequests.map .request ++ joinAs "1" "a1" 20 :: connectAs "a1" ++ .deliver "1" ::
    joinAs "2" "b1" 21 :: connectAs "b1" ++ [.deliver "2", .deliver "1"]

theorem always_glareFree_enterTwo : Runs.Always Network.next GlareFree {} enterTwo :=
  always_glareFree enterTwo (by decide +kernel)

/-- The first guest's retry is let in before the teardown of its old socket closes
its row, and announces it afterwards: both guests are initiators. -/
theorem resurrected_glare :
    ¬ Runs.Always Network.next GlareFree {} (enterTwo ++
      [.drop "1", .reconnect "1" "a2", .authenticate "a2", .disconnect "a1" 30, .act "a1",
        .register "a2", .act "a2", .deliver "2", .deliver "2"]) := by
  intro h
  refine h.last "1" "2" (by decide) ?_
  decide +kernel

end Network

end ZoomClone

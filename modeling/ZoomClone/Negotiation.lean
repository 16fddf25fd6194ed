/-
Who starts the negotiation: at least one of the two?

A browser never initiates towards the participants in its snapshot, and the
snapshot lists every open row, whether its socket is there yet or not.  So the
initiator of a pair is the one that was connected before the other had joined, and
a pair that joined before either was connected has none.

* `Roles` — the roles of a mesh, in terms of who came late and who has spoken;
* `Network.Meshed` — the invariant, relative to who was online before whom;
* `Network.negotiated_iff_precedes` — the pairs that are negotiated in the end.
-/
import ZoomClone.Glare
import ZoomClone.Quiet

namespace ZoomClone

/-! ### The roles of a mesh -/

/-- The roles of a browser towards the `others` of its meeting: it does not
initiate towards those that did not come `late`, and it initiates towards the late
ones once they have `spoken`.  Until then they are unknown to it. -/
structure Roles (others late spoken : ParticipantId → Prop) (pm : PeerManager) : Prop where
  live : pm.destroyed = false
  listed : ∀ b, others b → ¬ late b → pm.role b = some false
  called : ∀ b, others b → late b → spoken b → pm.role b = some true
  awaited : ∀ b, (others b → late b) → ¬ spoken b → pm.role b = none

section Roles

variable {others late spoken : ParticipantId → Prop} {pm : PeerManager} {s : ParticipantId}

/-- A signal from someone who has spoken changes no role. -/
theorem Roles.signal (hr : Roles others late spoken pm) (hs : spoken s) :
    Roles others late spoken (pm.addPeer s false) where
  live := by
    rw [PeerManager.destroyed_addPeer]
    exact hr.live
  listed := fun b hb hlate => PeerManager.role_addPeer_of_some hr.live (hr.listed b hb hlate)
  called := fun b hb hlate hspoken =>
    PeerManager.role_addPeer_of_some hr.live (hr.called b hb hlate hspoken)
  awaited := by
    intro b hb hspoken
    have hne : s ≠ b := by
      rintro rfl
      exact hspoken hs
    rw [PeerManager.role_addPeer_of_ne hr.live hne]
    exact hr.awaited b hb hspoken

/-- Who is announced has spoken: this side initiates, unless the snapshot listed
the participant. -/
theorem Roles.announce (hr : Roles others late spoken pm) :
    Roles others late (fun b => spoken b ∨ b = s) (pm.addPeer s true) where
  live := by
    rw [PeerManager.destroyed_addPeer]
    exact hr.live
  listed := fun b hb hlate => PeerManager.role_addPeer_of_some hr.live (hr.listed b hb hlate)
  called := by
    intro b hb hlate hspoken
    by_cases hbefore : spoken b
    · exact PeerManager.role_addPeer_of_some hr.live (hr.called b hb hlate hbefore)
    · -- The participant was not known before.
      have hs : s = b := (hspoken.resolve_left hbefore).symm
      rw [PeerManager.role_addPeer hr.live, if_pos hs, hr.awaited b (fun _ => hlate) hbefore,
        Option.getD_none]
  awaited := by
    intro b hb hspoken
    have hne : s ≠ b := fun heq => hspoken (.inr heq.symm)
    rw [PeerManager.role_addPeer_of_ne hr.live hne]
    exact hr.awaited b hb fun hbefore => hspoken (.inl hbefore)

/-- A new mesh initiates towards nobody in its first snapshot. -/
theorem roles_snapshot {views : List ParticipantView}
    (hlists : ∀ b, b ∈ views.map ParticipantView.id ↔ others b) (hlate : ∀ b, others b → ¬ late b) :
    Roles others late spoken (views.foldl (fun pm peer => pm.addPeer peer.id false) {}) where
  live := destroyed_foldl_addPeer views {}
  listed := by
    intro b hb _
    rw [role_foldl_addPeer rfl, if_pos ((hlists b).mpr hb)]
    rfl
  called := fun b hb hb' => absurd hb' (hlate b hb)
  awaited := by
    intro b hb _
    have hnot : b ∉ views.map ParticipantView.id := by
      intro hmem
      have hother := (hlists b).mp hmem
      exact hlate b hother (hb hother)
    rw [role_foldl_addPeer rfl, if_neg hnot]
    rfl

end Roles

/-! ### Who was there before whom -/

namespace Network

/-- The socket of `p`'s browser is registered. -/
def Online (n : Network) (p : ParticipantId) : Prop := ((n.clients p).socket.bind n.up).isSome

/-- `a` is online, and `b` has not joined yet. -/
def Precedes (n : Network) (a b : ParticipantId) : Prop :=
  n.Online a ∧ b ∉ n.server.db.participants.keys

instance (n : Network) (p : ParticipantId) : Decidable (n.Online p) :=
  inferInstanceAs (Decidable (_ = true))

instance (n : Network) (a b : ParticipantId) : Decidable (n.Precedes a b) :=
  inferInstanceAs (Decidable (_ ∧ _))

/-- One of the two is the initiator towards the other. -/
def Negotiated (n : Network) (a b : ParticipantId) : Prop :=
  roleIn (n.clients a).peers b = some true ∨ roleIn (n.clients b).peers a = some true

instance (n : Network) (a b : ParticipantId) : Decidable (n.Negotiated a b) :=
  inferInstanceAs (Decidable (_ ∨ _))

/-- `p` is connected in meeting `m`, its handler has nothing left to send, and
everything on its socket was delivered. -/
def SettledIn (n : Network) (m : MeetingId) (p : ParticipantId) : Prop :=
  ∃ c ∈ (n.clients p).socket, (∃ d ∈ n.idle c, d.meetingId = m) ∧ (n.wires c).pending.isEmpty

instance (n : Network) (m : MeetingId) (p : ParticipantId) : Decidable (n.SettledIn m p) :=
  inferInstanceAs (Decidable (∃ c ∈ (n.clients p).socket, (∃ d ∈ n.idle c, _) ∧ _))

/-- `b` is another participant of the meeting of `d`. -/
def Others (n : Network) (d : Connection) (b : ParticipantId) : Prop :=
  b ≠ d.participantId ∧ ∃ row ∈ n.server.db.participants, row.id = b ∧ row.meetingId = d.meetingId

/-- `b` was announced to its room. -/
def Spoken (n : Network) (b : ParticipantId) : Prop :=
  ∃ c d down script, n.tasks c = some (.handling d down script) ∧ d.participantId = b ∧
    ∀ you, script ≠ [announce d you]

/-- The event announces `b` to its room. -/
def Speaks (n : Network) (e : NetEvent) (b : ParticipantId) : Prop :=
  ∃ c d down you, e = .act c ∧ n.tasks c = some (.handling d down [announce d you]) ∧
    d.participantId = b

/-- What the browser of `p` will have made of everything on socket `c`. -/
def prospect (n : Network) (p : ParticipantId) (c : ConnectionId) : Option PeerManager :=
  Runs.run meshStep (n.clients p).peers (n.wires c).pending

/-! ### The invariant -/

/-- Everybody's roles, as they will be once everything on the wires is delivered,
where `early a b` says that `a` was online before `b` joined. -/
structure Meshed (n : Network) (early : ParticipantId → ParticipantId → Prop) : Prop where
  covered : ∀ a b, n.Precedes a b → early a b
  entered : ∀ a b, early a b → n.Online a
  blank : ∀ c t p, n.tasks c = some t → t.answered = false → (n.clients p).socket = some c →
    n.prospect p c = some {}
  roles : ∀ c d down script, n.tasks c = some (.handling d down script) →
    ∃ pm, n.prospect d.participantId c = some pm ∧
      Roles (n.Others d) (early d.participantId) n.Spoken pm

variable {n n' : Network} {e : NetEvent} {early early' : ParticipantId → ParticipantId → Prop}

theorem Meshed.congr (hm : n.Meshed early) (h : ∀ a b, early' a b ↔ early a b) :
    n.Meshed early' := by
  have heq : early' = early := funext fun a => funext fun b => propext (h a b)
  rwa [heq]

theorem not_online_init (p : ParticipantId) : ¬ ({} : Network).Online p := by
  intro h
  cases h

theorem meshed_init : ({} : Network).Meshed fun _ _ => False where
  covered := fun a _ h => not_online_init a h.1
  entered := fun _ _ h => h.elim
  blank := by
    intro c t p h
    cases h
  roles := by
    intro c d down script h
    cases h

/-- The announcement of a socket is no reply. -/
theorem not_reply_announce {db : Db} {d : Connection} {you : ParticipantView} :
    ¬ (announce d you).Reply db d := by
  intro h
  generalize ha : announce d you = a at h
  cases h with
  | farewell t hclosed =>
    injection ha with _ hframe
    injection hframe with hbody
    cases hbody
  | relay kind inbound t => cases ha
  | evict a hevicts hclosed =>
    subst ha
    have hfalse := hevicts _ rfl
    cases hfalse
  | plain a hplain =>
    subst ha
    obtain ⟨f, hf, hfalse⟩ := hplain
    obtain rfl := Option.some.inj hf
    cases hfalse

/-! ### Who has spoken, over one event -/

section Spoken

variable (hv : n.Valid) (hs : n.Scripted) (h : n.Step e n')

include h in
/-- Who has spoken after an event had spoken before, or speaks with it. -/
theorem Step.spoken_cases {b : ParticipantId} (hb : n'.Spoken b) : n.Spoken b ∨ n.Speaks e b := by
  obtain ⟨c, d, down, script, htask', rfl, hscript⟩ := hb
  rcases h.task c with heq | ⟨-, -, url, hurl, -⟩ | ⟨t, t', ht, ht', hmoves⟩
  · exact .inl ⟨c, d, down, script, heq ▸ htask', rfl, hscript⟩
  · rw [hurl] at htask'
    cases htask'
  · rw [htask'] at ht'
    obtain rfl := Option.some.inj ht'
    cases hmoves with
    | registered m q you hyou => exact absurd rfl (hscript you)
    | acted _ _ a script₀ left hleft =>
      by_cases hannounce : ∃ you, a :: script₀ = [announce d you]
      · obtain ⟨you, hannounce⟩ := hannounce
        exact .inr ⟨c, d, down, you, rfl, hannounce ▸ ht, rfl⟩
      · exact .inl ⟨c, d, down, a :: script₀, ht, rfl, fun you heq => hannounce ⟨you, heq⟩⟩
    | handled _ message id now actions hactions =>
      exact .inl ⟨c, d, false, [], ht, rfl, fun you heq => by cases heq⟩
    | tornDown _ now actions hactions =>
      exact .inl ⟨c, d, false, [], ht, rfl, fun you heq => by cases heq⟩

include hs h in
/-- Who has spoken has spoken. -/
theorem Step.spoken {b : ParticipantId} (hb : n.Spoken b) : n'.Spoken b := by
  obtain ⟨c, d, down, script, htask, rfl, hscript⟩ := hb
  have hreply : ∀ a ∈ script, a.Reply n.server.db d := by
    rcases hs c d down script htask with ⟨you, -, -, heq⟩ | hreply
    · exact absurd heq (hscript you)
    · exact hreply
  obtain ⟨down', script', htask', hreply'⟩ := h.replies htask hreply
  refine ⟨c, d, down', script', htask', rfl, ?_⟩
  rintro you rfl
  exact not_reply_announce (hreply' _ List.mem_cons_self)

include h in
/-- Who speaks has spoken. -/
theorem Step.speaks {b : ParticipantId} (hb : n.Speaks e b) : n'.Spoken b := by
  obtain ⟨c, d, down, you, rfl, htask, rfl⟩ := hb
  cases h with
  | acted connection down a script left registry sent htask₁ hperform =>
    rw [htask] at htask₁
    cases htask₁
    have hleft : left = [] := by
      have hrest : (performNext n.server.registry (announce d you) []).2.2 = [] := rfl
      rw [hperform] at hrest
      exact hrest
    subst hleft
    exact ⟨c, d, down, [], Function.update_self .., rfl, fun you heq => by cases heq⟩

include hv h in
/-- Who has spoken after an event had a row before it. -/
theorem Step.mem_keys_of_spoken {b : ParticipantId} (hb : n'.Spoken b) :
    b ∈ n.server.db.participants.keys := by
  obtain ⟨c, d, down, script, htask', rfl, -⟩ := hb
  exact mem_keys_of_handling hv h htask'

end Spoken

/-! ### One event keeps the roles -/

section Step

variable (hv : n.Valid) (hs : n.Scripted) (ha : n.Attended) (hm : n.Meshed early)
  (h : n.Step e n') (hquiet : e.quiet = true) (ha' : n'.Attended)

/-- A participant with a row has not been preceded since. -/
theorem Others.not_precedes {d : Connection} {a b : ParticipantId} (hb : n.Others d b) :
    ¬ n.Precedes a b := by
  obtain ⟨-, row, hrow, hid, -⟩ := hb
  exact fun hprecedes => hprecedes.2 (Keyed.mem_keys.mpr ⟨row, hrow, hid⟩)

include h in
theorem Others.step {d : Connection} {b : ParticipantId} (hb : n.Others d b) : n'.Others d b := by
  obtain ⟨hne, row, hrow, hid, hmeeting⟩ := hb
  obtain ⟨row', hrow', he⟩ := h.rows hrow
  exact ⟨hne, row', hrow', he.id.trans hid, he.meetingId.trans hmeeting⟩

include h in
/-- A participant that had a row was in the meeting before. -/
theorem Others.before {d : Connection} {b : ParticipantId} (hb : n'.Others d b)
    (hkey : b ∈ n.server.db.participants.keys) : n.Others d b := by
  obtain ⟨hne, row', hrow', hid', hmeeting⟩ := hb
  obtain ⟨row, hrow, hid⟩ := Keyed.mem_keys.mp hkey
  obtain ⟨he, -⟩ := h.row hrow hrow' (hid'.trans hid.symm)
  exact ⟨hne, row, hrow, hid, he.meetingId.symm.trans hmeeting⟩

include hv hm h in
/-- **The roles of a mesh over one event**, when those that count as having spoken
do so afterwards: a row that is new is one that the browser was online before. -/
theorem Meshed.roles_mono {d : Connection} (honline : n.Online d.participantId) {pm : PeerManager}
    {spoken : ParticipantId → Prop} (hr : Roles (n.Others d) (early d.participantId) spoken pm)
    (hspoken : ∀ b, spoken b → n'.Spoken b)
    (hspoken' : ∀ b, n.Others d b → n'.Spoken b → spoken b) :
    Roles (n'.Others d) (fun b => early d.participantId b ∨ n'.Precedes d.participantId b)
      n'.Spoken pm where
  live := hr.live
  listed := by
    intro b hb hlate
    by_cases hkey : b ∈ n.server.db.participants.keys
    · exact hr.listed b (hb.before h hkey) fun hearly => hlate (.inl hearly)
    · exact absurd (.inl (hm.covered _ b ⟨honline, hkey⟩)) hlate
  called := by
    intro b hb hlate hb'
    have hbefore := hb.before h (h.mem_keys_of_spoken hv hb')
    exact hr.called b hbefore (hlate.resolve_right hb.not_precedes) (hspoken' b hbefore hb')
  awaited := by
    intro b hlate hb'
    refine hr.awaited b ?_ fun hbefore => hb' (hspoken b hbefore)
    intro hb
    exact (hlate (hb.step h)).resolve_right (hb.step h).not_precedes

include hv ha in
/-- A participant whose socket is registered is online. -/
theorem Attended.online {c : ConnectionId} {d : Connection} {down : Bool} {script : List Action}
    (htask : n.tasks c = some (.handling d down script)) : n.Online d.participantId := by
  obtain ⟨hup, -⟩ := ha.registered c d down script htask
  subst hup
  rw [Online, ha.socket hv htask, Option.bind_some, up, htask]
  rfl

include hv ha h hquiet in
theorem Attended.online_step {p : ParticipantId} (hp : n.Online p) : n'.Online p := by
  obtain ⟨d, hd⟩ := Option.isSome_iff_exists.mp hp
  obtain ⟨c, hsocket, hup⟩ := Option.bind_eq_some_iff.mp hd
  obtain ⟨t, htask, ht⟩ := Option.bind_eq_some_iff.mp hup
  have hopen : t ≠ .finished := by
    rintro rfl
    cases ht
  have hstays : e.disconnects ≠ some c := by
    intro he
    cases e with
    | disconnect c' now => cases hquiet
    | _ => cases he
  rw [Online, ha.socket_step hv h hquiet htask hopen hsocket, Option.bind_some, h.up hup hstays]
  rfl

include hv hs ha h in
/-- **What is put on the wire of a registered socket** keeps its roles. -/
theorem Attended.roles_sends {c : ConnectionId} {d : Connection}
    {down : Bool} {script : List Action}
    (htask : n.tasks c = some (.handling d down script)) {late : ParticipantId → Prop}
    {pm : PeerManager} (hr : Roles (n.Others d) late n.Spoken pm) {sent : List WireItem}
    (hsent : Sends n c e sent) :
    ∃ pm' spoken, Runs.run meshStep (some pm) sent = some pm' ∧
      Roles (n.Others d) late spoken pm' ∧ (∀ b, spoken b → n'.Spoken b) ∧
        ∀ b, n.Others d b → n'.Spoken b → spoken b := by
  cases hsent with
  | nothing hregister hact =>
    refine ⟨pm, n.Spoken, rfl, hr, fun b => h.spoken hs, ?_⟩
    intro b hb hb'
    rcases h.spoken_cases hb' with hb' | ⟨c₀, d₀, down₀, you, rfl, htask₀, rfl⟩
    · exact hb'
    · -- Whoever speaks announces itself to this socket too.
      obtain ⟨hne, row, hrow, hid, hmeeting⟩ := hb
      obtain ⟨row₀, hrow₀, hid₀, hmeeting₀⟩ := hv.row_of_handling htask₀
      obtain rfl := Keyed.eq_of_key_eq hrow hrow₀ (hid.trans hid₀.symm)
      obtain ⟨rfl, -⟩ := ha.registered c₀ d₀ down₀ _ htask₀
      obtain ⟨-, hd⟩ := ha.registered c d down script htask
      refine absurd ⟨c₀, d₀, you, rfl, htask₀, ?_, d, ?_,
        (hv.handling c d down script htask).1⟩ hact
      · rintro rfl
        rw [htask] at htask₀
        cases htask₀
        exact hne rfl
      · rwa [hmeeting₀.symm.trans hmeeting]
  | refusal url err htask₀ hauth =>
    rw [htask] at htask₀
    cases htask₀
  | snapshot m q snapshot htask₀ hyou hroster =>
    rw [htask] at htask₀
    cases htask₀
  | announced c₀ d₀ you htask₀ hyou htarget hne =>
    refine ⟨pm.addPeer you.id true, fun b => n.Spoken b ∨ b = you.id, rfl, hr.announce, ?_, ?_⟩
    · rintro b (hb | rfl)
      · exact h.spoken hs hb
      · exact h.speaks ⟨c₀, d₀, false, you, rfl, htask₀, hyou.symm⟩
    · intro b hb hb'
      rcases h.spoken_cases hb' with hb' | ⟨c₁, d₁, down₁, you₁, he, htask₁, rfl⟩
      · exact .inl hb'
      · cases he
        rw [htask₀] at htask₁
        cases htask₁
        exact .inr hyou.symm
  | replies c₀ d₀ down₀ a script₀ items htask₀ hreply hitems =>
    have hscript (you : ParticipantView) : a :: script₀ ≠ [announce d₀ you] := by
      intro heq
      obtain ⟨rfl, -⟩ := List.cons.inj heq
      exact not_reply_announce hreply
    have hkept : ∃ pm', Runs.run meshStep (some pm) sent = some pm' ∧
        Roles (n.Others d) late n.Spoken pm' := by
      refine (Runs.always_of_mem
        (I := fun peers => ∃ pm', peers = some pm' ∧ Roles (n.Others d) late n.Spoken pm')
        ⟨pm, rfl, hr⟩ ?_).last
      rintro _ item hitem ⟨pm', rfl, hr'⟩
      obtain ⟨f, rfl, ⟨kind, payload, hf, hsender, -⟩ | hplain⟩ := ha.reply_item (hitems item hitem)
      · -- The sender was announced before.
        refine ⟨pm'.addPeer d₀.participantId false, ?_,
          hr'.signal ⟨c₀, d₀, down₀, a :: script₀, htask₀, rfl, hscript⟩⟩
        show f.onPeers (some pm') = _
        rw [Frame.onPeers, hf, hsender, ← PeerManager.handleSignal_eq_addPeer]
        rfl
      · exact ⟨pm', meshStep_plain hplain (some pm'), hr'⟩
    obtain ⟨pm', hrun, hr'⟩ := hkept
    refine ⟨pm', n.Spoken, hrun, hr', fun b => h.spoken hs, ?_⟩
    intro b hb hb'
    rcases h.spoken_cases hb' with hb' | ⟨c₁, d₁, down₁, you₁, he, htask₁, rfl⟩
    · exact hb'
    · cases he
      rw [htask₀] at htask₁
      cases htask₁
      exact absurd rfl (hscript you₁)

include hm in
/-- A browser whose socket is not registered yet was not online. -/
theorem Meshed.not_early {c : ConnectionId} {p : ParticipantId} (hup : n.up c = none)
    (hsocket : (n.clients p).socket = some c) (b : ParticipantId) : ¬ early p b := by
  intro hearly
  have honline := hm.entered p b hearly
  rw [Online, hsocket, Option.bind_some, hup] at honline
  cases honline

include h in
/-- The snapshot of a new socket lists the other participants of its meeting. -/
theorem Attended.mem_snapshot (ha' : n'.Attended) {c : ConnectionId} {m : Meeting} {q : Participant}
    {snapshot : RoomSnapshot} (he : e = .register c) (htask : n.tasks c = some (.accepting m q))
    (hyou : snapshot.you.id = q.id)
    (hroster : snapshot.participants = activeRoster (bindConnection n.server.db q.id c) m.id)
    (b : ParticipantId) :
    b ∈ (snapshot.participants.filter fun peer => peer.id ≠ snapshot.you.id).map
      ParticipantView.id ↔
      n'.Others ⟨c, q.id, m.id⟩ b := by
  subst he
  obtain ⟨hdb, -⟩ := h.registered_task htask
  rw [hroster, ← hdb, hyou, List.mem_map]
  constructor
  · rintro ⟨v, hv, rfl⟩
    obtain ⟨hv, hne⟩ := List.mem_filter.mp hv
    obtain ⟨row, hrow, rfl⟩ := mem_activeRoster.mp hv
    obtain ⟨hrow, hmeeting, -⟩ := Db.mem_activeRows.mp hrow
    rw [decide_eq_true_eq] at hne
    exact ⟨hne, row, hrow, rfl, hmeeting⟩
  · rintro ⟨hne, row, hrow, rfl, hmeeting⟩
    have hactive : row ∈ n'.server.db.activeRows m.id :=
      Db.mem_activeRows.mpr ⟨hrow, hmeeting, ha'.opened row hrow⟩
    exact ⟨serializeParticipant row,
      List.mem_filter.mpr ⟨mem_activeRoster.mpr ⟨row, hactive, rfl⟩, decide_eq_true hne⟩, rfl⟩

include hv hs ha hm h ha' in
/-- The roles behind a registered socket after an event. -/
theorem Meshed.roles_step {c : ConnectionId} {d : Connection} {down : Bool} {script : List Action}
    (htask' : n'.tasks c = some (.handling d down script)) :
    ∃ pm, n'.prospect d.participantId c = some pm ∧
      Roles (n'.Others d) (fun b => early d.participantId b ∨ n'.Precedes d.participantId b)
        n'.Spoken pm := by
  have hv' := hv.step h
  obtain ⟨hsocket, hwire⟩ := h.mesh hv hs htask' (ha'.socket hv' htask')
  rcases h.handling htask' with ⟨down₀, script₀, htask⟩ | ⟨he, m, q, htask, rfl⟩
  · obtain ⟨pm, hpm, hr⟩ := hm.roles c d down₀ script₀ htask
    have honline := ha.online hv htask
    rcases hwire with ⟨sent, hsent, hpending, hpeers⟩ | ⟨item, rfl, hpending, hpeers⟩
    · obtain ⟨pm', spoken, hrun, hr', hspoken, hspoken'⟩ := ha.roles_sends hv hs h htask hr hsent
      refine ⟨pm', ?_, hm.roles_mono hv h honline hr' hspoken hspoken'⟩
      rw [prospect, hpending, hpeers, Runs.run_append]
      rw [prospect] at hpm
      rwa [hpm]
    · -- What the browser takes off its socket was counted already.
      refine ⟨pm, ?_, hm.roles_mono hv h honline hr (fun b => h.spoken hs) ?_⟩
      · rw [prospect, hpending, Runs.run_cons] at hpm
        rwa [prospect, hpeers]
      · intro b hb hb'
        rcases h.spoken_cases hb' with hb' | ⟨_, _, _, _, he, -⟩
        · exact hb'
        · cases he
  · -- A new socket: the mesh is that of the snapshot.
    have hblank := hm.blank c _ q.id htask rfl hsocket
    rcases hwire with ⟨sent, hsent, hpending, hpeers⟩ | ⟨item, he', -⟩
    · subst he
      cases hsent with
      | nothing hregister hact => exact absurd rfl hregister
      | snapshot m₁ q₁ snapshot htask₁ hyou hroster =>
        rw [htask] at htask₁
        cases htask₁
        have hlists := ha'.mem_snapshot h rfl htask hyou hroster
        have hup : n.up c = none := by
          rw [up, htask]
          rfl
        refine ⟨_, ?_, roles_snapshot hlists ?_⟩
        · rw [prospect, hpending, hpeers, Runs.run_append]
          rw [prospect] at hblank
          rw [hblank]
          rfl
        · rintro b hb (hearly | hprecedes)
          · exact hm.not_early hup hsocket b hearly
          · exact hb.not_precedes hprecedes
    · rw [he] at he'
      cases he'

include hv hs ha hm h hquiet in
/-- The mesh of a browser stays empty until its socket is registered. -/
theorem Meshed.blank_step {c : ConnectionId} {t' : SocketTask} {p : ParticipantId}
    (htask' : n'.tasks c = some t') (hanswered : t'.answered = false)
    (hsocket' : (n'.clients p).socket = some c) : n'.prospect p c = some {} := by
  have hbefore : (n.tasks c = none ∧ n'.wires c = {}) ∨
      ∃ t, n.tasks c = some t ∧ t.answered = false := by
    rcases h.task c with heq | ⟨hnone, hwire, -⟩ | ⟨t, t'', ht, ht'', hmoves⟩
    · exact .inr ⟨t', heq ▸ htask', hanswered⟩
    · exact .inl ⟨hnone, hwire⟩
    · rw [htask'] at ht''
      obtain rfl := Option.some.inj ht''
      cases hmoves with
      | admitted url m q hauth => exact .inr ⟨_, ht, rfl⟩
      | _ => cases hanswered
  rcases hbefore with ⟨hnone, hwire⟩ | ⟨t, htask, hwaiting⟩
  · -- A socket that is asked for: its browser has just joined.
    have hfree : (n.clients p).socket ≠ some c := by
      intro hsocket
      obtain ⟨client, t, -, ht, -⟩ := hv.task_of_socket hsocket
      rw [hnone] at ht
      cases ht
    rw [prospect, hwire]
    cases h.client p with
    | kept he hclient =>
      rw [hclient] at hsocket'
      exact absurd hsocket' hfree
    | took c' item hsocket hpending hclient =>
      rw [hclient] at hsocket'
      obtain rfl := socket_receive hsocket hsocket'
      exact absurd hsocket hfree
    | joined c' hfresh hsocket hnew hpeers => exact hpeers
    | reconnected c' hfresh hsocket hpeers => cases hquiet
    | dropped hsocket hpeers => cases hquiet
    | left hsocket hpeers => cases hquiet
  · have hopen : t ≠ .finished := by
      rintro rfl
      cases hwaiting
    -- Nobody sends to a socket that is not registered.
    have hunregistered {m : MeetingId} : ¬ ∃ d ∈ n.server.registry.connections m,
        d.connectionId = c := by
      rintro ⟨d, hd, rfl⟩
      obtain ⟨script, htask₁⟩ := hv.registered m d hd
      rw [htask] at htask₁
      obtain rfl := Option.some.inj htask₁
      cases hwaiting
    obtain ⟨hsocket, hwire⟩ := h.browser hv hs htask hopen hsocket'
    have hblank := hm.blank c t p htask hwaiting hsocket
    rcases hwire with ⟨sent, hsent, hpending, hpeers⟩ | ⟨item, -, hpending, hpeers⟩
    · rw [prospect, hpending, hpeers, Runs.run_append]
      rw [prospect] at hblank
      rw [hblank]
      cases hsent with
      | nothing hregister hact => rfl
      | refusal url err htask₁ hauth =>
        obtain rfl := h.refused_task htask₁ hauth htask'
        cases hanswered
      | snapshot m q snapshot htask₁ hyou hroster =>
        obtain ⟨-, script, htask₂⟩ := h.registered_task htask₁
        rw [htask'] at htask₂
        cases htask₂
        cases hanswered
      | announced c₀ d₀ you htask₀ hyou htarget hne => exact absurd htarget hunregistered
      | replies c₀ d₀ down₀ a script₀ items htask₀ hreply hitems =>
        refine (Runs.always_of_mem
          (I := fun peers : Option PeerManager => peers = some {}) rfl ?_).last
        rintro _ item hitem rfl
        obtain ⟨f, rfl, ⟨kind, payload, -, -, htarget⟩ | hplain⟩ :=
          ha.reply_item (hitems item hitem)
        · exact absurd htarget hunregistered
        · exact meshStep_plain hplain (some {})
    · rw [prospect, hpending, Runs.run_cons] at hblank
      rwa [prospect, hpeers]

include hv hs ha hm h hquiet ha' in
/-- **One event keeps the roles.** -/
theorem Meshed.step : n'.Meshed fun a b => early a b ∨ n'.Precedes a b where
  covered := fun _ _ => .inr
  entered := by
    rintro a b (hearly | hprecedes)
    · exact ha.online_step hv h hquiet (hm.entered a b hearly)
    · exact hprecedes.1
  blank := fun _ _ _ htask hanswered hsocket =>
    hm.blank_step hv hs ha h hquiet htask hanswered hsocket
  roles := fun _ _ _ _ htask => hm.roles_step hv hs ha h ha' htask

end Step

/-! ### Every run -/

/-- **The roles in every state** of a run in which nobody leaves. -/
theorem meshed_run {events : List NetEvent} (hquiet : Runs.Guarded Network.next Quiet {} events) :
    (Runs.run Network.next {} events).Meshed
      fun a b => ∃ pre, pre <+: events ∧ (Runs.run Network.next {} pre).Precedes a b := by
  induction events using List.reverseRecOn with
  | nil =>
    refine meshed_init.congr fun a b => ⟨?_, False.elim⟩
    rintro ⟨pre, hpre, hprecedes⟩
    rw [List.prefix_nil.mp hpre] at hprecedes
    exact not_online_init a hprecedes.1
  | append_singleton events e ih =>
    have hall := always_attended _ hquiet
    obtain ⟨hbefore, -⟩ := Runs.guarded_concat.mp hquiet
    have hm := ih hbefore
    obtain ⟨hv, hs, ha⟩ := hall events (List.prefix_append events [e])
    obtain ⟨-, -, ha'⟩ := hall.last
    obtain ⟨he, -⟩ := (Runs.guarded_concat.mp hquiet).2
    rw [Runs.run_concat] at ha' ⊢
    -- A pair is early if it was early before, or is now.
    have hstep : ((Runs.run Network.next {} events).next e).Meshed fun a b =>
        (∃ pre, pre <+: events ∧ (Runs.run Network.next {} pre).Precedes a b) ∨
          ((Runs.run Network.next {} events).next e).Precedes a b := by
      rcases next_cases hv.server e with h | h
      · rw [h]
        refine hm.congr fun a b => ⟨?_, .inl⟩
        rintro (hearly | hprecedes)
        · exact hearly
        · exact hm.covered a b hprecedes
      · exact hm.step hv hs ha h he ha'
    refine hstep.congr fun a b => ⟨?_, ?_⟩
    · rintro ⟨pre, hpre, hprecedes⟩
      rcases List.prefix_concat_iff.mp hpre with rfl | hpre
      · rw [Runs.run_concat] at hprecedes
        exact .inr hprecedes
      · exact .inl ⟨pre, hpre, hprecedes⟩
    · rintro (⟨pre, hpre, hprecedes⟩ | hprecedes)
      · exact ⟨pre, hpre.trans (List.prefix_append events [e]), hprecedes⟩
      · refine ⟨events ++ [e], List.prefix_refl _, ?_⟩
        rwa [Runs.run_concat]

/-- Between settled participants, the initiator is the one that was online first. -/
theorem Meshed.role_iff (hv : n.Valid) (hm : n.Meshed early) {m : MeetingId} {a b : ParticipantId}
    (hne : a ≠ b) (ha : n.SettledIn m a) (hb : n.SettledIn m b) :
    roleIn (n.clients a).peers b = some true ↔ early a b := by
  obtain ⟨c, hsocket, ⟨d, hd, hmeeting⟩, hempty⟩ := ha
  obtain ⟨c', hsocket', ⟨d', hd', hmeeting'⟩, -⟩ := hb
  obtain ⟨t, htask, hidle⟩ := Option.bind_eq_some_iff.mp hd
  obtain ⟨t', htask', hidle'⟩ := Option.bind_eq_some_iff.mp hd'
  rw [SocketTask.idle_eq_some.mp hidle] at htask
  rw [SocketTask.idle_eq_some.mp hidle'] at htask'
  obtain rfl := hv.owner htask hsocket
  obtain rfl := hv.owner htask' hsocket'
  obtain ⟨pm, hpm, hr⟩ := hm.roles c d false [] htask
  rw [prospect, List.isEmpty_iff.mp hempty, Runs.run_nil] at hpm
  have hrole : roleIn (n.clients d.participantId).peers d'.participantId =
      pm.role d'.participantId := by
    rw [hpm]
    rfl
  have hothers : n.Others d d'.participantId := by
    obtain ⟨row, hrow, hid, hrowMeeting⟩ := hv.row_of_handling htask'
    exact ⟨hne.symm, row, hrow, hid, hrowMeeting.trans (hmeeting'.trans hmeeting.symm)⟩
  have hspoken : n.Spoken d'.participantId :=
    ⟨c', d', false, [], htask', rfl, fun you heq => by cases heq⟩
  rw [hrole]
  by_cases hearly : early d.participantId d'.participantId
  · exact iff_of_true (hr.called _ hothers hearly hspoken) hearly
  · refine iff_of_false ?_ hearly
    rw [hr.listed _ hothers hearly]
    exact nofun

/-- **Who is negotiated.**  In every run in which nobody is disconnected or
removed, two participants of a meeting that are connected and have been delivered
everything are negotiated exactly when one of them was online before the other had
joined. -/
theorem negotiated_iff_precedes {events : List NetEvent} {m : MeetingId} {a b : ParticipantId}
    (hquiet : Runs.Guarded Network.next Quiet {} events) (hne : a ≠ b)
    (ha : (Runs.run Network.next {} events).SettledIn m a)
    (hb : (Runs.run Network.next {} events).SettledIn m b) :
    (Runs.run Network.next {} events).Negotiated a b ↔
      ∃ pre, pre <+: events ∧ ((Runs.run Network.next {} pre).Precedes a b ∨
        (Runs.run Network.next {} pre).Precedes b a) := by
  have hm := meshed_run hquiet
  have hv := (always_valid events).last
  rw [Negotiated, hm.role_iff hv hne ha hb, hm.role_iff hv hne.symm hb ha]
  constructor
  · rintro (⟨pre, hpre, hprecedes⟩ | ⟨pre, hpre, hprecedes⟩)
    · exact ⟨pre, hpre, .inl hprecedes⟩
    · exact ⟨pre, hpre, .inr hprecedes⟩
  · rintro ⟨pre, hpre, hprecedes | hprecedes⟩
    · exact .inl ⟨pre, hpre, hprecedes⟩
    · exact .inr ⟨pre, hpre, hprecedes⟩

/-- The first guest was online before the second joined. -/
theorem negotiated_iff_precedes_enterTwo : (Runs.run Network.next {} enterTwo).Negotiated "1" "2" :=
  (negotiated_iff_precedes (m := "m") (by decide +kernel) (by decide) (by decide +kernel)
    (by decide +kernel)).mpr
      ⟨enterTwo.take 8, List.take_prefix 8 enterTwo, .inl (by decide +kernel)⟩

/-- Two guests join, and then both connect. -/
def joinTwo : List NetEvent :=
  openRequests.map .request ++ joinAs "1" "a1" 20 :: joinAs "2" "b1" 21 :: connectAs "a1" ++
    connectAs "b1" ++ [.deliver "1", .deliver "1", .deliver "2"]

/-- Each is in the other's snapshot, and neither becomes the initiator. -/
theorem joinTwo_unnegotiated :
    Runs.Guarded Network.next Quiet {} joinTwo ∧
      (Runs.run Network.next {} joinTwo).SettledIn "m" "1" ∧
        (Runs.run Network.next {} joinTwo).SettledIn "m" "2" ∧
          ¬ (Runs.run Network.next {} joinTwo).Negotiated "1" "2" := by
  decide +kernel

end Network

end ZoomClone

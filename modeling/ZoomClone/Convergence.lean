/-
A negotiated pair converges.

The caller was in the room and makes the offer; the callee answers, and may not know the
caller before the first signal of it arrives.  Each side follows its own line, one await
after the other, whatever else it does in between for the candidates; what was said in
either direction ties the two lines together.

* `Party.Shows` — where a party stands, candidates aside;
* `CallerStage`, `CalleeStage` — the two lines;
* `pair_converges` — a run with nothing left to do has one offer, one answer, two
  connections that agree, and every candidate passed on once.
-/
import ZoomClone.PeerConnection
import ZoomClone.Runs

namespace ZoomClone

/-! ### What a party shows -/

/-- The offers and answers among the signals. -/
def descriptions (signals : List RtcSignal) : List RtcSignal :=
  signals.filter fun s => s.candidate?.isNone

theorem descriptions_concat {l : List RtcSignal} {signal : RtcSignal}
    (h : signal.candidate? = none) :
    descriptions (l ++ [signal]) = descriptions l ++ [signal] := by
  rw [descriptions, List.filter_append, List.filter_cons_of_pos (by rw [h]; rfl)]
  rfl

theorem descriptions_ice (l : List RtcSignal) (candidate : IceCandidate) :
    descriptions (l ++ [.ice candidate]) = descriptions l := by
  rw [descriptions, List.filter_append]
  exact List.append_nil _

theorem descriptions_prefix {l m : List RtcSignal} (h : l <+: m) :
    descriptions l <+: descriptions m := h.filter _

/-- The call is no `addCandidate`. -/
def Task.IsMain (t : Task) : Bool := t.await ≠ .addCandidate

/-- A party, candidates aside. -/
structure View where
  connection : RtcConnection := {}
  initiator : Bool
  answerPending : Bool := false
  /-- The queue of candidates was taken. -/
  flushed : Bool := false
  mains : List Task := []
  sent : List RtcSignal := []
  heard : List RtcSignal := []

/-- After the queue is flushed the answer is due, or the call is over. -/
def View.afterFlush (v : View) (answers : Bool) : List IceCandidate → View
  | _ :: rest => { v with mains := [{ await := .flush answers rest }] }
  | [] => if answers then { v with mains := [{ await := .createAnswer none }] }
    else { v with answerPending := false }

namespace Party

structure Shows (p : Party) (v : View) : Prop where
  peer : ∃ queue, p.peer = some ⟨v.connection, v.initiator, queue, v.answerPending⟩ ∧
    (v.flushed = true → queue = [])
  created : p.created = 1
  mains : p.tasks.filter Task.IsMain = v.mains
  sent : descriptions p.sent = v.sent
  heard : descriptions p.heard = v.heard
  /-- Nothing is sent before there is a local description. -/
  silent : v.connection.localDescription = none → p.sent = []

/-- The other one is not known yet. -/
structure Absent (p : Party) : Prop where
  peer : p.peer = none
  created : p.created = 0
  tasks : p.tasks = []
  sent : p.sent = []
  heard : p.heard = []

variable {p q other : Party} {v : View} {t : Task}

/-! ### What candidates do not change -/

theorem Shows.found (h : p.Shows v) (hnext : p.next other .found = some q) : q.Shows v := by
  obtain ⟨queue, hpeer, hqueue⟩ := h.peer
  obtain ⟨peer, candidate, rest, hpeer', hlocal, rfl⟩ := next_found hnext
  obtain rfl := Option.some.inj (hpeer'.symm.trans hpeer)
  refine ⟨⟨queue, hpeer, hqueue⟩, h.created, h.mains, ?_, h.heard, fun hnone => absurd hnone hlocal⟩
  exact (descriptions_ice p.sent candidate).trans h.sent

theorem Shows.isSome (h : p.Shows v) : p.peer.isSome = true := by
  obtain ⟨queue, hpeer, -⟩ := h.peer
  rw [hpeer]
  rfl

/-- A known peer is not added again. -/
theorem Shows.call (h : p.Shows v) (hnext : p.next other .call = some q) : q.Shows v := by
  obtain ⟨initiator, -, rfl⟩ := Option.map_eq_some_iff.mp hnext
  rw [addPeer, if_pos h.isSome]
  exact ⟨h.peer, h.created, h.mains, h.sent, h.heard, h.silent⟩

theorem Shows.withPeer (h : p.Shows v) : p.withPeer = p := if_pos h.isSome

/-- A candidate is queued before the flush, and passed on after it. -/
theorem Shows.ice (h : p.Shows v)
    (hflushed : v.flushed = true → v.connection.remoteDescription ≠ none)
    (candidate : IceCandidate) :
    ({ p.handleSignal (.ice candidate) with
      heard := p.heard ++ [.ice candidate] } : Party).Shows v := by
  obtain ⟨queue, hpeer, hqueue⟩ := h.peer
  have hheard : descriptions (p.heard ++ [.ice candidate]) = v.heard :=
    (descriptions_ice p.heard candidate).trans h.heard
  simp only [handleSignal, h.withPeer, hpeer, addCandidate]
  split
  -- with no remote description yet the candidate waits in the queue, so nothing was flushed
  · rename_i hremote
    refine ⟨⟨queue ++ [candidate], rfl, fun hf => ?_⟩, h.created, h.mains, h.sent, hheard, h.silent⟩
    exact absurd hremote (hflushed hf)
  -- else it is passed on at once, by a call beside the line
  · refine ⟨⟨queue, rfl, hqueue⟩, h.created, ?_, h.sent, hheard, h.silent⟩
    show (p.tasks ++ [_]).filter Task.IsMain = v.mains
    rw [List.filter_append, ← h.mains]
    exact List.append_nil _

theorem isMain_eq_false : t.IsMain = false ↔ t.await = .addCandidate := by simp [Task.IsMain]

/-- The calls of the line, once one of the others is over. -/
theorem filter_erase_side {tasks : List Task} (hside : t.IsMain = false) :
    (tasks.erase t).filter Task.IsMain = tasks.filter Task.IsMain := by
  rw [← List.erase_filter, List.erase_of_not_mem]
  intro hmem
  rw [(List.mem_filter.mp hmem).2] at hside
  cases hside

theorem Shows.settle_side (h : p.Shows v) (hside : t.IsMain = false) (sdp : String) :
    (p.settle t sdp).Shows v := by
  obtain ⟨queue, hpeer, hqueue⟩ := h.peer
  have hawait := isMain_eq_false.mp hside
  have hmains : ∀ promise,
      (p.tasks.erase t ++ [(⟨.addCandidate, promise⟩ : Task)]).filter Task.IsMain = v.mains := by
    intro promise
    rw [List.filter_append, filter_erase_side hside, h.mains]
    exact List.append_nil _
  -- the browser takes the candidate or refuses it; the line sees neither
  simp only [settle, hpeer, hawait, RtcConnection.perform]
  split
  · rename_i connection await hperform
    obtain ⟨-, heq⟩ := Option.ite_none_right_eq_some.mp hperform
    cases heq
    exact ⟨⟨queue, rfl, hqueue⟩, h.created, hmains .fulfilled, h.sent, h.heard, h.silent⟩
  · exact ⟨⟨queue, rfl, hqueue⟩, h.created, hmains .rejected, h.sent, h.heard, h.silent⟩

theorem Shows.resume_side (h : p.Shows v) (hside : t.IsMain = false) : (p.resume t).Shows v := by
  obtain ⟨queue, hpeer, hqueue⟩ := h.peer
  have hawait := isMain_eq_false.mp hside
  simp only [resume, hpeer, hawait, continues]
  exact ⟨⟨queue, rfl, hqueue⟩, h.created, (filter_erase_side hside).trans h.mains,
    h.sent, h.heard, h.silent⟩

/-! ### The line of calls -/

theorem Shows.mem_mains (h : p.Shows v) (ht : t ∈ p.tasks) (hmain : t.IsMain = true) :
    t ∈ v.mains := by
  rw [← h.mains]
  exact List.mem_filter.mpr ⟨ht, hmain⟩

theorem filter_erase_main {tasks : List Task} (hmains : tasks.filter Task.IsMain = [t]) :
    (tasks.erase t).filter Task.IsMain = [] := by
  rw [← List.erase_filter, hmains, List.erase_cons_head]

/-- The call of the line is taken out. -/
theorem Shows.take (h : p.Shows v) (hmains : v.mains = [t]) :
    ({ p with tasks := p.tasks.erase t } : Party).Shows { v with mains := [] } :=
  ⟨h.peer, h.created, filter_erase_main (h.mains.trans hmains), h.sent, h.heard, h.silent⟩

theorem Shows.awaits (h : p.Shows v) (hmains : v.mains = []) {await : Await}
    (hmain : Task.IsMain { await } = true) :
    (p.awaits await).Shows { v with mains := [{ await }] } := by
  refine ⟨h.peer, h.created, ?_, h.sent, h.heard, h.silent⟩
  show (p.tasks ++ [_]).filter Task.IsMain = _
  rw [List.filter_append, h.mains, hmains, List.filter_cons_of_pos hmain]
  rfl

/-- The browser settles the promise of the line. -/
theorem Shows.settle_main (h : p.Shows v) (hmains : v.mains = [t]) {sdp : String}
    {connection : RtcConnection}
    {await : Await} (hperform : v.connection.perform sdp t.await = some (connection, await))
    (hmain : Task.IsMain ⟨await, .fulfilled⟩ = true)
    (hlocal : connection.localDescription = none → v.connection.localDescription = none) :
    (p.settle t sdp).Shows { v with connection, mains := [⟨await, .fulfilled⟩] } := by
  obtain ⟨queue, hpeer, hqueue⟩ := h.peer
  simp only [settle, hpeer, hperform]
  refine ⟨⟨queue, rfl, hqueue⟩, h.created, ?_, h.sent, h.heard,
    fun hnone => h.silent (hlocal hnone)⟩
  show (p.tasks.erase t ++ [_]).filter Task.IsMain = _
  rw [List.filter_append, filter_erase_main (h.mains.trans hmains), List.filter_cons_of_pos hmain]
  rfl

theorem Shows.sendSignal (h : p.Shows v) {signal : RtcSignal} (hsignal : signal.candidate? = none)
    (hlocal : v.connection.localDescription ≠ none) :
    (p.sendSignal signal).Shows { v with sent := v.sent ++ [signal] } := by
  refine ⟨h.peer, h.created, h.mains, ?_, h.heard, fun hnone => absurd hnone hlocal⟩
  show descriptions (p.sent ++ [signal]) = v.sent ++ [signal]
  rw [descriptions_concat hsignal, h.sent]

theorem Shows.flushCandidates (h : p.Shows v) (hmains : v.mains = []) (answers : Bool)
    (queue : List IceCandidate) :
    (p.flushCandidates ⟨v.connection, v.initiator, [], v.answerPending⟩ answers queue).Shows
      (v.afterFlush answers queue) := by
  cases queue with
  | cons candidate rest =>
    have hadded : ({ p with added := p.added ++ [candidate] } : Party).Shows v :=
      ⟨h.peer, h.created, h.mains, h.sent, h.heard, h.silent⟩
    exact hadded.awaits hmains (by simp [Task.IsMain])
  | nil =>
    rw [Party.flushCandidates, View.afterFlush]
    split
    · exact h.awaits hmains (by simp [Task.IsMain])
    · exact ⟨⟨[], rfl, fun _ => rfl⟩, h.created, h.mains, h.sent, h.heard, h.silent⟩

theorem Shows.takeCandidates (h : p.Shows v) (hmains : v.mains = []) (answers : Bool)
    (queue : List IceCandidate) :
    (p.takeCandidates ⟨v.connection, v.initiator, queue, v.answerPending⟩ answers).Shows
      ({ v with flushed := true }.afterFlush answers queue) := by
  have hemptied :
    ({ p with peer := some ⟨v.connection, v.initiator, [], v.answerPending⟩ } : Party).Shows
      { v with flushed := true } :=
    ⟨⟨[], rfl, fun _ => rfl⟩, h.created, h.mains, h.sent, h.heard, h.silent⟩
  exact hemptied.flushCandidates hmains answers queue

theorem resume_fulfilled {peer : RtcPeer} (hpeer : p.peer = some peer) (await : Await) :
    p.resume ⟨await, .fulfilled⟩ =
      ({ p with tasks := p.tasks.erase ⟨await, .fulfilled⟩ } : Party).continues peer await := by
  simp only [resume, hpeer]
  cases await with
  | _ => rfl

/-- An offer or an answer that arrives. -/
theorem Shows.hears (h : p.Shows v) {signal : RtcSignal} (hsignal : signal.candidate? = none) :
    ({ p with heard := p.heard ++ [signal] } : Party).Shows
      { v with heard := v.heard ++ [signal] } := by
  refine ⟨h.peer, h.created, h.mains, h.sent, ?_, h.silent⟩
  show descriptions (p.heard ++ [signal]) = v.heard ++ [signal]
  rw [descriptions_concat hsignal, h.heard]

/-- The other one becomes known. -/
theorem Absent.createPeer (h : p.Absent) (initiator : Bool) (call : Option Bool) :
    (({ p with call } : Party).createPeer initiator).Shows { initiator } where
  peer := ⟨[], rfl, fun _ => rfl⟩
  created := by
    show p.created + 1 = 1
    rw [h.created]
  mains := by
    show p.tasks.filter Task.IsMain = []
    rw [h.tasks]
    rfl
  sent := by
    show descriptions p.sent = []
    rw [h.sent]
    rfl
  heard := by
    show descriptions p.heard = []
    rw [h.heard]
    rfl
  silent := fun _ => h.sent

/-- A line of stages: it goes on when a promise of it settles and when that is taken up. -/
structure Line {σ : Type} (view : σ → View) : Prop where
  settle : ∀ {p : Party} {st : σ} {t : Task}, p.Shows (view st) →
    t ∈ (view st).mains → t.promise = .pending →
    ∀ sdp, ∃ st', (p.settle t sdp).Shows (view st')
  resume : ∀ {p : Party} {st : σ} {t : Task}, p.Shows (view st) →
    t ∈ (view st).mains → t.promise ≠ .pending →
    ∃ st', (p.resume t).Shows (view st')
  flushed : ∀ st, (view st).flushed = true → (view st).connection.remoteDescription ≠ none

/-- A party on a line stays on it, if it does so when an offer or an answer arrives. -/
theorem Line.next {σ : Type} {view : σ → View} (hline : Line view) {st : σ}
    (h : p.Shows (view st)) (e : Event)
    (hnext : p.next other e = some q)
    (harrives : ∀ signal, other.sent[p.heard.length]? = some signal → signal.candidate? = none →
      ∃ st', ({ p.handleSignal signal with heard := p.heard ++ [signal] } : Party).Shows
        (view st')) :
    ∃ st', q.Shows (view st') := by
  -- a candidate, and the call for one, leaves the stage as it is
  cases e with
  | call => exact ⟨st, h.call hnext⟩
  | found => exact ⟨st, h.found hnext⟩
  | deliver =>
    obtain ⟨signal, hsignal, rfl⟩ := Option.map_eq_some_iff.mp hnext
    cases signal with
    | ice candidate => exact ⟨st, h.ice (hline.flushed st) candidate⟩
    | offer sdp => exact harrives _ hsignal rfl
    | answer sdp => exact harrives _ hsignal rfl
  | settle t sdp =>
    obtain ⟨ht, hpending, rfl⟩ := next_settle hnext
    cases hmain : t.IsMain with
    | true => exact hline.settle h (h.mem_mains ht hmain) hpending sdp
    | false => exact ⟨st, h.settle_side hmain sdp⟩
  | resume t =>
    obtain ⟨ht, hsettled, rfl⟩ := next_resume hnext
    cases hmain : t.IsMain with
    | true => exact hline.resume h (h.mem_mains ht hmain) hsettled
    | false => exact ⟨st, h.resume_side hmain⟩

end Party

/-! ### The caller -/

def offerOf (sdp : String) : SessionDescription := ⟨.offer, sdp⟩

def answerOf (sdp : String) : SessionDescription := ⟨.answer, sdp⟩

/-- The connection of the caller once its offer is set. -/
def offering (o : String) : RtcConnection :=
  { signalingState := .haveLocalOffer, pendingLocal := some (offerOf o) }

/-- The connection of the callee once it has taken the offer. -/
def offered (o : String) : RtcConnection :=
  { signalingState := .haveRemoteOffer, pendingRemote := some (offerOf o) }

/-- Where the line of the caller stands: `o` is its offer, `a` the answer. -/
inductive CallerStage where
  | creating
  | created (o : String)
  | setting (o : String)
  | set (o : String)
  | waiting (o : String)
  | taking (o a : String)
  | taken (o a : String)
  | flushing (o a : String) (rest : List IceCandidate)
  | flushed (o a : String) (rest : List IceCandidate)
  | done (o a : String)

namespace CallerStage

/-- The negotiated connection of the caller. -/
def agreed (o a : String) : RtcConnection :=
  { currentLocal := some (offerOf o), currentRemote := some (answerOf a) }

def view : CallerStage → View
  | creating => { initiator := true, mains := [⟨.createOffer none, .pending⟩] }
  | created o => { initiator := true, mains := [⟨.createOffer (some (offerOf o)), .fulfilled⟩] }
  | setting o => { initiator := true, mains := [⟨.setLocalOffer (offerOf o), .pending⟩] }
  | set o =>
    { initiator := true, connection := offering o
      mains := [⟨.setLocalOffer (offerOf o), .fulfilled⟩] }
  | waiting o =>
    { initiator := true, connection := offering o, sent := [.offer (some (offerOf o))] }
  | taking o a =>
    { initiator := true, connection := offering o, answerPending := true
      mains := [⟨.setRemoteAnswer (answerOf a), .pending⟩]
      sent := [.offer (some (offerOf o))], heard := [.answer (some (answerOf a))] }
  | taken o a =>
    { initiator := true, connection := agreed o a, answerPending := true
      mains := [⟨.setRemoteAnswer (answerOf a), .fulfilled⟩]
      sent := [.offer (some (offerOf o))], heard := [.answer (some (answerOf a))] }
  | flushing o a rest =>
    { initiator := true, connection := agreed o a, answerPending := true, flushed := true
      mains := [⟨.flush false rest, .pending⟩]
      sent := [.offer (some (offerOf o))], heard := [.answer (some (answerOf a))] }
  | flushed o a rest =>
    { initiator := true, connection := agreed o a, answerPending := true, flushed := true
      mains := [⟨.flush false rest, .fulfilled⟩]
      sent := [.offer (some (offerOf o))], heard := [.answer (some (answerOf a))] }
  | done o a =>
    { initiator := true, connection := agreed o a, flushed := true
      sent := [.offer (some (offerOf o))], heard := [.answer (some (answerOf a))] }

end CallerStage

namespace Party

variable {p q other : Party} {t : Task}

/-- The line of the caller goes on when a promise of it settles. -/
theorem caller_settle {st : CallerStage} (h : p.Shows st.view) (ht : t ∈ st.view.mains)
    (hpending : t.promise = .pending)
    (sdp : String) : ∃ st' : CallerStage, (p.settle t sdp).Shows st'.view := by
  cases st with
  | creating =>
    obtain rfl := List.mem_singleton.mp ht
    exact ⟨.created sdp, h.settle_main rfl rfl rfl id⟩
  | setting o =>
    obtain rfl := List.mem_singleton.mp ht
    exact ⟨.set o, h.settle_main rfl rfl rfl nofun⟩
  | taking o a =>
    obtain rfl := List.mem_singleton.mp ht
    exact ⟨.taken o a, h.settle_main rfl rfl rfl nofun⟩
  | flushing o a rest =>
    obtain rfl := List.mem_singleton.mp ht
    exact ⟨.flushed o a rest, h.settle_main rfl rfl (by simp [Task.IsMain]) id⟩
  | created o =>
    obtain rfl := List.mem_singleton.mp ht
    cases hpending
  | set o =>
    obtain rfl := List.mem_singleton.mp ht
    cases hpending
  | taken o a =>
    obtain rfl := List.mem_singleton.mp ht
    cases hpending
  | flushed o a rest =>
    obtain rfl := List.mem_singleton.mp ht
    cases hpending
  | waiting o => cases ht
  | done o a => cases ht

theorem caller_afterFlush (o a : String) (queue : List IceCandidate) : ∃ st : CallerStage,
    View.afterFlush { (CallerStage.flushed o a []).view with mains := [] } false queue =
      st.view := by
  cases queue with
  | nil => exact ⟨.done o a, rfl⟩
  | cons candidate rest => exact ⟨.flushing o a rest, rfl⟩

/-- The line of the caller goes on when it takes up a promise. -/
theorem caller_resume {st : CallerStage} (h : p.Shows st.view) (ht : t ∈ st.view.mains)
    (hsettled : t.promise ≠ .pending) : ∃ st' : CallerStage, (p.resume t).Shows st'.view := by
  obtain ⟨queue, hpeer, hqueue⟩ := h.peer
  cases st with
  | created o =>
    obtain rfl := List.mem_singleton.mp ht
    rw [resume_fulfilled hpeer]
    exact ⟨.setting o, (h.take rfl).awaits rfl rfl⟩
  | set o =>
    obtain rfl := List.mem_singleton.mp ht
    rw [resume_fulfilled hpeer]
    exact ⟨.waiting o, (h.take rfl).sendSignal rfl nofun⟩
  | taken o a =>
    obtain rfl := List.mem_singleton.mp ht
    rw [resume_fulfilled hpeer]
    obtain ⟨st', hst'⟩ := caller_afterFlush o a queue
    refine ⟨st', hst' ▸ ?_⟩
    exact (h.take rfl).takeCandidates rfl false queue
  | flushed o a rest =>
    -- once flushed the queue stays empty, so only `rest` is left to pass on
    obtain rfl := List.mem_singleton.mp ht
    obtain rfl := hqueue rfl
    rw [resume_fulfilled hpeer]
    obtain ⟨st', hst'⟩ := caller_afterFlush o a rest
    refine ⟨st', hst' ▸ ?_⟩
    exact (h.take rfl).flushCandidates rfl false rest
  -- the promises of the other stages are pending
  | creating =>
    obtain rfl := List.mem_singleton.mp ht
    exact absurd rfl hsettled
  | setting o =>
    obtain rfl := List.mem_singleton.mp ht
    exact absurd rfl hsettled
  | taking o a =>
    obtain rfl := List.mem_singleton.mp ht
    exact absurd rfl hsettled
  | flushing o a rest =>
    obtain rfl := List.mem_singleton.mp ht
    exact absurd rfl hsettled
  | waiting o => cases ht
  | done o a => cases ht

theorem caller_flushed (st : CallerStage) (hflushed : st.view.flushed = true) :
    st.view.connection.remoteDescription ≠ none := by
  cases st with
  | flushing o a rest => nofun
  | flushed o a rest => nofun
  | done o a => nofun
  | _ => cases hflushed

/-- The answer arrives while the caller waits for it. -/
theorem caller_answer {o a : String} (h : p.Shows (CallerStage.waiting o).view) :
    ({ p.handleSignal (.answer (some (answerOf a))) with
        heard := p.heard ++ [.answer (some (answerOf a))] } : Party).Shows
          (CallerStage.taking o a).view := by
  obtain ⟨queue, hpeer, hqueue⟩ := h.peer
  have hpending : ({ p with peer := some ⟨offering o, true, queue, true⟩ } : Party).Shows
      { (CallerStage.waiting o).view with answerPending := true } :=
    ⟨⟨queue, rfl, hqueue⟩, h.created, h.mains, h.sent, h.heard, h.silent⟩
  simp only [handleSignal, h.withPeer, hpeer]
  exact (hpending.awaits rfl rfl).hears rfl

/-- The caller makes its connection, and starts. -/
theorem Absent.addPeer (h : p.Absent) :
    (({ p with call := none } : Party).addPeer true).Shows CallerStage.creating.view := by
  rw [Party.addPeer, if_neg (by simp [h.peer])]
  have hcreated : (({ p with call := none } : Party).createPeer true).Shows { initiator := true } :=
    h.createPeer true none
  exact hcreated.awaits rfl rfl

theorem callerLine : Line CallerStage.view := ⟨caller_settle, caller_resume, caller_flushed⟩

end Party

/-! ### The callee -/

/-- Where the line of the callee stands. -/
inductive CalleeStage where
  | idle
  | taking (o : String)
  | taken (o : String)
  | flushing (o : String) (rest : List IceCandidate)
  | flushed (o : String) (rest : List IceCandidate)
  | creating (o : String)
  | created (o a : String)
  | setting (o a : String)
  | set (o a : String)
  | done (o a : String)

namespace CalleeStage

/-- The negotiated connection of the callee. -/
def agreed (o a : String) : RtcConnection :=
  { currentLocal := some (answerOf a), currentRemote := some (offerOf o) }

def view : CalleeStage → View
  | idle => { initiator := false }
  | taking o =>
    { initiator := false, mains := [⟨.setRemoteOffer (offerOf o), .pending⟩]
      heard := [.offer (some (offerOf o))] }
  | taken o =>
    { initiator := false, connection := offered o
      mains := [⟨.setRemoteOffer (offerOf o), .fulfilled⟩]
      heard := [.offer (some (offerOf o))] }
  | flushing o rest =>
    { initiator := false, connection := offered o, flushed := true
      mains := [⟨.flush true rest, .pending⟩]
      heard := [.offer (some (offerOf o))] }
  | flushed o rest =>
    { initiator := false, connection := offered o, flushed := true
      mains := [⟨.flush true rest, .fulfilled⟩]
      heard := [.offer (some (offerOf o))] }
  | creating o =>
    { initiator := false, connection := offered o, flushed := true
      mains := [⟨.createAnswer none, .pending⟩]
      heard := [.offer (some (offerOf o))] }
  | created o a =>
    { initiator := false, connection := offered o, flushed := true
      mains := [⟨.createAnswer (some (answerOf a)), .fulfilled⟩]
      heard := [.offer (some (offerOf o))] }
  | setting o a =>
    { initiator := false, connection := offered o, flushed := true
      mains := [⟨.setLocalAnswer (answerOf a), .pending⟩], heard := [.offer (some (offerOf o))] }
  | set o a =>
    { initiator := false, connection := agreed o a, flushed := true
      mains := [⟨.setLocalAnswer (answerOf a), .fulfilled⟩], heard := [.offer (some (offerOf o))] }
  | done o a =>
    { initiator := false, connection := agreed o a, flushed := true
      sent := [.answer (some (answerOf a))], heard := [.offer (some (offerOf o))] }

end CalleeStage

namespace Party

variable {p q other : Party} {t : Task}

theorem callee_settle {st : CalleeStage} (h : p.Shows st.view) (ht : t ∈ st.view.mains)
    (hpending : t.promise = .pending)
    (sdp : String) : ∃ st' : CalleeStage, (p.settle t sdp).Shows st'.view := by
  cases st with
  | taking o =>
    obtain rfl := List.mem_singleton.mp ht
    exact ⟨.taken o, h.settle_main rfl rfl rfl id⟩
  | flushing o rest =>
    obtain rfl := List.mem_singleton.mp ht
    exact ⟨.flushed o rest, h.settle_main rfl rfl (by simp [Task.IsMain]) id⟩
  | creating o =>
    obtain rfl := List.mem_singleton.mp ht
    exact ⟨.created o sdp, h.settle_main rfl rfl rfl id⟩
  | setting o a =>
    obtain rfl := List.mem_singleton.mp ht
    exact ⟨.set o a, h.settle_main rfl rfl rfl nofun⟩
  | taken o =>
    obtain rfl := List.mem_singleton.mp ht
    cases hpending
  | flushed o rest =>
    obtain rfl := List.mem_singleton.mp ht
    cases hpending
  | created o a =>
    obtain rfl := List.mem_singleton.mp ht
    cases hpending
  | set o a =>
    obtain rfl := List.mem_singleton.mp ht
    cases hpending
  | idle => cases ht
  | done o a => cases ht

theorem callee_afterFlush (o : String) (queue : List IceCandidate) : ∃ st : CalleeStage,
    View.afterFlush { (CalleeStage.flushed o []).view with mains := [] } true queue = st.view := by
  cases queue with
  | nil => exact ⟨.creating o, rfl⟩
  | cons candidate rest => exact ⟨.flushing o rest, rfl⟩

theorem callee_resume {st : CalleeStage} (h : p.Shows st.view) (ht : t ∈ st.view.mains)
    (hsettled : t.promise ≠ .pending) : ∃ st' : CalleeStage, (p.resume t).Shows st'.view := by
  obtain ⟨queue, hpeer, hqueue⟩ := h.peer
  cases st with
  | taken o =>
    obtain rfl := List.mem_singleton.mp ht
    rw [resume_fulfilled hpeer]
    obtain ⟨st', hst'⟩ := callee_afterFlush o queue
    refine ⟨st', hst' ▸ ?_⟩
    exact (h.take rfl).takeCandidates rfl true queue
  | flushed o rest =>
    obtain rfl := List.mem_singleton.mp ht
    obtain rfl := hqueue rfl
    rw [resume_fulfilled hpeer]
    obtain ⟨st', hst'⟩ := callee_afterFlush o rest
    refine ⟨st', hst' ▸ ?_⟩
    exact (h.take rfl).flushCandidates rfl true rest
  | created o a =>
    obtain rfl := List.mem_singleton.mp ht
    rw [resume_fulfilled hpeer]
    exact ⟨.setting o a, (h.take rfl).awaits rfl rfl⟩
  | set o a =>
    obtain rfl := List.mem_singleton.mp ht
    rw [resume_fulfilled hpeer]
    exact ⟨.done o a, (h.take rfl).sendSignal rfl nofun⟩
  -- the promises of the other stages are pending
  | taking o =>
    obtain rfl := List.mem_singleton.mp ht
    exact absurd rfl hsettled
  | flushing o rest =>
    obtain rfl := List.mem_singleton.mp ht
    exact absurd rfl hsettled
  | creating o =>
    obtain rfl := List.mem_singleton.mp ht
    exact absurd rfl hsettled
  | setting o a =>
    obtain rfl := List.mem_singleton.mp ht
    exact absurd rfl hsettled
  | idle => cases ht
  | done o a => cases ht

theorem callee_flushed (st : CalleeStage) (hflushed : st.view.flushed = true) :
    st.view.connection.remoteDescription ≠ none := by
  cases st with
  | idle => cases hflushed
  | taking o => cases hflushed
  | taken o => cases hflushed
  | _ => nofun

/-- The first signal makes the caller known. -/
theorem Absent.handleSignal (h : p.Absent) (signal : RtcSignal) :
    p.handleSignal signal = (p.createPeer false).handleSignal signal := by
  have hwith : p.withPeer = p.createPeer false := by
    rw [Party.withPeer, h.peer]
    rfl
  have hwith' : (p.createPeer false).withPeer = p.createPeer false := rfl
  simp only [Party.handleSignal, hwith, hwith']

/-- The offer arrives at a callee that has heard no other. -/
theorem callee_offer {o : String} (h : p.Shows CalleeStage.idle.view) :
    ({ p.handleSignal (.offer (some (offerOf o))) with
        heard := p.heard ++ [.offer (some (offerOf o))] } : Party).Shows
          (CalleeStage.taking o).view := by
  obtain ⟨queue, hpeer, hqueue⟩ := h.peer
  simp only [handleSignal, h.withPeer, hpeer]
  exact (h.awaits rfl rfl).hears rfl

theorem calleeLine : Line CalleeStage.view := ⟨callee_settle, callee_resume, callee_flushed⟩

/-! ### What was said -/

theorem sent_addPeer (initiator : Bool) : (p.addPeer initiator).sent = p.sent := by
  rw [addPeer]
  split
  · rfl
  · dsimp only
    split
    · rfl
    · rfl

theorem sent_withPeer : p.withPeer.sent = p.sent := by
  rw [withPeer]
  split
  · rfl
  · rfl

theorem sent_handleSignal (signal : RtcSignal) : (p.handleSignal signal).sent = p.sent := by
  obtain ⟨peer, hpeer⟩ := p.exists_withPeer
  simp only [handleSignal, hpeer]
  cases signal with
  | ice candidate =>
    dsimp only [Party.addCandidate]
    split
    · exact sent_withPeer
    · exact sent_withPeer
  | offer sdp =>
    cases sdp with
    | none => exact sent_withPeer
    | some sdp =>
      dsimp only [handleOffer]
      split
      · exact sent_withPeer
      · split
        · exact sent_withPeer
        · exact sent_withPeer
  | answer sdp =>
    cases sdp with
    | none => exact sent_withPeer
    | some sdp =>
      dsimp only
      split
      · exact sent_withPeer
      · exact sent_withPeer

theorem sent_settle (t : Task) (sdp : String) : (p.settle t sdp).sent = p.sent := by
  rw [settle]
  split
  · rfl
  · split
    · rfl
    · rfl

theorem sent_flushCandidates {peer : RtcPeer} (answers : Bool) (queue : List IceCandidate) :
    (p.flushCandidates peer answers queue).sent = p.sent := by
  cases queue with
  | nil =>
    rw [flushCandidates]
    split
    · rfl
    · rfl
  | cons candidate rest => rfl

theorem sent_continues {peer : RtcPeer} (await : Await) :
    p.sent <+: (p.continues peer await).sent := by
  cases await with
  | createOffer offer => cases offer with
    | none => exact List.prefix_rfl
    | some offer => exact List.prefix_rfl
  | createAnswer answer => cases answer with
    | none => exact List.prefix_rfl
    | some answer => exact List.prefix_rfl
  | setLocalOffer offer => exact List.prefix_append p.sent _
  | setLocalAnswer answer => exact List.prefix_append p.sent _
  | rollback sdp => exact List.prefix_rfl
  | setRemoteOffer sdp => rw [continues, takeCandidates, sent_flushCandidates]
  | setRemoteAnswer sdp => rw [continues, takeCandidates, sent_flushCandidates]
  | flush answers rest => rw [continues, sent_flushCandidates]
  | addCandidate => exact List.prefix_rfl

theorem sent_fails {peer : RtcPeer} (await : Await) : (p.fails peer await).sent = p.sent := by
  cases await with
  | _ => rfl

theorem sent_resume (t : Task) : p.sent <+: (p.resume t).sent := by
  rw [resume]
  split
  · exact List.prefix_rfl
  · rename_i peer hpeer
    dsimp only
    split
    · exact sent_continues (p := { p with tasks := p.tasks.erase t }) _
    · exact List.prefix_rfl
    · rw [sent_fails]
    · exact sent_continues (p := { p with tasks := p.tasks.erase t }) _

/-- What was said stays said. -/
theorem sent_next (e : Event) (hnext : p.next other e = some q) : p.sent <+: q.sent := by
  cases e with
  | call =>
    obtain ⟨initiator, -, rfl⟩ := Option.map_eq_some_iff.mp hnext
    rw [sent_addPeer]
  | found =>
    obtain ⟨peer, candidate, rest, -, -, rfl⟩ := next_found hnext
    exact List.prefix_append p.sent _
  | deliver =>
    obtain ⟨signal, -, rfl⟩ := Option.map_eq_some_iff.mp hnext
    show p.sent <+: (p.handleSignal signal).sent
    rw [sent_handleSignal]
  | settle t sdp =>
    obtain ⟨-, -, rfl⟩ := next_settle hnext
    rw [sent_settle]
  | resume t =>
    obtain ⟨-, -, rfl⟩ := next_resume hnext
    exact sent_resume t

theorem prefix_concat_of_getElem? {α : Type*} {l m : List α} {x : α} (h : l <+: m)
    (hx : m[l.length]? = some x) :
    l ++ [x] <+: m := by
  obtain ⟨rest, rfl⟩ := h
  rw [List.getElem?_append_right (Nat.le_refl _), Nat.sub_self] at hx
  cases rest with
  | nil => cases hx
  | cons y rest =>
    obtain rfl : y = x := Option.some.inj hx
    exact ⟨rest, by simp⟩

/-- What was heard was said, in that order. -/
theorem heard_next (h : p.heard <+: other.sent) (e : Event) (hnext : p.next other e = some q) :
    q.heard <+: other.sent := by
  cases e with
  | call =>
    obtain ⟨initiator, -, rfl⟩ := Option.map_eq_some_iff.mp hnext
    rw [(keeps_addPeer initiator).heard]
    exact h
  | found =>
    obtain ⟨peer, candidate, rest, -, -, rfl⟩ := next_found hnext
    exact h
  | deliver =>
    obtain ⟨signal, hsignal, rfl⟩ := Option.map_eq_some_iff.mp hnext
    exact prefix_concat_of_getElem? h hsignal
  | settle t sdp =>
    obtain ⟨ht, -, rfl⟩ := next_settle hnext
    rw [(keeps_settle ht sdp).heard]
    exact h
  | resume t =>
    obtain ⟨ht, -, rfl⟩ := next_resume hnext
    rw [(keeps_resume ht).heard]
    exact h

end Party

/-! ### The pair -/

structure Pair where
  caller : Party
  callee : Party

inductive Side where
  | caller
  | callee

namespace Pair

/-- The caller calls `addPeer(…, true)`; the callee calls `addPeer(…, false)`, or not. -/
def start (callerFinds calleeFinds : List IceCandidate) (calleeCalls : Bool) : Pair where
  caller := { call := some true, finds := callerFinds }
  callee := { call := if calleeCalls then some false else none, finds := calleeFinds }

/-- One step of one side; `none` if it has nothing to do. -/
def next (s : Pair) : Side × Party.Event → Option Pair
  | (.caller, e) => (s.caller.next s.callee e).map fun caller => { s with caller }
  | (.callee, e) => (s.callee.next s.caller e).map fun callee => { s with callee }

/-- A step that cannot be taken changes nothing. -/
def step (s : Pair) (e : Side × Party.Event) : Pair := (s.next e).getD s

/-- What a negotiation comes to. -/
structure Converged (s : Pair) : Prop where
  /-- Both connections are stable, and each has the other's description. -/
  agree : ∃ a b, s.caller.peer = some a ∧ s.callee.peer = some b ∧
    a.connection.signalingState = .stable ∧ b.connection.signalingState = .stable ∧
    ∃ offer answer, a.connection.localDescription = some offer ∧
      b.connection.remoteDescription = some offer ∧
      b.connection.localDescription = some answer ∧ a.connection.remoteDescription = some answer ∧
      descriptions s.caller.sent = [.offer (some offer)] ∧
        descriptions s.callee.sent = [.answer (some answer)]
  created : s.caller.created = 1 ∧ s.callee.created = 1
  /-- What one side sent is what the other passed to `addIceCandidate`, each as often. -/
  candidates : s.callee.added.Perm (s.caller.sent.filterMap RtcSignal.candidate?) ∧
    s.caller.added.Perm (s.callee.sent.filterMap RtcSignal.candidate?)

/-- Each side stands on its line, and has heard what the other said. -/
structure Inv (s : Pair) : Prop where
  caller : s.caller.Absent ∧ s.caller.call = some true ∨ ∃ st : CallerStage, s.caller.Shows st.view
  callee : s.callee.Absent ∧ s.callee.call ≠ some true ∨ ∃ st : CalleeStage, s.callee.Shows st.view
  callerHeard : s.caller.heard <+: s.callee.sent
  calleeHeard : s.callee.heard <+: s.caller.sent
  callerAccounts : s.caller.Accounts
  calleeAccounts : s.callee.Accounts

variable {s s' : Pair}

theorem inv_start (callerFinds calleeFinds : List IceCandidate) (calleeCalls : Bool) :
    (start callerFinds calleeFinds calleeCalls).Inv where
  caller := .inl ⟨⟨rfl, rfl, rfl, rfl, rfl⟩, rfl⟩
  callee := by
    refine .inl ⟨⟨rfl, rfl, rfl, rfl, rfl⟩, ?_⟩
    cases calleeCalls with
    | true => nofun
    | false => nofun
  callerHeard := List.prefix_rfl
  calleeHeard := List.prefix_rfl
  callerAccounts := fun _ => rfl
  calleeAccounts := fun _ => rfl

theorem prefix_singleton {α : Type*} {l : List α} {x y : α} (h : l ++ [x] <+: [y]) :
    l = [] ∧ x = y := by
  cases l with
  | nil => exact ⟨rfl, by simpa using h⟩
  | cons z l =>
    have hle := h.length_le
    simp at hle

/-- All that the caller ever says, candidates apart, is one offer. -/
theorem Inv.caller_says (h : s.Inv) {l : List RtcSignal} {signal : RtcSignal}
    (hpref : l ++ [signal] <+: descriptions s.caller.sent) :
    l = [] ∧ ∃ o, signal = .offer (some (offerOf o)) := by
  have hnil : ¬ l ++ [signal] <+: [] := by simp
  rcases h.caller with ⟨habsent, -⟩ | ⟨st, hst⟩
  · rw [habsent.sent] at hpref
    exact absurd hpref hnil
  · rw [hst.sent] at hpref
    cases st with
    | creating => exact absurd hpref hnil
    | created o => exact absurd hpref hnil
    | setting o => exact absurd hpref hnil
    | set o => exact absurd hpref hnil
    | _ =>
      obtain ⟨hl, hsignal⟩ := prefix_singleton hpref
      exact ⟨hl, _, hsignal⟩

/-- All that the callee ever says, candidates apart, is one answer. -/
theorem Inv.callee_says (h : s.Inv) {l : List RtcSignal} {signal : RtcSignal}
    (hpref : l ++ [signal] <+: descriptions s.callee.sent) :
    l = [] ∧ ∃ a, signal = .answer (some (answerOf a)) := by
  have hnil : ¬ l ++ [signal] <+: [] := by simp
  rcases h.callee with ⟨habsent, -⟩ | ⟨st, hst⟩
  · rw [habsent.sent] at hpref
    exact absurd hpref hnil
  · rw [hst.sent] at hpref
    cases st with
    | done o a =>
      obtain ⟨hl, hsignal⟩ := prefix_singleton hpref
      exact ⟨hl, a, hsignal⟩
    | _ => exact absurd hpref hnil

/-- Before the callee says anything it has heard the offer. -/
theorem Inv.callee_spoken (h : s.Inv) (hsent : s.callee.sent ≠ []) :
    descriptions s.callee.heard ≠ [] := by
  rcases h.callee with ⟨habsent, -⟩ | ⟨st, hst⟩
  · exact absurd habsent.sent hsent
  · have hlocal : st.view.connection.localDescription ≠ none :=
      fun hnone => hsent (hst.silent hnone)
    rw [hst.heard]
    cases st with
    | set o a => nofun
    | done o a => nofun
    | _ => exact absurd rfl hlocal

/-- What the callee has heard, the caller has said. -/
theorem Inv.caller_spoken (h : s.Inv) (hheard : descriptions s.callee.heard ≠ []) :
    descriptions s.caller.sent ≠ [] := by
  intro hnil
  have hpref := descriptions_prefix h.calleeHeard
  rw [hnil] at hpref
  exact hheard (List.prefix_nil.mp hpref)

theorem getElem?_ne_nil {α : Type*} {l : List α} {i : ℕ} {x : α} (h : l[i]? = some x) : l ≠ [] := by
  rintro rfl
  simp at h

theorem Inv.caller_next (h : s.Inv) (e : Party.Event) {caller : Party}
    (hnext : s.caller.next s.callee e = some caller) :
    caller.Absent ∧ caller.call = some true ∨ ∃ st : CallerStage, caller.Shows st.view := by
  rcases h.caller with ⟨habsent, hcall⟩ | ⟨st, hst⟩
  · cases e with
    | call =>
      rw [Party.next, hcall] at hnext
      obtain rfl := Option.some.inj hnext
      exact .inr ⟨.creating, habsent.addPeer⟩
    | found => simp [Party.next, habsent.peer] at hnext
    | deliver =>
      -- the callee says nothing before it has heard the offer
      obtain ⟨signal, hsignal, -⟩ := Option.map_eq_some_iff.mp hnext
      refine absurd ?_ (h.caller_spoken (h.callee_spoken (getElem?_ne_nil hsignal)))
      rw [habsent.sent]
      rfl
    | settle t sdp => simp [Party.next, habsent.tasks] at hnext
    | resume t => simp [Party.next, habsent.tasks] at hnext
  · refine .inr (Party.callerLine.next hst e hnext ?_)
    intro signal hsignal hcandidate
    -- what arrives is the answer, the first that the callee says, so the offer is out
    have hheard := Party.prefix_concat_of_getElem? h.callerHeard hsignal
    have hpref := descriptions_prefix hheard
    rw [descriptions_concat hcandidate, hst.heard] at hpref
    obtain ⟨hnone, a, rfl⟩ := h.callee_says hpref
    have hsent := h.caller_spoken (h.callee_spoken (getElem?_ne_nil hsignal))
    rw [hst.sent] at hsent
    cases st with
    | creating => exact absurd rfl hsent
    | created o => exact absurd rfl hsent
    | setting o => exact absurd rfl hsent
    | set o => exact absurd rfl hsent
    | waiting o => exact ⟨.taking o a, Party.caller_answer hst⟩
    | _ => cases hnone

theorem Inv.callee_next (h : s.Inv) (e : Party.Event) {callee : Party}
    (hnext : s.callee.next s.caller e = some callee) :
    callee.Absent ∧ callee.call ≠ some true ∨ ∃ st : CalleeStage, callee.Shows st.view := by
  have harrives : ∀ signal, s.caller.sent[s.callee.heard.length]? = some signal →
    signal.candidate? = none →
      descriptions s.callee.heard = [] ∧ ∃ o, signal = .offer (some (offerOf o)) := by
    intro signal hsignal hcandidate
    -- a prefix of what the caller said, which is one offer at most
    have hpref := descriptions_prefix (Party.prefix_concat_of_getElem? h.calleeHeard hsignal)
    rw [descriptions_concat hcandidate] at hpref
    exact h.caller_says hpref
  rcases h.callee with ⟨habsent, hcall⟩ | ⟨st, hst⟩
  · cases e with
    | call =>
      obtain ⟨initiator, hinitiator, rfl⟩ := Option.map_eq_some_iff.mp hnext
      cases initiator with
      | true => exact absurd hinitiator hcall
      | false =>
        rw [Party.addPeer, if_neg (by simp [habsent.peer])]
        exact .inr ⟨.idle, habsent.createPeer false none⟩
    | found => simp [Party.next, habsent.peer] at hnext
    | deliver =>
      -- the first signal makes the caller known: a candidate may come before the offer
      obtain ⟨signal, hsignal, rfl⟩ := Option.map_eq_some_iff.mp hnext
      have hidle : (s.callee.createPeer false).Shows CalleeStage.idle.view :=
        habsent.createPeer false s.callee.call
      rw [habsent.handleSignal]
      cases signal with
      | ice candidate => exact .inr ⟨.idle, hidle.ice (by simp [CalleeStage.view]) candidate⟩
      | offer sdp =>
        obtain ⟨-, o, heq⟩ := harrives _ hsignal rfl
        obtain rfl := RtcSignal.offer.inj heq
        exact .inr ⟨.taking o, Party.callee_offer hidle⟩
      | answer sdp =>
        obtain ⟨-, o, heq⟩ := harrives _ hsignal rfl
        cases heq
    | settle t sdp => simp [Party.next, habsent.tasks] at hnext
    | resume t => simp [Party.next, habsent.tasks] at hnext
  · refine .inr (Party.calleeLine.next hst e hnext ?_)
    intro signal hsignal hcandidate
    obtain ⟨hnone, o, rfl⟩ := harrives signal hsignal hcandidate
    rw [hst.heard] at hnone
    cases st with
    | idle => exact ⟨.taking o, Party.callee_offer hst⟩
    | _ => cases hnone

theorem Inv.next (h : s.Inv) (e : Side × Party.Event) (hnext : s.next e = some s') : s'.Inv := by
  obtain ⟨side, e⟩ := e
  cases side with
  | caller =>
    obtain ⟨caller, hcaller, rfl⟩ := Option.map_eq_some_iff.mp hnext
    exact ⟨h.caller_next e hcaller, h.callee, Party.heard_next h.callerHeard e hcaller,
      h.calleeHeard.trans (Party.sent_next e hcaller), h.callerAccounts.next e hcaller,
        h.calleeAccounts⟩
  | callee =>
    obtain ⟨callee, hcallee, rfl⟩ := Option.map_eq_some_iff.mp hnext
    exact ⟨h.caller, h.callee_next e hcallee, h.callerHeard.trans (Party.sent_next e hcallee),
      Party.heard_next h.calleeHeard e hcallee, h.callerAccounts, h.calleeAccounts.next e hcallee⟩

theorem Inv.step (h : s.Inv) (e : Side × Party.Event) : (s.step e).Inv := by
  rw [Pair.step]
  cases hnext : s.next e with
  | none => exact h
  | some s' => exact h.next e hnext

/-! ### When nothing is left to do -/

/-- A party with nothing left to do: no call is to come or under way, and all that was said
has arrived. -/
theorem idle_of_next {p other : Party} (hend : ∀ e, p.next other e = none)
    (hheard : p.heard <+: other.sent) :
    p.call = none ∧ p.tasks = [] ∧ p.heard = other.sent := by
  refine ⟨?_, ?_, ?_⟩
  · exact Option.map_eq_none_iff.mp (hend .call)
  -- a promise can always be settled, or taken up
  · by_contra hne
    obtain ⟨t, ht⟩ := List.exists_mem_of_ne_nil _ hne
    by_cases hpending : t.promise = .pending
    · have hsettle := hend (.settle t "")
      simp [Party.next, ht, hpending] at hsettle
    · have hresume := hend (.resume t)
      simp [Party.next, ht, hpending] at hresume
  · obtain ⟨rest, hrest⟩ := hheard
    have hdeliver := Option.map_eq_none_iff.mp (hend .deliver)
    rw [← hrest, List.getElem?_append_right (Nat.le_refl _), Nat.sub_self] at hdeliver
    cases rest with
    | nil => rw [← hrest, List.append_nil]
    | cons signal rest => cases hdeliver

/-- A candidate that arrived was passed on, once nothing is queued or under way. -/
theorem perm_added {p : Party} (h : p.Accounts) (hqueue : p.pendingCandidates = [])
    (htasks : p.tasks = []) :
    p.added.Perm (p.heard.filterMap RtcSignal.candidate?) := by
  rw [List.perm_iff_count]
  intro c
  rw [h c, Party.held, hqueue, Party.rests, htasks]
  simp

/-- A caller with no call to come or under way waits for the answer, or is done. -/
theorem Inv.caller_ends (h : s.Inv) (hcall : s.caller.call = none) (htasks : s.caller.tasks = []) :
    ∃ o, s.caller.Shows (CallerStage.waiting o).view ∨
      ∃ a, s.caller.Shows (CallerStage.done o a).view := by
  rcases h.caller with ⟨-, hcall'⟩ | ⟨st, hst⟩
  · cases hcall.symm.trans hcall'
  · have hmains := hst.mains
    rw [htasks] at hmains
    cases st with
    | waiting o => exact ⟨o, .inl hst⟩
    | done o a => exact ⟨o, .inr ⟨a, hst⟩⟩
    | _ => cases hmains

/-- A callee that has heard the offer, with no call under way, has answered. -/
theorem Inv.callee_ends (h : s.Inv) (htasks : s.callee.tasks = []) {o : String}
    (hheard : descriptions s.callee.heard = [.offer (some (offerOf o))]) :
    ∃ a, s.callee.Shows (CalleeStage.done o a).view := by
  rcases h.callee with ⟨habsent, -⟩ | ⟨st, hst⟩
  · rw [habsent.heard] at hheard
    cases hheard
  · have hmains := hst.mains
    rw [htasks] at hmains
    rw [hst.heard] at hheard
    cases st with
    | idle => cases hheard
    | done o' a =>
      cases hheard
      exact ⟨a, hst⟩
    | _ => cases hmains

theorem Inv.converged (h : s.Inv) (hend : ∀ e, s.next e = none) : s.Converged := by
  have hcallerEnd : ∀ e, s.caller.next s.callee e = none :=
    fun e => Option.map_eq_none_iff.mp (hend (.caller, e))
  have hcalleeEnd : ∀ e, s.callee.next s.caller e = none :=
    fun e => Option.map_eq_none_iff.mp (hend (.callee, e))
  -- all that was said has arrived: the offer at the callee, then the answer at the caller
  obtain ⟨hcall, htasks, hheard⟩ := idle_of_next hcallerEnd h.callerHeard
  obtain ⟨-, htasks', hheard'⟩ := idle_of_next hcalleeEnd h.calleeHeard
  obtain ⟨o, hcaller⟩ := h.caller_ends hcall htasks
  have hoffer : descriptions s.callee.heard = [.offer (some (offerOf o))] := by
    rw [hheard']
    rcases hcaller with hwaiting | ⟨a, hdone⟩
    · exact hwaiting.sent
    · exact hdone.sent
  obtain ⟨a, hcallee⟩ := h.callee_ends htasks' hoffer
  have hanswer : descriptions s.caller.heard = [.answer (some (answerOf a))] := by
    rw [hheard]
    exact hcallee.sent
  -- a caller that has heard an answer no longer waits for one
  obtain ⟨a', hdone⟩ : ∃ a', s.caller.Shows (CallerStage.done o a').view := by
    rcases hcaller with hwaiting | hdone
    · cases hwaiting.heard.symm.trans hanswer
    · exact hdone
  obtain rfl : a' = a := by
    have heq := hdone.heard.symm.trans hanswer
    simpa [CallerStage.view, answerOf] using heq
  -- both queues are empty after the flush, so what arrived was passed on
  obtain ⟨queue, hpeer, hqueue⟩ := hdone.peer
  obtain ⟨queue', hpeer', hqueue'⟩ := hcallee.peer
  refine ⟨⟨_, _, hpeer, hpeer', rfl, rfl, offerOf o, answerOf a', rfl, rfl, rfl, rfl,
    hdone.sent, hcallee.sent⟩,
    ⟨hdone.created, hcallee.created⟩, ?_, ?_⟩
  · rw [← hheard']
    exact perm_added h.calleeAccounts
      (by rw [Party.pendingCandidates, hpeer', hqueue' rfl]; rfl) htasks'
  · rw [← hheard]
    exact perm_added h.callerAccounts
      (by rw [Party.pendingCandidates, hpeer, hqueue rfl]; rfl) htasks

end Pair

/-- **A negotiated pair converges.**  Whatever the order of awaits, deliveries and
candidates, a run that has nothing left to do has converged. -/
theorem pair_converges (callerFinds calleeFinds : List IceCandidate) (calleeCalls : Bool)
    (events : List (Side × Party.Event))
    (hend : ∀ e, (Runs.run Pair.step (.start callerFinds calleeFinds calleeCalls) events).next e =
      none) :
    (Runs.run Pair.step (.start callerFinds calleeFinds calleeCalls) events).Converged :=
  (Runs.always_of_step (Pair.inv_start callerFinds calleeFinds calleeCalls)
    (fun _ e h => h.step e) events).last.converged
    hend

/-- A candidate overtakes the offer and one the answer; the callee learns of the caller from
the first of them. -/
def trickle : List (Side × Party.Event) :=
  [(.caller, .call), (.caller, .settle ⟨.createOffer none, .pending⟩ "o"),
   (.caller, .resume ⟨.createOffer (some (offerOf "o")), .fulfilled⟩),
   (.caller, .settle ⟨.setLocalOffer (offerOf "o"), .pending⟩ ""), (.caller, .found),
   (.callee, .deliver), (.caller, .resume ⟨.setLocalOffer (offerOf "o"), .fulfilled⟩),
   (.callee, .deliver), (.callee, .settle ⟨.setRemoteOffer (offerOf "o"), .pending⟩ ""),
   (.callee, .resume ⟨.setRemoteOffer (offerOf "o"), .fulfilled⟩),
   (.callee, .settle ⟨.flush true [], .pending⟩ ""),
   (.callee, .resume ⟨.flush true [], .fulfilled⟩),
   (.callee, .settle ⟨.createAnswer none, .pending⟩ "a"),
   (.callee, .resume ⟨.createAnswer (some (answerOf "a")), .fulfilled⟩),
   (.callee, .settle ⟨.setLocalAnswer (answerOf "a"), .pending⟩ ""), (.callee, .found),
   (.caller, .deliver), (.callee, .resume ⟨.setLocalAnswer (answerOf "a"), .fulfilled⟩),
   (.caller, .deliver), (.caller, .settle ⟨.setRemoteAnswer (answerOf "a"), .pending⟩ ""),
   (.caller, .resume ⟨.setRemoteAnswer (answerOf "a"), .fulfilled⟩),
   (.caller, .settle ⟨.flush false [], .pending⟩ ""),
   (.caller, .resume ⟨.flush false [], .fulfilled⟩)]

/-- A party that has made its call, found its candidates and heard all has nothing to do. -/
theorem Party.next_eq_none {p other : Party} (hcall : p.call = none)
    (hfinds : p.finds = []) (htasks : p.tasks = [])
    (hheard : p.heard.length = other.sent.length) (e : Party.Event) : p.next other e = none := by
  cases e with
  | call => simp [Party.next, hcall]
  | found =>
    rw [Party.next, hfinds]
    cases p.peer with
    | none => rfl
    | some peer => rfl
  | deliver => simp [Party.next, hheard]
  | settle t sdp => simp [Party.next, htasks]
  | resume t => simp [Party.next, htasks]

theorem pair_converges_trickle :
    (Runs.run Pair.step (.start ["c"] ["d"] false) trickle).Converged := by
  refine pair_converges ["c"] ["d"] false trickle ?_
  rintro ⟨side, e⟩
  cases side with
  | caller =>
    refine Option.map_eq_none_iff.mpr (Party.next_eq_none ?_ ?_ ?_ ?_ e)
    · decide +kernel
    · decide +kernel
    · decide +kernel
    · decide +kernel
  | callee =>
    refine Option.map_eq_none_iff.mpr (Party.next_eq_none ?_ ?_ ?_ ?_ e)
    · decide +kernel
    · decide +kernel
    · decide +kernel
    · decide +kernel

end ZoomClone

/-
The connection behind a peer, and the calls of `PeerManager.ts` that wait on it.

`addPeer` and `handleSignal` stop at every await.  Where a call stands is an `Await`, and
its promise settles and is taken up in two steps, with anything in between.  A `Party` is
one `PeerManager` as far as one remote participant goes: its peer, the calls under way,
and what was said in both directions.

* `RtcConnection` — the signaling states of an `RTCPeerConnection`;
* `Party.next` — one step of a party;
* `Party.Accounts` — every candidate that arrived waits, or was passed on, once;
* `Party.role_next` — the party plays the role that `PeerManager` gives it.
-/
import Mathlib.Data.List.Perm.Basic
import ZoomClone.PeerManager

namespace ZoomClone

/-! ### The connection -/

inductive SdpType where
  | offer
  | answer
  | rollback
  deriving DecidableEq

structure SessionDescription where
  type : SdpType
  sdp : String
  deriving DecidableEq

abbrev IceCandidate := String

inductive SignalingState where
  | stable
  | haveLocalOffer
  | haveRemoteOffer
  deriving DecidableEq

structure RtcConnection where
  signalingState : SignalingState := .stable
  currentLocal : Option SessionDescription := none
  pendingLocal : Option SessionDescription := none
  currentRemote : Option SessionDescription := none
  pendingRemote : Option SessionDescription := none
  deriving DecidableEq

namespace RtcConnection

def localDescription (c : RtcConnection) : Option SessionDescription :=
  c.pendingLocal <|> c.currentLocal

def remoteDescription (c : RtcConnection) : Option SessionDescription :=
  c.pendingRemote <|> c.currentRemote

/-- `none` is an `InvalidStateError`. -/
def setLocalDescription (c : RtcConnection) (d : SessionDescription) : Option RtcConnection :=
  match d.type, c.signalingState with
  | .offer, .haveRemoteOffer => none
  | .offer, _ => some { c with signalingState := .haveLocalOffer, pendingLocal := some d }
  | .answer, .haveRemoteOffer =>
    some { currentLocal := some d, currentRemote := c.pendingRemote }
  | .answer, _ => none
  | .rollback, .stable => none
  | .rollback, _ => some { c with
    signalingState := .stable, pendingLocal := none, pendingRemote := none }

/-- An offer that finds a local one rolls that back first. -/
def setRemoteDescription (c : RtcConnection) (d : SessionDescription) : Option RtcConnection :=
  match d.type, c.signalingState with
  | .offer, _ =>
    some { c with
      signalingState := .haveRemoteOffer, pendingLocal := none, pendingRemote := some d }
  | .answer, .haveLocalOffer =>
    some { currentLocal := c.pendingLocal, currentRemote := some d }
  | .answer, _ => none
  | .rollback, .stable => none
  | .rollback, _ => some { c with
    signalingState := .stable, pendingLocal := none, pendingRemote := none }

end RtcConnection

/-! ### Where a call stands -/

/-- What a call of `addPeer` or `handleSignal` awaits. -/
inductive Await where
  | createOffer (offer : Option SessionDescription)
  | setLocalOffer (offer : SessionDescription)
  | rollback (sdp : SessionDescription)
  | setRemoteOffer (sdp : SessionDescription)
  /-- An `addIceCandidate` of `flushCandidates`; an answer is due afterwards, or none. -/
  | flush (answers : Bool) (rest : List IceCandidate)
  | createAnswer (answer : Option SessionDescription)
  | setLocalAnswer (answer : SessionDescription)
  | setRemoteAnswer (sdp : SessionDescription)
  /-- The `addIceCandidate` of `addCandidate`. -/
  | addCandidate
  deriving DecidableEq

inductive PromiseState where
  | pending
  | fulfilled
  | rejected
  deriving DecidableEq

structure Task where
  await : Await
  promise : PromiseState := .pending
  deriving DecidableEq

/-- What the browser does for a promise; `sdp` is the description it makes up. -/
def RtcConnection.perform (c : RtcConnection) (sdp : String) :
    Await → Option (RtcConnection × Await)
  | .createOffer _ => some (c, .createOffer (some ⟨.offer, sdp⟩))
  | .setLocalOffer d => (c.setLocalDescription d).map (·, .setLocalOffer d)
  | .rollback d => (c.setLocalDescription ⟨.rollback, ""⟩).map (·, .rollback d)
  | .setRemoteOffer d => (c.setRemoteDescription d).map (·, .setRemoteOffer d)
  | .createAnswer _ =>
    if c.signalingState = .haveRemoteOffer then
      some (c, .createAnswer (some ⟨.answer, sdp⟩)) else none
  | .setLocalAnswer d => (c.setLocalDescription d).map (·, .setLocalAnswer d)
  | .setRemoteAnswer d => (c.setRemoteDescription d).map (·, .setRemoteAnswer d)
  | .flush answers rest =>
    if c.remoteDescription.isSome then some (c, .flush answers rest) else none
  | .addCandidate => if c.remoteDescription.isSome then some (c, .addCandidate) else none

/-! ### One party -/

/-- The `Peer` of the other one. -/
structure RtcPeer where
  connection : RtcConnection := {}
  initiator : Bool
  pendingCandidates : List IceCandidate := []
  settingRemoteAnswerPending : Bool := false
  deriving DecidableEq

inductive RtcSignal where
  | offer (sdp : Option SessionDescription)
  | answer (sdp : Option SessionDescription)
  | ice (candidate : IceCandidate)
  deriving DecidableEq

structure Party where
  peer : Option RtcPeer := none
  /-- How many connections were made for the other one. -/
  created : ℕ := 0
  tasks : List Task := []
  /-- The call of `addPeer` that is still to come, with its role. -/
  call : Option Bool := none
  /-- The candidates that the browser has yet to find. -/
  finds : List IceCandidate := []
  sent : List RtcSignal := []
  heard : List RtcSignal := []
  /-- What `addIceCandidate` was given. -/
  added : List IceCandidate := []
  deriving DecidableEq

namespace Party

def createPeer (p : Party) (initiator : Bool) : Party :=
  { p with peer := some { initiator }, created := p.created + 1 }

def sendSignal (p : Party) (signal : RtcSignal) : Party := { p with sent := p.sent ++ [signal] }

def awaits (p : Party) (await : Await) : Party := { p with tasks := p.tasks ++ [{ await }] }

def addPeer (p : Party) (initiator : Bool) : Party :=
  if p.peer.isSome then p
  else
    let p := p.createPeer initiator
    if initiator then p.awaits (.createOffer none) else p

/-- The initiator keeps its own offer; the other side rolls back. -/
def handleOffer (p : Party) (peer : RtcPeer) (sdp : SessionDescription) : Party :=
  let offerCollision :=
    peer.connection.signalingState = .haveLocalOffer ∨ peer.settingRemoteAnswerPending
  if offerCollision ∧ peer.initiator then p
  else if offerCollision then p.awaits (.rollback sdp)
  else p.awaits (.setRemoteOffer sdp)

def addCandidate (p : Party) (peer : RtcPeer) (candidate : IceCandidate) : Party :=
  if peer.connection.remoteDescription = none then
    { p with peer := some { peer with pendingCandidates := peer.pendingCandidates ++ [candidate] } }
  else { p with added := p.added ++ [candidate] }.awaits .addCandidate

/-- A signal from an unknown peer creates it. -/
def withPeer (p : Party) : Party := if p.peer.isSome then p else p.createPeer false

def handleSignal (p : Party) (signal : RtcSignal) : Party :=
  let p := p.withPeer
  match p.peer, signal with
  | none, _ => p
  | some peer, .ice candidate => p.addCandidate peer candidate
  | some _, .offer none => p
  | some _, .answer none => p
  | some peer, .offer (some sdp) => p.handleOffer peer sdp
  | some peer, .answer (some sdp) =>
    if peer.connection.signalingState ≠ .haveLocalOffer then p
    else { p with peer := some { peer with settingRemoteAnswerPending := true } }.awaits
      (.setRemoteAnswer sdp)

/-- The loop of `flushCandidates`, with what follows it in either caller. -/
def flushCandidates (p : Party) (peer : RtcPeer) (answers : Bool) : List IceCandidate → Party
  | candidate :: rest => { p with added := p.added ++ [candidate] }.awaits (.flush answers rest)
  | [] =>
    if answers then p.awaits (.createAnswer none)
    else { p with peer := some { peer with settingRemoteAnswerPending := false } }

/-- `flushCandidates` up to its loop: the queue is emptied. -/
def takeCandidates (p : Party) (peer : RtcPeer) (answers : Bool) : Party :=
  let peer' := { peer with pendingCandidates := [] }
  { p with peer := some peer' }.flushCandidates peer' answers peer.pendingCandidates

/-- The promise that a call awaits settles. -/
def settle (p : Party) (t : Task) (sdp : String) : Party :=
  match p.peer with
  | none => p
  | some peer =>
    match peer.connection.perform sdp t.await with
    | some (connection, await) =>
      { p with
        peer := some { peer with connection }
        tasks := p.tasks.erase t ++ [⟨await, .fulfilled⟩] }
    | none => { p with tasks := p.tasks.erase t ++ [⟨t.await, .rejected⟩] }

/-- An exception leaves the call; `finally` runs in one of them. -/
def fails (p : Party) (peer : RtcPeer) : Await → Party
  | .setRemoteAnswer _ => { p with peer := some { peer with settingRemoteAnswerPending := false } }
  | _ => p

/-- The call goes on to its next await, or to its end. -/
def continues (p : Party) (peer : RtcPeer) : Await → Party
  | .createOffer none => p
  | .createOffer (some offer) => p.awaits (.setLocalOffer offer)
  | .setLocalOffer _ => p.sendSignal (.offer peer.connection.localDescription)
  | .rollback sdp => p.awaits (.setRemoteOffer sdp)
  | .setRemoteOffer _ => p.takeCandidates peer true
  | .createAnswer none => p
  | .createAnswer (some answer) => p.awaits (.setLocalAnswer answer)
  | .setLocalAnswer _ => p.sendSignal (.answer peer.connection.localDescription)
  | .setRemoteAnswer _ => p.takeCandidates peer false
  | .flush answers rest => p.flushCandidates peer answers rest
  | .addCandidate => p

/-- A call takes up its settled promise.  A rejected `addIceCandidate` is caught. -/
def resume (p : Party) (t : Task) : Party :=
  match p.peer with
  | none => p
  | some peer =>
    let p := { p with tasks := p.tasks.erase t }
    match t.await, t.promise with
    | .flush answers rest, _ => p.continues peer (.flush answers rest)
    | .addCandidate, _ => p.continues peer .addCandidate
    | await, .rejected => p.fails peer await
    | await, _ => p.continues peer await

inductive Event where
  | call
  /-- `icecandidate`, once there is a local description. -/
  | found
  /-- The next signal of the other one arrives. -/
  | deliver
  | settle (t : Task) (sdp : String)
  | resume (t : Task)

/-- One step of a party beside the other one; `none` if there is nothing to do. -/
def next (p other : Party) : Event → Option Party
  | .call => p.call.map fun initiator => { p with call := none }.addPeer initiator
  | .found =>
    match p.peer, p.finds with
    | some peer, candidate :: rest =>
      if peer.connection.localDescription = none then none
      else some ({ p with finds := rest }.sendSignal (.ice candidate))
    | _, _ => none
  | .deliver =>
    other.sent[p.heard.length]?.map fun signal => { p.handleSignal signal with
      heard := p.heard ++ [signal] }
  | .settle t sdp => if t ∈ p.tasks ∧ t.promise = .pending then some (p.settle t sdp) else none
  | .resume t => if t ∈ p.tasks ∧ t.promise ≠ .pending then some (p.resume t) else none

/-! ### Every candidate is passed on once -/

end Party

def RtcSignal.candidate? : RtcSignal → Option IceCandidate
  | .ice candidate => some candidate
  | _ => none

/-- The candidates that a call has yet to pass on. -/
def Await.rest : Await → List IceCandidate
  | .flush _ rest => rest
  | _ => []

theorem RtcConnection.perform_rest {c c' : RtcConnection} {sdp : String} {await await' : Await}
    (h : c.perform sdp await = some (c', await')) : await'.rest = await.rest := by
  cases await with
  | createOffer offer =>
    cases h
    rfl
  | createAnswer answer =>
    simp only [perform] at h
    split at h
    · cases h
      rfl
    · cases h
  | flush answers rest =>
    simp only [perform] at h
    split at h
    · cases h
      rfl
    · cases h
  | addCandidate =>
    simp only [perform] at h
    split at h
    · cases h
      rfl
    · cases h
  | _ =>
    obtain ⟨c'', -, heq⟩ := Option.map_eq_some_iff.mp h
    cases heq
    rfl

namespace Party

def pendingCandidates (p : Party) : List IceCandidate := p.peer.elim [] RtcPeer.pendingCandidates

/-- What the calls under way have yet to pass on. -/
def rests (p : Party) : List IceCandidate := p.tasks.flatMap fun t => t.await.rest

/-- How often a candidate is queued, due in a call, or passed on. -/
def held (p : Party) (c : IceCandidate) : ℕ :=
  p.pendingCandidates.count c + p.rests.count c + p.added.count c

/-- What arrived is held, each as often as it arrived. -/
def Accounts (p : Party) : Prop :=
  ∀ c, (p.heard.filterMap RtcSignal.candidate?).count c = p.held c

/-- Nothing arrived, and the same is held. -/
structure Keeps (p q : Party) : Prop where
  heard : q.heard = p.heard
  held : ∀ c, q.held c = p.held c

variable {p q r other : Party} {peer : RtcPeer}

theorem Keeps.refl (p : Party) : p.Keeps p := ⟨rfl, fun _ => rfl⟩

theorem Keeps.trans (h : p.Keeps q) (h' : q.Keeps r) : p.Keeps r :=
  ⟨h'.heard.trans h.heard, fun c => (h'.held c).trans (h.held c)⟩

theorem Keeps.accounts (h : p.Keeps q) (haccounts : p.Accounts) : q.Accounts := by
  intro c
  rw [h.heard, h.held]
  exact haccounts c

@[simp] theorem rests_awaits (await : Await) : (p.awaits await).rests = p.rests ++ await.rest := by
  simp [rests, awaits]

/-- A call goes on to an await that passes nothing on. -/
theorem keeps_awaits {await : Await} (hrest : await.rest = []) : p.Keeps (p.awaits await) where
  heard := rfl
  held := by
    intro c
    rw [held, rests_awaits, hrest, List.append_nil]
    rfl

theorem keeps_createPeer (hpeer : p.peer = none) (initiator : Bool) :
    p.Keeps (p.createPeer initiator) where
  heard := rfl
  held := by
    intro c
    have hnone : p.pendingCandidates = [] := by
      rw [pendingCandidates, hpeer]
      rfl
    rw [held, held, hnone]
    rfl

theorem keeps_addPeer (initiator : Bool) : p.Keeps (p.addPeer initiator) := by
  rw [addPeer]
  split
  · exact .refl p
  · rename_i hpeer
    have hcreated := keeps_createPeer (Option.not_isSome_iff_eq_none.mp hpeer) initiator
    dsimp only
    split
    · exact hcreated.trans (keeps_awaits rfl)
    · exact hcreated

theorem keeps_withPeer : p.Keeps p.withPeer := by
  rw [withPeer]
  split
  · exact .refl p
  · rename_i hpeer
    exact keeps_createPeer (Option.not_isSome_iff_eq_none.mp hpeer) false

theorem keeps_handleOffer (sdp : SessionDescription) : p.Keeps (p.handleOffer peer sdp) := by
  dsimp only [handleOffer]
  split
  · exact .refl p
  · split
    · exact keeps_awaits rfl
    · exact keeps_awaits rfl

/-- A candidate that arrives is queued or passed on. -/
theorem held_addCandidate (hpeer : p.peer = some peer) (candidate c : IceCandidate) :
    (p.addCandidate peer candidate).held c = p.held c + [candidate].count c := by
  rw [addCandidate]
  split
  · simp only [held, pendingCandidates, hpeer, Option.elim_some, rests, List.count_append]
    omega
  · rw [held, rests_awaits]
    show p.pendingCandidates.count c + (p.rests ++ []).count c +
      (p.added ++ [candidate]).count c = _
    rw [List.append_nil, List.count_append, held]
    omega

theorem exists_withPeer (p : Party) : ∃ peer, p.withPeer.peer = some peer := by
  rw [withPeer]
  split
  · rename_i hpeer
    exact Option.isSome_iff_exists.mp hpeer
  · exact ⟨_, rfl⟩

theorem held_handleSignal (signal : RtcSignal) (c : IceCandidate) :
    (p.handleSignal signal).held c =
      p.held c + ([signal].filterMap RtcSignal.candidate?).count c := by
  have hwith := (keeps_withPeer (p := p)).held c
  obtain ⟨peer, hpeer⟩ := p.exists_withPeer
  simp only [handleSignal, hpeer]
  cases signal with
  | ice candidate =>
    rw [← hwith]
    exact held_addCandidate hpeer candidate c
  | offer sdp =>
    cases sdp with
    | none => exact hwith
    | some sdp => exact ((keeps_handleOffer sdp).held c).trans hwith
  | answer sdp =>
    cases sdp with
    | none => exact hwith
    | some sdp =>
      dsimp only
      split
      · exact hwith
      · refine ((keeps_awaits rfl).held c).trans ?_
        show _ = p.held c + 0
        rw [← hwith]
        simp [held, pendingCandidates, hpeer, rests]

/-- A call that is taken out of those under way. -/
theorem count_rests {t : Task} (ht : t ∈ p.tasks) (c : IceCandidate) :
    p.rests.count c = t.await.rest.count c +
      ((p.tasks.erase t).flatMap fun t => t.await.rest).count c := by
  have hperm : p.rests.Perm ((t :: p.tasks.erase t).flatMap fun t => t.await.rest) :=
    (List.perm_cons_erase ht).flatMap_right _
  rw [hperm.count_eq, List.flatMap_cons, List.count_append]

theorem keeps_settle {t : Task} (ht : t ∈ p.tasks) (sdp : String) : p.Keeps (p.settle t sdp) := by
  rw [settle]
  split
  · exact .refl p
  · rename_i peer hpeer
    split
    · rename_i connection await hperform
      refine ⟨rfl, fun c => ?_⟩
      rw [held, held, count_rests ht]
      simp only [pendingCandidates, hpeer, rests, Option.elim_some,
        List.flatMap_append, List.flatMap_singleton,
        RtcConnection.perform_rest hperform, List.count_append]
      omega
    · refine ⟨rfl, fun c => ?_⟩
      rw [held, held, count_rests ht]
      simp only [pendingCandidates, rests, List.flatMap_append,
        List.flatMap_singleton, List.count_append]
      omega

/-- What `flushCandidates` is given is passed on, now or later. -/
theorem held_flushCandidates (queue : List IceCandidate) (answers : Bool)
    (hpeer : p.peer = some peer)
    (c : IceCandidate) :
    (p.flushCandidates peer answers queue).held c = p.held c + queue.count c := by
  cases queue with
  | nil =>
    rw [flushCandidates, List.count_nil]
    split
    · exact (keeps_awaits rfl).held c
    · simp [held, pendingCandidates, hpeer, rests]
  | cons candidate rest =>
    rw [held]
    have hrests : (p.flushCandidates peer answers (candidate :: rest)).rests = p.rests ++ rest :=
      rests_awaits _
    have hadded : (p.flushCandidates peer answers (candidate :: rest)).added = p.added ++
      [candidate] := rfl
    have hpending : (p.flushCandidates peer answers (candidate :: rest)).pendingCandidates =
      p.pendingCandidates := rfl
    have hqueue : (candidate :: rest).count c = [candidate].count c + rest.count c := by
      rw [← List.count_append]
      rfl
    rw [hrests, hadded, hpending, hqueue, List.count_append, List.count_append, held]
    omega

theorem heard_flushCandidates (queue : List IceCandidate) (answers : Bool) :
    (p.flushCandidates peer answers queue).heard = p.heard := by
  cases queue with
  | nil =>
    rw [flushCandidates]
    split
    · rfl
    · rfl
  | cons candidate rest => rfl

/-- What was queued is taken by `flushCandidates`. -/
theorem keeps_takeCandidates (hpeer : p.peer = some peer) (answers : Bool) :
    p.Keeps (p.takeCandidates peer answers) where
  heard := heard_flushCandidates _ _
  held := by
    intro c
    rw [takeCandidates, held_flushCandidates peer.pendingCandidates answers rfl c]
    simp only [held, pendingCandidates, hpeer, Option.elim_some, rests, List.count_nil]
    omega

/-- A call that goes on passes on what it has left. -/
theorem held_continues (hpeer : p.peer = some peer) (await : Await) :
    (p.continues peer await).heard = p.heard ∧
      ∀ c, (p.continues peer await).held c = p.held c + await.rest.count c := by
  cases await with
  | createOffer offer =>
    cases offer with
    | none => exact ⟨rfl, fun c => rfl⟩
    | some offer => exact ⟨rfl, (keeps_awaits rfl).held⟩
  | setLocalOffer offer => exact ⟨rfl, fun c => rfl⟩
  | rollback sdp => exact ⟨rfl, (keeps_awaits rfl).held⟩
  | setRemoteOffer sdp =>
    exact ⟨(keeps_takeCandidates hpeer true).heard, (keeps_takeCandidates hpeer true).held⟩
  | flush answers rest =>
    exact ⟨heard_flushCandidates rest answers, held_flushCandidates rest answers hpeer⟩
  | createAnswer answer =>
    cases answer with
    | none => exact ⟨rfl, fun c => rfl⟩
    | some answer => exact ⟨rfl, (keeps_awaits rfl).held⟩
  | setLocalAnswer answer => exact ⟨rfl, fun c => rfl⟩
  | setRemoteAnswer sdp =>
    exact ⟨(keeps_takeCandidates hpeer false).heard, (keeps_takeCandidates hpeer false).held⟩
  | addCandidate => exact ⟨rfl, fun c => rfl⟩

theorem keeps_fails (hpeer : p.peer = some peer) (await : Await) :
    p.Keeps (p.fails peer await) := by
  cases await with
  | setRemoteAnswer sdp =>
    exact ⟨rfl, fun c => by simp [fails, held, pendingCandidates, hpeer, rests]⟩
  | _ => exact .refl p

/-- A call that is taken up passes on what it has left, and is never dropped before. -/
theorem keeps_resume {t : Task} (ht : t ∈ p.tasks) : p.Keeps (p.resume t) := by
  rw [resume]
  split
  · exact .refl p
  · rename_i peer hpeer
    have hpeer' : ({ p with tasks := p.tasks.erase t } : Party).peer = some peer := hpeer
    have herased : ∀ c, ({ p with tasks := p.tasks.erase t } : Party).held c +
        t.await.rest.count c = p.held c := by
      intro c
      rw [held, held, count_rests ht]
      simp only [pendingCandidates, rests]
      omega
    have hcontinues : p.Keeps
        (({ p with tasks := p.tasks.erase t } : Party).continues peer t.await) := by
      obtain ⟨hheard, hheld⟩ := held_continues hpeer' t.await
      exact ⟨hheard, fun c => (hheld c).trans (herased c)⟩
    have hfails : t.await.rest = [] →
        p.Keeps (({ p with tasks := p.tasks.erase t } : Party).fails peer t.await) := by
      intro hrest
      have hkeeps := keeps_fails hpeer' t.await
      refine ⟨hkeeps.heard, fun c => ?_⟩
      rw [hkeeps.held, ← herased c, hrest]
      rfl
    obtain ⟨await, promise⟩ := t
    cases await with
    | flush answers rest => exact hcontinues
    | addCandidate => exact hcontinues
    | _ =>
      cases promise with
      | rejected => exact hfails rfl
      | _ => exact hcontinues

/-- The browser finds a candidate once there is a local description, and it is sent at once. -/
theorem next_found (hnext : p.next other .found = some q) :
    ∃ peer candidate rest, p.peer = some peer ∧ peer.connection.localDescription ≠ none ∧
      q = { p with finds := rest }.sendSignal (.ice candidate) := by
  simp only [Party.next] at hnext
  split at hnext
  · next peer candidate rest hpeer _ =>
    split at hnext
    · cases hnext
    · next hlocal => exact ⟨peer, candidate, rest, hpeer, hlocal, (Option.some.inj hnext).symm⟩
  · cases hnext

theorem next_settle {t : Task} {sdp : String} (hnext : p.next other (.settle t sdp) = some q) :
    t ∈ p.tasks ∧ t.promise = .pending ∧ q = p.settle t sdp := by
  obtain ⟨⟨ht, hpending⟩, heq⟩ := Option.ite_none_right_eq_some.mp hnext
  exact ⟨ht, hpending, (Option.some.inj heq).symm⟩

theorem next_resume {t : Task} (hnext : p.next other (.resume t) = some q) :
    t ∈ p.tasks ∧ t.promise ≠ .pending ∧ q = p.resume t := by
  obtain ⟨⟨ht, hsettled⟩, heq⟩ := Option.ite_none_right_eq_some.mp hnext
  exact ⟨ht, hsettled, (Option.some.inj heq).symm⟩

theorem Accounts.next (h : p.Accounts) (e : Event) (hnext : p.next other e = some q) :
    q.Accounts := by
  cases e with
  | call =>
    obtain ⟨initiator, -, rfl⟩ := Option.map_eq_some_iff.mp hnext
    exact (keeps_addPeer (p := { p with call := none }) initiator).accounts h
  | found =>
    obtain ⟨peer, candidate, rest, -, -, rfl⟩ := next_found hnext
    exact h
  | deliver =>
    obtain ⟨signal, -, rfl⟩ := Option.map_eq_some_iff.mp hnext
    intro c
    show ((p.heard ++ [signal]).filterMap RtcSignal.candidate?).count c =
      (p.handleSignal signal).held c
    rw [List.filterMap_append, List.count_append, held_handleSignal, h c]
  | settle t sdp =>
    obtain ⟨ht, -, rfl⟩ := next_settle hnext
    exact (keeps_settle ht sdp).accounts h
  | resume t =>
    obtain ⟨ht, -, rfl⟩ := next_resume hnext
    exact (keeps_resume ht).accounts h

/-! ### The role -/

/-- The role this side plays, once it knows the other one. -/
def role (p : Party) : Option Bool := p.peer.map RtcPeer.initiator

theorem role_createPeer (initiator : Bool) : (p.createPeer initiator).role = some initiator := rfl

/-- A peer that is known keeps its role. -/
theorem role_addPeer (initiator : Bool) :
    (p.addPeer initiator).role = some (p.role.getD initiator) := by
  rw [addPeer]
  cases hpeer : p.peer with
  | none =>
    rw [if_neg (by simp), role, role, hpeer]
    cases initiator with
    | true => rfl
    | false => rfl
  | some peer =>
    rw [if_pos (by simp), role, hpeer]
    rfl

theorem role_withPeer : p.withPeer.role = some (p.role.getD false) := by
  rw [withPeer]
  cases hpeer : p.peer with
  | none =>
    rw [if_neg (by simp), role_createPeer, role, hpeer]
    rfl
  | some peer =>
    rw [if_pos (by simp), role, hpeer]
    rfl

theorem role_handleOffer (sdp : SessionDescription) : (p.handleOffer peer sdp).role = p.role := by
  dsimp only [handleOffer]
  split
  · rfl
  · split
    · rfl
    · rfl

theorem role_addCandidate (hpeer : p.peer = some peer) (candidate : IceCandidate) :
    (p.addCandidate peer candidate).role = p.role := by
  rw [addCandidate]
  split
  · rw [role, role, hpeer]
    rfl
  · rfl

/-- A signal from an unknown peer makes this side the one that answers. -/
theorem role_handleSignal (signal : RtcSignal) :
    (p.handleSignal signal).role = some (p.role.getD false) := by
  obtain ⟨peer, hpeer⟩ := exists_withPeer p
  refine Eq.trans ?_ role_withPeer
  simp only [handleSignal, hpeer]
  cases signal with
  | ice candidate => exact role_addCandidate hpeer candidate
  | offer sdp =>
    cases sdp with
    | none => rfl
    | some sdp => exact role_handleOffer sdp
  | answer sdp =>
    cases sdp with
    | none => rfl
    | some sdp =>
      dsimp only
      split
      · rfl
      · rw [role, role, hpeer]
        rfl

theorem role_settle (t : Task) (sdp : String) : (p.settle t sdp).role = p.role := by
  rw [settle]
  split
  · rfl
  · rename_i peer hpeer
    split
    · rw [role, role, hpeer]
      rfl
    · rfl

theorem role_flushCandidates (hpeer : p.peer = some peer) (answers : Bool)
    (queue : List IceCandidate) :
    (p.flushCandidates peer answers queue).role = p.role := by
  cases queue with
  | nil =>
    rw [flushCandidates]
    split
    · rfl
    · rw [role, role, hpeer]
      rfl
  | cons candidate rest => rfl

theorem role_takeCandidates (hpeer : p.peer = some peer) (answers : Bool) :
    (p.takeCandidates peer answers).role = p.role := by
  rw [takeCandidates, role_flushCandidates rfl, role, role, hpeer]
  rfl

theorem role_continues (hpeer : p.peer = some peer) (await : Await) :
    (p.continues peer await).role = p.role := by
  cases await with
  | createOffer offer =>
    cases offer with
    | none => rfl
    | some offer => rfl
  | createAnswer answer =>
    cases answer with
    | none => rfl
    | some answer => rfl
  | setRemoteOffer sdp => exact role_takeCandidates hpeer true
  | setRemoteAnswer sdp => exact role_takeCandidates hpeer false
  | flush answers rest => exact role_flushCandidates hpeer answers rest
  | _ => rfl

theorem role_fails (hpeer : p.peer = some peer) (await : Await) :
    (p.fails peer await).role = p.role := by
  cases await with
  | setRemoteAnswer sdp =>
    rw [role, role, hpeer]
    rfl
  | _ => rfl

theorem role_resume (t : Task) : (p.resume t).role = p.role := by
  rw [resume]
  split
  · rfl
  · rename_i peer hpeer
    have hpeer' : ({ p with tasks := p.tasks.erase t } : Party).peer = some peer := hpeer
    obtain ⟨await, promise⟩ := t
    cases await with
    | flush answers rest => exact role_continues hpeer' _
    | addCandidate => rfl
    | _ =>
      cases promise with
      | rejected => exact role_fails hpeer' _
      | _ => exact role_continues hpeer' _

/-- What an event asks of the whole `PeerManager`, in which this party is `id`. -/
def Event.manager (e : Event) (p : Party) (id : ParticipantId) (pm : PeerManager) : PeerManager :=
  match e with
  | .call => p.call.elim pm (pm.addPeer id)
  | .deliver => pm.handleSignal id
  | _ => pm

/-- A party plays the role that the map of peers gives it. -/
theorem role_next {pm : PeerManager} {id : ParticipantId} (hlive : pm.destroyed = false)
    (h : pm.role id = p.role)
    (e : Event) (hnext : p.next other e = some q) : (e.manager p id pm).role id = q.role := by
  cases e with
  | call =>
    obtain ⟨initiator, hcall, rfl⟩ := Option.map_eq_some_iff.mp hnext
    rw [Event.manager, hcall, Option.elim_some, PeerManager.role_addPeer hlive,
      if_pos rfl, h, role_addPeer]
    rfl
  | found =>
    obtain ⟨peer, candidate, rest, -, -, rfl⟩ := next_found hnext
    exact h
  | deliver =>
    obtain ⟨signal, -, rfl⟩ := Option.map_eq_some_iff.mp hnext
    have hmanager : (pm.handleSignal id).role id = some ((pm.role id).getD false) := by
      rw [PeerManager.handleSignal_eq_addPeer, PeerManager.role_addPeer hlive, if_pos rfl]
    exact hmanager.trans (h ▸ (role_handleSignal signal).symm)
  | settle t sdp =>
    obtain ⟨-, -, rfl⟩ := next_settle hnext
    exact h.trans (role_settle t sdp).symm
  | resume t =>
    obtain ⟨-, -, rfl⟩ := next_resume hnext
    exact h.trans (role_resume t).symm

end Party

end ZoomClone

/-
Every ICE candidate is used exactly once.

`handleSignal` queues a candidate until there is a remote description and passes it on
from then on; `flushCandidates` takes the queue out and passes it on one await after the
other.  Signals arrive in any order beside that, and the browser may reject anything.

* `RtcConnection.performs_of_perform` — what one promise of the browser does;
* `Party.SaneAs` — the invariant: a queue beside a remote description has a call under way
  that will take it, and whatever passes candidates on does so beside a remote description;
* `Party.saneAs_step` — every step keeps it;
* `candidates_used_once` — over every run.
-/
import ZoomClone.PeerConnection
import ZoomClone.Runs

namespace ZoomClone

/-! ### One promise -/

/-- A remote offer that is pending is there. -/
def RtcConnection.Sound (c : RtcConnection) : Prop :=
  c.signalingState = .haveRemoteOffer → c.pendingRemote ≠ none

namespace Await

/-- The call sets the remote description. -/
def setsRemote : Await → Bool
  | .setRemoteOffer _ => true
  | .setRemoteAnswer _ => true
  | _ => false

/-- The call passes a candidate on. -/
def passes : Await → Bool
  | .flush _ _ => true
  | .addCandidate => true
  | _ => false

/-- The call is about an offer of this side. -/
def offers : Await → Bool
  | .createOffer _ => true
  | .setLocalOffer _ => true
  | .setRemoteAnswer _ => true
  | _ => false

/-- The call is one of `handleSignal`; the others belong to `addPeer`. -/
def handles : Await → Bool
  | .createOffer _ => false
  | .setLocalOffer _ => false
  | _ => true

/-- The call goes forward: its description is what its name says, and nothing is rolled
back. -/
def Forward : Await → Prop
  | .createOffer offer => ∀ d, offer = some d → d.type = .offer
  | .setLocalOffer d => d.type = .offer
  | .rollback _ => False
  | .setRemoteOffer d => d.type ≠ .rollback
  | .setRemoteAnswer d => d.type ≠ .rollback
  | .createAnswer answer => ∀ d, answer = some d → d.type = .answer
  | .setLocalAnswer d => d.type = .answer
  | .flush _ _ => True
  | .addCandidate => True

end Await

namespace RtcConnection

variable {c c' : RtcConnection} {d : SessionDescription} {sdp : String} {await await' : Await}

theorem setRemoteDescription_spec (h : c.setRemoteDescription d = some c')
    (hd : d.type ≠ .rollback) :
    c'.Sound ∧ c'.remoteDescription ≠ none ∧ c'.signalingState ≠ .haveLocalOffer := by
  rw [setRemoteDescription] at h
  cases htype : d.type with
  | rollback => exact absurd htype hd
  | offer =>
    simp only [htype, Option.some.injEq] at h
    subst h
    simp [Sound, remoteDescription]
  | answer =>
    cases hstate : c.signalingState with
    | haveLocalOffer =>
      simp only [htype, hstate, Option.some.injEq] at h
      subst h
      simp [Sound, remoteDescription]
    | _ => simp [htype, hstate] at h

theorem setLocalDescription_spec (h : c.setLocalDescription d = some c') (hsound : c.Sound)
    (hd : d.type ≠ .rollback) :
    c'.Sound ∧ (c'.remoteDescription ≠ none ↔ c.remoteDescription ≠ none) ∧
      (c'.signalingState = .haveLocalOffer → d.type = .offer) := by
  rw [setLocalDescription] at h
  cases htype : d.type with
  | rollback => exact absurd htype hd
  | offer =>
    cases hstate : c.signalingState with
    | haveRemoteOffer => simp [htype, hstate] at h
    | _ =>
      simp only [htype, hstate, Option.some.injEq] at h
      subst h
      simp [Sound, remoteDescription]
  | answer =>
    cases hstate : c.signalingState with
    | haveRemoteOffer =>
      -- the pending remote offer becomes the current one
      obtain ⟨offer, hoffer⟩ := Option.ne_none_iff_exists'.mp (hsound hstate)
      simp only [htype, hstate, Option.some.injEq] at h
      subst h
      simp [Sound, remoteDescription, hoffer]
    | _ => simp [htype, hstate] at h

/-- What the browser does for a promise of a call that goes forward. -/
structure Performs (c : RtcConnection) (await : Await) (c' : RtcConnection) (await' : Await) :
    Prop where
  sound : c'.Sound
  remote : c'.remoteDescription ≠ none ↔ c.remoteDescription ≠ none ∨ await.setsRemote = true
  localOffer : c'.signalingState = .haveLocalOffer → c.signalingState = .haveLocalOffer ∨
    await.offers = true
  forward : await'.Forward
  passing : await.passes = true → c.remoteDescription ≠ none
  setsRemote : await'.setsRemote = await.setsRemote
  passes : await'.passes = await.passes
  offers : await'.offers = await.offers

/-- The connection is left alone. -/
theorem Performs.of_same (hsound : c.Sound) (hforward : await'.Forward)
    (hpassing : await.passes = true → c.remoteDescription ≠ none) (hsets : await.setsRemote = false)
    (hsets' : await'.setsRemote = await.setsRemote) (hpasses : await'.passes = await.passes)
    (hoffers : await'.offers = await.offers) : Performs c await c await' :=
  ⟨hsound, by simp [hsets], .inl, hforward, hpassing, hsets', hpasses, hoffers⟩

/-- A local description is set. -/
theorem Performs.of_local (hsound : c.Sound) (hd : d.type ≠ .rollback)
    (hoffer : d.type = .offer → await.offers = true) (hforward : await.Forward)
    (hpasses : await.passes = false) (hsets : await.setsRemote = false)
    (h : c.setLocalDescription d = some c') : Performs c await c' await := by
  obtain ⟨hsound', hremote, hlocal⟩ := setLocalDescription_spec h hsound hd
  refine ⟨hsound', by simp [hremote, hsets], fun hs => .inr (hoffer (hlocal hs)),
    hforward, ?_, rfl, rfl, rfl⟩
  intro hpass
  rw [hpasses] at hpass
  cases hpass

/-- A remote description is set. -/
theorem Performs.of_remote (hd : d.type ≠ .rollback) (hforward : await.Forward)
    (hpasses : await.passes = false) (hsets : await.setsRemote = true)
    (h : c.setRemoteDescription d = some c') : Performs c await c' await := by
  obtain ⟨hsound', hremote, hlocal⟩ := setRemoteDescription_spec h hd
  refine ⟨hsound', by simp [hremote, hsets], fun hs => absurd hs hlocal,
    hforward, ?_, rfl, rfl, rfl⟩
  intro hpass
  rw [hpasses] at hpass
  cases hpass

/-- **What one promise does.** -/
theorem performs_of_perform (h : c.perform sdp await = some (c', await')) (hsound : c.Sound)
    (hforward : await.Forward) : Performs c await c' await' := by
  have hpasses (hc : c.remoteDescription.isSome) : c.remoteDescription ≠ none :=
    Option.isSome_iff_ne_none.mp hc
  cases await with
  | createOffer offer =>
    cases h
    refine .of_same hsound ?_ (fun hp => by cases hp) rfl rfl rfl rfl
    rintro d ⟨⟩
    rfl
  | setLocalOffer d =>
    obtain ⟨c'', hset, heq⟩ := Option.map_eq_some_iff.mp h
    cases heq
    have htype : d.type = .offer := hforward
    exact .of_local hsound (by rw [htype]; decide) (fun _ => rfl) hforward rfl rfl hset
  | rollback d => exact hforward.elim
  | setRemoteOffer d =>
    obtain ⟨c'', hset, heq⟩ := Option.map_eq_some_iff.mp h
    cases heq
    exact .of_remote hforward hforward rfl rfl hset
  | flush answers rest =>
    simp only [perform] at h
    split at h
    · next hc =>
      cases h
      exact .of_same hsound hforward (fun _ => hpasses hc) rfl rfl rfl rfl
    · cases h
  | createAnswer answer =>
    simp only [perform] at h
    split at h
    · cases h
      refine .of_same hsound ?_ (fun hp => by cases hp) rfl rfl rfl rfl
      rintro d ⟨⟩
      rfl
    · cases h
  | setLocalAnswer d =>
    obtain ⟨c'', hset, heq⟩ := Option.map_eq_some_iff.mp h
    cases heq
    have htype : d.type = .answer := hforward
    refine .of_local hsound (by rw [htype]; decide) (fun hoffer => ?_) hforward rfl rfl hset
    rw [htype] at hoffer
    cases hoffer
  | setRemoteAnswer d =>
    obtain ⟨c'', hset, heq⟩ := Option.map_eq_some_iff.mp h
    cases heq
    exact .of_remote hforward hforward rfl rfl hset
  | addCandidate =>
    simp only [perform] at h
    split at h
    · next hc =>
      cases h
      exact .of_same hsound hforward (fun _ => hpasses hc) rfl rfl rfl rfl
    · cases h

end RtcConnection

/-! ### One party -/

/-- The call will take the queue out next: a remote description was set for it. -/
def Task.Flushes (t : Task) : Prop := t.await.setsRemote = true ∧ t.promise = .fulfilled

/-- The call has a place beside the peer: offers are the initiator's, and what passes
candidates on, or is about to, does so beside a remote description. -/
structure Task.Fits (t : Task) (peer : RtcPeer) : Prop where
  forward : t.await.Forward
  offers : t.await.offers = true → peer.initiator = true
  remote : t.await.passes = true ∨ t.Flushes → peer.connection.remoteDescription ≠ none

namespace Party

/-- There is a remote description. -/
def RemoteSet (p : Party) : Prop :=
  ∃ peer, p.peer = some peer ∧ peer.connection.remoteDescription ≠ none

/-- The invariant, for the peer that is there. -/
structure SaneAs (p : Party) (peer : RtcPeer) : Prop where
  here : p.peer = some peer
  sound : peer.connection.Sound
  polite : peer.initiator = false →
    peer.connection.signalingState ≠ .haveLocalOffer ∧ peer.settingRemoteAnswerPending = false
  fits : ∀ t ∈ p.tasks, t.Fits peer
  queued : peer.connection.remoteDescription ≠ none → peer.pendingCandidates ≠ [] →
    ∃ t ∈ p.tasks, t.Flushes
  added : p.added ≠ [] → peer.connection.remoteDescription ≠ none

/-- Nothing was done yet, or the invariant holds. -/
def Sane (p : Party) : Prop := (p.peer = none ∧ p.tasks = [] ∧ p.added = []) ∨ ∃ peer, p.SaneAs peer

/-- The browser rejects a promise. -/
def reject (p : Party) (t : Task) : Party :=
  { p with tasks := p.tasks.erase t ++ [⟨t.await, .rejected⟩] }

variable {p q : Party} {peer : RtcPeer} {t : Task} {await : Await}

theorem SaneAs.sane (h : p.SaneAs peer) : p.Sane := .inr ⟨peer, h⟩

theorem SaneAs.remoteSet_iff (h : p.SaneAs peer) :
    p.RemoteSet ↔ peer.connection.remoteDescription ≠ none := by
  constructor
  · rintro ⟨peer', hpeer, hremote⟩
    rwa [Option.some.inj (h.here.symm.trans hpeer)]
  · intro hremote
    exact ⟨peer, h.here, hremote⟩

/-! ### The parts of a step -/

/-- A call goes on to an await. -/
theorem SaneAs.awaits (h : p.SaneAs peer) (hfits : (⟨await, .pending⟩ : Task).Fits peer) :
    (p.awaits await).SaneAs peer := by
  refine ⟨h.here, h.sound, h.polite, ?_, ?_, h.added⟩
  · intro t ht
    rcases List.mem_append.mp ht with ht | ht
    · exact h.fits t ht
    · rw [List.mem_singleton.mp ht]
      exact hfits
  · intro hremote hqueue
    obtain ⟨t, ht, hflush⟩ := h.queued hremote hqueue
    exact ⟨t, List.mem_append_left _ ht, hflush⟩

/-- An await that neither makes an offer nor passes candidates on fits everywhere. -/
theorem fits_pending (await : Await) (hforward : await.Forward)
    (hoffers : await.offers = true → peer.initiator = true)
    (hpasses : await.passes = false) : (⟨await, .pending⟩ : Task).Fits peer := by
  refine ⟨hforward, hoffers, ?_⟩
  rintro (hpass | ⟨-, hpromise⟩)
  · rw [show await.passes = true from hpass] at hpasses
    cases hpasses
  · cases hpromise

/-- A call is over; one that takes the queue has done so. -/
theorem SaneAs.erase (h : p.SaneAs peer) (hqueue : t.Flushes → peer.pendingCandidates = []) :
    ({ p with tasks := p.tasks.erase t } : Party).SaneAs peer := by
  refine ⟨h.here, h.sound, h.polite,
    fun t' ht' => h.fits t' (List.mem_of_mem_erase ht'), ?_, h.added⟩
  intro hremote hne
  obtain ⟨t', ht', hflush⟩ := h.queued hremote hne
  have hother : t' ≠ t := by
    rintro rfl
    exact hne (hqueue hflush)
  exact ⟨t', (List.mem_erase_of_ne hother).mpr ht', hflush⟩

/-- The queue is emptied, or grows while there is no remote description. -/
theorem SaneAs.withQueue (h : p.SaneAs peer) {queue : List IceCandidate}
    (hqueue : queue = [] ∨ peer.connection.remoteDescription = none) :
    ({ p with peer := some { peer with pendingCandidates := queue } } : Party).SaneAs
      { peer with pendingCandidates := queue } := by
  refine ⟨rfl, h.sound, h.polite, fun t ht => ⟨(h.fits t ht).forward, (h.fits t ht).offers,
    (h.fits t ht).remote⟩, ?_, h.added⟩
  intro hremote hne
  rcases hqueue with hempty | hnone
  · exact absurd hempty hne
  · exact absurd hnone hremote

/-- Only the initiator waits for an answer. -/
theorem SaneAs.withFlag (h : p.SaneAs peer) (flag : Bool)
    (hflag : flag = true → peer.initiator = true) :
    ({ p with peer := some { peer with settingRemoteAnswerPending := flag } } : Party).SaneAs
      { peer with settingRemoteAnswerPending := flag } := by
  refine ⟨rfl, h.sound, ?_, fun t ht => ⟨(h.fits t ht).forward, (h.fits t ht).offers,
    (h.fits t ht).remote⟩, h.queued, h.added⟩
  intro hpolite
  refine ⟨(h.polite hpolite).1, ?_⟩
  by_contra hset
  rw [hflag (by simpa using hset)] at hpolite
  cases hpolite

/-- A candidate is passed on beside a remote description. -/
theorem SaneAs.passOn (h : p.SaneAs peer) (hremote : peer.connection.remoteDescription ≠ none)
    (candidate : IceCandidate) (await : Await) (hawait : await.Forward)
    (hoffers : await.offers = false) :
    ({ p with added := p.added ++ [candidate] }.awaits await).SaneAs peer := by
  have hadded : ({ p with added := p.added ++ [candidate] } : Party).SaneAs peer :=
    ⟨h.here, h.sound, h.polite, h.fits, h.queued, fun _ => hremote⟩
  refine hadded.awaits ⟨hawait, fun hoffer => ?_, fun _ => hremote⟩
  rw [show await.offers = true from hoffer] at hoffers
  cases hoffers

theorem SaneAs.sendSignal (h : p.SaneAs peer) (signal : RtcSignal) :
    (p.sendSignal signal).SaneAs peer :=
  ⟨h.here, h.sound, h.polite, h.fits, h.queued, h.added⟩

/-- A fresh peer. -/
theorem saneAs_createPeer (htasks : p.tasks = []) (hadded : p.added = []) (initiator : Bool) :
    (p.createPeer initiator).SaneAs { initiator } := by
  refine ⟨rfl, fun hstate => (by cases hstate), fun _ => ⟨fun hstate => (by cases hstate), rfl⟩, ?_,
    fun hremote => absurd rfl hremote, fun hne => absurd hadded hne⟩
  intro t ht
  rw [show (p.createPeer initiator).tasks = p.tasks from rfl, htasks] at ht
  cases ht

theorem saneAs_withPeer (h : p.Sane) : ∃ peer, p.withPeer.SaneAs peer := by
  rw [withPeer]
  rcases h with ⟨hpeer, htasks, hadded⟩ | ⟨peer, h⟩
  · rw [if_neg (by simp [hpeer])]
    exact ⟨_, saneAs_createPeer htasks hadded false⟩
  · rw [if_pos (by simp [h.here])]
    exact ⟨peer, h⟩

/-! ### The steps -/

theorem sane_addPeer (h : p.Sane) (initiator : Bool) : (p.addPeer initiator).Sane := by
  rw [addPeer]
  rcases h with ⟨hpeer, htasks, hadded⟩ | ⟨peer, h⟩
  · rw [if_neg (by simp [hpeer])]
    have hcreated := saneAs_createPeer htasks hadded initiator
    dsimp only
    split
    · next hinitiator =>
      refine (hcreated.awaits (fits_pending (.createOffer none) ?_ (fun _ => hinitiator) rfl)).sane
      rintro d ⟨⟩
    · exact hcreated.sane
  · rw [if_pos (by simp [h.here])]
    exact h.sane

theorem SaneAs.handleOffer (h : p.SaneAs peer) {sdp : SessionDescription}
    (hsdp : sdp.type ≠ .rollback) :
    (p.handleOffer peer sdp).SaneAs peer := by
  dsimp only [Party.handleOffer]
  split
  · exact h
  · next himpolite =>
    split
    · next hcollision =>
      -- a side that made no offer sees no collision
      have hpolite : peer.initiator = false := by
        cases hrole : peer.initiator with
        | false => rfl
        | true => exact absurd ⟨hcollision, hrole⟩ himpolite
      obtain ⟨hlocal, hflag⟩ := h.polite hpolite
      rcases hcollision with hstate | hpending
      · exact absurd hstate hlocal
      · rw [hflag] at hpending
        cases hpending
    · exact h.awaits (fits_pending (.setRemoteOffer sdp) hsdp (fun hoffer => by cases hoffer) rfl)

theorem SaneAs.addCandidate (h : p.SaneAs peer) (candidate : IceCandidate) :
    (p.addCandidate peer candidate).Sane := by
  rw [Party.addCandidate]
  split
  · next hnone => exact (h.withQueue (.inr hnone)).sane
  · next hremote => exact (h.passOn hremote candidate .addCandidate trivial rfl).sane

end Party

/-- What the signal carries is an offer or an answer. -/
def RtcSignal.Describes : RtcSignal → Prop
  | .offer sdp => ∀ d, sdp = some d → d.type ≠ .rollback
  | .answer sdp => ∀ d, sdp = some d → d.type ≠ .rollback
  | .ice _ => True

namespace Party

variable {p q : Party} {peer : RtcPeer} {t : Task} {await : Await}

theorem sane_handleSignal (h : p.Sane) {signal : RtcSignal} (hsignal : signal.Describes) :
    (p.handleSignal signal).Sane := by
  obtain ⟨peer, hwith⟩ := saneAs_withPeer h
  simp only [handleSignal, hwith.here]
  cases signal with
  | ice candidate => exact hwith.addCandidate candidate
  | offer sdp =>
    cases sdp with
    | none => exact hwith.sane
    | some sdp => exact (hwith.handleOffer (hsignal sdp rfl)).sane
  | answer sdp =>
    cases sdp with
    | none => exact hwith.sane
    | some sdp =>
      dsimp only
      split
      · exact hwith.sane
      · next hstate =>
        have hinitiator : peer.initiator = true := by
          by_contra hpolite
          exact hstate (hwith.polite (by simpa using hpolite)).1
        exact ((hwith.withFlag true fun _ => hinitiator).awaits
          (fits_pending (.setRemoteAnswer sdp) (hsignal sdp rfl) (fun _ => hinitiator) rfl)).sane

/-- A promise that is rejected leaves its call where it stands. -/
theorem SaneAs.reject (h : p.SaneAs peer) (ht : t ∈ p.tasks) (hpending : t.promise = .pending) :
    (p.reject t).SaneAs peer := by
  have hpasses := (h.fits t ht).remote
  have herase : ({ p with tasks := p.tasks.erase t } : Party).SaneAs peer := by
    refine h.erase fun hflush => ?_
    rw [hflush.2] at hpending
    cases hpending
  refine ⟨h.here, h.sound, h.polite, ?_, ?_, h.added⟩
  · intro t' ht'
    rcases List.mem_append.mp ht' with ht' | ht'
    · exact herase.fits t' ht'
    · obtain rfl := List.mem_singleton.mp ht'
      refine ⟨(h.fits t ht).forward, (h.fits t ht).offers, ?_⟩
      rintro (hpass | ⟨-, hpromise⟩)
      · exact hpasses (.inl hpass)
      · cases hpromise
  · intro hremote hqueue
    obtain ⟨t', ht', hflush⟩ := herase.queued hremote hqueue
    exact ⟨t', List.mem_append_left _ ht', hflush⟩

/-- A promise that the browser settles. -/
theorem SaneAs.settle (h : p.SaneAs peer) (ht : t ∈ p.tasks) (hpending : t.promise = .pending)
    (sdp : String) :
    (p.settle t sdp).Sane := by
  rw [Party.settle]
  split
  · next hnone => rw [h.here] at hnone; cases hnone
  next peer' hpeer =>
  obtain rfl := Option.some.inj (h.here.symm.trans hpeer)
  split
  · next connection await hperform =>
    have hperforms := RtcConnection.performs_of_perform hperform h.sound (h.fits t ht).forward
    have hstays : peer.connection.remoteDescription ≠ none → connection.remoteDescription ≠ none :=
      fun hremote => hperforms.remote.mpr (.inl hremote)
    refine .inr ⟨{ peer with connection }, rfl, hperforms.sound, ?_, ?_, ?_, ?_⟩
    · intro hpolite
      refine ⟨fun hstate => ?_, (h.polite hpolite).2⟩
      rcases hperforms.localOffer hstate with hold | hoffer
      · exact (h.polite hpolite).1 hold
      · rw [(h.fits t ht).offers hoffer] at hpolite
        cases hpolite
    · intro t' ht'
      rcases List.mem_append.mp ht' with ht' | ht'
      · have hfits := h.fits t' (List.mem_of_mem_erase ht')
        exact ⟨hfits.forward, hfits.offers, fun hpass => hstays (hfits.remote hpass)⟩
      · obtain rfl := List.mem_singleton.mp ht'
        refine ⟨hperforms.forward,
          fun hoffer => (h.fits t ht).offers (hperforms.offers ▸ hoffer), ?_⟩
        rintro (hpass | ⟨hsets, -⟩)
        · exact hstays (hperforms.passing (hperforms.passes ▸ hpass))
        · exact hperforms.remote.mpr (.inr (hperforms.setsRemote ▸ hsets))
    · intro hremote hqueue
      rcases hperforms.remote.mp hremote with hold | hsets
      · obtain ⟨t', ht', hflush⟩ := h.queued hold hqueue
        have hother : t' ≠ t := by
          rintro rfl
          rw [hflush.2] at hpending
          cases hpending
        exact ⟨t', List.mem_append_left _ ((List.mem_erase_of_ne hother).mpr ht'), hflush⟩
      · -- the description that was set is this call's, which takes the queue next
        exact ⟨⟨await, .fulfilled⟩, List.mem_append_right _ (List.mem_singleton_self _),
          hperforms.setsRemote.trans hsets, rfl⟩
    · exact fun hne => hstays (h.added hne)
  · exact (h.reject ht hpending).sane

/-- `flushCandidates` beside a remote description. -/
theorem SaneAs.flushCandidates (h : p.SaneAs peer)
    (hremote : peer.connection.remoteDescription ≠ none)
    (answers : Bool) (queue : List IceCandidate) : (p.flushCandidates peer answers queue).Sane := by
  cases queue with
  | cons candidate rest => exact (h.passOn hremote candidate (.flush answers rest) trivial rfl).sane
  | nil =>
    rw [Party.flushCandidates]
    split
    · refine (h.awaits (fits_pending (.createAnswer none) ?_
        (fun hoffer => by cases hoffer) rfl)).sane
      rintro d ⟨⟩
    · exact (h.withFlag false fun hset => by cases hset).sane

/-- A call takes up its settled promise. -/
theorem SaneAs.resume (h : p.SaneAs peer) (ht : t ∈ p.tasks) (hsettled : t.promise ≠ .pending) :
    (p.resume t).Sane := by
  have hfits := h.fits t ht
  have herase (hsets : t.await.setsRemote = false) :
      ({ p with tasks := p.tasks.erase t } : Party).SaneAs peer := by
    refine h.erase fun hflush => ?_
    rw [hflush.1] at hsets
    cases hsets
  -- a call whose description was set takes the queue
  have htake (hflush : t.Flushes) (answers : Bool) :
      (({ p with tasks := p.tasks.erase t } : Party).takeCandidates peer answers).Sane := by
    have hemptied := (h.withQueue (.inl rfl)).erase (t := t) fun _ => rfl
    exact hemptied.flushCandidates (hfits.remote (.inr hflush)) answers peer.pendingCandidates
  rw [Party.resume]
  split
  · next hnone => rw [h.here] at hnone; cases hnone
  next peer' hpeer =>
  obtain rfl := Option.some.inj (h.here.symm.trans hpeer)
  obtain ⟨await, promise⟩ := t
  cases await with
  | rollback sdp => exact hfits.forward.elim
  | flush answers rest =>
    exact (herase rfl).flushCandidates (hfits.remote (.inl rfl)) answers rest
  | addCandidate => exact (herase rfl).sane
  | createOffer offer =>
    cases promise with
    | rejected => exact (herase rfl).sane
    | _ =>
      cases offer with
      | none => exact (herase rfl).sane
      | some offer =>
        exact ((herase rfl).awaits (fits_pending (.setLocalOffer offer) (hfits.forward offer rfl)
          hfits.offers rfl)).sane
  | createAnswer answer =>
    cases promise with
    | rejected => exact (herase rfl).sane
    | _ =>
      cases answer with
      | none => exact (herase rfl).sane
      | some answer =>
        exact ((herase rfl).awaits (fits_pending (.setLocalAnswer answer) (hfits.forward answer rfl)
          (fun hoffer => by cases hoffer) rfl)).sane
  | setLocalOffer offer =>
    cases promise with
    | rejected => exact (herase rfl).sane
    | _ => exact ((herase rfl).sendSignal _).sane
  | setLocalAnswer answer =>
    cases promise with
    | rejected => exact (herase rfl).sane
    | _ => exact ((herase rfl).sendSignal _).sane
  | setRemoteOffer sdp =>
    cases promise with
    | pending => exact absurd rfl hsettled
    | fulfilled => exact htake ⟨rfl, rfl⟩ true
    | rejected =>
      refine (h.erase fun hflush => ?_).sane
      cases hflush.2
  | setRemoteAnswer sdp =>
    cases promise with
    | pending => exact absurd rfl hsettled
    | fulfilled => exact htake ⟨rfl, rfl⟩ false
    | rejected =>
      -- `finally` runs here
      refine ((h.erase fun hflush => ?_).withFlag false fun hset => by cases hset).sane
      cases hflush.2

/-! ### What a step does to the connection, and when it passes candidates on -/

def connection? (p : Party) : Option RtcConnection := p.peer.map RtcPeer.connection

theorem remoteSet_of_connection? {c : RtcConnection} (h : p.connection? = some c)
    (hremote : c.remoteDescription ≠ none) : p.RemoteSet := by
  obtain ⟨peer, hpeer, rfl⟩ := Option.map_eq_some_iff.mp h
  exact ⟨peer, hpeer, hremote⟩

theorem withPeer_of_peer (hpeer : p.peer = some peer) : p.withPeer = p := by
  rw [withPeer, if_pos (by simp [hpeer])]

theorem connection?_handleSignal (hpeer : p.peer = some peer) (signal : RtcSignal) :
    (p.handleSignal signal).connection? = some peer.connection := by
  have hsame : p.connection? = some peer.connection := by rw [connection?, hpeer]; rfl
  simp only [handleSignal, withPeer_of_peer hpeer, hpeer]
  cases signal with
  | ice candidate =>
    simp only [Party.addCandidate]
    split
    · rfl
    · exact hsame
  | offer sdp =>
    cases sdp with
    | none => exact hsame
    | some sdp =>
      dsimp only [Party.handleOffer]
      split
      · exact hsame
      · split <;> exact hsame
  | answer sdp =>
    cases sdp with
    | none => exact hsame
    | some sdp =>
      dsimp only
      split
      · exact hsame
      · rfl

theorem connection?_flushCandidates (hpeer : p.peer = some peer) (answers : Bool)
    (queue : List IceCandidate) :
    (p.flushCandidates peer answers queue).connection? = some peer.connection := by
  have hsame : p.connection? = some peer.connection := by rw [connection?, hpeer]; rfl
  cases queue with
  | cons candidate rest => exact hsame
  | nil =>
    rw [Party.flushCandidates]
    split
    · exact hsame
    · rfl

theorem connection?_resume (hpeer : p.peer = some peer) (t : Task) :
    (p.resume t).connection? = some peer.connection := by
  have hsame : ({ p with tasks := p.tasks.erase t } : Party).connection? =
      some peer.connection := by
    show p.peer.map RtcPeer.connection = _
    rw [hpeer]
    rfl
  rw [Party.resume]
  split
  · next hnone => rw [hpeer] at hnone; cases hnone
  next peer' hpeer' =>
  obtain rfl := Option.some.inj (hpeer.symm.trans hpeer')
  obtain ⟨await, promise⟩ := t
  cases await with
  | flush answers rest =>
    exact connection?_flushCandidates
      (p := { p with tasks := p.tasks.erase ⟨.flush answers rest, promise⟩ })
      hpeer answers rest
  | addCandidate => exact hsame
  | createOffer offer => cases promise <;> cases offer <;> exact hsame
  | createAnswer answer => cases promise <;> cases answer <;> exact hsame
  | setRemoteOffer sdp =>
    cases promise with
    | rejected => exact hsame
    | _ => exact connection?_flushCandidates rfl true peer.pendingCandidates
  | setRemoteAnswer sdp =>
    cases promise with
    | rejected => rfl
    | _ => exact connection?_flushCandidates rfl false peer.pendingCandidates
  | _ => cases promise <;> exact hsame

/-- A signal has its candidate passed on only beside a remote description. -/
theorem added_handleSignal (signal : RtcSignal) :
    (p.handleSignal signal).added = p.added ∨ p.RemoteSet := by
  obtain ⟨peer, hwith⟩ := p.exists_withPeer
  have hadded : p.withPeer.added = p.added := by
    rw [withPeer]
    split <;> rfl
  simp only [handleSignal, hwith]
  cases signal with
  | ice candidate =>
    simp only [Party.addCandidate]
    split
    · exact .inl hadded
    · next hremote =>
      right
      cases hpeer : p.peer with
      | none =>
        -- a peer that was just made has no description
        rw [withPeer, if_neg (by simp [hpeer])] at hwith
        obtain rfl := Option.some.inj hwith
        exact absurd rfl hremote
      | some peer' =>
        rw [withPeer_of_peer hpeer] at hwith
        exact ⟨peer, hwith, hremote⟩
  | offer sdp =>
    left
    rw [← hadded]
    cases sdp with
    | none => rfl
    | some sdp =>
      dsimp only [Party.handleOffer]
      split
      · rfl
      · split <;> rfl
  | answer sdp =>
    left
    rw [← hadded]
    cases sdp with
    | none => rfl
    | some sdp =>
      dsimp only
      split <;> rfl

/-- So do the calls under way. -/
theorem SaneAs.added_resume (h : p.SaneAs peer) (ht : t ∈ p.tasks)
    (hsettled : t.promise ≠ .pending) :
    (p.resume t).added = p.added ∨ p.RemoteSet := by
  by_cases hpasses : t.await.passes = true ∨ t.Flushes
  · exact .inr (h.remoteSet_iff.mpr ((h.fits t ht).remote hpasses))
  left
  rw [Party.resume]
  split
  · rfl
  obtain ⟨await, promise⟩ := t
  cases await with
  | flush answers rest => exact absurd (.inl rfl) hpasses
  | addCandidate => exact absurd (.inl rfl) hpasses
  | createOffer offer => cases promise <;> cases offer <;> rfl
  | createAnswer answer => cases promise <;> cases answer <;> rfl
  | setRemoteOffer sdp =>
    cases promise with
    | pending => exact absurd rfl hsettled
    | fulfilled => exact absurd (.inr ⟨rfl, rfl⟩) hpasses
    | rejected => rfl
  | setRemoteAnswer sdp =>
    cases promise with
    | pending => exact absurd rfl hsettled
    | fulfilled => exact absurd (.inr ⟨rfl, rfl⟩) hpasses
    | rejected => rfl
  | _ => cases promise <;> rfl

end Party

/-! ### Runs -/

/-- What happens to a peer: it is added, a signal of it arrives, the browser settles or
rejects a promise, or a call takes up a promise that is settled. -/
inductive PeerEvent where
  | addPeer (initiator : Bool)
  | signal (signal : RtcSignal)
  | settle (t : Task) (sdp : String)
  | reject (t : Task)
  | resume (t : Task)

/-- A signal describes offers and answers. -/
def PeerEvent.Describes : PeerEvent → Prop
  | .signal s => s.Describes
  | _ => True

namespace Party

/-- One step; nothing happens for a call that is not there. -/
def step (p : Party) : PeerEvent → Party
  | .addPeer initiator => p.addPeer initiator
  | .signal signal => { p.handleSignal signal with heard := p.heard ++ [signal] }
  | .settle t sdp => if t ∈ p.tasks ∧ t.promise = .pending then p.settle t sdp else p
  | .reject t => if t ∈ p.tasks ∧ t.promise = .pending then p.reject t else p
  | .resume t => if t ∈ p.tasks ∧ t.promise ≠ .pending then p.resume t else p

/-- The candidates that arrived. -/
def received (p : Party) : List IceCandidate := p.heard.filterMap RtcSignal.candidate?

/-- No `handleSignal` is in progress. -/
def Idle (p : Party) : Prop := ∀ t ∈ p.tasks, t.await.handles = false

/-- Every candidate that arrived is queued, and there is no remote description; or every
one was passed on once, and there is. -/
def UsesOnce (p : Party) : Prop :=
  (¬ p.RemoteSet ∧ p.pendingCandidates.Perm p.received ∧ p.added = []) ∨
    (p.RemoteSet ∧ p.pendingCandidates = [] ∧ p.added.Perm p.received)

variable {p q : Party} {peer : RtcPeer} {t : Task} {e : PeerEvent}

theorem keeps_reject (ht : t ∈ p.tasks) : p.Keeps (p.reject t) := by
  refine ⟨rfl, fun c => ?_⟩
  rw [held, held, count_rests ht]
  simp only [Party.reject, pendingCandidates, rests, List.flatMap_append,
    List.flatMap_singleton, List.count_append]
  omega

/-- A call that is under way has a peer. -/
theorem Sane.of_mem (h : p.Sane) (ht : t ∈ p.tasks) : ∃ peer, p.SaneAs peer := by
  rcases h with ⟨-, htasks, -⟩ | h
  · rw [htasks] at ht
    cases ht
  · exact h

theorem accounts_step (h : p.Accounts) (e : PeerEvent) : (p.step e).Accounts := by
  cases e with
  | addPeer initiator => exact (keeps_addPeer initiator).accounts h
  | signal signal =>
    intro c
    show ((p.heard ++ [signal]).filterMap RtcSignal.candidate?).count c =
      (p.handleSignal signal).held c
    rw [List.filterMap_append, List.count_append, held_handleSignal, h c]
  | settle t sdp =>
    rw [step]
    split
    · next ht => exact (keeps_settle ht.1 sdp).accounts h
    · exact h
  | reject t =>
    rw [step]
    split
    · next ht => exact (keeps_reject ht.1).accounts h
    · exact h
  | resume t =>
    rw [step]
    split
    · next ht => exact (keeps_resume ht.1).accounts h
    · exact h

/-- Hearing is not part of the invariant. -/
theorem Sane.hear (h : p.Sane) (signals : List RtcSignal) :
    ({ p with heard := signals } : Party).Sane := by
  rcases h with ⟨hpeer, htasks, hadded⟩ | ⟨peer, h⟩
  · exact .inl ⟨hpeer, htasks, hadded⟩
  · exact .inr ⟨peer, h.here, h.sound, h.polite, h.fits, h.queued, h.added⟩

theorem sane_step (h : p.Sane) (he : e.Describes) : (p.step e).Sane := by
  cases e with
  | addPeer initiator => exact sane_addPeer h initiator
  | signal signal => exact (sane_handleSignal h he).hear _
  | settle t sdp =>
    rw [step]
    split
    · next ht =>
      obtain ⟨peer, hsane⟩ := h.of_mem ht.1
      exact hsane.settle ht.1 ht.2 sdp
    · exact h
  | reject t =>
    rw [step]
    split
    · next ht =>
      obtain ⟨peer, hsane⟩ := h.of_mem ht.1
      exact (hsane.reject ht.1 ht.2).sane
    · exact h
  | resume t =>
    rw [step]
    split
    · next ht =>
      obtain ⟨peer, hsane⟩ := h.of_mem ht.1
      exact hsane.resume ht.1 ht.2
    · exact h

/-- A remote description stays. -/
theorem remoteSet_step (h : p.Sane) (hremote : p.RemoteSet) (e : PeerEvent) :
    (p.step e).RemoteSet := by
  obtain ⟨peer, hpeer, hdescription⟩ := hremote
  cases e with
  | addPeer initiator =>
    rw [step, Party.addPeer, if_pos (by simp [hpeer])]
    exact ⟨peer, hpeer, hdescription⟩
  | signal signal =>
    exact remoteSet_of_connection?
      (p := { p.handleSignal signal with heard := p.heard ++ [signal] })
      (connection?_handleSignal hpeer signal) hdescription
  | settle t sdp =>
    rw [step]
    split
    · next ht =>
      obtain ⟨peer', hsane⟩ := h.of_mem ht.1
      obtain rfl := Option.some.inj (hpeer.symm.trans hsane.here)
      rw [Party.settle]
      split
      · exact ⟨peer, hpeer, hdescription⟩
      next peer' hpeer' =>
      obtain rfl := Option.some.inj (hpeer.symm.trans hpeer')
      split
      · next connection await hperform =>
        have hperforms := RtcConnection.performs_of_perform hperform hsane.sound
          (hsane.fits t ht.1).forward
        exact ⟨_, rfl, hperforms.remote.mpr (.inl hdescription)⟩
      · exact ⟨peer, hpeer, hdescription⟩
    · exact ⟨peer, hpeer, hdescription⟩
  | reject t =>
    rw [step]
    split <;> exact ⟨peer, hpeer, hdescription⟩
  | resume t =>
    rw [step]
    split
    · exact remoteSet_of_connection? (connection?_resume hpeer t) hdescription
    · exact ⟨peer, hpeer, hdescription⟩

/-- Candidates are passed on beside a remote description. -/
theorem added_step (h : p.Sane) (e : PeerEvent) : (p.step e).added = p.added ∨ p.RemoteSet := by
  cases e with
  | addPeer initiator =>
    left
    rw [step, Party.addPeer]
    split
    · rfl
    · cases initiator <;> rfl
  | signal signal => exact added_handleSignal signal
  | settle t sdp =>
    left
    rw [step]
    split
    · rw [Party.settle]
      split
      · rfl
      · split <;> rfl
    · rfl
  | reject t =>
    left
    rw [step]
    split <;> rfl
  | resume t =>
    rw [step]
    split
    · next ht =>
      obtain ⟨peer, hsane⟩ := h.of_mem ht.1
      exact hsane.added_resume ht.1 ht.2
    · exact .inl rfl

/-- With no handler in progress nothing is due any more. -/
theorem rests_of_idle (h : p.Idle) : p.rests = [] := by
  refine List.flatMap_eq_nil_iff.mpr ?_
  intro t ht
  have hidle := h t ht
  cases hawait : t.await with
  | flush answers rest =>
    rw [hawait] at hidle
    cases hidle
  | _ => rfl

/-- **With no handler in progress every candidate is queued, or used once.** -/
theorem usesOnce_of_idle (hsane : p.Sane) (haccounts : p.Accounts) (hidle : p.Idle) :
    p.UsesOnce := by
  have hcount (c : IceCandidate) :
      p.received.count c = p.pendingCandidates.count c + p.added.count c := by
    have := haccounts c
    rw [held, rests_of_idle hidle] at this
    exact this
  by_cases hremote : p.RemoteSet
  · have hqueue : p.pendingCandidates = [] := by
      by_contra hne
      rcases hsane with ⟨hpeer, -⟩ | ⟨peer, h⟩
      · obtain ⟨peer, hpeer', -⟩ := hremote
        rw [hpeer] at hpeer'
        cases hpeer'
      · rw [pendingCandidates, h.here] at hne
        obtain ⟨t, ht, hsets, -⟩ := h.queued (h.remoteSet_iff.mp hremote) hne
        have hhandles := hidle t ht
        cases hawait : t.await <;> rw [hawait] at hsets hhandles <;> cases hsets <;> cases hhandles
    refine .inr ⟨hremote, hqueue, List.perm_iff_count.mpr fun c => ?_⟩
    rw [hcount c, hqueue]
    simp
  · have hadded : p.added = [] := by
      by_contra hne
      rcases hsane with ⟨-, -, hnone⟩ | ⟨peer, h⟩
      · exact hne hnone
      · exact hremote (h.remoteSet_iff.mpr (h.added hne))
    refine .inl ⟨hremote, List.perm_iff_count.mpr fun c => ?_, hadded⟩
    rw [hcount c, hadded]
    simp

end Party

/-- **Every ICE candidate is used exactly once.**  Over every run, with no handler in
progress, what arrived is still queued and there is no remote description, or it was passed
on once; it is passed on only beside a remote description, and that stays. -/
theorem candidates_used_once (evs : List PeerEvent) (hdescribes : ∀ e ∈ evs, e.Describes) :
    Runs.Always Party.step (fun p => p.Idle → p.UsesOnce) {} evs ∧
      Runs.Guarded Party.step (fun p e => (p.step e).added = p.added ∨ p.RemoteSet) {} evs ∧
      Runs.Guarded Party.step (fun p e => p.RemoteSet → (p.step e).RemoteSet) {} evs := by
  have hinvariant : Runs.Always Party.step (fun p => p.Sane ∧ p.Accounts) {} evs :=
    Runs.always_of_mem ⟨.inl ⟨rfl, rfl, rfl⟩, fun c => rfl⟩
      fun p e he h => ⟨Party.sane_step h.1 (hdescribes e he), Party.accounts_step h.2 e⟩
  have hbefore {pre : List PeerEvent} {e : PeerEvent} (hpre : pre ++ [e] <+: evs) :
      (Runs.run Party.step {} pre).Sane :=
    (hinvariant pre ((List.prefix_append pre [e]).trans hpre)).1
  refine ⟨hinvariant.mono fun p h hidle => Party.usesOnce_of_idle h.1 h.2 hidle, ?_, ?_⟩
  · intro pre e hpre
    exact Party.added_step (hbefore hpre) e
  · intro pre e hpre hremote
    exact Party.remoteSet_step (hbefore hpre) hremote e

/-- One candidate comes before the offer, one while its description is set, one after. -/
def earlyAndLate : List PeerEvent :=
  [.signal (.ice "c1"), .signal (.offer (some ⟨.offer, "o"⟩)),
   .settle ⟨.setRemoteOffer ⟨.offer, "o"⟩, .pending⟩ "", .signal (.ice "c2"),
   .resume ⟨.setRemoteOffer ⟨.offer, "o"⟩, .fulfilled⟩, .reject ⟨.flush true [], .pending⟩,
   .resume ⟨.flush true [], .rejected⟩, .signal (.ice "c3")]

theorem candidates_used_once_earlyAndLate :
    Runs.Always Party.step (fun p => p.Idle → p.UsesOnce) {} earlyAndLate ∧
      Runs.Guarded Party.step (fun p e => (p.step e).added = p.added ∨ p.RemoteSet)
    {} earlyAndLate ∧
      Runs.Guarded Party.step (fun p e => p.RemoteSet → (p.step e).RemoteSet) {} earlyAndLate :=
  candidates_used_once earlyAndLate (by
    intro e he
    simp only [earlyAndLate, List.mem_cons, List.not_mem_nil, or_false] at he
    rcases he with rfl | rfl | rfl | rfl | rfl | rfl | rfl | rfl <;>
      simp [PeerEvent.Describes, RtcSignal.Describes])

/-- A candidate that comes while the description is set overtakes the queue. -/
example : (Runs.run Party.step {} earlyAndLate).added = ["c2", "c1", "c3"] := by decide

end ZoomClone

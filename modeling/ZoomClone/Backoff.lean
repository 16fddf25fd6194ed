/-
How long a client waits for a server that accepts and drops it.

`onopen` resets the attempt counter, and the server refuses a client by accepting its
socket and closing it.  So the counter is back at zero at every close of a socket that
opened, and the ramp of `RECONNECT_DELAYS_MS` never gets past its first step.

* `SocketClient.Restarts` — the invariant: while a socket is up, the counter is zero;
* `SocketClient.timeouts_closed` — what the close of such a socket arms;
* `refused_delay_iff` — the delay is the one of the ramp exactly after the first close.
-/
import ZoomClone.SocketClient

namespace ZoomClone

namespace SocketClient

variable {s t : SocketClient}

/-- A socket with its handlers has opened, and has not closed yet. -/
def Up (s : SocketClient) (i : ℕ) : Prop :=
  ∃ w, s.sockets[i]? = some w ∧ w.handlers = true ∧ (w.readyState = .open ∨ w.readyState = .closing)

theorem Up.attached {i : ℕ} (h : s.Up i) : s.Attached i := by
  obtain ⟨w, hw, hhandlers, hstate⟩ := h
  refine ⟨w, hw, hhandlers, ?_⟩
  rcases hstate with hstate | hstate <;> rw [hstate] <;> decide

/-- The events of a client that is refused: the caller neither connects nor closes, and a
socket opens before it closes. -/
def Refuses (s : SocketClient) : Event → Prop
  | .connect => False
  | .close => False
  | .closed i => ∀ w, s.sockets[i]? = some w → w.readyState ≠ .connecting
  | _ => True

/-- While a socket is up, the attempts are counted from zero. -/
structure Restarts (s : SocketClient) : Prop where
  sound : s.Sound
  calling : s.closedByCaller = false
  reset : ∀ i, s.Up i → s.attempt = 0

/-- `t` counts as `s` does, and has no socket up that `s` has not. -/
structure Counts (s t : SocketClient) : Prop where
  attempt : t.attempt = s.attempt
  calling : t.closedByCaller = s.closedByCaller
  up : ∀ i, t.Up i → s.Up i

theorem Counts.refl (s : SocketClient) : s.Counts s := ⟨rfl, rfl, fun _ => id⟩

theorem Restarts.of_counts (h : s.Restarts) (hsound : t.Sound) (hcounts : s.Counts t) :
    t.Restarts := by
  refine ⟨hsound, hcounts.calling.trans h.calling, fun i hi => ?_⟩
  rw [hcounts.attempt]
  exact h.reset i (hcounts.up i hi)

/-- A change of one socket that does not bring it up. -/
theorem counts_modifySocket (i : ℕ) {f : WebSocket → WebSocket}
    (hf : ∀ w, s.sockets[i]? = some w → (f w).handlers = true →
      (f w).readyState = .open ∨ (f w).readyState = .closing →
        w.handlers = true ∧ (w.readyState = .open ∨ w.readyState = .closing)) :
    s.Counts (s.modifySocket i f) := by
  refine ⟨rfl, rfl, ?_⟩
  rintro j ⟨w, hw, hhandlers, hstate⟩
  simp only [modifySocket, List.getElem?_modify] at hw
  obtain ⟨w', hw', rfl⟩ := Option.map_eq_some_iff.mp hw
  by_cases hij : i = j
  · subst hij
    rw [if_pos rfl] at hhandlers hstate
    obtain ⟨hhandlers', hstate'⟩ := hf w' hw' hhandlers hstate
    exact ⟨w', hw', hhandlers', hstate'⟩
  · rw [if_neg hij] at hhandlers hstate
    exact ⟨w', hw', hhandlers, hstate⟩

theorem counts_write (frame : OutboundFrame) (throws : Bool) : s.Counts (s.write frame throws) := by
  rw [write]
  split
  · exact .refl s
  · split
    · exact ⟨rfl, rfl, fun _ => id⟩
    · exact counts_modifySocket _ fun w _ hhandlers hstate => ⟨hhandlers, hstate⟩

theorem counts_send (frame : OutboundFrame) (throws : Bool) : s.Counts (s.send frame throws) := by
  dsimp only [send]
  split
  · have hwrite := counts_write (s := { s with calls := s.calls ++ [frame] }) frame throws
    exact ⟨hwrite.attempt, hwrite.calling, hwrite.up⟩
  · exact ⟨rfl, rfl, fun _ => id⟩

theorem counts_writeAll (frames : List OutboundFrame) (throws : List Bool) :
    s.Counts (s.writeAll frames throws) := by
  induction frames generalizing s throws with
  | nil => exact .refl s
  | cons frame frames ih =>
    have hwrite := counts_write (s := s) frame (throws.headD false)
    have hrest := ih (s := s.write frame (throws.headD false)) throws.tail
    exact ⟨hrest.attempt.trans hwrite.attempt, hrest.calling.trans hwrite.calling,
      fun i hi => hwrite.up i (hrest.up i hi)⟩

theorem stopHeartbeat_fields : s.stopHeartbeat.attempt = s.attempt ∧
    s.stopHeartbeat.closedByCaller = s.closedByCaller ∧ s.stopHeartbeat.sockets = s.sockets ∧
    s.stopHeartbeat.reconnectTimer = s.reconnectTimer ∧ s.stopHeartbeat.timeouts = s.timeouts := by
  rw [stopHeartbeat]
  split <;> exact ⟨rfl, rfl, rfl, rfl, rfl⟩

/-- A socket that opens resets the counter. -/
theorem onOpen_fields (throws : List Bool) :
    (s.onOpen throws).attempt = 0 ∧ (s.onOpen throws).closedByCaller = s.closedByCaller := by
  have hwrites := counts_writeAll
    (s := { s with attempt := 0, status := .open, queue := [] }) s.queue throws
  rw [onOpen, startHeartbeat]
  exact ⟨stopHeartbeat_fields.1.trans hwrites.attempt,
    stopHeartbeat_fields.2.1.trans hwrites.calling⟩

/-- The close of an attached socket schedules a retry after the delay that the counter
has come to. -/
theorem onClose_fields (hcalling : s.closedByCaller = false) (hretry : s.reconnectTimer = none)
    (hnone : s.timeouts = []) : s.onClose.closedByCaller = false ∧ s.onClose.reconnectTimer ≠ none ∧
      s.onClose.timeouts =
        [⟨s.timers, reconnectDelaysMs.getD (min s.attempt (reconnectDelaysMs.length - 1)) 0⟩] := by
  obtain ⟨hattempt, hclosed, -, htimer, htimeouts⟩ := stopHeartbeat_fields (s := s)
  have htimers : s.stopHeartbeat.timers = s.timers := by
    rw [stopHeartbeat]
    split <;> rfl
  have hschedule : s.onClose = s.stopHeartbeat.scheduleReconnect := by
    dsimp only [onClose]
    rw [hclosed, hcalling]
    rfl
  rw [hschedule, scheduleReconnect, htimer, hretry, if_neg (by decide), htimeouts,
    hnone, htimers, hattempt]
  exact ⟨hclosed.trans hcalling, Option.some_ne_none _, rfl⟩

/-- While a socket is attached, no retry is pending. -/
theorem Sound.no_retry (h : s.Sound) {i : ℕ} (hattached : s.Attached i) :
    s.reconnectTimer = none ∧ s.timeouts = [] := by
  have hretry : s.reconnectTimer = none := by
    by_contra hpending
    exact h.waiting hpending i hattached
  have harmed := h.armed
  rw [hretry] at harmed
  exact ⟨hretry, List.map_eq_nil_iff.mp harmed⟩

/-- A socket that is made is not up yet. -/
theorem not_up_openSocket (hnone : ∀ i, ¬ s.Up i) (i : ℕ) : ¬ s.openSocket.Up i := by
  rintro ⟨w, hw, hhandlers, hup⟩
  have hw : (s.sockets ++ [({} : WebSocket)])[i]? = some w := hw
  rcases Nat.lt_or_ge i s.sockets.length with hlt | hge
  · rw [List.getElem?_append_left hlt] at hw
    exact hnone i ⟨w, hw, hhandlers, hup⟩
  · rw [List.getElem?_append_right hge] at hw
    have hfresh := List.mem_singleton.mp (List.mem_of_getElem? hw)
    rw [hfresh] at hup
    rcases hup with hup | hup <;> cases hup

/-- **The invariant is kept.** -/
theorem Restarts.next (h : s.Restarts) {e : Event} (he : s.Refuses e) : (s.next e).Restarts := by
  have hconnects : s.ConnectsClosed e := by
    cases e with
    | connect => exact he.elim
    | _ => trivial
  have hsound := h.sound.next e hconnects
  cases e with
  | connect => exact he.elim
  | close => exact he.elim
  | send frame throws => exact h.of_counts hsound (counts_send frame throws)
  | message i data =>
    refine h.of_counts hsound ?_
    rcases next_message i data with heq | ⟨w, frame, -, -, -, heq⟩
    · rw [heq]
      exact .refl s
    · rw [heq]
      exact ⟨rfl, rfl, fun _ => id⟩
  | opened i throws =>
    rcases next_opened (s := s) i throws with heq | ⟨w, hw, hstate, heq⟩
    · rwa [heq]
    · by_cases hhandlers : w.handlers = true
      · rw [if_pos hhandlers] at heq
        obtain ⟨hattempt, hcalling⟩ :=
          onOpen_fields (s := s.modifySocket i fun w => { w with readyState := .open }) throws
        rw [heq] at hsound ⊢
        exact ⟨hsound, hcalling.trans h.calling, fun _ _ => hattempt⟩
      · rw [if_neg hhandlers] at heq
        rw [heq] at hsound ⊢
        refine h.of_counts hsound (counts_modifySocket i ?_)
        intro w' hw' hhandlers' _
        obtain rfl := Option.some.inj (hw.symm.trans hw')
        exact absurd hhandlers' hhandlers
  | closing i =>
    refine h.of_counts hsound ?_
    rcases next_closing (s := s) i with heq | ⟨w, hw, hstate, heq⟩
    · rw [heq]
      exact .refl s
    · rw [heq]
      refine counts_modifySocket i ?_
      intro w' hw' hhandlers _
      obtain rfl := Option.some.inj (hw.symm.trans hw')
      exact ⟨hhandlers, .inl hstate⟩
  | closed i =>
    rcases next_closed (s := s) i with heq | ⟨w, hw, hstate, heq⟩
    · rwa [heq]
    · by_cases hhandlers : w.handlers = true
      · -- the retry is pending afterwards, so nothing is attached
        obtain ⟨hretry, hnone⟩ := h.sound.no_retry ⟨w, hw, hhandlers, hstate⟩
        obtain ⟨hcalling, hpending, -⟩ :=
          onClose_fields (s := s.modifySocket i fun w => { w with readyState := .closed })
            h.calling hretry hnone
        rw [heq, if_pos hhandlers] at hsound ⊢
        exact ⟨hsound, hcalling, fun j hj => absurd hj.attached (hsound.waiting hpending j)⟩
      · rw [heq, if_neg hhandlers] at hsound ⊢
        refine h.of_counts hsound (counts_modifySocket i ?_)
        intro w' _ _ hclosed
        rcases hclosed with hclosed | hclosed <;> cases hclosed
  | timeout id =>
    rcases next_timeout h.sound id with heq | ⟨hid, heq⟩
    · rwa [heq]
    · rw [heq] at hsound ⊢
      have hpending : s.reconnectTimer ≠ none := by rw [hid]; exact Option.some_ne_none id
      have hnone (i : ℕ) : ¬ s.Up i := fun hi => h.sound.waiting hpending i hi.attached
      exact ⟨hsound, h.calling, fun i hi => absurd hi (not_up_openSocket hnone i)⟩
  | interval id throws =>
    refine h.of_counts hsound ?_
    rcases next_interval h.sound id throws with heq | ⟨-, -, heq⟩
    · rw [heq]
      exact .refl s
    · rw [heq]
      exact counts_write _ throws

/-- The close of a socket that opened arms the first delay of the ramp. -/
theorem timeouts_closed (h : s.Restarts) {i : ℕ} (hattached : s.Attached i)
    (he : s.Refuses (.closed i)) :
    (s.next (.closed i)).timeouts = [⟨s.timers, 1000⟩] := by
  obtain ⟨w, hw, hhandlers, hstate⟩ := hattached
  have hup : s.Up i := by
    refine ⟨w, hw, hhandlers, ?_⟩
    have hopened := he w hw
    cases hready : w.readyState with
    | connecting => exact absurd hready hopened
    | «open» => exact .inl rfl
    | closing => exact .inr rfl
    | closed => exact absurd hready hstate
  obtain ⟨hretry, hnone⟩ := h.sound.no_retry hup.attached
  obtain ⟨-, -, htimeouts⟩ :=
    onClose_fields (s := s.modifySocket i fun w => { w with readyState := .closed })
      h.calling hretry hnone
  have hclose : s.next (.closed i) =
      (s.modifySocket i fun w => { w with readyState := .closed }).onClose := by
    dsimp only [SocketClient.next]
    rw [hw]
    dsimp only
    rw [if_neg hstate, if_pos hhandlers]
  have hattempt : s.attempt = 0 := h.reset i hup
  rw [hclose, htimeouts]
  show [(⟨s.timers, reconnectDelaysMs.getD (min s.attempt _) 0⟩ : Timer)] = _
  rw [hattempt]
  rfl

theorem restarts_connect (h : s.Sound) (hclosed : s.status = .closed) : s.connect.Restarts := by
  have hnone (i : ℕ) : ¬ s.Up i := fun hi => h.not_attached (h.idle hclosed).1 i hi.attached
  exact ⟨h.next .connect hclosed, rfl, fun i hi => absurd hi (not_up_openSocket hnone i)⟩

end SocketClient

/-! ### Runs -/

/-- The close of socket `i` arms the delay of the ramp for the `k`-th close, counted from
zero. -/
def ArmsRamp (s : SocketClient) (i k : ℕ) : Prop :=
  ∃ timer, (s.next (.closed i)).timeouts = [timer] ∧
    timer.delay = reconnectDelaysMs.getD (min k (reconnectDelaysMs.length - 1)) 0

/-- The ramp only begins with the delay that is armed. -/
theorem ramp_eq_first {k : ℕ} :
    reconnectDelaysMs.getD (min k (reconnectDelaysMs.length - 1)) 0 = 1000 ↔ k = 0 := by
  constructor
  · intro h
    by_contra hne
    have hmin : min k (reconnectDelaysMs.length - 1) ∈ [1, 2, 3, 4, 5] := by
      simp only [reconnectDelaysMs, List.length_cons, List.length_nil,
        List.mem_cons, List.not_mem_nil]
      omega
    have hlater : ∀ j ∈ [1, 2, 3, 4, 5], reconnectDelaysMs.getD j 0 ≠ 1000 := by decide
    exact hlater _ hmin h
  · rintro rfl
    rfl

/-- **When a refused client backs off.**  After `connect()`, in every run in which every
socket opens before the server closes it, whatever it delivers and whatever the caller
sends: the close of the `k`-th socket, counted from zero, arms the delay of the ramp exactly
for the first one. -/
theorem refused_delay_iff {s : SocketClient} (hsound : s.Sound) (hclosed : s.status = .closed)
    {pre : List SocketClient.Event} {k : ℕ}
    (hrefuses : Runs.Guarded SocketClient.next SocketClient.Refuses s.connect
      (pre ++ [.closed (s.sockets.length + k)]))
    (hattached : (Runs.run SocketClient.next s.connect pre).Attached (s.sockets.length + k)) :
    ArmsRamp (Runs.run SocketClient.next s.connect pre) (s.sockets.length + k) k ↔ k = 0 := by
  obtain ⟨hpre, hclose⟩ := Runs.guarded_concat.mp hrefuses
  have hrestarts : Runs.Always SocketClient.next SocketClient.Restarts s.connect pre :=
    hpre.always (SocketClient.restarts_connect hsound hclosed) fun _ _ h he => h.next he
  have htimeouts := SocketClient.timeouts_closed hrestarts.last hattached hclose
  rw [← ramp_eq_first]
  constructor
  · rintro ⟨timer, harmed, hdelay⟩
    obtain rfl := List.singleton_inj.mp (htimeouts.symm.trans harmed)
    exact hdelay.symm
  · intro hdelay
    exact ⟨_, htimeouts, hdelay.symm⟩

/-- What the server sends for an invalid session, before it closes the socket. -/
def invalidSessionFrame : Json :=
  .obj [("type", .str "error"), ("payload", .obj [("code", .str "INVALID_SESSION"),
    ("message", .str "That session is not valid.")])]

/-- The server accepts a socket and sends one error frame. -/
def acceptAndRefuse (i : ℕ) : List SocketClient.Event :=
  [.opened i [], .message i (some invalidSessionFrame)]

/-- The first `k` sockets are refused and closed, the retries fire, and the next one is
refused.  Each socket takes two timer ids, for its heartbeat and for the retry. -/
def refusedBefore : ℕ → List SocketClient.Event
  | 0 => acceptAndRefuse 0
  | k + 1 => refusedBefore k ++ [.closed k, .timeout (2 * k + 1)] ++ acceptAndRefuse (k + 1)

theorem refused_delay_first :
    ArmsRamp (Runs.run SocketClient.next ({} : SocketClient).connect (refusedBefore 0)) 0 0 ↔
      (0 : ℕ) = 0 :=
  refused_delay_iff (s := {}) (k := 0) SocketClient.sound_empty rfl
    (by
      simp only [refusedBefore, acceptAndRefuse, List.cons_append,
        List.nil_append, Runs.guarded_cons,
        SocketClient.Refuses, true_and]
      refine ⟨?_, Runs.guarded_nil⟩
      rintro w ⟨⟩
      decide)
    ⟨_, rfl, rfl, by decide⟩

/-- The second refusal is retried as soon as the first. -/
theorem refusals_not_backed_off : ¬ ∀ k : ℕ,
    ArmsRamp (Runs.run SocketClient.next ({} : SocketClient).connect (refusedBefore k)) k k := by
  intro h
  obtain ⟨timer, harmed, hdelay⟩ := h 1
  obtain rfl : timer = ⟨3, 1000⟩ := (List.singleton_inj.mp (Eq.symm harmed))
  revert hdelay
  decide

end ZoomClone

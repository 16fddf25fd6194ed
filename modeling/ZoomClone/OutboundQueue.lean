/-
The outbound queue of `SignalingClient.ts`.

A frame reaches a socket in one of three ways: directly, from the queue when a socket
opens, or from the queue again after a write that threw.  `wire` is what the sockets
have accepted, then what still waits.

* `order_write` — one write keeps the order unless it overtakes a frame that waits;
* `outbound_in_order` — so a run in which no accepted write does loses, repeats and
  reorders nothing.
-/
import ZoomClone.SocketClient

namespace ZoomClone

/-- The text is no ping. -/
def Json.isApplication : Json → Bool
  | .obj fields =>
    match Json.get fields "type" with
    | .str type => type ≠ "ping"
    | _ => true
  | _ => true

def OutboundFrame.IsApplication (f : OutboundFrame) : Prop := f.type ≠ "ping"

instance (f : OutboundFrame) : Decidable f.IsApplication :=
  inferInstanceAs (Decidable (f.type ≠ "ping"))

@[simp] theorem isApplication_json (f : OutboundFrame) :
    f.json.isApplication = decide f.IsApplication := rfl

namespace SocketClient

/-! ### What is on its way -/

/-- What the sockets accepted, one socket after the other. -/
def accepted (s : SocketClient) : List Json := s.sockets.flatMap WebSocket.accepted

/-- What was accepted, then what still waits. -/
def wire (s : SocketClient) : List Json := s.accepted ++ s.queue.map OutboundFrame.json

/-- Pings apart, the frames sent are those accepted and those that wait, in order. -/
def InOrder (s : SocketClient) : Prop :=
  s.wire.filter Json.isApplication = (s.calls.map OutboundFrame.json).filter Json.isApplication

/-- The writes of a flush, and which of them throw. -/
def outcomes : List OutboundFrame → List Bool → List (OutboundFrame × Bool)
  | [], _ => []
  | frame :: frames, throws => (frame, throws.headD false) :: outcomes frames throws.tail

/-- The opening of the socket is one the client hears of. -/
def opens (s : SocketClient) (i : ℕ) : Bool :=
  s.sockets[i]?.any fun w => w.readyState = .connecting && w.handlers

/-- No write is accepted while an application frame that was sent before waits: a direct
write only when none is queued, and in a flush none after one that threw. -/
def NeverOvertakes (s : SocketClient) : Event → Prop
  | .send frame throws =>
    s.readyState = some .open → throws = false → frame.IsApplication →
      ∀ f ∈ s.queue, ¬ f.IsApplication
  | .opened i throws =>
    s.opens i →
      (outcomes s.queue throws).Pairwise fun a b => a.1.IsApplication →
        b.1.IsApplication → a.2 → b.2
  | _ => True

instance (s : SocketClient) : ∀ e, Decidable (s.NeverOvertakes e)
  | .send frame throws => inferInstanceAs (Decidable
      (s.readyState = some .open → throws = false → frame.IsApplication →
        ∀ f ∈ s.queue, ¬ f.IsApplication))
  | .opened i throws => inferInstanceAs (Decidable (s.opens i →
      (outcomes s.queue throws).Pairwise fun a b => a.1.IsApplication →
        b.1.IsApplication → a.2 → b.2))
  | .connect | .close | .message _ _ | .closing _ | .closed _ | .timeout _ | .interval _ _ =>
    .isTrue trivial

variable {s : SocketClient}

theorem accepted_modifySocket {i : ℕ} {f : WebSocket → WebSocket}
    (hf : ∀ w, (f w).accepted = w.accepted) :
    (s.modifySocket i f).accepted = s.accepted := by
  show (s.sockets.modify i f).flatMap WebSocket.accepted = s.sockets.flatMap WebSocket.accepted
  have hmap : (s.sockets.modify i f).map WebSocket.accepted = s.sockets.map WebSocket.accepted := by
    refine List.ext_getElem (by simp) ?_
    intro j hj hj'
    simp only [List.getElem_map, List.getElem_modify]
    split
    · exact hf _
    · rfl
  rw [List.flatMap_def, List.flatMap_def, hmap]

theorem accepted_openSocket : s.openSocket.accepted = s.accepted := by
  show (s.sockets ++ [({} : WebSocket)]).flatMap WebSocket.accepted =
    s.sockets.flatMap WebSocket.accepted
  rw [List.flatMap_append]
  simp

theorem modify_length_append {α : Type*} (l : List α) (a : α) (f : α → α) :
    (l ++ [a]).modify l.length f = l ++ [f a] := by
  induction l with
  | nil => rfl
  | cons b l ih =>
    rw [List.cons_append, List.length_cons, List.modify_succ_cons, ih, List.cons_append]

/-- The newest socket accepts a text after all the others. -/
theorem accepted_newest {i : ℕ} (hnewest : i + 1 = s.sockets.length) (text : Json) :
    (s.modifySocket i fun w => { w with accepted := w.accepted ++ [text] }).accepted =
      s.accepted ++ [text] := by
  show (s.sockets.modify i _).flatMap WebSocket.accepted =
    s.sockets.flatMap WebSocket.accepted ++ [text]
  cases hs : s.sockets using List.reverseRecOn with
  | nil =>
    rw [hs] at hnewest
    cases hnewest
  | append_singleton older newest =>
    rw [hs, List.length_append, List.length_singleton] at hnewest
    obtain rfl : i = older.length := by omega
    rw [modify_length_append]
    simp [List.flatMap_append]

/-! ### One write -/

/-- The current socket is the newest one. -/
structure Connected (s : SocketClient) (i : ℕ) : Prop where
  socket : s.socket = some i
  newest : i + 1 = s.sockets.length

/-- A write is never dropped: it is accepted, or queued again. -/
theorem write_eq {i : ℕ} (h : s.Connected i) (frame : OutboundFrame) (throws : Bool) :
    s.write frame throws =
      if throws then { s with queue := s.queue ++ [frame] }
      else s.modifySocket i fun w => { w with accepted := w.accepted ++ [frame.json] } := by
  rw [write]
  split
  · rename_i hnone
    cases hnone.symm.trans h.socket
  · rename_i j hsocket
    obtain rfl : j = i := Option.some.inj (hsocket.symm.trans h.socket)
    rfl

theorem Connected.write {i : ℕ} (h : s.Connected i) (frame : OutboundFrame) (throws : Bool) :
    (s.write frame throws).Connected i := by
  rw [write_eq h]
  split
  · exact ⟨h.socket, h.newest⟩
  · refine ⟨h.socket, ?_⟩
    show i + 1 = (s.sockets.modify i _).length
    rw [List.length_modify]
    exact h.newest

theorem queue_write {i : ℕ} (h : s.Connected i) (frame : OutboundFrame) (throws : Bool) :
    (s.write frame throws).queue = if throws then s.queue ++ [frame] else s.queue := by
  rw [write_eq h]
  cases throws with
  | true => rfl
  | false => rfl

/-- A write keeps the order unless it overtakes. -/
theorem order_write {i : ℕ} (h : s.Connected i) (frame : OutboundFrame) (throws : Bool)
    (hfirst : throws = false → frame.IsApplication → ∀ f ∈ s.queue, ¬ f.IsApplication) :
    (s.write frame throws).wire.filter Json.isApplication =
      (s.wire ++ [frame.json]).filter Json.isApplication := by
  rw [write_eq h]
  cases throws with
  | true =>
    show (s.accepted ++ (s.queue ++ [frame]).map OutboundFrame.json).filter _ = _
    rw [List.map_append, ← List.append_assoc]
    rfl
  | false =>
    show ((s.modifySocket i fun w => { w with accepted := w.accepted ++ [frame.json] }).accepted ++
      s.queue.map OutboundFrame.json).filter _ = _
    rw [accepted_newest h.newest, wire]
    by_cases happ : frame.IsApplication
    · have hqueue : (s.queue.map OutboundFrame.json).filter Json.isApplication = [] := by
        rw [List.filter_eq_nil_iff]
        intro text htext
        obtain ⟨f, hf, rfl⟩ := List.mem_map.mp htext
        simpa using hfirst rfl happ f hf
      rw [List.append_assoc, List.append_assoc, List.filter_append,
        List.filter_append, List.filter_append,
        List.filter_append, hqueue, List.append_nil, List.nil_append]
    · simp [List.filter_append, happ]

/-- A flush keeps the order unless one of its writes overtakes one that threw. -/
theorem order_writeAll {i : ℕ} (frames : List OutboundFrame)
    (throws : List Bool) (h : s.Connected i)
    (hqueue : (∃ f ∈ s.queue, f.IsApplication) →
      ∀ o ∈ outcomes frames throws, o.1.IsApplication → o.2)
    (hpairs : (outcomes frames throws).Pairwise fun a b => a.1.IsApplication →
      b.1.IsApplication → a.2 → b.2) :
    (s.writeAll frames throws).wire.filter Json.isApplication =
      (s.wire ++ frames.map OutboundFrame.json).filter Json.isApplication := by
  induction frames generalizing s throws with
  | nil => simp [writeAll]
  | cons frame frames ih =>
    simp only [outcomes, List.pairwise_cons, List.forall_mem_cons] at hpairs hqueue
    have hfirst : throws.headD false = false → frame.IsApplication →
        ∀ f ∈ s.queue, ¬ f.IsApplication := by
      intro hthrows happ f hf hwaits
      have hthrew := (hqueue ⟨f, hf, hwaits⟩).1 happ
      rw [hthrows] at hthrew
      cases hthrew
    have hrest : (∃ f ∈ (s.write frame (throws.headD false)).queue, f.IsApplication) →
        ∀ o ∈ outcomes frames throws.tail, o.1.IsApplication → o.2 := by
      rintro ⟨f, hf, hwaits⟩ o ho happ
      rw [queue_write h] at hf
      split at hf
      · rename_i hthrows
        rcases List.mem_append.mp hf with hf | hf
        · exact (hqueue ⟨f, hf, hwaits⟩).2 o ho happ
        · obtain rfl := List.mem_singleton.mp hf
          exact hpairs.1 o ho hwaits happ hthrows
      · exact (hqueue ⟨f, hf, hwaits⟩).2 o ho happ
    rw [writeAll, ih throws.tail (h.write frame _) hrest hpairs.2, List.filter_append,
      order_write h frame _ hfirst, ← List.filter_append, List.append_assoc]
    rfl

/-! ### Every event -/

/-- What neither the sockets' texts, the queue nor the calls notice. -/
theorem InOrder.congr {t : SocketClient} (h : s.InOrder) (haccepted : t.accepted = s.accepted)
    (hqueue : t.queue = s.queue) (hcalls : t.calls = s.calls) : t.InOrder := by
  rw [InOrder, wire, haccepted, hqueue, hcalls]
  exact h

@[simp] theorem calls_write (frame : OutboundFrame) (throws : Bool) :
    (s.write frame throws).calls = s.calls := by
  rw [write]
  split
  · rfl
  · split
    · rfl
    · rfl

theorem calls_writeAll (frames : List OutboundFrame) (throws : List Bool) :
    (s.writeAll frames throws).calls = s.calls := by
  induction frames generalizing s throws with
  | nil => rfl
  | cons frame frames ih => rw [writeAll, ih, calls_write]

theorem accepted_detach : s.detach.accepted = s.accepted := by
  rw [detach]
  split
  · rfl
  · exact accepted_modifySocket fun _ => rfl

/-- An open socket is the newest one. -/
theorem Sound.connected (h : s.Sound) {i : ℕ} (hi : s.socket = some i) : s.Connected i :=
  ⟨hi, h.newest i hi⟩

theorem Sound.connected_of_open (h : s.Sound) (hopen : s.readyState = some .open) :
    ∃ i, s.Connected i := by
  obtain ⟨i, hi, -⟩ := Option.bind_eq_some_iff.mp hopen
  exact ⟨i, h.connected hi⟩

theorem InOrder.stopHeartbeat (h : s.InOrder) : s.stopHeartbeat.InOrder := by
  rw [SocketClient.stopHeartbeat]
  split
  · exact h
  · exact h

theorem InOrder.startHeartbeat (h : s.InOrder) : s.startHeartbeat.InOrder := h.stopHeartbeat

theorem InOrder.onClose (h : s.InOrder) : s.onClose.InOrder := by
  dsimp only [SocketClient.onClose]
  split
  · exact h.stopHeartbeat
  · rw [SocketClient.scheduleReconnect]
    split
    · exact h.stopHeartbeat
    · exact h.stopHeartbeat

theorem InOrder.onOpen {i : ℕ} (h : s.InOrder) (hconnected : s.Connected i) (throws : List Bool)
    (hpairs : (outcomes s.queue throws).Pairwise fun a b => a.1.IsApplication →
      b.1.IsApplication → a.2 → b.2) :
    (s.onOpen throws).InOrder := by
  have hempty :
      ({ s with attempt := 0, status := .open, queue := [] } : SocketClient).Connected i :=
    ⟨hconnected.socket, hconnected.newest⟩
  have hflush := order_writeAll s.queue throws hempty (by simp) hpairs
  refine InOrder.startHeartbeat
    (s := SocketClient.flush { s with attempt := 0, status := .open } throws) ?_
  rw [InOrder, flush, calls_writeAll, hflush, ← h]
  show ((s.accepted ++ []) ++ s.queue.map OutboundFrame.json).filter _ = _
  rw [List.append_nil]
  rfl

theorem InOrder.next (h : s.InOrder) (hsound : s.Sound) (e : Event) (he : s.NeverOvertakes e) :
    (s.next e).InOrder := by
  cases e with
  | connect => exact h.congr accepted_openSocket rfl rfl
  | send frame throws =>
    have hcalled : ∀ t : SocketClient, t.calls = s.calls ++ [frame] →
        t.wire.filter Json.isApplication = (s.wire ++ [frame.json]).filter Json.isApplication →
            t.InOrder := by
      intro t hcalls hwire
      rw [InOrder, hwire, hcalls, List.filter_append, h, ← List.filter_append, List.map_append]
      rfl
    dsimp only [SocketClient.next, SocketClient.send]
    split
    · rename_i hopen
      have hopen : s.readyState = some .open := hopen
      obtain ⟨i, hi⟩ := hsound.connected_of_open hopen
      have hi : ({ s with calls := s.calls ++ [frame] } : SocketClient).Connected i :=
        ⟨hi.socket, hi.newest⟩
      exact hcalled _ (calls_write frame throws) (order_write hi frame throws (he hopen))
    · refine hcalled _ rfl ?_
      show (s.accepted ++ (s.queue ++ [frame]).map OutboundFrame.json).filter _ = _
      rw [List.map_append, ← List.append_assoc]
      rfl
  | close =>
    rw [SocketClient.next, close_eq hsound]
    exact h.congr accepted_detach rfl rfl
  | opened i throws =>
    rcases next_opened i throws with heq | ⟨w, hw, hstate, heq⟩
    · rwa [heq]
    · have hopen : (s.modifySocket i fun w => { w with readyState := .open }).InOrder :=
        h.congr (accepted_modifySocket fun _ => rfl) rfl rfl
      rw [heq]
      split
      · rename_i hhandlers
        -- the socket that opens is the current one, so the flush reaches it
        have hcurrent : s.socket = some i :=
          hsound.current i ⟨w, hw, hhandlers, by rw [hstate]; nofun⟩
        have hopens : s.opens i := by simp [opens, hw, hstate, hhandlers]
        refine hopen.onOpen (i := i) ⟨hcurrent, ?_⟩ throws (he hopens)
        show i + 1 = (s.sockets.modify i _).length
        rw [List.length_modify]
        exact hsound.newest i hcurrent
      · exact hopen
  | message i data =>
    rcases next_message i data with heq | ⟨w, frame, -, -, -, heq⟩
    · rwa [heq]
    · rw [heq]
      exact h
  | closing i =>
    rcases next_closing i with heq | ⟨w, -, -, heq⟩
    · rwa [heq]
    · rw [heq]
      exact h.congr (accepted_modifySocket fun _ => rfl) rfl rfl
  | closed i =>
    rcases next_closed i with heq | ⟨w, -, -, heq⟩
    · rwa [heq]
    · have hclosed : (s.modifySocket i fun w => { w with readyState := .closed }).InOrder :=
        h.congr (accepted_modifySocket fun _ => rfl) rfl rfl
      rw [heq]
      split
      · exact hclosed.onClose
      · exact hclosed
  | timeout id =>
    rcases next_timeout hsound id with heq | ⟨-, heq⟩
    · rwa [heq]
    · rw [heq]
      exact h.congr accepted_openSocket rfl rfl
  | interval id throws =>
    rcases next_interval hsound id throws with heq | ⟨-, hopen, heq⟩
    · rwa [heq]
    · obtain ⟨i, hi⟩ := hsound.connected_of_open hopen
      have hping := order_write hi { type := "ping" } throws
        fun _ happ => absurd rfl happ
      rw [heq, InOrder, hping, calls_write, List.filter_append, h]
      exact List.append_nil _

end SocketClient

/-- **The outbound queue.**  In a run in which no accepted write overtakes a frame that
waits, nothing is lost, repeated or reordered. -/
theorem outbound_in_order (events : List SocketClient.Event)
    (hconnects : Runs.Guarded SocketClient.next SocketClient.ConnectsClosed {} events)
    (horder : Runs.Guarded SocketClient.next SocketClient.NeverOvertakes {} events) :
    Runs.Always SocketClient.next SocketClient.InOrder {} events := by
  have hboth : Runs.Guarded SocketClient.next
      (fun s e => s.ConnectsClosed e ∧ s.NeverOvertakes e) {} events :=
    fun pre e hpre => ⟨hconnects pre e hpre, horder pre e hpre⟩
  have hkept : Runs.Always SocketClient.next (fun s => s.Sound ∧ s.InOrder) {} events :=
    hboth.always ⟨SocketClient.sound_empty, rfl⟩ fun _ e h he =>
      ⟨h.1.next e he.1, h.2.next h.1 e he.2⟩
  exact hkept.mono fun _ h => h.2

def sendMuted (muted throws : Bool) : SocketClient.Event :=
  .send { type := "state.update", payload := [("is_muted", .bool muted)] } throws

/-- A frame whose write throws waits for the next socket, and the later one behind it. -/
def waitsForSocket : List SocketClient.Event :=
  [.connect, sendMuted true false, .opened 0 [true], .closed 0, sendMuted false false,
    .timeout 1, .opened 1 []]

theorem outbound_in_order_throws :
    Runs.Guarded SocketClient.next SocketClient.NeverOvertakes {} waitsForSocket ∧
      Runs.Always SocketClient.next SocketClient.InOrder {} waitsForSocket := by
  have horder : Runs.Guarded SocketClient.next SocketClient.NeverOvertakes {} waitsForSocket := by
    decide +kernel
  refine ⟨horder, outbound_in_order waitsForSocket ?_ horder⟩
  simp only [waitsForSocket, sendMuted, Runs.guarded_cons, SocketClient.ConnectsClosed, true_and]
  exact Runs.guarded_nil

/-- The first write of the flush throws, the second does not: the room hears the older
state last. -/
def unmuteOvertakes : List SocketClient.Event :=
  [.connect, sendMuted true false, sendMuted false false, .opened 0 [true, false]]

/-- The text says muted. -/
def saysMuted : Json → Bool
  | .obj fields =>
    match Json.get fields "payload" with
    | .obj payload => (Json.get payload "is_muted").truthy
    | _ => false
  | _ => false

theorem flush_reorders : ¬ ∀ events : List SocketClient.Event,
    Runs.Guarded SocketClient.next SocketClient.ConnectsClosed {} events →
      Runs.Always SocketClient.next SocketClient.InOrder {} events := by
  intro h
  have hconnects : Runs.Guarded SocketClient.next SocketClient.ConnectsClosed
      {} unmuteOvertakes := by
    simp only [unmuteOvertakes, sendMuted, Runs.guarded_cons, SocketClient.ConnectsClosed, true_and]
    exact Runs.guarded_nil
  have horder := congrArg (List.map saysMuted) (h unmuteOvertakes hconnects).last
  revert horder
  decide +kernel

end ZoomClone

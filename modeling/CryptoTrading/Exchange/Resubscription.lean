import CryptoTrading.Exchange.WebSocketService

/-!
# No active subscription is lost

A subscription is active from the first access of `subscribe` on, and the exchange feeds its
channel only after it has come over the present connection.  Connections come and go, and calls of
`subscribe` and `unsubscribe` run while a thread resubscribes.

An active channel is fed, or a resubscription or a call still owes it, from the moment on at which
the present connection has looked up what is active (`Covered`).  So a connection that serves, after
the authentication where it needs one, feeds every active channel that no call owes (`active_fed`).
-/

namespace CryptoTrading.Exchange

open CryptoTrading.Lib

/-! ## §1 What is owed -/

/-- The socket that a thread has in `_connections`. -/
def ConnectionThread.current : ConnectionThread → Option ℕ
  | .idle => none
  | .cleared => none
  | .running socket callback => if callback = .closed then none else some socket

/-- The callbacks that come after `_connection_events` is set. -/
def Callback.HasOpened : Callback → Prop
  | .connecting => False
  | .opening => False
  | .closed => False
  | _ => True

/-- A connection that cannot have been authenticated yet. -/
def ConnectionThread.IsFresh : ConnectionThread → Prop
  | .idle => False
  | .cleared => True
  | .running _ callback => callback = .connecting ∨ callback = .opening ∨ callback = .opened

/-- A resubscription has still to send a channel. -/
def ConnectionThread.Owes (visibility : SubscriptionVisibility) (k : String) :
    ConnectionThread → Prop
  | .running _ (.resubscribing _ subs) => ∃ b ∈ subs, b.visibility = visibility ∧ b.key = k
  | _ => False

/-- A call has still to send a channel that it has made active. -/
def ServiceCall.Owes (k : String) : ServiceCall → Prop
  | .waitingForConnection builder => builder.key = k
  | .waitingForAuth builder => builder.key = k
  | .sending builder => builder.key = k
  | _ => False

namespace WebSocketService

variable {s s' : WebSocketService} {v : SubscriptionVisibility} {k : String}

def CallOwes (s : WebSocketService) (k : String) : Prop := ∃ call ∈ s.calls, call.Owes k

def Owed (s : WebSocketService) (v : SubscriptionVisibility) (k : String) : Prop :=
  (s.threads v).Owes v k ∨ s.CallOwes k

/-- The present connection has looked up what is active, after the authentication where it needs
    one. -/
def InForce (s : WebSocketService) (v : SubscriptionVisibility) (socket : ℕ) : Prop :=
  (s.threads v = .running socket .serving ∧ (v = .private → s.authEvent = true)) ∨
    ∃ handler subs, s.threads v = .running socket (.resubscribing handler subs)

/-- How the events and the handler of a visibility fit its thread.

    The connection is the socket that the thread runs; the connection event is set as soon as the
    socket has opened; the authentication event is not set before an authentication could have been
    answered; and a resubscription sends over the socket that it runs on. -/
structure Wired (s : WebSocketService) (v : SubscriptionVisibility) : Prop where
  connection : s.connections v = (s.threads v).current
  event : ∀ socket callback, s.threads v = .running socket callback → callback.HasOpened →
    s.connectionEvents v = true
  auth : v = .private → (s.threads v).IsFresh → s.authEvent = false
  handler : ∀ socket handler subs, s.threads v = .running socket (.resubscribing handler subs) →
    handler = some socket
  socket : ∀ socket callback, s.threads v = .running socket callback →
    ∃ c : Socket, s.sockets[socket]? = some c ∧ c.visibility = v

/-- What is active for a visibility is fed or owed.

    This is the invariant behind all that follows: a connection in force has looked up what is
    active, and whatever has become active since is owed by the call that made it so. -/
def Covered (s : WebSocketService) (v : SubscriptionVisibility) : Prop :=
  ∀ (k : String) (socket : ℕ) (c : Socket) (b : WebSocketBuilder), s.InForce v socket →
    s.sockets[socket]? = some c → c.isOpen = true → s.activeSubscriptions.get? k = some b →
    b.visibility = v → k ∈ c.channels ∨ s.Owed v k

/-! ## §2 Actions of one visibility -/

theorem getElem?_modifySocket (s : WebSocketService) (socket : ℕ) (f : Socket → Socket) :
    (s.modifySocket socket f).sockets[socket]? = s.sockets[socket]?.map f := by
  simp [modifySocket]

theorem getElem?_modifySocket_of_ne (s : WebSocketService) {socket i : ℕ} (f : Socket → Socket)
    (h : socket ≠ i) : (s.modifySocket socket f).sockets[i]? = s.sockets[i]? := by
  simp [modifySocket, h]

/-- What a step of one visibility leaves as it is: the thread, the connection, the events and the
    sockets of the other one, what is active, and the calls. -/
structure ActsOn (v : SubscriptionVisibility) (s s' : WebSocketService) : Prop where
  threads : ∀ w, w ≠ v → s'.threads w = s.threads w
  connections : ∀ w, w ≠ v → s'.connections w = s.connections w
  connectionEvents : ∀ w, w ≠ v → s'.connectionEvents w = s.connectionEvents w
  authEvent : v = .public → s'.authEvent = s.authEvent
  active : s'.activeSubscriptions = s.activeSubscriptions
  calls : s'.calls = s.calls
  sockets : ∀ (i : ℕ) (c : Socket), s.sockets[i]? = some c →
    ∃ c' : Socket, s'.sockets[i]? = some c' ∧ c'.visibility = c.visibility ∧
      (c.visibility ≠ v → c' = c)

namespace ActsOn

theorem refl (v : SubscriptionVisibility) (s : WebSocketService) : ActsOn v s s :=
  ⟨fun _ _ => rfl, fun _ _ => rfl, fun _ _ => rfl, fun _ => rfl, rfl, rfl,
    fun _ c h => ⟨c, h, rfl, fun _ => rfl⟩⟩

theorem trans {s₁ s₂ s₃ : WebSocketService} (h : ActsOn v s₁ s₂)
    (h' : ActsOn v s₂ s₃) : ActsOn v s₁ s₃ where
  threads w hw := (h'.threads w hw).trans (h.threads w hw)
  connections w hw := (h'.connections w hw).trans (h.connections w hw)
  connectionEvents w hw := (h'.connectionEvents w hw).trans (h.connectionEvents w hw)
  authEvent hv := (h'.authEvent hv).trans (h.authEvent hv)
  active := h'.active.trans h.active
  calls := h'.calls.trans h.calls
  sockets i c hc := by
    obtain ⟨c₂, hc₂, hvis, hsame⟩ := h.sockets i c hc
    obtain ⟨c₃, hc₃, hvis', hsame'⟩ := h'.sockets i c₂ hc₂
    refine ⟨c₃, hc₃, hvis'.trans hvis, fun hne => ?_⟩
    rw [hsame' (by rwa [hvis]), hsame hne]

theorem setThread (s : WebSocketService) (thread : ConnectionThread) :
    ActsOn v s (s.setThread v thread) :=
  { refl v s with threads := fun _ hw => Function.update_of_ne hw _ _ }

theorem setConnection (s : WebSocketService) (connection : Option ℕ) :
    ActsOn v s (s.setConnection v connection) :=
  { refl v s with connections := fun _ hw => Function.update_of_ne hw _ _ }

theorem setConnectionEvent (s : WebSocketService) (isSet : Bool) :
    ActsOn v s (s.setConnectionEvent v isSet) :=
  { refl v s with connectionEvents := fun _ hw => Function.update_of_ne hw _ _ }

theorem setAuthEvent (s : WebSocketService) (isSet : Bool) :
    ActsOn v s (s.setAuthEvent v isSet) :=
  { refl v s with authEvent := fun hv => by subst hv; rfl }

theorem modifySocket {socket : ℕ} {f : Socket → Socket}
    (hf : ∀ c, (f c).visibility = c.visibility)
    (hsocket : ∀ c, s.sockets[socket]? = some c → c.visibility = v) :
    ActsOn v s (s.modifySocket socket f) :=
  { refl v s with
    sockets := by
      intro i c hc
      by_cases hi : socket = i
      · subst hi
        refine ⟨f c, ?_, hf c, fun hne => absurd (hsocket c hc) hne⟩
        rw [getElem?_modifySocket, hc]
        rfl
      · refine ⟨c, ?_, rfl, fun _ => rfl⟩
        rw [getElem?_modifySocket_of_ne s f hi, hc] }

theorem append (s : WebSocketService) (c : Socket) :
    ActsOn v s { s with sockets := s.sockets ++ [c] } :=
  { refl v s with
    sockets := by
      intro i c hc
      have hi := (List.getElem?_eq_some_iff.mp hc).1
      exact ⟨c, by rw [List.getElem?_append_left hi, hc], rfl, fun _ => rfl⟩ }

end ActsOn

/-- The sockets keep their visibility. -/
def SocketsKept (s s' : WebSocketService) : Prop :=
  ∀ (i : ℕ) (c : Socket), s.sockets[i]? = some c →
    ∃ c' : Socket, s'.sockets[i]? = some c' ∧ c'.visibility = c.visibility

namespace Wired

theorem of_same (h : s.Wired v) (hthread : s'.threads v = s.threads v)
    (hconnection : s'.connections v = s.connections v)
    (hevent : s'.connectionEvents v = s.connectionEvents v)
    (hauth : v = .private → s'.authEvent = s.authEvent) (hsockets : SocketsKept s s') :
    s'.Wired v where
  connection := by rw [hconnection, hthread, h.connection]
  event socket callback hrun hopened := by
    rw [hthread] at hrun
    rw [hevent, h.event socket callback hrun hopened]
  auth hv hfresh := by
    rw [hthread] at hfresh
    rw [hauth hv, h.auth hv hfresh]
  handler socket handler subs hrun := by
    rw [hthread] at hrun
    exact h.handler socket handler subs hrun
  socket socket callback hrun := by
    rw [hthread] at hrun
    obtain ⟨c, hc, hvis⟩ := h.socket socket callback hrun
    obtain ⟨c', hc', hvis'⟩ := hsockets socket c hc
    exact ⟨c', hc', hvis'.trans hvis⟩

/-- The actions of one visibility leave the others wired. -/
theorem of_actsOn {w : SubscriptionVisibility} (h : s.Wired v) (hacts : ActsOn w s s')
    (hne : v ≠ w) : s'.Wired v := by
  refine h.of_same (hacts.threads v hne) (hacts.connections v hne) (hacts.connectionEvents v hne)
    ?_ ?_
  · rintro rfl
    refine hacts.authEvent ?_
    cases w with
    | «public» => rfl
    | «private» => exact absurd rfl hne
  · intro i c hc
    obtain ⟨c', hc', hvis, -⟩ := hacts.sockets i c hc
    exact ⟨c', hc', hvis⟩

end Wired

/-- The actions of one visibility leave what the others carry as it is. -/
theorem Covered.of_actsOn {w : SubscriptionVisibility} (h : s.Covered v) (hwired : s.Wired v)
    (hacts : ActsOn w s s') (hne : v ≠ w) : s'.Covered v := by
  intro k socket c' b hforce hc' hopen hactive hb
  have hauth : v = .private → s'.authEvent = s.authEvent := by
    rintro rfl
    refine hacts.authEvent ?_
    cases w with
    | «public» => rfl
    | «private» => exact absurd rfl hne
  have hforce : s.InForce v socket := by
    rcases hforce with ⟨hrun, hset⟩ | ⟨handler, subs, hrun⟩
    · refine .inl ⟨by rw [← hacts.threads v hne, hrun], fun hv => ?_⟩
      rw [← hauth hv, hset hv]
    · exact .inr ⟨handler, subs, by rw [← hacts.threads v hne, hrun]⟩
  obtain ⟨callback, hrun⟩ : ∃ callback, s.threads v = .running socket callback := by
    rcases hforce with ⟨hrun, -⟩ | ⟨handler, subs, hrun⟩ <;> exact ⟨_, hrun⟩
  obtain ⟨c, hc, hvis⟩ := hwired.socket socket callback hrun
  obtain ⟨c'', hc'', -, hsame⟩ := hacts.sockets socket c hc
  obtain rfl : c'' = c' := Option.some.inj (hc''.symm.trans hc')
  obtain rfl := hsame (by rwa [hvis])
  rw [hacts.active] at hactive
  rcases h k socket c'' b hforce hc hopen hactive hb with hmem | hthread | hcall
  · exact .inl hmem
  · refine .inr (.inl ?_)
    rwa [hacts.threads v hne]
  · refine .inr (.inr ?_)
    rwa [CallOwes, hacts.calls]

/-! ## §3 The connection threads -/

/-- The entries of the dictionary are under their keys. -/
def Keyed (s : WebSocketService) : Prop :=
  ∀ k b, s.activeSubscriptions.get? k = some b → b.key = k

@[simp] theorem threads_setThread (s : WebSocketService) (thread : ConnectionThread) :
    (s.setThread v thread).threads v = thread := Function.update_self _ _ _

/-- A socket after a message on it or on another. -/
theorem of_getElem?_send {s : WebSocketService} {handler : Option ℕ} {frame : Frame} {i : ℕ}
    {c' : Socket} (h : (s.send handler frame).sockets[i]? = some c') :
    ∃ c, s.sockets[i]? = some c ∧
      ((handler = some i ∧ c' = c.send frame) ∨ (handler ≠ some i ∧ c' = c)) := by
  cases handler with
  | none => exact ⟨c', h, .inr ⟨by simp, rfl⟩⟩
  | some socket =>
    by_cases hi : socket = i
    · subst hi
      change (s.modifySocket socket (·.send frame)).sockets[socket]? = some c' at h
      rw [getElem?_modifySocket, Option.map_eq_some_iff] at h
      obtain ⟨c, hc, rfl⟩ := h
      exact ⟨c, hc, .inl ⟨rfl, rfl⟩⟩
    · change (s.modifySocket socket (·.send frame)).sockets[i]? = some c' at h
      rw [getElem?_modifySocket_of_ne _ _ hi] at h
      exact ⟨c', h, .inr ⟨by simpa using hi, rfl⟩⟩

/-- A message keeps a socket open or closed, and what it feeds unless it is an `unsubscribe`. -/
theorem kept_of_send {handler : Option ℕ} {frame : Frame} {i : ℕ} {c' : Socket}
    (h : (s.send handler frame).sockets[i]? = some c') :
    ∃ c, s.sockets[i]? = some c ∧ c.isOpen = c'.isOpen ∧
      ∀ k, frame ≠ .unsubscribe k → k ∈ c.channels → k ∈ c'.channels := by
  obtain ⟨c, hc, ⟨-, rfl⟩ | ⟨-, rfl⟩⟩ := of_getElem?_send h
  · exact ⟨c, hc, (c.isOpen_send frame).symm, fun k hk hmem => c.mem_channels_send hmem hk⟩
  · exact ⟨c', hc, rfl, fun _ _ hmem => hmem⟩

theorem socketsKept_send (s : WebSocketService) (handler : Option ℕ) (frame : Frame) :
    SocketsKept s (s.send handler frame) := by
  intro i c hc
  cases handler with
  | none => exact ⟨c, hc, rfl⟩
  | some socket =>
    by_cases hi : socket = i
    · subst hi
      refine ⟨c.send frame, ?_, c.visibility_send frame⟩
      show (s.modifySocket socket (·.send frame)).sockets[socket]? = _
      rw [getElem?_modifySocket, hc]
      rfl
    · refine ⟨c, ?_, rfl⟩
      show (s.modifySocket socket (·.send frame)).sockets[i]? = _
      rw [getElem?_modifySocket_of_ne _ _ hi, hc]

theorem actsOn_send {handler : Option ℕ} (frame : Frame)
    (h : ∀ i c, handler = some i → s.sockets[i]? = some c → c.visibility = v) :
    ActsOn v s (s.send handler frame) := by
  cases handler with
  | none => exact ActsOn.refl v s
  | some socket =>
    exact ActsOn.modifySocket (fun c => c.visibility_send frame) fun c hc => h socket c rfl hc

namespace Wired

variable {socket : ℕ} {callback : Callback}

theorem connection_eq (h : s.Wired v) (hrun : s.threads v = .running socket callback)
    (hclosed : callback ≠ .closed) : s.connections v = some socket := by
  rw [h.connection, hrun, ConnectionThread.current, if_neg hclosed]

theorem visibility_eq (h : s.Wired v) (hrun : s.threads v = .running socket callback)
    {c : Socket} (hc : s.sockets[socket]? = some c) : c.visibility = v := by
  obtain ⟨c', hc', hvis⟩ := h.socket socket callback hrun
  obtain rfl : c = c' := Option.some.inj (hc.symm.trans hc')
  exact hvis

/-- A message on the connection of a visibility. -/
theorem actsOn_send (h : s.Wired v) (hrun : s.threads v = .running socket callback)
    (frame : Frame) : ActsOn v s (s.send (some socket) frame) :=
  WebSocketService.actsOn_send frame fun _ _ hi hc =>
    h.visibility_eq hrun (by rwa [Option.some.inj hi])

theorem of_running (hthread : s.threads v = .running socket callback)
    (hclosed : callback ≠ .closed) (hconnection : s.connections v = some socket)
    (hevent : callback.HasOpened → s.connectionEvents v = true)
    (hauth : v = .private → (ConnectionThread.running socket callback).IsFresh →
      s.authEvent = false)
    (hhandler : ∀ handler subs, callback = .resubscribing handler subs → handler = some socket)
    (hsocket : ∃ c, s.sockets[socket]? = some c ∧ c.visibility = v) : s.Wired v where
  connection := by rw [hconnection, hthread, ConnectionThread.current, if_neg hclosed]
  event socket' callback' hrun := by
    obtain ⟨rfl, rfl⟩ := ConnectionThread.running.inj (hthread.symm.trans hrun)
    exact hevent
  auth hv := by
    rw [hthread]
    exact hauth hv
  handler socket' handler subs hrun := by
    obtain ⟨rfl, rfl⟩ := ConnectionThread.running.inj (hthread.symm.trans hrun)
    exact hhandler handler subs rfl
  socket socket' callback' hrun := by
    obtain ⟨rfl, rfl⟩ := ConnectionThread.running.inj (hthread.symm.trans hrun)
    exact hsocket

/-- A thread without a connection. -/
theorem of_not_connected (hthread : (s.threads v).current = none)
    (hconnection : s.connections v = none)
    (hauth : v = .private → s.threads v = .cleared → s.authEvent = false)
    (hsocket : ∀ socket callback, s.threads v = .running socket callback →
      ∃ c, s.sockets[socket]? = some c ∧ c.visibility = v) : s.Wired v := by
  have hclosed : ∀ socket callback, s.threads v = .running socket callback →
      callback = .closed := by
    intro socket callback hrun
    by_contra hne
    rw [hrun, ConnectionThread.current, if_neg hne] at hthread
    cases hthread
  refine ⟨hconnection.trans hthread.symm, ?_, ?_, ?_, hsocket⟩
  · intro socket callback hrun hopened
    rw [hclosed socket callback hrun] at hopened
    exact hopened.elim
  · intro hv hfresh
    cases hrun : s.threads v with
    | idle =>
      rw [hrun] at hfresh
      exact hfresh.elim
    | cleared => exact hauth hv hrun
    | running socket callback =>
      rw [hrun, hclosed socket callback hrun] at hfresh
      rcases hfresh with h | h | h <;> cases h
  · intro socket handler subs hrun
    cases hclosed socket _ hrun

end Wired

/-- A thread that is not in force carries nothing yet. -/
theorem covered_of_not_inForce (h : ∀ socket, ¬ s.InForce v socket) : s.Covered v :=
  fun _ socket _ _ hforce => absurd hforce (h socket)

theorem not_inForce_of_thread {socket : ℕ}
    (hserving : ∀ socket', s.threads v ≠ .running socket' .serving)
    (hresubscribing : ∀ socket' handler subs,
      s.threads v ≠ .running socket' (.resubscribing handler subs)) : ¬ s.InForce v socket := by
  rintro (⟨hrun, -⟩ | ⟨handler, subs, hrun⟩)
  · exact hserving socket hrun
  · exact hresubscribing socket handler subs hrun

/-- An action of one visibility that keeps what holds of it.

    With `Wired.of_actsOn` and `Covered.of_actsOn`, which say that the other visibility is left
    alone, such an action keeps what holds of the service. -/
structure Advances (v : SubscriptionVisibility) (s s' : WebSocketService) : Prop where
  actsOn : ActsOn v s s'
  wired : s'.Wired v
  covered : s'.Covered v

section Threads

variable {socket : ℕ} {callback : Callback}

theorem Advances.refl (hwired : s.Wired v) (hcovered : s.Covered v) : Advances v s s :=
  ⟨ActsOn.refl v s, hwired, hcovered⟩

/-- The lookup of what is active owes all of it. -/
theorem advances_resubscribeActive (hkeyed : s.Keyed) (hwired : s.Wired v)
    (hrun : s.threads v = .running socket callback) (hopened : callback.HasOpened) :
    Advances v s (s.resubscribeActive v socket) := by
  have hclosed : callback ≠ .closed := by
    rintro rfl
    exact hopened
  refine ⟨ActsOn.setThread s _, ?_, ?_⟩
  · refine Wired.of_running (threads_setThread s _) Callback.noConfusion
      (hwired.connection_eq hrun hclosed) (fun _ => hwired.event socket callback hrun hopened)
      ?_ ?_ (hwired.socket socket callback hrun)
    · rintro - (h | h | h) <;> cases h
    · intro handler subs heq
      rw [← (Callback.resubscribing.inj heq).1]
      exact hwired.connection_eq hrun hclosed
  · intro k socket' c b _ _ _ hactive hb
    refine .inr (.inl ?_)
    rw [resubscribeActive, threads_setThread]
    exact ⟨b, (Dict.mem_values_iff _ b).mpr ⟨k, hactive⟩, hb, hkeyed k b hactive⟩

/-- Sending the next channel of a resubscription keeps what the socket carries, and adds the
    channel if it is of the visibility. -/
theorem socket_of_resend {builder : WebSocketBuilder} {c' : Socket} (hopen : c'.isOpen = true)
    (hget : (if builder.visibility = v then s.send (some socket) (.subscribe builder.key)
      else s).sockets[socket]? = some c') :
    ∃ c, s.sockets[socket]? = some c ∧ c.isOpen = true ∧
      (∀ k, k ∈ c.channels → k ∈ c'.channels) ∧
      (builder.visibility = v → builder.key ∈ c'.channels) := by
  split at hget
  · obtain ⟨c, hc, ⟨-, rfl⟩ | ⟨hne, -⟩⟩ := of_getElem?_send hget
    · have hopen₀ : c.isOpen = true := by rwa [c.isOpen_send] at hopen
      exact ⟨c, hc, hopen₀, fun k hmem => c.mem_channels_send hmem Frame.noConfusion,
        fun _ => c.mem_channels_send_subscribe hopen₀ _⟩
    · exact absurd rfl hne
  · rename_i hvis
    exact ⟨c', hget, hopen, fun _ hmem => hmem, fun h => absurd h hvis⟩

/-- A resubscription sends the next channel, which is carried from then on; the others it owes are
    still to be sent. -/
theorem advances_resend {handler : Option ℕ} {builder : WebSocketBuilder}
    {subs : List WebSocketBuilder} (hwired : s.Wired v) (hcovered : s.Covered v)
    (hrun : s.threads v = .running socket (.resubscribing handler (builder :: subs))) :
    Advances v s ((if builder.visibility = v then s.send handler (.subscribe builder.key)
      else s).setThread v (.running socket (.resubscribing handler subs))) := by
  obtain rfl := hwired.handler _ _ _ hrun
  set sent := if builder.visibility = v then s.send (some socket) (.subscribe builder.key) else s
    with hsent
  have hacts : ActsOn v s sent := by
    rw [hsent]
    split
    · exact hwired.actsOn_send hrun _
    · exact ActsOn.refl v s
  have hevents : sent.connectionEvents = s.connectionEvents ∧ sent.connections = s.connections := by
    rw [hsent]
    split <;> exact ⟨rfl, rfl⟩
  refine ⟨hacts.trans (ActsOn.setThread _ _), ?_, ?_⟩
  · have hconnection : sent.connections v = some socket := by
      rw [hevents.2]
      exact hwired.connection_eq hrun Callback.noConfusion
    refine Wired.of_running (threads_setThread _ _) Callback.noConfusion hconnection ?_ ?_ ?_ ?_
    · intro _
      show sent.connectionEvents v = true
      rw [hevents.1]
      exact hwired.event socket _ hrun trivial
    · rintro - (h | h | h) <;> cases h
    · intro handler subs' heq
      exact (Callback.resubscribing.inj heq).1.symm
    · obtain ⟨c, hc, hvis⟩ := hwired.socket socket _ hrun
      obtain ⟨c', hc', hvis', -⟩ := hacts.sockets socket c hc
      exact ⟨c', hc', hvis'.trans hvis⟩
  · intro k socket' c' b hforce hc' hopen hactive hb
    obtain rfl : socket' = socket := by
      rcases hforce with ⟨h, -⟩ | ⟨_, _, h⟩ <;> rw [threads_setThread] at h <;> cases h
      rfl
    have hactive₀ : s.activeSubscriptions.get? k = some b := by rwa [← hacts.active]
    obtain ⟨c, hc, hopen₀, hmono, hnew⟩ := socket_of_resend hopen hc'
    rcases hcovered k socket' c b (.inr ⟨_, _, hrun⟩) hc hopen₀ hactive₀ hb with
      hmem | hthread | hcall
    · exact .inl (hmono k hmem)
    · -- the channel is the one that is sent, or stays among those to be sent
      rw [hrun] at hthread
      obtain ⟨b', hb', hvis, hkey⟩ := hthread
      rcases List.mem_cons.mp hb' with rfl | hb'
      · exact .inl (hkey ▸ hnew hvis)
      · refine .inr (.inl ?_)
        rw [threads_setThread]
        exact ⟨b', hb', hvis, hkey⟩
    · refine .inr (.inr ?_)
      rwa [CallOwes, ← hacts.calls] at hcall

/-- A thread that neither serves nor resubscribes carries nothing. -/
theorem covered_setThread {t : WebSocketService} {thread : ConnectionThread}
    (hserving : ∀ socket, thread ≠ .running socket .serving)
    (hresubscribing : ∀ socket handler subs,
      thread ≠ .running socket (.resubscribing handler subs)) :
    (t.setThread v thread).Covered v := by
  refine covered_of_not_inForce fun socket => not_inForce_of_thread ?_ ?_ <;>
    rw [threads_setThread]
  · exact hserving
  · exact hresubscribing

/-- A thread goes on to a callback in which its connection is not in force.

    What the access has to leave behind is that the socket is the connection of its visibility,
    that the connection event is set once the socket has opened, and that the authentication event
    is not set before the authentication. -/
theorem advances_goesOn {t : WebSocketService} (hacts : ActsOn v s t) (hclosed : callback ≠ .closed)
    (hconnection : t.connections v = some socket)
    (hevent : callback.HasOpened → t.connectionEvents v = true)
    (hauth : v = .private → (ConnectionThread.running socket callback).IsFresh →
      t.authEvent = false)
    (hsocket : ∃ c, t.sockets[socket]? = some c ∧ c.visibility = v) (hserving : callback ≠ .serving)
    (hresubscribing : ∀ handler subs, callback ≠ .resubscribing handler subs) :
    Advances v s (t.setThread v (.running socket callback)) := by
  refine ⟨hacts.trans (ActsOn.setThread _ _), ?_, ?_⟩
  · refine Wired.of_running (threads_setThread _ _) hclosed hconnection hevent hauth ?_ hsocket
    intro handler subs heq
    exact absurd heq (hresubscribing handler subs)
  · refine covered_setThread ?_ ?_
    · intro socket' heq
      exact hserving (ConnectionThread.running.inj heq).2
    · intro socket' handler subs heq
      exact hresubscribing handler subs (ConnectionThread.running.inj heq).2

/-- At the top of its loop the thread clears the events. -/
theorem advances_clear (hwired : s.Wired v) (hrun : s.threads v = .idle) :
    Advances v s (s.stepThread v) := by
  simp only [stepThread, hrun]
  refine ⟨((ActsOn.setConnectionEvent s false).trans (ActsOn.setAuthEvent _ false)).trans
    (ActsOn.setThread _ _), ?_, ?_⟩
  · refine Wired.of_not_connected (by rw [threads_setThread]; rfl) ?_ ?_ ?_
    · show s.connections v = none
      rw [hwired.connection, hrun]
      rfl
    · rintro rfl -
      rfl
    · intro socket callback h
      rw [threads_setThread] at h
      cases h
  · exact covered_setThread (fun _ => ConnectionThread.noConfusion)
      fun _ _ _ => ConnectionThread.noConfusion

/-- The thread makes a new socket and puts it into the connections. -/
theorem advances_connect (hwired : s.Wired v) (hrun : s.threads v = .cleared) :
    Advances v s (s.stepThread v) := by
  simp only [stepThread, hrun]
  refine advances_goesOn ((ActsOn.append s _).trans (ActsOn.setConnection _ _))
    Callback.noConfusion (Function.update_self _ _ _) False.elim ?_ ?_ Callback.noConfusion
    fun _ _ => Callback.noConfusion
  · -- the events were cleared, and nobody has authenticated since
    intro hv _
    exact hwired.auth hv (by rw [hrun]; trivial)
  · exact ⟨_, List.getElem?_concat_length, rfl⟩

/-- `_handle_open` sets the connection event. -/
theorem advances_announce (hwired : s.Wired v) (hrun : s.threads v = .running socket .opening) :
    Advances v s (s.stepThread v) := by
  simp only [stepThread, hrun]
  refine advances_goesOn (ActsOn.setConnectionEvent s true) Callback.noConfusion
    (hwired.connection_eq hrun Callback.noConfusion) (fun _ => Function.update_self _ _ _) ?_
    (hwired.socket socket _ hrun) Callback.noConfusion fun _ _ => Callback.noConfusion
  intro hv _
  exact hwired.auth hv (by rw [hrun]; exact .inr (.inl rfl))

/-- `_handle_open` of the private connection asks for the authentication.  The thread serves from
    here on, but its connection is not in force before the answer. -/
theorem advances_authenticate (hwired : s.Wired .private)
    (hrun : s.threads .private = .running socket .opened) :
    Advances .private s (s.stepThread .private) := by
  simp only [stepThread, hrun]
  have hconnection := hwired.connection_eq hrun Callback.noConfusion
  have hauth := hwired.auth rfl (by rw [hrun]; exact .inr (.inr rfl))
  rw [hconnection]
  have hacts := hwired.actsOn_send hrun .auth
  refine ⟨hacts.trans (ActsOn.setThread _ _), ?_, ?_⟩
  · refine Wired.of_running (threads_setThread _ _) Callback.noConfusion hconnection
      (fun _ => hwired.event socket _ hrun trivial) ?_ (fun _ _ h => by cases h) ?_
    · rintro - (h | h | h) <;> cases h
    · obtain ⟨c, hc, hvis⟩ := hwired.socket socket _ hrun
      obtain ⟨c', hc', hvis', -⟩ := hacts.sockets socket c hc
      exact ⟨c', hc', hvis'.trans hvis⟩
  · refine covered_of_not_inForce fun socket' => ?_
    rintro (⟨-, hset⟩ | ⟨handler, subs, h⟩)
    · -- in force while serving would mean that the event is set already
      have htrue : s.authEvent = true := hset rfl
      rw [hauth] at htrue
      cases htrue
    · rw [threads_setThread] at h
      cases h

/-- `inject_message` sets the authentication event. -/
theorem advances_accept (hwired : s.Wired v) (hrun : s.threads v = .running socket .answered) :
    Advances v s (s.stepThread v) := by
  simp only [stepThread, hrun]
  refine advances_goesOn (ActsOn.setAuthEvent s true) Callback.noConfusion
    (hwired.connection_eq hrun Callback.noConfusion) (fun _ => hwired.event socket _ hrun trivial)
    ?_ (hwired.socket socket _ hrun) Callback.noConfusion fun _ _ => Callback.noConfusion
  rintro - (h | h | h) <;> cases h

/-- The loop of `_resubscribe_active` is over: all that it owed is carried. -/
theorem advances_resubscribed (hwired : s.Wired v) (hcovered : s.Covered v) {handler : Option ℕ}
    (hrun : s.threads v = .running socket (.resubscribing handler [])) :
    Advances v s (s.stepThread v) := by
  simp only [stepThread, hrun]
  refine ⟨ActsOn.setThread s _, ?_, ?_⟩
  · refine Wired.of_running (threads_setThread _ _) Callback.noConfusion
      (hwired.connection_eq hrun Callback.noConfusion)
      (fun _ => hwired.event socket _ hrun trivial) ?_ (fun _ _ h => by cases h)
      (hwired.socket socket _ hrun)
    rintro - (h | h | h) <;> cases h
  · intro k socket' c b hforce hc hopen hactive hb
    obtain rfl : socket' = socket := by
      rcases hforce with ⟨h, -⟩ | ⟨_, _, h⟩ <;> rw [threads_setThread] at h <;> cases h
      rfl
    rcases hcovered k socket' c b (.inr ⟨_, _, hrun⟩) hc hopen hactive hb with
      hmem | hthread | hcall
    · exact .inl hmem
    · -- the thread has nothing left to send
      rw [hrun] at hthread
      obtain ⟨b', hb', -⟩ := hthread
      cases hb'
    · exact .inr (.inr hcall)

/-- **An access of a connection thread keeps what holds of its visibility.** -/
theorem advances_stepThread (hkeyed : s.Keyed) (hwired : s.Wired v) (hcovered : s.Covered v) :
    Advances v s (s.stepThread v) := by
  cases hrun : s.threads v with
  | idle => exact advances_clear hwired hrun
  | cleared => exact advances_connect hwired hrun
  | running socket callback =>
    cases callback with
    | opening => exact advances_announce hwired hrun
    | opened =>
      cases v with
      | «public» =>
        simp only [stepThread, hrun]
        exact advances_resubscribeActive hkeyed hwired hrun trivial
      | «private» => exact advances_authenticate hwired hrun
    | answered => exact advances_accept hwired hrun
    | authenticated =>
      simp only [stepThread, hrun]
      exact advances_resubscribeActive hkeyed hwired hrun trivial
    | resubscribing handler subs =>
      cases subs with
      | nil => exact advances_resubscribed hwired hcovered hrun
      | cons builder subs =>
        simp only [stepThread, hrun]
        exact advances_resend hwired hcovered hrun
    | connecting | serving | closed =>
      -- the thread waits for its socket, or for `run_forever` to return
      simp only [stepThread, hrun]
      exact Advances.refl hwired hcovered

end Threads

/-! ## §4 The network and its messages -/

section Network

variable {socket : ℕ} {callback : Callback}

/-- A socket ends: its connection is taken out. -/
theorem advances_disconnect (hwired : s.Wired v) (hrun : s.threads v = .running socket callback)
    {t : WebSocketService} (hacts : ActsOn v (s.modifySocket socket Socket.closed) t)
    (hconnection : t.connections v = none) {thread : ConnectionThread}
    (hthread : thread = .idle ∨ thread = .running socket .closed) :
    Advances v s (t.setThread v thread) := by
  have hclose : ActsOn v s (s.modifySocket socket Socket.closed) :=
    ActsOn.modifySocket (fun _ => rfl) fun _ hc => hwired.visibility_eq hrun hc
  refine ⟨(hclose.trans hacts).trans (ActsOn.setThread _ _), ?_, ?_⟩
  · refine Wired.of_not_connected ?_ hconnection ?_ ?_
    · rw [threads_setThread]
      rcases hthread with rfl | rfl <;> rfl
    · rintro - hcleared
      rw [threads_setThread] at hcleared
      rcases hthread with rfl | rfl <;> cases hcleared
    · intro socket' callback' hrun'
      rw [threads_setThread] at hrun'
      obtain rfl : socket = socket' := by
        rcases hthread with rfl | rfl <;> cases hrun'
        rfl
      obtain ⟨c, hc, hvis⟩ := hwired.socket socket callback hrun
      obtain ⟨c', hc', hvis', -⟩ := (hclose.trans hacts).sockets socket c hc
      exact ⟨c', hc', hvis'.trans hvis⟩
  · rcases hthread with rfl | rfl <;> exact covered_setThread (by simp) (by simp)

/-- A callback begins in which the connection is not in force. -/
theorem advances_enter (hwired : s.Wired v) (hrun : s.threads v = .running socket callback)
    (hclosed : callback ≠ .closed) {f : Socket → Socket}
    (hf : ∀ c, (f c).visibility = c.visibility) {callback' : Callback}
    (hcallback : callback' = .opening ∨ callback' = .answered)
    (hevent : callback' = .answered → callback.HasOpened)
    (hauth : callback' = .opening → callback = .connecting) :
    Advances v s ((s.modifySocket socket f).setThread v (.running socket callback')) := by
  have hacts : ActsOn v s (s.modifySocket socket f) :=
    ActsOn.modifySocket hf fun _ hc => hwired.visibility_eq hrun hc
  refine advances_goesOn hacts ?_ (hwired.connection_eq hrun hclosed) ?_ ?_ ?_ ?_ ?_
  · rcases hcallback with rfl | rfl <;> exact Callback.noConfusion
  · intro hopened
    rcases hcallback with rfl | rfl
    · exact hopened.elim
    · exact hwired.event socket callback hrun (hevent rfl)
  · intro hv hfresh
    rcases hcallback with rfl | rfl
    · exact hwired.auth hv (by rw [hrun]; exact .inl (hauth rfl))
    · rcases hfresh with h | h | h <;> cases h
  · obtain ⟨c, hc, hvis⟩ := hwired.socket socket callback hrun
    obtain ⟨c', hc', hvis', -⟩ := hacts.sockets socket c hc
    exact ⟨c', hc', hvis'.trans hvis⟩
  · rcases hcallback with rfl | rfl <;> exact Callback.noConfusion
  · rcases hcallback with rfl | rfl <;> exact fun _ _ => Callback.noConfusion

theorem advances_opens (hwired : s.Wired v) (hcovered : s.Covered v) :
    Advances v s (s.step (.opens v)) := by
  simp only [step]
  split
  · rename_i socket hrun
    have hf : ∀ c : Socket, c.opened.visibility = c.visibility := fun _ => rfl
    exact advances_enter hwired hrun Callback.noConfusion hf (.inl rfl) (fun h => by cases h)
      fun _ => rfl
  · exact Advances.refl hwired hcovered

theorem advances_authResponse (hwired : s.Wired v) (hcovered : s.Covered v) (code : ℤ) :
    Advances v s (s.step (.authResponse v code)) := by
  simp only [step]
  split
  · rename_i socket hrun
    split
    · have hf : ∀ c : Socket, c.accept.visibility = c.visibility := fun _ => rfl
      exact advances_enter hwired hrun Callback.noConfusion hf (.inr rfl) (fun _ => trivial)
        fun h => by cases h
    · exact Advances.refl hwired hcovered
  · exact Advances.refl hwired hcovered

theorem advances_heartbeat (hwired : s.Wired v) (hcovered : s.Covered v) :
    Advances v s (s.step (.heartbeat v)) := by
  simp only [step]
  split
  · rename_i socket hrun
    rw [hwired.connection_eq hrun Callback.noConfusion]
    have hacts := hwired.actsOn_send hrun .respondHeartbeat
    refine ⟨hacts, hwired.of_same rfl rfl rfl (fun _ => rfl) (socketsKept_send s _ _), ?_⟩
    intro k socket' c' b hforce hc' hopen hactive hb
    obtain ⟨c, hc, hopen₀, hmono⟩ := kept_of_send hc'
    rcases hcovered k socket' c b hforce hc (hopen₀.trans hopen) hactive hb with hmem | howed
    · exact .inl (hmono k Frame.noConfusion hmem)
    · exact .inr howed
  · exact Advances.refl hwired hcovered

theorem advances_closes (hwired : s.Wired v) (hcovered : s.Covered v) :
    Advances v s (s.step (.closes v)) := by
  have hacts : ∀ socket, ActsOn v (s.modifySocket socket Socket.closed)
      (((s.modifySocket socket Socket.closed).setAuthEvent v false).setConnection v none) :=
    fun socket => (ActsOn.setAuthEvent _ _).trans (ActsOn.setConnection _ _)
  simp only [step]
  split
  · rename_i socket hrun
    exact advances_disconnect hwired hrun (hacts socket) (Function.update_self _ _ _) (.inr rfl)
  · rename_i socket hrun
    exact advances_disconnect hwired hrun (hacts socket) (Function.update_self _ _ _) (.inr rfl)
  · exact Advances.refl hwired hcovered

theorem advances_ends (hwired : s.Wired v) (hcovered : s.Covered v) :
    Advances v s (s.step (.ends v)) := by
  have hends : ∀ {socket callback}, s.threads v = .running socket callback →
      Advances v s (((s.modifySocket socket Socket.closed).setConnection v none).setThread v
        .idle) :=
    fun hrun => advances_disconnect hwired hrun (ActsOn.setConnection _ _)
      (Function.update_self _ _ _) (.inl rfl)
  simp only [step]
  split
  · exact hends ‹_›
  · exact hends ‹_›
  · exact hends ‹_›
  · exact Advances.refl hwired hcovered

/-- A socket that the network closes. -/
theorem drop_keeps (hwired : s.Wired v) (hcovered : s.Covered v) (socket : ℕ) :
    (s.step (.drop socket)).Wired v ∧ (s.step (.drop socket)).Covered v := by
  constructor
  · refine hwired.of_same rfl rfl rfl (fun _ => rfl) fun i c hc => ?_
    by_cases hi : socket = i
    · subst hi
      exact ⟨c.closed, by rw [step, getElem?_modifySocket, hc]; rfl, rfl⟩
    · exact ⟨c, by rw [step, getElem?_modifySocket_of_ne _ _ hi, hc], rfl⟩
  · intro k i c' b hforce hc' hopen hactive hb
    by_cases hi : socket = i
    · subst hi
      rw [step, getElem?_modifySocket, Option.map_eq_some_iff] at hc'
      obtain ⟨c, -, rfl⟩ := hc'
      cases hopen
    · rw [step, getElem?_modifySocket_of_ne _ _ hi] at hc'
      exact hcovered k i c' b hforce hc' hopen hactive hb

end Network

/-! ## §5 The calls -/

section Calls

variable {i : ℕ} {old new : ServiceCall}

theorem callOwes_setCall (h : s.calls[i]? = some old) (hnew : old.Owes k → new.Owes k)
    (howes : s.CallOwes k) : (s.setCall i new).CallOwes k := by
  obtain ⟨call, hcall, hk⟩ := howes
  obtain ⟨j, hj, hget⟩ := List.getElem_of_mem hcall
  by_cases hij : i = j
  · subst hij
    obtain rfl : old = call := by
      rw [List.getElem?_eq_getElem hj, hget] at h
      exact (Option.some.inj h).symm
    exact ⟨new, List.mem_set hj new, hnew hk⟩
  · refine ⟨call, ?_, hk⟩
    have hset : (s.calls.set i new)[j]? = some call := by
      rw [List.getElem?_set_ne hij, List.getElem?_eq_getElem hj, hget]
    exact List.mem_of_getElem? hset

/-- What one call owes is owed no more once it has returned. -/
theorem callOwes_returned (h : s.calls[i]? = some old) (howes : s.CallOwes k) :
    (s.setCall i .returned).CallOwes k ∨ old.Owes k := by
  by_cases hold : old.Owes k
  · exact .inr hold
  · exact .inl (callOwes_setCall h (fun hk => absurd hk hold) howes)

theorem of_callOwes_setCall (howes : (s.setCall i new).CallOwes k) :
    s.CallOwes k ∨ new.Owes k := by
  obtain ⟨call, hcall, hk⟩ := howes
  rcases List.mem_or_eq_of_mem_set hcall with hcall | rfl
  · exact .inl ⟨call, hcall, hk⟩
  · exact .inr hk

/-- What holds of the service at any time. -/
structure Sound (s : WebSocketService) : Prop where
  keyed : s.Keyed
  wired : ∀ v, s.Wired v
  covered : ∀ v, s.Covered v

theorem InForce.connection_eq {socket : ℕ} (hwired : s.Wired v) (h : s.InForce v socket) :
    s.connections v = some socket ∧ s.connectionEvents v = true := by
  rcases h with ⟨hrun, -⟩ | ⟨handler, subs, hrun⟩
  · exact ⟨hwired.connection_eq hrun Callback.noConfusion, hwired.event socket _ hrun trivial⟩
  · exact ⟨hwired.connection_eq hrun Callback.noConfusion, hwired.event socket _ hrun trivial⟩

/-- A call that goes on without touching what is shared. -/
theorem sound_setCall (h : s.Sound) (hcall : s.calls[i]? = some old)
    (hnew : ∀ k, old.Owes k → new.Owes k) : (s.setCall i new).Sound where
  keyed := h.keyed
  wired v := (h.wired v).of_same rfl rfl rfl (fun _ => rfl) fun _ c hc => ⟨c, hc, rfl⟩
  covered v k socket c b hforce hc hopen hactive hb := by
    rcases h.covered v k socket c b hforce hc hopen hactive hb with hmem | hthread | howes
    · exact .inl hmem
    · exact .inr (.inl hthread)
    · exact .inr (.inr (callOwes_setCall hcall (hnew k) howes))

/-- `subscribe` makes its builder active. -/
theorem sound_activate {builder : WebSocketBuilder} (h : s.Sound)
    (hcall : s.calls[i]? = some (.subscribing builder)) :
    ({ s with activeSubscriptions := s.activeSubscriptions.set builder.key builder }.setCall i
      (.waitingForConnection builder)).Sound where
  keyed k b hb := by
    have hget : (s.activeSubscriptions.set builder.key builder).get? k = some b := hb
    rw [Dict.get?_set] at hget
    split at hget
    · rename_i hk
      rw [← Option.some.inj hget, hk]
    · exact h.keyed k b hget
  wired v := (h.wired v).of_same rfl rfl rfl (fun _ => rfl) fun _ c hc => ⟨c, hc, rfl⟩
  covered v k socket c b hforce hc hopen hactive hb := by
    have hget : (s.activeSubscriptions.set builder.key builder).get? k = some b := hactive
    rw [Dict.get?_set] at hget
    split at hget
    · rename_i hk
      refine .inr (.inr ?_)
      exact ⟨_, List.mem_set (List.getElem?_eq_some_iff.mp hcall).1 _, hk.symm⟩
    · rcases h.covered v k socket c b hforce hc hopen hget hb with hmem | hthread | howes
      · exact .inl hmem
      · exact .inr (.inl hthread)
      · exact .inr (.inr (callOwes_setCall hcall False.elim howes))

/-- `subscribe` sends its channel on the connection it finds. -/
theorem sound_sending {builder : WebSocketBuilder} (h : s.Sound)
    (hcall : s.calls[i]? = some (.sending builder)) :
    ((s.send (s.connections builder.visibility) (.subscribe builder.key)).setCall i
      .returned).Sound := by
  refine ⟨h.keyed, ?_, ?_⟩
  · intro v
    exact (h.wired v).of_same rfl rfl rfl (fun _ => rfl) (socketsKept_send s _ _)
  · intro v k socket c' b hforce hc' hopen hactive hb
    have hforce₀ : s.InForce v socket := hforce
    have hactive₀ : s.activeSubscriptions.get? k = some b := hactive
    obtain ⟨c, hc, hsent⟩ := of_getElem?_send hc'
    have hopen₀ : c.isOpen = true := by
      rcases hsent with ⟨-, rfl⟩ | ⟨-, rfl⟩
      · rwa [c.isOpen_send] at hopen
      · exact hopen
    rcases h.covered v k socket c b hforce₀ hc hopen₀ hactive₀ hb with hmem | hthread | howes
    · refine .inl ?_
      rcases hsent with ⟨-, rfl⟩ | ⟨-, rfl⟩
      · exact c.mem_channels_send hmem Frame.noConfusion
      · exact hmem
    · exact .inr (.inl hthread)
    · rcases callOwes_returned hcall howes with hleft | hkey
      · exact .inr (.inr hleft)
      · -- the call itself owed the channel: it goes to the connection that is in force
        have hkey : builder.key = k := hkey
        have hvis : builder.visibility = v := by
          rw [← hb]
          exact WebSocketBuilder.visibility_eq_of_key_eq (hkey.trans (h.keyed k b hactive₀).symm)
        have hconnection := (hforce₀.connection_eq (h.wired v)).1
        rcases hsent with ⟨-, rfl⟩ | ⟨hne, -⟩
        · rw [hkey]
          exact .inl (c.mem_channels_send_subscribe hopen₀ k)
        · rw [hvis, hconnection] at hne
          exact absurd rfl hne

/-- `unsubscribe` takes its channel out and off the connection it finds. -/
theorem sound_unsubscribing {builder : WebSocketBuilder} (h : s.Sound)
    (hcall : s.calls[i]? = some (.unsubscribing builder)) :
    (({ s with activeSubscriptions := s.activeSubscriptions.erase builder.key }.send
      (s.connections builder.visibility) (.unsubscribe builder.key)).setCall i
      .returned).Sound := by
  have herase : ∀ {k b}, (s.activeSubscriptions.erase builder.key).get? k = some b →
      k ≠ builder.key ∧ s.activeSubscriptions.get? k = some b := by
    intro k b hb
    rw [Dict.get?_erase] at hb
    split at hb
    · cases hb
    · exact ⟨‹_›, hb⟩
  refine ⟨?_, ?_, ?_⟩
  · intro k b hb
    exact h.keyed k b (herase hb).2
  · intro v
    exact (h.wired v).of_same rfl rfl rfl (fun _ => rfl) (socketsKept_send s _ _)
  · intro v k socket c' b hforce hc' hopen hactive hb
    have hforce₀ : s.InForce v socket := hforce
    obtain ⟨hne, hactive₀⟩ := herase hactive
    obtain ⟨c, hc, hopen₀, hmono⟩ := kept_of_send hc'
    rcases h.covered v k socket c b hforce₀ hc (hopen₀.trans hopen) hactive₀ hb with
      hmem | hthread | howes
    · exact .inl (hmono k (fun he => hne (Frame.unsubscribe.inj he).symm) hmem)
    · exact .inr (.inl hthread)
    · exact .inr (.inr (callOwes_setCall hcall False.elim howes))

/-- A call of `subscribe` that gives up leaves its channel to the next connection. -/
theorem sound_gives_up {builder : WebSocketBuilder} (h : s.Sound)
    (hcall : s.calls[i]? = some (.waitingForConnection builder))
    (hevent : s.connectionEvents builder.visibility = false) : (s.setCall i .returned).Sound where
  keyed := h.keyed
  wired v := (h.wired v).of_same rfl rfl rfl (fun _ => rfl) fun _ c hc => ⟨c, hc, rfl⟩
  covered v k socket c b hforce hc hopen hactive hb := by
    have hforce₀ : s.InForce v socket := hforce
    rcases h.covered v k socket c b hforce₀ hc hopen hactive hb with hmem | hthread | howes
    · exact .inl hmem
    · exact .inr (.inl hthread)
    · rcases callOwes_returned hcall howes with hleft | hkey
      · exact .inr (.inr hleft)
      · have hvis : builder.visibility = v := by
          rw [← hb]
          exact WebSocketBuilder.visibility_eq_of_key_eq (Eq.trans hkey (h.keyed k b hactive).symm)
        have hset := (hforce₀.connection_eq (h.wired v)).2
        rw [← hvis, hevent] at hset
        cases hset

theorem sound_stepCall (h : s.Sound) (i : ℕ) : (s.stepCall i).Sound := by
  unfold stepCall
  split
  · exact sound_activate h ‹_›
  · rename_i builder hcall
    split
    · refine sound_setCall h hcall fun k hk => ?_
      split <;> exact hk
    · exact h
  · rename_i builder hcall
    split
    · exact sound_setCall h hcall fun k hk => hk
    · exact h
  · exact sound_sending h ‹_›
  · exact sound_unsubscribing h ‹_›
  · exact h
  · exact h

theorem sound_stepTimeout (h : s.Sound) (i : ℕ) : (s.stepTimeout i).Sound := by
  unfold stepTimeout
  split
  · rename_i builder hcall
    split
    · exact h
    · rename_i hunset
      exact sound_gives_up h hcall (by simpa using hunset)
  · rename_i builder hcall
    split
    · exact h
    · exact sound_setCall h hcall fun k hk => hk
  · exact h

/-- A call begins. -/
theorem sound_call (h : s.Sound) (call : ServiceCall) :
    ({ s with calls := s.calls ++ [call] } : WebSocketService).Sound where
  keyed := h.keyed
  wired v := (h.wired v).of_same rfl rfl rfl (fun _ => rfl) fun _ c hc => ⟨c, hc, rfl⟩
  covered v k socket c b hforce hc hopen hactive hb := by
    rcases h.covered v k socket c b hforce hc hopen hactive hb with hmem | hthread | howes
    · exact .inl hmem
    · exact .inr (.inl hthread)
    · obtain ⟨old, hold, hk⟩ := howes
      exact .inr (.inr ⟨old, List.mem_append_left _ hold, hk⟩)

end Calls

/-! ## §6 Whole runs -/

theorem Sound.of_advances (h : s.Sound) (hadvances : Advances v s s') : s'.Sound where
  keyed k b hb := by
    rw [hadvances.actsOn.active] at hb
    exact h.keyed k b hb
  wired w := by
    by_cases hw : w = v
    · subst hw
      exact hadvances.wired
    · exact (h.wired w).of_actsOn hadvances.actsOn hw
  covered w := by
    by_cases hw : w = v
    · subst hw
      exact hadvances.covered
    · exact (h.covered w).of_actsOn (h.wired w) hadvances.actsOn hw

theorem sound_step (s : WebSocketService) (a : ServiceAction) (h : s.Sound) :
    (s.step a).Sound := by
  cases a with
  | thread v => exact h.of_advances (advances_stepThread h.keyed (h.wired v) (h.covered v))
  | opens v => exact h.of_advances (advances_opens (h.wired v) (h.covered v))
  | authResponse v code =>
    exact h.of_advances (advances_authResponse (h.wired v) (h.covered v) code)
  | heartbeat v => exact h.of_advances (advances_heartbeat (h.wired v) (h.covered v))
  | closes v => exact h.of_advances (advances_closes (h.wired v) (h.covered v))
  | ends v => exact h.of_advances (advances_ends (h.wired v) (h.covered v))
  | drop socket =>
    exact ⟨h.keyed, fun v => (drop_keeps (h.wired v) (h.covered v) socket).1,
      fun v => (drop_keeps (h.wired v) (h.covered v) socket).2⟩
  | subscribe builder => exact sound_call h _
  | unsubscribe builder => exact sound_call h _
  | call i => exact sound_stepCall h i
  | timeout i => exact sound_stepTimeout h i

theorem sound_connected : connected.Sound where
  keyed k b hb := by cases hb
  wired v := Wired.of_not_connected rfl rfl (fun _ _ => rfl) fun _ _ h => by cases h
  covered v := covered_of_not_inForce fun socket => not_inForce_of_thread
    (fun _ => ConnectionThread.noConfusion) fun _ _ _ => ConnectionThread.noConfusion

theorem sound_run (as : List ServiceAction) : (run step connected as).Sound :=
  run_invariant Sound sound_step sound_connected as

/-- An open connection whose thread waits for messages, authenticated where it needs to be. -/
def Serves (s : WebSocketService) (v : SubscriptionVisibility) (c : Socket) : Prop :=
  ∃ socket, s.threads v = .running socket .serving ∧ (v = .private → s.authEvent = true) ∧
    s.sockets[socket]? = some c ∧ c.isOpen = true

/-- **In any run, however often connections are lost and whatever calls run meanwhile, a connection
    that serves feeds every active channel of its visibility that no call is about to send.**

    To feed is said of the messages sent: the channel was subscribed to over this connection, after
    the authentication where one is needed, and not unsubscribed since. -/
theorem active_fed (as : List ServiceAction) {v : SubscriptionVisibility} {c : Socket}
    (hserves : (run step connected as).Serves v c) {k : String} {b : WebSocketBuilder}
    (hactive : (run step connected as).activeSubscriptions.get? k = some b)
    (hb : b.visibility = v) (howes : ¬ (run step connected as).CallOwes k) : k ∈ c.channels := by
  obtain ⟨socket, hrun, hauth, hc, hopen⟩ := hserves
  rcases (sound_run as).covered v k socket c b (.inl ⟨hrun, hauth⟩) hc hopen hactive hb with
    hmem | hthread | hcall
  · exact hmem
  · rw [hrun] at hthread
    exact hthread.elim
  · exact absurd hcall howes

/-! ## §7 A connection that is lost -/

/-- A private connection opens, and a call of `subscribe` goes as far as its wait for the
    authentication while the thread authenticates and resubscribes. -/
def firstConnection (builder : WebSocketBuilder) : List ServiceAction :=
  [.thread .private, .thread .private, .opens .private, .thread .private, .thread .private,
    .subscribe builder, .call 0, .call 0, .authResponse .private 0, .thread .private,
    .thread .private, .thread .private, .thread .private, .call 0, .call 0]

/-- The connection is lost, and the next one opens and is authenticated. -/
def nextConnection : List ServiceAction :=
  [.drop 0, .closes .private, .ends .private, .thread .private, .thread .private, .opens .private,
    .thread .private, .thread .private, .authResponse .private 0, .thread .private,
    .thread .private, .thread .private, .thread .private]

/-- The orders of an instrument are fed again after the connection was lost. -/
theorem active_fed_after_drop :
    ∃ c, (run step connected (firstConnection (.orderUpdate "BTC_USD") ++ nextConnection)).Serves
        .private c ∧ "user.order.BTC_USD" ∈ c.channels := by
  refine ⟨_, ⟨1, rfl, fun _ => rfl, rfl, rfl⟩, ?_⟩
  refine active_fed (firstConnection (.orderUpdate "BTC_USD") ++ nextConnection)
    ⟨1, rfl, fun _ => rfl, rfl, rfl⟩ (b := .orderUpdate "BTC_USD") rfl rfl ?_
  rintro ⟨call, hcall, howes⟩
  obtain rfl := List.mem_singleton.mp hcall
  exact howes

end WebSocketService

end CryptoTrading.Exchange

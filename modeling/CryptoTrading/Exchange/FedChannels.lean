import CryptoTrading.Exchange.Resubscription

/-!
# A connection feeds what is active and nothing else

A call of `unsubscribe` takes its channel out of the active subscriptions and off the connection in
one access.  When it comes between the lookup of a resubscription, or of a call of `subscribe`, and
what that one sends, the channel is fed although it is not active.

In a run without such calls (`Undisturbed`) whatever is fed or owed is active (`Wanted`), and a
connection that serves feeds the active channels of its visibility and no others
(`fed_iff_active`).
-/

namespace CryptoTrading.Exchange

open CryptoTrading.Lib

instance (visibility : SubscriptionVisibility) (k : String) :
    (thread : ConnectionThread) → Decidable (thread.Owes visibility k)
  | .idle => isFalse id
  | .cleared => isFalse id
  | .running _ (.resubscribing _ subs) =>
    inferInstanceAs (Decidable (∃ b ∈ subs, b.visibility = visibility ∧ b.key = k))
  | .running _ .connecting => isFalse id
  | .running _ .opening => isFalse id
  | .running _ .opened => isFalse id
  | .running _ .serving => isFalse id
  | .running _ .answered => isFalse id
  | .running _ .authenticated => isFalse id
  | .running _ .closed => isFalse id

instance (k : String) : (call : ServiceCall) → Decidable (call.Owes k)
  | .subscribing _ => isFalse id
  | .waitingForConnection builder => inferInstanceAs (Decidable (builder.key = k))
  | .waitingForAuth builder => inferInstanceAs (Decidable (builder.key = k))
  | .sending builder => inferInstanceAs (Decidable (builder.key = k))
  | .unsubscribing _ => isFalse id
  | .returned => isFalse id

namespace WebSocketService

variable {s s' : WebSocketService} {v : SubscriptionVisibility} {k : String}

/-! ## §1 Without a race -/

/-- The builder that an action of a call of `unsubscribe` takes out. -/
def unsubscribes (s : WebSocketService) : ServiceAction → Option WebSocketBuilder
  | .call i =>
    match s.calls[i]? with
    | some (.unsubscribing builder) => some builder
    | _ => none
  | _ => none

/-- An `unsubscribe` takes its access while nothing owes its channel.

    Otherwise the call or the resubscription that owes it sends the channel after all, and it is fed
    without being active. -/
def Undisturbed (s : WebSocketService) (a : ServiceAction) : Prop :=
  ∀ builder ∈ s.unsubscribes a, ∀ v, ¬ s.Owed v builder.key

instance (s : WebSocketService) (v : SubscriptionVisibility) (k : String) :
    Decidable (s.Owed v k) := inferInstanceAs (Decidable (_ ∨ ∃ call ∈ s.calls, call.Owes k))

instance (s : WebSocketService) (a : ServiceAction) : Decidable (s.Undisturbed a) :=
  inferInstanceAs (Decidable (∀ builder ∈ s.unsubscribes a, ∀ v, ¬ s.Owed v builder.key))

/-- What a visibility feeds or owes is active. -/
structure Wanted (s : WebSocketService) (v : SubscriptionVisibility) : Prop where
  owed : ∀ k, (s.threads v).Owes v k → ∃ b, s.activeSubscriptions.get? k = some b
  fed : ∀ socket callback c k, s.threads v = .running socket callback → callback ≠ .closed →
    s.sockets[socket]? = some c → c.isOpen = true → k ∈ c.channels →
    ∃ b, s.activeSubscriptions.get? k = some b ∧ b.visibility = v
  fresh : ∀ socket c, s.threads v = .running socket .connecting → s.sockets[socket]? = some c →
    c.isOpen = false ∧ c.channels = []

namespace Wanted

theorem of_not_running (h : ∀ socket callback, s.threads v = .running socket callback →
    callback = .closed) : s.Wanted v where
  owed k howes := by
    cases hrun : s.threads v with
    | idle =>
      rw [hrun] at howes
      exact howes.elim
    | cleared =>
      rw [hrun] at howes
      exact howes.elim
    | running socket callback =>
      rw [hrun, h socket callback hrun] at howes
      exact howes.elim
  fed socket callback _ _ hrun hclosed := absurd (h socket callback hrun) hclosed
  fresh socket _ hrun := by cases h socket _ hrun

/-- A callback goes on to another one. -/
theorem goes_on (h : s.Wanted v) (hactive : s'.activeSubscriptions = s.activeSubscriptions)
    {socket : ℕ} {callback callback' : Callback} (hrun : s.threads v = .running socket callback)
    (hclosed : callback ≠ .closed) (hrun' : s'.threads v = .running socket callback')
    (hconnecting : callback' ≠ .connecting)
    (howes : ∀ k, (ConnectionThread.running socket callback').Owes v k →
      ∃ b, s.activeSubscriptions.get? k = some b)
    (hfed : ∀ c' k, s'.sockets[socket]? = some c' → c'.isOpen = true → k ∈ c'.channels →
      (∃ c, s.sockets[socket]? = some c ∧ c.isOpen = true ∧ k ∈ c.channels) ∨
        ∃ b, s.activeSubscriptions.get? k = some b ∧ b.visibility = v) : s'.Wanted v where
  owed k hk := by
    rw [hrun'] at hk
    rw [hactive]
    exact howes k hk
  fed socket' callback'' c' k h' _ hc' hopen hk := by
    obtain ⟨rfl, rfl⟩ := ConnectionThread.running.inj (hrun'.symm.trans h')
    rw [hactive]
    rcases hfed c' k hc' hopen hk with ⟨c, hc, hopen₀, hmem⟩ | hb
    · exact h.fed socket callback c k hrun hclosed hc hopen₀ hmem
    · exact hb
  fresh socket' c h' := by
    obtain ⟨rfl, rfl⟩ := ConnectionThread.running.inj (hrun'.symm.trans h')
    exact absurd rfl hconnecting

theorem of_actsOn {w : SubscriptionVisibility} (h : s.Wanted v) (hwired : s.Wired v)
    (hacts : ActsOn w s s') (hne : v ≠ w) : s'.Wanted v := by
  have hsocket : ∀ {socket callback c'}, s.threads v = .running socket callback →
      s'.sockets[socket]? = some c' → s.sockets[socket]? = some c' := by
    intro socket callback c' hrun hc'
    obtain ⟨c, hc, hvis⟩ := hwired.socket socket callback hrun
    obtain ⟨c'', hc'', -, hsame⟩ := hacts.sockets socket c hc
    obtain rfl := hsame (by rwa [hvis])
    rwa [← hc', hc'']
  refine ⟨?_, ?_, ?_⟩
  · intro k howes
    rw [hacts.threads v hne] at howes
    rw [hacts.active]
    exact h.owed k howes
  · intro socket callback c k hrun hclosed hc
    rw [hacts.threads v hne] at hrun
    rw [hacts.active]
    exact h.fed socket callback c k hrun hclosed (hsocket hrun hc)
  · intro socket c hrun hc
    rw [hacts.threads v hne] at hrun
    exact h.fresh socket c hrun (hsocket hrun hc)

end Wanted

/-! ## §2 The connection threads -/

/-- The socket of a thread feeds no more after a message that subscribes to nothing. -/
theorem fed_of_send {socket : ℕ} {c' : Socket} {frame : Frame}
    (hc' : (s.send (some socket) frame).sockets[socket]? = some c') (hopen : c'.isOpen = true)
    (hk : k ∈ c'.channels) (hframe : frame ≠ .subscribe k) :
    ∃ c, s.sockets[socket]? = some c ∧ c.isOpen = true ∧ k ∈ c.channels := by
  obtain ⟨c, hc, ⟨-, rfl⟩ | ⟨hne, -⟩⟩ := of_getElem?_send hc'
  · rw [c.isOpen_send] at hopen
    exact ⟨c, hc, hopen, (c.of_mem_channels_send hk).resolve_right hframe⟩
  · exact absurd rfl hne

theorem wanted_resubscribeActive (h : s.Wanted v) (hkeyed : s.Keyed) {socket : ℕ}
    {callback : Callback} (hrun : s.threads v = .running socket callback)
    (hclosed : callback ≠ .closed) : (s.resubscribeActive v socket).Wanted v := by
  refine h.goes_on rfl hrun hclosed (threads_setThread s _) Callback.noConfusion ?_
    fun c' k hc' hopen hk => .inl ⟨c', hc', hopen, hk⟩
  rintro k ⟨b, hb, -, rfl⟩
  obtain ⟨k₀, hk₀⟩ := (Dict.mem_values_iff _ b).mp hb
  exact ⟨b, by rw [hkeyed k₀ b hk₀]; exact hk₀⟩

theorem wanted_resend (hsound : s.Sound) (h : s.Wanted v) {socket : ℕ} {handler : Option ℕ}
    {builder : WebSocketBuilder} {subs : List WebSocketBuilder}
    (hrun : s.threads v = .running socket (.resubscribing handler (builder :: subs))) :
    ((if builder.visibility = v then s.send handler (.subscribe builder.key)
      else s).setThread v (.running socket (.resubscribing handler subs))).Wanted v := by
  obtain rfl := (hsound.wired v).handler _ _ _ hrun
  have hactive : ∀ b ∈ builder :: subs, b.visibility = v →
      ∃ b', s.activeSubscriptions.get? b.key = some b' := by
    intro b hb hvis
    exact h.owed b.key (by rw [hrun]; exact ⟨b, hb, hvis, rfl⟩)
  have howes : ∀ k,
      (ConnectionThread.running socket (.resubscribing (some socket) subs)).Owes v k →
      ∃ b, s.activeSubscriptions.get? k = some b := by
    rintro k ⟨b, hb, hvis, rfl⟩
    exact hactive b (List.mem_cons_of_mem _ hb) hvis
  -- a channel of the other visibility is skipped
  split
  · rename_i hvis
    refine h.goes_on rfl hrun Callback.noConfusion (threads_setThread _ _) Callback.noConfusion
      howes fun c' k hc' hopen hk => ?_
    by_cases hframe : Frame.subscribe builder.key = .subscribe k
    · obtain rfl := Frame.subscribe.inj hframe
      obtain ⟨b, hb⟩ := hactive builder List.mem_cons_self hvis
      refine .inr ⟨b, hb, ?_⟩
      rw [← hvis]
      exact WebSocketBuilder.visibility_eq_of_key_eq (hsound.keyed _ b hb)
    · exact .inl (fed_of_send hc' hopen hk hframe)
  · exact h.goes_on rfl hrun Callback.noConfusion (threads_setThread _ _) Callback.noConfusion
      howes fun c' k hc' hopen hk => .inl ⟨c', hc', hopen, hk⟩

/-- An access that leaves the sockets and what is active alone, and owes nothing, changes
    nothing. -/
theorem Wanted.setThread (h : s.Wanted v) {t : WebSocketService} {socket : ℕ}
    {callback callback' : Callback} (hactive : t.activeSubscriptions = s.activeSubscriptions)
    (hsockets : t.sockets = s.sockets) (hrun : s.threads v = .running socket callback)
    (hclosed : callback ≠ .closed) (hconnecting : callback' ≠ .connecting)
    (howes : ∀ k, ¬ (ConnectionThread.running socket callback').Owes v k) :
    (t.setThread v (.running socket callback')).Wanted v := by
  refine h.goes_on hactive hrun hclosed (threads_setThread t _) hconnecting
    (fun k hk => absurd hk (howes k)) fun c' k hc' hopen hk => .inl ⟨c', ?_, hopen, hk⟩
  rw [← hsockets]
  exact hc'

/-- A new socket has not opened, and nothing was sent over it. -/
theorem wanted_connect (hrun : s.threads v = .cleared) : (s.stepThread v).Wanted v := by
  simp only [stepThread, hrun]
  have hlast : (s.sockets ++ [⟨v, false, []⟩])[s.sockets.length]? = some ⟨v, false, []⟩ :=
    List.getElem?_concat_length
  refine ⟨?_, ?_, ?_⟩
  · intro k howes
    rw [threads_setThread] at howes
    exact howes.elim
  · intro socket callback c k hrun' _ hc hopen
    rw [threads_setThread] at hrun'
    obtain ⟨rfl, -⟩ := ConnectionThread.running.inj hrun'
    obtain rfl := Option.some.inj (hlast.symm.trans hc)
    cases hopen
  · intro socket c hrun' hc
    rw [threads_setThread] at hrun'
    obtain ⟨rfl, -⟩ := ConnectionThread.running.inj hrun'
    obtain rfl := Option.some.inj (hlast.symm.trans hc)
    exact ⟨rfl, rfl⟩

theorem wanted_stepThread (hsound : s.Sound) (h : s.Wanted v) : (s.stepThread v).Wanted v := by
  cases hrun : s.threads v with
  | idle =>
    simp only [stepThread, hrun]
    refine Wanted.of_not_running fun socket callback hrun' => ?_
    rw [threads_setThread] at hrun'
    cases hrun'
  | cleared => exact wanted_connect hrun
  | running socket callback =>
    cases callback with
    | connecting =>
      simp only [stepThread, hrun]
      exact h
    | opening =>
      simp only [stepThread, hrun]
      exact h.setThread (t := s.setConnectionEvent v true) rfl rfl hrun Callback.noConfusion
        Callback.noConfusion fun _ => False.elim
    | opened =>
      cases v with
      | «public» =>
        simp only [stepThread, hrun]
        exact wanted_resubscribeActive h hsound.keyed hrun Callback.noConfusion
      | «private» =>
        -- an authentication subscribes to nothing
        simp only [stepThread, hrun]
        rw [(hsound.wired .private).connection_eq hrun Callback.noConfusion]
        exact h.goes_on rfl hrun Callback.noConfusion (threads_setThread _ _)
          Callback.noConfusion (fun _ => False.elim) fun c' k hc' hopen hk =>
            .inl (fed_of_send hc' hopen hk Frame.noConfusion)
    | serving =>
      simp only [stepThread, hrun]
      exact h
    | answered =>
      simp only [stepThread, hrun]
      exact h.setThread (t := s.setAuthEvent v true) rfl rfl hrun Callback.noConfusion
        Callback.noConfusion fun _ => False.elim
    | authenticated =>
      simp only [stepThread, hrun]
      exact wanted_resubscribeActive h hsound.keyed hrun Callback.noConfusion
    | resubscribing handler subs =>
      cases subs with
      | nil =>
        -- the loop of `_resubscribe_active` is over
        simp only [stepThread, hrun]
        exact h.setThread rfl rfl hrun Callback.noConfusion Callback.noConfusion
          fun _ => False.elim
      | cons builder subs =>
        -- the next builder is active, or was when the loop began
        simp only [stepThread, hrun]
        exact wanted_resend hsound h hrun
    | closed =>
      simp only [stepThread, hrun]
      exact h

theorem wanted_opens (h : s.Wanted v) : (s.step (.opens v)).Wanted v := by
  simp only [step]
  split
  · rename_i socket hrun
    refine h.goes_on rfl hrun Callback.noConfusion (threads_setThread _ _) Callback.noConfusion
      (fun _ => False.elim) fun c' k hc' hopen hk => ?_
    -- nothing has come over a socket before it opens
    change (s.modifySocket socket Socket.opened).sockets[socket]? = some c' at hc'
    rw [getElem?_modifySocket, Option.map_eq_some_iff] at hc'
    obtain ⟨c, hc, rfl⟩ := hc'
    have hnil : c.opened.channels = [] := (h.fresh socket c hrun hc).2
    rw [hnil] at hk
    cases hk
  · exact h

theorem wanted_authResponse (h : s.Wanted v) (code : ℤ) :
    (s.step (.authResponse v code)).Wanted v := by
  simp only [step]
  split
  · rename_i socket hrun
    split
    · refine h.goes_on rfl hrun Callback.noConfusion (threads_setThread _ _) Callback.noConfusion
        (fun _ => False.elim) fun c' k hc' hopen hk => ?_
      change (s.modifySocket socket Socket.accept).sockets[socket]? = some c' at hc'
      rw [getElem?_modifySocket, Option.map_eq_some_iff] at hc'
      obtain ⟨c, hc, rfl⟩ := hc'
      exact .inl ⟨c, hc, hopen, c.of_mem_channels_accept hk⟩
    · exact h
  · exact h

theorem wanted_heartbeat (hwired : s.Wired v) (h : s.Wanted v) :
    (s.step (.heartbeat v)).Wanted v := by
  simp only [step]
  split
  · rename_i socket hrun
    rw [hwired.connection_eq hrun Callback.noConfusion]
    exact h.goes_on rfl hrun Callback.noConfusion hrun Callback.noConfusion
      (fun _ => False.elim) fun c' k hc' hopen hk =>
        .inl (fed_of_send hc' hopen hk Frame.noConfusion)
  · exact h

theorem wanted_closes (h : s.Wanted v) : (s.step (.closes v)).Wanted v := by
  have hclosed : ∀ (t : WebSocketService) socket,
      (t.setThread v (.running socket .closed)).Wanted v := by
    intro t socket
    refine Wanted.of_not_running fun socket' callback hrun => ?_
    rw [threads_setThread] at hrun
    exact (ConnectionThread.running.inj hrun).2.symm
  simp only [step]
  split
  · exact hclosed _ _
  · exact hclosed _ _
  · exact h

theorem wanted_ends (h : s.Wanted v) : (s.step (.ends v)).Wanted v := by
  have hidle : ∀ t : WebSocketService, (t.setThread v .idle).Wanted v := by
    intro t
    refine Wanted.of_not_running fun socket callback hrun => ?_
    rw [threads_setThread] at hrun
    cases hrun
  simp only [step]
  split
  · exact hidle _
  · exact hidle _
  · exact hidle _
  · exact h

theorem wanted_drop (h : s.Wanted v) (socket : ℕ) : (s.step (.drop socket)).Wanted v := by
  refine ⟨h.owed, ?_, ?_⟩
  · intro i callback c' k hrun hclosed hc' hopen hk
    by_cases hi : socket = i
    · subst hi
      rw [step, getElem?_modifySocket, Option.map_eq_some_iff] at hc'
      obtain ⟨c, -, rfl⟩ := hc'
      cases hopen
    · rw [step, getElem?_modifySocket_of_ne _ _ hi] at hc'
      exact h.fed i callback c' k hrun hclosed hc' hopen hk
  · intro i c' hrun hc'
    by_cases hi : socket = i
    · subst hi
      rw [step, getElem?_modifySocket, Option.map_eq_some_iff] at hc'
      obtain ⟨c, hc, rfl⟩ := hc'
      exact ⟨rfl, (h.fresh socket c hrun hc).2⟩
    · rw [step, getElem?_modifySocket_of_ne _ _ hi] at hc'
      exact h.fresh i c' hrun hc'

/-- What is fed or owed is active. -/
structure Exact (s : WebSocketService) : Prop where
  sound : s.Sound
  callOwed : ∀ k, s.CallOwes k → ∃ b, s.activeSubscriptions.get? k = some b
  wanted : ∀ v, s.Wanted v

theorem Exact.of_advances (h : s.Exact) (hadvances : Advances v s s') (hwanted : s'.Wanted v) :
    s'.Exact where
  sound := h.sound.of_advances hadvances
  callOwed k howes := by
    rw [CallOwes, hadvances.actsOn.calls] at howes
    rw [hadvances.actsOn.active]
    exact h.callOwed k howes
  wanted w := by
    by_cases hw : w = v
    · subst hw
      exact hwanted
    · exact (h.wanted w).of_actsOn (h.sound.wired w) hadvances.actsOn hw

/-! ## §3 Calls and runs -/

section ExactCalls

variable {i : ℕ} {old new : ServiceCall} {builder : WebSocketBuilder}

/-- A call that goes on without touching what is shared. -/
theorem exact_setCall (h : s.Exact) (hcall : s.calls[i]? = some old)
    (hsound : (s.setCall i new).Sound) (hnew : ∀ k, new.Owes k → old.Owes k) :
    (s.setCall i new).Exact where
  sound := hsound
  callOwed k howes := by
    rcases of_callOwes_setCall howes with howes | hk
    · exact h.callOwed k howes
    · exact h.callOwed k ⟨old, List.mem_of_getElem? hcall, hnew k hk⟩
  wanted v := ⟨(h.wanted v).owed, (h.wanted v).fed, (h.wanted v).fresh⟩

theorem exact_activate (h : s.Exact) (hcall : s.calls[i]? = some (.subscribing builder)) :
    ({ s with activeSubscriptions := s.activeSubscriptions.set builder.key builder }.setCall i
      (.waitingForConnection builder)).Exact := by
  have hset : ∀ k, (∃ b, s.activeSubscriptions.get? k = some b) ∨ k = builder.key →
      ∃ b, (s.activeSubscriptions.set builder.key builder).get? k = some b := by
    rintro k (⟨b, hb⟩ | rfl)
    · rw [Dict.get?_set]
      split
      · exact ⟨builder, rfl⟩
      · exact ⟨b, hb⟩
    · exact ⟨builder, Dict.get?_set_self _ _ _⟩
  -- the key becomes active before its frame is sent, so nothing is fed without a row
  refine ⟨sound_activate h.sound hcall, ?_, fun v => ⟨?_, ?_, (h.wanted v).fresh⟩⟩
  · intro k howes
    rcases of_callOwes_setCall howes with ⟨call, hmem, hk⟩ | hk
    · exact hset k (.inl (h.callOwed k ⟨call, hmem, hk⟩))
    · exact hset k (.inr hk.symm)
  · intro k howes
    exact hset k (.inl ((h.wanted v).owed k howes))
  · intro socket callback c k hrun hclosed hc hopen hk
    obtain ⟨b, hb, hvis⟩ := (h.wanted v).fed socket callback c k hrun hclosed hc hopen hk
    show ∃ b, (s.activeSubscriptions.set builder.key builder).get? k = some b ∧ _
    rw [Dict.get?_set]
    split
    · rename_i hk
      refine ⟨builder, rfl, ?_⟩
      rw [← hvis]
      exact WebSocketBuilder.visibility_eq_of_key_eq (hk.symm.trans (h.sound.keyed k b hb).symm)
    · exact ⟨b, hb, hvis⟩

/-- The connection on which a call sends is that of the thread with its socket. -/
theorem visibility_eq_of_connection (h : s.Sound) {w : SubscriptionVisibility} {socket : ℕ}
    {callback : Callback} (hconnection : s.connections w = some socket)
    (hrun : s.threads v = .running socket callback) : w = v := by
  have hcurrent := (h.wired w).connection
  rw [hconnection] at hcurrent
  cases hw : s.threads w with
  | idle =>
    rw [hw] at hcurrent
    cases hcurrent
  | cleared =>
    rw [hw] at hcurrent
    cases hcurrent
  | running socket' callback' =>
    rw [hw, ConnectionThread.current] at hcurrent
    split at hcurrent
    · cases hcurrent
    · obtain rfl := Option.some.inj hcurrent
      obtain ⟨c, hc, hvis⟩ := (h.wired w).socket socket callback' hw
      rw [← hvis, (h.wired v).visibility_eq hrun hc]

theorem exact_sending (h : s.Exact) (hcall : s.calls[i]? = some (.sending builder)) :
    ((s.send (s.connections builder.visibility) (.subscribe builder.key)).setCall i
      .returned).Exact := by
  have hactive : ∃ b, s.activeSubscriptions.get? builder.key = some b :=
    h.callOwed _ ⟨_, List.mem_of_getElem? hcall, rfl⟩
  refine ⟨sound_sending h.sound hcall, ?_, fun v => ⟨(h.wanted v).owed, ?_, ?_⟩⟩
  · intro k howes
    rcases of_callOwes_setCall howes with howes | hk
    · exact h.callOwed k howes
    · exact hk.elim
  · intro socket callback c' k hrun hclosed hc' hopen hk
    -- only the socket of the connection is sent to, and the key has been active since before
    obtain ⟨c, hc, ⟨hconnection, rfl⟩ | ⟨-, rfl⟩⟩ := of_getElem?_send hc'
    · rw [c.isOpen_send] at hopen
      rcases c.of_mem_channels_send hk with hmem | hframe
      · exact (h.wanted v).fed socket callback c k hrun hclosed hc hopen hmem
      · obtain rfl := Frame.subscribe.inj hframe
        obtain ⟨b, hb⟩ := hactive
        refine ⟨b, hb, ?_⟩
        rw [← visibility_eq_of_connection h.sound hconnection hrun]
        exact WebSocketBuilder.visibility_eq_of_key_eq (h.sound.keyed _ b hb)
    · exact (h.wanted v).fed socket callback c' k hrun hclosed hc hopen hk
  · intro socket c' hrun hc'
    obtain ⟨c, hc, ⟨-, rfl⟩ | ⟨-, rfl⟩⟩ := of_getElem?_send hc'
    · obtain ⟨hshut, hnil⟩ := (h.wanted v).fresh socket c hrun hc
      have hsend : c.send (.subscribe builder.key) = c := by
        rw [Socket.send, if_neg (by rw [hshut]; exact Bool.false_ne_true)]
      rw [hsend]
      exact ⟨hshut, hnil⟩
    · exact (h.wanted v).fresh socket c' hrun hc

theorem exact_unsubscribing (h : s.Exact) (hcall : s.calls[i]? = some (.unsubscribing builder))
    (hundisturbed : ∀ v, ¬ s.Owed v builder.key) :
    (({ s with activeSubscriptions := s.activeSubscriptions.erase builder.key }.send
      (s.connections builder.visibility) (.unsubscribe builder.key)).setCall i
      .returned).Exact := by
  have herase : ∀ {k b}, k ≠ builder.key → s.activeSubscriptions.get? k = some b →
      (s.activeSubscriptions.erase builder.key).get? k = some b := by
    intro k b hne hb
    rw [Dict.get?_erase_of_ne _ hne, hb]
  refine ⟨sound_unsubscribing h.sound hcall, ?_, fun v => ⟨?_, ?_, ?_⟩⟩
  · intro k howes
    rcases of_callOwes_setCall howes with howes | hk
    · obtain ⟨b, hb⟩ := h.callOwed k howes
      exact ⟨b, herase (fun hk => hundisturbed .public (.inr (hk ▸ howes))) hb⟩
    · exact hk.elim
  · intro k howes
    obtain ⟨b, hb⟩ := (h.wanted v).owed k howes
    exact ⟨b, herase (fun hk => hundisturbed v (.inl (hk ▸ howes))) hb⟩
  · intro socket callback c' k hrun hclosed hc' hopen hk
    obtain ⟨c, hc, hsent⟩ := of_getElem?_send hc'
    have hold : c.isOpen = true ∧ k ∈ c.channels := by
      rcases hsent with ⟨-, rfl⟩ | ⟨-, rfl⟩
      · rw [c.isOpen_send] at hopen
        exact ⟨hopen, (c.of_mem_channels_send hk).resolve_right Frame.noConfusion⟩
      · exact ⟨hopen, hk⟩
    obtain ⟨b, hb, hvis⟩ := (h.wanted v).fed socket callback c k hrun hclosed hc hold.1 hold.2
    refine ⟨b, herase ?_ hb, hvis⟩
    -- its own channel has been taken off the connection of its visibility
    rintro rfl
    have hbuilder : builder.visibility = v := by
      rw [← hvis]
      exact WebSocketBuilder.visibility_eq_of_key_eq (h.sound.keyed _ b hb).symm
    have hconnection := (h.sound.wired v).connection_eq hrun hclosed
    rcases hsent with ⟨-, rfl⟩ | ⟨hne, -⟩
    · exact c.notMem_channels_send_unsubscribe hold.1 _ hk
    · rw [hbuilder] at hne
      exact hne hconnection
  · intro socket c' hrun hc'
    obtain ⟨c, hc, ⟨-, rfl⟩ | ⟨-, rfl⟩⟩ := of_getElem?_send hc'
    · obtain ⟨hshut, hnil⟩ := (h.wanted v).fresh socket c hrun hc
      have hsend : c.send (.unsubscribe builder.key) = c := by
        rw [Socket.send, if_neg (by rw [hshut]; exact Bool.false_ne_true)]
      rw [hsend]
      exact ⟨hshut, hnil⟩
    · exact (h.wanted v).fresh socket c' hrun hc

theorem exact_stepCall (h : s.Exact) (i : ℕ) (hundisturbed : s.Undisturbed (.call i)) :
    (s.stepCall i).Exact := by
  have hsound := sound_stepCall h.sound i
  unfold stepCall at hsound ⊢
  split at hsound
  · exact exact_activate h ‹_›
  · rename_i builder hcall
    by_cases hset : s.connectionEvents builder.visibility = true
    · rw [if_pos hset] at hsound ⊢
      refine exact_setCall h hcall hsound fun k hk => ?_
      split at hk <;> exact hk
    · rwa [if_neg hset]
  · rename_i builder hcall
    by_cases hset : s.authEvent = true
    · rw [if_pos hset] at hsound ⊢
      exact exact_setCall h hcall hsound fun k hk => hk
    · rwa [if_neg hset]
  · exact exact_sending h ‹_›
  · rename_i builder hcall
    have hmem : builder ∈ s.unsubscribes (.call i) := by
      rw [unsubscribes, hcall]
      exact rfl
    exact exact_unsubscribing h hcall (hundisturbed builder hmem)
  · exact h
  · exact h

theorem exact_stepTimeout (h : s.Exact) (i : ℕ) : (s.stepTimeout i).Exact := by
  have hsound := sound_stepTimeout h.sound i
  unfold stepTimeout at hsound ⊢
  split at hsound
  · rename_i builder hcall
    by_cases hset : s.connectionEvents builder.visibility = true
    · rwa [if_pos hset]
    · rw [if_neg hset] at hsound ⊢
      exact exact_setCall h hcall hsound fun k hk => hk.elim
  · rename_i builder hcall
    by_cases hset : s.authEvent = true
    · rwa [if_pos hset]
    · rw [if_neg hset] at hsound ⊢
      exact exact_setCall h hcall hsound fun k hk => hk
  · exact h

theorem exact_call (h : s.Exact) {call : ServiceCall} (hcall : ∀ k, ¬ call.Owes k) :
    ({ s with calls := s.calls ++ [call] } : WebSocketService).Exact where
  sound := sound_call h.sound call
  callOwed k howes := by
    obtain ⟨old, hold, hk⟩ := howes
    rcases List.mem_append.mp hold with hold | hold
    · exact h.callOwed k ⟨old, hold, hk⟩
    · rw [List.mem_singleton.mp hold] at hk
      exact absurd hk (hcall k)
  wanted v := ⟨(h.wanted v).owed, (h.wanted v).fed, (h.wanted v).fresh⟩

end ExactCalls

theorem exact_step (s : WebSocketService) (a : ServiceAction) (h : s.Exact)
    (hundisturbed : s.Undisturbed a) : (s.step a).Exact := by
  have hkeyed := h.sound.keyed
  have hwired := h.sound.wired
  have hcovered := h.sound.covered
  -- the threads and the network keep what is wanted of each visibility, the calls the whole
  cases a with
  | thread v =>
    exact h.of_advances (advances_stepThread hkeyed (hwired v) (hcovered v))
      (wanted_stepThread h.sound (h.wanted v))
  | opens v =>
    exact h.of_advances (advances_opens (hwired v) (hcovered v)) (wanted_opens (h.wanted v))
  | authResponse v code =>
    exact h.of_advances (advances_authResponse (hwired v) (hcovered v) code)
      (wanted_authResponse (h.wanted v) code)
  | heartbeat v =>
    exact h.of_advances (advances_heartbeat (hwired v) (hcovered v))
      (wanted_heartbeat (hwired v) (h.wanted v))
  | closes v =>
    exact h.of_advances (advances_closes (hwired v) (hcovered v)) (wanted_closes (h.wanted v))
  | ends v =>
    exact h.of_advances (advances_ends (hwired v) (hcovered v)) (wanted_ends (h.wanted v))
  | drop socket =>
    exact ⟨sound_step s (.drop socket) h.sound, h.callOwed,
      fun v => wanted_drop (h.wanted v) socket⟩
  | subscribe builder => exact exact_call h fun _ => id
  | unsubscribe builder => exact exact_call h fun _ => id
  | call i => exact exact_stepCall h i hundisturbed
  | timeout i => exact exact_stepTimeout h i

theorem exact_connected : connected.Exact where
  sound := sound_connected
  callOwed k howes := by
    obtain ⟨call, hcall, -⟩ := howes
    cases hcall
  wanted v := Wanted.of_not_running fun _ _ h => by cases h

/-- **When no `unsubscribe` comes while its channel is owed, a connection that serves feeds, of the
    channels that no call owes, exactly those that are active for its visibility.**

    A channel that is owed will be sent later, from the builder that was found, and so after its own
    `unsubscribe`; the condition leaves such runs out. -/
theorem fed_iff_active {as : List ServiceAction}
    (hundisturbed : Along step Undisturbed connected as) {v : SubscriptionVisibility} {c : Socket}
    (hserves : (run step connected as).Serves v c) {k : String}
    (hdone : ¬ (run step connected as).CallOwes k) :
    k ∈ c.channels ↔
      ∃ b, (run step connected as).activeSubscriptions.get? k = some b ∧ b.visibility = v := by
  have hexact : (run step connected as).Exact :=
    run_invariant_along Exact exact_step exact_connected hundisturbed
  obtain ⟨socket, hrun, hauth, hc, hopen⟩ := hserves
  constructor
  · exact (hexact.wanted v).fed socket .serving c k hrun Callback.noConfusion hc hopen
  · rintro ⟨b, hb, hvis⟩
    rcases hexact.sound.covered v k socket c b (.inl ⟨hrun, hauth⟩) hc hopen hb hvis with
      hmem | hthread | hcall
    · exact hmem
    · rw [hrun] at hthread
      exact hthread.elim
    · exact absurd hcall hdone

/-! ## §4 A run -/

/-- Two tickers are subscribed to and one of them is given up, the connection is lost, and the next
    one resubscribes. -/
def oneTickerLeft : List ServiceAction :=
  [.thread .public, .thread .public, .opens .public, .thread .public, .thread .public,
    .thread .public, .subscribe (.marketData "BTC_USD"), .subscribe (.marketData "ETH_USD"),
    .call 0, .call 1, .call 0, .call 1, .call 0, .call 1,
    .unsubscribe (.marketData "ETH_USD"), .call 2, .drop 0, .ends .public, .thread .public,
    .thread .public, .opens .public, .thread .public, .thread .public, .thread .public,
    .thread .public]

theorem fed_iff_active_oneTickerLeft :
    ∃ c, (run step connected oneTickerLeft).Serves .public c ∧ "ticker.BTC_USD" ∈ c.channels ∧
      "ticker.ETH_USD" ∉ c.channels := by
  obtain ⟨c, hserves⟩ : ∃ c, (run step connected oneTickerLeft).Serves .public c :=
    ⟨_, 1, rfl, SubscriptionVisibility.noConfusion, rfl, rfl⟩
  have hdone : ∀ k, ¬ (run step connected oneTickerLeft).CallOwes k := by
    rintro k ⟨call, hcall, howes⟩
    obtain rfl := List.eq_of_mem_replicate (n := 3) (a := ServiceCall.returned) hcall
    exact howes
  have hfed : ∀ k, _ := fun k => fed_iff_active (by decide +kernel) hserves (hdone k)
  refine ⟨c, hserves, (hfed _).mpr ⟨.marketData "BTC_USD", rfl, rfl⟩, fun h => ?_⟩
  obtain ⟨b, hb, -⟩ := (hfed _).mp h
  cases hb

end WebSocketService

end CryptoTrading.Exchange

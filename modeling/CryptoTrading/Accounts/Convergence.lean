import CryptoTrading.Accounts.AccountManager
import CryptoTrading.Lib.InFlight
import CryptoTrading.Lib.Run
import CryptoTrading.Protection.PortfolioRiskManager
import CryptoTrading.Session.SessionManager

/-!
# Balance events and their readers

`_cache_balances` numbers the states of a currency under the lock, but publishes the events
after it has released it.  The calls of several threads on one exchange are therefore
atomic updates of the account state, each followed by its deliveries one by one, in any
interleaving.  The readers are the trading contexts of the session and the quote
portfolios; both overwrite their amount with that of the event, whatever its version.

`ordered_converges` shows that the readers agree with the account state whenever nothing
is under way, in every run that delivers the events of a currency in the order of their
versions and reports no negative balance (a portfolio clamps those).  Without the order
they may keep an old amount for good (`late_event_overwrites`).
-/

namespace CryptoTrading.Accounts

open CryptoTrading.Lib CryptoTrading.Session CryptoTrading.Protection

/-! ## §1 The readers -/

variable (upper : String → String)

/-- `ctx.exchange` and the quote currency in `ctx.ticker_symbol` decide about an event. -/
def contextTarget (event : BalanceChangedEvent) (ctx : TradingContext) : Bool :=
  (isFalsyStr event.exchange || ctx.exchange = "" ||
    upper (event.exchange.getD "") = upper ctx.exchange) &&
  (PortfolioRiskManager.quoteOfTicker ctx.tickerSymbol).any fun quote =>
    quote ≠ "" && upper quote = upper event.currency

/-- `SessionManager._on_balance_changed`. -/
def onBalanceChanged (sm : SessionManager) (event : BalanceChangedEvent) : SessionManager :=
  { sm with currentSession := sm.currentSession.map fun session =>
      { session with tradingContexts := session.tradingContexts.mapValues fun ctx =>
          if contextTarget upper event ctx then { ctx with availableBalance := event.available }
          else ctx } }

/-- The subscribers of balance events, in the order in which they subscribe. -/
inductive Consumer where
  | session | risk
  deriving DecidableEq, Repr

/-- One subscriber's share of a publication. -/
structure Delivery where
  consumer : Consumer
  event : BalanceChangedEvent
  deriving DecidableEq

/-- What `publish` does for an event: the subscribers are called one after the other. -/
def deliveriesOf (event : BalanceChangedEvent) : List Delivery :=
  [⟨.session, event⟩, ⟨.risk, event⟩]

/-! ## §2 Concurrent calls -/

/-- The shared objects, and for each call of `_cache_balances` what it has still to deliver. -/
structure BalanceSystem where
  account : AccountManager
  session : SessionManager
  risk : PortfolioRiskManager
  pending : List (List Delivery)

/-- A call takes the lock, or goes on with its deliveries. -/
inductive BalanceStep where
  | cache (balances : List AccountBalance) (source : BalanceSource) (reason : String) (now : ℚ)
  | deliver (call : ℕ)

def receive (s : BalanceSystem) (d : Delivery) : BalanceSystem :=
  match d.consumer with
  | .session => { s with session := onBalanceChanged upper s.session d.event }
  | .risk => { s with risk := s.risk.onBalanceChanged upper d.event }

/-- A call of `_cache_balances` writes the account under its lock and publishes after it; the
    deliveries of different calls overlap. -/
def balanceStep (providerName : String) (s : BalanceSystem) : BalanceStep → BalanceSystem
  | .cache balances source reason now =>
    let (account, events) := s.account.cacheBalances upper providerName balances source reason now
    { s with account := account, pending := s.pending ++ [events.flatMap deliveriesOf] }
  | .deliver call =>
    match s.pending[call]? with
    | some (d :: rest) => receive upper { s with pending := s.pending.set call rest } d
    | _ => s

/-! ## §3 What the readers should see -/

/-- A trading context or a quote portfolio. -/
inductive Reader where
  | context (key : String)
  | portfolio (key : PortfolioKey)

/-- The subscriber that updates the reader. -/
def Reader.consumer : Reader → Consumer
  | .context _ => .session
  | .portfolio _ => .risk

def contextAt (sm : SessionManager) (key : String) : Option TradingContext :=
  sm.currentSession.bind fun session => session.tradingContexts.get? key

/-- The currency key that a context follows on the exchange. -/
def contextWatch (exKey : String) (ctx : TradingContext) : Option String :=
  if exKey = "" ∨ ctx.exchange = "" ∨ upper exKey = upper ctx.exchange then
    ((PortfolioRiskManager.quoteOfTicker ctx.tickerSymbol).filter (· ≠ "")).map upper
  else none

/-- The currency key that a portfolio follows on the exchange. -/
def portfolioWatch (exKey : String) (key : PortfolioKey) : Option String :=
  if exKey = "" ∨ upper key.1 = upper exKey then some (upper key.2) else none

/-- The currency key that the reader follows. -/
def watch (exKey : String) (s : BalanceSystem) : Reader → Option String
  | .context key => (contextAt s.session key).bind (contextWatch upper exKey)
  | .portfolio key => (s.risk.portfolios.get? key).bind fun _ => portfolioWatch upper exKey key

/-- The amount that the reader has. -/
def seen (s : BalanceSystem) : Reader → Option ℚ
  | .context key => (contextAt s.session key).map (·.availableBalance)
  | .portfolio key => (s.risk.portfolios.get? key).map (·.totalCash)

/-- No call has anything left to deliver. -/
def Quiet (s : BalanceSystem) : Prop := s.pending.flatten = []

instance (s : BalanceSystem) : Decidable (Quiet s) := inferInstanceAs (Decidable (_ = _))

/-- The event number as far as order is concerned. -/
def Delivery.number (d : Delivery) : ℕ := d.event.version.getD 0

/-- The step reports no negative balance, and delivers no event before an older one of its
    currency to the same subscriber. -/
def InOrder (s : BalanceSystem) : BalanceStep → Prop
  | .cache balances _ _ _ => ∀ b ∈ balances, 0 ≤ b.availableBalance
  | .deliver call =>
    ∀ d ∈ (s.pending[call]?).bind List.head?, ∀ d' ∈ s.pending.flatten,
      d'.consumer = d.consumer → upper d'.event.currency = upper d.event.currency →
        d.number ≤ d'.number

instance (s : BalanceSystem) : (step : BalanceStep) → Decidable (InOrder upper s step)
  | .cache balances _ _ _ => inferInstanceAs (Decidable (∀ b ∈ balances, 0 ≤ b.availableBalance))
  | .deliver call =>
    inferInstanceAs (Decidable (∀ d ∈ (s.pending[call]?).bind List.head?, _))

/-! ## §4 Events under way -/

/-- The versions and amounts that are on their way to a subscriber for one currency. -/
def flight (ds : List Delivery) (consumer : Consumer) (key : String) : Set (ℕ × ℚ) :=
  {m | ∃ d ∈ ds, d.consumer = consumer ∧ upper d.event.currency = key ∧
    m = (d.number, d.event.available)}

variable {upper}

/-- A delivery to another subscriber or about another currency does not count. -/
theorem flight_of_split {ds ds' : List Delivery} {d : Delivery}
    (hsplit : ∀ d', d' ∈ ds ↔ d' = d ∨ d' ∈ ds') (consumer : Consumer) (key : String) :
    flight upper ds consumer key =
      if d.consumer = consumer ∧ upper d.event.currency = key then
        insert (d.number, d.event.available) (flight upper ds' consumer key)
      else flight upper ds' consumer key := by
  ext m
  unfold flight
  by_cases hd : d.consumer = consumer ∧ upper d.event.currency = key
  · rw [if_pos hd]
    constructor
    · rintro ⟨d', hmem, hconsumer, hkey, rfl⟩
      rcases (hsplit d').mp hmem with rfl | hmem
      · exact Set.mem_insert _ _
      · exact Set.mem_insert_of_mem _ ⟨d', hmem, hconsumer, hkey, rfl⟩
    · rintro (rfl | ⟨d', hmem, hconsumer, hkey, rfl⟩)
      · exact ⟨d, (hsplit d).mpr (.inl rfl), hd.1, hd.2, rfl⟩
      · exact ⟨d', (hsplit d').mpr (.inr hmem), hconsumer, hkey, rfl⟩
  · rw [if_neg hd]
    constructor
    · rintro ⟨d', hmem, hconsumer, hkey, rfl⟩
      rcases (hsplit d').mp hmem with rfl | hmem
      · exact absurd ⟨hconsumer, hkey⟩ hd
      · exact ⟨d', hmem, hconsumer, hkey, rfl⟩
    · rintro ⟨d', hmem, hconsumer, hkey, rfl⟩
      exact ⟨d', (hsplit d').mpr (.inr hmem), hconsumer, hkey, rfl⟩

/-- A published event is under way to every subscriber. -/
theorem flight_append_deliveriesOf (ds : List Delivery) (event : BalanceChangedEvent)
    (consumer : Consumer) (key : String) :
    flight upper (ds ++ deliveriesOf event) consumer key =
      if upper event.currency = key then
        insert (event.version.getD 0, event.available) (flight upper ds consumer key)
      else flight upper ds consumer key := by
  have hsession : ∀ d', d' ∈ ds ++ deliveriesOf event ↔
      d' = ⟨.session, event⟩ ∨ d' ∈ ds ++ [⟨.risk, event⟩] := by
    intro d'
    simp only [deliveriesOf, List.mem_append, List.mem_cons, List.not_mem_nil, or_false]
    tauto
  have hrisk : ∀ d', d' ∈ ds ++ [⟨.risk, event⟩] ↔ d' = ⟨.risk, event⟩ ∨ d' ∈ ds := by
    intro d'
    simp only [List.mem_append, List.mem_singleton]
    tauto
  rw [flight_of_split hsession, flight_of_split hrisk]
  cases consumer <;> simp [Delivery.number]

variable (upper) in
/-- What is under way about a currency, and to a reader that has `amount`, fits the account.

    An account that has nothing of the currency has published nothing about it.  Else the last event
    under way carries the newest version, or none is under way and the reader is there already. -/
def Tracks (m : AccountManager) (exKey : String) (ds : List Delivery) (consumer : Consumer)
    (key : String) (amount : ℚ) : Prop :=
  match m.stateOf exKey key with
  | none => flight upper ds consumer key = ∅
  | some state =>
    Converging state.version state.available amount (flight upper ds consumer key)

theorem Tracks.of_none {m : AccountManager} {exKey : String} {ds : List Delivery}
    {consumer : Consumer} {key : String} {amount : ℚ}
    (h : Tracks upper m exKey ds consumer key amount)
    (hnone : m.stateOf exKey key = none) : flight upper ds consumer key = ∅ := by
  unfold Tracks at h
  rwa [hnone] at h

theorem Tracks.of_some {m : AccountManager} {exKey : String} {ds : List Delivery}
    {consumer : Consumer} {key : String} {amount : ℚ} {state : CurrencyBalanceState}
    (h : Tracks upper m exKey ds consumer key amount) (hsome : m.stateOf exKey key = some state) :
    Converging state.version state.available amount (flight upper ds consumer key) := by
  unfold Tracks at h
  rwa [hsome] at h

variable {exKey : String} {source : BalanceSource} {reason : String} {now : ℚ}

/-- The state that is stored fits its event, if there is one, and what was under way before. -/
theorem Tracks.nextStateOf {m : AccountManager} {ds : List Delivery} {consumer : Consumer}
    {amount : ℚ} {balance : AccountBalance}
    (h : Tracks upper m exKey ds consumer (upper (upper balance.currency)) amount) :
    Converging (m.nextStateOf upper exKey source now balance).version balance.availableBalance
      amount (flight upper
        (ds ++ (m.eventOf upper exKey source reason now balance).flatMap deliveriesOf) consumer
        (upper (upper balance.currency))) := by
  rcases AccountManager.eventOf_cases upper exKey source reason now m balance with
    ⟨event, hevent, hcurrency, havailable, -, hversion⟩ | ⟨hevent, old, hold, havailable⟩
  · -- the event joins what is under way, with the new version
    rw [hevent, List.flatMap_singleton, flight_append_deliveriesOf, if_pos (by rw [hcurrency]),
      hversion, havailable, Option.getD_some]
    cases hstate : m.stateOf exKey (upper (upper balance.currency)) with
    | none =>
      rw [h.of_none hstate, insert_empty_eq]
      exact Converging.first _
    | some old =>
      rw [AccountManager.version_nextStateOf_of_some hstate]
      exact (h.of_some hstate).write _
  · rw [hevent, List.flatMap_nil, List.append_nil, AccountManager.version_nextStateOf_of_some hold,
      ← havailable]
    exact (h.of_some hold).touch

/-- An event is about its own currency only. -/
theorem flight_append_eventOf_of_ne {m : AccountManager} {balance : AccountBalance}
    {key : String} (hkey : key ≠ upper (upper balance.currency)) (ds : List Delivery)
    (consumer : Consumer) :
    flight upper (ds ++ (m.eventOf upper exKey source reason now balance).flatMap deliveriesOf)
        consumer key = flight upper ds consumer key := by
  rcases AccountManager.eventOf_cases upper exKey source reason now m balance with
    ⟨event, hevent, hcurrency, -, -, -⟩ | ⟨hevent, -⟩
  · rw [hevent, List.flatMap_singleton, flight_append_deliveriesOf, hcurrency,
      if_neg (Ne.symm hkey)]
  · rw [hevent, List.flatMap_nil, List.append_nil]

/-- Caching a balance keeps every reader on track. -/
theorem Tracks.cacheBalance {st : AccountManager × List BalanceChangedEvent}
    {ds : List Delivery} {consumer : Consumer} {key : String} {amount : ℚ}
    (h : Tracks upper st.1 exKey (ds ++ st.2.flatMap deliveriesOf) consumer key amount)
    (balance : AccountBalance) :
    Tracks upper (AccountManager.cacheBalance upper exKey source reason now st balance).1 exKey
      (ds ++ (AccountManager.cacheBalance upper exKey source reason now st
        balance).2.flatMap deliveriesOf) consumer key amount := by
  unfold Tracks
  rw [AccountManager.stateOf_cacheBalance, AccountManager.events_cacheBalance,
    List.flatMap_append, ← List.append_assoc]
  by_cases hkey : key = upper (upper balance.currency)
  · subst hkey
    rw [if_pos rfl]
    exact h.nextStateOf
  · rw [if_neg hkey, flight_append_eventOf_of_ne hkey]
    exact h

theorem Tracks.cacheBalances {m : AccountManager} {providerName : String} {ds : List Delivery}
    {consumer : Consumer} {key : String} {amount : ℚ}
    (h : Tracks upper m (upper providerName) ds consumer key amount)
    (balances : List AccountBalance) :
    Tracks upper (m.cacheBalances upper providerName balances source reason now).1
      (upper providerName) (ds ++ (m.cacheBalances upper providerName balances source reason
        now).2.flatMap deliveriesOf) consumer key amount := by
  have hstart : Tracks upper (m.ensureExchange (upper providerName)) (upper providerName)
      (ds ++ ([] : List BalanceChangedEvent).flatMap deliveriesOf) consumer key amount := by
    unfold Tracks at *
    rwa [AccountManager.stateOf_ensureExchange, List.flatMap_nil, List.append_nil]
  exact run_invariant
    (fun st : AccountManager × List BalanceChangedEvent => Tracks upper st.1 (upper providerName)
      (ds ++ st.2.flatMap deliveriesOf) consumer key amount)
    (fun st balance hst => hst.cacheBalance balance) hstart balances

/-! ## §5 Deliveries -/

/-- An event that a call of `_cache_balances` on the exchange publishes. -/
structure Published (exKey : String) (d : Delivery) : Prop where
  exchange_eq : d.event.exchange = some exKey
  nonneg : 0 ≤ d.event.available

theorem published_cacheBalances (m : AccountManager) (providerName : String)
    {balances : List AccountBalance} (hnonneg : ∀ b ∈ balances, 0 ≤ b.availableBalance) :
    ∀ event ∈ (m.cacheBalances upper providerName balances source reason now).2,
      event.exchange = some (upper providerName) ∧ 0 ≤ event.available := by
  refine run_invariant_along
    (fun st : AccountManager × List BalanceChangedEvent => ∀ event ∈ st.2,
      event.exchange = some (upper providerName) ∧ 0 ≤ event.available) ?_ ?_
    (along_of_forall hnonneg _)
  · intro st balance hst hbalance event hmem
    rw [AccountManager.events_cacheBalance] at hmem
    rcases List.mem_append.mp hmem with hmem | hmem
    · exact hst event hmem
    · rcases AccountManager.eventOf_cases upper (upper providerName) source reason now st.1
        balance with ⟨event', hevent, -, havailable, hexchange, -⟩ | ⟨hevent, -⟩
      · rw [hevent, List.mem_singleton] at hmem
        subst hmem
        exact ⟨hexchange, by rw [havailable]; exact hbalance⟩
      · rw [hevent] at hmem
        cases hmem
  · intro event hmem
    cases hmem

theorem contextTarget_iff {event : BalanceChangedEvent} (hex : event.exchange = some exKey)
    (ctx : TradingContext) :
    contextTarget upper event ctx = true ↔
      contextWatch upper exKey ctx = some (upper event.currency) := by
  unfold contextTarget contextWatch
  rw [hex]
  cases hquote : PortfolioRiskManager.quoteOfTicker ctx.tickerSymbol with
  | none => simp
  | some quote =>
    by_cases hempty : quote = ""
    · simp [hempty]
    · simp [hempty, isFalsyStr, Option.filter, or_assoc]

theorem balanceTarget_iff {event : BalanceChangedEvent} (hex : event.exchange = some exKey)
    (key : PortfolioKey) :
    PortfolioRiskManager.balanceTarget upper event key = true ↔
      portfolioWatch upper exKey key = some (upper event.currency) := by
  unfold PortfolioRiskManager.balanceTarget portfolioWatch
  rw [hex]
  simp [isFalsyStr]

/-- The session changes the amount of a context and nothing that decides what it follows. -/
theorem contextAt_onBalanceChanged (sm : SessionManager) (event : BalanceChangedEvent)
    (key : String) :
    contextAt (onBalanceChanged upper sm event) key = (contextAt sm key).map fun ctx =>
      if contextTarget upper event ctx then { ctx with availableBalance := event.available }
      else ctx := by
  unfold contextAt onBalanceChanged
  cases sm.currentSession with
  | none => rfl
  | some session => simp

@[simp] theorem watch_pending (s : BalanceSystem) (pending : List (List Delivery))
    (reader : Reader) :
    watch upper exKey { s with pending := pending } reader = watch upper exKey s reader := by
  cases reader <;> rfl

@[simp] theorem seen_pending (s : BalanceSystem) (pending : List (List Delivery))
    (reader : Reader) : seen { s with pending := pending } reader = seen s reader := by
  cases reader <;> rfl

/-- A delivery leaves the account and what is under way alone. -/
@[simp] theorem receive_account (s : BalanceSystem) (d : Delivery) :
    (receive upper s d).account = s.account := by
  unfold receive
  cases d.consumer <;> rfl

@[simp] theorem receive_pending (s : BalanceSystem) (d : Delivery) :
    (receive upper s d).pending = s.pending := by
  unfold receive
  cases d.consumer <;> rfl

/-- Deliveries do not change what a reader follows. -/
theorem watch_receive (s : BalanceSystem) (d : Delivery) (reader : Reader) :
    watch upper exKey (receive upper s d) reader = watch upper exKey s reader := by
  obtain ⟨consumer, event⟩ := d
  cases consumer with
  | session =>
    cases reader with
    | portfolio key => rfl
    | context key =>
      simp only [watch, receive, contextAt_onBalanceChanged]
      cases contextAt s.session key with
      | none => rfl
      | some ctx =>
        simp only [Option.map_some, Option.bind_some]
        split <;> rfl
  | risk =>
    cases reader with
    | context key => rfl
    | portfolio key =>
      simp only [watch, receive, PortfolioRiskManager.onBalanceChanged, Dict.get?_mapEntries]
      cases s.risk.portfolios.get? key <;> rfl

/-- A portfolio that follows the currency takes the amount, unless it is negative. -/
theorem totalCash_updateCash {event : BalanceChangedEvent} (hnonneg : 0 ≤ event.available)
    (pf : QuotePortfolio) :
    (if pf.totalCash ≠ event.available then pf.updateCash event.available else pf).totalCash =
      event.available := by
  by_cases heq : pf.totalCash = event.available
  · simp [heq]
  · simp [heq, hnonneg]

/-- The readers that follow the currency take the amount of the event, the others keep theirs. -/
theorem seen_receive {s : BalanceSystem} {d : Delivery} (hd : Published exKey d)
    (reader : Reader) :
    seen (receive upper s d) reader =
      if reader.consumer = d.consumer ∧
          watch upper exKey s reader = some (upper d.event.currency) then
        (seen s reader).map fun _ => d.event.available
      else seen s reader := by
  obtain ⟨consumer, event⟩ := d
  -- each consumer has its own maps, so the readers of the other see nothing of the event
  cases consumer with
  | session =>
    cases reader with
    | portfolio key => simp [seen, receive, Reader.consumer]
    | context key =>
      simp only [seen, receive, contextAt_onBalanceChanged, watch, Reader.consumer, true_and]
      cases contextAt s.session key with
      | none => simp
      | some ctx =>
        have htarget : contextTarget upper event ctx = true ↔ _ :=
          contextTarget_iff hd.exchange_eq ctx
        by_cases hwatch : contextWatch upper exKey ctx = some (upper event.currency)
        · simp [htarget.mpr hwatch, hwatch]
        · simp [mt htarget.mp hwatch, hwatch]
  | risk =>
    cases reader with
    | context key => simp [seen, receive, Reader.consumer]
    | portfolio key =>
      simp only [seen, receive, PortfolioRiskManager.onBalanceChanged, Dict.get?_mapEntries, watch,
        Reader.consumer, true_and]
      cases s.risk.portfolios.get? key with
      | none => simp
      | some pf =>
        have htarget : PortfolioRiskManager.balanceTarget upper event key = true ↔ _ :=
          balanceTarget_iff hd.exchange_eq key
        have hcash := totalCash_updateCash hd.nonneg pf
        by_cases hwatch : portfolioWatch upper exKey key = some (upper event.currency)
        · simpa [htarget.mpr hwatch, hwatch] using hcash
        · simp [mt htarget.mp hwatch, hwatch]

/-- Taking the next delivery of a call off the pending ones. -/
theorem mem_flatten_of_head {pending : List (List Delivery)} {call : ℕ} {d : Delivery}
    {rest : List Delivery} (h : pending[call]? = some (d :: rest)) (d' : Delivery) :
    d' ∈ pending.flatten ↔ d' = d ∨ d' ∈ (pending.set call rest).flatten := by
  induction pending generalizing call with
  | nil => simp at h
  | cons first others ih =>
    cases call with
    | zero =>
      obtain rfl : first = d :: rest := by simpa using h
      simp
    | succ call =>
      have hrest := ih (by simpa using h)
      simp only [List.set_cons_succ, List.flatten_cons, List.mem_append, hrest]
      tauto

/-! ## §6 Runs -/

variable (upper) in
/-- What every state of an ordered run satisfies: all that is to be delivered was published, and
    what is under way to a reader fits the account. -/
structure OnTrack (exKey : String) (s : BalanceSystem) : Prop where
  published : ∀ d ∈ s.pending.flatten, Published exKey d
  tracks : ∀ reader key amount, watch upper exKey s reader = some key →
    seen s reader = some amount →
      Tracks upper s.account exKey s.pending.flatten reader.consumer key amount

theorem OnTrack.cache {providerName : String} {s : BalanceSystem}
    (h : OnTrack upper (upper providerName) s) {balances : List AccountBalance}
    (hnonneg : ∀ b ∈ balances, 0 ≤ b.availableBalance) :
    OnTrack upper (upper providerName)
      (balanceStep upper providerName s (.cache balances source reason now)) := by
  have hpending : (balanceStep upper providerName s (.cache balances source reason
      now)).pending.flatten = s.pending.flatten ++ (s.account.cacheBalances upper providerName
        balances source reason now).2.flatMap deliveriesOf := by
    simp [balanceStep]
  refine ⟨?_, ?_⟩
  · intro d hd
    rw [hpending] at hd
    rcases List.mem_append.mp hd with hd | hd
    · exact h.published d hd
    · obtain ⟨event, hmem, hevent⟩ := List.mem_flatMap.mp hd
      obtain ⟨hexchange, havailable⟩ := published_cacheBalances s.account providerName hnonneg
        event hmem
      have heq : d.event = event := by
        simp only [deliveriesOf, List.mem_cons, List.not_mem_nil, or_false] at hevent
        rcases hevent with rfl | rfl <;> rfl
      exact ⟨by rw [heq]; exact hexchange, by rw [heq]; exact havailable⟩
  · intro reader key amount hwatch hseen
    rw [hpending]
    exact (h.tracks reader key amount hwatch hseen).cacheBalances balances

/-- Delivering in order keeps every reader on track. -/
theorem OnTrack.receive {s : BalanceSystem} (h : OnTrack upper exKey s) {call : ℕ} {d : Delivery}
    {rest : List Delivery} (hcall : s.pending[call]? = some (d :: rest))
    (horder : ∀ d' ∈ s.pending.flatten, d'.consumer = d.consumer →
      upper d'.event.currency = upper d.event.currency → d.number ≤ d'.number) :
    OnTrack upper exKey (receive upper { s with pending := s.pending.set call rest } d) := by
  have hsplit := mem_flatten_of_head hcall
  have hd : Published exKey d := h.published d ((hsplit d).mpr (.inl rfl))
  refine ⟨?_, ?_⟩
  · intro d' hd'
    rw [receive_pending] at hd'
    exact h.published d' ((hsplit d').mpr (.inr hd'))
  · intro reader key amount hwatch hseen
    rw [watch_receive, watch_pending] at hwatch
    rw [seen_receive hd, watch_pending, seen_pending] at hseen
    rw [receive_account, receive_pending]
    have hflight : flight upper s.pending.flatten reader.consumer key = _ :=
      flight_of_split hsplit reader.consumer key
    by_cases hmatch : reader.consumer = d.consumer ∧ key = upper d.event.currency
    · -- the reader takes the amount, and the message is gone
      obtain ⟨hconsumer, rfl⟩ := hmatch
      rw [if_pos ⟨hconsumer, hwatch⟩, Option.map_eq_some_iff] at hseen
      obtain ⟨before, hbefore, rfl⟩ := hseen
      rw [if_pos ⟨hconsumer.symm, rfl⟩] at hflight
      have htracks := h.tracks reader _ before hwatch hbefore
      unfold Tracks at *
      cases hstate : s.account.stateOf exKey (upper d.event.currency) with
      | none =>
        rw [hstate, hflight] at htracks
        exact absurd htracks (Set.insert_nonempty _ _).ne_empty
      | some state =>
        rw [hstate, hflight] at htracks
        refine htracks.deliver ?_
        rintro m' ⟨d', hmem, hconsumer', hkey', rfl⟩
        exact horder d' ((hsplit d').mpr (.inr hmem)) (hconsumer'.trans hconsumer) hkey'
    · -- nothing changes for this reader
      have hother : ¬ (reader.consumer = d.consumer ∧
          watch upper exKey s reader = some (upper d.event.currency)) := by
        rintro ⟨hconsumer, hkey⟩
        rw [hwatch] at hkey
        exact hmatch ⟨hconsumer, Option.some.inj hkey⟩
      have hfar : ¬ (d.consumer = reader.consumer ∧ upper d.event.currency = key) :=
        fun hboth => hmatch ⟨hboth.1.symm, hboth.2.symm⟩
      rw [if_neg hother] at hseen
      rw [if_neg hfar] at hflight
      have htracks := h.tracks reader key amount hwatch hseen
      unfold Tracks at *
      rwa [← hflight]

theorem OnTrack.balanceStep {providerName : String} {s : BalanceSystem}
    (h : OnTrack upper (upper providerName) s) {step : BalanceStep}
    (horder : InOrder upper s step) :
    OnTrack upper (upper providerName) (balanceStep upper providerName s step) := by
  cases step with
  | cache balances source reason now => exact h.cache horder
  | deliver call =>
    have hstep : Accounts.balanceStep upper providerName s (.deliver call) =
        match s.pending[call]? with
        | some (d :: rest) =>
          Accounts.receive upper { s with pending := s.pending.set call rest } d
        | _ => s := rfl
    rw [hstep]
    split
    · rename_i d rest hcall
      exact h.receive hcall (horder d (by simp [hcall]))
    · exact h

end CryptoTrading.Accounts

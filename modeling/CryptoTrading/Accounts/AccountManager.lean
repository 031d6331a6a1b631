import CryptoTrading.Accounts.AccountState

/-!
# The account manager

Embeds the balance cache of `src/trading/accounts/account_manager.py`: `_cache_balances`,
`reconcile_account_balances` and `_get_balance`.

Each exchange has its versioned account state, and beside it a cache of the balances as
they were reported with the times of their last update.  `_cache_balances` changes all
three under the lock and returns the events that are published after it.  The clock is read
once for each call.  Left out: the websocket subscriptions and the opening and closing of
session balances.
-/

namespace CryptoTrading.Accounts

open CryptoTrading.Lib

structure AccountManager where
  accountStates : Dict String AccountState
  balances : Dict String (Dict String AccountBalance)
  lastBalanceUpdates : Dict String (Dict String ℚ)
  deriving DecidableEq

namespace AccountManager

def new : AccountManager := ⟨Dict.empty, Dict.empty, Dict.empty⟩

/-- `AccountManager.BALANCE_TTL_SECONDS`. -/
def balanceTtlSeconds : ℚ := 60

/-! ## §1 Reading -/

/-- The account state under the key of an exchange, a new one when it is missing. -/
def accountStateAt (m : AccountManager) (exKey : String) : AccountState :=
  m.accountStates.getD exKey (AccountState.new exKey)

/-- The balances reported for the exchange. -/
def balancesAt (m : AccountManager) (exKey : String) : Dict String AccountBalance :=
  m.balances.getD exKey Dict.empty

/-- The update times of the exchange. -/
def updatesAt (m : AccountManager) (exKey : String) : Dict String ℚ :=
  m.lastBalanceUpdates.getD exKey Dict.empty

variable (upper : String → String)

/-- What `_get_balance` returns once it has decided about the refresh. -/
def cachedBalance (m : AccountManager) (currencySymbol providerName : String) : AccountBalance :=
  ((m.balancesAt (upper providerName)).get? (upper currencySymbol)).getD ⟨currencySymbol, 0⟩

/-- Whether `_get_balance` asks the exchange first. -/
def shouldRefresh (m : AccountManager) (currencySymbol providerName : String) (now : ℚ) : Bool :=
  let exKey := upper providerName
  let currKey := upper currencySymbol
  !(m.balancesAt exKey).contains currKey ||
    now - (m.updatesAt exKey).getD currKey 0 > balanceTtlSeconds

/-! ## §2 Caching -/

/-- The event of a changed balance. -/
def changeEvent (exKey currKey : String) (source : BalanceSource) (reason : String)
    (newState : CurrencyBalanceState) (prevState : Option CurrencyBalanceState) :
    BalanceChangedEvent where
  currency := currKey
  available := newState.available
  total := newState.total
  reserved := newState.reserved
  exchange := some exKey
  previousTotal := prevState.map (·.total)
  previousAvailable := prevState.map (·.available)
  source := source
  reason := reason
  version := some newState.version

/-- Whether the update is a state transition or the first observation of its currency. -/
def isTransition (newState : CurrencyBalanceState) (prevState : Option CurrencyBalanceState) :
    Bool :=
  prevState.all fun prev => prev.hasChanged newState.available (some newState.total)

/-- The body of the loop in `_cache_balances`. -/
def cacheBalance (exKey : String) (source : BalanceSource) (reason : String) (now : ℚ)
    (st : AccountManager × List BalanceChangedEvent) (balance : AccountBalance) :
    AccountManager × List BalanceChangedEvent :=
  let m := st.1
  let currKey := upper balance.currency
  let (accountState, newState, prevState) := (m.accountStateAt exKey).updateBalance upper currKey
    balance.availableBalance none none source now
  ({ accountStates := m.accountStates.set exKey accountState
     balances := m.balances.set exKey ((m.balancesAt exKey).set currKey balance)
     lastBalanceUpdates := m.lastBalanceUpdates.set exKey ((m.updatesAt exKey).set currKey now) },
    if isTransition newState prevState then
      st.2 ++ [changeEvent exKey currKey source reason newState prevState]
    else st.2)

/-- The exchange has a state and a cache before the loop starts. -/
def ensureExchange (m : AccountManager) (exKey : String) : AccountManager :=
  { m with
    accountStates := m.accountStates.set exKey (m.accountStateAt exKey)
    balances := m.balances.set exKey (m.balancesAt exKey) }

/-- The part of `AccountManager._cache_balances` that runs under the lock, with the events
    that are published afterwards. -/
def cacheBalances (m : AccountManager) (providerName : String) (balances : List AccountBalance)
    (source : BalanceSource) (reason : String) (now : ℚ) :
    AccountManager × List BalanceChangedEvent :=
  let exKey := upper providerName
  balances.foldl (cacheBalance upper exKey source reason now) (m.ensureExchange exKey, [])

/-- `AccountManager.reconcile_account_balances` for the balances the exchange answered. -/
def reconcileAccountBalances (m : AccountManager) (providerName : String)
    (data : List AccountBalance) (now : ℚ) : AccountManager × List BalanceChangedEvent :=
  let exKey := upper providerName
  let (m, events) := m.cacheBalances upper providerName data .restReconciliation "SNAPSHOT" now
  ({ m with accountStates :=
      m.accountStates.set exKey { m.accountStateAt exKey with lastReconciliationTime := now } },
    events)

/-- `AccountManager._get_balance`: `data` is what the exchange answers if it is asked. -/
def getBalance (m : AccountManager) (currencySymbol providerName : String)
    (data : List AccountBalance) (now : ℚ) :
    AccountManager × List BalanceChangedEvent × AccountBalance :=
  let (m, events) :=
    if m.shouldRefresh upper currencySymbol providerName now then
      m.reconcileAccountBalances upper providerName data now
    else (m, [])
  (m, events, m.cachedBalance upper currencySymbol providerName)

/-! ## §3 What caching one balance does -/

/-- The stored state of a currency. -/
def stateOf (m : AccountManager) (exKey key : String) : Option CurrencyBalanceState :=
  (m.accountStateAt exKey).balances.get? key

/-- The reported balance of a currency. -/
def reportOf (m : AccountManager) (exKey key : String) : Option AccountBalance :=
  (m.balancesAt exKey).get? key

@[simp] theorem stateOf_ensureExchange (m : AccountManager) (exKey key : String) :
    (m.ensureExchange exKey).stateOf exKey key = m.stateOf exKey key := by
  simp [stateOf, ensureExchange, accountStateAt, Dict.getD]

@[simp] theorem reportOf_ensureExchange (m : AccountManager) (exKey key : String) :
    (m.ensureExchange exKey).reportOf exKey key = m.reportOf exKey key := by
  simp [reportOf, ensureExchange, balancesAt, Dict.getD]

/-- The state that the loop stores for a balance. -/
def nextStateOf (m : AccountManager) (exKey : String) (source : BalanceSource) (now : ℚ)
    (balance : AccountBalance) : CurrencyBalanceState :=
  (m.accountStateAt exKey).nextState upper (upper balance.currency) balance.availableBalance none
    none source now

variable {upper} {exKey : String} {source : BalanceSource} {reason : String} {now : ℚ}

@[simp] theorem nextStateOf_available (m : AccountManager) (balance : AccountBalance) :
    (m.nextStateOf upper exKey source now balance).available = balance.availableBalance := rfl

/-- The currency is written with its next state, under its key. -/
theorem stateOf_cacheBalance (st : AccountManager × List BalanceChangedEvent)
    (balance : AccountBalance) (key : String) :
    (cacheBalance upper exKey source reason now st balance).1.stateOf exKey key =
      if key = upper (upper balance.currency) then
        some (st.1.nextStateOf upper exKey source now balance)
      else st.1.stateOf exKey key := by
  unfold cacheBalance stateOf accountStateAt Dict.getD
  simp only [Dict.get?_set_self, Option.getD_some, AccountState.updateBalance, Dict.get?_set]
  rfl

/-- The balance itself is cached as it was reported. -/
theorem reportOf_cacheBalance (st : AccountManager × List BalanceChangedEvent)
    (balance : AccountBalance) (key : String) :
    (cacheBalance upper exKey source reason now st balance).1.reportOf exKey key =
      if key = upper balance.currency then some balance else st.1.reportOf exKey key := by
  unfold cacheBalance reportOf balancesAt Dict.getD
  simp only [Dict.get?_set_self, Option.getD_some, Dict.get?_set]

variable (upper exKey source reason now) in
/-- The event the loop adds for a balance, if any. -/
def eventOf (m : AccountManager) (balance : AccountBalance) : List BalanceChangedEvent :=
  let newState := m.nextStateOf upper exKey source now balance
  let prevState := m.stateOf exKey (upper (upper balance.currency))
  if isTransition newState prevState then
    [changeEvent exKey (upper balance.currency) source reason newState prevState]
  else []

theorem events_cacheBalance (st : AccountManager × List BalanceChangedEvent)
    (balance : AccountBalance) :
    (cacheBalance upper exKey source reason now st balance).2 =
      st.2 ++ st.1.eventOf upper exKey source reason now balance := by
  unfold cacheBalance eventOf AccountState.updateBalance nextStateOf stateOf
  simp only
  split
  · rfl
  · rw [List.append_nil]

/-- Without a transition the stored amount is the reported one. -/
theorem available_eq_of_not_isTransition {newState : CurrencyBalanceState}
    {prevState : Option CurrencyBalanceState} (h : ¬ isTransition newState prevState = true) :
    ∃ prev, prevState = some prev ∧ prev.available = newState.available := by
  cases prevState with
  | none => exact absurd rfl h
  | some prev =>
    refine ⟨prev, rfl, ?_⟩
    by_contra hne
    exact h (by simp [isTransition, CurrencyBalanceState.hasChanged, hne])

theorem version_nextStateOf_of_some {m : AccountManager} {balance : AccountBalance}
    {old : CurrencyBalanceState} (h : m.stateOf exKey (upper (upper balance.currency)) = some old) :
    (m.nextStateOf upper exKey source now balance).version = old.version + 1 := by
  unfold stateOf at h
  simp [nextStateOf, AccountState.nextState, h]

variable (upper exKey source reason now) in
/-- Either the loop adds the event of the new state, or the stored amount stays as it is. -/
theorem eventOf_cases (m : AccountManager) (balance : AccountBalance) :
    (∃ event, m.eventOf upper exKey source reason now balance = [event] ∧
        event.currency = upper balance.currency ∧ event.available = balance.availableBalance ∧
        event.exchange = some exKey ∧
        event.version = some (m.nextStateOf upper exKey source now balance).version) ∨
      m.eventOf upper exKey source reason now balance = [] ∧
        ∃ old, m.stateOf exKey (upper (upper balance.currency)) = some old ∧
          old.available = balance.availableBalance := by
  unfold eventOf
  simp only
  split
  · exact .inl ⟨_, rfl, rfl, rfl, rfl, rfl⟩
  · rename_i hno
    exact .inr ⟨rfl, available_eq_of_not_isTransition hno⟩

/-! ## §4 What caching a list of balances does -/

/-- The loop of `_cache_balances` from any point on. -/
abbrev cacheLoop (upper : String → String) (exKey : String) (source : BalanceSource)
    (reason : String) (now : ℚ) (st : AccountManager × List BalanceChangedEvent)
    (balances : List AccountBalance) : AccountManager × List BalanceChangedEvent :=
  balances.foldl (cacheBalance upper exKey source reason now) st

theorem reportOf_cacheLoop_of_notMem {balances : List AccountBalance} {key : String}
    (h : ∀ b ∈ balances, upper b.currency ≠ key) (st : AccountManager × List BalanceChangedEvent) :
    (cacheLoop upper exKey source reason now st balances).1.reportOf exKey key =
      st.1.reportOf exKey key := by
  induction balances generalizing st with
  | nil => rfl
  | cons b rest ih =>
    rw [cacheLoop, List.foldl_cons, ← cacheLoop, ih fun b' hb' => h b' (List.mem_cons_of_mem _ hb'),
      reportOf_cacheBalance, if_neg (Ne.symm (h b List.mem_cons_self))]

theorem stateOf_cacheLoop_of_notMem {balances : List AccountBalance} {key : String}
    (h : ∀ b ∈ balances, upper (upper b.currency) ≠ key)
    (st : AccountManager × List BalanceChangedEvent) :
    (cacheLoop upper exKey source reason now st balances).1.stateOf exKey key =
      st.1.stateOf exKey key := by
  induction balances generalizing st with
  | nil => rfl
  | cons b rest ih =>
    rw [cacheLoop, List.foldl_cons, ← cacheLoop, ih fun b' hb' => h b' (List.mem_cons_of_mem _ hb'),
      stateOf_cacheBalance, if_neg (Ne.symm (h b List.mem_cons_self))]

/-- The loop publishes what it has collected. -/
theorem events_subset_cacheLoop (balances : List AccountBalance)
    (st : AccountManager × List BalanceChangedEvent) :
    st.2 ⊆ (cacheLoop upper exKey source reason now st balances).2 := by
  induction balances generalizing st with
  | nil => exact List.Subset.refl _
  | cons b rest ih =>
    refine List.Subset.trans ?_ (ih _)
    rw [events_cacheBalance]
    exact List.subset_append_left _ _

variable (upper exKey) in
/-- A balance has arrived: it is cached as reported, its amount is stored, and an event with
    the amount was published if the stored amount was another one before. -/
structure Arrived (before : AccountManager) (after : AccountManager × List BalanceChangedEvent)
    (balance : AccountBalance) : Prop where
  report : after.1.reportOf exKey (upper balance.currency) = some balance
  state : (after.1.stateOf exKey (upper (upper balance.currency))).map (·.available) =
    some balance.availableBalance
  event : (before.stateOf exKey (upper (upper balance.currency))).map (·.available) ≠
      some balance.availableBalance →
    ∃ event ∈ after.2, event.currency = upper balance.currency ∧
      event.available = balance.availableBalance

variable (upper exKey source reason now) in
theorem arrived_cacheBalance (st : AccountManager × List BalanceChangedEvent)
    (balance : AccountBalance) :
    Arrived upper exKey st.1 (cacheBalance upper exKey source reason now st balance) balance where
  report := by rw [reportOf_cacheBalance, if_pos rfl]
  state := by
    rw [stateOf_cacheBalance, if_pos rfl]
    rfl
  event := by
    intro hne
    rw [events_cacheBalance]
    rcases eventOf_cases upper exKey source reason now st.1 balance with
      ⟨event, hevent, hcurrency, havailable, -, -⟩ | ⟨-, old, hold, havailable⟩
    · exact ⟨event, by simp [hevent], hcurrency, havailable⟩
    · rw [hold] at hne
      exact absurd (congrArg some havailable) hne

/-- When no two balances of the list share a currency, all of them arrive. -/
theorem arrived_cacheLoop {balances : List AccountBalance}
    (hnodup : (balances.map fun b => upper (upper b.currency)).Nodup)
    (st : AccountManager × List BalanceChangedEvent) {balance : AccountBalance}
    (hmem : balance ∈ balances) :
    Arrived upper exKey st.1 (cacheLoop upper exKey source reason now st balances) balance := by
  induction balances generalizing st with
  | nil => cases hmem
  | cons b rest ih =>
    obtain ⟨hfirst, hrest⟩ := List.nodup_cons.mp hnodup
    rw [cacheLoop, List.foldl_cons, ← cacheLoop]
    rcases List.mem_cons.mp hmem with rfl | hmem
    · -- the rest of the list does not touch this currency again
      have hstate : ∀ b' ∈ rest, upper (upper b'.currency) ≠ upper (upper balance.currency) :=
        fun b' hb' heq => hfirst (List.mem_map.mpr ⟨b', hb', heq⟩)
      have hreport : ∀ b' ∈ rest, upper b'.currency ≠ upper balance.currency :=
        fun b' hb' heq => hstate b' hb' (by rw [heq])
      obtain ⟨hr, hs, he⟩ := arrived_cacheBalance upper exKey source reason now st balance
      refine ⟨?_, ?_, ?_⟩
      · rw [reportOf_cacheLoop_of_notMem hreport]
        exact hr
      · rw [stateOf_cacheLoop_of_notMem hstate]
        exact hs
      · intro hne
        obtain ⟨event, hevent, hprops⟩ := he hne
        exact ⟨event, events_subset_cacheLoop rest _ hevent, hprops⟩
    · -- the first balance is about another currency
      have hother : upper (upper balance.currency) ≠ upper (upper b.currency) :=
        fun heq => hfirst (List.mem_map.mpr ⟨balance, hmem, heq⟩)
      obtain ⟨hr, hs, he⟩ := ih hrest (cacheBalance upper exKey source reason now st b) hmem
      refine ⟨hr, hs, ?_⟩
      rw [stateOf_cacheBalance, if_neg hother] at he
      exact he

variable (source reason now) in
theorem arrived_cacheBalances (m : AccountManager) (providerName : String)
    {balances : List AccountBalance}
    (hnodup : (balances.map fun b => upper (upper b.currency)).Nodup) {balance : AccountBalance}
    (hmem : balance ∈ balances) :
    Arrived upper (upper providerName) m
      (m.cacheBalances upper providerName balances source reason now) balance := by
  obtain ⟨hreport, hstate, hevent⟩ :=
    arrived_cacheLoop hnodup (m.ensureExchange (upper providerName), []) hmem
  rw [stateOf_ensureExchange] at hevent
  exact ⟨hreport, hstate, hevent⟩

theorem reportOf_cacheBalances_of_notMem (m : AccountManager) (providerName : String)
    {balances : List AccountBalance} {key : String}
    (h : ∀ b ∈ balances, upper b.currency ≠ key) :
    (m.cacheBalances upper providerName balances source reason now).1.reportOf (upper providerName)
      key = m.reportOf (upper providerName) key :=
  (reportOf_cacheLoop_of_notMem h _).trans (reportOf_ensureExchange m _ key)

theorem stateOf_cacheBalances_of_notMem (m : AccountManager) (providerName : String)
    {balances : List AccountBalance} {key : String}
    (h : ∀ b ∈ balances, upper (upper b.currency) ≠ key) :
    (m.cacheBalances upper providerName balances source reason now).1.stateOf (upper providerName)
      key = m.stateOf (upper providerName) key :=
  (stateOf_cacheLoop_of_notMem h _).trans (stateOf_ensureExchange m _ key)

end AccountManager

end CryptoTrading.Accounts

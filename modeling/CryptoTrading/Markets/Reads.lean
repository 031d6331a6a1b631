import CryptoTrading.Markets.MarketDataManager

/-!
# What the market data manager shows

After any run of callbacks, calls and the writes of `initialize` the manager shows what the log says
(`Faithful`).  The candles of an asset are the end of everything received for it, sorted once,
although the list was sorted and cut after each batch (`candles_run`).  Every piece of market data
that is newer than all before it leads to one event and nothing else does, and the event names the
ticker symbol that the asset had when the update began (`events_run`).

A call returns what the log said at one moment between its start and its end, also when it had to
ask the exchange first (`read_between`).
-/

namespace CryptoTrading.Markets

open CryptoTrading.Lib

/-! ## §1 The log grows -/

section Grown

variable {assetKey : String} {log : List Offer} {o : Offer}

theorem latestMarketData_cleared :
    latestMarketData assetKey (log ++ [.clearedMarketData assetKey]) = none := by
  have hclears : (Offer.clearedMarketData assetKey).clearsMarketData assetKey = true := by
    simp [Offer.clearsMarketData]
  rw [latestMarketData, receivedMarketData, since_concat_of_anew hclears]
  rfl

theorem receivedMarketData_concat (h : o.clearsMarketData assetKey = false) :
    receivedMarketData assetKey (log ++ [o]) =
      receivedMarketData assetKey log ++ (o.marketDataFor assetKey).toList := by
  rw [receivedMarketData, since_concat_of_not h, List.filterMap_append]
  cases ho : o.marketDataFor assetKey <;> simp [ho, receivedMarketData]

theorem latestMarketData_frame (h : o.clearsMarketData assetKey = false)
    (hnone : o.marketDataFor assetKey = none) :
    latestMarketData assetKey (log ++ [o]) = latestMarketData assetKey log := by
  rw [latestMarketData, receivedMarketData_concat h, hnone, Option.toList_none, List.append_nil,
    latestMarketData]

theorem candleWindow_cleared : candleWindow assetKey (log ++ [.clearedCandles assetKey]) = [] := by
  have hclears : (Offer.clearedCandles assetKey).clearsCandles assetKey = true := by
    simp [Offer.clearsCandles]
  rw [candleWindow, receivedCandles, since_concat_of_anew hclears]
  simp [keepLast]

theorem receivedCandles_concat (h : o.clearsCandles assetKey = false) :
    receivedCandles assetKey (log ++ [o]) =
      receivedCandles assetKey log ++ o.candlesFor assetKey := by
  rw [receivedCandles, since_concat_of_not h, List.flatMap_append, List.flatMap_singleton,
    receivedCandles]

theorem candleWindow_frame (h : o.clearsCandles assetKey = false)
    (hnil : o.candlesFor assetKey = []) :
    candleWindow assetKey (log ++ [o]) = candleWindow assetKey log := by
  rw [candleWindow, receivedCandles_concat h, hnil, List.append_nil, candleWindow]

theorem tickerIn_named (tickerSymbol : String) :
    tickerIn assetKey (log ++ [.namedTicker assetKey tickerSymbol]) = some tickerSymbol := by
  simp [tickerIn, Offer.tickerFor]

theorem tickerIn_frame (h : o.tickerFor assetKey = none) :
    tickerIn assetKey (log ++ [o]) = tickerIn assetKey log := by
  simp [tickerIn, h]

end Grown

theorem dueEvents_concat (hasEventBus : Bool) (log : List Offer) (o : Offer) :
    dueEvents hasEventBus (log ++ [o]) =
      dueEvents hasEventBus log ++ (if hasEventBus then eventAfter log o else none).toList := by
  cases hasEventBus with
  | false => rfl
  | true => exact outputs_concat eventAfter [] log o

/-! ## §2 The manager follows the log -/

/-- The manager shows what the log says. -/
structure Shows (m : MarketDataManager) (log : List Offer) : Prop where
  current : ∀ assetKey, m.current assetKey = latestMarketData assetKey log
  candles : ∀ assetKey, m.candlesOf assetKey = candleWindow assetKey log
  ticker : ∀ assetKey, m.tickerSymbols.get? assetKey = tickerIn assetKey log

namespace Shows

variable {m : MarketDataManager} {log : List Offer}

theorem clearMarketData (h : Shows m log) (asset : Asset) :
    Shows (m.clearMarketData asset) (log ++ [.clearedMarketData asset.key]) where
  current key := by
    by_cases hkey : asset.key = key
    · subst hkey
      rw [latestMarketData_cleared]
      simp [MarketDataManager.current, MarketDataManager.clearMarketData]
    · rw [latestMarketData_frame (by simp [Offer.clearsMarketData, hkey]) rfl, ← h.current]
      simp [MarketDataManager.current, MarketDataManager.clearMarketData, Ne.symm hkey]
  candles key := (h.candles key).trans (candleWindow_frame rfl rfl).symm
  ticker key := (h.ticker key).trans (tickerIn_frame rfl).symm

theorem clearCandles (h : Shows m log) (asset : Asset) :
    Shows (m.clearCandles asset) (log ++ [.clearedCandles asset.key]) where
  current key := (h.current key).trans (latestMarketData_frame rfl rfl).symm
  candles key := by
    by_cases hkey : asset.key = key
    · subst hkey
      rw [candleWindow_cleared]
      simp [MarketDataManager.candlesOf, MarketDataManager.clearCandles, Dict.getD]
    · rw [candleWindow_frame (by simp [Offer.clearsCandles, hkey]) rfl, ← h.candles]
      simp [MarketDataManager.candlesOf, MarketDataManager.clearCandles, Dict.getD, Ne.symm hkey]
  ticker key := (h.ticker key).trans (tickerIn_frame rfl).symm

theorem nameTicker (h : Shows m log) (asset : Asset) :
    Shows (m.nameTicker asset) (log ++ [.namedTicker asset.key asset.tickerSymbol]) where
  current key := (h.current key).trans (latestMarketData_frame rfl rfl).symm
  candles key := (h.candles key).trans (candleWindow_frame rfl rfl).symm
  ticker key := by
    by_cases hkey : asset.key = key
    · subst hkey
      rw [tickerIn_named]
      simp [MarketDataManager.nameTicker]
    · rw [tickerIn_frame (by simp [Offer.tickerFor, hkey]), ← h.ticker]
      simp [MarketDataManager.nameTicker, Ne.symm hkey]

/-- Newer than what is shown is newer than all that came. -/
theorem isNewer_iff (h : Shows m log) (assetKey : String) (data : MarketData) :
    MarketDataManager.isNewer (m.current assetKey) data = true ↔
      ∀ d ∈ receivedMarketData assetKey log, d.timestamp < data.timestamp := by
  rw [h.current, latestMarketData]
  cases hmax : (receivedMarketData assetKey log).argmax MarketData.timestamp with
  | none =>
    rw [List.argmax_eq_none.mp hmax]
    simp [MarketDataManager.isNewer]
  | some latest =>
    have hmem := List.argmax_mem hmax
    simp only [MarketDataManager.isNewer, decide_eq_true_eq]
    exact ⟨fun hlt d hd => (List.le_of_mem_argmax hd hmax).trans_lt hlt, fun hall => hall _ hmem⟩

/-- An update of the market data leaves the candles and the ticker symbols as they are. -/
theorem updateMarketData_frame (m : MarketDataManager) (assetKey : String) (data : MarketData) :
    (m.updateMarketData assetKey data).1.candles = m.candles ∧
      (m.updateMarketData assetKey data).1.tickerSymbols = m.tickerSymbols ∧
        (m.updateMarketData assetKey data).1.hasEventBus = m.hasEventBus := by
  unfold MarketDataManager.updateMarketData
  split <;> exact ⟨rfl, rfl, rfl⟩

theorem updateMarketData (h : Shows m log) (assetKey : String) (data : MarketData)
    (tickerSymbol : Option String) :
    Shows (m.updateMarketData assetKey data).1
      (log ++ [.marketData assetKey data tickerSymbol]) := by
  obtain ⟨hcandles, htickers, -⟩ := updateMarketData_frame m assetKey data
  refine ⟨fun key => ?_, fun key => ?_, fun key => ?_⟩
  · by_cases hkey : assetKey = key
    · subst hkey
      -- the first of the latest stays unless the new one is later
      have hcurrent := h.current assetKey
      rw [latestMarketData] at hcurrent
      rw [latestMarketData, receivedMarketData_concat rfl, Offer.marketDataFor, if_pos rfl,
        Option.toList_some, List.argmax_concat, ← hcurrent]
      unfold MarketDataManager.updateMarketData
      cases hcur : m.current assetKey with
      | none => simp [MarketDataManager.isNewer, MarketDataManager.current]
      | some latest =>
        by_cases hlt : latest.timestamp < data.timestamp
        · simp [MarketDataManager.isNewer, hlt, MarketDataManager.current]
        · simp [MarketDataManager.isNewer, hlt, hcur]
    · have hsame : (m.updateMarketData assetKey data).1.current key = m.current key := by
        unfold MarketDataManager.updateMarketData
        split
        · simp [MarketDataManager.current, Ne.symm hkey]
        · rfl
      rw [hsame, h.current, latestMarketData_frame rfl (by simp [Offer.marketDataFor, hkey])]
  · rw [MarketDataManager.candlesOf, hcandles]
    exact (h.candles key).trans (candleWindow_frame rfl rfl).symm
  · rw [htickers]
    exact (h.ticker key).trans (tickerIn_frame rfl).symm

/-- The event of an update is the one that is due. -/
theorem updateEvent (h : Shows m log) (assetKey : String) (data : MarketData)
    (tickerSymbol : Option String) :
    (m.updateMarketData assetKey data).1.updateEvent tickerSymbol data
        (m.updateMarketData assetKey data).2 =
      if m.hasEventBus then eventAfter log (.marketData assetKey data tickerSymbol) else none := by
  have hbus := (updateMarketData_frame m assetKey data).2.2
  have hnewer : (m.updateMarketData assetKey data).2 = true ↔
      ∀ d ∈ receivedMarketData assetKey log, d.timestamp < data.timestamp := by
    rw [← h.isNewer_iff, MarketDataManager.updateMarketData]
    split <;> simp_all
  unfold MarketDataManager.updateEvent
  rw [hbus]
  simp only [eventAfter]
  by_cases hall : ∀ d ∈ receivedMarketData assetKey log, d.timestamp < data.timestamp
  · rw [hnewer.mpr hall, if_pos hall, Bool.true_and]
  · rw [Bool.eq_false_iff.mpr (fun hnew => hall (hnewer.mp hnew)), if_neg hall, Bool.false_and,
      if_neg Bool.false_ne_true]
    exact (ite_self none).symm

theorem updateCandles (h : Shows m log) (assetKey : String) (batch : List Candle) :
    Shows (m.updateCandles assetKey batch) (log ++ [.candles assetKey batch]) where
  current key := (h.current key).trans (latestMarketData_frame rfl rfl).symm
  candles key := by
    by_cases hkey : assetKey = key
    · subst hkey
      have hkept : ∀ l : List Candle, (if l.length > MarketDataManager.maxCandles then
          l.drop (l.length - MarketDataManager.maxCandles) else l) =
            keepLast MarketDataManager.maxCandles l := by
        intro l
        split
        · rfl
        · exact (keepLast_of_length_le (by omega)).symm
      have hget : (m.updateCandles assetKey batch).candlesOf assetKey =
          keepLast MarketDataManager.maxCandles
            (sortOn Candle.startTime (m.candlesOf assetKey ++ batch)) := by
        rw [← hkept]
        simp [MarketDataManager.updateCandles, MarketDataManager.candlesOf, Dict.getD]
      rw [hget, h.candles, candleWindow, candleWindow, receivedCandles_concat rfl,
        Offer.candlesFor, if_pos rfl, keepLast_sortOn_append]
    · rw [candleWindow_frame rfl (by simp [Offer.candlesFor, hkey]), ← h.candles]
      simp [MarketDataManager.updateCandles, MarketDataManager.candlesOf, Dict.getD,
        Ne.symm hkey]
  ticker key := (h.ticker key).trans (tickerIn_frame rfl).symm

end Shows

/-! ## §3 Whole runs -/

/-- A ticker symbol that was looked up for an asset at some moment. -/
def FoundTicker (assetKey : String) (log : List Offer) (tickerSymbol : Option String) : Prop :=
  ∃ l, l <+: log ∧ tickerSymbol = tickerIn assetKey l

theorem FoundTicker.mono {assetKey : String} {log log' : List Offer} {tickerSymbol : Option String}
    (h : FoundTicker assetKey log tickerSymbol) (hlog : log <+: log') :
    FoundTicker assetKey log' tickerSymbol := by
  obtain ⟨l, hl, hfound⟩ := h
  exact ⟨l, hl.trans hlog, hfound⟩

/-- The ticker symbol of each piece of market data was looked up before it took the lock. -/
def TickersFound (log : List Offer) : Prop :=
  ∀ before assetKey data tickerSymbol,
    before ++ [.marketData assetKey data tickerSymbol] <+: log →
      FoundTicker assetKey before tickerSymbol

theorem TickersFound.concat {log : List Offer} (h : TickersFound log) {o : Offer}
    (ho : ∀ assetKey data tickerSymbol, o = .marketData assetKey data tickerSymbol →
      FoundTicker assetKey log tickerSymbol) : TickersFound (log ++ [o]) := by
  intro before assetKey data tickerSymbol hprefix
  rcases List.prefix_concat_iff.mp hprefix with heq | hearlier
  · obtain ⟨rfl, hsame⟩ := List.append_inj' heq rfl
    exact ho assetKey data tickerSymbol (List.cons.inj hsame).1.symm
  · exact h before assetKey data tickerSymbol hearlier

/-- What an update that waits for the lock has looked up. -/
def MarketCall.lookup : MarketCall → Option (String × Option String)
  | .updatingFetched assetKey _ tickerSymbol => some (assetKey, tickerSymbol)
  | .updatingReceived assetKey _ tickerSymbol => some (assetKey, tickerSymbol)
  | _ => none

namespace MarketState

variable {s : MarketState} {hasEventBus : Bool}

/-- The manager shows what the log says, every event that is due is published or on its way, and the
    ticker symbols are ones that were looked up.

    The log has what came in the order of the locked updates, with the three writes of `initialize`
    among them. -/
structure Faithful (s : MarketState) (hasEventBus : Bool) : Prop where
  bus : s.manager.hasEventBus = hasEventBus
  shows : Shows s.manager s.log
  events : (s.published ++ s.pending).Perm (dueEvents hasEventBus s.log)
  waiting : ∀ call ∈ s.calls, ∀ assetKey tickerSymbol,
    call.lookup = some (assetKey, tickerSymbol) → FoundTicker assetKey s.log tickerSymbol
  found : TickersFound s.log

/-- What an update that waits has looked up. -/
theorem Faithful.foundOf (h : s.Faithful hasEventBus) {i : ℕ} {call : MarketCall}
    (hcall : s.calls[i]? = some call) {assetKey : String} {tickerSymbol : Option String}
    (hlookup : call.lookup = some (assetKey, tickerSymbol)) :
    FoundTicker assetKey s.log tickerSymbol :=
  h.waiting call (List.mem_of_getElem? hcall) assetKey tickerSymbol hlookup

/-- Something comes that is no market data. -/
theorem Faithful.of_offer (h : s.Faithful hasEventBus) {manager : MarketDataManager} {o : Offer}
    (hbus : manager.hasEventBus = s.manager.hasEventBus)
    (hshows : Shows manager (s.log ++ [o])) (hother : ∀ key data tickerSymbol,
      o ≠ .marketData key data tickerSymbol) :
    Faithful { s with manager := manager, log := s.log ++ [o] } hasEventBus where
  bus := hbus.trans h.bus
  shows := hshows
  events := by
    have hnone : eventAfter s.log o = none := by
      cases o with
      | marketData key data tickerSymbol => exact absurd rfl (hother key data tickerSymbol)
      | clearedMarketData | clearedCandles | namedTicker | candles => rfl
    show (s.published ++ s.pending).Perm (dueEvents hasEventBus (s.log ++ [o]))
    rw [dueEvents_concat, hnone, ite_self, Option.toList_none, List.append_nil]
    exact h.events
  waiting call hcall key tickerSymbol hlookup :=
    (h.waiting call hcall key tickerSymbol hlookup).mono (List.prefix_append _ _)
  found := h.found.concat fun key data tickerSymbol ho => absurd ho (hother key data tickerSymbol)

theorem Faithful.offerMarketData (h : s.Faithful hasEventBus) {assetKey : String}
    {tickerSymbol : Option String} (hfound : FoundTicker assetKey s.log tickerSymbol)
    (data : MarketData) : (s.offerMarketData assetKey data tickerSymbol).Faithful hasEventBus where
  bus := (Shows.updateMarketData_frame s.manager assetKey data).2.2.trans h.bus
  shows := h.shows.updateMarketData assetKey data tickerSymbol
  events := by
    show (s.published ++ (s.pending ++ (MarketDataManager.updateEvent
      (s.manager.updateMarketData assetKey data).1 tickerSymbol data
        (s.manager.updateMarketData assetKey data).2).toList)).Perm
          (dueEvents hasEventBus (s.log ++ [.marketData assetKey data tickerSymbol]))
    rw [dueEvents_concat, h.shows.updateEvent, h.bus, ← List.append_assoc]
    exact h.events.append_right _
  waiting call hcall key ticker hlookup :=
    (h.waiting call hcall key ticker hlookup).mono (List.prefix_append _ _)
  found := h.found.concat fun key data' ticker ho => by
    cases ho
    exact hfound

theorem Faithful.offerCandles (h : s.Faithful hasEventBus) (assetKey : String)
    (batch : List Candle) : (s.offerCandles assetKey batch).Faithful hasEventBus :=
  h.of_offer rfl (h.shows.updateCandles assetKey batch) (by simp)

/-- A call begins. -/
theorem Faithful.begin (h : s.Faithful hasEventBus) {call : MarketCall}
    (hcall : ∀ key ticker, call.lookup = some (key, ticker) → FoundTicker key s.log ticker) :
    Faithful { s with calls := s.calls ++ [call] } hasEventBus where
  bus := h.bus
  shows := h.shows
  events := h.events
  waiting call' hcall' key ticker hlookup := by
    rcases List.mem_append.mp hcall' with hold | hnew
    · exact h.waiting call' hold key ticker hlookup
    · obtain rfl := List.mem_singleton.mp hnew
      exact hcall key ticker hlookup
  found := h.found

/-- A call goes on. -/
theorem Faithful.setCall (h : s.Faithful hasEventBus) (i : ℕ) {call : MarketCall}
    (hcall : ∀ key ticker, call.lookup = some (key, ticker) → FoundTicker key s.log ticker) :
    (s.setCall i call).Faithful hasEventBus where
  bus := h.bus
  shows := h.shows
  events := h.events
  waiting call' hcall' key ticker hlookup := by
    rcases List.mem_or_eq_of_mem_set hcall' with hold | rfl
    · exact h.waiting call' hold key ticker hlookup
    · exact hcall key ticker hlookup
  found := h.found

/-- What is looked up now is what the log says. -/
theorem Faithful.lookedUp (h : s.Faithful hasEventBus) (assetKey : String) :
    FoundTicker assetKey s.log (s.lookedUp assetKey) :=
  ⟨s.log, List.prefix_rfl, h.shows.ticker assetKey⟩

theorem Faithful.publish (h : s.Faithful hasEventBus) (i : ℕ) :
    (s.step (.publish i)).Faithful hasEventBus where
  bus := h.bus
  shows := h.shows
  events := by
    refine List.Perm.trans ?_ h.events
    show (s.published ++ s.pending[i]?.toList ++ s.pending.eraseIdx i).Perm _
    rw [List.append_assoc]
    refine List.Perm.append_left s.published ?_
    cases hi : s.pending[i]? with
    | none => rw [List.eraseIdx_of_length_le (List.getElem?_eq_none_iff.mp hi)]; rfl
    | some event =>
      obtain ⟨hlt, rfl⟩ := List.getElem?_eq_some_iff.mp hi
      exact List.getElem_cons_eraseIdx_perm hlt
  waiting := h.waiting
  found := h.found

theorem Faithful.stepLock (h : s.Faithful hasEventBus) (i : ℕ) :
    (s.stepLock i).Faithful hasEventBus := by
  unfold MarketState.stepLock
  split
  · -- a first look at the market data
    refine h.setCall i fun key ticker hlookup => ?_
    split at hlookup <;> cases hlookup
  · -- the update with what the exchange has answered
    rename_i hcall
    exact (h.offerMarketData (h.foundOf hcall rfl) _).setCall i (by simp [MarketCall.lookup])
  · exact h.setCall i (by simp [MarketCall.lookup])
  · -- a first look at the candles
    refine h.setCall i fun key ticker hlookup => ?_
    split at hlookup <;> cases hlookup
  · exact h.setCall i (by simp [MarketCall.lookup])
  · -- the update of a callback
    rename_i hcall
    exact (h.offerMarketData (h.foundOf hcall rfl) _).setCall i (by simp [MarketCall.lookup])
  · exact h

theorem faithful_step (s : MarketState) (a : MarketAction) (h : s.Faithful hasEventBus) :
    (s.step a).Faithful hasEventBus := by
  -- only offers and what is written under the lock change what the manager shows
  cases a with
  | clearMarketData asset => exact h.of_offer rfl (h.shows.clearMarketData asset) (by simp)
  | clearCandles asset => exact h.of_offer rfl (h.shows.clearCandles asset) (by simp)
  | nameTicker asset => exact h.of_offer rfl (h.shows.nameTicker asset) (by simp)
  | onMarketData assetKey data =>
    refine h.begin fun key ticker hlookup => ?_
    cases hlookup
    exact h.lookedUp assetKey
  | onCandles assetKey batch => exact h.offerCandles assetKey batch
  | publish i => exact h.publish i
  | getMarketData asset => exact h.begin (by simp [MarketCall.lookup])
  | getCandles asset => exact h.begin (by simp [MarketCall.lookup])
  | lock i => exact h.stepLock i
  | marketDataFetched i answer =>
    simp only [step]
    split
    · rename_i assetKey data hcall
      refine h.setCall i fun key ticker hlookup => ?_
      cases hlookup
      exact h.lookedUp assetKey
    · exact h.setCall i (by simp [MarketCall.lookup])
    · exact h
  | candlesFetched i answer =>
    simp only [step]
    split
    · exact (h.offerCandles _ _).setCall i (by simp [MarketCall.lookup])
    · exact h.setCall i (by simp [MarketCall.lookup])
    · exact h

theorem faithful_start (hasEventBus : Bool) : (start hasEventBus).Faithful hasEventBus where
  bus := rfl
  shows := ⟨fun _ => rfl, fun _ => List.drop_nil.symm, fun _ => rfl⟩
  events := by
    cases hasEventBus with
    | false => exact List.Perm.nil
    | true => exact List.Perm.nil
  waiting := by simp [start]
  found before key data ticker h := by
    have hlength := h.length_le
    simp [start] at hlength

theorem faithful_run (hasEventBus : Bool) (as : List MarketAction) :
    (run step (start hasEventBus) as).Faithful hasEventBus :=
  run_invariant (Faithful · hasEventBus) faithful_step (faithful_start hasEventBus) as

/-- **After any run of callbacks and calls, the candles of an asset are the last of all that came
    since they were cleared, in the order of their times and, for one time, of their arrival.** -/
theorem candles_run (hasEventBus : Bool) (as : List MarketAction) (assetKey : String) :
    (run step (start hasEventBus) as).manager.candlesOf assetKey =
      candleWindow assetKey (run step (start hasEventBus) as).log :=
  (faithful_run hasEventBus as).shows.candles assetKey

/-- **The market data of an asset are the first of the latest that came since they were cleared.
    What was newer than all before it is published, or on its way, once for each time it came, if
    there is an event bus and its update found a ticker symbol when it began, and nothing else
    is.** -/
theorem events_run (hasEventBus : Bool) (as : List MarketAction) :
    (∀ assetKey, (run step (start hasEventBus) as).manager.current assetKey =
      latestMarketData assetKey (run step (start hasEventBus) as).log) ∧
      ((run step (start hasEventBus) as).published ++
        (run step (start hasEventBus) as).pending).Perm
        (dueEvents hasEventBus (run step (start hasEventBus) as).log) ∧
      TickersFound (run step (start hasEventBus) as).log :=
  have h := faithful_run hasEventBus as
  ⟨h.shows.current, h.events, h.found⟩

def btcUsd : Asset := ⟨"BTC", "USD", 2, "CRYPTO_DOT_COM", none, none⟩

/-- What `initialize` writes. -/
def initialized : List MarketAction :=
  [.clearMarketData btcUsd, .clearCandles btcUsd, .nameTicker btcUsd]

/-- A tick at the price 10. -/
def tick (timestamp : ℚ) : MarketData := ⟨1, 10, 10, 10, timestamp, none, none⟩

/-- An update that has begun before `initialize` writes the ticker symbol keeps its data, and there
    is no event about them. -/
example :
    (run step (start true) (.onMarketData btcUsd.key (tick 1) :: initialized ++ [.lock 0])).log =
        [.clearedMarketData btcUsd.key, .clearedCandles btcUsd.key,
          .namedTicker btcUsd.key btcUsd.tickerSymbol, .marketData btcUsd.key (tick 1) none] ∧
      dueEvents true (run step (start true)
        (.onMarketData btcUsd.key (tick 1) :: initialized ++ [.lock 0])).log = [] := by
  decide +kernel

/-! ## §4 Calls -/

/-- A call about an asset has returned, if it has, what the log said between two moments. -/
def Answers (assetKey : String) (log₀ log : List Offer) : MarketCall → Prop
  | .readingMarketData key => key = assetKey
  | .fetchingMarketData key => key = assetKey
  | .updatingFetched key _ _ => key = assetKey
  | .rereadingMarketData key => key = assetKey
  | .marketData result => ∃ l, log₀ <+: l ∧ l <+: log ∧ result = latestMarketData assetKey l
  | .readingCandles key => key = assetKey
  | .fetchingCandles key => key = assetKey
  | .rereadingCandles key => key = assetKey
  | .candles result => ∃ l, log₀ <+: l ∧ l <+: log ∧ result = candleWindow assetKey l
  | .raised => True
  -- a callback is no call
  | .updatingReceived _ _ _ => False
  | .received => False

theorem Answers.mono {assetKey : String} {log₀ log log' : List Offer} {call : MarketCall}
    (h : Answers assetKey log₀ log call) (hlog : log <+: log') :
    Answers assetKey log₀ log' call := by
  cases call with
  | marketData result =>
    obtain ⟨l, hstart, hend, hresult⟩ := h
    exact ⟨l, hstart, hend.trans hlog, hresult⟩
  | candles result =>
    obtain ⟨l, hstart, hend, hresult⟩ := h
    exact ⟨l, hstart, hend.trans hlog, hresult⟩
  | readingMarketData key => exact h
  | fetchingMarketData key => exact h
  | updatingFetched key data tickerSymbol => exact h
  | rereadingMarketData key => exact h
  | readingCandles key => exact h
  | fetchingCandles key => exact h
  | rereadingCandles key => exact h
  | raised => trivial
  | updatingReceived key data tickerSymbol => exact h
  | received => exact h

/-- A call that has begun when the log was `log₀`. -/
structure Underway (hasEventBus : Bool) (i : ℕ) (assetKey : String) (log₀ : List Offer)
    (s : MarketState) : Prop where
  faithful : s.Faithful hasEventBus
  grown : log₀ <+: s.log
  call : ∃ call, s.calls[i]? = some call ∧ Answers assetKey log₀ s.log call

namespace Underway

variable {i : ℕ} {assetKey : String} {log₀ : List Offer} {s' : MarketState}

/-- Nothing happens to the call. -/
theorem of_calls (h : Underway hasEventBus i assetKey log₀ s) (hfaithful : s'.Faithful hasEventBus)
    (hlog : s.log <+: s'.log) (hcalls : s.calls <+: s'.calls) :
    Underway hasEventBus i assetKey log₀ s' := by
  obtain ⟨call, hcall, hanswers⟩ := h.call
  obtain ⟨new, hnew⟩ := hcalls
  refine ⟨hfaithful, h.grown.trans hlog, call, ?_, hanswers.mono hlog⟩
  rw [← hnew, List.getElem?_append_left (List.getElem?_eq_some_iff.mp hcall).1, hcall]

/-- A call goes on, perhaps this one. -/
theorem setCall (h : Underway hasEventBus i assetKey log₀ s) {j : ℕ} {old new : MarketCall}
    (hold : s.calls[j]? = some old) (hfaithful : (s.setCall j new).Faithful hasEventBus)
    (hnew : Answers assetKey log₀ s.log old → Answers assetKey log₀ s.log new) :
    Underway hasEventBus i assetKey log₀ (s.setCall j new) := by
  obtain ⟨call, hcall, hanswers⟩ := h.call
  refine ⟨hfaithful, h.grown, ?_⟩
  by_cases hj : j = i
  · subst hj
    obtain rfl : call = old := Option.some.inj (hcall.symm.trans hold)
    refine ⟨new, ?_, hnew hanswers⟩
    exact List.getElem?_set_self (List.getElem?_eq_some_iff.mp hold).1
  · exact ⟨call, (List.getElem?_set_ne hj).trans hcall, hanswers⟩

theorem offerMarketData (h : Underway hasEventBus i assetKey log₀ s) {key : String}
    {tickerSymbol : Option String} (hfound : FoundTicker key s.log tickerSymbol)
    (data : MarketData) :
    Underway hasEventBus i assetKey log₀ (s.offerMarketData key data tickerSymbol) :=
  h.of_calls (h.faithful.offerMarketData hfound data) (List.prefix_append _ _) List.prefix_rfl

theorem offerCandles (h : Underway hasEventBus i assetKey log₀ s) (key : String)
    (batch : List Candle) : Underway hasEventBus i assetKey log₀ (s.offerCandles key batch) :=
  h.of_calls (h.faithful.offerCandles key batch) (List.prefix_append _ _) List.prefix_rfl

/-- What is read now is what the log says now. -/
theorem stepLock (h : Underway hasEventBus i assetKey log₀ s) (j : ℕ) :
    Underway hasEventBus i assetKey log₀ (s.stepLock j) := by
  have hfaithful := h.faithful.stepLock j
  unfold MarketState.stepLock at hfaithful ⊢
  split at hfaithful
  · -- a first look at the market data: they are returned, or the exchange is asked
    rename_i key hcall
    refine h.setCall hcall hfaithful fun hkey => ?_
    obtain rfl : key = assetKey := hkey
    cases hcurrent : s.manager.current key with
    | none => exact rfl
    | some data =>
      refine ⟨s.log, h.grown, List.prefix_rfl, ?_⟩
      rw [← h.faithful.shows.current, hcurrent]
  · rename_i key data tickerSymbol hcall
    exact (h.offerMarketData (h.faithful.foundOf hcall rfl) data).setCall hcall hfaithful id
  · -- the second look at the market data
    rename_i key hcall
    refine h.setCall hcall hfaithful fun hkey => ?_
    obtain rfl : key = assetKey := hkey
    exact ⟨s.log, h.grown, List.prefix_rfl, h.faithful.shows.current key⟩
  · rename_i key hcall
    refine h.setCall hcall hfaithful fun hkey => ?_
    split
    · exact hkey
    · exact hkey
  · -- the second look at the candles
    rename_i key hcall
    refine h.setCall hcall hfaithful fun hkey => ?_
    obtain rfl : key = assetKey := hkey
    exact ⟨s.log, h.grown, List.prefix_rfl, h.faithful.shows.candles key⟩
  · rename_i key data tickerSymbol hcall
    exact (h.offerMarketData (h.faithful.foundOf hcall rfl) data).setCall hcall hfaithful
      False.elim
  · exact h

end Underway

theorem underway_step {i : ℕ} {assetKey : String} {log₀ : List Offer} (s : MarketState)
    (a : MarketAction) (h : Underway hasEventBus i assetKey log₀ s) :
    Underway hasEventBus i assetKey log₀ (s.step a) := by
  have hfaithful := faithful_step s a h.faithful
  -- the logs only grow, and the call stays in its place among the calls
  cases a with
  | clearMarketData asset => exact h.of_calls hfaithful (List.prefix_append _ _) List.prefix_rfl
  | clearCandles asset => exact h.of_calls hfaithful (List.prefix_append _ _) List.prefix_rfl
  | nameTicker asset => exact h.of_calls hfaithful (List.prefix_append _ _) List.prefix_rfl
  | onMarketData key data => exact h.of_calls hfaithful List.prefix_rfl (List.prefix_append _ _)
  | onCandles key batch => exact h.offerCandles key batch
  | publish j => exact h.of_calls hfaithful List.prefix_rfl List.prefix_rfl
  | getMarketData asset => exact h.of_calls hfaithful List.prefix_rfl (List.prefix_append _ _)
  | getCandles asset => exact h.of_calls hfaithful List.prefix_rfl (List.prefix_append _ _)
  | lock j => exact h.stepLock j
  | marketDataFetched j answer =>
    simp only [step] at hfaithful ⊢
    split at hfaithful
    · rename_i key data hcall
      exact h.setCall hcall hfaithful id
    · rename_i hcall
      exact h.setCall hcall hfaithful fun _ => trivial
    · exact h
  | candlesFetched j answer =>
    simp only [step] at hfaithful ⊢
    split at hfaithful
    · rename_i key batch hcall
      exact (h.offerCandles key batch).setCall hcall hfaithful id
    · rename_i hcall
      exact h.setCall hcall hfaithful fun _ => trivial
    · exact h

/-- **A call returns what the log said at one moment between its start and now, whatever else ran
    meanwhile, and also when it had to ask the exchange.** -/
theorem read_between (hasEventBus : Bool) (before after : List MarketAction) (asset : Asset)
    {a : MarketAction} (ha : a = .getMarketData asset ∨ a = .getCandles asset) :
    ∃ call, (run step (start hasEventBus) (before ++ a :: after)).calls[
        (run step (start hasEventBus) before).calls.length]? = some call ∧
      Answers asset.key (run step (start hasEventBus) before).log
        (run step (start hasEventBus) (before ++ a :: after)).log call := by
  set s₀ := run step (start hasEventBus) before with hs₀
  have hfaithful : s₀.Faithful hasEventBus := faithful_run hasEventBus before
  have hbegun : Underway hasEventBus s₀.calls.length asset.key s₀.log (s₀.step a) := by
    refine ⟨faithful_step s₀ a hfaithful, ?_, ?_⟩
    · rcases ha with rfl | rfl <;> exact List.prefix_rfl
    · rcases ha with rfl | rfl <;> exact ⟨_, List.getElem?_concat_length, rfl⟩
  rw [run_append, ← hs₀, run_cons]
  exact (run_invariant (Underway hasEventBus s₀.calls.length asset.key s₀.log)
    underway_step hbegun after).call

/-- A newer tick comes while a call asks the exchange, and the call returns the newer one. -/
def overtakenFetch : List MarketAction :=
  [.lock 0, .onMarketData btcUsd.key (tick 2), .lock 1, .marketDataFetched 0 (some (tick 1)),
    .lock 0, .lock 0]

theorem read_between_overtakenFetch :
    ∃ l, (run step (start true) initialized).log <+: l ∧
      some (tick 2) = latestMarketData btcUsd.key l := by
  obtain ⟨call, hcall, hanswers⟩ :=
    read_between true initialized overtakenFetch btcUsd (.inl rfl)
  have hreturned : (run step (start true) (initialized ++
      .getMarketData btcUsd :: overtakenFetch)).calls[0]? =
        some (.marketData (some (tick 2))) := by
    decide +kernel
  obtain rfl := Option.some.inj (hcall.symm.trans hreturned)
  obtain ⟨l, hstart, -, hresult⟩ := hanswers
  exact ⟨l, hstart, hresult⟩

end MarketState

end CryptoTrading.Markets

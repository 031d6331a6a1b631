import CryptoTrading.Api.Interfaces
import CryptoTrading.Api.MarketData
import CryptoTrading.Lib.Dict
import CryptoTrading.Lib.History
import CryptoTrading.Lib.SortedTail
import Mathlib.Data.List.MinMax

/-!
# The market data manager

Embeds `src/trading/markets/market_data_manager.py`.  Callbacks of the websocket and calls of any
thread update the latest market data and the candles of each asset; a call that finds nothing asks
the exchange first.

What a method does under its lock is one step, and every access without the lock is one of its own:
an update of the market data looks up the ticker symbol before it takes the lock, and `initialize`
writes to three dictionaries one after the other and never takes it.  Such a write may also come
while another thread holds the lock; what remains then is what the write leaves just before or just
after that thread's step.  An event is published after the lock was released, so several may be on
their way at once and arrive in any order.

The log of all that came (`Offer`) is not in the source.  It says what the manager is to show: of
each asset the first of the latest market data, and the end of all candles in the order of their
times.

Left out: `get_last_price`, `shutdown`, and what the websocket manager does with the subscriptions.
-/

namespace CryptoTrading.Markets

open CryptoTrading.Lib

/-! ## §1 The manager -/

structure MarketDataEvent where
  tickerSymbol : String
  marketData : MarketData
  deriving DecidableEq

structure MarketDataManager where
  hasEventBus : Bool
  marketData : Dict String (Option MarketData)
  candles : Dict String (List Candle)
  tickerSymbols : Dict String String

namespace MarketDataManager

/-- `MAX_CANDLES`. -/
def maxCandles : ℕ := 300

/-- `__init__`. -/
def new (hasEventBus : Bool) : MarketDataManager where
  hasEventBus := hasEventBus
  marketData := Dict.empty
  candles := Dict.empty
  tickerSymbols := Dict.empty

/-- The first write of `initialize` for an asset. -/
def clearMarketData (m : MarketDataManager) (asset : Asset) : MarketDataManager :=
  { m with marketData := m.marketData.set asset.key none }

/-- The second one. -/
def clearCandles (m : MarketDataManager) (asset : Asset) : MarketDataManager :=
  { m with candles := m.candles.set asset.key [] }

/-- The third one, before it asks for candles and subscribes. -/
def nameTicker (m : MarketDataManager) (asset : Asset) : MarketDataManager :=
  { m with tickerSymbols := m.tickerSymbols.set asset.key asset.tickerSymbol }

/-- `_market_data.get`. -/
def current (m : MarketDataManager) (assetKey : String) : Option MarketData :=
  (m.marketData.get? assetKey).join

/-- `_candles.get`, with an empty list for a missing one. -/
def candlesOf (m : MarketDataManager) (assetKey : String) : List Candle :=
  m.candles.getD assetKey []

/-- `is_newer`. -/
def isNewer (currentMarketData : Option MarketData) (newMarketData : MarketData) : Bool :=
  match currentMarketData with
  | none => true
  | some currentMarketData => decide (currentMarketData.timestamp < newMarketData.timestamp)

/-- The locked part of `_update_market_data`, and whether the data were newer. -/
def updateMarketData (m : MarketDataManager) (assetKey : String) (newMarketData : MarketData) :
    MarketDataManager × Bool :=
  if isNewer (m.current assetKey) newMarketData then
    ({ m with marketData := m.marketData.set assetKey (some newMarketData) }, true)
  else (m, false)

/-- What `_update_market_data` publishes after that; the ticker symbol was looked up before. -/
def updateEvent (m : MarketDataManager) (tickerSymbol : Option String) (newMarketData : MarketData)
    (newer : Bool) : Option MarketDataEvent :=
  if newer && m.hasEventBus then (tickerSymbol.filter (· ≠ "")).map (⟨·, newMarketData⟩) else none

/-- `_update_candles`. -/
def updateCandles (m : MarketDataManager) (assetKey : String) (newCandles : List Candle) :
    MarketDataManager :=
  -- the sort is stable, and candles of one time are not merged
  let sorted := sortOn Candle.startTime (m.candlesOf assetKey ++ newCandles)
  let kept :=
    if sorted.length > maxCandles then sorted.drop (sorted.length - maxCandles) else sorted
  { m with candles := m.candles.set assetKey kept }

end MarketDataManager

/-! ## §2 Calls and callbacks -/

/-- A call of `get_market_data` or `get_candles`, or a callback with market data, between its
    steps. -/
inductive MarketCall where
  | readingMarketData (assetKey : String)
  | fetchingMarketData (assetKey : String)
  /-- An update that has looked up the ticker symbol. -/
  | updatingFetched (assetKey : String) (data : MarketData) (tickerSymbol : Option String)
  | rereadingMarketData (assetKey : String)
  | marketData (result : Option MarketData)
  | readingCandles (assetKey : String)
  | fetchingCandles (assetKey : String)
  | rereadingCandles (assetKey : String)
  | candles (result : List Candle)
  /-- The exchange could not be asked. -/
  | raised
  /-- The update of a callback. -/
  | updatingReceived (assetKey : String) (data : MarketData) (tickerSymbol : Option String)
  | received
  deriving DecidableEq

/-- What came to the manager. -/
inductive Offer where
  | clearedMarketData (assetKey : String)
  | clearedCandles (assetKey : String)
  | namedTicker (assetKey tickerSymbol : String)
  /-- Market data, with the ticker symbol that was looked up for them. -/
  | marketData (assetKey : String) (data : MarketData) (tickerSymbol : Option String)
  | candles (assetKey : String) (batch : List Candle)
  deriving DecidableEq

inductive MarketAction where
  /-- The writes of `initialize`. -/
  | clearMarketData (asset : Asset)
  | clearCandles (asset : Asset)
  | nameTicker (asset : Asset)
  /-- The callbacks of the websocket begin. -/
  | onMarketData (assetKey : String) (newMarketData : MarketData)
  | onCandles (assetKey : String) (newCandles : List Candle)
  /-- One of the events that are on their way arrives. -/
  | publish (i : ℕ)
  | getMarketData (asset : Asset)
  | getCandles (asset : Asset)
  /-- A call or callback takes the lock. -/
  | lock (i : ℕ)
  /-- The exchange answers a call, or the request raises. -/
  | marketDataFetched (i : ℕ) (answer : Option MarketData)
  | candlesFetched (i : ℕ) (answer : Option (List Candle))

structure MarketState where
  manager : MarketDataManager
  calls : List MarketCall
  pending : List MarketDataEvent
  published : List MarketDataEvent
  log : List Offer

namespace MarketState

def start (hasEventBus : Bool) : MarketState := ⟨.new hasEventBus, [], [], [], []⟩

def setCall (s : MarketState) (i : ℕ) (call : MarketCall) : MarketState :=
  { s with calls := s.calls.set i call }

/-- The ticker symbol that is looked up for an asset. -/
def lookedUp (s : MarketState) (assetKey : String) : Option String :=
  s.manager.tickerSymbols.get? assetKey

def offerMarketData (s : MarketState) (assetKey : String) (data : MarketData)
    (tickerSymbol : Option String) : MarketState :=
  let (manager, newer) := s.manager.updateMarketData assetKey data
  { s with
    manager := manager
    pending := s.pending ++ (manager.updateEvent tickerSymbol data newer).toList
    log := s.log ++ [.marketData assetKey data tickerSymbol] }

def offerCandles (s : MarketState) (assetKey : String) (batch : List Candle) : MarketState :=
  { s with
    manager := s.manager.updateCandles assetKey batch
    log := s.log ++ [.candles assetKey batch] }

/-- A call or callback takes the lock.

    A call that finds nothing leaves the lock to ask the exchange, takes it again with the answer,
    and reads once more. -/
def stepLock (s : MarketState) (i : ℕ) : MarketState :=
  match s.calls[i]? with
  | some (.readingMarketData assetKey) =>
    s.setCall i (match s.manager.current assetKey with
      | none => .fetchingMarketData assetKey
      | some data => .marketData (some data))
  -- the update of what the exchange answered
  | some (.updatingFetched assetKey data tickerSymbol) =>
    (s.offerMarketData assetKey data tickerSymbol).setCall i (.rereadingMarketData assetKey)
  | some (.rereadingMarketData assetKey) =>
    s.setCall i (.marketData (s.manager.current assetKey))
  | some (.readingCandles assetKey) =>
    s.setCall i (if (s.manager.candlesOf assetKey).length > 0 then .rereadingCandles assetKey
      else .fetchingCandles assetKey)
  | some (.rereadingCandles assetKey) => s.setCall i (.candles (s.manager.candlesOf assetKey))
  -- the update of what the websocket sent
  | some (.updatingReceived assetKey data tickerSymbol) =>
    (s.offerMarketData assetKey data tickerSymbol).setCall i .received
  | _ => s

def step (s : MarketState) : MarketAction → MarketState
  | .clearMarketData asset =>
    { s with
      manager := s.manager.clearMarketData asset
      log := s.log ++ [.clearedMarketData asset.key] }
  | .clearCandles asset =>
    { s with manager := s.manager.clearCandles asset, log := s.log ++ [.clearedCandles asset.key] }
  | .nameTicker asset =>
    { s with
      manager := s.manager.nameTicker asset
      log := s.log ++ [.namedTicker asset.key asset.tickerSymbol] }
  | .onMarketData assetKey newMarketData =>
    { s with
      calls := s.calls ++ [.updatingReceived assetKey newMarketData (s.lookedUp assetKey)] }
  | .onCandles assetKey newCandles => s.offerCandles assetKey newCandles
  | .publish i =>
    { s with pending := s.pending.eraseIdx i, published := s.published ++ s.pending[i]?.toList }
  | .getMarketData asset => { s with calls := s.calls ++ [.readingMarketData asset.key] }
  | .getCandles asset => { s with calls := s.calls ++ [.readingCandles asset.key] }
  | .lock i => s.stepLock i
  | .marketDataFetched i answer =>
    match s.calls[i]?, answer with
    | some (.fetchingMarketData assetKey), some data =>
      s.setCall i (.updatingFetched assetKey data (s.lookedUp assetKey))
    | some (.fetchingMarketData _), none => s.setCall i .raised
    | _, _ => s
  | .candlesFetched i answer =>
    match s.calls[i]?, answer with
    | some (.fetchingCandles assetKey), some batch =>
      (s.offerCandles assetKey batch).setCall i (.rereadingCandles assetKey)
    | some (.fetchingCandles _), none => s.setCall i .raised
    | _, _ => s

end MarketState

/-! ## §3 What the log says -/

namespace Offer

/-- The market data of the asset are forgotten. -/
def clearsMarketData (assetKey : String) : Offer → Bool
  | .clearedMarketData key => key = assetKey
  | _ => false

/-- Its candles are forgotten. -/
def clearsCandles (assetKey : String) : Offer → Bool
  | .clearedCandles key => key = assetKey
  | _ => false

def marketDataFor (assetKey : String) : Offer → Option MarketData
  | .marketData key data _ => if key = assetKey then some data else none
  | _ => none

def candlesFor (assetKey : String) : Offer → List Candle
  | .candles key batch => if key = assetKey then batch else []
  | _ => []

def tickerFor (assetKey : String) : Offer → Option String
  | .namedTicker key tickerSymbol => if key = assetKey then some tickerSymbol else none
  | _ => none

end Offer

/-- The market data of an asset since they were cleared, in the order of their arrival. -/
def receivedMarketData (assetKey : String) (log : List Offer) : List MarketData :=
  (since (Offer.clearsMarketData assetKey) log).filterMap (·.marketDataFor assetKey)

/-- The candles of an asset since they were cleared, in the order of their arrival. -/
def receivedCandles (assetKey : String) (log : List Offer) : List Candle :=
  (since (Offer.clearsCandles assetKey) log).flatMap (·.candlesFor assetKey)

/-- The market data to show: the first of the latest. -/
def latestMarketData (assetKey : String) (log : List Offer) : Option MarketData :=
  (receivedMarketData assetKey log).argmax MarketData.timestamp

/-- The candles to show: the end of all of them, in the order of their times. -/
def candleWindow (assetKey : String) (log : List Offer) : List Candle :=
  keepLast MarketDataManager.maxCandles (sortOn Candle.startTime (receivedCandles assetKey log))

/-- The ticker symbol that an asset was given last. -/
def tickerIn (assetKey : String) (log : List Offer) : Option String :=
  (log.filterMap (·.tickerFor assetKey)).getLast?

/-- The event about an offer: it is newer than all that came before it, and a ticker symbol was
    found for it. -/
def eventAfter (before : List Offer) : Offer → Option MarketDataEvent
  | .marketData assetKey data tickerSymbol =>
    if ∀ d ∈ receivedMarketData assetKey before, d.timestamp < data.timestamp then
      (tickerSymbol.filter (· ≠ "")).map (⟨·, data⟩)
    else none
  | _ => none

/-- The events that are due. -/
def dueEvents (hasEventBus : Bool) (log : List Offer) : List MarketDataEvent :=
  if hasEventBus then outputs eventAfter [] log else []

end CryptoTrading.Markets

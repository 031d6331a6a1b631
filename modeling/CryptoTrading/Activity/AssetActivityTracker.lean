import CryptoTrading.Lib.Dict
import CryptoTrading.Lib.History
import Mathlib.Tactic.NormNum

/-!
# Activity of the assets

Embeds `src/trading/activity/asset_activity_tracker.py` with the state of
`src/agent/monitoring/activity_state.py`.  The handlers of six kinds of events note the times at
which something last happened to an asset.  They run in any order on any threads, each `_touch`
under the lock.

Whatever the order, the state of an asset holds for each of its times the latest one noted
(`states_run`).
-/

namespace CryptoTrading.Activity

open CryptoTrading.Lib

/-! ## §1 The tracker -/

structure AssetActivityState where
  tickerSymbol : String
  lastMarketDataAt : Option ℚ
  lastEvaluationAt : Option ℚ
  lastSignalAt : Option ℚ
  lastOrderAt : Option ℚ
  lastExecutionAt : Option ℚ
  deriving DecidableEq

/-- A state in which nothing has happened. -/
def AssetActivityState.new (tickerSymbol : String) : AssetActivityState :=
  ⟨tickerSymbol, none, none, none, none, none⟩

/-- The events that the tracker subscribes to, with what it reads of them. -/
inductive ActivityEvent where
  | marketData (tickerSymbol : String) (timestamp : ℚ)
  | marketStateChanged (symbol : String) (marketTimestamp : ℚ)
  | strategyEvaluated (symbol : String) (evaluatedAt : ℚ)
  | signalGenerated (symbol : String) (generatedAt : ℚ)
  | orderSubmitted (symbol : String) (createdTime : ℚ)
  | orderFilled (symbol : String) (executedTime : Option ℚ) (createdTime : ℚ)
  deriving DecidableEq

/-- `_max_timestamp`. -/
def maxTimestamp (current : Option ℚ) (candidate : ℚ) : ℚ :=
  match current with
  | none => candidate
  | some current => if candidate > current then candidate else current

/-- The arguments of `_touch`. -/
structure Touch where
  lastMarketDataAt : Option ℚ := none
  lastEvaluationAt : Option ℚ := none
  lastSignalAt : Option ℚ := none
  lastOrderAt : Option ℚ := none
  lastExecutionAt : Option ℚ := none

/-- A time after `_touch`. -/
def touched (current candidate : Option ℚ) : Option ℚ :=
  match candidate with
  | none => current
  | some candidate => some (maxTimestamp current candidate)

abbrev ActivityStates := Dict String AssetActivityState

/-- `_touch`. -/
def touch (states : ActivityStates) (tickerSymbol : String) (times : Touch) : ActivityStates :=
  let state := states.getD tickerSymbol (.new tickerSymbol)
  states.set tickerSymbol
    { state with
      lastMarketDataAt := touched state.lastMarketDataAt times.lastMarketDataAt
      lastEvaluationAt := touched state.lastEvaluationAt times.lastEvaluationAt
      lastSignalAt := touched state.lastSignalAt times.lastSignalAt
      lastOrderAt := touched state.lastOrderAt times.lastOrderAt
      lastExecutionAt := touched state.lastExecutionAt times.lastExecutionAt }

/-- `event.order.executed_time or event.order.created_time`: zero counts as missing. -/
def executedAt (executedTime : Option ℚ) (createdTime : ℚ) : ℚ :=
  match executedTime with
  | none => createdTime
  | some t => if t = 0 then createdTime else t

/-- The handlers. -/
def onEvent (states : ActivityStates) : ActivityEvent → ActivityStates
  | .marketData tickerSymbol timestamp =>
    touch states tickerSymbol { lastMarketDataAt := some timestamp }
  | .marketStateChanged symbol marketTimestamp =>
    touch states symbol { lastMarketDataAt := some marketTimestamp }
  | .strategyEvaluated symbol evaluatedAt =>
    touch states symbol { lastEvaluationAt := some evaluatedAt }
  | .signalGenerated symbol generatedAt =>
    touch states symbol { lastSignalAt := some generatedAt }
  | .orderSubmitted symbol createdTime =>
    touch states symbol { lastOrderAt := some createdTime }
  | .orderFilled symbol executedTime createdTime =>
    touch states symbol { lastExecutionAt := some (executedAt executedTime createdTime) }

/-- `state_for`, which returns a copy. -/
def stateFor (states : ActivityStates) (tickerSymbol : String) : Option AssetActivityState :=
  states.get? tickerSymbol

/-! ## §2 The latest times -/

namespace ActivityEvent

def symbol : ActivityEvent → String
  | .marketData tickerSymbol _ => tickerSymbol
  | .marketStateChanged symbol _ => symbol
  | .strategyEvaluated symbol _ => symbol
  | .signalGenerated symbol _ => symbol
  | .orderSubmitted symbol _ => symbol
  | .orderFilled symbol _ _ => symbol

/-- What an event says about the times of its asset. -/
def times : ActivityEvent → Touch
  | .marketData _ timestamp => { lastMarketDataAt := some timestamp }
  | .marketStateChanged _ marketTimestamp => { lastMarketDataAt := some marketTimestamp }
  | .strategyEvaluated _ evaluatedAt => { lastEvaluationAt := some evaluatedAt }
  | .signalGenerated _ generatedAt => { lastSignalAt := some generatedAt }
  | .orderSubmitted _ createdTime => { lastOrderAt := some createdTime }
  | .orderFilled _ executedTime createdTime =>
    { lastExecutionAt := some (executedAt executedTime createdTime) }

end ActivityEvent

/-- The latest of the times that events say. -/
def latestTime (time : Touch → Option ℚ) (events : List ActivityEvent) : Option ℚ :=
  (events.filterMap fun event => time event.times).max?

/-- The events about an asset. -/
def eventsOf (tickerSymbol : String) (events : List ActivityEvent) : List ActivityEvent :=
  events.filter fun event => event.symbol = tickerSymbol

/-- What is known of an asset after some events, if there was one about it. -/
def activityOf (tickerSymbol : String) (events : List ActivityEvent) :
    Option AssetActivityState :=
  let own := eventsOf tickerSymbol events
  if own = [] then none
  else some
    { tickerSymbol := tickerSymbol
      lastMarketDataAt := latestTime Touch.lastMarketDataAt own
      lastEvaluationAt := latestTime Touch.lastEvaluationAt own
      lastSignalAt := latestTime Touch.lastSignalAt own
      lastOrderAt := latestTime Touch.lastOrderAt own
      lastExecutionAt := latestTime Touch.lastExecutionAt own }

theorem maxTimestamp_eq_max (current candidate : ℚ) :
    maxTimestamp (some current) candidate = max current candidate := by
  simp only [maxTimestamp]
  split
  · rename_i h
    exact (max_eq_right h.le).symm
  · rename_i h
    exact (max_eq_left (not_lt.mp h)).symm

/-- Each event takes the latest times further. -/
theorem latestTime_concat (time : Touch → Option ℚ) (events : List ActivityEvent)
    (event : ActivityEvent) :
    latestTime time (events ++ [event]) =
      touched (latestTime time events) (time event.times) := by
  unfold latestTime
  rw [List.filterMap_append]
  cases htime : time event.times with
  | none => simp [htime, touched]
  | some candidate =>
    have hlast : [event].filterMap (fun event => time event.times) = [candidate] := by
      simp [htime]
    rw [hlast, touched]
    cases events.filterMap fun event => time event.times with
    | nil => rfl
    | cons first rest =>
      rw [List.cons_append, List.max?_cons', List.max?_cons', List.foldl_append,
        maxTimestamp_eq_max]
      rfl

/-- The handlers are one touch with what the event says. -/
theorem onEvent_eq_touch (states : ActivityStates) (event : ActivityEvent) :
    onEvent states event = touch states event.symbol event.times := by
  cases event <;> rfl

theorem activityOf_concat_of_ne {tickerSymbol : String} {event : ActivityEvent}
    (events : List ActivityEvent) (h : event.symbol ≠ tickerSymbol) :
    activityOf tickerSymbol (events ++ [event]) = activityOf tickerSymbol events := by
  have hown : eventsOf tickerSymbol (events ++ [event]) = eventsOf tickerSymbol events := by
    simp [eventsOf, h]
  rw [activityOf, hown]
  rfl

/-- An event about an asset touches what was known of it. -/
theorem activityOf_concat (events : List ActivityEvent) (event : ActivityEvent) :
    activityOf event.symbol (events ++ [event]) =
      let state := (activityOf event.symbol events).getD (.new event.symbol)
      some
        { state with
          lastMarketDataAt := touched state.lastMarketDataAt event.times.lastMarketDataAt
          lastEvaluationAt := touched state.lastEvaluationAt event.times.lastEvaluationAt
          lastSignalAt := touched state.lastSignalAt event.times.lastSignalAt
          lastOrderAt := touched state.lastOrderAt event.times.lastOrderAt
          lastExecutionAt := touched state.lastExecutionAt event.times.lastExecutionAt } := by
  have hown : eventsOf event.symbol (events ++ [event]) =
      eventsOf event.symbol events ++ [event] := by
    simp [eventsOf]
  rw [activityOf, hown]
  simp only [if_neg (List.concat_ne_nil event (eventsOf event.symbol events)), latestTime_concat]
  unfold activityOf
  by_cases hnone : eventsOf event.symbol events = []
  · simp only [hnone]
    rfl
  · simp only [if_neg hnone]
    rfl

/-- **Whatever the order in which the handlers ran, the state of an asset holds the latest of the
    times that its events said.** -/
theorem states_run (events : List ActivityEvent) (tickerSymbol : String) :
    stateFor (run onEvent Dict.empty events) tickerSymbol = activityOf tickerSymbol events := by
  induction events using List.reverseRecOn with
  | nil => rfl
  | append_singleton events event ih =>
    rw [run_concat, onEvent_eq_touch, stateFor, touch, Dict.get?_set]
    by_cases hsymbol : tickerSymbol = event.symbol
    · subst hsymbol
      rw [if_pos rfl, activityOf_concat, Dict.getD, ← ih]
      rfl
    · rw [if_neg hsymbol, activityOf_concat_of_ne events (Ne.symm hsymbol), ← ih]
      rfl

end CryptoTrading.Activity

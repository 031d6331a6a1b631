import Mathlib.Algebra.Order.AbsoluteValue.Basic
import Mathlib.Algebra.Order.Field.Rat
import CryptoTrading.Accounts.AccountManager
import CryptoTrading.Reconciliation.Engine
import CryptoTrading.Session.PositionReconciler

/-!
# Reconciling balances with the exchange

Embeds `src/trading/reconciliation/reconcilers/balance_reconciler.py`.

The reconciler compares the cached balances with those the exchange reports, and then takes
over the latter.  When the balances cannot be fetched, or the answer is empty, it returns
no discrepancies without having compared anything.  The order in which it goes through the
currencies, that of a set in the source, is the order of the cache.
-/

namespace CryptoTrading.Reconciliation

open CryptoTrading.Lib CryptoTrading.Accounts
open CryptoTrading.Health (Severity)

structure BalanceReconciler where
  criticalThreshold : ℚ
  warningThreshold : ℚ

/-- What asking the exchange for its balances leads to: an error that is caught, an error that
    is not, or an answer. -/
inductive BalanceAnswer where
  | failed
  | raised
  | balances (balances : List AccountBalance)

namespace BalanceReconciler

def default : BalanceReconciler := ⟨1, 1 / 10000⟩

variable (upper : String → String)

/-- `exchange_map`: the last entry of a currency counts. -/
def exchangeMap (balances : List AccountBalance) : Dict String ℚ :=
  Dict.ofList (balances.map fun b => (upper b.currency, b.availableBalance))

/-- `local_map`: what is cached for the exchange. -/
def localMap (m : AccountManager) (exKey : String) : Dict String ℚ :=
  Dict.ofList ((m.balancesAt exKey).entries.map fun e => (upper e.1, e.2.availableBalance))

/-- The discrepancy of a currency, if the two amounts differ by more than the threshold. -/
def findingOf (r : BalanceReconciler) (currency : String) (exVal locVal : ℚ) : Option Finding :=
  let diff := exVal - locVal
  if |diff| > r.warningThreshold then
    let severity := if |diff| ≥ r.criticalThreshold then Severity.critical else Severity.warning
    some
      { discrepancyType := .balanceMismatch
        severity := severity
        assetOrCurrency := currency
        localValue := .amount currency locVal
        exchangeValue := .amount currency exVal
        difference := some diff
        actionTaken :=
          if severity = Severity.critical then "TRADING_PAUSED_AND_LOCAL_SYNCED"
          else "LOCAL_STATE_SYNCED" }
  else none

/-- The comparison: every cached currency, with zero for what the exchange does not list. -/
def compare (r : BalanceReconciler) (m : AccountManager) (exKey : String)
    (balances : List AccountBalance) : List Finding :=
  (localMap upper m exKey).entries.filterMap fun e =>
    r.findingOf e.1 ((exchangeMap upper balances).getD e.1 0) e.2

/-- `SessionManager.update_available_balance`. -/
def updateAvailableBalance (sm : Session.SessionManager) (assetKey : String) (available : ℚ) :
    Session.SessionManager :=
  match sm.getTradingContext assetKey with
  | some ctx => sm.setContext assetKey { ctx with availableBalance := available }
  | none => sm

/-- The available balances of the session follow the answer. -/
def syncSession (sm : Session.SessionManager) (exKey : String) (assets : List Asset)
    (balances : List AccountBalance) : Session.SessionManager :=
  assets.foldl (fun sm asset =>
    if upper asset.exchange = exKey then
      match (exchangeMap upper balances).get? (upper asset.quoteTickerSymbol) with
      | some available => updateAvailableBalance sm asset.key available
      | none => sm
    else sm) sm

/-- `BalanceReconciler.reconcile`: the outcome, and the account and session it leaves. -/
def reconcile (r : BalanceReconciler) (m : AccountManager) (sm : Session.SessionManager)
    (exchange : String) (assets : List Asset) (answer : BalanceAnswer) (now : ℚ) :
    Outcome × AccountManager × Session.SessionManager :=
  let exKey := upper exchange
  match answer with
  | .failed => (.incomplete [], m, sm)
  | .raised => (.raised, m, sm)
  -- an empty answer is not compared either
  | .balances [] => (.incomplete [], m, sm)
  | .balances balances =>
    (.completed (r.compare upper m exKey balances),
      (m.cacheBalances upper exKey balances .restReconciliation "AUTHORITATIVE_SYNC" now).1,
      syncSession upper sm exKey assets balances)

end BalanceReconciler

end CryptoTrading.Reconciliation

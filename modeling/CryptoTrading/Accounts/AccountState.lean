import Mathlib.Algebra.Order.Ring.Rat
import CryptoTrading.Api.Interfaces
import CryptoTrading.Lib.Dict

/-!
# Account states and balance events

Embeds `src/trading/accounts/account_state.py`, `api/interfaces/account_balance.py` and
the `BalanceChangedEvent` of `src/trading/events/domain_events.py`.

Every currency of an exchange has one state, with a version that counts its updates.
`upper` is the upper-casing of strings.  The times are those the caller reads from its
clock.  Left out: `account_id`, which is "default" everywhere, and the event fields that
repeat the currency as a symbol.
-/

namespace CryptoTrading.Accounts

open CryptoTrading.Lib

/-! ## §1 Balances -/

/-- `api.interfaces.account_balance.AccountBalance`. -/
structure AccountBalance where
  currency : String
  availableBalance : ℚ
  deriving DecidableEq

/-- Where a balance was reported by. -/
inductive BalanceSource where
  | ws | restReconciliation | bootstrap | external
  deriving DecidableEq, Repr

structure CurrencyBalanceState where
  currency : String
  total : ℚ
  available : ℚ
  reserved : ℚ
  lastUpdatedAt : ℚ
  version : ℕ
  source : BalanceSource
  deriving DecidableEq

/-- `CurrencyBalanceState.has_changed`. -/
def CurrencyBalanceState.hasChanged (s : CurrencyBalanceState) (otherAvailable : ℚ)
    (otherTotal : Option ℚ) : Bool :=
  s.available ≠ otherAvailable || (otherTotal.any fun total => s.total ≠ total)

structure AccountState where
  exchange : String
  balances : Dict String CurrencyBalanceState
  lastReconciliationTime : ℚ
  deriving DecidableEq

namespace AccountState

def new (exchange : String) : AccountState := ⟨exchange, Dict.empty, 0⟩

variable (upper : String → String)

/-- `AccountState.get_balance`. -/
def getBalance (st : AccountState) (currency : String) : Option CurrencyBalanceState :=
  st.balances.get? (upper currency)

/-- The state `update_balance` writes: `total` and `reserved` are derived from the available
    amount when they are not given, and the version is one more than the stored one. -/
def nextState (st : AccountState) (currency : String) (available : ℚ) (total reserved : Option ℚ)
    (source : BalanceSource) (now : ℚ) : CurrencyBalanceState :=
  let total := total.getD available
  { currency := upper currency
    total := total
    available := available
    reserved := reserved.getD (max 0 (total - available))
    lastUpdatedAt := now
    version :=
      match st.balances.get? (upper currency) with
      | some old => old.version + 1
      | none => 1
    source := source }

/-- `AccountState.update_balance`: the new state of the currency and the one before. -/
def updateBalance (st : AccountState) (currency : String) (available : ℚ)
    (total reserved : Option ℚ) (source : BalanceSource) (now : ℚ) :
    AccountState × CurrencyBalanceState × Option CurrencyBalanceState :=
  let newState := st.nextState upper currency available total reserved source now
  ({ st with balances := st.balances.set (upper currency) newState }, newState,
    st.balances.get? (upper currency))

end AccountState

/-! ## §2 Balance events -/

/-- `BalanceChangedEvent`; a missing total is the available amount. -/
structure BalanceChangedEvent where
  currency : String
  available : ℚ
  total : ℚ
  reserved : ℚ
  exchange : Option String
  previousTotal : Option ℚ
  previousAvailable : Option ℚ
  source : BalanceSource
  reason : String
  version : Option ℕ
  deriving DecidableEq

end CryptoTrading.Accounts

import CryptoTrading.Api.Interfaces
import CryptoTrading.Health.ConditionRegistry
import CryptoTrading.Lib.Run

/-!
# The exchange reconciliation engine

Embeds `src/trading/reconciliation/exchange_reconciliation_engine.py` with the models of
`discrepancy.py` and `reconciliation_report.py`, and the pause flag of
`src/trading/protection/protection_manager.py`.

A cycle checks the exchanges one after the other, in the order of a set.  For each exchange
it runs all reconcilers, replaces the active discrepancies of the exchange by what they
returned, and decides about the pause.  A reconciler that raises is logged and returns
nothing; one that fails internally returns what it has found by then.

Every reconciler of the repository reports under the upper-cased name of the exchange it is
given, so a finding carries no exchange of its own.  `upper` is the upper-casing of
strings.  Left out: the thread, the events, the cycle ids and times, and the details of a
discrepancy.
-/

namespace CryptoTrading.Reconciliation

open CryptoTrading.Lib
open CryptoTrading.Health (Severity)

/-! ## §1 Discrepancies and reports -/

inductive DiscrepancyType where
  | balanceMismatch | orderStatusMismatch | orphanOrderDetected | missingFill | positionMismatch
  | feeMismatch | untrackedTransfer
  deriving DecidableEq, Repr

/-- A value in a discrepancy: a text, or an amount after its label. -/
inductive ReportedValue where
  | text (value : String)
  | amount (label : String) (value : ℚ)
  deriving DecidableEq

/-- What a reconciler finds. -/
structure Finding where
  discrepancyType : DiscrepancyType
  severity : Severity
  assetOrCurrency : String
  localValue : ReportedValue
  exchangeValue : ReportedValue
  difference : Option ℚ
  actionTaken : String
  deriving DecidableEq

structure Discrepancy extends Finding where
  exchange : String
  deriving DecidableEq

/-- The finding as a discrepancy of an exchange. -/
def Finding.on (f : Finding) (exKey : String) : Discrepancy := { f with exchange := exKey }

/-- `Discrepancy.is_critical`. -/
def Discrepancy.isCritical (d : Discrepancy) : Bool := d.severity.isCriticalOrHigher

structure ReconciliationReport where
  exchange : String
  discrepancies : List Discrepancy
  deriving DecidableEq

/-- `ReconciliationReport.has_critical`. -/
def ReconciliationReport.hasCritical (report : ReconciliationReport) : Bool :=
  report.discrepancies.any Discrepancy.isCritical

/-- How a reconciler gets on with an exchange: it raises, it fails internally after some
    findings, or it completes its comparison. -/
inductive Outcome where
  | raised
  | incomplete (found : List Finding)
  | completed (found : List Finding)
  deriving DecidableEq

/-- What the engine gets to see. -/
def Outcome.found : Outcome → List Finding
  | .raised => []
  | .incomplete found => found
  | .completed found => found

/-- One exchange of a cycle, with the outcome of each reconciler. -/
structure Check where
  exchange : String
  outcomes : List Outcome
  deriving DecidableEq

/-! ## §2 The engine -/

/-- The pause flags of `ProtectionManager`. -/
structure ProtectionManager where
  isPaused : Bool
  pausedAssets : List String
  deriving DecidableEq

def ProtectionManager.pauseTrading (pm : ProtectionManager) : ProtectionManager :=
  { pm with isPaused := true }

def ProtectionManager.resumeTrading (pm : ProtectionManager) : ProtectionManager :=
  { pm with isPaused := false }

structure ExchangeReconciliationEngine where
  activeDiscrepancies : List Discrepancy
  protectionManager : Option ProtectionManager
  autoPauseOnCritical : Bool
  deriving DecidableEq

namespace ExchangeReconciliationEngine

def new (protectionManager : Option ProtectionManager) (autoPauseOnCritical : Bool) :
    ExchangeReconciliationEngine :=
  ⟨[], protectionManager, autoPauseOnCritical⟩

variable (upper : String → String)

/-- `has_critical_discrepancy`; a missing and an empty filter let everything through. -/
def hasCriticalDiscrepancy (e : ExchangeReconciliationEngine) (exchange symbol : Option String) :
    Bool :=
  e.activeDiscrepancies.any fun d =>
    d.isCritical &&
      (isFalsyStr exchange || upper d.exchange = upper (exchange.getD "")) &&
      (isFalsyStr symbol || upper d.assetOrCurrency = upper (symbol.getD ""))

/-- Trading is paused, as far as the engine can pause it. -/
def isPaused (e : ExchangeReconciliationEngine) : Bool :=
  e.protectionManager.any (·.isPaused)

/-- What the reconcilers return for an exchange, in their order. -/
def reportOf (check : Check) : ReconciliationReport where
  exchange := check.exchange
  discrepancies :=
    check.outcomes.flatMap fun outcome => outcome.found.map (Finding.on · (upper check.exchange))

/-- Replace the active discrepancies of the exchange by those of the report. -/
def takeReport (e : ExchangeReconciliationEngine) (report : ReconciliationReport) :
    ExchangeReconciliationEngine :=
  { e with activeDiscrepancies :=
      (e.activeDiscrepancies.filter fun d => upper d.exchange ≠ upper report.exchange) ++
        report.discrepancies }

/-- The policy actions of a cycle for one exchange. -/
def applyPolicy (e : ExchangeReconciliationEngine) (report : ReconciliationReport) :
    ExchangeReconciliationEngine :=
  if report.hasCritical then
    if e.autoPauseOnCritical then
      { e with protectionManager := e.protectionManager.map ProtectionManager.pauseTrading }
    else e
  -- resuming looks at the discrepancies of all exchanges
  else if !e.hasCriticalDiscrepancy upper none none then
    if e.autoPauseOnCritical then
      { e with protectionManager := e.protectionManager.map ProtectionManager.resumeTrading }
    else e
  else e

/-- The loop body of `reconcile_all`. -/
def reconcileExchange (e : ExchangeReconciliationEngine) (check : Check) :
    ExchangeReconciliationEngine :=
  let report := reportOf upper check
  (e.takeReport upper report).applyPolicy upper report

/-- `ExchangeReconciliationEngine.reconcile_all`: the exchanges of the assets, in some order. -/
def reconcileAll (e : ExchangeReconciliationEngine) (cycle : List Check) :
    ExchangeReconciliationEngine × List ReconciliationReport :=
  (run (reconcileExchange upper) e cycle, cycle.map (reportOf upper))

/-! ## §3 What a check does -/

variable {upper}

/-- Without filters, any critical discrepancy counts. -/
theorem hasCriticalDiscrepancy_none_iff (e : ExchangeReconciliationEngine) :
    e.hasCriticalDiscrepancy upper none none = true ↔
      ∃ d ∈ e.activeDiscrepancies, d.isCritical = true := by
  simp [hasCriticalDiscrepancy, isFalsyStr]

variable (upper) in
/-- What the policy does: it pauses for a critical report, resumes when nothing critical is
    active, and otherwise does nothing. -/
theorem applyPolicy_cases (e : ExchangeReconciliationEngine) (report : ReconciliationReport) :
    (report.hasCritical = true ∧ e.applyPolicy upper report =
        { e with protectionManager := e.protectionManager.map ProtectionManager.pauseTrading }) ∨
      ((¬ ∃ d ∈ e.activeDiscrepancies, d.isCritical = true) ∧ e.applyPolicy upper report =
        { e with protectionManager := e.protectionManager.map ProtectionManager.resumeTrading }) ∨
      (e.applyPolicy upper report = e ∧
        (e.autoPauseOnCritical = true → report.hasCritical = false)) := by
  unfold applyPolicy
  by_cases hauto : e.autoPauseOnCritical = true
  · by_cases hreport : report.hasCritical = true
    · exact .inl ⟨hreport, by simp [hreport, hauto]⟩
    · by_cases hactive : e.hasCriticalDiscrepancy upper none none = true
      · exact .inr (.inr ⟨by simp [hreport, hactive], fun _ => by simpa using hreport⟩)
      · refine .inr (.inl ⟨mt (hasCriticalDiscrepancy_none_iff e).mpr hactive, ?_⟩)
        simp [hreport, hactive, hauto]
  · exact .inr (.inr ⟨by simp [hauto], fun h => absurd h hauto⟩)

/-- The policy decides about the pause and leaves the discrepancies alone. -/
@[simp] theorem activeDiscrepancies_applyPolicy (e : ExchangeReconciliationEngine)
    (report : ReconciliationReport) :
    (e.applyPolicy upper report).activeDiscrepancies = e.activeDiscrepancies := by
  rcases e.applyPolicy_cases upper report with ⟨-, h⟩ | ⟨-, h⟩ | ⟨h, -⟩ <;> rw [h]

@[simp] theorem autoPauseOnCritical_applyPolicy (e : ExchangeReconciliationEngine)
    (report : ReconciliationReport) :
    (e.applyPolicy upper report).autoPauseOnCritical = e.autoPauseOnCritical := by
  rcases e.applyPolicy_cases upper report with ⟨-, h⟩ | ⟨-, h⟩ | ⟨h, -⟩ <;> rw [h]

theorem mem_activeDiscrepancies_reconcileExchange {e : ExchangeReconciliationEngine}
    {check : Check} {d : Discrepancy} :
    d ∈ (e.reconcileExchange upper check).activeDiscrepancies ↔
      d ∈ e.activeDiscrepancies ∧ upper d.exchange ≠ upper check.exchange ∨
        d ∈ (reportOf upper check).discrepancies := by
  unfold reconcileExchange
  rw [activeDiscrepancies_applyPolicy, takeReport, List.mem_append, List.mem_filter,
    decide_eq_true_iff]
  rfl

theorem mem_reportOf {check : Check} {d : Discrepancy} :
    d ∈ (reportOf upper check).discrepancies ↔
      ∃ outcome ∈ check.outcomes, ∃ f ∈ outcome.found, f.on (upper check.exchange) = d := by
  simp [reportOf]

/-- Whenever a critical discrepancy is active, trading is paused. -/
def PausedIfCritical (e : ExchangeReconciliationEngine) : Prop :=
  e.autoPauseOnCritical = true → e.protectionManager.isSome →
    (∃ d ∈ e.activeDiscrepancies, d.isCritical = true) → e.isPaused = true

/-- A check pauses for what it finds, and resumes only when nothing critical is left. -/
theorem PausedIfCritical.reconcileExchange {e : ExchangeReconciliationEngine}
    (h : PausedIfCritical e) (check : Check) :
    PausedIfCritical (e.reconcileExchange upper check) := by
  have hstep : e.reconcileExchange upper check =
      (e.takeReport upper (reportOf upper check)).applyPolicy upper (reportOf upper check) := rfl
  have hpaused : (e.takeReport upper (reportOf upper check)).isPaused = e.isPaused := rfl
  rintro hauto hmanager ⟨d, hd, hcritical⟩
  rw [hstep] at hauto hmanager ⊢
  rcases applyPolicy_cases upper (e.takeReport upper (reportOf upper check))
    (reportOf upper check) with ⟨-, heq⟩ | ⟨hnone, -⟩ | ⟨heq, hreport⟩
  · rw [heq] at hmanager ⊢
    obtain ⟨pm, hpm⟩ := Option.isSome_iff_exists.mp hmanager
    simp only at hpm
    rw [isPaused, hpm]
    obtain ⟨pm', -, rfl⟩ := Option.map_eq_some_iff.mp hpm
    rfl
  · rw [hstep, activeDiscrepancies_applyPolicy] at hd
    exact absurd ⟨d, hd, hcritical⟩ hnone
  · rw [heq] at hauto hmanager ⊢
    rw [hpaused]
    refine h hauto hmanager ?_
    -- the report has nothing critical, so the discrepancy was there before
    rcases mem_activeDiscrepancies_reconcileExchange.mp hd with ⟨hold, -⟩ | hnew
    · exact ⟨d, hold, hcritical⟩
    · have hany : (reportOf upper check).hasCritical = true :=
        List.any_eq_true.mpr ⟨d, hnew, hcritical⟩
      rw [hreport hauto] at hany
      cases hany

end ExchangeReconciliationEngine

end CryptoTrading.Reconciliation

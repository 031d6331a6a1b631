import CryptoTrading.Lib.Dict
import CryptoTrading.Reconciliation.BalanceReconciler

/-!
# Failed checks

The engine replaces the active discrepancies of an exchange by whatever its reconcilers
returned.  A reconciler that raised, or could not fetch what it compares, returned nothing,
so the discrepancies it had reported before are gone as if the comparison had been clean;
with the last critical one the pause is lifted.

To speak about who reported what, a run is watched: beside the engine stand the outcomes of
the last check of each exchange (`Watched`).  `failed_checks_iff` says that critical
discrepancies and pauses go away for good reason exactly when no reconciler fails on an
exchange while a critical discrepancy it reported there is active, unless another one
reports the same.  The pause itself follows the active discrepancies in every run.
-/

namespace CryptoTrading.Reconciliation

open CryptoTrading.Lib CryptoTrading.Accounts ExchangeReconciliationEngine

/-! ## §1 Watched runs -/

structure Watched where
  engine : ExchangeReconciliationEngine
  /-- The outcomes of the last check, by the upper-cased name of the exchange. -/
  last : Dict String (List Outcome)

variable (upper : String → String)

def watchedStep (s : Watched) (check : Check) : Watched :=
  ⟨s.engine.reconcileExchange upper check, s.last.set (upper check.exchange) check.outcomes⟩

/-- Before the first cycle. -/
def Watched.start (protectionManager : Option ProtectionManager) (autoPauseOnCritical : Bool) :
    Watched :=
  ⟨ExchangeReconciliationEngine.new protectionManager autoPauseOnCritical, Dict.empty⟩

/-- Two reports of one discrepancy, possibly with other figures. -/
def Discrepancy.Same (d d' : Discrepancy) : Prop :=
  d.discrepancyType = d'.discrepancyType ∧ d.exchange = d'.exchange ∧
    d.assetOrCurrency = d'.assetOrCurrency

instance (d d' : Discrepancy) : Decidable (d.Same d') := inferInstanceAs (Decidable (_ ∧ _))

/-- The discrepancy is reported as critical among those given. -/
def CriticalIn (ds : List Discrepancy) (d : Discrepancy) : Prop :=
  ∃ d' ∈ ds, d'.isCritical = true ∧ d'.Same d

instance (ds : List Discrepancy) (d : Discrepancy) : Decidable (CriticalIn ds d) :=
  inferInstanceAs (Decidable (∃ d' ∈ ds, _))

/-- The reconciler has returned the discrepancy in the last check of its exchange. -/
def Reporter (s : Watched) (d : Discrepancy) (reconciler : ℕ) : Prop :=
  ∃ outcomes, s.last.get? d.exchange = some outcomes ∧ ∃ outcome, outcomes[reconciler]? =
    some outcome ∧ ∃ f ∈ outcome.found, f.on d.exchange = d

/-- The reconciler completed its comparison for the exchange of the discrepancy. -/
def Completes (check : Check) (d : Discrepancy) (reconciler : ℕ) : Prop :=
  upper check.exchange = d.exchange ∧
    ∃ found, check.outcomes[reconciler]? = some (.completed found)

/-- It did so without reporting the discrepancy as critical. -/
def CompletesWithout (check : Check) (d : Discrepancy) (reconciler : ℕ) : Prop :=
  upper check.exchange = d.exchange ∧
    ∃ found, check.outcomes[reconciler]? = some (.completed found) ∧
      ¬ CriticalIn (found.map (Finding.on · d.exchange)) d

/-- The critical discrepancies that are active. -/
def Watched.Critical (s : Watched) (d : Discrepancy) : Prop :=
  d ∈ s.engine.activeDiscrepancies ∧ d.isCritical = true

instance (s : Watched) (d : Discrepancy) : Decidable (s.Critical d) :=
  inferInstanceAs (Decidable (_ ∧ _))

/-- A critical discrepancy goes away, and a pause is lifted, only in a check in which those who
    reported it complete their comparison without it. -/
structure Justified (s : Watched) (check : Check) : Prop where
  leaves : ∀ d, s.Critical d →
    ¬ CriticalIn (watchedStep upper s check).engine.activeDiscrepancies d →
      ∀ reconciler, Reporter s d reconciler → CompletesWithout upper check d reconciler
  resumes : s.engine.isPaused = true → (watchedStep upper s check).engine.isPaused = false →
    ∀ d, s.Critical d → ∀ reconciler, Reporter s d reconciler →
      CompletesWithout upper check d reconciler

/-- No reconciler fails on an exchange where a critical discrepancy that it reported is active,
    unless the check reports that discrepancy all the same. -/
def NotBlind (s : Watched) (check : Check) : Prop :=
  ∀ d, s.Critical d → d.exchange = upper check.exchange → ∀ reconciler, Reporter s d reconciler →
    Completes upper check d reconciler ∨ CriticalIn (reportOf upper check).discrepancies d

/-! ## §2 One check -/

variable {upper}

/-- Active discrepancies carry upper-cased names. -/
def Normalized (upper : String → String) (s : Watched) : Prop :=
  ∀ d ∈ s.engine.activeDiscrepancies, upper d.exchange = d.exchange

theorem exchange_of_mem_reportOf {check : Check} {d : Discrepancy}
    (h : d ∈ (reportOf upper check).discrepancies) : d.exchange = upper check.exchange := by
  obtain ⟨outcome, -, f, -, rfl⟩ := mem_reportOf.mp h
  rfl

theorem normalized_watchedStep (hupper : ∀ text, upper (upper text) = upper text) {s : Watched}
    (h : Normalized upper s) (check : Check) : Normalized upper (watchedStep upper s check) := by
  intro d hd
  rcases mem_activeDiscrepancies_reconcileExchange.mp hd with ⟨hold, -⟩ | hnew
  · exact h d hold
  · rw [exchange_of_mem_reportOf hnew, hupper]

/-- A discrepancy of another exchange stays; one of the exchange stays if it is reported. -/
theorem criticalIn_watchedStep_iff {s : Watched} (h : Normalized upper s) {check : Check}
    {d : Discrepancy} (hd : s.Critical d) :
    CriticalIn (watchedStep upper s check).engine.activeDiscrepancies d ↔
      d.exchange ≠ upper check.exchange ∨ CriticalIn (reportOf upper check).discrepancies d := by
  constructor
  · rintro ⟨d', hmem, hcritical, hsame⟩
    rcases mem_activeDiscrepancies_reconcileExchange.mp hmem with ⟨hold, hne⟩ | hnew
    · left
      rwa [← hsame.2.1, ← h d' hold]
    · exact .inr ⟨d', hnew, hcritical, hsame⟩
  · rintro (hne | ⟨d', hnew, hcritical, hsame⟩)
    · refine ⟨d, mem_activeDiscrepancies_reconcileExchange.mpr (.inl ⟨hd.1, ?_⟩), hd.2, rfl, rfl,
        rfl⟩
      rwa [h d hd.1]
    · exact ⟨d', mem_activeDiscrepancies_reconcileExchange.mpr (.inr hnew), hcritical, hsame⟩

/-- What a completed comparison finds is in the report. -/
theorem completesWithout_of_completes {check : Check} {d : Discrepancy} {reconciler : ℕ}
    (h : Completes upper check d reconciler)
    (hnot : ¬ CriticalIn (reportOf upper check).discrepancies d) :
    CompletesWithout upper check d reconciler := by
  obtain ⟨hexchange, found, hfound⟩ := h
  refine ⟨hexchange, found, hfound, ?_⟩
  rintro ⟨d', hmem, hcritical, hsame⟩
  obtain ⟨f, hf, rfl⟩ := List.mem_map.mp hmem
  refine hnot ⟨f.on d.exchange, ?_, hcritical, hsame⟩
  exact mem_reportOf.mpr ⟨.completed found, List.mem_of_getElem? hfound, f, hf, by rw [hexchange]⟩

/-- Trading is resumed only when nothing critical is left. -/
theorem not_criticalIn_of_resumed {e : ExchangeReconciliationEngine} {check : Check}
    (hbefore : e.isPaused = true) (hafter : (e.reconcileExchange upper check).isPaused = false)
    (d : Discrepancy) :
    ¬ CriticalIn (e.reconcileExchange upper check).activeDiscrepancies d := by
  rintro ⟨d', hmem, hcritical, -⟩
  have hpaused : (e.takeReport upper (reportOf upper check)).isPaused = true := hbefore
  have hstep : e.reconcileExchange upper check =
      (e.takeReport upper (reportOf upper check)).applyPolicy upper (reportOf upper check) := rfl
  rw [hstep] at hafter hmem
  rw [activeDiscrepancies_applyPolicy] at hmem
  rcases applyPolicy_cases upper (e.takeReport upper (reportOf upper check))
    (reportOf upper check) with ⟨-, heq⟩ | ⟨hnone, -⟩ | ⟨heq, -⟩
  · rw [heq] at hafter
    cases hpm : e.protectionManager with
    | none =>
      rw [isPaused, hpm] at hbefore
      cases hbefore
    | some pm =>
      rw [isPaused, takeReport, hpm] at hafter
      cases hafter
  · exact hnone ⟨d', hmem, hcritical⟩
  · rw [heq, hpaused] at hafter
    cases hafter

theorem justified_iff {s : Watched} (h : Normalized upper s) (check : Check) :
    Justified upper s check ↔ NotBlind upper s check := by
  constructor
  · intro hjust d hd hexchange reconciler hreporter
    by_cases hreported : CriticalIn (reportOf upper check).discrepancies d
    · exact .inr hreported
    · left
      have hgone : ¬ CriticalIn (watchedStep upper s check).engine.activeDiscrepancies d := by
        rw [criticalIn_watchedStep_iff h hd]
        exact fun hstay => hstay.elim (fun hne => hne hexchange) hreported
      obtain ⟨hsame, found, hfound, -⟩ := hjust.leaves d hd hgone reconciler hreporter
      exact ⟨hsame, found, hfound⟩
  · intro hblind
    have hleaves : ∀ d, s.Critical d →
        ¬ CriticalIn (watchedStep upper s check).engine.activeDiscrepancies d →
          ∀ reconciler, Reporter s d reconciler → CompletesWithout upper check d reconciler := by
      intro d hd hgone reconciler hreporter
      rw [criticalIn_watchedStep_iff h hd, not_or, not_not] at hgone
      obtain ⟨hexchange, hnot⟩ := hgone
      have hcompletes := (hblind d hd hexchange reconciler hreporter).resolve_right hnot
      exact completesWithout_of_completes hcompletes hnot
    exact ⟨hleaves, fun hbefore hafter d hd =>
      hleaves d hd (not_criticalIn_of_resumed hbefore hafter d)⟩

/-! ## §3 Runs of cycles -/

/-- Cycles are runs of checks, and the engine does not know that it is watched. -/
theorem engine_run_watchedStep (s : Watched) (checks : List Check) :
    (run (watchedStep upper) s checks).engine = run (reconcileExchange upper) s.engine checks := by
  induction checks generalizing s with
  | nil => rfl
  | cons check rest ih => exact ih (watchedStep upper s check)

theorem run_reconcileAll (e : ExchangeReconciliationEngine) (cycles : List (List Check)) :
    run (fun e cycle => (e.reconcileAll upper cycle).1) e cycles =
      run (reconcileExchange upper) e cycles.flatten := by
  induction cycles generalizing e with
  | nil => rfl
  | cons cycle rest ih =>
    rw [run_cons, ih, List.flatten_cons, run_append]
    rfl

/-- **A failed check is not a clean check** in a sequence of cycles, and trading is paused at the
    end of each of them while a critical discrepancy is active, exactly when no reconciler fails on
    an exchange while a critical discrepancy it reported there is active, unless the check reports
    it all the same.

    A reconciler that fails reports nothing, and a report without discrepancies clears the exchange.
    -/
theorem failed_checks_iff (hupper : ∀ text, upper (upper text) = upper text)
    (protectionManager : Option ProtectionManager) (autoPauseOnCritical : Bool)
    (cycles : List (List Check)) :
    (Along (watchedStep upper) (Justified upper)
        (Watched.start protectionManager autoPauseOnCritical) cycles.flatten ∧
      ∀ before, before <+: cycles → PausedIfCritical
        (run (fun e cycle => (e.reconcileAll upper cycle).1)
          (ExchangeReconciliationEngine.new protectionManager autoPauseOnCritical) before)) ↔
      Along (watchedStep upper) (NotBlind upper)
        (Watched.start protectionManager autoPauseOnCritical) cycles.flatten := by
  have hnormalized : Normalized upper (Watched.start protectionManager autoPauseOnCritical) := by
    intro d hd
    cases hd
  have hchecks := along_iff_of_invariant (Normalized upper)
    (fun s check hs => justified_iff hs check)
    (fun s check hs _ => normalized_watchedStep hupper hs check) hnormalized cycles.flatten
  rw [hchecks]
  refine and_iff_left ?_
  -- the pause follows the discrepancies whatever the reconcilers do
  intro before _
  rw [run_reconcileAll]
  refine run_invariant PausedIfCritical (fun e check he => he.reconcileExchange check) ?_ _
  rintro - - ⟨d, hd, -⟩
  cases hd

/-- A cached balance of 7610 USD. -/
def cachedUsd : AccountManager :=
  (AccountManager.new.cacheBalances id "BINANCE" [⟨"USD", 7610⟩] .ws "UPDATE" 0).1

/-- What the balance reconciler makes of an answer for that cache. -/
def balanceOutcome (answer : BalanceAnswer) : Outcome :=
  (BalanceReconciler.default.reconcile id cachedUsd ⟨none, false, none⟩ "BINANCE" [] answer 1).1

/-- A cycle over one exchange with one reconciler. -/
def balanceCycle (answer : BalanceAnswer) : List Check := [⟨"BINANCE", [balanceOutcome answer]⟩]

/-- The mismatch is found, and the next comparison is completed without one. -/
theorem clean_check_resumes :
    Along (watchedStep id) (Justified id) (Watched.start (some ⟨false, []⟩) true)
        [balanceCycle (.balances [⟨"USD", 23⟩]), balanceCycle (.balances [⟨"USD", 7610⟩])].flatten ∧
      ∀ before, before <+:
          [balanceCycle (.balances [⟨"USD", 23⟩]), balanceCycle (.balances [⟨"USD", 7610⟩])] →
        PausedIfCritical (run (fun e cycle => (e.reconcileAll id cycle).1)
          (ExchangeReconciliationEngine.new (some ⟨false, []⟩) true) before) := by
  refine (failed_checks_iff (fun _ => rfl) (some ⟨false, []⟩) true _).mpr ⟨?_, ?_, trivial⟩
  · rintro d ⟨hd, -⟩
    cases hd
  · rintro d - hexchange reconciler ⟨outcomes, hlast, outcome, houtcome, -⟩
    have hsecond : balanceOutcome (.balances [⟨"USD", 7610⟩]) = .completed [] := by decide +kernel
    rw [hexchange] at hlast
    obtain rfl : [balanceOutcome (.balances [⟨"USD", 23⟩])] = outcomes := Option.some.inj hlast
    -- there is one reconciler, and its second comparison is complete
    have hzero : reconciler = 0 := by
      have hlt := (List.getElem?_eq_some_iff.mp houtcome).1
      simpa using hlt
    subst hzero
    exact .inl ⟨hexchange.symm, [], congrArg some hsecond⟩

/-- The discrepancy between 7610 USD in the cache and 23 USD on the exchange. -/
def usdMismatch : Discrepancy where
  discrepancyType := .balanceMismatch
  severity := .critical
  assetOrCurrency := "USD"
  localValue := .amount "USD" 7610
  exchangeValue := .amount "USD" 23
  difference := some (-7587)
  actionTaken := "TRADING_PAUSED_AND_LOCAL_SYNCED"
  exchange := "BINANCE"

/-- The mismatch is found, and the next check cannot fetch the balances: the discrepancy is
    gone and trading goes on. -/
theorem failed_fetch_resumes :
    ¬ Along (watchedStep id) (Justified id) (Watched.start (some ⟨false, []⟩) true)
      [balanceCycle (.balances [⟨"USD", 23⟩]), balanceCycle .failed].flatten := by
  intro h
  have hcritical : (watchedStep id (Watched.start (some ⟨false, []⟩) true)
      ⟨"BINANCE", [balanceOutcome (.balances [⟨"USD", 23⟩])]⟩).Critical usdMismatch := by
    decide +kernel
  have hreporter : Reporter (watchedStep id (Watched.start (some ⟨false, []⟩) true)
      ⟨"BINANCE", [balanceOutcome (.balances [⟨"USD", 23⟩])]⟩) usdMismatch 0 :=
    ⟨_, rfl, _, rfl, usdMismatch.toFinding, by decide +kernel, rfl⟩
  have hgone : ¬ CriticalIn (watchedStep id (watchedStep id (Watched.start (some ⟨false, []⟩) true)
      ⟨"BINANCE", [balanceOutcome (.balances [⟨"USD", 23⟩])]⟩)
      ⟨"BINANCE", [balanceOutcome .failed]⟩).engine.activeDiscrepancies usdMismatch := by
    decide +kernel
  obtain ⟨-, found, hfound, -⟩ := h.2.1.leaves usdMismatch hcritical hgone 0 hreporter
  cases hfound

end CryptoTrading.Reconciliation

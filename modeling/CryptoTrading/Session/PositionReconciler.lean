import CryptoTrading.Health.ConditionRegistry
import CryptoTrading.Session.CashFlow

/-!
# Reconciling positions with the exchange

Embeds `src/trading/reconciliation/reconcilers/position_reconciler.py`.

A cycle compares the position of each context with the balance the exchange reports and
takes over the balance when they differ by more than dust.  It writes the quantity of the
position but not its lots.  The other operations of a session (an asset entering with a
position, every fill) write both, so the two records agree as long as no cycle finds a
difference.

`upper` is the upper-casing of strings; nothing depends on which one it is.  Decimals are exact
rationals.
-/

namespace CryptoTrading.Session

open CryptoTrading.Lib
open CryptoTrading.Health (Severity)

/-! ## §1 The reconciler -/

/-- An asset with the smallest quantity that can be traded. -/
structure ReconciledAsset extends Asset where
  minQuantity : ℚ
  deriving DecidableEq

/-- A position mismatch; the source also formats the two quantities as texts. -/
structure Discrepancy where
  severity : Severity
  exchange : String
  assetOrCurrency : String
  localQty : ℚ
  exchangeQty : ℚ
  difference : ℚ
  actionTaken : String
  deriving DecidableEq

structure PositionReconciler where
  criticalThreshold : ℚ
  dustThreshold : ℚ

/-- `SessionManager.get_trading_context`. -/
def SessionManager.getTradingContext (sm : SessionManager) (assetKey : String) :
    Option TradingContext :=
  sm.currentSession.bind fun session => session.tradingContexts.get? assetKey

namespace PositionReconciler

def default : PositionReconciler := ⟨1 / 1000, 1 / 100000000⟩

/-- The discrepancy reported for a difference beyond dust. -/
def discrepancy (r : PositionReconciler) (exKey : String) (asset : ReconciledAsset)
    (localQty exchangeQty : ℚ) : Discrepancy :=
  let diff := exchangeQty - localQty
  let critThresh :=
    if asset.minQuantity ≠ 0 then max r.criticalThreshold asset.minQuantity
    else r.criticalThreshold
  let severity := if |diff| ≥ critThresh then Severity.critical else Severity.warning
  { severity := severity
    exchange := exKey
    assetOrCurrency := asset.tickerSymbol
    localQty := localQty
    exchangeQty := exchangeQty
    difference := diff
    actionTaken :=
      if severity = Severity.critical then "TRADING_PAUSED_AND_LOCAL_SYNCED"
      else "LOCAL_STATE_SYNCED" }

section Reconcile

variable (upper : String → String) (r : PositionReconciler) (exKey : String)
  (baseBalance : Asset → Option ℚ)

/-- The loop body of `reconcile`; `baseBalance` is what the account manager answers for the
    base currency of an asset. -/
def reconcileAsset (st : SessionManager × List Discrepancy) (asset : ReconciledAsset) :
    SessionManager × List Discrepancy :=
  if upper asset.exchange ≠ exKey then st
  else
    match st.1.getTradingContext asset.key with
    | none => st
    | some ctx =>
      -- a missing balance counts as none of the currency
      let exchangeQty := (baseBalance asset.toAsset).getD 0
      if |exchangeQty - ctx.positionQty| > r.dustThreshold then
        (st.1.setContext asset.key { ctx with positionQty := exchangeQty },
          st.2 ++ [r.discrepancy exKey asset ctx.positionQty exchangeQty])
      else st

/-- `PositionReconciler.reconcile`. -/
def reconcile (sm : SessionManager) (exchange : String) (assets : List ReconciledAsset) :
    SessionManager × List Discrepancy :=
  assets.foldl (r.reconcileAsset upper (upper exchange) baseBalance) (sm, [])

/-- The position of an asset differs from the exchange by no more than dust. -/
def InTolerance (sm : SessionManager) (asset : ReconciledAsset) : Prop :=
  upper asset.exchange = exKey → ∀ ctx ∈ sm.getTradingContext asset.key,
    |(baseBalance asset.toAsset).getD 0 - ctx.positionQty| ≤ r.dustThreshold

instance (sm : SessionManager) (asset : ReconciledAsset) :
    Decidable (r.InTolerance upper exKey baseBalance sm asset) := by
  unfold InTolerance
  infer_instance

theorem reconcileAsset_of_inTolerance {sm : SessionManager} {asset : ReconciledAsset}
    (h : r.InTolerance upper exKey baseBalance sm asset) (found : List Discrepancy) :
    r.reconcileAsset upper exKey baseBalance (sm, found) asset = (sm, found) := by
  unfold reconcileAsset
  by_cases hex : upper asset.exchange = exKey
  · rw [if_neg (not_not.mpr hex)]
    cases hctx : sm.getTradingContext asset.key with
    | none => rfl
    | some ctx => simp [not_lt.mpr (h hex ctx hctx)]
  · rw [if_pos hex]

/-- A cycle that finds every position within dust changes nothing and reports nothing. -/
theorem reconcile_of_inTolerance {sm : SessionManager} {exchange : String}
    {assets : List ReconciledAsset}
    (h : ∀ asset ∈ assets, r.InTolerance upper (upper exchange) baseBalance sm asset) :
    r.reconcile upper baseBalance sm exchange assets = (sm, []) := by
  unfold reconcile
  induction assets with
  | nil => rfl
  | cons asset rest ih =>
    rw [List.foldl_cons, reconcileAsset_of_inTolerance _ _ _ _ (h asset List.mem_cons_self)]
    exact ih fun other hother => h other (List.mem_cons_of_mem _ hother)

end Reconcile

end PositionReconciler

/-! ## §2 The operations of a session -/

/-- The operations that touch a position. -/
inductive SessionOp where
  | initAssetBalance (asset : Asset)
      (startingBalance initialPositionQty initialEntryPrice timestamp : ℚ)
  | recordOrderFill (order : Order)
  | reconcile (exchange : String) (assets : List ReconciledAsset) (baseBalance : Asset → Option ℚ)

namespace SessionManager

/-- An operation that raises leaves the session as it is. -/
def opStep (upper : String → String) (r : PositionReconciler) (sm : SessionManager) :
    SessionOp → SessionManager
  | .initAssetBalance asset startingBalance initialPositionQty initialEntryPrice timestamp =>
    (sm.initAssetBalance asset startingBalance initialPositionQty initialEntryPrice
      timestamp).getD sm
  | .recordOrderFill order => (sm.recordOrderFill order).manager
  | .reconcile exchange assets baseBalance =>
    (r.reconcile upper baseBalance sm exchange assets).1

/-- The fills have a positive quantity. -/
def FillPositive (op : SessionOp) : Prop :=
  match op with
  | .recordOrderFill order => 0 < order.quantity
  | _ => True

instance : DecidablePred FillPositive := fun op => by
  cases op <;> unfold FillPositive <;> infer_instance

/-- A reconciliation cycle finds no position that differs from the exchange beyond dust. -/
def NoDrift (upper : String → String) (r : PositionReconciler) (sm : SessionManager)
    (op : SessionOp) : Prop :=
  match op with
  | .reconcile exchange assets baseBalance =>
    ∀ asset ∈ assets, r.InTolerance upper (upper exchange) baseBalance sm asset
  | _ => True

instance (upper : String → String) (r : PositionReconciler) (sm : SessionManager) :
    DecidablePred (NoDrift upper r sm) := fun op => by
  cases op <;> unfold NoDrift <;> infer_instance

/-- Every context keeps its two records in step. -/
def AllBooked (sm : SessionManager) : Prop :=
  ∀ key ctx, sm.getTradingContext key = some ctx → ctx.Booked

theorem getTradingContext_setContext {sm : SessionManager} {session : TradingSession}
    (hsession : sm.currentSession = some session) (key : String) (ctx : TradingContext)
    (other : String) :
    (sm.setContext key ctx).getTradingContext other =
      if other = key then some ctx else sm.getTradingContext other := by
  simp [getTradingContext, setContext, hsession, Dict.get?_set]

theorem AllBooked.setContext {sm : SessionManager} (h : sm.AllBooked) {session : TradingSession}
    (hsession : sm.currentSession = some session) (key : String) {ctx : TradingContext}
    (hctx : ctx.Booked) : (sm.setContext key ctx).AllBooked := by
  intro other ctx' hother
  rw [getTradingContext_setContext hsession] at hother
  split at hother
  · rw [← Option.some.inj hother]
    exact hctx
  · exact h other ctx' hother

/-- An asset enters with as many units in its lot as in its position. -/
theorem booked_bootstrapContext {ctx : TradingContext} (hflat : ctx.Flat) {quantity : ℚ}
    (hq : 0 < quantity) (price timestamp : ℚ) :
    (bootstrapContext ctx quantity price timestamp).Booked := by
  refine ⟨?_, ?_⟩
  · simp [bootstrapContext, hflat.positionLots_eq, LotsOpen, hq]
  · simp [bootstrapContext, hflat.positionLots_eq, heldQuantity]

theorem AllBooked.initAssetBalance {sm sm' : SessionManager} (h : sm.AllBooked) {asset : Asset}
    {startingBalance initialPositionQty initialEntryPrice timestamp : ℚ}
    (hinit : sm.initAssetBalance asset startingBalance initialPositionQty initialEntryPrice
      timestamp = some sm') : sm'.AllBooked := by
  unfold SessionManager.initAssetBalance at hinit
  cases hsession : sm.currentSession with
  | none => simp [hsession] at hinit
  | some session =>
    simp only [hsession] at hinit
    split at hinit
    · rw [← Option.some.inj hinit]
      exact h
    · rw [← Option.some.inj hinit]
      have hflat := TradingContext.flat_new asset.tickerSymbol asset.exchange startingBalance
        session.commitHash
      apply h.setContext hsession
      split
      · exact booked_bootstrapContext hflat ‹_› _ _
      · exact hflat.booked

theorem AllBooked.recordOrderFill {sm : SessionManager} (h : sm.AllBooked) {order : Order}
    (hq : 0 < order.quantity) : (sm.recordOrderFill order).manager.AllBooked := by
  unfold SessionManager.recordOrderFill
  cases hentry : sm.findEntry order.tickerSymbol with
  | none => exact h
  | some e =>
    obtain ⟨key, ctx⟩ := e
    obtain ⟨session, hsession, hget, -⟩ := findEntry_some hentry
    have hctx : ctx.Booked := h key ctx (by simpa [getTradingContext, hsession] using hget)
    exact h.setContext hsession key (TradingContext.recordFill_booked hctx hq)

/-- **One operation keeps the records in step** unless it is a cycle that takes over a
    balance. -/
theorem AllBooked.opStep {upper : String → String} {r : PositionReconciler} {sm : SessionManager}
    (h : sm.AllBooked) {op : SessionOp} (hpos : FillPositive op) (hdrift : NoDrift upper r sm op) :
    (sm.opStep upper r op).AllBooked := by
  cases op with
  | initAssetBalance asset startingBalance initialPositionQty initialEntryPrice timestamp =>
    show ((sm.initAssetBalance asset startingBalance initialPositionQty initialEntryPrice
      timestamp).getD sm).AllBooked
    cases hinit : sm.initAssetBalance asset startingBalance initialPositionQty initialEntryPrice
        timestamp with
    | none => exact h
    | some sm' => exact h.initAssetBalance hinit
  | recordOrderFill order => exact h.recordOrderFill hpos
  | reconcile exchange assets baseBalance =>
    show (r.reconcile upper baseBalance sm exchange assets).1.AllBooked
    rw [r.reconcile_of_inTolerance upper baseBalance hdrift]
    exact h

/-- A position that equals its lots is matched entirely when all of it is sold. -/
theorem sellRemaining_of_booked {ctx : TradingContext} (h : ctx.Booked) {exit : Exit}
    (hall : exit.quantity = ctx.positionQty) :
    (FifoTradeMatcher.matchLots ctx.positionLots exit).sellRemaining = 0 := by
  have hnonneg : 0 ≤ exit.quantity := by
    rw [hall, h.positionQty_eq]
    exact heldQuantity_nonneg h.lotsOpen
  rw [FifoTradeMatcher.matchLots, (matchFrom_spec exit hnonneg h.lotsOpen).sellRemaining_eq,
    consumed_one hnonneg h.lotsOpen, hall, h.positionQty_eq, min_self, sub_self]

/-- The position of a context equals its lots, and a sale of all of it finds lots for all. -/
def PositionEqualsLots (sm : SessionManager) : Prop :=
  ∀ key ctx, sm.getTradingContext key = some ctx →
    ctx.positionQty = (ctx.positionLots.map (·.remainingQuantity)).sum ∧
    ∀ exit : Exit, exit.quantity = ctx.positionQty →
      (FifoTradeMatcher.matchLots ctx.positionLots exit).sellRemaining = 0

/-- **Positions equal their lots as long as no cycle takes over a balance.** In a session that
    starts without contexts, and through assets entering, fills of any positive quantity and
    reconciliation cycles in any order, every state reached has the quantity of each position in its
    lots, if no cycle finds a position off by more than dust.

    A cycle that does take over a balance writes the position and leaves the lots. -/
theorem positionEqualsLots_of_noDrift (upper : String → String) (r : PositionReconciler)
    {sm : SessionManager} {session : TradingSession} (hsession : sm.currentSession = some session)
    (hempty : session.tradingContexts = Dict.empty) {ops : List SessionOp}
    (hpos : ∀ op ∈ ops, FillPositive op)
    (hdrift : Along (opStep upper r) (NoDrift upper r) sm ops) :
    ∀ done, done <+: ops → (run (opStep upper r) sm done).PositionEqualsLots := by
  have hstart : sm.AllBooked := by
    intro key ctx hctx
    simp [getTradingContext, hsession, hempty] at hctx
  have hops :
      Along (opStep upper r) (fun sm op => FillPositive op ∧ NoDrift upper r sm op) sm ops :=
    along_and.mpr ⟨along_of_forall hpos sm, hdrift⟩
  intro done hdone
  obtain ⟨rest, rfl⟩ := hdone
  have hbooked : (run (opStep upper r) sm done).AllBooked :=
    run_invariant_along AllBooked (fun _ _ h hop => h.opStep hop.1 hop.2) hstart
      (along_append.mp hops).1
  intro key ctx hctx
  exact ⟨(hbooked key ctx hctx).positionQty_eq,
    fun exit hall => sellRemaining_of_booked (hbooked key ctx hctx) hall⟩

/-- A session that has just been created. -/
def newSession : SessionManager where
  currentSession := some ⟨"session", Dict.empty, none⟩
  isRunning := true
  headCommitHash := none

def btcUsd : ReconciledAsset where
  baseTickerSymbol := "BTC"
  quoteTickerSymbol := "USD"
  quoteDecimals := 2
  exchange := "BINANCE"
  separator := none
  portfolio := none
  minQuantity := 1 / 1000

/-- One unit at the start, two bought, five sold, and a cycle that finds nothing left. -/
theorem positionEqualsLots_oversold :
    let ops := [SessionOp.initAssetBalance btcUsd.toAsset 1000 1 10 0,
      .recordOrderFill (sampleFill "1" .buy 20 2 0 0),
      .recordOrderFill (sampleFill "2" .sell 30 5 0 0),
      .reconcile "BINANCE" [btcUsd] fun _ => none]
    ∀ done, done <+: ops →
      (run (opStep String.toUpper PositionReconciler.default) newSession
        done).PositionEqualsLots := by
  intro ops
  have hpos : ∀ op ∈ ops, FillPositive op := by
    simp [ops, FillPositive, sampleFill, Order.new]
  have hdrift : Along (opStep String.toUpper PositionReconciler.default)
      (NoDrift String.toUpper PositionReconciler.default) newSession ops := by decide +kernel
  exact positionEqualsLots_of_noDrift String.toUpper PositionReconciler.default rfl rfl hpos hdrift

/-- Two units bought, of which the exchange delivers one and a half after its fee: the cycle
    takes over the balance and the lots keep two units. -/
theorem position_differs_after_reconcile :
    let ops := [SessionOp.initAssetBalance btcUsd.toAsset 1000 0 0 0,
      .recordOrderFill (sampleFill "1" .buy 20 2 0 0),
      .reconcile "BINANCE" [btcUsd] fun _ => some (3 / 2)]
    (∀ op ∈ ops, FillPositive op) ∧
      ¬ (run (opStep String.toUpper PositionReconciler.default) newSession
        ops).PositionEqualsLots := by
  intro ops
  refine ⟨by simp [ops, FillPositive, sampleFill, Order.new], ?_⟩
  intro h
  have hsome : ((run (opStep String.toUpper PositionReconciler.default) newSession
      ops).getTradingContext btcUsd.key).isSome := by decide +kernel
  have hne : ∀ ctx ∈ (run (opStep String.toUpper PositionReconciler.default) newSession
      ops).getTradingContext btcUsd.key,
      ctx.positionQty ≠ (ctx.positionLots.map (·.remainingQuantity)).sum := by decide +kernel
  have hmem := Option.get_mem hsome
  exact hne _ hmem (h _ _ hmem).1

end SessionManager

end CryptoTrading.Session

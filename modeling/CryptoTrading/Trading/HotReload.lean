import CryptoTrading.Lib.Run
import CryptoTrading.Trading.TradingExecutor

/-!
# A new configuration and a restart

Whether an update of the configuration leaves the executor as a restart with it would.  The
strategies, the factors and the sizing formulas always are those of a restart, up to the identity
of the strategy objects (`Restarted`): what `_assets_changed` compares decides what the resolver
makes of the assets.  It does not decide the rest of their fields, and the start does not read
the portfolio configuration, so that the two agree exactly when the assets are replaced or equal
anyway, and the portfolio configuration is the default one (`reload_eq_restart_iff`).
-/

namespace CryptoTrading.Trading

open CryptoTrading.Lib
open CryptoTrading.Consensus (ConsensusManager TradingStrategy)
open CryptoTrading.Expressions (Expr SyntaxError)
open CryptoTrading.Protection (PortfolioRiskManager)

/-! ## §1 The registry holds what the executor noted -/

/-- No list under a key when there is nothing to list. -/
def present (strategies : List TradingStrategy) : Option (List TradingStrategy) :=
  if strategies = [] then none else some strategies

/-- The manager holds these strategies, each under its action and in this order. -/
def HoldsOnly (m : ConsensusManager) (strategies : List TradingStrategy) : Prop :=
  ∀ action, m.strategies.get? action = present (strategies.filter (·.action = action))

theorem getD_of_holdsOnly {m : ConsensusManager} {strategies : List TradingStrategy}
    (h : HoldsOnly m strategies) (action : Option TradeAction) :
    m.strategies.getD action [] = strategies.filter (·.action = action) := by
  unfold Dict.getD
  rw [h action]
  unfold present
  split
  · rename_i hnil
    simp [hnil]
  · rfl

theorem HoldsOnly.registerStrategy {m m' : ConsensusManager} {strategies : List TradingStrategy}
    (h : HoldsOnly m strategies) {strategy : TradingStrategy}
    (hregister : m.registerStrategy strategy = (m', none)) :
    HoldsOnly m' (strategies ++ [strategy]) := by
  rcases m.registerStrategy_cases strategy with ⟨error, heq⟩ | ⟨-, heq⟩
  · rw [heq] at hregister
    cases hregister
  · rw [heq, getD_of_holdsOnly h] at hregister
    obtain rfl := congrArg Prod.fst hregister
    intro action
    show Dict.get? (m.strategies.set _ _) action = _
    rw [Dict.get?_set, List.filter_append]
    by_cases haction : action = strategy.action
    · subst haction
      simp [present]
    · have hother : ¬ strategy.action = action := fun heq => haction heq.symm
      simp [haction, hother, h action]

/-- The strategies go in the order in which they came. -/
theorem HoldsOnly.unregisterStrategy {m : ConsensusManager} {strategy : TradingStrategy}
    {rest : List TradingStrategy} (h : HoldsOnly m (strategy :: rest)) :
    HoldsOnly (m.unregisterStrategy strategy) rest := by
  have hget : m.strategies.get? strategy.action =
      some (strategy :: rest.filter (·.action = strategy.action)) := by
    rw [h strategy.action]
    simp [present]
  have hcontains : m.strategies.contains strategy.action = true := by
    simp [Dict.contains, hget]
  unfold ConsensusManager.unregisterStrategy
  simp only [hcontains, ↓reduceIte, List.foldl_cons, List.foldl_nil]
  unfold ConsensusManager.removeFrom
  simp only [hget, List.any_cons, decide_true, Bool.true_or, ↓reduceIte, List.eraseP_cons_of_pos]
  intro action
  have haction := h action
  by_cases hsame : action = strategy.action
  · subst hsame
    by_cases hnil : rest.filter (·.action = strategy.action) = []
    · simp [hnil, present]
    · simp [hnil, present]
  · have hother : ¬ strategy.action = action := fun heq => hsame heq.symm
    rw [List.filter_cons_of_neg (by simpa using hother)] at haction
    split
    · show Dict.get? (m.strategies.erase _) action = _
      rw [Dict.get?_erase_of_ne _ hsame, haction]
    · show Dict.get? (m.strategies.set _ _) action = _
      rw [Dict.get?_set_of_ne _ _ hsame, haction]

theorem HoldsOnly.unregister_all {m : ConsensusManager} {strategies : List TradingStrategy}
    (h : HoldsOnly m strategies) : HoldsOnly (strategies.foldl (·.unregisterStrategy ·) m) [] := by
  induction strategies generalizing m with
  | nil => exact h
  | cons strategy rest ih => exact ih h.unregisterStrategy

namespace Registrations

/-- The executor noted all that the manager holds. -/
def Noted (r : Registrations) : Prop :=
  HoldsOnly r.consensusManager (r.strategies.map Prod.fst)

theorem Noted.register {r : Registrations} (h : r.Noted) (resolved : ResolvedStrategy) :
    (r.register resolved).1.Noted := by
  unfold Registrations.register
  dsimp only
  split
  · rename_i manager error heq
    have hrefused := ConsensusManager.registerStrategy_refused (congrArg Prod.snd heq)
    rw [heq] at hrefused
    rw [show manager = r.consensusManager from hrefused]
    exact h
  · rename_i manager heq
    unfold Noted
    rw [List.map_append]
    exact HoldsOnly.registerStrategy h heq

variable {astParse : String → Except SyntaxError Expr}
  {registry : Dict (Option String) StrategyConfig}

theorem Noted.registerAssetStrategies {r : Registrations} (h : r.Noted)
    (assets : List TradingAsset) :
    (r.registerAssetStrategies astParse registry assets).1.Noted := by
  refine forEach_invariant Noted ?_ h assets
  intro r asset hr
  unfold registerAsset
  split
  · exact hr
  · exact forEach_invariant Noted (fun _ resolved hnoted => hnoted.register resolved) hr _

theorem Noted.unregisterAssetStrategies {r : Registrations} (h : r.Noted) :
    r.unregisterAssetStrategies.Noted := by
  unfold Registrations.unregisterAssetStrategies Noted
  have hempty := HoldsOnly.unregister_all h
  rw [List.foldl_map] at hempty
  exact hempty

/-! ## §2 Registering again -/

/-- The number of an object, counted from `n`. -/
def shiftObject (n : ℕ) (strategy : TradingStrategy) : TradingStrategy :=
  { strategy with object := strategy.object + n }

/-- The same registrations, of objects that are counted from `n`.  The factors may differ. -/
structure Alike (n : ℕ) (r r' : Registrations) : Prop where
  nextObject : r'.nextObject = r.nextObject + n
  strategies : r'.strategies = r.strategies.map fun s => (shiftObject n s.1, s.2)
  manager : ∀ action, r'.consensusManager.strategies.getD action [] =
    (r.consensusManager.strategies.getD action []).map (shiftObject n)

variable {n : ℕ} {r r' : Registrations}

/-- Whether a strategy is refused does not depend on the objects. -/
theorem findSome?_duplicateError_shift (strategy : TradingStrategy)
    (existing : List TradingStrategy) :
    (existing.map (shiftObject n)).findSome?
        (ConsensusManager.duplicateError (shiftObject n strategy)) =
      existing.findSome? (ConsensusManager.duplicateError strategy) := by
  rw [List.findSome?_map]
  rfl

theorem Alike.toStrategy (h : Alike n r r') (resolved : ResolvedStrategy) :
    resolved.toStrategy r'.nextObject = shiftObject n (resolved.toStrategy r.nextObject) := by
  rw [h.nextObject]
  rfl

theorem Alike.register (h : Alike n r r') (resolved : ResolvedStrategy) :
    Alike n (r.register resolved).1 (r'.register resolved).1 ∧
      (r.register resolved).2 = (r'.register resolved).2 := by
  unfold Registrations.register
  dsimp only
  rw [h.toStrategy resolved]
  generalize resolved.toStrategy r.nextObject = strategy
  have hexisting := h.manager strategy.action
  unfold ConsensusManager.registerStrategy
  simp only [show (shiftObject n strategy).tickerSymbols = strategy.tickerSymbols from rfl,
    show (shiftObject n strategy).action = strategy.action from rfl,
    show (shiftObject n strategy).name = strategy.name from rfl, hexisting,
    findSome?_duplicateError_shift]
  -- both sides refuse alike, since the objects are only shifted
  by_cases hunbound : strategy.tickerSymbols = some ∅
  · simp only [hunbound, ↓reduceIte]
    exact ⟨h, trivial⟩
  · simp only [hunbound, ↓reduceIte]
    cases (r.consensusManager.strategies.getD strategy.action []).findSome?
        (ConsensusManager.duplicateError strategy) with
    | some error => exact ⟨h, rfl⟩
    | none =>
      refine ⟨⟨?_, ?_, ?_⟩, rfl⟩
      · show r'.nextObject + 1 = r.nextObject + 1 + n
        rw [h.nextObject]
        omega
      · simp [h.strategies]
      · intro action
        simp only [Dict.getD, Dict.get?_set]
        split
        · simp
        · exact h.manager action

variable (astParse registry)

theorem Alike.registerAssetStrategies (h : Alike n r r') (assets : List TradingAsset) :
    Alike n (r.registerAssetStrategies astParse registry assets).1
        (r'.registerAssetStrategies astParse registry assets).1 ∧
      (r.registerAssetStrategies astParse registry assets).2 =
        (r'.registerAssetStrategies astParse registry assets).2 := by
  refine forEach_alike (Alike n) ?_ h assets
  intro r r' asset hr
  unfold registerAsset
  cases resolveAsset astParse registry asset with
  | error error => exact ⟨hr, rfl⟩
  | ok strategies =>
    exact forEach_alike (Alike n) (fun _ _ resolved halike => halike.register resolved) hr _

variable {astParse registry}

theorem Alike.bodyOf (h : Alike n r r') (strategy : TradingStrategy) :
    r'.bodyOf (shiftObject n strategy) = r.bodyOf strategy := by
  unfold Registrations.bodyOf
  rw [h.strategies, List.find?_map, Option.map_map]
  simp [Function.comp_def, shiftObject]

theorem Alike.registered (h : Alike n r r') (action : Option TradeAction) :
    r'.registered action = r.registered action := by
  unfold Registrations.registered
  rw [h.manager action, List.map_map]
  refine List.map_congr_left fun strategy _ => ?_
  have hbody := h.bodyOf strategy
  simp only [Function.comp_apply, Registrations.view, hbody]
  rfl

/-- Assets that agree in what is compared are registered alike. -/
theorem registerAssetStrategies_of_forall₂ {as bs : List TradingAsset}
    (h : List.Forall₂ (fun a b => a.tickerSymbol = b.tickerSymbol ∧ a.enabled = b.enabled ∧
      a.strategyList = b.strategyList ∧ a.dynamicQuantity = b.dynamicQuantity) as bs)
    (hreturns : (r.registerAssetStrategies astParse registry bs).2 = none) :
    r.registerAssetStrategies astParse registry as =
      r.registerAssetStrategies astParse registry bs := by
  unfold Registrations.registerAssetStrategies at hreturns ⊢
  -- along both lists, as long as the registrations return
  induction h generalizing r with
  | nil => rfl
  | @cons a b as bs hab _ ih =>
    obtain ⟨hticker, henabled, hstrategies, -⟩ := hab
    have hresolve := toOption_resolveAsset astParse registry hticker henabled hstrategies
    rw [forEach_cons] at hreturns ⊢
    rw [forEach_cons]
    cases hb : resolveAsset astParse registry b with
    | error error =>
      simp [registerAsset, hb] at hreturns
    | ok strategies =>
      have ha : resolveAsset astParse registry a = .ok strategies := by
        cases ha : resolveAsset astParse registry a with
        | error error => simp [ha, hb, Except.toOption] at hresolve
        | ok strategies' => simpa [ha, hb, Except.toOption] using hresolve
      have hround : registerAsset astParse registry r a = registerAsset astParse registry r b := by
        simp only [registerAsset, ha, hb]
      rw [hround]
      cases herror : (registerAsset astParse registry r b).2 with
      | some error =>
        rw [andThen_of_raises herror] at hreturns
        cases hreturns
      | none =>
        rw [andThen_of_returns herror] at hreturns ⊢
        rw [andThen_of_returns herror]
        exact ih hreturns

/-! ## §3 The factors stay -/

theorem assetFactors_registerAssetStrategies (r : Registrations) (assets : List TradingAsset) :
    (r.registerAssetStrategies astParse registry assets).1.consensusManager.assetFactors =
      r.consensusManager.assetFactors := by
  refine forEach_invariant
    (fun r' : Registrations =>
      r'.consensusManager.assetFactors = r.consensusManager.assetFactors) ?_ rfl assets
  intro r' asset hr'
  unfold registerAsset
  split
  · exact hr'
  · refine forEach_invariant
      (fun r' : Registrations =>
        r'.consensusManager.assetFactors = r.consensusManager.assetFactors) ?_ hr' _
    intro r'' resolved hr''
    rw [← hr'']
    unfold Registrations.register
    rcases r''.consensusManager.registerStrategy_cases
      (resolved.toStrategy r''.nextObject) with ⟨error, heq⟩ | ⟨-, heq⟩ <;> simp [heq]

theorem assetFactors_unregisterStrategy (m : ConsensusManager) (strategy : TradingStrategy) :
    (m.unregisterStrategy strategy).assetFactors = m.assetFactors := by
  unfold ConsensusManager.unregisterStrategy
  refine List.foldlRecOn
    (motive := fun (m' : ConsensusManager) => m'.assetFactors = m.assetFactors) _ _ rfl ?_
  intro m' hm' action _
  rw [← hm']
  unfold ConsensusManager.removeFrom
  split
  · rfl
  · split
    · dsimp only
      split <;> rfl
    · rfl

theorem assetFactors_unregisterAssetStrategies (r : Registrations) :
    r.unregisterAssetStrategies.consensusManager.assetFactors =
      r.consensusManager.assetFactors := by
  unfold Registrations.unregisterAssetStrategies
  refine List.foldlRecOn
    (motive := fun (m : ConsensusManager) => m.assetFactors = r.consensusManager.assetFactors)
    _ _ rfl ?_
  intro m hm s _
  rw [assetFactors_unregisterStrategy, hm]

/-- Nothing is registered after all was unregistered, so that counting starts anew. -/
theorem Noted.alike_unregistered (h : r.Noted) (m : ConsensusManager)
    (hm : m.strategies = Dict.empty) :
    Alike r.nextObject ⟨m, [], 0⟩ r.unregisterAssetStrategies := by
  have hempty := h.unregisterAssetStrategies
  refine ⟨(Nat.zero_add _).symm, rfl, fun action => ?_⟩
  rw [getD_of_holdsOnly hempty action, hm]
  rfl

end Registrations

/-! ## §4 The formulas -/

namespace PositionSizer

variable {astParse : String → Except SyntaxError Expr}

/-- The formula in place is the one that was parsed. -/
def Parsed (astParse : String → Except SyntaxError Expr) (sizer : PositionSizer) : Prop :=
  formulaParser astParse sizer.globalFormula = .ok sizer.globalParser

theorem Parsed.rebuildAssetParsers {sizer : PositionSizer} (h : sizer.Parsed astParse)
    (assets : List TradingAsset) :
    (sizer.rebuildAssetParsers astParse assets).1.Parsed astParse := by
  have hblank : Parsed astParse { sizer with assetParsers := Dict.empty } := h
  refine forEach_invariant (Parsed astParse) ?_ hblank assets
  intro s asset hs
  unfold parseAsset
  split <;> exact hs

theorem new_eq {globalFormula : Option String} {globalParser : Option ExpressionParser}
    (hparser : formulaParser astParse globalFormula = .ok globalParser)
    {assetParsers : Dict String ExpressionParser} {assets : List TradingAsset}
    {sizer : PositionSizer}
    (hrebuild : rebuildAssetParsers astParse ⟨globalFormula, globalParser, assetParsers⟩ assets =
      (sizer, none)) :
    new astParse globalFormula assets = .ok sizer := by
  have hblank : rebuildAssetParsers astParse ⟨globalFormula, globalParser, Dict.empty⟩ assets =
      (sizer, none) := hrebuild
  refine bind_eq_ok.mpr ⟨globalParser, hparser, ?_⟩
  rw [hblank]

/-- A sizer that was updated is the one that would be made. -/
theorem Parsed.updateConfig {sizer sizer' : PositionSizer} (h : sizer.Parsed astParse)
    {config : TradingConfig} (hreturns : sizer.updateConfig astParse config = (sizer', none)) :
    new astParse config.dynamicQuantity config.assets = .ok sizer' ∧
      sizer'.Parsed astParse := by
  unfold PositionSizer.updateConfig updateFormula at hreturns
  by_cases hchanged : config.dynamicQuantity ≠ sizer.globalFormula
  · rw [if_pos hchanged] at hreturns
    cases hparser : formulaParser astParse config.dynamicQuantity with
    | error error =>
      simp only [hparser, andThen_some] at hreturns
      cases hreturns
    | ok parser =>
      simp only [hparser, andThen_none] at hreturns
      have hparsed : Parsed astParse
          { sizer with globalFormula := config.dynamicQuantity, globalParser := parser } := hparser
      have hkept := hparsed.rebuildAssetParsers config.assets
      rw [hreturns] at hkept
      exact ⟨new_eq hparser hreturns, hkept⟩
  · rw [if_neg hchanged, andThen_none] at hreturns
    have hsame := not_not.mp hchanged
    have hkept := h.rebuildAssetParsers config.assets
    rw [hreturns] at hkept
    rw [hsame]
    exact ⟨new_eq h hreturns, hkept⟩

end PositionSizer

/-! ## §5 Restarts -/

section Restart

variable {astParse : String → Except SyntaxError Expr}
  {registry : Dict (Option String) StrategyConfig}

/-- The registrations of a start. -/
def startRegistrations (astParse : String → Except SyntaxError Expr)
    (registry : Dict (Option String) StrategyConfig) (config : TradingConfig) :
    Raising Registrations String :=
  Registrations.registerAssetStrategies astParse registry
    { Registrations.new with
      consensusManager := ConsensusManager.new.setFactors (factorsOf config.assets) }
    config.assets

theorem startExecutor_of_returns {config : TradingConfig} {sizer : PositionSizer}
    (hsizer : PositionSizer.new astParse config.dynamicQuantity config.assets = .ok sizer)
    (hreturns : (startRegistrations astParse registry config).2 = none) :
    startExecutor astParse registry config = .ok
      { (startRegistrations astParse registry config).1 with
        assets := config.assets
        positionSizer := sizer
        portfolioRiskManager := some
          (PortfolioRiskManager.init (config.assets.map (·.toAsset)) none none none) } := by
  unfold startRegistrations at hreturns ⊢
  refine bind_eq_ok.mpr ⟨sizer, hsizer, ?_⟩
  dsimp only at hreturns ⊢
  split
  · rename_i heq
    rw [heq]
  · rename_i heq
    rw [heq] at hreturns
    cases hreturns

theorem startExecutor_eq_ok {config : TradingConfig} {e : TradingExecutor}
    (h : startExecutor astParse registry config = .ok e) :
    ∃ sizer, PositionSizer.new astParse config.dynamicQuantity config.assets = .ok sizer ∧
      (startRegistrations astParse registry config).2 = none := by
  obtain ⟨sizer, hsizer, hregister⟩ := bind_eq_ok.mp h
  refine ⟨sizer, hsizer, ?_⟩
  unfold startRegistrations
  dsimp only at hregister
  split at hregister
  · rename_i heq
    exact congrArg Prod.snd heq
  · cases hregister

/-- What holds of an executor between updates. -/
structure Running (astParse : String → Except SyntaxError Expr)
    (registry : Dict (Option String) StrategyConfig) (e : TradingExecutor) : Prop where
  noted : e.toRegistrations.Noted
  restarts : ∃ n r, (Registrations.new.registerAssetStrategies astParse registry e.assets) =
    (r, none) ∧ Registrations.Alike n r e.toRegistrations
  parsed : e.positionSizer.Parsed astParse
  risk : e.portfolioRiskManager.isSome = true

/-- The strategies, the factors and the formulas are those of the other executor. -/
structure Restarted (e f : TradingExecutor) : Prop where
  registered : ∀ action, e.registered action = f.registered action
  factors : e.consensusManager.assetFactors = f.consensusManager.assetFactors
  positionSizer : e.positionSizer = f.positionSizer

theorem parsed_new {globalFormula : Option String} {assets : List TradingAsset}
    {sizer : PositionSizer} (h : PositionSizer.new astParse globalFormula assets = .ok sizer) :
    sizer.Parsed astParse := by
  obtain ⟨parser, hparser, hrebuild⟩ := bind_eq_ok.mp h
  have hblank : PositionSizer.Parsed astParse ⟨globalFormula, parser, Dict.empty⟩ := hparser
  have hkept := hblank.rebuildAssetParsers assets
  split at hrebuild
  · rename_i heq
    rw [heq] at hkept
    obtain rfl := Except.ok.inj hrebuild
    exact hkept
  · cases hrebuild

variable (astParse registry) in
/-- The factors make no difference to what is registered. -/
theorem alike_startRegistrations (config : TradingConfig) :
    Registrations.Alike 0
        (Registrations.new.registerAssetStrategies astParse registry config.assets).1
        (startRegistrations astParse registry config).1 ∧
      (Registrations.new.registerAssetStrategies astParse registry config.assets).2 =
        (startRegistrations astParse registry config).2 :=
  Registrations.Alike.registerAssetStrategies astParse registry ⟨rfl, rfl, fun _ => rfl⟩ _

theorem noted_new (assets : List TradingAsset) :
    Registrations.Noted { Registrations.new with
      consensusManager := ConsensusManager.new.setFactors (factorsOf assets) } :=
  fun _ => rfl

theorem running_start {config : TradingConfig} {e : TradingExecutor}
    (h : startExecutor astParse registry config = .ok e) : Running astParse registry e := by
  obtain ⟨sizer, hsizer, hreturns⟩ := startExecutor_eq_ok h
  rw [startExecutor_of_returns hsizer hreturns] at h
  obtain rfl := Except.ok.inj h
  obtain ⟨halike, hsame⟩ := alike_startRegistrations astParse registry config
  refine ⟨(noted_new config.assets).registerAssetStrategies config.assets, ⟨0, _, ?_, halike⟩,
    parsed_new hsizer, rfl⟩
  exact Prod.ext rfl (hsame.trans hreturns)

/-- An update that returns has updated the sizer, and replaced the assets if they changed. -/
theorem updateConfig_returns {e : TradingExecutor} {config : TradingConfig}
    (h : (e.updateConfig astParse registry config).2 = none) :
    ∃ sizer, e.positionSizer.updateConfig astParse config = (sizer, none) ∧
      e.updateConfig astParse registry config =
        (let updated := { e.updateManagers config with positionSizer := sizer }
        if assetsChanged config.assets e.assets then
          updated.replaceAssets astParse registry config.assets
        else (updated, none)) := by
  unfold TradingExecutor.updateConfig TradingExecutor.updateSizer at h ⊢
  cases hsizer : (e.updateManagers config).positionSizer.updateConfig astParse config with
  | mk sizer error =>
    cases error with
    | none => exact ⟨sizer, hsizer, by rw [andThen_none]; rfl⟩
    | some error =>
      simp only [hsizer, andThen_some] at h
      cases h

/-- **An update restarts all but the assets and the portfolio.** -/
theorem Running.updateConfig {e : TradingExecutor} (h : Running astParse registry e)
    {config : TradingConfig} (hreturns : (e.updateConfig astParse registry config).2 = none) :
    Running astParse registry (e.updateConfig astParse registry config).1 ∧
      ∃ f, startExecutor astParse registry config = .ok f ∧
        Restarted (e.updateConfig astParse registry config).1 f := by
  obtain ⟨sizer, hsizer, hupdate⟩ := updateConfig_returns hreturns
  obtain ⟨hnew, hparsed⟩ := h.parsed.updateConfig hsizer
  obtain ⟨hstart, hstartError⟩ := alike_startRegistrations astParse registry config
  have hrisk : (e.portfolioRiskManager.map (·.updateConfig config.portfolio)).isSome = true := by
    rw [Option.isSome_map]
    exact h.risk
  have hfactors : (startRegistrations astParse registry config).1.consensusManager.assetFactors =
      (e.updateManagers config).consensusManager.assetFactors :=
    Registrations.assetFactors_registerAssetStrategies _ _
  dsimp only at hupdate
  by_cases hchanged : assetsChanged config.assets e.assets = true
  · -- the strategies are registered again, by a manager that holds none
    rw [if_pos hchanged] at hupdate
    rw [hupdate] at hreturns ⊢
    have hnoted : Registrations.Noted
        { e.toRegistrations with consensusManager := (e.updateManagers config).consensusManager } :=
      h.noted
    obtain ⟨halike, herror⟩ := (hnoted.alike_unregistered ConsensusManager.new
      rfl).registerAssetStrategies astParse registry config.assets
    have hfresh : (Registrations.new.registerAssetStrategies astParse registry
        config.assets).2 = none := herror.trans hreturns
    refine ⟨⟨?_, ⟨_, _, Prod.ext rfl hfresh, halike⟩, hparsed, hrisk⟩, _,
      startExecutor_of_returns hnew (hstartError.symm.trans hfresh), ?_, ?_, rfl⟩
    · exact hnoted.unregisterAssetStrategies.registerAssetStrategies config.assets
    · intro action
      exact (halike.registered action).trans (hstart.registered action).symm
    · rw [show (startRegistrations astParse registry config).1.consensusManager.assetFactors =
        _ from hfactors]
      exact (Registrations.assetFactors_registerAssetStrategies _ _).trans
        (Registrations.assetFactors_unregisterAssetStrategies _)
  · -- the assets agree in what the resolver looks at
    rw [if_neg hchanged] at hupdate
    rw [hupdate]
    obtain ⟨n, r, hrun, halike⟩ := h.restarts
    have hcompared := forall₂_of_assetsChanged_eq_false (Bool.eq_false_iff.mpr hchanged)
    have hsame := Registrations.registerAssetStrategies_of_forall₂ hcompared
      (congrArg Prod.snd hrun)
    rw [hsame, hrun] at hstart hstartError
    refine ⟨⟨h.noted, ⟨n, r, hrun, ⟨halike.nextObject, halike.strategies, halike.manager⟩⟩,
      hparsed, hrisk⟩, _, startExecutor_of_returns hnew hstartError.symm, ?_, hfactors.symm, rfl⟩
    intro action
    exact (halike.registered action).trans (hstart.registered action).symm

/-! ## §6 When an update is a restart -/

theorem assets_updateConfig {e : TradingExecutor} {config : TradingConfig}
    (h : (e.updateConfig astParse registry config).2 = none) :
    (e.updateConfig astParse registry config).1.assets =
      if assetsChanged config.assets e.assets then config.assets else e.assets := by
  obtain ⟨sizer, -, hupdate⟩ := updateConfig_returns h
  rw [hupdate]
  dsimp only
  split <;> rfl

theorem portfolio_updateConfig {e : TradingExecutor} {config : TradingConfig}
    (h : (e.updateConfig astParse registry config).2 = none) :
    (e.updateConfig astParse registry config).1.portfolioRiskManager =
      e.portfolioRiskManager.map (·.updateConfig config.portfolio) := by
  obtain ⟨sizer, -, hupdate⟩ := updateConfig_returns h
  rw [hupdate]
  dsimp only
  split <;> rfl

theorem portfolioConfig_init (assets : List Asset) :
    (PortfolioRiskManager.init assets none none none).portfolioConfig =
      PortfolioConfig.default := by
  unfold PortfolioRiskManager.init
  refine List.foldlRecOn
    (motive := fun (m : PortfolioRiskManager) => m.portfolioConfig = PortfolioConfig.default)
    _ _ rfl ?_
  intro m hm asset _
  rw [← hm]
  rfl

variable (astParse registry)

/-- After the update, the executor decides by the same data as one that starts with the
    configuration. -/
def SameAsRestart (e : TradingExecutor) (config : TradingConfig) : Prop :=
  ∃ f, startExecutor astParse registry config = .ok f ∧
    SameDecisions (e.updateConfig astParse registry config).1 f

/-- The assets are replaced, or equal in all their fields, and the portfolio configuration is the
    one of the start. -/
def ReplacesAll (e : TradingExecutor) (config : TradingConfig) : Prop :=
  (assetsChanged config.assets e.assets = true ∨ e.assets = config.assets) ∧
    config.portfolio = PortfolioConfig.default

instance (e : TradingExecutor) (config : TradingConfig) : Decidable (ReplacesAll e config) :=
  inferInstanceAs (Decidable (_ ∧ _))

variable {astParse registry}

theorem sameAsRestart_iff {e : TradingExecutor} (h : Running astParse registry e)
    {config : TradingConfig} (hreturns : (e.updateConfig astParse registry config).2 = none) :
    SameAsRestart astParse registry e config ↔ ReplacesAll e config := by
  obtain ⟨-, f, hstart, hrest⟩ := h.updateConfig hreturns
  have hassets := assets_updateConfig hreturns
  have hportfolio := portfolio_updateConfig hreturns
  obtain ⟨risk, hrisk⟩ := Option.isSome_iff_exists.mp h.risk
  obtain ⟨sizer, hsizer, hregistered⟩ := startExecutor_eq_ok hstart
  have hf := Except.ok.inj (hstart.symm.trans (startExecutor_of_returns hsizer hregistered))
  have hfAssets : f.assets = config.assets := by rw [hf]
  have hfPortfolio : f.portfolioRiskManager.map (·.portfolioConfig) =
      some PortfolioConfig.default := by
    rw [hf]
    exact congrArg some (portfolioConfig_init _)
  -- only the assets and the portfolio can differ, the rest of the executor never does
  constructor
  · rintro ⟨f', hstart', hsame⟩
    obtain rfl := Except.ok.inj (hstart.symm.trans hstart')
    refine ⟨?_, ?_⟩
    · have heq := hsame.assets
      rw [hassets, hfAssets] at heq
      by_cases hchanged : assetsChanged config.assets e.assets = true
      · exact .inl hchanged
      · rw [if_neg hchanged] at heq
        exact .inr heq
    · have heq := hsame.portfolio
      rw [hportfolio, hfPortfolio, hrisk] at heq
      exact Option.some.inj heq
  · rintro ⟨hreplaced, hdefault⟩
    refine ⟨f, hstart, ?_, hrest.registered, ?_, ?_, ?_, ?_, ?_⟩
    · rw [hassets, hfAssets]
      split
      · rfl
      · rename_i hchanged
        exact hreplaced.resolve_left hchanged
    · intro ticker
      unfold ConsensusManager.factorFor
      rw [hrest.factors]
    · rw [hrest.positionSizer]
    · rw [hrest.positionSizer]
    · intro key
      rw [hrest.positionSizer]
    · rw [hportfolio, hfPortfolio, hrisk]
      exact congrArg some hdefault

/-- **Updates are restarts**, along any sequence of updates that return normally from a start,
    exactly when each replaces the assets or has them equal in all their fields, and has the
    portfolio configuration of the start.

    Assets count as unchanged when their formulas and strategies are, whatever else of them is new,
    and the position sizing keeps the portfolio configuration that it was made with. -/
theorem reload_eq_restart_iff {first : TradingConfig} {start : TradingExecutor}
    (hstart : startExecutor astParse registry first = .ok start) {configs : List TradingConfig}
    (hreturns : Along (fun e config => (e.updateConfig astParse registry config).1)
      (fun e config => (e.updateConfig astParse registry config).2 = none) start configs) :
    Along (fun e config => (e.updateConfig astParse registry config).1)
        (SameAsRestart astParse registry) start configs ↔
      Along (fun e config => (e.updateConfig astParse registry config).1)
        ReplacesAll start configs := by
  have hrunning := running_start hstart
  clear hstart
  induction configs generalizing start with
  | nil => exact Iff.rfl
  | cons config rest ih =>
    have hstep := sameAsRestart_iff hrunning hreturns.1
    exact and_congr hstep (ih hreturns.2 (hrunning.updateConfig hreturns.1).1)

end Restart

/-! ## §7 Two configurations of one asset -/

/-- An asset with one strategy of the package. -/
def btcAsset (minQuantity weight : ℚ) : TradingAsset where
  baseTickerSymbol := "BTC"
  quoteTickerSymbol := "USD"
  quoteDecimals := 2
  exchange := "CRYPTO_DOT_COM"
  separator := none
  portfolio := none
  name := "Bitcoin"
  minQuantity := minQuantity
  quantityDecimals := 3
  schedule := .everyMinute
  candlesTimeframe := .min1
  guardConfig := none
  keywords := none
  strategies := some
    [{ name := some "Hammer"
       type := .static
       action := none
       expression := none
       className := some "HammerAccumulationStrategy"
       enabled := true
       weight := weight
       schedule := none }]
  consensus := some ⟨1, 1⟩
  dynamicQuantity := none
  enabled := true

def btcConfig (minQuantity weight : ℚ) : TradingConfig where
  assets := [btcAsset minQuantity weight]
  dynamicQuantity := none
  portfolio := PortfolioConfig.default
  uniqueStrategies := by
    intro asset hasset
    obtain rfl := List.mem_singleton.mp hasset
    exact List.nodup_singleton _
  dynamicQuantity_ne_empty := nofun

/-- A parser that rejects everything; there is nothing to parse. -/
def noParse (_ : String) : Except SyntaxError Expr := .error ⟨"invalid syntax", none, none⟩

/-- The executor that starts with a minimum of 0.001 and the weight 1. -/
def btcExecutor : TradingExecutor :=
  { (startRegistrations noParse Dict.empty (btcConfig (1 / 1000) 1)).1 with
    assets := [btcAsset (1 / 1000) 1]
    positionSizer := ⟨none, none, Dict.empty⟩
    portfolioRiskManager := some
      (PortfolioRiskManager.init [(btcAsset (1 / 1000) 1).toAsset] none none none) }

theorem start_btcConfig :
    startExecutor noParse Dict.empty (btcConfig (1 / 1000) 1) = .ok btcExecutor := rfl

/-- Another weight for the strategy: the assets are replaced, as a restart would. -/
theorem reweighted_as_restarted :
    startExecutor noParse Dict.empty (btcConfig (1 / 1000) 1) = .ok btcExecutor ∧
      Along (fun e config => (e.updateConfig noParse Dict.empty config).1)
        (SameAsRestart noParse Dict.empty) btcExecutor [btcConfig (2 / 1000) 2] := by
  have hreturns : (btcExecutor.updateConfig noParse Dict.empty (btcConfig (2 / 1000) 2)).2 =
      none := by decide +kernel
  have hchanged : assetsChanged (btcConfig (2 / 1000) 2).assets btcExecutor.assets = true := by
    decide +kernel
  have hnormal : Along (fun e config => (e.updateConfig noParse Dict.empty config).1)
      (fun e config => (e.updateConfig noParse Dict.empty config).2 = none) btcExecutor
      [btcConfig (2 / 1000) 2] := ⟨hreturns, trivial⟩
  exact ⟨start_btcConfig, (reload_eq_restart_iff start_btcConfig hnormal).mpr
    ⟨⟨.inl hchanged, rfl⟩, trivial⟩⟩

/-- Another minimum quantity alone: the old one stays in force. -/
theorem new_min_quantity_ignored :
    startExecutor noParse Dict.empty (btcConfig (1 / 1000) 1) = .ok btcExecutor ∧
      (btcExecutor.updateConfig noParse Dict.empty (btcConfig (2 / 1000) 1)).2 = none ∧
      ¬ SameAsRestart noParse Dict.empty btcExecutor (btcConfig (2 / 1000) 1) := by
  have hreturns : (btcExecutor.updateConfig noParse Dict.empty (btcConfig (2 / 1000) 1)).2 =
      none := by decide +kernel
  refine ⟨start_btcConfig, hreturns, ?_⟩
  rw [sameAsRestart_iff (running_start start_btcConfig) hreturns]
  decide +kernel

end CryptoTrading.Trading

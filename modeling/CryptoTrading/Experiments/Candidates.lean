import CryptoTrading.Lib.Run
import CryptoTrading.Vcs.FastForward

/-!
# Experiment candidates

Embeds `src/server/services/experiment_application_service.py`, as far as it starts an
experiment and retries a candidate, over the configuration store.

A candidate is meant to be the configuration of the experiment's branch with a weight rule
applied to the strategies of one asset (`variantOf`), committed on that branch.  The service
builds the variant in a `try` block that assigns to a field of the asset.  `Asset` is a frozen
dataclass, so that the assignment raises, the handler logs a warning, and the candidate is bound
to the head of the branch: no variant is ever committed (`synthesizeVariant_ne_commit`).

Weights are rational numbers here.  What a dump makes of them is a parameter (`Values`), and so
are the weights that `random.Random` draws.  Left out: the backtest and walk-forward runs behind
a binding, the report, and the fields of a specification that only these read.
-/

namespace CryptoTrading.Experiments

open CryptoTrading.Lib CryptoTrading.Vcs

/-! ## §1 Candidates -/

inductive CandidateType where
  | currentConfig
  | equalWeight
  | proposedWeights
  | randomControl
  | leaveOneOut
  | singleStrategy
  | customCombination
  deriving DecidableEq

structure ExperimentCandidate where
  candidateId : String
  name : String
  candidateType : CandidateType
  strategyWeights : Dict String ℚ
  candidateCommitHash : Option String
  randomSeed : Option ℤ
  deriving DecidableEq

/-- How the values of a dump are read and written. -/
structure Values (V : Type) where
  ofText : String → V
  ofWeight : ℚ → V
  toWeight : Option V → ℚ
  isTrue : Option V → Bool
  /-- The weights that `random.Random(seed)` draws for a number of strategies, normalised and
      rounded. -/
  normWeights : ℤ → ℕ → List ℚ

section Rules

variable {V : Type} (values : Values V)

/-- `s.model_copy(update={"weight": ...})`. -/
def withWeight (s : Strategy V) (weight : ℚ) : Strategy V :=
  { s with settings := s.settings.set "weight" (some (values.ofWeight weight)) }

def isEnabled (s : Strategy V) : Bool := values.isTrue (s.settings.look none "enabled")

/-- `cand.random_seed or 42`. -/
def seedOf (cand : ExperimentCandidate) : ℤ :=
  match cand.randomSeed with
  | some seed => if seed = 0 then 42 else seed
  | none => 42

/-- The weights of a random control, under the names of the enabled strategies. -/
def randomWeights (cand : ExperimentCandidate) (strategies : List (Strategy V)) :
    Dict String ℚ :=
  let enabled := strategies.filter fun s => isEnabled values s
  Dict.ofList (((enabled.zip (values.normWeights (seedOf cand) enabled.length)).filter
    fun e => e.1.name ≠ "").map fun e => (e.1.name, e.2))

/-- The strategies with the weights of a map; the others keep theirs. -/
def reweighted (weights : Dict String ℚ) (strategies : List (Strategy V)) : List (Strategy V) :=
  strategies.map fun s =>
    match weights.get? s.name with
    | some weight => withWeight values s weight
    | none => s

/-- What `_apply_candidate_weights` makes of a candidate: the candidate is changed in place. -/
structure Variant (V : Type) where
  candidate : ExperimentCandidate
  strategies : List (Strategy V)
  message : String

/-- `str(cand.random_seed)`. -/
def seedText (cand : ExperimentCandidate) : String := (cand.randomSeed.map toString).getD "None"

/-- `_apply_candidate_weights`. -/
def applyCandidateWeights (cand : ExperimentCandidate) (strategies : List (Strategy V)) :
    Option (Variant V) :=
  match cand.candidateType with
  | .equalWeight =>
    some ⟨cand, strategies.map fun s => withWeight values s 1,
      "Experiment candidate variant: Equal-Weight (" ++ cand.candidateId ++ ")"⟩
  | .proposedWeights =>
    if cand.strategyWeights.entries.isEmpty then none
    else
      -- a strategy without a name is not looked up
      some ⟨cand, strategies.map fun s => if s.name = "" then s else
          match cand.strategyWeights.get? s.name with
          | some weight => withWeight values s weight
          | none => s,
        "Experiment candidate variant: " ++ cand.name ++ " (" ++ cand.candidateId ++ ")"⟩
  | .randomControl =>
    let weights := randomWeights values cand strategies
    some ⟨{ cand with strategyWeights := weights }, reweighted values weights strategies,
      "Experiment candidate variant: Random Control Seed " ++ seedText cand ++ " (" ++
        cand.candidateId ++ ")"⟩
  | _ => none

end Rules

/-! ## §2 The asset of an experiment -/

section Assets

variable {V : Type} [DecidableEq V] (values : Values V)

def hasTicker (tickerSymbol : String) (asset : AssetDump V) : Bool :=
  asset.field "ticker_symbol" = .leaf (some (values.ofText tickerSymbol))

/-- The first asset with the ticker and its strategies; `none` where there is no such asset or
    it has no strategies. -/
def matchedStrategies (config : Config V) (tickerSymbol : String) :
    Option (AssetDump V × List (Strategy V)) :=
  match config.assets.find? (hasTicker values tickerSymbol) with
  | none => none
  | some asset =>
    let strategies := (asset.field "strategies").orEmptyList
    if strategies.isEmpty then none else some (asset, strategies)

/-- The configuration with another first asset for the ticker: the asset object is shared. -/
def replaceAsset (config : Config V) (tickerSymbol : String) (asset : AssetDump V) : Config V :=
  { config with
    assets := config.assets.replaceF fun a =>
      if hasTicker values tickerSymbol a then some asset else none }

/-- The configuration that a candidate stands for: its rule is applied to the strategies of the
    asset. -/
def variantOf (cand : ExperimentCandidate) (tickerSymbol : String) (config : Config V) : Config V :=
  match matchedStrategies values config tickerSymbol with
  | none => config
  | some (asset, strategies) =>
    match applyCandidateWeights values cand strategies with
    | none => config
    | some variant =>
      replaceAsset values config tickerSymbol
        (asset.set "strategies" (.strategies variant.strategies))

end Assets

/-! ## §3 The service -/

inductive ExperimentStatus where
  | draft
  | preparing
  | running
  | aggregating
  | completed
  | failed
  | cancelled
  deriving DecidableEq

inductive BindingStatus where
  | pending
  | queued
  | running
  | completed
  | failed
  | cancelled
  deriving DecidableEq

structure RunBinding where
  candidateId : String
  status : BindingStatus
  deriving DecidableEq

/-- The stored record of an experiment. -/
structure Experiment where
  branchId : String
  tickerSymbol : String
  baseCommitHash : String
  status : ExperimentStatus
  candidates : List ExperimentCandidate
  runBindings : List RunBinding

inductive ExperimentError where
  | alreadyExecuting (status : ExperimentStatus)
  | candidateNotFound (candidateId : String)
  | notFailed (candidateId : String)
  | vcs (error : VcsError)
  deriving DecidableEq

/-- What the `try` block of `_resolve_candidate_commit` raises. -/
inductive VariantError where
  | vcs (error : VcsError)
  | invalidConfig (error : String)
  | frozenInstance (field : String)
  deriving DecidableEq

def branchRef (branchId : String) : String := "refs/heads/backtest/" ++ branchId

section Service

variable {V : Type} [DecidableEq V] (env : Env V) (values : Values V)

omit [DecidableEq V] in
/-- `TradingConfig.model_validate(self._vcs_service.checkout(...))`. -/
def loadConfig (st : Store V) (commitHash : String) : Except VariantError (Config V) := do
  let rawConfig ← (st.checkout commitHash).mapError .vcs
  (env.validate rawConfig).mapError .invalidConfig

/-- `_load_asset_strategy_weights`: nothing is raised. -/
def loadAssetStrategyWeights (st : Store V) (commitHash ticker : String) : Dict String ℚ :=
  match loadConfig env st commitHash with
  | .error _ => Dict.empty
  | .ok config =>
    match matchedStrategies values config ticker with
    | none => Dict.empty
    | some (_, strategies) =>
      Dict.ofList ((strategies.filter fun s => s.name ≠ "" ∧ isEnabled values s = true).map fun s =>
        (s.name, values.toWeight (s.settings.look none "weight")))

omit [DecidableEq V] in
/-- `matched_asset.strategies = updated_strats`: the dataclass is frozen. -/
def assignStrategies (_ : AssetDump V) (_ : List (Strategy V)) :
    Except VariantError (AssetDump V) :=
  .error (.frozenInstance "strategies")

/-- The commit of a variant on the branch of the experiment. -/
def commitVariant (st : Store V) (branchId tickerSymbol : String) (config : Config V)
    (asset : AssetDump V) (variant : Variant V) (now : ℕ) :
    Except VariantError (Commit × Store V) := do
  let asset ← assignStrategies asset variant.strategies
  (st.commit env (replaceAsset values config tickerSymbol asset) "experiment-service"
    variant.message (branchRef branchId) ⟨none, []⟩ now).mapError .vcs

/-- The `try` block of `_resolve_candidate_commit`, with the candidate as it leaves it. -/
def synthesizeVariant (st : Store V) (branchId tickerSymbol headCommit : String)
    (cand : ExperimentCandidate) (now : ℕ) :
    ExperimentCandidate × Except VariantError (Option (Commit × Store V)) :=
  match loadConfig env st headCommit with
  | .error e => (cand, .error e)
  | .ok config =>
    match matchedStrategies values config tickerSymbol with
    | none => (cand, .ok none)
    | some (asset, strategies) =>
      match applyCandidateWeights values cand strategies with
      | none => (cand, .ok none)
      | some variant =>
        (variant.candidate,
          (commitVariant env values st branchId tickerSymbol config asset variant now).map some)

/-- What `_resolve_candidate_commit` leaves: the hash, the candidate, and the store. -/
structure Resolved (V : Type) where
  hash : String
  candidate : ExperimentCandidate
  store : Store V

/-- `_resolve_candidate_commit` for a candidate without a commit. -/
def resolveFromHead (st : Store V) (branchId tickerSymbol : String) (cand : ExperimentCandidate)
    (now : ℕ) : Except VcsError (Resolved V) := do
  let headCommit ← st.resolveCommitHash (branchRef branchId)
  let weights := loadAssetStrategyWeights env values st headCommit tickerSymbol
  if cand.candidateType = .currentConfig then
    .ok ⟨headCommit,
      { cand with strategyWeights := weights, candidateCommitHash := some headCommit }, st⟩
  else
    let cand :=
      if cand.candidateType = .equalWeight then
        { cand with strategyWeights := weights.mapValues fun _ => 1 }
      else cand
    match synthesizeVariant env values st branchId tickerSymbol headCommit cand now with
    | (cand, .ok (some (c, st))) =>
      .ok ⟨c.hash, { cand with candidateCommitHash := some c.hash }, st⟩
    -- no rule, no asset, or an exception that is logged
    | (cand, _) => .ok ⟨headCommit, { cand with candidateCommitHash := some headCommit }, st⟩

/-- `_resolve_candidate_commit`. -/
def resolveCandidateCommit (st : Store V) (branchId tickerSymbol : String)
    (cand : ExperimentCandidate) (now : ℕ) : Except VcsError (Resolved V) :=
  match cand.candidateCommitHash with
  | some hash =>
    if hash = "" then resolveFromHead env values st branchId tickerSymbol cand now
    else .ok ⟨hash, cand, st⟩
  | none => resolveFromHead env values st branchId tickerSymbol cand now

/-- The loop of `_dispatch_candidate_runs`.  Commits that were made stay when a later candidate
    raises. -/
def dispatchCandidateRuns (branchId tickerSymbol : String) (now : ℕ) :
    Store V → List ExperimentCandidate → Store V × Except VcsError (List ExperimentCandidate)
  | st, [] => (st, .ok [])
  | st, cand :: rest =>
    match resolveCandidateCommit env values st branchId tickerSymbol cand now with
    | .error e => (st, .error e)
    | .ok resolved =>
      let (st, others) := dispatchCandidateRuns branchId tickerSymbol now resolved.store rest
      (st, others.map fun candidates => resolved.candidate :: candidates)

/-- The bindings of the runs that were started. -/
def runningBindings (candidates : List ExperimentCandidate) : List RunBinding :=
  candidates.map fun cand => ⟨cand.candidateId, .running⟩

/-- `start_experiment`. -/
def startExperiment (st : Store V) (exp : Experiment) (now : ℕ) :
    Store V × Except ExperimentError Experiment :=
  if exp.status ∈ [.running, .preparing, .aggregating] then
    (st, .error (.alreadyExecuting exp.status))
  else
    let reset := exp.candidates.map fun cand => { cand with candidateCommitHash := none }
    let (st, dispatched) :=
      dispatchCandidateRuns env values exp.branchId exp.tickerSymbol now st reset
    (st, (dispatched.mapError .vcs).map fun candidates =>
      { exp with
        status := .running
        candidates := candidates
        runBindings := runningBindings candidates })

/-- `target_binding.update(...)` for the first binding of the candidate. -/
def rebind (candidateId : String) (bindings : List RunBinding) : List RunBinding :=
  bindings.replaceF fun b =>
    if b.candidateId = candidateId then some ⟨candidateId, .running⟩ else none

/-- `retry_candidate`: the bindings are stored, the specification is not. -/
def retryCandidate (st : Store V) (exp : Experiment) (candidateId : String) (now : ℕ) :
    Store V × Except ExperimentError Experiment :=
  match exp.candidates.find? fun cand => cand.candidateId = candidateId with
  | none => (st, .error (.candidateNotFound candidateId))
  | some cand =>
    let binding := exp.runBindings.find? fun b => b.candidateId = candidateId
    if binding.map (·.status) ≠ some .failed then (st, .error (.notFailed candidateId))
    else
      let (st, dispatched) :=
        dispatchCandidateRuns env values exp.branchId exp.tickerSymbol now st [cand]
      (st, (dispatched.mapError .vcs).map fun _ =>
        { exp with
          status := .running
          runBindings := rebind candidateId exp.runBindings })

end Service

/-! ## §4 Runs of an experiment -/

structure Lab (V : Type) where
  store : Store V
  experiment : Experiment

/-- What happens to an experiment.  The watcher stores how the runs of the bindings went. -/
inductive ExperimentOp where
  | start (now : ℕ)
  | retry (candidateId : String) (now : ℕ)
  | cancel
  | watch (outcome : RunBinding → BindingStatus) (status : ExperimentStatus)

/-- `cancel_experiment`. -/
def cancelExperiment (exp : Experiment) : Experiment :=
  { exp with
    status := .cancelled
    runBindings := exp.runBindings.map fun b =>
      if b.status ∈ [.queued, .running] then { b with status := .cancelled } else b }

section Labs

variable {V : Type} [DecidableEq V] (env : Env V) (values : Values V)

/-- The record is stored unless an error is raised. -/
def Lab.save (lab : Lab V) (result : Store V × Except ExperimentError Experiment) : Lab V :=
  match result.2 with
  | .ok exp => ⟨result.1, exp⟩
  | .error _ => ⟨result.1, lab.experiment⟩

def Lab.step (lab : Lab V) : ExperimentOp → Lab V
  | .start now => lab.save (startExperiment env values lab.store lab.experiment now)
  | .retry candidateId now =>
    lab.save (retryCandidate env values lab.store lab.experiment candidateId now)
  | .cancel => { lab with experiment := cancelExperiment lab.experiment }
  | .watch outcome status => { lab with experiment := { lab.experiment with
      status := status
      runBindings := lab.experiment.runBindings.map fun b => { b with status := outcome b } } }

/-- An experiment as `create_experiment` leaves it. -/
def Experiment.Fresh (exp : Experiment) : Prop :=
  ∀ cand ∈ exp.candidates, cand.candidateCommitHash = none

/-- The configuration of the commit that a candidate is bound to is the base configuration with
    the rule of the candidate, and nothing else. -/
def Isolated (base : Except VariantError (Config V)) (st : Store V) (tickerSymbol : String)
    (cand : ExperimentCandidate) : Prop :=
  ∀ hash, cand.candidateCommitHash = some hash →
    loadConfig env st hash = base.map (variantOf values cand tickerSymbol)

/-- The rule of the candidate leaves the strategies of the asset in the base configuration as
    they are. -/
def Neutral (base : Except VariantError (Config V)) (tickerSymbol : String)
    (cand : ExperimentCandidate) : Prop :=
  ∀ config, base = .ok config → ∀ asset strategies,
    matchedStrategies values config tickerSymbol = some (asset, strategies) →
      ∀ variant, applyCandidateWeights values cand strategies = some variant →
        variant.strategies = strategies

/-! ## §5 What a rule changes -/

section FirstMatch

variable {A : Type} {p : A → Bool}

theorem find?_replaceF {as : List A} {a b : A} (h : as.find? p = some a) (hb : p b = true) :
    (as.replaceF fun x => if p x then some b else none).find? p = some b := by
  induction as with
  | nil => cases h
  | cons x rest ih =>
    cases hx : p x with
    | true => simp [hx, hb]
    | false =>
      rw [List.find?_cons_of_neg (by simp [hx])] at h
      simp [hx, ih h]

theorem replaceF_self {as : List A} {a : A} (h : as.find? p = some a) :
    (as.replaceF fun x => if p x then some a else none) = as := by
  induction as with
  | nil => cases h
  | cons x rest ih =>
    cases hx : p x with
    | true =>
      rw [List.find?_cons_of_pos hx] at h
      obtain rfl := Option.some.inj h
      simp [hx]
    | false =>
      rw [List.find?_cons_of_neg (by simp [hx])] at h
      simp [hx, ih h]

end FirstMatch

variable {values} {config : Config V} {tickerSymbol : String} {asset : AssetDump V}
  {strategies : List (Strategy V)}

/-- Writing other strategies into the asset changes the configuration. -/
theorem replaceAsset_eq_self_iff
    (h : matchedStrategies values config tickerSymbol = some (asset, strategies))
    (updated : List (Strategy V)) :
    replaceAsset values config tickerSymbol (asset.set "strategies" (.strategies updated)) =
      config ↔ updated = strategies := by
  unfold matchedStrategies at h
  split at h
  · cases h
  rename_i found hfound
  simp only at h
  split at h
  · cases h
  rename_i hne
  obtain ⟨rfl, rfl⟩ := Prod.mk.inj (Option.some.inj h)
  -- the ticker of the asset is kept
  have hticker : hasTicker values tickerSymbol
      (found.set "strategies" (.strategies updated)) = true := by
    have hmatch : hasTicker values tickerSymbol found = true := List.find?_some hfound
    have hold : found.field "ticker_symbol" = .leaf (some (values.ofText tickerSymbol)) :=
      of_decide_eq_true hmatch
    apply decide_eq_true
    simpa [AssetDump.field, Record.look] using hold
  constructor
  · intro heq
    have hassets := congrArg
      (fun c : Config V => c.assets.find? (hasTicker values tickerSymbol)) heq
    simp only [replaceAsset, find?_replaceF hfound hticker, hfound, Option.some.injEq] at hassets
    have hfield := congrArg (fun a : AssetDump V => (a.field "strategies").orEmptyList) hassets
    simpa [AssetDump.field, Record.look, FieldValue.orEmptyList] using hfield
  · intro heq
    have hsame : found.set "strategies" (.strategies updated) = found := by
      apply Record.ext_get?
      intro f
      rw [Record.get?_set]
      split
      · rename_i hf
        subst hf heq
        -- the asset has strategies, so the field is there
        cases hget : found.get? "strategies" with
        | none => simp [AssetDump.field, Record.look, hget, FieldValue.null,
            FieldValue.orEmptyList] at hne
        | some v =>
          cases v with
          | leaf value => simp [AssetDump.field, Record.look, hget, FieldValue.orEmptyList] at hne
          | dict d => simp [AssetDump.field, Record.look, hget, FieldValue.orEmptyList] at hne
          | strategies ss => simp [AssetDump.field, Record.look, hget, FieldValue.orEmptyList]
      · rfl
    unfold replaceAsset
    rw [hsame, replaceF_self hfound]

/-- A configuration stands for a candidate exactly when its rule changes no strategy. -/
theorem variantOf_eq_self_iff (values : Values V) (cand : ExperimentCandidate)
    (tickerSymbol : String) (config : Config V) :
    variantOf values cand tickerSymbol config = config ↔
      Neutral values (.ok config) tickerSymbol cand := by
  have hneutral : Neutral values (.ok config) tickerSymbol cand ↔ ∀ asset strategies,
      matchedStrategies values config tickerSymbol = some (asset, strategies) →
        ∀ variant, applyCandidateWeights values cand strategies = some variant →
          variant.strategies = strategies :=
    ⟨fun h => h config rfl, fun h config' hconfig => Except.ok.inj hconfig ▸ h⟩
  rw [hneutral]
  unfold variantOf
  -- a configuration without the asset, or a rule that gives no weights, changes nothing
  cases hmatched : matchedStrategies values config tickerSymbol with
  | none => simp
  | some found =>
    obtain ⟨asset, strategies⟩ := found
    cases happly : applyCandidateWeights values cand strategies with
    | none =>
      simp only [happly, Option.some.injEq, Prod.mk.injEq, true_iff]
      intro asset' strategies' heq variant hvariant
      rw [← heq.2, happly] at hvariant
      cases hvariant
    | some variant =>
      simp only [happly, replaceAsset_eq_self_iff hmatched, Option.some.injEq, Prod.mk.injEq]
      constructor
      · intro hsame asset' strategies' heq variant' hvariant
        rw [← heq.2, happly] at hvariant
        rw [← heq.2, ← Option.some.inj hvariant]
        exact hsame
      · intro h
        exact h asset strategies ⟨rfl, rfl⟩ variant happly

/-! ## §6 No variant is committed -/

variable {env} {st : Store V} {branchId headCommit : String} {cand : ExperimentCandidate} {now : ℕ}

/-- The assignment to the frozen asset comes before the commit. -/
theorem synthesizeVariant_ne_commit (made : Commit × Store V) :
    (synthesizeVariant env values st branchId tickerSymbol headCommit cand now).2 ≠
      .ok (some made) := by
  unfold synthesizeVariant
  split
  · simp
  · split
    · simp
    · split
      · simp
      · simp [commitVariant, assignStrategies, Except.map, bind, Except.bind]

/-- What `_resolve_candidate_commit` does: the candidate is bound to the head of the branch, and
    the store stays as it is. -/
theorem resolveFromHead_spec {resolved : Resolved V}
    (h : resolveFromHead env values st branchId tickerSymbol cand now = .ok resolved) :
    resolved.store = st ∧ st.resolveCommitHash (branchRef branchId) = .ok resolved.hash ∧
      resolved.candidate.candidateCommitHash = some resolved.hash := by
  unfold resolveFromHead at h
  obtain ⟨headCommit, hhead, h⟩ := bind_eq_ok.mp h
  simp only at h
  split at h
  · obtain rfl := Except.ok.inj h
    exact ⟨rfl, hhead, rfl⟩
  · split at h
    · rename_i c made hmade
      exact absurd (congrArg Prod.snd hmade) (synthesizeVariant_ne_commit (c, made))
    · obtain rfl := Except.ok.inj h
      exact ⟨rfl, hhead, rfl⟩

theorem resolveCandidateCommit_spec {resolved : Resolved V}
    (hnone : cand.candidateCommitHash = none)
    (h : resolveCandidateCommit env values st branchId tickerSymbol cand now = .ok resolved) :
    resolved.store = st ∧ st.resolveCommitHash (branchRef branchId) = .ok resolved.hash ∧
      resolved.candidate.candidateCommitHash = some resolved.hash := by
  unfold resolveCandidateCommit at h
  rw [hnone] at h
  exact resolveFromHead_spec h

theorem resolveCandidateCommit_store {resolved : Resolved V}
    (h : resolveCandidateCommit env values st branchId tickerSymbol cand now = .ok resolved) :
    resolved.store = st := by
  unfold resolveCandidateCommit at h
  split at h
  · split at h
    · exact (resolveFromHead_spec h).1
    · obtain rfl := Except.ok.inj h
      rfl
  · exact (resolveFromHead_spec h).1

theorem dispatchCandidateRuns_store (st : Store V) (candidates : List ExperimentCandidate) :
    (dispatchCandidateRuns env values branchId tickerSymbol now st candidates).1 = st := by
  induction candidates generalizing st with
  | nil => rfl
  | cons cand rest ih =>
    unfold dispatchCandidateRuns
    cases hresolve : resolveCandidateCommit env values st branchId tickerSymbol cand now with
    | error e => rfl
    | ok resolved => exact (ih resolved.store).trans (resolveCandidateCommit_store hresolve)

/-- What happens to an experiment leaves the store as it is: nothing is ever committed. -/
theorem Lab.step_store (lab : Lab V) (op : ExperimentOp) :
    (lab.step env values op).store = lab.store := by
  have hsave : ∀ result, (lab.save result).store = result.1 := by
    rintro ⟨st', exp | exp⟩ <;> rfl
  cases op with
  | start now =>
    rw [Lab.step, hsave, startExperiment]
    split
    · rfl
    · exact dispatchCandidateRuns_store lab.store _
  | retry candidateId now =>
    rw [Lab.step, hsave, retryCandidate]
    split
    · rfl
    · simp only
      split
      · rfl
      · exact dispatchCandidateRuns_store lab.store _
  | cancel => rfl
  | watch outcome status => rfl

/-- Every candidate that is dispatched is bound to the head of the branch. -/
theorem dispatchCandidateRuns_bound {candidates dispatched : List ExperimentCandidate}
    (hnone : ∀ cand ∈ candidates, cand.candidateCommitHash = none)
    (hhead : st.resolveCommitHash (branchRef branchId) = .ok headCommit)
    (h : (dispatchCandidateRuns env values branchId tickerSymbol now st candidates).2 =
      .ok dispatched) :
    ∀ cand ∈ dispatched, cand.candidateCommitHash = some headCommit := by
  -- along the candidates; binding one leaves the store, and so the head, as it is
  induction candidates generalizing dispatched with
  | nil =>
    obtain rfl := Except.ok.inj h
    simp
  | cons cand rest ih =>
    unfold dispatchCandidateRuns at h
    cases hresolve : resolveCandidateCommit env values st branchId tickerSymbol cand now with
    | error e =>
      rw [hresolve] at h
      cases h
    | ok resolved =>
      obtain ⟨hstore, hhash, hbound⟩ :=
        resolveCandidateCommit_spec (hnone cand List.mem_cons_self) hresolve
      obtain rfl : resolved.hash = headCommit := Except.ok.inj (hhash.symm.trans hhead)
      rw [hresolve] at h
      simp only [hstore] at h
      cases hrest : (dispatchCandidateRuns env values branchId tickerSymbol now st rest).2 with
      | error e =>
        rw [hrest] at h
        cases h
      | ok others =>
        rw [hrest] at h
        obtain rfl := Except.ok.inj h
        rw [List.forall_mem_cons]
        exact ⟨hbound, ih (fun c hc => hnone c (List.mem_cons_of_mem cand hc)) hrest⟩

omit [DecidableEq V] in
theorem applyCandidateWeights_candidateId {variant : Variant V}
    (h : applyCandidateWeights values cand strategies = some variant) :
    variant.candidate.candidateId = cand.candidateId := by
  unfold applyCandidateWeights at h
  split at h
  · obtain rfl := Option.some.inj h
    rfl
  · split at h
    · cases h
    · obtain rfl := Option.some.inj h
      rfl
  · obtain rfl := Option.some.inj h
    rfl
  · cases h

theorem synthesizeVariant_candidateId :
    (synthesizeVariant env values st branchId tickerSymbol headCommit cand now).1.candidateId =
      cand.candidateId := by
  unfold synthesizeVariant
  split
  · rfl
  · split
    · rfl
    · split
      · rfl
      · rename_i hvariant
        exact applyCandidateWeights_candidateId hvariant

theorem resolveCandidateCommit_candidateId {resolved : Resolved V}
    (hnone : cand.candidateCommitHash = none)
    (h : resolveCandidateCommit env values st branchId tickerSymbol cand now = .ok resolved) :
    resolved.candidate.candidateId = cand.candidateId := by
  unfold resolveCandidateCommit at h
  rw [hnone] at h
  unfold resolveFromHead at h
  obtain ⟨headCommit, -, h⟩ := bind_eq_ok.mp h
  simp only at h
  split at h
  · obtain rfl := Except.ok.inj h
    rfl
  -- neither the weights of an equal candidate nor a variant gives it another id
  · generalize hequal : (if cand.candidateType = .equalWeight then
      { cand with
        strategyWeights := (loadAssetStrategyWeights env values st headCommit
          tickerSymbol).mapValues fun _ => 1 }
      else cand) = cand' at h
    have hid : cand'.candidateId = cand.candidateId := by
      rw [← hequal]
      split
      · rfl
      · rfl
    have hsynth : (synthesizeVariant env values st branchId tickerSymbol headCommit cand'
        now).1.candidateId = cand'.candidateId := synthesizeVariant_candidateId
    generalize synthesizeVariant env values st branchId tickerSymbol headCommit cand' now =
      result at h hsynth
    split at h
    · obtain rfl := Except.ok.inj h
      exact hsynth.trans hid
    · obtain rfl := Except.ok.inj h
      exact hsynth.trans hid

/-- Dispatching keeps the candidates in their order. -/
theorem dispatchCandidateRuns_candidateIds {candidates dispatched : List ExperimentCandidate}
    (hnone : ∀ cand ∈ candidates, cand.candidateCommitHash = none)
    (h : (dispatchCandidateRuns env values branchId tickerSymbol now st candidates).2 =
      .ok dispatched) :
    dispatched.map (·.candidateId) = candidates.map (·.candidateId) := by
  -- along the candidates, each resolved in the store that the one before has left
  induction candidates generalizing st dispatched with
  | nil =>
    obtain rfl := Except.ok.inj h
    rfl
  | cons cand rest ih =>
    unfold dispatchCandidateRuns at h
    cases hresolve : resolveCandidateCommit env values st branchId tickerSymbol cand now with
    | error e =>
      rw [hresolve] at h
      cases h
    | ok resolved =>
      rw [hresolve] at h
      simp only at h
      cases hrest : (dispatchCandidateRuns env values branchId tickerSymbol now resolved.store
          rest).2 with
      | error e =>
        rw [hrest] at h
        cases h
      | ok others =>
        rw [hrest] at h
        obtain rfl := Except.ok.inj h
        rw [List.map_cons, List.map_cons,
          ih (fun c hc => hnone c (List.mem_cons_of_mem cand hc)) hrest,
          resolveCandidateCommit_candidateId (hnone cand List.mem_cons_self) hresolve]

/-- The candidates after a start: bound to the head of the branch, in their order. -/
structure Rebound (st : Store V) (exp exp' : Experiment) (head : String) : Prop where
  idle : exp.status ∉ [.running, .preparing, .aggregating]
  resolved : st.resolveCommitHash (branchRef exp.branchId) = .ok head
  candidateIds : exp'.candidates.map (·.candidateId) = exp.candidates.map (·.candidateId)
  bound : ∀ cand ∈ exp'.candidates, cand.candidateCommitHash = some head

theorem rebound_of_start {st' : Store V} {exp exp' : Experiment}
    (h : startExperiment env values st exp now = (st', .ok exp')) :
    exp'.baseCommitHash = exp.baseCommitHash ∧
      (exp'.candidates = exp.candidates ∨ ∃ head, Rebound st exp exp' head) := by
  unfold startExperiment at h
  split at h
  · cases (congrArg Prod.snd h)
  rename_i hidle
  simp only at h
  generalize hreset : (exp.candidates.map fun cand =>
    { cand with candidateCommitHash := none }) = reset at h
  have hnone : ∀ cand ∈ reset, cand.candidateCommitHash = none := by
    rw [← hreset]
    simp
  cases hdispatched : (dispatchCandidateRuns env values exp.branchId exp.tickerSymbol now st
      reset).2 with
  | error e =>
    rw [hdispatched] at h
    cases (congrArg Prod.snd h)
  | ok candidates =>
    rw [hdispatched] at h
    obtain rfl := Except.ok.inj (congrArg Prod.snd h)
    refine ⟨rfl, ?_⟩
    have hids : candidates.map (·.candidateId) = exp.candidates.map (·.candidateId) := by
      rw [dispatchCandidateRuns_candidateIds hnone hdispatched, ← hreset]
      simp
    cases hhead : st.resolveCommitHash (branchRef exp.branchId) with
    | ok head =>
      exact .inr ⟨head, hidle, hhead, hids, dispatchCandidateRuns_bound hnone hhead hdispatched⟩
    | error e =>
      -- without a branch the first candidate raises, so there is none
      left
      cases hcandidates : exp.candidates with
      | nil => simpa [hcandidates] using hids
      | cons cand rest =>
        rw [← hreset, hcandidates] at hdispatched
        simp [dispatchCandidateRuns, resolveCandidateCommit, resolveFromHead, hhead, bind,
          Except.bind] at hdispatched

/-- What happens to the candidates of an experiment: only a start touches them. -/
theorem Lab.step_cases (env : Env V) (values : Values V) (lab : Lab V) (op : ExperimentOp) :
    (lab.step env values op).experiment.baseCommitHash = lab.experiment.baseCommitHash ∧
      ((lab.step env values op).experiment.candidates = lab.experiment.candidates ∨
        ∃ now head, op = .start now ∧
          Rebound lab.store lab.experiment (lab.step env values op).experiment head) := by
  -- a retry dispatches a copy of the candidate, and the others only write statuses
  cases op with
  | start now =>
    show (lab.save _).experiment.baseCommitHash = _ ∧ ((lab.save _).experiment.candidates = _ ∨ _)
    cases hstart : startExperiment env values lab.store lab.experiment now with
    | mk st' result =>
      cases result with
      | error e => exact ⟨rfl, .inl rfl⟩
      | ok exp' =>
        obtain ⟨hbase, hsame | ⟨head, hrebound⟩⟩ := rebound_of_start hstart
        · exact ⟨hbase, .inl hsame⟩
        · refine ⟨hbase, .inr ⟨now, head, rfl, ?_⟩⟩
          simp only [Lab.step, hstart]
          exact hrebound
  | retry candidateId now =>
    simp only [Lab.step, retryCandidate]
    split
    · exact ⟨rfl, .inl rfl⟩
    · split
      · exact ⟨rfl, .inl rfl⟩
      · rename_i cand _ _
        generalize dispatchCandidateRuns env values lab.experiment.branchId
          lab.experiment.tickerSymbol now lab.store [cand] = result
        obtain ⟨st', dispatched⟩ := result
        cases dispatched with
        | error e => exact ⟨rfl, .inl rfl⟩
        | ok candidates => exact ⟨rfl, .inl rfl⟩
  | cancel => exact ⟨rfl, .inl rfl⟩
  | watch outcome status => exact ⟨rfl, .inl rfl⟩

/-- Nothing is committed, and candidates are bound to the base of the experiment. -/
structure BoundToBase (st : Store V) (exp : Experiment) (baseHash : String) (lab : Lab V) :
    Prop where
  store : lab.store = st
  branchId : lab.experiment.branchId = exp.branchId
  tickerSymbol : lab.experiment.tickerSymbol = exp.tickerSymbol
  bound : ∀ cand ∈ lab.experiment.candidates,
    cand.candidateCommitHash = none ∨ cand.candidateCommitHash = some baseHash

variable {exp : Experiment} {baseHash : String} {lab : Lab V}

theorem boundToBase_start (hbase : st.resolveCommitHash (branchRef exp.branchId) = .ok baseHash)
    (h : BoundToBase st exp baseHash lab) (now : ℕ) :
    BoundToBase st exp baseHash
      (lab.save (startExperiment env values lab.store lab.experiment now)) := by
  have hhead : lab.store.resolveCommitHash (branchRef lab.experiment.branchId) = .ok baseHash := by
    rw [h.store, h.branchId]
    exact hbase
  unfold startExperiment
  split
  · exact h
  · simp only
    -- a start takes the hashes away, and every dispatch resolves the head of the branch anew
    generalize hreset : (lab.experiment.candidates.map fun cand =>
      { cand with candidateCommitHash := none }) = reset
    have hnone : ∀ cand ∈ reset, cand.candidateCommitHash = none := by
      rw [← hreset]
      simp
    have hstore : (dispatchCandidateRuns env values lab.experiment.branchId
        lab.experiment.tickerSymbol now lab.store reset).1 = lab.store :=
      dispatchCandidateRuns_store lab.store reset
    have hbound : ∀ dispatched, (dispatchCandidateRuns env values lab.experiment.branchId
        lab.experiment.tickerSymbol now lab.store reset).2 = .ok dispatched →
        ∀ cand ∈ dispatched, cand.candidateCommitHash = some baseHash :=
      fun dispatched hok => dispatchCandidateRuns_bound hnone hhead hok
    generalize dispatchCandidateRuns env values lab.experiment.branchId
      lab.experiment.tickerSymbol now lab.store reset = result at hstore hbound
    obtain ⟨st', dispatched⟩ := result
    cases dispatched with
    | error e => exact ⟨hstore.trans h.store, h.branchId, h.tickerSymbol, h.bound⟩
    | ok candidates =>
      exact ⟨hstore.trans h.store, h.branchId, h.tickerSymbol,
        fun cand hcand => .inr (hbound candidates rfl cand hcand)⟩

theorem boundToBase_retry (h : BoundToBase st exp baseHash lab) (candidateId : String) (now : ℕ) :
    BoundToBase st exp baseHash
      (lab.save (retryCandidate env values lab.store lab.experiment candidateId now)) := by
  unfold retryCandidate
  split
  · exact h
  · rename_i cand hcand
    simp only
    split
    · exact h
    · have hstore : (dispatchCandidateRuns env values lab.experiment.branchId
          lab.experiment.tickerSymbol now lab.store [cand]).1 = lab.store :=
        dispatchCandidateRuns_store lab.store [cand]
      generalize dispatchCandidateRuns env values lab.experiment.branchId
        lab.experiment.tickerSymbol now lab.store [cand] = result at hstore
      obtain ⟨st', dispatched⟩ := result
      cases dispatched with
      | error e => exact ⟨hstore.trans h.store, h.branchId, h.tickerSymbol, h.bound⟩
      | ok candidates => exact ⟨hstore.trans h.store, h.branchId, h.tickerSymbol, h.bound⟩

theorem boundToBase_step (hbase : st.resolveCommitHash (branchRef exp.branchId) = .ok baseHash)
    (h : BoundToBase st exp baseHash lab) (op : ExperimentOp) :
    BoundToBase st exp baseHash (lab.step env values op) := by
  cases op with
  | start now => exact boundToBase_start hbase h now
  | retry candidateId now => exact boundToBase_retry h candidateId now
  | cancel => exact ⟨h.store, h.branchId, h.tickerSymbol, h.bound⟩
  | watch outcome status => exact ⟨h.store, h.branchId, h.tickerSymbol, h.bound⟩

/-- **A candidate is the configuration it stands for only where its rule changes nothing.** In every
    run of an experiment, however often it is started or its candidates retried: the commit that a
    candidate is bound to has the base configuration with the rule of the candidate, if and only if
    the rule leaves the base configuration as it is.

    The rule is applied by an assignment to a frozen dataclass, which raises; the candidate is then
    bound to the head of the branch. -/
theorem isolated_iff_neutral (env : Env V) (values : Values V) {st : Store V} {exp : Experiment}
    {baseHash : String} (hfresh : exp.Fresh)
    (hbase : st.resolveCommitHash (branchRef exp.branchId) = .ok baseHash)
    (ops : List ExperimentOp) :
    let lab := run (Lab.step env values) ⟨st, exp⟩ ops
    ∀ cand ∈ lab.experiment.candidates, cand.candidateCommitHash.isSome →
      (Isolated env values (loadConfig env st baseHash) lab.store exp.tickerSymbol cand ↔
        Neutral values (loadConfig env st baseHash) exp.tickerSymbol cand) := by
  intro lab cand hcand hsome
  have hinit : BoundToBase st exp baseHash ⟨st, exp⟩ :=
    ⟨rfl, rfl, rfl, fun c hc => .inl (hfresh c hc)⟩
  have hlab : BoundToBase st exp baseHash lab :=
    run_invariant (BoundToBase st exp baseHash) (fun _ op h => boundToBase_step hbase h op) hinit
      ops
  -- whatever has been called before, the candidate is bound to the base
  have hhash : cand.candidateCommitHash = some baseHash := by
    rcases hlab.bound cand hcand with hnone | hbound
    · rw [hnone] at hsome
      cases hsome
    · exact hbound
  have hisolated :
      Isolated env values (loadConfig env st baseHash) lab.store exp.tickerSymbol cand ↔
        loadConfig env st baseHash =
          (loadConfig env st baseHash).map (variantOf values cand exp.tickerSymbol) := by
    unfold Isolated
    rw [hlab.store, hhash]
    constructor
    · intro h
      exact h baseHash rfl
    · intro h hash heq
      rw [← Option.some.inj heq]
      exact h
  rw [hisolated]
  cases loadConfig env st baseHash with
  | error e =>
    refine ⟨fun _ => ?_, fun _ => rfl⟩
    intro config hconfig
    cases hconfig
  | ok config =>
    rw [← variantOf_eq_self_iff]
    constructor
    · intro h
      exact (Except.ok.inj h).symm
    · intro h
      simp [Except.map, h]

end Labs

/-! ## §7 Two experiments -/

/-- Hashes as in `sampleEnv`; every configuration is valid. -/
def openEnv : Env Scalar := { sampleEnv with validate := fun config => .ok config }

def scalarValues : Values Scalar where
  ofText := .text
  ofWeight := .number
  toWeight
    | some (.number weight) => weight
    | _ => 1
  isTrue
    | some (.flag b) => b
    | _ => true
  normWeights _ n := List.replicate n (1 / n)

/-- An asset with one strategy. -/
def weightConfig (weight : ℚ) : Config Scalar :=
  sampleConfig [sampleAsset "BTC" "USD" "BINANCE" 1 .null
    (.strategies [sampleStrategy "RSI" weight])]

/-- A store with a branch for an experiment. -/
def experimentStore (weight : ℚ) : Store Scalar :=
  run (StoreOp.step openEnv) Store.empty
    [.commit (weightConfig weight) "user" "r" "HEAD" ⟨none, []⟩ 0, .branch (branchRef "x") "HEAD"]

def currentCandidate : ExperimentCandidate :=
  ⟨"cand_current", "Current Configuration", .currentConfig, Dict.empty, none, none⟩

def equalCandidate : ExperimentCandidate :=
  ⟨"cand_equal_weight", "Equal-Weight Strategies", .equalWeight, Dict.empty, none, none⟩

def sampleExperiment : Experiment :=
  ⟨"x", "BTC_USD", "#r", .draft, [currentCandidate, equalCandidate], []⟩

theorem fresh_sampleExperiment : sampleExperiment.Fresh := by
  unfold Experiment.Fresh
  decide

/-- The candidate of equal weights, once it is bound to the head of the branch. -/
def boundCandidate : ExperimentCandidate :=
  { equalCandidate with
    strategyWeights := Dict.ofList [("RSI", 1)]
    candidateCommitHash := some "#r" }

/-- With the weight 1 the candidate of equal weights is what it stands for. -/
theorem equal_weights_isolated :
    Isolated openEnv scalarValues (loadConfig openEnv (experimentStore 1) "#r")
      (run (Lab.step openEnv scalarValues) ⟨experimentStore 1, sampleExperiment⟩
        [.start 0]).store "BTC_USD" boundCandidate := by
  have hbase : (experimentStore 1).resolveCommitHash (branchRef "x") = .ok "#r" := by
    decide +kernel
  have hcand : boundCandidate ∈ (run (Lab.step openEnv scalarValues)
      ⟨experimentStore 1, sampleExperiment⟩ [.start 0]).experiment.candidates := by
    decide +kernel
  have hconfig : loadConfig openEnv (experimentStore 1) "#r" = .ok (weightConfig 1) := by
    decide +kernel
  have hvariant : variantOf scalarValues boundCandidate "BTC_USD" (weightConfig 1) =
      weightConfig 1 := by
    decide +kernel
  apply (isolated_iff_neutral openEnv scalarValues fresh_sampleExperiment hbase [.start 0]
    boundCandidate hcand rfl).mpr
  rw [hconfig]
  exact (variantOf_eq_self_iff scalarValues boundCandidate "BTC_USD" _).mp hvariant

/-- With the weight 2 the candidate of equal weights is bound to the weight 2. -/
theorem equal_weights_not_committed :
    sampleExperiment.Fresh ∧
      (experimentStore 2).resolveCommitHash (branchRef "x") = .ok "#r" ∧
      ¬ ∀ cand ∈ (run (Lab.step openEnv scalarValues) ⟨experimentStore 2, sampleExperiment⟩
          [.start 0]).experiment.candidates,
        Isolated openEnv scalarValues (loadConfig openEnv (experimentStore 2) "#r")
          (run (Lab.step openEnv scalarValues) ⟨experimentStore 2, sampleExperiment⟩
            [.start 0]).store "BTC_USD" cand := by
  refine ⟨fresh_sampleExperiment, by decide +kernel, ?_⟩
  intro h
  have hequal := h boundCandidate (by decide +kernel) "#r" rfl
  revert hequal
  decide +kernel

end CryptoTrading.Experiments

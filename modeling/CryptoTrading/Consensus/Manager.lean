import Mathlib.Data.Finset.Sort
import Mathlib.Data.String.Basic
import CryptoTrading.Consensus.Decision
import CryptoTrading.Consensus.StrategyWeight
import CryptoTrading.Lib.Record
import CryptoTrading.Lib.Run

/-!
# The consensus manager

`ConsensusManager` keeps the strategies by the action they vote on and asks those that apply to
a ticker.  The votes are collected in dictionaries by name, so that two voters of one name would
lose a vote; registration refuses what would bring them together (`Distinct`).
-/

namespace CryptoTrading.Consensus

open CryptoTrading.Lib

/-! ## §1 The registry -/

structure ConsensusFactor where
  buy : ℚ
  sell : ℚ

def ConsensusFactor.forAction (factor : ConsensusFactor) : TradeAction → ℚ
  | .buy => factor.buy
  | .sell => factor.sell

/-- `TradeAction.value`. -/
def actionValue : TradeAction → String
  | .buy => "BUY"
  | .sell => "SELL"

structure ConsensusManager where
  strategies : Dict (Option TradeAction) (List TradingStrategy)
  assetFactors : Dict String ConsensusFactor

/-- A list of texts, as Python prints it. -/
def printTexts (texts : List String) : String :=
  "[" ++ ", ".intercalate (texts.map fun text => s!"'{text}'") ++ "]"

namespace ConsensusManager

/-- `__init__`. -/
def new : ConsensusManager := ⟨Dict.empty, Dict.empty⟩

/-- `set_factors`, from the tickers of the assets and their factors. -/
def setFactors (m : ConsensusManager) (assets : List (String × Option ConsensusFactor)) :
    ConsensusManager :=
  { m with assetFactors := Dict.ofList (assets.filterMap fun a => a.2.map fun f => (a.1, f)) }

/-- `factor_for`. -/
def factorFor (m : ConsensusManager) (tickerSymbol : String) : Option ConsensusFactor :=
  m.assetFactors.get? tickerSymbol

/-- The text about a duplicate; a strategy without an action has none to print. -/
def duplicateMessage (strategy : TradingStrategy) (detail : String) : String :=
  match strategy.action with
  | none => "'NoneType' object has no attribute 'value'"
  | some action =>
    s!"Duplicate strategy name '{strategy.name}' for action {actionValue action}" ++ detail

/-- The error that a strategy of the same name is answered with, if it stands in the way. -/
def duplicateError (strategy other : TradingStrategy) : Option String :=
  if other.name ≠ strategy.name then none
  else
    match other.tickerSymbols, strategy.tickerSymbols with
    | some otherTickers, some newTickers =>
      let overlap := otherTickers ∩ newTickers
      if overlap = ∅ then none
      else some (duplicateMessage strategy s!" and tickers {printTexts (sortedElements overlap)}")
    | _, _ => some (duplicateMessage strategy ": unrestricted strategy already registered")

/-- `register_strategy`: the manager afterwards, and the error if one is raised. -/
def registerStrategy (m : ConsensusManager) (strategy : TradingStrategy) :
    ConsensusManager × Option String :=
  if strategy.tickerSymbols = some ∅ then
    (m, some (s!"Strategy '{strategy.name}' is not bound to any ticker symbol; " ++
      "refusing to register"))
  else
    let existing := m.strategies.getD strategy.action []
    match existing.findSome? (duplicateError strategy) with
    | some error => (m, some error)
    | none =>
      ({ m with strategies := m.strategies.set strategy.action (existing ++ [strategy]) }, none)

/-- `self.strategies[action].remove(strategy)`, and the list goes when it is empty. -/
def removeFrom (strategy : TradingStrategy) (m : ConsensusManager)
    (action : Option TradeAction) : ConsensusManager :=
  match m.strategies.get? action with
  | none => m
  | some strategies =>
    if strategies.any fun s => s.object = strategy.object then
      let remaining := strategies.eraseP fun s => s.object = strategy.object
      if remaining.length = 0 then { m with strategies := m.strategies.erase action }
      else { m with strategies := m.strategies.set action remaining }
    else m

/-- `unregister_strategy`. -/
def unregisterStrategy (m : ConsensusManager) (strategy : TradingStrategy) : ConsensusManager :=
  let actionsToCheck :=
    if m.strategies.contains strategy.action then [strategy.action] else m.strategies.keys
  actionsToCheck.foldl (removeFrom strategy) m

/-! ## §2 The evaluation -/

/-- `_eligible_strategies`. -/
def eligibleStrategies (strategies : List TradingStrategy) (tickerSymbol : String) :
    List TradingStrategy :=
  strategies.filter fun s => s.enabled ∧ ∀ tickers ∈ s.tickerSymbols, tickerSymbol ∈ tickers

/-- The votes and the weights so far. -/
abbrev Tally := Dict String Bool × Dict String ℚ

/-- One round of the loop in `_collect_strategy_votes`.  Only a strategy that counts is asked. -/
def collectVote (getQuorum : TradingStrategy → Except String Bool)
    (effectiveWeight : TradingStrategy → ℚ) (tally : Tally) (strategy : TradingStrategy) :
    Except String Tally :=
  if strategy.enabled = false then .ok tally
  else
    let weights := tally.2.set strategy.name (effectiveWeight strategy)
    if 0 < effectiveWeight strategy then do
      let vote ← getQuorum strategy
      return (tally.1.set strategy.name vote, weights)
    else
      .ok (tally.1.set strategy.name false, weights)

/-- `_collect_strategy_votes`. -/
def collectStrategyVotes (getQuorum : TradingStrategy → Except String Bool)
    (effectiveWeight : TradingStrategy → ℚ) (strategies : List TradingStrategy) :
    Except String Tally :=
  strategies.foldlM (collectVote getQuorum effectiveWeight) (Dict.empty, Dict.empty)

/-- The strategies that `evaluate` asks. -/
def voters (m : ConsensusManager) (tradeAction : TradeAction) (tickerSymbol : String) :
    List TradingStrategy :=
  eligibleStrategies (m.strategies.getD (some tradeAction) []) tickerSymbol

/-- What a strategy counts at the time of the market data, or of the clock if it has none. -/
def weightAt (zones : ZoneInfo) (marketTimestamp : Option ℚ) (now : ℚ) (s : TradingStrategy) : ℚ :=
  resolveEffectiveWeight zones s (marketTimestamp.getD now)

/-- `evaluate`.  `getQuorum` is how the strategies answer to the arguments of the call;
    `marketTimestamp` is the time of the market data, and `now` the time of the clock. -/
def evaluate (m : ConsensusManager) (zones : ZoneInfo)
    (getQuorum : TradingStrategy → Except String Bool) (marketTimestamp : Option ℚ) (now : ℚ)
    (tradeAction : TradeAction) (tickerSymbol : String) : Except String ConsensusDecision :=
  let strategies := m.voters tradeAction tickerSymbol
  if strategies = [] then .ok ⟨tradeAction, tickerSymbol, Dict.empty, Dict.empty, 0⟩
  else
    match m.factorFor tickerSymbol with
    | none =>
      .error (s!"Asset '{tickerSymbol}' has no consensus factor configured; " ++
        "consensus must be specified per asset.")
    | some consensusFactor => do
      let (votes, weights) ←
        collectStrategyVotes getQuorum (weightAt zones marketTimestamp now) strategies
      return ⟨tradeAction, tickerSymbol, votes, weights, consensusFactor.forAction tradeAction⟩

/-- A call to the registry. -/
inductive RegistryCall where
  | setFactors (assets : List (String × Option ConsensusFactor))
  | register (strategy : TradingStrategy)
  | unregister (strategy : TradingStrategy)

/-- The manager after a call, refused or not. -/
def apply (m : ConsensusManager) : RegistryCall → ConsensusManager
  | .setFactors assets => m.setFactors assets
  | .register strategy => (m.registerStrategy strategy).1
  | .unregister strategy => m.unregisterStrategy strategy

/-! ## §3 Names tell the voters apart -/

/-- Two strategies of one name are restricted, to different tickers. -/
def Compatible (s t : TradingStrategy) : Prop :=
  s.name = t.name → ∃ tickers tickers', s.tickerSymbols = some tickers ∧
    t.tickerSymbols = some tickers' ∧ Disjoint tickers tickers'

theorem duplicateError_eq_none {strategy other : TradingStrategy} :
    duplicateError strategy other = none ↔ Compatible other strategy := by
  unfold duplicateError Compatible
  by_cases hname : other.name = strategy.name
  · cases hother : other.tickerSymbols with
    | none => simp [hname]
    | some otherTickers =>
      cases hnew : strategy.tickerSymbols with
      | none => simp [hname]
      | some newTickers => simp [hname, Finset.disjoint_iff_inter_eq_empty]
  · simp [hname]

/-- The invariant of the registry. -/
def Distinct (m : ConsensusManager) : Prop :=
  ∀ action strategies, m.strategies.get? action = some strategies →
    strategies.Pairwise Compatible

theorem Distinct.getD {m : ConsensusManager} (h : m.Distinct) (action : Option TradeAction) :
    (m.strategies.getD action []).Pairwise Compatible := by
  unfold Dict.getD
  cases hget : m.strategies.get? action with
  | none => exact List.Pairwise.nil
  | some strategies => exact h action strategies hget

/-- A new list for one action. -/
theorem Distinct.set {m : ConsensusManager} (h : m.Distinct) {action : Option TradeAction}
    {strategies : List TradingStrategy} (hnew : strategies.Pairwise Compatible) :
    Distinct { m with strategies := m.strategies.set action strategies } := by
  intro action' strategies' hget
  rw [Dict.get?_set] at hget
  split at hget
  · obtain rfl := Option.some.inj hget
    exact hnew
  · exact h action' strategies' hget

/-- A registration is refused, or the strategy comes last in a list it fits in. -/
theorem registerStrategy_cases (m : ConsensusManager) (strategy : TradingStrategy) :
    (∃ error, m.registerStrategy strategy = (m, some error)) ∨
      (∀ other ∈ m.strategies.getD strategy.action [], Compatible other strategy) ∧
      m.registerStrategy strategy =
        (let existing := m.strategies.getD strategy.action []
        { m with strategies := m.strategies.set strategy.action (existing ++ [strategy]) },
          none) := by
  unfold registerStrategy
  split
  · exact .inl ⟨_, rfl⟩
  · cases hfound : (m.strategies.getD strategy.action []).findSome?
        (duplicateError strategy) with
    | some error => exact .inl ⟨error, by simp [hfound]⟩
    | none =>
      refine .inr ⟨?_, by simp [hfound]⟩
      intro other hother
      exact duplicateError_eq_none.mp (List.findSome?_eq_none_iff.mp hfound other hother)

theorem Distinct.registerStrategy {m : ConsensusManager} (h : m.Distinct)
    (strategy : TradingStrategy) : (m.registerStrategy strategy).1.Distinct := by
  rcases m.registerStrategy_cases strategy with ⟨error, heq⟩ | ⟨hfits, heq⟩
  · rw [heq]
    exact h
  · rw [heq]
    apply h.set
    rw [List.pairwise_append]
    refine ⟨h.getD strategy.action, List.pairwise_singleton _ _, ?_⟩
    intro other hother added hadded
    rw [List.mem_singleton.mp hadded]
    exact hfits other hother

theorem Distinct.removeFrom {m : ConsensusManager} (h : m.Distinct) (strategy : TradingStrategy)
    (action : Option TradeAction) : (removeFrom strategy m action).Distinct := by
  unfold ConsensusManager.removeFrom
  split
  · exact h
  · rename_i strategies hget
    split
    · dsimp only
      split
      · intro action' strategies' hget'
        rw [Dict.get?_erase] at hget'
        split at hget'
        · cases hget'
        · exact h action' strategies' hget'
      · exact h.set ((h action strategies hget).sublist List.eraseP_sublist)
    · exact h

theorem Distinct.apply {m : ConsensusManager} (h : m.Distinct) (call : RegistryCall) :
    (m.apply call).Distinct := by
  cases call with
  | setFactors assets => exact h
  | register strategy => exact h.registerStrategy strategy
  | unregister strategy =>
    exact List.foldlRecOn _ _ h fun m hm action _ => hm.removeFrom strategy action

/-- **Every sequence of calls keeps the names apart.** -/
theorem distinct_run (calls : List RegistryCall) : (run apply new calls).Distinct :=
  run_invariant Distinct (fun _ call h => h.apply call) (by simp [Distinct, new]) calls

theorem registerStrategy_refused {m : ConsensusManager} {strategy : TradingStrategy}
    {error : String} (h : (m.registerStrategy strategy).2 = some error) :
    (m.registerStrategy strategy).1 = m := by
  rcases m.registerStrategy_cases strategy with ⟨error, heq⟩ | ⟨-, heq⟩
  · rw [heq]
  · rw [heq] at h
    cases h

/-- The strategies that are asked have different names. -/
theorem Distinct.nodup_names {m : ConsensusManager} (h : m.Distinct) (tradeAction : TradeAction)
    (tickerSymbol : String) : ((m.voters tradeAction tickerSymbol).map (·.name)).Nodup := by
  unfold voters eligibleStrategies
  rw [List.Nodup, List.pairwise_map, List.pairwise_filter]
  apply (h.getD (some tradeAction)).imp
  intro s t hcompatible hs ht hname
  obtain ⟨tickers, tickers', hstickers, httickers, hdisjoint⟩ := hcompatible hname
  simp only [hstickers, httickers, Option.mem_some_iff, decide_eq_true_eq] at hs ht
  exact Finset.disjoint_left.mp hdisjoint (hs.2 tickers rfl) (ht.2 tickers' rfl)

/-! ## §4 The votes -/

section Votes

variable {getQuorum : TradingStrategy → Except String Bool} {effectiveWeight : TradingStrategy → ℚ}
  {vote : TradingStrategy → Bool}

/-- The strategies that count answer, and `vote` is what they say. -/
def Answers (getQuorum : TradingStrategy → Except String Bool)
    (effectiveWeight : TradingStrategy → ℚ) (vote : TradingStrategy → Bool)
    (strategies : List TradingStrategy) : Prop :=
  ∀ s ∈ strategies, 0 < effectiveWeight s → getQuorum s = .ok (vote s)

/-- The vote that is taken down: a strategy that does not count votes no. -/
def recordedVote (effectiveWeight : TradingStrategy → ℚ) (vote : TradingStrategy → Bool)
    (s : TradingStrategy) : Bool :=
  decide (0 < effectiveWeight s) && vote s

theorem collectVote_eq {strategy : TradingStrategy} (henabled : strategy.enabled = true)
    (hanswer : 0 < effectiveWeight strategy → getQuorum strategy = .ok (vote strategy))
    (tally : Tally) :
    collectVote getQuorum effectiveWeight tally strategy =
      .ok (tally.1.set strategy.name (recordedVote effectiveWeight vote strategy),
        tally.2.set strategy.name (effectiveWeight strategy)) := by
  by_cases hpos : 0 < effectiveWeight strategy
  · simp [collectVote, henabled, hpos, hanswer hpos, recordedVote, bind, Except.bind, pure,
      Except.pure]
  · simp [collectVote, henabled, hpos, recordedVote]

/-- The loop writes one vote and one weight after the other. -/
theorem foldlM_collectVote {strategies : List TradingStrategy}
    (henabled : ∀ s ∈ strategies, s.enabled = true)
    (hanswers : Answers getQuorum effectiveWeight vote strategies) (tally : Tally) :
    strategies.foldlM (collectVote getQuorum effectiveWeight) tally =
      .ok ((strategies.map fun s => (s.name, recordedVote effectiveWeight vote s)).foldl
          (fun d e => d.set e.1 e.2) tally.1,
        (strategies.map fun s => (s.name, effectiveWeight s)).foldl
          (fun d e => d.set e.1 e.2) tally.2) := by
  induction strategies generalizing tally with
  | nil => rfl
  | cons strategy rest ih =>
    obtain ⟨hfirst, hrest⟩ := List.forall_mem_cons.mp henabled
    obtain ⟨hanswer, hanswers⟩ := List.forall_mem_cons.mp hanswers
    rw [List.foldlM_cons, collectVote_eq hfirst hanswer]
    exact ih hrest hanswers _

theorem collectStrategyVotes_eq {strategies : List TradingStrategy}
    (henabled : ∀ s ∈ strategies, s.enabled = true)
    (hanswers : Answers getQuorum effectiveWeight vote strategies) :
    collectStrategyVotes getQuorum effectiveWeight strategies =
      .ok (Dict.ofList (strategies.map fun s => (s.name, recordedVote effectiveWeight vote s)),
        Dict.ofList (strategies.map fun s => (s.name, effectiveWeight s))) :=
  foldlM_collectVote henabled hanswers _

end Votes

section Evaluation

variable {m : ConsensusManager} {zones : ZoneInfo}
  {getQuorum : TradingStrategy → Except String Bool} {vote : TradingStrategy → Bool}
  {marketTimestamp : Option ℚ} {now : ℚ} {tradeAction : TradeAction} {tickerSymbol : String}
  {consensusFactor : ConsensusFactor}

theorem weightAt_nonneg (s : TradingStrategy) : 0 ≤ weightAt zones marketTimestamp now s :=
  resolveEffectiveWeight_nonneg zones s _

/-- **No vote is lost**: the decision holds one vote and one weight of every strategy asked. -/
theorem Distinct.evaluate (h : m.Distinct)
    (hfactor : m.factorFor tickerSymbol = some consensusFactor)
    (hanswers : Answers getQuorum (weightAt zones marketTimestamp now) vote
      (m.voters tradeAction tickerSymbol)) :
    ∃ d, m.evaluate zones getQuorum marketTimestamp now tradeAction tickerSymbol = .ok d ∧
      OfVoters (·.name) (weightAt zones marketTimestamp now)
        (recordedVote (weightAt zones marketTimestamp now) vote)
        (m.voters tradeAction tickerSymbol) d ∧
      (m.voters tradeAction tickerSymbol ≠ [] →
        d.factor = consensusFactor.forAction tradeAction) := by
  -- with nobody to ask, the decision is empty and has no factor
  by_cases hvoters : m.voters tradeAction tickerSymbol = []
  · refine ⟨⟨tradeAction, tickerSymbol, Dict.empty, Dict.empty, 0⟩, ?_, ?_, ?_⟩
    · simp only [ConsensusManager.evaluate, hvoters, if_true]
    · rw [hvoters]
      exact ⟨rfl, rfl⟩
    · exact fun hne => absurd hvoters hne
  · have henabled : ∀ s ∈ m.voters tradeAction tickerSymbol, s.enabled = true := by
      intro s hs
      have happlies := (List.mem_filter.mp hs).2
      simp only [decide_eq_true_eq] at happlies
      exact happlies.1
    have hcollect := collectStrategyVotes_eq henabled hanswers
    have hnames := h.nodup_names tradeAction tickerSymbol
    refine ⟨⟨tradeAction, tickerSymbol, _, _, consensusFactor.forAction tradeAction⟩, ?_,
      ⟨Dict.entries_ofList ?_, Dict.entries_ofList ?_⟩, fun _ => rfl⟩
    · simp only [ConsensusManager.evaluate, hvoters, if_false, hfactor]
      rw [hcollect]
      rfl
    · simpa [List.map_map, Function.comp_def] using hnames
    · simpa [List.map_map, Function.comp_def] using hnames

/-! ## §5 The quorum -/

/-- What `evaluate` decides, in terms of the answers. -/
theorem Distinct.quorum_iff (h : m.Distinct)
    (hfactor : m.factorFor tickerSymbol = some consensusFactor)
    (hpos : 0 < consensusFactor.forAction tradeAction)
    (hanswers : Answers getQuorum (weightAt zones marketTimestamp now) vote
      (m.voters tradeAction tickerSymbol))
    {d : ConsensusDecision}
    (hd : m.evaluate zones getQuorum marketTimestamp now tradeAction tickerSymbol = .ok d) :
    d.quorum = true ↔ Carried (consensusFactor.forAction tradeAction)
      (ballotsOf (weightAt zones marketTimestamp now)
        (recordedVote (weightAt zones marketTimestamp now) vote)
        (m.voters tradeAction tickerSymbol)) := by
  obtain ⟨d', hd', hvoters, hfactor'⟩ := h.evaluate hfactor hanswers
  obtain rfl : d = d' := Except.ok.inj (hd.symm.trans hd')
  by_cases hempty : m.voters tradeAction tickerSymbol = []
  · -- nobody is asked, and the decision is not carried
    have hweight : d.totalWeight = 0 := by
      rw [hvoters.totalWeight_eq, totalWeight_ballotsOf, hempty]
      rfl
    have htotal : d.total = 0 := by
      rw [hvoters.total_eq, hempty]
      rfl
    simp [ConsensusDecision.quorum, hweight, htotal, Carried, ballotsOf, hempty]
  · rw [← hfactor' hempty] at hpos ⊢
    apply hvoters.quorum_iff hpos
    · exact fun s _ => weightAt_nonneg s
    · intro s _ hzero
      simp [recordedVote, hzero]

end Evaluation

/-- The documented rule: somebody who counts says yes, and those who say yes have their share of
    the weight. -/
def WeightedQuorum (factor : ℚ) (weight : TradingStrategy → ℚ) (yes : TradingStrategy → Bool)
    (voters : List TradingStrategy) : Prop :=
  (∃ s ∈ voters, 0 < weight s ∧ yes s = true) ∧
    factor / (1 + factor) * (voters.map weight).sum ≤ ((voters.filter yes).map weight).sum

theorem weightedQuorum_iff_carried {factor : ℚ} {weight : TradingStrategy → ℚ}
    {yes : TradingStrategy → Bool} {voters : List TradingStrategy} :
    WeightedQuorum factor weight yes voters ↔ Carried factor (ballotsOf weight yes voters) := by
  rw [WeightedQuorum, Carried, totalWeight_ballotsOf, yesWeight_ballotsOf]
  simp [ballotsOf]

/-- Whether the strategy is in favour, as the decision has it. -/
def InFavour (d : ConsensusDecision) (s : TradingStrategy) : Bool :=
  d.votes.get? s.name = some true

/-- A decision that holds every vote and follows the documented rule. -/
structure DecidesByWeight (factor : ℚ) (weight : TradingStrategy → ℚ)
    (vote : TradingStrategy → Bool) (voters : List TradingStrategy) (d : ConsensusDecision) :
    Prop where
  votes : d.votes.entries = voters.map fun s => (s.name, recordedVote weight vote s)
  weights : d.weights.entries = voters.map fun s => (s.name, weight s)
  quorum : d.quorum = true ↔ WeightedQuorum factor weight (InFavour d) voters
  equalWeights : voters ≠ [] → (∀ s ∈ voters, ∀ t ∈ voters, weight s = weight t) →
    (d.quorum = true ↔ 0 ≤ d.trueCount - factor * (d.total - d.trueCount)) ∧
    (d.quorum = true ↔ factor / (1 + factor) * d.total ≤ d.trueCount)

/-- With equal weights heads are counted, also when nobody has any weight. -/
theorem carried_equalWeights {factor : ℚ} {weight : TradingStrategy → ℚ}
    (vote : TradingStrategy → Bool) {voters : List TradingStrategy} (hfactor : 0 < factor)
    (hweight : ∀ s, 0 ≤ weight s) (hvoters : voters ≠ [])
    (hequal : ∀ s ∈ voters, ∀ t ∈ voters, weight s = weight t) :
    Carried factor (ballotsOf weight (recordedVote weight vote) voters) ↔
      factor / (1 + factor) * voters.length ≤ voters.countP (recordedVote weight vote) := by
  obtain ⟨s, hs⟩ := List.exists_mem_of_ne_nil voters hvoters
  rcases (hweight s).lt_or_eq with hpos | hzero
  · exact carried_iff_count hfactor hpos (fun t ht => hequal t ht s hs) hvoters
  · have hzeros : ∀ t ∈ voters, weight t = 0 := fun t ht => (hequal t ht s hs).trans hzero.symm
    have hnone : voters.countP (recordedVote weight vote) = 0 := by
      rw [List.countP_eq_zero]
      intro t ht
      simp [recordedVote, hzeros t ht]
    have hlength : (0 : ℚ) < voters.length := by
      exact_mod_cast List.length_pos_iff.mpr hvoters
    rw [hnone, Nat.cast_zero]
    apply iff_of_false
    · intro hcarried
      obtain ⟨b, hb, hpos, -⟩ := hcarried.1
      obtain ⟨t, ht, rfl⟩ := List.mem_map.mp hb
      exact absurd (hzeros t ht) hpos.ne'
    · rw [not_le]
      positivity

section Main

variable {m : ConsensusManager} {zones : ZoneInfo}
  {getQuorum : TradingStrategy → Except String Bool} {vote : TradingStrategy → Bool}
  {marketTimestamp : Option ℚ} {now : ℚ} {tradeAction : TradeAction} {tickerSymbol : String}
  {consensusFactor : ConsensusFactor}

theorem Distinct.decidesByWeight (h : m.Distinct)
    (hfactor : m.factorFor tickerSymbol = some consensusFactor)
    (hpos : 0 < consensusFactor.forAction tradeAction)
    (hanswers : Answers getQuorum (weightAt zones marketTimestamp now) vote
      (m.voters tradeAction tickerSymbol)) :
    ∃ d, m.evaluate zones getQuorum marketTimestamp now tradeAction tickerSymbol = .ok d ∧
      DecidesByWeight (consensusFactor.forAction tradeAction)
        (weightAt zones marketTimestamp now) vote (m.voters tradeAction tickerSymbol) d := by
  obtain ⟨d, hd, hvoters, -⟩ := h.evaluate hfactor hanswers
  have hcarried := h.quorum_iff hfactor hpos hanswers hd
  refine ⟨d, hd, hvoters.votes, hvoters.weights, ?_, ?_⟩
  · rw [hcarried, weightedQuorum_iff_carried]
    -- the decision has the recorded votes
    have hballots : ballotsOf (weightAt zones marketTimestamp now) (InFavour d)
        (m.voters tradeAction tickerSymbol) =
        ballotsOf (weightAt zones marketTimestamp now)
          (recordedVote (weightAt zones marketTimestamp now) vote)
          (m.voters tradeAction tickerSymbol) := by
      apply List.map_congr_left
      intro s hs
      simp [InFavour, hvoters.get?_votes hs]
    rw [hballots]
  · intro hne hequal
    have hcount := carried_equalWeights vote hpos (fun s => weightAt_nonneg s) hne hequal
    rw [← hvoters.total_eq, ← hvoters.trueCount_eq] at hcount
    rw [hcarried, hcount, ← share_le_iff hpos]
    exact ⟨Iff.rfl, Iff.rfl⟩

/-- Only the strategies that count have influence. -/
theorem carried_recorded_iff (voters : List TradingStrategy) :
    Carried (consensusFactor.forAction tradeAction)
        (ballotsOf (weightAt zones marketTimestamp now)
          (recordedVote (weightAt zones marketTimestamp now) vote) voters) ↔
      Carried (consensusFactor.forAction tradeAction)
        (ballotsOf (weightAt zones marketTimestamp now) vote
          (voters.filter fun s => 0 < weightAt zones marketTimestamp now s)) := by
  have hnonneg : ∀ b ∈ ballotsOf (weightAt zones marketTimestamp now)
      (recordedVote (weightAt zones marketTimestamp now) vote) voters, 0 ≤ b.weight :=
    List.forall_mem_map.mpr fun s _ => weightAt_nonneg s
  rw [← carried_filter hnonneg]
  have hballots : (ballotsOf (weightAt zones marketTimestamp now)
      (recordedVote (weightAt zones marketTimestamp now) vote) voters).filter
        (fun b => 0 < b.weight) =
      ballotsOf (weightAt zones marketTimestamp now) vote
        (voters.filter fun s => 0 < weightAt zones marketTimestamp now s) := by
    unfold ballotsOf
    rw [List.filter_map]
    apply List.map_congr_left
    intro s hs
    have hcounts := (List.mem_filter.mp hs).2
    simp only [Function.comp_apply, decide_eq_true_eq] at hcounts
    simp [recordedVote, hcounts]
  rw [hballots]

end Main

/-- **Weighted quorum is the documented rule and loses no vote**, after every sequence of calls
    to the registry.

    - A refused registration changes nothing.
    - The decision has one vote and one weight of every strategy that is enabled and applies to
      the ticker, and there is a quorum exactly by the rule; with equal weights it counts heads.
    - After any other calls, and with any other answers, the quorum is the same as long as the
      strategies that count are the same and answer the same.
    - No quorum is lost by a vote turned from no to yes. -/
theorem evaluate_decides_by_weight (calls : List RegistryCall) (zones : ZoneInfo)
    (marketTimestamp : Option ℚ) (now : ℚ) (tradeAction : TradeAction) (tickerSymbol : String)
    (consensusFactor : ConsensusFactor) (getQuorum : TradingStrategy → Except String Bool)
    (vote : TradingStrategy → Bool)
    (hfactor : (run apply new calls).factorFor tickerSymbol = some consensusFactor)
    (hpos : 0 < consensusFactor.forAction tradeAction)
    (hanswers : Answers getQuorum (weightAt zones marketTimestamp now) vote
      ((run apply new calls).voters tradeAction tickerSymbol)) :
    let m := run apply new calls
    let weight := weightAt zones marketTimestamp now
    (∀ strategy error, (m.registerStrategy strategy).2 = some error →
      (m.registerStrategy strategy).1 = m) ∧
    ∃ d, m.evaluate zones getQuorum marketTimestamp now tradeAction tickerSymbol = .ok d ∧
      DecidesByWeight (consensusFactor.forAction tradeAction) weight vote
        (m.voters tradeAction tickerSymbol) d ∧
      (∀ calls' getQuorum' d', let m' := run apply new calls'
        m'.factorFor tickerSymbol = some consensusFactor →
        (m'.voters tradeAction tickerSymbol).filter (fun s => 0 < weight s) =
          (m.voters tradeAction tickerSymbol).filter (fun s => 0 < weight s) →
        Answers getQuorum' weight vote (m'.voters tradeAction tickerSymbol) →
        m'.evaluate zones getQuorum' marketTimestamp now tradeAction tickerSymbol = .ok d' →
        d'.quorum = d.quorum) ∧
      (∀ getQuorum' vote' d',
        (∀ s ∈ m.voters tradeAction tickerSymbol, vote s = true → vote' s = true) →
        Answers getQuorum' weight vote' (m.voters tradeAction tickerSymbol) →
        m.evaluate zones getQuorum' marketTimestamp now tradeAction tickerSymbol = .ok d' →
        d.quorum = true → d'.quorum = true) := by
  intro m weight
  have hdistinct : m.Distinct := distinct_run calls
  refine ⟨fun strategy error => registerStrategy_refused, ?_⟩
  obtain ⟨d, hd, hdecides⟩ := hdistinct.decidesByWeight hfactor hpos hanswers
  have hquorum := hdistinct.quorum_iff hfactor hpos hanswers hd
  refine ⟨d, hd, hdecides, ?_, ?_⟩
  · -- the rule reads only the ballots of the strategies with a weight, and these are the same
    intro calls' getQuorum' d' m' hfactor' hsame hanswers' hd'
    have hquorum' := (distinct_run calls').quorum_iff hfactor' hpos hanswers' hd'
    rw [carried_recorded_iff] at hquorum hquorum'
    rw [Bool.eq_iff_iff, hquorum', hquorum]
    exact iff_of_eq (congrArg (fun voters => Carried _ (ballotsOf weight vote voters)) hsame)
  · -- weights are not negative, so a vote turned to yes adds to the yes side
    intro getQuorum' vote' d' hmore hanswers' hd' hcarried
    have hquorum' := hdistinct.quorum_iff hfactor hpos hanswers' hd'
    rw [hquorum] at hcarried
    rw [hquorum']
    apply hcarried.mono
    · exact fun s _ => weightAt_nonneg s
    · intro s hs hyes
      simp only [recordedVote, Bool.and_eq_true] at hyes ⊢
      exact ⟨hyes.1, hmore s hs hyes.2⟩

/-- A strategy for one ticker that counts on Mondays from nine to five. -/
def trendStrategy : TradingStrategy where
  object := 0
  name := "Trend"
  action := some .buy
  tickerSymbols := some {"BTC_USD"}
  weight := 1
  schedule := some ⟨"UTC", [⟨[.monday], 32400000000, 61200000000, by decide, by decide⟩]⟩
  enabled := true

/-- A strategy for every ticker that always counts. -/
def gridStrategy : TradingStrategy where
  object := 1
  name := "Grid"
  action := some .buy
  tickerSymbols := none
  weight := 1 / 2
  schedule := none
  enabled := true

/-- Both strategies are asked on a Monday at ten. -/
theorem monday_decides_by_weight :
    let m := run apply new [.setFactors [("BTC_USD", some ⟨1, 1⟩)], .register trendStrategy,
      .register gridStrategy, .register gridStrategy]
    let weight := weightAt (fun _ _ => 0) (some 1791799200) 0
    m.voters .buy "BTC_USD" = [trendStrategy, gridStrategy] ∧ weight trendStrategy = 1 ∧
    ∃ d, m.evaluate (fun _ _ => 0) (fun s => .ok (s.name = "Trend")) (some 1791799200) 0 .buy
        "BTC_USD" = .ok d ∧
      DecidesByWeight 1 weight (fun s => s.name = "Trend") [trendStrategy, gridStrategy] d := by
  refine ⟨rfl, by decide +kernel, ?_⟩
  obtain ⟨-, d, hd, hdecides, -⟩ := evaluate_decides_by_weight
    [.setFactors [("BTC_USD", some ⟨1, 1⟩)], .register trendStrategy, .register gridStrategy,
      .register gridStrategy]
    (fun _ _ => 0) (some 1791799200) 0 .buy "BTC_USD" ⟨1, 1⟩ (fun s => .ok (s.name = "Trend"))
    (fun s => s.name = "Trend") rfl (by decide +kernel) (fun s _ _ => rfl)
  exact ⟨d, hd, hdecides⟩

/-- A strategy that always counts one, for every ticker. -/
def equalStrategy (e : String × ℕ) : TradingStrategy :=
  { gridStrategy with name := e.1, object := e.2, weight := 1 }

/-- The float next to 0.4, which is larger. -/
def twoFifths : ℚ := binary64 (2 / 5)

/-- Seven strategies of weight one are asked with a factor of 0.4, and two are in favour.  Five
    times the float of 0.4 is rounded to 2, so that there is a quorum in floats; the rule asks for
    more than 2 of 7, and there is none. -/
theorem rounding_makes_quorum :
    let strategies := ["A", "B", "C", "D", "E", "F", "G"].zipIdx.map equalStrategy
    let m := run apply new (.setFactors [("BTC_USD", some ⟨twoFifths, 1⟩)] ::
      strategies.map RegistryCall.register)
    let yes (s : TradingStrategy) : Bool := s.name = "A" ∨ s.name = "B"
    m.voters .buy "BTC_USD" = strategies ∧
    ∃ d, m.evaluate (fun _ _ => 0) (fun s => .ok (yes s)) (some 0) 0 .buy "BTC_USD" = .ok d ∧
      d.floatQuorum binary64 = true ∧ d.quorum = false ∧
      ¬ WeightedQuorum twoFifths (weightAt (fun _ _ => 0) (some 0) 0) yes strategies := by
  intro strategies m yes
  refine ⟨rfl, _, rfl, by decide +kernel, by decide +kernel, ?_⟩
  rintro ⟨-, hshare⟩
  exact absurd hshare (by decide +kernel)

end ConsensusManager

end CryptoTrading.Consensus

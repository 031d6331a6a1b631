import CryptoTrading.Experiments.SimulatedRuns

/-!
# Promotion to the main branch

Embeds `src/server/services/main_promotion_service.py` and the start of a simulated run in
`simulation_orchestrator.py`, over the tables of experiments, runs, reports and promotions
(`postgres_experiment_repository.py`, `postgres_promotion_repository.py`) and the configuration
store.

A promotion looks for evidence by the ids of the experiment and of the candidate, and takes the
commit from the candidate.  Whether both belong together is a matter of the whole history: a
candidate is bound anew by each start, a run can be cancelled after its report was stored, gate C
is overruled by a resolved configuration, and the commit is merged by its name, which may be that
of a reference to another one.  In a history where this does not happen (`Supported`) every merge
rests on evidence (`Justified`).

Generated ids are parameters of the calls.  Left out: audit events, the results of the gates that
a record keeps, and creation times; runs are listed in the order in which they were stored.
-/

namespace CryptoTrading.Experiments

open CryptoTrading.Lib CryptoTrading.Vcs

/-! ## §1 Tables -/

/-- A run with its report.  That a cancellation was ever written is noted for good. -/
structure SimulatedRun (ι : Type) where
  experimentId : String
  candidateId : String
  candidateCommit : String
  spec : SimulationSpec
  state : RunState ι
  cancelled : Bool

/-- The report of the run has passed gate B. -/
def SimulatedRun.passed {ι : Type} (r : SimulatedRun ι) : Bool :=
  r.state.report.any fun report => report.decision = .pass

structure PromotionRecord where
  promotionId : String
  experimentId : String
  candidateId : String
  sourceCommit : String
  targetRef : String
  status : PromotionLifecycleState
  approver : String
  approvalNotes : Option String
  mergeCommitHash : String
  deriving DecidableEq

structure World (V ι : Type) where
  store : Store V
  experiments : Dict String Experiment
  runs : Dict String (SimulatedRun ι)
  promotions : Dict String PromotionRecord

/-- Experiments that nothing was simulated of. -/
def World.initial {V ι : Type} (store : Store V) (experiments : Dict String Experiment) :
    World V ι :=
  ⟨store, experiments, Dict.empty, Dict.empty⟩

structure PromoteToMainRequest where
  idempotencyKey : String
  experimentId : String
  candidateId : String
  approver : String
  approvalNotes : Option String
  targetRef : String

inductive PromotionError where
  | experimentNotFound (experimentId : String)
  | candidateNotFound (candidateId : String)
  | noSourceHash (candidateId : String)
  | gateA (candidateId : String)
  | noPassingReport (candidateId : String)
  | gateC
  | vcs (error : VcsError)
  deriving DecidableEq

/-! ## §2 The services -/

namespace World

variable {V ι : Type}

def getCandidate (w : World V ι) (experimentId candidateId : String) :
    Except PromotionError (Experiment × ExperimentCandidate) :=
  match w.experiments.get? experimentId with
  | none => .error (.experimentNotFound experimentId)
  | some exp =>
    match exp.candidates.find? fun cand => cand.candidateId = candidateId with
    | none => .error (.candidateNotFound candidateId)
    | some cand => .ok (exp, cand)

/-- `_get_candidate_and_commit`. -/
def getCandidateAndCommit (w : World V ι) (experimentId candidateId : String) :
    Except PromotionError (ExperimentCandidate × String) := do
  let (exp, cand) ← w.getCandidate experimentId candidateId
  match sourceCommit exp cand with
  | none => .error (.noSourceHash candidateId)
  | some hash => .ok (cand, hash)

/-- `list_runs` with its default limit: the latest come first, and an empty id is no filter. -/
def listRuns (w : World V ι) (experimentId candidateId : String) : List (SimulatedRun ι) :=
  (w.runs.values.reverse.filter fun r =>
    (experimentId = "" || r.experimentId = experimentId) &&
      (candidateId = "" || r.candidateId = candidateId)).take 50

/-- `_get_latest_passing_report`. -/
def getLatestPassingReport (w : World V ι) (experimentId candidateId : String) :
    Option SimulationReport :=
  (w.listRuns experimentId candidateId).findSome? fun r =>
    r.state.report.filter fun report => report.decision = .pass

/-- `start_simulated_run`.  The weights are those of the candidate; the id is a new one. -/
def startSimulatedRun (policy : PromotionPolicy) (w : World V ι)
    (runId experimentId candidateId : String) (spec : SimulationSpec) :
    Except PromotionError (World V ι) := do
  let (exp, cand) ← w.getCandidate experimentId candidateId
  -- after gate A there is a commit, so that the last alternative is never taken
  if (policy.evaluateGateA cand exp).decision ≠ .pass then .error (.gateA candidateId)
  else
    .ok { w with
      runs := w.runs.set runId
        { experimentId := experimentId
          candidateId := candidateId
          candidateCommit := (sourceCommit exp cand).getD "HEAD"
          spec := { spec with strategyWeights := cand.strategyWeights }
          state := .queued
          cancelled := false } }

variable [DecidableEq V] (env : Env V)

/-- `preview_promotion`: the candidate, its commit, and gate C over the preview of the merge. -/
def previewPromotion (w : World V ι) (req : PromoteToMainRequest) :
    Except PromotionError (ExperimentCandidate × String × GateEvaluationResult) := do
  let (cand, source) ← w.getCandidateAndCommit req.experimentId req.candidateId
  match w.getLatestPassingReport req.experimentId req.candidateId with
  | none => .error (.noPassingReport req.candidateId)
  | some _ =>
    let preview ← (w.store.previewMerge env source req.targetRef).mapError .vcs
    .ok (cand, source, PromotionPolicy.evaluateGateC req.approver preview.conflicts.length)

/-- The message of the merge commit. -/
def promotionMessage (req : PromoteToMainRequest) (cand : ExperimentCandidate) : String :=
  "Promote candidate '" ++ cand.name ++ "' from experiment '" ++ req.experimentId ++ "' to " ++
    req.targetRef ++ "\n\nApprover: " ++ req.approver ++ "\nNotes: " ++
    (req.approvalNotes.filter (· ≠ "")).getD "None"

omit [DecidableEq V] in
/-- `save_promotion`: the record of a key that exists is changed in part. -/
def savePromotion (w : World V ι) (key : String) (record : PromotionRecord) : World V ι :=
  { w with
    promotions := w.promotions.set key
      (match w.promotions.get? key with
      | none => record
      | some existing =>
        { existing with
          status := record.status
          approver := record.approver
          approvalNotes := record.approvalNotes
          mergeCommitHash :=
            if record.mergeCommitHash = "" then existing.mergeCommitHash
            else record.mergeCommitHash }) }

/-- `promote_to_main`: the merge commit, unless the key was promoted before, and what the call
    leaves.  A resolved configuration has a key `assets`, so that it is not empty. -/
def promoteToMain (w : World V ι) (req : PromoteToMainRequest)
    (resolvedConfig : Option (Config V)) (promotionId : String) (now : ℕ) :
    Except PromotionError (Option Commit × World V ι) :=
  match (w.promotions.get? req.idempotencyKey).filter fun record => record.status = .promoted with
  | some _ => .ok (none, w)
  | none => do
    -- the candidate and the report are looked up twice, with the same outcome
    let (cand, source, gateC) ← w.previewPromotion env req
    -- a resolved configuration overrules the gate as a whole, not only its conflicts
    if gateC.decision ≠ .pass ∧ resolvedConfig = none then .error .gateC
    else
      let (commit, store) ← (w.store.merge env
        { source := source
          targetRef := req.targetRef
          author := req.approver
          message := some (promotionMessage req cand)
          expectedTargetHead := none
          resolvedConfig := resolvedConfig } now).mapError .vcs
      .ok (some commit, { w with store := store }.savePromotion req.idempotencyKey
        { promotionId := promotionId
          experimentId := req.experimentId
          candidateId := req.candidateId
          sourceCommit := source
          targetRef := req.targetRef
          status := .promoted
          approver := req.approver
          approvalNotes := req.approvalNotes
          mergeCommitHash := commit.hash })

end World

/-! ## §3 Histories -/

/-- A call of one of the services, or a step of a run. -/
inductive WorldOp (V ι : Type) where
  | experiment (experimentId : String) (op : ExperimentOp)
  | startRun (runId experimentId candidateId : String) (spec : SimulationSpec)
  | lifecycle (runId : String) (step : LifecycleStep ι)
  | promote (req : PromoteToMainRequest) (resolvedConfig : Option (Config V))
    (promotionId : String) (now : ℕ)
  | vcs (op : StoreOp V)

/-- The parameters of a history. -/
structure Setting (V ι : Type) where
  env : Env V
  values : Values V
  kind : ι → CallKind
  policy : PromotionPolicy
  round : ℕ → ℚ → ℚ

section Histories

variable {V ι : Type} [DecidableEq V] [DecidableEq ι] (c : Setting V ι)

omit [DecidableEq V] in
/-- A step of a run; a status CANCELLED is noted. -/
def SimulatedRun.advance (r : SimulatedRun ι) (step : LifecycleStep ι) : SimulatedRun ι :=
  let state := lifecycleStep c.kind c.policy c.round r.spec r.state step
  { r with state := state, cancelled := r.cancelled || decide (state.status = .cancelled) }

/-- What a call leaves.  A call that raises leaves the tables as they are.  A promotion is one step
    here; where its key is at stake, its units of work are taken apart. -/
def World.step (w : World V ι) : WorldOp V ι → World V ι
  | .experiment experimentId op =>
    match w.experiments.get? experimentId with
    | none => w
    | some exp =>
      let lab := Lab.step c.env c.values ⟨w.store, exp⟩ op
      { w with store := lab.store, experiments := w.experiments.set experimentId lab.experiment }
  | .startRun runId experimentId candidateId spec =>
    -- ids of runs are drawn anew
    if w.runs.contains runId then w
    else
      match w.startSimulatedRun c.policy runId experimentId candidateId spec with
      | .ok w' => w'
      | .error _ => w
  | .lifecycle runId step =>
    match w.runs.get? runId with
    | none => w
    | some r => { w with runs := w.runs.set runId (r.advance c step) }
  | .promote req resolvedConfig promotionId now =>
    match w.promoteToMain c.env req resolvedConfig promotionId now with
    | .ok (_, w') => w'
    | .error _ => w
  | .vcs op => { w with store := op.step c.env w.store }

/-! ## §4 What a merge rests on -/

/-- The commit that a promotion of the candidate merges. -/
def World.sourceOf {V ι : Type} (w : World V ι) (experimentId candidateId : String) :
    Option String :=
  match w.getCandidateAndCommit experimentId candidateId with
  | .ok (_, hash) => some hash
  | .error _ => none

/-- The commit is a merge of the one with the hash into another. -/
def Merges (commit : Commit) (hash : String) : Prop :=
  ∃ target, commit.metadata.parents = some [target, hash]

/-- A merge commit of a promotion has an approver, and a run of the candidate that was not
    cancelled, was started from the commit that is merged, and has a report that passed.  Without
    a resolved configuration there are no conflicts. -/
structure Justified (w : World V ι) (req : PromoteToMainRequest)
    (resolvedConfig : Option (Config V)) (commit : Commit) : Prop where
  approver : isBlank req.approver = false
  evidence : ∃ runId r, w.runs.get? runId = some r ∧ r.experimentId = req.experimentId ∧
    r.candidateId = req.candidateId ∧ r.cancelled = false ∧ Merges commit r.candidateCommit ∧
    r.passed = true
  conflictFree : resolvedConfig = none → ∃ source preview, Merges commit source ∧
    w.store.previewMerge c.env source req.targetRef = .ok preview ∧ preview.conflicts = []

/-- Every merge commit that the call makes is justified. -/
def JustifiedOp (w : World V ι) : WorldOp V ι → Prop
  | .promote req resolvedConfig promotionId now => ∀ commit w',
    w.promoteToMain c.env req resolvedConfig promotionId now = .ok (some commit, w') →
      Justified c w req resolvedConfig commit
  | _ => True

omit [DecidableEq V] [DecidableEq ι] in
/-- The report that a step of a run stores. -/
def storedReport (spec : SimulationSpec) (s : RunState ι) :
    LifecycleStep ι → Option SimulationReport
  | .worker move now =>
    match s.worker with
    | .reporting sim =>
      if move = .raise then none
      else some (generateReport c.policy c.round sim.trades sim.equityCurve now)
    | _ => none
  | .call i now =>
    match c.kind i, s.calls i with
    | .conclude, .reading => some (concludedReport c.policy c.round spec now)
    | _, _ => none
  | .callFails _ => none

/-- The call leaves the evidence in order.

    - An experiment is started again only from the commit that its runs with a passing report were
      started from.
    - A run with a passing report is not cancelled, and a passing report is stored only for a run
      that was never cancelled and whose commit is still that of the candidate.
    - A resolved configuration comes with an approver, the ids of a promotion are not empty, and
      no reference is named after the commit of the candidate. -/
def Supported (w : World V ι) : WorldOp V ι → Prop
  | .experiment experimentId (.start _) => ∀ exp head,
    w.experiments.get? experimentId = some exp →
      exp.status ∉ [.running, .preparing, .aggregating] →
        w.store.resolveCommitHash (branchRef exp.branchId) = .ok head →
          ∀ runId r, w.runs.get? runId = some r → r.experimentId = experimentId →
            r.passed = true → r.candidateCommit = head
  | .lifecycle runId step => ∀ r, w.runs.get? runId = some r →
    (∀ i now, step = .call i now → c.kind i = .cancel → r.state.calls i = .signalled →
      r.passed = false) ∧
    (∀ report, storedReport c r.spec r.state step = some report → report.decision = .pass →
      r.cancelled = false ∧ w.sourceOf r.experimentId r.candidateId = some r.candidateCommit)
  | .promote req resolvedConfig _ _ =>
    (resolvedConfig ≠ none → isBlank req.approver = false) ∧ req.experimentId ≠ "" ∧
      req.candidateId ≠ "" ∧
      ∀ source, w.sourceOf req.experimentId req.candidateId = some source →
        ∀ name ∈ Store.candidates source, w.store.refs.get? name = none
  | _ => True

/-- Every passing report is evidence for the commit that its candidate has now.

    A run that passed was not cancelled, and it was started from the commit of its candidate;
    commits stay under their hashes, and a cancellation is noted for good. -/
structure EvidenceInv (w : World V ι) : Prop where
  keyed : Keyed w.store
  noted : ∀ runId r, w.runs.get? runId = some r → r.state.status = .cancelled → r.cancelled = true
  evidence : ∀ runId r, w.runs.get? runId = some r → r.passed = true →
    r.cancelled = false ∧ w.sourceOf r.experimentId r.candidateId = some r.candidateCommit

/-! ## §5 What the calls write -/

variable {c} {w w' : World V ι}

omit [DecidableEq V] [DecidableEq ι] in
theorem World.sourceOf_eq_some_iff {experimentId candidateId hash : String} :
    w.sourceOf experimentId candidateId = some hash ↔
      ∃ exp cand, w.experiments.get? experimentId = some exp ∧
        exp.candidates.find? (fun cand => cand.candidateId = candidateId) = some cand ∧
        sourceCommit exp cand = some hash := by
  unfold World.sourceOf World.getCandidateAndCommit World.getCandidate
  cases hexp : w.experiments.get? experimentId with
  | none => simp [bind, Except.bind]
  | some exp =>
    -- the first candidate with the id is the one that counts
    cases hcand : exp.candidates.find? (fun cand => cand.candidateId = candidateId) with
    | none => simp [bind, Except.bind, hcand]
    | some cand =>
      cases hsource : sourceCommit exp cand with
      | none => simp [bind, Except.bind, hcand, hsource]
      | some source => simp [bind, Except.bind, hcand, hsource]

/-- A promotion that merges: what it found, and what it wrote. -/
structure Merged (env : Env V) (w : World V ι) (req : PromoteToMainRequest)
    (resolvedConfig : Option (Config V)) (commit : Commit) (w' : World V ι) : Prop where
  found : ∃ source hash preview, w.sourceOf req.experimentId req.candidateId = some source ∧
    w.store.resolveCommitHash source = .ok hash ∧ Merges commit hash ∧
    w.store.previewMerge env source req.targetRef = .ok preview ∧
    (resolvedConfig = none → isBlank req.approver = false ∧ preview.conflicts = [])
  report : (w.getLatestPassingReport req.experimentId req.candidateId).isSome = true
  experiments : w'.experiments = w.experiments
  runs : w'.runs = w.runs
  keyed : Keyed w.store → Keyed w'.store

omit [DecidableEq ι] in
theorem previewPromotion_eq_ok {env : Env V} {req : PromoteToMainRequest}
    {cand : ExperimentCandidate} {source : String} {gateC : GateEvaluationResult}
    (h : w.previewPromotion env req = .ok (cand, source, gateC)) :
    w.sourceOf req.experimentId req.candidateId = some source ∧
      (w.getLatestPassingReport req.experimentId req.candidateId).isSome = true ∧
      ∃ preview, w.store.previewMerge env source req.targetRef = .ok preview ∧
        gateC = PromotionPolicy.evaluateGateC req.approver preview.conflicts.length := by
  unfold World.previewPromotion at h
  obtain ⟨⟨cand', source'⟩, hsource, h⟩ := bind_eq_ok.mp h
  simp only at h
  split at h
  · cases h
  rename_i report hreport
  obtain ⟨preview, hmerged, h⟩ := bind_eq_ok.mp h
  obtain ⟨rfl, rfl, rfl⟩ : cand' = cand ∧ source' = source ∧
      PromotionPolicy.evaluateGateC req.approver preview.conflicts.length = gateC := by
    simpa using h
  refine ⟨?_, ?_, preview, mapError_eq_ok.mp hmerged, rfl⟩
  · simp [World.sourceOf, hsource]
  · rw [hreport]
    rfl

omit [DecidableEq ι] in
theorem promoteToMain_cases {env : Env V} {req : PromoteToMainRequest}
    {resolvedConfig : Option (Config V)} {promotionId : String} {now : ℕ} {made : Option Commit}
    (h : w.promoteToMain env req resolvedConfig promotionId now = .ok (made, w')) :
    (made = none ∧ w' = w) ∨
      ∃ commit, made = some commit ∧ Merged env w req resolvedConfig commit w' := by
  unfold World.promoteToMain at h
  -- an earlier promotion with the key is returned, and nothing is merged
  split at h
  · obtain ⟨rfl, rfl⟩ := Prod.mk.inj (Except.ok.inj h)
    exact .inl ⟨rfl, rfl⟩
  obtain ⟨⟨cand, source, gateC⟩, hpreview, h⟩ := bind_eq_ok.mp h
  obtain ⟨hsource, hreport, preview, hmerged, rfl⟩ := previewPromotion_eq_ok hpreview
  simp only at h
  split at h
  · cases h
  -- the gate may have failed if the request asks to override it
  rename_i hgate
  obtain ⟨⟨commit, store⟩, hmerge, h⟩ := bind_eq_ok.mp h
  obtain ⟨rfl, rfl⟩ := Prod.mk.inj (Except.ok.inj h)
  obtain ⟨sourceHash, targetHash, content, hresolve, -, -, hwrite⟩ :=
    merge_eq_ok (mapError_eq_ok.mp hmerge)
  obtain ⟨-, metadata, hparents, hrecorded⟩ := Store.recorded_of_mergeWrite hwrite
  have hmerges : Merges commit sourceHash := ⟨targetHash, by rw [hrecorded.metadata_eq, hparents]⟩
  refine .inr ⟨commit, rfl, ⟨source, sourceHash, preview, hsource, hresolve, hmerges, hmerged, ?_⟩,
    hreport, rfl, rfl, fun hkeyed => hkeyed.recorded hrecorded⟩
  · intro hnone
    have hpass : (PromotionPolicy.evaluateGateC req.approver preview.conflicts.length).decision =
        .pass := by
      by_contra hfail
      exact hgate ⟨hfail, hnone⟩
    obtain ⟨hblank, hlength⟩ := (PromotionPolicy.evaluateGateC_eq_pass_iff _ _).mp hpass
    exact ⟨hblank, List.length_eq_zero_iff.mp hlength⟩

omit [DecidableEq V] [DecidableEq ι] in
/-- A passing report belongs to a run of the candidate, where both ids are given. -/
theorem exists_run_of_report {experimentId candidateId : String} (hexp : experimentId ≠ "")
    (hcand : candidateId ≠ "")
    (h : (w.getLatestPassingReport experimentId candidateId).isSome = true) :
    ∃ runId r, w.runs.get? runId = some r ∧ r.experimentId = experimentId ∧
      r.candidateId = candidateId ∧ r.passed = true := by
  obtain ⟨report, hreport⟩ := Option.isSome_iff_exists.mp h
  obtain ⟨r, hr, hpass⟩ := List.exists_of_findSome?_eq_some hreport
  have hlisted := List.mem_of_mem_take hr
  rw [List.mem_filter, List.mem_reverse] at hlisted
  obtain ⟨runId, hrun⟩ := (Dict.mem_values_iff _ _).mp hlisted.1
  have hids : r.experimentId = experimentId ∧ r.candidateId = candidateId := by
    simpa [hexp, hcand] using hlisted.2
  refine ⟨runId, r, hrun, hids.1, hids.2, ?_⟩
  obtain ⟨hsome, hdecision⟩ := Option.filter_eq_some_iff.mp hpass
  rw [SimulatedRun.passed, hsome]
  exact hdecision

omit [DecidableEq V] in
theorem report_lifecycleStep (spec : SimulationSpec) (s : RunState ι) (step : LifecycleStep ι) :
    (lifecycleStep c.kind c.policy c.round spec s step).report =
      (storedReport c spec s step).or s.report := by
  cases step with
  | worker move now =>
    unfold lifecycleStep workerStep storedReport
    cases hworker : s.worker with
    | reporting sim =>
      dsimp only
      split
      · rfl
      · rfl
    | _ => first | rfl | (dsimp only; split_ifs <;> rfl)
  | call i now =>
    cases hkind : c.kind i with
    | cancel =>
      simp only [lifecycleStep, storedReport, hkind, cancelStep]
      cases s.calls i <;> rfl
    | conclude =>
      simp only [lifecycleStep, storedReport, hkind, concludeStep]
      cases s.calls i <;> rfl
  | callFails i => rfl

omit [DecidableEq V] [DecidableEq ι] in
/-- The worker does not write CANCELLED. -/
theorem cancelled_of_workerStep {spec : SimulationSpec} {s : RunState ι} {move : WorkerMove}
    {now : ℕ} (h : (workerStep c.policy c.round spec s move now).status = .cancelled) :
    s.status = .cancelled := by
  unfold workerStep at h
  -- only the start and the end write a status, and neither writes CANCELLED
  cases hworker : s.worker with
  | checked =>
    rw [hworker] at h
    dsimp only at h
    split at h
    · exact h
    · exact h
  | starting =>
    rw [hworker] at h
    dsimp only at h
    split at h
    · exact h
    · cases h
  | looping sim =>
    rw [hworker] at h
    dsimp only at h
    split at h
    · exact h
    · exact h
  | reporting sim =>
    rw [hworker] at h
    dsimp only at h
    split at h
    · exact h
    · exact h
  | finishing =>
    rw [hworker] at h
    dsimp only at h
    split at h
    · exact h
    · cases h
  | failing =>
    rw [hworker] at h
    dsimp only at h
    split at h
    · exact h
    · cases h
  | _ =>
    rw [hworker] at h
    exact h

omit [DecidableEq V] in
/-- The status CANCELLED is written by a cancellation. -/
theorem cancelled_of_lifecycleStep {spec : SimulationSpec} {s : RunState ι}
    {step : LifecycleStep ι}
    (h : (lifecycleStep c.kind c.policy c.round spec s step).status = .cancelled) :
    s.status = .cancelled ∨
      ∃ i now, step = .call i now ∧ c.kind i = .cancel ∧ s.calls i = .signalled := by
  cases step with
  | worker move now => exact .inl (cancelled_of_workerStep h)
  | call i now =>
    cases hkind : c.kind i with
    | cancel =>
      cases hphase : s.calls i with
      | signalled => exact .inr ⟨i, now, rfl, hkind, hphase⟩
      | _ =>
        simp only [lifecycleStep, hkind, cancelStep, hphase] at h
        exact .inl h
    | conclude =>
      left
      simp only [lifecycleStep, hkind, concludeStep] at h
      cases hphase : s.calls i with
      | reported =>
        rw [hphase] at h
        cases h
      | _ =>
        rw [hphase] at h
        exact h
  | callFails i => exact .inl h

omit [DecidableEq V] in
theorem sourceCommit_of_bound {exp : Experiment} {cand : ExperimentCandidate} {head : String}
    (h : cand.candidateCommitHash = some head) (hne : head ≠ "") :
    sourceCommit exp cand = some head := by
  simp [sourceCommit, h, hne, Option.filter]

/-- The commit of a candidate changes only when its experiment is started from another one. -/
theorem sourceOf_experiment {experimentId candidateId hash id : String} {op : ExperimentOp}
    {exp : Experiment} (hexp : w.experiments.get? id = some exp)
    (hsource : w.sourceOf experimentId candidateId = some hash)
    (hhead : ∀ now head, op = .start now → experimentId = id →
      exp.status ∉ [.running, .preparing, .aggregating] →
      w.store.resolveCommitHash (branchRef exp.branchId) = .ok head → hash = head) :
    (w.step c (.experiment id op)).sourceOf experimentId candidateId = some hash := by
  obtain ⟨exp₀, cand, hexp₀, hcand, hhash⟩ := World.sourceOf_eq_some_iff.mp hsource
  apply World.sourceOf_eq_some_iff.mpr
  simp only [World.step, hexp]
  by_cases hid : experimentId = id
  · subst hid
    obtain rfl : exp = exp₀ := Option.some.inj (hexp.symm.trans hexp₀)
    obtain ⟨hbase, hcands⟩ := Lab.step_cases c.env c.values ⟨w.store, exp⟩ op
    generalize (Lab.step c.env c.values ⟨w.store, exp⟩ op).experiment = exp' at hbase hcands
    rw [Dict.get?_set_self]
    rcases hcands with hsame | ⟨now, head, hop, hrebound⟩
    · refine ⟨exp', cand, rfl, by rw [hsame]; exact hcand, ?_⟩
      rw [← hhash]
      simp [sourceCommit, hbase]
    · obtain rfl := hhead now head hop rfl hrebound.idle hrebound.resolved
      -- the candidate is still there, under its id
      have hmem : candidateId ∈ exp'.candidates.map (·.candidateId) := by
        rw [hrebound.candidateIds]
        exact List.mem_map.mpr ⟨cand, List.mem_of_find?_eq_some hcand, by
          simpa using List.find?_some hcand⟩
      obtain ⟨cand₁, hmem₁, hid₁⟩ := List.mem_map.mp hmem
      have hfound : (exp'.candidates.find? fun cand => cand.candidateId = candidateId).isSome := by
        rw [List.find?_isSome]
        exact ⟨cand₁, hmem₁, by simpa using hid₁⟩
      obtain ⟨cand₂, hcand₂⟩ := Option.isSome_iff_exists.mp hfound
      have hbound := hrebound.bound cand₂ (List.mem_of_find?_eq_some hcand₂)
      exact ⟨exp', cand₂, rfl, hcand₂, sourceCommit_of_bound hbound (sourceCommit_ne_empty hhash)⟩
  · rw [Dict.get?_set_of_ne _ _ hid]
    exact ⟨exp₀, cand, hexp₀, hcand, hhash⟩

/-! ## §6 Every merge rests on evidence -/

omit [DecidableEq V] [DecidableEq ι] in
theorem EvidenceInv.initial {store : Store V} (hstore : Keyed store)
    (experiments : Dict String Experiment) :
    EvidenceInv (World.initial store experiments : World V ι) := by
  refine ⟨hstore, ?_, ?_⟩
  · intro runId r hr
    cases hr
  · intro runId r hr
    cases hr

omit [DecidableEq V] [DecidableEq ι] in
/-- Of the tables the invariant reads the runs and the commits of the candidates. -/
theorem EvidenceInv.congr (h : EvidenceInv w) (hkeyed : Keyed w'.store)
    (hruns : w'.runs = w.runs) (hexperiments : w'.experiments = w.experiments) :
    EvidenceInv w' := by
  have hsource : w'.sourceOf = w.sourceOf := by
    funext experimentId candidateId
    simp [World.sourceOf, World.getCandidateAndCommit, World.getCandidate, hexperiments]
  refine ⟨hkeyed, ?_, ?_⟩
  · rw [hruns]
    exact h.noted
  · rw [hruns, hsource]
    exact h.evidence

theorem EvidenceInv.experiment (h : EvidenceInv w) {experimentId : String} {op : ExperimentOp}
    (hsup : Supported c w (.experiment experimentId op)) :
    EvidenceInv (w.step c (.experiment experimentId op)) := by
  cases hexp : w.experiments.get? experimentId with
  | none =>
    simp only [World.step, hexp]
    exact h
  | some exp =>
    have hruns : (w.step c (.experiment experimentId op)).runs = w.runs := by
      simp only [World.step, hexp]
    have hstore : (w.step c (.experiment experimentId op)).store = w.store := by
      simp only [World.step, hexp]
      exact Lab.step_store _ op
    refine ⟨?_, ?_, ?_⟩
    · rw [hstore]
      exact h.keyed
    · rw [hruns]
      exact h.noted
    · intro runId r hr hpassed
      rw [hruns] at hr
      obtain ⟨hcancelled, hsource⟩ := h.evidence runId r hr hpassed
      refine ⟨hcancelled, sourceOf_experiment hexp hsource ?_⟩
      intro now head hop hid hidle hhead
      subst hop
      exact hsup exp head hexp hidle hhead runId r hr hid hpassed

omit [DecidableEq V] [DecidableEq ι] in
/-- A new run has no report. -/
theorem EvidenceInv.startRun (h : EvidenceInv w) {runId experimentId candidateId : String}
    {spec : SimulationSpec}
    (hstart : w.startSimulatedRun c.policy runId experimentId candidateId spec = .ok w') :
    EvidenceInv w' := by
  unfold World.startSimulatedRun at hstart
  obtain ⟨⟨exp, cand⟩, -, hstart⟩ := bind_eq_ok.mp hstart
  simp only at hstart
  split at hstart
  · cases hstart
  obtain rfl := Except.ok.inj hstart
  refine ⟨h.keyed, ?_, ?_⟩
  · intro runId' r hr hstatus
    simp only [Dict.get?_set] at hr
    split at hr
    · obtain rfl := Option.some.inj hr
      cases hstatus
    · exact h.noted runId' r hr hstatus
  · intro runId' r hr hpassed
    simp only [Dict.get?_set] at hr
    split at hr
    · obtain rfl := Option.some.inj hr
      cases hpassed
    · exact h.evidence runId' r hr hpassed

omit [DecidableEq V] in
/-- A step of a run that has evidence, or gets it. -/
theorem passed_advance {r : SimulatedRun ι} {step : LifecycleStep ι}
    (hpassed : (r.advance c step).passed = true) :
    (∃ report, storedReport c r.spec r.state step = some report ∧ report.decision = .pass) ∨
      (storedReport c r.spec r.state step = none ∧ r.passed = true) := by
  have hreport : (r.advance c step).state.report =
      (storedReport c r.spec r.state step).or r.state.report := report_lifecycleStep _ _ _
  unfold SimulatedRun.passed at hpassed
  rw [hreport] at hpassed
  cases hstored : storedReport c r.spec r.state step with
  | none =>
    rw [hstored] at hpassed
    exact .inr ⟨rfl, hpassed⟩
  | some report =>
    rw [hstored] at hpassed
    exact .inl ⟨report, rfl, of_decide_eq_true hpassed⟩

omit [DecidableEq V] in
/-- Without a cancellation the note stays as it is. -/
theorem not_cancelled_advance {r : SimulatedRun ι} {step : LifecycleStep ι}
    (hr : r.cancelled = false) (hnoted : r.state.status = .cancelled → r.cancelled = true)
    (hstep : ∀ i now, step = .call i now → c.kind i = .cancel → r.state.calls i ≠ .signalled) :
    (r.advance c step).cancelled = false := by
  have hstatus : (lifecycleStep c.kind c.policy c.round r.spec r.state step).status ≠
      .cancelled := by
    intro hcancelled
    rcases cancelled_of_lifecycleStep hcancelled with hold | ⟨i, now, hi, hkind, hphase⟩
    · rw [hnoted hold] at hr
      cases hr
    · exact hstep i now hi hkind hphase
  simp [SimulatedRun.advance, hr, hstatus]

theorem EvidenceInv.lifecycle (h : EvidenceInv w) {runId : String} {step : LifecycleStep ι}
    (hsup : Supported c w (.lifecycle runId step)) :
    EvidenceInv (w.step c (.lifecycle runId step)) := by
  cases hr : w.runs.get? runId with
  | none =>
    simp only [World.step, hr]
    exact h
  | some r =>
    obtain ⟨hcancel, hstored⟩ := hsup r hr
    have hsource : (w.step c (.lifecycle runId step)).sourceOf = w.sourceOf := by
      simp only [World.step, hr]
      rfl
    have hruns : ∀ runId', (w.step c (.lifecycle runId step)).runs.get? runId' =
        if runId' = runId then some (r.advance c step) else w.runs.get? runId' := by
      intro runId'
      simp only [World.step, hr]
      exact Dict.get?_set _ _ _ _
    have hstore : (w.step c (.lifecycle runId step)).store = w.store := by
      simp only [World.step, hr]
    -- the store and the experiments are those before; of the runs only this one moves
    refine ⟨?_, ?_, ?_⟩
    · rw [hstore]
      exact h.keyed
    · intro runId' r' hr' hstatus
      rw [hruns] at hr'
      split at hr'
      · obtain rfl := Option.some.inj hr'
        simp only [SimulatedRun.advance, Bool.or_eq_true, decide_eq_true_eq]
        exact .inr hstatus
      · exact h.noted runId' r' hr' hstatus
    · intro runId' r' hr' hpassed
      rw [hsource]
      rw [hruns] at hr'
      split at hr'
      · obtain rfl := Option.some.inj hr'
        rcases passed_advance hpassed with ⟨report, hreport, hpass⟩ | ⟨-, hold⟩
        · -- the evidence is new
          obtain ⟨hnot, hcommit⟩ := hstored report hreport hpass
          refine ⟨not_cancelled_advance hnot (h.noted runId r hr) ?_, hcommit⟩
          intro i now hi hkind
          subst hi
          simp [storedReport, hkind] at hreport
        · -- the evidence was there, and the run is not cancelled now
          obtain ⟨hnot, hcommit⟩ := h.evidence runId r hr hold
          refine ⟨not_cancelled_advance hnot (h.noted runId r hr) ?_, hcommit⟩
          intro i now hi hkind hphase
          rw [hcancel i now hi hkind hphase] at hold
          cases hold
      · exact h.evidence runId' r' hr' hpassed

theorem EvidenceInv.step (h : EvidenceInv w) {op : WorldOp V ι} (hsup : Supported c w op) :
    EvidenceInv (w.step c op) := by
  cases op with
  | experiment experimentId op => exact h.experiment hsup
  | startRun runId experimentId candidateId spec =>
    simp only [World.step]
    split
    · -- the id is taken
      exact h
    · split
      · rename_i hstart
        exact h.startRun hstart
      · exact h
  | lifecycle runId step => exact h.lifecycle hsup
  | promote req resolvedConfig promotionId now =>
    simp only [World.step]
    split
    · rename_i made w' hpromote
      rcases promoteToMain_cases hpromote with ⟨-, rfl⟩ | ⟨commit, -, hmerged⟩
      · exact h
      · exact h.congr (hmerged.keyed h.keyed) hmerged.runs hmerged.experiments
    · exact h
  | vcs op => exact h.congr h.keyed.step rfl rfl

omit [DecidableEq ι] in
/-- Where the evidence is in order, a promotion that merges is justified. -/
theorem EvidenceInv.justified (h : EvidenceInv w) {req : PromoteToMainRequest}
    {resolvedConfig : Option (Config V)} {promotionId : String} {now : ℕ} {commit : Commit}
    (hsup : Supported c w (.promote req resolvedConfig promotionId now))
    (hpromote : w.promoteToMain c.env req resolvedConfig promotionId now = .ok (some commit, w')) :
    Justified c w req resolvedConfig commit := by
  obtain ⟨happrover, hexp, hcand, hnames⟩ := hsup
  rcases promoteToMain_cases hpromote with ⟨hnone, -⟩ | ⟨commit', hcommit, hmerged⟩
  · -- a key that was promoted before makes no commit
    cases hnone
  obtain rfl := Option.some.inj hcommit
  obtain ⟨source, hash, preview, hsource, hresolve, hmerges, hpreview, hplain⟩ := hmerged.found
  -- the name under which the commit is merged is its own hash
  obtain rfl := h.keyed.resolve_eq (hnames source hsource) hresolve
  -- the run that was found, and what the invariant says of it
  obtain ⟨runId, r, hr, hrexp, hrcand, hpassed⟩ := exists_run_of_report hexp hcand hmerged.report
  obtain ⟨hnot, hrsource⟩ := h.evidence runId r hr hpassed
  rw [hrexp, hrcand, hsource] at hrsource
  obtain rfl := Option.some.inj hrsource
  refine ⟨?_, ⟨runId, r, hr, hrexp, hrcand, hnot, hmerges, hpassed⟩, ?_⟩
  · by_cases hresolved : resolvedConfig = none
    · exact (hplain hresolved).1
    · exact happrover hresolved
  · intro hresolved
    exact ⟨r.candidateCommit, preview, hmerges, hpreview, (hplain hresolved).2⟩

/-- **Only simulated and approved configurations reach the target branch.**  In every history of
    experiments, simulated runs, promotions and other commits that leaves the evidence in order,
    each merge commit of a promotion has an approver, a run that supports the very commit that is
    merged, and no conflicts unless a resolved configuration was given. -/
theorem supported_justified (c : Setting V ι) {store : Store V} (hstore : Keyed store)
    (experiments : Dict String Experiment) (ops : List (WorldOp V ι))
    (h : Along (World.step c) (Supported c) (World.initial store experiments) ops) :
    Along (World.step c) (JustifiedOp c) (World.initial store experiments) ops := by
  refine along_of_invariant EvidenceInv (fun w op hinv hsup => ⟨hinv.step hsup, ?_⟩)
    (EvidenceInv.initial hstore experiments) h
  cases op with
  | promote req resolvedConfig promotionId now =>
    intro commit w' hpromote
    exact hinv.justified hsup hpromote
  | _ => trivial

end Histories

/-! ## §7 Two promotions -/

def sampleSetting : Setting Scalar CallKind := ⟨openEnv, scalarValues, id, .default, fun _ q => q⟩

def promotionStore : Store Scalar :=
  run (StoreOp.step openEnv) Store.empty
    [.commit (weightConfig 1) "user" "first version" "HEAD" ⟨none, []⟩ 0,
      .branch (branchRef "x") "HEAD"]

theorem keyed_promotionStore : Keyed promotionStore := keyed_run _

def promotionExperiments : Dict String Experiment :=
  Dict.ofList [("exp_1", { sampleExperiment with baseCommitHash := "#first version" })]

/-- A step of a worker whose run is in order. -/
def quietWorker (w : World Scalar CallKind) : WorldOp Scalar CallKind → Bool
  | .lifecycle runId (.worker _ _) => (w.runs.get? runId).all fun r =>
    !r.cancelled &&
      decide (w.sourceOf r.experimentId r.candidateId = some r.candidateCommit)
  | _ => false

theorem supported_of_quietWorker {w : World Scalar CallKind} {op : WorldOp Scalar CallKind}
    (h : quietWorker w op = true) : Supported sampleSetting w op := by
  cases op with
  | lifecycle runId step =>
    cases step with
    | worker move now =>
      intro r hr
      have hquiet : r.cancelled = false ∧
          w.sourceOf r.experimentId r.candidateId = some r.candidateCommit := by
        simpa [quietWorker, hr] using h
      exact ⟨nofun, fun _ _ _ => hquiet⟩
    | call i now => cases h
    | callFails i => cases h
  | experiment experimentId op => cases h
  | startRun runId experimentId candidateId spec => cases h
  | promote req resolvedConfig promotionId now => cases h
  | vcs op => cases h

/-- A candidate is simulated. -/
def startOps : List (WorldOp Scalar CallKind) :=
  [.experiment "exp_1" (.start 0), .startRun "run_1" "exp_1" "cand_current" shortSpec]

/-- Its worker runs to the end. -/
def workerOps : List (WorldOp Scalar CallKind) :=
  List.replicate 13 (.lifecycle "run_1" (.worker .proceed 0))

def promoteRequest (approver : String) : PromoteToMainRequest :=
  ⟨"key", "exp_1", "cand_current", approver, none, "refs/heads/main"⟩

/-- The commit that a promotion makes after the simulation. -/
def promoted (approver : String) (resolvedConfig : Option (Config Scalar)) : Option Commit :=
  ((run (World.step sampleSetting) (World.initial promotionStore promotionExperiments)
    (startOps ++ workerOps)).promoteToMain sampleSetting.env (promoteRequest approver)
      resolvedConfig "promo_1" 1).toOption.bind Prod.fst

theorem simulated_then_promoted :
    (promoted "ada" none).isSome = true ∧
      Along (World.step sampleSetting) (JustifiedOp sampleSetting)
        (World.initial promotionStore promotionExperiments)
        (startOps ++ (workerOps ++ [.promote (promoteRequest "ada") none "promo_1" 1])) := by
  refine ⟨by decide +kernel, ?_⟩
  apply supported_justified sampleSetting keyed_promotionStore
  have hworker : Along (World.step sampleSetting) (fun w op => quietWorker w op = true)
      (run (World.step sampleSetting) (World.initial promotionStore promotionExperiments)
        startOps) workerOps := by
    decide +kernel
  refine along_append.mpr ⟨⟨?_, trivial, trivial⟩, along_append.mpr ⟨?_, ⟨?_, ?_, ?_⟩, trivial⟩⟩
  · intro exp head _ _ _ runId r hr
    cases hr
  · exact along_of_invariant (fun _ => True)
      (fun _ _ _ hquiet => ⟨trivial, supported_of_quietWorker hquiet⟩) trivial hworker
  · intro hne
    exact absurd rfl hne
  · decide
  · refine ⟨by decide, ?_⟩
    decide +kernel

/-- **A resolved configuration overrules the approver.**  An approver without a name, which gate C
    refuses, is accepted along with a configuration. -/
theorem blank_approver_merges :
    ¬ ∀ (V ι : Type) [DecidableEq V] [DecidableEq ι] (c : Setting V ι) (store : Store V)
      (experiments : Dict String Experiment) (ops : List (WorldOp V ι)), Keyed store →
      Along (World.step c) (JustifiedOp c) (World.initial store experiments) ops := by
  intro h
  have hops := h Scalar CallKind sampleSetting promotionStore promotionExperiments
    ((startOps ++ workerOps) ++
      [.promote (promoteRequest " ") (some (weightConfig 2)) "promo_1" 1]) keyed_promotionStore
  have hjustified := (along_append.mp hops).2.1
  generalize hw : run (World.step sampleSetting)
    (World.initial promotionStore promotionExperiments) (startOps ++ workerOps) = w at hjustified
  have hmade : (promoted " " (some (weightConfig 2))).isSome = true := by decide +kernel
  unfold promoted at hmade
  rw [hw] at hmade
  obtain ⟨commit, hcommit⟩ := Option.isSome_iff_exists.mp hmade
  obtain ⟨⟨made, w'⟩, hresult, hmerge⟩ := Option.bind_eq_some_iff.mp hcommit
  obtain rfl : made = some commit := hmerge
  have hblank := (hjustified commit w' (eq_ok_of_toOption hresult)).approver
  revert hblank
  decide

end CryptoTrading.Experiments

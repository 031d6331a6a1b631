import CryptoTrading.Proposals.EvidenceEvaluator

/-!
# The verdict on a proposal

Embeds `_determine_verdict`, `_evaluate_oos_sample_verdict` and the part of
`build_and_validate_proposal` that leads to the verdict, in
`src/proposals/proposal_validator.py`.
-/

namespace CryptoTrading.Proposals

open CryptoTrading.Lib

/-! ## §1 The verdict -/

/-- `EvidenceStatus`, as far as a verdict gives it. -/
inductive EvidenceStatus where
  | sufficient | weak | insufficient | incomparable
  deriving DecidableEq

/-- `ProposalRecommendation`. -/
inductive ProposalRecommendation where
  | acceptForTesting | promoteToApproval | reject | insufficientEvidence
  deriving DecidableEq

variable (py : Python)

/-- `_evaluate_oos_sample_verdict`. -/
def evaluateOosSampleVerdict (sampleSize : SampleSizeSummary) (uncertainty : UncertaintyAssessment)
    (btDelta oosDelta : Option ℚ) : EvidenceStatus × ProposalRecommendation :=
  if sampleSize.independentOosWindows < minIndependentOosFolds then
    if !isNarrowDuration sampleSize.evaluationDurationDays &&
        btDelta.any (fun delta => 0 < delta) && 15 ≤ sampleSize.candidateTrades then
      (.weak, .acceptForTesting)
    else (.insufficient, .insufficientEvidence)
  else if !sampleSize.isSampleSufficient || !uncertainty.canDistinguishFromNoise then
    if 0 < oosDelta.getD 0 && 0 < btDelta.getD 0 then (.weak, .acceptForTesting)
    else (.insufficient, .insufficientEvidence)
  else (.sufficient, .promoteToApproval)

/-- The status that goes with a rejection. -/
def rejectedStatus (sampleSize : SampleSizeSummary) : EvidenceStatus :=
  if sampleSize.isSampleSufficient then .sufficient else .weak

/-- `_determine_verdict`. -/
def determineVerdict (evidence : CollectedEvidence) (comparability : ComparabilityReport)
    (benefit : ExpectedBenefitSummary) (sampleSize : SampleSizeSummary)
    (uncertainty : UncertaintyAssessment) (riskChanges : RiskDeltaSummary) :
    EvidenceStatus × ProposalRecommendation :=
  if comparability.verificationStatus = .mismatch then (.incomparable, .insufficientEvidence)
  else if detectIncompleteOrFailedRuns py evidence ≠ [] then (.insufficient, .insufficientEvidence)
  else if riskChanges.riskLimitBreaches ≠ [] then (rejectedStatus sampleSize, .reject)
  else if !comparability.isComparable || comparability.verificationStatus = .unknown then
    (.insufficient, .insufficientEvidence)
  else if !present evidence.baselineBtMetrics || !present evidence.candidateBtMetrics then
    (.insufficient, .insufficientEvidence)
  else if benefit.btDelta.any (fun delta => delta ≤ 0) &&
      benefit.oosDelta.all (fun delta => delta ≤ 0) then (rejectedStatus sampleSize, .reject)
  else if benefit.oosDelta.any (fun delta => delta < 0) then (.weak, .reject)
  else if riskChanges.riskIncreased ||
      (uncertainty.selectionBiasWarning && !uncertainty.holdoutValidated) then
    (.weak, .acceptForTesting)
  else evaluateOosSampleVerdict sampleSize uncertainty benefit.btDelta benefit.oosDelta

/-- `EvidenceBasedProposal`, as far as it is evaluated. -/
structure EvidenceBasedProposal where
  comparability : ComparabilityReport
  expectedBenefit : ExpectedBenefitSummary
  sampleSize : SampleSizeSummary
  uncertainty : UncertaintyAssessment
  riskChanges : RiskDeltaSummary
  evidenceStatus : EvidenceStatus
  recommendation : ProposalRecommendation

variable {py}

/-- The summaries of a proposal are those of its evidence. -/
structure Evaluated (py : Python) (evidence : CollectedEvidence)
    (proposal : EvidenceBasedProposal) : Prop where
  comparability : evaluateComparability py evidence = some proposal.comparability
  benefit : evaluateExpectedBenefit py evidence = some proposal.expectedBenefit
  sampleSize : evaluateSampleSize py evidence = some proposal.sampleSize
  uncertainty : evaluateUncertainty py evidence proposal.expectedBenefit proposal.sampleSize =
    some proposal.uncertainty
  riskChanges : evaluateRiskChanges py evidence = some proposal.riskChanges
  recommendation : proposal.recommendation =
    (determineVerdict py evidence proposal.comparability proposal.expectedBenefit
      proposal.sampleSize proposal.uncertainty proposal.riskChanges).2

end CryptoTrading.Proposals

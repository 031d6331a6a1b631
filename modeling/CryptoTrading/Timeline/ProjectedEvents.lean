import Mathlib.Data.List.Dedup
import CryptoTrading.Timeline.MessageEventBus

/-!
# The events of the timeline

Embeds the classes of `TimelineProjector.EVENT_CLASSES`, from `src/events/runtime_events.py`,
`src/events/agent_events.py`, `src/events/decision_models.py`,
`src/trading/events/domain_events.py`, `src/agent/oracle/events.py` and
`src/vcs/application/events.py`, and the `_project_*` methods of
`src/server/timeline_projector.py`.

A projection reads attributes of its event and raises at the first one the class does not have.
What it makes of their values (texts, entities and metadata) is left out.
-/

namespace CryptoTrading.Timeline

/-! ## §1 Classes and their names -/

/-- The classes of `EVENT_CLASSES`. -/
inductive EventClass where
  | consensusEvaluated
  | tradingDecisionCreated
  | tradingActivityAnomalyDetected
  | agentDecisionRecorded
  | agentActionCreated
  | agentActionCompleted
  | agentActionFailed
  | agentApprovalRequested
  | agentApprovalResolved
  | oracleSummary
  | refChanged
  | runtimeErrorCaptured
  | runtimeIncidentCreated
  | reconciliationDiscrepancy
  deriving DecidableEq

namespace EventClass

/-- `EVENT_CLASSES`. -/
def eventClasses : List EventClass :=
  [consensusEvaluated, tradingDecisionCreated, tradingActivityAnomalyDetected,
    agentDecisionRecorded, agentActionCreated, agentActionCompleted, agentActionFailed,
    agentApprovalRequested, agentApprovalResolved, oracleSummary, refChanged,
    runtimeErrorCaptured, runtimeIncidentCreated, reconciliationDiscrepancy]

theorem mem_eventClasses (c : EventClass) : c ∈ eventClasses := by
  cases c <;> decide

/-- `__name__`. -/
def name : EventClass → String
  | consensusEvaluated => "ConsensusEvaluatedEvent"
  | tradingDecisionCreated => "TradingDecisionCreatedEvent"
  | tradingActivityAnomalyDetected => "TradingActivityAnomalyDetectedEvent"
  | agentDecisionRecorded => "AgentDecisionRecordedEvent"
  | agentActionCreated => "AgentActionCreatedEvent"
  | agentActionCompleted => "AgentActionCompletedEvent"
  | agentActionFailed => "AgentActionFailedEvent"
  | agentApprovalRequested => "AgentApprovalRequestedEvent"
  | agentApprovalResolved => "AgentApprovalResolvedEvent"
  | oracleSummary => "OracleSummaryEvent"
  | refChanged => "RefChangedEvent"
  | runtimeErrorCaptured => "RuntimeErrorCapturedEvent"
  | runtimeIncidentCreated => "RuntimeIncidentCreatedEvent"
  | reconciliationDiscrepancy => "ReconciliationDiscrepancyEvent"

/-- `EVENT_TYPE`. -/
def eventType : EventClass → Option String
  | consensusEvaluated => none
  | tradingDecisionCreated => some "TradingDecisionCreatedEvent"
  | tradingActivityAnomalyDetected => some "trading_activity_anomaly_detected"
  | agentDecisionRecorded => some "AgentDecisionRecordedEvent"
  | agentActionCreated => some "agent_action_created"
  | agentActionCompleted => some "agent_action_completed"
  | agentActionFailed => some "agent_action_failed"
  | agentApprovalRequested => some "agent_approval_requested"
  | agentApprovalResolved => some "agent_approval_resolved"
  | oracleSummary => none
  | refChanged => none
  | runtimeErrorCaptured => none
  | runtimeIncidentCreated => none
  | reconciliationDiscrepancy => some "ReconciliationDiscrepancyEvent"

/-- The property `type`: `EVENT_TYPE or type(self).__name__`. -/
def type (c : EventClass) : String := c.eventType.getD c.name

/-- `TimelineProjector._event_names_for`. -/
def eventNamesFor (c : EventClass) : List String := (c.name :: c.eventType.toList).dedup

/-- `TimelineProjector._derive_event_types`. -/
def deriveEventTypes : List String := eventClasses.flatMap eventNamesFor

theorem name_mem_deriveEventTypes (c : EventClass) : c.name ∈ deriveEventTypes :=
  List.mem_flatMap.mpr
    ⟨c, c.mem_eventClasses, List.mem_dedup.mpr (List.mem_cons_self (l := c.eventType.toList))⟩

/-- The names that `publish` looks for: `type`, `EVENT_TYPE` and the name of the class. -/
def publishedTypes (c : EventClass) : List String := c.type :: c.name :: c.eventType.toList

end EventClass

/-- An event that is published, with the set of its names in the order `publish` goes through. -/
structure PublishedEvent where
  eventClass : EventClass
  eventTypes : List String
  mem_eventTypes : ∀ n, n ∈ eventTypes ↔ n ∈ eventClass.publishedTypes

/-! ## §2 Attributes -/

/-- The properties of `TradingEvent`. -/
def tradingEventAttributes : List String :=
  ["id", "event_id", "type", "payload", "metadata", "timestamp", "correlation_id",
    "causation_id", "source", "actor_type", "actor_id", "commit_hash", "asset", "exchange"]

/-- The properties of `AgentEvent`. -/
def agentEventAttributes : List String :=
  tradingEventAttributes ++ ["agent_metadata", "request_id", "sequence_number"]

namespace EventClass

/-- The fields and properties of an event. -/
def attributes : EventClass → List String
  | consensusEvaluated => tradingEventAttributes ++
    ["symbol", "decision", "buy_votes", "sell_votes", "total_strategies", "quorum_met",
      "evaluated_at", "factors"]
  | tradingDecisionCreated => tradingEventAttributes ++ ["decision", "symbol", "action", "status"]
  | tradingActivityAnomalyDetected => agentEventAttributes ++
    ["asset", "anomaly_kind", "activity_state", "threshold", "detected_at"]
  | agentDecisionRecorded => tradingEventAttributes ++ ["decision"]
  | agentActionCreated => agentEventAttributes ++ ["action_id", "action_payload"]
  | agentActionCompleted => agentEventAttributes ++ ["action_id", "result_payload"]
  | agentActionFailed => agentEventAttributes ++ ["action_id", "error"]
  | agentApprovalRequested => agentEventAttributes ++ ["approval_id", "approval_payload"]
  | agentApprovalResolved => agentEventAttributes ++
    ["approval_id", "decision", "approval_payload", "error_code", "error_message"]
  | oracleSummary =>
    ["id", "type", "payload", "metadata", "timestamp", "summary", "market_state",
      "trading_state", "risk_state", "symbol", "session_id", "correlation_id", "observations",
      "recommendations", "model", "model_version"]
  | refChanged => ["ref", "commit_hash", "id", "type", "payload", "metadata", "timestamp"]
  | runtimeErrorCaptured => tradingEventAttributes ++ ["event_payload"]
  | runtimeIncidentCreated => tradingEventAttributes ++ ["incident_payload"]
  | reconciliationDiscrepancy => tradingEventAttributes ++
    ["discrepancy_type", "severity", "exchange", "asset_or_currency", "local_value",
      "exchange_value", "difference", "action_taken", "details", "symbol"]

/-- What the projection of the class reads, in order. -/
def reads : EventClass → List String
  | consensusEvaluated => ["symbol", "decision", "quorum_met", "buy_votes", "sell_votes",
    "timestamp", "correlation_id", "causation_id", "actor_type"]
  | tradingDecisionCreated => ["decision", "symbol", "action", "status"]
  | tradingActivityAnomalyDetected => ["asset", "anomaly_kind", "threshold", "timestamp",
    "correlation_id", "causation_id"]
  | agentDecisionRecorded => ["decision", "timestamp", "correlation_id", "causation_id"]
  | agentActionCreated => ["action_id", "action_payload", "timestamp", "correlation_id",
    "causation_id"]
  | agentActionCompleted => ["action_id", "result_payload", "timestamp", "correlation_id",
    "causation_id"]
  | agentActionFailed => ["action_id", "error", "timestamp", "correlation_id", "causation_id"]
  | agentApprovalRequested => ["approval_id", "approval_payload", "timestamp", "correlation_id",
    "causation_id"]
  | agentApprovalResolved => ["approval_id", "decision", "approval_payload", "timestamp",
    "correlation_id", "causation_id"]
  | oracleSummary => ["summary", "symbol", "payload", "timestamp", "correlation_id"]
  | refChanged => ["ref", "commit_hash", "timestamp"]
  | runtimeErrorCaptured => ["error_type", "message", "timestamp", "correlation_id",
    "causation_id", "actor_type"]
  | runtimeIncidentCreated => ["incident_id", "summary", "severity", "timestamp",
    "correlation_id", "causation_id", "actor_type"]
  | reconciliationDiscrepancy => ["asset_or_currency", "exchange", "difference",
    "discrepancy_type", "local_value", "exchange_value", "action_taken", "timestamp",
    "severity", "correlation_id", "causation_id", "details"]

end EventClass

/-! ## §3 Projection -/

inductive TimelineCategory where
  | trading
  | decision
  | agent
  | approval
  | vcs
  | backtest
  | runtime
  | system
  deriving DecidableEq

structure TimelineItem where
  timelineId : String
  category : TimelineCategory
  deriving DecidableEq

/-- `'{objectClass}' object has no attribute '{name}'`. -/
structure AttributeError where
  objectClass : String
  name : String
  deriving DecidableEq

namespace EventClass

/-- The category of the items of the class. -/
def category : EventClass → TimelineCategory
  | consensusEvaluated | tradingDecisionCreated | agentDecisionRecorded => .decision
  | tradingActivityAnomalyDetected | agentActionCreated | agentActionCompleted
  | agentActionFailed | oracleSummary => .agent
  | agentApprovalRequested | agentApprovalResolved => .approval
  | refChanged => .vcs
  | runtimeErrorCaptured | runtimeIncidentCreated | reconciliationDiscrepancy => .runtime

/-- The first attribute that the projection misses. -/
def missing (c : EventClass) : Option String :=
  c.reads.find? fun read => !c.attributes.contains read

/-- `TimelineProjector._project_event`, with the id that a new item draws. -/
def projectEvent (c : EventClass) (timelineId : String) : Except AttributeError TimelineItem :=
  match c.missing with
  | some read => .error ⟨c.name, read⟩
  | none => .ok ⟨timelineId, c.category⟩

/-- The classes whose events are not shaped as their projection reads them. -/
def Misread (c : EventClass) : Prop := c = runtimeErrorCaptured ∨ c = runtimeIncidentCreated

instance (c : EventClass) : Decidable c.Misread := inferInstanceAs (Decidable (_ ∨ _))

theorem missing_eq_none_iff (c : EventClass) : c.missing = none ↔ ¬ c.Misread := by
  cases c <;> decide +kernel

/-- **A projection makes one item, unless its class is one of the two it misreads.** -/
theorem length_projectEvent (c : EventClass) (timelineId : String) :
    (c.projectEvent timelineId).toOption.toList.length = 1 ↔ ¬ c.Misread := by
  rw [← missing_eq_none_iff, projectEvent]
  cases c.missing with
  | some read => exact iff_of_false Nat.zero_ne_one (by simp)
  | none => exact iff_of_true rfl rfl

example : projectEvent runtimeErrorCaptured "1" =
    .error ⟨"RuntimeErrorCapturedEvent", "error_type"⟩ := by
  decide +kernel

end EventClass

end CryptoTrading.Timeline

import CryptoTrading.Agent.Approvals
import Mathlib.Tactic.Positivity

/-!
# Agent automation

Embeds `src/agent/automation/automation_controller.py` and `automation_worker.py`, with
`src/agent/actions/safety.py`, the choice of `executor.plan_and_execute`, and what
`investigate_activity_anomaly.py` concludes from an anomaly.

The controller subscribes to each kind of request twice, under the name of the kind and under that
of the class, so that the bus hands every request to its worker twice.  One thread takes the
requests off a bounded queue; a set of keys keeps it from handling a request again.  It is the only
caller of the executor and of `decide_approval`.

Left out: the statuses and texts of actions, the messages of chats, and what is written to the
timeline and the log.
-/

namespace CryptoTrading.Agent

open CryptoTrading.Lib

/-! ## §1 Actions and their safety -/

inductive AgentActionType where
  | sendMessage
  | requestApproval
  | runAnalysis
  | runBacktest
  | createProposal
  | applyConfiguration
  | createCommit
  deriving DecidableEq

inductive ActionSafetyClass where
  | informational
  | diagnostic
  | proposal
  | stateChanging
  | tradingControl
  deriving DecidableEq

/-- `AgentActionType(text)`; another text raises. -/
def AgentActionType.ofText : String → Option AgentActionType
  | "SEND_MESSAGE" => some .sendMessage
  | "REQUEST_APPROVAL" => some .requestApproval
  | "RUN_ANALYSIS" => some .runAnalysis
  | "RUN_BACKTEST" => some .runBacktest
  | "CREATE_PROPOSAL" => some .createProposal
  | "APPLY_CONFIGURATION" => some .applyConfiguration
  | "CREATE_COMMIT" => some .createCommit
  | _ => none

/-- `safety_class_for_action_type`, by `DEFAULT_ACTION_SAFETY_MAPPING`. -/
def safetyClassForActionType : AgentActionType → ActionSafetyClass
  | .sendMessage => .informational
  | .runAnalysis => .diagnostic
  | .runBacktest => .diagnostic
  | .createProposal => .proposal
  | .requestApproval => .proposal
  | .applyConfiguration => .stateChanging
  | .createCommit => .stateChanging

/-- `DEFAULT_AUTOMATION_AUTHORITY`. -/
def defaultAutomationAuthority : List ActionSafetyClass :=
  [.informational, .diagnostic, .proposal]

/-- `authority or DEFAULT_AUTOMATION_AUTHORITY`. -/
def authorityOf : Option (List ActionSafetyClass) → List ActionSafetyClass
  | none => defaultAutomationAuthority
  | some [] => defaultAutomationAuthority
  | some authority => authority

/-! ## §2 Requests -/

/-- The kinds of events that the controller subscribes to. -/
inductive AutomationRequest where
  | actionPlan (actionType source : String)
  | approvalDecision (approvalId decision : String)
  | anomaly (asset anomalyKind : String)
  deriving DecidableEq

structure AutomationEvent where
  eventId : String
  requestId : Option String
  request : AutomationRequest
  deriving DecidableEq

/-- The key that `_mark_processed` looks up. -/
def AutomationEvent.key (e : AutomationEvent) : String := e.requestId.getD e.eventId

/-- `InvestigateActivityAnomaly.investigate` proposes to pause the asset, unless the kind of the
    anomaly has another explanation. -/
def proposesPause (anomalyKind : String) : Bool :=
  anomalyKind ∉ ["NO_MARKET_DATA", "NO_STRATEGY_ACTIVITY", "NO_SIGNALS", "NO_EXECUTIONS"]

/-- The action that a request makes the executor take, if any. -/
def plannedAction (authority : List ActionSafetyClass) :
    AutomationRequest → Option AgentActionType
  | .actionPlan actionType source =>
    (AgentActionType.ofText actionType).bind fun type =>
      if source ≠ "user" ∧ safetyClassForActionType type ∉ authority then none else some type
  | .anomaly _ anomalyKind =>
    if proposesPause anomalyKind ∧ safetyClassForActionType .createProposal ∈ authority then
      some .createProposal
    else none
  | _ => none

/-- What the surroundings answer while a request is handled: whether something raises on the way to
    the executor, the approval request that the executor makes of an action, unless it raises or
    lacks the permission, and how a proposal fares. -/
structure HandlerAnswers where
  raises : Bool
  approval : Option Approval
  outcome : ProposalOutcome

/-- The action that reaches the executor. -/
def executedAction (authority : List ActionSafetyClass) (answers : HandlerAnswers)
    (request : AutomationRequest) : Option AgentActionType :=
  if answers.raises then none else plannedAction authority request

/-- `plan_and_execute`, as far as it touches the approvals. -/
def planAndExecute (texts : Texts) (approvals : ApprovalState) (answers : HandlerAnswers) :
    AgentActionType → ApprovalState
  | .sendMessage => approvals
  | .runBacktest => approvals
  | .runAnalysis => approvals
  -- the kinds that only ask for an approval
  | _ =>
    match answers.approval with
    | some approval => approvals.step texts (.request approval)
    | none => approvals

/-- `_dispatch`, for a request that was not processed before. -/
def dispatch (texts : Texts) (authority : List ActionSafetyClass) (approvals : ApprovalState)
    (answers : HandlerAnswers) (request : AutomationRequest) : ApprovalState :=
  match request with
  | .approvalDecision approvalId decision =>
    approvals.step texts (.decide approvalId decision answers.outcome)
  | _ =>
    match executedAction authority answers request with
    | some type => planAndExecute texts approvals answers type
    | none => approvals

/-! ## §3 The controller and its worker -/

/-- What the thread of the worker does next. -/
inductive WorkerStage where
  /-- Look at the stop flag. -/
  | looping
  | getting
  | handling (e : AutomationEvent)

/-- What a call of `submit` does next. -/
inductive SubmitStage where
  /-- Look at the stop flag. -/
  | checking
  | offering

/-- The controller with the approvals.  `subscribed` counts the calls of `start` whose callbacks
    are on the bus.  Behind them is what has happened, which nothing reads: the requests that were
    put on the queue, those that were handled, and the actions of the executor. -/
structure Automation where
  subscribed : ℕ
  submits : List (AutomationEvent × SubmitStage)
  queue : List AutomationEvent
  stopEvent : Bool
  worker : Option WorkerStage
  processed : Finset String
  approvals : ApprovalState
  accepted : List AutomationEvent
  handled : List AutomationEvent
  executed : List (AutomationEvent × AgentActionType)

inductive AutomationAction where
  /-- `start` puts the callbacks on the bus, and then starts the worker. -/
  | subscribe
  | startWorker
  /-- `stop` sets the flag, and then takes the callbacks off the bus. -/
  | setStop
  | unsubscribe
  /-- The bus publishes a request. -/
  | publish (e : AutomationEvent)
  /-- A call of `submit` takes its next step. -/
  | submit (call : ℕ)
  /-- The thread of the worker takes its next step. -/
  | work (answers : HandlerAnswers)
  /-- The `get` of the worker times out. -/
  | timeout
  /-- Others look approvals up, change conversations or move the head. -/
  | others (op : ApprovalOp)

/-- The calls of the approval service that the rest of the program makes. -/
def ApprovalOp.ofOthers : ApprovalOp → Bool
  | .request _ => false
  | .decide _ _ _ => false
  | _ => true

namespace Automation

def initial (approvals : ApprovalState) : Automation where
  subscribed := 0
  submits := []
  queue := []
  stopEvent := false
  worker := none
  processed := ∅
  approvals := approvals
  accepted := []
  handled := []
  executed := []

variable (texts : Texts) (authority : List ActionSafetyClass) (maxQueueSize : ℕ)

/-- `_dispatch`: handlers mark the key first, and leave a request whose key was processed. -/
def handle (s : Automation) (answers : HandlerAnswers) (e : AutomationEvent) : Automation :=
  if e.key ∈ s.processed then s
  else
    { s with
      processed := insert e.key s.processed
      approvals := dispatch texts authority s.approvals answers e.request
      handled := s.handled ++ [e]
      executed := s.executed ++ ((executedAction authority answers e.request).map (e, ·)).toList }

/-- The next step of the thread of the worker. -/
def workStep (s : Automation) (answers : HandlerAnswers) : Option WorkerStage → Automation
  | none => s
  -- the flag is looked at once in every round
  | some .looping => { s with worker := if s.stopEvent then none else some .getting }
  | some .getting =>
    match s.queue with
    | [] => s
    | e :: rest => { s with queue := rest, worker := some (.handling e) }
  -- a handler that raises is logged, and the loop goes on
  | some (.handling e) => { s.handle texts authority answers e with worker := some .looping }

/-- The next step of a call of `submit`; a full queue drops the request. -/
def submitStep (s : Automation) (call : ℕ) (e : AutomationEvent) : SubmitStage → Automation
  | .checking =>
    if s.stopEvent then { s with submits := s.submits.eraseIdx call }
    else { s with submits := s.submits.set call (e, .offering) }
  | .offering =>
    if 0 < maxQueueSize ∧ maxQueueSize ≤ s.queue.length then
      { s with submits := s.submits.eraseIdx call }
    else
      { s with submits := s.submits.eraseIdx call, queue := s.queue ++ [e],
               accepted := s.accepted ++ [e] }

def step (s : Automation) : AutomationAction → Automation
  | .subscribe => { s with subscribed := s.subscribed + 1 }
  | .startWorker =>
    -- a thread that is still alive goes on, with its flag as it is
    if s.worker.isSome then s else { s with stopEvent := false, worker := some .looping }
  | .setStop => { s with stopEvent := true }
  | .unsubscribe => { s with subscribed := 0 }
  -- each start has left two callbacks for every kind of request
  | .publish e =>
    { s with submits := s.submits ++ List.replicate (2 * s.subscribed) (e, .checking) }
  | .submit call =>
    match s.submits[call]? with
    | some (e, stage) => s.submitStep maxQueueSize call e stage
    | none => s
  | .work answers => s.workStep texts authority answers s.worker
  | .timeout =>
    match s.worker, s.queue with
    | some .getting, [] => { s with worker := some .looping }
    | _, _ => s
  | .others op => if op.ofOthers then { s with approvals := s.approvals.step texts op } else s

end Automation

/-! ## §4 What a request leads to -/

/-- An action that may be taken for a request: one that the user asked for or that the authority
    covers, and for an anomaly that has no other explanation a proposal. -/
def Authorised (authority : List ActionSafetyClass) (type : AgentActionType) :
    AutomationRequest → Prop
  | .actionPlan actionType source =>
    AgentActionType.ofText actionType = some type ∧
      (source = "user" ∨ safetyClassForActionType type ∈ authority)
  | .approvalDecision _ _ => False
  | .anomaly _ anomalyKind =>
    proposesPause anomalyKind ∧ type = .createProposal ∧ ActionSafetyClass.proposal ∈ authority

theorem authorised_of_executedAction {authority : List ActionSafetyClass}
    {answers : HandlerAnswers} {request : AutomationRequest} {type : AgentActionType}
    (h : executedAction authority answers request = some type) :
    Authorised authority type request := by
  unfold executedAction at h
  split at h
  · cases h
  cases request with
  | actionPlan actionType source =>
    obtain ⟨planned, htext, hplanned⟩ := Option.bind_eq_some_iff.mp h
    split at hplanned
    · cases hplanned
    · rename_i hallowed
      obtain rfl := Option.some.inj hplanned
      refine ⟨htext, ?_⟩
      by_contra hneither
      rw [not_or] at hneither
      exact hallowed hneither
  | approvalDecision approvalId decision => cases h
  | anomaly asset anomalyKind =>
    have hplanned : (if proposesPause anomalyKind ∧
        safetyClassForActionType .createProposal ∈ authority then
        some AgentActionType.createProposal else none) = some type := h
    split at hplanned
    · rename_i hpause
      exact ⟨hpause.1, (Option.some.inj hplanned).symm, hpause.2⟩
    · cases hplanned

namespace ApprovalState

theorem decisions_run_remember (s : ApprovalState) (written : List Approval) :
    (run remember s written).decisions = s.decisions := by
  have hstep (t : ApprovalState) (a : Approval) (h : t.decisions = s.decisions) :
      (t.remember a).decisions = s.decisions := h
  exact run_invariant _ hstep rfl written

theorem decisions_resolve_le (s : ApprovalState) (a : Approval) (action : String)
    (outcome : ProposalOutcome) :
    (s.resolve a action outcome).decisions.length ≤ s.decisions.length + 1 := by
  unfold resolve
  split
  · simp [settle, remember]
  · split
    · exact Nat.le_succ _
    · split
      · simp [settle, remember]
      · cases outcome <;> simp [settle, remember]

/-- Only a call of `decide_approval` adds a decision, and it adds one at most. -/
theorem decisions_step_le (texts : Texts) (s : ApprovalState) (op : ApprovalOp) :
    (s.step texts op).decisions.length ≤
      s.decisions.length + (match op with | .decide _ _ _ => 1 | _ => 0) := by
  have hwrites := decisions_run_remember s (s.writes texts op)
  cases op with
  | decide approvalId action outcome =>
    unfold step
    dsimp only
    split
    · rw [hwrites]
      exact Nat.le_succ _
    · split
      · rw [hwrites]
        exact Nat.le_succ _
      · split
        · rw [hwrites]
          exact Nat.le_succ _
        · have hresolve := decisions_resolve_le
            (run remember s (s.writes texts (.decide approvalId action outcome)))
          rw [hwrites] at hresolve
          exact hresolve _ _ _
  | request approval => exact (congrArg List.length hwrites).le
  | get approvalId => exact (congrArg List.length hwrites).le
  | find q => exact (congrArg List.length hwrites).le
  | others store head => exact (congrArg List.length hwrites).le

end ApprovalState

/-- A request for a decision. -/
def AutomationRequest.isDecision : AutomationRequest → Bool
  | .approvalDecision _ _ => true
  | _ => false

theorem decisions_planAndExecute (texts : Texts) (approvals : ApprovalState)
    (answers : HandlerAnswers) (type : AgentActionType) :
    (planAndExecute texts approvals answers type).decisions.length ≤
      approvals.decisions.length := by
  unfold planAndExecute
  split
  · exact le_rfl
  · exact le_rfl
  · exact le_rfl
  · split
    · exact approvals.decisions_step_le texts _
    · exact le_rfl

/-- Handling a request adds a decision only if it asks for one. -/
theorem decisions_dispatch_le (texts : Texts) (authority : List ActionSafetyClass)
    (approvals : ApprovalState) (answers : HandlerAnswers) (request : AutomationRequest) :
    (dispatch texts authority approvals answers request).decisions.length ≤
      approvals.decisions.length + (if request.isDecision then 1 else 0) := by
  unfold dispatch
  split
  · exact approvals.decisions_step_le texts _
  · split
    · exact (decisions_planAndExecute texts approvals answers _).trans (Nat.le_add_right _ _)
    · exact Nat.le_add_right _ _

/-! ## §5 Runs -/

namespace Automation

variable (authority : List ActionSafetyClass)

/-- What holds of a controller that has started with `before` decisions.

    The bus delivers each request twice for every start, so the keys carry the argument: the worker,
    which is the only thread that handles requests, marks a key before it acts. -/
structure Disciplined (before : ℕ) (s : Automation) : Prop where
  /-- No key is handled twice. -/
  handledOnce : (s.handled.map AutomationEvent.key).Nodup
  processed : ∀ key, key ∈ s.processed ↔ key ∈ s.handled.map AutomationEvent.key
  /-- What was put on the queue is there, in the hands of the worker, or handled. -/
  accountedFor : ∀ e ∈ s.accepted,
    e ∈ s.queue ∨ s.worker = some (.handling e) ∨ e.key ∈ s.handled.map AutomationEvent.key
  queued : ∀ e ∈ s.queue, e ∈ s.accepted
  inHand : ∀ e, s.worker = some (.handling e) → e ∈ s.accepted
  handledAccepted : ∀ e ∈ s.handled, e ∈ s.accepted
  /-- Each action of the executor is one that a handled request may lead to, and its only one. -/
  executedOnce : (s.executed.map Prod.fst).Sublist s.handled
  authorised : ∀ x ∈ s.executed, Authorised authority x.2 x.1.request
  decisions : s.approvals.decisions.length ≤
    before + s.handled.countP fun e => e.request.isDecision

theorem disciplined_initial (approvals : ApprovalState) :
    Disciplined authority approvals.decisions.length (initial approvals) where
  handledOnce := List.nodup_nil
  processed := by simp [initial]
  accountedFor := by simp [initial]
  queued := by simp [initial]
  inHand := by simp [initial]
  handledAccepted := by simp [initial]
  executedOnce := List.Sublist.slnil
  authorised := by simp [initial]
  decisions := Nat.le_refl _

section Step

variable (texts : Texts) (maxQueueSize : ℕ) {authority} {before : ℕ} {s : Automation}

/-- The worker handles what it has in hand, or finds its key processed. -/
theorem Disciplined.handle (h : Disciplined authority before s) (answers : HandlerAnswers)
    {e : AutomationEvent} (hworker : s.worker = some (.handling e)) :
    Disciplined authority before
      { s.handle texts authority answers e with worker := some .looping } := by
  have haccepted := h.inHand e hworker
  by_cases hkey : e.key ∈ s.processed
  · have hsame : s.handle texts authority answers e = s := by simp [Automation.handle, hkey]
    -- a key that was processed: `_on_event` returns before it dispatches
    rw [hsame]
    refine { h with accountedFor := ?_, inHand := by simp }
    intro e' he'
    rcases h.accountedFor e' he' with hqueue | hhand | hdone
    · exact .inl hqueue
    · -- the request in hand is a second copy
      obtain rfl : e = e' := by simpa [hworker] using hhand
      exact .inr (.inr ((h.processed _).mp hkey))
    · exact .inr (.inr hdone)
  · have hout : s.handle texts authority answers e =
        { s with
          processed := insert e.key s.processed
          approvals := dispatch texts authority s.approvals answers e.request
          handled := s.handled ++ [e]
          executed := s.executed ++
            ((executedAction authority answers e.request).map (e, ·)).toList } := by
      simp [Automation.handle, hkey]
    -- the key is a new one, so the request is handled for the first time
    have hnew : e.key ∉ s.handled.map AutomationEvent.key := fun hmem =>
      hkey ((h.processed _).mpr hmem)
    rw [hout]
    exact
      { handledOnce := by
          rw [List.map_append, List.map_singleton, ← List.concat_eq_append]
          exact h.handledOnce.concat hnew
        processed := by
          intro key
          rw [Finset.mem_insert, h.processed, List.map_append, List.mem_append, or_comm]
          simp
        accountedFor := by
          intro e' he'
          rw [List.map_append, List.mem_append]
          rcases h.accountedFor e' he' with hqueue | hhand | hdone
          · exact .inl hqueue
          · obtain rfl : e = e' := by simpa [hworker] using hhand
            exact .inr (.inr (.inr (by simp)))
          · exact .inr (.inr (.inl hdone))
        queued := h.queued
        inHand := by simp
        handledAccepted := by
          intro e' he'
          rcases List.mem_append.mp he' with hold | hlast
          · exact h.handledAccepted e' hold
          · rw [List.mem_singleton.mp hlast]
            exact haccepted
        executedOnce := by
          rw [List.map_append]
          refine h.executedOnce.append ?_
          cases executedAction authority answers e.request <;> simp
        authorised := by
          intro x hx
          rcases List.mem_append.mp hx with hold | hlast
          · exact h.authorised x hold
          · obtain ⟨type, htype, rfl⟩ := Option.map_eq_some_iff.mp (Option.mem_toList.mp hlast)
            exact authorised_of_executedAction htype
        decisions := by
          have hdispatch := decisions_dispatch_le texts authority s.approvals answers e.request
          have hdecisions := h.decisions
          rw [List.countP_append, List.countP_singleton]
          show (dispatch texts authority s.approvals answers e.request).decisions.length ≤ _
          omega }

theorem Disciplined.work (h : Disciplined authority before s) (answers : HandlerAnswers) :
    Disciplined authority before (s.workStep texts authority answers s.worker) := by
  cases hworker : s.worker with
  | none => exact h
  | some stage =>
    -- a job goes from the queue to the hand of the worker, and from there to the handled ones
    cases stage with
    | looping =>
      refine { h with accountedFor := ?_, inHand := ?_ }
      · intro e he
        rcases h.accountedFor e he with hqueue | hhand | hdone
        · exact .inl hqueue
        · rw [hworker] at hhand
          cases hhand
        · exact .inr (.inr hdone)
      · intro e hhand
        simp only [workStep] at hhand
        split at hhand <;> cases hhand
    | getting =>
      cases hqueue : s.queue with
      | nil => simpa [workStep, hqueue] using h
      | cons e rest =>
        simp only [workStep, hqueue]
        have hqueued := h.queued
        rw [hqueue] at hqueued
        refine { h with accountedFor := ?_, queued := ?_, inHand := ?_ }
        · intro e' he'
          rcases h.accountedFor e' he' with hin | hhand | hdone
          · rw [hqueue] at hin
            rcases List.mem_cons.mp hin with rfl | hrest
            · exact .inr (.inl rfl)
            · exact .inl hrest
          · rw [hworker] at hhand
            cases hhand
          · exact .inr (.inr hdone)
        · exact fun e' he' => hqueued e' (List.mem_cons_of_mem e he')
        · intro e' hhand
          cases hhand
          exact hqueued e List.mem_cons_self
    | handling e => exact h.handle texts answers hworker

theorem Disciplined.submit (h : Disciplined authority before s) (call : ℕ) (e : AutomationEvent)
    (stage : SubmitStage) :
    Disciplined authority before (s.submitStep maxQueueSize call e stage) := by
  cases stage with
  | checking =>
    simp only [submitStep]
    split <;> exact { h with }
  | offering =>
    simp only [submitStep]
    split
    · exact { h with }
    · refine { h with accountedFor := ?_, queued := ?_, inHand := ?_, handledAccepted := ?_ }
      · intro e' he'
        rcases List.mem_append.mp he' with hold | hnew
        · rcases h.accountedFor e' hold with hqueue | hrest
          · exact .inl (List.mem_append_left _ hqueue)
          · exact .inr hrest
        · exact .inl (List.mem_append_right _ hnew)
      · intro e' he'
        rcases List.mem_append.mp he' with hold | hnew
        · exact List.mem_append_left _ (h.queued e' hold)
        · exact List.mem_append_right _ hnew
      · exact fun e' hhand => List.mem_append_left _ (h.inHand e' hhand)
      · exact fun e' he' => List.mem_append_left _ (h.handledAccepted e' he')

/-- A thread that does not hold a request is put somewhere else. -/
theorem Disciplined.set_worker (h : Disciplined authority before s)
    (hidle : ∀ e, s.worker ≠ some (.handling e)) {stage : WorkerStage}
    (hstage : ∀ e, stage ≠ .handling e) :
    Disciplined authority before { s with worker := some stage } := by
  refine { h with accountedFor := ?_, inHand := ?_ }
  · intro e he
    rcases h.accountedFor e he with hqueue | hhand | hdone
    · exact .inl hqueue
    · exact absurd hhand (hidle e)
    · exact .inr (.inr hdone)
  · intro e hhand
    exact absurd (Option.some.inj hhand) (hstage e)

theorem Disciplined.step (h : Disciplined authority before s) (a : AutomationAction) :
    Disciplined authority before (s.step texts authority maxQueueSize a) := by
  -- the others of the approvals request nothing and decide nothing
  cases a with
  | subscribe => exact { h with }
  | startWorker =>
    simp only [Automation.step]
    split
    · exact { h with }
    · rename_i hnone
      have hidle : ∀ e, s.worker ≠ some (.handling e) := by
        intro e hworker
        exact hnone (by simp [hworker])
      have hlooping : Disciplined authority before { s with worker := some .looping } :=
        h.set_worker hidle (by simp)
      exact { hlooping with }
  | setStop => exact { h with }
  | unsubscribe => exact { h with }
  | publish e => exact { h with }
  | submit call =>
    simp only [Automation.step]
    split
    · exact h.submit maxQueueSize call _ _
    · exact h
  | work answers => exact h.work texts answers
  | timeout =>
    simp only [Automation.step]
    split
    · rename_i hworker hqueue
      exact h.set_worker (by simp [hworker]) (by simp)
    · exact h
  | others op =>
    simp only [Automation.step]
    split
    · rename_i hothers
      have hsame := s.approvals.decisions_step_le texts op
      refine { h with decisions := ?_ }
      cases op with
      | request approval => cases hothers
      | decide approvalId action outcome => cases hothers
      | get approvalId => exact hsame.trans h.decisions
      | find q => exact hsame.trans h.decisions
      | others store head => exact hsame.trans h.decisions
    · exact h

end Step

/-- **The automation is disciplined in every run.**  Whatever is published, however often the
    controller is started and stopped, and however its threads interleave: no request is handled
    twice; what the queue has taken is there, in hand or handled; each action of the executor is one
    that a handled request may lead to, and its only one; and no more approvals are decided than
    requests for a decision were handled. -/
theorem disciplined_run (texts : Texts) (maxQueueSize : ℕ)
    (given : Option (List ActionSafetyClass)) (approvals : ApprovalState)
    (actions : List AutomationAction) :
    Disciplined (authorityOf given) approvals.decisions.length
      (run (step texts (authorityOf given) maxQueueSize) (initial approvals) actions) :=
  run_invariant (Disciplined (authorityOf given) approvals.decisions.length)
    (fun _ a h => h.step texts maxQueueSize a) (disciplined_initial _ approvals) actions

end Automation

end CryptoTrading.Agent

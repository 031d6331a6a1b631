import CryptoTrading.Lib.Latest
import CryptoTrading.Lib.Run
import CryptoTrading.Lib.Text

/-!
# The projector of agent events

Embeds the approvals of `AgentEventProjector` (`src/server/agent_event_projector.py`) over the
conversation store of `ConversationService` and `PostgresConversationRepository`.

Payloads are dictionaries whose values are texts or `None`; the nested values (a proposed change)
are copied but never read, and left out.  Every message is one of the assistant.  The store keeps
the last messages of a conversation, and lists conversations by their last message, the newest
first.  Actions, and the events about them, are left out.

The state also has the approvals that were requested so far.  It is not in the source: claims about
an approval are claims about the requested ones.
-/

namespace CryptoTrading.Agent.Projection

open CryptoTrading.Lib

/-! ## §1 Payloads and messages -/

abbrev Payload := Dict String (Option String)

/-- `payload.get(key)`. -/
def field (payload : Payload) (key : String) : Option String := (payload.get? key).join

/-- `value or None`. -/
def orNone (value : Option String) : Option String := value.filter (· ≠ "")

/-- `payload.update(changes)`. -/
def update (payload changes : Payload) : Payload :=
  changes.entries.foldl (fun p e => p.set e.1 e.2) payload

inductive MessagePayload where
  | blocks (bs : List Payload)
  | decision (data : Payload)
  deriving DecidableEq

/-- `payload.get("blocks", [])`. -/
def MessagePayload.getBlocks : MessagePayload → List Payload
  | .blocks bs => bs
  | .decision _ => []

/-- `ConversationMessage`, with the number of its row. -/
structure Message where
  rowId : ℕ
  messageId : String
  content : String
  payload : MessagePayload
  deriving DecidableEq

/-! ## §2 The conversation store -/

/-- The store: the messages of each conversation, the conversation updated last at the end. -/
structure ConversationStore where
  maxTurns : ℕ
  nextRow : ℕ
  conversations : Dict String (List Message)

namespace ConversationStore

/-- `_prune`: the last messages stay; with nothing to keep, nothing is deleted. -/
def prune (maxTurns : ℕ) (messages : List Message) : List Message :=
  if maxTurns = 0 then messages else messages.drop (messages.length - maxTurns)

/-- `messages`. -/
def messages (store : ConversationStore) (sessionId : String) : List Message :=
  store.conversations.getD sessionId []

/-- `append`. -/
def append (store : ConversationStore) (sessionId messageId content : String)
    (payload : MessagePayload) : ConversationStore where
  maxTurns := store.maxTurns
  nextRow := store.nextRow + 1
  conversations := (store.conversations.erase sessionId).set sessionId
    (prune store.maxTurns
      (store.messages sessionId ++ [⟨store.nextRow, messageId, content, payload⟩]))

/-- `list_sessions`: the newest update first. -/
def listSessions (store : ConversationStore) : List String := store.conversations.keys.reverse

/-- All messages, conversation by conversation. -/
def allMessages (store : ConversationStore) : List Message :=
  store.listSessions.flatMap store.messages

/-- `get_message`: the last one stored; an empty message id is stored as `NULL`. -/
def getMessage (store : ConversationStore) (messageId : String) : Option Message :=
  latest Message.rowId
    (store.allMessages.filter fun m => m.messageId = messageId && messageId ≠ "")

/-- The blocks of all messages. -/
def allBlocks (store : ConversationStore) : List Payload :=
  store.allMessages.flatMap fun m => m.payload.getBlocks

end ConversationStore

/-! ## §3 Events -/

inductive ApprovalEvent where
  | requested (approvalId : String) (payload : Option Payload)
  | resolved (approvalId decision : String) (payload : Option Payload)
      (errorCode errorMessage : Option String)

/-- An event with its id, which is never empty (`uuid4().hex`). -/
structure Event where
  id : String
  id_ne : id ≠ ""
  body : ApprovalEvent

/-- `AgentEventProjector`. -/
structure Projector where
  approvals : Dict String Payload
  seenEventIds : List String
  hydrated : Bool

/-- The projector and the store, and the approvals requested so far. -/
structure System where
  projector : Projector
  store : ConversationStore
  requested : List String

/-- The payload of an event when it is not empty. -/
def nonEmpty (payload : Option Payload) : Option Payload :=
  payload.filter fun p => !p.entries.isEmpty

/-- `_resolve_conversation` of an approval event; `append` creates the conversation. -/
def resolveConversation (payload : Option Payload) : String :=
  ((nonEmpty payload).bind fun p => orNone (field p "conversation_id")).getD
    "system:default:agent:system"

/-- `payload["status"] = payload.get("status") or "PENDING"`. -/
def withStatus (payload : Payload) : Payload :=
  payload.set "status" (some ((orNone (field payload "status")).getD "PENDING"))

/-- The block of an approval request. -/
def approvalBlock (approvalId : String) (payload : Payload) : Payload :=
  .ofList
    [("type", some "agent_approval"), ("approval_id", some approvalId),
      ("action_id", field payload "agent_action_id"), ("title", field payload "title"),
      ("description", field payload "description"), ("base_commit", field payload "base_commit"),
      ("asset", field payload "asset"), ("status", some "pending")]

/-- `f"Approval requested: {payload.get('title', '')}"`. -/
def requestContent (payload : Payload) : String :=
  "Approval requested: " ++
    match payload.get? "title" with
    | none => ""
    | some title => title.getD "None"

/-- `_on_agent_approval_requested`. -/
def onApprovalRequested (s : System) (approvalId : String) (given : Option Payload) : System :=
  let payload := withStatus ((nonEmpty given).getD .empty)
  { projector := { s.projector with approvals := s.projector.approvals.set approvalId payload }
    store := s.store.append (resolveConversation given) approvalId (requestContent payload)
      (.blocks [approvalBlock approvalId payload])
    requested := approvalId :: s.requested }

/-- The title of a decision message. -/
def decisionTitle (existing payload : Option Payload) : String :=
  (((nonEmpty payload).bind fun p => orNone (field p "title")).or
    (existing.bind fun p => orNone (field p "title"))).getD "configuration change"

/-- The `decision` of a decision message. -/
def decisionData (approvalId decision title : String) (payload : Option Payload) : Payload :=
  let data : Payload := .ofList
    [("action", some (lower decision)), ("approval_id", some approvalId), ("title", some title)]
  match (nonEmpty payload).bind fun p => orNone (field p "commit_hash") with
  | some commitHash => data.set "commit_hash" (some commitHash)
  | none => data

/-- What a resolution makes of an approval. -/
def resolvedApproval (approval : Payload) (decision : String) (payload : Option Payload)
    (errorCode errorMessage : Option String) : Payload :=
  let decided :=
    match orNone errorCode with
    | some code => ((approval.set "status" (some "ERROR")).set "error_code" (some code)).set
        "error_message" errorMessage
    | none => ((approval.set "status" (some (upper decision))).erase "error_code").erase
        "error_message"
  update decided ((nonEmpty payload).getD .empty)

/-- `_on_agent_approval_resolved`. -/
def onApprovalResolved (s : System) (approvalId decision : String) (payload : Option Payload)
    (errorCode errorMessage : Option String) : System :=
  let existing := s.projector.approvals.get? approvalId
  let title := decisionTitle existing payload
  let label := if lower decision = "approve" then "Approved" else "Rejected"
  let approval := existing.getD (.ofList [("approval_id", some approvalId)])
  { s with
    projector := { s.projector with
      approvals := s.projector.approvals.set approvalId
        (resolvedApproval approval decision payload errorCode errorMessage) }
    store :=
      -- an error leaves no message
      if (orNone errorCode).isSome then s.store
      else s.store.append (resolveConversation payload) ("decision:" ++ approvalId)
        (label ++ " configuration change: " ++ title)
        (.decision (decisionData approvalId decision title payload)) }

/-- The dispatch of `_on_event`. -/
def dispatch (s : System) : ApprovalEvent → System
  | .requested approvalId payload => onApprovalRequested s approvalId payload
  | .resolved approvalId decision payload errorCode errorMessage =>
    onApprovalResolved s approvalId decision payload errorCode errorMessage

/-- `_on_event`. -/
def onEvent (s : System) (e : Event) : System :=
  if e.id ≠ "" ∧ e.id ∈ s.projector.seenEventIds then s
  else
    dispatch { s with
      projector := { s.projector with seenEventIds := e.id :: s.projector.seenEventIds } } e.body

/-! ## §4 Queries -/

/-- One block of `_hydrate_session`. -/
def hydrateBlock (approvals : Dict String Payload) (block : Payload) : Dict String Payload :=
  if field block "type" = some "agent_approval" then
    match orNone (field block "approval_id") with
    | some approvalId =>
      if approvals.contains approvalId then approvals else approvals.set approvalId block
    | none => approvals
  else approvals

/-- `_ensure_hydrated`. -/
def ensureHydrated (s : System) : System :=
  if s.projector.hydrated then s
  else
    { s with
      projector := { s.projector with
        approvals := s.store.allBlocks.foldl hydrateBlock s.projector.approvals
        hydrated := true } }

/-- The approval has the id under one of its keys. -/
def hasId (approvalId : String) (approval : Payload) : Bool :=
  ["id", "approval_id", "agent_action_id", "action_id", "proposal_id"].any fun key =>
    field approval key = some approvalId

-- for the membership test below
local instance lawfulBEqOptionString : LawfulBEq (Option String) := inferInstance

/-- The block of a message is about the approval. -/
def isBlockOf (approvalId messageId : String) (block : Payload) : Bool :=
  (field block "type" ∈ [some "agent_approval", some "approval", some "configuration_diff"]) &&
    (((orNone (field block "approval_id")).or (orNone (field block "proposal_id"))).getD messageId
        = approvalId ||
      (orNone (field block "action_id")).or (field block "agent_action_id") = some approvalId ||
      messageId = approvalId)

/-- The first block of the messages that is about the approval. -/
def findBlock (approvalId : String) (messages : List Message) : Option Payload :=
  messages.findSome? fun m => m.payload.getBlocks.find? (isBlockOf approvalId m.messageId)

/-- `get_approval`, with the state in which it leaves the projector. -/
def getApproval (s : System) (approvalId : String) : System × Option Payload :=
  let s := ensureHydrated s
  match s.projector.approvals.get? approvalId with
  | some approval => (s, some approval)
  | none =>
    match s.projector.approvals.values.find? (hasId approvalId) with
    | some approval => (s, some approval)
    | none =>
      -- the message of this id, then all messages
      match (findBlock approvalId (s.store.getMessage approvalId).toList).or
          (findBlock approvalId s.store.allMessages) with
      | some block =>
        ({ s with projector := { s.projector with
            approvals := s.projector.approvals.set approvalId block } }, some block)
      | none => (s, none)

/-- The sort key of `list_approvals`. -/
def requestedAt (approval : Payload) : String := (orNone (field approval "requested_at")).getD ""

/-- `list_approvals`, each approval with the id it is kept under. -/
def listApprovals (s : System) (status : Option String) (limit : ℕ) :
    System × List (String × Payload) :=
  let s := ensureHydrated s
  let selected :=
    match orNone status with
    | some status => s.projector.approvals.entries.filter fun e : String × Payload =>
        field e.2 "status" = some status
    | none => s.projector.approvals.entries
  (s, (selected.insertionSort fun a b : String × Payload =>
    requestedAt b.2 ≤ requestedAt a.2).take limit)

/-- What happens to a running projector. -/
inductive Op where
  | event (e : Event)
  | getApproval (approvalId : String)
  | listApprovals (status : Option String) (limit : ℕ)

def step (s : System) : Op → System
  | .event e => onEvent s e
  | .getApproval approvalId => (getApproval s approvalId).1
  | .listApprovals status limit => (listApprovals s status limit).1

/-- A new projector over a store. -/
def Projector.new : Projector := ⟨.empty, [], false⟩

/-- The first start, over a store without messages. -/
def start (maxTurns : ℕ) : System := ⟨.new, ⟨maxTurns, 0, .empty⟩, []⟩

/-- A new projector over the same store. -/
def restart (s : System) : System := { s with projector := .new }

end CryptoTrading.Agent.Projection

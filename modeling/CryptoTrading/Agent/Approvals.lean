import CryptoTrading.Lib.Dict
import CryptoTrading.Lib.Run

/-!
# Approvals of the agent

Embeds `AgentApprovalService` of `src/agent/actions/service.py`.

An approval is kept in memory under its id, and as a block of a message in the conversation store.
Looking one up that is not in memory parses the block and writes the copy into memory, whatever is
there under its id; a search writes a copy of every block that it passes.  A block is not updated
by a decision, so that a copy can bring a decided approval back (`WriteOk` says when it does not).

What validates and applies a proposal is an outcome of the decision, and so are the texts that
`upper` and `lower` make.  Left out: times, notes, and the parts of a request that only go into the
proposal.  Fields of a block are texts.
-/

namespace CryptoTrading.Agent

open CryptoTrading.Lib

/-! ## §1 Approvals and blocks -/

inductive ApprovalStatus where
  | pending
  | approved
  | rejected
  | expired
  | cancelled
  deriving DecidableEq

/-- `AgentApprovalRequest`. -/
structure Approval where
  id : String
  agentActionId : String
  proposalId : Option String
  requestId : Option String
  baseCommit : String
  asset : Option String
  status : ApprovalStatus
  deriving DecidableEq

/-- A block of a message; a missing field is `none`. -/
structure Block where
  type : Option String
  id : Option String
  approvalId : Option String
  proposalId : Option String
  actionId : Option String
  agentActionId : Option String
  status : Option String
  baseCommit : Option String
  asset : Option String
  /-- The model of a request accepts the `action_type`. -/
  validActionType : Bool
  deriving DecidableEq

structure Message where
  messageId : String
  blocks : List Block
  deriving DecidableEq

structure ConversationStore where
  getMessage : String → Except Unit (Option Message)
  /-- The messages of each session.  Where the store raises there are no more. -/
  sessions : List (List Message)

/-- What `str` makes of texts. -/
structure Texts where
  upper : String → String
  lower : String → String

/-- `value or default`. -/
def orElse (value : Option String) (default : String) : String :=
  (value.filter (· ≠ "")).getD default

/-! ## §2 Parsing -/

def Block.isApproval (b : Block) : Bool :=
  b.type = some "agent_approval" || b.type = some "approval" ||
    b.type = some "configuration_diff"

/-- `block.get("approval_id") or block.get("proposal_id") or message.message_id`. -/
def Block.idIn (b : Block) (msg : Message) : String :=
  orElse b.approvalId (orElse b.proposalId msg.messageId)

/-- `block.get("action_id") or block.get("agent_action_id")`. -/
def Block.action (b : Block) : Option String :=
  match b.actionId.filter (· ≠ "") with
  | some actionId => some actionId
  | none => b.agentActionId

/-- The condition under which a block is what an id stands for.  An empty id stands for any. -/
def Block.matchesId (b : Block) (msg : Message) (approvalId : String) : Bool :=
  approvalId = "" || b.idIn msg = approvalId || msg.messageId = approvalId ||
    b.action = some approvalId ||
    -- `str(None)` for a block without an id
    b.id.getD "None" = approvalId ||
    (approvalId.startsWith "tl_" && (b.idIn msg = approvalId || msg.messageId = approvalId))

/-- `ApprovalStatus(value)`, and PENDING for a value that is none. -/
def statusOf (text : String) : ApprovalStatus :=
  if text = "APPROVED" then .approved
  else if text = "REJECTED" then .rejected
  else if text = "EXPIRED" then .expired
  else if text = "CANCELLED" then .cancelled
  else .pending

section Parsing

variable (texts : Texts)

def Block.toApproval (b : Block) (msg : Message) : Approval where
  id := b.idIn msg
  agentActionId := orElse b.action (b.idIn msg)
  proposalId := none
  requestId := none
  baseCommit := orElse b.baseCommit ""
  asset := b.asset
  status := statusOf (texts.upper (b.status.getD "pending"))

/-- `_parse_approval_from_message`: the first block that matches.  An action type that the model
    refuses raises. -/
def parseApproval (msg : Message) (approvalId : String) : Except Unit (Option Approval) :=
  match msg.blocks.find? fun b => b.isApproval && b.matchesId msg approvalId with
  | none => .ok none
  | some b => if b.validActionType then .ok (some (b.toApproval texts msg)) else .error ()

/-- The scan of `_find_persisted_approval`.  An exception ends it. -/
def scanMessages (approvalId : String) : List Message → Option Approval
  | [] => none
  | msg :: rest =>
    match parseApproval texts msg approvalId with
    | .error _ => none
    | .ok (some approval) => some approval
    | .ok none => scanMessages approvalId rest

/-- `_find_persisted_approval`, without its write. -/
def findPersisted (store : ConversationStore) (approvalId : String) :
    Except Unit (Option Approval) := do
  let scan := scanMessages texts approvalId store.sessions.flatten
  match ← store.getMessage approvalId with
  | none => .ok scan
  | some msg =>
    match ← parseApproval texts msg approvalId with
    | some approval => .ok (some approval)
    | none => .ok scan

/-! ## §3 Look-ups -/

/-- The identifiers that `get_approval` accepts for an approval in memory. -/
def Approval.answersTo (a : Approval) (approvalId : String) : Bool :=
  a.id = approvalId || a.agentActionId = approvalId || a.proposalId = some approvalId ||
    a.requestId.filter (· ≠ "") = some approvalId

/-- The part of `get_approval` that reads the memory. -/
def lookUp (memory : Dict String Approval) (approvalId : String) : Option Approval :=
  match memory.get? approvalId with
  | some approval => some approval
  | none => memory.values.find? fun a => a.answersTo approvalId

/-- The outcome of a look-up: the approval, and what is written into memory. -/
structure Lookup where
  found : Option Approval
  written : List Approval

/-- `get_approval`. -/
def getApproval (memory : Dict String Approval) (store : ConversationStore) (approvalId : String) :
    Except Unit Lookup :=
  match lookUp memory approvalId with
  | some approval => .ok ⟨some approval, []⟩
  | none => do
    let persisted ← findPersisted texts store approvalId
    .ok ⟨persisted, persisted.toList⟩

/-- The arguments of `find_approval`; a missing one is empty. -/
structure ApprovalQuery where
  approvalId : String
  commitHash : String
  asset : String
  proposalId : String

namespace ApprovalQuery

def matchesAsset (q : ApprovalQuery) (a : Approval) : Bool :=
  match a.asset with
  | none => false
  | some asset => asset ≠ "" && texts.upper asset = texts.upper q.asset

def matchesCommit (q : ApprovalQuery) (a : Approval) : Bool :=
  q.commitHash ≠ "" && a.baseCommit ≠ "" &&
    ((texts.lower a.baseCommit).startsWith (texts.lower q.commitHash) ||
      (texts.lower q.commitHash).startsWith (texts.lower a.baseCommit))

/-- The conditions that the search has on a copy. -/
def matchesCopy (q : ApprovalQuery) (a : Approval) : Bool :=
  (q.matchesCommit texts a && (q.asset = "" || q.matchesAsset texts a)) ||
    (q.asset ≠ "" && q.matchesAsset texts a && q.commitHash = "")

/-- The conditions that the search has on an approval in memory. -/
def matchesInMemory (q : ApprovalQuery) (a : Approval) : Bool :=
  (q.proposalId ≠ "" && (a.proposalId = some q.proposalId || a.id = q.proposalId ||
    a.agentActionId = q.proposalId)) || q.matchesCopy texts a

end ApprovalQuery

/-- The search through the blocks: each is parsed by its id, and the copy is written. -/
def scanBlocks (q : ApprovalQuery) : List (Message × Block) → Lookup
  | [] => ⟨none, []⟩
  | (msg, b) :: rest =>
    match parseApproval texts msg (b.idIn msg) with
    | .error _ => ⟨none, []⟩
    | .ok none => scanBlocks q rest
    | .ok (some copy) =>
      -- the copy is written before it is compared with the query
      if q.matchesCopy texts copy then ⟨some copy, [copy]⟩
      else
        let later := scanBlocks q rest
        ⟨later.found, copy :: later.written⟩

/-- The blocks of the store, in the order of the search. -/
def ConversationStore.approvalBlocks (store : ConversationStore) : List (Message × Block) :=
  store.sessions.flatten.flatMap fun msg => (msg.blocks.filter (·.isApproval)).map fun b => (msg, b)

/-- The part of `find_approval` after the look-up by id. -/
def searchApproval (memory : Dict String Approval) (store : ConversationStore)
    (q : ApprovalQuery) : Lookup :=
  match memory.values.find? fun a => q.matchesInMemory texts a with
  | some approval => ⟨some approval, []⟩
  | none => scanBlocks texts q store.approvalBlocks

/-- `find_approval`. -/
def findApproval (memory : Dict String Approval) (store : ConversationStore) (q : ApprovalQuery) :
    Except Unit Lookup :=
  if q.approvalId = "" then .ok (searchApproval texts memory store q)
  else do
    let direct ← getApproval texts memory store q.approvalId
    match direct.found with
    | some _ => .ok direct
    | none => .ok (searchApproval texts memory store q)

end Parsing

/-! ## §4 Decisions -/

/-- How the proposal of an approval fares, once its base is accepted. -/
inductive ProposalOutcome where
  /-- Something raises before the commit. -/
  | raises
  /-- `validate_proposal` finds errors. -/
  | invalid
  /-- `apply_proposal_to_vcs` makes a commit, which is the new head. -/
  | applied (commitHash : String)
  deriving DecidableEq

/-- An approval as it was decided. -/
structure Decision where
  approval : Approval
  commitHash : Option String
  deriving DecidableEq

/-- The service with its surroundings, and the decisions so far. -/
structure ApprovalState where
  memory : Dict String Approval
  store : ConversationStore
  head : Option String
  decisions : List Decision

inductive ApprovalOp where
  | request (approval : Approval)
  | get (approvalId : String)
  | find (q : ApprovalQuery)
  | decide (approvalId action : String) (outcome : ProposalOutcome)
  /-- Whatever happens to the conversations and to the head. -/
  | others (store : ConversationStore) (head : Option String)

namespace ApprovalState

/-- `self._approvals[approval.id] = approval`. -/
def remember (s : ApprovalState) (a : Approval) : ApprovalState :=
  { s with memory := s.memory.set a.id a }

/-- The approval gets a final status.  It is changed in place. -/
def settle (s : ApprovalState) (a : Approval) (status : ApprovalStatus)
    (commitHash : Option String) : ApprovalState :=
  let a := { a with status := status }
  { s.remember a with decisions := s.decisions ++ [⟨a, commitHash⟩] }

/-- The base of the approval is the head, as far as both hashes go. -/
def isCurrent (a : Approval) (head : String) : Bool :=
  head = a.baseCommit || head.startsWith a.baseCommit || a.baseCommit.startsWith head

/-- `decide_approval`, after the look-up of a pending approval. -/
def resolve (s : ApprovalState) (a : Approval) (action : String) (outcome : ProposalOutcome) :
    ApprovalState :=
  if action = "reject" then s.settle a .rejected none
  else
    match s.head with
    -- without a head the look-up raises
    | none => s
    | some head =>
      if a.baseCommit ≠ "" ∧ isCurrent a head = false then s.settle a .expired none
      else
        -- an approval without a base is tied to the present head
        let a := if a.baseCommit = "" then { a with baseCommit := head } else a
        match outcome with
        | .raises => s.remember a
        | .invalid => s.settle a .cancelled none
        | .applied commitHash =>
          { s.settle a .approved (some commitHash) with head := some commitHash }

variable (texts : Texts)

/-- What a call writes while it looks approvals up. -/
def writes (s : ApprovalState) : ApprovalOp → List Approval
  | .request approval => [approval]
  | .get approvalId =>
    match getApproval texts s.memory s.store approvalId with
    | .ok lookup => lookup.written
    | .error _ => []
  | .find q =>
    match findApproval texts s.memory s.store q with
    | .ok lookup => lookup.written
    | .error _ => []
  | .decide approvalId _ _ =>
    match getApproval texts s.memory s.store approvalId with
    | .ok lookup => lookup.written
    | .error _ => []
  | .others _ _ => []

/-- A call. -/
def step (s : ApprovalState) (op : ApprovalOp) : ApprovalState :=
  let s' := run remember s (s.writes texts op)
  match op with
  | .decide approvalId action outcome =>
    match getApproval texts s.memory s.store approvalId with
    | .error _ => s'
    | .ok lookup =>
      match lookup.found with
      -- not found, or already decided: the call raises
      | none => s'
      | some a => if a.status ≠ .pending then s' else s'.resolve a action outcome
  | .others store head => { s' with store := store, head := head }
  | _ => s'

end ApprovalState

/-- Nothing is in memory yet. -/
def ApprovalState.initial (store : ConversationStore) (head : Option String) : ApprovalState :=
  ⟨Dict.empty, store, head, []⟩

/-! ## §5 Decided once -/

/-- The identifiers of an approval. -/
def Approval.names (a : Approval) : List String :=
  (a.id :: a.agentActionId :: (a.proposalId.toList ++ a.requestId.toList)).filter (· ≠ "")

/-- Two records of one approval: they share an identifier. -/
def SameApproval (a b : Approval) : Prop := a.id = b.id ∨ ∃ name ∈ a.names, name ∈ b.names

instance (a b : Approval) : Decidable (SameApproval a b) :=
  inferInstanceAs (Decidable (_ ∨ _))

/-- What is decided in the first state is not pending in the second. -/
def KeepsDecided (s s' : ApprovalState) : Prop :=
  ∀ id a, s.memory.get? id = some a → a.status ≠ .pending →
    ∃ a', s'.memory.get? id = some a' ∧ a'.status ≠ .pending

/-- No approval was decided twice; in particular there is no second commit, and none after a
    rejection. -/
def DecidedOnce (s : ApprovalState) : Prop :=
  s.decisions.Pairwise fun earlier later => ¬ SameApproval earlier.approval later.approval

/-- Writing the record into memory brings nothing back: no pending record of an approval that is
    decided in memory or was decided before, and no second record, under another id, of an
    approval in memory. -/
structure WriteOk (s : ApprovalState) (a : Approval) : Prop where
  alone : ∀ id b, s.memory.get? id = some b → id ≠ a.id → ¬ SameApproval b a
  pending : a.status = .pending → (∀ b, s.memory.get? a.id = some b → b.status = .pending) ∧
    ∀ d ∈ s.decisions, ¬ SameApproval d.approval a

/-- The same over the entries of the memory, where it can be evaluated. -/
theorem writeOk_iff (s : ApprovalState) (a : Approval) :
    ((∀ e ∈ s.memory.entries, e.1 ≠ a.id → ¬ SameApproval e.2 a) ∧
      (a.status = .pending → (∀ e ∈ s.memory.entries, e.1 = a.id → e.2.status = .pending) ∧
        ∀ d ∈ s.decisions, ¬ SameApproval d.approval a)) ↔ WriteOk s a := by
  constructor
  · intro h
    refine ⟨fun id b hb hne => h.1 (id, b) ((Dict.get?_eq_some_iff ..).mp hb) hne, fun hp => ?_⟩
    exact ⟨fun b hb => (h.2 hp).1 (a.id, b) ((Dict.get?_eq_some_iff ..).mp hb) rfl, (h.2 hp).2⟩
  · intro h
    refine ⟨fun e he hne => h.alone e.1 e.2 ((Dict.get?_eq_some_iff ..).mpr he) hne, fun hp => ?_⟩
    refine ⟨fun e he heq => (h.pending hp).1 e.2 ?_, (h.pending hp).2⟩
    rw [← heq]
    exact (Dict.get?_eq_some_iff ..).mpr he

instance (s : ApprovalState) (a : Approval) : Decidable (WriteOk s a) :=
  decidable_of_iff _ (writeOk_iff s a)

/-- Every write of the call is in order. -/
def Orderly (texts : Texts) (s : ApprovalState) (op : ApprovalOp) : Prop :=
  Along ApprovalState.remember WriteOk s (s.writes texts op)

instance (texts : Texts) (s : ApprovalState) (op : ApprovalOp) : Decidable (Orderly texts s op) :=
  inferInstanceAs (Decidable (Along _ _ _ _))

/-- Records lie under their ids, no approval has two of them, and what was decided is not pending
    in memory. -/
structure ApprovalInv (s : ApprovalState) : Prop where
  keyed : ∀ id a, s.memory.get? id = some a → a.id = id
  alone : ∀ id a id' b, s.memory.get? id = some a → s.memory.get? id' = some b →
    SameApproval a b → id = id'
  decided : ∀ d ∈ s.decisions, ∀ id a, s.memory.get? id = some a →
    SameApproval d.approval a → a.status ≠ .pending
  once : DecidedOnce s

theorem SameApproval.symm {a b : Approval} (h : SameApproval a b) : SameApproval b a := by
  rcases h with hid | ⟨name, ha, hb⟩
  · exact .inl hid.symm
  · exact .inr ⟨name, hb, ha⟩

/-- Only the identifiers matter. -/
theorem SameApproval.of_names {a a' b : Approval} (hid : a'.id = a.id) (hnames : a'.names = a.names)
    (h : SameApproval b a') : SameApproval b a := by
  unfold SameApproval at h ⊢
  rw [hid, hnames] at h
  exact h

theorem KeepsDecided.refl (s : ApprovalState) : KeepsDecided s s :=
  fun _ a ha hdecided => ⟨a, ha, hdecided⟩

theorem KeepsDecided.trans {s t u : ApprovalState} (h : KeepsDecided s t) (h' : KeepsDecided t u) :
    KeepsDecided s u := by
  intro id a ha hdecided
  obtain ⟨a', ha', hdecided'⟩ := h id a ha hdecided
  exact h' id a' ha' hdecided'

namespace ApprovalInv

variable {s : ApprovalState} {a a' : Approval}

theorem initial (store : ConversationStore) (head : Option String) :
    ApprovalInv (.initial store head) := by
  refine ⟨fun id a h => ?_, fun id a id' b h => ?_, fun d hd => ?_, List.Pairwise.nil⟩
  · cases h
  · cases h
  · cases hd

/-- A record is written that fits in with the others. -/
theorem remember (h : ApprovalInv s)
    (halone : ∀ id b, s.memory.get? id = some b → id ≠ a.id → ¬ SameApproval b a)
    (hpending : a.status = .pending → ∀ d ∈ s.decisions, ¬ SameApproval d.approval a) :
    ApprovalInv (s.remember a) := by
  have hget : ∀ id, (s.remember a).memory.get? id =
      if id = a.id then some a else s.memory.get? id :=
    fun id => Dict.get?_set _ _ _ _
  refine ⟨fun id b hb => ?_, fun id b id' b' hb hb' hsame => ?_,
    fun d hd id b hb hsame => ?_, h.once⟩
  · rw [hget] at hb
    split at hb
    · rename_i hid
      rw [← Option.some.inj hb, hid]
    · exact h.keyed id b hb
  · rw [hget] at hb hb'
    -- the new record shares no identifier with one under another id
    split at hb
    · split at hb'
      · rename_i hid hid'
        rw [hid, hid']
      · rename_i hid hid'
        obtain rfl := Option.some.inj hb
        exact absurd hsame.symm (halone id' b' hb' hid')
    · split at hb'
      · rename_i hid hid'
        obtain rfl := Option.some.inj hb'
        exact absurd hsame (halone id b hb hid)
      · exact h.alone id b id' b' hb hb' hsame
  · rw [hget] at hb
    split at hb
    · obtain rfl := Option.some.inj hb
      intro hstatus
      exact hpending hstatus d hd hsame
    · exact h.decided d hd id b hb hsame

theorem write (h : ApprovalInv s) (hok : WriteOk s a) :
    ApprovalInv (s.remember a) ∧ KeepsDecided s (s.remember a) := by
  refine ⟨h.remember hok.alone fun hp => (hok.pending hp).2, fun id b hb hdecided => ?_⟩
  by_cases hid : id = a.id
  · subst hid
    refine ⟨a, Dict.get?_set_self .., ?_⟩
    intro hp
    exact hdecided ((hok.pending hp).1 b hb)
  · exact ⟨b, (Dict.get?_set_of_ne _ _ hid).trans hb, hdecided⟩

/-- The writes of a call. -/
theorem writes (h : ApprovalInv s) {written : List Approval}
    (hok : Along ApprovalState.remember WriteOk s written) :
    ApprovalInv (run ApprovalState.remember s written) ∧
      KeepsDecided s (run ApprovalState.remember s written) := by
  constructor
  · exact run_invariant_along ApprovalInv (fun _ _ hinv hw => (hinv.write hw).1) h hok
  · have hsteps : Along ApprovalState.remember
        (fun s a => KeepsDecided s (s.remember a)) s written :=
      along_of_invariant ApprovalInv (fun _ _ hinv hw => hinv.write hw) h hok
    exact rel_run_of_along KeepsDecided.refl (fun _ _ _ => KeepsDecided.trans) hsteps

/-- Nothing about a pending record in memory was decided. -/
theorem not_decided (h : ApprovalInv s) (ha : s.memory.get? a.id = some a)
    (hpending : a.status = .pending) : ∀ d ∈ s.decisions, ¬ SameApproval d.approval a :=
  fun d hd hsame => h.decided d hd a.id a ha hsame hpending

/-- A pending record is changed in place and keeps its identifiers. -/
theorem replace (h : ApprovalInv s) (ha : s.memory.get? a.id = some a)
    (hpending : a.status = .pending) (hid : a'.id = a.id) (hnames : a'.names = a.names) :
    ApprovalInv (s.remember a') ∧ KeepsDecided s (s.remember a') := by
  constructor
  · apply h.remember
    · intro id b hb hne hb'
      rw [hid] at hne
      exact hne (h.alone id b a.id a hb ha (hb'.of_names hid hnames))
    · intro _ d hd hd'
      exact h.not_decided ha hpending d hd (hd'.of_names hid hnames)
  · intro id b hb hdecided
    -- what is replaced was pending
    have hne : id ≠ a'.id := by
      intro heq
      rw [heq, hid, ha] at hb
      rw [← Option.some.inj hb] at hdecided
      exact hdecided hpending
    exact ⟨b, (Dict.get?_set_of_ne _ _ hne).trans hb, hdecided⟩

/-- A pending record in memory is decided. -/
theorem settle (h : ApprovalInv s) (ha : s.memory.get? a.id = some a)
    (hpending : a.status = .pending) (hid : a'.id = a.id) (hnames : a'.names = a.names)
    (status : ApprovalStatus) (hstatus : status ≠ .pending) (commitHash : Option String) :
    ApprovalInv (s.settle a' status commitHash) ∧
      KeepsDecided s (s.settle a' status commitHash) := by
  have hid' : ({ a' with status := status } : Approval).id = a.id := hid
  have hnames' : ({ a' with status := status } : Approval).names = a.names := hnames
  obtain ⟨hinv, hkeeps⟩ := h.replace ha hpending hid' hnames'
  have hself : (s.remember { a' with status := status }).memory.get? a.id =
      some { a' with status := status } := by
    rw [← hid']
    exact Dict.get?_set_self ..
  refine ⟨⟨hinv.keyed, hinv.alone, ?_, ?_⟩, hkeeps⟩
  · intro d hd id b hb hsame
    rcases List.mem_append.mp hd with hd | hd
    · exact hinv.decided d hd id b hb hsame
    · -- the decision just made is about this record alone
      obtain rfl := List.mem_singleton.mp hd
      obtain rfl := hinv.alone a.id _ id b hself hb hsame
      rw [← Option.some.inj (hself.symm.trans hb)]
      exact hstatus
  · apply List.pairwise_append.mpr
    refine ⟨h.once, List.pairwise_singleton _ _, fun d hd d' hd' hsame => ?_⟩
    obtain rfl := List.mem_singleton.mp hd'
    exact h.not_decided ha hpending d hd (hsame.of_names hid' hnames')

theorem resolve (h : ApprovalInv s) (ha : s.memory.get? a.id = some a)
    (hpending : a.status = .pending) (action : String) (outcome : ProposalOutcome) :
    ApprovalInv (s.resolve a action outcome) ∧ KeepsDecided s (s.resolve a action outcome) := by
  unfold ApprovalState.resolve
  split
  · exact h.settle ha hpending rfl rfl .rejected nofun none
  split
  · exact ⟨h, .refl s⟩
  rename_i head _
  split
  · exact h.settle ha hpending rfl rfl .expired nofun none
  -- the base that is filled in is no identifier
  generalize hbase : (if a.baseCommit = "" then { a with baseCommit := head } else a) = a'
  have hid : a'.id = a.id := by
    rw [← hbase]
    split
    · rfl
    · rfl
  have hnames : a'.names = a.names := by
    rw [← hbase]
    split
    · rfl
    · rfl
  cases outcome with
  | raises => exact h.replace ha hpending hid hnames
  | invalid => exact h.settle ha hpending hid hnames .cancelled nofun none
  | applied commitHash =>
    obtain ⟨hinv, hkeeps⟩ :=
      h.settle ha hpending hid hnames .approved nofun (some commitHash)
    exact ⟨⟨hinv.keyed, hinv.alone, hinv.decided, hinv.once⟩, hkeeps⟩

/-- What a look-up finds is in memory afterwards. -/
theorem found_mem (h : ApprovalInv s) {texts : Texts} {approvalId : String} {lookup : Lookup}
    (hlookup : getApproval texts s.memory s.store approvalId = .ok lookup)
    (hfound : lookup.found = some a) :
    (run ApprovalState.remember s lookup.written).memory.get? a.id = some a := by
  unfold getApproval at hlookup
  split at hlookup
  · rename_i b hb
    obtain rfl := Except.ok.inj hlookup
    obtain rfl : b = a := Option.some.inj hfound
    -- found in memory, under its id or by another identifier
    unfold lookUp at hb
    split at hb
    · rename_i hget
      obtain rfl := Option.some.inj hb
      rw [run_nil, h.keyed _ _ hget]
      exact hget
    · obtain ⟨id, hget⟩ := (Dict.mem_values_iff _ _).mp (List.mem_of_find?_eq_some hb)
      rw [run_nil, h.keyed id b hget]
      exact hget
  · -- parsed from a message, and just written
    obtain ⟨persisted, -, hok⟩ := bind_eq_ok.mp hlookup
    obtain rfl := Except.ok.inj hok
    obtain rfl : persisted = some a := hfound
    exact Dict.get?_set_self ..

theorem step (h : ApprovalInv s) {texts : Texts} {op : ApprovalOp} (hok : Orderly texts s op) :
    ApprovalInv (s.step texts op) ∧ KeepsDecided s (s.step texts op) := by
  obtain ⟨hinv, hkeeps⟩ := h.writes hok
  unfold ApprovalState.step
  -- only a decision does more than the writes of the look-up
  cases op with
  | request approval => exact ⟨hinv, hkeeps⟩
  | get approvalId => exact ⟨hinv, hkeeps⟩
  | find q => exact ⟨hinv, hkeeps⟩
  | others store head => exact ⟨⟨hinv.keyed, hinv.alone, hinv.decided, hinv.once⟩, hkeeps⟩
  | decide approvalId action outcome =>
    dsimp only
    cases hlookup : getApproval texts s.memory s.store approvalId with
    | error e => exact ⟨hinv, hkeeps⟩
    | ok lookup =>
      cases hfound : lookup.found with
      | none => simpa [hfound] using ⟨hinv, hkeeps⟩
      | some a =>
        have hwritten : s.writes texts (.decide approvalId action outcome) = lookup.written := by
          simp [ApprovalState.writes, hlookup]
        have hmem := h.found_mem hlookup hfound
        rw [hwritten] at hinv hkeeps ⊢
        simp only [hfound]
        split
        · exact ⟨hinv, hkeeps⟩
        · rename_i hpending
          obtain ⟨hresolved, hkept⟩ :=
            hinv.resolve hmem (not_not.mp hpending) action outcome
          exact ⟨hresolved, hkeeps.trans hkept⟩

end ApprovalInv

/-- **An approval is decided at most once.** In every sequence of requests, look-ups, searches and
    decisions, by whatever identifiers, whose writes into memory are in order: an approval that is
    decided is never pending again, and no two decisions are about the same approval.

    A look-up that misses the memory parses the stored block, which stays pending whatever was
    decided, and writes the copy into memory.  Such a write is out of order where the approval was
    decided, or is in memory under another id. -/
theorem orderly_decidedOnce (texts : Texts) (store : ConversationStore) (head : Option String)
    (ops : List ApprovalOp)
    (h : Along (ApprovalState.step texts) (Orderly texts) (.initial store head) ops) :
    (∀ before after, before ++ after <+: ops →
      KeepsDecided (run (ApprovalState.step texts) (.initial store head) before)
        (run (ApprovalState.step texts) (.initial store head) (before ++ after))) ∧
    ∀ taken, taken <+: ops →
      DecidedOnce (run (ApprovalState.step texts) (.initial store head) taken) := by
  constructor
  · apply rel_between_of_along KeepsDecided.refl (fun _ _ _ => KeepsDecided.trans)
    exact along_of_invariant ApprovalInv (fun _ _ hinv hok => hinv.step hok)
      (ApprovalInv.initial store head) h
  · intro taken hle
    obtain ⟨rest, rfl⟩ := hle
    have hinv := run_invariant_along ApprovalInv (fun _ _ hinv hok => (hinv.step hok).1)
      (ApprovalInv.initial store head) (along_append.mp h).1
    exact hinv.once

/-! ## §6 A message that still says pending -/

/-- Texts that are in the right case already. -/
def plainTexts : Texts := ⟨id, id⟩

/-- A request on top of the first commit. -/
def sampleApproval : Approval := ⟨"a1", "act1", none, none, "c0", some "BTC_USD", .pending⟩

/-- The block of the request, with a status. -/
def sampleMessage (status : String) : Message :=
  ⟨"m1", [⟨some "agent_approval", none, some "a1", none, some "act1", none, some status, some "c0",
    some "BTC_USD", true⟩]⟩

def sampleStore (status : String) : ConversationStore where
  getMessage id := .ok (if id = "m1" then some (sampleMessage status) else none)
  sessions := [[sampleMessage status]]

/-- The request is approved by its id; later its message, whose status has been brought up to date,
    is looked up and decided again. -/
def approvedOps : List ApprovalOp :=
  [.request sampleApproval, .decide "a1" "approve" (.applied "c1"),
    .others (sampleStore "APPROVED") (some "c1"), .get "m1", .decide "m1" "reject" .raises]

theorem approved_message_decidedOnce :
    DecidedOnce (run (ApprovalState.step plainTexts)
      (.initial (sampleStore "PENDING") (some "c0")) approvedOps) := by
  refine (orderly_decidedOnce plainTexts (sampleStore "PENDING") (some "c0") approvedOps ?_).2
    approvedOps List.prefix_rfl
  decide +kernel

/-- **A rejected approval is approved by its message.**  The look-up by the id of the message writes
    the pending copy over the rejected approval. -/
theorem rejected_then_approved :
    ¬ ∀ (texts : Texts) (store : ConversationStore) (head : Option String) (ops : List ApprovalOp),
      (run (ApprovalState.step texts) (.initial store head) ops).decisions.Pairwise
        fun earlier later => later.commitHash.isSome = true →
          ¬ SameApproval earlier.approval later.approval := by
  intro h
  have honce := h plainTexts (sampleStore "PENDING") (some "c0")
    [.request sampleApproval, .decide "a1" "reject" .raises,
      .decide "m1" "approve" (.applied "c1")]
  revert honce
  decide +kernel

end CryptoTrading.Agent

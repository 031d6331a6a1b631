import CryptoTrading.Agent.EventProjector

/-!
# A restarted projector and the running one

A new projector reads the approvals back from the blocks of the stored messages.  The block of a
request always has the status `pending`, and a decision is stored without blocks, so an approval
that was decided is pending again after a restart (`approved_pending_again`).

As long as every approval requested so far is still pending, and the conversations have room for
their messages, the two projectors agree (`restarted_agrees_iff_leavesPending`).
-/

namespace CryptoTrading.Agent.Projection

open CryptoTrading.Lib

/-! ## §1 Fields of payloads -/

@[simp] theorem field_set_self (payload : Payload) (key : String) (value : Option String) :
    field (payload.set key value) key = value := by
  simp [field]

@[simp] theorem field_set_of_ne (payload : Payload) {key key' : String} (value : Option String)
    (h : key' ≠ key) : field (payload.set key value) key' = field payload key' := by
  simp [field, h]

@[simp] theorem field_erase_of_ne (payload : Payload) {key key' : String} (h : key' ≠ key) :
    field (payload.erase key) key' = field payload key' := by
  simp [field, h]

theorem get?_update (payload changes : Payload) (key : String) :
    (update payload changes).get? key = (changes.get? key).or (payload.get? key) := by
  have h := Dict.get?_foldl_merge (fun _ v => v) changes.nodupKeys payload key
  rw [Option.map_id'] at h
  exact h

/-! ## §2 Pending approvals -/

/-- The status is `pending`, in any letter case. -/
def IsPendingStatus (status : Option String) : Prop := status.map lower = some "pending"

instance (status : Option String) : Decidable (IsPendingStatus status) :=
  inferInstanceAs (Decidable (_ = _))

def IsPending (approval : Payload) : Prop := IsPendingStatus (field approval "status")

/-- The status that a request gives its approval. -/
def requestedStatus (payload : Option Payload) : String :=
  (orNone (field ((nonEmpty payload).getD .empty) "status")).getD "PENDING"

/-- The status that a resolution leaves. -/
def resolvedStatus (decision : String) (payload : Option Payload) (errorCode : Option String) :
    Option String :=
  match ((nonEmpty payload).getD .empty).get? "status" with
  | some status => status
  | none => some (if (orNone errorCode).isSome then "ERROR" else upper decision)

theorem field_withStatus (payload : Option Payload) :
    field (withStatus ((nonEmpty payload).getD .empty)) "status" =
      some (requestedStatus payload) :=
  field_set_self _ _ _

theorem field_resolvedApproval (approval : Payload) (decision : String) (payload : Option Payload)
    (errorCode errorMessage : Option String) :
    field (resolvedApproval approval decision payload errorCode errorMessage) "status" =
      resolvedStatus decision payload errorCode := by
  unfold resolvedApproval resolvedStatus
  rw [field, get?_update]
  cases ((nonEmpty payload).getD .empty).get? "status" with
  | some status => rfl
  | none =>
    cases orNone errorCode with
    | some code => simp
    | none => simp

/-! ## §3 The blocks of the store -/

namespace ConversationStore

/-- The conversation takes one more message without losing one. -/
def HasRoom (store : ConversationStore) (sessionId : String) : Prop :=
  store.maxTurns = 0 ∨ (store.messages sessionId).length < store.maxTurns

instance (store : ConversationStore) (sessionId : String) : Decidable (store.HasRoom sessionId) :=
  inferInstanceAs (Decidable (_ ∨ _))

theorem mem_allBlocks {store : ConversationStore} {block : Payload} :
    block ∈ store.allBlocks ↔
      ∃ sessionId, ∃ m ∈ store.messages sessionId, block ∈ m.payload.getBlocks := by
  unfold allBlocks allMessages
  simp only [List.mem_flatMap]
  constructor
  · rintro ⟨m, ⟨sessionId, -, hm⟩, hblock⟩
    exact ⟨sessionId, m, hm, hblock⟩
  · rintro ⟨sessionId, m, hm, hblock⟩
    refine ⟨m, ⟨sessionId, ?_, hm⟩, hblock⟩
    -- a conversation with messages is listed
    rw [listSessions, List.mem_reverse, ← Dict.contains_iff_mem_keys]
    unfold messages Dict.getD at hm
    unfold Dict.contains
    cases hget : store.conversations.get? sessionId with
    | none => simp [hget] at hm
    | some ms => rfl

theorem messages_append (store : ConversationStore) (sessionId messageId content : String)
    (payload : MessagePayload) (h : store.HasRoom sessionId) (otherId : String) :
    (store.append sessionId messageId content payload).messages otherId =
      if otherId = sessionId then
        store.messages sessionId ++ [⟨store.nextRow, messageId, content, payload⟩]
      else store.messages otherId := by
  have hprune : prune store.maxTurns
      (store.messages sessionId ++ [⟨store.nextRow, messageId, content, payload⟩]) =
        store.messages sessionId ++ [⟨store.nextRow, messageId, content, payload⟩] := by
    unfold prune
    rcases h with h | h
    · rw [if_pos h]
    · have hlength : (store.messages sessionId).length + 1 - store.maxTurns = 0 := by omega
      simp [hlength]
  by_cases hid : otherId = sessionId
  · subst hid
    simp [append, messages, Dict.getD] at hprune ⊢
    exact hprune
  · simp [append, messages, Dict.getD, hid]

/-- With room, a message adds its blocks and takes none away. -/
theorem mem_allBlocks_append {store : ConversationStore} {sessionId messageId content : String}
    {payload : MessagePayload} (h : store.HasRoom sessionId) {block : Payload} :
    block ∈ (store.append sessionId messageId content payload).allBlocks ↔
      block ∈ store.allBlocks ∨ block ∈ payload.getBlocks := by
  rw [mem_allBlocks, mem_allBlocks]
  simp only [messages_append store sessionId messageId content payload h]
  constructor
  · rintro ⟨otherId, m, hm, hblock⟩
    split at hm
    case isTrue hid =>
      rcases List.mem_append.mp hm with hm | hm
      · exact .inl ⟨sessionId, m, hm, hblock⟩
      · rw [List.mem_singleton.mp hm] at hblock
        exact .inr hblock
    case isFalse => exact .inl ⟨otherId, m, hm, hblock⟩
  · rintro (⟨otherId, m, hm, hblock⟩ | hblock)
    · refine ⟨otherId, m, ?_, hblock⟩
      split
      case isTrue hid => exact List.mem_append_left _ (hid ▸ hm)
      case isFalse => exact hm
    · refine ⟨sessionId, ⟨store.nextRow, messageId, content, payload⟩, ?_, hblock⟩
      rw [if_pos rfl]
      exact List.mem_append_right _ (List.mem_singleton.mpr rfl)

end ConversationStore

/-! ## §4 Reading approvals back -/

/-- The block is read back under the approval id. -/
def hydrates (approvalId : String) (block : Payload) : Bool :=
  field block "type" = some "agent_approval" &&
    orNone (field block "approval_id") = some approvalId

/-- What is there stays, and the first block of an approval fills its place. -/
theorem get?_foldl_hydrateBlock (blocks : List Payload) (approvals : Dict String Payload)
    (approvalId : String) :
    (blocks.foldl hydrateBlock approvals).get? approvalId =
      (approvals.get? approvalId).or (blocks.find? (hydrates approvalId)) := by
  induction blocks generalizing approvals with
  | nil => simp
  | cons block rest ih =>
    rw [List.foldl_cons, ih, List.find?_cons]
    unfold hydrateBlock hydrates
    by_cases htype : field block "type" = some "agent_approval"
    · rw [if_pos htype]
      cases hid : orNone (field block "approval_id") with
      | none => simp
      | some blockId =>
        simp only [htype, decide_true, Bool.true_and]
        by_cases hsame : blockId = approvalId
        · subst hsame
          simp only [decide_true]
          cases hget : approvals.get? blockId with
          | none => simp [Dict.contains, hget]
          | some approval => simp [Dict.contains, hget]
        · have hne : approvalId ≠ blockId := fun h => hsame h.symm
          simp only [Option.some.injEq, hsame, decide_false]
          split
          · rfl
          · rw [Dict.get?_set_of_ne _ _ hne]
    · simp [htype]

theorem get?_ensureHydrated (s : System) (approvalId : String) :
    (ensureHydrated s).projector.approvals.get? approvalId =
      if s.projector.hydrated then s.projector.approvals.get? approvalId
      else (s.projector.approvals.get? approvalId).or
        (s.store.allBlocks.find? (hydrates approvalId)) := by
  unfold ensureHydrated
  split
  · rfl
  · exact get?_foldl_hydrateBlock _ _ _

theorem get?_ensureHydrated_of_some {s : System} {approvalId : String} {approval : Payload}
    (h : s.projector.approvals.get? approvalId = some approval) :
    (ensureHydrated s).projector.approvals.get? approvalId = some approval := by
  rw [get?_ensureHydrated, h]
  split <;> rfl

/-! ## §5 Agreement -/

/-- `get_approval` reports the approval as pending. -/
def ReportsPending (s : System) (approvalId : String) : Prop :=
  ∃ approval, (getApproval s approvalId).2 = some approval ∧ IsPending approval

/-- `list_approvals` lists the approval as pending. -/
def ListsPending (s : System) (limit : ℕ) (approvalId : String) : Prop :=
  ∃ approval, (approvalId, approval) ∈ (listApprovals s none limit).2 ∧ IsPending approval

/-- All approvals of the projector fit into the limit. -/
def Fits (s : System) (limit : ℕ) : Prop :=
  (ensureHydrated s).projector.approvals.entries.length ≤ limit

/-- A new projector and the running one report the same requested approvals as pending. -/
def AgreesWithRestart (s : System) : Prop :=
  ∀ approvalId ∈ s.requested,
    (ReportsPending (restart s) approvalId ↔ ReportsPending s approvalId) ∧
      ∀ limit, Fits (restart s) limit → Fits s limit →
        (ListsPending (restart s) limit approvalId ↔ ListsPending s limit approvalId)

theorem getApproval_of_get? {s : System} {approvalId : String} {approval : Payload}
    (h : (ensureHydrated s).projector.approvals.get? approvalId = some approval) :
    getApproval s approvalId = (ensureHydrated s, some approval) := by
  simp only [getApproval, h]

theorem reportsPending_iff {s : System} {approvalId : String} {approval : Payload}
    (h : (ensureHydrated s).projector.approvals.get? approvalId = some approval) :
    ReportsPending s approvalId ↔ IsPending approval := by
  unfold ReportsPending
  rw [getApproval_of_get? h]
  simp

theorem listsPending_iff {s : System} {approvalId : String} {approval : Payload} {limit : ℕ}
    (h : (ensureHydrated s).projector.approvals.get? approvalId = some approval)
    (hfits : Fits s limit) : ListsPending s limit approvalId ↔ IsPending approval := by
  have hall : ∀ e, e ∈ (listApprovals s none limit).2 ↔
      e ∈ (ensureHydrated s).projector.approvals.entries := by
    intro e
    simp only [listApprovals, orNone, Option.filter_none]
    rw [List.take_of_length_le (by rw [List.length_insertionSort]; exact hfits),
      List.mem_insertionSort]
  unfold ListsPending
  simp only [hall, ← Dict.get?_eq_some_iff, h, Option.some.injEq, exists_eq_left']

/-! ## §6 What the store and the projector keep -/

/-- Every requested approval is in the projector and has a block in the store; all blocks are
    pending, whatever became of their approvals. -/
structure Recorded (s : System) : Prop where
  block_pending : ∀ block ∈ s.store.allBlocks,
    field block "type" = some "agent_approval" ∧ IsPending block
  id_ne : ∀ approvalId ∈ s.requested, approvalId ≠ ""
  kept : ∀ approvalId ∈ s.requested,
    ∃ approval, s.projector.approvals.get? approvalId = some approval
  stored : ∀ approvalId ∈ s.requested,
    ∃ block ∈ s.store.allBlocks, field block "approval_id" = some approvalId

/-- Every requested approval is pending in the running projector. -/
def AllPending (s : System) : Prop :=
  ∀ approvalId ∈ s.requested,
    ∃ approval, s.projector.approvals.get? approvalId = some approval ∧ IsPending approval

/-- A requested approval is read back by a new projector, as pending. -/
theorem Recorded.get?_restart {s : System} (h : Recorded s) {approvalId : String}
    (hrequested : approvalId ∈ s.requested) :
    ∃ block, (ensureHydrated (restart s)).projector.approvals.get? approvalId = some block ∧
      IsPending block := by
  obtain ⟨stored, hstored, hid⟩ := h.stored approvalId hrequested
  have hne := h.id_ne approvalId hrequested
  have hhydrates : hydrates approvalId stored = true := by
    simp [hydrates, (h.block_pending stored hstored).1, hid, orNone, hne]
  have hread : (ensureHydrated (restart s)).projector.approvals.get? approvalId =
      s.store.allBlocks.find? (hydrates approvalId) := by
    rw [get?_ensureHydrated]
    rfl
  cases hfind : s.store.allBlocks.find? (hydrates approvalId) with
  | none => exact absurd hhydrates (List.find?_eq_none.mp hfind stored hstored)
  | some block =>
    exact ⟨block, hread.trans hfind, (h.block_pending block (List.mem_of_find?_eq_some hfind)).2⟩

/-- A new projector agrees with the running one as long as that one has every requested approval
    pending. -/
theorem Recorded.agreesWithRestart_iff {s : System} (h : Recorded s) :
    AgreesWithRestart s ↔ AllPending s := by
  constructor
  · intro hagrees approvalId hrequested
    obtain ⟨block, hblock, hblockPending⟩ := h.get?_restart hrequested
    obtain ⟨approval, hget⟩ := h.kept approvalId hrequested
    have hreports := (hagrees approvalId hrequested).1
    rw [reportsPending_iff hblock, reportsPending_iff (get?_ensureHydrated_of_some hget)]
      at hreports
    exact ⟨approval, hget, hreports.mp hblockPending⟩
  · intro hall approvalId hrequested
    obtain ⟨block, hblock, hblockPending⟩ := h.get?_restart hrequested
    obtain ⟨approval, hget, hpending⟩ := hall approvalId hrequested
    have hlive := get?_ensureHydrated_of_some hget
    constructor
    · rw [reportsPending_iff hblock, reportsPending_iff hlive]
      exact iff_of_true hblockPending hpending
    · intro limit hfits hfits'
      rw [listsPending_iff hblock hfits, listsPending_iff hlive hfits']
      exact iff_of_true hblockPending hpending

/-! ## §7 Requests and resolutions -/

theorem field_approvalBlock (approvalId : String) (payload : Payload) :
    field (approvalBlock approvalId payload) "type" = some "agent_approval" ∧
      field (approvalBlock approvalId payload) "approval_id" = some approvalId ∧
      field (approvalBlock approvalId payload) "status" = some "pending" :=
  ⟨rfl, rfl, rfl⟩

theorem get?_onApprovalRequested (s : System) (approvalId otherId : String)
    (payload : Option Payload) :
    (onApprovalRequested s approvalId payload).projector.approvals.get? otherId =
      if otherId = approvalId then some (withStatus ((nonEmpty payload).getD .empty))
      else s.projector.approvals.get? otherId :=
  Dict.get?_set _ _ _ _

theorem get?_onApprovalResolved (s : System) (approvalId otherId decision : String)
    (payload : Option Payload) (errorCode errorMessage : Option String) :
    (onApprovalResolved s approvalId decision payload errorCode
      errorMessage).projector.approvals.get? otherId =
      if otherId = approvalId then
        some (resolvedApproval
          ((s.projector.approvals.get? approvalId).getD
            (.ofList [("approval_id", some approvalId)]))
          decision payload errorCode errorMessage)
      else s.projector.approvals.get? otherId :=
  Dict.get?_set _ _ _ _

theorem Recorded.onApprovalRequested {s : System} (h : Recorded s) {approvalId : String}
    {payload : Option Payload} (hne : approvalId ≠ "")
    (hroom : s.store.HasRoom (resolveConversation payload)) :
    Recorded (Projection.onApprovalRequested s approvalId payload) := by
  obtain ⟨htype, hid, hstatus⟩ :=
    field_approvalBlock approvalId (withStatus ((nonEmpty payload).getD .empty))
  -- the block that is appended is the one of the request, and the others are as before
  refine ⟨?_, ?_, ?_, ?_⟩
  · intro block hblock
    rcases (ConversationStore.mem_allBlocks_append hroom).mp hblock with hblock | hblock
    · exact h.block_pending block hblock
    · rw [List.mem_singleton.mp hblock]
      refine ⟨htype, ?_⟩
      unfold IsPending
      rw [hstatus]
      decide
  · intro otherId hother
    rcases List.mem_cons.mp hother with rfl | hother
    · exact hne
    · exact h.id_ne otherId hother
  · intro otherId hother
    rw [get?_onApprovalRequested]
    split
    case isTrue => exact ⟨_, rfl⟩
    case isFalse hid =>
      rcases List.mem_cons.mp hother with hsame | hother
      · exact absurd hsame hid
      · exact h.kept otherId hother
  · intro otherId hother
    rcases List.mem_cons.mp hother with rfl | hother
    · exact ⟨_, (ConversationStore.mem_allBlocks_append hroom).mpr
        (.inr (List.mem_singleton.mpr rfl)), hid⟩
    · obtain ⟨block, hblock, hblockId⟩ := h.stored otherId hother
      exact ⟨block, (ConversationStore.mem_allBlocks_append hroom).mpr (.inl hblock), hblockId⟩

/-- A decision message has no blocks. -/
theorem mem_allBlocks_onApprovalResolved {s : System} (approvalId decision : String)
    {payload : Option Payload} {errorCode : Option String} (errorMessage : Option String)
    (hroom : (orNone errorCode).isSome = true ∨ s.store.HasRoom (resolveConversation payload))
    (block : Payload) :
    block ∈ (onApprovalResolved s approvalId decision payload errorCode
      errorMessage).store.allBlocks ↔ block ∈ s.store.allBlocks := by
  simp only [onApprovalResolved]
  split
  case isTrue => rfl
  case isFalse herror =>
    rw [ConversationStore.mem_allBlocks_append (hroom.resolve_left herror)]
    simp [MessagePayload.getBlocks]

theorem Recorded.onApprovalResolved {s : System} (h : Recorded s) (approvalId decision : String)
    {payload : Option Payload} {errorCode : Option String} (errorMessage : Option String)
    (hroom : (orNone errorCode).isSome = true ∨ s.store.HasRoom (resolveConversation payload)) :
    Recorded
      (Projection.onApprovalResolved s approvalId decision payload errorCode errorMessage) := by
  have hblocks := mem_allBlocks_onApprovalResolved approvalId decision errorMessage hroom
  refine ⟨?_, h.id_ne, ?_, ?_⟩
  · intro block hblock
    exact h.block_pending block ((hblocks block).mp hblock)
  · intro otherId hother
    rw [get?_onApprovalResolved]
    split
    case isTrue => exact ⟨_, rfl⟩
    case isFalse => exact h.kept otherId hother
  · intro otherId hother
    obtain ⟨block, hblock, hblockId⟩ := h.stored otherId hother
    exact ⟨block, (hblocks block).mpr hblock, hblockId⟩

/-- A request keeps all approvals pending when its own one is. -/
theorem allPending_onApprovalRequested {s : System} (h : AllPending s) (approvalId : String)
    (payload : Option Payload) :
    AllPending (onApprovalRequested s approvalId payload) ↔
      IsPendingStatus (some (requestedStatus payload)) := by
  constructor
  · intro hall
    obtain ⟨approval, hget, hpending⟩ := hall approvalId List.mem_cons_self
    rw [get?_onApprovalRequested, if_pos rfl] at hget
    rw [← field_withStatus, Option.some.inj hget]
    exact hpending
  · intro hpending otherId hother
    rw [get?_onApprovalRequested]
    split
    case isTrue =>
      refine ⟨_, rfl, ?_⟩
      unfold IsPending
      rw [field_withStatus]
      exact hpending
    case isFalse hid =>
      rcases List.mem_cons.mp hother with hsame | hother
      · exact absurd hsame hid
      · exact h otherId hother

/-- The resolution of a requested approval keeps all approvals pending when it leaves that one
    pending. -/
theorem allPending_onApprovalResolved {s : System} (h : AllPending s) {approvalId : String}
    (hid : approvalId ∈ s.requested) (decision : String) (payload : Option Payload)
    (errorCode errorMessage : Option String) :
    AllPending (onApprovalResolved s approvalId decision payload errorCode errorMessage) ↔
      IsPendingStatus (resolvedStatus decision payload errorCode) := by
  constructor
  · intro hall
    obtain ⟨approval, hget, hpending⟩ := hall approvalId hid
    rw [get?_onApprovalResolved, if_pos rfl] at hget
    rw [IsPending, ← Option.some.inj hget, field_resolvedApproval] at hpending
    exact hpending
  · intro hpending otherId hother
    rw [get?_onApprovalResolved]
    split
    case isTrue =>
      refine ⟨_, rfl, ?_⟩
      unfold IsPending
      rw [field_resolvedApproval]
      exact hpending
    case isFalse => exact h otherId hother

/-! ## §8 Look-ups -/

/-- A look-up writes nothing, or an approval that was not there. -/
theorem getApproval_cases (s : System) (approvalId : String) :
    (getApproval s approvalId).1 = ensureHydrated s ∨
      (ensureHydrated s).projector.approvals.get? approvalId = none ∧
        ∃ block, (getApproval s approvalId).1 =
          { ensureHydrated s with projector := { (ensureHydrated s).projector with
              approvals := (ensureHydrated s).projector.approvals.set approvalId block } } := by
  simp only [getApproval]
  split
  case h_1 => exact .inl rfl
  case h_2 hnone =>
    split
    case h_1 => exact .inl rfl
    case h_2 =>
      split
      case h_1 block _ => exact .inr ⟨hnone, block, rfl⟩
      case h_2 => exact .inl rfl

/-- The second state has the store, the requests and the events of the first, and every approval
    of it. -/
structure Extends (s s' : System) : Prop where
  store_eq : s'.store = s.store
  requested_eq : s'.requested = s.requested
  seenEventIds_eq : s'.projector.seenEventIds = s.projector.seenEventIds
  kept : ∀ approvalId approval, s.projector.approvals.get? approvalId = some approval →
    s'.projector.approvals.get? approvalId = some approval

theorem extends_ensureHydrated (s : System) : Extends s (ensureHydrated s) := by
  refine ⟨?_, ?_, ?_, fun _ _ => get?_ensureHydrated_of_some⟩
  all_goals
    unfold ensureHydrated
    split <;> rfl

theorem extends_getApproval (s : System) (approvalId : String) :
    Extends s (getApproval s approvalId).1 := by
  have hhydrated := extends_ensureHydrated s
  rcases getApproval_cases s approvalId with hsame | ⟨hnone, block, hwritten⟩
  · rw [hsame]
    exact hhydrated
  · rw [hwritten]
    refine ⟨hhydrated.store_eq, hhydrated.requested_eq, hhydrated.seenEventIds_eq, ?_⟩
    intro otherId approval hget
    have hne : otherId ≠ approvalId := by
      rintro rfl
      rw [get?_ensureHydrated_of_some hget] at hnone
      cases hnone
    exact (Dict.get?_set_of_ne _ _ hne).trans (hhydrated.kept otherId approval hget)

theorem Recorded.of_extends {s s' : System} (h : Recorded s) (hext : Extends s s') :
    Recorded s' := by
  refine ⟨?_, ?_, ?_, ?_⟩
  · rw [hext.store_eq]
    exact h.block_pending
  · rw [hext.requested_eq]
    exact h.id_ne
  · rw [hext.requested_eq]
    intro approvalId hid
    obtain ⟨approval, hget⟩ := h.kept approvalId hid
    exact ⟨approval, hext.kept approvalId approval hget⟩
  · rw [hext.requested_eq, hext.store_eq]
    exact h.stored

theorem AllPending.of_extends {s s' : System} (h : AllPending s) (hext : Extends s s') :
    AllPending s' := by
  unfold AllPending
  rw [hext.requested_eq]
  intro approvalId hid
  obtain ⟨approval, hget, hpending⟩ := h approvalId hid
  exact ⟨approval, hext.kept approvalId approval hget, hpending⟩

/-! ## §9 Runs -/

/-- An approval is requested under an id, and before it is resolved; the message of the event has
    room in its conversation. -/
def InRoom (s : System) : ApprovalEvent → Prop
  | .requested approvalId payload =>
    approvalId ≠ "" ∧ s.store.HasRoom (resolveConversation payload)
  | .resolved approvalId _ payload errorCode _ =>
    approvalId ∈ s.requested ∧
      ((orNone errorCode).isSome = true ∨ s.store.HasRoom (resolveConversation payload))

/-- The event leaves its approval pending. -/
def LeavesPending : ApprovalEvent → Prop
  | .requested _ payload => IsPendingStatus (some (requestedStatus payload))
  | .resolved _ decision payload errorCode _ =>
    IsPendingStatus (resolvedStatus decision payload errorCode)

/-- A condition on the events that are not repeated. -/
def OnNewEvent (P : System → ApprovalEvent → Prop) (s : System) : Op → Prop
  | .event e => e.id ∉ s.projector.seenEventIds → P s e.body
  | .getApproval _ => True
  | .listApprovals _ _ => True

/-- A repeated event id changes nothing. -/
theorem onEvent_of_mem {s : System} {e : Event} (h : e.id ∈ s.projector.seenEventIds) :
    onEvent s e = s := if_pos ⟨e.id_ne, h⟩

/-- The state in which a new event is dispatched. -/
def noteEvent (s : System) (e : Event) : System :=
  { s with projector := { s.projector with seenEventIds := e.id :: s.projector.seenEventIds } }

theorem onEvent_of_not_mem {s : System} {e : Event} (h : e.id ∉ s.projector.seenEventIds) :
    onEvent s e = dispatch (noteEvent s e) e.body := if_neg fun hrepeated => h hrepeated.2

theorem inRoom_noteEvent (s : System) (e : Event) (body : ApprovalEvent) :
    InRoom (noteEvent s e) body ↔ InRoom s body := by
  cases body <;> exact Iff.rfl

theorem Recorded.dispatch {s : System} (h : Recorded s) {body : ApprovalEvent}
    (hbody : InRoom s body) : Recorded (Projection.dispatch s body) := by
  cases body with
  | requested approvalId payload => exact h.onApprovalRequested hbody.1 hbody.2
  | resolved approvalId decision payload errorCode errorMessage =>
    exact h.onApprovalResolved approvalId decision errorMessage hbody.2

theorem Recorded.noteEvent {s : System} (h : Recorded s) (e : Event) :
    Recorded (Projection.noteEvent s e) := ⟨h.block_pending, h.id_ne, h.kept, h.stored⟩

theorem Recorded.step {s : System} {op : Op} (h : Recorded s) (hop : OnNewEvent InRoom s op) :
    Recorded (Projection.step s op) := by
  cases op with
  | event e =>
    show Recorded (onEvent s e)
    by_cases hseen : e.id ∈ s.projector.seenEventIds
    · rw [onEvent_of_mem hseen]
      exact h
    · rw [onEvent_of_not_mem hseen]
      exact (h.noteEvent e).dispatch ((inRoom_noteEvent s e e.body).mpr (hop hseen))
  | getApproval approvalId => exact h.of_extends (extends_getApproval s approvalId)
  | listApprovals status limit => exact h.of_extends (extends_ensureHydrated s)

theorem allPending_dispatch {s : System} (h : AllPending s) {body : ApprovalEvent}
    (hbody : InRoom s body) : AllPending (dispatch s body) ↔ LeavesPending body := by
  cases body with
  | requested approvalId payload => exact allPending_onApprovalRequested h approvalId payload
  | resolved approvalId decision payload errorCode errorMessage =>
    exact allPending_onApprovalResolved h hbody.1 decision payload errorCode errorMessage

/-- A step keeps all approvals pending when its event, if it is new, leaves its one pending. -/
theorem allPending_step {s : System} {op : Op} (h : AllPending s) (hop : OnNewEvent InRoom s op) :
    AllPending (step s op) ↔ OnNewEvent (fun _ => LeavesPending) s op := by
  cases op with
  | event e =>
    show AllPending (onEvent s e) ↔ (e.id ∉ s.projector.seenEventIds → LeavesPending e.body)
    by_cases hseen : e.id ∈ s.projector.seenEventIds
    · rw [onEvent_of_mem hseen]
      exact iff_of_true h fun hnew => absurd hseen hnew
    · rw [onEvent_of_not_mem hseen, imp_iff_right hseen]
      have hnoted : AllPending (noteEvent s e) := h
      exact allPending_dispatch hnoted ((inRoom_noteEvent s e e.body).mpr (hop hseen))
  | getApproval approvalId =>
    exact iff_of_true (h.of_extends (extends_getApproval s approvalId)) trivial
  | listApprovals status limit =>
    exact iff_of_true (h.of_extends (extends_ensureHydrated s)) trivial

theorem recorded_start (maxTurns : ℕ) : Recorded (start maxTurns) := by
  refine ⟨?_, ?_, ?_, ?_⟩
  · intro block hblock
    exact absurd hblock List.not_mem_nil
  all_goals
    intro approvalId hid
    exact absurd hid List.not_mem_nil

theorem allPending_start (maxTurns : ℕ) : AllPending (start maxTurns) := by
  intro approvalId hid
  exact absurd hid List.not_mem_nil

/-- The events of the operations so far were seen. -/
def SeenAll (s : System) (done : List Op) : Prop :=
  ∀ e, Op.event e ∈ done → e.id ∈ s.projector.seenEventIds

theorem seenEventIds_dispatch (s : System) (body : ApprovalEvent) :
    (dispatch s body).projector.seenEventIds = s.projector.seenEventIds := by
  cases body <;> rfl

theorem mem_seenEventIds_onEvent (s : System) (e : Event) :
    e.id ∈ (onEvent s e).projector.seenEventIds := by
  by_cases hseen : e.id ∈ s.projector.seenEventIds
  · rw [onEvent_of_mem hseen]
    exact hseen
  · rw [onEvent_of_not_mem hseen, seenEventIds_dispatch]
    exact List.mem_cons_self

/-- No step forgets an event. -/
theorem seenEventIds_subset_step (s : System) (op : Op) :
    s.projector.seenEventIds ⊆ (step s op).projector.seenEventIds := by
  cases op with
  | event e =>
    show _ ⊆ (onEvent s e).projector.seenEventIds
    unfold onEvent
    split
    case isTrue => exact List.Subset.refl _
    case isFalse =>
      rw [seenEventIds_dispatch]
      exact List.subset_cons_self _ _
  | getApproval approvalId =>
    show _ ⊆ (getApproval s approvalId).1.projector.seenEventIds
    rw [(extends_getApproval s approvalId).seenEventIds_eq]
    exact List.Subset.refl _
  | listApprovals status limit =>
    show _ ⊆ (ensureHydrated s).projector.seenEventIds
    rw [(extends_ensureHydrated s).seenEventIds_eq]
    exact List.Subset.refl _

theorem seenAll_run (maxTurns : ℕ) (ops : List Op) :
    SeenAll (run step (start maxTurns) ops) ops := by
  induction ops using List.reverseRecOn with
  | nil =>
    intro e he
    exact absurd he List.not_mem_nil
  | append_singleton done op ih =>
    intro e he
    rw [run_concat]
    rcases List.mem_append.mp he with he | he
    · exact seenEventIds_subset_step _ op (ih e he)
    · rw [← List.mem_singleton.mp he]
      exact mem_seenEventIds_onEvent _ e

/-- At every point of the run a new projector agrees with the running one, and the events so far
    change nothing when they come again. -/
def AgreesThroughout (maxTurns : ℕ) (ops : List Op) : Prop :=
  ∀ done, done <+: ops →
    AgreesWithRestart (run step (start maxTurns) done) ∧
      ∀ e, Op.event e ∈ done →
        onEvent (run step (start maxTurns) done) e = run step (start maxTurns) done

/-- **A new projector agrees with the running one** at every point of a run whose messages all have
    room, when no event leaves its approval in another status than pending, and only then.

    The stored block of a request stays pending; a decision is stored as a payload that the new
    projector does not read. -/
theorem restarted_agrees_iff_leavesPending (maxTurns : ℕ) (ops : List Op)
    (hroom : Along step (OnNewEvent InRoom) (start maxTurns) ops) :
    AgreesThroughout maxTurns ops ↔
      Along step (OnNewEvent fun _ => LeavesPending) (start maxTurns) ops := by
  have hrecorded : ∀ done, done <+: ops → Recorded (run step (start maxTurns) done) := by
    rintro done ⟨rest, rfl⟩
    exact run_invariant_along Recorded (fun _ _ h hop => h.step hop) (recorded_start maxTurns)
      (along_append.mp hroom).1
  -- the events so far were seen, so only the agreement is left
  have hagrees : AgreesThroughout maxTurns ops ↔
      ∀ done, done <+: ops → AllPending (run step (start maxTurns) done) := by
    constructor
    · intro h done hdone
      exact (hrecorded done hdone).agreesWithRestart_iff.mp (h done hdone).1
    · intro h done hdone
      refine ⟨(hrecorded done hdone).agreesWithRestart_iff.mpr (h done hdone), ?_⟩
      intro e he
      exact onEvent_of_mem (seenAll_run maxTurns done e he)
  rw [hagrees, forall_prefix_iff_along, and_iff_right (allPending_start maxTurns)]
  have halong := along_iff_of_invariant
    (P := fun s op => OnNewEvent InRoom s op ∧ AllPending (step s op))
    (Q := fun s op => OnNewEvent InRoom s op ∧ OnNewEvent (fun _ => LeavesPending) s op)
    AllPending
    (fun s op h => and_congr_right fun hop => allPending_step h hop)
    (fun s op h hop => (allPending_step h hop.1).mpr hop.2)
    (allPending_start maxTurns) ops
  rw [along_and, along_and, and_iff_right hroom, and_iff_right hroom] at halong
  exact halong

/-! ### An approved request -/

theorem request_id_ne : "request" ≠ "" := by decide

theorem approval_id_ne : "approval" ≠ "" := by decide

def requestEvent : Event where
  id := "request"
  id_ne := request_id_ne
  body := .requested "a1" (some (.ofList
    [("title", some "Widen the grid"), ("conversation_id", some "c1")]))

def approvalEvent : Event where
  id := "approval"
  id_ne := approval_id_ne
  body := .resolved "a1" "approve" (some (.ofList [("commit_hash", some "f00d")])) none none

/-- A request and two look-ups, with the request delivered twice. -/
def pendingRun : List Op :=
  [.event requestEvent, .getApproval "a1", .event requestEvent, .listApprovals none 10]

theorem pendingRun_inRoom : Along step (OnNewEvent InRoom) (start 200) pendingRun := by
  refine ⟨fun _ => ⟨by decide, by decide⟩, trivial, fun hnew => ?_, trivial, trivial⟩
  exact absurd (by decide) hnew

theorem pendingRun_leavesPending :
    Along step (OnNewEvent fun _ => LeavesPending) (start 200) pendingRun := by
  refine ⟨fun _ => ?_, trivial, fun hnew => ?_, trivial, trivial⟩
  · show IsPendingStatus _
    decide
  · exact absurd (by decide) hnew

theorem pendingRun_agrees : AgreesThroughout 200 pendingRun :=
  (restarted_agrees_iff_leavesPending 200 pendingRun pendingRun_inRoom).mpr
    pendingRun_leavesPending

def approvedRun : List Op := [.event requestEvent, .event approvalEvent]

/-- The running projector has the approval as `APPROVE`, a new one as `pending`. -/
theorem approvedRun_approvals :
    ((getApproval (run step (start 200) approvedRun) "a1").2.map fun a => field a "status") =
        some (some "APPROVE") ∧
      ((getApproval (restart (run step (start 200) approvedRun)) "a1").2.map fun a =>
        field a "status") = some (some "pending") := by
  decide +kernel

theorem approved_pending_again :
    Along step (OnNewEvent InRoom) (start 200) approvedRun ∧
      ReportsPending (restart (run step (start 200) approvedRun)) "a1" ∧
      ¬ReportsPending (run step (start 200) approvedRun) "a1" ∧
      ¬AgreesThroughout 200 approvedRun := by
  have hroom : Along step (OnNewEvent InRoom) (start 200) approvedRun :=
    ⟨fun _ => ⟨by decide, by decide⟩, fun _ => ⟨by decide, .inr (by decide)⟩, trivial⟩
  obtain ⟨hlive, hrestarted⟩ := approvedRun_approvals
  have hpending : ReportsPending (restart (run step (start 200) approvedRun)) "a1" := by
    obtain ⟨approval, hget, hstatus⟩ := Option.map_eq_some_iff.mp hrestarted
    refine ⟨approval, hget, ?_⟩
    unfold IsPending
    rw [hstatus]
    decide
  have hdecided : ¬ReportsPending (run step (start 200) approvedRun) "a1" := by
    rintro ⟨approval, hget, hstatus⟩
    rw [hget, Option.map_some] at hlive
    rw [IsPending, Option.some.inj hlive] at hstatus
    exact absurd hstatus (by decide)
  refine ⟨hroom, hpending, hdecided, fun hagrees => ?_⟩
  have hat := (hagrees approvedRun (List.prefix_refl _)).1 "a1" (by decide)
  exact hdecided (hat.1.mp hpending)

end CryptoTrading.Agent.Projection

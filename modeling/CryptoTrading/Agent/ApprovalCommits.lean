import CryptoTrading.Agent.Approvals
import CryptoTrading.Agent.ProposedChanges
import CryptoTrading.Vcs.BranchTips

/-!
# Approvals decided at once

Any number of `decide_approval` calls run interleaved, each on an approval of its own, with
whatever others do to the store of configurations in between.  A call reads the head and compares
it with the base of its approval; then it loads the configuration to validate the proposal, once
more for the catalog, and once more to apply it; and then it commits.  Each of these is a step of
its own.

The proposal is built anew from the approval, without a base, so that `apply_proposal_to_vcs` does
not compare the head again.  A commit is made on the commit that the base names exactly when the
head is still the one that was compared, and the base, which may be abbreviated, names no other.
-/

namespace CryptoTrading.Agent

open CryptoTrading.Lib Agent.Configuration Vcs

/-! ## §1 Calls and their phases -/

/-- What a call of `decide_approval` is about: the approval that it has found, with the parts of
    the request that go into the proposal, and the arguments. -/
structure DecisionCall (N : Type) where
  approval : Approval
  title : String
  changes : List (ConfigChange N)
  risks : List String
  expectedEffect : String
  action : String
  author : String

/-- The proposal that is built from an approval.  It has no base and no time of creation. -/
def DecisionCall.proposal {N : Type} (call : DecisionCall N) : ConfigurationProposal N where
  summary := call.title
  changes := call.changes
  risks := call.risks
  expectedEffect := call.expectedEffect
  baseCommitHash := none
  createdAt := none
  ttlSeconds := some 86400

/-- How far a call has got, with the approval and the head that it has compared. -/
inductive DecisionPhase (N V : Type) where
  | found
  | accepted (a : Approval) (head : String)
  | loaded (a : Approval) (head : String) (rawConfig : Json N)
  | validated (a : Approval) (head : String) (proposal : ConfigurationProposal N)
  | checked (a : Approval) (head : String) (proposal : ConfigurationProposal N)
  | patched (a : Approval) (head : String) (summary : String) (content : Config V)
  /-- The unit of work has found no row to lock, and has not written yet. -/
  | unlocked (a : Approval) (head : String) (summary : String) (content : Config V)
  | decided (a : Approval)
  | committed (a : Approval) (c : Commit)
  | failed (a : Approval)

/-- What the services use from elsewhere: a configuration of the store is checked out as a
    document, and what has been validated is committed as a configuration. -/
structure Service (N M V : Type) where
  py : Python N
  schema : Fields N
  model : TradingModel N M
  env : Env V
  toDict : Config V → Json N
  toConfig : M → Config V

section Steps

variable {N M V : Type} (sv : Service N M V)

/-- `load_raw_config`. -/
def Service.loadRawConfig (st : Store V) : Json N :=
  match st.checkout "HEAD" with
  | .ok content => sv.toDict content
  | .error _ => .object []

/-- `self._vcs.head("HEAD").hash`. -/
def headHash (st : Store V) : Option String :=
  match st.resolveCommitHash "HEAD" with
  | .ok hash => (st.commits.get? hash).map Commit.hash
  | .error _ => none

/-- The comparison of the base with the head. -/
def acceptBase (st : Store V) (a : Approval) : DecisionPhase N V :=
  match headHash st with
  | none => .failed a
  | some head =>
    if a.baseCommit ≠ "" ∧ ApprovalState.isCurrent a head = false then
      .decided { a with status := .expired }
    else .accepted (if a.baseCommit = "" then { a with baseCommit := head } else a) head

/-- The first checks of `apply_proposal_to_vcs`: the age of the proposal, and its base. -/
def passesChecks (st : Store V) (now : ℕ) (proposal : ConfigurationProposal N) : Bool :=
  let expired := match proposal.createdAt.filter (· ≠ 0), proposal.ttlSeconds.filter (· ≠ 0) with
    | some createdAt, some ttlSeconds => decide ((now : ℚ) - createdAt > ttlSeconds)
    | _, _ => false
  !expired &&
    match proposal.baseCommitHash.filter (· ≠ "") with
    | none => true
    | some base =>
      match st.resolveCommitHash "HEAD" with
      | .ok head => head = base
      | .error _ => false

/-- The end of the unit of work of the commit. -/
def endCommit (a : Approval) (st : Store V) :
    Except VcsError (Commit × Store V) → DecisionPhase N V × Store V
  | .ok (c, st') => (.committed { a with status := .approved } c, st')
  | .error _ => (.failed a, st)

/-- One step of a call, at the given time.

    The steps are those at which the call looks at the store, or writes to it.  Each carries what
    the call knows by then: the approval, the head that it has compared, and what it is about to
    commit. -/
def DecisionCall.step (call : DecisionCall N) (now : ℕ) :
    DecisionPhase N V × Store V → DecisionPhase N V × Store V
  | (.found, st) =>
    if call.approval.status ≠ .pending then (.failed call.approval, st)
    else if call.action = "reject" then
      (.decided { call.approval with status := .rejected }, st)
    else (acceptBase st call.approval, st)
  -- `_load_raw_config`
  | (.accepted a head, st) => (.loaded a head (sv.loadRawConfig st), st)
  | (.loaded a head rawConfig, st) =>
    -- the configuration is loaded again for the catalog
    match validateProposal sv.py sv.schema sv.model rawConfig (sv.loadRawConfig st)
      call.proposal with
    | none => (.failed a, st)
    | some (result, proposal) =>
      if result.valid then (.validated a head proposal, st)
      -- a proposal with errors cancels its approval
      else (.decided { a with status := .cancelled }, st)
  -- `apply_proposal_to_vcs`; the proposal carries no base of its own
  | (.validated a head proposal, st) =>
    if passesChecks st now proposal then (.checked a head proposal, st) else (.failed a, st)
  | (.checked a head proposal, st) =>
    let applied := applyProposal sv.py sv.model (sv.loadRawConfig st) proposal
    match (sv.model.validatePython applied.config).1 with
    | .ok m => (.patched a head proposal.summary (sv.toConfig m), st)
    | .error _ => (.failed a, st)
  -- the unit of work of the commit
  | (.patched a head summary content, st) =>
    if st.lockedRef Store.commitAliases "HEAD" = none then (.unlocked a head summary content, st)
    else endCommit a st (st.commit sv.env content call.author summary "HEAD" ⟨none, []⟩ now)
  | (.unlocked a _ summary content, st) =>
    -- the parent was read when there was no row
    endCommit a st (st.record sv.env content none call.author summary ⟨none, []⟩ now "HEAD")
  | (phase, st) => (phase, st)

end Steps

/-! ## §2 A call alone -/

section Alone

variable {N M V : Type} {sv : Service N M V}

/-- The decision that a phase is the end of. -/
def DecisionPhase.decision? : DecisionPhase N V → Option Decision
  | .decided a => some ⟨a, none⟩
  | .committed a c => some ⟨a, some c.hash⟩
  | _ => none

/-- How the proposal has fared, from the end of a call. -/
def DecisionPhase.outcome : DecisionPhase N V → ProposalOutcome
  | .decided _ => .invalid
  | .committed _ c => .applied c.hash
  | _ => .raises

/-- How a call ends whose base has been accepted. -/
inductive AcceptedEnd (a : Approval) : DecisionPhase N V → Prop where
  | failed : AcceptedEnd a (.failed a)
  | cancelled : AcceptedEnd a (.decided { a with status := .cancelled })
  | committed (c : Commit) : AcceptedEnd a (.committed { a with status := .approved } c)

theorem AcceptedEnd.iterate {a : Approval} {call : DecisionCall N} {now : ℕ}
    {p : DecisionPhase N V × Store V} (h : AcceptedEnd a p.1) (n : ℕ) :
    AcceptedEnd a ((call.step sv now)^[n] p).1 := by
  have hstuck : call.step sv now p = p := by
    obtain ⟨phase, st⟩ := p
    cases h <;> rfl
  rw [Function.iterate_fixed hstuck]
  exact h

theorem acceptedEnd_endCommit (a : Approval) (st : Store V)
    (result : Except VcsError (Commit × Store V)) :
    AcceptedEnd a (endCommit a st result : DecisionPhase N V × Store V).1 := by
  cases result with
  | ok made => exact .committed made.1
  | error e => exact .failed

variable (sv) in
/-- A call whose base has been accepted ends within six steps. -/
theorem acceptedEnd_of_accepted (call : DecisionCall N) (now : ℕ) (a : Approval) (head : String)
    (st : Store V) : AcceptedEnd a ((call.step sv now)^[6] (.accepted a head, st)).1 := by
  simp only [Function.iterate_succ_apply _ 5, DecisionCall.step]
  rw [Function.iterate_succ_apply]
  simp only [DecisionCall.step]
  -- the outcome of the validation
  split
  · exact AcceptedEnd.failed.iterate 4
  · split
    · rw [Function.iterate_succ_apply]
      simp only [DecisionCall.step]
      split
      · rw [Function.iterate_succ_apply]
        simp only [DecisionCall.step]
        split
        · -- the unit of work finds a row, or it writes in a step of its own
          rw [Function.iterate_succ_apply]
          simp only [DecisionCall.step]
          split
          · exact acceptedEnd_endCommit a st _
          · exact (acceptedEnd_endCommit a st _).iterate 1
        · exact AcceptedEnd.failed.iterate 2
      · exact AcceptedEnd.failed.iterate 3
    · exact AcceptedEnd.cancelled.iterate 4

/-- **A call that runs alone** decides what `resolve` decides, given how its proposal fares. -/
theorem resolve_of_alone (s : ApprovalState) (call : DecisionCall N) (now : ℕ) (st : Store V)
    (hpending : call.approval.status = .pending) (hhead : s.head = headHash st) :
    (s.resolve call.approval call.action
        ((call.step sv now)^[7] (.found, st)).1.outcome).decisions =
      s.decisions ++ ((call.step sv now)^[7] (.found, st)).1.decision?.toList := by
  -- a call that has decided or failed stays as it is
  have hdecided : ∀ a n, (call.step sv now)^[n] (.decided a, st) = (.decided a, st) :=
    fun a n => Function.iterate_fixed rfl n
  have hfailed : ∀ a n, (call.step sv now)^[n] (.failed a, st) = (.failed a, st) :=
    fun a n => Function.iterate_fixed rfl n
  rw [Function.iterate_succ_apply]
  unfold ApprovalState.resolve
  -- a rejection ends in one step, an acceptance with a head is followed to its end
  by_cases hreject : call.action = "reject"
  · have hstep : call.step sv now (.found, st) =
        (.decided { call.approval with status := .rejected }, st) := by
      simp [DecisionCall.step, hpending, hreject]
    rw [hstep, hdecided, if_pos hreject]
    rfl
  · have hstep : call.step sv now (.found, st) = (acceptBase st call.approval, st) := by
      simp [DecisionCall.step, hpending, hreject]
    rw [hstep, if_neg hreject, hhead, acceptBase]
    cases headHash st with
    | none =>
      simp only [hfailed]
      exact (List.append_nil _).symm
    | some head =>
      dsimp only
      by_cases hbase : call.approval.baseCommit ≠ "" ∧
          ApprovalState.isCurrent call.approval head = false
      · rw [if_pos hbase, if_pos hbase, hdecided]
        rfl
      · rw [if_neg hbase, if_neg hbase]
        generalize (if call.approval.baseCommit = "" then
          { call.approval with baseCommit := head } else call.approval) = a
        have hend := acceptedEnd_of_accepted sv call now a head st
        generalize ((call.step sv now)^[6] (.accepted a head, st)).1 = final at hend ⊢
        cases hend with
        | failed => exact (List.append_nil _).symm
        | cancelled => rfl
        | committed c => rfl

end Alone

/-! ## §3 What others do to the store -/

section Others

variable {V : Type}

/-- A commit that is stored stays as it is. -/
def KeepsCommits (st st' : Store V) : Prop :=
  ∀ k c, st.commits.get? k = some c → st'.commits.get? k = some c

theorem keepsCommits_refl (st : Store V) : KeepsCommits st st := fun _ _ h => h

theorem keepsCommits_recorded {env : Env V} {st st' : Store V} {content : Config V}
    {parentHash : Option String} {metadata : Metadata} {ref : String} {c : Commit}
    (h : Store.Recorded env st content parentHash metadata ref c st') : KeepsCommits st st' := by
  intro k c' hc'
  exact h.commit_kept hc'

/-- What only moves references keeps the commits. -/
theorem keepsCommits_of_eq {st st' : Store V} (h : st'.commits = st.commits) :
    KeepsCommits st st' := by
  intro k c hc
  rw [h, hc]

/-- A step of somebody else: it never takes a commit away. -/
structure OtherStep (V : Type) where
  apply : Store V → Store V
  keeps : ∀ st, KeepsCommits st (apply st)

variable [DecidableEq V] (env : Env V)

theorem keepsCommits_step (st : Store V) (op : StoreOp V) :
    KeepsCommits st (StoreOp.step env st op) := by
  apply attempt_invariant (KeepsCommits st) (keepsCommits_refl st)
  intro st' happly
  obtain ⟨made, h⟩ := perform_of_apply happly
  cases performed_of_perform h with
  | commit hrecorded => exact keepsCommits_recorded hrecorded
  | seeded hlock hrecorded => exact keepsCommits_recorded hrecorded
  | seededBefore hlock =>
    split
    · exact keepsCommits_of_eq rfl
    · exact keepsCommits_refl st
  | reset hresolve | branch hresolve => exact keepsCommits_of_eq rfl
  | merge hsource htarget hcontent hmetadata hrecorded => exact keepsCommits_recorded hrecorded

/-- An operation on the store. -/
def OtherStep.ofOp (op : StoreOp V) : OtherStep V :=
  ⟨fun st => StoreOp.step env st op, fun st => keepsCommits_step env st op⟩

omit [DecidableEq V] in
theorem keepsCommits_finish (st : Store V) {result : Except VcsError (Commit × Store V)}
    (h : ∀ c st', result = .ok (c, st') → KeepsCommits st st') :
    KeepsCommits st (finish st result).2 := by
  cases result with
  | error e => exact keepsCommits_refl st
  | ok made => exact h made.1 made.2 rfl

/-- A step of a commit or a merge that runs interleaved. -/
theorem keepsCommits_call (call : BranchCall V) (phase : Phase V) (now : ℕ) (st : Store V) :
    KeepsCommits st (call.step env st now phase).2 := by
  have hmerge : ∀ args sh th content, KeepsCommits st
      (finish st (st.recordMerge env args sh th content now)).2 := by
    intro args sh th content
    apply keepsCommits_finish
    intro c st' hok
    exact keepsCommits_recorded (Store.recorded_of_record hok)
  -- only the phases that write a commit change the store
  cases phase with
  | start =>
    cases call with
    | commit content author message ref metadata =>
      simp only [BranchCall.step]
      split
      · exact keepsCommits_refl st
      · apply keepsCommits_finish
        intro c st' hok
        exact keepsCommits_recorded (Store.recorded_of_record hok)
    | merge args => exact keepsCommits_refl st
  | sourceRead s => cases call <;> exact keepsCommits_refl st
  | targetRead s t =>
    cases call with
    | commit content author message ref metadata => exact keepsCommits_refl st
    | merge args =>
      simp only [BranchCall.step]
      split <;> exact keepsCommits_refl st
  | previewing s t seen =>
    rw [show (call.step env st now (.previewing s t seen)).2 = st from
      (previewStep_spec st s t call.ref seen).2]
    exact keepsCommits_refl st
  | ready s t content =>
    cases call with
    | commit content' author message ref metadata => exact keepsCommits_refl st
    | merge args =>
      simp only [BranchCall.step]
      split
      · exact keepsCommits_refl st
      · apply keepsCommits_finish
        intro c st' hok
        obtain ⟨-, metadata, -, hrecorded⟩ := Store.recorded_of_mergeWrite hok
        exact keepsCommits_recorded hrecorded
  | unlockedCommit =>
    cases call with
    | commit content author message ref metadata =>
      apply keepsCommits_finish
      intro c st' hok
      exact keepsCommits_recorded (Store.recorded_of_record hok)
    | merge args => exact keepsCommits_refl st
  | unlockedMerge s t content =>
    cases call with
    | commit content' author message ref metadata => exact keepsCommits_refl st
    | merge args => exact hmerge args s t content
  | done c => exact keepsCommits_refl st
  | failed e => exact keepsCommits_refl st

def OtherStep.ofCall (call : BranchCall V) (phase : Phase V) (now : ℕ) : OtherStep V :=
  ⟨fun st => (call.step env st now phase).2, keepsCommits_call env call phase now⟩

end Others

/-! ## §4 Interleaved calls -/

section Runs

variable {N M V : Type} {ι : Type} [DecidableEq ι] (sv : Service N M V) (calls : ι → DecisionCall N)

/-- The store and the phases of all calls. -/
structure Deciding (ι N V : Type) where
  store : Store V
  phases : ι → DecisionPhase N V

/-- A call takes its next step, at the given time, or somebody else does something. -/
inductive DecisionTick (ι V : Type) where
  | decide (i : ι) (now : ℕ)
  | other (step : OtherStep V)

def Deciding.step (s : Deciding ι N V) : DecisionTick ι V → Deciding ι N V
  | .decide i now =>
    let (phase, store) := (calls i).step sv now (s.phases i, s.store)
    ⟨store, Function.update s.phases i phase⟩
  | .other o => { s with store := o.apply s.store }

/-- All calls have found their approvals. -/
def Deciding.initial (st : Store V) : Deciding ι N V := ⟨st, fun _ => .found⟩

/-- The hash is the only one of a stored commit that the base of the approval names, by the
    comparison that the code makes. -/
structure OnlyNamed (st : Store V) (a : Approval) (hash : String) : Prop where
  stored : ∃ k c, st.commits.get? k = some c ∧ c.hash = hash
  named : ApprovalState.isCurrent a hash = true
  only : ∀ k c, st.commits.get? k = some c → ApprovalState.isCurrent a c.hash = true →
    c.hash = hash

/-- The step makes a commit for an approval. -/
def Commits (s : Deciding ι N V) (i : ι) (now : ℕ) (a : Approval) (c : Commit) : Prop :=
  (s.step sv calls (.decide i now)).phases i = .committed a c ∧
    ∀ a' c', s.phases i ≠ .committed a' c'

/-- A commit that the step makes is a child of the commit that the base names. -/
def CommitsOnBase (s : Deciding ι N V) : DecisionTick ι V → Prop
  | .decide i now => ∀ a c, Commits sv calls s i now a c →
    ∃ parent, c.parentHash = some parent ∧ OnlyNamed s.store a parent
  | .other _ => True

/-- When the step makes a commit, the head is still the one that the call has compared with the
    base, and the base names no other commit. -/
def HeadUnmoved (s : Deciding ι N V) : DecisionTick ι V → Prop
  | .decide i now => ∀ a c, Commits sv calls s i now a c →
    ∃ a₀ head summary content, s.phases i = .patched a₀ head summary content ∧
      s.store.lockedRef Store.commitAliases "HEAD" = some head ∧
      ∀ k c', s.store.commits.get? k = some c' → ApprovalState.isCurrent a₀ c'.hash = true →
        c'.hash = head
  | .other _ => True

/-- The approval and the head that a call has compared. -/
def DecisionPhase.compared? : DecisionPhase N V → Option (Approval × String)
  | .accepted a head | .loaded a head _ | .validated a head _ | .checked a head _ => some (a, head)
  | .patched a head _ _ | .unlocked a head _ _ => some (a, head)
  | _ => none

/-- The head that a call has compared is that of a stored commit, and the base names it. -/
def Compared (st : Store V) (a : Approval) (head : String) : Prop :=
  ApprovalState.isCurrent a head = true ∧ ∃ k c, st.commits.get? k = some c ∧ c.hash = head

theorem Compared.kept {st st' : Store V} {a : Approval} {head : String} (h : Compared st a head)
    (hkept : KeepsCommits st st') : Compared st' a head := by
  obtain ⟨hcurrent, k, c, hc, heq⟩ := h
  exact ⟨hcurrent, k, c, hkept k c hc, heq⟩

/-- What a step of a call can do: it reads on, or it commits on what it has locked. -/
inductive DecisionOutcome (env : Env V) (st : Store V) (phase : DecisionPhase N V) :
    DecisionPhase N V × Store V → Prop where
  | reads {phase' : DecisionPhase N V}
      (hcommitted : ∀ a c, phase' = .committed a c → phase = .committed a c)
      (hcompared : ∀ a head, phase'.compared? = some (a, head) →
        phase.compared? = some (a, head) ∨ Compared st a head) :
      DecisionOutcome env st phase (phase', st)
  | commits {a : Approval} {head summary parent : String} {content : Config V} {c : Commit}
      {st' : Store V} (hphase : phase = .patched a head summary content)
      (hlock : st.lockedRef Store.commitAliases "HEAD" = some parent)
      (hrecorded : Store.Recorded env st content (some parent) ⟨none, []⟩ "HEAD" c st') :
      DecisionOutcome env st phase (.committed { a with status := .approved } c, st')
  | commitsUnlocked {a : Approval} {head summary : String} {content : Config V} {c : Commit}
      {st' : Store V} (hphase : phase = .unlocked a head summary content)
      (hrecorded : Store.Recorded env st content none ⟨none, []⟩ "HEAD" c st') :
      DecisionOutcome env st phase (.committed { a with status := .approved } c, st')

variable {sv} {calls}

/-- What the comparison comes to.  What it accepts is named by the base. -/
theorem acceptBase_cases (st : Store V) (a : Approval) :
    (acceptBase st a : DecisionPhase N V) = .failed a ∨
      (acceptBase st a : DecisionPhase N V) = .decided { a with status := .expired } ∨
      ∃ a' head, (acceptBase st a : DecisionPhase N V) = .accepted a' head ∧
        Compared st a' head := by
  unfold acceptBase
  cases hhead : headHash st with
  | none => exact Or.inl rfl
  | some head =>
    -- the head is that of a stored commit
    have hstored : ∃ k c, st.commits.get? k = some c ∧ c.hash = head := by
      unfold headHash at hhead
      split at hhead
      · rename_i hash hresolve
        obtain ⟨c, hc, heq⟩ := Option.map_eq_some_iff.mp hhead
        exact ⟨hash, c, hc, heq⟩
      · cases hhead
    by_cases hbase : a.baseCommit = ""
    · -- an approval without a base gets the head as its base
      refine Or.inr (Or.inr ⟨{ a with baseCommit := head }, head, by simp [hbase], ?_, hstored⟩)
      simp [ApprovalState.isCurrent]
    · cases hcurrent : ApprovalState.isCurrent a head with
      | false => exact Or.inr (Or.inl (by simp [hbase, hcurrent]))
      | true => exact Or.inr (Or.inr ⟨a, head, by simp [hbase, hcurrent], hcurrent, hstored⟩)

variable (sv) in
/-- **Every step of a call reads, or commits on what it has locked.** -/
theorem decisionOutcome (call : DecisionCall N) (now : ℕ) (phase : DecisionPhase N V)
    (st : Store V) : DecisionOutcome sv.env st phase (call.step sv now (phase, st)) := by
  -- a phase that has compared nothing and committed nothing
  have hends : ∀ phase' : DecisionPhase N V, (∀ a c, phase' ≠ .committed a c) →
      phase'.compared? = none → DecisionOutcome sv.env st phase (phase', st) := by
    intro phase' hnot hnone
    refine .reads (fun a c h => absurd h (hnot a c)) fun a head h => ?_
    rw [hnone] at h
    cases h
  cases phase with
  | found =>
    -- a stale or rejected approval ends here; else the head is compared with its base
    simp only [DecisionCall.step]
    split
    · exact hends _ (by simp) rfl
    · split
      · exact hends _ (by simp) rfl
      · rcases acceptBase_cases (N := N) st
          call.approval with heq | heq | ⟨a', head', heq, hcompared⟩
        · rw [heq]
          exact hends _ (by simp) rfl
        · rw [heq]
          exact hends _ (by simp) rfl
        · rw [heq]
          refine .reads (by simp) fun a head h => ?_
          obtain ⟨rfl, rfl⟩ := Prod.mk.inj (Option.some.inj h)
          exact Or.inr hcompared
  -- what follows keeps the comparison and reads
  | accepted a head => exact .reads (by simp) fun _ _ h => Or.inl h
  | loaded a head rawConfig =>
    simp only [DecisionCall.step]
    split
    · exact hends _ (by simp) rfl
    · split
      · exact .reads (by simp) fun _ _ h => Or.inl h
      · exact hends _ (by simp) rfl
  | validated a head proposal =>
    simp only [DecisionCall.step]
    split
    · exact .reads (by simp) fun _ _ h => Or.inl h
    · exact hends _ (by simp) rfl
  | checked a head proposal =>
    simp only [DecisionCall.step]
    split
    · exact .reads (by simp) fun _ _ h => Or.inl h
    · exact hends _ (by simp) rfl
  | patched a head summary content =>
    -- the unit of work of the commit locks the row of the head
    simp only [DecisionCall.step]
    split
    · exact .reads (by simp) fun _ _ h => Or.inl h
    · rename_i hlock
      obtain ⟨parent, hparent⟩ := Option.ne_none_iff_exists'.mp hlock
      cases hresult : st.commit sv.env content call.author summary "HEAD" ⟨none, []⟩ now with
      | error e => exact hends _ (by simp) rfl
      | ok made =>
        have hrecorded := Store.recorded_of_record hresult
        rw [hparent] at hrecorded
        exact .commits rfl hparent hrecorded
  | unlocked a head summary content =>
    -- no row was locked, and the commit is made all the same
    simp only [DecisionCall.step]
    cases hresult : st.record sv.env content none call.author summary ⟨none, []⟩ now "HEAD" with
    | error e => exact hends _ (by simp) rfl
    | ok made => exact .commitsUnlocked rfl (Store.recorded_of_record hresult)
  | decided a => exact hends _ (by simp) rfl
  | committed a c => exact .reads (fun _ _ h => h) fun _ _ h => Or.inl h
  | failed a => exact hends _ (by simp) rfl

end Runs

/-! ## §5 Commits on the base -/

section Exact

variable {N M V : Type} {ι : Type} [DecidableEq ι] {sv : Service N M V}
  {calls : ι → DecisionCall N}

/-- Every head that a call has compared is that of a stored commit that the base names. -/
def ComparedInv (s : Deciding ι N V) : Prop :=
  ∀ i a head, (s.phases i).compared? = some (a, head) → Compared s.store a head

theorem comparedInv_step {s : Deciding ι N V} (hs : ComparedInv s) (tick : DecisionTick ι V) :
    ComparedInv (s.step sv calls tick) := by
  cases tick with
  | other o =>
    intro i a head h
    exact (hs i a head h).kept (o.keeps s.store)
  | decide i now =>
    have houtcome := decisionOutcome sv (calls i) now (s.phases i) s.store
    intro j a head h
    simp only [Deciding.step] at h ⊢
    generalize (calls i).step sv now (s.phases i, s.store) = result at h houtcome ⊢
    -- the store keeps its commits, and the other calls are where they were
    have hkept : KeepsCommits s.store result.2 := by
      cases houtcome with
      | reads => exact keepsCommits_refl _
      | commits hphase hlock hrecorded => exact keepsCommits_recorded hrecorded
      | commitsUnlocked hphase hrecorded => exact keepsCommits_recorded hrecorded
    by_cases hji : j = i
    · subst hji
      rw [Function.update_self] at h
      cases houtcome with
      | reads hcommitted hcompared =>
        rcases hcompared a head h with hold | hnew
        · exact hs j a head hold
        · exact hnew
      | commits | commitsUnlocked => cases h
    · rw [Function.update_of_ne hji] at h
      exact (hs j a head h).kept hkept

/-- In a state that has compared heads only, a step commits on the base exactly when the head is
    the one that was compared. -/
theorem commitsOnBase_iff {s : Deciding ι N V} (hs : ComparedInv s) (tick : DecisionTick ι V) :
    CommitsOnBase sv calls s tick ↔ HeadUnmoved sv calls s tick := by
  cases tick with
  | other o => exact Iff.rfl
  | decide i now =>
    have houtcome := decisionOutcome sv (calls i) now (s.phases i) s.store
    -- the same for each commit
    apply forall₂_congr
    intro a c
    apply forall_congr'
    rintro ⟨hcommitted, hnew⟩
    simp only [Deciding.step, Function.update_self] at hcommitted
    generalize (calls i).step sv now (s.phases i, s.store) = result at hcommitted houtcome
    cases houtcome with
    | reads hbefore hcompared => exact absurd (hbefore a c hcommitted) (hnew a c)
    | @commits a₀ head summary parent content c₀ st' hphase hlock hrecorded =>
      obtain ⟨rfl, rfl⟩ := DecisionPhase.committed.inj hcommitted
      have hcompared : Compared s.store a₀ head := hs i a₀ head (by rw [hphase]; rfl)
      constructor
      · rintro ⟨parent', hparent', hstored, hnamed, honly⟩
        obtain rfl : parent = parent' :=
          Option.some.inj (hrecorded.parentHash_eq.symm.trans hparent')
        -- the head that was compared is a stored commit that the base names
        obtain ⟨hcurrent, k, c', hc', rfl⟩ := hcompared
        obtain rfl : c'.hash = parent := honly k c' hc' hcurrent
        exact ⟨a₀, _, summary, content, hphase, hlock, honly⟩
      · rintro ⟨a₁, head', summary', content', hphase', hlock', honly⟩
        obtain ⟨rfl, rfl, -, -⟩ := DecisionPhase.patched.inj (hphase.symm.trans hphase')
        obtain rfl := Option.some.inj (hlock.symm.trans hlock')
        exact ⟨_, hrecorded.parentHash_eq, hcompared.2, hcompared.1, honly⟩
    | commitsUnlocked hphase hrecorded =>
      obtain ⟨rfl, rfl⟩ := DecisionPhase.committed.inj hcommitted
      -- such a commit has no parent
      constructor
      · rintro ⟨parent, hparent, -⟩
        rw [hrecorded.parentHash_eq] at hparent
        cases hparent
      · rintro ⟨a₁, head', summary', content', hphase', -⟩
        rw [hphase] at hphase'
        cases hphase'

omit [DecidableEq ι] in
theorem comparedInv_initial (st : Store V) :
    ComparedInv (Deciding.initial st : Deciding ι N V) := by
  intro i a head h
  cases h

/-- **Every commit is made on the base of its approval**, in any interleaving of decisions with each
    other and with the steps of others, exactly when at each commit the head is still the one that
    was compared and the base names no other commit.

    The comparison and the commit are steps apart, and the proposal handed on carries no base of its
    own; the row lock of the commit only makes it take whatever head it finds. -/
theorem commits_on_base_iff (st : Store V) (ticks : List (DecisionTick ι V)) :
    Along (Deciding.step sv calls) (CommitsOnBase sv calls) (Deciding.initial st) ticks ↔
      Along (Deciding.step sv calls) (HeadUnmoved sv calls) (Deciding.initial st) ticks := by
  apply along_iff_of_invariant ComparedInv
  · intro s tick hs
    exact commitsOnBase_iff hs tick
  · intro s tick hs _
    exact comparedInv_step hs tick
  · exact comparedInv_initial st

end Exact

/-! ## §6 Two approvals on one base -/

/-- A model of the quantity of a configuration without assets. -/
def quantityModel : TradingModel ℚ String where
  validate config :=
    match getValue samplePython config "dynamic_quantity" with
    | .string quantity => .ok quantity
    | input => .error ⟨[⟨[.name "dynamic_quantity"], "string_type",
        "Input should be a valid string", input⟩], by simp⟩
  dump quantity := .object [("assets", .list []), ("dynamic_quantity", .string quantity)]

def quantityService : Service ℚ String Scalar where
  py := samplePython
  schema := sampleSchema
  model := quantityModel
  env := sampleEnv
  toDict content :=
    match content.settings.look none "dynamic_quantity" with
    | some (.text quantity) => quantityModel.dump quantity
    | _ => .object [("assets", .list [])]
  toConfig := quantityConfig

/-- An approval of a new quantity, requested when the head was the first commit. -/
def quantityApproval (id quantity : String) : DecisionCall ℚ where
  approval := ⟨id, id, none, none, "#r", none, .pending⟩
  title := id
  changes := [sampleChange "dynamic_quantity" (.string quantity)]
  risks := []
  expectedEffect := ""
  action := "approve"
  author := "user"

def quantityCalls : Fin 2 → DecisionCall ℚ
  | 0 => quantityApproval "a" "2"
  | 1 => quantityApproval "b" "3"

def quantityStore : Store Scalar :=
  run (StoreOp.step sampleEnv) Store.empty [commitOp "1" "r" "HEAD"]

/-- Both approvals compare the head; then the first commits, and the second is about to. -/
def bothCompared : List (DecisionTick (Fin 2) Scalar) :=
  [.decide 0 0, .decide 1 0] ++ List.replicate 5 (.decide 0 0) ++ List.replicate 4 (.decide 1 0)

/-- The commit of the second approval, whose base is the first commit of the store, is made on the
    commit of the first approval. -/
theorem second_approval_combined :
    (run (Deciding.step quantityService quantityCalls) (Deciding.initial quantityStore)
        (bothCompared ++ [.decide 1 0])).phases 1 =
      .committed ⟨"b", "b", none, none, "#r", none, .approved⟩
        ⟨"#b", "blob 3", some "#a", "user", "b", ⟨none, []⟩, 0⟩ ∧
    ¬ Along (Deciding.step quantityService quantityCalls)
      (CommitsOnBase quantityService quantityCalls) (Deciding.initial quantityStore)
      (bothCompared ++ [.decide 1 0]) := by
  have hcommitted : (run (Deciding.step quantityService quantityCalls)
      (Deciding.initial quantityStore) (bothCompared ++ [.decide 1 0])).phases 1 =
      .committed ⟨"b", "b", none, none, "#r", none, .approved⟩
        ⟨"#b", "blob 3", some "#a", "user", "b", ⟨none, []⟩, 0⟩ := by rfl
  refine ⟨hcommitted, fun halong => ?_⟩
  obtain ⟨-, hbase, -⟩ := along_append.mp halong
  have hpatched : ∃ a head summary content, (run (Deciding.step quantityService quantityCalls)
      (Deciding.initial quantityStore) bothCompared).phases 1 =
        .patched a head summary content := ⟨_, _, _, _, rfl⟩
  obtain ⟨a, head, summary, content, hpatched⟩ := hpatched
  rw [run_append] at hcommitted
  obtain ⟨parent, hparent, honly⟩ := hbase _ _ ⟨hcommitted, by simp [hpatched]⟩
  obtain rfl := Option.some.inj hparent
  -- the base does not name the parent
  have hnamed := honly.named
  revert hnamed
  decide +kernel

end CryptoTrading.Agent

import CryptoTrading.Vcs.MainAliases

/-!
# Concurrent commits and merges on one branch

Any number of `commit` and `merge` calls run interleaved.  Every read of a `merge` outside its
unit of work is a step of its own, so that the store can change between any two of them.  The
unit of work that reads and moves the reference is one step when it finds a row to lock; when
there is none, its read and its write are two steps.

As long as every call names the branch by the name of a row, no update is lost: each commit
has the tip that it replaces as its parent, and it stays an ancestor of the tip.
-/

namespace CryptoTrading.Vcs

open CryptoTrading.Lib Store

variable {V : Type} [DecidableEq V]

/-! ## §1 Calls and their phases -/

/-- A call, with its arguments. -/
inductive BranchCall (V : Type) where
  | commit (content : Config V) (author message ref : String) (metadata : Metadata)
  | merge (args : MergeArgs V)

/-- The name under which the call writes. -/
def BranchCall.ref : BranchCall V → String
  | .commit _ _ _ ref _ => ref
  | .merge args => args.targetRef

/-- How far the preview of a merge has read. -/
inductive PreviewRead (V : Type) where
  | source (source : String)
  | target (source target : String)
  | base (source target base : String)
  | baseConfig (source target : String) (base : Config V)
  | oursConfig (source : String) (base ours : Config V)

/-- How far a call has got.  A merge carries the hashes it has resolved for itself. -/
inductive Phase (V : Type) where
  | start
  | sourceRead (sourceHash : String)
  | targetRead (sourceHash targetHash : String)
  | previewing (sourceHash targetHash : String) (seen : PreviewRead V)
  | ready (sourceHash targetHash : String) (content : Config V)
  /-- The unit of work has found no row to lock, and has not written yet. -/
  | unlockedCommit
  | unlockedMerge (sourceHash targetHash : String) (content : Config V)
  | done (c : Commit)
  | failed (e : VcsError)

section Steps

variable (env : Env V)

/-- The end of a unit of work. -/
def finish (st : Store V) : Except VcsError (Commit × Store V) → Phase V × Store V
  | .ok (c, st') => (.done c, st')
  | .error e => (.failed e, st)

/-- A failure ends the call. -/
def Phase.ofResult {α : Type} (next : α → Phase V) : Except VcsError α → Phase V
  | .ok a => next a
  | .error e => .failed e

/-- A read leaves the store as it is. -/
def readStep {α : Type} (st : Store V) (result : Except VcsError α) (next : α → Phase V) :
    Phase V × Store V :=
  (Phase.ofResult next result, st)

omit [DecidableEq V] in
@[simp] theorem readStep_ok {α : Type} (st : Store V) (a : α) (next : α → Phase V) :
    readStep st (.ok a) next = (next a, st) := rfl

/-- The merge has its configuration, which is validated. -/
def settle (sourceHash targetHash : String) (config : Config V) : Phase V :=
  Phase.ofResult (.ready sourceHash targetHash) (validated env config)

/-- One read of the preview of a merge. -/
def previewStep (st : Store V) (s t : String) (targetRef : String) :
    PreviewRead V → Phase V × Store V
  | .source source =>
    readStep st (st.previewTarget targetRef) fun target => .previewing s t (.target source target)
  | .target source target =>
    readStep st (st.findMergeBase target source) fun found =>
      .previewing s t (.base source target ((found.filter fun h => h ≠ "").getD target))
  -- without a merge base the target stands in for it
  | .base source target base =>
    if source = target then readStep st (st.checkout source) (settle env s t)
    else readStep st (st.checkout base) fun config =>
      .previewing s t (.baseConfig source target config)
  | .baseConfig source target base =>
    readStep st (st.checkout target) fun ours => .previewing s t (.oursConfig source base ours)
  | .oursConfig source base ours =>
    readStep st (st.checkout source) fun theirs =>
      let (merged, conflicts) := SemanticMergeEngine.merge env.str env.upper base ours theirs
      -- a merge without a resolved configuration must have no conflicts
      if conflicts ≠ [] then .failed (.unresolvedConflicts conflicts.length)
      else settle env s t merged

/-- One step of a call: one read outside a unit of work, or the unit of work as a whole.

    A commit has nothing but its unit of work.  A merge resolves source and target, settles its
    configuration read by read, and then writes. -/
def BranchCall.step (call : BranchCall V) (st : Store V) (now : ℕ) :
    Phase V → Phase V × Store V
  | .start =>
    match call with
    | .commit content author message ref metadata =>
      -- a commit reads nothing before its unit of work
      if st.lockedRef commitAliases ref = none then (.unlockedCommit, st)
      else finish st (st.commit env content author message ref metadata now)
    | .merge args => readStep st (st.resolveCommitHash args.source) .sourceRead
  | .sourceRead s =>
    match call with
    | .commit .. => (.sourceRead s, st)
    | .merge args =>
      readStep st (st.resolveCommitHash args.targetRef) fun t =>
        Phase.ofResult (fun _ => .targetRead s t) (checkExpectedHead args t)
  | .targetRead s t =>
    match call with
    | .commit .. => (.targetRead s t, st)
    | .merge args =>
      match args.resolvedConfig with
      -- a resolved configuration needs no preview
      | some config => (settle env s t config, st)
      | none =>
        readStep st (st.resolveCommitHash args.source) fun source =>
          .previewing s t (.source source)
  -- the preview resolves source and target for itself
  | .previewing s t seen => previewStep env st s t call.ref seen
  | .ready s t content =>
    match call with
    | .commit .. => (.ready s t content, st)
    | .merge args =>
      -- the recheck of the target is made on a locked row only
      if st.lockedRef mainAliases args.targetRef = none then (.unlockedMerge s t content, st)
      else finish st (st.mergeWrite env args s t content now)
  | .unlockedCommit =>
    match call with
    | .commit content author message ref metadata =>
      -- the parent was read when there was no row
      finish st (st.record env content none author message metadata now ref)
    | .merge _ => (.unlockedCommit, st)
  | .unlockedMerge s t content =>
    match call with
    | .commit .. => (.unlockedMerge s t content, st)
    | .merge args =>
      finish st (st.recordMerge env args s t content now)
  | .done c => (.done c, st)
  | .failed e => (.failed e, st)

/-- The shared store and the phases of all calls. -/
structure Shared (ι V : Type) where
  store : Store V
  phases : ι → Phase V

variable {ι : Type} [DecidableEq ι] (calls : ι → BranchCall V)

/-- The given call takes its next step, at the given time. -/
def Shared.step (s : Shared ι V) (tick : ι × ℕ) : Shared ι V :=
  let (phase, store) := (calls tick.1).step env s.store tick.2 (s.phases tick.1)
  ⟨store, Function.update s.phases tick.1 phase⟩

/-- All calls are about to start. -/
def Shared.initial (st : Store V) : Shared ι V := ⟨st, fun _ => .start⟩

end Steps

/-! ## §2 A call alone -/

section Alone

variable {env : Env V}

/-- The steps of one call with nothing in between. -/
def BranchCall.alone (env : Env V) (call : BranchCall V) (now : ℕ) :
    ℕ → Phase V × Store V → Phase V × Store V
  | 0, s => s
  | n + 1, (phase, st) => call.alone env now n (call.step env st now phase)

theorem alone_add (call : BranchCall V) (now m n : ℕ) (s : Phase V × Store V) :
    call.alone env now (m + n) s = call.alone env now n (call.alone env now m s) := by
  induction m generalizing s with
  | zero => rw [Nat.zero_add, BranchCall.alone]
  | succ m ih =>
    rw [Nat.succ_add, BranchCall.alone, BranchCall.alone]
    exact ih _

/-- A call reaches a point when its first step does. -/
theorem exists_alone_of_step {call : BranchCall V} {now : ℕ} {phase : Phase V} {st : Store V}
    {r : Phase V × Store V} (h : ∃ n, call.alone env now n (call.step env st now phase) = r) :
    ∃ n, call.alone env now n (phase, st) = r := by
  obtain ⟨n, hn⟩ := h
  exact ⟨n + 1, hn⟩

omit [DecidableEq V] in
theorem ofResult_bind {α β : Type} (next : β → Phase V) (x : Except VcsError α)
    (f : α → Except VcsError β) :
    Phase.ofResult next (x >>= f) = Phase.ofResult (fun a => Phase.ofResult next (f a)) x := by
  cases x <;> rfl

/-- The reads of a merge come up with the configuration that it commits. -/
theorem exists_alone_content (args : MergeArgs V) (now : ℕ) (st : Store V) (s t : String) :
    ∃ n, (BranchCall.merge args).alone env now n (.targetRead s t, st) =
      (Phase.ofResult (.ready s t) (st.mergedContent env args), st) := by
  rw [Store.mergedContent, ofResult_bind, Store.finalConfig]
  apply exists_alone_of_step
  cases hresolved : args.resolvedConfig with
  | some config =>
    refine ⟨0, ?_⟩
    simp only [BranchCall.step, BranchCall.alone, hresolved]
    rfl
  | none =>
    -- read by read, as the preview does
    simp only [BranchCall.step, hresolved, Store.previewMerge, bind, Except.bind]
    cases hsource : st.resolveCommitHash args.source with
    | error e => exact ⟨0, rfl⟩
    | ok source =>
      rw [readStep_ok]
      apply exists_alone_of_step
      simp only [BranchCall.step, BranchCall.ref, previewStep]
      cases htarget : st.previewTarget args.targetRef with
      | error e => exact ⟨0, rfl⟩
      | ok target =>
        rw [readStep_ok]
        apply exists_alone_of_step
        simp only [BranchCall.step, previewStep]
        cases hfound : st.findMergeBase target source with
        | error e => exact ⟨0, rfl⟩
        | ok found =>
          rw [readStep_ok]
          apply exists_alone_of_step
          simp only [BranchCall.step, previewStep]
          by_cases heq : source = target
          · simp only [heq, if_true]
            cases hconfig : st.checkout target with
            | error e => exact ⟨0, rfl⟩
            | ok config => exact ⟨0, rfl⟩
          · simp only [heq, if_false]
            cases hbase : st.checkout ((found.filter fun h => h ≠ "").getD target) with
            | error e => exact ⟨0, rfl⟩
            | ok base =>
              rw [readStep_ok]
              apply exists_alone_of_step
              simp only [BranchCall.step, previewStep]
              cases hours : st.checkout target with
              | error e => exact ⟨0, rfl⟩
              | ok ours =>
                rw [readStep_ok]
                apply exists_alone_of_step
                simp only [BranchCall.step, previewStep]
                cases htheirs : st.checkout source with
                | error e => exact ⟨0, rfl⟩
                | ok theirs =>
                  refine ⟨0, ?_⟩
                  simp only [BranchCall.alone, readStep_ok]
                  split <;> rfl

/-- **A merge that runs alone is `VCSService.merge`.** -/
theorem exists_alone_merge (args : MergeArgs V) (now : ℕ) (st : Store V) :
    ∃ n, (BranchCall.merge args).alone env now n (.start, st) =
      finish st (st.merge env args now) := by
  apply exists_alone_of_step
  simp only [BranchCall.step, Store.merge, bind, Except.bind]
  cases hsource : st.resolveCommitHash args.source with
  | error e => exact ⟨0, rfl⟩
  | ok s =>
    rw [readStep_ok]
    apply exists_alone_of_step
    simp only [BranchCall.step]
    cases htarget : st.resolveCommitHash args.targetRef with
    | error e => exact ⟨0, rfl⟩
    | ok t =>
      rw [readStep_ok]
      dsimp only
      cases hexpected : checkExpectedHead args t with
      | error e => exact ⟨0, rfl⟩
      | ok _ =>
        dsimp only
        -- the reads up to the content, and then the unit of work
        obtain ⟨n, hn⟩ := @exists_alone_content V _ env args now st s t
        suffices hwrite : ∃ m, (BranchCall.merge args).alone env now m
            (Phase.ofResult (.ready s t) (st.mergedContent env args), st) = _ by
          obtain ⟨m, hm⟩ := hwrite
          exact ⟨n + m, by rw [alone_add]; exact hn ▸ hm⟩
        cases hcontent : st.mergedContent env args with
        | error e => exact ⟨0, rfl⟩
        | ok content =>
          apply exists_alone_of_step
          simp only [Phase.ofResult, BranchCall.step]
          cases hlock : st.lockedRef mainAliases args.targetRef with
          | some hash =>
            rw [if_neg (by simp)]
            exact ⟨0, rfl⟩
          | none =>
            -- without a row the write is one more step
            rw [if_pos rfl, Store.mergeWrite, hlock]
            exact ⟨1, rfl⟩

end Alone

/-! ## §3 One step -/

section OneStep

variable {env : Env V}

/-- What a merge has resolved its target to. -/
def Phase.targetHash? : Phase V → Option String
  | .targetRead _ t => some t
  | .previewing _ t _ => some t
  | .ready _ t _ => some t
  | .unlockedMerge _ t _ => some t
  | _ => none

/-- The unit of work has begun without a lock. -/
def Phase.Unlocked : Phase V → Prop
  | .unlockedCommit => True
  | .unlockedMerge .. => True
  | _ => False

/-- The call reads on with the target `t`, or it has failed. -/
def Phase.Reading (t : String) : Phase V → Prop
  | .targetRead _ t' => t' = t
  | .previewing _ t' _ => t' = t
  | .ready _ t' _ => t' = t
  | .failed _ => True
  | _ => False

omit [DecidableEq V] in
theorem reading_ofResult {α : Type} {t : String} {next : α → Phase V}
    (h : ∀ a, (next a).Reading t) (result : Except VcsError α) :
    (Phase.ofResult next result).Reading t := by
  cases result with
  | ok a => exact h a
  | error e => trivial

omit [DecidableEq V] in
theorem reading_settle (s t : String) (config : Config V) : (settle env s t config).Reading t := by
  apply reading_ofResult
  intro content
  rfl

/-- The preview keeps the resolved target and writes nothing. -/
theorem previewStep_spec (st : Store V) (s t targetRef : String) (seen : PreviewRead V) :
    (previewStep env st s t targetRef seen).1.Reading t ∧
      (previewStep env st s t targetRef seen).2 = st := by
  cases seen with
  | source source | target source target | baseConfig source target base =>
    refine ⟨?_, rfl⟩
    apply reading_ofResult
    intro a
    rfl
  | base source target base =>
    simp only [previewStep]
    split
    · exact ⟨reading_ofResult (reading_settle s t) _, rfl⟩
    · refine ⟨?_, rfl⟩
      apply reading_ofResult
      intro config
      rfl
  | oursConfig source base ours =>
    refine ⟨?_, rfl⟩
    apply reading_ofResult
    intro theirs
    dsimp only
    split
    · trivial
    · exact reading_settle s t _

/-- What a step can do when the branch has a tip to lock: it reads, or it records a commit on
    the tip. -/
inductive StepOutcome (env : Env V) (call : BranchCall V) (st : Store V) (tip : String)
    (phase : Phase V) : Phase V × Store V → Prop where
  /-- The call goes on, fails, or has ended before. -/
  | reads {phase' : Phase V} (hdone : ∀ c, phase' = .done c → phase = .done c)
      (hlocked : ¬ phase'.Unlocked)
      (htarget : ∀ args t, call = .merge args → phase'.targetHash? = some t →
        phase.targetHash? = some t ∨ checkExpectedHead args t = .ok ()) :
      StepOutcome env call st tip phase (phase', st)
  | writes {c : Commit} {st' : Store V} {content : Config V} {metadata : Metadata}
      (hnew : ∀ c', phase ≠ .done c')
      (hrecorded : Recorded env st content (some tip) metadata call.ref c st')
      (htarget : ∀ args, call = .merge args → phase.targetHash? = some tip) :
      StepOutcome env call st tip phase (.done c, st')

omit [DecidableEq V] in
theorem StepOutcome.of_failed (call : BranchCall V) (st : Store V) (tip : String)
    (phase : Phase V) (e : VcsError) : StepOutcome env call st tip phase (.failed e, st) :=
  .reads (by simp) (by simp [Phase.Unlocked]) (by simp [Phase.targetHash?])

omit [DecidableEq V] in
/-- Reading on is no write. -/
theorem StepOutcome.of_reading {call : BranchCall V} {st : Store V} {tip t : String}
    {phase : Phase V} (hphase : phase.targetHash? = some t) {result : Phase V × Store V}
    (h : result.1.Reading t ∧ result.2 = st) : StepOutcome env call st tip phase result := by
  obtain ⟨phase', st'⟩ := result
  obtain ⟨hreading, rfl⟩ := h
  cases phase' with
  | targetRead _ t' | previewing _ t' _ | ready _ t' _ =>
    refine .reads (by simp) (by simp [Phase.Unlocked]) ?_
    intro args t'' _ ht''
    left
    rw [hphase, ← ht'', Phase.targetHash?, show t' = t from hreading]
  | failed e => exact StepOutcome.of_failed call _ tip phase e
  | start | sourceRead _ | unlockedCommit | unlockedMerge _ _ _ | done _ => exact hreading.elim

omit [DecidableEq V] in
/-- A failed unit of work is no write. -/
theorem StepOutcome.of_finish {call : BranchCall V} {st : Store V} {tip : String}
    {phase : Phase V} {result : Except VcsError (Commit × Store V)}
    (hnew : ∀ c', phase ≠ .done c')
    (h : ∀ c st', result = .ok (c, st') →
      (∃ content metadata, Recorded env st content (some tip) metadata call.ref c st') ∧
        ∀ args, call = .merge args → phase.targetHash? = some tip) :
    StepOutcome env call st tip phase (finish st result) := by
  cases result with
  | error e => exact StepOutcome.of_failed call st tip phase e
  | ok made =>
    obtain ⟨⟨content, metadata, hrecorded⟩, htarget⟩ := h made.1 made.2 rfl
    exact .writes hnew hrecorded htarget

/-- **Every step reads, or records a commit on the tip.** -/
theorem stepOutcome {call : BranchCall V} {st : Store V} {tip : String} {phase : Phase V}
    (hcommit : st.lockedRef commitAliases call.ref = some tip)
    (hmerge : st.lockedRef mainAliases call.ref = some tip) (hlocked : ¬ phase.Unlocked)
    (now : ℕ) : StepOutcome env call st tip phase (call.step env st now phase) := by
  have hstuck : StepOutcome env call st tip phase (phase, st) :=
    .reads (fun _ h => h) hlocked (fun _ _ _ h => Or.inl h)
  cases phase with
  | start =>
    -- a commit is one unit of work, a merge begins with the look-up of its source
    cases call with
    | commit content author message ref metadata =>
      simp only [BranchCall.ref] at hcommit
      simp only [BranchCall.step, hcommit, reduceCtorEq, if_false]
      apply StepOutcome.of_finish (by simp)
      intro c st' hok
      -- the parent is what the unit of work has locked
      have hrecorded := recorded_of_record hok
      rw [hcommit] at hrecorded
      exact ⟨⟨_, _, hrecorded⟩, by simp⟩
    | merge args =>
      simp only [BranchCall.step]
      cases st.resolveCommitHash args.source with
      | error e => exact StepOutcome.of_failed _ st tip _ e
      | ok s =>
        rw [readStep_ok]
        exact .reads (by simp) (by simp [Phase.Unlocked]) (by simp [Phase.targetHash?])
  | sourceRead s =>
    cases call with
    | commit content author message ref metadata => exact hstuck
    | merge args =>
      simp only [BranchCall.step]
      cases st.resolveCommitHash args.targetRef with
      | error e => exact StepOutcome.of_failed _ st tip _ e
      | ok t =>
        rw [readStep_ok]
        cases hexpected : checkExpectedHead args t with
        | error e => exact StepOutcome.of_failed _ st tip _ e
        | ok _ =>
          -- the expected head is checked here
          refine .reads (by simp [Phase.ofResult]) (by simp [Phase.ofResult, Phase.Unlocked]) ?_
          intro args' t' hargs ht'
          obtain rfl := BranchCall.merge.inj hargs
          obtain rfl := Option.some.inj ht'
          exact Or.inr hexpected
  | targetRead s t =>
    -- a given configuration is settled at once, else the preview begins
    cases call with
    | commit content author message ref metadata => exact hstuck
    | merge args =>
      apply StepOutcome.of_reading rfl
      simp only [BranchCall.step]
      cases args.resolvedConfig with
      | some config => exact ⟨reading_settle s t config, rfl⟩
      | none =>
        refine ⟨?_, rfl⟩
        apply reading_ofResult
        intro source
        rfl
  | previewing s t seen => exact StepOutcome.of_reading rfl (previewStep_spec st s t call.ref seen)
  | ready s t content =>
    -- the unit of work of a merge locks the row and compares the target
    cases call with
    | commit content author message ref metadata => exact hstuck
    | merge args =>
      simp only [BranchCall.ref] at hmerge
      simp only [BranchCall.step, hmerge, reduceCtorEq, if_false]
      apply StepOutcome.of_finish (by simp)
      intro c st' hok
      -- the write goes through only if the resolved target is still the tip
      obtain ⟨hsame, metadata, -, hrecorded⟩ := recorded_of_mergeWrite hok
      obtain rfl := hsame tip hmerge
      exact ⟨⟨_, _, hrecorded⟩, fun _ _ => rfl⟩
  | unlockedCommit => exact absurd trivial hlocked
  | unlockedMerge s t content => exact absurd trivial hlocked
  | done c => exact hstuck
  | failed e => exact hstuck

end OneStep

/-! ## §4 The tip of a branch -/

/-- The names of the branch: those of the main branch stand for each other. -/
def branchNames (branch : String) : List String :=
  if branch ∈ mainAliases then mainAliases else [branch]

omit [DecidableEq V] in
/-- A row under a name is what the name stands for. -/
theorem resolve_of_row {st : Store V} {name tip : String} (h : st.refs.get? name = some tip) :
    st.resolveCommitHash name = .ok tip := by
  have hhead : ∃ rest, candidates name = name :: rest := by
    unfold candidates
    split
    · exact ⟨_, rfl⟩
    · split
      · exact ⟨_, rfl⟩
      · split <;> exact ⟨_, rfl⟩
  obtain ⟨rest, hrest⟩ := hhead
  rw [resolveCommitHash, hrest, List.findSome?_cons, h]

omit [DecidableEq V] in
theorem RowsAt.row {st : Store V} {name tip : String} (h : RowsAt st [name] tip) :
    st.refs.get? name = some tip := by
  obtain ⟨⟨n, hn, hrow⟩, -⟩ := h
  rw [← List.mem_singleton.mp hn]
  exact hrow

omit [DecidableEq V] in
/-- Every name of the branch resolves to the tip. -/
theorem RowsAt.resolve_branch {st : Store V} {branch tip : String}
    (h : RowsAt st (branchNames branch) tip) {name : String} (hname : name ∈ branchNames branch) :
    st.resolveCommitHash name = .ok tip := by
  unfold branchNames at h hname
  split at h
  · rename_i hmain
    rw [if_pos hmain] at hname
    have hfound := MainAt.findSome? (show MainAt st (some tip) from h) (mem_candidates_main hname)
    rw [resolveCommitHash, hfound]
  · rename_i hmain
    rw [if_neg hmain, List.mem_singleton] at hname
    rw [hname]
    exact resolve_of_row h.row

omit [DecidableEq V] in
/-- What an operation on the branch locks is the tip. -/
theorem RowsAt.lockedRef_branch {st : Store V} {branch tip : String}
    (h : RowsAt st (branchNames branch) tip) {aliases : List String}
    (haliases : ∀ n, n ∈ aliases ↔ n ∈ mainAliases) {ref : String}
    (href : ref ∈ branchNames branch) : st.lockedRef aliases ref = some tip := by
  unfold branchNames at h href
  split at h
  · rename_i hmain
    rw [if_pos hmain] at href
    exact MainAt.lockedRef (show MainAt st (some tip) from h) haliases href
  · rename_i hmain
    rw [if_neg hmain, List.mem_singleton] at href
    rw [Store.lockedRef, href, h.row]

section Runs

variable {ι : Type} [DecidableEq ι] (env : Env V) (calls : ι → BranchCall V) (branch : String)

omit [DecidableEq V] [DecidableEq ι] in
/-- No call leaves a row `main` behind: all calls use it, or none does and it does not exist. -/
def MainRowKept (st : Store V) : Prop :=
  branch ∈ mainAliases → (∀ i, (calls i).ref = "main") ∨
    ((∀ i, (calls i).ref ≠ "main") ∧ st.refs.get? "main" = none)

omit [DecidableEq V] [DecidableEq ι] in
/-- Every call names the branch by the name of a row. -/
structure LiteralNames (st : Store V) : Prop where
  ref_mem : ∀ i, (calls i).ref ∈ branchNames branch
  rows : ∃ tip, RowsAt st (branchNames branch) tip
  mainRow : MainRowKept calls branch st

/-- What the branch promises of a step: a commit that the step makes is a child of the tip it
    replaces, every commit made so far is an ancestor of the tip, and a merge that expects
    another head at the time of its write fails. -/
structure BranchSafe (s : Shared ι V) (tick : ι × ℕ) : Prop where
  child : ∀ c, (s.step env calls tick).phases tick.1 = .done c →
    (∀ c', s.phases tick.1 ≠ .done c') → ∀ name ∈ branchNames branch,
      (∃ tip, s.store.resolveCommitHash name = .ok tip ∧ c.parentHash = some tip) ∧
        (s.step env calls tick).store.resolveCommitHash name = .ok c.hash
  kept : ∀ i c, (s.step env calls tick).phases i = .done c → ∀ name ∈ branchNames branch,
    ∃ tip, (s.step env calls tick).store.resolveCommitHash name = .ok tip ∧
      Reaches (s.step env calls tick).store.parents tip c.hash
  guarded : ∀ args, calls tick.1 = .merge args → ∀ sourceHash targetHash content,
    (s.phases tick.1 = .ready sourceHash targetHash content ∨
      s.phases tick.1 = .unlockedMerge sourceHash targetHash content) →
    ∀ expected ∈ args.expectedTargetHead, expected ≠ "" →
    ∀ tip, s.store.resolveCommitHash args.targetRef = .ok tip → tip ≠ expected →
      (∃ e, (s.step env calls tick).phases tick.1 = .failed e) ∧
        (s.step env calls tick).store = s.store

/-- The rows agree on a tip that descends from every commit made, and what a merge has resolved is
    what its caller expects.

    No call is about to write without a lock.  That is where a call by another name than that of a
    row would end, which finds nothing to lock. -/
structure BranchInv (s : Shared ι V) : Prop where
  tip : ∃ tip, RowsAt s.store (branchNames branch) tip ∧
    ∀ i c, s.phases i = .done c → tip ≠ "" ∧ Reaches s.store.parents tip c.hash
  mainRow : MainRowKept calls branch s.store
  locked : ∀ i, ¬ (s.phases i).Unlocked
  checked : ∀ i args t, calls i = .merge args → (s.phases i).targetHash? = some t →
    checkExpectedHead args t = .ok ()

variable {env calls branch}

omit [DecidableEq V] in
/-- A new commit adds edges only. -/
theorem reaches_recorded {st st' : Store V} {content : Config V} {parentHash : Option String}
    {metadata : Metadata} {ref : String} {c : Commit}
    (h : Recorded env st content parentHash metadata ref c st') {x y : String}
    (hreach : Reaches st.parents x y) : Reaches st'.parents x y := by
  apply Reaches.mono ?_ hreach
  intro u v huv
  by_cases hu : u = c.hash
  · -- the new commit had no edges before
    rw [Store.parents, hu, h.new] at huv
    cases huv
  · rw [Store.parents, h.commits_eq, Dict.get?_set, if_neg hu]
    exact huv

omit [DecidableEq V] in
/-- A new commit leads to its parent. -/
theorem reaches_parent {st st' : Store V} {content : Config V} {parent : String}
    {metadata : Metadata} {ref : String} {c : Commit}
    (h : Recorded env st content (some parent) metadata ref c st') (hne : parent ≠ "") :
    Reaches st'.parents c.hash parent := by
  apply reaches_of_mem
  rw [Store.parents, h.commits_eq, Dict.get?_set_self]
  simp [Commit.edges, h.parentHash_eq, hne]

omit [DecidableEq V] [DecidableEq ι] in
/-- Every row of the branch is moved by each call. -/
theorem MainRowKept.moved {st : Store V} (h : MainRowKept calls branch st)
    (href : ∀ i, (calls i).ref ∈ branchNames branch) (i : ι) :
    ∀ n ∈ branchNames branch, n ∈ movedBy (calls i).ref ∨ st.refs.get? n = none := by
  intro n hn
  have hi := href i
  unfold branchNames at hn hi
  split at hn
  · rename_i hmain
    rw [if_pos hmain] at hi
    apply mem_movedBy_main hi _ n hn
    rcases h hmain with hall | ⟨-, hrow⟩
    · exact Or.inl (hall i)
    · exact Or.inr hrow
  · rename_i hmain
    rw [if_neg hmain, List.mem_singleton] at hi
    rw [List.mem_singleton.mp hn, ← hi]
    exact Or.inl (mem_movedBy_self _)

omit [DecidableEq V] [DecidableEq ι] in
theorem MainRowKept.recorded {st st' : Store V} (h : MainRowKept calls branch st) {i : ι}
    {content : Config V} {parentHash : Option String} {metadata : Metadata} {c : Commit}
    (hrecorded : Recorded env st content parentHash metadata (calls i).ref c st') :
    MainRowKept calls branch st' := by
  intro hmain
  rcases h hmain with hall | ⟨hnone, hrow⟩
  · exact Or.inl hall
  · refine Or.inr ⟨hnone, ?_⟩
    rw [hrecorded.refs_eq, if_neg]
    · exact hrow
    · intro hmem
      unfold movedBy at hmem
      split at hmem
      · rcases List.mem_cons.mp hmem with h | h
        · exact hnone i h.symm
        · revert h
          decide
      · exact hnone i (List.mem_singleton.mp hmem).symm

omit [DecidableEq V] in
/-- One call has moved on, and the others are where they were. -/
theorem update_cases (phases : ι → Phase V) (i : ι) (phase' : Phase V) (j : ι) :
    (j = i ∧ Function.update phases i phase' j = phase') ∨
      Function.update phases i phase' j = phases j := by
  by_cases hji : j = i
  · subst hji
    exact Or.inl ⟨rfl, Function.update_self _ _ _⟩
  · exact Or.inr (Function.update_of_ne hji _ _)

namespace BranchInv

variable {s : Shared ι V}

omit [DecidableEq V] [DecidableEq ι] in
/-- Every commit made is an ancestor of the tip. -/
theorem kept (hs : BranchInv calls branch s) {i : ι} {c : Commit} (hc : s.phases i = .done c)
    {name : String} (hname : name ∈ branchNames branch) :
    ∃ tip, s.store.resolveCommitHash name = .ok tip ∧ Reaches s.store.parents tip c.hash := by
  obtain ⟨tip, hrows, hmade⟩ := hs.tip
  exact ⟨tip, hrows.resolve_branch hname, (hmade i c hc).2⟩

/-- A merge that expects another head than the tip is refused at its write. -/
theorem guarded (hs : BranchInv calls branch s)
    (href : ∀ i, (calls i).ref ∈ branchNames branch) (i : ι) (now : ℕ) {args : MergeArgs V}
    (hargs : calls i = .merge args) {sh th : String} {content : Config V}
    (hphase : s.phases i = .ready sh th content ∨ s.phases i = .unlockedMerge sh th content)
    {expected head : String} (hexpected : expected ∈ args.expectedTargetHead)
    (hne : expected ≠ "") (hhead : s.store.resolveCommitHash args.targetRef = .ok head)
    (hmoved : head ≠ expected) :
    (∃ e, (s.step env calls (i, now)).phases i = .failed e) ∧
      (s.step env calls (i, now)).store = s.store := by
  obtain ⟨tip, hrows, -⟩ := hs.tip
  have htarget : args.targetRef ∈ branchNames branch := by
    have hi := href i
    rw [hargs] at hi
    exact hi
  obtain rfl : head = tip := Except.ok.inj (hhead.symm.trans (hrows.resolve_branch htarget))
  rcases hphase with hphase | hphase
  · -- what the merge has resolved passed the check, so it is not the tip any more
    have hcheck := hs.checked i args th hargs (by rw [hphase]; rfl)
    have hth : th = expected := by
      rw [checkExpectedHead, Option.mem_def.mp hexpected] at hcheck
      by_contra hdiff
      simp [hne, hdiff] at hcheck
    have hlock := hrows.lockedRef_branch (fun _ => Iff.rfl) htarget
    have hstep : (calls i).step env s.store now (s.phases i) =
        (.failed .updatedConcurrently, s.store) := by
      simp [hargs, hphase, BranchCall.step, hlock, mergeWrite, hth, hmoved, finish]
    simp [Shared.step, hstep]
  · exact absurd (by rw [hphase]; trivial) (hs.locked i)

omit [DecidableEq V] in
/-- A read moves one call on, and nothing else. -/
theorem reads (hs : BranchInv calls branch s) {i : ι} {phase' : Phase V}
    (hdone : ∀ c, phase' = .done c → s.phases i = .done c) (hlocked : ¬ phase'.Unlocked)
    (htarget : ∀ args t, calls i = .merge args → phase'.targetHash? = some t →
      (s.phases i).targetHash? = some t ∨ checkExpectedHead args t = .ok ()) :
    BranchInv calls branch ⟨s.store, Function.update s.phases i phase'⟩ := by
  obtain ⟨tip, hrows, hmade⟩ := hs.tip
  refine ⟨⟨tip, hrows, ?_⟩, hs.mainRow, ?_, ?_⟩
  · intro j c hj
    rcases update_cases s.phases i phase' j with ⟨rfl, h⟩ | h
    · exact hmade j c (hdone c (h.symm.trans hj))
    · exact hmade j c (h.symm.trans hj)
  · intro j
    rcases update_cases s.phases i phase' j with ⟨rfl, h⟩ | h
    · simpa [h] using hlocked
    · simpa [h] using hs.locked j
  · intro j args t hargs ht
    rcases update_cases s.phases i phase' j with ⟨rfl, h⟩ | h
    · simp only [h] at ht
      rcases htarget args t hargs ht with hold | hnew
      · exact hs.checked j args t hargs hold
      · exact hnew
    · simp only [h] at ht
      exact hs.checked j args t hargs ht

omit [DecidableEq V] in
/-- A write moves the rows to a commit on the tip, which keeps what the tip descends from. -/
theorem writes (henv : env.Lawful) (href : ∀ i, (calls i).ref ∈ branchNames branch)
    (hs : BranchInv calls branch s) {tip : String} (hrows : RowsAt s.store (branchNames branch) tip)
    {i : ι} {content : Config V} {metadata : Metadata} {c : Commit} {st' : Store V}
    (hrecorded : Recorded env s.store content (some tip) metadata (calls i).ref c st') :
    BranchInv calls branch ⟨st', Function.update s.phases i (.done c)⟩ ∧
      RowsAt st' (branchNames branch) c.hash := by
  have hhash : c.hash ≠ "" := hrecorded.hash_ne_empty henv
  have hrows' : RowsAt st' (branchNames branch) c.hash :=
    RowsAt.recorded hrecorded (href i) (hs.mainRow.moved href i)
  refine ⟨⟨⟨c.hash, hrows', ?_⟩, hs.mainRow.recorded hrecorded, ?_, ?_⟩, hrows'⟩
  · intro j c' hj
    refine ⟨hhash, ?_⟩
    rcases update_cases s.phases i (.done c) j with ⟨rfl, h⟩ | h
    · obtain rfl := Phase.done.inj (h.symm.trans hj)
      exact Relation.ReflTransGen.refl
    · -- an earlier commit is reached through the tip that is now the parent
      obtain ⟨tip', hrows'', hmade⟩ := hs.tip
      obtain ⟨htip, hreach⟩ := hmade j c' (h.symm.trans hj)
      obtain rfl : tip' = tip := Except.ok.inj
        ((hrows''.resolve_branch (href i)).symm.trans (hrows.resolve_branch (href i)))
      exact (reaches_parent hrecorded htip).trans (reaches_recorded hrecorded hreach)
  · intro j
    rcases update_cases s.phases i (.done c) j with ⟨-, h⟩ | h
    · simp [h, Phase.Unlocked]
    · simpa [h] using hs.locked j
  · intro j args t hargs ht
    rcases update_cases s.phases i (.done c) j with ⟨-, h⟩ | h
    · simp [h, Phase.targetHash?] at ht
    · simp only [h] at ht
      exact hs.checked j args t hargs ht

/-- **A step on the branch keeps the invariant and is safe.** -/
theorem step (henv : env.Lawful) (href : ∀ i, (calls i).ref ∈ branchNames branch)
    (hs : BranchInv calls branch s) (tick : ι × ℕ) :
    BranchInv calls branch (s.step env calls tick) ∧ BranchSafe env calls branch s tick := by
  obtain ⟨i, now⟩ := tick
  obtain ⟨tip, hrows, hmade⟩ := hs.tip
  have houtcome := @stepOutcome V _ env (calls i) s.store tip (s.phases i)
    (hrows.lockedRef_branch mem_commitAliases (href i))
    (hrows.lockedRef_branch (fun _ => Iff.rfl) (href i)) (hs.locked i) now
  -- the new invariant and the safety of a new commit give the rest
  suffices h : BranchInv calls branch (s.step env calls (i, now)) ∧
      ∀ c, (s.step env calls (i, now)).phases i = .done c → (∀ c', s.phases i ≠ .done c') →
        c.parentHash = some tip ∧
          RowsAt (s.step env calls (i, now)).store (branchNames branch) c.hash by
    obtain ⟨hinv, hchild⟩ := h
    refine ⟨hinv, ⟨?_, fun j c hj name hname => hinv.kept hj hname, ?_⟩⟩
    · intro c hc hnew name hname
      obtain ⟨hparent, hrows'⟩ := hchild c hc hnew
      exact ⟨⟨tip, hrows.resolve_branch hname, hparent⟩, hrows'.resolve_branch hname⟩
    · intro args hargs sh th content hphase expected hexpected hne head hhead hmoved
      exact hs.guarded href i now hargs hphase hexpected hne hhead hmoved
  generalize hresult : (calls i).step env s.store now (s.phases i) = result at houtcome
  have hstep : s.step env calls (i, now) = ⟨result.2, Function.update s.phases i result.1⟩ := by
    simp only [Shared.step, hresult]
  rw [hstep]
  cases houtcome with
  | @reads phase' hdone hlock htarget =>
    refine ⟨hs.reads hdone hlock htarget, ?_⟩
    intro c hc hnew
    simp only [Function.update_self] at hc
    exact absurd (hdone c hc) (hnew c)
  | @writes c st' content metadata hnew hrecorded htarget =>
    obtain ⟨hinv, hrows'⟩ := hs.writes henv href hrows hrecorded
    refine ⟨hinv, ?_⟩
    intro c' hc' _
    simp only [Function.update_self] at hc'
    obtain rfl := Phase.done.inj hc'
    exact ⟨hrecorded.parentHash_eq, hrows'⟩

end BranchInv

/-- **No update is lost** in any interleaving of calls that name the branch by the name of a row.

    A commit that succeeds is a child of the tip that it replaces, every commit made so far stays an
    ancestor of the tip, and a merge whose caller expects another head fails.  Reads outside the
    unit of work are steps of their own, so others may commit between them and the write. -/
theorem branch_noLostUpdate (henv : env.Lawful) {st : Store V}
    (hnames : LiteralNames calls branch st) (schedule : List (ι × ℕ)) :
    Along (Shared.step env calls) (BranchSafe env calls branch) (Shared.initial st) schedule := by
  obtain ⟨tip, hrows⟩ := hnames.rows
  have hstart : BranchInv calls branch (Shared.initial st : Shared ι V) :=
    ⟨⟨tip, hrows, by simp [Shared.initial]⟩, hnames.mainRow,
      by simp [Shared.initial, Phase.Unlocked], by simp [Shared.initial, Phase.targetHash?]⟩
  have hticks : Along (Shared.step env calls) (fun _ _ => True) (Shared.initial st) schedule :=
    along_of_forall (by simp) _
  exact along_of_invariant (BranchInv calls branch)
    (fun s tick hs _ => hs.step henv hnames.ref_mem tick) hstart hticks

end Runs

/-! ## §5 Concrete schedules -/

/-- A branch with one commit on it. -/
def branchStore : Store Scalar :=
  run (StoreOp.step sampleEnv) Store.empty
    [commitOp "1" "r" "HEAD", .branch "refs/heads/x" "HEAD"]

/-- Two commits and a merge on the branch, all under its full name. -/
def fullNameCalls : Fin 3 → BranchCall Scalar
  | 0 => .commit (quantityConfig "2") "user" "a" "refs/heads/x" ⟨none, []⟩
  | 1 => .commit (quantityConfig "3") "user" "b" "refs/heads/x" ⟨none, []⟩
  | 2 => .merge ⟨"HEAD", "refs/heads/x", "user", some "m", some "#r", none⟩

/-- The merge reads the tip, a commit comes in between, and the merge fails. -/
theorem interleaved_merge_safe :
    Along (Shared.step sampleEnv fullNameCalls) (BranchSafe sampleEnv fullNameCalls "refs/heads/x")
      (Shared.initial branchStore)
      [(2, 0), (2, 0), (0, 0), (2, 0), (1, 0), (2, 0), (2, 0), (2, 0), (2, 0), (2, 0), (2, 0)] := by
  apply branch_noLostUpdate lawful_sampleEnv
  refine ⟨by decide, ⟨"#r", ⟨"refs/heads/x", by decide, by decide +kernel⟩, ?_⟩, ?_⟩
  · intro n hn h hget
    rw [List.mem_singleton.mp (show n ∈ ["refs/heads/x"] from hn)] at hget
    have hrow : branchStore.refs.get? "refs/heads/x" = some "#r" := by decide +kernel
    exact Option.some.inj (hget.symm.trans hrow)
  · intro hmain
    revert hmain
    decide

/-- A commit on the branch under its short name. -/
def shortNameCall : Fin 1 → BranchCall Scalar := fun _ =>
  .commit (quantityConfig "2") "user" "a" "x" ⟨none, []⟩

/-- The short name resolves to the tip of the branch, but the commit made under it has no
    parent and the branch does not move. -/
theorem short_name_starts_another_branch :
    let s := run (Shared.step sampleEnv shortNameCall) (Shared.initial branchStore)
      [(0, 0), (0, 0)]
    branchStore.resolveCommitHash "x" = .ok "#r" ∧
      branchStore.resolveCommitHash "refs/heads/x" = .ok "#r" ∧
      (s.store.commits.get? "#a").map Commit.parentHash = some none ∧
      s.store.resolveCommitHash "refs/heads/x" = .ok "#r" ∧
      ¬ Along (Shared.step sampleEnv shortNameCall)
        (BranchSafe sampleEnv shortNameCall "refs/heads/x") (Shared.initial branchStore)
        [(0, 0), (0, 0)] := by
  intro s
  refine ⟨by decide +kernel, by decide +kernel, by decide +kernel, by decide +kernel, ?_⟩
  rintro ⟨-, hsafe, -⟩
  have hdone : s.phases 0 = .done ⟨"#a", "blob 2", none, "user", "a", ⟨none, []⟩, 0⟩ := by rfl
  obtain ⟨⟨tip, -, hparent⟩, -⟩ :=
    hsafe.child _ hdone (by intro c hc; cases hc) "refs/heads/x" (by decide)
  cases hparent

end CryptoTrading.Vcs

import CryptoTrading.Lib.Run
import CryptoTrading.Vcs.MergeIdentity
import CryptoTrading.Vcs.Service

/-!
# Stores that the service can build

What each operation of the service does to the tables, and the invariant that all of them
keep (`WellFormed`): references and the edges of commits lead to stored commits, and every
commit has a stored, canonical configuration.

The hash of a commit is not empty and not a name of the main branch, and a validated
configuration is canonical (`Env.Lawful`); both are facts about what the service uses from
elsewhere.
-/

namespace CryptoTrading.Vcs

open CryptoTrading.Lib

variable {V : Type}

/-! ## §1 What the writes do -/

namespace Store

@[simp] theorem commits_setReference (st : Store V) (name hash : String) :
    (st.setReference name hash).commits = st.commits := rfl

@[simp] theorem blobs_setReference (st : Store V) (name hash : String) :
    (st.setReference name hash).blobs = st.blobs := rfl

@[simp] theorem get?_refs_setReference (st : Store V) (name hash n : String) :
    (st.setReference name hash).refs.get? n =
      if n = name then some hash else st.refs.get? n :=
  Dict.get?_set st.refs name n hash

@[simp] theorem commits_moveReference (st : Store V) (ref hash : String) :
    (st.moveReference ref hash).commits = st.commits := by
  unfold moveReference
  split <;> rfl

@[simp] theorem blobs_moveReference (st : Store V) (ref hash : String) :
    (st.moveReference ref hash).blobs = st.blobs := by
  unfold moveReference
  split <;> rfl

/-- The names that a commit through `ref` moves. -/
def movedBy (ref : String) : List String :=
  if ref ∈ mainAliases then [ref, "HEAD", "refs/heads/main"] else [ref]

theorem get?_refs_moveReference (st : Store V) (ref hash n : String) :
    (st.moveReference ref hash).refs.get? n =
      if n ∈ movedBy ref then some hash else st.refs.get? n := by
  unfold moveReference movedBy
  by_cases href : ref ∈ mainAliases
  · simp only [href, if_true, get?_refs_setReference, List.mem_cons, List.not_mem_nil, or_false]
    by_cases hmain : n = "refs/heads/main"
    · simp [hmain]
    · by_cases hhead : n = "HEAD"
      · simp [hhead]
      · simp [hmain, hhead]
  · simp only [href, if_false, get?_refs_setReference, List.mem_singleton]

theorem mem_movedBy_self (ref : String) : ref ∈ movedBy ref := by
  unfold movedBy
  split <;> exact List.mem_cons_self

@[simp] theorem refs_saveBlob (st : Store V) (hash : String) (content : Config V) :
    (st.saveBlob hash content).refs = st.refs := by
  unfold saveBlob
  split <;> rfl

@[simp] theorem commits_saveBlob (st : Store V) (hash : String) (content : Config V) :
    (st.saveBlob hash content).commits = st.commits := by
  unfold saveBlob
  split <;> rfl

/-- A blob that is stored stays as it is. -/
theorem get?_blobs_saveBlob (st : Store V) (hash : String) (content : Config V) (k : String) :
    (st.saveBlob hash content).blobs.get? k =
      if k = hash then some ((st.blobs.get? hash).getD content) else st.blobs.get? k := by
  unfold saveBlob
  by_cases hstored : st.blobs.contains hash = true
  · simp only [hstored, if_true]
    split
    · rename_i hk
      rw [hk]
      obtain ⟨x, hx⟩ := Option.isSome_iff_exists.mp hstored
      rw [hx]
      rfl
    · rfl
  · simp only [hstored, if_false, Dict.get?_set, Bool.false_eq_true]
    have hnone : st.blobs.get? hash = none := by
      simpa [Dict.contains] using hstored
    rw [hnone]
    rfl

theorem saveCommit_eq_ok {st st' : Store V} {c : Commit} (h : st.saveCommit c = .ok st') :
    st.commits.get? c.hash = none ∧ st' = { st with commits := st.commits.set c.hash c } := by
  unfold saveCommit at h
  split at h
  · cases h
  · rename_i hnew
    refine ⟨?_, (Except.ok.inj h).symm⟩
    simpa [Dict.contains] using hnew

variable {env : Env V}

/-- What `commit` and `merge` write: one new commit with its blob, and the reference moved. -/
structure Recorded (env : Env V) (st : Store V) (content : Config V) (parentHash : Option String)
    (metadata : Metadata) (ref : String) (c : Commit) (st' : Store V) : Prop where
  blobHash_eq : c.blobHash = env.computeBlobHash content
  parentHash_eq : c.parentHash = parentHash
  metadata_eq : c.metadata = metadata
  hash_eq : c.hash = env.computeCommitHash c.blobHash parentHash c.author c.message metadata
    c.createdAt
  new : st.commits.get? c.hash = none
  commits_eq : st'.commits = st.commits.set c.hash c
  blobs_eq : st'.blobs = (st.saveBlob c.blobHash content).blobs
  refs_eq : ∀ n, st'.refs.get? n = if n ∈ movedBy ref then some c.hash else st.refs.get? n

namespace Recorded

variable {st st' : Store V} {content : Config V} {parentHash : Option String}
  {metadata : Metadata} {ref : String} {c : Commit}

/-- A stored commit is the new one, or it was there before. -/
theorem commit_cases (h : Recorded env st content parentHash metadata ref c st') {k : String}
    {c' : Commit} (hc' : st'.commits.get? k = some c') :
    (k = c.hash ∧ c = c') ∨ st.commits.get? k = some c' := by
  rw [h.commits_eq, Dict.get?_set] at hc'
  split at hc'
  · rename_i hk
    exact Or.inl ⟨hk, Option.some.inj hc'⟩
  · exact Or.inr hc'

/-- A commit that is stored stays as it is: the hash of the new one was free. -/
theorem commit_kept (h : Recorded env st content parentHash metadata ref c st') {k : String}
    {c' : Commit} (hc' : st.commits.get? k = some c') : st'.commits.get? k = some c' := by
  rw [h.commits_eq, Dict.get?_set, if_neg]
  · exact hc'
  · rintro rfl
    rw [h.new] at hc'
    cases hc'

theorem commits_kept (h : Recorded env st content parentHash metadata ref c st') {k : String}
    (hk : st.commits.get? k ≠ none) : st'.commits.get? k ≠ none := by
  obtain ⟨c', hc'⟩ := Option.ne_none_iff_exists'.mp hk
  rw [h.commit_kept hc']
  simp

end Recorded

theorem recorded_of_record {st st' : Store V} {content : Config V} {parentHash : Option String}
    {author message : String} {metadata : Metadata} {now : ℕ} {ref : String} {c : Commit}
    (h : st.record env content parentHash author message metadata now ref = .ok (c, st')) :
    Recorded env st content parentHash metadata ref c st' := by
  unfold record at h
  obtain ⟨saved, hsaved, heq⟩ := bind_eq_ok.mp h
  obtain ⟨rfl, rfl⟩ := Prod.mk.inj (Except.ok.inj heq)
  obtain ⟨hnew, rfl⟩ := saveCommit_eq_ok hsaved
  refine ⟨rfl, rfl, rfl, rfl, ?_, ?_, ?_, ?_⟩
  · rw [← hnew, commits_saveBlob]
  · simp
  · simp
  · intro n
    rw [get?_refs_moveReference]
    simp

/-- The write of a merge: the locked reference, if there is one, has not moved. -/
theorem recorded_of_mergeWrite {st st' : Store V} {args : MergeArgs V}
    {sourceHash targetHash : String} {content : Config V} {now : ℕ} {c : Commit}
    (h : st.mergeWrite env args sourceHash targetHash content now = .ok (c, st')) :
    (∀ hash, st.lockedRef mainAliases args.targetRef = some hash → hash = targetHash) ∧
      ∃ metadata, metadata.parents = some [targetHash, sourceHash] ∧
        Recorded env st content (some targetHash) metadata args.targetRef c st' := by
  unfold mergeWrite at h
  cases hlock : st.lockedRef mainAliases args.targetRef with
  | none =>
    rw [hlock] at h
    exact ⟨by simp, _, rfl, recorded_of_record h⟩
  | some hash =>
    rw [hlock] at h
    dsimp only at h
    split at h
    · cases h
    · rename_i hsame
      refine ⟨?_, _, rfl, recorded_of_record h⟩
      intro hash' hhash'
      obtain rfl := Option.some.inj hhash'
      exact not_not.mp hsame

end Store

/-! ## §2 Operations -/

/-- The calls that write to the store. -/
inductive StoreOp (V : Type) where
  | commit (content : Config V) (author message ref : String) (metadata : Metadata) (now : ℕ)
  | seedIfEmpty (content : Config V) (author message ref : String) (now : ℕ)
  | reset (ref commitHashOrRef : String)
  | branch (name fromRef : String)
  | merge (args : Store.MergeArgs V) (now : ℕ)

/-- A call: the commit that it makes, if any, and the store after it. -/
def StoreOp.perform [DecidableEq V] (env : Env V) (st : Store V) :
    StoreOp V → Except VcsError (Option Commit × Store V)
  | .commit content author message ref metadata now => do
    let (c, st) ← st.commit env content author message ref metadata now
    .ok (some c, st)
  | .seedIfEmpty content author message ref now =>
    st.seedIfEmpty env content author message ref now
  | .reset ref commitHashOrRef => do
    let st ← st.reset ref commitHashOrRef
    .ok (none, st)
  | .branch name fromRef => do
    let st ← st.branch name fromRef
    .ok (none, st)
  | .merge args now => do
    let (c, st) ← st.merge env args now
    .ok (some c, st)

/-- The store after a call that succeeds. -/
def StoreOp.apply [DecidableEq V] (env : Env V) (st : Store V) (op : StoreOp V) :
    Except VcsError (Store V) := do
  let (_, st) ← op.perform env st
  .ok st

/-- The store after a call; a call that fails leaves it unchanged. -/
def StoreOp.step [DecidableEq V] (env : Env V) : Store V → StoreOp V → Store V :=
  attempt (StoreOp.apply env)

/-! ## §3 The invariant -/

/-- What the service relies on: a commit hash is not empty and not a name of the main branch,
    and the dump of a validated configuration is canonical. -/
structure Env.Lawful (env : Env V) : Prop where
  hash_ne : ∀ blobHash parentHash author message metadata now,
    env.computeCommitHash blobHash parentHash author message metadata now ∉
      "" :: Store.mainAliases
  validate_canonical : ∀ c c', env.validate c = .ok c' → Canonical c'

namespace Store.Recorded

variable {env : Env V} {st st' : Store V} {content : Config V} {parentHash : Option String}
  {metadata : Metadata} {ref : String} {c : Commit}

theorem hash_notMem (h : Recorded env st content parentHash metadata ref c st')
    (henv : env.Lawful) : c.hash ∉ "" :: mainAliases := by
  rw [h.hash_eq]
  apply henv.hash_ne

theorem hash_ne_empty (h : Recorded env st content parentHash metadata ref c st')
    (henv : env.Lawful) : c.hash ≠ "" := by
  intro hempty
  apply h.hash_notMem henv
  rw [hempty]
  exact List.mem_cons_self

end Store.Recorded

/-- Commits lie under their hashes, edges and references lead to stored commits, and every commit
    has its blob, which is canonical. -/
structure WellFormed (st : Store V) : Prop where
  hash_eq : ∀ h c, st.commits.get? h = some c → c.hash = h ∧ h ≠ ""
  edges_stored : ∀ h c, st.commits.get? h = some c → ∀ p ∈ c.edges, st.commits.get? p ≠ none
  blob_stored : ∀ h c, st.commits.get? h = some c → st.blobs.get? c.blobHash ≠ none
  blob_canonical : ∀ k x, st.blobs.get? k = some x → Canonical x
  refs_stored : ∀ n h, st.refs.get? n = some h → st.commits.get? h ≠ none

theorem wellFormed_empty : WellFormed (Store.empty : Store V) := by
  refine ⟨?_, ?_, ?_, ?_, ?_⟩ <;> simp [Store.empty]

namespace WellFormed

variable {env : Env V} {st st' : Store V}

/-- A name resolves to a stored commit. -/
theorem stored_of_resolve (hst : WellFormed st) {name hash : String}
    (h : st.resolveCommitHash name = .ok hash) : st.commits.get? hash ≠ none := by
  unfold Store.resolveCommitHash at h
  split at h
  · rename_i hash' hfound
    obtain rfl := Except.ok.inj h
    obtain ⟨n, -, hn⟩ := List.exists_of_findSome?_eq_some hfound
    exact hst.refs_stored n hash' hn
  · split at h
    · rename_i c hc
      obtain rfl := Except.ok.inj h
      rw [(hst.hash_eq name c hc).1, hc]
      simp
    · cases h

theorem stored_of_lockedRef (hst : WellFormed st) {aliases : List String} {ref hash : String}
    (h : st.lockedRef aliases ref = some hash) : st.commits.get? hash ≠ none := by
  unfold Store.lockedRef at h
  split at h
  · rename_i hash' hget
    obtain rfl := Option.some.inj h
    exact hst.refs_stored ref hash' hget
  · split at h
    · obtain ⟨n, -, hn⟩ := List.exists_of_findSome?_eq_some h
      exact hst.refs_stored n hash hn
    · cases h

theorem setReference (hst : WellFormed st) {name hash : String}
    (hhash : st.commits.get? hash ≠ none) : WellFormed (st.setReference name hash) := by
  refine ⟨hst.hash_eq, hst.edges_stored, hst.blob_stored, hst.blob_canonical, ?_⟩
  intro n h hn
  rw [Store.get?_refs_setReference] at hn
  split at hn
  · obtain rfl := Option.some.inj hn
    exact hhash
  · exact hst.refs_stored n h hn

/-- A new commit whose edges lead to stored commits. -/
theorem recorded (hst : WellFormed st) (henv : env.Lawful) {content : Config V}
    {parentHash : Option String} {metadata : Metadata} {ref : String} {c : Commit}
    (h : Store.Recorded env st content parentHash metadata ref c st')
    (hcontent : Canonical content) (hparent : ∀ p ∈ parentHash, st.commits.get? p ≠ none)
    (hparents : ∀ p ∈ metadata.parents.getD [], st.commits.get? p ≠ none) :
    WellFormed st' := by
  refine ⟨?_, ?_, ?_, ?_, ?_⟩
  · intro k c' hc'
    rcases h.commit_cases hc' with ⟨rfl, rfl⟩ | hold
    · exact ⟨rfl, h.hash_ne_empty henv⟩
    · exact hst.hash_eq k c' hold
  · intro k c' hc' p hp
    apply h.commits_kept
    rcases h.commit_cases hc' with ⟨rfl, rfl⟩ | hold
    · -- the edges of the new commit are its parent and the parents of its metadata
      rw [Commit.edges, h.parentHash_eq, h.metadata_eq, List.mem_append, List.mem_filter,
        Option.mem_toList] at hp
      rcases hp with hp | hp
      · exact hparent p hp.1
      · exact hparents p hp
    · exact hst.edges_stored k c' hold p hp
  · intro k c' hc'
    rw [h.blobs_eq, Store.get?_blobs_saveBlob]
    rcases h.commit_cases hc' with ⟨rfl, rfl⟩ | hold
    · rw [if_pos rfl]
      simp
    · split
      · simp
      · exact hst.blob_stored k c' hold
  · intro k x hx
    rw [h.blobs_eq, Store.get?_blobs_saveBlob] at hx
    split at hx
    · -- a blob that is stored already stays as it is
      cases hold : st.blobs.get? c.blobHash with
      | none =>
        rw [hold] at hx
        exact Option.some.inj hx ▸ hcontent
      | some y =>
        rw [hold] at hx
        exact Option.some.inj hx ▸ hst.blob_canonical _ y hold
    · exact hst.blob_canonical k x hx
  · -- a row names the new commit, or one that was stored
    intro n k hn
    rw [h.refs_eq] at hn
    split at hn
    · obtain rfl := Option.some.inj hn
      rw [h.commits_eq, Dict.get?_set, if_pos rfl]
      simp
    · exact h.commits_kept (hst.refs_stored n k hn)

end WellFormed

/-- A call with a canonical configuration, and with parents in its metadata only if they are
    stored commits. -/
def StoreOp.Admissible (st : Store V) : StoreOp V → Prop
  | .commit content _ _ _ metadata _ =>
    Canonical content ∧ ∀ p ∈ metadata.parents.getD [], st.commits.get? p ≠ none
  | .seedIfEmpty content _ _ _ _ => Canonical content
  | _ => True

variable [DecidableEq V] {env : Env V}

/-- The configuration that a merge commits has been validated. -/
theorem canonical_of_mergedContent (henv : env.Lawful) {st : Store V} {args : Store.MergeArgs V}
    {content : Config V} (h : st.mergedContent env args = .ok content) : Canonical content := by
  unfold Store.mergedContent at h
  obtain ⟨finalConfig, -, hvalid⟩ := bind_eq_ok.mp h
  unfold Store.validated at hvalid
  split at hvalid
  · rename_i c' hc'
    obtain rfl := Except.ok.inj hvalid
    exact henv.validate_canonical _ _ hc'
  · cases hvalid

/-- A merge that succeeds: what it resolved, and what it wrote. -/
theorem merge_eq_ok {st st' : Store V} {args : Store.MergeArgs V} {now : ℕ} {c : Commit}
    (h : st.merge env args now = .ok (c, st')) :
    ∃ sourceHash targetHash content, st.resolveCommitHash args.source = .ok sourceHash ∧
      st.resolveCommitHash args.targetRef = .ok targetHash ∧
      st.mergedContent env args = .ok content ∧
      st.mergeWrite env args sourceHash targetHash content now = .ok (c, st') := by
  unfold Store.merge at h
  obtain ⟨sourceHash, hsource, h⟩ := bind_eq_ok.mp h
  obtain ⟨targetHash, htarget, h⟩ := bind_eq_ok.mp h
  obtain ⟨-, -, h⟩ := bind_eq_ok.mp h
  obtain ⟨content, hcontent, h⟩ := bind_eq_ok.mp h
  exact ⟨sourceHash, targetHash, content, hsource, htarget, hcontent, h⟩

omit [DecidableEq V] in
/-- Seeding either finds the branch and writes its two names again, or it is a commit. -/
theorem seedIfEmpty_eq_ok {st st' : Store V} {content : Config V} {author message ref : String}
    {now : ℕ} {made : Option Commit}
    (h : st.seedIfEmpty env content author message ref now = .ok (made, st')) :
    (∃ hash, st.lockedRef Store.commitAliases ref = some hash ∧ made = none ∧
      st' = if ref ∈ Store.mainAliases then
        (st.setReference "HEAD" hash).setReference "refs/heads/main" hash else st) ∨
    (st.lockedRef Store.commitAliases ref = none ∧ ∃ c, made = some c ∧
      st.commit env content author message ref ⟨none, []⟩ now = .ok (c, st')) := by
  unfold Store.seedIfEmpty at h
  cases hlock : st.lockedRef Store.commitAliases ref with
  | some hash =>
    simp only [hlock, Except.ok.injEq, Prod.mk.injEq] at h
    exact Or.inl ⟨hash, rfl, h.1.symm, h.2.symm⟩
  | none =>
    simp only [hlock] at h
    obtain ⟨⟨c, st₁⟩, hcommit, heq⟩ := bind_eq_ok.mp h
    obtain ⟨rfl, rfl⟩ := Prod.mk.inj (Except.ok.inj heq)
    exact Or.inr ⟨rfl, c, rfl, hcommit⟩

theorem perform_of_apply {st st' : Store V} {op : StoreOp V} (h : op.apply env st = .ok st') :
    ∃ made, op.perform env st = .ok (made, st') := by
  obtain ⟨⟨made, st''⟩, hperform, heq⟩ := bind_eq_ok.mp h
  obtain rfl := Except.ok.inj heq
  exact ⟨made, hperform⟩

/-- What a call does that succeeds: it records a commit, or it moves references to a hash that it
    has found.

    The calls are taken apart here once; what follows goes by these cases. -/
inductive Performed (env : Env V) (st : Store V) : StoreOp V → Option Commit → Store V → Prop where
  | commit {content : Config V} {author message ref : String} {metadata : Metadata} {now : ℕ}
      {c : Commit} {st' : Store V}
      (hrecorded : Store.Recorded env st content (st.lockedRef Store.commitAliases ref) metadata
        ref c st') :
      Performed env st (.commit content author message ref metadata now) (some c) st'
  | seeded {content : Config V} {author message ref : String} {now : ℕ} {c : Commit}
      {st' : Store V} (hlock : st.lockedRef Store.commitAliases ref = none)
      (hrecorded : Store.Recorded env st content none ⟨none, []⟩ ref c st') :
      Performed env st (.seedIfEmpty content author message ref now) (some c) st'
  | seededBefore {content : Config V} {author message ref hash : String} {now : ℕ}
      (hlock : st.lockedRef Store.commitAliases ref = some hash) :
      Performed env st (.seedIfEmpty content author message ref now) none
        (if ref ∈ Store.mainAliases then
          (st.setReference "HEAD" hash).setReference "refs/heads/main" hash else st)
  | reset {ref commitHashOrRef hash : String}
      (hresolve : st.resolveCommitHash commitHashOrRef = .ok hash) :
      Performed env st (.reset ref commitHashOrRef) none (st.setReference ref hash)
  | branch {name fromRef hash : String} (hresolve : st.resolveCommitHash fromRef = .ok hash) :
      Performed env st (.branch name fromRef) none (st.setReference name hash)
  | merge {args : Store.MergeArgs V} {now : ℕ} {sourceHash targetHash : String}
      {content : Config V} {metadata : Metadata} {c : Commit} {st' : Store V}
      (hsource : st.resolveCommitHash args.source = .ok sourceHash)
      (htarget : st.resolveCommitHash args.targetRef = .ok targetHash)
      (hcontent : st.mergedContent env args = .ok content)
      (hmetadata : metadata.parents = some [targetHash, sourceHash])
      (hrecorded : Store.Recorded env st content (some targetHash) metadata args.targetRef c st') :
      Performed env st (.merge args now) (some c) st'

/-- **Every call that succeeds** records a commit or moves references. -/
theorem performed_of_perform {st st' : Store V} {op : StoreOp V} {made : Option Commit}
    (h : op.perform env st = .ok (made, st')) : Performed env st op made st' := by
  -- one case for each kind of call, peeled apart by what its steps returned
  cases op with
  | commit content author message ref metadata now =>
    obtain ⟨⟨c, st''⟩, hcommit, heq⟩ := bind_eq_ok.mp h
    obtain ⟨rfl, rfl⟩ := Prod.mk.inj (Except.ok.inj heq)
    exact .commit (Store.recorded_of_record hcommit)
  | seedIfEmpty content author message ref now =>
    rcases seedIfEmpty_eq_ok h with ⟨hash, hlock, rfl, rfl⟩ | ⟨hlock, c, rfl, hcommit⟩
    · exact .seededBefore hlock
    · have hrecorded := Store.recorded_of_record hcommit
      rw [hlock] at hrecorded
      exact .seeded hlock hrecorded
  | reset ref commitHashOrRef =>
    obtain ⟨st'', hreset, heq⟩ := bind_eq_ok.mp h
    obtain ⟨rfl, rfl⟩ := Prod.mk.inj (Except.ok.inj heq)
    obtain ⟨hash, hresolve, heq⟩ := bind_eq_ok.mp hreset
    obtain rfl := Except.ok.inj heq
    exact .reset hresolve
  | branch name fromRef =>
    obtain ⟨st'', hbranch, heq⟩ := bind_eq_ok.mp h
    obtain ⟨rfl, rfl⟩ := Prod.mk.inj (Except.ok.inj heq)
    obtain ⟨hash, hresolve, heq⟩ := bind_eq_ok.mp hbranch
    obtain rfl := Except.ok.inj heq
    exact .branch hresolve
  | merge args now =>
    obtain ⟨⟨c, st''⟩, hmerge, heq⟩ := bind_eq_ok.mp h
    obtain ⟨rfl, rfl⟩ := Prod.mk.inj (Except.ok.inj heq)
    obtain ⟨sourceHash, targetHash, content, hsource, htarget, hcontent, hwrite⟩ :=
      merge_eq_ok hmerge
    obtain ⟨-, metadata, hmetadata, hrecorded⟩ := Store.recorded_of_mergeWrite hwrite
    exact .merge hsource htarget hcontent hmetadata hrecorded

/-- **Every operation keeps the store well-formed.** -/
theorem WellFormed.step (henv : env.Lawful) {st : Store V} {op : StoreOp V} (hst : WellFormed st)
    (hop : op.Admissible st) : WellFormed (StoreOp.step env st op) := by
  apply attempt_invariant WellFormed hst
  intro st' happly
  obtain ⟨made, h⟩ := perform_of_apply happly
  cases performed_of_perform h with
  | commit hrecorded =>
    exact hst.recorded henv hrecorded hop.1 (fun _ hp => hst.stored_of_lockedRef hp) hop.2
  | seeded hlock hrecorded => exact hst.recorded henv hrecorded hop (by simp) (by simp)
  | seededBefore hlock =>
    have hhash := hst.stored_of_lockedRef hlock
    split
    · exact (hst.setReference hhash).setReference hhash
    · exact hst
  | reset hresolve | branch hresolve => exact hst.setReference (hst.stored_of_resolve hresolve)
  | merge hsource htarget hcontent hmetadata hrecorded =>
    apply hst.recorded henv hrecorded (canonical_of_mergedContent henv hcontent)
    · intro p hp
      obtain rfl := Option.some.inj hp
      exact hst.stored_of_resolve htarget
    · intro p hp
      rw [hmetadata, Option.getD_some] at hp
      rcases List.mem_cons.mp hp with rfl | hp
      · exact hst.stored_of_resolve htarget
      · obtain rfl := List.mem_singleton.mp hp
        exact hst.stored_of_resolve hsource

/-- Every store that the service builds from nothing is well-formed. -/
theorem wellFormed_run (henv : env.Lawful) {ops : List (StoreOp V)}
    (hops : Along (StoreOp.step env) StoreOp.Admissible Store.empty ops) :
    WellFormed (run (StoreOp.step env) Store.empty ops) :=
  run_invariant_along WellFormed (fun _ _ hst hop => hst.step henv hop) wellFormed_empty hops

/-! ## §4 Keys -/

/-- Commits are stored under their hashes, which are the primary keys of their table. -/
def Keyed (st : Store V) : Prop := ∀ h c, st.commits.get? h = some c → c.hash = h

omit [DecidableEq V] in
theorem Keyed.recorded {st st' : Store V} (hst : Keyed st) {content : Config V}
    {parentHash : Option String} {metadata : Metadata} {ref : String} {c : Commit}
    (h : Store.Recorded env st content parentHash metadata ref c st') : Keyed st' := by
  intro k c' hc'
  rcases h.commit_cases hc' with ⟨rfl, rfl⟩ | hold
  · rfl
  · exact hst k c' hold

/-- Every operation stores commits under their hashes, whatever the hash function is. -/
theorem Keyed.step {st : Store V} {op : StoreOp V} (hst : Keyed st) :
    Keyed (StoreOp.step env st op) := by
  apply attempt_invariant Keyed hst
  intro st' happly
  obtain ⟨made, h⟩ := perform_of_apply happly
  cases performed_of_perform h with
  | commit hrecorded | seeded _ hrecorded => exact hst.recorded hrecorded
  | merge _ _ _ _ hrecorded => exact hst.recorded hrecorded
  | seededBefore _ =>
    split
    · exact hst
    · exact hst
  | reset _ | branch _ => exact hst

omit [DecidableEq V] in
/-- A hash that no reference is named after stands for itself. -/
theorem Keyed.resolve_eq {st : Store V} (hst : Keyed st) {name hash : String}
    (hnames : ∀ n ∈ Store.candidates name, st.refs.get? n = none)
    (h : st.resolveCommitHash name = .ok hash) : hash = name := by
  unfold Store.resolveCommitHash at h
  rw [List.findSome?_eq_none_iff.mpr hnames] at h
  simp only at h
  split at h
  · rename_i c hc
    obtain rfl := Except.ok.inj h
    exact hst name c hc
  · cases h

/-- Every store that the service builds from nothing has its commits under their hashes. -/
theorem keyed_run (ops : List (StoreOp V)) : Keyed (run (StoreOp.step env) Store.empty ops) := by
  refine run_invariant Keyed (fun _ _ hst => hst.step) ?_ ops
  intro h c hc
  cases hc

end CryptoTrading.Vcs

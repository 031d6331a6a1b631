import CryptoTrading.Lib.BreadthFirst
import CryptoTrading.Vcs.SemanticMerge

/-!
# The configuration store

Embeds `src/vcs/application/service.py` over the tables of references, commits and blobs
(`src/database/repositories/providers/postgres_ref_repository.py`,
`postgres_commit_repository.py`, `postgres_blob_repository.py`).

The parameters of the store (`Env`) are the hash functions, the validation of a
configuration, and the string functions of the merge engine.  A unit of work either writes
everything or nothing: an operation returns the new store or an error.  A commit whose hash
is already stored violates the primary key.
-/

namespace CryptoTrading.Vcs

open CryptoTrading.Lib

/-! ## §1 Tables -/

/-- The metadata of a commit: the parents of a merge, and everything else. -/
structure Metadata where
  parents : Option (List String)
  rest : List (String × String)
  deriving DecidableEq

structure Commit where
  hash : String
  blobHash : String
  parentHash : Option String
  author : String
  message : String
  metadata : Metadata
  createdAt : ℕ
  deriving DecidableEq

/-- The hashes a commit points to: `parent_hash` unless it is null or empty, then the parents
    in its metadata. -/
def Commit.edges (c : Commit) : List String :=
  (c.parentHash.toList.filter fun h => h ≠ "") ++ c.metadata.parents.getD []

structure Store (V : Type) where
  refs : Dict String String
  commits : Dict String Commit
  blobs : Dict String (Config V)
  deriving DecidableEq

/-- What the service uses from elsewhere. -/
structure Env (V : Type) where
  str : FieldValue V → String
  upper : String → String
  computeBlobHash : Config V → String
  computeCommitHash : String → Option String → String → String → Metadata → ℕ → String
  /-- `TradingConfig.model_validate` followed by the canonical dump. -/
  validate : Config V → Except String (Config V)

inductive VcsError where
  | invalidReference (name : String)
  | commitNotFound (hash : String)
  | blobNotFound (hash : String)
  | targetHeadChanged (expected actual : String)
  | unresolvedConflicts (count : ℕ)
  | invalidConfig (error : String)
  | updatedConcurrently
  | duplicateCommit (hash : String)
  deriving DecidableEq

namespace Store

variable {V : Type}

def empty : Store V := ⟨Dict.empty, Dict.empty, Dict.empty⟩

/-! ## §2 Reading -/

/-- The names of the main branch, in the order in which `resolve_commit_hash` and `merge`
    look for them. -/
def mainAliases : List String := ["refs/heads/main", "main", "HEAD"]

/-- The names of the main branch, in the order of `commit` and `seed_if_empty`. -/
def commitAliases : List String := ["HEAD", "refs/heads/main", "main"]

/-- The names of references that a name can stand for, in order of priority. -/
def candidates (name : String) : List String :=
  if name ∈ mainAliases then
    name :: mainAliases.filter fun aliasName => aliasName ≠ name
  else if name.startsWith "refs/heads/" then
    [name, (name.drop "refs/heads/".length).toString]
  else if name.startsWith "backtest/" then
    -- a short name of a backtest branch
    [name, "refs/heads/" ++ name]
  else
    [name, "refs/heads/" ++ name, "refs/heads/backtest/" ++ name]

/-- `VCSService.resolve_commit_hash`. -/
def resolveCommitHash (st : Store V) (name : String) : Except VcsError String :=
  match (candidates name).findSome? st.refs.get? with
  | some hash => .ok hash
  | none =>
    -- no reference has the name, so it must be a hash
    match st.commits.get? name with
    | some c => .ok c.hash
    | none => .error (.invalidReference name)

/-- `VCSService.get_blob` and `checkout`. -/
def checkout (st : Store V) (name : String) : Except VcsError (Config V) := do
  let hash ← st.resolveCommitHash name
  match st.commits.get? hash with
  | none => .error (.commitNotFound hash)
  | some c =>
    match st.blobs.get? c.blobHash with
    | none => .error (.blobNotFound c.blobHash)
    | some content => .ok content

/-- `PostgresCommitRepository.get_log`. -/
def getLog (st : Store V) : ℕ → Option String → List Commit
  | 0, _ => []
  | _, none => []
  | limit + 1, some hash =>
    -- only the first parents are followed
    if hash = "" then []
    else
      match st.commits.get? hash with
      | none => []
      | some c => c :: getLog st limit c.parentHash

/-- `VCSService.log`, by default with a limit of 100. -/
def log (st : Store V) (ref : String) (limit : ℕ) : Except VcsError (List Commit) := do
  let hash ← st.resolveCommitHash ref
  .ok (st.getLog limit (some hash))

/-- The reference that an operation locks: the name itself, or for a name of the main branch
    the first of its names that exists. -/
def lockedRef (st : Store V) (aliases : List String) (ref : String) : Option String :=
  match st.refs.get? ref with
  | some hash => some hash
  | none => if ref ∈ mainAliases then aliases.findSome? st.refs.get? else none

/-! ## §3 The merge base -/

/-- What a search over the commits follows; a hash that is not stored leads nowhere. -/
def parents (st : Store V) (hash : String) : List String :=
  match st.commits.get? hash with
  | some c => c.edges
  | none => []

/-- The note of the first search: `ancestors_a[hash] = depth`. -/
def noteDepth (ancestors : Dict String ℕ) (visit : String × ℕ) : Dict String ℕ :=
  ancestors.set visit.1 visit.2

/-- The note of the second search: a common ancestor with its total depth. -/
def noteCandidate (ancestorsA : Dict String ℕ) (found : List (ℕ × String))
    (visit : String × ℕ) : List (ℕ × String) :=
  match ancestorsA.get? visit.1 with
  | some depth => found ++ [(depth + visit.2, visit.1)]
  | none => found

/-- `VCSService.find_merge_base`, with fuel for each of its two loops.  Nothing is returned
    when a loop has not come to its end. -/
def findMergeBaseWith (fuel : ℕ) (st : Store V) (commitA commitB : String) :
    Option (Except VcsError (Option String)) :=
  match st.resolveCommitHash commitA, st.resolveCommitHash commitB with
  | .error e, _ => some (.error e)
  | .ok _, .error e => some (.error e)
  | .ok hashA, .ok hashB =>
    if hashA = hashB then some (.ok (some hashA))
    else
      match search st.parents noteDepth fuel [(hashA, 0)] [] Dict.empty with
      | none => none
      | some ancestorsA =>
        match search st.parents (noteCandidate ancestorsA) fuel [(hashB, 0)] [] [] with
        | none => none
        | some found =>
          -- `list.sort` is stable: among equal depths the first one found wins
          some (.ok ((found.insertionSort fun x y => x.1 ≤ y.1).head?.map Prod.snd))

/-- The number of edges of the store bounds the loops. -/
def searchFuel (st : Store V) : ℕ := (st.commits.values.map fun c => c.edges.length).sum + 1

def findMergeBase (st : Store V) (commitA commitB : String) : Except VcsError (Option String) :=
  (findMergeBaseWith st.searchFuel st commitA commitB).getD (.ok none)

/-! ## §4 Writing -/

def saveBlob (st : Store V) (hash : String) (content : Config V) : Store V :=
  if st.blobs.contains hash then st else { st with blobs := st.blobs.set hash content }

def saveCommit (st : Store V) (c : Commit) : Except VcsError (Store V) :=
  if st.commits.contains c.hash then .error (.duplicateCommit c.hash)
  else .ok { st with commits := st.commits.set c.hash c }

def setReference (st : Store V) (name hash : String) : Store V :=
  { st with refs := st.refs.set name hash }

/-- Move a reference; the names HEAD and refs/heads/main follow any name of the main branch. -/
def moveReference (st : Store V) (ref hash : String) : Store V :=
  let st := st.setReference ref hash
  -- a row `main` is left alone unless it is the name itself
  if ref ∈ mainAliases then (st.setReference "HEAD" hash).setReference "refs/heads/main" hash
  else st

variable (env : Env V)

/-- The common end of `commit` and `merge`: save the blob and the commit, move the reference. -/
def record (st : Store V) (content : Config V) (parentHash : Option String)
    (author message : String) (metadata : Metadata) (now : ℕ) (ref : String) :
    Except VcsError (Commit × Store V) := do
  let blobHash := env.computeBlobHash content
  let hash := env.computeCommitHash blobHash parentHash author message metadata now
  let c : Commit := ⟨hash, blobHash, parentHash, author, message, metadata, now⟩
  let st ← (st.saveBlob blobHash content).saveCommit c
  .ok (c, st.moveReference ref hash)

/-- `VCSService.commit`. -/
def commit (st : Store V) (content : Config V) (author message ref : String)
    (metadata : Metadata) (now : ℕ) : Except VcsError (Commit × Store V) :=
  st.record env content (st.lockedRef commitAliases ref) author message metadata now ref

/-- `VCSService.seed_if_empty`. -/
def seedIfEmpty (st : Store V) (content : Config V) (author message ref : String) (now : ℕ) :
    Except VcsError (Option Commit × Store V) :=
  match st.lockedRef commitAliases ref with
  | some hash =>
    -- the branch exists; the names of the main branch are brought in line
    .ok (none, if ref ∈ mainAliases then
      (st.setReference "HEAD" hash).setReference "refs/heads/main" hash else st)
  | none => do
    let (c, st) ← st.commit env content author message ref ⟨none, []⟩ now
    .ok (some c, st)

/-- `VCSService.reset`. -/
def reset (st : Store V) (ref commitHashOrRef : String) : Except VcsError (Store V) := do
  let hash ← st.resolveCommitHash commitHashOrRef
  .ok (st.setReference ref hash)

/-- `VCSService.branch`. -/
def branch (st : Store V) (name fromRef : String) : Except VcsError (Store V) := do
  let hash ← st.resolveCommitHash fromRef
  .ok (st.setReference name hash)

/-! ## §5 Merging -/

inductive MergeStatus where
  | clean
  | conflict
  | fastForward
  deriving DecidableEq

structure MergePreview (V : Type) where
  status : MergeStatus
  mergeBaseHash : String
  targetHeadHash : String
  sourceCommitHash : String
  canFastForward : Bool
  conflicts : List (FieldConflict V)
  mergedConfig : Config V
  validationErrors : List String

/-- The status of a preview. -/
def mergeStatus (canFastForward : Bool) (conflicts : List (FieldConflict V)) : MergeStatus :=
  if conflicts.isEmpty then (if canFastForward then .fastForward else .clean) else .conflict

/-- The errors of `TradingConfig.model_validate`. -/
def validationErrors (config : Config V) : List String :=
  match env.validate config with
  | .ok _ => []
  | .error e => [e]

variable [DecidableEq V]

omit [DecidableEq V] in
/-- The target of a preview; an unknown name stands for HEAD. -/
def previewTarget (st : Store V) (targetRef : String) : Except VcsError String :=
  match st.resolveCommitHash targetRef with
  | .ok hash => .ok hash
  | .error _ => st.resolveCommitHash "HEAD"

/-- `VCSService.preview_merge`. -/
def previewMerge (st : Store V) (source targetRef : String) :
    Except VcsError (MergePreview V) := do
  let sourceHash ← st.resolveCommitHash source
  let targetHash ← st.previewTarget targetRef
  let found ← st.findMergeBase targetHash sourceHash
  -- unrelated histories are merged over the target
  let mergeBase := (found.filter fun h => h ≠ "").getD targetHash
  let canFastForward := decide (mergeBase = targetHash)
  if sourceHash = targetHash then
    let mergedConfig ← st.checkout sourceHash
    .ok ⟨.clean, mergeBase, targetHash, sourceHash, true, [], mergedConfig, []⟩
  else
    let baseConfig ← st.checkout mergeBase
    let oursConfig ← st.checkout targetHash
    let theirsConfig ← st.checkout sourceHash
    let (mergedConfig, conflicts) :=
      SemanticMergeEngine.merge env.str env.upper baseConfig oursConfig theirsConfig
    .ok ⟨mergeStatus canFastForward conflicts, mergeBase, targetHash, sourceHash, canFastForward,
      conflicts, mergedConfig, validationErrors env mergedConfig⟩

/-- The arguments of `VCSService.merge`. -/
structure MergeArgs (V : Type) where
  source : String
  targetRef : String
  author : String
  message : Option String
  expectedTargetHead : Option String
  resolvedConfig : Option (Config V)

omit [DecidableEq V] in
/-- The check of `merge` against the head that the caller expects. -/
def checkExpectedHead (args : MergeArgs V) (targetHash : String) : Except VcsError Unit :=
  match args.expectedTargetHead with
  | some expected =>
    if expected ≠ "" ∧ targetHash ≠ expected then .error (.targetHeadChanged expected targetHash)
    else .ok ()
  | none => .ok ()

/-- The configuration of a merge: the resolved one, or that of a preview without conflicts. -/
def finalConfig (st : Store V) (args : MergeArgs V) : Except VcsError (Config V) :=
  match args.resolvedConfig with
  | some config => .ok config
  | none => do
    let preview ← st.previewMerge env args.source args.targetRef
    if preview.conflicts ≠ [] then .error (.unresolvedConflicts preview.conflicts.length)
    else .ok preview.mergedConfig

omit [DecidableEq V] in
def validated (config : Config V) : Except VcsError (Config V) :=
  match env.validate config with
  | .ok content => .ok content
  | .error e => .error (.invalidConfig e)

/-- What a merge commits: the validated configuration. -/
def mergedContent (st : Store V) (args : MergeArgs V) : Except VcsError (Config V) := do
  let config ← st.finalConfig env args
  validated env config

omit [DecidableEq V] in
/-- `message or f"Merge ..."`. -/
def mergeMessage (args : MergeArgs V) : String :=
  match args.message with
  | some message =>
    if message = "" then "Merge '" ++ args.source ++ "' into " ++ args.targetRef else message
  | none => "Merge '" ++ args.source ++ "' into " ++ args.targetRef

omit [DecidableEq V] in
/-- The writes of `merge`. -/
def recordMerge (st : Store V) (args : MergeArgs V) (sourceHash targetHash : String)
    (content : Config V) (now : ℕ) : Except VcsError (Commit × Store V) :=
  st.record env content (some targetHash) args.author (mergeMessage args)
    ⟨some [targetHash, sourceHash],
      [("merge_source", args.source), ("merge_target", args.targetRef)]⟩ now args.targetRef

omit [DecidableEq V] in
/-- The unit of work of `merge`: the target must not have moved. -/
def mergeWrite (st : Store V) (args : MergeArgs V) (sourceHash targetHash : String)
    (content : Config V) (now : ℕ) : Except VcsError (Commit × Store V) :=
  match st.lockedRef mainAliases args.targetRef with
  | some hash =>
    -- the tip is compared with the one resolved before the unit of work
    if hash ≠ targetHash then .error .updatedConcurrently
    else st.recordMerge env args sourceHash targetHash content now
  -- without a row there is nothing to compare
  | none => st.recordMerge env args sourceHash targetHash content now

/-- `VCSService.merge`. -/
def merge (st : Store V) (args : MergeArgs V) (now : ℕ) : Except VcsError (Commit × Store V) := do
  let sourceHash ← st.resolveCommitHash args.source
  let targetHash ← st.resolveCommitHash args.targetRef
  checkExpectedHead args targetHash
  let content ← st.mergedContent env args
  st.mergeWrite env args sourceHash targetHash content now

end Store

end CryptoTrading.Vcs

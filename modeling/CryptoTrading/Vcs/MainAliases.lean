import CryptoTrading.Vcs.FastForward

/-!
# The names of the main branch

`HEAD`, `refs/heads/main` and `main` stand for one branch, kept in up to three rows.  The
rows agree (`MainAt`) as long as

- nothing is committed through `HEAD` or `refs/heads/main` once there is a row `main`, which
  such a commit does not move;
- a reset, which moves one row only, goes where the other rows already are.

Then every commit continues the branch, and the log of the branch has all commits made since
the last reset, up to its limit.
-/

namespace CryptoTrading.Vcs

open CryptoTrading.Lib Store

variable {V : Type}

/-! ## §1 Rows that agree -/

/-- All the names resolve to one commit, or none does. -/
def Coherent (st : Store V) : Prop :=
  ∃ tip, ∀ n ∈ mainAliases, (st.resolveCommitHash n).toOption = tip

/-- No commit has a name of the main branch for its hash. -/
def AliasFree (st : Store V) : Prop := ∀ n ∈ mainAliases, st.commits.get? n = none

/-- Some of the names have rows, and all the rows agree on the tip. -/
def RowsAt (st : Store V) (names : List String) (tip : String) : Prop :=
  (∃ n ∈ names, st.refs.get? n = some tip) ∧ ∀ n ∈ names, ∀ h, st.refs.get? n = some h → h = tip

/-- The rows of the main branch agree on its tip. -/
def MainAt (st : Store V) : Option String → Prop
  | none => ∀ n ∈ mainAliases, st.refs.get? n = none
  | some tip => RowsAt st mainAliases tip

/-- Looking through the names in any order finds the tip. -/
theorem MainAt.findSome? {st : Store V} {tip : Option String} (h : MainAt st tip)
    {names : List String} (hnames : ∀ n, n ∈ names ↔ n ∈ mainAliases) :
    names.findSome? st.refs.get? = tip := by
  cases tip with
  | none =>
    rw [List.findSome?_eq_none_iff]
    intro n hn
    exact h n ((hnames n).mp hn)
  | some hash =>
    obtain ⟨⟨n, hn, hrow⟩, hall⟩ := h
    cases hfound : names.findSome? st.refs.get? with
    | none =>
      rw [List.findSome?_eq_none_iff] at hfound
      rw [hfound n ((hnames n).mpr hn)] at hrow
      cases hrow
    | some hash' =>
      obtain ⟨n', hn', hrow'⟩ := List.exists_of_findSome?_eq_some hfound
      rw [hall n' ((hnames n').mp hn') hash' hrow']

theorem mem_candidates_main {name : String} (hname : name ∈ mainAliases) (n : String) :
    n ∈ candidates name ↔ n ∈ mainAliases := by
  rw [candidates, if_pos hname, List.mem_cons, List.mem_filter, decide_eq_true_iff]
  constructor
  · rintro (rfl | ⟨hn, -⟩)
    · exact hname
    · exact hn
  · intro hn
    by_cases heq : n = name
    · exact Or.inl heq
    · exact Or.inr ⟨hn, heq⟩

theorem mem_commitAliases (n : String) : n ∈ commitAliases ↔ n ∈ mainAliases := by
  simp only [commitAliases, mainAliases, List.mem_cons, List.not_mem_nil, or_false]
  tauto

/-- A name of the main branch resolves through its rows. -/
theorem toOption_resolve_main {st : Store V} (hfree : AliasFree st) {name : String}
    (hname : name ∈ mainAliases) :
    (st.resolveCommitHash name).toOption = (candidates name).findSome? st.refs.get? := by
  unfold resolveCommitHash
  cases (candidates name).findSome? st.refs.get? with
  | some hash => rfl
  | none =>
    rw [hfree name hname]
    rfl

theorem MainAt.resolve {st : Store V} {tip : Option String} (h : MainAt st tip)
    (hfree : AliasFree st) {name : String} (hname : name ∈ mainAliases) :
    (st.resolveCommitHash name).toOption = tip := by
  rw [toOption_resolve_main hfree hname]
  exact h.findSome? (mem_candidates_main hname)

theorem MainAt.coherent {st : Store V} {tip : Option String} (h : MainAt st tip)
    (hfree : AliasFree st) : Coherent st :=
  ⟨tip, fun _ hn => h.resolve hfree hn⟩

/-- Names that resolve alike have rows that agree. -/
theorem Coherent.mainAt {st : Store V} (h : Coherent st) (hfree : AliasFree st) :
    ∃ tip, MainAt st tip := by
  obtain ⟨tip, htip⟩ := h
  have hrow : ∀ n ∈ mainAliases, ∀ hash, st.refs.get? n = some hash → tip = some hash := by
    intro n hn hash hget
    rw [← htip n hn, toOption_resolve_main hfree hn, candidates, if_pos hn, List.findSome?_cons,
      hget]
  refine ⟨tip, ?_⟩
  cases tip with
  | none =>
    intro n hn
    cases hget : st.refs.get? n with
    | none => rfl
    | some hash => cases hrow n hn hash hget
  | some hash =>
    refine ⟨?_, fun n hn h hget => (Option.some.inj (hrow n hn h hget)).symm⟩
    have hhead : "HEAD" ∈ mainAliases := by decide
    have hfound := htip "HEAD" hhead
    rw [toOption_resolve_main hfree hhead] at hfound
    obtain ⟨n, hn, hget⟩ := List.exists_of_findSome?_eq_some hfound
    exact ⟨n, (mem_candidates_main hhead n).mp hn, hget⟩

/-- What an operation through a name of the main branch locks is the tip. -/
theorem MainAt.lockedRef {st : Store V} {tip : Option String} (h : MainAt st tip)
    {aliases : List String} (haliases : ∀ n, n ∈ aliases ↔ n ∈ mainAliases) {ref : String}
    (href : ref ∈ mainAliases) : st.lockedRef aliases ref = tip := by
  unfold Store.lockedRef
  cases hget : st.refs.get? ref with
  | none =>
    rw [if_pos href]
    exact h.findSome? haliases
  | some hash =>
    cases tip with
    | none =>
      rw [h ref href] at hget
      cases hget
    | some hash' => rw [h.2 ref href hash hget]

/-! ## §2 What keeps the rows together -/

/-- The call is made through a name of the main branch. -/
def StoreOp.ThroughMain : StoreOp V → Prop
  | .commit _ _ _ ref _ _ => ref ∈ mainAliases
  | .seedIfEmpty _ _ _ ref _ => ref ∈ mainAliases
  | .reset ref _ => ref ∈ mainAliases
  | .branch _ _ => False
  | .merge args _ => args.targetRef ∈ mainAliases

/-- A commit through another name finds no row `main`, and a reset goes where the other rows
    of the main branch are. -/
def StoreOp.KeepsRows (st : Store V) : StoreOp V → Prop
  | .commit _ _ _ ref _ _ => ref = "main" ∨ st.refs.get? "main" = none
  | .reset ref commitHashOrRef => ∀ hash, st.resolveCommitHash commitHashOrRef = .ok hash →
      ∀ n ∈ mainAliases, n ≠ ref → ∀ h ∈ st.refs.get? n, h = hash
  | .merge args _ => args.targetRef = "main" ∨ st.refs.get? "main" = none
  | _ => True

variable {env : Env V}

theorem movedBy_main {ref : String} (href : ref ∈ mainAliases) :
    movedBy ref = [ref, "HEAD", "refs/heads/main"] := by
  rw [movedBy, if_pos href]

/-- A recorded commit is the new tip of the names whose rows it moves. -/
theorem RowsAt.recorded {st st' : Store V} {content : Config V} {parentHash : Option String}
    {metadata : Metadata} {ref : String} {c : Commit}
    (h : Recorded env st content parentHash metadata ref c st') {names : List String}
    (href : ref ∈ names) (hrows : ∀ n ∈ names, n ∈ movedBy ref ∨ st.refs.get? n = none) :
    RowsAt st' names c.hash := by
  refine ⟨⟨ref, href, ?_⟩, ?_⟩
  · rw [h.refs_eq, if_pos (mem_movedBy_self ref)]
  · intro n hn hash hget
    rw [h.refs_eq] at hget
    split at hget
    · exact (Option.some.inj hget).symm
    · rename_i hnot
      rw [(hrows n hn).resolve_left hnot] at hget
      cases hget

/-- Only the row `main` can be left behind. -/
theorem mem_movedBy_main {st : Store V} {ref : String} (href : ref ∈ mainAliases)
    (hrows : ref = "main" ∨ st.refs.get? "main" = none) :
    ∀ n ∈ mainAliases, n ∈ movedBy ref ∨ st.refs.get? n = none := by
  intro n hn
  rw [movedBy_main href]
  simp only [mainAliases, List.mem_cons, List.not_mem_nil, or_false] at hn ⊢
  rcases hn with rfl | rfl | rfl
  · exact Or.inl (Or.inr (Or.inr rfl))
  · rcases hrows with rfl | hrow
    · exact Or.inl (Or.inl rfl)
    · exact Or.inr hrow
  · exact Or.inl (Or.inr (Or.inl rfl))

theorem AliasFree.recorded {st st' : Store V} (henv : env.Lawful) (hfree : AliasFree st)
    {content : Config V} {parentHash : Option String} {metadata : Metadata} {ref : String}
    {c : Commit} (h : Recorded env st content parentHash metadata ref c st') :
    AliasFree st' ∧ c.hash ≠ "" := by
  refine ⟨?_, h.hash_ne_empty henv⟩
  intro n hn
  rw [h.commits_eq, Dict.get?_set, if_neg]
  · exact hfree n hn
  · rintro rfl
    exact h.hash_notMem henv (List.mem_cons_of_mem _ hn)

/-! ## §3 The log of the branch -/

/-- More commits make a log at most longer. -/
theorem getLog_subset {st st' : Store V}
    (h : ∀ hash c, st.commits.get? hash = some c → st'.commits.get? hash = some c) (limit : ℕ)
    (hash : Option String) : st.getLog limit hash <+: st'.getLog limit hash := by
  induction limit generalizing hash with
  | zero => exact List.prefix_refl _
  | succ limit ih =>
    cases hash with
    | none => exact List.prefix_refl _
    | some hash =>
      unfold Store.getLog
      split
      · exact List.prefix_refl _
      · cases hget : st.commits.get? hash with
        | none => exact List.nil_prefix
        | some c =>
          rw [h hash c hget]
          exact List.cons_prefix_cons.mpr ⟨rfl, ih c.parentHash⟩

/-- The log of a commit starts with it and goes on with the log of its parent. -/
theorem getLog_succ {st : Store V} {c : Commit} (hne : c.hash ≠ "")
    (hget : st.commits.get? c.hash = some c) (limit : ℕ) :
    st.getLog (limit + 1) (some c.hash) = c :: st.getLog limit c.parentHash := by
  rw [Store.getLog, if_neg hne, hget]

/-- The commits are those from the tip back along the parents. -/
def Continues (st : Store V) (tip : Option String) (made : List Commit) : Prop :=
  ∀ limit, made.length ≤ limit → made <+: st.getLog limit tip

theorem continues_nil (st : Store V) (tip : Option String) : Continues st tip [] :=
  fun _ _ => List.nil_prefix

theorem Continues.mono {st st' : Store V} {tip : Option String} {made : List Commit}
    (hmade : Continues st tip made)
    (h : ∀ hash c, st.commits.get? hash = some c → st'.commits.get? hash = some c) :
    Continues st' tip made :=
  fun limit hlimit => (hmade limit hlimit).trans (getLog_subset h limit tip)

/-- Before the first commit there is nothing to continue. -/
theorem Continues.eq_nil {st : Store V} {made : List Commit} (h : Continues st none made) :
    made = [] := by
  have hlog := h made.length (le_refl _)
  have hnone : st.getLog made.length none = [] := by
    cases made.length <;> rfl
  rw [hnone] at hlog
  exact List.prefix_nil.mp hlog

/-- A commit on the tip continues the branch. -/
theorem Continues.recorded {st st' : Store V} {tip : Option String} {made : List Commit}
    (hmade : Continues st tip made) {content : Config V} {metadata : Metadata} {ref : String}
    {c : Commit} (h : Recorded env st content tip metadata ref c st') (hne : c.hash ≠ "") :
    Continues st' (some c.hash) (c :: made) := by
  have hnew : st'.commits.get? c.hash = some c := by
    rw [h.commits_eq, Dict.get?_set_self]
  intro limit hlimit
  obtain ⟨limit, rfl⟩ : ∃ k, limit = k + 1 := ⟨limit - 1, by
    simp only [List.length_cons] at hlimit
    omega⟩
  rw [getLog_succ hne hnew, h.parentHash_eq]
  refine List.cons_prefix_cons.mpr ⟨rfl, ?_⟩
  exact hmade.mono (fun _ _ hget => h.commit_kept hget) limit (by simpa using hlimit)

/-! ## §4 Sessions -/

variable [DecidableEq V]

/-- The store, and the commits made since the last reset, newest first. -/
structure MainSession (V : Type) where
  store : Store V
  sinceReset : List Commit

/-- The commits that count after a call. -/
def StoreOp.keepMade (made : Option Commit) (before : List Commit) : StoreOp V → List Commit
  | .reset _ _ => []
  | _ => made.toList ++ before

def MainSession.step (env : Env V) (s : MainSession V) (op : StoreOp V) : MainSession V :=
  match op.perform env s.store with
  | .ok (made, st) => ⟨st, op.keepMade made s.sinceReset⟩
  | .error _ => s

/-- The default limit of `log`. -/
def logLimit : ℕ := 100

omit [DecidableEq V] in
/-- One more commit still fits in the log. -/
def StoreOp.FitsLog (made : List Commit) : StoreOp V → Prop
  | .commit .. | .merge .. => made.length < logLimit
  | _ => True

/-- The condition under which the main branch stays one branch: the rows stay together, and
    the log does not grow over its limit. -/
def StoreOp.KeepsMain (s : MainSession V) (op : StoreOp V) : Prop :=
  op.KeepsRows s.store ∧ op.FitsLog s.sinceReset

/-- What a call through the main branch does: a commit continues what all names resolved to,
    the names still resolve alike, and the log has all commits since the last reset. -/
structure OneBranch (env : Env V) (s : MainSession V) (op : StoreOp V) : Prop where
  parent_eq : ∀ c st, op.perform env s.store = .ok (some c, st) →
    ∀ n ∈ mainAliases, (s.store.resolveCommitHash n).toOption = c.parentHash
  coherent : Coherent (s.step env op).store
  logged : ∀ c ∈ (s.step env op).sinceReset,
    ∃ log, (s.step env op).store.log "HEAD" logLimit = .ok log ∧ c ∈ log

/-- The rows agree on a tip from which the commits since the last reset go back.

    No commit is named like a row, so a name that has a row resolves to what the row says, and a
    name without one to what the others say. -/
def MainInv (s : MainSession V) : Prop :=
  AliasFree s.store ∧ s.sinceReset.length ≤ logLimit ∧
    ∃ tip, MainAt s.store tip ∧ Continues s.store tip s.sinceReset

omit [DecidableEq V] in
theorem MainInv.logged {s : MainSession V} (h : MainInv s) {c : Commit}
    (hc : c ∈ s.sinceReset) : ∃ log, s.store.log "HEAD" logLimit = .ok log ∧ c ∈ log := by
  obtain ⟨hfree, hlength, tip, hmain, hmade⟩ := h
  have hhead := hmain.resolve hfree (show "HEAD" ∈ mainAliases by decide)
  have hmem := (hmade logLimit hlength).subset hc
  cases hresolve : s.store.resolveCommitHash "HEAD" with
  | error e =>
    rw [hresolve] at hhead
    obtain rfl : tip = none := hhead.symm
    rw [hmade.eq_nil] at hc
    cases hc
  | ok hash =>
    rw [hresolve] at hhead
    obtain rfl : tip = some hash := hhead.symm
    refine ⟨s.store.getLog logLimit (some hash), ?_, hmem⟩
    rw [Store.log, hresolve]
    rfl

omit [DecidableEq V] in
/-- A commit recorded on the tip continues the branch, and the tip is its parent. -/
theorem MainInv.recorded (henv : env.Lawful) {s : MainSession V} (hfree : AliasFree s.store)
    {tip : Option String} (hat : MainAt s.store tip) (hmade : Continues s.store tip s.sinceReset)
    {content : Config V} {metadata : Metadata} {ref : String} {c : Commit} {st : Store V}
    (href : ref ∈ mainAliases) (hrows : ref = "main" ∨ s.store.refs.get? "main" = none)
    (hlimit : s.sinceReset.length < logLimit)
    (hrecorded : Recorded env s.store content tip metadata ref c st) :
    MainInv ⟨st, c :: s.sinceReset⟩ ∧ ∀ c', some c = some c' → ∀ n ∈ mainAliases,
      (s.store.resolveCommitHash n).toOption = c'.parentHash := by
  obtain ⟨hfree', hne⟩ := hfree.recorded henv hrecorded
  have hmoved := RowsAt.recorded hrecorded href (mem_movedBy_main href hrows)
  refine ⟨⟨hfree', hlimit, some c.hash, hmoved, hmade.recorded hrecorded hne⟩, ?_⟩
  intro c' hc' n hn
  obtain rfl := Option.some.inj hc'
  rw [hrecorded.parentHash_eq]
  exact hat.resolve hfree hn

/-- **A call through the main branch that meets the condition keeps the invariant**, and a
    commit that it makes has the tip as its parent. -/
theorem MainInv.perform (henv : env.Lawful) {s : MainSession V} (hs : MainInv s)
    {op : StoreOp V} (hmain : op.ThroughMain) (hkeeps : op.KeepsMain s) {made : Option Commit}
    {st : Store V} (h : op.perform env s.store = .ok (made, st)) :
    MainInv ⟨st, op.keepMade made s.sinceReset⟩ ∧
      ∀ c, made = some c → ∀ n ∈ mainAliases,
        (s.store.resolveCommitHash n).toOption = c.parentHash := by
  obtain ⟨hfree, hlength, tip, hat, hmade⟩ := hs
  cases performed_of_perform h with
  | commit hrecorded =>
    -- the row that is locked is the tip, and the new commit takes its place
    rw [hat.lockedRef mem_commitAliases hmain] at hrecorded
    exact MainInv.recorded henv hfree hat hmade hmain hkeeps.1 hkeeps.2 hrecorded
  | @seededBefore content author message ref hash now hlocked =>
    -- the rows are written again
    rw [hat.lockedRef mem_commitAliases hmain] at hlocked
    subst hlocked
    rw [if_pos (show ref ∈ mainAliases from hmain)]
    have hmade' : Continues ((s.store.setReference "HEAD" hash).setReference
        "refs/heads/main" hash) (some hash) s.sinceReset := hmade.mono fun _ _ hget => hget
    refine ⟨⟨hfree, hlength, some hash, ⟨⟨"HEAD", by decide, by simp⟩, ?_⟩, hmade'⟩, by simp⟩
    intro n hn h' hget
    simp only [get?_refs_setReference] at hget
    split at hget
    · exact (Option.some.inj hget).symm
    · split at hget
      · exact (Option.some.inj hget).symm
      · exact hat.2 n hn h' hget
  | seeded hlocked hrecorded =>
    -- nothing was there
    rw [hat.lockedRef mem_commitAliases hmain] at hlocked
    subst hlocked
    have hlimit : s.sinceReset.length < logLimit := by
      rw [hmade.eq_nil]
      decide
    exact MainInv.recorded henv hfree hat hmade hmain (Or.inr (hat "main" (by decide))) hlimit
      hrecorded
  | @reset ref commitHashOrRef hash hresolve =>
    -- the other rows are where the reset goes
    refine ⟨⟨hfree, Nat.zero_le _, some hash, ⟨⟨ref, hmain, by simp⟩, ?_⟩, continues_nil _ _⟩,
      by simp⟩
    intro n hn h' hget
    rw [get?_refs_setReference] at hget
    split at hget
    · exact (Option.some.inj hget).symm
    · rename_i hne
      exact hkeeps.1 hash hresolve n hn hne h' hget
  -- a branch is not made through the names of main
  | branch hresolve => exact hmain.elim
  | @merge args now sourceHash targetHash content metadata c st' _ htarget _ _ hrecorded =>
    -- the merge has resolved the tip
    have htip : some targetHash = tip := by
      rw [← hat.resolve hfree (show args.targetRef ∈ mainAliases from hmain), htarget]
      rfl
    rw [htip] at hrecorded
    exact MainInv.recorded henv hfree hat hmade hmain hkeeps.1 hkeeps.2 hrecorded

/-- **The main branch stays one branch** in every run of calls through its names that meet the
    condition.

    Each call finds the three names resolving to one commit, continues it, and leaves them resolving
    to one; and the log has every commit since the last reset.  The condition is what the code does
    not see to: a row `main` moves with no other name, a reset moves the one row that it is given,
    and the log ends at its limit. -/
theorem mainAliases_oneBranch (henv : env.Lawful) {st : Store V} (hfree : AliasFree st)
    (hcoherent : Coherent st) {ops : List (StoreOp V)} (hmain : ∀ op ∈ ops, op.ThroughMain)
    (hkeeps : Along (MainSession.step env) (fun s op => op.KeepsMain s) ⟨st, []⟩ ops) :
    Along (MainSession.step env) (OneBranch env) ⟨st, []⟩ ops := by
  obtain ⟨tip, hat⟩ := hcoherent.mainAt hfree
  have hstart : MainInv (⟨st, []⟩ : MainSession V) :=
    ⟨hfree, Nat.zero_le _, tip, hat, continues_nil _ _⟩
  refine along_of_invariant MainInv ?_ hstart
    (along_and.mpr ⟨along_of_forall hmain _, hkeeps⟩)
  rintro s op hs ⟨hthrough, hkeep⟩
  have hinv : MainInv (s.step env op) := by
    unfold MainSession.step
    cases hperform : op.perform env s.store with
    | error e => exact hs
    | ok result => exact (hs.perform henv hthrough hkeep hperform).1
  obtain ⟨hfree', -, tip', hat', -⟩ := id hinv
  refine ⟨hinv, ?_, hat'.coherent hfree', fun c hc => hinv.logged hc⟩
  intro c st' hperform
  exact (hs.perform henv hthrough hkeep hperform).2 c rfl

/-! ## §5 Concrete runs -/

/-- Seeding, a commit and a merge through different names, and a reset to where the branch
    is. -/
theorem mixed_names_oneBranch :
    Along (MainSession.step sampleEnv) (OneBranch sampleEnv) ⟨Store.empty, []⟩
      [.seedIfEmpty (quantityConfig "1") "user" "a" "refs/heads/main" 0,
        commitOp "2" "b" "HEAD",
        .merge ⟨"#a", "refs/heads/main", "user", some "m", none, none⟩ 0,
        .reset "HEAD" "#m"] := by
  apply mainAliases_oneBranch lawful_sampleEnv (by unfold AliasFree; decide +kernel)
    ⟨none, by decide +kernel⟩ (by simp [StoreOp.ThroughMain, commitOp, mainAliases])
  have hfits : ∀ made : List Commit, made.length ≤ 2 → made.length < logLimit := by
    intro made h
    unfold logLimit
    omega
  refine ⟨⟨trivial, trivial⟩, ⟨Or.inr (by decide +kernel), hfits _ (by decide +kernel)⟩,
    ⟨Or.inr (by decide +kernel), hfits _ (by decide +kernel)⟩, ⟨?_, trivial⟩, trivial⟩
  intro hash hresolve
  have htip : Except.ok "#m" = Except.ok hash := Eq.trans (by decide +kernel) hresolve
  obtain rfl := Except.ok.inj htip
  decide +kernel

/-- A row `main` is left behind by the next commit through `HEAD`. -/
theorem stale_main_row :
    let ops := [commitOp "1" "a" "main", commitOp "2" "b" "HEAD"]
    let s := run (MainSession.step sampleEnv) ⟨Store.empty, []⟩ ops
    (∀ op ∈ ops, op.ThroughMain) ∧ s.store.resolveCommitHash "HEAD" = .ok "#b" ∧
      s.store.resolveCommitHash "main" = .ok "#a" ∧
      ¬ Along (MainSession.step sampleEnv) (OneBranch sampleEnv) ⟨Store.empty, []⟩ ops := by
  intro ops s
  have hhead : s.store.resolveCommitHash "HEAD" = .ok "#b" := by decide +kernel
  have hmainRow : s.store.resolveCommitHash "main" = .ok "#a" := by decide +kernel
  refine ⟨by simp [ops, StoreOp.ThroughMain, commitOp, mainAliases], hhead, hmainRow, ?_⟩
  rintro ⟨-, hlast, -⟩
  obtain ⟨tip, htip⟩ := hlast.coherent
  have h₁ := htip "HEAD" (by decide)
  have h₂ := htip "main" (by decide)
  have hsame : (s.store.resolveCommitHash "HEAD").toOption =
      (s.store.resolveCommitHash "main").toOption := h₁.trans h₂.symm
  rw [hhead, hmainRow] at hsame
  revert hsame
  decide

end CryptoTrading.Vcs

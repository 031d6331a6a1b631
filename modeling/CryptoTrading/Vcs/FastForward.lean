import CryptoTrading.Vcs.MergeBase
import CryptoTrading.Vcs.StoreInvariant

/-!
# Fast-forward merges

A merge can be fast-forwarded when the target is an ancestor of the source.  `preview_merge`
decides this by comparing the merge base with the target, and then merges over that base.
The decision is right, and the merged configuration is that of the source, exactly when

- the two histories are related: for unrelated ones the target stands in for the base;
- no older ancestor of the target is as near as the target itself, else it is the base;
- merging the source over the target keeps the assets of the source.
-/

namespace CryptoTrading.Vcs

open CryptoTrading.Lib

variable {V : Type}

/-! ## §1 Stored commits -/

/-- The configuration of a stored commit. -/
def Store.configOf (st : Store V) (hash : String) : Option (Config V) :=
  (st.commits.get? hash).bind fun c => st.blobs.get? c.blobHash

/-- No reference is named after a commit, in any form in which a name is looked up. -/
def PlainNames (st : Store V) : Prop :=
  ∀ h ∈ st.commits.keys, ∀ n ∈ Store.candidates h, st.refs.get? n = none

theorem mem_keys_of_get?_ne_none {K W : Type} [DecidableEq K] {d : Dict K W} {k : K}
    (h : d.get? k ≠ none) : k ∈ d.keys := by
  by_contra hk
  exact h ((d.get?_eq_none_iff k).mpr hk)

namespace WellFormed

variable {st : Store V}

theorem exists_configOf (hst : WellFormed st) {h : String} (hh : st.commits.get? h ≠ none) :
    ∃ x, st.configOf h = some x ∧ Canonical x := by
  obtain ⟨c, hc⟩ := Option.ne_none_iff_exists'.mp hh
  obtain ⟨x, hx⟩ := Option.ne_none_iff_exists'.mp (hst.blob_stored h c hc)
  refine ⟨x, ?_, hst.blob_canonical _ x hx⟩
  rw [Store.configOf, hc]
  exact hx

/-- A stored hash stands for itself. -/
theorem resolve_hash (hst : WellFormed st) (hnames : PlainNames st) {h : String}
    (hh : st.commits.get? h ≠ none) : st.resolveCommitHash h = .ok h := by
  have hnone : (Store.candidates h).findSome? st.refs.get? = none := by
    rw [List.findSome?_eq_none_iff]
    exact hnames h (mem_keys_of_get?_ne_none hh)
  obtain ⟨c, hc⟩ := Option.ne_none_iff_exists'.mp hh
  rw [Store.resolveCommitHash, hnone]
  simp only [hc, (hst.hash_eq h c hc).1]

theorem checkout_hash (hst : WellFormed st) (hnames : PlainNames st) {h : String} {x : Config V}
    (hx : st.configOf h = some x) : st.checkout h = .ok x := by
  obtain ⟨c, hc, hblob⟩ := Option.bind_eq_some_iff.mp hx
  have hh : st.commits.get? h ≠ none := by
    rw [hc]
    simp
  simp only [Store.checkout, hst.resolve_hash hnames hh, bind, Except.bind, hc, hblob]

/-- Every ancestor of a stored commit is stored. -/
theorem stored_of_reaches (hst : WellFormed st) {a h : String} (ha : st.commits.get? a ≠ none)
    (hreach : Reaches st.parents a h) : st.commits.get? h ≠ none := by
  induction hreach with
  | refl => exact ha
  | @tail u v _ hedge ih =>
    obtain ⟨c, hc⟩ := Option.ne_none_iff_exists'.mp ih
    apply hst.edges_stored u c hc v
    simpa [Store.parents, hc] using hedge

end WellFormed

/-! ## §2 The base of a fast-forward -/

/-- No older ancestor of the target is as near to target and source as the target is. -/
def TargetNearest (st : Store V) (s t : String) : Prop :=
  ∀ h, Reaches st.parents t h → h ≠ t →
    dist st.parents s t < dist st.parents t h + dist st.parents s h

/-- **The target is found as the base exactly when it is the nearest.** -/
theorem nearest_eq_target_iff {st : Store V} {s t h : String} (hanc : Reaches st.parents s t)
    (hnearest : Nearest st t s h) : h = t ↔ TargetNearest st s t := by
  have htarget : CommonAncestor st t s t := ⟨Relation.ReflTransGen.refl, hanc⟩
  have htotal : totalDistance st t s t = dist st.parents s t := by
    simp [totalDistance]
  constructor
  · rintro rfl h' hh' hne
    have hcommon : CommonAncestor st h s h' := ⟨hh', hanc.trans hh'⟩
    rcases hnearest.nearer h' hcommon hne with hlt | ⟨heq, hfirst⟩
    · rw [htotal] at hlt
      exact hlt
    · -- of equal totals the older ancestor is nearer to the source, and found first
      have hle := dist_le_of_precedes hfirst
      have hpos : dist st.parents h h' ≠ 0 := fun hzero =>
        hne (eq_of_dist_eq_zero hh' hzero).symm
      rw [htotal, totalDistance] at heq
      omega
  · intro hcondition
    by_contra hne
    apply hnearest.not_nearer t htarget
    left
    rw [htotal]
    exact hcondition h hnearest.common.1 hne

/-! ## §3 Previews -/

variable [DecidableEq V] (env : Env V)

/-- The decision is right, and a merge that can be fast-forwarded takes the configuration of
    the source without conflicts. -/
def FastForwardCorrect (st : Store V) (source targetRef s t : String) : Prop :=
  ∃ preview, st.previewMerge env source targetRef = .ok preview ∧
    (preview.canFastForward = true ↔ Reaches st.parents s t) ∧
    (Reaches st.parents s t → preview.conflicts = [] ∧
      ∃ x, st.configOf s = some x ∧ SameConfig preview.mergedConfig x)

omit [DecidableEq V] in
/-- When the preview decides rightly. -/
structure FastForwardCondition (st : Store V) (s t : String) : Prop where
  related : ∃ h, CommonAncestor st t s h
  nearest : Reaches st.parents s t → s ≠ t → TargetNearest st s t
  kept : Reaches st.parents s t → s ≠ t → ∀ x ∈ st.configOf t, ∀ y ∈ st.configOf s,
    (y.assets.map (SemanticMergeEngine.assetKey env.str env.upper)).Nodup ∧
      AssetsKept env.str env.upper x x y y

variable {env} {st : Store V} {source targetRef s t : String}

/-- The preview of a commit with itself. -/
theorem previewMerge_self (hst : WellFormed st) (hnames : PlainNames st)
    (hs : st.resolveCommitHash source = .ok s) (ht : st.previewTarget targetRef = .ok s) :
    ∃ preview, st.previewMerge env source targetRef = .ok preview ∧
      preview.canFastForward = true ∧ preview.conflicts = [] ∧
      st.configOf s = some preview.mergedConfig := by
  have hstored := hst.stored_of_resolve hs
  have hself := hst.resolve_hash hnames hstored
  obtain ⟨x, hx, -⟩ := hst.exists_configOf hstored
  obtain ⟨found, hfound, -⟩ := findMergeBase_spec st hself hself
  refine ⟨⟨.clean, (found.filter fun h => h ≠ "").getD s, s, s, true, [], x, []⟩, ?_, rfl, rfl, hx⟩
  simp only [Store.previewMerge, hs, ht, hfound, hst.checkout_hash hnames hx, if_true, bind,
    Except.bind]

/-- The preview of different commits: what it decides by, and what it merges. -/
theorem previewMerge_ne (hst : WellFormed st) (hnames : PlainNames st)
    (hs : st.resolveCommitHash source = .ok s) (ht : st.previewTarget targetRef = .ok t)
    (hsStored : st.commits.get? s ≠ none) (htStored : st.commits.get? t ≠ none) (hne : s ≠ t) :
    ∃ preview base xb xt xs, st.previewMerge env source targetRef = .ok preview ∧
      ((∃ h, CommonAncestor st t s h) → Nearest st t s base) ∧
      ((¬ ∃ h, CommonAncestor st t s h) → base = t) ∧
      preview.canFastForward = decide (base = t) ∧
      st.configOf base = some xb ∧ st.configOf t = some xt ∧ st.configOf s = some xs ∧
      (preview.mergedConfig, preview.conflicts) =
        SemanticMergeEngine.merge env.str env.upper xb xt xs := by
  have hsSelf := hst.resolve_hash hnames hsStored
  have htSelf := hst.resolve_hash hnames htStored
  obtain ⟨found, hfound, -, hnone, hnearest⟩ := findMergeBase_spec st htSelf hsSelf
  -- the base is stored, so its hash is not empty
  have hbase : ∃ base, (found.filter fun h => h ≠ "").getD t = base ∧
      st.commits.get? base ≠ none ∧
      ((∃ h, CommonAncestor st t s h) → Nearest st t s base) ∧
      ((¬ ∃ h, CommonAncestor st t s h) → base = t) := by
    cases hf : found with
    | none =>
      refine ⟨t, rfl, htStored, ?_, fun _ => rfl⟩
      intro hrelated
      exact absurd hrelated (hnone hf)
    | some h =>
      have hh := hnearest h hf
      have hstored := hst.stored_of_reaches htStored hh.common.1
      obtain ⟨c, hc⟩ := Option.ne_none_iff_exists'.mp hstored
      refine ⟨h, ?_, hstored, fun _ => hh, ?_⟩
      · simp [Option.filter, (hst.hash_eq h c hc).2]
      · intro hunrelated
        exact absurd ⟨h, hh.common⟩ hunrelated
  obtain ⟨base, hbaseEq, hbaseStored, hrelated, hunrelated⟩ := hbase
  obtain ⟨xb, hxb, -⟩ := hst.exists_configOf hbaseStored
  obtain ⟨xt, hxt, -⟩ := hst.exists_configOf htStored
  obtain ⟨xs, hxs, -⟩ := hst.exists_configOf hsStored
  let merged := SemanticMergeEngine.merge env.str env.upper xb xt xs
  refine ⟨⟨Store.mergeStatus (decide (base = t)) merged.2, base, t, s, decide (base = t), merged.2,
    merged.1, Store.validationErrors env merged.1⟩, base, xb, xt, xs, ?_, hrelated, hunrelated, rfl,
    hxb, hxt, hxs, rfl⟩
  simp only [Store.previewMerge, hs, ht, hfound, hbaseEq, if_neg hne,
    hst.checkout_hash hnames hxb, hst.checkout_hash hnames hxt, hst.checkout_hash hnames hxs,
    bind, Except.bind]
  rfl

omit [DecidableEq V] in
/-- The target of a preview is a stored commit. -/
theorem stored_of_previewTarget (hst : WellFormed st) (ht : st.previewTarget targetRef = .ok t) :
    st.commits.get? t ≠ none := by
  unfold Store.previewTarget at ht
  split at ht
  · rename_i hash hresolve
    obtain rfl := Except.ok.inj ht
    exact hst.stored_of_resolve hresolve
  · exact hst.stored_of_resolve ht

/-- When the preview of two commits of a well-formed store decides rightly. -/
theorem fastForwardCorrect_iff (hst : WellFormed st) (hnames : PlainNames st)
    (hs : st.resolveCommitHash source = .ok s) (ht : st.previewTarget targetRef = .ok t) :
    FastForwardCorrect env st source targetRef s t ↔ FastForwardCondition env st s t := by
  have hsStored := hst.stored_of_resolve hs
  have htStored := stored_of_previewTarget hst ht
  have hrefl : ∀ {x}, Reaches st.parents x x := Relation.ReflTransGen.refl
  by_cases hne : s = t
  · -- a commit is always fast-forwarded to itself
    subst hne
    obtain ⟨preview, hpreview, hff, hconflicts, hconfig⟩ := previewMerge_self hst hnames hs ht
    constructor
    · intro _
      exact ⟨⟨s, hrefl, hrefl⟩, fun _ h => absurd rfl h, fun _ h => absurd rfl h⟩
    · intro _
      exact ⟨preview, hpreview, iff_of_true hff hrefl,
        fun _ => ⟨hconflicts, _, hconfig, sameConfig_of_perm rfl (List.Perm.refl _)⟩⟩
  -- two different commits: the base that was found decides
  obtain ⟨preview, base, xb, xt, xs, hpreview, hrelated, hunrelated, hff, hxb, hxt, hxs, hmerge⟩ :=
    @previewMerge_ne V _ env st source targetRef s t hst hnames hs ht hsStored htStored hne
  have hffIff : preview.canFastForward = true ↔ base = t := by
    rw [hff, decide_eq_true_iff]
  obtain ⟨xt', hxt', hxtCanonical⟩ := hst.exists_configOf htStored
  obtain ⟨xs', hxs', hxsCanonical⟩ := hst.exists_configOf hsStored
  obtain rfl : xt' = xt := Option.some.inj (hxt'.symm.trans hxt)
  obtain rfl : xs' = xs := Option.some.inj (hxs'.symm.trans hxs)
  -- merging over the target itself is a one-sided change
  have hsame : (SemanticMergeEngine.merge env.str env.upper xt' xt' xs').2 = [] ∧
      SameConfig (SemanticMergeEngine.merge env.str env.upper xt' xt' xs').1 xs' ↔ _ :=
    merge_same_iff (Or.inl ⟨rfl, rfl⟩) hxtCanonical hxsCanonical
  constructor
  · -- from a right decision to the condition, clause by clause
    rintro ⟨preview', hpreview', hffCorrect, htakes⟩
    obtain rfl : preview' = preview := Except.ok.inj (hpreview'.symm.trans hpreview)
    have hbaseIff : base = t ↔ Reaches st.parents s t := hffIff.symm.trans hffCorrect
    have hcommon : ∃ h, CommonAncestor st t s h := by
      by_contra hnone
      exact hnone ⟨t, hrefl, hbaseIff.mp (hunrelated hnone)⟩
    refine ⟨hcommon, ?_, ?_⟩
    · -- nearest: the base is the target whenever the target is an ancestor
      intro hanc _
      exact (nearest_eq_target_iff hanc (hrelated hcommon)).mp (hbaseIff.mpr hanc)
    · -- kept: the merge over the target is the source
      intro hanc _ x hx y hy
      obtain rfl : x = xt' := Option.some.inj (hx.symm.trans hxt)
      obtain rfl : y = xs' := Option.some.inj (hy.symm.trans hxs)
      obtain rfl : base = t := hbaseIff.mpr hanc
      obtain rfl : xb = x := Option.some.inj (hxb.symm.trans hxt)
      obtain ⟨hconflicts, z, hz, hconfig⟩ := htakes hanc
      obtain rfl : z = y := Option.some.inj (hz.symm.trans hxs)
      apply hsame.mp
      rw [← hmerge]
      exact ⟨hconflicts, hconfig⟩
  · -- from the condition to the preview that was computed
    intro hcondition
    have hnearest := hrelated hcondition.related
    refine ⟨preview, hpreview, ?_, ?_⟩
    · rw [hffIff]
      constructor
      · rintro rfl
        exact hnearest.common.2
      · intro hanc
        exact (nearest_eq_target_iff hanc hnearest).mpr (hcondition.nearest hanc hne)
    · intro hanc
      obtain rfl : base = t :=
        (nearest_eq_target_iff hanc hnearest).mpr (hcondition.nearest hanc hne)
      obtain rfl : xb = xt' := Option.some.inj (hxb.symm.trans hxt)
      have hkept := hsame.mpr (hcondition.kept hanc hne xb hxt xs' hxs)
      rw [← hmerge] at hkept
      exact ⟨hkept.1, xs', hxs, hkept.2⟩

/-- **Previews in every store that the service builds**, as long as no reference is named after a
    commit.

    The preview says rightly whether the target can be fast-forwarded, and then takes over the
    configuration of the source, exactly when `FastForwardCondition` holds: the histories are
    related, the target is the nearest common ancestor where it is one at all, and merging over it
    loses nothing of the source. -/
theorem previewMerge_fastForward_iff (henv : env.Lawful) {ops : List (StoreOp V)}
    (hops : Along (StoreOp.step env) StoreOp.Admissible Store.empty ops)
    (hnames : PlainNames (run (StoreOp.step env) Store.empty ops))
    (hs : (run (StoreOp.step env) Store.empty ops).resolveCommitHash source = .ok s)
    (ht : (run (StoreOp.step env) Store.empty ops).previewTarget targetRef = .ok t) :
    FastForwardCorrect env (run (StoreOp.step env) Store.empty ops) source targetRef s t ↔
      FastForwardCondition env (run (StoreOp.step env) Store.empty ops) s t :=
  fastForwardCorrect_iff (wellFormed_run henv hops) hnames hs ht

/-! ## §4 Concrete stores -/

/-- Hashes that tell the samples apart: a commit by its message, a configuration by its
    quantity expression. -/
def sampleEnv : Env Scalar where
  str := Scalar.str
  upper := id
  computeBlobHash c :=
    match c.settings.look none "dynamic_quantity" with
    | some (.text quantity) => "blob " ++ quantity
    | _ => "blob"
  computeCommitHash _ _ _ message _ _ := "#" ++ message
  validate c :=
    if c.settings.keys = settingKeys ∧ c.assets = [] then .ok c else .error "unknown assets"

theorem lawful_sampleEnv : sampleEnv.Lawful where
  hash_ne _ _ _ message _ _ := by
    have hchars : ("#" ++ message).toList = '#' :: message.toList := by simp
    intro hmem
    have hhead : ("#" ++ message).toList ∈ ("" :: Store.mainAliases).map String.toList :=
      List.mem_map_of_mem hmem
    rw [hchars] at hhead
    simp [Store.mainAliases] at hhead
  validate_canonical c c' h := by
    simp only [sampleEnv] at h
    split at h
    · rename_i hc
      obtain rfl := Except.ok.inj h
      exact ⟨hc.1, by simp [hc.2]⟩
    · cases h

/-- A configuration without assets. -/
def quantityConfig (quantity : String) : Config Scalar :=
  sampleConfigWith (some (.text quantity)) []

theorem canonical_quantityConfig (quantity : String) : Canonical (quantityConfig quantity) :=
  canonical_sampleConfigWith _ (by simp)

/-- A commit of a configuration without assets. -/
def commitOp (quantity message ref : String) : StoreOp Scalar :=
  .commit (quantityConfig quantity) "user" message ref ⟨none, []⟩ 0

theorem admissible_commitOp (st : Store Scalar) (quantity message ref : String) :
    (commitOp quantity message ref).Admissible st :=
  ⟨canonical_quantityConfig quantity, by simp⟩

/-- A branch that is ahead of the main branch. -/
theorem branch_ahead_fastForwards :
    let ops := [commitOp "1" "r" "HEAD", .branch "refs/heads/x" "HEAD",
      commitOp "2" "s" "refs/heads/x"]
    FastForwardCorrect sampleEnv (run (StoreOp.step sampleEnv) Store.empty ops) "refs/heads/x"
      "refs/heads/main" "#s" "#r" := by
  intro ops
  have hops : Along (StoreOp.step sampleEnv) StoreOp.Admissible Store.empty ops :=
    ⟨admissible_commitOp _ _ _ _, trivial, admissible_commitOp _ _ _ _, trivial⟩
  apply (previewMerge_fastForward_iff lawful_sampleEnv hops
    (by unfold PlainNames; decide +kernel) (by decide +kernel) (by decide +kernel)).mpr
  have hanc : Reaches (run (StoreOp.step sampleEnv) Store.empty ops).parents "#s" "#r" :=
    reaches_of_mem (by decide +kernel)
  refine ⟨⟨"#r", Relation.ReflTransGen.refl, hanc⟩, ?_, ?_⟩
  · intro _ _ h hh hne
    have hroot : h ∈ ["#r"] := mem_of_reaches (by decide +kernel) (by decide) hh
    exact absurd (List.mem_singleton.mp hroot) hne
  · intro _ _ x hx y hy
    have hconfig : (run (StoreOp.step sampleEnv) Store.empty ops).configOf "#s" =
        some (quantityConfig "2") := by decide +kernel
    obtain rfl : quantityConfig "2" = y := Option.some.inj (hconfig.symm.trans hy)
    exact ⟨List.nodup_nil, fun a ha => nomatch ha⟩

/-- The quantity is changed and changed back, and the result is merged into a branch at the
    first commit; a branch at the commit in between is an ancestor of the merge, but it is not
    found as the base, and its quantity survives. -/
theorem reverted_change_comes_back :
    let ops := [commitOp "1" "r" "HEAD", .branch "refs/heads/x" "HEAD", commitOp "2" "t" "HEAD",
      .branch "refs/heads/y" "HEAD", commitOp "1" "u" "HEAD",
      .merge ⟨"HEAD", "refs/heads/x", "user", some "s", none, none⟩ 0]
    let st := run (StoreOp.step sampleEnv) Store.empty ops
    Along (StoreOp.step sampleEnv) StoreOp.Admissible Store.empty ops ∧ PlainNames st ∧
      st.resolveCommitHash "refs/heads/x" = .ok "#s" ∧
      st.previewTarget "refs/heads/y" = .ok "#t" ∧ Reaches st.parents "#s" "#t" ∧
      (st.previewMerge sampleEnv "refs/heads/x" "refs/heads/y").map
        (fun p => (p.canFastForward, p.mergedConfig)) = .ok (false, quantityConfig "2") ∧
      st.configOf "#s" = some (quantityConfig "1") ∧
      ¬ FastForwardCorrect sampleEnv st "refs/heads/x" "refs/heads/y" "#s" "#t" := by
  intro ops st
  have hanc : Reaches st.parents "#s" "#t" :=
    (reaches_of_mem (show "#u" ∈ st.parents "#s" by decide +kernel)).trans
      (reaches_of_mem (by decide +kernel))
  have hpreview : (st.previewMerge sampleEnv "refs/heads/x" "refs/heads/y").map
      (fun p => (p.canFastForward, p.mergedConfig)) = .ok (false, quantityConfig "2") := by
    decide +kernel
  refine ⟨⟨admissible_commitOp _ _ _ _, trivial, admissible_commitOp _ _ _ _, trivial,
    admissible_commitOp _ _ _ _, trivial, trivial⟩, by unfold PlainNames; decide +kernel,
    by decide +kernel, by decide +kernel, hanc, hpreview, by decide +kernel, ?_⟩
  rintro ⟨preview, hok, hff, -⟩
  rw [hok] at hpreview
  have hfalse : preview.canFastForward = false := (Prod.mk.inj (Except.ok.inj hpreview)).1
  rw [hff.mpr hanc] at hfalse
  cases hfalse

end CryptoTrading.Vcs

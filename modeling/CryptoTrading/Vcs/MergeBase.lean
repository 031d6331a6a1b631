import Mathlib.Algebra.Order.BigOperators.Group.Finset
import Mathlib.Data.Rat.Defs
import CryptoTrading.Vcs.Service

/-!
# The merge base

`find_merge_base` takes the common ancestor with the least total distance from the two
commits; of several it takes the one that comes first in breadth-first order from the second
commit.  This is a best common ancestor, one without another common ancestor below it,
exactly when no common ancestor that has one below it is the nearest.
-/

namespace CryptoTrading.Vcs

open CryptoTrading.Lib

variable {V : Type}

/-! ## §1 Common ancestors -/

/-- A commit is an ancestor of itself. -/
def CommonAncestor (st : Store V) (a b h : String) : Prop :=
  Reaches st.parents a h ∧ Reaches st.parents b h

/-- No other common ancestor is a proper descendant. -/
def BestCommonAncestor (st : Store V) (a b h : String) : Prop :=
  CommonAncestor st a b h ∧ ∀ h', CommonAncestor st a b h' → h' ≠ h → ¬ Reaches st.parents h' h

noncomputable def totalDistance (st : Store V) (a b h : String) : ℕ :=
  dist st.parents a h + dist st.parents b h

/-- `n` has a smaller total distance than `h`, or the same and comes first from `b`. -/
def Nearer (st : Store V) (a b n h : String) : Prop :=
  totalDistance st a b n < totalDistance st a b h ∨
    (totalDistance st a b n = totalDistance st a b h ∧ Precedes st.parents b n h)

/-- The nearest common ancestor: nearer than all the others. -/
structure Nearest (st : Store V) (a b h : String) : Prop where
  common : CommonAncestor st a b h
  nearer : ∀ n, CommonAncestor st a b n → n ≠ h → Nearer st a b h n
  not_nearer : ∀ n, CommonAncestor st a b n → ¬ Nearer st a b n h

/-! ## §2 The loops end -/

/-- The parents of distinct hashes are among the edges of the store. -/
theorem sum_parents_le (st : Store V) {hashes : List String} (hnodup : hashes.Nodup) :
    (hashes.map fun h => (st.parents h).length).sum ≤
      (st.commits.values.map fun c => c.edges.length).sum := by
  have hkeys : (st.commits.values.map fun c => c.edges.length).sum =
      ∑ h ∈ st.commits.keys.toFinset, (st.parents h).length := by
    have hnodupKeys : st.commits.keys.Nodup := st.commits.nodupKeys
    rw [List.sum_toFinset _ hnodupKeys, Dict.values, Dict.keys, List.map_map, List.map_map]
    congr 1
    apply List.map_congr_left
    intro e he
    have hget : st.commits.get? e.1 = some e.2 := (st.commits.get?_eq_some_iff e.1 e.2).mpr he
    simp [Store.parents, hget]
  rw [hkeys, ← List.sum_toFinset _ hnodup]
  apply Finset.sum_le_sum_of_ne_zero
  intro h _ hne
  rw [List.mem_toFinset]
  by_contra hmem
  apply hne
  simp [Store.parents, (st.commits.get?_eq_none_iff h).mpr hmem]

/-! ## §3 What the loops note -/

/-- The visits of a search: the reachable hashes, in breadth-first order. -/
structure Visits (st : Store V) (start : String) (visits : List (String × ℕ)) : Prop where
  nodup : (visits.map Prod.fst).Nodup
  mem_iff : ∀ h d, (h, d) ∈ visits ↔ Reaches st.parents start h ∧ dist st.parents start h = d
  precedes_iff : ∀ before h d after, visits = before ++ (h, d) :: after →
    ∀ x, Precedes st.parents start x h ↔ x ∈ before.map Prod.fst

/-- **Every search of the commits comes to its end**, and it has noted the visits. -/
theorem search_parents_eq (st : Store V) (start : String) :
    ∃ visits, Visits st start visits ∧
      ∀ {σ : Type} (visit : σ → String × ℕ → σ) (noted : σ), ∀ fuel ≥ st.searchFuel,
        search st.parents visit fuel [(start, 0)] [] noted = some (visits.foldl visit noted) := by
  have hends : (search st.parents (fun es e => es ++ [e]) st.searchFuel [(start, 0)] []
      ([] : List (String × ℕ))).isSome := by
    refine search_isSome _ (fun xs hxs => sum_parents_le st hxs) _ _ List.nodup_nil _ ?_
    simp [Store.searchFuel, Nat.add_comm]
  obtain ⟨visits, hvisits⟩ := Option.isSome_iff_exists.mp hends
  obtain ⟨m, hlast, rfl⟩ := search_eq_visitedBefore hvisits
  refine ⟨visitedBefore st.parents start m, ⟨nodup_visitedBefore m, ?_, ?_⟩, ?_⟩
  · intro h d
    exact mem_visits_iff hlast
  · intro before h d after hdecomp x
    exact precedes_iff hlast hdecomp
  · intro σ visit noted fuel hfuel
    have heq := @search_eq_foldl _ st.parents _ _ visit noted fuel [(start, 0)] [] []
    rw [search_mono _ hvisits hfuel] at heq
    exact heq

/-- A visit before another one comes first in breadth-first order. -/
theorem Visits.precedes {st : Store V} {start : String} {visits before after : List (String × ℕ)}
    (hvisits : Visits st start visits) {h n : String} {d dn : ℕ}
    (hsplit : visits = before ++ (h, d) :: after) (hmem : (n, dn) ∈ after) :
    Precedes st.parents start h n := by
  obtain ⟨between, rest, rfl⟩ := List.append_of_mem hmem
  apply (hvisits.precedes_iff (before ++ (h, d) :: between) n dn rest (by simp [hsplit]) h).mpr
  simp

/-- Of two ancestors only one comes first. -/
theorem not_precedes_of_precedes {st : Store V} {start h n : String}
    (hh : Reaches st.parents start h) (hfirst : Precedes st.parents start h n) :
    ¬ Precedes st.parents start n h := by
  intro hsecond
  obtain ⟨visits, hvisits, -⟩ := search_parents_eq st start
  obtain ⟨before, after, hsplit⟩ := List.append_of_mem ((hvisits.mem_iff h _).mpr ⟨hh, rfl⟩)
  obtain ⟨⟨n', dn⟩, hn', rfl⟩ :=
    List.mem_map.mp ((hvisits.precedes_iff before h _ after hsplit n).mp hsecond)
  obtain ⟨earlier, between, rfl⟩ := List.append_of_mem hn'
  rw [List.append_assoc, List.cons_append] at hsplit
  have hearlier := (hvisits.precedes_iff earlier n' dn _ hsplit h).mp hfirst
  -- `h` would be visited twice
  have hnodup := hvisits.nodup
  rw [hsplit, List.map_append, List.nodup_append] at hnodup
  exact hnodup.2.2 h hearlier h (by simp) rfl

/-- What is nearer than all the others is the nearest. -/
theorem nearest_of_nearer {st : Store V} {a b h : String} (hcommon : CommonAncestor st a b h)
    (hnearer : ∀ n, CommonAncestor st a b n → n ≠ h → Nearer st a b h n) : Nearest st a b h := by
  refine ⟨hcommon, hnearer, ?_⟩
  intro n hn hless
  by_cases hne : n = h
  · subst hne
    rcases hless with hlt | ⟨-, hself⟩
    · exact lt_irrefl _ hlt
    · exact not_precedes_self n hself
  · rcases hnearer n hn hne with hlt | ⟨heq, hfirst⟩
    · rcases hless with hlt' | ⟨heq, -⟩ <;> omega
    · rcases hless with hlt' | ⟨-, hsecond⟩
      · omega
      · exact not_precedes_of_precedes hcommon.2 hfirst hsecond

/-- The first loop notes the distances. -/
theorem get?_foldl_noteDepth {st : Store V} {start : String} {visits : List (String × ℕ)}
    (hvisits : Visits st start visits) {h : String} {d : ℕ} :
    (visits.foldl Store.noteDepth Dict.empty).get? h = some d ↔
      Reaches st.parents start h ∧ dist st.parents start h = d := by
  have hdict : visits.foldl Store.noteDepth Dict.empty = Dict.ofList visits := rfl
  rw [hdict, Dict.get?_eq_some_iff, Dict.entries_ofList hvisits.nodup, hvisits.mem_iff]

/-- The second loop notes the common ancestors. -/
theorem foldl_noteCandidate (ancestors : Dict String ℕ) (visits : List (String × ℕ))
    (found : List (ℕ × String)) :
    visits.foldl (Store.noteCandidate ancestors) found =
      found ++ visits.filterMap fun v => (ancestors.get? v.1).map fun d => (d + v.2, v.1) := by
  induction visits generalizing found with
  | nil => simp
  | cons v rest ih =>
    rw [List.foldl_cons, ih]
    cases hget : ancestors.get? v.1 with
    | none => simp [Store.noteCandidate, hget]
    | some d => simp [Store.noteCandidate, hget]

section Candidates

variable {st : Store V} {a b : String} {ancestors : Dict String ℕ}

/-- The second loop notes a common ancestor with its total distance. -/
theorem candidate_of_common
    (hancestors : ∀ h d, ancestors.get? h = some d ↔
      Reaches st.parents a h ∧ dist st.parents a h = d)
    {n : String} (hn : CommonAncestor st a b n) :
    (ancestors.get? n).map (fun d => (d + dist st.parents b n, n)) =
      some (totalDistance st a b n, n) := by
  have hnote : ancestors.get? n = some (dist st.parents a n) := (hancestors n _).mpr ⟨hn.1, rfl⟩
  simp [hnote, totalDistance]

/-- **The least candidate is the nearest common ancestor.** -/
theorem nearest_of_candidates
    (hancestors : ∀ h d, ancestors.get? h = some d ↔
      Reaches st.parents a h ∧ dist st.parents a h = d)
    {visits : List (String × ℕ)} (hvisits : Visits st b visits) {k : ℕ} {h : String}
    (hhead : ((visits.filterMap fun v => (ancestors.get? v.1).map fun d => (d + v.2, v.1)
      ).insertionSort fun x y => x.1 ≤ y.1).head? = some (k, h)) : Nearest st a b h := by
  obtain ⟨before, after, hcandidates, hbefore, hafter⟩ := head?_insertionSort Prod.fst hhead
  obtain ⟨visited, rest, rfl, hvisited, hrest⟩ := List.filterMap_eq_append_iff.mp hcandidates
  obtain ⟨skipped, ⟨h', d⟩, later, rfl, hskipped, hfound, hlater⟩ :=
    List.filterMap_eq_cons_iff.mp hrest
  -- the candidate is the visit of `h`
  cases hget : ancestors.get? h' with
  | none => simp [hget] at hfound
  | some da =>
    simp only [hget, Option.map_some, Option.some.injEq, Prod.mk.injEq] at hfound
    obtain ⟨rfl, rfl⟩ := hfound
    have ha := (hancestors h' da).mp hget
    have hb := (hvisits.mem_iff h' d).mp (by simp)
    have htotal : totalDistance st a b h' = da + d := by
      rw [totalDistance, ha.2, hb.2]
    -- another common ancestor is farther, or it is as far and visited later
    have hothers : ∀ n, CommonAncestor st a b n → n ≠ h' → Nearer st a b h' n := by
      intro n hn hne
      have hcandidate := candidate_of_common hancestors hn
      have hmem := (hvisits.mem_iff n (dist st.parents b n)).mpr ⟨hn.2, rfl⟩
      rw [← List.append_assoc] at hmem
      rcases List.mem_append.mp hmem with hmem | hmem
      · rcases List.mem_append.mp hmem with hmem | hmem
        · left
          rw [htotal]
          exact hbefore (totalDistance st a b n, n)
            (hvisited ▸ List.mem_filterMap.mpr ⟨_, hmem, hcandidate⟩)
        · -- no common ancestor is skipped
          have hnone := hskipped _ hmem
          rw [hcandidate] at hnone
          cases hnone
      · rcases List.mem_cons.mp hmem with heq | hmem
        · exact absurd (Prod.mk.inj heq).1 hne
        · have hle : totalDistance st a b h' ≤ totalDistance st a b n := by
            rw [htotal]
            exact hafter (totalDistance st a b n, n)
              (hlater ▸ List.mem_filterMap.mpr ⟨_, hmem, hcandidate⟩)
          rcases hle.lt_or_eq with hlt | heq
          · exact Or.inl hlt
          · exact Or.inr ⟨heq, hvisits.precedes (List.append_assoc _ _ _).symm hmem⟩
    exact nearest_of_nearer ⟨ha.1, hb.1⟩ hothers

end Candidates

/-- A commit is the nearest common ancestor of itself and itself. -/
theorem nearest_self (st : Store V) (a : String) : Nearest st a a a := by
  apply nearest_of_nearer ⟨Relation.ReflTransGen.refl, Relation.ReflTransGen.refl⟩
  intro n hn hne
  left
  have hzero : totalDistance st a a a = 0 := by simp [totalDistance]
  rw [hzero]
  apply Nat.pos_of_ne_zero
  intro hdist
  rw [totalDistance, Nat.add_eq_zero_iff] at hdist
  exact hne (eq_of_dist_eq_zero hn.1 hdist.1).symm

/-- **What `find_merge_base` returns**: its loops end, and the result is the nearest common
    ancestor, or nothing when there is none. -/
theorem findMergeBase_spec (st : Store V) {commitA commitB a b : String}
    (ha : st.resolveCommitHash commitA = .ok a) (hb : st.resolveCommitHash commitB = .ok b) :
    ∃ found, st.findMergeBase commitA commitB = .ok found ∧
      (∀ fuel ≥ st.searchFuel, st.findMergeBaseWith fuel commitA commitB = some (.ok found)) ∧
      (found = none → ¬ ∃ h, CommonAncestor st a b h) ∧ ∀ h, found = some h → Nearest st a b h := by
  suffices hspec : ∃ found,
      (∀ fuel ≥ st.searchFuel, st.findMergeBaseWith fuel commitA commitB = some (.ok found)) ∧
      (found = none → ¬ ∃ h, CommonAncestor st a b h) ∧
      ∀ h, found = some h → Nearest st a b h by
    obtain ⟨found, hends, hspec⟩ := hspec
    refine ⟨found, ?_, hends, hspec⟩
    rw [Store.findMergeBase, hends _ (le_refl _)]
    rfl
  by_cases hab : a = b
  · subst hab
    refine ⟨some a, ?_, by simp, ?_⟩
    · intro fuel _
      simp [Store.findMergeBaseWith, ha, hb]
    · intro h hh
      obtain rfl := Option.some.inj hh
      exact nearest_self st a
  · obtain ⟨visitsA, hvisitsA, hsearchA⟩ := search_parents_eq st a
    obtain ⟨visitsB, hvisitsB, hsearchB⟩ := search_parents_eq st b
    have hancestors : ∀ h d, (visitsA.foldl Store.noteDepth Dict.empty).get? h = some d ↔
        Reaches st.parents a h ∧ dist st.parents a h = d := fun _ _ =>
      get?_foldl_noteDepth hvisitsA
    refine ⟨((visitsB.foldl (Store.noteCandidate (visitsA.foldl Store.noteDepth Dict.empty))
      []).insertionSort fun x y => x.1 ≤ y.1).head?.map Prod.snd, ?_, ?_, ?_⟩
    · intro fuel hfuel
      simp only [Store.findMergeBaseWith, ha, hb, if_neg hab, hsearchA _ _ fuel hfuel,
        hsearchB _ _ fuel hfuel]
    · rw [foldl_noteCandidate, List.nil_append]
      rintro hnone ⟨h, hcommon⟩
      -- a common ancestor would have been noted
      have hmem := (hvisitsB.mem_iff h _).mpr ⟨hcommon.2, rfl⟩
      have hnote := (hancestors h _).mpr ⟨hcommon.1, rfl⟩
      rw [Option.map_eq_none_iff, List.head?_eq_none_iff] at hnone
      have hnil := (List.perm_insertionSort _ _).symm.trans (List.Perm.of_eq hnone)
      rw [List.perm_nil, List.filterMap_eq_nil_iff] at hnil
      have hskipped := hnil _ hmem
      rw [hnote] at hskipped
      cases hskipped
    · rw [foldl_noteCandidate, List.nil_append]
      intro h hh
      obtain ⟨⟨k, h'⟩, hhead, rfl⟩ := Option.map_eq_some_iff.mp hh
      exact nearest_of_candidates hancestors hvisitsB hhead

/-! ## §4 When the merge base is best -/

/-- `find_merge_base` ends with a best common ancestor, and with nothing only when there is no
    common ancestor. -/
def FindsBest (st : Store V) (commitA commitB a b : String) : Prop :=
  ∃ found, (∃ bound, ∀ fuel ≥ bound,
      st.findMergeBaseWith fuel commitA commitB = some (.ok found)) ∧
    (found = none → ¬ ∃ h, CommonAncestor st a b h) ∧
    ∀ h, found = some h → BestCommonAncestor st a b h

/-- A common ancestor that has another one below it is not the nearest. -/
def NearestIsBest (st : Store V) (a b : String) : Prop :=
  ∀ h h', CommonAncestor st a b h → CommonAncestor st a b h' → h' ≠ h → Reaches st.parents h' h →
    ∃ n, CommonAncestor st a b n ∧ Nearer st a b n h

/-- **The search for the merge base always ends, and it finds a best common ancestor exactly when
    the nearest one is best.**

    Best means that no other common ancestor descends from it.  The search takes the one with the
    smallest sum of distances, and of several the first in breadth-first order; a merge commit is a
    short cut, which can bring an older ancestor as near as a newer one. -/
theorem findMergeBase_best_iff (st : Store V) {commitA commitB a b : String}
    (ha : st.resolveCommitHash commitA = .ok a) (hb : st.resolveCommitHash commitB = .ok b) :
    FindsBest st commitA commitB a b ↔ NearestIsBest st a b := by
  obtain ⟨found, -, hends, hnone, hnearest⟩ := findMergeBase_spec st ha hb
  constructor
  · rintro ⟨found', ⟨bound, hbound⟩, -, hbest⟩ h h' hh hh' hne hreach
    -- both runs of the search return the same
    have hsame : found' = found := by
      have h₁ := hbound (max bound st.searchFuel) (le_max_left _ _)
      rw [hends _ (le_max_right _ _)] at h₁
      exact (Except.ok.inj (Option.some.inj h₁)).symm
    subst hsame
    cases hfound : found' with
    | none => exact absurd ⟨h, hh⟩ (hnone hfound)
    | some n =>
      have hn := hnearest n hfound
      refine ⟨n, hn.common, hn.nearer h hh ?_⟩
      rintro rfl
      exact (hbest h hfound).2 h' hh' hne hreach
  · intro hcondition
    refine ⟨found, ⟨st.searchFuel, hends⟩, hnone, ?_⟩
    intro h hfound
    have hh := hnearest h hfound
    refine ⟨hh.common, ?_⟩
    intro h' hh' hne hreach
    obtain ⟨n, hn, hnearer⟩ := hcondition h h' hh.common hh' hne hreach
    exact hh.not_nearer n hn hnearer

/-! ## §5 Concrete stores -/

/-- A commit with the given parents; more than one make a merge. -/
def sampleCommit (hash : String) (parents : List String) : String × Commit :=
  (hash, ⟨hash, "blob", parents.head?, "user", "change",
    ⟨if parents.length ≤ 1 then none else some parents, []⟩, 0⟩)

def sampleStore (commits : List (String × Commit)) : Store ℚ :=
  ⟨Dict.empty, Dict.ofList commits, Dict.empty⟩

/-- Two commits that fork from one. -/
theorem findMergeBase_fork :
    FindsBest (sampleStore [sampleCommit "r" [], sampleCommit "a" ["r"], sampleCommit "b" ["r"]])
      "a" "b" "a" "b" := by
  apply (findMergeBase_best_iff _ (by decide +kernel) (by decide +kernel)).mpr
  intro h h' hh hh' hne _
  have hA : ∀ x, Reaches (sampleStore [sampleCommit "r" [], sampleCommit "a" ["r"],
      sampleCommit "b" ["r"]]).parents "a" x → x ∈ ["a", "r"] := fun x =>
    mem_of_reaches (by decide +kernel) (by decide)
  have hB : ∀ x, Reaches (sampleStore [sampleCommit "r" [], sampleCommit "a" ["r"],
      sampleCommit "b" ["r"]]).parents "b" x → x ∈ ["b", "r"] := fun x =>
    mem_of_reaches (by decide +kernel) (by decide)
  have hroot : ∀ x, x ∈ ["a", "r"] → x ∈ ["b", "r"] → x = "r" := by decide
  rw [hroot h (hA h hh.1) (hB h hh.2), hroot h' (hA h' hh'.1) (hB h' hh'.2)] at hne
  exact absurd rfl hne

/-- Two branches at `r` both merge its child `n`: both ancestors are two steps away in total,
    and the older one is returned. -/
theorem older_ancestor_returned :
    let st := sampleStore [sampleCommit "r" [], sampleCommit "n" ["r"],
      sampleCommit "a" ["r", "n"], sampleCommit "b" ["r", "n"]]
    st.resolveCommitHash "a" = .ok "a" ∧ st.resolveCommitHash "b" = .ok "b" ∧
      st.findMergeBase "a" "b" = .ok (some "r") ∧ ¬ FindsBest st "a" "b" "a" "b" := by
  intro st
  have ha : st.resolveCommitHash "a" = .ok "a" := by decide +kernel
  have hb : st.resolveCommitHash "b" = .ok "b" := by decide +kernel
  have hfound : st.findMergeBase "a" "b" = .ok (some "r") := by decide +kernel
  refine ⟨ha, hb, hfound, ?_⟩
  rintro ⟨found', ⟨bound, hbound⟩, -, hbest⟩
  obtain ⟨found, hresult, hends, -⟩ := findMergeBase_spec st ha hb
  rw [hfound] at hresult
  obtain rfl := Except.ok.inj hresult
  have hsame := hbound (max bound st.searchFuel) (le_max_left _ _)
  rw [hends _ (le_max_right _ _)] at hsame
  obtain rfl := Except.ok.inj (Option.some.inj hsame)
  apply (hbest "r" rfl).2 "n" _ (by decide) (reaches_of_mem (by decide +kernel))
  exact ⟨reaches_of_mem (by decide +kernel), reaches_of_mem (by decide +kernel)⟩

end CryptoTrading.Vcs

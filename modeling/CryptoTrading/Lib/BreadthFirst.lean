import Mathlib.Algebra.BigOperators.Group.List.Basic
import Mathlib.Algebra.GroupWithZero.Nat
import Mathlib.Algebra.Order.BigOperators.Group.List
import Mathlib.Data.List.Induction
import Mathlib.Data.List.Sort
import Mathlib.Logic.Relation
import Mathlib.Order.Lattice.Nat

/-!
# Breadth-first search

A search with a queue over a graph given by its successor lists.  The search is compared with
the levels of the graph: it visits the nodes level by level, each at its distance, and within
a level in the order in which the previous level leads to them.

The search has fuel.  A bound on the number of edges is enough fuel (`search_isSome`).
-/

namespace CryptoTrading.Lib

variable {α : Type} (next : α → List α)

/-! ## §1 Walks and distances -/

/-- A walk of a given length. -/
inductive Walk : ℕ → α → α → Prop where
  | nil (x : α) : Walk 0 x x
  | snoc {n : ℕ} {x y z : α} : Walk n x y → z ∈ next y → Walk (n + 1) x z

/-- `y` can be reached from `x`. -/
def Reaches (x y : α) : Prop := Relation.ReflTransGen (fun u v => v ∈ next u) x y

/-- The length of a shortest walk. -/
noncomputable def dist (x y : α) : ℕ := sInf {n | Walk next n x y}

variable {next}

theorem Walk.reaches {n : ℕ} {x y : α} (h : Walk next n x y) : Reaches next x y := by
  induction h with
  | nil x => exact Relation.ReflTransGen.refl
  | snoc _ hedge ih => exact ih.tail hedge

theorem reaches_iff_walk {x y : α} : Reaches next x y ↔ ∃ n, Walk next n x y := by
  constructor
  · intro h
    induction h with
    | refl => exact ⟨0, Walk.nil x⟩
    | tail _ hedge ih =>
      obtain ⟨n, hn⟩ := ih
      exact ⟨n + 1, hn.snoc hedge⟩
  · rintro ⟨n, hn⟩
    exact hn.reaches

theorem reaches_of_mem {x y : α} (h : y ∈ next x) : Reaches next x y :=
  Relation.ReflTransGen.single h

/-- More edges reach more. -/
theorem Reaches.mono {next' : α → List α} (hedges : ∀ u, ∀ v ∈ next u, v ∈ next' u) {x y : α}
    (h : Reaches next x y) : Reaches next' x y := by
  induction h with
  | refl => exact Relation.ReflTransGen.refl
  | tail _ hedge ih => exact ih.tail (hedges _ _ hedge)

/-- What is reached stays in a set that no edge leaves. -/
theorem mem_of_reaches {S : List α} (hclosed : ∀ u ∈ S, ∀ v ∈ next u, v ∈ S) {x y : α}
    (hx : x ∈ S) (h : Reaches next x y) : y ∈ S := by
  induction h with
  | refl => exact hx
  | tail _ hedge ih => exact hclosed _ ih _ hedge

theorem walk_dist {x y : α} (h : Reaches next x y) : Walk next (dist next x y) x y :=
  Nat.sInf_mem (reaches_iff_walk.mp h)

theorem dist_le {n : ℕ} {x y : α} (h : Walk next n x y) : dist next x y ≤ n := Nat.sInf_le h

@[simp] theorem dist_self (x : α) : dist next x x = 0 := Nat.le_zero.mp (dist_le (Walk.nil x))

/-- Only the node itself is at distance zero. -/
theorem eq_of_dist_eq_zero {x y : α} (h : Reaches next x y) (hdist : dist next x y = 0) :
    x = y := by
  have hwalk := walk_dist h
  rw [hdist] at hwalk
  cases hwalk
  rfl

/-- A node at positive distance has a predecessor one step nearer. -/
theorem exists_edge_of_dist_succ {n : ℕ} {x z : α} (h : Reaches next x z)
    (hdist : dist next x z = n + 1) :
    ∃ y, Reaches next x y ∧ dist next x y = n ∧ z ∈ next y := by
  have hwalk := walk_dist h
  rw [hdist] at hwalk
  cases hwalk with
  | @snoc _ _ y _ hy hedge =>
    refine ⟨y, hy.reaches, ?_, hedge⟩
    -- a shorter walk to `y` would give a shorter walk to `z`
    have hle := dist_le hy
    have hge := dist_le ((walk_dist hy.reaches).snoc hedge)
    omega

/-! ## §2 Levels -/

section Levels

variable [DecidableEq α]

/-- The elements that have not been seen, each at its first occurrence. -/
def fresh (seen : List α) : List α → List α
  | [] => []
  | x :: xs => if x ∈ seen then fresh seen xs else x :: fresh (seen ++ [x]) xs

theorem mem_fresh {seen xs : List α} {x : α} : x ∈ fresh seen xs ↔ x ∈ xs ∧ x ∉ seen := by
  induction xs generalizing seen with
  | nil => simp [fresh]
  | cons y ys ih =>
    by_cases hy : y ∈ seen
    · simp only [fresh, hy, if_true, ih, List.mem_cons]
      constructor
      · rintro ⟨hx, hseen⟩
        exact ⟨Or.inr hx, hseen⟩
      · rintro ⟨rfl | hx, hseen⟩
        · exact absurd hy hseen
        · exact ⟨hx, hseen⟩
    · simp only [fresh, hy, if_false, List.mem_cons, ih, List.mem_append, List.not_mem_nil,
        or_false]
      constructor
      · rintro (rfl | ⟨hx, hseen⟩)
        · exact ⟨Or.inl rfl, hy⟩
        · exact ⟨Or.inr hx, fun h => hseen (Or.inl h)⟩
      · rintro ⟨hx, hseen⟩
        by_cases hxy : x = y
        · exact Or.inl hxy
        · exact Or.inr ⟨hx.resolve_left hxy, fun h => h.elim hseen hxy⟩

theorem nodup_append_fresh {seen : List α} (h : seen.Nodup) (xs : List α) :
    (seen ++ fresh seen xs).Nodup := by
  induction xs generalizing seen with
  | nil => simpa [fresh] using h
  | cons y ys ih =>
    by_cases hy : y ∈ seen
    · simpa [fresh, hy] using ih h
    · have hseen : (seen ++ [y]).Nodup := by
        rw [List.nodup_append]
        refine ⟨h, List.nodup_singleton y, ?_⟩
        intro a ha b hb hab
        rw [List.mem_singleton.mp hb] at hab
        exact hy (hab ▸ ha)
      have hrest := ih hseen
      rw [List.append_assoc] at hrest
      simpa [fresh, hy] using hrest

variable (next)

/-- What has been visited before level `n`, with distances, and the nodes that the previous
    level leads to, from which level `n` is taken. -/
def levelOf (start : α) : ℕ → List (α × ℕ) × List α
  | 0 => ([], [start])
  | n + 1 =>
    let now := fresh ((levelOf start n).1.map Prod.fst) (levelOf start n).2
    ((levelOf start n).1 ++ now.map (fun x => (x, n)), now.flatMap next)

/-- The nodes of the levels below `n`, in order. -/
def visitedBefore (start : α) (n : ℕ) : List (α × ℕ) := (levelOf next start n).1

/-- `x` comes before `y` in breadth-first order. -/
def Precedes (start x y : α) : Prop :=
  ∃ n before d after, visitedBefore next start n = before ++ (y, d) :: after ∧
    x ∈ before.map Prod.fst

variable {next} {start : α}

theorem visitedBefore_succ (n : ℕ) :
    visitedBefore next start (n + 1) = visitedBefore next start n ++
      (fresh ((visitedBefore next start n).map Prod.fst) (levelOf next start n).2).map
        fun x => (x, n) := rfl

theorem map_fst_visitedBefore_succ (n : ℕ) :
    (visitedBefore next start (n + 1)).map Prod.fst =
      (visitedBefore next start n).map Prod.fst ++
        fresh ((visitedBefore next start n).map Prod.fst) (levelOf next start n).2 := by
  simp [visitedBefore_succ, Function.comp_def]

theorem nodup_visitedBefore (n : ℕ) : ((visitedBefore next start n).map Prod.fst).Nodup := by
  induction n with
  | zero => exact List.nodup_nil
  | succ n ih =>
    rw [map_fst_visitedBefore_succ]
    exact nodup_append_fresh ih _

theorem not_precedes_self (x : α) : ¬ Precedes next start x x := by
  rintro ⟨n, before, d, after, hn, hx⟩
  have hnodup := @nodup_visitedBefore α next _ start n
  rw [hn, List.map_append, List.map_cons, List.nodup_middle, List.nodup_cons] at hnodup
  exact hnodup.1 (List.mem_append_left _ hx)

/-- **The levels are the distances**: below level `n` are the nodes at distance less than
    `n`, and level `n` leads to every node at distance `n + 1`. -/
theorem levelOf_spec (n : ℕ) :
    (∀ x d, (x, d) ∈ visitedBefore next start n ↔
      Reaches next start x ∧ dist next start x = d ∧ d < n) ∧
    (∀ x, x ∈ (levelOf next start n).2 → Walk next n start x) ∧
    (∀ x, Reaches next start x → dist next start x = n → x ∈ (levelOf next start n).2) := by
  induction n with
  | zero =>
    -- nothing is visited, and the first level is the start
    refine ⟨?_, ?_, ?_⟩
    · -- visited: what was visited before, and the level that was just expanded
      intro x d
      simp [visitedBefore, levelOf]
    · -- a successor of a node at distance `n` is at the end of a walk of length `n + 1`
      intro x hx
      obtain rfl := List.mem_singleton.mp hx
      exact Walk.nil x
    · -- a shortest walk to a node of the next level passes a node of this one
      intro x hx hdist
      rw [← eq_of_dist_eq_zero hx hdist]
      exact List.mem_singleton_self start
  | succ n ih =>
    obtain ⟨hseen, hwalks, hall⟩ := ih
    -- the nodes of the next level are those at distance `n`
    have hnow : ∀ x, x ∈ fresh ((levelOf next start n).1.map Prod.fst) (levelOf next start n).2 ↔
        Reaches next start x ∧ dist next start x = n := by
      intro x
      rw [mem_fresh]
      constructor
      · rintro ⟨hx, hnew⟩
        have hwalk := hwalks x hx
        refine ⟨hwalk.reaches, le_antisymm (dist_le hwalk) ?_⟩
        by_contra hlt
        exact hnew (List.mem_map.mpr ⟨(x, dist next start x),
          (hseen x _).mpr ⟨hwalk.reaches, rfl, not_le.mp hlt⟩, rfl⟩)
      · rintro ⟨hx, hdist⟩
        refine ⟨hall x hx hdist, ?_⟩
        intro hold
        obtain ⟨⟨x', d⟩, hmem, rfl⟩ := List.mem_map.mp hold
        obtain ⟨-, hd, hlt⟩ := (hseen x' d).mp hmem
        exact absurd (hd.symm.trans hdist) (Nat.ne_of_lt hlt)
    refine ⟨?_, ?_, ?_⟩
    · intro x d
      show (x, d) ∈ (levelOf next start n).1 ++ _ ↔ _
      rw [List.mem_append, List.mem_map]
      have hold : (x, d) ∈ (levelOf next start n).1 ↔ _ := hseen x d
      rw [hold]
      constructor
      · rintro (⟨hx, hdist, hd⟩ | ⟨y, hy, heq⟩)
        · exact ⟨hx, hdist, by omega⟩
        · obtain ⟨rfl, rfl⟩ := Prod.mk.inj heq
          exact ⟨((hnow _).mp hy).1, ((hnow _).mp hy).2, by omega⟩
      · rintro ⟨hx, hdist, hd⟩
        by_cases hlt : d < n
        · exact Or.inl ⟨hx, hdist, hlt⟩
        · obtain rfl : d = n := by omega
          exact Or.inr ⟨x, (hnow x).mpr ⟨hx, hdist⟩, rfl⟩
    · intro x hx
      obtain ⟨y, hy, hedge⟩ := List.mem_flatMap.mp hx
      obtain ⟨hreach, hdist⟩ := (hnow y).mp hy
      exact (hdist ▸ walk_dist hreach).snoc hedge
    · intro x hx hdist
      obtain ⟨y, hy, hydist, hedge⟩ := exists_edge_of_dist_succ hx hdist
      exact List.mem_flatMap.mpr ⟨y, (hnow y).mpr ⟨hy, hydist⟩, hedge⟩

/-- The visited nodes stand in order of their distances. -/
theorem pairwise_visitedBefore (n : ℕ) :
    (visitedBefore next start n).Pairwise fun u v => u.2 ≤ v.2 := by
  induction n with
  | zero => exact List.Pairwise.nil
  | succ n ih =>
    rw [visitedBefore_succ, List.pairwise_append]
    refine ⟨ih, ?_, ?_⟩
    · rw [List.pairwise_map]
      exact List.pairwise_of_forall fun _ _ => le_refl n
    · rintro ⟨x, d⟩ hx v hv
      obtain ⟨y, -, rfl⟩ := List.mem_map.mp hv
      exact (((levelOf_spec n).1 x d).mp hx).2.2.le

/-- What comes first is not farther away. -/
theorem dist_le_of_precedes {x y : α} (h : Precedes next start x y) :
    dist next start x ≤ dist next start y := by
  obtain ⟨n, before, d, after, hn, hx⟩ := h
  obtain ⟨⟨x', dx⟩, hx', rfl⟩ := List.mem_map.mp hx
  have hle : dx ≤ d := by
    have hpairs := @pairwise_visitedBefore α next _ start n
    rw [hn, List.pairwise_append] at hpairs
    exact hpairs.2.2 _ hx' _ List.mem_cons_self
  have hfirst := ((levelOf_spec n).1 x' dx).mp (hn ▸ List.mem_append_left _ hx')
  have hsecond := ((levelOf_spec n).1 y d).mp (hn ▸ List.mem_append_right _ List.mem_cons_self)
  rw [hfirst.2.1, hsecond.2.1]
  exact hle

/-- A later list of visited nodes extends an earlier one. -/
theorem visitedBefore_append (n k : ℕ) :
    ∃ later, visitedBefore next start (n + k) = visitedBefore next start n ++ later := by
  induction k with
  | zero => exact ⟨[], by simp⟩
  | succ k ih =>
    obtain ⟨later, hlater⟩ := ih
    rw [← Nat.add_assoc, visitedBefore_succ, hlater]
    exact ⟨_, List.append_assoc _ _ _⟩

/-- A level that leads nowhere is the last one. -/
theorem levelOf_of_nil {n : ℕ} (h : (levelOf next start n).2 = []) (k : ℕ) :
    levelOf next start (n + k) = levelOf next start n := by
  induction k with
  | zero => rfl
  | succ k ih =>
    rw [← Nat.add_assoc, levelOf, ih, h]
    simp [fresh, Prod.ext_iff, h]

/-! ## §3 The search with a queue -/

variable (next)

/-- Take nodes off the queue, skip those already visited, and let `visit` note each new one
    with its depth.  Nothing is returned when the fuel runs out before the queue is empty. -/
def search {σ : Type} (visit : σ → α × ℕ → σ) : ℕ → List (α × ℕ) → List α → σ → Option σ
  | _, [], _, noted => some noted
  | 0, _ :: _, _, _ => none
  | fuel + 1, (x, depth) :: queue, visited, noted =>
    if x ∈ visited then search visit fuel queue visited noted
    else search visit fuel (queue ++ (next x).map fun y => (y, depth + 1)) (visited ++ [x])
      (visit noted (x, depth))

variable {next}

/-- Whatever is noted is noted about the same visits. -/
theorem search_eq_foldl {σ : Type} (visit : σ → α × ℕ → σ) (s : σ) (fuel : ℕ)
    (queue : List (α × ℕ)) (visited : List α) (visits : List (α × ℕ)) :
    search next visit fuel queue visited (visits.foldl visit s) =
      (search next (fun es e => es ++ [e]) fuel queue visited visits).map
        fun es => es.foldl visit s := by
  induction fuel generalizing queue visited visits with
  | zero =>
    cases queue with
    | nil => rfl
    | cons e queue => rfl
  | succ fuel ih =>
    cases queue with
    | nil => rfl
    | cons e queue =>
      obtain ⟨x, depth⟩ := e
      by_cases hx : x ∈ visited
      · simp only [search, hx, if_true]
        exact ih queue visited visits
      · simp only [search, hx, if_false]
        rw [← ih]
        simp

/-- More fuel does not change what is returned. -/
theorem search_mono {σ : Type} (visit : σ → α × ℕ → σ) {fuel : ℕ} {queue : List (α × ℕ)}
    {visited : List α} {noted r : σ} (h : search next visit fuel queue visited noted = some r)
    {more : ℕ} (hmore : fuel ≤ more) : search next visit more queue visited noted = some r := by
  induction fuel generalizing queue visited noted more with
  | zero =>
    cases queue with
    | nil => cases more <;> exact h
    | cons e queue => cases h
  | succ fuel ih =>
    obtain ⟨more, rfl⟩ : ∃ k, more = k + 1 := ⟨more - 1, by omega⟩
    cases queue with
    | nil => exact h
    | cons e queue =>
      obtain ⟨x, depth⟩ := e
      by_cases hx : x ∈ visited
      · simp only [search, hx, if_true] at h ⊢
        exact ih h (by omega)
      · simp only [search, hx, if_false] at h ⊢
        exact ih h (by omega)

/-- One level is taken off the queue as a whole. -/
theorem search_level {r : List (α × ℕ)} {n : ℕ} (xs ys : List α) {fuel : ℕ}
    {visits : List (α × ℕ)}
    (h : search next (fun es e => es ++ [e]) fuel
      (xs.map (fun x => (x, n)) ++ ys.map fun y => (y, n + 1)) (visits.map Prod.fst) visits =
        some r) :
    ∃ fuel', fuel = fuel' + xs.length ∧
      search next (fun es e => es ++ [e]) fuel'
        ((ys ++ (fresh (visits.map Prod.fst) xs).flatMap next).map fun y => (y, n + 1))
        ((visits ++ (fresh (visits.map Prod.fst) xs).map fun x => (x, n)).map Prod.fst)
        (visits ++ (fresh (visits.map Prod.fst) xs).map fun x => (x, n)) = some r := by
  -- along the level; what it discovers is queued behind the rest of it
  induction xs generalizing fuel visits ys with
  | nil => exact ⟨fuel, rfl, by simpa [fresh] using h⟩
  | cons x xs ih =>
    cases fuel with
    | zero => cases h
    | succ fuel =>
      by_cases hx : x ∈ visits.map Prod.fst
      · simp only [List.map_cons, List.cons_append, search, hx, if_true] at h
        obtain ⟨fuel', hfuel, hrest⟩ := ih ys h
        refine ⟨fuel', by simp [hfuel]; omega, ?_⟩
        simpa only [fresh, hx, if_true] using hrest
      · simp only [List.map_cons, List.cons_append, search, hx, if_false] at h
        have hqueue : (xs.map (fun x => (x, n)) ++ ys.map fun y => (y, n + 1)) ++
            (next x).map (fun y => (y, n + 1)) =
            xs.map (fun x => (x, n)) ++ (ys ++ next x).map fun y => (y, n + 1) := by
          simp
        have hvisited : visits.map Prod.fst ++ [x] = (visits ++ [(x, n)]).map Prod.fst := by
          simp
        rw [hqueue, hvisited] at h
        obtain ⟨fuel', hfuel, hrest⟩ := ih (ys ++ next x) h
        refine ⟨fuel', by simp [hfuel]; omega, ?_⟩
        simpa [fresh, hx] using hrest

/-- From level `n` on the search runs through the remaining levels. -/
theorem search_from_level {r : List (α × ℕ)} (fuel n : ℕ)
    (h : search next (fun es e => es ++ [e]) fuel
      ((levelOf next start n).2.map fun x => (x, n)) ((visitedBefore next start n).map Prod.fst)
      (visitedBefore next start n) = some r) :
    ∃ m, (levelOf next start m).2 = [] ∧ r = visitedBefore next start m := by
  induction fuel using Nat.strong_induction_on generalizing n with
  | _ fuel ih =>
    cases hfrontier : (levelOf next start n).2 with
    | nil =>
      rw [hfrontier] at h
      refine ⟨n, hfrontier, ?_⟩
      cases fuel <;> exact (Option.some.inj h).symm
    | cons x xs =>
      obtain ⟨fuel', hfuel, hrest⟩ := search_level (levelOf next start n).2 []
        (by simpa using h)
      have hlt : fuel' < fuel := by
        rw [hfuel, hfrontier]
        simp
      exact ih fuel' hlt (n + 1) hrest

/-- **The search visits the levels.** -/
theorem search_eq_visitedBefore {fuel : ℕ} {r : List (α × ℕ)}
    (h : search next (fun es e => es ++ [e]) fuel [(start, 0)] [] [] = some r) :
    ∃ m, (levelOf next start m).2 = [] ∧ r = visitedBefore next start m :=
  search_from_level fuel 0 h

/-- **A bound on the edges is enough fuel.** -/
theorem search_isSome {σ : Type} (visit : σ → α × ℕ → σ) {edges : ℕ}
    (hedges : ∀ xs : List α, xs.Nodup → (xs.map fun x => (next x).length).sum ≤ edges)
    (fuel : ℕ) (queue : List (α × ℕ)) {visited : List α} (hvisited : visited.Nodup) (noted : σ)
    (hfuel : queue.length + edges ≤ fuel + (visited.map fun x => (next x).length).sum) :
    (search next visit fuel queue visited noted).isSome := by
  -- a visited node pays one, a new one brings its edges, which the bound still holds
  induction fuel generalizing queue visited noted with
  | zero =>
    cases queue with
    | nil => rfl
    | cons e queue =>
      have hbound := hedges visited hvisited
      simp only [List.length_cons] at hfuel
      omega
  | succ fuel ih =>
    cases queue with
    | nil => rfl
    | cons e queue =>
      obtain ⟨x, depth⟩ := e
      simp only [List.length_cons] at hfuel
      by_cases hx : x ∈ visited
      · simp only [search, hx, if_true]
        exact ih queue hvisited noted (by omega)
      · simp only [search, hx, if_false]
        apply ih
        · rw [List.nodup_append]
          refine ⟨hvisited, List.nodup_singleton x, ?_⟩
          intro a ha b hb hab
          rw [List.mem_singleton.mp hb] at hab
          exact hx (hab ▸ ha)
        · simp only [List.length_append, List.length_map, List.map_append, List.map_cons,
            List.map_nil, List.sum_append, List.sum_singleton]
          omega

/-! ## §4 What the visits say -/

/-- The visits are the reachable nodes with their distances. -/
theorem mem_visits_iff {m : ℕ} (h : (levelOf next start m).2 = []) {x : α} {d : ℕ} :
    (x, d) ∈ visitedBefore next start m ↔ Reaches next start x ∧ dist next start x = d := by
  have hlast : visitedBefore next start (m + (d + 1)) = visitedBefore next start m := by
    rw [visitedBefore, levelOf_of_nil h]
    rfl
  rw [← hlast, (levelOf_spec (m + (d + 1))).1]
  constructor
  · rintro ⟨hx, hd, -⟩
    exact ⟨hx, hd⟩
  · rintro ⟨hx, hd⟩
    exact ⟨hx, hd, by omega⟩

/-- The order of the visits is breadth-first order. -/
theorem precedes_iff {m : ℕ} (h : (levelOf next start m).2 = []) {x y : α} {d : ℕ}
    {before after : List (α × ℕ)}
    (hvisits : visitedBefore next start m = before ++ (y, d) :: after) :
    Precedes next start x y ↔ x ∈ before.map Prod.fst := by
  constructor
  · rintro ⟨n, before', d', after', hn, hx⟩
    obtain ⟨later, hlater⟩ := @visitedBefore_append α next _ start n m
    have hlast : visitedBefore next start (n + m) = visitedBefore next start m := by
      rw [Nat.add_comm, visitedBefore, levelOf_of_nil h]
      rfl
    -- the node occurs only once, so what stands before it is determined
    have hboth : before'.map Prod.fst ++ y :: (after' ++ later).map Prod.fst =
        before.map Prod.fst ++ y :: after.map Prod.fst := by
      have heq : before' ++ (y, d') :: (after' ++ later) = before ++ (y, d) :: after := by
        rw [← hvisits, ← hlast, hlater, hn]
        simp
      simpa using congrArg (List.map Prod.fst) heq
    have hnodup := @nodup_visitedBefore α next _ start m
    rw [hvisits, List.map_append, List.map_cons, List.nodup_middle, List.nodup_cons,
      List.mem_append, not_or] at hnodup
    have hnodup' := @nodup_visitedBefore α next _ start (n + m)
    rw [hlater, hn, List.append_assoc, List.cons_append, List.map_append, List.map_cons,
      List.nodup_middle, List.nodup_cons, List.mem_append, not_or] at hnodup'
    rw [List.append_cons_inj_of_notMem hnodup'.1.1 hnodup'.1.2] at hboth
    exact hboth.1 ▸ hx
  · intro hx
    exact ⟨m, before, d, after, hvisits, hx⟩

end Levels

/-- The head of a stable sort by a key is the first of the elements with the least key. -/
theorem head?_insertionSort {β : Type} (key : β → ℕ) {l : List β} {m : β}
    (h : (l.insertionSort fun a b => key a ≤ key b).head? = some m) :
    ∃ before after, l = before ++ m :: after ∧ (∀ x ∈ before, key m < key x) ∧
      ∀ x ∈ after, key m ≤ key x := by
  induction l generalizing m with
  | nil => cases h
  | cons x xs ih =>
    rw [List.insertionSort_cons] at h
    cases hsorted : xs.insertionSort fun a b => key a ≤ key b with
    | nil =>
      have hnil : xs = [] := by
        have hlength := List.length_insertionSort (fun a b => key a ≤ key b) xs
        rw [hsorted] at hlength
        exact List.length_eq_zero_iff.mp hlength.symm
      rw [hsorted] at h
      obtain rfl := Option.some.inj h
      subst hnil
      exact ⟨[], [], rfl, by simp, by simp⟩
    | cons y ys =>
      obtain ⟨before, after, hxs, hbefore, hafter⟩ := @ih y (by rw [hsorted]; rfl)
      rw [hsorted, List.orderedInsert] at h
      -- a new head goes before an equal one, since it came first
      by_cases hle : key x ≤ key y
      · rw [if_pos hle] at h
        obtain rfl := Option.some.inj h
        refine ⟨[], xs, rfl, by simp, ?_⟩
        intro z hz
        rw [hxs] at hz
        rcases List.mem_append.mp hz with hz | hz
        · exact hle.trans (hbefore z hz).le
        · rcases List.mem_cons.mp hz with rfl | hz
          · exact hle
          · exact hle.trans (hafter z hz)
      · rw [if_neg hle] at h
        obtain rfl := Option.some.inj h
        refine ⟨x :: before, after, by rw [hxs]; rfl, ?_, hafter⟩
        intro z hz
        rcases List.mem_cons.mp hz with rfl | hz
        · exact not_le.mp hle
        · exact hbefore z hz

end CryptoTrading.Lib

import CryptoTrading.Experiments.Promotion

/-!
# Idempotency keys of promotions

The calls of `promote_to_main` (`src/server/services/main_promotion_service.py`) side by side, cut
at the boundaries of their units of work: the look-up of the key, the checks, the merge, and the
save of the record.  Each call can fail after any of them; a retry is another call with the same
key.

The key is looked up in the first unit of work and recorded in the last one, with the merge in
between.  A key is merged once exactly if every merge finds the key neither recorded nor merged by
a call that has not recorded it (`Exclusive`).
-/

namespace CryptoTrading.Experiments

open CryptoTrading.Lib CryptoTrading.Vcs

/-! ## §1 Calls side by side -/

/-- Where a call of `promote_to_main` is. -/
inductive PromotePhase where
  | idle
  /-- The key has no record. -/
  | looked
  /-- Gate C has passed or is overruled. -/
  | checked (cand : ExperimentCandidate) (source : String)
  /-- The merge is committed, and the record is to be saved. -/
  | merged (source mergeCommitHash : String)
  | done (mergeCommitHash : String)
  | failed
  /-- Failed between the merge and the record. -/
  | lost (mergeCommitHash : String)
  deriving DecidableEq

/-- A call: its arguments, and the id that it draws for its record. -/
structure PromoteCall (V : Type) where
  req : PromoteToMainRequest
  resolvedConfig : Option (Config V)
  promotionId : String

/-- The tables, the merges that the calls have made, and where each call is. -/
structure PromotionState (V κ ι : Type) where
  world : World V κ
  merges : List (String × String)
  phases : ι → PromotePhase

/-- Nothing is promoted, and no call has begun. -/
def PromotionState.initial {V κ ι : Type} (store : Store V) (experiments : Dict String Experiment)
    (runs : Dict String (SimulatedRun κ)) : PromotionState V κ ι :=
  ⟨⟨store, experiments, runs, Dict.empty⟩, [], fun _ => .idle⟩

inductive PromotionStep (V κ ι : Type) where
  | call (i : ι) (now : ℕ)
  | fails (i : ι)
  /-- Whatever the other services write. -/
  | others (store : Store V) (experiments : Dict String Experiment)
    (runs : Dict String (SimulatedRun κ))

namespace PromotionState

variable {V κ ι : Type} [DecidableEq V] [DecidableEq ι] (env : Env V) (calls : ι → PromoteCall V)

omit [DecidableEq V] in
def setPhase (s : PromotionState V κ ι) (i : ι) (phase : PromotePhase) : PromotionState V κ ι :=
  { s with phases := Function.update s.phases i phase }

omit [DecidableEq ι] in
/-- The merge of a call. -/
def mergeCall (s : PromotionState V κ ι) (i : ι) (cand : ExperimentCandidate) (source : String)
    (now : ℕ) : Except VcsError (Commit × Store V) :=
  s.world.store.merge env
    { source := source
      targetRef := (calls i).req.targetRef
      author := (calls i).req.approver
      message := some (World.promotionMessage (calls i).req cand)
      expectedTargetHead := none
      resolvedConfig := (calls i).resolvedConfig } now

omit [DecidableEq V] [DecidableEq ι] in
/-- The record of a call. -/
def recordOf (i : ι) (source mergeCommitHash : String) : PromotionRecord where
  promotionId := (calls i).promotionId
  experimentId := (calls i).req.experimentId
  candidateId := (calls i).req.candidateId
  sourceCommit := source
  targetRef := (calls i).req.targetRef
  status := .promoted
  approver := (calls i).req.approver
  approvalNotes := (calls i).req.approvalNotes
  mergeCommitHash := mergeCommitHash

omit [DecidableEq V] [DecidableEq ι] in
def keyOf (i : ι) : String := (calls i).req.idempotencyKey

/-- The next unit of work of a call: the look-up of its key, the preview with its gates, the merge,
    and the record. -/
def callStep (s : PromotionState V κ ι) (i : ι) (now : ℕ) : PromotionState V κ ι :=
  match s.phases i with
  | .idle =>
    -- a record in another status than PROMOTED does not count
    match (s.world.promotions.get? (keyOf calls i)).filter fun r => r.status = .promoted with
    | some record => s.setPhase i (.done record.mergeCommitHash)
    | none => s.setPhase i .looked
  | .looked =>
    -- `preview_promotion`
    match s.world.previewPromotion env (calls i).req with
    | .error _ => s.setPhase i .failed
    | .ok (cand, source, gateC) =>
      if gateC.decision ≠ .pass ∧ (calls i).resolvedConfig = none then s.setPhase i .failed
      else s.setPhase i (.checked cand source)
  | .checked cand source =>
    -- the key is not looked at again
    match s.mergeCall env calls i cand source now with
    | .error _ => s.setPhase i .failed
    | .ok (commit, store) =>
      { s with
        world := { s.world with store := store }
        merges := s.merges ++ [(keyOf calls i, commit.hash)] }.setPhase i
          (.merged source commit.hash)
  -- the key is written here, with whatever hash this call has made
  | .merged source hash =>
    { s with
      world := s.world.savePromotion (keyOf calls i) (recordOf calls i source hash) }.setPhase i
        (.done hash)
  | .done _ => s
  | .failed => s
  | .lost _ => s

omit [DecidableEq V] in
/-- A call that fails where it is.  One that has returned does not. -/
def failStep (s : PromotionState V κ ι) (i : ι) : PromotionState V κ ι :=
  match s.phases i with
  | .done _ => s
  | .merged _ hash => s.setPhase i (.lost hash)
  | .lost _ => s
  | _ => s.setPhase i .failed

def step (s : PromotionState V κ ι) : PromotionStep V κ ι → PromotionState V κ ι
  | .call i now => s.callStep env calls i now
  | .fails i => s.failStep i
  | .others store experiments runs =>
    { s with world := ⟨store, experiments, runs, s.world.promotions⟩ }

omit [DecidableEq V] in
@[simp] theorem setPhase_world (s : PromotionState V κ ι) (i : ι) (phase : PromotePhase) :
    (s.setPhase i phase).world = s.world := rfl

omit [DecidableEq V] in
@[simp] theorem setPhase_phases (s : PromotionState V κ ι) (i : ι) (phase : PromotePhase) :
    (s.setPhase i phase).phases i = phase := Function.update_self ..

/-! ## §2 One merge for each key -/

omit [DecidableEq V] [DecidableEq ι] in
/-- The merge commits that were made under a key. -/
def mergesOf (s : PromotionState V κ ι) (key : String) : List String :=
  (s.merges.filter fun m => m.1 = key).map Prod.snd

omit [DecidableEq V] [DecidableEq ι] in
/-- A key has at most one merge commit, and every call that succeeds reports it. -/
def PromotedOnce (s : PromotionState V κ ι) : Prop :=
  (∀ key, (s.mergesOf key).length ≤ 1) ∧
    ∀ i hash, s.phases i = .done hash → hash ∈ s.mergesOf (keyOf calls i)

end PromotionState

/-- The merge of a call whose key has no record of it. -/
def PromotePhase.unrecorded : PromotePhase → Option String
  | .merged _ hash => some hash
  | .lost hash => some hash
  | _ => none

section Keys

open PromotionState

variable {V κ ι : Type} (env : Env V) (calls : ι → PromoteCall V)

/-- A merge that succeeds finds its key without a record, and no call with the same key that has
    merged and not recorded it, because it has yet to or because it has failed. -/
def Exclusive [DecidableEq V] (s : PromotionState V κ ι) : PromotionStep V κ ι → Prop
  | .call i now => ∀ cand source merged, s.phases i = .checked cand source →
    s.mergeCall env calls i cand source now = .ok merged →
      s.world.promotions.get? (keyOf calls i) = none ∧
        ∀ j, keyOf calls j = keyOf calls i → (s.phases j).unrecorded = none
  | _ => True

/-- Each merge is recorded under its key, or belongs to the only call that has still to record it or
    has failed to.

    So a key has one merge, and a call that looks it up while it is recorded gets that merge. -/
structure KeyInv (s : PromotionState V κ ι) : Prop where
  record : ∀ key record, s.world.promotions.get? key = some record →
    record.status = .promoted ∧ s.mergesOf key = [record.mergeCommitHash]
  unrecorded : ∀ i hash, (s.phases i).unrecorded = some hash →
    s.mergesOf (keyOf calls i) = [hash] ∧ s.world.promotions.get? (keyOf calls i) = none
  unique : ∀ i j, (s.phases i).unrecorded ≠ none → (s.phases j).unrecorded ≠ none →
    keyOf calls i = keyOf calls j → i = j
  finished : ∀ i hash, s.phases i = .done hash → s.mergesOf (keyOf calls i) = [hash]
  merged : ∀ key, s.mergesOf key ≠ [] → s.world.promotions.get? key ≠ none ∨
    ∃ i, keyOf calls i = key ∧ (s.phases i).unrecorded ≠ none

variable {env calls} {s : PromotionState V κ ι}

namespace KeyInv

theorem initial (store : Store V) (experiments : Dict String Experiment)
    (runs : Dict String (SimulatedRun κ)) :
    KeyInv calls (PromotionState.initial store experiments runs : PromotionState V κ ι) := by
  refine ⟨fun key record h => ?_, fun i hash h => ?_, fun i j h => ?_, fun i hash h => ?_,
    fun key h => ?_⟩
  · cases h
  · cases h
  · exact absurd rfl h
  · cases h
  · exact absurd rfl h

theorem promotedOnce (h : KeyInv calls s) : s.PromotedOnce calls := by
  constructor
  · intro key
    by_cases hnone : s.mergesOf key = []
    · simp [hnone]
    rcases h.merged key hnone with hrecord | ⟨i, rfl, hi⟩
    · obtain ⟨record, hrecord⟩ := Option.ne_none_iff_exists'.mp hrecord
      simp [(h.record key record hrecord).2]
    · obtain ⟨hash, hi⟩ := Option.ne_none_iff_exists'.mp hi
      simp [(h.unrecorded i hash hi).1]
  · intro i hash hdone
    simp [h.finished i hash hdone]

variable [DecidableEq ι]

/-- A call that moves on without touching the tables. -/
theorem setPhase (h : KeyInv calls s) {i : ι} {phase : PromotePhase}
    (hsame : phase.unrecorded = (s.phases i).unrecorded)
    (hdone : ∀ hash, phase = .done hash → s.mergesOf (keyOf calls i) = [hash]) :
    KeyInv calls (s.setPhase i phase) := by
  have hphases : ∀ j, ((s.setPhase i phase).phases j).unrecorded = (s.phases j).unrecorded := by
    intro j
    by_cases hij : j = i
    · subst hij
      simp [PromotionState.setPhase, hsame]
    · simp [PromotionState.setPhase, hij]
  refine ⟨h.record, fun j hash hj => ?_, fun j k hj hk => ?_, fun j hash hj => ?_, fun key hk => ?_⟩
  · rw [hphases] at hj
    exact h.unrecorded j hash hj
  · rw [hphases] at hj hk
    exact h.unique j k hj hk
  · by_cases hij : j = i
    · subst hij
      simp only [PromotionState.setPhase, Function.update_self] at hj
      exact hdone hash hj
    · simp only [PromotionState.setPhase, Function.update_of_ne hij] at hj
      exact h.finished j hash hj
  · rcases h.merged key hk with hrecord | ⟨j, hj, hmerged⟩
    · exact .inl hrecord
    · refine .inr ⟨j, hj, ?_⟩
      rw [hphases]
      exact hmerged

omit [DecidableEq ι] in
theorem mergesOf_concat {s s' : PromotionState V κ ι} {key hash : String}
    (h : s'.merges = s.merges ++ [(key, hash)]) (key' : String) :
    s'.mergesOf key' = s.mergesOf key' ++ if key = key' then [hash] else [] := by
  by_cases hkey : key = key'
  · simp [mergesOf, h, hkey]
  · simp [mergesOf, h, hkey]

omit [DecidableEq ι] in
/-- A key without a record, and without a call that has merged, has no merge. -/
theorem mergesOf_eq_nil (h : KeyInv calls s) {key : String}
    (hrecord : s.world.promotions.get? key = none)
    (hothers : ∀ j, keyOf calls j = key → (s.phases j).unrecorded = none) :
    s.mergesOf key = [] := by
  by_contra hne
  rcases h.merged key hne with hmade | ⟨j, hj, hmade⟩
  · exact hmade hrecord
  · exact hmade (hothers j hj)

/-- A merge of a key that nobody has merged. -/
theorem merge {s s' : PromotionState V κ ι} (h : KeyInv calls s) {i : ι} {source hash : String}
    (hrecord : s.world.promotions.get? (keyOf calls i) = none)
    (hothers : ∀ j, keyOf calls j = keyOf calls i → (s.phases j).unrecorded = none)
    (hpromotions : s'.world.promotions = s.world.promotions)
    (hmerges : s'.merges = s.merges ++ [(keyOf calls i, hash)])
    (hphases : s'.phases = Function.update s.phases i (.merged source hash)) :
    KeyInv calls s' := by
  have hnone := h.mergesOf_eq_nil hrecord hothers
  have hkey : s'.mergesOf (keyOf calls i) = [hash] := by
    simp [mergesOf_concat hmerges, hnone]
  have hkeys : ∀ key, key ≠ keyOf calls i → s'.mergesOf key = s.mergesOf key := by
    intro key hne
    simp [mergesOf_concat hmerges, Ne.symm hne]
  have hself : s'.phases i = .merged source hash := by simp [hphases]
  have hphase : ∀ j, j ≠ i → s'.phases j = s.phases j := by
    intro j hij
    simp [hphases, hij]
  -- whoever else has merged has another key
  have hdistinct : ∀ j, j ≠ i → (s'.phases j).unrecorded ≠ none →
      keyOf calls j ≠ keyOf calls i := by
    intro j hij hj hkeys
    rw [hphase j hij] at hj
    exact hj (hothers j hkeys)
  refine ⟨fun key record hrec => ?_, fun j hash' hj => ?_, fun j k hj hk hjk => ?_,
    fun j hash' hj => ?_, fun key hne => ?_⟩
  · -- a record belongs to another key
    rw [hpromotions] at hrec
    have hne : key ≠ keyOf calls i := by
      intro heq
      rw [heq, hrecord] at hrec
      cases hrec
    rw [hkeys key hne]
    exact h.record key record hrec
  · -- unrecorded: the call itself has the one merge of its key, the others theirs
    rw [hpromotions]
    by_cases hij : j = i
    · subst hij
      rw [hself] at hj
      obtain rfl : hash = hash' := Option.some.inj hj
      exact ⟨hkey, hrecord⟩
    · have hne := hdistinct j hij (by simp [hj])
      rw [hphase j hij] at hj
      rw [hkeys _ hne]
      exact h.unrecorded j hash' hj
  · -- unique: no other call with an unrecorded merge has this key
    by_cases hij : j = i
    · by_contra hne
      exact hdistinct k (fun hki => hne (hij.trans hki.symm)) hk (by rw [← hjk, hij])
    · by_cases hik : k = i
      · exact absurd (hjk.trans (by rw [hik])) (hdistinct j hij hj)
      · rw [hphase j hij] at hj
        rw [hphase k hik] at hk
        exact h.unique j k hj hk hjk
  · -- a call that is done has a merge, and so another key
    have hij : j ≠ i := by
      intro heq
      rw [heq, hself] at hj
      cases hj
    rw [hphase j hij] at hj
    have hold := h.finished j hash' hj
    have hne : keyOf calls j ≠ keyOf calls i := by
      intro heq
      rw [heq, hnone] at hold
      cases hold
    rw [hkeys _ hne]
    exact hold
  · -- merged: a key with a merge has a record or a call that holds it
    by_cases hkeyi : key = keyOf calls i
    · exact .inr ⟨i, hkeyi.symm, by simp [hself, PromotePhase.unrecorded]⟩
    · rw [hkeys key hkeyi] at hne
      rw [hpromotions]
      rcases h.merged key hne with hrec | ⟨j, hj, hmade⟩
      · exact .inl hrec
      · have hij : j ≠ i := by
          intro heq
          rw [← hj, heq] at hkeyi
          exact hkeyi rfl
        refine .inr ⟨j, hj, ?_⟩
        rw [hphase j hij]
        exact hmade

/-- The only call that has merged under a key records it. -/
theorem save {s s' : PromotionState V κ ι} (h : KeyInv calls s) {i : ι} {source hash : String}
    (record : PromotionRecord) (hi : s.phases i = .merged source hash)
    (hstatus : record.status = .promoted) (hhash : record.mergeCommitHash = hash)
    (hpromotions : s'.world.promotions = s.world.promotions.set (keyOf calls i) record)
    (hmerges : s'.merges = s.merges)
    (hphases : s'.phases = Function.update s.phases i (.done hash)) : KeyInv calls s' := by
  have hmergesOf : ∀ key, s'.mergesOf key = s.mergesOf key := by
    intro key
    rw [mergesOf, mergesOf, hmerges]
  have hunrecorded : (s.phases i).unrecorded = some hash := by
    rw [hi]
    rfl
  have hkey := (h.unrecorded i hash hunrecorded).1
  have hself : s'.phases i = .done hash := by simp [hphases]
  have hphase : ∀ j, j ≠ i → s'.phases j = s.phases j := by
    intro j hij
    simp [hphases, hij]
  have hne_of : ∀ j, (s'.phases j).unrecorded ≠ none → j ≠ i := by
    intro j hj heq
    rw [heq, hself] at hj
    exact hj rfl
  refine ⟨fun key record' hrec => ?_, fun j hash' hj => ?_, fun j k hj hk hjk => ?_,
    fun j hash' hj => ?_, fun key hne => ?_⟩
  · -- record: the new one names the merge that its call has made
    rw [hmergesOf]
    rw [hpromotions, Dict.get?_set] at hrec
    split at hrec
    · rename_i heq
      obtain rfl := Option.some.inj hrec
      rw [heq, hkey, hhash]
      exact ⟨hstatus, rfl⟩
    · exact h.record key record' hrec
  · have hij := hne_of j (by simp [hj])
    rw [hphase j hij] at hj
    obtain ⟨hmade, hnone⟩ := h.unrecorded j hash' hj
    -- another key, since the call that records is the only one of its own
    have hne : keyOf calls j ≠ keyOf calls i :=
      fun heq => hij (h.unique j i (by simp [hj]) (by simp [hunrecorded]) heq)
    rw [hmergesOf, hpromotions, Dict.get?_set_of_ne _ _ hne]
    exact ⟨hmade, hnone⟩
  · -- unique: one call fewer holds an unrecorded merge
    have hij := hne_of j hj
    have hik := hne_of k hk
    rw [hphase j hij] at hj
    rw [hphase k hik] at hk
    exact h.unique j k hj hk hjk
  · -- finished: the call itself, and those that were done before
    rw [hmergesOf]
    by_cases hij : j = i
    · subst hij
      rw [hself] at hj
      obtain rfl : hash = hash' := PromotePhase.done.inj hj
      exact hkey
    · rw [hphase j hij] at hj
      exact h.finished j hash' hj
  · -- merged: the key of the call is recorded now
    rw [hmergesOf] at hne
    rw [hpromotions, Dict.get?_set]
    split
    · exact .inl (by simp)
    · rename_i hkeyi
      rcases h.merged key hne with hrec | ⟨j, hj, hmade⟩
      · exact .inl hrec
      · have hij : j ≠ i := by
          intro heq
          rw [heq] at hj
          exact hkeyi hj.symm
        refine .inr ⟨j, hj, ?_⟩
        rw [hphase j hij]
        exact hmade

theorem failStep (h : KeyInv calls s) (i : ι) : KeyInv calls (s.failStep i) := by
  unfold PromotionState.failStep
  cases hi : s.phases i with
  | done hash => exact h
  | lost hash => exact h
  | merged source hash => exact h.setPhase (by rw [hi]; rfl) nofun
  | _ => exact h.setPhase (by simp [hi, PromotePhase.unrecorded]) nofun

variable [DecidableEq V]

theorem callStep (h : KeyInv calls s) {i : ι} {now : ℕ}
    (hex : Exclusive env calls s (.call i now)) : KeyInv calls (s.callStep env calls i now) := by
  unfold PromotionState.callStep
  cases hi : s.phases i with
  | idle =>
    -- a record that is found is the merge of its key
    dsimp only
    split
    · rename_i record hrecord
      refine h.setPhase (by rw [hi]; rfl) fun hash hhash => ?_
      obtain ⟨hget, -⟩ := Option.filter_eq_some_iff.mp hrecord
      rw [(h.record _ record hget).2, PromotePhase.done.inj hhash]
    · exact h.setPhase (by rw [hi]; rfl) nofun
  | looked =>
    dsimp only
    split
    · exact h.setPhase (by rw [hi]; rfl) nofun
    · split
      · exact h.setPhase (by rw [hi]; rfl) nofun
      · exact h.setPhase (by rw [hi]; rfl) nofun
  | checked cand source =>
    dsimp only
    split
    · exact h.setPhase (by rw [hi]; rfl) nofun
    · rename_i commit store hmerge
      obtain ⟨hrecord, hothers⟩ := hex cand source _ hi hmerge
      exact h.merge hrecord hothers rfl rfl rfl
  | merged source hash =>
    have hnone : s.world.promotions.get? (keyOf calls i) = none :=
      (h.unrecorded i hash (by rw [hi]; rfl)).2
    refine h.save (recordOf calls i source hash) hi rfl rfl ?_ rfl rfl
    simp [World.savePromotion, PromotionState.setPhase, hnone]
  | done hash => exact h
  | failed => exact h
  | lost hash => exact h

theorem step (h : KeyInv calls s) {a : PromotionStep V κ ι} (hex : Exclusive env calls s a) :
    KeyInv calls (s.step env calls a) := by
  cases a with
  | call i now => exact h.callStep hex
  | fails i => exact h.failStep i
  | others store experiments runs =>
    exact ⟨h.record, h.unrecorded, h.unique, h.finished, h.merged⟩

/-- A merge under a key that was merged before makes two. -/
theorem exclusive_of_promotedOnce (h : KeyInv calls s) {a : PromotionStep V κ ι}
    (honce : (s.step env calls a).PromotedOnce calls) : Exclusive env calls s a := by
  cases a with
  | call i now =>
    intro cand source merged hi hmerge
    have hlength := honce.1 (keyOf calls i)
    have hmerges : (s.step env calls (.call i now)).merges =
        s.merges ++ [(keyOf calls i, merged.1.hash)] := by
      simp only [PromotionState.step, PromotionState.callStep, hi, hmerge, PromotionState.setPhase]
    have hnone : s.mergesOf (keyOf calls i) = [] := by
      simpa [mergesOf_concat hmerges] using hlength
    constructor
    · by_contra hne
      obtain ⟨record, hrecord⟩ := Option.ne_none_iff_exists'.mp hne
      have := (h.record _ record hrecord).2
      rw [hnone] at this
      cases this
    · intro j hj
      by_contra hne
      obtain ⟨hash, hhash⟩ := Option.ne_none_iff_exists'.mp hne
      have := (h.unrecorded j hash hhash).1
      rw [hj, hnone] at this
      cases this
  | fails i => trivial
  | others store experiments runs => trivial

end KeyInv

variable [DecidableEq V] [DecidableEq ι]

/-- **A key is promoted once exactly if its merges exclude each other.** For any calls, in any order
    of their units of work and with failures anywhere: in every state reached each key has at most
    one merge commit, and the calls that succeeded report it, if and only if every merge finds its
    key neither recorded nor merged by a call that has not recorded it.

    The key is looked up in the first unit of work of a call and recorded in the last; the merge
    between the two is tied to neither. -/
theorem promotedOnce_iff_exclusive (env : Env V) (calls : ι → PromoteCall V) (store : Store V)
    (experiments : Dict String Experiment) (runs : Dict String (SimulatedRun κ))
    (steps : List (PromotionStep V κ ι)) :
    (∀ taken, taken <+: steps →
      (run (PromotionState.step env calls) (.initial store experiments runs) taken).PromotedOnce
        calls) ↔
      Along (PromotionState.step env calls) (Exclusive env calls)
        (.initial store experiments runs) steps := by
  have hinit : KeyInv calls (PromotionState.initial store experiments runs) :=
    KeyInv.initial store experiments runs
  have halong : Along (PromotionState.step env calls)
      (fun s a => (s.step env calls a).PromotedOnce calls) (.initial store experiments runs) steps ↔
        Along (PromotionState.step env calls) (Exclusive env calls)
          (.initial store experiments runs) steps :=
    along_iff_of_invariant (KeyInv calls)
      (fun _ _ h => ⟨h.exclusive_of_promotedOnce, fun hex => (h.step hex).promotedOnce⟩)
      (fun _ _ h hex => h.step hex) hinit steps
  rw [← halong]
  exact (forall_prefix_iff_along (Q := PromotionState.PromotedOnce calls)).trans
    (and_iff_right hinit.promotedOnce)

/-- A call that nobody disturbs is `promote_to_main`. -/
theorem alone_promoteToMain (env : Env V) (calls : ι → PromoteCall V)
    (s : PromotionState V κ ι) {i : ι} (hi : s.phases i = .idle) (now : ℕ) :
    (run (PromotionState.step env calls) s (List.replicate 4 (.call i now))).world =
      match s.world.promoteToMain env (calls i).req (calls i).resolvedConfig
        (calls i).promotionId now with
      | .ok (_, w) => w
      | .error _ => s.world := by
  simp only [List.replicate, run_cons, run_nil, PromotionState.step]
  unfold World.promoteToMain
  -- the four steps find what the call in one piece finds, and stop where it stops
  cases hlookup : (s.world.promotions.get? (keyOf calls i)).filter
      fun record => record.status = .promoted with
  | some record =>
    have hkey : (s.world.promotions.get? (calls i).req.idempotencyKey).filter
        (fun record => record.status = .promoted) = some record := hlookup
    simp [PromotionState.callStep, hi, hlookup, hkey]
  | none =>
    have hkey : (s.world.promotions.get? (calls i).req.idempotencyKey).filter
        (fun record => record.status = .promoted) = none := hlookup
    cases hpreview : s.world.previewPromotion env (calls i).req with
    | error e =>
      simp [PromotionState.callStep, hi, hlookup, hkey, hpreview, bind, Except.bind]
    | ok found =>
      obtain ⟨cand, source, gateC⟩ := found
      by_cases hgate : gateC.decision ≠ .pass ∧ (calls i).resolvedConfig = none
      · simp [PromotionState.callStep, hi, hlookup, hkey, hpreview, hgate, bind, Except.bind]
      · have hfirst : ((s.callStep env calls i now).callStep env calls i now) =
            (s.setPhase i .looked).setPhase i (.checked cand source) := by
          simp only [PromotionState.callStep, hi, hlookup, setPhase_phases, setPhase_world,
            hpreview, if_neg hgate]
        rw [hfirst, hkey]
        simp only [bind, Except.bind, if_neg hgate]
        cases hmerge : s.mergeCall env calls i cand source now with
        | error e =>
          have hmerge' : (((s.setPhase i .looked).setPhase i (.checked cand source)).mergeCall env
              calls i cand source now) = .error e := hmerge
          simp only [PromotionState.callStep, setPhase_phases, hmerge', setPhase_world]
          unfold PromotionState.mergeCall at hmerge
          rw [hmerge]
          rfl
        | ok merged =>
          obtain ⟨commit, store⟩ := merged
          have hmerge' : (((s.setPhase i .looked).setPhase i (.checked cand source)).mergeCall env
              calls i cand source now) = .ok (commit, store) := hmerge
          simp only [PromotionState.callStep, setPhase_phases, hmerge', setPhase_world]
          unfold PromotionState.mergeCall at hmerge
          rw [hmerge]
          rfl

end Keys

/-! ## §3 Two calls -/

/-- Two calls with one key, by two approvers. -/
def twoCalls (first : Bool) : PromoteCall Scalar :=
  ⟨promoteRequest (if first then "ada" else "bob"), none, if first then "promo_1" else "promo_2"⟩

/-- The runs after the simulation of a candidate. -/
def simulatedWorld : World Scalar CallKind :=
  run (World.step sampleSetting) (World.initial promotionStore promotionExperiments)
    (startOps ++ workerOps)

/-- **Two calls that have both looked the key up make two merge commits.** -/
theorem overlapping_calls_merge_twice :
    ¬ ∀ (V κ ι : Type) [DecidableEq V] [DecidableEq ι] (env : Env V) (calls : ι → PromoteCall V)
      (store : Store V) (experiments : Dict String Experiment)
      (runs : Dict String (SimulatedRun κ)) (steps : List (PromotionStep V κ ι)),
      (run (PromotionState.step env calls) (.initial store experiments runs) steps).PromotedOnce
        calls := by
  intro h
  have hlength := (h Scalar CallKind Bool openEnv twoCalls simulatedWorld.store
    simulatedWorld.experiments simulatedWorld.runs
    [.call true 1, .call false 2, .call true 3, .call true 4, .call false 5, .call false 6]).1 "key"
  revert hlength
  decide +kernel

end CryptoTrading.Experiments
